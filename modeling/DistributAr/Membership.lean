/-
# `DistributAr.Membership` — the multicast groups of a process

A process has to be in the group of a cluster that somebody in it subscribes to,
unless the cluster runs in the process itself: then its packets come through the
queues, and those from the network would be read twice.

`subscribe` and `unsubscribe` decide by what the IDs are at that moment, and keep
the two in step.  `RUN` changes an ID and decides nothing.  It does no harm when
nothing depended on either ID (`Harmless`), and only then (`membership_iff`).
-/
import DistributAr.Lib.Run
import DistributAr.Subscription

namespace DistributAr

open Lib

namespace LocalNetwork

variable (command : List Char → List Char) (garbage : ClusterID)

/-- A command at the server in a position, where the OS always agrees. -/
def step (s : LocalNetwork) (order : Nat × Instruction) : Option LocalNetwork :=
  (s.parseCommand command garbage true order.1 order.2.text).map Prod.fst

/-- Somebody in the process subscribes to `r`. -/
def Subscribed (s : LocalNetwork) (r : ClusterID) : Prop := ∃ l, r ∈ s.subscriptions.values l

/-- The process is in exactly the groups it needs. -/
def MatchesNeed (s : LocalNetwork) : Prop :=
  ∀ r, idToMulticast r ∈ s.joined ↔ s.Subscribed r ∧ ¬ s.serves r

/-- A `RUN` that gives a server a new ID leaves the others with what they need:
nobody waits for the new ID, and nobody loses the old one. -/
def Harmless (s : LocalNetwork) (order : Nat × Instruction) : Prop :=
  ∀ n server, order.2 = .run n → s.servers[order.1]? = some server → server.id ≠ n →
    (s.Subscribed n → s.serves n) ∧
    (s.Subscribed server.id → ∃ j other, j ≠ order.1 ∧ s.servers[j]? = some other
      ∧ other.id = server.id)

variable {command garbage} {os : Bool} {s t : LocalNetwork} {localId remote r : ClusterID}
  {i : Nat} {order : Nat × Instruction}

theorem step_eq : s.step command garbage order = s.obey true order.1 order.2 := by
  rw [step, parseCommand_text, Option.map_map]
  exact Option.map_id'

/-! ## What each command does to the four parts -/

theorem serves_iff : s.serves r ↔ ∃ (j : Nat) (server : LocalServer),
    s.servers[j]? = some server ∧ server.id = r := by
  simp only [serves, List.any_eq_true, decide_eq_true_eq, List.mem_iff_getElem?]
  constructor
  · rintro ⟨server, ⟨j, hj⟩, rfl⟩
    exact ⟨j, server, hj, rfl⟩
  · rintro ⟨j, server, hj, rfl⟩
    exact ⟨server, ⟨j, hj⟩, rfl⟩

theorem serves_congr (h : t.servers = s.servers) : t.serves r = s.serves r := by
  rw [serves, serves, h]

theorem subscribed_subscribe : (s.subscribe os localId remote).Subscribed r
    ↔ s.Subscribed r ∨ r = remote := by
  constructor
  · rintro ⟨l, hl⟩
    rcases mem_subscribe.mp hl with hold | ⟨-, hr⟩
    · exact .inl ⟨l, hold⟩
    · exact .inr hr
  · rintro (⟨l, hl⟩ | rfl)
    · exact ⟨l, mem_subscribe.mpr (.inl hl)⟩
    · exact ⟨localId, mem_subscribe.mpr (.inr ⟨rfl, rfl⟩)⟩

/-- A `CONNECT` joins the group of the remote cluster, if it is new to the cluster,
runs elsewhere, and the OS agrees. -/
theorem mem_joined_subscribe : idToMulticast r ∈ (s.subscribe os localId remote).joined
    ↔ idToMulticast r ∈ s.joined
      ∨ os = true ∧ r = remote ∧ remote ∉ s.subscriptions.values localId ∧ ¬ s.serves remote := by
  unfold subscribe
  dsimp only
  by_cases hmem : remote ∈ s.subscriptions.values localId
  · rw [if_pos hmem]
    simp only [hmem, not_true, false_and, and_false, or_false]
  · rw [if_neg hmem]
    have hserves : ∀ m, ({ s with dirty := true, subscriptions := m } : LocalNetwork).serves remote
        = s.serves remote := fun _ => rfl
    rw [hserves]
    split
    · rename_i hlocal
      simp only [hlocal, not_true, and_false, or_false]
    · rename_i hremote
      cases os with
      | false => simp [joinMulticast]
      | true =>
          by_cases hr : r = remote
          · subst hr
            simp [joinMulticast, hmem, hremote]
          · have hgroup : idToMulticast r ≠ idToMulticast remote :=
              fun h => hr (idToMulticast_inj.mp h)
            simp [joinMulticast, hr, hgroup]

/-- An entry is the vector of its key. -/
theorem any_entries_iff :
    (s.subscriptions.entries.any fun i => r ∈ i.2) = true ↔ s.Subscribed r := by
  simp only [List.any_eq_true, decide_eq_true_eq]
  constructor
  · rintro ⟨e, he, hr⟩
    exact ⟨e.1, (Multimap.mem_entries_values he).symm ▸ hr⟩
  · rintro ⟨l, hl⟩
    exact ⟨_, Multimap.exists_entry hl, hl⟩

/-- Only the group of the remote cluster can be left, and only if nothing in the
process needs it any more. -/
theorem mem_joined_unsubscribe (h : s.unsubscribe os localId remote = some t) :
    idToMulticast r ∈ t.joined
      ↔ idToMulticast r ∈ s.joined
        ∧ (os = true → r = remote → t.Subscribed remote ∨ s.serves remote) := by
  obtain ⟨hmem, -, -, hsub⟩ := unsubscribe_eq_some h
  have hsubscribed : t.Subscribed remote
      ↔ ({ s with subscriptions := t.subscriptions } : LocalNetwork).Subscribed remote := Iff.rfl
  rw [hsubscribed, ← any_entries_iff, hsub]
  unfold unsubscribe at h
  dsimp only at h
  rw [if_pos hmem] at h
  split at h
  · rename_i hany
    cases h
    exact (and_iff_left fun _ _ => .inl hany).symm
  split at h
  · rename_i hserves
    cases h
    exact (and_iff_left fun _ _ => .inr hserves).symm
  · rename_i hany hserves
    cases h
    have hserves' : ¬ s.serves remote = true := hserves
    cases os with
    | false => simp [leaveMulticast]
    | true =>
        by_cases hr : r = remote
        · subst hr
          simp only [leaveMulticast, if_true, List.mem_filter, ne_eq, decide_eq_true_eq, not_true,
            and_false, hany, hserves', or_self, imp_false, Bool.false_eq_true]
        · have hgroup : idToMulticast r ≠ idToMulticast remote :=
            fun h => hr (idToMulticast_inj.mp h)
          simp only [leaveMulticast, if_true, List.mem_filter, ne_eq, hgroup, not_false_iff,
            decide_true, and_true, hr, false_imp_iff, imp_true_iff]

/-- After `RUN`, a server has the new ID, and the others have theirs. -/
theorem serves_run {server : LocalServer} (hserver : s.servers[i]? = some server)
    {n : ClusterID} (hne : server.id ≠ n) : (s.run i server.id n).serves r
      ↔ r = n ∨ ∃ j other, j ≠ i ∧ s.servers[j]? = some other ∧ other.id = r := by
  obtain ⟨hlt, -⟩ := List.getElem?_eq_some_iff.mp hserver
  rw [serves_iff, run_servers, if_neg hne]
  constructor
  · rintro ⟨j, other, hj, rfl⟩
    by_cases hji : j = i
    · subst hji
      rw [List.getElem?_set_self hlt] at hj
      cases hj
      exact .inl rfl
    · rw [List.getElem?_set_ne (Ne.symm hji)] at hj
      exact .inr ⟨j, other, hji, hj, rfl⟩
  · rintro (rfl | ⟨j, other, hji, hj, rfl⟩)
    · exact ⟨i, _, List.getElem?_set_self hlt, rfl⟩
    · exact ⟨j, other, (List.getElem?_set_ne (Ne.symm hji)).trans hj, rfl⟩

/-! ## `CONNECT` and `DROP` keep the groups in step -/

theorem MatchesNeed.subscribe (h : s.MatchesNeed) :
    (s.subscribe true localId remote).MatchesNeed := by
  intro r
  rw [mem_joined_subscribe, subscribed_subscribe, serves_congr subscribe_servers, h r]
  by_cases hr : r = remote
  · subst hr
    constructor
    · rintro (⟨-, hremote⟩ | ⟨-, -, -, hremote⟩)
      · exact ⟨.inr rfl, hremote⟩
      · exact ⟨.inr rfl, hremote⟩
    · rintro ⟨-, hremote⟩
      by_cases hmem : r ∈ s.subscriptions.values localId
      · exact .inl ⟨⟨localId, hmem⟩, hremote⟩
      · exact .inr ⟨rfl, rfl, hmem, hremote⟩
  · simp only [hr, false_and, and_false, or_false]

/-- What the cluster gave up is the subscription to `remote`. -/
theorem subscribed_unsubscribe (h : s.unsubscribe os localId remote = some t)
    (hr : r ≠ remote) : t.Subscribed r ↔ s.Subscribed r := by
  obtain ⟨-, -, -, hsub⟩ := unsubscribe_eq_some h
  refine exists_congr ?_
  intro l
  rw [hsub, Multimap.values_assign]
  split
  · rename_i hl
    rw [hl]
    exact List.mem_erase_of_ne hr
  · rfl

theorem MatchesNeed.unsubscribe (h : s.MatchesNeed)
    (hs : s.unsubscribe true localId remote = some t) : t.MatchesNeed := by
  obtain ⟨hmem, -, hservers, -⟩ := unsubscribe_eq_some hs
  intro r
  rw [mem_joined_unsubscribe hs, h r, serves_congr hservers]
  by_cases hr : r = remote
  · subst hr
    have hwas : s.Subscribed r := ⟨localId, hmem⟩
    constructor
    · rintro ⟨⟨-, hremote⟩, hneed⟩
      exact ⟨(hneed rfl rfl).resolve_right hremote, hremote⟩
    · rintro ⟨hnow, hremote⟩
      exact ⟨⟨hwas, hremote⟩, fun _ _ => .inl hnow⟩
  · rw [subscribed_unsubscribe hs hr]
    exact and_iff_left fun _ h => absurd h hr

/-! ## `RUN` -/

/-- The groups still match after a `RUN` exactly if it is harmless. -/
theorem MatchesNeed.run_iff {server : LocalServer} {n : ClusterID} (h : s.MatchesNeed)
    (hserver : s.servers[i]? = some server) (hne : server.id ≠ n) :
    (s.run i server.id n).MatchesNeed ↔ (s.Subscribed n → s.serves n) ∧
      (s.Subscribed server.id → ∃ j other, j ≠ i ∧ s.servers[j]? = some other
        ∧ other.id = server.id) := by
  have hjoined := run_joined (s := s) (i := i) server.id n
  have hsub : ∀ r, (s.run i server.id n).Subscribed r ↔ s.Subscribed r := by
    intro r
    rw [Subscribed, Subscribed, run_subscriptions]
  have hold : s.serves server.id = true := serves_iff.mpr ⟨i, server, hserver, rfl⟩
  constructor
  · intro hmatch
    constructor
    · intro hn
      by_contra hremote
      -- the process is in the group of `n`, and now runs it
      have hin := (h n).mpr ⟨hn, hremote⟩
      have hout := (hmatch n).mp (hjoined ▸ hin)
      exact hout.2 ((serves_run hserver hne).mpr (.inl rfl))
    · intro hl
      by_contra hnone
      -- nobody runs the old ID any more, and the group was not joined
      have hlost : ¬ (s.run i server.id n).serves server.id := by
        rw [serves_run hserver hne]
        rintro (heq | hother)
        · exact hne heq
        · exact hnone hother
      have hin := (hmatch server.id).mpr ⟨(hsub _).mpr hl, hlost⟩
      rw [hjoined] at hin
      exact ((h server.id).mp hin).2 hold
  · rintro ⟨hnew, hkept⟩ r
    rw [hjoined, h r, hsub r, serves_run hserver hne]
    refine and_congr_right ?_
    intro hr
    rw [not_iff_not, serves_iff]
    constructor
    · rintro ⟨j, other, hj, rfl⟩
      by_cases hji : j = i
      · subst hji
        cases hserver.symm.trans hj
        exact .inr (hkept hr)
      · exact .inr ⟨j, other, hji, hj, rfl⟩
    · rintro (rfl | ⟨j, other, -, hj, hid⟩)
      · exact serves_iff.mp (hnew hr)
      · exact ⟨j, other, hj, hid⟩

/-- One command. -/
theorem matchesNeed_step (s : LocalNetwork) (order : Nat × Instruction) (t : LocalNetwork)
    (h : s.MatchesNeed) (hs : s.step command garbage order = some t) :
    t.MatchesNeed ↔ s.Harmless order := by
  obtain ⟨i, ins⟩ := order
  rw [step_eq] at hs
  cases ins with
  | connect remote =>
      obtain ⟨server, -, rfl⟩ := Option.map_eq_some_iff.mp hs
      exact iff_of_true h.subscribe fun _ _ heq => nomatch heq
  | drop remote =>
      obtain ⟨server, -, hdrop⟩ := Option.bind_eq_some_iff.mp hs
      exact iff_of_true (h.unsubscribe hdrop) fun _ _ heq => nomatch heq
  | run newId =>
      obtain ⟨server, hserver, rfl⟩ := Option.map_eq_some_iff.mp hs
      by_cases hid : server.id = newId
      · have hsame : s.run i server.id newId = s := if_neg fun hne => hne hid
        rw [hsame]
        refine iff_of_true h ?_
        intro n other heq hother hne
        cases heq
        cases hserver.symm.trans hother
        exact absurd hid hne
      · rw [h.run_iff hserver hid]
        constructor
        · intro hharm n other heq hother _
          cases heq
          cases hserver.symm.trans hother
          exact hharm
        · intro hharm
          exact hharm newId server rfl hserver hid

theorem matchesNeed_start (servers : List LocalServer) : (start servers).MatchesNeed := by
  intro r
  constructor
  · intro h
    exact absurd h List.not_mem_nil
  · rintro ⟨⟨_, h⟩, -⟩
    exact absurd h List.not_mem_nil

/-- In every run: the process is always in the groups it needs exactly if every
`RUN` is harmless. -/
theorem membership_iff (command : List Char → List Char) (garbage : ClusterID)
    (servers : List LocalServer) (orders : List (Nat × Instruction)) :
    Run.Always (step command garbage) MatchesNeed (start servers) orders
      ↔ Run.Each (step command garbage) Harmless (start servers) orders :=
  Run.always_iff_each (I := fun _ => True) (fun _ _ _ _ _ => trivial)
    (fun s order t _ h hs => matchesNeed_step s order t h hs) trivial
    (matchesNeed_start servers)

/-- Cluster 1 subscribes to 7, then the other server of the process becomes 7. -/
def cameHome : List (Nat × Instruction) := [(0, .connect 7), (1, .run 7)]

/-- The process stays in the group of a cluster that it runs itself. -/
theorem cameHome_not_matching : ¬ Run.Always (step id 0) MatchesNeed
    (start [.ofId 1, .ofId 2]) cameHome := by
  intro h
  obtain ⟨t, ht, hjoined, hserves⟩ :
      ∃ t, Run.after (step id 0) (start [.ofId 1, .ofId 2]) cameHome = some t
        ∧ idToMulticast 7 ∈ t.joined ∧ t.serves 7 :=
    ⟨_, rfl, by decide, rfl⟩
  exact ((h cameHome (List.prefix_refl _) t ht 7).mp hjoined).2 hserves

end LocalNetwork

end DistributAr
