/-
# `DistributAr.Joins` — `CONNECT` when the OS refuses the group

`Network::subscribe` records the subscription first and joins the group
afterwards, and does not look at what `JoinMulticast` returns.  After a refusal
the cluster has a subscription that no packet can serve, the command has been
acknowledged, and a repetition finds the record and does not try again.

| the join  | `ACK` | subscription | group  | the same command again |
|-----------|-------|--------------|--------|------------------------|
| succeeds  | yes   | recorded     | joined | nothing to do          |
| fails     | yes   | recorded     | not    | does not try           |

What is acknowledged is thus true only where no join fails (`acks_joined_iff`).
-/
import DistributAr.Membership
import DistributAr.Retransmit

namespace DistributAr

open Lib

namespace LocalNetwork

/-- The command as it arrives: the process afterwards and the answer. -/
def request (command : List Char → List Char) (garbage : ClusterID) (s : LocalNetwork)
    (order : Order) : Option (LocalNetwork × List Char) :=
  s.parseCommand command garbage order.os order.position order.instruction.text

/-- The command asks the OS for a group: the remote cluster is new to the cluster
and runs in another process. -/
def Attempts (s : LocalNetwork) (order : Order) : Prop :=
  ∃ remote server, order.instruction = .connect remote ∧ s.servers[order.position]? = some server
    ∧ remote ∉ s.subscriptions.values server.id ∧ ¬ s.serves remote

/-- An acknowledged `CONNECT` is a connection: the cluster runs in the process, or
the process is in its group.  After a failed join the subscriptions are what they
were, and the same command attempts the join again. -/
def AcksJoined (command : List Char → List Char) (garbage : ClusterID) (s : LocalNetwork)
    (order : Order) : Prop :=
  ∀ remote t reply, order.instruction = .connect remote →
    s.request command garbage order = some (t, reply) →
    (reply = "ACK".toList → t.serves remote ∨ idToMulticast remote ∈ t.joined) ∧
    (s.Attempts order → order.os = false →
      t.subscriptions = s.subscriptions ∧ t.Attempts order)

/-- The OS grants the group, if it is asked for one. -/
def Granted (s : LocalNetwork) (order : Order) : Prop := s.Attempts order → order.os = true

/-- What somebody subscribes to runs in the process, or its group is joined. -/
def Reached (s : LocalNetwork) : Prop :=
  ∀ r, s.Subscribed r → s.serves r ∨ idToMulticast r ∈ s.joined

variable {command : List Char → List Char} {garbage : ClusterID} {os : Bool}
  {s t : LocalNetwork} {localId remote r : ClusterID} {order : Order}

theorem request_eq : s.request command garbage order
    = (s.execute order).map fun t => (t, "ACK".toList) :=
  parseCommand_text command garbage order.instruction

/-! ## What one command does to `Reached` -/

/-- Only a group refused can leave a subscription unreached. -/
theorem Reached.subscribe (h : s.Reached)
    (hgranted : remote ∉ s.subscriptions.values localId → ¬ s.serves remote → os = true) :
    (s.subscribe os localId remote).Reached := by
  intro r hr
  rw [serves_congr subscribe_servers, mem_joined_subscribe]
  rcases subscribed_subscribe.mp hr with hold | rfl
  · rcases h r hold with hserves | hjoined
    · exact .inl hserves
    · exact .inr (.inl hjoined)
  · by_cases hserves : s.serves r
    · exact .inl hserves
    by_cases hmem : r ∈ s.subscriptions.values localId
    · exact .inr (.inl ((h r ⟨localId, hmem⟩).resolve_left hserves))
    · exact .inr (.inr ⟨hgranted hmem hserves, rfl, hmem, hserves⟩)

/-- The group that is left is one that nobody needs, whether or not the OS lets go. -/
theorem Reached.unsubscribe (h : s.Reached) (hs : s.unsubscribe os localId remote = some t) :
    t.Reached := by
  obtain ⟨hmem, -, hservers, -⟩ := unsubscribe_eq_some hs
  intro r hr
  rw [serves_congr hservers, mem_joined_unsubscribe hs]
  by_cases heq : r = remote
  · subst heq
    rcases h r ⟨localId, hmem⟩ with hserves | hjoined
    · exact .inl hserves
    · exact .inr ⟨hjoined, fun _ _ => .inl hr⟩
  · rcases h r ((subscribed_unsubscribe hs heq).mp hr) with hserves | hjoined
    · exact .inl hserves
    · exact .inr ⟨hjoined, fun _ h => absurd h heq⟩

theorem reached_start (servers : List LocalServer) : (start servers).Reached := by
  rintro r ⟨l, hl⟩
  exact absurd hl List.not_mem_nil

/-- A step that is granted its group keeps the process reached. -/
theorem Reached.execute (h : s.Reached) (hfixed : ∀ n, order.instruction ≠ .run n)
    (hgranted : s.Granted order) (hs : s.execute order = some t) : t.Reached := by
  obtain ⟨os, i, ins⟩ := order
  cases ins with
  | connect remote =>
      obtain ⟨server, hserver, rfl⟩ := Option.map_eq_some_iff.mp hs
      exact h.subscribe fun hmem hserves => hgranted ⟨remote, server, rfl, hserver, hmem, hserves⟩
  | drop remote =>
      obtain ⟨server, -, hdrop⟩ := Option.bind_eq_some_iff.mp hs
      exact h.unsubscribe hdrop
  | run n => exact absurd rfl (hfixed n)

/-! ## What is acknowledged -/

/-- A refused join is recorded as a subscription. -/
theorem subscriptions_of_attempts {server : LocalServer} (hserver : s.servers[order.position]?
    = some server) (hins : order.instruction = .connect remote) (ha : s.Attempts order)
    (hs : s.execute order = some t) : t.subscriptions ≠ s.subscriptions := by
  obtain ⟨remote', server', hins', hserver', hmem, -⟩ := ha
  cases hins.symm.trans hins'
  cases hserver.symm.trans hserver'
  rw [execute, hins, obey, hserver] at hs
  cases hs
  intro heq
  have hin : remote ∈ (s.subscribe order.os server.id remote).subscriptions.values server.id :=
    mem_subscribe.mpr (.inr ⟨rfl, rfl⟩)
  rw [heq] at hin
  exact hmem hin

/-- One step, where all joins so far were granted. -/
theorem acksJoined_iff_granted (h : s.Reached) (hs : s.execute order = some t) :
    s.AcksJoined command garbage order ↔ s.Granted order := by
  constructor
  · intro hacks ha
    obtain ⟨remote, server, hins, hserver, -⟩ := id ha
    by_contra hos
    have hreq : s.request command garbage order = some (t, "ACK".toList) := by
      rw [request_eq, hs, Option.map_some]
    obtain ⟨hkept, -⟩ := (hacks remote t _ hins hreq).2 ha (Bool.eq_false_iff.mpr hos)
    exact subscriptions_of_attempts hserver hins ha hs hkept
  · intro hgranted remote u reply hins hreq
    rw [request_eq, hs] at hreq
    cases hreq
    refine ⟨fun _ => ?_, fun ha hos => ?_⟩
    · have hfixed : ∀ n, order.instruction ≠ .run n := by
        rw [hins]
        exact fun _ heq => nomatch heq
      rw [execute, hins] at hs
      obtain ⟨server, -, rfl⟩ := Option.map_eq_some_iff.mp hs
      refine h.execute hfixed hgranted ?_ remote
        ⟨server.id, mem_subscribe.mpr (.inr ⟨rfl, rfl⟩)⟩
      rw [execute, hins]
      exact hs
    · rw [hgranted ha] at hos
      cases hos

/-- In every run of `CONNECT` and `DROP`: each acknowledged `CONNECT` is a
connection, and each failed join leaves the subscriptions alone, exactly if the OS
grants every group that it is asked for. -/
theorem acks_joined_iff (command : List Char → List Char) (garbage : ClusterID)
    (servers : List LocalServer) (orders : List Order)
    (hfixed : ∀ order ∈ orders, ∀ n, order.instruction ≠ .run n) :
    Run.Each execute (AcksJoined command garbage) (start servers) orders
      ↔ Run.Each execute Granted (start servers) orders := by
  have hrun : Run.Each execute (fun _ order => ∀ n, order.instruction ≠ .run n) (start servers)
      orders := by
    intro before order hbefore _ _ _
    exact hfixed order (hbefore.subset (List.mem_append_right _ (List.mem_singleton_self _)))
  refine Run.each_congr_of (I := Reached) ?_ ?_ (reached_start servers) hrun
  · intro s order t h hfix hacks hs
    exact h.execute hfix ((acksJoined_iff_granted h hs).mp hacks) hs
  · intro s order t h _ hs
    exact acksJoined_iff_granted h hs

/-- Cluster 1 connects to 7 and the OS has no group left; then it tries again. -/
def refused : List Order := [⟨false, 0, .connect 7⟩, ⟨true, 0, .connect 7⟩]

theorem acks_joined_iff_refused :
    Run.Each execute (AcksJoined (fun _ => []) 0) (start [.ofId 1]) refused
      ↔ Run.Each execute Granted (start [.ofId 1]) refused := by
  refine acks_joined_iff _ _ _ _ ?_
  intro order h n
  rcases List.mem_pair.mp h with rfl | rfl <;> exact fun heq => nomatch heq

/-- Both commands are acknowledged, and the process is in no group. -/
theorem not_acks_joined_refused :
    ¬ Run.Each execute (AcksJoined (fun _ => []) 0) (start [.ofId 1]) refused := by
  intro h
  obtain ⟨s, t, hs, ht, hserves, hjoined⟩ : ∃ s t,
      Run.after execute (start [.ofId 1]) [⟨false, 0, .connect 7⟩] = some s
        ∧ s.execute ⟨true, 0, .connect 7⟩ = some t
        ∧ ¬ t.serves 7 ∧ idToMulticast 7 ∉ t.joined :=
    ⟨_, _, rfl, rfl, by decide, by decide⟩
  have hacks := h [⟨false, 0, .connect 7⟩] ⟨true, 0, .connect 7⟩ (List.prefix_refl _) s hs
    (by rw [ht]; rfl)
  have hreq : s.request (fun _ => []) 0 ⟨true, 0, .connect 7⟩ = some (t, "ACK".toList) := by
    rw [request_eq, ht, Option.map_some]
  rcases (hacks 7 t _ rfl hreq).1 rfl with hserved | hmember
  · exact hserves hserved
  · exact hjoined hmember

end LocalNetwork

end DistributAr
