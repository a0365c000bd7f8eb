/-
# `DistributAr.Subscribers` — the table of the main loop

The main loop hands a packet to the servers that `subscribers` lists under its
source.  `Network::getSubscriptions` makes that table anew when `dirty` is set
and leaves it alone otherwise.

The table depends on two things: the subscriptions, which `CONNECT` and `DROP`
change, and the IDs of the servers, which `RUN` changes.  Only the first two set
the flag.  So what the table says is right for the IDs that the servers had when
it was made (`Made`), and that is right now exactly if, wherever the flag is
clear, each server has the subscriptions that its ID of that time has
(`subscribers_right_iff`).
-/
import DistributAr.Lib.Run
import DistributAr.Subscription

namespace DistributAr

open Lib

/-- The servers of a process and the table of its main loop.  The IDs for which
the table was made are a record that the program does not keep. -/
structure MainLoop where
  network : LocalNetwork
  subscribers : Subscribers
  madeFor : List ClusterID

/-- What can happen: a command at a server, or a look at the subscriptions. -/
inductive MainEvent where
  | command (server : Nat) (ins : Instruction) (os : Bool)
  | getSubscriptions (order : Multimap.VisitOrder ClusterID ClusterID)

namespace LocalNetwork

/-- The pairs of a remote ID and a position that the loops of
`getSubscriptions` go through. -/
def pairs (order : Multimap.VisitOrder ClusterID ClusterID) (s : LocalNetwork) :
    List (ClusterID × Nat) :=
  (order.visit s.subscriptions).flatMap fun i => i.2.flatMap fun remote =>
    (s.servers.zipIdx.filter fun serv => i.1 = serv.1.id).map fun serv => (remote, serv.2)

variable {order : Multimap.VisitOrder ClusterID ClusterID} {s : LocalNetwork} {r : ClusterID}
  {i : Nat} {table : Subscribers}

/-- The three loops are one over the pairs. -/
theorem getSubscriptions_of_dirty (h : s.dirty = true) : s.getSubscriptions order table
    = ({ s with dirty := false }, (s.pairs order).foldl (fun table p => table.push p.1 p.2) ∅) := by
  rw [getSubscriptions, if_pos h, pairs]
  simp only [List.foldl_flatMap, List.foldl_map, List.foldl_filter, decide_eq_true_eq]

theorem getSubscriptions_of_clean (h : s.dirty = false) :
    s.getSubscriptions order table = (s, table) := by
  rw [getSubscriptions, h]
  rfl

theorem mem_pairs (order : Multimap.VisitOrder ClusterID ClusterID) : (r, i) ∈ s.pairs order
    ↔ ∃ server, s.servers[i]? = some server ∧ r ∈ s.subscriptions.values server.id := by
  simp only [pairs, List.mem_flatMap, List.mem_map, List.mem_filter, decide_eq_true_eq,
    List.mem_zipIdx_iff_getElem?, Prod.mk.injEq, Multimap.VisitOrder.mem_visit]
  constructor
  · rintro ⟨e, he, remote, hremote, serv, ⟨hserv, hid⟩, rfl, rfl⟩
    refine ⟨serv.1, hserv, ?_⟩
    rw [← hid, Multimap.mem_entries_values he]
    exact hremote
  · rintro ⟨server, hserver, hmem⟩
    exact ⟨_, Multimap.exists_entry hmem, r, hmem, (server, i), ⟨hserver, rfl⟩, rfl, rfl⟩

/-- A server has one ID, an ID one vector, and the vector no duplicates. -/
theorem nodup_pairs (h : s.Distinct) : (s.pairs order).Nodup := by
  have hkeys : ((order.visit s.subscriptions).map Sigma.fst).Nodup :=
    ((order.perm s.subscriptions).map Sigma.fst).nodup_iff.mpr s.subscriptions.nodupKeys
  have hpositions : (s.servers.zipIdx.map Prod.snd).Nodup := by
    rw [List.zipIdx_map_snd]
    exact List.nodup_range'
  refine List.nodup_flatMap.mpr ⟨?_, ?_⟩
  · intro e he
    have hentry := (order.mem_visit (m := s.subscriptions)).mp he
    refine List.nodup_flatMap.mpr ⟨?_, ?_⟩
    · intro remote _
      have hsub : ((s.servers.zipIdx.filter fun serv => e.1 = serv.1.id).map Prod.snd).Nodup :=
        hpositions.sublist (List.filter_sublist.map Prod.snd)
      refine List.Nodup.of_map Prod.snd ?_
      rwa [List.map_map]
    · rw [← Multimap.mem_entries_values hentry]
      refine (h e.1).imp ?_
      intro a b hab p hpa hpb
      obtain ⟨_, -, rfl⟩ := List.mem_map.mp hpa
      obtain ⟨_, -, heq⟩ := List.mem_map.mp hpb
      exact hab (Prod.mk.inj heq).1.symm
  · refine (List.pairwise_map.mp hkeys).imp ?_
    intro a b hab p hpa hpb
    obtain ⟨_, -, hpa⟩ := List.mem_flatMap.mp hpa
    obtain ⟨_, -, hpb⟩ := List.mem_flatMap.mp hpb
    obtain ⟨v, hv, rfl⟩ := List.mem_map.mp hpa
    obtain ⟨w, hw, heq⟩ := List.mem_map.mp hpb
    have hva := (List.mem_filter.mp hv)
    have hwb := (List.mem_filter.mp hw)
    have hpos : w.2 = v.2 := (Prod.mk.inj heq).2
    have hfst : w.1 = v.1 := by
      have hw' := List.mem_zipIdx_iff_getElem?.mp hwb.1
      have hv' := List.mem_zipIdx_iff_getElem?.mp hva.1
      rw [hpos, hv'] at hw'
      exact (Option.some.inj hw').symm
    have ha : a.1 = v.1.id := of_decide_eq_true hva.2
    have hb : b.1 = w.1.id := of_decide_eq_true hwb.2
    exact hab (by rw [ha, hb, hfst])

end LocalNetwork

namespace MainLoop

variable (command : List Char → List Char) (garbage : ClusterID)

/-- A process with servers, before the first command. -/
def start (servers : List LocalServer) : MainLoop :=
  ⟨.start servers, ∅, servers.map (·.id)⟩

/-- One event. -/
def step (s : MainLoop) : MainEvent → Option MainLoop
  | .command i ins os =>
      (s.network.parseCommand command garbage os i ins.text).map fun r => { s with network := r.1 }
  | .getSubscriptions order =>
      let (network, subscribers) := s.network.getSubscriptions order s.subscribers
      let madeFor := if s.network.dirty then s.network.servers.map (·.id) else s.madeFor
      some ⟨network, subscribers, madeFor⟩

/-- Each entry has exactly the servers whose present ID is subscribed, each once. -/
def Right (s : MainLoop) : Prop :=
  ∀ r, (s.subscribers.values r).Nodup ∧ ∀ i, i ∈ s.subscribers.values r ↔
    ∃ server, s.network.servers[i]? = some server ∧ r ∈ s.network.subscriptions.values server.id

/-- If the flag is clear, each server has the subscriptions that belong to the ID
it had when the table was made. -/
def Current (s : MainLoop) : Prop :=
  s.network.dirty = false → ∀ (i : Nat) (server : LocalServer) (id : ClusterID),
    s.network.servers[i]? = some server → s.madeFor[i]? = some id →
    ∀ r, r ∈ s.network.subscriptions.values server.id ↔ r ∈ s.network.subscriptions.values id

/-- The table is right after the event, if that is a look at the subscriptions. -/
def RightAfter (s : MainLoop) (e : MainEvent) : Prop :=
  ∀ order, e = .getSubscriptions order → ∀ t, s.step command garbage e = some t → t.Right

/-- The servers have kept their subscriptions before the event, if that is a look
at them. -/
def CurrentBefore (s : MainLoop) (e : MainEvent) : Prop :=
  ∀ order, e = .getSubscriptions order → s.Current

/-- What holds in every state: while the flag is clear, the table is right for the
IDs for which it was made. -/
structure Made (s : MainLoop) : Prop where
  distinct : s.network.Distinct
  length_eq : s.madeFor.length = s.network.servers.length
  table : s.network.dirty = false → ∀ r, (s.subscribers.values r).Nodup ∧
    ∀ i, i ∈ s.subscribers.values r ↔
      ∃ id, s.madeFor[i]? = some id ∧ r ∈ s.network.subscriptions.values id

variable {command garbage} {s t : MainLoop} {e : MainEvent}

theorem made_start (servers : List LocalServer) : (start servers).Made where
  distinct := LocalNetwork.distinct_start servers
  length_eq := List.length_map _
  table := by
    intro _ r
    refine ⟨List.nodup_nil, ?_⟩
    intro i
    constructor
    · intro h
      exact absurd h List.not_mem_nil
    · rintro ⟨_, -, h⟩
      exact absurd h List.not_mem_nil

/-- A new table is right. -/
theorem right_of_dirty {order : Multimap.VisitOrder ClusterID ClusterID}
    (hdistinct : s.network.Distinct) (hdirty : s.network.dirty = true)
    (h : s.step command garbage (.getSubscriptions order) = some t) :
    t.Right ∧ t.network = { s.network with dirty := false }
      ∧ t.madeFor = s.network.servers.map (·.id) := by
  rw [step, LocalNetwork.getSubscriptions_of_dirty hdirty] at h
  cases h
  refine ⟨?_, rfl, if_pos hdirty⟩
  intro r
  dsimp only
  rw [Multimap.values_foldl_push, Multimap.values_empty, List.nil_append]
  constructor
  · refine List.Nodup.map_on ?_ ((LocalNetwork.nodup_pairs hdistinct).filter _)
    intro p hp q hq hpq
    have hp' : p.1 = r := of_decide_eq_true (List.mem_filter.mp hp).2
    have hq' : q.1 = r := of_decide_eq_true (List.mem_filter.mp hq).2
    exact Prod.ext (hp'.trans hq'.symm) hpq
  · intro i
    rw [← LocalNetwork.mem_pairs order, List.mem_map]
    constructor
    · rintro ⟨p, hp, rfl⟩
      obtain ⟨hmem, hfst⟩ := List.mem_filter.mp hp
      rwa [← of_decide_eq_true hfst]
    · intro hmem
      exact ⟨(r, i), List.mem_filter.mpr ⟨hmem, decide_eq_true rfl⟩, rfl⟩

/-- The old table is right if it was made for what the servers have. -/
theorem right_of_clean_iff (h : s.Made) (hdirty : s.network.dirty = false) :
    s.Right ↔ s.Current := by
  have htable := h.table hdirty
  have hsome : ∀ i : Nat, (∃ id, s.madeFor[i]? = some id)
      ↔ ∃ server, s.network.servers[i]? = some server := by
    intro i
    simp only [← Option.isSome_iff_exists, isSome_getElem?, h.length_eq]
  constructor
  · intro hright _ i server id hserver hid r
    constructor
    · intro hr
      obtain ⟨id', hid', hr'⟩ := ((htable r).2 i).mp (((hright r).2 i).mpr ⟨server, hserver, hr⟩)
      rw [hid] at hid'
      cases hid'
      exact hr'
    · intro hr
      obtain ⟨server', hserver', hr'⟩ :=
        ((hright r).2 i).mp (((htable r).2 i).mpr ⟨id, hid, hr⟩)
      rw [hserver] at hserver'
      cases hserver'
      exact hr'
  · intro hcurrent r
    refine ⟨(htable r).1, ?_⟩
    intro i
    rw [(htable r).2 i]
    constructor
    · rintro ⟨id, hid, hr⟩
      obtain ⟨server, hserver⟩ := (hsome i).mp ⟨id, hid⟩
      exact ⟨server, hserver, (hcurrent hdirty i server id hserver hid r).mpr hr⟩
    · rintro ⟨server, hserver, hr⟩
      obtain ⟨id, hid⟩ := (hsome i).mpr ⟨server, hserver⟩
      exact ⟨id, hid, (hcurrent hdirty i server id hserver hid r).mp hr⟩

/-- A command that leaves the flag clear has not touched the subscriptions. -/
theorem made_command {i : Nat} {ins : Instruction} {os : Bool} (h : s.Made)
    (hs : s.step command garbage (.command i ins os) = some t) : t.Made := by
  obtain ⟨r, hr, rfl⟩ := Option.map_eq_some_iff.mp hs
  rw [LocalNetwork.parseCommand_text] at hr
  obtain ⟨network, hnet, rfl⟩ := Option.map_eq_some_iff.mp hr
  refine ⟨h.distinct.obey hnet, ?_, ?_⟩
  · exact h.length_eq.trans (LocalNetwork.length_obey hnet).symm
  · intro hdirty
    cases ins with
    | connect remote =>
        obtain ⟨server, -, rfl⟩ := Option.map_eq_some_iff.mp hnet
        exact absurd (LocalNetwork.subscribe_dirty.symm.trans hdirty) (by decide)
    | drop remote =>
        obtain ⟨server, -, hdrop⟩ := Option.bind_eq_some_iff.mp hnet
        obtain ⟨-, hset, -⟩ := LocalNetwork.unsubscribe_eq_some hdrop
        exact absurd (hset.symm.trans hdirty) (by decide)
    | run newId =>
        obtain ⟨server, -, rfl⟩ := Option.map_eq_some_iff.mp hnet
        rw [LocalNetwork.run_dirty] at hdirty
        rw [LocalNetwork.run_subscriptions]
        exact h.table hdirty

theorem made_step (s : MainLoop) (e : MainEvent) (t : MainLoop) (h : s.Made)
    (hs : s.step command garbage e = some t) : t.Made := by
  cases e with
  | command i ins os => exact made_command h hs
  | getSubscriptions order =>
      cases hdirty : s.network.dirty with
      | true =>
          obtain ⟨hright, hnetwork, hmadeFor⟩ := right_of_dirty h.distinct hdirty hs
          refine ⟨?_, ?_, ?_⟩
          · rw [hnetwork]
            exact h.distinct
          · rw [hnetwork, hmadeFor]
            exact List.length_map _
          · intro _ r
            refine ⟨(hright r).1, ?_⟩
            intro i
            rw [(hright r).2 i, hnetwork, hmadeFor, List.getElem?_map]
            simp only [Option.map_eq_some_iff, exists_exists_and_eq_and]
      | false =>
          rw [step, LocalNetwork.getSubscriptions_of_clean hdirty, hdirty] at hs
          cases hs
          exact h

/-- One look at the subscriptions. -/
theorem rightAfter_iff (s : MainLoop) (e : MainEvent) (t : MainLoop) (h : s.Made)
    (hs : s.step command garbage e = some t) :
    s.RightAfter command garbage e ↔ s.CurrentBefore e := by
  refine forall₂_congr ?_
  rintro order rfl
  have hone : (∀ u, s.step command garbage (.getSubscriptions order) = some u → u.Right)
      ↔ t.Right := by
    constructor
    · exact fun hall => hall t hs
    · intro ht u hu
      rw [hs] at hu
      cases hu
      exact ht
  rw [hone]
  cases hdirty : s.network.dirty with
  | true =>
      have hcurrent : s.Current := fun hclean => absurd (hdirty.symm.trans hclean) (by decide)
      exact iff_of_true (right_of_dirty h.distinct hdirty hs).1 hcurrent
  | false =>
      rw [step, LocalNetwork.getSubscriptions_of_clean hdirty, hdirty] at hs
      cases hs
      exact right_of_clean_iff h hdirty

/-- In every run: the table is right after each look at the subscriptions exactly
if, at each, the servers have what the table was made for. -/
theorem subscribers_right_iff (command : List Char → List Char) (garbage : ClusterID)
    (servers : List LocalServer) (events : List MainEvent) :
    Run.Each (step command garbage) (RightAfter command garbage) (start servers) events
      ↔ Run.Each (step command garbage) CurrentBefore (start servers) events :=
  Run.each_congr made_step rightAfter_iff (made_start servers)

/-- A server subscribes to cluster 7 and is renamed. -/
def renamed : List MainEvent :=
  [.command 0 (.connect 7) true, .getSubscriptions .kept, .command 0 (.run 2) true]

/-- The table still sends it the packets of cluster 7. -/
theorem renamed_not_right : ¬ Run.Each (step id 0) (RightAfter id 0) (start [.ofId 1])
    (renamed ++ [.getSubscriptions .kept]) := by
  intro h
  obtain ⟨t, ht, htable, hserver, hnone⟩ :
      ∃ t, Run.after (step id 0) (start [.ofId 1]) renamed = some t
        ∧ 0 ∈ (t.network.getSubscriptions .kept t.subscribers).2.values 7
        ∧ (t.network.getSubscriptions .kept t.subscribers).1.servers[0]? = some (.ofId 2)
        ∧ (t.network.getSubscriptions .kept t.subscribers).1.subscriptions.values 2 = [] :=
    ⟨_, rfl, by decide, rfl, rfl⟩
  have hright := h renamed (.getSubscriptions .kept) (List.prefix_refl _) t ht rfl .kept rfl _ rfl
  obtain ⟨server, hat, hsub⟩ := ((hright 7).2 0).mp htable
  cases hserver.symm.trans hat
  exact absurd (hnone ▸ hsub) List.not_mem_nil

end MainLoop

end DistributAr
