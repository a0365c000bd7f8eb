/-
# `DistributAr.Locking` — `Network` behind its `SpinLock`

The servers of a process call `subscribe` and `unsubscribe`, the main loop calls
`getSubscriptions`.  Each takes the lock of the `Network` first.  Here the three
are taken apart, an action for a statement or for a round of a loop:

| `subscribe`      | `unsubscribe`       | `getSubscriptions`     |
|------------------|---------------------|------------------------|
| `dirty = true`   | `dirty = true`      | `if(!dirty){ return; }`|
| connected?       | `all.erase`         | `dirty = false`        |
| `push_back`      | any other local?    | `subscribers.clear()`  |
| same process?    | same process?       | `push_back`, for all   |
| `JoinMulticast`  | `LeaveMulticast`    |                        |

Undisturbed, a section does what the function does in one piece (`implements`);
behind the lock it is undisturbed, in any run of any number of threads
(`network_serial`).  The IDs of the servers are read behind the lock too, but
`RUN` writes them without it: the runs here are those in which nobody is renamed.
-/
import DistributAr.Lib.Guarded
import DistributAr.Membership
import DistributAr.Subscribers

namespace DistributAr

open Lib

/-- Where a thread is in `subscribe`. -/
inductive SubscribeAt where
  | dirty
  | connected (i : Nat)
  | pushBack
  | sameProcess (i : Nat)
  | join

/-- Where a thread is in `unsubscribe`. -/
inductive UnsubscribeAt where
  | dirty
  | erase
  | others (i : Nat)
  | sameProcess (i : Nat)
  | leave

/-- Where the main loop is in `getSubscriptions`; the indices are those of the
three loops. -/
inductive GetSubscriptionsAt where
  | test
  | dirty
  | clear
  | pushBack (i j k : Nat)

/-- The functions that take the lock.  The order is the one in which a loop
visits the map. -/
inductive NetworkCall where
  | subscribe (os : Bool) (localId remote : ClusterID)
  | unsubscribe (os : Bool) (order : Multimap.VisitOrder ClusterID ClusterID)
      (localId remote : ClusterID)
  | getSubscriptions (order : Multimap.VisitOrder ClusterID ClusterID)

/-- Where a thread is in the function that it called. -/
inductive NetworkAt where
  | subscribe (os : Bool) (localId remote : ClusterID) (line : SubscribeAt)
  | unsubscribe (os : Bool) (order : Multimap.VisitOrder ClusterID ClusterID)
      (localId remote : ClusterID) (line : UnsubscribeAt)
  | getSubscriptions (order : Multimap.VisitOrder ClusterID ClusterID) (line : GetSubscriptionsAt)

namespace LocalNetwork

/-- The actions of `subscribe`. -/
def subscribeAct (os : Bool) (localId remote : ClusterID) (s : LocalNetwork) :
    SubscribeAt → Option SubscribeAt × LocalNetwork
  | .dirty => (some (.connected 0), { s with dirty := true })
  | .connected i =>
      match (s.subscriptions.values localId)[i]? with
      | some id => (if remote = id then none else some (.connected (i + 1)), s)
      | none => (some .pushBack, s)
  | .pushBack =>
      (some (.sameProcess 0), { s with subscriptions := s.subscriptions.push localId remote })
  | .sameProcess i =>
      match s.servers[i]? with
      | some server => (if remote = server.id then none else some (.sameProcess (i + 1)), s)
      | none => (some .join, s)
  | .join => (none, s.joinMulticast os (idToMulticast remote))

/-- The actions of `unsubscribe`. -/
def unsubscribeAct (os : Bool) (order : Multimap.VisitOrder ClusterID ClusterID)
    (localId remote : ClusterID) (s : LocalNetwork) :
    UnsubscribeAt → Option (Option UnsubscribeAt × LocalNetwork)
  | .dirty => some (some .erase, { s with dirty := true })
  | .erase =>
      let all := s.subscriptions.values localId
      if remote ∈ all then
        some (some (.others 0),
          { s with subscriptions := s.subscriptions.assign localId (all.erase remote) })
      else none
  | .others i =>
      match (order.visit s.subscriptions)[i]? with
      | some conns => some (if remote ∈ conns.2 then none else some (.others (i + 1)), s)
      | none => some (some (.sameProcess 0), s)
  | .sameProcess i =>
      match s.servers[i]? with
      | some server => some (if remote = server.id then none else some (.sameProcess (i + 1)), s)
      | none => some (some .leave, s)
  | .leave => some (none, s.leaveMulticast os (idToMulticast remote))

/-- The actions of `getSubscriptions`. -/
def getSubscriptionsAct (order : Multimap.VisitOrder ClusterID ClusterID) (s : LocalNetwork)
    (subscribers : Subscribers) :
    GetSubscriptionsAt → Option GetSubscriptionsAt × LocalNetwork × Subscribers
  | .test => (if s.dirty then some .dirty else none, s, subscribers)
  | .dirty => (some .clear, { s with dirty := false }, subscribers)
  | .clear => (some (.pushBack 0 0 0), s, ∅)
  | .pushBack i j k =>
      match (order.visit s.subscriptions)[i]? with
      | none => (none, s, subscribers)
      | some e =>
          match e.2[j]? with
          | none => (some (.pushBack (i + 1) 0 0), s, subscribers)
          | some remote =>
              match s.servers[k]? with
              | none => (some (.pushBack i (j + 1) 0), s, subscribers)
              | some serv =>
                  (some (.pushBack i j (k + 1)), s,
                    if e.1 = serv.id then subscribers.push remote k else subscribers)

end LocalNetwork

namespace NetworkCall

/-- What the functions do in one piece. -/
def apply (v : LocalNetwork × Subscribers) : NetworkCall → Option (LocalNetwork × Subscribers)
  | .subscribe os localId remote => some (v.1.subscribe os localId remote, v.2)
  | .unsubscribe os _ localId remote =>
      (v.1.unsubscribe os localId remote).map fun network => (network, v.2)
  | .getSubscriptions order => some (v.1.getSubscriptions order v.2)

/-- The functions as sections behind the lock: the subscriptions of the `Network`,
and the table of the main loop. -/
def sections : Sections NetworkCall NetworkAt (LocalNetwork × Subscribers) where
  enter
    | .subscribe os localId remote => .subscribe os localId remote .dirty
    | .unsubscribe os order localId remote => .unsubscribe os order localId remote .dirty
    | .getSubscriptions order => .getSubscriptions order .test
  act
    | .subscribe os localId remote line, v =>
        let (line, network) := v.1.subscribeAct os localId remote line
        some (line.map (.subscribe os localId remote), network, v.2)
    | .unsubscribe os order localId remote line, v =>
        (v.1.unsubscribeAct os order localId remote line).map fun (line, network) =>
          (line.map (.unsubscribe os order localId remote), network, v.2)
    | .getSubscriptions order line, v =>
        let (line, v) := v.1.getSubscriptionsAct order v.2 line
        some (line.map (.getSubscriptions order), v)

variable {os : Bool} {order : Multimap.VisitOrder ClusterID ClusterID} {localId remote : ClusterID}
  {s : LocalNetwork} {table : Subscribers}

/-! ## A section by itself -/

/-- `for(auto server: servers)`, at the end of `subscribe`. -/
theorem ends_subscribe_sameProcess :
    sections.Ends (some (.subscribe os localId remote (.sameProcess 0))) (s, table)
      (some (if s.serves remote then s else s.joinMulticast os (idToMulticast remote), table)) := by
  refine Sections.Ends.search s.servers (fun server => remote = server.id)
    (fun i => NetworkAt.subscribe os localId remote (.sameProcess i)) none
    (some (.subscribe os localId remote .join)) ?_ ?_ ?_
  · intro i server hserver
    simp only [sections, LocalNetwork.subscribeAct, hserver, decide_eq_true_eq]
    split <;> rfl
  · simp only [sections, LocalNetwork.subscribeAct, List.getElem?_length, Option.map_some]
  · show sections.Ends (if s.serves remote then none else _) _ _
    split
    · exact .finished _
    · exact .act rfl (.finished _)

theorem ends_subscribe :
    sections.Ends (some (.subscribe os localId remote .dirty)) (s, table)
      (some (s.subscribe os localId remote, table)) := by
  refine .act rfl ?_
  refine Sections.Ends.search (s.subscriptions.values localId) (fun id => remote = id)
    (fun i => NetworkAt.subscribe os localId remote (.connected i)) none
    (some (.subscribe os localId remote .pushBack)) ?_ ?_ ?_
  · intro i id hid
    simp only [sections, LocalNetwork.subscribeAct, hid, decide_eq_true_eq]
    split <;> rfl
  · simp only [sections, LocalNetwork.subscribeAct, List.getElem?_length, Option.map_some]
  · have hmem : (s.subscriptions.values localId).any (fun id => remote = id)
        ↔ remote ∈ s.subscriptions.values localId := by
      simp only [List.any_eq_true, decide_eq_true_eq, exists_eq_right']
    unfold LocalNetwork.subscribe
    by_cases h : remote ∈ s.subscriptions.values localId
    · rw [if_pos (hmem.mpr h), if_pos h]
      exact .finished _
    · rw [if_neg (mt hmem.mp h), if_neg h]
      exact .act rfl ends_subscribe_sameProcess

/-- `for(auto server: servers)`, at the end of `unsubscribe`. -/
theorem ends_unsubscribe_sameProcess :
    sections.Ends (some (.unsubscribe os order localId remote (.sameProcess 0))) (s, table)
      (some (if s.serves remote then s
        else s.leaveMulticast os (idToMulticast remote), table)) := by
  refine Sections.Ends.search s.servers (fun server => remote = server.id)
    (fun i => NetworkAt.unsubscribe os order localId remote (.sameProcess i)) none
    (some (.unsubscribe os order localId remote .leave)) ?_ ?_ ?_
  · intro i server hserver
    simp only [sections, LocalNetwork.unsubscribeAct, hserver, decide_eq_true_eq]
    split <;> rfl
  · simp only [sections, LocalNetwork.unsubscribeAct, List.getElem?_length, Option.map_some]
  · show sections.Ends (if s.serves remote then none else _) _ _
    split
    · exact .finished _
    · exact .act rfl (.finished _)

/-- `for(auto i: subscriptions)`: the order makes no difference. -/
theorem ends_unsubscribe_others :
    sections.Ends (some (.unsubscribe os order localId remote (.others 0))) (s, table)
      (some (if s.subscriptions.entries.any (fun i => remote ∈ i.2) then s
        else if s.serves remote then s
        else s.leaveMulticast os (idToMulticast remote), table)) := by
  refine Sections.Ends.search (order.visit s.subscriptions) (fun conns => remote ∈ conns.2)
    (fun i => NetworkAt.unsubscribe os order localId remote (.others i)) none
    (some (.unsubscribe os order localId remote (.sameProcess 0))) ?_ ?_ ?_
  · intro i conns hconns
    simp only [sections, LocalNetwork.unsubscribeAct, hconns, decide_eq_true_eq]
    split <;> rfl
  · simp only [sections, LocalNetwork.unsubscribeAct, List.getElem?_length, Option.map_some]
  · rw [(order.perm s.subscriptions).any_eq]
    split
    · exact .finished _
    · exact ends_unsubscribe_sameProcess

theorem ends_unsubscribe :
    sections.Ends (some (.unsubscribe os order localId remote .dirty)) (s, table)
      ((s.unsubscribe os localId remote).map fun network => (network, table)) := by
  refine .act rfl ?_
  unfold LocalNetwork.unsubscribe
  by_cases h : remote ∈ s.subscriptions.values localId
  · have herase : sections.act (.unsubscribe os order localId remote .erase)
        ({ s with dirty := true }, table)
          = some (some (.unsubscribe os order localId remote (.others 0)), { s with
              dirty := true
              subscriptions :=
                s.subscriptions.assign localId ((s.subscriptions.values localId).erase remote) },
              table) := by
      simp only [sections, LocalNetwork.unsubscribeAct, if_pos h, Option.map_some]
    rw [if_pos h]
    refine .act herase ?_
    simp only [← apply_ite some, Option.map_some]
    exact ends_unsubscribe_others
  · rw [if_neg h]
    refine .undefined ?_
    simp only [sections, LocalNetwork.unsubscribeAct, if_neg h, Option.map_none]

/-- The three loops of `getSubscriptions`, one inside the other. -/
theorem ends_getSubscriptions_pushBack :
    sections.Ends (some (.getSubscriptions order (.pushBack 0 0 0))) (s, table)
      (some (s, (order.visit s.subscriptions).foldl (fun table i =>
        i.2.foldl (fun table remote =>
          s.servers.zipIdx.foldl (fun table serv =>
            if i.1 = serv.1.id then table.push remote serv.2 else table) table) table) table)) := by
  refine Sections.Ends.fold (order.visit s.subscriptions)
    (fun i => NetworkAt.getSubscriptions order (.pushBack i 0 0)) (fun table => (s, table)) ?_ ?_
    (.finished _)
  · intro i e table he hnext
    refine Sections.Ends.fold e.2 (fun j => NetworkAt.getSubscriptions order (.pushBack i j 0))
      (fun table => (s, table)) ?_ ?_ hnext
    · intro j remote table hremote hnext
      refine Sections.Ends.fold s.servers.zipIdx
        (fun k => NetworkAt.getSubscriptions order (.pushBack i j k)) (fun table => (s, table))
        ?_ ?_ hnext
      · intro k serv table hserv hnext
        rw [List.getElem?_zipIdx, Nat.zero_add] at hserv
        obtain ⟨server, hserver, rfl⟩ := Option.map_eq_some_iff.mp hserv
        refine .act ?_ hnext
        simp only [sections, LocalNetwork.getSubscriptionsAct, he, hremote, hserver,
          Option.map_some]
      · intro table hnext
        refine .act ?_ hnext
        simp only [sections, LocalNetwork.getSubscriptionsAct, he, hremote,
          List.length_zipIdx, List.getElem?_length, Option.map_some]
    · intro table hnext
      refine .act ?_ hnext
      simp only [sections, LocalNetwork.getSubscriptionsAct, he, List.getElem?_length,
        Option.map_some]
  · intro table hnext
    refine .act ?_ hnext
    simp only [sections, LocalNetwork.getSubscriptionsAct, List.getElem?_length, Option.map_none]

theorem ends_getSubscriptions :
    sections.Ends (some (.getSubscriptions order .test)) (s, table)
      (some (s.getSubscriptions order table)) := by
  unfold LocalNetwork.getSubscriptions
  cases h : s.dirty with
  | true =>
      have htest : sections.act (.getSubscriptions order .test) (s, table)
          = some (some (.getSubscriptions order .dirty), s, table) := by
        simp only [sections, LocalNetwork.getSubscriptionsAct, h, if_true, Option.map_some]
      refine .act htest (.act rfl (.act rfl ?_))
      exact ends_getSubscriptions_pushBack
  | false =>
      have htest : sections.act (.getSubscriptions order .test) (s, table)
          = some (none, s, table) := by
        simp only [sections, LocalNetwork.getSubscriptionsAct, h, Bool.false_eq_true, if_false,
          Option.map_none]
      exact .act htest (.finished _)

/-- Left alone, each function does what it does in one piece. -/
theorem implements : sections.Implements apply := by
  rintro (⟨os, localId, remote⟩ | ⟨os, order, localId, remote⟩ | ⟨order⟩) ⟨s, table⟩
  · exact ends_subscribe
  · exact ends_unsubscribe
  · exact ends_getSubscriptions

end NetworkCall

/-! ## Behind the lock -/

/-- The threads of a process around its `Network`, from the start. -/
def Network.threads (ι : Type*) [DecidableEq ι] (servers : List LocalServer) :
    System (Guarded ι NetworkCall NetworkAt (LocalNetwork × Subscribers)) :=
  Guarded.system ι NetworkCall.sections (.start servers, ∅)

section Runs

variable {ι : Type*} [DecidableEq ι]

/-- In any run of any threads: one at most is behind the lock; while it is free,
the subscriptions and the table are what the calls done so far make of them one
after the other; and a call that holds the lock, or finds it free, can be
finished, unless it erases the end of a vector. -/
theorem network_serial (servers : List LocalServer)
    (s : Guarded ι NetworkCall NetworkAt (LocalNetwork × Subscribers))
    (h : (Network.threads ι servers).Reachable s) :
    (∀ t call line t' call' line', s.place t = .inside call line →
        s.place t' = .inside call' line' → t = t')
      ∧ (s.flag = false →
          Guarded.replay NetworkCall.apply (.start servers, ∅) s.done = some s.value)
      ∧ ∀ t call v,
          (∃ line, s.place t = .inside call line) ∨ s.flag = false ∧ s.place t = .waiting call →
          Guarded.replay NetworkCall.apply (.start servers, ∅) (s.done ++ [(t, call)]) = some v →
          ∃ s', (Network.threads ι servers).Steps s s' ∧ s'.flag = false ∧ s'.value = v
            ∧ s'.done = s.done ++ [(t, call)] ∧ ∀ u ≠ t, s'.place u = s.place u :=
  ⟨fun _ _ _ _ _ _ => Guarded.mutex NetworkCall.implements h,
    Guarded.serial NetworkCall.implements h,
    fun _ _ _ => Guarded.finish NetworkCall.implements h⟩

/-- The calls a server and the main loop make one after the other. -/
def connectAndLook : List (Bool × NetworkCall) :=
  [(true, .subscribe true 1 7), (false, .getSubscriptions .kept)]

/-- Both threads wait for the lock. -/
def bothWait : Guarded Bool NetworkCall NetworkAt (LocalNetwork × Subscribers) where
  flag := false
  value := (.start [.ofId 1], ∅)
  place := fun
    | true => .waiting (.subscribe true 1 7)
    | false => .waiting (.getSubscriptions .kept)
  done := []

theorem bothWait_reached : (Network.threads Bool [.ofId 1]).Reachable bothWait := by
  have h₀ : (Network.threads Bool [.ofId 1]).Reachable _ := .init rfl
  have h₁ := (h₀.step (.call true (.subscribe true 1 7) rfl)).step
    (.call false (.getSubscriptions .kept) rfl)
  convert h₁ using 1
  refine congrArg (fun place => Guarded.mk false _ place []) ?_
  funext t
  cases t <;> rfl

/-- The server is the first to get it. -/
theorem connectAndLook_reached : ∃ s, (Network.threads Bool [.ofId 1]).Reachable s
    ∧ s.flag = false ∧ s.done = connectAndLook ∧ 0 ∈ s.value.2.values 7 := by
  have hfirst : bothWait.place true = .waiting (.subscribe true 1 7) := rfl
  obtain ⟨s, hrun, hflag, -, hdone, hothers⟩ :=
    Guarded.finish NetworkCall.implements bothWait_reached (.inr ⟨rfl, hfirst⟩) rfl
  have hsecond : s.place false = .waiting (.getSubscriptions .kept) := hothers false (by decide)
  have hboth : s.done ++ [(false, .getSubscriptions .kept)] = connectAndLook := by
    rw [hdone]
    rfl
  have hvalid : Guarded.replay NetworkCall.apply (.start [.ofId 1], ∅) connectAndLook
      = some (((LocalNetwork.start [.ofId 1]).subscribe true 1 7).getSubscriptions .kept ∅) := rfl
  rw [← hboth] at hvalid
  obtain ⟨s', hrun', hflag', hvalue, hdone', -⟩ :=
    Guarded.finish NetworkCall.implements (bothWait_reached.steps hrun) (.inr ⟨hflag, hsecond⟩)
      hvalid
  refine ⟨s', (bothWait_reached.steps hrun).steps hrun', hflag', hdone'.trans hboth, ?_⟩
  rw [hvalue]
  decide

theorem network_serial_connectAndLook : ∃ s, (Network.threads Bool [.ofId 1]).Reachable s
    ∧ Guarded.replay NetworkCall.apply (.start [.ofId 1], ∅) connectAndLook = some s.value := by
  obtain ⟨s, h, hflag, hdone, -⟩ := connectAndLook_reached
  exact ⟨s, h, hdone ▸ (network_serial [.ofId 1] s h).2.1 hflag⟩

end Runs

namespace NetworkCall

/-- The OS agrees to what the call asks of it. -/
def Agreed : NetworkCall → Prop
  | .subscribe os _ _ => os = true
  | .unsubscribe os _ _ _ => os = true
  | .getSubscriptions _ => True

/-- What holds between two calls: no subscription is kept twice, and while the
flag is clear the table has exactly the servers that subscribe. -/
structure Consistent (servers : List LocalServer) (v : LocalNetwork × Subscribers) : Prop where
  servers : v.1.servers = servers
  distinct : v.1.Distinct
  table : v.1.dirty = false → MainLoop.Right ⟨v.1, v.2, []⟩

variable {servers : List LocalServer} {v w : LocalNetwork × Subscribers} {call : NetworkCall}

theorem consistent_start (servers : List LocalServer) : Consistent servers (.start servers, ∅) where
  servers := rfl
  distinct := LocalNetwork.distinct_start servers
  table := by
    intro _ r
    refine ⟨List.nodup_nil, ?_⟩
    intro i
    constructor
    · intro h
      exact absurd h List.not_mem_nil
    · rintro ⟨_, -, h⟩
      exact absurd h List.not_mem_nil

theorem consistent_apply (h : Consistent servers v) (happly : apply v call = some w) :
    Consistent servers w := by
  cases call with
  | subscribe os localId remote =>
      cases happly
      refine ⟨LocalNetwork.subscribe_servers.trans h.servers, h.distinct.subscribe, ?_⟩
      intro hclean
      exact nomatch LocalNetwork.subscribe_dirty.symm.trans hclean
  | unsubscribe os order localId remote =>
      obtain ⟨network, hnetwork, rfl⟩ := Option.map_eq_some_iff.mp happly
      obtain ⟨-, hdirty, hservers, -⟩ := LocalNetwork.unsubscribe_eq_some hnetwork
      refine ⟨hservers.trans h.servers, h.distinct.unsubscribe hnetwork, ?_⟩
      intro hclean
      exact nomatch hdirty.symm.trans hclean
  | getSubscriptions order =>
      cases hdirty : v.1.dirty with
      | true =>
          have hlook : MainLoop.step id 0 ⟨v.1, v.2, []⟩ (.getSubscriptions order) = some _ := rfl
          obtain ⟨hright, hnetwork, -⟩ := MainLoop.right_of_dirty h.distinct hdirty hlook
          cases happly
          refine ⟨?_, ?_, fun _ => hright⟩
          · exact (congrArg LocalNetwork.servers hnetwork).trans h.servers
          · intro l
            have hsame := congrArg LocalNetwork.subscriptions hnetwork
            exact hsame ▸ h.distinct l
      | false =>
          have hsame : v.1.getSubscriptions order v.2 = v :=
            LocalNetwork.getSubscriptions_of_clean hdirty
          cases happly
          exact hsame.symm ▸ h

/-- If the OS agrees, the process is in the groups it needs. -/
theorem matchesNeed_apply (h : v.1.MatchesNeed) (hagreed : call.Agreed)
    (happly : apply v call = some w) : w.1.MatchesNeed := by
  cases call with
  | subscribe os localId remote =>
      cases happly
      cases hagreed
      exact h.subscribe
  | unsubscribe os order localId remote =>
      obtain ⟨network, hnetwork, rfl⟩ := Option.map_eq_some_iff.mp happly
      cases hagreed
      exact h.unsubscribe hnetwork
  | getSubscriptions order =>
      cases happly
      unfold LocalNetwork.getSubscriptions
      cases v.1.dirty with
      | true => exact h
      | false => exact h

theorem matchesNeed_replay {ι : Type*} {done : List (ι × NetworkCall)} (h : v.1.MatchesNeed)
    (hagreed : ∀ d ∈ done, d.2.Agreed) (hdone : Guarded.replay apply v done = some w) :
    w.1.MatchesNeed := by
  induction done generalizing v with
  | nil =>
      cases hdone
      exact h
  | cons d done ih =>
      obtain ⟨u, hu, hrest⟩ := Option.bind_eq_some_iff.mp hdone
      exact ih (matchesNeed_apply h (hagreed d List.mem_cons_self) hu)
        (fun e he => hagreed e (List.mem_cons_of_mem _ he)) hrest

/-- The flag is clear when the main loop has looked. -/
theorem getSubscriptions_dirty {order : Multimap.VisitOrder ClusterID ClusterID}
    (happly : apply v (.getSubscriptions order) = some w) : w.1.dirty = false := by
  cases happly
  unfold LocalNetwork.getSubscriptions
  cases hdirty : v.1.dirty with
  | true => rfl
  | false => exact hdirty

end NetworkCall

/-- In any run of any threads, while the lock is free: no subscription is kept
twice; if no call has changed any since the main loop looked, then its table is
right; and if the OS has agreed to everything, the process is in the groups it
needs. -/
theorem unlocked_consistent {ι : Type*} [DecidableEq ι] (servers : List LocalServer)
    (s : Guarded ι NetworkCall NetworkAt (LocalNetwork × Subscribers))
    (h : (Network.threads ι servers).Reachable s) (hflag : s.flag = false) :
    s.value.1.Distinct
      ∧ (s.value.1.dirty = false → MainLoop.Right ⟨s.value.1, s.value.2, []⟩)
      ∧ (∀ t order, s.done.getLast? = some (t, .getSubscriptions order) → s.value.1.dirty = false)
      ∧ ((∀ d ∈ s.done, d.2.Agreed) → s.value.1.MatchesNeed) := by
  have hserial := Guarded.serial NetworkCall.implements h hflag
  have hvalue : NetworkCall.Consistent servers s.value :=
    Run.after_invariant (fun v d w hv hw => NetworkCall.consistent_apply hv hw)
      (NetworkCall.consistent_start servers) hserial
  refine ⟨hvalue.distinct, hvalue.table, ?_, ?_⟩
  · intro t order hlast
    obtain ⟨done, hdone⟩ := List.getLast?_eq_some_iff.mp hlast
    rw [hdone, Guarded.replay_append] at hserial
    obtain ⟨v, -, happly⟩ := Option.bind_eq_some_iff.mp hserial
    exact NetworkCall.getSubscriptions_dirty happly
  · intro hagreed
    exact NetworkCall.matchesNeed_replay (LocalNetwork.matchesNeed_start servers) hagreed hserial

theorem unlocked_consistent_connectAndLook : ∃ s, (Network.threads Bool [.ofId 1]).Reachable s
    ∧ 0 ∈ s.value.2.values 7 ∧ MainLoop.Right ⟨s.value.1, s.value.2, []⟩ := by
  obtain ⟨s, h, hflag, hdone, hmem⟩ := connectAndLook_reached
  have hall := unlocked_consistent [.ofId 1] s h hflag
  exact ⟨s, h, hmem, hall.2.1 (hall.2.2.1 false .kept (hdone ▸ rfl))⟩

end DistributAr
