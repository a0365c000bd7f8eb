/-
# `DistributAr.Retransmit` — the same command twice

`Commander::commandWithRetry` sends a command again when the `ACK` does not come
in time, also when the command was executed and the `ACK` is late or lost.  Then
the server executes it twice.

| command     | the second time                                                |
|-------------|----------------------------------------------------------------|
| `CONNECT r` | `subscribe` finds the subscription and returns                 |
| `RUN n`     | the ID is `n` already                                          |
| `DROP r`    | `unsubscribe` does not find it and erases the end of the vector |
-/
import DistributAr.Lib.Run
import DistributAr.Subscription

namespace DistributAr

open Lib

namespace LocalNetwork

/-- A command at the server in a position, and the answer of the OS. -/
structure Order where
  os : Bool
  position : Nat
  instruction : Instruction

/-- One command. -/
def execute (s : LocalNetwork) (order : Order) : Option LocalNetwork :=
  s.obey order.os order.position order.instruction

/-- The subscriptions, the groups, and the ID and group of each server are the
same. -/
structure Agrees (s t : LocalNetwork) : Prop where
  subscriptions : t.subscriptions = s.subscriptions
  joined : t.joined = s.joined
  servers : t.servers = s.servers

theorem Agrees.refl (s : LocalNetwork) : s.Agrees s := ⟨rfl, rfl, rfl⟩

/-- The server executes the command twice and acknowledges it twice, and the second
time changes nothing; a `DROP` of what is not subscribed to changes nothing the
first time. -/
def Retransmits (command : List Char → List Char) (garbage : ClusterID) (s : LocalNetwork)
    (i : Nat) (ins : Instruction) : Prop :=
  ∀ os os', ∃ t u, s.parseCommand command garbage os i ins.text = some (t, "ACK".toList)
    ∧ t.parseCommand command garbage os' i ins.text = some (u, "ACK".toList)
    ∧ t.Agrees u
    ∧ ∀ remote server, ins = .drop remote → s.servers[i]? = some server →
      remote ∉ s.subscriptions.values server.id → s.Agrees t

variable {command : List Char → List Char} {garbage : ClusterID} {os os' : Bool}
  {s t : LocalNetwork} {i : Nat} {remote n : ClusterID} {server : LocalServer} {ins : Instruction}

theorem distinct_execute (s : LocalNetwork) (order : Order) (t : LocalNetwork) (h : s.Distinct)
    (hs : s.execute order = some t) : t.Distinct :=
  h.obey hs

/-! ## Twice -/

/-- The second `CONNECT` finds the subscription. -/
theorem connect_twice (os os' : Bool) (hserver : s.servers[i]? = some server) :
    ∃ t u, s.obey os i (.connect remote) = some t ∧ t.obey os' i (.connect remote) = some u
      ∧ t.Agrees u := by
  have hservers : (s.subscribe os server.id remote).servers[i]? = some server := by
    rw [subscribe_servers]
    exact hserver
  have hmem : remote ∈ (s.subscribe os server.id remote).subscriptions.values server.id :=
    mem_subscribe.mpr (.inr ⟨rfl, rfl⟩)
  refine ⟨s.subscribe os server.id remote,
    (s.subscribe os server.id remote).subscribe os' server.id remote, ?_, ?_, ?_⟩
  · rw [obey, hserver]
    rfl
  · rw [obey, hservers]
    rfl
  · have htwice : (s.subscribe os server.id remote).subscribe os' server.id remote
        = { s.subscribe os server.id remote with dirty := true } := if_pos hmem
    rw [htwice]
    exact ⟨rfl, rfl, rfl⟩

/-- The second `RUN` finds the ID. -/
theorem run_twice (os os' : Bool) (hserver : s.servers[i]? = some server) :
    ∃ t u, s.obey os i (.run n) = some t ∧ t.obey os' i (.run n) = some u ∧ t.Agrees u := by
  by_cases hid : server.id = n
  · have hone : s.obey os i (.run n) = some s := by
      rw [obey, hserver, Option.map_some, run, if_neg fun h => h hid]
    have hone' : s.obey os' i (.run n) = some s := by
      rw [obey, hserver, Option.map_some, run, if_neg fun h => h hid]
    exact ⟨s, s, hone, hone', .refl s⟩
  · obtain ⟨hlt, -⟩ := List.getElem?_eq_some_iff.mp hserver
    have hnew : (s.run i server.id n).servers[i]? = some (.ofId n) := by
      rw [run_servers, if_neg hid]
      exact List.getElem?_set_self hlt
    refine ⟨s.run i server.id n, s.run i server.id n, ?_, ?_, .refl _⟩
    · rw [obey, hserver]
      rfl
    · rw [obey, hnew, Option.map_some]
      exact congrArg some (if_neg fun h => h rfl)

/-- Where no subscription is kept twice, a second `DROP` does not find one. -/
theorem not_drop_twice (hdistinct : s.Distinct) (hs : s.obey os i (.drop remote) = some t) :
    t.obey os' i (.drop remote) = none := by
  obtain ⟨server, hserver, hdrop⟩ := Option.bind_eq_some_iff.mp hs
  obtain ⟨-, -, hservers, hsub⟩ := unsubscribe_eq_some hdrop
  have hgone : remote ∉ t.subscriptions.values server.id := by
    rw [hsub, Multimap.values_assign, if_pos rfl]
    exact (hdistinct server.id).not_mem_erase
  rw [obey, hservers, hserver]
  exact if_neg hgone

end LocalNetwork

open LocalNetwork in
/-- In every reachable state of a process, at every server of it: a command can be
executed twice exactly if it is not a `DROP`. -/
theorem retransmits_iff (command : List Char → List Char) (garbage : ClusterID)
    (servers : List LocalServer) (orders : List Order) (s : LocalNetwork)
    (hs : Run.after execute (start servers) orders = some s) (i : Nat) (hi : i < s.servers.length)
    (ins : Instruction) :
    s.Retransmits command garbage i ins ↔ ∀ remote, ins ≠ .drop remote := by
  have hdistinct : s.Distinct :=
    Run.after_invariant distinct_execute (distinct_start servers) hs
  have hserver : s.servers[i]? = some s.servers[i] := List.getElem?_eq_getElem hi
  have hack : ∀ {t u : LocalNetwork} {os : Bool}, t.obey os i ins = some u →
      t.parseCommand command garbage os i ins.text = some (u, "ACK".toList) := by
    intro t u os h
    rw [parseCommand_text, h, Option.map_some]
  constructor
  · rintro h remote rfl
    obtain ⟨t, u, ht, hu, -⟩ := h true true
    rw [parseCommand_text] at ht hu
    obtain ⟨t', ht', heq⟩ := Option.map_eq_some_iff.mp ht
    cases heq
    rw [not_drop_twice hdistinct ht'] at hu
    cases hu
  · intro h os os'
    cases ins with
    | connect remote =>
        obtain ⟨t, u, ht, hu, hagrees⟩ := connect_twice os os' hserver
        exact ⟨t, u, hack ht, hack hu, hagrees, fun _ _ heq => nomatch heq⟩
    | drop remote => exact absurd rfl (h remote)
    | run n =>
        obtain ⟨t, u, ht, hu, hagrees⟩ := run_twice os os' hserver
        exact ⟨t, u, hack ht, hack hu, hagrees, fun _ _ heq => nomatch heq⟩

/-- A `CONNECT` on a process with one server. -/
theorem retransmits_iff_connect :
    (LocalNetwork.start [.ofId 1025]).Retransmits (fun _ => []) 0 0 (.connect 7)
      ↔ ∀ remote, Instruction.connect 7 ≠ .drop remote :=
  retransmits_iff (fun _ => []) 0 [.ofId 1025] [] _ rfl 0 (by decide) (.connect 7)

/-- `DROP 7` where nothing was connected, and after a `CONNECT 7` the second time. -/
theorem drop_not_retransmits :
    ¬ (LocalNetwork.start [.ofId 1025]).Retransmits (fun _ => []) 0 0 (.drop 7)
      ∧ ∃ s, (LocalNetwork.start [.ofId 1025]).execute ⟨true, 0, .connect 7⟩ = some s
        ∧ ¬ s.Retransmits (fun _ => []) 0 0 (.drop 7) := by
  refine ⟨?_, _, rfl, ?_⟩
  · intro h
    obtain ⟨t, u, ht, -⟩ := h true true
    rw [LocalNetwork.parseCommand_text] at ht
    cases ht
  · intro h
    obtain ⟨t, u, ht, hu, -⟩ := h true true
    rw [LocalNetwork.parseCommand_text] at ht hu
    cases ht
    cases hu

end DistributAr
