/-
# `DistributAr.Journal` — every impulse once, and in order

A journal is kept beside the server: each call with the buffer that it found and
with what its calls of `TimeBuffer::write` returned.

| returned      | the impulse                            | buffers handed over |
|---------------|----------------------------------------|---------------------|
| `0`           | is thrown away                         | none                |
| `count + 1`   | is stored behind the others            | none                |
| `-1`, then 1  | is stored first in a fresh buffer      | one                 |

The impulses that were taken, in the order of the calls, are the entries of the
buffers handed over and then of the one in use: `batching_faithful`.
-/
import DistributAr.Lib.Run
import DistributAr.Wire

namespace DistributAr

open Lib

namespace TimeBuffer

/-- The entries of `idx` in use. -/
def nodes (b : TimeBuffer) : List UInt16 := (List.range b.count).filterMap fun i => b.idx[i]?

variable {b : TimeBuffer} {t : Int} {index : UInt16}

/-- A stored impulse comes after the others. -/
theorem nodes_stored (h : b.count < maxOutputNodes) :
    (b.stored index t).nodes = b.nodes ++ [index] := by
  have hold : ∀ i ∈ List.range b.count, (b.stored index t).idx[i]? = b.idx[i]? := by
    intro i hi
    exact Vector.getElem?_setIfInBounds_ne (Nat.ne_of_gt (List.mem_range.mp hi))
  have hlast : (b.stored index t).idx[b.count]? = some index :=
    Vector.getElem?_setIfInBounds_self_of_lt h
  rw [nodes, stored_count, List.range_succ, List.filterMap_append, List.filterMap_congr hold,
    List.filterMap_cons_some hlast, List.filterMap_nil, nodes]

end TimeBuffer

namespace Server

/-- What the calls of `TimeBuffer::write` return while the loop runs. -/
def writeRets (s : Server) (c : Call) : Nat → List Int
  | 0 => []
  | fuel + 1 =>
      match s.timeBuff.write c.delta c.index c.time with
      | .error _ => []
      | .ok (ret, b) => ret :: if ret < 0 then writeRets (s.flush c b) c fuel else []

variable {s s' : Server} {c : Call} {n : Nat}

theorem writeRets_of_drops (hd : s.timeBuff.Drops c.time) : s.writeRets c (n + 1) = [0] := by
  rw [writeRets, TimeBuffer.write_of_drops hd]
  rfl

theorem writeRets_of_stores (hd : ¬ s.timeBuff.Drops c.time) (hf : ¬ s.timeBuff.Fills c.time) :
    s.writeRets c (n + 1) = [(s.timeBuff.count : Int) + 1] := by
  have hpos : ¬ (s.timeBuff.count : Int) + 1 < 0 := by omega
  simp only [writeRets, TimeBuffer.write_of_stores hd hf, if_neg hpos]

theorem writeRets_of_fills (hd : ¬ s.timeBuff.Drops c.time) (hf : s.timeBuff.Fills c.time) :
    s.writeRets c (n + 2) = [-1, 1] := by
  simp only [writeRets, TimeBuffer.write_of_fills hd hf]
  exact congrArg (List.cons (-1)) (writeRets_of_stores (TimeBuffer.new_not_drops _)
    (TimeBuffer.new_not_fills _))

/-- The entries of the buffers handed over and of the one in use. -/
def nodes (s : Server) : List UInt16 :=
  s.sent.flatMap (fun f => f.packet.nodes) ++ s.timeBuff.nodes

/-- A call ends: whatever the fuel, it writes at most twice and hands over as many
buffers as it converted, one at most. -/
structure CallEnds (s : Server) (c : Call) : Prop where
  ends : ∀ n, 2 ≤ n → writeLoop c n s = s.write c ∧ s.writeRets c n = s.writeRets c 2
  writes_le : ∀ n, (s.writeRets c n).length ≤ 2
  flushes : ∃ s', s.write c = .ok s'
    ∧ s'.sent.length = s.sent.length + ((s.writeRets c 2).filter (· < 0)).length
    ∧ s'.sent.length ≤ s.sent.length + 1

theorem callEnds (s : Server) (c : Call) : s.CallEnds c := by
  have hfuel : ∀ n, 2 ≤ n → ∃ m, n = m + 2 := fun n hn => ⟨n - 2, by omega⟩
  by_cases hd : s.timeBuff.Drops c.time
  · refine ⟨?_, ?_, s, writeLoop_of_drops hd, ?_, Nat.le_succ _⟩
    · intro n hn
      obtain ⟨m, rfl⟩ := hfuel n hn
      rw [write, writeLoop_of_drops hd, writeLoop_of_drops hd, writeRets_of_drops hd,
        writeRets_of_drops hd]
      exact ⟨rfl, rfl⟩
    · intro n
      cases n with
      | zero => exact Nat.zero_le 2
      | succ n =>
          rw [writeRets_of_drops hd]
          exact Nat.le_succ 1
    · rw [writeRets_of_drops hd]
      rfl
  by_cases hf : s.timeBuff.Fills c.time
  · refine ⟨?_, ?_, s.restarted c, ?_, ?_, ?_⟩
    · intro n hn
      obtain ⟨m, rfl⟩ := hfuel n hn
      have hnew := TimeBuffer.new_not_drops c.time
      have hroom := TimeBuffer.new_not_fills c.time
      rw [write, writeLoop_of_fills hd hf, writeLoop_of_fills hd hf,
        writeLoop_of_stores hnew hroom, writeLoop_of_stores hnew hroom, writeRets_of_fills hd hf,
        writeRets_of_fills hd hf]
      exact ⟨rfl, rfl⟩
    · intro n
      cases n with
      | zero => exact Nat.zero_le 2
      | succ n =>
          cases n with
          | zero =>
              simp only [writeRets, TimeBuffer.write_of_fills hd hf]
              exact Nat.le_succ 1
          | succ n =>
              rw [writeRets_of_fills hd hf]
              exact Nat.le_refl 2
    · rw [write, writeLoop_of_fills hd hf]
      exact writeLoop_of_stores (TimeBuffer.new_not_drops _) (TimeBuffer.new_not_fills _)
    · rw [writeRets_of_fills hd hf]
      exact List.length_append
    · exact Nat.le_of_eq List.length_append
  · refine ⟨?_, ?_, _, writeLoop_of_stores hd hf, ?_, Nat.le_succ _⟩
    · intro n hn
      obtain ⟨m, rfl⟩ := hfuel n hn
      rw [write, writeLoop_of_stores hd hf, writeLoop_of_stores hd hf, writeRets_of_stores hd hf,
        writeRets_of_stores hd hf]
      exact ⟨rfl, rfl⟩
    · intro n
      cases n with
      | zero => exact Nat.zero_le 2
      | succ n =>
          rw [writeRets_of_stores hd hf]
          exact Nat.le_succ 1
    · have hpos : ¬ (s.timeBuff.count : Int) + 1 < 0 := by omega
      rw [writeRets_of_stores hd hf, List.filter_cons_of_neg (by simpa using hpos)]
      rfl

end Server

/-! ## The journal -/

/-- A call, the buffer that was in use when it came, and what its calls of
`TimeBuffer::write` returned. -/
structure Attempt where
  call : Call
  buffer : TimeBuffer
  rets : List Int

/-- The last `TimeBuffer::write` of the call returned a positive count. -/
def Attempt.Taken (r : Attempt) : Prop := ∃ count ∈ r.rets.getLast?, 0 < count

instance (r : Attempt) : Decidable r.Taken :=
  inferInstanceAs (Decidable (∃ count ∈ r.rets.getLast?, _))

/-- A server with the calls so far. -/
structure Journal where
  server : Server
  attempts : List Attempt

namespace Journal

def start (id : ClusterID) : Journal := ⟨.new id, []⟩

/-- The call as the journal records it. -/
def attempt (j : Journal) (c : Call) : Attempt :=
  ⟨c, j.server.timeBuff, j.server.writeRets c 2⟩

/-- One call. -/
def step (j : Journal) (c : Call) : Option Journal :=
  match j.server.write c with
  | .error _ => none
  | .ok s => some ⟨s, j.attempts ++ [j.attempt c]⟩

/-- The calls whose impulse was taken. -/
def taken (j : Journal) : List Attempt := j.attempts.filter fun r => r.Taken

variable {j j' : Journal} {c : Call} {cs : List Call}

/-- An impulse that is thrown away gets a 0, which no impulse that is taken does. -/
theorem not_taken_of_drops (hd : j.server.timeBuff.Drops c.time) : ¬ (j.attempt c).Taken := by
  rw [attempt, Server.writeRets_of_drops hd]
  rintro ⟨count, hmem, hpos⟩
  cases hmem
  exact absurd hpos (by decide)

theorem drops_of_not_taken (h : ¬ (j.attempt c).Taken) : j.server.timeBuff.Drops c.time := by
  by_contra hd
  apply h
  rw [attempt]
  by_cases hf : j.server.timeBuff.Fills c.time
  · rw [Server.writeRets_of_fills hd hf]
    exact ⟨1, rfl, by decide⟩
  · rw [Server.writeRets_of_stores hd hf]
    exact ⟨(j.server.timeBuff.count : Int) + 1, rfl, by omega⟩

/-- The three ways a call can go, in the journal. -/
theorem step_cases (h : j.step c = some j') :
    (j.server.timeBuff.Drops c.time ∧ j'.server = j.server ∧ j'.taken = j.taken) ∨
    (¬ j.server.timeBuff.Drops c.time ∧ ¬ j.server.timeBuff.Fills c.time ∧
      j'.server = { j.server with timeBuff := j.server.timeBuff.stored c.index c.time } ∧
      j'.taken = j.taken ++ [j.attempt c]) ∨
    (¬ j.server.timeBuff.Drops c.time ∧ j.server.timeBuff.Fills c.time ∧
      j'.server = j.server.restarted c ∧ j'.taken = j.taken ++ [j.attempt c]) := by
  have htaken : ∀ s, (⟨s, j.attempts ++ [j.attempt c]⟩ : Journal).taken
      = j.taken ++ [j.attempt c].filter fun r => r.Taken := fun _ => List.filter_append _ _
  unfold step at h
  obtain ⟨hd, he⟩ | ⟨hd, hf, he⟩ | ⟨hd, hf, he⟩ := j.server.write_cases c <;> rw [he] at h <;>
    cases h
  · have hnot := not_taken_of_drops hd
    refine .inl ⟨hd, rfl, ?_⟩
    rw [htaken, List.filter_cons_of_neg (by simpa using hnot), List.filter_nil, List.append_nil]
  · have hyes : (j.attempt c).Taken := by
      rw [attempt, Server.writeRets_of_stores hd hf]
      exact ⟨(j.server.timeBuff.count : Int) + 1, rfl, by omega⟩
    refine .inr (.inl ⟨hd, hf, rfl, ?_⟩)
    rw [htaken, List.filter_cons_of_pos (by simpa using hyes), List.filter_nil]
  · have hyes : (j.attempt c).Taken := by
      rw [attempt, Server.writeRets_of_fills hd hf]
      exact ⟨1, rfl, by decide⟩
    refine .inr (.inr ⟨hd, hf, rfl, ?_⟩)
    rw [htaken, List.filter_cons_of_pos (by simpa using hyes), List.filter_nil]

theorem step_eq_some (h : j.step c = some j') :
    j.server.write c = .ok j'.server ∧ j'.attempts = j.attempts ++ [j.attempt c] := by
  unfold step at h
  split at h <;> cases h
  rename_i s hs
  exact ⟨hs, rfl⟩

/-- The journal can always be kept, and does not disturb the server. -/
theorem after_eq_some (j : Journal) (cs : List Call) :
    ∃ j', Run.after step j cs = some j' ∧ j.server.writes cs = .ok j'.server
      ∧ j'.attempts.map Attempt.call = j.attempts.map Attempt.call ++ cs := by
  induction cs generalizing j with
  | nil => exact ⟨j, rfl, rfl, (List.append_nil _).symm⟩
  | cons c cs ih =>
      obtain ⟨s, hs⟩ := j.server.write_ok c
      have hstep : j.step c = some ⟨s, j.attempts ++ [j.attempt c]⟩ := by
        rw [step, hs]
      obtain ⟨j', hafter, hwrites, hcalls⟩ := ih ⟨s, j.attempts ++ [j.attempt c]⟩
      refine ⟨j', (Run.after_cons hstep).trans hafter, ?_, ?_⟩
      · rw [Server.writes, hs]
        exact hwrites
      · rw [hcalls, List.map_append, List.append_assoc]
        rfl

/-! ## What the buffers hold -/

/-- The invariant: proper flushes, the impulses taken in the order of the calls,
and base times that are those of calls. -/
structure Faithful (j : Journal) : Prop where
  wf : j.server.Wf
  nodes : j.server.nodes = j.taken.map fun r => r.call.index
  base : j.server.timeBuff.time = timeMin
    ∨ ∃ r ∈ j.attempts, j.server.timeBuff.time = r.call.time
  sent : ∀ f ∈ j.server.sent, (∃ r ∈ j.attempts, f.call = r.call)
    ∧ ∃ r ∈ j.attempts, f.localTime = r.call.time

theorem faithful_start (id : ClusterID) : (start id).Faithful where
  wf := Server.wf_new id
  nodes := rfl
  base := .inl rfl
  sent := fun _ h => absurd h List.not_mem_nil

/-- The base time that a write works with is that of some call. -/
theorem Faithful.baseTime (h : j.Faithful) (c : Call) :
    ∃ r ∈ j.attempts ++ [j.attempt c], j.server.timeBuff.baseTime c.time = r.call.time := by
  by_cases hfirst : j.server.timeBuff.time = timeMin
  · refine ⟨j.attempt c, by simp, ?_⟩
    rw [TimeBuffer.baseTime, if_pos hfirst]
    rfl
  · obtain ⟨r, hr, htime⟩ := h.base.resolve_left hfirst
    refine ⟨r, List.mem_append_left _ hr, ?_⟩
    rw [TimeBuffer.baseTime, if_neg hfirst, htime]

theorem Faithful.step (j : Journal) (c : Call) (j' : Journal) (h : j.Faithful)
    (hs : j.step c = some j') : j'.Faithful := by
  obtain ⟨hwrite, hattempts⟩ := step_eq_some hs
  have hwf := Server.wf_write _ _ _ h.wf hwrite
  have hlast : j.attempt c ∈ j.attempts ++ [j.attempt c] := by simp
  have hsent : ∀ f ∈ j.server.sent, (∃ r ∈ j'.attempts, f.call = r.call)
      ∧ ∃ r ∈ j'.attempts, f.localTime = r.call.time := by
    rw [hattempts]
    intro f hf
    obtain ⟨⟨r, hr, hcall⟩, r', hr', htime⟩ := h.sent f hf
    exact ⟨⟨r, List.mem_append_left _ hr, hcall⟩, r', List.mem_append_left _ hr', htime⟩
  refine ⟨hwf, ?_, ?_, ?_⟩
  all_goals obtain ⟨-, hserver, htaken⟩ | ⟨-, hroom, hserver, htaken⟩ |
    ⟨-, -, hserver, htaken⟩ := step_cases hs
  · rw [hserver, htaken, h.nodes]
  · have hlt : j.server.timeBuff.count < maxOutputNodes :=
      Nat.lt_of_not_le fun hle => hroom (.inl hle)
    rw [hserver, htaken, List.map_append, ← h.nodes, Server.nodes, TimeBuffer.nodes_stored hlt,
      ← List.append_assoc]
    rfl
  · -- the buffer moves to `sent`, and the fresh one holds the impulse
    have hfresh : (TimeBuffer.new.stored c.index c.time).nodes = [c.index] :=
      TimeBuffer.nodes_stored (by decide)
    rw [hserver, htaken, List.map_append, ← h.nodes, Server.nodes]
    show (j.server.sent ++ [_]).flatMap _ ++ (TimeBuffer.new.stored c.index c.time).nodes = _
    rw [hfresh, List.flatMap_append]
    simp only [List.flatMap_cons, List.flatMap_nil, List.append_nil]
    rfl
  · rw [hserver, hattempts]
    exact h.base.imp_right fun ⟨r, hr, htime⟩ => ⟨r, List.mem_append_left _ hr, htime⟩
  · rw [hserver, hattempts]
    exact .inr (h.baseTime c)
  · rw [hserver, hattempts]
    exact .inr ⟨j.attempt c, hlast, TimeBuffer.new_baseTime _⟩
  · rw [hserver]
    exact hsent
  · rw [hserver]
    exact hsent
  · intro f hf
    rw [hserver] at hf
    rcases List.mem_append.mp hf with hold | hnew
    · exact hsent f hold
    · rw [List.mem_singleton.mp hnew, hattempts]
      exact ⟨⟨j.attempt c, hlast, rfl⟩, h.baseTime c⟩

/-- `RUN`: the cluster gets another ID. -/
def setId (j : Journal) (id : ClusterID) : Journal :=
  { j with server := { j.server with id := id } }

/-- What is in the buffers does not depend on the ID. -/
theorem Faithful.setId (h : j.Faithful) (id : ClusterID) : (j.setId id).Faithful where
  wf := ⟨h.wf.count_le, h.wf.unused, h.wf.sent⟩
  nodes := h.nodes
  base := h.base
  sent := h.sent

end Journal

/-- On a fresh server every call ends, with two writes and one flush at most;
every buffer handed over holds from one to `maxOutputNodes` impulses, and its base
time is that of a call, converted once; and the entries of these buffers and then
of the one in use are the node indices of the calls that were taken, in order. -/
theorem batching_faithful (id : ClusterID) (cs : List Call)
    (hindex : ∀ c ∈ cs, 0 ≤ c.nodeIndex ∧ c.nodeIndex ≤ 0xFFFF) :
    (∀ before c, before ++ [c] <+: cs → ∀ s, (Server.new id).writes before = .ok s →
        s.CallEnds c)
      ∧ ∃ j, Run.after Journal.step (.start id) cs = some j
        ∧ (Server.new id).writes cs = .ok j.server ∧ j.attempts.map Attempt.call = cs
        ∧ (∀ f ∈ j.server.sent, 1 ≤ f.packet.count ∧ f.packet.count ≤ maxOutputNodes
          ∧ f.call ∈ cs ∧ ∃ c ∈ cs, f.packet.time = TimeSync.toNetwork f.call.delta c.time)
        ∧ j.server.nodes.map (fun n => (n.toNat : Int))
          = j.taken.map fun r => r.call.nodeIndex := by
  refine ⟨fun _ c _ s _ => s.callEnds c, ?_⟩
  obtain ⟨j, hafter, hwrites, hcalls⟩ := Journal.after_eq_some (.start id) cs
  have hfaithful := Run.after_invariant Journal.Faithful.step (Journal.faithful_start id) hafter
  have hcall : ∀ r ∈ j.attempts, r.call ∈ cs := by
    intro r hr
    have hmem := List.mem_map_of_mem (f := Attempt.call) hr
    rwa [hcalls] at hmem
  refine ⟨j, hafter, hwrites, hcalls, ?_, ?_⟩
  · intro f hf
    have hwf := hfaithful.wf.sent f hf
    obtain ⟨⟨r, hr, hrcall⟩, r', hr', htime⟩ := hfaithful.sent f hf
    rw [hwf.packet_count, hwf.packet_time, htime, hrcall]
    exact ⟨hwf.count_pos, hwf.count_le, hcall r hr, r'.call, hcall r' hr', rfl⟩
  · rw [hfaithful.nodes, List.map_map]
    refine List.map_congr_left ?_
    intro r hr
    exact Call.index_iff.mpr (hindex r.call (hcall r (List.mem_of_mem_filter hr)))

/-- Three calls: the nodes 7 and 9 leave in one buffer, and 3 is in the next. -/
theorem batching_faithful_threeCalls : ∃ j, Run.after Journal.step (.start 1025) threeCalls = some j
    ∧ j.server.nodes.map (fun n => (n.toNat : Int)) = j.taken.map fun r => r.call.nodeIndex := by
  obtain ⟨-, j, hafter, -, -, -, hnodes⟩ := batching_faithful 1025 threeCalls (by decide)
  exact ⟨j, hafter, hnodes⟩

end DistributAr
