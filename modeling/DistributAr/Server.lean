/-
# `DistributAr.Server` — batching impulses into packets

`Server::write` is the callback through which a cluster emits an impulse.  It
retries `TimeBuffer::write` until the impulse is taken; every failed attempt
hands the buffer over, to `outQ` for the clusters of this process and to the
multicast group for all others, and goes on with a fresh one.

The loop is given by fuel.  Two passes suffice, because a fresh buffer takes
any impulse (`TimeBuffer.new_not_fills`); `write_cases` says so and is the only
thing the later modules use.

`sent` and `Flush` record what was handed over, together with the buffer as it
was before and the call that caused it.  The program keeps no such record.
-/
import DistributAr.TimeBuffer
import Mathlib.Data.List.Basic

namespace DistributAr

/-- One call of `Server::write`, with the `TimeSync` offset of its moment. -/
structure Call where
  nodeIndex : Int
  time : Int
  delta : Int
deriving DecidableEq

/-- The node index as `TimeBuffer::write` receives it. -/
def Call.index (c : Call) : UInt16 := UInt16.ofInt c.nodeIndex

/-- The index can be sent as it is. -/
def Call.InRange (c : Call) : Prop := 0 ≤ c.nodeIndex ∧ c.nodeIndex ≤ 0xFFFF

/-- Exactly the indices in range survive being cut to 16 bits. -/
theorem Call.index_iff {c : Call} : (c.index.toNat : Int) = c.nodeIndex ↔ c.InRange := by
  rw [index, UInt16.ofInt, UInt16.toNat_ofNat', InRange]
  omega

/-- A buffer handed over: before the failed write, after it, and the call. -/
structure Flush where
  before : TimeBuffer
  packet : TimeBuffer
  call : Call

/-- The base time of the flushed impulses on the sender's clock. -/
def Flush.localTime (f : Flush) : Int := f.before.baseTime f.call.time

namespace Flush

/-- A flush as the code performs it: a buffer in use, sealed by a call that did
not fit it any more. -/
structure Wf (f : Flush) : Prop where
  packet_eq : ∃ cid, f.packet
    = (f.before.sealed f.call.delta f.call.time).setSrcClusterId cid
  count_pos : 1 ≤ f.before.count
  count_le : f.before.count ≤ maxOutputNodes
  fits_not : f.before.Fills f.call.time

variable {f : Flush}

theorem Wf.packet_count (h : f.Wf) : f.packet.count = f.before.count := by
  obtain ⟨cid, he⟩ := h.packet_eq
  rw [he, TimeBuffer.setSrcClusterId_count, TimeBuffer.sealed_count]

/-- The base time of a flushed packet is the sender's, in network time. -/
theorem Wf.packet_time (h : f.Wf) :
    f.packet.time = TimeSync.toNetwork f.call.delta f.localTime := by
  obtain ⟨cid, he⟩ := h.packet_eq
  rw [he, TimeBuffer.setSrcClusterId_time, TimeBuffer.sealed_time, Flush.localTime]

end Flush

/-- Why a run stops. -/
inductive Fault where
  | exception (what : String)
  | outOfFuel

/-- The state `Server::write` works on. -/
structure Server where
  id : ClusterID
  timeBuff : TimeBuffer
  outQ : List TimeBuffer
  sent : List Flush

namespace Server

/-- A server with the cluster ID `id`, before its first impulse. -/
def new (id : ClusterID) : Server := ⟨id, .new, [], []⟩

/-- `outQ.push`: a `FreeQueue` of `SIZE` slots holds `SIZE - 1` elements, and the
result of a failed push is not looked at. -/
def pushOut (outQ : List TimeBuffer) (b : TimeBuffer) : List TimeBuffer :=
  if outQ.length < maxMsgQSize - 1 then outQ ++ [b] else outQ

/-- The body of the `while`: the buffer gets its source, is handed over and
replaced by a fresh one. -/
def flush (s : Server) (c : Call) (b : TimeBuffer) : Server :=
  let packet := b.setSrcClusterId s.id
  { s with
    outQ := pushOut s.outQ packet
    sent := s.sent ++ [⟨s.timeBuff, packet, c⟩]
    timeBuff := .new }

/-- The `while` of `Server::write`. -/
def writeLoop (c : Call) : Nat → Server → Except Fault Server
  | 0, _ => .error .outOfFuel
  | fuel + 1, s =>
      match s.timeBuff.write c.delta c.index c.time with
      | .error what => .error (.exception what)
      | .ok (ret, b) =>
          if ret < 0 then writeLoop c fuel (s.flush c b) else .ok { s with timeBuff := b }

/-- `Server::write` -/
def write (s : Server) (c : Call) : Except Fault Server := writeLoop c 2 s

/-- The calls of a run, first to last. -/
def writes (s : Server) : List Call → Except Fault Server
  | [] => .ok s
  | c :: cs =>
      match s.write c with
      | .error e => .error e
      | .ok s' => s'.writes cs

/-! ## What one call can do -/

variable {s s' : Server} {c : Call}

theorem writeLoop_of_drops {n : Nat} (hd : s.timeBuff.Drops c.time) :
    writeLoop c (n + 1) s = .ok s := by
  rw [writeLoop, TimeBuffer.write_of_drops hd]
  rfl

theorem writeLoop_of_stores {n : Nat} (hd : ¬ s.timeBuff.Drops c.time)
    (hf : ¬ s.timeBuff.Fills c.time) :
    writeLoop c (n + 1) s = .ok { s with timeBuff := s.timeBuff.stored c.index c.time } := by
  have hpos : ¬ ((s.timeBuff.count : Int) + 1 < 0) := by omega
  simp only [writeLoop, TimeBuffer.write_of_stores hd hf, if_neg hpos]

theorem writeLoop_of_fills {n : Nat} (hd : ¬ s.timeBuff.Drops c.time)
    (hf : s.timeBuff.Fills c.time) :
    writeLoop c (n + 1) s = writeLoop c n (s.flush c (s.timeBuff.sealed c.delta c.time)) := by
  simp only [writeLoop, TimeBuffer.write_of_fills hd hf]
  rfl

/-- The server after a call that flushed: the impulse opens the fresh buffer. -/
def restarted (s : Server) (c : Call) : Server :=
  { s.flush c (s.timeBuff.sealed c.delta c.time) with
    timeBuff := TimeBuffer.new.stored c.index c.time }

/-- The three ways a call can go.  It always returns. -/
theorem write_cases (s : Server) (c : Call) :
    (s.timeBuff.Drops c.time ∧ s.write c = .ok s) ∨
    (¬ s.timeBuff.Drops c.time ∧ ¬ s.timeBuff.Fills c.time ∧
      s.write c = .ok { s with timeBuff := s.timeBuff.stored c.index c.time }) ∨
    (¬ s.timeBuff.Drops c.time ∧ s.timeBuff.Fills c.time ∧ s.write c = .ok (s.restarted c)) := by
  by_cases hd : s.timeBuff.Drops c.time
  · exact .inl ⟨hd, writeLoop_of_drops hd⟩
  by_cases hf : s.timeBuff.Fills c.time
  · refine .inr (.inr ⟨hd, hf, ?_⟩)
    rw [write, writeLoop_of_fills hd hf]
    exact writeLoop_of_stores (TimeBuffer.new_not_drops _) (TimeBuffer.new_not_fills _)
  · exact .inr (.inl ⟨hd, hf, writeLoop_of_stores hd hf⟩)

theorem write_ok (s : Server) (c : Call) : ∃ s', s.write c = .ok s' := by
  obtain ⟨-, h⟩ | ⟨-, -, h⟩ | ⟨-, -, h⟩ := write_cases s c
  · exact ⟨_, h⟩
  · exact ⟨_, h⟩
  · exact ⟨_, h⟩

/-- No run of calls throws. -/
theorem writes_ok : ∀ (cs : List Call) (s : Server), ∃ s', s.writes cs = .ok s'
  | [], s => ⟨s, rfl⟩
  | c :: cs, s => by
      obtain ⟨s₁, h₁⟩ := write_ok s c
      obtain ⟨s₂, h₂⟩ := writes_ok cs s₁
      exact ⟨s₂, by rw [writes, h₁]; exact h₂⟩

/-- A run is its first call and the run of the rest. -/
theorem writes_cons {cs : List Call} (h : s.writes (c :: cs) = .ok s') :
    ∃ s₁, s.write c = .ok s₁ ∧ s₁.writes cs = .ok s' := by
  obtain ⟨s₁, h₁⟩ := write_ok s c
  rw [writes, h₁] at h
  exact ⟨s₁, h₁, h⟩

/-! ## What a flushed buffer looks like -/

/-- Buffers never overfill, an unused one is fresh, and all flushes are proper. -/
structure Wf (s : Server) : Prop where
  count_le : s.timeBuff.count ≤ maxOutputNodes
  unused : s.timeBuff.count = 0 → s.timeBuff.time = timeMin
  sent : ∀ f ∈ s.sent, f.Wf

theorem wf_new (id : ClusterID) : (new id).Wf where
  count_le := Nat.zero_le _
  unused := fun _ => rfl
  sent := fun _ h => absurd h List.not_mem_nil

/-- A buffer that is full or has a delta holds an impulse. -/
theorem Wf.count_pos (h : s.Wf) (hf : s.timeBuff.Fills c.time) : 1 ≤ s.timeBuff.count := by
  by_contra hzero
  have hempty : s.timeBuff.count = 0 := by omega
  have hdelta : s.timeBuff.deltaTus c.time = 0 := by
    rw [TimeBuffer.deltaTus, if_pos (h.unused hempty)]
  rcases hf with hfull | hlate
  · rw [hempty, maxOutputNodes_eq] at hfull; omega
  · omega

theorem wf_write (s : Server) (c : Call) (s' : Server) (h : s.Wf) (hw : s.write c = .ok s') :
    s'.Wf := by
  obtain ⟨-, he⟩ | ⟨-, hroom, he⟩ | ⟨-, hf, he⟩ := write_cases s c <;> rw [he] at hw <;> cases hw
  · exact h
  · refine ⟨?_, ?_, h.sent⟩
    · have hlt : ¬ maxOutputNodes ≤ s.timeBuff.count := fun hle => hroom (.inl hle)
      rw [TimeBuffer.stored_count]; omega
    · intro h0
      rw [TimeBuffer.stored_count] at h0; omega
  · refine ⟨?_, ?_, ?_⟩
    · show 1 ≤ maxOutputNodes
      decide
    · intro h0
      exact absurd h0 (by show ¬ (0 + 1 = 0); decide)
    · intro f hmem
      rcases List.mem_append.mp hmem with hold | hnew
      · exact h.sent f hold
      · rw [List.mem_singleton.mp hnew]
        exact ⟨⟨s.id, rfl⟩, h.count_pos hf, h.count_le, hf⟩

/-! ## The records and the queue -/

theorem write_sent_subset (hw : s.write c = .ok s') : s.sent ⊆ s'.sent := by
  obtain ⟨-, he⟩ | ⟨-, -, he⟩ | ⟨-, -, he⟩ := write_cases s c <;> rw [he] at hw <;> cases hw
  · exact List.Subset.refl _
  · exact List.Subset.refl _
  · exact List.subset_append_left _ _

theorem mem_pushOut {q : List TimeBuffer} {b x : TimeBuffer} (h : x ∈ pushOut q b) :
    x ∈ q ∨ x = b := by
  rw [pushOut] at h
  split at h
  case isTrue => simpa only [List.mem_append, List.mem_singleton] using h
  case isFalse => exact .inl h

/-- What a call adds to `outQ` is what it flushed. -/
theorem write_outQ (hw : s.write c = .ok s') {b : TimeBuffer} (hb : b ∈ s'.outQ) :
    b ∈ s.outQ ∨ ∃ f ∈ s'.sent, b = f.packet := by
  obtain ⟨-, he⟩ | ⟨-, -, he⟩ | ⟨-, -, he⟩ := write_cases s c <;> rw [he] at hw <;> cases hw
  · exact .inl hb
  · exact .inl hb
  · rcases mem_pushOut hb with hold | hnew
    · exact .inl hold
    · exact .inr ⟨_, List.mem_append_right _ (List.mem_singleton_self _), hnew⟩

end Server

end DistributAr
