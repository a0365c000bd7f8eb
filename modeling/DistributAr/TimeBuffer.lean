/-
# `DistributAr.TimeBuffer` — the packet of impulses

A `TimeBuffer` holds a base time and up to `maxOutputNodes` impulses, each a
node index and a microsecond offset from the base.  It is written by one
cluster until an impulse no longer fits; that write converts the base time to
network time, fails with `-1`, and the caller sends the buffer.

`write` has three outcomes, and `write_cases` is the whole of it:

    outcome    when                                        result
    dropped    delta below the int16 range                 0, buffer unchanged
    full       no slot left, or delta above the range      -1, base to network time
    stored     otherwise                                   the new count

The delta is a 64-bit difference put into an `int` (`deltaTus`), so it is
reduced modulo `2 ^ 32` before either range test sees it.
-/
import DistributAr.TimeSync
import Mathlib.Tactic.Basic

namespace DistributAr

/-- The members of `TimeBuffer`, in their order in memory. -/
structure TimeBuffer where
  srcId : ClusterID
  time : Int
  count : Nat
  idx : Vector UInt16 maxOutputNodes
  dt : Vector Int16 maxOutputNodes
deriving DecidableEq

namespace TimeBuffer

/-- The constructor.  It leaves the arrays as they were; no entry at or past
`count` is ever read, and zeros stand for them here. -/
def new : TimeBuffer where
  srcId := 0
  time := timeMin
  count := 0
  idx := Vector.replicate _ 0
  dt := Vector.replicate _ 0

/-- `size()`: `sizeof(srcId) + sizeof(time) + sizeof(count) + 2*sizeof(int16_t)*count`. -/
def size (b : TimeBuffer) : Nat := 4 + 8 + 2 + 2 * 2 * b.count

/-- `sizeData()` -/
def sizeData (b : TimeBuffer) : Nat := b.count

/-- `getTime()` -/
def getTime (b : TimeBuffer) : Int := b.time

/-- `getSrcClusterId()` -/
def getSrcClusterId (b : TimeBuffer) : ClusterID := b.srcId

/-- `setSrcClusterId(cid)` -/
def setSrcClusterId (b : TimeBuffer) (cid : ClusterID) : TimeBuffer := { b with srcId := cid }

/-- `prepareRead()`: from network time to the time of this host. -/
def prepareRead (delta : Int) (b : TimeBuffer) : TimeBuffer :=
  { b with time := TimeSync.toLocal delta b.time }

/-- `read(index, timeOutParam)`: the impulse's time and its node, `none` where
the access is out of bounds. -/
def read (b : TimeBuffer) (index : Nat) : Option (Int × UInt16) :=
  match b.dt[index]?, b.idx[index]? with
  | some dtime, some node => some (b.time + microseconds dtime.toInt, node)
  | _, _ => none

/-- The base time `write` works with: the first impulse sets it. -/
def baseTime (b : TimeBuffer) (t : Int) : Int := if b.time = timeMin then t else b.time

/-- `deltaTus`: zero for the first impulse, else the difference in microseconds
put into an `int`. -/
def deltaTus (b : TimeBuffer) (t : Int) : Int :=
  if b.time = timeMin then 0 else (toMicroseconds (t - b.time)).bmod (2 ^ 32)

/-- `TimeBuffer::write`: the returned `int` and the buffer afterwards.  The
parameter is an `uint16_t`, so the range check never fires. -/
def write (delta : Int) (b : TimeBuffer) (index : UInt16) (t : Int) :
    Except String (Int × TimeBuffer) :=
  if index.toNat > 0xFFFF then
    .error ("Node index " ++ toString index.toNat
      ++ " exceeds maximum network transmission size of 0xFFFF")
  else if b.deltaTus t < -32768 then
    .ok (0, b) -- throw away old impulses
  else if b.count ≥ maxOutputNodes ∨ b.deltaTus t > 32767 then
    .ok (-1, { b with time := TimeSync.toNetwork delta (b.baseTime t) })
  else
    .ok (b.count + 1,
      { b with
        time := b.baseTime t
        idx := b.idx.setIfInBounds b.count index
        dt := b.dt.setIfInBounds b.count (Int16.ofInt (b.deltaTus t))
        count := b.count + 1 })

/-! ## What one write can do -/

/-- The buffer after a write that stored the impulse. -/
def stored (b : TimeBuffer) (index : UInt16) (t : Int) : TimeBuffer :=
  { b with
    time := b.baseTime t
    idx := b.idx.setIfInBounds b.count index
    dt := b.dt.setIfInBounds b.count (Int16.ofInt (b.deltaTus t))
    count := b.count + 1 }

/-- The buffer after a write that failed: ready to be sent. -/
def sealed (delta : Int) (b : TimeBuffer) (t : Int) : TimeBuffer :=
  { b with time := TimeSync.toNetwork delta (b.baseTime t) }

/-- The impulse is too old for the buffer. -/
def Drops (b : TimeBuffer) (t : Int) : Prop := b.deltaTus t < -32768

/-- The impulse does not fit the buffer any more. -/
def Fills (b : TimeBuffer) (t : Int) : Prop :=
  maxOutputNodes ≤ b.count ∨ 32767 < b.deltaTus t

instance (b : TimeBuffer) (t : Int) : Decidable (b.Drops t) := inferInstanceAs (Decidable (_ < _))
instance (b : TimeBuffer) (t : Int) : Decidable (b.Fills t) := inferInstanceAs (Decidable (_ ∨ _))

theorem not_index_gt (index : UInt16) : ¬ index.toNat > 0xFFFF := by
  have := index.toNat_lt
  omega

variable {b b' : TimeBuffer} {delta t : Int} {index : UInt16}

theorem write_of_drops (h : b.Drops t) : b.write delta index t = .ok (0, b) := by
  have hold : b.deltaTus t < -32768 := h
  rw [write, if_neg (not_index_gt index), if_pos hold]

theorem write_of_fills (hd : ¬ b.Drops t) (hf : b.Fills t) :
    b.write delta index t = .ok (-1, b.sealed delta t) := by
  have hnew : ¬ b.deltaTus t < -32768 := hd
  have hfull : b.count ≥ maxOutputNodes ∨ b.deltaTus t > 32767 := hf
  rw [write, if_neg (not_index_gt index), if_neg hnew, if_pos hfull, sealed]

theorem write_of_stores (hd : ¬ b.Drops t) (hf : ¬ b.Fills t) :
    b.write delta index t = .ok (b.count + 1, b.stored index t) := by
  have hnew : ¬ b.deltaTus t < -32768 := hd
  have hroom : ¬ (b.count ≥ maxOutputNodes ∨ b.deltaTus t > 32767) := hf
  rw [write, if_neg (not_index_gt index), if_neg hnew, if_neg hroom, stored]

/-- The three outcomes of a write. -/
theorem write_cases (b : TimeBuffer) (delta : Int) (index : UInt16) (t : Int) :
    (b.Drops t ∧ b.write delta index t = .ok (0, b)) ∨
    (¬ b.Drops t ∧ b.Fills t ∧ b.write delta index t = .ok (-1, b.sealed delta t)) ∨
    (¬ b.Drops t ∧ ¬ b.Fills t ∧ b.write delta index t = .ok (b.count + 1, b.stored index t)) := by
  by_cases hd : b.Drops t
  · exact .inl ⟨hd, write_of_drops hd⟩
  · by_cases hf : b.Fills t
    · exact .inr (.inl ⟨hd, hf, write_of_fills hd hf⟩)
    · exact .inr (.inr ⟨hd, hf, write_of_stores hd hf⟩)

/-! ## The fresh buffer -/

@[simp] theorem new_time : new.time = timeMin := rfl

@[simp] theorem new_deltaTus (t : Int) : new.deltaTus t = 0 := by
  rw [deltaTus, if_pos new_time]

@[simp] theorem new_baseTime (t : Int) : new.baseTime t = t := by
  rw [baseTime, if_pos new_time]

theorem new_not_drops (t : Int) : ¬ new.Drops t := by
  rw [Drops, new_deltaTus]; decide

/-- A fresh buffer takes any impulse: the second pass of `Server::write` succeeds. -/
theorem new_not_fills (t : Int) : ¬ new.Fills t := by
  rw [Fills, new_deltaTus]; decide

/-! ## Projections -/

@[simp] theorem stored_count : (b.stored index t).count = b.count + 1 := rfl
@[simp] theorem sealed_count : (b.sealed delta t).count = b.count := rfl
@[simp] theorem sealed_time :
    (b.sealed delta t).time = TimeSync.toNetwork delta (b.baseTime t) := rfl
@[simp] theorem setSrcClusterId_time (cid : ClusterID) :
    (b.setSrcClusterId cid).time = b.time := rfl
@[simp] theorem setSrcClusterId_count (cid : ClusterID) :
    (b.setSrcClusterId cid).count = b.count := rfl
@[simp] theorem prepareRead_time :
    (b.prepareRead delta).time = TimeSync.toLocal delta b.time := rfl

/-! ## The delta of an impulse that is not early -/

/-- Put into an `int`, a non-negative number does not grow. -/
theorem bmod_le_self {x : Int} (h : 0 ≤ x) : x.bmod (2 ^ 32) ≤ x := by
  rw [Int.bmod_def]
  split <;> omega

/-- The buffer is unused, or its first impulse is not after `t`. -/
def Behind (b : TimeBuffer) (t : Int) : Prop := b.time = timeMin ∨ b.time ≤ t

theorem baseTime_le {b : TimeBuffer} {t : Int} (h : b.Behind t) : b.baseTime t ≤ t := by
  rw [baseTime]
  split
  case isTrue => exact Int.le_refl t
  case isFalse hused => exact h.resolve_left hused

/-- A delta above the int16 range is a real gap of more than 32767 microseconds:
the reduction to an `int` can hide a gap but not make one up. -/
theorem gap_of_deltaTus (hle : b.Behind t) (hbig : 32767 < b.deltaTus t) :
    b.baseTime t + microseconds 32768 ≤ t := by
  by_cases hfirst : b.time = timeMin
  · rw [deltaTus, if_pos hfirst] at hbig
    omega
  · have hbefore := hle.resolve_left hfirst
    have hus := toMicroseconds_of_nonneg (d := t - b.time) (by omega)
    have hbm := bmod_le_self (x := toMicroseconds (t - b.time)) (by omega)
    rw [deltaTus, if_neg hfirst] at hbig
    rw [baseTime, if_neg hfirst, microseconds]
    omega

end TimeBuffer

end DistributAr
