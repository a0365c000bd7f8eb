/-
# `DistributAr.Wire` — what of a buffer reaches the receiver

`Server::write` hands `udp.Write` the first `size()` bytes of the buffer object,
and `Multicast::read` lays the received bytes over the start of the receiver's
object.  The pragmas that are to pack the members stand inside the class, and the
last of them takes the first one back before the class is laid out.  So the members
are aligned, and the object is padded:

    offset   0        4    8       16       18             730           1442   1448
             srcId    -    time    count    idx[0..355]    dt[0..355]    -

`size()` is that of a packed header and of four bytes for each stored impulse, as if
its index and its delta lay side by side.  Neither is so: the prefix ends `4 * count`
bytes behind offset 14.

| count      | indices sent | deltas sent                          |
|------------|--------------|--------------------------------------|
| 1          | none         | none                                 |
| 2 to 179   | all          | none                                 |
| from 180   | all          | those below `2 * count - 358`        |

`delivers_iff` says for which receivers the rest goes unnoticed, and that no buffer
gets through to every receiver.
-/
import DistributAr.Server
import DistributAr.Lib.Memory

namespace DistributAr

open Lib

namespace TimeBuffer

/-! ## The object in memory -/

/-- Offset of `time`: a 64-bit integer is aligned to eight bytes. -/
def offTime : Nat := 8

/-- Offset of `count`. -/
def offCount : Nat := offTime + 8

/-- Offset of `idx`. -/
def offIdx : Nat := offCount + 2

/-- Offset of `dt`: behind the whole of `idx`. -/
def offDt : Nat := offIdx + 2 * maxOutputNodes

/-- The bits of `idx[i]`. -/
def idxBits (b : TimeBuffer) (i : Nat) : Nat := (b.idx[i]?.getD 0).toNat

/-- The bits of `dt[i]`. -/
def dtBits (b : TimeBuffer) (i : Nat) : Nat := (b.dt[i]?.getD 0).toUInt16.toNat

/-- The bits of `time`, a 64-bit integer in two's complement. -/
def timeBits (b : TimeBuffer) : Nat := (b.time % 2 ^ 64).toNat

/-- Byte `k` of a little-endian number. -/
def byteOf (v k : Nat) : UInt8 := UInt8.ofNat (v / 256 ^ k)

/-- The object.  No member lies in the padding, and zeros stand for it. -/
def image (b : TimeBuffer) : Memory := fun k =>
  if k < 4 then byteOf b.srcId.toNat k
  else if k < offTime then 0
  else if k < offCount then byteOf b.timeBits (k - offTime)
  else if k < offIdx then byteOf b.count (k - offCount)
  else if k < offDt then byteOf (b.idxBits ((k - offIdx) / 2)) ((k - offIdx) % 2)
  else byteOf (b.dtBits ((k - offDt) / 2)) ((k - offDt) % 2)

/-- The object a memory holds. -/
def ofImage (m : Memory) : TimeBuffer where
  srcId := UInt32.ofNat (m.read 0 4)
  time := (m.read offTime 8 : Int).bmod (2 ^ 64)
  count := m.read offCount 2
  idx := Vector.ofFn fun i => UInt16.ofNat (m.read (offIdx + 2 * i) 2)
  dt := Vector.ofFn fun i => (UInt16.ofNat (m.read (offDt + 2 * i) 2)).toInt16

/-- The bytes `udp.Write` is handed: `(char*)&*timeBuff, timeBuff->size()`. -/
def packet (b : TimeBuffer) : List UInt8 := b.image.take b.size

end TimeBuffer

/-- `Multicast::read`: the received bytes over the start of the object. -/
def Multicast.read (packet : List UInt8) (m : Memory) : TimeBuffer :=
  TimeBuffer.ofImage (m.overlay packet)

namespace TimeBuffer

/-! ## The fields of an image -/

theorem ofImage_srcId (m : Memory) : (ofImage m).srcId = UInt32.ofNat (m.read 0 4) := rfl

theorem ofImage_time (m : Memory) : (ofImage m).time = (m.read offTime 8 : Int).bmod (2 ^ 64) := by
  simp only [ofImage]

theorem ofImage_count (m : Memory) : (ofImage m).count = m.read offCount 2 := rfl

theorem ofImage_idx (m : Memory) {i : Nat} (hcap : i < maxOutputNodes) :
    (ofImage m).idx[i]? = some (UInt16.ofNat (m.read (offIdx + 2 * i) 2)) := by
  rw [Vector.getElem?_eq_getElem hcap]
  simp only [ofImage, Vector.getElem_ofFn]

theorem ofImage_dt (m : Memory) {i : Nat} (hcap : i < maxOutputNodes) :
    (ofImage m).dt[i]? = some (UInt16.ofNat (m.read (offDt + 2 * i) 2)).toInt16 := by
  rw [Vector.getElem?_eq_getElem hcap]
  simp only [ofImage, Vector.getElem_ofFn]

variable (b : TimeBuffer)

theorem image_srcId : b.image.read 0 4 = b.srcId.toNat % 256 ^ 4 := by
  refine Memory.read_of_digits ?_
  intro k hk
  rw [image, Nat.zero_add, if_pos hk, byteOf]

theorem image_time : b.image.read offTime 8 = b.timeBits % 256 ^ 8 := by
  refine Memory.read_of_digits ?_
  intro k hk
  have hoff : offTime = 8 := rfl
  have hend : offCount = offTime + 8 := rfl
  rw [image, if_neg (by omega), if_neg (by omega), if_pos (by omega), Nat.add_sub_cancel_left,
    byteOf]

theorem image_count : b.image.read offCount 2 = b.count % 256 ^ 2 := by
  refine Memory.read_of_digits ?_
  intro k hk
  have htime : offTime = 8 := rfl
  have hoff : offCount = 16 := rfl
  have hend : offIdx = offCount + 2 := rfl
  rw [image, if_neg (by omega), if_neg (by omega), if_neg (by omega), if_pos (by omega),
    Nat.add_sub_cancel_left, byteOf]

/-- The header ends where the arrays begin. -/
theorem not_header {k : Nat} (hk : offIdx ≤ k) :
    ¬ k < 4 ∧ ¬ k < offTime ∧ ¬ k < offCount ∧ ¬ k < offIdx := by
  have htime : offTime = 8 := rfl
  have hcount : offCount = 16 := rfl
  have hidx : offIdx = 18 := rfl
  omega

theorem image_idx {i : Nat} (hi : i < maxOutputNodes) :
    b.image.read (offIdx + 2 * i) 2 = b.idxBits i % 256 ^ 2 := by
  refine Memory.read_of_digits ?_
  intro k hk
  have hend : offIdx + 2 * i + k < offDt := by unfold offDt; omega
  have hslot : (offIdx + 2 * i + k - offIdx) / 2 = i := by omega
  have hbyte : (offIdx + 2 * i + k - offIdx) % 2 = k := by omega
  obtain ⟨hsrc, htime, hcount, hidx⟩ := not_header (k := offIdx + 2 * i + k) (by omega)
  rw [image, if_neg hsrc, if_neg htime, if_neg hcount, if_neg hidx, if_pos hend, hslot, hbyte,
    byteOf]

theorem image_dt (i : Nat) : b.image.read (offDt + 2 * i) 2 = b.dtBits i % 256 ^ 2 := by
  refine Memory.read_of_digits ?_
  intro k hk
  have hslot : (offDt + 2 * i + k - offDt) / 2 = i := by omega
  have hbyte : (offDt + 2 * i + k - offDt) % 2 = k := by omega
  have hnext : offIdx ≤ offDt := by decide
  obtain ⟨hsrc, htime, hcount, hidx⟩ := not_header (k := offDt + 2 * i + k) (by omega)
  rw [image, if_neg hsrc, if_neg htime, if_neg hcount, if_neg hidx, if_neg (by omega), hslot,
    hbyte, byteOf]

theorem idxBits_mod {i : Nat} (hcap : i < maxOutputNodes) :
    b.idxBits i % 256 ^ 2 = b.idx[i].toNat := by
  rw [idxBits, Vector.getElem?_eq_getElem hcap]
  exact Nat.mod_eq_of_lt b.idx[i].toNat_lt

theorem dtBits_mod {i : Nat} (hcap : i < maxOutputNodes) :
    b.dtBits i % 256 ^ 2 = b.dt[i].toUInt16.toNat := by
  rw [dtBits, Vector.getElem?_eq_getElem hcap]
  exact Nat.mod_eq_of_lt b.dt[i].toUInt16.toNat_lt

/-! ## The fields the receiver gets

`m` is the receiver's object before the packet arrives. -/

variable {b} (m : Memory)

/-- The time is one that fits the 64-bit clock. -/
def Fits (b : TimeBuffer) : Prop := -2 ^ 63 ≤ b.time ∧ b.time < 2 ^ 63

/-- The index of impulse `i` lies inside the transmitted prefix. -/
def IndexSent (b : TimeBuffer) (i : Nat) : Prop := i + 2 < 2 * b.count

/-- The delta of impulse `i` lies inside the transmitted prefix. -/
def DeltaSent (b : TimeBuffer) (i : Nat) : Prop := i + maxOutputNodes + 2 < 2 * b.count

instance (b : TimeBuffer) (i : Nat) : Decidable (b.IndexSent i) :=
  inferInstanceAs (Decidable (_ < _))

instance (b : TimeBuffer) (i : Nat) : Decidable (b.DeltaSent i) :=
  inferInstanceAs (Decidable (_ < _))

/-- Of two impulses or more, all indices are sent. -/
theorem indexSent_of_two_le (h : 2 ≤ b.count) {i : Nat} (hi : i < b.count) : b.IndexSent i := by
  unfold IndexSent
  omega

theorem size_eq (b : TimeBuffer) : b.size = 14 + 4 * b.count := rfl

/-- With an impulse in it, a packet has the whole header. -/
theorem header_le (h : 1 ≤ b.count) : offIdx ≤ b.size := by
  have hidx : offIdx = 18 := rfl
  rw [size_eq]
  omega

theorem indexSent_iff {i : Nat} : b.IndexSent i ↔ offIdx + 2 * i + 2 ≤ b.size := by
  have hidx : offIdx = 18 := rfl
  rw [size_eq, IndexSent]
  omega

theorem deltaSent_iff {i : Nat} : b.DeltaSent i ↔ offDt + 2 * i + 2 ≤ b.size := by
  have hidx : offIdx = 18 := rfl
  rw [size_eq, DeltaSent, offDt]
  omega

/-- What is not sent whole is not sent at all. -/
theorem not_indexSent_iff {i : Nat} : ¬ b.IndexSent i ↔ b.size ≤ offIdx + 2 * i := by
  have hidx : offIdx = 18 := rfl
  rw [size_eq, IndexSent]
  omega

theorem not_deltaSent_iff {i : Nat} : ¬ b.DeltaSent i ↔ b.size ≤ offDt + 2 * i := by
  have hidx : offIdx = 18 := rfl
  rw [size_eq, DeltaSent, offDt]
  omega

theorem received_srcId : (Multicast.read b.packet m).srcId = b.srcId := by
  have hin : 0 + 4 ≤ b.size := by rw [size_eq]; omega
  have hmod : b.srcId.toNat % 256 ^ 4 = b.srcId.toNat := Nat.mod_eq_of_lt b.srcId.toNat_lt
  rw [Multicast.read, ofImage_srcId, packet, Memory.read_overlay_inside _ _ hin, image_srcId,
    hmod, UInt32.ofNat_toNat]

theorem received_time (h1 : 1 ≤ b.count) (h : b.Fits) :
    (Multicast.read b.packet m).time = b.time := by
  have hin : offTime + 8 ≤ b.size := Nat.le_trans (by decide) (header_le h1)
  obtain ⟨hlo, hhi⟩ := h
  have hbits : (b.timeBits : Int) = b.time % 2 ^ 64 := by rw [timeBits]; omega
  have hmod : b.timeBits % 256 ^ 8 = b.timeBits := Nat.mod_eq_of_lt (by omega)
  rw [Multicast.read, ofImage_time, packet, Memory.read_overlay_inside _ _ hin, image_time,
    hmod, hbits, Int.bmod_def]
  split <;> omega

theorem received_count (h1 : 1 ≤ b.count) (h : b.count ≤ maxOutputNodes) :
    (Multicast.read b.packet m).count = b.count := by
  rw [maxOutputNodes_eq] at h
  rw [Multicast.read, ofImage_count, packet, Memory.read_overlay_inside _ _ (header_le h1),
    image_count]
  exact Nat.mod_eq_of_lt (by omega)

/-- An index inside the prefix arrives. -/
theorem received_idx {i : Nat} (hcap : i < maxOutputNodes) (hs : b.IndexSent i) :
    (Multicast.read b.packet m).idx[i]? = b.idx[i]? := by
  rw [Multicast.read, ofImage_idx _ hcap, packet,
    Memory.read_overlay_inside _ _ (indexSent_iff.mp hs), image_idx b hcap, idxBits_mod b hcap,
    UInt16.ofNat_toNat, Vector.getElem?_eq_getElem hcap]

/-- A delta inside the prefix arrives. -/
theorem received_dt {i : Nat} (hcap : i < maxOutputNodes) (hs : b.DeltaSent i) :
    (Multicast.read b.packet m).dt[i]? = b.dt[i]? := by
  rw [Multicast.read, ofImage_dt _ hcap, packet,
    Memory.read_overlay_inside _ _ (deltaSent_iff.mp hs), image_dt, dtBits_mod b hcap,
    UInt16.ofNat_toNat, Int16.toInt16_toUInt16, Vector.getElem?_eq_getElem hcap]

/-- What lies behind the prefix is whatever the receiver had there. -/
theorem kept_idx {i : Nat} (hcap : i < maxOutputNodes) (hs : ¬ b.IndexSent i) :
    (Multicast.read b.packet m).idx[i]? = (ofImage m).idx[i]? := by
  rw [Multicast.read, ofImage_idx _ hcap, packet,
    Memory.read_overlay_outside _ _ (not_indexSent_iff.mp hs), ofImage_idx _ hcap]

theorem kept_dt {i : Nat} (hcap : i < maxOutputNodes) (hs : ¬ b.DeltaSent i) :
    (Multicast.read b.packet m).dt[i]? = (ofImage m).dt[i]? := by
  rw [Multicast.read, ofImage_dt _ hcap, packet,
    Memory.read_overlay_outside _ _ (not_deltaSent_iff.mp hs), ofImage_dt _ hcap]

theorem ofImage_image_idx (b : TimeBuffer) {i : Nat} (hcap : i < maxOutputNodes) :
    (ofImage b.image).idx[i]? = b.idx[i]? := by
  rw [ofImage_idx _ hcap, image_idx b hcap, idxBits_mod b hcap, UInt16.ofNat_toNat,
    Vector.getElem?_eq_getElem hcap]

theorem ofImage_image_dt (b : TimeBuffer) {i : Nat} (hcap : i < maxOutputNodes) :
    (ofImage b.image).dt[i]? = b.dt[i]? := by
  rw [ofImage_dt _ hcap, image_dt, dtBits_mod b hcap, UInt16.ofNat_toNat,
    Int16.toInt16_toUInt16, Vector.getElem?_eq_getElem hcap]

/-- Some receiver holds another delta in the place of `dt[i]`. -/
theorem exists_other_dt (b : TimeBuffer) {i : Nat} (hcap : i < maxOutputNodes) :
    ∃ m : Memory, (ofImage m).dt[i]? ≠ b.dt[i]? := by
  have hother : ∃ x : Int16, x ≠ b.dt[i] := by
    by_cases h : b.dt[i] = 0
    · exact ⟨1, by rw [h]; decide⟩
    · exact ⟨0, fun h0 => h h0.symm⟩
  obtain ⟨x, hx⟩ := hother
  refine ⟨image { b with dt := Vector.replicate _ x }, ?_⟩
  rw [ofImage_image_dt _ hcap, Vector.getElem?_eq_getElem hcap, Vector.getElem?_eq_getElem hcap,
    Vector.getElem_replicate]
  exact fun h => hx (Option.some.inj h)

/-! ## The round trip -/

/-- `r` is the packet `b` as the sender flushed it. -/
structure Delivers (b r : TimeBuffer) : Prop where
  srcId : r.srcId = b.srcId
  time : r.time = b.time
  count : r.count = b.count
  impulse : ∀ i < b.count, r.idx[i]? = b.idx[i]? ∧ r.dt[i]? = b.dt[i]?

/-- A delivered packet yields the impulses the sender stored. -/
theorem Delivers.read {b r : TimeBuffer} (h : b.Delivers r) {i : Nat} (hi : i < b.count) :
    r.read i = b.read i := by
  obtain ⟨hidx, hdt⟩ := h.impulse i hi
  rw [TimeBuffer.read, TimeBuffer.read, hidx, hdt, h.time]

/-- The indices and deltas that are not transmitted are already in the receiver's
memory. -/
def TailAgrees (b : TimeBuffer) (m : Memory) : Prop :=
  ∀ i < b.count, (¬ b.IndexSent i → (ofImage m).idx[i]? = b.idx[i]?)
    ∧ (¬ b.DeltaSent i → (ofImage m).dt[i]? = b.dt[i]?)

theorem delivers_iff_tailAgrees (h1 : 1 ≤ b.count) (hc : b.count ≤ maxOutputNodes) (ht : b.Fits) :
    b.Delivers (Multicast.read b.packet m) ↔ b.TailAgrees m := by
  constructor
  · intro h i hi
    have hcap : i < maxOutputNodes := by omega
    obtain ⟨hidx, hdt⟩ := h.impulse i hi
    refine ⟨fun hs => ?_, fun hs => ?_⟩
    · rw [← kept_idx m hcap hs]
      exact hidx
    · rw [← kept_dt m hcap hs]
      exact hdt
  · intro h
    refine ⟨received_srcId m, received_time m h1 ht, received_count m h1 hc, ?_⟩
    intro i hi
    have hcap : i < maxOutputNodes := by omega
    obtain ⟨hidx, hdt⟩ := h i hi
    refine ⟨?_, ?_⟩
    · by_cases hs : b.IndexSent i
      · exact received_idx m hcap hs
      · rw [kept_idx m hcap hs]
        exact hidx hs
    · by_cases hs : b.DeltaSent i
      · exact received_dt m hcap hs
      · rw [kept_dt m hcap hs]
        exact hdt hs

/-- The last delta is never sent. -/
theorem not_deltaSent_last (hc : b.count ≤ maxOutputNodes) : ¬ b.DeltaSent (b.count - 1) := by
  unfold DeltaSent
  omega

/-- The round trip of a packet: a receiver gets the flushed buffer exactly when its
memory already agrees on the indices and deltas behind the transmitted prefix, and
some receiver does not get it. -/
theorem delivers_iff (b : TimeBuffer) (h1 : 1 ≤ b.count) (hc : b.count ≤ maxOutputNodes)
    (ht : b.Fits) :
    (∀ m, b.Delivers (Multicast.read b.packet m) ↔ b.TailAgrees m)
      ∧ ¬ ∀ m, b.Delivers (Multicast.read b.packet m) := by
  have hone := fun m => delivers_iff_tailAgrees m h1 hc ht
  refine ⟨hone, ?_⟩
  intro hall
  obtain ⟨m, hm⟩ := exists_other_dt b (i := b.count - 1) (by omega)
  exact hm ((((hone m).mp (hall m)) (b.count - 1) (by omega)).2 (not_deltaSent_last hc))

end TimeBuffer

/-- Two impulses a millisecond apart, and a third that finds the buffer over. -/
def threeCalls : List Call := [⟨7, 0, 0⟩, ⟨9, 1000000, 0⟩, ⟨3, 50000000, 0⟩]

/-- The buffer those calls flush. -/
def twoImpulses : TimeBuffer :=
  (((TimeBuffer.new.stored 7 0).stored 9 1000000).sealed 0 50000000).setSrcClusterId 1025

theorem delivers_iff_twoImpulses :
    (∀ m, twoImpulses.Delivers (Multicast.read twoImpulses.packet m) ↔ twoImpulses.TailAgrees m)
      ∧ ¬ ∀ m, twoImpulses.Delivers (Multicast.read twoImpulses.packet m) :=
  TimeBuffer.delivers_iff twoImpulses (by decide) (by decide) ⟨by decide, by decide⟩

/-- The second of the two impulses loses its delta at a receiver whose memory is
zero: the prefix sent is 22 bytes, and the delta lies at offset 732. -/
theorem twoImpulses_not_delivered : ∃ s, (Server.new 1025).writes threeCalls = .ok s
    ∧ ∃ f ∈ s.sent, ¬ f.packet.Delivers (Multicast.read f.packet.packet fun _ => 0) := by
  refine ⟨_, rfl, _, List.mem_singleton_self _, ?_⟩
  intro h
  have hdt := (h.impulse 1 (by decide)).2
  rw [TimeBuffer.kept_dt _ (by decide) (by decide), TimeBuffer.ofImage_dt _ (by decide)] at hdt
  exact absurd hdt (by decide +kernel)

end DistributAr
