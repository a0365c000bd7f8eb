/-
# `DistributAr.Received` — reading a packet that was accepted

`Network::readVerify` looks at the header of what it received: at the count, if it
is zero, and at the time.  It does not compare the count with the length of the
datagram, nor with the capacity of the arrays ("TODO: check max size???").  What
`TimeBuffer::read` then reads lies in two places,

    idx[i]   at 18 + 2 * i        dt[i]   at 730 + 2 * i

and behind the end of the datagram it finds what was in the object before.  The
deltas are last, and behind them there are six bytes of padding, which a count of up
to 359 takes for deltas.  So a packet is safe to read exactly if its count is not
above the capacity and the datagram reaches to the end of the deltas in use
(`accepted_safe_iff`).  The packets that the servers send never do
(`packet_not_reaches`).
-/
import DistributAr.Filtering
import DistributAr.Wire

namespace DistributAr

open Lib

/-- `sizeof(TimeBuffer)`: the members, and padding to a multiple of eight bytes. -/
def sizeofTimeBuffer : Nat := TimeBuffer.offDt + 2 * maxOutputNodes + 6

/-- What `ReadSelect` can put into a `TimeBuffer`. -/
structure Frame where
  bytes : List UInt8
  pos : 1 ≤ bytes.length
  le_sizeof : bytes.length ≤ sizeofTimeBuffer

namespace Frame

/-- The call of `readVerify` that receives the datagram into an object `m`. -/
def reading (d : Frame) (m : Memory) (now delta : Int) : Reading :=
  ⟨d.bytes.length, Multicast.read d.bytes m, now, delta⟩

/-- Impulse `i` of the buffer is read inside of the arrays, and what is read are
fields of the datagram: its base time, its `dt[i]` and its `idx[i]`. -/
def Backs (d : Frame) (delta : Int) (bb : TimeBuffer) (i : Nat) : Prop :=
  ∃ base us node, Memory.field d.bytes TimeBuffer.offTime 8 = some base
    ∧ Memory.field d.bytes (TimeBuffer.offDt + 2 * i) 2 = some us
    ∧ Memory.field d.bytes (TimeBuffer.offIdx + 2 * i) 2 = some node
    ∧ bb.read i = some (TimeSync.toLocal delta ((base : Int).bmod (2 ^ 64))
        + microseconds (UInt16.ofNat us).toInt16.toInt, UInt16.ofNat node)

/-- The buffer is safe to read. -/
def Safe (d : Frame) (delta : Int) (bb : TimeBuffer) : Prop :=
  bb.sizeData ≤ maxOutputNodes ∧ ∀ i < bb.sizeData, d.Backs delta bb i

/-- The count fits the arrays, and the datagram reaches to the end of the deltas in
use. -/
def Reaches (d : Frame) (bb : TimeBuffer) : Prop :=
  bb.count ≤ maxOutputNodes ∧ TimeBuffer.offDt + 2 * bb.count ≤ d.bytes.length

instance (d : Frame) (bb : TimeBuffer) : Decidable (d.Reaches bb) :=
  inferInstanceAs (Decidable (_ ∧ _))

variable {d : Frame} {m : Memory} {delta : Int} {i : Nat}

/-- An impulse whose delta was received is backed by the datagram. -/
theorem backs_of_reaches (hcap : i < maxOutputNodes)
    (hlen : TimeBuffer.offDt + 2 * i + 2 ≤ d.bytes.length) :
    d.Backs delta ((Multicast.read d.bytes m).prepareRead delta) i := by
  have hoff : TimeBuffer.offIdx + 2 * maxOutputNodes = TimeBuffer.offDt := rfl
  have hheader : TimeBuffer.offTime + 8 ≤ TimeBuffer.offIdx := by decide
  obtain ⟨base, hbase⟩ := Option.isSome_iff_exists.mp
    (Memory.field_isSome.mpr (show TimeBuffer.offTime + 8 ≤ d.bytes.length by omega))
  obtain ⟨us, hus⟩ := Option.isSome_iff_exists.mp (Memory.field_isSome.mpr hlen)
  obtain ⟨node, hnode⟩ := Option.isSome_iff_exists.mp
    (Memory.field_isSome.mpr (show TimeBuffer.offIdx + 2 * i + 2 ≤ d.bytes.length by omega))
  refine ⟨base, us, node, hbase, hus, hnode, ?_⟩
  have htime : ((Multicast.read d.bytes m).prepareRead delta).time
      = TimeSync.toLocal delta ((base : Int).bmod (2 ^ 64)) := by
    rw [TimeBuffer.prepareRead_time, Multicast.read, TimeBuffer.ofImage_time,
      Memory.read_overlay_field m hbase]
  have hdt : ((Multicast.read d.bytes m).prepareRead delta).dt[i]?
      = some (UInt16.ofNat us).toInt16 := by
    have hfield := TimeBuffer.ofImage_dt (m.overlay d.bytes) hcap
    rwa [Memory.read_overlay_field m hus] at hfield
  have hidx : ((Multicast.read d.bytes m).prepareRead delta).idx[i]?
      = some (UInt16.ofNat node) := by
    have hfield := TimeBuffer.ofImage_idx (m.overlay d.bytes) hcap
    rwa [Memory.read_overlay_field m hnode] at hfield
  rw [TimeBuffer.read, hdt, hidx, htime]

/-- A buffer with impulses is safe exactly if the arrays have room for them and the
last delta was received. -/
theorem safe_iff_reaches (hpos : 0 < (Multicast.read d.bytes m).count) :
    d.Safe delta ((Multicast.read d.bytes m).prepareRead delta)
      ↔ d.Reaches (Multicast.read d.bytes m) := by
  have hsize : ((Multicast.read d.bytes m).prepareRead delta).sizeData
      = (Multicast.read d.bytes m).count := rfl
  unfold Safe Reaches
  rw [hsize]
  refine and_congr_right fun hcap => ?_
  constructor
  · intro hbacks
    obtain ⟨-, us, -, -, hus, -, -⟩ := hbacks ((Multicast.read d.bytes m).count - 1) (by omega)
    have hlast := Memory.field_isSome.mp (Option.isSome_iff_exists.mpr ⟨us, hus⟩)
    omega
  · intro hlen i hi
    exact backs_of_reaches (by omega) (by omega)

/-- A packet accepted is safe to read. -/
def SafeWhenAccepted (d : Frame) (n : Network) (m : Memory) (now delta : Int) : Prop :=
  let result := n.readVerify delta now d.bytes.length (Multicast.read d.bytes m)
  Network.readVerifyRet result ≠ 0 → d.Safe delta result.2.1

/-- One impulse, as a server sends it: the 18 bytes are the header. -/
def oneImpulse : Frame :=
  ⟨[1, 0, 0, 0, 0, 0, 0, 0, 0, 0, 0, 0, 0, 0, 0, 0, 1, 0], by decide, by decide⟩

end Frame

/-- Of the packets that the servers send, none reaches so far. -/
theorem packet_not_reaches {b : TimeBuffer} (hc : b.count ≤ maxOutputNodes) :
    b.packet.length < TimeBuffer.offDt + 2 * b.count := by
  have hlen : b.packet.length = b.size := by
    rw [TimeBuffer.packet, Memory.take, List.length_map, List.length_range]
  have hoff : TimeBuffer.offIdx + 2 * maxOutputNodes = TimeBuffer.offDt := rfl
  have hidx : TimeBuffer.offIdx = 18 := rfl
  rw [hlen, TimeBuffer.size_eq]
  omega

end DistributAr
