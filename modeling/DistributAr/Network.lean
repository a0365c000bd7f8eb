/-
# `DistributAr.Network` — the receiving side

`Network::readVerify` takes a packet off the multicast socket, brings its base
time to the clock of this host and decides whether it is passed on.  There are
four ways to be turned away, in this order: nothing was read, no impulses, base
time more than `PACKET_LIFE_TIME_MS` ago, base time before the last one
accepted from the same source.
-/
import DistributAr.TimeBuffer

namespace DistributAr

/-- What becomes of a packet. -/
inductive Verdict where
  | noPacket
  | empty
  | tooOld
  | outOfOrder
  | accepted
deriving DecidableEq, Repr

/-- The part of `Network` that outlives a packet: when the last packet was
received from each cluster. -/
structure Network where
  sequences : AList fun _ : ClusterID => Int

namespace Network

/-- `sequences[id]`: a missing entry is a `TimeDefault`. -/
def lastTime (n : Network) (id : ClusterID) : Int := (n.sequences.lookup id).getD timeMin

/-- `Network::readVerify`, given what `read(bb)` returned and left in `bb`: the
verdict, the buffer and the network afterwards. -/
def readVerify (n : Network) (delta now ret : Int) (bb : TimeBuffer) :
    Verdict × TimeBuffer × Network :=
  if ret = 0 then (.noPacket, bb, n)
  else
    let bb := bb.prepareRead delta
    if bb.sizeData ≤ 0 then (.empty, bb, n)
    else
      let time := bb.getTime
      if time + milliseconds packetLifeTimeMs < now then (.tooOld, bb, n)
      else
        let id := bb.getSrcClusterId
        let t := n.lastTime id
        if t > time then (.outOfOrder, bb, ⟨n.sequences.insert id t⟩)
        else (.accepted, bb, ⟨n.sequences.insert id time⟩)

/-- The return value of `readVerify`. -/
def readVerifyRet (r : Verdict × TimeBuffer × Network) : Nat :=
  match r.1 with
  | .accepted => r.2.1.sizeData
  | _ => 0

/-- Whatever the verdict on a packet that was read, its base time has been
converted. -/
theorem readVerify_buffer (n : Network) (delta now : Int) {ret : Int} (bb : TimeBuffer)
    (hret : ret ≠ 0) : (n.readVerify delta now ret bb).2.1 = bb.prepareRead delta := by
  unfold readVerify
  rw [if_neg hret]
  dsimp only
  split
  · rfl
  split
  · rfl
  split <;> rfl

/-- A packet is too old when the base time it was sent with, on the receiver's
clock, lies more than the life time back. -/
theorem readVerify_tooOld_iff (n : Network) (delta now ret : Int) (bb : TimeBuffer) :
    (n.readVerify delta now ret bb).1 = .tooOld ↔
      ret ≠ 0 ∧ 0 < bb.count ∧
        TimeSync.toLocal delta bb.time + milliseconds packetLifeTimeMs < now := by
  unfold readVerify
  by_cases hret : ret = 0
  · simp only [hret, if_true, ne_eq, not_true, false_and, reduceCtorEq]
  by_cases hcount : bb.count ≤ 0
  · have hempty : (bb.prepareRead delta).sizeData ≤ 0 := hcount
    have hzero : ¬ 0 < bb.count := by omega
    simp only [hret, hempty, hzero, if_true, if_false, false_and, and_false, reduceCtorEq]
  have hsome : ¬ (bb.prepareRead delta).sizeData ≤ 0 := hcount
  have hpos : 0 < bb.count := by omega
  have htime : (bb.prepareRead delta).getTime = TimeSync.toLocal delta bb.time := rfl
  by_cases hold : TimeSync.toLocal delta bb.time + milliseconds packetLifeTimeMs < now
  · simp only [hret, hsome, htime, hold, hpos, if_true, if_false, ne_eq, not_false_iff, and_self]
  · simp only [hret, hsome, htime, hold, if_false, and_false, iff_false]
    split <;> exact Verdict.noConfusion

end Network

end DistributAr
