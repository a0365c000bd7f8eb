/-
# `DistributAr.Filtering` — which packets leave a trace

`Network::readVerify` keeps one time for each source, `sequences`, and looks it up
with `operator[]`, which makes an entry where there is none.  It does so only
after the tests for nothing, emptiness and age, and the entry it makes is the time
that a missing entry stands for.  So a packet that is turned away, for whichever
of the four reasons, leaves what is remembered of every source as it was:
`readVerify` is a gate (`gate_spec`), and all of `sequence_filter` follows from
that.
-/
import DistributAr.Lib.Gate
import DistributAr.Network
import Mathlib.Data.Int.Order.Basic

namespace DistributAr

open Lib

/-- One call of `readVerify`: what `read` returns and leaves in the buffer, the
clock and the offset. -/
structure Reading where
  ret : Int
  packet : TimeBuffer
  now : Int
  delta : Int

namespace Reading

/-- The source that the packet names. -/
def source (r : Reading) : ClusterID := r.packet.srcId

/-- The base time on the clock of this host. -/
def base (r : Reading) : Int := TimeSync.toLocal r.delta r.packet.time

end Reading

namespace Network

/-- One call, and whether the packet is accepted. -/
def receive (n : Network) (r : Reading) : Network × Bool :=
  let result := n.readVerify r.delta r.now r.ret r.packet
  (result.2.2, readVerifyRet result ≠ 0)

/-- A network that has seen no packet. -/
def start : Network := ⟨∅⟩

variable (n : Network) (r : Reading)

/-- A packet is accepted that was read, is not empty, is young and is not before
the last one. -/
def Accepts : Prop :=
  r.ret ≠ 0 ∧ 0 < r.packet.count ∧ r.now ≤ r.base + milliseconds packetLifeTimeMs
    ∧ n.lastTime r.source ≤ r.base

theorem lastTime_insert (id k : ClusterID) (t : Int) :
    lastTime ⟨n.sequences.insert id t⟩ k = if k = id then t else n.lastTime k := by
  unfold lastTime
  by_cases hk : k = id
  · subst hk
    rw [AList.lookup_insert, if_pos rfl, Option.getD_some]
  · rw [AList.lookup_insert_ne hk, if_neg hk]

/-- What one call does: an accepted packet sets the time of its source, any other
changes no time. -/
theorem receive_cases :
    (n.Accepts r ∧ (n.receive r).2 = true
        ∧ ∀ k, (n.receive r).1.lastTime k = if k = r.source then r.base else n.lastTime k) ∨
    (¬ n.Accepts r ∧ (n.receive r).2 = false
        ∧ ∀ k, (n.receive r).1.lastTime k = n.lastTime k) := by
  unfold receive readVerify Accepts
  by_cases hret : r.ret = 0
  · rw [if_pos hret]
    exact .inr ⟨fun h => h.1 hret, rfl, fun _ => rfl⟩
  rw [if_neg hret]
  dsimp only
  by_cases hempty : (r.packet.prepareRead r.delta).sizeData ≤ 0
  · have hcount : r.packet.count ≤ 0 := hempty
    rw [if_pos hempty]
    exact .inr ⟨fun h => absurd h.2.1 (Nat.not_lt.mpr hcount), rfl, fun _ => rfl⟩
  have hcount : ¬ r.packet.count ≤ 0 := hempty
  rw [if_neg hempty]
  by_cases hold : (r.packet.prepareRead r.delta).getTime + milliseconds packetLifeTimeMs < r.now
  · rw [if_pos hold]
    exact .inr ⟨fun h => absurd h.2.2.1 (Int.not_le.mpr hold), rfl, fun _ => rfl⟩
  rw [if_neg hold]
  by_cases horder : n.lastTime (r.packet.prepareRead r.delta).getSrcClusterId
      > (r.packet.prepareRead r.delta).getTime
  · rw [if_pos horder]
    refine .inr ⟨fun h => absurd h.2.2.2 (Int.not_le.mpr horder), rfl, ?_⟩
    -- the entry that `operator[]` makes is what a missing entry stands for
    intro k
    rw [lastTime_insert]
    split
    · rename_i hk
      rw [hk]
    · rfl
  · rw [if_neg horder]
    refine .inl ⟨⟨hret, Nat.not_le.mp hcount, Int.not_lt.mp hold, Int.not_lt.mp horder⟩, ?_, ?_⟩
    · have hne : r.packet.count ≠ 0 := fun h => hcount (Nat.le_of_eq h)
      exact decide_eq_true hne
    · exact fun k => lastTime_insert n _ k _

theorem receive_accepts {n : Network} {r : Reading} (h : (n.receive r).2 = true) :
    n.Accepts r ∧ ∀ k, (n.receive r).1.lastTime k
      = if k = r.source then r.base else n.lastTime k := by
  obtain ⟨haccepts, -, htime⟩ | ⟨-, hno, -⟩ := receive_cases n r
  · exact ⟨haccepts, htime⟩
  · exact absurd (h.symm.trans hno) (by decide)

/-- `readVerify` is a gate with a time for each source. -/
theorem gate_spec : Gate.Spec receive Reading.source Reading.base lastTime where
  decides := by
    intro m n r heq
    have hiff : m.Accepts r ↔ n.Accepts r := by rw [Accepts, Accepts, heq]
    obtain ⟨hm, hmyes, -⟩ | ⟨hm, hmno, -⟩ := receive_cases m r <;>
      obtain ⟨hn, hnyes, -⟩ | ⟨hn, hnno, -⟩ := receive_cases n r
    · rw [hmyes, hnyes]
    · exact absurd (hiff.mp hm) hn
    · exact absurd (hiff.mpr hn) hm
    · rw [hmno, hnno]
  accepts := fun _ _ h => (receive_accepts h).2
  rejects := by
    intro n r h
    obtain ⟨-, hyes, -⟩ | ⟨-, -, htime⟩ := receive_cases n r
    · exact absurd (h.symm.trans hyes) (by decide)
    · exact htime

/-- Every packet accepted was young. -/
theorem young_of_mem_accepted {rs : List Reading} (h : r ∈ Gate.accepted receive n rs) :
    r.now ≤ r.base + milliseconds packetLifeTimeMs := by
  induction rs generalizing n with
  | nil => exact absurd h List.not_mem_nil
  | cons r' rs ih =>
      rw [Gate.accepted_cons] at h
      split at h
      · rename_i hpass
        rcases List.mem_cons.mp h with rfl | hrest
        · exact (receive_accepts hpass).1.2.2.1
        · exact ih _ hrest
      · exact ih _ h

/-- The packets accepted from a source: `readVerify` returned something else than
zero. -/
def acceptedFrom (id : ClusterID) (rs : List Reading) : List Reading :=
  (Gate.accepted receive start rs).filter fun r => r.source = id

/-- Any sequence of readings: the packets accepted from a source are in the order
of their base times and young; a decision depends on the reading itself and on
the base times of the packets accepted from the same source so far; and the
decisions about the others are the same without the packets that were rejected, and
without those from other sources. -/
theorem sequence_filter (rs : List Reading) :
    (∀ id, ((acceptedFrom id rs).map Reading.base).Pairwise (· ≤ ·))
      ∧ (∀ id, ∀ r ∈ acceptedFrom id rs, r.now ≤ r.base + milliseconds packetLifeTimeMs)
      ∧ (∀ rs' r, (acceptedFrom r.source rs).map Reading.base
          = (acceptedFrom r.source rs').map Reading.base →
        ((Gate.run receive start rs).receive r).2 = ((Gate.run receive start rs').receive r).2)
      ∧ Gate.decisions receive start (Gate.accepted receive start rs)
          = (Gate.decisions receive start rs).filter Prod.snd
      ∧ ∀ id, Gate.decisions receive start (rs.filter fun r => r.source = id)
          = (Gate.decisions receive start rs).filter fun d => d.1.source = id := by
  refine ⟨?_, ?_, ?_, gate_spec.decisions_accepted start rs, gate_spec.decisions_filter start rs⟩
  · intro id
    have hle : ∀ (n : Network) (r : Reading), (n.receive r).2 = true →
        n.lastTime r.source ≤ r.base := fun _ _ h => (receive_accepts h).1.2.2.2
    exact (gate_spec.sorted hle start rs id).2
  · intro id r hr
    exact young_of_mem_accepted start r (List.mem_of_mem_filter hr)
  · intro rs' r heq
    exact gate_spec.decide_congr start r heq

end Network

end DistributAr
