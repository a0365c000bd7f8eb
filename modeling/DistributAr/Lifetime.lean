/-
# `DistributAr.Lifetime` — how long a packet lives between two hosts

`readVerify` drops a packet that is older than `PACKET_LIFE_TIME_MS`.  The age it
looks at is not the true one: the base time went to network time with the offset of
the sender, and came back with that of the listener, and both conversions have the
wrong sign.  So once the clocks of both hosts have settled, it is off by twice the
difference of the offsets.

| clock of the listener        | life time of a packet          |
|------------------------------|--------------------------------|
| as that of the sender        | 20 ms                          |
| `d` behind                   | 20 ms and `2 * d`              |
| `d` ahead                    | `2 * d` short of 20 ms         |
| more than 10 ms ahead        | none: all are dropped          |

All of this with a slack for what the offsets are off (`life_between`).
-/
import DistributAr.Convergence
import DistributAr.Lan

namespace DistributAr

open Lib

/-- A host whose clock is `o` microseconds behind that of the time server, on a
prompt network, after so many answers that its offset has settled. -/
def SyncWorld.Settled (g : TimeSync.Locals) (o asked answered : Int) (w : SyncWorld) : Prop :=
  ∃ trackerAddr clock events, Run.after (step g o) (start trackerAddr clock) events = some w
    ∧ Run.Each (step g o) (Prompt o asked answered) (start trackerAddr clock) events
    ∧ 2 ^ arrivals events * o.natAbs < 3 ^ arrivals events

/-- The time that has gone by since a time of the sender, when its clock and that of
the listener are so much behind the time server's. -/
def Receipt.age (x : Receipt) (oA oB t : Int) : Int :=
  (x.now + microseconds oB) - (t + microseconds oA)

variable {g : TimeSync.Locals} {o oA oB : Int} {asked answered : Nat} {w wA wB : SyncWorld}
  {x : Receipt}

theorem SyncWorld.Settled.delta (h : w.Settled g o asked answered)
    (hminute : (asked : Int) + answered ≤ 1000000 * syncInterval) :
    o - answered / 2 - 2 ≤ w.sync.delta ∧ w.sync.delta ≤ o + (asked + 1) / 2 + 2 := by
  obtain ⟨trackerAddr, clock, events, hrun, hprompt, hlong⟩ := h
  obtain ⟨ys, hlength, hgood, hmoved⟩ :=
    (current_start trackerAddr clock).run hminute hprompt hrun
  rw [hmoved]
  exact moves_settled hgood (hlength.symm ▸ hlong)

/-- What a time of the sender is off on the listener's clock. -/
theorem Receipt.onClock_off (hminute : (asked : Int) + answered ≤ 1000000 * syncInterval)
    (hA : wA.Settled g oA asked answered) (hB : wB.Settled g oB asked answered)
    (hsent : x.flush.call.delta = wA.sync.delta) (hread : x.delta = wB.sync.delta) (t : Int) :
    let off := x.onClock t - (t + microseconds (oA - oB)) - microseconds (2 * (oB - oA))
    let slack := microseconds (answered / 2 + (asked + 1) / 2 + 4)
    0 ≤ off + slack ∧ off ≤ slack := by
  intro off slack
  obtain ⟨hloA, hhiA⟩ := hA.delta hminute
  obtain ⟨hloB, hhiB⟩ := hB.delta hminute
  simp only [off, slack, onClock, TimeSync.toLocal, TimeSync.toNetwork, hsent, hread, microseconds]
  omega

namespace Lan

variable {σ ρ : Type*} [DecidableEq σ] [DecidableEq ρ] {C : Journal → Call → Prop}

/-- Between two hosts whose clocks have settled: the times of the impulses that are
heard, and the life time of the packet, are off by twice the difference of the
offsets, as far as the offsets are right. -/
theorem life_between (l : Lan σ ρ) (hl : (system C).Reachable l) (h : ρ) (x : Receipt)
    (hx : x ∈ l.heard h) (g : TimeSync.Locals) (oA oB : Int) (asked answered : Nat)
    (wA wB : SyncWorld) (hminute : (asked : Int) + answered ≤ 1000000 * syncInterval)
    (hA : wA.Settled g oA asked answered) (hB : wB.Settled g oB asked answered)
    (hsent : x.flush.call.delta = wA.sync.delta) (hread : x.delta = wB.sync.delta) :
    let skew := microseconds (2 * (oB - oA))
    let slack := microseconds (answered / 2 + (asked + 1) / 2 + 4)
    let age := x.age oA oB x.flush.localTime
    let life := milliseconds packetLifeTimeMs + skew
    (∀ i < x.buffer.count, x.Arrived i → ∃ t t' node,
        (x.flush.before.based x.flush.call.time).read i = some (t, node)
          ∧ x.buffer.read i = some (t', node)
          ∧ 0 ≤ t' - (t + microseconds (oA - oB)) - skew + slack
          ∧ t' - (t + microseconds (oA - oB)) - skew ≤ slack)
      ∧ (x ∈ l.accepted h → age ≤ life + slack)
      ∧ (∀ n : Network, (n.readVerify x.delta x.now x.reading.ret x.packet).1 = .tooOld →
          life - slack < age)
      ∧ (0 ≤ age → life + slack < 0 → x ∉ l.accepted h) := by
  intro skew slack age life
  obtain ⟨k, hk⟩ := heard_sent hl h x hx
  have hproper := (kept_proper C).reachable hl k
  have hwf := hproper.faithful.wf.sent _ hk
  have hfits := hproper.fits _ hk
  have hoff : ∀ t, 0 ≤ x.onClock t - (t + microseconds (oA - oB)) - skew + slack
      ∧ x.onClock t - (t + microseconds (oA - oB)) - skew ≤ slack :=
    Receipt.onClock_off hminute hA hB hsent hread
  -- the age that `readVerify` sees
  have hage : x.now - x.buffer.time
      = age - (x.onClock x.flush.localTime - (x.flush.localTime + microseconds (oA - oB))) := by
    rw [Receipt.buffer_time hwf hfits]
    simp only [age, Receipt.age, microseconds]
    omega
  obtain ⟨hlo, hhi⟩ := hoff x.flush.localTime
  have hold : x ∈ l.accepted h → age ≤ life + slack := by
    intro haccepted
    have hyoung := accepted_young haccepted
    simp only [life]
    omega
  refine ⟨?_, hold, ?_, ?_⟩
  · intro i hi harrived
    rw [Receipt.buffer_count hwf] at hi
    have hbefore : i < x.flush.before.count := hwf.packet_count ▸ hi
    obtain ⟨⟨t, node⟩, he⟩ := Receipt.exists_read (b := x.flush.before.based x.flush.call.time)
      (Nat.lt_of_lt_of_le hbefore hwf.count_le)
    refine ⟨t, x.onClock t, node, he, ?_, hoff t⟩
    rw [Receipt.buffer_read hwf hfits harrived, he]
    rfl
  · intro n htooOld
    obtain ⟨-, -, hlate⟩ := (Network.readVerify_tooOld_iff n _ _ _ _).mp htooOld
    have hbase : x.buffer.time + milliseconds packetLifeTimeMs < x.now := hlate
    simp only [life]
    omega
  · intro hpast hnone haccepted
    exact absurd (hold haccepted) (by omega)

/-- Two hosts on time, and the packet of the run above. -/
theorem life_between_heard : ∃ l : Lan Unit Unit, (system Journal.Survives).Reachable l
    ∧ ∃ x ∈ l.accepted (), x.age 0 0 x.flush.localTime
      ≤ milliseconds packetLifeTimeMs + microseconds 0 + microseconds 14 := by
  obtain ⟨l, hl, x, hx, -, -, hsent, hread, -⟩ := impulse_heard
  have hsettled : (SyncWorld.start ⟨9, 1⟩ 0).Settled ⟨0, 0, 0, 0⟩ 0 10 10 :=
    ⟨⟨9, 1⟩, 0, [], rfl, Run.each_nil, by decide⟩
  obtain ⟨-, hold, -⟩ := life_between l hl () x (Gate.accepted_subset _ _ hx) ⟨0, 0, 0, 0⟩ 0 0
    10 10 _ _ (by decide) hsettled hsettled hsent hread
  exact ⟨l, hl, x, hx, hold hx⟩

end Lan

end DistributAr
