/-
# `DistributAr.TimeSync` — the clock offset and the two conversions

`TimeSync::calculate` estimates `time-server clock − host clock`, and every
packet passes through `toNetwork` on its way out and `toLocal` on its way in.

The estimate is right (`Exchange.diff_eq`): with equal delays in both
directions it is the true offset, up to the microsecond that truncation can
add.  The two conversions apply it with the wrong sign: `toNetwork` subtracts
`server − host` from a host time, so the result is the server's reading only
when the offset is zero.  They are inverse to one another on one host
(`toLocal_toNetwork`), which is why a single host never notices.
-/
import DistributAr.Base

namespace DistributAr

namespace TimeSync

/-- `TimeSync::toNetwork` -/
def toNetwork (delta : Int) (localTime : Int) : Int := localTime - microseconds delta

/-- `TimeSync::toLocal` -/
def toLocal (delta : Int) (networkTime : Int) : Int := networkTime + microseconds delta

@[simp] theorem toLocal_toNetwork (delta : Int) (t : Int) :
    toLocal delta (toNetwork delta t) = t := by
  simp only [toLocal, toNetwork, Int.sub_add_cancel]

theorem toNetwork_eq_self_iff (delta : Int) (t : Int) :
    toNetwork delta t = t ↔ delta = 0 := by
  simp only [toNetwork, microseconds]; omega

/-- The `trip` of `TimeSync::calculate`, in microseconds. -/
def trip (lastLocal t0 : Int) : Int := toMicroseconds (t0 - lastLocal)

/-- The `diff` of `TimeSync::calculate`: `(remoteUs - sent) - trip/2`. -/
def diff (lastLocal t0 : Int) (remoteUs : Int) : Int :=
  (remoteUs - toMicroseconds lastLocal) - (trip lastLocal t0).tdiv 2

/-- `TimeSync::calculate`: the new `delta`, a third of the way to `diff`. -/
def calculate (delta : Int) (lastLocal t0 : Int) (remoteUs : Int) : Int :=
  delta + (diff lastLocal t0 remoteUs - delta).tdiv 3

end TimeSync

/-- The timestamp `TimeServ::run` prints after `T`, in microseconds. -/
def TimeServ.timeUs (t : Int) : Int := toMicroseconds t

/-! ## One TIME exchange

All clocks read the time since the epoch, so no reading is negative. -/

/-- A TIME request sent at `lastLocal`, carried for `delay` in each direction,
answered by a server whose clock is `offset` microseconds ahead of the host's. -/
structure Exchange where
  lastLocal : Int
  delay : Int
  offset : Int
  lastLocal_nonneg : 0 ≤ lastLocal
  delay_nonneg : 0 ≤ delay
  served_nonneg : 0 ≤ lastLocal + delay + microseconds offset

namespace Exchange

/-- The server's clock when it answers. -/
def served (e : Exchange) : Int := e.lastLocal + e.delay + microseconds e.offset

/-- The host's clock when the reply arrives. -/
def received (e : Exchange) : Int := e.lastLocal + e.delay + e.delay

/-- What `TimeSync::calculate` computes from the exchange. -/
def diff (e : Exchange) : Int :=
  TimeSync.diff e.lastLocal e.received (TimeServ.timeUs e.served)

/-- Send time and delay together cross a whole microsecond: truncating the two
clock readings separately then adds one. -/
def Carries (e : Exchange) : Prop := 1000 ≤ e.lastLocal % 1000 + e.delay % 1000

instance (e : Exchange) : Decidable e.Carries := inferInstanceAs (Decidable (_ ≤ _))

theorem trip_half (e : Exchange) :
    (TimeSync.trip e.lastLocal e.received).tdiv 2 = e.delay / 1000 := by
  have hd := e.delay_nonneg
  have h : e.received - e.lastLocal = 2 * e.delay := by simp only [received]; omega
  rw [TimeSync.trip, h, toMicroseconds_of_nonneg (by omega),
    Int.tdiv_eq_ediv_of_nonneg (by omega)]
  omega

/-- The estimate is the true offset, one more if the exchange carries. -/
theorem diff_eq (e : Exchange) : e.diff = e.offset + if e.Carries then 1 else 0 := by
  have hl := e.lastLocal_nonneg
  have hd := e.delay_nonneg
  have hs := e.served_nonneg
  rw [diff, TimeSync.diff, trip_half, TimeServ.timeUs, served, toMicroseconds_of_nonneg hs,
    toMicroseconds_of_nonneg hl]
  simp only [microseconds]
  split
  case isTrue h => simp only [Carries] at h; omega
  case isFalse h => simp only [Carries] at h; omega

end Exchange

/-! ## Network time on two hosts -/

/-- What a host's clock reads when the time server's reads `s`. -/
def hostClock (offset : Int) (s : Int) : Int := s - microseconds offset

/-- At the instant `s` of the time server: a time converted on `A` and back on
`B` is what `B`'s clock reads, and between the two it is the server's reading. -/
def CommonTime (eA eB : Exchange) (s : Int) : Prop :=
  TimeSync.toLocal eB.diff (TimeSync.toNetwork eA.diff (hostClock eA.offset s))
      = hostClock eB.offset s
    ∧ TimeSync.toNetwork eA.diff (hostClock eA.offset s) = s

/-- Across hosts the conversions cancel only when the two estimates differ by as
much as the offsets do, with the opposite sign. -/
theorem toLocal_toNetwork_hosts (dA dB oA oB : Int) (s : Int) :
    TimeSync.toLocal dB (TimeSync.toNetwork dA (hostClock oA s)) = hostClock oB s
      ↔ dB - dA = oA - oB := by
  simp only [TimeSync.toLocal, TimeSync.toNetwork, hostClock, microseconds]
  omega

theorem toNetwork_hostClock (d o : Int) (s : Int) :
    TimeSync.toNetwork d (hostClock o s) = s ↔ d = -o := by
  simp only [TimeSync.toNetwork, hostClock, microseconds]
  omega

/-- Network time is common to two hosts exactly when neither clock is off and
neither estimate carries. -/
theorem commonTime_iff (eA eB : Exchange) (s : Int) :
    CommonTime eA eB s ↔ eA.offset = 0 ∧ eB.offset = 0 ∧ ¬ eA.Carries ∧ ¬ eB.Carries := by
  rw [CommonTime, toLocal_toNetwork_hosts, toNetwork_hostClock, eA.diff_eq, eB.diff_eq]
  by_cases hA : eA.Carries <;> by_cases hB : eB.Carries <;>
    simp only [hA, hB, if_true, if_false, not_true, not_false_iff, and_true, and_false,
      iff_false, not_and] <;> omega

/-- A host ten seconds behind the server and one on time: the times disagree. -/
theorem commonTime_fails :
    ¬ CommonTime ⟨0, 0, 10000000, by decide, by decide, by decide⟩
      ⟨0, 0, 0, by decide, by decide, by decide⟩ (seconds 20) := by
  intro h
  exact absurd h.2 (by decide)

end DistributAr
