/-
# `DistributAr.Offset` — the offset filter over many samples

`TimeSync::calculate` does not take a sample for the offset; it goes a third of
the way there.  Whatever the noise, as long as the samples lie in an interval the
offset comes within two microseconds of it and does not overshoot
(`offset_converges`).
-/
import DistributAr.Lib.Approach
import DistributAr.TimeSync

namespace DistributAr

open Lib

namespace TimeSync

/-- What one call of `TimeSync::calculate` works on besides `delta`. -/
structure Sample where
  lastLocal : Int
  t0 : Int
  remoteUs : Int

/-- The `diff` of the call. -/
def Sample.diff (c : Sample) : Int := TimeSync.diff c.lastLocal c.t0 c.remoteUs

/-- `delta` after some calls. -/
def calculates (delta : Int) (cs : List Sample) : Int :=
  cs.foldl (fun delta c => calculate delta c.lastLocal c.t0 c.remoteUs) delta

/-- A call goes a third of the way to its `diff`. -/
theorem calculate_eq_move (delta : Int) (c : Sample) :
    calculate delta c.lastLocal c.t0 c.remoteUs = Approach.move 3 delta c.diff := rfl

theorem calculates_eq_moves (delta : Int) (cs : List Sample) :
    calculates delta cs = Approach.moves 3 delta (cs.map Sample.diff) := by
  rw [Approach.moves, List.foldl_map]
  rfl

/-- The filter on samples with a `diff` from `L` to `U`: the offset stays in the
hull of its first value and the interval, each call takes a third off its distance
to the interval, and from call `gap - 2` on the distance is two at most. -/
theorem offset_converges (L U delta : Int) (cs : List Sample)
    (hdiff : ∀ c ∈ cs, L ≤ c.diff ∧ c.diff ≤ U) :
    (∀ before, before <+: cs →
      min delta L ≤ calculates delta before ∧ calculates delta before ≤ max delta U)
      ∧ (∀ before c, before ++ [c] <+: cs →
        Approach.gap L U (calculates delta (before ++ [c]))
          ≤ Approach.gap L U (calculates delta before)
            - Approach.gap L U (calculates delta before) / 3)
      ∧ ∀ before, before <+: cs → Approach.gap L U delta - 2 ≤ before.length →
        Approach.gap L U (calculates delta before) ≤ 2 := by
  have hbefore : ∀ before, before <+: cs →
      ∀ y ∈ before.map Sample.diff, L ≤ y ∧ y ≤ U := by
    intro before hpre y hy
    obtain ⟨c, hc, rfl⟩ := List.mem_map.mp hy
    exact hdiff c (hpre.subset hc)
  refine ⟨?_, ?_, ?_⟩
  · intro before hpre
    rw [calculates_eq_moves]
    exact Approach.moves_hull (hbefore before hpre)
  · intro before c hpre
    obtain ⟨hlo, hhi⟩ := hdiff c (hpre.subset (by simp))
    rw [calculates_eq_moves, List.map_append, List.map_singleton, Approach.moves_concat,
      ← calculates_eq_moves]
    exact Approach.gap_move (by decide) hlo hhi
  · intro before hpre hlong
    have hgap := Approach.gap_moves (k := 3) (x := delta) (by decide) (hbefore before hpre)
    rw [List.length_map, ← calculates_eq_moves] at hgap
    omega

/-- Two samples, at 10 and at 12 microseconds, with an offset of 100. -/
theorem offset_converges_twoSamples :
    let cs : List Sample := [⟨0, 0, 10⟩, ⟨0, 0, 12⟩]
    (∀ before, before <+: cs →
      min 100 10 ≤ calculates 100 before ∧ calculates 100 before ≤ max 100 12)
      ∧ (∀ before c, before ++ [c] <+: cs →
        Approach.gap 10 12 (calculates 100 (before ++ [c]))
          ≤ Approach.gap 10 12 (calculates 100 before)
            - Approach.gap 10 12 (calculates 100 before) / 3)
      ∧ ∀ before, before <+: cs → Approach.gap 10 12 100 - 2 ≤ before.length →
        Approach.gap 10 12 (calculates 100 before) ≤ 2 :=
  offset_converges 10 12 100 [⟨0, 0, 10⟩, ⟨0, 0, 12⟩] (by decide)

end TimeSync

end DistributAr
