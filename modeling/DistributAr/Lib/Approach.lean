/-
# `DistributAr.Lib.Approach` — a value that goes part of the way to its target

A filter keeps one integer and moves it, with every sample, a `k`-th of the way
to the sample.  The division truncates toward zero, so the last steps are not
made: within `k - 1` of its target the value may rest.

The samples of a noisy source differ, but lie in an interval.  Measured by its
distance `gap` to the interval, the value gets closer with every step, never
leaves the hull of where it started and the interval, and after `gap` steps it is
as close as it gets.

    gap before        gap after
    g                 at most g - g / k
-/
import Mathlib.Data.List.Basic
import Mathlib.Tactic.Ring

namespace DistributAr.Lib

namespace Approach

/-- The distance of `x` to the interval from `L` to `U`. -/
def gap (L U x : Int) : Nat := (L - x).toNat + (x - U).toNat

/-- A `k`-th of the way from `x` to `y`. -/
def move (k : Nat) (x y : Int) : Int := x + (y - x).tdiv k

/-- One move after another. -/
def moves (k : Nat) (x : Int) (ys : List Int) : Int := ys.foldl (move k) x

variable {k : Nat} {L U x y : Int} {ys : List Int}

theorem moves_concat : moves k x (ys ++ [y]) = move k (moves k x ys) y := by
  rw [moves, List.foldl_append]
  rfl

/-! ## One move -/

/-- Upward, with the size of the step. -/
theorem move_up (h : x ≤ y) : move k x y = x + (y - x) / k := by
  rw [move, Int.tdiv_eq_ediv_of_nonneg (Int.sub_nonneg_of_le h)]

theorem move_down (h : y ≤ x) : move k x y = x - (x - y) / k := by
  have hneg : y - x = -(x - y) := (Int.neg_sub x y).symm
  rw [move, hneg, Int.neg_tdiv, Int.tdiv_eq_ediv_of_nonneg (Int.sub_nonneg_of_le h)]
  omega

/-- A `k`-th of a distance is a part of it. -/
theorem div_bounds {d : Int} (h : 0 ≤ d) : 0 ≤ d / k ∧ d / k ≤ d :=
  ⟨Int.ediv_nonneg h (Int.natCast_nonneg k), Int.ediv_le_self _ h⟩

/-- A move does not leave the way to its target. -/
theorem move_between : min x y ≤ move k x y ∧ move k x y ≤ max x y := by
  rcases Int.le_total x y with hup | hdown
  · obtain ⟨hlo, hhi⟩ := div_bounds (k := k) (Int.sub_nonneg_of_le hup)
    rw [move_up hup]
    omega
  · obtain ⟨hlo, hhi⟩ := div_bounds (k := k) (Int.sub_nonneg_of_le hdown)
    rw [move_down hdown]
    omega

/-- The value rests within `k - 1` of its target. -/
theorem move_eq_self_iff (hk : 0 < k) : move k x y = x ↔ -(k : Int) < y - x ∧ y - x < k := by
  have hk : (0 : Int) < k := Int.natCast_pos.mpr hk
  have hsmall : ∀ d : Int, d / k < 1 ↔ d < k := by
    intro d
    rw [Int.ediv_lt_iff_lt_mul hk, Int.one_mul]
  rcases Int.le_total x y with hup | hdown
  · obtain ⟨hlo, -⟩ := div_bounds (k := k) (Int.sub_nonneg_of_le hup)
    have hstep := hsmall (y - x)
    rw [move_up hup]
    omega
  · obtain ⟨hlo, -⟩ := div_bounds (k := k) (Int.sub_nonneg_of_le hdown)
    have hstep := hsmall (x - y)
    rw [move_down hdown]
    omega

/-- Whoever is further away takes the longer step. -/
theorem div_mono (hk : 0 < k) {d e : Int} (h : d ≤ e) : d / k ≤ e / k :=
  Int.ediv_le_ediv (Int.natCast_pos.mpr hk) h

/-- The distance shrinks by a `k`-th of itself, wherever in the interval the
sample lies. -/
theorem gap_move (hk : 0 < k) (hlo : L ≤ y) (hhi : y ≤ U) :
    gap L U (move k x y) ≤ gap L U x - gap L U x / k := by
  obtain ⟨hmin, hmax⟩ := move_between (k := k) (x := x) (y := y)
  rcases Int.lt_or_le x L with hbelow | hbelow
  · -- the sample is above `x`, and the step is at least a `k`-th of the distance
    have hgap : gap L U x = (L - x).toNat := by
      rw [gap]
      omega
    have hstep : ((gap L U x / k : Nat) : Int) ≤ (y - x) / k := by
      rw [hgap, Int.natCast_ediv, Int.toNat_of_nonneg (by omega)]
      exact div_mono hk (by omega)
    have hafter : gap L U (move k x y) = (L - move k x y).toNat := by
      rw [gap]
      omega
    have hmove := move_up (k := k) (show x ≤ y by omega)
    rw [hafter]
    omega
  rcases Int.lt_or_le U x with habove | habove
  · have hgap : gap L U x = (x - U).toNat := by
      rw [gap]
      omega
    have hstep : ((gap L U x / k : Nat) : Int) ≤ (x - y) / k := by
      rw [hgap, Int.natCast_ediv, Int.toNat_of_nonneg (by omega)]
      exact div_mono hk (by omega)
    have hafter : gap L U (move k x y) = (move k x y - U).toNat := by
      rw [gap]
      omega
    have hmove := move_down (k := k) (show y ≤ x by omega)
    rw [hafter]
    omega
  · have hinside : gap L U (move k x y) = 0 := by
      rw [gap]
      omega
    rw [hinside]
    exact Nat.zero_le _

/-! ## A run of moves -/

/-- The value stays between where it started and the interval. -/
theorem moves_hull (hys : ∀ y ∈ ys, L ≤ y ∧ y ≤ U) :
    min x L ≤ moves k x ys ∧ moves k x ys ≤ max x U := by
  induction ys generalizing x with
  | nil => exact ⟨Int.min_le_left x L, Int.le_max_left x U⟩
  | cons y ys ih =>
      obtain ⟨hy, hrest⟩ := List.forall_mem_cons.mp hys
      obtain ⟨hmin, hmax⟩ := move_between (k := k) (x := x) (y := y)
      have hrun : moves k x (y :: ys) = moves k (move k x y) ys := rfl
      obtain ⟨hlo, hhi⟩ := ih (x := move k x y) hrest
      rw [hrun]
      omega

/-- Every move brings the value nearer by one at least, until it is within
`k - 1`. -/
theorem gap_moves (hk : 0 < k) (hys : ∀ y ∈ ys, L ≤ y ∧ y ≤ U) :
    gap L U (moves k x ys) ≤ max (k - 1) (gap L U x - ys.length) := by
  induction ys generalizing x with
  | nil => exact Nat.le_max_right _ _
  | cons y ys ih =>
      obtain ⟨⟨hlo, hhi⟩, hrest⟩ := List.forall_mem_cons.mp hys
      have hone := gap_move hk (x := x) hlo hhi
      have hle : gap L U (move k x y) ≤ gap L U x := Nat.le_trans hone (Nat.sub_le _ _)
      have hrun : moves k x (y :: ys) = moves k (move k x y) ys := rfl
      have hrest := ih (x := move k x y) hrest
      rw [hrun, List.length_cons]
      by_cases hfar : k ≤ gap L U x
      · have hpos : 1 ≤ gap L U x / k := (Nat.one_le_div_iff hk).mpr hfar
        omega
      · omega

/-- What is left of the distance, beyond the `k - 1` that always may be, shrinks by a
`k`-th with every move. -/
theorem gap_geometric (hk : 0 < k) (hys : ∀ y ∈ ys, L ≤ y ∧ y ≤ U) :
    k ^ ys.length * (gap L U (moves k x ys) - (k - 1))
      ≤ (k - 1) ^ ys.length * (gap L U x - (k - 1)) := by
  induction ys generalizing x with
  | nil => exact Nat.le_refl _
  | cons y ys ih =>
      obtain ⟨⟨hlo, hhi⟩, hrest⟩ := List.forall_mem_cons.mp hys
      have hone := gap_move hk (x := x) hlo hhi
      obtain ⟨j, rfl⟩ : ∃ j, k = j + 1 := ⟨k - 1, by omega⟩
      have hstep : (j + 1) * (gap L U (move (j + 1) x y) - j) ≤ j * (gap L U x - j) := by
        have hdiv := Nat.div_add_mod (gap L U x) (j + 1)
        have hmod := Nat.mod_lt (gap L U x) hk
        rw [Nat.mul_sub, Nat.mul_sub]
        have hmul := Nat.mul_le_mul_left (j + 1) hone
        rw [Nat.mul_sub] at hmul
        simp only [Nat.add_mul, Nat.one_mul] at hmul hdiv ⊢
        omega
      calc (j + 1) ^ (ys.length + 1) * (gap L U (moves (j + 1) (move (j + 1) x y) ys) - j)
          = (j + 1) * ((j + 1) ^ ys.length
              * (gap L U (moves (j + 1) (move (j + 1) x y) ys) - j)) := by ring
        _ ≤ (j + 1) * (j ^ ys.length * (gap L U (move (j + 1) x y) - j)) :=
            Nat.mul_le_mul_left _ (ih hrest)
        _ = j ^ ys.length * ((j + 1) * (gap L U (move (j + 1) x y) - j)) := by ring
        _ ≤ j ^ ys.length * (j * (gap L U x - j)) := Nat.mul_le_mul_left _ hstep
        _ = j ^ (ys.length + 1) * (gap L U x - j) := by ring

/-- After so many moves nothing is left of it. -/
theorem moves_near (hk : 0 < k) (hys : ∀ y ∈ ys, L ≤ y ∧ y ≤ U)
    (hlong : (k - 1) ^ ys.length * (gap L U x - (k - 1)) < k ^ ys.length) :
    gap L U (moves k x ys) ≤ k - 1 := by
  by_contra hfar
  have hle : k ^ ys.length ≤ (k - 1) ^ ys.length * (gap L U x - (k - 1)) :=
    calc k ^ ys.length
        ≤ k ^ ys.length * (gap L U (moves k x ys) - (k - 1)) :=
          Nat.le_mul_of_pos_right _ (by omega)
      _ ≤ (k - 1) ^ ys.length * (gap L U x - (k - 1)) := gap_geometric hk hys
  exact absurd hle (Nat.not_le.mpr hlong)

end Approach

end DistributAr.Lib
