/-
# `DistributAr.ModLess` — the order of numbers that wrap around

`modLess(a, b, mod)` of `misc.h` is to say whether `b` comes after `a` when both
count modulo `mod`: `b = (a + x) % mod` for a small `x`.  It goes by the halves
the two numbers lie in:

    a        b        the code compares    in serial order
    lower    lower    a < b                the same
    upper    upper    a < b                the same
    lower    upper    a + half < b         b - a < half
    upper    lower    b + half < a         the same

The third row has its comparison the wrong way round, so that from the lower
half to the upper one near numbers come out unordered, and far ones ordered both
ways (`serial_iff`).
-/
import DistributAr.Base
import Mathlib.Data.Int.Order.Basic

namespace DistributAr

/-- `modLess(a, b, mod)`; the division is that of C++. -/
def modLess (a b mod : Int) : Bool :=
  let half := mod.tdiv 2
  if a < half then
    if b < half then a < b else a + half < b -- last case:  0----a-----HALF-----b----mod
  else
    if b ≥ half then a < b else b + half < a -- last case:  0----b-----HALF-----a----mod

namespace ModLess

/-- `b` is ahead of `a`, by less than half of the modulus. -/
def Ahead (mod a b : Int) : Prop := ∃ x, 0 < x ∧ x < mod / 2 ∧ b = (a + x) % mod

/-- `modLess` is right about `a` and `b`: it says `true` for a number ahead, not
for one behind, and never orders two numbers both ways. -/
def Serial (mod a b : Int) : Prop :=
  (Ahead mod a b → modLess a b mod = true ∧ modLess b a mod = false) ∧
    ¬ (modLess a b mod = true ∧ modLess b a mod = true)

/-- The numbers lie in one half, or on both sides of the middle with no more than
half of the modulus between them: exactly so much where `a` is the lower one. -/
def Agrees (mod a b : Int) : Prop :=
  (a < mod / 2 ↔ b < mod / 2) ∨
    (a < mod / 2 ∧ mod / 2 ≤ b ∧ b - a = mod / 2) ∨
    (b < mod / 2 ∧ mod / 2 ≤ a ∧ a - b ≤ mod / 2)

variable {mod a b : Int}

theorem half_eq (hmod : 0 ≤ mod) : mod.tdiv 2 = mod / 2 := Int.tdiv_eq_ediv_of_nonneg hmod

/-! ## The four rows of the table -/

theorem modLess_lower (hmod : 0 ≤ mod) (ha : a < mod / 2) (hb : b < mod / 2) :
    modLess a b mod = true ↔ a < b := by
  simp only [modLess, half_eq hmod, if_pos ha, if_pos hb, decide_eq_true_eq]

theorem modLess_upper (hmod : 0 ≤ mod) (ha : mod / 2 ≤ a) (hb : mod / 2 ≤ b) :
    modLess a b mod = true ↔ a < b := by
  simp only [modLess, half_eq hmod, if_neg (Int.not_lt.mpr ha), ge_iff_le, if_pos hb,
    decide_eq_true_eq]

theorem modLess_rising (hmod : 0 ≤ mod) (ha : a < mod / 2) (hb : mod / 2 ≤ b) :
    modLess a b mod = true ↔ a + mod / 2 < b := by
  simp only [modLess, half_eq hmod, if_pos ha, if_neg (Int.not_lt.mpr hb), decide_eq_true_eq]

theorem modLess_falling (hmod : 0 ≤ mod) (ha : mod / 2 ≤ a) (hb : b < mod / 2) :
    modLess a b mod = true ↔ b + mod / 2 < a := by
  simp only [modLess, half_eq hmod, if_neg (Int.not_lt.mpr ha), ge_iff_le,
    if_neg (Int.not_le.mpr hb), decide_eq_true_eq]

/-- From one half to the other the two directions are the same comparison. -/
theorem modLess_swap (hmod : 0 ≤ mod) (ha : a < mod / 2) (hb : mod / 2 ≤ b) :
    modLess a b mod = modLess b a mod := by
  rw [Bool.eq_iff_iff, modLess_rising hmod ha hb, modLess_falling hmod hb ha]

/-! ## Being ahead, without the remainder -/

/-- A number ahead is less than half of the modulus above, or has wrapped around
and is more than that below. -/
theorem ahead_iff (ha : 0 ≤ a) (ha' : a < mod) (hb : 0 ≤ b) (hb' : b < mod) :
    Ahead mod a b ↔ (0 < b - a ∧ b - a < mod / 2) ∨ (b < a ∧ mod - (a - b) < mod / 2) := by
  constructor
  · rintro ⟨x, hpos, hlt, hx⟩
    by_cases hwrap : a + x < mod
    · rw [Int.emod_eq_of_lt (by omega) hwrap] at hx
      left
      omega
    · have hback : (a + x) % mod = a + x - mod := by
        rw [← Int.sub_emod_right, Int.emod_eq_of_lt (by omega) (by omega)]
      right
      omega
  · rintro (⟨hpos, hlt⟩ | ⟨hlow, hlt⟩)
    · refine ⟨b - a, hpos, hlt, ?_⟩
      rw [Int.emod_eq_of_lt (by omega) (by omega)]
      omega
    · refine ⟨mod - (a - b), by omega, hlt, ?_⟩
      rw [← Int.sub_emod_right, Int.emod_eq_of_lt (by omega) (by omega)]
      omega

/-! ## Where the order is right -/

/-- Within a half the order is that of the numbers. -/
theorem serial_of_less (hab : modLess a b mod = true ↔ a < b) (hba : modLess b a mod = true ↔ b < a)
    (hahead : Ahead mod a b → a < b) : Serial mod a b := by
  refine ⟨fun h => ⟨hab.mpr (hahead h), ?_⟩, ?_⟩
  · rw [← Bool.not_eq_true, hba]
    exact Int.not_lt.mpr (Int.le_of_lt (hahead h))
  · rw [hab, hba]
    exact fun ⟨h, h'⟩ => Int.lt_asymm h h'

/-- From one half to the other both directions give one answer, so that it can
only be `false`, and nothing may be ahead. -/
theorem serial_of_swap (h : modLess a b mod = modLess b a mod) :
    Serial mod a b ↔ ¬ Ahead mod a b ∧ modLess a b mod = false := by
  rw [Serial, ← h, and_self]
  cases modLess a b mod
  · simp only [Bool.false_eq_true, imp_false, not_false_eq_true, and_true]
  · simp only [Bool.true_eq_false, and_false, not_true_eq_false]

/-- `modLess` is serial-number order exactly on the numbers of one half and on
those of two halves that are no more than half of the modulus apart, exactly
half of it where the first is the lower one. -/
theorem serial_iff (hmod : 2 ≤ mod) (ha : 0 ≤ a) (ha' : a < mod) (hb : 0 ≤ b) (hb' : b < mod) :
    Serial mod a b ↔ Agrees mod a b := by
  have hpos : 0 ≤ mod := by omega
  have hahead := ahead_iff ha ha' hb hb'
  rw [Agrees]
  rcases lt_or_ge a (mod / 2) with hla | hua <;> rcases lt_or_ge b (mod / 2) with hlb | hub
  · have hone : (a < mod / 2 ↔ b < mod / 2) := iff_of_true hla hlb
    refine iff_of_true ?_ (.inl hone)
    refine serial_of_less (modLess_lower hpos hla hlb) (modLess_lower hpos hlb hla) fun h => ?_
    have := hahead.mp h
    omega
  · rw [serial_of_swap (modLess_swap hpos hla hub), hahead, ← Bool.not_eq_true,
      modLess_rising hpos hla hub]
    omega
  · rw [serial_of_swap (modLess_swap hpos hlb hua).symm, hahead, ← Bool.not_eq_true,
      modLess_falling hpos hua hlb]
    omega
  · have hone : (a < mod / 2 ↔ b < mod / 2) := iff_of_false (by omega) (by omega)
    refine iff_of_true ?_ (.inl hone)
    refine serial_of_less (modLess_upper hpos hua hub) (modLess_upper hpos hub hua) fun h => ?_
    have := hahead.mp h
    omega

/-- The numbers 4 and 5 modulo 10. -/
theorem serial_iff_four_five : Serial 10 4 5 ↔ Agrees 10 4 5 :=
  serial_iff (by decide) (by decide) (by decide) (by decide) (by decide)

/-- Modulo 10, 5 is next after 4, and `modLess` says it is not after it; 0 and 9 it
has each before the other. -/
theorem not_serial_four_five : ¬ Serial 10 4 5 ∧ ¬ Serial 10 0 9 := by
  have hnext : Ahead 10 4 5 := ⟨1, by decide, by decide, by decide⟩
  refine ⟨fun h => ?_, fun h => h.2 ⟨by decide, by decide⟩⟩
  have htrue : modLess 4 5 10 = true := (h.1 hnext).1
  exact absurd htrue (by decide)

end ModLess

end DistributAr
