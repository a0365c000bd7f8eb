/-
# `DistributAr.Lib.Ring` — positions on a ring

A ring of `size` slots numbers what passes through it 0, 1, 2, …; number `k` goes
into slot `k % size`.  Within any window of at most `size` numbers no two share
a slot, which is all that a ring buffer relies on.
-/
import Mathlib.Data.Nat.ModEq

namespace DistributAr.Lib.Ring

variable {size : Nat} [NeZero size]

/-- The slot of the number `k`. -/
def slot (size : Nat) [NeZero size] (k : Nat) : Fin size := Fin.ofNat size k

/-- The slot after a slot. -/
def next (i : Fin size) : Fin size := Fin.ofNat size (i.val + 1)

theorem next_slot (k : Nat) : next (slot size k) = slot size (k + 1) := by
  refine Fin.ext ?_
  show (k % size + 1) % size = (k + 1) % size
  rw [Nat.mod_add_mod]

/-- In a window of fewer than `size` steps a slot is met once. -/
theorem slot_inj {j k : Nat} (hle : j ≤ k) (hlt : k < j + size)
    (h : slot size j = slot size k) : j = k := by
  have hmod : j % size = k % size := congrArg Fin.val h
  have hdvd := (Nat.modEq_iff_dvd' hle).mp hmod
  have hzero := Nat.eq_zero_of_dvd_of_lt hdvd (by omega)
  omega

end DistributAr.Lib.Ring
