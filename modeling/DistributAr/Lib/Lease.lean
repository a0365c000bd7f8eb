/-
# `DistributAr.Lib.Lease` — one holder per key, one key per holder

A lease table gives keys to holders and knows when each lease was registered.

* `register k a t` gives `k` to `a`: whoever held `k` loses it, and so does `a`
  whatever else it held.
* `release k` takes `k` from whoever holds it.

A history is a list of these operations, the newest first, and `table` is the
table it leaves.  The table can be read off the history in two ways.
`table_eq_some_iff` is exact: the last operation that concerns `k` or `a` is a
registration of `k` by `a`.  `table_iff_of_live` looks at registrations only and
is true of leases that have not expired, provided that only expired ones are
released.
-/
import Mathlib.Data.List.Basic

namespace DistributAr.Lib

variable {K A T : Type*} [DecidableEq K] [DecidableEq A]

namespace Lease

/-- An operation on a lease table. -/
inductive Op (K A T : Type*) where
  | register (k : K) (a : A) (t : T)
  | release (k : K)

/-- What an operation makes of a table. -/
def Op.apply : Op K A T → (K → Option (A × T)) → K → Option (A × T)
  | .register k a t, f => fun j =>
      if j = k then some (a, t) else if (f j).map Prod.fst = some a then none else f j
  | .release k, f => fun j => if j = k then none else f j

/-- The table after a history. -/
def table : List (Op K A T) → K → Option (A × T)
  | [] => fun _ => none
  | op :: h => op.apply (table h)

/-- No holder has two keys. -/
def Exclusive (f : K → Option (A × T)) : Prop :=
  ∀ ⦃j k a t u⦄, f j = some (a, t) → f k = some (a, u) → j = k

theorem Op.exclusive_apply {f : K → Option (A × T)} (hf : Exclusive f) (op : Op K A T) :
    Exclusive (op.apply f) := by
  intro i j a t u hi hj
  cases op with
  | register k b s =>
      simp only [Op.apply] at hi hj
      split at hi <;> split at hj
      · rename_i hik hjk
        exact hik.trans hjk.symm
      · split at hj
        · exact absurd hj (by simp)
        · rename_i hne
          cases hi
          exact absurd (by rw [hj]; rfl) hne
      · split at hi
        · exact absurd hi (by simp)
        · rename_i hne
          cases hj
          exact absurd (by rw [hi]; rfl) hne
      · split at hi
        · exact absurd hi (by simp)
        · split at hj
          · exact absurd hj (by simp)
          · exact hf hi hj
  | release k =>
      simp only [Op.apply] at hi hj
      split at hi
      · exact absurd hi (by simp)
      · split at hj
        · exact absurd hj (by simp)
        · exact hf hi hj

theorem exclusive_table (h : List (Op K A T)) : Exclusive (table h) := by
  induction h with
  | nil => exact fun _ _ _ _ _ hi => absurd hi (by simp [table])
  | cons op h ih => exact op.exclusive_apply ih

/-- Whether an operation takes `k` from `a`, should `a` hold it. -/
def Op.ends (k : K) (a : A) : Op K A T → Bool
  | .register j b _ => (j = k && b ≠ a) || (j ≠ k && b = a)
  | .release j => j = k

/-- `a` holds `k` after an operation that gave it `k`, or as long as none took it
away. -/
theorem Op.held_apply {f : K → Option (A × T)} {op : Op K A T} {k : K} {a : A} :
    (∃ t, op.apply f k = some (a, t)) ↔
      (∃ t, op = .register k a t) ∨ ((∃ t, f k = some (a, t)) ∧ op.ends k a = false) := by
  cases op with
  | register j b s =>
      by_cases hj : j = k
      · subst hj
        by_cases hb : b = a
        · simp [Op.apply, Op.ends, hb]
        · simp [Op.apply, Op.ends, hb]
      · have hne : ¬ k = j := fun h => hj h.symm
        by_cases hb : b = a
        · subst hb
          simp only [Op.apply, if_neg hne]
          constructor
          · rintro ⟨t, ht⟩
            split at ht
            · cases ht
            · rename_i hnot
              exact absurd (by rw [ht]; rfl) hnot
          · simp [Op.ends, hj]
        · simp only [Op.apply, if_neg hne, Op.ends, hj, hb]
          constructor
          · rintro ⟨t, ht⟩
            split at ht
            · cases ht
            · exact .inr ⟨⟨t, ht⟩, by simp⟩
          · rintro (⟨t, ht⟩ | ⟨⟨t, ht⟩, -⟩)
            · cases ht
              exact absurd rfl hj
            · refine ⟨t, ?_⟩
              rw [ht]
              exact if_neg fun heq => hb (Option.some.inj heq).symm
  | release j =>
      by_cases hj : j = k
      · simp [Op.apply, Op.ends, hj]
      · have hne : ¬ k = j := fun h => hj h.symm
        simp [Op.apply, Op.ends, hj, hne]

/-! ## The table as the last operation of the history -/

/-- Whether an operation says something about `k` or about `a`. -/
def Op.concerns (k : K) (a : A) : Op K A T → Bool
  | .register j b _ => j = k || b = a
  | .release j => j = k

/-- `a` holds `k` when the last operation that concerns either says so. -/
theorem table_eq_some_iff {h : List (Op K A T)} {k : K} {a : A} {t : T} :
    table h k = some (a, t) ↔ h.find? (Op.concerns k a) = some (.register k a t) := by
  induction h with
  | nil => simp [table]
  | cons op h ih =>
      cases op with
      | register j b s =>
          by_cases hj : j = k
          · subst hj
            have hlast : (Op.register j b s).concerns j a = true := by simp [Op.concerns]
            rw [List.find?_cons_of_pos hlast]
            simp [table, Op.apply]
          · have hne : ¬ k = j := fun h => hj h.symm
            by_cases hb : b = a
            · subst hb
              have hlast : (Op.register j b s).concerns k b = true := by simp [Op.concerns]
              rw [List.find?_cons_of_pos hlast]
              constructor
              · intro htable
                simp only [table, Op.apply, if_neg hne] at htable
                split at htable
                · exact absurd htable (by simp)
                · rename_i hnot
                  exact absurd (by rw [htable]; rfl) hnot
              · intro heq
                cases heq
                exact absurd rfl hj
            · have hskip : ¬ (Op.register j b s).concerns k a = true := by
                simp [Op.concerns, hj, hb]
              rw [List.find?_cons_of_neg hskip, ← ih]
              simp only [table, Op.apply, if_neg hne]
              split
              · rename_i hlost
                constructor
                · exact fun h => absurd h (by simp)
                · intro htable
                  rw [htable] at hlost
                  exact absurd (Option.some.inj hlost).symm hb
              · exact Iff.rfl
      | release j =>
          by_cases hj : j = k
          · subst hj
            have hlast : (Op.release j : Op K A T).concerns j a = true := by simp [Op.concerns]
            rw [List.find?_cons_of_pos hlast]
            simp [table, Op.apply]
          · have hne : ¬ k = j := fun h => hj h.symm
            have hskip : ¬ (Op.release j : Op K A T).concerns k a = true := by
              simp [Op.concerns, hj]
            rw [List.find?_cons_of_neg hskip, ← ih]
            simp only [table, Op.apply, if_neg hne]

/-! ## The table as the latest registrations -/

/-- Who registered `k` last, and when. -/
def latestOf : List (Op K A T) → K → Option (A × T)
  | [], _ => none
  | .register j a t :: h, k => if j = k then some (a, t) else latestOf h k
  | .release _ :: h, k => latestOf h k

/-- What `a` registered last, and when. -/
def latestBy : List (Op K A T) → A → Option (K × T)
  | [], _ => none
  | .register k b t :: h, a => if b = a then some (k, t) else latestBy h a
  | .release _ :: h, a => latestBy h a

/-- Every lease had expired when it was released. -/
def ReleasesExpired (Expired : T → Prop) : List (Op K A T) → Prop
  | [] => True
  | .register _ _ _ :: h => ReleasesExpired Expired h
  | .release k :: h =>
      (∀ a t, table h k = some (a, t) → Expired t) ∧ ReleasesExpired Expired h

theorem latest_of_table {h : List (Op K A T)} {k : K} {a : A} {t : T}
    (htable : table h k = some (a, t)) :
    latestOf h k = some (a, t) ∧ latestBy h a = some (k, t) := by
  rw [table_eq_some_iff] at htable
  induction h with
  | nil => exact absurd htable (by simp)
  | cons op h ih =>
      cases op with
      | register j b s =>
          by_cases hlast : (Op.register j b s).concerns k a = true
          · rw [List.find?_cons_of_pos hlast] at htable
            cases htable
            simp [latestOf, latestBy]
          · rw [List.find?_cons_of_neg hlast] at htable
            have hskip : ¬ j = k ∧ ¬ b = a := by simpa [Op.concerns] using hlast
            simpa [latestOf, latestBy, hskip.1, hskip.2] using ih htable
      | release j =>
          by_cases hlast : (Op.release j : Op K A T).concerns k a = true
          · rw [List.find?_cons_of_pos hlast] at htable
            cases htable
          · rw [List.find?_cons_of_neg hlast] at htable
            exact ih htable

theorem table_of_latest {Expired : T → Prop} {h : List (Op K A T)}
    (hexp : ReleasesExpired Expired h) {k : K} {a : A} {t u : T}
    (hof : latestOf h k = some (a, t)) (hby : latestBy h a = some (k, u)) (hlive : ¬ Expired t) :
    table h k = some (a, t) := by
  induction h with
  | nil => exact absurd hof (by simp [latestOf])
  | cons op h ih =>
      cases op with
      | register j b s =>
          by_cases hj : j = k
          · simpa [table, Op.apply, hj, latestOf] using hof
          · have hne : ¬ k = j := fun h => hj h.symm
            have hb : ¬ b = a := by
              intro hb
              simp only [latestBy, if_pos hb, Option.some.injEq, Prod.mk.injEq] at hby
              exact hj hby.1
            simp only [latestOf, if_neg hj] at hof
            simp only [latestBy, if_neg hb] at hby
            have hold := ih hexp hof hby
            simp only [table, Op.apply, if_neg hne, hold]
            exact if_neg fun heq => hb (Option.some.inj heq).symm
      | release j =>
          have hold := ih hexp.2 hof hby
          have hne : ¬ k = j := by
            rintro rfl
            exact hlive (hexp.1 a t hold)
          simpa only [table, Op.apply, if_neg hne] using hold

/-- While it has not expired, `k` belongs to `a` when the latest registration of
`k` is by `a` and the latest one by `a` is of `k`. -/
theorem table_iff_of_live {Expired : T → Prop} {h : List (Op K A T)}
    (hexp : ReleasesExpired Expired h) {k : K} {a : A} {t : T} (hlive : ¬ Expired t) :
    table h k = some (a, t) ↔
      latestOf h k = some (a, t) ∧ ∃ u, latestBy h a = some (k, u) := by
  constructor
  · intro htable
    obtain ⟨hof, hby⟩ := latest_of_table htable
    exact ⟨hof, t, hby⟩
  · rintro ⟨hof, u, hby⟩
    exact table_of_latest hexp hof hby hlive

end Lease

end DistributAr.Lib
