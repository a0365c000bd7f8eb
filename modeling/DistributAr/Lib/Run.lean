/-
# `DistributAr.Lib.Run` — runs on a list of inputs

A program takes one input after another; a step is `none` where its behaviour is
not defined, and the run ends there.  A claim about such a program says
something of every state it visits (`Always`) or of every step it takes
(`Each`).

* `always_iff_each`: if a step leads to a good state exactly when a condition on
  the state before it holds, then all states of a run are good exactly when all
  its steps meet the condition.
* `each_congr_of`: two conditions that agree wherever an invariant holds agree on
  whole runs.
* `after_conserved`: what goes into a queue and what comes out of it, step by step
  and over a whole run.
-/
import Mathlib.Data.List.Basic

namespace DistributAr.Lib

namespace Run

variable {σ ι : Type*} (step : σ → ι → Option σ)

/-- The state after some inputs. -/
def after : σ → List ι → Option σ
  | s, [] => some s
  | s, i :: is => (step s i).bind fun t => after t is

/-- `P` holds in every state that the run visits. -/
def Always (P : σ → Prop) (s : σ) (is : List ι) : Prop :=
  ∀ before, before <+: is → ∀ t, after step s before = some t → P t

/-- `C` holds of every step that the run takes, in the state it is taken in. -/
def Each (C : σ → ι → Prop) (s : σ) (is : List ι) : Prop :=
  ∀ before i, before ++ [i] <+: is → ∀ t, after step s before = some t →
    (step t i).isSome → C t i

variable {step} {P : σ → Prop} {C D : σ → ι → Prop} {s t : σ} {i : ι} {is : List ι}

theorem after_cons (h : step s i = some t) : after step s (i :: is) = after step t is := by
  rw [after, h, Option.bind_some]

/-- What every step preserves, every run preserves. -/
theorem after_invariant {I : σ → Prop} (hinv : ∀ s i t, I s → step s i = some t → I t) (hs : I s)
    (h : after step s is = some t) : I t := by
  induction is generalizing s with
  | nil =>
      cases h
      exact hs
  | cons i is ih =>
      obtain ⟨u, hu, hrest⟩ := Option.bind_eq_some_iff.mp h
      exact ih (hinv s i u hs hu) hrest

/-- What every step takes off a queue in front and puts on it behind, a run does. -/
theorem after_conserved {τ : Type*} {I : σ → Prop} {taken put : ι → List τ} {left : σ → List τ}
    (hinv : ∀ s i t, I s → step s i = some t → I t)
    (hstep : ∀ s i t, I s → step s i = some t → taken i ++ left t = left s ++ put i) (hs : I s)
    (h : after step s is = some t) : is.flatMap taken ++ left t = left s ++ is.flatMap put := by
  induction is generalizing s with
  | nil =>
      cases h
      exact (List.append_nil _).symm
  | cons i is ih =>
      obtain ⟨u, hu, hrest⟩ := Option.bind_eq_some_iff.mp h
      calc (i :: is).flatMap taken ++ left t
          = taken i ++ (is.flatMap taken ++ left t) := by
            rw [List.flatMap_cons, List.append_assoc]
        _ = (taken i ++ left u) ++ is.flatMap put := by
            rw [ih (hinv s i u hs hu) hrest, List.append_assoc]
        _ = left s ++ (i :: is).flatMap put := by
            rw [hstep s i u hs hu, List.append_assoc, List.flatMap_cons]

theorem always_nil : Always step P s [] ↔ P s := by
  constructor
  · intro h
    exact h [] (List.prefix_refl _) s rfl
  · intro hs before hbefore t ht
    obtain rfl := List.prefix_nil.mp hbefore
    cases ht
    exact hs

theorem always_cons : Always step P s (i :: is) ↔
    P s ∧ ∀ t, step s i = some t → Always step P t is := by
  constructor
  · intro h
    refine ⟨h [] (List.nil_prefix) s rfl, ?_⟩
    intro t ht before hbefore u hu
    exact h (i :: before) (List.cons_prefix_cons.mpr ⟨rfl, hbefore⟩) u ((after_cons ht).trans hu)
  · rintro ⟨hs, hrest⟩ before hbefore u hu
    cases before with
    | nil =>
        cases hu
        exact hs
    | cons j before =>
        obtain ⟨rfl, htail⟩ := List.cons_prefix_cons.mp hbefore
        obtain ⟨t, ht, hu⟩ := Option.bind_eq_some_iff.mp hu
        exact hrest t ht before htail u hu

theorem each_nil : Each step C s [] := by
  intro before i hbefore
  exact absurd (List.prefix_nil.mp hbefore) (by simp)

theorem each_cons : Each step C s (i :: is) ↔
    ∀ t, step s i = some t → C s i ∧ Each step C t is := by
  constructor
  · intro h t ht
    refine ⟨h [] i (by simp) s rfl (by rw [ht]; rfl), ?_⟩
    intro before j hbefore u hu
    exact h (i :: before) j (List.cons_prefix_cons.mpr ⟨rfl, hbefore⟩) u ((after_cons ht).trans hu)
  · intro h before j hbefore u hu hj
    cases before with
    | nil =>
        obtain ⟨rfl, -⟩ := List.cons_prefix_cons.mp hbefore
        cases hu
        obtain ⟨t, ht⟩ := Option.isSome_iff_exists.mp hj
        exact (h t ht).1
    | cons k before =>
        obtain ⟨rfl, htail⟩ := List.cons_prefix_cons.mp hbefore
        obtain ⟨t, ht, hu⟩ := Option.bind_eq_some_iff.mp hu
        exact (h t ht).2 before j htail u hu hj

theorem each_cons_of (hs : step s i = some t) (hC : C s i) (h : Each step C t is) :
    Each step C s (i :: is) := by
  refine each_cons.mpr fun u hu => ?_
  cases hs.symm.trans hu
  exact ⟨hC, h⟩

/-- The rule for claims about every state: one step decides. -/
theorem always_iff_each {I : σ → Prop} (hinv : ∀ s i t, I s → step s i = some t → I t)
    (hstep : ∀ s i t, I s → P s → step s i = some t → (P t ↔ C s i)) (hs : I s) (hP : P s) :
    Always step P s is ↔ Each step C s is := by
  induction is generalizing s with
  | nil => exact ⟨fun _ => each_nil, fun _ => always_nil.mpr hP⟩
  | cons i is ih =>
      rw [always_cons, each_cons]
      constructor
      · rintro ⟨-, hrest⟩ t ht
        have ht' : P t := hrest t ht [] List.nil_prefix t rfl
        exact ⟨(hstep s i t hs hP ht).mp ht', (ih (hinv s i t hs ht) ht').mp (hrest t ht)⟩
      · intro h
        refine ⟨hP, ?_⟩
        intro t ht
        obtain ⟨hC, hrest⟩ := h t ht
        exact (ih (hinv s i t hs ht) ((hstep s i t hs hP ht).mpr hC)).mpr hrest

/-- The rule for claims about every step, of runs whose steps all meet an
assumption.  The invariant has to survive only the steps that meet the claim. -/
theorem each_congr_of {I : σ → Prop} {A : σ → ι → Prop}
    (hinv : ∀ s i t, I s → A s i → C s i → step s i = some t → I t)
    (hstep : ∀ s i t, I s → A s i → step s i = some t → (C s i ↔ D s i))
    (hs : I s) (hA : Each step A s is) : Each step C s is ↔ Each step D s is := by
  induction is generalizing s with
  | nil => exact ⟨fun _ => each_nil, fun _ => each_nil⟩
  | cons i is ih =>
      rw [each_cons] at hA
      rw [each_cons, each_cons]
      refine forall_congr' ?_
      intro t
      refine imp_congr_right ?_
      intro ht
      obtain ⟨hAi, hArest⟩ := hA t ht
      have hone := hstep s i t hs hAi ht
      constructor
      · rintro ⟨hC, hrest⟩
        exact ⟨hone.mp hC, (ih (hinv s i t hs hAi hC ht) hArest).mp hrest⟩
      · rintro ⟨hD, hrest⟩
        exact ⟨hone.mpr hD, (ih (hinv s i t hs hAi (hone.mpr hD) ht) hArest).mpr hrest⟩

/-- The same, of all runs. -/
theorem each_congr {I : σ → Prop} (hinv : ∀ s i t, I s → step s i = some t → I t)
    (hstep : ∀ s i t, I s → step s i = some t → (C s i ↔ D s i)) (hs : I s) :
    Each step C s is ↔ Each step D s is :=
  each_congr_of (A := fun _ _ => True) (fun s i t hI _ _ ht => hinv s i t hI ht)
    (fun s i t hI _ ht => hstep s i t hI ht) hs fun _ _ _ _ _ _ => trivial

end Run

end DistributAr.Lib
