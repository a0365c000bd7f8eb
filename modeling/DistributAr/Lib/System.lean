/-
# `DistributAr.Lib.System` — transition systems and their invariants

A system is a predicate on first states and a step relation; a run is a chain
of steps.  Two induction rules are packaged here.

* `invariant`: what holds at the start and is preserved by every step holds in
  every reachable state.
* `Steps.ghost`: an invariant that mentions a value the program does not keep
  (who was given a number, what was sent so far), where a step may enlarge that
  value but never take anything back.  What was recorded at one moment of a run
  is then still recorded at every later one.
-/
import Mathlib.Logic.Relation
import Mathlib.Order.Basic

namespace DistributAr.Lib

/-- A transition system on the states `σ`. -/
structure System (σ : Type*) where
  init : σ → Prop
  step : σ → σ → Prop

namespace System

variable {σ : Type*} (S : System σ)

/-- A run from one state to another. -/
def Steps : σ → σ → Prop := Relation.ReflTransGen S.step

/-- The states of the runs that start in a first state. -/
def Reachable (s : σ) : Prop := ∃ s₀, S.init s₀ ∧ S.Steps s₀ s

variable {S} {s t u : σ}

theorem Steps.refl (s : σ) : S.Steps s s := Relation.ReflTransGen.refl

theorem Steps.tail (h : S.Steps s t) (ht : S.step t u) : S.Steps s u :=
  Relation.ReflTransGen.tail h ht

theorem Reachable.init (h : S.init s) : S.Reachable s := ⟨s, h, .refl s⟩

theorem Reachable.step (h : S.Reachable s) (hs : S.step s t) : S.Reachable t := by
  obtain ⟨s₀, h₀, hrun⟩ := h
  exact ⟨s₀, h₀, hrun.tail hs⟩

theorem Reachable.steps (h : S.Reachable s) (hs : S.Steps s t) : S.Reachable t := by
  obtain ⟨s₀, h₀, hrun⟩ := h
  exact ⟨s₀, h₀, hrun.trans hs⟩

/-- What every step preserves, every run preserves. -/
theorem Steps.preserve {P : σ → Prop} (hstep : ∀ s t, P s → S.step s t → P t)
    (h : S.Steps s t) (hs : P s) : P t := by
  induction h with
  | refl => exact hs
  | tail _ hlast ih => exact hstep _ _ ih hlast

/-- An invariant holds in every reachable state. -/
theorem invariant {P : σ → Prop} (hinit : ∀ s, S.init s → P s)
    (hstep : ∀ s t, P s → S.step s t → P t) (h : S.Reachable s) : P s := by
  obtain ⟨s₀, h₀, hrun⟩ := h
  exact hrun.preserve hstep (hinit s₀ h₀)

/-- An invariant with a ghost value that only grows. -/
theorem Steps.ghost {γ : Type*} [Preorder γ] {I : γ → σ → Prop}
    (hstep : ∀ g s t, I g s → S.step s t → ∃ g', g ≤ g' ∧ I g' t)
    (h : S.Steps s t) {g : γ} (hs : I g s) : ∃ g', g ≤ g' ∧ I g' t := by
  induction h with
  | refl => exact ⟨g, le_refl g, hs⟩
  | tail _ hlast ih =>
      obtain ⟨g₁, hle, h₁⟩ := ih
      obtain ⟨g₂, hle', h₂⟩ := hstep g₁ _ _ h₁ hlast
      exact ⟨g₂, le_trans hle hle', h₂⟩

/-- The ghost value of a reachable state. -/
theorem Reachable.ghost {γ : Type*} [Preorder γ] {I : γ → σ → Prop}
    (hinit : ∀ s, S.init s → ∃ g, I g s)
    (hstep : ∀ g s t, I g s → S.step s t → ∃ g', g ≤ g' ∧ I g' t)
    (h : S.Reachable s) : ∃ g, I g s := by
  obtain ⟨s₀, h₀, hrun⟩ := h
  obtain ⟨g, hg⟩ := hinit s₀ h₀
  obtain ⟨g', -, hg'⟩ := hrun.ghost hstep hg
  exact ⟨g', hg'⟩

end System

end DistributAr.Lib
