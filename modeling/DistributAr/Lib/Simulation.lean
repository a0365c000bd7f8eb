/-
# `DistributAr.Lib.Simulation` — one system refines another

A relation between the states of a concrete system and those of an abstract one
is a simulation if every concrete step is answered by abstract steps, none or
many, that restore it.  What holds of the reachable abstract states is then known
of the concrete ones too, read through the relation (`Simulates.reachable`).
-/
import DistributAr.Lib.System

namespace DistributAr.Lib.System

variable {σ τ : Type*}

/-- Steps of `C` are answered by steps of `A`, and `R` holds again. -/
structure Simulates (C : System σ) (A : System τ) (R : σ → τ → Prop) : Prop where
  init : ∀ s, C.init s → ∃ t, A.init t ∧ R s t
  step : ∀ s s' t, R s t → C.step s s' → ∃ t', A.Steps t t' ∧ R s' t'

variable {C : System σ} {A : System τ} {R : σ → τ → Prop} {s s' : σ} {t : τ}

theorem Steps.trans {t u v : τ} (h : A.Steps t u) (h' : A.Steps u v) : A.Steps t v :=
  Relation.ReflTransGen.trans h h'

theorem Steps.single {t u : τ} (h : A.step t u) : A.Steps t u := (Steps.refl t).tail h

/-- A run is answered by a run. -/
theorem Simulates.steps (h : Simulates C A R) (hrun : C.Steps s s') (hR : R s t) :
    ∃ t', A.Steps t t' ∧ R s' t' := by
  induction hrun with
  | refl => exact ⟨t, .refl t, hR⟩
  | tail _ hlast ih =>
      obtain ⟨u, hu, hRu⟩ := ih
      obtain ⟨v, hv, hRv⟩ := h.step _ _ _ hRu hlast
      exact ⟨v, hu.trans hv, hRv⟩

/-- Every reachable state stands for one that the abstract system reaches. -/
theorem Simulates.reachable (h : Simulates C A R) (hs : C.Reachable s) :
    ∃ t, A.Reachable t ∧ R s t := by
  obtain ⟨s₀, h₀, hrun⟩ := hs
  obtain ⟨t₀, ht₀, hR⟩ := h.init s₀ h₀
  obtain ⟨t, ht, hR'⟩ := h.steps hrun hR
  exact ⟨t, ⟨t₀, ht₀, ht⟩, hR'⟩

end DistributAr.Lib.System
