/-
# `DistributAr.Lib.Gate` — a filter with one mark for each key

A gate lets some of its inputs pass.  It keeps a mark for each key, and an input
that passes leaves its own mark under its own key; nothing else leaves a trace
(`Gate`).  Whatever the gate does with its state, it follows

* that the mark of a key is that of the last input with this key that passed
  (`mark_run`), so that decisions depend on these inputs only (`decide_congr`);
* that inputs which do not pass, and inputs with other keys, may be left out
  (`decisions_accepted`, `decisions_filter`);
* that the marks of a key come in order, if the gate compares (`sorted`).
-/
import Mathlib.Data.List.Basic
import Mathlib.Order.Basic

namespace DistributAr.Lib

namespace Gate

variable {σ ι κ μ : Type*} (step : σ → ι → σ × Bool)

/-- The state after some inputs. -/
def run (s : σ) (is : List ι) : σ := is.foldl (fun s i => (step s i).1) s

/-- The inputs, each with the decision about it. -/
def decisions : σ → List ι → List (ι × Bool)
  | _, [] => []
  | s, i :: is => (i, (step s i).2) :: decisions (step s i).1 is

/-- The inputs that pass. -/
def accepted (s : σ) (is : List ι) : List ι :=
  ((decisions step s is).filter Prod.snd).map Prod.fst

variable [DecidableEq κ] (key : ι → κ) (mark : ι → μ) (view : σ → κ → μ)

/-- A decision looks at the mark of the input's key, and changes it if the input
passes. -/
structure Spec : Prop where
  decides : ∀ s t i, view s (key i) = view t (key i) → (step s i).2 = (step t i).2
  accepts : ∀ s i, (step s i).2 = true →
    ∀ k, view (step s i).1 k = if k = key i then mark i else view s k
  rejects : ∀ s i, (step s i).2 = false → ∀ k, view (step s i).1 k = view s k

variable {step key mark view} {s t : σ} {i : ι} {is : List ι} {k : κ}

theorem accepted_cons : accepted step s (i :: is)
    = if (step s i).2 then i :: accepted step (step s i).1 is
      else accepted step (step s i).1 is := by
  unfold accepted
  rw [decisions]
  cases hpass : (step s i).2 with
  | true => rfl
  | false => rfl

/-- What passes was among the inputs. -/
theorem accepted_subset (s : σ) (is : List ι) : accepted step s is ⊆ is := by
  induction is generalizing s with
  | nil => exact List.Subset.refl _
  | cons i is ih =>
      rw [accepted_cons]
      split
      · exact List.cons_subset_cons i (ih _)
      · exact List.Subset.trans (ih _) (List.subset_cons_self i is)

/-- A gate for inputs that carry more than it looks at. -/
theorem accepted_map {ι' : Type*} (f : ι' → ι) (s : σ) (is : List ι') :
    (accepted (fun s i => step s (f i)) s is).map f = accepted step s (is.map f) := by
  induction is generalizing s with
  | nil => rfl
  | cons i is ih =>
      rw [List.map_cons, accepted_cons, accepted_cons]
      split
      · rw [List.map_cons, ih]
      · exact ih _

namespace Spec

variable (h : Spec step key mark view)
include h

/-- An input leaves the marks of the other keys alone. -/
theorem view_of_ne (hk : k ≠ key i) : view (step s i).1 k = view s k := by
  cases hpass : (step s i).2 with
  | true => rw [h.accepts s i hpass, if_neg hk]
  | false => exact h.rejects s i hpass k

/-- The mark of a key is that of the last input with this key that passed. -/
theorem mark_run (s : σ) (is : List ι) (k : κ) : view (run step s is) k
    = ((((accepted step s is).filter fun i => key i = k).map mark).getLast?).getD (view s k) := by
  induction is generalizing s with
  | nil => rfl
  | cons i is ih =>
      have hrun : run step s (i :: is) = run step (step s i).1 is := rfl
      rw [hrun, ih, accepted_cons]
      cases hpass : (step s i).2 with
      | false =>
          rw [h.rejects s i hpass]
          rfl
      | true =>
          rw [if_pos rfl, h.accepts s i hpass]
          by_cases hk : key i = k
          · rw [if_pos hk.symm, List.filter_cons_of_pos (by simpa using hk), List.map_cons,
              List.getLast?_cons, Option.getD_some]
          · rw [if_neg (Ne.symm hk), List.filter_cons_of_neg (by simpa using hk)]

/-- The two-run property: where the inputs with its key that passed so far left
the same marks, an input meets the same decision. -/
theorem decide_congr (s : σ) {is js : List ι} (i : ι)
    (heq : ((accepted step s is).filter fun j => key j = key i).map mark
      = ((accepted step s js).filter fun j => key j = key i).map mark) :
    (step (run step s is) i).2 = (step (run step s js) i).2 := by
  refine h.decides _ _ i ?_
  rw [h.mark_run, h.mark_run, heq]

/-- From states with the same mark of `k`, inputs with other keys may be left
out. -/
theorem decisions_filter_of (hst : view s k = view t k) (is : List ι) :
    decisions step t (is.filter fun i => key i = k)
      = (decisions step s is).filter fun d => key d.1 = k := by
  induction is generalizing s t with
  | nil => rfl
  | cons i is ih =>
      by_cases hk : key i = k
      · subst hk
        have hdecide := h.decides s t i hst
        rw [List.filter_cons_of_pos (by simp), decisions, decisions,
          List.filter_cons_of_pos (by simp), hdecide]
        refine congrArg _ (ih ?_)
        cases hpass : (step s i).2 with
        | true => rw [h.accepts s i hpass, h.accepts t i (hdecide ▸ hpass), if_pos rfl, if_pos rfl]
        | false => rw [h.rejects s i hpass, h.rejects t i (hdecide ▸ hpass), hst]
      · rw [List.filter_cons_of_neg (by simpa using hk), decisions,
          List.filter_cons_of_neg (by simpa using hk)]
        exact ih ((h.view_of_ne (Ne.symm hk)).trans hst)

theorem decisions_filter (s : σ) (is : List ι) (k : κ) :
    decisions step s (is.filter fun i => key i = k)
      = (decisions step s is).filter fun d => key d.1 = k :=
  h.decisions_filter_of rfl is

/-- From states with the same marks, inputs that do not pass may be left out. -/
theorem decisions_accepted_of (hst : ∀ k, view s k = view t k) (is : List ι) :
    decisions step t (accepted step s is) = (decisions step s is).filter Prod.snd := by
  induction is generalizing s t with
  | nil => rfl
  | cons i is ih =>
      have hdecide := h.decides s t i (hst _)
      rw [accepted_cons, decisions]
      cases hpass : (step s i).2 with
      | true =>
          rw [if_pos rfl, decisions, List.filter_cons_of_pos (by simp), ← hdecide, hpass]
          refine congrArg _ (ih ?_)
          intro k
          rw [h.accepts s i hpass, h.accepts t i (hdecide ▸ hpass), hst]
      | false =>
          rw [List.filter_cons_of_neg (by simp)]
          refine ih ?_
          intro k
          rw [h.rejects s i hpass, hst]

theorem decisions_accepted (s : σ) (is : List ι) :
    decisions step s (accepted step s is) = (decisions step s is).filter Prod.snd :=
  h.decisions_accepted_of (fun _ => rfl) is

/-- A gate that lets pass only what is not before the mark keeps the marks of each
key in order. -/
theorem sorted [Preorder μ] (hle : ∀ s i, (step s i).2 = true → view s (key i) ≤ mark i)
    (s : σ) (is : List ι) (k : κ) :
    (∀ m ∈ ((accepted step s is).filter fun i => key i = k).map mark, view s k ≤ m)
      ∧ (((accepted step s is).filter fun i => key i = k).map mark).Pairwise (· ≤ ·) := by
  induction is generalizing s with
  | nil => exact ⟨fun _ hm => absurd hm List.not_mem_nil, .nil⟩
  | cons i is ih =>
      obtain ⟨hmin, hsorted⟩ := ih (step s i).1
      rw [accepted_cons]
      cases hpass : (step s i).2 with
      | false =>
          rw [h.rejects s i hpass] at hmin
          exact ⟨hmin, hsorted⟩
      | true =>
          rw [h.accepts s i hpass] at hmin
          rw [if_pos rfl]
          by_cases hk : key i = k
          · subst hk
            rw [if_pos rfl] at hmin
            have hfirst := hle s i hpass
            rw [List.filter_cons_of_pos (by simp), List.map_cons, List.pairwise_cons]
            refine ⟨?_, hmin, hsorted⟩
            intro m hm
            rcases List.mem_cons.mp hm with rfl | hrest
            · exact hfirst
            · exact le_trans hfirst (hmin m hrest)
          · rw [if_neg (Ne.symm hk)] at hmin
            rw [List.filter_cons_of_neg (by simpa using hk)]
            exact ⟨hmin, hsorted⟩

end Spec

end Gate

end DistributAr.Lib
