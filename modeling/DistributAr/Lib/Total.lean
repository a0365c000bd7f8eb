/-
# `DistributAr.Lib.Total` — programs that return

A program changes a state and returns a value; one that recurses without end, or
further than it is given room for, returns nothing.  `Total P m Q` says that `m`,
started where `P` holds, returns, and that `Q` holds of what it returns and of the
state then.

| program             | rule             | what has to be known                         |
|---------------------|------------------|----------------------------------------------|
| `pure a`            | `Total.pure`     | `Q` holds already                            |
| `modify f`          | `Total.change`   | `Q` holds after the change                   |
| `get >>= f`         | `Total.read`     | `f` returns, given a state with `P`          |
| `m >>= f`           | `Total.bind`     | `m` returns, and `f` does from there         |
| `if c then m else n`| `Total.ite`      | each branch does where it is taken           |
| `xs.forM f`         | `Total.forM`     | each round keeps the invariant               |
-/
import Mathlib.Tactic.Basic

namespace DistributAr.Lib

/-- A program with a state; `none` if it does not return. -/
abbrev Program (σ α : Type) := StateT σ Option α

variable {σ α β : Type} {P P' : σ → Prop} {Q R : α → σ → Prop} {m : Program σ α}

/-- Started in a state with `P`, the program returns, with `Q`. -/
def Total (P : σ → Prop) (m : Program σ α) (Q : α → σ → Prop) : Prop :=
  ∀ s, P s → ∃ a t, m s = some (a, t) ∧ Q a t

namespace Total

theorem conseq (h : Total P m Q) (hP : ∀ s, P' s → P s) (hQ : ∀ a s, Q a s → R a s) :
    Total P' m R := by
  intro s hs
  obtain ⟨a, t, hm, hq⟩ := h s (hP s hs)
  exact ⟨a, t, hm, hQ a t hq⟩

theorem pure {a : α} (h : ∀ s, P s → Q a s) : Total P (Pure.pure a) Q :=
  fun s hs => ⟨a, s, rfl, h s hs⟩

theorem change {Q : PUnit → σ → Prop} {f : σ → σ} (h : ∀ s, P s → Q ⟨⟩ (f s)) :
    Total P (modify f) Q :=
  fun s hs => ⟨⟨⟩, f s, rfl, h s hs⟩

theorem bind {Q : β → σ → Prop} {f : α → Program σ β} (hm : Total P m R)
    (hf : ∀ a, Total (R a) (f a) Q) : Total P (m >>= f) Q := by
  intro s hs
  obtain ⟨a, t, hm, hR⟩ := hm s hs
  obtain ⟨b, u, hfa, hQ⟩ := hf a t hR
  refine ⟨b, u, ?_, hQ⟩
  show (m s).bind (fun x => f x.1 x.2) = some (b, u)
  rw [hm, Option.bind_some, hfa]

/-- What is read has `P`, and so has the state still. -/
theorem read {Q : β → σ → Prop} {f : σ → Program σ β} (h : ∀ a, P a → Total P (f a) Q) :
    Total P (MonadState.get >>= f) Q := by
  intro s hs
  obtain ⟨b, t, hf, hQ⟩ := h s hs s hs
  exact ⟨b, t, hf, hQ⟩

theorem ite {c : Prop} [Decidable c] {n : Program σ α} (hm : c → Total P m Q)
    (hn : ¬ c → Total P n Q) : Total P (if c then m else n) Q := by
  split
  · exact hm ‹_›
  · exact hn ‹_›

/-- A round for each element. -/
theorem forM {f : α → Program σ PUnit} {xs : List α}
    (h : ∀ x ∈ xs, Total P (f x) fun _ => P) : Total P (xs.forM f) fun _ => P := by
  induction xs with
  | nil => exact pure fun s hs => hs
  | cons x xs ih =>
      exact bind (h x List.mem_cons_self) fun _ => ih fun y hy => h y (List.mem_cons_of_mem _ hy)

end Total

end DistributAr.Lib
