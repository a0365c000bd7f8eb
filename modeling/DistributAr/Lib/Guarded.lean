/-
# `DistributAr.Lib.Guarded` — a value behind a spin lock

Any number of threads work on one value.  What a thread does to it is a section:
a program of small actions, between a `lock` that spins on a flag and an
`unlock` that clears it.

| step      | the thread                       | the flag           |
|-----------|----------------------------------|--------------------|
| `call`    | begins an operation              | untouched          |
| `spin`    | tests and sets, and found it set | stays set          |
| `acquire` | tests and sets, and found it clear | is set           |
| `act`     | one action of its section        | untouched          |
| `release` | is done, and leaves              | is cleared         |

`Sections.Ends` says where a section leads when nobody disturbs it, and
`Implements` that this is what an operation in one piece would make of the
value.  The rule is `serial`: then the value of a free lock is what the
operations make of it one after the other, in the order in which they left.
-/
import DistributAr.Lib.Run
import DistributAr.Lib.System
import Mathlib.Logic.Function.Basic

namespace DistributAr.Lib

/-- The sections of the operations `ω` on a value in `σ`.  A thread in its section
stands at a place in `ℓ`; an action is `none` where its behaviour is not defined,
and the next place is `none` after the last one. -/
structure Sections (ω ℓ σ : Type*) where
  enter : ω → ℓ
  act : ℓ → σ → Option (Option ℓ × σ)

namespace Sections

variable {ω ℓ σ : Type*} (S : Sections ω ℓ σ)

/-- Left alone, a section at this place of this value ends with that value, or
(`none`) where nothing is defined. -/
inductive Ends : Option ℓ → σ → Option σ → Prop
  | finished (v : σ) : Ends none v (some v)
  | undefined {l : ℓ} {v : σ} : S.act l v = none → Ends (some l) v none
  | act {l : ℓ} {v : σ} {next : Option ℓ} {v' : σ} {r : Option σ} :
      S.act l v = some (next, v') → Ends next v' r → Ends (some l) v r

/-- Every section ends, with what its operation makes of the value. -/
def Implements (apply : σ → ω → Option σ) : Prop :=
  ∀ op v, S.Ends (some (S.enter op)) v (apply v op)

variable {S} {l : ℓ} {next : Option ℓ} {v v' : σ} {r : Option σ}

theorem Ends.eq_some (h : S.Ends none v r) : r = some v := by
  cases h
  rfl

/-- One action on the way. -/
theorem Ends.tail (h : S.Ends (some l) v r) (hact : S.act l v = some (next, v')) :
    S.Ends next v' r := by
  cases h with
  | undefined hnone => exact nomatch hnone.symm.trans hact
  | act hsome hrest =>
      cases hsome.symm.trans hact
      exact hrest

variable {α β : Type*}

/-- A loop that looks for an element: at each it goes on or leaves. -/
theorem Ends.search (xs : List α) (p : α → Bool) (loop : ℕ → ℓ)
    (hit miss : Option ℓ)
    (hin : ∀ i x, xs[i]? = some x →
      S.act (loop i) v = some (if p x then hit else some (loop (i + 1)), v))
    (hend : S.act (loop xs.length) v = some (miss, v))
    (h : S.Ends (if xs.any p then hit else miss) v r) : S.Ends (some (loop 0)) v r := by
  have hgo : ∀ n i, i + n = xs.length →
      S.Ends (if (xs.drop i).any p then hit else miss) v r → S.Ends (some (loop i)) v r := by
    intro n
    induction n with
    | zero =>
        rintro i rfl h
        rw [List.drop_length] at h
        exact .act hend h
    | succ n ih =>
        intro i hi h
        have hlt : i < xs.length := by omega
        rw [List.drop_eq_getElem_cons hlt, List.any_cons] at h
        refine .act (hin i xs[i] (List.getElem?_eq_getElem hlt)) ?_
        cases hp : p xs[i] with
        | true => simpa only [hp, Bool.true_or, if_true] using h
        | false =>
            rw [hp, Bool.false_or] at h
            exact ih (i + 1) (by omega) h
  exact hgo xs.length 0 (Nat.zero_add _) h

/-- A loop that changes the value with each element. -/
theorem Ends.fold (xs : List α) (loop : ℕ → ℓ) (value : β → σ) {f : β → α → β} {b : β}
    (hin : ∀ i x b, xs[i]? = some x →
      S.Ends (some (loop (i + 1))) (value (f b x)) r → S.Ends (some (loop i)) (value b) r)
    (hend : ∀ b, S.Ends next (value b) r → S.Ends (some (loop xs.length)) (value b) r)
    (h : S.Ends next (value (xs.foldl f b)) r) : S.Ends (some (loop 0)) (value b) r := by
  have hgo : ∀ n i b, i + n = xs.length → S.Ends next (value ((xs.drop i).foldl f b)) r →
      S.Ends (some (loop i)) (value b) r := by
    intro n
    induction n with
    | zero =>
        rintro i b rfl h
        rw [List.drop_length] at h
        exact hend b h
    | succ n ih =>
        intro i b hi h
        have hlt : i < xs.length := by omega
        rw [List.drop_eq_getElem_cons hlt, List.foldl_cons] at h
        exact hin i xs[i] b (List.getElem?_eq_getElem hlt) (ih (i + 1) _ (by omega) h)
  exact hgo xs.length 0 b (Nat.zero_add _) h

end Sections

/-- Where a thread is. -/
inductive Place (ω ℓ : Type*) where
  | outside
  | waiting (op : ω)
  | inside (op : ω) (at_ : Option ℓ)

/-- The flag of the lock, the value behind it and the threads.  Which operations
are done is a record that no program keeps. -/
structure Guarded (ι ω ℓ σ : Type*) where
  flag : Bool
  value : σ
  place : ι → Place ω ℓ
  done : List (ι × ω)

namespace Guarded

variable {ι ω ℓ σ : Type*} [DecidableEq ι] (S : Sections ω ℓ σ)

/-- One thread goes somewhere else. -/
def move (s : Guarded ι ω ℓ σ) (t : ι) (p : Place ω ℓ) : Guarded ι ω ℓ σ :=
  { s with place := Function.update s.place t p }

/-- The steps of the threads, in any order. -/
inductive Step : Guarded ι ω ℓ σ → Guarded ι ω ℓ σ → Prop
  | call {s : Guarded ι ω ℓ σ} (t : ι) (op : ω) :
      s.place t = .outside → Step s (s.move t (.waiting op))
  | spin {s : Guarded ι ω ℓ σ} {t : ι} {op : ω} :
      s.place t = .waiting op → s.flag = true → Step s s
  | acquire {s : Guarded ι ω ℓ σ} {t : ι} {op : ω} :
      s.place t = .waiting op → s.flag = false →
      Step s { s.move t (.inside op (some (S.enter op))) with flag := true }
  | act {s : Guarded ι ω ℓ σ} {t : ι} {op : ω} {l : ℓ} {next : Option ℓ} {v : σ} :
      s.place t = .inside op (some l) → S.act l s.value = some (next, v) →
      Step s { s.move t (.inside op next) with value := v }
  | release {s : Guarded ι ω ℓ σ} {t : ι} {op : ω} :
      s.place t = .inside op none →
      Step s { s.move t .outside with flag := false, done := s.done ++ [(t, op)] }

/-- The flag is clear and all threads are outside. -/
def Initial (v : σ) (s : Guarded ι ω ℓ σ) : Prop :=
  s = ⟨false, v, fun _ => .outside, []⟩

def system (ι : Type*) [DecidableEq ι] (S : Sections ω ℓ σ) (v : σ) :
    System (Guarded ι ω ℓ σ) where
  init := Initial v
  step := Step S

/-- What the operations that are done make of a value, in their order. -/
def replay (apply : σ → ω → Option σ) (v : σ) (done : List (ι × ω)) : Option σ :=
  Run.after (fun v p => apply v p.2) v done

/-- The flag is set while a thread is inside, and one at most is.  A free value is
the one that the operations done so far lead to; a thread inside is on the way
from there to what its own operation leads to. -/
structure Inv (apply : σ → ω → Option σ) (v₀ : σ) (s : Guarded ι ω ℓ σ) : Prop where
  one : ∀ t op l t' op' l', s.place t = .inside op l → s.place t' = .inside op' l' → t = t'
  held : s.flag = true → ∃ t op l, s.place t = .inside op l
  free : s.flag = false → (∀ t op l, s.place t ≠ .inside op l)
    ∧ replay apply v₀ s.done = some s.value
  way : ∀ t op l, s.place t = .inside op l → ∃ v, replay apply v₀ s.done = some v
    ∧ S.Ends l s.value (apply v op)

variable {S} {apply : σ → ω → Option σ} {v₀ : σ} {s s' : Guarded ι ω ℓ σ} {t : ι}
  {p : Place ω ℓ}

@[simp] theorem move_self : (s.move t p).place t = p := Function.update_self ..

theorem move_other {u : ι} (h : u ≠ t) : (s.move t p).place u = s.place u :=
  Function.update_of_ne h ..

@[simp] theorem move_flag : (s.move t p).flag = s.flag := rfl

@[simp] theorem move_value : (s.move t p).value = s.value := rfl

@[simp] theorem move_done : (s.move t p).done = s.done := rfl

/-- Who is inside after a thread has moved. -/
theorem inside_move {u : ι} {op : ω} {l : Option ℓ} (h : (s.move t p).place u = .inside op l) :
    u = t ∧ p = .inside op l ∨ u ≠ t ∧ s.place u = .inside op l := by
  by_cases hu : u = t
  · subst hu
    rw [move_self] at h
    exact .inl ⟨rfl, h⟩
  · rw [move_other hu] at h
    exact .inr ⟨hu, h⟩

omit [DecidableEq ι] in
/-- The last operation. -/
theorem replay_append {done : List (ι × ω)} {op : ω} :
    replay apply v₀ (done ++ [(t, op)])
      = (replay apply v₀ done).bind fun v => apply v op := by
  induction done generalizing v₀ with
  | nil => exact Option.bind_fun_some _
  | cons d done ih =>
      show (apply v₀ d.2).bind (fun w => replay apply w (done ++ [(t, op)]))
        = ((apply v₀ d.2).bind fun w => replay apply w done).bind fun v => apply v op
      rw [Option.bind_assoc]
      exact congrArg _ (funext fun w => ih)

omit [DecidableEq ι] in
theorem inv_initial (h : Initial v₀ s) : s.Inv S apply v₀ := by
  cases h
  refine ⟨?_, ?_, ?_, ?_⟩
  · intro t op l _ _ _ ht _
    exact nomatch ht
  · intro hflag
    exact nomatch hflag
  · intro _
    exact ⟨fun _ _ _ ht => (nomatch ht), rfl⟩
  · intro t op l ht
    exact nomatch ht

/-- A thread outside stays out. -/
theorem Inv.call (h : s.Inv S apply v₀) {op : ω} (ht : s.place t = .outside) :
    (s.move t (.waiting op)).Inv S apply v₀ := by
  have hold : ∀ u op' l, (s.move t (.waiting op)).place u = .inside op' l →
      s.place u = .inside op' l := by
    intro u op' l hu
    rcases inside_move hu with ⟨-, hp⟩ | ⟨-, hu⟩
    · exact nomatch hp
    · exact hu
  refine ⟨?_, ?_, ?_, ?_⟩
  · intro u op₁ l₁ u' op₂ l₂ hu hu'
    exact h.one u op₁ l₁ u' op₂ l₂ (hold _ _ _ hu) (hold _ _ _ hu')
  · intro hflag
    obtain ⟨u, op', l, hu⟩ := h.held hflag
    refine ⟨u, op', l, ?_⟩
    rw [move_other, hu]
    rintro rfl
    exact nomatch ht.symm.trans hu
  · intro hflag
    exact ⟨fun u op' l hu => (h.free hflag).1 u op' l (hold _ _ _ hu), (h.free hflag).2⟩
  · intro u op' l hu
    exact h.way u op' l (hold _ _ _ hu)

/-- A thread that found the flag clear is the only one inside. -/
theorem Inv.acquire (h : s.Inv S apply v₀) (himpl : S.Implements apply) {op : ω}
    (hflag : s.flag = false) :
    Inv S apply v₀ { s.move t (.inside op (some (S.enter op))) with flag := true } := by
  obtain ⟨hnone, hvalue⟩ := h.free hflag
  have honly : ∀ u op' l, (s.move t (.inside op (some (S.enter op)))).place u = .inside op' l →
      u = t ∧ op = op' ∧ some (S.enter op) = l := by
    intro u op' l hu
    rcases inside_move hu with ⟨rfl, hp⟩ | ⟨-, hu⟩
    · cases hp
      exact ⟨rfl, rfl, rfl⟩
    · exact absurd hu (hnone u op' l)
  refine ⟨?_, ?_, fun hf => (nomatch hf), ?_⟩
  · intro u op₁ l₁ u' op₂ l₂ hu hu'
    exact (honly _ _ _ hu).1.trans (honly _ _ _ hu').1.symm
  · intro _
    exact ⟨t, op, some (S.enter op), move_self⟩
  · intro u op' l hu
    obtain ⟨rfl, rfl, rfl⟩ := honly u op' l hu
    exact ⟨s.value, hvalue, himpl op s.value⟩

/-- An action of the thread inside. -/
theorem Inv.act (h : s.Inv S apply v₀) {op : ω} {l : ℓ} {next : Option ℓ} {v : σ}
    (ht : s.place t = .inside op (some l)) (hact : S.act l s.value = some (next, v)) :
    Inv S apply v₀ { s.move t (.inside op next) with value := v } := by
  have honly : ∀ u op' l', (s.move t (.inside op next)).place u = .inside op' l' →
      u = t ∧ op = op' ∧ next = l' := by
    intro u op' l' hu
    rcases inside_move hu with ⟨rfl, hp⟩ | ⟨hne, hu⟩
    · cases hp
      exact ⟨rfl, rfl, rfl⟩
    · exact absurd (h.one _ _ _ _ _ _ hu ht) hne
  refine ⟨?_, ?_, ?_, ?_⟩
  · intro u op₁ l₁ u' op₂ l₂ hu hu'
    exact (honly _ _ _ hu).1.trans (honly _ _ _ hu').1.symm
  · intro _
    exact ⟨t, op, next, move_self⟩
  · intro hflag
    exact absurd ht ((h.free hflag).1 _ _ _)
  · intro u op' l' hu
    obtain ⟨rfl, rfl, rfl⟩ := honly u op' l' hu
    obtain ⟨w, hw, hends⟩ := h.way u op (some l) ht
    exact ⟨w, hw, hends.tail hact⟩

/-- The thread inside leaves the value as its operation makes it. -/
theorem Inv.release (h : s.Inv S apply v₀) {op : ω} (ht : s.place t = .inside op none) :
    Inv S apply v₀
      { s.move t .outside with flag := false, done := s.done ++ [(t, op)] } := by
  have hnone : ∀ u op' l, (s.move t .outside).place u ≠ .inside op' l := by
    intro u op' l hu
    rcases inside_move hu with ⟨-, hp⟩ | ⟨hne, hu⟩
    · exact nomatch hp
    · exact absurd (h.one _ _ _ _ _ _ hu ht) hne
  obtain ⟨w, hw, hends⟩ := h.way t op none ht
  refine ⟨?_, fun hf => (nomatch hf), ?_, ?_⟩
  · intro u op₁ l₁ _ _ _ hu _
    exact absurd hu (hnone u op₁ l₁)
  · intro _
    rw [replay_append, hw]
    exact ⟨hnone, hends.eq_some⟩
  · intro u op' l hu
    exact absurd hu (hnone u op' l)

theorem inv_step (himpl : S.Implements apply) (s s' : Guarded ι ω ℓ σ)
    (h : s.Inv S apply v₀) (hs : Step S s s') : s'.Inv S apply v₀ := by
  cases hs with
  | call t op ht => exact h.call ht
  | spin _ _ => exact h
  | acquire _ hflag => exact h.acquire himpl hflag
  | act ht hact => exact h.act ht hact
  | release ht => exact h.release ht

theorem inv_reachable (himpl : S.Implements apply) (h : (system ι S v₀).Reachable s) :
    s.Inv S apply v₀ :=
  System.invariant (fun _ => inv_initial) (inv_step himpl) h

/-- No two threads are inside. -/
theorem mutex (himpl : S.Implements apply) (h : (system ι S v₀).Reachable s) {t t' : ι}
    {op op' : ω} {l l' : Option ℓ} (ht : s.place t = .inside op l)
    (ht' : s.place t' = .inside op' l') : t = t' :=
  (inv_reachable himpl h).one _ _ _ _ _ _ ht ht'

/-- The value behind a free lock is what the operations make one after the other. -/
theorem serial (himpl : S.Implements apply) (h : (system ι S v₀).Reachable s)
    (hflag : s.flag = false) : replay apply v₀ s.done = some s.value :=
  ((inv_reachable himpl h).free hflag).2

/-- Left alone, the thread inside does what is left of its section, and leaves. -/
theorem leave {op : ω} {l : Option ℓ} {v : σ} (h : S.Ends l s.value (some v))
    (ht : s.place t = .inside op l) :
    ∃ s', (system ι S v₀).Steps s s' ∧ s'.flag = false ∧ s'.value = v
      ∧ s'.done = s.done ++ [(t, op)] ∧ ∀ u ≠ t, s'.place u = s.place u := by
  generalize hvalue : s.value = w at h
  generalize hr : some v = r at h
  induction h generalizing s with
  | finished w =>
      cases hr
      refine ⟨_, .tail (.refl s) (.release ht), rfl, hvalue, rfl, ?_⟩
      exact fun u hu => move_other hu
  | undefined _ => exact nomatch hr
  | @act l w next w' r hact hrest ih =>
      have hstep : Step S s { s.move t (.inside op next) with value := w' } :=
        .act ht (hvalue ▸ hact)
      obtain ⟨s', hrun, hflag, hv, hdone, hothers⟩ :=
        ih (s := { s.move t (.inside op next) with value := w' }) move_self rfl hr
      refine ⟨s', .head hstep hrun, hflag, hv, hdone, ?_⟩
      exact fun u hu => (hothers u hu).trans (move_other hu)

/-- So nobody waits in vain: a thread inside can leave, and one that waits for a
free lock can enter and leave, if what it does is defined. -/
theorem finish (himpl : S.Implements apply) (h : (system ι S v₀).Reachable s) {op : ω} {v : σ}
    (ht : (∃ l, s.place t = .inside op l) ∨ s.flag = false ∧ s.place t = .waiting op)
    (hdone : replay apply v₀ (s.done ++ [(t, op)]) = some v) :
    ∃ s', (system ι S v₀).Steps s s' ∧ s'.flag = false ∧ s'.value = v
      ∧ s'.done = s.done ++ [(t, op)] ∧ ∀ u ≠ t, s'.place u = s.place u := by
  have hinv := inv_reachable himpl h
  rcases ht with ⟨l, ht⟩ | ⟨hflag, ht⟩
  · obtain ⟨w, hw, hends⟩ := hinv.way t op l ht
    rw [replay_append, hw, Option.bind_some] at hdone
    rw [hdone] at hends
    exact leave hends ht
  · have hvalue := (hinv.free hflag).2
    rw [replay_append, hvalue, Option.bind_some] at hdone
    have hends := himpl op s.value
    rw [hdone] at hends
    have hstep : Step S s { s.move t (.inside op (some (S.enter op))) with flag := true } :=
      .acquire ht hflag
    have hends : S.Ends (some (S.enter op))
        { s.move t (.inside op (some (S.enter op))) with flag := true }.value (some v) := hends
    obtain ⟨s', hrun, hfree, hvalue, hdone, hothers⟩ := leave hends move_self
    exact ⟨s', .head hstep hrun, hfree, hvalue, hdone,
      fun u hu => (hothers u hu).trans (move_other hu)⟩

end Guarded

end DistributAr.Lib
