/-
# `DistributAr.FreeQueue` — the lock-free queue, step by step

One thread pushes, one thread pops, and each works with a copy of the other's
index that may be out of date by the time it is used.  Every access to shared
memory is a step of its own:

| `push`                    | `pop`                       |
|---------------------------|-----------------------------|
| `in = ain.load()`         | `out = aout.load()`         |
| `out = aout.load()`       | `in = ain.load()`           |
| full: return false        | empty: return false         |
| `buff[in] = val`          | `val = buff[out]`           |
| `ain.store(nextIn)`       | `aout.store(out)`           |

An index is a `Fin SIZE`: both are only ever assigned remainders by `SIZE`.

What was pushed and popped so far is recorded in the state; a push counts from
its store of `ain`, a pop from its store of `aout`.  The abstract queue is what
was pushed and not popped, and `Inv` says where in the ring it lies.
-/
import DistributAr.Lib.Ring
import DistributAr.Lib.System
import Mathlib.Logic.Function.Basic

namespace DistributAr

open Lib Ring

/-- Where the producer stands in `push`, with its local variables.  `queued` is
not one of them: the length of the queue when `aout` was loaded. -/
inductive PushState (T : Type*) (SIZE : Nat) where
  | idle
  | loadedIn (val : T) (ain : Fin SIZE)
  | loadedOut (val : T) (ain aout : Fin SIZE) (queued : Nat)
  | written (val : T) (ain : Fin SIZE)

/-- Where the consumer stands in `pop`. -/
inductive PopState (T : Type*) (SIZE : Nat) where
  | idle
  | loadedOut (aout : Fin SIZE)
  | loadedIn (aout ain : Fin SIZE) (queued : Nat)
  | read (val : T) (aout : Fin SIZE)

/-- A `FreeQueue<T, SIZE>` with its two threads, and what they pushed and popped. -/
structure FreeQueue (T : Type*) (SIZE : Nat) where
  ain : Fin SIZE
  buff : Fin SIZE → T
  aout : Fin SIZE
  producer : PushState T SIZE
  consumer : PopState T SIZE
  pushed : List T
  popped : List T

namespace FreeQueue

variable {T : Type*} {SIZE : Nat} [NeZero SIZE]

/-- How many elements are queued. -/
def queued (s : FreeQueue T SIZE) : Nat := s.pushed.length - s.popped.length

/-- The steps of the two threads, in any order. -/
inductive Step : FreeQueue T SIZE → FreeQueue T SIZE → Prop
  | pushLoadIn {s : FreeQueue T SIZE} (val : T) :
      s.producer = .idle →
      Step s { s with producer := .loadedIn val s.ain }
  | pushLoadOut {s : FreeQueue T SIZE} {val : T} {ain : Fin SIZE} :
      s.producer = .loadedIn val ain →
      Step s { s with producer := .loadedOut val ain s.aout s.queued }
  /-- `if(nextIn == out) { return false; }` -/
  | pushFull {s : FreeQueue T SIZE} {val : T} {ain aout : Fin SIZE} {queued : Nat} :
      s.producer = .loadedOut val ain aout queued → next ain = aout →
      Step s { s with producer := .idle }
  | pushWrite {s : FreeQueue T SIZE} {val : T} {ain aout : Fin SIZE} {queued : Nat} :
      s.producer = .loadedOut val ain aout queued → next ain ≠ aout →
      Step s { s with buff := Function.update s.buff ain val, producer := .written val ain }
  /-- `ain.store(nextIn); return true;` -/
  | pushStoreIn {s : FreeQueue T SIZE} {val : T} {ain : Fin SIZE} :
      s.producer = .written val ain →
      Step s { s with ain := next ain, producer := .idle, pushed := s.pushed ++ [val] }
  | popLoadOut {s : FreeQueue T SIZE} :
      s.consumer = .idle →
      Step s { s with consumer := .loadedOut s.aout }
  | popLoadIn {s : FreeQueue T SIZE} {aout : Fin SIZE} :
      s.consumer = .loadedOut aout →
      Step s { s with consumer := .loadedIn aout s.ain s.queued }
  /-- `if( in == out ) { return false; }` -/
  | popEmpty {s : FreeQueue T SIZE} {aout ain : Fin SIZE} {queued : Nat} :
      s.consumer = .loadedIn aout ain queued → ain = aout →
      Step s { s with consumer := .idle }
  | popRead {s : FreeQueue T SIZE} {aout ain : Fin SIZE} {queued : Nat} :
      s.consumer = .loadedIn aout ain queued → ain ≠ aout →
      Step s { s with consumer := .read (s.buff aout) aout }
  /-- `aout.store(out); return true;` -/
  | popStoreOut {s : FreeQueue T SIZE} {val : T} {aout : Fin SIZE} :
      s.consumer = .read val aout →
      Step s { s with aout := next aout, consumer := .idle, popped := s.popped ++ [val] }

/-- Both indices are 0, and nothing has been called yet. -/
def Initial (s : FreeQueue T SIZE) : Prop :=
  s.ain = slot SIZE 0 ∧ s.aout = slot SIZE 0 ∧ s.producer = .idle ∧ s.consumer = .idle
    ∧ s.pushed = [] ∧ s.popped = []

def system (T : Type*) (SIZE : Nat) [NeZero SIZE] : System (FreeQueue T SIZE) where
  init := Initial
  step := Step

/-! ## The invariant -/

/-- The producer's copies: `ain` is its own; `aout` is where the consumer once
was, and the queue was as long as the distance then. -/
def PushState.Ok (s : FreeQueue T SIZE) : PushState T SIZE → Prop
  | .idle => True
  | .loadedIn _ ain => ain = s.ain
  | .loadedOut _ ain aout queued => ain = s.ain ∧ ∃ c ≤ s.popped.length,
      aout = slot SIZE c ∧ queued = s.pushed.length - c ∧ s.pushed.length < c + SIZE
  | .written val ain => ain = s.ain ∧ s.buff ain = val
      ∧ s.pushed.length + 1 < s.popped.length + SIZE

/-- The consumer's copies: `aout` is its own; `ain` is where the producer once
was, and the queue was as long as the distance then. -/
def PopState.Ok (s : FreeQueue T SIZE) : PopState T SIZE → Prop
  | .idle => True
  | .loadedOut aout => aout = s.aout
  | .loadedIn aout ain queued => aout = s.aout ∧ ∃ p, s.popped.length ≤ p ∧ p ≤ s.pushed.length
      ∧ ain = slot SIZE p ∧ queued = p - s.popped.length
  | .read val aout => aout = s.aout ∧ s.pushed[s.popped.length]? = some val

/-- The elements popped are the first ones pushed, the queued ones lie in the
slots from `aout` to `ain`, and at least one slot is free. -/
structure Inv (s : FreeQueue T SIZE) : Prop where
  popped : s.popped <+: s.pushed
  room : s.pushed.length < s.popped.length + SIZE
  ain : s.ain = slot SIZE s.pushed.length
  aout : s.aout = slot SIZE s.popped.length
  slots : ∀ k, s.popped.length ≤ k → k < s.pushed.length →
    s.pushed[k]? = some (s.buff (slot SIZE k))
  producer : PushState.Ok s s.producer
  consumer : PopState.Ok s s.consumer

variable {s t : FreeQueue T SIZE}

theorem inv_initial (h : s.Initial) : s.Inv := by
  obtain ⟨hain, haout, hproducer, hconsumer, hpushed, hpopped⟩ := h
  have hpos := Nat.pos_of_ne_zero (NeZero.ne SIZE)
  refine ⟨by simp [hpopped], ?_, by rw [hain, hpushed]; rfl, by rw [haout, hpopped]; rfl,
    ?_, by rw [hproducer]; trivial, by rw [hconsumer]; trivial⟩
  · rw [hpushed, hpopped]
    simpa using hpos
  · intro k _ hk
    rw [hpushed] at hk
    exact absurd hk (Nat.not_lt_zero k)

theorem Inv.length_le (hinv : s.Inv) : s.popped.length ≤ s.pushed.length := hinv.popped.length_le

/-- The slot that `ain` points at holds nothing that is queued. -/
theorem Inv.slot_ne_ain (hinv : s.Inv) {k : Nat} (hlo : s.popped.length ≤ k)
    (hhi : k < s.pushed.length) : slot SIZE k ≠ s.ain := by
  intro heq
  rw [hinv.ain] at heq
  have hroom := hinv.room
  have hkey := slot_inj (by omega) (by omega) heq
  omega

/-- The steps of `push`. -/
theorem inv_pushWrite (hinv : s.Inv) {val : T} {ain aout : Fin SIZE} {queued : Nat}
    (hp : s.producer = .loadedOut val ain aout queued) (hfull : next ain ≠ aout) :
    Inv { s with buff := Function.update s.buff ain val, producer := .written val ain } := by
  have hok := hinv.producer
  rw [hp] at hok
  obtain ⟨rfl, c, hc, rfl, -, hroom⟩ := hok
  have hlt : s.pushed.length + 1 < c + SIZE := by
    by_contra hge
    refine hfull ?_
    rw [hinv.ain, next_slot]
    have hlast : s.pushed.length + 1 = c + SIZE := by omega
    rw [hlast]
    exact Fin.ext (Nat.add_mod_right c SIZE)
  refine ⟨hinv.popped, hinv.room, hinv.ain, hinv.aout, ?_,
    ⟨rfl, Function.update_self .., ?_⟩, hinv.consumer⟩
  · intro k hlo hhi
    have hother : Function.update s.buff s.ain val (slot SIZE k) = s.buff (slot SIZE k) :=
      Function.update_of_ne (hinv.slot_ne_ain hlo hhi) ..
    dsimp only
    rw [hother]
    exact hinv.slots k hlo hhi
  · show s.pushed.length + 1 < s.popped.length + SIZE
    omega

theorem inv_pushStoreIn (hinv : s.Inv) {val : T} {ain : Fin SIZE}
    (hp : s.producer = .written val ain) :
    Inv { s with ain := next ain, producer := .idle, pushed := s.pushed ++ [val] } := by
  have hok := hinv.producer
  rw [hp] at hok
  obtain ⟨rfl, hval, hroom⟩ := hok
  have hlen : (s.pushed ++ [val]).length = s.pushed.length + 1 := by simp
  refine ⟨hinv.popped.trans (List.prefix_append _ _), ?_, ?_, hinv.aout, ?_,
    trivial, ?_⟩
  · show (s.pushed ++ [val]).length < s.popped.length + SIZE
    omega
  · show next s.ain = slot SIZE (s.pushed ++ [val]).length
    rw [hlen, hinv.ain, next_slot]
  · intro k hlo hhi
    have hhi : k < (s.pushed ++ [val]).length := hhi
    rw [hlen] at hhi
    by_cases hk : k = s.pushed.length
    · subst hk
      show (s.pushed ++ [val])[s.pushed.length]? = _
      rw [← hinv.ain, hval]
      simp
    · have hlt : k < s.pushed.length := by omega
      show (s.pushed ++ [val])[k]? = _
      rw [List.getElem?_append_left hlt]
      exact hinv.slots k hlo hlt
  · have hold := hinv.consumer
    revert hold
    show PopState.Ok s s.consumer → PopState.Ok _ s.consumer
    cases s.consumer with
    | idle => exact id
    | loadedOut aout => exact id
    | loadedIn aout ain queued =>
        rintro ⟨haout, p, hlo, hhi, hain, hqueued⟩
        refine ⟨haout, p, hlo, ?_, hain, hqueued⟩
        show p ≤ (s.pushed ++ [val]).length
        omega
    | read val' aout =>
        rintro ⟨haout, hread⟩
        refine ⟨haout, ?_⟩
        show (s.pushed ++ [val])[s.popped.length]? = some val'
        obtain ⟨hlt, -⟩ := List.getElem?_eq_some_iff.mp hread
        rw [List.getElem?_append_left hlt]
        exact hread

/-- The steps of `pop`. -/
theorem inv_popRead (hinv : s.Inv) {aout ain : Fin SIZE} {queued : Nat}
    (hc : s.consumer = .loadedIn aout ain queued) (hempty : ain ≠ aout) :
    Inv { s with consumer := .read (s.buff aout) aout } := by
  have hok := hinv.consumer
  rw [hc] at hok
  obtain ⟨rfl, p, hlo, hhi, rfl, -⟩ := hok
  have hne : p ≠ s.popped.length := by
    rintro rfl
    exact hempty hinv.aout.symm
  refine ⟨hinv.popped, hinv.room, hinv.ain, hinv.aout, hinv.slots, hinv.producer, rfl, ?_⟩
  show s.pushed[s.popped.length]? = some (s.buff s.aout)
  rw [hinv.aout]
  exact hinv.slots _ (le_refl _) (by omega)

theorem inv_popStoreOut (hinv : s.Inv) {val : T} {aout : Fin SIZE}
    (hc : s.consumer = .read val aout) :
    Inv { s with aout := next aout, consumer := .idle, popped := s.popped ++ [val] } := by
  have hok := hinv.consumer
  rw [hc] at hok
  obtain ⟨rfl, hread⟩ := hok
  obtain ⟨hlt, -⟩ := List.getElem?_eq_some_iff.mp hread
  have hlen : (s.popped ++ [val]).length = s.popped.length + 1 := by simp
  have hroom := hinv.room
  refine ⟨?_, ?_, hinv.ain, ?_, ?_, ?_, trivial⟩
  · show s.popped ++ [val] <+: s.pushed
    obtain ⟨rest, hrest⟩ := hinv.popped
    rw [← hrest, List.getElem?_append_right (le_refl _), Nat.sub_self] at hread
    cases rest with
    | nil => cases hread
    | cons v rest =>
        cases hread
        exact ⟨rest, by rw [← hrest, List.append_assoc]; rfl⟩
  · show s.pushed.length < (s.popped ++ [val]).length + SIZE
    omega
  · show next s.aout = slot SIZE (s.popped ++ [val]).length
    rw [hlen, hinv.aout, next_slot]
  · intro k hlo hhi
    have hlo : (s.popped ++ [val]).length ≤ k := hlo
    exact hinv.slots k (by omega) hhi
  · have hold := hinv.producer
    revert hold
    show PushState.Ok s s.producer → PushState.Ok _ s.producer
    cases s.producer with
    | idle => exact id
    | loadedIn val' ain => exact id
    | loadedOut val' ain aout queued =>
        rintro ⟨hain, c, hle, haout, hqueued, hc⟩
        refine ⟨hain, c, ?_, haout, hqueued, hc⟩
        show c ≤ (s.popped ++ [val]).length
        omega
    | written val' ain =>
        rintro ⟨hain, hbuff, hlt'⟩
        refine ⟨hain, hbuff, ?_⟩
        show s.pushed.length + 1 < (s.popped ++ [val]).length + SIZE
        omega

theorem inv_step (s t : FreeQueue T SIZE) (hinv : s.Inv) (h : Step s t) : t.Inv := by
  have hroom := hinv.room
  cases h with
  | pushLoadIn val hp => exact { hinv with producer := rfl }
  | pushLoadOut hp =>
      have hok := hinv.producer
      rw [hp] at hok
      exact { hinv with
        producer := ⟨hok, s.popped.length, le_refl _, hinv.aout, rfl, hroom⟩ }
  | pushFull hp hfull => exact { hinv with producer := trivial }
  | pushWrite hp hfull => exact inv_pushWrite hinv hp hfull
  | pushStoreIn hp => exact inv_pushStoreIn hinv hp
  | popLoadOut hc => exact { hinv with consumer := rfl }
  | popLoadIn hc =>
      have hok := hinv.consumer
      rw [hc] at hok
      exact { hinv with
        consumer := ⟨hok, s.pushed.length, hinv.length_le, le_refl _, hinv.ain, rfl⟩ }
  | popEmpty hc hempty => exact { hinv with consumer := trivial }
  | popRead hc hempty => exact inv_popRead hinv hc hempty
  | popStoreOut hc => exact inv_popStoreOut hinv hc

theorem inv_reachable (h : (system T SIZE).Reachable s) : s.Inv :=
  System.invariant (fun _ => inv_initial) inv_step h

/-! ## A bounded FIFO -/

/-- The producer has found room and writes the slot `i` next. -/
def Writes (s : FreeQueue T SIZE) (i : Fin SIZE) : Prop :=
  ∃ val aout queued, s.producer = .loadedOut val i aout queued ∧ next i ≠ aout

/-- The consumer has found an element and reads the slot `i` next. -/
def Reads (s : FreeQueue T SIZE) (i : Fin SIZE) : Prop :=
  ∃ ain queued, s.consumer = .loadedIn i ain queued ∧ ain ≠ i

/-- What is popped are the elements pushed, in order, and at most `SIZE - 1` are
queued; the slot about to be read is not the one about to be written; a push
fails only on a queue that was full when it loaded `aout`, and a pop only on one
that was empty when it loaded `ain`. -/
theorem freeQueue_fifo (h : (system T SIZE).Reachable s) :
    s.popped <+: s.pushed ∧ s.queued ≤ SIZE - 1
      ∧ (∀ i j, s.Writes i → s.Reads j → i ≠ j)
      ∧ (∀ val ain aout queued, s.producer = .loadedOut val ain aout queued → next ain = aout →
          queued = SIZE - 1)
      ∧ ∀ aout ain queued, s.consumer = .loadedIn aout ain queued → ain = aout →
          queued = 0 := by
  have hinv := inv_reachable h
  have hroom := hinv.room
  have hlen := hinv.length_le
  refine ⟨hinv.popped, ?_, ?_, ?_, ?_⟩
  · show s.pushed.length - s.popped.length ≤ SIZE - 1
    omega
  · rintro i j ⟨val, aout, queued, hp, -⟩ ⟨ain, queued', hc, hne⟩ rfl
    have hproducer := hinv.producer
    have hconsumer := hinv.consumer
    rw [hp] at hproducer
    rw [hc] at hconsumer
    obtain ⟨hain, -⟩ := hproducer
    obtain ⟨haout, p, hlo, hhi, rfl, -⟩ := hconsumer
    by_cases hempty : s.popped.length = s.pushed.length
    · have hp' : p = s.popped.length := by omega
      exact hne (by rw [hp', haout, hinv.aout])
    · refine hinv.slot_ne_ain (le_refl _) (by omega) ?_
      rw [← hinv.aout, ← haout, hain]
  · intro val ain aout queued hp hfull
    have hproducer := hinv.producer
    rw [hp] at hproducer
    obtain ⟨hain, c, hc, haout, hqueued, hclose⟩ := hproducer
    rw [hain, hinv.ain, next_slot, haout] at hfull
    have hkey : slot SIZE (s.pushed.length + 1) = slot SIZE (c + SIZE) :=
      hfull.trans (Fin.ext (Nat.add_mod_right c SIZE).symm)
    have hpos := Nat.pos_of_ne_zero (NeZero.ne SIZE)
    have hlast := slot_inj (by omega) (by omega) hkey
    omega
  · intro aout ain queued hc hempty
    have hconsumer := hinv.consumer
    rw [hc] at hconsumer
    obtain ⟨haout, p, hlo, hhi, hain, hqueued⟩ := hconsumer
    rw [hain, haout, hinv.aout] at hempty
    have hlast := slot_inj hlo (by omega) hempty.symm
    omega

/-- A queue of four slots with an element pushed, and the consumer about to read
it while the producer is about to push another. -/
theorem freeQueue_fifo_busy : ∃ s : FreeQueue Nat 4, (system Nat 4).Reachable s
    ∧ s.Writes 1 ∧ s.Reads 0 ∧ s.popped <+: s.pushed := by
  have h₀ : (system Nat 4).Reachable ⟨0, fun _ => 0, 0, .idle, .idle, [], []⟩ :=
    .init ⟨rfl, rfl, rfl, rfl, rfl, rfl⟩
  have h₁ := h₀.step (Step.pushLoadIn 7 rfl)
  have h₂ := h₁.step (Step.pushLoadOut rfl)
  have h₃ := h₂.step (Step.pushWrite rfl (by decide))
  have h₄ := h₃.step (Step.pushStoreIn rfl)
  have h₅ := h₄.step (Step.popLoadOut rfl)
  have h₆ := h₅.step (Step.popLoadIn rfl)
  have h₇ := h₆.step (Step.pushLoadIn 8 rfl)
  have h₈ := h₇.step (Step.pushLoadOut rfl)
  exact ⟨_, h₈, ⟨8, 0, 1, rfl, by decide⟩, ⟨1, 1, rfl, by decide⟩, (freeQueue_fifo h₈).1⟩

end FreeQueue

end DistributAr
