/-
# `DistributAr.BlockingQueue` — the queue that a server sleeps on

Any number of threads push and pop.  Each call holds the mutex of the queue while
it works; `pop` gives it up while it sleeps on the condition variable, and has to
get it again when it is woken.

| `push`            | `pop`                            | `popNoBlock`                 |
|-------------------|----------------------------------|------------------------------|
| lock `mut`        | lock `mut`                       | lock `mut`                   |
| `q.push(val)`     | `while(q.empty())` `cv.wait`     | `if(q.empty())` return false |
| `cv.notify_one()` | `val = q.front(); q.pop()`       | `val = q.front(); q.pop()`   |
| unlock `mut`      | unlock `mut`                     | unlock `mut`                 |

`cv.wait` may also return with nobody having notified: that is the step
`spurious`.  The steps that a thread takes by itself inside its call are the
`Turn`s.

What was pushed and popped, and by whom, is recorded in the state, in the order
in which `q` saw it.
-/
import DistributAr.Lib.System
import Mathlib.Algebra.BigOperators.Group.Finset.Piecewise
import Mathlib.Algebra.Order.BigOperators.Group.Finset
import Mathlib.Data.Fintype.Basic

namespace DistributAr

open Lib

/-- Where a thread is in the code of the queue. -/
inductive QueueAt (T : Type*) where
  | outside
  | pushLock (val : T)
  | pushBack (val : T)
  | pushNotify
  | popLock
  | popTest
  | popAsleep
  | popAwake
  | popFront
  | tryLock
  | tryTest
  | tryFront
  /-- All is done but to unlock; this is what the call returns. -/
  | unlock (ret : Option T)

namespace QueueAt

variable {T : Type*}

/-- Where a thread that waits for the mutex goes on when it has got it. -/
def locked : QueueAt T → Option (QueueAt T)
  | .pushLock val => some (.pushBack val)
  | .popLock | .popAwake => some .popTest
  | .tryLock => some .tryTest
  | _ => none

/-- The thread holds the mutex. -/
def holds : QueueAt T → Bool
  | .pushBack _ | .pushNotify | .popTest | .popFront | .tryTest | .tryFront | .unlock _ => true
  | _ => false

/-- The thread is about to read the front of the queue. -/
def fronts : QueueAt T → Bool
  | .popFront | .tryFront => true
  | _ => false

/-- The thread will pop, or wake another that will. -/
def busy : QueueAt T → Bool
  | .pushNotify | .popLock | .popAwake | .popTest | .popFront => true
  | _ => false

/-- How many turns the thread, and one that it wakes, can take at most. -/
def weight : QueueAt T → Nat
  | .outside | .popAsleep => 0
  | .unlock _ => 1
  | .popFront | .tryFront => 2
  | .popTest | .tryTest => 3
  | .popLock | .popAwake | .tryLock => 4
  | .pushNotify => 6
  | .pushBack _ => 7
  | .pushLock _ => 8

end QueueAt

/-- A `BlockingQueue<T>` with its threads, and what they pushed and popped. -/
structure BlockingQueue (ι T : Type*) where
  mutex : Option ι
  q : List T
  place : ι → QueueAt T
  pushed : List (ι × T)
  popped : List (ι × T)

namespace BlockingQueue

variable {ι T : Type*} [DecidableEq ι]

/-- One thread goes somewhere else. -/
def go (s : BlockingQueue ι T) (t : ι) (p : QueueAt T) : BlockingQueue ι T :=
  { s with place := Function.update s.place t p }

/-- `val = q.front(); q.pop();` -/
def take (s : BlockingQueue ι T) (t : ι) (val : T) (rest : List T) : BlockingQueue ι T :=
  { s.go t (.unlock (some val)) with q := rest, popped := s.popped ++ [(t, val)] }

/-- What a thread does by itself inside its call. -/
inductive Turn : BlockingQueue ι T → BlockingQueue ι T → Prop
  | lock {s : BlockingQueue ι T} {t : ι} {p : QueueAt T} :
      (s.place t).locked = some p → s.mutex = none →
      Turn s { s.go t p with mutex := some t }
  | pushBack {s : BlockingQueue ι T} {t : ι} {val : T} :
      s.place t = .pushBack val →
      Turn s { s.go t .pushNotify with q := s.q ++ [val], pushed := s.pushed ++ [(t, val)] }
  /-- `cv.notify_one()`: somebody wakes up, if somebody sleeps. -/
  | notify {s : BlockingQueue ι T} {t u : ι} :
      s.place t = .pushNotify → s.place u = .popAsleep →
      Turn s ((s.go u .popAwake).go t (.unlock none))
  | notifyNobody {s : BlockingQueue ι T} {t : ι} :
      s.place t = .pushNotify → (∀ u, s.place u ≠ .popAsleep) →
      Turn s (s.go t (.unlock none))
  /-- `cv.wait(lock)` -/
  | wait {s : BlockingQueue ι T} {t : ι} :
      s.place t = .popTest → s.q = [] →
      Turn s { s.go t .popAsleep with mutex := none }
  | popSome {s : BlockingQueue ι T} {t : ι} :
      s.place t = .popTest → s.q ≠ [] → Turn s (s.go t .popFront)
  | popFront {s : BlockingQueue ι T} {t : ι} {val : T} {rest : List T} :
      s.place t = .popFront → s.q = val :: rest → Turn s (s.take t val rest)
  /-- `if (q.empty()){ return false; }` -/
  | tryEmpty {s : BlockingQueue ι T} {t : ι} :
      s.place t = .tryTest → s.q = [] → Turn s (s.go t (.unlock none))
  | trySome {s : BlockingQueue ι T} {t : ι} :
      s.place t = .tryTest → s.q ≠ [] → Turn s (s.go t .tryFront)
  | tryFront {s : BlockingQueue ι T} {t : ι} {val : T} {rest : List T} :
      s.place t = .tryFront → s.q = val :: rest → Turn s (s.take t val rest)
  | unlock {s : BlockingQueue ι T} {t : ι} {ret : Option T} :
      s.place t = .unlock ret → Turn s { s.go t .outside with mutex := none }

/-- The steps of the threads, in any order: calls, turns, and spurious wakeups. -/
inductive Step : BlockingQueue ι T → BlockingQueue ι T → Prop
  | turn {s s' : BlockingQueue ι T} : Turn s s' → Step s s'
  | push {s : BlockingQueue ι T} {t : ι} (val : T) :
      s.place t = .outside → Step s (s.go t (.pushLock val))
  | pop {s : BlockingQueue ι T} {t : ι} :
      s.place t = .outside → Step s (s.go t .popLock)
  | popNoBlock {s : BlockingQueue ι T} {t : ι} :
      s.place t = .outside → Step s (s.go t .tryLock)
  | spurious {s : BlockingQueue ι T} {t : ι} :
      s.place t = .popAsleep → Step s (s.go t .popAwake)

/-- An empty queue, and nobody there. -/
def Initial (s : BlockingQueue ι T) : Prop := s = ⟨none, [], fun _ => .outside, [], []⟩

def system (ι T : Type*) [DecidableEq ι] : System (BlockingQueue ι T) where
  init := Initial
  step := Step

/-! ## The invariant -/

/-- Who sleeps can be sure: for each of `n` elements there is a thread that will
pop, or wake one that will. -/
def Covered (place : ι → QueueAt T) (n : Nat) : Prop :=
  (∃ t, place t = .popAsleep) → ∃ A : Finset ι, (∀ t ∈ A, (place t).busy = true) ∧ n ≤ A.card

/-- The mutex belongs to the one thread that works on the queue; the queue is what
was pushed and not popped; a value is returned to who popped it; there is a front
for who reads it; and no wakeup is lost. -/
structure Inv (s : BlockingQueue ι T) : Prop where
  mutex : ∀ t, s.mutex = some t ↔ (s.place t).holds = true
  fifo : s.pushed.map Prod.snd = s.popped.map Prod.snd ++ s.q
  ret : ∀ t val, s.place t = .unlock (some val) → s.popped.getLast? = some (t, val)
  front : ∀ t, (s.place t).fronts = true → s.q ≠ []
  covered : Covered s.place s.q.length

variable {s s' : BlockingQueue ι T} {t u : ι} {p : QueueAt T} {place : ι → QueueAt T} {n m : Nat}

/-- A thread that moved without going to sleep was not the sleeper. -/
theorem asleep_update (hp : p ≠ .popAsleep) (h : ∃ u, Function.update place t p u = .popAsleep) :
    ∃ u, u ≠ t ∧ place u = .popAsleep := by
  obtain ⟨u, hu⟩ := h
  have hne : u ≠ t := by
    rintro rfl
    rw [Function.update_self] at hu
    exact hp hu
  exact ⟨u, hne, (Function.update_of_ne hne ..).symm.trans hu⟩

/-- A busy thread has not become another. -/
theorem Covered.keep (h : Covered place n) (hp : p ≠ .popAsleep)
    (hbusy : (place t).busy = true → p.busy = true) (hm : m ≤ n) :
    Covered (Function.update place t p) m := by
  intro hsleeper
  obtain ⟨u, -, hu⟩ := asleep_update hp hsleeper
  obtain ⟨A, hA, hcard⟩ := h ⟨u, hu⟩
  refine ⟨A, ?_, hm.trans hcard⟩
  intro v hv
  by_cases hvt : v = t
  · subst hvt
    rw [Function.update_self]
    exact hbusy (hA v hv)
  · rw [Function.update_of_ne hvt]
    exact hA v hv

/-- One more thread is busy, for one more element. -/
theorem Covered.add (h : Covered place n) (hidle : (place t).busy = false)
    (hbusy : p.busy = true) : Covered (Function.update place t p) (n + 1) := by
  intro hsleeper
  have hp : p ≠ .popAsleep := by
    rintro rfl
    exact nomatch hbusy
  obtain ⟨u, -, hu⟩ := asleep_update hp hsleeper
  obtain ⟨A, hA, hcard⟩ := h ⟨u, hu⟩
  have hnew : t ∉ A := fun ht => nomatch hidle.symm.trans (hA t ht)
  refine ⟨insert t A, ?_, ?_⟩
  · intro v hv
    rcases Finset.mem_insert.mp hv with rfl | hmem
    · rw [Function.update_self]
      exact hbusy
    · have hvt : v ≠ t := by
        rintro rfl
        exact hnew hmem
      rw [Function.update_of_ne hvt]
      exact hA v hmem
  · rw [Finset.card_insert_of_notMem hnew]
    omega

/-- One thread less is busy, for one element less. -/
theorem Covered.remove (h : Covered place n) (hp : p ≠ .popAsleep) :
    Covered (Function.update place t p) (n - 1) := by
  intro hsleeper
  obtain ⟨u, -, hu⟩ := asleep_update hp hsleeper
  obtain ⟨A, hA, hcard⟩ := h ⟨u, hu⟩
  refine ⟨A.erase t, ?_, ?_⟩
  · intro v hv
    obtain ⟨hvt, hv⟩ := Finset.mem_erase.mp hv
    rw [Function.update_of_ne hvt]
    exact hA v hv
  · have herase := Finset.pred_card_le_card_erase (a := t) (s := A)
    omega

omit [DecidableEq ι] in
theorem covered_zero : Covered place 0 := by
  intro _
  exact ⟨∅, fun t ht => absurd ht (Finset.notMem_empty t), Nat.zero_le _⟩

omit [DecidableEq ι] in
theorem inv_initial (h : Initial s) : s.Inv := by
  cases h
  refine ⟨?_, rfl, ?_, ?_, covered_zero⟩
  · intro t
    exact ⟨nofun, nofun⟩
  · intro t val h
    exact nomatch h
  · intro t h
    exact nomatch h

omit [DecidableEq ι] in
/-- Who reads the front holds the mutex. -/
theorem holds_of_fronts (h : p.fronts = true) : p.holds = true := by
  cases p <;> first | rfl | exact nomatch h

omit [DecidableEq ι] in
/-- While a thread holds the mutex, nobody else reads the front. -/
theorem Inv.front_of_holds (h : s.Inv) (ht : (s.place t).holds = true) (hu : u ≠ t) :
    (s.place u).fronts = false := by
  cases hfronts : (s.place u).fronts with
  | false => rfl
  | true =>
      have hmine := (h.mutex t).mpr ht
      have hother := (h.mutex u).mpr (holds_of_fronts hfronts)
      exact absurd (Option.some.inj (hother.symm.trans hmine)) hu

/-- What there is to see to when one thread moves. -/
theorem Inv.update (h : s.Inv) {owner : Option ι} {q : List T} {pushed popped : List (ι × T)}
    (hself : owner = some t ↔ p.holds = true)
    (hothers : ∀ u ≠ t, owner = some u ↔ s.mutex = some u)
    (hfifo : pushed.map Prod.snd = popped.map Prod.snd ++ q)
    (hret : ∀ val, p = .unlock (some val) → popped.getLast? = some (t, val))
    (hrets : ∀ u ≠ t, (s.place u).holds = true → popped = s.popped)
    (hfront : p.fronts = true → q ≠ [])
    (hfronts : ∀ u ≠ t, (s.place u).fronts = true → q ≠ [])
    (hcovered : Covered (Function.update s.place t p) q.length) :
    Inv ⟨owner, q, Function.update s.place t p, pushed, popped⟩ := by
  refine ⟨?_, hfifo, ?_, ?_, hcovered⟩
  · exact (Function.forall_update_iff _ fun u (p : QueueAt T) =>
      owner = some u ↔ p.holds = true).mpr
      ⟨hself, fun u hu => (hothers u hu).trans (h.mutex u)⟩
  · refine (Function.forall_update_iff _ fun u (p : QueueAt T) =>
      ∀ val, p = .unlock (some val) → popped.getLast? = some (u, val)).mpr ⟨hret, ?_⟩
    intro u hu val hp
    rw [hrets u hu (by rw [hp]; rfl)]
    exact h.ret u val hp
  · exact (Function.forall_update_iff _ fun _ (p : QueueAt T) =>
      p.fronts = true → q ≠ []).mpr
      ⟨hfront, hfronts⟩

/-- A thread that does not touch the queue and stays on its side of the mutex. -/
theorem Inv.go (h : s.Inv) (hholds : (s.place t).holds = p.holds)
    (hret : ∀ val, p ≠ .unlock (some val)) (hfront : p.fronts = true → s.q ≠ [])
    (hcovered : Covered (Function.update s.place t p) s.q.length) : (s.go t p).Inv := by
  refine h.update ?_ (fun _ _ => Iff.rfl) h.fifo (fun val hp => absurd hp (hret val))
    (fun _ _ _ => rfl) hfront (fun u _ hu => h.front u hu) hcovered
  rw [← hholds]
  exact h.mutex t

/-- A thread that leaves the mutex behind. -/
theorem Inv.release (h : s.Inv) (ht : (s.place t).holds = true) (hp : p.holds = false)
    (hcovered : Covered (Function.update s.place t p) s.q.length) :
    Inv { s.go t p with mutex := none } := by
  have hmine := (h.mutex t).mpr ht
  refine h.update ?_ ?_ h.fifo ?_ (fun _ _ _ => rfl) ?_ (fun u _ hu => h.front u hu) hcovered
  · rw [hp]
    exact ⟨nofun, nofun⟩
  · intro u hu
    rw [hmine]
    exact ⟨nofun, fun heq => absurd (Option.some.inj heq).symm hu⟩
  · rintro val rfl
    exact nomatch hp
  · intro hf
    exact nomatch hp.symm.trans (holds_of_fronts hf)

/-- A thread that takes the front away. -/
theorem Inv.take (h : s.Inv) (ht : (s.place t).fronts = true) {val : T} {rest : List T}
    (hq : s.q = val :: rest)
    (hcovered : Covered (Function.update s.place t (.unlock (some val))) rest.length) :
    (s.take t val rest).Inv := by
  have hholds := holds_of_fronts ht
  have hmine := (h.mutex t).mpr hholds
  refine h.update (iff_of_true hmine rfl) (fun _ _ => Iff.rfl) ?_ ?_ ?_ nofun ?_ hcovered
  · show s.pushed.map Prod.snd = _
    rw [h.fifo, hq, List.map_append, List.append_assoc]
    rfl
  · rintro _ ⟨⟩
    exact List.getLast?_concat
  · intro u hu hother
    exact absurd (Option.some.inj (((h.mutex u).mpr hother).symm.trans hmine)) hu
  · intro u hu hfronts
    exact nomatch hfronts.symm.trans (h.front_of_holds hholds hu)

omit [DecidableEq ι] in
/-- Who waits for the mutex goes on to hold it, without a look at the queue. -/
theorem locked_eq_some {r : QueueAt T} (h : r.locked = some p) :
    p.holds = true ∧ p.fronts = false ∧ p ≠ .popAsleep ∧ (∀ ret, p ≠ .unlock ret)
      ∧ (r.busy = true → p.busy = true) ∧ p.weight < r.weight := by
  cases r with
  | pushLock val =>
      cases h
      exact ⟨rfl, rfl, nofun, nofun, nofun, Nat.lt_succ_self 7⟩
  | popLock =>
      cases h
      exact ⟨rfl, rfl, nofun, nofun, fun _ => rfl, Nat.lt_succ_self 3⟩
  | popAwake =>
      cases h
      exact ⟨rfl, rfl, nofun, nofun, fun _ => rfl, Nat.lt_succ_self 3⟩
  | tryLock =>
      cases h
      exact ⟨rfl, rfl, nofun, nofun, nofun, Nat.lt_succ_self 3⟩
  | _ => exact nomatch h

theorem Inv.lock (h : s.Inv) (ht : (s.place t).locked = some p) (hfree : s.mutex = none) :
    Inv { s.go t p with mutex := some t } := by
  obtain ⟨hholds, hfronts, hp, hret, hbusy, -⟩ := locked_eq_some ht
  refine h.update (iff_of_true rfl hholds) ?_ h.fifo (fun val heq => absurd heq (hret _))
    (fun _ _ _ => rfl) ?_ (fun u _ hu => h.front u hu) (h.covered.keep hp hbusy (le_refl _))
  · intro u hu
    rw [hfree]
    exact ⟨fun heq => absurd (Option.some.inj heq).symm hu, nofun⟩
  · intro hf
    exact nomatch hfronts.symm.trans hf

theorem Inv.pushBack (h : s.Inv) {val : T} (ht : s.place t = .pushBack val) :
    Inv { s.go t .pushNotify with q := s.q ++ [val], pushed := s.pushed ++ [(t, val)] } := by
  have hholds : (s.place t).holds = true := by
    rw [ht]
    rfl
  refine h.update (iff_of_true ((h.mutex t).mpr hholds) rfl) (fun _ _ => Iff.rfl) ?_ nofun
    (fun _ _ _ => rfl) nofun ?_ ?_
  · rw [List.map_append, h.fifo, List.append_assoc]
    rfl
  · intro u _ _
    exact List.append_ne_nil_of_right_ne_nil _ (List.cons_ne_nil _ _)
  · rw [List.length_append]
    exact h.covered.add (by rw [ht]; rfl) rfl

/-- The thread that is woken is one more that will pop, and the one that woke it
one less. -/
theorem Inv.notify (h : s.Inv) (ht : s.place t = .pushNotify) (hu : s.place u = .popAsleep) :
    ((s.go u .popAwake).go t (.unlock none)).Inv := by
  have hut : t ≠ u := by
    rintro rfl
    exact nomatch ht.symm.trans hu
  have hwoken : (s.go u .popAwake).Inv := by
    refine h.go ?_ nofun nofun (h.covered.keep nofun (fun _ => rfl) (le_refl _))
    rw [hu]
    rfl
  have ht' : (s.go u .popAwake).place t = .pushNotify := (Function.update_of_ne hut ..).trans ht
  refine hwoken.go (by rw [ht']; rfl) nofun nofun ?_
  have hmore : Covered (Function.update s.place u .popAwake) (s.q.length + 1) :=
    h.covered.add (by rw [hu]; rfl) rfl
  exact hmore.remove nofun

/-- What every step preserves. -/
theorem inv_turn (h : s.Inv) (hs : Turn s s') : s'.Inv := by
  cases hs with
  | lock ht hfree => exact h.lock ht hfree
  | pushBack ht => exact h.pushBack ht
  | notify ht hu => exact h.notify ht hu
  | notifyNobody ht hnone =>
      refine h.go (by rw [ht]; rfl) nofun nofun ?_
      intro hsleeper
      obtain ⟨u, -, hu⟩ := asleep_update (p := .unlock none) nofun hsleeper
      exact absurd hu (hnone u)
  | wait ht hq =>
      refine h.release (by rw [ht]; rfl) rfl ?_
      rw [hq]
      exact covered_zero
  | popSome ht hq =>
      exact h.go (by rw [ht]; rfl) nofun (fun _ => hq)
        (h.covered.keep nofun (fun _ => rfl) (le_refl _))
  | @popFront t val rest ht hq =>
      refine h.take (by rw [ht]; rfl) hq ?_
      have hless : Covered (Function.update s.place t (.unlock (some val))) (s.q.length - 1) :=
        h.covered.remove nofun
      rwa [hq] at hless
  | tryEmpty ht hq =>
      exact h.go (by rw [ht]; rfl) nofun nofun
        (h.covered.keep nofun (by rw [ht]; exact nofun) (le_refl _))
  | trySome ht hq =>
      exact h.go (by rw [ht]; rfl) nofun (fun _ => hq)
        (h.covered.keep nofun (by rw [ht]; exact nofun) (le_refl _))
  | tryFront ht hq =>
      refine h.take (by rw [ht]; rfl) hq (h.covered.keep nofun ?_ ?_)
      · rw [ht]
        exact nofun
      · rw [hq]
        exact Nat.le_succ _
  | unlock ht =>
      refine h.release (by rw [ht]; rfl) rfl (h.covered.keep nofun ?_ (le_refl _))
      rw [ht]
      exact nofun

theorem inv_step (s s' : BlockingQueue ι T) (h : s.Inv) (hs : Step s s') : s'.Inv := by
  cases hs with
  | turn hturn => exact inv_turn h hturn
  | push val ht =>
      exact h.go (by rw [ht]; rfl) nofun nofun
        (h.covered.keep nofun (by rw [ht]; exact nofun) (le_refl _))
  | pop ht =>
      exact h.go (by rw [ht]; rfl) nofun nofun
        (h.covered.keep nofun (by rw [ht]; exact nofun) (le_refl _))
  | popNoBlock ht =>
      exact h.go (by rw [ht]; rfl) nofun nofun
        (h.covered.keep nofun (by rw [ht]; exact nofun) (le_refl _))
  | spurious ht =>
      exact h.go (by rw [ht]; rfl) nofun nofun
        (h.covered.keep nofun (fun _ => rfl) (le_refl _))

theorem inv_reachable (h : (system ι T).Reachable s) : s.Inv :=
  System.invariant (fun _ => inv_initial) inv_step h

/-! ## A queue, whatever the threads do -/

/-- In any run: one thread at most works on the queue; what was pushed and not
popped is the queue, in order; what a call returns is what its thread was the last
to pop; and the front is only read where there is one. -/
theorem exactly_once (s : BlockingQueue ι T) (h : (system ι T).Reachable s) :
    (∀ t u, (s.place t).holds = true → (s.place u).holds = true → t = u)
      ∧ s.pushed.map Prod.snd = s.popped.map Prod.snd ++ s.q
      ∧ (∀ t val, s.place t = .unlock (some val) → s.popped.getLast? = some (t, val))
      ∧ ∀ t, (s.place t).fronts = true → s.q ≠ [] := by
  have hinv := inv_reachable h
  refine ⟨?_, hinv.fifo, hinv.ret, hinv.front⟩
  intro t u ht hu
  exact Option.some.inj (((hinv.mutex t).mpr ht).symm.trans ((hinv.mutex u).mpr hu))

/-- A thread sleeps, and another has pushed. -/
def besideFull : BlockingQueue Bool Nat where
  mutex := some true
  q := [5]
  place := fun
    | true => .pushNotify
    | false => .popAsleep
  pushed := [(true, 5)]
  popped := []

theorem besideFull_reached : (system Bool Nat).Reachable besideFull := by
  have h₀ : (system Bool Nat).Reachable _ := .init rfl
  have h₁ := h₀.step (.pop (t := false) rfl)
  have h₂ := h₁.step (.turn (.lock (t := false) rfl rfl))
  have h₃ := h₂.step (.turn (.wait (t := false) rfl rfl))
  have h₄ := h₃.step (.push (t := true) 5 rfl)
  have h₅ := h₄.step (.turn (.lock (t := true) rfl rfl))
  have h₆ := h₅.step (.turn (.pushBack (t := true) rfl))
  convert h₆ using 1
  refine congrArg (fun place => BlockingQueue.mk (some true) [5] place [(true, 5)] []) ?_
  funext t
  cases t <;> rfl

/-- The other wakes it. -/
theorem woken_reached : ∃ s : BlockingQueue Bool Nat, (system Bool Nat).Reachable s
    ∧ s.place false = .unlock (some 5) := by
  have h₁ := besideFull_reached.step (.turn (.notify (t := true) (u := false) rfl rfl))
  have h₂ := h₁.step (.turn (.unlock (t := true) rfl))
  have h₃ := h₂.step (.turn (.lock (t := false) rfl rfl))
  have h₄ := h₃.step (.turn (.popSome (t := false) rfl (List.cons_ne_nil _ _)))
  have h₅ := h₄.step (.turn (.popFront (t := false) rfl rfl))
  exact ⟨_, h₅, rfl⟩

theorem exactly_once_woken : ∃ s : BlockingQueue Bool Nat, (system Bool Nat).Reachable s
    ∧ s.popped.getLast? = some (false, 5) := by
  obtain ⟨s, h, hret⟩ := woken_reached
  exact ⟨s, h, (exactly_once s h).2.2.1 false 5 hret⟩

/-! ## Nobody sleeps beside a full queue -/

/-- Where no thread can take a turn, all calls have returned, or sleep beside an
empty queue. -/
theorem Inv.quiet (h : s.Inv) (hquiet : ∀ s', ¬ Turn s s') (t : ι) :
    s.place t = .outside ∨ s.place t = .popAsleep ∧ s.q = [] := by
  have hnone : ∀ u, (s.place u).holds = false := by
    intro u
    cases hu : s.place u with
    | pushBack val => exact absurd (.pushBack hu) (hquiet _)
    | pushNotify =>
        by_cases hsleeper : ∃ v, s.place v = .popAsleep
        · obtain ⟨v, hv⟩ := hsleeper
          exact absurd (.notify hu hv) (hquiet _)
        · exact absurd (.notifyNobody hu fun v hv => hsleeper ⟨v, hv⟩) (hquiet _)
    | popTest =>
        by_cases hq : s.q = []
        · exact absurd (.wait hu hq) (hquiet _)
        · exact absurd (.popSome hu hq) (hquiet _)
    | popFront =>
        obtain ⟨val, rest, hq⟩ := List.exists_cons_of_ne_nil (h.front u (by rw [hu]; rfl))
        exact absurd (.popFront hu hq) (hquiet _)
    | tryTest =>
        by_cases hq : s.q = []
        · exact absurd (.tryEmpty hu hq) (hquiet _)
        · exact absurd (.trySome hu hq) (hquiet _)
    | tryFront =>
        obtain ⟨val, rest, hq⟩ := List.exists_cons_of_ne_nil (h.front u (by rw [hu]; rfl))
        exact absurd (.tryFront hu hq) (hquiet _)
    | unlock ret => exact absurd (.unlock hu) (hquiet _)
    | _ => rfl
  have hfree : s.mutex = none := by
    cases hmutex : s.mutex with
    | none => rfl
    | some u => exact nomatch (hnone u).symm.trans ((h.mutex u).mp hmutex)
  -- nobody waits for a free mutex
  have hplace : ∀ u, s.place u = .outside ∨ s.place u = .popAsleep := by
    intro u
    have hu := hnone u
    have hlocked : (s.place u).locked = none := by
      cases hlocked : (s.place u).locked with
      | none => rfl
      | some p => exact absurd (.lock hlocked hfree) (hquiet _)
    revert hu hlocked
    cases s.place u with
    | outside => exact fun _ _ => .inl rfl
    | popAsleep => exact fun _ _ => .inr rfl
    | _ => exact nofun
  rcases hplace t with ht | ht
  · exact .inl ht
  · refine .inr ⟨ht, ?_⟩
    obtain ⟨A, hA, hcard⟩ := h.covered ⟨t, ht⟩
    have hempty : A = ∅ := by
      refine Finset.eq_empty_of_forall_notMem ?_
      intro u hu
      have hbusy := hA u hu
      rcases hplace u with hp | hp <;> rw [hp] at hbusy <;> exact nomatch hbusy
    rw [hempty] at hcard
    exact List.eq_nil_of_length_eq_zero (Nat.le_zero.mp hcard)

section Turns

variable [Fintype ι]

/-- How many turns the threads can take at most. -/
def weight (s : BlockingQueue ι T) : Nat := ∑ t, (s.place t).weight

theorem weight_go : (s.go t p).weight + (s.place t).weight = s.weight + p.weight := by
  have hold := Finset.add_sum_erase .univ (fun u => (s.place u).weight) (Finset.mem_univ t)
  have hnew := Finset.add_sum_erase .univ (fun u => ((s.go t p).place u).weight)
    (Finset.mem_univ t)
  have hself : (s.go t p).place t = p := Function.update_self ..
  have hothers : ∑ u ∈ Finset.univ.erase t, ((s.go t p).place u).weight
      = ∑ u ∈ Finset.univ.erase t, (s.place u).weight := by
    refine Finset.sum_congr rfl ?_
    intro u hu
    have hsame : (s.go t p).place u = s.place u :=
      Function.update_of_ne (Finset.ne_of_mem_erase hu) ..
    rw [hsame]
  rw [hself, hothers] at hnew
  unfold weight
  omega

/-- A thread that goes where it can take fewer turns. -/
theorem weight_go_lt {r : QueueAt T} (ht : s.place t = r) (h : p.weight < r.weight) :
    (s.go t p).weight < s.weight := by
  have hgo := weight_go (s := s) (t := t) (p := p)
  rw [ht] at hgo
  omega

/-- Every turn is one less to take. -/
theorem weight_turn (hs : Turn s s') : s'.weight < s.weight := by
  cases hs with
  | lock ht hfree =>
      obtain ⟨-, -, -, -, -, hlt⟩ := locked_eq_some ht
      exact weight_go_lt rfl hlt
  | pushBack ht => exact weight_go_lt ht (by simp [QueueAt.weight])
  | @notify t u ht hu =>
      have hut : t ≠ u := by
        rintro rfl
        exact nomatch ht.symm.trans hu
      have hwoken := weight_go (s := s) (t := u) (p := .popAwake)
      have hunlock := weight_go (s := s.go u .popAwake) (t := t) (p := .unlock none)
      have ht' : (s.go u .popAwake).place t = .pushNotify :=
        (Function.update_of_ne hut ..).trans ht
      rw [hu] at hwoken
      rw [ht'] at hunlock
      simp only [QueueAt.weight] at hwoken hunlock
      omega
  | notifyNobody ht hnone => exact weight_go_lt ht (by simp [QueueAt.weight])
  | wait ht hq => exact weight_go_lt ht (by simp [QueueAt.weight])
  | popSome ht hq => exact weight_go_lt ht (by simp [QueueAt.weight])
  | popFront ht hq => exact weight_go_lt ht (by simp [QueueAt.weight])
  | tryEmpty ht hq => exact weight_go_lt ht (by simp [QueueAt.weight])
  | trySome ht hq => exact weight_go_lt ht (by simp [QueueAt.weight])
  | tryFront ht hq => exact weight_go_lt ht (by simp [QueueAt.weight])
  | unlock ht => exact weight_go_lt ht (by simp [QueueAt.weight])

/-- The turns of a run without a call and without a spurious wakeup. -/
theorem length_turns {f : ℕ → BlockingQueue ι T} {n : ℕ}
    (h : ∀ k < n, Turn (f k) (f (k + 1))) : (f n).weight + n ≤ (f 0).weight := by
  induction n with
  | zero => exact le_refl _
  | succ n ih =>
      have hlast := weight_turn (h n (Nat.lt_succ_self n))
      have hfirst := ih fun k hk => h k (Nat.lt_succ_of_lt hk)
      omega

omit [DecidableEq ι] in
theorem weight_le : s.weight ≤ 8 * Fintype.card ι := by
  have hbound : ∀ t ∈ Finset.univ, (s.place t).weight ≤ 8 := by
    intro t _
    cases s.place t <;> simp [QueueAt.weight]
  have hsum := Finset.sum_le_card_nsmul _ _ _ hbound
  rw [Nat.nsmul_eq_mul, Finset.card_univ, Nat.mul_comm] at hsum
  exact hsum

end Turns

/-- Without a new call and without a spurious wakeup, the threads come to rest after
eight turns for each thread at most, all threads taken together (one that is woken in
vain may take more than eight itself): then every call has returned, or sleeps beside
an empty queue.  So as long as something is queued, and somebody sleeps, there is a
turn to take. -/
theorem comes_to_rest [Fintype ι] (s : BlockingQueue ι T) (h : (system ι T).Reachable s) :
    (∀ (f : ℕ → BlockingQueue ι T) (n : ℕ), f 0 = s → (∀ k < n, Turn (f k) (f (k + 1))) →
        n ≤ 8 * Fintype.card ι)
      ∧ ((∀ s', ¬ Turn s s') → ∀ t, s.place t = .outside ∨ s.place t = .popAsleep ∧ s.q = [])
      ∧ (∀ t, s.place t = .popAsleep → s.q ≠ [] → ∃ s', Turn s s') := by
  have hquiet := (inv_reachable h).quiet
  refine ⟨?_, hquiet, ?_⟩
  · rintro f n rfl hturns
    have hlength := length_turns hturns
    have hweight := weight_le (s := f 0)
    omega
  · intro t ht hq
    by_contra hnone
    rcases hquiet (fun s' hs => hnone ⟨s', hs⟩) t with hout | ⟨-, hempty⟩
    · exact nomatch ht.symm.trans hout
    · exact hq hempty

theorem comes_to_rest_besideFull : ∃ s', Turn besideFull s' :=
  (comes_to_rest besideFull besideFull_reached).2.2 false rfl (List.cons_ne_nil _ _)

end BlockingQueue

end DistributAr
