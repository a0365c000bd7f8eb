/-
# `DistributAr.Lib.Bursts` — items that come in bursts

A source emits items with times, many at once and in order, and then pauses.  A
burst may reach further into the future than the pause lasts, so that the next one
begins before it.  But bursts do not get ahead of each other forever:

| an item                                  | comes                                   |
|------------------------------------------|-----------------------------------------|
| after the one before it                  | at most `wait + span` later             |
| after any before it                      | at most `span` earlier                  |
| more than `span - 2 * pause` earlier     | in the very next burst (`ahead`)        |

Everything is said about the items so far, which may end in the middle of a burst.
-/
import Mathlib.Data.List.Chain
import Mathlib.Data.List.Infix

namespace DistributAr.Lib

/-- A burst of items. -/
structure Burst (α : Type*) where
  start : Int
  items : List α

namespace Burst

variable {α : Type*}

/-- There are items, in the order of their times, and none is before the start, or more
than `span` after it. -/
structure Regular (time : α → Int) (span : Int) (b : Burst α) : Prop where
  items_ne : b.items ≠ []
  sorted : b.items.Pairwise fun x y => time x ≤ time y
  within : ∀ x ∈ b.items, b.start ≤ time x ∧ time x ≤ b.start + span

/-- One burst after the other. -/
structure Paced (pause wait : Int) (p b : Burst α) : Prop where
  pause : p.start + pause ≤ b.start
  wait : b.start ≤ p.start + wait

variable {time : α → Int} {span pause wait : Int} {bs : List (Burst α)} {past : List α} {x y : α}

/-! ## The next item -/

/-- Where the next item stands. -/
theorem exists_next (h : past ++ [x] <+: bs.flatMap Burst.items) :
    ∃ before b after done rest, bs = before ++ b :: after ∧ b.items = done ++ x :: rest
      ∧ past = before.flatMap Burst.items ++ done := by
  induction bs generalizing past with
  | nil => exact absurd (List.prefix_nil.mp h) (by simp)
  | cons b bs ih =>
      obtain ⟨tail, htail⟩ := h
      rw [List.flatMap_cons] at htail
      rcases List.append_eq_append_iff.mp htail with ⟨rest, hb, -⟩ | ⟨more, hpast, hbs⟩
      · refine ⟨[], b, bs, past, rest, rfl, ?_, rfl⟩
        rw [hb, List.append_assoc]
        rfl
      · rcases List.eq_nil_or_concat more with rfl | ⟨done, z, rfl⟩
        · -- the burst ends with the item
          refine ⟨[], b, bs, past, [], rfl, ?_, rfl⟩
          rw [List.append_nil] at hpast
          exact hpast.symm
        · rw [List.concat_eq_append, ← List.append_assoc] at hpast
          obtain ⟨rfl, hz⟩ := List.append_inj' hpast rfl
          cases hz
          obtain ⟨before, b', after, done', rest, rfl, hitems, rfl⟩ :=
            ih ⟨tail, by rw [hbs, List.concat_eq_append]⟩
          refine ⟨b :: before, b', after, done', rest, rfl, hitems, ?_⟩
          rw [List.flatMap_cons, List.append_assoc]

end Burst

/-- What a source emits. -/
structure Bursts {α : Type*} (time : α → Int) (span pause wait : Int) (bs : List (Burst α)) :
    Prop where
  regular : ∀ b ∈ bs, b.Regular time span
  paced : bs.IsChain (Burst.Paced pause wait)

namespace Bursts

variable {α : Type*} {time : α → Int} {span pause wait : Int} {bs before after : List (Burst α)}
  {b p : Burst α} {past : List α} {x y : α}

/-- The bursts before one that is given have paused since they started. -/
theorem start_le (h : Bursts time span pause wait (before ++ b :: after)) (hpause : 0 ≤ pause) :
    ∀ p ∈ before, p.start + pause ≤ b.start := by
  let R : Burst α → Burst α → Prop := fun p b => p.start + pause ≤ b.start
  have hchain : (before ++ b :: after).IsChain R := h.paced.imp fun _ _ hpaced => hpaced.pause
  have htrans : IsTrans (Burst α) R := by
    refine ⟨fun p q r hpq hqr => ?_⟩
    simp only [R] at hpq hqr ⊢
    omega
  have hall := List.isChain_iff_pairwise.mp hchain
  exact fun p hp => (List.pairwise_append.mp hall).2.2 p hp b List.mem_cons_self

theorem within (h : Bursts time span pause wait bs) (hb : b ∈ bs) (hx : x ∈ b.items) :
    b.start ≤ time x ∧ time x ≤ b.start + span :=
  (h.regular b hb).within x hx

/-- No item comes long after the one before it. -/
theorem next_le (h : Bursts time span pause wait bs) (hx : past ++ [x] <+: bs.flatMap Burst.items)
    (hwait : 0 ≤ wait) : ∀ y ∈ past.getLast?, time x ≤ time y + (wait + span) := by
  obtain ⟨before, b, after, done, rest, rfl, hitems, rfl⟩ := Burst.exists_next hx
  intro y hy
  have hb : b ∈ before ++ b :: after := by simp
  have hlast := (h.within hb (x := x) (by simp [hitems])).2
  rcases List.eq_nil_or_concat done with rfl | ⟨done, z, rfl⟩
  · rcases List.eq_nil_or_concat before with rfl | ⟨before, p, rfl⟩
    · exact absurd hy (by simp)
    · -- the one before it was the last of its own burst
      rw [List.concat_eq_append] at h hy
      have hne := (h.regular p (by simp)).items_ne
      rw [List.flatMap_append, List.flatMap_singleton, List.append_nil,
        List.getLast?_append_of_ne_nil _ hne] at hy
      rw [List.append_assoc] at h
      have hstart := (List.isChain_append_cons_cons.mp h.paced).2.1.wait
      have hfirst := (h.within (b := p) (by simp) (List.mem_of_getLast? hy)).1
      omega
  · rw [List.concat_eq_append] at hitems
    simp only [List.concat_eq_append, ← List.append_assoc, List.getLast?_concat, Option.mem_def,
      Option.some.injEq] at hy
    have hfirst := (h.within hb (x := z) (by simp [hitems])).1
    subst hy
    omega

/-- No item comes long before one that came earlier. -/
theorem back_le (h : Bursts time span pause wait bs) (hx : past ++ [x] <+: bs.flatMap Burst.items)
    (hpause : 0 ≤ pause) : ∀ y ∈ past, time y ≤ time x + span := by
  obtain ⟨before, b, after, done, rest, rfl, hitems, rfl⟩ := Burst.exists_next hx
  intro y hy
  have hb : b ∈ before ++ b :: after := by simp
  have hxb := h.within hb (x := x) (by simp [hitems])
  rcases List.mem_append.mp hy with hold | hdone
  · obtain ⟨p, hp, hyp⟩ := List.mem_flatMap.mp hold
    have hstart := h.start_le hpause p hp
    have hyb := h.within (List.mem_append_left _ hp) hyp
    omega
  · have hyb := h.within hb (x := y) (by simp [hitems, hdone])
    omega

/-- An item that comes so much before an earlier one is in the burst after it. -/
theorem ahead (h : Bursts time span pause wait bs) (hx : past ++ [x] <+: bs.flatMap Burst.items)
    (hpause : 0 ≤ pause) (hy : y ∈ past) (hback : time x < time y)
    (hfar : time x + span < time y + 2 * pause) :
    ∃ p b, [p, b] <:+: bs ∧ p.start + pause ≤ b.start ∧ y ∈ p.items ∧ x ∈ b.items := by
  obtain ⟨before, b, after, done, rest, rfl, hitems, rfl⟩ := Burst.exists_next hx
  have hb : b ∈ before ++ b :: after := by simp
  have hxb := h.within hb (x := x) (by simp [hitems])
  rcases List.mem_append.mp hy with hold | hdone
  · obtain ⟨p, hp, hyp⟩ := List.mem_flatMap.mp hold
    have hyb := h.within (List.mem_append_left _ hp) hyp
    rcases List.eq_nil_or_concat before with rfl | ⟨before, q, rfl⟩
    · exact absurd hp List.not_mem_nil
    rw [List.concat_eq_append] at hp h
    rw [List.concat_eq_append]
    have hq := h.start_le hpause q (by simp)
    rcases List.mem_append.mp hp with hearly | hlast
    · -- two pauses lie between the bursts
      rw [List.append_assoc] at h
      have hpq := Bursts.start_le h hpause p hearly
      omega
    · obtain rfl := List.mem_singleton.mp hlast
      exact ⟨p, b, ⟨before, after, by simp⟩, hq, hyp, by simp [hitems]⟩
  · have hsorted := (h.regular b hb).sorted
    rw [hitems, List.pairwise_append] at hsorted
    have hle := hsorted.2.2 y hdone x List.mem_cons_self
    omega

end Bursts

end DistributAr.Lib
