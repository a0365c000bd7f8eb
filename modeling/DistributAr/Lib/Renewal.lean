/-
# `DistributAr.Lib.Renewal` — timers, and leases that are renewed

A party looks at the clock now and then and does something when a period has gone by
since it did so last (`Timer`).  What it does is more than the period apart, and not
more than the period and the time between two looks (`Timer.chain`).

If it renews a lease that way, the renewals take a while to be heard, and no two in a
row are lost, then at any time there is one that was heard not longer ago than two
intervals and a delay (`Renewing.fresh`).

All lists are newest first.
-/
import Mathlib.Algebra.Order.Ring.Int
import Mathlib.Data.List.Chain

namespace DistributAr.Lib

/-! ## Timers -/

namespace Timer

/-- When it is due next, and when it went off, after some looks at the clock. -/
def after (period start : Int) : List Int → Int × List Int
  | [] => (start, [])
  | t :: ts =>
      let (next, rings) := after period start ts
      if t > next then (t + period, t :: rings) else (next, rings)

/-- The clock does not run backward, and is looked at often enough. -/
def Looks (gap start : Int) : List Int → Prop
  | [] => True
  | [t] => start ≤ t ∧ t ≤ start + gap
  | t :: u :: ts => u ≤ t ∧ t ≤ u + gap ∧ Looks gap start (u :: ts)

variable {period start gap t : Int} {ts : List Int}

theorem Looks.tail (h : Looks gap start (t :: ts)) : Looks gap start ts := by
  cases ts with
  | nil => trivial
  | cons u ts => exact h.2.2

/-- The newest look is the latest. -/
theorem Looks.le_head (h : Looks gap start (t :: ts)) : ∀ u ∈ t :: ts, u ≤ t := by
  induction ts generalizing t with
  | nil =>
      intro u hu
      rw [List.mem_singleton.mp hu]
  | cons v ts ih =>
      obtain ⟨hle, -, hrest⟩ := h
      intro u hu
      rcases List.mem_cons.mp hu with rfl | hmem
      · exact Int.le_refl u
      · exact Int.le_trans (ih hrest u hmem) hle

/-- At a look, the timer is not overdue. -/
theorem le_next (hperiod : 0 ≤ period) : t ≤ (after period start (t :: ts)).1 := by
  rw [after]
  dsimp only
  split
  · exact Int.le_add_of_nonneg_right hperiod
  · rename_i hdue
    exact Int.not_lt.mp hdue

/-- It is due a period after it went off. -/
theorem next_of_ring {r : Int} {rs : List Int} (h : (after period start ts).2 = r :: rs) :
    (after period start ts).1 = r + period := by
  induction ts with
  | nil => cases h
  | cons t ts ih =>
      rw [after] at h ⊢
      dsimp only at h ⊢
      split at h
      · rename_i hdue
        cases h
        rw [if_pos hdue]
      · rename_i hdue
        rw [if_neg hdue]
        exact ih h

/-- It goes off more than a period after the last time, and not more than a period
and the time between two looks. -/
theorem chain (hperiod : 0 ≤ period) (h : Looks gap start ts) :
    (after period start ts).2.IsChain fun later earlier =>
      earlier + period < later ∧ later ≤ earlier + (period + gap) := by
  induction ts with
  | nil => exact .nil
  | cons t ts ih =>
      have hrest := ih h.tail
      rw [after]
      dsimp only
      split
      case isFalse => exact hrest
      case isTrue hdue =>
        cases hrings : (after period start ts).2 with
        | nil => exact .singleton t
        | cons r rs =>
            have hnext := next_of_ring hrings
            cases ts with
            | nil => cases hrings
            | cons u ts =>
                obtain ⟨-, hgap, -⟩ := h
                have hu : u ≤ (after period start (u :: ts)).1 := le_next hperiod
                rw [hrings] at hrest
                exact .cons_cons ⟨by omega, by omega⟩ hrest

/-- As long as it is looked at in time, the timer went off not longer ago. -/
theorem ring_recent (hperiod : 0 ≤ period) {r now : Int} {rs : List Int}
    (hrings : (after period start (t :: ts)).2 = r :: rs) (hnow : now ≤ t + gap) :
    now ≤ r + (period + gap) := by
  have hnext := next_of_ring hrings
  have ht : t ≤ (after period start (t :: ts)).1 := le_next hperiod
  omega

/-- It goes off at looks. -/
theorem ring_mem {r : Int} (h : r ∈ (after period start ts).2) : r ∈ ts := by
  induction ts with
  | nil => exact h
  | cons t ts ih =>
      rw [after] at h
      dsimp only at h
      split at h
      · rcases List.mem_cons.mp h with rfl | hrest
        · exact List.mem_cons_self
        · exact List.mem_cons_of_mem t (ih hrest)
      · exact List.mem_cons_of_mem t (ih h)

end Timer

/-! ## Renewals -/

/-- When a renewal was sent, and when it was heard, if it was. -/
structure Renewal where
  sent : Int
  heard : Option Int

/-- Renewals at intervals of at most `gap`, heard within `delay`, no two in a row
lost. -/
structure Renewing (gap delay : Int) (rs : List Renewal) : Prop where
  spaced : rs.IsChain fun later earlier => later.sent ≤ earlier.sent + gap
  soon : ∀ r ∈ rs, ∀ t ∈ r.heard, r.sent ≤ t ∧ t ≤ r.sent + delay
  kept : rs.IsChain fun later earlier => later.heard = none → earlier.heard ≠ none

namespace Renewing

variable {gap delay now : Int} {rs : List Renewal} {r : Renewal}

/-- What was sent and not lost, and has not been heard, is on its way. -/
theorem on_way (h : Renewing gap delay rs) (hr : r ∈ rs) (hkept : r.heard ≠ none)
    (hnot : ¬ ∃ t ∈ r.heard, t ≤ now) : now < r.sent + delay := by
  obtain ⟨t, ht⟩ := Option.ne_none_iff_exists'.mp hkept
  obtain ⟨-, hlate⟩ := h.soon r hr t ht
  have hway : now < t := Int.not_le.mp fun hle => hnot ⟨t, ht, hle⟩
  omega

/-- The newest that was heard, and those sent after it. -/
theorem newest_heard (hfirst : ∃ r ∈ rs, ∃ t ∈ r.heard, t ≤ now) :
    ∃ newer c older, rs = newer ++ c :: older ∧ (∃ t ∈ c.heard, t ≤ now)
      ∧ ∀ r ∈ newer, ¬ ∃ t ∈ r.heard, t ≤ now := by
  classical
  obtain ⟨r, hr, hheard⟩ := hfirst
  have hsome : (rs.find? fun r => ∃ t ∈ r.heard, t ≤ now).isSome :=
    List.find?_isSome.mpr ⟨r, hr, decide_eq_true hheard⟩
  obtain ⟨c, hc⟩ := Option.isSome_iff_exists.mp hsome
  obtain ⟨hheard, newer, older, heq, hnot⟩ := List.find?_eq_some_iff_append.mp hc
  refine ⟨newer, c, older, heq, of_decide_eq_true hheard, ?_⟩
  intro r hr
  simpa using hnot r hr

/-- At any time after the first that was heard there is one that was heard not longer
ago than two intervals and a delay. -/
theorem fresh (h : Renewing gap delay rs)
    (hlast : ∀ r ∈ rs.head?, r.sent ≤ now ∧ now ≤ r.sent + gap)
    (hfirst : ∃ r ∈ rs, ∃ t ∈ r.heard, t ≤ now) :
    ∃ r ∈ rs, ∃ t ∈ r.heard, t ≤ now ∧ now ≤ t + (2 * gap + delay) := by
  obtain ⟨newer, c, older, rfl, ⟨t, ht, hnow⟩, hnot⟩ := newest_heard hfirst
  have hmem : c ∈ newer ++ c :: older := List.mem_append_right _ List.mem_cons_self
  obtain ⟨hlo, hhi⟩ := h.soon c hmem t ht
  refine ⟨c, hmem, t, ht, hnow, ?_⟩
  have hpos : 0 ≤ gap := by
    have hhead : ∀ r ∈ (newer ++ c :: older).head?, 0 ≤ gap := by
      intro r hr
      obtain ⟨hsent, hrecent⟩ := hlast r hr
      omega
    cases newer with
    | nil => exact hhead c rfl
    | cons x newer => exact hhead x rfl
  rcases List.eq_nil_or_concat newer with rfl | ⟨before, b, rfl⟩
  · -- the last one was heard
    obtain ⟨-, hrecent⟩ := hlast c rfl
    omega
  simp only [List.concat_eq_append, List.append_assoc, List.singleton_append] at h hlast hnot
  obtain ⟨-, hbetween, -⟩ := List.isChain_append_cons_cons.mp h.spaced
  by_cases hlost : b.heard = none
  case neg =>
    have hway := h.on_way (by simp) hlost (hnot b (by simp))
    omega
  case pos =>
    rcases List.eq_nil_or_concat before with rfl | ⟨before, a, rfl⟩
    · -- the last one was lost
      obtain ⟨-, hrecent⟩ := hlast b rfl
      omega
    · -- so the one after it was not
      simp only [List.concat_eq_append, List.append_assoc, List.singleton_append] at h hnot
      obtain ⟨-, hafter, -⟩ := List.isChain_append_cons_cons.mp h.spaced
      obtain ⟨-, hkept, -⟩ := List.isChain_append_cons_cons.mp h.kept
      have hway := h.on_way (by simp) (fun hnone => hkept hnone hlost) (hnot a (by simp))
      omega

end Renewing

end DistributAr.Lib
