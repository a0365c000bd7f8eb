/-
# `DistributAr.Impulses` — when the time of an impulse survives

A buffer keeps the difference of an impulse to its base time in an `int16_t` of
microseconds.  `TimeBuffer::write` checks the range, but of the difference put
into an `int`: a gap of 2^31 microseconds, that is 36 minutes, is negative there,
and one of 2^32, 72 minutes, is zero.

| gap, modulo 2^32   | after a long silence the impulse is        |
|--------------------|--------------------------------------------|
| below 32768        | stored with the time of an earlier cycle   |
| below 2^31         | stored in a fresh buffer, as it should be  |
| below 2^32 - 32768 | thrown away as old                         |
| the rest           | stored with the time of an earlier cycle   |

A buffer that is full leaves with the impulse in all rows but the third.  There
is one more way to lose a time: `time_point::min()` marks a buffer without a base
time, so the base time of an impulse with just this time is overwritten by the
next (`keeps_iff_survives`).
-/
import DistributAr.Journal
import Mathlib.Data.List.Forall2

namespace DistributAr

open Lib

/-- The two times differ by less than a microsecond. -/
def Near (x y : Int) : Prop := -microseconds 1 < x - y ∧ x - y < microseconds 1

instance (x y : Int) : Decidable (Near x y) := inferInstanceAs (Decidable (_ ∧ _))

/-- Truncation toward zero takes off less than a microsecond, and no sign. -/
theorem toMicroseconds_bounds (d : Int) :
    Near d (microseconds (toMicroseconds d)) ∧ (0 ≤ d → 0 ≤ toMicroseconds d)
      ∧ (d ≤ 0 → d ≤ microseconds (toMicroseconds d)) := by
  simp only [Near, microseconds]
  rcases Int.le_total 0 d with hd | hd
  · rw [toMicroseconds_of_nonneg hd]
    omega
  · have hneg : toMicroseconds d = -(-d / 1000) := by
      rw [← toMicroseconds_of_nonneg (Int.neg_nonneg.mpr hd), toMicroseconds, toMicroseconds,
        Int.neg_tdiv, Int.neg_neg]
    rw [hneg]
    omega

/-- What a 64-bit number of microseconds is in an `int`. -/
theorem bmod_cases (g : Int) :
    g % 2 ^ 32 < 2 ^ 31 ∧ g.bmod (2 ^ 32) = g % 2 ^ 32
      ∨ 2 ^ 31 ≤ g % 2 ^ 32 ∧ g.bmod (2 ^ 32) = g % 2 ^ 32 - 2 ^ 32 := by
  rw [Int.bmod_def]
  split
  · left
    omega
  · right
    omega

namespace TimeBuffer

/-- An entry in use: the offset to the base time and the node. -/
def entry (b : TimeBuffer) (i : Nat) : Option (Int × UInt16) :=
  match b.dt[i]?, b.idx[i]? with
  | some dtime, some node => some (dtime.toInt, node)
  | _, _ => none

/-- The entries in use. -/
def entries (b : TimeBuffer) : List (Int × UInt16) := (List.range b.count).filterMap b.entry

/-- What `read` gives for the entries in use. -/
def impulses (b : TimeBuffer) : List (Int × UInt16) := (List.range b.count).filterMap b.read

/-- The buffer with the base time that a write at `t` works with. -/
def based (b : TimeBuffer) (t : Int) : TimeBuffer := { b with time := b.baseTime t }

variable {b : TimeBuffer} {t : Int} {index : UInt16}

/-- `read` adds the base time to an offset. -/
theorem impulses_eq_map (b : TimeBuffer) :
    b.impulses = b.entries.map fun e => (b.time + microseconds e.1, e.2) := by
  rw [impulses, entries, List.map_filterMap]
  refine List.filterMap_congr ?_
  intro i _
  rw [read, entry]
  cases b.dt[i]? <;> cases b.idx[i]? <;> rfl

theorem entries_stored (h : b.count < maxOutputNodes) : (b.stored index t).entries
    = b.entries ++ [((Int16.ofInt (b.deltaTus t)).toInt, index)] := by
  have hold : ∀ i ∈ List.range b.count, (b.stored index t).entry i = b.entry i := by
    intro i hi
    have hne : b.count ≠ i := Nat.ne_of_gt (List.mem_range.mp hi)
    have hdt : (b.stored index t).dt[i]? = b.dt[i]? := Vector.getElem?_setIfInBounds_ne hne
    have hidx : (b.stored index t).idx[i]? = b.idx[i]? := Vector.getElem?_setIfInBounds_ne hne
    rw [entry, entry, hdt, hidx]
  have hlast : (b.stored index t).entry b.count
      = some ((Int16.ofInt (b.deltaTus t)).toInt, index) := by
    have hdt : (b.stored index t).dt[b.count]? = some (Int16.ofInt (b.deltaTus t)) :=
      Vector.getElem?_setIfInBounds_self_of_lt h
    have hidx : (b.stored index t).idx[b.count]? = some index :=
      Vector.getElem?_setIfInBounds_self_of_lt h
    rw [entry, hdt, hidx]
  rw [entries, stored_count, List.range_succ, List.filterMap_append, List.filterMap_congr hold,
    List.filterMap_cons_some hlast, List.filterMap_nil, entries]

theorem impulses_stored (h : b.count < maxOutputNodes) : (b.stored index t).impulses
    = (b.based t).impulses
      ++ [(b.baseTime t + microseconds (Int16.ofInt (b.deltaTus t)).toInt, index)] := by
  rw [impulses_eq_map, impulses_eq_map, entries_stored h, List.map_append]
  rfl

theorem impulses_new_stored : (new.stored index t).impulses = [(t, index)] := by
  rw [impulses_stored (by decide), new_deltaTus, new_baseTime]
  exact congrArg (fun x => [(x, index)]) (Int.add_zero t)

/-- The offset of an impulse that is stored fits 16 bits. -/
theorem toInt_deltaTus (hd : ¬ b.Drops t) (hf : ¬ b.Fills t) :
    (Int16.ofInt (b.deltaTus t)).toInt = b.deltaTus t := by
  unfold Drops at hd
  unfold Fills at hf
  exact Int16.toInt_ofInt_of_le (by omega) (by omega)

theorem entries_new_stored : (new.stored index t).entries = [(0, index)] := by
  rw [entries_stored (by decide), new_deltaTus]
  rfl

/-- With a base time, a write does not change it. -/
theorem based_of_used (h : b.time ≠ timeMin) : b.based t = b := by
  rw [based, baseTime, if_neg h]

/-! ## What a gap becomes -/

/-- The difference to the base time in whole microseconds, before it is put into
an `int`. -/
def gap (b : TimeBuffer) (t : Int) : Int := toMicroseconds (t - b.time)

/-- The gap survives: it is not above the range, or the `int` still shows it as
above the range, or the buffer is full and the `int` does not show it as below. -/
def Spans (b : TimeBuffer) (t : Int) : Prop :=
  b.gap t ≤ 32767
    ∨ 32768 ≤ b.gap t % 2 ^ 32 ∧ b.gap t % 2 ^ 32 < 2 ^ 31
    ∨ maxOutputNodes ≤ b.count
      ∧ (b.gap t % 2 ^ 32 < 2 ^ 31 ∨ 2 ^ 32 - 32768 ≤ b.gap t % 2 ^ 32)

instance (b : TimeBuffer) (t : Int) : Decidable (b.Spans t) :=
  inferInstanceAs (Decidable (_ ∨ _))

/-- Not more than 32768 microseconds before the base time. -/
def Recent (b : TimeBuffer) (t : Int) : Prop := b.time - microseconds 32768 ≤ t

instance (b : TimeBuffer) (t : Int) : Decidable (b.Recent t) := inferInstanceAs (Decidable (_ ≤ _))

theorem deltaTus_of_used (h : b.time ≠ timeMin) : b.deltaTus t = (b.gap t).bmod (2 ^ 32) := by
  rw [deltaTus, if_neg h, gap]

theorem used_of_drops (h : b.Drops t) : b.time ≠ timeMin := by
  intro hfirst
  rw [Drops, deltaTus, if_pos hfirst] at h
  omega

/-- The gap of a recent impulse is not below the range. -/
theorem gap_of_recent (h : b.Recent t) : -32768 ≤ b.gap t := by
  obtain ⟨-, hpos, hneg⟩ := toMicroseconds_bounds (t - b.time)
  simp only [Recent, microseconds] at h hneg
  unfold gap
  rcases Int.le_total 0 (t - b.time) with hd | hd
  · have := hpos hd
    omega
  · have := hneg hd
    omega

/-- A recent impulse is dropped only when its gap does not survive. -/
theorem not_spans_of_drops (hd : b.Drops t) (hr : b.Recent t) : ¬ b.Spans t := by
  have hgap := gap_of_recent hr
  have hdelta : b.deltaTus t < -32768 := hd
  rw [deltaTus_of_used (used_of_drops hd)] at hdelta
  unfold Spans
  rcases bmod_cases (b.gap t) with ⟨hlt, heq⟩ | ⟨hge, heq⟩ <;> omega

theorem spans_of_fills (hused : b.time ≠ timeMin) (hd : ¬ b.Drops t) (hf : b.Fills t) :
    b.Spans t := by
  unfold Drops at hd
  unfold Fills at hf
  rw [deltaTus_of_used hused] at hd hf
  unfold Spans
  rcases bmod_cases (b.gap t) with ⟨hlt, heq⟩ | ⟨hge, heq⟩ <;> omega

/-- The stored offset gives the time back exactly when the gap survives. -/
theorem near_iff_spans (hused : b.time ≠ timeMin) (hr : b.Recent t) (hd : ¬ b.Drops t)
    (hf : ¬ b.Fills t) :
    Near (b.baseTime t + microseconds (Int16.ofInt (b.deltaTus t)).toInt) t ↔ b.Spans t := by
  have hgap := gap_of_recent hr
  obtain ⟨⟨hlo, hhi⟩, -⟩ := toMicroseconds_bounds (t - b.time)
  have hcases := bmod_cases (b.gap t)
  rw [toInt_deltaTus hd hf, baseTime, if_neg hused]
  unfold Drops at hd
  unfold Fills at hf
  rw [deltaTus_of_used hused] at hd hf ⊢
  unfold Spans Near
  change _ < _ - microseconds (b.gap t) at hlo
  change _ - microseconds (b.gap t) < _ at hhi
  simp only [microseconds] at hlo hhi ⊢
  rcases hcases with ⟨hlt, heq⟩ | ⟨hge, heq⟩ <;> omega

end TimeBuffer

namespace Server

/-- The entries of the buffers handed over, read with their local base time. -/
def flushed (s : Server) : List (Int × UInt16) :=
  s.sent.flatMap fun f => (f.before.based f.call.time).impulses

/-- The entries of all buffers, first to last. -/
def impulses (s : Server) : List (Int × UInt16) := s.flushed ++ s.timeBuff.impulses

end Server

/-- What a local reader of a packet gets is what was flushed. -/
theorem Flush.Wf.read_packet {f : Flush} (h : f.Wf) (i : Nat) :
    (f.packet.prepareRead f.call.delta).read i = (f.before.based f.call.time).read i := by
  obtain ⟨cid, heq⟩ := h.packet_eq
  have htime : (f.packet.prepareRead f.call.delta).time = (f.before.based f.call.time).time := by
    rw [TimeBuffer.prepareRead_time, h.packet_time, TimeSync.toLocal_toNetwork]
    rfl
  have hdt : (f.packet.prepareRead f.call.delta).dt = f.before.dt := by rw [heq]; rfl
  have hidx : (f.packet.prepareRead f.call.delta).idx = f.before.idx := by rw [heq]; rfl
  rw [TimeBuffer.read, TimeBuffer.read, htime, hdt, hidx]
  rfl

/-- What a call whose impulse is taken leaves in a buffer: its node, and its offset to
the base time, which is zero in a fresh buffer. -/
def Attempt.entry (a : Attempt) : Int × UInt16 :=
  (if a.buffer.Fills a.call.time then 0 else a.buffer.deltaTus a.call.time, a.call.index)

namespace Journal

/-- The impulses taken, in the order of the calls, are the entries of the buffers
handed over and of the one in use. -/
def Entered (j : Journal) : Prop :=
  j.server.sent.flatMap (fun f => f.packet.entries) ++ j.server.timeBuff.entries
    = j.taken.map Attempt.entry

theorem entered_start (id : ClusterID) : (start id).Entered := rfl

theorem Entered.setId {j : Journal} (h : j.Entered) (id : ClusterID) : (j.setId id).Entered := h

theorem Entered.step (j : Journal) (c : Call) (j' : Journal) (h : j.Entered)
    (hs : j.step c = some j') : j'.Entered := by
  unfold Entered at h ⊢
  obtain ⟨-, hserver, htaken⟩ | ⟨hd, hf, hserver, htaken⟩ | ⟨-, hf, hserver, htaken⟩ :=
    step_cases hs
  · rw [hserver, htaken]
    exact h
  · have hlt : j.server.timeBuff.count < maxOutputNodes :=
      Nat.lt_of_not_le fun hle => hf (.inl hle)
    have hentry : (j.attempt c).entry = (j.server.timeBuff.deltaTus c.time, c.index) :=
      Prod.ext (if_neg hf) rfl
    rw [hserver, htaken, List.map_append, ← h, TimeBuffer.entries_stored hlt,
      TimeBuffer.toInt_deltaTus hd hf, List.append_assoc, List.map_singleton, hentry]
  · -- the buffer moves to `sent`, and the fresh one holds the impulse
    have hentry : (j.attempt c).entry = (0, c.index) := Prod.ext (if_pos hf) rfl
    rw [hserver, htaken, List.map_append, ← h, List.map_singleton, hentry]
    show (j.server.sent ++ [_]).flatMap _ ++ (TimeBuffer.new.stored c.index c.time).entries = _
    rw [TimeBuffer.entries_new_stored, List.flatMap_append, List.flatMap_singleton]
    rfl

/-- What an entry is for: if the impulse was recent, its time and its node can be
read back. -/
def ReadsBack (r : Attempt) (e : Int × UInt16) : Prop :=
  r.buffer.Recent r.call.time → Near e.1 r.call.time ∧ e.2 = r.call.index

/-- Recent impulses are stored, and can be read back. -/
structure Keeps (j : Journal) : Prop where
  stored : ∀ r ∈ j.attempts, r.buffer.Recent r.call.time → r.Taken
  read : List.Forall₂ ReadsBack j.taken j.server.impulses

/-- The calls whose impulses are in the buffer in use. -/
def current (j : Journal) : List Attempt := j.taken.drop j.server.flushed.length

/-- No base time that stands for a recent impulse is overwritten. -/
def KeepsBase (j : Journal) (t : Int) : Prop :=
  j.server.timeBuff.time = timeMin →
    (∃ r ∈ j.current, r.buffer.Recent r.call.time) → Near t timeMin

/-- The condition on a call. -/
structure Survives (j : Journal) (c : Call) : Prop where
  base : j.KeepsBase c.time
  gap : j.server.timeBuff.time ≠ timeMin → j.server.timeBuff.Recent c.time →
    j.server.timeBuff.Spans c.time

/-! ## One call -/

variable {j j' : Journal} {c : Call} {t : Int}

theorem forall₂_concat {α β : Type} {R : α → β → Prop} {l : List α} {m : List β} {x : α} {y : β} :
    List.Forall₂ R (l ++ [x]) (m ++ [y]) ↔ List.Forall₂ R l m ∧ R x y := by
  rw [← List.forall₂_reverse_iff, List.reverse_append, List.reverse_append, List.reverse_singleton,
    List.reverse_singleton, List.singleton_append, List.singleton_append, List.forall₂_cons,
    List.forall₂_reverse_iff, and_comm]

/-- The invariant: an entry for every impulse taken, and in a buffer whose base
time is still `time_point::min()` only impulses of that time. -/
structure Aligned (j : Journal) : Prop where
  wf : j.server.Wf
  length : j.taken.length = j.server.impulses.length
  base : j.server.timeBuff.time = timeMin →
    List.Forall₂ (fun r e => r.call.time = timeMin ∧ e.1 = 0 ∧ e.2 = r.call.index)
      j.current j.server.timeBuff.entries

theorem aligned_start (id : ClusterID) : (start id).Aligned where
  wf := Server.wf_new id
  length := rfl
  base := fun _ => .nil

theorem length_based (b : TimeBuffer) (t : Int) :
    (b.based t).impulses.length = b.impulses.length := by
  rw [TimeBuffer.impulses_eq_map, TimeBuffer.impulses_eq_map, List.length_map, List.length_map]
  rfl

theorem flushed_restarted (s : Server) (c : Call) :
    (s.restarted c).flushed = s.flushed ++ (s.timeBuff.based c.time).impulses := by
  show (s.sent ++ [_]).flatMap _ = _
  rw [List.flatMap_append, List.flatMap_cons, List.flatMap_nil, List.append_nil]
  rfl

theorem Aligned.step (j : Journal) (c : Call) (j' : Journal) (h : j.Aligned)
    (hs : j.step c = some j') : j'.Aligned := by
  obtain ⟨hwrite, -⟩ := step_eq_some hs
  have hwf := Server.wf_write _ _ _ h.wf hwrite
  have hlen := h.length
  rw [Server.impulses, List.length_append] at hlen
  obtain ⟨-, hserver, htaken⟩ | ⟨-, hroom, hserver, htaken⟩ | ⟨-, -, hserver, htaken⟩ :=
    step_cases hs
  · have hcurrent : j'.current = j.current := by rw [current, current, hserver, htaken]
    refine ⟨hwf, by rw [hserver, htaken, h.length], ?_⟩
    rw [hserver, hcurrent]
    exact h.base
  · have hlt : j.server.timeBuff.count < maxOutputNodes :=
      Nat.lt_of_not_le fun hle => hroom (.inl hle)
    have hcurrent : j'.current = j.current ++ [j.attempt c] := by
      have hflushed : j'.server.flushed = j.server.flushed := by rw [hserver]; rfl
      rw [current, current, hflushed, htaken, List.drop_append_of_le_length (by omega)]
    refine ⟨hwf, ?_, ?_⟩
    · rw [hserver, htaken, Server.impulses, TimeBuffer.impulses_stored hlt, List.length_append,
        List.length_append, List.length_append, length_based, hlen]
      rfl
    · -- still `time_point::min()`: so it was before, and this impulse has that time
      rw [hserver, hcurrent]
      intro htime
      change j.server.timeBuff.baseTime c.time = timeMin at htime
      have hfirst : j.server.timeBuff.time = timeMin := by
        by_contra hused
        rw [TimeBuffer.baseTime, if_neg hused] at htime
        exact hused htime
      rw [TimeBuffer.baseTime, if_pos hfirst] at htime
      have hdelta : j.server.timeBuff.deltaTus c.time = 0 := by
        rw [TimeBuffer.deltaTus, if_pos hfirst]
      show List.Forall₂ _ _ (j.server.timeBuff.stored c.index c.time).entries
      rw [TimeBuffer.entries_stored hlt, hdelta, forall₂_concat]
      exact ⟨h.base hfirst, htime, rfl, rfl⟩
  · have hcurrent : j'.current = [j.attempt c] := by
      rw [current, hserver, htaken, flushed_restarted, List.length_append, length_based, ← hlen,
        List.drop_left]
    refine ⟨hwf, ?_, ?_⟩
    · rw [hserver, htaken, Server.impulses, flushed_restarted, List.length_append,
        List.length_append, List.length_append, length_based, ← hlen]
      show _ = _ + (TimeBuffer.new.stored c.index c.time).impulses.length
      rw [TimeBuffer.impulses_new_stored]
      rfl
    · rw [hserver, hcurrent]
      intro htime
      have htime' : c.time = timeMin := (TimeBuffer.new_baseTime c.time).symm.trans htime
      show List.Forall₂ _ _ (TimeBuffer.new.stored c.index c.time).entries
      rw [TimeBuffer.entries_stored (by decide), TimeBuffer.new_deltaTus]
      exact .cons ⟨htime', rfl, rfl⟩ .nil

/-- A new base time does no harm exactly when there was one already, or it stands
for no recent impulse, or is the same to a microsecond. -/
theorem reads_based_iff (h : j.Aligned) (hread : List.Forall₂ ReadsBack j.taken j.server.impulses) :
    List.Forall₂ ReadsBack j.taken
      (j.server.flushed ++ (j.server.timeBuff.based t).impulses) ↔ j.KeepsBase t := by
  by_cases hfirst : j.server.timeBuff.time = timeMin
  · have hbase := h.base hfirst
    have hold := List.forall₂_take_append _ _ _ hread
    have htime : (j.server.timeBuff.based t).time = t := by
      show j.server.timeBuff.baseTime t = t
      rw [TimeBuffer.baseTime, if_pos hfirst]
    have hsplit : List.Forall₂ ReadsBack j.taken
        (j.server.flushed ++ (j.server.timeBuff.based t).impulses)
          ↔ List.Forall₂ ReadsBack j.current (j.server.timeBuff.based t).impulses := by
      constructor
      · exact List.forall₂_drop_append _ _ _
      · intro hcur
        have happ : List.Forall₂ ReadsBack (j.taken.take j.server.flushed.length ++ j.current)
            (j.server.flushed ++ (j.server.timeBuff.based t).impulses) :=
          List.rel_append hold hcur
        rwa [current, List.take_append_drop] at happ
    have hentries : (j.server.timeBuff.based t).impulses
        = j.server.timeBuff.entries.map fun e => (t + microseconds e.1, e.2) := by
      rw [TimeBuffer.impulses_eq_map, htime]
      rfl
    rw [hsplit, hentries, List.forall₂_map_right_iff]
    constructor
    · rintro hcur - ⟨r, hr, hrecent⟩
      have hboth : List.Forall₂ (fun (r : Attempt) (_ : Int × UInt16) =>
          (r.buffer.Recent r.call.time → Near t timeMin) ∧ True) j.current
            j.server.timeBuff.entries := by
        refine List.Forall₂.mp ?_ hbase hcur
        rintro r' e ⟨hmin, hzero, -⟩ hreads
        refine ⟨?_, trivial⟩
        intro hrecent'
        have hnear := (hreads hrecent').1
        rw [hmin, hzero] at hnear
        simpa only [microseconds, Int.mul_zero, Int.add_zero] using hnear
      exact ((List.forall₂_and_left _ _).mp hboth).1 r hr hrecent
    · intro hkeeps
      have hall : ∀ r ∈ j.current, r.buffer.Recent r.call.time → Near t timeMin :=
        fun r hr hrecent => hkeeps hfirst ⟨r, hr, hrecent⟩
      refine List.Forall₂.imp ?_ ((List.forall₂_and_left _ _).mpr ⟨hall, hbase⟩)
      rintro r e ⟨hnear, hmin, hzero, hindex⟩ hrecent
      rw [hmin, hzero]
      exact ⟨by simpa only [microseconds, Int.mul_zero, Int.add_zero] using hnear hrecent, hindex⟩
  · rw [TimeBuffer.based_of_used hfirst]
    exact iff_of_true hread fun hmin => absurd hmin hfirst

/-- What a taken impulse needs, beside the others. -/
theorem keeps_concat (h : j.Keeps) {e : Int × UInt16} {rest : List (Int × UInt16)}
    (hattempts : j'.attempts = j.attempts ++ [j.attempt c])
    (htaken : j'.taken = j.taken ++ [j.attempt c])
    (himpulses : j'.server.impulses = rest ++ [e]) :
    j'.Keeps ↔ List.Forall₂ ReadsBack j.taken rest ∧ ReadsBack (j.attempt c) e := by
  have hyes : (j.attempt c).Taken := by
    have hmem : j.attempt c ∈ j'.taken :=
      htaken ▸ List.mem_append_right _ (List.mem_singleton_self _)
    simpa using List.of_mem_filter hmem
  rw [← forall₂_concat, ← htaken, ← himpulses]
  refine ⟨fun h' => h'.read, fun hread => ⟨?_, hread⟩⟩
  rw [hattempts]
  intro r hr hrecent
  rcases List.mem_append.mp hr with hold | hnew
  · exact h.stored r hold hrecent
  · rw [List.mem_singleton.mp hnew]
    exact hyes

/-- In the buffer in use an impulse reads back exactly if its offset is the gap. -/
theorem readsBack_stored_iff (hd : ¬ j.server.timeBuff.Drops c.time)
    (hf : ¬ j.server.timeBuff.Fills c.time) :
    ReadsBack (j.attempt c) (j.server.timeBuff.baseTime c.time
      + microseconds (Int16.ofInt (j.server.timeBuff.deltaTus c.time)).toInt, c.index)
        ↔ (j.server.timeBuff.time ≠ timeMin → j.server.timeBuff.Recent c.time →
          j.server.timeBuff.Spans c.time) := by
  constructor
  · intro hreads hused hrecent
    exact (TimeBuffer.near_iff_spans hused hrecent hd hf).mp (hreads hrecent).1
  · intro hgap hrecent
    refine ⟨?_, rfl⟩
    by_cases hfirst : j.server.timeBuff.time = timeMin
    · show Near (j.server.timeBuff.baseTime c.time + microseconds
        (Int16.ofInt (j.server.timeBuff.deltaTus c.time)).toInt) c.time
      rw [TimeBuffer.baseTime, if_pos hfirst, TimeBuffer.deltaTus, if_pos hfirst]
      simp [Near, microseconds]
    · exact (TimeBuffer.near_iff_spans hfirst hrecent hd hf).mpr (hgap hfirst hrecent)

/-- One call: the entries still read back exactly when the condition is met. -/
theorem keeps_step (j : Journal) (c : Call) (j' : Journal) (h : j.Aligned) (hk : j.Keeps)
    (hs : j.step c = some j') : j'.Keeps ↔ j.Survives c := by
  obtain ⟨-, hattempts⟩ := step_eq_some hs
  have hbased := reads_based_iff (t := c.time) h hk.read
  obtain ⟨hd, hserver, htaken⟩ | ⟨hd, hf, hserver, htaken⟩ | ⟨hd, hf, hserver, htaken⟩ :=
    step_cases hs
  · -- thrown away: it must not have been recent
    have hused := TimeBuffer.used_of_drops hd
    constructor
    · intro h'
      refine ⟨fun hmin => absurd hmin hused, fun _ hrecent => absurd ?_ (not_taken_of_drops hd)⟩
      have hmem : j.attempt c ∈ j'.attempts :=
        hattempts ▸ List.mem_append_right _ (List.mem_singleton_self _)
      exact h'.stored (j.attempt c) hmem hrecent
    · intro hsurvives
      refine ⟨?_, by rw [htaken, hserver]; exact hk.read⟩
      rw [hattempts]
      intro r hr hrecent
      rcases List.mem_append.mp hr with hold | hnew
      · exact hk.stored r hold hrecent
      · rw [List.mem_singleton.mp hnew] at hrecent
        exact absurd (hsurvives.gap hused hrecent) (TimeBuffer.not_spans_of_drops hd hrecent)
  · -- stored in the buffer in use: the offset must be the gap
    have hlt : j.server.timeBuff.count < maxOutputNodes :=
      Nat.lt_of_not_le fun hle => hf (.inl hle)
    have himpulses : j'.server.impulses = j.server.flushed
        ++ (j.server.timeBuff.based c.time).impulses
        ++ [(j.server.timeBuff.baseTime c.time
          + microseconds (Int16.ofInt (j.server.timeBuff.deltaTus c.time)).toInt, c.index)] := by
      rw [hserver, List.append_assoc, ← TimeBuffer.impulses_stored hlt]
      rfl
    rw [keeps_concat hk hattempts htaken himpulses, hbased, readsBack_stored_iff hd hf]
    exact ⟨fun h => ⟨h.1, h.2⟩, fun h => ⟨h.base, h.gap⟩⟩
  · -- stored in a fresh buffer, with its own time
    have himpulses : j'.server.impulses = j.server.flushed
        ++ (j.server.timeBuff.based c.time).impulses ++ [(c.time, c.index)] := by
      rw [hserver, Server.impulses, flushed_restarted, ← TimeBuffer.impulses_new_stored]
      rfl
    rw [keeps_concat hk hattempts htaken himpulses, hbased]
    constructor
    · rintro ⟨hkeeps, -⟩
      exact ⟨hkeeps, fun hused _ => TimeBuffer.spans_of_fills hused hd hf⟩
    · rintro ⟨hkeeps, -⟩
      refine ⟨hkeeps, fun _ => ⟨?_, rfl⟩⟩
      show Near c.time c.time
      simp [Near, microseconds]

end Journal

/-- In every run on a fresh server: recent impulses are stored and read back to the
microsecond, in all states, exactly when every call meets the condition. -/
theorem keeps_iff_survives (id : ClusterID) (cs : List Call) :
    Run.Always Journal.step Journal.Keeps (.start id) cs
      ↔ Run.Each Journal.step Journal.Survives (.start id) cs :=
  Run.always_iff_each Journal.Aligned.step Journal.keeps_step (Journal.aligned_start id)
    ⟨fun _ h => absurd h List.not_mem_nil, .nil⟩

/-- Two impulses, 2^32 microseconds apart: the second is stored with the time of
the first. -/
theorem silence_not_kept : ¬ Run.Always Journal.step Journal.Keeps (.start 1025)
    [⟨7, 0, 0⟩, ⟨9, 4294967296000, 0⟩] := by
  rw [Run.always_iff_each Journal.Aligned.step Journal.keeps_step (Journal.aligned_start 1025)
    ⟨fun _ h => absurd h List.not_mem_nil, .nil⟩]
  intro h
  have hsecond := h [⟨7, 0, 0⟩] ⟨9, 4294967296000, 0⟩ (List.prefix_refl _) _ rfl rfl
  exact absurd (hsecond.gap (by decide) (by decide)) (by decide)

end DistributAr
