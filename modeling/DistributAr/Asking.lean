/-
# `DistributAr.Asking` — when a host asks

`TimeSync::sync` keeps two times: `lastReply`, which a `T` sets and a `GET` sets too,
and `lastLocal`, which a `TIME` sets.  What they are for is a matter of the past:

| when nothing comes in                                      | it sends            |
|------------------------------------------------------------|---------------------|
| no `T` and no `GET` within three minutes                   | `GET` to the tracker |
| else, an address, and no `TIME` within a minute            | `TIME` to it        |
| else                                                       | nothing             |

So the requests are that far apart, in every run and whatever comes in
(`asks_by_history`), as long as the clock does not run backward.

All lists are newest first.
-/
import DistributAr.Sync
import Mathlib.Algebra.Order.Ring.Int
import Mathlib.Order.Bounds.Basic

namespace DistributAr

open Lib

/-- What a pass of the loop meets. -/
structure SyncPass where
  locals : TimeSync.Locals
  buff : Option (List Char)
  now : Int
  sendTime : Int

/-- A pass and what it sent. -/
structure SyncEntry extends SyncPass where
  sent : Option (SockAddr × List Char)

namespace TimeSync

/-- Some passes of the loop. -/
def history (trackerAddr : SockAddr) (start : Int) : List SyncPass → TimeSync × List SyncEntry
  | [] => (.new trackerAddr start, [])
  | p :: ps =>
      let (s, log) := history trackerAddr start ps
      let (s', sent) := s.iteration p.locals p.buff p.now p.sendTime
      (s', ⟨p, sent⟩ :: log)

/-- The clock does not run backward. -/
structure Ordered (start : Int) (ps : List SyncPass) : Prop where
  later : ps.Pairwise fun p q => q.sendTime ≤ p.now
  pass : ∀ p ∈ ps, p.now ≤ p.sendTime
  started : ∀ p ∈ ps, start ≤ p.now

end TimeSync

namespace SyncEntry

/-- A `T` is read. -/
def Hears (e : SyncEntry) : Prop :=
  ∃ buff, e.buff = some buff ∧ TimeSync.readTime e.locals buff ≠ none

/-- The tracker is asked for the time server. -/
def AsksTracker (trackerAddr : SockAddr) (e : SyncEntry) : Prop :=
  e.sent = some (trackerAddr, (Command.get timeServerId).text)

/-- The time server is asked for the time. -/
def AsksTime (e : SyncEntry) : Prop := ∃ addr, e.sent = some (addr, "TIME".toList)

end SyncEntry

namespace TimeSync

variable {trackerAddr : SockAddr} {start : Int} {s : TimeSync} {p : SyncPass} {ps : List SyncPass}
  {log : List SyncEntry}

/-- The times that `lastReply` stands for, with the one it starts from. -/
def replyTimes (trackerAddr : SockAddr) (start : Int) (log : List SyncEntry) : Set Int :=
  insert (start - seconds syncTimeout)
    {t | ∃ e ∈ log, (e.Hears ∨ e.AsksTracker trackerAddr) ∧ e.now = t}

/-- Those that `lastLocal` stands for. -/
def askTimes (start : Int) (log : List SyncEntry) : Set Int :=
  insert (start - seconds syncTimeout) {t | ∃ e ∈ log, e.AsksTime ∧ e.sendTime = t}

/-! ## One pass -/

theorem get_ne_time : (Command.get timeServerId).text ≠ "TIME".toList := by
  intro h
  cases h

theorem not_asksTime_get {addr : SockAddr} :
    ¬ (⟨p, some (addr, (Command.get timeServerId).text)⟩ : SyncEntry).AsksTime := by
  rintro ⟨addr', h⟩
  exact get_ne_time (Prod.mk.inj (Option.some.inj h)).2

theorem not_asksTracker_time {addr : SockAddr} :
    ¬ (⟨p, some (addr, "TIME".toList)⟩ : SyncEntry).AsksTracker trackerAddr := fun h =>
  get_ne_time (Prod.mk.inj (Option.some.inj h)).2.symm

/-- A pass that reads something does not ask. -/
theorem iteration_read (g : Locals) (s : TimeSync) (buff : List Char) (now sendTime : Int) :
    ∃ s' : TimeSync, s.iteration g (some buff) now sendTime = (s', none)
      ∧ s'.trackerAddr = s.trackerAddr ∧ s'.lastLocal = s.lastLocal
      ∧ s'.lastReply = if readTime g buff = none then s.lastReply else now := by
  rw [iteration]
  cases readTime g buff with
  | none => exact ⟨_, rfl, rfl, rfl, rfl⟩
  | some remote => exact ⟨_, rfl, rfl, rfl, rfl⟩

/-- A pass that reads nothing sends what is due. -/
theorem iteration_none (g : Locals) (s : TimeSync) (now sendTime : Int) :
    s.iteration g none now sendTime
      = if s.lastReply + seconds syncTimeout < now then
          ({ s with lastReply := now }, some (s.trackerAddr, (Command.get timeServerId).text))
        else if s.serverAddr.sin_port ≠ 0 ∧ s.lastLocal + seconds syncInterval < now then
          ({ s with lastLocal := sendTime }, some (s.serverAddr, "TIME".toList))
        else (s, none) := rfl

/-! ## What the two times stand for -/

/-- The loop remembers the latest of its times. -/
structure Remembers (trackerAddr : SockAddr) (start : Int) (s : TimeSync)
    (log : List SyncEntry) : Prop where
  addr : s.trackerAddr = trackerAddr
  reply : IsGreatest (replyTimes trackerAddr start log) s.lastReply
  ask : IsGreatest (askTimes start log) s.lastLocal

theorem replyTimes_cons_of {e : SyncEntry} (h : e.Hears ∨ e.AsksTracker trackerAddr) :
    replyTimes trackerAddr start (e :: log) = insert e.now (replyTimes trackerAddr start log) := by
  ext t
  simp [replyTimes, h, eq_comm, or_left_comm]

theorem replyTimes_cons_of_not {e : SyncEntry} (h : ¬ (e.Hears ∨ e.AsksTracker trackerAddr)) :
    replyTimes trackerAddr start (e :: log) = replyTimes trackerAddr start log := by
  ext t
  simp [replyTimes, h]

theorem askTimes_cons_of {e : SyncEntry} (h : e.AsksTime) :
    askTimes start (e :: log) = insert e.sendTime (askTimes start log) := by
  ext t
  simp [askTimes, h, eq_comm, or_left_comm]

theorem askTimes_cons_of_not {e : SyncEntry} (h : ¬ e.AsksTime) :
    askTimes start (e :: log) = askTimes start log := by
  ext t
  simp [askTimes, h]

theorem map_history (trackerAddr : SockAddr) (start : Int) (ps : List SyncPass) :
    (history trackerAddr start ps).2.map SyncEntry.toSyncPass = ps := by
  induction ps with
  | nil => rfl
  | cons p ps ih => exact congrArg (List.cons p) ih

theorem Ordered.tail (h : Ordered start (p :: ps)) : Ordered start ps where
  later := h.later.tail
  pass := fun q hq => h.pass q (List.mem_cons_of_mem p hq)
  started := fun q hq => h.started q (List.mem_cons_of_mem p hq)

/-- Nothing in the history is later than the next pass. -/
theorem Ordered.past (h : Ordered start (p :: ps)) :
    ∀ e ∈ (history trackerAddr start ps).2, e.now ≤ p.now ∧ e.sendTime ≤ p.now := by
  intro e he
  have hmem : e.toSyncPass ∈ ps := by
    have hmap := List.mem_map_of_mem (f := SyncEntry.toSyncPass) he
    rwa [map_history] at hmap
  have hsent := List.rel_of_pairwise_cons h.later hmem
  exact ⟨Int.le_trans (h.tail.pass _ hmem) hsent, hsent⟩

theorem Ordered.start_lt (h : Ordered start (p :: ps)) :
    start - seconds syncTimeout + seconds syncInterval < p.now := by
  have hstart := h.started p List.mem_cons_self
  simp only [seconds, syncTimeout, syncInterval]
  omega

/-- The new time is the latest. -/
theorem isGreatest_insert {S : Set Int} {t : Int} (h : ∀ u ∈ S, u ≤ t) :
    IsGreatest (insert t S) t := by
  refine ⟨Set.mem_insert t S, ?_⟩
  intro u hu
  exact (Set.mem_insert_iff.mp hu).elim (fun heq => heq ▸ Int.le_refl t) (h u)

theorem Ordered.reply_le (h : Ordered start (p :: ps)) :
    ∀ t ∈ replyTimes trackerAddr start (history trackerAddr start ps).2, t ≤ p.now := by
  have hstart := h.start_lt
  have hminute : 0 ≤ seconds syncInterval := by decide
  rintro t (rfl | ⟨e, he, -, rfl⟩)
  · omega
  · exact (h.past e he).1

theorem Ordered.ask_le (h : Ordered start (p :: ps)) :
    ∀ t ∈ askTimes start (history trackerAddr start ps).2, t ≤ p.now := by
  have hstart := h.start_lt
  have hminute : 0 ≤ seconds syncInterval := by decide
  rintro t (rfl | ⟨e, he, -, rfl⟩)
  · omega
  · exact (h.past e he).2

theorem remembers_start (trackerAddr : SockAddr) (start : Int) :
    Remembers trackerAddr start (.new trackerAddr start) [] where
  addr := rfl
  reply := by simp [replyTimes, TimeSync.new]
  ask := by simp [askTimes, TimeSync.new]

/-- A pass keeps the two times what they stand for. -/
theorem Remembers.cons (hs : Remembers trackerAddr start s log) (p : SyncPass)
    (hreply : ∀ t ∈ replyTimes trackerAddr start log, t ≤ p.now)
    (hask : ∀ t ∈ askTimes start log, t ≤ p.now) (hpass : p.now ≤ p.sendTime) :
    Remembers trackerAddr start (s.iteration p.locals p.buff p.now p.sendTime).1
      (⟨p, (s.iteration p.locals p.buff p.now p.sendTime).2⟩ :: log) := by
  obtain ⟨g, buff, now, sendTime⟩ := p
  cases buff with
  | some buff =>
      obtain ⟨s', heq, haddr, hlocal, hlast⟩ := iteration_read g s buff now sendTime
      dsimp only
      rw [heq]
      refine ⟨haddr.trans hs.addr, ?_, ?_⟩
      · rw [hlast]
        split
        · rename_i hread
          rw [replyTimes_cons_of_not (by simp [SyncEntry.Hears, SyncEntry.AsksTracker, hread])]
          exact hs.reply
        · rename_i hread
          rw [replyTimes_cons_of (.inl ⟨buff, rfl, hread⟩)]
          exact isGreatest_insert hreply
      · rw [hlocal, askTimes_cons_of_not (by simp [SyncEntry.AsksTime])]
        exact hs.ask
  | none =>
      dsimp only
      rw [iteration_none]
      split
      · -- a `GET`
        rw [hs.addr]
        refine ⟨rfl, ?_, ?_⟩
        · rw [replyTimes_cons_of (.inr (by rw [SyncEntry.AsksTracker]))]
          exact isGreatest_insert hreply
        · rw [askTimes_cons_of_not not_asksTime_get]
          exact hs.ask
      split
      · -- a `TIME`
        refine ⟨hs.addr, ?_, ?_⟩
        · rw [replyTimes_cons_of_not
            (not_or.mpr ⟨by simp [SyncEntry.Hears], not_asksTracker_time⟩)]
          exact hs.reply
        · rw [askTimes_cons_of ⟨_, rfl⟩]
          exact isGreatest_insert fun t ht => Int.le_trans (hask t ht) hpass
      · refine ⟨hs.addr, ?_, ?_⟩
        · rw [replyTimes_cons_of_not (by simp [SyncEntry.Hears, SyncEntry.AsksTracker])]
          exact hs.reply
        · rw [askTimes_cons_of_not (by simp [SyncEntry.AsksTime])]
          exact hs.ask

theorem remembers_history (h : Ordered start ps) :
    Remembers trackerAddr start (history trackerAddr start ps).1
      (history trackerAddr start ps).2 := by
  induction ps with
  | nil => exact remembers_start trackerAddr start
  | cons p ps ih => exact (ih h.tail).cons p h.reply_le h.ask_le (h.pass p List.mem_cons_self)

/-! ## When it asks -/

/-- No `T` and no `GET` within three minutes. -/
def TrackerDue (trackerAddr : SockAddr) (start : Int) (log : List SyncEntry) (now : Int) : Prop :=
  start < now
    ∧ ∀ e ∈ log, e.Hears ∨ e.AsksTracker trackerAddr → e.now + seconds syncTimeout < now

/-- No `TIME` within a minute. -/
def TimeDue (log : List SyncEntry) (now : Int) : Prop :=
  ∀ e ∈ log, e.AsksTime → e.sendTime + seconds syncInterval < now

theorem Remembers.trackerDue_iff (hs : Remembers trackerAddr start s log) (now : Int) :
    s.lastReply + seconds syncTimeout < now ↔ TrackerDue trackerAddr start log now := by
  rw [← lt_sub_iff_add_lt, hs.reply.lt_iff, replyTimes, Set.forall_mem_insert, TrackerDue]
  constructor
  · rintro ⟨hstart, hall⟩
    exact ⟨by omega, fun e he hkind => lt_sub_iff_add_lt.mp (hall _ ⟨e, he, hkind, rfl⟩)⟩
  · rintro ⟨hstart, hall⟩
    refine ⟨by omega, ?_⟩
    rintro t ⟨e, he, hkind, rfl⟩
    exact lt_sub_iff_add_lt.mpr (hall e he hkind)

theorem Remembers.timeDue_iff (hs : Remembers trackerAddr start s log) {now : Int}
    (hstart : start - seconds syncTimeout + seconds syncInterval < now) :
    s.lastLocal + seconds syncInterval < now ↔ TimeDue log now := by
  rw [← lt_sub_iff_add_lt, hs.ask.lt_iff, askTimes, Set.forall_mem_insert, TimeDue]
  constructor
  · rintro ⟨-, hall⟩ e he hkind
    exact lt_sub_iff_add_lt.mp (hall _ ⟨e, he, hkind, rfl⟩)
  · intro hall
    refine ⟨lt_sub_iff_add_lt.mpr hstart, ?_⟩
    rintro t ⟨e, he, hkind, rfl⟩
    exact lt_sub_iff_add_lt.mpr (hall e he hkind)

/-- The table at the top, for the next pass of any run. -/
theorem sent_iff (trackerAddr : SockAddr) (h : Ordered start (p :: ps)) :
    let s := (history trackerAddr start ps).1
    let log := (history trackerAddr start ps).2
    let sent := (s.iteration p.locals p.buff p.now p.sendTime).2
    (sent = some (trackerAddr, (Command.get timeServerId).text)
        ↔ p.buff = none ∧ TrackerDue trackerAddr start log p.now)
      ∧ ∀ addr, sent = some (addr, "TIME".toList)
        ↔ p.buff = none ∧ ¬ TrackerDue trackerAddr start log p.now
          ∧ addr = s.serverAddr ∧ addr.sin_port ≠ 0 ∧ TimeDue log p.now := by
  intro s log sent
  have hs : Remembers trackerAddr start s log := remembers_history h.tail
  have htracker := hs.trackerDue_iff p.now
  have htime := hs.timeDue_iff h.start_lt
  obtain ⟨g, buff, now, sendTime⟩ := p
  dsimp only at htracker htime ⊢
  cases buff with
  | some buff =>
      obtain ⟨s', heq, -⟩ := iteration_read g s buff now sendTime
      have hsent : sent = none := congrArg Prod.snd heq
      simp [hsent]
  | none =>
      have hsent : sent = _ := congrArg Prod.snd (iteration_none g s now sendTime)
      rw [hsent, ← htracker, ← htime, hs.addr]
      split
      · rename_i hreply
        refine ⟨iff_of_true rfl ⟨rfl, hreply⟩, fun addr => iff_of_false ?_ fun h => h.2.1 hreply⟩
        exact fun h => get_ne_time (Prod.mk.inj (Option.some.inj h)).2
      · rename_i hreply
        refine ⟨iff_of_false ?_ fun h => hreply h.2, fun addr => ?_⟩
        · split
          · exact fun h => get_ne_time (Prod.mk.inj (Option.some.inj h)).2.symm
          · simp
        · split
          · rename_i hlocal
            constructor
            · intro h
              obtain rfl := (Prod.mk.inj (Option.some.inj h)).1
              exact ⟨rfl, hreply, rfl, hlocal⟩
            · rintro ⟨-, -, rfl, -⟩
              rfl
          · rename_i hlocal
            refine iff_of_false (by simp) ?_
            rintro ⟨-, -, rfl, hdue⟩
            exact hlocal hdue

/-- Requests keep their distance. -/
theorem spaced (h : Ordered start ps) :
    (history trackerAddr start ps).2.Pairwise fun later earlier =>
      (later.AsksTracker trackerAddr → earlier.Hears ∨ earlier.AsksTracker trackerAddr →
        earlier.now + seconds syncTimeout < later.now)
      ∧ (later.AsksTime → earlier.AsksTime →
        earlier.sendTime + seconds syncInterval < later.now) := by
  induction ps with
  | nil => exact .nil
  | cons p ps ih =>
      obtain ⟨htracker, htime⟩ := sent_iff trackerAddr h
      refine List.pairwise_cons.mpr ⟨fun e he => ⟨fun hask hkind => ?_, ?_⟩, ih h.tail⟩
      · obtain ⟨-, -, hdue⟩ := htracker.mp hask
        exact hdue e he hkind
      · rintro ⟨addr, hask⟩ hkind
        obtain ⟨-, -, -, -, hdue⟩ := (htime addr).mp hask
        exact hdue e he hkind

/-- In every run, and in whatever comes in: the tracker is asked exactly in the passes
in which nothing is read and three minutes are over since the last `T` and the last
`GET`, and the time server, where the tracker said it is, exactly in those others in
which nothing is read and a minute is over since the last `TIME`.  So two `GET`s are
three minutes apart, a `GET` and the `T` before it too, and two `TIME`s a minute. -/
theorem asks_by_history (trackerAddr : SockAddr) (start : Int) (p : SyncPass)
    (ps : List SyncPass) (h : Ordered start (p :: ps)) :
    let s := (history trackerAddr start ps).1
    let log := (history trackerAddr start ps).2
    let sent := (s.iteration p.locals p.buff p.now p.sendTime).2
    (sent = some (trackerAddr, (Command.get timeServerId).text)
        ↔ p.buff = none ∧ TrackerDue trackerAddr start log p.now)
      ∧ (∀ addr, sent = some (addr, "TIME".toList)
        ↔ p.buff = none ∧ ¬ TrackerDue trackerAddr start log p.now
          ∧ addr = s.serverAddr ∧ addr.sin_port ≠ 0 ∧ TimeDue log p.now)
      ∧ (history trackerAddr start (p :: ps)).2.Pairwise fun later earlier =>
        (later.AsksTracker trackerAddr → earlier.Hears ∨ earlier.AsksTracker trackerAddr →
          earlier.now + seconds syncTimeout < later.now)
        ∧ (later.AsksTime → earlier.AsksTime →
          earlier.sendTime + seconds syncInterval < later.now) := by
  obtain ⟨htracker, htime⟩ := sent_iff trackerAddr h
  exact ⟨htracker, htime, spaced h⟩

/-- The first thing a host does is to look for the time server. -/
theorem asks_by_history_firstPass :
    ((TimeSync.new ⟨9, 1⟩ 0).iteration ⟨0, 0, 0, 0⟩ none 1 1).2
      = some (⟨9, 1⟩, (Command.get timeServerId).text) := by
  have hordered : Ordered 0 [⟨⟨0, 0, 0, 0⟩, none, 1, 1⟩] :=
    ⟨List.pairwise_singleton _ _, List.forall_mem_singleton.mpr (by decide),
      List.forall_mem_singleton.mpr (by decide)⟩
  exact (asks_by_history ⟨9, 1⟩ 0 ⟨⟨0, 0, 0, 0⟩, none, 1, 1⟩ [] hordered).1.mpr
    ⟨rfl, by decide, fun _ he => absurd he List.not_mem_nil⟩

end TimeSync

end DistributAr
