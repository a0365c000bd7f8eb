/-
# `DistributAr.DummyCluster` — the library that comes with the program

`DummyCluster::read` emits some hundred impulses at each turn, with times that start
at the clock and go up by less than 100 microseconds each, and then sleeps for ten
milliseconds.  So its times run ahead of the clock, by more than 40 milliseconds at
worst, and the next turn begins before the last impulses of this one.

| a turn of          | an impulse of the next one             |
|--------------------|----------------------------------------|
| up to 433 impulses | is never too old for the buffer        |
| up to 449 impulses | can be thrown away (`Spilled`)         |

What is not thrown away arrives with its time, as long as the server comes back to
the library within half an hour: `Lan.dummy_heard`.
-/
import DistributAr.Lan
import DistributAr.Lib.Bursts

namespace DistributAr

open Lib

namespace DummyCluster

/-- `MAX_TIME_STEP` -/
def maxTimeStep : Nat := 100

/-- `MAX_OUT_NODES` -/
def maxOutNodes : Nat := 2000

/-- The loop of `DummyCluster::read`: the node and the time of each impulse. -/
def readLoop : Nat → Int → List Nat → Option (List (Int × Int) × List Nat)
  | 0, _, rand => some ([], rand)
  | i + 1, lastTime, r1 :: r2 :: rand => do
      let (written, rand) ← readLoop i (lastTime + microseconds (r2 % maxTimeStep : Nat)) rand
      some (((r1 % maxOutNodes : Nat), lastTime) :: written, rand)
  | _ + 1, _, _ => none

/-- `DummyCluster::read`, when the clock reads `now`. -/
def read (now : Int) : List Nat → Option (List (Int × Int) × List Nat)
  | r :: rand => readLoop (50 + r % 400) now rand
  | [] => none

/-- A turn: `read` is called when the clock reads `start`, and these are its calls of
`write`. -/
structure IsTurn (b : Burst Call) : Prop where
  clock : 0 ≤ b.start
  calls : ∃ rand rest,
    read b.start rand = some (b.items.map fun c => (c.nodeIndex, c.time), rest)

/-- The turns of a run.  Each ends with a sleep, and the next one comes within half an
hour. -/
structure Turns (bs : List (Burst Call)) : Prop where
  turn : ∀ b ∈ bs, IsTurn b
  paced : bs.IsChain (Burst.Paced (milliseconds 10) (seconds 1800))

/-- The calls of a journal. -/
def emitted (j : Journal) : List Call := j.attempts.map Attempt.call

/-- The call is the next one of the library. -/
def Emits (j : Journal) (c : Call) : Prop :=
  ∃ bs, Turns bs ∧ emitted j ++ [c] <+: bs.flatMap Burst.items

/-- An impulse that a turn of more than 433 impulses has outrun. -/
def Spilled (bs : List (Burst Call)) (c : Call) : Prop :=
  ∃ p b, [p, b] <:+: bs ∧ c ∈ b.items ∧ 434 ≤ p.items.length
    ∧ ∃ u ∈ p.items, c.time + microseconds 32769 ≤ u.time

/-! ## One turn -/

/-- The steps that a turn can take: 448 at most, and each is short. -/
def span : Int := microseconds (99 * 448)

/-- A round of the loop: two numbers are drawn. -/
theorem readLoop_succ {n : Nat} {now : Int} {rand rest : List Nat} {out : List (Int × Int)}
    (h : readLoop (n + 1) now rand = some (out, rest)) :
    ∃ node step : Nat, node < maxOutNodes ∧ step < maxTimeStep ∧ ∃ written rand',
      readLoop n (now + microseconds step) rand' = some (written, rest)
        ∧ out = ((node : Int), now) :: written := by
  cases rand with
  | nil => exact nomatch h
  | cons r1 rand =>
      cases rand with
      | nil => exact nomatch h
      | cons r2 rand =>
          obtain ⟨out', hloop, heq⟩ := Option.bind_eq_some_iff.mp h
          obtain ⟨rfl, rfl⟩ := Prod.mk.inj (Option.some.inj heq)
          exact ⟨_, _, Nat.mod_lt r1 (by decide), Nat.mod_lt r2 (by decide), _, _, hloop, rfl⟩

theorem readLoop_eq_some {n : Nat} {now : Int} {rand rest : List Nat} {out : List (Int × Int)}
    (h : readLoop n now rand = some (out, rest)) :
    out.length = n
      ∧ (∀ (i : Nat) e, out[i]? = some e → now ≤ e.2 ∧ e.2 ≤ now + microseconds (99 * i))
      ∧ (out.Pairwise fun e e' => e.2 ≤ e'.2) ∧ ∀ e ∈ out, 0 ≤ e.1 ∧ e.1 < maxOutNodes := by
  induction n generalizing now rand out with
  | zero =>
      have hnil : out = [] := (congrArg Prod.fst (Option.some.inj h)).symm
      subst hnil
      exact ⟨rfl, fun i e he => absurd he (by simp), .nil, fun e he => absurd he List.not_mem_nil⟩
  | succ n ih =>
      obtain ⟨node, step, hnode, hstep, written, rand', hloop, rfl⟩ := readLoop_succ h
      obtain ⟨hlength, hwithin, hsorted, hnodes⟩ := ih hloop
      have hshort : step < 100 := hstep
      simp only [microseconds] at hwithin ⊢
      refine ⟨by rw [List.length_cons, hlength], ?_, ?_, ?_⟩
      · intro k e he
        cases k with
        | zero =>
            cases he
            dsimp only
            omega
        | succ k =>
            obtain ⟨hlo, hhi⟩ := hwithin k e he
            omega
      · refine List.pairwise_cons.mpr ⟨fun e he => ?_, hsorted⟩
        obtain ⟨k, hk⟩ := List.mem_iff_getElem?.mp he
        have hlo := (hwithin k e hk).1
        dsimp only
        omega
      · refine List.forall_mem_cons.mpr ⟨?_, hnodes⟩
        dsimp only
        omega

variable {b : Burst Call} {bs : List (Burst Call)} {c : Call}

/-- The calls of a turn. -/
theorem IsTurn.spec (h : IsTurn b) :
    (50 ≤ b.items.length ∧ b.items.length ≤ 449)
      ∧ (∀ (i : Nat) c, b.items[i]? = some c → b.start ≤ c.time
        ∧ c.time ≤ b.start + microseconds (99 * i))
      ∧ (b.items.Pairwise fun c c' => c.time ≤ c'.time)
      ∧ ∀ c ∈ b.items, 0 ≤ c.nodeIndex ∧ c.nodeIndex < maxOutNodes := by
  obtain ⟨rand, rest, hread⟩ := h.calls
  cases rand with
  | nil => exact nomatch hread
  | cons r rand =>
      obtain ⟨hlength, hwithin, hsorted, hnodes⟩ := readLoop_eq_some hread
      have hmod : r % 400 < 400 := Nat.mod_lt _ (by decide)
      have htimes := List.pairwise_map.mp hsorted
      rw [List.length_map] at hlength
      refine ⟨by omega, ?_, htimes, ?_⟩
      · intro i c hc
        refine hwithin i (c.nodeIndex, c.time) ?_
        rw [List.getElem?_map, hc]
        rfl
      · intro c hc
        exact hnodes _ (List.mem_map_of_mem hc)

theorem IsTurn.regular (h : IsTurn b) : b.Regular Call.time span := by
  obtain ⟨⟨hlo, hhi⟩, hwithin, hsorted, -⟩ := h.spec
  refine ⟨List.ne_nil_of_length_pos (by omega), hsorted, ?_⟩
  intro c hc
  obtain ⟨i, hi⟩ := List.mem_iff_getElem?.mp hc
  obtain ⟨hlt, -⟩ := List.getElem?_eq_some_iff.mp hi
  have hbounds := hwithin i c hi
  simp only [span, microseconds] at hbounds ⊢
  omega

theorem Turns.bursts (h : Turns bs) :
    Bursts Call.time span (milliseconds 10) (seconds 1800) bs :=
  ⟨fun b hb => (h.turn b hb).regular, h.paced⟩

/-- An impulse that is late in its turn comes after many others. -/
theorem IsTurn.length_of_late (h : IsTurn b) (hc : c ∈ b.items)
    (hlate : b.start + microseconds 42769 ≤ c.time) : 434 ≤ b.items.length := by
  obtain ⟨i, hi⟩ := List.mem_iff_getElem?.mp hc
  obtain ⟨hlt, -⟩ := List.getElem?_eq_some_iff.mp hi
  have hbounds := h.spec.2.1 i c hi
  simp only [microseconds] at hbounds hlate
  omega

/-! ## The journal of its server -/

/-- What holds of the journal. -/
structure Follows (j : Journal) : Prop where
  faithful : j.Faithful
  aligned : j.Aligned
  keeps : j.Keeps
  proper : ∀ a ∈ j.attempts, 0 ≤ a.call.time ∧ a.call.InRange
  near : ∀ a ∈ j.attempts.getLast?, j.server.timeBuff.time ≠ timeMin →
    j.server.timeBuff.gap a.call.time ≤ 32767
  dropped : ∀ bs, Turns bs → emitted j <+: bs.flatMap Burst.items →
    ∀ a ∈ j.attempts, ¬ a.Taken → Spilled bs a.call

variable {j j' : Journal}

theorem emits_proper (h : Emits j c) : 0 ≤ c.time ∧ c.InRange := by
  obtain ⟨bs, hturns, hnext⟩ := h
  have hmem := hnext.subset (List.mem_append_right _ (List.mem_singleton_self c))
  obtain ⟨b, hb, hc⟩ := List.mem_flatMap.mp hmem
  have hclock := (hturns.turn b hb).clock
  have hstart := (hturns.bursts.within hb hc).1
  have hnode := (hturns.turn b hb).spec.2.2.2 c hc
  refine ⟨by omega, hnode.1, ?_⟩
  have hmax : (maxOutNodes : Int) ≤ 0xFFFF := by decide
  omega

/-- The gap to the base time is not so large that an `int` does not hold it. -/
theorem Follows.gap_lt (h : Follows j) (hc : Emits j c) (hused : j.server.timeBuff.time ≠ timeMin) :
    j.server.timeBuff.gap c.time < 2 ^ 31 := by
  obtain ⟨bs, hturns, hnext⟩ := hc
  obtain ⟨a, ha, -⟩ := h.faithful.base.resolve_left hused
  obtain ⟨last, hlast⟩ := Option.isSome_iff_exists.mp
    (List.getLast?_isSome.mpr (List.ne_nil_of_mem ha))
  have hcall : (emitted j).getLast? = some last.call := by
    rw [emitted, List.getLast?_map, hlast]
    rfl
  have hsoon := hturns.bursts.next_le hnext (by decide) last.call hcall
  -- the last call was near the base time, and this one comes soon after it
  have hnear := h.near last hlast hused
  obtain ⟨⟨-, hhi⟩, -⟩ := toMicroseconds_bounds (last.call.time - j.server.timeBuff.time)
  obtain ⟨⟨hlo, -⟩, -⟩ := toMicroseconds_bounds (c.time - j.server.timeBuff.time)
  simp only [TimeBuffer.gap, span, microseconds, seconds] at hnear hsoon hlo hhi ⊢
  omega

theorem Follows.survives (h : Follows j) (hc : Emits j c) : j.Survives c := by
  constructor
  · rintro hmin ⟨r, hr, -⟩
    have hall := ((List.forall₂_and_left _ _).mp (h.aligned.base hmin)).1 r hr
    have hattempt : r ∈ j.attempts := List.mem_of_mem_filter (List.mem_of_mem_drop hr)
    have hclock := (h.proper r hattempt).1
    rw [hall] at hclock
    exact absurd hclock (by decide)
  · intro hused hrecent
    have hlo := TimeBuffer.gap_of_recent hrecent
    have hhi := h.gap_lt hc hused
    unfold TimeBuffer.Spans
    omega

/-- What is thrown away has been outrun by the turn before. -/
theorem Follows.spilled (h : Follows j) (hturns : Turns bs)
    (hnext : emitted j ++ [c] <+: bs.flatMap Burst.items)
    (hdrop : j.server.timeBuff.Drops c.time) : Spilled bs c := by
  have hused := TimeBuffer.used_of_drops hdrop
  obtain ⟨a, ha, hbase⟩ := h.faithful.base.resolve_left hused
  have hpast : a.call ∈ emitted j := List.mem_map_of_mem ha
  have hback := hturns.bursts.back_le hnext (by decide) a.call hpast
  have hlt := h.gap_lt ⟨bs, hturns, hnext⟩ hused
  obtain ⟨⟨-, hnear⟩, hnonneg, hneg⟩ :=
    toMicroseconds_bounds (c.time - j.server.timeBuff.time)
  have hdelta : j.server.timeBuff.deltaTus c.time < -32768 := hdrop
  rw [TimeBuffer.deltaTus_of_used hused] at hdelta
  -- so the gap is negative, and is what the `int` shows
  have hgap : j.server.timeBuff.gap c.time ≤ -32769 := by
    have hcases := bmod_cases (j.server.timeBuff.gap c.time)
    simp only [TimeBuffer.gap, span, microseconds] at hback hnear hlt hcases hdelta ⊢
    omega
  have hfar : c.time + microseconds 32769 ≤ a.call.time := by
    simp only [TimeBuffer.gap, microseconds] at hgap hneg hnonneg ⊢
    omega
  obtain ⟨p, b, hpb, hpause, hap, hcb⟩ := hturns.bursts.ahead hnext (by decide) hpast
    (by simp only [microseconds] at hfar; omega)
    (by simp only [span, microseconds, milliseconds] at hfar ⊢; omega)
  have hmem : p ∈ bs := hpb.subset List.mem_cons_self
  have hb : b ∈ bs := hpb.subset (by simp)
  have hstart := (hturns.bursts.within hb hcb).1
  refine ⟨p, b, hpb, hcb, (hturns.turn p hmem).length_of_late hap ?_, a.call, hap, hfar⟩
  simp only [microseconds, milliseconds] at hfar hpause ⊢
  omega

theorem emitted_step (hs : j.step c = some j') : emitted j' = emitted j ++ [c] := by
  rw [emitted, (Journal.step_eq_some hs).2, List.map_append]
  rfl

/-- The gap of a call that is over. -/
theorem Follows.gap_le (h : Follows j) (hc : Emits j c) (hs : j.step c = some j')
    (hused : j'.server.timeBuff.time ≠ timeMin) : j'.server.timeBuff.gap c.time ≤ 32767 := by
  have hzero : ∀ b : TimeBuffer, b.time = c.time → b.gap c.time = 0 := by
    intro b hb
    rw [TimeBuffer.gap, hb, Int.sub_self]
    rfl
  obtain ⟨hd, hserver, -⟩ | ⟨hd, hf, hserver, -⟩ | ⟨-, -, hserver, -⟩ := Journal.step_cases hs
  · rw [hserver] at hused ⊢
    have hlt := h.gap_lt hc hused
    have hcases := bmod_cases (j.server.timeBuff.gap c.time)
    unfold TimeBuffer.Drops at hd
    rw [TimeBuffer.deltaTus_of_used hused] at hd
    omega
  · rw [hserver]
    by_cases hfirst : j.server.timeBuff.time = timeMin
    · rw [hzero _ (if_pos hfirst)]
      decide
    · have hsame : (j.server.timeBuff.stored c.index c.time).gap c.time
          = j.server.timeBuff.gap c.time := by
        rw [TimeBuffer.gap, TimeBuffer.stored, TimeBuffer.baseTime, if_neg hfirst]
        rfl
      have hlt := h.gap_lt hc hfirst
      have hcases := bmod_cases (j.server.timeBuff.gap c.time)
      unfold TimeBuffer.Fills at hf
      rw [TimeBuffer.deltaTus_of_used hfirst] at hf
      show (j.server.timeBuff.stored c.index c.time).gap c.time ≤ 32767
      rw [hsame]
      omega
  · rw [hserver]
    show (TimeBuffer.new.stored c.index c.time).gap c.time ≤ 32767
    rw [hzero _ (TimeBuffer.new_baseTime _)]
    decide

theorem Follows.step (h : Follows j) (hc : Emits j c) (hs : j.step c = some j') : Follows j' := by
  obtain ⟨-, hattempts⟩ := Journal.step_eq_some hs
  refine ⟨h.faithful.step _ _ _ hs, h.aligned.step _ _ _ hs,
    (Journal.keeps_step j c j' h.aligned h.keeps hs).mpr (h.survives hc), ?_, ?_, ?_⟩
  · rw [hattempts]
    intro a ha
    rcases List.mem_append.mp ha with hold | hnew
    · exact h.proper a hold
    · rw [List.mem_singleton.mp hnew]
      exact emits_proper hc
  · rw [hattempts, List.getLast?_concat]
    rintro a ⟨⟩ hused
    exact h.gap_le hc hs hused
  · intro bs hturns hpre a ha hnot
    rw [emitted_step hs] at hpre
    rw [hattempts] at ha
    rcases List.mem_append.mp ha with hold | hnew
    · exact h.dropped bs hturns ((List.prefix_append _ _).trans hpre) a hold hnot
    · rw [List.mem_singleton.mp hnew] at hnot ⊢
      exact h.spilled hturns hpre (Journal.drops_of_not_taken hnot)

theorem follows_start (id : ClusterID) : Follows (.start id) where
  faithful := Journal.faithful_start id
  aligned := Journal.aligned_start id
  keeps := ⟨fun _ ha => absurd ha List.not_mem_nil, .nil⟩
  proper := fun _ ha => absurd ha List.not_mem_nil
  near := fun _ ha => nomatch ha
  dropped := fun _ _ _ _ ha => absurd ha List.not_mem_nil

theorem kept_follows : Lan.Kept Emits Follows where
  start := follows_start
  write := fun _ _ _ h _ hc hs _ => h.step hc hs
  setId := fun j id h =>
    ⟨h.faithful.setId id, (Lan.kept_onTime.setId j id ⟨h.aligned, h.keeps⟩).1,
      (Lan.kept_onTime.setId j id ⟨h.aligned, h.keeps⟩).2, h.proper, h.near, h.dropped⟩

end DummyCluster

namespace Lan

variable {σ ρ : Type*} [DecidableEq σ] [DecidableEq ρ]

/-- Servers that run the library, on any hosts and with any clock offsets: an impulse
that is not too old for the buffer is stored, one that is thrown away has been outrun
by a long turn right before its own, and what is accepted has the node and, to the
microsecond, the time of an impulse that was emitted. -/
theorem dummy_heard (l : Lan σ ρ) (hl : (system DummyCluster.Emits).Reachable l) :
    (∀ k, (∀ a ∈ (l.senders k).attempts, a.buffer.Recent a.call.time → a.Taken)
      ∧ ∀ bs, DummyCluster.Turns bs →
        DummyCluster.emitted (l.senders k) <+: bs.flatMap Burst.items →
        ∀ a ∈ (l.senders k).attempts, ¬ a.Taken → DummyCluster.Spilled bs a.call)
    ∧ ∀ h, ∀ x ∈ l.accepted h, ∃ k, x.flush ∈ l.sent k ∧ ∀ i < x.buffer.count, x.Arrived i →
      ∃ a ∈ (l.senders k).attempts, ∃ t node, x.buffer.read i = some (x.onClock t, node)
        ∧ (a.buffer.Recent a.call.time →
          Near t a.call.time ∧ (node.toNat : Int) = a.call.nodeIndex) := by
  have hfollows := DummyCluster.kept_follows.reachable hl
  refine ⟨fun k => ⟨(hfollows k).keeps.stored, (hfollows k).dropped⟩, ?_⟩
  intro h x hx
  obtain ⟨k, hk, hall⟩ := accepted_in_journal hl (fun k => (hfollows k).keeps) h x hx
  refine ⟨k, hk, ?_⟩
  intro i hi harrived
  obtain ⟨a, ha, t, node, hread, hback⟩ := (hall i hi).2 harrived
  refine ⟨a, ha, t, node, hread, ?_⟩
  intro hrecent
  obtain ⟨hnear, rfl⟩ := hback hrecent
  exact ⟨hnear, Call.index_iff.mpr ((hfollows k).proper a ha).2⟩

/-- The shortest turn there can be, and its first impulse. -/
theorem dummy_heard_firstImpulse : ∃ l : Lan Unit Unit,
    (system DummyCluster.Emits).Reachable l ∧ (l.senders ()).attempts.length = 1
      ∧ ∀ a ∈ (l.senders ()).attempts, a.buffer.Recent a.call.time → a.Taken := by
  let turn : Burst Call := ⟨0, List.replicate 50 ⟨0, 0, 0⟩⟩
  have hturns : DummyCluster.Turns [turn] :=
    ⟨List.forall_mem_singleton.mpr ⟨Int.le_refl 0, List.replicate 101 0, [], rfl⟩,
      List.isChain_singleton turn⟩
  obtain ⟨j, hj, hlength, hsent⟩ : ∃ j, (Journal.start 1025).step ⟨0, 0, 0⟩ = some j
      ∧ j.attempts.length = 1 ∧ j.server.sent = [] := ⟨_, rfl, rfl, rfl⟩
  let l₀ : Lan Unit Unit := ⟨fun _ => .start 1025, fun _ => []⟩
  have h₀ : (system DummyCluster.Emits).Reachable l₀ :=
    .init ⟨fun _ => ⟨1025, rfl⟩, fun _ => rfl⟩
  have hemits : DummyCluster.Emits (Journal.start 1025) ⟨0, 0, 0⟩ :=
    ⟨[turn], hturns, List.replicate 49 ⟨0, 0, 0⟩, rfl⟩
  have h₁ := h₀.step (Step.write (l := l₀) () ⟨0, 0, 0⟩ (by decide) hemits hj
    (hsent ▸ fun f hf => absurd hf List.not_mem_nil))
  have hlast : Function.update l₀.senders () j () = j := Function.update_self ..
  exact ⟨_, h₁, (congrArg (fun j => j.attempts.length) hlast).trans hlength,
    ((dummy_heard _ h₁).1 ()).1⟩

end Lan

end DistributAr
