/-
# `DistributAr.Convergence` — the offset that a host settles on

A sample is worth something if the `T` answers the last `TIME`.  The next `TIME` is
not sent before a minute is over, so it is enough that `TIME` and `T` together never
take longer than that (`Prompt`): an answer to an older `TIME` has arrived by then,
or does not arrive at all.

With `asked` for the way of a `TIME` and `answered` for that of a `T`, the samples are
at most half of either away from the true offset, on either side.  The offset of the
host goes there, a third of the way with every answer (`offset_settles`).
-/
import DistributAr.Offset
import DistributAr.Sync

namespace DistributAr

open Lib

namespace SyncWorld

/-- A `TIME` is answered at most `asked` microseconds after the last one was sent,
and a `T` arrives at most `answered` microseconds after that. -/
def Prompt (o asked answered : Int) (w : SyncWorld) : SyncEvent → Prop
  | .serve => w.clock ≤ toMicroseconds w.sync.lastLocal + asked
  | .answer i => ∀ us, w.replies[i]? = some us → w.clock ≤ us - o + answered
  | _ => True

/-- What a prompt network leaves: every answer on its way answers the last `TIME`, or
is overdue. -/
structure Current (o asked answered : Int) (w : SyncWorld) : Prop where
  causal : w.Causal o
  served : ∀ us ∈ w.replies, us - o ≤ toMicroseconds w.sync.lastLocal + asked
    ∧ (toMicroseconds w.sync.lastLocal ≤ us - o
      ∨ us - o + answered < toMicroseconds w.sync.lastLocal)

/-- A `T` arrives. -/
def isAnswer : SyncEvent → Bool
  | .answer _ => true
  | _ => false

/-- The number of answers that arrive. -/
def arrivals (events : List SyncEvent) : Nat := events.countP isAnswer

variable {g : TimeSync.Locals} {o asked answered : Int} {w w' : SyncWorld} {e : SyncEvent}
  {events : List SyncEvent}

/-! ## One event -/

theorem sync_pass (w : SyncWorld) (buff : Option (List Char)) (us : Nat) :
    (w.pass g buff us).sync = (w.sync.iteration g buff (microseconds w.clock)
      (microseconds (w.clock + us))).1 := rfl

/-- Only a minute after the last `TIME` there is another. -/
theorem pass_timeout (w : SyncWorld) (us : Nat) :
    (w.pass g none us).sync.delta = w.sync.delta
      ∧ ((w.pass g none us).sync.lastLocal = w.sync.lastLocal
        ∨ w.sync.lastLocal + seconds syncInterval < microseconds w.clock
          ∧ (w.pass g none us).sync.lastLocal = microseconds (w.clock + us)) := by
  rw [sync_pass, TimeSync.iteration]
  split
  · exact ⟨rfl, .inl rfl⟩
  split
  · rename_i hdue
    exact ⟨rfl, .inr ⟨hdue.2, rfl⟩⟩
  · exact ⟨rfl, .inl rfl⟩

theorem pass_reply {us : Int} (hlo : 0 ≤ us) (hhi : us < 2 ^ 63) :
    (w.pass g (some (TimeServ.reply (microseconds us))) 0).sync = { w.sync with
      delta := TimeSync.calculate w.sync.delta w.sync.lastLocal (microseconds w.clock) us,
      lastReply := microseconds w.clock } := by
  rw [sync_pass, TimeSync.iteration, readTime_reply hlo hhi]

theorem pass_trackerReply (w : SyncWorld) (reply : Option SockAddr) :
    (w.pass g (some (trackerReply reply)) 0).sync = { w.sync with
      serverAddr := TimeSync.readServerAddr g w.sync (trackerReply reply) } := by
  rw [sync_pass, TimeSync.iteration, readTime_trackerReply]

/-- A sample is off by half of the longer way at most. -/
theorem diff_between {k c us : Int} (hsent : k ≤ us - o) (hasked : us - o ≤ k + asked)
    (hpast : us - o ≤ c) (hanswered : c ≤ us - o + answered) :
    o - answered / 2 ≤ TimeSync.diff (microseconds k) (microseconds c) us
      ∧ TimeSync.diff (microseconds k) (microseconds c) us ≤ o + (asked + 1) / 2 := by
  have htrip : TimeSync.trip (microseconds k) (microseconds c) = c - k := by
    have hsub : microseconds c - microseconds k = microseconds (c - k) := by
      simp only [microseconds]
      omega
    rw [TimeSync.trip, hsub, toMicroseconds_microseconds]
  rw [TimeSync.diff, htrip, toMicroseconds_microseconds,
    Int.tdiv_eq_ediv_of_nonneg (by omega)]
  omega

/-- An event keeps the invariant, and moves the offset only if it is an answer: then
towards a sample that is good. -/
theorem Current.step (h : w.Current o asked answered) (hprompt : w.Prompt o asked answered e)
    (hminute : asked + answered ≤ 1000000 * syncInterval) (hs : w.step g o e = some w') :
    w'.Current o asked answered ∧ ∃ ys : List Int, ys.length = arrivals [e]
      ∧ (∀ y ∈ ys, o - answered / 2 ≤ y ∧ y ≤ o + (asked + 1) / 2)
      ∧ w'.sync.delta = Approach.moves 3 w.sync.delta ys := by
  have hcausal := causal_step w e w' h.causal hs
  obtain ⟨k, hk, hpast⟩ := h.causal.sent
  have hserved := h.served
  rw [hk, toMicroseconds_microseconds] at hserved
  cases e with
  | elapse us =>
      cases hs
      exact ⟨⟨hcausal, h.served⟩, [], rfl, fun _ hy => absurd hy List.not_mem_nil, rfl⟩
  | serve =>
      have hlate : w.clock ≤ k + asked := by
        rw [Prompt, hk, toMicroseconds_microseconds] at hprompt
        exact hprompt
      rw [SyncWorld.step] at hs
      split at hs
      · cases hs
        refine ⟨⟨hcausal, ?_⟩, [], rfl, fun _ hy => absurd hy List.not_mem_nil, rfl⟩
        dsimp only
        rw [hk, toMicroseconds_microseconds]
        intro us hus
        rcases List.mem_append.mp hus with hold | hnew
        · exact hserved us hold
        · obtain rfl := List.mem_singleton.mp hnew
          omega
      · cases hs
  | answer i =>
      obtain ⟨us, hat, hw⟩ := Option.map_eq_some_iff.mp hs
      have hmem := List.mem_of_getElem? hat
      obtain ⟨hlo, hhi, hbefore⟩ := h.causal.replies us hmem
      obtain ⟨hasked, hcurrent⟩ := hserved us hmem
      have hsoon : w.clock ≤ us - o + answered := hprompt us hat
      subst hw
      refine ⟨⟨hcausal, ?_⟩,
        [TimeSync.diff w.sync.lastLocal (microseconds w.clock) us], rfl, ?_, ?_⟩
      · rw [pass_reply hlo hhi]
        exact h.served
      · rw [hk]
        exact List.forall_mem_singleton.mpr
          (diff_between (by omega) hasked hbefore hsoon)
      · rw [pass_reply hlo hhi]
        exact TimeSync.calculate_eq_move w.sync.delta ⟨w.sync.lastLocal, microseconds w.clock, us⟩
  | tracker reply =>
      cases hs
      refine ⟨⟨hcausal, ?_⟩, [], rfl, fun _ hy => absurd hy List.not_mem_nil, ?_⟩
      · rw [pass_trackerReply]
        exact h.served
      · rw [pass_trackerReply]
        rfl
  | timeout us =>
      cases hs
      obtain ⟨hdelta, hlast⟩ := pass_timeout (g := g) w us
      refine ⟨⟨hcausal, ?_⟩, [], rfl, fun _ hy => absurd hy List.not_mem_nil, hdelta⟩
      rcases hlast with hsame | ⟨hdue, hnew⟩
      · rw [hsame]
        exact h.served
      · -- whatever is on its way is overdue now
        rw [hnew, toMicroseconds_microseconds]
        simp only [hk, microseconds, seconds] at hdue
        intro r hr
        obtain ⟨hasked, -⟩ := hserved r hr
        omega

/-! ## A run -/

theorem arrivals_cons : arrivals (e :: events) = arrivals [e] + arrivals events :=
  (congrArg arrivals List.singleton_append.symm).trans List.countP_append

/-- The offset has gone towards one good sample for every answer. -/
theorem Current.run (h : w.Current o asked answered)
    (hminute : asked + answered ≤ 1000000 * syncInterval)
    (hprompt : Run.Each (SyncWorld.step g o) (Prompt o asked answered) w events)
    (hrun : Run.after (SyncWorld.step g o) w events = some w') :
    ∃ ys : List Int, ys.length = arrivals events
      ∧ (∀ y ∈ ys, o - answered / 2 ≤ y ∧ y ≤ o + (asked + 1) / 2)
      ∧ w'.sync.delta = Approach.moves 3 w.sync.delta ys := by
  induction events generalizing w with
  | nil =>
      cases hrun
      exact ⟨[], rfl, fun _ hy => absurd hy List.not_mem_nil, rfl⟩
  | cons e events ih =>
      obtain ⟨w₁, hs, hrest⟩ := Option.bind_eq_some_iff.mp hrun
      obtain ⟨hone, hall⟩ := Run.each_cons.mp hprompt w₁ hs
      obtain ⟨hcurrent, ys, hlength, hgood, hmoved⟩ := h.step hone hminute hs
      obtain ⟨zs, hlength', hgood', hmoved'⟩ := ih hcurrent hall hrest
      refine ⟨ys ++ zs, ?_, ?_, ?_⟩
      · rw [arrivals_cons, List.length_append, hlength, hlength']
      · intro y hy
        exact (List.mem_append.mp hy).elim (hgood y) (hgood' y)
      · rw [hmoved', hmoved, Approach.moves, Approach.moves, Approach.moves, List.foldl_append]

theorem current_start (trackerAddr : SockAddr) (clock : Int) :
    (start trackerAddr clock).Current o asked answered where
  causal := causal_start trackerAddr clock
  served := fun _ h => absurd h List.not_mem_nil

/-- From zero, enough good samples bring the offset where it settles. -/
theorem moves_settled {asked answered : Nat} {ys : List Int}
    (hgood : ∀ y ∈ ys, o - answered / 2 ≤ y ∧ y ≤ o + (asked + 1) / 2)
    (hlong : 2 ^ ys.length * o.natAbs < 3 ^ ys.length) :
    o - (answered : Int) / 2 - 2 ≤ Approach.moves 3 0 ys
      ∧ Approach.moves 3 0 ys ≤ o + ((asked : Int) + 1) / 2 + 2 := by
  have hstart : Approach.gap (o - answered / 2) (o + (asked + 1) / 2) 0 - 2 ≤ o.natAbs := by
    simp only [Approach.gap]
    omega
  have hnear : Approach.gap (o - answered / 2) (o + (asked + 1) / 2) (Approach.moves 3 0 ys) ≤ 2 :=
    Approach.moves_near (by decide) hgood
      (Nat.lt_of_le_of_lt (Nat.mul_le_mul_left _ hstart) hlong)
  simp only [Approach.gap] at hnear
  omega

/-- On a network that is prompt, but may lose, repeat and reorder datagrams, the
offset of a host never leaves the hull of zero and the good samples, what it is off
besides them and two microseconds shrinks by a third with every answer, and once
enough have arrived it is the true offset, give or take half of either way and two
microseconds. -/
theorem offset_settles (g : TimeSync.Locals) (o : Int) (trackerAddr : SockAddr) (clock : Int)
    (asked answered : Nat) (events : List SyncEvent) (w : SyncWorld)
    (hminute : (asked : Int) + answered ≤ 1000000 * syncInterval)
    (hrun : Run.after (step g o) (start trackerAddr clock) events = some w)
    (hprompt : Run.Each (step g o) (Prompt o asked answered) (start trackerAddr clock) events) :
    let L : Int := o - answered / 2
    let U : Int := o + (asked + 1) / 2
    let n := arrivals events
    (min 0 L ≤ w.sync.delta ∧ w.sync.delta ≤ max 0 U)
      ∧ 3 ^ n * (Approach.gap L U w.sync.delta - 2) ≤ 2 ^ n * (Approach.gap L U 0 - 2)
      ∧ (2 ^ n * o.natAbs < 3 ^ n → L - 2 ≤ w.sync.delta ∧ w.sync.delta ≤ U + 2) := by
  intro L U n
  obtain ⟨ys, hlength, hgood, hmoved⟩ :=
    (current_start trackerAddr clock).run hminute hprompt hrun
  have hdelta : w.sync.delta = Approach.moves 3 0 ys := hmoved
  have hgeometric : 3 ^ n * (Approach.gap L U w.sync.delta - 2)
      ≤ 2 ^ n * (Approach.gap L U 0 - 2) := by
    rw [hdelta, show n = ys.length from hlength.symm]
    exact Approach.gap_geometric (by decide) hgood
  refine ⟨hdelta ▸ Approach.moves_hull hgood, hgeometric, ?_⟩
  intro hlong
  rw [hdelta]
  exact moves_settled hgood (hlength.symm ▸ hlong)

/-- The first minute: the tracker is asked for the server, and the server for the time. -/
def firstMinute : List SyncEvent :=
  [.elapse 1, .timeout 0, .tracker (some ⟨7, 33⟩), .timeout 0, .elapse 4, .serve, .elapse 6,
    .answer 0]

theorem prompt_firstMinute : Run.Each (step ⟨0, 0, 0, 0⟩ 100) (Prompt 100 10 10)
    (start ⟨9, 1⟩ 1000000000) firstMinute := by
  have hserve : ∀ w, Run.after (step ⟨0, 0, 0, 0⟩ 100) (start ⟨9, 1⟩ 1000000000)
      (firstMinute.take 5) = some w → w.Prompt 100 10 10 .serve := by
    intro w hw
    cases hw
    show _ ≤ (_ : Int)
    decide
  have hanswer : ∀ w, Run.after (step ⟨0, 0, 0, 0⟩ 100) (start ⟨9, 1⟩ 1000000000)
      (firstMinute.take 7) = some w → w.Prompt 100 10 10 (.answer 0) := by
    intro w hw us hus
    cases hw
    cases hus
    decide
  -- nothing is asked of the other events
  exact Run.each_cons_of rfl trivial <| Run.each_cons_of rfl trivial <|
    Run.each_cons_of rfl trivial <| Run.each_cons_of rfl trivial <|
    Run.each_cons_of rfl trivial <| Run.each_cons_of rfl (hserve _ rfl) <|
    Run.each_cons_of rfl trivial <| Run.each_cons_of rfl (hanswer _ rfl) Run.each_nil

theorem offset_settles_firstMinute : ∃ w,
    Run.after (step ⟨0, 0, 0, 0⟩ 100) (start ⟨9, 1⟩ 1000000000) firstMinute = some w
      ∧ min 0 95 ≤ w.sync.delta ∧ w.sync.delta ≤ max 0 105 := by
  have hrun : ∃ w, Run.after (step ⟨0, 0, 0, 0⟩ 100) (start ⟨9, 1⟩ 1000000000) firstMinute
      = some w := ⟨_, rfl⟩
  obtain ⟨w, hw⟩ := hrun
  exact ⟨w, hw, (offset_settles ⟨0, 0, 0, 0⟩ 100 ⟨9, 1⟩ 1000000000 10 10 firstMinute w
    (by decide) hw prompt_firstMinute).1⟩

end SyncWorld

end DistributAr
