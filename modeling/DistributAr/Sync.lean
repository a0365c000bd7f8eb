/-
# `DistributAr.Sync` — asking the time server

`TimeSync::sync` sends `TIME` once a minute and takes every `T` that comes in for
the answer to its last `TIME`: the send time of that one, `lastLocal`, is all it
keeps.  `TimeServ::run` answers whatever reaches it with its clock.

Datagrams may be lost, delayed, duplicated and reordered: the network is the
number of `TIME`s sent and the list of readings answered so far, and any of them
may arrive at any time, again and again.

| event     | what happens                                                     |
|-----------|------------------------------------------------------------------|
| `elapse`  | time passes                                                      |
| `serve`   | a `TIME` reaches the server, which answers with its clock        |
| `answer`  | a `T` reaches the host                                           |
| `tracker` | a `POINT` or a `DROP` reaches the host                           |
| `timeout` | nothing comes, and the host may send a `GET` or a `TIME`         |

A sample is as good as its round trip exactly if the server read its clock after
the last `TIME` was sent, give or take a microsecond (`samples_bounded_iff`).
-/
import DistributAr.Lib.Run
import DistributAr.TimeSync
import DistributAr.Tracker

namespace DistributAr

open Lib

/-- The members of `TimeSync`. -/
structure TimeSync where
  delta : Int
  lastLocal : Int
  lastReply : Int
  trackerAddr : SockAddr
  serverAddr : SockAddr

/-- `SYNC_INTERVAL`, in seconds. -/
def syncInterval : Int := 60

/-- `SYNC_TIMEOUT`, in seconds. -/
def syncTimeout : Int := 3 * syncInterval

namespace TimeSync

/-- `TimeSync::TimeSync` -/
def new (trackerAddr : SockAddr) (now : Int) : TimeSync where
  delta := 0
  lastLocal := now - seconds syncTimeout
  lastReply := now - seconds syncTimeout
  trackerAddr := trackerAddr
  serverAddr := ⟨0, 0⟩

/-- What is in local variables that nothing was assigned to, and the address of
the local host. -/
structure Locals where
  remote : Int
  retCid : ClusterID
  ip : UInt64
  localIP : UInt64

/-- The `remote` of a `T`; `none` for every other command. -/
def readTime (g : Locals) (buff : List Char) : Option Int :=
  let (cmd, rs) := (IStream.ofChars buff).readWord
  if cmd.getD [] = "T".toList then some ((rs.readSigned 64).1.getD g.remote) else none

/-- What a `POINT` or a `DROP` makes of the server's address. -/
def readServerAddr (g : Locals) (s : TimeSync) (buff : List Char) : SockAddr :=
  let (cmd, rs) := (IStream.ofChars buff).readWord
  if cmd.getD [] = "POINT".toList then
    let (retCid, rs) := rs.readUnsigned 32
    if timeServerId = (retCid.map UInt32.ofNat).getD g.retCid then
      let (ip, rs) := rs.readUnsigned 64
      let ip := (ip.map UInt64.ofNat).getD g.ip
      let ip := if ip = g.localIP then s.trackerAddr.s_addr.toUInt64 else ip
      let (port, _) := rs.readUnsigned 16
      ⟨ip.toUInt32, (port.map UInt16.ofNat).getD s.serverAddr.sin_port⟩
    else s.serverAddr
  else if cmd.getD [] = "DROP".toList then ⟨0, 0⟩
  else s.serverAddr

/-- One pass of the loop of `TimeSync::sync`: what was read, the clock after the
read and before a `TIME` is sent, the members afterwards, and what is sent. -/
def iteration (g : Locals) (s : TimeSync) (buff : Option (List Char)) (now sendTime : Int) :
    TimeSync × Option (SockAddr × List Char) :=
  match buff with
  | some buff =>
      match readTime g buff with
      | some remote =>
          ({ s with delta := calculate s.delta s.lastLocal now remote, lastReply := now }, none)
      | none => ({ s with serverAddr := readServerAddr g s buff }, none)
  | none =>
      if now > s.lastReply + seconds syncTimeout then
        ({ s with lastReply := now }, some (s.trackerAddr, (Command.get timeServerId).text))
      else if s.serverAddr.sin_port ≠ 0 ∧ now > s.lastLocal + seconds syncInterval then
        ({ s with lastLocal := sendTime }, some (s.serverAddr, "TIME".toList))
      else (s, none)

end TimeSync

/-- What `TimeServ::run` answers when its clock reads `t`. -/
def TimeServ.reply (t : Int) : List Char :=
  "T ".toList ++ printUnsigned (TimeServ.timeUs t).toNat

/-- The host, its clock in microseconds, the number of `TIME`s sent, and the
readings of the server's clock in the `T`s sent. -/
structure SyncWorld where
  sync : TimeSync
  clock : Int
  requests : Nat
  replies : List Int

/-- What can happen.  A `T` is picked by its position in `replies`. -/
inductive SyncEvent where
  | elapse (us : Nat)
  | serve
  | answer (i : Nat)
  | tracker (reply : Option SockAddr)
  | timeout (us : Nat)

namespace SyncWorld

/-- A host that starts. -/
def start (trackerAddr : SockAddr) (clock : Int) : SyncWorld :=
  ⟨.new trackerAddr (microseconds clock), clock, 0, []⟩

/-- What the tracker answers to the `GET`. -/
def trackerReply : Option SockAddr → List Char
  | some addr => (Reply.point timeServerId addr).text
  | none => (Reply.drop timeServerId).text

/-- What is read in an event, if it is one pass of the loop. -/
def buffer (w : SyncWorld) : SyncEvent → Option (List Char)
  | .answer i => w.replies[i]?.map fun us => TimeServ.reply (microseconds us)
  | .tracker reply => some (trackerReply reply)
  | _ => none

/-- One pass of the loop, with `us` microseconds between the two looks at the
clock. -/
def pass (g : TimeSync.Locals) (w : SyncWorld) (buff : Option (List Char)) (us : Nat) : SyncWorld :=
  let (sync, sent) := w.sync.iteration g buff (microseconds w.clock) (microseconds (w.clock + us))
  let requests := if sent.any (·.2 = "TIME".toList) then w.requests + 1 else w.requests
  { w with sync := sync, clock := w.clock + us, requests := requests }

/-- One event, where the server's clock is `o` microseconds ahead.  No clock reads
a time before the epoch, or one that 64 bits do not hold. -/
def step (g : TimeSync.Locals) (o : Int) (w : SyncWorld) : SyncEvent → Option SyncWorld
  | .elapse us => some { w with clock := w.clock + us }
  | .serve =>
      if 0 < w.requests ∧ 0 ≤ w.clock + o ∧ w.clock + o < 2 ^ 63 then
        some { w with replies := w.replies ++ [w.clock + o] }
      else none
  | .answer i => w.replies[i]?.map fun us =>
      w.pass g (some (TimeServ.reply (microseconds us))) 0
  | .tracker reply => some (w.pass g (some (trackerReply reply)) 0)
  | .timeout us => some (w.pass g none us)

/-- A sample is off by at most half of its round trip, and a microsecond. -/
def Bounded (g : TimeSync.Locals) (o : Int) (w : SyncWorld) (e : SyncEvent) : Prop :=
  ∀ buff remote, w.buffer e = some buff → TimeSync.readTime g buff = some remote →
    ((TimeSync.diff w.sync.lastLocal (microseconds w.clock) remote - o).natAbs : Int)
      ≤ (TimeSync.trip w.sync.lastLocal (microseconds w.clock)).tdiv 2 + 1

/-- A `T` that arrives was written after the last `TIME` was sent, or at most a
microsecond before. -/
def Paired (o : Int) (w : SyncWorld) (e : SyncEvent) : Prop :=
  ∀ i us, e = .answer i → w.replies[i]? = some us →
    toMicroseconds w.sync.lastLocal - 1 ≤ us - o

variable {g : TimeSync.Locals} {o : Int} {w w' : SyncWorld} {e : SyncEvent}

/-! ## What is read -/

theorem toMicroseconds_microseconds (us : Int) : toMicroseconds (microseconds us) = us :=
  Int.mul_tdiv_cancel_left us (by decide)

/-- The host reads the time that the server wrote. -/
theorem readTime_reply {us : Int} (hlo : 0 ≤ us) (hhi : us < 2 ^ 63) :
    TimeSync.readTime g (TimeServ.reply (microseconds us)) = some us := by
  obtain ⟨n, rfl⟩ := Int.eq_ofNat_of_zero_le hlo
  have htext : TimeServ.reply (microseconds (n : Int)) = "T".toList ++ ' ' :: printUnsigned n := by
    rw [TimeServ.reply, TimeServ.timeUs, toMicroseconds_microseconds, Int.toNat_natCast]
    rfl
  have hread : (IStream.ofChars ([' '] ++ (printSigned n ++ []))).readSigned 64
      = (some (n : Int), ⟨[], true, false⟩) :=
    IStream.readSigned_text 64 [' '] [] (by simp [isSpace]) (by omega) hhi (by simp)
  rw [List.append_nil] at hread
  have hwrite : printSigned (n : Int) = printUnsigned n := rfl
  rw [hwrite] at hread
  rw [TimeSync.readTime, htext, readWord_command (by decide) rfl (by simp [isSpace])]
  dsimp only
  rw [Option.getD_some, if_pos rfl]
  have hstream : (⟨' ' :: printUnsigned n, List.isEmpty (' ' :: printUnsigned n), false⟩ : IStream)
      = IStream.ofChars ([' '] ++ printUnsigned n) := rfl
  rw [hstream, hread]
  rfl

/-- What the tracker writes is not a time. -/
theorem readTime_trackerReply (reply : Option SockAddr) :
    TimeSync.readTime g (trackerReply reply) = none := by
  cases reply with
  | none =>
      have htext : trackerReply none
          = "DROP".toList ++ ' ' :: printUnsigned timeServerId.toNat := rfl
      rw [TimeSync.readTime, htext, readWord_command (by decide) rfl (by simp [isSpace])]
      rfl
  | some addr =>
      have htext : trackerReply (some addr) = "POINT".toList ++ ' ' ::
          (printUnsigned timeServerId.toNat ++ ' ' :: (printUnsigned addr.s_addr.toNat
            ++ ' ' :: printUnsigned addr.sin_port.toNat)) := rfl
      rw [TimeSync.readTime, htext, readWord_command (by decide) rfl (by simp [isSpace])]
      rfl

/-! ## The invariant -/

/-- What holds in every state: no answer is from the future, and the last `TIME`
is not either. -/
structure Causal (o : Int) (w : SyncWorld) : Prop where
  replies : ∀ us ∈ w.replies, 0 ≤ us ∧ us < 2 ^ 63 ∧ us - o ≤ w.clock
  sent : ∃ k, w.sync.lastLocal = microseconds k ∧ k ≤ w.clock

/-- The send time changes only when a `TIME` is sent. -/
theorem iteration_lastLocal (s : TimeSync) (buff : Option (List Char)) (now sendTime : Int) :
    (s.iteration g buff now sendTime).1.lastLocal = s.lastLocal
      ∨ (s.iteration g buff now sendTime).1.lastLocal = sendTime := by
  unfold TimeSync.iteration
  cases buff with
  | some buff =>
      dsimp only
      split
      · exact .inl rfl
      · exact .inl rfl
  | none =>
      dsimp only
      split
      · exact .inl rfl
      split
      · exact .inr rfl
      · exact .inl rfl

theorem Causal.pass (h : w.Causal o) (buff : Option (List Char)) (us : Nat) :
    (w.pass g buff us).Causal o := by
  have hlater : w.clock ≤ w.clock + us := by omega
  constructor
  · intro r hr
    obtain ⟨hlo, hhi, hle⟩ := h.replies r hr
    exact ⟨hlo, hhi, Int.le_trans hle hlater⟩
  · obtain ⟨k, hk, hle⟩ := h.sent
    rcases iteration_lastLocal (g := g) w.sync buff (microseconds w.clock)
      (microseconds (w.clock + us)) with hold | hnew
    · exact ⟨k, hold.trans hk, Int.le_trans hle hlater⟩
    · exact ⟨w.clock + us, hnew, Int.le_refl _⟩

theorem causal_step (w : SyncWorld) (e : SyncEvent) (w' : SyncWorld) (h : w.Causal o)
    (hs : w.step g o e = some w') : w'.Causal o := by
  cases e with
  | elapse us =>
      cases hs
      refine ⟨?_, ?_⟩
      · intro r hr
        obtain ⟨hlo, hhi, hle⟩ := h.replies r hr
        exact ⟨hlo, hhi, Int.le_trans hle (Int.le_add_of_nonneg_right (Int.natCast_nonneg us))⟩
      · obtain ⟨k, hk, hle⟩ := h.sent
        exact ⟨k, hk, Int.le_trans hle (Int.le_add_of_nonneg_right (Int.natCast_nonneg us))⟩
  | serve =>
      rw [step] at hs
      split at hs
      · rename_i hguard
        cases hs
        refine ⟨?_, h.sent⟩
        intro r hr
        rcases List.mem_append.mp hr with hold | hnew
        · exact h.replies r hold
        · obtain rfl := List.mem_singleton.mp hnew
          exact ⟨hguard.2.1, hguard.2.2, Int.le_of_eq (Int.add_sub_cancel ..)⟩
      · cases hs
  | answer i =>
      obtain ⟨us, -, rfl⟩ := Option.map_eq_some_iff.mp hs
      exact h.pass _ 0
  | tracker reply =>
      cases hs
      exact h.pass _ 0
  | timeout us =>
      cases hs
      exact h.pass _ us

theorem causal_start (trackerAddr : SockAddr) (clock : Int) :
    (start trackerAddr clock).Causal o where
  replies := fun _ h => absurd h List.not_mem_nil
  sent := by
    refine ⟨clock - 1000000 * syncTimeout, ?_, ?_⟩
    · simp only [start, TimeSync.new, microseconds, seconds]
      omega
    · simp only [start, syncTimeout, syncInterval]
      omega

/-! ## One sample -/

/-- A sample taken at `c` for a `TIME` sent at `k`: the server's reading lies
between the two, but for a microsecond. -/
theorem sample_bounded_iff {k c us : Int} (hk : k ≤ c) (hus : us - o ≤ c) :
    ((TimeSync.diff (microseconds k) (microseconds c) us - o).natAbs : Int)
        ≤ (TimeSync.trip (microseconds k) (microseconds c)).tdiv 2 + 1
      ↔ k - 1 ≤ us - o := by
  have htrip : TimeSync.trip (microseconds k) (microseconds c) = c - k := by
    have hsub : microseconds c - microseconds k = microseconds (c - k) := by
      simp only [microseconds]
      omega
    rw [TimeSync.trip, hsub, toMicroseconds_microseconds]
  rw [TimeSync.diff, htrip, toMicroseconds_microseconds,
    Int.tdiv_eq_ediv_of_nonneg (by omega : 0 ≤ c - k)]
  omega

/-- One event. -/
theorem bounded_iff_paired (w : SyncWorld) (e : SyncEvent) (w' : SyncWorld) (h : w.Causal o)
    (hs : w.step g o e = some w') : w.Bounded g o e ↔ w.Paired o e := by
  have hnothing : (∀ buff, w.buffer e = some buff → TimeSync.readTime g buff = none) →
      (∀ i, e ≠ .answer i) → (w.Bounded g o e ↔ w.Paired o e) := by
    intro hbuffer hnot
    refine iff_of_true ?_ ?_
    · intro buff remote hbuff hread
      exact nomatch (hbuffer buff hbuff).symm.trans hread
    · intro i us heq
      exact absurd heq (hnot i)
  cases e with
  | elapse us => exact hnothing (fun _ hbuff => nomatch hbuff) fun _ heq => nomatch heq
  | serve => exact hnothing (fun _ hbuff => nomatch hbuff) fun _ heq => nomatch heq
  | timeout us => exact hnothing (fun _ hbuff => nomatch hbuff) fun _ heq => nomatch heq
  | tracker reply =>
      refine hnothing ?_ fun _ heq => nomatch heq
      intro buff hbuff
      cases hbuff
      exact readTime_trackerReply reply
  | answer i =>
      obtain ⟨us, hat, -⟩ := Option.map_eq_some_iff.mp hs
      obtain ⟨hlo, hhi, hcausal⟩ := h.replies us (List.mem_of_getElem? hat)
      obtain ⟨k, hk, hle⟩ := h.sent
      have hbuffer : w.buffer (.answer i) = some (TimeServ.reply (microseconds us)) := by
        rw [buffer, hat]
        rfl
      have hone : w.Bounded g o (.answer i)
          ↔ ((TimeSync.diff w.sync.lastLocal (microseconds w.clock) us - o).natAbs : Int)
            ≤ (TimeSync.trip w.sync.lastLocal (microseconds w.clock)).tdiv 2 + 1 := by
        constructor
        · intro hbound
          exact hbound _ us hbuffer (readTime_reply hlo hhi)
        · intro hbound buff remote hbuff hread
          cases hbuffer.symm.trans hbuff
          cases (readTime_reply hlo hhi).symm.trans hread
          exact hbound
      have hpaired : w.Paired o (.answer i) ↔ k - 1 ≤ us - o := by
        rw [Paired, hk, toMicroseconds_microseconds]
        constructor
        · exact fun hall => hall i us rfl hat
        · intro hle i' us' heq hat'
          cases heq
          cases hat.symm.trans hat'
          exact hle
      rw [hone, hpaired, hk]
      exact sample_bounded_iff hle hcausal

/-- In every run: all samples are as good as their round trips exactly if every
`T` that arrives was written after the last `TIME`, give or take a microsecond. -/
theorem samples_bounded_iff (g : TimeSync.Locals) (o : Int) (trackerAddr : SockAddr) (clock : Int)
    (events : List SyncEvent) :
    Run.Each (step g o) (Bounded g o) (start trackerAddr clock) events
      ↔ Run.Each (step g o) (Paired o) (start trackerAddr clock) events :=
  Run.each_congr causal_step bounded_iff_paired (causal_start trackerAddr clock)

/-- The answer to the first `TIME` is still on its way when the second is sent. -/
def overtaken : List SyncEvent :=
  [.elapse 1, .timeout 0, .tracker (some ⟨7, 33⟩), .timeout 0, .serve, .elapse 61000000, .timeout 0]

/-- It comes next, with equal clocks and a round trip of nothing: the sample is off
by 61 seconds. -/
theorem overtaken_not_bounded : ¬ Run.Each (step ⟨0, 0, 0, 0⟩ 0) (Bounded ⟨0, 0, 0, 0⟩ 0)
    (start ⟨9, 1⟩ 1000000000) (overtaken ++ [.answer 0]) := by
  intro h
  have hsample := h overtaken (.answer 0) (List.prefix_refl _) _ rfl rfl _ 1000000001 rfl rfl
  exact absurd hsample (by decide)

end SyncWorld

end DistributAr
