/-
# `DistributAr.Refinement` — the threads do what `Process` does

Where the threads take many steps, `Process` takes one, at the moment from which
the others can see it:

| in `Process` | step of the threads                                                 |
|--------------|---------------------------------------------------------------------|
| `write`      | the attempt, if it succeeds; else, in `push`, the store of `ain`,   |
|              | or the load of an `aout` that leaves no room                        |
| `dispatch`   | the store of `aout` in `pop`                                        |
| `receive`    | `readVerify`, if it accepts the packet                              |

Until the thread of the server is through with `write`, and the main thread with
its subscribers, the two states differ by what these still have to do: the new
buffer of the server (`Writes`), the copies not pushed yet (`pending`).
-/
import DistributAr.Filtering
import DistributAr.Lib.Simulation
import DistributAr.Threads

namespace DistributAr

open Lib

/-! ## What the threads stand for -/

namespace ServerThread

/-- The packet that a failed attempt left in the buffer. -/
structure Failed (id : ClusterID) (timeBuff : TimeBuffer) (c : Call) (before : TimeBuffer) :
    Prop where
  drops : ¬ before.Drops c.time
  fills : before.Fills c.time
  packet : timeBuff = (before.sealed c.delta c.time).setSrcClusterId id

/-- The server has not flushed yet. -/
def Before (t : ServerThread) (before : TimeBuffer) (s : Server) : Prop :=
  s.timeBuff = before ∧ s.sent = t.sent

/-- The server has flushed, and its new buffer has taken the impulse. -/
def After (t : ServerThread) (c : Call) (before : TimeBuffer) (s : Server) : Prop :=
  s.timeBuff = TimeBuffer.new.stored c.index c.time ∧ s.sent = t.sent ++ [⟨before, t.timeBuff, c⟩]

/-- A push is over when it has stored `ain`, or loaded an `aout` that leaves no
room. -/
def Pushes (t : ServerThread) (c : Call) (before : TimeBuffer) (s : Server) :
    PushState TimeBuffer maxMsgQSize → Prop
  | .idle => False
  | .loadedIn val _ => val = t.timeBuff ∧ t.Before before s
  | .loadedOut val ain aout _ => val = t.timeBuff
      ∧ (Ring.next ain = aout → t.After c before s) ∧ (Ring.next ain ≠ aout → t.Before before s)
  | .written val _ => val = t.timeBuff ∧ t.Before before s

/-- The server, depending on where the thread is in `write`. -/
def Writes (t : ServerThread) (s : Server) : WriteAt → Prop
  | .outside => t.outQ.producer = .idle ∧ t.Before t.timeBuff s
  | .attempt c => t.outQ.producer = .idle ∧ s.sent = t.sent ∧ (s.timeBuff = t.timeBuff
      ∨ t.timeBuff = .new ∧ s.timeBuff = TimeBuffer.new.stored c.index c.time)
  | .push c before => t.outQ.producer = .idle ∧ Failed t.id t.timeBuff c before ∧ t.Before before s
  | .pushing c before => Failed t.id t.timeBuff c before ∧ t.Pushes c before s t.outQ.producer
  | .send c before => t.outQ.producer = .idle ∧ Failed t.id t.timeBuff c before ∧ t.After c before s
  | .renew c => t.outQ.producer = .idle ∧ s.sent = t.sent
      ∧ s.timeBuff = TimeBuffer.new.stored c.index c.time

/-- A server thread stands for a node; `pending` is what the main thread has for
it. -/
structure StandsFor (t : ServerThread) (pending : List (Via × TimeBuffer)) (n : Node) : Prop where
  id : n.server.id = t.id
  outQ : n.server.outQ = t.outQ.content
  writes : t.Writes n.server t.place
  inQ : n.inQ = t.inQ ++ pending
  delivered : n.delivered = t.delivered
  queue : t.outQ.Inv

end ServerThread

namespace ServerThread

variable {t : ServerThread} {n : Node} {pending : List (Via × TimeBuffer)}
  {q : FreeQueue TimeBuffer maxMsgQSize}

/-- Where the thread is in `write` has nothing to do with the consumer. -/
theorem Writes.outQ {s : Server} {place : WriteAt} (h : t.Writes s place)
    (hq : q.producer = t.outQ.producer) : Writes { t with outQ := q } s place := by
  cases place with
  | pushing c before =>
      obtain ⟨hfailed, hpushes⟩ := h
      refine ⟨hfailed, ?_⟩
      show Pushes _ c before s q.producer
      rw [hq]
      cases hp : t.outQ.producer with
      | idle =>
          rw [hp] at hpushes
          exact hpushes
      | loadedIn val ain =>
          rw [hp] at hpushes
          exact hpushes
      | loadedOut val ain aout queued =>
          rw [hp] at hpushes
          exact hpushes
      | written val ain =>
          rw [hp] at hpushes
          exact hpushes
  | renew c => exact ⟨hq.trans h.1, h.2⟩
  | _ => exact ⟨hq.trans h.1, h.2⟩

/-- A step inside `pop` that pops nothing. -/
theorem StandsFor.popGo (h : t.StandsFor pending n) (hq : t.outQ.Step q)
    (hp : q.producer = t.outQ.producer) (hpopped : q.popped = t.outQ.popped) :
    StandsFor { t with outQ := q } pending n where
  id := h.id
  outQ := h.outQ.trans (FreeQueue.content_congr (hq.pop_cases hp).1 hpopped).symm
  writes := h.writes.outQ hp
  inQ := h.inQ
  delivered := h.delivered
  queue := FreeQueue.inv_step _ _ h.queue hq

end ServerThread

/-- What the main thread still has to push to a server. -/
def MainAt.pending (i : Nat) : MainAt → List (Via × TimeBuffer)
  | .deliver data left _ => List.replicate (left.count i) data
  | _ => []

namespace Threads

/-- The threads stand for a process. -/
structure StandsFor (s : Threads) (p : Process) : Prop where
  servers : ∀ i, (s.servers i).StandsFor (s.main.pending i) (p.servers i)
  subscribers : p.subscribers = s.subscribers
  posts : p.posts = s.posts
  lastTime : ∀ id, p.network.lastTime id = s.network.lastTime id
  popping : ∀ i, (s.servers i).outQ.consumer ≠ .idle ↔ s.main = .popping i

variable {s s' : Threads} {p : Process} {i : Nat} {t : ServerThread} {n : Node}

@[simp] theorem update_servers : (s.update i t).servers i = t := Function.update_self ..

theorem update_other {j : Nat} (h : j ≠ i) : (s.update i t).servers j = s.servers j :=
  Function.update_of_ne h ..

/-- One thread moves, and its node with it. -/
theorem StandsFor.update (h : s.StandsFor p) (hn : t.StandsFor (s.main.pending i) n)
    (hc : t.outQ.consumer = (s.servers i).outQ.consumer) :
    (s.update i t).StandsFor (p.update i n) := by
  refine ⟨?_, h.subscribers, h.posts, h.lastTime, ?_⟩
  · intro j
    by_cases hj : j = i
    · subst hj
      rw [update_servers, Process.update_self]
      exact hn
    · rw [update_other hj]
      have hother : (p.update i n).servers j = p.servers j := Function.update_of_ne hj ..
      rw [hother]
      exact h.servers j
  · intro j
    by_cases hj : j = i
    · subst hj
      rw [update_servers, hc]
      exact h.popping j
    · rw [update_other hj]
      exact h.popping j

theorem update_same (p : Process) (i : Nat) : p.update i (p.servers i) = p := by
  show { p with servers := _ } = p
  rw [Function.update_eq_self]

/-- One thread moves, and its node does not. -/
theorem StandsFor.stutter (h : s.StandsFor p) (hn : t.StandsFor (s.main.pending i) (p.servers i))
    (hc : t.outQ.consumer = (s.servers i).outQ.consumer) :
    (s.update i t).StandsFor p := by
  rw [← update_same p i]
  exact h.update hn hc

/-! ### A server thread -/

/-- What the server of a thread holds, where the thread is. -/
theorem StandsFor.writesAt (h : s.StandsFor p) {place : WriteAt}
    (hplace : (s.servers i).place = place) :
    (s.servers i).Writes (p.servers i).server place :=
  hplace ▸ (h.servers i).writes

/-- Inside `push`, the thread is at one of its steps. -/
theorem StandsFor.pushing (h : s.StandsFor p) {c : Call} {before : TimeBuffer}
    (hplace : (s.servers i).place = .pushing c before) :
    ServerThread.Failed (s.servers i).id (s.servers i).timeBuff c before
      ∧ (s.servers i).Pushes c before (p.servers i).server (s.servers i).outQ.producer
      ∧ (s.servers i).outQ.producer ≠ .idle := by
  obtain ⟨hfailed, hpushes⟩ := h.writesAt hplace
  refine ⟨hfailed, hpushes, ?_⟩
  intro hidle
  rw [hidle] at hpushes
  exact hpushes

/-- The abstract server writes when the attempt succeeds, unless it has. -/
theorem StandsFor.taken (h : s.StandsFor p) {c : Call} {ret : Int} {b : TimeBuffer}
    (hplace : (s.servers i).place = .attempt c)
    (hw : (s.servers i).timeBuff.write c.delta c.index c.time = .ok (ret, b)) (hret : ¬ ret < 0) :
    ∃ p', Process.system.Steps p p' ∧ StandsFor
      (s.update i { s.servers i with timeBuff := b, place := .outside }) p' := by
  have ht := h.servers i
  obtain ⟨hproducer, hsent, hbuff | ⟨hnew, hbuff⟩⟩ := h.writesAt hplace
  · have hserver : (p.servers i).server.write c
        = .ok { (p.servers i).server with timeBuff := b } := by
      rw [← hbuff] at hw
      simp only [Server.write, Server.writeLoop, hw, if_neg hret]
    refine ⟨_, .single (Process.Step.write i c hserver), h.update ?_ rfl⟩
    exact { ht with writes := ⟨hproducer, rfl, hsent⟩ }
  · rw [hnew, TimeBuffer.write_of_stores (TimeBuffer.new_not_drops _)
      (TimeBuffer.new_not_fills _)] at hw
    cases hw
    exact ⟨p, .refl p, h.stutter { ht with writes := ⟨hproducer, hbuff, hsent⟩ } rfl⟩

/-- An attempt that fails is the first. -/
theorem StandsFor.full (h : s.StandsFor p) {c : Call} {ret : Int} {b : TimeBuffer}
    (hplace : (s.servers i).place = .attempt c)
    (hw : (s.servers i).timeBuff.write c.delta c.index c.time = .ok (ret, b)) (hret : ret < 0) :
    StandsFor (s.update i { s.servers i with
      timeBuff := b.setSrcClusterId (s.servers i).id
      place := .push c (s.servers i).timeBuff }) p := by
  have ht := h.servers i
  obtain ⟨hproducer, hsent, hbuff⟩ := h.writesAt hplace
  obtain ⟨-, he⟩ | ⟨hd, hf, he⟩ | ⟨-, -, he⟩ :=
    TimeBuffer.write_cases (s.servers i).timeBuff c.delta c.index c.time <;>
      rw [he] at hw <;> cases hw
  · exact absurd hret (lt_irrefl _)
  · rcases hbuff with hbuff | ⟨hnew, -⟩
    · exact h.stutter { ht with writes := ⟨hproducer, ⟨hd, hf, rfl⟩, hbuff, hsent⟩ } rfl
    · rw [hnew] at hf
      exact absurd hf (TimeBuffer.new_not_fills _)
  · omega

/-- The flush of the abstract server. -/
theorem StandsFor.flush (h : s.StandsFor p) {c : Call} {before : TimeBuffer}
    (hfailed : ServerThread.Failed (s.servers i).id (s.servers i).timeBuff c before)
    (hbefore : (s.servers i).Before before (p.servers i).server) :
    (p.servers i).server.write c = .ok ((p.servers i).server.restarted c)
      ∧ ((p.servers i).server.restarted c).outQ
        = Server.pushOut (s.servers i).outQ.content (s.servers i).timeBuff
      ∧ (s.servers i).After c before ((p.servers i).server.restarted c) := by
  obtain ⟨hbuff, hsent⟩ := hbefore
  have ht := h.servers i
  have hpacket : ((p.servers i).server.timeBuff.sealed c.delta c.time).setSrcClusterId
      (p.servers i).server.id = (s.servers i).timeBuff := by
    rw [hbuff, ht.id, hfailed.packet]
  refine ⟨?_, ?_, rfl, ?_⟩
  · rw [← hbuff] at hfailed
    obtain ⟨hd, -⟩ | ⟨-, hf, -⟩ | ⟨-, -, he⟩ := Server.write_cases (p.servers i).server c
    · exact absurd hd hfailed.drops
    · exact absurd hfailed.fills hf
    · exact he
  · show Server.pushOut _ _ = _
    rw [ht.outQ, hpacket]
  · show _ ++ [Flush.mk _ _ _] = _
    rw [hsent, hbuff, ← hpacket, hbuff]

/-- A step inside `push`: it may be the one that finds no room. -/
theorem StandsFor.pushGo (h : s.StandsFor p) {c : Call} {before : TimeBuffer}
    {q : FreeQueue TimeBuffer maxMsgQSize} (hplace : (s.servers i).place = .pushing c before)
    (hq : (s.servers i).outQ.Step q) (hc : q.consumer = (s.servers i).outQ.consumer)
    (hgo : q.producer ≠ .idle) :
    ∃ p', Process.system.Steps p p' ∧
      StandsFor (s.update i { s.servers i with outQ := q }) p' := by
  have ht := h.servers i
  have hinv := FreeQueue.inv_step _ _ ht.queue hq
  obtain ⟨hfailed, hpushes, hbusy⟩ := h.pushing hplace
  obtain ⟨val, ain, hp, rfl⟩ | ⟨val, ain, aout, queued, hp, hfull, rfl⟩
    | ⟨val, ain, aout, queued, hp, hroom, rfl⟩ | ⟨val, ain, hp, rfl⟩ := hq.push_cases hc hbusy
  · rw [hp] at hpushes
    obtain ⟨hval, hbefore⟩ := hpushes
    by_cases hfull : Ring.next ain = (s.servers i).outQ.aout
    · obtain ⟨hwrite, hout, hafter⟩ := h.flush hfailed hbefore
      refine ⟨_, .single (Process.Step.write i c hwrite), h.update ?_ rfl⟩
      refine ⟨ht.id, ?_, ?_, ht.inQ, ht.delivered, hinv⟩
      · rw [hout, Server.pushOut, if_neg (ht.queue.content_full hp hfull)]
        rfl
      · show ServerThread.Writes _ _ (s.servers i).place
        rw [hplace]
        exact ⟨hfailed, hval, fun _ => hafter, fun hne => absurd hfull hne⟩
    · refine ⟨p, .refl p, h.stutter { ht with queue := hinv, writes := ?_ } rfl⟩
      show ServerThread.Writes _ _ (s.servers i).place
      rw [hplace]
      exact ⟨hfailed, hval, fun heq => absurd heq hfull, fun _ => hbefore⟩
  · exact absurd rfl hgo
  · rw [hp] at hpushes
    obtain ⟨hval, -, hbefore⟩ := hpushes
    refine ⟨p, .refl p, h.stutter { ht with queue := hinv, writes := ?_ } rfl⟩
    show ServerThread.Writes _ _ (s.servers i).place
    rw [hplace]
    exact ⟨hfailed, hval, hbefore hroom⟩
  · exact absurd rfl hgo

/-- The end of `push`: it has failed before, or succeeds now. -/
theorem StandsFor.pushReturn (h : s.StandsFor p) {c : Call} {before : TimeBuffer}
    {q : FreeQueue TimeBuffer maxMsgQSize} (hplace : (s.servers i).place = .pushing c before)
    (hq : (s.servers i).outQ.Step q) (hc : q.consumer = (s.servers i).outQ.consumer)
    (hidle : q.producer = .idle) :
    ∃ p', Process.system.Steps p p' ∧
      StandsFor (s.update i { s.servers i with outQ := q, place := .send c before }) p' := by
  have ht := h.servers i
  have hinv := FreeQueue.inv_step _ _ ht.queue hq
  obtain ⟨hfailed, hpushes, hbusy⟩ := h.pushing hplace
  obtain ⟨val, ain, hp, rfl⟩ | ⟨val, ain, aout, queued, hp, hfull, rfl⟩
    | ⟨val, ain, aout, queued, hp, hroom, rfl⟩ | ⟨val, ain, hp, rfl⟩ := hq.push_cases hc hbusy
  · exact nomatch hidle
  · rw [hp] at hpushes
    obtain ⟨-, hafter, -⟩ := hpushes
    exact ⟨p, .refl p,
      h.stutter { ht with queue := hinv, writes := ⟨rfl, hfailed, hafter hfull⟩ } rfl⟩
  · exact nomatch hidle
  · have hfits := ht.queue.content_room hp
    rw [hp] at hpushes
    obtain ⟨rfl, hbefore⟩ := hpushes
    obtain ⟨hwrite, hout, hafter⟩ := h.flush hfailed hbefore
    refine ⟨_, .single (Process.Step.write i c hwrite), h.update ?_ rfl⟩
    refine ⟨ht.id, ?_, ⟨rfl, hfailed, hafter⟩, ht.inQ, ht.delivered, hinv⟩
    rw [hout, Server.pushOut, if_pos hfits]
    refine Eq.symm ?_
    exact ht.queue.content_pushed rfl rfl

end Threads

/-! ### The main thread -/

namespace Network

variable {n m : Network} {r : Reading}

theorem verdict_accepted_iff :
    (n.readVerify r.delta r.now r.ret r.packet).1 = .accepted ↔ n.Accepts r := by
  have hcount : (r.packet.prepareRead r.delta).sizeData ≤ 0 ↔ ¬ 0 < r.packet.count :=
    Nat.not_lt.symm
  unfold readVerify Accepts
  split
  · rename_i hret
    exact ⟨nofun, fun h => absurd hret h.1⟩
  dsimp only
  split
  · rename_i hempty
    exact ⟨nofun, fun h => absurd h.2.1 (hcount.mp hempty)⟩
  split
  · rename_i hold
    exact ⟨nofun, fun h => absurd h.2.2.1 (Int.not_le.mpr hold)⟩
  split
  · rename_i horder
    exact ⟨nofun, fun h => absurd h.2.2.2 (Int.not_le.mpr horder)⟩
  · rename_i hret hempty hold horder
    exact ⟨fun _ => ⟨hret, Nat.pos_of_ne_zero fun h => hempty (Nat.le_of_eq h), Int.not_lt.mp hold,
      Int.not_lt.mp horder⟩, fun _ => rfl⟩

/-- Two networks with the same times accept the same packets, and have the same
times afterwards. -/
theorem accepts_congr (h : ∀ k, n.lastTime k = m.lastTime k) : n.Accepts r ↔ m.Accepts r := by
  rw [Accepts, Accepts, h]

theorem lastTime_accepted (h : n.Accepts r) (k : ClusterID) :
    (n.readVerify r.delta r.now r.ret r.packet).2.2.lastTime k
      = if k = r.source then r.base else n.lastTime k := by
  obtain ⟨-, -, htime⟩ | ⟨hno, -, -⟩ := receive_cases n r
  · exact htime k
  · exact absurd h hno

theorem lastTime_refused (h : ¬ n.Accepts r) (k : ClusterID) :
    (n.readVerify r.delta r.now r.ret r.packet).2.2.lastTime k = n.lastTime k := by
  obtain ⟨hyes, -, -⟩ | ⟨-, -, htime⟩ := receive_cases n r
  · exact absurd hyes h
  · exact htime k

end Network

namespace Threads

variable {s s' : Threads} {p : Process} {i : Nat}

/-- The main thread is elsewhere in its loop, with nothing to push, and its table
is the one it had. -/
theorem StandsFor.go (h : s.StandsFor p) {before main : MainAt} (hmain : s.main = before)
    (hpending : ∀ i, before.pending i = []) (hpending' : ∀ i, main.pending i = [])
    (hpopping : ∀ i, before ≠ .popping i) (hpopping' : ∀ i, main ≠ .popping i) :
    StandsFor { s with main := main } p := by
  subst hmain
  refine ⟨?_, h.subscribers, h.posts, h.lastTime, ?_⟩
  · intro i
    have hi := h.servers i
    rw [hpending i] at hi
    show (s.servers i).StandsFor (main.pending i) (p.servers i)
    rw [hpending' i]
    exact hi
  · intro i
    have hi := h.popping i
    exact ⟨fun hc => absurd (hi.mp hc) (hpopping i), fun hm => absurd hm (hpopping' i)⟩

theorem StandsFor.node (h : s.StandsFor p) {main : MainAt} (hmain : s.main = main) (i : Nat) :
    (s.servers i).StandsFor (main.pending i) (p.servers i) :=
  hmain ▸ h.servers i

theorem StandsFor.consumer_idle (h : s.StandsFor p) {main : MainAt} (hmain : s.main = main)
    (hpopping : ∀ i, main ≠ .popping i) (i : Nat) : (s.servers i).outQ.consumer = .idle := by
  by_contra hc
  exact hpopping i (hmain.symm.trans ((h.popping i).mp hc))

/-- What the main thread has is handed to the subscribers of its source. -/
theorem StandsFor.hand (h : s.StandsFor p) {before : MainAt} (hmain : s.main = before)
    (hpending : ∀ i, before.pending i = []) (hpopping : ∀ i, before ≠ .popping i)
    (source : Option Nat) (data : Via × TimeBuffer) (next : Nat) :
    StandsFor { s with
      main := .deliver data (s.subscribers data.2.getSrcClusterId) next
      posts := s.posts ++ [⟨source, data, s.subscribers⟩] } (p.push source data) := by
  subst hmain
  have hposts : (p.push source data).posts = s.posts ++ [⟨source, data, s.subscribers⟩] := by
    show p.posts ++ [⟨source, data, p.subscribers⟩] = _
    rw [h.posts, h.subscribers]
  refine ⟨?_, h.subscribers, hposts, h.lastTime, ?_⟩
  · intro i
    have hi := h.servers i
    rw [hpending i] at hi
    refine ⟨hi.id, hi.outQ, hi.writes, ?_, hi.delivered, hi.queue⟩
    show _ ++ _ = _ ++ List.replicate _ _
    rw [hi.inQ, List.append_nil, h.subscribers]
  · intro i
    exact ⟨fun hc => absurd ((h.popping i).mp hc) (hpopping i), nofun⟩

/-- A packet from outside. -/
theorem StandsFor.accepted (h : s.StandsFor p) {delta now ret : Int} {bb : TimeBuffer}
    (hmain : s.main = .receive) (hacc : (s.network.readVerify delta now ret bb).1 = .accepted) :
    ∃ p', Process.system.Steps p p' ∧ StandsFor { s with
      network := (s.network.readVerify delta now ret bb).2.2
      main := .deliver (.network, (s.network.readVerify delta now ret bb).2.1)
        (s.subscribers (s.network.readVerify delta now ret bb).2.1.getSrcClusterId) 0
      posts := s.posts ++
        [⟨none, (.network, (s.network.readVerify delta now ret bb).2.1), s.subscribers⟩] } p' := by
  have haccepts : s.network.Accepts ⟨ret, bb, now, delta⟩ := Network.verdict_accepted_iff.mp hacc
  have haccepts' := (Network.accepts_congr h.lastTime).mpr haccepts
  have hsame : (p.network.readVerify delta now ret bb).2.1
      = (s.network.readVerify delta now ret bb).2.1 := by
    rw [Network.readVerify_buffer _ _ _ _ haccepts.1, Network.readVerify_buffer _ _ _ _ haccepts.1]
  have hnetwork : StandsFor { s with network := (s.network.readVerify delta now ret bb).2.2 }
      { p with network := (p.network.readVerify delta now ret bb).2.2 } := by
    refine { h with lastTime := ?_ }
    intro k
    have hleft := Network.lastTime_accepted haccepts' k
    have hright := Network.lastTime_accepted haccepts k
    rw [h.lastTime] at hleft
    exact hleft.trans hright.symm
  refine ⟨_, .single (Process.Step.receive delta now ret bb
    (Network.verdict_accepted_iff.mpr haccepts')), ?_⟩
  rw [hsame]
  exact hnetwork.hand hmain (fun _ => rfl) nofun none _ 0

theorem StandsFor.refused (h : s.StandsFor p) {delta now ret : Int} {bb : TimeBuffer}
    (hmain : s.main = .receive) (hacc : (s.network.readVerify delta now ret bb).1 ≠ .accepted) :
    StandsFor { s with
      network := (s.network.readVerify delta now ret bb).2.2
      main := .scan 0 } p := by
  have hrefuses : ¬ s.network.Accepts ⟨ret, bb, now, delta⟩ :=
    fun ha => hacc (Network.verdict_accepted_iff.mpr ha)
  have hgo : StandsFor { s with main := .scan 0 } p :=
    h.go hmain (fun _ => rfl) (fun _ => rfl) nofun nofun
  exact { hgo with
    lastTime := fun k => (h.lastTime k).trans (Network.lastTime_refused hrefuses k).symm }

/-- One subscriber gets its copy. -/
theorem StandsFor.deliver (h : s.StandsFor p) {data : Via × TimeBuffer} {next : Nat}
    {left : List Nat} (hmain : s.main = .deliver data (i :: left) next) :
    StandsFor { s.update i { s.servers i with inQ := (s.servers i).inQ ++ [data] } with
      main := .deliver data left next } p := by
  refine ⟨?_, h.subscribers, h.posts, h.lastTime, ?_⟩
  · intro j
    have hj := h.node hmain j
    by_cases hji : j = i
    · subst hji
      show ((s.update j _).servers j).StandsFor _ _
      rw [update_servers]
      refine ⟨hj.id, hj.outQ, hj.writes, ?_, hj.delivered, hj.queue⟩
      show (p.servers j).inQ = ((s.servers j).inQ ++ [data]) ++ List.replicate (left.count j) data
      rw [hj.inQ, MainAt.pending, List.count_cons_self, List.append_assoc, List.replicate_succ]
      rfl
    · show ((s.update i _).servers j).StandsFor (List.replicate (left.count j) data) _
      rw [update_other hji]
      rw [MainAt.pending, List.count_cons_of_ne (Ne.symm hji)] at hj
      exact hj
  · intro j
    have hidle := h.consumer_idle hmain nofun j
    refine ⟨fun hc => absurd ?_ hc, nofun⟩
    show ((s.update i _).servers j).outQ.consumer = .idle
    by_cases hji : j = i
    · subst hji
      rw [update_servers]
      exact hidle
    · rw [update_other hji]
      exact hidle

/-- The consumer's side of one queue moves, with the main thread. -/
theorem StandsFor.pop (h : s.StandsFor p) {q : FreeQueue TimeBuffer maxMsgQSize} {n : Node}
    {before main : MainAt} (hn : ServerThread.StandsFor { s.servers i with outQ := q } [] n)
    (hmain : s.main = before)
    (hpending : ∀ j, before.pending j = []) (hpending' : ∀ j, main.pending j = [])
    (hpopping : ∀ j, before = .popping j → j = i) (hpopping' : ∀ j, main = .popping j → j = i)
    (hc : q.consumer ≠ .idle ↔ main = .popping i) :
    StandsFor { s.update i { s.servers i with outQ := q } with main := main } (p.update i n) := by
  subst hmain
  refine ⟨?_, h.subscribers, h.posts, h.lastTime, ?_⟩
  · intro j
    show ((s.update i _).servers j).StandsFor (main.pending j) _
    rw [hpending' j]
    by_cases hji : j = i
    · subst hji
      rw [update_servers, Process.update_self]
      exact hn
    · have hj := h.servers j
      rw [hpending j] at hj
      have hother : (p.update i n).servers j = p.servers j := Function.update_of_ne hji ..
      rw [update_other hji, hother]
      exact hj
  · intro j
    show ((s.update i _).servers j).outQ.consumer ≠ .idle ↔ main = .popping j
    by_cases hji : j = i
    · subst hji
      rw [update_servers]
      exact hc
    · rw [update_other hji]
      constructor
      · intro hbusy
        exact absurd (hpopping j ((h.popping j).mp hbusy)) hji
      · intro hnext
        exact absurd (hpopping' j hnext) hji

/-- The main thread pops from one queue at a time. -/
theorem popping_inj {i j : Nat} (h : MainAt.popping i = .popping j) : j = i := by
  cases h
  rfl

theorem StandsFor.popCall (h : s.StandsFor p) (hmain : s.main = .scan i) :
    StandsFor { s.update i { s.servers i with
      outQ := { (s.servers i).outQ with consumer := .loadedOut (s.servers i).outQ.aout } } with
      main := .popping i } p := by
  have hstep : (s.servers i).outQ.Step _ := .popLoadOut (h.consumer_idle hmain nofun i)
  have hi : (s.servers i).StandsFor [] (p.servers i) := h.node hmain i
  rw [← update_same p i]
  exact h.pop (hi.popGo hstep rfl rfl) hmain (fun _ => rfl) (fun _ => rfl) nofun
    (fun _ => popping_inj) (iff_of_true nofun rfl)

theorem StandsFor.popGo (h : s.StandsFor p) {q : FreeQueue TimeBuffer maxMsgQSize}
    (hmain : s.main = .popping i) (hq : (s.servers i).outQ.Step q)
    (hp : q.producer = (s.servers i).outQ.producer) (hgo : q.consumer ≠ .idle) :
    StandsFor (s.update i { s.servers i with outQ := q }) p := by
  have hpopped : q.popped = (s.servers i).outQ.popped :=
    (hq.pop_cases hp).2.resolve_right fun hidle => hgo hidle.1
  have hi : (s.servers i).StandsFor [] (p.servers i) := h.node hmain i
  have hsame : s.update i { s.servers i with outQ := q }
      = { s.update i { s.servers i with outQ := q } with main := .popping i } := by
    rw [← hmain]
    rfl
  rw [hsame, ← update_same p i]
  exact h.pop (hi.popGo hq hp hpopped) hmain (fun _ => rfl) (fun _ => rfl)
    (fun _ => popping_inj) (fun _ => popping_inj) (iff_of_true hgo rfl)

theorem StandsFor.popEmpty (h : s.StandsFor p) {q : FreeQueue TimeBuffer maxMsgQSize}
    (hmain : s.main = .popping i) (hq : (s.servers i).outQ.Step q)
    (hp : q.producer = (s.servers i).outQ.producer) (hidle : q.consumer = .idle)
    (hpopped : q.popped = (s.servers i).outQ.popped) :
    StandsFor { s.update i { s.servers i with outQ := q } with main := .scan (i + 1) } p := by
  have hi : (s.servers i).StandsFor [] (p.servers i) := h.node hmain i
  rw [← update_same p i]
  exact h.pop (hi.popGo hq hp hpopped) hmain (fun _ => rfl) (fun _ => rfl)
    (fun _ => popping_inj) nofun (iff_of_false (fun hbusy => hbusy hidle) nofun)

/-- What is popped was the first in the queue. -/
theorem StandsFor.popped (h : s.StandsFor p) {q : FreeQueue TimeBuffer maxMsgQSize}
    {data : TimeBuffer} (hmain : s.main = .popping i) (hq : (s.servers i).outQ.Step q)
    (hp : q.producer = (s.servers i).outQ.producer) (hidle : q.consumer = .idle)
    (hpopped : q.popped = (s.servers i).outQ.popped ++ [data]) :
    ∃ p', Process.system.Steps p p' ∧ StandsFor
      { s.update i { s.servers i with outQ := q } with
        main := .deliver (.process, data) (s.subscribers data.getSrcClusterId) (i + 1)
        posts := s.posts ++ [⟨some i, (.process, data), s.subscribers⟩] } p' := by
  have hi : (s.servers i).StandsFor [] (p.servers i) := h.node hmain i
  have hinv := FreeQueue.inv_step _ _ hi.queue hq
  have hcontent := hinv.content_popped (hq.pop_cases hp).1 hpopped
  have hn : ServerThread.StandsFor { s.servers i with outQ := q } []
      { p.servers i with server := { (p.servers i).server with outQ := q.content } } :=
    ⟨hi.id, rfl, hi.writes.outQ hp, hi.inQ, hi.delivered, hinv⟩
  refine ⟨_, .single (Process.Step.dispatch i data q.content (hi.outQ.trans hcontent)), ?_⟩
  have hpop : StandsFor
      { s.update i { s.servers i with outQ := q } with main := .scan (i + 1) } _ :=
    h.pop hn hmain (fun _ => rfl) (fun _ => rfl) (fun _ => popping_inj) nofun
      (iff_of_false (fun hbusy => hbusy hidle) nofun)
  exact hpop.hand rfl (fun _ => rfl) nofun (some i) (.process, data) (i + 1)

/-! ### All steps -/

theorem standsFor_step (s s' : Threads) (p : Process) (h : s.StandsFor p) (hs : Step s s') :
    ∃ p', Process.system.Steps p p' ∧ s'.StandsFor p' := by
  cases hs with
  | @emit i c hplace =>
      have hi := h.servers i
      obtain ⟨hidle, hbuff, hsent⟩ := h.writesAt hplace
      exact ⟨p, .refl p, h.stutter { hi with writes := ⟨hidle, hsent, .inl hbuff⟩ } rfl⟩
  | taken hplace hw hret => exact h.taken hplace hw hret
  | full hplace hw hret => exact ⟨p, .refl p, h.full hplace hw hret⟩
  | @pushCall i c before hplace =>
      have hi := h.servers i
      obtain ⟨hidle, hfailed, hbefore⟩ := h.writesAt hplace
      have hinv := FreeQueue.inv_step _ _ hi.queue (.pushLoadIn (s.servers i).timeBuff hidle)
      exact ⟨p, .refl p,
        h.stutter { hi with queue := hinv, writes := ⟨hfailed, rfl, hbefore⟩ } rfl⟩
  | pushGo hplace hq hc hgo => exact h.pushGo hplace hq hc hgo
  | pushReturn hplace hq hc hidle => exact h.pushReturn hplace hq hc hidle
  | @send i c before hplace =>
      have hi := h.servers i
      obtain ⟨hidle, -, hbuff, hsent⟩ := h.writesAt hplace
      exact ⟨p, .refl p, h.stutter { hi with writes := ⟨hidle, hsent, hbuff⟩ } rfl⟩
  | @renew i c hplace =>
      have hi := h.servers i
      obtain ⟨hidle, hsent, hbuff⟩ := h.writesAt hplace
      exact ⟨p, .refl p, h.stutter { hi with writes := ⟨hidle, hsent, .inr ⟨rfl, hbuff⟩⟩ } rfl⟩
  | @setId i id hplace =>
      have hi := h.servers i
      refine ⟨_, .single (Process.Step.setId i id),
        h.update ⟨rfl, hi.outQ, ?_, hi.inQ, hi.delivered, hi.queue⟩ rfl⟩
      show ServerThread.Writes _ _ (s.servers i).place
      rw [hplace]
      exact h.writesAt hplace
  | performIO i bb rest hplace hq =>
      have hi := h.servers i
      have hfront : (p.servers i).inQ = bb :: (rest ++ s.main.pending i) := by
        rw [hi.inQ, hq]
        rfl
      refine ⟨_, .single (Process.Step.performIO i bb _ hfront), h.update ⟨hi.id, hi.outQ, ?_, rfl,
        congrArg (· ++ [bb]) hi.delivered, hi.queue⟩ rfl⟩
      show ServerThread.Writes _ _ (s.servers i).place
      rw [hplace]
      exact h.writesAt hplace
  | getSubscriptions table hmain hround =>
      refine ⟨_, .single (Process.Step.getSubscriptions table), ?_⟩
      have hgo : StandsFor { s with main := .receive } p :=
        h.go hmain (fun _ => rfl) (fun _ => rfl) nofun nofun
      exact { hgo with subscribers := rfl }
  | skip hmain hround =>
      exact ⟨p, .refl p,
        h.go hmain (fun _ => rfl) (fun _ => rfl) nofun nofun⟩
  | accepted hmain hacc => exact h.accepted hmain hacc
  | refused hmain hacc => exact ⟨p, .refl p, h.refused hmain hacc⟩
  | deliver hmain => exact ⟨p, .refl p, h.deliver hmain⟩
  | delivered hmain =>
      exact ⟨p, .refl p,
        h.go hmain (fun _ => rfl) (fun _ => rfl) nofun nofun⟩
  | popCall hmain hlt => exact ⟨p, .refl p, h.popCall hmain⟩
  | popGo hmain hq hp hgo => exact ⟨p, .refl p, h.popGo hmain hq hp hgo⟩
  | popEmpty hmain hq hp hidle hpopped => exact ⟨p, .refl p, h.popEmpty hmain hq hp hidle hpopped⟩
  | popped hmain hq hp hidle hpopped => exact h.popped hmain hq hp hidle hpopped
  | again hmain =>
      have hgo : StandsFor { s with main := .look } p :=
        h.go hmain (fun _ => rfl) (fun _ => rfl) nofun nofun
      exact ⟨p, .refl p, ⟨hgo.servers, hgo.subscribers, hgo.posts, hgo.lastTime, hgo.popping⟩⟩

/-- What the threads stand for at the start. -/
def Initial.process (s : Threads) : Process where
  servers := fun i => ⟨.new (s.servers i).id, [], []⟩
  subscribers := s.subscribers
  network := s.network
  posts := []

theorem standsFor_initial (s : Threads) (h : Initial s) :
    ∃ p, Process.system.init p ∧ s.StandsFor p := by
  obtain ⟨hmain, -, hposts, hservers⟩ := h
  refine ⟨Initial.process s, ⟨rfl, fun i => ⟨_, rfl⟩⟩, ?_, rfl, hposts.symm, fun _ => rfl, ?_⟩
  · intro i
    obtain ⟨hplace, hbuff, hqueue, hinQ, hsent, hdelivered⟩ := hservers i
    obtain ⟨hain, haout, hproducer, hconsumer, hpushed, hpopped⟩ := hqueue
    refine ⟨rfl, ?_, ?_, ?_, hdelivered.symm, FreeQueue.inv_initial ⟨hain, haout, hproducer,
      hconsumer, hpushed, hpopped⟩⟩
    · rw [FreeQueue.content, hpushed, List.drop_nil]
      rfl
    · rw [hplace]
      exact ⟨hproducer, hbuff.symm, hsent.symm⟩
    · rw [hinQ, hmain]
      rfl
  · intro i
    obtain ⟨-, -, ⟨-, -, -, hconsumer, -, -⟩, -⟩ := hservers i
    rw [hmain]
    exact iff_of_false (fun hbusy => hbusy hconsumer) MainAt.noConfusion

/-- The threads do what `Process` does. -/
theorem threads_simulate : System.Simulates system Process.system StandsFor where
  init := standsFor_initial
  step := standsFor_step

end Threads

end DistributAr
