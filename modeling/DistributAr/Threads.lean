/-
# `DistributAr.Threads` — the threads of a process, step by step

`Process` lets a server flush in one step, and the main loop hand a packet to all
its subscribers in one step.  In the program these are many: a push and a pop of
the lock-free queue are steps of two threads at the same time, the packet goes to
the multicast group between the two passes of the loop in `Server::write`, and
the main loop pushes to one subscriber after the other, while these pop.

* A server: `performIO`, and for each impulse of its cluster the loop in `write`,
  that is `outQ.push`, `udp.Write`, a new buffer, and again.
* The main thread: every 1000 rounds `getSubscriptions`; then `readVerify`; then a
  `pop` of the `outQ` of every server.  Each packet is pushed to the subscribers of
  its source.

The queue is the one of `FreeQueue`, with its loads and stores.  The queues `inQ`
are lists: their calls exclude each other.
-/
import DistributAr.Dispatch
import DistributAr.FreeQueue

namespace DistributAr

open Lib

/-- Where a server thread is in `write`. -/
inductive WriteAt where
  | outside
  /-- `while( timeBuff->write(nodeIndex, time) < 0 )` -/
  | attempt (c : Call)
  /-- `outQ.push(timeBuff)`; `before` is a record of the buffer before the failed
  attempt. -/
  | push (c : Call) (before : TimeBuffer)
  | pushing (c : Call) (before : TimeBuffer)
  /-- `udp.Write(...)` -/
  | send (c : Call) (before : TimeBuffer)
  /-- `timeBuff = std::make_shared<TimeBuffer>()` -/
  | renew (c : Call)

/-- A server with its thread.  The main thread pops its `outQ`. -/
structure ServerThread where
  id : ClusterID
  timeBuff : TimeBuffer
  outQ : FreeQueue TimeBuffer maxMsgQSize
  inQ : List (Via × TimeBuffer)
  place : WriteAt
  sent : List Flush
  delivered : List (Via × TimeBuffer)

/-- Where the main thread is in its loop. -/
inductive MainAt where
  | look
  | receive
  /-- `for(Server* s: subscribers[id]) s->getIncomingQ().push(data)`, with those
  that are left; then it goes on with the server in position `next`. -/
  | deliver (data : Via × TimeBuffer) (left : List Nat) (next : Nat)
  /-- `for(auto& src: servers)` -/
  | scan (i : Nat)
  | popping (i : Nat)

/-- A process with `count` servers.  `posts` is a record: an entry for each packet
that `readVerify` accepts or a `pop` gives, with the table it is looked up in. -/
structure Threads where
  servers : Nat → ServerThread
  count : Nat
  subscribers : ClusterID → List Nat
  network : Network
  main : MainAt
  round : Nat
  posts : List Post

/-- The slot that an index starts from. -/
instance : NeZero maxMsgQSize := ⟨by decide⟩

namespace Threads

/-- One server replaced. -/
def update (s : Threads) (i : Nat) (t : ServerThread) : Threads :=
  { s with servers := Function.update s.servers i t }

/-- The steps of the threads, in any order. -/
inductive Step : Threads → Threads → Prop
  /-- The cluster emits an impulse. -/
  | emit {s : Threads} {i : Nat} (c : Call) :
      (s.servers i).place = .outside →
      Step s (s.update i { s.servers i with place := .attempt c })
  | taken {s : Threads} {i : Nat} {c : Call} {ret : Int} {b : TimeBuffer} :
      (s.servers i).place = .attempt c →
      (s.servers i).timeBuff.write c.delta c.index c.time = .ok (ret, b) → ¬ ret < 0 →
      Step s (s.update i { s.servers i with timeBuff := b, place := .outside })
  /-- `timeBuff->setSrcClusterId(cluster->getId())` -/
  | full {s : Threads} {i : Nat} {c : Call} {ret : Int} {b : TimeBuffer} :
      (s.servers i).place = .attempt c →
      (s.servers i).timeBuff.write c.delta c.index c.time = .ok (ret, b) → ret < 0 →
      Step s (s.update i { s.servers i with
        timeBuff := b.setSrcClusterId (s.servers i).id
        place := .push c (s.servers i).timeBuff })
  | pushCall {s : Threads} {i : Nat} {c : Call} {before : TimeBuffer} :
      (s.servers i).place = .push c before →
      Step s (s.update i { s.servers i with
        outQ := { (s.servers i).outQ with
          producer := .loadedIn (s.servers i).timeBuff (s.servers i).outQ.ain }
        place := .pushing c before })
  | pushGo {s : Threads} {i : Nat} {c : Call} {before : TimeBuffer}
      {q : FreeQueue TimeBuffer maxMsgQSize} :
      (s.servers i).place = .pushing c before →
      (s.servers i).outQ.Step q → q.consumer = (s.servers i).outQ.consumer →
      q.producer ≠ .idle →
      Step s (s.update i { s.servers i with outQ := q })
  | pushReturn {s : Threads} {i : Nat} {c : Call} {before : TimeBuffer}
      {q : FreeQueue TimeBuffer maxMsgQSize} :
      (s.servers i).place = .pushing c before →
      (s.servers i).outQ.Step q → q.consumer = (s.servers i).outQ.consumer →
      q.producer = .idle →
      Step s (s.update i { s.servers i with outQ := q, place := .send c before })
  | send {s : Threads} {i : Nat} {c : Call} {before : TimeBuffer} :
      (s.servers i).place = .send c before →
      Step s (s.update i { s.servers i with
        sent := (s.servers i).sent ++ [⟨before, (s.servers i).timeBuff, c⟩]
        place := .renew c })
  | renew {s : Threads} {i : Nat} {c : Call} :
      (s.servers i).place = .renew c →
      Step s (s.update i { s.servers i with timeBuff := .new, place := .attempt c })
  /-- `RUN` -/
  | setId {s : Threads} {i : Nat} (id : ClusterID) :
      (s.servers i).place = .outside →
      Step s (s.update i { s.servers i with id := id })
  /-- `performIO`: `inQ.popNoBlock(bb)`, then `cluster->write(bb)`. -/
  | performIO {s : Threads} (i : Nat) (bb : Via × TimeBuffer) (rest : List (Via × TimeBuffer)) :
      (s.servers i).place = .outside → (s.servers i).inQ = bb :: rest →
      Step s (s.update i { s.servers i with
        inQ := rest
        delivered := (s.servers i).delivered ++ [bb] })
  /-- `if(0 == i%1000) network.getSubscriptions(subscribers)` -/
  | getSubscriptions {s : Threads} (table : ClusterID → List Nat) :
      s.main = .look → s.round % 1000 = 0 →
      Step s { s with subscribers := table, main := .receive }
  | skip {s : Threads} :
      s.main = .look → s.round % 1000 ≠ 0 →
      Step s { s with main := .receive }
  /-- `if(network.readVerify(*timeBuff))` -/
  | accepted {s : Threads} {delta now ret : Int} {bb : TimeBuffer} :
      s.main = .receive → (s.network.readVerify delta now ret bb).1 = .accepted →
      Step s { s with
        network := (s.network.readVerify delta now ret bb).2.2
        main := .deliver (.network, (s.network.readVerify delta now ret bb).2.1)
          (s.subscribers (s.network.readVerify delta now ret bb).2.1.getSrcClusterId) 0
        posts := s.posts
          ++ [⟨none, (.network, (s.network.readVerify delta now ret bb).2.1), s.subscribers⟩] }
  | refused {s : Threads} {delta now ret : Int} {bb : TimeBuffer} :
      s.main = .receive → (s.network.readVerify delta now ret bb).1 ≠ .accepted →
      Step s { s with network := (s.network.readVerify delta now ret bb).2.2, main := .scan 0 }
  | deliver {s : Threads} {data : Via × TimeBuffer} {i next : Nat} {left : List Nat} :
      s.main = .deliver data (i :: left) next →
      Step s { s.update i { s.servers i with inQ := (s.servers i).inQ ++ [data] } with
        main := .deliver data left next }
  | delivered {s : Threads} {data : Via × TimeBuffer} {next : Nat} :
      s.main = .deliver data [] next →
      Step s { s with main := .scan next }
  | popCall {s : Threads} {i : Nat} :
      s.main = .scan i → i < s.count →
      Step s { s.update i { s.servers i with
        outQ := { (s.servers i).outQ with consumer := .loadedOut (s.servers i).outQ.aout } } with
        main := .popping i }
  | popGo {s : Threads} {i : Nat} {q : FreeQueue TimeBuffer maxMsgQSize} :
      s.main = .popping i →
      (s.servers i).outQ.Step q → q.producer = (s.servers i).outQ.producer →
      q.consumer ≠ .idle →
      Step s (s.update i { s.servers i with outQ := q })
  | popEmpty {s : Threads} {i : Nat} {q : FreeQueue TimeBuffer maxMsgQSize} :
      s.main = .popping i →
      (s.servers i).outQ.Step q → q.producer = (s.servers i).outQ.producer →
      q.consumer = .idle → q.popped = (s.servers i).outQ.popped →
      Step s { s.update i { s.servers i with outQ := q } with main := .scan (i + 1) }
  /-- `if(src->getOutgoingQ().pop(data))` -/
  | popped {s : Threads} {i : Nat} {q : FreeQueue TimeBuffer maxMsgQSize} {data : TimeBuffer} :
      s.main = .popping i →
      (s.servers i).outQ.Step q → q.producer = (s.servers i).outQ.producer →
      q.consumer = .idle → q.popped = (s.servers i).outQ.popped ++ [data] →
      Step s { s.update i { s.servers i with outQ := q } with
        main := .deliver (.process, data) (s.subscribers data.getSrcClusterId) (i + 1)
        posts := s.posts ++ [⟨some i, (.process, data), s.subscribers⟩] }
  /-- `for(int i=0; true; ++i)` -/
  | again {s : Threads} :
      s.main = .scan s.count →
      Step s { s with main := .look, round := s.round + 1 }

/-- Before the first step: new servers, empty queues, and the main thread before
its loop. -/
def Initial (s : Threads) : Prop :=
  s.main = .look ∧ s.round = 0 ∧ s.posts = [] ∧ ∀ i, (s.servers i).place = .outside
    ∧ (s.servers i).timeBuff = .new ∧ (s.servers i).outQ.Initial ∧ (s.servers i).inQ = []
    ∧ (s.servers i).sent = [] ∧ (s.servers i).delivered = []

def system : System Threads where
  init := Initial
  step := Step

end Threads

/-! ## What is in the queue -/

namespace FreeQueue

variable {T : Type*} {SIZE : Nat} [NeZero SIZE] {q q' : FreeQueue T SIZE}

/-- The elements pushed and not popped. -/
def content (q : FreeQueue T SIZE) : List T := q.pushed.drop q.popped.length

omit [NeZero SIZE] in
theorem content_congr (hpushed : q'.pushed = q.pushed) (hpopped : q'.popped = q.popped) :
    q'.content = q.content := by
  rw [content, content, hpushed, hpopped]

/-- What a thread inside `push` can do. -/
theorem Step.push_cases (h : q.Step q') (hc : q'.consumer = q.consumer)
    (hbusy : q.producer ≠ .idle) :
    (∃ val ain, q.producer = .loadedIn val ain
      ∧ q' = { q with producer := .loadedOut val ain q.aout q.queued }) ∨
    (∃ val ain aout queued, q.producer = .loadedOut val ain aout queued ∧ Ring.next ain = aout
      ∧ q' = { q with producer := .idle }) ∨
    (∃ val ain aout queued, q.producer = .loadedOut val ain aout queued ∧ Ring.next ain ≠ aout
      ∧ q' = { q with buff := Function.update q.buff ain val, producer := .written val ain }) ∨
    (∃ val ain, q.producer = .written val ain
      ∧ q' = { q with ain := Ring.next ain, producer := .idle, pushed := q.pushed ++ [val] }) := by
  cases h with
  | pushLoadIn val hp => exact absurd hp hbusy
  | pushLoadOut hp => exact .inl ⟨_, _, hp, rfl⟩
  | pushFull hp hfull => exact .inr (.inl ⟨_, _, _, _, hp, hfull, rfl⟩)
  | pushWrite hp hfull => exact .inr (.inr (.inl ⟨_, _, _, _, hp, hfull, rfl⟩))
  | pushStoreIn hp => exact .inr (.inr (.inr ⟨_, _, hp, rfl⟩))
  | popLoadOut hq => exact nomatch hc.trans hq
  | popLoadIn hq => exact nomatch hc.trans hq
  | popEmpty hq hempty => exact nomatch hc.trans hq
  | popRead hq hempty => exact nomatch hc.trans hq
  | popStoreOut hq => exact nomatch hc.trans hq

/-- What a thread inside `pop` can do to the queue. -/
theorem Step.pop_cases (h : q.Step q') (hp : q'.producer = q.producer) :
    q'.pushed = q.pushed ∧ (q'.popped = q.popped
      ∨ q'.consumer = .idle ∧ ∃ val, q'.popped = q.popped ++ [val]) := by
  cases h with
  | pushLoadIn val hq => exact nomatch hp.trans hq
  | pushLoadOut hq => exact nomatch hp.trans hq
  | pushFull hq hfull => exact nomatch hp.trans hq
  | pushWrite hq hfull => exact nomatch hp.trans hq
  | pushStoreIn hq => exact nomatch hp.trans hq
  | popLoadOut hq => exact ⟨rfl, .inl rfl⟩
  | popLoadIn hq => exact ⟨rfl, .inl rfl⟩
  | popEmpty hq hempty => exact ⟨rfl, .inl rfl⟩
  | popRead hq hempty => exact ⟨rfl, .inl rfl⟩
  | popStoreOut hq => exact ⟨rfl, .inr ⟨rfl, _, rfl⟩⟩

/-- The consumer alone pops. -/
theorem Step.popped_eq (h : q.Step q') (hc : q'.consumer = q.consumer) : q'.popped = q.popped := by
  cases h with
  | popStoreOut hq => exact nomatch hc.trans hq
  | _ => rfl

/-- An element that is popped was the first. -/
theorem Inv.content_popped (hinv : q'.Inv) (hpushed : q'.pushed = q.pushed) {val : T}
    (hpopped : q'.popped = q.popped ++ [val]) : q.content = val :: q'.content := by
  obtain ⟨rest, hrest⟩ := hinv.popped
  rw [content, content, ← hpushed, ← hrest, hpopped, List.drop_left, List.append_assoc,
    List.drop_left]
  rfl

/-- An element that is pushed is the last. -/
theorem Inv.content_pushed (hinv : q.Inv) {val : T} (hpushed : q'.pushed = q.pushed ++ [val])
    (hpopped : q'.popped = q.popped) : q'.content = q.content ++ [val] := by
  rw [content, content, hpushed, hpopped, List.drop_append_of_le_length hinv.length_le]

omit [NeZero SIZE] in
theorem length_content : q.content.length = q.pushed.length - q.popped.length := List.length_drop

/-- The producer finds no room where there is none. -/
theorem Inv.content_full (hinv : q.Inv) {val : T} {ain : Fin SIZE}
    (hp : q.producer = .loadedIn val ain) (hfull : Ring.next ain = q.aout) :
    ¬ q.content.length < SIZE - 1 := by
  have hain := hinv.producer
  rw [hp] at hain
  have hain : ain = q.ain := hain
  have hlen := hinv.length_le
  have hroom := hinv.room
  rw [hain, hinv.ain, hinv.aout, Ring.next_slot] at hfull
  have hkey : Ring.slot SIZE (q.pushed.length + 1) = Ring.slot SIZE (q.popped.length + SIZE) :=
    hfull.trans (Fin.ext (Nat.add_mod_right _ SIZE).symm)
  have hlast := Ring.slot_inj (by omega) (by omega) hkey
  rw [length_content]
  omega

/-- The producer writes where there is room. -/
theorem Inv.content_room (hinv : q.Inv) {val : T} {ain : Fin SIZE}
    (hp : q.producer = .written val ain) : q.content.length < SIZE - 1 := by
  have hok := hinv.producer
  rw [hp] at hok
  have hroom : q.pushed.length + 1 < q.popped.length + SIZE := hok.2.2
  have hlen := hinv.length_le
  rw [length_content]
  omega

end FreeQueue

end DistributAr
