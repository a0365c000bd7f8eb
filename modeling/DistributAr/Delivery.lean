/-
# `DistributAr.Delivery` — in which order a cluster is given its input

Everything that reaches a server passes through the main thread, and one packet
after the other.  The record of what it handed out (`posts`), each with the table
of subscribers that it was looked up in, explains the whole process:

* what a server has been given and what waits in its `inQ` are the posts that it
  subscribes to, in their order, none missing and none twice;
* what the main thread took from the `outQ` of a server and what still waits there
  are packets that the server flushed, in their order; all of them, as long as
  they are fewer than the queue has slots.

So two servers that get the same packets get them in the same order.  This is
proved of `Process`, where a post is one step (`ledger_reachable`), and holds of
the threads because they do what `Process` does (`delivered_in_order`).
-/
import DistributAr.Refinement

namespace DistributAr

open Lib

namespace Post

/-- What a server gets of a post. -/
def copies (i : Nat) (e : Post) : List (Via × TimeBuffer) :=
  List.replicate (e.subscribers.count i) e.data

/-- The packet, if it is from the `outQ` of this server. -/
def ofServer (j : Nat) (e : Post) : Option TimeBuffer :=
  if e.source = some j then some e.data.2 else none

end Post

/-- What was taken from the `outQ` of a server, and what waits there, are packets
that it flushed. -/
structure Server.Outbox (s : Server) (taken : List TimeBuffer) : Prop where
  sublist : (taken ++ s.outQ).Sublist (s.sent.map Flush.packet)
  all : s.sent.length < maxMsgQSize → taken ++ s.outQ = s.sent.map Flush.packet

namespace Server.Outbox

variable {s s' : Server} {taken : List TimeBuffer} {c : Call}

/-- A packet that is flushed is the last in the queue, if there is room. -/
theorem write (h : s.Outbox taken) (hw : s.write c = .ok s') : s'.Outbox taken := by
  obtain ⟨-, he⟩ | ⟨-, -, he⟩ | ⟨-, -, he⟩ := write_cases s c <;> rw [he] at hw <;> cases hw
  · exact h
  · exact ⟨h.sublist, h.all⟩
  · generalize hb : (s.timeBuff.sealed c.delta c.time).setSrcClusterId s.id = b
    have hsent : (s.restarted c).sent.map Flush.packet = s.sent.map Flush.packet ++ [b] := by
      rw [← hb]
      exact List.map_append
    have hout : (s.restarted c).outQ = pushOut s.outQ b := by
      rw [← hb]
      rfl
    refine ⟨?_, ?_⟩
    · rw [hsent, hout, pushOut]
      split
      · rw [← List.append_assoc]
        exact h.sublist.append (List.Sublist.refl _)
      · exact h.sublist.trans (List.sublist_append_left _ _)
    · intro hlt
      have hlen : s.sent.length + 1 < maxMsgQSize := by
        have hcount := congrArg List.length hsent
        rw [List.length_append, List.length_map, List.length_map, List.length_singleton] at hcount
        exact hcount ▸ hlt
      have hold := h.all (by omega)
      have hfits : s.outQ.length < maxMsgQSize - 1 := by
        have hcount := congrArg List.length hold
        rw [List.length_append, List.length_map] at hcount
        omega
      rw [hsent, hout, pushOut, if_pos hfits, ← List.append_assoc, hold]

/-- A packet that is taken was the first in the queue. -/
theorem take (h : s.Outbox taken) {data : TimeBuffer} {rest : List TimeBuffer}
    (hq : s.outQ = data :: rest) : Outbox { s with outQ := rest } (taken ++ [data]) := by
  have hsame : (taken ++ [data]) ++ rest = taken ++ s.outQ := by
    rw [hq, List.append_assoc]
    rfl
  refine ⟨?_, ?_⟩
  · rw [hsame]
    exact h.sublist
  · intro hlt
    rw [hsame]
    exact h.all hlt

end Server.Outbox

namespace Process

/-- The posts explain the queues of a process. -/
structure Ledger (p : Process) : Prop where
  inbox : ∀ i, (p.servers i).delivered ++ (p.servers i).inQ = p.posts.flatMap (Post.copies i)
  outbox : ∀ j, (p.servers j).server.Outbox (p.posts.filterMap (Post.ofServer j))
  via : ∀ e ∈ p.posts, e.data.1 = .process ↔ e.source.isSome

variable {p p' : Process} {i : Nat} {n : Node}

theorem ledger_initial (h : p.Initial) : p.Ledger := by
  obtain ⟨hposts, hservers⟩ := h
  have hnew : ∀ i, (p.servers i).delivered = [] ∧ (p.servers i).inQ = []
      ∧ (p.servers i).server.outQ = [] ∧ (p.servers i).server.sent = [] := by
    intro i
    obtain ⟨id, he⟩ := hservers i
    rw [he]
    exact ⟨rfl, rfl, rfl, rfl⟩
  refine ⟨?_, ?_, ?_⟩
  · intro i
    obtain ⟨hdelivered, hinQ, -, -⟩ := hnew i
    rw [hdelivered, hinQ, hposts]
    rfl
  · intro j
    obtain ⟨-, -, hout, hsent⟩ := hnew j
    rw [hposts]
    refine ⟨?_, ?_⟩
    · rw [hout, hsent]
      exact List.Sublist.refl _
    · intro _
      rw [hout, hsent]
      rfl
  · intro e he
    rw [hposts] at he
    exact absurd he List.not_mem_nil

/-- One server replaced: what it has and had been given is the same. -/
theorem Ledger.update (h : p.Ledger)
    (hinbox : n.delivered ++ n.inQ = (p.servers i).delivered ++ (p.servers i).inQ)
    (houtbox : n.server.Outbox (p.posts.filterMap (Post.ofServer i))) :
    (p.update i n).Ledger where
  inbox := (Function.forall_update_iff _ fun j (m : Node) =>
    m.delivered ++ m.inQ = p.posts.flatMap (Post.copies j)).mpr
      ⟨hinbox.trans (h.inbox i), fun j _ => h.inbox j⟩
  outbox := (Function.forall_update_iff _ fun j (m : Node) =>
    m.server.Outbox (p.posts.filterMap (Post.ofServer j))).mpr ⟨houtbox, fun j _ => h.outbox j⟩
  via := h.via

/-- A post is written down. -/
theorem ledger_push {source : Option Nat} {data : Via × TimeBuffer}
    (hinbox : ∀ i, (p.servers i).delivered ++ (p.servers i).inQ
      = p.posts.flatMap (Post.copies i))
    (houtbox : ∀ j, (p.servers j).server.Outbox
      ((p.posts ++ [Post.mk source data p.subscribers]).filterMap (Post.ofServer j)))
    (hvia : ∀ e ∈ p.posts, e.data.1 = .process ↔ e.source.isSome)
    (hnew : data.1 = .process ↔ source.isSome) :
    (p.push source data).Ledger := by
  refine ⟨?_, houtbox, ?_⟩
  · intro i
    show _ ++ (_ ++ _) = (p.posts ++ [Post.mk source data p.subscribers]).flatMap (Post.copies i)
    rw [List.flatMap_append, ← hinbox i, List.append_assoc]
    exact congrArg _ (congrArg _ (List.flatMap_singleton ..).symm)
  · intro e he
    rcases List.mem_append.mp he with hold | hlast
    · exact hvia e hold
    · rw [List.mem_singleton.mp hlast]
      exact hnew

/-- What leaves the queue of a server is written down. -/
theorem Ledger.dispatch (h : p.Ledger) {data : TimeBuffer} {rest : List TimeBuffer}
    (hq : (p.servers i).server.outQ = data :: rest) :
    ((p.update i { p.servers i with server := { (p.servers i).server with outQ := rest } }).push
      (some i) (.process, data)).Ledger := by
  refine ledger_push ?_ ?_ h.via (iff_of_true rfl rfl)
  · exact (Function.forall_update_iff _ fun j (m : Node) =>
      m.delivered ++ m.inQ = p.posts.flatMap (Post.copies j)).mpr
        ⟨h.inbox i, fun j _ => h.inbox j⟩
  · have hself : [Post.mk (some i) (.process, data) p.subscribers].filterMap
        (Post.ofServer i) = [data] := by
      simp [Post.ofServer]
    have hother : ∀ j, j ≠ i →
        [Post.mk (some i) (.process, data) p.subscribers].filterMap (Post.ofServer j) = [] := by
      intro j hj
      simp [Post.ofServer, Ne.symm hj]
    refine (Function.forall_update_iff _ fun j (m : Node) => m.server.Outbox
      ((p.posts ++ [Post.mk (some i) (.process, data) p.subscribers]).filterMap
        (Post.ofServer j))).mpr ⟨?_, ?_⟩
    · rw [List.filterMap_append, hself]
      exact (h.outbox i).take hq
    · intro j hj
      rw [List.filterMap_append, hother j hj, List.append_nil]
      exact h.outbox j

theorem ledger_step (p p' : Process) (h : p.Ledger) (hs : Step p p') : p'.Ledger := by
  cases hs with
  | write i c hw => exact h.update rfl ((h.outbox i).write hw)
  | setId i id => exact h.update rfl ⟨(h.outbox i).sublist, (h.outbox i).all⟩
  | getSubscriptions table => exact ⟨h.inbox, h.outbox, h.via⟩
  | receive delta now ret bb hacc =>
      refine ledger_push h.inbox ?_ h.via (iff_of_false nofun nofun)
      intro j
      rw [List.filterMap_append]
      exact (List.append_nil (p.posts.filterMap (Post.ofServer j))).symm ▸ h.outbox j
  | dispatch i data rest hq => exact h.dispatch hq
  | performIO i bb rest hq =>
      refine h.update ?_ (h.outbox i)
      rw [hq, List.append_assoc]
      rfl

theorem ledger_reachable (h : system.Reachable p) : p.Ledger :=
  System.invariant (fun _ => ledger_initial) ledger_step h

end Process

/-! ## The threads -/

/-- What a server thread has flushed: what it has sent, and what it is about to
send. -/
def ServerThread.flushed (t : ServerThread) : List TimeBuffer :=
  t.sent.map Flush.packet ++
    match t.place with
    | .pushing _ _ | .send _ _ => [t.timeBuff]
    | _ => []

namespace Threads

variable {s : Threads} {p : Process} {i : Nat}

/-- What the server that a thread stands for has flushed. -/
theorem flushed_sublist {t : ServerThread} {v : Server} (h : t.Writes v t.place) :
    (v.sent.map Flush.packet).Sublist t.flushed := by
  have hsame : ∀ last : List TimeBuffer, v.sent = t.sent →
      (v.sent.map Flush.packet).Sublist (t.sent.map Flush.packet ++ last) := by
    intro last hsent
    rw [hsent]
    exact List.sublist_append_left _ _
  have hafter : ∀ {c : Call} {before : TimeBuffer}, t.After c before v →
      (v.sent.map Flush.packet).Sublist (t.sent.map Flush.packet ++ [t.timeBuff]) := by
    rintro c before ⟨-, hsent⟩
    rw [hsent, List.map_append]
    exact List.Sublist.refl _
  unfold ServerThread.flushed
  cases hplace : t.place with
  | outside => exact hsame _ (hplace ▸ h).2.2
  | attempt c => exact hsame _ (hplace ▸ h).2.1
  | push c before => exact hsame _ (hplace ▸ h).2.2.2
  | pushing c before =>
      obtain ⟨-, hpushes⟩ : _ ∧ t.Pushes c before v t.outQ.producer := hplace ▸ h
      cases hp : t.outQ.producer with
      | idle =>
          rw [hp] at hpushes
          exact hpushes.elim
      | loadedIn val ain => exact hsame _ (hp ▸ hpushes).2.2
      | loadedOut val ain aout queued =>
          obtain ⟨-, hfull, hroom⟩ : _ ∧ _ ∧ _ := hp ▸ hpushes
          by_cases heq : Lib.Ring.next ain = aout
          · exact hafter (hfull heq)
          · exact hsame _ (hroom heq).2
      | written val ain => exact hsame _ (hp ▸ hpushes).2.2
  | send c before => exact hafter (hplace ▸ h).2.2
  | renew c => exact hsame _ (hplace ▸ h).2.1

/-- What is written down is what the main thread popped, and what it is handing
out is the last entry: `given` have their copy. -/
structure Recorded (s : Threads) : Prop where
  popped : ∀ j, s.posts.filterMap (Post.ofServer j) = (s.servers j).outQ.popped
  current : ∀ data left next, s.main = .deliver data left next →
    ∃ before e given, s.posts = before ++ [e] ∧ e.data = data ∧ e.table = s.subscribers
      ∧ e.subscribers = given ++ left

theorem recorded_initial (s : Threads) (h : Initial s) : s.Recorded := by
  obtain ⟨hmain, -, hposts, hservers⟩ := h
  refine ⟨?_, ?_⟩
  · intro j
    obtain ⟨-, -, ⟨-, -, -, -, -, hpopped⟩, -⟩ := hservers j
    rw [hposts, hpopped]
    rfl
  · intro data left next hdeliver
    exact nomatch hmain.symm.trans hdeliver

/-- One thread moves, and pops nothing. -/
theorem Recorded.update (h : s.Recorded) {t : ServerThread}
    (hpopped : t.outQ.popped = (s.servers i).outQ.popped) : (s.update i t).Recorded where
  popped := (Function.forall_update_iff _ fun j (m : ServerThread) =>
    s.posts.filterMap (Post.ofServer j) = m.outQ.popped).mpr
      ⟨(h.popped i).trans hpopped.symm, fun j _ => h.popped j⟩
  current := h.current

/-- The main thread is elsewhere in its loop, and hands out nothing. -/
theorem Recorded.go (h : s.Recorded) {main : MainAt} {subscribers : ClusterID → List Nat}
    {network : Network} {round : Nat} (hmain : ∀ data left next, main ≠ .deliver data left next) :
    Recorded { s with
      main := main, subscribers := subscribers, network := network, round := round } where
  popped := h.popped
  current := fun data left next hdeliver => absurd hdeliver (hmain data left next)

/-- A packet is written down, and the main thread begins to hand it out. -/
theorem recorded_post {source : Option Nat} {data : Via × TimeBuffer} {next : Nat}
    {network : Network}
    (hpopped : ∀ j, (s.posts ++ [Post.mk source data s.subscribers]).filterMap (Post.ofServer j)
      = (s.servers j).outQ.popped) :
    Recorded { s with
      network := network
      main := .deliver data (s.subscribers data.2.getSrcClusterId) next
      posts := s.posts ++ [⟨source, data, s.subscribers⟩] } where
  popped := hpopped
  current := by
    rintro data left next ⟨⟩
    exact ⟨s.posts, _, [], rfl, rfl, rfl, rfl⟩

theorem recorded_step (s s' : Threads) (h : s.Recorded) (hs : Step s s') : s'.Recorded := by
  cases hs with
  | emit | taken | full | pushCall | send | renew | setId | performIO => exact h.update rfl
  | pushGo hplace hq hc => exact h.update (hq.popped_eq hc)
  | pushReturn hplace hq hc => exact h.update (hq.popped_eq hc)
  | getSubscriptions | skip | refused | delivered | again => exact h.go nofun
  | accepted hmain hacc =>
      refine recorded_post fun j => ?_
      rw [List.filterMap_append]
      exact (List.append_nil _).trans (h.popped j)
  | @deliver data i next left hmain =>
      obtain ⟨before, e, given, hposts, hdata, htable, hsubscribers⟩ := h.current _ _ _ hmain
      have hupdate : (s.update i { s.servers i with
          inQ := (s.servers i).inQ ++ [data] }).Recorded := h.update rfl
      refine ⟨hupdate.popped, ?_⟩
      rintro data left next ⟨⟩
      refine ⟨before, e, given ++ [i], hposts, hdata, htable, ?_⟩
      rw [hsubscribers, List.append_assoc]
      rfl
  | @popCall i hmain hlt =>
      have hupdate : (s.update i { s.servers i with outQ := { (s.servers i).outQ with
        consumer := .loadedOut (s.servers i).outQ.aout } }).Recorded := h.update rfl
      exact hupdate.go nofun
  | popGo hmain hq hp hgo =>
      exact h.update ((hq.pop_cases hp).2.resolve_right fun hidle => hgo hidle.1)
  | @popEmpty i q hmain hq hp hidle hpopped =>
      have hupdate : (s.update i { s.servers i with outQ := q }).Recorded := h.update hpopped
      exact hupdate.go nofun
  | @popped i q data hmain hq hp hidle hpopped =>
      refine recorded_post (s := s.update i { s.servers i with outQ := q }) ?_
      refine (Function.forall_update_iff _ fun j (m : ServerThread) =>
        (s.posts ++ [Post.mk (some i) (.process, data) s.subscribers]).filterMap (Post.ofServer j)
          = m.outQ.popped).mpr ⟨?_, ?_⟩
      · rw [List.filterMap_append, h.popped i, hpopped]
        simp [Post.ofServer]
      · intro j hj
        rw [List.filterMap_append, h.popped j]
        simp [Post.ofServer, Ne.symm hj]

theorem recorded_reachable (h : system.Reachable s) : s.Recorded :=
  System.invariant recorded_initial recorded_step h

/-- The posts explain what every server has been given, what is on its way to it,
and what was taken from it. -/
structure InOrder (s : Threads) : Prop where
  /-- What a server has and what is about to be pushed to it: its copies of the
  posts, in order and without a gap. -/
  inbox : ∀ i, (s.servers i).delivered ++ (s.servers i).inQ ++ s.main.pending i
    = s.posts.flatMap (Post.copies i)
  /-- The posts from an `outQ` are what was popped there. -/
  popped : ∀ j, s.posts.filterMap (Post.ofServer j) = (s.servers j).outQ.popped
  /-- They, and what waits in the queue, are in the order of the flushes. -/
  outbox : ∀ j, (s.posts.filterMap (Post.ofServer j) ++ (s.servers j).outQ.content).Sublist
    (s.servers j).flushed
  /-- No flush is missing before the 256th. -/
  all : ∀ j, (s.servers j).place = .outside → (s.servers j).sent.length < maxMsgQSize →
    s.posts.filterMap (Post.ofServer j) ++ (s.servers j).outQ.content
      = (s.servers j).sent.map Flush.packet
  via : ∀ e ∈ s.posts, e.data.1 = .process ↔ e.source.isSome
  /-- What the main thread is pushing is the last post, to the rest of those whom
  its table has for it. -/
  current : ∀ data left next, s.main = .deliver data left next →
    ∃ before e given, s.posts = before ++ [e] ∧ e.data = data ∧ e.table = s.subscribers
      ∧ e.subscribers = given ++ left

/-- Every run of the threads is in order. -/
theorem delivered_in_order (s : Threads) (h : system.Reachable s) : s.InOrder := by
  obtain ⟨p, hp, hstands⟩ := System.Simulates.reachable ⟨standsFor_initial, standsFor_step⟩ h
  have hlog := Process.ledger_reachable hp
  have hrecorded := recorded_reachable h
  refine ⟨?_, hrecorded.popped, ?_, ?_, hstands.posts ▸ hlog.via, hrecorded.current⟩
  · intro i
    have hi := hstands.servers i
    rw [← hstands.posts, ← hlog.inbox i, hi.inQ, hi.delivered, List.append_assoc]
  · intro j
    have hj := hstands.servers j
    have hbox := (hlog.outbox j).sublist
    rw [hj.outQ, hstands.posts] at hbox
    exact hbox.trans (flushed_sublist hj.writes)
  · intro j hplace hlt
    have hj := hstands.servers j
    have hwrites := hj.writes
    rw [hplace] at hwrites
    obtain ⟨-, -, hsent⟩ := hwrites
    have hbox := (hlog.outbox j).all
    rw [hj.outQ, hsent, hstands.posts] at hbox
    exact hbox hlt

/-- A process with one server, before its first step. -/
def start : Threads where
  servers := fun _ =>
    ⟨1025, .new, ⟨0, fun _ => .new, 0, .idle, .idle, [], []⟩, [], .outside, [], []⟩
  count := 1
  subscribers := fun _ => []
  network := ⟨∅⟩
  main := .look
  round := 0
  posts := []

/-- The buffer with the first impulse, flushed by the second. -/
def firstPacket : TimeBuffer :=
  ((TimeBuffer.new.stored 7 0).sealed 0 50000000).setSrcClusterId 1025

/-- The server subscribes to itself: two impulses, a round of the main loop, and the
cluster has its first impulse while the second waits in the buffer. -/
theorem looped_reached : ∃ s, system.Reachable s
    ∧ (s.servers 0).inQ = [(.process, firstPacket)]
    ∧ s.posts = [⟨some 0, (.process, firstPacket), fun _ => [0]⟩] := by
  have h₀ : system.Reachable start := .init
    ⟨rfl, rfl, rfl, fun _ => ⟨rfl, rfl, ⟨rfl, rfl, rfl, rfl, rfl, rfl⟩, rfl, rfl, rfl⟩⟩
  have h₁ := h₀.step (Step.emit (i := 0) ⟨7, 0, 0⟩ rfl)
  have h₂ := h₁.step (Step.taken (i := 0) rfl rfl (by decide))
  have h₃ := h₂.step (Step.emit (i := 0) ⟨9, 50000000, 0⟩ rfl)
  have h₄ := h₃.step (Step.full (i := 0) rfl rfl (by decide))
  have h₅ := h₄.step (Step.pushCall (i := 0) rfl)
  have h₆ := h₅.step (Step.pushGo (i := 0) rfl (.pushLoadOut rfl) rfl nofun)
  have h₇ := h₆.step (Step.pushGo (i := 0) rfl (.pushWrite rfl (by decide)) rfl nofun)
  have h₈ := h₇.step (Step.getSubscriptions (fun _ => [0]) rfl rfl)
  have h₉ := h₈.step (Step.pushReturn (i := 0) rfl (.pushStoreIn rfl) rfl rfl)
  have h₁₀ := h₉.step (@Step.refused _ 0 0 0 .new rfl nofun)
  have h₁₁ := h₁₀.step (Step.popCall (i := 0) rfl Nat.zero_lt_one)
  have h₁₂ := h₁₁.step (Step.popGo (i := 0) rfl (.popLoadIn rfl) rfl nofun)
  have h₁₃ := h₁₂.step (Step.popGo (i := 0) rfl (.popRead rfl (by decide)) rfl nofun)
  have h₁₄ := h₁₃.step (Step.popped (i := 0) rfl (.popStoreOut rfl) rfl rfl rfl)
  have h₁₅ := h₁₄.step (Step.deliver (i := 0) rfl)
  exact ⟨_, h₁₅, rfl, rfl⟩

theorem delivered_in_order_looped : ∃ s : Threads,
    (s.servers 0).inQ = [(.process, firstPacket)]
      ∧ s.posts = [⟨some 0, (.process, firstPacket), fun _ => [0]⟩] ∧ s.InOrder := by
  obtain ⟨s, h, hinQ, hposts⟩ := looped_reached
  exact ⟨s, hinQ, hposts, delivered_in_order s h⟩

end Threads

end DistributAr
