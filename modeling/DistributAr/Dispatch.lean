/-
# `DistributAr.Dispatch` — one process: in-process and network delivery

A buffer that `Server::write` flushes takes two ways to its subscribers.  Those
in the same process share the object itself: it is pushed to `outQ`, moved to
their `inQ` by the main loop and given to `cluster->write`.  All others get a
copy through the network, and `readVerify` converts its base time with
`prepareRead`.

The flush has already put the object on network time, and on the first way
nobody takes it back.  `process_delivery` follows the object through the queues
of any run; `delivery_agrees_iff` is the conclusion: the two ways agree exactly
when the clock offset is zero.
-/
import DistributAr.Wire
import DistributAr.Network
import DistributAr.Lib.System
import Mathlib.Logic.Function.Basic

namespace DistributAr

open Lib

/-- The way a buffer came into an `inQ`.  The program does not keep it. -/
inductive Via where
  | process
  | network
deriving DecidableEq

/-- A server thread with its incoming queue and what its cluster was given. -/
structure Node where
  server : Server
  inQ : List (Via × TimeBuffer)
  delivered : List (Via × TimeBuffer)

/-- A packet that the main loop handed out: from the `outQ` of a server, or
(`none`) from the network, with the table of subscribers at that moment. -/
structure Post where
  source : Option Nat
  data : Via × TimeBuffer
  table : ClusterID → List Nat

/-- `subscribers[data->getSrcClusterId()]` -/
def Post.subscribers (e : Post) : List Nat := e.table e.data.2.getSrcClusterId

/-- The state of `main`: the servers, the table of subscribers and the network.
The entries of the table are positions in `servers`.  `posts` is a record of what
was handed out. -/
structure Process where
  servers : Nat → Node
  subscribers : ClusterID → List Nat
  network : Network
  posts : List Post

namespace Process

/-- `for(Server* s: subscribers[data->getSrcClusterId()]) s->getIncomingQ().push(data)` -/
def push (p : Process) (source : Option Nat) (data : Via × TimeBuffer) : Process :=
  { p with
    servers := fun i =>
      { p.servers i with
        inQ := (p.servers i).inQ
          ++ List.replicate ((p.subscribers data.2.getSrcClusterId).count i) data }
    posts := p.posts ++ [⟨source, data, p.subscribers⟩] }

/-- One server replaced. -/
def update (p : Process) (i : Nat) (n : Node) : Process :=
  { p with servers := Function.update p.servers i n }

/-- The steps of the threads of a process, in any order. -/
inductive Step : Process → Process → Prop
  /-- A cluster emits an impulse: `Server::write`. -/
  | write {p : Process} (i : Nat) (c : Call) {s : Server} :
      (p.servers i).server.write c = .ok s →
      Step p (p.update i { p.servers i with server := s })
  /-- `RUN`: the cluster gets another ID. -/
  | setId {p : Process} (i : Nat) (id : ClusterID) :
      Step p (p.update i
        { p.servers i with server := { (p.servers i).server with id := id } })
  /-- `network.getSubscriptions(subscribers)` -/
  | getSubscriptions {p : Process} (table : ClusterID → List Nat) :
      Step p { p with subscribers := table }
  /-- `if(network.readVerify(*timeBuff))`: a packet from outside. -/
  | receive {p : Process} (delta now ret : Int) (bb : TimeBuffer) :
      (p.network.readVerify delta now ret bb).1 = .accepted →
      Step p ({ p with network := (p.network.readVerify delta now ret bb).2.2 }.push none
        (.network, (p.network.readVerify delta now ret bb).2.1))
  /-- `if(src->getOutgoingQ().pop(data))`: from an `outQ` to the subscribers. -/
  | dispatch {p : Process} (i : Nat) (data : TimeBuffer) (rest : List TimeBuffer) :
      (p.servers i).server.outQ = data :: rest →
      Step p ((p.update i
        { p.servers i with server := { (p.servers i).server with outQ := rest } }).push
          (some i) (.process, data))
  /-- `performIO`: `inQ.popNoBlock(bb)`, then `cluster->write(bb)`. -/
  | performIO {p : Process} (i : Nat) (bb : Via × TimeBuffer) (rest : List (Via × TimeBuffer)) :
      (p.servers i).inQ = bb :: rest →
      Step p (p.update i
        { p.servers i with inQ := rest, delivered := (p.servers i).delivered ++ [bb] })

/-- Before the first step every server is new and every queue empty. -/
def Initial (p : Process) : Prop :=
  p.posts = [] ∧ ∀ i, ∃ id, p.servers i = ⟨.new id, [], []⟩

/-- The process as a transition system. -/
def system : System Process where
  init := Initial
  step := Step

/-! ## Where a buffer comes from -/

/-- `b` is the object of some flush in this process. -/
def Flushed (p : Process) (b : TimeBuffer) : Prop :=
  ∃ j, ∃ f ∈ (p.servers j).server.sent, b = f.packet

theorem Flushed.mono {p p' : Process} {b : TimeBuffer}
    (h : ∀ i, (p.servers i).server.sent ⊆ (p'.servers i).server.sent) (hb : p.Flushed b) :
    p'.Flushed b := by
  obtain ⟨j, f, hf, he⟩ := hb
  exact ⟨j, f, h j hf, he⟩

/-- Everything `n` holds of the in-process way was flushed in this process, and
its own flushes are as the code performs them. -/
structure NodeInv (p : Process) (n : Node) : Prop where
  wf : n.server.Wf
  outQ : ∀ b ∈ n.server.outQ, p.Flushed b
  inQ : ∀ b, (Via.process, b) ∈ n.inQ → p.Flushed b
  delivered : ∀ b, (Via.process, b) ∈ n.delivered → p.Flushed b

/-- The invariant of a process. -/
def Inv (p : Process) : Prop := ∀ i, p.NodeInv (p.servers i)

theorem NodeInv.mono {p p' : Process} {n : Node}
    (h : ∀ i, (p.servers i).server.sent ⊆ (p'.servers i).server.sent) (hn : p.NodeInv n) :
    p'.NodeInv n where
  wf := hn.wf
  outQ := fun b hb => (hn.outQ b hb).mono h
  inQ := fun b hb => (hn.inQ b hb).mono h
  delivered := fun b hb => (hn.delivered b hb).mono h

variable {p p' : Process} {i : Nat} {n : Node}

theorem update_self : (p.update i n).servers i = n := Function.update_self ..

theorem update_sent (hsent : (p.servers i).server.sent ⊆ n.server.sent) (j : Nat) :
    (p.servers j).server.sent ⊆ ((p.update i n).servers j).server.sent := by
  by_cases hj : j = i
  · subst hj
    rw [update_self]
    exact hsent
  · have hother : (p.update i n).servers j = p.servers j := Function.update_of_ne hj ..
    rw [hother]
    exact List.Subset.refl _

/-- Replacing one server keeps the invariant, if no record of a flush is lost and
the new server is as good as the old one. -/
theorem Inv.update (hp : p.Inv) (hsent : (p.servers i).server.sent ⊆ n.server.sent)
    (hn : (p.update i n).NodeInv (p.servers i) → (p.update i n).NodeInv n) :
    (p.update i n).Inv := by
  intro j
  by_cases hj : j = i
  · subst hj
    rw [update_self]
    exact hn ((hp j).mono (update_sent hsent))
  · have hother : (p.update i n).servers j = p.servers j := Function.update_of_ne hj ..
    rw [hother]
    exact (hp j).mono (update_sent hsent)

/-- Pushing a buffer keeps the invariant, if the buffer comes from outside or was
flushed here. -/
theorem Inv.push (hp : p.Inv) {source : Option Nat} {data : Via × TimeBuffer}
    (hdata : data.1 = .process → p.Flushed data.2) : (p.push source data).Inv := by
  intro j
  have hsame : ∀ i, (p.servers i).server.sent ⊆ ((p.push source data).servers i).server.sent :=
    fun _ => List.Subset.refl _
  refine { (hp j).mono hsame with inQ := ?_ }
  intro b hb
  rcases List.mem_append.mp hb with hold | hnew
  · exact ((hp j).inQ b hold).mono hsame
  · have he := List.eq_of_mem_replicate hnew
    subst he
    exact (hdata rfl).mono hsame

theorem inv_initial (h : p.Initial) : p.Inv := by
  intro i
  obtain ⟨id, he⟩ := h.2 i
  rw [he]
  exact ⟨Server.wf_new id, fun _ hb => absurd hb List.not_mem_nil,
    fun _ hb => absurd hb List.not_mem_nil, fun _ hb => absurd hb List.not_mem_nil⟩

theorem inv_step (p p' : Process) (hp : p.Inv) (h : Step p p') : p'.Inv := by
  cases h with
  | write i c hw =>
      refine hp.update (Server.write_sent_subset hw) fun hkeep =>
        ⟨Server.wf_write _ c _ hkeep.wf hw, ?_, hkeep.inQ, hkeep.delivered⟩
      intro b hb
      rcases Server.write_outQ hw hb with hold | ⟨f, hf, he⟩
      · exact hkeep.outQ b hold
      · exact ⟨i, f, by rw [update_self]; exact hf, he⟩
  | setId i id =>
      exact hp.update (List.Subset.refl _) fun hkeep =>
        ⟨⟨hkeep.wf.count_le, hkeep.wf.unused, hkeep.wf.sent⟩, hkeep.outQ, hkeep.inQ,
          hkeep.delivered⟩
  | getSubscriptions table =>
      exact fun j => NodeInv.mono (p := p) (fun _ => List.Subset.refl _) (hp j)
  | receive delta now ret bb hacc =>
      refine Inv.push ?_ fun hvia => nomatch hvia
      intro j
      exact NodeInv.mono (p := p) (fun _ => List.Subset.refl _) (hp j)
  | dispatch i data rest hq =>
      have hdata : ∀ b ∈ data :: rest, p.Flushed b := hq ▸ (hp i).outQ
      refine Inv.push ?_ ?_
      · refine hp.update (List.Subset.refl _) fun hkeep =>
          ⟨⟨hkeep.wf.count_le, hkeep.wf.unused, hkeep.wf.sent⟩, ?_, hkeep.inQ,
            hkeep.delivered⟩
        intro b hb
        exact (hdata b (List.mem_cons_of_mem _ hb)).mono (update_sent (List.Subset.refl _))
      · intro _
        exact (hdata data List.mem_cons_self).mono (update_sent (List.Subset.refl _))
  | performIO i bb rest hq =>
      have hdata : ∀ b, (Via.process, b) ∈ bb :: rest → p.Flushed b := hq ▸ (hp i).inQ
      refine hp.update (List.Subset.refl _) fun hkeep =>
        ⟨hkeep.wf, hkeep.outQ, ?_, ?_⟩
      · intro b hb
        exact (hdata b (List.mem_cons_of_mem _ hb)).mono (update_sent (List.Subset.refl _))
      · intro b hb
        rcases List.mem_append.mp hb with hold | hnew
        · exact hkeep.delivered b hold
        · have hhead := hdata b (List.mem_singleton.mp hnew ▸ List.mem_cons_self)
          exact hhead.mono (update_sent (List.Subset.refl _))

theorem inv_reachable (h : system.Reachable p) : p.Inv :=
  System.invariant (fun _ => inv_initial) inv_step h

/-- Whatever a cluster is given from within its process is the object of a flush
there, with its base time still the one the flush left in it. -/
theorem process_delivery (h : system.Reachable p) {b : TimeBuffer}
    (hb : (Via.process, b) ∈ (p.servers i).delivered) :
    ∃ j, ∃ f ∈ (p.servers j).server.sent, b = f.packet ∧ f.Wf := by
  have hinv := inv_reachable h
  obtain ⟨j, f, hf, he⟩ := (hinv i).delivered b hb
  exact ⟨j, f, hf, he, (hinv j).wf.sent f hf⟩

end Process

/-! ## The two ways compared -/

/-- `b`, given to a cluster of the process that flushed it, shows the same times
as `r` does after `readVerify` on a receiver with the same offset, namely those
of the sender's clock. -/
def Flush.PathsAgree (f : Flush) (b r : TimeBuffer) : Prop :=
  ∀ (n : Network) (now ret : Int), ret ≠ 0 →
    let received := (n.readVerify f.call.delta now ret r).2.1
    b.getTime = received.getTime ∧ received.getTime = f.localTime
      ∧ ∀ i < b.count, b.read i = received.read i

/-- For the packet of a flush and any copy of it the two ways agree exactly when
the offset is zero. -/
theorem Flush.pathsAgree_iff {f : Flush} (h : f.Wf) {r : TimeBuffer}
    (hr : f.packet.Delivers r) : f.PathsAgree f.packet r ↔ f.call.delta = 0 := by
  have hlocal : (r.prepareRead f.call.delta).getTime = f.localTime := by
    rw [TimeBuffer.getTime, TimeBuffer.prepareRead_time, hr.time, h.packet_time,
      TimeSync.toLocal_toNetwork]
  have hshared : f.packet.getTime = f.localTime ↔ f.call.delta = 0 := by
    rw [TimeBuffer.getTime, h.packet_time, TimeSync.toNetwork_eq_self_iff]
  constructor
  · intro hagree
    obtain ⟨htime, hrecv, -⟩ := hagree ⟨∅⟩ 0 1 (by decide)
    exact hshared.mp (htime.trans hrecv)
  · intro hzero n now ret hret
    dsimp only
    rw [n.readVerify_buffer _ _ _ hret]
    have htime : f.packet.getTime = (r.prepareRead f.call.delta).getTime :=
      (hshared.mpr hzero).trans hlocal.symm
    refine ⟨htime, hlocal, ?_⟩
    intro i hi
    obtain ⟨hidx, hdt⟩ := hr.impulse i hi
    have hdt' : (r.prepareRead f.call.delta).dt[i]? = f.packet.dt[i]? := hdt
    have hidx' : (r.prepareRead f.call.delta).idx[i]? = f.packet.idx[i]? := hidx
    have htime' : f.packet.time = (r.prepareRead f.call.delta).time := htime
    rw [TimeBuffer.read, TimeBuffer.read, hdt', hidx', htime']

/-- In every run of a process: what a cluster is given in-process agrees with
what a receiver gets through the network exactly when the offset was zero at
the flush. -/
theorem delivery_agrees_iff (p : Process) (h : Process.system.Reachable p) (i : Nat)
    (b : TimeBuffer) (hb : (Via.process, b) ∈ (p.servers i).delivered) :
    ∃ j, ∃ f ∈ (p.servers j).server.sent, b = f.packet
      ∧ ∀ r, b.Delivers r → (f.PathsAgree b r ↔ f.call.delta = 0) := by
  obtain ⟨j, f, hf, he, hw⟩ := Process.process_delivery h hb
  subst he
  exact ⟨j, f, hf, rfl, fun r hr => Flush.pathsAgree_iff hw hr⟩

/-! ### A run on a host one microsecond off -/

/-- The buffer that the impulses of `threeCalls` flush at an offset of one
microsecond. -/
def skewedPacket : TimeBuffer :=
  (((TimeBuffer.new.stored 7 0).stored 9 1000000).sealed 1 50000000).setSrcClusterId 1025

/-- All servers new, and the first one subscribed to everything. -/
def Process.start : Process where
  servers := fun _ => ⟨.new 1025, [], []⟩
  subscribers := fun _ => [0]
  network := ⟨∅⟩
  posts := []

/-- Three impulses, the main loop, the input of the cluster: the cluster is given
what its own server flushed. -/
theorem Process.skewed_run : ∃ p, system.Reachable p
    ∧ (Via.process, skewedPacket) ∈ (p.servers 0).delivered
    ∧ ∃ f ∈ (p.servers 0).server.sent, skewedPacket = f.packet ∧ f.call.delta = 1 := by
  have h₀ : system.Reachable start := .init ⟨rfl, fun _ => ⟨1025, rfl⟩⟩
  have h₁ := h₀.step (Step.write 0 ⟨7, 0, 1⟩ rfl)
  have h₂ := h₁.step (Step.write 0 ⟨9, 1000000, 1⟩ rfl)
  have h₃ := h₂.step (Step.write 0 ⟨3, 50000000, 1⟩ rfl)
  have h₄ := h₃.step (Step.dispatch 0 skewedPacket [] rfl)
  have h₅ := h₄.step (Step.performIO 0 (.process, skewedPacket) [] rfl)
  exact ⟨_, h₅, List.mem_singleton_self _, _, List.mem_singleton_self _, rfl, rfl⟩

theorem delivery_agrees_iff_skewed : ∃ p : Process, ∃ j, ∃ f ∈ (p.servers j).server.sent,
    skewedPacket = f.packet
      ∧ ∀ r, skewedPacket.Delivers r → (f.PathsAgree skewedPacket r ↔ f.call.delta = 0) := by
  obtain ⟨p, hp, hb, -⟩ := Process.skewed_run
  exact ⟨p, delivery_agrees_iff p hp 0 skewedPacket hb⟩

/-- The cluster sees its impulses a microsecond before a remote receiver with the
same clock does. -/
theorem skewed_paths_disagree : ∃ p, Process.system.Reachable p
    ∧ (Via.process, skewedPacket) ∈ (p.servers 0).delivered
    ∧ ∃ f ∈ (p.servers 0).server.sent, skewedPacket = f.packet
      ∧ ∃ r, skewedPacket.Delivers r ∧ ¬ f.PathsAgree skewedPacket r := by
  obtain ⟨p, hp, hb, f, hf, he, hdelta⟩ := Process.skewed_run
  have hself : skewedPacket.Delivers skewedPacket := ⟨rfl, rfl, rfl, fun _ _ => ⟨rfl, rfl⟩⟩
  refine ⟨p, hp, hb, f, hf, he, skewedPacket, hself, ?_⟩
  intro hagree
  have hw := ((Process.inv_reachable hp) 0).wf.sent f hf
  rw [he] at hself hagree
  have hzero := (Flush.pathsAgree_iff hw hself).mp hagree
  rw [hdelta] at hzero
  exact absurd hzero (by decide)

end DistributAr
