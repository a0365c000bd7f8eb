/-
# `DistributAr.Lan` — from a cluster on one host to a subscriber on another

Any number of servers write impulses, on any hosts and with any clock offsets, and
any number of processes listen.  What a server hands over may be heard by a process
any number of times, in any order, late or never: every buffer that was ever handed
over may be heard at every step.  A process reads it into whatever its object holds,
and asks `readVerify`.

    call of `write`  →  buffer in use  →  packet  →  datagram  →  object  →  accepted
      local time           local time     network    a prefix     local time

What is accepted names its source, holds its nodes, unless there is only one, and has
its base time on the clock of the listener (`accepted_authentic`); and where the delta
of an impulse was sent, the impulse has the time of the call, to the microsecond
(`accepted_on_time`).
-/
import DistributAr.Filtering
import DistributAr.Impulses
import DistributAr.Lib.System
import Mathlib.Logic.Function.Basic

namespace DistributAr

open Lib

/-- A buffer that a process hears: what its object holds before, and the offset and
the clock of the process. -/
structure Receipt where
  flush : Flush
  memory : Memory
  delta : Int
  now : Int

namespace Receipt

/-- What `read` leaves in the object. -/
def packet (x : Receipt) : TimeBuffer := Multicast.read x.flush.packet.packet x.memory

/-- The call of `readVerify`. -/
def reading (x : Receipt) : Reading :=
  ⟨x.flush.packet.packet.length, x.packet, x.now, x.delta⟩

/-- The object after `prepareRead`: this is what the subscribers are given. -/
def buffer (x : Receipt) : TimeBuffer := x.packet.prepareRead x.delta

/-- A time of the sender on the clock of the listener. -/
def onClock (x : Receipt) (t : Int) : Int :=
  TimeSync.toLocal x.delta (TimeSync.toNetwork x.flush.call.delta t)

end Receipt

/-- The servers, each with its journal, and what each process has heard. -/
structure Lan (σ ρ : Type*) where
  senders : σ → Journal
  heard : ρ → List Receipt

namespace Lan

variable {σ ρ : Type*} [DecidableEq σ] [DecidableEq ρ]

/-- What a server has handed over. -/
def sent (l : Lan σ ρ) (k : σ) : List Flush := (l.senders k).server.sent

/-- What `readVerify` accepted in a process. -/
def accepted (l : Lan σ ρ) (h : ρ) : List Receipt :=
  Gate.accepted (fun (n : Network) (x : Receipt) => n.receive x.reading) .start (l.heard h)

/-- The steps, in any order.  `C` is what is assumed of the calls; times that do not
fit the clock are left out. -/
inductive Step (C : Journal → Call → Prop) : Lan σ ρ → Lan σ ρ → Prop
  /-- A cluster that has an ID emits an impulse: `Server::write`. -/
  | write {l : Lan σ ρ} (k : σ) (c : Call) {j : Journal} :
      (l.senders k).server.id ≠ 0 → C (l.senders k) c → (l.senders k).step c = some j →
      (∀ f ∈ j.server.sent, f.packet.Fits) →
      Step C l { l with senders := Function.update l.senders k j }
  /-- `RUN` -/
  | setId {l : Lan σ ρ} (k : σ) (id : ClusterID) :
      Step C l { l with senders := Function.update l.senders k ((l.senders k).setId id) }
  /-- A process hears a buffer: `readVerify`. -/
  | hear {l : Lan σ ρ} (h : ρ) (k : σ) (x : Receipt) : x.flush ∈ l.sent k →
      Step C l { l with heard := Function.update l.heard h (l.heard h ++ [x]) }

/-- No server has written, and no process has heard anything. -/
def Initial (l : Lan σ ρ) : Prop := (∀ k, ∃ id, l.senders k = .start id) ∧ ∀ h, l.heard h = []

def system (C : Journal → Call → Prop) : System (Lan σ ρ) where
  init := Initial
  step := Step C

/-! ## The senders -/

/-- A property of journals that the calls keep, and that does not depend on the ID. -/
structure Kept (C : Journal → Call → Prop) (P : Journal → Prop) : Prop where
  start : ∀ id, P (.start id)
  write : ∀ j c j', P j → j.server.id ≠ 0 → C j c → j.step c = some j' →
    (∀ f ∈ j'.server.sent, f.packet.Fits) → P j'
  setId : ∀ j id, P j → P (j.setId id)

variable {C : Journal → Call → Prop} {P : Journal → Prop} {l l' : Lan σ ρ} {k : σ} {h : ρ}

theorem Kept.reachable (hP : Kept C P) (hl : (system C).Reachable l) : ∀ k, P (l.senders k) := by
  refine System.invariant (P := fun l : Lan σ ρ => ∀ k, P (l.senders k)) ?_ ?_ hl
  · rintro l ⟨hstart, -⟩ k
    obtain ⟨id, hid⟩ := hstart k
    rw [hid]
    exact hP.start id
  · intro l l' hall hstep
    cases hstep with
    | write k c hid hC hj hfits =>
        exact (Function.forall_update_iff _ fun _ j => P j).mpr
          ⟨hP.write _ c _ (hall k) hid hC hj hfits, fun k' _ => hall k'⟩
    | setId k id =>
        exact (Function.forall_update_iff _ fun _ j => P j).mpr
          ⟨hP.setId _ id (hall k), fun k' _ => hall k'⟩
    | hear h k x hx => exact hall

/-- What was handed over stays handed over. -/
theorem Step.sent_subset (hs : Step C l l') (k : σ) : l.sent k ⊆ l'.sent k := by
  cases hs with
  | @write k' c j _ _ hj _ =>
      obtain ⟨hwrite, -⟩ := Journal.step_eq_some hj
      refine (Function.forall_update_iff l.senders fun k j => l.sent k ⊆ j.server.sent).mpr ?_ k
      exact ⟨Server.write_sent_subset hwrite, fun _ _ => List.Subset.refl _⟩
  | setId k' id =>
      refine (Function.forall_update_iff l.senders fun k j => l.sent k ⊆ j.server.sent).mpr ?_ k
      exact ⟨List.Subset.refl _, fun _ _ => List.Subset.refl _⟩
  | hear h k' x hx => exact List.Subset.refl _

/-- What a process hears was handed over. -/
theorem heard_sent (hl : (system C).Reachable l) :
    ∀ h, ∀ x ∈ l.heard h, ∃ k, x.flush ∈ l.sent k := by
  refine System.invariant
    (P := fun l : Lan σ ρ => ∀ h, ∀ x ∈ l.heard h, ∃ k, x.flush ∈ l.sent k) ?_ ?_ hl
  · rintro l ⟨-, hnone⟩ h x hx
    rw [hnone] at hx
    exact absurd hx List.not_mem_nil
  · intro l l' hall hstep
    have hgrows : ∀ k, l.sent k ⊆ l'.sent k := Step.sent_subset hstep
    have hold : ∀ h, ∀ x ∈ l.heard h, ∃ k, x.flush ∈ l'.sent k := fun h x hx =>
      (hall h x hx).imp fun k hk => hgrows k hk
    cases hstep with
    | write k c hid hC hj hfits => exact hold
    | setId k id => exact hold
    | hear h k x hx =>
        refine (Function.forall_update_iff l.heard fun _ xs =>
          ∀ y ∈ xs, ∃ k, y.flush ∈ l.sent k).mpr ⟨?_, fun h' _ => hold h'⟩
        intro y hy
        rcases List.mem_append.mp hy with hmem | hnew
        · exact hold h y hmem
        · rw [List.mem_singleton.mp hnew]
          exact ⟨k, hx⟩

/-- What holds of any journal: what was handed over is as `Server::write` hands it
over, fits the clock and names a cluster. -/
structure Proper (j : Journal) : Prop where
  faithful : j.Faithful
  fits : ∀ f ∈ j.server.sent, f.packet.Fits
  named : ∀ f ∈ j.server.sent, f.packet.srcId ≠ 0

theorem kept_proper (C : Journal → Call → Prop) : Kept C Proper where
  start := fun id => ⟨Journal.faithful_start id, fun _ hf => absurd hf List.not_mem_nil,
    fun _ hf => absurd hf List.not_mem_nil⟩
  write := by
    intro j c j' hj hid _ hstep hfits
    refine ⟨hj.faithful.step _ _ _ hstep, hfits, ?_⟩
    obtain ⟨-, hserver, -⟩ | ⟨-, -, hserver, -⟩ | ⟨-, -, hserver, -⟩ :=
      Journal.step_cases hstep <;> rw [hserver]
    · exact hj.named
    · exact hj.named
    · intro f hf
      rcases List.mem_append.mp hf with hold | hnew
      · exact hj.named f hold
      · rw [List.mem_singleton.mp hnew]
        exact hid
  setId := fun _ id hj => ⟨hj.faithful.setId id, hj.fits, hj.named⟩

end Lan

/-! ## What is accepted -/

namespace Receipt

variable {x : Receipt}

theorem buffer_srcId (x : Receipt) : x.buffer.srcId = x.flush.packet.srcId := by
  have hsrc := TimeBuffer.received_srcId (b := x.flush.packet) x.memory
  exact hsrc

theorem one_le_count (hwf : x.flush.Wf) : 1 ≤ x.flush.packet.count :=
  hwf.packet_count ▸ hwf.count_pos

theorem count_le (hwf : x.flush.Wf) : x.flush.packet.count ≤ maxOutputNodes :=
  hwf.packet_count ▸ hwf.count_le

/-- The base time has gone to network time and back, with two offsets. -/
theorem buffer_time (hwf : x.flush.Wf) (hfits : x.flush.packet.Fits) :
    x.buffer.time = x.onClock x.flush.localTime := by
  have htime := TimeBuffer.received_time x.memory (one_le_count hwf) hfits
  rw [hwf.packet_time] at htime
  exact congrArg (TimeSync.toLocal x.delta) htime

theorem buffer_count (hwf : x.flush.Wf) : x.buffer.count = x.flush.packet.count := by
  have hcount := TimeBuffer.received_count x.memory (one_le_count hwf) (count_le hwf)
  exact hcount

/-- Of two impulses or more, the nodes are those that were handed over. -/
theorem buffer_nodes (hwf : x.flush.Wf) (htwo : 2 ≤ x.flush.packet.count) :
    x.buffer.nodes = x.flush.packet.nodes := by
  have hidx : ∀ i ∈ List.range x.flush.packet.count, x.buffer.idx[i]? = x.flush.packet.idx[i]? := by
    intro i hi
    have hlt := List.mem_range.mp hi
    have hone := TimeBuffer.received_idx x.memory (Nat.lt_of_lt_of_le hlt (count_le hwf))
      (TimeBuffer.indexSent_of_two_le htwo hlt)
    exact hone
  rw [TimeBuffer.nodes, TimeBuffer.nodes, buffer_count hwf]
  exact List.filterMap_congr hidx

/-- The node of a single impulse is the one that was in the object. -/
theorem buffer_node (hwf : x.flush.Wf) (hone : x.flush.packet.count = 1) :
    x.buffer.nodes = (TimeBuffer.ofImage x.memory).idx[0]?.toList := by
  have hnot : ¬ x.flush.packet.IndexSent 0 := by
    unfold TimeBuffer.IndexSent
    omega
  have hkept := TimeBuffer.kept_idx x.memory (show 0 < maxOutputNodes by decide) hnot
  have hidx : x.buffer.idx[0]? = (TimeBuffer.ofImage x.memory).idx[0]? := hkept
  rw [TimeBuffer.nodes, buffer_count hwf, hone, List.range_one, ← hidx]
  rw [List.filterMap_cons]
  cases x.buffer.idx[0]? <;> rfl

end Receipt

namespace Lan

section

variable {σ ρ : Type*} {l : Lan σ ρ} {h : ρ}

/-- The gate of `readVerify`, for receipts. -/
theorem gate_receipts : Gate.Spec (fun (n : Network) (x : Receipt) => n.receive x.reading)
    (fun x => x.reading.source) (fun x => x.reading.base) Network.lastTime where
  decides := fun n m x heq => Network.gate_spec.decides n m x.reading heq
  accepts := fun n x hpass => Network.gate_spec.accepts n x.reading hpass
  rejects := fun n x hpass => Network.gate_spec.rejects n x.reading hpass

theorem accepted_young {x : Receipt} (hx : x ∈ l.accepted h) :
    x.now ≤ x.buffer.time + milliseconds packetLifeTimeMs := by
  have hmem := List.mem_map_of_mem (f := Receipt.reading) hx
  rw [accepted, Gate.accepted_map] at hmem
  have hyoung := Network.young_of_mem_accepted _ x.reading hmem
  exact hyoung

/-- What is accepted from a source is in the order of the base times. -/
theorem accepted_sorted (l : Lan σ ρ) (h : ρ) (id : ClusterID) :
    (((l.accepted h).filter fun x => x.buffer.srcId = id).map fun x => x.buffer.time).Pairwise
      (· ≤ ·) := by
  have hle : ∀ (n : Network) (x : Receipt), (n.receive x.reading).2 = true →
      n.lastTime x.reading.source ≤ x.reading.base := fun _ _ hpass =>
    (Network.receive_accepts hpass).1.2.2.2
  exact (gate_receipts.sorted hle .start (l.heard h) id).2

end

section

variable {σ ρ : Type*} [DecidableEq σ] [DecidableEq ρ] {C : Journal → Call → Prop}

/-- On any hosts, with any clock offsets, and however the network loses, repeats,
delays and reorders: what a process accepts was handed over by a server under the
ID that it names, with 1 to `maxOutputNodes` impulses; if there are two or more, their
nodes are those of calls of that server, and the node of a single one is what the
object of the process held before; the base time, that of a call, is converted with
the offsets of the two hosts; the packet is not older than the life time; and what is
accepted from a source is in the order of the base times. -/
theorem accepted_authentic (l : Lan σ ρ) (hl : (system C).Reachable l) (h : ρ) :
    (∀ x ∈ l.accepted h, (∃ k, x.flush ∈ l.sent k
        ∧ (2 ≤ x.buffer.count →
          ∀ n ∈ x.buffer.nodes, ∃ a ∈ (l.senders k).attempts, n = a.call.index)
        ∧ ∃ a ∈ (l.senders k).attempts, x.buffer.time = x.onClock a.call.time)
      ∧ x.buffer.srcId = x.flush.packet.srcId ∧ x.buffer.srcId ≠ 0
      ∧ (2 ≤ x.buffer.count → x.buffer.nodes = x.flush.packet.nodes)
      ∧ (x.buffer.count = 1 →
        x.buffer.nodes = (TimeBuffer.ofImage x.memory).idx[0]?.toList)
      ∧ 1 ≤ x.buffer.count ∧ x.buffer.count ≤ maxOutputNodes
      ∧ x.now ≤ x.buffer.time + milliseconds packetLifeTimeMs)
    ∧ ∀ id, (((l.accepted h).filter fun x => x.buffer.srcId = id).map
        fun x => x.buffer.time).Pairwise (· ≤ ·) := by
  refine ⟨?_, accepted_sorted l h⟩
  intro x hx
  obtain ⟨k, hk⟩ := heard_sent hl h x (Gate.accepted_subset _ _ hx)
  have hproper := (kept_proper C).reachable hl k
  have hwf := hproper.faithful.wf.sent _ hk
  have hnamed := hproper.named _ hk
  rw [← Receipt.buffer_srcId] at hnamed
  have hcount := Receipt.buffer_count hwf
  refine ⟨⟨k, hk, ?_, ?_⟩, x.buffer_srcId, hnamed,
    fun htwo => Receipt.buffer_nodes hwf (hcount ▸ htwo),
    fun hone => Receipt.buffer_node hwf (hcount ▸ hone), hcount ▸ Receipt.one_le_count hwf,
    hcount ▸ Receipt.count_le hwf, accepted_young hx⟩
  · intro htwo n hn
    rw [Receipt.buffer_nodes hwf (hcount ▸ htwo)] at hn
    have hall : n ∈ (l.senders k).server.nodes :=
      List.mem_append_left _ (List.mem_flatMap.mpr ⟨x.flush, hk, hn⟩)
    rw [hproper.faithful.nodes] at hall
    obtain ⟨a, ha, rfl⟩ := List.mem_map.mp hall
    exact ⟨a, List.mem_of_mem_filter ha, rfl⟩
  · obtain ⟨-, a, ha, htime⟩ := hproper.faithful.sent _ hk
    refine ⟨a, ha, ?_⟩
    rw [Receipt.buffer_time hwf (hproper.fits _ hk), htime]

/-! ## When it comes -/

/-- The other half of what holds of a journal whose calls survive. -/
theorem kept_onTime : Kept Journal.Survives fun j => j.Aligned ∧ j.Keeps where
  start := fun id => ⟨Journal.aligned_start id, fun _ ha => absurd ha List.not_mem_nil, .nil⟩
  write := fun j c j' ⟨haligned, hkeeps⟩ _ hC hstep _ =>
    ⟨haligned.step j c j' hstep, (Journal.keeps_step j c j' haligned hkeeps hstep).mpr hC⟩
  setId := fun _ _ ⟨haligned, hkeeps⟩ =>
    ⟨⟨⟨haligned.wf.count_le, haligned.wf.unused, haligned.wf.sent⟩, haligned.length, haligned.base⟩,
      hkeeps.stored, hkeeps.read⟩

end

end Lan

namespace Receipt

variable {x : Receipt} {i : Nat}

theorem onClock_add (x : Receipt) (t d : Int) : x.onClock (t + d) = x.onClock t + d := by
  simp only [onClock, TimeSync.toLocal, TimeSync.toNetwork]
  omega

/-- The node and the delta of impulse `i` are the ones that were handed over: they came
with the datagram, or were in the object before. -/
def Arrived (x : Receipt) (i : Nat) : Prop :=
  x.buffer.idx[i]? = x.flush.packet.idx[i]? ∧ x.buffer.dt[i]? = x.flush.packet.dt[i]?

theorem arrived_of_sent (hwf : x.flush.Wf) (hi : i < x.flush.packet.count)
    (hsent : x.flush.packet.DeltaSent i) : x.Arrived i := by
  have hcap : i < maxOutputNodes := Nat.lt_of_lt_of_le hi (count_le hwf)
  have hindex : x.flush.packet.IndexSent i := by
    unfold TimeBuffer.DeltaSent at hsent
    unfold TimeBuffer.IndexSent
    omega
  have hidx := TimeBuffer.received_idx x.memory hcap hindex
  have hdt := TimeBuffer.received_dt x.memory hcap hsent
  exact ⟨hidx, hdt⟩

/-- Where the object held the same buffer before, everything is as if it had arrived. -/
theorem arrived_of_memory (hwf : x.flush.Wf) (hfits : x.flush.packet.Fits)
    (hi : i < x.flush.packet.count) (hmemory : x.memory = x.flush.packet.image) :
    x.Arrived i := by
  have htail : x.flush.packet.TailAgrees x.memory := by
    rw [hmemory]
    intro i hi
    have hcap : i < maxOutputNodes := Nat.lt_of_lt_of_le hi (count_le hwf)
    exact ⟨fun _ => TimeBuffer.ofImage_image_idx _ hcap,
      fun _ => TimeBuffer.ofImage_image_dt _ hcap⟩
  have hdelivers := (TimeBuffer.delivers_iff_tailAgrees x.memory (one_le_count hwf) (count_le hwf)
    hfits).mpr htail
  exact hdelivers.impulse i hi

/-- An impulse that arrived is the one that was handed over, on the clock of the
listener. -/
theorem buffer_read (hwf : x.flush.Wf) (hfits : x.flush.packet.Fits) (harrived : x.Arrived i) :
    x.buffer.read i
      = ((x.flush.before.based x.flush.call.time).read i).map fun e => (x.onClock e.1, e.2) := by
  obtain ⟨hidx, hdt⟩ := harrived
  have htime : (x.flush.packet.prepareRead x.flush.call.delta).time = x.flush.localTime := by
    rw [TimeBuffer.prepareRead_time, hwf.packet_time, TimeSync.toLocal_toNetwork]
  have hsame : (x.flush.packet.prepareRead x.flush.call.delta).dt[i]? = x.flush.packet.dt[i]?
      ∧ (x.flush.packet.prepareRead x.flush.call.delta).idx[i]? = x.flush.packet.idx[i]? :=
    ⟨rfl, rfl⟩
  rw [← hwf.read_packet, TimeBuffer.read, TimeBuffer.read, hidx, hdt, htime,
    buffer_time hwf hfits, hsame.1, hsame.2]
  cases x.flush.packet.dt[i]? with
  | none => rfl
  | some dtime =>
      cases x.flush.packet.idx[i]? with
      | none => rfl
      | some node => simp only [Option.map_some, onClock_add]

/-- There is an impulse at every index in use. -/
theorem exists_read {b : TimeBuffer} (hi : i < maxOutputNodes) : ∃ e, b.read i = some e := by
  rw [TimeBuffer.read, Vector.getElem?_eq_getElem hi, Vector.getElem?_eq_getElem hi]
  exact ⟨_, rfl⟩

end Receipt

namespace Lan

variable {σ ρ : Type*} [DecidableEq σ] [DecidableEq ρ]

theorem exists_of_forall₂ {α β : Type*} {R : α → β → Prop} {l : List α} {m : List β} {b : β}
    (h : List.Forall₂ R l m) (hb : b ∈ m) : ∃ a ∈ l, R a b := by
  induction h with
  | nil => exact absurd hb List.not_mem_nil
  | @cons a c l m hhead htail ih =>
      rcases List.mem_cons.mp hb with rfl | hrest
      · exact ⟨a, List.mem_cons_self, hhead⟩
      · obtain ⟨a', ha', hR⟩ := ih hrest
        exact ⟨a', List.mem_cons_of_mem a ha', hR⟩

/-- Where all journals keep their times, what is accepted is in one of them. -/
theorem accepted_in_journal {C : Journal → Call → Prop} {l : Lan σ ρ} (hl : (system C).Reachable l)
    (hkeeps : ∀ k, (l.senders k).Keeps) (h : ρ) :
    ∀ x ∈ l.accepted h, ∃ k, x.flush ∈ l.sent k ∧ ∀ i < x.buffer.count,
      (x.flush.packet.DeltaSent i → x.Arrived i)
        ∧ (x.Arrived i → ∃ a ∈ (l.senders k).attempts, ∃ t node,
          x.buffer.read i = some (x.onClock t, node)
            ∧ (a.buffer.Recent a.call.time → Near t a.call.time ∧ node = a.call.index)) := by
  intro x hx
  obtain ⟨k, hk⟩ := heard_sent hl h x (Gate.accepted_subset _ _ hx)
  have hproper := (kept_proper C).reachable hl k
  have hwf := hproper.faithful.wf.sent _ hk
  refine ⟨k, hk, ?_⟩
  intro i hi
  rw [Receipt.buffer_count hwf] at hi
  refine ⟨Receipt.arrived_of_sent hwf hi, ?_⟩
  intro harrived
  have hbefore : i < x.flush.before.count := hwf.packet_count ▸ hi
  obtain ⟨⟨t, node⟩, he⟩ := Receipt.exists_read (b := x.flush.before.based x.flush.call.time)
    (Nat.lt_of_lt_of_le hbefore hwf.count_le)
  -- the entry is one of those that the journal accounts for
  have hentry : (t, node) ∈ (l.senders k).server.impulses := by
    refine List.mem_append_left _ (List.mem_flatMap.mpr ⟨x.flush, hk, ?_⟩)
    exact List.mem_filterMap.mpr ⟨i, List.mem_range.mpr hbefore, he⟩
  obtain ⟨a, ha, hreads⟩ := exists_of_forall₂ (hkeeps k).read hentry
  refine ⟨a, List.mem_of_mem_filter ha, t, node, ?_, hreads⟩
  rw [Receipt.buffer_read hwf (hproper.fits _ hk) harrived, he]
  rfl

/-- If the calls of all servers keep their times, then an impulse that is accepted
with its node and its delta is one that a cluster emitted: it has its node, and its
time on the clock of the listener to the microsecond.  What lies in the transmitted
prefix comes with the datagram. -/
theorem accepted_on_time (l : Lan σ ρ) (hl : (system Journal.Survives).Reachable l) (h : ρ) :
    ∀ x ∈ l.accepted h, ∃ k, x.flush ∈ l.sent k ∧ ∀ i < x.buffer.count,
      (x.flush.packet.DeltaSent i → x.Arrived i)
        ∧ (x.Arrived i → ∃ a ∈ (l.senders k).attempts, ∃ t node,
          x.buffer.read i = some (x.onClock t, node)
            ∧ (a.buffer.Recent a.call.time → Near t a.call.time ∧ node = a.call.index)) :=
  accepted_in_journal hl (fun k => (kept_onTime.reachable hl k).2) h

/-! ## An impulse that is heard -/

omit [DecidableEq σ] [DecidableEq ρ] in
/-- The first process to hear anything accepts what is young. -/
theorem accepted_first {l : Lan σ ρ} {h : ρ} {x : Receipt} (hheard : l.heard h = [x])
    (hwf : x.flush.Wf) (hfits : x.flush.packet.Fits)
    (hyoung : x.now ≤ x.onClock x.flush.localTime + milliseconds packetLifeTimeMs)
    (hclock : timeMin ≤ x.onClock x.flush.localTime) : x ∈ l.accepted h := by
  have hcount := Receipt.buffer_count hwf
  have htime := Receipt.buffer_time hwf hfits
  rw [← htime] at hyoung hclock
  have hpos : 0 < x.buffer.count := by
    rw [hcount, hwf.packet_count]
    exact hwf.count_pos
  have hread : x.reading.ret ≠ 0 := by
    show (x.flush.packet.packet.length : Int) ≠ 0
    rw [TimeBuffer.packet, Memory.take, List.length_map, List.length_range, TimeBuffer.size_eq]
    omega
  have haccepts : Network.start.Accepts x.reading := ⟨hread, hpos, hyoung, hclock⟩
  obtain ⟨-, hyes, -⟩ | ⟨hno, -, -⟩ := Network.receive_cases .start x.reading
  · rw [accepted, hheard, Gate.accepted_cons, if_pos hyes]
    exact List.mem_cons_self
  · exact absurd haccepts hno

/-- Two impulses, fifty milliseconds apart: the first leaves, and comes to a process
that has seen the buffer before. -/
theorem impulse_heard : ∃ l : Lan Unit Unit, (system Journal.Survives).Reachable l
    ∧ ∃ x ∈ l.accepted (), x.buffer.count = 1 ∧ x.Arrived 0
      ∧ x.flush.call.delta = 0 ∧ x.delta = 0 ∧ x.now = 0 := by
  have hrun : ∃ j₁ j₂ f, (Journal.start 1025).step ⟨7, 0, 0⟩ = some j₁
      ∧ j₁.step ⟨3, 50000000, 0⟩ = some j₂ ∧ j₁.server.id ≠ 0 ∧ j₁.server.sent = []
      ∧ j₁.server.timeBuff.time ≠ timeMin ∧ j₁.server.timeBuff.Spans 50000000
      ∧ j₂.server.sent = [f] ∧ f.packet.Fits ∧ f.localTime = 0 ∧ f.call.delta = 0
      ∧ f.packet.count = 1 :=
    ⟨_, _, _, rfl, rfl, by decide, rfl, by decide, by decide, rfl, ⟨by decide, by decide⟩, rfl,
      rfl, rfl⟩
  obtain ⟨j₁, j₂, f, hfirst, hsecond, hid, hnone, hused, hspans, hsent, hfits, hlocal, hdelta,
    hcount⟩ := hrun
  let l₀ : Lan Unit Unit := ⟨fun _ => .start 1025, fun _ => []⟩
  have h₀ : (system Journal.Survives).Reachable l₀ := .init ⟨fun _ => ⟨1025, rfl⟩, fun _ => rfl⟩
  have hsurvives : (Journal.start 1025).Survives ⟨7, 0, 0⟩ :=
    ⟨fun _ ⟨r, hr, _⟩ => absurd hr List.not_mem_nil, fun hne => absurd rfl hne⟩
  have h₁ := h₀.step (Step.write (l := l₀) () ⟨7, 0, 0⟩ (by decide) hsurvives hfirst
    (hnone ▸ fun f hf => absurd hf List.not_mem_nil))
  have hfinds : Function.update l₀.senders () j₁ () = j₁ := Function.update_self ..
  have h₂ := h₁.step (Step.write () ⟨3, 50000000, 0⟩ (hfinds.symm ▸ hid)
    (hfinds.symm ▸ ⟨fun hmin => absurd hmin hused, fun _ _ => hspans⟩) (hfinds.symm ▸ hsecond)
    (hsent ▸ fun g hg => List.mem_singleton.mp hg ▸ hfits))
  let x : Receipt := ⟨f, f.packet.image, 0, 0⟩
  have hmem : f ∈ j₂.server.sent := hsent ▸ List.mem_singleton_self f
  have hlast : (Function.update (Function.update l₀.senders () j₁) () j₂) () = j₂ :=
    Function.update_self ..
  have h₃ := h₂.step (Step.hear () () x (show f ∈ Server.sent (Journal.server _) from
    hlast.symm ▸ hmem))
  have hproper := (kept_proper Journal.Survives).reachable h₂ ()
  have hwf : f.Wf := hproper.faithful.wf.sent f (hlast.symm ▸ hmem)
  have hclock : x.onClock x.flush.localTime = 0 := by
    show TimeSync.toLocal 0 (TimeSync.toNetwork f.call.delta f.localTime) = 0
    rw [hdelta, hlocal]
    rfl
  have hheard : Function.update l₀.heard () (l₀.heard () ++ [x]) () = [x] := by
    rw [Function.update_self]
    rfl
  have hyoung : (0 : Int) ≤ 0 + milliseconds packetLifeTimeMs := by decide
  have harrived : x.Arrived 0 :=
    Receipt.arrived_of_memory hwf hfits (Receipt.one_le_count (x := x) hwf) rfl
  refine ⟨_, h₃, x, ?_, (Receipt.buffer_count hwf).trans hcount, harrived, hdelta, rfl, rfl⟩
  exact accepted_first hheard hwf hfits (hclock.symm ▸ hyoung) (hclock.symm ▸ by decide)

theorem accepted_authentic_heard : ∃ l : Lan Unit Unit, (system Journal.Survives).Reachable l
    ∧ ∃ x ∈ l.accepted (), x.buffer.srcId = x.flush.packet.srcId ∧ x.buffer.srcId ≠ 0 := by
  obtain ⟨l, hl, x, hx, -⟩ := impulse_heard
  obtain ⟨-, hsrc, hnamed, -⟩ := (accepted_authentic l hl ()).1 x hx
  exact ⟨l, hl, x, hx, hsrc, hnamed⟩

theorem accepted_on_time_heard : ∃ l : Lan Unit Unit, (system Journal.Survives).Reachable l
    ∧ ∃ x ∈ l.accepted (), ∃ k, x.flush ∈ l.sent k ∧ ∃ a ∈ (l.senders k).attempts, ∃ t node,
      x.buffer.read 0 = some (x.onClock t, node)
        ∧ (a.buffer.Recent a.call.time → Near t a.call.time ∧ node = a.call.index) := by
  obtain ⟨l, hl, x, hx, hcount, harrived, -⟩ := impulse_heard
  have hpos : 0 < x.buffer.count := by omega
  obtain ⟨k, hk, hall⟩ := accepted_on_time l hl () x hx
  exact ⟨l, hl, x, hx, k, hk, (hall 0 hpos).2 harrived⟩

end Lan

end DistributAr
