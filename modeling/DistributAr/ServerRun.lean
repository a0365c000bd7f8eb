/-
# `DistributAr.ServerRun` — the thread of a server

`Server::run` is two nested loops around three calls.  A round tells the tracker
the ID, then looks `UPDATE_PERIOD` times for a command, each time followed by
`commandPeriod` turns of `performIO`; at its end `commandPeriod` is adjusted to
the speed of the cluster.

| call                   | reads                      | writes                          |
|------------------------|----------------------------|---------------------------------|
| `requestIdFromTracker` |                            | the ID, to the tracker          |
| `processCommands`      | a datagram, if there is one | the answer, to its sender      |
| `performIO`            | a packet of `inQ`          | buffers, to the multicast group |

The main thread puts packets into `inQ` at any time.  What the library of the
cluster does (its answers, the impulses it emits, whether it waits for input) and
what `commandPeriod` is set to come with the event.  `getId` and `setId` are those of
`ICluster`: the library does not override them.
-/
import DistributAr.Impulses
import DistributAr.Requests
import DistributAr.Subscription

namespace DistributAr

open Lib

/-- What a server writes to its socket. -/
inductive ServerOutput where
  | tracker (text : List Char)
  | answer (sender : SockAddr) (text : List Char)
  | multicast (group : UInt32) (packet : TimeBuffer)

/-- Where the thread is: before a call, with the turns of the loops that are left. -/
inductive ServerAt where
  | request
  | commands (i : Nat)
  | io (i j : Nat)
  | adjust
deriving DecidableEq

/-- The calls in the loops, and the end of a round. -/
inductive ServerCall where
  | request
  | commands
  | io
  | adjust
deriving DecidableEq

/-- A server and its thread.  What was written, and what the cluster was given,
are records that the program does not keep. -/
structure ServerRun where
  journal : Journal
  mCastGrp : UInt32
  inQ : List TimeBuffer
  commandPeriod : Nat
  place : ServerAt
  written : List ServerOutput
  given : List TimeBuffer

/-- What the thread meets at a call, and a packet that comes to `inQ`. -/
inductive ServerEvent where
  | arrive (bb : TimeBuffer)
  | request
  | commands (garbage : ClusterID) (command : List Char → List Char)
      (found : Option (SockAddr × List UInt8))
  | io (isWaitForInput : Bool) (calls : List Call)
  | adjust (commandPeriod : Int)

namespace ServerEvent

/-- The packets that come in. -/
def arrivals : ServerEvent → List TimeBuffer
  | .arrive bb => [bb]
  | _ => []

/-- The call that the event belongs to. -/
def calls : ServerEvent → List ServerCall
  | .arrive _ => []
  | .request => [.request]
  | .commands _ _ _ => [.commands]
  | .io _ _ => [.io]
  | .adjust _ => [.adjust]

/-- The impulses that the cluster has, should it be asked. -/
def impulses : ServerEvent → List Call
  | .io _ calls => calls
  | _ => []

end ServerEvent

/-- `UPDATE_PERIOD` -/
def updatePeriod : Nat := 60000 / 500

/-- `Server::buffSize` -/
def serverReadSize : Nat := 0xFFFF - 1

namespace ServerRun

/-- The members before the loop. -/
def start (id : ClusterID) : ServerRun where
  journal := .start id
  mCastGrp := idToMulticast id
  inQ := []
  commandPeriod := 100
  place := .request
  written := []
  given := []

/-- `cluster->getId()` -/
def id (r : ServerRun) : ClusterID := r.journal.server.id

/-- `cluster->setId(id)` -/
def setId (r : ServerRun) (id : ClusterID) : ServerRun :=
  { r with journal := r.journal.setId id }

/-- `udp.Write` -/
def write (r : ServerRun) (outputs : List ServerOutput) : ServerRun :=
  { r with written := r.written ++ outputs }

/-- `Server::requestIdFromTracker` -/
def requestIdFromTracker (r : ServerRun) : ServerRun :=
  r.write [.tracker (Server.requestIdFromTracker r.id)]

/-- `Server::parseCommand`: the group follows the ID. -/
def parseCommand (r : ServerRun) (garbage : ClusterID) (command : List Char → List Char)
    (cmd : List Char) : Option (ServerRun × List Char) :=
  match Server.parseCommand command garbage r.id cmd with
  | none => none
  | some (id, reply) =>
      if r.id ≠ id then some ({ r.setId id with mCastGrp := idToMulticast id }, reply)
      else some (r, reply)

/-- `Server::processCommands`: nothing when the process exits. -/
def processCommands (r : ServerRun) (garbage : ClusterID) (command : List Char → List Char) :
    Option (SockAddr × List UInt8) → Option ServerRun
  | none => some r
  | some (sender, bytes) =>
      if 0 < bytes.length then
        match r.parseCommand garbage command (textOf (bytes.take serverReadSize)) with
        | none => none
        | some (r, reply) => some (if reply = [] then r else r.write [.answer sender reply])
      else some r

/-- `cluster->read(*this)`: each call comes back to `Server::write`. -/
def read (r : ServerRun) (calls : List Call) : Option ServerRun :=
  (Run.after Journal.step r.journal calls).map fun j =>
    { r with journal := j }.write
      ((j.server.sent.drop r.journal.server.sent.length).map fun f : Flush =>
        .multicast r.mCastGrp f.packet)

/-- `inQ.pop(bb)` or `inQ.popNoBlock(bb)`, and `cluster->write(bb)`. -/
def input (r : ServerRun) : ServerRun :=
  match r.inQ with
  | [] => r
  | bb :: inQ => { r with inQ := inQ, given := r.given ++ [bb] }

/-- `Server::performIO`: nothing while `inQ.pop` blocks. -/
def performIO (r : ServerRun) (isWaitForInput : Bool) (calls : List Call) : Option ServerRun :=
  if isWaitForInput ∧ r.inQ = [] then none
  else if 0 < r.input.id then r.input.read calls else some r.input

/-- The head of the outer `for` with `i` turns to go. -/
def outer (i : Nat) : ServerAt := if i = 0 then .adjust else .commands i

/-- The head of the inner `for` with `j` turns to go, in the turn `i` of the outer. -/
def inner (i j : Nat) : ServerAt := if j = 0 then outer (i - 1) else .io i j

/-- `commandPeriod > 0 ? commandPeriod : 1` -/
def adjusted (period : Int) : Nat := if period > 0 then period.toNat else 1

/-- One call of the thread, or a packet that arrives. -/
def step (r : ServerRun) (e : ServerEvent) : Option ServerRun :=
  match e, r.place with
  | .arrive bb, _ => some { r with inQ := r.inQ ++ [bb] }
  | .request, .request => some { r.requestIdFromTracker with place := outer updatePeriod }
  | .commands garbage command found, .commands i =>
      (r.processCommands garbage command found).map fun r =>
        { r with place := inner i r.commandPeriod }
  | .io isWaitForInput calls, .io i j =>
      ( r.performIO isWaitForInput calls).map fun r => { r with place := inner i (j - 1) }
  | .adjust period, .adjust =>
      some { r with commandPeriod := adjusted period, place := .request }
  | _, _ => none

/-! ## What a call does -/

variable {r r' r'' : ServerRun} {e : ServerEvent} {id : ClusterID} {events : List ServerEvent}

/-- What a command can do to a server: the ID and the group change together, or
neither does, and the answer goes to whoever sent it. -/
def Answered (r r' : ServerRun) : Prop :=
  ∃ id group answers, r' = { r.setId id with mCastGrp := group, written := r.written ++ answers }
    ∧ (group = idToMulticast id ∨ id = r.id ∧ group = r.mCastGrp)
    ∧ ∀ o ∈ answers, ∃ sender text, o = .answer sender text

theorem Answered.refl (r : ServerRun) : r.Answered r := by
  refine ⟨r.id, r.mCastGrp, [], ?_, .inr ⟨rfl, rfl⟩, fun _ ho => absurd ho List.not_mem_nil⟩
  rw [List.append_nil]
  rfl

theorem Answered.write (h : r.Answered r') (sender : SockAddr) (text : List Char) :
    r.Answered (r'.write [.answer sender text]) := by
  obtain ⟨id, group, answers, rfl, hgroup, hanswers⟩ := h
  refine ⟨id, group, answers ++ [.answer sender text], ?_, hgroup, ?_⟩
  · rw [← List.append_assoc]
    rfl
  · intro o ho
    rcases List.mem_append.mp ho with hold | hnew
    · exact hanswers o hold
    · exact ⟨sender, text, List.mem_singleton.mp hnew⟩

theorem answered_parseCommand {garbage : ClusterID} {command : List Char → List Char}
    {cmd reply : List Char} (h : r.parseCommand garbage command cmd = some (r', reply)) :
    r.Answered r' := by
  rw [parseCommand] at h
  split at h
  case h_1 => cases h
  case h_2 id _ _ =>
    split at h
    case isTrue =>
      cases h
      refine ⟨id, idToMulticast id, [], ?_, .inl rfl, fun _ ho => absurd ho List.not_mem_nil⟩
      rw [List.append_nil]
      rfl
    case isFalse =>
      cases h
      exact .refl _

theorem answered_processCommands {garbage : ClusterID} {command : List Char → List Char}
    {found : Option (SockAddr × List UInt8)}
    (h : r.processCommands garbage command found = some r') : r.Answered r' := by
  unfold processCommands at h
  split at h
  case h_1 =>
    cases h
    exact .refl _
  case h_2 sender bytes =>
    split at h
    case isFalse =>
      cases h
      exact .refl _
    case isTrue =>
      split at h
      case h_1 => cases h
      case h_2 t reply hparse =>
        cases h
        split
        case isTrue => exact answered_parseCommand hparse
        case isFalse => exact (answered_parseCommand hparse).write sender reply

/-- Calls of `Server::write` keep the ID, and what they hand over carries it. -/
def Handed (j j' : Journal) (flushes : List Flush) : Prop :=
  j'.server.id = j.server.id ∧ j'.server.sent = j.server.sent ++ flushes
    ∧ ∀ f ∈ flushes, f.packet.srcId = j.server.id

theorem handed_after {j j' : Journal} {calls : List Call}
    (h : Run.after Journal.step j calls = some j') : ∃ flushes, Handed j j' flushes := by
  have hstart : Handed j j [] :=
    ⟨rfl, (List.append_nil _).symm, fun _ hf => absurd hf List.not_mem_nil⟩
  refine Run.after_invariant (I := fun k => ∃ flushes, Handed j k flushes) ?_ ⟨[], hstart⟩ h
  rintro k c l ⟨flushes, hid, hsent, hsrc⟩ hstep
  unfold Handed
  obtain ⟨-, hserver, -⟩ | ⟨-, -, hserver, -⟩ | ⟨-, -, hserver, -⟩ := Journal.step_cases hstep <;>
    rw [hserver]
  · exact ⟨flushes, hid, hsent, hsrc⟩
  · exact ⟨flushes, hid, hsent, hsrc⟩
  · let packet := (k.server.timeBuff.sealed c.delta c.time).setSrcClusterId k.server.id
    refine ⟨flushes ++ [⟨k.server.timeBuff, packet, c⟩], hid, ?_, ?_⟩
    · rw [← List.append_assoc, ← hsent]
      rfl
    · intro f hf
      rcases List.mem_append.mp hf with hold | hnew
      · exact hsrc f hold
      · rw [List.mem_singleton.mp hnew]
        exact hid

/-- The cluster is given the first packet, and nothing else changes. -/
theorem input_cases (r : ServerRun) : r.inQ = [] ∧ r.input = r
    ∨ ∃ bb inQ, r.inQ = bb :: inQ ∧ r.input = { r with inQ := inQ, given := r.given ++ [bb] } := by
  unfold input
  cases h : r.inQ with
  | nil => exact .inl ⟨rfl, rfl⟩
  | cons bb inQ => exact .inr ⟨bb, inQ, rfl, rfl⟩

theorem input_id (r : ServerRun) : r.input.id = r.id := by
  obtain ⟨-, h⟩ | ⟨_, _, -, h⟩ := r.input_cases
  · rw [h]
  · rw [h]
    rfl

/-- The cluster emits impulses: the buffers that are handed over go to the group. -/
theorem read_cases {calls : List Call} (h : r.read calls = some r') :
    ∃ j flushes, Run.after Journal.step r.journal calls = some j ∧ Handed r.journal j flushes
      ∧ r' = { r with
        journal := j
        written := r.written ++ flushes.map fun f => .multicast r.mCastGrp f.packet } := by
  obtain ⟨j, hj, rfl⟩ := Option.map_eq_some_iff.mp h
  obtain ⟨flushes, hhanded⟩ := handed_after hj
  refine ⟨j, flushes, hj, hhanded, ?_⟩
  rw [hhanded.2.1, List.drop_left]
  rfl

/-- A turn of `performIO`: the cluster is given a packet, and emits impulses if it
has an ID. -/
theorem performIO_cases {isWaitForInput : Bool} {calls : List Call}
    (h : r.performIO isWaitForInput calls = some r') : (isWaitForInput = true → r.inQ ≠ [])
      ∧ (r' = r.input ∨ r.id ≠ 0 ∧ r.input.read calls = some r') := by
  rw [ performIO] at h
  split at h
  case isTrue => cases h
  case isFalse hruns =>
    refine ⟨fun hwait hempty => hruns ⟨hwait, hempty⟩, ?_⟩
    split at h
    case isTrue hpos =>
      rw [input_id] at hpos
      exact .inr ⟨UInt32.pos_iff_ne_zero.mp hpos, h⟩
    case isFalse =>
      cases h
      exact .inl rfl

/-! ## The invariant -/

/-- The packets among what was written. -/
def packets (outputs : List ServerOutput) : List TimeBuffer :=
  outputs.filterMap fun
    | .multicast _ packet => some packet
    | _ => none

/-- A packet goes to the group of the ID in it. -/
def ServerOutput.Addressed : ServerOutput → Prop
  | .multicast group packet => packet.srcId ≠ 0 ∧ group = idToMulticast packet.srcId
  | _ => True

/-- The group is that of the ID, and what was written is what was handed over. -/
structure Inv (r : ServerRun) : Prop where
  faithful : r.journal.Faithful
  entered : r.journal.Entered
  group : r.mCastGrp = idToMulticast r.id
  sent : packets r.written = r.journal.server.sent.map Flush.packet
  addressed : ∀ o ∈ r.written, ServerOutput.Addressed o

theorem inv_start (id : ClusterID) : (start id).Inv where
  faithful := Journal.faithful_start id
  entered := Journal.entered_start id
  group := rfl
  sent := rfl
  addressed := fun _ h => absurd h List.not_mem_nil

/-- Where the thread is, and what it was given, does not matter. -/
theorem Inv.at (h : r.Inv) (inQ : List TimeBuffer) (commandPeriod : Nat) (place : ServerAt)
    (given : List TimeBuffer) : ({ r with
      inQ := inQ
      commandPeriod := commandPeriod
      place := place
      given := given } : ServerRun).Inv :=
  ⟨h.faithful, h.entered, h.group, h.sent, h.addressed⟩

theorem packets_append (a b : List ServerOutput) : packets (a ++ b) = packets a ++ packets b :=
  List.filterMap_append

/-- What is no packet is written to the socket as it likes. -/
theorem Inv.write (h : r.Inv) {outputs : List ServerOutput} (hnone : packets outputs = [])
    (hother : ∀ o ∈ outputs, ServerOutput.Addressed o) : (r.write outputs).Inv where
  faithful := h.faithful
  entered := h.entered
  group := h.group
  sent := by
    show packets (r.written ++ outputs) = _
    rw [packets_append, hnone, List.append_nil]
    exact h.sent
  addressed := fun o ho => (List.mem_append.mp ho).elim (h.addressed o) (hother o)

theorem Inv.answered (h : r.Inv) (ha : r.Answered r') : r'.Inv := by
  obtain ⟨id, group, answers, rfl, hgroup, hanswers⟩ := ha
  have hset : ({ r.setId id with mCastGrp := group } : ServerRun).Inv := by
    refine ⟨h.faithful.setId id, h.entered.setId id, ?_, h.sent, h.addressed⟩
    rcases hgroup with hnew | ⟨rfl, rfl⟩
    · exact hnew
    · exact h.group
  refine hset.write ?_ ?_
  · refine List.filterMap_eq_nil_iff.mpr ?_
    intro o ho
    obtain ⟨_, _, rfl⟩ := hanswers o ho
    rfl
  · intro o ho
    obtain ⟨_, _, rfl⟩ := hanswers o ho
    trivial

theorem Inv.input (h : r.Inv) : r.input.Inv := by
  obtain ⟨-, heq⟩ | ⟨bb, inQ, -, heq⟩ := r.input_cases <;> rw [heq]
  · exact h
  · exact h.at ..

theorem Inv.read (h : r.Inv) {calls : List Call} (hid : r.id ≠ 0)
    (hread : r.read calls = some r') : r'.Inv := by
  obtain ⟨j, flushes, hj, ⟨hsame, hsent, hsrc⟩, rfl⟩ := read_cases hread
  have hpackets : packets (flushes.map fun f => .multicast r.mCastGrp f.packet)
      = flushes.map Flush.packet := by
    rw [packets, List.filterMap_map]
    exact congrFun (List.filterMap_eq_map (f := Flush.packet)) flushes
  refine ⟨Run.after_invariant Journal.Faithful.step h.faithful hj,
    Run.after_invariant Journal.Entered.step h.entered hj, ?_, ?_, ?_⟩
  · show r.mCastGrp = idToMulticast j.server.id
    rw [hsame]
    exact h.group
  · show packets (r.written ++ _) = j.server.sent.map Flush.packet
    rw [packets_append, hpackets, hsent, List.map_append, h.sent]
  · intro o ho
    rcases List.mem_append.mp ho with hold | hnew
    · exact h.addressed o hold
    · obtain ⟨f, hf, rfl⟩ := List.mem_map.mp hnew
      have hf := hsrc f hf
      show f.packet.srcId ≠ 0 ∧ r.mCastGrp = idToMulticast f.packet.srcId
      rw [hf]
      exact ⟨hid, h.group⟩

/-- The ways a step can go. -/
theorem step_cases (h : step r e = some r') :
    (∃ bb, e = .arrive bb ∧ r' = { r with inQ := r.inQ ++ [bb] }) ∨
    (e = .request ∧ r.place = .request
      ∧ r' = { r.requestIdFromTracker with place := outer updatePeriod }) ∨
    (∃ garbage command found i t, e = .commands garbage command found ∧ r.place = .commands i
      ∧ r.processCommands garbage command found = some t
      ∧ r' = { t with place := inner i t.commandPeriod }) ∨
    (∃ isWaitForInput calls i j t, e = .io isWaitForInput calls ∧ r.place = .io i j
      ∧ r.performIO isWaitForInput calls = some t ∧ r' = { t with place := inner i (j - 1) }) ∨
    (∃ period, e = .adjust period ∧ r.place = .adjust
      ∧ r' = { r with commandPeriod := adjusted period, place := .request }) := by
  unfold step at h
  split at h
  case h_1 _ bb =>
    cases h
    exact .inl ⟨bb, rfl, rfl⟩
  case h_2 hplace =>
    cases h
    exact .inr (.inl ⟨rfl, hplace, rfl⟩)
  case h_3 garbage command found i hplace =>
    obtain ⟨t, ht, rfl⟩ := Option.map_eq_some_iff.mp h
    exact .inr (.inr (.inl ⟨garbage, command, found, i, t, rfl, hplace, ht, rfl⟩))
  case h_4 isWaitForInput calls i j hplace =>
    obtain ⟨t, ht, rfl⟩ := Option.map_eq_some_iff.mp h
    exact .inr (.inr (.inr (.inl ⟨isWaitForInput, calls, i, j, t, rfl, hplace, ht, rfl⟩)))
  case h_5 period hplace =>
    cases h
    exact .inr (.inr (.inr (.inr ⟨period, rfl, hplace, rfl⟩)))
  case h_6 => cases h

theorem inv_step (r : ServerRun) (e : ServerEvent) (r' : ServerRun) (h : r.Inv)
    (hs : step r e = some r') : r'.Inv := by
  obtain ⟨bb, rfl, rfl⟩ | ⟨rfl, -, rfl⟩ | ⟨garbage, command, found, i, t, rfl, -, ht, rfl⟩ |
    ⟨isWaitForInput, calls, i, j, t, rfl, -, ht, rfl⟩ | ⟨period, rfl, -, rfl⟩ := step_cases hs
  · exact h.at ..
  · have hwrite : r.requestIdFromTracker.Inv := h.write rfl (List.forall_mem_singleton.mpr trivial)
    exact hwrite.at ..
  · exact (h.answered (answered_processCommands ht)).at ..
  · obtain ⟨-, rfl | ⟨hid, hread⟩⟩ := performIO_cases ht
    · exact h.input.at ..
    · rw [← input_id] at hid
      exact (h.input.read hid hread).at ..
  · exact h.at ..

/-! ## What goes in and what comes out -/

/-- The packets that came in: those given to the cluster, and those that wait. -/
def content (r : ServerRun) : List TimeBuffer := r.given ++ r.inQ

/-- The calls of `Server::write`, first to last. -/
def made (r : ServerRun) : List Call := r.journal.attempts.map Attempt.call

theorem Answered.frame (h : r.Answered r') :
    r'.commandPeriod = r.commandPeriod ∧ r'.content = r.content ∧ r'.made = r.made := by
  obtain ⟨id, group, answers, rfl, -, -⟩ := h
  exact ⟨rfl, rfl, rfl⟩

theorem input_frame (r : ServerRun) :
    r.input.commandPeriod = r.commandPeriod ∧ r.input.content = r.content
      ∧ r.input.made = r.made := by
  obtain ⟨-, h⟩ | ⟨bb, inQ, hinQ, h⟩ := r.input_cases <;> rw [h]
  · exact ⟨rfl, rfl, rfl⟩
  · refine ⟨rfl, ?_, rfl⟩
    rw [content, content, hinQ]
    exact (List.append_cons ..).symm

theorem read_frame {calls : List Call} (h : r.read calls = some r') :
    r'.commandPeriod = r.commandPeriod ∧ r'.content = r.content ∧ r'.given = r.given
      ∧ r'.made = r.made ++ calls := by
  obtain ⟨j, flushes, hj, -, rfl⟩ := read_cases h
  obtain ⟨j', hj', -, hcalls⟩ := Journal.after_eq_some r.journal calls
  cases hj.symm.trans hj'
  exact ⟨rfl, rfl, rfl, hcalls⟩

theorem performIO_frame {isWaitForInput : Bool} {calls : List Call}
    (h : r.performIO isWaitForInput calls = some r') :
    r'.commandPeriod = r.commandPeriod ∧ r'.content = r.content ∧ r'.given = r.input.given
      ∧ (r'.made = r.made ∨ r'.made = r.made ++ calls) := by
  obtain ⟨hperiod, hcontent, hmade⟩ := r.input_frame
  obtain ⟨-, rfl | ⟨-, hread⟩⟩ := performIO_cases h
  · exact ⟨hperiod, hcontent, rfl, .inl hmade⟩
  · obtain ⟨hp, hc, hg, hm⟩ := read_frame hread
    rw [hperiod] at hp
    rw [hcontent] at hc
    rw [hmade] at hm
    exact ⟨hp, hc, hg, .inr hm⟩

/-- Packets are put behind those that came before them. -/
theorem content_step (r : ServerRun) (e : ServerEvent) (r' : ServerRun)
    (hs : step r e = some r') : r'.content = r.content ++ e.arrivals := by
  obtain ⟨bb, rfl, rfl⟩ | ⟨rfl, -, rfl⟩ | ⟨garbage, command, found, i, t, rfl, -, ht, rfl⟩ |
    ⟨isWaitForInput, calls, i, j, t, rfl, -, ht, rfl⟩ | ⟨period, rfl, -, rfl⟩ := step_cases hs
  · exact (List.append_assoc _ _ _).symm
  · exact (List.append_nil _).symm
  · obtain ⟨-, hcontent, -⟩ := (answered_processCommands ht).frame
    exact hcontent.trans (List.append_nil _).symm
  · obtain ⟨-, hcontent, -⟩ := performIO_frame ht
    exact hcontent.trans (List.append_nil _).symm
  · exact (List.append_nil _).symm

/-- The impulses of a turn are all written, or the cluster is not asked. -/
theorem made_step (hs : step r e = some r') :
    r'.made = r.made ∨ r'.made = r.made ++ e.impulses := by
  obtain ⟨bb, rfl, rfl⟩ | ⟨rfl, -, rfl⟩ | ⟨garbage, command, found, i, t, rfl, -, ht, rfl⟩ |
    ⟨isWaitForInput, calls, i, j, t, rfl, -, ht, rfl⟩ | ⟨period, rfl, -, rfl⟩ := step_cases hs
  · exact .inl rfl
  · exact .inl rfl
  · obtain ⟨-, -, hmade⟩ := (answered_processCommands ht).frame
    exact .inl hmade
  · obtain ⟨-, -, -, hmade⟩ := performIO_frame ht
    exact hmade
  · exact .inl rfl

theorem made_run (h : Run.after step r events = some r') :
    ∃ calls, r'.made = r.made ++ calls ∧ calls.Sublist (events.flatMap ServerEvent.impulses) := by
  induction events generalizing r with
  | nil =>
      cases h
      exact ⟨[], (List.append_nil _).symm, List.nil_sublist _⟩
  | cons e events ih =>
      obtain ⟨s, hs, hrest⟩ := Option.bind_eq_some_iff.mp h
      obtain ⟨calls, hmade, hsub⟩ := ih hrest
      rw [List.flatMap_cons]
      rcases made_step hs with hsame | hnew
      · rw [hsame] at hmade
        exact ⟨calls, hmade, hsub.trans (List.sublist_append_right ..)⟩
      · rw [hnew, List.append_assoc] at hmade
        exact ⟨e.impulses ++ calls, hmade, hsub.append_left e.impulses⟩

theorem content_run (h : Run.after step (start id) events = some r) :
    r.given ++ r.inQ = events.flatMap ServerEvent.arrivals := by
  have hstep : ∀ s e t, True → step s e = some t →
      [] ++ (t.given ++ t.inQ) = s.given ++ s.inQ ++ e.arrivals :=
    fun s e t _ hs => content_step s e t hs
  have hcontent := Run.after_conserved (fun _ _ _ _ _ => trivial) hstep trivial h
  rw [List.flatMap_eq_nil_iff.mpr fun _ _ => rfl] at hcontent
  exact hcontent

/-- Whatever commands come in between, a server sends its packets to the group of
the ID that is in them, never under the ID 0 and never empty, with the time of a call
in network time; what its cluster's calls enter leaves in the order of the calls, or
is in the buffer in use; and its cluster is given the packets of `inQ` in the order
in which they came. -/
theorem sends_as_itself (id : ClusterID) (events : List ServerEvent) (r : ServerRun)
    (h : Run.after step (start id) events = some r) :
    r.mCastGrp = idToMulticast r.id
      ∧ (∀ group packet, .multicast group packet ∈ r.written →
        packet.srcId ≠ 0 ∧ group = idToMulticast packet.srcId
          ∧ 1 ≤ packet.count ∧ packet.count ≤ maxOutputNodes
          ∧ ∃ a ∈ r.journal.attempts, ∃ b ∈ r.journal.attempts,
            packet.time = TimeSync.toNetwork a.call.delta b.call.time)
      ∧ (packets r.written).flatMap TimeBuffer.entries ++ r.journal.server.timeBuff.entries
        = r.journal.taken.map Attempt.entry
      ∧ (r.journal.attempts.map Attempt.call).Sublist (events.flatMap ServerEvent.impulses)
      ∧ r.given ++ r.inQ = events.flatMap ServerEvent.arrivals := by
  have hinv := Run.after_invariant inv_step (inv_start id) h
  refine ⟨hinv.group, ?_, ?_, ?_, content_run h⟩
  · intro group packet hmem
    obtain ⟨hsrc, hgroup⟩ := hinv.addressed _ hmem
    have hpacket : packet ∈ packets r.written := List.mem_filterMap.mpr ⟨_, hmem, rfl⟩
    rw [hinv.sent] at hpacket
    obtain ⟨f, hf, rfl⟩ := List.mem_map.mp hpacket
    have hwf := hinv.faithful.wf.sent f hf
    obtain ⟨⟨a, ha, hcall⟩, b, hb, htime⟩ := hinv.faithful.sent f hf
    rw [hwf.packet_count, hwf.packet_time, htime, hcall]
    exact ⟨hsrc, hgroup, hwf.count_pos, hwf.count_le, a, ha, b, hb, rfl⟩
  · rw [hinv.sent, List.flatMap_map]
    exact hinv.entered
  · obtain ⟨calls, hmade, hsub⟩ := made_run h
    rw [show r.journal.attempts.map Attempt.call = calls from hmade]
    exact hsub

/-- A server without an ID reads `RUN 7`, and has three impulses: the first two leave
in a packet of the cluster 7. -/
def runSeven : List ServerEvent :=
  [.request, .commands 0 (fun _ => []) (some (⟨1, 2⟩, [82, 85, 78, 32, 55])), .io false threeCalls]

theorem sends_as_itself_runSeven : ∃ r, Run.after step (start 0) runSeven = some r
    ∧ r.mCastGrp = idToMulticast 7 ∧ (packets r.written).map TimeBuffer.srcId = [7]
    ∧ (packets r.written).flatMap TimeBuffer.entries ++ r.journal.server.timeBuff.entries
        = r.journal.taken.map Attempt.entry := by
  have hrun : ∃ r, Run.after step (start 0) runSeven = some r
      ∧ r.id = 7 ∧ (packets r.written).map TimeBuffer.srcId = [7] := ⟨_, rfl, rfl, rfl⟩
  obtain ⟨r, hr, hid, hsrc⟩ := hrun
  obtain ⟨hgroup, -, hentries, -, -⟩ := sends_as_itself 0 _ r hr
  exact ⟨r, hr, hid ▸ hgroup, hsrc, hentries⟩

/-! ## Rounds -/

/-- `i` turns of the outer loop. -/
def turns (period i : Nat) : List ServerCall :=
  (List.replicate i (.commands :: List.replicate period .io)).flatten

/-- A round. -/
def round (period : Nat) : List ServerCall :=
  .request :: (turns period updatePeriod ++ [.adjust])

/-- What is left of a round. -/
def remaining (period : Nat) : ServerAt → List ServerCall
  | .request => round period
  | .commands i => turns period i ++ [.adjust]
  | .io i j => List.replicate j .io ++ (turns period (i - 1) ++ [.adjust])
  | .adjust => [.adjust]

/-- The round that an event begins. -/
def rounds : ServerEvent → List ServerCall
  | .arrive _ => []
  | .request => []
  | .commands _ _ _ => []
  | .io _ _ => []
  | .adjust period => round (adjusted period)

theorem remaining_outer (period i : Nat) :
    remaining period (outer i) = turns period i ++ [.adjust] := by
  cases i with
  | zero => rfl
  | succ i => rfl

theorem remaining_inner (period i j : Nat) : remaining period (inner i j)
    = List.replicate j .io ++ (turns period (i - 1) ++ [.adjust]) := by
  cases j with
  | zero => exact remaining_outer period (i - 1)
  | succ j => rfl

/-- The loops are in their bounds. -/
structure Looping (r : ServerRun) : Prop where
  period : 1 ≤ r.commandPeriod
  commands : ∀ i, r.place = .commands i → 1 ≤ i
  io : ∀ i j, r.place = .io i j → 1 ≤ j

theorem looping_start (id : ClusterID) : (start id).Looping where
  period := Nat.le_of_ble_eq_true rfl
  commands := fun _ h => ServerAt.noConfusion h
  io := fun _ _ h => ServerAt.noConfusion h

theorem le_of_outer {i k : Nat} (h : outer i = .commands k) : 1 ≤ k := by
  cases i with
  | zero => cases h
  | succ i =>
      cases h
      exact Nat.le_add_left 1 i

theorem outer_ne_io {i k l : Nat} : outer i ≠ .io k l := by
  cases i with
  | zero => exact fun h => ServerAt.noConfusion h
  | succ i => exact fun h => ServerAt.noConfusion h

/-- At the heads of the loops. -/
theorem looping_inner {i j : Nat} (hperiod : 1 ≤ r.commandPeriod) :
    ({ r with place := inner i j } : ServerRun).Looping := by
  cases j with
  | zero => exact ⟨hperiod, fun k => le_of_outer, fun k l h => absurd h outer_ne_io⟩
  | succ j =>
      refine ⟨hperiod, fun k h => ServerAt.noConfusion h, ?_⟩
      intro k l h
      cases h
      exact Nat.le_add_left 1 j

theorem looping_step (r : ServerRun) (e : ServerEvent) (r' : ServerRun) (h : r.Looping)
    (hs : step r e = some r') : r'.Looping := by
  obtain ⟨bb, rfl, rfl⟩ | ⟨rfl, -, rfl⟩ | ⟨garbage, command, found, i, t, rfl, -, ht, rfl⟩ |
    ⟨isWaitForInput, calls, i, j, t, rfl, -, ht, rfl⟩ | ⟨period, rfl, -, rfl⟩ := step_cases hs
  · exact ⟨h.period, h.commands, h.io⟩
  · exact looping_inner (r := r.requestIdFromTracker) (i := updatePeriod + 1) (j := 0) h.period
  · obtain ⟨hperiod, -, -⟩ := (answered_processCommands ht).frame
    exact looping_inner (hperiod ▸ h.period)
  · obtain ⟨hperiod, -, -⟩ := performIO_frame ht
    exact looping_inner (hperiod ▸ h.period)
  · refine ⟨?_, fun k hat => ServerAt.noConfusion hat, fun k l hat => ServerAt.noConfusion hat⟩
    show 1 ≤ adjusted period
    rw [adjusted]
    split <;> omega

/-- A step takes the call it makes off the round, and the last one begins the next. -/
theorem remaining_step (r : ServerRun) (e : ServerEvent) (r' : ServerRun) (h : r.Looping)
    (hs : step r e = some r') : e.calls ++ remaining r'.commandPeriod r'.place
      = remaining r.commandPeriod r.place ++ rounds e := by
  obtain ⟨bb, rfl, rfl⟩ | ⟨rfl, hplace, rfl⟩ |
    ⟨garbage, command, found, i, t, rfl, hplace, ht, rfl⟩ |
    ⟨isWaitForInput, calls, i, j, t, rfl, hplace, ht, rfl⟩ | ⟨period, rfl, hplace, rfl⟩ :=
      step_cases hs
  · exact (List.append_nil _).symm
  · rw [hplace, rounds, List.append_nil]
    rfl
  · obtain ⟨hperiod, -, -⟩ := (answered_processCommands ht).frame
    obtain ⟨k, rfl⟩ := Nat.exists_eq_add_of_le' (h.commands i hplace)
    show [.commands] ++ remaining t.commandPeriod (inner (k + 1) t.commandPeriod) = _
    rw [remaining_inner, hperiod, hplace, rounds, List.append_nil, remaining, turns,
      turns, List.replicate_succ, List.flatten_cons]
    simp only [Nat.add_sub_cancel, List.cons_append, List.nil_append, List.append_assoc]
  · obtain ⟨hperiod, -, -⟩ := performIO_frame ht
    obtain ⟨k, rfl⟩ := Nat.exists_eq_add_of_le' (h.io i j hplace)
    show [.io] ++ remaining t.commandPeriod (inner i (k + 1 - 1)) = _
    rw [remaining_inner, hperiod, hplace, rounds, List.append_nil, remaining,
      List.replicate_succ]
    rfl
  · rw [hplace]
    rfl

theorem rounds_after (h : Run.after step (start id) events = some r) :
    events.flatMap ServerEvent.calls ++ remaining r.commandPeriod r.place
      = round 100 ++ events.flatMap rounds :=
  Run.after_conserved looping_step remaining_step (looping_start id) h

theorem count_turns (period i : Nat) : (turns period i).count .commands = i
    ∧ (turns period i).count .request = 0 ∧ (turns period i).count .adjust = 0 := by
  induction i with
  | zero => exact ⟨rfl, rfl, rfl⟩
  | succ i ih =>
      obtain ⟨hcommands, hrequest, hadjust⟩ := ih
      simp only [turns, List.replicate_succ, List.flatten_cons, List.count_append, List.count_cons,
        List.count_replicate] at hcommands hrequest hadjust ⊢
      rw [hcommands, hrequest, hadjust]
      exact ⟨Nat.add_comm 1 i, rfl, rfl⟩

theorem count_round (period : Nat) : (round period).count .commands = updatePeriod
    ∧ (round period).count .request = 1 ∧ (round period).count .adjust = 1 := by
  obtain ⟨hcommands, hrequest, hadjust⟩ := count_turns period updatePeriod
  simp only [round, List.count_cons, List.count_append, hcommands, hrequest, hadjust]
  exact ⟨rfl, rfl, rfl⟩

/-- Every round that is begun looks `updatePeriod` times for a command. -/
theorem count_rounds (e : ServerEvent) :
    (rounds e).count .commands = updatePeriod * e.calls.count .adjust
      ∧ (rounds e).count .request = e.calls.count .adjust := by
  cases e with
  | adjust period =>
      obtain ⟨hcommands, hrequest, -⟩ := count_round (adjusted period)
      exact ⟨hcommands, hrequest⟩
  | arrive bb => exact ⟨rfl, rfl⟩
  | request => exact ⟨rfl, rfl⟩
  | commands garbage command found => exact ⟨rfl, rfl⟩
  | io isWaitForInput calls => exact ⟨rfl, rfl⟩

theorem count_rounds_begun (events : List ServerEvent) :
    (events.flatMap rounds).count .commands
        = updatePeriod * (events.flatMap ServerEvent.calls).count .adjust
      ∧ (events.flatMap rounds).count .request
        = (events.flatMap ServerEvent.calls).count .adjust := by
  induction events with
  | nil => exact ⟨rfl, rfl⟩
  | cons e events ih =>
      obtain ⟨hcommands, hrequest⟩ := ih
      obtain ⟨hc, hr⟩ := count_rounds e
      rw [List.flatMap_cons, List.flatMap_cons, List.count_append, List.count_append,
        List.count_append, hcommands, hrequest, hc, hr, Nat.mul_add]
      exact ⟨rfl, rfl⟩

/-- Whatever happens, what a server has done is one round after the other, each with
the period that the one before ended with, but for what is left of the last one.  So
whenever it tells the tracker its ID it has looked for a command `updatePeriod` times
as often as it has told the ID before. -/
theorem does_rounds (id : ClusterID) (events : List ServerEvent) (r : ServerRun)
    (h : Run.after step (start id) events = some r) :
    events.flatMap ServerEvent.calls ++ remaining r.commandPeriod r.place
        = round 100 ++ events.flatMap rounds
      ∧ (r.place = .request → (events.flatMap ServerEvent.calls).count .commands
        = updatePeriod * (events.flatMap ServerEvent.calls).count .request) := by
  have hrounds := rounds_after h
  refine ⟨hrounds, ?_⟩
  intro hplace
  obtain ⟨hcommands, hrequest⟩ := count_rounds_begun events
  obtain ⟨hc, hr, -⟩ := count_round 100
  obtain ⟨hc', hr', -⟩ := count_round r.commandPeriod
  have hallCommands := congrArg (List.count .commands) hrounds
  have hallRequests := congrArg (List.count .request) hrounds
  rw [hplace, remaining, List.count_append, List.count_append] at hallCommands hallRequests
  have hsame : (events.flatMap ServerEvent.calls).count .request
      = (events.flatMap ServerEvent.calls).count .adjust := by omega
  rw [hsame]
  omega

theorem does_rounds_runSeven : ∃ r, Run.after step (start 0) runSeven = some r
    ∧ runSeven.flatMap ServerEvent.calls ++ remaining r.commandPeriod r.place
      = round 100 ++ runSeven.flatMap rounds := by
  have hrun : ∃ r, Run.after step (start 0) runSeven = some r := ⟨_, rfl⟩
  obtain ⟨r, hr⟩ := hrun
  exact ⟨r, hr, (does_rounds 0 runSeven r hr).1⟩

/-! ## Libraries that wait for input -/

/-- A look for a command that no `performIO` has followed yet. -/
def owed : ServerAt → Nat
  | .request => 0
  | .commands _ => 0
  | .io _ _ => 1
  | .adjust => 0

theorem owed_le (place : ServerAt) : owed place ≤ 1 := by
  cases place with
  | io i j => exact Nat.le_refl 1
  | request => exact Nat.zero_le 1
  | commands i => exact Nat.zero_le 1
  | adjust => exact Nat.zero_le 1

theorem owed_step (h : r.Looping) (hs : step r e = some r') :
    e.calls.count .commands + owed r.place ≤ e.calls.count .io + owed r'.place := by
  obtain ⟨bb, rfl, rfl⟩ | ⟨rfl, hplace, rfl⟩ |
    ⟨garbage, command, found, i, t, rfl, hplace, ht, rfl⟩ |
    ⟨isWaitForInput, calls, i, j, t, rfl, hplace, ht, rfl⟩ | ⟨period, rfl, hplace, rfl⟩ :=
      step_cases hs
  · exact Nat.le_refl _
  · rw [hplace]
    exact Nat.zero_le _
  · obtain ⟨hperiod, -, -⟩ := (answered_processCommands ht).frame
    obtain ⟨k, hk⟩ := Nat.exists_eq_add_of_le' h.period
    show _ ≤ _ + owed (inner i t.commandPeriod)
    rw [hplace, hperiod, hk]
    exact Nat.le_refl 1
  · rw [hplace]
    exact Nat.le_add_right 1 _
  · rw [hplace]
    exact Nat.zero_le _

theorem owed_run (hr : r.Looping) (h : Run.after step r events = some r') :
    (events.flatMap ServerEvent.calls).count .commands + owed r.place
      ≤ (events.flatMap ServerEvent.calls).count .io + owed r'.place := by
  induction events generalizing r with
  | nil =>
      cases h
      exact Nat.le_refl _
  | cons e events ih =>
      obtain ⟨s, hs, hrest⟩ := Option.bind_eq_some_iff.mp h
      have hone := owed_step hr hs
      have hall := ih (looping_step r e s hr hs) hrest
      rw [List.flatMap_cons, List.count_append, List.count_append]
      omega

/-- A turn of `performIO` that waits takes a packet. -/
theorem given_step (hs : step r e = some r')
    (hwait : ∀ isWaitForInput calls, e = .io isWaitForInput calls → isWaitForInput = true) :
    r'.given.length = r.given.length + e.calls.count .io := by
  obtain ⟨bb, rfl, rfl⟩ | ⟨rfl, -, rfl⟩ | ⟨garbage, command, found, i, t, rfl, -, ht, rfl⟩ |
    ⟨isWaitForInput, calls, i, j, t, rfl, -, ht, rfl⟩ | ⟨period, rfl, -, rfl⟩ := step_cases hs
  · rfl
  · rfl
  · obtain ⟨id, group, answers, rfl, -, -⟩ := answered_processCommands ht
    rfl
  · obtain ⟨hruns, -⟩ := performIO_cases ht
    obtain ⟨-, -, hgiven, -⟩ := performIO_frame ht
    show t.given.length = _
    obtain ⟨hempty, -⟩ | ⟨bb, inQ, -, hinput⟩ := r.input_cases
    · exact absurd hempty (hruns (hwait _ _ rfl))
    · rw [hgiven, hinput]
      exact List.length_append
  · rfl

theorem given_run (h : Run.after step r events = some r')
    (hwait : ∀ isWaitForInput calls, .io isWaitForInput calls ∈ events → isWaitForInput = true) :
    r'.given.length = r.given.length + (events.flatMap ServerEvent.calls).count .io := by
  induction events generalizing r with
  | nil =>
      cases h
      rfl
  | cons e events ih =>
      obtain ⟨s, hs, hrest⟩ := Option.bind_eq_some_iff.mp h
      have hone := given_step hs fun w c he => hwait w c (he ▸ List.mem_cons_self)
      have hall := ih hrest fun w c hmem => hwait w c (List.mem_cons_of_mem e hmem)
      rw [List.flatMap_cons, List.count_append, hall, hone, Nat.add_assoc]

/-- A server whose library waits for input looks for a command at most once more
often than packets come in, and for the second, and the second ID request, only
after a hundred packets. -/
theorem waits_before_commands (id : ClusterID) (events : List ServerEvent) (r : ServerRun)
    (h : Run.after step (start id) events = some r)
    (hwait : ∀ isWaitForInput calls, .io isWaitForInput calls ∈ events → isWaitForInput = true) :
    (events.flatMap ServerEvent.calls).count .commands
        ≤ (events.flatMap ServerEvent.arrivals).length + 1
      ∧ ((events.flatMap ServerEvent.arrivals).length < 100 →
        (events.flatMap ServerEvent.calls).count .commands ≤ 1
          ∧ (events.flatMap ServerEvent.calls).count .request ≤ 1) := by
  have hcontent := content_run h
  have hio : (events.flatMap ServerEvent.calls).count .io
      ≤ (events.flatMap ServerEvent.arrivals).length := by
    have hgiven := given_run h hwait
    have hlength := congrArg List.length hcontent
    rw [List.length_append] at hlength
    have hzero : (start id).given.length = 0 := rfl
    omega
  constructor
  · have howed := owed_run (looping_start id) h
    have hone : owed r.place ≤ 1 := owed_le r.place
    have hzero : owed (start id).place = 0 := rfl
    omega
  · intro hfew
    -- the first hundred turns come before the second look
    let first : List ServerCall := .request :: .commands :: List.replicate 100 .io
    have hfirst : first <+: round 100 ++ events.flatMap rounds :=
      ⟨turns 100 119 ++ [.adjust] ++ events.flatMap rounds, rfl⟩
    have hdone : events.flatMap ServerEvent.calls <+: round 100 ++ events.flatMap rounds :=
      ⟨_, rounds_after h⟩
    rcases List.prefix_or_prefix_of_prefix hdone hfirst with hle | hge
    · exact ⟨hle.sublist.count_le .commands, hle.sublist.count_le .request⟩
    · have hcount := hge.sublist.count_le .io
      have hhundred : first.count .io = 100 := rfl
      omega

/-- A packet comes in, and one turn of `performIO` takes it. -/
theorem waits_before_commands_onePacket : ∃ r, Run.after step (start 7)
      [.arrive .new, .request, .commands 0 (fun _ => []) none, .io true []] = some r
    ∧ ([.arrive .new, .request, .commands 0 (fun _ => []) none, .io true []].flatMap
        ServerEvent.calls).count .commands ≤ 1 := by
  have hrun : ∃ r, Run.after step (start 7)
      [.arrive .new, .request, .commands 0 (fun _ => []) none, .io true []] = some r := ⟨_, rfl⟩
  obtain ⟨r, hr⟩ := hrun
  have hwait : ∀ isWaitForInput calls, ServerEvent.io isWaitForInput calls
      ∈ [.arrive .new, .request, .commands 0 (fun _ => []) none, .io true []] →
        isWaitForInput = true := by
    intro isWaitForInput calls hmem
    simp at hmem
    exact hmem.1
  exact ⟨r, hr, ((waits_before_commands 7 _ r hr hwait).2 (by decide)).1⟩

end ServerRun

end DistributAr
