/-
# `DistributAr.World` — the client's environment: tracker and clusters

What the client talks to when no datagram is lost or delayed.  The tracker
answers what comes to its address, a server what comes to its own.  The servers
also register with the tracker again from time to time, and that is where the
order of things is open: a scenario says who registers between one step of the
client and the next.
-/
import DistributAr.Commander
import DistributAr.ServerCommand

namespace DistributAr

open Lib

/-- The circumstances of a run of the client. -/
structure Scenario where
  trackerAddr : SockAddr
  /-- `main` does not start without a port. -/
  port_ne_zero : trackerAddr.sin_port ≠ 0
  /-- The client, as the tracker sees it. -/
  client : SockAddr
  /-- The server at an address, as the tracker sees it. -/
  source : SockAddr → SockAddr
  /-- `cluster->command` -/
  command : List Char → List Char
  /-- What the tracker finds when it handles a datagram of the client. -/
  turn : Nat → Turn
  /-- Who registers after which step of the client. -/
  registers : Nat → List (SockAddr × Turn)
  localIP : UInt64
  garbage : ClusterID × UInt64 × UInt16

/-- The tracker, the ID of the cluster at each address, if there is one, and the
number of steps the client has made. -/
structure World where
  tracker : Tracker
  ids : SockAddr → Option ClusterID
  tick : Nat

namespace World

variable (sc : Scenario)

/-- A datagram to the tracker and its answer. -/
def ask (w : World) (turn : Turn) (sender : SockAddr) (buff : List Char) : List Char × World :=
  let (tracker, reply) := w.tracker.iteration turn sender buff
  (reply.getD [], { w with tracker := tracker })

/-- A datagram to the server at an address and its answer. -/
def deliver (w : World) (addr : SockAddr) (buff : List Char) : List Char × World :=
  match w.ids addr with
  | none => ([], w)
  | some id =>
      match Server.parseCommand sc.command sc.garbage.1 id buff with
      | none => ([], { w with ids := Function.update w.ids addr none })
      | some (id, reply) => (reply, { w with ids := Function.update w.ids addr (some id) })

/-- A server registers with the tracker, and obeys if it is told to `RUN`. -/
def register (w : World) (addr : SockAddr) (turn : Turn) : World :=
  match w.ids addr with
  | none => w
  | some id =>
      let (reply, w) := w.ask turn (sc.source addr) (Server.requestIdFromTracker id)
      if reply = [] then w
      else
        let (ack, w) := w.deliver sc addr reply
        (w.ask turn (sc.source addr) ack).2

/-- What happens until the next step of the client. -/
def pass (w : World) : World :=
  let w' := (sc.registers w.tick).foldl (fun w r => w.register sc r.1 r.2) w
  { w' with tick := w.tick + 1 }

/-- The environment of the client. -/
def env : Env World where
  exchange w addr cmd :=
    let (reply, w') :=
      if addr = sc.trackerAddr then w.ask (sc.turn w.tick) sc.client cmd
      else w.deliver sc addr cmd
    (reply, w'.pass sc)
  wait w := ([], w.pass sc)
  sleep w := w.pass sc
  localIP := sc.localIP
  garbage _ := sc.garbage

/-- The address at which the client looks for a cluster that the tracker knows at
some address: `replaceLo` takes the tracker's for that of the local host. -/
def reach (addr : SockAddr) : SockAddr :=
  ⟨(Commander.replaceLo (env sc) addr.s_addr.toUInt64
    sc.trackerAddr.s_addr.toUInt64).toUInt32, addr.sin_port⟩

/-- A server that registers keeps its ID, and the tracker has its address under
that ID from now on. -/
theorem register_view {w : World} {addr : SockAddr} {n : ClusterID} (hid : w.ids addr = some n)
    (hn : n ≠ 0) (turn : Turn) :
    (w.register sc addr turn).ids = w.ids
      ∧ (w.register sc addr turn).tracker.view n = some (sc.source addr, turn.now) := by
  have hask : w.ask turn (sc.source addr) (Server.requestIdFromTracker n)
      = ([], { w with tracker := (w.tracker.handleId turn (sc.source addr) n).1 }) := by
    have hsilent : (w.tracker.handleId turn (sc.source addr) n).2 = .silent :=
      Tracker.reply_handleId.trans (if_neg hn)
    rw [ask, Server.requestIdFromTracker, Tracker.iteration_text, Tracker.handle, hsilent]
    rfl
  have hregister : w.register sc addr turn
      = { w with tracker := (w.tracker.handleId turn (sc.source addr) n).1 } := by
    rw [register, hid]
    dsimp only
    rw [hask]
    exact if_pos rfl
  rw [hregister]
  refine ⟨rfl, Tracker.view_eq_some.mpr ⟨?_, ?_⟩⟩
  · show (w.tracker.handleId turn (sc.source addr) n).1.clusters.lookup n = _
    unfold Tracker.handleId
    dsimp only
    rw [if_pos hn]
    exact AList.lookup_insert _
  · show (w.tracker.handleId turn (sc.source addr) n).1.updateTime n = _
    rw [Tracker.updateTime_handleId, Tracker.registeredId, if_pos hn]
    exact Function.update_self ..

/-- The client is pointed to a cluster when the tracker has an entry that is not
too old, and to nothing else. -/
theorem pointed_eq_some {w : World} {n : ClusterID} {addr : SockAddr}
    (h : Commander.pointed (env sc) sc.trackerAddr w n = some addr) :
    ∃ b u, w.tracker.view n = some (b, u) ∧ ¬ u < (sc.turn w.tick).now - envUpdateTime
      ∧ addr = reach sc b := by
  have hreply : ((env sc).exchange w sc.trackerAddr (Command.get n).text).1
      = (w.tracker.handleGet (sc.turn w.tick) n).2.text := by
    simp only [env, if_true, ask, Tracker.iteration_text, getD_sendCommand]
    rfl
  rw [Commander.pointed, hreply, Tracker.handleGet_eq] at h
  cases hview : w.tracker.view n with
  | none =>
      rw [hview] at h
      dsimp only at h
      rw [Commander.readPoint_drop] at h
      cases h
  | some entry =>
      obtain ⟨b, u⟩ := entry
      rw [hview] at h
      dsimp only at h
      by_cases hold : u < (sc.turn w.tick).now - envUpdateTime
      · rw [if_pos hold] at h
        split at h
        · rw [Commander.readPoint_drop] at h
          cases h
        · exact nomatch (Commander.readPoint_nil _ _ _).symm.trans h
      · rw [if_neg hold, Commander.readPoint_text, if_pos rfl] at h
        cases h
        exact ⟨b, u, rfl, hold, rfl⟩

/-! ## Who is there -/

variable {sc} {w : World} {addr : SockAddr} {cmd : List Char}

/-- What is not an `EXIT` ends no server. -/
theorem deliver_isSome (h : (IStream.ofChars cmd).readWord.1.getD [] ≠ "EXIT".toList)
    (b : SockAddr) : ((w.deliver sc addr cmd).2.ids b).isSome = (w.ids b).isSome := by
  rw [deliver]
  cases hid : w.ids addr with
  | none => rfl
  | some id =>
      obtain ⟨⟨id', reply⟩, hparse⟩ := Option.isSome_iff_exists.mp
        (Server.parseCommand_isSome h sc.command sc.garbage.1 id)
      simp only [hparse]
      by_cases hb : b = addr
      · subst hb
        rw [Function.update_self, hid]
        rfl
      · rw [Function.update_of_ne hb]

/-- Nor does a server that registers: the tracker answers with a `RUN`, if at all. -/
theorem register_isSome (turn : Turn) (b : SockAddr) :
    ((w.register sc addr turn).ids b).isSome = (w.ids b).isSome := by
  rw [register]
  cases hid : w.ids addr with
  | none => rfl
  | some id =>
      have hask : w.ask turn (sc.source addr) (Server.requestIdFromTracker id)
          = ((w.tracker.handleId turn (sc.source addr) id).2.text,
            { w with tracker := (w.tracker.handleId turn (sc.source addr) id).1 }) := by
        simp only [ask, Server.requestIdFromTracker, Tracker.iteration_text, Tracker.handle,
          getD_sendCommand]
      dsimp only
      rw [hask, Tracker.reply_handleId]
      by_cases hnew : id = 0
      · rw [if_pos hnew]
        dsimp only
        split
        · rfl
        · refine deliver_isSome ?_ b
          rw [(Reply.read_run _).1]
          decide
      · rw [if_neg hnew]
        rfl

theorem pass_isSome (b : SockAddr) : ((w.pass sc).ids b).isSome = (w.ids b).isSome := by
  have hall : ∀ (rs : List (SockAddr × Turn)) (v : World),
      ((rs.foldl (fun v r => v.register sc r.1 r.2) v).ids b).isSome = (v.ids b).isSome := by
    intro rs
    induction rs with
    | nil => exact fun _ => rfl
    | cons r rs ih => exact fun v => (ih _).trans (register_isSome r.2 b)
  exact hall (sc.registers w.tick) w

end World

/-! ## Two clusters -/

/-- The clusters 1 and 2 and the time server are registered. -/
def twoClusters : World where
  tracker := {
    clusters := ((AList.insert 2 ⟨0x0200000A, 5000⟩ ∅).insert 1 ⟨0x0100000A, 5000⟩).insert
      timeServerId ⟨0x0300000A, 5000⟩
    updateTime := fun _ => 0
    next := reservedClusterId + 1 }
  ids := fun addr =>
    if addr = ⟨0x0100000A, 5000⟩ then some 1
    else if addr = ⟨0x0200000A, 5000⟩ then some 2
    else none
  tick := 0

/-- All addresses are what they seem, and no time passes. -/
def Scenario.plain (registers : Nat → List (SockAddr × Turn)) : Scenario where
  trackerAddr := ⟨0x0900000A, 7000⟩
  port_ne_zero := by decide
  client := ⟨0x0800000A, 6000⟩
  source := id
  command := fun _ => "ACK".toList
  turn := fun _ => ⟨0, .kept, 0⟩
  registers := registers
  localIP := 0
  garbage := (0, 0, 0)

/-- No cluster registers before the client is done. -/
def Scenario.late : Scenario := .plain fun _ => []

end DistributAr
