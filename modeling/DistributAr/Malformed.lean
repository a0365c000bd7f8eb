/-
# `DistributAr.Malformed` — commands with something else than a number

Nobody looks at the stream after a number was read.  Where there is none, or one
out of range, the command goes on with what is left in the variable: what it held
before, 0, or a number at the end of its range.

| command     | changes nothing if what is left                                        |
|-------------|------------------------------------------------------------------------|
| `CONNECT`   | is a cluster that is subscribed to already                             |
| `DROP`      | is never so                                                            |
| `RUN`       | is the ID of the cluster                                               |
| `ID`        | is 0 or the ID of the sender, which registered at the same instant     |
| `GET`       | is reserved, or not registered, or registered not too long ago         |
| `T`         | is a reading within 2 µs of what the offset says                       |
-/
import DistributAr.Answers
import DistributAr.Offset
import DistributAr.Retransmit
import DistributAr.Sync

namespace DistributAr

open Lib

/-- The ID that is left in a variable that held `garbage`. -/
def leftId (garbage : ClusterID) (text : List Char) : ClusterID :=
  ((IStream.leftUnsigned 32 (IStream.afterWord text)).map UInt32.ofNat).getD garbage

/-- How such a text is read. -/
theorem read_malformed (garbage : ClusterID) {word text : List Char} (hne : word ≠ [])
    (hword : IStream.firstWord text = word)
    (hmal : IStream.Malformed 0 (2 ^ 32) (IStream.afterWord text)) :
    (IStream.ofChars text).readWord.1 = some word
      ∧ (((IStream.ofChars text).readWord.2.readUnsigned 32).1.map UInt32.ofNat).getD garbage
        = leftId garbage text := by
  rw [IStream.readWord_firstWord (hword ▸ hne), hword]
  refine ⟨rfl, ?_⟩
  rw [leftId, ← IStream.readUnsigned_malformed hmal]

/-! ## A server -/

namespace LocalNetwork

variable {os : Bool} {s : LocalNetwork} {i : Nat} {server : LocalServer} {remote n : ClusterID}

/-- A `CONNECT` that changes nothing. -/
theorem connect_agrees_iff (hserver : s.servers[i]? = some server) :
    (∃ t, s.obey os i (.connect remote) = some t ∧ s.Agrees t)
      ↔ remote ∈ s.subscriptions.values server.id := by
  rw [obey, hserver, Option.map_some]
  constructor
  · rintro ⟨t, ht, hagrees⟩
    cases ht
    rw [← hagrees.subscriptions]
    exact mem_subscribe.mpr (.inr ⟨rfl, rfl⟩)
  · intro hmem
    have hsame : s.subscribe os server.id remote = { s with dirty := true } := if_pos hmem
    exact ⟨_, congrArg some hsame, rfl, rfl, rfl⟩

/-- A `DROP` takes a subscription away, or goes wrong. -/
theorem not_drop_agrees (hserver : s.servers[i]? = some server) :
    ¬ ∃ t, s.obey os i (.drop remote) = some t ∧ s.Agrees t := by
  rw [obey, hserver, Option.bind_some]
  rintro ⟨t, ht, hagrees⟩
  obtain ⟨hmem, -, -, hsub⟩ := unsubscribe_eq_some ht
  have herase : (s.subscriptions.values server.id).erase remote
      = s.subscriptions.values server.id :=
    calc (s.subscriptions.values server.id).erase remote
        = t.subscriptions.values server.id := by rw [hsub, Multimap.values_assign, if_pos rfl]
      _ = s.subscriptions.values server.id := by rw [hagrees.subscriptions]
  have hlength := List.length_erase_of_mem hmem
  have hpos := List.length_pos_of_mem hmem
  rw [herase] at hlength
  omega

/-- A `RUN` that changes nothing. -/
theorem run_agrees_iff (hserver : s.servers[i]? = some server) :
    (∃ t, s.obey os i (.run n) = some t ∧ s.Agrees t) ↔ server.id = n := by
  rw [obey, hserver, Option.map_some]
  constructor
  · rintro ⟨t, ht, hagrees⟩
    cases ht
    by_contra hne
    obtain ⟨hlt, -⟩ := List.getElem?_eq_some_iff.mp hserver
    have hset := hagrees.servers
    rw [run_servers, if_neg hne] at hset
    rw [← hset, List.getElem?_set_self hlt] at hserver
    cases hserver
    exact hne rfl
  · intro hid
    have hsame : s.run i server.id n = s := if_neg fun h => h hid
    exact ⟨_, congrArg some hsame, .refl s⟩

end LocalNetwork

/-- A server in its process, and what a command meets there. -/
structure ServerTurn where
  command : List Char → List Char
  garbage : ClusterID
  os : Bool
  network : LocalNetwork
  position : Fin network.servers.length

namespace ServerTurn

/-- The server. -/
def server (p : ServerTurn) : LocalServer := p.network.servers[p.position]

/-- The subscriptions, the groups and the servers are as they were. -/
def Keeps (p : ServerTurn) (text : List Char) : Prop :=
  ∃ t reply, p.network.parseCommand p.command p.garbage p.os p.position text = some (t, reply)
    ∧ p.network.Agrees t

variable {p : ServerTurn} {text : List Char}

theorem getElem?_server : p.network.servers[(p.position : Nat)]? = some p.server :=
  List.getElem?_eq_getElem p.position.isLt

/-- A command without a number is obeyed all the same. -/
theorem keeps_iff_obey (ins : Instruction) (hword : IStream.firstWord text = ins.word)
    (hmal : IStream.Malformed 0 (2 ^ 32) (IStream.afterWord text))
    (hparam : leftId p.garbage text = ins.param) :
    p.Keeps text ↔ ∃ t, p.network.obey p.os p.position ins = some t ∧ p.network.Agrees t := by
  obtain ⟨hread, hvalue⟩ := read_malformed p.garbage ins.word_ne_nil hword hmal
  rw [Keeps, LocalNetwork.parseCommand_eq_obey p.command p.os p.network p.position hread
    (hvalue.trans hparam)]
  constructor
  · rintro ⟨t, reply, h, hagrees⟩
    obtain ⟨u, hu, heq⟩ := Option.map_eq_some_iff.mp h
    cases heq
    exact ⟨t, hu, hagrees⟩
  · rintro ⟨t, h, hagrees⟩
    exact ⟨t, "ACK".toList, by rw [h, Option.map_some], hagrees⟩

end ServerTurn

/-! ## The tracker -/

namespace Tracker

/-- The two maps and the counter are the same. -/
structure Agrees (t u : Tracker) : Prop where
  clusters : ∀ n, u.clusters.lookup n = t.clusters.lookup n
  updateTime : u.updateTime = t.updateTime
  next : u.next = t.next

theorem Agrees.refl (t : Tracker) : t.Agrees t := ⟨fun _ => rfl, rfl, rfl⟩

variable {t : Tracker} {turn : Turn} {sender : SockAddr} {newId what : ClusterID}

/-- An `ID` that changes nothing. -/
theorem handleId_agrees_iff : t.Agrees (t.handleId turn sender newId).1
    ↔ t.findByValue turn.order sender ≠ 0
      ∧ (newId = 0 ∨ newId = t.findByValue turn.order sender)
      ∧ t.updateTime (t.findByValue turn.order sender) = turn.now := by
  constructor
  · intro hagrees
    have hreg : t.clusters.lookup (t.registeredId turn sender newId) = some sender := by
      rw [← hagrees.clusters, lookup_handleId_eq, if_pos rfl]
    have hnamed : newId ≠ 0 → t.registeredId turn sender newId = newId := fun h => if_pos h
    have hfind : t.findByValue turn.order sender ≠ 0 := by
      intro hfind
      have hnew : newId ≠ 0 := by
        -- else an ID was taken off the counter
        intro hzero
        have hnext := hagrees.next
        rw [next_handleId, if_pos ⟨hzero, hfind⟩] at hnext
        simp at hnext
      have hzero : t.clusters.lookup 0 = none := by
        rw [← hagrees.clusters, lookup_handleId_eq, hnamed hnew, if_neg (Ne.symm hnew),
          if_pos ⟨hnew, hfind.symm⟩]
      exact lookup_of_findByValue_eq_zero hfind hzero hreg
    have hnew : newId = 0 ∨ newId = t.findByValue turn.order sender := by
      by_contra hne
      obtain ⟨hzero, hother⟩ := not_or.mp hne
      have hold := hagrees.clusters (t.findByValue turn.order sender)
      rw [lookup_handleId_eq, hnamed hzero, if_neg (Ne.symm hother), if_pos ⟨hzero, rfl⟩,
        lookup_findByValue hfind] at hold
      cases hold
    refine ⟨hfind, hnew, ?_⟩
    rw [← congrFun hagrees.updateTime (t.findByValue turn.order sender), updateTime_handleId,
      registeredId_of_found hfind hnew, Function.update_self]
  · rintro ⟨hfind, hnew, htime⟩
    have hreg : t.registeredId turn sender newId = t.findByValue turn.order sender :=
      registeredId_of_found hfind hnew
    refine ⟨?_, ?_, ?_⟩
    · intro n
      rw [lookup_handleId_eq, hreg]
      split
      · rename_i hn
        rw [hn, lookup_findByValue hfind]
      · rename_i hn
        exact if_neg fun h => hn h.2
    · rw [updateTime_handleId, hreg, ← htime, Function.update_eq_self]
    · rw [next_handleId, if_neg fun h => hfind h.2]

/-- A `GET` that changes nothing. -/
theorem handleGet_agrees_iff : t.Agrees (t.handleGet turn what).1
    ↔ ¬ (what > reservedClusterId ∧ t.Expired turn.now what) := by
  obtain ⟨hexp, heq⟩ | ⟨hexp, a, heq⟩ | ⟨hexp, hwhat, heq⟩ | ⟨-, hwhat, heq⟩ :=
    handleGet_cases t turn what
  · rw [heq]
    exact iff_of_true (.refl t) fun h => hexp h.2
  · rw [heq]
    exact iff_of_true (.refl t) fun h => hexp h.2
  · -- the entry is deleted
    rw [heq]
    refine iff_of_false ?_ fun h => h ⟨hwhat, hexp⟩
    intro hagrees
    obtain ⟨a, u, hview, -⟩ := hexp
    have hlookup := hagrees.clusters what
    rw [lookup_eraseCluster, if_pos rfl, (view_eq_some.mp hview).1] at hlookup
    cases hlookup
  · rw [heq]
    exact iff_of_true (.refl t) fun h => UInt32.not_le.mpr h.1 hwhat

end Tracker

/-- A tracker, and what a datagram meets there. -/
structure TrackerTurn where
  tracker : Tracker
  turn : Turn
  sender : SockAddr

namespace TrackerTurn

/-- The tracker is as it was. -/
def Keeps (q : TrackerTurn) (text : List Char) : Prop :=
  q.tracker.Agrees (q.tracker.iteration q.turn q.sender text).1

variable {q : TrackerTurn} {text : List Char}

/-- The command is handled all the same. -/
theorem keeps_iff_handle {cmd : Command} (hparse : Command.parse q.turn.garbage text = some cmd) :
    q.Keeps text ↔ q.tracker.Agrees (q.tracker.handle q.turn q.sender cmd).1 := by
  rw [Keeps, Tracker.iteration, hparse]

theorem parse_id (hword : IStream.firstWord text = "ID".toList)
    (hmal : IStream.Malformed 0 (2 ^ 32) (IStream.afterWord text)) :
    Command.parse q.turn.garbage text = some (.id (leftId q.turn.garbage text)) := by
  obtain ⟨hread, hvalue⟩ := read_malformed q.turn.garbage (List.cons_ne_nil _ _) hword hmal
  rw [Command.parse_words hread hvalue]
  rfl

theorem parse_get (hword : IStream.firstWord text = "GET".toList)
    (hmal : IStream.Malformed 0 (2 ^ 32) (IStream.afterWord text)) :
    Command.parse q.turn.garbage text = some (.get (leftId q.turn.garbage text)) := by
  obtain ⟨hread, hvalue⟩ := read_malformed q.turn.garbage (List.cons_ne_nil _ _) hword hmal
  rw [Command.parse_words hread hvalue]
  rfl

end TrackerTurn

/-! ## The host of a clock -/

/-- A `long long` holds it. -/
def IsLongLong (n : Int) : Prop := -2 ^ 63 ≤ n ∧ n < 2 ^ 63

/-- No step of `TimeSync::calculate` overflows. -/
def TimeSync.Fits (delta lastLocal t0 remoteUs : Int) : Prop :=
  IsLongLong (remoteUs - toMicroseconds lastLocal)
    ∧ IsLongLong (TimeSync.diff lastLocal t0 remoteUs)
    ∧ IsLongLong (TimeSync.diff lastLocal t0 remoteUs - delta)

/-- A host of a clock, and what a datagram meets there. -/
structure SyncTurn where
  locals : TimeSync.Locals
  sync : TimeSync
  now : Int
  sendTime : Int

namespace SyncTurn

/-- The time in the datagram can be worked with, and the offset is as it was. -/
def Keeps (r : SyncTurn) (text : List Char) : Prop :=
  (∀ remote, TimeSync.readTime r.locals text = some remote →
      TimeSync.Fits r.sync.delta r.sync.lastLocal r.now remote)
    ∧ (r.sync.iteration r.locals (some text) r.now r.sendTime).1.delta = r.sync.delta

/-- The time that is left in a variable that held something else. -/
def leftTime (r : SyncTurn) (text : List Char) : Int :=
  (IStream.leftSigned 64 (IStream.afterWord text)).getD r.locals.remote

variable {r : SyncTurn} {text : List Char}

theorem keeps_iff_fits (hword : IStream.firstWord text = "T".toList)
    (hmal : IStream.Malformed (-2 ^ 63) (2 ^ 63) (IStream.afterWord text)) :
    r.Keeps text ↔ TimeSync.Fits r.sync.delta r.sync.lastLocal r.now (r.leftTime text)
      ∧ -3 < TimeSync.diff r.sync.lastLocal r.now (r.leftTime text) - r.sync.delta
      ∧ TimeSync.diff r.sync.lastLocal r.now (r.leftTime text) - r.sync.delta < 3 := by
  have hne : IStream.firstWord text ≠ [] := hword ▸ List.cons_ne_nil _ _
  have hread : TimeSync.readTime r.locals text = some (r.leftTime text) := by
    rw [TimeSync.readTime, IStream.readWord_firstWord hne, hword]
    dsimp only
    rw [IStream.readSigned_malformed hmal]
    rfl
  have hmove : TimeSync.calculate r.sync.delta r.sync.lastLocal r.now (r.leftTime text)
      = r.sync.delta ↔ -3 < TimeSync.diff r.sync.lastLocal r.now (r.leftTime text) - r.sync.delta
        ∧ TimeSync.diff r.sync.lastLocal r.now (r.leftTime text) - r.sync.delta < 3 := by
    rw [TimeSync.calculate_eq_move _ ⟨r.sync.lastLocal, r.now, r.leftTime text⟩]
    exact Approach.move_eq_self_iff (by decide)
  rw [Keeps, TimeSync.iteration, hread]
  refine and_congr ?_ hmove
  constructor
  · exact fun h => h _ rfl
  · rintro h remote ⟨⟩
    exact h

end SyncTurn

/-! ## Every receiver -/

/-- A receiver that is sent a command with a number. -/
inductive Addressee where
  | connect (p : ServerTurn)
  | drop (p : ServerTurn)
  | run (p : ServerTurn)
  | id (q : TrackerTurn)
  | get (q : TrackerTurn)
  | time (r : SyncTurn)

namespace Addressee

/-- The command. -/
def word : Addressee → List Char
  | .connect _ => "CONNECT".toList
  | .drop _ => "DROP".toList
  | .run _ => "RUN".toList
  | .id _ => "ID".toList
  | .get _ => "GET".toList
  | .time _ => "T".toList

/-- The least value of its parameter, and the first that is too great. -/
def range : Addressee → Int × Int
  | .time _ => (-2 ^ 63, 2 ^ 63)
  | _ => (0, 2 ^ 32)

/-- The command comes with something else than a number of that range. -/
def Malformed (rcv : Addressee) (text : List Char) : Prop :=
  IStream.firstWord text = rcv.word
    ∧ IStream.Malformed rcv.range.1 rcv.range.2 (IStream.afterWord text)

/-- What the receiver knows is as it was. -/
def Keeps (text : List Char) : Addressee → Prop
  | .connect p => p.Keeps text
  | .drop p => p.Keeps text
  | .run p => p.Keeps text
  | .id q => q.Keeps text
  | .get q => q.Keeps text
  | .time r => r.Keeps text

/-- What is left in the variable of the parameter does no harm. -/
def Harmless (text : List Char) : Addressee → Prop
  | .connect p => leftId p.garbage text ∈ p.network.subscriptions.values p.server.id
  | .drop _ => False
  | .run p => p.server.id = leftId p.garbage text
  | .id q =>
      let cluster := q.tracker.findByValue q.turn.order q.sender
      cluster ≠ 0 ∧ (leftId q.turn.garbage text = 0 ∨ leftId q.turn.garbage text = cluster)
        ∧ q.tracker.updateTime cluster = q.turn.now
  | .get q =>
      ¬ (leftId q.turn.garbage text > reservedClusterId
        ∧ q.tracker.Expired q.turn.now (leftId q.turn.garbage text))
  | .time r =>
      TimeSync.Fits r.sync.delta r.sync.lastLocal r.now (r.leftTime text)
        ∧ -3 < TimeSync.diff r.sync.lastLocal r.now (r.leftTime text) - r.sync.delta
        ∧ TimeSync.diff r.sync.lastLocal r.now (r.leftTime text) - r.sync.delta < 3

end Addressee

/-- In every state: a receiver that gets a command without a number, or with one
out of range, stays as it was exactly if what it works with instead is harmless. -/
theorem malformed_keeps_iff (rcv : Addressee) (text : List Char) (h : rcv.Malformed text) :
    rcv.Keeps text ↔ rcv.Harmless text := by
  obtain ⟨hword, hmal⟩ := h
  cases rcv with
  | connect p =>
      exact (ServerTurn.keeps_iff_obey (.connect (leftId p.garbage text)) hword hmal rfl).trans
        (LocalNetwork.connect_agrees_iff ServerTurn.getElem?_server)
  | drop p =>
      refine iff_of_false ?_ id
      intro hkeeps
      exact LocalNetwork.not_drop_agrees ServerTurn.getElem?_server
        ((ServerTurn.keeps_iff_obey (.drop (leftId p.garbage text)) hword hmal rfl).mp hkeeps)
  | run p =>
      exact (ServerTurn.keeps_iff_obey (.run (leftId p.garbage text)) hword hmal rfl).trans
        (LocalNetwork.run_agrees_iff ServerTurn.getElem?_server)
  | id q =>
      exact (TrackerTurn.keeps_iff_handle (TrackerTurn.parse_id hword hmal)).trans
        Tracker.handleId_agrees_iff
  | get q =>
      exact (TrackerTurn.keeps_iff_handle (TrackerTurn.parse_get hword hmal)).trans
        Tracker.handleGet_agrees_iff
  | time r => exact SyncTurn.keeps_iff_fits hword hmal

/-- A server that runs as 1025, and a text for it. -/
def server1025 : ServerTurn := ⟨fun _ => [], 0, true, .start [.ofId 1025], ⟨0, by decide⟩⟩

/-- A `RUN` with a name instead of a number. -/
theorem malformed_keeps_iff_run :
    (Addressee.run server1025).Keeps "RUN x".toList
      ↔ (Addressee.run server1025).Harmless "RUN x".toList :=
  malformed_keeps_iff (.run server1025) "RUN x".toList ⟨rfl, fun _ h => nomatch h⟩

/-- The server runs as 0 afterwards, an unknown sender gets an ID from the tracker,
and the offset goes a third of the way back to the epoch. -/
theorem malformed_not_kept :
    ((Addressee.run server1025).Malformed "RUN x".toList
        ∧ ¬ (Addressee.run server1025).Keeps "RUN x".toList)
      ∧ (let q : TrackerTurn := ⟨.new, ⟨0, .kept, 0⟩, ⟨0x0A000001, 5000⟩⟩
        (Addressee.id q).Malformed "ID x".toList ∧ ¬ (Addressee.id q).Keeps "ID x".toList)
      ∧ (let r : SyncTurn := ⟨⟨0, 0, 0, 0⟩, ⟨0, seconds 60, seconds 60, ⟨0, 0⟩, ⟨0, 0⟩⟩,
          seconds 61, seconds 61⟩
        (Addressee.time r).Malformed "T x".toList ∧ ¬ (Addressee.time r).Keeps "T x".toList) := by
  refine ⟨⟨⟨rfl, fun _ h => nomatch h⟩, ?_⟩, ⟨⟨rfl, fun _ h => nomatch h⟩, ?_⟩,
    ⟨rfl, fun _ h => nomatch h⟩, ?_⟩
  · rintro ⟨t, reply, ht, hagrees⟩
    cases ht
    exact absurd hagrees.servers (by decide)
  · intro hkeeps
    exact absurd hkeeps.next (by decide)
  · rintro ⟨-, hdelta⟩
    exact absurd hdelta (by decide)

end DistributAr
