/-
# `DistributAr.Commander` — the client

The client knows addresses by cluster ID and asks the tracker for those it does
not know.  It sends one datagram at a time and waits for one answer, so what is
outside can be any state with an operation `exchange`; an answer that does not come is
the empty text.  Where no address is found nothing is sent, and the client waits all
the same: `wait` is what then comes.

`createNetwork` runs in these phases.

| phase           | commands                     | ends early when                    |
|-----------------|------------------------------|------------------------------------|
| `waitClusters`  | `LIST`                       | there is no time server to erase   |
| `getClusters`   | `GET` of the listed IDs      |                                    |
| `issueIds`      | `RUN` to the listed IDs      | the nodes run out, or no `ACK`     |
| `refresh`       | `GET` of the listed IDs      |                                    |
| `addNodes`      | `ADD` to the nodes           |                                    |
| `connectEdges`  | `CONNECT` to the edges       | no `ACK`                           |

Everything that is sent is recorded in `sent`, in order, with the state of the
world that it met and the answer; `unasked` has the worlds in which the client waited
without having sent anything.
-/
import DistributAr.GraphIO
import DistributAr.Tracker

namespace DistributAr

open Lib

/-- What the client finds outside: an answer to a datagram, what comes to a client that
has sent nothing, the passing of five seconds, the address of the local host as
`localIP` reads it, and what is in variables that nothing was assigned to. -/
structure Env (σ : Type) where
  exchange : σ → SockAddr → List Char → List Char × σ
  wait : σ → List Char × σ
  sleep : σ → σ
  localIP : UInt64
  garbage : σ → ClusterID × UInt64 × UInt16

/-- A datagram the client sent. -/
structure Sent (σ : Type) where
  world : σ
  cluster : ClusterID
  addr : SockAddr
  cmd : List Char
  reply : List Char

/-- The state of a `Commander`, of the world, what was sent, and where it waited with
nothing sent. -/
structure Commander (σ : Type) where
  clusters : ClusterID → SockAddr
  world : σ
  sent : List (Sent σ)
  unasked : List σ

/-- How `createNetwork` ends. -/
inductive Outcome where
  /-- The parser has left the bounds of the tokens. -/
  | parseUndefined
  /-- Still waiting for clusters to join. -/
  | waiting
  /-- `ids.erase(ids.end())` -/
  | eraseEnd
  /-- `nodes[i]` beyond the end of `nodes`. -/
  | nodesEnd
  | runFailed
  | connectFailed
  | running
deriving DecidableEq, Repr

/-- `"ADD " + to_string(label)` -/
def addText (label : Int) : List Char := "ADD ".toList ++ printUnsigned label.toNat

/-- `"CONNECT "+ to_string(to) +" "+ to_string(label)` -/
def connectText (target : ClusterID) (label : Int) : List Char :=
  "CONNECT ".toList ++ printUnsigned target.toNat ++ ' ' :: printUnsigned label.toNat

namespace Commander

variable {σ : Type} (env : Env σ)

/-- `Commander::Commander` -/
def new (trackerAddr : SockAddr) (world : σ) : Commander σ where
  clusters := fun id => if id = trackerClusterId then trackerAddr else ⟨0, 0⟩
  world := world
  sent := []
  unasked := []

/-- `udp.Write` to a cluster and the `waitReply` for its answer. -/
def exchange (s : Commander σ) (cluster : ClusterID) (addr : SockAddr) (cmd : List Char) :
    List Char × Commander σ :=
  let (reply, world) := env.exchange s.world addr cmd
  (reply, { s with world := world, sent := s.sent ++ [⟨s.world, cluster, addr, cmd, reply⟩] })

/-- A `waitReply` before which nothing was sent. -/
def wait (s : Commander σ) : List Char × Commander σ :=
  let (reply, world) := env.wait s.world
  (reply, { s with world := world, unasked := s.unasked ++ [s.world] })

/-- `Commander::trackerCommand` and the `waitReply` after it.  The port of the
tracker is not 0: `main` does not start without one. -/
def trackerCommand (s : Commander σ) (cmd : List Char) : List Char × Commander σ :=
  s.exchange env trackerClusterId (s.clusters trackerClusterId) cmd

/-- `replaceLo` -/
def replaceLo (ip replacement : UInt64) : UInt64 := if ip = env.localIP then replacement else ip

/-- `std::this_thread::sleep_for(std::chrono::seconds(5))` -/
def sleep (s : Commander σ) : Commander σ := { s with world := env.sleep s.world }

/-- `rs >> cmd; rs >> retCid; rs >> ip; rs >> port;` and what they make of the
answer to a `GET id`: the address, or nothing if it is an unexpected reply. -/
def readPoint (garbage : ClusterID × UInt64 × UInt16) (trackerAddr : SockAddr) (id : ClusterID)
    (reply : List Char) : Option SockAddr :=
  let (cmd, rs) := (IStream.ofChars reply).readWord
  let (retCid, rs) := rs.readUnsigned 32
  let (ip, rs) := rs.readUnsigned 64
  let (port, _) := rs.readUnsigned 16
  let retCid := (retCid.map UInt32.ofNat).getD garbage.1
  let ip := (ip.map UInt64.ofNat).getD garbage.2.1
  let port := (port.map UInt16.ofNat).getD garbage.2.2
  let ip := replaceLo env ip trackerAddr.s_addr.toUInt64
  if cmd.getD [] ≠ "POINT".toList ∨ retCid ≠ id then none else some ⟨ip.toUInt32, port⟩

/-- `Commander::getCluster` -/
def getCluster (s : Commander σ) (id : ClusterID) : Commander σ :=
  let garbage := env.garbage s.world
  let (reply, s) := s.trackerCommand env (Command.get id).text
  match readPoint env garbage (s.clusters trackerClusterId) id reply with
  | none => s
  | some addr => { s with clusters := Function.update s.clusters id addr }

/-- The loop of `Commander::command`: ask the tracker at most three times. -/
def requestInfo : Nat → Commander σ → ClusterID → Commander σ
  | 0, s, _ => s
  | i + 1, s, cluster =>
      if (s.clusters cluster).sin_port = 0 then
        requestInfo i (s.getCluster env cluster) cluster
      else s

/-- `Commander::command` and the `waitReply` after it, which does not depend on whether
the command was sent. -/
def command (s : Commander σ) (cluster : ClusterID) (cmd : List Char) :
    List Char × Commander σ :=
  let s := requestInfo env 3 s cluster
  let addr := s.clusters cluster
  if addr.sin_port = 0 then s.wait env else s.exchange env cluster addr cmd

/-- The loop of `Commander::commandWithRetry` with `retry` repetitions left. -/
def retryCommand : Nat → Commander σ → ClusterID → List Char → Bool × Commander σ
  | 0, s, cluster, cmd =>
      let (reply, s) := s.command env cluster cmd
      (reply = "ACK".toList, s)
  | retry + 1, s, cluster, cmd =>
      let (reply, s) := s.command env cluster cmd
      if reply = "ACK".toList then (true, s) else retryCommand retry s cluster cmd

/-- `COMMAND_RETRY_COUNT` -/
def commandRetryCount : Nat := 3

/-- `Commander::commandWithRetry` -/
def commandWithRetry (s : Commander σ) (cluster : ClusterID) (cmd : List Char) :
    Bool × Commander σ :=
  retryCommand env commandRetryCount s cluster cmd

/-- The loop of `Commander::listClusters`. -/
def readIds : Nat → IStream → List ClusterID
  | 0, _ => []
  | fuel + 1, ss =>
      if ss.eof || ss.fail then []
      else
        let (id, ss) := ss.readUnsigned 32
        let ids := readIds fuel ss
        match id.map UInt32.ofNat with
        | some id => if 0 ≠ id ∧ ss.fail = false then id :: ids else ids
        | none => ids

/-- What `Commander::listClusters` makes of a reply. -/
def parseList (reply : List Char) : List ClusterID :=
  readIds (reply.length + 1) (.ofChars reply)

/-- `Commander::listClusters` -/
def listClusters (s : Commander σ) : List ClusterID × Commander σ :=
  let (reply, s) := s.trackerCommand env Command.list.text
  (parseList reply, s)

/-! ## `Commander::createNetwork` -/

/-- Wait for as many clusters as there are nodes, for `rounds` rounds. -/
def waitClusters (nodes : List GraphNode) : Nat → Commander σ →
    Except Outcome (List ClusterID) × Commander σ
  | 0, s => (.error .waiting, s)
  | rounds + 1, s =>
      let (ids, s) := (s.sleep env).listClusters env
      if timeServerId ∈ ids then
        let ids := ids.erase timeServerId
        if ids.length < nodes.length then waitClusters nodes rounds s else (.ok ids, s)
      else (.error .eraseEnd, s)

/-- `for(ClusterID id: ids) { getCluster(id); }` -/
def getClusters (s : Commander σ) (ids : List ClusterID) : Commander σ :=
  ids.foldl (getCluster env) s

/-- Issue the ID of `nodes[i]` to `ids[i]`. -/
def issueIds : List ClusterID → List GraphNode → Commander σ → Except Outcome Unit × Commander σ
  | [], _, s => (.ok (), s)
  | _ :: _, [], s => (.error .nodesEnd, s)
  | oldId :: ids, node :: nodes, s =>
      let (ok, s) := s.commandWithRetry env oldId (Reply.run node.id).text
      if ok then issueIds ids nodes s else (.error .runFailed, s)

/-- Forget all clusters but the tracker, sleep, and ask for them again. -/
def refresh (s : Commander σ) (ids : List ClusterID) : Commander σ :=
  let tracker := s.clusters trackerClusterId
  let s := { s with clusters := fun id => if id = trackerClusterId then tracker else ⟨0, 0⟩ }
  (s.sleep env).getClusters env ids

/-- Add nodes to each cluster; a failure is ignored. -/
def addNodes (s : Commander σ) (nodes : List GraphNode) : Commander σ :=
  nodes.foldl (fun s node =>
    if node.label > 0 then (s.commandWithRetry env node.id (addText node.label)).2 else s) s

/-- Connect the clusters. -/
def connectEdges : List GraphEdge → Commander σ → Outcome × Commander σ
  | [], s => (.running, s)
  | edge :: edges, s =>
      if edge.label > 0 then
        let (ok, s) := s.commandWithRetry env edge.source (connectText edge.target edge.label)
        if ok then connectEdges edges s else (.connectFailed, s)
      else connectEdges edges s

/-- The first half of `createNetwork`: the clusters that were found have been
renamed. -/
def renameClusters (rounds : Nat) (nodes : List GraphNode) (s : Commander σ) :
    Except Outcome (List ClusterID) × Commander σ :=
  match waitClusters env nodes rounds s with
  | (.error outcome, s) => (.error outcome, s)
  | (.ok ids, s) =>
      match issueIds env ids nodes (s.getClusters env ids) with
      | (.error outcome, s) => (.error outcome, s)
      | (.ok _, s) => (.ok ids, s)

/-- The second half: the nodes are populated and connected. -/
def connectNetwork (ids : List ClusterID) (nodes : List GraphNode) (edges : List GraphEdge)
    (s : Commander σ) : Outcome × Commander σ :=
  connectEdges env edges ((s.refresh env ids).addNodes env nodes)

/-- `Commander::createNetwork`, waiting for at most `rounds` rounds. -/
def createNetwork (rounds : Nat) (file : Option (List Char)) (s : Commander σ) :
    Outcome × Commander σ :=
  match GraphIO.parse file with
  | none => (.parseUndefined, s)
  | some (nodes, edges) =>
      match renameClusters env rounds nodes s with
      | (.error outcome, s) => (outcome, s)
      | (.ok ids, s) => connectNetwork env ids nodes edges s

/-- The tracker, whose ID is 0, is never on the list. -/
theorem ne_zero_of_mem_parseList {reply : List Char} {id : ClusterID}
    (h : id ∈ parseList reply) : id ≠ 0 := by
  revert h
  unfold parseList
  generalize reply.length + 1 = fuel
  generalize IStream.ofChars reply = ss
  induction fuel generalizing ss with
  | zero => exact fun h => absurd h List.not_mem_nil
  | succ fuel ih =>
      unfold readIds
      dsimp only
      split
      · exact fun h => absurd h List.not_mem_nil
      · split
        · split
          · rename_i hread
            intro h
            rcases List.mem_cons.mp h with rfl | hrest
            · exact hread.1.symm
            · exact ih _ hrest
          · exact ih _
        · exact ih _

theorem readIds_of_fail {ss : IStream} (h : ss.fail = true) (fuel : Nat) :
    readIds fuel ss = [] := by
  cases fuel with
  | zero => rfl
  | succ fuel =>
      rw [readIds, h, Bool.or_true]
      rfl

/-- The loop ends by itself: each number it reads takes a character, so that with
more fuel than characters the fuel makes no difference. -/
theorem readIds_fuel {m n : Nat} {ss : IStream} (hm : ss.rest.length < m)
    (hn : ss.rest.length < n) : readIds m ss = readIds n ss := by
  induction m generalizing n ss with
  | zero => exact absurd hm (Nat.not_lt_zero _)
  | succ m ih =>
      cases n with
      | zero => exact absurd hn (Nat.not_lt_zero _)
      | succ n =>
          have hrest : readIds m (ss.readUnsigned 32).2 = readIds n (ss.readUnsigned 32).2 := by
            cases hfail : (ss.readUnsigned 32).2.fail with
            | true => rw [readIds_of_fail hfail, readIds_of_fail hfail]
            | false =>
                have hshort := IStream.readUnsigned_length hfail
                exact ih (by omega) (by omega)
          rw [readIds, readIds]
          dsimp only
          rw [hrest]

/-! ## What one request does -/

/-- The address that the tracker's answer to `GET id` gives in the world `w`. -/
def pointed (trackerAddr : SockAddr) (w : σ) (id : ClusterID) : Option SockAddr :=
  readPoint env (env.garbage w) trackerAddr id
    (env.exchange w trackerAddr (Command.get id).text).1

variable {env} {s : Commander σ} {id cluster : ClusterID} {addr : SockAddr} {cmd : List Char}

theorem exchange_sent : (s.exchange env cluster addr cmd).2.sent
    = s.sent ++ [⟨s.world, cluster, addr, cmd, (env.exchange s.world addr cmd).1⟩] := rfl

theorem exchange_reply : (s.exchange env cluster addr cmd).1
    = (env.exchange s.world addr cmd).1 := rfl

/-- `getCluster` asks the tracker, and the cache has the address it gives, if it
gives one. -/
theorem getCluster_sent : (s.getCluster env id).sent
    = s.sent ++ [⟨s.world, trackerClusterId, s.clusters trackerClusterId, (Command.get id).text,
        (env.exchange s.world (s.clusters trackerClusterId) (Command.get id).text).1⟩] := by
  unfold getCluster
  dsimp only
  split <;> rfl

theorem getCluster_unasked : (s.getCluster env id).unasked = s.unasked := by
  unfold getCluster
  dsimp only
  split <;> rfl

theorem getCluster_world : (s.getCluster env id).world
    = (env.exchange s.world (s.clusters trackerClusterId) (Command.get id).text).2 := by
  unfold getCluster
  dsimp only
  split <;> rfl

theorem getCluster_clusters : (s.getCluster env id).clusters
    = match pointed env (s.clusters trackerClusterId) s.world id with
      | none => s.clusters
      | some addr => Function.update s.clusters id addr := by
  have hclusters : (s.trackerCommand env (Command.get id).text).2.clusters = s.clusters := rfl
  have hreply : (s.trackerCommand env (Command.get id).text).1
      = (env.exchange s.world (s.clusters trackerClusterId) (Command.get id).text).1 := rfl
  unfold getCluster pointed
  dsimp only
  rw [hclusters, hreply]
  cases readPoint env (env.garbage s.world) (s.clusters trackerClusterId) id
      (env.exchange s.world (s.clusters trackerClusterId) (Command.get id).text).1 with
  | none => rfl
  | some addr => rfl

/-- The client understands a `POINT`. -/
theorem readPoint_text (garbage : ClusterID × UInt64 × UInt16) (trackerAddr addr : SockAddr)
    (id what : ClusterID) : readPoint env garbage trackerAddr id (Reply.point what addr).text
      = if what = id then
          some ⟨(replaceLo env addr.s_addr.toUInt64 trackerAddr.s_addr.toUInt64).toUInt32,
            addr.sin_port⟩
        else none := by
  have hblank : ∀ d ∈ [' '], isSpace d := by simp [isSpace]
  have hport : addr.sin_port.toNat < 2 ^ 16 := addr.sin_port.toNat_lt
  have hip : addr.s_addr.toNat < 2 ^ 64 := lt_trans addr.s_addr.toNat_lt (by decide)
  -- The four extractions, each on what the one before left.
  obtain ⟨hcmd, hcid⟩ := read_param 32 "POINT".toList
    (' ' :: (printUnsigned addr.s_addr.toNat ++ ' ' :: printUnsigned addr.sin_port.toNat))
    (by decide) rfl what.toNat_lt (by simp)
  have hread := IStream.readUnsigned_text 64 [' '] (' ' :: printUnsigned addr.sin_port.toNat)
    hblank hip (by simp)
  have hlast := IStream.readUnsigned_text 16 [' '] [] hblank hport (by simp)
  rw [List.append_nil] at hlast
  have htext : (Reply.point what addr).text = "POINT".toList ++ ' ' :: (printUnsigned what.toNat
      ++ ' ' :: (printUnsigned addr.s_addr.toNat ++ ' ' :: printUnsigned addr.sin_port.toNat)) :=
    rfl
  generalize hstart : IStream.ofChars (Reply.point what addr).text = start
  rw [← htext, hstart] at hcmd hcid
  have hcid' : start.readWord.2.readUnsigned 32 = (some what.toNat, .ofChars ([' '] ++
      (printUnsigned addr.s_addr.toNat ++ ' ' :: printUnsigned addr.sin_port.toNat))) := hcid
  have hread' : (IStream.ofChars ([' '] ++ (printUnsigned addr.s_addr.toNat
      ++ ' ' :: printUnsigned addr.sin_port.toNat))).readUnsigned 64
        = (some addr.s_addr.toNat, .ofChars ([' '] ++ printUnsigned addr.sin_port.toNat)) := hread
  rw [readPoint, hstart]
  dsimp only
  rw [hcmd, hcid', hread', hlast]
  simp only [Option.map_some, Option.getD_some, UInt32.ofNat_toNat, UInt16.ofNat_toNat,
    UInt64.ofNat_uInt32ToNat, ne_eq, not_true, false_or]
  by_cases heq : what = id
  · rw [if_neg fun h => h heq, if_pos heq]
  · rw [if_pos heq, if_neg heq]

/-- A `DROP` points nowhere, nor does silence. -/
theorem readPoint_drop (garbage : ClusterID × UInt64 × UInt16) (trackerAddr : SockAddr)
    (id what : ClusterID) :
    readPoint env garbage trackerAddr id (Reply.drop what).text = none := by
  obtain ⟨hcmd, -⟩ := read_last_param 32 "DROP".toList (by decide) rfl what.toNat_lt
  have htext : (Reply.drop what).text = "DROP".toList ++ ' ' :: printUnsigned what.toNat := rfl
  rw [readPoint, htext]
  dsimp only
  rw [hcmd]
  exact if_pos (.inl (by decide))

theorem readPoint_nil (garbage : ClusterID × UInt64 × UInt16) (trackerAddr : SockAddr)
    (id : ClusterID) : readPoint env garbage trackerAddr id [] = none := by
  rw [readPoint]
  exact if_pos (.inl (by decide))

end Commander

end DistributAr
