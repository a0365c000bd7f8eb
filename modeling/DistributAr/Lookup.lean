/-
# `DistributAr.Lookup` — how the client finds an address

`Commander::command` asks the tracker for an address that it does not know; the
question is a command itself, so that three functions call each other:

    command(cluster, cmd) → getCluster(cluster) → trackerCommand("GET …")
      → command(TRACKER_CLUSTER_ID, "GET …")

Here they do so as in the source.  `room` is how many calls of `command` may be
under way at once; a program that needs more has no result.  Two are enough, since
the tracker's address is known from the start, and nothing that comes in as an
answer changes it (`lookup_returns`).

`Commander` has the same functions with the inner command already carried out;
`getCluster_eq` and `command_eq` say that this is what the recursion comes to.

Sending and waiting are apart here: an answer may come late, or to nothing that was
asked.
-/
import DistributAr.Commander
import DistributAr.Lib.Total

namespace DistributAr

open Lib

/-- What the client finds outside: it can send and wait for an answer, which may be
any text, or none.  What is in variables that nothing was assigned to depends on it,
too. -/
structure Outside (σ : Type) where
  write : σ → SockAddr → List Char → σ
  waitReply : σ → List Char × σ
  sleep : σ → σ
  localIP : UInt64
  garbage : σ → ClusterID × UInt64 × UInt16

/-- Where every datagram is followed by the wait for its answer. -/
def Outside.env {σ : Type} (out : Outside σ) : Env σ where
  exchange := fun w addr cmd => out.waitReply (out.write w addr cmd)
  wait := out.waitReply
  sleep := out.sleep
  localIP := out.localIP
  garbage := out.garbage

/-- A call of `command` that has returned, and what was sent from its start to its
end, by the calls within it as well. -/
structure Issued where
  cluster : ClusterID
  cmd : List Char
  sent : List (SockAddr × List Char)

/-- The state of a `Commander`, and three records: what `clusters` has been, what was
sent, and the calls of `command`. -/
structure Client (σ : Type) where
  clusters : ClusterID → SockAddr
  world : σ
  past : List (ClusterID → SockAddr)
  sent : List (SockAddr × List Char)
  issued : List Issued

/-- What `main` asks a `Commander` for. -/
inductive ClientCall where
  | list
  | get (id : ClusterID)
  | create (rounds : Nat) (file : Option (List Char))
  | command (cluster : ClusterID) (cmd : List Char)

namespace Client

variable {σ : Type} (out : Outside σ)

/-- `Commander::Commander` -/
def new (trackerAddr : SockAddr) (world : σ) : Client σ where
  clusters := fun id => if id = trackerClusterId then trackerAddr else ⟨0, 0⟩
  world := world
  past := []
  sent := []
  issued := []

/-! ## Its parts -/

/-- `clusters = …` -/
def assign (clusters : ClusterID → SockAddr) : Program (Client σ) PUnit :=
  modify fun s => { s with clusters := clusters, past := s.past ++ [clusters] }

/-- `udp.Write` -/
def write (addr : SockAddr) (cmd : List Char) : Program (Client σ) PUnit :=
  modify fun s => { s with world := out.write s.world addr cmd, sent := s.sent ++ [(addr, cmd)] }

/-- A call of `command` is over, at whose start `before` datagrams had been sent. -/
def record (before : Nat) (cluster : ClusterID) (cmd : List Char) : Program (Client σ) PUnit :=
  modify fun s => { s with issued := s.issued ++ [⟨cluster, cmd, s.sent.drop before⟩] }

/-- `std::this_thread::sleep_for(std::chrono::seconds(5))` -/
def sleep : Program (Client σ) PUnit :=
  modify fun s => { s with world := out.sleep s.world }

/-- `Commander::waitReply` -/
def waitReply : Program (Client σ) (List Char) := do
  let s ← get
  let (reply, world) := out.waitReply s.world
  modify fun s => { s with world := world }
  return reply

/-- `Commander::getCluster`; `trackerCommand` is how it asks. -/
def getCluster (trackerCommand : List Char → Program (Client σ) Nat) (id : ClusterID) :
    Program (Client σ) ClusterID := do
  let start ← get
  let _ ← trackerCommand (Command.get id).text
  let reply ← waitReply out
  let s ← get
  match Commander.readPoint out.env (out.garbage start.world) (s.clusters trackerClusterId) id
      reply with
  | none => return 0
  | some addr =>
      assign (Function.update s.clusters id addr)
      return id

/-- The loop of `Commander::command`. -/
def requestInfo (getCluster : ClusterID → Program (Client σ) ClusterID) :
    Nat → ClusterID → Program (Client σ) PUnit
  | 0, _ => return ⟨⟩
  | i + 1, cluster => do
      let s ← get
      if (s.clusters cluster).sin_port = 0 then
        let _ ← getCluster cluster
        requestInfo getCluster i cluster
      else return ⟨⟩

/-- The rest of `Commander::command`. -/
def sendTo (cluster : ClusterID) (cmd : List Char) : Program (Client σ) Nat := do
  let s ← get
  if (s.clusters cluster).sin_port = 0 then return 1
  else
    write out (s.clusters cluster) cmd
    return 0

/-- `Commander::command`, where `room` calls of it may be under way. -/
def command : Nat → ClusterID → List Char → Program (Client σ) Nat
  | 0, _, _ => fun _ => none
  | room + 1, cluster, cmd => do
      let start ← get
      requestInfo (getCluster out (command room trackerClusterId)) 3 cluster
      let failed ← sendTo out cluster cmd
      record start.sent.length cluster cmd
      return failed

/-! ## What `main` calls -/

section Calls

variable (room : Nat)

/-- `Commander::trackerCommand` -/
def trackerCommand (cmd : List Char) : Program (Client σ) Nat :=
  command out room trackerClusterId cmd

/-- The loop of `Commander::commandWithRetry` with `retry` repetitions left. -/
def retryCommand : Nat → ClusterID → List Char → Program (Client σ) Bool
  | 0, cluster, cmd => do
      let _ ← command out room cluster cmd
      let reply ← waitReply out
      return reply = "ACK".toList
  | retry + 1, cluster, cmd => do
      let _ ← command out room cluster cmd
      let reply ← waitReply out
      if reply = "ACK".toList then return true else retryCommand retry cluster cmd

/-- `Commander::commandWithRetry` -/
def commandWithRetry (cluster : ClusterID) (cmd : List Char) : Program (Client σ) Bool :=
  retryCommand out room Commander.commandRetryCount cluster cmd

/-- `Commander::listClusters` -/
def listClusters : Program (Client σ) (List ClusterID) := do
  let _ ← trackerCommand out room Command.list.text
  let reply ← waitReply out
  return Commander.parseList reply

/-- `for(ClusterID id: ids) { getCluster(id); }` -/
def getEach (ids : List ClusterID) : Program (Client σ) PUnit :=
  ids.forM fun id => do
    let _ ← getCluster out (trackerCommand out room) id

/-- `Commander::getClusters`; `printCluster` prints what is in `clusters`. -/
def getClusters : Program (Client σ) Nat := do
  let ids ← listClusters out room
  getEach out room ids
  return ids.length

/-- `Commander::showReply` -/
def showReply : Program (Client σ) Bool := do
  let reply ← waitReply out
  return reply = "ACK".toList

/-- Wait for as many clusters as there are nodes, for `rounds` rounds. -/
def waitClusters (nodes : List GraphNode) : Nat →
    Program (Client σ) (Except Outcome (List ClusterID))
  | 0 => return .error .waiting
  | rounds + 1 => do
      sleep out
      let ids ← listClusters out room
      if timeServerId ∈ ids then
        if (ids.erase timeServerId).length < nodes.length then waitClusters nodes rounds
        else return .ok (ids.erase timeServerId)
      else return .error .eraseEnd

/-- Issue the ID of `nodes[i]` to `ids[i]`; what comes of it, if it goes wrong. -/
def issueIds : List ClusterID → List GraphNode → Program (Client σ) (Option Outcome)
  | [], _ => return none
  | _ :: _, [] => return some .nodesEnd
  | oldId :: ids, node :: nodes => do
      let ok ← commandWithRetry out room oldId (Reply.run node.id).text
      if ok then issueIds ids nodes else return some .runFailed

/-- Forget all clusters but the tracker. -/
def forget : Program (Client σ) PUnit := do
  let s ← get
  assign fun id => if id = trackerClusterId then s.clusters trackerClusterId else ⟨0, 0⟩

/-- Add nodes to each cluster; a failure is ignored. -/
def addNodes (nodes : List GraphNode) : Program (Client σ) PUnit :=
  nodes.forM fun node =>
    if node.label > 0 then do
      let _ ← commandWithRetry out room node.id (addText node.label)
    else return ⟨⟩

/-- Connect the clusters. -/
def connectEdges : List GraphEdge → Program (Client σ) Outcome
  | [] => return .running
  | edge :: edges =>
      if edge.label > 0 then do
        let ok ← commandWithRetry out room edge.source (connectText edge.target edge.label)
        if ok then connectEdges edges else return .connectFailed
      else connectEdges edges

/-- The part of `Commander::createNetwork` for which the clusters are there. -/
def connectNetwork (nodes : List GraphNode) (edges : List GraphEdge) (ids : List ClusterID) :
    Program (Client σ) Outcome := do
  getEach out room ids
  match ← issueIds out room ids nodes with
  | some outcome => return outcome
  | none =>
      forget
      sleep out
      getEach out room ids
      addNodes out room nodes
      connectEdges out room edges

/-- `Commander::createNetwork`, waiting for at most `rounds` rounds. -/
def createNetwork (rounds : Nat) (file : Option (List Char)) : Program (Client σ) Outcome :=
  match GraphIO.parse file with
  | none => return .parseUndefined
  | some (nodes, edges) => do
      match ← waitClusters out room nodes rounds with
      | .error outcome => return outcome
      | .ok ids => connectNetwork out room nodes edges ids

/-- A call, and the wait for its answer where `main` shows one. -/
def perform : ClientCall → Program (Client σ) PUnit
  | .list => do
      let _ ← getClusters out room
  | .get id => do
      let _ ← getCluster out (trackerCommand out room) id
  | .create rounds file => do
      let _ ← createNetwork out room rounds file
      let _ ← showReply out
  | .command cluster cmd => do
      let _ ← command out room cluster cmd
      let _ ← showReply out

end Calls

end Client

/-- The command asked for its cluster's address at most three times, and nothing but
itself was sent after that.  To the tracker it is sent at once. -/
def Issued.Bounded (trackerAddr : SockAddr) (call : Issued) : Prop :=
  ∃ gets own, gets ≤ 3
    ∧ call.sent = List.replicate gets (trackerAddr, (Command.get call.cluster).text) ++ own
    ∧ (own = [] ∨ ∃ addr, own = [(addr, call.cmd)])
    ∧ (call.cluster = trackerClusterId → gets = 0 ∧ own = [(trackerAddr, call.cmd)])

theorem Issued.Bounded.tracker {trackerAddr : SockAddr} {call : Issued}
    (h : call.Bounded trackerAddr) (hcluster : call.cluster = trackerClusterId) :
    call.sent = [(trackerAddr, call.cmd)] := by
  obtain ⟨gets, own, -, hsent, -, htracker⟩ := h
  obtain ⟨rfl, rfl⟩ := htracker hcluster
  exact hsent

namespace Client

variable {σ : Type} {out : Outside σ} {trackerAddr addr : SockAddr} {room : Nat}
  {id cluster : ClusterID} {cmd : List Char} {sent : List (SockAddr × List Char)}

/-! ## What every call keeps -/

/-- The tracker's address is, and has always been, the one that the client was
started with, and every command was `Bounded`. -/
structure Kept (trackerAddr : SockAddr) (s : Client σ) : Prop where
  tracker : s.clusters trackerClusterId = trackerAddr
  past : ∀ clusters ∈ s.past, clusters trackerClusterId = trackerAddr
  issued : ∀ call ∈ s.issued, call.Bounded trackerAddr

/-- `Kept`, where `sent` is what was sent so far. -/
structure KeptAt (trackerAddr : SockAddr) (sent : List (SockAddr × List Char)) (s : Client σ) :
    Prop where
  kept : s.Kept trackerAddr
  sent : s.sent = sent

/-- What was sent so far makes no difference to `Kept`. -/
theorem kept_of_keptAt {α : Type} {m : Program (Client σ) α}
    {after : List (SockAddr × List Char) → List (SockAddr × List Char)}
    (h : ∀ sent, Total (KeptAt trackerAddr sent) m fun _ => KeptAt trackerAddr (after sent)) :
    Total (Kept trackerAddr) m fun _ => Kept trackerAddr := by
  intro s hs
  exact Total.conseq (h s.sent) (fun _ h => h) (fun _ _ h => h.kept) s ⟨hs, rfl⟩

theorem kept_new (trackerAddr : SockAddr) (world : σ) :
    (new trackerAddr world).Kept trackerAddr where
  tracker := rfl
  past := fun _ h => absurd h List.not_mem_nil
  issued := fun _ h => absurd h List.not_mem_nil

theorem sleep_total : Total (Kept trackerAddr) (sleep out) fun _ => Kept trackerAddr :=
  Total.change fun _ h => ⟨h.tracker, h.past, h.issued⟩

theorem waitReply_total :
    Total (KeptAt trackerAddr sent) (waitReply out) fun _ => KeptAt trackerAddr sent := by
  intro s h
  exact ⟨_, _, rfl, ⟨h.kept.tracker, h.kept.past, h.kept.issued⟩, h.sent⟩

theorem waitReply_kept :
    Total (Kept trackerAddr) (waitReply out) fun _ => Kept trackerAddr :=
  kept_of_keptAt fun _ => waitReply_total

theorem write_total : Total (KeptAt trackerAddr sent) (write out addr cmd) fun _ =>
    KeptAt trackerAddr (sent ++ [(addr, cmd)]) := by
  refine Total.change fun s h => ⟨⟨h.kept.tracker, h.kept.past, h.kept.issued⟩, ?_⟩
  show s.sent ++ [(addr, cmd)] = sent ++ [(addr, cmd)]
  rw [h.sent]

theorem assign_total {clusters : ClusterID → SockAddr}
    (hclusters : clusters trackerClusterId = trackerAddr) :
    Total (KeptAt trackerAddr sent) (assign (σ := σ) clusters) fun _ =>
      KeptAt trackerAddr sent := by
  refine Total.change fun s h => ⟨⟨hclusters, ?_, h.kept.issued⟩, h.sent⟩
  intro map hmem
  rcases List.mem_append.mp hmem with hold | hnew
  · exact h.kept.past map hold
  · rw [List.mem_singleton.mp hnew]
    exact hclusters

/-- The one address that is not forgotten is the tracker's. -/
theorem forget_total : Total (Kept trackerAddr) (forget (σ := σ)) fun _ => Kept trackerAddr := by
  refine Total.read fun s hs => kept_of_keptAt fun _ => assign_total ?_
  rw [if_pos rfl]
  exact hs.tracker

theorem showReply_total :
    Total (Kept trackerAddr) (showReply out) fun _ => Kept trackerAddr :=
  Total.bind waitReply_kept fun _ => Total.pure fun _ h => h

theorem record_total {news : List (SockAddr × List Char)}
    (hcall : Issued.Bounded trackerAddr ⟨cluster, cmd, news⟩) :
    Total (KeptAt trackerAddr (sent ++ news)) (record (σ := σ) sent.length cluster cmd) fun _ =>
      KeptAt trackerAddr (sent ++ news) := by
  refine Total.change fun s h => ⟨⟨h.kept.tracker, h.kept.past, ?_⟩, h.sent⟩
  intro call hmem
  rcases List.mem_append.mp hmem with hold | hnew
  · exact h.kept.issued call hold
  · rw [List.mem_singleton.mp hnew, h.sent, List.drop_left]
    exact hcall

/-- An answer changes the address of the cluster that was asked for, which is not
the tracker. -/
theorem getCluster_total {trackerCommand : List Char → Program (Client σ) Nat}
    (htracker : ∀ cmd, Total (KeptAt trackerAddr sent) (trackerCommand cmd) fun _ =>
      KeptAt trackerAddr (sent ++ [(trackerAddr, cmd)]))
    (hid : id ≠ trackerClusterId) :
    Total (KeptAt trackerAddr sent) (getCluster out trackerCommand id) fun _ =>
      KeptAt trackerAddr (sent ++ [(trackerAddr, (Command.get id).text)]) := by
  refine Total.read fun start _ => ?_
  refine Total.bind (htracker _) fun _ => ?_
  refine Total.bind waitReply_total fun reply => ?_
  refine Total.read fun s hs => ?_
  split
  · exact Total.pure fun _ h => h
  · refine Total.bind (assign_total ?_) fun _ => Total.pure fun _ h => h
    rw [Function.update_of_ne hid.symm]
    exact hs.kept.tracker

section Commands

variable (hport : trackerAddr.sin_port ≠ 0)
include hport

/-- The loop asks for no address that is known, so never for the tracker's. -/
theorem requestInfo_total {getCluster : ClusterID → Program (Client σ) ClusterID}
    (hget : cluster ≠ trackerClusterId → ∀ sent,
      Total (KeptAt trackerAddr sent) (getCluster cluster) fun _ =>
        KeptAt trackerAddr (sent ++ [(trackerAddr, (Command.get cluster).text)])) (n : Nat) :
    Total (KeptAt trackerAddr sent) (requestInfo getCluster n cluster) fun _ s =>
      ∃ gets ≤ n, (cluster = trackerClusterId → gets = 0) ∧ s.KeptAt trackerAddr
        (sent ++ List.replicate gets (trackerAddr, (Command.get cluster).text)) := by
  have hnone : ∀ (n : Nat) (sent : List (SockAddr × List Char)) (s : Client σ),
      s.KeptAt trackerAddr sent → ∃ gets ≤ n, (cluster = trackerClusterId → gets = 0) ∧
        s.KeptAt trackerAddr
          (sent ++ List.replicate gets (trackerAddr, (Command.get cluster).text)) := by
    intro n sent s h
    refine ⟨0, Nat.zero_le n, fun _ => rfl, ?_⟩
    rw [List.replicate_zero, List.append_nil]
    exact h
  induction n generalizing sent with
  | zero => exact Total.pure (hnone 0 sent)
  | succ n ih =>
      refine Total.read fun s hs => ?_
      refine Total.ite (fun hunknown => ?_) fun _ => Total.pure (hnone (n + 1) sent)
      have hne : cluster ≠ trackerClusterId := by
        rintro rfl
        rw [hs.kept.tracker] at hunknown
        exact hport hunknown
      refine Total.bind (hget hne sent) fun _ => Total.conseq ih (fun _ h => h) ?_
      rintro - t ⟨gets, hgets, -, ht⟩
      refine ⟨gets + 1, Nat.succ_le_succ hgets, fun heq => absurd heq hne, ?_⟩
      rw [List.append_assoc] at ht
      exact ht

/-- What is left to do is at most one datagram; for the tracker it is one. -/
theorem sendTo_total : Total (KeptAt trackerAddr sent) (sendTo out cluster cmd) fun _ s =>
    ∃ own, (own = [] ∨ ∃ addr, own = [(addr, cmd)])
      ∧ (cluster = trackerClusterId → own = [(trackerAddr, cmd)])
      ∧ s.KeptAt trackerAddr (sent ++ own) := by
  refine Total.read fun s hs => ?_
  refine Total.ite (fun hunknown => Total.pure fun t ht => ⟨[], .inl rfl, ?_, ?_⟩) fun _ => ?_
  · rintro rfl
    rw [hs.kept.tracker] at hunknown
    exact absurd hunknown hport
  · rw [List.append_nil]
    exact ht
  · refine Total.bind write_total fun _ => Total.pure fun t ht => ⟨_, .inr ⟨_, rfl⟩, ?_, ht⟩
    rintro rfl
    rw [hs.kept.tracker]

theorem command_total_of
    (hget : cluster ≠ trackerClusterId → ∀ sent,
      Total (KeptAt trackerAddr sent) (getCluster out (command out room trackerClusterId) cluster)
        fun _ => KeptAt trackerAddr (sent ++ [(trackerAddr, (Command.get cluster).text)])) :
    Total (KeptAt trackerAddr sent) (command out (room + 1) cluster cmd) fun _ s =>
      ∃ news, Issued.Bounded trackerAddr ⟨cluster, cmd, news⟩
        ∧ s.KeptAt trackerAddr (sent ++ news) := by
  refine Total.read fun start hstart => ?_
  refine Total.bind (requestInfo_total hport hget 3) fun _ => ?_
  rintro s ⟨gets, hgets, hnone, hs⟩
  refine Total.bind (sendTo_total hport) (fun failed => ?_) s hs
  rintro t ⟨own, hown, htracker, ht⟩
  have hcall : Issued.Bounded trackerAddr
      ⟨cluster, cmd, List.replicate gets (trackerAddr, (Command.get cluster).text) ++ own⟩ :=
    ⟨gets, own, hgets, rfl, hown, fun heq => ⟨hnone heq, htracker heq⟩⟩
  rw [List.append_assoc] at ht
  rw [hstart.sent]
  exact Total.bind (record_total hcall) (fun _ => Total.pure fun u hu => ⟨_, hcall, hu⟩) t ht

/-- The tracker's address is known, so that the question is sent and nothing else. -/
theorem command_tracker : Total (KeptAt trackerAddr sent)
    (command out (room + 1) trackerClusterId cmd) fun _ =>
      KeptAt trackerAddr (sent ++ [(trackerAddr, cmd)]) := by
  refine Total.conseq (command_total_of hport fun h => absurd rfl h) (fun _ h => h) ?_
  rintro - s ⟨news, hcall, hs⟩
  have hnews : news = [(trackerAddr, cmd)] := hcall.tracker rfl
  rw [hnews] at hs
  exact hs

theorem command_total : Total (Kept trackerAddr) (command out (room + 2) cluster cmd) fun _ =>
    Kept trackerAddr := by
  intro s hs
  refine Total.conseq (command_total_of hport fun hne _ =>
    getCluster_total (fun _ => command_tracker hport) hne) (fun _ h => h) ?_ s ⟨hs, rfl⟩
  rintro - t ⟨news, -, ht⟩
  exact ht.kept

/-! ## What `main` and `createNetwork` call -/

theorem getCluster_kept (hid : id ≠ trackerClusterId) :
    Total (Kept trackerAddr) (getCluster out (trackerCommand out (room + 2)) id) fun _ =>
      Kept trackerAddr :=
  kept_of_keptAt fun _ => getCluster_total (fun _ => command_tracker hport) hid

theorem retryCommand_total (retry : Nat) :
    Total (Kept trackerAddr) (retryCommand out (room + 2) retry cluster cmd) fun _ =>
      Kept trackerAddr := by
  induction retry with
  | zero =>
      refine Total.bind (command_total hport) fun _ => ?_
      exact Total.bind waitReply_kept fun reply => Total.pure fun _ h => h
  | succ retry ih =>
      refine Total.bind (command_total hport) fun _ => ?_
      refine Total.bind waitReply_kept fun reply => ?_
      exact Total.ite (fun _ => Total.pure fun _ h => h) fun _ => ih

/-- The tracker's ID is not among those that are read from an answer. -/
theorem listClusters_total :
    Total (Kept trackerAddr) (listClusters out (room + 2)) fun ids s =>
      (∀ id ∈ ids, id ≠ trackerClusterId) ∧ s.Kept trackerAddr := by
  refine Total.bind (command_total hport) fun _ => ?_
  refine Total.bind waitReply_kept fun reply => Total.pure fun s hs => ⟨?_, hs⟩
  exact fun id hmem => Commander.ne_zero_of_mem_parseList hmem

theorem getEach_total {ids : List ClusterID} (hids : ∀ id ∈ ids, id ≠ trackerClusterId) :
    Total (Kept trackerAddr) (getEach out (room + 2) ids) fun _ => Kept trackerAddr :=
  Total.forM fun id hmem =>
    Total.bind (getCluster_kept hport (hids id hmem)) fun _ => Total.pure fun _ h => h

theorem getClusters_total : Total (Kept trackerAddr) (getClusters out (room + 2)) fun _ =>
    Kept trackerAddr := by
  refine Total.bind (listClusters_total hport) fun ids => ?_
  rintro s ⟨hids, hs⟩
  refine Total.bind (Q := fun _ => Kept trackerAddr) (getEach_total hport hids) (fun _ => ?_) s hs
  exact Total.pure fun _ h => h

theorem waitClusters_total (nodes : List GraphNode) (rounds : Nat) :
    Total (Kept trackerAddr) (waitClusters out (room + 2) nodes rounds) fun found s =>
      (∀ ids, found = .ok ids → ∀ id ∈ ids, id ≠ trackerClusterId) ∧ s.Kept trackerAddr := by
  induction rounds with
  | zero => exact Total.pure fun s hs => ⟨fun _ h => (nomatch h), hs⟩
  | succ rounds ih =>
      refine Total.bind sleep_total fun _ => ?_
      refine Total.bind (listClusters_total hport) fun ids => ?_
      rintro s ⟨hids, hs⟩
      have hfound : ∀ ids', Except.ok (ε := Outcome) (ids.erase timeServerId) = .ok ids' →
          ∀ id ∈ ids', id ≠ trackerClusterId := by
        rintro ids' ⟨⟩ id hmem
        exact hids id (List.mem_of_mem_erase hmem)
      refine Total.ite (fun _ => ?_) (fun _ => ?_) s hs
      · exact Total.ite (fun _ => ih) fun _ => Total.pure fun _ h => ⟨hfound, h⟩
      · exact Total.pure fun _ h => ⟨fun _ h => (nomatch h), h⟩

theorem issueIds_total (ids : List ClusterID) (nodes : List GraphNode) :
    Total (Kept trackerAddr) (issueIds out (room + 2) ids nodes) fun _ => Kept trackerAddr := by
  induction ids generalizing nodes with
  | nil => exact Total.pure fun _ h => h
  | cons oldId ids ih =>
      cases nodes with
      | nil => exact Total.pure fun _ h => h
      | cons node nodes =>
          refine Total.bind (retryCommand_total hport _) fun ok => ?_
          exact Total.ite (fun _ => ih nodes) fun _ => Total.pure fun _ h => h

theorem addNodes_total (nodes : List GraphNode) :
    Total (Kept trackerAddr) (addNodes out (room + 2) nodes) fun _ => Kept trackerAddr := by
  refine Total.forM fun node _ => ?_
  refine Total.ite (fun _ => ?_) fun _ => Total.pure fun _ h => h
  exact Total.bind (retryCommand_total hport _) fun _ => Total.pure fun _ h => h

theorem connectEdges_total (edges : List GraphEdge) :
    Total (Kept trackerAddr) (connectEdges out (room + 2) edges) fun _ => Kept trackerAddr := by
  induction edges with
  | nil => exact Total.pure fun _ h => h
  | cons edge edges ih =>
      refine Total.ite (fun _ => ?_) fun _ => ih
      refine Total.bind (retryCommand_total hport _) fun ok => ?_
      exact Total.ite (fun _ => ih) fun _ => Total.pure fun _ h => h

theorem connectNetwork_total (nodes : List GraphNode) (edges : List GraphEdge)
    {ids : List ClusterID} (hids : ∀ id ∈ ids, id ≠ trackerClusterId) :
    Total (Kept trackerAddr) (connectNetwork out (room + 2) nodes edges ids) fun _ =>
      Kept trackerAddr := by
  refine Total.bind (getEach_total hport hids) fun _ => ?_
  refine Total.bind (issueIds_total hport ids nodes) fun failed => ?_
  cases failed with
  | some outcome => exact Total.pure fun _ h => h
  | none =>
      refine Total.bind (forget_total) fun _ => ?_
      refine Total.bind sleep_total fun _ => ?_
      refine Total.bind (getEach_total hport hids) fun _ => ?_
      exact Total.bind (addNodes_total hport nodes) fun _ => connectEdges_total hport edges

theorem createNetwork_total (rounds : Nat) (file : Option (List Char)) :
    Total (Kept trackerAddr) (createNetwork out (room + 2) rounds file) fun _ =>
      Kept trackerAddr := by
  unfold createNetwork
  split
  · exact Total.pure fun _ h => h
  · rename_i nodes edges _
    refine Total.bind (waitClusters_total hport nodes rounds) fun found => ?_
    rintro s ⟨hids, hs⟩
    cases found with
    | error outcome => exact Total.pure (fun _ h => h) s hs
    | ok ids => exact connectNetwork_total hport nodes edges (hids ids rfl) s hs

theorem perform_total {call : ClientCall} (hcall : call ≠ .get trackerClusterId) :
    Total (Kept trackerAddr) (perform out (room + 2) call) fun _ => Kept trackerAddr := by
  cases call with
  | list => exact Total.bind (getClusters_total hport) fun _ => Total.pure fun _ h => h
  | get id =>
      have hid : id ≠ trackerClusterId := fun heq => hcall (congrArg ClientCall.get heq)
      exact Total.bind (getCluster_kept hport hid) fun _ => Total.pure fun _ h => h
  | create rounds file =>
      refine Total.bind (createNetwork_total hport rounds file) fun _ => ?_
      exact Total.bind showReply_total fun _ => Total.pure fun _ h => h
  | command cluster cmd =>
      refine Total.bind (command_total hport) fun _ => ?_
      exact Total.bind showReply_total fun _ => Total.pure fun _ h => h

end Commands

/-- Whatever the answers, every call returns with room for two commands, one of them
to the tracker, and finds the tracker's address where it was put at the start. -/
theorem lookup_returns (out : Outside σ) (trackerAddr : SockAddr)
    (hport : trackerAddr.sin_port ≠ 0) (world : σ) (calls : List ClientCall)
    (hcalls : .get trackerClusterId ∉ calls) (room : Nat) :
    ∃ s, calls.forM (perform out (room + 2)) (new trackerAddr world) = some (⟨⟩, s)
      ∧ s.Kept trackerAddr := by
  have hall : Total (Kept trackerAddr) (calls.forM (perform out (room + 2))) fun _ =>
      Kept trackerAddr :=
    Total.forM fun call hmem => perform_total hport fun heq => hcalls (heq ▸ hmem)
  obtain ⟨⟨⟩, s, hs, hkept⟩ := hall _ (kept_new trackerAddr world)
  exact ⟨s, hs, hkept⟩

/-- The answers are on a list. -/
def scripted : Outside (List (List Char)) where
  write := fun replies _ _ => replies
  waitReply := fun replies => (replies.headD [], replies.tail)
  sleep := fun replies => replies
  localIP := 0
  garbage := fun _ => (0, 0, 0)

/-- The cluster 5 is found at the second attempt, 6 is not found at all, and then the
two are listed. -/
theorem lookup_returns_scripted :
    ∃ s, [.command 5 "INFO".toList, .command 6 "INFO".toList, .list].forM (perform scripted 2)
        (new ⟨7, 8⟩ ["".toList, "POINT 5 1 2".toList, "ACK".toList, "DROP 6".toList,
          "POINT 5 1 2".toList, "".toList, "ACK".toList, "5 6".toList]) = some (⟨⟩, s)
      ∧ s.Kept ⟨7, 8⟩ :=
  lookup_returns scripted ⟨7, 8⟩ (by decide) _ _ (by simp) 0

/-! ## What the recursion comes to -/

/-- The same addresses are known, and the same has happened outside. -/
structure Agrees (c : Commander σ) (s : Client σ) : Prop where
  clusters : s.clusters = c.clusters
  world : s.world = c.world

variable {c : Commander σ}

/-- With the address known in the end, the datagram is sent, otherwise nothing is; an
answer is still to come. -/
theorem command_sent {c' : Commander σ}
    (hrequest : Total (Agrees c)
      (requestInfo (getCluster out (command out room trackerClusterId)) 3 cluster) fun _ =>
        Agrees c') :
    Total (Agrees c) (command out (room + 1) cluster cmd) fun _ =>
      Agrees (if (c'.clusters cluster).sin_port = 0 then c'
        else { c' with world := out.write c'.world (c'.clusters cluster) cmd }) := by
  refine Total.read fun start _ => Total.bind hrequest fun _ => ?_
  refine Total.bind (R := fun _ => Agrees _) ?_ fun _ =>
    Total.bind (Total.change fun s h => ⟨h.clusters, h.world⟩) fun _ => Total.pure fun _ h => h
  refine Total.read fun s hs => ?_
  rw [hs.clusters]
  refine Total.ite (fun hunknown => ?_) fun hknown => ?_
  · rw [if_pos hunknown]
    exact Total.pure fun _ h => h
  · rw [if_neg hknown]
    refine Total.bind (Total.change fun t ht => ⟨ht.clusters, ?_⟩) fun _ => Total.pure fun _ h => h
    show out.write t.world (c'.clusters cluster) cmd = out.write c'.world (c'.clusters cluster) cmd
    rw [ht.world]

/-- Nothing is asked when the address is known. -/
theorem command_known (hknown : (c.clusters cluster).sin_port ≠ 0) :
    Total (Agrees c) (command out (room + 1) cluster cmd) fun _ =>
      Agrees { c with world := out.write c.world (c.clusters cluster) cmd } := by
  have hsent : Total (Agrees c) (command out (room + 1) cluster cmd) fun _ =>
      Agrees (if (c.clusters cluster).sin_port = 0 then c
        else { c with world := out.write c.world (c.clusters cluster) cmd }) := command_sent ?_
  · rwa [if_neg hknown] at hsent
  refine Total.read fun s hs => Total.ite (fun hunknown => ?_) fun _ => Total.pure fun _ h => h
  rw [hs.clusters] at hunknown
  exact absurd hunknown hknown

theorem waitReply_eq : Total (Agrees c) (waitReply out) fun reply s =>
    reply = (out.waitReply c.world).1
      ∧ s.Agrees { c with world := (out.waitReply c.world).2 } := by
  intro s hs
  refine ⟨_, _, rfl, ?_, hs.clusters, ?_⟩
  · rw [hs.world]
  · show (out.waitReply s.world).2 = (out.waitReply c.world).2
    rw [hs.world]

/-- Asking for another cluster leaves the tracker's address as it was. -/
theorem getCluster_tracker (hid : id ≠ trackerClusterId) :
    (c.getCluster out.env id).clusters trackerClusterId = c.clusters trackerClusterId := by
  rw [Commander.getCluster_clusters]
  cases Commander.pointed out.env (c.clusters trackerClusterId) c.world id with
  | none => rfl
  | some addr => exact Function.update_of_ne hid.symm _ _

section Recursion

variable (hport : (c.clusters trackerClusterId).sin_port ≠ 0)
include hport

theorem getCluster_eq :
    Total (Agrees c) (getCluster out (command out (room + 1) trackerClusterId) id) fun _ =>
      Agrees (c.getCluster out.env id) := by
  refine Total.read fun start hstart => ?_
  refine Total.bind (command_known hport) fun _ => Total.bind waitReply_eq fun reply => ?_
  rintro s ⟨hreply, hs⟩
  have hpoint : Commander.readPoint out.env (out.garbage start.world)
      (s.clusters trackerClusterId) id reply
        = Commander.pointed out.env (c.clusters trackerClusterId) c.world id := by
    rw [hreply, hs.clusters, hstart.world]
    rfl
  have hworld : (c.getCluster out.env id).world = _ := Commander.getCluster_world
  have hclusters : (c.getCluster out.env id).clusters = _ := Commander.getCluster_clusters
  refine Total.read (P := fun t => t = s) (fun a ha => ?_) s rfl
  rw [ha, hpoint]
  cases hpointed : Commander.pointed out.env (c.clusters trackerClusterId) c.world id with
  | none =>
      rw [hpointed] at hclusters
      refine Total.pure fun t ht => ⟨?_, ?_⟩
      · rw [ht, hs.clusters, hclusters]
      · rw [ht, hs.world, hworld]
        rfl
  | some addr =>
      rw [hpointed] at hclusters
      refine Total.bind (R := fun _ => Agrees (c.getCluster out.env id)) ?_ fun _ =>
        Total.pure fun _ h => h
      refine Total.change fun t ht => ⟨?_, ?_⟩
      · rw [hclusters, hs.clusters]
      · show t.world = _
        rw [ht, hs.world, hworld]
        rfl

theorem requestInfo_eq (n : Nat) :
    Total (Agrees c) (requestInfo (getCluster out (command out (room + 1) trackerClusterId)) n
      cluster) fun _ => Agrees (Commander.requestInfo out.env n c cluster) := by
  induction n generalizing c with
  | zero => exact Total.pure fun _ h => h
  | succ n ih =>
      rw [Commander.requestInfo]
      refine Total.read fun s hs => ?_
      rw [hs.clusters]
      refine Total.ite (fun hunknown => ?_) fun hknown => ?_
      · rw [if_pos hunknown]
        refine Total.bind (getCluster_eq hport) fun _ => ih ?_
        rw [getCluster_tracker fun heq => hport (heq ▸ hunknown)]
        exact hport
      · rw [if_neg hknown]
        exact Total.pure fun _ h => h

/-- A command, and the wait for an answer, whether it was sent or not. -/
theorem command_eq :
    Total (Agrees c) (do let _ ← command out (room + 2) cluster cmd; waitReply out) fun reply s =>
      reply = (c.command out.env cluster cmd).1 ∧ s.Agrees (c.command out.env cluster cmd).2 := by
  refine Total.bind (command_sent (requestInfo_eq hport 3)) fun _ => ?_
  rw [Commander.command]
  split
  · exact Total.conseq waitReply_eq (fun _ h => h) fun _ _ h => ⟨h.1, h.2.clusters, h.2.world⟩
  · exact Total.conseq waitReply_eq (fun _ h => h) fun _ _ h => ⟨h.1, h.2.clusters, h.2.world⟩

end Recursion

end Client

end DistributAr
