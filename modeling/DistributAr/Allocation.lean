/-
# `DistributAr.Allocation` — one cluster for each node?

`createNetwork` waits until the tracker lists clusters enough, takes the time
server off the list and issues the IDs of the nodes, one to each cluster on the
list.  That there is a time server on the list, that there are no more clusters
than nodes, and that no cluster is listed twice are left to the tracker.  And a cluster
that nobody can find counts as renamed if an `ACK` comes in while the client waits for
the answer to a command that it did not send.

`allocates_iff` says for which files and which lists the allocation is one to
one, whatever else happens on a network on which only some texts can come late.
-/
import DistributAr.Commander

namespace DistributAr

open Lib

/-- An environment in which the tracker's answers to `LIST` are given. -/
def Env.withLists {σ : Type} (env : Env σ) (lists : Nat → List Char) : Env (Nat × σ) where
  exchange w addr cmd :=
    if cmd = Command.list.text then (lists w.1, (w.1 + 1, w.2))
    else
      let (reply, w') := env.exchange w.2 addr cmd
      (reply, (w.1, w'))
  wait w :=
    let (reply, w') := env.wait w.2
    (reply, (w.1, w'))
  sleep w := (w.1, env.sleep w.2)
  localIP := env.localIP
  garbage w := env.garbage w.2

/-- Commands, each of them sent once or several times in a row. -/
inductive Repeated {α : Type} : List α → List α → Prop
  | nil : Repeated [] []
  | cons (x : α) (times : Nat) {xs ys : List α} :
      Repeated xs ys → Repeated (x :: xs) (List.replicate (times + 1) x ++ ys)

theorem Repeated.length_le {α : Type} {xs ys : List α} (h : Repeated xs ys) :
    xs.length ≤ ys.length := by
  induction h with
  | nil => exact le_refl _
  | cons x times _ ih =>
      rw [List.length_cons, List.length_append, List.length_replicate]
      omega

/-- As many commands as were meant: each was sent once. -/
theorem Repeated.eq_of_length {α : Type} {xs ys : List α} (h : Repeated xs ys)
    (hlen : ys.length ≤ xs.length) : xs = ys := by
  induction h with
  | nil => rfl
  | cons x times hrest ih =>
      have hle := hrest.length_le
      rw [List.length_cons, List.length_append, List.length_replicate] at hlen
      obtain rfl : times = 0 := by omega
      rw [ih (by omega)]
      rfl

namespace Commander

variable {σ : Type}

/-- What was sent to clusters. -/
def clusterCommands (sent : List (Sent σ)) : List (ClusterID × List Char) :=
  (sent.filter fun e => e.cluster ≠ trackerClusterId).map fun e => (e.cluster, e.cmd)

/-- Each node's ID has been issued once, each to another one of the listed
clusters, never to the time server, and nothing else was sent to any cluster. -/
def OneToOne (nodes : List GraphNode) (listed : List ClusterID)
    (cmds : List (ClusterID × List Char)) : Prop :=
  ∃ olds : List ClusterID, olds.length = nodes.length ∧ olds.Nodup
    ∧ (∀ id ∈ olds, id ∈ listed ∧ id ≠ timeServerId)
    ∧ Repeated (List.zipWith (fun old node => (old, (Reply.run node.id).text)) olds nodes) cmds

/-- A client that has sent nothing reads nothing, or a text that comes late. -/
def ReadsLate (late : List Char → Prop) (env : Env σ) : Prop :=
  ∀ w, (env.wait w).1 = [] ∨ late (env.wait w).1

/-- In all circumstances with these lists and these late texts: `createNetwork` stays
within `ids` and `nodes`, and when the clusters have been renamed the allocation is one
to one. -/
def Allocates (file : Option (List Char)) (lists : Nat → List Char) (late : List Char → Prop) :
    Prop :=
  ∀ (σ : Type) (env : Env σ) (w : σ) (trackerAddr : SockAddr) (rounds : Nat), ReadsLate late env →
    let start := Commander.new trackerAddr (0, w)
    let result := start.createNetwork (env.withLists lists) rounds file
    result.1 ≠ .eraseEnd ∧ result.1 ≠ .nodesEnd
      ∧ ∀ nodes edges ids s, GraphIO.parse file = some (nodes, edges) →
        start.renameClusters (env.withLists lists) rounds nodes = (.ok ids, s) →
        OneToOne nodes (parseList (lists (s.world.1 - 1))) (clusterCommands s.sent)

/-- The clusters that round `k` of the waiting loop finds. -/
def found (lists : Nat → List Char) (k : Nat) : List ClusterID :=
  (parseList (lists k)).erase timeServerId

/-- The waiting loop comes to round `k`: so far there was a time server each time,
and not enough clusters. -/
def Reached (nodes : List GraphNode) (lists : Nat → List Char) (k : Nat) : Prop :=
  ∀ j < k, timeServerId ∈ parseList (lists j) ∧ (found lists j).length < nodes.length

/-- Every list that the loop comes to has a time server on it, and the one it
ends with has exactly one cluster for each node, all different, and no second
time server. -/
def ListsFit (nodes : List GraphNode) (lists : Nat → List Char) : Prop :=
  ∀ k, Reached nodes lists k → timeServerId ∈ parseList (lists k)
    ∧ (nodes.length ≤ (found lists k).length → (found lists k).length = nodes.length
      ∧ (found lists k).Nodup ∧ timeServerId ∉ found lists k)

/-- No `ACK` comes late, or there is no node whose ID could be issued when the waiting
loop ends. -/
def Unissued (nodes : List GraphNode) (lists : Nat → List Char) (late : List Char → Prop) : Prop :=
  late "ACK".toList → ∀ k, Reached nodes lists k → nodes.length ≤ (found lists k).length →
    nodes = []

/-! ## What is sent -/

variable {env : Env σ} {lists : Nat → List Char} {nodes : List GraphNode}

/-- Nothing was sent to a cluster, and no list was asked for. -/
def Quiet (s t : Commander (Nat × σ)) : Prop :=
  clusterCommands t.sent = clusterCommands s.sent ∧ t.world.1 = s.world.1

theorem Quiet.refl (s : Commander (Nat × σ)) : Quiet s s := ⟨rfl, rfl⟩

theorem Quiet.trans {s t u : Commander (Nat × σ)} (h : Quiet s t) (h' : Quiet t u) : Quiet s u :=
  ⟨h'.1.trans h.1, h'.2.trans h.2⟩

theorem clusterCommands_tracker (sent : List (Sent σ)) {e : Sent σ}
    (he : e.cluster = trackerClusterId) : clusterCommands (sent ++ [e]) = clusterCommands sent := by
  simp [clusterCommands, he]

theorem clusterCommands_cluster (sent : List (Sent σ)) {e : Sent σ}
    (he : e.cluster ≠ trackerClusterId) :
    clusterCommands (sent ++ [e]) = clusterCommands sent ++ [(e.cluster, e.cmd)] := by
  simp [clusterCommands, he]

theorem withLists_exchange_world {w : Nat × σ} {addr : SockAddr} {cmd : List Char}
    (h : cmd ≠ Command.list.text) : ((env.withLists lists).exchange w addr cmd).2.1 = w.1 := by
  simp [Env.withLists, h]

theorem get_text_ne_list (id : ClusterID) : (Command.get id).text ≠ Command.list.text := by
  intro h
  exact absurd (congrArg List.head? h) (show some 'G' ≠ some 'L' by decide)

theorem run_text_ne_list (id : ClusterID) : (Reply.run id).text ≠ Command.list.text := by
  intro h
  exact absurd (congrArg List.head? h) (show some 'R' ≠ some 'L' by decide)

variable (env lists)

theorem quiet_getCluster (s : Commander (Nat × σ)) (id : ClusterID) :
    Quiet s (s.getCluster (env.withLists lists) id) := by
  constructor
  · rw [getCluster_sent]
    exact clusterCommands_tracker _ rfl
  · rw [getCluster_world]
    exact withLists_exchange_world (get_text_ne_list id)

theorem quiet_getClusters (ids : List ClusterID) (s : Commander (Nat × σ)) :
    Quiet s (s.getClusters (env.withLists lists) ids) := by
  induction ids generalizing s with
  | nil => exact .refl s
  | cons id ids ih => exact (quiet_getCluster env lists s id).trans (ih _)

theorem quiet_requestInfo (i : Nat) (s : Commander (Nat × σ)) (cluster : ClusterID) :
    Quiet s (requestInfo (env.withLists lists) i s cluster) := by
  induction i generalizing s with
  | zero => exact .refl s
  | succ i ih =>
      unfold requestInfo
      split
      · exact (quiet_getCluster env lists s cluster).trans (ih _)
      · exact .refl s

/-- A command was sent some number of times and nothing else was; if it was
acknowledged then it was sent at all. -/
structure Tried (cluster : ClusterID) (cmd : List Char) (s t : Commander (Nat × σ))
    (acked : Prop) : Prop where
  world : t.world.1 = s.world.1
  sent : ∃ times, clusterCommands t.sent
      = clusterCommands s.sent ++ List.replicate times (cluster, cmd)
    ∧ (acked → 0 < times)

theorem Tried.trans {cluster : ClusterID} {cmd : List Char} {s t u : Commander (Nat × σ)}
    {p q : Prop} (h : Tried cluster cmd s t p) (h' : Tried cluster cmd t u q) :
    Tried cluster cmd s u q := by
  obtain ⟨m, hm, -⟩ := h.sent
  obtain ⟨n, hn, hq⟩ := h'.sent
  refine ⟨h'.world.trans h.world, m + n, ?_, ?_⟩
  · rw [hn, hm, List.append_assoc, List.replicate_append_replicate]
  · intro hacked
    have := hq hacked
    omega

theorem tried_command (hwait : ∀ w, (env.wait w).1 ≠ "ACK".toList) (s : Commander (Nat × σ))
    {cluster : ClusterID} {cmd : List Char} (hcluster : cluster ≠ trackerClusterId)
    (hcmd : cmd ≠ Command.list.text) :
    Tried cluster cmd s (s.command (env.withLists lists) cluster cmd).2
      ((s.command (env.withLists lists) cluster cmd).1 = "ACK".toList) := by
  have hquiet := quiet_requestInfo env lists 3 s cluster
  unfold command
  dsimp only
  split
  · exact ⟨hquiet.2, 0, by simpa [wait] using hquiet.1, fun hack => absurd hack (hwait _)⟩
  · refine ⟨(withLists_exchange_world hcmd).trans hquiet.2, 1, ?_, fun _ => Nat.one_pos⟩
    rw [exchange_sent, clusterCommands_cluster _ hcluster, hquiet.1]
    rfl

theorem tried_retryCommand (hwait : ∀ w, (env.wait w).1 ≠ "ACK".toList) (retry : Nat)
    (s : Commander (Nat × σ)) {cluster : ClusterID} {cmd : List Char}
    (hcluster : cluster ≠ trackerClusterId) (hcmd : cmd ≠ Command.list.text) :
    Tried cluster cmd s (retryCommand (env.withLists lists) retry s cluster cmd).2
      ((retryCommand (env.withLists lists) retry s cluster cmd).1 = true) := by
  induction retry generalizing s with
  | zero =>
      have hfirst := tried_command env lists hwait s hcluster hcmd
      unfold retryCommand
      exact ⟨hfirst.world, by simpa using hfirst.sent⟩
  | succ retry ih =>
      have hfirst := tried_command env lists hwait s hcluster hcmd
      unfold retryCommand
      dsimp only
      split
      · rename_i hack
        obtain ⟨times, htimes, hpos⟩ := hfirst.sent
        exact ⟨hfirst.world, times, htimes, fun _ => hpos hack⟩
      · exact hfirst.trans (ih _)

variable {env lists}

/-- When all IDs have been issued, each was sent to the cluster at its place. -/
theorem issueIds_sent {ids : List ClusterID} {s t : Commander (Nat × σ)}
    (hwait : ids ≠ [] → ∀ w, (env.wait w).1 ≠ "ACK".toList)
    (hids : ∀ id ∈ ids, id ≠ trackerClusterId)
    (h : issueIds (env.withLists lists) ids nodes s = (.ok (), t)) :
    ids.length ≤ nodes.length ∧ t.world.1 = s.world.1
      ∧ ∃ cmds, clusterCommands t.sent = clusterCommands s.sent ++ cmds
        ∧ Repeated (List.zipWith (fun old node => (old, (Reply.run node.id).text)) ids nodes)
            cmds := by
  induction ids generalizing nodes s with
  | nil =>
      cases h
      exact ⟨Nat.zero_le _, rfl, [], (List.append_nil _).symm, .nil⟩
  | cons old ids ih =>
      cases nodes with
      | nil => cases h
      | cons node nodes =>
          have hlate := hwait (List.cons_ne_nil _ _)
          have htried := tried_retryCommand env lists hlate commandRetryCount s
            (hids old List.mem_cons_self) (run_text_ne_list node.id)
          unfold issueIds commandWithRetry at h
          dsimp only at h
          split at h
          · rename_i hok
            obtain ⟨hlen, hworld, cmds, hsent, hrep⟩ :=
              ih (fun _ => hlate) (fun id hid => hids id (List.mem_cons_of_mem _ hid)) h
            obtain ⟨times, htimes, hpos⟩ := htried.sent
            obtain ⟨k, rfl⟩ := Nat.exists_eq_add_of_lt (hpos hok)
            refine ⟨Nat.succ_le_succ hlen, hworld.trans htried.world, _, ?_,
              hrep.cons (old, (Reply.run node.id).text) k⟩
            rw [hsent, htimes, List.append_assoc, Nat.zero_add]
          · cases h

/-- IDs are issued beyond the nodes only when there are more clusters than nodes. -/
theorem issueIds_error {ids : List ClusterID} {s t : Commander σ} {env : Env σ}
    {outcome : Outcome} (h : issueIds env ids nodes s = (.error outcome, t)) :
    outcome = .runFailed ∨ outcome = .nodesEnd ∧ nodes.length < ids.length := by
  induction ids generalizing nodes s with
  | nil => cases h
  | cons old ids ih =>
      cases nodes with
      | nil =>
          cases h
          exact .inr ⟨rfl, Nat.succ_pos _⟩
      | cons node nodes =>
          unfold issueIds at h
          dsimp only at h
          split at h
          · exact (ih h).imp_right fun hend => ⟨hend.1, Nat.succ_lt_succ hend.2⟩
          · cases h
            exact .inl rfl

/-! ## The waiting loop -/

/-- The state after another round of the waiting loop. -/
def listed (env : Env σ) (s : Commander σ) : Commander σ := ((s.sleep env).listClusters env).2

variable (env lists) in
theorem listed_sent (s : Commander (Nat × σ)) :
    clusterCommands (listed (env.withLists lists) s).sent = clusterCommands s.sent
      ∧ (listed (env.withLists lists) s).world.1 = s.world.1 + 1 := by
  constructor
  · exact clusterCommands_tracker _ rfl
  · show ((env.withLists lists).exchange (s.world.1, env.sleep s.world.2)
      (s.clusters trackerClusterId) Command.list.text).2.1 = _
    simp [Env.withLists]

theorem waitClusters_succ (rounds : Nat) (s : Commander (Nat × σ)) :
    waitClusters (env.withLists lists) nodes (rounds + 1) s
      = if timeServerId ∈ parseList (lists s.world.1) then
          if (found lists s.world.1).length < nodes.length then
            waitClusters (env.withLists lists) nodes rounds (listed (env.withLists lists) s)
          else (.ok (found lists s.world.1), listed (env.withLists lists) s)
        else (.error .eraseEnd, listed (env.withLists lists) s) := by
  have hlist : ((s.sleep (env.withLists lists)).listClusters (env.withLists lists)).1
      = parseList (lists s.world.1) := by
    show parseList ((env.withLists lists).exchange (s.world.1, env.sleep s.world.2)
      (s.clusters trackerClusterId) Command.list.text).1 = _
    simp [Env.withLists]
  rw [waitClusters]
  dsimp only
  rw [hlist]
  rfl

theorem Reached.succ {k : Nat} (hk : Reached nodes lists k)
    (htime : timeServerId ∈ parseList (lists k))
    (hshort : (found lists k).length < nodes.length) : Reached nodes lists (k + 1) := by
  intro j hj
  rcases Nat.lt_succ_iff_lt_or_eq.mp hj with hlt | rfl
  · exact hk j hlt
  · exact ⟨htime, hshort⟩

/-- How the waiting loop ends. -/
theorem waitClusters_cases (rounds : Nat) {s t : Commander (Nat × σ)}
    {result : Except Outcome (List ClusterID)} (hs : Reached nodes lists s.world.1)
    (h : waitClusters (env.withLists lists) nodes rounds s = (result, t)) :
    result = .error .waiting
      ∨ ∃ k, Reached nodes lists k ∧ (timeServerId ∉ parseList (lists k) ∧ result = .error .eraseEnd
        ∨ result = .ok (found lists k) ∧ nodes.length ≤ (found lists k).length
          ∧ clusterCommands t.sent = clusterCommands s.sent ∧ t.world.1 = k + 1) := by
  induction rounds generalizing s with
  | zero =>
      cases h
      exact .inl rfl
  | succ rounds ih =>
      obtain ⟨hsent, hworld⟩ := listed_sent env lists s
      rw [waitClusters_succ] at h
      split at h
      · rename_i htime
        split at h
        · rename_i hshort
          have hnext : Reached nodes lists (listed (env.withLists lists) s).world.1 :=
            hworld ▸ hs.succ htime hshort
          rcases ih hnext h with hwait | ⟨k, hk, hend | ⟨hok, hlen, hsame, hk'⟩⟩
          · exact .inl hwait
          · exact .inr ⟨k, hk, .inl hend⟩
          · exact .inr ⟨k, hk, .inr ⟨hok, hlen, hsame.trans hsent, hk'⟩⟩
        · rename_i henough
          cases h
          exact .inr ⟨_, hs, .inr ⟨rfl, Nat.not_lt.mp henough, hsent, hworld⟩⟩
      · rename_i htime
        cases h
        exact .inr ⟨_, hs, .inl ⟨htime, rfl⟩⟩

variable (env) in
/-- What becomes of a round that the loop comes to, if it may go no further. -/
theorem waitClusters_reached {k : Nat} (hk : Reached nodes lists k) (rounds : Nat)
    (s : Commander (Nat × σ)) (hs : s.world.1 + rounds = k) :
    ∃ t : Commander (Nat × σ), clusterCommands t.sent = clusterCommands s.sent
      ∧ t.clusters = s.clusters
      ∧ waitClusters (env.withLists lists) nodes (rounds + 1) s
        = if timeServerId ∈ parseList (lists k) then
            if (found lists k).length < nodes.length then (.error .waiting, t)
            else (.ok (found lists k), t)
          else (.error .eraseEnd, t) := by
  induction rounds generalizing s with
  | zero =>
      obtain rfl : s.world.1 = k := hs
      exact ⟨listed (env.withLists lists) s, (listed_sent env lists s).1, rfl,
        waitClusters_succ 0 s⟩
  | succ rounds ih =>
      obtain ⟨hsent, hworld⟩ := listed_sent env lists s
      obtain ⟨htime, hshort⟩ := hk s.world.1 (by omega)
      obtain ⟨t, hsame, hclusters, hrun⟩ := ih (listed (env.withLists lists) s) (by omega)
      refine ⟨t, hsame.trans hsent, hclusters, ?_⟩
      rw [waitClusters_succ, if_pos htime, if_pos hshort, hrun]

/-! ## A network on which all goes well -/

/-- Every cluster can be reached and acknowledges every command. -/
def ackEnv : Env Unit where
  exchange _ _ cmd :=
    match Command.parse 0 cmd with
    | some (.get id) => ((Reply.point id ⟨1, 1⟩).text, ())
    | _ => ("ACK".toList, ())
  wait _ := ([], ())
  sleep w := w
  localIP := 0
  garbage _ := (0, 0, 0)

/-- One in which nobody is to be found and nothing is answered, but for the `ACK`s that
come late. -/
def lateEnv : Env Unit where
  exchange _ _ _ := ([], ())
  wait _ := ("ACK".toList, ())
  sleep w := w
  localIP := 0
  garbage _ := (0, 0, 0)

theorem parse_run_text (id : ClusterID) : Command.parse 0 (Reply.run id).text = none := by
  obtain ⟨hword, -⟩ := Reply.read_run id
  rw [Command.parse]
  dsimp only
  rw [hword]
  rfl

variable (lists)

theorem pointed_ackEnv (trackerAddr : SockAddr) (w : Nat × Unit) (id : ClusterID) :
    ∃ ip, pointed (ackEnv.withLists lists) trackerAddr w id = some ⟨ip, 1⟩ := by
  have hreply : ((ackEnv.withLists lists).exchange w trackerAddr (Command.get id).text).1
      = (Reply.point id ⟨1, 1⟩).text := by
    simp only [Env.withLists, if_neg (get_text_ne_list id), ackEnv, Command.parse_text]
  rw [pointed, hreply, readPoint_text, if_pos rfl]
  exact ⟨_, rfl⟩

theorem requestInfo_ackEnv (s : Commander (Nat × Unit)) (cluster : ClusterID) :
    ((requestInfo (ackEnv.withLists lists) 3 s cluster).clusters cluster).sin_port ≠ 0 := by
  unfold requestInfo
  split
  · have hport : ((s.getCluster (ackEnv.withLists lists) cluster).clusters cluster).sin_port
        = 1 := by
      obtain ⟨ip, hip⟩ :=
        pointed_ackEnv lists (s.clusters trackerClusterId) s.world cluster
      rw [getCluster_clusters, hip]
      simp
    unfold requestInfo
    rw [hport, if_neg (by decide), hport]
    decide
  · assumption

/-- On such a network a command is sent once. -/
theorem commandWithRetry_ackEnv (s : Commander (Nat × Unit)) {cluster : ClusterID}
    (hcluster : cluster ≠ trackerClusterId) (id : ClusterID) :
    let t := s.commandWithRetry (ackEnv.withLists lists) cluster (Reply.run id).text
    t.1 = true
      ∧ clusterCommands t.2.sent = clusterCommands s.sent ++ [(cluster, (Reply.run id).text)] := by
  have hquiet := quiet_requestInfo ackEnv lists 3 s cluster
  have hcommand : s.command (ackEnv.withLists lists) cluster (Reply.run id).text
      = (requestInfo (ackEnv.withLists lists) 3 s cluster).exchange (ackEnv.withLists lists) cluster
        ((requestInfo (ackEnv.withLists lists) 3 s cluster).clusters cluster)
        (Reply.run id).text :=
    if_neg (requestInfo_ackEnv lists s cluster)
  have hack : (s.command (ackEnv.withLists lists) cluster (Reply.run id).text).1
      = "ACK".toList := by
    rw [hcommand, exchange_reply]
    simp only [Env.withLists, if_neg (run_text_ne_list id), ackEnv, parse_run_text]
  have hsent : clusterCommands
      (s.command (ackEnv.withLists lists) cluster (Reply.run id).text).2.sent
        = clusterCommands s.sent ++ [(cluster, (Reply.run id).text)] := by
    rw [hcommand, exchange_sent, clusterCommands_cluster _ hcluster, hquiet.1]
  unfold commandWithRetry commandRetryCount retryCommand
  dsimp only
  rw [if_pos hack]
  exact ⟨rfl, hsent⟩

theorem issueIds_ackEnv {ids : List ClusterID} (nodes : List GraphNode) (s : Commander (Nat × Unit))
    (hids : ∀ id ∈ ids, id ≠ trackerClusterId) :
    (nodes.length < ids.length →
      (issueIds (ackEnv.withLists lists) ids nodes s).1 = .error .nodesEnd)
      ∧ (ids.length ≤ nodes.length →
        ∃ t, issueIds (ackEnv.withLists lists) ids nodes s = (.ok (), t)
          ∧ clusterCommands t.sent = clusterCommands s.sent
            ++ List.zipWith (fun old node => (old, (Reply.run node.id).text)) ids nodes) := by
  induction ids generalizing nodes s with
  | nil =>
      exact ⟨fun h => absurd h (Nat.not_lt_zero _), fun _ => ⟨s, rfl, (List.append_nil _).symm⟩⟩
  | cons old ids ih =>
      cases nodes with
      | nil => exact ⟨fun _ => rfl, fun h => absurd h (Nat.not_succ_le_zero _)⟩
      | cons node nodes =>
          obtain ⟨hack, hsent⟩ := commandWithRetry_ackEnv lists s
            (hids old List.mem_cons_self) node.id
          obtain ⟨hmore, hfit⟩ := ih nodes
            (s.commandWithRetry (ackEnv.withLists lists) old (Reply.run node.id).text).2
            fun id hid => hids id (List.mem_cons_of_mem _ hid)
          have hissue : issueIds (ackEnv.withLists lists) (old :: ids) (node :: nodes) s
              = issueIds (ackEnv.withLists lists) ids nodes
                (s.commandWithRetry (ackEnv.withLists lists) old (Reply.run node.id).text).2 := by
            rw [issueIds]
            dsimp only
            rw [if_pos hack]
          rw [hissue]
          refine ⟨fun h => hmore (Nat.lt_of_succ_lt_succ h), ?_⟩
          intro h
          obtain ⟨t, ht, hcmds⟩ := hfit (Nat.le_of_succ_le_succ h)
          refine ⟨t, ht, ?_⟩
          rw [hcmds, hsent, List.append_assoc]
          rfl

variable {lists}

/-! ## The allocation -/

theorem found_ne_tracker {k : Nat} : ∀ id ∈ found lists k, id ≠ trackerClusterId :=
  fun _ hid => ne_zero_of_mem_parseList (List.mem_of_mem_erase hid)

theorem connectEdges_outcome {env : Env σ} (edges : List GraphEdge) (s : Commander σ) :
    (connectEdges env edges s).1 = .running ∨ (connectEdges env edges s).1 = .connectFailed := by
  induction edges generalizing s with
  | nil => exact .inl rfl
  | cons edge edges ih =>
      unfold connectEdges
      dsimp only
      split
      · split
        · exact ih _
        · exact .inr rfl
      · exact ih _

/-- `createNetwork` ends as the renaming does, if that fails. -/
theorem createNetwork_error {env : Env σ} {rounds : Nat} {file : Option (List Char)}
    {edges : List GraphEdge} {s : Commander σ} (outcome : Outcome)
    (hparse : GraphIO.parse file = some (nodes, edges))
    (hrename : (s.renameClusters env rounds nodes).1 = .error outcome) :
    (s.createNetwork env rounds file).1 = outcome := by
  unfold createNetwork
  rw [hparse]
  dsimp only
  rcases h : s.renameClusters env rounds nodes with ⟨result, t⟩
  rw [h] at hrename
  dsimp only at hrename
  rw [hrename]

/-- After the renaming nothing is erased and `nodes` is not indexed any more. -/
theorem createNetwork_outcome {env : Env σ} {rounds : Nat} {file : Option (List Char)}
    {edges : List GraphEdge} {s t : Commander σ} {result : Except Outcome (List ClusterID)}
    (hparse : GraphIO.parse file = some (nodes, edges))
    (hrename : s.renameClusters env rounds nodes = (result, t)) :
    result = .error (s.createNetwork env rounds file).1
      ∨ ∀ outcome, outcome ≠ .running → outcome ≠ .connectFailed →
        (s.createNetwork env rounds file).1 ≠ outcome := by
  cases result with
  | error outcome =>
      left
      rw [createNetwork_error outcome hparse (by rw [hrename])]
  | ok ids =>
      right
      intro outcome hrunning hfailed
      unfold createNetwork connectNetwork
      rw [hparse]
      dsimp only
      rw [hrename]
      dsimp only
      rcases connectEdges_outcome edges ((t.refresh env ids).addNodes env nodes) with h | h
      · exact fun heq => hrunning (heq.symm.trans h)
      · exact fun heq => hfailed (heq.symm.trans h)

theorem reached_zero : Reached nodes lists 0 := fun j hj => absurd hj (Nat.not_lt_zero j)

/-- How the renaming of the clusters ends when the lists fit. -/
theorem renameClusters_fit {late : List Char → Prop} (henv : ReadsLate late env)
    (hfit : ListsFit nodes lists) (hlate : Unissued nodes lists late) (rounds : Nat)
    (trackerAddr : SockAddr) (w : σ) {result : Except Outcome (List ClusterID)}
    {s : Commander (Nat × σ)}
    (h : (Commander.new trackerAddr (0, w)).renameClusters (env.withLists lists) rounds nodes
      = (result, s)) :
    result ≠ .error .eraseEnd ∧ result ≠ .error .nodesEnd
      ∧ ∀ ids, result = .ok ids →
        OneToOne nodes (parseList (lists (s.world.1 - 1))) (clusterCommands s.sent) := by
  unfold renameClusters at h
  rcases hwait : waitClusters (env.withLists lists) nodes rounds
    (Commander.new trackerAddr (0, w)) with ⟨waited, t⟩
  rw [hwait] at h
  rcases waitClusters_cases rounds reached_zero hwait with rfl | ⟨k, hk, hend⟩
  · cases h
    exact ⟨by simp, by simp, fun _ h => nomatch h⟩
  · obtain ⟨htime, hlist⟩ := hfit k hk
    rcases hend with ⟨hnot, -⟩ | ⟨rfl, henough, hsent, hworld⟩
    · exact absurd htime hnot
    · obtain ⟨hlen, hnodup, honce⟩ := hlist henough
      rcases hissue : issueIds (env.withLists lists) (found lists k) nodes
        (t.getClusters (env.withLists lists) (found lists k)) with ⟨issued, u⟩
      dsimp only at h
      rw [hissue] at h
      cases issued with
      | error outcome =>
          cases h
          rcases issueIds_error hissue with rfl | ⟨-, hmore⟩
          · exact ⟨by simp, by simp, fun _ h => nomatch h⟩
          · omega
      | ok v =>
          cases h
          have hwait : found lists k ≠ [] → ∀ w, (env.wait w).1 ≠ "ACK".toList := by
            intro hne w hack
            rcases henv w with hsilent | htext
            · exact absurd (hsilent.symm.trans hack) (by decide)
            · have hnodes := hlate (hack ▸ htext) k hk henough
              rw [hnodes] at hlen
              exact hne (List.length_eq_zero_iff.mp hlen)
          obtain ⟨-, hworld', cmds, hcmds, hrep⟩ := issueIds_sent hwait found_ne_tracker hissue
          have hquiet := quiet_getClusters env lists (found lists k) t
          refine ⟨by simp, by simp, fun ids _ => ⟨found lists k, hlen, hnodup, ?_, ?_⟩⟩
          · intro id hid
            rw [hworld', hquiet.2, hworld]
            exact ⟨List.mem_of_mem_erase hid, fun heq => honce (heq ▸ hid)⟩
          · rw [hcmds, hquiet.1, hsent]
            exact hrep

variable (env) in
/-- How it goes on in a round that the waiting loop comes to: without a time server on
the list it has ended, and with clusters enough their IDs are issued. -/
theorem renameClusters_reached {k : Nat} (hk : Reached nodes lists k) (trackerAddr : SockAddr)
    (w : σ) : ∃ t : Commander (Nat × σ), clusterCommands t.sent = []
      ∧ t.clusters = (Commander.new trackerAddr (0, w)).clusters
      ∧ let result := (Commander.new trackerAddr (0, w)).renameClusters (env.withLists lists)
          (k + 1) nodes
        (timeServerId ∉ parseList (lists k) → result.1 = .error .eraseEnd)
          ∧ (timeServerId ∈ parseList (lists k) → nodes.length ≤ (found lists k).length →
            result = match issueIds (env.withLists lists) (found lists k) nodes
                (t.getClusters (env.withLists lists) (found lists k)) with
              | (.error outcome, s) => (.error outcome, s)
              | (.ok _, s) => (.ok (found lists k), s)) := by
  obtain ⟨t, hsent, hclusters, hwait⟩ := waitClusters_reached env hk k
    (Commander.new trackerAddr (0, w)) (Nat.zero_add k)
  refine ⟨t, hsent, hclusters, ?_, ?_⟩
  · intro htime
    rw [renameClusters, hwait, if_neg htime]
  · intro htime henough
    rw [renameClusters, hwait, if_pos htime, if_neg (Nat.not_lt.mpr henough)]
    dsimp only
    rcases issueIds (env.withLists lists) (found lists k) nodes
      (t.getClusters (env.withLists lists) (found lists k)) with ⟨error | ok, s⟩ <;> rfl

/-- How it ends there when all goes well. -/
theorem renameClusters_ackEnv {k : Nat} (hk : Reached nodes lists k) (trackerAddr : SockAddr) :
    let result := (Commander.new trackerAddr (0, ())).renameClusters (ackEnv.withLists lists)
      (k + 1) nodes
    (timeServerId ∉ parseList (lists k) → result.1 = .error .eraseEnd)
      ∧ (timeServerId ∈ parseList (lists k) → nodes.length < (found lists k).length →
        result.1 = .error .nodesEnd)
      ∧ (timeServerId ∈ parseList (lists k) → (found lists k).length = nodes.length →
        ∃ s, result = (.ok (found lists k), s)
          ∧ clusterCommands s.sent = List.zipWith
            (fun old node => (old, (Reply.run node.id).text)) (found lists k) nodes) := by
  obtain ⟨t, hsent, -, hnotime, hissue⟩ := renameClusters_reached ackEnv hk trackerAddr ()
  have hquiet := quiet_getClusters ackEnv lists (found lists k) t
  obtain ⟨hmore, hfit⟩ := issueIds_ackEnv lists nodes
    (t.getClusters (ackEnv.withLists lists) (found lists k)) found_ne_tracker
  refine ⟨hnotime, ?_, ?_⟩
  · intro htime hlt
    have herror := hmore hlt
    rw [hissue htime hlt.le]
    rcases hissued : issueIds (ackEnv.withLists lists) (found lists k) nodes
      (t.getClusters (ackEnv.withLists lists) (found lists k)) with ⟨issued, u⟩
    rw [hissued] at herror
    dsimp only at herror
    rw [herror]
  · intro htime heq
    obtain ⟨u, hissued, hcmds⟩ := hfit (le_of_eq heq)
    rw [hissue htime heq.ge, hissued]
    refine ⟨u, rfl, ?_⟩
    rw [hcmds, hquiet.1, hsent]
    rfl

/-- Nobody is found: nothing is sent to a cluster. -/
theorem getCluster_lateEnv (s : Commander (Nat × Unit)) (id : ClusterID) :
    (s.getCluster (lateEnv.withLists lists) id).clusters = s.clusters := by
  have hreply : pointed (lateEnv.withLists lists) (s.clusters trackerClusterId) s.world id
      = none := by
    rw [pointed]
    simp only [Env.withLists, if_neg (get_text_ne_list id), lateEnv]
    exact readPoint_nil _ _ _
  rw [getCluster_clusters, hreply]

theorem requestInfo_lateEnv (i : Nat) (s : Commander (Nat × Unit)) (cluster : ClusterID) :
    (requestInfo (lateEnv.withLists lists) i s cluster).clusters = s.clusters := by
  induction i generalizing s with
  | zero => rfl
  | succ i ih =>
      rw [requestInfo]
      split
      · exact (ih _).trans (getCluster_lateEnv s cluster)
      · rfl

theorem getClusters_lateEnv (ids : List ClusterID) (s : Commander (Nat × Unit)) :
    (s.getClusters (lateEnv.withLists lists) ids).clusters = s.clusters := by
  induction ids generalizing s with
  | nil => rfl
  | cons id ids ih => exact (ih _).trans (getCluster_lateEnv s id)

/-- All IDs count as issued. -/
theorem issueIds_lateEnv {ids : List ClusterID} (nodes : List GraphNode)
    (s : Commander (Nat × Unit)) (hids : ∀ id ∈ ids, (s.clusters id).sin_port = 0)
    (hlen : ids.length ≤ nodes.length) :
    ∃ t, issueIds (lateEnv.withLists lists) ids nodes s = (.ok (), t)
      ∧ clusterCommands t.sent = clusterCommands s.sent := by
  induction ids generalizing nodes s with
  | nil => exact ⟨s, rfl, rfl⟩
  | cons old ids ih =>
      cases nodes with
      | nil => exact absurd hlen (Nat.not_succ_le_zero _)
      | cons node nodes =>
          have hquiet := quiet_requestInfo lateEnv lists 3 s old
          have hclusters : (requestInfo (lateEnv.withLists lists) 3 s old).clusters
              = s.clusters := requestInfo_lateEnv 3 s old
          have hcommand : s.command (lateEnv.withLists lists) old (Reply.run node.id).text
              = (requestInfo (lateEnv.withLists lists) 3 s old).wait (lateEnv.withLists lists) := by
            rw [command, hclusters]
            exact if_pos (hids old List.mem_cons_self)
          have hissue : issueIds (lateEnv.withLists lists) (old :: ids) (node :: nodes) s
              = issueIds (lateEnv.withLists lists) ids nodes
                ((requestInfo (lateEnv.withLists lists) 3 s old).wait
                  (lateEnv.withLists lists)).2 := by
            rw [issueIds, commandWithRetry, commandRetryCount, retryCommand, hcommand]
            rfl
          obtain ⟨t, ht, hsent⟩ := ih nodes
            ((requestInfo (lateEnv.withLists lists) 3 s old).wait (lateEnv.withLists lists)).2
            (fun id hid => (congrArg (fun clusters => (clusters id).sin_port) hclusters).trans
              (hids id (List.mem_cons_of_mem _ hid))) (Nat.le_of_succ_le_succ hlen)
          exact ⟨t, hissue.trans ht, hsent.trans hquiet.1⟩

theorem renameClusters_lateEnv {k : Nat} (hk : Reached nodes lists k)
    (htime : timeServerId ∈ parseList (lists k))
    (hlen : (found lists k).length = nodes.length) (trackerAddr : SockAddr) :
    ∃ s, (Commander.new trackerAddr (0, ())).renameClusters (lateEnv.withLists lists) (k + 1) nodes
        = (.ok (found lists k), s) ∧ clusterCommands s.sent = [] := by
  obtain ⟨t, hsent, hclusters, -, hissue⟩ := renameClusters_reached lateEnv hk trackerAddr ()
  have hquiet := quiet_getClusters lateEnv lists (found lists k) t
  have hunknown : ∀ id ∈ found lists k,
      ((t.getClusters (lateEnv.withLists lists) (found lists k)).clusters id).sin_port = 0 := by
    intro id hid
    rw [getClusters_lateEnv, hclusters]
    exact congrArg SockAddr.sin_port (if_neg (found_ne_tracker id hid))
  obtain ⟨u, hissued, hcmds⟩ := issueIds_lateEnv nodes
    (t.getClusters (lateEnv.withLists lists) (found lists k)) hunknown hlen.le
  rw [hissue htime hlen.ge, hissued]
  exact ⟨u, rfl, hcmds.trans (hquiet.1.trans hsent)⟩

/-- An environment that acknowledges everything shows every list that does not fit. -/
theorem listsFit_of_allocates {file : Option (List Char)} {edges : List GraphEdge}
    {late : List Char → Prop} (hall : Allocates file lists late)
    (hparse : GraphIO.parse file = some (nodes, edges)) : ListsFit nodes lists := by
  intro k hk
  obtain ⟨hend, hnodes, honeToOne⟩ := hall Unit ackEnv () ⟨0, 1⟩ (k + 1) fun _ => .inl rfl
  obtain ⟨hnotime, hmore, hfit⟩ := renameClusters_ackEnv hk ⟨0, 1⟩
  have houtcome : ∀ outcome, ((Commander.new ⟨0, 1⟩ (0, ())).renameClusters
      (ackEnv.withLists lists) (k + 1) nodes).1 = .error outcome → _ = outcome :=
    fun outcome => createNetwork_error outcome hparse
  have htime : timeServerId ∈ parseList (lists k) := by
    by_contra hnot
    exact hend (houtcome _ (hnotime hnot))
  refine ⟨htime, ?_⟩
  intro henough
  have hlen : (found lists k).length = nodes.length := by
    by_contra hne
    exact hnodes (houtcome _ (hmore htime (by omega)))
  obtain ⟨s, hrename, hcmds⟩ := hfit htime hlen
  obtain ⟨olds, hcount, hnodup, holds, hrep⟩ := honeToOne nodes edges _ s hparse hrename
  rw [hcmds] at hrep
  have hsame := hrep.eq_of_length (by simp [List.length_zipWith, hcount, hlen])
  have hfound : olds = found lists k := by
    have hzip : ∀ ids : List ClusterID, List.zipWith
        (fun old node => (old, (Reply.run node.id).text)) ids nodes
          = ids.zip (nodes.map fun node => (Reply.run node.id).text) :=
      fun ids => List.zipWith_map_right.symm
    rw [hzip, hzip] at hsame
    have hfst := congrArg (List.map Prod.fst) hsame
    rwa [List.map_fst_zip (by rw [List.length_map, hcount]),
      List.map_fst_zip (by rw [List.length_map, hlen])] at hfst
  rw [← hfound]
  exact ⟨by rw [hfound, hlen], hnodup, fun htwice => (holds _ htwice).2 rfl⟩

/-- One in which every `ACK` is late shows every ID that could be issued. -/
theorem unissued_of_allocates {file : Option (List Char)} {edges : List GraphEdge}
    {late : List Char → Prop} (hall : Allocates file lists late)
    (hparse : GraphIO.parse file = some (nodes, edges)) : Unissued nodes lists late := by
  intro hack k hk henough
  obtain ⟨htime, hlist⟩ := listsFit_of_allocates hall hparse k hk
  obtain ⟨hlen, -, -⟩ := hlist henough
  obtain ⟨-, -, honeToOne⟩ := hall Unit lateEnv () ⟨0, 1⟩ (k + 1) fun _ => .inr hack
  obtain ⟨s, hrename, hcmds⟩ := renameClusters_lateEnv hk htime hlen ⟨0, 1⟩
  obtain ⟨olds, hcount, -, -, hrep⟩ := honeToOne nodes edges _ s hparse hrename
  have hnone := hrep.length_le
  rw [hcmds, List.length_zipWith, hcount, Nat.min_self] at hnone
  exact List.length_eq_zero_iff.mp (Nat.le_zero.mp hnone)

/-- Where the lists fit, the loop neither erases the end nor leaves `nodes`. -/
theorem allocates_of_listsFit {file : Option (List Char)} {edges : List GraphEdge}
    {late : List Char → Prop} (hparse : GraphIO.parse file = some (nodes, edges))
    (hfit : ListsFit nodes lists) (hlate : Unissued nodes lists late) :
    Allocates file lists late := by
  intro σ env w trackerAddr rounds henv
  dsimp only
  rcases hrename : (Commander.new trackerAddr (0, w)).renameClusters (env.withLists lists)
    rounds nodes with ⟨result, s⟩
  obtain ⟨hend, hnodes, hok⟩ := renameClusters_fit henv hfit hlate rounds trackerAddr w hrename
  have houtcome := createNetwork_outcome hparse hrename
  refine ⟨?_, ?_, ?_⟩
  · intro heq
    rcases houtcome with herror | hlast
    · exact hend (by rw [herror, heq])
    · exact absurd heq (hlast .eraseEnd (by decide) (by decide))
  · intro heq
    rcases houtcome with herror | hlast
    · exact hnodes (by rw [herror, heq])
    · exact absurd heq (hlast .nodesEnd (by decide) (by decide))
  · rintro nodes' edges' ids s' hparse' hrename'
    cases hparse.symm.trans hparse'
    rw [hrename] at hrename'
    cases hrename'
    exact hok ids rfl

/-- A file that the parser does not get through is no case of it. -/
theorem allocates_of_parse_eq_none {file : Option (List Char)} {late : List Char → Prop}
    (hparse : GraphIO.parse file = none) : Allocates file lists late := by
  intro σ env w trackerAddr rounds _
  dsimp only
  have hcreate : ((Commander.new trackerAddr (0, w)).createNetwork (env.withLists lists)
      rounds file).1 = .parseUndefined := by
    unfold createNetwork
    rw [hparse]
  rw [hcreate]
  refine ⟨by decide, by decide, ?_⟩
  intro nodes edges ids s hparse'
  rw [hparse] at hparse'
  cases hparse'

/-- The allocation is one to one, whatever else happens, exactly when the lists
fit the nodes of the file and no `ACK` can come late for a node. -/
theorem allocates_iff (file : Option (List Char)) (lists : Nat → List Char)
    (late : List Char → Prop) :
    Allocates file lists late ↔ ∀ nodes edges, GraphIO.parse file = some (nodes, edges) →
      ListsFit nodes lists ∧ Unissued nodes lists late := by
  constructor
  · intro hall nodes edges hparse
    exact ⟨listsFit_of_allocates hall hparse, unissued_of_allocates hall hparse⟩
  · intro hfit
    cases hparse : GraphIO.parse file with
    | none => exact allocates_of_parse_eq_none hparse
    | some graph =>
        obtain ⟨hlists, hlate⟩ := hfit _ _ hparse
        exact allocates_of_listsFit hparse hlists hlate

/-- Two clusters and the time server for a graph of one node: the loop that issues
the IDs reads past the end of `nodes`, where nothing comes late. -/
theorem surplus_not_allocated : ¬ Allocates (some "1 [label=5]\n".toList)
    (fun _ => "7 8 4294967295 ".toList) (fun _ => False) := by
  intro h
  obtain ⟨-, hnodes, -⟩ := h Unit ackEnv () ⟨0x0100000A, 5000⟩ 1 fun _ => .inl rfl
  exact hnodes (by decide +kernel)

end Commander

end DistributAr
