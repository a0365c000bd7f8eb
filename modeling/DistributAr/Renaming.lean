/-
# `DistributAr.Renaming` — does the client find the clusters it renamed?

`createNetwork` renames the clusters and then looks them up again, by their old
IDs and, as it goes on, by the new ones.  The tracker learns of a new ID when
the cluster registers the next time, which is once a minute; the client waits
five seconds.

`sent_to_pointed` is about the client alone: after the renaming, whatever it
sends to a cluster goes where the tracker has pointed it since.  So nodes and
connections reach the clusters they are meant for when the tracker points to
those (`createNetwork_populates`), and `swapped_not_populated` is a run in which
it does not: two clusters whose IDs are exchanged.
-/
import DistributAr.World

namespace DistributAr

open Lib

namespace Commander

variable {σ : Type} {env : Env σ} {trackerAddr : SockAddr}

/-! ## Where commands go -/

/-- Since `base` was sent: what is cached was asked for, and commands of the kind
`May` have gone to clusters, each to the address that was asked for. -/
structure Follows (env : Env σ) (trackerAddr : SockAddr) (May : ClusterID → List Char → Prop)
    (base : List (Sent σ)) (s : Commander σ) : Prop where
  tracker : s.clusters trackerClusterId = trackerAddr
  extends_base : base <+: s.sent
  cached : ∀ n ≠ trackerClusterId, (s.clusters n).sin_port ≠ 0 →
    ∃ e ∈ s.sent.drop base.length, e.cmd = (Command.get n).text
      ∧ pointed env trackerAddr e.world n = some (s.clusters n)
  sent : ∀ e ∈ s.sent.drop base.length, e.cluster ≠ trackerClusterId →
    May e.cluster e.cmd
      ∧ ∃ e' ∈ s.sent.drop base.length, e'.cmd = (Command.get e.cluster).text
        ∧ pointed env trackerAddr e'.world e.cluster = some e.addr

variable {May : ClusterID → List Char → Prop} {base : List (Sent σ)} {s : Commander σ}

/-- Nothing is cached but the tracker. -/
theorem Follows.start (hsent : s.sent = base) (htracker : s.clusters trackerClusterId = trackerAddr)
    (hempty : ∀ n ≠ trackerClusterId, (s.clusters n).sin_port = 0) :
    Follows env trackerAddr May base s where
  tracker := htracker
  extends_base := hsent ▸ List.prefix_refl _
  cached := fun n hn hport => absurd (hempty n hn) hport
  sent := fun e he => by simp [hsent] at he

/-- A client that has just been started. -/
theorem Follows.new (trackerAddr : SockAddr) (w : σ) :
    Follows env trackerAddr May [] (Commander.new trackerAddr w) :=
  .start rfl (by simp [Commander.new]) fun n hn => by simp [Commander.new, hn]

/-- The world goes on without the client. -/
theorem Follows.world (h : Follows env trackerAddr May base s) (w : σ) :
    Follows env trackerAddr May base { s with world := w } :=
  ⟨h.tracker, h.extends_base, h.cached, h.sent⟩

/-- Nothing was sent, and the client waited. -/
theorem Follows.wait (h : Follows env trackerAddr May base s) :
    Follows env trackerAddr May base (s.wait env).2 :=
  ⟨h.tracker, h.extends_base, h.cached, h.sent⟩

/-- A datagram was sent: to the tracker, or to a cluster where it should go. -/
theorem Follows.push (h : Follows env trackerAddr May base s) {t : Commander σ} {e : Sent σ}
    (hclusters : t.clusters = s.clusters) (hsent : t.sent = s.sent ++ [e])
    (he : e.cluster ≠ trackerClusterId → May e.cluster e.cmd
      ∧ ∃ e' ∈ s.sent.drop base.length, e'.cmd = (Command.get e.cluster).text
        ∧ pointed env trackerAddr e'.world e.cluster = some e.addr) :
    Follows env trackerAddr May base t := by
  have hdrop : t.sent.drop base.length = s.sent.drop base.length ++ [e] := by
    rw [hsent, List.drop_append_of_le_length h.extends_base.length_le]
  constructor
  · rw [hclusters, h.tracker]
  · rw [hsent]
    exact h.extends_base.trans (List.prefix_append _ _)
  · intro n hn hport
    rw [hclusters] at hport ⊢
    obtain ⟨e', he', hcmd, hpointed⟩ := h.cached n hn hport
    exact ⟨e', hdrop ▸ List.mem_append_left _ he', hcmd, hpointed⟩
  · intro e₁ he₁ hcluster
    rw [hdrop] at he₁ ⊢
    have hkept : (May e₁.cluster e₁.cmd ∧ ∃ e' ∈ s.sent.drop base.length,
        e'.cmd = (Command.get e₁.cluster).text
          ∧ pointed env trackerAddr e'.world e₁.cluster = some e₁.addr) := by
      rcases List.mem_append.mp he₁ with hold | hnew
      · exact h.sent e₁ hold hcluster
      · obtain rfl := List.mem_singleton.mp hnew
        exact he hcluster
    obtain ⟨hmay, e', he', hcmd, hpointed⟩ := hkept
    exact ⟨hmay, e', List.mem_append_left _ he', hcmd, hpointed⟩

/-- The address that an answer of the tracker gives is cached. -/
theorem Follows.cache (h : Follows env trackerAddr May base s) {id : ClusterID}
    (hid : id ≠ trackerClusterId) {addr : SockAddr} {e : Sent σ}
    (he : e ∈ s.sent.drop base.length) (hcmd : e.cmd = (Command.get id).text)
    (hpointed : pointed env trackerAddr e.world id = some addr) :
    Follows env trackerAddr May base { s with clusters := Function.update s.clusters id addr } := by
  refine ⟨(Function.update_of_ne hid.symm ..).trans h.tracker, h.extends_base, ?_, h.sent⟩
  intro n hn hport
  by_cases hnid : n = id
  · subst hnid
    exact ⟨e, he, hcmd, by simpa using hpointed⟩
  · have hother : Function.update s.clusters id addr n = s.clusters n :=
      Function.update_of_ne hnid ..
    dsimp only at hport ⊢
    rw [hother] at hport ⊢
    exact h.cached n hn hport

theorem Follows.trackerCommand (h : Follows env trackerAddr May base s) (cmd : List Char) :
    Follows env trackerAddr May base (s.trackerCommand env cmd).2 :=
  h.push rfl exchange_sent fun htracker => absurd rfl htracker

theorem Follows.getCluster (h : Follows env trackerAddr May base s) {id : ClusterID}
    (hid : id ≠ trackerClusterId) : Follows env trackerAddr May base (s.getCluster env id) := by
  have hasked := h.trackerCommand (Command.get id).text
  unfold Commander.getCluster
  dsimp only
  split
  · exact hasked
  · rename_i addr hread
    have hlast : (s.trackerCommand env (Command.get id).text).2.sent.drop base.length
        = s.sent.drop base.length ++ [⟨s.world, trackerClusterId, s.clusters trackerClusterId,
            (Command.get id).text, (s.trackerCommand env (Command.get id).text).1⟩] :=
      List.drop_append_of_le_length h.extends_base.length_le
    refine hasked.cache hid (hlast ▸ List.mem_append_right _ (List.mem_singleton_self _)) rfl ?_
    rw [← h.tracker]
    exact hread

theorem Follows.getClusters {ids : List ClusterID} (hids : ∀ id ∈ ids, id ≠ trackerClusterId)
    (h : Follows env trackerAddr May base s) :
    Follows env trackerAddr May base (s.getClusters env ids) := by
  induction ids generalizing s with
  | nil => exact h
  | cons id ids ih =>
      exact ih (fun id' hid' => hids id' (List.mem_cons_of_mem _ hid'))
        (h.getCluster (hids id List.mem_cons_self))

/-- The tracker has a port, so it is never asked for its own address. -/
theorem Follows.requestInfo (hport : trackerAddr.sin_port ≠ 0) (i : Nat) (cluster : ClusterID)
    (h : Follows env trackerAddr May base s) :
    Follows env trackerAddr May base (requestInfo env i s cluster) := by
  induction i generalizing s with
  | zero => exact h
  | succ i ih =>
      unfold Commander.requestInfo
      split
      · rename_i hzero
        refine ih (h.getCluster fun htracker => hport ?_)
        rw [← h.tracker, ← htracker]
        exact hzero
      · exact h

theorem Follows.command (hport : trackerAddr.sin_port ≠ 0) (cluster : ClusterID)
    {cmd : List Char} (hmay : cluster ≠ trackerClusterId → May cluster cmd)
    (h : Follows env trackerAddr May base s) :
    Follows env trackerAddr May base (s.command env cluster cmd).2 := by
  have hinfo := h.requestInfo hport 3 cluster
  unfold Commander.command
  dsimp only
  split
  · exact hinfo.wait
  · rename_i hsome
    exact hinfo.push rfl exchange_sent fun hcluster =>
      ⟨hmay hcluster, hinfo.cached cluster hcluster hsome⟩

theorem Follows.retryCommand (hport : trackerAddr.sin_port ≠ 0) (cluster : ClusterID)
    {cmd : List Char} (hmay : cluster ≠ trackerClusterId → May cluster cmd) (retry : Nat)
    (h : Follows env trackerAddr May base s) :
    Follows env trackerAddr May base (retryCommand env retry s cluster cmd).2 := by
  induction retry generalizing s with
  | zero => exact h.command hport cluster hmay
  | succ retry ih =>
      unfold Commander.retryCommand
      dsimp only
      split
      · exact h.command hport cluster hmay
      · exact ih (h.command hport cluster hmay)

theorem Follows.listClusters (h : Follows env trackerAddr May base s) :
    Follows env trackerAddr May base (s.listClusters env).2 :=
  h.trackerCommand _

/-! ## The phases of `createNetwork` -/

theorem Follows.waitClusters (nodes : List GraphNode) (rounds : Nat)
    (h : Follows env trackerAddr May base s) :
    Follows env trackerAddr May base (waitClusters env nodes rounds s).2
      ∧ ∀ ids, (Commander.waitClusters env nodes rounds s).1 = .ok ids →
        ∀ id ∈ ids, id ≠ trackerClusterId := by
  induction rounds generalizing s with
  | zero => exact ⟨h, fun _ h => nomatch h⟩
  | succ rounds ih =>
      have hlisted := (h.world (env.sleep s.world)).listClusters
      unfold Commander.waitClusters
      dsimp only
      split
      · split
        · exact ih hlisted
        · refine ⟨hlisted, ?_⟩
          intro ids hids id hid
          cases hids
          exact ne_zero_of_mem_parseList (List.mem_of_mem_erase hid)
      · exact ⟨hlisted, fun _ h => nomatch h⟩

theorem Follows.issueIds (hport : trackerAddr.sin_port ≠ 0)
    (hmay : ∀ cluster n, May cluster (Reply.run n).text) (ids : List ClusterID)
    (nodes : List GraphNode) (h : Follows env trackerAddr May base s) :
    Follows env trackerAddr May base (issueIds env ids nodes s).2 := by
  induction ids generalizing nodes s with
  | nil => exact h
  | cons old ids ih =>
      cases nodes with
      | nil => exact h
      | cons node nodes =>
          have hissued := h.retryCommand hport old (fun _ => hmay old node.id) commandRetryCount
          unfold Commander.issueIds
          dsimp only
          split
          · exact ih _ hissued
          · exact hissued

theorem Follows.renameClusters (hport : trackerAddr.sin_port ≠ 0)
    (hmay : ∀ cluster n, May cluster (Reply.run n).text) (nodes : List GraphNode) (rounds : Nat)
    (h : Follows env trackerAddr May base s) :
    Follows env trackerAddr May base (s.renameClusters env rounds nodes).2
      ∧ ∀ ids, (s.renameClusters env rounds nodes).1 = .ok ids →
        ∀ id ∈ ids, id ≠ trackerClusterId := by
  obtain ⟨hwaited, hids⟩ := h.waitClusters nodes rounds
  unfold Commander.renameClusters
  rcases hwait : Commander.waitClusters env nodes rounds s with ⟨result, t⟩
  rw [hwait] at hwaited hids
  cases result with
  | error outcome => exact ⟨hwaited, fun _ h => nomatch h⟩
  | ok ids =>
      have hissued := (hwaited.getClusters (hids ids rfl)).issueIds hport hmay ids nodes
      dsimp only
      rcases hissue : Commander.issueIds env ids nodes (t.getClusters env ids) with ⟨result, u⟩
      rw [hissue] at hissued
      cases result with
      | error outcome => exact ⟨hissued, fun _ h => nomatch h⟩
      | ok v =>
          refine ⟨hissued, ?_⟩
          intro ids' h
          cases h
          exact hids ids rfl

/-- What `addNodes` and `connectEdges` send something to. -/
def Used (nodes : List GraphNode) (edges : List GraphEdge) (n : ClusterID) : Prop :=
  (∃ node ∈ nodes, node.id = n ∧ node.label > 0)
    ∨ ∃ edge ∈ edges, edge.source = n ∧ edge.label > 0

theorem Follows.addNodes (hport : trackerAddr.sin_port ≠ 0) {nodes : List GraphNode}
    (hmay : ∀ node ∈ nodes, node.label > 0 → May node.id (addText node.label))
    (h : Follows env trackerAddr May base s) :
    Follows env trackerAddr May base (s.addNodes env nodes) := by
  induction nodes generalizing s with
  | nil => exact h
  | cons node nodes ih =>
      refine ih (fun node' hnode' => hmay node' (List.mem_cons_of_mem _ hnode')) ?_
      dsimp only
      split
      · rename_i hlabel
        exact h.retryCommand hport node.id (fun _ => hmay node List.mem_cons_self hlabel) _
      · exact h

theorem Follows.connectEdges (hport : trackerAddr.sin_port ≠ 0) {edges : List GraphEdge}
    (hmay : ∀ edge ∈ edges, edge.label > 0 →
      May edge.source (connectText edge.target edge.label))
    (h : Follows env trackerAddr May base s) :
    Follows env trackerAddr May base (connectEdges env edges s).2 := by
  induction edges generalizing s with
  | nil => exact h
  | cons edge edges ih =>
      have hrest := fun edge' hedge' => hmay edge' (List.mem_cons_of_mem edge hedge')
      unfold Commander.connectEdges
      dsimp only
      split
      · rename_i hlabel
        have hsent := h.retryCommand hport edge.source
          (fun _ => hmay edge List.mem_cons_self hlabel) commandRetryCount
        split
        · exact ih hrest hsent
        · exact hsent
      · exact ih hrest h

/-- Everything but the tracker is forgotten and asked for again. -/
theorem follows_refresh {ids : List ClusterID} (hids : ∀ id ∈ ids, id ≠ trackerClusterId)
    (s : Commander σ) (htracker : s.clusters trackerClusterId = trackerAddr) :
    Follows env trackerAddr May s.sent (s.refresh env ids) := by
  refine Follows.getClusters hids (Follows.world ?_ _)
  have hstart : ∀ t : Commander σ, t.sent = s.sent →
      t.clusters = (fun id => if id = trackerClusterId then s.clusters trackerClusterId
        else ⟨0, 0⟩) → Follows env trackerAddr May s.sent t := by
    intro t hsent hclusters
    refine Follows.start hsent ?_ ?_
    · rw [hclusters]
      exact (if_pos rfl).trans htracker
    · intro n hn
      rw [hclusters]
      exact congrArg SockAddr.sin_port (if_neg hn)
  exact hstart _ rfl rfl

/-- After the renaming, everything goes where the tracker has pointed the client
since then. -/
theorem sent_to_pointed (hport : trackerAddr.sin_port ≠ 0) {ids : List ClusterID}
    (hids : ∀ id ∈ ids, id ≠ trackerClusterId) (nodes : List GraphNode) (edges : List GraphEdge)
    (s : Commander σ) (htracker : s.clusters trackerClusterId = trackerAddr) :
    Follows env trackerAddr (fun n _ => Used nodes edges n) s.sent
      (connectNetwork env ids nodes edges s).2 := by
  unfold connectNetwork
  refine Follows.connectEdges hport (fun edge hedge hlabel => .inr ⟨edge, hedge, rfl, hlabel⟩) ?_
  refine Follows.addNodes hport (fun node hnode hlabel => .inl ⟨node, hnode, rfl, hlabel⟩) ?_
  exact follows_refresh hids s htracker

/-! ## Nodes and connections -/

/-- The cluster at an address has acknowledged `RUN n`. -/
def Acked (sent : List (Sent σ)) (n : ClusterID) (addr : SockAddr) : Prop :=
  ∃ e ∈ sent, e.addr = addr ∧ e.cmd = (Reply.run n).text ∧ e.reply = "ACK".toList

/-- Every `ADD` and `CONNECT` for a node has gone to a cluster that had
acknowledged the `RUN` for that node. -/
def Populated (nodes : List GraphNode) (sent : List (Sent σ)) : Prop :=
  ∀ before e after, sent = before ++ e :: after → ∀ node ∈ nodes, e.cluster = node.id →
    (∃ label, e.cmd = addText label) ∨ (∃ target label, e.cmd = connectText target label) →
    Acked before node.id e.addr

theorem Acked.mono {sent sent' : List (Sent σ)} {n : ClusterID} {addr : SockAddr}
    (hle : sent <+: sent') (h : Acked sent n addr) : Acked sent' n addr := by
  obtain ⟨e, he, hacked⟩ := h
  exact ⟨e, hle.subset he, hacked⟩

theorem run_text_ne {n : ClusterID} {cmd : List Char}
    (h : (∃ label, cmd = addText label) ∨ ∃ target label, cmd = connectText target label) :
    cmd ≠ (Reply.run n).text := by
  rintro rfl
  rcases h with ⟨label, heq⟩ | ⟨target, label, heq⟩
  · exact absurd (congrArg List.head? heq) (show some 'R' ≠ some 'A' by decide)
  · exact absurd (congrArg List.head? heq) (show some 'R' ≠ some 'C' by decide)

/-- A prefix of a list ends before an element of it, or contains it. -/
theorem prefix_or_mem {α : Type} {base before after : List α} {e : α}
    (h : base <+: before ++ e :: after) : base <+: before ∨ e ∈ base := by
  by_cases hlen : base.length ≤ before.length
  · exact .inl (List.prefix_of_prefix_length_le h (List.prefix_append _ _) hlen)
  · right
    have hbefore : before ++ [e] <+: before ++ e :: after := ⟨after, by simp⟩
    have hle : (before ++ [e]).length ≤ base.length := by
      rw [List.length_append, List.length_singleton]
      omega
    exact (List.prefix_of_prefix_length_le hbefore h hle).subset (by simp)

end Commander

open Commander

/-- Whenever the client asked for a node that it has something for, in `asked`,
and the tracker had an entry for it that was not too old, it was that of a
cluster which had acknowledged the `RUN` for that node. -/
def Heard (sc : Scenario) (nodes : List GraphNode) (edges : List GraphEdge)
    (before asked : List (Sent World)) : Prop :=
  ∀ e ∈ asked, ∀ node ∈ nodes, Used nodes edges node.id → e.cmd = (Command.get node.id).text →
    ∀ entry ∈ e.world.tracker.view node.id,
      ¬ entry.2 < (sc.turn e.world.tick).now - envUpdateTime →
      Acked before node.id (World.reach sc entry.1)

/-- The tracker has heard of the new IDs in time: from the end of the renaming on
it points the client to the clusters that were renamed. -/
def HeardAfter (sc : Scenario) (nodes : List GraphNode) (edges : List GraphEdge) :
    Except Outcome (List ClusterID) × Commander World → Prop
  | (.ok ids, s) => Heard sc nodes edges s.sent
      ((connectNetwork (World.env sc) ids nodes edges s).2.sent.drop s.sent.length)
  | (.error _, _) => True

/-- In every run of the client, the tracker and the clusters: if the tracker has
heard of the new IDs by the time it is asked for them, nodes and connections go
to the clusters that acknowledged their IDs. -/
theorem createNetwork_populates (sc : Scenario) (w : World) (rounds : Nat)
    (file : Option (List Char)) (nodes : List GraphNode) (edges : List GraphEdge)
    (hparse : GraphIO.parse file = some (nodes, edges))
    (hheard : HeardAfter sc nodes edges
      ((Commander.new sc.trackerAddr w).renameClusters (World.env sc) rounds nodes)) :
    Populated nodes
      ((Commander.new sc.trackerAddr w).createNetwork (World.env sc) rounds file).2.sent := by
  have hport := sc.port_ne_zero
  have hnodes := GraphIO.parse_id_ne_zero hparse
  have hnew : Follows (World.env sc) sc.trackerAddr (fun _ cmd => ∃ n, cmd = (Reply.run n).text)
      [] (Commander.new sc.trackerAddr w) := .new _ _
  obtain ⟨hrenamed, hids⟩ := hnew.renameClusters hport (fun _ n => ⟨n, rfl⟩) nodes rounds
  unfold createNetwork
  rw [hparse]
  dsimp only
  rcases hrename : (Commander.new sc.trackerAddr w).renameClusters (World.env sc) rounds nodes
    with ⟨result, s⟩
  rw [hrename] at hrenamed hids hheard
  -- Up to here nothing but `RUN` was sent to any cluster.
  have hrun : ∀ e ∈ s.sent, ∀ node ∈ nodes, e.cluster = node.id →
      ∃ n, e.cmd = (Reply.run n).text := fun e he node hnode hcluster =>
    (hrenamed.sent e he (hcluster ▸ hnodes node hnode)).1
  intro before e after hsent node hnode hcluster hcmd
  cases result with
  | error outcome =>
      have hmem : e ∈ s.sent := by
        rw [show s.sent = before ++ e :: after from hsent]
        simp
      obtain ⟨n, hn⟩ := hrun e hmem node hnode hcluster
      exact absurd hn (run_text_ne hcmd)
  | ok ids =>
      have hfollows : Follows (World.env sc) _ _ _ _ :=
        sent_to_pointed hport (hids ids rfl) nodes edges s hrenamed.tracker
      dsimp only at hsent
      have hbase : s.sent <+: before ++ e :: after := hsent ▸ hfollows.extends_base
      rcases prefix_or_mem hbase with hbefore | hmem
      · have he : e ∈ (connectNetwork (World.env sc) ids nodes edges s).2.sent.drop
            s.sent.length := by
          obtain ⟨mid, rfl⟩ := hbefore
          rw [hsent, List.append_assoc, List.drop_left]
          simp
        obtain ⟨hused, e', he', hget, hpointed⟩ := hfollows.sent e he
          (hcluster ▸ hnodes node hnode)
        rw [hcluster] at hused hget hpointed
        obtain ⟨b, u, hview, hlive, haddr⟩ := World.pointed_eq_some sc hpointed
        rw [haddr]
        exact (hheard e' he' node hnode hused hget (b, u) hview hlive).mono hbefore
      · obtain ⟨n, hn⟩ := hrun e hmem node hnode hcluster
        exact absurd hn (run_text_ne hcmd)

/-! ## Two clusters whose IDs are exchanged -/

instance (nodes : List GraphNode) (edges : List GraphEdge) (n : ClusterID) :
    Decidable (Used nodes edges n) := inferInstanceAs (Decidable (_ ∨ _))

instance (sent : List (Sent World)) (n : ClusterID) (addr : SockAddr) :
    Decidable (Acked sent n addr) :=
  inferInstanceAs (Decidable (∃ e ∈ sent, e.addr = addr ∧ _))

instance (sc : Scenario) (nodes : List GraphNode) (edges : List GraphEdge)
    (before asked : List (Sent World)) : Decidable (Heard sc nodes edges before asked) :=
  inferInstanceAs (Decidable (∀ e ∈ asked, ∀ node ∈ nodes, _))

instance (sc : Scenario) (nodes : List GraphNode) (edges : List GraphEdge) :
    ∀ result, Decidable (HeardAfter sc nodes edges result)
  | (.ok _, _) => inferInstanceAs (Decidable (Heard ..))
  | (.error _, _) => inferInstanceAs (Decidable True)

/-- Both clusters register again while the client sleeps after the renaming. -/
def Scenario.inTime : Scenario := .plain fun tick =>
  if tick = 6 then
    [(⟨0x0100000A, 5000⟩, ⟨0, .kept, 0⟩), (⟨0x0200000A, 5000⟩, ⟨0, .kept, 0⟩)]
  else []

/-- The tracker lists 1 before 2, so each cluster gets the ID of the other. -/
def swappedFile : List Char := "2 [label=5]\n1 [label=3]\n2 -> 1 [label=4]\n".toList

/-- If both register in time then the nodes are where they should be. -/
theorem createNetwork_populates_inTime :
    HeardAfter .inTime [⟨2, 5⟩, ⟨1, 3⟩] [⟨2, 1, 4⟩]
        ((Commander.new Scenario.inTime.trackerAddr twoClusters).renameClusters
          (World.env .inTime) 1 [⟨2, 5⟩, ⟨1, 3⟩])
      ∧ Populated [⟨2, 5⟩, ⟨1, 3⟩]
        ((Commander.new Scenario.inTime.trackerAddr twoClusters).createNetwork
          (World.env .inTime) 1 (some swappedFile)).2.sent :=
  ⟨by decide +kernel, createNetwork_populates .inTime twoClusters 1 (some swappedFile)
    [⟨2, 5⟩, ⟨1, 3⟩] [⟨2, 1, 4⟩] (by decide +kernel) (by decide +kernel)⟩

/-- What the client sends when they do not. -/
def swappedSent : List (Sent World) :=
  ((Commander.new Scenario.late.trackerAddr twoClusters).createNetwork
    (World.env .late) 1 (some swappedFile)).2.sent

/-- The tracker still knows the clusters by their old IDs, and so the node 2 is
added to the cluster that has become 1. -/
theorem swapped_not_populated :
    GraphIO.parse (some swappedFile) = some ([⟨2, 5⟩, ⟨1, 3⟩], [⟨2, 1, 4⟩])
      ∧ ¬ Populated [⟨2, 5⟩, ⟨1, 3⟩] swappedSent := by
  refine ⟨by decide +kernel, ?_⟩
  intro h
  have hlen : 7 < swappedSent.length := by decide +kernel
  have hadd : swappedSent[7].cluster = 2 ∧ swappedSent[7].cmd = addText 5 := by
    decide +kernel +revert
  have hnot : ¬ Acked (swappedSent.take 7) 2 swappedSent[7].addr := by
    clear hadd
    decide +kernel +revert
  have hsplit : swappedSent = swappedSent.take 7 ++ swappedSent[7] :: swappedSent.drop 8 := by
    rw [← List.drop_eq_getElem_cons hlen, List.take_append_drop]
  exact hnot (h _ _ _ hsplit ⟨2, 5⟩ List.mem_cons_self hadd.1 (.inl ⟨5, hadd.2⟩))

end DistributAr
