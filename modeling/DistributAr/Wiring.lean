/-
# `DistributAr.Wiring` — connecting clusters, from a graph and by hand

An edge `from -> to` can be made in two ways.

| way                      | the command goes to | and says       |
|--------------------------|---------------------|----------------|
| `createNetwork`          | `from`              | `CONNECT to`   |
| `netc … connect from to` | `to`                | `CONNECT from` |

`CONNECT` makes the cluster that receives it subscribe to the one it names, so
the two ways connect in opposite directions.  They agree exactly on the edges
whose reverse is there too (`wiring_agrees_iff`).

The clusters are in processes that share subscriptions, the tracker knows where
each one is, and every datagram arrives.
-/
import DistributAr.Commander
import DistributAr.Subscription

namespace DistributAr

open Lib

/-- The circumstances: who listens at which address, and what the tracker and the
OS do at each step of the client. -/
structure Site where
  trackerAddr : SockAddr
  /-- The client, as the tracker sees it. -/
  client : SockAddr
  /-- The process of the server at an address, and its position there. -/
  listens : SockAddr → Option (Nat × Nat)
  /-- `cluster->command` -/
  command : List Char → List Char
  turn : Nat → Turn
  os : Nat → Bool
  localIP : UInt64
  garbage : ClusterID × UInt64 × UInt16

/-- A command that the server in some position of a process executed. -/
structure Execution where
  host : Nat
  position : Nat
  cmd : List Char
deriving DecidableEq, Repr

/-- The tracker, the processes that run, the number of steps the client has made, and
what was executed, in order. -/
structure Processes where
  tracker : Tracker
  hosts : Nat → Option LocalNetwork
  tick : Nat
  executed : List Execution

namespace Processes

/-- A cluster in the process `host` subscribes to another. -/
def Subs (w : Processes) (host : Nat) (l r : ClusterID) : Prop :=
  ∃ s, w.hosts host = some s ∧ r ∈ s.subscriptions.values l

/-- A datagram to a server and its answer.  A process that exits is gone. -/
def deliver (site : Site) (w : Processes) (addr : SockAddr) (cmd : List Char) :
    List Char × Processes :=
  match site.listens addr with
  | none => ([], w)
  | some (host, i) =>
      match w.hosts host with
      | none => ([], w)
      | some s =>
          let w : Processes := { w with executed := w.executed ++ [⟨host, i, cmd⟩] }
          match s.parseCommand site.command site.garbage.1 (site.os w.tick) i cmd with
          | none => ([], { w with hosts := Function.update w.hosts host none })
          | some (s, reply) => (reply, { w with hosts := Function.update w.hosts host (some s) })

/-- A datagram to the tracker and its answer. -/
def ask (site : Site) (w : Processes) (cmd : List Char) : List Char × Processes :=
  let (tracker, reply) := w.tracker.iteration (site.turn w.tick) site.client cmd
  (reply.getD [], { w with tracker := tracker })

/-- The environment of the client. -/
def env (site : Site) : Env Processes where
  exchange w addr cmd :=
    let (reply, w) := if addr = site.trackerAddr then w.ask site cmd else w.deliver site addr cmd
    (reply, { w with tick := w.tick + 1 })
  wait w := ([], { w with tick := w.tick + 1 })
  sleep w := w
  localIP := site.localIP
  garbage _ := site.garbage

end Processes

/-- `main` of the client, called as `netc … connect from to`: what it returns, and
the client at its end. -/
def Commander.mainConnect {σ : Type} (env : Env σ) (trackerAddr : SockAddr) (world : σ)
    (argv4 argv5 : List Char) : Bool × Commander σ :=
  let target := UInt32.ofInt ( GraphIO.atoi argv5)
  let (rep, s) := (Commander.new trackerAddr world).command env target
    ("CONNECT ".toList ++ argv4)
  (rep = "ACK".toList, s)

/-- Connecting all edges by hand. -/
def Commander.connectByHand {σ : Type} (env : Env σ) (trackerAddr : SockAddr) (world : σ)
    (edges : List GraphEdge) : σ :=
  edges.foldl (fun world edge =>
    (mainConnect env trackerAddr world (printUnsigned edge.source.toNat)
      (printUnsigned edge.target.toNat)).2.world) world

/-- Where a cluster is. -/
structure Place where
  addr : SockAddr
  host : Nat
  position : Nat

/-- A cluster exists: a server runs it, and the tracker has the address of that
server and keeps it.  The ID 0 is the tracker's. -/
structure Deployed (site : Site) (w : Processes) (id : ClusterID) (p : Place) : Prop where
  id_ne : id ≠ trackerClusterId
  entry : ∃ b u, w.tracker.view id = some (b, u) ∧ (∀ k, ¬ u < (site.turn k).now - envUpdateTime)
    ∧ p.addr = ⟨(Commander.replaceLo (Processes.env site) b.s_addr.toUInt64
        site.trackerAddr.s_addr.toUInt64).toUInt32, b.sin_port⟩
  port_ne : p.addr.sin_port ≠ 0
  addr_ne : p.addr ≠ site.trackerAddr
  listens : site.listens p.addr = some (p.host, p.position)
  server : ∃ s server, w.hosts p.host = some s ∧ s.servers[p.position]? = some server
    ∧ server.id = id

/-- A client that can reach some clusters: they exist, and an address that it
already has is the right one. -/
structure Ready (site : Site) (place : ClusterID → Place) (ids : List ClusterID)
    (s : Commander Processes) : Prop where
  tracker : s.clusters trackerClusterId = site.trackerAddr
  deployed : ∀ id ∈ ids, Deployed site s.world id (place id)
  cached : ∀ id ∈ ids, (s.clusters id).sin_port = 0 ∨ s.clusters id = (place id).addr

variable {site : Site} {place : ClusterID → Place} {ids : List ClusterID}
  {s : Commander Processes} {w : Processes} {id remote : ClusterID} {p : Place}

/-! ## One command -/

/-- The tracker points to a cluster that exists, and is as it was. -/
theorem Deployed.get (h : Deployed site w id p) :
    (Processes.env site).exchange w site.trackerAddr (Command.get id).text
        = (((Processes.env site).exchange w site.trackerAddr (Command.get id).text).1,
          { w with tick := w.tick + 1 })
      ∧ Commander.pointed (Processes.env site) site.trackerAddr w id = some p.addr := by
  obtain ⟨b, u, hview, hfresh, haddr⟩ := h.entry
  have hget : w.tracker.handleGet (site.turn w.tick) id = (w.tracker, .point id b) := by
    rw [Tracker.handleGet_eq, hview]
    exact if_neg (hfresh w.tick)
  have hexchange : (Processes.env site).exchange w site.trackerAddr (Command.get id).text
      = ((Reply.point id b).text, { w with tick := w.tick + 1 }) := by
    simp only [Processes.env, if_true, Processes.ask, Tracker.iteration_text, Tracker.handle,
      hget, getD_sendCommand]
  refine ⟨?_, ?_⟩
  · rw [hexchange]
  · rw [Commander.pointed, hexchange, Commander.readPoint_text, if_pos rfl, haddr]

/-- The client finds the address, if need be from the tracker. -/
theorem Ready.requestInfo (h : Ready site place ids s) (hid : id ∈ ids) :
    ∃ n sent, Commander.requestInfo (Processes.env site) 3 s id
      = ⟨Function.update s.clusters id (place id).addr, { s.world with tick := n }, sent,
          s.unasked⟩ := by
  have hdep := h.deployed id hid
  by_cases hport : (s.clusters id).sin_port = 0
  · obtain ⟨hexchange, hpointed⟩ := hdep.get
    refine ⟨s.world.tick + 1, (s.getCluster (Processes.env site) id).sent, ?_⟩
    have hclusters : (s.getCluster (Processes.env site) id).clusters
        = Function.update s.clusters id (place id).addr := by
      rw [Commander.getCluster_clusters, h.tracker, hpointed]
    have hworld : (s.getCluster (Processes.env site) id).world
        = { s.world with tick := s.world.tick + 1 } := by
      rw [Commander.getCluster_world, h.tracker, hexchange]
    have hfound : ¬ ((s.getCluster (Processes.env site) id).clusters id).sin_port = 0 := by
      rw [hclusters, Function.update_self]
      exact hdep.port_ne
    have hasked : Commander.requestInfo (Processes.env site) 3 s id
        = s.getCluster (Processes.env site) id := by
      rw [Commander.requestInfo, if_pos hport, Commander.requestInfo, if_neg hfound]
    rw [hasked, ← hclusters, ← hworld, ← Commander.getCluster_unasked]
  · have hasked : Commander.requestInfo (Processes.env site) 3 s id = s := by
      rw [Commander.requestInfo, if_neg hport]
    refine ⟨s.world.tick, s.sent, ?_⟩
    rw [hasked, ← (h.cached id hid).resolve_left hport, Function.update_eq_self]

/-- `CONNECT` arrives and is obeyed. -/
theorem Deployed.connect (h : Deployed site w id p) (remote : ClusterID) {rest : List Char}
    (hrest : ∀ d ∈ rest.head?, d.isDigit = false) :
    ∃ s, w.hosts p.host = some s ∧ (Processes.env site).exchange w p.addr
        ((Instruction.connect remote).text ++ rest)
      = ("ACK".toList, { w with
          hosts := Function.update w.hosts p.host (some (s.subscribe (site.os w.tick) id remote))
          tick := w.tick + 1
          executed := w.executed
            ++ [⟨p.host, p.position, (Instruction.connect remote).text ++ rest⟩] }) := by
  obtain ⟨s, server, hhost, hserver, rfl⟩ := h.server
  refine ⟨s, hhost, ?_⟩
  have hobey : s.parseCommand site.command site.garbage.1 (site.os w.tick) p.position
      ((Instruction.connect remote).text ++ rest)
        = some (s.subscribe (site.os w.tick) server.id remote, "ACK".toList) := by
    rw [LocalNetwork.parseCommand_param _ _ _ _ _ _ _ hrest, LocalNetwork.obey, hserver]
    rfl
  simp only [Processes.env, if_neg h.addr_ne, Processes.deliver, h.listens, hhost, hobey]

/-- A subscription leaves every cluster where it is. -/
theorem Deployed.subscribe (h : Deployed site w id p) {host : Nat} {s : LocalNetwork}
    (hhost : w.hosts host = some s) (os : Bool) (localId remote : ClusterID) (n : Nat)
    (executed : List Execution) :
    Deployed site { w with
      hosts := Function.update w.hosts host (some (s.subscribe os localId remote))
      tick := n
      executed := executed } id p := by
  obtain ⟨s', server, hp, hserver, hid⟩ := h.server
  refine ⟨h.id_ne, h.entry, h.port_ne, h.addr_ne, h.listens, ?_⟩
  by_cases hsame : p.host = host
  · rw [hsame, hhost] at hp
    cases hp
    refine ⟨s.subscribe os localId remote, server, ?_, ?_, hid⟩
    · rw [hsame]
      exact Function.update_self ..
    · rw [LocalNetwork.subscribe_servers]
      exact hserver
  · exact ⟨s', server, (Function.update_of_ne hsame _ _).trans hp, hserver, hid⟩

/-- One subscription more. -/
theorem Processes.subs_subscribe {host : Nat} {s : LocalNetwork}
    (hhost : w.hosts host = some s) (os : Bool) (localId remote : ClusterID) (n host' : Nat)
    (executed : List Execution) (l r : ClusterID) :
    Subs { w with
      hosts := Function.update w.hosts host (some (s.subscribe os localId remote))
      tick := n
      executed := executed } host' l r
      ↔ w.Subs host' l r ∨ host' = host ∧ l = localId ∧ r = remote := by
  by_cases hsame : host' = host
  · subst hsame
    simp only [Subs, Function.update_self, hhost, Option.some.injEq, exists_eq_left',
      LocalNetwork.mem_subscribe, true_and]
  · simp only [Subs, Function.update_of_ne hsame, hsame, false_and, or_false]

/-- The client sends `CONNECT` to a cluster, gets its `ACK`, and can go on. -/
theorem Ready.command (h : Ready site place ids s) (hid : id ∈ ids) (remote : ClusterID)
    (rest : List Char) (hrest : ∀ d ∈ rest.head?, d.isDigit = false) :
    ∃ s', s.command (Processes.env site) id ((Instruction.connect remote).text ++ rest)
        = ("ACK".toList, s')
      ∧ Ready site place ids s'
      ∧ ∀ host l r, s'.world.Subs host l r
          ↔ s.world.Subs host l r ∨ host = (place id).host ∧ l = id ∧ r = remote := by
  have hdep := h.deployed id hid
  obtain ⟨n, sent, hinfo⟩ := h.requestInfo hid
  have htick : Deployed site { s.world with tick := n } id (place id) :=
    ⟨hdep.id_ne, hdep.entry, hdep.port_ne, hdep.addr_ne, hdep.listens, hdep.server⟩
  obtain ⟨net, hhost, hexchange⟩ := htick.connect remote hrest
  obtain ⟨s', hcommand, hclusters, hworld⟩ : ∃ s', s.command (Processes.env site) id
        ((Instruction.connect remote).text ++ rest) = ("ACK".toList, s')
      ∧ s'.clusters = Function.update s.clusters id (place id).addr
      ∧ s'.world = { s.world with
        hosts := Function.update s.world.hosts (place id).host
          (some (net.subscribe (site.os n) id remote))
        tick := n + 1
        executed := s.world.executed ++ [⟨(place id).host, (place id).position,
          (Instruction.connect remote).text ++ rest⟩] } := by
    simp only [Commander.command, hinfo, Function.update_self, hdep.port_ne, if_false,
      Commander.exchange, hexchange]
    exact ⟨_, rfl, rfl, rfl⟩
  refine ⟨s', hcommand, ⟨?_, ?_, ?_⟩, ?_⟩
  · rw [hclusters]
    exact (Function.update_of_ne (Ne.symm hdep.id_ne) _ _).trans h.tracker
  · intro id' hid'
    rw [hworld]
    exact (h.deployed id' hid').subscribe hhost (site.os n) id remote (n + 1) _
  · intro id' hid'
    rw [hclusters]
    by_cases hsame : id' = id
    · subst hsame
      exact .inr (Function.update_self ..)
    · rw [Function.update_of_ne hsame]
      exact h.cached id' hid'
  · rw [hworld]
    intro host l r
    exact Processes.subs_subscribe hhost (site.os n) id remote (n + 1) host _ l r

/-! ## All edges -/

/-- A client that was just started. -/
theorem Ready.fresh (h : ∀ id ∈ ids, Deployed site w id (place id)) :
    Ready site place ids (Commander.new site.trackerAddr w) where
  tracker := rfl
  deployed := h
  cached := by
    intro id hid
    refine .inl ?_
    have hnew : (Commander.new site.trackerAddr w).clusters id = ⟨0, 0⟩ := if_neg (h id hid).id_ne
    rw [hnew]

/-- `createNetwork` makes the source of each edge subscribe to its target. -/
theorem Ready.connectEdges (edges : List GraphEdge) (h : Ready site place ids s)
    (hedges : ∀ e ∈ edges, 0 < e.label ∧ e.source ∈ ids) :
    ∃ s', Commander.connectEdges (Processes.env site) edges s = (.running, s') ∧
      ∀ host l r, s'.world.Subs host l r ↔ s.world.Subs host l r
        ∨ ∃ e ∈ edges, host = (place e.source).host ∧ l = e.source ∧ r = e.target := by
  induction edges generalizing s with
  | nil => exact ⟨s, rfl, fun host l r => by simp⟩
  | cons edge edges ih =>
      obtain ⟨hlabel, hsource⟩ := hedges edge List.mem_cons_self
      obtain ⟨s₁, hcommand, hready, hsubs₁⟩ := h.command hsource edge.target
        (' ' :: printUnsigned edge.label.toNat) (by simp)
      obtain ⟨s₂, hrun, hsubs₂⟩ := ih hready fun e he => hedges e (List.mem_cons_of_mem _ he)
      have htext : connectText edge.target edge.label
          = (Instruction.connect edge.target).text ++ ' ' :: printUnsigned edge.label.toNat := rfl
      have hretry : s.commandWithRetry (Processes.env site) edge.source
          (connectText edge.target edge.label) = (true, s₁) := by
        rw [Commander.commandWithRetry, Commander.commandRetryCount, Commander.retryCommand, htext,
          hcommand]
        rfl
      refine ⟨s₂, ?_, ?_⟩
      · rw [Commander.connectEdges, if_pos hlabel, hretry]
        exact hrun
      · intro host l r
        rw [hsubs₂, hsubs₁, or_assoc, List.exists_mem_cons_iff]

/-- By hand, the target of each edge subscribes to its source. -/
theorem connectByHand_subs (edges : List GraphEdge)
    (h : ∀ id ∈ ids, Deployed site w id (place id)) (hedges : ∀ e ∈ edges, e.target ∈ ids) :
    ∀ host l r,
      (Commander.connectByHand (Processes.env site) site.trackerAddr w edges).Subs host l r
        ↔ w.Subs host l r
          ∨ ∃ e ∈ edges, host = (place e.target).host ∧ l = e.target ∧ r = e.source := by
  induction edges generalizing w with
  | nil => exact fun host l r => by simp [Commander.connectByHand]
  | cons edge edges ih =>
      obtain ⟨s₁, hcommand, hready, hsubs₁⟩ := (Ready.fresh h).command
        (hedges edge List.mem_cons_self) edge.source [] (by simp)
      have htarget : UInt32.ofInt ( GraphIO.atoi (printUnsigned edge.target.toNat))
          = edge.target := by
        have hatoi := GraphIO.ofInt_atoi_id edge.target [] (by simp)
        rwa [List.append_nil] at hatoi
      have htext : "CONNECT ".toList ++ printUnsigned edge.source.toNat
          = (Instruction.connect edge.source).text ++ [] := (List.append_nil _).symm
      have hmain : (Commander.mainConnect (Processes.env site) site.trackerAddr w
          (printUnsigned edge.source.toNat) (printUnsigned edge.target.toNat)).2 = s₁ := by
        rw [Commander.mainConnect, htarget, htext]
        dsimp only
        rw [hcommand]
      intro host l r
      have hrest := ih hready.deployed (fun e he => hedges e (List.mem_cons_of_mem _ he)) host l r
      have hsub := hsubs₁ host l r
      rw [Commander.connectByHand, List.foldl_cons, hmain]
      rw [Commander.connectByHand] at hrest
      rw [hrest, hsub, or_assoc, List.exists_mem_cons_iff]
      rfl

/-- The two ways agree: the same subscriptions, and for each edge its target
subscribes to its source. -/
structure Agree (place : ClusterID → Place) (edges : List GraphEdge) (created byHand : Processes) :
    Prop where
  same : ∀ host l r, created.Subs host l r ↔ byHand.Subs host l r
  direction : ∀ e ∈ edges, created.Subs (place e.target).host e.target e.source

/-- Between clusters that exist, the graph and the command line agree exactly if
each edge has its reverse, or was there in both directions before. -/
theorem wiring_agrees_iff (edges : List GraphEdge) (h : Ready site place ids s)
    (hedges : ∀ e ∈ edges, 0 < e.label ∧ e.source ∈ ids ∧ e.target ∈ ids) :
    Agree place edges (Commander.connectEdges (Processes.env site) edges s).2.world
        (Commander.connectByHand (Processes.env site) site.trackerAddr s.world edges)
      ↔ ∀ e ∈ edges, (∃ e' ∈ edges, e'.source = e.target ∧ e'.target = e.source) ∨
        s.world.Subs (place e.source).host e.source e.target
          ∧ s.world.Subs (place e.target).host e.target e.source := by
  obtain ⟨s', hrun, hcreated⟩ := h.connectEdges edges fun e he =>
    ⟨(hedges e he).1, (hedges e he).2.1⟩
  have hbyHand := connectByHand_subs edges h.deployed fun e he => (hedges e he).2.2
  rw [hrun]
  constructor
  · rintro ⟨hsame, -⟩ e he
    -- what each way makes of the edge, the other must have too
    have hforth := (hbyHand _ _ _).mp
      ((hsame _ _ _).mp ((hcreated _ _ _).mpr (.inr ⟨e, he, rfl, rfl, rfl⟩)))
    have hback := (hcreated _ _ _).mp
      ((hsame _ _ _).mpr ((hbyHand _ _ _).mpr (.inr ⟨e, he, rfl, rfl, rfl⟩)))
    rcases hforth with hforth | ⟨e', he', -, hsource, htarget⟩
    · rcases hback with hback | ⟨e', he', -, htarget, hsource⟩
      · exact .inr ⟨hforth, hback⟩
      · exact .inl ⟨e', he', htarget.symm, hsource.symm⟩
    · exact .inl ⟨e', he', htarget.symm, hsource.symm⟩
  · intro hreverse
    have hsame : ∀ host l r, s'.world.Subs host l r ↔ (Commander.connectByHand
        (Processes.env site) site.trackerAddr s.world edges).Subs host l r := by
      intro host l r
      rw [hcreated, hbyHand]
      constructor
      · rintro (hold | ⟨e, he, rfl, rfl, rfl⟩)
        · exact .inl hold
        · rcases hreverse e he with ⟨e', he', hsource, htarget⟩ | ⟨hold, -⟩
          · exact .inr ⟨e', he', by rw [htarget], htarget.symm, hsource.symm⟩
          · exact .inl hold
      · rintro (hold | ⟨e, he, rfl, rfl, rfl⟩)
        · exact .inl hold
        · rcases hreverse e he with ⟨e', he', hsource, htarget⟩ | ⟨-, hold⟩
          · exact .inr ⟨e', he', by rw [hsource], hsource.symm, htarget.symm⟩
          · exact .inl hold
    refine ⟨hsame, ?_⟩
    intro e he
    exact (hsame _ _ _).mpr ((hbyHand _ _ _).mpr (.inr ⟨e, he, rfl, rfl, rfl⟩))

/-! ## Two clusters in one process -/

/-- The clusters 1 and 2, at two ports. -/
def twoPlaces (id : ClusterID) : Place := if id = 1 then ⟨⟨7, 21⟩, 0, 0⟩ else ⟨⟨7, 22⟩, 0, 1⟩

def twoSite : Site where
  trackerAddr := ⟨9, 1⟩
  client := ⟨7, 30⟩
  listens addr :=
    if addr = ⟨7, 21⟩ then some (0, 0) else if addr = ⟨7, 22⟩ then some (0, 1) else none
  command cmd := cmd
  turn _ := ⟨0, .kept, 0⟩
  os _ := true
  localIP := 0
  garbage := (0, 0, 0)

def twoProcesses : Processes where
  tracker := { Tracker.new with clusters := (AList.singleton 1 ⟨7, 21⟩).insert 2 ⟨7, 22⟩ }
  hosts _ := some (.start [.ofId 1, .ofId 2])
  tick := 0
  executed := []

theorem twoPlaces_deployed : ∀ id ∈ [1, 2], Deployed twoSite twoProcesses id (twoPlaces id) := by
  have hfresh : ¬ (0 : Int) < 0 - envUpdateTime := by decide
  intro id hid
  rcases List.mem_cons.mp hid with rfl | hid
  · exact ⟨by decide, ⟨⟨7, 21⟩, 0, rfl, fun _ => hfresh, by decide⟩, by decide, by decide,
      by decide, _, .ofId 1, rfl, rfl, rfl⟩
  · obtain rfl := List.mem_singleton.mp hid
    exact ⟨by decide, ⟨⟨7, 22⟩, 0, rfl, fun _ => hfresh, by decide⟩, by decide, by decide,
      by decide, _, .ofId 2, rfl, rfl, rfl⟩

/-- One edge from 1 to 2: the graph makes 1 subscribe, not 2. -/
theorem oneWay_disagrees : ¬ Agree twoPlaces [⟨1, 2, 5⟩]
    (Commander.connectEdges (Processes.env twoSite) [⟨1, 2, 5⟩]
      (.new twoSite.trackerAddr twoProcesses)).2.world
    (Commander.connectByHand (Processes.env twoSite) twoSite.trackerAddr twoProcesses
      [⟨1, 2, 5⟩]) := by
  intro h
  obtain ⟨s', hrun, hcreated⟩ := (Ready.fresh twoPlaces_deployed).connectEdges [⟨1, 2, 5⟩]
    (by simp)
  have hdirection := h.direction ⟨1, 2, 5⟩ List.mem_cons_self
  rw [hrun, hcreated] at hdirection
  rcases hdirection with ⟨s, hs, hsub⟩ | ⟨e, he, -, hsource, -⟩
  · cases hs
    exact absurd hsub List.not_mem_nil
  · rw [List.mem_singleton.mp he] at hsource
    exact absurd hsource (by decide)

/-- With the reverse edge, the two ways agree. -/
theorem wiring_agrees_iff_bothWays : Agree twoPlaces [⟨1, 2, 5⟩, ⟨2, 1, 5⟩]
    (Commander.connectEdges (Processes.env twoSite) [⟨1, 2, 5⟩, ⟨2, 1, 5⟩]
      (.new twoSite.trackerAddr twoProcesses)).2.world
    (Commander.connectByHand (Processes.env twoSite) twoSite.trackerAddr twoProcesses
      [⟨1, 2, 5⟩, ⟨2, 1, 5⟩]) :=
  (wiring_agrees_iff [⟨1, 2, 5⟩, ⟨2, 1, 5⟩] (Ready.fresh twoPlaces_deployed) (by simp)).mpr
    (by simp)

end DistributAr
