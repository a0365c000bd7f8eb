/-
# `DistributAr.Generator` — random graphs

`graph` writes a DOT file for as many clusters as its argument says: a node for each
of them, and for each of them some edges to random clusters, all with one weight.

| drawn             | from                                                 |
|-------------------|------------------------------------------------------|
| the parameters    | two numbers, with the logarithm of the size          |
| a cluster's edges | four numbers: twice the number of edges, twice the weight |
| an edge           | one number: where it goes                            |

What `rand` gives is a list that is consumed, and the logarithm is a parameter.  There
is no result (`none`) if the list ends, if a remainder by 0 is taken, as it is for
a single cluster, whose logarithm is 0, or if a loop does not end.

`drawn` is the graph that the numbers give.  The file is the one that `GraphIO` writes
for it, so the client reads that graph, and connects the clusters as it says
(`wires_generated`): except for the clusters whose weight is 0, which are left without
connections.
-/
import DistributAr.GraphFile
import DistributAr.Wiring

namespace DistributAr

open Lib

namespace Connector

/-- What `Connector::GenerateParameters` gives back. -/
structure Parameters where
  connectivity : Nat
  weight : Nat
  ioConnectivity : Nat
  ioWeight : Nat

/-- `Connector::GenerateParameters`, when `(int) ceil(log(networkSize))` is known. -/
def generateParameters (logNetSize : Nat) : List Nat → Option (Parameters × List Nat)
  | r1 :: r2 :: rand =>
      if logNetSize = 0 then none
      else
        let connectivity := 10 + r1 % logNetSize
        let weight := 5 + r2 % maxOutputNodes
        some (⟨connectivity, weight, connectivity * 10, weight⟩, rand)
  | _ => none

/-- The loop of `Connector::Connect`. -/
def connectLoop (cluster clusterCount : UInt32) (weight : Nat) :
    Nat → List Char → List Nat → Option (List Char × List Nat)
  | 0, graph, rand => some (graph, rand)
  | i + 1, graph, r :: rand =>
      if clusterCount = 0 then none
      else
        let destination := 1 + UInt32.ofNat r % clusterCount
        connectLoop cluster clusterCount weight i
          ( GraphIO.writeEdge graph cluster destination weight) rand
  | _ + 1, _, [] => none

/-- `Connector::Connect` -/
def connect (cluster clusterCount : UInt32) (avgConnectivity avgWeight : Nat)
    (graph : List Char) : List Nat → Option (List Char × List Nat)
  | r1 :: r2 :: r3 :: r4 :: rand =>
      if avgConnectivity = 0 ∨ avgWeight = 0 then none
      else
        let connectivity := r1 % avgConnectivity + r2 % avgConnectivity
        let weight := r3 % avgWeight + r4 % avgWeight
        connectLoop cluster clusterCount weight connectivity graph rand
  | _ => none

/-- The clusters from 1 on. -/
def clusters (networkSize : UInt32) : List ClusterID :=
  (List.range networkSize.toNat).map fun i => UInt32.ofNat (i + 1)

/-- `Connector::BuildNetwork`: the name of the file, and what is in it.  A counter
that is an `unsigned int` is never greater than the largest of them. -/
def buildNetwork (now : Int) (networkSize : UInt32) (avgConnectivity avgWeight : Nat)
    (rand : List Nat) : Option (List Char × List Char) :=
  if networkSize = 0xFFFFFFFF then none
  else do
    let (name, graph) := GraphIO.initGraph now
    let graph := (clusters networkSize).foldl (fun graph i => GraphIO.writeNode graph i 1000) graph
    let (graph, _) ← (clusters networkSize).foldlM (fun (graph, rand) cluster =>
      connect cluster networkSize avgConnectivity avgWeight graph rand) (graph, rand)
    some (name, GraphIO.closeGraph graph)

/-- `main` of the generator.  The logarithm of 0 has no `int`. -/
def main (ceilLog : UInt32 → Nat) (now : Int) (argv1 : List Char) (rand : List Nat) :
    Option (List Char × List Char) :=
  let networkSize := UInt32.ofInt ( GraphIO.atoi argv1)
  if networkSize = 0 then none
  else do
    let (p, rand) ← generateParameters (ceilLog networkSize) rand
    buildNetwork now networkSize p.connectivity p.weight rand

/-! ## The graph that is drawn -/

/-- A cluster with its edges. -/
structure Fan where
  cluster : ClusterID
  weight : Nat
  targets : List ClusterID

/-- As edges of a graph. -/
def Fan.edges (f : Fan) : List GraphEdge :=
  f.targets.map fun target => ⟨f.cluster, target, f.weight⟩

/-- The edges of a cluster that some numbers give, and the numbers that are left. -/
def Fan.draw (cluster : ClusterID) (networkSize : UInt32) (avgConnectivity avgWeight : Nat) :
    List Nat → Fan × List Nat
  | r1 :: r2 :: r3 :: r4 :: rand =>
      let connectivity := r1 % avgConnectivity + r2 % avgConnectivity
      (⟨cluster, r3 % avgWeight + r4 % avgWeight,
        (rand.take connectivity).map fun r => 1 + UInt32.ofNat r % networkSize⟩,
        rand.drop connectivity)
  | rand => (⟨cluster, 0, []⟩, rand)

/-- The edges of one cluster after another. -/
def drawFans (networkSize : UInt32) (avgConnectivity avgWeight : Nat) :
    List ClusterID → List Nat → List Fan
  | [], _ => []
  | cluster :: clusters, rand =>
      let (fan, rand) := Fan.draw cluster networkSize avgConnectivity avgWeight rand
      fan :: drawFans networkSize avgConnectivity avgWeight clusters rand

/-- The graph that some numbers give: the first two are for the averages. -/
def drawn (logNetSize : Nat) (networkSize : UInt32) : List Nat → List Fan
  | r1 :: r2 :: rand => drawFans networkSize (10 + r1 % logNetSize) (5 + r2 % maxOutputNodes)
      (clusters networkSize) rand
  | _ => []

/-- What can be drawn. -/
structure Fan.Drawn (networkSize : UInt32) (avgConnectivity avgWeight : Nat) (f : Fan) : Prop where
  targets : ∀ target ∈ f.targets, target ∈ clusters networkSize
  length : f.targets.length < 2 * avgConnectivity
  weight : f.weight < 2 * avgWeight

/-- The nodes of the graph. -/
def nodes (networkSize : UInt32) : List GraphNode :=
  (clusters networkSize).map fun id => ⟨id, 1000⟩

/-- Some edges more in a file. -/
def writeEdges (graph : List Char) (edges : List GraphEdge) : List Char :=
  edges.foldl (fun file edge => GraphIO.writeEdge file edge.source edge.target edge.label) graph

variable {n id : UInt32} {c w : Nat} {rand : List Nat}

theorem mem_clusters : id ∈ clusters n ↔ 1 ≤ id.toNat ∧ id.toNat ≤ n.toNat := by
  have hn := n.toNat_lt
  rw [clusters, List.mem_map]
  constructor
  · rintro ⟨i, hi, rfl⟩
    have hlt := List.mem_range.mp hi
    rw [UInt32.toNat_ofNat_of_lt' (show i + 1 < 2 ^ 32 by omega)]
    omega
  · rintro ⟨hpos, hle⟩
    refine ⟨id.toNat - 1, List.mem_range.mpr (by omega), ?_⟩
    rw [Nat.sub_add_cancel hpos, UInt32.ofNat_toNat]

/-- Every destination is a cluster. -/
theorem destination_mem (hn : n ≠ 0) (r : Nat) :
    1 + UInt32.ofNat r % n ∈ clusters n := by
  have hpos : 0 < n.toNat := Nat.pos_iff_ne_zero.mpr fun h => hn (UInt32.toNat_inj.mp h)
  have hlt := n.toNat_lt
  have hmod := Nat.mod_lt (UInt32.ofNat r).toNat hpos
  rw [mem_clusters, UInt32.toNat_add, UInt32.toNat_mod]
  show 1 ≤ (1 + _) % 2 ^ 32 ∧ (1 + _) % 2 ^ 32 ≤ _
  omega

/-- The loop adds edges, as many as it has rounds. -/
theorem connectLoop_spec (cluster : ClusterID) (graph : List Char) (hn : n ≠ 0) {i : Nat}
    (hrand : i ≤ rand.length) : connectLoop cluster n w i graph rand
      = some (writeEdges graph (Fan.edges
        ⟨cluster, w, (rand.take i).map fun r => 1 + UInt32.ofNat r % n⟩), rand.drop i) := by
  induction i generalizing graph rand with
  | zero => rfl
  | succ i ih =>
      cases rand with
      | nil => exact absurd hrand (Nat.not_succ_le_zero i)
      | cons r rand =>
          rw [connectLoop, if_neg hn]
          exact ih ( GraphIO.writeEdge graph cluster (1 + UInt32.ofNat r % n) w)
            (Nat.le_of_succ_le_succ hrand)

/-- What a cluster consumes at most. -/
def drawsOf (avgConnectivity : Nat) : Nat := 4 + 2 * avgConnectivity

/-- What is drawn for a cluster is written, and there are numbers for the next. -/
theorem connect_spec (cluster : ClusterID) (graph : List Char) (hn : n ≠ 0) (hc : 0 < c)
    (hw : 0 < w) (hrand : drawsOf c ≤ rand.length) :
    (Fan.draw cluster n c w rand).1.Drawn n c w
      ∧ rand.length ≤ (Fan.draw cluster n c w rand).2.length + drawsOf c
      ∧ connect cluster n c w graph rand = some (
        writeEdges graph (Fan.draw cluster n c w rand).1.edges,
        (Fan.draw cluster n c w rand).2) := by
  unfold drawsOf at hrand ⊢
  rcases rand with _ | ⟨r1, _ | ⟨r2, _ | ⟨r3, _ | ⟨r4, rand⟩⟩⟩⟩
  iterate 4
    simp only [List.length_cons, List.length_nil] at hrand
    omega
  have h1 := Nat.mod_lt r1 hc
  have h2 := Nat.mod_lt r2 hc
  have h3 := Nat.mod_lt r3 hw
  have h4 := Nat.mod_lt r4 hw
  simp only [List.length_cons] at hrand
  rw [Fan.draw]
  refine ⟨⟨?_, ?_, ?_⟩, ?_, ?_⟩
  · intro target htarget
    obtain ⟨r, -, rfl⟩ := List.mem_map.mp htarget
    exact destination_mem hn r
  · show ((rand.take (r1 % c + r2 % c)).map _).length < _
    rw [List.length_map, List.length_take]
    omega
  · show r3 % w + r4 % w < _
    omega
  · show _ ≤ (rand.drop (r1 % c + r2 % c)).length + _
    simp only [List.length_cons, List.length_drop]
    omega
  · rw [connect, if_neg (not_or.mpr ⟨Nat.pos_iff_ne_zero.mp hc, Nat.pos_iff_ne_zero.mp hw⟩)]
    exact connectLoop_spec cluster graph hn (by omega)

theorem Fan.draw_cluster (cluster : ClusterID) (rand : List Nat) :
    (Fan.draw cluster n c w rand).1.cluster = cluster := by
  unfold Fan.draw
  split <;> rfl

theorem writeEdges_append (graph : List Char) (edges more : List GraphEdge) :
    writeEdges graph (edges ++ more) = writeEdges (writeEdges graph edges) more :=
  List.foldl_append

theorem drawFans_cluster (ids : List ClusterID) (rand : List Nat) :
    (drawFans n c w ids rand).map Fan.cluster = ids := by
  induction ids generalizing rand with
  | nil => rfl
  | cons id ids ih =>
      rw [drawFans, List.map_cons, Fan.draw_cluster, ih]

/-- One cluster after another. -/
theorem fans_spec (graph : List Char) (hn : n ≠ 0) (hc : 0 < c) (hw : 0 < w)
    (ids : List ClusterID) (hrand : ids.length * drawsOf c ≤ rand.length) :
    (∀ f ∈ drawFans n c w ids rand, f.Drawn n c w) ∧ ∃ rest,
      ids.foldlM (fun (graph, rand) cluster => connect cluster n c w graph rand) (graph, rand)
        = some (writeEdges graph ((drawFans n c w ids rand).flatMap Fan.edges), rest) := by
  induction ids generalizing graph rand with
  | nil => exact ⟨fun _ h => absurd h List.not_mem_nil, rand, rfl⟩
  | cons id ids ih =>
      rw [List.length_cons, Nat.succ_mul] at hrand
      obtain ⟨hdrawn, hlength, hconnect⟩ := connect_spec id graph hn hc hw
        (Nat.le_trans (Nat.le_add_left _ _) hrand)
      rw [drawFans]
      rcases hdraw : Fan.draw id n c w rand with ⟨f, rest⟩
      rw [hdraw] at hdrawn hlength hconnect
      dsimp only at hdrawn hlength hconnect ⊢
      obtain ⟨hall, rest', hfold⟩ :=
        ih (writeEdges graph f.edges) (show ids.length * drawsOf c ≤ rest.length by omega)
      refine ⟨List.forall_mem_cons.mpr ⟨hdrawn, hall⟩, rest', ?_⟩
      rw [List.foldlM_cons, List.flatMap_cons, writeEdges_append, ← hfold]
      dsimp only
      rw [hconnect]
      rfl

/-- The file is the one that is written for the graph. -/
theorem buildNetwork_spec (now : Int) (hn : n ≠ 0) (hmax : n ≠ 0xFFFFFFFF) (hc : 0 < c)
    (hw : 0 < w) (hrand : n.toNat * drawsOf c ≤ rand.length) :
    (∀ f ∈ drawFans n c w (clusters n) rand, f.Drawn n c w)
      ∧ buildNetwork now n c w rand = some (( GraphIO.initGraph now).1,
        GraphIO.written now (nodes n) ((drawFans n c w (clusters n) rand).flatMap Fan.edges)) := by
  have hlength : (clusters n).length = n.toNat := by simp [clusters]
  obtain ⟨hdrawn, rest, hfold⟩ := fans_spec
    ((clusters n).foldl (fun graph i => GraphIO.writeNode graph i 1000) ( GraphIO.initGraph now).2)
    hn hc hw (clusters n) (by rw [hlength]; exact hrand)
  refine ⟨hdrawn, ?_⟩
  rw [buildNetwork, if_neg hmax]
  dsimp only
  rw [hfold, GraphIO.written, nodes, List.foldl_map]
  rfl

/-- What the generator draws for a size, if it is given enough to draw from. -/
structure Network (logNetSize : Nat) (networkSize : UInt32) (fans : List Fan) : Prop where
  clusters : fans.map Fan.cluster = clusters networkSize
  targets : ∀ f ∈ fans, ∀ target ∈ f.targets, target ∈ Connector.clusters networkSize
  length : ∀ f ∈ fans, f.targets.length < 2 * (10 + logNetSize)
  weight : ∀ f ∈ fans, f.weight < 2 * (5 + maxOutputNodes)

theorem main_spec (ceilLog : UInt32 → Nat) (now : Int) (argv1 : List Char)
    (hn : UInt32.ofInt ( GraphIO.atoi argv1) = n) (hzero : n ≠ 0) (hmax : n ≠ 0xFFFFFFFF)
    (hlog : 0 < ceilLog n) (hrand : 2 + n.toNat * drawsOf (10 + ceilLog n) ≤ rand.length) :
    Network (ceilLog n) n (drawn (ceilLog n) n rand) ∧ main ceilLog now argv1 rand
      = some (( GraphIO.initGraph now).1,
        GraphIO.written now (nodes n) ((drawn (ceilLog n) n rand).flatMap Fan.edges)) := by
  rcases rand with _ | ⟨r1, _ | ⟨r2, rand⟩⟩
  iterate 2
    simp only [List.length_cons, List.length_nil] at hrand
    omega
  have h1 := Nat.mod_lt r1 hlog
  have h2 := Nat.mod_lt r2 (show 0 < maxOutputNodes by decide)
  have hdraws : drawsOf (10 + r1 % ceilLog n) ≤ drawsOf (10 + ceilLog n) := by
    unfold drawsOf
    omega
  have hmul := Nat.mul_le_mul_left n.toNat hdraws
  simp only [List.length_cons] at hrand
  obtain ⟨hdrawn, hbuild⟩ := buildNetwork_spec (c := 10 + r1 % ceilLog n)
    (w := 5 + r2 % maxOutputNodes) now hzero hmax (by omega) (by omega)
    (show n.toNat * drawsOf (10 + r1 % ceilLog n) ≤ rand.length by omega)
  refine ⟨⟨drawFans_cluster _ _, fun f hf => (hdrawn f hf).targets, ?_, ?_⟩, ?_⟩
  · intro f hf
    have hlength := (hdrawn f hf).length
    omega
  · intro f hf
    have hweight := (hdrawn f hf).weight
    omega
  · rw [main, hn, if_neg hzero, generateParameters, if_neg (Nat.pos_iff_ne_zero.mp hlog)]
    exact hbuild

/-! ## Reading it -/

variable {fans : List Fan} {logNetSize : Nat}

theorem label_of_mem {e : GraphEdge} (he : e ∈ fans.flatMap Fan.edges) :
    ∃ f ∈ fans, e.source = f.cluster ∧ e.target ∈ f.targets ∧ e.label = f.weight := by
  obtain ⟨f, hf, hedge⟩ := List.mem_flatMap.mp he
  obtain ⟨target, htarget, rfl⟩ := List.mem_map.mp hedge
  exact ⟨f, hf, rfl, htarget, rfl⟩

/-- The client and the partitioner read the graph that was drawn. -/
theorem Network.read (h : Network logNetSize n fans) {now : Int} (hnow : GraphIO.yr20 ≤ now) :
    GraphIO.parse (some ( GraphIO.written now (nodes n) (fans.flatMap Fan.edges)))
      = some (nodes n, (fans.flatMap Fan.edges).map GraphIO.edgeRead) := by
  have hthousand : GraphIO.LabelFits 1000 := ⟨by decide, by decide⟩
  have hnode : ∀ node ∈ nodes n, node.id ≠ 0 ∧ GraphIO.LabelFits node.label
      ∧ GraphIO.nodeRead node = node := by
    intro node hmem
    obtain ⟨id, hid, rfl⟩ := List.mem_map.mp hmem
    refine ⟨?_, hthousand, rfl⟩
    rintro rfl
    exact absurd (mem_clusters.mp hid).1 (by decide)
  have hlabel : ∀ e ∈ fans.flatMap Fan.edges, GraphIO.LabelFits e.label := by
    intro e he
    obtain ⟨f, hf, -, -, hweight⟩ := label_of_mem he
    have hlt := h.weight f hf
    have hmax : maxOutputNodes = 356 := rfl
    rw [hweight]
    exact ⟨by omega, by omega⟩
  rw [ GraphIO.parse_written hnow (fun node hmem => ⟨(hnode node hmem).1, (hnode node hmem).2.1⟩)
    hlabel]
  have hnodes : (nodes n).map GraphIO.nodeRead = nodes n :=
    (List.map_congr_left fun node hmem => (hnode node hmem).2.2).trans (List.map_id _)
  rw [hnodes]

/-! ## Connecting it -/

/-- Edges without a positive label are passed over. -/
theorem connectEdges_filter {σ : Type} (env : Env σ) (edges : List GraphEdge) (s : Commander σ) :
    Commander.connectEdges env (edges.filter fun e => 0 < e.label) s
      = Commander.connectEdges env edges s := by
  induction edges generalizing s with
  | nil => rfl
  | cons e edges ih =>
      by_cases hlabel : e.label > 0
      · rw [List.filter_cons_of_pos (by simpa using hlabel), Commander.connectEdges,
          Commander.connectEdges, if_pos hlabel, if_pos hlabel]
        dsimp only
        split
        · exact ih _
        · rfl
      · rw [List.filter_cons_of_neg (by simpa using hlabel), Commander.connectEdges,
          if_neg hlabel]
        exact ih s

/-- The edges that are left are those of the clusters with a weight. -/
theorem mem_read_iff {e : GraphEdge} :
    e ∈ ((fans.flatMap Fan.edges).map GraphIO.edgeRead).filter (fun e => 0 < e.label)
      ↔ ∃ f ∈ fans, 0 < f.weight ∧ e.source = f.cluster ∧ e.target ∈ f.targets
        ∧ e.label = f.weight := by
  rw [List.mem_filter, decide_eq_true_eq]
  constructor
  · rintro ⟨hread, hlabel⟩
    obtain ⟨e₀, he₀, rfl⟩ := List.mem_map.mp hread
    obtain ⟨f, hf, hsource, htarget, hweight⟩ := label_of_mem he₀
    have hread : ( GraphIO.edgeRead e₀).label = GraphIO.labelRead f.weight := by
      rw [← hweight]
      rfl
    rw [hread, GraphIO.labelRead] at hlabel
    split at hlabel
    · rename_i hne
      refine ⟨f, hf, by omega, hsource, htarget, hread.trans ?_⟩
      exact ( GraphIO.labelRead_eq_self_iff _).mpr hne
    · exact absurd hlabel (by decide)
  · rintro ⟨f, hf, hpos, hsource, htarget, hweight⟩
    refine ⟨List.mem_map.mpr ⟨e, List.mem_flatMap.mpr ⟨f, hf, ?_⟩, ?_⟩, by omega⟩
    · refine List.mem_map.mpr ⟨e.target, htarget, ?_⟩
      rw [← hsource, ← hweight]
    · exact ( GraphIO.edgeRead_eq_self_iff e).mpr (by omega)

/-- Whatever the random numbers are, the generator ends with a file, the file is read as
the graph that they draw, with an edge of every cluster to some clusters, and the
client, where all clusters exist, makes every cluster with a weight subscribe to just
these. -/
theorem wires_generated (ceilLog : UInt32 → Nat) (now : Int) (argv1 : List Char)
    (rand : List Nat) (n : UInt32) (site : Site) (place : ClusterID → Place)
    (s : Commander Processes) (hn : UInt32.ofInt ( GraphIO.atoi argv1) = n) (hzero : n ≠ 0)
    (hmax : n ≠ 0xFFFFFFFF) (hlog : 0 < ceilLog n)
    (hrand : 2 + n.toNat * drawsOf (10 + ceilLog n) ≤ rand.length) (hnow : GraphIO.yr20 ≤ now)
    (hready : Ready site place (clusters n) s) :
    let fans := drawn (ceilLog n) n rand
    let edges := (fans.flatMap Fan.edges).map GraphIO.edgeRead
    Network (ceilLog n) n fans
      ∧ (∃ name file, main ceilLog now argv1 rand = some (name, file)
        ∧ GraphIO.parse (some file) = some (nodes n, edges))
      ∧ ∃ s', Commander.connectEdges (Processes.env site) edges s = (.running, s')
        ∧ ∀ host l r, s'.world.Subs host l r ↔ s.world.Subs host l r
          ∨ ∃ f ∈ fans, 0 < f.weight ∧ host = (place l).host ∧ l = f.cluster ∧ r ∈ f.targets := by
  intro fans edges
  obtain ⟨hnetwork, hmain⟩ := main_spec ceilLog now argv1 hn hzero hmax hlog hrand
  have hcluster : ∀ f ∈ fans, f.cluster ∈ clusters n := fun f hf =>
    hnetwork.clusters ▸ List.mem_map_of_mem hf
  obtain ⟨s', hconnect, hsubs⟩ := hready.connectEdges (edges.filter fun e => 0 < e.label) (by
    intro e he
    obtain ⟨f, hf, hpos, hsource, -, hweight⟩ := mem_read_iff.mp he
    exact ⟨by omega, hsource ▸ hcluster f hf⟩)
  rw [connectEdges_filter] at hconnect
  refine ⟨hnetwork, ⟨_, _, hmain, hnetwork.read hnow⟩, s', hconnect, ?_⟩
  intro host l r
  rw [hsubs]
  refine or_congr_right ⟨?_, ?_⟩
  · rintro ⟨e, he, hhost, rfl, rfl⟩
    obtain ⟨f, hf, hpos, hsource, htarget, -⟩ := mem_read_iff.mp he
    exact ⟨f, hf, hpos, hhost, hsource, htarget⟩
  · rintro ⟨f, hf, hpos, hhost, rfl, htarget⟩
    exact ⟨⟨f.cluster, r, f.weight⟩, mem_read_iff.mpr ⟨f, hf, hpos, rfl, htarget, rfl⟩, hhost,
      rfl, rfl⟩

/-- A graph for the two clusters, drawn with a `rand` that always gives 1: each gets two
edges to the cluster 2. -/
theorem wires_generated_twoPlaces :
    (∃ name file, main (fun _ => 1) GraphIO.yr20 "2".toList (List.replicate 60 1)
        = some (name, file)
      ∧ GraphIO.parse (some file)
        = some (nodes 2, [⟨1, 2, 2⟩, ⟨1, 2, 2⟩, ⟨2, 2, 2⟩, ⟨2, 2, 2⟩]))
      ∧ ∃ s', Commander.connectEdges (Processes.env twoSite)
          [⟨1, 2, 2⟩, ⟨1, 2, 2⟩, ⟨2, 2, 2⟩, ⟨2, 2, 2⟩]
          (Commander.new twoSite.trackerAddr twoProcesses) = (.running, s')
        ∧ s'.world.Subs 0 1 2 ∧ s'.world.Subs 0 2 2 ∧ ¬ s'.world.Subs 0 2 1 := by
  have hready : Ready twoSite twoPlaces (clusters 2)
      (Commander.new twoSite.trackerAddr twoProcesses) := Ready.fresh twoPlaces_deployed
  obtain ⟨-, hread, s', hconnect, hsubs⟩ :=
    wires_generated (fun _ => 1) GraphIO.yr20 "2".toList (List.replicate 60 1) 2 twoSite twoPlaces
      _ rfl (by decide) (by decide) (by decide) (by decide) (Int.le_refl _) hready
  refine ⟨hread, s', hconnect, (hsubs 0 1 2).mpr (.inr ?_), (hsubs 0 2 2).mpr (.inr ?_), ?_⟩
  · exact ⟨⟨1, 2, [2, 2]⟩, List.mem_cons_self, by decide, rfl, rfl, List.mem_cons_self⟩
  · exact ⟨⟨2, 2, [2, 2]⟩, List.mem_cons_of_mem _ List.mem_cons_self, by decide, rfl, rfl,
      List.mem_cons_self⟩
  · rw [hsubs]
    rintro (⟨net, hnet, hsub⟩ | ⟨f, hf, -, -, -, htarget⟩)
    · cases hnet
      exact absurd hsub List.not_mem_nil
    · have hall : ∀ f ∈ drawn 1 2 (List.replicate 60 1), 1 ∉ f.targets := by decide
      exact hall f hf htarget

end Connector

end DistributAr
