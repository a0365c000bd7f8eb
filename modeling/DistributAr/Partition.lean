/-
# `DistributAr.Partition` — the graph partitioner

`partgraph` deals the nodes of a DOT file among groups, lets two vertices of two
groups change places as long as nobody presses a key, and saves the graph with
the number of its group as the label of each node.  A step is undone if more
edges than before leave the two groups.

The results of `rand` are a list that is consumed.  There is no result (`none`) if the
list ends, if the parser leaves its bounds, or if there are so many nodes that
the loop that deals them, which counts with an `unsigned int`, does not end.

Whatever is drawn, each step has a result (`optimize_isSome`), the graph stays what
it was, and the groups stay as large as they were dealt (`saved_preserved`).
-/
import DistributAr.GraphFile
import DistributAr.Lib.Groups

namespace DistributAr

open Lib Groups
open scoped List

/-- `Vertex` -/
structure Vertex where
  id : Int32
  edges : List Int32
deriving DecidableEq, Repr

/-- `Vertex::swap`: the two vertices afterwards. -/
def Vertex.swap (v rhs : Vertex) : Vertex × Vertex := (⟨rhs.id, rhs.edges⟩, ⟨v.id, v.edges⟩)

namespace Partgraph

/-! ## Loading -/

/-- A vertex of `loadGraph`, with the edges that leave it. -/
def loadVertex (edges : List GraphEdge) (id : UInt32) : Vertex :=
  edges.foldl (fun v e => if e.source = id then { v with edges := v.edges ++ [e.target.toInt32] }
    else v) ⟨id.toInt32, []⟩

/-- The loop of `loadGraph` over the nodes, from some index on. -/
def loadNodes (edges : List GraphEdge) :
    List GraphNode → Nat → List (List Vertex) → List (List Vertex)
  | [], _, verts => verts
  | node :: nodes, i, verts =>
      loadNodes edges nodes (i + 1) (put verts (i % verts.length) (loadVertex edges node.id))

/-- `loadGraph`: the vertices and the edges. -/
def loadGraph (file : Option (List Char)) (verts : List (List Vertex)) :
    Option (List (List Vertex) × List GraphEdge) := do
  let (nodes, edges) ← GraphIO.parse file
  -- the index is an `unsigned int`: it never reaches a greater number
  if nodes.length < 2 ^ 32 then some (loadNodes edges nodes 0 verts, edges) else none

/-! ## Optimizing -/

/-- `countHyperEdges` -/
def countHyperEdges (partition : List Vertex) : Nat :=
  partition.foldl (fun count v => v.edges.foldl (fun count edge =>
    if partition.any (·.id = edge) then count else count + 1) count) 0

/-- `nodes[part1][vert1].swap( nodes[part2][vert2] )` -/
def swapVertices (nodes : List (List Vertex)) (part1 vert1 part2 vert2 : Nat) :
    Option (List (List Vertex)) := do
  let v ← thing? nodes part1 vert1
  let rhs ← thing? nodes part2 vert2
  some (replace (replace nodes part1 vert1 (v.swap rhs).1) part2 vert2 (v.swap rhs).2)

/-- `part2`: the first one drawn that is not `part1`. -/
def pickOther (size part1 : Nat) : List Nat → Option (Nat × List Nat)
  | [] => none
  | r :: rand => if part1 = r % size then pickOther size part1 rand else some (r % size, rand)

/-- `int edgeCount = …` -/
def edgeCount (nodes : List (List Vertex)) (part1 part2 : Nat) : Nat :=
  countHyperEdges (nodes[part1]?.getD []) + countHyperEdges (nodes[part2]?.getD [])

/-- `optimizePartitions` -/
def optimizePartitions (nodes : List (List Vertex)) :
    List Nat → Option (List (List Vertex) × List Nat)
  | [] => none
  | r :: rand => do
      let part1 := r % nodes.length
      let (part2, rand) ← pickOther nodes.length part1 rand
      match rand with
      | r1 :: r2 :: rand =>
          let vert1 := r1 % (nodes[part1]?.getD []).length
          let vert2 := r2 % (nodes[part2]?.getD []).length
          let swapped ← swapVertices nodes part1 vert1 part2 vert2
          if edgeCount nodes part1 part2 < edgeCount swapped part1 part2 then
            let undone ← swapVertices swapped part1 vert1 part2 vert2
            some (undone, rand)
          else some (swapped, rand)
      | _ => none

/-- The loop of `main`, for some number of steps. -/
def optimize : Nat → List (List Vertex) → List Nat → Option (List (List Vertex) × List Nat)
  | 0, nodes, rand => some (nodes, rand)
  | steps + 1, nodes, rand => do
      let (nodes, rand) ← optimizePartitions nodes rand
      optimize steps nodes rand

/-- `main` up to the end of its loop: what it returns if it gives up, otherwise the
vertices and the edges. -/
def partition (file : Option (List Char)) (groupCount : Int32) (steps : Nat) (rand : List Nat) :
    Option (Except Nat (List (List Vertex) × List GraphEdge)) :=
  if groupCount < 2 then some (.error 2) else do
    let (nodes, edges) ← loadGraph file (List.replicate groupCount.toInt.toNat [])
    if nodes.any (·.length < 1) then some (.error 3) else do
      let (nodes, _) ← optimize steps nodes rand
      some (.ok (nodes, edges))

/-! ## Saving -/

/-- `saveGraph`: the name of the file, and what is in it. -/
def saveGraph (now : Int) (verts : List (List Vertex)) (edges : List GraphEdge) :
    List Char × List Char :=
  let (name, file) := GraphIO.initGraph now
  let file := verts.zipIdx.foldl (fun file (vgroup, i) => vgroup.foldl (fun file v =>
    GraphIO.writeNode file v.id.toUInt32 (Int32.ofNat i).toInt) file) file
  let file := edges.foldl (fun file e => GraphIO.writeEdge file e.source e.target e.label) file
  (name, GraphIO.closeGraph file)

/-! ## What a step can do -/

/-- What `rand` gives in one step: `rejected` are the draws of the part that is
taken already. -/
structure Draws where
  part1 : Nat
  rejected : List Nat
  part2 : Nat
  vert1 : Nat
  vert2 : Nat

/-- The draws in their order. -/
def Draws.rand (d : Draws) : List Nat := d.part1 :: (d.rejected ++ [d.part2, d.vert1, d.vert2])

/-- The loop that draws the second part ends where it does. -/
structure Draws.Valid (d : Draws) (size : Nat) : Prop where
  rejected : ∀ x ∈ d.rejected, d.part1 % size = x % size
  ne : d.part1 % size ≠ d.part2 % size

/-- The vertices drawn change places. -/
def Draws.swap (d : Draws) (nodes : List (List Vertex)) : Option (List (List Vertex)) :=
  swapVertices nodes
    (d.part1 % nodes.length)
    (d.vert1 % (nodes[d.part1 % nodes.length]?.getD []).length)
    (d.part2 % nodes.length)
    (d.vert2 % (nodes[d.part2 % nodes.length]?.getD []).length)

/-- More edges than before leave the two groups. -/
def Draws.Worse (d : Draws) (nodes swapped : List (List Vertex)) : Prop :=
  edgeCount nodes (d.part1 % nodes.length) (d.part2 % nodes.length)
    < edgeCount swapped (d.part1 % nodes.length) (d.part2 % nodes.length)

instance (d : Draws) (nodes swapped : List (List Vertex)) : Decidable (d.Worse nodes swapped) :=
  inferInstanceAs (Decidable (_ < _))

theorem swapVertices_eq_some {nodes swapped : List (List Vertex)} {part1 vert1 part2 vert2 : Nat}
    (h : swapVertices nodes part1 vert1 part2 vert2 = some swapped) :
    ∃ v rhs, thing? nodes part1 vert1 = some v ∧ thing? nodes part2 vert2 = some rhs
      ∧ swapped = replace (replace nodes part1 vert1 rhs) part2 vert2 v := by
  obtain ⟨v, hv, h⟩ := Option.bind_eq_some_iff.mp h
  obtain ⟨rhs, hrhs, h⟩ := Option.bind_eq_some_iff.mp h
  cases h
  exact ⟨v, rhs, hv, hrhs, rfl⟩

/-- The same swap again is the way back. -/
theorem swapVertices_undo {nodes swapped : List (List Vertex)} {part1 vert1 part2 vert2 : Nat}
    (hne : part1 ≠ part2) (h : swapVertices nodes part1 vert1 part2 vert2 = some swapped) :
    swapVertices swapped part1 vert1 part2 vert2 = some nodes := by
  obtain ⟨v, rhs, hv, hrhs, rfl⟩ := swapVertices_eq_some h
  have hv' : thing? (replace (replace nodes part1 vert1 rhs) part2 vert2 v) part1 vert1
      = some rhs := by
    rw [thing?_replace _ _ _ hne.symm, thing?_replace_self _ hv]
  have hrhs' : thing? (replace (replace nodes part1 vert1 rhs) part2 vert2 v) part2 vert2
      = some v :=
    thing?_replace_self v ((thing?_replace _ _ _ hne).trans hrhs)
  rw [swapVertices, hv', hrhs']
  exact congrArg some (exchange_exchange hne hv hrhs)

theorem pickOther_eq_some {size part1 part2 : Nat} {rand rest : List Nat}
    (h : pickOther size part1 rand = some (part2, rest)) :
    ∃ rejected r, rand = rejected ++ r :: rest ∧ part2 = r % size
      ∧ (∀ x ∈ rejected, part1 = x % size) ∧ part1 ≠ r % size := by
  induction rand with
  | nil => cases h
  | cons r rand ih =>
      rw [pickOther] at h
      split at h
      · rename_i hsame
        obtain ⟨rejected, r', rfl, hpart, hrejected, hne⟩ := ih h
        exact ⟨r :: rejected, r', rfl, hpart, List.forall_mem_cons.mpr ⟨hsame, hrejected⟩, hne⟩
      · rename_i hne
        cases h
        exact ⟨[], r, rfl, rfl, fun x hx => absurd hx List.not_mem_nil, hne⟩

theorem pickOther_rejected {size part1 r : Nat} (rand : List Nat) (hr : part1 ≠ r % size) :
    ∀ {rejected : List Nat}, (∀ x ∈ rejected, part1 = x % size) →
      pickOther size part1 (rejected ++ r :: rand) = some (r % size, rand) := by
  intro rejected
  induction rejected with
  | nil => exact fun _ => if_neg hr
  | cons x rejected ih =>
      intro hrejected
      rw [List.cons_append, pickOther, if_pos (hrejected x List.mem_cons_self)]
      exact ih fun x' hx' => hrejected x' (List.mem_cons_of_mem _ hx')

theorem Draws.rand_append (d : Draws) (rest : List Nat) :
    d.rand ++ rest = d.part1 :: (d.rejected ++ d.part2 :: d.vert1 :: d.vert2 :: rest) := by
  rw [rand, List.cons_append, List.append_assoc]
  rfl

/-- A step with some draws leaves the groups swapped, or as they were if that is worse. -/
theorem optimizePartitions_of_swap {nodes swapped : List (List Vertex)} {d : Draws}
    (rest : List Nat) (hd : d.Valid nodes.length) (hswap : d.swap nodes = some swapped) :
    optimizePartitions nodes (d.rand ++ rest)
      = some (if d.Worse nodes swapped then nodes else swapped, rest) := by
  have hundo := swapVertices_undo hd.ne hswap
  rw [Draws.swap] at hswap
  rw [d.rand_append, optimizePartitions, pickOther_rejected _ hd.ne hd.rejected,
    Option.bind_eq_bind, Option.bind_some]
  dsimp only
  rw [hswap, Option.bind_eq_bind, Option.bind_some]
  by_cases hworse : d.Worse nodes swapped
  · have hmore : edgeCount nodes (d.part1 % nodes.length) (d.part2 % nodes.length)
        < edgeCount swapped (d.part1 % nodes.length) (d.part2 % nodes.length) := hworse
    rw [if_pos hworse, if_pos hmore, hundo]
    rfl
  · have hmore : ¬ edgeCount nodes (d.part1 % nodes.length) (d.part2 % nodes.length)
        < edgeCount swapped (d.part1 % nodes.length) (d.part2 % nodes.length) := hworse
    rw [if_neg hworse, if_neg hmore]

/-- And each step has some draws. -/
theorem optimizePartitions_eq_some {nodes next : List (List Vertex)} {rand rest : List Nat}
    (h : optimizePartitions nodes rand = some (next, rest)) :
    ∃ (d : Draws) (swapped : List (List Vertex)), rand = d.rand ++ rest ∧ d.Valid nodes.length
      ∧ d.swap nodes = some swapped
      ∧ next = if d.Worse nodes swapped then nodes else swapped := by
  cases rand with
  | nil => cases h
  | cons r rand =>
      obtain ⟨⟨part2, drawn⟩, hpick, h'⟩ := Option.bind_eq_some_iff.mp h
      obtain ⟨rejected, r', rfl, rfl, hrejected, hne⟩ := pickOther_eq_some hpick
      dsimp only at h'
      split at h'
      · rename_i r1 r2 rand'
        obtain ⟨swapped, hswap, -⟩ := Option.bind_eq_some_iff.mp h'
        have hstep := optimizePartitions_of_swap (d := ⟨r, rejected, r', r1, r2⟩) rand'
          ⟨hrejected, hne⟩ hswap
        rw [Draws.rand_append, h] at hstep
        injection hstep with hstep
        injection hstep with hnext hrest
        refine ⟨⟨r, rejected, r', r1, r2⟩, swapped, ?_, ⟨hrejected, hne⟩, hswap, hnext⟩
        rw [Draws.rand_append, hrest]
      · cases h'

/-! ## What a step keeps -/

/-- The same vertices in groups of the same sizes. -/
structure Rearranged (nodes nodes' : List (List Vertex)) : Prop where
  vertices : nodes'.flatten ~ nodes.flatten
  sizes : sizes nodes' = sizes nodes

theorem Rearranged.refl (nodes : List (List Vertex)) : Rearranged nodes nodes := ⟨.refl _, rfl⟩

theorem Rearranged.trans {nodes nodes' nodes'' : List (List Vertex)} (h : Rearranged nodes nodes')
    (h' : Rearranged nodes' nodes'') : Rearranged nodes nodes'' :=
  ⟨h'.vertices.trans h.vertices, h'.sizes.trans h.sizes⟩

theorem swapVertices_rearranged {nodes swapped : List (List Vertex)}
    {part1 vert1 part2 vert2 : Nat} (hne : part1 ≠ part2)
    (h : swapVertices nodes part1 vert1 part2 vert2 = some swapped) : Rearranged nodes swapped := by
  obtain ⟨v, rhs, hv, hrhs, rfl⟩ := swapVertices_eq_some h
  exact ⟨flatten_exchange hne hv hrhs, by rw [sizes_replace, sizes_replace]⟩

theorem optimizePartitions_rearranged {nodes nodes' : List (List Vertex)} {rand rand' : List Nat}
    (h : optimizePartitions nodes rand = some (nodes', rand')) : Rearranged nodes nodes' := by
  obtain ⟨d, swapped, -, hd, hswap, rfl⟩ := optimizePartitions_eq_some h
  split
  · exact .refl nodes
  · exact swapVertices_rearranged hd.ne hswap

theorem optimize_rearranged : ∀ {steps : Nat} {nodes nodes' : List (List Vertex)}
    {rand rand' : List Nat}, optimize steps nodes rand = some (nodes', rand') →
    Rearranged nodes nodes' := by
  intro steps
  induction steps with
  | zero =>
      intro nodes nodes' rand rand' h
      cases h
      exact .refl nodes
  | succ steps ih =>
      intro nodes nodes' rand rand' h
      obtain ⟨⟨next, rand⟩, hstep, h⟩ := Option.bind_eq_some_iff.mp h
      exact (optimizePartitions_rearranged hstep).trans (ih h)

/-! ## That a step is made -/

theorem swapVertices_isSome {nodes : List (List Vertex)} {part1 vert1 part2 vert2 : Nat}
    (h1 : (thing? nodes part1 vert1).isSome) (h2 : (thing? nodes part2 vert2).isSome) :
    ∃ nodes', swapVertices nodes part1 vert1 part2 vert2 = some nodes' := by
  obtain ⟨v, hv⟩ := Option.isSome_iff_exists.mp h1
  obtain ⟨rhs, hrhs⟩ := Option.isSome_iff_exists.mp h2
  rw [swapVertices, hv, hrhs]
  exact ⟨_, rfl⟩

/-- Whatever is drawn, a step has a result: groups that are not empty have what is
picked from them. -/
theorem optimizePartitions_isSome {nodes : List (List Vertex)} {d : Draws} (rand : List Nat)
    (hpos : 0 < nodes.length) (hfull : 0 ∉ sizes nodes) (hd : d.Valid nodes.length) :
    ∃ nodes', optimizePartitions nodes (d.rand ++ rand) = some (nodes', rand) := by
  have hpicked : ∀ part x : Nat, part < nodes.length →
      (thing? nodes part (x % (nodes[part]?.getD []).length)).isSome := by
    intro part x hpart
    have hgroup : nodes[part].length ≠ 0 := fun hzero =>
      hfull (List.mem_map.mpr ⟨nodes[part], List.getElem_mem hpart, hzero⟩)
    rw [thing?_isSome_iff, sizes, List.getElem?_map, List.getElem?_eq_getElem hpart]
    exact ⟨_, rfl, Nat.mod_lt _ (Nat.pos_of_ne_zero hgroup)⟩
  have h1 := hpicked (d.part1 % nodes.length) d.vert1 (Nat.mod_lt _ hpos)
  have h2 := hpicked (d.part2 % nodes.length) d.vert2 (Nat.mod_lt _ hpos)
  obtain ⟨swapped, hswap⟩ := swapVertices_isSome h1 h2
  exact ⟨_, optimizePartitions_of_swap rand hd hswap⟩

/-- So have any number of steps. -/
theorem optimize_isSome : ∀ {draws : List Draws} {nodes : List (List Vertex)},
    0 < nodes.length → 0 ∉ sizes nodes → (∀ d ∈ draws, d.Valid nodes.length) →
    ∃ nodes', optimize draws.length nodes (draws.flatMap Draws.rand) = some (nodes', []) := by
  intro draws
  induction draws with
  | nil => exact fun {nodes} _ _ _ => ⟨nodes, rfl⟩
  | cons d draws ih =>
      intro nodes hpos hfull hvalid
      obtain ⟨next, hnext⟩ := optimizePartitions_isSome (draws.flatMap Draws.rand) hpos hfull
        (hvalid d List.mem_cons_self)
      have hsizes := (optimizePartitions_rearranged hnext).sizes
      have hlength : next.length = nodes.length := by
        rw [← length_sizes, hsizes, length_sizes]
      have hpos' : 0 < next.length := by rwa [hlength]
      have hfull' : 0 ∉ sizes next := by rwa [hsizes]
      have hvalid' : ∀ d' ∈ draws, d'.Valid next.length := by
        intro d' hd'
        rw [hlength]
        exact hvalid d' (List.mem_cons_of_mem _ hd')
      obtain ⟨nodes', hrest⟩ := ih hpos' hfull' hvalid'
      refine ⟨nodes', ?_⟩
      rw [List.length_cons, optimize, List.flatMap_cons, hnext]
      exact hrest

/-! ## What is loaded -/

theorem loadVertex_eq (edges : List GraphEdge) (id : UInt32) :
    loadVertex edges id
      = ⟨id.toInt32, (edges.filter (·.source = id)).map (·.target.toInt32)⟩ := by
  have hfrom : ∀ (edges : List GraphEdge) (v : Vertex),
      edges.foldl (fun v e =>
          if e.source = id then { v with edges := v.edges ++ [e.target.toInt32] } else v) v
        = ⟨v.id, v.edges ++ (edges.filter (·.source = id)).map (·.target.toInt32)⟩ := by
    intro edges
    induction edges with
    | nil =>
        intro v
        rw [List.filter_nil, List.map_nil, List.append_nil]
        rfl
    | cons e edges ih =>
        intro v
        rw [List.foldl_cons, ih]
        by_cases hsource : e.source = id
        · simp [hsource]
        · simp [hsource]
  exact hfrom edges ⟨id.toInt32, []⟩

theorem loadNodes_eq_deal (edges : List GraphEdge) :
    ∀ (nodes : List GraphNode) (i : Nat) (verts : List (List Vertex)),
      loadNodes edges nodes i verts = deal (nodes.map fun n => loadVertex edges n.id) i verts := by
  intro nodes
  induction nodes with
  | nil => exact fun _ _ => rfl
  | cons node nodes ih => exact fun i verts => ih _ _

/-- What groups of vertices are after loading: there is a vertex for each node, and
they were dealt. -/
structure Loaded (nodes : List GraphNode) (edges : List GraphEdge) (groupCount : Nat)
    (verts : List (List Vertex)) : Prop where
  length : verts.length = groupCount
  vertices : verts.flatten ~ nodes.map fun n => loadVertex edges n.id
  dealt : Dealt nodes.length (sizes verts)

theorem loadGraph_loaded {file : Option (List Char)} {nodes : List GraphNode}
    {edges edges' : List GraphEdge} {groupCount : Nat} {verts : List (List Vertex)}
    (hparse : GraphIO.parse file = some (nodes, edges)) (hcount : 0 < groupCount)
    (h : loadGraph file (List.replicate groupCount []) = some (verts, edges')) :
    edges' = edges ∧ Loaded nodes edges groupCount verts := by
  rw [loadGraph, hparse, Option.bind_eq_bind, Option.bind_some] at h
  dsimp only at h
  split at h
  · cases h
    rw [loadNodes_eq_deal]
    refine ⟨rfl, ?_, ?_, ?_⟩
    · rw [length_deal, List.length_replicate]
    · refine (flatten_deal _ 0 ?_).trans ?_
      · rwa [List.length_replicate]
      · rw [List.flatten_replicate_nil, List.append_nil]
    · have hdealt := dealt_deal (nodes.map fun n => loadVertex edges n.id) 0 (dealt_zero groupCount)
      rwa [Nat.zero_add, List.length_map] at hdealt
  · cases h

/-- Nothing of this is lost when vertices change places. -/
theorem Loaded.rearranged {nodes : List GraphNode} {edges : List GraphEdge} {groupCount : Nat}
    {verts verts' : List (List Vertex)} (h : Loaded nodes edges groupCount verts)
    (hverts : Rearranged verts verts') : Loaded nodes edges groupCount verts' := by
  refine ⟨?_, hverts.vertices.trans h.vertices, ?_⟩
  · rw [← length_sizes, hverts.sizes, length_sizes, h.length]
  · rw [hverts.sizes]
    exact h.dealt

theorem partition_loaded {file : Option (List Char)} {nodes : List GraphNode}
    {edges edges' : List GraphEdge} {groupCount : Int32} {steps : Nat} {rand : List Nat}
    {verts : List (List Vertex)} (hparse : GraphIO.parse file = some (nodes, edges))
    (h : partition file groupCount steps rand = some (.ok (verts, edges'))) :
    edges' = edges ∧ Loaded nodes edges groupCount.toInt.toNat verts := by
  unfold partition at h
  split at h
  · cases h
  · rename_i hcount
    obtain ⟨⟨loaded, edges''⟩, hload, h⟩ := Option.bind_eq_some_iff.mp h
    dsimp only at h
    split at h
    · cases h
    · obtain ⟨⟨verts', rand'⟩, hrun, h⟩ := Option.bind_eq_some_iff.mp h
      cases h
      have hpos : 0 < groupCount.toInt.toNat := by
        rw [Int32.lt_iff_toInt_lt] at hcount
        have htwo : (2 : Int32).toInt = 2 := rfl
        omega
      obtain ⟨hedges, hloaded⟩ := loadGraph_loaded hparse hpos hload
      exact ⟨hedges, hloaded.rearranged (optimize_rearranged hrun)⟩

/-! ## What is saved -/

/-- The nodes that `saveGraph` writes. -/
def savedNodes (verts : List (List Vertex)) : List GraphNode :=
  (numbered verts).map fun (i, v) => ⟨v.id.toUInt32, (Int32.ofNat i).toInt⟩

theorem saveGraph_eq (now : Int) (verts : List (List Vertex)) (edges : List GraphEdge) :
    (saveGraph now verts edges).2 = GraphIO.written now (savedNodes verts) edges := by
  simp only [savedNodes, numbered, numberedFrom, GraphIO.written, List.foldl_map,
    List.foldl_flatMap]
  rfl

/-- The graph is what it was, and its groups are balanced. -/
structure Preserved (nodes : List GraphNode) (edges : List GraphEdge) (groupCount : Nat)
    (verts : List (List Vertex)) : Prop where
  /-- Each node is written once. -/
  ids : (savedNodes verts).map (·.id) ~ nodes.map (·.id)
  /-- Its label is a group. -/
  groups : ∀ n ∈ savedNodes verts, 0 ≤ n.label ∧ n.label < groupCount
  /-- The groups written differ by at most one in size. -/
  balanced : ∀ g h : Nat, g < groupCount → h < groupCount →
    (savedNodes verts).countP (·.label = (g : Int))
      ≤ (savedNodes verts).countP (·.label = (h : Int)) + 1
  /-- A vertex has the targets of the edges that leave it, in the order of the file. -/
  targets : ∀ group ∈ verts, ∀ v ∈ group,
    v.edges = (edges.filter (·.source = v.id.toUInt32)).map (·.target.toInt32)

/-- The number of a group, as an `int`. -/
theorem toInt_ofNat_group {groupCount : Int32} {i : Nat} (hi : i < groupCount.toInt.toNat) :
    (Int32.ofNat i).toInt = i := by
  have hlt := Int32.toInt_lt groupCount
  exact Int32.toInt_ofNat_of_lt (by omega)

section Saved

variable {nodes : List GraphNode} {edges : List GraphEdge} {groupCount : Int32}
  {verts : List (List Vertex)}

/-- There is a vertex for each node. -/
theorem ids_of_loaded {count : Nat} (h : Loaded nodes edges count verts) :
    verts.flatten.map (·.id.toUInt32) ~ nodes.map (·.id) := by
  have hids : ∀ id, (loadVertex edges id).id.toUInt32 = id := by
    intro id
    rw [loadVertex_eq, UInt32.toUInt32_toInt32]
  have hvertices := h.vertices.map fun v => v.id.toUInt32
  simp only [List.map_map, Function.comp_def, hids] at hvertices
  exact hvertices

theorem ids_savedNodes (h : Loaded nodes edges groupCount.toInt.toNat verts) :
    (savedNodes verts).map (·.id) ~ nodes.map (·.id) := by
  have hvertices := ids_of_loaded h
  rw [← map_snd_numbered, List.map_map] at hvertices
  rw [savedNodes, List.map_map]
  exact hvertices

theorem label_savedNodes (h : Loaded nodes edges groupCount.toInt.toNat verts) {n : GraphNode}
    (hn : n ∈ savedNodes verts) : 0 ≤ n.label ∧ n.label < groupCount.toInt.toNat := by
  obtain ⟨x, hx, rfl⟩ := List.mem_map.mp hn
  have hlt := fst_lt_of_mem_numbered hx
  rw [h.length] at hlt
  show 0 ≤ (Int32.ofNat x.1).toInt ∧ (Int32.ofNat x.1).toInt < _
  rw [toInt_ofNat_group hlt]
  omega

/-- There is a node for each vertex of the group. -/
theorem countP_savedNodes (h : Loaded nodes edges groupCount.toInt.toNat verts) {g : Nat}
    (hg : g < verts.length) :
    (savedNodes verts).countP (·.label = (g : Int)) = verts[g].length := by
  rw [savedNodes, List.countP_map, ← countP_numbered hg]
  refine List.countP_congr ?_
  intro x hx
  have hlt := fst_lt_of_mem_numbered hx
  rw [h.length] at hlt
  simp only [Function.comp_apply, decide_eq_true_eq, toInt_ofNat_group hlt]
  omega

theorem targets_of_mem {count : Nat} (h : Loaded nodes edges count verts) {group : List Vertex}
    (hgroup : group ∈ verts) {v : Vertex} (hv : v ∈ group) :
    v.edges = (edges.filter (·.source = v.id.toUInt32)).map (·.target.toInt32) := by
  have hmem := h.vertices.mem_iff.mp (List.mem_flatten_of_mem hgroup hv)
  obtain ⟨node, -, rfl⟩ := List.mem_map.mp hmem
  rw [loadVertex_eq, UInt32.toUInt32_toInt32]

end Saved

/-- Whatever is drawn in however many steps, the graph that is saved is the one that
was parsed, in groups of balanced sizes. -/
theorem saved_preserved {file : Option (List Char)} {nodes : List GraphNode}
    {edges edges' : List GraphEdge} {groupCount : Int32} {steps : Nat} {rand : List Nat}
    {verts : List (List Vertex)} (now : Int) (hparse : GraphIO.parse file = some (nodes, edges))
    (h : partition file groupCount steps rand = some (.ok (verts, edges'))) :
    Preserved nodes edges groupCount.toInt.toNat verts
      ∧ (saveGraph now verts edges').2 = GraphIO.written now (savedNodes verts) edges := by
  obtain ⟨rfl, hloaded⟩ := partition_loaded hparse h
  refine ⟨⟨ids_savedNodes hloaded, fun n hn => label_savedNodes hloaded hn, ?_,
    fun group hgroup v hv => targets_of_mem hloaded hgroup hv⟩, saveGraph_eq now verts edges'⟩
  intro g h hg hh
  rw [← hloaded.length] at hg hh
  rw [countP_savedNodes hloaded hg, countP_savedNodes hloaded hh]
  exact hloaded.dealt.even _ (List.mem_map_of_mem (List.getElem_mem hg)) _
    (List.mem_map_of_mem (List.getElem_mem hh))

/-- A graph of three nodes. -/
def threeNodes : List Char :=
  "1 [label=1]\n2 [label=1]\n3 [label=1]\n1 -> 2 [label=7]\n".toList

/-- In two groups, 3 and 1 have changed places. -/
theorem saved_preserved_threeNodes :
    Preserved [⟨1, 1⟩, ⟨2, 1⟩, ⟨3, 1⟩] [⟨1, 2, 7⟩] 2 [[⟨2, []⟩, ⟨3, []⟩], [⟨1, [2]⟩]]
      ∧ (saveGraph GraphIO.yr20 [[⟨2, []⟩, ⟨3, []⟩], [⟨1, [2]⟩]] [⟨1, 2, 7⟩]).2
        = GraphIO.written GraphIO.yr20 (savedNodes [[⟨2, []⟩, ⟨3, []⟩], [⟨1, [2]⟩]])
          [⟨1, 2, 7⟩] := by
  have hparse : GraphIO.parse (some threeNodes)
      = some ([⟨1, 1⟩, ⟨2, 1⟩, ⟨3, 1⟩], [⟨1, 2, 7⟩]) := by decide +kernel
  have hrun : partition (some threeNodes) 2 1 [0, 2, 1, 0, 0]
      = some (.ok ([[⟨2, []⟩, ⟨3, []⟩], [⟨1, [2]⟩]], [⟨1, 2, 7⟩])) := by decide +kernel
  exact saved_preserved GraphIO.yr20 hparse hrun

end Partgraph

end DistributAr
