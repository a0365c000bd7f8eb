/-
# `DistributAr.Cut` — what the partitioner minimizes

The cut of some groups is the sum of `countHyperEdges` over all of them.  A step of
`optimizePartitions` looks at two groups only.  That is enough: no other group
changes, and a group is counted by what is in it (`cut_swap`).

| of the groups of any run     |                                                        |
|------------------------------|--------------------------------------------------------|
| the cut                      | is the number of edges between groups (`cut_eq_crossing`) |
| a swap that would enlarge it | is undone, and everything is where it was              |
| any other swap               | stays, and the cut is not larger                       |

Edges to nodes that are not in the file, of a node to itself, and several between
two nodes are counted like all others.  The counts are an `int` in the source and
numbers here: they are the same for fewer than `2 ^ 31` edges.
-/
import DistributAr.Partition

namespace DistributAr

open Lib Groups
open scoped List

namespace Partgraph

/-- The sum of `countHyperEdges` over all groups. -/
def cut (groups : List (List Vertex)) : Nat := (groups.map countHyperEdges).sum

/-- Both ends of the edge are in one group. -/
def SameGroup (groups : List (List Vertex)) (e : GraphEdge) : Prop :=
  ∃ group ∈ groups,
    (∃ v ∈ group, v.id.toUInt32 = e.source) ∧ ∃ v ∈ group, v.id.toUInt32 = e.target

instance (groups : List (List Vertex)) (e : GraphEdge) : Decidable (SameGroup groups e) :=
  inferInstanceAs (Decidable (∃ group ∈ groups, _))

/-- How many edges leave a node of the file for another group, or for none. -/
def crossing (nodes : List GraphNode) (edges : List GraphEdge) (groups : List (List Vertex)) :
    Nat :=
  edges.countP fun e => e.source ∈ nodes.map (·.id) ∧ ¬ SameGroup groups e

/-! ## Counting -/

/-- No vertex of the group has this ID. -/
def External (group : List Vertex) (edge : Int32) : Bool := !group.any (·.id = edge)

theorem countHyperEdges_eq (group : List Vertex) :
    countHyperEdges group = (group.map fun v => v.edges.countP (External group)).sum := by
  have hedges : ∀ (edges : List Int32) (count : Nat),
      edges.foldl (fun count edge => if group.any (·.id = edge) then count else count + 1) count
        = count + edges.countP (External group) := by
    intro edges
    induction edges with
    | nil => exact fun _ => rfl
    | cons edge edges ih =>
        intro count
        rw [List.foldl_cons, ih, List.countP_cons, External]
        cases group.any (·.id = edge)
        · simp only [Bool.false_eq_true, if_false, Bool.not_false, if_true]
          omega
        · simp only [if_true, Bool.not_true, Bool.false_eq_true, if_false, Nat.add_zero]
  have hvertices : ∀ (vs : List Vertex) (count : Nat),
      vs.foldl (fun count v => v.edges.foldl (fun count edge =>
          if group.any (·.id = edge) then count else count + 1) count) count
        = count + (vs.map fun v => v.edges.countP (External group)).sum := by
    intro vs
    induction vs with
    | nil => exact fun _ => rfl
    | cons v vs ih =>
        intro count
        rw [List.foldl_cons, ih, hedges, List.map_cons, List.sum_cons, Nat.add_assoc]
  have hall := hvertices group 0
  rwa [Nat.zero_add] at hall

section Crossing

variable {nodes : List GraphNode} {edges : List GraphEdge} {count : Nat}
  {groups : List (List Vertex)}

/-- The edge leaves this vertex, and its group. -/
def Leaves (x : List Vertex × Vertex) (e : GraphEdge) : Bool :=
  x.2.id.toUInt32 = e.source && External x.1 e.target.toInt32

theorem cut_eq_sum (h : Loaded nodes edges count groups) :
    cut groups = ((members groups).map fun x => edges.countP (Leaves x)).sum := by
  have hvertex : ∀ group ∈ groups, ∀ v ∈ group,
      v.edges.countP (External group) = edges.countP (Leaves (group, v)) := by
    intro group hgroup v hv
    rw [targets_of_mem h hgroup hv, List.countP_map, List.countP_filter]
    refine List.countP_congr ?_
    intro e _
    simp only [Leaves, Function.comp_apply, Bool.and_eq_true, decide_eq_true_eq]
    exact ⟨fun ⟨hout, hsource⟩ => ⟨hsource.symm, hout⟩, fun ⟨hsource, hout⟩ => ⟨hout, hsource.symm⟩⟩
  have hgroups : groups.map countHyperEdges
      = groups.map fun group => (group.map fun v => edges.countP (Leaves (group, v))).sum := by
    refine List.map_congr_left ?_
    intro group hgroup
    rw [countHyperEdges_eq]
    exact congrArg List.sum (List.map_congr_left fun v hv => hvertex group hgroup v hv)
  rw [cut, hgroups]
  exact sum_members (fun group v => edges.countP (Leaves (group, v))) groups

theorem map_id_members (groups : List (List Vertex)) :
    (members groups).map (·.2.id.toUInt32) = groups.flatten.map (·.id.toUInt32) := by
  rw [← map_snd_members, List.map_map]
  rfl

/-- Where every node has its own ID, so has every vertex. -/
theorem nodup_members (h : Loaded nodes edges count groups) (hids : (nodes.map (·.id)).Nodup) :
    ((members groups).map (·.2.id.toUInt32)).Nodup := by
  rw [map_id_members]
  exact (ids_of_loaded h).nodup_iff.mpr hids

/-- The group of the source is the group of the one vertex that the edge leaves. -/
theorem sameGroup_iff (h : Loaded nodes edges count groups) (hids : (nodes.map (·.id)).Nodup)
    {e : GraphEdge} {group : List Vertex} {v : Vertex} (hv : (group, v) ∈ members groups)
    (hsource : v.id.toUInt32 = e.source) :
    SameGroup groups e ↔ External group e.target.toInt32 = false := by
  rw [External, Bool.not_eq_false', List.any_eq_true]
  simp only [decide_eq_true_eq]
  constructor
  · rintro ⟨group', hgroup', ⟨v', hv', hsource'⟩, w, hw, htarget⟩
    have hsame := List.inj_on_of_nodup_map (nodup_members h hids) hv
      (mem_members.mpr ⟨hgroup', hv'⟩) (hsource.trans hsource'.symm)
    injection hsame with hgroup _
    refine ⟨w, hgroup ▸ hw, ?_⟩
    rw [← htarget, Int32.toInt32_toUInt32]
  · rintro ⟨w, hw, htarget⟩
    obtain ⟨hgroup, hv⟩ := mem_members.mp hv
    refine ⟨group, hgroup, ⟨v, hv, hsource⟩, w, hw, ?_⟩
    rw [htarget, UInt32.toUInt32_toInt32]

/-- Where every node has its own ID, an edge is counted once if it crosses, and
otherwise not. -/
theorem countP_leaves (h : Loaded nodes edges count groups) (hids : (nodes.map (·.id)).Nodup)
    (e : GraphEdge) : ((members groups).countP fun x => Leaves x e)
      = if e.source ∈ nodes.map (·.id) ∧ ¬ SameGroup groups e then 1 else 0 := by
  by_cases hlisted : e.source ∈ nodes.map (·.id)
  · -- the one vertex that the edge leaves
    have hmem := (ids_of_loaded h).mem_iff.mpr hlisted
    rw [← map_id_members] at hmem
    obtain ⟨⟨group, v⟩, hv, hsource⟩ := List.mem_map.mp hmem
    have hone := countP_key (fun x : List Vertex × Vertex => x.2.id.toUInt32)
      (fun x => External x.1 e.target.toInt32) (nodup_members h hids) hv
    have hleaves : (fun x => Leaves x e)
        = fun x : List Vertex × Vertex =>
          x.2.id.toUInt32 = v.id.toUInt32 && External x.1 e.target.toInt32 := by
      funext x
      rw [Leaves, ← hsource]
    rw [hleaves, hone]
    simp only [hlisted, true_and, sameGroup_iff h hids hv hsource, Bool.not_eq_false]
  · have hnone : ((members groups).countP fun x => Leaves x e) = 0 := by
      refine List.countP_eq_zero.mpr ?_
      intro x hx hleaves
      have hsource : x.2.id.toUInt32 = e.source := by
        rw [Leaves, Bool.and_eq_true] at hleaves
        exact of_decide_eq_true hleaves.1
      refine hlisted ((ids_of_loaded h).mem_iff.mp ?_)
      rw [← map_id_members]
      exact List.mem_map.mpr ⟨x, hx, hsource⟩
    rw [hnone, if_neg fun hcross => hlisted hcross.1]

theorem cut_eq_crossing (h : Loaded nodes edges count groups) (hids : (nodes.map (·.id)).Nodup) :
    cut groups = crossing nodes edges groups := by
  rw [cut_eq_sum h, crossing]
  refine sum_countP Leaves _ ?_
  intro e _
  rw [countP_leaves h hids e]
  simp only [decide_eq_true_eq]

end Crossing

/-! ## One step -/

/-- The cut changes by what the two groups change by. -/
theorem cut_swap {nodes swapped : List (List Vertex)} {part1 vert1 part2 vert2 : Nat}
    (hne : part1 ≠ part2) (h : swapVertices nodes part1 vert1 part2 vert2 = some swapped) :
    cut swapped + edgeCount nodes part1 part2 = cut nodes + edgeCount swapped part1 part2 := by
  obtain ⟨v, rhs, hv, hrhs, rfl⟩ := swapVertices_eq_some h
  have hlt : ∀ {groups : List (List Vertex)} {p i : Nat} {x : Vertex},
      thing? groups p i = some x → p < groups.length := by
    intro groups p i x hx
    obtain ⟨group, hgroup, -⟩ := Option.bind_eq_some_iff.mp hx
    exact (List.getElem?_eq_some_iff.mp hgroup).1
  have hrhs' : thing? (replace nodes part1 vert1 rhs) part2 vert2 = some rhs :=
    (thing?_replace vert1 vert2 rhs hne).trans hrhs
  have hfirst := sum_replace countHyperEdges vert1 rhs (hlt hv)
  have hsecond := sum_replace countHyperEdges vert2 v (hlt hrhs')
  -- each of the two groups is changed by one of the replacements
  have hgroup2 : (replace nodes part1 vert1 rhs)[part2]? = nodes[part2]? :=
    List.getElem?_modify_ne _ _ hne
  have hgroup1 : (replace (replace nodes part1 vert1 rhs) part2 vert2 v)[part1]?
      = (replace nodes part1 vert1 rhs)[part1]? := List.getElem?_modify_ne _ _ hne.symm
  rw [hgroup2] at hsecond
  simp only [cut, edgeCount, hgroup1]
  omega

/-- The local comparison is the global one. -/
theorem worse_iff {nodes swapped : List (List Vertex)} {d : Draws} (hd : d.Valid nodes.length)
    (hswap : d.swap nodes = some swapped) : d.Worse nodes swapped ↔ cut nodes < cut swapped := by
  have hcut := cut_swap hd.ne hswap
  rw [Draws.Worse]
  omega

/-- What is true of a step: it swaps what is drawn, unless that enlarges the cut;
then all groups are what they were. -/
theorem optimizePartitions_cut {nodes next : List (List Vertex)} {rand rest : List Nat}
    (h : optimizePartitions nodes rand = some (next, rest)) :
    cut next ≤ cut nodes ∧ ∃ (d : Draws) (swapped : List (List Vertex)), rand = d.rand ++ rest
      ∧ d.swap nodes = some swapped
      ∧ next = if cut nodes < cut swapped then nodes else swapped := by
  obtain ⟨d, swapped, hrand, hd, hswap, rfl⟩ := optimizePartitions_eq_some h
  simp only [worse_iff hd hswap]
  refine ⟨?_, d, swapped, hrand, hswap, rfl⟩
  split
  · exact Nat.le_refl _
  · rename_i hle
    exact Nat.le_of_not_lt hle

/-! ## Every run -/

/-- Whatever is drawn in however many steps: the cut is the number of edges that
leave a node for another group, the next step has a result, it never enlarges the
cut, and it changes nothing if its swap would.  The counts are numbers here and an
`int` in the source: the same as long as fewer than `2 ^ 31` edges cross. -/
theorem cut_optimized {file : Option (List Char)} {nodes : List GraphNode}
    {edges edges' : List GraphEdge} {groupCount steps : Nat} {verts groups : List (List Vertex)}
    {rand rest : List Nat} (hparse : GraphIO.parse file = some (nodes, edges))
    (hids : (nodes.map (·.id)).Nodup) (hcount : 2 ≤ groupCount)
    (hload : loadGraph file (List.replicate groupCount []) = some (verts, edges'))
    (hfull : [] ∉ verts) (hrun : optimize steps verts rand = some (groups, rest)) :
    cut groups = crossing nodes edges groups
      ∧ (∀ (d : Draws) (more : List Nat), d.Valid groupCount →
        ∃ next, optimizePartitions groups (d.rand ++ more) = some (next, more))
      ∧ ∀ (rand : List Nat) (next : List (List Vertex)) (rest : List Nat),
        optimizePartitions groups rand = some (next, rest) →
        cut next ≤ cut groups ∧ ∃ (d : Draws) (swapped : List (List Vertex)),
          rand = d.rand ++ rest ∧ d.swap groups = some swapped
            ∧ next = if cut groups < cut swapped then groups else swapped := by
  have hrearranged := optimize_rearranged hrun
  obtain ⟨-, hloaded⟩ := loadGraph_loaded hparse (by omega) hload
  have hgroups := hloaded.rearranged hrearranged
  refine ⟨cut_eq_crossing hgroups hids, ?_, fun _ _ _ h => optimizePartitions_cut h⟩
  intro d more hd
  have hsizes : 0 ∉ sizes groups := by
    rw [hrearranged.sizes]
    intro hzero
    obtain ⟨group, hgroup, hlength⟩ := List.mem_map.mp hzero
    exact hfull (List.length_eq_zero_iff.mp hlength ▸ hgroup)
  refine optimizePartitions_isSome more ?_ hsizes ?_
  · rw [hgroups.length]
    omega
  · rwa [hgroups.length]

/-- Three nodes in two groups, after one step. -/
theorem cut_optimized_threeNodes :
    cut [[⟨2, []⟩, ⟨3, []⟩], [⟨1, [2]⟩]]
      = crossing [⟨1, 1⟩, ⟨2, 1⟩, ⟨3, 1⟩] [⟨1, 2, 7⟩] [[⟨2, []⟩, ⟨3, []⟩], [⟨1, [2]⟩]] := by
  have hparse : GraphIO.parse (some threeNodes)
      = some ([⟨1, 1⟩, ⟨2, 1⟩, ⟨3, 1⟩], [⟨1, 2, 7⟩]) := by decide +kernel
  have hload : loadGraph (some threeNodes) (List.replicate 2 [])
      = some ([[⟨1, [2]⟩, ⟨3, []⟩], [⟨2, []⟩]], [⟨1, 2, 7⟩]) := by decide +kernel
  have hrun : optimize 1 [[⟨1, [2]⟩, ⟨3, []⟩], [⟨2, []⟩]] [0, 2, 1, 0, 0]
      = some ([[⟨2, []⟩, ⟨3, []⟩], [⟨1, [2]⟩]], []) := by decide +kernel
  exact (cut_optimized hparse (by decide) (by decide) hload (by decide) hrun).1

end Partgraph

end DistributAr
