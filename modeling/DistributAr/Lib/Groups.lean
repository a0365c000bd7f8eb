/-
# `DistributAr.Lib.Groups` — things kept in groups

A list of groups, each of them a list.  Two things are asked of an operation:
what is in the groups taken together, up to order, and how large each group is.

| operation                       | taken together     | sizes           |
|---------------------------------|--------------------|-----------------|
| `put`                           | one thing more     | one is larger   |
| `replace`                       | one for another    | as they were    |
| two of them, for two groups     | as it was          | as they were    |

Things that are dealt in turn leave groups whose sizes differ by at most one
(`Dealt.even`).

What is counted group by group changes only by the groups that change
(`sum_replace`), and things with distinct keys can be counted by their keys
(`sum_countP_members`).
-/
import Mathlib.Algebra.GroupWithZero.Nat
import Mathlib.Data.List.Perm.Basic
import Mathlib.Data.Nat.Init

namespace DistributAr.Lib.Groups

open scoped List

variable {α : Type}

/-- How large the groups are. -/
def sizes (groups : List (List α)) : List Nat := groups.map List.length

/-- A thing is added to a group. -/
def put (groups : List (List α)) (p : Nat) (x : α) : List (List α) := groups.modify p (· ++ [x])

/-- A thing of a group. -/
def thing? (groups : List (List α)) (p v : Nat) : Option α := groups[p]?.bind (·[v]?)

/-- A thing of a group is replaced by another. -/
def replace (groups : List (List α)) (p v : Nat) (x : α) : List (List α) :=
  groups.modify p (·.set v x)

/-! ## What is in the groups -/

theorem flatten_put : ∀ {groups : List (List α)} {p : Nat} (x : α), p < groups.length →
    (put groups p x).flatten ~ x :: groups.flatten := by
  intro groups
  induction groups with
  | nil => exact fun _ hp => absurd hp (Nat.not_lt_zero _)
  | cons group groups ih =>
      intro p x hp
      cases p with
      | zero =>
          show group ++ [x] ++ groups.flatten ~ x :: (group ++ groups.flatten)
          rw [List.append_assoc]
          exact List.perm_middle
      | succ p =>
          calc group ++ (put groups p x).flatten
              ~ group ++ x :: groups.flatten := (ih x (Nat.lt_of_succ_lt_succ hp)).append_left group
            _ ~ x :: (group ++ groups.flatten) := List.perm_middle

theorem set_perm {l : List α} {v : Nat} {y : α} (x : α) (hy : l[v]? = some y) :
    y :: l.set v x ~ x :: l := by
  obtain ⟨hv, rfl⟩ := List.getElem?_eq_some_iff.mp hy
  calc l[v] :: l.set v x
      ~ l[v] :: x :: l.eraseIdx v := (List.set_perm_cons_eraseIdx hv x).cons _
    _ ~ x :: l[v] :: l.eraseIdx v := .swap _ _ _
    _ ~ x :: l := (List.getElem_cons_eraseIdx_perm hv).cons _

/-- One thing goes out, another comes in. -/
theorem flatten_replace : ∀ {groups : List (List α)} {p v : Nat} {y : α} (x : α),
    thing? groups p v = some y → y :: (replace groups p v x).flatten ~ x :: groups.flatten := by
  intro groups
  induction groups with
  | nil => exact fun _ h => nomatch h
  | cons group groups ih =>
      intro p v y x hy
      cases p with
      | zero => exact (set_perm x hy).append_right groups.flatten
      | succ p =>
          calc y :: (group ++ (replace groups p v x).flatten)
              ~ group ++ y :: (replace groups p v x).flatten := List.perm_middle.symm
            _ ~ group ++ x :: groups.flatten := (ih x hy).append_left group
            _ ~ x :: (group ++ groups.flatten) := List.perm_middle

theorem thing?_replace {groups : List (List α)} {p q : Nat} (v w : Nat) (x : α) (hpq : p ≠ q) :
    thing? (replace groups p v x) q w = thing? groups q w := by
  rw [thing?, replace, List.getElem?_modify_ne _ _ hpq]
  rfl

/-- Two things of different groups change places. -/
theorem flatten_exchange {groups : List (List α)} {p v q w : Nat} {x y : α} (hpq : p ≠ q)
    (hx : thing? groups p v = some x) (hy : thing? groups q w = some y) :
    (replace (replace groups p v y) q w x).flatten ~ groups.flatten := by
  have hy' : thing? (replace groups p v y) q w = some y := by rw [thing?_replace v w y hpq, hy]
  refine (List.perm_cons y).mp ?_
  calc y :: (replace (replace groups p v y) q w x).flatten
      ~ x :: (replace groups p v y).flatten := flatten_replace x hy'
    _ ~ y :: groups.flatten := flatten_replace y hx

/-! ## What goes back -/

theorem thing?_replace_self {groups : List (List α)} {p v : Nat} {y : α} (x : α)
    (hy : thing? groups p v = some y) : thing? (replace groups p v x) p v = some x := by
  obtain ⟨group, hgroup, hy⟩ := Option.bind_eq_some_iff.mp hy
  obtain ⟨hv, -⟩ := List.getElem?_eq_some_iff.mp hy
  rw [thing?, replace, List.getElem?_modify_eq, hgroup]
  exact List.getElem?_set_self hv

theorem replace_replace (groups : List (List α)) (p v : Nat) (x y : α) :
    replace (replace groups p v x) p v y = replace groups p v y := by
  refine List.ext_getElem? ?_
  intro i
  simp only [replace, List.getElem?_modify]
  cases groups[i]? with
  | none => rfl
  | some group =>
      by_cases hpi : p = i
      · simp [hpi]
      · simp [hpi]

theorem replace_comm (groups : List (List α)) {p q : Nat} (v w : Nat) (x y : α) (hpq : p ≠ q) :
    replace (replace groups p v x) q w y = replace (replace groups q w y) p v x := by
  refine List.ext_getElem? ?_
  intro i
  simp only [replace, List.getElem?_modify]
  by_cases hpi : p = i
  · have hqi : q ≠ i := fun h => hpq (hpi.trans h.symm)
    simp [hpi, hqi]
  · simp [hpi]

theorem replace_self {groups : List (List α)} {p v : Nat} {x : α}
    (hx : thing? groups p v = some x) : replace groups p v x = groups := by
  obtain ⟨group, hgroup, hx⟩ := Option.bind_eq_some_iff.mp hx
  obtain ⟨hv, hget⟩ := List.getElem?_eq_some_iff.mp hx
  refine List.ext_getElem? ?_
  intro i
  rw [replace]
  by_cases hpi : p = i
  · rw [← hpi, List.getElem?_modify_eq, hgroup, ← hget]
    exact congrArg some (List.set_getElem_self hv)
  · exact List.getElem?_modify_ne _ _ hpi

/-- Two things of different groups change places, and change places again. -/
theorem exchange_exchange {groups : List (List α)} {p v q w : Nat} {x y : α} (hpq : p ≠ q)
    (hx : thing? groups p v = some x) (hy : thing? groups q w = some y) :
    replace (replace (replace (replace groups p v y) q w x) p v x) q w y = groups := by
  rw [replace_comm _ w v x x hpq.symm, replace_replace, replace_replace, replace_self hx,
    replace_self hy]

/-! ## How large they are -/

/-- A change to one group. -/
theorem sizes_modify (groups : List (List α)) (p : Nat) {f : List α → List α} {g : Nat → Nat}
    (hfg : ∀ group, (f group).length = g group.length) :
    sizes (groups.modify p f) = (sizes groups).modify p g := by
  refine List.ext_getElem? ?_
  intro i
  simp only [sizes, List.getElem?_map, List.getElem?_modify]
  cases groups[i]? with
  | none => rfl
  | some group =>
      by_cases hpi : p = i
      · simp [hpi, hfg]
      · simp [hpi]

theorem sizes_replace (groups : List (List α)) (p v : Nat) (x : α) :
    sizes (replace groups p v x) = sizes groups := by
  have hsame := sizes_modify groups p (f := (·.set v x)) (g := id) fun _ => List.length_set
  rwa [List.modify_id] at hsame

theorem sizes_put (groups : List (List α)) (p : Nat) (x : α) :
    sizes (put groups p x) = (sizes groups).modify p (· + 1) :=
  sizes_modify groups p fun _ => List.length_append

/-- Whether there is such a thing depends on the sizes only. -/
theorem thing?_isSome_iff {groups : List (List α)} {p v : Nat} :
    (thing? groups p v).isSome ↔ ∃ s, (sizes groups)[p]? = some s ∧ v < s := by
  rw [thing?, sizes, List.getElem?_map]
  cases groups[p]? with
  | none => simp
  | some group => simp

theorem length_sizes (groups : List (List α)) : (sizes groups).length = groups.length :=
  List.length_map _

/-! ## Dealing -/

/-- Things are dealt in turn; `k` of them were dealt before. -/
def deal : List α → Nat → List (List α) → List (List α)
  | [], _, groups => groups
  | x :: xs, k, groups => deal xs (k + 1) (put groups (k % groups.length) x)

/-- The sizes of groups among which `k` things were dealt. -/
def Dealt (k : Nat) (sizes : List Nat) : Prop :=
  ∀ j, j < sizes.length → sizes[j]? = some ((k + (sizes.length - 1 - j)) / sizes.length)

/-- The sizes differ by at most one. -/
def Even (sizes : List Nat) : Prop := ∀ s ∈ sizes, ∀ t ∈ sizes, s ≤ t + 1

theorem dealt_zero (n : Nat) : Dealt 0 (sizes (List.replicate n ([] : List α))) := by
  intro j hj
  rw [length_sizes, List.length_replicate] at hj ⊢
  rw [sizes, List.map_replicate, List.getElem?_replicate_of_lt hj, Nat.div_eq_of_lt (by omega)]
  rfl

/-- The share of one group grows when it is its turn. -/
theorem share_succ {k n j : Nat} (hj : j < n) :
    (k + 1 + (n - 1 - j)) / n = (k + (n - 1 - j)) / n + if k % n = j then 1 else 0 := by
  have hstep : k + 1 + (n - 1 - j) = k + (n - 1 - j) + 1 := by omega
  have hturn : n ∣ k + (n - 1 - j) + 1 ↔ k % n = j := by
    have hmod := Nat.mod_lt k (Nat.zero_lt_of_lt hj)
    have hsplit : k + (n - 1 - j) + 1 = n * (k / n) + (k % n + (n - j)) := by
      have hdiv := Nat.div_add_mod k n
      omega
    rw [hsplit, Nat.dvd_add_right (Nat.dvd_mul_right n _)]
    constructor
    · intro hdvd
      have hn := Nat.eq_of_dvd_of_lt_two_mul (by omega) hdvd (by omega)
      omega
    · intro hmod
      exact ⟨1, by omega⟩
  rw [hstep, Nat.succ_div]
  simp only [hturn]

theorem dealt_put {k : Nat} {groups : List (List α)} (x : α) (h : Dealt k (sizes groups)) :
    Dealt (k + 1) (sizes (put groups (k % groups.length) x)) := by
  intro j hj
  rw [sizes_put, List.length_modify] at hj ⊢
  rw [List.getElem?_modify, h j hj, share_succ hj, length_sizes]
  by_cases hturn : k % groups.length = j
  · simp [hturn]
  · simp [hturn]

theorem length_put (groups : List (List α)) (p : Nat) (x : α) :
    (put groups p x).length = groups.length :=
  List.length_modify _ _ _

theorem dealt_deal : ∀ (xs : List α) (k : Nat) {groups : List (List α)},
    Dealt k (sizes groups) → Dealt (k + xs.length) (sizes (deal xs k groups)) := by
  intro xs
  induction xs with
  | nil => exact fun _ _ h => h
  | cons x xs ih =>
      intro k groups h
      have hrest := ih (k + 1) (dealt_put x h)
      rwa [Nat.add_assoc, Nat.add_comm 1] at hrest

theorem Dealt.even {k : Nat} {sizes : List Nat} (h : Dealt k sizes) : Even sizes := by
  intro s hs t ht
  obtain ⟨i, hi, rfl⟩ := List.getElem_of_mem hs
  obtain ⟨j, hj, rfl⟩ := List.getElem_of_mem ht
  have hsi := h i hi
  have htj := h j hj
  rw [List.getElem?_eq_getElem hi, Option.some.injEq] at hsi
  rw [List.getElem?_eq_getElem hj, Option.some.injEq] at htj
  rw [hsi, htj, ← Nat.add_div_right _ (by omega)]
  exact Nat.div_le_div_right (by omega)

/-- What was dealt is in the groups. -/
theorem flatten_deal : ∀ (xs : List α) (k : Nat) {groups : List (List α)}, 0 < groups.length →
    (deal xs k groups).flatten ~ xs ++ groups.flatten := by
  intro xs
  induction xs with
  | nil => exact fun _ _ _ => .refl _
  | cons x xs ih =>
      intro k groups hpos
      have hput := flatten_put x (Nat.mod_lt k hpos)
      calc (deal xs (k + 1) (put groups (k % groups.length) x)).flatten
          ~ xs ++ (put groups (k % groups.length) x).flatten :=
            ih (k + 1) (by rwa [length_put])
        _ ~ xs ++ x :: groups.flatten := hput.append_left xs
        _ ~ x :: (xs ++ groups.flatten) := List.perm_middle

theorem length_deal : ∀ (xs : List α) (k : Nat) (groups : List (List α)),
    (deal xs k groups).length = groups.length := by
  intro xs
  induction xs with
  | nil => exact fun _ _ => rfl
  | cons x xs ih =>
      intro k groups
      rw [deal, ih, length_put]

/-! ## Numbering -/

/-- Everything, with the number of its group; the first group has the number `k`. -/
def numberedFrom (k : Nat) (groups : List (List α)) : List (Nat × α) :=
  (groups.zipIdx k).flatMap fun (group, p) => group.map (p, ·)

/-- Everything, with the number of its group. -/
def numbered (groups : List (List α)) : List (Nat × α) := numberedFrom 0 groups

theorem numberedFrom_cons (k : Nat) (group : List α) (groups : List (List α)) :
    numberedFrom k (group :: groups) = group.map (k, ·) ++ numberedFrom (k + 1) groups := by
  rw [numberedFrom, List.zipIdx_cons, List.flatMap_cons]
  rfl

theorem map_snd_numbered (groups : List (List α)) :
    (numbered groups).map Prod.snd = groups.flatten := by
  have hsnd : ∀ (group : List α) (p : Nat), (group.map fun x => (p, x)).map Prod.snd = group := by
    intro group p
    rw [List.map_map]
    exact List.map_id group
  simp only [numbered, numberedFrom, List.map_flatMap, hsnd]
  rw [List.flatMap_def, List.zipIdx_map_fst]

theorem le_fst_of_mem_numberedFrom {k : Nat} {groups : List (List α)} {x : Nat × α}
    (hx : x ∈ numberedFrom k groups) : k ≤ x.1 := by
  obtain ⟨⟨group, p⟩, hgroup, hx⟩ := List.mem_flatMap.mp hx
  obtain ⟨y, -, rfl⟩ := List.mem_map.mp hx
  exact List.le_snd_of_mem_zipIdx hgroup

theorem fst_lt_of_mem_numbered {groups : List (List α)} {x : Nat × α} (hx : x ∈ numbered groups) :
    x.1 < groups.length := by
  obtain ⟨⟨group, p⟩, hgroup, hx⟩ := List.mem_flatMap.mp hx
  obtain ⟨y, -, rfl⟩ := List.mem_map.mp hx
  exact List.snd_lt_of_mem_zipIdx hgroup

/-- How often a number occurs in one group. -/
theorem countP_map_number (group : List α) (k n : Nat) :
    (group.map (k, ·)).countP (·.1 = n) = if k = n then group.length else 0 := by
  rw [List.countP_map]
  split
  · rename_i hkn
    exact List.countP_eq_length.mpr fun _ _ => decide_eq_true hkn
  · rename_i hkn
    refine List.countP_eq_zero.mpr ?_
    intro x _ hx
    exact hkn (of_decide_eq_true hx)

theorem countP_numberedFrom : ∀ (groups : List (List α)) (k p : Nat) (hp : p < groups.length),
    (numberedFrom k groups).countP (·.1 = k + p) = groups[p].length := by
  intro groups
  induction groups with
  | nil => exact fun _ _ hp => absurd hp (Nat.not_lt_zero _)
  | cons group groups ih =>
      intro k p hp
      rw [numberedFrom_cons, List.countP_append, countP_map_number]
      cases p with
      | zero =>
          -- the numbers of the later groups are greater
          have hlater : (numberedFrom (k + 1) groups).countP (·.1 = k + 0) = 0 := by
            refine List.countP_eq_zero.mpr ?_
            intro x hx heq
            have hle := le_fst_of_mem_numberedFrom hx
            have hfst := of_decide_eq_true heq
            omega
          rw [hlater, if_pos (Nat.add_zero k).symm]
          rfl
      | succ p =>
          have hrest := ih (k + 1) p (Nat.lt_of_succ_lt_succ hp)
          rw [Nat.add_assoc, Nat.add_comm 1] at hrest
          rw [if_neg (by omega), hrest, Nat.zero_add]
          rfl

/-- A number occurs once for each thing of its group. -/
theorem countP_numbered {groups : List (List α)} {p : Nat} (hp : p < groups.length) :
    (numbered groups).countP (·.1 = p) = groups[p].length := by
  have hfrom := countP_numberedFrom groups 0 p hp
  rwa [Nat.zero_add] at hfrom

/-! ## Counting -/

/-- A sum over groups, one of which is changed. -/
theorem sum_replace (f : List α → Nat) : ∀ {groups : List (List α)} {p : Nat} (v : Nat) (x : α),
    p < groups.length →
    ((replace groups p v x).map f).sum + f (groups[p]?.getD [])
      = (groups.map f).sum + f ((replace groups p v x)[p]?.getD []) := by
  intro groups
  induction groups with
  | nil => exact fun _ _ hp => absurd hp (Nat.not_lt_zero _)
  | cons group groups ih =>
      intro p v x hp
      cases p with
      | zero =>
          show f (group.set v x) + (groups.map f).sum + f group
            = f group + (groups.map f).sum + f (group.set v x)
          omega
      | succ p =>
          have hrest := ih v x (Nat.lt_of_succ_lt_succ hp)
          show f group + ((replace groups p v x).map f).sum + f (groups[p]?.getD [])
            = f group + (groups.map f).sum + f ((replace groups p v x)[p]?.getD [])
          omega

/-- Everything, with its group. -/
def members (groups : List (List α)) : List (List α × α) :=
  groups.flatMap fun group => group.map (group, ·)

theorem mem_members {groups : List (List α)} {group : List α} {x : α} :
    (group, x) ∈ members groups ↔ group ∈ groups ∧ x ∈ group := by
  simp only [members, List.mem_flatMap, List.mem_map, Prod.mk.injEq]
  constructor
  · rintro ⟨_, hgroup, _, hx, rfl, rfl⟩
    exact ⟨hgroup, hx⟩
  · rintro ⟨hgroup, hx⟩
    exact ⟨group, hgroup, x, hx, rfl, rfl⟩

theorem map_snd_members (groups : List (List α)) :
    (members groups).map Prod.snd = groups.flatten := by
  have hsnd : ∀ group : List α, (group.map fun x => (group, x)).map Prod.snd = group := by
    intro group
    rw [List.map_map]
    exact List.map_id group
  simp only [members, List.map_flatMap, hsnd]
  exact List.flatMap_id'

theorem sum_members (f : List α → α → Nat) (groups : List (List α)) :
    (groups.map fun group => (group.map (f group)).sum).sum
      = ((members groups).map fun x => f x.1 x.2).sum := by
  induction groups with
  | nil => rfl
  | cons group groups ih =>
      have hcons : members (group :: groups) = group.map (group, ·) ++ members groups := rfl
      rw [List.map_cons, List.sum_cons, ih, hcons, List.map_append, List.sum_append, List.map_map]
      rfl

/-- Where each of some elements is counted by at most one of some predicates, the
counts together are the number of those that are counted. -/
theorem sum_countP {ι β : Type} {is : List ι} (q : ι → β → Bool) (c : β → Bool) :
    ∀ {l : List β}, (∀ b ∈ l, (is.countP fun i => q i b) = if c b then 1 else 0) →
      (is.map fun i => l.countP (q i)).sum = l.countP c := by
  have hsplit : ∀ (b : β) (l : List β) (js : List ι), (js.map fun i => (b :: l).countP (q i)).sum
      = (js.map fun i => l.countP (q i)).sum + js.countP fun i => q i b := by
    intro b l js
    induction js with
    | nil => rfl
    | cons j js ih =>
        rw [List.map_cons, List.sum_cons, ih, List.map_cons, List.sum_cons, List.countP_cons,
          List.countP_cons]
        omega
  intro l
  induction l with
  | nil =>
      intro _
      have hzero : ∀ js : List ι, (js.map fun i => ([] : List β).countP (q i)).sum = 0 := by
        intro js
        induction js with
        | nil => rfl
        | cons j js ih =>
            rw [List.map_cons, List.sum_cons, ih]
            rfl
      exact hzero is
  | cons b l ih =>
      intro h
      rw [hsplit, ih fun b' hb' => h b' (List.mem_cons_of_mem _ hb'), h b List.mem_cons_self,
        List.countP_cons]

/-- One of the things has the key, and it is counted if it meets the condition. -/
theorem countP_key {β κ : Type} [DecidableEq κ] (key : β → κ) (f : β → Bool) {b : β} :
    ∀ {l : List β}, (l.map key).Nodup → b ∈ l →
      (l.countP fun x => key x = key b && f x) = if f b then 1 else 0 := by
  intro l
  induction l with
  | nil => exact fun _ h => absurd h List.not_mem_nil
  | cons x l ih =>
      intro hkeys hb
      obtain ⟨hnot, hrest⟩ := List.nodup_cons.mp hkeys
      rw [List.countP_cons]
      rcases List.mem_cons.mp hb with rfl | hmem
      · have hzero : (l.countP fun x => key x = key b && f x) = 0 := by
          refine List.countP_eq_zero.mpr ?_
          intro y hy hkey
          have heq : key y = key b := by simp at hkey; exact hkey.1
          exact hnot (List.mem_map.mpr ⟨y, hy, heq⟩)
        simp [hzero]
      · have hne : key x ≠ key b := fun heq => hnot (List.mem_map.mpr ⟨b, hmem, heq.symm⟩)
        simp [ih hrest hmem, hne]

end DistributAr.Lib.Groups
