/-
# `DistributAr.Lib.Multimap` — a map to lists that grow at the end

`m[k].push_back(v)` on an `unordered_map` of vectors: a missing key stands for
an empty vector, and reading `m[k]` makes it one.

Filling such a map from a list of pairs sorts the pairs by key and keeps their
order (`values_foldl_push`).
-/
import Mathlib.Data.List.AList

namespace DistributAr.Lib

/-- `unordered_map<K, vector<V> >` -/
abbrev Multimap (K V : Type*) := AList fun _ : K => List V

namespace Multimap

variable {K V : Type*} [DecidableEq K]

/-- What `m[k]` holds. -/
def values (m : Multimap K V) (k : K) : List V := (m.lookup k).getD []

/-- `m[k] = vs` -/
def assign (m : Multimap K V) (k : K) (vs : List V) : Multimap K V := m.insert k vs

/-- In which order a loop visits the entries, for any map. -/
structure VisitOrder (K V : Type*) where
  visit : Multimap K V → List (Sigma fun _ : K => List V)
  perm : ∀ m, (visit m).Perm m.entries

/-- The order in which the entries happen to be kept. -/
def VisitOrder.kept : VisitOrder K V := ⟨AList.entries, fun _ => .refl _⟩

/-- `m[k].push_back(v)` -/
def push (m : Multimap K V) (k : K) (v : V) : Multimap K V := m.assign k (m.values k ++ [v])

variable {m : Multimap K V} {k j : K} {v : V} {vs : List V}

@[simp] theorem values_empty : (∅ : Multimap K V).values k = [] := rfl

theorem values_assign : (m.assign k vs).values j = if j = k then vs else m.values j := by
  unfold values assign
  split
  · rename_i h
    rw [h, AList.lookup_insert]
    rfl
  · rename_i h
    rw [AList.lookup_insert_ne h]

theorem values_push :
    (m.push k v).values j = if j = k then m.values k ++ [v] else m.values j :=
  values_assign

/-- An entry of the map is what its key holds. -/
theorem mem_entries_values {e : Sigma fun _ : K => List V} (h : e ∈ m.entries) :
    m.values e.1 = e.2 := by
  have hlookup : m.lookup e.1 = some e.2 := AList.mem_lookup_iff.mpr h
  rw [values, hlookup, Option.getD_some]

/-- What a key holds is an entry, unless it is nothing. -/
theorem exists_entry (h : v ∈ m.values k) : ⟨k, m.values k⟩ ∈ m.entries := by
  unfold values at h ⊢
  cases hlookup : m.lookup k with
  | none =>
      rw [hlookup] at h
      exact absurd h List.not_mem_nil
  | some vs => exact AList.mem_lookup_iff.mp hlookup

/-- Each key gets the values that were pushed for it, in order. -/
theorem values_foldl_push (pairs : List (K × V)) (m : Multimap K V) (k : K) :
    (pairs.foldl (fun m p => m.push p.1 p.2) m).values k
      = m.values k ++ (pairs.filter fun p => p.1 = k).map Prod.snd := by
  induction pairs generalizing m with
  | nil => simp
  | cons p pairs ih =>
      rw [List.foldl_cons, ih, values_push]
      by_cases h : k = p.1
      · subst h
        simp
      · have hne : ¬ p.1 = k := fun heq => h heq.symm
        simp [h, hne]

omit [DecidableEq K] in
theorem VisitOrder.mem_visit (order : VisitOrder K V) {e : Sigma fun _ : K => List V} :
    e ∈ order.visit m ↔ e ∈ m.entries :=
  (order.perm m).mem_iff

end Multimap

end DistributAr.Lib
