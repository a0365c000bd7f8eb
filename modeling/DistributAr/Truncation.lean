/-
# `DistributAr.Truncation` — loading a save that was cut

`deserialize` declares the variable for a size and extracts it.  Where the text is over
by then, nothing is assigned to the variable, and the loop goes by what is in it: it may
end at once, throw `bad_alloc` when a vector has no room left
(`deserialize_unread_length`), or not end in any time.  So there `load` has no result;
elsewhere it is `deserialize` (`deserialize_of_load`).

The first size of a text is there, unless the text is empty.  But a map reads the size of
each value, as often as its own size announces.

| the text is cut                            | `deserialize`       |
|--------------------------------------------|---------------------|
| behind the first digit of its last size    | returns 0           |
| before that                                | goes by no size     |

So a save is refused exactly if it reaches as far as all its sizes (`cut_refused_iff`).
-/
import DistributAr.Loading

namespace DistributAr

open Lib

namespace Serial

variable (g : Garbage)

/-- The loop of `deserialize(unordered_map)`, where reading a value may have no result. -/
def loadLoop {V : Type} {kb : Base} (loadV : V → IStream → Option (V × IStream)) :
    Nat → kb.Val → V → (AList fun _ : kb.Val => V) → IStream →
    Option ((AList fun _ : kb.Val => V) × IStream)
  | 0, _, _, m, is => some (m, is)
  | size + 1, k, v, m, is =>
      let (k, is) := kb.read k is
      (loadV v is).bind fun (v, is) => loadLoop loadV size k v (m.insert k v) is

/-- `deserialize`, as far as the text says what it does: there is no result where a loop
goes by a size that nothing was assigned to. -/
def load : (t : Ty) → t.Val → IStream → Option (t.Val × IStream)
  | .base b, out, is => some (b.read out is)
  | .set b, s, is =>
      let (size, is) := is.readUnsigned 64
      size.map fun size => insertLoop setInserter size (g.base b) s is
  | .vector b, v, is =>
      let (size, is) := is.readUnsigned 64
      size.map fun size => insertLoop vectorInserter size (g.base b) v is
  | .map k w, m, is =>
      let (size, is) := is.readUnsigned 64
      size.bind fun size => loadLoop (load w) size (g.base k) (declared g w) m is

theorem loadLoop_succ {V : Type} {kb : Base} (loadV : V → IStream → Option (V × IStream))
    (size : Nat) (k : kb.Val) (v : V) (m : AList fun _ : kb.Val => V) (is : IStream) :
    loadLoop loadV (size + 1) k v m is = (loadV v (kb.read k is).2).bind fun r =>
      loadLoop loadV size (kb.read k is).1 r.1 (m.insert (kb.read k is).1 r.1) r.2 := rfl

theorem load_set {b : Base} (s : Finset b.Val) (is : IStream) :
    load g (.set b) s is = (is.readUnsigned 64).1.map fun size =>
      insertLoop setInserter size (g.base b) s (is.readUnsigned 64).2 := rfl

theorem load_vector {b : Base} (v : List b.Val) (is : IStream) :
    load g (.vector b) v is = (is.readUnsigned 64).1.map fun size =>
      insertLoop vectorInserter size (g.base b) v (is.readUnsigned 64).2 := rfl

theorem load_map {k : Base} {w : Ty} (m : (Ty.map k w).Val) (is : IStream) :
    load g (.map k w) m is = (is.readUnsigned 64).1.bind fun size =>
      loadLoop (load g w) size (g.base k) (declared g w) m (is.readUnsigned 64).2 := rfl

/-- The call returns, and what it returns is 0. -/
def Refused (t : Ty) (out : t.Val) (text : List Char) : Prop :=
  ∃ r, load g t out (.ofChars text) = some r ∧ r.2.good = false

/-! ## Where the sizes are -/

/-- The positions of the sizes in the text of some entries that starts at `start`. -/
def entryOffsets {kb : Base} {V : Type} (serializeV : V → List Char) (offsetsV : V → List Nat) :
    Nat → List (Sigma fun _ : kb.Val => V) → List Nat
  | _, [] => []
  | start, it :: its =>
      let value := start + (serializeBase it.1).length
      (offsetsV it.2).map (value + ·)
        ++ entryOffsets serializeV offsetsV (value + (serializeV it.2).length) its

/-- The positions at which `serialize` writes a size. -/
def sizeOffsets : (t : Ty) → t.Val → List Nat
  | .base _, _ => []
  | .set _, _ => [0]
  | .vector _, _ => [0]
  | .map _ w, m => 0 :: entryOffsets (serialize w) (sizeOffsets w)
      (serializeSize m.entries.length).length m.entries

/-- The type is a container. -/
def hasSize : Ty → Bool
  | .base _ => false
  | _ => true

variable {g} {t w : Ty} {k : Base}

theorem zero_mem_sizeOffsets (h : hasSize t = true) (v : t.Val) : 0 ∈ sizeOffsets t v := by
  cases t with
  | base b => cases h
  | set b => exact List.mem_cons_self
  | vector b => exact List.mem_cons_self
  | map k w => exact List.mem_cons_self

/-- Numbers have no sizes in them. -/
theorem entryOffsets_eq_nil (h : hasSize w = false) (start : Nat)
    (its : List (Sigma fun _ : k.Val => w.Val)) :
    entryOffsets (serialize w) (sizeOffsets w) start its = [] := by
  have hnone : ∀ v : w.Val, sizeOffsets w v = [] := by
    cases w with
    | base b => exact fun _ => rfl
    | set b => cases h
    | vector b => cases h
    | map k w => cases h
  induction its generalizing start with
  | nil => rfl
  | cons it its ih =>
      rw [entryOffsets, hnone, ih]
      rfl

/-- The first size is that of the first value. -/
theorem first_mem_entryOffsets (h : hasSize w = true) (start : Nat)
    (it : Sigma fun _ : k.Val => w.Val) (its : List (Sigma fun _ : k.Val => w.Val)) :
    start + (serializeBase it.1).length
      ∈ entryOffsets (serialize w) (sizeOffsets w) start (it :: its) :=
  List.mem_append_left _ (List.mem_map_of_mem (zero_mem_sizeOffsets h it.2))

/-- The sizes of the entries are not before these. -/
theorem entryOffsets_lt_iff {n start : Nat} (hn : n ≤ start)
    (its : List (Sigma fun _ : k.Val => w.Val)) :
    (∀ o ∈ entryOffsets (serialize w) (sizeOffsets w) start its, o < n)
      ↔ its.length = 0 ∨ hasSize w = false := by
  cases hsize : hasSize w with
  | false => exact iff_of_true (by simp [entryOffsets_eq_nil hsize]) (.inr rfl)
  | true =>
      cases its with
      | nil => exact iff_of_true (fun o ho => absurd ho List.not_mem_nil) (.inl rfl)
      | cons it its =>
          refine iff_of_false (fun h => ?_) (by simp)
          have hfirst := h _ (first_mem_entryOffsets hsize start it its)
          omega

theorem entryOffsets_lt (hvalue : ∀ v : w.Val, ∀ o ∈ sizeOffsets w v, o < (serialize w v).length)
    (start : Nat) (its : List (Sigma fun _ : k.Val => w.Val)) :
    ∀ o ∈ entryOffsets (serialize w) (sizeOffsets w) start its,
      o < start + (its.flatMap fun it => serializeBase it.1 ++ serialize w it.2).length := by
  induction its generalizing start with
  | nil => exact fun o ho => absurd ho List.not_mem_nil
  | cons it its ih =>
      intro o ho
      rw [List.flatMap_cons, List.length_append, List.length_append]
      rcases List.mem_append.mp ho with hfirst | hrest
      · obtain ⟨o', ho', rfl⟩ := List.mem_map.mp hfirst
        have hlt := hvalue it.2 o' ho'
        omega
      · have hlt := ih _ o hrest
        omega

theorem serializeSize_length_pos (n : Nat) : 0 < (serializeSize n).length := by
  rw [serializeSize, List.length_append]
  exact Nat.lt_add_left _ Nat.one_pos

/-- A size is in the text. -/
theorem sizeOffsets_lt : ∀ {t : Ty} (v : t.Val), ∀ o ∈ sizeOffsets t v,
    o < (serialize t v).length := by
  intro t
  induction t with
  | base b => exact fun v o ho => absurd ho List.not_mem_nil
  | set b =>
      intro v o ho
      rw [List.mem_singleton.mp ho, serialize, List.length_append]
      exact Nat.lt_add_right _ (serializeSize_length_pos _)
  | vector b =>
      intro v o ho
      rw [List.mem_singleton.mp ho, serialize, List.length_append]
      exact Nat.lt_add_right _ (serializeSize_length_pos _)
  | map k w ih =>
      intro m o ho
      rw [serialize, List.length_append]
      rcases List.mem_cons.mp ho with rfl | hentry
      · exact Nat.lt_add_right _ (serializeSize_length_pos _)
      · exact entryOffsets_lt ih _ m.entries o hentry

/-! ## A size that is there, and one that is not -/

/-- Nothing is extracted from a stream that is not good. -/
theorem readUnsigned_none {is : IStream} (h : is.good = false) (n : Nat) :
    (is.readUnsigned n).1 = none := by
  rw [IStream.readUnsigned_eq, if_neg (by rw [IStream.sentry_bad h]; decide)]

/-- Where a text goes on with digits something is extracted. -/
theorem readUnsigned_isSome {blanks p rest : List Char} {n : Nat}
    (hblanks : ∀ d ∈ blanks, isSpace d) (hp : p <+: printUnsigned n ++ rest) (hne : p ≠ [])
    (w : Nat) : ((IStream.ofChars (blanks ++ p)).readUnsigned w).1.isSome := by
  obtain ⟨c, cs, rfl⟩ := List.exists_cons_of_ne_nil hne
  obtain ⟨d, ds, hprint⟩ := List.exists_cons_of_ne_nil (IStream.printUnsigned_ne_nil n)
  have hdigit : d.isDigit = true :=
    IStream.isDigit_of_mem_printUnsigned (hprint ▸ List.mem_cons_self)
  rw [hprint, List.cons_append, List.cons_prefix_cons] at hp
  obtain ⟨rfl, -⟩ := hp
  rw [IStream.readUnsigned_eq, IStream.sentry_skip hblanks (IStream.not_space_of_isDigit hdigit).1]
  show (IStream.scanUnsigned w _ _).1.isSome
  rw [IStream.scanUnsigned_size]
  split <;> rfl

/-- A size that is all there. -/
theorem read_size {n : Nat} {blanks : List Char} (rest : List Char)
    (hblanks : ∀ d ∈ blanks, isSpace d) (hn : n < 2 ^ 64) :
    (IStream.ofChars (blanks ++ (serializeSize n ++ rest))).readUnsigned 64
      = (some n, .ofChars (' ' :: rest)) := by
  have hblank : ∀ d ∈ (' ' :: rest).head?, d.isDigit = false := by
    intro d hd
    cases hd
    rfl
  rw [serializeSize, List.append_assoc]
  exact IStream.readUnsigned_text 64 blanks (' ' :: rest) hblanks hn hblank

/-- The beginning of a number is a number, and it is not 0 if the whole is not. -/
theorem exists_printUnsigned_of_prefix {n : Nat} {p : List Char} (hp : p <+: printUnsigned n)
    (hne : p ≠ []) : ∃ m, p = printUnsigned m ∧ m ≤ n ∧ (m = 0 → n = 0) := by
  induction n using Nat.strong_induction_on with
  | _ n ih =>
      rcases Nat.lt_or_ge n 10 with hlt | hge
      · have hone : printUnsigned n = [n.digitChar] := Nat.toDigits_of_lt_base hlt
        refine ⟨n, ?_, Nat.le_refl n, id⟩
        have hcut : p <+: [] ++ [n.digitChar] := hone ▸ hp
        rw [hone]
        exact (List.prefix_concat_iff.mp hcut).resolve_right fun h => hne (List.prefix_nil.mp h)
      · have hsplit : printUnsigned n = printUnsigned (n / 10) ++ [(n % 10).digitChar] :=
          Nat.toDigits_of_base_le (by decide) hge
        rw [hsplit] at hp
        rcases List.prefix_concat_iff.mp hp with rfl | hcut
        · exact ⟨n, hsplit.symm, Nat.le_refl n, id⟩
        · obtain ⟨m, rfl, hle, hzero⟩ := ih (n / 10) (by omega) hcut
          exact ⟨m, rfl, by omega, fun hm => absurd (hzero hm) (by omega)⟩

theorem mapLoop_of_loadLoop
    (hvalue : ∀ {v : w.Val} {is : IStream} {r : w.Val × IStream}, load g w v is = some r →
      deserialize g w v is = r) :
    ∀ {n : Nat} {key : k.Val} {v : w.Val} {m : AList fun _ : k.Val => w.Val} {is : IStream}
      {r : (Ty.map k w).Val × IStream}, loadLoop (load g w) n key v m is = some r →
        mapLoop (deserialize g w) n key v m is = r := by
  intro n
  induction n with
  | zero => exact fun h => Option.some_inj.mp h
  | succ n ih =>
      intro key v m is r h
      rw [loadLoop_succ] at h
      obtain ⟨⟨v', is'⟩, hv, hrest⟩ := Option.bind_eq_some_iff.mp h
      rw [mapLoop]
      dsimp only
      rw [hvalue hv]
      exact ih hrest

/-- A result of `load` is that of `deserialize`, whatever the variables for sizes held. -/
theorem deserialize_of_load : ∀ {t : Ty} {out : t.Val} {is : IStream} {r : t.Val × IStream},
    load g t out is = some r → deserialize g t out is = r := by
  intro t
  induction t with
  | base b => exact fun h => Option.some_inj.mp h
  | set b =>
      intro out is r h
      rw [load_set] at h
      obtain ⟨size, hsize, rfl⟩ := Option.map_eq_some_iff.mp h
      rw [deserialize_set, deserializeSize, hsize, Option.getD_some]
  | vector b =>
      intro out is r h
      rw [load_vector] at h
      obtain ⟨size, hsize, rfl⟩ := Option.map_eq_some_iff.mp h
      rw [deserialize_vector, deserializeSize, hsize, Option.getD_some]
  | map k w ih =>
      intro out is r h
      rw [load_map] at h
      obtain ⟨size, hsize, hread⟩ := Option.bind_eq_some_iff.mp h
      rw [deserialize, deserializeSize, hsize, Option.getD_some]
      exact mapLoop_of_loadLoop ih hread

/-- How long a vector gets where its size is not there is up to the variable: it may be
longer than any memory. -/
theorem deserialize_unread_length {b : Base} (v : List b.Val) (is : IStream)
    (h : load g (.vector b) v is = none) :
    List.length (deserialize g (.vector b) v is).1 = v.length + g.size := by
  rw [load_vector] at h
  have hsize := Option.map_eq_none_iff.mp h
  rw [deserialize_vector, deserializeSize, hsize, Option.getD_none, insertLoop_eq,
    foldl_vectorInserter]
  exact List.length_append.trans (congrArg _ readings_length)

/-! ## The loop over a map -/

/-- Numbers are read whatever the stream is, containers only from a good one. -/
theorem load_bad (out : t.Val) {is : IStream} (h : is.good = false) :
    (load g t out is).isSome ↔ hasSize t = false := by
  have hnone := readUnsigned_none h 64
  cases t with
  | base b => exact iff_of_true rfl rfl
  | set b =>
      rw [load_set, hnone]
      exact iff_of_false (by simp) (by simp [hasSize])
  | vector b =>
      rw [load_vector, hnone]
      exact iff_of_false (by simp) (by simp [hasSize])
  | map k w =>
      rw [load_map, hnone]
      exact iff_of_false (by simp) (by simp [hasSize])

theorem load_bad_good {out : t.Val} {is : IStream} {r : t.Val × IStream} (h : is.good = false)
    (hr : load g t out is = some r) : r.2.good = false := by
  rw [← deserialize_of_load hr]
  exact deserialize_bad g out is h

/-- A stream that is not good behind a key. -/
theorem loadLoop_key_bad : ∀ (n : Nat) (key : k.Val) (v : w.Val) (m : AList fun _ : k.Val => w.Val)
    (is : IStream), (k.read key is).2.good = false →
    ((loadLoop (load g w) (n + 1) key v m is).isSome ↔ hasSize w = false) := by
  intro n
  induction n with
  | zero =>
      intro key v m is h
      have hvalue := load_bad (g := g) v h
      rw [loadLoop_succ]
      cases hload : load g w v (k.read key is).2 with
      | none =>
          rw [hload] at hvalue
          exact hvalue
      | some r =>
          rw [hload] at hvalue
          exact iff_of_true rfl (hvalue.mp rfl)
  | succ n ih =>
      intro key v m is h
      have hvalue := load_bad (g := g) v h
      rw [loadLoop_succ]
      cases hload : load g w v (k.read key is).2 with
      | none =>
          rw [hload] at hvalue
          exact hvalue
      | some r => exact ih _ _ _ _ (base_bad _ _ (load_bad_good h hload))

theorem loadLoop_bad (n : Nat) (key : k.Val) (v : w.Val) (m : AList fun _ : k.Val => w.Val)
    {is : IStream} (h : is.good = false) :
    (loadLoop (load g w) n key v m is).isSome ↔ n = 0 ∨ hasSize w = false := by
  cases n with
  | zero => exact iff_of_true rfl (.inl rfl)
  | succ n =>
      rw [loadLoop_key_bad n key v m is (base_bad key is h)]
      simp

/-- The text of some entries. -/
def entriesText (its : List (Sigma fun _ : k.Val => w.Val)) : List Char :=
  its.flatMap fun it => serializeBase it.1 ++ serialize w it.2

theorem entriesText_cons (it : Sigma fun _ : k.Val => w.Val)
    (its : List (Sigma fun _ : k.Val => w.Val)) :
    entriesText (it :: its)
      = serializeBase it.1 ++ (serialize w it.2 ++ entriesText its) := by
  rw [entriesText, List.flatMap_cons, List.append_assoc]
  rfl

theorem read_key (key out : k.Val) (rest : List Char) :
    k.read out (.ofChars (' ' :: (serializeBase key ++ rest))) = (key, .ofChars (' ' :: rest)) :=
  read_serializeBase key out rest isSpace_of_mem_blank

/-- Entries that are all there. -/
theorem loadLoop_full
    (hfull : ∀ (v e : w.Val) (rest : List Char), Fits w v →
      load g w e (.ofChars (' ' :: (serialize w v ++ rest)))
        = some (absorb g w e v, .ofChars (' ' :: rest)))
    (rest : List Char) : ∀ (its : List (Sigma fun _ : k.Val => w.Val)) (key : k.Val) (v : w.Val)
      (m : AList fun _ : k.Val => w.Val), (∀ it ∈ its, Fits w it.2) →
      (loadLoop (load g w) its.length key v m
        (.ofChars (' ' :: (entriesText its ++ rest)))).isSome := by
  intro its
  induction its with
  | nil => exact fun _ _ _ _ => rfl
  | cons it its ih =>
      intro key v m hfits
      obtain ⟨hone, hrest⟩ := List.forall_mem_cons.mp hfits
      rw [entriesText_cons, List.append_assoc, List.append_assoc, List.length_cons, loadLoop_succ,
        read_key, hfull it.2 v _ hone]
      exact ih _ _ _ hrest

/-- What was written is all there. -/
theorem load_full : ∀ {t : Ty} (v out : t.Val) {blanks : List Char} (rest : List Char), Fits t v →
    (∀ d ∈ blanks, isSpace d) →
    load g t out (.ofChars (blanks ++ (serialize t v ++ rest)))
      = some (absorb g t out v, .ofChars (' ' :: rest)) := by
  have hresult : ∀ {t : Ty} (v out : t.Val) {blanks : List Char} (rest : List Char), Fits t v →
      (∀ d ∈ blanks, isSpace d) →
      (load g t out (.ofChars (blanks ++ (serialize t v ++ rest)))).isSome := by
    intro t
    induction t with
    | base b => exact fun _ _ _ _ _ _ => rfl
    | set b =>
        intro v out blanks rest hfits hblanks
        rw [load_set, serialize, List.append_assoc, read_size _ hblanks (card_lt _)]
        rfl
    | vector b =>
        intro v out blanks rest hfits hblanks
        rw [load_vector, serialize, List.append_assoc, read_size _ hblanks hfits]
        rfl
    | map k w ih =>
        intro m out blanks rest hfits hblanks
        rw [load_map, serialize, List.append_assoc, read_size _ hblanks (entries_length_lt m)]
        refine loadLoop_full ?_ rest m.entries _ _ _ hfits
        intro v e rest hv
        obtain ⟨r, hr⟩ := Option.isSome_iff_exists.mp (ih v e rest hv isSpace_of_mem_blank)
        rw [List.singleton_append] at hr
        have hread := deserialize_serialize g v e rest hv isSpace_of_mem_blank
        rw [List.singleton_append, deserialize_of_load hr] at hread
        rw [hr, hread]
  intro t v out blanks rest hfits hblanks
  obtain ⟨r, hr⟩ := Option.isSome_iff_exists.mp (hresult v out rest hfits hblanks)
  rw [hr, ← deserialize_of_load hr, deserialize_serialize g v out rest hfits hblanks]

/-! ## A text that was cut -/

/-- A cut value has a result exactly if the cut is behind all its sizes. -/
def CutAtSizes (g : Garbage) (w : Ty) : Prop :=
  ∀ (v out : w.Val) {blanks p : List Char}, (∀ d ∈ blanks, isSpace d) → Fits w v →
    p <+: serialize w v → p ≠ serialize w v →
    ((load g w out (.ofChars (blanks ++ p))).isSome ↔ ∀ o ∈ sizeOffsets w v, o < p.length)

/-- Entries that are cut in the first key. -/
theorem loadLoop_cut_key (start : Nat) (it : Sigma fun _ : k.Val => w.Val)
    (its : List (Sigma fun _ : k.Val => w.Val)) (key : k.Val) (v : w.Val)
    (m : AList fun _ : k.Val => w.Val) {q : List Char} (hkey : q <+: serializeBase it.1)
    (hne : q ≠ serializeBase it.1) :
    (loadLoop (load g w) (its.length + 1) key v m (.ofChars (' ' :: q))).isSome
      ↔ ∀ o ∈ entryOffsets (serialize w) (sizeOffsets w) start (it :: its),
        o < start + q.length := by
  have hbad : (k.read key (.ofChars (' ' :: q))).2.good = false :=
    base_cut it.1 key isSpace_of_mem_blank hkey hne
  rw [loadLoop_key_bad _ _ _ _ _ hbad]
  cases hsize : hasSize w with
  | false => exact iff_of_true rfl (by simp [entryOffsets_eq_nil hsize])
  | true =>
      -- the first size is not there
      refine iff_of_false (by decide) fun h => ?_
      have hfirst := h _ (first_mem_entryOffsets hsize start it its)
      have hlength := hkey.length_le
      omega

/-- A value that is cut, in an entry: a size is not there, or there is a result, and the
stream is not good. -/
theorem load_value_cut (hcut : CutAtSizes g w) (v v' : w.Val) {q : List Char} (hfits : Fits w v')
    (hvalue : q <+: serialize w v') (hne : q ≠ serialize w v') :
    (load g w v (.ofChars (' ' :: q)) = none ∧ ∃ o ∈ sizeOffsets w v', q.length ≤ o)
      ∨ ∃ r, load g w v (.ofChars (' ' :: q)) = some r ∧ r.2.good = false
        ∧ ∀ o ∈ sizeOffsets w v', o < q.length := by
  have hsizes := hcut v' v isSpace_of_mem_blank hfits hvalue hne
  rw [List.singleton_append] at hsizes
  cases hload : load g w v (.ofChars (' ' :: q)) with
  | none =>
      have hunread : ¬ ∀ o ∈ sizeOffsets w v', o < q.length := by
        rw [← hsizes, hload]
        exact Bool.false_ne_true
      refine .inl ⟨rfl, ?_⟩
      simpa only [not_forall, Nat.not_lt, exists_prop] using hunread
  | some r =>
      refine .inr ⟨r, rfl, ?_, hsizes.mp (hload ▸ rfl)⟩
      rw [← deserialize_of_load hload]
      exact deserialize_cut g v' v isSpace_of_mem_blank hvalue hne

/-- So it is for entries. -/
theorem loadLoop_cut (hcut : CutAtSizes g w) : ∀ (its : List (Sigma fun _ : k.Val => w.Val))
    (start : Nat) (key : k.Val) (v : w.Val) (m : AList fun _ : k.Val => w.Val) {q : List Char},
    (∀ it ∈ its, Fits w it.2) → q <+: entriesText its → q ≠ entriesText its →
    ((loadLoop (load g w) its.length key v m (.ofChars (' ' :: q))).isSome
      ↔ ∀ o ∈ entryOffsets (serialize w) (sizeOffsets w) start its, o < start + q.length) := by
  intro its
  induction its with
  | nil => exact fun _ _ _ _ _ _ hq hne => absurd (List.prefix_nil.mp hq) hne
  | cons it its ih =>
      intro start key v m q hfits hq hne
      obtain ⟨hone, hrest⟩ := List.forall_mem_cons.mp hfits
      rw [entriesText_cons] at hq hne
      rw [List.length_cons]
      rcases prefix_split hq hne with ⟨hkey, hkeyne⟩ | ⟨q, rfl, hq, hqne⟩
      · exact loadLoop_cut_key start it its key v m hkey hkeyne
      · rw [loadLoop_succ, read_key, entryOffsets, List.length_append]
        dsimp only
        simp only [List.forall_mem_append, List.forall_mem_map]
        rcases prefix_split hq hqne with ⟨hvalue, hvaluene⟩ | ⟨q, rfl, hq, hqne⟩
        · -- in the value
          have hlength := hvalue.length_le
          obtain ⟨hload, o, ho, hle⟩ | ⟨r, hload, hbad, hlt⟩ :=
            load_value_cut hcut v it.2 hone hvalue hvaluene
          · rw [hload]
            refine iff_of_false (by simp) fun h => ?_
            have hlt := h.1 o ho
            omega
          · rw [hload, Option.bind_some, loadLoop_bad _ _ _ _ hbad, ← entryOffsets_lt_iff (show
              start + ((serializeBase it.1).length + q.length)
                ≤ start + (serializeBase it.1).length + (serialize w it.2).length by omega) its]
            refine (and_iff_right fun o ho => ?_).symm
            have hsize := hlt o ho
            omega
        · -- behind the value
          have hfull := load_full (g := g) it.2 v q hone isSpace_of_mem_blank
          rw [List.singleton_append] at hfull
          rw [hfull, Option.bind_some, ih (start + (serializeBase it.1).length
            + (serialize w it.2).length) _ _ _ hrest hq hqne, List.length_append]
          constructor
          · intro h
            refine ⟨fun o ho => ?_, fun o ho => ?_⟩
            · have hlt := sizeOffsets_lt it.2 o ho
              omega
            · have hlt := h o ho
              omega
          · intro h o ho
            have hlt := h.2 o ho
            omega

/-- A container whose size is cut off, or not. -/
theorem cut_size {n : Nat} {rest blanks p : List Char} (hblanks : ∀ d ∈ blanks, isSpace d)
    (hp : p <+: serializeSize n ++ rest) :
    ((IStream.ofChars (blanks ++ p)).readUnsigned 64).1.isSome ↔ 0 < p.length := by
  rw [serializeSize, List.append_assoc] at hp
  constructor
  · intro h
    refine List.length_pos_iff.mpr ?_
    rintro rfl
    have hnone : (IStream.ofChars (blanks ++ [])).sentry.good = false := by
      have hdrop : (blanks ++ []).dropWhile isSpace = [] := by
        rw [List.append_nil]
        exact List.dropWhile_eq_nil_iff.mpr hblanks
      simp only [IStream.sentry, IStream.ofChars, IStream.good, Bool.not_false, Bool.and_self,
        if_true, hdrop]
      rfl
    rw [IStream.readUnsigned_eq, if_neg (by rw [hnone]; decide)] at h
    cases h
  · intro h
    exact readUnsigned_isSome hblanks hp (List.length_pos_iff.mp h) 64

theorem cutAtSizes (g : Garbage) : ∀ t : Ty, CutAtSizes g t := by
  intro t
  induction t with
  | base b => exact fun v out _ _ _ _ _ _ => iff_of_true rfl fun o ho => absurd ho List.not_mem_nil
  | set b =>
      intro v out blanks p hblanks _ hp _
      rw [load_set, Option.isSome_map, cut_size hblanks hp]
      exact (List.forall_mem_singleton (p := fun o => o < p.length)).symm
  | vector b =>
      intro v out blanks p hblanks _ hp _
      rw [load_vector, Option.isSome_map, cut_size hblanks hp]
      exact (List.forall_mem_singleton (p := fun o => o < p.length)).symm
  | map k w ih =>
      intro m out blanks p hblanks hfits hp hne
      have hsize := entries_length_lt m
      rw [load_map, sizeOffsets, List.forall_mem_cons]
      rcases prefix_split hp hne with ⟨hnumber, hnumberne⟩ | ⟨q, rfl, hq, hqne⟩
      · -- in the size of the map itself
        have hprint : p <+: printUnsigned m.entries.length :=
          (List.prefix_concat_iff.mp hnumber).resolve_left hnumberne
        have hlength := hnumber.length_le
        by_cases hnil : p = []
        · subst hnil
          have hcut : [] <+: serializeSize m.entries.length ++ [] := List.nil_prefix
          have hnone := (cut_size hblanks hcut).not.mpr (Nat.lt_irrefl 0)
          rw [Option.not_isSome_iff_eq_none] at hnone
          rw [hnone]
          exact iff_of_false (by simp) fun h => absurd h.1 (Nat.lt_irrefl 0)
        · obtain ⟨n, rfl, hle, hzero⟩ := exists_printUnsigned_of_prefix hprint hnil
          have hread := IStream.readUnsigned_text 64 blanks [] hblanks
            (Nat.lt_of_le_of_lt hle hsize) (by simp)
          rw [List.append_nil] at hread
          rw [hread, Option.bind_some, loadLoop_bad _ _ _ _ rfl, entryOffsets_lt_iff hlength,
            and_iff_right (List.length_pos_iff.mpr hnil)]
          refine or_congr_left ⟨hzero, fun h => ?_⟩
          omega
      · rw [read_size q hblanks hsize, Option.bind_some, loadLoop_cut ih m.entries
          (serializeSize m.entries.length).length _ _ _ hfits hq hqne, List.length_append]
        have hpos := serializeSize_length_pos m.entries.length
        exact (and_iff_right (by omega)).symm

/-- Of every value and every place where its text is cut: `deserialize` of what is left
returns 0 exactly if all the sizes that were written have at least their first digit. -/
theorem cut_refused_iff (g : Garbage) (t : Ty) (v out : t.Val) (p : List Char) (hfits : Fits t v)
    (hp : p <+: serialize t v) (hne : p ≠ serialize t v) :
    Refused g t out p ↔ ∀ o ∈ sizeOffsets t v, o < p.length := by
  have hcut := cutAtSizes g t v out (fun _ hd => absurd hd List.not_mem_nil) hfits hp hne
  rw [List.nil_append] at hcut
  rw [← hcut]
  constructor
  · rintro ⟨r, hr, -⟩
    rw [hr]
    rfl
  · intro hsome
    obtain ⟨r, hr⟩ := Option.isSome_iff_exists.mp hsome
    refine ⟨r, hr, ?_⟩
    rw [← deserialize_of_load hr]
    exact cut_not_good g t v out p hp hne

/-- A map from 1 and 2 to two vectors, kept in this order. -/
def twoVectors (first second : List Int32) : (Ty.map .int (.vector .int)).Val :=
  ⟨[⟨(1 : Int32), first⟩, ⟨(2 : Int32), second⟩], by simp [List.NodupKeys, List.keys]⟩

theorem fits_twoVectors : Fits (.map .int (.vector .int)) (twoVectors [5] [6, 7]) := by
  intro it hit
  simp only [twoVectors, List.mem_cons, List.not_mem_nil, or_false] at hit
  rcases hit with rfl | rfl
  · exact (by decide : (1 : Nat) < 2 ^ 64)
  · exact (by decide : (2 : Nat) < 2 ^ 64)

/-- `2 1 1 5 2 2 6 7 `, cut behind the last size. -/
theorem cut_refused_iff_twoVectors :
    Refused .zeros (.map .int (.vector .int)) ∅ "2 1 1 5 2 2".toList :=
  (cut_refused_iff .zeros (.map .int (.vector .int)) (twoVectors [5] [6, 7]) ∅ _ fits_twoVectors
    ⟨" 6 7 ".toList, by decide +kernel⟩ (by decide +kernel)).mpr (by decide +kernel)

/-- Cut one number earlier, it leaves the size of the second vector unread. -/
theorem unread_not_refused : ¬ ∀ (t : Ty) (v out : t.Val) (p : List Char), Fits t v →
    p <+: serialize t v → p ≠ serialize t v → p ≠ [] → Refused .zeros t out p := by
  intro h
  obtain ⟨r, hr, -⟩ := h (.map .int (.vector .int)) (twoVectors [5] [6, 7]) ∅
    "2 1 1 5 2".toList fits_twoVectors ⟨" 2 6 7 ".toList, by decide +kernel⟩ (by decide +kernel)
    (by decide)
  have hnone : (load .zeros (.map .int (.vector .int)) ∅ (.ofChars "2 1 1 5 2".toList)).isNone := by
    decide +kernel
  rw [hr] at hnone
  cases hnone

end Serial

end DistributAr
