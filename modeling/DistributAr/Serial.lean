/-
# `DistributAr.Serial` — `serialize` and `deserialize`

The templates of `serial.h`, at every type they can be instantiated with out of
`int`, `unsigned int`, `set`, `vector` and `unordered_map`.  `Ty` is the type,
`Ty.Val` its values.

| type            | text                                            |
|-----------------|-------------------------------------------------|
| `int`, `unsigned int` | the number                                |
| `set`, `vector` | the size, then the elements                     |
| `unordered_map` | the size, then key and value of each entry      |

Every number is followed by a blank.  The order of the entries of a map is the
order in which the map happens to be kept.

`deserialize` reads into an object that exists: it inserts, and takes nothing
out.  The loop over a map reads all values into one variable `v`, so each value
comes on top of those before it (`absorb`).  What was written is read back
exactly if, in every map, no value has anything that a later one lacks
(`undone_iff`).
-/
import DistributAr.Lib.IStream
import Mathlib.Data.Finset.Sort
import Mathlib.Data.Int.Interval
import Mathlib.Data.List.AList
import Mathlib.Order.Basic

namespace DistributAr

open Lib

/-- The types that are read and written as one number. -/
inductive Base where
  | int
  | uint
deriving DecidableEq, Repr

namespace Base

abbrev Val : Base → Type
  | .int => Int32
  | .uint => UInt32

/-- The number that stands for a value. -/
def toInt : {b : Base} → b.Val → Int
  | .int, v => Int32.toInt v
  | .uint, v => UInt32.toNat v

theorem toInt_injective : ∀ b : Base, Function.Injective (toInt (b := b))
  | .int => fun _ _ h => Int32.toInt_inj.mp h
  | .uint => fun _ _ h => UInt32.toNat_inj.mp (Int.ofNat.inj h)

/-- The order of a `set`. -/
instance (b : Base) : LinearOrder b.Val := LinearOrder.lift' toInt (toInt_injective b)

/-- `is >> out` -/
def read : (b : Base) → b.Val → IStream → b.Val × IStream
  | .int, out, is => (((is.readSigned 32).1.map Int32.ofInt).getD out, (is.readSigned 32).2)
  | .uint, out, is => (((is.readUnsigned 32).1.map UInt32.ofNat).getD out, (is.readUnsigned 32).2)

end Base

/-- The types that `serialize` and `deserialize` are instantiated with. -/
inductive Ty where
  | base (b : Base)
  | set (b : Base)
  | vector (b : Base)
  | map (k : Base) (v : Ty)
deriving DecidableEq, Repr

abbrev Ty.Val : Ty → Type
  | .base b => b.Val
  | .set b => Finset b.Val
  | .vector b => List b.Val
  | .map k v => AList fun _ : k.Val => v.Val

namespace Serial

/-! ## Writing -/

/-- `serialize` of a number -/
def serializeBase {b : Base} (t : b.Val) : List Char := printSigned (Base.toInt t) ++ [' ']

/-- `os << size << " "` -/
def serializeSize (size : Nat) : List Char := printUnsigned size ++ [' ']

/-- `serialize` -/
def serialize : (t : Ty) → t.Val → List Char
  | .base _, v => serializeBase v
  | .set _, s => serializeSize s.card ++ (Finset.sort s).flatMap serializeBase
  | .vector _, v => serializeSize (List.length v) ++ List.flatMap serializeBase v
  | .map _ w, m => serializeSize m.entries.length
      ++ m.entries.flatMap fun it => serializeBase it.1 ++ serialize w it.2

/-! ## Reading -/

/-- What is in a variable that nothing was assigned to. -/
structure Garbage where
  base : (b : Base) → b.Val
  size : Nat

variable (g : Garbage)

/-- A variable that was just declared: containers are empty. -/
def declared : (t : Ty) → t.Val
  | .base b => g.base b
  | .set _ => (∅ : Finset _)
  | .vector _ => ([] : List _)
  | .map _ _ => (∅ : AList _)

/-- `size_t size; is >> size;` -/
def deserializeSize (is : IStream) : Nat × IStream :=
  (((is.readUnsigned 64).1).getD g.size, (is.readUnsigned 64).2)

/-- `*it = t` of `std::inserter(s, s.end())` -/
def setInserter {b : Base} (s : Finset b.Val) (t : b.Val) : Finset b.Val := insert t s

/-- `*it = t` of `std::inserter(v, v.end())` -/
def vectorInserter {b : Base} (v : List b.Val) (t : b.Val) : List b.Val := v ++ [t]

/-- The loop of `deserialize(insert_iterator)`; `t` is read again and again. -/
def insertLoop {C : Type} {b : Base} (insert : C → b.Val → C) :
    Nat → b.Val → C → IStream → C × IStream
  | 0, _, it, is => (it, is)
  | size + 1, t, it, is =>
      let (t, is) := b.read t is
      insertLoop insert size t (insert it t) is

/-- The loop of `deserialize(unordered_map)`; `k` and `v` are read again and
again. -/
def mapLoop {V : Type} {kb : Base} (deserializeV : V → IStream → V × IStream) :
    Nat → kb.Val → V → (AList fun _ : kb.Val => V) → IStream →
    (AList fun _ : kb.Val => V) × IStream
  | 0, _, _, m, is => (m, is)
  | size + 1, k, v, m, is =>
      let (k, is) := kb.read k is
      let (v, is) := deserializeV v is
      mapLoop deserializeV size k v (m.insert k v) is

/-- `deserialize`, into an object that holds something: the object afterwards, and
the stream.  What is returned is whether the stream is good.  A loop whose size was not
read goes by `g.size`, as if memory had no end; `load` has no result there. -/
def deserialize : (t : Ty) → t.Val → IStream → t.Val × IStream
  | .base b, out, is => b.read out is
  | .set b, s, is =>
      let (size, is) := deserializeSize g is
      insertLoop setInserter size (g.base b) s is
  | .vector b, v, is =>
      let (size, is) := deserializeSize g is
      insertLoop vectorInserter size (g.base b) v is
  | .map k w, m, is =>
      let (size, is) := deserializeSize g is
      mapLoop (deserialize w) size (g.base k) (declared g w) m is

theorem deserialize_set {b : Base} (s : Finset b.Val) (is : IStream) :
    deserialize g (.set b) s is = insertLoop setInserter (deserializeSize g is).1 (g.base b) s
      (deserializeSize g is).2 := rfl

theorem deserialize_vector {b : Base} (v : List b.Val) (is : IStream) :
    deserialize g (.vector b) v is = insertLoop vectorInserter (deserializeSize g is).1 (g.base b) v
      (deserializeSize g is).2 := rfl

/-! ## One number -/

/-- A number is read back, and the blank after it is left. -/
theorem read_serializeBase {b : Base} (t out : b.Val) {blanks : List Char} (rest : List Char)
    (hblanks : ∀ d ∈ blanks, isSpace d) :
    b.read out (.ofChars (blanks ++ (serializeBase t ++ rest))) = (t, .ofChars (' ' :: rest)) := by
  have htext : blanks ++ (serializeBase t ++ rest)
      = blanks ++ (printSigned (Base.toInt t) ++ ' ' :: rest) := by
    rw [serializeBase, List.append_assoc]
    rfl
  have hblank : ∀ d ∈ (' ' :: rest).head?, d.isDigit = false := by
    intro d hd
    cases hd
    rfl
  rw [htext]
  cases b with
  | int =>
      have hread : (IStream.ofChars
          (blanks ++ (printSigned (Int32.toInt t) ++ ' ' :: rest))).readSigned 32
          = (some (Int32.toInt t), .ofChars (' ' :: rest)) :=
        IStream.readSigned_text 32 blanks (' ' :: rest) hblanks (Int32.le_toInt t)
          (Int32.toInt_lt t) hblank
      show (((IStream.readSigned 32 _).1.map Int32.ofInt).getD out,
        (IStream.readSigned 32 _).2) = _
      rw [Base.toInt, hread]
      exact Prod.ext (Int32.ofInt_toInt t) rfl
  | uint =>
      have hread : (IStream.ofChars
          (blanks ++ (printUnsigned (UInt32.toNat t) ++ ' ' :: rest))).readUnsigned 32
          = (some (UInt32.toNat t), .ofChars (' ' :: rest)) :=
        IStream.readUnsigned_text 32 blanks (' ' :: rest) hblanks (UInt32.toNat_lt t) hblank
      show (((IStream.readUnsigned 32 _).1.map UInt32.ofNat).getD out,
        (IStream.readUnsigned 32 _).2) = _
      have hprint : printSigned (Base.toInt t) = printUnsigned (UInt32.toNat t) := rfl
      rw [hprint, hread]
      exact Prod.ext UInt32.ofNat_toNat rfl

theorem deserializeSize_serializeSize {size : Nat} {blanks : List Char} (rest : List Char)
    (hblanks : ∀ d ∈ blanks, isSpace d) (hsize : size < 2 ^ 64) :
    deserializeSize g (.ofChars (blanks ++ (serializeSize size ++ rest)))
      = (size, .ofChars (' ' :: rest)) := by
  have hread : (IStream.ofChars (blanks ++ (printUnsigned size ++ ' ' :: rest))).readUnsigned 64
      = (some size, .ofChars (' ' :: rest)) := by
    refine IStream.readUnsigned_text 64 blanks (' ' :: rest) hblanks hsize ?_
    intro d hd
    cases hd
    rfl
  have htext : blanks ++ (serializeSize size ++ rest)
      = blanks ++ (printUnsigned size ++ ' ' :: rest) := by
    rw [serializeSize, List.append_assoc]
    rfl
  rw [deserializeSize, htext, hread]
  rfl

theorem isSpace_of_mem_blank : ∀ d ∈ [' '], isSpace d := by
  intro d hd
  rw [List.mem_singleton.mp hd]
  rfl

/-! ## The loops -/

/-- The elements are inserted one after another. -/
theorem insertLoop_serialize {C : Type} {b : Base} (insert : C → b.Val → C) (rest : List Char) :
    ∀ (elems : List b.Val) (t : b.Val) (it : C),
      insertLoop insert elems.length t it
          (.ofChars (' ' :: (elems.flatMap serializeBase ++ rest)))
        = (elems.foldl insert it, .ofChars (' ' :: rest)) := by
  intro elems
  induction elems with
  | nil => exact fun _ _ => rfl
  | cons e es ih =>
      intro t it
      have hread : b.read t (.ofChars (' ' :: ((e :: es).flatMap serializeBase ++ rest)))
          = (e, .ofChars (' ' :: (es.flatMap serializeBase ++ rest))) := by
        rw [List.flatMap_cons, List.append_assoc]
        exact read_serializeBase e t _ isSpace_of_mem_blank
      rw [List.length_cons, insertLoop, hread]
      exact ih e (insert it e)

theorem foldl_vectorInserter {b : Base} (elems v : List b.Val) :
    elems.foldl vectorInserter v = v ++ elems := by
  induction elems generalizing v with
  | nil => exact (List.append_nil v).symm
  | cons e es ih =>
      rw [List.foldl_cons, ih, vectorInserter, List.append_assoc]
      rfl

theorem mem_foldl_setInserter {b : Base} (elems : List b.Val) (s : Finset b.Val) (x : b.Val) :
    x ∈ elems.foldl setInserter s ↔ x ∈ s ∨ x ∈ elems := by
  induction elems generalizing s with
  | nil => simp
  | cons e es ih =>
      rw [List.foldl_cons, ih, setInserter, Finset.mem_insert, List.mem_cons]
      tauto

theorem foldl_setInserter_sort {b : Base} (s s' : Finset b.Val) :
    (Finset.sort s').foldl setInserter s = s ∪ s' := by
  ext x
  rw [mem_foldl_setInserter, Finset.mem_union, Finset.mem_sort]

/-! ## What is read -/

/-- What a map holds after some entries were read into it; `v` is what the variable
holds. -/
def absorbEntries {kb : Base} {V : Type} (absorbV : V → V → V) :
    List (Sigma fun _ : kb.Val => V) → V → (AList fun _ : kb.Val => V) →
    AList fun _ : kb.Val => V
  | [], _, m => m
  | it :: its, v, m => absorbEntries absorbV its (absorbV v it.2) (m.insert it.1 (absorbV v it.2))

/-- What an object holds after a value was read into it. -/
def absorb : (t : Ty) → t.Val → t.Val → t.Val
  | .base _, _, v => v
  | .set b, e, s => (e : Finset b.Val) ∪ s
  | .vector b, e, v => (e : List b.Val) ++ v
  | .map _ w, e, m => absorbEntries (absorb w) m.entries (declared g w) e

/-- The vectors in a value can be as long as they are: their length is a
`size_t`.  Sets and maps cannot grow that far. -/
def Fits : (t : Ty) → t.Val → Prop
  | .base _, _ => True
  | .set _, _ => True
  | .vector _, v => List.length v < 2 ^ 64
  | .map _ w, m => ∀ it ∈ m.entries, Fits w it.2

theorem Base.toInt_range {b : Base} (t : b.Val) :
    -2 ^ 31 ≤ Base.toInt t ∧ Base.toInt t < 2 ^ 32 := by
  cases b with
  | int => exact ⟨Int32.le_toInt t, (Int32.toInt_lt t).trans (by decide)⟩
  | uint =>
      have hlt : ((UInt32.toNat t : Nat) : Int) < 2 ^ 32 := Int.ofNat_lt.mpr (UInt32.toNat_lt t)
      exact ⟨(by decide : (-2 ^ 31 : Int) ≤ 0).trans (Int.natCast_nonneg _), hlt⟩

theorem card_lt {b : Base} (s : Finset b.Val) : s.card < 2 ^ 64 :=
  calc s.card
      = (s.image Base.toInt).card :=
        (Finset.card_image_of_injective s (Base.toInt_injective b)).symm
    _ ≤ (Finset.Ico (-2 ^ 31 : Int) (2 ^ 32)).card := by
        refine Finset.card_le_card ?_
        intro n hn
        obtain ⟨t, -, rfl⟩ := Finset.mem_image.mp hn
        exact Finset.mem_Ico.mpr (Base.toInt_range t)
    _ < 2 ^ 64 := by
        rw [Int.card_Ico]
        decide

theorem entries_length_lt {b : Base} {V : Type} (m : AList fun _ : b.Val => V) :
    m.entries.length < 2 ^ 64 :=
  calc m.entries.length
      = m.keys.length := (List.length_map _).symm
    _ = m.keys.toFinset.card := (List.toFinset_card_of_nodup m.keys_nodup).symm
    _ < 2 ^ 64 := card_lt _

/-- The entries are inserted one after another, and the variable keeps what was
read into it. -/
theorem mapLoop_serialize {V : Type} {kb : Base} {deserializeV : V → IStream → V × IStream}
    {serializeV : V → List Char} {absorbV : V → V → V} (rest : List Char) :
    ∀ (its : List (Sigma fun _ : kb.Val => V)) (k : kb.Val) (v : V)
      (m : AList fun _ : kb.Val => V),
      (∀ it ∈ its, ∀ e rest, deserializeV e (.ofChars (' ' :: (serializeV it.2 ++ rest)))
        = (absorbV e it.2, .ofChars (' ' :: rest))) →
      mapLoop deserializeV its.length k v m (.ofChars
          (' ' :: (its.flatMap (fun it => serializeBase it.1 ++ serializeV it.2) ++ rest)))
        = (absorbEntries absorbV its v m, .ofChars (' ' :: rest)) := by
  intro its
  induction its with
  | nil => exact fun _ _ _ _ => rfl
  | cons it its ih =>
      intro k v m hvalues
      have hkey := read_serializeBase it.1 k (serializeV it.2
        ++ (its.flatMap (fun it => serializeBase it.1 ++ serializeV it.2) ++ rest))
        isSpace_of_mem_blank
      have hvalue := hvalues it List.mem_cons_self v
        (its.flatMap (fun it => serializeBase it.1 ++ serializeV it.2) ++ rest)
      have htext : ((it :: its).flatMap fun it => serializeBase it.1 ++ serializeV it.2) ++ rest
          = serializeBase it.1 ++ (serializeV it.2
            ++ (its.flatMap (fun it => serializeBase it.1 ++ serializeV it.2) ++ rest)) := by
        simp only [List.flatMap_cons, List.append_assoc]
      rw [htext, List.length_cons, mapLoop]
      rw [List.singleton_append] at hkey
      simp only [hkey, hvalue]
      exact ih _ _ _ fun it' hit' => hvalues it' (List.mem_cons_of_mem _ hit')

theorem deserialize_serialize :
    ∀ {t : Ty} (v e : t.Val) {blanks : List Char} (rest : List Char), Fits t v →
      (∀ d ∈ blanks, isSpace d) →
      deserialize g t e (.ofChars (blanks ++ (serialize t v ++ rest)))
        = (absorb g t e v, .ofChars (' ' :: rest)) := by
  intro t
  induction t with
  | base b => exact fun v e _ rest _ hblanks => read_serializeBase v e rest hblanks
  | set b =>
      intro (s : Finset b.Val) (e : Finset b.Val) blanks rest _ hblanks
      have hsize := deserializeSize_serializeSize g
        ((Finset.sort s).flatMap serializeBase ++ rest) hblanks (card_lt s)
      have hloop := insertLoop_serialize setInserter rest (Finset.sort s) (g.base b) e
      rw [Finset.length_sort, foldl_setInserter_sort] at hloop
      have htext : serialize (.set b) s ++ rest = serializeSize s.card
          ++ ((Finset.sort s).flatMap serializeBase ++ rest) := List.append_assoc _ _ _
      rw [htext, deserialize_set, hsize]
      exact hloop
  | vector b =>
      intro (v : List b.Val) (e : List b.Val) blanks rest hfits hblanks
      have hsize := deserializeSize_serializeSize g
        (List.flatMap serializeBase v ++ rest) hblanks hfits
      have hloop := insertLoop_serialize vectorInserter rest v (g.base b) e
      rw [foldl_vectorInserter] at hloop
      have htext : serialize (.vector b) v ++ rest = serializeSize v.length
          ++ (v.flatMap serializeBase ++ rest) := List.append_assoc _ _ _
      rw [htext, deserialize_vector, hsize]
      exact hloop
  | map k w ih =>
      intro m e blanks rest hfits hblanks
      have hsize := deserializeSize_serializeSize g
        (m.entries.flatMap (fun it => serializeBase it.1 ++ serialize w it.2) ++ rest)
        hblanks (entries_length_lt m)
      rw [serialize, List.append_assoc, deserialize, hsize]
      refine mapLoop_serialize rest m.entries (g.base k) (declared g w) e ?_
      exact fun it hit e' rest' => ih it.2 e' rest' (hfits it hit) isSpace_of_mem_blank

/-! ## When it is what was written -/

/-- `==`; maps may keep their entries in different orders. -/
def Equal : (t : Ty) → t.Val → t.Val → Prop
  | .base _, v, v' => v = v'
  | .set _, s, s' => s = s'
  | .vector _, v, v' => v = v'
  | .map _ w, m, m' => ∀ key, Option.Rel (Equal w) (m.lookup key) (m'.lookup key)

/-- A value has nothing that a later one, read over it, would not cover. -/
def NoMore : (t : Ty) → t.Val → t.Val → Prop
  | .base _, _, _ => True
  | .set b, e, s => (e : Finset b.Val) ⊆ s
  | .vector b, e, _ => e = ([] : List b.Val)
  | .map _ _, e, m => ∀ key, key ∈ e.keys → key ∈ m.keys

/-- In every map, no value has anything that a later one lacks. -/
def Faithful : (t : Ty) → t.Val → Prop
  | .base _, _ => True
  | .set _, _ => True
  | .vector _, _ => True
  | .map _ w, m => m.entries.Pairwise (fun it it' => NoMore w it.2 it'.2)
      ∧ ∀ it ∈ m.entries, Faithful w it.2

theorem noMore_set {b : Base} {e s : Finset b.Val} : NoMore (.set b) e s ↔ e ⊆ s := Iff.rfl

theorem mem_absorbEntries {kb : Base} {V : Type} (absorbV : V → V → V) (key : kb.Val) :
    ∀ (its : List (Sigma fun _ : kb.Val => V)) (v : V) (m : AList fun _ : kb.Val => V),
      key ∈ absorbEntries absorbV its v m ↔ key ∈ m ∨ key ∈ its.keys := by
  intro its
  induction its with
  | nil => simp [absorbEntries]
  | cons it its ih =>
      intro v m
      rw [absorbEntries, ih, AList.mem_insert, List.keys_cons, List.mem_cons]
      tauto

theorem lookup_absorbEntries {kb : Base} {V : Type} (absorbV : V → V → V) {key : kb.Val} :
    ∀ {its : List (Sigma fun _ : kb.Val => V)} (v : V) (m : AList fun _ : kb.Val => V),
      key ∉ its.keys → (absorbEntries absorbV its v m).lookup key = m.lookup key := by
  intro its
  induction its with
  | nil => exact fun _ _ _ => rfl
  | cons it its ih =>
      intro v m hkey
      rw [List.keys_cons, List.mem_cons, not_or] at hkey
      rw [absorbEntries, ih _ _ hkey.2, AList.lookup_insert_ne hkey.1]

/-- What was read over two values has what either of them had. -/
theorem noMore_absorb :
    ∀ {t : Ty} (e y x : t.Val), NoMore t (absorb g t e y) x ↔ NoMore t e x ∧ NoMore t y x := by
  intro t e y x
  cases t with
  | base b => exact (and_iff_left trivial).symm
  | set b => exact Finset.union_subset_iff
  | vector b => exact List.append_eq_nil_iff
  | map k w =>
      show (∀ key, key ∈ absorbEntries (absorb g w) y.entries (declared g w) e → key ∈ x.keys) ↔ _
      simp only [mem_absorbEntries, or_imp, forall_and]
      rfl

theorem noMore_declared {t : Ty} (x : t.Val) : NoMore t (declared g t) x := by
  cases t with
  | base b => trivial
  | set b => exact Finset.empty_subset _
  | vector b => rfl
  | map k w => exact fun key hkey => (List.not_mem_nil hkey).elim

/-- The values of a list of entries, read over each other.  `hequal` is the case of
one value. -/
theorem equal_entries_iff {kb : Base} {w : Ty}
    (hequal : ∀ e x, Equal w (absorb g w e x) x ↔ NoMore w e x ∧ Faithful w x) :
    ∀ (its : List (Sigma fun _ : kb.Val => w.Val)) (v : w.Val) (m : AList fun _ : kb.Val => w.Val),
      its.NodupKeys →
      ((∀ it ∈ its, Option.Rel (Equal w)
          ((absorbEntries (absorb g w) its v m).lookup it.1) (some it.2))
        ↔ (∀ it ∈ its, NoMore w v it.2)
          ∧ its.Pairwise (fun it it' => NoMore w it.2 it'.2) ∧ ∀ it ∈ its, Faithful w it.2) := by
  intro its
  induction its with
  | nil => simp
  | cons it its ih =>
      intro v m hnodup
      rw [List.nodupKeys_cons] at hnodup
      have hhead : (absorbEntries (absorb g w) (it :: its) v m).lookup it.1
          = some (absorb g w v it.2) := by
        rw [absorbEntries, lookup_absorbEntries _ _ _ hnodup.1, AList.lookup_insert]
      have hfirst : Option.Rel (Equal w)
          ((absorbEntries (absorb g w) (it :: its) v m).lookup it.1) (some it.2)
          ↔ NoMore w v it.2 ∧ Faithful w it.2 := by
        rw [hhead, Option.rel_some_some]
        exact hequal v it.2
      have hlater : (∀ it' ∈ its, NoMore w (absorb g w v it.2) it'.2)
          ↔ (∀ it' ∈ its, NoMore w v it'.2) ∧ ∀ it' ∈ its, NoMore w it.2 it'.2 := by
        simp only [noMore_absorb, imp_and, forall_and]
      simp only [List.forall_mem_cons, List.pairwise_cons]
      rw [hfirst, absorbEntries, ih (absorb g w v it.2) _ hnodup.2, hlater]
      tauto

/-- Reading a value over another gives the value exactly if it covers what was
there, and reads back by itself. -/
theorem equal_absorb_iff :
    ∀ {t : Ty} (e x : t.Val), Equal t (absorb g t e x) x ↔ NoMore t e x ∧ Faithful t x := by
  intro t
  induction t with
  | base b => exact fun e x => iff_of_true rfl ⟨trivial, trivial⟩
  | set b => exact fun e x => Finset.union_eq_right.trans (and_iff_left trivial).symm
  | vector b => exact fun e x => List.append_left_eq_self.trans (and_iff_left trivial).symm
  | map k w ih =>
      intro e x
      have hentries := equal_entries_iff g ih x.entries (declared g w) e x.nodupKeys
      constructor
      · intro hequal
        refine ⟨?_, (hentries.mp ?_).2⟩
        · intro key hkey
          by_contra hx
          have hrel := hequal key
          rw [AList.lookup_eq_none.mpr hx, absorb, lookup_absorbEntries _ _ _ hx] at hrel
          generalize hlookup : e.lookup key = found at hrel
          cases hrel
          exact AList.lookup_eq_none.mp hlookup hkey
        · intro it hit
          have hrel := hequal it.1
          rwa [AList.mem_lookup_iff.mpr hit] at hrel
      · rintro ⟨hkeys, hfaithful⟩ key
        have hread := hentries.mpr ⟨fun _ _ => noMore_declared g _, hfaithful⟩
        cases hlookup : x.lookup key with
        | none =>
            have hx := AList.lookup_eq_none.mp hlookup
            have he : e.lookup key = none := AList.lookup_eq_none.mpr fun he => hx (hkeys key he)
            rw [absorb, lookup_absorbEntries _ _ _ hx, he]
            exact .none
        | some value => exact hread ⟨key, value⟩ (AList.mem_lookup_iff.mp hlookup)

/-! ## Undoing -/

/-- A stream is read from as if it were another one that leaves the same after its
blanks. -/
theorem deserialize_congr {is is' : IStream} (h : is.sentry = is'.sentry) :
    ∀ (t : Ty) (out : t.Val), deserialize g t out is = deserialize g t out is' := by
  have hsigned : is.readSigned 32 = is'.readSigned 32 := by
    simp only [IStream.readSigned, h]
  have hunsigned : ∀ w, is.readUnsigned w = is'.readUnsigned w := by
    intro w
    simp only [IStream.readUnsigned, h]
  have hsize : deserializeSize g is = deserializeSize g is' := by
    rw [deserializeSize, hunsigned]
    rfl
  intro t out
  cases t with
  | base b =>
      cases b with
      | int => simp only [deserialize, Base.read, hsigned]
      | uint => simp only [deserialize, Base.read, hunsigned]
  | set b => rw [deserialize_set, hsize, ← deserialize_set]
  | vector b => rw [deserialize_vector, hsize, ← deserialize_vector]
  | map k w => simp only [deserialize, hsize]

/-- What `deserialize` makes of a value that was written, and of what follows it. -/
structure Undone (t : Ty) (v : t.Val) (rest : List Char) : Prop where
  /-- The value that is read is the one that was written. -/
  equal : Equal t (deserialize g t (declared g t) (.ofChars (serialize t v ++ rest))).1 v
  /-- The call returns non-zero. -/
  good : (deserialize g t (declared g t) (.ofChars (serialize t v ++ rest))).2.good = true
  /-- Whatever is read next is read from `rest`. -/
  next : ∀ (t' : Ty) (out : t'.Val),
    deserialize g t' out (deserialize g t (declared g t) (.ofChars (serialize t v ++ rest))).2
      = deserialize g t' out (.ofChars rest)

/-- A value that was written at the start of the text, read into a new object. -/
theorem deserialize_declared {t : Ty} {v : t.Val} (rest : List Char) (hfits : Fits t v) :
    deserialize g t (declared g t) (.ofChars (serialize t v ++ rest))
      = (absorb g t (declared g t) v, .ofChars (' ' :: rest)) := by
  have hnone : ∀ d ∈ ([] : List Char), isSpace d := fun d hd => (List.not_mem_nil hd).elim
  exact deserialize_serialize g v (declared g t) rest hfits hnone

/-- A value is read back exactly if it is faithful. -/
theorem undone_iff (t : Ty) (v : t.Val) (rest : List Char) (hfits : Fits t v) :
    Undone g t v rest ↔ Faithful t v := by
  have hread := deserialize_declared g rest hfits
  constructor
  · intro h
    have hequal := h.equal
    rw [hread] at hequal
    exact ((equal_absorb_iff g (declared g t) v).mp hequal).2
  · intro hfaithful
    constructor
    · rw [hread]
      exact (equal_absorb_iff g (declared g t) v).mpr ⟨noMore_declared g v, hfaithful⟩
    · rw [hread]
      rfl
    · intro t' out
      have hblank : (IStream.ofChars (' ' :: rest)).sentry = (IStream.ofChars rest).sentry := rfl
      rw [hread]
      exact deserialize_congr g hblank t' out

/-- Variables that happen to hold 0. -/
def Garbage.zeros : Garbage where
  base := fun | .int => (0 : Int32) | .uint => (0 : UInt32)
  size := 0

/-- A map from 1 and 2 to two sets, kept in this order. -/
def twoSets (first second : Finset Int32) : (Ty.map .int (.set .int)).Val :=
  ⟨[⟨(1 : Int32), first⟩, ⟨(2 : Int32), second⟩], by simp [List.NodupKeys, List.keys]⟩

theorem fits_twoSets (first second : Finset Int32) :
    Fits (.map .int (.set .int)) (twoSets first second) := fun _ _ => trivial

/-- The second set has what the first one has. -/
theorem undone_iff_ascending :
    Undone .zeros (.map .int (.set .int)) (twoSets {5} {5, 6})
      (serialize (.base .int) (7 : Int32)) := by
  have hsubset : ({5} : Finset Int32) ⊆ {5, 6} := by decide
  exact (undone_iff .zeros _ _ _ (fits_twoSets _ _)).mpr
    ⟨List.pairwise_pair.mpr hsubset, fun _ _ => trivial⟩

/-- `2 1 1 5 2 1 6 ` is read as `{1: {5}, 2: {5, 6}}`. -/
theorem disjoint_not_undone :
    ¬ Undone .zeros (.map .int (.set .int)) (twoSets {5} {6}) [] := by
  intro h
  have hequal := h.equal
  rw [deserialize_declared .zeros [] (fits_twoSets _ _), equal_absorb_iff] at hequal
  have hmore := List.pairwise_pair.mp hequal.2.1
  exact absurd (noMore_set.mp hmore) (by decide)

end Serial

end DistributAr
