/-
# `DistributAr.Loading` — reading what is not all there

The loops of `deserialize` run as often as the size announces and look at the
stream when they are done.  A reading that fails leaves the variable as it was, or
0, and that is inserted like an element.

| the text ends or breaks   | returned | inserted                                  |
|---------------------------|----------|-------------------------------------------|
| nowhere                   | non-zero | what was written                          |
| anywhere in a saved text  | 0        | what was read, then what is left, up to the size |

So a save that was cut is not taken for a whole one (`cut_not_good`), if the loops come
to their end; but what is inserted is what was read only if as many elements can be read
as the size announces (`inserted_iff`).

Where not even a size can be read, it is what the variable held.  How long a loop
then runs, and whether its elements have room, is no matter here but in `Truncation`.
-/
import DistributAr.Serial

namespace DistributAr

open Lib

namespace Base

variable {b : Base} {out : b.Val} {is : IStream}

theorem read_bad (h : is.good = false) : (b.read out is).2.fail = true := by
  cases b with
  | int => exact IStream.readSigned_bad h
  | uint => exact IStream.readUnsigned_bad h

/-- An element that was read took at least one character. -/
theorem read_length (h : (b.read out is).2.fail = false) :
    (b.read out is).2.rest.length < is.rest.length := by
  cases b with
  | int => exact IStream.readSigned_length h
  | uint => exact IStream.readUnsigned_length h

end Base

namespace Serial

/-! ## Loops that read -/

section Readings

variable {E : Type} (read : E → IStream → E × IStream)

/-- What some readings into one variable leave in it, one after another. -/
def readings : Nat → E → IStream → List E × IStream
  | 0, _, is => ([], is)
  | size + 1, e, is =>
      let (e, is) := read e is
      let (es, is) := readings size e is
      (e :: es, is)

/-- The elements that a text has, up to the first that cannot be read; `e` is what
the variable held, and does not matter where something is read. -/
def complete : Nat → E → IStream → List E
  | 0, _, _ => []
  | fuel + 1, e, is =>
      if (read e is).2.fail then []
      else (read e is).1 :: complete fuel (read e is).1 (read e is).2

variable {read} {e : E} {is : IStream}

theorem readings_length : ∀ {n : Nat} {e : E} {is : IStream},
    (readings read n e is).1.length = n := by
  intro n
  induction n with
  | zero => exact rfl
  | succ n ih => exact congrArg Nat.succ ih

/-- No element is overlooked: each takes a character at least. -/
theorem complete_fuel
    (hshort : ∀ e is, (read e is).2.fail = false → (read e is).2.rest.length < is.rest.length) :
    ∀ {fuel : Nat} {e : E} {is : IStream}, is.rest.length ≤ fuel →
      complete read (fuel + 1) e is = complete read fuel e is := by
  intro fuel
  induction fuel with
  | zero =>
      intro e is hle
      have hfail : (read e is).2.fail = true := by
        by_contra hread
        have hlt := hshort e is (Bool.eq_false_iff.mpr hread)
        omega
      exact if_pos hfail
  | succ fuel ih =>
      intro e is hle
      rw [complete]
      conv => rhs; rw [complete]
      split
      · rfl
      · rename_i hread
        have hlt := hshort e is (Bool.eq_false_iff.mpr hread)
        rw [ih (by omega)]

/-- The first readings are the elements of the text, if it has as many. -/
theorem readings_prefix : ∀ {n fuel : Nat} {e : E} {is : IStream},
    n ≤ (complete read fuel e is).length →
      (readings read n e is).1 <+: complete read fuel e is := by
  intro n
  induction n with
  | zero => exact fun _ => List.nil_prefix
  | succ n ih =>
      intro fuel e is hle
      cases fuel with
      | zero => exact absurd hle (Nat.not_succ_le_zero n)
      | succ fuel =>
          rw [complete] at hle ⊢
          split at hle
          · exact absurd hle (Nat.not_succ_le_zero n)
          · rename_i hread
            rw [if_neg hread]
            exact List.cons_prefix_cons.mpr ⟨rfl, ih (Nat.le_of_succ_le_succ hle)⟩

theorem readings_prefix_iff {n fuel : Nat} : (readings read n e is).1 <+: complete read fuel e is
    ↔ n ≤ (complete read fuel e is).length := by
  constructor
  · intro h
    have hle := h.length_le
    rwa [readings_length] at hle
  · exact readings_prefix

end Readings

/-- `deserialize(k, is); deserialize(v, is);` -/
def readEntry {K : Base} {V : Type} (deserializeV : V → IStream → V × IStream)
    (e : K.Val × V) (is : IStream) : (K.Val × V) × IStream :=
  let (k, is) := K.read e.1 is
  let (v, is) := deserializeV e.2 is
  ((k, v), is)

/-- The loop over a set or vector inserts what it reads. -/
theorem insertLoop_eq {C : Type} {b : Base} (insert : C → b.Val → C) :
    ∀ (n : Nat) (t : b.Val) (it : C) (is : IStream), insertLoop insert n t it is
      = ((readings b.read n t is).1.foldl insert it, (readings b.read n t is).2) := by
  intro n
  induction n with
  | zero => exact fun _ _ _ => rfl
  | succ n ih => exact fun t it is => ih _ _ _

/-- The loop over a map inserts the pairs that it reads. -/
theorem mapLoop_eq {V : Type} {kb : Base} (deserializeV : V → IStream → V × IStream) :
    ∀ (n : Nat) (k : kb.Val) (v : V) (m : AList fun _ : kb.Val => V) (is : IStream),
      mapLoop deserializeV n k v m is
        = ((readings (readEntry deserializeV) n (k, v) is).1.foldl (fun m e => m.insert e.1 e.2) m,
          (readings (readEntry deserializeV) n (k, v) is).2) := by
  intro n
  induction n with
  | zero => exact fun _ _ _ _ => rfl
  | succ n ih => exact fun k v m is => ih _ _ _ _

/-! ## What is inserted -/

/-- A container of numbers. -/
inductive Container where
  | set (b : Base)
  | vector (b : Base)
  | map (k v : Base)

namespace Container

def ty : Container → Ty
  | .set b => .set b
  | .vector b => .vector b
  | .map k v => .map k (.base v)

/-- What is inserted in one go. -/
abbrev Elem : Container → Type
  | .set b => b.Val
  | .vector b => b.Val
  | .map k v => k.Val × v.Val

/-- The variables of the loop, before it. -/
def fresh (g : Garbage) : (c : Container) → c.Elem
  | .set b => g.base b
  | .vector b => g.base b
  | .map k v => (g.base k, g.base v)

/-- The body of the loop, up to the insertion. -/
def read : (c : Container) → c.Elem → IStream → c.Elem × IStream
  | .set b => b.read
  | .vector b => b.read
  | .map _ v => readEntry v.read

/-- `*it = t`, or `m[k] = v`. -/
def insert : (c : Container) → c.ty.Val → c.Elem → c.ty.Val
  | .set _ => setInserter
  | .vector _ => vectorInserter
  | .map _ _ => fun m e => AList.insert e.1 e.2 m

/-- A text of elements: no element is without characters of its own. -/
theorem read_length (c : Container) (e : c.Elem) (is : IStream)
    (h : (c.read e is).2.fail = false) : (c.read e is).2.rest.length < is.rest.length := by
  cases c with
  | set b => exact Base.read_length h
  | vector b => exact Base.read_length h
  | map k v =>
      have hvalue : (v.read e.2 (k.read e.1 is).2).2.fail = false := h
      have hkey : (k.read e.1 is).2.fail = false := by
        by_contra hfail
        have hbad : (v.read e.2 (k.read e.1 is).2).2.fail = true :=
          Base.read_bad (IStream.good_of_fail (Bool.not_eq_false _ ▸ hfail))
        rw [hvalue] at hbad
        cases hbad
      exact (Base.read_length hvalue).trans (Base.read_length hkey)

end Container

variable (g : Garbage)

/-- The size that the loop goes by. -/
def announced (text : List Char) : Nat := (deserializeSize g (.ofChars text)).1

/-- What is inserted, in order. -/
def inserted (c : Container) (text : List Char) : List c.Elem :=
  (readings c.read (announced g text) (Container.fresh g c) (deserializeSize g (.ofChars text)).2).1

/-- The elements that the text has after its size. -/
def present (c : Container) (text : List Char) : List c.Elem :=
  let is := (deserializeSize g (.ofChars text)).2
  complete c.read is.rest.length (Container.fresh g c) is

theorem deserialize_inserted (c : Container) (text : List Char) (out : c.ty.Val) :
    (deserialize g c.ty out (.ofChars text)).1 = (inserted g c text).foldl c.insert out := by
  cases c with
  | set b => exact congrArg Prod.fst (insertLoop_eq setInserter _ _ _ _)
  | vector b => exact congrArg Prod.fst (insertLoop_eq vectorInserter _ _ _ _)
  | map k v => exact congrArg Prod.fst (mapLoop_eq v.read _ _ _ _ _)

/-- However long one looks, the text has no more elements. -/
theorem complete_eq_present (c : Container) (text : List Char) {fuel : Nat}
    (hle : (deserializeSize g (.ofChars text)).2.rest.length ≤ fuel) :
    complete c.read fuel (Container.fresh g c) (deserializeSize g (.ofChars text)).2
      = present g c text := by
  induction hle with
  | refl => rfl
  | step hle ih => rw [complete_fuel c.read_length hle, ih]

/-- Of every text: `deserialize` inserts elements into the object, and they are those
that the text has after its size, in order and none more, exactly if it has as many
as the size announces. -/
theorem inserted_iff (c : Container) (text : List Char) (out : c.ty.Val) :
    (deserialize g c.ty out (.ofChars text)).1 = (inserted g c text).foldl c.insert out
      ∧ (inserted g c text <+: present g c text
        ↔ announced g text ≤ (present g c text).length) :=
  ⟨deserialize_inserted g c text out, readings_prefix_iff⟩

/-- Three elements are announced, and there is one: it is inserted three times. -/
theorem inserted_short :
    ¬ inserted .zeros (.vector .int) "3 5".toList
      <+: present .zeros (.vector .int) "3 5".toList := by
  have hinserted : inserted .zeros (.vector .int) "3 5".toList = [(5 : Int32), 5, 5] := by rfl
  have hpresent : present .zeros (.vector .int) "3 5".toList = [(5 : Int32)] := by rfl
  intro h
  rw [hinserted, hpresent] at h
  exact absurd h.length_le (by decide)

/-! ## A save that was cut -/

/-- The stream stands behind what was read, or is not good any more. -/
def Behind (is : IStream) (rest : List Char) : Prop :=
  is = .ofChars (' ' :: rest) ∨ is.good = false

/-- A text that is cut is cut in its first part or in its second. -/
theorem prefix_split {p a b : List Char} (hp : p <+: a ++ b) (hne : p ≠ a ++ b) :
    (p <+: a ∧ p ≠ a) ∨ ∃ q, p = a ++ q ∧ q <+: b ∧ q ≠ b := by
  rcases List.prefix_or_prefix_of_prefix hp (List.prefix_append a b) with h | ⟨q, rfl⟩
  · by_cases hpa : p = a
    · subst hpa
      refine .inr ⟨[], (List.append_nil p).symm, List.nil_prefix, ?_⟩
      rintro rfl
      exact hne (List.append_nil p).symm
    · exact .inl ⟨h, hpa⟩
  · refine .inr ⟨q, rfl, (List.prefix_append_right_inj a).mp hp, ?_⟩
    rintro rfl
    exact hne rfl

section Cut

variable {E X : Type} {read : E → IStream → E × IStream} {text : X → List Char}

theorem readings_bad (hbad : ∀ e is, is.good = false → (read e is).2.good = false) :
    ∀ (n : Nat) (e : E) (is : IStream), is.good = false →
      (readings read n e is).2.good = false := by
  intro n
  induction n with
  | zero => exact fun _ _ h => h
  | succ n ih => exact fun e is h => ih _ _ (hbad e is h)

/-- Elements that were written are read, and nothing more. -/
theorem readings_full (hbad : ∀ e is, is.good = false → (read e is).2.good = false)
    (rest : List Char) : ∀ (xs : List X),
      (∀ x ∈ xs, ∀ e rest, Behind (read e (.ofChars (' ' :: (text x ++ rest)))).2 rest) →
      ∀ e, Behind (readings read xs.length e (.ofChars (' ' :: (xs.flatMap text ++ rest)))).2
        rest := by
  intro xs
  induction xs with
  | nil => exact fun _ _ => .inl rfl
  | cons x xs ih =>
      intro hfull e
      have hrest := ih fun y hy => hfull y (List.mem_cons_of_mem _ hy)
      have hfirst := hfull x List.mem_cons_self e (xs.flatMap text ++ rest)
      rw [List.flatMap_cons, List.append_assoc]
      rcases hfirst with hread | hread
      · show Behind (readings read xs.length _ (read e _).2).2 rest
        rw [hread]
        exact hrest _
      · exact .inr (readings_bad hbad xs.length _ _ hread)

/-- If they are cut, the stream is not good afterwards. -/
theorem readings_cut (hbad : ∀ e is, is.good = false → (read e is).2.good = false) :
    ∀ (xs : List X),
      (∀ x ∈ xs, ∀ e rest, Behind (read e (.ofChars (' ' :: (text x ++ rest)))).2 rest) →
      (∀ x ∈ xs, ∀ e p, p <+: text x → p ≠ text x →
        (read e (.ofChars (' ' :: p))).2.good = false) →
      ∀ e p, p <+: xs.flatMap text → p ≠ xs.flatMap text →
        (readings read xs.length e (.ofChars (' ' :: p))).2.good = false := by
  intro xs
  induction xs with
  | nil => exact fun _ _ _ _ hp hne => absurd (List.prefix_nil.mp hp) hne
  | cons x xs ih =>
      intro hfull hcut e p hp hne
      rw [List.flatMap_cons] at hp hne
      rcases prefix_split hp hne with ⟨hx, hxne⟩ | ⟨q, rfl, hq, hqne⟩
      · exact readings_bad hbad xs.length _ _ (hcut x List.mem_cons_self e p hx hxne)
      · show (readings read xs.length _ (read e _).2).2.good = false
        rcases hfull x List.mem_cons_self e q with hread | hread
        · rw [hread]
          exact ih (fun y hy => hfull y (List.mem_cons_of_mem _ hy))
            (fun y hy => hcut y (List.mem_cons_of_mem _ hy)) _ q hq hqne
        · exact readings_bad hbad _ _ _ hread

end Cut

/-- A container: its size, then its elements. -/
def sized {E : Type} (read : E → IStream → E × IStream) (e : E) (is : IStream) : IStream :=
  (readings read (deserializeSize g is).1 e (deserializeSize g is).2).2

theorem deserializeSize_bad {is : IStream} (h : is.good = false) :
    (deserializeSize g is).2.good = false :=
  IStream.good_of_fail (IStream.readUnsigned_bad h)

/-- A size that does not fit its variable. -/
theorem deserializeSize_overflow {size : Nat} {blanks : List Char} (rest : List Char)
    (hblanks : ∀ d ∈ blanks, isSpace d) (hsize : ¬ size < 2 ^ 64) :
    (deserializeSize g (.ofChars (blanks ++ (serializeSize size ++ rest)))).2.good = false := by
  have hrest : ∀ d ∈ (' ' :: rest).head?, d.isDigit = false := by
    intro d hd
    cases hd
    rfl
  rw [deserializeSize, serializeSize, List.append_assoc]
  exact IStream.readUnsigned_overflow hblanks (Nat.le_of_not_lt hsize) hrest

section Sized

variable {E X : Type} {read : E → IStream → E × IStream} {text : X → List Char} (xs : List X)
  {blanks : List Char}

theorem sized_full (hbad : ∀ e is, is.good = false → (read e is).2.good = false)
    (hfull : ∀ x ∈ xs, ∀ e rest, Behind (read e (.ofChars (' ' :: (text x ++ rest)))).2 rest)
    (hblanks : ∀ d ∈ blanks, isSpace d) (e : E) (rest : List Char) :
    Behind (sized g read e
      (.ofChars (blanks ++ (serializeSize xs.length ++ xs.flatMap text ++ rest)))) rest := by
  rw [List.append_assoc, sized]
  by_cases hsize : xs.length < 2 ^ 64
  · rw [deserializeSize_serializeSize g _ hblanks hsize]
    exact readings_full hbad rest xs hfull e
  · exact .inr (readings_bad hbad _ _ _ (deserializeSize_overflow g _ hblanks hsize))

theorem sized_cut (hbad : ∀ e is, is.good = false → (read e is).2.good = false)
    (hfull : ∀ x ∈ xs, ∀ e rest, Behind (read e (.ofChars (' ' :: (text x ++ rest)))).2 rest)
    (hcut : ∀ x ∈ xs, ∀ e p, p <+: text x → p ≠ text x →
      (read e (.ofChars (' ' :: p))).2.good = false)
    (hblanks : ∀ d ∈ blanks, isSpace d) (e : E) {p : List Char}
    (hp : p <+: serializeSize xs.length ++ xs.flatMap text)
    (hne : p ≠ serializeSize xs.length ++ xs.flatMap text) :
    (sized g read e (.ofChars (blanks ++ p))).good = false := by
  rw [sized]
  rcases prefix_split hp hne with ⟨hsize, hsizene⟩ | ⟨q, rfl, hq, hqne⟩
  · -- the size is the last that is read
    refine readings_bad hbad _ _ _ ?_
    have hnumber : p <+: printUnsigned xs.length :=
      (List.prefix_concat_iff.mp hsize).resolve_left hsizene
    exact IStream.readUnsigned_cut (n := (xs.length : Int)) hblanks hnumber
  · by_cases hsize : xs.length < 2 ^ 64
    · rw [deserializeSize_serializeSize g q hblanks hsize]
      exact readings_cut hbad xs hfull hcut e q hq hqne
    · exact readings_bad hbad _ _ _ (deserializeSize_overflow g q hblanks hsize)

end Sized

/-! ## The types -/

theorem deserialize_set_snd {b : Base} (s : Finset b.Val) (is : IStream) :
    (deserialize g (.set b) s is).2 = sized g b.read (g.base b) is := by
  rw [deserialize_set, insertLoop_eq]
  rfl

theorem deserialize_vector_snd {b : Base} (v : List b.Val) (is : IStream) :
    (deserialize g (.vector b) v is).2 = sized g b.read (g.base b) is := by
  rw [deserialize_vector, insertLoop_eq]
  rfl

theorem deserialize_map_snd {k : Base} {w : Ty} (m : (Ty.map k w).Val) (is : IStream) :
    (deserialize g (.map k w) m is).2
      = sized g (readEntry (deserialize g w)) (g.base k, declared g w) is :=
  congrArg Prod.snd (mapLoop_eq (deserialize g w) _ _ _ _ _)

theorem base_bad {b : Base} (out : b.Val) (is : IStream) (h : is.good = false) :
    (b.read out is).2.good = false :=
  IStream.good_of_fail (Base.read_bad h)

theorem deserialize_bad : ∀ {t : Ty} (out : t.Val) (is : IStream), is.good = false →
    (deserialize g t out is).2.good = false := by
  intro t
  induction t with
  | base b => exact base_bad
  | set b =>
      intro out is h
      rw [deserialize_set_snd]
      exact readings_bad base_bad _ _ _ (deserializeSize_bad g h)
  | vector b =>
      intro out is h
      rw [deserialize_vector_snd]
      exact readings_bad base_bad _ _ _ (deserializeSize_bad g h)
  | map k w ih =>
      intro out is h
      rw [deserialize_map_snd]
      refine readings_bad ?_ _ _ _ (deserializeSize_bad g h)
      exact fun e is h => ih _ _ (base_bad e.1 is h)

theorem entry_bad {k : Base} {w : Ty} (e : k.Val × w.Val) (is : IStream) (h : is.good = false) :
    (readEntry (deserialize g w) e is).2.good = false :=
  deserialize_bad g _ _ (base_bad e.1 is h)

theorem base_full {b : Base} (v out : b.Val) {blanks : List Char} (rest : List Char)
    (hblanks : ∀ d ∈ blanks, isSpace d) :
    Behind (b.read out (.ofChars (blanks ++ (serializeBase v ++ rest)))).2 rest := by
  rw [read_serializeBase v out rest hblanks]
  exact .inl rfl

theorem base_cut {b : Base} (v out : b.Val) {blanks p : List Char}
    (hblanks : ∀ d ∈ blanks, isSpace d) (hp : p <+: serializeBase v) (hne : p ≠ serializeBase v) :
    (b.read out (.ofChars (blanks ++ p))).2.good = false := by
  have hnumber : p <+: printSigned (Base.toInt v) :=
    (List.prefix_concat_iff.mp hp).resolve_left hne
  cases b with
  | int => exact IStream.readSigned_cut hblanks hnumber
  | uint => exact IStream.readUnsigned_cut hblanks hnumber

/-- What was written is read, up to the blank at its end, if its vectors fit. -/
theorem deserialize_full : ∀ {t : Ty} (v out : t.Val) {blanks : List Char} (rest : List Char),
    (∀ d ∈ blanks, isSpace d) →
    Behind (deserialize g t out (.ofChars (blanks ++ (serialize t v ++ rest)))).2 rest := by
  intro t
  induction t with
  | base b => exact fun v out _ rest hblanks => base_full v out rest hblanks
  | set b =>
      intro v out blanks rest hblanks
      have hfull := sized_full g (Finset.sort (v : Finset b.Val)) base_bad
        (fun x _ e rest => base_full x e rest isSpace_of_mem_blank) hblanks (g.base b) rest
      rw [Finset.length_sort] at hfull
      rw [deserialize_set_snd]
      exact hfull
  | vector b =>
      intro v out blanks rest hblanks
      rw [deserialize_vector_snd]
      exact sized_full g v base_bad (fun x _ e rest => base_full x e rest isSpace_of_mem_blank)
        hblanks (g.base b) rest
  | map k w ih =>
      intro v out blanks rest hblanks
      rw [deserialize_map_snd]
      refine sized_full g v.entries (entry_bad g) ?_ hblanks _ rest
      intro it _ e rest
      have hkey := read_serializeBase it.1 e.1 (serialize w it.2 ++ rest) isSpace_of_mem_blank
      rw [List.append_assoc]
      show Behind (deserialize g w e.2 (k.read e.1 _).2).2 rest
      rw [List.singleton_append] at hkey
      rw [hkey]
      exact ih it.2 e.2 rest isSpace_of_mem_blank

/-- Every cut is noticed: at any depth, the last number that is read ends the text,
or there is none. -/
theorem deserialize_cut : ∀ {t : Ty} (v out : t.Val) {blanks p : List Char},
    (∀ d ∈ blanks, isSpace d) → p <+: serialize t v → p ≠ serialize t v →
    (deserialize g t out (.ofChars (blanks ++ p))).2.good = false := by
  intro t
  induction t with
  | base b => exact fun v out _ _ hblanks hp hne => base_cut v out hblanks hp hne
  | set b =>
      intro v out blanks p hblanks hp hne
      have hcut := sized_cut g (Finset.sort (v : Finset b.Val)) (p := p) base_bad
        (fun x _ e rest => base_full x e rest isSpace_of_mem_blank)
        (fun x _ e p hp hne => base_cut x e isSpace_of_mem_blank hp hne) hblanks (g.base b)
      rw [Finset.length_sort] at hcut
      rw [deserialize_set_snd]
      exact hcut hp hne
  | vector b =>
      intro v out blanks p hblanks hp hne
      rw [deserialize_vector_snd]
      exact sized_cut g v base_bad (fun x _ e rest => base_full x e rest isSpace_of_mem_blank)
        (fun x _ e p hp hne => base_cut x e isSpace_of_mem_blank hp hne) hblanks (g.base b) hp hne
  | map k w ih =>
      intro v out blanks p hblanks hp hne
      have hkey : ∀ (it : Sigma fun _ : k.Val => w.Val) (e : k.Val × w.Val) (rest : List Char),
          readEntry (deserialize g w) e (.ofChars (' ' :: (serializeBase it.1 ++ rest)))
            = ((it.1, (deserialize g w e.2 (.ofChars (' ' :: rest))).1),
              (deserialize g w e.2 (.ofChars (' ' :: rest))).2) := by
        intro it e rest
        have hread := read_serializeBase it.1 e.1 rest isSpace_of_mem_blank
        rw [List.singleton_append] at hread
        rw [readEntry, hread]
      rw [deserialize_map_snd]
      refine sized_cut g v.entries (entry_bad g) ?_ ?_ hblanks _ hp hne
      · intro it _ e rest
        rw [List.append_assoc, hkey]
        exact deserialize_full g it.2 e.2 rest isSpace_of_mem_blank
      · intro it _ e q hq hqne
        rcases prefix_split hq hqne with ⟨hq, hqne⟩ | ⟨r, rfl, hr, hrne⟩
        · exact deserialize_bad g _ _ (base_cut it.1 e.1 isSpace_of_mem_blank hq hqne)
        · rw [hkey]
          exact ih it.2 e.2 isSpace_of_mem_blank hr hrne

/-- Of every value: a save that was cut anywhere, read into whatever object, leaves a
stream that is not good. -/
theorem cut_not_good (t : Ty) (v out : t.Val) (p : List Char) (hp : p <+: serialize t v)
    (hne : p ≠ serialize t v) : (deserialize g t out (.ofChars p)).2.good = false := by
  show (deserialize g t out (.ofChars ([] ++ p))).2.good = false
  exact deserialize_cut g v out (fun _ hd => absurd hd List.not_mem_nil) hp hne

end Serial

end DistributAr
