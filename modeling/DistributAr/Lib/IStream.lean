/-
# `DistributAr.Lib.IStream` — formatted input and output of a C++ stream

A string stream holds the characters not yet read and two flags.  An
extraction first builds a sentry, which skips white space and gives up when the
stream is not good or has nothing left; it then takes what it can.

| input left      | `readWord`        | `readUnsigned`            | `readSigned`             |
|-----------------|-------------------|---------------------------|--------------------------|
| blank, or none  | untouched, fails  | untouched, fails          | untouched, fails         |
| no digits       | the word          | 0, fails                  | 0, fails                 |
| too many digits | the word          | the greatest value, fails | the nearest value, fails |
| `-5`            | the word          | `2 ^ w - 5`               | `-5`                     |

`eof` is raised by whatever looks past the last character, so also by a number
that ends the input.  The round trips at the end of the file say that a reader
gets back what was printed.
-/
import Mathlib.Algebra.Group.Int.Defs
import Mathlib.Algebra.Group.Nat.Defs
import Mathlib.Data.List.TakeWhile

namespace DistributAr.Lib

/-- `isspace` in the C locale. -/
def isSpace (c : Char) : Bool := c = ' ' || ('\t' ≤ c && c ≤ '\r')

/-- A decimal number as `<<` prints it. -/
def printUnsigned (n : Nat) : List Char := Nat.toDigits 10 n

/-- A number with a sign, as `<<` prints it. -/
def printSigned : Int → List Char
  | .ofNat n => printUnsigned n
  | .negSucc n => '-' :: printUnsigned (n + 1)

/-- `std::istringstream` -/
structure IStream where
  rest : List Char
  eof : Bool
  fail : Bool
deriving DecidableEq, Repr

namespace IStream

/-- A new stream on some text. -/
def ofChars (text : List Char) : IStream := ⟨text, false, false⟩

def good (s : IStream) : Bool := !s.eof && !s.fail

/-- What every extraction does first. -/
def sentry (s : IStream) : IStream :=
  if s.good then
    match s.rest.dropWhile isSpace with
    | [] => ⟨[], true, true⟩
    | c :: cs => ⟨c :: cs, false, false⟩
  else { s with fail := true }

/-- `s >> word`; `none` when the variable is left as it was. -/
def readWord (s : IStream) : Option (List Char) × IStream :=
  let s := s.sentry
  if s.good then
    let rest := s.rest.dropWhile (!isSpace ·)
    (some (s.rest.takeWhile (!isSpace ·)), ⟨rest, rest.isEmpty, false⟩)
  else (none, s)

/-- The number after its sign: the digits, then the check of the range. -/
def scanUnsigned (w : Nat) (neg : Bool) (body : List Char) : Option Nat × IStream :=
  let digits := body.takeWhile Char.isDigit
  let rest := body.dropWhile Char.isDigit
  let value := Nat.ofDigitChars 10 digits 0
  if digits = [] then (some 0, ⟨rest, rest.isEmpty, true⟩)
  else if 2 ^ w ≤ value then (some (2 ^ w - 1), ⟨rest, rest.isEmpty, true⟩)
  else (some (if neg then (2 ^ w - value) % 2 ^ w else value), ⟨rest, rest.isEmpty, false⟩)

/-- `s >> n` for an unsigned type of `w` bits. -/
def readUnsigned (w : Nat) (s : IStream) : Option Nat × IStream :=
  let s := s.sentry
  if s.good then
    match s.rest with
    | '-' :: body => scanUnsigned w true body
    | '+' :: body => scanUnsigned w false body
    | body => scanUnsigned w false body
  else (none, s)

/-- The same for a signed type. -/
def scanSigned (w : Nat) (neg : Bool) (body : List Char) : Option Int × IStream :=
  let digits := body.takeWhile Char.isDigit
  let rest := body.dropWhile Char.isDigit
  let size : Int := Nat.ofDigitChars 10 digits 0
  let value := if neg then -size else size
  if digits = [] then (some 0, ⟨rest, rest.isEmpty, true⟩)
  else if value < -2 ^ (w - 1) then (some (-2 ^ (w - 1)), ⟨rest, rest.isEmpty, true⟩)
  else if 2 ^ (w - 1) ≤ value then (some (2 ^ (w - 1) - 1), ⟨rest, rest.isEmpty, true⟩)
  else (some value, ⟨rest, rest.isEmpty, false⟩)

/-- `s >> n` for a signed type of `w` bits. -/
def readSigned (w : Nat) (s : IStream) : Option Int × IStream :=
  let s := s.sentry
  if s.good then
    match s.rest with
    | '-' :: body => scanSigned w true body
    | '+' :: body => scanSigned w false body
    | body => scanSigned w false body
  else (none, s)

/-! ## What a sentry leaves -/

/-- Blanks before something that is not blank are skipped. -/
theorem sentry_skip {blanks body : List Char} {c : Char} (hblanks : ∀ d ∈ blanks, isSpace d)
    (hc : isSpace c = false) :
    (ofChars (blanks ++ c :: body)).sentry = ofChars (c :: body) := by
  have hdrop : (blanks ++ c :: body).dropWhile isSpace = c :: body := by
    rw [List.dropWhile_append_of_pos hblanks, List.dropWhile_cons_of_neg (by simp [hc])]
  simp only [sentry, good, ofChars, Bool.not_false, Bool.and_self, if_true, hdrop]

theorem sentry_fail {s : IStream} (h : s.sentry.good = false) : s.sentry.fail = true := by
  revert h
  unfold sentry
  split
  · split
    · exact fun _ => rfl
    · exact fun h => Bool.noConfusion h
  · exact fun _ => rfl

theorem sentry_length (s : IStream) : s.sentry.rest.length ≤ s.rest.length := by
  unfold sentry
  split
  · have hle := (List.dropWhile_suffix (p := isSpace) (l := s.rest)).length_le
    split
    · exact Nat.zero_le _
    · rename_i heq
      rwa [heq] at hle
  · exact le_refl _

theorem dropWhile_digits_length {body : List Char} (h : body.takeWhile Char.isDigit ≠ []) :
    (body.dropWhile Char.isDigit).length < body.length := by
  have hsum := congrArg List.length
    (List.takeWhile_append_dropWhile (p := Char.isDigit) (l := body))
  have hpos := List.length_pos_iff.mpr h
  rw [List.length_append] at hsum
  omega

/-- A number that was read took at least one character. -/
theorem scanUnsigned_length {w : Nat} {neg : Bool} {body : List Char}
    (h : (scanUnsigned w neg body).2.fail = false) :
    (scanUnsigned w neg body).2.rest.length < body.length := by
  revert h
  unfold scanUnsigned
  dsimp only
  by_cases hdigits : body.takeWhile Char.isDigit = []
  · rw [if_pos hdigits]
    exact fun h => Bool.noConfusion h
  · have hlt := dropWhile_digits_length hdigits
    rw [if_neg hdigits]
    split
    · exact fun h => Bool.noConfusion h
    · exact fun _ => hlt

theorem readUnsigned_length {w : Nat} {s : IStream} (h : (s.readUnsigned w).2.fail = false) :
    (s.readUnsigned w).2.rest.length < s.rest.length := by
  refine lt_of_lt_of_le ?_ s.sentry_length
  revert h
  unfold readUnsigned
  dsimp only
  split
  · split
    · rename_i heq
      intro h
      rw [heq]
      exact (scanUnsigned_length h).trans (Nat.lt_succ_self _)
    · rename_i heq
      intro h
      rw [heq]
      exact (scanUnsigned_length h).trans (Nat.lt_succ_self _)
    · exact scanUnsigned_length
  · rename_i hgood
    have hfail := sentry_fail (Bool.eq_false_iff.mpr hgood)
    exact fun h => absurd (hfail.symm.trans h) (by decide)

/-! ## Reading what was printed -/

theorem printUnsigned_ne_nil (n : Nat) : printUnsigned n ≠ [] := Nat.toDigits_ne_nil

theorem isDigit_of_mem_printUnsigned {n : Nat} {c : Char} (h : c ∈ printUnsigned n) :
    c.isDigit = true :=
  Nat.isDigit_of_mem_toDigits (by decide) (by decide) h

/-- A digit is neither a blank nor a sign. -/
theorem not_space_of_isDigit {c : Char} (h : c.isDigit = true) :
    isSpace c = false ∧ c ≠ '-' ∧ c ≠ '+' := by
  refine ⟨?_, ?_, ?_⟩
  · simp only [Char.isDigit, Bool.and_eq_true, decide_eq_true_eq, ge_iff_le, UInt32.le_iff_toNat_le]
      at h
    have hlow : 48 ≤ c.val.toNat := h.1
    have hne : c ≠ ' ' := by
      rintro rfl
      exact absurd hlow (by decide)
    have hgt : ¬ c ≤ '\r' := by
      rw [Char.le_def, UInt32.le_iff_toNat_le]
      show ¬ c.val.toNat ≤ 13
      omega
    simp only [isSpace, hne, hgt, decide_false, Bool.and_false, Bool.or_self]
  · rintro rfl
    exact absurd h (by decide)
  · rintro rfl
    exact absurd h (by decide)

/-- A block of `p` and what follows it are told apart. -/
theorem span_text {p : Char → Bool} {block rest : List Char} (hblock : ∀ d ∈ block, p d)
    (hrest : ∀ d ∈ rest.head?, p d = false) :
    (block ++ rest).takeWhile p = block ∧ (block ++ rest).dropWhile p = rest := by
  rw [List.takeWhile_append_of_pos hblock, List.dropWhile_append_of_pos hblock]
  cases rest with
  | nil => exact ⟨List.append_nil block, rfl⟩
  | cons c cs =>
      have hc : ¬ p c = true := by rw [hrest c rfl]; decide
      rw [List.takeWhile_cons_of_neg hc, List.dropWhile_cons_of_neg hc]
      exact ⟨List.append_nil block, rfl⟩

/-- Printed numbers do not run into what follows them. -/
theorem printUnsigned_append_inj {m n : Nat} {rest rest' : List Char}
    (h : printUnsigned m ++ rest = printUnsigned n ++ rest')
    (hrest : ∀ d ∈ rest.head?, d.isDigit = false) (hrest' : ∀ d ∈ rest'.head?, d.isDigit = false) :
    m = n ∧ rest = rest' := by
  obtain ⟨htake, hdrop⟩ := span_text (fun _ => isDigit_of_mem_printUnsigned (n := m)) hrest
  obtain ⟨htake', hdrop'⟩ := span_text (fun _ => isDigit_of_mem_printUnsigned (n := n)) hrest'
  have hprint : printUnsigned m = printUnsigned n := by rw [← htake, ← htake', h]
  refine ⟨?_, by rw [← hdrop, ← hdrop', h]⟩
  calc m = Nat.ofDigitChars 10 (printUnsigned m) 0 := Nat.ofDigitChars_ten_toDigits.symm
    _ = Nat.ofDigitChars 10 (printUnsigned n) 0 := by rw [hprint]
    _ = n := Nat.ofDigitChars_ten_toDigits

/-- A word, with blanks before it and a blank or nothing after it. -/
theorem readWord_text (blanks : List Char) {word rest : List Char}
    (hblanks : ∀ d ∈ blanks, isSpace d) (hne : word ≠ []) (hword : ∀ d ∈ word, isSpace d = false)
    (hrest : ∀ d ∈ rest.head?, isSpace d) :
    (ofChars (blanks ++ (word ++ rest))).readWord = (some word, ⟨rest, rest.isEmpty, false⟩) := by
  obtain ⟨c, cs, rfl⟩ := List.exists_cons_of_ne_nil hne
  obtain ⟨htake, hdrop⟩ : (c :: cs ++ rest).takeWhile (!isSpace ·) = c :: cs
      ∧ (c :: cs ++ rest).dropWhile (!isSpace ·) = rest :=
    span_text (fun d hd => by simp [hword d hd]) (fun d hd => by simp [hrest d hd])
  rw [readWord, List.cons_append, sentry_skip hblanks (hword c List.mem_cons_self)]
  rw [List.cons_append] at htake hdrop
  simp only [ofChars, good, Bool.not_false, Bool.and_self, if_true, htake, hdrop]

/-- A printed number, with blanks before it and no digit after it. -/
theorem readUnsigned_text (w : Nat) {n : Nat} (blanks rest : List Char)
    (hblanks : ∀ d ∈ blanks, isSpace d) (hn : n < 2 ^ w)
    (hrest : ∀ d ∈ rest.head?, d.isDigit = false) :
    (ofChars (blanks ++ (printUnsigned n ++ rest))).readUnsigned w
      = (some n, ⟨rest, rest.isEmpty, false⟩) := by
  have hdigit : ∀ d ∈ printUnsigned n, d.isDigit = true :=
    fun _ => isDigit_of_mem_printUnsigned
  have hscan : scanUnsigned w false (printUnsigned n ++ rest)
      = (some n, ⟨rest, rest.isEmpty, false⟩) := by
    obtain ⟨htake, hdrop⟩ := span_text hdigit hrest
    have hvalue : Nat.ofDigitChars 10 (printUnsigned n) 0 = n := Nat.ofDigitChars_ten_toDigits
    simp only [scanUnsigned, htake, hdrop, hvalue, printUnsigned_ne_nil, if_false,
      Nat.not_le.mpr hn, Bool.false_eq_true]
  obtain ⟨c, cs, hcons⟩ := List.exists_cons_of_ne_nil (printUnsigned_ne_nil n)
  obtain ⟨hspace, hminus, hplus⟩ :=
    not_space_of_isDigit (hdigit c (hcons ▸ List.mem_cons_self))
  rw [hcons, List.cons_append] at hscan
  rw [hcons, readUnsigned, List.cons_append, sentry_skip hblanks hspace]
  simp only [ofChars, good, Bool.not_false, Bool.and_self, if_true]
  split
  · rename_i heq
    exact absurd (List.cons.inj heq).1 hminus
  · rename_i heq
    exact absurd (List.cons.inj heq).1 hplus
  · exact hscan

theorem scanSigned_text (w : Nat) (neg : Bool) {n : Nat} (rest : List Char)
    (hlo : -2 ^ (w - 1) ≤ if neg then -(n : Int) else n)
    (hhi : (if neg then -(n : Int) else n) < 2 ^ (w - 1))
    (hrest : ∀ d ∈ rest.head?, d.isDigit = false) :
    scanSigned w neg (printUnsigned n ++ rest)
      = (some (if neg then -(n : Int) else n), ⟨rest, rest.isEmpty, false⟩) := by
  obtain ⟨htake, hdrop⟩ := span_text (fun _ => isDigit_of_mem_printUnsigned (n := n)) hrest
  have hvalue : Nat.ofDigitChars 10 (printUnsigned n) 0 = n := Nat.ofDigitChars_ten_toDigits
  simp only [scanSigned, htake, hdrop, hvalue, printUnsigned_ne_nil, if_false,
    Int.not_lt.mpr hlo, Int.not_le.mpr hhi]

/-- A number printed with its sign, with blanks before it and no digit after
it. -/
theorem readSigned_text (w : Nat) {n : Int} (blanks rest : List Char)
    (hblanks : ∀ d ∈ blanks, isSpace d) (hlo : -2 ^ (w - 1) ≤ n) (hhi : n < 2 ^ (w - 1))
    (hrest : ∀ d ∈ rest.head?, d.isDigit = false) :
    (ofChars (blanks ++ (printSigned n ++ rest))).readSigned w
      = (some n, ⟨rest, rest.isEmpty, false⟩) := by
  cases n with
  | negSucc n =>
      have hscan := scanSigned_text w true (n := n + 1) rest hlo hhi hrest
      rw [printSigned, List.cons_append, readSigned, sentry_skip hblanks (by decide)]
      exact hscan
  | ofNat n =>
      have hscan := scanSigned_text w false (n := n) rest hlo hhi hrest
      obtain ⟨c, cs, hcons⟩ := List.exists_cons_of_ne_nil (printUnsigned_ne_nil n)
      obtain ⟨hspace, hminus, hplus⟩ := not_space_of_isDigit
        (isDigit_of_mem_printUnsigned (hcons ▸ List.mem_cons_self))
      rw [hcons, List.cons_append] at hscan
      rw [printSigned, hcons, readSigned, List.cons_append, sentry_skip hblanks hspace]
      simp only [ofChars, good, Bool.not_false, Bool.and_self, if_true]
      split
      · rename_i heq
        exact absurd (List.cons.inj heq).1 hminus
      · rename_i heq
        exact absurd (List.cons.inj heq).1 hplus
      · exact hscan

/-! ## Where there is no number to read -/

/-- The first word of a text. -/
def firstWord (text : List Char) : List Char :=
  (text.dropWhile isSpace).takeWhile (!isSpace ·)

/-- What comes after it. -/
def afterWord (text : List Char) : List Char :=
  (text.dropWhile isSpace).dropWhile (!isSpace ·)

/-- The sign that a text starts with: is it a minus, and what comes after it? -/
def sign : List Char → Bool × List Char
  | '-' :: body => (true, body)
  | '+' :: body => (false, body)
  | body => (false, body)

/-- The digits that a text starts with, as a number. -/
def size (body : List Char) : Option Nat :=
  if body.takeWhile Char.isDigit = [] then none
  else some (Nat.ofDigitChars 10 (body.takeWhile Char.isDigit) 0)

/-- The decimal number that a text starts with, after blanks and with its sign. -/
def number (text : List Char) : Option Int :=
  let (neg, body) := sign (text.dropWhile isSpace)
  (size body).map fun n : Nat => if neg then -(n : Int) else n

/-- There is no number, or none from `lo` on and below `hi`. -/
def Malformed (lo hi : Int) (text : List Char) : Prop :=
  ∀ n, number text = some n → n < lo ∨ hi ≤ n

/-- What `>>` leaves in an unsigned variable of `w` bits that it finds no number
for; `none` when it leaves the variable alone. -/
def leftUnsigned (w : Nat) (text : List Char) : Option Nat :=
  match number text with
  | none => if text.dropWhile isSpace = [] then none else some 0
  | some n => some (if -2 ^ w < n ∧ n < 0 then (2 ^ w + n).toNat else 2 ^ w - 1)

/-- The same for a signed variable. -/
def leftSigned (w : Nat) (text : List Char) : Option Int :=
  match number text with
  | none => if text.dropWhile isSpace = [] then none else some 0
  | some n => some (if n < 0 then -2 ^ (w - 1) else 2 ^ (w - 1) - 1)

variable {w : Nat} {text : List Char} {neg : Bool} {body : List Char}

/-- Any text with a word in it. -/
theorem readWord_firstWord (h : firstWord text ≠ []) :
    (ofChars text).readWord
      = (some (firstWord text), ⟨afterWord text, (afterWord text).isEmpty, false⟩) := by
  have hne : text.dropWhile isSpace ≠ [] := by
    intro hnil
    rw [firstWord, hnil] at h
    exact h rfl
  obtain ⟨c, cs, hcons⟩ := List.exists_cons_of_ne_nil hne
  have hsentry : (ofChars text).sentry = ⟨c :: cs, false, false⟩ := by
    simp only [sentry, good, ofChars, Bool.not_false, Bool.and_self, if_true, hcons]
  rw [readWord, hsentry, firstWord, afterWord, hcons]
  rfl

/-- Behind a word there is nothing but blanks. -/
theorem sentry_blank (h : text.dropWhile isSpace = []) :
    (sentry ⟨text, text.isEmpty, false⟩).good = false := by
  cases text with
  | nil => rfl
  | cons c cs =>
      simp only [sentry, good, List.isEmpty_cons, Bool.not_false, Bool.and_self, if_true, h,
        Bool.not_true]

theorem number_blank (h : text.dropWhile isSpace = []) : number text = none := by
  rw [number, h]
  rfl

/-- Behind a word there is more. -/
theorem sentry_text (h : text.dropWhile isSpace ≠ []) :
    sentry ⟨text, text.isEmpty, false⟩ = ⟨text.dropWhile isSpace, false, false⟩ := by
  obtain ⟨c, cs, hcons⟩ := List.exists_cons_of_ne_nil h
  cases text with
  | nil => exact absurd rfl h
  | cons d ds =>
      simp only [sentry, good, List.isEmpty_cons, Bool.not_false, Bool.and_self, if_true, hcons]

theorem readUnsigned_eq (s : IStream) : s.readUnsigned w
    = if s.sentry.good then scanUnsigned w (sign s.sentry.rest).1 (sign s.sentry.rest).2
      else (none, s.sentry) := by
  unfold readUnsigned sign
  dsimp only
  split
  · split <;> rfl
  · rfl

theorem readSigned_eq (s : IStream) : s.readSigned w
    = if s.sentry.good then scanSigned w (sign s.sentry.rest).1 (sign s.sentry.rest).2
      else (none, s.sentry) := by
  unfold readSigned sign
  dsimp only
  split
  · split <;> rfl
  · rfl

theorem scanUnsigned_size : (scanUnsigned w neg body).1
    = match size body with
      | none => some 0
      | some n =>
          some (if 2 ^ w ≤ n then 2 ^ w - 1 else if neg then (2 ^ w - n) % 2 ^ w else n) := by
  unfold scanUnsigned size
  dsimp only
  split
  · rfl
  split
  · rename_i h
    dsimp only
    rw [if_pos h]
  · rename_i h
    dsimp only
    rw [if_neg h]

theorem scanSigned_size : (scanSigned w neg body).1
    = match size body with
      | none => some 0
      | some n =>
          let value : Int := if neg then -(n : Int) else n
          some (if value < -2 ^ (w - 1) then -2 ^ (w - 1)
            else if 2 ^ (w - 1) ≤ value then 2 ^ (w - 1) - 1 else value) := by
  unfold scanSigned size
  dsimp only
  split
  · rfl
  dsimp only
  generalize (if neg then -(Nat.ofDigitChars 10 (body.takeWhile Char.isDigit) 0 : Int)
    else Nat.ofDigitChars 10 (body.takeWhile Char.isDigit) 0) = value
  split
  · rfl
  split
  · rfl
  · rfl

/-- The number that is left is the one nearest in the ring, if there is one, else the
greatest. -/
theorem left_unsigned {N n : Nat} {v : Int} (hv : v = if neg then -(n : Int) else n)
    (h : v < 0 ∨ (N : Int) ≤ v) :
    (if N ≤ n then N - 1 else if neg then (N - n) % N else n)
      = if -(N : Int) < v ∧ v < 0 then ((N : Int) + v).toNat else N - 1 := by
  cases neg with
  | false =>
      have hv : v = n := hv
      rw [if_pos (by omega), if_neg (by omega)]
  | true =>
      have hv : v = -(n : Int) := hv
      by_cases hn : N ≤ n
      · rw [if_pos hn, if_neg (by omega)]
      · have hmod : (N - n) % N = N - n := Nat.mod_eq_of_lt (by omega)
        rw [if_neg hn, if_pos rfl, if_pos (by omega), hmod]
        omega

/-- What is left in an unsigned variable behind a word and no number. -/
theorem readUnsigned_malformed (h : Malformed 0 (2 ^ w) text) :
    (readUnsigned w ⟨text, text.isEmpty, false⟩).1 = leftUnsigned w text := by
  rw [readUnsigned_eq]
  by_cases hblank : text.dropWhile isSpace = []
  · have hnumber := number_blank hblank
    rw [leftUnsigned, hnumber, if_neg (by rw [sentry_blank hblank]; decide)]
    exact (if_pos hblank).symm
  · have hnumber : number text = (size (sign (text.dropWhile isSpace)).2).map fun n : Nat =>
        if (sign (text.dropWhile isSpace)).1 then -(n : Int) else n := rfl
    rw [sentry_text hblank, if_pos (by rfl)]
    dsimp only
    rw [scanUnsigned_size, leftUnsigned, hnumber]
    generalize sign (text.dropWhile isSpace) = pair at hnumber ⊢
    cases hsize : size pair.2 with
    | none => exact (if_neg hblank).symm
    | some n =>
        rw [hsize] at hnumber
        have hpow : ((2 ^ w : Nat) : Int) = 2 ^ w := Int.natCast_pow 2 w
        have hleft := left_unsigned (N := 2 ^ w) rfl (hpow ▸ h _ hnumber)
        rw [hpow] at hleft
        exact congrArg some hleft

/-- What is left in a signed variable behind a word and no number. -/
theorem readSigned_malformed (h : Malformed (-2 ^ (w - 1)) (2 ^ (w - 1)) text) :
    (readSigned w ⟨text, text.isEmpty, false⟩).1 = leftSigned w text := by
  rw [readSigned_eq]
  by_cases hblank : text.dropWhile isSpace = []
  · have hnumber := number_blank hblank
    rw [leftSigned, hnumber, if_neg (by rw [sentry_blank hblank]; decide)]
    exact (if_pos hblank).symm
  · have hnumber : number text = (size (sign (text.dropWhile isSpace)).2).map fun n : Nat =>
        if (sign (text.dropWhile isSpace)).1 then -(n : Int) else n := rfl
    rw [sentry_text hblank, if_pos (by rfl)]
    dsimp only
    rw [scanSigned_size, leftSigned, hnumber]
    generalize sign (text.dropWhile isSpace) = pair at hnumber ⊢
    cases hsize : size pair.2 with
    | none => exact (if_neg hblank).symm
    | some n =>
        rw [hsize] at hnumber
        have hrange := h _ hnumber
        dsimp only [Option.map_some] at hrange ⊢
        generalize (if pair.1 then -(n : Int) else n) = value at hrange ⊢
        have hpow : (0 : Int) < 2 ^ (w - 1) := Int.pow_pos (by decide)
        rcases hrange with hlo | hhi
        · rw [if_pos hlo, if_pos (by omega)]
        · rw [if_neg (by omega), if_pos hhi, if_neg (by omega)]

/-! ## Where a text was cut -/

section Cut

variable {s : IStream} {p blanks : List Char}

theorem good_of_fail (h : s.fail = true) : s.good = false := by
  rw [good, h, Bool.not_true, Bool.and_false]

/-- Nothing is read from a stream that is not good. -/
theorem sentry_bad (h : s.good = false) : s.sentry.good = false := by
  have hnot : ¬ s.good = true := by rw [h]; decide
  rw [sentry, if_neg hnot]
  exact good_of_fail rfl

theorem readUnsigned_bad (h : s.good = false) : (s.readUnsigned w).2.fail = true := by
  have hbad := sentry_bad h
  rw [readUnsigned_eq, if_neg (by rw [hbad]; decide)]
  exact sentry_fail hbad

theorem readSigned_bad (h : s.good = false) : (s.readSigned w).2.fail = true := by
  have hbad := sentry_bad h
  rw [readSigned_eq, if_neg (by rw [hbad]; decide)]
  exact sentry_fail hbad

/-- A number that was read took at least one character. -/
theorem scanSigned_length (h : (scanSigned w neg body).2.fail = false) :
    (scanSigned w neg body).2.rest.length < body.length := by
  revert h
  unfold scanSigned
  dsimp only
  by_cases hdigits : body.takeWhile Char.isDigit = []
  · rw [if_pos hdigits]
    exact fun h => Bool.noConfusion h
  · have hlt := dropWhile_digits_length hdigits
    rw [if_neg hdigits]
    generalize (if neg then -(Nat.ofDigitChars 10 (body.takeWhile Char.isDigit) 0 : Int)
      else Nat.ofDigitChars 10 (body.takeWhile Char.isDigit) 0) = value
    split
    · exact fun h => Bool.noConfusion h
    split
    · exact fun h => Bool.noConfusion h
    · exact fun _ => hlt

theorem sign_length (text : List Char) : (sign text).2.length ≤ text.length := by
  unfold sign
  split
  · exact Nat.le_succ _
  · exact Nat.le_succ _
  · exact Nat.le_refl _

theorem readSigned_length (h : (s.readSigned w).2.fail = false) :
    (s.readSigned w).2.rest.length < s.rest.length := by
  rw [readSigned_eq] at h ⊢
  split at h
  · rename_i hgood
    rw [if_pos hgood]
    calc (scanSigned w (sign s.sentry.rest).1 (sign s.sentry.rest).2).2.rest.length
        < (sign s.sentry.rest).2.length := scanSigned_length h
      _ ≤ s.sentry.rest.length := sign_length _
      _ ≤ s.rest.length := s.sentry_length
  · rename_i hgood
    have hfail := sentry_fail (Bool.eq_false_iff.mpr hgood)
    exact absurd (hfail.symm.trans h) (by decide)

/-- Digits up to the end of the text: there is nothing after the number. -/
theorem scanUnsigned_digits (h : ∀ d ∈ body, d.isDigit = true) :
    (scanUnsigned w neg body).2.good = false := by
  have hdrop : body.dropWhile Char.isDigit = [] := List.dropWhile_eq_nil_iff.mpr h
  simp only [scanUnsigned, hdrop, List.isEmpty_nil]
  split
  · rfl
  split <;> rfl

theorem scanSigned_digits (h : ∀ d ∈ body, d.isDigit = true) :
    (scanSigned w neg body).2.good = false := by
  have hdrop : body.dropWhile Char.isDigit = [] := List.dropWhile_eq_nil_iff.mpr h
  simp only [scanSigned, hdrop, List.isEmpty_nil]
  generalize (if neg then -(Nat.ofDigitChars 10 (body.takeWhile Char.isDigit) 0 : Int)
    else Nat.ofDigitChars 10 (body.takeWhile Char.isDigit) 0) = value
  split
  · rfl
  split
  · rfl
  split <;> rfl

theorem sentry_rest (text : List Char) : (ofChars text).sentry.rest = text.dropWhile isSpace := by
  simp only [sentry, good, ofChars, Bool.not_false, Bool.and_self, if_true]
  split
  · rename_i heq
    exact heq.symm
  · rename_i heq
    exact heq.symm

/-- The beginning of a printed number: there are digits only after its sign. -/
theorem sign_of_cut {n : Int} (h : p <+: printSigned n) :
    p.dropWhile isSpace = p ∧ ∀ d ∈ (sign p).2, d.isDigit = true := by
  cases p with
  | nil => exact ⟨rfl, fun d hd => absurd hd List.not_mem_nil⟩
  | cons c cs =>
      cases n with
      | ofNat n =>
          have hdigits : ∀ d ∈ c :: cs, d.isDigit = true :=
            fun d hd => isDigit_of_mem_printUnsigned (n := n) (h.subset hd)
          obtain ⟨hspace, hminus, hplus⟩ := not_space_of_isDigit (hdigits c List.mem_cons_self)
          refine ⟨List.dropWhile_cons_of_neg (by simp [hspace]), ?_⟩
          unfold sign
          split
          · rename_i heq
            exact absurd (List.cons.inj heq).1 hminus
          · rename_i heq
            exact absurd (List.cons.inj heq).1 hplus
          · exact hdigits
      | negSucc n =>
          obtain ⟨rfl, hcs⟩ := List.cons_prefix_cons.mp h
          exact ⟨List.dropWhile_cons_of_neg (by decide), fun d hd =>
            isDigit_of_mem_printUnsigned (n := n + 1) (hcs.subset hd)⟩

/-- Of a number that was cut, or that nothing follows, all digits are taken. -/
theorem digits_of_cut {n : Int} (hblanks : ∀ d ∈ blanks, isSpace d) (h : p <+: printSigned n) :
    ∀ d ∈ (sign (ofChars (blanks ++ p)).sentry.rest).2, d.isDigit = true := by
  obtain ⟨hspace, hdigits⟩ := sign_of_cut h
  rwa [sentry_rest, List.dropWhile_append_of_pos hblanks, hspace]

theorem readUnsigned_cut {n : Int} (hblanks : ∀ d ∈ blanks, isSpace d) (h : p <+: printSigned n) :
    ((ofChars (blanks ++ p)).readUnsigned w).2.good = false := by
  rw [readUnsigned_eq]
  split
  · exact scanUnsigned_digits (digits_of_cut hblanks h)
  · rename_i hgood
    exact Bool.eq_false_iff.mpr hgood

theorem readSigned_cut {n : Int} (hblanks : ∀ d ∈ blanks, isSpace d) (h : p <+: printSigned n) :
    ((ofChars (blanks ++ p)).readSigned w).2.good = false := by
  rw [readSigned_eq]
  split
  · exact scanSigned_digits (digits_of_cut hblanks h)
  · rename_i hgood
    exact Bool.eq_false_iff.mpr hgood

/-- A number that does not fit the variable. -/
theorem readUnsigned_overflow {n : Nat} {rest : List Char} (hblanks : ∀ d ∈ blanks, isSpace d)
    (hn : 2 ^ w ≤ n) (hrest : ∀ d ∈ rest.head?, d.isDigit = false) :
    ((ofChars (blanks ++ (printUnsigned n ++ rest))).readUnsigned w).2.good = false := by
  obtain ⟨htake, hdrop⟩ := span_text (fun _ => isDigit_of_mem_printUnsigned (n := n)) hrest
  have hvalue : Nat.ofDigitChars 10 (printUnsigned n) 0 = n := Nat.ofDigitChars_ten_toDigits
  obtain ⟨c, cs, hcons⟩ := List.exists_cons_of_ne_nil (printUnsigned_ne_nil n)
  obtain ⟨hspace, hminus, hplus⟩ := not_space_of_isDigit
    (isDigit_of_mem_printUnsigned (hcons ▸ List.mem_cons_self))
  have hsign : sign (printUnsigned n ++ rest) = (false, printUnsigned n ++ rest) := by
    rw [hcons, List.cons_append]
    unfold sign
    split
    · rename_i heq
      exact absurd (List.cons.inj heq).1 hminus
    · rename_i heq
      exact absurd (List.cons.inj heq).1 hplus
    · rfl
  have hsentry : (ofChars (blanks ++ (printUnsigned n ++ rest))).sentry
      = ofChars (printUnsigned n ++ rest) := by
    rw [hcons, List.cons_append, sentry_skip hblanks hspace]
  rw [readUnsigned_eq, hsentry, if_pos (by rfl)]
  simp only [ofChars, hsign, scanUnsigned, htake, hdrop, hvalue, printUnsigned_ne_nil, if_false,
    if_pos hn]
  exact good_of_fail rfl

end Cut

end IStream

end DistributAr.Lib
