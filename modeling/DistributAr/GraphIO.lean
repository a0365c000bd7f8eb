/-
# `DistributAr.GraphIO` — reading a DOT file

`GraphIO::Parse` goes through a file line by line and keeps what looks like a
node or an edge; everything else is skipped without a word.

| tokens of the line       | what it is                                   |
|--------------------------|----------------------------------------------|
| fewer than two           | skipped                                      |
| the second has a `-`     | an edge from the first token to the third    |
| the first is a number    | a node                                       |
| anything else            | skipped                                      |

The label is the first number, other than 0, after that.  An edge line that ends
at its second token has no third one: the parser reads past the end of the
tokens, and nothing can be said about what follows.
-/
import DistributAr.Base
import DistributAr.Lib.IStream

namespace DistributAr

open Lib

/-- `GraphNode` -/
structure GraphNode where
  id : ClusterID
  label : Int
deriving DecidableEq, Repr

/-- `GraphEdge` -/
structure GraphEdge where
  source : ClusterID
  target : ClusterID
  label : Int
deriving DecidableEq, Repr

namespace GraphIO

/-- `atoi`: the `long` that `strtol` gives, cut to an `int`. -/
def atoi (token : List Char) : Int :=
  let s := token.dropWhile isSpace
  let neg := s.head? = some '-'
  let body := if neg ∨ s.head? = some '+' then s.tail else s
  let value : Int := Nat.ofDigitChars 10 (body.takeWhile Char.isDigit) 0
  let long := if neg then max (-value) (-2 ^ 63) else min value (2 ^ 63 - 1)
  long.bmod (2 ^ 32)

/-- `tokenize`: the line, as a C string, cut at blanks and `=`. -/
def tokenize (str : List Char) : List (List Char) :=
  ((str.takeWhile (· ≠ '\x00')).splitOnP fun c => c = ' ' || c = '=').filter (· ≠ [])

/-- `GraphIO::ParseLabel` on the tokens from `start` on. -/
def parseLabel : List (List Char) → Int
  | [] => -1
  | token :: tokens => if atoi token ≠ 0 then atoi token else parseLabel tokens

/-- `GraphIO::ParseLine`; `none` if the parser leaves the bounds of the tokens. -/
def parseLine (line : List Char) (nodesOut : List GraphNode) (edgesOut : List GraphEdge) :
    Option (List GraphNode × List GraphEdge) :=
  match tokenize line with
  | first :: second :: rest =>
      if '-' ∈ second then
        match rest with
        | [] => none
        | third :: labels => some (nodesOut, edgesOut ++
            [⟨UInt32.ofInt (atoi first), UInt32.ofInt (atoi third), parseLabel labels⟩])
      else
        let node := atoi first
        if node ≠ 0 then some (nodesOut ++ [⟨UInt32.ofInt node, parseLabel rest⟩], edgesOut)
        else some (nodesOut, edgesOut)
  | _ => some (nodesOut, edgesOut)

/-- The lines that `getline` gives. -/
def getlines (text : List Char) : List (List Char) :=
  let lines := text.splitOn '\n'
  if lines.getLast? = some [] then lines.dropLast else lines

/-- `GraphIO::Parse` of a file with some content, or of one that cannot be read.
Its result is always `true`: nothing in it throws a `string`. -/
def parse (file : Option (List Char)) : Option (List GraphNode × List GraphEdge) :=
  (getlines (file.getD [])).foldlM (fun out line => parseLine line out.1 out.2) ([], [])

/-! ## What `atoi` makes of a number that was printed -/

/-- `atoi` stops at what is not a digit, and cuts what does not fit. -/
theorem atoi_printUnsigned (n : Nat) (rest : List Char)
    (hrest : ∀ d ∈ rest.head?, d.isDigit = false) :
    atoi (printUnsigned n ++ rest) = (min (n : Int) (2 ^ 63 - 1)).bmod (2 ^ 32) := by
  obtain ⟨htake, -⟩ :=
    IStream.span_text (fun _ => IStream.isDigit_of_mem_printUnsigned (n := n)) hrest
  have hvalue : Nat.ofDigitChars 10 (printUnsigned n) 0 = n := Nat.ofDigitChars_ten_toDigits
  obtain ⟨c, cs, hcons⟩ := List.exists_cons_of_ne_nil (IStream.printUnsigned_ne_nil n)
  obtain ⟨hspace, hminus, hplus⟩ := IStream.not_space_of_isDigit
    (IStream.isDigit_of_mem_printUnsigned (hcons ▸ List.mem_cons_self))
  have hdrop : (printUnsigned n ++ rest).dropWhile isSpace = printUnsigned n ++ rest := by
    rw [hcons, List.cons_append, List.dropWhile_cons_of_neg (by simp [hspace])]
  have hhead : (printUnsigned n ++ rest).head? = some c := by rw [hcons]; rfl
  rw [atoi, hdrop, hhead]
  simp only [Option.some.injEq, hminus, hplus, or_self, if_false, htake, hvalue]

/-- A printed ID is read back. -/
theorem ofInt_atoi_id (id : ClusterID) (rest : List Char)
    (hrest : ∀ d ∈ rest.head?, d.isDigit = false) :
    UInt32.ofInt (atoi (printUnsigned id.toNat ++ rest)) = id := by
  have hlt := id.toNat_lt
  have hmin : min (id.toNat : Int) (2 ^ 63 - 1) = id.toNat := Int.min_eq_left (by omega)
  rw [atoi_printUnsigned id.toNat rest hrest, hmin]
  refine UInt32.toNat_inj.mp ?_
  simp only [UInt32.ofInt, UInt32.toNat_ofNat', Int.bmod_def]
  clear hmin
  split <;> omega

/-! ## What the parser returns -/

theorem atoi_range (token : List Char) : -2 ^ 31 ≤ atoi token ∧ atoi token < 2 ^ 31 := by
  unfold atoi
  dsimp only
  split <;> rw [Int.bmod_def] <;> split <;> omega

theorem ofInt_ne_zero {v : Int} (hlo : -2 ^ 31 ≤ v) (hhi : v < 2 ^ 31) (hv : v ≠ 0) :
    UInt32.ofInt v ≠ 0 := by
  intro h
  have hnat := congrArg UInt32.toNat h
  simp only [UInt32.ofInt, UInt32.toNat_ofNat', UInt32.toNat_zero] at hnat
  omega

theorem parseLine_id_ne_zero {line : List Char} {nodes nodes' : List GraphNode}
    {edges edges' : List GraphEdge} (h : parseLine line nodes edges = some (nodes', edges'))
    (hnodes : ∀ n ∈ nodes, n.id ≠ 0) : ∀ n ∈ nodes', n.id ≠ 0 := by
  unfold parseLine at h
  split at h
  · rename_i first second rest _
    split at h
    · split at h
      · cases h
      · cases h
        exact hnodes
    · dsimp only at h
      split at h
      · rename_i hnode
        cases h
        intro n hn
        rcases List.mem_append.mp hn with hold | hnew
        · exact hnodes n hold
        · rw [List.mem_singleton.mp hnew]
          exact ofInt_ne_zero (atoi_range first).1 (atoi_range first).2 hnode
      · cases h
        exact hnodes
  · cases h
    exact hnodes

/-- No node of a graph has the ID 0, which is the tracker's. -/
theorem parse_id_ne_zero {file : Option (List Char)} {nodes : List GraphNode}
    {edges : List GraphEdge} (h : parse file = some (nodes, edges)) : ∀ n ∈ nodes, n.id ≠ 0 := by
  have hlines : ∀ (lines : List (List Char)) (out : List GraphNode × List GraphEdge),
      (∀ n ∈ out.1, n.id ≠ 0) →
      lines.foldlM (fun out line => parseLine line out.1 out.2) out = some (nodes, edges) →
      ∀ n ∈ nodes, n.id ≠ 0 := by
    intro lines
    induction lines with
    | nil =>
        intro out hout hfold
        cases hfold
        exact hout
    | cons line lines ih =>
        intro out hout hfold
        rw [List.foldlM_cons] at hfold
        obtain ⟨out', hline, hrest⟩ := Option.bind_eq_some_iff.mp hfold
        exact ih out' (parseLine_id_ne_zero hline hout) hrest
  exact hlines _ _ (fun _ hn => absurd hn List.not_mem_nil) h

end GraphIO

end DistributAr
