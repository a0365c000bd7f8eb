/-
# `DistributAr.GraphFile` — writing a DOT file

The writing half of `GraphIO`, and what `GraphIO::Parse` makes of a file that was
written by it.

| written                  | tokens                      | read                   |
|--------------------------|-----------------------------|------------------------|
| `digraph 123_00456 {`    | `digraph` `123_00456` `{`   | nothing: not a number  |
| `1 [label=5]`            | `1` `[label` `5]`           | a node                 |
| `1 -> 2 [label=5]`       | `1` `->` `2` `[label` `5]`  | an edge                |
| `}`                      | `}`                         | nothing: one token     |

IDs and endpoints come back as they were.  So does every label but 0, which is
read as if there were no label (`labelRead`): the first group of a partitioned
graph comes back as -1.  The name of the graph must not have a `-` in it, so the
clock must not stand before the epoch of these names.
-/
import DistributAr.GraphIO

namespace DistributAr

open Lib

namespace GraphIO

/-! ## Writing -/

/-- The milliseconds from 1970 to 2020, without leap days. -/
def yr20 : Int := (2020 - 1970) * 365 * 24 * 60 * 60 * 1000

/-- The name of a graph made at some time, in milliseconds. -/
def graphName (now : Int) : List Char :=
  let dt := (now - yr20).tdiv 100
  printSigned (dt.tdiv 100000) ++ '_' :: (printSigned (dt.tmod 100000)).leftpad 5 '0'

/-- `GraphIO::InitGraph`: the name of the file, and what is in it. -/
def initGraph (now : Int) : List Char × List Char :=
  (graphName now ++ ".dot".toList,
    "digraph ".toList ++ graphName now ++ " \x7b".toList ++ ['\n'])

/-- `GraphIO::WriteNode` -/
def writeNode (file : List Char) (id : UInt32) (label : Int) : List Char :=
  file ++ (printUnsigned id.toNat ++ " [label=".toList ++ printSigned label ++ "]".toList ++ ['\n'])

/-- `GraphIO::WriteEdge` -/
def writeEdge (file : List Char) (source target : UInt32) (label : Int) : List Char :=
  file ++ (printUnsigned source.toNat ++ " -> ".toList ++ printUnsigned target.toNat
    ++ " [label=".toList ++ printSigned label ++ "]".toList ++ ['\n'])

/-- `GraphIO::CloseGraph` -/
def closeGraph (file : List Char) : List Char := file ++ ("\x7d".toList ++ ['\n'])

/-- The file with some nodes and some edges. -/
def written (now : Int) (nodes : List GraphNode) (edges : List GraphEdge) : List Char :=
  let file := (initGraph now).2
  let file := nodes.foldl (fun file node => writeNode file node.id node.label) file
  let file := edges.foldl (fun file edge => writeEdge file edge.source edge.target edge.label) file
  closeGraph file

/-! ## Lines and tokens -/

/-- What `tokenize` leaves as it is. -/
structure IsToken (token : List Char) : Prop where
  ne_nil : token ≠ []
  plain : ∀ c ∈ token, c ≠ '\x00' ∧ c ≠ ' ' ∧ c ≠ '=' ∧ c ≠ '\n'

/-- The text of some lines is cut into these lines. -/
theorem getlines_lines {lines : List (List Char)} (hlines : ∀ line ∈ lines, '\n' ∉ line) :
    getlines (lines.flatMap (· ++ ['\n'])) = lines := by
  have hsplit : (lines.flatMap (· ++ ['\n'])).splitOn '\n' = lines ++ [[]] := by
    induction lines with
    | nil => rfl
    | cons line lines ih =>
        have hrest := ih fun line' hline' => hlines line' (List.mem_cons_of_mem _ hline')
        rw [List.flatMap_cons, List.append_assoc, List.singleton_append,
          List.splitOn_append_cons_self_of_not_mem (hlines line List.mem_cons_self), hrest]
        rfl
  simp only [getlines, hsplit, List.getLast?_concat, if_true, List.dropLast_concat]

theorem tokenize_token {token : List Char} (htoken : IsToken token) :
    tokenize token = [token] := by
  have hplain : token.takeWhile (· ≠ '\x00') = token := by
    refine List.takeWhile_eq_self_iff.mpr ?_
    intro c hc
    exact decide_eq_true (htoken.plain c hc).1
  have hsplit : (token.splitOnP fun c => c = ' ' || c = '=') = [token] := by
    refine List.splitOnP_eq_singleton ?_
    intro c hc
    obtain ⟨-, hblank, hequals, -⟩ := htoken.plain c hc
    simp [hblank, hequals]
  have hkeep : decide (token ≠ []) = true := decide_eq_true htoken.ne_nil
  rw [tokenize, hplain, hsplit]
  exact List.filter_cons_of_pos hkeep

/-- A token and what follows its separator. -/
theorem tokenize_append {token : List Char} (rest : List Char) {sep : Char}
    (htoken : IsToken token) (hsep : sep = ' ' ∨ sep = '=') :
    tokenize (token ++ sep :: rest) = token :: tokenize rest := by
  have hplain : (token ++ sep :: rest).takeWhile (· ≠ '\x00')
      = token ++ sep :: rest.takeWhile (· ≠ '\x00') := by
    rw [List.takeWhile_append_of_pos fun c hc => decide_eq_true (htoken.plain c hc).1]
    rcases hsep with rfl | rfl
    · rfl
    · rfl
  have hsplit : ((token ++ sep :: rest.takeWhile (· ≠ '\x00')).splitOnP fun c => c = ' ' || c = '=')
      = token :: (rest.takeWhile (· ≠ '\x00')).splitOnP fun c => c = ' ' || c = '=' := by
    refine List.splitOnP_append_cons_of_forall_mem ?_ sep ?_ _
    · intro c hc
      obtain ⟨-, hblank, hequals, -⟩ := htoken.plain c hc
      simp [hblank, hequals]
    · simpa using hsep
  have hkeep : decide (token ≠ []) = true := decide_eq_true htoken.ne_nil
  rw [tokenize, hplain, hsplit]
  exact List.filter_cons_of_pos hkeep

/-! ## The tokens of a written line -/

theorem isToken_printUnsigned (n : Nat) : IsToken (printUnsigned n) := by
  refine ⟨IStream.printUnsigned_ne_nil n, ?_⟩
  intro c hc
  have hdigit := IStream.isDigit_of_mem_printUnsigned hc
  refine ⟨?_, ?_, ?_, ?_⟩ <;>
  · rintro rfl
    exact Bool.noConfusion hdigit

theorem IsToken.append {token token' : List Char} (htoken : IsToken token)
    (htoken' : IsToken token') : IsToken (token ++ token') := by
  refine ⟨List.append_ne_nil_of_left_ne_nil htoken.ne_nil _, ?_⟩
  intro c hc
  rcases List.mem_append.mp hc with hc | hc
  · exact htoken.plain c hc
  · exact htoken'.plain c hc

theorem isToken_singleton {c : Char} (hc : c ≠ '\x00' ∧ c ≠ ' ' ∧ c ≠ '=' ∧ c ≠ '\n') :
    IsToken [c] := by
  refine ⟨List.cons_ne_nil c [], ?_⟩
  intro d hd
  rw [List.mem_singleton.mp hd]
  exact hc

theorem isToken_printSigned (n : Int) : IsToken (printSigned n) := by
  cases n with
  | ofNat n => exact isToken_printUnsigned n
  | negSucc n => exact (isToken_singleton (by decide)).append (isToken_printUnsigned (n + 1))

theorem IsToken.newline {token : List Char} (htoken : IsToken token) : '\n' ∉ token :=
  fun h => (htoken.plain '\n' h).2.2.2 rfl

theorem isToken_label : IsToken "[label".toList := ⟨by simp, by simp⟩

/-! ## Labels -/

/-- A label that was printed, with something that is not a digit after it. -/
theorem atoi_printSigned {label : Int} (rest : List Char) (hlo : -2 ^ 31 ≤ label)
    (hhi : label < 2 ^ 31) (hrest : ∀ d ∈ rest.head?, d.isDigit = false) :
    atoi (printSigned label ++ rest) = label := by
  cases label with
  | ofNat n =>
      have hlt : (n : Int) < 2 ^ 31 := hhi
      have hmin : min (n : Int) (2 ^ 63 - 1) = n := Int.min_eq_left (by omega)
      rw [printSigned, atoi_printUnsigned n rest hrest, hmin]
      exact Int.bmod_eq_of_le (by omega) (by omega)
  | negSucc n =>
      have hle : -2 ^ 31 ≤ -((n + 1 : Nat) : Int) := hlo
      obtain ⟨htake, -⟩ :=
        IStream.span_text (fun _ => IStream.isDigit_of_mem_printUnsigned (n := n + 1)) hrest
      have hvalue : Nat.ofDigitChars 10 (printUnsigned (n + 1)) 0 = n + 1 :=
        Nat.ofDigitChars_ten_toDigits
      have hdrop : ('-' :: (printUnsigned (n + 1) ++ rest)).dropWhile isSpace
          = '-' :: (printUnsigned (n + 1) ++ rest) := List.dropWhile_cons_of_neg (by decide)
      have hmax : max (-((n + 1 : Nat) : Int)) (-2 ^ 63) = -((n + 1 : Nat) : Int) :=
        Int.max_eq_left (by omega)
      rw [printSigned, List.cons_append, atoi, hdrop]
      simp only [List.head?_cons, true_or, if_true, List.tail_cons, htake, hvalue, hmax]
      exact Int.bmod_eq_of_le (by omega) (by omega)

/-- The label that is read where one was written. -/
def labelRead (label : Int) : Int := if label ≠ 0 then label else -1

theorem parseLabel_printSigned {label : Int} (hlo : -2 ^ 31 ≤ label) (hhi : label < 2 ^ 31) :
    parseLabel [printSigned label ++ [']']] = labelRead label := by
  have hatoi : atoi (printSigned label ++ [']']) = label := by
    refine atoi_printSigned [']'] hlo hhi ?_
    intro d hd
    cases hd
    rfl
  rw [parseLabel, hatoi]
  rfl

/-- The node that is read where one was written. -/
def nodeRead (node : GraphNode) : GraphNode := ⟨node.id, labelRead node.label⟩

/-- The edge that is read where one was written. -/
def edgeRead (edge : GraphEdge) : GraphEdge := ⟨edge.source, edge.target, labelRead edge.label⟩

/-! ## The lines of a written file -/

/-- What `WriteNode` writes, before the end of the line. -/
def nodeLine (node : GraphNode) : List Char :=
  printUnsigned node.id.toNat ++ ' ' ::
    ("[label".toList ++ '=' :: (printSigned node.label ++ [']']))

/-- What `WriteEdge` writes, before the end of the line. -/
def edgeLine (edge : GraphEdge) : List Char :=
  printUnsigned edge.source.toNat ++ ' ' :: ("->".toList ++ ' ' ::
    (printUnsigned edge.target.toNat ++ ' ' ::
      ("[label".toList ++ '=' :: (printSigned edge.label ++ [']']))))

/-- The first line. -/
def headLine (now : Int) : List Char :=
  "digraph".toList ++ ' ' :: (graphName now ++ ' ' :: "\x7b".toList)

theorem writeNode_eq (file : List Char) (node : GraphNode) :
    writeNode file node.id node.label = file ++ (nodeLine node ++ ['\n']) := by
  have hlabel : " [label=".toList = ' ' :: ("[label".toList ++ ['=']) := rfl
  simp only [writeNode, nodeLine, hlabel, List.append_assoc, List.cons_append, List.nil_append]
  rfl

theorem writeEdge_eq (file : List Char) (edge : GraphEdge) :
    writeEdge file edge.source edge.target edge.label = file ++ (edgeLine edge ++ ['\n']) := by
  have harrow : " -> ".toList = ' ' :: ("->".toList ++ [' ']) := rfl
  have hlabel : " [label=".toList = ' ' :: ("[label".toList ++ ['=']) := rfl
  simp only [writeEdge, edgeLine, harrow, hlabel, List.append_assoc, List.cons_append,
    List.nil_append]
  rfl

theorem written_eq (now : Int) (nodes : List GraphNode) (edges : List GraphEdge) :
    written now nodes edges
      = (headLine now :: (nodes.map nodeLine ++ edges.map edgeLine ++ ["\x7d".toList])).flatMap
        (· ++ ['\n']) := by
  have hhead : (initGraph now).2 = headLine now ++ ['\n'] := by
    have happend : ∀ before name after : List Char,
        before ++ [' '] ++ name ++ ' ' :: after ++ ['\n']
          = before ++ ' ' :: (name ++ ' ' :: after) ++ ['\n'] := by
      intro before name after
      simp only [List.append_assoc, List.cons_append, List.nil_append]
    have hdigraph : "digraph ".toList = "digraph".toList ++ [' '] := by decide
    have hopen : " \x7b".toList = ' ' :: "\x7b".toList := rfl
    calc (initGraph now).2
        = "digraph".toList ++ [' '] ++ graphName now ++ ' ' :: "\x7b".toList ++ ['\n'] :=
          congrArg₂ (fun before after => before ++ graphName now ++ after ++ ['\n']) hdigraph hopen
      _ = headLine now ++ ['\n'] := happend _ _ _
  have hnodes : ∀ file, nodes.foldl (fun file node => writeNode file node.id node.label) file
      = file ++ (nodes.map nodeLine).flatMap (· ++ ['\n']) := by
    intro file
    simp only [writeNode_eq, List.foldl_append_eq_append, List.flatMap_map]
    rfl
  have hedges : ∀ file, edges.foldl
        (fun file edge => writeEdge file edge.source edge.target edge.label) file
      = file ++ (edges.map edgeLine).flatMap (· ++ ['\n']) := by
    intro file
    simp only [writeEdge_eq, List.foldl_append_eq_append, List.flatMap_map]
    rfl
  simp only [written, closeGraph, hhead, hnodes, hedges, List.flatMap_cons, List.flatMap_append,
    List.flatMap_nil, List.append_assoc, List.append_nil]

/-! ## What is read -/

theorem printSigned_of_nonneg {n : Int} (hn : 0 ≤ n) : printSigned n = printUnsigned n.toNat := by
  obtain ⟨k, rfl⟩ := Int.eq_ofNat_of_zero_le hn
  rfl

/-- A name made after the epoch has digits and one `_`. -/
theorem mem_graphName {now : Int} (hnow : yr20 ≤ now) {c : Char} (hc : c ∈ graphName now) :
    c.isDigit = true ∨ c = '_' := by
  have hdt : 0 ≤ (now - yr20).tdiv 100 := Int.tdiv_nonneg (by omega) (by decide)
  rw [graphName, printSigned_of_nonneg (Int.tdiv_nonneg hdt (by decide)),
    printSigned_of_nonneg (Int.tmod_nonneg _ hdt), List.leftpad] at hc
  rcases List.mem_append.mp hc with hc | hc
  · exact .inl (IStream.isDigit_of_mem_printUnsigned hc)
  · rcases List.mem_cons.mp hc with rfl | hc
    · exact .inr rfl
    · rcases List.mem_append.mp hc with hc | hc
      · rw [List.eq_of_mem_replicate hc]
        exact .inl rfl
      · exact .inl (IStream.isDigit_of_mem_printUnsigned hc)

theorem isToken_graphName {now : Int} (hnow : yr20 ≤ now) :
    IsToken (graphName now) ∧ '-' ∉ graphName now := by
  refine ⟨⟨List.append_ne_nil_of_right_ne_nil _ (List.cons_ne_nil _ _), ?_⟩, ?_⟩
  · intro c hc
    rcases mem_graphName hnow hc with hdigit | rfl
    · refine ⟨?_, ?_, ?_, ?_⟩ <;>
      · rintro rfl
        exact Bool.noConfusion hdigit
    · decide
  · intro hc
    rcases mem_graphName hnow hc with hdigit | hc
    · exact Bool.noConfusion hdigit
    · exact absurd hc (by decide)

/-- A label is an `int`. -/
def LabelFits (label : Int) : Prop := -2 ^ 31 ≤ label ∧ label < 2 ^ 31

theorem isToken_endOfLabel (label : Int) : IsToken (printSigned label ++ [']']) :=
  (isToken_printSigned label).append (isToken_singleton (by decide))

theorem isToken_arrow : IsToken "->".toList := ⟨by simp, by simp⟩

theorem isToken_digraph : IsToken "digraph".toList := ⟨by simp, by simp⟩

theorem isToken_open : IsToken "\x7b".toList := ⟨by simp, by simp⟩

theorem isToken_close : IsToken "\x7d".toList := ⟨by simp, by simp⟩

theorem tokenize_nodeLine (node : GraphNode) :
    tokenize (nodeLine node)
      = [printUnsigned node.id.toNat, "[label".toList, printSigned node.label ++ [']']] := by
  rw [nodeLine, tokenize_append _ (isToken_printUnsigned _) (.inl rfl),
    tokenize_append _ isToken_label (.inr rfl), tokenize_token (isToken_endOfLabel _)]

theorem tokenize_edgeLine (edge : GraphEdge) :
    tokenize (edgeLine edge)
      = [printUnsigned edge.source.toNat, "->".toList, printUnsigned edge.target.toNat,
        "[label".toList, printSigned edge.label ++ [']']] := by
  rw [edgeLine, tokenize_append _ (isToken_printUnsigned _) (.inl rfl),
    tokenize_append _ isToken_arrow (.inl rfl),
    tokenize_append _ (isToken_printUnsigned _) (.inl rfl),
    tokenize_append _ isToken_label (.inr rfl), tokenize_token (isToken_endOfLabel _)]

/-- An ID that was printed is read, and is a number. -/
theorem atoi_id (id : UInt32) :
    UInt32.ofInt (atoi (printUnsigned id.toNat)) = id := by
  have hatoi := ofInt_atoi_id id [] (fun d hd => nomatch hd)
  rwa [List.append_nil] at hatoi

theorem atoi_id_ne_zero {id : UInt32} (hid : id ≠ 0) : atoi (printUnsigned id.toNat) ≠ 0 := by
  intro hatoi
  have hzero := atoi_id id
  rw [hatoi] at hzero
  exact hid hzero.symm

section Lines

variable (nodes : List GraphNode) (edges : List GraphEdge)

theorem parseLine_nodeLine {node : GraphNode} (hid : node.id ≠ 0) (hlabel : LabelFits node.label) :
    parseLine (nodeLine node) nodes edges
      = some (nodes ++ [nodeRead node], edges) := by
  have hplain : '-' ∉ "[label".toList := by simp
  rw [parseLine, tokenize_nodeLine]
  simp only [hplain, if_false, atoi_id_ne_zero hid, ne_eq, not_false_eq_true, if_true, atoi_id,
    parseLabel_printSigned hlabel.1 hlabel.2]
  rfl

theorem parseLine_edgeLine {edge : GraphEdge} (hlabel : LabelFits edge.label) :
    parseLine (edgeLine edge) nodes edges
      = some (nodes, edges ++ [edgeRead edge]) := by
  have harrow : '-' ∈ "->".toList := by simp
  have hword : atoi "[label".toList = 0 := by decide
  have hskip : parseLabel ["[label".toList, printSigned edge.label ++ [']']]
      = labelRead edge.label := by
    rw [parseLabel, hword]
    exact parseLabel_printSigned hlabel.1 hlabel.2
  rw [parseLine, tokenize_edgeLine]
  simp only [harrow, if_true, atoi_id, hskip]
  rfl

/-- A line that begins with a word is skipped, if there is no `-` in what follows. -/
theorem parseLine_word {first second : List Char} (rest : List Char) (hfirst : IsToken first)
    (hsecond : IsToken second) (hminus : '-' ∉ second) (hword : atoi first = 0) :
    parseLine (first ++ ' ' :: (second ++ ' ' :: rest)) nodes edges = some (nodes, edges) := by
  rw [parseLine, tokenize_append _ hfirst (.inl rfl), tokenize_append _ hsecond (.inl rfl)]
  simp only [hminus, if_false, hword, ne_eq, not_true_eq_false]

theorem parseLine_headLine {now : Int} (hnow : yr20 ≤ now) :
    parseLine (headLine now) nodes edges = some (nodes, edges) :=
  parseLine_word nodes edges _ isToken_digraph (isToken_graphName hnow).1
    (isToken_graphName hnow).2 (by decide)

theorem parseLine_close : parseLine "\x7d".toList nodes edges = some (nodes, edges) := by
  rw [parseLine, tokenize_token isToken_close]

end Lines

/-- Lines that each add one thing to what was read. -/
theorem foldlM_lines {T R : Type} {line : T → List Char} {read : T → R}
    (put : List GraphNode × List GraphEdge → List R → List GraphNode × List GraphEdge)
    (hnil : ∀ out, put out [] = out)
    (hcons : ∀ out r rs, put (put out [r]) rs = put out (r :: rs)) :
    ∀ (more : List T) (out : List GraphNode × List GraphEdge),
      (∀ x ∈ more, ∀ out, parseLine (line x) out.1 out.2 = some (put out [read x])) →
      (more.map line).foldlM (fun out line => parseLine line out.1 out.2) out
        = some (put out (more.map read)) := by
  intro more
  induction more with
  | nil => exact fun out _ => congrArg some (hnil out).symm
  | cons x more ih =>
      intro out hmore
      have hrest := ih (put out [read x]) fun x' hx' => hmore x' (List.mem_cons_of_mem _ hx')
      rw [hcons] at hrest
      rw [List.map_cons, List.foldlM_cons, hmore x List.mem_cons_self out]
      exact hrest

theorem foldlM_nodeLines {more : List GraphNode} (out : List GraphNode × List GraphEdge)
    (hmore : ∀ n ∈ more, n.id ≠ 0 ∧ LabelFits n.label) :
    (more.map nodeLine).foldlM (fun out line => parseLine line out.1 out.2) out
      = some (out.1 ++ more.map nodeRead, out.2) :=
  foldlM_lines (fun out nodes => (out.1 ++ nodes, out.2))
    (fun out => by rw [List.append_nil]) (fun out n ns => by rw [List.append_assoc]; rfl) more out
    fun n hn out => parseLine_nodeLine out.1 out.2 (hmore n hn).1 (hmore n hn).2

theorem foldlM_edgeLines {more : List GraphEdge} (out : List GraphNode × List GraphEdge)
    (hmore : ∀ e ∈ more, LabelFits e.label) :
    (more.map edgeLine).foldlM (fun out line => parseLine line out.1 out.2) out
      = some (out.1, out.2 ++ more.map edgeRead) :=
  foldlM_lines (fun out edges => (out.1, out.2 ++ edges))
    (fun out => by rw [List.append_nil]) (fun out e es => by rw [List.append_assoc]; rfl) more out
    fun e he out => parseLine_edgeLine out.1 out.2 (hmore e he)

/-- A line of tokens is one line. -/
theorem newline_not_mem_append {token rest : List Char} {sep : Char} (htoken : IsToken token)
    (hsep : sep = ' ' ∨ sep = '=') (hrest : '\n' ∉ rest) : '\n' ∉ token ++ sep :: rest := by
  intro h
  rcases List.mem_append.mp h with h | h
  · exact htoken.newline h
  · rcases List.mem_cons.mp h with rfl | h
    · exact absurd hsep (by decide)
    · exact hrest h

theorem newline_not_mem_nodeLine (node : GraphNode) : '\n' ∉ nodeLine node :=
  newline_not_mem_append (isToken_printUnsigned _) (.inl rfl)
    (newline_not_mem_append isToken_label (.inr rfl) (isToken_endOfLabel _).newline)

theorem newline_not_mem_edgeLine (edge : GraphEdge) : '\n' ∉ edgeLine edge :=
  newline_not_mem_append (isToken_printUnsigned _) (.inl rfl)
    (newline_not_mem_append isToken_arrow (.inl rfl)
      (newline_not_mem_append (isToken_printUnsigned _) (.inl rfl)
        (newline_not_mem_append isToken_label (.inr rfl) (isToken_endOfLabel _).newline)))

theorem newline_not_mem_headLine {now : Int} (hnow : yr20 ≤ now) : '\n' ∉ headLine now :=
  newline_not_mem_append isToken_digraph (.inl rfl)
    (newline_not_mem_append (isToken_graphName hnow).1 (.inl rfl) isToken_open.newline)

/-- Everything is read back, except that a label 0 becomes -1. -/
theorem parse_written {now : Int} {nodes : List GraphNode} {edges : List GraphEdge}
    (hnow : yr20 ≤ now) (hnodes : ∀ n ∈ nodes, n.id ≠ 0 ∧ LabelFits n.label)
    (hedges : ∀ e ∈ edges, LabelFits e.label) :
    parse (some (written now nodes edges)) = some (nodes.map nodeRead, edges.map edgeRead) := by
  have hlines : getlines (written now nodes edges)
      = headLine now :: (nodes.map nodeLine ++ edges.map edgeLine ++ ["\x7d".toList]) := by
    rw [written_eq, getlines_lines]
    intro line hline
    rcases List.mem_cons.mp hline with rfl | hline
    · exact newline_not_mem_headLine hnow
    · rcases List.mem_append.mp hline with hline | hclose
      · rcases List.mem_append.mp hline with hnode | hedge
        · obtain ⟨node, -, rfl⟩ := List.mem_map.mp hnode
          exact newline_not_mem_nodeLine node
        · obtain ⟨edge, -, rfl⟩ := List.mem_map.mp hedge
          exact newline_not_mem_edgeLine edge
      · rw [List.mem_singleton.mp hclose]
        exact isToken_close.newline
  rw [parse, Option.getD_some, hlines, List.foldlM_cons, parseLine_headLine [] [] hnow,
    Option.bind_eq_bind, Option.bind_some, List.foldlM_append, List.foldlM_append,
    foldlM_nodeLines _ hnodes, Option.bind_eq_bind, Option.bind_some,
    foldlM_edgeLines _ hedges, Option.bind_some, List.foldlM_cons, parseLine_close]
  rfl

/-! ## Reading what was written -/

/-- IDs and labels in their ranges. -/
structure GraphNode.InRange (node : GraphNode) : Prop where
  id : 1 ≤ node.id.toNat ∧ node.id.toNat < 2 ^ 31
  label : LabelFits node.label

structure GraphEdge.InRange (edge : GraphEdge) : Prop where
  source : 1 ≤ edge.source.toNat ∧ edge.source.toNat < 2 ^ 31
  target : 1 ≤ edge.target.toNat ∧ edge.target.toNat < 2 ^ 31
  label : LabelFits edge.label

theorem labelRead_eq_self_iff (label : Int) : labelRead label = label ↔ label ≠ 0 := by
  rw [labelRead]
  split
  · rename_i hne
    exact iff_of_true rfl hne
  · rename_i heq
    rw [not_not.mp heq]
    decide

theorem nodeRead_eq_self_iff (node : GraphNode) : nodeRead node = node ↔ node.label ≠ 0 := by
  rw [← labelRead_eq_self_iff]
  exact ⟨fun h => congrArg GraphNode.label h, fun h => by rw [nodeRead, h]⟩

theorem edgeRead_eq_self_iff (edge : GraphEdge) : edgeRead edge = edge ↔ edge.label ≠ 0 := by
  rw [← labelRead_eq_self_iff]
  exact ⟨fun h => congrArg GraphEdge.label h, fun h => by rw [edgeRead, h]⟩

/-- A graph is read back as it was written exactly if no label is 0. -/
theorem written_read_iff {now : Int} {nodes : List GraphNode} {edges : List GraphEdge}
    (hnow : yr20 ≤ now) (hnodes : ∀ n ∈ nodes, GraphNode.InRange n)
    (hedges : ∀ e ∈ edges, GraphEdge.InRange e) :
    parse (some (written now nodes edges)) = some (nodes, edges)
      ↔ (∀ n ∈ nodes, n.label ≠ 0) ∧ ∀ e ∈ edges, e.label ≠ 0 := by
  have hwritable : ∀ n ∈ nodes, n.id ≠ 0 ∧ LabelFits n.label := by
    intro n hn
    refine ⟨?_, (hnodes n hn).label⟩
    intro hid
    have hpos := (hnodes n hn).id.1
    rw [hid] at hpos
    exact absurd hpos (by decide)
  have hlabel : ∀ e ∈ edges, LabelFits e.label := fun e he => (hedges e he).label
  rw [parse_written hnow hwritable hlabel, Option.some.injEq, Prod.mk.injEq]
  refine and_congr ?_ ?_
  · calc nodes.map nodeRead = nodes
        ↔ nodes.map nodeRead = nodes.map id := by rw [List.map_id]
      _ ↔ ∀ n ∈ nodes, nodeRead n = n := List.map_inj_left
      _ ↔ ∀ n ∈ nodes, n.label ≠ 0 := forall₂_congr fun n _ => nodeRead_eq_self_iff n
  · calc edges.map edgeRead = edges
        ↔ edges.map edgeRead = edges.map id := by rw [List.map_id]
      _ ↔ ∀ e ∈ edges, edgeRead e = e := List.map_inj_left
      _ ↔ ∀ e ∈ edges, e.label ≠ 0 := forall₂_congr fun e _ => edgeRead_eq_self_iff e

/-- Groups that are counted from 1. -/
theorem written_read_iff_fromOne :
    parse (some (written yr20 [⟨1, 1⟩, ⟨2, 2⟩] [⟨1, 2, -7⟩]))
      = some ([⟨1, 1⟩, ⟨2, 2⟩], [⟨1, 2, -7⟩]) := by
  refine (written_read_iff (Int.le_refl yr20) ?_ ?_).mpr ⟨by decide, by decide⟩
  · intro n hn
    rcases List.mem_pair.mp hn with rfl | rfl
    · exact ⟨by decide, by decide, by decide⟩
    · exact ⟨by decide, by decide, by decide⟩
  · intro e he
    rw [List.mem_singleton.mp he]
    exact ⟨by decide, by decide, by decide, by decide⟩

/-- A graph of two groups, as it is saved: the first group is read as -1. -/
theorem groups_not_read :
    parse (some (written yr20 [⟨1, 0⟩, ⟨2, 1⟩] [⟨1, 2, 7⟩]))
        = some ([⟨1, -1⟩, ⟨2, 1⟩], [⟨1, 2, 7⟩])
      ∧ parse (some (written yr20 [⟨1, 0⟩, ⟨2, 1⟩] [⟨1, 2, 7⟩]))
        ≠ some ([⟨1, 0⟩, ⟨2, 1⟩], [⟨1, 2, 7⟩]) := by
  have hread : parse (some (written yr20 [⟨1, 0⟩, ⟨2, 1⟩] [⟨1, 2, 7⟩]))
      = some ([⟨1, -1⟩, ⟨2, 1⟩], [⟨1, 2, 7⟩]) :=
    parse_written (Int.le_refl yr20) (by simp [LabelFits]) (by simp [LabelFits])
  refine ⟨hread, ?_⟩
  rw [hread]
  decide

end GraphIO

end DistributAr
