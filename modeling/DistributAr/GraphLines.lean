/-
# `DistributAr.GraphLines` — lines that `GraphIO` did not write

`GraphIO::ParseLine` guesses from two tokens what a line is, and takes the tokens
from fixed places.  Files written by hand, or by another program, show how far
this carries.

| line                  | what `ParseLine` does                            |
|-----------------------|--------------------------------------------------|
| `1 ->`                | reads a third token, and there is none           |
| `see well-known words`| adds an edge from 0 to 0                         |
| `5[ label=3]`         | adds the node with its label                     |
| `5[label=3]`          | adds the node without its label                  |
| `5[label=-3]`         | takes it for an edge                             |

The first two are about what is not a line of the graph (`parse_lines_iff`), the
others about the blanks of one that is (`spacing_iff`).
-/
import DistributAr.GraphFile

namespace DistributAr

open Lib

namespace GraphIO

/-! ## Lines of any kind -/

/-- An edge, with both of its ends. -/
def IsEdge (line : List Char) : Prop :=
  ∃ first op third labels, tokenize line = first :: op :: third :: labels
    ∧ (op = "->".toList ∨ op = "--".toList)

/-- A node: the line starts with a number. -/
def IsNode (line : List Char) : Prop :=
  ∃ first second rest, tokenize line = first :: second :: rest ∧ atoi first ≠ 0

/-- `ParseLine` stays within the tokens of the line. -/
def InBounds (line : List Char) : Prop := ∀ nodes edges, (parseLine line nodes edges).isSome

/-- What is neither an edge nor a node adds nothing. -/
def Skips (line : List Char) : Prop :=
  ¬ IsEdge line → ¬ IsNode line → ∀ nodes edges, parseLine line nodes edges = some (nodes, edges)

/-- A `-` in the second token is that of an edge, or of a line that starts with a
number, and is not in the last token. -/
def Hyphenated (line : List Char) : Prop :=
  ∀ first second rest, tokenize line = first :: second :: rest → '-' ∈ second →
    rest ≠ [] ∧ (second = "->".toList ∨ second = "--".toList ∨ atoi first ≠ 0)

variable {line : List Char} {nodes : List GraphNode} {edges : List GraphEdge}

theorem parseLine_isSome_iff : (parseLine line nodes edges).isSome
    ↔ ∀ first second rest, tokenize line = first :: second :: rest → '-' ∈ second →
      rest ≠ [] := by
  unfold parseLine
  split
  · rename_i first second rest htokens
    rw [htokens]
    split
    · rename_i hminus
      split
      · exact iff_of_false (by simp) fun h => h first second [] rfl hminus rfl
      · refine iff_of_true rfl ?_
        intro _ _ _ heq _
        cases heq
        exact List.cons_ne_nil _ _
    · rename_i hminus
      refine iff_of_true ?_ ?_
      · dsimp only
        split <;> rfl
      · intro _ _ _ heq hminus'
        cases heq
        exact absurd hminus' hminus
  · rename_i hshort
    exact iff_of_true rfl fun _ _ _ heq => absurd heq (hshort _ _ _)

/-- Whether the parser stays in bounds does not depend on what was read before. -/
theorem parse_isSome_iff (file : Option (List Char)) :
    (parse file).isSome ↔ ∀ line ∈ getlines (file.getD []), InBounds line := by
  have hlines : ∀ (lines : List (List Char)) (out : List GraphNode × List GraphEdge),
      (lines.foldlM (fun out line => parseLine line out.1 out.2) out).isSome
        ↔ ∀ line ∈ lines, InBounds line := by
    intro lines
    induction lines with
    | nil => exact fun out => iff_of_true rfl fun _ h => absurd h List.not_mem_nil
    | cons line lines ih =>
        intro out
        have hany : InBounds line ↔ (parseLine line out.1 out.2).isSome :=
          ⟨fun h => h _ _, fun h nodes edges =>
            parseLine_isSome_iff.mpr (parseLine_isSome_iff.mp h)⟩
        rw [List.forall_mem_cons, hany, List.foldlM_cons]
        cases hline : parseLine line out.1 out.2 with
        | none => simp
        | some out' =>
            rw [Option.bind_eq_bind, Option.bind_some, ih out', Option.isSome_some]
            exact (and_iff_right rfl).symm
  exact hlines _ _

/-- A line in bounds whose second token has a `-` adds an edge. -/
theorem not_skips_of_hyphen {first second third : List Char} {labels : List (List Char)}
    (htokens : tokenize line = first :: second :: third :: labels) (hminus : '-' ∈ second) :
    parseLine line [] [] ≠ some ([], []) := by
  rw [parseLine, htokens]
  simp [hminus]

/-- One line. -/
theorem inBounds_and_skips_iff : (InBounds line ∧ Skips line) ↔ Hyphenated line := by
  constructor
  · rintro ⟨hbounds, hskips⟩ first second rest htokens hminus
    have hrest := parseLine_isSome_iff.mp (hbounds [] []) first second rest htokens hminus
    refine ⟨hrest, ?_⟩
    obtain ⟨third, labels, rfl⟩ := List.exists_cons_of_ne_nil hrest
    by_contra hneither
    obtain ⟨harrow, hline, hnumber⟩ : second ≠ "->".toList ∧ second ≠ "--".toList
        ∧ atoi first = 0 := by simpa only [not_or, not_not] using hneither
    refine not_skips_of_hyphen htokens hminus (hskips ?_ ?_ [] [])
    · rintro ⟨_, _, _, _, heq, hop⟩
      rw [htokens] at heq
      cases heq
      exact hop.elim harrow hline
    · rintro ⟨_, _, _, heq, hnode⟩
      rw [htokens] at heq
      cases heq
      exact hnode hnumber
  · intro h
    refine ⟨fun _ _ => parseLine_isSome_iff.mpr fun first second rest htokens hminus =>
      (h first second rest htokens hminus).1, ?_⟩
    intro hedge hnode nodes edges
    unfold parseLine
    split
    · rename_i first second rest htokens
      have hnumber : atoi first = 0 := by
        by_contra hne
        exact hnode ⟨first, second, rest, htokens, hne⟩
      split
      · rename_i hminus
        obtain ⟨hrest, hkind⟩ := h first second rest htokens hminus
        obtain ⟨third, labels, rfl⟩ := List.exists_cons_of_ne_nil hrest
        rcases hkind with harrow | hline | hne
        · exact absurd ⟨first, second, third, labels, htokens, .inl harrow⟩ hedge
        · exact absurd ⟨first, second, third, labels, htokens, .inr hline⟩ hedge
        · exact absurd hnumber hne
      · exact if_neg fun hne => hne hnumber
    · rfl

/-- Of every file: the parser stays in bounds, and skips what is no line of the
graph, exactly if no line has a `-` in its second token without being an edge or
starting with a number, or without a third token. -/
theorem parse_lines_iff (file : Option (List Char)) :
    ((parse file).isSome ∧ ∀ line ∈ getlines (file.getD []), InBounds line ∧ Skips line)
      ↔ ∀ line ∈ getlines (file.getD []), Hyphenated line := by
  have hline : (∀ line ∈ getlines (file.getD []), InBounds line ∧ Skips line)
      ↔ ∀ line ∈ getlines (file.getD []), Hyphenated line :=
    forall₂_congr fun _ _ => inBounds_and_skips_iff
  rw [parse_isSome_iff, hline]
  exact and_iff_right_of_imp fun h line hmem => (inBounds_and_skips_iff.mpr (h line hmem)).1

/-- An edge that was cut off. -/
theorem parse_truncated : ¬ ((parse (some "1 ->".toList)).isSome
    ∧ ∀ line ∈ getlines "1 ->".toList, InBounds line ∧ Skips line) := by
  rintro ⟨hsome, -⟩
  exact absurd hsome (by decide)

/-! ## Blanks -/

/-- How many blanks stand where in `[label=3]`, and before it. -/
structure Spacing where
  beforeBracket : Nat
  beforeLabel : Nat
  beforeEquals : Nat
  beforeNumber : Nat
  afterNumber : Nat

def blanks (n : Nat) : List Char := List.replicate n ' '

/-- The number and the bracket. -/
def numberText (n : Nat) (label : Int) : List Char := printSigned label ++ (blanks n ++ [']'])

/-- What comes after the last ID of a line. -/
def labelText (sp : Spacing) (label : Int) : List Char :=
  blanks sp.beforeBracket ++ '[' :: (blanks sp.beforeLabel ++ ("label".toList
    ++ (blanks sp.beforeEquals ++ '=' :: (blanks sp.beforeNumber
      ++ numberText sp.afterNumber label))))

/-- The line of a node. -/
def nodeText (sp : Spacing) (node : GraphNode) : List Char :=
  printUnsigned node.id.toNat ++ labelText sp node.label

/-- The line of an edge, with one blank or more on each side of the arrow. -/
def edgeText (left right : Nat) (sp : Spacing) (edge : GraphEdge) : List Char :=
  printUnsigned edge.source.toNat ++ ' ' :: (blanks left ++ ("->".toList ++ ' ' ::
    (blanks right ++ (printUnsigned edge.target.toNat ++ labelText sp edge.label))))

/-- `ParseLine` adds the node, and nothing else. -/
def ReadsNode (sp : Spacing) (node : GraphNode) : Prop :=
  ∀ nodes edges, parseLine (nodeText sp node) nodes edges = some (nodes ++ [node], edges)

/-- `ParseLine` adds the edge, and nothing else. -/
def ReadsEdge (left right : Nat) (sp : Spacing) (edge : GraphEdge) : Prop :=
  ∀ nodes edges, parseLine (edgeText left right sp edge) nodes edges = some (nodes, edges ++ [edge])

/-! ## The tokens of a spaced line -/

section Tokens

variable {token rest : List Char} {label : Int}

theorem tokenize_separator {sep : Char} (rest : List Char) (hsep : sep = ' ' ∨ sep = '=') :
    tokenize (sep :: rest) = tokenize rest := by
  have hplain : (sep :: rest).takeWhile (· ≠ '\x00') = sep :: rest.takeWhile (· ≠ '\x00') := by
    rcases hsep with rfl | rfl <;> rfl
  have hcut : (decide (sep = ' ') || decide (sep = '=')) = true := by simpa using hsep
  rw [tokenize, hplain, List.splitOnP_cons_eq_if_modifyHead, if_pos hcut]
  exact List.filter_cons_of_neg (by simp)

theorem tokenize_blanks (n : Nat) (rest : List Char) :
    tokenize (blanks n ++ rest) = tokenize rest := by
  induction n with
  | zero => rfl
  | succ n ih =>
      rw [blanks, List.replicate_succ, List.cons_append, tokenize_separator _ (.inl rfl)]
      exact ih

/-- A token, blanks or not, and something that is no part of it. -/
theorem tokenize_append_blanks (n : Nat) (htoken : IsToken token) {sep : Char}
    (hsep : sep = ' ' ∨ sep = '=') :
    tokenize (token ++ (blanks n ++ sep :: rest)) = token :: tokenize rest := by
  cases n with
  | zero => exact tokenize_append rest htoken hsep
  | succ n =>
      have hcons : blanks (n + 1) ++ sep :: rest = ' ' :: (blanks n ++ sep :: rest) := rfl
      rw [hcons, tokenize_append _ htoken (.inl rfl), tokenize_blanks, tokenize_separator _ hsep]

/-- The number is a token, with the bracket or without it. -/
theorem tokenize_numberText (n : Nat) (label : Int) :
    tokenize (numberText n label)
      = if n = 0 then [printSigned label ++ [']']] else [printSigned label, [']']] := by
  cases n with
  | zero => exact tokenize_token (isToken_endOfLabel label)
  | succ n =>
      have hcons : numberText (n + 1) label = printSigned label ++ ' ' :: (blanks n ++ [']']) := rfl
      rw [hcons, tokenize_append _ (isToken_printSigned label) (.inl rfl), tokenize_blanks,
        tokenize_token (isToken_singleton (by decide))]
      rfl

theorem parseLabel_numberText (n : Nat) (hlabel : LabelFits label) (hne : label ≠ 0) :
    parseLabel (tokenize (numberText n label)) = label := by
  rw [tokenize_numberText]
  split
  · rw [parseLabel_printSigned hlabel.1 hlabel.2]
    exact if_pos hne
  · have hatoi : atoi (printSigned label) = label := by
      have h := atoi_printSigned [] hlabel.1 hlabel.2 (fun d hd => nomatch hd)
      rwa [List.append_nil] at h
    rw [parseLabel, hatoi, if_pos hne]

/-- A word of the line that is skipped on the way to the label. -/
def IsWord (token : List Char) : Prop := atoi token = 0 ∧ '-' ∉ token

theorem parseLabel_words {words : List (List Char)} (hwords : ∀ w ∈ words, IsWord w)
    (tokens : List (List Char)) : parseLabel (words ++ tokens) = parseLabel tokens := by
  induction words with
  | nil => rfl
  | cons w words ih =>
      have hzero : ¬ atoi w ≠ 0 := not_not.mpr (hwords w List.mem_cons_self).1
      rw [List.cons_append, parseLabel, if_neg hzero]
      exact ih fun v hv => hwords v (List.mem_cons_of_mem _ hv)

theorem isToken_bracket : IsToken ['['] := isToken_singleton (by decide)

theorem isToken_word : IsToken "label".toList := ⟨by simp, by simp⟩

/-- From the word before the number on, blanks make no difference. -/
theorem tokenize_beforeNumber (c d e : Nat) (label : Int) (htoken : IsToken token) :
    tokenize (token ++ (blanks c ++ '=' :: (blanks d ++ numberText e label)))
      = token :: tokenize (numberText e label) := by
  rw [tokenize_append_blanks c htoken (.inr rfl), tokenize_blanks]

/-- Blanks end a token, if there are any. -/
theorem tokenize_before_blanks (n : Nat) (more : List Char) (htoken : IsToken token) :
    tokenize (token ++ (blanks (n + 1) ++ more)) = token :: tokenize more := by
  rw [← tokenize_blanks n more]
  exact tokenize_append _ htoken (.inl rfl)

theorem isWord_label : IsWord "label".toList := ⟨by decide, by simp⟩

theorem isWord_glued : IsWord "[label".toList := ⟨by decide, by simp⟩

theorem isWord_bracket : IsWord ['['] := ⟨by decide, by simp⟩

/-- The tokens from the last ID on: the ID, with or without what follows it; words;
and those of the number.  There are no words exactly if nothing separates the ID
from `label`. -/
theorem tokenize_labelText (sp : Spacing) (label : Int) (htoken : IsToken token) :
    ∃ glued words, tokenize (token ++ labelText sp label)
        = (token ++ glued) :: (words ++ tokenize (numberText sp.afterNumber label))
      ∧ (∀ d ∈ glued.head?, d.isDigit = false) ∧ (∀ w ∈ words, IsWord w)
      ∧ (words = [] ↔ ¬ (sp.beforeBracket ≠ 0 ∨ sp.beforeLabel ≠ 0)) := by
  obtain ⟨a, b, c, d, e⟩ := sp
  cases a with
  | zero =>
      cases b with
      | zero =>
          refine ⟨"[label".toList, [], ?_, ?_, fun w hw => absurd hw List.not_mem_nil, by simp⟩
          · have h := tokenize_beforeNumber c d e label (htoken.append isToken_label)
            rwa [List.append_assoc] at h
          · exact fun d hd => by cases hd; rfl
      | succ b =>
          refine ⟨['['], ["label".toList], ?_, ?_, by simpa using isWord_label, by simp⟩
          · have h := tokenize_before_blanks b ("label".toList ++ (blanks c ++ '=' ::
              (blanks d ++ numberText e label))) (htoken.append isToken_bracket)
            rw [tokenize_beforeNumber c d e label isToken_word, List.append_assoc] at h
            exact h
          · exact fun d hd => by cases hd; rfl
  | succ a =>
      cases b with
      | zero =>
          refine ⟨[], ["[label".toList], ?_, fun d hd => (nomatch hd), by simpa using isWord_glued,
            by simp⟩
          rw [List.append_nil]
          refine (tokenize_before_blanks a _ htoken).trans (congrArg _ ?_)
          exact tokenize_beforeNumber c d e label isToken_label
      | succ b =>
          refine ⟨[], [['['], "label".toList], ?_, fun d hd => (nomatch hd),
            by simpa using ⟨isWord_bracket, isWord_label⟩, by simp⟩
          rw [List.append_nil]
          refine (tokenize_before_blanks a _ htoken).trans (congrArg _ ?_)
          refine (tokenize_before_blanks b _ isToken_bracket).trans (congrArg _ ?_)
          exact tokenize_beforeNumber c d e label isToken_word

end Tokens

/-! ## What is read of a spaced line -/

/-- The ID is read, whatever is glued to it. -/
theorem parseLine_node {line first second : List Char} {rest : List (List Char)} {id : ClusterID}
    (htokens : tokenize line = first :: second :: rest) (hminus : '-' ∉ second)
    (hfirst : UInt32.ofInt (atoi first) = id) (hid : id ≠ 0) (nodes : List GraphNode)
    (edges : List GraphEdge) :
    parseLine line nodes edges = some (nodes ++ [⟨id, parseLabel rest⟩], edges) := by
  have hne : atoi first ≠ 0 := by
    intro hzero
    rw [hzero] at hfirst
    exact hid hfirst.symm
  rw [parseLine, htokens]
  simp only [hminus, if_false, hne, ne_eq, not_false_eq_true, if_true, hfirst]

/-- A line that is read as a node has no `-` in its second token, and its label
after that. -/
theorem label_of_parseLine {line first second : List Char} {rest : List (List Char)}
    {node : GraphNode} (htokens : tokenize line = first :: second :: rest)
    (h : parseLine line [] [] = some ([node], [])) :
    '-' ∉ second ∧ node.label = parseLabel rest := by
  rw [parseLine, htokens] at h
  by_cases hminus : '-' ∈ second
  · simp only [hminus, if_true] at h
    cases rest with
    | nil => cases h
    | cons third labels => cases h
  · refine ⟨hminus, ?_⟩
    simp only [hminus, if_false] at h
    split at h
    · cases h
      rfl
    · cases h

/-- A label that is not negative is none that is missing. -/
theorem not_missing {label : Int} (hminus : '-' ∉ printSigned label) : label ≠ -1 := by
  rintro rfl
  exact hminus List.mem_cons_self

/-- A node line without a blank before `label` is not read as its node. -/
theorem not_readsNode {sp : Spacing} {node : GraphNode} {first : List Char}
    (htokens : tokenize (nodeText sp node)
      = first :: tokenize (numberText sp.afterNumber node.label)) : ¬ ReadsNode sp node := by
  intro hreads
  rw [tokenize_numberText] at htokens
  split at htokens
  · obtain ⟨hminus, hlabel⟩ := label_of_parseLine htokens (hreads [] [])
    exact not_missing (fun h => hminus (List.mem_append_left _ h)) hlabel
  · obtain ⟨hminus, hlabel⟩ := label_of_parseLine htokens (hreads [] [])
    exact not_missing hminus hlabel

theorem readsNode_iff (sp : Spacing) {node : GraphNode} (hnode : GraphNode.InRange node)
    (hlabel : node.label ≠ 0) :
    ReadsNode sp node ↔ sp.beforeBracket ≠ 0 ∨ sp.beforeLabel ≠ 0 := by
  have hid : node.id ≠ 0 := by
    intro hzero
    have hpos := hnode.id.1
    rw [hzero] at hpos
    exact absurd hpos (by decide)
  obtain ⟨glued, words, htokens, hglued, hwords, hsplit⟩ :=
    tokenize_labelText sp node.label (isToken_printUnsigned node.id.toNat)
  cases words with
  | nil => exact iff_of_false (not_readsNode htokens) (hsplit.mp rfl)
  | cons w words =>
      have hline : tokenize (nodeText sp node) = (printUnsigned node.id.toNat ++ glued) :: w ::
          (words ++ tokenize (numberText sp.afterNumber node.label)) := htokens
      have hblank : sp.beforeBracket ≠ 0 ∨ sp.beforeLabel ≠ 0 := by
        by_contra hnone
        exact List.cons_ne_nil w words (hsplit.mpr hnone)
      refine iff_of_true ?_ hblank
      intro nodes edges
      rw [parseLine_node hline (hwords w List.mem_cons_self).2 (ofInt_atoi_id _ _ hglued) hid,
        parseLabel_words fun v hv => hwords v (List.mem_cons_of_mem _ hv),
        parseLabel_numberText _ hnode.label hlabel]

theorem readsEdge (left right : Nat) (sp : Spacing) {edge : GraphEdge}
    (hfits : LabelFits edge.label) (hlabel : edge.label ≠ 0) : ReadsEdge left right sp edge := by
  intro nodes edges
  obtain ⟨glued, words, htokens, hglued, hwords, -⟩ :=
    tokenize_labelText sp edge.label (isToken_printUnsigned edge.target.toNat)
  have hline : tokenize (edgeText left right sp edge)
      = printUnsigned edge.source.toNat :: "->".toList ::
        (printUnsigned edge.target.toNat ++ glued) ::
          (words ++ tokenize (numberText sp.afterNumber edge.label)) := by
    rw [edgeText, tokenize_append _ (isToken_printUnsigned _) (.inl rfl), tokenize_blanks,
      tokenize_append _ isToken_arrow (.inl rfl), tokenize_blanks, htokens]
  have harrow : '-' ∈ "->".toList := by simp
  rw [parseLine, hline]
  simp only [harrow, if_true]
  rw [atoi_id, ofInt_atoi_id _ _ hglued, parseLabel_words hwords,
    parseLabel_numberText _ hfits hlabel]

/-- However a line is spaced: that of an edge is read as it is, and that of a node
exactly if there is a blank on some side of its opening bracket. -/
theorem spacing_iff (left right : Nat) (sp : Spacing) (node : GraphNode) (edge : GraphEdge)
    (hnode : GraphNode.InRange node) (hnode' : node.label ≠ 0) (hedge : GraphEdge.InRange edge)
    (hedge' : edge.label ≠ 0) :
    (ReadsNode sp node ↔ sp.beforeBracket ≠ 0 ∨ sp.beforeLabel ≠ 0)
      ∧ ReadsEdge left right sp edge :=
  ⟨readsNode_iff sp hnode hnode', readsEdge left right sp hedge.label hedge'⟩

/-- The lines `5 [label=3]` and `1 -> 2 [label=3]`. -/
theorem spacing_iff_written :
    ReadsNode ⟨1, 0, 0, 0, 0⟩ ⟨5, 3⟩ ∧ ReadsEdge 0 0 ⟨1, 0, 0, 0, 0⟩ ⟨1, 2, 3⟩ := by
  obtain ⟨hnode, hedge⟩ := spacing_iff 0 0 ⟨1, 0, 0, 0, 0⟩ ⟨5, 3⟩ ⟨1, 2, 3⟩
    ⟨by decide, by decide, by decide⟩ (by decide)
    ⟨by decide, by decide, by decide, by decide⟩ (by decide)
  exact ⟨hnode.mpr (by decide), hedge⟩

/-- The label of `5[label=3]` is lost. -/
theorem tight_label_lost : ¬ ReadsNode ⟨0, 0, 0, 0, 0⟩ ⟨5, 3⟩ := by
  intro h
  have htight := h [] []
  exact absurd htight (by decide)

end GraphIO

end DistributAr
