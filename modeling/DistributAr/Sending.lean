/-
# `DistributAr.Sending` — what the client sends

Whatever comes back, `createNetwork` sends only five kinds of text.  So what an
environment keeps when it is sent one of them, or none, it keeps over every part of
`createNetwork`.  None of the five is an `EXIT`.
-/
import DistributAr.World

namespace DistributAr

open Lib

/-- What the client may send. -/
inductive Commander.Sendable : List Char → Prop
  | list : Sendable Command.list.text
  | get (id : ClusterID) : Sendable (Command.get id).text
  | run (id : ClusterID) : Sendable (Reply.run id).text
  | add (label : Int) : Sendable (addText label)
  | connect (target : ClusterID) (label : Int) : Sendable (connectText target label)

/-- No server exits. -/
theorem Commander.Sendable.word_ne {cmd : List Char} (h : Sendable cmd) :
    (IStream.ofChars cmd).readWord.1.getD [] ≠ "EXIT".toList := by
  -- the first word of a text that goes on with a blank
  have hword : ∀ (word rest : List Char), word ≠ [] → word.any isSpace = false →
      word ≠ "EXIT".toList →
      (IStream.ofChars (word ++ ' ' :: rest)).readWord.1.getD [] ≠ "EXIT".toList := by
    intro word rest hne hblank hexit
    rw [readWord_command hne hblank (by simp [isSpace])]
    exact hexit
  cases h with
  | list => decide
  | get id => exact hword "GET".toList _ (by decide) rfl (by decide)
  | run id => exact hword "RUN".toList _ (by decide) rfl (by decide)
  | add label => exact hword "ADD".toList _ (by decide) rfl (by decide)
  | connect target label => exact hword "CONNECT".toList _ (by decide) rfl (by decide)

/-! ## What an environment keeps, a client keeps -/

/-- The environment keeps `P`, whatever the client says and wherever it waits. -/
structure Env.Keeps {σ : Type} (env : Env σ) (P : σ → Prop) : Prop where
  exchange : ∀ w addr cmd, Commander.Sendable cmd → P w → P (env.exchange w addr cmd).2
  wait : ∀ w, P w → P (env.wait w).2
  sleep : ∀ w, P w → P (env.sleep w)

namespace Env.Keeps

variable {σ : Type} {env : Env σ} {P : σ → Prop} (h : env.Keeps P) {s : Commander σ}
include h

theorem getCluster (id : ClusterID) (hs : P s.world) : P (s.getCluster env id).world := by
  rw [Commander.getCluster_world]
  exact h.exchange _ _ _ (.get id) hs

theorem getClusters (ids : List ClusterID) (hs : P s.world) : P (s.getClusters env ids).world := by
  induction ids generalizing s with
  | nil => exact hs
  | cons id ids ih => exact ih (h.getCluster id hs)

theorem requestInfo (i : Nat) (c : ClusterID) (hs : P s.world) :
    P (Commander.requestInfo env i s c).world := by
  induction i generalizing s with
  | zero => exact hs
  | succ i ih =>
      rw [Commander.requestInfo]
      split
      · exact ih (h.getCluster c hs)
      · exact hs

theorem command (c : ClusterID) {cmd : List Char} (hcmd : Commander.Sendable cmd) (hs : P s.world) :
    P (s.command env c cmd).2.world := by
  rw [Commander.command]
  split
  · exact h.wait _ (h.requestInfo 3 c hs)
  · exact h.exchange _ _ _ hcmd (h.requestInfo 3 c hs)

theorem retryCommand (retry : Nat) (c : ClusterID) {cmd : List Char} (hcmd : Commander.Sendable cmd)
    (hs : P s.world) : P (Commander.retryCommand env retry s c cmd).2.world := by
  induction retry generalizing s with
  | zero => exact h.command c hcmd hs
  | succ retry ih =>
      rw [Commander.retryCommand]
      dsimp only
      split
      · exact h.command c hcmd hs
      · exact ih (h.command c hcmd hs)

theorem waitClusters (nodes : List GraphNode) (rounds : Nat) (hs : P s.world) :
    P (Commander.waitClusters env nodes rounds s).2.world := by
  induction rounds generalizing s with
  | zero => exact hs
  | succ rounds ih =>
      have hlisted : P ((s.sleep env).listClusters env).2.world :=
        h.exchange _ _ _ .list (h.sleep _ hs)
      rw [Commander.waitClusters]
      dsimp only
      split
      · split
        · exact ih hlisted
        · exact hlisted
      · exact hlisted

theorem issueIds (ids : List ClusterID) (nodes : List GraphNode) (hs : P s.world) :
    P (Commander.issueIds env ids nodes s).2.world := by
  induction ids generalizing nodes s with
  | nil => exact hs
  | cons old ids ih =>
      cases nodes with
      | nil => exact hs
      | cons node nodes =>
          have hissued := h.retryCommand Commander.commandRetryCount old (.run node.id) hs
          rw [Commander.issueIds]
          dsimp only
          split
          · exact ih _ hissued
          · exact hissued

theorem renameClusters (rounds : Nat) (nodes : List GraphNode) (hs : P s.world) :
    P (Commander.renameClusters env rounds nodes s).2.world := by
  have hwaited := h.waitClusters nodes rounds hs
  rw [Commander.renameClusters]
  rcases hwait : Commander.waitClusters env nodes rounds s with ⟨result, t⟩
  rw [hwait] at hwaited
  cases result with
  | error outcome => exact hwaited
  | ok ids =>
      have hissued := h.issueIds ids nodes (h.getClusters ids hwaited)
      dsimp only
      rcases hissue : Commander.issueIds env ids nodes (t.getClusters env ids) with ⟨result, u⟩
      rw [hissue] at hissued
      cases result with
      | error outcome => exact hissued
      | ok _ => exact hissued

theorem refresh (ids : List ClusterID) (hs : P s.world) : P (s.refresh env ids).world :=
  h.getClusters ids (h.sleep _ hs)

theorem addNodes (nodes : List GraphNode) (hs : P s.world) :
    P (s.addNodes env nodes).world := by
  induction nodes generalizing s with
  | nil => exact hs
  | cons node nodes ih =>
      refine ih ?_
      dsimp only
      split
      · exact h.retryCommand _ _ (.add node.label) hs
      · exact hs

theorem connectEdges (edges : List GraphEdge) (hs : P s.world) :
    P (Commander.connectEdges env edges s).2.world := by
  induction edges generalizing s with
  | nil => exact hs
  | cons edge edges ih =>
      rw [Commander.connectEdges]
      split
      · have hsent := h.retryCommand Commander.commandRetryCount edge.source
          (.connect edge.target edge.label) hs
        dsimp only
        split
        · exact ih hsent
        · exact hsent
      · exact ih hs

theorem createNetwork (rounds : Nat) (file : Option (List Char)) (hs : P s.world) :
    P (s.createNetwork env rounds file).2.world := by
  rw [Commander.createNetwork]
  cases GraphIO.parse file with
  | none => exact hs
  | some graph =>
      obtain ⟨nodes, edges⟩ := graph
      have hrenamed := h.renameClusters rounds nodes hs
      dsimp only
      rcases hrename : Commander.renameClusters env rounds nodes s with ⟨result, t⟩
      rw [hrename] at hrenamed
      cases result with
      | error outcome => exact hrenamed
      | ok ids => exact h.connectEdges edges (h.addNodes nodes (h.refresh ids hrenamed))

end Env.Keeps

end DistributAr
