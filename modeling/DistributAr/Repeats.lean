/-
# `DistributAr.Repeats` — how often a cluster is populated

`ADD n` adds nodes each time it is executed.  `createNetwork` sends it with
`commandWithRetry`, which repeats it when no `ACK` comes in time, and a server
cannot tell a repetition from a new command.  If the first one did arrive, and
only its `ACK` was lost or late, the cluster is populated twice.

The positions of the datagrams of one call form an interval, `AddCall`.  The
cluster gets the command at most once exactly if the network duplicates none of them
and loses all that follow one that was delivered without an `ACK` in time
(`added_once_iff`).  As no server exits, a server executes what the network delivers to
it (`Tallied`); and an `ACK` in the wait after a command ends its call (`LastAnswered`).
-/
import DistributAr.Acks
import DistributAr.Renaming
import DistributAr.Sending

namespace DistributAr

open Lib

namespace Server

/-- The command is not one of the server's own: `cluster->command` gets it. -/
def passesOn (cmd : List Char) : Bool :=
  let word := (IStream.ofChars cmd).readWord.1.getD []
  word ≠ "CONNECT".toList && word ≠ "DROP".toList && word ≠ "RUN".toList && word ≠ "EXIT".toList

theorem parseCommand_of_passesOn {cmd : List Char} (h : passesOn cmd = true)
    (command : List Char → List Char) (garbage id : ClusterID) :
    parseCommand command garbage id cmd = some (id, command cmd) := by
  simp only [passesOn, Bool.and_eq_true, decide_eq_true_eq] at h
  obtain ⟨⟨⟨hconnect, hdrop⟩, hrun⟩, hexit⟩ := h
  rw [parseCommand]
  dsimp only
  rw [if_neg hconnect, if_neg hdrop, if_neg hrun, if_neg hexit]

/-- What the cluster would have said makes no difference otherwise. -/
theorem parseCommand_of_not_passesOn {cmd : List Char} (h : passesOn cmd = false)
    (command command' : List Char → List Char) (garbage id : ClusterID) :
    parseCommand command garbage id cmd = parseCommand command' garbage id cmd := by
  rw [parseCommand, parseCommand]
  dsimp only
  split
  · rfl
  split
  · rfl
  split
  · rfl
  split
  · rfl
  · rename_i hconnect hdrop hrun hexit
    refine absurd ?_ (Bool.eq_false_iff.mp h)
    simp only [passesOn, ne_eq, hconnect, hdrop, hrun, hexit, not_false_iff, decide_true,
      Bool.and_self]

theorem passesOn_add (label : Int) : passesOn (addText label) = true := by
  have htext : addText label = "ADD".toList ++ ' ' :: printUnsigned label.toNat := rfl
  rw [passesOn, htext, readWord_command (by decide) rfl (by simp [isSpace])]
  rfl

end Server

/-- The positions of the datagrams that are passed to `ICluster::command`, as often
as they are. -/
def Datagrams.passed (w : Datagrams) : List Nat :=
  w.executed.filter fun k => (w.sent[k]?).any fun d => Server.passesOn d.cmd

/-- One call of `commandWithRetry` that adds nodes: what it sends has the positions
from `first` on, up to `past`. -/
structure AddCall where
  node : GraphNode
  first : Nat
  past : Nat

/-- How many of some positions are those of the call. -/
def AddCall.times (c : AddCall) (ks : List Nat) : Nat :=
  (ks.filter fun k => c.first ≤ k && k < c.past).length

namespace Commander

variable (sc : Scenario) (net : Datagrams → NetTurn)

/-- The calls that `addNodes` makes. -/
def addCalls : List GraphNode → Commander Datagrams → List AddCall
  | [], _ => []
  | node :: nodes, s =>
      if node.label > 0 then
        let t := (s.commandWithRetry (Datagrams.env sc net) node.id (addText node.label)).2
        ⟨node, s.world.sent.length, t.world.sent.length⟩ :: addCalls nodes t
      else addCalls nodes s

/-- The calls with `ADD` that `createNetwork` makes. -/
def createAdds (rounds : Nat) (file : Option (List Char)) (s : Commander Datagrams) :
    List AddCall :=
  match GraphIO.parse file with
  | none => []
  | some (nodes, _) =>
      match renameClusters (Datagrams.env sc net) rounds nodes s with
      | (.error _, _) => []
      | (.ok ids, s) => addCalls sc net nodes (s.refresh (Datagrams.env sc net) ids)

/-- `createNetwork` on some network, and what arrives after it has ended. -/
def created (world : World) (rounds : Nat) (file : Option (List Char)) (later : List Nat) :
    Datagrams :=
  ((Commander.new sc.trackerAddr (.start world)).createNetwork (Datagrams.env sc net) rounds
    file).2.world.wait sc ⟨later, none⟩

end Commander

/-! ## What the network does -/

namespace Datagrams

/-- The datagram in position `k` goes to a server that was running at the start. -/
def toServer (sc : Scenario) (world : World) (w : Datagrams) (k : Nat) : Bool :=
  (w.sent[k]?).any fun d => d.addr ≠ sc.trackerAddr && (world.ids d.addr).isSome

/-- The client read an `ACK` in the wait after the datagram in position `k`. -/
def acked (w : Datagrams) (k : Nat) : Bool :=
  w.heard.any fun p => p.1 = k && p.2.text = "ACK".toList

variable {sc : Scenario} {net : Datagrams → NetTurn} {world : World} {w w' : Datagrams} {k : Nat}

theorem toServer_of_getElem? {d : Datagram} (hd : w.sent[k]? = some d) :
    w.toServer sc world k = (d.addr ≠ sc.trackerAddr && (world.ids d.addr).isSome) := by
  rw [toServer, hd, Option.any_some]

theorem exists_of_toServer (h : w.toServer sc world k = true) :
    ∃ d, w.sent[k]? = some d ∧ d.addr ≠ sc.trackerAddr := by
  rw [toServer] at h
  cases hd : w.sent[k]? with
  | none =>
      rw [hd] at h
      cases h
  | some d =>
      rw [hd, Option.any_some, Bool.and_eq_true, decide_eq_true_eq] at h
      exact ⟨d, rfl, h.1⟩

theorem acked_iff : w.acked k = true ↔ ∃ a, (k, a) ∈ w.heard ∧ a.text = "ACK".toList := by
  rw [acked, List.any_eq_true]
  constructor
  · rintro ⟨⟨j, a⟩, ha, hpair⟩
    rw [Bool.and_eq_true, decide_eq_true_eq, decide_eq_true_eq] at hpair
    obtain ⟨rfl, htext⟩ := hpair
    exact ⟨a, ha, htext⟩
  · rintro ⟨a, ha, htext⟩
    exact ⟨(k, a), ha, Bool.and_eq_true_iff.mpr ⟨decide_eq_true rfl, decide_eq_true htext⟩⟩

theorem Later.acked (h : Later w w') (hk : k < w.sent.length) (hacked : w'.acked k = true) :
    w.acked k = true := by
  obtain ⟨a, ha, htext⟩ := acked_iff.mp hacked
  exact acked_iff.mpr ⟨a, h.heard _ ha hk, htext⟩

/-- No server has exited, and servers execute what is delivered to them. -/
structure Tallied (sc : Scenario) (world : World) (w : Datagrams) : Prop where
  alive : ∀ addr, (w.world.ids addr).isSome = (world.ids addr).isSome
  texts : ∀ d ∈ w.sent, Commander.Sendable d.cmd
  delivered : ∀ k ∈ w.delivered, k < w.sent.length
  executed : w.executed = w.delivered.filter (w.toServer sc world)

theorem tallied_start (sc : Scenario) (world : World) : Tallied sc world (start world) where
  alive _ := rfl
  texts _ h := absurd h List.not_mem_nil
  delivered _ h := absurd h List.not_mem_nil
  executed := rfl

theorem filter_concat (p : Nat → Bool) (ks : List Nat) (k : Nat) :
    (ks ++ [k]).filter p = ks.filter p ++ if p k then [k] else [] := by
  rw [List.filter_append]
  cases hp : p k with
  | true => rw [List.filter_cons_of_pos hp, if_pos rfl, List.filter_nil]
  | false => rw [List.filter_cons_of_neg (by simp [hp]), if_neg (by simp), List.filter_nil]

theorem Tallied.write (h : Tallied sc world w) (addr : SockAddr) {cmd : List Char}
    (hcmd : Commander.Sendable cmd) : Tallied sc world (w.write addr cmd) where
  alive := h.alive
  texts d hd := by
    rcases List.mem_append.mp hd with hold | hnew
    · exact h.texts d hold
    · rw [List.mem_singleton.mp hnew]
      exact hcmd
  delivered k hk := (h.delivered k hk).trans_le (later_write w addr cmd).sent.length_le
  executed := by
    refine h.executed.trans (List.filter_congr ?_)
    intro k hk
    rw [toServer, toServer, Datagrams.write, List.getElem?_append_left (h.delivered k hk)]

/-- The datagram in position `k` is delivered. -/
theorem Tallied.arrive (h : Tallied sc world w) (k : Nat) : Tallied sc world (w.arrive sc k) := by
  have hdelivered : ∀ {d : Datagram}, w.sent[k]? = some d →
      ∀ j ∈ w.delivered ++ [k], j < w.sent.length := by
    intro d hd j hj
    rcases List.mem_append.mp hj with hold | hnew
    · exact h.delivered j hold
    · rw [List.mem_singleton.mp hnew]
      exact (List.getElem?_eq_some_iff.mp hd).1
  obtain he | ⟨d, hd, ⟨haddr, he⟩ | ⟨haddr, hserver, he⟩ | ⟨haddr, hnobody, he⟩⟩ :=
    arrive_cases sc w k
  · rw [he]
    exact h
  · rw [he, answer_eq]
    refine ⟨h.alive, h.texts, hdelivered hd, ?_⟩
    have hk : w.toServer sc world k = false := by
      rw [toServer_of_getElem? hd, decide_eq_false (not_not.mpr haddr), Bool.false_and]
    refine (h.executed.trans ?_ : w.executed = (w.delivered ++ [k]).filter (w.toServer sc world))
    rw [filter_concat, hk, if_neg Bool.false_ne_true, List.append_nil]
  · rw [he, answer_eq]
    have hword := (h.texts d (List.mem_of_getElem? hd)).word_ne
    refine ⟨fun b => (World.deliver_isSome hword b).trans (h.alive b), h.texts, hdelivered hd, ?_⟩
    have hk : w.toServer sc world k = true := by
      rw [toServer_of_getElem? hd, decide_eq_true haddr, Bool.true_and, ← h.alive]
      exact hserver
    show w.executed ++ [k] = (w.delivered ++ [k]).filter (w.toServer sc world)
    rw [filter_concat, hk, if_pos rfl, h.executed]
  · rw [he]
    refine ⟨h.alive, h.texts, hdelivered hd, ?_⟩
    have hk : w.toServer sc world k = false := by
      rw [toServer_of_getElem? hd, ← h.alive, hnobody, Option.isSome_none, Bool.and_false]
    show w.executed = (w.delivered ++ [k]).filter (w.toServer sc world)
    rw [filter_concat, hk, if_neg Bool.false_ne_true, List.append_nil, h.executed]

theorem Tallied.wait (h : Tallied sc world w) (turn : NetTurn) :
    Tallied sc world (w.wait sc turn) := by
  unfold Datagrams.wait
  induction turn.arrive generalizing w with
  | nil => exact h
  | cons k ks ih => exact ih (h.arrive k)

theorem Tallied.pass (h : Tallied sc world w) : Tallied sc world (w.pass sc) where
  alive addr := (World.pass_isSome addr).trans (h.alive addr)
  texts := h.texts
  delivered := h.delivered
  executed := h.executed

theorem keeps_tallied (sc : Scenario) (net : Datagrams → NetTurn) (world : World) :
    (env sc net).Keeps (Tallied sc world) where
  exchange w addr cmd hcmd h := by
    obtain ⟨halive, htexts, hdelivered, hexecuted⟩ :=
      ((h.write addr hcmd).wait (net (w.write addr cmd))).pass
    exact ⟨halive, htexts, hdelivered, hexecuted⟩
  wait w h := (h.wait (net w)).pass
  sleep w h := (h.wait (net w)).pass

end Datagrams

theorem created_tallied (sc : Scenario) (net : Datagrams → NetTurn) (world : World) (rounds : Nat)
    (file : Option (List Char)) (later : List Nat) :
    (Commander.created sc net world rounds file later).Tallied sc world :=
  ((Datagrams.keeps_tallied sc net world).createNetwork rounds file
    (s := .new sc.trackerAddr (.start world)) (Datagrams.tallied_start sc world)).wait _

/-! ## One call -/

namespace AddCall

/-- What the network does to the datagrams of a call: it delivers none of those to the
server twice, and none after one that it delivered without an `ACK` in the wait. -/
structure Spared (sc : Scenario) (world : World) (w : Datagrams) (c : AddCall) : Prop where
  single : ∀ k, c.first ≤ k → k < c.past → w.toServer sc world k = true →
    w.delivered.count k ≤ 1
  last : ∀ k ∈ w.delivered, c.first ≤ k → w.toServer sc world k = true → w.acked k = false →
    ∀ j ∈ w.delivered, k < j → j < c.past → w.toServer sc world j = false

/-- What is known of a call that is over: what it sent to a server is its `ADD`, and an
`ACK` in the wait after that was the end of it. -/
def Made (sc : Scenario) (w : Datagrams) (c : AddCall) : Prop :=
  ∀ k d, c.first ≤ k → k < c.past → w.sent[k]? = some d → d.addr ≠ sc.trackerAddr →
    d.cmd = addText c.node.label ∧ (w.acked k = true → k + 1 = c.past)

variable {sc : Scenario} {world : World} {w : Datagrams} {c : AddCall}

/-- What is executed of the call is all passed to the cluster. -/
theorem Made.times_passed (h : c.Made sc w) (hw : w.Tallied sc world) :
    c.times w.passed = c.times w.executed := by
  rw [times, times, Datagrams.passed, List.filter_filter]
  refine congrArg List.length (List.filter_congr ?_)
  intro k hk
  by_cases hrange : (c.first ≤ k && k < c.past) = true
  · have hboth := hrange
    rw [Bool.and_eq_true, decide_eq_true_eq, decide_eq_true_eq] at hboth
    rw [hw.executed] at hk
    obtain ⟨d, hd, haddr⟩ := Datagrams.exists_of_toServer (List.mem_filter.mp hk).2
    rw [hd, Option.any_some, (h k d hboth.1 hboth.2 hd haddr).1, Server.passesOn_add,
      Bool.and_true]
  · rw [Bool.eq_false_iff.mpr hrange, Bool.false_and]

/-- No element twice, and no two different ones. -/
theorem length_le_one_iff (ks : List Nat) :
    ks.length ≤ 1 ↔ (∀ k ∈ ks, ks.count k ≤ 1) ∧ ∀ k ∈ ks, ∀ j ∈ ks, ¬ k < j := by
  match ks with
  | [] => simp
  | [k] => simp
  | k :: j :: ks =>
      refine iff_of_false (by simp) ?_
      rintro ⟨hcount, hlt⟩
      obtain rfl : k = j := by
        have h₁ := hlt k (by simp) j (by simp)
        have h₂ := hlt j (by simp) k (by simp)
        omega
      have htwice := hcount k (by simp)
      rw [List.count_cons_self, List.count_cons_self] at htwice
      omega

/-- At most one of the datagrams of a call arrives, at most once, exactly if the network
spares it. -/
theorem Made.times_le_one_iff (h : c.Made sc w) (hw : w.Tallied sc world) :
    c.times w.executed ≤ 1 ↔ c.Spared sc world w := by
  have hmem : ∀ k, k ∈ (w.delivered.filter (w.toServer sc world)).filter
      (fun k => c.first ≤ k && k < c.past)
        ↔ k ∈ w.delivered ∧ w.toServer sc world k = true ∧ c.first ≤ k ∧ k < c.past := by
    intro k
    simp only [List.mem_filter, Bool.and_eq_true, decide_eq_true_eq, and_assoc]
  have hcount : ∀ k, w.toServer sc world k = true → c.first ≤ k → k < c.past →
      ((w.delivered.filter (w.toServer sc world)).filter
        (fun k => c.first ≤ k && k < c.past)).count k = w.delivered.count k := by
    intro k hserver hfirst hpast
    rw [List.count_filter (by simp [hfirst, hpast]), List.count_filter hserver]
  rw [times, hw.executed, length_le_one_iff]
  constructor
  · rintro ⟨hsingle, hlt⟩
    refine ⟨?_, ?_⟩
    · intro k hfirst hpast hserver
      by_cases hk : k ∈ w.delivered
      · rw [← hcount k hserver hfirst hpast]
        exact hsingle k ((hmem k).mpr ⟨hk, hserver, hfirst, hpast⟩)
      · rw [List.count_eq_zero.mpr hk]
        exact Nat.zero_le 1
    · intro k hk hfirst hserver _ j hj hkj hpast
      refine Bool.eq_false_iff.mpr fun hserver' => ?_
      exact hlt k ((hmem k).mpr ⟨hk, hserver, hfirst, hkj.trans hpast⟩) j
        ((hmem j).mpr ⟨hj, hserver', hfirst.trans hkj.le, hpast⟩) hkj
  · intro hspared
    refine ⟨?_, ?_⟩
    · intro k hk
      obtain ⟨-, hserver, hfirst, hpast⟩ := (hmem k).mp hk
      rw [hcount k hserver hfirst hpast]
      exact hspared.single k hfirst hpast hserver
    · intro k hk j hj hkj
      obtain ⟨hk, hserver, hfirst, hpast⟩ := (hmem k).mp hk
      obtain ⟨hj, hserver', -, hpast'⟩ := (hmem j).mp hj
      cases hacked : w.acked k with
      | true =>
          -- the `ACK` was the end of the call
          obtain ⟨d, hd, haddr⟩ := Datagrams.exists_of_toServer hserver
          have hend := (h k d hfirst hpast hd haddr).2 hacked
          omega
      | false =>
          exact Bool.eq_false_iff.mp (hspared.last k hk hfirst hserver hacked j hj hkj hpast')
            hserver'

end AddCall

namespace Commander

variable {sc : Scenario} {net : Datagrams → NetTurn} {s : Commander Datagrams} {w : Datagrams}

/-- The network forgets nothing. -/
theorem keeps_grown (sc : Scenario) (net : Datagrams → NetTurn) (w₀ : Datagrams) :
    (Datagrams.env sc net).Keeps fun w => Datagrams.Sound sc w ∧ Datagrams.Later w₀ w where
  exchange := by
    rintro w addr cmd - ⟨hsound, hlater⟩
    have hex := Datagrams.exchanged net hsound addr cmd
    exact ⟨hex.sound, hlater.trans hex.later⟩
  wait := by
    rintro w ⟨hsound, hlater⟩
    obtain ⟨hsound', -, hlater'⟩ := Datagrams.waited net hsound
    exact ⟨hsound', hlater.trans hlater'⟩
  sleep := by
    rintro w ⟨hsound, hlater⟩
    obtain ⟨hsound', -, hlater'⟩ := Datagrams.waited net hsound
    exact ⟨hsound', hlater.trans hlater'⟩

/-! ## What one call leaves -/

/-- From `s` on, no datagram to a server has been acknowledged in the wait after it. -/
def Unanswered (sc : Scenario) (s t : Commander Datagrams) : Prop :=
  ∀ k d, s.world.sent.length ≤ k → t.world.sent[k]? = some d → d.addr ≠ sc.trackerAddr →
    t.world.acked k = false

variable {t : Commander Datagrams} {cl : ClusterID} {cmd : List Char}

theorem Unanswered.refl (sc : Scenario) (s : Commander Datagrams) : Unanswered sc s s := by
  intro k d hk hd
  rw [List.getElem?_eq_none hk] at hd
  cases hd

/-- Another datagram, to the tracker or without an `ACK` in the wait after it. -/
theorem Unanswered.exchange {addr : SockAddr} (h : Unanswered sc s t)
    (hsound : Datagrams.Sound sc t.world)
    (hreply : addr = sc.trackerAddr ∨
      ((Datagrams.env sc net).exchange t.world addr cmd).1 ≠ "ACK".toList)
    {u : Commander Datagrams}
    (hu : u.world = ((Datagrams.env sc net).exchange t.world addr cmd).2) :
    Unanswered sc s u := by
  have hex := Datagrams.exchanged net hsound addr cmd
  rw [← hu] at hex
  intro k d hk hd haddr
  rcases hex.getElem? hd with hold | ⟨rfl, rfl⟩
  · exact Bool.eq_false_iff.mpr fun hacked => Bool.eq_false_iff.mp (h k d hk hold haddr)
      (hex.later.acked (List.getElem?_eq_some_iff.mp hold).1 hacked)
  · refine Bool.eq_false_iff.mpr fun hacked => ?_
    obtain ⟨a, ha, htext⟩ := Datagrams.acked_iff.mp hacked
    rcases hex.heard _ ha with hold | ⟨-, hread⟩
    · exact absurd (hsound.heard _ hold) (Nat.lt_irrefl _)
    · refine (hreply.resolve_left haddr) ?_
      rw [← htext]
      simp only [Datagrams.env, Datagrams.waitReply, hread, Option.map_some, Option.getD_some]

theorem Unanswered.requestInfo (net : Datagrams → NetTurn) (i : Nat) (h : Unanswered sc s t)
    (hcall : During sc cl cmd s t) :
    Unanswered sc s (Commander.requestInfo (Datagrams.env sc net) i t cl) := by
  induction i generalizing t with
  | zero => exact h
  | succ i ih =>
      rw [Commander.requestInfo]
      split
      · rename_i hport
        exact ih (h.exchange hcall.sound (.inl hcall.tracker) getCluster_world)
          (hcall.getCluster hport)
      · exact h

/-- Where nothing was sent, nothing is acknowledged. -/
theorem Unanswered.wait (net : Datagrams → NetTurn) (h : Unanswered sc s t)
    (hsound : Datagrams.Sound sc t.world) :
    Unanswered sc s (t.wait (Datagrams.env sc net)).2 := by
  obtain ⟨-, hsent, hlater⟩ := Datagrams.waited net hsound
  intro k d hk hd haddr
  have hold : t.world.sent[k]? = some d := hsent ▸ hd
  exact Bool.eq_false_iff.mpr fun hacked => Bool.eq_false_iff.mp (h k d hk hold haddr)
    (hlater.acked (List.getElem?_eq_some_iff.mp hold).1 hacked)

theorem Unanswered.command (h : Unanswered sc s t) (hcall : During sc cl cmd s t)
    (hreply : (t.command (Datagrams.env sc net) cl cmd).1 ≠ "ACK".toList) :
    Unanswered sc s (t.command (Datagrams.env sc net) cl cmd).2 := by
  have hinfo := h.requestInfo net 3 hcall
  have hsound := (hcall.requestInfo net 3).sound
  rw [Commander.command] at hreply ⊢
  split at hreply
  · rename_i hport
    rw [if_pos hport]
    exact hinfo.wait net hsound
  · rename_i hport
    rw [if_neg hport]
    exact hinfo.exchange hsound (.inr hreply) rfl

/-- Only the last datagram of a call to a server is acknowledged in the wait after it. -/
def LastAnswered (sc : Scenario) (s t : Commander Datagrams) : Prop :=
  ∀ k d, s.world.sent.length ≤ k → t.world.sent[k]? = some d → d.addr ≠ sc.trackerAddr →
    t.world.acked k = true → k + 1 = t.world.sent.length

theorem Unanswered.lastAnswered (h : Unanswered sc s t) : LastAnswered sc s t := by
  intro k d hk hd haddr hacked
  rw [h k d hk hd haddr] at hacked
  cases hacked

theorem Unanswered.lastAnswered_command (net : Datagrams → NetTurn) (h : Unanswered sc s t)
    (hcall : During sc cl cmd s t) :
    LastAnswered sc s (t.command (Datagrams.env sc net) cl cmd).2 := by
  have hinfo := h.requestInfo net 3 hcall
  have hsound := (hcall.requestInfo net 3).sound
  rw [Commander.command]
  generalize Commander.requestInfo (Datagrams.env sc net) 3 t cl = u at hinfo hsound ⊢
  split
  · exact (hinfo.wait net hsound).lastAnswered
  · have hex := Datagrams.exchanged net hsound (u.clusters cl) cmd
    intro k d hk hd haddr hacked
    rcases hex.getElem? hd with hold | ⟨rfl, -⟩
    · have hpending := hinfo k d hk hold haddr
      rw [hex.later.acked (List.getElem?_eq_some_iff.mp hold).1 hacked] at hpending
      cases hpending
    · exact (List.length_append.symm.trans (congrArg List.length hex.sent.symm))

/-- An `ACK` ends the call. -/
theorem Unanswered.retryCommand (net : Datagrams → NetTurn) (retry : Nat)
    (h : Unanswered sc s t) (hcall : During sc cl cmd s t) :
    LastAnswered sc s (Commander.retryCommand (Datagrams.env sc net) retry t cl cmd).2 := by
  induction retry generalizing t with
  | zero => exact h.lastAnswered_command net hcall
  | succ retry ih =>
      rw [Commander.retryCommand]
      dsimp only
      split
      · exact h.lastAnswered_command net hcall
      · rename_i hreply
        exact ih (h.command hcall hreply) hcall.command

/-- The calls of `addNodes`, at their end and later. -/
theorem addCalls_made (nodes : List GraphNode) (h : Idle sc s)
    (hlater : Datagrams.Later (s.addNodes (Datagrams.env sc net) nodes).world w) :
    ∀ c ∈ addCalls sc net nodes s, c.Made sc w := by
  induction nodes generalizing s with
  | nil => exact fun c hc => absurd hc List.not_mem_nil
  | cons node nodes ih =>
      intro c hc
      rw [addCalls] at hc
      rw [addNodes, List.foldl_cons] at hlater
      split at hc
      · rename_i hlabel
        rw [if_pos hlabel] at hlater
        have hstart := During.refl node.id (addText node.label) h.1 h.2
        have hcall := hstart.retryCommand net commandRetryCount
        have hlast := (Unanswered.refl sc s).retryCommand net commandRetryCount hstart
        rcases List.mem_cons.mp hc with rfl | hrest
        · obtain ⟨-, hafter⟩ := (keeps_grown sc net _).addNodes nodes
            ⟨hcall.sound, Datagrams.Later.refl _⟩
          have hfinal := hafter.trans hlater
          intro k d hfirst hpast hd haddr
          have hsent := hfinal.getElem?_of_lt hpast hd
          refine ⟨?_, fun hacked => hlast k d hfirst hsent haddr (hfinal.acked hpast hacked)⟩
          rw [((hcall.own k d hfirst hsent).resolve_left haddr).2]
        · exact ih ⟨hcall.tracker, hcall.sound⟩ hlater c hrest
      · rename_i hlabel
        rw [if_neg hlabel] at hlater
        exact ih h hlater c hc

/-- The calls of `createNetwork`, at its end and later. -/
theorem createAdds_made (sc : Scenario) (net : Datagrams → NetTurn) (world : World)
    (rounds : Nat) (file : Option (List Char)) (later : List Nat) :
    ∀ c ∈ createAdds sc net rounds file (.new sc.trackerAddr (.start world)),
      c.Made sc (created sc net world rounds file later) := by
  rw [createAdds, created, createNetwork]
  cases GraphIO.parse file with
  | none => exact fun c hc => absurd hc List.not_mem_nil
  | some graph =>
      obtain ⟨nodes, edges⟩ := graph
      have hgrown := (keeps_grown sc net (.start world)).renameClusters rounds nodes
        (s := .new sc.trackerAddr (.start world))
        ⟨Datagrams.sound_start sc world, Datagrams.Later.refl _⟩
      have hnew : Follows (Datagrams.env sc net) sc.trackerAddr (fun _ _ => True) []
          (.new sc.trackerAddr (.start world)) := .new sc.trackerAddr _
      obtain ⟨hfollows, hids⟩ :=
        hnew.renameClusters sc.port_ne_zero (fun _ _ => trivial) nodes rounds
      dsimp only
      rcases hrename : renameClusters (Datagrams.env sc net) rounds nodes
        (.new sc.trackerAddr (.start world)) with ⟨result, s⟩
      rw [hrename] at hgrown hfollows hids
      cases result with
      | error outcome => exact fun c hc => absurd hc List.not_mem_nil
      | ok ids =>
          have hasked := (keeps_grown sc net (.start world)).refresh ids hgrown
          have hidle : Idle sc (s.refresh (Datagrams.env sc net) ids) :=
            ⟨(follows_refresh (hids ids rfl) s hfollows.tracker
              : Follows _ _ (fun _ _ => True) _ _).tracker, hasked.1⟩
          have hadded := (keeps_grown sc net (.start world)).addNodes nodes hasked
          obtain ⟨hsound, hlater⟩ := (keeps_grown sc net _).connectEdges edges
            ⟨hadded.1, Datagrams.Later.refl _⟩
          obtain ⟨-, hsent, hheard, hexecuted⟩ := Datagrams.wait_spec ⟨later, none⟩ hsound
          exact addCalls_made nodes hidle (hlater.trans
            ⟨hsent.symm ▸ List.prefix_refl _, fun p hp _ => hheard ▸ hp, hexecuted⟩)

/-- On every network: in a run of `createNetwork`, and after it, each `ADD` is passed to
its cluster at most once exactly if the network duplicates none of the commands that its
call sends to the server, and loses what the call sends after one that it delivered
without letting the client read an `ACK` in time. -/
theorem added_once_iff (sc : Scenario) (net : Datagrams → NetTurn) (world : World) (rounds : Nat)
    (file : Option (List Char)) (later : List Nat) :
    (∀ c ∈ createAdds sc net rounds file (.new sc.trackerAddr (.start world)),
        c.times (created sc net world rounds file later).passed ≤ 1)
      ↔ ∀ c ∈ createAdds sc net rounds file (.new sc.trackerAddr (.start world)),
        c.Spared sc world (created sc net world rounds file later) := by
  refine forall₂_congr ?_
  intro c hc
  have hmade := createAdds_made sc net world rounds file later c hc
  have htallied := created_tallied sc net world rounds file later
  rw [hmade.times_passed htallied]
  exact hmade.times_le_one_iff htallied

/-- The graph has the clusters 1 and 2. -/
def bothFile : List Char := "1 [label=5]\n2 [label=3]\n".toList

/-- One `ACK` comes late: the one of the first `ADD`. -/
def lateAck (w : Datagrams) : NetTurn :=
  if w.sent.length = 8 then ⟨[7], none⟩ else Datagrams.prompt w

/-- Cluster 1 is told to add five nodes, twice. -/
theorem lateAck_added_twice :
    ¬ ∀ c ∈ createAdds .late lateAck 1 (some bothFile)
        (.new Scenario.late.trackerAddr (.start twoClusters)),
      c.times (created .late lateAck twoClusters 1 (some bothFile) []).passed ≤ 1 := by
  decide +kernel

end Commander

end DistributAr
