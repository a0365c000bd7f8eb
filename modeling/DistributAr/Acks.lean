/-
# `DistributAr.Acks` — what an `ACK` tells the client

`commandWithRetry` sends a command, waits, and sends it again until an `ACK`
comes, at most four times.  An `ACK` does not say what it acknowledges: one that
comes late is taken for the answer to whatever was sent last, be it another
command to another cluster, and also where no command was sent because nobody knows
the address of the cluster.

If every `ACK` that is read in a call answers a datagram of that call, then a
call that succeeds was obeyed (`acks_genuine`).  `During` is what holds in the
middle of a call: the datagrams sent since it began went to the tracker, or are
the command itself and went to the address of the cluster.
-/
import DistributAr.Datagrams
import DistributAr.Lib.Run

namespace DistributAr

open Lib

namespace Commander

variable (sc : Scenario) (net : Datagrams → NetTurn)

/-- A client with some cache, before its first datagram. -/
def onNetwork (clusters : ClusterID → SockAddr) (world : World) : Commander Datagrams :=
  ⟨clusters, .start world, [], []⟩

/-- One call of `commandWithRetry`. -/
def call (s : Commander Datagrams) (c : ClusterID × List Char) : Option (Commander Datagrams) :=
  some (s.commandWithRetry (Datagrams.env sc net) c.1 c.2).2

/-- Where a client that was in `s` has waited for a cluster on its way to `t`: after the
datagrams that it sent there, and where it had sent none. -/
def awaited (cluster : ClusterID) (s t : Commander Datagrams) : List Datagrams :=
  ((t.sent.drop s.sent.length).filter (·.cluster = cluster)).map
      (fun r => r.world.write r.addr r.cmd)
    ++ t.unasked.drop s.unasked.length

/-- Every `ACK` that the call reads, after the command or where none was sent, answers a
datagram that was sent since the call began. -/
def OwnAcks (s : Commander Datagrams) (c : ClusterID × List Char) : Prop :=
  ∀ w ∈ awaited c.1 s (s.commandWithRetry (Datagrams.env sc net) c.1 c.2).2,
    ∀ a, w.reading sc (net w) = some a → a.text = "ACK".toList →
    s.world.sent.length ≤ a.request

/-- If the call succeeds, the server at the address of the cluster has executed
the command since the call began. -/
def Genuine (s : Commander Datagrams) (c : ClusterID × List Char) : Prop :=
  ∀ t, s.commandWithRetry (Datagrams.env sc net) c.1 c.2 = (true, t) →
    ∃ k ∈ t.world.executed.drop s.world.executed.length,
      t.world.sent[k]? = some ⟨t.clusters c.1, c.2⟩

variable {sc net} {s t : Commander Datagrams} {c : ClusterID} {cmd : List Char}

/-- The state `t` in the middle of a call to `c` that began in `s`. -/
structure During (sc : Scenario) (c : ClusterID) (cmd : List Char) (s t : Commander Datagrams) :
    Prop where
  tracker : t.clusters trackerClusterId = sc.trackerAddr
  sound : Datagrams.Sound sc t.world
  later : Datagrams.Later s.world t.world
  records : s.sent <+: t.sent
  unasked : s.unasked <+: t.unasked
  own : ∀ k d, s.world.sent.length ≤ k → t.world.sent[k]? = some d → d.addr = sc.trackerAddr
    ∨ (t.clusters c).sin_port ≠ 0 ∧ d = ⟨t.clusters c, cmd⟩

theorem During.refl (c : ClusterID) (cmd : List Char)
    (htracker : s.clusters trackerClusterId = sc.trackerAddr)
    (hsound : Datagrams.Sound sc s.world) : During sc c cmd s s where
  tracker := htracker
  sound := hsound
  later := .refl s.world
  records := List.prefix_refl _
  unasked := List.prefix_refl _
  own := by
    intro k d hk hd
    rw [List.getElem?_eq_none hk] at hd
    cases hd

/-- The tracker was asked: no command was sent yet. -/
theorem During.getCluster (h : During sc c cmd s t) (hport : (t.clusters c).sin_port = 0) :
    During sc c cmd s (t.getCluster (Datagrams.env sc net) c) := by
  have hc : c ≠ trackerClusterId := by
    rintro rfl
    rw [h.tracker] at hport
    exact sc.port_ne_zero hport
  have hex := Datagrams.exchanged net h.sound (t.clusters trackerClusterId)
    (Command.get c).text
  refine ⟨?_, ?_, ?_, ?_, ?_, ?_⟩
  · rw [Commander.getCluster_clusters]
    cases pointed (Datagrams.env sc net) (t.clusters trackerClusterId) t.world c with
    | none => exact h.tracker
    | some addr => exact (Function.update_of_ne (Ne.symm hc) _ _).trans h.tracker
  · rw [Commander.getCluster_world]
    exact hex.sound
  · rw [Commander.getCluster_world]
    exact h.later.trans hex.later
  · rw [Commander.getCluster_sent]
    exact h.records.trans (List.prefix_append _ _)
  · rw [Commander.getCluster_unasked]
    exact h.unasked
  · intro k d hk hd
    rw [Commander.getCluster_world] at hd
    rcases hex.getElem? hd with hold | ⟨-, rfl⟩
    · exact .inl ((h.own k d hk hold).resolve_right fun hsome => hsome.1 hport)
    · exact .inl h.tracker

theorem During.requestInfo (net : Datagrams → NetTurn) (i : Nat) (h : During sc c cmd s t) :
    During sc c cmd s (Commander.requestInfo (Datagrams.env sc net) i t c) := by
  induction i generalizing t with
  | zero => exact h
  | succ i ih =>
      rw [Commander.requestInfo]
      split
      · rename_i hport
        exact ih (h.getCluster hport)
      · exact h

/-- The command was sent, to an address that is known. -/
theorem During.exchange (h : During sc c cmd s t) (hport : (t.clusters c).sin_port ≠ 0) :
    During sc c cmd s (t.exchange (Datagrams.env sc net) c (t.clusters c) cmd).2 := by
  have hex := Datagrams.exchanged net h.sound (t.clusters c) cmd
  refine ⟨h.tracker, hex.sound, h.later.trans hex.later, ?_, h.unasked, ?_⟩
  · rw [exchange_sent]
    exact h.records.trans (List.prefix_append _ _)
  · intro k d hk hd
    rcases hex.getElem? hd with hold | ⟨-, rfl⟩
    · exact h.own k d hk hold
    · exact .inr ⟨hport, rfl⟩

/-- Nobody knew the address. -/
theorem During.wait (h : During sc c cmd s t) :
    During sc c cmd s (t.wait (Datagrams.env sc net)).2 := by
  obtain ⟨hsound, hsent, hlater⟩ := Datagrams.waited net h.sound
  refine ⟨h.tracker, hsound, h.later.trans hlater, h.records,
    h.unasked.trans (List.prefix_append _ _), ?_⟩
  intro k d hk hd
  exact h.own k d hk (hsent ▸ hd)

theorem During.command (h : During sc c cmd s t) :
    During sc c cmd s (t.command (Datagrams.env sc net) c cmd).2 := by
  have hinfo := h.requestInfo net 3
  rw [Commander.command]
  split
  · exact hinfo.wait
  · rename_i hport
    exact hinfo.exchange hport

theorem During.retryCommand (net : Datagrams → NetTurn) (retry : Nat) (h : During sc c cmd s t) :
    During sc c cmd s (Commander.retryCommand (Datagrams.env sc net) retry t c cmd).2 := by
  induction retry generalizing t with
  | zero => exact h.command
  | succ retry ih =>
      rw [Commander.retryCommand]
      dsimp only
      split
      · exact h.command
      · exact ih h.command

/-! ## The `ACK` of a call that succeeds -/

/-- An `ACK` was read in a wait of the call, and what it answers has been executed. -/
def Acknowledged (sc : Scenario) (net : Datagrams → NetTurn) (c : ClusterID)
    (s t : Commander Datagrams) : Prop :=
  ∃ w ∈ awaited c s t, ∃ a, w.reading sc (net w) = some a
    ∧ a.text = "ACK".toList ∧ a.request ∈ t.world.executed

theorem During.acknowledged_command (h : During sc c cmd s t)
    (hack : (t.command (Datagrams.env sc net) c cmd).1 = "ACK".toList) :
    Acknowledged sc net c s (t.command (Datagrams.env sc net) c cmd).2 := by
  have hinfo := h.requestInfo net 3
  rw [Commander.command] at hack ⊢
  generalize Commander.requestInfo (Datagrams.env sc net) 3 t c = u at hinfo hack ⊢
  split at hack
  · rename_i hport
    rw [if_pos hport]
    obtain ⟨a, hread, htext, hexecuted⟩ := Datagrams.executed_of_ack hinfo.sound hack
    refine ⟨u.world, List.mem_append_right _ ?_, a, hread, htext, hexecuted⟩
    rw [Commander.wait, List.drop_append_of_le_length hinfo.unasked.length_le]
    exact List.mem_append_right _ (List.mem_singleton_self _)
  · rename_i hport
    rw [if_neg hport]
    obtain ⟨a, hread, htext, hexecuted⟩ :=
      Datagrams.executed_of_ack (hinfo.sound.write (u.clusters c) cmd) hack
    refine ⟨u.world.write (u.clusters c) cmd, List.mem_append_left _ ?_, a, hread, htext,
      hexecuted⟩
    rw [exchange_sent, List.drop_append_of_le_length hinfo.records.length_le]
    refine List.mem_map.mpr ⟨_, List.mem_filter.mpr
      ⟨List.mem_append_right _ (List.mem_singleton_self _), ?_⟩, rfl⟩
    exact decide_eq_true rfl

theorem During.acknowledged_retryCommand (net : Datagrams → NetTurn) (retry : Nat)
    (h : During sc c cmd s t)
    (hok : (Commander.retryCommand (Datagrams.env sc net) retry t c cmd).1 = true) :
    Acknowledged sc net c s (Commander.retryCommand (Datagrams.env sc net) retry t c cmd).2 := by
  induction retry generalizing t with
  | zero => exact h.acknowledged_command (of_decide_eq_true hok)
  | succ retry ih =>
      rw [Commander.retryCommand] at hok ⊢
      dsimp only at hok ⊢
      split
      · rename_i hack
        exact h.acknowledged_command hack
      · rename_i hack
        rw [if_neg hack] at hok
        exact ih h.command hok

/-! ## Calls one after another -/

/-- Between two calls. -/
def Idle (sc : Scenario) (s : Commander Datagrams) : Prop :=
  s.clusters trackerClusterId = sc.trackerAddr ∧ Datagrams.Sound sc s.world

theorem idle_call (s : Commander Datagrams) (c : ClusterID × List Char) (t : Commander Datagrams)
    (h : Idle sc s) (hs : s.call sc net c = some t) : Idle sc t := by
  cases hs
  have hcall := (During.refl c.1 c.2 h.1 h.2).retryCommand net commandRetryCount
  exact ⟨hcall.tracker, hcall.sound⟩

/-- One call. -/
theorem genuine_of_ownAcks (s : Commander Datagrams) (c : ClusterID × List Char)
    (h : Idle sc s) (hown : OwnAcks sc net s c) : Genuine sc net s c := by
  intro t ht
  have hstart : During sc c.1 c.2 s s := .refl c.1 c.2 h.1 h.2
  have hcall := hstart.retryCommand net commandRetryCount
  have hack := hstart.acknowledged_retryCommand net commandRetryCount
  rw [OwnAcks, ht] at hown
  rw [commandWithRetry] at ht
  rw [ht] at hcall hack
  obtain ⟨w, hw, a, hread, htext, hexecuted⟩ := hack rfl
  have hsince : s.world.sent.length ≤ a.request := hown w hw a hread htext
  -- what it answers is new, so it was executed in the call, and it is the command
  have hnew : a.request ∉ s.world.executed := fun hold =>
    absurd (h.2.executed_lt hold) (Nat.not_lt.mpr hsince)
  obtain ⟨d, hd, haddr⟩ := hcall.sound.executed _ hexecuted
  refine ⟨a.request, hcall.later.mem_drop hexecuted hnew, ?_⟩
  rw [hd, ((hcall.own _ d hsince hd).resolve_left haddr).2]

/-- In every sequence of calls, on every network: if each `ACK` that is read in a
call answers a datagram of that call, each call that succeeds was obeyed. -/
theorem acks_genuine {clusters : ClusterID → SockAddr} {world : World}
    {calls : List (ClusterID × List Char)}
    (htracker : clusters trackerClusterId = sc.trackerAddr)
    (hown : Run.Each (call sc net) (OwnAcks sc net) (onNetwork clusters world) calls) :
    Run.Each (call sc net) (Genuine sc net) (onNetwork clusters world) calls := by
  have hall : Run.Each (call sc net) (Genuine sc net) (onNetwork clusters world) calls
      ↔ Run.Each (call sc net) (fun _ _ => True) (onNetwork clusters world) calls :=
    Run.each_congr_of (fun s c t hI _ _ ht => idle_call s c t hI ht)
      (fun s c _ hI hA _ => iff_of_true (genuine_of_ownAcks s c hI hA) trivial)
      ⟨htracker, Datagrams.sound_start sc world⟩ hown
  exact hall.mpr fun _ _ _ _ _ _ => trivial

/-! ## Two calls -/

/-- The client knows where the clusters 1 and 2 are. -/
def knowsBoth (id : ClusterID) : SockAddr :=
  if id = 0 then Scenario.late.trackerAddr
  else if id = 1 then ⟨0x0100000A, 5000⟩ else ⟨0x0200000A, 5000⟩

/-- A connection for each of them. -/
def bothCalls : List (ClusterID × List Char) :=
  [(1, "CONNECT 5".toList), (2, "CONNECT 6".toList)]

/-- The first command arrives twice, its `ACK`s come one wait late, and the second
command is lost. -/
def lateAcks (w : Datagrams) : NetTurn :=
  match w.sent.length with
  | 1 => ⟨[0], none⟩
  | 2 => ⟨[1], some 0⟩
  | _ => ⟨[], some 1⟩

/-- The second `ACK` of the first cluster acknowledges the command to the
second, which never got it. -/
theorem lateAcks_not_genuine : ¬ Run.Each (call .late lateAcks) (Genuine .late lateAcks)
    (onNetwork knowsBoth twoClusters) bothCalls := by
  intro h
  obtain ⟨k, hk, -⟩ := h [(1, "CONNECT 5".toList)] (2, "CONNECT 6".toList) (List.prefix_refl _) _
    rfl rfl _ rfl
  exact List.not_mem_nil hk

/-- Nothing is lost or late: both connections are made. -/
theorem acks_genuine_prompt : Run.Each (call .late Datagrams.prompt)
    (Genuine .late Datagrams.prompt) (onNetwork knowsBoth twoClusters) bothCalls := by
  refine acks_genuine rfl ?_
  simp only [bothCalls, Run.each_cons]
  intro s₁ hs₁
  cases hs₁
  refine ⟨?_, ?_⟩
  · intro w hw a ha _
    obtain rfl := List.mem_singleton.mp hw
    cases ha
    exact Nat.le_refl 0
  intro s₂ hs₂
  cases hs₂
  refine ⟨?_, Run.each_nil⟩
  intro w hw a ha _
  obtain rfl := List.mem_singleton.mp hw
  cases ha
  exact Nat.le_refl 1

end Commander

end DistributAr
