/-
# `DistributAr.Datagrams` — the client on a network that loses datagrams

One socket serves the client for all clusters.  What it has written may reach its
addressee at any later time, several times, or never; the same goes for the
answers.  So the network is everything ever sent, and at each wait of the client
it picks what arrives and which answer the client reads.

The choice may depend on all that happened.  `prompt` is the one that delivers
each datagram at once and hands its answer back: there, the client meets what
`World.env` describes (`prompt_exchange`).

What the program does not keep is recorded: which datagram an answer belongs to, what
the network has delivered and let the client read, and which datagrams a server has
executed.
-/
import DistributAr.World

namespace DistributAr

open Lib

/-- A datagram of the client. -/
structure Datagram where
  addr : SockAddr
  cmd : List Char
deriving DecidableEq, Repr

/-- An answer to the client, with the position of the datagram it answers. -/
structure Answer where
  request : Nat
  text : List Char
deriving DecidableEq, Repr

/-- The tracker and the servers, the datagrams and the answers sent, what the client
read in the wait after which datagram, the positions of the datagrams that were
delivered, each as often as it was, and of those that a server executed. -/
structure Datagrams where
  world : World
  sent : List Datagram
  answers : List Answer
  heard : List (Nat × Answer)
  delivered : List Nat
  executed : List Nat

/-- What the network does while the client waits: the datagrams that arrive, and
the answer that the client reads. -/
structure NetTurn where
  arrive : List Nat
  read : Option Nat

namespace Datagrams

/-- Nothing was sent. -/
def start (world : World) : Datagrams := ⟨world, [], [], [], [], []⟩

variable (sc : Scenario) (net : Datagrams → NetTurn)

/-- An empty answer is not sent. -/
def answer (w : Datagrams) (k : Nat) (text : List Char) : Datagrams :=
  if text = [] then w else { w with answers := w.answers ++ [⟨k, text⟩] }

/-- The datagram in position `k` reaches the tracker, a server, or nobody. -/
def arrive (w : Datagrams) (k : Nat) : Datagrams :=
  match w.sent[k]? with
  | none => w
  | some d =>
      let w := { w with delivered := w.delivered ++ [k] }
      if d.addr = sc.trackerAddr then
        let (reply, world) := w.world.ask (sc.turn w.world.tick) sc.client d.cmd
        { w with world := world }.answer k reply
      else if (w.world.ids d.addr).isSome then
        let (reply, world) := w.world.deliver sc d.addr d.cmd
        { w with world := world, executed := w.executed ++ [k] }.answer k reply
      else w

/-- `udp.Write` -/
def write (w : Datagrams) (addr : SockAddr) (cmd : List Char) : Datagrams :=
  { w with sent := w.sent ++ [⟨addr, cmd⟩] }

/-- What the network delivers. -/
def wait (turn : NetTurn) (w : Datagrams) : Datagrams := turn.arrive.foldl (arrive sc) w

/-- The answer that the client reads, if any. -/
def reading (turn : NetTurn) (w : Datagrams) : Option Answer :=
  turn.read.bind fun i => (w.wait sc turn).answers[i]?

/-- The servers register, and time goes on. -/
def pass (w : Datagrams) : Datagrams := { w with world := w.world.pass sc }

/-- The text that `waitReply` returns, and what has happened when it does. -/
def waitReply (w : Datagrams) : List Char × Datagrams :=
  (((w.reading sc (net w)).map Answer.text).getD [], (w.wait sc (net w)).pass sc)

/-- The environment of the client. -/
def env : Env Datagrams where
  exchange w addr cmd :=
    let u := w.write addr cmd
    let (reply, w') := u.waitReply sc net
    let heard := (u.reading sc (net u)).map fun a => (w.sent.length, a)
    (reply, { w' with heard := w'.heard ++ heard.toList })
  wait w := w.waitReply sc net
  sleep w := (w.wait sc (net w)).pass sc
  localIP := sc.localIP
  garbage _ := sc.garbage

/-- Every datagram arrives at once, and so does its answer. -/
def prompt (w : Datagrams) : NetTurn := ⟨[w.sent.length - 1], some w.answers.length⟩

variable {sc net} {w : Datagrams} {addr : SockAddr} {cmd : List Char} {k : Nat}

theorem answer_eq (w : Datagrams) (k : Nat) (text : List Char) : w.answer k text
    = { w with answers := w.answers ++ if text = [] then [] else [⟨k, text⟩] } := by
  unfold answer
  split
  · rw [List.append_nil]
  · rfl

/-- What an arrival does to the datagram in position `k`: there is none, the tracker
answers, a server executes it, or nobody notices. -/
theorem arrive_cases (sc : Scenario) (w : Datagrams) (k : Nat) :
    w.arrive sc k = w ∨ ∃ d, w.sent[k]? = some d ∧
      ((d.addr = sc.trackerAddr ∧ w.arrive sc k =
        ({ w with
          world := (w.world.ask (sc.turn w.world.tick) sc.client d.cmd).2
          delivered := w.delivered ++ [k] }).answer k
            (w.world.ask (sc.turn w.world.tick) sc.client d.cmd).1) ∨
      (d.addr ≠ sc.trackerAddr ∧ (w.world.ids d.addr).isSome ∧ w.arrive sc k =
        ({ w with
          world := (w.world.deliver sc d.addr d.cmd).2
          delivered := w.delivered ++ [k]
          executed := w.executed ++ [k] }).answer k (w.world.deliver sc d.addr d.cmd).1) ∨
      (d.addr ≠ sc.trackerAddr ∧ w.world.ids d.addr = none ∧
        w.arrive sc k = { w with delivered := w.delivered ++ [k] })) := by
  unfold arrive
  cases hsent : w.sent[k]? with
  | none => exact .inl rfl
  | some d =>
      refine .inr ⟨d, rfl, ?_⟩
      dsimp only
      split
      · rename_i htracker
        exact .inl ⟨htracker, rfl⟩
      split
      · rename_i htracker hserver
        exact .inr (.inl ⟨htracker, hserver, rfl⟩)
      · rename_i htracker hserver
        exact .inr (.inr ⟨htracker, Option.not_isSome_iff_eq_none.mp hserver, rfl⟩)

/-- On a prompt network the client meets the world itself. -/
theorem prompt_exchange (sc : Scenario) (w : Datagrams) (addr : SockAddr) (cmd : List Char) :
    ((env sc prompt).exchange w addr cmd).1 = ((World.env sc).exchange w.world addr cmd).1
      ∧ ((env sc prompt).exchange w addr cmd).2.world
        = ((World.env sc).exchange w.world addr cmd).2 := by
  have hlast : (w.write addr cmd).sent[w.sent.length]? = some ⟨addr, cmd⟩ := by
    rw [write, List.getElem?_append_right (Nat.le_refl _), Nat.sub_self]
    rfl
  have hturn : prompt (w.write addr cmd) = ⟨[w.sent.length], some w.answers.length⟩ := by
    rw [prompt, write, List.length_append]
    rfl
  have hread : ∀ reply : List Char,
      (((w.answers ++ if reply = [] then [] else [⟨w.sent.length, reply⟩])[w.answers.length]?).map
        Answer.text).getD [] = reply := by
    intro reply
    rw [List.getElem?_append_right (Nat.le_refl _), Nat.sub_self]
    split
    · rename_i hempty
      exact hempty.symm
    · rfl
  simp only [env, waitReply, reading, wait, hturn, List.foldl_cons, List.foldl_nil,
    Option.bind_some, pass, World.env]
  unfold arrive
  rw [hlast]
  dsimp only
  split
  · rw [answer_eq]
    exact ⟨hread _, rfl⟩
  · split
    · rw [answer_eq]
      exact ⟨hread _, rfl⟩
    · rename_i hnobody
      have hnone : w.world.ids addr = none := Option.not_isSome_iff_eq_none.mp hnobody
      have hsilent : w.world.deliver sc addr cmd = ([], w.world) := by
        rw [World.deliver, hnone]
      rw [hsilent]
      refine ⟨?_, rfl⟩
      have hold : (w.write addr cmd).answers[w.answers.length]? = none := by
        rw [write]
        exact List.getElem?_eq_none (Nat.le_refl _)
      rw [hold]
      rfl

/-! ## What never gets lost -/

/-- Nothing sent or executed is forgotten, and the wait after a datagram comes once. -/
structure Later (w w' : Datagrams) : Prop where
  sent : w.sent <+: w'.sent
  heard : ∀ p ∈ w'.heard, p.1 < w.sent.length → p ∈ w.heard
  executed : w.executed <+: w'.executed

theorem Later.refl (w : Datagrams) : Later w w :=
  ⟨List.prefix_refl _, fun _ h _ => h, List.prefix_refl _⟩

theorem Later.trans {w₁ w₂ w₃ : Datagrams} (h : Later w₁ w₂) (h' : Later w₂ w₃) : Later w₁ w₃ where
  sent := h.sent.trans h'.sent
  heard p hp hlt := h.heard p (h'.heard p hp (hlt.trans_le h.sent.length_le)) hlt
  executed := h.executed.trans h'.executed

/-- A datagram stays where it is. -/
theorem Later.getElem? {w w' : Datagrams} (h : Later w w') {d : Datagram}
    (hd : w.sent[k]? = some d) : w'.sent[k]? = some d := by
  obtain ⟨rest, hrest⟩ := h.sent
  obtain ⟨hlt, -⟩ := List.getElem?_eq_some_iff.mp hd
  rw [← hrest, List.getElem?_append_left hlt]
  exact hd

theorem Later.getElem?_of_lt {w w' : Datagrams} (h : Later w w') (hk : k < w.sent.length)
    {d : Datagram} (hd : w'.sent[k]? = some d) : w.sent[k]? = some d := by
  rw [List.getElem?_eq_getElem hk]
  exact (h.getElem? (List.getElem?_eq_getElem hk)).symm.trans hd

/-- What a server executed since then. -/
theorem Later.mem_drop {w w' : Datagrams} (h : Later w w') (hk : k ∈ w'.executed)
    (hnew : k ∉ w.executed) : k ∈ w'.executed.drop w.executed.length := by
  obtain ⟨rest, hrest⟩ := h.executed
  rw [← hrest] at hk ⊢
  rw [List.drop_left]
  exact (List.mem_append.mp hk).resolve_left hnew

/-- What holds in every state: servers execute what was sent to them, only executed
datagrams are answered `ACK`, and the client waits after what it has sent. -/
structure Sound (sc : Scenario) (w : Datagrams) : Prop where
  executed : ∀ k ∈ w.executed, ∃ d, w.sent[k]? = some d ∧ d.addr ≠ sc.trackerAddr
  acks : ∀ a ∈ w.answers, a.text = "ACK".toList → a.request ∈ w.executed
  heard : ∀ p ∈ w.heard, p.1 < w.sent.length

theorem sound_start (sc : Scenario) (world : World) : Sound sc (start world) where
  executed _ h := absurd h List.not_mem_nil
  acks _ h := absurd h List.not_mem_nil
  heard _ h := absurd h List.not_mem_nil

theorem Sound.executed_lt (h : Sound sc w) (hk : k ∈ w.executed) : k < w.sent.length := by
  obtain ⟨d, hd, -⟩ := h.executed k hk
  exact (List.getElem?_eq_some_iff.mp hd).1

theorem later_write (w : Datagrams) (addr : SockAddr) (cmd : List Char) :
    Later w (w.write addr cmd) :=
  ⟨List.prefix_append _ _, fun _ h _ => h, List.prefix_refl _⟩

theorem Sound.write (h : Sound sc w) (addr : SockAddr) (cmd : List Char) :
    Sound sc (w.write addr cmd) := by
  refine ⟨?_, h.acks, ?_⟩
  · intro k hk
    obtain ⟨d, hd, haddr⟩ := h.executed k hk
    exact ⟨d, (later_write w addr cmd).getElem? hd, haddr⟩
  · intro p hp
    exact (h.heard p hp).trans_le (later_write w addr cmd).sent.length_le

theorem ask_ne_ack (world : World) (turn : Turn) (sender : SockAddr) (cmd : List Char) :
    (world.ask turn sender cmd).1 ≠ "ACK".toList := by
  rw [World.ask, Tracker.iteration]
  cases Command.parse turn.garbage cmd with
  | none =>
      intro h
      cases h
  | some c =>
      dsimp only
      rw [getD_sendCommand]
      exact Reply.text_ne_ack _

/-- An arrival, whatever comes of it. -/
theorem arrive_spec (h : Sound sc w) (k : Nat) :
    Sound sc (w.arrive sc k) ∧ (w.arrive sc k).sent = w.sent
      ∧ (w.arrive sc k).heard = w.heard ∧ w.executed <+: (w.arrive sc k).executed := by
  obtain he | ⟨d, hd, ⟨-, he⟩ | ⟨haddr, -, he⟩ | ⟨-, -, he⟩⟩ := arrive_cases sc w k
  · rw [he]
    exact ⟨h, rfl, rfl, List.prefix_refl _⟩
  · rw [he, answer_eq]
    refine ⟨⟨h.executed, ?_, h.heard⟩, rfl, rfl, List.prefix_refl _⟩
    intro a ha hack
    rcases List.mem_append.mp ha with hold | hnew
    · exact h.acks a hold hack
    · split at hnew
      · exact absurd hnew List.not_mem_nil
      · rw [List.mem_singleton.mp hnew] at hack
        exact absurd hack (ask_ne_ack _ _ _ _)
  · rw [he, answer_eq]
    refine ⟨⟨?_, ?_, h.heard⟩, rfl, rfl, List.prefix_append _ _⟩
    · intro j hj
      rcases List.mem_append.mp hj with hold | hnew
      · exact h.executed j hold
      · obtain rfl := List.mem_singleton.mp hnew
        exact ⟨d, hd, haddr⟩
    · intro a ha hack
      rcases List.mem_append.mp ha with hold | hnew
      · exact List.mem_append_left _ (h.acks a hold hack)
      · split at hnew
        · exact absurd hnew List.not_mem_nil
        · rw [List.mem_singleton.mp hnew]
          exact List.mem_append_right _ (List.mem_singleton_self k)
  · rw [he]
    exact ⟨⟨h.executed, h.acks, h.heard⟩, rfl, rfl, List.prefix_refl _⟩

theorem wait_spec (turn : NetTurn) (h : Sound sc w) : Sound sc (w.wait sc turn)
    ∧ (w.wait sc turn).sent = w.sent ∧ (w.wait sc turn).heard = w.heard
    ∧ w.executed <+: (w.wait sc turn).executed := by
  unfold wait
  induction turn.arrive generalizing w with
  | nil => exact ⟨h, rfl, rfl, List.prefix_refl _⟩
  | cons k ks ih =>
      obtain ⟨hsound, hsent, hheard, hexecuted⟩ := arrive_spec h k
      obtain ⟨hsound', hsent', hheard', hexecuted'⟩ := ih hsound
      exact ⟨hsound', hsent'.trans hsent, hheard'.trans hheard, hexecuted.trans hexecuted'⟩

/-- The client waits with nothing sent. -/
theorem waited (net : Datagrams → NetTurn) (h : Sound sc w) :
    Sound sc (w.waitReply sc net).2 ∧ (w.waitReply sc net).2.sent = w.sent
      ∧ Later w (w.waitReply sc net).2 := by
  obtain ⟨hsound, hsent, hheard, hexecuted⟩ := wait_spec (net w) h
  exact ⟨⟨hsound.executed, hsound.acks, hsound.heard⟩, hsent,
    hsent.symm ▸ List.prefix_refl _, fun p hp _ => hheard ▸ hp, hexecuted⟩

/-- What the client can rely on when it has sent a datagram and waited. -/
structure Exchanged (sc : Scenario) (net : Datagrams → NetTurn) (w w' : Datagrams)
    (d : Datagram) : Prop where
  sound : Sound sc w'
  sent : w'.sent = w.sent ++ [d]
  heard : ∀ p ∈ w'.heard, p ∈ w.heard ∨ p.1 = w.sent.length
    ∧ (w.write d.addr d.cmd).reading sc (net (w.write d.addr d.cmd)) = some p.2
  executed : w.executed <+: w'.executed

theorem exchanged (net : Datagrams → NetTurn) (h : Sound sc w) (addr : SockAddr) (cmd : List Char) :
    Exchanged sc net w ((env sc net).exchange w addr cmd).2 ⟨addr, cmd⟩ := by
  obtain ⟨hsound, hsent, hheard, hexecuted⟩ :=
    wait_spec (net (w.write addr cmd)) (h.write addr cmd)
  have hmem : ∀ p ∈ ((env sc net).exchange w addr cmd).2.heard, p ∈ w.heard ∨
      p.1 = w.sent.length ∧ (w.write addr cmd).reading sc (net (w.write addr cmd)) = some p.2 := by
    intro p hp
    rcases List.mem_append.mp hp with hold | hnew
    · exact .inl (hheard ▸ hold)
    · obtain ⟨a, ha, rfl⟩ := Option.map_eq_some_iff.mp (Option.mem_toList.mp hnew)
      exact .inr ⟨rfl, ha⟩
  refine ⟨⟨hsound.executed, hsound.acks, ?_⟩, hsent, hmem, hexecuted⟩
  intro p hp
  have hlen : ((env sc net).exchange w addr cmd).2.sent.length = w.sent.length + 1 :=
    (congrArg List.length hsent).trans List.length_append
  rw [hlen]
  rcases hmem p hp with hold | ⟨hpos, -⟩
  · exact (h.heard p hold).trans (Nat.lt_succ_self _)
  · exact hpos ▸ Nat.lt_succ_self _

theorem Exchanged.later {w' : Datagrams} {d : Datagram} (h : Exchanged sc net w w' d) :
    Later w w' where
  sent := h.sent ▸ List.prefix_append _ _
  heard p hp hlt := (h.heard p hp).resolve_right fun hnew => hlt.ne hnew.1
  executed := h.executed

/-- The datagrams after an exchange are those before it, and the new one. -/
theorem Exchanged.getElem? {w' : Datagrams} {d e : Datagram} (h : Exchanged sc net w w' d)
    (he : w'.sent[k]? = some e) : w.sent[k]? = some e ∨ k = w.sent.length ∧ e = d := by
  rw [h.sent] at he
  rcases Nat.lt_or_ge k w.sent.length with hlt | hge
  · rw [List.getElem?_append_left hlt] at he
    exact .inl he
  · rw [List.getElem?_append_right hge] at he
    obtain ⟨hlt, hget⟩ := List.getElem?_eq_some_iff.mp he
    rw [List.length_singleton] at hlt
    obtain rfl : k = w.sent.length := by omega
    refine .inr ⟨rfl, ?_⟩
    rw [← hget]
    simp only [Nat.sub_self, List.getElem_cons_zero]

/-- An `ACK` that the client reads answers a datagram that a server has
executed. -/
theorem executed_of_ack (h : Sound sc w) (hack : (w.waitReply sc net).1 = "ACK".toList) :
    ∃ a, w.reading sc (net w) = some a ∧ a.text = "ACK".toList
      ∧ a.request ∈ (w.waitReply sc net).2.executed := by
  obtain ⟨hsound, -⟩ := wait_spec (net w) h
  cases hread : w.reading sc (net w) with
  | none =>
      simp only [waitReply, hread] at hack
      cases hack
  | some a =>
      simp only [waitReply, hread] at hack
      obtain ⟨i, -, hi⟩ := Option.bind_eq_some_iff.mp hread
      exact ⟨a, rfl, hack, hsound.acks a (List.mem_of_getElem? hi) hack⟩

end Datagrams

end DistributAr
