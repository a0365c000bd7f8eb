/-
# `DistributAr.Assignment` — the protocol that gives servers their IDs

Servers start with the ID 0 and keep telling the tracker their ID; the tracker
answers an `ID 0` with a `RUN`.  The network is the set of all datagrams ever
sent: any of them may be delivered at any time, again, or never, so loss,
duplication, delay and reordering need no steps of their own.

The argument rests on one value that no party keeps, the owners of the IDs: `n`
is owned by the address that the tracker took it off its counter for.  Owners
are only ever added, and everything in the system agrees with them (`Inv`): the
map of the tracker, the IDs of the servers and every datagram on its way.
-/
import DistributAr.ServerCommand
import DistributAr.Freshness
import DistributAr.Lib.System
import Mathlib.Data.Set.Insert

namespace DistributAr

open Lib Server

/-- Who takes part: the servers, the time server at an address of its own, and
the library of the clusters. -/
structure Parties where
  servers : Set SockAddr
  timeServer : SockAddr
  apart : timeServer ∉ servers
  command : List Char → List Char

/-- The tracker, the ID of the cluster at each address, and all datagrams sent so
far, to the tracker with their sender and to the servers with their receiver. -/
structure Protocol where
  tracker : Tracker
  ids : SockAddr → ClusterID
  toTracker : Set (SockAddr × List Char)
  toServers : Set (SockAddr × List Char)

namespace Protocol

/-- The steps of the parties, in any order. -/
inductive Step (P : Parties) : Protocol → Protocol → Prop
  /-- `requestIdFromTracker` -/
  | requestId {p : Protocol} (a : SockAddr) :
      a ∈ P.servers →
      Step P p { p with toTracker := insert (a, requestIdFromTracker (p.ids a)) p.toTracker }
  /-- `TimeServ::run` registers the time server. -/
  | registerTimeServer {p : Protocol} :
      Step P p { p with
        toTracker := insert (P.timeServer, (Command.id timeServerId).text) p.toTracker }
  /-- A client asks for an address or for the list. -/
  | query {p : Protocol} (client : SockAddr) (cmd : Command) :
      client ∉ P.servers → cmd = .list ∨ (∃ n, cmd = .get n) →
      Step P p { p with toTracker := insert (client, cmd.text) p.toTracker }
  /-- The tracker takes a datagram.  It never assigns `TIME_SERVER_ID`. -/
  | track {p : Protocol} (turn : Turn) (a : SockAddr) (buff : List Char) :
      (a, buff) ∈ p.toTracker →
      ((p.tracker.iteration turn a buff).1.next ≠ p.tracker.next →
        p.tracker.next ≠ timeServerId) →
      Step P p { p with
        tracker := (p.tracker.iteration turn a buff).1
        toServers := {d | ∃ reply, (p.tracker.iteration turn a buff).2 = some reply
          ∧ d = (a, reply)} ∪ p.toServers }
  /-- `processCommands`: a server takes a datagram and answers the tracker. -/
  | processCommands {p : Protocol} (garbage : ClusterID) (a : SockAddr) (buff : List Char)
      {id : ClusterID} {reply : List Char} :
      a ∈ P.servers → (a, buff) ∈ p.toServers →
      parseCommand P.command garbage (p.ids a) buff = some (id, reply) →
      Step P p { p with
        ids := Function.update p.ids a id
        toTracker := insert (a, reply) p.toTracker }

/-- Everything has just been started. -/
def Initial (p : Protocol) : Prop := p = ⟨.new, fun _ => 0, ∅, ∅⟩

def system (P : Parties) : System Protocol where
  init := Initial
  step := Step P

/-! ## The invariant -/

/-- `(n, a)`: the tracker took `n` off its counter for `a`. -/
abbrev Owners := Set (ClusterID × SockAddr)

/-- What a datagram from `a` to the tracker may say. -/
def Sound (P : Parties) (owners : Owners) (a : SockAddr) : Command → Prop
  | .id n => n = 0 ∧ a ∈ P.servers ∨ n = timeServerId ∧ a = P.timeServer ∨ (n, a) ∈ owners
  | .get _ => a ∉ P.servers
  | .list => a ∉ P.servers
  | .ack => True

/-- Everything agrees with the owners. -/
structure Inv (P : Parties) (owners : Owners) (p : Protocol) : Prop where
  unique : ∀ n a b, (n, a) ∈ owners → (n, b) ∈ owners → a = b
  server : ∀ n a, (n, a) ∈ owners → a ∈ P.servers
  assigned : ∀ n a, (n, a) ∈ owners → n ≠ 0 ∧ n < p.tracker.next
  next : p.tracker.next ≠ 0
  map : ∀ n a, p.tracker.clusters.lookup n = some a →
    n = timeServerId ∧ a = P.timeServer ∨ (n, a) ∈ owners
  ids : ∀ a, p.ids a ≠ 0 → (p.ids a, a) ∈ owners
  toTracker : ∀ a buff, (a, buff) ∈ p.toTracker → ∃ cmd, buff = cmd.text ∧ Sound P owners a cmd
  toServers : ∀ a buff, (a, buff) ∈ p.toServers → a ∈ P.servers →
    ∃ n, buff = (Reply.run n).text ∧ (n, a) ∈ owners

variable {P : Parties} {owners : Owners} {p q : Protocol}

theorem Sound.mono {owners' : Owners} (hle : owners ≤ owners') {a : SockAddr} {cmd : Command}
    (h : Sound P owners a cmd) : Sound P owners' a cmd := by
  cases cmd with
  | id n =>
      rcases h with hzero | htime | howner
      · exact .inl hzero
      · exact .inr (.inl htime)
      · exact .inr (.inr (hle howner))
  | get n => exact h
  | list => exact h
  | ack => exact h

/-- A sound datagram to the tracker may be sent at any time. -/
theorem Inv.send (hinv : Inv P owners p) {a : SockAddr} (cmd : Command)
    (hcmd : Sound P owners a cmd) :
    Inv P owners { p with toTracker := insert (a, cmd.text) p.toTracker } where
  unique := hinv.unique
  server := hinv.server
  assigned := hinv.assigned
  next := hinv.next
  map := hinv.map
  ids := hinv.ids
  toTracker := fun b buff h => by
    rcases h with heq | hold
    · cases heq
      exact ⟨cmd, rfl, hcmd⟩
    · exact hinv.toTracker b buff hold
  toServers := hinv.toServers

/-- The tracker takes a datagram that is no assignment: its counter stays, what
it registers is owned, and so is every ID it sends to a server. -/
theorem Inv.track (hinv : Inv P owners p) {t : Tracker} {a : SockAddr}
    {out : Option (List Char)} (hnext : t.next = p.tracker.next)
    (hmap : ∀ n b, t.clusters.lookup n = some b → p.tracker.clusters.lookup n = some b
      ∨ n = timeServerId ∧ b = P.timeServer ∨ (n, b) ∈ owners)
    (hout : ∀ reply, out = some reply → a ∈ P.servers →
      ∃ n, reply = (Reply.run n).text ∧ (n, a) ∈ owners) :
    Inv P owners { p with
      tracker := t
      toServers := {d | ∃ reply, out = some reply ∧ d = (a, reply)} ∪ p.toServers } where
  unique := hinv.unique
  server := hinv.server
  assigned := fun n b h => by
    show n ≠ 0 ∧ n < t.next
    rw [hnext]
    exact hinv.assigned n b h
  next := hnext ▸ hinv.next
  map := fun n b h => by
    rcases hmap n b h with hold | hnew
    · exact hinv.map n b hold
    · exact hnew
  ids := hinv.ids
  toTracker := hinv.toTracker
  toServers := fun b buff h hb => by
    rcases h with ⟨reply, hreply, heq⟩ | hold
    · cases heq
      exact hout _ hreply hb
    · exact hinv.toServers b buff hold hb

/-- What an `ID` registers without an assignment is the time server, or owned. -/
theorem Inv.registered (hinv : Inv P owners p) {turn : Turn} {a : SockAddr} {newId : ClusterID}
    (hcmd : Sound P owners a (.id newId))
    (hassign : ¬ (newId = 0 ∧ p.tracker.findByValue turn.order a = 0)) :
    p.tracker.registeredId turn a newId = timeServerId ∧ a = P.timeServer
      ∨ (p.tracker.registeredId turn a newId, a) ∈ owners := by
  unfold Tracker.registeredId
  by_cases hzero : newId = 0
  · have hfind : p.tracker.findByValue turn.order a ≠ 0 := fun h => hassign ⟨hzero, h⟩
    rw [if_neg fun h => h hzero, if_neg hfind]
    exact hinv.map _ a (Tracker.lookup_findByValue hfind)
  · rw [if_pos hzero]
    rcases hcmd with ⟨h, -⟩ | htime | howner
    · exact absurd h hzero
    · exact .inl htime
    · exact .inr howner

/-- The tracker takes an `ID 0` from a server it does not know: the server
becomes the owner of the next ID. -/
theorem Inv.assign (hinv : Inv P owners p) {a : SockAddr} (ha : a ∈ P.servers) {turn : Turn}
    (hfind : p.tracker.findByValue turn.order a = 0) (hlimit : p.tracker.next ≠ timeServerId) :
    Inv P (insert (p.tracker.next, a) owners) { p with
      tracker := (p.tracker.handle turn a (.id 0)).1
      toServers := {d | ∃ reply,
        sendCommand (p.tracker.handle turn a (.id 0)).2.text = some reply ∧ d = (a, reply)}
          ∪ p.toServers } := by
  have hlt := Tracker.lt_succ_of_ne_timeServerId hlimit
  have hfresh : ∀ b, (p.tracker.next, b) ∉ owners := fun b hb =>
    UInt32.lt_irrefl _ (hinv.assigned _ b hb).2
  have hnext : (p.tracker.handle turn a (.id 0)).1.next = p.tracker.next + 1 :=
    Tracker.next_handleId.trans (if_pos ⟨rfl, hfind⟩)
  have hid : p.tracker.registeredId turn a 0 = p.tracker.next := by
    simp [Tracker.registeredId, hfind]
  have hreply : (p.tracker.handle turn a (.id 0)).2 = .run p.tracker.next := by
    show (p.tracker.handleId turn a 0).2 = _
    rw [Tracker.reply_handleId, if_pos rfl, hid]
  have hle : owners ≤ insert (p.tracker.next, a) owners := Set.subset_insert _ _
  constructor
  · rintro n b c (hb | hb) (hc | hc)
    · cases hb
      cases hc
      rfl
    · cases hb
      exact absurd hc (hfresh c)
    · cases hc
      exact absurd hb (hfresh b)
    · exact hinv.unique n b c hb hc
  · rintro n b (hb | hb)
    · cases hb
      exact ha
    · exact hinv.server n b hb
  · rintro n b (hb | hb)
    · cases hb
      exact ⟨hinv.next, hnext ▸ hlt⟩
    · obtain ⟨hne, hn⟩ := hinv.assigned n b hb
      exact ⟨hne, hnext ▸ UInt32.lt_trans hn hlt⟩
  · show (p.tracker.handle turn a (.id 0)).1.next ≠ 0
    rw [hnext]
    intro hzero
    rw [hzero] at hlt
    exact absurd hlt (UInt32.not_lt.mpr (UInt32.le_iff_toNat_le.mpr (Nat.zero_le _)))
  · intro n b h
    rcases Tracker.lookup_handle h with hold | ⟨newId, hcmd, hn, hb⟩
    · exact (hinv.map n b hold).imp_right fun howner => hle howner
    · cases hcmd
      rw [hn, hb, hid]
      exact .inr (Set.mem_insert _ _)
  · exact fun b hb => hle (hinv.ids b hb)
  · intro b buff h
    obtain ⟨cmd, htext, hcmd⟩ := hinv.toTracker b buff h
    exact ⟨cmd, htext, hcmd.mono hle⟩
  · rintro b buff (⟨reply, hsent, heq⟩ | hold) hb
    · cases heq
      rw [hreply] at hsent
      exact ⟨p.tracker.next, eq_of_sendCommand hsent, Set.mem_insert _ _⟩
    · obtain ⟨n, htext, howner⟩ := hinv.toServers b buff hold hb
      exact ⟨n, htext, hle howner⟩

/-- The tracker takes an `ID`, whether or not it has to assign one. -/
theorem Inv.trackId (hinv : Inv P owners p) {turn : Turn} {a : SockAddr} {newId : ClusterID}
    (hcmd : Sound P owners a (.id newId))
    (hlimit : (p.tracker.handle turn a (.id newId)).1.next ≠ p.tracker.next →
      p.tracker.next ≠ timeServerId) :
    ∃ owners', owners ≤ owners' ∧ Inv P owners' { p with
      tracker := (p.tracker.handle turn a (.id newId)).1
      toServers := {d | ∃ reply,
        sendCommand (p.tracker.handle turn a (.id newId)).2.text = some reply ∧ d = (a, reply)}
          ∪ p.toServers } := by
  by_cases hassign : newId = 0 ∧ p.tracker.findByValue turn.order a = 0
  · obtain ⟨rfl, hfind⟩ := hassign
    have hnext : (p.tracker.handle turn a (.id 0)).1.next = p.tracker.next + 1 :=
      Tracker.next_handleId.trans (if_pos ⟨rfl, hfind⟩)
    have ha : a ∈ P.servers := by
      rcases hcmd with ⟨-, ha⟩ | ⟨hzero, -⟩ | howner
      · exact ha
      · exact absurd hzero (by decide)
      · exact absurd rfl (hinv.assigned 0 a howner).1
    refine ⟨_, Set.subset_insert _ _, hinv.assign ha hfind (hlimit ?_)⟩
    rw [hnext]
    simp
  · have howner := hinv.registered hcmd hassign
    refine ⟨owners, le_refl _, hinv.track (Tracker.next_handleId.trans (if_neg hassign)) ?_ ?_⟩
    · intro n b h
      rcases Tracker.lookup_handle h with hold | ⟨newId', hid, rfl, rfl⟩
      · exact .inl hold
      · cases hid
        exact .inr howner
    · intro reply hsent ha
      change sendCommand (p.tracker.handleId turn a newId).2.text = some reply at hsent
      rw [Tracker.reply_handleId] at hsent
      split at hsent
      · rcases howner with ⟨-, htime⟩ | howner
        · exact absurd (htime ▸ ha) P.apart
        · exact ⟨_, eq_of_sendCommand hsent, howner⟩
      · cases hsent

/-- The tracker takes anything else: it registers nothing, and no server is
answered. -/
theorem Inv.trackOther (hinv : Inv P owners p) {turn : Turn} {a : SockAddr} {cmd : Command}
    (hcmd : Sound P owners a cmd) (hid : ∀ n, cmd ≠ .id n) :
    Inv P owners { p with
      tracker := (p.tracker.handle turn a cmd).1
      toServers := {d | ∃ reply,
        sendCommand (p.tracker.handle turn a cmd).2.text = some reply ∧ d = (a, reply)}
          ∪ p.toServers } := by
  refine hinv.track ?_ ?_ ?_
  · rcases Tracker.next_handle p.tracker turn a cmd with hsame | ⟨heq, -, -⟩
    · exact hsame
    · exact absurd heq (hid _)
  · intro n b h
    rcases Tracker.lookup_handle h with hold | ⟨newId, heq, -, -⟩
    · exact .inl hold
    · exact absurd heq (hid newId)
  · intro reply hsent ha
    cases cmd with
    | id n => exact absurd rfl (hid n)
    | get what => exact absurd ha hcmd
    | list => exact absurd ha hcmd
    | ack => nomatch hsent

/-- A server takes the ID that it has been sent, and answers. -/
theorem Inv.run (hinv : Inv P owners p) {a : SockAddr} {n : ClusterID} (howner : (n, a) ∈ owners) :
    Inv P owners { p with
      ids := Function.update p.ids a n
      toTracker := insert (a, Command.ack.text) p.toTracker } := by
  have hack := hinv.send (a := a) .ack trivial
  refine { hack with ids := ?_ }
  intro b hb
  by_cases hba : b = a
  · subst hba
    simpa using howner
  · have hother : Function.update p.ids a n b = p.ids b := Function.update_of_ne hba ..
    dsimp only at hb ⊢
    rw [hother] at hb ⊢
    exact hinv.ids b hb

/-- One step keeps the invariant, with owners added at most. -/
theorem inv_step (owners : Owners) (p q : Protocol) (hinv : Inv P owners p) (h : Step P p q) :
    ∃ owners', owners ≤ owners' ∧ Inv P owners' q := by
  cases h with
  | requestId a ha =>
      refine ⟨owners, le_refl _, hinv.send (.id (p.ids a)) ?_⟩
      by_cases hzero : p.ids a = 0
      · exact .inl ⟨hzero, ha⟩
      · exact .inr (.inr (hinv.ids a hzero))
  | registerTimeServer =>
      exact ⟨owners, le_refl _, hinv.send (.id timeServerId) (.inr (.inl ⟨rfl, rfl⟩))⟩
  | query client cmd hclient hcmd =>
      refine ⟨owners, le_refl _, hinv.send cmd ?_⟩
      rcases hcmd with rfl | ⟨n, rfl⟩
      · exact hclient
      · exact hclient
  | track turn a buff hmem hlimit =>
      obtain ⟨cmd, rfl, hcmd⟩ := hinv.toTracker a buff hmem
      rw [Tracker.iteration_text] at hlimit ⊢
      by_cases hid : ∃ n, cmd = .id n
      · obtain ⟨newId, rfl⟩ := hid
        exact hinv.trackId hcmd hlimit
      · exact ⟨owners, le_refl _, hinv.trackOther hcmd (not_exists.mp hid)⟩
  | processCommands garbage a buff ha hmem hparse =>
      obtain ⟨n, rfl, howner⟩ := hinv.toServers a buff hmem ha
      rw [parseCommand_run] at hparse
      cases hparse
      exact ⟨owners, le_refl _, hinv.run howner⟩

theorem inv_initial (h : Initial p) : Inv P ∅ p := by
  subst h
  constructor
  · exact fun _ _ _ h => absurd h (Set.notMem_empty _)
  · exact fun _ _ h => absurd h (Set.notMem_empty _)
  · exact fun _ _ h => absurd h (Set.notMem_empty _)
  · decide
  · exact fun n a h => nomatch h
  · exact fun _ h => absurd rfl h
  · exact fun _ _ h => absurd h (Set.notMem_empty _)
  · exact fun _ _ h => absurd h (Set.notMem_empty _)

theorem inv_reachable (h : (system P).Reachable p) : ∃ owners, Inv P owners p :=
  h.ghost (fun _ hinit => ⟨∅, inv_initial hinit⟩) inv_step

/-! ## Agreement -/

/-- In every reachable state no two servers have the same ID, and what the
tracker maps later on, but for the time server, nobody else has ever had. -/
theorem assignment_agreement (P : Parties) (p q : Protocol) (hp : (system P).Reachable p)
    (hq : (system P).Steps p q) :
    (∀ a b, p.ids a ≠ 0 → p.ids a = p.ids b → a = b)
      ∧ ∀ n a b, n ≠ timeServerId → q.tracker.clusters.lookup n = some a → p.ids b = n →
        b = a := by
  obtain ⟨owners, hinv⟩ := inv_reachable hp
  constructor
  · intro a b ha hab
    have howner := hinv.ids b (hab ▸ ha)
    exact hinv.unique _ a b (hinv.ids a ha) (hab ▸ howner)
  · rintro n a b hn hmap rfl
    obtain ⟨owners', hle, hinv'⟩ := hq.ghost inv_step hinv
    rcases hinv'.map _ a hmap with ⟨htime, -⟩ | howner
    · exact absurd htime hn
    · have hb := hinv.ids b (hinv'.assigned _ a howner).1
      exact hinv'.unique _ b a (hle hb) howner

/-- Two servers and the time server. -/
def twoServers : Parties where
  servers := {⟨0x0A000001, 5000⟩, ⟨0x0A000003, 5000⟩}
  timeServer := ⟨0x0A000002, 6000⟩
  apart := by decide
  command := fun _ => "NACK".toList

/-- Both ask for an ID, the tracker hears the second first, and they take what it
assigns them: the second 1025, the first 1026. -/
theorem assignment_agreement_twoServers : ∃ p, (system twoServers).Reachable p
    ∧ p.ids ⟨0x0A000001, 5000⟩ = 1026 ∧ p.ids ⟨0x0A000003, 5000⟩ = 1025
    ∧ (∀ a b, p.ids a ≠ 0 → p.ids a = p.ids b → a = b)
    ∧ ∀ q, (system twoServers).Steps p q → ∀ n a b, n ≠ timeServerId →
      q.tracker.clusters.lookup n = some a → p.ids b = n → b = a := by
  have h₀ : (system twoServers).Reachable ⟨.new, fun _ => 0, ∅, ∅⟩ := .init rfl
  have h₁ := h₀.step (Step.requestId ⟨0x0A000001, 5000⟩ (.inl rfl))
  have h₂ := h₁.step (Step.requestId ⟨0x0A000003, 5000⟩ (.inr rfl))
  have h₃ := h₂.step (Step.track ⟨0, .kept, 0⟩ ⟨0x0A000003, 5000⟩ _ (Set.mem_insert _ _)
    fun _ => by decide)
  have h₄ := h₃.step (Step.track ⟨0, .kept, 0⟩ ⟨0x0A000001, 5000⟩ _
    (Set.mem_insert_of_mem _ (Set.mem_insert _ _)) fun _ => by decide)
  have h₅ := h₄.step (Step.processCommands 0 ⟨0x0A000003, 5000⟩ (Reply.run 1025).text (.inr rfl)
    (.inr (.inl ⟨_, rfl, rfl⟩)) (parseCommand_run _ 0 0 1025))
  have h₆ := h₅.step (Step.processCommands 0 ⟨0x0A000001, 5000⟩ (Reply.run 1026).text (.inl rfl)
    (.inl ⟨_, rfl, rfl⟩) (parseCommand_run _ 0 0 1026))
  refine ⟨_, h₆, ?_, ?_, ?_, ?_⟩
  · simp
  · simp
  · exact (assignment_agreement twoServers _ _ h₆ (.refl _)).1
  · exact fun q hq => (assignment_agreement twoServers _ q h₆ hq).2

end Protocol

end DistributAr
