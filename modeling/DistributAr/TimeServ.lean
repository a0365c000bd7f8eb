/-
# `DistributAr.TimeServ` — the time server and its lease

`TimeServ::run` waits for a datagram, thirty seconds at most, answers it with the
clock, and tells the tracker its ID if it has not done so for three minutes.  The
tracker forgets who has not been heard for ten.

So the time server can be late, its datagrams can take their time, and one of them
can get lost, but not two in a row: between two that are heard there are then at most
two intervals and a delay, and that is what the ten minutes have to cover
(`stays_known`).

All lists are newest first, as those of the tracker.
-/
import DistributAr.Answers
import DistributAr.Freshness
import DistributAr.Lib.Renewal
import DistributAr.Sync

namespace DistributAr

open Lib Lease

/-- The variable of `TimeServ::run` that outlives a pass of the loop. -/
structure TimeServ where
  nextTrackerUpdate : Int

/-- What a pass meets: what `ReadSelect` returns, the sender it finds, and the clock
after that. -/
structure TimePass where
  ret : Int
  sender : SockAddr
  t : Int

/-- What is written. -/
inductive TimeOutput where
  | reply (dest : SockAddr) (text : List Char)
  | register (text : List Char)
deriving DecidableEq

namespace TimeServ

/-- `updateInterval` -/
def updateInterval : Int := seconds 180

/-- `sizeof(buff)` -/
def buffSize : Nat := 32

/-- A pass of the loop. -/
def iteration (s : TimeServ) (p : TimePass) : TimeServ × List TimeOutput :=
  let written : List TimeOutput := if p.ret > 0 then [.reply p.sender (reply p.t)] else []
  if p.t > s.nextTrackerUpdate then
    (⟨p.t + updateInterval⟩, written ++ [.register (Command.id timeServerId).text])
  else (s, written)

/-- Some passes of a server that was started at `start`, each with what it wrote. -/
def history (start : Int) : List TimePass → TimeServ × List (TimePass × List TimeOutput)
  | [] => (⟨start⟩, [])
  | p :: ps =>
      let (s, log) := history start ps
      let (s', written) := s.iteration p
      (s', (p, written) :: log)

/-- What a pass writes to whoever sent a datagram. -/
def replies (p : TimePass) : List TimeOutput :=
  if p.ret > 0 then [.reply p.sender (reply p.t)] else []

/-- When the tracker was told the ID, once for each time. -/
def registrations (start : Int) (ps : List TimePass) : List Int :=
  (history start ps).2.flatMap fun entry =>
    (entry.2.filter fun o => o = .register (Command.id timeServerId).text).map fun _ => entry.1.t

variable {start gap : Int} {p : TimePass} {ps : List TimePass}

/-! ## The loop -/

/-- The two things that a pass does are independent of one another. -/
theorem iteration_cases (s : TimeServ) (p : TimePass) :
    p.t > s.nextTrackerUpdate ∧ s.iteration p = (⟨p.t + updateInterval⟩,
        replies p ++ [.register (Command.id timeServerId).text])
      ∨ ¬ p.t > s.nextTrackerUpdate ∧ s.iteration p = (s, replies p) := by
  unfold iteration
  by_cases hdue : p.t > s.nextTrackerUpdate
  · exact .inl ⟨hdue, if_pos hdue⟩
  · exact .inr ⟨hdue, if_neg hdue⟩

/-- A reply is no registration. -/
theorem filter_replies (p : TimePass) (text : List Char) :
    (replies p).filter (fun o => o = .register text) = [] := by
  rw [replies]
  split <;> rfl

/-- The tracker is told the ID when the timer goes off. -/
theorem history_timer (start : Int) (ps : List TimePass) :
    (history start ps).1.nextTrackerUpdate
        = (Timer.after updateInterval start (ps.map TimePass.t)).1
      ∧ registrations start ps = (Timer.after updateInterval start (ps.map TimePass.t)).2 := by
  induction ps with
  | nil => exact ⟨rfl, rfl⟩
  | cons p ps ih =>
      obtain ⟨hnext, hrings⟩ := ih
      have hhistory : history start (p :: ps) = (((history start ps).1.iteration p).1,
          (p, ((history start ps).1.iteration p).2) :: (history start ps).2) := rfl
      rw [registrations, hhistory, List.map_cons, Timer.after, List.flatMap_cons]
      dsimp only
      rw [← hnext, ← hrings, registrations]
      obtain ⟨hdue, heq⟩ | ⟨hdue, heq⟩ := iteration_cases (history start ps).1 p
      · rw [if_pos hdue, heq, List.filter_append, filter_replies, List.nil_append]
        exact ⟨rfl, rfl⟩
      · rw [if_neg hdue, heq, filter_replies]
        exact ⟨rfl, rfl⟩

/-- What is written at a pass is written by `iteration`. -/
theorem mem_history {entry : TimePass × List TimeOutput} (h : entry ∈ (history start ps).2) :
    ∃ s : TimeServ, entry.2 = (s.iteration entry.1).2 := by
  induction ps with
  | nil => exact absurd h List.not_mem_nil
  | cons p ps ih =>
      rcases List.mem_cons.mp h with rfl | hrest
      · exact ⟨_, rfl⟩
      · exact ih hrest

theorem map_history (start : Int) (ps : List TimePass) :
    (history start ps).2.map Prod.fst = ps := by
  induction ps with
  | nil => rfl
  | cons p ps ih => exact congrArg (List.cons p) ih

/-- A `T` fits the buffer, whatever the clock. -/
theorem length_reply {t : Int} (ht : t < 2 ^ 63) : (reply t).length + 1 ≤ buffSize := by
  have hus : (timeUs t).toNat < 10 ^ 20 := by
    rcases Int.le_total 0 t with hpos | hneg
    · rw [timeUs, toMicroseconds_of_nonneg hpos]
      omega
    · have hle : 0 ≤ (-t).tdiv 1000 := Int.tdiv_nonneg (by omega) (by decide)
      rw [Int.neg_tdiv] at hle
      show (t.tdiv 1000).toNat < 10 ^ 20
      omega
  have hdigits : (printUnsigned (timeUs t).toNat).length ≤ 20 :=
    (Nat.length_toDigits_le_iff (by decide) (by decide)).mpr hus
  rw [reply, List.length_append]
  show 2 + _ + 1 ≤ 32
  omega

/-- Every datagram that is not empty is answered once, with the clock and to its
sender, nothing else is, and the answer fits the buffer; and the tracker is told the
ID, once each time, at intervals of more than three minutes, but not of more than three
minutes and a pass. -/
theorem answers_and_registers (start gap : Int) (ps : List TimePass)
    (h : Timer.Looks gap start (ps.map TimePass.t)) (hclock : ∀ p ∈ ps, p.t < 2 ^ 63) :
    (history start ps).2.map Prod.fst = ps
      ∧ (∀ entry ∈ (history start ps).2,
        (∃ registered, (registered = [] ∨ registered = [.register (Command.id timeServerId).text])
          ∧ entry.2 = (if 0 < entry.1.ret then [.reply entry.1.sender (reply entry.1.t)] else [])
            ++ registered)
        ∧ (reply entry.1.t).length + 1 ≤ buffSize)
      ∧ (registrations start ps).IsChain fun later earlier =>
        earlier + updateInterval < later ∧ later ≤ earlier + (updateInterval + gap) := by
  refine ⟨map_history start ps, ?_, ?_⟩
  · intro entry hentry
    obtain ⟨s, hs⟩ := mem_history hentry
    have hmem : entry.1 ∈ ps := by
      have hfst := List.mem_map_of_mem (f := Prod.fst) hentry
      rwa [map_history] at hfst
    refine ⟨?_, length_reply (hclock _ hmem)⟩
    obtain ⟨-, heq⟩ | ⟨-, heq⟩ := iteration_cases s entry.1
    · exact ⟨_, .inr rfl, by rw [hs, heq]; rfl⟩
    · exact ⟨[], .inl rfl, by rw [hs, heq, List.append_nil]; rfl⟩
  · rw [(history_timer start ps).2]
    exact Timer.chain (by decide) h

end TimeServ

/-! ## Who holds an ID -/

/-- A registration counts from the moment it comes in. -/
theorem Entry.op_now {e : Entry} {n : ClusterID} {a : SockAddr} {u : Int}
    (h : e.op = some (.register n a u)) : u = e.now := by
  obtain ⟨now, sender, cmd, reply⟩ := e
  cases cmd with
  | id newId =>
      simp only [Entry.op] at h
      split at h
      · cases h
        rfl
      · split at h
        · cases h
          rfl
        · cases h
  | get what =>
      simp only [Entry.op] at h
      split at h <;> cases h
  | list => cases h
  | ack => cases h

namespace Tracker

variable {es : List Event} {n : ClusterID} {a : SockAddr}

/-- In a history only `a` registers `n`, and `a` nothing else. -/
def Sole (n : ClusterID) (a : SockAddr) (h : List Entry) : Prop :=
  ∀ m b u, .register m b u ∈ ops h → (m = n ↔ b = a)

/-- What was sent decides it, as long as the counter stays away from `n`. -/
theorem sole_of_senders (hnext : NotWrapped es)
    (hcounter : ∀ s, s <:+ es → (history s).1.next ≠ n) (hn : n ≠ 0)
    (hof : ∀ e ∈ es, e.cmd = .id n → e.sender = a)
    (hby : ∀ e ∈ es, e.sender = a → ∀ m, e.cmd = .id m → m = n) : Sole n a (history es).2 := by
  induction es with
  | nil => exact fun _ _ _ h => absurd h List.not_mem_nil
  | cons e es ih =>
      have hold := ih hnext.tail (fun s hs => hcounter s (hs.trans (List.suffix_cons e es)))
        (fun e' he' => hof e' (List.mem_cons_of_mem e he'))
        fun e' he' => hby e' (List.mem_cons_of_mem e he')
      intro m b u hmem
      obtain ⟨entry, hentry, hop⟩ := List.mem_filterMap.mp hmem
      rcases List.mem_cons.mp hentry with rfl | hrest
      · obtain ⟨hsender, ⟨hm, hcmd⟩ | ⟨hcmd, hreply⟩⟩ := Entry.op_eq_register hop
        · exact ⟨fun heq => hsender ▸ hof e List.mem_cons_self (heq ▸ hcmd),
            fun heq => hby e List.mem_cons_self (hsender.trans heq) m hcmd⟩
        · have hnot : b ≠ a := fun heq =>
            hn (hby e List.mem_cons_self (hsender.trans heq) 0 hcmd).symm
          refine iff_of_false ?_ hnot
          rintro rfl
          dsimp only at hsender hcmd hreply
          rw [hcmd, hsender] at hreply
          obtain ⟨-, hassigned, -⟩ | hlookup := reply_handle_zero hreply
          · exact hcounter es (List.suffix_cons e es) hassigned.symm
          · -- `b` has the ID already, and somebody gave it to `b`
            have hview := view_eq_some.mpr ⟨hlookup, rfl⟩
            rw [(refines_history hnext.tail).view, table_eq_some_iff] at hview
            exact hnot ((hold m b _ (List.mem_of_find?_eq_some hview)).mp rfl)
      · exact hold m b u (List.mem_filterMap.mpr ⟨entry, hrest, hop⟩)

theorem Sole.tail {entry : Entry} {h : List Entry} (hs : Sole n a (entry :: h)) : Sole n a h := by
  intro m b u hmem
  obtain ⟨e, he, hop⟩ := List.mem_filterMap.mp hmem
  exact hs m b u (List.mem_filterMap.mpr ⟨e, List.mem_cons_of_mem entry he, hop⟩)

/-- If only `a` registers `n`, the latest registration is not older than any. -/
theorem latest_of_sole (hsole : Sole n a (history es).2) (hclock : Clocked es) (hn : n ≠ 0)
    {e : Event} (he : e ∈ es) (hcmd : e.cmd = .id n) (hsender : e.sender = a) :
    ∃ u, e.turn.now ≤ u ∧ latestOf (ops (history es).2) n = some (a, u)
      ∧ ∃ v, latestBy (ops (history es).2) a = some (n, v) := by
  induction es with
  | nil => exact absurd he List.not_mem_nil
  | cons e₀ es ih =>
      obtain ⟨hlater, hrest⟩ := List.pairwise_cons.mp hclock
      have hself : e = e₀ → ∃ u, Entry.op ⟨e₀.turn.now, e₀.sender, e₀.cmd,
          ((history es).1.handle e₀.turn e₀.sender e₀.cmd).2⟩ = some (.register n a u) := by
        rintro rfl
        exact ⟨e.turn.now, by simp [Entry.op, hcmd, hsender, hn]⟩
      have hskip : e ≠ e₀ → e ∈ es := fun hne => (List.mem_cons.mp he).resolve_left hne
      have hold : e ≠ e₀ → _ := fun hne => ih hsole.tail hrest (hskip hne)
      have hhistory : (history (e₀ :: es)).2 = ⟨e₀.turn.now, e₀.sender, e₀.cmd,
          ((history es).1.handle e₀.turn e₀.sender e₀.cmd).2⟩ :: (history es).2 := rfl
      rw [hhistory] at hsole ⊢
      rw [ops, List.filterMap_cons]
      split
      case h_1 hop =>
        refine hold fun heq => ?_
        obtain ⟨u, hu⟩ := hself heq
        cases hu.symm.trans hop
      case h_2 op hop =>
        cases op with
        | release k =>
            refine hold fun heq => ?_
            obtain ⟨u, hu⟩ := hself heq
            cases hu.symm.trans hop
        | register m b u =>
            have hm : m = n ↔ b = a :=
              hsole m b u (List.mem_filterMap.mpr ⟨_, List.mem_cons_self, hop⟩)
            by_cases heq : m = n
            · obtain rfl := heq
              obtain rfl := hm.mp rfl
              refine ⟨u, ?_, if_pos rfl, u, if_pos rfl⟩
              rw [Entry.op_now hop]
              rcases List.mem_cons.mp he with rfl | hmem
              · exact Int.le_refl _
              · exact hlater e hmem
            · have hne : e ≠ e₀ := fun hself' => by
                obtain ⟨v, hv⟩ := hself hself'
                cases hv.symm.trans hop
                exact heq rfl
              obtain ⟨u', hle, hof, v, hby⟩ := hold hne
              exact ⟨u', hle, (if_neg heq).trans hof, v, (if_neg fun h => heq (hm.mpr h)).trans hby⟩

/-- Who alone registers an ID, and did so not too long ago, has a lease of it. -/
theorem leased_of_sole (hsole : Sole n a (history es).2) (hclock : Clocked es) (hn : n ≠ 0)
    {e : Event} (he : e ∈ es) (hcmd : e.cmd = .id n) (hsender : e.sender = a) {now : Int}
    (hnow : now ≤ e.turn.now + envUpdateTime) : Leased (history es).2 now n a := by
  obtain ⟨u, hle, hof, hby⟩ := latest_of_sole hsole hclock hn he hcmd hsender
  exact ⟨u, hof, hby, by omega⟩

end Tracker

namespace TimeServ

open Tracker

/-- A time server at `addr` that was started at `start`, a tracker whose clock is
`offset` ahead, and the datagrams between them up to `now`, on the clock of the
tracker. -/
structure Serving (start gap delay offset now : Int) (ps : List TimePass)
    (heard : Int → Option Int) (addr : SockAddr) (es : List Event) : Prop where
  /-- The passes of the loop. -/
  looks : Timer.Looks gap start (ps.map TimePass.t)
  running : ∃ p ∈ ps.head?, p.t + offset ≤ now ∧ now ≤ p.t + offset + gap
  /-- When the tracker hears a registration, if it does: no two in a row are lost. -/
  soon : ∀ r ∈ registrations start ps, ∀ t ∈ heard r, r + offset ≤ t ∧ t ≤ r + offset + delay
  kept : (registrations start ps).IsChain fun later earlier =>
    heard later = none → heard earlier ≠ none
  first : ∃ r ∈ registrations start ps, ∃ t ∈ heard r, t ≤ now
  /-- What the tracker hears. -/
  taken : ∀ r ∈ registrations start ps, ∀ t ∈ heard r, t ≤ now →
    ∃ e ∈ es, e.cmd = .id timeServerId ∧ e.sender = addr ∧ e.turn.now = t
  only : ∀ e ∈ es, e.cmd = .id timeServerId → e.sender = addr
  own : ∀ e ∈ es, e.sender = addr → ∀ n, e.cmd = .id n → n = timeServerId
  /-- The tracker. -/
  notWrapped : NotWrapped es
  counter : ∀ s, s <:+ es → (Tracker.history s).1.next ≠ timeServerId
  clocked : Clocked es
  past : ∀ e ∈ es, e.turn.now ≤ now

variable {start gap delay offset now : Int} {ps : List TimePass} {heard : Int → Option Int}
  {addr : SockAddr} {es : List Event}

/-- The registrations as renewals, on the clock of the tracker. -/
def renewals (offset : Int) (heard : Int → Option Int) (rs : List Int) : List Renewal :=
  rs.map fun r => ⟨r + offset, heard r⟩

theorem Serving.renewing (h : Serving start gap delay offset now ps heard addr es) :
    Renewing (updateInterval + gap) delay (renewals offset heard (registrations start ps)) where
  spaced := by
    have hchain := Timer.chain (by decide : 0 ≤ updateInterval) h.looks
    rw [← (history_timer start ps).2] at hchain
    refine List.isChain_map_of_isChain _ ?_ hchain
    rintro later earlier ⟨-, hhi⟩
    show _ + _ ≤ _ + _ + _
    omega
  soon := by
    intro x hx t ht
    obtain ⟨r, hr, rfl⟩ := List.mem_map.mp hx
    exact h.soon r hr t ht
  kept := (List.isChain_map _).mpr h.kept

/-- The last registration is recent. -/
theorem Serving.last (h : Serving start gap delay offset now ps heard addr es) :
    ∀ x ∈ (renewals offset heard (registrations start ps)).head?,
      x.sent ≤ now ∧ now ≤ x.sent + (updateInterval + gap) := by
  intro x hx
  obtain ⟨p, hp, hlo, hhi⟩ := h.running
  obtain ⟨ps, rfl⟩ : ∃ qs, ps = p :: qs := by
    cases ps with
    | nil => cases hp
    | cons q ps =>
        cases hp
        exact ⟨ps, rfl⟩
  have hrings := (history_timer start (p :: ps)).2
  cases hlast : registrations start (p :: ps) with
  | nil =>
      rw [hlast] at hx
      cases hx
  | cons r rs =>
      rw [hlast] at hx hrings
      cases hx
      have hmem := Timer.ring_mem (r := r) (hrings ▸ List.mem_cons_self)
      have hle := h.looks.le_head r hmem
      have hrecent : now - offset ≤ r + (updateInterval + gap) :=
        Timer.ring_recent (by decide) hrings.symm (by omega)
      exact ⟨by show r + offset ≤ now; omega, by show now ≤ r + offset + _; omega⟩

/-- The time server has a lease. -/
theorem Serving.leased (h : Serving start gap delay offset now ps heard addr es)
    (hlease : 2 * (updateInterval + gap) + delay ≤ envUpdateTime) :
    Leased (Tracker.history es).2 now timeServerId addr := by
  have hne : timeServerId ≠ 0 := by decide
  have hfirst : ∃ x ∈ renewals offset heard (registrations start ps), ∃ t ∈ x.heard, t ≤ now := by
    obtain ⟨r, hr, t, ht, hnow⟩ := h.first
    exact ⟨_, List.mem_map_of_mem hr, t, ht, hnow⟩
  obtain ⟨x, hx, t, ht, hpast, hfresh⟩ := h.renewing.fresh h.last hfirst
  obtain ⟨r, hr, rfl⟩ := List.mem_map.mp hx
  obtain ⟨e, he, hcmd, hsender, rfl⟩ := h.taken r hr t ht hpast
  exact leased_of_sole (sole_of_senders h.notWrapped h.counter hne h.only h.own) h.clocked hne he
    hcmd hsender (by omega)

/-- If the loop of the time server is not held up too long, its datagrams do not take
too long, and no two registrations in a row are lost, then from the first that the
tracker hears on every `GET` of the time server is answered with its address, and
every `LIST` names it. -/
theorem stays_known (start gap delay offset : Int) (ps : List TimePass)
    (heard : Int → Option Int) (addr : SockAddr) (es : List Event) (turn : Turn)
    (client : SockAddr) (h : Serving start gap delay offset turn.now ps heard addr es)
    (hlease : 2 * (updateInterval + gap) + delay ≤ envUpdateTime) :
    let t := (Tracker.history es).1
    (t.iteration turn client (Command.get timeServerId).text).2
        = some (Reply.point timeServerId addr).text
      ∧ ∃ ids, timeServerId ∈ ids
        ∧ (t.iteration turn client Command.list.text).2 = some (Reply.list ids).text := by
  intro t
  have hview := (leased_iff h.notWrapped h.clocked h.past).mp (h.leased hlease)
  constructor
  · have hget : (t.iteration turn client (Command.get timeServerId).text).2
        = sendCommand (t.handleGet turn timeServerId).2.text := by
      rw [iteration_text]
      rfl
    rw [hget, sendCommand_handleGet_eq_point]
    exact reply_handleGet_eq_point.mpr hview
  · have hmem := mem_handleList.mpr ⟨addr, hview⟩
    refine ⟨_, hmem, ?_⟩
    rw [iteration_text]
    exact sendCommand_of_ne_nil fun htext =>
      List.ne_nil_of_mem hmem (list_text_eq_nil.mp htext)

/-- A pass soon after the start. -/
def firstPass : TimePass := ⟨1, ⟨0x0A000002, 6000⟩, 1⟩

theorem looks_firstPass : Timer.Looks (seconds 31) 0 ([firstPass].map TimePass.t) :=
  ⟨by decide, by decide⟩

theorem answers_and_registers_firstPass :
    (∀ entry ∈ (history 0 [firstPass]).2,
      ∃ registered, (registered = [] ∨ registered = [.register (Command.id timeServerId).text])
        ∧ entry.2 = (if 0 < entry.1.ret then [.reply entry.1.sender (reply entry.1.t)] else [])
          ++ registered)
      ∧ (registrations 0 [firstPass]).IsChain fun later earlier =>
        earlier + updateInterval < later ∧ later ≤ earlier + (updateInterval + seconds 31) := by
  obtain ⟨-, hwritten, hchain⟩ := answers_and_registers 0 (seconds 31) [firstPass] looks_firstPass
    (List.forall_mem_singleton.mpr (by decide))
  exact ⟨fun entry hentry => (hwritten entry hentry).1, hchain⟩

/-- The tracker has heard of it. -/
def heardFirst : List Event := [⟨⟨2, .kept, 0⟩, ⟨0x0A000001, 5000⟩, .id timeServerId⟩]

theorem serving_firstPass : Serving 0 (seconds 31) 1 0 3 [firstPass] (fun r => some (r + 1))
    ⟨0x0A000001, 5000⟩ heardFirst where
  looks := looks_firstPass
  running := ⟨firstPass, rfl, by decide, by decide⟩
  soon := by
    intro r _ t ht
    cases ht
    exact ⟨by omega, by omega⟩
  kept := .singleton 1
  first := ⟨1, List.mem_cons_self, 2, rfl, by decide⟩
  taken := by
    intro r hr t ht _
    obtain rfl := List.mem_singleton.mp hr
    cases ht
    exact ⟨_, List.mem_cons_self, rfl, rfl, rfl⟩
  only := List.forall_mem_singleton.mpr fun _ => rfl
  own := by
    refine List.forall_mem_singleton.mpr fun _ n hn => ?_
    cases hn
    rfl
  notWrapped := forall_suffix_cons (by decide) (forall_suffix_nil (by decide))
  counter := forall_suffix_cons (by decide) (forall_suffix_nil (by decide))
  clocked := List.pairwise_singleton _ _
  past := List.forall_mem_singleton.mpr (by decide)

theorem stays_known_firstPass :
    ((Tracker.history heardFirst).1.iteration ⟨3, .kept, 0⟩ ⟨0x0A000003, 7000⟩
        (Command.get timeServerId).text).2
      = some (Reply.point timeServerId ⟨0x0A000001, 5000⟩).text :=
  (stays_known 0 (seconds 31) 1 0 [firstPass] (fun r => some (r + 1)) ⟨0x0A000001, 5000⟩
    heardFirst ⟨3, .kept, 0⟩ ⟨0x0A000003, 7000⟩ serving_firstPass (by decide)).1

end TimeServ

end DistributAr
