/-
# `DistributAr.Leases` — the tracker as a lease table

What the tracker keeps is determined by its history: by who registered what,
and when, and by the entries it dropped.  `refines` is the simulation: after any
sequence of commands the map of the tracker is the table that the operations of
its history leave.  With a clock that does not run backward only expired leases
are dropped, so a lease that is still good can be read off the registrations
alone (`leased_iff`), and the answers to `GET` and `LIST` are what the leases
say (`answers_refine_leases`).
-/
import DistributAr.Tracker

namespace DistributAr

open Lib Lease

/-- A command on its way into the tracker. -/
structure Event where
  turn : Turn
  sender : SockAddr
  cmd : Command

/-- A command with its answer. -/
structure Entry where
  now : Int
  sender : SockAddr
  cmd : Command
  reply : Reply
deriving DecidableEq, Repr

/-- What an entry does to the lease table: `ID n`, or `ID 0` answered `RUN n`,
registers `n` for the sender, and `GET n` answered `DROP n` releases it. -/
def Entry.op (e : Entry) : Option (Op ClusterID SockAddr Int) :=
  match e.cmd, e.reply with
  | .id newId, reply =>
      if newId ≠ 0 then some (.register newId e.sender e.now)
      else match reply with
        | .run n => some (.register n e.sender e.now)
        | _ => none
  | .get what, reply => if reply = .drop what then some (.release what) else none
  | _, _ => none

/-- Only a `GET` answered `DROP` releases anything. -/
theorem Entry.op_eq_release {e : Entry} {n : ClusterID} (h : e.op = some (.release n)) :
    e.cmd = .get n ∧ e.reply = .drop n := by
  obtain ⟨now, sender, cmd, reply⟩ := e
  cases cmd with
  | id newId =>
      simp only [Entry.op] at h
      split at h
      · cases h
      · split at h <;> cases h
  | get what =>
      simp only [Entry.op] at h
      split at h
      · rename_i hdrop
        cases h
        exact ⟨rfl, hdrop⟩
      · cases h
  | list => cases h
  | ack => cases h

/-- A registration is an `ID n`, or an `ID 0` answered `RUN n`. -/
theorem Entry.op_eq_register {e : Entry} {n : ClusterID} {a : SockAddr} {u : Int}
    (h : e.op = some (.register n a u)) :
    e.sender = a ∧ (n ≠ 0 ∧ e.cmd = .id n ∨ e.cmd = .id 0 ∧ e.reply = .run n) := by
  obtain ⟨now, sender, cmd, reply⟩ := e
  cases cmd with
  | id newId =>
      simp only [Entry.op] at h
      split at h
      · rename_i hnew
        cases h
        exact ⟨rfl, .inl ⟨hnew, rfl⟩⟩
      · rename_i hnew
        have hzero : newId = 0 := by simpa using hnew
        subst hzero
        split at h
        · cases h
          exact ⟨rfl, .inr ⟨rfl, rfl⟩⟩
        · cases h
  | get what =>
      simp only [Entry.op] at h
      split at h <;> cases h
  | list => cases h
  | ack => cases h

/-- The operations of a history. -/
def ops (h : List Entry) : List (Op ClusterID SockAddr Int) := h.filterMap Entry.op

namespace Tracker

/-- The tracker after some commands and what it answered, the newest first. -/
def history : List Event → Tracker × List Entry
  | [] => (.new, [])
  | e :: es =>
      let (t, h) := history es
      let (t', reply) := t.handle e.turn e.sender e.cmd
      (t', ⟨e.turn.now, e.sender, e.cmd, reply⟩ :: h)

/-- The counter has not run past the greatest ID. -/
def NotWrapped (es : List Event) : Prop := ∀ s, s <:+ es → (history s).1.next ≠ 0

/-- What is true of a history and of all that came before its last command. -/
theorem forall_suffix_cons {P : List Event → Prop} {e : Event} {es : List Event}
    (h : P (e :: es)) (hrest : ∀ s, s <:+ es → P s) : ∀ s, s <:+ e :: es → P s := by
  intro s hs
  rcases List.suffix_cons_iff.mp hs with rfl | hs
  · exact h
  · exact hrest s hs

theorem forall_suffix_nil {P : List Event → Prop} (h : P []) : ∀ s, s <:+ [] → P s :=
  fun _ hs => List.suffix_nil.mp hs ▸ h

/-- The clock does not run backward. -/
def Clocked (es : List Event) : Prop :=
  es.Pairwise fun later earlier => earlier.turn.now ≤ later.turn.now

theorem NotWrapped.tail {e : Event} {es : List Event} (h : NotWrapped (e :: es)) :
    NotWrapped es :=
  fun s hs => h s (hs.trans (List.suffix_cons e es))

/-! ## The simulation -/

/-- The tracker shows the lease table of a history, and nobody has the ID 0. -/
structure Refines (t : Tracker) (h : List Entry) : Prop where
  view : t.view = table (ops h)
  zero : t.clusters.lookup 0 = none

theorem Refines.exclusive {t : Tracker} {h : List Entry} (hr : t.Refines h) : Exclusive t.view :=
  hr.view ▸ exclusive_table (ops h)

/-- One command, in the tracker and in the table. -/
theorem Refines.handle {t : Tracker} {h : List Entry} (hr : t.Refines h) (hnext : t.next ≠ 0)
    (turn : Turn) (sender : SockAddr) (cmd : Command) :
    (t.handle turn sender cmd).1.Refines
      (⟨turn.now, sender, cmd, (t.handle turn sender cmd).2⟩ :: h) := by
  cases cmd with
  | id newId =>
      have hne : t.registeredId turn sender newId ≠ 0 := by
        unfold registeredId
        split
        · assumption
        · split <;> assumption
      have hop : Entry.op ⟨turn.now, sender, .id newId, (t.handleId turn sender newId).2⟩
          = some (.register (t.registeredId turn sender newId) sender turn.now) := by
        rw [reply_handleId]
        by_cases hnew : newId = 0
        · simp [Entry.op, hnew]
        · simp [Entry.op, hnew, registeredId]
      constructor
      · show (t.handleId turn sender newId).1.view = _
        rw [view_handleId hr.zero hr.exclusive, hr.view]
        simp only [ops, Tracker.handle, List.filterMap_cons, hop, table]
      · show (t.handleId turn sender newId).1.clusters.lookup 0 = none
        rw [lookup_handleId hr.zero hr.exclusive, if_neg hne.symm, hr.zero]
        rfl
  | get what =>
      have hview : (t.handleGet turn what).1.view = _ := view_handleGet
      constructor
      · show (t.handleGet turn what).1.view = _
        rw [hview, hr.view]
        by_cases hdrop : (t.handleGet turn what).2 = .drop what
        · simp [ops, Tracker.handle, Entry.op, hdrop, table]
        · simp [ops, Tracker.handle, Entry.op, hdrop]
      · show (t.handleGet turn what).1.clusters.lookup 0 = none
        rw [← view_eq_none, hview]
        have hzero := view_eq_none.mpr hr.zero
        split
        · simp only [Op.apply, hzero, ite_self]
        · exact hzero
  | list => exact ⟨hr.view, hr.zero⟩
  | ack => exact ⟨hr.view, hr.zero⟩

theorem refines_history {es : List Event} (hnext : NotWrapped es) :
    (history es).1.Refines (history es).2 := by
  induction es with
  | nil => exact ⟨by funext n; rfl, rfl⟩
  | cons e es ih =>
      exact (ih hnext.tail).handle (hnext es (List.suffix_cons e es)) e.turn e.sender e.cmd

/-! ## Leases -/

/-- `a` has a lease of `n`: the latest registration of `n` is by `a`, the latest
registration by `a` is of `n`, and that registration is not too old.  The
releases of the history play no part in it. -/
def Leased (h : List Entry) (now : Int) (n : ClusterID) (a : SockAddr) : Prop :=
  ∃ u, latestOf (ops h) n = some (a, u) ∧ (∃ v, latestBy (ops h) a = some (n, v))
    ∧ now - u ≤ envUpdateTime

/-- An entry that `GET` dropped was too old. -/
theorem expired_of_drop {t : Tracker} {turn : Turn} {n : ClusterID} {a : SockAddr} {u : Int}
    (hview : t.view n = some (a, u)) (hdrop : (t.handleGet turn n).2 = .drop n) :
    u < turn.now - envUpdateTime := by
  rw [handleGet_eq, hview] at hdrop
  by_contra hlive
  dsimp only at hdrop
  rw [if_neg hlive] at hdrop
  cases hdrop

/-- With a monotone clock, what was dropped had expired by then, and has by now. -/
theorem releases_expired {es : List Event} (hnext : NotWrapped es) (hclock : Clocked es)
    {now : Int} (hnow : ∀ e ∈ es, e.turn.now ≤ now) :
    ReleasesExpired (fun u => u < now - envUpdateTime) (ops (history es).2) := by
  induction es with
  | nil => trivial
  | cons e es ih =>
      have hold := ih hnext.tail (List.pairwise_cons.mp hclock).2
        fun e' he' => hnow e' (List.mem_cons_of_mem e he')
      have hr := refines_history hnext.tail
      simp only [ops, history, List.filterMap_cons]
      split
      · exact hold
      · rename_i op hop
        cases op with
        | register n a u => exact hold
        | release n =>
            refine ⟨?_, hold⟩
            intro a u htable
            obtain ⟨hcmd, hdrop⟩ := Entry.op_eq_release hop
            dsimp only at hcmd hdrop
            rw [hcmd] at hdrop
            have hview : (history es).1.view n = some (a, u) := by rw [hr.view]; exact htable
            have hexp := expired_of_drop hview hdrop
            have hle := hnow e List.mem_cons_self
            omega

/-- The leases are the entries of the tracker that are not too old. -/
theorem leased_iff {es : List Event} (hnext : NotWrapped es) (hclock : Clocked es) {now : Int}
    (hnow : ∀ e ∈ es, e.turn.now ≤ now) {n : ClusterID} {a : SockAddr} :
    Leased (history es).2 now n a ↔
      ∃ u, (history es).1.view n = some (a, u) ∧ ¬ u < now - envUpdateTime := by
  have hexp := releases_expired hnext hclock hnow
  rw [(refines_history hnext).view]
  constructor
  · rintro ⟨u, hof, hby, hage⟩
    have hlive : ¬ u < now - envUpdateTime := by omega
    exact ⟨u, (table_iff_of_live hexp hlive).mpr ⟨hof, hby⟩, hlive⟩
  · rintro ⟨u, htable, hlive⟩
    obtain ⟨hof, hby⟩ := (table_iff_of_live hexp hlive).mp htable
    exact ⟨u, hof, hby, by omega⟩

/-! ## Answers -/

theorem reply_handleGet_eq_point {t : Tracker} {turn : Turn} {n : ClusterID} {a : SockAddr} :
    (t.handleGet turn n).2 = .point n a ↔
      ∃ u, t.view n = some (a, u) ∧ ¬ u < turn.now - envUpdateTime := by
  rw [handleGet_eq]
  cases t.view n with
  | none => simp
  | some entry =>
      obtain ⟨b, u⟩ := entry
      by_cases hexp : u < turn.now - envUpdateTime
      · simp only [if_pos hexp, Option.some.injEq, Prod.mk.injEq]
        constructor
        · split <;> exact fun h => nomatch h
        · rintro ⟨v, ⟨-, rfl⟩, hlive⟩
          exact absurd hexp hlive
      · simp only [if_neg hexp, Option.some.injEq, Prod.mk.injEq, Reply.point.injEq, true_and]
        constructor
        · rintro rfl
          exact ⟨u, ⟨rfl, rfl⟩, hexp⟩
        · rintro ⟨v, ⟨hb, -⟩, -⟩
          exact hb

/-- An ID above the reserved ones is answered `POINT` or `DROP`. -/
theorem reply_handleGet_eq_drop {t : Tracker} {turn : Turn} {n : ClusterID}
    (hn : n > reservedClusterId) (hpoint : ∀ a, (t.handleGet turn n).2 ≠ .point n a) :
    (t.handleGet turn n).2 = .drop n := by
  revert hpoint
  rw [handleGet_eq]
  split
  · exact fun _ => rfl
  · simp only [if_pos hn]
    split
    · exact fun _ => rfl
    · exact fun h => absurd rfl (h _)

theorem mem_handleList {t : Tracker} {turn : Turn} {n : ClusterID} :
    n ∈ ((turn.order.visit t.clusters).map Sigma.fst).filter (fun id => !t.isOld turn.now id) ↔
      ∃ a u, t.view n = some (a, u) ∧ ¬ u < turn.now - envUpdateTime := by
  simp only [List.mem_filter, List.mem_map, isOld, Bool.not_eq_true', decide_eq_false_iff_not]
  constructor
  · rintro ⟨⟨⟨m, a⟩, hmem, rfl⟩, hlive⟩
    exact ⟨a, _, view_eq_some.mpr ⟨mem_visit.mp hmem, rfl⟩, hlive⟩
  · rintro ⟨a, u, hview, hlive⟩
    obtain ⟨hlookup, rfl⟩ := view_eq_some.mp hview
    exact ⟨⟨⟨n, a⟩, mem_visit.mpr hlookup, rfl⟩, hlive⟩

theorem nodup_handleList {t : Tracker} {turn : Turn} :
    (((turn.order.visit t.clusters).map Sigma.fst).filter
      fun id => !t.isOld turn.now id).Nodup := by
  refine List.Nodup.filter _ ?_
  have hperm := (turn.order.perm t.clusters).map Sigma.fst
  exact hperm.nodup_iff.mpr t.clusters.nodupKeys

end Tracker

/-! ## The texts -/

/-- The ID and the address can be read off a `POINT`. -/
theorem Reply.point_text_injective {m n : ClusterID} {a b : SockAddr}
    (h : (Reply.point m b).text = (Reply.point n a).text) : m = n ∧ b = a := by
  have htext : ∀ (k : ClusterID) (c : SockAddr), (Reply.point k c).text
      = "POINT ".toList ++ (printUnsigned k.toNat ++ ' ' :: (printUnsigned c.s_addr.toNat
        ++ ' ' :: printUnsigned c.sin_port.toNat)) := fun _ _ => rfl
  rw [htext, htext] at h
  have hblank : ∀ d ∈ (' ' :: []).head?, d.isDigit = false := by simp
  obtain ⟨hn, hrest⟩ := IStream.printUnsigned_append_inj (List.append_cancel_left h) hblank hblank
  obtain ⟨hip, hrest⟩ := IStream.printUnsigned_append_inj (List.cons.inj hrest).2 hblank hblank
  have hlast : printUnsigned b.sin_port.toNat ++ [] = printUnsigned a.sin_port.toNat ++ [] := by
    rw [(List.cons.inj hrest).2]
  obtain ⟨hport, -⟩ := IStream.printUnsigned_append_inj hlast (by simp) (by simp)
  refine ⟨UInt32.toNat_inj.mp hn, ?_⟩
  obtain ⟨ip, port⟩ := a
  obtain ⟨ip', port'⟩ := b
  rw [SockAddr.mk.injEq]
  exact ⟨UInt32.toNat_inj.mp hip, UInt16.toNat_inj.mp hport⟩

/-- No other answer to `GET` looks like a `POINT`. -/
theorem sendCommand_handleGet_eq_point {t : Tracker} {turn : Turn} {n : ClusterID} {a : SockAddr} :
    sendCommand (t.handleGet turn n).2.text = some (Reply.point n a).text ↔
      (t.handleGet turn n).2 = .point n a := by
  constructor
  · intro h
    rw [Tracker.handleGet_eq] at h ⊢
    have hpoint : ∀ b, sendCommand (Reply.point n b).text = some (Reply.point n b).text :=
      fun b => sendCommand_of_ne_nil (List.cons_ne_nil _ _)
    have hdrop : sendCommand (Reply.drop n).text ≠ some (Reply.point n a).text := by
      intro heq
      have hhead := congrArg (fun s => s.bind List.head?) heq
      exact absurd hhead (show some 'D' ≠ some 'P' by decide)
    split at h
    · exact absurd h hdrop
    · split at h
      · split at h
        · exact absurd h hdrop
        · cases h
      · rename_i hlive
        have hsent := (hpoint _).symm.trans h
        rw [(Reply.point_text_injective (Option.some.inj hsent)).2]
        simp only [if_neg hlive]
  · intro h
    rw [h]
    exact sendCommand_of_ne_nil (List.cons_ne_nil _ _)

open Tracker

/-- After any sequence of commands, `GET n` is answered `POINT n a` exactly when
`a` has a lease of `n`; for an ID above the reserved ones without a lease the
answer is `DROP n`; and `LIST` names the IDs with a lease, each once, no two of
them leased to one address. -/
theorem answers_refine_leases (es : List Event) (hnext : NotWrapped es) (hclock : Clocked es)
    (turn : Turn) (hnow : ∀ e ∈ es, e.turn.now ≤ turn.now) (client : SockAddr) :
    let t := (history es).1
    let Lease := Leased (history es).2 turn.now
    (∀ n a, (t.iteration turn client (Command.get n).text).2 = some (Reply.point n a).text ↔
        Lease n a)
      ∧ (∀ n > reservedClusterId, (∀ a, ¬ Lease n a) →
        (t.iteration turn client (Command.get n).text).2 = some (Reply.drop n).text)
      ∧ ∃ ids, (t.iteration turn client Command.list.text).2 = sendCommand (Reply.list ids).text
        ∧ ids.Nodup ∧ (∀ n, n ∈ ids ↔ ∃ a, Lease n a)
        ∧ ∀ m ∈ ids, ∀ n ∈ ids, ∀ a, Lease m a → Lease n a → m = n := by
  intro t Lease
  have hlease : ∀ n a, Lease n a ↔ ∃ u, t.view n = some (a, u) ∧ ¬ u < turn.now - envUpdateTime :=
    fun n a => leased_iff hnext hclock hnow
  have hget : ∀ n, (t.iteration turn client (Command.get n).text).2
      = sendCommand (t.handleGet turn n).2.text := fun n => by rw [iteration_text]; rfl
  refine ⟨?_, ?_, ?_⟩
  · intro n a
    rw [hget, sendCommand_handleGet_eq_point, hlease]
    exact reply_handleGet_eq_point
  · intro n hn hnone
    have hdrop : (t.handleGet turn n).2 = .drop n := reply_handleGet_eq_drop hn fun a ha =>
      hnone a ((hlease n a).mpr (reply_handleGet_eq_point.mp ha))
    rw [hget, hdrop]
    rfl
  · refine ⟨_, by rw [iteration_text]; rfl, nodup_handleList, ?_, ?_⟩
    · intro n
      rw [mem_handleList]
      exact exists_congr fun a => (hlease n a).symm
    · intro m _ n _ a hm hn
      obtain ⟨u, hu, -⟩ := (hlease m a).mp hm
      obtain ⟨v, hv, -⟩ := (hlease n a).mp hn
      exact (refines_history hnext).exclusive hu hv

/-- Three clusters ask for an ID.  The first takes another, the second takes that one from
it, and the first asks again; of the third nothing is heard any more. -/
def takenOver : List Event :=
  [⟨⟨seconds 520, .kept, 0⟩, ⟨0x0A000001, 5000⟩, .id 0⟩,
    ⟨⟨seconds 510, .kept, 0⟩, ⟨0x0A000002, 5000⟩, .id 2000⟩,
    ⟨⟨seconds 500, .kept, 0⟩, ⟨0x0A000001, 5000⟩, .id 2000⟩,
    ⟨⟨0, .kept, 0⟩, ⟨0x0A000003, 5000⟩, .id 0⟩,
    ⟨⟨0, .kept, 0⟩, ⟨0x0A000002, 5000⟩, .id 0⟩,
    ⟨⟨0, .kept, 0⟩, ⟨0x0A000001, 5000⟩, .id 0⟩]

theorem notWrapped_takenOver : NotWrapped takenOver :=
  forall_suffix_cons (by decide) <| forall_suffix_cons (by decide) <|
    forall_suffix_cons (by decide) <| forall_suffix_cons (by decide) <|
      forall_suffix_cons (by decide) <| forall_suffix_cons (by decide) <|
        forall_suffix_nil (by decide)

theorem ops_takenOver : ops (history takenOver).2
    = [.register 1028 ⟨0x0A000001, 5000⟩ (seconds 520),
      .register 2000 ⟨0x0A000002, 5000⟩ (seconds 510),
      .register 2000 ⟨0x0A000001, 5000⟩ (seconds 500), .register 1027 ⟨0x0A000003, 5000⟩ 0,
      .register 1026 ⟨0x0A000002, 5000⟩ 0, .register 1025 ⟨0x0A000001, 5000⟩ 0] := rfl

/-- Two leases are left after 700 seconds. -/
theorem leased_takenOver {n : ClusterID} {a : SockAddr} :
    Leased (history takenOver).2 (seconds 700) n a
      ↔ n = 2000 ∧ a = ⟨0x0A000002, 5000⟩ ∨ n = 1028 ∧ a = ⟨0x0A000001, 5000⟩ := by
  rw [Leased, ops_takenOver]
  constructor
  · rintro ⟨u, hof, ⟨v, hby⟩, hlive⟩
    simp only [latestOf, ite_eq_iff] at hof
    obtain ⟨rfl, hlast⟩ | ⟨-, ⟨rfl, hlast⟩ | ⟨hnew, ⟨rfl, -⟩ | ⟨-, ⟨rfl, hlast⟩ |
      ⟨-, ⟨rfl, hlast⟩ | ⟨-, ⟨rfl, hlast⟩ | ⟨-, hlast⟩⟩⟩⟩⟩⟩ := hof
    · cases hlast
      exact .inr ⟨rfl, rfl⟩
    · cases hlast
      exact .inl ⟨rfl, rfl⟩
    · exact absurd rfl hnew
    · -- the third has not registered for more than ten minutes
      cases hlast
      exact absurd hlive (by decide)
    · -- the second and the first have registered other IDs since
      cases hlast
      cases hby
    · cases hlast
      cases hby
    · cases hlast
  · rintro (⟨rfl, rfl⟩ | ⟨rfl, rfl⟩)
    · exact ⟨seconds 510, rfl, ⟨_, rfl⟩, by decide⟩
    · exact ⟨seconds 520, rfl, ⟨_, rfl⟩, by decide⟩


/-- What a client is told after 700 seconds. -/
def askTakenOver (cmd : Command) : Option (List Char) :=
  ((history takenOver).1.iteration ⟨seconds 700, .kept, 0⟩ ⟨0x0A000009, 6000⟩ cmd.text).2

/-- The first is found under its new ID, the second under the one that it took, and
nobody else. -/
theorem answers_refine_leases_takenOver :
    askTakenOver (.get 1028) = some (Reply.point 1028 ⟨0x0A000001, 5000⟩).text
      ∧ askTakenOver (.get 2000) = some (Reply.point 2000 ⟨0x0A000002, 5000⟩).text
      ∧ askTakenOver (.get 1025) = some (Reply.drop 1025).text
      ∧ askTakenOver (.get 1027) = some (Reply.drop 1027).text
      ∧ ∃ ids, askTakenOver .list = sendCommand (Reply.list ids).text
        ∧ ids.Nodup ∧ ∀ n, n ∈ ids ↔ n = 2000 ∨ n = 1028 := by
  have hclock : Clocked takenOver := by simp [Clocked, takenOver, seconds]
  obtain ⟨hpoint, hdrop, ids, hlist, hnodup, hids, -⟩ := answers_refine_leases takenOver
    notWrapped_takenOver hclock ⟨seconds 700, .kept, 0⟩ (by simp [takenOver, seconds])
      ⟨0x0A000009, 6000⟩
  refine ⟨(hpoint 1028 _).mpr ?_, (hpoint 2000 _).mpr ?_, hdrop 1025 (by decide) ?_,
    hdrop 1027 (by decide) ?_, ids, hlist, hnodup, ?_⟩
  · exact leased_takenOver.mpr (.inr ⟨rfl, rfl⟩)
  · exact leased_takenOver.mpr (.inl ⟨rfl, rfl⟩)
  · intro a ha
    simpa using leased_takenOver.mp ha
  · intro a ha
    simpa using leased_takenOver.mp ha
  · intro n
    simp [hids, leased_takenOver, exists_or]

end DistributAr
