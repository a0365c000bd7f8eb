/-
# `DistributAr.Freshness` — are assigned IDs fresh?

An ID comes into the map by two ways: the tracker takes it from its counter, or
a server that was started with an ID of its own registers it.  The counter does
not look at the map.  So a server that names an ID the counter has not reached
yet loses it to whoever the counter gives it to.

`assigned_fresh_iff` says that this is the only way: in any run, all assigned
IDs are fresh exactly when every assignment finds the counter below
`TIME_SERVER_ID` and at a number that no server still claims.
-/
import DistributAr.Leases

namespace DistributAr

open Lib Lease

namespace Tracker

/-- The address is not in the map. -/
def Unregistered (t : Tracker) (a : SockAddr) : Prop := ∀ n, t.clusters.lookup n ≠ some a

/-- What an address without a registration is told to run under is an ID of its
own, and the assignment leaves the registrations of all others alone. -/
structure Fresh (t : Tracker) (turn : Turn) (a : SockAddr) (n : ClusterID) : Prop where
  ne_zero : n ≠ 0
  ne_timeServerId : n ≠ timeServerId
  unused : ∀ b ≠ a, t.clusters.lookup n ≠ some b
  kept : ∀ b ≠ a, ∀ k, t.clusters.lookup k = some b →
    (t.handle turn a (.id 0)).1.clusters.lookup k = some b

/-- In every state of a run an assigned ID is fresh. -/
def AssignedFresh (es : List Event) : Prop :=
  ∀ turn a es', ⟨turn, a, .id 0⟩ :: es' <:+ es → (history es').1.Unregistered a →
    ∀ n, ((history es').1.handle turn a (.id 0)).2 = .run n → (history es').1.Fresh turn a n

/-- `b` once sent `ID n` on its own account, and nothing since has taken `n` from
it: no one else registered `n`, `b` registered nothing else, and no `GET n` was
answered `DROP n`. -/
def Claimed (h : List Entry) (n : ClusterID) (b : SockAddr) : Prop :=
  ∃ newer e older, h = newer ++ e :: older ∧ e.cmd = .id n ∧ e.sender = b
    ∧ ∀ e' ∈ newer, ∀ op, e'.op = some op → op.ends n b = false

/-- Every assignment of a run finds the counter below `TIME_SERVER_ID` and at an
ID that nobody claims. -/
def CounterAhead (es : List Event) : Prop :=
  ∀ turn a es', ⟨turn, a, .id 0⟩ :: es' <:+ es → (history es').1.Unregistered a →
    (history es').1.next ≠ timeServerId
      ∧ ∀ b, ¬ Claimed (history es').2 (history es').1.next b

/-! ## Claims -/

theorem Claimed.cons {h : List Entry} {e : Entry} {n : ClusterID} {b : SockAddr}
    (hc : Claimed h n b) (he : ∀ op, e.op = some op → op.ends n b = false) :
    Claimed (e :: h) n b := by
  obtain ⟨newer, e₀, older, rfl, hcmd, hsender, hkept⟩ := hc
  refine ⟨e :: newer, e₀, older, rfl, hcmd, hsender, ?_⟩
  intro e' he'
  rcases List.mem_cons.mp he' with rfl | hold
  · exact he
  · exact hkept e' hold

/-- Whoever claims an ID holds it. -/
theorem Claimed.table {h : List Entry} {n : ClusterID} {b : SockAddr} (hn : n ≠ 0)
    (hc : Claimed h n b) : ∃ u, table (ops h) n = some (b, u) := by
  obtain ⟨newer, e, older, rfl, hcmd, rfl, hkept⟩ := hc
  induction newer with
  | nil =>
      have hop : e.op = some (.register n e.sender e.now) := by
        simp only [Entry.op, hcmd, ne_eq, hn, not_false_iff, if_true]
      exact ⟨e.now, by simp [ops, hop, Lease.table, Op.apply]⟩
  | cons e' newer ih =>
      have hold := ih fun e'' he'' => hkept e'' (List.mem_cons_of_mem _ he'')
      cases hop : e'.op with
      | none => simpa [ops, hop] using hold
      | some op =>
          have hends := hkept e' List.mem_cons_self op hop
          have hnew := Op.held_apply.mpr (.inr ⟨hold, hends⟩)
          simpa [ops, hop, Lease.table] using hnew

/-! ## The counter -/

theorem findByValue_eq_zero_iff {t : Tracker} (order : MapOrder) {a : SockAddr}
    (hzero : t.clusters.lookup 0 = none) : t.findByValue order a = 0 ↔ t.Unregistered a := by
  constructor
  · exact fun h n => lookup_of_findByValue_eq_zero h hzero
  · intro h
    by_contra hne
    exact h _ (lookup_findByValue hne)

/-- Only an assignment moves the counter. -/
theorem next_handle (t : Tracker) (turn : Turn) (sender : SockAddr) (cmd : Command) :
    (t.handle turn sender cmd).1.next = t.next ∨
      (cmd = .id 0 ∧ t.findByValue turn.order sender = 0
        ∧ (t.handle turn sender cmd).1.next = t.next + 1) := by
  cases cmd with
  | id newId =>
      have hnext : (t.handleId turn sender newId).1.next = _ := next_handleId
      by_cases h : newId = 0 ∧ t.findByValue turn.order sender = 0
      · rw [if_pos h] at hnext
        exact .inr ⟨by rw [h.1], h.2, hnext⟩
      · rw [if_neg h] at hnext
        exact .inl hnext
  | get what =>
      refine .inl ?_
      show (t.handleGet turn what).1.next = t.next
      unfold handleGet
      split
      · rfl
      · split
        · split <;> rfl
        · rfl
  | list => exact .inl rfl
  | ack => exact .inl rfl

/-- `ID 0` is answered with the next number of the counter, if the sender has no
ID, and with the ID it has otherwise. -/
theorem reply_handle_zero {t : Tracker} {turn : Turn} {a : SockAddr} {n : ClusterID}
    (h : (t.handle turn a (.id 0)).2 = .run n) :
    (t.findByValue turn.order a = 0 ∧ n = t.next
        ∧ (t.handle turn a (.id 0)).1.next = t.next + 1)
      ∨ t.clusters.lookup n = some a := by
  have hreply : (t.handleId turn a 0).2 = .run (t.registeredId turn a 0) := by
    rw [reply_handleId, if_pos rfl]
  have hn : t.registeredId turn a 0 = n := Reply.run.inj (hreply.symm.trans h)
  simp only [registeredId, ne_eq, not_true, if_false] at hn
  by_cases hfind : t.findByValue turn.order a = 0
  · rw [if_pos hfind] at hn
    have hnext : (t.handleId turn a 0).1.next = t.next + 1 := by
      rw [next_handleId, if_pos ⟨rfl, hfind⟩]
    exact .inl ⟨hfind, hn.symm, hnext⟩
  · rw [if_neg hfind] at hn
    exact .inr (hn ▸ lookup_findByValue hfind)

theorem lt_succ_of_ne_timeServerId {n : ClusterID} (h : n ≠ timeServerId) : n < n + 1 := by
  have hlt := n.toNat_lt
  have hne : n.toNat ≠ 4294967295 := fun heq => h (UInt32.toNat_inj.mp heq)
  rw [UInt32.lt_iff_toNat_lt, UInt32.toNat_add]
  show n.toNat < (n.toNat + 1) % 2 ^ 32
  omega

/-- What is true of the counter as long as it is ahead of all claims: it never
wraps, and every ID from the counter on that is in the map is a claimed one. -/
structure CounterInv (es : List Event) : Prop where
  notWrapped : NotWrapped es
  low : reservedClusterId < (history es).1.next
  claimed : ∀ n b u, (history es).1.next ≤ n → table (ops (history es).2) n = some (b, u) →
    Claimed (history es).2 n b

theorem CounterAhead.of_suffix {es es' : List Event} (h : CounterAhead es) (hs : es' <:+ es) :
    CounterAhead es' :=
  fun turn a s hs' => h turn a s (hs'.trans hs)

/-- The counter never goes back, short of `TIME_SERVER_ID`. -/
theorem CounterInv.next_le {es : List Event} (hinv : CounterInv es) {e : Event}
    (hassign : e.cmd = .id 0 → (history es).1.Unregistered e.sender →
      (history es).1.next ≠ timeServerId) : (history es).1.next ≤ (history (e :: es)).1.next := by
  have hnext : (history (e :: es)).1.next = (history es).1.next ∨
      (e.cmd = .id 0 ∧ (history es).1.findByValue e.turn.order e.sender = 0
        ∧ (history (e :: es)).1.next = (history es).1.next + 1) :=
    next_handle (history es).1 e.turn e.sender e.cmd
  rcases hnext with hsame | ⟨hcmd, hfind, hsucc⟩
  · rw [hsame]
    exact UInt32.le_refl _
  · rw [hsucc]
    have hr := refines_history hinv.notWrapped
    have hne := hassign hcmd ((findByValue_eq_zero_iff _ hr.zero).mp hfind)
    exact UInt32.le_of_lt (lt_succ_of_ne_timeServerId hne)

/-- What is mapped at or above the counter after a command is claimed. -/
theorem CounterInv.claimed_cons {es : List Event} (hinv : CounterInv es) {e : Event}
    (hassign : e.cmd = .id 0 → (history es).1.Unregistered e.sender →
      (history es).1.next ≠ timeServerId) {n : ClusterID} {b : SockAddr} {u : Int}
    (hn : (history (e :: es)).1.next ≤ n)
    (htable : table (ops (history (e :: es)).2) n = some (b, u)) :
    Claimed (history (e :: es)).2 n b := by
  have hr := refines_history hinv.notWrapped
  have hclaim : (∃ v, table (ops (history es).2) n = some (b, v)) → Claimed (history es).2 n b :=
    fun ⟨v, hv⟩ => hinv.claimed n b v (UInt32.le_trans (hinv.next_le hassign) hn) hv
  generalize hentry : (⟨e.turn.now, e.sender, e.cmd,
    ((history es).1.handle e.turn e.sender e.cmd).2⟩ : Entry) = entry
  have hhist : (history (e :: es)).2 = entry :: (history es).2 := by
    rw [← hentry]
    rfl
  rw [hhist] at htable ⊢
  cases hop : entry.op with
  | none =>
      have hold : table (ops (history es).2) n = some (b, u) := by simpa [ops, hop] using htable
      exact (hclaim ⟨u, hold⟩).cons fun op h => by rw [hop] at h; cases h
  | some op =>
      have happly : ∃ v, op.apply (table (ops (history es).2)) n = some (b, v) :=
        ⟨u, by simpa [ops, hop, table] using htable⟩
      rcases Op.held_apply.mp happly with ⟨v, rfl⟩ | ⟨hold, hends⟩
      · obtain ⟨hsender, ⟨-, hcmd⟩ | ⟨hcmd, hreply⟩⟩ := Entry.op_eq_register hop
        · exact ⟨[], entry, (history es).2, rfl, hcmd, hsender,
            fun _ h => absurd h List.not_mem_nil⟩
        · obtain ⟨turn, sender, cmd⟩ := e
          subst hentry
          dsimp only at hcmd hreply hsender hassign
          subst hcmd hsender
          rcases reply_handle_zero hreply with ⟨hfind, rfl, hsucc⟩ | hheld
          · -- A number just taken off the counter is behind it.
            have hne := hassign rfl ((findByValue_eq_zero_iff _ hr.zero).mp hfind)
            have hle : (history es).1.next + 1 ≤ (history es).1.next := hsucc ▸ hn
            exact absurd (lt_succ_of_ne_timeServerId hne) (UInt32.not_lt.mpr hle)
          · refine (hclaim ⟨(history es).1.updateTime n, ?_⟩).cons ?_
            · rw [← hr.view]
              exact view_eq_some.mpr ⟨hheld, rfl⟩
            · intro op h
              rw [hop] at h
              cases h
              simp [Op.ends]
      · exact (hclaim hold).cons fun op' h => by
          rw [hop] at h
          cases h
          exact hends

/-- One command keeps the invariant, unless it is an assignment at
`TIME_SERVER_ID`. -/
theorem CounterInv.cons {es : List Event} (hinv : CounterInv es) (e : Event)
    (hassign : e.cmd = .id 0 → (history es).1.Unregistered e.sender →
      (history es).1.next ≠ timeServerId) : CounterInv (e :: es) := by
  have hlow : reservedClusterId < (history (e :: es)).1.next :=
    UInt32.lt_of_lt_of_le hinv.low (hinv.next_le hassign)
  refine ⟨forall_suffix_cons ?_ hinv.notWrapped, hlow,
    fun n b u hn htable => hinv.claimed_cons hassign hn htable⟩
  intro hzero
  rw [hzero] at hlow
  exact absurd hlow (by decide)

theorem counterInv {es : List Event} (h : CounterAhead es) : CounterInv es := by
  induction es with
  | nil =>
      refine ⟨?_, by decide, ?_⟩
      · intro s hs
        rw [List.suffix_nil.mp hs]
        decide
      · intro n b u _ htable
        cases htable
  | cons e es ih =>
      refine (ih (h.of_suffix (List.suffix_cons e es))).cons e ?_
      intro hcmd hnew
      obtain ⟨turn, sender, cmd⟩ := e
      dsimp only at hcmd
      subst hcmd
      exact (h turn sender es (List.suffix_refl _) hnew).1

/-! ## Fresh assignments -/

/-- An assignment is fresh when the counter is below `TIME_SERVER_ID` and nobody
claims its number. -/
theorem fresh_iff {es : List Event} (hinv : CounterInv es) {turn : Turn} {a : SockAddr}
    (ha : (history es).1.Unregistered a) :
    (∀ n, ((history es).1.handle turn a (.id 0)).2 = .run n → (history es).1.Fresh turn a n) ↔
      (history es).1.next ≠ timeServerId
        ∧ ∀ b, ¬ Claimed (history es).2 (history es).1.next b := by
  have hr := refines_history hinv.notWrapped
  have hnext : (history es).1.next ≠ 0 := hinv.notWrapped es (List.suffix_refl _)
  have hfind := (findByValue_eq_zero_iff turn.order hr.zero).mpr ha
  have hid : (history es).1.registeredId turn a 0 = (history es).1.next := by
    simp [registeredId, hfind]
  have hlookup : ∀ b, (history es).1.clusters.lookup (history es).1.next = some b ↔
      Claimed (history es).2 (history es).1.next b := by
    intro b
    constructor
    · intro hb
      have htable := hr.view ▸ view_eq_some.mpr ⟨hb, rfl⟩
      exact hinv.claimed _ b _ (UInt32.le_refl _) htable
    · intro hc
      obtain ⟨u, hu⟩ := hc.table hnext
      rw [← hr.view] at hu
      exact (view_eq_some.mp hu).1
  have hreply : ((history es).1.handle turn a (.id 0)).2 = .run (history es).1.next := by
    show ((history es).1.handleId turn a 0).2 = _
    rw [reply_handleId, if_pos rfl, hid]
  constructor
  · intro h
    have hfresh := h _ hreply
    refine ⟨hfresh.ne_timeServerId, ?_⟩
    intro b hc
    have hb := (hlookup b).mpr hc
    by_cases hba : b = a
    · exact ha _ (hba ▸ hb)
    · exact hfresh.unused b hba hb
  · rintro ⟨hts, hunclaimed⟩ n hn
    obtain rfl : (history es).1.next = n := Reply.run.inj (hreply.symm.trans hn)
    refine ⟨hnext, hts, fun b _ hb => hunclaimed b ((hlookup b).mp hb), ?_⟩
    intro b hba k hk
    show ((history es).1.handleId turn a 0).1.clusters.lookup k = some b
    have hkn : k ≠ (history es).1.next := by
      rintro rfl
      exact hunclaimed b ((hlookup b).mp hk)
    rw [lookup_handleId hr.zero hr.exclusive, hid, if_neg hkn, hk]
    exact if_neg fun heq => hba (Option.some.inj heq)

/-- In any run: all assigned IDs are fresh exactly when every assignment finds
the counter below `TIME_SERVER_ID` and at an ID that nobody claims. -/
theorem assigned_fresh_iff (es : List Event) : AssignedFresh es ↔ CounterAhead es := by
  induction es with
  | nil =>
      have hnil : ∀ {turn a es'}, ¬ (⟨turn, a, .id 0⟩ : Event) :: es' <:+ [] := fun h =>
        absurd (List.suffix_nil.mp h) (List.cons_ne_nil _ _)
      exact ⟨fun _ _ _ _ h => absurd h hnil, fun _ _ _ _ h => absurd h hnil⟩
  | cons e es ih =>
      constructor
      · intro hfresh turn a es' hs ha
        have hahead : CounterAhead es := ih.mp fun turn a s hs' =>
          hfresh turn a s (hs'.trans (List.suffix_cons e es))
        rcases List.suffix_cons_iff.mp hs with heq | hold
        · obtain ⟨rfl, rfl⟩ := List.cons.inj heq
          exact (fresh_iff (counterInv hahead) ha).mp (hfresh turn a es' hs ha)
        · exact hahead turn a es' hold ha
      · intro hahead turn a es' hs ha
        have htail := hahead.of_suffix (List.suffix_cons e es)
        rcases List.suffix_cons_iff.mp hs with heq | hold
        · obtain ⟨rfl, rfl⟩ := List.cons.inj heq
          exact (fresh_iff (counterInv htail) ha).mpr (hahead turn a es' hs ha)
        · exact ih.mpr htail turn a es' hold ha

/-- A server comes with the ID 1025, the first one the counter has to give. -/
def namedServer : List Event := [⟨⟨0, .kept, 0⟩, ⟨0x0A000001, 5000⟩, .id 1025⟩]

/-- The next one to ask takes it over. -/
theorem namedServer_overwritten :
    ¬ AssignedFresh (⟨⟨seconds 1, .kept, 0⟩, ⟨0x0A000002, 6000⟩, .id 0⟩ :: namedServer) := by
  intro h
  have hnew : (history namedServer).1.Unregistered ⟨0x0A000002, 6000⟩ :=
    (findByValue_eq_zero_iff .kept rfl).mp rfl
  have hfresh := h ⟨seconds 1, .kept, 0⟩ ⟨0x0A000002, 6000⟩ namedServer (List.suffix_refl _)
    hnew 1025 rfl
  exact hfresh.unused ⟨0x0A000001, 5000⟩ (by decide) rfl

end Tracker

end DistributAr
