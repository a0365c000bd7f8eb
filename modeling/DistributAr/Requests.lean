/-
# `DistributAr.Requests` — what the tracker takes for a request

The loop of `Tracker::run` reads into one buffer of 1024 bytes.  The size it hands
to `ReadSelect` goes there by value, so the loop never learns how long a datagram
was: the zero it writes to end the text goes to the last byte of the buffer,
always.  And it asks only whether `ReadSelect` returned zero, where errors are
negative.

| read              | the loop acts on                                        |
|-------------------|---------------------------------------------------------|
| nothing in time   | nothing                                                 |
| an empty datagram | nothing                                                 |
| a datagram        | its text, and what earlier ones left if it has no zero  |
| an error          | what is in the buffer, once more                        |

And the number of an `ID` or a `GET` goes to a variable that nothing was assigned to:
where the text ends without one, the loop acts on what is there, be it the number of an
earlier request.

`requests_isolated` says when a pass acts on its own datagram.
-/
import DistributAr.Lib.Memory
import DistributAr.Lib.Run
import DistributAr.Tracker

namespace DistributAr

open Lib

/-- `sizeof(buff)-1` -/
def trackerReadSize : Nat := 1024 - 1

/-- What `ReadSelect` can meet. -/
inductive ReadOutcome where
  | timeout
  | failed (code : Int) (neg : code < 0)
  | received (bytes : List UInt8) (le : bytes.length ≤ trackerReadSize) (sender : SockAddr)

namespace ReadOutcome

/-- What `ReadSelect` returns. -/
def ret : ReadOutcome → Int
  | timeout => 0
  | failed code _ => code
  | received bytes _ _ => bytes.length

/-- What it writes to the buffer. -/
def bytes : ReadOutcome → List UInt8
  | timeout => []
  | failed _ _ => []
  | received bytes _ _ => bytes

/-- What it leaves in `from`, which is `garbage` before. -/
def sender (garbage : SockAddr) : ReadOutcome → SockAddr
  | timeout => garbage
  | failed _ _ => garbage
  | received _ _ sender => sender

end ReadOutcome

/-- The characters of a string, byte by byte. -/
def chars (bytes : List UInt8) : List Char := bytes.map fun b => Char.ofNat b.toNat

/-- The text of a datagram, up to its first zero or its end. -/
def textOf (bytes : List UInt8) : List Char := chars (bytes.takeWhile (· ≠ 0))

/-- If the text asks for an ID or an address then a number can be extracted after that. -/
def Legible (text : List Char) : Prop :=
  let (word, is) := (IStream.ofChars text).readWord
  word = some "ID".toList ∨ word = some "GET".toList → (is.readUnsigned 32).1.isSome

/-- One pass of the loop: what is read, what the pass finds, also in its variable for the
number, and what is in `from` before. -/
structure Pass where
  outcome : ReadOutcome
  turn : Turn
  garbage : SockAddr

/-- The tracker and the receive buffer. -/
structure TrackerLoop where
  tracker : Tracker
  buff : Memory

namespace TrackerLoop

/-- One pass of the loop of `Tracker::run`, and what is sent to whom. -/
def pass (s : TrackerLoop) (p : Pass) : TrackerLoop × Option (SockAddr × List Char) :=
  let buff := s.buff.overlay p.outcome.bytes
  if p.outcome.ret = 0 ∨ trackerReadSize = 0 then (⟨s.tracker, buff⟩, none)
  else
    let buff : Memory := Function.update buff trackerReadSize 0
    let sender := p.outcome.sender p.garbage
    let (tracker, reply) :=
      s.tracker.iteration p.turn sender (chars (buff.string (trackerReadSize + 1)))
    (⟨tracker, buff⟩, reply.map fun reply => (sender, reply))

/-- The text that a pass acts on, if it does not `continue` at once. -/
def acts (s : TrackerLoop) (p : Pass) : Option (List Char) :=
  if p.outcome.ret = 0 then none
  else some (chars ((s.buff.overlay p.outcome.bytes).string trackerReadSize))

/-- The passes of a run. -/
def step (s : TrackerLoop) (p : Pass) : Option TrackerLoop := some (s.pass p).1

/-- What a pass does: nothing, or what the branches of the loop do with the text. -/
theorem pass_eq (s : TrackerLoop) (p : Pass) :
    (s.pass p).1.tracker = (match s.acts p with
        | none => s.tracker
        | some text => (s.tracker.iteration p.turn (p.outcome.sender p.garbage) text).1)
      ∧ ((s.pass p).2 = match s.acts p with
        | none => none
        | some text => (s.tracker.iteration p.turn (p.outcome.sender p.garbage) text).2.map
            fun reply => (p.outcome.sender p.garbage, reply))
      ∧ (s.pass p).1.buff = if p.outcome.ret = 0 then s.buff.overlay p.outcome.bytes
          else Function.update (s.buff.overlay p.outcome.bytes) trackerReadSize 0 := by
  unfold pass acts
  by_cases hret : p.outcome.ret = 0
  · rw [if_pos (.inl hret), if_pos hret, if_pos hret]
    exact ⟨rfl, rfl, rfl⟩
  · have hgo : ¬ (p.outcome.ret = 0 ∨ trackerReadSize = 0) := by
      rintro (h | h)
      · exact hret h
      · exact absurd h (by decide)
    rw [if_neg hgo, if_neg hret, if_neg hret]
    dsimp only
    rw [Memory.string_update]
    exact ⟨rfl, rfl, rfl⟩

/-! ## Isolation and its condition -/

/-- A pass that read nothing does nothing, and one that read a datagram does what
the text of this datagram asks for, whatever its variable for the number held before. -/
def Isolated (s : TrackerLoop) (p : Pass) : Prop :=
  match p.outcome with
  | .timeout => (s.pass p).1.tracker = s.tracker ∧ (s.pass p).2 = none
  | .failed _ _ => (s.pass p).1.tracker = s.tracker ∧ (s.pass p).2 = none
  | .received bytes _ sender => ∀ held : ClusterID,
      let turn := { p.turn with garbage := held }
      (s.pass p).1.tracker = (s.tracker.iteration turn sender (textOf bytes)).1
        ∧ (s.pass p).2 = (s.tracker.iteration turn sender (textOf bytes)).2.map
          fun reply => (sender, reply)

/-- The same of the text by itself: none is acted on, or that of the datagram, and its
meaning is in it.  An empty one asks for nothing. -/
def ActsOnText (s : TrackerLoop) (p : Pass) : Prop :=
  match p.outcome with
  | .timeout => s.acts p = none
  | .failed _ _ => s.acts p = none
  | .received bytes _ _ => (s.acts p).getD [] = textOf bytes
      ∧ ∀ held held', Command.parse held (textOf bytes) = Command.parse held' (textOf bytes)

/-- The read does not fail, a datagram ends in itself: it has a zero, or fills the
buffer, or a zero is left where it ends; and a number that it should have can be read. -/
def SelfContained (s : TrackerLoop) (p : Pass) : Prop :=
  match p.outcome with
  | .timeout => True
  | .failed _ _ => False
  | .received bytes _ _ =>
      (bytes = [] ∨ 0 ∈ bytes ∨ bytes.length = trackerReadSize ∨ s.buff bytes.length = 0)
        ∧ Legible (textOf bytes)

variable {s : TrackerLoop} {p : Pass}

theorem chars_inj {bytes bytes' : List UInt8} : chars bytes = chars bytes' ↔ bytes = bytes' := by
  have hinj : Function.Injective fun b : UInt8 => Char.ofNat b.toNat := by
    have hvalid : ∀ b : UInt8, b.toNat.isValidChar := fun b => .inl (by have := b.toNat_lt; omega)
    have hround : ∀ b : UInt8, (Char.ofNat b.toNat).toNat = b.toNat := fun b => by
      rw [Char.ofNat, dif_pos (hvalid b)]
      rfl
    intro b b' h
    refine UInt8.toNat_inj.mp ?_
    rw [← hround b, ← hround b']
    exact congrArg Char.toNat h
  exact hinj.list_map.eq_iff

/-- What a text means is in the text exactly if it is legible. -/
theorem legible_iff (text : List Char) :
    (∀ held held', Command.parse held text = Command.parse held' text) ↔ Legible text := by
  rw [Legible]
  rcases hread : (IStream.ofChars text).readWord with ⟨word, is⟩
  simp only [Command.parse, hread]
  cases hnumber : (is.readUnsigned 32).1 with
  | some n => exact iff_of_true (fun _ _ => rfl) fun _ => rfl
  | none =>
      simp only [Option.map_none, Option.getD_none, Option.isSome_none, Bool.false_eq_true,
        imp_false, not_or]
      cases word with
      | none =>
          have hnone (w : List Char) : ¬ none = some w := Option.some_ne_none w ∘ Eq.symm
          exact iff_of_true (fun _ _ => rfl) ⟨hnone _, hnone _⟩
      | some word =>
          rw [Option.getD_some, Option.some_inj, Option.some_inj]
          constructor
          · -- 0 and 1 are told apart
            intro hsame
            have hdiffers := hsame 0 1
            constructor
            · intro hid
              rw [if_pos hid, if_pos hid] at hdiffers
              exact absurd hdiffers (by decide)
            · rintro rfl
              exact absurd hdiffers (by decide)
          · rintro ⟨hid, hget⟩ held held'
            rw [if_neg hid, if_neg hid, if_neg hget, if_neg hget]

/-- The variable for the number has no other use. -/
theorem iteration_held (t : Tracker) (turn : Turn) (sender : SockAddr) {text : List Char}
    (h : ∀ held held', Command.parse held text = Command.parse held' text) (held : ClusterID) :
    t.iteration { turn with garbage := held } sender text = t.iteration turn sender text := by
  have hhandle : ∀ cmd, t.handle { turn with garbage := held } sender cmd
      = t.handle turn sender cmd := by
    intro cmd
    cases cmd <;> rfl
  rw [Tracker.iteration, Tracker.iteration]
  dsimp only
  rw [h held turn.garbage]
  cases Command.parse turn.garbage text with
  | none => rfl
  | some cmd =>
      dsimp only
      rw [hhandle]

/-- A pass acts on the right text exactly if its read is self-contained. -/
theorem actsOnText_iff (s : TrackerLoop) (p : Pass) : s.ActsOnText p ↔ s.SelfContained p := by
  obtain ⟨outcome, turn, garbage⟩ := p
  cases outcome with
  | timeout => exact iff_of_true rfl trivial
  | failed code neg =>
      have hret : ¬ code = 0 := Int.ne_of_lt neg
      refine iff_of_false ?_ id
      intro h
      change (if code = 0 then none else some _) = none at h
      rw [if_neg hret] at h
      cases h
  | received bytes le sender =>
      refine and_congr ?_ (legible_iff _)
      change ((if (bytes.length : Int) = 0 then none
        else some (chars ((s.buff.overlay bytes).string trackerReadSize))).getD [] = textOf bytes)
          ↔ _ ∨ _
      cases bytes with
      | nil => exact iff_of_true rfl (.inl rfl)
      | cons b bytes =>
          have hret : ¬ ((b :: bytes).length : Int) = 0 := by
            rw [List.length_cons]
            omega
          rw [if_neg hret, Option.getD_some, textOf, chars_inj, Memory.string_overlay_iff _ le]
          exact (or_iff_right (List.cons_ne_nil b bytes)).symm

/-- Whoever acts on the right text does the right thing. -/
theorem isolated_of_actsOnText (h : s.ActsOnText p) : s.Isolated p := by
  obtain ⟨htracker, hsent, -⟩ := s.pass_eq p
  obtain ⟨outcome, turn, garbage⟩ := p
  cases outcome with
  | timeout => exact ⟨htracker, hsent⟩
  | failed code neg =>
      have hnone : s.acts ⟨.failed code neg, turn, garbage⟩ = none := h
      rw [hnone] at htracker hsent
      exact ⟨htracker, hsent⟩
  | received bytes le sender =>
      obtain ⟨htext, hlegible⟩ :
        (s.acts ⟨.received bytes le sender, turn, garbage⟩).getD [] = textOf bytes ∧ _ := h
      intro held turn'
      rw [htracker, hsent, iteration_held s.tracker turn sender hlegible held, ← htext]
      cases s.acts ⟨.received bytes le sender, turn, garbage⟩ with
      | none => exact ⟨rfl, rfl⟩
      | some text => exact ⟨rfl, rfl⟩

/-- Any run of the loop, from any tracker and any contents of the buffer: if all
reads are self-contained, every pass is isolated; and they are exactly if every pass
acts on the text of its own datagram, which alone says what to do, or on none. -/
theorem requests_isolated (s : TrackerLoop) (ps : List Pass) :
    (Run.Each step SelfContained s ps → Run.Each step Isolated s ps)
      ∧ (Run.Each step ActsOnText s ps ↔ Run.Each step SelfContained s ps) := by
  refine ⟨?_, ?_⟩
  · intro h before p hbefore t ht hstep
    exact isolated_of_actsOnText ((actsOnText_iff t p).mpr (h before p hbefore t ht hstep))
  · constructor
    · intro h before p hbefore t ht hstep
      exact (actsOnText_iff t p).mp (h before p hbefore t ht hstep)
    · intro h before p hbefore t ht hstep
      exact (actsOnText_iff t p).mpr (h before p hbefore t ht hstep)

/-! ## An error after a request -/

/-- An error makes the loop act on the request before it once more. -/
theorem acts_failed {bytes : List UInt8} (hzero : 0 ∈ bytes) {le : bytes.length ≤ trackerReadSize}
    {sender garbage garbage' : SockAddr} {turn turn' : Turn} {code : Int} {neg : code < 0} :
    (s.pass ⟨.received bytes le sender, turn, garbage⟩).1.acts ⟨.failed code neg, turn', garbage'⟩
      = some (textOf bytes) := by
  have hret : ¬ (ReadOutcome.received bytes le sender).ret = 0 := by
    have hpos := List.length_pos_of_mem hzero
    show ¬ (bytes.length : Int) = 0
    omega
  have hcode : ¬ (ReadOutcome.failed code neg).ret = 0 := Int.ne_of_lt neg
  obtain ⟨-, -, hbuff⟩ := s.pass_eq ⟨.received bytes le sender, turn, garbage⟩
  rw [if_neg hret] at hbuff
  have hstring : Memory.string (Function.update (s.buff.overlay bytes) trackerReadSize 0)
      trackerReadSize = bytes.takeWhile (· ≠ 0) := by
    rw [Memory.string_update_self]
    exact (Memory.string_overlay_iff _ le).mpr (.inl hzero)
  rw [acts, if_neg hcode, hbuff, textOf, ← hstring]
  rfl

/-- A request for an ID is always answered. -/
theorem iteration_id_zero (t : Tracker) (turn : Turn) (sender : SockAddr) :
    (t.iteration turn sender (Command.id 0).text).2
      = some (Reply.run (t.registeredId turn sender 0)).text := by
  rw [Tracker.iteration_text]
  show sendCommand (t.handleId turn sender 0).2.text = _
  rw [Tracker.reply_handleId, if_pos rfl]
  exact sendCommand_of_ne_nil (List.cons_ne_nil _ _)

/-- The bytes of `ID 0` and the zero behind it. -/
def idRequest : List UInt8 := [73, 68, 32, 48, 0]

/-- A cluster asks for an ID. -/
def idPass : Pass :=
  ⟨.received idRequest (by decide) ⟨0x0A000001, 5000⟩, ⟨0, .kept, 0⟩, ⟨0, 0⟩⟩

/-- The socket reports an error. -/
def errorPass : Pass := ⟨.failed (-1) (by decide), ⟨1, .kept, 0⟩, ⟨0, 0⟩⟩

/-- The request is served again, for whatever address is in `from`. -/
theorem idPass_errorPass_not_isolated :
    ¬ Run.Each step Isolated ⟨.new, fun _ => 0⟩ [idPass, errorPass] := by
  intro h
  obtain ⟨-, hsent⟩ := h [idPass] errorPass (List.prefix_refl _) _ rfl rfl
  have hacts : (pass ⟨.new, fun _ => 0⟩ idPass).1.acts errorPass = some (Command.id 0).text :=
    acts_failed (by decide)
  obtain ⟨-, hpass, -⟩ := (pass ⟨.new, fun _ => 0⟩ idPass).1.pass_eq errorPass
  rw [hacts] at hpass
  dsimp only at hpass
  rw [iteration_id_zero, hsent] at hpass
  cases hpass

end TrackerLoop

end DistributAr
