/-
# `DistributAr.Answers` — queries that are not answered

`GET` and `LIST` put their answer into a string and hand it to `sendCommand`,
which does not send an empty one.  Two branches leave it empty:

| query    | answer                                                          |
|----------|-----------------------------------------------------------------|
| `GET n`  | `DROP n` if `n` is not registered, `POINT n` if it is           |
|          | `DROP n` if it is, too long ago, and not reserved               |
|          | none if it is, too long ago, and reserved                       |
| `LIST`   | the IDs registered not too long ago, none if there are no such  |

Nothing else is left without an answer (`queries_answered_iff`).
-/
import DistributAr.Leases

namespace DistributAr

open Lib

namespace Tracker

/-- The entry of `n` is older than `ENV_UPDATE_TIME`. -/
def Expired (t : Tracker) (now : Int) (n : ClusterID) : Prop :=
  ∃ a u, t.view n = some (a, u) ∧ u < now - envUpdateTime

/-- There is an entry that is not. -/
def SomeLive (t : Tracker) (now : Int) : Prop :=
  ∃ n a u, t.view n = some (a, u) ∧ ¬ u < now - envUpdateTime

/-- A `GET n` is answered with a `POINT n` or a `DROP n`. -/
def AnsweredGet (sent : Option (List Char)) (n : ClusterID) : Prop :=
  sent = some (Reply.drop n).text ∨ ∃ a, sent = some (Reply.point n a).text

/-- A `LIST` is answered with the IDs registered not too long ago, each once. -/
def AnsweredList (t : Tracker) (now : Int) (sent : Option (List Char)) : Prop :=
  ∃ ids : List ClusterID, sent = some (Reply.list ids).text ∧ ids.Nodup
    ∧ ∀ n, n ∈ ids ↔ ∃ a u, t.view n = some (a, u) ∧ ¬ u < now - envUpdateTime

variable {t : Tracker} {turn : Turn} {sender : SockAddr} {n : ClusterID} {cmd : Command}
  {buff : List Char}

/-- What a turn sends, once the command is understood. -/
theorem iteration_sent (h : Command.parse turn.garbage buff = some cmd) :
    (t.iteration turn sender buff).2 = sendCommand (t.handle turn sender cmd).2.text := by
  rw [iteration, h]

/-- The branches of `GET`: the last one has no answer. -/
theorem handleGet_cases (t : Tracker) (turn : Turn) (n : ClusterID) :
    (¬ t.Expired turn.now n ∧ t.handleGet turn n = (t, .drop n))
      ∨ (¬ t.Expired turn.now n ∧ ∃ a, t.handleGet turn n = (t, .point n a))
      ∨ (t.Expired turn.now n ∧ n > reservedClusterId
        ∧ t.handleGet turn n = (t.eraseCluster n, .drop n))
      ∨ (t.Expired turn.now n ∧ n ≤ reservedClusterId ∧ t.handleGet turn n = (t, .silent)) := by
  unfold Expired
  rw [handleGet_eq]
  cases hview : t.view n with
  | none =>
      refine .inl ⟨?_, rfl⟩
      rintro ⟨a, u, hsome, -⟩
      cases hsome
  | some entry =>
      obtain ⟨a, u⟩ := entry
      dsimp only
      split
      · rename_i hexp
        have hexpired : ∃ b v, some (a, u) = some (b, v) ∧ v < turn.now - envUpdateTime :=
          ⟨a, u, rfl, hexp⟩
        split
        · rename_i hn
          exact .inr (.inr (.inl ⟨hexpired, hn, rfl⟩))
        · rename_i hn
          exact .inr (.inr (.inr ⟨hexpired, UInt32.not_lt.mp hn, rfl⟩))
      · rename_i hexp
        refine .inr (.inl ⟨?_, a, rfl⟩)
        rintro ⟨b, v, heq, hv⟩
        cases heq
        exact hexp hv

theorem handleGet_answered_iff :
    AnsweredGet (sendCommand (t.handleGet turn n).2.text) n
      ↔ ¬ (n ≤ reservedClusterId ∧ t.Expired turn.now n) := by
  have hdrop : AnsweredGet (sendCommand (Reply.drop n).text) n :=
    .inl (sendCommand_of_ne_nil (List.cons_ne_nil _ _))
  obtain ⟨hexp, heq⟩ | ⟨hexp, a, heq⟩ | ⟨-, hn, heq⟩ | ⟨hexp, hn, heq⟩ :=
    handleGet_cases t turn n
  · rw [heq]
    exact iff_of_true hdrop fun h => hexp h.2
  · rw [heq]
    exact iff_of_true (.inr ⟨a, sendCommand_of_ne_nil (List.cons_ne_nil _ _)⟩) fun h => hexp h.2
  · rw [heq]
    exact iff_of_true hdrop fun h => UInt32.not_le.mpr hn h.1
  · rw [heq]
    refine iff_of_false ?_ fun h => h ⟨hn, hexp⟩
    rintro (h | ⟨b, h⟩) <;> cases h

theorem list_text_eq_nil {ids : List ClusterID} : (Reply.list ids).text = [] ↔ ids = [] := by
  cases ids with
  | nil => exact iff_of_true rfl rfl
  | cons id ids =>
      refine iff_of_false ?_ (List.cons_ne_nil _ _)
      intro h
      exact IStream.printUnsigned_ne_nil id.toNat
        (List.append_eq_nil_iff.mp (List.append_eq_nil_iff.mp h).1).1

theorem handleList_answered_iff :
    t.AnsweredList turn.now (sendCommand (t.handleList turn).2.text) ↔ t.SomeLive turn.now := by
  have hmem : ∀ n, n ∈ ((turn.order.visit t.clusters).map Sigma.fst).filter
      (fun id => !t.isOld turn.now id) ↔ ∃ a u, t.view n = some (a, u)
        ∧ ¬ u < turn.now - envUpdateTime := fun n => mem_handleList
  constructor
  · rintro ⟨ids, hsent, -, hids⟩
    have hne : ids ≠ [] := by
      rintro rfl
      -- an empty text would have been sent
      rw [← eq_of_sendCommand hsent] at hsent
      cases hsent
    obtain ⟨n, hn⟩ := List.exists_mem_of_ne_nil ids hne
    exact ⟨n, (hids n).mp hn⟩
  · rintro ⟨n, hlive⟩
    refine ⟨_, sendCommand_of_ne_nil ?_, nodup_handleList, hmem⟩
    rw [ne_eq, handleList, list_text_eq_nil]
    exact List.ne_nil_of_mem ((hmem n).mpr hlive)

end Tracker

open Tracker in
/-- In every reachable state a `GET n` is answered exactly if it does not ask for a
reserved ID that was registered too long ago, and a `LIST` exactly if there is
something on the list. -/
theorem queries_answered_iff (es : List Event) (turn : Turn) (sender : SockAddr)
    (buff : List Char) :
    let t := (history es).1
    (∀ n, Command.parse turn.garbage buff = some (.get n) →
        (AnsweredGet (t.iteration turn sender buff).2 n
          ↔ ¬ (n ≤ reservedClusterId ∧ t.Expired turn.now n)))
      ∧ (Command.parse turn.garbage buff = some .list →
        (t.AnsweredList turn.now (t.iteration turn sender buff).2 ↔ t.SomeLive turn.now)) := by
  intro t
  refine ⟨?_, ?_⟩
  · intro n hparse
    rw [iteration_sent hparse]
    exact handleGet_answered_iff
  · intro hparse
    rw [iteration_sent hparse]
    exact handleList_answered_iff

/-- The cluster 7 registers. -/
def ioCluster : List Event := [⟨⟨0, .kept, 0⟩, ⟨0x0A000001, 5000⟩, .id 7⟩]

/-- Ten minutes and a second later nobody is told about it, one way or the other. -/
theorem ioCluster_not_answered :
    ¬ Tracker.AnsweredGet ((Tracker.history ioCluster).1.iteration ⟨seconds 601, .kept, 0⟩
        ⟨0x0A000002, 6000⟩ (Command.get 7).text).2 7
      ∧ ¬ (Tracker.history []).1.AnsweredList 0 ((Tracker.history []).1.iteration ⟨0, .kept, 0⟩
        ⟨0x0A000002, 6000⟩ Command.list.text).2 := by
  have hget : ((Tracker.history ioCluster).1.iteration ⟨seconds 601, .kept, 0⟩
      ⟨0x0A000002, 6000⟩ (Command.get 7).text).2 = none := rfl
  have hlist : ((Tracker.history []).1.iteration ⟨0, .kept, 0⟩ ⟨0x0A000002, 6000⟩
      Command.list.text).2 = none := rfl
  rw [hget, hlist]
  constructor
  · rintro (h | ⟨a, h⟩) <;> cases h
  · rintro ⟨ids, h, -⟩
    cases h

end DistributAr
