/-
# `DistributAr.Refusal` — a node index that does not fit

`TimeBuffer::write` refuses an index above `0xFFFF` with an exception.  Its
parameter is an `uint16_t`, so that the `int` of `Server::write` has been cut to
16 bits before the check, which then finds nothing to refuse.  An index out of
range is stored as another node, in all states but one kind: those where the
impulse is dropped (`transmits_iff`).
-/
import DistributAr.Journal

namespace DistributAr

namespace Server

/-- The text of the exception for an index. -/
def indexError (nodeIndex : Int) : String :=
  "Node index " ++ toString nodeIndex ++ " exceeds maximum network transmission size of 0xFFFF"

/-- The call sends its index or refuses it.  It throws in the first attempt, when
nothing has been changed; or drops the impulse; or the entry stored last is for
the node of the call. -/
def Transmits (s : Server) (c : Call) : Prop :=
  (s.timeBuff.write c.delta c.index c.time = .error (indexError c.nodeIndex)
      ∧ s.write c = .error (.exception (indexError c.nodeIndex))) ∨
    (s.timeBuff.Drops c.time ∧ s.write c = .ok s) ∨
    ∃ s' node, s.write c = .ok s' ∧ s'.timeBuff.nodes.getLast? = some node
      ∧ (node.toNat : Int) = c.nodeIndex

variable {s s' : Server} {c : Call}

/-- An impulse that is not dropped is the last entry afterwards, under the index
that is left of the one given. -/
theorem getLast_nodes (hd : ¬ s.timeBuff.Drops c.time) (hw : s.write c = .ok s') :
    s'.timeBuff.nodes.getLast? = some c.index := by
  obtain ⟨hold, -⟩ | ⟨-, hf, he⟩ | ⟨-, -, he⟩ := write_cases s c
  · exact absurd hold hd
  · rw [he] at hw
    cases hw
    have hroom : s.timeBuff.count < maxOutputNodes := Nat.lt_of_not_le fun hle => hf (.inl hle)
    rw [TimeBuffer.nodes_stored hroom, List.getLast?_concat]
  · rw [he] at hw
    cases hw
    have hroom : TimeBuffer.new.count < maxOutputNodes := by decide
    show (TimeBuffer.new.stored c.index c.time).nodes.getLast? = some c.index
    rw [TimeBuffer.nodes_stored hroom, List.getLast?_concat]

/-- No call throws. -/
theorem write_ne_error (s : Server) (c : Call) (e : Fault) : s.write c ≠ .error e := by
  obtain ⟨s', hw⟩ := write_ok s c
  rw [hw]
  exact fun h => nomatch h

/-- Whatever a server has been given before, a call transmits its index or refuses
it exactly if the index is in range or the impulse is dropped. -/
theorem transmits_iff (s : Server) (c : Call) :
    s.Transmits c ↔ c.InRange ∨ s.timeBuff.Drops c.time := by
  by_cases hd : s.timeBuff.Drops c.time
  · have hdrop : s.write c = .ok s := writeLoop_of_drops hd
    exact iff_of_true (.inr (.inl ⟨hd, hdrop⟩)) (.inr hd)
  obtain ⟨s', hw⟩ := write_ok s c
  have hlast := getLast_nodes hd hw
  rw [or_iff_left hd, ← Call.index_iff]
  constructor
  · rintro (⟨-, hthrow⟩ | ⟨hdrop, -⟩ | ⟨t, node, ht, hnode, heq⟩)
    · exact absurd hthrow (write_ne_error s c _)
    · exact absurd hdrop hd
    · rw [hw] at ht
      cases ht
      rw [hlast] at hnode
      cases hnode
      exact heq
  · intro heq
    exact .inr (.inr ⟨s', c.index, hw, hlast, heq⟩)

/-- The index 65536 is stored as the node 0. -/
theorem not_transmits_65536 : ¬ (new 1025).Transmits ⟨65536, 0, 0⟩ := by
  have hd : ¬ (new 1025).timeBuff.Drops 0 := TimeBuffer.new_not_drops 0
  rintro (⟨-, hthrow⟩ | ⟨hdrop, -⟩ | ⟨s', node, hw, hnode, heq⟩)
  · exact write_ne_error _ _ _ hthrow
  · exact hd hdrop
  · rw [getLast_nodes (c := ⟨65536, 0, 0⟩) hd hw] at hnode
    cases hnode
    exact absurd heq (by decide)

end Server

end DistributAr
