/-
# `DistributAr.ServerCommand` — what a server does with a command

A server polls its socket and hands what it reads to `parseCommand`.  Of the
commands only `RUN` changes its cluster ID; everything unknown goes to the
cluster, whose library answers as it likes.
-/
import DistributAr.Tracker

namespace DistributAr

open Lib

namespace Server

/-- `Server::requestIdFromTracker`: the text that goes to the tracker. -/
def requestIdFromTracker (id : ClusterID) : List Char := (Command.id id).text

/-- `Server::parseCommand`: the ID of the cluster afterwards and the answer, or
nothing when the process exits.  The subscriptions that `CONNECT` and `DROP`
change are left out. -/
def parseCommand (command : List Char → List Char) (garbage id : ClusterID) (cmd : List Char) :
    Option (ClusterID × List Char) :=
  let (word, ss) := (IStream.ofChars cmd).readWord
  let word := word.getD []
  let param1 := ((ss.readUnsigned 32).1.map UInt32.ofNat).getD garbage
  if word = "CONNECT".toList then some (id, "ACK".toList)
  else if word = "DROP".toList then some (id, "ACK".toList)
  else if word = "RUN".toList then some (if id ≠ param1 then param1 else id, "ACK".toList)
  else if word = "EXIT".toList then none
  else some (id, command cmd)

/-- Only `EXIT` ends the process. -/
theorem parseCommand_isSome {cmd : List Char}
    (h : (IStream.ofChars cmd).readWord.1.getD [] ≠ "EXIT".toList)
    (command : List Char → List Char) (garbage id : ClusterID) :
    (parseCommand command garbage id cmd).isSome := by
  rw [parseCommand]
  dsimp only
  split
  · rfl
  split
  · rfl
  split
  · rfl
  · rfl

/-- `RUN n` is obeyed, whoever sent it. -/
theorem parseCommand_run (command : List Char → List Char) (garbage id n : ClusterID) :
    parseCommand command garbage id (Reply.run n).text = some (n, "ACK".toList) := by
  obtain ⟨hword, hparam⟩ := Reply.read_run n
  have hrun : (if id ≠ n then n else id) = n := by
    split
    · rfl
    · rename_i h
      exact not_not.mp h
  rw [parseCommand]
  dsimp only
  rw [hword, hparam, Option.map_some, UInt32.ofNat_toNat, Option.getD_some, Option.getD_some, hrun]
  rfl

end Server

end DistributAr
