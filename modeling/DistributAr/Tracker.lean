/-
# `DistributAr.Tracker` — the tracker

The tracker answers datagrams one at a time.  A command comes as text, the
answer goes back as text, and between the two are a map from cluster IDs to
addresses, a map from cluster IDs to the time of their last registration and the
counter that new IDs are taken from.

| command          | answer                                           |
|------------------|--------------------------------------------------|
| `ID n`, `n ≠ 0`  | nothing; the sender is registered as `n`         |
| `ID 0`           | `RUN n`; the ID the sender has, else a new one   |
| `GET n`          | `POINT n ip port`, `DROP n` or nothing           |
| `LIST`           | the registered IDs, or nothing if there are none |

`updateTime` is only ever read through `operator[]`, which gives a missing key
the epoch, so it is a function here.  The order in which a range-for visits an
`unordered_map` is up to the library and may change with any call: each turn of
the loop brings its own.
-/
import DistributAr.Base
import DistributAr.Lib.IStream
import DistributAr.Lib.Lease
import Mathlib.Logic.Function.Basic

namespace DistributAr

open Lib

/-- `ENV_UPDATE_TIME` -/
def envUpdateTime : Int := seconds 600

/-- `RESERVED_CLUSTER_ID` -/
def reservedClusterId : ClusterID := 1024

/-- `unordered_map<ClusterID, sockaddr_in>` -/
abbrev ClusterMap := AList fun _ : ClusterID => SockAddr

/-- An order of iteration: every entry is visited, once. -/
structure MapOrder where
  visit : ClusterMap → List (Sigma fun _ : ClusterID => SockAddr)
  perm : ∀ m, (visit m).Perm m.entries

/-- The order in which the entries happen to be kept. -/
def MapOrder.kept : MapOrder := ⟨AList.entries, fun _ => .refl _⟩

/-- What a turn of the loop finds besides the datagram: the clock, the order of
the map, and what is in a local variable that nothing was assigned to. -/
structure Turn where
  now : Int
  order : MapOrder
  garbage : ClusterID

/-! ## Commands and answers -/

/-- The commands the tracker knows. -/
inductive Command where
  | id (newId : ClusterID)
  | get (what : ClusterID)
  | list
  | ack
deriving DecidableEq, Repr

/-- A command as clusters and clients write it. -/
def Command.text : Command → List Char
  | .id newId => "ID ".toList ++ printUnsigned newId.toNat
  | .get what => "GET ".toList ++ printUnsigned what.toNat
  | .list => "LIST".toList
  | .ack => "ACK".toList

/-- `is >> cmd;` and, where the command has one, `is >> param;`.  `none` is an
`UNKNOWN COMMAND`. -/
def Command.parse (garbage : ClusterID) (buff : List Char) : Option Command :=
  let (word, is) := (IStream.ofChars buff).readWord
  let cmd := word.getD []
  let param := ((is.readUnsigned 32).1.map UInt32.ofNat).getD garbage
  if cmd = "ID".toList then some (.id param)
  else if cmd = "GET".toList then some (.get param)
  else if cmd = "LIST".toList then some .list
  else if cmd = "ACK".toList then some .ack
  else none

/-- What is in the `ostringstream reply` at the end of a turn. -/
inductive Reply where
  | silent
  | run (newId : ClusterID)
  | drop (what : ClusterID)
  | point (what : ClusterID) (addr : SockAddr)
  | list (ids : List ClusterID)
deriving DecidableEq, Repr

def Reply.text : Reply → List Char
  | .silent => []
  | .run newId => "RUN ".toList ++ printUnsigned newId.toNat
  | .drop what => "DROP ".toList ++ printUnsigned what.toNat
  | .point what addr => "POINT ".toList ++ printUnsigned what.toNat ++
      ' ' :: (printUnsigned addr.s_addr.toNat ++ ' ' :: printUnsigned addr.sin_port.toNat)
  | .list ids => ids.flatMap fun id => printUnsigned id.toNat ++ [' ']

/-- `Tracker::sendCommand`: an empty command is not sent. -/
def sendCommand (cmd : List Char) : Option (List Char) :=
  if cmd.length < 1 then none else some cmd

/-! ## The tracker -/

/-- The members of `Tracker` besides its socket. -/
structure Tracker where
  clusters : ClusterMap
  updateTime : ClusterID → Int
  next : ClusterID

namespace Tracker

/-- A tracker that has just been started. -/
def new : Tracker where
  clusters := ∅
  updateTime := fun _ => 0
  next := reservedClusterId + 1

/-- `Tracker::getNextClusterId` -/
def getNextClusterId (t : Tracker) : ClusterID × Tracker := (t.next, { t with next := t.next + 1 })

/-- `Tracker::isOld` -/
def isOld (t : Tracker) (now : Int) (cluster : ClusterID) : Bool :=
  t.updateTime cluster < now - envUpdateTime

/-- `Tracker::findByValue` -/
def findByValue (t : Tracker) (order : MapOrder) (value : SockAddr) : ClusterID :=
  match (order.visit t.clusters).find? (·.2 = value) with
  | some entry => entry.1
  | none => 0

/-- `clusters[newId] = from` -/
def setCluster (t : Tracker) (newId : ClusterID) (sender : SockAddr) : Tracker :=
  { t with clusters := t.clusters.insert newId sender }

/-- `updateTime[newId] = Clock::now()` -/
def setUpdateTime (t : Tracker) (newId : ClusterID) (now : Int) : Tracker :=
  { t with updateTime := Function.update t.updateTime newId now }

/-- `clusters.erase(cluster)` -/
def eraseCluster (t : Tracker) (cluster : ClusterID) : Tracker :=
  { t with clusters := t.clusters.erase cluster }

/-- The branch of `ID`. -/
def handleId (t : Tracker) (turn : Turn) (sender : SockAddr) (newId : ClusterID) :
    Tracker × Reply :=
  let cluster := t.findByValue turn.order sender
  if newId ≠ 0 then
    let t := if newId ≠ cluster then t.eraseCluster cluster else t
    ((t.setCluster newId sender).setUpdateTime newId turn.now, .silent)
  else if cluster = 0 then
    let (newId, t) := t.getNextClusterId
    ((t.setCluster newId sender).setUpdateTime newId turn.now, .run newId)
  else (t.setUpdateTime cluster turn.now, .run cluster)

/-- The branch of `GET`. -/
def handleGet (t : Tracker) (turn : Turn) (what : ClusterID) : Tracker × Reply :=
  match t.clusters.lookup what with
  | none => (t, .drop what)
  | some addr =>
      if t.isOld turn.now what then
        if what > reservedClusterId then (t.eraseCluster what, .drop what) else (t, .silent)
      else (t, .point what addr)

/-- The branch of `LIST`. -/
def handleList (t : Tracker) (turn : Turn) : Tracker × Reply :=
  (t, .list (((turn.order.visit t.clusters).map Sigma.fst).filter fun id => !t.isOld turn.now id))

/-- The branches of `Tracker::run`. -/
def handle (t : Tracker) (turn : Turn) (sender : SockAddr) : Command → Tracker × Reply
  | .id newId => t.handleId turn sender newId
  | .get what => t.handleGet turn what
  | .list => t.handleList turn
  | .ack => (t, .silent)

/-- One turn of the loop of `Tracker::run`: the tracker afterwards, and the
datagram that goes back to the sender, if any. -/
def iteration (t : Tracker) (turn : Turn) (sender : SockAddr) (buff : List Char) :
    Tracker × Option (List Char) :=
  match Command.parse turn.garbage buff with
  | some cmd =>
      let (t, reply) := t.handle turn sender cmd
      (t, sendCommand reply.text)
  | none => (t, none)

end Tracker

/-! ## The text of commands and answers -/

theorem readWord_command {word rest : List Char} (hne : word ≠ [])
    (hword : word.any isSpace = false) (hrest : ∀ d ∈ rest.head?, isSpace d) :
    (IStream.ofChars (word ++ rest)).readWord = (some word, ⟨rest, rest.isEmpty, false⟩) := by
  refine IStream.readWord_text [] (fun _ h => absurd h List.not_mem_nil) hne ?_ hrest
  intro d hd
  exact Bool.eq_false_iff.mpr (List.any_eq_false.mp hword d hd)

/-- A word, a blank and a number, as most texts here begin. -/
theorem read_param (w : Nat) {n : Nat} (word rest : List Char) (hne : word ≠ [])
    (hword : word.any isSpace = false) (hn : n < 2 ^ w)
    (hrest : ∀ d ∈ rest.head?, d.isDigit = false) :
    let is := IStream.ofChars (word ++ ' ' :: (printUnsigned n ++ rest))
    is.readWord.1 = some word
      ∧ is.readWord.2.readUnsigned w = (some n, ⟨rest, rest.isEmpty, false⟩) := by
  dsimp only
  rw [readWord_command hne hword (by simp [isSpace])]
  refine ⟨rfl, ?_⟩
  exact IStream.readUnsigned_text w [' '] rest (by simp [isSpace]) hn hrest

/-- Nothing comes after the number. -/
theorem read_last_param (w : Nat) {n : Nat} (word : List Char) (hne : word ≠ [])
    (hword : word.any isSpace = false) (hn : n < 2 ^ w) :
    let is := IStream.ofChars (word ++ ' ' :: printUnsigned n)
    is.readWord.1 = some word ∧ (is.readWord.2.readUnsigned w).1 = some n := by
  obtain ⟨hread, hparam⟩ := read_param w word [] hne hword hn (by simp)
  rw [List.append_nil] at hread hparam
  exact ⟨hread, congrArg Prod.fst hparam⟩

/-- How a `RUN` is read, by whomever it comes to. -/
theorem Reply.read_run (n : ClusterID) :
    let is := IStream.ofChars (Reply.run n).text
    is.readWord.1 = some "RUN".toList ∧ (is.readWord.2.readUnsigned 32).1 = some n.toNat :=
  read_last_param 32 "RUN".toList (by decide) rfl n.toNat_lt

/-- What is understood depends on the first word and the number behind it. -/
theorem Command.parse_words {garbage param : ClusterID} {buff word : List Char}
    (hword : (IStream.ofChars buff).readWord.1 = some word)
    (hparam : (((IStream.ofChars buff).readWord.2.readUnsigned 32).1.map UInt32.ofNat).getD garbage
      = param) :
    Command.parse garbage buff
      = if word = "ID".toList then some (.id param)
        else if word = "GET".toList then some (.get param)
        else if word = "LIST".toList then some .list
        else if word = "ACK".toList then some .ack
        else none := by
  rw [parse]
  dsimp only
  rw [hword, hparam, Option.getD_some]

/-- The tracker understands what clusters and clients write. -/
theorem Command.parse_text (garbage : ClusterID) (cmd : Command) :
    Command.parse garbage cmd.text = some cmd := by
  have hvalue : ∀ n : ClusterID, ((some n.toNat).map UInt32.ofNat).getD garbage = n := by
    intro n
    rw [Option.map_some, UInt32.ofNat_toNat, Option.getD_some]
  cases cmd with
  | id newId =>
      obtain ⟨hword, hparam⟩ := read_last_param 32 "ID".toList (by decide) rfl newId.toNat_lt
      exact parse_words hword (hparam ▸ hvalue newId)
  | get what =>
      obtain ⟨hword, hparam⟩ := read_last_param 32 "GET".toList (by decide) rfl what.toNat_lt
      exact parse_words hword (hparam ▸ hvalue what)
  | list => rfl
  | ack => rfl

theorem Tracker.iteration_text (t : Tracker) (turn : Turn) (sender : SockAddr) (cmd : Command) :
    t.iteration turn sender cmd.text
      = ((t.handle turn sender cmd).1, sendCommand (t.handle turn sender cmd).2.text) := by
  rw [iteration, Command.parse_text]

theorem sendCommand_of_ne_nil {cmd : List Char} (h : cmd ≠ []) : sendCommand cmd = some cmd :=
  if_neg (Nat.not_lt.mpr (List.length_pos_iff.mpr h))

/-- The tracker never says `ACK`. -/
theorem Reply.text_ne_ack (reply : Reply) : reply.text ≠ "ACK".toList := by
  intro h
  cases reply with
  | silent => cases h
  | run newId => exact absurd (List.cons.inj h : 'R' = 'A' ∧ _).1 (by decide)
  | drop what => exact absurd (List.cons.inj h : 'D' = 'A' ∧ _).1 (by decide)
  | point what addr => exact absurd (List.cons.inj h : 'P' = 'A' ∧ _).1 (by decide)
  | list ids =>
      cases ids with
      | nil => cases h
      | cons id ids =>
          -- a list starts with a digit
          obtain ⟨c, cs, hcons⟩ :=
            List.exists_cons_of_ne_nil (IStream.printUnsigned_ne_nil id.toNat)
          have hdigit : c.isDigit = true :=
            IStream.isDigit_of_mem_printUnsigned (hcons ▸ List.mem_cons_self)
          have hhead : (printUnsigned id.toNat ++ [' ']
              ++ ids.flatMap fun id => printUnsigned id.toNat ++ [' ']) = "ACK".toList := h
          rw [hcons] at hhead
          have hc : c = 'A' := (List.cons.inj hhead).1
          rw [hc] at hdigit
          exact absurd hdigit (by decide)

/-- Whether an empty answer is sent or not, nothing arrives. -/
theorem getD_sendCommand (cmd : List Char) : (sendCommand cmd).getD [] = cmd := by
  unfold sendCommand
  split
  · rename_i h
    exact (List.length_eq_zero_iff.mp (Nat.lt_one_iff.mp h)).symm
  · rfl

theorem eq_of_sendCommand {cmd sent : List Char} (h : sendCommand cmd = some sent) :
    sent = cmd := by
  unfold sendCommand at h
  split at h <;> cases h
  rfl

/-! ## What a command does to the map -/

namespace Tracker

/-- The entry of a cluster with the time of its last registration. -/
def view (t : Tracker) (n : ClusterID) : Option (SockAddr × Int) :=
  (t.clusters.lookup n).map fun a => (a, t.updateTime n)

/-- The ID that `ID newId` registers for its sender. -/
def registeredId (t : Tracker) (turn : Turn) (sender : SockAddr) (newId : ClusterID) : ClusterID :=
  if newId ≠ 0 then newId
  else if t.findByValue turn.order sender = 0 then t.next
  else t.findByValue turn.order sender

variable {t : Tracker} {turn : Turn} {sender : SockAddr} {newId what n : ClusterID}

theorem view_eq_some {a : SockAddr} {u : Int} :
    t.view n = some (a, u) ↔ t.clusters.lookup n = some a ∧ t.updateTime n = u := by
  simp [view]

theorem view_eq_none : t.view n = none ↔ t.clusters.lookup n = none := by
  simp [view]

theorem view_address : (t.view n).map Prod.fst = t.clusters.lookup n := by
  unfold view
  cases t.clusters.lookup n <;> rfl

theorem mem_visit {order : MapOrder} {m : ClusterMap} {a : SockAddr} :
    ⟨n, a⟩ ∈ order.visit m ↔ m.lookup n = some a :=
  (order.perm m).mem_iff.trans AList.mem_lookup_iff.symm

/-- A key that was found leads to the address. -/
theorem lookup_findByValue {order : MapOrder} {value : SockAddr}
    (h : t.findByValue order value ≠ 0) :
    t.clusters.lookup (t.findByValue order value) = some value := by
  unfold findByValue at h ⊢
  split at h
  · rename_i entry hfind
    have hvalue : entry.2 = value := by simpa using List.find?_some hfind
    rw [← hvalue]
    exact mem_visit.mp (List.mem_of_find?_eq_some hfind)
  · exact absurd rfl h

/-- No key was found: the address is registered as 0 or not at all. -/
theorem lookup_of_findByValue_eq_zero {order : MapOrder} {value : SockAddr}
    (h : t.findByValue order value = 0) (hzero : t.clusters.lookup 0 = none) :
    t.clusters.lookup n ≠ some value := by
  intro hn
  unfold findByValue at h
  split at h
  · rename_i entry hfind
    have hmem := mem_visit.mp (List.mem_of_find?_eq_some hfind)
    rw [h, hzero] at hmem
    exact absurd hmem (by simp)
  · rename_i hfind
    have hnone := List.find?_eq_none.mp hfind _ (mem_visit.mpr hn)
    exact hnone (by simp)

/-- In a map without the key 0 that has no address twice, `findByValue` finds
exactly what there is to find. -/
theorem lookup_eq_some_iff_findByValue (hzero : t.clusters.lookup 0 = none)
    (hone : Lease.Exclusive t.view) {order : MapOrder} {value : SockAddr} :
    t.clusters.lookup n = some value ↔
      n = t.findByValue order value ∧ t.findByValue order value ≠ 0 := by
  constructor
  · intro hn
    have hne : t.findByValue order value ≠ 0 := fun h =>
      lookup_of_findByValue_eq_zero h hzero hn
    have hfound := lookup_findByValue hne
    exact ⟨hone (view_eq_some.mpr ⟨hn, rfl⟩) (view_eq_some.mpr ⟨hfound, rfl⟩), hne⟩
  · rintro ⟨rfl, hne⟩
    exact lookup_findByValue hne

theorem lookup_setCluster {m : ClusterID} {a : SockAddr} :
    (t.setCluster m a).clusters.lookup n = if n = m then some a else t.clusters.lookup n := by
  unfold setCluster
  split
  · rename_i hn
    rw [hn, AList.lookup_insert]
  · rename_i hn
    rw [AList.lookup_insert_ne hn]

theorem lookup_eraseCluster {m : ClusterID} :
    (t.eraseCluster m).clusters.lookup n = if n = m then none else t.clusters.lookup n := by
  unfold eraseCluster
  split
  · rename_i hn
    rw [hn, AList.lookup_erase]
  · rename_i hn
    rw [AList.lookup_erase_ne hn]

/-- After an `ID` the sender is registered, and an ID that was found for it and is
not the one it names is gone. -/
theorem lookup_handleId_eq : (t.handleId turn sender newId).1.clusters.lookup n
    = if n = t.registeredId turn sender newId then some sender
      else if newId ≠ 0 ∧ n = t.findByValue turn.order sender then none
      else t.clusters.lookup n := by
  unfold handleId registeredId
  dsimp only
  by_cases hnew : newId = 0
  · have hnone : ¬ newId ≠ 0 := fun h => h hnew
    rw [if_neg hnone, if_neg hnone, if_neg (fun h => hnone h.1 :
      ¬ (newId ≠ 0 ∧ n = t.findByValue turn.order sender))]
    by_cases hfind : t.findByValue turn.order sender = 0
    · rw [if_pos hfind, if_pos hfind]
      exact lookup_setCluster
    · rw [if_neg hfind, if_neg hfind]
      split
      · rename_i hn
        rw [hn]
        exact lookup_findByValue hfind
      · rfl
  · rw [if_pos hnew, if_pos hnew]
    refine lookup_setCluster.trans ?_
    split
    · rfl
    · rename_i hn
      by_cases hsame : newId = t.findByValue turn.order sender
      · rw [if_neg fun h => h hsame, if_neg fun h => hn (h.2.trans hsame.symm)]
      · rw [if_pos hsame, lookup_eraseCluster]
        exact if_congr (and_iff_right hnew).symm rfl rfl

/-- Whatever is in the map after a command was there before, or has just been
registered. -/
theorem lookup_handle {cmd : Command} {b : SockAddr}
    (h : (t.handle turn sender cmd).1.clusters.lookup n = some b) :
    t.clusters.lookup n = some b
      ∨ ∃ newId, cmd = .id newId ∧ n = t.registeredId turn sender newId ∧ b = sender := by
  cases cmd with
  | id newId =>
      change (t.handleId turn sender newId).1.clusters.lookup n = some b at h
      rw [lookup_handleId_eq] at h
      split at h
      · rename_i hn
        cases h
        exact .inr ⟨newId, rfl, hn, rfl⟩
      split at h
      · cases h
      · exact .inl h
  | get what =>
      left
      change (t.handleGet turn what).1.clusters.lookup n = some b at h
      unfold handleGet at h
      split at h
      · exact h
      split at h
      · split at h
        · rw [lookup_eraseCluster] at h
          split at h
          · cases h
          · exact h
        · exact h
      · exact h
  | list => exact .inl h
  | ack => exact .inl h

theorem updateTime_handleId : (t.handleId turn sender newId).1.updateTime
    = Function.update t.updateTime (t.registeredId turn sender newId) turn.now := by
  unfold handleId registeredId
  dsimp only
  split
  · split <;> rfl
  · split <;> rfl

/-- An address that is found keeps its ID, unless it names another. -/
theorem registeredId_of_found (hfind : t.findByValue turn.order sender ≠ 0)
    (hnew : newId = 0 ∨ newId = t.findByValue turn.order sender) :
    t.registeredId turn sender newId = t.findByValue turn.order sender := by
  unfold registeredId
  rcases hnew with hzero | hsame
  · rw [if_neg fun h => h hzero, if_neg hfind]
  · rw [if_pos (hsame ▸ hfind), hsame]

/-- Where no address is there twice, the sender loses all that it had. -/
theorem lookup_handleId (hzero : t.clusters.lookup 0 = none) (hone : Lease.Exclusive t.view) :
    (t.handleId turn sender newId).1.clusters.lookup n
      = if n = t.registeredId turn sender newId then some sender
        else if t.clusters.lookup n = some sender then none else t.clusters.lookup n := by
  have hfind : t.clusters.lookup n = some sender ↔
      n = t.findByValue turn.order sender ∧ t.findByValue turn.order sender ≠ 0 :=
    lookup_eq_some_iff_findByValue hzero hone
  rw [lookup_handleId_eq]
  split
  · rfl
  · rename_i hn
    by_cases hold : n = t.findByValue turn.order sender
    · by_cases hkey : t.findByValue turn.order sender = 0
      · -- the key 0, which is not there
        have hnone : t.clusters.lookup n = none := by rw [hold, hkey, hzero]
        rw [hnone, ite_self, ite_self]
      · -- it named another ID, or this one would be registered
        have hnew : newId ≠ 0 := fun h => hn (hold.trans (registeredId_of_found hkey (.inl h)).symm)
        rw [if_pos ⟨hnew, hold⟩, if_pos (hfind.mpr ⟨hold, hkey⟩)]
    · rw [if_neg fun h => hold h.2, if_neg fun h => hold (hfind.mp h).1]

/-- `ID` registers the sender, and takes from it what it had. -/
theorem view_handleId (hzero : t.clusters.lookup 0 = none) (hone : Lease.Exclusive t.view) :
    (t.handleId turn sender newId).1.view
      = (Lease.Op.register (t.registeredId turn sender newId) sender turn.now).apply t.view := by
  funext n
  rw [view, lookup_handleId hzero hone, updateTime_handleId]
  simp only [Lease.Op.apply]
  by_cases hn : n = t.registeredId turn sender newId
  · simp [hn]
  · rw [if_neg hn, if_neg hn, view_address, Function.update_of_ne hn]
    split <;> rfl

/-- The answer to `ID`. -/
theorem reply_handleId : (t.handleId turn sender newId).2
    = if newId = 0 then .run (t.registeredId turn sender newId) else .silent := by
  unfold handleId registeredId
  by_cases hnew : newId = 0
  · simp only [hnew, ne_eq, not_true, if_false, if_true]
    split <;> rfl
  · simp only [hnew, ne_eq, not_false_iff, if_true, if_false]

/-- A new ID is taken off the counter only for an address that has none. -/
theorem next_handleId : (t.handleId turn sender newId).1.next
    = if newId = 0 ∧ t.findByValue turn.order sender = 0 then t.next + 1 else t.next := by
  unfold handleId
  by_cases hnew : newId = 0
  · simp only [hnew, ne_eq, not_true, if_false, true_and]
    split <;> rfl
  · simp only [hnew, ne_eq, not_false_iff, if_true, false_and, if_false]
    split <;> rfl

/-- `GET` in terms of the entry it asks for. -/
theorem handleGet_eq : t.handleGet turn what
    = match t.view what with
      | none => (t, .drop what)
      | some (a, u) =>
          if u < turn.now - envUpdateTime then
            if what > reservedClusterId then (t.eraseCluster what, .drop what) else (t, .silent)
          else (t, .point what a) := by
  unfold handleGet view isOld
  cases t.clusters.lookup what with
  | none => rfl
  | some a => simp only [Option.map_some, decide_eq_true_eq]

/-- A `GET` answered `DROP` leaves no entry; every other one leaves the map as
it is. -/
theorem view_handleGet : (t.handleGet turn what).1.view
    = if (t.handleGet turn what).2 = .drop what then
        (Lease.Op.release what : Lease.Op ClusterID SockAddr Int).apply t.view else t.view := by
  rw [handleGet_eq]
  cases hview : t.view what with
  | none =>
      rw [if_pos rfl]
      funext n
      simp only [Lease.Op.apply]
      split
      · rename_i hn
        rw [hn, hview]
      · rfl
  | some entry =>
      obtain ⟨a, u⟩ := entry
      dsimp only
      split
      · split
        · rw [if_pos rfl]
          funext n
          simp only [Lease.Op.apply, view, lookup_eraseCluster]
          split
          · rfl
          · rfl
        · rw [if_neg (by simp)]
      · rw [if_neg (by simp)]

end Tracker

end DistributAr
