/-
# `DistributAr.Subscription` — who listens to whom in one process

The servers of a process share one `Network`.  It holds the subscriptions of
all of them, by the cluster ID that a server had when it made them, and the
multicast groups that the socket of the process is a member of.

| command     | subscriptions of the cluster | membership                               |
|-------------|------------------------------|------------------------------------------|
| `CONNECT r` | `r` is added, if missing     | join, unless a server of the process is `r` |
| `DROP r`    | `r` is erased                | leave, if it was the last and no server is `r` |
| `RUN n`     | untouched                    | untouched                                |

`DROP r` without a subscription to `r` erases the end of a vector: nothing can
be said about what follows.
-/
import DistributAr.Lib.Multimap
import DistributAr.ServerCommand

namespace DistributAr

open Lib

/-- `htonl` on a little-endian host. -/
def htonl (x : UInt32) : UInt32 :=
  UInt32.ofNat (x.toNat % 256 * 16777216 + x.toNat / 256 % 256 * 65536
    + x.toNat / 65536 % 256 * 256 + x.toNat / 16777216)

/-- Four bytes make one number. -/
theorem bytes_inj {a b c d a' b' c' d' : Nat} (hb : b < 256) (hc : c < 256) (hd : d < 256)
    (hb' : b' < 256) (hc' : c' < 256) (hd' : d' < 256)
    (h : a * 16777216 + b * 65536 + c * 256 + d = a' * 16777216 + b' * 65536 + c' * 256 + d') :
    a = a' ∧ b = b' ∧ c = c' ∧ d = d' := by
  omega

theorem htonl_injective {x y : UInt32} (h : htonl x = htonl y) : x = y := by
  have hbyte : ∀ n : Nat, n % 256 < 256 := fun n => Nat.mod_lt n (by decide)
  have hhigh : ∀ z : UInt32, z.toNat / 16777216 < 256 := fun z => by
    have hz := z.toNat_lt
    omega
  have hvalue : ∀ z : UInt32, (htonl z).toNat = z.toNat % 256 * 16777216
      + z.toNat / 256 % 256 * 65536 + z.toNat / 65536 % 256 * 256 + z.toNat / 16777216 := by
    intro z
    have h0 := hbyte z.toNat
    have h1 := hbyte (z.toNat / 256)
    have h2 := hbyte (z.toNat / 65536)
    have h3 := hhigh z
    rw [htonl, UInt32.toNat_ofNat']
    exact Nat.mod_eq_of_lt (by omega)
  have hnat := congrArg UInt32.toNat h
  rw [hvalue, hvalue] at hnat
  obtain ⟨h0, h1, h2, h3⟩ := bytes_inj (hbyte _) (hbyte _) (hhigh x) (hbyte _) (hbyte _) (hhigh y)
    hnat
  refine UInt32.toNat_inj.mp ?_
  omega

/-- `Multicast::baseMulticastIP` -/
def baseMulticastIP : UInt32 := 0xE0000100

/-- `Multicast::idToMulticast` -/
def idToMulticast (id : ClusterID) : UInt32 := htonl (baseMulticastIP + id)

/-- Every cluster has a group of its own. -/
theorem idToMulticast_inj {id id' : ClusterID} :
    idToMulticast id = idToMulticast id' ↔ id = id' := by
  constructor
  · intro h
    have hsum := congrArg UInt32.toNat (htonl_injective h)
    have hid := id.toNat_lt
    have hid' := id'.toNat_lt
    simp only [baseMulticastIP, UInt32.toNat_add, UInt32.toNat_ofNat] at hsum
    refine UInt32.toNat_inj.mp ?_
    omega
  · rintro rfl
    rfl

/-- What commands change in a server: the ID of its cluster, and the group that
it writes to. -/
structure LocalServer where
  id : ClusterID
  mCastGrp : UInt32
deriving DecidableEq

/-- A server that runs under an ID. -/
def LocalServer.ofId (id : ClusterID) : LocalServer := ⟨id, idToMulticast id⟩

/-- The servers of a process and what their commands change in its `Network`. -/
structure LocalNetwork where
  dirty : Bool
  subscriptions : Multimap ClusterID ClusterID
  servers : List LocalServer
  /-- The groups that the socket is a member of. -/
  joined : List UInt32

/-- The subscribers of each cluster; a `Server*` is a position in `servers`. -/
abbrev Subscribers := Multimap ClusterID Nat

/-- The commands that change a `LocalNetwork`. -/
inductive Instruction where
  | connect (remote : ClusterID)
  | drop (remote : ClusterID)
  | run (newId : ClusterID)
deriving DecidableEq, Repr

def Instruction.text : Instruction → List Char
  | .connect remote => "CONNECT ".toList ++ printUnsigned remote.toNat
  | .drop remote => "DROP ".toList ++ printUnsigned remote.toNat
  | .run newId => "RUN ".toList ++ printUnsigned newId.toNat

def Instruction.word : Instruction → List Char
  | .connect _ => "CONNECT".toList
  | .drop _ => "DROP".toList
  | .run _ => "RUN".toList

def Instruction.param : Instruction → ClusterID
  | .connect remote => remote
  | .drop remote => remote
  | .run newId => newId

theorem Instruction.word_ne_nil (ins : Instruction) : ins.word ≠ [] := by
  cases ins <;> exact List.cons_ne_nil _ _

theorem Instruction.word_no_space (ins : Instruction) : ins.word.any isSpace = false := by
  cases ins <;> rfl

theorem Instruction.text_append (ins : Instruction) (rest : List Char) :
    ins.text ++ rest = ins.word ++ ' ' :: (printUnsigned ins.param.toNat ++ rest) := by
  cases ins <;> rfl

namespace LocalNetwork

/-- A process with servers, before the first command. -/
def start (servers : List LocalServer) : LocalNetwork := ⟨false, ∅, servers, []⟩

/-- `for(auto server: servers)`: is there one with this ID? -/
def serves (s : LocalNetwork) (id : ClusterID) : Bool := s.servers.any fun server => id = server.id

/-- `Udp::JoinMulticast`; `os` says whether the OS agrees. -/
def joinMulticast (os : Bool) (s : LocalNetwork) (ip : UInt32) : LocalNetwork :=
  if os then { s with joined := ip :: s.joined.filter (· ≠ ip) } else s

/-- `Udp::LeaveMulticast` -/
def leaveMulticast (os : Bool) (s : LocalNetwork) (ip : UInt32) : LocalNetwork :=
  if os then { s with joined := s.joined.filter (· ≠ ip) } else s

/-- `Network::subscribe`, of the cluster `localId` -/
def subscribe (os : Bool) (s : LocalNetwork) (localId remote : ClusterID) : LocalNetwork :=
  let s := { s with dirty := true }
  if remote ∈ s.subscriptions.values localId then s
  else
    let s := { s with subscriptions := s.subscriptions.push localId remote }
    if s.serves remote then s else s.joinMulticast os (idToMulticast remote)

/-- `Network::unsubscribe`; `none` when it erases the end of the vector. -/
def unsubscribe (os : Bool) (s : LocalNetwork) (localId remote : ClusterID) :
    Option LocalNetwork :=
  let all := s.subscriptions.values localId
  if remote ∈ all then
    let s := { s with
      dirty := true
      subscriptions := s.subscriptions.assign localId (all.erase remote) }
    if s.subscriptions.entries.any (fun i => remote ∈ i.2) then some s
    else if s.serves remote then some s
    else some (s.leaveMulticast os (idToMulticast remote))
  else none

/-- `Network::getSubscriptions`, with the loops in the order of the source. -/
def getSubscriptions (order : Multimap.VisitOrder ClusterID ClusterID) (s : LocalNetwork)
    (subscribers : Subscribers) : LocalNetwork × Subscribers :=
  if s.dirty then
    ({ s with dirty := false },
      (order.visit s.subscriptions).foldl (fun table i =>
        i.2.foldl (fun table remote =>
          s.servers.zipIdx.foldl (fun table serv =>
            if i.1 = serv.1.id then table.push remote serv.2 else table) table) table) ∅)
  else (s, subscribers)

/-- `RUN` at the server in position `i`. -/
def run (s : LocalNetwork) (i : Nat) (old param1 : ClusterID) : LocalNetwork :=
  if old ≠ param1 then { s with servers := s.servers.set i (.ofId param1) } else s

/-- `Server::parseCommand`, of the server in position `i`: the process afterwards
and the answer.  `none` when the process exits, or leaves the bounds of a
vector. -/
def parseCommand (command : List Char → List Char) (garbage : ClusterID) (os : Bool)
    (s : LocalNetwork) (i : Nat) (cmd : List Char) : Option (LocalNetwork × List Char) :=
  match s.servers[i]? with
  | none => none
  | some server =>
      let (word, ss) := (IStream.ofChars cmd).readWord
      let word := word.getD []
      let param1 := ((ss.readUnsigned 32).1.map UInt32.ofNat).getD garbage
      if word = "CONNECT".toList then some (s.subscribe os server.id param1, "ACK".toList)
      else if word = "DROP".toList then
        (s.unsubscribe os server.id param1).map fun s => (s, "ACK".toList)
      else if word = "RUN".toList then some (s.run i server.id param1, "ACK".toList)
      else if word = "EXIT".toList then none
      else some (s, command cmd)

/-- What the commands do, by themselves. -/
def obey (os : Bool) (s : LocalNetwork) (i : Nat) : Instruction → Option LocalNetwork
  | .connect remote => s.servers[i]?.map fun server => s.subscribe os server.id remote
  | .drop remote => s.servers[i]?.bind fun server => s.unsubscribe os server.id remote
  | .run newId => s.servers[i]?.map fun server => s.run i server.id newId

variable {os : Bool} {s t : LocalNetwork} {i : Nat} {id localId remote r l : ClusterID}

/-! ## The commands as texts -/

/-- A server does what it has read. -/
theorem parseCommand_eq_obey (command : List Char → List Char) {garbage : ClusterID}
    (os : Bool) (s : LocalNetwork) (i : Nat) {ins : Instruction} {cmd : List Char}
    (hword : (IStream.ofChars cmd).readWord.1 = some ins.word)
    (hparam : (((IStream.ofChars cmd).readWord.2.readUnsigned 32).1.map UInt32.ofNat).getD garbage
      = ins.param) :
    s.parseCommand command garbage os i cmd
      = (s.obey os i ins).map fun s => (s, "ACK".toList) := by
  unfold parseCommand
  cases hserver : s.servers[i]? with
  | none => cases ins <;> rw [obey, hserver] <;> rfl
  | some server =>
      dsimp only
      rw [hword, hparam, Option.getD_some]
      cases ins <;> rw [obey, hserver] <;> rfl

/-- A server reads the command that was written, whatever comes after it. -/
theorem parseCommand_param (command : List Char → List Char) (garbage : ClusterID)
    (os : Bool) (s : LocalNetwork) (i : Nat) (ins : Instruction) (rest : List Char)
    (hrest : ∀ d ∈ rest.head?, d.isDigit = false) :
    s.parseCommand command garbage os i (ins.text ++ rest)
      = (s.obey os i ins).map fun s => (s, "ACK".toList) := by
  obtain ⟨hword, hparam⟩ := read_param 32 ins.word rest ins.word_ne_nil
    ins.word_no_space ins.param.toNat_lt hrest
  rw [ins.text_append rest]
  refine parseCommand_eq_obey command os s i hword ?_
  rw [hparam, Option.map_some, Option.getD_some, UInt32.ofNat_toNat]

theorem parseCommand_text (command : List Char → List Char) (garbage : ClusterID)
    (ins : Instruction) : s.parseCommand command garbage os i ins.text
      = (s.obey os i ins).map fun s => (s, "ACK".toList) := by
  have h := parseCommand_param command garbage os s i ins [] (by simp)
  rwa [List.append_nil] at h

/-! ## What the operations leave alone -/

@[simp] theorem joinMulticast_subscriptions (ip : UInt32) :
    (s.joinMulticast os ip).subscriptions = s.subscriptions := by
  unfold joinMulticast
  split <;> rfl

@[simp] theorem joinMulticast_servers (ip : UInt32) :
    (s.joinMulticast os ip).servers = s.servers := by
  unfold joinMulticast
  split <;> rfl

@[simp] theorem joinMulticast_dirty (ip : UInt32) :
    (s.joinMulticast os ip).dirty = s.dirty := by
  unfold joinMulticast
  split <;> rfl

@[simp] theorem leaveMulticast_subscriptions (ip : UInt32) :
    (s.leaveMulticast os ip).subscriptions = s.subscriptions := by
  unfold leaveMulticast
  split <;> rfl

@[simp] theorem leaveMulticast_servers (ip : UInt32) :
    (s.leaveMulticast os ip).servers = s.servers := by
  unfold leaveMulticast
  split <;> rfl

@[simp] theorem leaveMulticast_dirty (ip : UInt32) :
    (s.leaveMulticast os ip).dirty = s.dirty := by
  unfold leaveMulticast
  split <;> rfl

@[simp] theorem subscribe_servers : (s.subscribe os localId remote).servers = s.servers := by
  unfold subscribe
  dsimp only
  split
  · rfl
  split
  · rfl
  · rw [joinMulticast_servers]

@[simp] theorem subscribe_dirty : (s.subscribe os localId remote).dirty = true := by
  unfold subscribe
  dsimp only
  split
  · rfl
  split
  · rfl
  · rw [joinMulticast_dirty]

theorem values_subscribe (os : Bool) (s : LocalNetwork) (localId remote l : ClusterID) :
    (s.subscribe os localId remote).subscriptions.values l
      = if l = localId ∧ remote ∉ s.subscriptions.values localId
          then s.subscriptions.values localId ++ [remote] else s.subscriptions.values l := by
  unfold subscribe
  dsimp only
  by_cases hmem : remote ∈ s.subscriptions.values localId
  · rw [if_pos hmem, if_neg fun h => h.2 hmem]
  · have hnew : (l = localId ∧ remote ∉ s.subscriptions.values localId) ↔ l = localId :=
      and_iff_left hmem
    rw [if_neg hmem, if_congr hnew rfl rfl]
    split
    · exact Multimap.values_push
    · rw [joinMulticast_subscriptions]
      exact Multimap.values_push

/-- Afterwards the cluster has the subscription. -/
theorem mem_subscribe : r ∈ (s.subscribe os localId remote).subscriptions.values l
    ↔ r ∈ s.subscriptions.values l ∨ l = localId ∧ r = remote := by
  rw [values_subscribe]
  by_cases hl : l = localId
  · subst hl
    by_cases hmem : remote ∈ s.subscriptions.values l
    · rw [if_neg fun h => h.2 hmem]
      constructor
      · exact .inl
      · rintro (hr | ⟨-, rfl⟩)
        · exact hr
        · exact hmem
    · rw [if_pos ⟨rfl, hmem⟩, List.mem_append, List.mem_singleton]
      simp only [true_and]
  · rw [if_neg fun h => hl h.1]
    simp only [hl, false_and, or_false]

/-- What `unsubscribe` does, where it does something. -/
theorem unsubscribe_eq_some (h : s.unsubscribe os localId remote = some t) :
    remote ∈ s.subscriptions.values localId ∧ t.dirty = true ∧ t.servers = s.servers ∧
      t.subscriptions
        = s.subscriptions.assign localId ((s.subscriptions.values localId).erase remote) := by
  unfold unsubscribe at h
  dsimp only at h
  split at h
  · rename_i hmem
    refine ⟨hmem, ?_⟩
    split at h
    · cases h
      exact ⟨rfl, rfl, rfl⟩
    split at h
    · cases h
      exact ⟨rfl, rfl, rfl⟩
    · cases h
      rw [leaveMulticast_dirty, leaveMulticast_servers, leaveMulticast_subscriptions]
      exact ⟨rfl, rfl, rfl⟩
  · cases h

/-! ## No subscription is kept twice -/

/-- The vectors have no duplicates: `subscribe` looks before it appends. -/
def Distinct (s : LocalNetwork) : Prop := ∀ l, (s.subscriptions.values l).Nodup

theorem distinct_start (servers : List LocalServer) : (start servers).Distinct :=
  fun _ => List.nodup_nil

theorem Distinct.subscribe (h : s.Distinct) : (s.subscribe os localId remote).Distinct := by
  intro l
  rw [values_subscribe]
  split
  · rename_i hnew
    exact List.nodup_append.mpr ⟨h localId, List.nodup_singleton _, fun a ha b hb hab =>
      hnew.2 (List.mem_singleton.mp hb ▸ hab ▸ ha)⟩
  · exact h l

theorem Distinct.unsubscribe (h : s.Distinct)
    (hs : s.unsubscribe os localId remote = some t) :
    t.Distinct := by
  obtain ⟨-, -, -, hsub⟩ := unsubscribe_eq_some hs
  intro l
  rw [hsub, Multimap.values_assign]
  split
  · exact (h localId).erase remote
  · exact h l

theorem run_subscriptions (old n : ClusterID) :
    (s.run i old n).subscriptions = s.subscriptions := by
  unfold run
  split <;> rfl

theorem run_dirty (old n : ClusterID) : (s.run i old n).dirty = s.dirty := by
  unfold run
  split <;> rfl

theorem run_joined (old n : ClusterID) : (s.run i old n).joined = s.joined := by
  unfold run
  split <;> rfl

theorem run_servers (old n : ClusterID) :
    (s.run i old n).servers = if old = n then s.servers else s.servers.set i (.ofId n) := by
  unfold run
  rw [ite_not]
  split <;> rfl

theorem Distinct.obey {ins : Instruction} (h : s.Distinct) (hs : s.obey os i ins = some t) :
    t.Distinct := by
  cases ins with
  | connect remote =>
      obtain ⟨server, -, rfl⟩ := Option.map_eq_some_iff.mp hs
      exact h.subscribe
  | drop remote =>
      obtain ⟨server, -, hdrop⟩ := Option.bind_eq_some_iff.mp hs
      exact h.unsubscribe hdrop
  | run newId =>
      obtain ⟨server, -, rfl⟩ := Option.map_eq_some_iff.mp hs
      intro l
      rw [run_subscriptions]
      exact h l

/-! ## The IDs of the servers -/

/-- No command adds or removes a server. -/
theorem length_obey {ins : Instruction} (hs : s.obey os i ins = some t) :
    t.servers.length = s.servers.length := by
  cases ins with
  | connect remote =>
      obtain ⟨server, -, rfl⟩ := Option.map_eq_some_iff.mp hs
      rw [subscribe_servers]
  | drop remote =>
      obtain ⟨server, -, hdrop⟩ := Option.bind_eq_some_iff.mp hs
      obtain ⟨-, -, hservers, -⟩ := unsubscribe_eq_some hdrop
      rw [hservers]
  | run newId =>
      obtain ⟨server, -, rfl⟩ := Option.map_eq_some_iff.mp hs
      rw [run_servers]
      split
      · rfl
      · exact List.length_set

/-- The process as a whole does with the ID of a server what the server by itself
does. -/
theorem parseCommand_id {command : List Char → List Char} {garbage : ClusterID}
    {cmd reply : List Char} {server : LocalServer} (hserver : s.servers[i]? = some server)
    (h : s.parseCommand command garbage os i cmd = some (t, reply)) :
    ∃ server', t.servers[i]? = some server' ∧
      Server.parseCommand command garbage server.id cmd = some (server'.id, reply) := by
  unfold parseCommand at h
  rw [hserver] at h
  unfold Server.parseCommand
  dsimp only at h ⊢
  split at h
  · rename_i hword
    cases h
    rw [if_pos hword, subscribe_servers]
    exact ⟨server, hserver, rfl⟩
  split at h
  · rename_i hconnect hword
    obtain ⟨u, hu, hut⟩ := Option.map_eq_some_iff.mp h
    cases hut
    obtain ⟨-, -, hservers, -⟩ := unsubscribe_eq_some hu
    rw [if_neg hconnect, if_pos hword, hservers]
    exact ⟨server, hserver, rfl⟩
  split at h
  · rename_i hconnect hdrop hword
    cases h
    rw [if_neg hconnect, if_neg hdrop, if_pos hword, run_servers]
    obtain ⟨hlt, -⟩ := List.getElem?_eq_some_iff.mp hserver
    split
    · rename_i heq
      refine ⟨server, hserver, ?_⟩
      rw [if_neg fun hne => hne heq]
    · exact ⟨_, List.getElem?_set_self hlt, rfl⟩
  split at h
  · cases h
  · rename_i hconnect hdrop hrun hexit
    cases h
    rw [if_neg hconnect, if_neg hdrop, if_neg hrun, if_neg hexit]
    exact ⟨server, hserver, rfl⟩

end LocalNetwork

end DistributAr
