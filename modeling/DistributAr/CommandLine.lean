/-
# `DistributAr.CommandLine` — what the arguments come to

The client is called as `netc tracker port command …`, a process of servers as
`server tracker port library:N:C …`.

| arguments of the client   | goes to         | what is sent      |
|---------------------------|-----------------|-------------------|
| `list`, `get id`          | the tracker     | `LIST`, `GET id`  |
| `info id`                 | the cluster     | `INFO`            |
| `add id n`, `run id n`, … | the cluster     | `ADD n`, `RUN n`  |
| `connect a b`, `drop a b` | the cluster `b` | `CONNECT a`, …    |
| `id text`                 | the cluster     | the text          |

Where every datagram arrives in time, the command that the arguments name is all that is
executed, once, by the server that runs the cluster, and `main` returns 1 if that answers
`ACK` (`netc_obeyed`).  `library:N:C` starts `N` servers, with `C` and
the IDs after it, or without IDs if `C` is 0; nothing keeps two of these apart
(`started_distinct_iff`).
-/
import DistributAr.Wiring

namespace DistributAr

open Lib

/-- `htons` on a little-endian host. -/
def htons (x : UInt16) : UInt16 := UInt16.ofNat (x.toNat % 256 * 256 + x.toNat / 256)

/-! ## The client -/

/-- What the arguments of the client ask for. -/
inductive NetcCall where
  | usage
  | badPort
  | missing
  | unknown
  | list
  | get (id : ClusterID)
  | create (fileName : List Char)
  | command (cluster : ClusterID) (cmd : List Char)
deriving DecidableEq

namespace NetcCall

/-- `ClusterID cluster = atoi(…)` -/
def cluster (arg : List Char) : ClusterID := UInt32.ofInt ( GraphIO.atoi arg)

/-- `validateArgc(argc, 5)` -/
def one (args : List (List Char)) (call : List Char → NetcCall) : NetcCall :=
  match args with
  | arg :: _ => call arg
  | [] => .missing

/-- `validateArgc(argc, 6)` -/
def two (args : List (List Char)) (call : List Char → List Char → NetcCall) : NetcCall :=
  match args with
  | arg :: arg' :: _ => call arg arg'
  | _ => .missing

/-- The branches of `main`, with `argv[3]` and what comes after it. -/
def ofCommand (cmd : List Char) (args : List (List Char)) : NetcCall :=
  if cmd = "list".toList then .list
  else if cmd = "get".toList then one args fun id => .get (cluster id)
  else if cmd = "create".toList then one args .create
  else if cmd = "info".toList then one args fun id => .command (cluster id) "INFO".toList
  else if cmd = "add".toList then
    two args fun id count => .command (cluster id) ("ADD ".toList ++ count)
  else if cmd = "run".toList then
    two args fun id newCid => .command (cluster id) ("RUN ".toList ++ newCid)
  else if cmd = "save".toList then
    two args fun id saveNum => .command (cluster id) ("SAVE ".toList ++ saveNum)
  else if cmd = "load".toList then
    two args fun id saveNum => .command (cluster id) ("LOAD ".toList ++ saveNum)
  else if cmd = "drop".toList then
    two args fun deleteCluster id => .command (cluster id) ("DROP ".toList ++ deleteCluster)
  else if cmd = "connect".toList then
    two args fun source target => .command (cluster target) ("CONNECT ".toList ++ source)
  else if cluster cmd ≠ 0 then one args fun key => .command (cluster cmd) key
  else .unknown

/-- `main` of the client up to its call of the `Commander`, for a tracker whose name
is known. -/
def ofArgs : List (List Char) → NetcCall
  | _ :: _ :: port :: cmd :: args =>
      if UInt16.ofInt ( GraphIO.atoi port) = 0 then .badPort else ofCommand cmd args
  | _ => .usage

end NetcCall

/-- The address that the `Commander` is given. -/
def netcTracker (ip : UInt32) (argv : List (List Char)) : SockAddr :=
  ⟨ip, htons (UInt16.ofInt ( GraphIO.atoi (argv[2]?.getD [])))⟩

/-- `Commander::showReply`, when the answer is known. -/
def showReply (rep : List Char) : Nat := if rep = "ACK".toList then 1 else 0

/-- `main` of the client: what it returns, and the world at its end, unless `create` has
no result.  After `create` it waits for an answer to nothing. -/
def netcMain {σ : Type} (env : Env σ) (files : List Char → Option (List Char)) (rounds : Nat)
    (ip : UInt32) (world : σ) (argv : List (List Char)) : Option (Nat × σ) :=
  let commander := Commander.new (netcTracker ip argv) world
  match NetcCall.ofArgs argv with
  | .usage => some (0, world)
  | .badPort | .missing | .unknown => some (1, world)
  | .list =>
      let (ids, s) := commander.listClusters env
      some (ids.length, (s.getClusters env ids).world)
  | .get id => some (0, (commander.getCluster env id).world)
  | .create fileName =>
      match commander.createNetwork env rounds (files fileName) with
      | (.running, s) | (.runFailed, s) | (.connectFailed, s) =>
          let (rep, s) := s.wait env
          some (showReply rep, s.world)
      | _ => none
  | .command cluster cmd =>
      let (rep, s) := commander.command env cluster cmd
      some (showReply rep, s.world)

/-- The arguments for an instruction to a cluster. -/
def Instruction.arguments (id : ClusterID) : Instruction → List (List Char)
  | .connect remote => ["connect".toList, printUnsigned remote.toNat, printUnsigned id.toNat]
  | .drop remote => ["drop".toList, printUnsigned remote.toNat, printUnsigned id.toNat]
  | .run newId => ["run".toList, printUnsigned id.toNat, printUnsigned newId.toNat]

theorem NetcCall.cluster_print (id : ClusterID) : cluster (printUnsigned id.toNat) = id := by
  have hatoi := GraphIO.ofInt_atoi_id id [] (by simp)
  rwa [List.append_nil] at hatoi

theorem NetcCall.ofArgs_arguments (prog tracker port : List Char) (id : ClusterID)
    (ins : Instruction) (hport : UInt16.ofInt ( GraphIO.atoi port) ≠ 0) :
    ofArgs (prog :: tracker :: port :: ins.arguments id) = .command id ins.text := by
  cases ins with
  | connect remote =>
      have hread : ofArgs (prog :: tracker :: port :: Instruction.arguments id (.connect remote))
          = .command (cluster (printUnsigned id.toNat)) (Instruction.connect remote).text :=
        if_neg hport
      rw [hread, cluster_print]
  | drop remote =>
      have hread : ofArgs (prog :: tracker :: port :: Instruction.arguments id (.drop remote))
          = .command (cluster (printUnsigned id.toNat)) (Instruction.drop remote).text :=
        if_neg hport
      rw [hread, cluster_print]
  | run newId =>
      have hread : ofArgs (prog :: tracker :: port :: Instruction.arguments id (.run newId))
          = .command (cluster (printUnsigned id.toNat)) (Instruction.run newId).text :=
        if_neg hport
      rw [hread, cluster_print]

variable {site : Site} {w : Processes} {id : ClusterID} {p : Place} {argv : List (List Char)}

/-- A command reaches the server that runs the cluster, and is executed there. -/
theorem netc_delivered (files : List Char → Option (List Char)) (rounds : Nat) {ip : UInt32}
    {cmd : List Char} (hcall : NetcCall.ofArgs argv = .command id cmd)
    (htracker : netcTracker ip argv = site.trackerAddr) (h : Deployed site w id p) :
    ∃ n net, w.hosts p.host = some net
      ∧ let r := net.parseCommand site.command site.garbage.1 (site.os n) p.position cmd
        netcMain (Processes.env site) files rounds ip w argv
          = some (if r.map Prod.snd = some "ACK".toList then 1 else 0, { w with
            hosts := Function.update w.hosts p.host (r.map Prod.fst)
            tick := n + 1
            executed := w.executed ++ [⟨p.host, p.position, cmd⟩] }) := by
  have hdeployed : ∀ id' ∈ [id], Deployed site w id' p := List.forall_mem_singleton.mpr h
  obtain ⟨n, sent, hinfo⟩ := (Ready.fresh hdeployed).requestInfo List.mem_cons_self
  obtain ⟨net, server, hhost, -, -⟩ := h.server
  refine ⟨n, net, hhost, ?_⟩
  intro r
  have hexchange : (Processes.env site).exchange { w with tick := n } p.addr cmd
      = ((r.map Prod.snd).getD [], { w with
        hosts := Function.update w.hosts p.host (r.map Prod.fst)
        tick := n + 1
        executed := w.executed ++ [⟨p.host, p.position, cmd⟩] }) := by
    simp only [Processes.env, if_neg h.addr_ne, Processes.deliver, h.listens, hhost, r]
    cases net.parseCommand site.command site.garbage.1 (site.os n) p.position cmd <;> rfl
  obtain ⟨s, hcommand, hworld⟩ : ∃ s, (Commander.new site.trackerAddr w).command
        (Processes.env site) id cmd = ((r.map Prod.snd).getD [], s)
      ∧ s.world = { w with
        hosts := Function.update w.hosts p.host (r.map Prod.fst)
        tick := n + 1
        executed := w.executed ++ [⟨p.host, p.position, cmd⟩] } := by
    have hnew : (Commander.new site.trackerAddr w).world = w := rfl
    simp only [Commander.command, hinfo, hnew, Function.update_self, h.port_ne, if_false,
      Commander.exchange, hexchange]
    exact ⟨_, rfl, rfl⟩
  rw [netcMain, htracker, hcall]
  dsimp only
  rw [hcommand]
  dsimp only
  rw [hworld]
  cases r with
  | none => rfl
  | some r => simp [showReply]

/-- Whatever command the arguments name, all that is executed is this command, once, with
the text that they name, by the server that runs the cluster; the rest stays as it is,
and `main` says whether the answer was `ACK`.  With IDs as arguments, `connect`, `drop`
and `run` do what they are called. -/
theorem netc_obeyed (site : Site) (w : Processes) (files : List Char → Option (List Char))
    (rounds : Nat) (ip : UInt32) (id : ClusterID) (p : Place) (h : Deployed site w id p) :
    ∃ net server, w.hosts p.host = some net ∧ net.servers[p.position]? = some server
      ∧ server.id = id
      ∧ (∀ argv cmd, NetcCall.ofArgs argv = .command id cmd →
        netcTracker ip argv = site.trackerAddr → ∃ n,
          let r := net.parseCommand site.command site.garbage.1 (site.os n) p.position cmd
          netcMain (Processes.env site) files rounds ip w argv
            = some (if r.map Prod.snd = some "ACK".toList then 1 else 0, { w with
              hosts := Function.update w.hosts p.host (r.map Prod.fst)
              tick := n + 1
              executed := w.executed ++ [⟨p.host, p.position, cmd⟩] }))
      ∧ ∀ prog tracker port ins, UInt16.ofInt ( GraphIO.atoi port) ≠ 0 →
        ⟨ip, htons (UInt16.ofInt ( GraphIO.atoi port))⟩ = site.trackerAddr → ∃ n,
          let r := net.obey (site.os n) p.position ins
          netcMain (Processes.env site) files rounds ip w
              (prog :: tracker :: port :: ins.arguments id)
            = some (if r.isSome then 1 else 0, { w with
              hosts := Function.update w.hosts p.host r
              tick := n + 1
              executed := w.executed ++ [⟨p.host, p.position, ins.text⟩] }) := by
  obtain ⟨net, server, hhost, hserver, hid⟩ := h.server
  have hdelivered : ∀ argv cmd, NetcCall.ofArgs argv = .command id cmd →
      netcTracker ip argv = site.trackerAddr → ∃ n,
        let r := net.parseCommand site.command site.garbage.1 (site.os n) p.position cmd
        netcMain (Processes.env site) files rounds ip w argv
          = some (if r.map Prod.snd = some "ACK".toList then 1 else 0, { w with
            hosts := Function.update w.hosts p.host (r.map Prod.fst)
            tick := n + 1
            executed := w.executed ++ [⟨p.host, p.position, cmd⟩] }) := by
    intro argv cmd hcall htracker
    obtain ⟨n, net', hhost', hmain⟩ := netc_delivered files rounds hcall htracker h
    cases hhost.symm.trans hhost'
    exact ⟨n, hmain⟩
  refine ⟨net, server, hhost, hserver, hid, hdelivered, ?_⟩
  intro prog tracker port ins hport htracker
  obtain ⟨n, hmain⟩ := hdelivered _ ins.text
    (NetcCall.ofArgs_arguments prog tracker port id ins hport) htracker
  refine ⟨n, ?_⟩
  dsimp only at hmain ⊢
  rw [hmain, LocalNetwork.parseCommand_text]
  cases net.obey (site.os n) p.position ins with
  | none => rfl
  | some net' => rfl

/-- `netc localhost 256 run 1 3`, where the cluster 1 exists. -/
theorem netc_obeyed_twoPlaces : ∃ net n, twoProcesses.hosts 0 = some net
    ∧ (netcMain (Processes.env twoSite) (fun _ => none) 0 9 twoProcesses
      ("netc".toList :: "localhost".toList :: "256".toList :: Instruction.arguments 1 (.run 3))).map
        (fun r => (r.1, r.2.executed))
      = some (if (net.obey (twoSite.os n) 0 (.run 3)).isSome then 1 else 0,
        [⟨0, 0, "RUN 3".toList⟩]) := by
  obtain ⟨net, -, hhost, -, -, -, hins⟩ := netc_obeyed twoSite twoProcesses (fun _ => none) 0 9 1
    (twoPlaces 1) (twoPlaces_deployed 1 List.mem_cons_self)
  obtain ⟨n, hmain⟩ := hins "netc".toList "localhost".toList "256".toList (.run 3) (by decide)
    (by decide)
  refine ⟨net, n, hhost, ?_⟩
  rw [hmain]
  rfl

/-! ## The server -/

/-- `std::getline(ss, token, ':')`: the token and what is left, unless nothing is. -/
def getline (ss : List Char) : Option (List Char × List Char) :=
  if ss = [] then none else some (ss.takeWhile (· ≠ ':'), (ss.dropWhile (· ≠ ':')).tail)

/-- The `library:N:C` of the server's `main`. -/
structure ClusterType where
  dllName : List Char
  clusterCount : Int
  startID : Int
deriving DecidableEq

namespace ClusterType

/-- What `main` makes of an argument. -/
def ofArg (arg : List Char) : ClusterType :=
  match getline arg with
  | none => ⟨[], 1, 0⟩
  | some (dllName, ss) =>
      match getline ss with
      | none => ⟨dllName, 1, 0⟩
      | some (count, ss) =>
          match getline ss with
          | none => ⟨dllName, GraphIO.atoi count, 0⟩
          | some (start, _) => ⟨dllName, GraphIO.atoi count, GraphIO.atoi start⟩

/-- The servers that are started, each with its library and the ID that it runs
under.  No `int` comes after the greatest. -/
def servers (t : ClusterType) : Option (List (List Char × ClusterID)) :=
  if 0 < t.startID ∧ 2 ^ 31 < t.startID + t.clusterCount then none
  else some ((List.range t.clusterCount.toNat).map fun (i : Nat) =>
    (t.dllName, if 0 < t.startID then UInt32.ofInt (t.startID + i) else 0))

/-- As `main` expects it. -/
def text (t : ClusterType) : List Char :=
  t.dllName ++ ':' :: (printUnsigned t.clusterCount.toNat ++ ':' :: printUnsigned t.startID.toNat)

/-- A name, a number of servers, and an ID or 0. -/
structure Valid (t : ClusterType) : Prop where
  dllName : ':' ∉ t.dllName
  clusterCount : 0 ≤ t.clusterCount ∧ t.clusterCount < 2 ^ 31
  startID : 0 ≤ t.startID ∧ t.startID < 2 ^ 31
  fits : t.startID + t.clusterCount ≤ 2 ^ 31

end ClusterType

/-- All servers that `main` starts. -/
def startup (args : List (List Char)) : Option (List (List Char × ClusterID)) :=
  (args.mapM fun arg => (ClusterType.ofArg arg).servers).map List.flatten

variable {t u : ClusterType}

theorem getline_token {token : List Char} (rest : List Char) (h : ':' ∉ token) :
    getline (token ++ ':' :: rest) = some (token, rest) := by
  have hkeep : ∀ c ∈ token, decide (c ≠ ':') = true := fun c hc =>
    decide_eq_true fun heq => h (heq ▸ hc)
  rw [getline, if_neg (by simp), List.takeWhile_append_of_pos hkeep,
    List.dropWhile_append_of_pos hkeep, List.takeWhile_cons_of_neg (by simp),
    List.dropWhile_cons_of_neg (by simp), List.append_nil, List.tail_cons]

theorem getline_last {token : List Char} (hne : token ≠ []) (h : ':' ∉ token) :
    getline token = some (token, []) := by
  have hkeep : ∀ c ∈ token, decide (c ≠ ':') = true := fun c hc =>
    decide_eq_true fun heq => h (heq ▸ hc)
  rw [getline, if_neg hne, List.takeWhile_eq_self_iff.mpr hkeep,
    List.dropWhile_eq_nil_iff.mpr hkeep, List.tail_nil]

theorem colon_not_mem_print (n : Nat) : ':' ∉ printUnsigned n := fun h =>
  absurd (IStream.isDigit_of_mem_printUnsigned h) (by decide)

theorem atoi_print {n : Int} (hlo : 0 ≤ n) (hhi : n < 2 ^ 31) :
    GraphIO.atoi (printUnsigned n.toNat) = n := by
  have hatoi := GraphIO.atoi_printUnsigned n.toNat [] (by simp)
  rw [List.append_nil, Int.toNat_of_nonneg hlo, Int.min_eq_left (by omega)] at hatoi
  rw [hatoi, Int.bmod_def]
  omega

/-- An argument in the right form is understood. -/
theorem ClusterType.ofArg_text (h : t.Valid) : ofArg t.text = t := by
  rw [ofArg, text, getline_token _ h.dllName]
  dsimp only
  rw [getline_token _ (colon_not_mem_print _)]
  dsimp only
  rw [getline_last (IStream.printUnsigned_ne_nil _) (colon_not_mem_print _)]
  dsimp only
  rw [atoi_print h.clusterCount.1 h.clusterCount.2, atoi_print h.startID.1 h.startID.2]

/-- The IDs that a type asks for. -/
def ClusterType.ids (t : ClusterType) : List ClusterID :=
  if 0 < t.startID then
    (List.range t.clusterCount.toNat).map fun (i : Nat) => UInt32.ofInt (t.startID + i)
  else []

theorem ClusterType.toNat_id (h : t.Valid) {i : Nat} (hi : i < t.clusterCount.toNat) :
    (UInt32.ofInt (t.startID + i)).toNat = t.startID + i := by
  have hfits := h.fits
  have hpos := h.startID.1
  rw [UInt32.ofInt, UInt32.toNat_ofNat']
  omega

theorem ClusterType.mem_ids (h : t.Valid) {id : ClusterID} : id ∈ t.ids
    ↔ 0 < t.startID ∧ t.startID ≤ id.toNat ∧ (id.toNat : Int) < t.startID + t.clusterCount := by
  have hcount := h.clusterCount.1
  rw [ids]
  split
  · rename_i hpos
    rw [List.mem_map]
    constructor
    · rintro ⟨i, hi, rfl⟩
      have hlt := List.mem_range.mp hi
      have hid := toNat_id h hlt
      omega
    · rintro ⟨-, hlo, hhi⟩
      refine ⟨(id.toNat - t.startID).toNat, List.mem_range.mpr (by omega), ?_⟩
      have hid := toNat_id h (i := (id.toNat - t.startID).toNat) (by omega)
      exact UInt32.toNat_inj.mp (by omega)
  · rename_i hzero
    exact iff_of_false List.not_mem_nil fun hid => hzero hid.1

theorem ClusterType.nodup_ids (h : t.Valid) : t.ids.Nodup := by
  rw [ids]
  split
  · refine (List.nodup_range).map_on ?_
    intro i hi j hj heq
    have hone := toNat_id h (List.mem_range.mp hi)
    have htwo := toNat_id h (List.mem_range.mp hj)
    rw [heq] at hone
    omega
  · exact List.nodup_nil

/-- The ranges of two types do not meet. -/
def ClusterType.Apart (t u : ClusterType) : Prop :=
  0 < t.startID → 0 < u.startID → 0 < t.clusterCount → 0 < u.clusterCount →
    t.startID + t.clusterCount ≤ u.startID ∨ u.startID + u.clusterCount ≤ t.startID

theorem ClusterType.disjoint_ids_iff (ht : t.Valid) (hu : u.Valid) :
    List.Disjoint t.ids u.ids ↔ t.Apart u := by
  constructor
  · intro hdisjoint htpos hupos htcount hucount
    by_contra hmeet
    -- the greater of the two starts is in both ranges
    have hfits := ht.fits
    have hfits' := hu.fits
    have hid : ((UInt32.ofInt (max t.startID u.startID)).toNat : Int)
        = max t.startID u.startID := by
      rw [UInt32.ofInt, UInt32.toNat_ofNat']
      omega
    refine hdisjoint (a := UInt32.ofInt (max t.startID u.startID)) ?_ ?_
    · rw [mem_ids ht, hid]
      omega
    · rw [mem_ids hu, hid]
      omega
  · intro hapart id hidt hidu
    obtain ⟨htpos, htlo, hthi⟩ := (mem_ids ht).mp hidt
    obtain ⟨hupos, hulo, huhi⟩ := (mem_ids hu).mp hidu
    have hsides := hapart htpos hupos (by omega) (by omega)
    omega

/-- What a type asks for: its servers, each with its library and its ID, or 0. -/
def ClusterType.named (t : ClusterType) : List (List Char × Int) :=
  (List.range t.clusterCount.toNat).map fun (i : Nat) =>
    (t.dllName, if 0 < t.startID then t.startID + i else 0)

/-! ## All types -/

/-- The servers of a type, with their library and their IDs. -/
def ClusterType.entries (t : ClusterType) : List (List Char × ClusterID) :=
  (List.range t.clusterCount.toNat).map fun (i : Nat) =>
    (t.dllName, if 0 < t.startID then UInt32.ofInt (t.startID + i) else 0)

theorem ClusterType.servers_eq (h : t.Valid) : t.servers = some t.entries :=
  if_neg fun hover => absurd h.fits (Int.not_le.mpr hover.2)

theorem ClusterType.filter_entries (h : t.Valid) :
    (t.entries.map Prod.snd).filter (· ≠ 0) = t.ids := by
  rw [entries, ids, List.map_map]
  split
  · rename_i hpos
    refine List.filter_eq_self.mpr ?_
    intro id hid
    obtain ⟨i, hi, rfl⟩ := List.mem_map.mp hid
    have hvalue := toNat_id h (List.mem_range.mp hi)
    refine decide_eq_true fun hzero => ?_
    rw [show UInt32.ofInt (t.startID + i) = 0 from hzero] at hvalue
    have hnone : (0 : UInt32).toNat = 0 := rfl
    omega
  · refine List.filter_eq_nil_iff.mpr ?_
    intro id hid
    obtain ⟨i, -, rfl⟩ := List.mem_map.mp hid
    simp

/-- No ID overflows. -/
theorem ClusterType.entries_named (h : t.Valid) :
    t.entries.map (fun s => (s.1, (s.2.toNat : Int))) = t.named := by
  rw [entries, named, List.map_map]
  refine List.map_congr_left ?_
  intro i hi
  refine Prod.ext rfl ?_
  show ((if 0 < t.startID then UInt32.ofInt (t.startID + i) else 0 : UInt32).toNat : Int)
    = if 0 < t.startID then t.startID + i else 0
  split
  · exact toNat_id h (List.mem_range.mp hi)
  · rfl

theorem startup_text (ts : List ClusterType) (h : ∀ t ∈ ts, t.Valid) :
    startup (ts.map ClusterType.text) = some (ts.flatMap ClusterType.entries) := by
  have hall : (ts.map ClusterType.text).mapM (fun arg => (ClusterType.ofArg arg).servers)
      = some (ts.map ClusterType.entries) := by
    induction ts with
    | nil => rfl
    | cons t ts ih =>
        obtain ⟨hone, hrest⟩ := List.forall_mem_cons.mp h
        rw [List.map_cons, List.mapM_cons, ClusterType.ofArg_text hone,
          ClusterType.servers_eq hone, ih hrest]
        rfl
  rw [startup, hall, Option.map_some, List.flatMap_def]

/-- A process starts the servers that its arguments name, in their order, each with the
library and the ID that are named together, and the IDs are different from each other
exactly if the ranges of no two arguments meet. -/
theorem started_distinct_iff (ts : List ClusterType) (h : ∀ t ∈ ts, t.Valid) :
    ∃ servers, startup (ts.map ClusterType.text) = some servers
      ∧ servers.map (fun s => (s.1, (s.2.toNat : Int))) = ts.flatMap ClusterType.named
      ∧ (((servers.map Prod.snd).filter (· ≠ 0)).Nodup ↔ ts.Pairwise ClusterType.Apart) := by
  have hids : ((ts.flatMap ClusterType.entries).map Prod.snd).filter (· ≠ 0)
      = ts.flatMap ClusterType.ids := by
    rw [List.map_flatMap, List.filter_flatMap]
    exact List.flatMap_congr fun t ht => ClusterType.filter_entries (h t ht)
  refine ⟨_, startup_text ts h, ?_, ?_⟩
  · rw [List.map_flatMap]
    exact List.flatMap_congr fun t ht => ClusterType.entries_named (h t ht)
  · rw [hids, List.nodup_flatMap]
    constructor
    · rintro ⟨-, hdisjoint⟩
      exact hdisjoint.imp_of_mem fun ht hu => (ClusterType.disjoint_ids_iff (h _ ht) (h _ hu)).mp
    · intro hapart
      exact ⟨fun t ht => ClusterType.nodup_ids (h t ht), hapart.imp_of_mem fun ht hu =>
        (ClusterType.disjoint_ids_iff (h _ ht) (h _ hu)).mpr⟩

/-- Two types of two clusters each, and one without IDs. -/
theorem started_distinct_iff_threeTypes : ∃ servers,
    startup ["a:2:1025".toList, "b:2:1026".toList, "c:1:0".toList] = some servers
      ∧ servers.map (fun s => (s.1, (s.2.toNat : Int))) = [("a".toList, 1025), ("a".toList, 1026),
        ("b".toList, 1026), ("b".toList, 1027), ("c".toList, 0)]
      ∧ ¬ ((servers.map Prod.snd).filter (· ≠ 0)).Nodup := by
  obtain ⟨servers, hstart, hnamed, hiff⟩ := started_distinct_iff
    [⟨"a".toList, 2, 1025⟩, ⟨"b".toList, 2, 1026⟩, ⟨"c".toList, 1, 0⟩] (by
      intro t ht
      simp only [List.mem_cons, List.not_mem_nil, or_false] at ht
      rcases ht with rfl | rfl | rfl <;> exact ⟨by decide, by decide, by decide, by decide⟩)
  refine ⟨servers, hstart, hnamed, fun hnodup => ?_⟩
  have hapart := List.rel_of_pairwise_cons (hiff.mp hnodup) List.mem_cons_self
  exact absurd (hapart (by decide) (by decide) (by decide) (by decide)) (by decide)

end DistributAr
