/-
# `DistributAr.Decoding` — what the client makes of the tracker's answers

The tracker prints and the client scans, each with types of its own.

| answer            | tracker                    | client                               |
|-------------------|----------------------------|--------------------------------------|
| `LIST`            | `unsigned int`, then blank | `unsigned int` until one cannot be read |
| `POINT n ip port` | `in_addr_t`, `uint16_t`    | `unsigned long`, `unsigned short`    |

The blank after the last number keeps the loop of `listClusters` going for one
round more; nothing is left to read then, and nothing comes of it.  The port is
printed and scanned in the byte order that it has in the socket address.
-/
import DistributAr.Commander
import DistributAr.Leases

namespace DistributAr

open Lib

namespace Tracker

/-- The IDs that a `LIST` prints, in that order. -/
def listed (t : Tracker) (turn : Turn) : List ClusterID :=
  ((turn.order.visit t.clusters).map Sigma.fst).filter fun id => !t.isOld turn.now id

/-- The environment of a client that talks to the tracker alone, with no datagram
lost. -/
def env (turn : Turn) (client : SockAddr) (localIP : UInt64)
    (garbage : ClusterID × UInt64 × UInt16) : Env Tracker where
  exchange t _ cmd :=
    let (t', reply) := t.iteration turn client cmd
    (reply.getD [], t')
  wait t := ([], t)
  sleep := id
  localIP := localIP
  garbage _ := garbage

variable {t : Tracker} {turn : Turn} {client addr : SockAddr} {localIP : UInt64}
  {garbage : ClusterID × UInt64 × UInt16} {n : ClusterID}

theorem mem_listed : n ∈ t.listed turn ↔
    ∃ a u, t.view n = some (a, u) ∧ ¬ u < turn.now - envUpdateTime :=
  mem_handleList

theorem exchange_list : ((env turn client localIP garbage).exchange t addr Command.list.text).1
    = (Reply.list (t.listed turn)).text := by
  show (t.iteration turn client Command.list.text).2.getD [] = _
  rw [iteration_text, getD_sendCommand]
  rfl

theorem exchange_get : ((env turn client localIP garbage).exchange t addr (Command.get n).text).1
    = (t.handleGet turn n).2.text := by
  show (t.iteration turn client (Command.get n).text).2.getD [] = _
  rw [iteration_text, getD_sendCommand]
  rfl

end Tracker

namespace Commander

/-- The address goes through a wider type and back. -/
theorem replaceLo_toUInt32 {σ : Type} (env : Env σ) (ip replacement : UInt32) :
    (replaceLo env ip.toUInt64 replacement.toUInt64).toUInt32
      = if ip.toUInt64 = env.localIP then replacement else ip := by
  unfold replaceLo
  split
  · exact UInt32.toUInt32_toUInt64 replacement
  · exact UInt32.toUInt32_toUInt64 ip

/-- The loop on a printed list, at its start or at the blank behind a number. -/
theorem readIds_text {ids : List ClusterID} (hids : ∀ id ∈ ids, id ≠ 0) (blanks : List Char)
    (hblanks : ∀ d ∈ blanks, isSpace d) {fuel : Nat} (hfuel : ids.length < fuel) :
    readIds fuel (.ofChars (blanks ++ (Reply.list ids).text)) = ids := by
  induction ids generalizing blanks fuel with
  | nil =>
      -- nothing but blanks: the extraction fails, and so does the loop's next test
      obtain ⟨fuel, rfl⟩ := Nat.exists_eq_succ_of_ne_zero (Nat.ne_of_gt hfuel)
      have hdrop : (blanks ++ (Reply.list []).text).dropWhile isSpace = [] := by
        rw [List.dropWhile_append_of_pos hblanks]
        rfl
      have hread : (IStream.ofChars (blanks ++ (Reply.list []).text)).readUnsigned 32
          = (none, ⟨[], true, true⟩) := by
        have hsentry : (IStream.ofChars (blanks ++ (Reply.list []).text)).sentry
            = ⟨[], true, true⟩ := by
          rw [IStream.sentry]
          simp only [IStream.good, IStream.ofChars, Bool.not_false, Bool.and_self, if_true, hdrop]
        rw [IStream.readUnsigned, hsentry]
        rfl
      have hgo : ((IStream.ofChars (blanks ++ (Reply.list []).text)).eof
          || (IStream.ofChars (blanks ++ (Reply.list []).text)).fail) = false := rfl
      rw [readIds, if_neg (by rw [hgo]; decide), hread]
      exact readIds_of_fail rfl fuel
  | cons id ids ih =>
      obtain ⟨fuel, rfl⟩ := Nat.exists_eq_succ_of_ne_zero (Nat.ne_zero_of_lt hfuel)
      obtain ⟨hid, hrest⟩ := List.forall_mem_cons.mp hids
      have hread : (IStream.ofChars (blanks ++ (Reply.list (id :: ids)).text)).readUnsigned 32
          = (some id.toNat, .ofChars ([' '] ++ (Reply.list ids).text)) := by
        have htext : (Reply.list (id :: ids)).text
            = printUnsigned id.toNat ++ ([' '] ++ (Reply.list ids).text) := List.append_assoc _ _ _
        rw [htext]
        exact IStream.readUnsigned_text 32 blanks _ hblanks id.toNat_lt (by simp)
      have hgo : ((IStream.ofChars (blanks ++ (Reply.list (id :: ids)).text)).eof
          || (IStream.ofChars (blanks ++ (Reply.list (id :: ids)).text)).fail) = false := rfl
      have hnext := ih hrest [' '] (by simp [isSpace])
        (Nat.lt_of_succ_lt_succ hfuel)
      rw [readIds, if_neg (by rw [hgo]; decide), hread]
      dsimp only
      rw [Option.map_some, UInt32.ofNat_toNat, hnext]
      exact if_pos ⟨Ne.symm hid, rfl⟩

/-- The client reads the list that the tracker prints. -/
theorem parseList_text {ids : List ClusterID} (hids : ∀ id ∈ ids, id ≠ 0) :
    parseList (Reply.list ids).text = ids := by
  have hlen : ids.length ≤ (Reply.list ids).text.length := by
    clear hids
    induction ids with
    | nil => exact Nat.le_refl 0
    | cons id ids ih =>
        have htext : (Reply.list (id :: ids)).text
            = printUnsigned id.toNat ++ [' '] ++ (Reply.list ids).text := rfl
        rw [htext, List.length_append, List.length_append, List.length_cons, List.length_singleton]
        omega
  exact readIds_text hids [] (by simp) (Nat.lt_succ_of_le hlen)

end Commander

/-- For every tracker without the key 0: the client gets the list of the IDs that
are not too old, each once, in the order printed; and for each of them, asked for
by `GET`, the address that the tracker has goes to the entry of the ID, the tracker's
own in place of the local host's, and to no other. -/
theorem answers_decoded (turn : Turn) (client : SockAddr) (localIP : UInt64)
    (garbage : ClusterID × UInt64 × UInt16) (s : Commander Tracker)
    (hzero : s.world.clusters.lookup 0 = none) :
    let env := Tracker.env turn client localIP garbage
    let ids := s.world.listed turn
    (env.exchange s.world (s.clusters trackerClusterId) Command.list.text).1 = (Reply.list ids).text
      ∧ (s.listClusters env).1 = ids
      ∧ ids.Nodup
      ∧ (∀ n, n ∈ ids ↔ (∃ a, s.world.clusters.lookup n = some a)
        ∧ s.world.isOld turn.now n = false)
      ∧ ∀ n ∈ ids, ∀ a, s.world.clusters.lookup n = some a →
        (s.getCluster env n).clusters = Function.update s.clusters n
          ⟨if a.s_addr.toUInt64 = localIP then (s.clusters trackerClusterId).s_addr else a.s_addr,
            a.sin_port⟩ := by
  intro env ids
  have hids : ∀ n ∈ ids, n ≠ 0 := by
    rintro n hn rfl
    obtain ⟨a, u, hview, -⟩ := Tracker.mem_listed.mp hn
    rw [Tracker.view_eq_none.mpr hzero] at hview
    cases hview
  refine ⟨Tracker.exchange_list, ?_, Tracker.nodup_handleList, ?_, ?_⟩
  · show Commander.parseList (env.exchange s.world (s.clusters trackerClusterId)
      Command.list.text).1 = ids
    rw [Tracker.exchange_list]
    exact Commander.parseList_text hids
  · intro n
    refine Tracker.mem_listed.trans ?_
    constructor
    · rintro ⟨a, u, hview, hlive⟩
      obtain ⟨hlookup, rfl⟩ := Tracker.view_eq_some.mp hview
      exact ⟨⟨a, hlookup⟩, decide_eq_false hlive⟩
    · rintro ⟨⟨a, hlookup⟩, hlive⟩
      exact ⟨a, _, Tracker.view_eq_some.mpr ⟨hlookup, rfl⟩, of_decide_eq_false hlive⟩
  · intro n hn a ha
    obtain ⟨b, u, hview, hlive⟩ := Tracker.mem_listed.mp hn
    obtain ⟨hb, -⟩ := Tracker.view_eq_some.mp hview
    rw [ha] at hb
    cases hb
    have hreply : (s.world.handleGet turn n).2 = .point n a :=
      Tracker.reply_handleGet_eq_point.mpr ⟨u, hview, hlive⟩
    have hpointed : Commander.pointed env (s.clusters trackerClusterId) s.world n
        = some ⟨(Commander.replaceLo env a.s_addr.toUInt64
          (s.clusters trackerClusterId).s_addr.toUInt64).toUInt32, a.sin_port⟩ := by
      rw [Commander.pointed, Tracker.exchange_get, hreply, Commander.readPoint_text, if_pos rfl]
    rw [Commander.getCluster_clusters, hpointed, Commander.replaceLo_toUInt32]
    rfl

/-- A tracker with the cluster 1025 on the local host, and a client that knows the
tracker. -/
def localCluster : Commander Tracker :=
  .new ⟨0x0900000A, 7000⟩ { Tracker.new with
    clusters := AList.insert 1025 ⟨0x0100007F, 5000⟩ ∅ }

/-- The client finds it on the list, and at the tracker's address. -/
theorem answers_decoded_localCluster :
    let env := Tracker.env ⟨0, .kept, 0⟩ ⟨0x0A000002, 6000⟩ 0x0100007F (0, 0, 0)
    (localCluster.listClusters env).1 = [1025]
      ∧ (localCluster.getCluster env 1025).clusters 1025 = ⟨0x0900000A, 5000⟩ := by
  obtain ⟨-, hlist, -, -, hget⟩ := answers_decoded ⟨0, .kept, 0⟩ ⟨0x0A000002, 6000⟩ 0x0100007F
    (0, 0, 0) localCluster rfl
  refine ⟨hlist, ?_⟩
  have hcluster := hget 1025 List.mem_cons_self ⟨0x0100007F, 5000⟩ rfl
  rw [hcluster, Function.update_self]
  rfl

end DistributAr
