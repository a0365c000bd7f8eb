/-
# `DistributAr.Sequence` — packets in order and a clock that is set

`Network::readVerify` remembers for each source the base time of the last packet
it accepted, on the clock of this host, and rejects what is before it.  The
conversion to the clock of this host depends on `delta`, and `calculate` changes
`delta` while packets come in: the time remembered was converted with the value
of then, the time it is compared with is converted with the value of now.

So a packet that is in order on the network is rejected when `delta` has dropped
by more than the time between the two packets, and only then (`inOrder_iff`).
-/
import DistributAr.Lib.Run
import DistributAr.Network

namespace DistributAr

open Lib

/-- A receiver: its `Network` and its clock offset.  The base time of the last
packet with impulses, as it was sent, and the offset at its arrival are a record
that the program does not keep. -/
structure Receiver where
  network : Network
  delta : Int
  last : Option (Int × Int)

/-- What happens at a receiver: `read` returns, at some reading of the clock, or
the time server answers. -/
inductive ReceiverEvent where
  | packet (now ret : Int) (bb : TimeBuffer)
  | calculate (lastLocal t0 remoteUs : Int)

namespace Receiver

/-- A receiver that has seen no packet. -/
def start (delta : Int) : Receiver := ⟨⟨∅⟩, delta, none⟩

/-- One event. -/
def step (s : Receiver) : ReceiverEvent → Option Receiver
  | .packet now ret bb => some { s with
      network := (s.network.readVerify s.delta now ret bb).2.2
      last := if ret ≠ 0 ∧ 0 < bb.count then some (bb.time, s.delta) else s.last }
  | .calculate lastLocal t0 remoteUs => some { s with
      delta := TimeSync.calculate s.delta lastLocal t0 remoteUs }

/-- A packet with impulses comes from the source `id`, passes the age test, and
was sent no earlier than the last one. -/
def Ordered (id : ClusterID) (s : Receiver) (e : ReceiverEvent) : Prop :=
  ∀ now ret bb, e = .packet now ret bb → ret ≠ 0 → 0 < bb.count →
    bb.srcId = id ∧ 0 ≤ now
      ∧ ¬ TimeSync.toLocal s.delta bb.time + milliseconds packetLifeTimeMs < now
      ∧ ∀ t d, s.last = some (t, d) → t ≤ bb.time

/-- No packet is rejected as out of order. -/
def InOrder (s : Receiver) (e : ReceiverEvent) : Prop :=
  ∀ now ret bb, e = .packet now ret bb →
    (s.network.readVerify s.delta now ret bb).1 ≠ .outOfOrder

/-- The offset has not dropped by more than the time between two packets. -/
def Steady (s : Receiver) (e : ReceiverEvent) : Prop :=
  ∀ now ret bb, e = .packet now ret bb → ret ≠ 0 → 0 < bb.count →
    ∀ t d, s.last = some (t, d) → microseconds (d - s.delta) ≤ bb.time - t

/-- What holds as long as no packet is rejected: the time remembered is that of
the last packet, converted at its arrival. -/
def Remembers (id : ClusterID) (s : Receiver) : Prop :=
  s.network.lastTime id = match s.last with
    | none => timeMin
    | some (t, d) => TimeSync.toLocal d t

variable {id : ClusterID} {s t : Receiver} {e : ReceiverEvent}

/-- What becomes of a packet that passes the age test. -/
theorem readVerify_fresh (n : Network) {delta now ret : Int} {bb : TimeBuffer} (hret : ret ≠ 0)
    (hcount : 0 < bb.count)
    (hage : ¬ TimeSync.toLocal delta bb.time + milliseconds packetLifeTimeMs < now) :
    n.readVerify delta now ret bb
      = if n.lastTime bb.srcId > TimeSync.toLocal delta bb.time then
          (.outOfOrder, bb.prepareRead delta,
            ⟨n.sequences.insert bb.srcId (n.lastTime bb.srcId)⟩)
        else
          (.accepted, bb.prepareRead delta,
            ⟨n.sequences.insert bb.srcId (TimeSync.toLocal delta bb.time)⟩) := by
  have hsome : ¬ (bb.prepareRead delta).sizeData ≤ 0 := Nat.not_le.mpr hcount
  have htime : (bb.prepareRead delta).getTime = TimeSync.toLocal delta bb.time := rfl
  unfold Network.readVerify
  rw [if_neg hret]
  dsimp only
  rw [if_neg hsome, htime, if_neg hage]
  rfl

/-- Nothing else changes what is remembered. -/
theorem readVerify_nothing (n : Network) {delta now ret : Int} {bb : TimeBuffer}
    (h : ¬ (ret ≠ 0 ∧ 0 < bb.count)) :
    (n.readVerify delta now ret bb).1 ≠ .outOfOrder
      ∧ (n.readVerify delta now ret bb).2.2 = n := by
  unfold Network.readVerify
  by_cases hret : ret = 0
  · rw [if_pos hret]
    exact ⟨Verdict.noConfusion, rfl⟩
  · have hempty : (bb.prepareRead delta).sizeData ≤ 0 :=
      Nat.not_lt.mp fun hcount => h ⟨hret, hcount⟩
    rw [if_neg hret]
    dsimp only
    rw [if_pos hempty]
    exact ⟨Verdict.noConfusion, rfl⟩

/-- A time that passes the age test is after the one that stands for no packet. -/
theorem timeMin_le {now time : Int} (hnow : 0 ≤ now)
    (hage : ¬ time + milliseconds packetLifeTimeMs < now) : timeMin ≤ time := by
  simp only [milliseconds, packetLifeTimeMs] at hage
  simp only [timeMin]
  omega

/-- The comparison that `readVerify` makes, in terms of the two offsets. -/
theorem lastTime_le_iff {now : Int} {bb : TimeBuffer} (h : s.Remembers id) (hnow : 0 ≤ now)
    (hage : ¬ TimeSync.toLocal s.delta bb.time + milliseconds packetLifeTimeMs < now) :
    ¬ s.network.lastTime id > TimeSync.toLocal s.delta bb.time
      ↔ ∀ t d, s.last = some (t, d) → microseconds (d - s.delta) ≤ bb.time - t := by
  have hmin := timeMin_le hnow hage
  rw [Remembers] at h
  cases hlast : s.last with
  | none =>
      rw [hlast] at h
      rw [h]
      exact iff_of_true (Int.not_lt.mpr hmin) fun _ _ hnone => nomatch hnone
  | some last =>
      obtain ⟨t, d⟩ := last
      rw [hlast] at h
      rw [h]
      have hshift : ¬ TimeSync.toLocal d t > TimeSync.toLocal s.delta bb.time
          ↔ microseconds (d - s.delta) ≤ bb.time - t := by
        simp only [TimeSync.toLocal, microseconds]
        omega
      rw [hshift]
      constructor
      · intro hle t' d' heq
        cases heq
        exact hle
      · intro hle
        exact hle t d rfl

/-- One packet. -/
theorem inOrder_step (s : Receiver) (e : ReceiverEvent) (h : s.Remembers id)
    (horder : s.Ordered id e) : s.InOrder e ↔ s.Steady e := by
  cases e with
  | calculate lastLocal t0 remoteUs =>
      exact iff_of_true (fun _ _ _ heq => nomatch heq) fun _ _ _ heq => nomatch heq
  | packet now ret bb =>
      by_cases hsome : ret ≠ 0 ∧ 0 < bb.count
      · obtain ⟨hret, hcount⟩ := hsome
        obtain ⟨hsrc, hnow, hage, -⟩ := horder now ret bb rfl hret hcount
        have hverdict : (s.network.readVerify s.delta now ret bb).1 ≠ .outOfOrder
            ↔ ¬ s.network.lastTime id > TimeSync.toLocal s.delta bb.time := by
          rw [readVerify_fresh s.network hret hcount hage, hsrc]
          split
          · rename_i hgt
            exact iff_of_false (fun hne => hne rfl) fun hle => hle hgt
          · rename_i hle
            exact iff_of_true Verdict.noConfusion hle
        rw [lastTime_le_iff h hnow hage] at hverdict
        constructor
        · intro hin now' ret' bb' heq _ _
          cases heq
          exact hverdict.mp (hin now ret bb rfl)
        · intro hsteady now' ret' bb' heq
          cases heq
          exact hverdict.mpr (hsteady now ret bb rfl hret hcount)
      · refine iff_of_true ?_ ?_
        · intro now' ret' bb' heq
          cases heq
          exact (readVerify_nothing s.network hsome).1
        · intro now' ret' bb' heq hret hcount
          cases heq
          exact absurd ⟨hret, hcount⟩ hsome

/-- After an accepted packet, its time is remembered. -/
theorem remembers_step (s : Receiver) (e : ReceiverEvent) (t : Receiver) (h : s.Remembers id)
    (horder : s.Ordered id e) (hin : s.InOrder e) (hs : s.step e = some t) : t.Remembers id := by
  cases e with
  | calculate lastLocal t0 remoteUs =>
      cases hs
      exact h
  | packet now ret bb =>
      cases hs
      by_cases hsome : ret ≠ 0 ∧ 0 < bb.count
      · obtain ⟨hret, hcount⟩ := hsome
        obtain ⟨hsrc, -, hage, -⟩ := horder now ret bb rfl hret hcount
        have haccepted : ¬ s.network.lastTime bb.srcId > TimeSync.toLocal s.delta bb.time := by
          intro hgt
          refine hin now ret bb rfl ?_
          rw [readVerify_fresh s.network hret hcount hage, if_pos hgt]
        rw [Remembers]
        dsimp only
        rw [readVerify_fresh s.network hret hcount hage, if_neg haccepted, hsrc,
          if_pos ⟨hret, hcount⟩, Network.lastTime]
        dsimp only
        rw [AList.lookup_insert, Option.getD_some]
      · rw [Remembers]
        dsimp only
        rw [(readVerify_nothing s.network hsome).2, if_neg hsome]
        exact h

/-- In every run of packets that are in order on the network: none is rejected as
out of order exactly if the offset never drops by more than the time between two
packets. -/
theorem inOrder_iff {delta : Int} {events : List ReceiverEvent}
    (h : Run.Each step (Ordered id) (start delta) events) :
    Run.Each step InOrder (start delta) events ↔ Run.Each step Steady (start delta) events :=
  Run.each_congr_of remembers_step (fun s e _ hI hA _ => inOrder_step s e hI hA) rfl h

/-! ## A correction of five milliseconds -/

/-- A packet with one impulse, sent by cluster 1. -/
def impulseAt (time : Int) : TimeBuffer :=
  { TimeBuffer.new with srcId := 1, time := time, count := 1 }

/-- Two packets a millisecond apart, with an answer of the time server between
them. -/
def corrected (remoteUs : Int) : List ReceiverEvent :=
  [.packet (seconds 10) 18 (impulseAt (seconds 10)),
    .calculate (seconds 10) (seconds 10) remoteUs,
    .packet (seconds 10 + milliseconds 1) 18 (impulseAt (seconds 10 + milliseconds 1))]

/-- What has to be shown of these three steps. -/
theorem corrected_each {C : Receiver → ReceiverEvent → Prop} {remoteUs : Int}
    (h : ∀ s₁ s₂, step (start 0) (.packet (seconds 10) 18 (impulseAt (seconds 10))) = some s₁ →
      step s₁ (.calculate (seconds 10) (seconds 10) remoteUs) = some s₂ →
      C (start 0) (.packet (seconds 10) 18 (impulseAt (seconds 10)))
        ∧ C s₁ (.calculate (seconds 10) (seconds 10) remoteUs)
        ∧ C s₂ (.packet (seconds 10 + milliseconds 1) 18
          (impulseAt (seconds 10 + milliseconds 1)))) :
    Run.Each step C (start 0) (corrected remoteUs) := by
  simp only [corrected, Run.each_cons]
  intro s₁ hs₁
  refine ⟨(h s₁ _ hs₁ rfl).1, ?_⟩
  intro s₂ hs₂
  refine ⟨(h s₁ s₂ hs₁ hs₂).2.1, ?_⟩
  intro s₃ _
  exact ⟨(h s₁ s₂ hs₁ hs₂).2.2, Run.each_nil⟩

/-- A server that is not too far behind leaves both young enough. -/
theorem corrected_ordered {remoteUs : Int}
    (h : ¬ TimeSync.toLocal (TimeSync.calculate 0 (seconds 10) (seconds 10) remoteUs)
      (seconds 10 + milliseconds 1) + milliseconds packetLifeTimeMs
        < seconds 10 + milliseconds 1) :
    Run.Each step (Ordered 1) (start 0) (corrected remoteUs) := by
  refine corrected_each ?_
  intro s₁ s₂ hs₁ hs₂
  cases hs₁
  cases hs₂
  refine ⟨?_, fun _ _ _ heq => (nomatch heq), ?_⟩
  · rintro now ret bb heq - -
    cases heq
    exact ⟨rfl, by decide, by decide, fun _ _ hnone => nomatch hnone⟩
  · rintro now ret bb heq - -
    cases heq
    refine ⟨rfl, by decide, h, ?_⟩
    rintro t d hlast
    cases hlast
    decide

/-- The offset drops by 5 ms between two packets that are 1 ms apart: the second
is young enough, and is rejected. -/
theorem corrected_rejected : Run.Each step (Ordered 1) (start 0) (corrected 9985000)
    ∧ ¬ Run.Each step InOrder (start 0) (corrected 9985000) := by
  refine ⟨corrected_ordered (by decide), ?_⟩
  intro h
  have hlast := h [.packet (seconds 10) 18 (impulseAt (seconds 10)),
      .calculate (seconds 10) (seconds 10) 9985000] _ (List.prefix_refl _) _ rfl rfl
  exact hlast _ _ _ rfl (by decide)

/-- An answer that confirms the offset rejects nothing. -/
theorem inOrder_iff_confirmed : Run.Each step InOrder (start 0) (corrected 10000000) := by
  refine (inOrder_iff (corrected_ordered (by decide))).mpr (corrected_each ?_)
  intro s₁ s₂ hs₁ hs₂
  cases hs₁
  cases hs₂
  refine ⟨?_, fun _ _ _ heq => (nomatch heq), ?_⟩
  · rintro now ret bb heq - - t d hlast
    cases heq
    cases hlast
  · rintro now ret bb heq - - t d hlast
    cases heq
    cases hlast
    decide

end Receiver

end DistributAr
