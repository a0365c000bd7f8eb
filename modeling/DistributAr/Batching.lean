/-
# `DistributAr.Batching` — batching against expiry

The sender keeps a buffer until it is full or an impulse comes more than
32767 microseconds after the first; the receiver drops a packet whose first
impulse is more than 20 milliseconds old.  The two limits are set in two files
and do not fit: every buffer that is flushed for its range is expired when it
leaves (`TimeBuffer.gap_of_deltaTus`), even with no delay and a common clock.

`flushes_inTime_iff` is the exact account: all flushed buffers of a run are in
time if and only if no call finds a delta above the range, and none that finds
the buffer full comes more than the life time after its first impulse.
-/
import DistributAr.Wire
import DistributAr.Network

namespace DistributAr

/-- A receiver on the same clock, with the same `delta`, that gets the whole
packet at the moment it is sent does not reject it as too old. -/
def Flush.InTime (f : Flush) : Prop :=
  ∀ (n : Network) (ret : Int), (n.readVerify f.call.delta f.call.time ret f.packet).1 ≠ .tooOld

theorem Flush.inTime_iff {f : Flush} (h : f.Wf) :
    f.InTime ↔ f.call.time ≤ f.localTime + milliseconds packetLifeTimeMs := by
  have hpos : 0 < f.packet.count := by
    rw [h.packet_count]; exact h.count_pos
  have hlocal : TimeSync.toLocal f.call.delta f.packet.time = f.localTime := by
    rw [h.packet_time, TimeSync.toLocal_toNetwork]
  simp only [InTime, ne_eq, Network.readVerify_tooOld_iff, hlocal]
  constructor
  · intro hall
    by_contra hlate
    exact hall ⟨∅⟩ 1 ⟨by decide, hpos, by omega⟩
  · intro hle _ _ hold
    omega

/-- The call `c` meets the limits of both sides: unless it is dropped, its delta
is in range, and if it finds the buffer full, the first impulse is not older
than a packet may be. -/
def TimeBuffer.Timely (b : TimeBuffer) (c : Call) : Prop :=
  ¬ b.Drops c.time →
    b.deltaTus c.time ≤ 32767 ∧
      (maxOutputNodes ≤ b.count → c.time ≤ b.baseTime c.time + milliseconds packetLifeTimeMs)

/-- Every call of the run is timely for the buffer it finds. -/
def TimelyRun : Server → List Call → Prop
  | _, [] => True
  | s, c :: cs => s.timeBuff.Timely c ∧ ∀ s', s.write c = .ok s' → TimelyRun s' cs

namespace Server

variable {s s' : Server} {c : Call}

/-- A call that flushes is timely exactly when what it flushes is in time.  The
range trigger is the point: it fires 32768 microseconds after the first impulse
at the earliest, and that is over the life time. -/
theorem timely_iff_of_fills (hle : s.timeBuff.Behind c.time) (hd : ¬ s.timeBuff.Drops c.time)
    (hf : s.timeBuff.Fills c.time) :
    s.timeBuff.Timely c ↔
      c.time ≤ s.timeBuff.baseTime c.time + milliseconds packetLifeTimeMs := by
  constructor
  · intro h
    obtain ⟨hrange, hfull⟩ := h hd
    rcases hf with hfills | hfar
    · exact hfull hfills
    · omega
  · intro hage _
    refine ⟨?_, fun _ => hage⟩
    by_contra hfar
    have hgap := TimeBuffer.gap_of_deltaTus hle (by omega)
    simp only [microseconds, milliseconds, packetLifeTimeMs] at hgap hage
    omega

theorem timely_of_not_fills (hf : ¬ s.timeBuff.Fills c.time) : s.timeBuff.Timely c := by
  intro _
  have hroom : ¬ maxOutputNodes ≤ s.timeBuff.count := fun h => hf (.inl h)
  have hnear : ¬ 32767 < s.timeBuff.deltaTus c.time := fun h => hf (.inr h)
  exact ⟨by omega, fun h => absurd h hroom⟩

/-- The buffer's base time is not after the calls to come. -/
def Behind (s : Server) (cs : List Call) : Prop := ∀ c ∈ cs, s.timeBuff.Behind c.time

/-- One call: the flushes stay in time exactly when the call is timely. -/
theorem write_inTime_iff (hw : s.Wf) (hle : s.timeBuff.Behind c.time)
    (hr : s.write c = .ok s') :
    (∀ f ∈ s'.sent, f.InTime) ↔ (∀ f ∈ s.sent, f.InTime) ∧ s.timeBuff.Timely c := by
  have hw' := wf_write s c s' hw hr
  obtain ⟨hd, he⟩ | ⟨-, hf, he⟩ | ⟨hd, hf, he⟩ := write_cases s c <;> rw [he] at hr <;> cases hr
  · exact (and_iff_left fun h => absurd hd h).symm
  · exact (and_iff_left (timely_of_not_fills hf)).symm
  · have hlast : (⟨s.timeBuff, _, c⟩ : Flush).Wf :=
      hw'.sent _ (List.mem_append_right _ (List.mem_singleton_self _))
    have hnew := (Flush.inTime_iff hlast).trans (timely_iff_of_fills hle hd hf).symm
    show (∀ f ∈ s.sent ++ [_], f.InTime) ↔ _
    rw [List.forall_mem_append, List.forall_mem_singleton, hnew]

/-- The base time stays behind the calls to come. -/
theorem behind_write {cs : List Call} (hb : s.Behind (c :: cs))
    (hmono : ∀ c' ∈ cs, c.time ≤ c'.time) (hr : s.write c = .ok s') : s'.Behind cs := by
  have hc := hb c List.mem_cons_self
  obtain ⟨-, he⟩ | ⟨-, -, he⟩ | ⟨-, -, he⟩ := write_cases s c <;> rw [he] at hr <;> cases hr
  · exact fun c' hmem => hb c' (List.mem_cons_of_mem _ hmem)
  · exact fun c' hmem => .inr (Int.le_trans (TimeBuffer.baseTime_le hc) (hmono c' hmem))
  · have hopen : (s.restarted c).timeBuff.time = c.time := TimeBuffer.new_baseTime _
    exact fun c' hmem => .inr (hopen ▸ hmono c' hmem)

/-- A whole run. -/
theorem writes_inTime_iff : ∀ {cs : List Call} {s : Server}, s.Wf → s.Behind cs →
    (cs.map Call.time).Pairwise (· ≤ ·) → s.writes cs = .ok s' →
      ((∀ f ∈ s'.sent, f.InTime) ↔ (∀ f ∈ s.sent, f.InTime) ∧ TimelyRun s cs)
  | [], _, _, _, _, hr => by cases hr; exact (and_iff_left trivial).symm
  | c :: cs, s, hw, hb, hmono, hr => by
      obtain ⟨s₁, h₁, h₂⟩ := writes_cons hr
      rw [List.map_cons, List.pairwise_cons, List.forall_mem_map] at hmono
      have hone := write_inTime_iff hw (hb c List.mem_cons_self) h₁
      have hrest := writes_inTime_iff (wf_write s c s₁ hw h₁) (behind_write hb hmono.1 h₁)
        hmono.2 h₂
      have hrun : TimelyRun s (c :: cs) ↔ s.timeBuff.Timely c ∧ TimelyRun s₁ cs := by
        refine and_congr_right fun _ => ⟨fun h => h s₁ h₁, ?_⟩
        intro h s₂ h₂
        rw [h₁] at h₂
        cases h₂
        exact h
      rw [hrest, hone, hrun, and_assoc]

end Server

/-- The flushed buffers of a run all arrive in time exactly when every call of
the run is timely. -/
theorem flushes_inTime_iff (id : ClusterID) (cs : List Call) (s : Server)
    (hmono : (cs.map Call.time).Pairwise (· ≤ ·)) (hr : (Server.new id).writes cs = .ok s) :
    (∀ f ∈ s.sent, f.InTime) ↔ TimelyRun (Server.new id) cs := by
  have hfresh : (Server.new id).Behind cs := fun _ _ => .inl rfl
  rw [Server.writes_inTime_iff (Server.wf_new id) hfresh hmono hr]
  exact and_iff_right fun f hf => absurd hf List.not_mem_nil

theorem flushes_inTime_iff_threeCalls : ∃ s, (Server.new 1025).writes threeCalls = .ok s
    ∧ ((∀ f ∈ s.sent, f.InTime) ↔ TimelyRun (Server.new 1025) threeCalls) :=
  ⟨_, rfl, flushes_inTime_iff 1025 threeCalls _ (by decide) rfl⟩

/-- Three impulses within 50 milliseconds: the buffer of the first two leaves at
the third, 50 milliseconds after the first, and is rejected. -/
theorem threeCalls_not_inTime : ∃ s, (Server.new 1025).writes threeCalls = .ok s
    ∧ (threeCalls.map Call.time).Pairwise (· ≤ ·) ∧ ∃ f ∈ s.sent, ¬ f.InTime := by
  refine ⟨_, rfl, by decide, _, List.mem_singleton_self _, ?_⟩
  intro h
  refine h ⟨∅⟩ 1 ((Network.readVerify_tooOld_iff _ _ _ _ _).mpr ⟨by decide, by decide, ?_⟩)
  decide

end DistributAr
