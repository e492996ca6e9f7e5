import CoupledCC.Bbr.Phase

/-!
# What the functions of BBR write

For each function of `bbr_main` its result is written as the state before it with some fields exchanged (`…_frame`), so
that a part of the state without these fields is found unchanged by it. The fields of the gain cycle (`Cycle`), of
long-term sampling (`LongTerm`) and of the aggregation of ACKs (`Excess`) are exchanged together.
-/

namespace CoupledCC.Bbr

open Word

/-- The mode and the phase of the gain cycle. -/
structure Cycle where
  mode : BbrMode
  cycleIdx : BitVec 3
  cycleMstamp : U64
deriving Repr, DecidableEq

/-- The state of long-term sampling, with the pacing gain it sets when it finds a policer. -/
structure LongTerm where
  ltIsSampling : Bool
  ltRttCnt : BitVec 7
  ltUseBw : Bool
  ltBw : U32
  ltLastDelivered : U32
  ltLastStamp : U32
  ltLastLost : U32
  pacingGain : BitVec 10
deriving Repr, DecidableEq

/-- The state of the aggregation of ACKs. -/
structure Excess where
  ackEpochMstamp : U64
  ackEpochAcked : BitVec 20
  extraAcked0 : U16
  extraAcked1 : U16
  extraAckedWinRtts : BitVec 5
  extraAckedWinIdx : Bool

section Frame

variable {M : Type} {k : Kernel M}

def BbrSock.cycle (s : BbrSock M) : Cycle :=
  ⟨s.ca.mode, s.ca.cycleIdx, s.ca.cycleMstamp⟩

def BbrSock.longTerm (s : BbrSock M) : LongTerm :=
  ⟨s.ca.ltIsSampling, s.ca.ltRttCnt, s.ca.ltUseBw, s.ca.ltBw, s.ca.ltLastDelivered, s.ca.ltLastStamp, s.ca.ltLastLost,
    s.ca.pacingGain⟩

def BbrSock.setCycle (s : BbrSock M) (c : Cycle) : BbrSock M :=
  { s with ca := { s.ca with mode := c.mode, cycleIdx := c.cycleIdx, cycleMstamp := c.cycleMstamp } }

def BbrSock.setLongTerm (s : BbrSock M) (l : LongTerm) : BbrSock M :=
  { s with ca := { s.ca with
    ltIsSampling := l.ltIsSampling
    ltRttCnt := l.ltRttCnt
    ltUseBw := l.ltUseBw
    ltBw := l.ltBw
    ltLastDelivered := l.ltLastDelivered
    ltLastStamp := l.ltLastStamp
    ltLastLost := l.ltLastLost
    pacingGain := l.pacingGain } }

def BbrSock.setExcess (s : BbrSock M) (e : Excess) : BbrSock M :=
  { s with ca := { s.ca with
    ackEpochMstamp := e.ackEpochMstamp
    ackEpochAcked := e.ackEpochAcked
    extraAcked0 := e.extraAcked0
    extraAcked1 := e.extraAcked1
    extraAckedWinRtts := e.extraAckedWinRtts
    extraAckedWinIdx := e.extraAckedWinIdx } }

@[simp] theorem setLongTerm_self (s : BbrSock M) : s.setLongTerm s.longTerm = s := rfl

@[simp] theorem setCycle_self (s : BbrSock M) : s.setCycle s.cycle = s := rfl

@[simp] theorem setLongTerm_longTerm (s : BbrSock M) (l : LongTerm) : (s.setLongTerm l).longTerm = l := rfl

@[simp] theorem setCycle_longTerm (s : BbrSock M) (c : Cycle) : (s.setCycle c).longTerm = s.longTerm := rfl

/-! ## Long-term sampling -/

theorem bbrLtBwMeasure_frame (s : BbrSock M) : ∃ l, bbrLtBwMeasure k s = s.setLongTerm l := by
  have hdone (bw : U32) : ∃ l, bbrLtBwIntervalDone k s bw = s.setLongTerm l := by
    unfold bbrLtBwIntervalDone
    simp only
    split
    · exact ⟨⟨_, _, _, _, _, _, _, _⟩, rfl⟩
    · exact ⟨⟨_, _, _, _, _, _, _, _⟩, rfl⟩
  unfold bbrLtBwMeasure
  simp only
  split
  · exact ⟨s.longTerm, rfl⟩
  · split
    · exact ⟨s.longTerm, rfl⟩
    · split
      · exact ⟨⟨_, _, _, _, _, _, _, _⟩, rfl⟩
      · exact hdone _

theorem bbrLtBwSample_frame (s : BbrSock M) (rs : RateSample) : ∃ l, bbrLtBwSample k s rs = s.setLongTerm l := by
  have hround : ∃ l, (if s.ca.roundStart then bbrCountLtRtt s else s) = s.setLongTerm l := by
    split
    · exact ⟨⟨_, _, _, _, _, _, _, _⟩, rfl⟩
    · exact ⟨s.longTerm, rfl⟩
  unfold bbrLtBwSample
  split
  · exact ⟨⟨_, _, _, _, _, _, _, _⟩, rfl⟩
  · obtain ⟨l, hl⟩ := hround
    simp only [hl]
    split
    · exact ⟨l, rfl⟩
    · split
      · exact ⟨⟨_, _, _, _, _, _, _, _⟩, rfl⟩
      · split
        · exact ⟨l, rfl⟩
        · exact bbrLtBwMeasure_frame (s.setLongTerm l)

/-- Long-term sampling restarts the gain cycle only when it gives up a bandwidth, and then in `BBR_PROBE_BW`. -/
theorem bbrLtBwSampling_frame (s : BbrSock M) (rs : RateSample) (rand : U32) :
    ∃ l c, bbrLtBwSampling k s rs rand = (s.setLongTerm l).setCycle c ∧ (c = s.cycle ∨
      (c = (bbrResetProbeBwMode s rand).cycle ∧ s.ca.mode = .probeBw ∧ s.ca.ltUseBw = true ∧ l.ltUseBw = false ∧
        l.pacingGain = s.ca.pacingGain)) := by
  have hsample (s : BbrSock M) : ∃ l c, bbrLtBwSample k s rs = (s.setLongTerm l).setCycle c ∧ c = s.cycle := by
    obtain ⟨l, hl⟩ := bbrLtBwSample_frame (k := k) s rs
    exact ⟨l, s.cycle, hl, rfl⟩
  unfold bbrLtBwSampling
  split
  · rename_i huse
    unfold bbrLtBwInUse
    split
    · rename_i hprobe
      simp only
      split
      · exact ⟨⟨_, _, _, _, _, _, _, _⟩, ⟨_, _, _⟩, rfl, .inr ⟨rfl, hprobe.1, huse, rfl, rfl⟩⟩
      · exact ⟨(bbrCountLtRtt s).longTerm, s.cycle, rfl, .inl rfl⟩
    · exact ⟨s.longTerm, s.cycle, rfl, .inl rfl⟩
  · split
    · obtain ⟨l, c, h, hc⟩ := hsample s
      exact ⟨l, c, h, .inl hc⟩
    · split
      · exact ⟨s.longTerm, s.cycle, rfl, .inl rfl⟩
      · obtain ⟨l, c, h, hc⟩ := hsample
          { s with ca := { (bbrResetLtBwSamplingInterval s).ca with ltIsSampling := true } }
        exact ⟨l, c, h, .inl hc⟩

/-! ## Bandwidth, aggregation, cycle, a full pipe -/

theorem bbrUpdateRound_frame (s : BbrSock M) (rs : RateSample) :
    ∃ next cnt start conservation, bbrUpdateRound s rs = { s with ca := { s.ca with
      nextRttDelivered := next, rttCnt := cnt, roundStart := start, packetConservation := conservation } } := by
  unfold bbrUpdateRound
  split
  · exact ⟨_, _, _, _, rfl⟩
  · exact ⟨_, _, _, _, rfl⟩

theorem bbrFilterBw_frame (s : BbrSock M) (rs : RateSample) :
    ∃ bw, bbrFilterBw k s rs = { s with ca := { s.ca with bw := bw } } := by
  unfold bbrFilterBw
  simp only
  split
  · exact ⟨_, rfl⟩
  · exact ⟨_, rfl⟩

theorem bbrUpdateAckAggregation_frame (s : BbrSock M) (rs : RateSample) :
    ∃ e, bbrUpdateAckAggregation k s rs = s.setExcess e := by
  have hage : ∃ e, bbrAgeExtraAcked s = s.setExcess e := by
    unfold bbrAgeExtraAcked
    split
    · simp only
      split
      · cases s.ca.extraAckedWinIdx
        · exact ⟨⟨_, _, _, _, _, _⟩, rfl⟩
        · exact ⟨⟨_, _, _, _, _, _⟩, rfl⟩
      · exact ⟨⟨_, _, _, _, _, _⟩, rfl⟩
    · exact ⟨⟨_, _, _, _, _, _⟩, rfl⟩
  have hexpect (s : BbrSock M) : ∃ e, (bbrExpectAcked k s rs).1 = s.setExcess e := by
    unfold bbrExpectAcked
    simp only
    split
    · exact ⟨⟨_, _, _, _, _, _⟩, rfl⟩
    · exact ⟨⟨_, _, _, _, _, _⟩, rfl⟩
  have hrecord (s : BbrSock M) (expectedAcked : U32) : ∃ e, bbrRecordExtraAcked s expectedAcked rs = s.setExcess e := by
    unfold bbrRecordExtraAcked
    simp only
    split
    · cases s.ca.extraAckedWinIdx
      · exact ⟨⟨_, _, _, _, _, _⟩, rfl⟩
      · exact ⟨⟨_, _, _, _, _, _⟩, rfl⟩
    · exact ⟨⟨_, _, _, _, _, _⟩, rfl⟩
  unfold bbrUpdateAckAggregation
  split
  · exact ⟨⟨_, _, _, _, _, _⟩, rfl⟩
  · obtain ⟨e, he⟩ := hage
    obtain ⟨e', he'⟩ := hexpect (s.setExcess e)
    obtain ⟨e'', he''⟩ := hrecord ((s.setExcess e).setExcess e') (bbrExpectAcked k (s.setExcess e) rs).2
    refine ⟨e'', ?_⟩
    rw [he]
    show bbrRecordExtraAcked (bbrExpectAcked k (s.setExcess e) rs).1 (bbrExpectAcked k (s.setExcess e) rs).2 rs = _
    rw [he', he'']
    rfl

/-- A phase of the gain cycle lasts, or the next one begins. -/
theorem bbrUpdateCyclePhase_frame (s : BbrSock M) (rs : RateSample) :
    ∃ c, bbrUpdateCyclePhase k s rs = s.setCycle c ∧ (c = s.cycle ∨
      (c = (bbrAdvanceCyclePhase s).cycle ∧ s.ca.mode = .probeBw ∧ bbrIsNextCyclePhase k s rs = true)) := by
  unfold bbrUpdateCyclePhase
  split
  · rename_i hnext
    exact ⟨⟨_, _, _⟩, rfl, .inr ⟨rfl, hnext.1, hnext.2⟩⟩
  · exact ⟨s.cycle, rfl, .inl rfl⟩

theorem bbrCheckFullBwReached_frame (s : BbrSock M) (rs : RateSample) :
    ∃ fullBw cnt reached, bbrCheckFullBwReached k s rs = { s with ca := { s.ca with
      fullBw := fullBw, fullBwCnt := cnt, fullBwReached := reached } } := by
  unfold bbrCheckFullBwReached
  split
  · exact ⟨_, _, _, rfl⟩
  · simp only
    split
    · exact ⟨_, _, _, rfl⟩
    · exact ⟨_, _, _, rfl⟩

/-- The drain may begin and end, and with its end the gain cycle begins. -/
theorem bbrCheckDrain_frame (s : BbrSock M) (rand : U32) :
    ∃ c ssthresh, bbrCheckDrain k s rand = { tp := { s.tp with sndSsthresh := ssthresh }, ca := (s.setCycle c).ca } ∧
      (c = s.cycle ∨ (c = { s.cycle with mode := .drain } ∧ s.ca.mode = .startup) ∨
        (c = (bbrResetProbeBwMode s rand).cycle ∧ (s.ca.mode = .startup ∨ s.ca.mode = .drain))) := by
  unfold bbrCheckDrain bbrEnterDrain
  by_cases hbegin : s.ca.mode = .startup ∧ s.ca.fullBwReached
  · simp only [if_pos hbegin]
    split
    · exact ⟨⟨_, _, _⟩, _, rfl, .inr (.inr ⟨rfl, .inl hbegin.1⟩)⟩
    · exact ⟨⟨_, _, _⟩, _, rfl, .inr (.inl ⟨rfl, hbegin.1⟩)⟩
  · simp only [if_neg hbegin]
    split
    · rename_i hdrain
      exact ⟨⟨_, _, _⟩, _, rfl, .inr (.inr ⟨rfl, .inr hdrain.1⟩)⟩
    · exact ⟨s.cycle, _, rfl, .inl rfl⟩

/-! ## The minimum RTT -/

theorem bbrSampleMinRtt_frame (s : BbrSock M) (rs : RateSample) (filterExpired : Bool) (now : ℕ) :
    ∃ rtt stamp, bbrSampleMinRtt s rs filterExpired now =
      { s with ca := { s.ca with minRttUs := rtt, minRttStamp := stamp } } := by
  unfold bbrSampleMinRtt
  split
  · exact ⟨_, _, rfl⟩
  · exact ⟨_, _, rfl⟩

theorem bbrEnterProbeRtt_frame (s : BbrSock M) (filterExpired : Bool) :
    ∃ mode prior stamp, bbrEnterProbeRtt s filterExpired = { s with ca := { s.ca with
      mode := mode, priorCwnd := prior, probeRttDoneStamp := stamp } } ∧
      (mode = s.ca.mode ∨ mode = .probeRtt) := by
  unfold bbrEnterProbeRtt bbrSaveCwnd
  split
  · simp only
    split
    · exact ⟨_, _, _, rfl, .inr rfl⟩
    · exact ⟨_, _, _, rfl, .inr rfl⟩
  · exact ⟨_, _, _, rfl, .inl rfl⟩

/-- Where the cycle goes back to depends on the pipe, the old cycle and the time of the last delivery. -/
theorem bbrResetMode_cycle {s s' : BbrSock M} (hca : (s.ca.fullBwReached, s.cycle) = (s'.ca.fullBwReached, s'.cycle))
    (htp : s.tp.deliveredMstamp = s'.tp.deliveredMstamp) (rand : U32) :
    (bbrResetMode s rand).cycle = (bbrResetMode s' rand).cycle := by
  obtain ⟨hfull, hcycle⟩ := Prod.mk.inj hca
  unfold bbrResetMode
  rw [hfull]
  split
  · simp only [bbrResetProbeBwMode, bbrAdvanceCyclePhase, BbrSock.cycle, htp]
  · obtain ⟨-, hidx, hmstamp⟩ := Cycle.mk.inj hcycle
    simp only [bbrResetStartupMode, BbrSock.cycle, hidx, hmstamp]

/-- `BBR_PROBE_RTT` goes on, or it ends and the controller goes back to where the pipe says. -/
theorem bbrCheckProbeRttDone_frame (s : BbrSock M) (check restart : ℕ) (rand : U32) :
    ∃ c stamp cwnd, bbrCheckProbeRttDone s check restart rand =
        { tp := { s.tp with sndCwnd := cwnd }, ca := { (s.setCycle c).ca with minRttStamp := stamp } } ∧
      ((c = s.cycle ∧ stamp = s.ca.minRttStamp) ∨
        (c = (bbrResetMode s rand).cycle ∧ stamp = tcpJiffies32 restart)) := by
  unfold bbrCheckProbeRttDone
  split
  · refine ⟨(bbrResetMode s rand).cycle, _, umax s.tp.sndCwnd s.ca.priorCwnd, ?_, .inr ⟨rfl, rfl⟩⟩
    unfold bbrResetMode
    split <;> rfl
  · exact ⟨s.cycle, _, _, rfl, .inl ⟨rfl, rfl⟩⟩

/-- The time stamp for the end of `BBR_PROBE_RTT` is set now. -/
def StampsNow (s : BbrSock M) : Prop :=
  s.ca.mode = .probeRtt ∧ s.ca.probeRttDoneStamp = 0 ∧ s.tp.packetsInFlight ≤ bbrCwndMinTarget

theorem bbrResetMode_mode (s : BbrSock M) (rand : U32) : (bbrResetMode s rand).cycle.mode ≠ .probeRtt := by
  unfold bbrResetMode
  split
  · exact BbrMode.noConfusion
  · exact BbrMode.noConfusion

/-- The work on `BBR_PROBE_RTT`: a stamp for its end is set, which ends the round early; or a round is noted, and the
mode may end. -/
theorem bbrInProbeRtt_frame (s : BbrSock M) (clk : Clock) (rand : U32) :
    ∃ c cwnd limited rttStamp doneStamp roundDone next, bbrInProbeRtt k s clk rand =
        { tp := { s.tp with sndCwnd := cwnd, appLimited := limited }
          ca := { (s.setCycle c).ca with
            minRttStamp := rttStamp
            probeRttDoneStamp := doneStamp
            probeRttRoundDone := roundDone
            nextRttDelivered := next } } ∧
      ((c = s.cycle ∧ rttStamp = s.ca.minRttStamp ∧ next = s.tp.delivered ∧ StampsNow s) ∨
        (c = s.cycle ∧ rttStamp = s.ca.minRttStamp ∧ next = s.ca.nextRttDelivered ∧ ¬ StampsNow s) ∨
        (c = (bbrResetMode s rand).cycle ∧ rttStamp = tcpJiffies32 clk.restart ∧ next = s.ca.nextRttDelivered ∧
          s.ca.mode = .probeRtt ∧ s.ca.probeRttDoneStamp ≠ 0)) := by
  unfold bbrInProbeRtt bbrHoldProbeRtt
  split
  · rename_i hmode
    split
    · rename_i hsmall
      exact ⟨s.cycle, _, _, s.ca.minRttStamp, _, _, _, rfl, .inl ⟨rfl, rfl, rfl, hmode, hsmall.1, hsmall.2⟩⟩
    · rename_i hlarge
      have hnot : ¬ StampsNow s := fun h => hlarge h.2
      split
      · rename_i hstamped
        obtain ⟨done, hnote⟩ : ∃ done, bbrNoteRound (bbrMarkAppLimited s) =
            { bbrMarkAppLimited s with ca := { s.ca with probeRttRoundDone := done } } := by
          unfold bbrNoteRound
          split
          · exact ⟨true, rfl⟩
          · exact ⟨s.ca.probeRttRoundDone, rfl⟩
        simp only [hnote]
        split
        · obtain ⟨c, stamp, cwnd, hdone, hc⟩ := bbrCheckProbeRttDone_frame
            { bbrMarkAppLimited s with ca := { s.ca with probeRttRoundDone := done } } clk.check clk.restart rand
          refine ⟨c, cwnd, _, stamp, _, done, _, hdone, ?_⟩
          rcases hc with ⟨hc, hstamp⟩ | ⟨hc, hstamp⟩
          · exact .inr (.inl ⟨hc, hstamp, rfl, hnot⟩)
          · refine .inr (.inr ⟨hc.trans ?_, hstamp, rfl, hmode, hstamped⟩)
            apply bbrResetMode_cycle
            · rfl
            · rfl
        · exact ⟨s.cycle, _, _, s.ca.minRttStamp, _, done, _, rfl, .inr (.inl ⟨rfl, rfl, rfl, hnot⟩)⟩
      · exact ⟨s.cycle, _, _, s.ca.minRttStamp, _, _, _, rfl, .inr (.inl ⟨rfl, rfl, rfl, hnot⟩)⟩
  · rename_i hmode
    exact ⟨s.cycle, _, _, s.ca.minRttStamp, _, _, _, rfl, .inr (.inl ⟨rfl, rfl, rfl, fun h => hmode h.1⟩)⟩

/-! ## Gains, pacing, the window -/

theorem bbrSetPacingRate_frame (s : BbrSock M) (bw : U32) (gain : U64) :
    ∃ rate seen, bbrSetPacingRate s bw gain =
      { tp := { s.tp with skPacingRate := rate }, ca := { s.ca with hasSeenRtt := seen } } := by
  have hinit : ∃ rate seen, (if s.ca.hasSeenRtt = false ∧ s.tp.srttUs ≠ 0 then bbrInitPacingRateFromRtt s else s) =
      { tp := { s.tp with skPacingRate := rate }, ca := { s.ca with hasSeenRtt := seen } } := by
    split
    · exact ⟨_, _, rfl⟩
    · exact ⟨_, _, rfl⟩
  obtain ⟨rate, seen, hs⟩ := hinit
  unfold bbrSetPacingRate
  simp only [hs]
  split
  · exact ⟨_, seen, rfl⟩
  · exact ⟨rate, seen, rfl⟩

/-- An ACK for `acked` packets enters recovery. -/
def Recovers (s : BbrSock M) (acked : U32) : Prop :=
  acked ≠ 0 ∧ s.tp.icskCaState = tcpCaRecovery ∧ s.ca.prevCaState.setWidth 8 ≠ tcpCaRecovery

/-- Entering recovery ends the round early. -/
theorem bbrSetCwnd_frame (s : BbrSock M) (rs : RateSample) (acked bw : U32) (gain : U64) :
    ∃ cwnd conservation next prev, bbrSetCwnd k s rs acked bw gain =
        { tp := { s.tp with sndCwnd := cwnd }
          ca := { s.ca with packetConservation := conservation, nextRttDelivered := next, prevCaState := prev } } ∧
      ((next = s.tp.delivered ∧ Recovers s acked) ∨ (next = s.ca.nextRttDelivered ∧ ¬ Recovers s acked)) := by
  unfold bbrSetCwnd
  split
  · rename_i hacked
    exact ⟨_, _, _, _, rfl, .inr ⟨rfl, fun h => h.1 hacked⟩⟩
  · rename_i hacked
    obtain ⟨conservation, next, hrecover, hnext⟩ : ∃ conservation next, (bbrRecoverOrRestore s rs acked).1 =
        { s.ca with packetConservation := conservation, nextRttDelivered := next } ∧
        ((next = s.tp.delivered ∧ Recovers s acked) ∨ (next = s.ca.nextRttDelivered ∧ ¬ Recovers s acked)) := by
      unfold bbrRecoverOrRestore
      simp only
      split
      · rename_i hrecovery
        exact ⟨_, _, rfl, .inl ⟨rfl, hacked, hrecovery⟩⟩
      · rename_i hrecovery
        split
        · exact ⟨_, _, rfl, .inr ⟨rfl, fun h => hrecovery h.2⟩⟩
        · exact ⟨_, _, rfl, .inr ⟨rfl, fun h => hrecovery h.2⟩⟩
    have hset : (bbrSetCwndToRecoverOrRestore s rs acked).1 = { s with ca := { s.ca with
        packetConservation := conservation
        nextRttDelivered := next
        prevCaState := s.tp.icskCaState.setWidth 3 } } := by
      unfold bbrSetCwndToRecoverOrRestore
      simp only [hrecover]
      split <;> rfl
    split
    all_goals
      rename_i s₁ cwnd heq
      rw [heq] at hset
      dsimp only at hset
      rw [hset]
      exact ⟨_, conservation, next, _, rfl, hnext⟩

/-- The end of an ACK sets the gains of the state it finds. -/
theorem bbrAfterProbeRtt_frame (s : BbrSock M) (rs : RateSample) :
    ∃ rate cwnd idle seen conservation next prev, bbrAfterProbeRtt k s rs =
      { tp := { s.tp with skPacingRate := rate, sndCwnd := cwnd }
        ca := { s.ca with
          idleRestart := idle
          pacingGain := (bbrGains s.ca).1.setWidth 10
          cwndGain := (bbrGains s.ca).2.setWidth 10
          hasSeenRtt := seen
          packetConservation := conservation
          nextRttDelivered := next
          prevCaState := prev } } := by
  obtain ⟨idle, hidle⟩ : ∃ idle, bbrEndIdleRestart s rs = { s with ca := { s.ca with idleRestart := idle } } := by
    unfold bbrEndIdleRestart
    split
    · exact ⟨false, rfl⟩
    · exact ⟨s.ca.idleRestart, rfl⟩
  unfold bbrAfterProbeRtt
  simp only [hidle]
  generalize hs₁ : bbrUpdateGains _ = s₁
  obtain ⟨rate, seen, hpacing⟩ := bbrSetPacingRate_frame s₁ (bbrBw k s₁) (s₁.ca.pacingGain.setWidth 64)
  simp only [hpacing]
  generalize hs₂ : BbrSock.mk _ _ = s₂
  obtain ⟨cwnd, conservation, next, prev, hset, -⟩ := bbrSetCwnd_frame (k := k) s₂ rs rs.ackedSacked (bbrBw k s₁)
    (s₁.ca.cwndGain.setWidth 64)
  rw [hset, ← hs₂, ← hs₁]
  exact ⟨rate, cwnd, idle, seen, conservation, next, prev, rfl⟩

/-! ## Parts of an ACK -/

/-- The bandwidth: the round, long-term sampling with the gain cycle, and the filter. A new round ends the conservation
of packets. -/
theorem bbrUpdateBw_frame (s : BbrSock M) (rs : RateSample) (rand : U32) :
    ∃ next cnt start l c bw, bbrUpdateBw k s rs rand =
      { s with ca := { ((s.setLongTerm l).setCycle c).ca with
        nextRttDelivered := next
        rttCnt := cnt
        roundStart := start
        packetConservation := s.ca.packetConservation && !start
        bw := bw } } := by
  obtain ⟨next, cnt, start, hround⟩ : ∃ next cnt start,
      bbrUpdateRound { s with ca := { s.ca with roundStart := false } } rs = { s with ca := { s.ca with
        nextRttDelivered := next
        rttCnt := cnt
        roundStart := start
        packetConservation := s.ca.packetConservation && !start } } := by
    unfold bbrUpdateRound
    split
    · exact ⟨s.ca.nextRttDelivered, s.ca.rttCnt, false, by rw [Bool.not_false, Bool.and_true]⟩
    · exact ⟨s.tp.delivered, s.ca.rttCnt + 1, true, by rw [Bool.not_true, Bool.and_false]⟩
  unfold bbrUpdateBw
  simp only
  split
  · refine ⟨s.ca.nextRttDelivered, s.ca.rttCnt, false, s.longTerm, s.cycle, s.ca.bw, ?_⟩
    rw [Bool.not_false, Bool.and_true]
    rfl
  · rw [hround]
    generalize hs₁ : BbrSock.mk _ _ = s₁
    obtain ⟨l, c, hsampling, -⟩ := bbrLtBwSampling_frame (k := k) s₁ rs rand
    obtain ⟨bw, hfilter⟩ := bbrFilterBw_frame (k := k) ((s₁.setLongTerm l).setCycle c) rs
    rw [hsampling, hfilter, ← hs₁]
    exact ⟨next, cnt, start, l, c, bw, rfl⟩

/-- An ACK from the bandwidth on up to `BBR_PROBE_RTT`. -/
theorem bbrAtProbeRtt_frame (s : BbrSock M) (rs : RateSample) (clk : Clock) (rands : Rands) :
    ∃ e c fullBw cnt reached ssthresh rtt stamp prior done, bbrAtProbeRtt k s rs clk rands =
      { tp := { (bbrUpdateBw k s rs rands.sampling).tp with sndSsthresh := ssthresh }
        ca := { (((bbrUpdateBw k s rs rands.sampling).setExcess e).setCycle c).ca with
          fullBw := fullBw
          fullBwCnt := cnt
          fullBwReached := reached
          minRttUs := rtt
          minRttStamp := stamp
          priorCwnd := prior
          probeRttDoneStamp := done } } := by
  unfold bbrAtProbeRtt
  generalize bbrUpdateBw k s rs rands.sampling = s₁
  obtain ⟨e, haggregation⟩ := bbrUpdateAckAggregation_frame (k := k) s₁ rs
  obtain ⟨c, hcycle, -⟩ := bbrUpdateCyclePhase_frame (k := k) (s₁.setExcess e) rs
  obtain ⟨fullBw, cnt, reached, hfull⟩ := bbrCheckFullBwReached_frame (k := k) ((s₁.setExcess e).setCycle c) rs
  simp only [haggregation, hcycle, hfull]
  generalize hs₂ : BbrSock.mk _ _ = s₂
  obtain ⟨c', ssthresh, hdrain, -⟩ := bbrCheckDrain_frame (k := k) s₂ rands.drain
  rw [hdrain]
  generalize hs₃ : BbrSock.mk _ _ = s₃
  obtain ⟨rtt, stamp, hsample⟩ := bbrSampleMinRtt_frame s₃ rs (bbrFilterExpired k s₃ clk.expired) clk.sample
  rw [hsample]
  generalize hs₄ : BbrSock.mk _ _ = s₄
  obtain ⟨mode, prior, done, henter, -⟩ := bbrEnterProbeRtt_frame s₄ (bbrFilterExpired k s₃ clk.expired)
  rw [henter, ← hs₄, ← hs₃, ← hs₂]
  exact ⟨e, { c' with mode := mode }, fullBw, cnt, reached, ssthresh, rtt, stamp, prior, done, rfl⟩

end Frame

end CoupledCC.Bbr
