import CoupledCC.Bbr.Phase

/-!
# The gauges of BBR

Two parts of the state of BBR are each written by one function of `bbr_main`: those that decide whether the pipe is
full, by `bbr_check_full_bw_reached`, and the slots of the excess of ACKed packets, by `bbr_update_ack_aggregation`. The
rest of `bbr_main` leaves both alone (`bbrMain_pipe`, `bbrMain_aggregation`); of the other callbacks `bbr_undo_cwnd`, a
timeout and a restart from idle reset some of them (`Callback.gauges_cases`).
-/

namespace CoupledCC.Bbr

open Word

/-- What `bbr_check_full_bw_reached` has seen. -/
structure Pipe where
  fullBw : U32
  fullBwCnt : BitVec 2
  fullBwReached : Bool
deriving Repr, DecidableEq

/-- What `bbr_update_ack_aggregation` has seen, but for the start of its epoch. -/
structure Aggregation where
  ackEpochAcked : BitVec 20
  extraAcked0 : U16
  extraAcked1 : U16
  extraAckedWinRtts : BitVec 5
  extraAckedWinIdx : Bool
deriving Repr, DecidableEq

section Frame

variable {M : Type} {k : Kernel M}

def BbrSock.pipe (s : BbrSock M) : Pipe :=
  ⟨s.ca.fullBw, s.ca.fullBwCnt, s.ca.fullBwReached⟩

def BbrSock.aggregation (s : BbrSock M) : Aggregation :=
  ⟨s.ca.ackEpochAcked, s.ca.extraAcked0, s.ca.extraAcked1, s.ca.extraAckedWinRtts, s.ca.extraAckedWinIdx⟩

def BbrSock.gauges (s : BbrSock M) : Pipe × Aggregation :=
  (s.pipe, s.aggregation)

theorem pipe_of_gauges {s s' : BbrSock M} (h : s'.gauges = s.gauges) : s'.pipe = s.pipe :=
  congrArg Prod.fst h

theorem aggregation_of_gauges {s s' : BbrSock M} (h : s'.gauges = s.gauges) : s'.aggregation = s.aggregation :=
  congrArg Prod.snd h

/-! ## The functions that read them at most -/

@[simp] theorem bbrResetProbeBwMode_gauges (s : BbrSock M) (rand : U32) :
    (bbrResetProbeBwMode s rand).gauges = s.gauges := rfl

@[simp] theorem bbrResetLtBwSampling_gauges (s : BbrSock M) : (bbrResetLtBwSampling s).gauges = s.gauges := rfl

@[simp] theorem bbrCountLtRtt_gauges (s : BbrSock M) : (bbrCountLtRtt s).gauges = s.gauges := rfl

@[simp] theorem bbrResetMode_gauges (s : BbrSock M) (rand : U32) : (bbrResetMode s rand).gauges = s.gauges := by
  unfold bbrResetMode
  split <;> rfl

@[simp] theorem bbrUpdateCyclePhase_gauges (s : BbrSock M) (rs : RateSample) :
    (bbrUpdateCyclePhase k s rs).gauges = s.gauges := by
  unfold bbrUpdateCyclePhase
  split <;> rfl

theorem bbrLtBwMeasure_gauges (s : BbrSock M) : (bbrLtBwMeasure k s).gauges = s.gauges := by
  have hdone (bw : U32) : (bbrLtBwIntervalDone k s bw).gauges = s.gauges := by
    unfold bbrLtBwIntervalDone
    simp only
    split <;> rfl
  unfold bbrLtBwMeasure
  simp only
  split
  · rfl
  · split
    · rfl
    · split
      · rfl
      · exact hdone _

theorem bbrLtBwSample_gauges (s : BbrSock M) (rs : RateSample) : (bbrLtBwSample k s rs).gauges = s.gauges := by
  have hround : (if s.ca.roundStart then bbrCountLtRtt s else s).gauges = s.gauges := by split <;> rfl
  unfold bbrLtBwSample
  split
  · rfl
  · simp only
    rw [← hround]
    generalize (if s.ca.roundStart then bbrCountLtRtt s else s) = s₁
    split
    · rfl
    · split
      · rfl
      · split
        · rfl
        · exact bbrLtBwMeasure_gauges s₁

@[simp] theorem bbrLtBwSampling_gauges (s : BbrSock M) (rs : RateSample) (rand : U32) :
    (bbrLtBwSampling k s rs rand).gauges = s.gauges := by
  unfold bbrLtBwSampling
  split
  · unfold bbrLtBwInUse
    split
    · simp only
      split
      · rw [bbrResetProbeBwMode_gauges, bbrResetLtBwSampling_gauges, bbrCountLtRtt_gauges]
      · exact bbrCountLtRtt_gauges s
    · rfl
  · split
    · exact bbrLtBwSample_gauges s rs
    · split
      · rfl
      · exact bbrLtBwSample_gauges _ rs

@[simp] theorem bbrUpdateBw_gauges (s : BbrSock M) (rs : RateSample) (rand : U32) :
    (bbrUpdateBw k s rs rand).gauges = s.gauges := by
  have hfilter (s : BbrSock M) : (bbrFilterBw k s rs).gauges = s.gauges := by
    unfold bbrFilterBw
    simp only
    split <;> rfl
  unfold bbrUpdateBw
  simp only
  split
  · rfl
  · rw [hfilter, bbrLtBwSampling_gauges]
    unfold bbrUpdateRound
    split <;> rfl

theorem mode_gauges (s : BbrSock M) (tp : BbrTcp) (mode : BbrMode) :
    (BbrSock.mk tp { s.ca with mode := mode }).gauges = s.gauges := rfl

@[simp] theorem bbrCheckDrain_gauges (s : BbrSock M) (rand : U32) : (bbrCheckDrain k s rand).gauges = s.gauges := by
  have henter : (bbrEnterDrain k s).gauges = s.gauges := by
    unfold bbrEnterDrain
    split
    · exact mode_gauges s _ _
    · rfl
  rw [← henter]
  unfold bbrCheckDrain
  simp only
  split
  · exact bbrResetProbeBwMode_gauges _ rand
  · rfl

@[simp] theorem bbrCheckProbeRttDone_gauges (s : BbrSock M) (check restart : ℕ) (rand : U32) :
    (bbrCheckProbeRttDone s check restart rand).gauges = s.gauges := by
  unfold bbrCheckProbeRttDone
  split
  · exact bbrResetMode_gauges _ rand
  · rfl

@[simp] theorem bbrSaveCwnd_gauges (s : BbrSock M) : (bbrSaveCwnd s).gauges = s.gauges := by
  unfold bbrSaveCwnd
  split <;> rfl

@[simp] theorem bbrUpdateMinRtt_gauges (s : BbrSock M) (rs : RateSample) (clk : Clock) (rand : U32) :
    (bbrUpdateMinRtt k s rs clk rand).gauges = s.gauges := by
  have hsample (s : BbrSock M) (filterExpired : Bool) :
      (bbrSampleMinRtt s rs filterExpired clk.sample).gauges = s.gauges := by
    unfold bbrSampleMinRtt
    split <;> rfl
  have henter (s : BbrSock M) (filterExpired : Bool) : (bbrEnterProbeRtt s filterExpired).gauges = s.gauges := by
    unfold bbrEnterProbeRtt
    split
    · have hsave := bbrSaveCwnd_gauges { s with ca := { s.ca with mode := .probeRtt } }
      exact hsave
    · rfl
  have hnote (s : BbrSock M) : (bbrNoteRound s).gauges = s.gauges := by
    unfold bbrNoteRound
    split <;> rfl
  have hhold (s : BbrSock M) : (bbrHoldProbeRtt k s clk rand).gauges = s.gauges := by
    unfold bbrHoldProbeRtt
    split
    · rfl
    · split
      · simp only
        split
        · rw [bbrCheckProbeRttDone_gauges, hnote]
        · exact hnote s
      · rfl
  have hprobe (s : BbrSock M) : (bbrInProbeRtt k s clk rand).gauges = s.gauges := by
    unfold bbrInProbeRtt
    split
    · exact hhold (bbrMarkAppLimited s)
    · rfl
  have hidle (s : BbrSock M) : (bbrEndIdleRestart s rs).gauges = s.gauges := by
    unfold bbrEndIdleRestart
    split <;> rfl
  unfold bbrUpdateMinRtt
  simp only
  rw [hidle, hprobe, henter, hsample]

@[simp] theorem bbrUpdateGains_gauges (s : BbrSock M) : (bbrUpdateGains s).gauges = s.gauges := rfl

theorem pacing_gauges (s : BbrSock M) (rate : U64) (seen : Bool) :
    (BbrSock.mk { s.tp with skPacingRate := rate } { s.ca with hasSeenRtt := seen }).gauges = s.gauges := rfl

@[simp] theorem bbrInitPacingRateFromRtt_gauges (s : BbrSock M) : (bbrInitPacingRateFromRtt s).gauges = s.gauges :=
  pacing_gauges s _ _

@[simp] theorem bbrSetPacingRate_gauges (s : BbrSock M) (bw : U32) (gain : U64) :
    (bbrSetPacingRate s bw gain).gauges = s.gauges := by
  have hrate (s : BbrSock M) (p : Prop) [Decidable p] (rate : U64) :
      (if p then { s with tp := { s.tp with skPacingRate := rate } } else s).gauges = s.gauges := by split <;> rfl
  unfold bbrSetPacingRate
  simp only
  rw [hrate]
  split
  · exact bbrInitPacingRateFromRtt_gauges s
  · rfl

@[simp] theorem bbrSetCwnd_gauges (s : BbrSock M) (rs : RateSample) (acked bw : U32) (gain : U64) :
    (bbrSetCwnd k s rs acked bw gain).gauges = s.gauges := by
  have hset : (bbrSetCwndToRecoverOrRestore s rs acked).1.gauges = s.gauges := by
    have hframe : (BbrSock.mk s.tp (bbrRecoverOrRestore s rs acked).1).gauges = s.gauges := by
      unfold bbrRecoverOrRestore
      simp only
      split
      · rfl
      · split <;> rfl
    rw [← hframe]
    unfold bbrSetCwndToRecoverOrRestore
    simp only
    split <;> rfl
  unfold bbrSetCwnd
  split
  · rfl
  · split
    all_goals
      rename_i heq
      rw [heq] at hset
      exact hset

/-! ## The two functions that write them -/

theorem setExtraAcked_pipe (tp : BbrTcp) (ca : Bbr M) (idx : Bool) (extra : U16) :
    (BbrSock.mk tp (ca.setExtraAcked idx extra)).pipe = (BbrSock.mk tp ca).pipe := by
  cases idx <;> rfl

@[simp] theorem bbrUpdateAckAggregation_pipe (s : BbrSock M) (rs : RateSample) :
    (bbrUpdateAckAggregation k s rs).pipe = s.pipe := by
  have hage : (bbrAgeExtraAcked s).pipe = s.pipe := by
    unfold bbrAgeExtraAcked
    split
    · simp only
      split
      · exact setExtraAcked_pipe _ _ _ _
      · rfl
    · rfl
  have hexpect (s : BbrSock M) : (bbrExpectAcked k s rs).1.pipe = s.pipe := by
    unfold bbrExpectAcked
    simp only
    split <;> rfl
  have hrecord (s : BbrSock M) (expectedAcked : U32) : (bbrRecordExtraAcked s expectedAcked rs).pipe = s.pipe := by
    unfold bbrRecordExtraAcked
    simp only
    split
    · exact setExtraAcked_pipe _ _ _ _
    · rfl
  unfold bbrUpdateAckAggregation
  split
  · rfl
  · show (bbrRecordExtraAcked (bbrExpectAcked k (bbrAgeExtraAcked s) rs).1 _ rs).pipe = s.pipe
    rw [hrecord, hexpect, hage]

@[simp] theorem bbrCheckFullBwReached_aggregation (s : BbrSock M) (rs : RateSample) :
    (bbrCheckFullBwReached k s rs).aggregation = s.aggregation := by
  unfold bbrCheckFullBwReached
  split
  · rfl
  · simp only
    split <;> rfl

/-! ## The callbacks -/

/-- The state in which an ACK comes to `bbr_check_full_bw_reached`. -/
def bbrAtFullBw (k : Kernel M) (s : BbrSock M) (rs : RateSample) (rand : U32) : BbrSock M :=
  bbrUpdateCyclePhase k (bbrUpdateAckAggregation k (bbrUpdateBw k s rs rand) rs) rs

theorem bbrAtFullBw_pipe (s : BbrSock M) (rs : RateSample) (rand : U32) : (bbrAtFullBw k s rs rand).pipe = s.pipe := by
  unfold bbrAtFullBw
  rw [pipe_of_gauges (bbrUpdateCyclePhase_gauges _ rs), bbrUpdateAckAggregation_pipe,
    pipe_of_gauges (bbrUpdateBw_gauges s rs rand)]

/-- `bbr_main` after `bbr_check_full_bw_reached` leaves the gauges alone. -/
theorem bbrMain_gauges (s : BbrSock M) (rs : RateSample) (clk : Clock) (rands : Rands) :
    (bbrMain k s rs clk rands).gauges = (bbrCheckFullBwReached k (bbrAtFullBw k s rs rands.sampling) rs).gauges := by
  unfold bbrMain bbrUpdateModel bbrAtFullBw
  simp only [bbrSetCwnd_gauges, bbrSetPacingRate_gauges, bbrUpdateGains_gauges, bbrUpdateMinRtt_gauges,
    bbrCheckDrain_gauges]

theorem bbrMain_pipe (s : BbrSock M) (rs : RateSample) (clk : Clock) (rands : Rands) :
    (bbrMain k s rs clk rands).pipe = (bbrCheckFullBwReached k (bbrAtFullBw k s rs rands.sampling) rs).pipe :=
  pipe_of_gauges (bbrMain_gauges s rs clk rands)

theorem bbrMain_aggregation (s : BbrSock M) (rs : RateSample) (clk : Clock) (rands : Rands) :
    (bbrMain k s rs clk rands).aggregation =
      (bbrUpdateAckAggregation k (bbrUpdateBw k s rs rands.sampling) rs).aggregation := by
  rw [aggregation_of_gauges (bbrMain_gauges s rs clk rands), bbrCheckFullBwReached_aggregation]
  exact aggregation_of_gauges (bbrUpdateCyclePhase_gauges _ rs)

/-- The callbacks other than `bbr_main`. -/
theorem bbrCwndEvent_gauges (s : BbrSock M) (event : CaEvent) (check restart : ℕ) (rand : U32) :
    (bbrCwndEvent k s event check restart rand).gauges = s.gauges ∨
      (bbrCwndEvent k s event check restart rand).gauges = (s.pipe, { s.aggregation with ackEpochAcked := 0 }) := by
  unfold bbrCwndEvent
  split
  · right
    simp only
    split
    · exact bbrSetPacingRate_gauges _ _ _
    · split
      · exact bbrCheckProbeRttDone_gauges _ check restart rand
      · rfl
  · left
    rfl

theorem bbrSetState_gauges (s : BbrSock M) (newState : U8) (rand : U32) :
    (bbrSetState k s newState rand).gauges =
      if newState = tcpCaLoss then ({ s.pipe with fullBw := 0 }, s.aggregation) else s.gauges := by
  unfold bbrSetState
  split
  · exact bbrLtBwSampling_gauges _ _ _
  · rfl

end Frame

end CoupledCC.Bbr
