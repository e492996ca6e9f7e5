import CoupledCC.Bbr.Callbacks

/-!
# The mode machine of BBR

Of the many values BBR keeps, few decide its modes and its window (`Phase`). On them an ACK is a short sequence of
steps: a round may start, the pipe may turn out full, the drain may begin and end (`Drains`), `BBR_PROBE_RTT` may be
entered (`Phase.enter`) and worked on (`Probes`), and last the window is set. Everything else `bbr_main` computes only
chooses between these steps.

- `bbrMain_phase`: a call of `bbr_main` refines such a sequence;
- `bbrCwndEvent_phase`, `bbrSetState_phase`, …: the other callbacks;
- `acts_cases`: what an action can do about the modes.
-/

namespace CoupledCC.Bbr

open Word

/-! ## The machine -/

/-- The part of the state the modes and the window depend on. -/
structure Phase where
  mode : BbrMode
  fullBwReached : Bool
  roundStart : Bool
  probeRttDoneStamp : U32
  probeRttRoundDone : Bool
  priorCwnd : U32
  prevCaState : BitVec 3
  sndCwnd : U32
  sndCwndClamp : U32
  icskCaState : U8
  packetsInFlight : U32
deriving Repr, DecidableEq

namespace Phase

/-- The mode `bbr_reset_mode` goes to. -/
def home (p : Phase) : BbrMode :=
  if p.fullBwReached then .probeBw else .startup

/-- `BBR_PROBE_RTT` begins: the mode is set first, so that the saved window never gets smaller. -/
def enter (p : Phase) : Phase :=
  { p with mode := .probeRtt, priorCwnd := umax p.priorCwnd p.sndCwnd, probeRttDoneStamp := 0 }

/-- `BBR_PROBE_RTT` ends. -/
def leave (p : Phase) : Phase :=
  { p with sndCwnd := umax p.sndCwnd p.priorCwnd, mode := p.home }

end Phase

/-- The modes before and after `bbr_check_drain`. -/
inductive Drains (full : Bool) : BbrMode → BbrMode → Prop
  | keep {m : BbrMode} : (m = .startup → full = false) → Drains full m m
  | begin : full = true → Drains full .startup .drain
  | done {m : BbrMode} : m = .drain ∨ (m = .startup ∧ full = true) → Drains full m .probeBw

/-- The end of `BBR_PROBE_RTT` is due. -/
def Phase.Due (p : Phase) (check : ℕ) : Prop :=
  p.probeRttDoneStamp ≠ 0 ∧ after (tcpJiffies32 check) p.probeRttDoneStamp

/-- What an ACK does about `BBR_PROBE_RTT`, once it may have been entered: the packets in flight have to fall to 4, and
then `dwell` jiffies and the start of a round to pass. -/
inductive Probes (dwell : U32) (clk : Clock) : Phase → Phase → Prop
  | outside {p : Phase} : p.mode ≠ .probeRtt → Probes dwell clk p p
  | wait {p : Phase} : p.mode = .probeRtt → p.probeRttDoneStamp = 0 → Probes dwell clk p p
  | stamp {p : Phase} : p.mode = .probeRtt → p.packetsInFlight ≤ bbrCwndMinTarget →
      Probes dwell clk p
        { p with probeRttDoneStamp := tcpJiffies32 clk.stamp + dwell, probeRttRoundDone := false }
  | hold {p : Phase} : p.mode = .probeRtt → p.probeRttDoneStamp ≠ 0 →
      Probes dwell clk p { p with probeRttRoundDone := p.probeRttRoundDone || p.roundStart }
  | leave {p : Phase} : p.mode = .probeRtt → p.Due clk.check → (p.probeRttRoundDone || p.roundStart) = true →
      Probes dwell clk p { p with probeRttRoundDone := true }.leave

theorem Phase.home_ne (p : Phase) : p.home ≠ .probeRtt := by
  unfold Phase.home
  split <;> simp

/-- The drain has nothing to do with `BBR_PROBE_RTT`. -/
theorem Drains.probeRtt_iff {full : Bool} {m m' : BbrMode} (h : Drains full m m') : m' = .probeRtt ↔ m = .probeRtt := by
  cases h with
  | keep => rfl
  | begin => simp
  | done hm =>
    rcases hm with rfl | ⟨rfl, -⟩
    · simp
    · simp

/-! ## What the functions change of it -/

section Refinement

variable {M : Type} {k : Kernel M}

/-- The phase of a state. -/
def BbrSock.phase (s : BbrSock M) : Phase :=
  ⟨s.ca.mode, s.ca.fullBwReached, s.ca.roundStart, s.ca.probeRttDoneStamp, s.ca.probeRttRoundDone, s.ca.priorCwnd,
    s.ca.prevCaState, s.tp.sndCwnd, s.tp.sndCwndClamp, s.tp.icskCaState, s.tp.packetsInFlight⟩

theorem phase_mode (s : BbrSock M) : s.phase.mode = s.ca.mode := rfl

/-! ### Pacing and modes -/

theorem pacing_phase (s : BbrSock M) (rate : U64) (seen : Bool) :
    (BbrSock.mk { s.tp with skPacingRate := rate } { s.ca with hasSeenRtt := seen }).phase = s.phase := rfl

@[simp] theorem bbrInitPacingRateFromRtt_phase (s : BbrSock M) : (bbrInitPacingRateFromRtt s).phase = s.phase :=
  pacing_phase s _ _

@[simp] theorem bbrSetPacingRate_phase (s : BbrSock M) (bw : U32) (gain : U64) :
    (bbrSetPacingRate s bw gain).phase = s.phase := by
  have hrate (s : BbrSock M) (p : Prop) [Decidable p] (rate : U64) :
      (if p then { s with tp := { s.tp with skPacingRate := rate } } else s).phase = s.phase := by split <;> rfl
  unfold bbrSetPacingRate
  simp only
  rw [hrate]
  split
  · exact bbrInitPacingRateFromRtt_phase s
  · rfl

@[simp] theorem bbrResetProbeBwMode_phase (s : BbrSock M) (rand : U32) :
    (bbrResetProbeBwMode s rand).phase = { s.phase with mode := .probeBw } := rfl

@[simp] theorem bbrResetMode_phase (s : BbrSock M) (rand : U32) :
    (bbrResetMode s rand).phase = { s.phase with mode := s.phase.home } := by
  have hfull : s.phase.fullBwReached = s.ca.fullBwReached := rfl
  unfold bbrResetMode Phase.home
  rw [hfull]
  split <;> rfl

@[simp] theorem bbrUpdateCyclePhase_phase (s : BbrSock M) (rs : RateSample) :
    (bbrUpdateCyclePhase k s rs).phase = s.phase := by
  unfold bbrUpdateCyclePhase
  split <;> rfl

/-! ### Long-term sampling -/

@[simp] theorem bbrResetLtBwSampling_phase (s : BbrSock M) : (bbrResetLtBwSampling s).phase = s.phase := rfl

theorem bbrLtBwMeasure_phase (s : BbrSock M) : (bbrLtBwMeasure k s).phase = s.phase := by
  have hdone (bw : U32) : (bbrLtBwIntervalDone k s bw).phase = s.phase := by
    unfold bbrLtBwIntervalDone
    simp only
    split <;> rfl
  unfold bbrLtBwMeasure
  simp only
  split
  · rfl
  · split
    · rfl
    · split
      · rfl
      · exact hdone _

theorem bbrLtBwSample_phase (s : BbrSock M) (rs : RateSample) : (bbrLtBwSample k s rs).phase = s.phase := by
  have hround : (if s.ca.roundStart then bbrCountLtRtt s else s).phase = s.phase := by split <;> rfl
  unfold bbrLtBwSample
  split
  · rfl
  · simp only
    rw [← hround]
    generalize (if s.ca.roundStart then bbrCountLtRtt s else s) = s₁
    split
    · rfl
    · split
      · rfl
      · split
        · rfl
        · exact bbrLtBwMeasure_phase s₁

/-- The gain cycle is restarted only in `BBR_PROBE_BW`. -/
theorem bbrLtBwInUse_phase (s : BbrSock M) (rand : U32) : (bbrLtBwInUse s rand).phase = s.phase := by
  unfold bbrLtBwInUse
  split
  · rename_i hmode
    simp only
    split
    · show { s.phase with mode := .probeBw } = s.phase
      rw [← hmode.1]
      rfl
    · rfl
  · rfl

@[simp] theorem bbrLtBwSampling_phase (s : BbrSock M) (rs : RateSample) (rand : U32) :
    (bbrLtBwSampling k s rs rand).phase = s.phase := by
  unfold bbrLtBwSampling
  split
  · exact bbrLtBwInUse_phase s rand
  · split
    · exact bbrLtBwSample_phase s rs
    · split
      · rfl
      · exact bbrLtBwSample_phase _ rs

/-! ### Bandwidth, aggregation, a full pipe -/

theorem bbrUpdateBw_phase (s : BbrSock M) (rs : RateSample) (rand : U32) :
    ∃ round, (bbrUpdateBw k s rs rand).phase = { s.phase with roundStart := round } := by
  have hfilter (s : BbrSock M) : (bbrFilterBw k s rs).phase = s.phase := by
    unfold bbrFilterBw
    simp only
    split <;> rfl
  unfold bbrUpdateBw
  simp only
  split
  · exact ⟨false, rfl⟩
  · rw [hfilter, bbrLtBwSampling_phase]
    unfold bbrUpdateRound
    split
    · exact ⟨false, rfl⟩
    · exact ⟨true, rfl⟩

theorem setExtraAcked_phase (tp : BbrTcp) (ca : Bbr M) (idx : Bool) (extra : U16) :
    (BbrSock.mk tp (ca.setExtraAcked idx extra)).phase = (BbrSock.mk tp ca).phase := by
  cases idx <;> rfl

@[simp] theorem bbrUpdateAckAggregation_phase (s : BbrSock M) (rs : RateSample) :
    (bbrUpdateAckAggregation k s rs).phase = s.phase := by
  have hage : (bbrAgeExtraAcked s).phase = s.phase := by
    unfold bbrAgeExtraAcked
    split
    · simp only
      split
      · exact setExtraAcked_phase _ _ _ _
      · rfl
    · rfl
  have hexpect (s : BbrSock M) : (bbrExpectAcked k s rs).1.phase = s.phase := by
    unfold bbrExpectAcked
    simp only
    split <;> rfl
  have hrecord (s : BbrSock M) (expectedAcked : U32) : (bbrRecordExtraAcked s expectedAcked rs).phase = s.phase := by
    unfold bbrRecordExtraAcked
    simp only
    split
    · exact setExtraAcked_phase _ _ _ _
    · rfl
  unfold bbrUpdateAckAggregation
  split
  · rfl
  · show (bbrRecordExtraAcked (bbrExpectAcked k (bbrAgeExtraAcked s) rs).1 _ rs).phase = s.phase
    rw [hrecord, hexpect, hage]

/-- A pipe that was full stays full. -/
theorem bbrCheckFullBwReached_phase (s : BbrSock M) (rs : RateSample) :
    ∃ full, (bbrCheckFullBwReached k s rs).phase = { s.phase with fullBwReached := full } ∧
      (s.ca.fullBwReached = true → full = true) := by
  unfold bbrCheckFullBwReached
  split
  · exact ⟨s.ca.fullBwReached, rfl, id⟩
  · rename_i hgo
    push Not at hgo
    simp only
    split
    · exact ⟨s.ca.fullBwReached, rfl, id⟩
    · exact ⟨_, rfl, fun h => absurd h hgo.1⟩

theorem bbrCheckDrain_phase (s : BbrSock M) (rand : U32) :
    ∃ mode, (bbrCheckDrain k s rand).phase = { s.phase with mode := mode } ∧
      Drains s.ca.fullBwReached s.ca.mode mode := by
  unfold bbrCheckDrain bbrEnterDrain
  by_cases hbegin : s.ca.mode = .startup ∧ s.ca.fullBwReached
  · simp only [if_pos hbegin]
    rw [hbegin.1]
    split
    · exact ⟨.probeBw, rfl, .done (.inr ⟨rfl, hbegin.2⟩)⟩
    · exact ⟨.drain, rfl, .begin hbegin.2⟩
  · simp only [if_neg hbegin]
    split
    · rename_i hdrain
      exact ⟨.probeBw, rfl, .done (.inl hdrain.1)⟩
    · refine ⟨s.ca.mode, rfl, .keep fun hmode => ?_⟩
      simpa [hmode] using hbegin

/-! ### The minimum RTT -/

theorem bbrSampleMinRtt_phase (s : BbrSock M) (rs : RateSample) (filterExpired : Bool) (now : ℕ) :
    (bbrSampleMinRtt s rs filterExpired now).phase = s.phase := by
  unfold bbrSampleMinRtt
  split <;> rfl

/-- `BBR_PROBE_RTT` is entered, or nothing happens. -/
theorem bbrEnterProbeRtt_phase (s : BbrSock M) (filterExpired : Bool) :
    (bbrEnterProbeRtt s filterExpired).phase = s.phase ∨
      (s.ca.mode ≠ .probeRtt ∧ (bbrEnterProbeRtt s filterExpired).phase = s.phase.enter) := by
  unfold bbrEnterProbeRtt
  split
  · rename_i henter
    refine .inr ⟨henter.2.2.2, ?_⟩
    simp [bbrSaveCwnd, BbrSock.phase, Phase.enter]
  · exact .inl rfl

theorem bbrCheckProbeRttDone_phase (s : BbrSock M) (check restart : ℕ) (rand : U32) :
    (s.phase.Due check ∧ (bbrCheckProbeRttDone s check restart rand).phase = s.phase.leave) ∨
      (¬ s.phase.Due check ∧ bbrCheckProbeRttDone s check restart rand = s) := by
  unfold bbrCheckProbeRttDone
  split
  · rename_i hdue
    exact .inl ⟨hdue, bbrResetMode_phase _ _⟩
  · rename_i hdue
    exact .inr ⟨hdue, rfl⟩

theorem bbrNoteRound_phase (s : BbrSock M) :
    (bbrNoteRound s).phase = { s.phase with probeRttRoundDone := s.ca.probeRttRoundDone || s.ca.roundStart } := by
  unfold bbrNoteRound
  split
  · rename_i hround
    simp [BbrSock.phase, hround]
  · rename_i hround
    simp [BbrSock.phase, hround]

theorem bbrHoldProbeRtt_phase (s : BbrSock M) (clk : Clock) (rand : U32) (hmode : s.ca.mode = .probeRtt) :
    Probes ((k.msecsToJiffies bbrProbeRttModeMs).setWidth 32) clk s.phase (bbrHoldProbeRtt k s clk rand).phase := by
  unfold bbrHoldProbeRtt
  split
  · rename_i hsmall
    exact .stamp hmode hsmall.2
  · split
    · rename_i hstamp
      have hnote := bbrNoteRound_phase s
      simp only
      split
      · rename_i hround
        have hdone : (s.ca.probeRttRoundDone || s.ca.roundStart) = true := by
          rw [← hround]
          exact (congrArg Phase.probeRttRoundDone hnote).symm
        rcases bbrCheckProbeRttDone_phase (bbrNoteRound s) clk.check clk.restart rand with ⟨hdue, heq⟩ | ⟨-, heq⟩
        · rw [heq, hnote, hdone]
          rw [hnote] at hdue
          exact .leave hmode hdue hdone
        · rw [heq, hnote]
          exact .hold hmode hstamp
      · rw [hnote]
        exact .hold hmode hstamp
    · rename_i hstamp
      exact .wait hmode (not_not.mp hstamp)

theorem bbrInProbeRtt_phase (s : BbrSock M) (clk : Clock) (rand : U32) :
    Probes ((k.msecsToJiffies bbrProbeRttModeMs).setWidth 32) clk s.phase (bbrInProbeRtt k s clk rand).phase := by
  unfold bbrInProbeRtt
  split
  · rename_i hprobe
    exact bbrHoldProbeRtt_phase (bbrMarkAppLimited s) clk rand hprobe
  · rename_i hprobe
    exact .outside hprobe

@[simp] theorem bbrEndIdleRestart_phase (s : BbrSock M) (rs : RateSample) :
    (bbrEndIdleRestart s rs).phase = s.phase := by
  unfold bbrEndIdleRestart
  split <;> rfl

@[simp] theorem bbrUpdateGains_phase (s : BbrSock M) : (bbrUpdateGains s).phase = s.phase := rfl

/-! ### The window -/

theorem bbrCapCwnd_phase (s : BbrSock M) (cwnd : U32) :
    (bbrCapCwnd s cwnd).phase =
      { s.phase with
        sndCwnd := if s.ca.mode = .probeRtt then umin (umin cwnd s.tp.sndCwndClamp) bbrCwndMinTarget
          else umin cwnd s.tp.sndCwndClamp } := rfl

theorem bbrSetCwndToRecoverOrRestore_phase (s : BbrSock M) (rs : RateSample) (acked : U32) :
    (bbrSetCwndToRecoverOrRestore s rs acked).1.phase =
      { s.phase with prevCaState := s.tp.icskCaState.setWidth 3 } := by
  have hframe : (BbrSock.mk s.tp (bbrRecoverOrRestore s rs acked).1).phase = s.phase := by
    unfold bbrRecoverOrRestore
    simp only
    split
    · rfl
    · split <;> rfl
  rw [← hframe]
  unfold bbrSetCwndToRecoverOrRestore
  simp only
  split <;> rfl

/-- The window after an ACK is at most 4 in `BBR_PROBE_RTT`; besides it only `prev_ca_state` is set. -/
theorem bbrSetCwnd_phase (s : BbrSock M) (rs : RateSample) (acked bw : U32) (gain : U64) :
    ∃ cwnd prev, (bbrSetCwnd k s rs acked bw gain).phase = { s.phase with sndCwnd := cwnd, prevCaState := prev } ∧
      (s.ca.mode = .probeRtt → cwnd.toNat ≤ 4) := by
  have hcap (s : BbrSock M) (cwnd : U32) :
      ∃ cwnd', (bbrCapCwnd s cwnd).phase = { s.phase with sndCwnd := cwnd' } ∧
        (s.ca.mode = .probeRtt → cwnd'.toNat ≤ 4) := by
    refine ⟨_, bbrCapCwnd_phase s cwnd, fun hmode => ?_⟩
    rw [if_pos hmode, toNat_umin]
    exact Nat.min_le_right _ _
  unfold bbrSetCwnd
  split
  · obtain ⟨cwnd', hphase, hle⟩ := hcap s s.tp.sndCwnd
    exact ⟨cwnd', s.ca.prevCaState, hphase, hle⟩
  · have hset := bbrSetCwndToRecoverOrRestore_phase s rs acked
    split
    all_goals
      rename_i s₁ cwnd heq
      rw [heq] at hset
      have hmode : s₁.ca.mode = s.ca.mode := congrArg Phase.mode hset
      obtain ⟨cwnd', hphase, hle⟩ := hcap s₁ _
      rw [hset] at hphase
      exact ⟨cwnd', _, hphase, fun h => hle (hmode.trans h)⟩

/-! ## The callbacks -/

/-- `bbr_main` up to the point where `BBR_PROBE_RTT` may have been entered. -/
def bbrAtProbeRtt (k : Kernel M) (s : BbrSock M) (rs : RateSample) (clk : Clock) (rands : Rands) : BbrSock M :=
  let s := bbrUpdateCyclePhase k (bbrUpdateAckAggregation k (bbrUpdateBw k s rs rands.sampling) rs) rs
  let s := bbrCheckDrain k (bbrCheckFullBwReached k s rs) rands.drain
  let filterExpired := bbrFilterExpired k s clk.expired
  bbrEnterProbeRtt (bbrSampleMinRtt s rs filterExpired clk.sample) filterExpired

/-- `bbr_main` from the end of the work on the mode on. -/
def bbrAfterProbeRtt (k : Kernel M) (s : BbrSock M) (rs : RateSample) : BbrSock M :=
  let s := bbrUpdateGains (bbrEndIdleRestart s rs)
  let bw := bbrBw k s
  let s := bbrSetPacingRate s bw (s.ca.pacingGain.setWidth 64)
  bbrSetCwnd k s rs rs.ackedSacked bw (s.ca.cwndGain.setWidth 64)

theorem bbrMain_eq (s : BbrSock M) (rs : RateSample) (clk : Clock) (rands : Rands) :
    bbrMain k s rs clk rands =
      bbrAfterProbeRtt k (bbrInProbeRtt k (bbrAtProbeRtt k s rs clk rands) clk rands.probeRtt) rs := rfl

/-- The steps up to the work on the mode. -/
theorem bbrAtProbeRtt_phase (s : BbrSock M) (rs : RateSample) (clk : Clock) (rands : Rands) :
    ∃ round full mode, (s.ca.fullBwReached = true → full = true) ∧ Drains full s.ca.mode mode ∧
      ((bbrAtProbeRtt k s rs clk rands).phase =
          { s.phase with roundStart := round, fullBwReached := full, mode := mode } ∨
        (mode ≠ .probeRtt ∧ (bbrAtProbeRtt k s rs clk rands).phase =
          { s.phase with roundStart := round, fullBwReached := full, mode := mode }.enter)) := by
  obtain ⟨round, hround⟩ := bbrUpdateBw_phase (k := k) s rs rands.sampling
  set s₁ := bbrUpdateCyclePhase k (bbrUpdateAckAggregation k (bbrUpdateBw k s rs rands.sampling) rs) rs with hs₁
  have hs₁phase : s₁.phase = { s.phase with roundStart := round } := by simp [hs₁, hround]
  obtain ⟨full, hfull, hstays⟩ := bbrCheckFullBwReached_phase (k := k) s₁ rs
  have hfull₁ : s₁.ca.fullBwReached = s.ca.fullBwReached := congrArg Phase.fullBwReached hs₁phase
  rw [hs₁phase] at hfull
  rw [hfull₁] at hstays
  set s₂ := bbrCheckFullBwReached k s₁ rs
  obtain ⟨mode, hmode, hdrains⟩ := bbrCheckDrain_phase (k := k) s₂ rands.drain
  have hfull₂ : s₂.ca.fullBwReached = full := congrArg Phase.fullBwReached hfull
  have hmode₂ : s₂.ca.mode = s.ca.mode := congrArg Phase.mode hfull
  rw [hfull] at hmode
  rw [hfull₂, hmode₂] at hdrains
  set s₃ := bbrCheckDrain k s₂ rands.drain
  set expired := bbrFilterExpired k s₃ clk.expired
  have hsample := bbrSampleMinRtt_phase s₃ rs expired clk.sample
  have hmode₃ : (bbrSampleMinRtt s₃ rs expired clk.sample).ca.mode = mode :=
    congrArg Phase.mode (hsample.trans hmode)
  have henter := bbrEnterProbeRtt_phase (bbrSampleMinRtt s₃ rs expired clk.sample) expired
  rw [hsample, hmode, hmode₃] at henter
  exact ⟨round, full, mode, hstays, hdrains, henter⟩

/-- The steps after the work on the mode set the window and `prev_ca_state`. -/
theorem bbrAfterProbeRtt_phase (s : BbrSock M) (rs : RateSample) :
    ∃ cwnd prev, (bbrAfterProbeRtt k s rs).phase = { s.phase with sndCwnd := cwnd, prevCaState := prev } ∧
      (s.ca.mode = .probeRtt → cwnd.toNat ≤ 4) := by
  set s₁ := bbrUpdateGains (bbrEndIdleRestart s rs) with hs₁
  set s₂ := bbrSetPacingRate s₁ (bbrBw k s₁) (s₁.ca.pacingGain.setWidth 64) with hs₂
  have hphase : s₂.phase = s.phase := by simp [hs₂, hs₁]
  have hmode : s₂.ca.mode = s.ca.mode := congrArg Phase.mode hphase
  obtain ⟨cwnd, prev, hset, hle⟩ := bbrSetCwnd_phase (k := k) s₂ rs rs.ackedSacked (bbrBw k s₁)
    (s₂.ca.cwndGain.setWidth 64)
  rw [hphase] at hset
  exact ⟨cwnd, prev, hset, fun h => hle (hmode.trans h)⟩

/-- **`bbr_main` refines the mode machine.** -/
theorem bbrMain_phase (s : BbrSock M) (rs : RateSample) (clk : Clock) (rands : Rands) :
    ∃ round full mode p₁ p₂ cwnd prev, (s.ca.fullBwReached = true → full = true) ∧ Drains full s.ca.mode mode ∧
      (p₁ = { s.phase with roundStart := round, fullBwReached := full, mode := mode } ∨
        (mode ≠ .probeRtt ∧
          p₁ = { s.phase with roundStart := round, fullBwReached := full, mode := mode }.enter)) ∧
      Probes ((k.msecsToJiffies bbrProbeRttModeMs).setWidth 32) clk p₁ p₂ ∧
      (bbrMain k s rs clk rands).phase = { p₂ with sndCwnd := cwnd, prevCaState := prev } ∧
      (p₂.mode = .probeRtt → cwnd.toNat ≤ 4) := by
  obtain ⟨round, full, mode, hstays, hdrains, henter⟩ := bbrAtProbeRtt_phase (k := k) s rs clk rands
  have hprobes := bbrInProbeRtt_phase (k := k) (bbrAtProbeRtt k s rs clk rands) clk rands.probeRtt
  obtain ⟨cwnd, prev, hset, hle⟩ := bbrAfterProbeRtt_phase (k := k)
    (bbrInProbeRtt k (bbrAtProbeRtt k s rs clk rands) clk rands.probeRtt) rs
  rw [← bbrMain_eq] at hset
  exact ⟨round, full, mode, _, _, cwnd, prev, hstays, hdrains, henter, hprobes, hset, hle⟩

/-- `bbr_init`. -/
theorem bbrInit_phase (s : BbrSock M) (now : ℕ) :
    (bbrInit k s now).phase = { s.phase with
      mode := .startup
      fullBwReached := false
      roundStart := false
      probeRttDoneStamp := 0
      probeRttRoundDone := false
      priorCwnd := 0
      prevCaState := tcpCaOpen } := rfl

theorem bbrInit_mode (s : BbrSock M) (now : ℕ) : (bbrInit k s now).ca.mode = .startup := by
  rw [← phase_mode, bbrInit_phase]

theorem bbrInit_out (s : BbrSock M) (now : ℕ) : (bbrInit k s now).ca.mode ≠ .probeRtt := by
  rw [bbrInit_mode]
  simp

/-- A restart from idle leaves a mode only through the end of `BBR_PROBE_RTT`. -/
theorem bbrCwndEvent_phase (s : BbrSock M) (event : CaEvent) (check restart : ℕ) (rand : U32) :
    (bbrCwndEvent k s event check restart rand).phase = s.phase ∨
      (s.ca.mode = .probeRtt ∧ s.phase.Due check ∧
        (bbrCwndEvent k s event check restart rand).phase = s.phase.leave) := by
  unfold bbrCwndEvent
  split
  · simp only
    split
    · exact .inl (bbrSetPacingRate_phase _ _ _)
    · split
      · rename_i hmode
        rcases bbrCheckProbeRttDone_phase (bbrRestartIdle s) check restart rand with ⟨hdue, heq⟩ | ⟨-, heq⟩
        · exact .inr ⟨hmode, hdue, heq⟩
        · exact .inl (by rw [heq]; rfl)
      · exact .inl rfl
  · exact .inl rfl

theorem bbrSaveCwnd_phase (s : BbrSock M) :
    ∃ prior, (bbrSaveCwnd s).phase = { s.phase with priorCwnd := prior } := by
  unfold bbrSaveCwnd
  split
  · exact ⟨_, rfl⟩
  · exact ⟨_, rfl⟩

theorem bbrUndoCwnd_phase (s : BbrSock M) : (bbrUndoCwnd s).1.phase = s.phase := rfl

theorem bbrSetState_phase (s : BbrSock M) (newState : U8) (rand : U32) :
    ∃ prev round, (bbrSetState k s newState rand).phase =
      { s.phase with prevCaState := prev, roundStart := round } := by
  unfold bbrSetState
  split
  · exact ⟨tcpCaLoss.setWidth 3, true, bbrLtBwSampling_phase _ _ _⟩
  · exact ⟨s.ca.prevCaState, s.ca.roundStart, rfl⟩

/-- The fields of the modes stay. -/
structure KeepsModes (p p' : Phase) : Prop where
  mode : p'.mode = p.mode
  full : p'.fullBwReached = p.fullBwReached
  stamp : p'.probeRttDoneStamp = p.probeRttDoneStamp
  round : p'.probeRttRoundDone = p.probeRttRoundDone

/-- **What an action can do about the modes**: it is one of the three callbacks that may change them, or it keeps them,
and then only `bbr_ssthresh` touches the saved window. -/
theorem acts_cases {s s' : BbrSock M} {a : Action} (h : Acts k s a s') :
    (∃ now, a = .init now ∧ s' = bbrInit k s now) ∨
    (∃ rs clk rands, a = .call (.main rs clk rands) ∧ s' = bbrMain k s rs clk rands) ∨
    (∃ event check restart rand, a = .call (.cwndEvent event check restart rand) ∧
      s' = bbrCwndEvent k s event check restart rand) ∨
    (a.Quiet ∧ KeepsModes s.phase s'.phase ∧ (a ≠ .call .ssthresh → s'.ca.priorCwnd = s.ca.priorCwnd)) := by
  cases h
  cases a with
  | init now => exact .inl ⟨now, rfl, rfl⟩
  | kernel tp => exact .inr (.inr (.inr ⟨trivial, ⟨rfl, rfl, rfl, rfl⟩, fun _ => rfl⟩))
  | call c =>
    cases c with
    | main rs clk rands => exact .inr (.inl ⟨rs, clk, rands, rfl, rfl⟩)
    | cwndEvent event check restart rand => exact .inr (.inr (.inl ⟨event, check, restart, rand, rfl, rfl⟩))
    | ssthresh =>
      obtain ⟨prior, heq⟩ := bbrSaveCwnd_phase s
      have hkeeps : KeepsModes s.phase (bbrSaveCwnd s).phase := by rw [heq]; exact ⟨rfl, rfl, rfl, rfl⟩
      exact .inr (.inr (.inr ⟨trivial, hkeeps, fun hloss => absurd rfl hloss⟩))
    | undoCwnd =>
      have hkeeps : KeepsModes s.phase (bbrUndoCwnd s).1.phase := by rw [bbrUndoCwnd_phase]; exact ⟨rfl, rfl, rfl, rfl⟩
      exact .inr (.inr (.inr ⟨trivial, hkeeps, fun _ => congrArg Phase.priorCwnd (bbrUndoCwnd_phase s)⟩))
    | setState newState rand =>
      obtain ⟨prev, round, heq⟩ := bbrSetState_phase (k := k) s newState rand
      have hkeeps : KeepsModes s.phase (bbrSetState k s newState rand).phase := by rw [heq]; exact ⟨rfl, rfl, rfl, rfl⟩
      exact .inr (.inr (.inr ⟨trivial, hkeeps, fun _ => congrArg Phase.priorCwnd heq⟩))

end Refinement

end CoupledCC.Bbr
