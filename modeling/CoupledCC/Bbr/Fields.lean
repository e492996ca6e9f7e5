import CoupledCC.Lib.Registers
import CoupledCC.Bbr.Callbacks

/-!
# The bit-fields of BBR

`struct bbr` keeps its modes, flags, counters and gains in bit-fields. For each function that writes them, the numbers
it assigns are listed in their order, before they are cut to the width of the field (`…Log`); the fields after the
function are those before it with these assignments (`…_assigns`).
-/

namespace CoupledCC.Bbr

open Word Registers

/-- The bit-fields of `struct bbr`. -/
inductive Field
  | mode
  | prevCaState
  | packetConservation
  | roundStart
  | idleRestart
  | probeRttRoundDone
  | ltIsSampling
  | ltRttCnt
  | ltUseBw
  | pacingGain
  | cwndGain
  | fullBwReached
  | fullBwCnt
  | cycleIdx
  | hasSeenRtt
  | ackEpochAcked
  | extraAckedWinRtts
  | extraAckedWinIdx
deriving Repr, DecidableEq

def Field.width : Field → ℕ
  | .mode | .prevCaState | .cycleIdx => 3
  | .ltRttCnt => 7
  | .pacingGain | .cwndGain => 10
  | .fullBwCnt => 2
  | .ackEpochAcked => 20
  | .extraAckedWinRtts => 5
  | _ => 1

/-- The number of a mode in `enum bbr_mode`. -/
def BbrMode.number : BbrMode → ℕ
  | .startup => 0
  | .drain => 1
  | .probeBw => 2
  | .probeRtt => 3

section Logs

variable {M : Type} (k : Kernel M)

/-- The numbers in the bit-fields. -/
def BbrSock.fields (s : BbrSock M) : Field → ℕ
  | .mode => BbrMode.number s.ca.mode
  | .prevCaState => s.ca.prevCaState.toNat
  | .packetConservation => s.ca.packetConservation.toNat
  | .roundStart => s.ca.roundStart.toNat
  | .idleRestart => s.ca.idleRestart.toNat
  | .probeRttRoundDone => s.ca.probeRttRoundDone.toNat
  | .ltIsSampling => s.ca.ltIsSampling.toNat
  | .ltRttCnt => s.ca.ltRttCnt.toNat
  | .ltUseBw => s.ca.ltUseBw.toNat
  | .pacingGain => s.ca.pacingGain.toNat
  | .cwndGain => s.ca.cwndGain.toNat
  | .fullBwReached => s.ca.fullBwReached.toNat
  | .fullBwCnt => s.ca.fullBwCnt.toNat
  | .cycleIdx => s.ca.cycleIdx.toNat
  | .hasSeenRtt => s.ca.hasSeenRtt.toNat
  | .ackEpochAcked => s.ca.ackEpochAcked.toNat
  | .extraAckedWinRtts => s.ca.extraAckedWinRtts.toNat
  | .extraAckedWinIdx => s.ca.extraAckedWinIdx.toNat

/-- The assignments of a function, in their order. -/
abbrev Log := List (Write Field)

/-- The step from `s` to `s'` makes the assignments `log`. -/
abbrev Assigns (s : BbrSock M) (log : Log) (s' : BbrSock M) : Prop :=
  Logged Field.width BbrSock.fields s log s'

/-! ## Modes -/

def bbrAdvanceCyclePhaseLog (s : BbrSock M) : Log :=
  [⟨.cycleIdx, ((s.ca.cycleIdx.setWidth 32 + 1) &&& (cycleLen - 1)).toNat⟩]

theorem bbrAdvanceCyclePhase_assigns (s : BbrSock M) :
    Assigns s (bbrAdvanceCyclePhaseLog s) (bbrAdvanceCyclePhase s) := by
  funext f
  cases f <;> rfl

/-- The socket in which `bbr_reset_probe_bw_mode` advances the cycle. -/
def bbrDrawCyclePhase (s : BbrSock M) (rand : U32) : BbrSock M :=
  { s with ca := { s.ca with mode := .probeBw, cycleIdx := (cycleLen - 1 - rand).setWidth 3 } }

def bbrResetProbeBwModeLog (s : BbrSock M) (rand : U32) : Log :=
  [⟨.mode, BbrMode.number .probeBw⟩, ⟨.cycleIdx, (cycleLen - 1 - rand).toNat⟩] ++
    bbrAdvanceCyclePhaseLog (bbrDrawCyclePhase s rand)

theorem bbrResetProbeBwMode_assigns (s : BbrSock M) (rand : U32) :
    Assigns s (bbrResetProbeBwModeLog s rand) (bbrResetProbeBwMode s rand) := by
  have hdraw : Assigns s [⟨.mode, BbrMode.number .probeBw⟩, ⟨.cycleIdx, (cycleLen - 1 - rand).toNat⟩]
      (bbrDrawCyclePhase s rand) := by
    funext f
    cases f <;> rfl
  exact hdraw.append (bbrAdvanceCyclePhase_assigns _)

def bbrResetStartupModeLog : Log :=
  [⟨.mode, BbrMode.number .startup⟩]

theorem bbrResetStartupMode_assigns (s : BbrSock M) : Assigns s bbrResetStartupModeLog (bbrResetStartupMode s) := by
  funext f
  cases f <;> rfl

def bbrResetModeLog (s : BbrSock M) (rand : U32) : Log :=
  if s.ca.fullBwReached then bbrResetProbeBwModeLog s rand else bbrResetStartupModeLog

theorem bbrResetMode_assigns (s : BbrSock M) (rand : U32) : Assigns s (bbrResetModeLog s rand) (bbrResetMode s rand) :=
  .ite (fun _ => bbrResetProbeBwMode_assigns s rand) fun _ => bbrResetStartupMode_assigns s

def bbrUpdateCyclePhaseLog (s : BbrSock M) (rs : RateSample) : Log :=
  if s.ca.mode = .probeBw ∧ bbrIsNextCyclePhase k s rs then bbrAdvanceCyclePhaseLog s else []

theorem bbrUpdateCyclePhase_assigns (s : BbrSock M) (rs : RateSample) :
    Assigns s (bbrUpdateCyclePhaseLog k s rs) (bbrUpdateCyclePhase k s rs) :=
  .when fun _ => bbrAdvanceCyclePhase_assigns s

/-! ## Long-term sampling -/

def bbrResetLtBwSamplingIntervalLog : Log :=
  [⟨.ltRttCnt, 0⟩]

def bbrResetLtBwSamplingLog : Log :=
  [⟨.ltUseBw, 0⟩, ⟨.ltIsSampling, 0⟩] ++ bbrResetLtBwSamplingIntervalLog

theorem bbrResetLtBwSampling_assigns (s : BbrSock M) : Assigns s bbrResetLtBwSamplingLog (bbrResetLtBwSampling s) := by
  funext f
  cases f <;> rfl

def bbrLtBwIntervalDoneLog (s : BbrSock M) (bw : U32) : Log :=
  let diff := k.bwDistance bw s.ca.ltBw
  if s.ca.ltBw ≠ 0 ∧
      (diff * bbrUnit.setWidth 32 ≤ bbrLtBwRatio * s.ca.ltBw ∨
        bbrRateBytesPerSec s.tp (diff.setWidth 64) bbrUnit ≤ bbrLtBwDiff) then
    [⟨.ltUseBw, 1⟩, ⟨.pacingGain, bbrUnit.toNat⟩, ⟨.ltRttCnt, 0⟩]
  else bbrResetLtBwSamplingIntervalLog

theorem bbrLtBwIntervalDone_assigns (s : BbrSock M) (bw : U32) :
    Assigns s (bbrLtBwIntervalDoneLog k s bw) (bbrLtBwIntervalDone k s bw) := by
  apply Logged.ite
  · intro _
    funext f
    cases f <;> rfl
  · intro _
    funext f
    cases f <;> rfl

def bbrLtBwMeasureLog (s : BbrSock M) : Log :=
  let lost := s.tp.lost - s.ca.ltLastLost
  let delivered := s.tp.delivered - s.ca.ltLastDelivered
  if delivered = 0 ∨ lost <<< bbrScale < bbrLtLossThresh * delivered then []
  else
    let t := (s.tp.deliveredMstamp / usecPerMsec).setWidth 32 - s.ca.ltLastStamp
    if t.toInt < 1 then []
    else if 0xffffffff / usecPerMsec.setWidth 32 ≤ t then bbrResetLtBwSamplingLog
    else
      let t := t * usecPerMsec.setWidth 32
      bbrLtBwIntervalDoneLog k s ((delivered.setWidth 64 * bwUnit / t.setWidth 64).setWidth 32)

theorem bbrLtBwMeasure_assigns (s : BbrSock M) : Assigns s (bbrLtBwMeasureLog k s) (bbrLtBwMeasure k s) :=
  .ite (fun _ => .nil s) fun _ => .ite (fun _ => .nil s) fun _ =>
    .ite (fun _ => bbrResetLtBwSampling_assigns s) fun _ => bbrLtBwIntervalDone_assigns k s _

def bbrCountLtRttLog (s : BbrSock M) : Log :=
  [⟨.ltRttCnt, s.ca.ltRttCnt.toNat + 1⟩]

theorem bbrCountLtRtt_assigns (s : BbrSock M) : Assigns s (bbrCountLtRttLog s) (bbrCountLtRtt s) := by
  funext f
  cases f <;> rfl

def bbrLtBwInUseLog (s : BbrSock M) (rand : U32) : Log :=
  if s.ca.mode = .probeBw ∧ s.ca.roundStart then
    bbrCountLtRttLog s ++
      if bbrLtBwMaxRtts ≤ (bbrCountLtRtt s).ca.ltRttCnt.setWidth 32 then
        bbrResetLtBwSamplingLog ++ bbrResetProbeBwModeLog (bbrResetLtBwSampling (bbrCountLtRtt s)) rand
      else []
  else []

theorem bbrLtBwInUse_assigns (s : BbrSock M) (rand : U32) : Assigns s (bbrLtBwInUseLog s rand) (bbrLtBwInUse s rand) :=
  .when fun _ => (bbrCountLtRtt_assigns s).append <| .when fun _ =>
    (bbrResetLtBwSampling_assigns _).append (bbrResetProbeBwMode_assigns _ rand)

/-- The sampling interval after the rounds are counted. -/
def bbrLtBwCounted (s : BbrSock M) : BbrSock M :=
  if s.ca.roundStart then bbrCountLtRtt s else s

def bbrLtBwSampleLog (s : BbrSock M) (rs : RateSample) : Log :=
  if rs.isAppLimited then bbrResetLtBwSamplingLog
  else
    (if s.ca.roundStart then bbrCountLtRttLog s else []) ++
      let s := bbrLtBwCounted s
      let rtts : U32 := s.ca.ltRttCnt.setWidth 32
      if rtts < bbrLtIntvlMinRtts then []
      else if 4 * bbrLtIntvlMinRtts < rtts then bbrResetLtBwSamplingLog
      else if rs.losses = 0 then []
      else bbrLtBwMeasureLog k s

theorem bbrLtBwSample_assigns (s : BbrSock M) (rs : RateSample) :
    Assigns s (bbrLtBwSampleLog k s rs) (bbrLtBwSample k s rs) := by
  apply Logged.ite
  · intro _
    exact bbrResetLtBwSampling_assigns s
  · intro _
    have hcount : Assigns s (if s.ca.roundStart then bbrCountLtRttLog s else []) (bbrLtBwCounted s) :=
      .when fun _ => bbrCountLtRtt_assigns s
    exact hcount.append <| .ite (fun _ => .nil _) fun _ => .ite (fun _ => bbrResetLtBwSampling_assigns _) fun _ =>
      .ite (fun _ => .nil _) fun _ => bbrLtBwMeasure_assigns k _

/-- The first loss starts the sampling. -/
def bbrLtBwStart (s : BbrSock M) : BbrSock M :=
  let s := bbrResetLtBwSamplingInterval s
  { s with ca := { s.ca with ltIsSampling := true } }

def bbrLtBwStartLog : Log :=
  bbrResetLtBwSamplingIntervalLog ++ [⟨.ltIsSampling, 1⟩]

theorem bbrLtBwStart_assigns (s : BbrSock M) : Assigns s bbrLtBwStartLog (bbrLtBwStart s) := by
  funext f
  cases f <;> rfl

def bbrLtBwSamplingLog (s : BbrSock M) (rs : RateSample) (rand : U32) : Log :=
  if s.ca.ltUseBw then bbrLtBwInUseLog s rand
  else if s.ca.ltIsSampling then bbrLtBwSampleLog k s rs
  else if rs.losses = 0 then []
  else bbrLtBwStartLog ++ bbrLtBwSampleLog k (bbrLtBwStart s) rs

theorem bbrLtBwSampling_assigns (s : BbrSock M) (rs : RateSample) (rand : U32) :
    Assigns s (bbrLtBwSamplingLog k s rs rand) (bbrLtBwSampling k s rs rand) :=
  .ite (fun _ => bbrLtBwInUse_assigns s rand) fun _ => .ite (fun _ => bbrLtBwSample_assigns k s rs) fun _ =>
    .ite (fun _ => .nil s) fun _ => (bbrLtBwStart_assigns s).append (bbrLtBwSample_assigns k _ rs)

/-! ## Bandwidth, aggregation, a full pipe -/

def bbrUpdateRoundLog (s : BbrSock M) (rs : RateSample) : Log :=
  if before rs.priorDelivered s.ca.nextRttDelivered then [] else [⟨.roundStart, 1⟩, ⟨.packetConservation, 0⟩]

theorem bbrUpdateRound_assigns (s : BbrSock M) (rs : RateSample) :
    Assigns s (bbrUpdateRoundLog s rs) (bbrUpdateRound s rs) := by
  apply Logged.ite
  · intro _
    exact .nil s
  · intro _
    funext f
    cases f <;> rfl

/-- The socket with the flag for the start of a round cleared. -/
def bbrClearRound (s : BbrSock M) : BbrSock M :=
  { s with ca := { s.ca with roundStart := false } }

def bbrUpdateBwLog (s : BbrSock M) (rs : RateSample) (rand : U32) : Log :=
  ⟨.roundStart, 0⟩ ::
    if InvalidSample rs then []
    else
      let s := bbrClearRound s
      bbrUpdateRoundLog s rs ++ bbrLtBwSamplingLog k (bbrUpdateRound s rs) rs rand

theorem bbrUpdateBw_assigns (s : BbrSock M) (rs : RateSample) (rand : U32) :
    Assigns s (bbrUpdateBwLog k s rs rand) (bbrUpdateBw k s rs rand) := by
  have hclear : Assigns s [⟨.roundStart, 0⟩] (bbrClearRound s) := by
    funext f
    cases f <;> rfl
  have hfilter (s : BbrSock M) : (bbrFilterBw k s rs).fields = s.fields := by
    unfold bbrFilterBw
    simp only
    split
    · funext f
      cases f <;> rfl
    · rfl
  apply hclear.append
  apply Logged.ite
  · intro _
    exact .nil _
  · intro _
    have hsampling := (bbrUpdateRound_assigns (bbrClearRound s) rs).append
      (bbrLtBwSampling_assigns k (bbrUpdateRound (bbrClearRound s) rs) rs rand)
    exact (hfilter _).trans hsampling

/-- The age of the slots at the start of a round. -/
def bbrAgedRtts (s : BbrSock M) : U32 :=
  umin (0x1f : U32) (s.ca.extraAckedWinRtts.setWidth 32 + 1)

def bbrAgeExtraAckedLog (s : BbrSock M) : Log :=
  if s.ca.roundStart then
    ⟨.extraAckedWinRtts, (bbrAgedRtts s).toNat⟩ ::
      if bbrExtraAckedWinRtts ≤ ((bbrAgedRtts s).setWidth 5 : BitVec 5).setWidth 32 then
        [⟨.extraAckedWinRtts, 0⟩, ⟨.extraAckedWinIdx, (!s.ca.extraAckedWinIdx).toNat⟩]
      else []
  else []

theorem bbrAgeExtraAcked_assigns (s : BbrSock M) : Assigns s (bbrAgeExtraAckedLog s) (bbrAgeExtraAcked s) := by
  unfold bbrAgeExtraAckedLog bbrAgeExtraAcked
  apply Logged.when
  intro _
  have hrtts : Assigns s [⟨.extraAckedWinRtts, (bbrAgedRtts s).toNat⟩]
      { s with ca := { s.ca with extraAckedWinRtts := (bbrAgedRtts s).setWidth 5 } } := by
    funext f
    cases f <;> rfl
  have hflip : Assigns { s with ca := { s.ca with extraAckedWinRtts := (bbrAgedRtts s).setWidth 5 } }
      [⟨.extraAckedWinRtts, 0⟩, ⟨.extraAckedWinIdx, (!s.ca.extraAckedWinIdx).toNat⟩]
      { s with ca := { s.ca with
        extraAckedWinRtts := 0,
        extraAckedWinIdx := !s.ca.extraAckedWinIdx }.setExtraAcked (!s.ca.extraAckedWinIdx) 0 } := by
    cases hidx : s.ca.extraAckedWinIdx
    all_goals
      funext f
      cases f <;> rfl
  exact hrtts.append (.when fun _ => hflip)

def bbrExpectAckedLog (s : BbrSock M) (rs : RateSample) : Log :=
  let epochUs := k.tcpStampUsDelta s.tp.deliveredMstamp s.ca.ackEpochMstamp
  let expectedAcked : U32 := ((bbrBw k s).setWidth 64 * epochUs.setWidth 64 / bwUnit).setWidth 32
  let acked : U32 := s.ca.ackEpochAcked.setWidth 32
  if acked ≤ expectedAcked ∨ bbrAckEpochAckedResetThresh ≤ acked + rs.ackedSacked then [⟨.ackEpochAcked, 0⟩] else []

theorem bbrExpectAcked_assigns (s : BbrSock M) (rs : RateSample) :
    Assigns s (bbrExpectAckedLog k s rs) (bbrExpectAcked k s rs).1 := by
  unfold bbrExpectAckedLog bbrExpectAcked
  simp only
  split
  · funext f
    cases f <;> rfl
  · exact .nil s

def bbrRecordExtraAckedLog (s : BbrSock M) (rs : RateSample) : Log :=
  [⟨.ackEpochAcked, (umin (0xfffff : U32) (s.ca.ackEpochAcked.setWidth 32 + rs.ackedSacked)).toNat⟩]

theorem bbrRecordExtraAcked_assigns (s : BbrSock M) (expectedAcked : U32) (rs : RateSample) :
    Assigns s (bbrRecordExtraAckedLog s rs) (bbrRecordExtraAcked s expectedAcked rs) := by
  have hslot (ca : Bbr M) (idx : Bool) (extra : U16) :
      (BbrSock.mk s.tp (ca.setExtraAcked idx extra)).fields = (BbrSock.mk s.tp ca).fields := by
    cases idx
    all_goals
      funext f
      cases f <;> rfl
  unfold bbrRecordExtraAcked bbrRecordExtraAckedLog
  simp only
  split
  · refine (hslot _ _ _).trans ?_
    funext f
    cases f <;> rfl
  · funext f
    cases f <;> rfl

def bbrUpdateAckAggregationLog (s : BbrSock M) (rs : RateSample) : Log :=
  if bbrExtraAckedGain = 0 ∨ rs.ackedSacked = 0 ∨ InvalidSample rs then []
  else
    bbrAgeExtraAckedLog s ++ bbrExpectAckedLog k (bbrAgeExtraAcked s) rs ++
      bbrRecordExtraAckedLog (bbrExpectAcked k (bbrAgeExtraAcked s) rs).1 rs

theorem bbrUpdateAckAggregation_assigns (s : BbrSock M) (rs : RateSample) :
    Assigns s (bbrUpdateAckAggregationLog k s rs) (bbrUpdateAckAggregation k s rs) :=
  .ite (fun _ => .nil s) fun _ =>
    ((bbrAgeExtraAcked_assigns s).append (bbrExpectAcked_assigns k _ rs)).append (bbrRecordExtraAcked_assigns _ _ rs)

def bbrCheckFullBwReachedLog (s : BbrSock M) (rs : RateSample) : Log :=
  if s.ca.fullBwReached ∨ s.ca.roundStart = false ∨ rs.isAppLimited then []
  else
    let bwThresh : U32 := ((s.ca.fullBw.setWidth 64 * bbrFullBwThresh) >>> bbrScale).setWidth 32
    if bwThresh ≤ bbrMaxBw k s then [⟨.fullBwCnt, 0⟩]
    else
      [⟨.fullBwCnt, s.ca.fullBwCnt.toNat + 1⟩,
        ⟨.fullBwReached, (decide (bbrFullBwCnt ≤ (s.ca.fullBwCnt + 1).setWidth 32)).toNat⟩]

theorem bbrCheckFullBwReached_assigns (s : BbrSock M) (rs : RateSample) :
    Assigns s (bbrCheckFullBwReachedLog k s rs) (bbrCheckFullBwReached k s rs) := by
  refine Logged.ite (fun _ => .nil s) fun _ => Logged.ite (fun _ => ?_) fun _ => ?_
  · funext f
    cases f <;> rfl
  · funext f
    cases f
    case fullBwReached => exact (Nat.mod_eq_of_lt (Bool.toNat_lt _)).symm
    all_goals rfl

/-! ## Drain and minimum RTT -/

def bbrEnterDrainLog (s : BbrSock M) : Log :=
  if s.ca.mode = .startup ∧ s.ca.fullBwReached then [⟨.mode, BbrMode.number .drain⟩] else []

theorem bbrEnterDrain_assigns (s : BbrSock M) : Assigns s (bbrEnterDrainLog s) (bbrEnterDrain k s) := by
  apply Logged.when
  intro _
  funext f
  cases f <;> rfl

def bbrCheckDrainLog (s : BbrSock M) (rand : U32) : Log :=
  bbrEnterDrainLog s ++
    let s := bbrEnterDrain k s
    if s.ca.mode = .drain ∧
        bbrPacketsInNetAtEdt k s s.tp.packetsInFlight ≤ bbrInflight k s (bbrMaxBw k s) bbrUnit then
      bbrResetProbeBwModeLog s rand
    else []

theorem bbrCheckDrain_assigns (s : BbrSock M) (rand : U32) :
    Assigns s (bbrCheckDrainLog k s rand) (bbrCheckDrain k s rand) :=
  (bbrEnterDrain_assigns k s).append <| .when fun _ => bbrResetProbeBwMode_assigns _ rand

/-- The socket restored at the end of `BBR_PROBE_RTT`. -/
def bbrRestoreCwnd (s : BbrSock M) (restart : ℕ) : BbrSock M where
  tp := { s.tp with sndCwnd := umax s.tp.sndCwnd s.ca.priorCwnd }
  ca := { s.ca with minRttStamp := tcpJiffies32 restart }

def bbrCheckProbeRttDoneLog (s : BbrSock M) (check restart : ℕ) (rand : U32) : Log :=
  if s.ca.probeRttDoneStamp ≠ 0 ∧ after (tcpJiffies32 check) s.ca.probeRttDoneStamp then
    bbrResetModeLog (bbrRestoreCwnd s restart) rand
  else []

theorem bbrCheckProbeRttDone_assigns (s : BbrSock M) (check restart : ℕ) (rand : U32) :
    Assigns s (bbrCheckProbeRttDoneLog s check restart rand) (bbrCheckProbeRttDone s check restart rand) := by
  apply Logged.when
  intro _
  have hrestore : (bbrRestoreCwnd s restart).fields = s.fields := by
    funext f
    cases f <;> rfl
  have hmode := bbrResetMode_assigns (bbrRestoreCwnd s restart) rand
  unfold Logged at hmode ⊢
  rw [← hrestore]
  exact hmode

def bbrEnterProbeRttLog (s : BbrSock M) (filterExpired : Bool) : Log :=
  if 0 < bbrProbeRttModeMs ∧ filterExpired ∧ s.ca.idleRestart = false ∧ s.ca.mode ≠ .probeRtt then
    [⟨.mode, BbrMode.number .probeRtt⟩]
  else []

theorem bbrSaveCwnd_fields (s : BbrSock M) : (bbrSaveCwnd s).fields = s.fields := by
  unfold bbrSaveCwnd
  split
  all_goals
    funext f
    cases f <;> rfl

theorem bbrEnterProbeRtt_assigns (s : BbrSock M) (filterExpired : Bool) :
    Assigns s (bbrEnterProbeRttLog s filterExpired) (bbrEnterProbeRtt s filterExpired) := by
  apply Logged.when
  intro _
  have hsave := bbrSaveCwnd_fields { s with ca := { s.ca with mode := .probeRtt } }
  unfold Logged
  refine Eq.trans ?_ (hsave.trans ?_)
  · funext f
    cases f <;> rfl
  · funext f
    cases f <;> rfl

def bbrNoteRoundLog (s : BbrSock M) : Log :=
  if s.ca.roundStart then [⟨.probeRttRoundDone, 1⟩] else []

theorem bbrNoteRound_assigns (s : BbrSock M) : Assigns s (bbrNoteRoundLog s) (bbrNoteRound s) := by
  apply Logged.when
  intro _
  funext f
  cases f <;> rfl

def bbrHoldProbeRttLog (s : BbrSock M) (clk : Clock) (rand : U32) : Log :=
  if s.ca.probeRttDoneStamp = 0 ∧ s.tp.packetsInFlight ≤ bbrCwndMinTarget then [⟨.probeRttRoundDone, 0⟩]
  else if s.ca.probeRttDoneStamp ≠ 0 then
    bbrNoteRoundLog s ++
      if (bbrNoteRound s).ca.probeRttRoundDone then
        bbrCheckProbeRttDoneLog (bbrNoteRound s) clk.check clk.restart rand
      else []
  else []

theorem bbrHoldProbeRtt_assigns (s : BbrSock M) (clk : Clock) (rand : U32) :
    Assigns s (bbrHoldProbeRttLog s clk rand) (bbrHoldProbeRtt k s clk rand) := by
  refine Logged.ite (fun _ => ?_) fun _ => Logged.when fun _ => ?_
  · funext f
    cases f <;> rfl
  · exact (bbrNoteRound_assigns s).append <| .when fun _ => bbrCheckProbeRttDone_assigns _ clk.check clk.restart rand

def bbrInProbeRttLog (s : BbrSock M) (clk : Clock) (rand : U32) : Log :=
  if s.ca.mode = .probeRtt then bbrHoldProbeRttLog (bbrMarkAppLimited s) clk rand else []

theorem bbrInProbeRtt_assigns (s : BbrSock M) (clk : Clock) (rand : U32) :
    Assigns s (bbrInProbeRttLog s clk rand) (bbrInProbeRtt k s clk rand) :=
  .when fun _ => bbrHoldProbeRtt_assigns k (bbrMarkAppLimited s) clk rand

def bbrEndIdleRestartLog (rs : RateSample) : Log :=
  if 0 < rs.delivered.toInt then [⟨.idleRestart, 0⟩] else []

theorem bbrEndIdleRestart_assigns (s : BbrSock M) (rs : RateSample) :
    Assigns s (bbrEndIdleRestartLog rs) (bbrEndIdleRestart s rs) := by
  apply Logged.when
  intro _
  funext f
  cases f <;> rfl

def bbrUpdateMinRttLog (s : BbrSock M) (rs : RateSample) (clk : Clock) (rand : U32) : Log :=
  let filterExpired := bbrFilterExpired k s clk.expired
  let s := bbrSampleMinRtt s rs filterExpired clk.sample
  bbrEnterProbeRttLog s filterExpired ++ bbrInProbeRttLog (bbrEnterProbeRtt s filterExpired) clk rand ++
    bbrEndIdleRestartLog rs

theorem bbrUpdateMinRtt_assigns (s : BbrSock M) (rs : RateSample) (clk : Clock) (rand : U32) :
    Assigns s (bbrUpdateMinRttLog k s rs clk rand) (bbrUpdateMinRtt k s rs clk rand) := by
  have hsample (filterExpired : Bool) : Assigns s [] (bbrSampleMinRtt s rs filterExpired clk.sample) := by
    unfold bbrSampleMinRtt
    split
    · funext f
      cases f <;> rfl
    · exact .nil s
  have hwork (s₁ : BbrSock M) (filterExpired : Bool) := ((bbrEnterProbeRtt_assigns s₁ filterExpired).append
    (bbrInProbeRtt_assigns k _ clk rand)).append (bbrEndIdleRestart_assigns _ rs)
  exact (hsample _).append (hwork _ _)

/-! ## Gains, pacing, the window -/

def bbrUpdateGainsLog (s : BbrSock M) : Log :=
  [⟨.pacingGain, (bbrGains s.ca).1.toNat⟩, ⟨.cwndGain, (bbrGains s.ca).2.toNat⟩]

theorem bbrUpdateGains_assigns (s : BbrSock M) : Assigns s (bbrUpdateGainsLog s) (bbrUpdateGains s) := by
  funext f
  cases f <;> rfl

def bbrInitPacingRateFromRttLog (s : BbrSock M) : Log :=
  if s.tp.srttUs ≠ 0 then [⟨.hasSeenRtt, 1⟩] else []

theorem bbrInitPacingRateFromRtt_assigns (s : BbrSock M) :
    Assigns s (bbrInitPacingRateFromRttLog s) (bbrInitPacingRateFromRtt s) := by
  have hseen (rate : U64) (seen : Bool) : Assigns s [⟨.hasSeenRtt, seen.toNat⟩]
      ⟨{ s.tp with skPacingRate := rate }, { s.ca with hasSeenRtt := seen }⟩ := by
    funext f
    cases f
    case hasSeenRtt => exact (Nat.mod_eq_of_lt (Bool.toNat_lt _)).symm
    all_goals rfl
  have hsame (rate : U64) : Assigns s [] ⟨{ s.tp with skPacingRate := rate }, s.ca⟩ := rfl
  unfold bbrInitPacingRateFromRttLog bbrInitPacingRateFromRtt
  simp only
  generalize bbrBwToPacingRate _ _ _ = rate
  by_cases hrtt : s.tp.srttUs ≠ 0
  · simp only [if_pos hrtt]
    exact hseen rate true
  · simp only [if_neg hrtt]
    exact hsame rate

def bbrSetPacingRateLog (s : BbrSock M) : Log :=
  if s.ca.hasSeenRtt = false ∧ s.tp.srttUs ≠ 0 then bbrInitPacingRateFromRttLog s else []

theorem bbrSetPacingRate_assigns (s : BbrSock M) (bw : U32) (gain : U64) :
    Assigns s (bbrSetPacingRateLog s) (bbrSetPacingRate s bw gain) := by
  have hrate (s : BbrSock M) (p : Prop) [Decidable p] (rate : U64) :
      (if p then { s with tp := { s.tp with skPacingRate := rate } } else s).fields = s.fields := by split <;> rfl
  have hinit : Assigns s (bbrSetPacingRateLog s)
      (if s.ca.hasSeenRtt = false ∧ s.tp.srttUs ≠ 0 then bbrInitPacingRateFromRtt s else s) :=
    .when fun _ => bbrInitPacingRateFromRtt_assigns s
  unfold bbrSetPacingRate
  exact (hrate _ _ _).trans hinit

def bbrRecoverOrRestoreLog (s : BbrSock M) : Log :=
  let prevState : U8 := s.ca.prevCaState.setWidth 8
  let state := s.tp.icskCaState
  if state = tcpCaRecovery ∧ prevState ≠ tcpCaRecovery then [⟨.packetConservation, 1⟩]
  else if tcpCaRecovery ≤ prevState ∧ state < tcpCaRecovery then [⟨.packetConservation, 0⟩]
  else []

def bbrSetCwndToRecoverOrRestoreLog (s : BbrSock M) : Log :=
  bbrRecoverOrRestoreLog s ++ [⟨.prevCaState, s.tp.icskCaState.toNat⟩]

theorem bbrSetCwndToRecoverOrRestore_assigns (s : BbrSock M) (rs : RateSample) (acked : U32) :
    Assigns s (bbrSetCwndToRecoverOrRestoreLog s) (bbrSetCwndToRecoverOrRestore s rs acked).1 := by
  have hrecover : Assigns s (bbrRecoverOrRestoreLog s) ⟨s.tp, (bbrRecoverOrRestore s rs acked).1⟩ := by
    unfold bbrRecoverOrRestoreLog bbrRecoverOrRestore
    simp only
    split
    · funext f
      cases f <;> rfl
    · split
      · funext f
        cases f <;> rfl
      · exact .nil s
  have hprev (ca : Bbr M) : Assigns ⟨s.tp, ca⟩ [⟨.prevCaState, s.tp.icskCaState.toNat⟩]
      ⟨s.tp, { ca with prevCaState := s.tp.icskCaState.setWidth 3 }⟩ := by
    funext f
    cases f <;> rfl
  unfold bbrSetCwndToRecoverOrRestore
  simp only
  split
  · exact hrecover.append (hprev _)
  · exact hrecover.append (hprev _)

def bbrSetCwndLog (s : BbrSock M) (acked : U32) : Log :=
  if acked = 0 then [] else bbrSetCwndToRecoverOrRestoreLog s

theorem bbrSetCwnd_assigns (s : BbrSock M) (rs : RateSample) (acked bw : U32) (gain : U64) :
    Assigns s (bbrSetCwndLog s acked) (bbrSetCwnd k s rs acked bw gain) := by
  have hset := bbrSetCwndToRecoverOrRestore_assigns s rs acked
  unfold bbrSetCwnd bbrSetCwndLog
  apply Logged.ite
  · intro _
    funext f
    cases f <;> rfl
  · intro _
    split
    all_goals
      rename_i heq
      rw [heq] at hset
      exact hset

/-! ## Callbacks -/

/-- The state before each stage of `bbr_main`. -/
structure Stages (M : Type) where
  aggregation : BbrSock M
  cycle : BbrSock M
  fullBw : BbrSock M
  drain : BbrSock M
  minRtt : BbrSock M
  gains : BbrSock M
  pacing : BbrSock M
  window : BbrSock M

def bbrStages (s : BbrSock M) (rs : RateSample) (clk : Clock) (rands : Rands) : Stages M :=
  let aggregation := bbrUpdateBw k s rs rands.sampling
  let cycle := bbrUpdateAckAggregation k aggregation rs
  let fullBw := bbrUpdateCyclePhase k cycle rs
  let drain := bbrCheckFullBwReached k fullBw rs
  let minRtt := bbrCheckDrain k drain rands.drain
  let gains := bbrUpdateMinRtt k minRtt rs clk rands.probeRtt
  let pacing := bbrUpdateGains gains
  let window := bbrSetPacingRate pacing (bbrBw k pacing) (pacing.ca.pacingGain.setWidth 64)
  ⟨aggregation, cycle, fullBw, drain, minRtt, gains, pacing, window⟩

theorem bbrStages_minRtt (s : BbrSock M) (rs : RateSample) (clk : Clock) (rands : Rands) :
    (bbrStages k s rs clk rands).minRtt = bbrCheckDrain k (bbrStages k s rs clk rands).drain rands.drain := by
  simp only [bbrStages]

theorem bbrStages_gains (s : BbrSock M) (rs : RateSample) (clk : Clock) (rands : Rands) :
    (bbrStages k s rs clk rands).gains =
      bbrUpdateMinRtt k (bbrStages k s rs clk rands).minRtt rs clk rands.probeRtt := by
  simp only [bbrStages]

def bbrMainLog (s : BbrSock M) (rs : RateSample) (clk : Clock) (rands : Rands) : Log :=
  let st := bbrStages k s rs clk rands
  bbrUpdateBwLog k s rs rands.sampling ++ bbrUpdateAckAggregationLog k st.aggregation rs ++
    bbrUpdateCyclePhaseLog k st.cycle rs ++ bbrCheckFullBwReachedLog k st.fullBw rs ++
    bbrCheckDrainLog k st.drain rands.drain ++ bbrUpdateMinRttLog k st.minRtt rs clk rands.probeRtt ++
    bbrUpdateGainsLog st.gains ++ bbrSetPacingRateLog st.pacing ++ bbrSetCwndLog st.window rs.ackedSacked

theorem bbrMain_assigns (s : BbrSock M) (rs : RateSample) (clk : Clock) (rands : Rands) :
    Assigns s (bbrMainLog k s rs clk rands) (bbrMain k s rs clk rands) := by
  have hmodel := (((((bbrUpdateBw_assigns k s rs rands.sampling).append (bbrUpdateAckAggregation_assigns k _ rs)).append
    (bbrUpdateCyclePhase_assigns k _ rs)).append (bbrCheckFullBwReached_assigns k _ rs)).append
    (bbrCheckDrain_assigns k _ rands.drain)).append (bbrUpdateMinRtt_assigns k _ rs clk rands.probeRtt)
  exact ((hmodel.append (bbrUpdateGains_assigns _)).append (bbrSetPacingRate_assigns _ _ _)).append
    (bbrSetCwnd_assigns k _ rs rs.ackedSacked _ _)

def bbrInitLog (s : BbrSock M) : Log :=
  [⟨.prevCaState, 0⟩, ⟨.packetConservation, 0⟩, ⟨.probeRttRoundDone, 0⟩, ⟨.hasSeenRtt, 0⟩] ++
    bbrInitPacingRateFromRttLog s ++
    [⟨.roundStart, 0⟩, ⟨.idleRestart, 0⟩, ⟨.fullBwReached, 0⟩, ⟨.fullBwCnt, 0⟩, ⟨.cycleIdx, 0⟩] ++
    bbrResetLtBwSamplingLog ++ bbrResetStartupModeLog ++
    [⟨.ackEpochAcked, 0⟩, ⟨.extraAckedWinRtts, 0⟩, ⟨.extraAckedWinIdx, 0⟩]

theorem bbrInit_assigns (s : BbrSock M) (now : ℕ) : Assigns s (bbrInitLog s) (bbrInit k s now) := by
  unfold bbrInitLog bbrInitPacingRateFromRttLog
  by_cases hrtt : s.tp.srttUs ≠ 0
  · rw [if_pos hrtt]
    funext f
    cases f
    case hasSeenRtt =>
      show (if s.tp.srttUs ≠ 0 then true else false).toNat = 1
      rw [if_pos hrtt]
      rfl
    all_goals rfl
  · rw [if_neg hrtt]
    funext f
    cases f
    case hasSeenRtt =>
      show (if s.tp.srttUs ≠ 0 then true else false).toNat = 0
      rw [if_neg hrtt]
      rfl
    all_goals rfl

def bbrRestartIdleLog : Log :=
  [⟨.idleRestart, 1⟩, ⟨.ackEpochAcked, 0⟩]

theorem bbrRestartIdle_assigns (s : BbrSock M) : Assigns s bbrRestartIdleLog (bbrRestartIdle s) := by
  funext f
  cases f <;> rfl

def bbrCwndEventLog (s : BbrSock M) (event : CaEvent) (check restart : ℕ) (rand : U32) : Log :=
  if event = .txStart ∧ s.tp.appLimited ≠ 0 then
    bbrRestartIdleLog ++
      let s := bbrRestartIdle s
      if s.ca.mode = .probeBw then bbrSetPacingRateLog s
      else if s.ca.mode = .probeRtt then bbrCheckProbeRttDoneLog s check restart rand
      else []
  else []

theorem bbrCwndEvent_assigns (s : BbrSock M) (event : CaEvent) (check restart : ℕ) (rand : U32) :
    Assigns s (bbrCwndEventLog s event check restart rand) (bbrCwndEvent k s event check restart rand) :=
  .when fun _ => (bbrRestartIdle_assigns s).append <| .ite (fun _ => bbrSetPacingRate_assigns _ _ _) fun _ =>
    .when fun _ => bbrCheckProbeRttDone_assigns _ check restart rand

def bbrUndoCwndLog : Log :=
  ⟨.fullBwCnt, 0⟩ :: bbrResetLtBwSamplingLog

theorem bbrUndoCwnd_assigns (s : BbrSock M) : Assigns s bbrUndoCwndLog (bbrUndoCwnd s).1 := by
  funext f
  cases f <;> rfl

/-- The socket in which a timeout samples the long-term rate. -/
def bbrAtLoss (s : BbrSock M) : BbrSock M :=
  { s with ca := { s.ca with prevCaState := tcpCaLoss.setWidth 3, fullBw := 0, roundStart := true } }

def bbrSetStateLog (s : BbrSock M) (newState : U8) (rand : U32) : Log :=
  if newState = tcpCaLoss then
    [⟨.prevCaState, tcpCaLoss.toNat⟩, ⟨.roundStart, 1⟩] ++ bbrLtBwSamplingLog k (bbrAtLoss s) lossSample rand
  else []

theorem bbrSetState_assigns (s : BbrSock M) (newState : U8) (rand : U32) :
    Assigns s (bbrSetStateLog k s newState rand) (bbrSetState k s newState rand) := by
  apply Logged.when
  intro _
  have hloss : Assigns s [⟨.prevCaState, tcpCaLoss.toNat⟩, ⟨.roundStart, 1⟩] (bbrAtLoss s) := by
    funext f
    cases f <;> rfl
  exact hloss.append (bbrLtBwSampling_assigns k _ lossSample rand)

/-- The assignments of an action. -/
def Action.log (s : BbrSock M) : Action → Log
  | .init _ => bbrInitLog s
  | .kernel _ => []
  | .call (.main rs clk rands) => bbrMainLog k s rs clk rands
  | .call (.cwndEvent event check restart rand) => bbrCwndEventLog s event check restart rand
  | .call .ssthresh => []
  | .call .undoCwnd => bbrUndoCwndLog
  | .call (.setState newState rand) => bbrSetStateLog k s newState rand

/-- **Every action makes the assignments of its log.** -/
theorem acts_assigns {s s' : BbrSock M} {a : Action} (h : Acts k s a s') : Assigns s (a.log k s) s' := by
  unfold Acts at h
  subst h
  cases a with
  | init now => exact bbrInit_assigns k s now
  | kernel tp =>
    funext f
    cases f <;> rfl
  | call c =>
    cases c with
    | main rs clk rands => exact bbrMain_assigns k s rs clk rands
    | cwndEvent event check restart rand => exact bbrCwndEvent_assigns k s event check restart rand
    | ssthresh => exact bbrSaveCwnd_fields s
    | undoCwnd => exact bbrUndoCwnd_assigns s
    | setState newState rand => exact bbrSetState_assigns k s newState rand

end Logs

end CoupledCC.Bbr
