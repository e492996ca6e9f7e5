import CoupledCC.Bbr.Phase
import CoupledCC.Bbr.Fields

/-!
# The counters of BBR never wrap

Every number the code assigns to a bit-field of `struct bbr` fits the field, for random numbers below the bounds they
are drawn with and states of congestion control up to `TCP_CA_Loss`. The two counters that are incremented are reset in
time: `lt_rtt_cnt` by the end of the interval, `full_bw_cnt` by the flag it sets.

- `Bounded`: the invariant of the two counters;
- `…_within`: which fields a function assigns to, and that the numbers fit;
- `counters_fit`: over runs, nothing is lost by the widths of the fields.
-/

namespace CoupledCC.Bbr

open Word Runs Registers

/-- A log assigns to some fields only, and its numbers fit. -/
abbrev Fits (fs : List Field) (log : Log) : Prop :=
  Within Field.width fs log

/-- A random number drawn for the cycle of gains. -/
def RandOk (rand : U32) : Prop :=
  rand < bbrCycleRand

instance (rand : U32) : Decidable (RandOk rand) := by
  unfold RandOk
  infer_instance

/-- The random numbers of an action are those of `prandom_u32_max`, and the kernel writes a state of congestion
control. -/
def Action.FieldsOk : Action → Prop
  | .kernel tp => tp.icskCaState ≤ tcpCaLoss
  | .call (.main _ _ rands) => RandOk rands.sampling ∧ RandOk rands.drain ∧ RandOk rands.probeRtt
  | .call (.cwndEvent _ _ _ rand) => RandOk rand
  | .call (.setState _ rand) => RandOk rand
  | _ => True

instance (a : Action) : Decidable a.FieldsOk := by
  unfold Action.FieldsOk
  split <;> infer_instance

/-- The counters are below the numbers at which they are reset. -/
structure Bounded (v : Field → ℕ) : Prop where
  ltRttCnt : v .ltRttCnt ≤ if v .ltUseBw = 0 then 16 else 47
  fullBwCnt : v .fullBwReached = 0 → v .fullBwCnt ≤ 2

/-- The counters and their flags. -/
def counterFields : List Field :=
  [.ltRttCnt, .ltUseBw, .fullBwCnt, .fullBwReached]

/-- An assignment to other fields. -/
theorem Bounded.frame {v v' : Field → ℕ} (h : Bounded v) (hcnt : v' .ltRttCnt = v .ltRttCnt)
    (huse : v' .ltUseBw = v .ltUseBw)
    (hfull : v' .fullBwCnt = v .fullBwCnt) (hreached : v' .fullBwReached = v .fullBwReached) : Bounded v' := by
  refine ⟨?_, ?_⟩
  · rw [hcnt, huse]
    exact h.ltRttCnt
  · rw [hfull, hreached]
    exact h.fullBwCnt

section Counters

variable {M : Type} {k : Kernel M}

/-- The bound of the rounds by the flag. -/
theorem Bounded.rtts {s : BbrSock M} (h : Bounded s.fields) :
    s.ca.ltRttCnt.toNat ≤ 47 ∧ (s.ca.ltUseBw = false → s.ca.ltRttCnt.toNat ≤ 16) := by
  have hle := h.ltRttCnt
  have hcnt : s.fields .ltRttCnt = s.ca.ltRttCnt.toNat := rfl
  have huse : s.fields .ltUseBw = s.ca.ltUseBw.toNat := rfl
  rw [hcnt, huse] at hle
  refine ⟨?_, fun hfalse => ?_⟩
  · split at hle <;> omega
  · rw [hfalse] at hle
    exact hle

/-- The bound of the low rounds until the pipe is full. -/
theorem Bounded.lowRounds {s : BbrSock M} (h : Bounded s.fields) (hopen : s.ca.fullBwReached = false) :
    s.ca.fullBwCnt.toNat ≤ 2 := by
  apply h.fullBwCnt
  show s.ca.fullBwReached.toNat = 0
  rw [hopen]
  rfl

/-- A step that assigns to none of the counters and their flags keeps the bounds. -/
theorem Bounded.step {s s' : BbrSock M} {fs : List Field} {log : Log} (h : Bounded s.fields) (hstep : Assigns s log s')
    (hlog : Fits fs log) (hother : ∀ f ∈ counterFields, f ∉ fs) : Bounded s'.fields := by
  have hkept (f : Field) (hf : f ∈ counterFields) : s'.fields f = s.fields f := hstep.other hlog (hother f hf)
  exact h.frame (hkept _ (by decide)) (hkept _ (by decide)) (hkept _ (by decide)) (hkept _ (by decide))

/-! ## The cycle of gains -/

theorem bbrAdvanceCyclePhase_within (s : BbrSock M) : Fits [.cycleIdx] (bbrAdvanceCyclePhaseLog s) := by
  have hmask : ((s.ca.cycleIdx.setWidth 32 + 1) &&& (cycleLen - 1)).toNat ≤ 7 := by
    rw [BitVec.toNat_and]
    exact Nat.and_le_right
  exact within_single (Nat.lt_succ_of_le hmask) (by simp)

/-- The cycle begins at one of the phases 1 to 7, and is advanced. -/
theorem bbrResetProbeBwMode_within (s : BbrSock M) {rand : U32} (hrand : RandOk rand) :
    Fits [.mode, .cycleIdx] (bbrResetProbeBwModeLog s rand) := by
  have hdraw : (cycleLen - 1 - rand).toNat < 2 ^ 3 := by
    have hlast : (cycleLen - 1).toNat = 7 := rfl
    have hbound : bbrCycleRand.toNat = 7 := rfl
    unfold RandOk at hrand
    rw [BitVec.lt_def, hbound] at hrand
    rw [BitVec.toNat_sub_of_le (by rw [BitVec.le_def, hlast]; omega), hlast]
    omega
  apply Within.append
  · refine Within.cons ?_ (by decide) (by simp)
    exact within_single hdraw (by simp)
  · exact (bbrAdvanceCyclePhase_within _).mono (by simp)

theorem bbrResetMode_within (s : BbrSock M) {rand : U32} (hrand : RandOk rand) :
    Fits [.mode, .cycleIdx] (bbrResetModeLog s rand) := by
  apply Within.ite
  · intro _
    exact bbrResetProbeBwMode_within s hrand
  · intro _
    exact within_single (by decide) (by simp)

/-! ## Long-term sampling -/

/-- The fields `bbr_lt_bw_sampling` assigns to. -/
def samplingFields : List Field :=
  [.ltRttCnt, .ltUseBw, .ltIsSampling, .pacingGain, .mode, .cycleIdx]

theorem bbrResetLtBwSampling_within : Fits samplingFields bbrResetLtBwSamplingLog := by
  decide

theorem bbrLtBwIntervalDone_within (s : BbrSock M) (bw : U32) :
    Fits samplingFields (bbrLtBwIntervalDoneLog k s bw) := by
  apply Within.ite
  · intro _
    decide
  · intro _
    decide

theorem bbrLtBwMeasure_within (s : BbrSock M) : Fits samplingFields (bbrLtBwMeasureLog k s) :=
  .ite (fun _ => within_nil) fun _ => .ite (fun _ => within_nil) fun _ =>
    .ite (fun _ => bbrResetLtBwSampling_within) fun _ => bbrLtBwIntervalDone_within s _

theorem bbrCountLtRtt_within {s : BbrSock M} (h : s.ca.ltRttCnt.toNat ≤ 47) :
    Fits samplingFields (bbrCountLtRttLog s) := by
  refine within_single ?_ (by simp [samplingFields])
  show s.ca.ltRttCnt.toNat + 1 < 2 ^ 7
  omega

theorem bbrLtBwInUse_within {s : BbrSock M} {rand : U32} (h : s.ca.ltRttCnt.toNat ≤ 47) (hrand : RandOk rand) :
    Fits samplingFields (bbrLtBwInUseLog s rand) :=
  .when fun _ => (bbrCountLtRtt_within h).append <| .when fun _ =>
    bbrResetLtBwSampling_within.append ((bbrResetProbeBwMode_within _ hrand).mono (by simp [samplingFields]))

theorem bbrLtBwSample_within {s : BbrSock M} (h : s.ca.ltRttCnt.toNat ≤ 16) (rs : RateSample) :
    Fits samplingFields (bbrLtBwSampleLog k s rs) :=
  .ite (fun _ => bbrResetLtBwSampling_within) fun _ =>
    (Within.when fun _ => bbrCountLtRtt_within (by omega)).append <| .ite (fun _ => within_nil) fun _ =>
      .ite (fun _ => bbrResetLtBwSampling_within) fun _ => .ite (fun _ => within_nil) fun _ => bbrLtBwMeasure_within _

theorem bbrLtBwSampling_within {s : BbrSock M} (h : Bounded s.fields) (rs : RateSample) {rand : U32}
    (hrand : RandOk rand) : Fits samplingFields (bbrLtBwSamplingLog k s rs rand) := by
  obtain ⟨hlong, hshort⟩ := h.rtts
  have hstart : Fits samplingFields bbrLtBwStartLog := by decide
  exact .ite (fun _ => bbrLtBwInUse_within hlong hrand) fun huse =>
    have hcnt := hshort (Bool.not_eq_true _ ▸ huse)
    .ite (fun _ => bbrLtBwSample_within hcnt rs) fun _ => .ite (fun _ => within_nil) fun _ =>
      hstart.append (bbrLtBwSample_within (s := bbrLtBwStart s) (Nat.zero_le 16) rs)

/-- The counter of rounds after the flag is cleared and the interval reset. -/
theorem bounded_ltReset {v v' : Field → ℕ} (h : Bounded v) (hcnt : v' .ltRttCnt = 0)
    (hfull : v' .fullBwCnt = v .fullBwCnt) (hreached : v' .fullBwReached = v .fullBwReached) : Bounded v' := by
  refine ⟨by rw [hcnt]; exact Nat.zero_le _, ?_⟩
  rw [hfull, hreached]
  exact h.fullBwCnt

theorem bbrLtBwMeasure_bounded {s : BbrSock M} (h : Bounded s.fields) : Bounded (bbrLtBwMeasure k s).fields := by
  have hdone (bw : U32) : Bounded (bbrLtBwIntervalDone k s bw).fields := by
    unfold bbrLtBwIntervalDone
    simp only
    split
    · exact bounded_ltReset h rfl rfl rfl
    · exact bounded_ltReset h rfl rfl rfl
  unfold bbrLtBwMeasure
  simp only
  split
  · exact h
  · split
    · exact h
    · split
      · exact bounded_ltReset h rfl rfl rfl
      · exact hdone _

/-- The counter after one more round. -/
theorem toNat_countLtRtt {s : BbrSock M} (h : s.ca.ltRttCnt.toNat ≤ 47) :
    (bbrCountLtRtt s).ca.ltRttCnt.toNat = s.ca.ltRttCnt.toNat + 1 ∧
      ((bbrCountLtRtt s).ca.ltRttCnt.setWidth 32 : U32).toNat = s.ca.ltRttCnt.toNat + 1 :=
  toNat_succ (x := s.ca.ltRttCnt) (by decide) (by omega)

/-- **A sampling interval** of more than 16 rounds is given up. -/
theorem bbrLtBwSample_bounded {s : BbrSock M} (h : Bounded s.fields) (huse : s.ca.ltUseBw = false) (rs : RateSample) :
    Bounded (bbrLtBwSample k s rs).fields := by
  have hcounted : (bbrLtBwCounted s).ca.ltUseBw = false ∧
      ((bbrLtBwCounted s).ca.ltRttCnt.setWidth 32 : U32).toNat = (bbrLtBwCounted s).ca.ltRttCnt.toNat ∧
      (bbrLtBwCounted s).fields .fullBwCnt = s.fields .fullBwCnt ∧
      (bbrLtBwCounted s).fields .fullBwReached = s.fields .fullBwReached := by
    unfold bbrLtBwCounted
    split
    · exact ⟨huse, BitVec.toNat_setWidth_of_le (by decide), rfl, rfl⟩
    · exact ⟨huse, BitVec.toNat_setWidth_of_le (by decide), rfl, rfl⟩
  obtain ⟨huse₁, hwide, hfull, hreached⟩ := hcounted
  have hlimits : bbrLtIntvlMinRtts.toNat = 4 ∧ (4 * bbrLtIntvlMinRtts).toNat = 16 := ⟨rfl, rfl⟩
  have hfew (hle : (bbrLtBwCounted s).ca.ltRttCnt.toNat ≤ 16) : Bounded (bbrLtBwCounted s).fields := by
    refine ⟨?_, ?_⟩
    · have huse' : (bbrLtBwCounted s).fields .ltUseBw = (bbrLtBwCounted s).ca.ltUseBw.toNat := rfl
      rw [huse', huse₁]
      exact hle
    · rw [hfull, hreached]
      exact h.fullBwCnt
  have hunfold : bbrLtBwSample k s rs =
      if rs.isAppLimited then bbrResetLtBwSampling s
      else if ((bbrLtBwCounted s).ca.ltRttCnt.setWidth 32 : U32) < bbrLtIntvlMinRtts then bbrLtBwCounted s
      else if 4 * bbrLtIntvlMinRtts < ((bbrLtBwCounted s).ca.ltRttCnt.setWidth 32 : U32) then
        bbrResetLtBwSampling (bbrLtBwCounted s)
      else if rs.losses = 0 then bbrLtBwCounted s
      else bbrLtBwMeasure k (bbrLtBwCounted s) := rfl
  rw [hunfold]
  generalize bbrLtBwCounted s = c at huse₁ hwide hfull hreached hfew ⊢
  split
  · exact bounded_ltReset h rfl rfl rfl
  · split
    · rename_i hshort
      rw [BitVec.lt_def, hwide, hlimits.1] at hshort
      exact hfew (by omega)
    · split
      · exact bounded_ltReset h rfl hfull hreached
      · rename_i hlong
        rw [BitVec.lt_def, hlimits.2, hwide] at hlong
        split
        · exact hfew (by omega)
        · exact bbrLtBwMeasure_bounded (hfew (by omega))

/-- **The use of the long-term rate** ends after 48 rounds. -/
theorem bbrLtBwInUse_bounded {s : BbrSock M} (h : Bounded s.fields) (huse : s.ca.ltUseBw = true) (rand : U32) :
    Bounded (bbrLtBwInUse s rand).fields := by
  obtain ⟨hadd, hwide⟩ := toNat_countLtRtt h.rtts.1
  have hlimit : bbrLtBwMaxRtts.toNat = 48 := rfl
  unfold bbrLtBwInUse
  split
  · simp only
    split
    · exact bounded_ltReset h rfl rfl rfl
    · rename_i hfew
      rw [BitVec.le_def, hlimit, hwide] at hfew
      refine ⟨?_, h.fullBwCnt⟩
      have huse' : (bbrCountLtRtt s).fields .ltUseBw = s.ca.ltUseBw.toNat := rfl
      rw [huse', huse]
      show (bbrCountLtRtt s).ca.ltRttCnt.toNat ≤ 47
      omega
  · exact h

theorem bbrLtBwSampling_bounded {s : BbrSock M} (h : Bounded s.fields) (rs : RateSample) (rand : U32) :
    Bounded (bbrLtBwSampling k s rs rand).fields := by
  unfold bbrLtBwSampling
  split
  · rename_i huse
    exact bbrLtBwInUse_bounded h huse rand
  · rename_i huse
    rw [Bool.not_eq_true] at huse
    split
    · exact bbrLtBwSample_bounded h huse rs
    · split
      · exact h
      · exact bbrLtBwSample_bounded (s := bbrLtBwStart s) (bounded_ltReset h rfl rfl rfl) huse rs

/-! ## The other stages of `bbr_main` -/

/-- The fields `bbr_update_bw` assigns to. -/
def bandwidthFields : List Field :=
  .roundStart :: .packetConservation :: samplingFields

theorem bbrUpdateRound_bounded {s : BbrSock M} (h : Bounded s.fields) (rs : RateSample) :
    Bounded (bbrUpdateRound (bbrClearRound s) rs).fields := by
  unfold bbrUpdateRound
  split
  · exact h.frame rfl rfl rfl rfl
  · exact h.frame rfl rfl rfl rfl

theorem bbrUpdateBw_within {s : BbrSock M} (h : Bounded s.fields) (rs : RateSample) {rand : U32} (hrand : RandOk rand) :
    Fits bandwidthFields (bbrUpdateBwLog k s rs rand) := by
  have hround (s : BbrSock M) : Fits bandwidthFields (bbrUpdateRoundLog s rs) := by
    apply Within.ite
    · intro _
      exact within_nil
    · intro _
      decide
  have hbounded := bbrUpdateRound_bounded h rs
  refine Within.cons (.ite (fun _ => within_nil) fun _ => ?_) (by decide) (by decide)
  exact (hround _).append ((bbrLtBwSampling_within hbounded rs hrand).mono (by simp [bandwidthFields]))

theorem bbrUpdateBw_bounded {s : BbrSock M} (h : Bounded s.fields) (rs : RateSample) (rand : U32) :
    Bounded (bbrUpdateBw k s rs rand).fields := by
  have hfilter (s : BbrSock M) (hs : Bounded s.fields) : Bounded (bbrFilterBw k s rs).fields := by
    unfold bbrFilterBw
    simp only
    split
    · exact hs.frame rfl rfl rfl rfl
    · exact hs
  unfold bbrUpdateBw
  simp only
  split
  · exact h.frame rfl rfl rfl rfl
  · exact hfilter _ (bbrLtBwSampling_bounded (bbrUpdateRound_bounded h rs) rs rand)

/-- The fields `bbr_update_ack_aggregation` assigns to. -/
def aggregationFields : List Field :=
  [.ackEpochAcked, .extraAckedWinRtts, .extraAckedWinIdx]

theorem bbrUpdateAckAggregation_within (s : BbrSock M) (rs : RateSample) :
    Fits aggregationFields (bbrUpdateAckAggregationLog k s rs) := by
  have hage (s : BbrSock M) : Fits aggregationFields (bbrAgeExtraAckedLog s) := by
    have hrtts : (bbrAgedRtts s).toNat ≤ 31 := by
      unfold bbrAgedRtts
      rw [toNat_umin]
      exact min_le_left _ _
    refine Within.when fun _ => Within.cons (.when fun _ => ?_) (Nat.lt_succ_of_le hrtts) (by decide)
    exact (within_single (Bool.toNat_lt _) (by decide)).cons (by decide) (by decide)
  have hexpect (s : BbrSock M) : Fits aggregationFields (bbrExpectAckedLog k s rs) :=
    .when fun _ => within_single (by decide) (by decide)
  have hrecord (s : BbrSock M) : Fits aggregationFields (bbrRecordExtraAckedLog s rs) := by
    have hcap : (umin (0xfffff : U32) (s.ca.ackEpochAcked.setWidth 32 + rs.ackedSacked)).toNat ≤ 2 ^ 20 - 1 := by
      rw [toNat_umin]
      exact min_le_left _ _
    exact within_single (Nat.lt_of_le_pred (by decide : 0 < 2 ^ 20) hcap) (by decide)
  exact .ite (fun _ => within_nil) fun _ => ((hage s).append (hexpect _)).append (hrecord _)

theorem bbrUpdateCyclePhase_within (s : BbrSock M) (rs : RateSample) :
    Fits [.cycleIdx] (bbrUpdateCyclePhaseLog k s rs) :=
  .when fun _ => bbrAdvanceCyclePhase_within s

/-- **The count of low rounds** is incremented only while it is at most 2. -/
theorem bbrCheckFullBwReached_within {s : BbrSock M} (h : Bounded s.fields) (rs : RateSample) :
    Fits [.fullBwCnt, .fullBwReached] (bbrCheckFullBwReachedLog k s rs) := by
  refine Within.ite (fun _ => within_nil) fun hgo => Within.ite (fun _ => ?_) fun _ => ?_
  · exact within_single (by decide) (by decide)
  · simp only [not_or, Bool.not_eq_true] at hgo
    have hcnt := h.lowRounds hgo.1
    refine (within_single (Bool.toNat_lt _) (by decide)).cons ?_ (by decide)
    show s.ca.fullBwCnt.toNat + 1 < 2 ^ 2
    omega

theorem bbrCheckFullBwReached_bounded {s : BbrSock M} (h : Bounded s.fields) (rs : RateSample) :
    Bounded (bbrCheckFullBwReached k s rs).fields := by
  unfold bbrCheckFullBwReached
  split
  · exact h
  · rename_i hgo
    simp only [not_or, Bool.not_eq_true] at hgo
    have hcnt := h.lowRounds hgo.1
    obtain ⟨hadd, hwide⟩ := toNat_succ (x := s.ca.fullBwCnt) (by decide) (by omega)
    have hlimit : bbrFullBwCnt.toNat = 3 := rfl
    simp only
    split
    · exact ⟨h.ltRttCnt, fun _ => Nat.zero_le 2⟩
    · refine ⟨h.ltRttCnt, fun hopen => ?_⟩
      have hopen' : (decide (bbrFullBwCnt ≤ (s.ca.fullBwCnt + 1).setWidth 32)).toNat = 0 := hopen
      rw [Bool.toNat_eq_zero, decide_eq_false_iff_not, BitVec.le_def, hlimit, hwide] at hopen'
      show (s.ca.fullBwCnt + 1).toNat ≤ 2
      rw [hadd]
      omega

theorem bbrCheckDrain_within (s : BbrSock M) {rand : U32} (hrand : RandOk rand) :
    Fits [.mode, .cycleIdx] (bbrCheckDrainLog k s rand) := by
  have henter : Fits [.mode, .cycleIdx] (bbrEnterDrainLog s) :=
    .when fun _ => within_single (by decide) (by decide)
  exact henter.append (.when fun _ => bbrResetProbeBwMode_within _ hrand)

/-- The fields `bbr_update_min_rtt` assigns to. -/
def probeFields : List Field :=
  [.mode, .cycleIdx, .probeRttRoundDone, .idleRestart]

theorem bbrCheckProbeRttDone_within (s : BbrSock M) (check restart : ℕ) {rand : U32} (hrand : RandOk rand) :
    Fits probeFields (bbrCheckProbeRttDoneLog s check restart rand) :=
  .when fun _ => (bbrResetMode_within _ hrand).mono (by simp [probeFields])

theorem bbrUpdateMinRtt_within (s : BbrSock M) (rs : RateSample) (clk : Clock) {rand : U32} (hrand : RandOk rand) :
    Fits probeFields (bbrUpdateMinRttLog k s rs clk rand) := by
  have henter (s : BbrSock M) (filterExpired : Bool) : Fits probeFields (bbrEnterProbeRttLog s filterExpired) :=
    .when fun _ => within_single (by decide) (by decide)
  have hhold (s : BbrSock M) : Fits probeFields (bbrHoldProbeRttLog s clk rand) := by
    refine Within.ite (fun _ => within_single (by decide) (by decide)) fun _ => Within.when fun _ => ?_
    refine Within.append (.when fun _ => within_single (by decide) (by decide)) (.when fun _ => ?_)
    exact bbrCheckProbeRttDone_within _ _ _ hrand
  have hend : Fits probeFields (bbrEndIdleRestartLog rs) := .when fun _ => within_single (by decide) (by decide)
  exact ((henter _ _).append (.when fun _ => hhold _)).append hend

theorem bbrUpdateGains_within (s : BbrSock M) : Fits [.pacingGain, .cwndGain] (bbrUpdateGainsLog s) := by
  have hcycle (idx : BitVec 3) : (bbrPacingGain idx).toNat < 2 ^ 10 := by
    revert idx
    decide
  have hgains : (bbrGains s.ca).1.toNat < 2 ^ 10 ∧ (bbrGains s.ca).2.toNat < 2 ^ 10 := by
    unfold bbrGains
    split
    · decide
    · decide
    · refine ⟨?_, show bbrCwndGain.toNat < 2 ^ 10 by decide⟩
      simp only
      split
      · decide
      · exact hcycle _
    · decide
  refine Within.cons ?_ hgains.1 (by decide)
  exact within_single hgains.2 (by decide)

theorem bbrSetPacingRate_within (s : BbrSock M) : Fits [.hasSeenRtt] (bbrSetPacingRateLog s) :=
  .when fun _ => .when fun _ => within_single (by decide) (by decide)

theorem bbrSetCwnd_within {s : BbrSock M} (h : s.tp.icskCaState ≤ tcpCaLoss) (acked : U32) :
    Fits [.packetConservation, .prevCaState] (bbrSetCwndLog s acked) := by
  have hstate : s.tp.icskCaState.toNat < 2 ^ 3 := by
    have hloss : tcpCaLoss.toNat = 4 := rfl
    rw [BitVec.le_def, hloss] at h
    omega
  have hrecover : Fits [.packetConservation, .prevCaState] (bbrRecoverOrRestoreLog s) :=
    .ite (fun _ => within_single (by decide) (by decide)) fun _ => .when fun _ => within_single (by decide) (by decide)
  exact .ite (fun _ => within_nil) fun _ => hrecover.append (within_single hstate (by decide))

/-! ## Callbacks -/

/-- The kernel's state of congestion control when the window is set. -/
theorem bbrStages_icskCaState (s : BbrSock M) (rs : RateSample) (clk : Clock) (rands : Rands) :
    (bbrStages k s rs clk rands).window.tp.icskCaState = s.tp.icskCaState := by
  obtain ⟨round, full, mode, -, -, henter⟩ := bbrAtProbeRtt_phase (k := k) s rs clk rands
  have hprobes := bbrInProbeRtt_phase (k := k) (bbrAtProbeRtt k s rs clk rands) clk rands.probeRtt
  have hstart : (bbrAtProbeRtt k s rs clk rands).phase.icskCaState = s.phase.icskCaState := by
    rcases henter with heq | ⟨-, heq⟩
    · rw [heq]
    · rw [heq]
      rfl
  have hkeep (p p' : Phase) (h : Probes ((k.msecsToJiffies bbrProbeRttModeMs).setWidth 32) clk p p') :
      p'.icskCaState = p.icskCaState := by
    cases h <;> rfl
  have hrest (s₁ : BbrSock M) (gain : BbrSock M → U64) :
      (bbrSetPacingRate (bbrUpdateGains (bbrEndIdleRestart s₁ rs))
        (bbrBw k (bbrUpdateGains (bbrEndIdleRestart s₁ rs))) (gain (bbrUpdateGains (bbrEndIdleRestart s₁ rs)))).phase =
          s₁.phase := by
    rw [bbrSetPacingRate_phase, bbrUpdateGains_phase, bbrEndIdleRestart_phase]
  have hwindow := congrArg Phase.icskCaState (hrest
    (bbrInProbeRtt k (bbrAtProbeRtt k s rs clk rands) clk rands.probeRtt) fun s => s.ca.pacingGain.setWidth 64)
  exact hwindow.trans ((hkeep _ _ hprobes).trans hstart)

/-- **`bbr_main`.** -/
theorem bbrMain_fits {s : BbrSock M} (h : Bounded s.fields) (hstate : s.tp.icskCaState ≤ tcpCaLoss) (rs : RateSample)
    (clk : Clock) {rands : Rands} (hsampling : RandOk rands.sampling) (hdrain : RandOk rands.drain)
    (hprobe : RandOk rands.probeRtt) :
    AllFit Field.width (bbrMainLog k s rs clk rands) ∧ Bounded (bbrMain k s rs clk rands).fields := by
  have hbw := bbrUpdateBw_within (k := k) h rs hsampling
  have h₁ : Bounded (bbrStages k s rs clk rands).aggregation.fields := bbrUpdateBw_bounded h rs rands.sampling
  have hagg := bbrUpdateAckAggregation_within (k := k) (bbrStages k s rs clk rands).aggregation rs
  have h₂ : Bounded (bbrStages k s rs clk rands).cycle.fields :=
    h₁.step (bbrUpdateAckAggregation_assigns k _ rs) hagg (by decide)
  have hcycle := bbrUpdateCyclePhase_within (k := k) (bbrStages k s rs clk rands).cycle rs
  have h₃ : Bounded (bbrStages k s rs clk rands).fullBw.fields :=
    h₂.step (bbrUpdateCyclePhase_assigns k _ rs) hcycle (by decide)
  have hfull := bbrCheckFullBwReached_within (k := k) h₃ rs
  have h₄ : Bounded (bbrStages k s rs clk rands).drain.fields := bbrCheckFullBwReached_bounded h₃ rs
  have hdrains := bbrCheckDrain_within (k := k) (bbrStages k s rs clk rands).drain hdrain
  have h₅ : Bounded (bbrStages k s rs clk rands).minRtt.fields := by
    rw [bbrStages_minRtt]
    exact h₄.step (bbrCheckDrain_assigns k _ rands.drain) hdrains (by decide)
  have hmin := bbrUpdateMinRtt_within (k := k) (bbrStages k s rs clk rands).minRtt rs clk hprobe
  have h₆ : Bounded (bbrStages k s rs clk rands).gains.fields := by
    rw [bbrStages_gains]
    exact h₅.step (bbrUpdateMinRtt_assigns k _ rs clk rands.probeRtt) hmin (by decide)
  have hgains := bbrUpdateGains_within (bbrStages k s rs clk rands).gains
  have h₇ : Bounded (bbrStages k s rs clk rands).pacing.fields :=
    h₆.step (bbrUpdateGains_assigns _) hgains (by decide)
  have hpacing := bbrSetPacingRate_within (bbrStages k s rs clk rands).pacing
  have h₈ : Bounded (bbrStages k s rs clk rands).window.fields :=
    h₇.step (bbrSetPacingRate_assigns _ _ _) hpacing (by decide)
  have hwindow := bbrSetCwnd_within (s := (bbrStages k s rs clk rands).window)
    (by rw [bbrStages_icskCaState]; exact hstate) rs.ackedSacked
  refine ⟨?_, h₈.step (bbrSetCwnd_assigns k _ rs rs.ackedSacked _ _) hwindow (by decide)⟩
  exact (((((((hbw.allFit.append hagg.allFit).append hcycle.allFit).append hfull.allFit).append hdrains.allFit).append
    hmin.allFit).append hgains.allFit).append hpacing.allFit).append hwindow.allFit

/-- `bbr_init` sets every field but the gains. -/
theorem bbrInit_fits (s : BbrSock M) (now : ℕ) :
    AllFit Field.width (bbrInitLog s) ∧ Bounded (bbrInit k s now).fields := by
  refine ⟨?_, Nat.zero_le _, fun _ => Nat.zero_le _⟩
  have hrtt : Fits [.hasSeenRtt] (bbrInitPacingRateFromRttLog s) :=
    .when fun _ => within_single (by decide) (by decide)
  have hstart : AllFit Field.width
      [⟨.prevCaState, 0⟩, ⟨.packetConservation, 0⟩, ⟨.probeRttRoundDone, 0⟩, ⟨.hasSeenRtt, 0⟩] := by
    unfold AllFit
    decide
  have hrest : AllFit Field.width (([⟨.roundStart, 0⟩, ⟨.idleRestart, 0⟩, ⟨.fullBwReached, 0⟩, ⟨.fullBwCnt, 0⟩,
    ⟨.cycleIdx, 0⟩] ++
      bbrResetLtBwSamplingLog ++ bbrResetStartupModeLog) ++
      [⟨.ackEpochAcked, 0⟩, ⟨.extraAckedWinRtts, 0⟩, ⟨.extraAckedWinIdx, 0⟩]) := by
    unfold AllFit
    decide
  have hall := (hstart.append hrtt.allFit).append hrest
  simp only [bbrInitLog, List.append_assoc] at hall ⊢
  exact hall

theorem bbrCwndEvent_fits {s : BbrSock M} (h : Bounded s.fields) (event : CaEvent) (check restart : ℕ) {rand : U32}
    (hrand : RandOk rand) :
    AllFit Field.width (bbrCwndEventLog s event check restart rand) ∧
      Bounded (bbrCwndEvent k s event check restart rand).fields := by
  have hlog : Fits (.ackEpochAcked :: .hasSeenRtt :: probeFields) (bbrCwndEventLog s event check restart rand) := by
    have hidle : Fits (.ackEpochAcked :: .hasSeenRtt :: probeFields) bbrRestartIdleLog := by decide
    refine .when fun _ => hidle.append (.ite (fun _ => ?_) fun _ => .when fun _ => ?_)
    · exact (bbrSetPacingRate_within _).mono (by simp)
    · exact (bbrCheckProbeRttDone_within _ check restart hrand).mono (by simp)
  exact ⟨hlog.allFit, h.step (bbrCwndEvent_assigns k s event check restart rand) hlog (by decide)⟩

theorem bbrSetState_fits {s : BbrSock M} (h : Bounded s.fields) (newState : U8) {rand : U32} (hrand : RandOk rand) :
    AllFit Field.width (bbrSetStateLog k s newState rand) ∧ Bounded (bbrSetState k s newState rand).fields := by
  have hloss : Bounded (bbrAtLoss s).fields := h.frame rfl rfl rfl rfl
  constructor
  · have hlog : Fits (.prevCaState :: .roundStart :: samplingFields) (bbrSetStateLog k s newState rand) := by
      have hstart : Fits (.prevCaState :: .roundStart :: samplingFields)
          [⟨.prevCaState, tcpCaLoss.toNat⟩, ⟨.roundStart, 1⟩] := by
        decide
      exact .when fun _ => hstart.append ((bbrLtBwSampling_within hloss lossSample hrand).mono (by simp))
    exact hlog.allFit
  · unfold bbrSetState
    split
    · exact bbrLtBwSampling_bounded hloss lossSample rand
    · exact h

/-! ## Runs -/

/-- The invariant of the runs. -/
structure FieldsInv (s : BbrSock M) : Prop where
  bounded : Bounded s.fields
  state : s.tp.icskCaState ≤ tcpCaLoss

/-- The callbacks do not write the state of congestion control. -/
theorem acts_icskCaState {s s' : BbrSock M} {a : Action} (ha : Acts k s a s') (h : s.tp.icskCaState ≤ tcpCaLoss)
    (hok : a.FieldsOk) : s'.tp.icskCaState ≤ tcpCaLoss := by
  unfold Acts at ha
  subst ha
  cases a with
  | init now => exact h
  | kernel tp => exact hok
  | call c =>
    have hsame : (c.run k s).phase.icskCaState = s.phase.icskCaState := by
      cases c with
      | main rs clk rands =>
        have hstages := bbrStages_icskCaState (k := k) s rs clk rands
        obtain ⟨cwnd, prev, hset, -⟩ := bbrSetCwnd_phase (k := k) (bbrStages k s rs clk rands).window rs rs.ackedSacked
          (bbrBw k (bbrStages k s rs clk rands).pacing) ((bbrStages k s rs clk rands).window.ca.cwndGain.setWidth 64)
        exact (congrArg Phase.icskCaState hset).trans hstages
      | cwndEvent event check restart rand =>
        rcases bbrCwndEvent_phase (k := k) s event check restart rand with heq | ⟨-, -, heq⟩
        · exact congrArg Phase.icskCaState heq
        · have hleave := congrArg Phase.icskCaState heq
          exact hleave
      | ssthresh =>
        obtain ⟨prior, heq⟩ := bbrSaveCwnd_phase s
        have hsave := congrArg Phase.icskCaState heq
        exact hsave
      | undoCwnd => rfl
      | setState newState rand =>
        show (bbrSetState k s newState rand).phase.icskCaState = s.phase.icskCaState
        unfold bbrSetState
        split
        · rw [bbrLtBwSampling_phase]
          rfl
        · rfl
    have hsame' : (c.run k s).tp.icskCaState = s.tp.icskCaState := hsame
    show (c.run k s).tp.icskCaState ≤ tcpCaLoss
    rw [hsame']
    exact h

/-- **One action.** Its numbers fit, and the bounds are kept. -/
theorem acts_fit {s s' : BbrSock M} {a : Action} (h : FieldsInv s) (ha : Acts k s a s') (hok : a.FieldsOk) :
    AllFit Field.width (a.log k s) ∧ FieldsInv s' := by
  have hstate := acts_icskCaState ha h.state hok
  unfold Acts at ha
  subst ha
  cases a with
  | init now =>
    obtain ⟨hfit, hbounded⟩ := bbrInit_fits (k := k) s now
    exact ⟨hfit, hbounded, hstate⟩
  | kernel tp => exact ⟨allFit_nil, h.bounded, hstate⟩
  | call c =>
    cases c with
    | main rs clk rands =>
      obtain ⟨hsampling, hdrain, hprobe⟩ := hok
      obtain ⟨hfit, hbounded⟩ := bbrMain_fits (k := k) h.bounded h.state rs clk hsampling hdrain hprobe
      exact ⟨hfit, hbounded, hstate⟩
    | cwndEvent event check restart rand =>
      obtain ⟨hfit, hbounded⟩ := bbrCwndEvent_fits (k := k) h.bounded event check restart hok
      exact ⟨hfit, hbounded, hstate⟩
    | ssthresh =>
      refine ⟨allFit_nil, ?_, hstate⟩
      show Bounded (bbrSaveCwnd s).fields
      rw [bbrSaveCwnd_fields]
      exact h.bounded
    | undoCwnd =>
      refine ⟨?_, ⟨Nat.zero_le _, fun _ => Nat.zero_le _⟩, hstate⟩
      show AllFit Field.width bbrUndoCwndLog
      unfold AllFit
      decide
    | setState newState rand =>
      obtain ⟨hfit, hbounded⟩ := bbrSetState_fits (k := k) h.bounded newState hok
      exact ⟨hfit, hbounded, hstate⟩

/-- **The counters of BBR never wrap.** In a run from `bbr_init` every number an action assigns to a bit-field fits, so
that the fields are those of unbounded ones; after it `lt_rtt_cnt` is at most 16, or 47 while `lt_bw` is used,
`full_bw_cnt` is at most 3, and at most 2 until the pipe is full, and `cycle_idx` is a phase of the cycle. -/
theorem counters_fit {s₀ s s' : BbrSock M} {now : ℕ} {a : Action} {tr : List (Transition (BbrSock M) Action)}
    (hstart : s₀.tp.icskCaState ≤ tcpCaLoss)
    (hrun : Trace (fun s a s' => Acts k s a s' ∧ a.FieldsOk) (bbrInit k s₀ now) tr s) (hstep : Acts k s a s')
    (hok : a.FieldsOk) :
    AllFit Field.width (a.log k s) ∧ s'.fields = assigns s.fields (a.log k s) ∧
      s'.ca.ltRttCnt.toNat ≤ (if s'.ca.ltUseBw then 47 else 16) ∧
      s'.ca.fullBwCnt.toNat ≤ (if s'.ca.fullBwReached then 3 else 2) ∧ s'.ca.cycleIdx.toNat < cycleLen.toNat := by
  have hinit : FieldsInv (bbrInit k s₀ now) := ⟨(bbrInit_fits s₀ now).2, hstart⟩
  have hinv : FieldsInv s := hrun.invariant (fun _ _ _ h hs => (acts_fit h hs.1 hs.2).2) hinit
  obtain ⟨hfit, hbounded, -⟩ := acts_fit hinv hstep hok
  refine ⟨hfit, ?_, ?_, ?_, s'.ca.cycleIdx.isLt⟩
  · rw [← stores_eq_assigns hfit]
    exact acts_assigns k hstep
  · obtain ⟨hlong, hshort⟩ := hbounded.rtts
    split
    · exact hlong
    · rename_i huse
      exact hshort (Bool.not_eq_true _ ▸ huse)
  · split
    · have hlt := s'.ca.fullBwCnt.isLt
      omega
    · rename_i hopen
      exact hbounded.lowRounds (Bool.not_eq_true _ ▸ hopen)

/-- Three rounds without growth, and the fourth one: its numbers fit, and the count of low rounds is 3. -/
theorem counters_fit_four :
    ∃ tr s a s', Trace (fun s (a : Action) s' => Acts plainKernel s a s' ∧ a.FieldsOk)
        (bbrInit plainKernel (plainSock 10 100) 1000) tr s ∧ Acts plainKernel s a s' ∧ s'.ca.fullBwCnt = 3 ∧
      AllFit Field.width (a.log plainKernel s) ∧ s'.fields = assigns s.fields (a.log plainKernel s) ∧
      s'.ca.ltRttCnt.toNat ≤ (if s'.ca.ltUseBw then 47 else 16) ∧
      s'.ca.fullBwCnt.toNat ≤ (if s'.ca.fullBwReached then 3 else 2) ∧ s'.ca.cycleIdx.toNat < cycleLen.toNat := by
  obtain ⟨ack, hack⟩ : ∃ a : Action, a = .call (.main ⟨20, 10, 1000, 1000, 0, 10, 10, false, false⟩
      ⟨1001, 1001, 1001, 1001, 1001⟩ ⟨0, 0, 0⟩) := ⟨_, rfl⟩
  have hok : ack.FieldsOk := by
    rw [hack]
    decide
  have hrun : (transitions (fun s (a : Action) => if a.FieldsOk then some (a.run plainKernel s) else none)
      (bbrInit plainKernel (plainSock 10 100) 1000) (List.replicate 3 ack)).map
        (fun p => (ack.run plainKernel p.2).ca.fullBwCnt) = some 3 := by
    rw [hack]
    decide +kernel
  obtain ⟨⟨tr, s⟩, htr, hcnt⟩ := Option.map_eq_some_iff.mp hrun
  have hguarded : Trace (fun s (a : Action) s' => some (a.run plainKernel s) = some s' ∧ a.FieldsOk)
      (bbrInit plainKernel (plainSock 10 100) 1000) tr s := Trace.of_guarded htr
  have htrace : Trace (fun s (a : Action) s' => Acts plainKernel s a s' ∧ a.FieldsOk)
      (bbrInit plainKernel (plainSock 10 100) 1000) tr s := hguarded.mono fun _ _ _ h => ⟨Option.some.inj h.1, h.2⟩
  exact ⟨tr, s, ack, ack.run plainKernel s, htrace, rfl, hcnt, counters_fit (by decide) htrace rfl hok⟩

end Counters

end CoupledCC.Bbr
