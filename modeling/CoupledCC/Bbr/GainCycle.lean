import CoupledCC.Bbr.LongTerm
import CoupledCC.Bbr.MinRtt
import CoupledCC.Bbr.Counters

/-!
# The gain cycle of BBR

In `BBR_PROBE_BW` the pacing gain cycles through eight phases: the first probes for bandwidth, the second drains the
queue this has built, the others cruise. An observer notes the phases since the cycle was started (`notePhase`), and one
whether there was an ACK since `bbr_init` (`noteAcked`).

- `phases_in_order`: from its start on the cycle takes one phase after the other, and it never starts with the draining
  one;
- `pacing_above_only`: BBR paces faster than its estimate only in `BBR_STARTUP` and in the probing phase, and slower
  only in `BBR_DRAIN` and in the draining phase, never while a long-term bandwidth is used.
-/

namespace CoupledCC.Bbr

open Word Runs

variable {M : Type} {k : Kernel M}

/-! ## The start of the cycle -/

@[simp] theorem bbrAdvanceCyclePhase_cycleIdx (s : BbrSock M) :
    (bbrAdvanceCyclePhase s).ca.cycleIdx = s.ca.cycleIdx + 1 := by
  apply BitVec.eq_of_toNat_eq
  have hlast : (cycleLen - 1 : U32).toNat = 2 ^ 3 - 1 := rfl
  show (((s.ca.cycleIdx.setWidth 32 + 1) &&& (cycleLen - 1)).setWidth 3).toNat = (s.ca.cycleIdx + 1).toNat
  rw [BitVec.toNat_setWidth, BitVec.toNat_and, hlast, Nat.and_two_pow_sub_one_eq_mod, BitVec.toNat_add,
    BitVec.toNat_add,
    BitVec.toNat_setWidth]
  simp

/-- **The cycle never starts with the draining phase.** -/
theorem bbrResetProbeBwMode_cycleIdx (s : BbrSock M) {rand : U32} (hrand : RandOk rand) :
    (bbrResetProbeBwMode s rand).ca.cycleIdx ≠ 1 := by
  have hbound : bbrCycleRand.toNat = 7 := rfl
  have hlast : (cycleLen - 1 : U32).toNat = 7 := rfl
  unfold RandOk at hrand
  rw [BitVec.lt_def, hbound] at hrand
  rw [bbrResetProbeBwMode, bbrAdvanceCyclePhase_cycleIdx]
  intro h
  have hdraw : ((cycleLen - 1 - rand).setWidth 3 : BitVec 3).toNat = 7 - rand.toNat := by
    rw [BitVec.toNat_setWidth, BitVec.toNat_sub_of_le (by rw [BitVec.le_def, hlast]; omega), hlast]
    omega
  have hnat := congrArg BitVec.toNat h
  rw [BitVec.toNat_add, hdraw] at hnat
  simp at hnat
  omega

theorem bbrResetMode_cycleIdx (s : BbrSock M) {rand : U32} (hrand : RandOk rand)
    (hmode : (bbrResetMode s rand).ca.mode = .probeBw) : (bbrResetMode s rand).ca.cycleIdx ≠ 1 := by
  unfold bbrResetMode at hmode ⊢
  split at hmode
  · rename_i hfull
    rw [if_pos hfull]
    exact bbrResetProbeBwMode_cycleIdx s hrand
  · cases hmode

/-! ## What long-term sampling does to it -/

/-- The cycle is restarted when a long-term bandwidth is given up. -/
theorem bbrLtBwSampling_cycle (s : BbrSock M) (rs : RateSample) (rand : U32) :
    ((bbrLtBwSampling k s rs rand).cycle = s.cycle ∧
        (s.ca.ltUseBw = true → (bbrLtBwSampling k s rs rand).ca.ltUseBw = true)) ∨
      ((bbrLtBwSampling k s rs rand).cycle = (bbrResetProbeBwMode s rand).cycle ∧ s.ca.mode = .probeBw ∧
        s.ca.ltUseBw = true ∧ (bbrLtBwSampling k s rs rand).ca.ltUseBw = false ∧
        (bbrLtBwSampling k s rs rand).ca.pacingGain = s.ca.pacingGain) := by
  by_cases huse : s.ca.ltUseBw = true
  · have hcall : bbrLtBwSampling k s rs rand = bbrLtBwInUse s rand := by rw [bbrLtBwSampling, if_pos huse]
    rw [hcall]
    unfold bbrLtBwInUse
    split
    · rename_i hprobe
      simp only
      split
      · exact .inr ⟨rfl, hprobe.1, huse, rfl, rfl⟩
      · exact .inl ⟨rfl, fun _ => huse⟩
    · exact .inl ⟨rfl, fun _ => huse⟩
  · obtain ⟨l, c, h, hc⟩ := bbrLtBwSampling_frame (k := k) s rs rand
    rcases hc with rfl | ⟨-, -, hin, -⟩
    · refine .inl ⟨?_, fun hin => absurd hin huse⟩
      rw [h]
      rfl
    · exact absurd hin huse

/-- The pacing gain is that of cruising, or as before, while the use of a long-term bandwidth has not changed. -/
def Tunes (s s' : BbrSock M) : Prop :=
  (s'.ca.ltUseBw = true ∧ s'.ca.pacingGain = bbrUnit.setWidth 10) ∨
    (s'.ca.ltUseBw = s.ca.ltUseBw ∧ s'.ca.pacingGain = s.ca.pacingGain)

theorem bbrLtBwSample_tunes {s : BbrSock M} (rs : RateSample) (huse : s.ca.ltUseBw = false) :
    Tunes s (bbrLtBwSample k s rs) := by
  have hmeasure (s : BbrSock M) (huse : s.ca.ltUseBw = false) : Tunes s (bbrLtBwMeasure k s) := by
    have hdone (bw : U32) : Tunes s (bbrLtBwIntervalDone k s bw) := by
      unfold bbrLtBwIntervalDone
      simp only
      split
      · exact .inl ⟨rfl, rfl⟩
      · exact .inr ⟨rfl, rfl⟩
    unfold bbrLtBwMeasure
    simp only
    split
    · exact .inr ⟨rfl, rfl⟩
    · split
      · exact .inr ⟨rfl, rfl⟩
      · split
        · exact .inr ⟨huse.symm, rfl⟩
        · exact hdone _
  unfold bbrLtBwSample
  split
  · exact .inr ⟨huse.symm, rfl⟩
  · obtain ⟨cnt, hcnt⟩ : ∃ cnt, (if s.ca.roundStart then bbrCountLtRtt s else s) =
        { s with ca := { s.ca with ltRttCnt := cnt } } := by
      split
      · exact ⟨_, rfl⟩
      · exact ⟨s.ca.ltRttCnt, rfl⟩
    simp only
    rw [hcnt]
    split
    · exact .inr ⟨rfl, rfl⟩
    · split
      · exact .inr ⟨huse.symm, rfl⟩
      · split
        · exact .inr ⟨rfl, rfl⟩
        · exact hmeasure { s with ca := { s.ca with ltRttCnt := cnt } } huse

theorem bbrLtBwSampling_tunes {s : BbrSock M} (rs : RateSample) (rand : U32) (huse : s.ca.ltUseBw = false) :
    Tunes s (bbrLtBwSampling k s rs rand) := by
  unfold bbrLtBwSampling
  rw [if_neg (by simp [huse])]
  split
  · exact bbrLtBwSample_tunes rs huse
  · split
    · exact .inr ⟨rfl, rfl⟩
    · exact bbrLtBwSample_tunes
        (s := { s with ca := { (bbrResetLtBwSamplingInterval s).ca with ltIsSampling := true } }) rs
        huse

/-! ## The pacing gain -/

/-- The pacing gain is the one of the state, or that of cruising. -/
def GainOk (s : BbrSock M) : Prop :=
  s.ca.pacingGain = (bbrGains s.ca).1.setWidth 10 ∨ s.ca.pacingGain = bbrUnit.setWidth 10

/-- An ACK sets the gain of the state it leaves. -/
theorem bbrMain_gainOk (s : BbrSock M) (rs : RateSample) (clk : Clock) (rands : Rands) :
    GainOk (bbrMain k s rs clk rands) := by
  obtain ⟨rate, cwnd, idle, seen, conservation, next, prev, h⟩ := bbrAfterProbeRtt_frame (k := k)
    (bbrInProbeRtt k (bbrAtProbeRtt k s rs clk rands) clk rands.probeRtt) rs
  rw [bbrMain_eq, h]
  exact .inl rfl

/-- While a long-term bandwidth is used the gain of `BBR_PROBE_BW` is that of cruising. -/
theorem GainOk.cruises {s : BbrSock M} (h : GainOk s) (hmode : s.ca.mode = .probeBw) (huse : s.ca.ltUseBw = true) :
    s.ca.pacingGain = bbrUnit.setWidth 10 := by
  rcases h with h | h
  · rw [h, bbrGains, hmode]
    simp only
    rw [if_pos huse]
  · exact h

/-- The gain of a state depends on three fields. -/
theorem bbrGains_congr {s s' : BbrSock M} (hcycle : s'.cycle = s.cycle) (huse : s'.ca.ltUseBw = s.ca.ltUseBw) :
    (bbrGains s'.ca).1 = (bbrGains s.ca).1 := by
  obtain ⟨hmode, hidx, -⟩ := Cycle.mk.inj hcycle
  rw [bbrGains, bbrGains, hmode, hidx, huse]

theorem GainOk.congr {s s' : BbrSock M} (h : GainOk s) (hcycle : s'.cycle = s.cycle)
    (huse : s'.ca.ltUseBw = s.ca.ltUseBw) (hgain : s'.ca.pacingGain = s.ca.pacingGain) : GainOk s' := by
  unfold GainOk
  rw [bbrGains_congr hcycle huse, hgain]
  exact h

/-- A call of `bbr_lt_bw_sampling` keeps the gain. -/
theorem bbrLtBwSampling_gainOk {s : BbrSock M} (h : GainOk s) (rs : RateSample) (rand : U32) :
    GainOk (bbrLtBwSampling k s rs rand) := by
  by_cases huse : s.ca.ltUseBw = true
  · have hgain : (bbrLtBwSampling k s rs rand).ca.pacingGain = s.ca.pacingGain := by
      rw [bbrLtBwSampling, if_pos huse, bbrLtBwInUse]
      split
      · simp only
        split <;> rfl
      · rfl
    rcases bbrLtBwSampling_cycle (k := k) s rs rand with ⟨hcycle, hkept⟩ | ⟨-, hprobe, -, -, -⟩
    · exact h.congr hcycle ((hkept huse).trans huse.symm) hgain
    · exact .inr (hgain.trans (h.cruises hprobe huse))
  · rw [Bool.not_eq_true] at huse
    rcases bbrLtBwSampling_tunes (k := k) rs rand huse with ⟨-, hgain⟩ | ⟨hsame, hgain⟩
    · exact .inr hgain
    · rcases bbrLtBwSampling_cycle (k := k) s rs rand with ⟨hcycle, -⟩ | ⟨-, -, hin, -, -⟩
      · exact h.congr hcycle hsame hgain
      · exact absurd (huse.symm.trans hin) Bool.false_ne_true

/-- There was an ACK since `bbr_init`. -/
def noteAcked (n : Bool) : Transition (BbrSock M) Action → Bool
  | (_, .init _, _) => false
  | (_, .call (.main _ _ _), _) => true
  | _ => n

/-- Every mode but the first one is entered by an ACK, and then the gain is right. -/
structure Geared (n : Bool) (s : BbrSock M) : Prop where
  started : s.ca.mode ≠ .startup → n = true
  gain : n = true → GainOk s

theorem acts_geared {n : Bool} {s s' : BbrSock M} {a : Action} (h : Geared n s) (hstep : Acts k s a s') :
    Geared (noteAcked n (s, a, s')) s' := by
  cases hstep
  cases a with
  | init now => exact ⟨fun hmode => absurd (bbrInit_mode s now) hmode, fun hno => (by cases hno)⟩
  | kernel tp => exact ⟨h.started, h.gain⟩
  | call c =>
    cases c with
    | main rs clk rands => exact ⟨fun _ => rfl, fun _ => bbrMain_gainOk s rs clk rands⟩
    | cwndEvent event check restart rand =>
      show Geared n (bbrCwndEvent k s event check restart rand)
      unfold bbrCwndEvent
      split
      · simp only
        split
        · obtain ⟨rate, seen, hpacing⟩ := bbrSetPacingRate_frame (bbrRestartIdle s) (bbrBw k (bbrRestartIdle s)) bbrUnit
          rw [hpacing]
          exact ⟨h.started, h.gain⟩
        · split
          · rename_i hprobe
            have hacked : n = true := h.started fun hs => by
              rw [show (bbrRestartIdle s).ca.mode = s.ca.mode from rfl, hs] at hprobe
              cases hprobe
            have hgain : s.ca.pacingGain = bbrUnit.setWidth 10 := by
              rcases h.gain hacked with hgain | hgain
              · rw [hgain, bbrGains, show s.ca.mode = .probeRtt from hprobe]
              · exact hgain
            obtain ⟨c, stamp, cwnd, hdone, -⟩ := bbrCheckProbeRttDone_frame (bbrRestartIdle s) check restart rand
            rw [hdone]
            exact ⟨fun _ => hacked, fun _ => .inr hgain⟩
          · exact ⟨h.started, h.gain⟩
      · exact h
    | ssthresh =>
      show Geared n (bbrSaveCwnd s)
      unfold bbrSaveCwnd
      split <;> exact ⟨h.started, h.gain⟩
    | undoCwnd =>
      refine ⟨h.started, fun hacked => ?_⟩
      by_cases huse : s.ca.ltUseBw = true
      · by_cases hmode : s.ca.mode = .probeBw
        · exact .inr ((h.gain hacked).cruises hmode huse)
        · rcases h.gain hacked with hgain | hgain
          · refine .inl (hgain.trans ?_)
            show _ = (bbrGains (bbrUndoCwnd s).1.ca).1.setWidth 10
            rw [bbrGains, bbrGains, show (bbrUndoCwnd s).1.ca.mode = s.ca.mode from rfl]
            cases hm : s.ca.mode with
            | probeBw => exact absurd hm hmode
            | _ => rfl
          · exact .inr hgain
      · rw [Bool.not_eq_true] at huse
        exact (h.gain hacked).congr rfl huse.symm rfl
    | setState newState rand =>
      show Geared n (bbrSetState k s newState rand)
      unfold bbrSetState
      split
      · generalize hs₁ : BbrSock.mk s.tp _ = s₁
        have hmode₁ : s₁.ca.mode = s.ca.mode := by rw [← hs₁]
        have hgain₁ (hgain : GainOk s) : GainOk s₁ := by
          subst hs₁
          exact hgain.congr rfl rfl rfl
        refine ⟨fun hmode => ?_, fun hacked => bbrLtBwSampling_gainOk (hgain₁ (h.gain hacked)) _ _⟩
        rcases bbrLtBwSampling_cycle (k := k) s₁ lossSample rand with ⟨hcycle, -⟩ | ⟨-, hprobe, -⟩
        · refine h.started fun hs => hmode ?_
          exact (congrArg Cycle.mode hcycle).trans (hmode₁.trans hs)
        · refine h.started fun hs => ?_
          rw [hmode₁, hs] at hprobe
          cases hprobe
      · exact h

theorem trace_geared {s₀ s : BbrSock M} {now : ℕ} {tr : List (Transition (BbrSock M) Action)}
    (hrun : Trace (Acts k) (bbrInit k s₀ now) tr s) : Geared (history noteAcked false tr) s :=
  hrun.history_invariant (J := fun n s => Geared n s) (fun _ _ _ _ h hs => acts_geared h hs) _
    ⟨fun hmode => absurd (bbrInit_mode s₀ now) hmode, fun hno => (by cases hno)⟩

/-- **When BBR paces faster or slower than its estimate.** In every state of a run from `bbr_init` after the first ACK,
a pacing gain above one is that of `BBR_STARTUP` or of the probing phase of the gain cycle, and one below is that of
`BBR_DRAIN` or of the draining phase; in the cycle only while no long-term bandwidth is used. -/
theorem pacing_above_only {s₀ s : BbrSock M} {now : ℕ} {tr : List (Transition (BbrSock M) Action)}
    (hrun : Trace (Acts k) (bbrInit k s₀ now) tr s) (hacked : history noteAcked false tr = true) :
    (bbrUnit.setWidth 10 < s.ca.pacingGain →
        s.ca.mode = .startup ∨ (s.ca.mode = .probeBw ∧ s.ca.cycleIdx = 0 ∧ s.ca.ltUseBw = false)) ∧
      (s.ca.pacingGain < bbrUnit.setWidth 10 →
        s.ca.mode = .drain ∨ (s.ca.mode = .probeBw ∧ s.ca.cycleIdx = 1 ∧ s.ca.ltUseBw = false)) := by
  have hunit : ¬ (bbrUnit.setWidth 10 : BitVec 10) < bbrUnit.setWidth 10 := BitVec.lt_irrefl _
  rcases (trace_geared hrun).gain hacked with hgain | hgain
  · have hhigh : ¬ (bbrHighGain.setWidth 10 : BitVec 10) < bbrUnit.setWidth 10 := by decide
    have hdrain : ¬ (bbrUnit.setWidth 10 : BitVec 10) < bbrDrainGain.setWidth 10 := by decide
    have hprobing : ¬ ((bbrUnit * 5 / 4).setWidth 10 : BitVec 10) < bbrUnit.setWidth 10 := by decide
    have hdraining : ¬ (bbrUnit.setWidth 10 : BitVec 10) < (bbrUnit * 3 / 4).setWidth 10 := by decide
    rw [hgain, bbrGains]
    cases hmode : s.ca.mode with
    | startup => exact ⟨fun _ => .inl rfl, fun h => absurd h hhigh⟩
    | drain => exact ⟨fun h => absurd h hdrain, fun _ => .inl rfl⟩
    | probeRtt => exact ⟨fun h => absurd h hunit, fun h => absurd h hunit⟩
    | probeBw =>
      dsimp only
      by_cases huse : s.ca.ltUseBw = true
      · rw [if_pos huse]
        exact ⟨fun h => absurd h hunit, fun h => absurd h hunit⟩
      · rw [if_neg huse, bbrPacingGain]
        rw [Bool.not_eq_true] at huse
        by_cases hfirst : s.ca.cycleIdx = 0
        · rw [if_pos hfirst]
          exact ⟨fun _ => .inr ⟨rfl, hfirst, huse⟩, fun h => absurd h hprobing⟩
        · rw [if_neg hfirst]
          by_cases hsecond : s.ca.cycleIdx = 1
          · rw [if_pos hsecond]
            exact ⟨fun h => absurd h hdraining, fun _ => .inr ⟨rfl, hsecond, huse⟩⟩
          · rw [if_neg hsecond]
            exact ⟨fun h => absurd h hunit, fun h => absurd h hunit⟩
  · rw [hgain]
    exact ⟨fun h => absurd h hunit, fun h => absurd h hunit⟩

/-- The first ACK after `bbr_init` leaves `BBR_STARTUP` with its high gain. -/
theorem pacing_above_only_startup :
    let ack : Callback := .main ⟨20, 10, 1000, 1000, 0, 10, 10, false, false⟩ ⟨1, 1, 1, 1, 1⟩ ⟨0, 0, 0⟩
    let s := ack.run plainKernel (bbrInit plainKernel (plainSock 10 10) 0)
    Acts plainKernel (bbrInit plainKernel (plainSock 10 10) 0) (.call ack) s ∧ bbrUnit.setWidth 10 < s.ca.pacingGain ∧
      (s.ca.mode = .startup ∨ (s.ca.mode = .probeBw ∧ s.ca.cycleIdx = 0 ∧ s.ca.ltUseBw = false)) := by
  intro ack s
  have hstep : Acts plainKernel (bbrInit plainKernel (plainSock 10 10) 0) (.call ack) s := rfl
  have hgain : bbrUnit.setWidth 10 < s.ca.pacingGain := by decide +kernel
  exact ⟨hstep, hgain, (pacing_above_only (.cons hstep (.nil _)) rfl).1 hgain⟩

/-! ## The order of the phases -/

/-- A phase of cruising lasts longer than the minimum RTT, so that it does not end in the moment it begins. -/
theorem bbrIsNextCyclePhase_begun (hdelta : ∀ t, k.tcpStampUsDelta t t = 0) {s : BbrSock M}
    (hgain : s.ca.pacingGain = bbrUnit.setWidth 10) (hbegun : s.ca.cycleMstamp = s.tp.deliveredMstamp)
    (rs : RateSample) : bbrIsNextCyclePhase k s rs = false := by
  have hunit : s.ca.pacingGain.setWidth 64 = bbrUnit := by
    rw [hgain]
    rfl
  unfold bbrIsNextCyclePhase
  simp only
  rw [if_pos hunit, hbegun, hdelta]
  simp

/-- The cycle is started by this action. -/
def Restarts (s : BbrSock M) (a : Action) (s' : BbrSock M) : Prop :=
  s.ca.mode ≠ .probeBw ∨ (s.ca.ltUseBw = true ∧ s'.ca.ltUseBw = false ∧ a ≠ .call .undoCwnd)

instance (s : BbrSock M) (a : Action) (s' : BbrSock M) : Decidable (Restarts s a s') := by
  unfold Restarts
  infer_instance

/-- The phase stays, or the next one begins; or the cycle is started, not with the draining phase. -/
def InOrder (restarts : Prop) (c c' : Cycle) : Prop :=
  c'.mode = .probeBw →
    (restarts → c'.cycleIdx ≠ 1) ∧ (¬ restarts → c'.cycleIdx = c.cycleIdx ∨ c'.cycleIdx = c.cycleIdx + 1)

/-- The bandwidth sample and the gain cycle. -/
theorem bbrUpdateBw_cycle (s : BbrSock M) (rs : RateSample) {rand : U32} (hrand : RandOk rand) :
    ((bbrUpdateBw k s rs rand).cycle = s.cycle ∧
        (s.ca.ltUseBw = true → (bbrUpdateBw k s rs rand).ca.ltUseBw = true)) ∨
      ((bbrUpdateBw k s rs rand).ca.cycleIdx ≠ 1 ∧ s.ca.mode = .probeBw ∧ s.ca.ltUseBw = true ∧
        (bbrUpdateBw k s rs rand).ca.ltUseBw = false ∧ (bbrUpdateBw k s rs rand).ca.pacingGain = s.ca.pacingGain ∧
        (bbrUpdateBw k s rs rand).ca.cycleMstamp = (bbrUpdateBw k s rs rand).tp.deliveredMstamp) := by
  unfold bbrUpdateBw
  simp only
  split
  · exact .inl ⟨rfl, id⟩
  · obtain ⟨next, cnt, start, conservation, hround⟩ :=
      bbrUpdateRound_frame { s with ca := { s.ca with roundStart := false } } rs
    rw [hround]
    generalize hs₁ : BbrSock.mk _ _ = s₁
    have hcycle₁ : s₁.cycle = s.cycle := by
      subst hs₁
      rfl
    have huse₁ : s₁.ca.ltUseBw = s.ca.ltUseBw := by
      subst hs₁
      rfl
    have hgain₁ : s₁.ca.pacingGain = s.ca.pacingGain := by
      subst hs₁
      rfl
    obtain ⟨bw, hfilter⟩ := bbrFilterBw_frame (k := k) (bbrLtBwSampling k s₁ rs rand) rs
    rw [hfilter]
    obtain ⟨l, c, hframe, -⟩ := bbrLtBwSampling_frame (k := k) s₁ rs rand
    rcases bbrLtBwSampling_cycle (k := k) s₁ rs rand with ⟨hcycle, hkept⟩ | ⟨hcycle, hprobe, hin, hout, hgain⟩
    · exact .inl ⟨hcycle.trans hcycle₁, fun h => hkept (huse₁.trans h)⟩
    · obtain ⟨-, hidx, hmstamp⟩ := Cycle.mk.inj hcycle
      refine .inr ⟨?_, (congrArg Cycle.mode hcycle₁).symm.trans hprobe, huse₁.symm.trans hin, hout,
        hgain.trans hgain₁, ?_⟩
      · exact fun h => bbrResetProbeBwMode_cycleIdx s₁ hrand (hidx.symm.trans h)
      · have htp : (bbrLtBwSampling k s₁ rs rand).tp = s₁.tp := by
          rw [hframe]
          rfl
        rw [htp]
        exact hmstamp

/-- The work on the model, up to the minimum RTT, keeps the order. -/
theorem bbrBeforeMinRtt_inOrder (hdelta : ∀ t, k.tcpStampUsDelta t t = 0) {s : BbrSock M}
    (hcruise : s.ca.mode = .probeBw → s.ca.ltUseBw = true → s.ca.pacingGain = bbrUnit.setWidth 10) (rs : RateSample)
    {rands : Rands} (hsampling : RandOk rands.sampling) (hdrain : RandOk rands.drain) :
    InOrder (s.ca.mode ≠ .probeBw ∨ (s.ca.ltUseBw = true ∧ (bbrUpdateBw k s rs rands.sampling).ca.ltUseBw = false))
      s.cycle (bbrBeforeMinRtt k s rs rands).cycle := by
  have hbw := bbrUpdateBw_cycle (k := k) s rs hsampling
  unfold bbrBeforeMinRtt
  generalize bbrUpdateBw k s rs rands.sampling = s₁ at hbw ⊢
  obtain ⟨e, haggregation⟩ := bbrUpdateAckAggregation_frame (k := k) s₁ rs
  obtain ⟨c, hcycle, hphase⟩ := bbrUpdateCyclePhase_frame (k := k) (s₁.setExcess e) rs
  obtain ⟨fullBw, cnt, reached, hfull⟩ := bbrCheckFullBwReached_frame (k := k) ((s₁.setExcess e).setCycle c) rs
  simp only [haggregation, hcycle, hfull]
  -- the phase after `bbr_update_cycle_phase`
  have horder : InOrder (s.ca.mode ≠ .probeBw ∨ (s.ca.ltUseBw = true ∧ s₁.ca.ltUseBw = false)) s.cycle c ∧
      (¬ (s.ca.mode ≠ .probeBw ∨ (s.ca.ltUseBw = true ∧ s₁.ca.ltUseBw = false)) → c.mode = .probeBw) := by
    rcases hbw with ⟨hsame, hkept⟩ | ⟨hidx, hprobe, huse, hout, hgain, hmstamp⟩
    · have hno : ¬ (s.ca.ltUseBw = true ∧ s₁.ca.ltUseBw = false) := by
        rintro ⟨hin, hout⟩
        exact absurd ((hkept hin).symm.trans hout) (by decide)
      have hmode₁ (hcont : ¬ (s.ca.mode ≠ .probeBw ∨ (s.ca.ltUseBw = true ∧ s₁.ca.ltUseBw = false))) :
          s₁.ca.mode = .probeBw :=
        (congrArg Cycle.mode hsame).trans (not_not.mp fun hne => hcont (.inl hne))
      rcases hphase with rfl | ⟨rfl, hprobe, -⟩
      · refine ⟨fun hmode => ⟨fun hrestart => ?_, fun _ => ?_⟩, hmode₁⟩
        · have hmode : s₁.cycle.mode = .probeBw := hmode
          rw [hsame] at hmode
          exact absurd hmode (hrestart.resolve_right hno)
        · exact .inl (congrArg Cycle.cycleIdx hsame)
      · refine ⟨fun _ => ⟨fun hrestart => ?_, fun _ => ?_⟩, hmode₁⟩
        · have hmode : s₁.cycle.mode = .probeBw := hprobe
          rw [hsame] at hmode
          exact absurd hmode (hrestart.resolve_right hno)
        · refine .inr ((bbrAdvanceCyclePhase_cycleIdx _).trans ?_)
          exact congrArg (· + 1) (congrArg Cycle.cycleIdx hsame)
    · -- the cycle has just been restarted, and the gain is that of cruising
      have hlasts : bbrIsNextCyclePhase k (s₁.setExcess e) rs = false :=
        bbrIsNextCyclePhase_begun hdelta (hgain.trans (hcruise hprobe huse)) hmstamp rs
      rcases hphase with rfl | ⟨-, -, hnext⟩
      · exact ⟨fun _ => ⟨fun _ => hidx, fun hno => absurd (Or.inr ⟨huse, hout⟩) hno⟩,
          fun hno => absurd (Or.inr ⟨huse, hout⟩) hno⟩
      · exact absurd (hlasts.symm.trans hnext) Bool.false_ne_true
  generalize hs₂ : BbrSock.mk _ _ = s₂
  obtain ⟨c', ssthresh, hend, hcases⟩ := bbrCheckDrain_frame (k := k) s₂ rands.drain
  have hc₂ : s₂.cycle = c := by
    subst hs₂
    rfl
  rw [hend]
  rcases hcases with rfl | ⟨rfl, -⟩ | ⟨rfl, hmode⟩
  · exact hc₂ ▸ horder.1
  · exact fun h => (by cases h)
  · refine fun _ => ⟨fun _ => bbrResetProbeBwMode_cycleIdx s₂ hdrain, fun hcont => ?_⟩
    have hprobe : s₂.ca.mode = .probeBw := (congrArg Cycle.mode hc₂).trans (horder.2 hcont)
    rcases hmode with hmode | hmode
    · cases hprobe.symm.trans hmode
    · cases hprobe.symm.trans hmode

/-- **An ACK keeps the order of the phases.** -/
theorem bbrMain_inOrder (hdelta : ∀ t, k.tcpStampUsDelta t t = 0) {s : BbrSock M}
    (hcruise : s.ca.mode = .probeBw → s.ca.ltUseBw = true → s.ca.pacingGain = bbrUnit.setWidth 10) (rs : RateSample)
    (clk : Clock) {rands : Rands} (hrands : RandOk rands.sampling ∧ RandOk rands.drain ∧ RandOk rands.probeRtt) :
    InOrder (Restarts s (.call (.main rs clk rands)) (bbrMain k s rs clk rands)) s.cycle
      (bbrMain k s rs clk rands).cycle := by
  have huse : (bbrMain k s rs clk rands).ca.ltUseBw = (bbrUpdateBw k s rs rands.sampling).ca.ltUseBw :=
    congrArg Estimate.ltUseBw (bbrMain_estimate s rs clk rands)
  have hbefore := bbrBeforeMinRtt_inOrder hdelta hcruise rs hrands.1 hrands.2.1
  have hmode := bbrBeforeMinRtt_mode (k := k) s rs rands
  have hrestarts : Restarts s (.call (.main rs clk rands)) (bbrMain k s rs clk rands) ↔
      s.ca.mode ≠ .probeBw ∨ (s.ca.ltUseBw = true ∧ (bbrUpdateBw k s rs rands.sampling).ca.ltUseBw = false) := by
    rw [Restarts, huse]
    simp
  rw [hrestarts, bbrMain_eq, bbrAtProbeRtt_eq]
  generalize bbrBeforeMinRtt k s rs rands = s₁ at hbefore hmode ⊢
  obtain ⟨rtt, stamp, hsample⟩ := bbrSampleMinRtt_frame s₁ rs (bbrFilterExpired k s₁ clk.expired) clk.sample
  rw [hsample]
  generalize hs₂ : BbrSock.mk s₁.tp _ = s₂
  have hcycle₂ : s₂.cycle = s₁.cycle := by
    subst hs₂
    rfl
  have henter := (bbrEnterProbeRtt_cases s₂ (bbrFilterExpired k s₁ clk.expired)).2
  generalize bbrEnterProbeRtt s₂ (bbrFilterExpired k s₁ clk.expired) = s₃ at henter ⊢
  obtain ⟨c, w, limited, rttStamp, doneStamp, roundDone, next, hin, hcases⟩ :=
    bbrInProbeRtt_frame (k := k) s₃ clk rands.probeRtt
  have hend : (bbrAfterProbeRtt k (bbrInProbeRtt k s₃ clk rands.probeRtt) rs).cycle = c := by
    obtain ⟨rate, cwnd, idle, seen, conservation, next', prev, h⟩ := bbrAfterProbeRtt_frame (k := k)
      (bbrInProbeRtt k s₃ clk rands.probeRtt) rs
    rw [h, hin]
    rfl
  rw [hend]
  have hstay : c = s₃.cycle → InOrder (s.ca.mode ≠ .probeBw ∨
      (s.ca.ltUseBw = true ∧ (bbrUpdateBw k s rs rands.sampling).ca.ltUseBw = false)) s.cycle c := by
    rintro rfl
    rcases henter with ⟨-, -, -, hprobe, -⟩ | ⟨-, rfl⟩
    · intro h
      cases hprobe.symm.trans h
    · exact hcycle₂ ▸ hbefore
  rcases hcases with ⟨hc, -⟩ | ⟨hc, -⟩ | ⟨rfl, -, -, hprobe, hset⟩
  · exact hstay hc
  · exact hstay hc
  · -- the end of `BBR_PROBE_RTT`, which the ACK has found
    have hs : s.ca.mode = .probeRtt := by
      rcases henter with ⟨-, -, -, -, hzero⟩ | ⟨-, rfl⟩
      · exact absurd hzero hset
      · exact hmode.mp ((congrArg Cycle.mode hcycle₂).symm.trans hprobe)
    intro hreset
    refine ⟨fun _ => bbrResetMode_cycleIdx s₃ hrands.2.2 hreset, fun hcont => absurd (Or.inl ?_) hcont⟩
    rw [hs]
    exact BbrMode.noConfusion

/-- The phases of the gain cycle that an action draws are those of `prandom_u32_max`. -/
def Action.DrawsOk : Action → Prop
  | .call (.main _ _ rands) => RandOk rands.sampling ∧ RandOk rands.drain ∧ RandOk rands.probeRtt
  | .call (.cwndEvent _ _ _ rand) => RandOk rand
  | .call (.setState _ rand) => RandOk rand
  | _ => True

instance : DecidablePred Action.DrawsOk
  | .call (.main _ _ rands) =>
    inferInstanceAs (Decidable (RandOk rands.sampling ∧ RandOk rands.drain ∧ RandOk rands.probeRtt))
  | .call (.cwndEvent _ _ _ rand) => inferInstanceAs (Decidable (RandOk rand))
  | .call (.setState _ rand) => inferInstanceAs (Decidable (RandOk rand))
  | .call .ssthresh | .call .undoCwnd | .init _ | .kernel _ => .isTrue trivial

/-- An action that leaves the cycle and the use of a long-term bandwidth alone. -/
theorem InOrder.same {s s' : BbrSock M} (a : Action) (hcycle : s'.cycle = s.cycle)
    (huse : s.ca.ltUseBw = true → s'.ca.ltUseBw = true ∨ a = .call .undoCwnd) :
    InOrder (Restarts s a s') s.cycle s'.cycle := by
  intro hmode
  rw [hcycle]
  refine ⟨fun hrestarts => ?_, fun _ => .inl rfl⟩
  rcases hrestarts with hne | ⟨hin, hout, hundo⟩
  · exact absurd ((congrArg Cycle.mode hcycle).symm.trans hmode) hne
  · rcases huse hin with hkept | hundo'
    · cases hkept.symm.trans hout
    · exact absurd hundo' hundo

/-- An action that starts the cycle, not with the draining phase. -/
theorem InOrder.started {s s' : BbrSock M} {a : Action} (hrestarts : Restarts s a s')
    (hidx : s'.ca.mode = .probeBw → s'.ca.cycleIdx ≠ 1) : InOrder (Restarts s a s') s.cycle s'.cycle :=
  fun hmode => ⟨fun _ => hidx hmode, fun hno => absurd hrestarts hno⟩

/-- **One action** keeps the order of the phases. -/
theorem acts_inOrder (hdelta : ∀ t, k.tcpStampUsDelta t t = 0) {s s' : BbrSock M} {a : Action}
    (hgain : s.ca.mode ≠ .startup → GainOk s) (hdraws : a.DrawsOk) (hstep : Acts k s a s') :
    InOrder (Restarts s a s') s.cycle s'.cycle := by
  cases hstep
  cases a with
  | init now => exact fun hmode => (by cases hmode)
  | kernel tp => exact .same _ rfl .inl
  | call c =>
    cases c with
    | main rs clk rands =>
      refine bbrMain_inOrder hdelta (fun hmode huse => ?_) rs clk hdraws
      exact (hgain (by rw [hmode]; exact BbrMode.noConfusion)).cruises hmode huse
    | cwndEvent event check restart rand =>
      show InOrder (Restarts s _ (bbrCwndEvent k s event check restart rand)) s.cycle
        (bbrCwndEvent k s event check restart rand).cycle
      unfold bbrCwndEvent
      split
      · simp only
        split
        · obtain ⟨rate, seen, hpacing⟩ := bbrSetPacingRate_frame (bbrRestartIdle s) (bbrBw k (bbrRestartIdle s)) bbrUnit
          rw [hpacing]
          exact .same _ rfl .inl
        · split
          · rename_i hprobe
            have hne : s.ca.mode ≠ .probeBw := by
              rw [show s.ca.mode = .probeRtt from hprobe]
              exact BbrMode.noConfusion
            obtain ⟨c, stamp, cwnd, hdone, hc⟩ := bbrCheckProbeRttDone_frame (bbrRestartIdle s) check restart rand
            rw [hdone]
            rcases hc with ⟨rfl, -⟩ | ⟨rfl, -⟩
            · exact .same _ rfl .inl
            · exact .started (.inl hne) fun hmode => bbrResetMode_cycleIdx (bbrRestartIdle s) hdraws hmode
          · exact .same _ rfl .inl
      · exact .same _ rfl .inl
    | ssthresh =>
      show InOrder (Restarts s _ (bbrSaveCwnd s)) s.cycle (bbrSaveCwnd s).cycle
      unfold bbrSaveCwnd
      split <;> exact .same _ rfl .inl
    | undoCwnd => exact .same _ rfl fun _ => .inr rfl
    | setState newState rand =>
      show InOrder (Restarts s _ (bbrSetState k s newState rand)) s.cycle (bbrSetState k s newState rand).cycle
      unfold bbrSetState
      split
      · generalize hs₁ : BbrSock.mk s.tp _ = s₁
        have hcycle₁ : s₁.cycle = s.cycle := by
          subst hs₁
          rfl
        have huse₁ : s₁.ca.ltUseBw = s.ca.ltUseBw := by
          subst hs₁
          rfl
        rcases bbrLtBwSampling_cycle (k := k) s₁ lossSample rand with ⟨hcycle, hkept⟩ | ⟨hcycle, -, hin, hout, -⟩
        · exact .same _ (hcycle.trans hcycle₁) fun hin => .inl (hkept (huse₁.trans hin))
        · refine .started (.inr ⟨huse₁.symm.trans hin, hout, fun h => (by cases h)⟩) fun _ => ?_
          exact fun h => bbrResetProbeBwMode_cycleIdx s₁ hdraws ((congrArg Cycle.cycleIdx hcycle).symm.trans h)
      · exact .same _ rfl .inl

/-- The phases since the cycle was started, the last one first. -/
def notePhase (n : List (BitVec 3)) : Transition (BbrSock M) Action → List (BitVec 3)
  | (s, a, s') =>
    if s'.ca.mode ≠ .probeBw then []
    else if Restarts s a s' then [s'.ca.cycleIdx]
    else if s'.ca.cycleIdx = s.ca.cycleIdx then n
    else s'.ca.cycleIdx :: n

/-- One phase after the other, up to the current one, and not from the draining one on. -/
def PhasesOk (n : List (BitVec 3)) (idx : BitVec 3) : Prop :=
  n.head? = some idx ∧ n.IsChain (fun later earlier => later = earlier + 1) ∧ n.getLast? ≠ some 1

/-- The next phase goes on with the chain. -/
theorem PhasesOk.next {n : List (BitVec 3)} {idx : BitVec 3} (h : PhasesOk n idx) :
    PhasesOk ((idx + 1) :: n) (idx + 1) := by
  obtain ⟨hhead, hchain, hlast⟩ := h
  cases n with
  | nil => simp at hhead
  | cons first n =>
    obtain rfl : first = idx := by simpa using hhead
    refine ⟨rfl, ?_, ?_⟩
    · simpa using hchain
    · simpa using hlast

theorem acts_phasesOk (hdelta : ∀ t, k.tcpStampUsDelta t t = 0) {n : List (BitVec 3)} {s s' : BbrSock M} {a : Action}
    (h : (s.ca.mode ≠ .startup → GainOk s) ∧ (s.ca.mode = .probeBw → PhasesOk n s.ca.cycleIdx))
    (hstep : Acts k s a s' ∧ a.DrawsOk) :
    (s'.ca.mode ≠ .startup → GainOk s') ∧
      (s'.ca.mode = .probeBw → PhasesOk (notePhase n (s, a, s')) s'.ca.cycleIdx) := by
  have hgeared : Geared (decide (s.ca.mode ≠ .startup)) s :=
    ⟨fun hmode => decide_eq_true hmode, fun hmode => h.1 (of_decide_eq_true hmode)⟩
  have hgeared' := acts_geared hgeared hstep.1
  refine ⟨fun hmode => hgeared'.gain (hgeared'.started hmode), fun hmode => ?_⟩
  obtain ⟨hstart, hgo⟩ := acts_inOrder hdelta h.1 hstep.2 hstep.1 hmode
  rw [notePhase, if_neg (not_not.mpr hmode)]
  split
  · rename_i hrestarts
    have hfirst : s'.ca.cycleIdx ≠ 1 := hstart hrestarts
    exact ⟨rfl, .singleton _, by simpa using hfirst⟩
  · rename_i hcont
    have hphases := h.2 (not_not.mp fun hne => hcont (.inl hne))
    split
    · rename_i hsame
      rw [hsame]
      exact hphases
    · rename_i hmoved
      have hnext : s'.ca.cycleIdx = s.ca.cycleIdx + 1 := (hgo hcont).resolve_left hmoved
      rw [hnext]
      exact hphases.next

/-- **The phases come in order.** In a run from `bbr_init`, in every state of `BBR_PROBE_BW`, the phases since the cycle
was started follow one upon the other up to the current one, and the first of them is not the draining phase. So the
draining phase always comes right after the probing one. -/
theorem phases_in_order (hdelta : ∀ t, k.tcpStampUsDelta t t = 0) {s₀ s : BbrSock M} {now : ℕ}
    {tr : List (Transition (BbrSock M) Action)}
    (hrun : Trace (fun s a s' => Acts k s a s' ∧ a.DrawsOk) (bbrInit k s₀ now) tr s) (hmode : s.ca.mode = .probeBw) :
    PhasesOk (history notePhase [] tr) s.ca.cycleIdx := by
  have hstart : (bbrInit k s₀ now).ca.mode = .startup := bbrInit_mode s₀ now
  have hkept := hrun.history_invariant
    (J := fun n s => (s.ca.mode ≠ .startup → GainOk s) ∧ (s.ca.mode = .probeBw → PhasesOk n s.ca.cycleIdx))
    (fun _ _ _ _ h hs => acts_phasesOk hdelta h hs) []
    ⟨fun hne => absurd hstart hne, fun hprobe => by cases hstart.symm.trans hprobe⟩
  exact hkept.2 hmode

/-- At each of the given times of delivery ten more packets are delivered, and their ACK reports a loss. -/
def lossyAcks (s : BbrSock U32) : List U64 → List Action
  | [] => []
  | stamp :: later =>
    let write : Action := .kernel { s.tp with delivered := s.tp.delivered + 10, deliveredMstamp := stamp }
    let ack : Action :=
      .call (.main ⟨s.tp.delivered, 10, 1000, 1000, 1, 10, 10, false, false⟩ ⟨1, 1, 1, 1, 1⟩ ⟨0, 0, 0⟩)
    write :: ack :: lossyAcks (ack.run plainKernel (write.run plainKernel s)) later

/-- The probing phase, the draining one, and two of cruising. -/
theorem phases_in_order_four :
    ∃ tr s, Trace (fun s a s' => Acts plainKernel s a s' ∧ a.DrawsOk) (bbrInit plainKernel (plainSock 10 10) 0) tr s ∧
      s.ca.mode = .probeBw ∧ history notePhase [] tr = [3, 2, 1, 0] ∧ PhasesOk [3, 2, 1, 0] s.ca.cycleIdx := by
  have hrun : (transitions (fun s (a : Action) => if a.DrawsOk then some (a.run plainKernel s) else none)
      (bbrInit plainKernel (plainSock 10 10) 0)
      (lossyAcks (bbrInit plainKernel (plainSock 10 10) 0) [1000, 2000, 3000, 4000, 6000, 8000, 10000])).map
      (fun p => (p.2.ca.mode, history notePhase [] p.1)) = some (.probeBw, [3, 2, 1, 0]) := by decide +kernel
  obtain ⟨⟨tr, s⟩, htr, hends⟩ := Option.map_eq_some_iff.mp hrun
  obtain ⟨hmode, hphases⟩ := Prod.mk.inj hends
  have hdelta : ∀ t, plainKernel.tcpStampUsDelta t t = 0 := by
    intro t
    simp [plainKernel, smax]
  have htrace : Trace (fun s a s' => Acts plainKernel s a s' ∧ a.DrawsOk)
      (bbrInit plainKernel (plainSock 10 10) 0) tr s :=
    (Trace.of_guarded htr).mono fun _ _ _ h => ⟨Option.some.inj h.1, h.2⟩
  exact ⟨tr, s, htrace, hmode, hphases, hphases ▸ phases_in_order hdelta htrace hmode⟩

end CoupledCC.Bbr
