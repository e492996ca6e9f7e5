import CoupledCC.Bbr.Frame
import CoupledCC.Bbr.Policer

/-!
# The life of a long-term bandwidth

`bbr_lt_bw_sampling` is called by an ACK with a valid sample and by a timeout (`sampledAt`), and nothing else but a
reset changes the state of the sampling. Rounds are noted beside it (`noteLt`): those of the interval in progress, those
of the interval before it, and those of probing since a long-term bandwidth came into use.

- `acts_sampling`: one action and the state of the sampling;
- `lt_bw_given_up_iff`: a long-term bandwidth is used for 48 rounds of `BBR_PROBE_BW`, unless the sampling is reset
  before;
- `policer_two_intervals`: a policer is found at the end of the second of two intervals in a row, of 4 to 16 rounds
  each.
-/

namespace CoupledCC.Bbr

open Word Runs

variable {M : Type} {k : Kernel M}

/-- What an ACK has made of its sample. -/
structure Estimate (M : Type) where
  bw : M
  rttCnt : U32
  roundStart : Bool
  ltIsSampling : Bool
  ltRttCnt : BitVec 7
  ltUseBw : Bool
  ltBw : U32

def BbrSock.estimate (s : BbrSock M) : Estimate M :=
  ⟨s.ca.bw, s.ca.rttCnt, s.ca.roundStart, s.ca.ltIsSampling, s.ca.ltRttCnt, s.ca.ltUseBw, s.ca.ltBw⟩

/-- The state of the sampling. -/
structure Sampling where
  ltIsSampling : Bool
  ltRttCnt : BitVec 7
  ltUseBw : Bool
  ltBw : U32
deriving Repr, DecidableEq

def BbrSock.sampling (s : BbrSock M) : Sampling :=
  ⟨s.ca.ltIsSampling, s.ca.ltRttCnt, s.ca.ltUseBw, s.ca.ltBw⟩

/-- The sampling when it is reset. -/
def Sampling.off : Sampling :=
  ⟨false, 0, false, 0⟩

/-! ## The rest of an ACK leaves the estimate alone -/

@[simp] theorem bbrUpdateAckAggregation_estimate (s : BbrSock M) (rs : RateSample) :
    (bbrUpdateAckAggregation k s rs).estimate = s.estimate := by
  obtain ⟨e, h⟩ := bbrUpdateAckAggregation_frame (k := k) s rs
  rw [h]
  rfl

@[simp] theorem bbrUpdateCyclePhase_estimate (s : BbrSock M) (rs : RateSample) :
    (bbrUpdateCyclePhase k s rs).estimate = s.estimate := by
  obtain ⟨c, h, -⟩ := bbrUpdateCyclePhase_frame (k := k) s rs
  rw [h]
  rfl

@[simp] theorem bbrCheckFullBwReached_estimate (s : BbrSock M) (rs : RateSample) :
    (bbrCheckFullBwReached k s rs).estimate = s.estimate := by
  obtain ⟨fullBw, cnt, reached, h⟩ := bbrCheckFullBwReached_frame (k := k) s rs
  rw [h]
  rfl

@[simp] theorem bbrCheckDrain_estimate (s : BbrSock M) (rand : U32) :
    (bbrCheckDrain k s rand).estimate = s.estimate := by
  obtain ⟨c, ssthresh, h, -⟩ := bbrCheckDrain_frame (k := k) s rand
  rw [h]
  rfl

@[simp] theorem bbrSampleMinRtt_estimate (s : BbrSock M) (rs : RateSample) (filterExpired : Bool) (now : ℕ) :
    (bbrSampleMinRtt s rs filterExpired now).estimate = s.estimate := by
  obtain ⟨rtt, stamp, h⟩ := bbrSampleMinRtt_frame s rs filterExpired now
  rw [h]
  rfl

@[simp] theorem bbrEnterProbeRtt_estimate (s : BbrSock M) (filterExpired : Bool) :
    (bbrEnterProbeRtt s filterExpired).estimate = s.estimate := by
  obtain ⟨mode, prior, stamp, h, -⟩ := bbrEnterProbeRtt_frame s filterExpired
  rw [h]
  rfl

@[simp] theorem bbrInProbeRtt_estimate (s : BbrSock M) (clk : Clock) (rand : U32) :
    (bbrInProbeRtt k s clk rand).estimate = s.estimate := by
  obtain ⟨c, cwnd, limited, rttStamp, doneStamp, roundDone, next, h, -⟩ := bbrInProbeRtt_frame (k := k) s clk rand
  rw [h]
  rfl

@[simp] theorem bbrEndIdleRestart_estimate (s : BbrSock M) (rs : RateSample) :
    (bbrEndIdleRestart s rs).estimate = s.estimate := by
  unfold bbrEndIdleRestart
  split <;> rfl

@[simp] theorem bbrUpdateGains_estimate (s : BbrSock M) : (bbrUpdateGains s).estimate = s.estimate := rfl

@[simp] theorem bbrSetPacingRate_estimate (s : BbrSock M) (bw : U32) (gain : U64) :
    (bbrSetPacingRate s bw gain).estimate = s.estimate := by
  obtain ⟨rate, seen, h⟩ := bbrSetPacingRate_frame s bw gain
  rw [h]
  rfl

@[simp] theorem bbrSetCwnd_estimate (s : BbrSock M) (rs : RateSample) (acked bw : U32) (gain : U64) :
    (bbrSetCwnd k s rs acked bw gain).estimate = s.estimate := by
  obtain ⟨cwnd, conservation, next, prev, h, -⟩ := bbrSetCwnd_frame (k := k) s rs acked bw gain
  rw [h]
  rfl

/-- **The estimate of an ACK** is the one of its bandwidth sample. -/
theorem bbrMain_estimate (s : BbrSock M) (rs : RateSample) (clk : Clock) (rands : Rands) :
    (bbrMain k s rs clk rands).estimate = (bbrUpdateBw k s rs rands.sampling).estimate := by
  simp [bbrMain, bbrUpdateModel, bbrUpdateMinRtt]

/-! ## One action -/

/-- The state in which an ACK with a valid sample, or a timeout, calls `bbr_lt_bw_sampling`, with its arguments. -/
def sampledAt (s : BbrSock M) : Action → Option (BbrSock M × RateSample × U32)
  | .call (.main rs _ rands) =>
    if InvalidSample rs then none
    else some (bbrUpdateRound { s with ca := { s.ca with roundStart := false } } rs, rs, rands.sampling)
  | .call (.setState newState rand) =>
    if newState = tcpCaLoss then
      some ({ s with ca := { s.ca with prevCaState := tcpCaLoss.setWidth 3, fullBw := 0, roundStart := true } },
        lossSample, rand)
    else none
  | _ => none

/-- The action resets the sampling. -/
def Action.ResetsLt : Action → Prop
  | .init _ | .call .undoCwnd => True
  | _ => False

instance (a : Action) : Decidable a.ResetsLt := by
  unfold Action.ResetsLt
  split <;> infer_instance

/-- The state the sampling finds is the one before the action, except for the round. -/
theorem sampledAt_frame {s s₁ : BbrSock M} {a : Action} {rs : RateSample} {rand : U32}
    (h : sampledAt s a = some (s₁, rs, rand)) :
    s₁.sampling = s.sampling ∧ s₁.cycle = s.cycle ∧ s₁.tp = s.tp ∧ s₁.ca.pacingGain = s.ca.pacingGain := by
  unfold sampledAt at h
  split at h
  · split at h
    · cases h
    · cases h
      obtain ⟨next, cnt, start, conservation, hround⟩ :=
        bbrUpdateRound_frame { s with ca := { s.ca with roundStart := false } } rs
      rw [hround]
      exact ⟨rfl, rfl, rfl, rfl⟩
  · split at h
    · cases h
      exact ⟨rfl, rfl, rfl, rfl⟩
    · cases h
  · cases h

/-- **One action and the sampling.** -/
theorem acts_sampling {s s' : BbrSock M} {a : Action} (h : Acts k s a s') :
    s'.sampling = match sampledAt s a with
      | some (s₁, rs, rand) => (bbrLtBwSampling k s₁ rs rand).sampling
      | none => if a.ResetsLt then .off else s.sampling := by
  cases h
  cases a with
  | init now => rfl
  | kernel tp => rfl
  | call c =>
    cases c with
    | main rs clk rands =>
      have hsampling (s s' : BbrSock M) (h : s.estimate = s'.estimate) : s.sampling = s'.sampling := by
        obtain ⟨-, -, -, h₁, h₂, h₃, h₄⟩ := Estimate.mk.inj h
        rw [BbrSock.sampling, h₁, h₂, h₃, h₄]
        rfl
      have hmain := hsampling _ _ (bbrMain_estimate (k := k) s rs clk rands)
      rw [Action.run, Callback.run, hmain, bbrUpdateBw, sampledAt]
      split
      · rfl
      · obtain ⟨bw, hfilter⟩ := bbrFilterBw_frame (k := k)
          (bbrLtBwSampling k (bbrUpdateRound { s with ca := { s.ca with roundStart := false } } rs) rs
            rands.sampling) rs
        rw [hfilter]
        rfl
    | cwndEvent event check restart rand =>
      show (bbrCwndEvent k s event check restart rand).sampling = s.sampling
      unfold bbrCwndEvent
      split
      · simp only
        split
        · obtain ⟨rate, seen, h⟩ := bbrSetPacingRate_frame (bbrRestartIdle s) (bbrBw k (bbrRestartIdle s)) bbrUnit
          rw [h]
          rfl
        · split
          · obtain ⟨c, stamp, cwnd, h, -⟩ := bbrCheckProbeRttDone_frame (bbrRestartIdle s) check restart rand
            rw [h]
            rfl
          · rfl
      · rfl
    | ssthresh =>
      show (bbrSaveCwnd s).sampling = s.sampling
      unfold bbrSaveCwnd
      split <;> rfl
    | undoCwnd => rfl
    | setState newState rand =>
      show (bbrSetState k s newState rand).sampling = _
      rw [bbrSetState, sampledAt]
      by_cases hloss : newState = tcpCaLoss
      · rw [if_pos hloss, if_pos hloss]
      · rw [if_neg hloss, if_neg hloss]
        rfl

/-! ## One call of `bbr_lt_bw_sampling` -/

/-- The interval is over: it is long enough, and its loss rate is that of a policer. -/
structure Complete (s : BbrSock M) (rs : RateSample) : Prop where
  appLimited : rs.isAppLimited = false
  longEnough : ¬ ltRounds s < bbrLtIntvlMinRtts
  notTooLong : ¬ 4 * bbrLtIntvlMinRtts < ltRounds s
  losses : rs.losses ≠ 0
  delivered : ltDelivered s ≠ 0
  lossy : LossyTest s
  positive : ¬ (ltInterval s).toInt < 1
  fits : ¬ 0xffffffff / usecPerMsec.setWidth 32 ≤ ltInterval s

instance (s : BbrSock M) : Decidable (LossyTest s) := by
  unfold LossyTest
  infer_instance

instance (s : BbrSock M) (rs : RateSample) : Decidable (Complete s rs) :=
  decidable_of_iff (rs.isAppLimited = false ∧ ¬ ltRounds s < bbrLtIntvlMinRtts ∧ ¬ 4 * bbrLtIntvlMinRtts < ltRounds s ∧
      rs.losses ≠ 0 ∧ ltDelivered s ≠ 0 ∧ LossyTest s ∧ ¬ (ltInterval s).toInt < 1 ∧
      ¬ 0xffffffff / usecPerMsec.setWidth 32 ≤ ltInterval s)
    ⟨fun ⟨h₁, h₂, h₃, h₄, h₅, h₆, h₇, h₈⟩ => ⟨h₁, h₂, h₃, h₄, h₅, h₆, h₇, h₈⟩,
      fun ⟨h₁, h₂, h₃, h₄, h₅, h₆, h₇, h₈⟩ => ⟨h₁, h₂, h₃, h₄, h₅, h₆, h₇, h₈⟩⟩

/-- The count of the rounds, with the one that starts now. -/
def ltCnt (s : BbrSock M) : BitVec 7 :=
  if s.ca.roundStart then s.ca.ltRttCnt + 1 else s.ca.ltRttCnt

/-- While a long-term bandwidth is used. -/
theorem bbrLtBwInUse_sampling (s : BbrSock M) (rand : U32) :
    (bbrLtBwInUse s rand).sampling =
      if s.ca.mode = .probeBw ∧ s.ca.roundStart = true then
        if bbrLtBwMaxRtts ≤ (s.ca.ltRttCnt + 1).setWidth 32 then .off
        else { s.sampling with ltRttCnt := s.ca.ltRttCnt + 1 }
      else s.sampling := by
  unfold bbrLtBwInUse
  split
  · simp only
    split
    · rename_i hmany
      rw [if_pos (show bbrLtBwMaxRtts ≤ (s.ca.ltRttCnt + 1).setWidth 32 from hmany)]
      rfl
    · rename_i hfew
      rw [if_neg (show ¬ bbrLtBwMaxRtts ≤ (s.ca.ltRttCnt + 1).setWidth 32 from hfew)]
      rfl
  · rfl

/-- What a measurement finds out about the interval. -/
def Measured (s : BbrSock M) : Prop :=
  ltDelivered s ≠ 0 ∧ LossyTest s ∧ ¬ (ltInterval s).toInt < 1 ∧ ¬ 0xffffffff / usecPerMsec.setWidth 32 ≤ ltInterval s

/-- The sampling at the end of an interval: a policer is found, or the bandwidth is kept for the next one. -/
def Over (s : BbrSock M) (bw : U32) (after : Sampling) : Prop :=
  after = ⟨true, 0, true, (bw + s.ca.ltBw) >>> 1⟩ ∨ after = ⟨true, 0, false, bw⟩

theorem bbrLtBwIntervalDone_sampling {s : BbrSock M} (huse : s.ca.ltUseBw = false)
    (hsampling : s.ca.ltIsSampling = true) (bw : U32) : Over s bw (bbrLtBwIntervalDone k s bw).sampling := by
  have hkept : (bbrResetLtBwSamplingInterval { s with ca := { s.ca with ltBw := bw } }).sampling =
      ⟨true, 0, false, bw⟩ := by
    rw [← hsampling, ← huse]
    rfl
  unfold bbrLtBwIntervalDone
  simp only
  split
  · refine .inl ?_
    rw [← hsampling]
    rfl
  · exact .inr hkept

/-- A measurement. -/
theorem bbrLtBwMeasure_sampling {s : BbrSock M} (huse : s.ca.ltUseBw = false) (hsampling : s.ca.ltIsSampling = true) :
    (Measured s ∧ Over s (ltNewBw s) (bbrLtBwMeasure k s).sampling) ∨
      (¬ Measured s ∧ ((bbrLtBwMeasure k s).sampling = s.sampling ∨ (bbrLtBwMeasure k s).sampling = .off)) := by
  have hmeasure : bbrLtBwMeasure k s =
      if ltDelivered s = 0 ∨ ltLost s <<< bbrScale < bbrLtLossThresh * ltDelivered s then s
      else if (ltInterval s).toInt < 1 then s
      else if 0xffffffff / usecPerMsec.setWidth 32 ≤ ltInterval s then bbrResetLtBwSampling s
      else bbrLtBwIntervalDone k s (ltNewBw s) := rfl
  rw [hmeasure]
  split
  · rename_i hwait
    refine .inr ⟨fun h => ?_, .inl rfl⟩
    rcases hwait with hzero | hloss
    · exact h.1 hzero
    · exact h.2.1 hloss
  · rename_i hlossy
    rw [not_or] at hlossy
    split
    · rename_i hshort
      exact .inr ⟨fun h => h.2.2.1 hshort, .inl rfl⟩
    · rename_i hpositive
      split
      · rename_i hlong
        exact .inr ⟨fun h => h.2.2.2 hlong, .inr rfl⟩
      · rename_i hfits
        exact .inl ⟨⟨hlossy.1, hlossy.2, hpositive, hfits⟩, bbrLtBwIntervalDone_sampling huse hsampling _⟩

/-- **A call within an interval.** The interval is over, or it goes on for at most 16 rounds, or the sampling is
reset. -/
theorem bbrLtBwSample_sampling {s : BbrSock M} (rs : RateSample) (huse : s.ca.ltUseBw = false)
    (hsampling : s.ca.ltIsSampling = true) :
    (Complete s rs ∧ Over s (ltNewBw s) (bbrLtBwSample k s rs).sampling) ∨
      (¬ Complete s rs ∧ ((¬ 4 * bbrLtIntvlMinRtts < ltRounds s ∧
          (bbrLtBwSample k s rs).sampling = ⟨true, ltCnt s, false, s.ca.ltBw⟩) ∨
        (bbrLtBwSample k s rs).sampling = .off)) := by
  have hframe : (if s.ca.roundStart then bbrCountLtRtt s else s) =
      { s with ca := { s.ca with ltRttCnt := ltCnt s } } := by
    unfold ltCnt bbrCountLtRtt
    split <;> rfl
  have hrounds : ltRounds s = (ltCnt s).setWidth 32 := by
    unfold ltRounds
    rw [hframe]
  unfold bbrLtBwSample
  simp only [hframe]
  split
  · rename_i happ
    refine .inr ⟨fun h => ?_, .inr rfl⟩
    rw [h.appLimited] at happ
    exact Bool.false_ne_true happ
  · rename_i happ
    rw [Bool.not_eq_true] at happ
    rw [← hrounds]
    generalize hs₁ : BbrSock.mk s.tp _ = s₁
    have hstay : s₁.sampling = ⟨true, ltCnt s, false, s.ca.ltBw⟩ := by
      rw [← hs₁, ← hsampling, ← huse]
      rfl
    split
    · rename_i hshort
      refine .inr ⟨fun h => h.longEnough hshort, .inl ⟨fun hlong => ?_, hstay⟩⟩
      exact absurd (BitVec.lt_trans hlong hshort) (by decide)
    · rename_i hlong
      split
      · rename_i htoo
        exact .inr ⟨fun h => h.notTooLong htoo, .inr rfl⟩
      · rename_i hnot
        split
        · rename_i hloss
          exact .inr ⟨fun h => h.losses hloss, .inl ⟨hnot, hstay⟩⟩
        · rename_i hloss
          have huse₁ : s₁.ca.ltUseBw = false := by rw [← hs₁, ← huse]
          have hsampling₁ : s₁.ca.ltIsSampling = true := by rw [← hs₁, ← hsampling]
          have hmeasured : Measured s₁ ↔ Complete s rs := by
            rw [← hs₁]
            exact ⟨fun ⟨h₁, h₂, h₃, h₄⟩ => ⟨happ, hlong, hnot, hloss, h₁, h₂, h₃, h₄⟩,
              fun h => ⟨h.delivered, h.lossy, h.positive, h.fits⟩⟩
          have hover (after : Sampling) : Over s₁ (ltNewBw s₁) after = Over s (ltNewBw s) after := by
            rw [← hs₁]
            rfl
          rw [← hmeasured, ← hover]
          rcases bbrLtBwMeasure_sampling (k := k) huse₁ hsampling₁ with h | ⟨h, hwait | hoff⟩
          · exact .inl h
          · exact .inr ⟨h, .inl ⟨hnot, hwait.trans hstay⟩⟩
          · exact .inr ⟨h, .inr hoff⟩

/-- A call when no interval is in progress: the first loss starts one. -/
theorem bbrLtBwSampling_starts {s : BbrSock M} (huse : s.ca.ltUseBw = false) (hidle : s.ca.ltIsSampling = false)
    (rs : RateSample) (rand : U32) :
    (bbrLtBwSampling k s rs rand).sampling = s.sampling ∨
      (bbrLtBwSampling k s rs rand).sampling = ⟨true, if s.ca.roundStart then 1 else 0, false, s.ca.ltBw⟩ ∨
      (bbrLtBwSampling k s rs rand).sampling = .off := by
  unfold bbrLtBwSampling
  rw [if_neg (by simp [huse]), if_neg (by simp [hidle])]
  split
  · exact .inl rfl
  · set s₁ : BbrSock M := bbrResetLtBwSamplingInterval s
    set s₂ : BbrSock M := { s₁ with ca := { s₁.ca with ltIsSampling := true } }
    have hcnt : ltCnt s₂ = if s.ca.roundStart then 1 else 0 := rfl
    rcases bbrLtBwSample_sampling (k := k) (s := s₂) rs huse rfl with ⟨hcomplete, -⟩ | ⟨-, ⟨-, h⟩ | h⟩
    · have hshort : ltRounds s₂ < bbrLtIntvlMinRtts := by
        have hzero : s₂.ca.ltRttCnt = 0 := rfl
        rw [ltRounds_eq, hzero]
        split <;> decide
      exact absurd hshort hcomplete.longEnough
    · exact .inr (.inl (hcnt ▸ h))
    · exact .inr (.inr h)

/-! ## The notes -/

/-- The rounds of the interval in progress; the rounds and the bandwidth of the one before it, in the same sampling; and
the rounds of probing since a long-term bandwidth is used. -/
structure LtNote where
  rounds : ℕ
  previous : Option (ℕ × U32)
  used : ℕ

def noteLt (n : LtNote) : Transition (BbrSock M) Action → LtNote
  | (s, a, _) =>
    match sampledAt s a with
    | none => n
    | some (s₁, rs, _) =>
      let round := if s₁.ca.roundStart then 1 else 0
      if s.ca.ltUseBw then { n with used := if s.ca.mode = .probeBw then n.used + round else n.used }
      else if s.ca.ltIsSampling = false then ⟨round, none, 0⟩
      else if Complete s₁ rs then ⟨0, some (n.rounds + round, ltNewBw s₁), 0⟩
      else { n with rounds := n.rounds + round, used := 0 }

/-- What the notes say about the state of the sampling. -/
structure LtKept (n : LtNote) (l : Sampling) : Prop where
  used : l.ltUseBw = true → l.ltRttCnt.toNat = n.used ∧ n.used < 48
  rounds : l.ltUseBw = false → l.ltIsSampling = true → l.ltRttCnt.toNat = n.rounds ∧ n.rounds ≤ 16
  previous : l.ltUseBw = false → l.ltIsSampling = true → l.ltBw ≠ 0 →
    ∃ r, n.previous = some (r, l.ltBw) ∧ 4 ≤ r ∧ r ≤ 16
  idle : l.ltUseBw = false → l.ltIsSampling = false → l.ltBw = 0

theorem LtKept.off (n : LtNote) : LtKept n .off :=
  ⟨fun h => (by cases h), fun _ h => (by cases h), fun _ h => (by cases h), fun _ _ => rfl⟩

theorem LtKept.in_use {n : LtNote} {l : Sampling} (huse : l.ltUseBw = true) (hcnt : l.ltRttCnt.toNat = n.used)
    (hlt : n.used < 48) : LtKept n l := by
  have hno : ¬ l.ltUseBw = false := by simp [huse]
  exact ⟨fun _ => ⟨hcnt, hlt⟩, fun h => absurd h hno, fun h => absurd h hno, fun h => absurd h hno⟩

/-- The rounds of the interval with the one that starts now, counted without a bound. -/
theorem LtKept.rounds_toNat {n : LtNote} {s : BbrSock M} (h : LtKept n s.sampling) (huse : s.ca.ltUseBw = false)
    (hsampling : s.ca.ltIsSampling = true) :
    (ltRounds s).toNat = n.rounds + (if s.ca.roundStart then 1 else 0) ∧ (ltCnt s).toNat = (ltRounds s).toNat := by
  have hcnt : s.ca.ltRttCnt.toNat = n.rounds := (h.rounds huse hsampling).1
  have hle : n.rounds ≤ 16 := (h.rounds huse hsampling).2
  rw [ltRounds_eq, ltCnt]
  split
  · simp [BitVec.toNat_add, hcnt]
    omega
  · simp [hcnt]
    omega

/-- While a long-term bandwidth is used, a call counts the round, or gives the bandwidth up at the 48th. -/
theorem LtKept.inUse {n : LtNote} {s : BbrSock M} (h : LtKept n s.sampling) (huse : s.ca.ltUseBw = true) (rand : U32) :
    if s.ca.mode = .probeBw ∧ s.ca.roundStart = true then
      if n.used = 47 then (bbrLtBwInUse s rand).sampling = .off
      else (bbrLtBwInUse s rand).sampling = { s.sampling with ltRttCnt := s.ca.ltRttCnt + 1 } ∧
        (s.ca.ltRttCnt + 1).toNat = n.used + 1
    else (bbrLtBwInUse s rand).sampling = s.sampling := by
  obtain ⟨hcnt, hlt⟩ := h.used huse
  have hcnt' : s.ca.ltRttCnt.toNat = n.used := hcnt
  have hnext : (s.ca.ltRttCnt + 1).toNat = n.used + 1 := by
    rw [BitVec.toNat_add, hcnt']
    exact Nat.mod_eq_of_lt (by simp; omega)
  have hmany : bbrLtBwMaxRtts ≤ (s.ca.ltRttCnt + 1).setWidth 32 ↔ n.used = 47 := by
    have hmax : bbrLtBwMaxRtts.toNat = 48 := rfl
    rw [BitVec.le_def, hmax, BitVec.toNat_setWidth, hnext, Nat.mod_eq_of_lt (by omega)]
    omega
  rw [bbrLtBwInUse_sampling]
  split
  · split
    · rename_i h47
      exact if_pos (hmany.mpr h47)
    · rename_i h47
      exact ⟨if_neg fun hle => h47 (hmany.mp hle), hnext⟩
  · rfl

/-- A call within an interval counts the rounds of it, and notes them when it is over. -/
theorem LtKept.sample {n : LtNote} {s : BbrSock M} (h : LtKept n s.sampling) (rs : RateSample)
    (huse : s.ca.ltUseBw = false) (hsampling : s.ca.ltIsSampling = true) :
    LtKept (if Complete s rs then ⟨0, some (n.rounds + (if s.ca.roundStart then 1 else 0), ltNewBw s), 0⟩
        else { n with rounds := n.rounds + (if s.ca.roundStart then 1 else 0), used := 0 })
      (bbrLtBwSample k s rs).sampling := by
  obtain ⟨hrounds, hcnt⟩ := h.rounds_toNat huse hsampling
  have hlimits : bbrLtIntvlMinRtts.toNat = 4 ∧ (4 * bbrLtIntvlMinRtts).toNat = 16 := ⟨rfl, rfl⟩
  rcases bbrLtBwSample_sampling (k := k) rs huse hsampling with
    ⟨hover, hafter | hafter⟩ | ⟨hnot, ⟨hle, hafter⟩ | hafter⟩
  · rw [if_pos hover, hafter]
    exact .in_use rfl rfl (Nat.succ_pos 47)
  · rw [if_pos hover, hafter]
    have hlong := hover.longEnough
    have htoo := hover.notTooLong
    rw [BitVec.lt_def, hlimits.1, hrounds] at hlong
    rw [BitVec.lt_def, hlimits.2, hrounds] at htoo
    refine ⟨fun h => (by cases h), fun _ _ => ⟨rfl, Nat.zero_le _⟩, fun _ _ _ => ⟨_, rfl, ?_, ?_⟩,
      fun _ h => (by cases h)⟩
    · omega
    · omega
  · rw [if_neg hnot, hafter]
    rw [BitVec.lt_def, hlimits.2, hrounds] at hle
    refine ⟨fun h => (by cases h), fun _ _ => ⟨hcnt.trans hrounds, ?_⟩, fun _ _ => h.previous huse hsampling,
      fun _ h => (by cases h)⟩
    show n.rounds + _ ≤ 16
    omega
  · rw [if_neg hnot, hafter]
    exact .off _

/-- **One action** keeps the notes true. -/
theorem acts_ltKept {n : LtNote} {s s' : BbrSock M} {a : Action} (h : LtKept n s.sampling) (hstep : Acts k s a s') :
    LtKept (noteLt n (s, a, s')) s'.sampling := by
  rw [acts_sampling hstep, noteLt]
  cases hat : sampledAt s a with
  | none =>
    simp only
    split
    · exact .off n
    · exact h
  | some call =>
    obtain ⟨s₁, rs, rand⟩ := call
    obtain ⟨hsame, hcycle, -, -⟩ := sampledAt_frame hat
    have huse : s₁.ca.ltUseBw = s.ca.ltUseBw := congrArg Sampling.ltUseBw hsame
    have hsampling : s₁.ca.ltIsSampling = s.ca.ltIsSampling := congrArg Sampling.ltIsSampling hsame
    have hmode : s₁.ca.mode = s.ca.mode := congrArg Cycle.mode hcycle
    rw [← hsame] at h
    simp only
    rw [← huse, ← hsampling, ← hmode]
    split
    · rename_i hin
      have hcall : bbrLtBwSampling k s₁ rs rand = bbrLtBwInUse s₁ rand := by rw [bbrLtBwSampling, if_pos hin]
      have hnext := h.inUse hin rand
      rw [hcall]
      split at hnext
      · rename_i hround
        rw [if_pos hround.1, if_pos hround.2]
        split at hnext
        · rw [hnext]
          exact .off _
        · rename_i h47
          have hlt := (h.used hin).2
          rw [hnext.1]
          apply LtKept.in_use
          · exact hin
          · exact hnext.2
          · show n.used + 1 < 48
            omega
      · rename_i hno
        have hused : (if s₁.ca.mode = .probeBw then n.used + (if s₁.ca.roundStart then 1 else 0) else n.used) =
            n.used := by
          by_cases hprobe : s₁.ca.mode = .probeBw
          · rw [if_pos hprobe, if_neg fun hround => hno ⟨hprobe, hround⟩, Nat.add_zero]
          · rw [if_neg hprobe]
        rw [hnext, hused]
        exact h
    · rename_i hout
      rw [Bool.not_eq_true] at hout
      split
      · rename_i hidle
        have hzero : s₁.ca.ltBw = 0 := h.idle hout hidle
        rcases bbrLtBwSampling_starts (k := k) hout hidle rs rand with hafter | hafter | hafter
        · rw [hafter]
          refine ⟨fun hno => ?_, fun _ hno => ?_, fun _ hno => ?_, fun _ _ => hzero⟩
          · exact absurd (hout.symm.trans hno) Bool.false_ne_true
          · exact absurd (hidle.symm.trans hno) Bool.false_ne_true
          · exact absurd (hidle.symm.trans hno) Bool.false_ne_true
        · rw [hafter, hzero]
          refine ⟨fun hno => (by cases hno), fun _ _ => ?_, fun _ _ hne => absurd rfl hne, fun _ hno => (by cases hno)⟩
          dsimp only
          split
          · exact ⟨rfl, by omega⟩
          · exact ⟨rfl, by omega⟩
        · rw [hafter]
          exact .off _
      · rename_i hbusy
        rw [Bool.not_eq_false] at hbusy
        have hcall : bbrLtBwSampling k s₁ rs rand = bbrLtBwSample k s₁ rs := by
          rw [bbrLtBwSampling, if_neg (by simp [hout]), if_pos hbusy]
        rw [hcall]
        exact h.sample rs hout hbusy

/-! ## Runs -/

theorem trace_ltKept {s₀ s : BbrSock M} {now : ℕ} {tr : List (Transition (BbrSock M) Action)}
    (hrun : Trace (Acts k) (bbrInit k s₀ now) tr s) : LtKept (history noteLt ⟨0, none, 0⟩ tr) s.sampling :=
  hrun.history_invariant (J := fun n s => LtKept n s.sampling) (fun _ _ _ _ h hs => acts_ltKept h hs) _ (.off _)

/-- The action starts a round, as an ACK or a timeout. -/
def StartsRound (s : BbrSock M) (a : Action) : Prop :=
  ∃ s₁ rs rand, sampledAt s a = some (s₁, rs, rand) ∧ s₁.ca.roundStart = true

/-- **How long a long-term bandwidth is used.** In a run from `bbr_init` it stays the same while it is used. An action
gives it up exactly if it resets the sampling, or starts the 48th round in `BBR_PROBE_BW` since it came into use. -/
theorem lt_bw_given_up_iff {s₀ s s' : BbrSock M} {now : ℕ} {a : Action} {tr : List (Transition (BbrSock M) Action)}
    (hrun : Trace (Acts k) (bbrInit k s₀ now) tr s) (hstep : Acts k s a s') (huse : s.ca.ltUseBw = true) :
    let n := history noteLt ⟨0, none, 0⟩ tr
    n.used < 48 ∧ (s'.ca.ltUseBw = true → s'.ca.ltBw = s.ca.ltBw) ∧
      (s'.ca.ltUseBw = false ↔ a.ResetsLt ∨ (n.used = 47 ∧ s.ca.mode = .probeBw ∧ StartsRound s a)) := by
  intro n
  have hkept : LtKept n s.sampling := trace_ltKept hrun
  have hnext := acts_sampling hstep
  have hfields {l : Sampling} (h : s'.sampling = l) : s'.ca.ltUseBw = l.ltUseBw ∧ s'.ca.ltBw = l.ltBw :=
    ⟨congrArg Sampling.ltUseBw h, congrArg Sampling.ltBw h⟩
  refine ⟨(hkept.used huse).2, ?_⟩
  cases hat : sampledAt s a with
  | none =>
    have hround : ¬ StartsRound s a := by
      rintro ⟨s₁, rs, rand, h, -⟩
      rw [hat] at h
      cases h
    rw [hat] at hnext
    dsimp only at hnext
    split at hnext
    · rename_i hreset
      obtain ⟨huse', -⟩ := hfields hnext
      rw [huse']
      exact ⟨fun h => (by cases h), iff_of_true rfl (.inl hreset)⟩
    · rename_i hreset
      obtain ⟨huse', hbw⟩ := hfields hnext
      rw [huse', hbw]
      exact ⟨fun _ => rfl, iff_of_false (by simp [BbrSock.sampling, huse])
        (not_or.mpr ⟨hreset, fun h => hround h.2.2⟩)⟩
  | some call =>
    obtain ⟨s₁, rs, rand⟩ := call
    obtain ⟨hsame, hcycle, -, -⟩ := sampledAt_frame hat
    have hreset : ¬ a.ResetsLt := by
      intro h
      unfold Action.ResetsLt at h
      split at h
      · cases hat
      · cases hat
      · exact h
    have hround : StartsRound s a ↔ s₁.ca.roundStart = true := by
      constructor
      · rintro ⟨s₂, rs₂, rand₂, h, hstart⟩
        rw [hat] at h
        cases h
        exact hstart
      · exact fun h => ⟨s₁, rs, rand, hat, h⟩
    have huse₁ : s₁.ca.ltUseBw = true := (congrArg Sampling.ltUseBw hsame).trans huse
    have hbw₁ : s₁.ca.ltBw = s.ca.ltBw := congrArg Sampling.ltBw hsame
    have hmode : s₁.ca.mode = s.ca.mode := congrArg Cycle.mode hcycle
    have hcall : bbrLtBwSampling k s₁ rs rand = bbrLtBwInUse s₁ rand := by rw [bbrLtBwSampling, if_pos huse₁]
    rw [hat] at hnext
    dsimp only at hnext
    rw [hcall] at hnext
    rw [← hsame] at hkept
    have hcases := hkept.inUse huse₁ rand
    rw [hround, or_iff_right hreset, ← hmode, ← hbw₁]
    split at hcases
    · rename_i hprobe
      split at hcases
      · rename_i h47
        obtain ⟨huse', -⟩ := hfields (hnext.trans hcases)
        rw [huse']
        exact ⟨fun h => (by cases h), iff_of_true rfl ⟨h47, hprobe⟩⟩
      · rename_i h47
        obtain ⟨huse', hbw⟩ := hfields (hnext.trans hcases.1)
        rw [huse', hbw]
        exact ⟨fun _ => rfl, iff_of_false (by simp [BbrSock.sampling, huse₁]) fun h => h47 h.1⟩
    · rename_i hout
      obtain ⟨huse', hbw⟩ := hfields (hnext.trans hcases)
      rw [huse', hbw]
      exact ⟨fun _ => rfl, iff_of_false (by simp [BbrSock.sampling, huse₁]) fun h => hout h.2⟩

/-- Two intervals of four timeouts each, with 8 packets delivered and 2 lost in 4 ms. -/
def policedRun : List Action :=
  let tp := (plainSock 10 10).tp
  let timeout : Action := .call (.setState tcpCaLoss 0)
  [timeout, timeout, timeout, .kernel { tp with delivered := 28, lost := 2, deliveredMstamp := 4000 }, timeout,
    timeout, timeout, timeout, .kernel { tp with delivered := 36, lost := 4, deliveredMstamp := 8000 }]

/-- A run of `plainKernel`, and what is looked at in it. -/
theorem trace_plain {α : Type} (s₀ : BbrSock U32) (acts : List Action) (f : BbrSock U32 → α) {x : α}
    (h : (transitions (fun s (a : Action) => some (a.run plainKernel s)) s₀ acts).map (fun p => f p.2) = some x) :
    ∃ tr s, Trace (Acts plainKernel) s₀ tr s ∧ f s = x := by
  obtain ⟨⟨tr, s⟩, htr, hx⟩ := Option.map_eq_some_iff.mp h
  exact ⟨tr, s, (Trace.of_transitions htr).mono fun _ _ _ h => Option.some.inj h, hx⟩

/-- An undo gives up the bandwidth. -/
theorem lt_bw_given_up_undo :
    ∃ tr s, Trace (Acts plainKernel) (bbrInit plainKernel (plainSock 10 10) 0) tr s ∧ s.ca.ltUseBw = true ∧
      ((Action.call .undoCwnd).run plainKernel s).ca.ltUseBw = false := by
  have hrun : (transitions (fun s (a : Action) => some (a.run plainKernel s)) (bbrInit plainKernel (plainSock 10 10) 0)
      (policedRun ++ [.call (.setState tcpCaLoss 0)])).map (fun p => p.2.ca.ltUseBw) = some true := by decide +kernel
  obtain ⟨tr, s, htrace, huse⟩ := trace_plain _ _ (fun s => s.ca.ltUseBw) hrun
  exact ⟨tr, s, htrace, huse, (lt_bw_given_up_iff htrace rfl huse).2.2.mpr (.inl trivial)⟩

/-- **When a policer is found.** An action of a run from `bbr_init` that brings a long-term bandwidth into use ends an
interval of 4 to 16 rounds. The interval before it, in the same sampling, had 4 to 16 rounds as well, and the long-term
bandwidth is half of the 32-bit sum of the bandwidths of the two. -/
theorem policer_two_intervals {s₀ s s' : BbrSock M} {now : ℕ} {a : Action} {tr : List (Transition (BbrSock M) Action)}
    (hrun : Trace (Acts k) (bbrInit k s₀ now) tr s) (hstep : Acts k s a s') (huse : s.ca.ltUseBw = false)
    (huse' : s'.ca.ltUseBw = true) :
    let n := history noteLt ⟨0, none, 0⟩ tr
    ∃ s₁ rs rand r bw, sampledAt s a = some (s₁, rs, rand) ∧ Complete s₁ rs ∧ n.previous = some (r, bw) ∧
      4 ≤ r ∧ r ≤ 16 ∧
      4 ≤ n.rounds + (if s₁.ca.roundStart then 1 else 0) ∧ n.rounds + (if s₁.ca.roundStart then 1 else 0) ≤ 16 ∧
      s'.ca.ltBw = (ltNewBw s₁ + bw) >>> 1 := by
  intro n
  have hkept : LtKept n s.sampling := trace_ltKept hrun
  have hnext := acts_sampling hstep
  cases hat : sampledAt s a with
  | none =>
    rw [hat] at hnext
    dsimp only at hnext
    have hfield := congrArg Sampling.ltUseBw hnext
    split at hfield
    · exact absurd (huse'.symm.trans hfield) (by decide)
    · exact absurd (huse'.symm.trans (hfield.trans huse)) (by decide)
  | some call =>
    obtain ⟨s₁, rs, rand⟩ := call
    obtain ⟨hsame, -, -, -⟩ := sampledAt_frame hat
    have huse₁ : s₁.ca.ltUseBw = false := (congrArg Sampling.ltUseBw hsame).trans huse
    rw [hat] at hnext
    dsimp only at hnext
    rw [← hsame] at hkept
    have hfield : (bbrLtBwSampling k s₁ rs rand).ca.ltUseBw = true := (congrArg Sampling.ltUseBw hnext).symm.trans huse'
    rcases bbrLtBwSampling_cases (k := k) huse₁ rs rand with ⟨⟨hjudged, hlossy, -⟩, -, havg⟩ | ⟨-, hno⟩
    · have hbusy := hjudged.sampling
      obtain ⟨hrounds, -⟩ := hkept.rounds_toNat huse₁ hbusy
      obtain ⟨r, hprevious, hmin, hmax⟩ := hkept.previous huse₁ hbusy hjudged.previous
      have hlimits : bbrLtIntvlMinRtts.toNat = 4 ∧ (4 * bbrLtIntvlMinRtts).toNat = 16 := ⟨rfl, rfl⟩
      have hlong := hjudged.longEnough
      have htoo := hjudged.notTooLong
      rw [BitVec.lt_def, hlimits.1, hrounds] at hlong
      rw [BitVec.lt_def, hlimits.2, hrounds] at htoo
      have hcomplete : Complete s₁ rs := ⟨hjudged.appLimited, hjudged.longEnough, hjudged.notTooLong, hjudged.losses,
        hjudged.delivered, hlossy, hjudged.positive, hjudged.fits⟩
      exact ⟨s₁, rs, rand, r, s₁.ca.ltBw, rfl, hcomplete, hprevious, hmin, hmax, not_lt.mp hlong, not_lt.mp htoo,
        (congrArg Sampling.ltBw hnext).trans havg⟩
    · exact absurd (hfield.symm.trans hno) (by decide)

/-- The last timeout of two such intervals. -/
theorem policer_two_intervals_timeouts :
    ∃ tr s s', Trace (Acts plainKernel) (bbrInit plainKernel (plainSock 10 10) 0) tr s ∧
      Acts plainKernel s (.call (.setState tcpCaLoss 0)) s' ∧ s.ca.ltUseBw = false ∧ s'.ca.ltUseBw = true ∧
      ∃ r bw, (history noteLt ⟨0, none, 0⟩ tr).previous = some (r, bw) ∧ 4 ≤ r ∧ r ≤ 16 := by
  have hrun : (transitions (fun s (a : Action) => some (a.run plainKernel s)) (bbrInit plainKernel (plainSock 10 10) 0)
      policedRun).map (fun p => (p.2.ca.ltUseBw, (bbrSetState plainKernel p.2 tcpCaLoss 0).ca.ltUseBw)) =
        some (false, true) := by decide +kernel
  obtain ⟨tr, s, htrace, hends⟩ := trace_plain _ _
    (fun s => (s.ca.ltUseBw, (bbrSetState plainKernel s tcpCaLoss 0).ca.ltUseBw)) hrun
  obtain ⟨huse, huse'⟩ := Prod.mk.inj hends
  have hstep : Acts plainKernel s (.call (.setState tcpCaLoss 0)) (bbrSetState plainKernel s tcpCaLoss 0) := rfl
  obtain ⟨s₁, rs, rand, r, bw, -, -, hprevious, hmin, hmax, -⟩ := policer_two_intervals htrace hstep huse huse'
  exact ⟨tr, s, _, htrace, hstep, huse, huse', r, bw, hprevious, hmin, hmax⟩

end CoupledCC.Bbr
