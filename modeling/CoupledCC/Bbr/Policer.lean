import CoupledCC.Bbr.Rate
import CoupledCC.Bbr.Model

/-!
# The policer test of BBR

`bbr_lt_bw_sampling` takes a rate for policed when two intervals in a row are lossy and have consistent bandwidths. The
tests compare 32-bit products (`LossyTest`, `RatioTest`) and a 64-bit one (`DiffTest`).

- `bbrLtBwSampling_cases`: a call finds a policer exactly when it judges the interval and the tests pass;
- `lossy_carry`, `ratio_carry`, `diff_carry`: a test on wrapped products against the same test on numbers;
- `policer_iff`: for which states the policer that is found is one over the integers.
-/

namespace CoupledCC.Bbr

open Word

variable {M : Type} (k : Kernel M)

/-- `abs` gives the distance of two bandwidths. -/
def Kernel.TrueDistance : Prop :=
  ∀ a b, (k.bwDistance a b).toNat = ((a.toNat : ℤ) - b.toNat).natAbs

/-! ## The interval -/

/-- The packets lost in the interval. -/
def ltLost (s : BbrSock M) : U32 :=
  s.tp.lost - s.ca.ltLastLost

/-- The packets delivered in the interval. -/
def ltDelivered (s : BbrSock M) : U32 :=
  s.tp.delivered - s.ca.ltLastDelivered

/-- The length of the interval, in milliseconds. -/
def ltInterval (s : BbrSock M) : U32 :=
  (s.tp.deliveredMstamp / usecPerMsec).setWidth 32 - s.ca.ltLastStamp

/-- The average delivery rate in the interval. -/
def ltNewBw (s : BbrSock M) : U32 :=
  ((ltDelivered s).setWidth 64 * bwUnit / (ltInterval s * usecPerMsec.setWidth 32).setWidth 64).setWidth 32

/-- The round trips in the interval, with the one that starts now. -/
def ltRounds (s : BbrSock M) : U32 :=
  (if s.ca.roundStart then bbrCountLtRtt s else s).ca.ltRttCnt.setWidth 32

/-- A call with this sample ends the interval and has one before it to compare with. -/
structure Judged (s : BbrSock M) (rs : RateSample) : Prop where
  sampling : s.ca.ltIsSampling = true
  appLimited : rs.isAppLimited = false
  longEnough : ¬ ltRounds s < bbrLtIntvlMinRtts
  notTooLong : ¬ 4 * bbrLtIntvlMinRtts < ltRounds s
  losses : rs.losses ≠ 0
  delivered : ltDelivered s ≠ 0
  positive : ¬ (ltInterval s).toInt < 1
  fits : ¬ 0xffffffff / usecPerMsec.setWidth 32 ≤ ltInterval s
  previous : s.ca.ltBw ≠ 0

/-- `(lost << BBR_SCALE) >= bbr_lt_loss_thresh * delivered`. -/
def LossyTest (s : BbrSock M) : Prop :=
  ¬ ltLost s <<< bbrScale < bbrLtLossThresh * ltDelivered s

/-- `diff * BBR_UNIT <= bbr_lt_bw_ratio * lt_bw`. -/
def RatioTest (s : BbrSock M) (bw : U32) : Prop :=
  k.bwDistance bw s.ca.ltBw * bbrUnit.setWidth 32 ≤ bbrLtBwRatio * s.ca.ltBw

/-- `bbr_rate_bytes_per_sec(diff, BBR_UNIT) <= bbr_lt_bw_diff`. -/
def DiffTest (s : BbrSock M) (bw : U32) : Prop :=
  bbrRateBytesPerSec s.tp ((k.bwDistance bw s.ca.ltBw).setWidth 64) bbrUnit ≤ bbrLtBwDiff

instance (s : BbrSock M) (bw : U32) : Decidable (RatioTest k s bw) := by
  unfold RatioTest
  infer_instance

/-- The call finds a policer. -/
def Found (s : BbrSock M) (rs : RateSample) : Prop :=
  Judged s rs ∧ LossyTest s ∧ (RatioTest k s (ltNewBw s) ∨ DiffTest k s (ltNewBw s))

variable {k}

/-- The end of an interval: the average of the two bandwidths is used from now on, or the new one is kept. -/
theorem bbrLtBwIntervalDone_cases {s : BbrSock M} (huse : s.ca.ltUseBw = false) (bw : U32) :
    (s.ca.ltBw ≠ 0 ∧ (RatioTest k s bw ∨ DiffTest k s bw) ∧ (bbrLtBwIntervalDone k s bw).ca.ltUseBw = true ∧
      (bbrLtBwIntervalDone k s bw).ca.ltBw = (bw + s.ca.ltBw) >>> 1) ∨
    (¬ (s.ca.ltBw ≠ 0 ∧ (RatioTest k s bw ∨ DiffTest k s bw)) ∧ (bbrLtBwIntervalDone k s bw).ca.ltUseBw = false) := by
  unfold bbrLtBwIntervalDone RatioTest DiffTest
  simp only
  split
  · rename_i hclose
    exact .inl ⟨hclose.1, hclose.2, rfl, rfl⟩
  · rename_i hclose
    exact .inr ⟨hclose, huse⟩

/-- The measurement of an interval with a loss at its end. -/
theorem bbrLtBwMeasure_cases {s : BbrSock M} {rs : RateSample} (huse : s.ca.ltUseBw = false)
    (hguard : Judged s rs ↔ ltDelivered s ≠ 0 ∧ ¬ (ltInterval s).toInt < 1 ∧
      ¬ 0xffffffff / usecPerMsec.setWidth 32 ≤ ltInterval s ∧ s.ca.ltBw ≠ 0) :
    (Found k s rs ∧ (bbrLtBwMeasure k s).ca.ltUseBw = true ∧
      (bbrLtBwMeasure k s).ca.ltBw = (ltNewBw s + s.ca.ltBw) >>> 1) ∨
    (¬ Found k s rs ∧ (bbrLtBwMeasure k s).ca.ltUseBw = false) := by
  have hmeasure : bbrLtBwMeasure k s =
      if ltDelivered s = 0 ∨ ltLost s <<< bbrScale < bbrLtLossThresh * ltDelivered s then s
      else if (ltInterval s).toInt < 1 then s
      else if 0xffffffff / usecPerMsec.setWidth 32 ≤ ltInterval s then bbrResetLtBwSampling s
      else bbrLtBwIntervalDone k s (ltNewBw s) := rfl
  rw [hmeasure]
  split
  · rename_i hwait
    refine .inr ⟨fun hfound => ?_, huse⟩
    rcases hwait with hzero | hloss
    · exact hfound.1.delivered hzero
    · exact hfound.2.1 hloss
  · rename_i hlossy
    rw [not_or] at hlossy
    split
    · rename_i hshort
      exact .inr ⟨fun hfound => hfound.1.positive hshort, huse⟩
    · rename_i hpositive
      split
      · rename_i hlong
        exact .inr ⟨fun hfound => hfound.1.fits hlong, rfl⟩
      · rename_i hfits
        rcases bbrLtBwIntervalDone_cases (k := k) huse (ltNewBw s) with ⟨hprev, hclose, hnew⟩ | ⟨hclose, hnew⟩
        · exact .inl ⟨⟨hguard.mpr ⟨hlossy.1, hpositive, hfits, hprev⟩, hlossy.2, hclose⟩, hnew⟩
        · exact .inr ⟨fun hfound => hclose ⟨hfound.1.previous, hfound.2.2⟩, hnew⟩

/-- A sampling interval in progress. -/
theorem bbrLtBwSample_cases {s : BbrSock M} (rs : RateSample) (huse : s.ca.ltUseBw = false)
    (hsampling : s.ca.ltIsSampling = true) :
    (Found k s rs ∧ (bbrLtBwSample k s rs).ca.ltUseBw = true ∧
      (bbrLtBwSample k s rs).ca.ltBw = (ltNewBw s + s.ca.ltBw) >>> 1) ∨
    (¬ Found k s rs ∧ (bbrLtBwSample k s rs).ca.ltUseBw = false) := by
  unfold bbrLtBwSample
  split
  · rename_i happ
    refine .inr ⟨fun hfound => ?_, rfl⟩
    rw [hfound.1.appLimited] at happ
    exact Bool.false_ne_true happ
  · rename_i happ
    rw [Bool.not_eq_true] at happ
    have hframe : ∃ cnt, (if s.ca.roundStart then bbrCountLtRtt s else s) =
        { s with ca := { s.ca with ltRttCnt := cnt } } := by
      split
      · exact ⟨_, rfl⟩
      · exact ⟨s.ca.ltRttCnt, rfl⟩
    obtain ⟨cnt, hcnt⟩ := hframe
    have hrounds : ltRounds s = cnt.setWidth 32 := by
      unfold ltRounds
      rw [hcnt]
    simp only
    rw [hcnt]
    split
    · rename_i hshort
      exact .inr ⟨fun hfound => hfound.1.longEnough (by rw [hrounds]; exact hshort), huse⟩
    · rename_i hlong
      rw [← hrounds] at hlong
      split
      · rename_i htoo
        exact .inr ⟨fun hfound => hfound.1.notTooLong (by rw [hrounds]; exact htoo), rfl⟩
      · rename_i hnot
        rw [← hrounds] at hnot
        split
        · rename_i hloss
          exact .inr ⟨fun hfound => hfound.1.losses hloss, huse⟩
        · rename_i hloss
          have hguard : Judged s rs ↔ ltDelivered s ≠ 0 ∧ ¬ (ltInterval s).toInt < 1 ∧
              ¬ 0xffffffff / usecPerMsec.setWidth 32 ≤ ltInterval s ∧ s.ca.ltBw ≠ 0 := by
            constructor
            · intro h
              exact ⟨h.delivered, h.positive, h.fits, h.previous⟩
            · rintro ⟨hdelivered, hpositive, hfits, hprev⟩
              exact ⟨hsampling, happ, hlong, hnot, hloss, hdelivered, hpositive, hfits, hprev⟩
          -- the number of rounds plays no further part
          have hmeasure (cnt : BitVec 7) :
              (bbrLtBwMeasure k { s with ca := { s.ca with ltRttCnt := cnt } }).ca.ltUseBw =
                (bbrLtBwMeasure k s).ca.ltUseBw ∧
              (bbrLtBwMeasure k { s with ca := { s.ca with ltRttCnt := cnt } }).ca.ltBw =
                (bbrLtBwMeasure k s).ca.ltBw := by
            unfold bbrLtBwMeasure bbrLtBwIntervalDone
            simp only
            split_ifs <;> exact ⟨rfl, rfl⟩
          rw [(hmeasure cnt).1, (hmeasure cnt).2]
          exact bbrLtBwMeasure_cases huse hguard

theorem ltRounds_eq (s : BbrSock M) :
    ltRounds s = (if s.ca.roundStart then s.ca.ltRttCnt + 1 else s.ca.ltRttCnt).setWidth 32 := by
  unfold ltRounds
  split <;> rfl

/-- **A call of `bbr_lt_bw_sampling`** on a path not known to be policed. An interval that starts with the call is not
judged. -/
theorem bbrLtBwSampling_cases {s : BbrSock M} (huse : s.ca.ltUseBw = false) (rs : RateSample) (rand : U32) :
    (Found k s rs ∧ (bbrLtBwSampling k s rs rand).ca.ltUseBw = true ∧
      (bbrLtBwSampling k s rs rand).ca.ltBw = (ltNewBw s + s.ca.ltBw) >>> 1) ∨
    (¬ Found k s rs ∧ (bbrLtBwSampling k s rs rand).ca.ltUseBw = false) := by
  unfold bbrLtBwSampling
  rw [if_neg (by simp [huse])]
  by_cases hsampling : s.ca.ltIsSampling = true
  · rw [if_pos hsampling]
    exact bbrLtBwSample_cases rs huse hsampling
  · rw [if_neg hsampling]
    have hnot : ¬ Found k s rs := fun hfound => hsampling hfound.1.sampling
    split
    · exact .inr ⟨hnot, huse⟩
    · set s₁ : BbrSock M := bbrResetLtBwSamplingInterval s
      set s₂ : BbrSock M := { s₁ with ca := { s₁.ca with ltIsSampling := true } }
      rcases bbrLtBwSample_cases (k := k) (s := s₂) rs huse rfl with ⟨hfound, -⟩ | ⟨-, hnew⟩
      · have hcnt : s₂.ca.ltRttCnt = 0 := rfl
        have hrounds : ltRounds s₂ < bbrLtIntvlMinRtts := by
          rw [ltRounds_eq, hcnt]
          split <;> decide
        exact absurd hrounds hfound.1.longEnough
      · exact .inr ⟨hnot, hnew⟩

/-! ## The tests over the integers -/

/-- The distance of the new bandwidth and the one of the previous interval. -/
def ltDiff (s : BbrSock M) : ℕ :=
  (((ltNewBw s).toNat : ℤ) - s.ca.ltBw.toNat).natAbs

/-- The products of a passed test for losses are in order exactly if the one of the losses wraps as often as the
other. -/
theorem lossy_carry {s : BbrSock M} (h : LossyTest s) :
    50 * (ltDelivered s).toNat ≤ (ltLost s).toNat * 256 ↔
      50 * (ltDelivered s).toNat / 2 ^ 32 ≤ (ltLost s).toNat * 256 / 2 ^ 32 := by
  unfold LossyTest at h
  rw [BitVec.lt_def, BitVec.toNat_shiftLeft, BitVec.toNat_mul, Nat.shiftLeft_eq] at h
  apply le_iff_carry_le
  exact Nat.not_lt.mp h

/-- The test for the ratio. -/
theorem ratio_carry {s : BbrSock M} (hk : k.TrueDistance) :
    ltDiff s * 8 ≤ s.ca.ltBw.toNat ↔
      256 * ltDiff s / 2 ^ 32 < 32 * s.ca.ltBw.toNat / 2 ^ 32 ∨
        (256 * ltDiff s / 2 ^ 32 = 32 * s.ca.ltBw.toNat / 2 ^ 32 ∧ RatioTest k s (ltNewBw s)) := by
  have htest : RatioTest k s (ltNewBw s) ↔ 256 * ltDiff s % 2 ^ 32 ≤ 32 * s.ca.ltBw.toNat % 2 ^ 32 := by
    have hunit : (bbrUnit.setWidth 32 : U32).toNat = 256 := by decide
    have hratio : bbrLtBwRatio.toNat = 32 := by decide
    unfold RatioTest ltDiff
    rw [BitVec.le_def, BitVec.toNat_mul, BitVec.toNat_mul, hk, hunit, hratio, Nat.mul_comm]
  have hscale : ltDiff s * 8 ≤ s.ca.ltBw.toNat ↔ 256 * ltDiff s ≤ 32 * s.ca.ltBw.toNat := by omega
  rw [htest, hscale]
  exact le_iff_carry

/-- The test for the byte rate of the difference. -/
theorem diff_carry {s : BbrSock M} (hk : k.TrueDistance) :
    rateOver (ltDiff s) s.tp.mssCache.toNat 256 ≤ 500 ↔
      ltDiff s * s.tp.mssCache.toNat * 990000 < 2 ^ 64 ∧ DiffTest k s (ltNewBw s) := by
  have hunit : bbrUnit.toNat = 256 := by decide
  have hbound : bbrLtBwDiff.toNat = 500 := by decide
  have hdist : ((k.bwDistance (ltNewBw s) s.ca.ltBw).setWidth 64 : U64).toNat = ltDiff s := by
    rw [toNat_setWidth64, hk]
    rfl
  have hcancel : ltDiff s * s.tp.mssCache.toNat * 256 / 2 ^ 8 = ltDiff s * s.tp.mssCache.toNat :=
    Nat.mul_div_cancel _ (by decide)
  have hover : rateOver (ltDiff s) s.tp.mssCache.toNat 256 = ltDiff s * s.tp.mssCache.toNat * 990000 / 2 ^ 24 := by
    unfold rateOver
    rw [hcancel]
  have hcode (hfits : ltDiff s * s.tp.mssCache.toNat * 990000 < 2 ^ 64) :
      DiffTest k s (ltNewBw s) ↔ rateOver (ltDiff s) s.tp.mssCache.toNat 256 ≤ 500 := by
    have hproducts : ProductsFit (ltDiff s) s.tp.mssCache.toNat 256 := by
      have hgained : ltDiff s * s.tp.mssCache.toNat * 256 ≤ ltDiff s * s.tp.mssCache.toNat * 990000 :=
        Nat.mul_le_mul_left _ (by decide)
      have hbytes : ltDiff s * s.tp.mssCache.toNat ≤ ltDiff s * s.tp.mssCache.toNat * 990000 :=
        Nat.le_mul_of_pos_right _ (by decide)
      exact ⟨lt_of_le_of_lt hbytes hfits, lt_of_le_of_lt hgained hfits, by rw [hcancel]; exact hfits⟩
    have hrate : (bbrRateBytesPerSec s.tp ((k.bwDistance (ltNewBw s) s.ca.ltBw).setWidth 64) bbrUnit).toNat =
        rateOver (ltDiff s) s.tp.mssCache.toNat 256 := by
      rw [bbrRateBytesPerSec_toNat (by rw [hdist, hunit]; exact hproducts), hdist, hunit]
    unfold DiffTest
    rw [BitVec.le_def, hrate, hbound]
  constructor
  · intro hslow
    have hfits : ltDiff s * s.tp.mssCache.toNat * 990000 < 2 ^ 64 := by
      rw [hover] at hslow
      omega
    exact ⟨hfits, (hcode hfits).mpr hslow⟩
  · rintro ⟨hfits, htest⟩
    exact (hcode hfits).mp htest

/-! ## What the test means -/

/-- The promise of a call that finds a policer: the interval was lossy, the two bandwidths are consistent, and their
average is used, all over the integers. -/
def PolicerMeans (k : Kernel M) (s : BbrSock M) (rs : RateSample) (rand : U32) : Prop :=
  s.ca.ltUseBw = false → (bbrLtBwSampling k s rs rand).ca.ltUseBw = true →
    50 * (ltDelivered s).toNat ≤ (ltLost s).toNat * 256 ∧
    (ltDiff s * 8 ≤ s.ca.ltBw.toNat ∨ rateOver (ltDiff s) s.tp.mssCache.toNat 256 ≤ 500) ∧
    (bbrLtBwSampling k s rs rand).ca.ltBw.toNat = ((ltNewBw s).toNat + s.ca.ltBw.toNat) / 2

/-- The condition, for a call whose 32-bit tests pass: the product of the losses wraps at least as often as that of the
delivered packets; a test for consistency passes whose products wrap in its favour, or not at all; and the sum of the
bandwidths does not wrap. -/
structure WrapsHarmless (k : Kernel M) (s : BbrSock M) : Prop where
  losses : 50 * (ltDelivered s).toNat / 2 ^ 32 ≤ (ltLost s).toNat * 256 / 2 ^ 32
  consistent : 256 * ltDiff s / 2 ^ 32 < 32 * s.ca.ltBw.toNat / 2 ^ 32 ∨
    (256 * ltDiff s / 2 ^ 32 = 32 * s.ca.ltBw.toNat / 2 ^ 32 ∧ RatioTest k s (ltNewBw s)) ∨
    (ltDiff s * s.tp.mssCache.toNat * 990000 < 2 ^ 64 ∧ DiffTest k s (ltNewBw s))
  sum : (ltNewBw s).toNat + s.ca.ltBw.toNat < 2 ^ 32

/-- The average of the code is that of the numbers exactly if the sum does not wrap. -/
theorem average_iff (a b : U32) : ((a + b) >>> 1).toNat = (a.toNat + b.toNat) / 2 ↔ a.toNat + b.toNat < 2 ^ 32 := by
  have ha := a.isLt
  have hb := b.isLt
  rw [BitVec.toNat_ushiftRight, BitVec.toNat_add, Nat.shiftRight_eq_div_pow]
  omega

/-- **When the policer test means what it says.** -/
theorem policer_iff (hk : k.TrueDistance) (s : BbrSock M) (rs : RateSample) (rand : U32) :
    PolicerMeans k s rs rand ↔ (s.ca.ltUseBw = false → Found k s rs → WrapsHarmless k s) := by
  unfold PolicerMeans
  refine forall_congr' fun huse => ?_
  rcases bbrLtBwSampling_cases (k := k) huse rs rand with ⟨hfound, hnew, havg⟩ | ⟨hnot, hnew⟩
  · rw [hnew, havg, average_iff, lossy_carry hfound.2.1, ratio_carry hk, diff_carry hk]
    constructor
    · intro hmeans _
      obtain ⟨hlosses, hconsistent, hsum⟩ := hmeans rfl
      exact ⟨hlosses, or_assoc.mp hconsistent, hsum⟩
    · intro hharmless _
      have h := hharmless hfound
      exact ⟨h.losses, or_assoc.mpr h.consistent, h.sum⟩
  · rw [hnew]
    exact ⟨fun _ hfound => absurd hfound hnot, fun _ h => absurd h Bool.false_ne_true⟩

theorem plainKernel_trueDistance : plainKernel.TrueDistance := by
  intro a b
  show (if a < b then b - a else a - b).toNat = _
  split
  · rename_i hlt
    rw [BitVec.lt_def] at hlt
    rw [BitVec.toNat_sub_of_le (by rw [BitVec.le_def]; omega)]
    omega
  · rename_i hle
    rw [BitVec.lt_def] at hle
    rw [BitVec.toNat_sub_of_le (by rw [BitVec.le_def]; omega)]
    omega

/-- A connection in its second sampling interval, which lasts 4 ms so far: what was lost and delivered in it, and the
bandwidth of the first. -/
def secondInterval (lost delivered ltBw : U32) : BbrSock U32 where
  tp := { (plainSock 10 10).tp with lost := lost, delivered := delivered, deliveredMstamp := 4000 }
  ca := { (plainSock 10 10).ca with ltIsSampling := true, ltRttCnt := 4, ltBw := ltBw }

/-- A sample with a loss. -/
def lossyAck : RateSample :=
  ⟨0, 8, 1000, 1000, 1, 8, 10, false, false⟩

/-- 8 packets delivered and 2 lost, as in the interval before: a policer is found, and it means what it says. -/
theorem policer_iff_slow :
    (bbrLtBwSampling plainKernel (secondInterval 2 8 33554) lossyAck 0).ca.ltUseBw = true ∧
      PolicerMeans plainKernel (secondInterval 2 8 33554) lossyAck 0 :=
  ⟨by decide, (policer_iff plainKernel_trueDistance _ _ _).mpr fun _ _ =>
    ⟨by decide, .inr (.inl ⟨by decide, by decide⟩), by decide⟩⟩

/-- One packet per microsecond in the first interval and two in the second: the difference of the bandwidths is `2^24`,
whose product with `BBR_UNIT` wraps to 0. -/
theorem policer_inconsistent :
    ltNewBw (secondInterval 2000 8000 16777216) = 33554432 ∧
      (bbrLtBwSampling plainKernel (secondInterval 2000 8000 16777216) lossyAck 0).ca.ltUseBw = true ∧
      ¬ PolicerMeans plainKernel (secondInterval 2000 8000 16777216) lossyAck 0 := by
  have hfound : (bbrLtBwSampling plainKernel (secondInterval 2000 8000 16777216) lossyAck 0).ca.ltUseBw = true := by
    decide
  refine ⟨by decide, hfound, fun hmeans => ?_⟩
  obtain ⟨-, hconsistent, -⟩ := hmeans rfl hfound
  revert hconsistent
  decide

end CoupledCC.Bbr
