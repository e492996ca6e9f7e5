import CoupledCC.Lib.Floor
import CoupledCC.Bbr.Pacing

/-!
# The pacing rate of BBR over the integers

`bbr_rate_bytes_per_sec` multiplies three times and shifts twice, in an order chosen to stay within 64 bits.

- `rateOver`: the same computation on numbers of any size; `bbrRateBytesPerSec_toNat`: the two agree while no product
  wraps;
- `product_bound`: up to 2.9 Tbit/s and the gain `bbr_high_gain` none does;
- `pacing_rate_exact`: there the rate is less than 2 bytes per second below 99% of the bandwidth times the gain, and
  monotone.
-/

namespace CoupledCC.Bbr

open Word

/-- `bbr_rate_bytes_per_sec` on numbers that do not wrap. -/
def rateOver (rate mss gain : ℕ) : ℕ :=
  rate * mss * gain / 2 ^ 8 * 990000 / 2 ^ 24

/-- The three products of `bbr_rate_bytes_per_sec` fit into 64 bits. -/
structure ProductsFit (rate mss gain : ℕ) : Prop where
  bytes : rate * mss < 2 ^ 64
  gained : rate * mss * gain < 2 ^ 64
  margin : rate * mss * gain / 2 ^ 8 * 990000 < 2 ^ 64

/-- 99% of a bandwidth times a gain, in bytes per second. -/
def exactRate (bw mss gain : ℕ) : ℚ :=
  bw * mss * gain * 990000 / 2 ^ 32

/-- The limit in the comment: 2.9 Tbit/s are 362500 bytes per microsecond. -/
def bandwidthLimit : ℕ := 362500 * 2 ^ 24

theorem rateOver_mono {rate rate' gain gain' : ℕ} (hrate : rate ≤ rate') (mss : ℕ) (hgain : gain ≤ gain') :
    rateOver rate mss gain ≤ rateOver rate' mss gain' :=
  Floor.nested_mono (Nat.mul_le_mul (Nat.mul_le_mul_right mss hrate) hgain) _ _ _

/-- **Without a product that wraps** the code computes the rate of the numbers. -/
theorem bbrRateBytesPerSec_toNat {tp : BbrTcp} {rate gain : U64}
    (h : ProductsFit rate.toNat tp.mssCache.toNat gain.toNat) :
    (bbrRateBytesPerSec tp rate gain).toNat = rateOver rate.toNat tp.mssCache.toNat gain.toNat := by
  have hbytes : (rate * tp.mssCache.setWidth 64).toNat = rate.toNat * tp.mssCache.toNat := by
    rw [BitVec.toNat_mul_of_lt (by rw [toNat_setWidth64]; exact h.bytes), toNat_setWidth64]
  have hgained : (rate * tp.mssCache.setWidth 64 * gain).toNat = rate.toNat * tp.mssCache.toNat * gain.toNat := by
    rw [BitVec.toNat_mul_of_lt (by rw [hbytes]; exact h.gained), hbytes]
  have hscaled : ((rate * tp.mssCache.setWidth 64 * gain) >>> bbrScale).toNat =
      rate.toNat * tp.mssCache.toNat * gain.toNat / 2 ^ 8 := by
    rw [BitVec.toNat_ushiftRight, hgained, Nat.shiftRight_eq_div_pow]
    rfl
  have hmargin : (usecPerSec / 100 * (100 - bbrPacingMarginPercent)).toNat = 990000 := by decide
  unfold bbrRateBytesPerSec rateOver
  simp only
  rw [BitVec.toNat_ushiftRight, BitVec.toNat_mul_of_lt (by rw [hscaled, hmargin]; exact h.margin), hscaled, hmargin,
    Nat.shiftRight_eq_div_pow]
  rfl

/-- **The products up to the limit.** -/
theorem product_bound {bw mss gain : ℕ} (hlimit : bw * mss ≤ bandwidthLimit) (hgain : gain ≤ bbrHighGain.toNat) :
    ProductsFit bw mss gain := by
  have hhigh : bbrHighGain.toNat = 739 := by decide
  rw [hhigh] at hgain
  have hgained : bw * mss * gain ≤ bandwidthLimit * 739 := Nat.mul_le_mul hlimit hgain
  have hmargin : bw * mss * gain / 2 ^ 8 * 990000 ≤ bandwidthLimit * 739 / 2 ^ 8 * 990000 :=
    Nat.mul_le_mul_right _ (Nat.div_le_div_right hgained)
  refine ⟨lt_of_le_of_lt hlimit ?_, lt_of_le_of_lt hgained ?_, lt_of_le_of_lt hmargin ?_⟩
  · decide
  · decide
  · decide

/-- The truncations lose less than 2 bytes per second. -/
theorem rateOver_bounds (bw mss gain : ℕ) :
    exactRate bw mss gain - 2 < rateOver bw mss gain ∧ (rateOver bw mss gain : ℚ) ≤ exactRate bw mss gain := by
  have hexact : ((bw * mss * gain : ℕ) * (990000 : ℕ) / ((2 ^ 8 : ℕ) * (2 ^ 24 : ℕ)) : ℚ) = exactRate bw mss gain := by
    unfold exactRate
    push_cast
    norm_num
  have hle := Floor.nested_le (K := ℚ) (bw * mss * gain) (2 ^ 8) 990000 (2 ^ 24)
  have hlt := Floor.lt_nested (K := ℚ) (bw * mss * gain) 990000 (a := 2 ^ 8) (b := 2 ^ 24) (by decide) (by decide)
  rw [hexact] at hle hlt
  refine ⟨?_, hle⟩
  -- one truncation is of a value that is scaled down again, by `990000 / 2^24`
  have hloss : ((990000 : ℕ) / (2 ^ 24 : ℕ) + 1 : ℚ) < 2 := by norm_num
  unfold rateOver
  linarith

/-- A bandwidth and a gain below two others are within the limit too. -/
theorem ProductsFit.mono {rate rate' mss gain gain' : ℕ} (h : ProductsFit rate' mss gain') (hrate : rate ≤ rate')
    (hgain : gain ≤ gain') : ProductsFit rate mss gain := by
  have hbytes : rate * mss ≤ rate' * mss := Nat.mul_le_mul_right mss hrate
  have hgained : rate * mss * gain ≤ rate' * mss * gain' := Nat.mul_le_mul hbytes hgain
  have hmargin : rate * mss * gain / 2 ^ 8 * 990000 ≤ rate' * mss * gain' / 2 ^ 8 * 990000 :=
    Nat.mul_le_mul_right _ (Nat.div_le_div_right hgained)
  exact ⟨lt_of_le_of_lt hbytes h.bytes, lt_of_le_of_lt hgained h.gained, lt_of_le_of_lt hmargin h.margin⟩

/-- **The pacing rate up to the documented limit.** No product wraps, the rate is below 99% of the bandwidth times
the gain by less than 2, and the pacing rate grows with the bandwidth and with the gain and respects
`sk_max_pacing_rate`. -/
theorem pacing_rate_exact (tp : BbrTcp) (bw : U32) (gain : U64) (hgain : gain ≤ bbrHighGain)
    (hlimit : bw.toNat * tp.mssCache.toNat ≤ bandwidthLimit) :
    ProductsFit bw.toNat tp.mssCache.toNat gain.toNat ∧
      (exactRate bw.toNat tp.mssCache.toNat gain.toNat - 2 < (bbrRateBytesPerSec tp (bw.setWidth 64) gain).toNat ∧
        ((bbrRateBytesPerSec tp (bw.setWidth 64) gain).toNat : ℚ) ≤ exactRate bw.toNat tp.mssCache.toNat gain.toNat) ∧
      (∀ bw' gain', bw' ≤ bw → gain' ≤ gain → bbrBwToPacingRate tp bw' gain' ≤ bbrBwToPacingRate tp bw gain) ∧
      bbrBwToPacingRate tp bw gain ≤ tp.skMaxPacingRate := by
  have hfit : ProductsFit bw.toNat tp.mssCache.toNat gain.toNat := product_bound hlimit hgain
  have hrate (bw' : U32) (gain' : U64) (hbw : bw' ≤ bw) (hle : gain' ≤ gain) :
      (bbrRateBytesPerSec tp (bw'.setWidth 64) gain').toNat = rateOver bw'.toNat tp.mssCache.toNat gain'.toNat := by
    have hwide : (bw'.setWidth 64 : U64).toNat = bw'.toNat := toNat_setWidth64 bw'
    rw [bbrRateBytesPerSec_toNat (by rw [hwide]; exact hfit.mono hbw hle), hwide]
  refine ⟨hfit, ?_, ?_, ?_⟩
  · rw [hrate bw gain (BitVec.le_refl _) (BitVec.le_refl _)]
    exact rateOver_bounds _ _ _
  · intro bw' gain' hbw hle
    unfold bbrBwToPacingRate
    rw [BitVec.le_def, toNat_umin, toNat_umin, hrate bw' gain' hbw hle,
      hrate bw gain (BitVec.le_refl _) (BitVec.le_refl _)]
    exact min_le_min_right _ (rateOver_mono hbw _ hle)
  · unfold bbrBwToPacingRate
    rw [BitVec.le_def, toNat_umin]
    exact min_le_right _ _

/-- At the limit: an MSS of 1448 bytes, 250 packets per microsecond (`250 * 2^24`), and the highest gain. -/
theorem pacing_rate_exact_limit :
    let tp := { (plainSock 10 10).tp with mssCache := 1448 }
    ProductsFit 4194304000 1448 739 ∧
      exactRate 4194304000 1448 739 - 2 < (bbrRateBytesPerSec tp 4194304000 739).toNat ∧
      bbrBwToPacingRate tp 4194304000 739 ≤ tp.skMaxPacingRate := by
  intro tp
  obtain ⟨hfit, hbounds, -, hmax⟩ := pacing_rate_exact tp 4194304000 739 (by decide) (by decide)
  exact ⟨hfit, hbounds.1, hmax⟩

end CoupledCC.Bbr
