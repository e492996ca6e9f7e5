import Mathlib.Data.Nat.Size
import CoupledCC.Cubic.RootAccuracy

/-!
# The guard and the words of the cube root

The bit length that `fls64` gives, and the ranges of what `cubic_root` computes from it for an argument of 64 or more.

- `fls64_toNat`: `fls64` is the bit length rounded up to an even number, since the last test of its chain is commented
  out;
- `fls64_highest_iff`: so it finds the highest set bit exactly when the bit length is even, and it is monotone;
- `cubicRoot_safe`: the guard of the table is never taken and nothing wraps.
-/

namespace CoupledCC.Cubic

open Word

/-! ## The bit length -/

/-- `fls64` of `x` is the number of the highest set bit, from 1 on, and 0 without one. -/
def HighestBit (x : U64) : Prop :=
  if x = 0 then (fls64 x).toNat = 0
  else 1 ≤ (fls64 x).toNat ∧ 2 ^ ((fls64 x).toNat - 1) ≤ x.toNat ∧ x.toNat < 2 ^ (fls64 x).toNat

instance (x : U64) : Decidable (HighestBit x) :=
  inferInstanceAs (Decidable (if x = 0 then (fls64 x).toNat = 0
    else 1 ≤ (fls64 x).toNat ∧ 2 ^ ((fls64 x).toNat - 1) ≤ x.toNat ∧ x.toNat < 2 ^ (fls64 x).toNat))

/-- **`fls64` rounds the bit length up to an even number.** -/
theorem fls64_toNat (x : U64) : (fls64 x).toNat = Nat.size x.toNat + Nat.size x.toNat % 2 := by
  by_cases hx : x = 0
  · subst hx
    decide
  · obtain ⟨n, hfls, hn, -, hlow, hhigh⟩ := fls64_bounds hx
    have hge : 2 * n - 2 < Nat.size x.toNat := Nat.lt_size.mpr hlow
    have hle : Nat.size x.toNat ≤ 2 * n := Nat.size_le.mpr hhigh
    omega

/-- Only the bit length tells the highest set bit. -/
theorem highestBit_iff_size (x : U64) : HighestBit x ↔ (fls64 x).toNat = Nat.size x.toNat := by
  unfold HighestBit
  by_cases hx : x = 0
  · subst hx
    rw [if_pos rfl]
    exact Iff.rfl
  · have hpos : 0 < Nat.size x.toNat := by
      rw [Nat.size_pos]
      exact Nat.pos_of_ne_zero fun h => hx (BitVec.eq_of_toNat_eq h)
    rw [if_neg hx, ← Nat.lt_size, ← Nat.size_le]
    omega

/-- **The highest set bit** is found exactly in the words of an even bit length; a larger word never has a smaller
`fls64`. -/
theorem fls64_highest_iff (x : U64) :
    (HighestBit x ↔ Even (Nat.size x.toNat)) ∧ ∀ y, x ≤ y → fls64 x ≤ fls64 y := by
  constructor
  · rw [highestBit_iff_size, fls64_toNat, Nat.even_iff]
    omega
  · intro y hxy
    have hsize := Nat.size_le_size (BitVec.le_def.mp hxy)
    rw [BitVec.le_def, fls64_toNat, fls64_toNat]
    omega

/-- A word of four bits. -/
theorem fls64_highest_iff_nine : HighestBit 9 ∧ fls64 9 ≤ fls64 16 := by
  obtain ⟨hiff, hmono⟩ := fls64_highest_iff 9
  exact ⟨hiff.mpr (by decide), hmono 16 (by decide)⟩

/-- The word 1 has its highest bit at 1, but its `fls64` is 2. -/
theorem fls64_one : fls64 1 = 2 ∧ ¬ HighestBit 1 := by decide

/-! ## The parts of the cube root -/

/-- `b` of `cubic_root`. -/
def rootB (a : U64) : U32 :=
  ((fls64 a * 84) >>> 8) - 1

/-- `shift` of `cubic_root`, the index into the table. -/
def rootIndex (a : U64) : U32 :=
  (a >>> (rootB a * 3)).setWidth 32

/-- The first estimate `x` of `cubic_root`. -/
def rootEstimate (a : U64) : U32 :=
  firstEstimate (rootB a) (rootIndex a)

/-- `(__u64)x * (__u64)(x - 1)`, the divisor of the Newton step. -/
def rootDivisor (a : U64) : U64 :=
  (rootEstimate a).setWidth 64 * (rootEstimate a - 1).setWidth 64

theorem cubicRoot_parts (a : U64) :
    cubicRoot a =
      if a < 64 then some ((vAt a.toNat + 35) >>> 6)
      else if 64 ≤ rootIndex a then some 0
      else (checkedDiv a (rootDivisor a)).map fun q => ((2 * rootEstimate a + q.setWidth 32) * 341) >>> 10 :=
  rfl

/-- What `cubic_root` computes for `a` stays in its words: every value is the one over the naturals. -/
structure RootSafe (a : U64) : Prop where
  /-- `b * 84`, and the `- 1` after the shift. -/
  bits : (fls64 a).toNat * 84 < 2 ^ 32 ∧ (rootB a).toNat + 1 = (fls64 a).toNat * 84 / 2 ^ 8
  shiftCount : (rootB a * 3).toNat = 3 * (rootB a).toNat ∧ 3 * (rootB a).toNat < 64
  index : (rootIndex a).toNat = a.toNat / 2 ^ (3 * (rootB a).toNat) ∧ a.toNat / 2 ^ (3 * (rootB a).toNat) < 64
  guard : ¬ 64 ≤ rootIndex a
  /-- The shift by `b`. -/
  shifted : ((vAt (rootIndex a).toNat).toNat + 10) * 2 ^ (rootB a).toNat < 2 ^ 32
  estimate : 2 ≤ (rootEstimate a).toNat ∧
    (rootEstimate a).toNat = ((vAt (rootIndex a).toNat).toNat + 10) * 2 ^ (rootB a).toNat / 2 ^ 6
  divisor : rootDivisor a ≠ 0 ∧ (rootDivisor a).toNat = (rootEstimate a).toNat * ((rootEstimate a).toNat - 1)
  /-- `2 * x` plus the quotient, which is itself cut to 32 bits. -/
  sum : 2 * (rootEstimate a).toNat + a.toNat / (rootDivisor a).toNat < 2 ^ 32
  product : (2 * (rootEstimate a).toNat + a.toNat / (rootDivisor a).toNat) * 341 < 2 ^ 32

/-- The computation of `b`. -/
theorem rootB_toNat {a : U64} (ha : 64 ≤ a.toNat) :
    (fls64 a).toNat ≤ 64 ∧ (rootB a).toNat + 1 = (fls64 a).toNat * 84 / 2 ^ 8 := by
  have hsize : 6 < Nat.size a.toNat := Nat.lt_size.mpr ha
  have hsize' : Nat.size a.toNat ≤ 64 := Nat.size_le.mpr a.isLt
  have hfls := fls64_toNat a
  have hmul : (fls64 a * 84).toNat = (fls64 a).toNat * 84 :=
    BitVec.toNat_mul_of_lt (show (fls64 a).toNat * 84 < 2 ^ 32 by omega)
  have hquot : ((fls64 a * 84) >>> 8).toNat = (fls64 a).toNat * 84 / 2 ^ 8 := by
    rw [BitVec.toNat_ushiftRight, hmul, Nat.shiftRight_eq_div_pow]
  have hone : (1 : U32).toNat = 1 := rfl
  refine ⟨by omega, ?_⟩
  rw [rootB, BitVec.toNat_sub_of_le (by rw [BitVec.le_def]; omega), hquot, hone]
  omega

/-- **Nothing of the computation leaves its word.** -/
theorem rootSafe {a : U64} (ha : 64 ≤ a.toNat) : RootSafe a := by
  obtain ⟨hfls, hb⟩ := rootB_toNat ha
  obtain ⟨b, hbeq, hb1, hb20, hlow, hhigh⟩ := estimate_range ha
  change rootB a = b at hbeq
  rw [← hbeq] at hb1 hb20 hlow hhigh
  obtain ⟨hshift, hindex, hbound⟩ := shift_range hb20 hlow hhigh
  change (rootIndex a).toNat = _ at hshift
  obtain ⟨hfour, hsixty⟩ := shift_bounds hindex hbound
  have hthree : (3 : U32).toNat = 3 := rfl
  have hcount : (rootB a * 3).toNat = 3 * (rootB a).toNat := by
    rw [BitVec.toNat_mul_of_lt (by rw [hthree]; omega), hthree, Nat.mul_comm]
  have hfour' : 4 ≤ (rootIndex a).toNat := hshift ▸ hfour
  have hsixty' : (rootIndex a).toNat < 64 := hshift ▸ hsixty
  have hguard : ¬ 64 ≤ rootIndex a := by
    rw [BitVec.not_le]
    exact hsixty'
  obtain ⟨hx, hxlow⟩ := firstEstimate_spec hb20 hfour' hsixty'
  change (rootEstimate a).toNat = _ at hx
  have hx2 : 2 ≤ (rootEstimate a).toNat := le_trans (Nat.le_self_pow (by omega) 2) hxlow
  have hentry : 118 ≤ (vAt (rootIndex a).toNat).toNat ∧ (vAt (rootIndex a).toNat).toNat ≤ 254 :=
    vAt_range ⟨(rootIndex a).toNat, hsixty'⟩ hfour'
  have hshifted : ((vAt (rootIndex a).toNat).toNat + 10) * 2 ^ (rootB a).toNat < 2 ^ 32 := by
    calc ((vAt (rootIndex a).toNat).toNat + 10) * 2 ^ (rootB a).toNat ≤ 264 * 2 ^ 20 :=
          Nat.mul_le_mul (by omega) (Nat.pow_le_pow_right (by decide) hb20)
      _ < 2 ^ 32 := by decide
  have hdivisor : (rootDivisor a).toNat = (rootEstimate a).toNat * ((rootEstimate a).toNat - 1) :=
    newtonDivisor_toNat (by omega)
  have hpos : 0 < (rootEstimate a).toNat * ((rootEstimate a).toNat - 1) := Nat.mul_pos (by omega) (by omega)
  have hproduct := newton_product_lt ⟨hb1, hindex, hbound⟩ (by omega) hsixty
  rw [← hshift] at hproduct
  rw [show estimate (rootB a).toNat (rootIndex a).toNat = (rootEstimate a).toNat from hx.symm, ← hdivisor] at hproduct
  exact ⟨⟨by omega, hb⟩, ⟨hcount, by omega⟩, ⟨hshift, hsixty⟩, hguard, hshifted, ⟨hx2, hx⟩,
    ⟨ne_zero_of_pos (hdivisor ▸ hpos), hdivisor⟩, by omega, hproduct⟩

/-- **The guard and the arithmetic of the cube root are safe**, and so is the argument that `bictcp_update` computes. -/
theorem cubicRoot_safe {a : U64} (ha : 64 ≤ a.toNat) :
    RootSafe a ∧
      (∃ r, cubicRoot a = some r ∧
        r.toNat = (2 * (rootEstimate a).toNat + a.toNat / (rootDivisor a).toNat) * 341 / 2 ^ 10) ∧
      ∀ lastMaxCwnd cwnd : U32, cwnd < lastMaxCwnd →
        cubeFactor.toNat * (lastMaxCwnd.toNat - cwnd.toNat) ≤ 2 ^ 64 - 1 ∧
          (cubeFactor * (lastMaxCwnd - cwnd).setWidth 64).toNat =
            cubeFactor.toNat * (lastMaxCwnd.toNat - cwnd.toNat) := by
  have hsafe := rootSafe ha
  have hsmall : ¬ a < 64 := by
    rw [BitVec.lt_def]
    simpa using ha
  refine ⟨hsafe, ⟨((2 * rootEstimate a + (a / rootDivisor a).setWidth 32) * 341) >>> 10, ?_, ?_⟩, ?_⟩
  · rw [cubicRoot_parts, if_neg hsmall, if_neg hsafe.guard, checkedDiv_ne hsafe.divisor.1]
    rfl
  · have hproduct := hsafe.product
    rw [hsafe.divisor.2] at hproduct ⊢
    exact newtonStep_toNat hsafe.estimate.1 hproduct
  · intro lastMaxCwnd cwnd h
    have hfactor : cubeFactor.toNat = 2681735677 := rfl
    have hlt := lastMaxCwnd.isLt
    rw [rootArgument_toNat h, hfactor]
    exact ⟨by omega, rfl⟩

/-- The largest argument. -/
theorem cubicRoot_safe_max :
    RootSafe 0xffffffffffffffff ∧ cubeFactor.toNat * ((0xffffffff : U32).toNat - (2 : U32).toNat) ≤ 2 ^ 64 - 1 := by
  obtain ⟨hsafe, -, hargument⟩ := cubicRoot_safe (a := 0xffffffffffffffff) (by decide)
  exact ⟨hsafe, (hargument 0xffffffff 2 (by decide)).1⟩

end CoupledCC.Cubic
