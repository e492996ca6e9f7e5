import CoupledCC.Lib.Curve
import CoupledCC.Cubic.Callbacks

/-!
# The target of the CUBIC controller

The target a call computes, against the cubic curve over the integers (`exactTarget`). The curve is that of the epoch
the call finds open, or opens (`callEpoch`).

- `bicTarget_toNat`: the target in its words: the cube loses its bits from `2^64` on, the difference is taken modulo
  `2^32`;
- `bicTarget_exact_iff`: the target is the curve exactly where the distance from `K` is at most 355668 units and the
  curve is a 32-bit number (`InRange`); there it never decreases.
-/

namespace CoupledCC.Cubic

open Word Curve

/-! ## The epoch of a call -/

/-- What the cubic function knows of an epoch: its start, `bic_K` and the origin point. -/
structure Epoch where
  start : U32
  bicK : U32
  bicOriginPoint : U32
deriving Repr, DecidableEq

/-- The epoch of a state. -/
def Bictcp.epoch (ca : Bictcp) : Epoch :=
  ⟨ca.epochStart, ca.bicK, ca.bicOriginPoint⟩

/-- The epoch a call computes in: the open one, or the one it opens. -/
def callEpoch (ca : Bictcp) (cwnd start : U32) : Option Epoch :=
  if ca.epochStart ≠ 0 then some ca.epoch
  else if ca.lastMaxCwnd ≤ cwnd then some ⟨start, 0, cwnd⟩
  else (cubicRoot (cubeFactor * (ca.lastMaxCwnd - cwnd).setWidth 64)).map fun k => ⟨start, k, ca.lastMaxCwnd⟩

/-- A call that reaches the cubic function does so in its epoch, with the delay it was given. -/
theorem bictcpPath_epoch {cfg : Config} {ca ca₁ : Bictcp} {cwnd acked : U32} {clk : Jiffies}
    (h : bictcpPath cfg ca cwnd acked clk = some (.cubic ca₁)) :
    callEpoch ca cwnd clk.start = some ca₁.epoch ∧ ca₁.delayMin = ca.delayMin := by
  unfold bictcpPath at h
  simp only at h
  split at h
  · cases h
  · split at h
    · cases h
    · obtain ⟨ca₂, hrecord, hca₂⟩ := Option.map_eq_some_iff.mp h
      cases hca₂
      unfold bictcpRecord at hrecord
      unfold callEpoch
      simp only at hrecord
      by_cases hzero : ca.epochStart = 0
      · rw [if_pos hzero] at hrecord
        rw [if_neg (not_not.mpr hzero)]
        unfold bictcpOpenEpoch at hrecord
        simp only at hrecord
        split at hrecord
        · rename_i hle
          cases hrecord
          rw [if_pos hle]
          exact ⟨rfl, rfl⟩
        · rename_i hle
          obtain ⟨k, hk, rfl⟩ := Option.map_eq_some_iff.mp hrecord
          rw [if_neg hle, hk]
          exact ⟨rfl, rfl⟩
      · rw [if_neg hzero] at hrecord
        cases hrecord
        rw [if_pos hzero]
        exact ⟨rfl, rfl⟩

/-! ## The target in its words -/

/-- The time since the start of the epoch in units of `1/1024` s, over the naturals. -/
def exactTime (cfg : Config) (elapsed delay : ℕ) : ℕ :=
  (elapsed * (1000000 / cfg.hz.toNat) + delay) * 1024 / 1000000

/-- The cubic function over the integers. -/
def exactTarget (e : Epoch) (t : ℕ) : ℤ :=
  curve 410 (2 ^ 40) e.bicK.toNat e.bicOriginPoint.toNat t

/-- Below `2^31` jiffies the time since the start of the epoch is exact. -/
theorem cubicTime_toNat (cfg : Config) (ca : Bictcp) {now : U32} (h : (now - ca.epochStart).toNat < 2 ^ 31) :
    (cubicTime cfg ca now).toNat = exactTime cfg (now - ca.epochStart).toNat ca.delayMin.toNat := by
  have hsign : ((now - ca.epochStart).signExtend 64 : U64).toNat = (now - ca.epochStart).toNat := by
    rw [BitVec.signExtend_eq_setWidth_of_msb_false (BitVec.msb_eq_false_iff_two_mul_lt.mpr (by omega)),
      toNat_setWidth64]
  have hjiffy : cfg.usecPerJiffy.toNat = 1000000 / cfg.hz.toNat := BitVec.toNat_udiv
  have hle : 1000000 / cfg.hz.toNat ≤ 1000000 := Nat.div_le_self _ _
  have hprod : (now - ca.epochStart).toNat * (1000000 / cfg.hz.toNat) ≤ (2 ^ 31 - 1) * 1000000 :=
    Nat.mul_le_mul (by omega) hle
  have hmul : ((now - ca.epochStart).signExtend 64 * cfg.usecPerJiffy : U64).toNat =
      (now - ca.epochStart).toNat * (1000000 / cfg.hz.toNat) := by
    rw [BitVec.toNat_mul_of_lt (by rw [hsign, hjiffy]; omega), hsign, hjiffy]
  have hdelay := ca.delayMin.isLt
  have hadd : ((now - ca.epochStart).signExtend 64 * cfg.usecPerJiffy + ca.delayMin.setWidth 64 : U64).toNat =
      (now - ca.epochStart).toNat * (1000000 / cfg.hz.toNat) + ca.delayMin.toNat := by
    rw [BitVec.toNat_add_of_lt (by rw [hmul, toNat_setWidth64]; omega), hmul, toNat_setWidth64]
  unfold cubicTime exactTime
  rw [BitVec.toNat_udiv, toNat_shiftLeft_of_lt (by rw [hadd]; omega), hadd]
  rfl

/-- The cube in its word: what lies above `2^64` is lost, and the narrowing loses nothing. -/
theorem cube_toNat (x : U64) :
    (((cubeRttScale * x * x * x) >>> 40).setWidth 32 : U32).toNat = 410 * x.toNat ^ 3 % 2 ^ 64 / 2 ^ 40 := by
  have hcube : (cubeRttScale * x * x * x).toNat = 410 * x.toNat ^ 3 % 2 ^ 64 := by
    have hscale : cubeRttScale.toNat = 410 := rfl
    simp only [BitVec.toNat_mul, hscale]
    rw [Nat.mod_mul_mod, Nat.mul_assoc (410 * x.toNat % 2 ^ 64), Nat.mod_mul_mod]
    congr 1
    ring
  have hlt : 410 * x.toNat ^ 3 % 2 ^ 64 < 2 ^ 64 := Nat.mod_lt _ (by decide)
  rw [BitVec.toNat_setWidth, BitVec.toNat_ushiftRight, hcube, Nat.shiftRight_eq_div_pow]
  exact Nat.mod_eq_of_lt (by omega)

/-- **The target in its words.** -/
theorem bicTarget_toNat (cfg : Config) (ca : Bictcp) {now : U32} (h : (now - ca.epochStart).toNat < 2 ^ 31) :
    let t := exactTime cfg (now - ca.epochStart).toNat ca.delayMin.toNat
    (bicTarget cfg ca now).toNat =
      if t < ca.bicK.toNat then
        (ca.bicOriginPoint.toNat + (2 ^ 32 - 410 * (ca.bicK.toNat - t) ^ 3 % 2 ^ 64 / 2 ^ 40)) % 2 ^ 32
      else (ca.bicOriginPoint.toNat + 410 * (t - ca.bicK.toNat) ^ 3 % 2 ^ 64 / 2 ^ 40) % 2 ^ 32 := by
  intro t
  have ht : (cubicTime cfg ca now).toNat = t := cubicTime_toNat cfg ca h
  have hk := toNat_setWidth64 ca.bicK
  have hside : cubicTime cfg ca now < ca.bicK.setWidth 64 ↔ t < ca.bicK.toNat := by
    rw [BitVec.lt_def, ht, hk]
  unfold bicTarget
  by_cases hlt : t < ca.bicK.toNat
  · have hoffs : (ca.bicK.setWidth 64 - cubicTime cfg ca now).toNat = ca.bicK.toNat - t := by
      rw [BitVec.toNat_sub_of_le (by rw [BitVec.le_def]; omega), hk, ht]
    simp only [if_pos (hside.mpr hlt), if_pos hlt]
    rw [BitVec.toNat_sub, cube_toNat, hoffs, Nat.add_comm]
  · have hoffs : (cubicTime cfg ca now - ca.bicK.setWidth 64).toNat = t - ca.bicK.toNat := by
      rw [BitVec.toNat_sub_of_le (by rw [BitVec.le_def]; omega), hk, ht]
    simp only [if_neg (fun hc => hlt (hside.mp hc)), if_neg hlt]
    rw [BitVec.toNat_add, cube_toNat, hoffs]

/-! ## Where the target is exact -/

/-- Where the words hold the curve: `t` is at most 355668 units (347.3 s) away from `K`, below the origin the fall is at
most the origin, and above it the sum stays below `2^32`. -/
def InRange (e : Epoch) (t : ℕ) : Prop :=
  if t < e.bicK.toNat then
    e.bicK.toNat - t ≤ 355668 ∧ 410 * (e.bicK.toNat - t) ^ 3 < (e.bicOriginPoint.toNat + 1) * 2 ^ 40
  else t - e.bicK.toNat ≤ 355668 ∧ 410 * (t - e.bicK.toNat) ^ 3 < (2 ^ 32 - e.bicOriginPoint.toNat) * 2 ^ 40

instance (e : Epoch) (t : ℕ) : Decidable (InRange e t) := by
  unfold InRange
  infer_instance

/-- The cube fits in 64 bits up to a distance of 355668. -/
theorem cube_fits_iff (n : ℕ) : 410 * n ^ 3 < 2 ^ 64 ↔ n ≤ 355668 := by
  constructor
  · intro h
    by_contra hn
    have hle : 410 * 355669 ^ 3 ≤ 410 * n ^ 3 := Nat.mul_le_mul_left 410 (Nat.pow_le_pow_left (by omega) 3)
    omega
  · intro h
    have hle : 410 * n ^ 3 ≤ 410 * 355668 ^ 3 := Nat.mul_le_mul_left 410 (Nat.pow_le_pow_left h 3)
    omega

/-- The target is the curve exactly in range. -/
theorem bicTarget_eq_iff (cfg : Config) (ca : Bictcp) {now : U32} (h : (now - ca.epochStart).toNat < 2 ^ 31) :
    ((bicTarget cfg ca now).toNat : ℤ) =
        exactTarget ca.epoch (exactTime cfg (now - ca.epochStart).toNat ca.delayMin.toNat) ↔
      InRange ca.epoch (exactTime cfg (now - ca.epochStart).toNat ca.delayMin.toNat) := by
  have htarget := bicTarget_toNat cfg ca h
  simp only at htarget
  rw [htarget]
  generalize exactTime cfg (now - ca.epochStart).toNat ca.delayMin.toNat = t
  have horigin := ca.bicOriginPoint.isLt
  by_cases hlt : t < ca.bicK.toNat
  · have hlt' : t < ca.epoch.bicK.toNat := hlt
    rw [if_pos hlt, exactTarget, curve, if_pos hlt', InRange, if_pos hlt', ← cube_fits_iff]
    simp only [rise, Bictcp.epoch]
    generalize 410 * (ca.bicK.toNat - t) ^ 3 = cube
    omega
  · have hlt' : ¬ t < ca.epoch.bicK.toNat := hlt
    rw [if_neg hlt, exactTarget, curve, if_neg hlt', InRange, if_neg hlt', ← cube_fits_iff]
    simp only [rise, Bictcp.epoch]
    generalize 410 * (t - ca.bicK.toNat) ^ 3 = cube
    omega

/-- Time passes in `exactTime` as the clock does. -/
theorem exactTime_mono (cfg : Config) (delay : ℕ) {m n : ℕ} (h : m ≤ n) :
    exactTime cfg m delay ≤ exactTime cfg n delay :=
  Nat.div_le_div_right (Nat.mul_le_mul_right _ (Nat.add_le_add_right (Nat.mul_le_mul_right _ h) _))

/-- **Where CUBIC's target is the exact cubic.** A call that reaches the cubic function, less than `2^31` jiffies into
its epoch, computes the curve if and only if it is in range; and between two readings of the clock in range the target
does not decrease. -/
theorem bicTarget_exact_iff {cfg : Config} {ca ca₁ : Bictcp} {cwnd acked : U32} {clk : Jiffies} {e : Epoch}
    (hpath : bictcpPath cfg ca cwnd acked clk = some (.cubic ca₁)) (he : callEpoch ca cwnd clk.start = some e)
    (helapsed : (clk.cubic - e.start).toNat < 2 ^ 31) :
    (((bicTarget cfg ca₁ clk.cubic).toNat : ℤ) =
        exactTarget e (exactTime cfg (clk.cubic - e.start).toNat ca.delayMin.toNat) ↔
      InRange e (exactTime cfg (clk.cubic - e.start).toNat ca.delayMin.toNat)) ∧
    ∀ later : U32, (clk.cubic - e.start).toNat ≤ (later - e.start).toNat → (later - e.start).toNat < 2 ^ 31 →
      InRange e (exactTime cfg (clk.cubic - e.start).toNat ca.delayMin.toNat) →
      InRange e (exactTime cfg (later - e.start).toNat ca.delayMin.toNat) →
      (bicTarget cfg ca₁ clk.cubic).toNat ≤ (bicTarget cfg ca₁ later).toNat := by
  obtain ⟨hepoch, hdelay⟩ := bictcpPath_epoch hpath
  rw [he, Option.some.injEq] at hepoch
  subst hepoch
  rw [← hdelay]
  refine ⟨bicTarget_eq_iff cfg ca₁ helapsed, fun later hle hlater hnow hthen => ?_⟩
  have hnow' := (bicTarget_eq_iff cfg ca₁ helapsed).mpr hnow
  have hthen' := (bicTarget_eq_iff cfg ca₁ hlater).mpr hthen
  have hmono := curve_mono 410 (2 ^ 40) ca₁.bicK.toNat ca₁.bicOriginPoint.toNat
    (exactTime_mono cfg ca₁.delayMin.toNat hle)
  unfold exactTarget at hnow' hthen'
  have hgoal : ((bicTarget cfg ca₁ clk.cubic).toNat : ℤ) ≤ (bicTarget cfg ca₁ later).toNat := by
    rw [hnow', hthen']
    exact hmono
  omega

/-- An epoch opened by a call at `cwnd` 100 under a `last_max_cwnd` of 200, read a second later. -/
theorem bicTarget_exact_iff_second :
    let cfg : Config := ⟨1000, 717, 15, by decide⟩
    let ca : Bictcp := ⟨0, 200, 0, 0, 0, 0, 100000, 0, 0, 0, 8, 1, 0, 0, 0, 0⟩
    let ca₁ : Bictcp := ⟨0, 200, 100, 1, 200, 6451, 100000, 1, 1, 100, 8, 1, 0, 0, 0, 0⟩
    let clk : Jiffies := ⟨1, 1, 1, 1, 1001⟩
    let e : Epoch := ⟨1, 6451, 200⟩
    (((bicTarget cfg ca₁ clk.cubic).toNat : ℤ) =
        exactTarget e (exactTime cfg (clk.cubic - e.start).toNat ca.delayMin.toNat) ↔
      InRange e (exactTime cfg (clk.cubic - e.start).toNat ca.delayMin.toNat)) ∧
    ∀ later : U32, (clk.cubic - e.start).toNat ≤ (later - e.start).toNat → (later - e.start).toNat < 2 ^ 31 →
      InRange e (exactTime cfg (clk.cubic - e.start).toNat ca.delayMin.toNat) →
      InRange e (exactTime cfg (later - e.start).toNat ca.delayMin.toNat) →
      (bicTarget cfg ca₁ clk.cubic).toNat ≤ (bicTarget cfg ca₁ later).toNat := by
  intro cfg ca ca₁ clk e
  have hpath : bictcpPath cfg ca 100 1 clk = some (.cubic ca₁) := by decide +kernel
  have hepoch : callEpoch ca 100 clk.start = some e := by decide +kernel
  have helapsed : (clk.cubic - e.start).toNat < 2 ^ 31 := by decide
  exact bicTarget_exact_iff hpath hepoch helapsed

/-- A window held at 100 for 400 s: the call computes 8867032 where the curve is at 25644248, less than what it computed
at 347 s. -/
theorem bicTarget_long_epoch :
    let cfg : Config := ⟨1000, 717, 15, by decide⟩
    let ca : Bictcp := ⟨20, 100, 100, 399000, 100, 0, 100000, 1, 0, 100, 8, 1, 0, 0, 0, 0⟩
    let ca₁ : Bictcp := { ca with lastTime := 400001, ackCnt := 1 }
    bictcpPath cfg ca 100 1 ⟨400001, 400001, 400001, 400001, 400001⟩ = some (.cubic ca₁) ∧
      ((400001 : U32) - ca.epochStart).toNat < 2 ^ 31 ∧
      ((bicTarget cfg ca₁ 400001).toNat : ℤ) ≠ exactTarget ca.epoch (exactTime cfg 400000 100000) ∧
      (bicTarget cfg ca₁ 400001).toNat < (bicTarget cfg ca₁ 347001).toNat := by
  decide

end CoupledCC.Cubic
