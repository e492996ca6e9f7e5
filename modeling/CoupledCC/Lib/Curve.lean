import Mathlib.Tactic

/-!
# Cubic curves on the naturals

The curve `origin ± ⌊c * |t - k|^3 / d⌋` falls short of `origin` before `k` and passes it from `k` on; it never
decreases (`curve_mono`).
-/

namespace Curve

/-- The distance from the origin, `n` away from the inflection. -/
def rise (c d n : ℕ) : ℕ :=
  c * n ^ 3 / d

/-- The curve with the factor `c / d` and the inflection `(k, origin)`, at `t`. -/
def curve (c d k origin t : ℕ) : ℤ :=
  if t < k then (origin : ℤ) - rise c d (k - t) else (origin : ℤ) + rise c d (t - k)

theorem rise_mono (c d : ℕ) {m n : ℕ} (h : m ≤ n) : rise c d m ≤ rise c d n :=
  Nat.div_le_div_right (Nat.mul_le_mul_left c (Nat.pow_le_pow_left h 3))

/-- **The curve never decreases.** -/
theorem curve_mono (c d k origin : ℕ) : Monotone (curve c d k origin) := by
  intro t t' h
  unfold curve
  by_cases ht' : t' < k
  · have hle : rise c d (k - t') ≤ rise c d (k - t) := rise_mono c d (by omega)
    rw [if_pos (show t < k by omega), if_pos ht']
    omega
  · rw [if_neg ht']
    by_cases ht : t < k
    · rw [if_pos ht]
      omega
    · have hle : rise c d (t - k) ≤ rise c d (t' - k) := rise_mono c d (by omega)
      rw [if_neg ht]
      omega

end Curve
