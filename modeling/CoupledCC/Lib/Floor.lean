import Mathlib.Tactic

/-!
# Truncated quotients

A value scaled by `m / (a * b)` in two steps, `n / a * m / b` on the naturals, truncates twice. Over an ordered field it
lies below the exact quotient, by less than `m / b + 1`.

- `nested_le`, `lt_nested`: the bounds;
- `nested_mono`: the truncated value grows with `n`.
-/

namespace Floor

variable {K : Type*} [Field K] [LinearOrder K] [IsStrictOrderedRing K]

/-- A truncated quotient is less than one below the exact one. -/
theorem div_lt_cast_div_add_one (n : ℕ) {a : ℕ} (ha : 0 < a) : (n : K) / a < (n / a : ℕ) + 1 := by
  have hpos : (0 : K) < a := Nat.cast_pos.mpr ha
  rw [div_lt_iff₀ hpos]
  have hlt : n < (n / a + 1) * a := Nat.lt_mul_of_div_lt (Nat.lt_succ_self _) ha
  calc (n : K) < ((n / a + 1) * a : ℕ) := Nat.cast_lt.mpr hlt
    _ = ((n / a : ℕ) + 1) * a := by push_cast; ring

/-- Truncation only lowers the value. -/
theorem nested_le (n a m b : ℕ) : ((n / a * m / b : ℕ) : K) ≤ n * m / (a * b) := by
  have hinner : ((n / a : ℕ) : K) * m ≤ n / a * m := mul_le_mul_of_nonneg_right Nat.cast_div_le (Nat.cast_nonneg m)
  calc ((n / a * m / b : ℕ) : K) ≤ ((n / a * m : ℕ) : K) / b := Nat.cast_div_le
    _ = ((n / a : ℕ) : K) * m / b := by push_cast; ring
    _ ≤ n / a * m / b := div_le_div_of_nonneg_right hinner (Nat.cast_nonneg b)
    _ = n * m / (a * b) := by rw [div_mul_eq_mul_div, div_div]

/-- The two truncations together lose less than `m / b + 1`. -/
theorem lt_nested (n m : ℕ) {a b : ℕ} (ha : 0 < a) (hb : 0 < b) :
    (n * m / (a * b) : K) < (n / a * m / b : ℕ) + (m / b + 1) := by
  have hinner : (n : K) / a * m ≤ ((n / a : ℕ) + 1) * m :=
    mul_le_mul_of_nonneg_right (div_lt_cast_div_add_one n ha).le (Nat.cast_nonneg m)
  have houter := div_lt_cast_div_add_one (K := K) (n / a * m) hb
  calc (n * m / (a * b) : K) = n / a * m / b := by rw [div_mul_eq_mul_div, div_div]
    _ ≤ ((n / a : ℕ) + 1) * m / b := div_le_div_of_nonneg_right hinner (Nat.cast_nonneg b)
    _ = ((n / a * m : ℕ) : K) / b + m / b := by push_cast; ring
    _ < (n / a * m / b : ℕ) + (m / b + 1) := by linarith

theorem nested_mono {n n' : ℕ} (h : n ≤ n') (a m b : ℕ) : n / a * m / b ≤ n' / a * m / b :=
  Nat.div_le_div_right (Nat.mul_le_mul_right m (Nat.div_le_div_right h))

end Floor
