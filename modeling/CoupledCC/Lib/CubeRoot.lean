import Mathlib.Analysis.Convex.Mul
import Mathlib.Analysis.SpecialFunctions.Pow.Real
import Mathlib.Tactic

/-!
# Integer tests for the cube root

The real cube root of a natural number is compared with a multiple of a number by comparing cubes. A Newton step for it
is never too small (`newton_lower`), and it is too large between two points only when it is so at one of them
(`cube_le_of_ends`).
-/

namespace CubeRoot

/-- The real cube root. -/
noncomputable def cbrt (n : ℕ) : ℝ :=
  (n : ℝ) ^ (((3 : ℕ) : ℝ)⁻¹)

theorem cbrt_pow (n : ℕ) : cbrt n ^ 3 = n :=
  Real.rpow_inv_natCast_pow (Nat.cast_nonneg n) (by decide)

theorem le_mul_cbrt_iff (k y : ℝ) (n : ℕ) : y ≤ k * cbrt n ↔ y ^ 3 ≤ k ^ 3 * n := by
  have hcubes : StrictMono fun x : ℝ => x ^ 3 := Odd.strictMono_pow (by decide)
  rw [← hcubes.le_iff_le]
  simp only [mul_pow, cbrt_pow]

theorem mul_cbrt_le_iff (k y : ℝ) (n : ℕ) : k * cbrt n ≤ y ↔ k ^ 3 * n ≤ y ^ 3 := by
  have hcubes : StrictMono fun x : ℝ => x ^ 3 := Odd.strictMono_pow (by decide)
  rw [← hcubes.le_iff_le]
  simp only [mul_pow, cbrt_pow]

/-! ## The Newton step -/

/-- The mean of `x`, `x` and `s` is at least the cube root of `x * x * s`. -/
theorem mean_cube (x s : ℕ) : 27 * (x * x * s) ≤ (2 * x + s) ^ 3 := by
  have hsquare : 0 ≤ ((x : ℤ) - s) ^ 2 * (8 * x + s) := by positivity
  zify
  calc (27 * (x * x * s) : ℤ) ≤ 27 * (x * x * s) + (x - s) ^ 2 * (8 * x + s) := by omega
    _ = (2 * x + s) ^ 3 := by ring

/-- **A Newton step is never too small**, also when its divisor is taken below the square. -/
theorem newton_lower {n x d : ℕ} (hd : d ≤ x * x) (hpos : 0 < d) : 27 * n ≤ (2 * x + (n / d + 1)) ^ 3 := by
  have hlt : n < d * (n / d + 1) := Nat.lt_mul_div_succ n hpos
  calc 27 * n ≤ 27 * (d * (n / d + 1)) := Nat.mul_le_mul_left _ hlt.le
    _ ≤ 27 * (x * x * (n / d + 1)) := Nat.mul_le_mul_left _ (Nat.mul_le_mul_right _ hd)
    _ ≤ (2 * x + (n / d + 1)) ^ 3 := mean_cube x (n / d + 1)

/-- The cube of a rising line, less a multiple of its argument, is convex. -/
theorem convexOn_line_cube (α β k : ℕ) : ConvexOn ℚ (Set.Ici 0) fun x : ℚ => (α + β * x) ^ 3 - k * x := by
  refine ⟨convex_Ici 0, ?_⟩
  intro x hx y hy a b ha hb hab
  have hx' : (0 : ℚ) ≤ α + β * x := add_nonneg (Nat.cast_nonneg α) (mul_nonneg (Nat.cast_nonneg β) hx)
  have hy' : (0 : ℚ) ≤ α + β * y := add_nonneg (Nat.cast_nonneg α) (mul_nonneg (Nat.cast_nonneg β) hy)
  have hline : a * (α + β * x) + b * (α + β * y) = α + β * (a * x + b * y) := by
    linear_combination (α : ℚ) * hab
  have hpow : ConvexOn ℚ (Set.Ici 0) fun x : ℚ => x ^ 3 := convexOn_pow 3
  have hcube := hpow.2 hx' hy' ha hb hab
  simp only [smul_eq_mul, hline] at hcube ⊢
  calc (α + β * (a * x + b * y)) ^ 3 - k * (a * x + b * y)
      ≤ a * (α + β * x) ^ 3 + b * (α + β * y) ^ 3 - k * (a * x + b * y) := sub_le_sub_right hcube _
    _ = a * ((α + β * x) ^ 3 - k * x) + b * ((α + β * y) ^ 3 - k * y) := by ring

/-- The cube of a line lies below a multiple between two points when it does so at both. -/
theorem cube_le_of_ends {α β k lo hi t : ℕ} (hlo : (α + β * lo) ^ 3 ≤ k * lo) (hhi : (α + β * hi) ^ 3 ≤ k * hi)
    (hlot : lo ≤ t) (hthi : t ≤ hi) : (α + β * t) ^ 3 ≤ k * t := by
  have hlo' : (α + β * lo : ℚ) ^ 3 - k * lo ≤ 0 := sub_nonpos.mpr (by exact_mod_cast hlo)
  have hhi' : (α + β * hi : ℚ) ^ 3 - k * hi ≤ 0 := sub_nonpos.mpr (by exact_mod_cast hhi)
  have hbetween : (t : ℚ) ∈ Set.Icc (lo : ℚ) hi := ⟨by exact_mod_cast hlot, by exact_mod_cast hthi⟩
  have hmax := (convexOn_line_cube α β k).le_max_of_mem_Icc (Set.mem_Ici.mpr (Nat.cast_nonneg lo))
    (Set.mem_Ici.mpr (Nat.cast_nonneg hi)) hbetween
  exact_mod_cast sub_nonpos.mp (hmax.trans (max_le hlo' hhi'))

end CubeRoot
