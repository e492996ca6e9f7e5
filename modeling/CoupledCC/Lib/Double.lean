import Mathlib.Algebra.Order.Floor.Ring
import Mathlib.Algebra.Order.Round
import Mathlib.Data.Int.Log
import Mathlib.Data.Rat.Floor
import Mathlib.Tactic

/-!
# Doubles

How a rational number is rounded to a double (53 bits, to the nearest one, to the even one of two), and the conversion
of a double to an integer. Numbers too large for a double are not treated apart.

- `le_toDouble`, `toDouble_le`: rounding does not pass a double;
- `toDouble_natCast`: the natural numbers below 2^53 are exact;
- `trunc_toDouble_div`: the quotient of small numbers, rounded and then cut off, is the quotient of the integers.
-/

namespace Double

/-! ## Definitions -/

/-- The nearest integer, the even one of two. -/
def nearestEven (x : ℚ) : ℤ :=
  if Int.fract x < 1 / 2 then ⌊x⌋
  else if 1 / 2 < Int.fract x then ⌊x⌋ + 1
  else if Even ⌊x⌋ then ⌊x⌋
  else ⌊x⌋ + 1

/-- The nearest multiple of `2 ^ e`. -/
def onGrid (e : ℤ) (x : ℚ) : ℚ :=
  nearestEven (x / 2 ^ e) * 2 ^ e

/-- The exponent of the last bit of a double near `x`. -/
def lastBit (x : ℚ) : ℤ :=
  max (Int.log 2 x - 52) (-1074)

/-- A number rounded to a double. -/
def toDouble (x : ℚ) : ℚ :=
  if x < 0 then -onGrid (lastBit (-x)) (-x) else onGrid (lastBit x) x

/-- A number without its fractional part. -/
def trunc (x : ℚ) : ℤ :=
  if x < 0 then ⌈x⌉ else ⌊x⌋

/-- The doubles from 0 on. -/
def IsDouble (a : ℚ) : Prop :=
  ∃ m : ℕ, ∃ e : ℤ, m < 2 ^ 53 ∧ -1074 ≤ e ∧ a = m * 2 ^ e

/-! ## Rounding to a multiple -/

theorem floor_le_nearestEven (x : ℚ) : ⌊x⌋ ≤ nearestEven x := by
  unfold nearestEven
  split_ifs <;> omega

theorem nearestEven_le_floor (x : ℚ) : nearestEven x ≤ ⌊x⌋ + 1 := by
  unfold nearestEven
  split_ifs <;> omega

theorem nearestEven_mono {x y : ℚ} (h : x ≤ y) : nearestEven x ≤ nearestEven y := by
  rcases (Int.floor_mono h).lt_or_eq with hlt | heq
  · calc nearestEven x ≤ ⌊x⌋ + 1 := nearestEven_le_floor x
      _ ≤ ⌊y⌋ := hlt
      _ ≤ nearestEven y := floor_le_nearestEven y
  · have hfract : Int.fract x ≤ Int.fract y := by
      have hcast : (⌊x⌋ : ℚ) = ⌊y⌋ := by rw [heq]
      unfold Int.fract
      linarith
    unfold nearestEven
    rw [heq]
    split_ifs <;> first | omega | linarith

theorem nearestEven_intCast (n : ℤ) : nearestEven n = n := by
  simp [nearestEven]

theorem two_zpow_pos (e : ℤ) : (0 : ℚ) < 2 ^ e :=
  zpow_pos (by norm_num) e

theorem onGrid_mono (e : ℤ) {x y : ℚ} (h : x ≤ y) : onGrid e x ≤ onGrid e y := by
  have hdiv : x / 2 ^ e ≤ y / 2 ^ e := div_le_div_of_nonneg_right h (two_zpow_pos e).le
  have hint : (nearestEven (x / 2 ^ e) : ℚ) ≤ nearestEven (y / 2 ^ e) := by exact_mod_cast nearestEven_mono hdiv
  exact mul_le_mul_of_nonneg_right hint (two_zpow_pos e).le

/-- The multiples of `2 ^ e` are those of `2 ^ d` for smaller `d`, and they stay as they are. -/
theorem onGrid_mul {d e : ℤ} (h : d ≤ e) (m : ℤ) : onGrid d (m * 2 ^ e) = m * 2 ^ e := by
  obtain ⟨k, rfl⟩ := Int.le.dest h
  have hsplit : (m : ℚ) * 2 ^ (d + k) = (m * 2 ^ k : ℤ) * 2 ^ d := by
    rw [zpow_add₀ (by norm_num)]
    push_cast
    rw [zpow_natCast]
    ring
  rw [hsplit, onGrid, mul_div_cancel_right₀ _ (two_zpow_pos d).ne', nearestEven_intCast]

/-! ## Rounding to a double -/

theorem lastBit_mono {x y : ℚ} (hx : 0 < x) (h : x ≤ y) : lastBit x ≤ lastBit y :=
  max_le_max_right _ (Int.sub_le_sub_right (Int.log_mono_right hx h) 52)

theorem IsDouble.nonneg {a : ℚ} (ha : IsDouble a) : 0 ≤ a := by
  obtain ⟨m, e, -, -, rfl⟩ := ha
  exact mul_nonneg (Nat.cast_nonneg m) (two_zpow_pos e).le

/-- A double is a multiple of its last bit, and of all smaller ones. -/
theorem IsDouble.onGrid {a : ℚ} (ha : IsDouble a) {d : ℤ} (hd : d ≤ lastBit a) : onGrid d a = a := by
  obtain ⟨m, e, hm, he, rfl⟩ := ha
  rcases Nat.eq_zero_or_pos m with rfl | hpos
  · simpa using onGrid_mul (le_refl d) 0
  have ha : (0 : ℚ) < m * 2 ^ e := mul_pos (Nat.cast_pos.mpr hpos) (two_zpow_pos e)
  have hlt : (m : ℚ) * 2 ^ e < 2 ^ (53 + e) := by
    rw [zpow_add₀ (by norm_num)]
    exact mul_lt_mul_of_pos_right (by exact_mod_cast hm) (two_zpow_pos e)
  have hlog : Int.log 2 ((m : ℚ) * 2 ^ e) < 53 + e :=
    (Int.lt_zpow_iff_log_lt (by norm_num) ha).mp (by exact_mod_cast hlt)
  have hlast : lastBit ((m : ℚ) * 2 ^ e) ≤ e := max_le (by omega) he
  exact_mod_cast onGrid_mul (hd.trans hlast) m

theorem onGrid_zero (e : ℤ) : onGrid e 0 = 0 := by
  simpa using onGrid_mul (le_refl e) 0

theorem toDouble_of_nonneg {x : ℚ} (hx : 0 ≤ x) : toDouble x = onGrid (lastBit x) x :=
  if_neg hx.not_gt

/-- Rounding is the same on both sides of 0. -/
theorem toDouble_neg (x : ℚ) : toDouble (-x) = -toDouble x := by
  unfold toDouble
  rcases lt_trichotomy x 0 with h | rfl | h
  · rw [if_neg (by linarith), if_pos h, neg_neg]
  · simp [onGrid_zero]
  · rw [if_pos (by linarith), if_neg (by linarith), neg_neg]

/-- **Rounding does not pass a double** upwards. -/
theorem toDouble_le {x a : ℚ} (ha : IsDouble a) (hx : 0 ≤ x) (h : x ≤ a) : toDouble x ≤ a := by
  rw [toDouble_of_nonneg hx]
  rcases hx.eq_or_lt with rfl | hpos
  · rw [onGrid_zero]
    exact h
  · calc onGrid (lastBit x) x ≤ onGrid (lastBit x) a := onGrid_mono _ h
      _ = a := ha.onGrid (lastBit_mono hpos h)

/-- **Rounding does not pass a double** downwards. -/
theorem le_toDouble {x a : ℚ} (ha : IsDouble a) (h : a ≤ x) : a ≤ toDouble x := by
  rw [toDouble_of_nonneg (ha.nonneg.trans h)]
  rcases ha.nonneg.eq_or_lt with rfl | hpos
  · have hzero := onGrid_mono (lastBit x) h
    rwa [onGrid_zero] at hzero
  have hx : 0 < x := hpos.trans_le h
  rcases (lastBit_mono hpos h).eq_or_lt with heq | hlt
  · calc a = onGrid (lastBit x) a := (ha.onGrid heq.ge).symm
      _ ≤ onGrid (lastBit x) x := onGrid_mono _ h
  -- `x` has a larger last bit, so that there is a power of 2 between `a` and `x`
  · have hlog : Int.log 2 a < Int.log 2 x := by
      by_contra hnot
      exact hlt.not_ge (max_le_max_right _ (by omega))
    have hpower : lastBit x ≤ Int.log 2 x := by
      have hlast : -1074 < lastBit x := (le_max_right _ _).trans_lt hlt
      unfold lastBit at hlast ⊢
      omega
    have hlow : (2 : ℚ) ^ Int.log 2 x ≤ x := by exact_mod_cast Int.zpow_log_le_self (b := 2) (by norm_num) hx
    have hhigh : a < 2 ^ Int.log 2 x := by exact_mod_cast (Int.lt_zpow_iff_log_lt (b := 2) (by norm_num) hpos).mpr hlog
    calc a ≤ 2 ^ Int.log 2 x := hhigh.le
      _ = onGrid (lastBit x) (2 ^ Int.log 2 x) := by simpa using (onGrid_mul hpower 1).symm
      _ ≤ onGrid (lastBit x) x := onGrid_mono _ hlow

/-- A double stays as it is. -/
theorem IsDouble.toDouble {a : ℚ} (ha : IsDouble a) : toDouble a = a :=
  le_antisymm (toDouble_le ha ha.nonneg le_rfl) (le_toDouble ha le_rfl)

theorem isDouble_natCast {n : ℕ} (h : n < 2 ^ 53) : IsDouble n :=
  ⟨n, 0, h, by norm_num, by simp⟩

theorem toDouble_natCast {n : ℕ} (h : n < 2 ^ 53) : toDouble n = n :=
  (isDouble_natCast h).toDouble

/-! ## Conversion to an integer -/

theorem trunc_neg (x : ℚ) : trunc (-x) = -trunc x := by
  unfold trunc
  rcases lt_trichotomy x 0 with h | rfl | h
  · rw [if_neg (by linarith), if_pos h, Int.floor_neg]
  · simp
  · rw [if_pos (by linarith), if_neg (by linarith), Int.ceil_neg]

theorem trunc_natCast (n : ℕ) : trunc n = n := by
  rw [trunc, if_neg (Nat.cast_nonneg n).not_gt, Int.floor_natCast]

/-- The quotient of two natural numbers, rounded to a double, is cut off to the quotient of integers, if it is so small
that a double can tell it from the next integer. -/
theorem trunc_toDouble_natCast_div {n d k : ℕ} (hd : 0 < d) (hdk : d ≤ 2 ^ k) (hk : k ≤ 1074)
    (hn : (n / d + 1) * 2 ^ k ≤ 2 ^ 53) : trunc (toDouble (n / d)) = (n / d : ℕ) := by
  have hdpos : (0 : ℚ) < d := Nat.cast_pos.mpr hd
  have hpow : (0 : ℚ) < 2 ^ k := by positivity
  have hlow : ((n / d : ℕ) : ℚ) ≤ n / d := Nat.cast_div_le
  have hq : n / d < 2 ^ 53 := by
    have hmul := Nat.le_mul_of_pos_right (n / d + 1) (Nat.two_pow_pos k)
    omega
  have hpos : 1 ≤ (n / d + 1) * 2 ^ k := Nat.mul_pos (Nat.succ_pos _) (Nat.two_pow_pos k)
  -- a double between the quotient and the next integer
  have hlast : IsDouble (((n / d + 1) * 2 ^ k - 1 : ℕ) * 2 ^ (-k : ℤ)) := ⟨_, -k, by omega, by omega, rfl⟩
  have hvalue : (((n / d + 1) * 2 ^ k - 1 : ℕ) : ℚ) * 2 ^ (-k : ℤ) = (n / d : ℕ) + 1 - 1 / 2 ^ k := by
    rw [Nat.cast_sub hpos, zpow_neg, zpow_natCast]
    push_cast
    field_simp
  rw [hvalue] at hlast
  have hhigh : (n : ℚ) / d ≤ (n / d : ℕ) + 1 - 1 / 2 ^ k := by
    have hmod : n + 1 ≤ d * (n / d + 1) := by
      have hdiv := Nat.div_add_mod n d
      have hlt := Nat.mod_lt n hd
      rw [Nat.mul_add]
      omega
    have hcast : (n : ℚ) + 1 ≤ d * ((n / d : ℕ) + 1) := by exact_mod_cast hmod
    have hinv : (1 : ℚ) / 2 ^ k ≤ 1 / d := one_div_le_one_div_of_le hdpos (by exact_mod_cast hdk)
    have hquot : ((n : ℚ) + 1) / d ≤ (n / d : ℕ) + 1 := by
      rw [div_le_iff₀ hdpos]
      linarith
    rw [add_div] at hquot
    linarith
  have hnonneg : (0 : ℚ) ≤ n / d := by positivity
  have hge : ((n / d : ℕ) : ℚ) ≤ toDouble (n / d) := le_toDouble (isDouble_natCast hq) hlow
  have hle := toDouble_le hlast hnonneg hhigh
  have hinv : (0 : ℚ) < 1 / 2 ^ k := by positivity
  rw [trunc, if_neg (not_lt.mpr ((Nat.cast_nonneg _).trans hge)), Int.floor_eq_iff]
  rw [Int.cast_natCast]
  exact ⟨hge, by linarith⟩

/-- **The quotient of small numbers**, rounded to a double and cut off, is the quotient of the integers. -/
theorem trunc_toDouble_div {n : ℤ} {d k : ℕ} (hd : 0 < d) (hdk : d ≤ 2 ^ k) (hk : k ≤ 1074)
    (hn : (n.natAbs / d + 1) * 2 ^ k ≤ 2 ^ 53) : trunc (toDouble (n / d)) = n.tdiv d := by
  obtain ⟨m, rfl | rfl⟩ := n.eq_nat_or_neg
  · simpa using trunc_toDouble_natCast_div hd hdk hk (by simpa using hn)
  · have h := trunc_toDouble_natCast_div (n := m) hd hdk hk (by simpa using hn)
    rw [Int.cast_neg, neg_div, toDouble_neg, trunc_neg, Int.cast_natCast, h, Int.neg_tdiv]
    simp

end Double
