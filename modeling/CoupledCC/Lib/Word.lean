import Mathlib.Tactic

/-!
# Fixed-width words

Unsigned words of `w` bits are `BitVec w`. Division by zero is a fault (`checkedDiv`); the C macros `min` and `max`
evaluate their comparison on unsigned operands (`umin`, `umax`).
-/

abbrev U8 := BitVec 8
abbrev U16 := BitVec 16
abbrev U32 := BitVec 32
abbrev U64 := BitVec 64

namespace Word

variable {w : Nat}

/-- Unsigned division; a zero divisor is a fault. -/
def checkedDiv (a b : BitVec w) : Option (BitVec w) :=
  if b = 0 then none else some (a / b)

/-- The smaller of two unsigned words. -/
def umin (a b : BitVec w) : BitVec w :=
  if a < b then a else b

/-- The larger of two unsigned words. -/
def umax (a b : BitVec w) : BitVec w :=
  if b < a then a else b

/-- The larger of two signed words. -/
def smax (a b : BitVec w) : BitVec w :=
  if b.toInt < a.toInt then a else b

theorem checkedDiv_ne {a b : BitVec w} (h : b ≠ 0) : checkedDiv a b = some (a / b) :=
  if_neg h

theorem ne_zero_of_pos {a : BitVec w} (h : 0 < a.toNat) : a ≠ 0 := by
  rintro rfl
  simp at h

@[simp] theorem toNat_umin (a b : BitVec w) : (umin a b).toNat = min a.toNat b.toNat := by
  unfold umin
  split <;> rename_i h <;> rw [BitVec.lt_def] at h <;> omega

@[simp] theorem toNat_umax (a b : BitVec w) : (umax a b).toNat = max a.toNat b.toNat := by
  unfold umax
  split <;> rename_i h <;> rw [BitVec.lt_def] at h <;> omega

/-- The bits from `n` on are clear exactly below `2^n`. -/
theorem and_highMask_eq_zero (x : BitVec w) (n : Nat) : x &&& (BitVec.allOnes w <<< n) = 0 ↔ x.toNat < 2 ^ n := by
  constructor
  · intro h
    apply Nat.lt_pow_two_of_testBit
    intro i hi
    have hbit := congrArg (fun y => y.getLsbD i) h
    simp only [BitVec.getLsbD_and, BitVec.getLsbD_shiftLeft, BitVec.getLsbD_allOnes] at hbit
    rw [BitVec.testBit_toNat]
    by_cases hw : i < w
    · simpa [hw, Nat.not_lt.mpr hi, show i - n < w by omega] using hbit
    · exact BitVec.getLsbD_of_ge _ _ (by omega)
  · intro h
    apply BitVec.eq_of_getLsbD_eq
    intro i hi
    simp only [BitVec.getLsbD_and, BitVec.getLsbD_shiftLeft, BitVec.getLsbD_allOnes]
    by_cases hn : i < n
    · simp [hn]
    · have hbit := Nat.testBit_lt_two_pow (lt_of_lt_of_le h (Nat.pow_le_pow_right (by decide) (Nat.not_lt.mp hn)))
      rw [BitVec.testBit_toNat] at hbit
      simp [hbit]

/-- A shift to the left that loses no bit. -/
theorem toNat_shiftLeft_of_lt {x : BitVec w} {n : Nat} (h : x.toNat * 2 ^ n < 2 ^ w) :
    (x <<< n).toNat = x.toNat * 2 ^ n := by
  rw [BitVec.toNat_shiftLeft, Nat.shiftLeft_eq, Nat.mod_eq_of_lt h]

/-- A counter that does not wrap, and what is read of it as a 32-bit word. -/
theorem toNat_succ {x : BitVec w} (hw : w ≤ 32) (h : x.toNat + 1 < 2 ^ w) :
    (x + 1).toNat = x.toNat + 1 ∧ ((x + 1).setWidth 32 : U32).toNat = x.toNat + 1 := by
  have hone : (1 : BitVec w).toNat = 1 := by
    have hmod : 1 % 2 ^ w = 1 := Nat.mod_eq_of_lt (by omega)
    simpa using hmod
  have hadd : (x + 1).toNat = x.toNat + 1 := by
    rw [BitVec.toNat_add_of_lt (by rw [hone]; exact h), hone]
  exact ⟨hadd, by rw [BitVec.toNat_setWidth_of_le hw, hadd]⟩

theorem toNat_setWidth64 (x : U32) : (x.setWidth 64 : U64).toNat = x.toNat :=
  BitVec.toNat_setWidth_of_le (by decide)

/-! ## Wrapped comparisons -/

/-- Two numbers compare as their quotients by the modulus do, and where these are equal as the wrapped numbers. -/
theorem le_iff_carry {a b m : ℕ} : a ≤ b ↔ a / m < b / m ∨ (a / m = b / m ∧ a % m ≤ b % m) := by
  have ha := Nat.div_add_mod a m
  have hb := Nat.div_add_mod b m
  constructor
  · intro hle
    rcases (Nat.div_le_div_right (c := m) hle).lt_or_eq with hlt | heq
    · exact .inl hlt
    · rw [heq] at ha
      exact .inr ⟨heq, by omega⟩
  · rintro (hlt | ⟨heq, hle⟩)
    · exact (Nat.lt_of_div_lt_div hlt).le
    · rw [heq] at ha
      omega

/-- Where the wrapped numbers are in order, the numbers are exactly if the quotients are. -/
theorem le_iff_carry_le {a b m : ℕ} (h : a % m ≤ b % m) : a ≤ b ↔ a / m ≤ b / m := by
  rw [le_iff_carry (m := m)]
  constructor
  · rintro (hlt | ⟨heq, -⟩)
    · exact hlt.le
    · exact heq.le
  · intro hle
    rcases hle.lt_or_eq with hlt | heq
    · exact .inl hlt
    · exact .inr ⟨heq, h⟩

/-! ## Signed readings -/

theorem not_neg_of_lt {x : U64} (h : x.toNat < 2 ^ 63) : ¬ x.toInt < 0 := by
  rw [BitVec.toInt_eq_toNat_of_lt (by omega)]
  omega

theorem toNat_lt_of_not_neg {x : U32} (h : ¬ x.toInt < 0) : x.toNat < 2 ^ 31 := by
  rw [BitVec.toInt_eq_toNat_cond] at h
  split at h <;> omega

/-- The difference of two readings of a wrapping clock, when the moments are less than half of its range apart. -/
theorem toInt_sub_ofNat {a b : ℕ} (hlow : -2 ^ w ≤ (a : ℤ) - b) (hhigh : (a : ℤ) - b < 2 ^ w) :
    (BitVec.ofNat (w + 1) a - BitVec.ofNat (w + 1) b).toInt = (a : ℤ) - b := by
  have hpow : ((2 ^ (w + 1) : ℕ) : ℤ) = 2 ^ w * 2 := by push_cast; ring
  rw [BitVec.toInt_sub, BitVec.toInt_ofNat', BitVec.toInt_ofNat', Int.bmod_sub_bmod, Int.sub_bmod_bmod]
  exact Int.bmod_eq_of_le_mul_two (by rw [hpow]; linarith) (by rw [hpow]; linarith)

/-- A time stamp `t + m` that a wrapping clock shows as passed is passed, if the clock has not gone back behind `t` and
`m` is less than half of its range. -/
theorem lt_of_stamp_passed {t m now : ℕ} (hm : m < 2 ^ w) (hle : t ≤ now)
    (h : (BitVec.ofNat (w + 1) t + BitVec.ofNat (w + 1) m - BitVec.ofNat (w + 1) now).toInt < 0) : t + m < now := by
  by_contra hnot
  obtain ⟨d, hd⟩ := Nat.exists_eq_add_of_le (Nat.not_lt.mp hnot)
  have hdm : d ≤ m := by omega
  have hdiff : BitVec.ofNat (w + 1) t + BitVec.ofNat (w + 1) m - BitVec.ofNat (w + 1) now = BitVec.ofNat (w + 1) d := by
    rw [← BitVec.ofNat_add, hd, BitVec.ofNat_add, BitVec.add_comm, BitVec.add_sub_cancel]
  have hpow : 2 ^ (w + 1) = 2 * 2 ^ w := by rw [Nat.pow_succ, Nat.mul_comm]
  have hnat : (BitVec.ofNat (w + 1) d).toNat = d := by
    rw [BitVec.toNat_ofNat, Nat.mod_eq_of_lt (by omega)]
  rw [hdiff, BitVec.toInt_eq_toNat_of_lt (by omega)] at h
  omega

/-- A long made of a small nonnegative number. -/
theorem toNat_ofInt_natCast {n : ℕ} (hn : n < 2 ^ 64) : (BitVec.ofInt 64 n).toNat = n := by
  rw [BitVec.ofInt_natCast, BitVec.toNat_ofNat, Nat.mod_eq_of_lt hn]

theorem toInt_ofInt_natCast {n : ℕ} (hn : n < 2 ^ 63) : (BitVec.ofInt 64 n).toInt = n := by
  have hnat := toNat_ofInt_natCast (n := n) (by omega)
  rw [BitVec.toInt_eq_toNat_of_lt (by omega), hnat]

end Word
