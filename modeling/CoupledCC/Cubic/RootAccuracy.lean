import CoupledCC.Lib.CubeRoot
import CoupledCC.Cubic.Epoch

/-!
# The accuracy of the cube root

`cubic_root` should lie within 1% plus 2 of the real cube root. It is never too small. As `fls64` rounds an odd bit
length up, the entries 4 and 5 of the table are read for large arguments too; they are far from the cube root of the top
bits, and the one Newton step that follows leaves a result up to 5% too large.

- `cubicRoot_toNat`: the computation over the naturals, nothing wraps;
- `lowOk_newton`, `highOk_iff`: the two sides of the bound;
- `cubicRoot_accurate_iff`: the bound holds exactly outside the intervals of `coarse`.
-/

namespace CoupledCC.Cubic

open Word CubeRoot

/-- `r` is within 1% plus 2 of the cube root of `n`. -/
def Accurate (n : ℕ) (r : U32) : Prop :=
  0.99 * cbrt n - 2 ≤ r.toNat ∧ (r.toNat : ℝ) ≤ 1.01 * cbrt n + 2

/-- The half-open intervals on which the result is too large. They are numbers of 21, 27, 33, .., 63 bits. -/
def coarse : List (ℕ × ℕ) :=
  [(1048576, 1155989), (1170432, 1189015), (1219200, 1222665),
    (67108864, 89629544), (89739776, 90225747), (90524672, 90824589), (91309568, 91426074),
    (4294967296, 6105636835), (6108116992, 6115564698), (6120693760, 6125503317), (6133270528, 6135452697),
    (274877906944, 397145611840), (397168877568, 397306117946), (397370179584, 397466667291),
    (397571481600, 397627259882), (397772783616, 397787895724),
    (17592186044416, 25517593053268), (25517769424896, 25520167640579), (25520990552064, 25522742401059),
    (25524211679232, 25525317334713), (25527432806400, 25527892441548),
    (1125899906842624, 1635021520865511), (1635030035595264, 1635062745091778),
    (1635081574809600, 1635103970010970), (1635133114023936, 1635145195623094),
    (1635184653238272, 1635186421928155),
    (72057594037927936, 104667103144311310), (104667260012986368, 104667762835874084),
    (104668084645134336, 104668422530208770), (104668909277282304, 104669082227315373),
    (104669733909430272, 104669741927193901),
    (4611686018427387904, 6699095700868749036), (6699096853287272448, 6699106256338456055),
    (6699110047420514304, 6699116811819250926), (6699123241553756160, 6699127367311133657),
    (6699136435686998016, 6699137922814104252)]

def Coarse (n : ℕ) : Prop :=
  ∃ g ∈ coarse, g.1 ≤ n ∧ n < g.2

/-- Nothing from `lo` below `hi` is in an interval of `coarse`. -/
def Clear (lo hi : ℕ) : Prop :=
  ∀ g ∈ coarse, g.2 ≤ lo ∨ hi ≤ g.1

/-- All from `lo` below `hi` is in one interval of `coarse`. -/
def Covered (lo hi : ℕ) : Prop :=
  ∃ g ∈ coarse, g.1 ≤ lo ∧ hi ≤ g.2

instance (n : ℕ) : Decidable (Coarse n) := inferInstanceAs (Decidable (∃ g ∈ coarse, g.1 ≤ n ∧ n < g.2))

instance (lo hi : ℕ) : Decidable (Clear lo hi) := inferInstanceAs (Decidable (∀ g ∈ coarse, g.2 ≤ lo ∨ hi ≤ g.1))

instance (lo hi : ℕ) : Decidable (Covered lo hi) := inferInstanceAs (Decidable (∃ g ∈ coarse, g.1 ≤ lo ∧ hi ≤ g.2))

theorem Clear.not_coarse {lo hi n : ℕ} (h : Clear lo hi) (hlo : lo ≤ n) (hhi : n < hi) : ¬ Coarse n := by
  rintro ⟨g, hg, hg1, hg2⟩
  have := h g hg
  omega

theorem Covered.coarse {lo hi n : ℕ} (h : Covered lo hi) (hlo : lo ≤ n) (hhi : n < hi) : Coarse n := by
  obtain ⟨g, hg, hg1, hg2⟩ := h
  exact ⟨g, hg, by omega, by omega⟩

/-! ## The bound over the naturals -/

/-- The lower bound, with the cubes taken and the denominators cleared. -/
def LowOk (n r : ℕ) : Prop :=
  970299 * n ≤ (100 * (r + 2)) ^ 3

/-- The upper bound. -/
def HighOk (n r : ℕ) : Prop :=
  (100 * (r - 2)) ^ 3 ≤ 1030301 * n

instance (n r : ℕ) : Decidable (LowOk n r) := inferInstanceAs (Decidable (970299 * n ≤ (100 * (r + 2)) ^ 3))

instance (n r : ℕ) : Decidable (HighOk n r) := inferInstanceAs (Decidable ((100 * (r - 2)) ^ 3 ≤ 1030301 * n))

theorem lowOk_iff (n r : ℕ) : LowOk n r ↔ 0.99 * cbrt n - 2 ≤ r := by
  have hcast : LowOk n r ↔ (970299 * n : ℝ) ≤ (100 * (r + 2)) ^ 3 := by
    unfold LowOk
    norm_cast
  rw [sub_le_iff_le_add, mul_cbrt_le_iff, hcast]
  constructor <;> intro h <;> linarith

theorem highOk_iff_cbrt (n r : ℕ) : HighOk n r ↔ (r : ℝ) ≤ 1.01 * cbrt n + 2 := by
  rw [← sub_le_iff_le_add, le_mul_cbrt_iff]
  by_cases hr : 2 ≤ r
  · have hcast : HighOk n r ↔ (100 * ((r - 2 : ℕ) : ℝ)) ^ 3 ≤ 1030301 * n := by
      unfold HighOk
      norm_cast
    rw [hcast, Nat.cast_sub hr, Nat.cast_ofNat]
    constructor <;> intro h <;> linarith
  · have hneg : (r : ℝ) - 2 ≤ 0 := sub_nonpos.mpr (by exact_mod_cast (by omega : r ≤ 2))
    have hcube : ((r : ℝ) - 2) ^ 3 ≤ 0 := Odd.pow_nonpos (by decide) hneg
    have hn : (0 : ℝ) ≤ n := Nat.cast_nonneg n
    have hzero : HighOk n r := by
      unfold HighOk
      rw [show r - 2 = 0 by omega]
      exact Nat.zero_le _
    exact iff_of_true hzero (by linarith)

theorem accurate_iff (n : ℕ) (r : U32) : Accurate n r ↔ LowOk n r.toNat ∧ HighOk n r.toNat := by
  rw [lowOk_iff, highOk_iff_cbrt]
  rfl

/-! ## The computation over the naturals -/

/-- The first estimate for the index `i`. -/
def estimate (b i : ℕ) : ℕ :=
  ((vAt i).toNat + 10) * 2 ^ b / 64

/-- The Newton step from `x`. -/
def newton (x n : ℕ) : ℕ :=
  (2 * x + n / (x * (x - 1))) * 341 / 1024

/-- A Newton step that fits its word is the one over the naturals. -/
theorem newtonStep_toNat {x : U32} {a : U64} (hx : 2 ≤ x.toNat)
    (hfits : (2 * x.toNat + a.toNat / (x.toNat * (x.toNat - 1))) * 341 < 2 ^ 32) :
    (((2 * x + (a / (x.setWidth 64 * (x - 1).setWidth 64)).setWidth 32) * 341) >>> 10 : U32).toNat =
      newton x.toNat a.toNat := by
  have hdivisor := newtonDivisor_toNat (x := x) (by omega)
  have hquot : ((a / (x.setWidth 64 * (x - 1).setWidth 64)).setWidth 32 : U32).toNat =
      a.toNat / (x.toNat * (x.toNat - 1)) := by
    rw [BitVec.toNat_setWidth, BitVec.toNat_udiv, hdivisor, Nat.mod_eq_of_lt (by omega)]
  have htwo : (2 * x).toNat = 2 * x.toNat := BitVec.toNat_mul_of_lt (show (2 : U32).toNat * x.toNat < 2 ^ 32 by
    rw [show (2 : U32).toNat = 2 from rfl]
    omega)
  have hsum : (2 * x + (a / (x.setWidth 64 * (x - 1).setWidth 64)).setWidth 32).toNat =
      2 * x.toNat + a.toNat / (x.toNat * (x.toNat - 1)) := by
    rw [BitVec.toNat_add_of_lt (by rw [htwo, hquot]; omega), htwo, hquot]
  have hthird : (341 : U32).toNat = 341 := rfl
  unfold newton
  rw [BitVec.toNat_ushiftRight, BitVec.toNat_mul_of_lt (by rw [hsum, hthird]; exact hfits), hsum, hthird,
    Nat.shiftRight_eq_div_pow]

/-- The entries `i` of the table that are read with the shift `3 * b`. -/
def Entry (b i : ℕ) : Prop :=
  1 ≤ b ∧ 2 ^ (2 + b % 2) ≤ i ∧ i < 2 ^ (6 - b % 2)

instance (b i : ℕ) : Decidable (Entry b i) :=
  inferInstanceAs (Decidable (1 ≤ b ∧ 2 ^ (2 + b % 2) ≤ i ∧ i < 2 ^ (6 - b % 2)))

/-- The Newton step stays in its word on the whole of every entry. -/
theorem newton_fits : ∀ b < 21, ∀ i < 64, Entry b i →
    (2 * estimate b i + (i + 1) * 2 ^ (3 * b) / (estimate b i * (estimate b i - 1))) * 341 < 2 ^ 32 := by
  decide +kernel

/-- The product of the Newton step for an argument of the entry. -/
theorem newton_product_lt {n b : ℕ} (hentry : Entry b (n / 2 ^ (3 * b))) (hb : b < 21) (hi : n / 2 ^ (3 * b) < 64) :
    (2 * estimate b (n / 2 ^ (3 * b)) +
      n / (estimate b (n / 2 ^ (3 * b)) * (estimate b (n / 2 ^ (3 * b)) - 1))) * 341 < 2 ^ 32 := by
  -- the quotient grows with `n`, which lies below the next index
  have hnext : n ≤ (n / 2 ^ (3 * b) + 1) * 2 ^ (3 * b) := by
    rw [Nat.mul_comm]
    exact (Nat.lt_mul_div_succ n (Nat.two_pow_pos _)).le
  have hfits := newton_fits b hb _ hi hentry
  generalize estimate b (n / 2 ^ (3 * b)) = x at hfits ⊢
  have hquot := Nat.div_le_div_right (c := x * (x - 1)) hnext
  exact lt_of_le_of_lt (Nat.mul_le_mul_right 341 (Nat.add_le_add_left hquot _)) hfits

/-- **The cube root over the naturals.** -/
theorem cubicRoot_toNat {a : U64} (ha : 64 ≤ a.toNat) :
    ∃ b r, b < 21 ∧ Entry b (a.toNat / 2 ^ (3 * b)) ∧ 2 ≤ estimate b (a.toNat / 2 ^ (3 * b)) ∧
      cubicRoot a = some r ∧ r.toNat = newton (estimate b (a.toNat / 2 ^ (3 * b))) a.toNat := by
  obtain ⟨b, x, hb1, hb20, hindex, hbound, hx, hx2, hroot⟩ := cubicRoot_newton ha
  obtain ⟨-, hsixty⟩ := shift_bounds hindex hbound
  have hestimate : estimate b.toNat (a.toNat / 2 ^ (3 * b.toNat)) = x.toNat := hx.symm
  refine ⟨b.toNat, _, by omega, ⟨hb1, hindex, hbound⟩, hestimate ▸ hx2, hroot, ?_⟩
  rw [hestimate]
  apply newtonStep_toNat hx2
  have hproduct := newton_product_lt ⟨hb1, hindex, hbound⟩ (by omega) hsixty
  rwa [hestimate] at hproduct

/-! ## The lower bound -/

/-- **The result is never too small.** -/
theorem lowOk_newton {x n : ℕ} (hx : 2 ≤ x) : LowOk n (newton x n) := by
  have hpos : 0 < x * (x - 1) := Nat.mul_pos (by omega) (by omega)
  have hcube := newton_lower (n := n) (Nat.mul_le_mul_left x (Nat.sub_le x 1)) hpos
  set s := n / (x * (x - 1)) + 1 with hs
  -- the division by 3 as 341/1024 and the two truncations
  have hthird : 341 * (2 * x + s) ≤ 1024 * (newton x n + 2) := by
    unfold newton
    omega
  have hscaled : 341 ^ 3 * (2 * x + s) ^ 3 ≤ 1024 ^ 3 * (newton x n + 2) ^ 3 := by
    rw [← mul_pow, ← mul_pow]
    exact Nat.pow_le_pow_left hthird 3
  unfold LowOk
  rw [mul_pow]
  omega

/-! ## The upper bound -/

/-- A line over `n` around the result of the Newton step, in units of `1 / (102400 * x * (x - 1))` and less 2. -/
def line (x c n : ℕ) : ℕ :=
  (68200 * x - c) * (x * (x - 1)) + 34100 * n

/-- The upper bound for the line. -/
def LineOk (x c n : ℕ) : Prop :=
  line x c n ^ 3 ≤ 1030301 * (1024 * (x * (x - 1))) ^ 3 * n

instance (x c n : ℕ) : Decidable (LineOk x c n) :=
  inferInstanceAs (Decidable (line x c n ^ 3 ≤ 1030301 * (1024 * (x * (x - 1))) ^ 3 * n))

theorem LineOk.between {x c lo hi n : ℕ} (hlo : LineOk x c lo) (hhi : LineOk x c hi) (h1 : lo ≤ n) (h2 : n ≤ hi) :
    LineOk x c n :=
  cube_le_of_ends hlo hhi h1 h2

/-- The difference in the line can be added back. -/
theorem line_add {x c n : ℕ} (hc : c ≤ 68200 * x) :
    line x c n + c * (x * (x - 1)) = x * (x - 1) * (68200 * x) + 34100 * n := by
  unfold line
  calc (68200 * x - c) * (x * (x - 1)) + 34100 * n + c * (x * (x - 1))
      = (68200 * x - c + c) * (x * (x - 1)) + 34100 * n := by ring
    _ = x * (x - 1) * (68200 * x) + 34100 * n := by rw [Nat.sub_add_cancel hc, Nat.mul_comm]

/-- The result lies below the line of `204800`. -/
theorem newton_le_line {x : ℕ} (n : ℕ) (hx : 4 ≤ x) :
    1024 * (x * (x - 1)) * (100 * (newton x n - 2)) ≤ line x 204800 n := by
  have hline := line_add (n := n) (show 204800 ≤ 68200 * x by omega)
  have hr : newton x n = (2 * x + n / (x * (x - 1))) * 341 / 1024 := rfl
  generalize x * (x - 1) = d at hline hr ⊢
  have hquot : d * (n / d) ≤ n := Nat.mul_div_le n d
  have hunits : 102400 * (newton x n - 2) + 204800 ≤ 68200 * x + 34100 * (n / d) := by omega
  have hscaled := Nat.mul_le_mul_left d hunits
  have hleft : d * (102400 * (newton x n - 2) + 204800) = 1024 * d * (100 * (newton x n - 2)) + 204800 * d := by ring
  have hright : d * (68200 * x + 34100 * (n / d)) = d * (68200 * x) + 34100 * (d * (n / d)) := by ring
  omega

/-- The result lies above the line of `341200`, which allows for the truncations. -/
theorem line_le_newton {x : ℕ} (n : ℕ) (hx : 6 ≤ x) :
    line x 341200 n ≤ 1024 * (x * (x - 1)) * (100 * (newton x n - 2)) := by
  have hpos : 0 < x * (x - 1) := Nat.mul_pos (by omega) (by omega)
  have hline := line_add (n := n) (show 341200 ≤ 68200 * x by omega)
  have hr : newton x n = (2 * x + n / (x * (x - 1))) * 341 / 1024 := rfl
  generalize x * (x - 1) = d at hpos hline hr ⊢
  have hquot : n < d * (n / d + 1) := Nat.lt_mul_div_succ n hpos
  have hunits : 68200 * x + 34100 * (n / d + 1) ≤ 102400 * (newton x n - 2) + 341200 := by omega
  have hscaled := Nat.mul_le_mul_left d hunits
  have hleft : d * (68200 * x + 34100 * (n / d + 1)) = d * (68200 * x) + 34100 * (d * (n / d + 1)) := by ring
  have hright : d * (102400 * (newton x n - 2) + 341200) = 1024 * d * (100 * (newton x n - 2)) + 341200 * d := by ring
  omega

theorem HighOk.of_line {x n : ℕ} (hx : 4 ≤ x) (h : LineOk x 204800 n) : HighOk n (newton x n) := by
  have hpos : 0 < (1024 * (x * (x - 1))) ^ 3 := by
    have : 0 < x * (x - 1) := Nat.mul_pos (by omega) (by omega)
    positivity
  refine Nat.le_of_mul_le_mul_left ?_ hpos
  calc (1024 * (x * (x - 1))) ^ 3 * (100 * (newton x n - 2)) ^ 3
      = (1024 * (x * (x - 1)) * (100 * (newton x n - 2))) ^ 3 := (mul_pow _ _ 3).symm
    _ ≤ line x 204800 n ^ 3 := Nat.pow_le_pow_left (newton_le_line n hx) 3
    _ ≤ 1030301 * (1024 * (x * (x - 1))) ^ 3 * n := h
    _ = (1024 * (x * (x - 1))) ^ 3 * (1030301 * n) := by ring

theorem HighOk.lineOk {x n : ℕ} (hx : 6 ≤ x) (h : HighOk n (newton x n)) : LineOk x 341200 n := by
  unfold LineOk
  calc line x 341200 n ^ 3
      ≤ (1024 * (x * (x - 1)) * (100 * (newton x n - 2))) ^ 3 := Nat.pow_le_pow_left (line_le_newton n hx) 3
    _ = (1024 * (x * (x - 1))) ^ 3 * (100 * (newton x n - 2)) ^ 3 := mul_pow _ _ 3
    _ ≤ (1024 * (x * (x - 1))) ^ 3 * (1030301 * n) := Nat.mul_le_mul_left _ h
    _ = 1030301 * (1024 * (x * (x - 1))) ^ 3 * n := by ring

/-! ## The entries of the table -/

/-- The entries 4 and 5 of the table, read for an argument of `3 * b + 3` bits. -/
def Slow (b i : ℕ) : Prop :=
  b % 2 = 0 ∧ 6 ≤ b ∧ i < 6

instance (b i : ℕ) : Decidable (Slow b i) := inferInstanceAs (Decidable (b % 2 = 0 ∧ 6 ≤ b ∧ i < 6))

/-- The other entries: the bound holds at both ends. -/
theorem entry_ends : ∀ b < 21, ∀ i < 64, Entry b i → ¬ Slow b i →
    4 ≤ estimate b i ∧ LineOk (estimate b i) 204800 (i * 2 ^ (3 * b)) ∧
      LineOk (estimate b i) 204800 ((i + 1) * 2 ^ (3 * b)) := by
  decide +kernel

/-- The intervals of `coarse` lie in the slow entries. -/
theorem coarse_slow : ∀ g ∈ coarse, ∃ c < 21, Slow c 4 ∧ 4 * 2 ^ (3 * c) ≤ g.1 ∧ g.2 ≤ 6 * 2 ^ (3 * c) := by
  decide +kernel

/-- The other entries meet none of them. -/
theorem entry_clear {b i : ℕ} (hentry : Entry b i) (hfine : ¬ Slow b i) :
    Clear (i * 2 ^ (3 * b)) ((i + 1) * 2 ^ (3 * b)) := by
  intro g hg
  obtain ⟨c, -, hslow, hlo, hhi⟩ := coarse_slow g hg
  obtain ⟨hb, hlow, hhigh⟩ := hentry
  obtain ⟨heven, hc, -⟩ := hslow
  rcases lt_trichotomy b c with hlt | rfl | hlt
  · -- an odd `b` has no entries from 32 on
    have hbits : 3 * b + (6 - b % 2) ≤ 3 * c + 2 := by omega
    have hbefore : (i + 1) * 2 ^ (3 * b) ≤ 4 * 2 ^ (3 * c) := by
      calc (i + 1) * 2 ^ (3 * b) ≤ 2 ^ (6 - b % 2) * 2 ^ (3 * b) := Nat.mul_le_mul_right _ hhigh
        _ = 2 ^ (3 * b + (6 - b % 2)) := by rw [← pow_add, Nat.add_comm]
        _ ≤ 2 ^ (3 * c + 2) := Nat.pow_le_pow_right (by decide) hbits
        _ = 4 * 2 ^ (3 * c) := by ring
    exact Or.inr (hbefore.trans hlo)
  · have hsix : 6 ≤ i := Nat.not_lt.mp fun hi => hfine ⟨heven, hc, hi⟩
    exact Or.inl (hhi.trans (Nat.mul_le_mul_right _ hsix))
  · have hbits : 3 * c + 3 ≤ 3 * b + (2 + b % 2) := by omega
    have hafter : 6 * 2 ^ (3 * c) ≤ i * 2 ^ (3 * b) := by
      calc 6 * 2 ^ (3 * c) ≤ 8 * 2 ^ (3 * c) := Nat.mul_le_mul_right _ (by decide)
        _ = 2 ^ (3 * c + 3) := by ring
        _ ≤ 2 ^ (3 * b + (2 + b % 2)) := Nat.pow_le_pow_right (by decide) hbits
        _ = 2 ^ (2 + b % 2) * 2 ^ (3 * b) := by rw [← pow_add, Nat.add_comm]
        _ ≤ i * 2 ^ (3 * b) := Nat.mul_le_mul_right _ hlow
    exact Or.inl (hhi.trans hafter)

/-- The entries 4 and 5 have one estimate. -/
theorem slow_estimate : ∀ b < 21, ∀ i < 64, Entry b i → Slow b i → estimate b i = 2 ^ (b + 1) := by
  decide +kernel

/-- The quotient of the Newton step near which the bound begins to hold. -/
def crossing : ℕ → ℕ
  | 6 => 68
  | 8 => 340
  | 10 => 1452
  | 12 => 5914
  | 14 => 23764
  | 16 => 95165
  | 18 => 380771
  | _ => 1523195

/-- Where the bound begins to hold for the result `r`. -/
def threshold (r : ℕ) : ℕ :=
  ((100 * (r - 2)) ^ 3 + 1030300) / 1030301

theorem highOk_iff_threshold (n r : ℕ) : HighOk n r ↔ threshold r ≤ n := by
  unfold HighOk threshold
  omega

/-- The arguments from `lo` below `hi`, which have the result `r`, are in `coarse` exactly below the threshold. -/
def BlockOk (lo hi r : ℕ) : Prop :=
  (threshold r ≤ lo ∨ Covered lo (min (threshold r) hi)) ∧ (hi ≤ threshold r ∨ Clear (max (threshold r) lo) hi)

instance (lo hi r : ℕ) : Decidable (BlockOk lo hi r) :=
  inferInstanceAs (Decidable ((threshold r ≤ lo ∨ Covered lo (min (threshold r) hi)) ∧
    (hi ≤ threshold r ∨ Clear (max (threshold r) lo) hi)))

theorem BlockOk.highOk_iff {lo hi r n : ℕ} (h : BlockOk lo hi r) (hlo : lo ≤ n) (hhi : n < hi) :
    HighOk n r ↔ ¬ Coarse n := by
  rw [highOk_iff_threshold]
  obtain ⟨hbelow, habove⟩ := h
  by_cases hn : threshold r ≤ n
  · have hclear := habove.resolve_left (by omega)
    exact iff_of_true hn (hclear.not_coarse (by omega) hhi)
  · have hcovered := hbelow.resolve_left (by omega)
    exact iff_of_false hn (not_not.mpr (hcovered.coarse hlo (by omega)))

/-- The slow entries below the crossing: the bound fails at the crossing. -/
theorem slow_below : ∀ b < 21, Slow b 4 →
    ¬ LineOk (2 ^ (b + 1)) 341200 (crossing b * (2 ^ (b + 1) * (2 ^ (b + 1) - 1))) ∧
      LineOk (2 ^ (b + 1)) 341200 (6 * 2 ^ (3 * b)) ∧
      crossing b * (2 ^ (b + 1) * (2 ^ (b + 1) - 1)) ≤ 6 * 2 ^ (3 * b) ∧
      Covered (4 * 2 ^ (3 * b)) (crossing b * (2 ^ (b + 1) * (2 ^ (b + 1) - 1))) := by
  decide +kernel

/-- The slow entries above the crossing. -/
theorem slow_above : ∀ b < 21, Slow b 4 →
    LineOk (2 ^ (b + 1)) 204800 ((crossing b + 17) * (2 ^ (b + 1) * (2 ^ (b + 1) - 1))) ∧
      LineOk (2 ^ (b + 1)) 204800 (6 * 2 ^ (3 * b)) ∧
      Clear ((crossing b + 17) * (2 ^ (b + 1) * (2 ^ (b + 1) - 1))) (6 * 2 ^ (3 * b)) := by
  decide +kernel

/-- The slow entries at the crossing, one quotient after the other. -/
theorem slow_blocks : ∀ b < 21, Slow b 4 → ∀ j < 17,
    BlockOk ((crossing b + j) * (2 ^ (b + 1) * (2 ^ (b + 1) - 1)))
      ((crossing b + j + 1) * (2 ^ (b + 1) * (2 ^ (b + 1) - 1)))
      ((2 * 2 ^ (b + 1) + (crossing b + j)) * 341 / 1024) := by
  decide +kernel

/-- **The slow entries.** The quotient of the Newton step lies below the crossing, near it or above it. -/
theorem highOk_iff_slow {b n : ℕ} (hb : b < 21) (hslow : Slow b 4) (hlo : 4 * 2 ^ (3 * b) ≤ n)
    (hhi : n < 6 * 2 ^ (3 * b)) : HighOk n (newton (2 ^ (b + 1)) n) ↔ ¬ Coarse n := by
  have hx : 6 ≤ 2 ^ (b + 1) := by
    have hb6 := hslow.2.1
    calc 6 ≤ 2 ^ 3 := by decide
      _ ≤ 2 ^ (b + 1) := Nat.pow_le_pow_right (by decide) (by omega)
  have hpos : 0 < 2 ^ (b + 1) * (2 ^ (b + 1) - 1) := Nat.mul_pos (by omega) (by omega)
  obtain ⟨hfails, hend, hbefore, hcovered⟩ := slow_below b hb hslow
  obtain ⟨hpasses, hend', hclear⟩ := slow_above b hb hslow
  have hblocks := slow_blocks b hb hslow
  have hnewton : newton (2 ^ (b + 1)) n =
      (2 * 2 ^ (b + 1) + n / (2 ^ (b + 1) * (2 ^ (b + 1) - 1))) * 341 / 1024 := rfl
  generalize 2 ^ (b + 1) * (2 ^ (b + 1) - 1) = d at hpos hfails hbefore hcovered hpasses hclear hblocks hnewton
  by_cases hbelow : n < crossing b * d
  · -- a bound that held at `n` would hold from there to the end, and so at the crossing
    refine iff_of_false ?_ (not_not.mpr (hcovered.coarse hlo hbelow))
    intro hhigh
    exact hfails ((hhigh.lineOk hx).between hend hbelow.le hbefore)
  · by_cases habove : (crossing b + 17) * d ≤ n
    · have hline := hpasses.between hend' habove hhi.le
      exact iff_of_true (HighOk.of_line (by omega) hline) (hclear.not_coarse habove hhi)
    · have hq : crossing b ≤ n / d := (Nat.le_div_iff_mul_le hpos).mpr (by omega)
      have hq' : n / d < crossing b + 17 := (Nat.div_lt_iff_lt_mul hpos).mpr (by omega)
      have hblock := hblocks (n / d - crossing b) (by omega)
      rw [Nat.add_sub_cancel' hq, ← hnewton] at hblock
      apply hblock.highOk_iff (Nat.div_mul_le_self n d)
      rw [Nat.mul_comm]
      exact Nat.lt_mul_div_succ n hpos

/-- **The upper bound** holds exactly outside the intervals of `coarse`. -/
theorem highOk_iff {b n : ℕ} (hb : b < 21) (hentry : Entry b (n / 2 ^ (3 * b))) :
    HighOk n (newton (estimate b (n / 2 ^ (3 * b))) n) ↔ ¬ Coarse n := by
  obtain ⟨hfour, hsixty⟩ := shift_bounds hentry.2.1 hentry.2.2
  have hlo := Nat.div_mul_le_self n (2 ^ (3 * b))
  have hhi := Nat.lt_mul_div_succ n (Nat.two_pow_pos (3 * b))
  rw [Nat.mul_comm] at hhi
  generalize n / 2 ^ (3 * b) = i at hentry hfour hsixty hlo hhi ⊢
  by_cases hslow : Slow b i
  · rw [slow_estimate b hb i hsixty hentry hslow]
    apply highOk_iff_slow hb ⟨hslow.1, hslow.2.1, by decide⟩
    · exact le_trans (Nat.mul_le_mul_right _ hfour) hlo
    · exact lt_of_lt_of_le hhi (Nat.mul_le_mul_right _ hslow.2.2)
  · obtain ⟨hx, hstart, hend⟩ := entry_ends b hb i hsixty hentry hslow
    have hclear := entry_clear hentry hslow
    exact iff_of_true (HighOk.of_line hx (hstart.between hend hlo hhi.le)) (hclear.not_coarse hlo hhi)

/-! ## The claim of the source -/

/-- The arguments that are looked up directly. -/
theorem small_ok : ∀ n < 64, LowOk n ((vAt n + 35) >>> 6).toNat ∧ HighOk n ((vAt n + 35) >>> 6).toNat ∧ ¬ Coarse n := by
  decide +kernel

/-- The cube root of a word is close exactly outside the intervals of `coarse`. -/
theorem cubicRoot_close (a : U64) : ∃ r, cubicRoot a = some r ∧ (Accurate a.toNat r ↔ ¬ Coarse a.toNat) := by
  by_cases ha : 64 ≤ a.toNat
  · obtain ⟨b, r, hb, hentry, hx, hroot, hr⟩ := cubicRoot_toNat ha
    refine ⟨r, hroot, ?_⟩
    rw [accurate_iff, hr, highOk_iff hb hentry]
    exact and_iff_right (lowOk_newton hx)
  · have hsmall : a < 64 := by
      rw [BitVec.lt_def]
      simpa using ha
    obtain ⟨hlow, hhigh, hfine⟩ := small_ok a.toNat (by omega)
    refine ⟨_, if_pos hsmall, ?_⟩
    rw [accurate_iff]
    exact iff_of_true ⟨hlow, hhigh⟩ hfine

/-- The `bic_K` of a call that opens an epoch below the last maximum. -/
theorem bictcpUpdate_bicK {cfg : Config} {ca ca' : Bictcp} {cwnd acked : U32} {clk : Jiffies}
    (h : bictcpUpdate cfg ca cwnd acked clk = some ca') (hclosed : ca.epochStart = 0)
    (hearly : ¬ EarlyReturn cfg ca cwnd clk) (hmax : cwnd < ca.lastMaxCwnd) :
    cubicRoot (cubeFactor * (ca.lastMaxCwnd - cwnd).setWidth 64) = some ca'.bicK := by
  cases bictcpUpdate_way h with
  | early hearly' => exact absurd hearly' hearly
  | friendly _ hopen => exact absurd hclosed hopen
  | cubic _ hrecord _ hblock =>
    unfold bictcpRecord bictcpOpenEpoch at hrecord
    simp only at hrecord
    rw [if_pos hclosed, if_neg (BitVec.not_le.mpr hmax)] at hrecord
    obtain ⟨k, hk, rfl⟩ := Option.map_eq_some_iff.mp hrecord
    have hframe := congrArg Bictcp.bicK (bictcpFriendliness_frame hblock)
    rw [hk]
    exact congrArg some hframe.symm

/-- The argument of the cube root, which does not wrap. -/
theorem rootArgument_toNat {max cwnd : U32} (h : cwnd < max) :
    (cubeFactor * (max - cwnd).setWidth 64).toNat = 2681735677 * (max.toNat - cwnd.toNat) := by
  have hfactor : cubeFactor.toNat = 2681735677 := rfl
  have hsub : (max - cwnd).toNat = max.toNat - cwnd.toNat := BitVec.toNat_sub_of_le (BitVec.le_of_lt h)
  have hlt := max.isLt
  rw [BitVec.toNat_mul_of_lt (by rw [hfactor, toNat_setWidth64, hsub]; omega), hfactor, toNat_setWidth64, hsub]

/-- **The bound holds exactly outside the intervals of `coarse`**, for the cube root of a word and for the `bic_K` of a
call that takes the cube root of this word. -/
theorem cubicRoot_accurate_iff (a : U64) :
    ((∃ r, cubicRoot a = some r ∧ Accurate a.toNat r) ↔ ¬ Coarse a.toNat) ∧
      ∀ (cfg : Config) (ca : Bictcp) (cwnd acked : U32) (clk : Jiffies), ca.epochStart = 0 →
        ¬ EarlyReturn cfg ca cwnd clk → cwnd < ca.lastMaxCwnd →
        a.toNat = 2681735677 * (ca.lastMaxCwnd.toNat - cwnd.toNat) →
          ((∃ ca', bictcpUpdate cfg ca cwnd acked clk = some ca' ∧ Accurate a.toNat ca'.bicK) ↔ ¬ Coarse a.toNat) := by
  obtain ⟨r, hroot, hr⟩ := cubicRoot_close a
  constructor
  · rw [← hr, hroot]
    simp
  · intro cfg ca cwnd acked clk hclosed hearly hmax ha
    obtain ⟨ca', hcall⟩ := bictcpUpdate_total cfg ca cwnd acked clk
    have hargument : cubeFactor * (ca.lastMaxCwnd - cwnd).setWidth 64 = a := by
      apply BitVec.eq_of_toNat_eq
      rw [rootArgument_toNat hmax, ha]
    have hk := bictcpUpdate_bicK hcall hclosed hearly hmax
    rw [hargument, hroot] at hk
    cases hk
    rw [← hr, hcall]
    simp

/-- An epoch opened at a window of 70 under a `last_max_cwnd` of 100. -/
theorem cubicRoot_accurate_iff_hundred :
    let cfg : Config := ⟨1000, 717, 15, by decide⟩
    let ca : Bictcp := ⟨20, 100, 100, 0, 100, 0, 100000, 0, 0, 0, 8, 1, 0, 0, 0, 0⟩
    ∃ ca', bictcpUpdate cfg ca 70 1 ⟨1, 1, 1, 1, 1⟩ = some ca' ∧ Accurate (80452070310 : U64).toNat ca'.bicK := by
  intro cfg ca
  have hfine : ¬ Coarse (80452070310 : U64).toNat := by decide +kernel
  have hcall := (cubicRoot_accurate_iff 80452070310).2 cfg ca 70 1 ⟨1, 1, 1, 1, 1⟩ rfl
    (by decide) (by decide) (by decide)
  exact hcall.mpr hfine

/-- An epoch opened at a window of 280 under a `last_max_cwnd` of 400: `bic_K` is 7052, where the cube root is
6852.8. -/
theorem bicK_too_large :
    let cfg : Config := ⟨1000, 717, 15, by decide⟩
    let ca : Bictcp := ⟨20, 400, 400, 0, 400, 0, 100000, 0, 0, 0, 8, 1, 0, 0, 0, 0⟩
    ca.epochStart = 0 ∧ 280 < ca.lastMaxCwnd ∧
      (bictcpUpdate cfg ca 280 1 ⟨1, 1, 1, 1, 1⟩).map Bictcp.bicK = cubicRoot 321808281240 ∧
      321808281240 = cubeFactor * (ca.lastMaxCwnd - 280).setWidth 64 ∧
      cubicRoot 321808281240 = some 7052 ∧
      ¬ ∃ r, cubicRoot 321808281240 = some r ∧ Accurate 321808281240 r := by
  intro cfg ca
  have hroot : cubicRoot 321808281240 = some 7052 := by decide +kernel
  refine ⟨rfl, by decide, by decide +kernel, by decide +kernel, hroot, ?_⟩
  rintro ⟨r, hr, haccurate⟩
  rw [hroot] at hr
  cases hr
  have hhigh := ((accurate_iff _ _).mp haccurate).2
  revert hhigh
  decide +kernel

end CoupledCC.Cubic
