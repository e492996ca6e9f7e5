import CoupledCC.Lib.Word

/-!
# The cube root of the CUBIC controller

`fls64` looks for the highest set bit of a 64-bit word by halving; `cubic_root` takes a first estimate from a table and
improves it with one Newton step.

- `fls64_bounds`: a nonzero word lies in `[2^(n-2), 2^n)` for its `fls64` `n`, which is even;
- `cubicRoot_newton`: the Newton step from 64 on, its first estimate over the naturals;
- `cubicRoot_total`: the divisor of the Newton step is never zero.
-/

namespace CoupledCC.Cubic

open Word

/-- One test of `fls64`: when the top `k` bits are clear they are shifted out. -/
def flsStep (k : Nat) (s : U32 × U64) : U32 × U64 :=
  if s.2 &&& (BitVec.allOnes 64 <<< (64 - k)) = 0 then (s.1 - BitVec.ofNat 32 k, s.2 <<< k) else s

/-- The position of the highest set bit; the last test of the chain (`64 - 1`) is commented out in the source. -/
def fls64 (x : U64) : U32 :=
  if x = 0 then 0
  else ([32, 16, 8, 4, 2].foldl (fun s k => flsStep k s) (63, x)).1 + 1

/-- `v[x]` is about `cbrt(x << 18) - 1`, refined by hand. -/
def v : List U8 :=
  [0, 54, 54, 54, 118, 118, 118, 118,
    123, 129, 134, 138, 143, 147, 151, 156,
    157, 161, 164, 168, 170, 173, 176, 179,
    181, 185, 187, 190, 192, 194, 197, 199,
    200, 202, 204, 206, 209, 211, 213, 215,
    217, 219, 221, 222, 224, 225, 227, 229,
    231, 232, 234, 236, 237, 239, 240, 242,
    244, 245, 246, 248, 250, 251, 252, 254]

/-- An entry of the table as a 32-bit word. -/
def vAt (i : Nat) : U32 :=
  (v.getD i 0).setWidth 32

/-- The first estimate of the cube root of `a`, from `b` and the top bits of `a`. -/
def firstEstimate (b shift : U32) : U32 :=
  ((vAt shift.toNat + 10) <<< b) >>> 6

/-- The cube root by table lookup and one Newton step. -/
def cubicRoot (a : U64) : Option U32 :=
  if a < 64 then some ((vAt a.toNat + 35) >>> 6)
  else
    let b := ((fls64 a * 84) >>> 8) - 1
    let shift : U32 := (a >>> (b * 3)).setWidth 32
    -- it is needed for the verifier's bound check on v
    if 64 ≤ shift then some 0
    else
      let x := firstEstimate b shift
      (checkedDiv a (x.setWidth 64 * (x - 1).setWidth 64)).map fun q =>
        ((2 * x + q.setWidth 32) * 341) >>> 10

/-! ## The highest set bit -/

/-- The word of the state is `a` shifted so that bit `num` comes to the top. -/
def Aligned (a : U64) (s : U32 × U64) : Prop :=
  s.1.toNat ≤ 63 ∧ s.2.toNat = a.toNat * 2 ^ (63 - s.1.toNat)

/-- One test: with a bit among the top `2k` there is one among the top `k` afterwards. -/
theorem flsStep_spec {a : U64} {s : U32 × U64} {k : Nat} (hk : 2 * k ≤ 64) (hs : Aligned a s) (hnum : k ≤ s.1.toNat)
    (hlow : 2 ^ (64 - 2 * k) ≤ s.2.toNat) :
    Aligned a (flsStep k s) ∧ 2 ^ (64 - k) ≤ (flsStep k s).2.toNat ∧
      ((flsStep k s).1.toNat = s.1.toNat ∨ (flsStep k s).1.toNat = s.1.toNat - k) := by
  unfold flsStep
  by_cases hclear : s.2 &&& (BitVec.allOnes 64 <<< (64 - k)) = 0
  · rw [if_pos hclear]
    rw [and_highMask_eq_zero] at hclear
    have hfit : s.2.toNat * 2 ^ k < 2 ^ 64 := by
      calc s.2.toNat * 2 ^ k < 2 ^ (64 - k) * 2 ^ k := Nat.mul_lt_mul_of_pos_right hclear (by positivity)
        _ = 2 ^ 64 := by rw [← pow_add]; congr 1; omega
    have hnum' : (s.1 - BitVec.ofNat 32 k).toNat = s.1.toNat - k := by
      have hofNat : (BitVec.ofNat 32 k).toNat = k := by simp; omega
      rw [BitVec.toNat_sub_of_le (by rw [BitVec.le_def, hofNat]; exact hnum), hofNat]
    refine ⟨⟨?_, ?_⟩, ?_, Or.inr hnum'⟩
    · have := hs.1
      rw [hnum']; omega
    · have hexp : 63 - s.1.toNat + k = 63 - (s.1.toNat - k) := by have := hs.1; omega
      rw [toNat_shiftLeft_of_lt hfit, hnum', hs.2, Nat.mul_assoc, ← pow_add, hexp]
    · rw [toNat_shiftLeft_of_lt hfit]
      calc 2 ^ (64 - k) = 2 ^ (64 - 2 * k) * 2 ^ k := by rw [← pow_add]; congr 1; omega
        _ ≤ s.2.toNat * 2 ^ k := Nat.mul_le_mul_right _ hlow
  · rw [if_neg hclear]
    rw [and_highMask_eq_zero] at hclear
    exact ⟨hs, Nat.not_lt.mp hclear, Or.inl rfl⟩

/-- **The highest set bit, to within one.** -/
theorem fls64_bounds {a : U64} (ha : a ≠ 0) :
    ∃ n, (fls64 a).toNat = 2 * n ∧ 1 ≤ n ∧ n ≤ 32 ∧ 2 ^ (2 * n - 2) ≤ a.toNat ∧ a.toNat < 2 ^ (2 * n) := by
  have hpos : 1 ≤ a.toNat := by
    by_contra h
    exact ha (BitVec.eq_of_toNat_eq (by simp; omega))
  have n0 : (((63 : U32), a) : U32 × U64).1.toNat = 63 := rfl
  have h0 : Aligned a (63, a) := ⟨le_of_eq n0, by simp⟩
  obtain ⟨h1, l1, n1⟩ := flsStep_spec (k := 32) (by decide) h0 (by rw [n0]; decide) (by simpa using hpos)
  obtain ⟨h2, l2, n2⟩ := flsStep_spec (k := 16) (by decide) h1 (by omega) l1
  obtain ⟨h3, l3, n3⟩ := flsStep_spec (k := 8) (by decide) h2 (by omega) l2
  obtain ⟨h4, l4, n4⟩ := flsStep_spec (k := 4) (by decide) h3 (by omega) l3
  obtain ⟨h5, l5, n5⟩ := flsStep_spec (k := 2) (by decide) h4 (by omega) l4
  set s := flsStep 2 (flsStep 4 (flsStep 8 (flsStep 16 (flsStep 32 (63, a)))))
  obtain ⟨n, hn⟩ : ∃ n, s.1.toNat + 1 = 2 * n := ⟨(s.1.toNat + 1) / 2, by omega⟩
  have hle := h5.1
  have hfls : (fls64 a).toNat = 2 * n := by
    rw [fls64, if_neg ha, ← hn]
    have hone : (1#32).toNat = 1 := rfl
    exact BitVec.toNat_add_of_lt (x := s.1) (y := 1#32) (by omega)
  have hshift : s.2.toNat = a.toNat * 2 ^ (64 - 2 * n) := by
    rw [h5.2, show 63 - s.1.toNat = 64 - 2 * n by omega]
  refine ⟨n, hfls, by omega, by omega, ?_, ?_⟩
  · refine Nat.le_of_mul_le_mul_right (c := 2 ^ (64 - 2 * n)) ?_ (by positivity)
    rw [← hshift, ← pow_add, show 2 * n - 2 + (64 - 2 * n) = 64 - 2 by omega]
    exact l5
  · apply Nat.lt_of_mul_lt_mul_right (a := 2 ^ (64 - 2 * n))
    rw [← hshift, ← pow_add, show 2 * n + (64 - 2 * n) = 64 by omega]
    exact s.2.isLt

/-! ## The first estimate -/

/-- For the first estimate `2^(3b)` is `a` without its top three to six bits, for an odd `b` four or five. -/
theorem estimate_range {a : U64} (ha : 64 ≤ a.toNat) :
    ∃ b : U32, ((fls64 a * 84) >>> 8) - 1 = b ∧ 1 ≤ b.toNat ∧ b.toNat ≤ 20 ∧
      2 ^ (3 * b.toNat + (2 + b.toNat % 2)) ≤ a.toNat ∧ a.toNat < 2 ^ (3 * b.toNat + (6 - b.toNat % 2)) := by
  have hne : a ≠ 0 := by rintro rfl; simp at ha
  obtain ⟨n, hfls, hn1, hn32, hlow, hhigh⟩ := fls64_bounds hne
  have hn4 : 4 ≤ n := by
    by_contra hlt
    have hsmall : 2 ^ (2 * n) ≤ 2 ^ 6 := Nat.pow_le_pow_right (by decide) (by omega)
    omega
  have hb : (((fls64 a * 84) >>> 8) - 1).toNat = 21 * n / 32 - 1 := by
    have hmul : (fls64 a * 84).toNat = 168 * n := by
      rw [BitVec.toNat_mul_of_lt (by rw [hfls]; simp; omega), hfls]
      simp; omega
    have hquot : ((fls64 a * 84) >>> 8).toNat = 21 * n / 32 := by
      rw [BitVec.toNat_ushiftRight, hmul, Nat.shiftRight_eq_div_pow]
      omega
    have hone : (1 : U32).toNat = 1 := rfl
    rw [BitVec.toNat_sub_of_le (by rw [BitVec.le_def]; omega), hquot, hone]
  have hbits : 3 * (21 * n / 32 - 1) + 4 + (21 * n / 32 - 1) % 2 ≤ 2 * n ∧
      2 * n ≤ 3 * (21 * n / 32 - 1) + (6 - (21 * n / 32 - 1) % 2) := by
    interval_cases n <;> decide
  refine ⟨_, rfl, by omega, by omega, ?_, ?_⟩
  · rw [hb]
    exact le_trans (Nat.pow_le_pow_right (by decide) (by omega)) hlow
  · rw [hb]
    exact lt_of_lt_of_le hhigh (Nat.pow_le_pow_right (by decide) hbits.2)

/-- The table from its fifth entry on. -/
theorem vAt_range : ∀ i : Fin 64, 4 ≤ i.val → 118 ≤ (vAt i.val).toNat ∧ (vAt i.val).toNat ≤ 254 := by
  decide

/-- The first estimate without wrap-around; it is at least `2^(b+1)`. -/
theorem firstEstimate_spec {b shift : U32} (hb : b.toNat ≤ 20) (hlow : 4 ≤ shift.toNat) (hhigh : shift.toNat < 64) :
    (firstEstimate b shift).toNat = ((vAt shift.toNat).toNat + 10) * 2 ^ b.toNat / 64 ∧
      2 ^ (b.toNat + 1) ≤ (firstEstimate b shift).toNat := by
  obtain ⟨hv118, hv254⟩ : 118 ≤ (vAt shift.toNat).toNat ∧ (vAt shift.toNat).toNat ≤ 254 :=
    vAt_range ⟨shift.toNat, hhigh⟩ hlow
  have hten : (10 : U32).toNat = 10 := rfl
  have hadd : (vAt shift.toNat + 10).toNat = (vAt shift.toNat).toNat + 10 :=
    BitVec.toNat_add_of_lt (by omega)
  have hpow : 2 ^ b.toNat ≤ 2 ^ 20 := Nat.pow_le_pow_right (by decide) hb
  have hfit : ((vAt shift.toNat).toNat + 10) * 2 ^ b.toNat < 2 ^ 32 := by
    calc ((vAt shift.toNat).toNat + 10) * 2 ^ b.toNat ≤ 264 * 2 ^ 20 := Nat.mul_le_mul (by omega) hpow
      _ < 2 ^ 32 := by decide
  have heq : (firstEstimate b shift).toNat = ((vAt shift.toNat).toNat + 10) * 2 ^ b.toNat / 64 := by
    unfold firstEstimate
    rw [BitVec.toNat_ushiftRight, BitVec.shiftLeft_eq', toNat_shiftLeft_of_lt (by rw [hadd]; exact hfit), hadd,
      Nat.shiftRight_eq_div_pow]
  refine ⟨heq, ?_⟩
  rw [heq, Nat.le_div_iff_mul_le (by decide), pow_succ]
  calc 2 ^ b.toNat * 2 * 64 = 128 * 2 ^ b.toNat := by ring
    _ ≤ ((vAt shift.toNat).toNat + 10) * 2 ^ b.toNat := Nat.mul_le_mul_right _ (by omega)

/-- The index into the table: the top bits of `a`, never out of the table. -/
theorem shift_range {a : U64} {b : U32} (hb : b.toNat ≤ 20) (hlow : 2 ^ (3 * b.toNat + (2 + b.toNat % 2)) ≤ a.toNat)
    (hhigh : a.toNat < 2 ^ (3 * b.toNat + (6 - b.toNat % 2))) :
    ((a >>> (b * 3)).setWidth 32 : U32).toNat = a.toNat / 2 ^ (3 * b.toNat) ∧
      2 ^ (2 + b.toNat % 2) ≤ a.toNat / 2 ^ (3 * b.toNat) ∧ a.toNat / 2 ^ (3 * b.toNat) < 2 ^ (6 - b.toNat % 2) := by
  have hthree : (3 : U32).toNat = 3 := rfl
  have hmul : (b * 3).toNat = 3 * b.toNat := by
    rw [BitVec.toNat_mul_of_lt (by rw [hthree]; omega), hthree, Nat.mul_comm]
  have hindex : 2 ^ (2 + b.toNat % 2) ≤ a.toNat / 2 ^ (3 * b.toNat) := by
    rw [Nat.le_div_iff_mul_le (by positivity), ← pow_add, Nat.add_comm (2 + b.toNat % 2)]
    exact hlow
  have hbound : a.toNat / 2 ^ (3 * b.toNat) < 2 ^ (6 - b.toNat % 2) := by
    rw [Nat.div_lt_iff_lt_mul (by positivity), ← pow_add, Nat.add_comm (6 - b.toNat % 2)]
    exact hhigh
  have hsixty : 2 ^ (6 - b.toNat % 2) ≤ 2 ^ 6 := Nat.pow_le_pow_right (by decide) (Nat.sub_le 6 _)
  refine ⟨?_, hindex, hbound⟩
  rw [BitVec.toNat_setWidth, BitVec.ushiftRight_eq', BitVec.toNat_ushiftRight, hmul, Nat.shiftRight_eq_div_pow,
    Nat.mod_eq_of_lt (by omega)]

/-- The index lies beyond the entries for the arguments below 4, and in the table. -/
theorem shift_bounds {b i : ℕ} (hlow : 2 ^ (2 + b % 2) ≤ i) (hhigh : i < 2 ^ (6 - b % 2)) : 4 ≤ i ∧ i < 64 :=
  ⟨le_trans (Nat.pow_le_pow_right (n := 2) (by decide) (Nat.le_add_right 2 _)) hlow,
    lt_of_lt_of_le hhigh (Nat.pow_le_pow_right (n := 2) (by decide) (Nat.sub_le 6 _))⟩

/-- The divisor of the Newton step, as a product of numbers. -/
theorem newtonDivisor_toNat {x : U32} (hx : 1 ≤ x.toNat) :
    (x.setWidth 64 * (x - 1).setWidth 64 : U64).toNat = x.toNat * (x.toNat - 1) := by
  have hone : (1 : U32).toNat = 1 := rfl
  have hsub : (x - 1).toNat = x.toNat - 1 := BitVec.toNat_sub_of_le (by rw [BitVec.le_def]; omega)
  have hlt : x.toNat * (x.toNat - 1) < 2 ^ 32 * 2 ^ 32 :=
    Nat.mul_lt_mul'' x.isLt (by have := x.isLt; omega)
  rw [BitVec.toNat_mul_of_lt (by rw [toNat_setWidth64, toNat_setWidth64, hsub]; omega), toNat_setWidth64,
    toNat_setWidth64, hsub]

/-- **The Newton step.** From 64 on neither the bound check on the table nor a zero divisor comes in its way. -/
theorem cubicRoot_newton {a : U64} (ha : 64 ≤ a.toNat) :
    ∃ b x : U32, 1 ≤ b.toNat ∧ b.toNat ≤ 20 ∧ 2 ^ (2 + b.toNat % 2) ≤ a.toNat / 2 ^ (3 * b.toNat) ∧
      a.toNat / 2 ^ (3 * b.toNat) < 2 ^ (6 - b.toNat % 2) ∧
      x.toNat = ((vAt (a.toNat / 2 ^ (3 * b.toNat))).toNat + 10) * 2 ^ b.toNat / 64 ∧ 2 ≤ x.toNat ∧
      cubicRoot a = some (((2 * x + (a / (x.setWidth 64 * (x - 1).setWidth 64)).setWidth 32) * 341) >>> 10) := by
  obtain ⟨b, hb, hb1, hb20, hlow, hhigh⟩ := estimate_range ha
  obtain ⟨hshift, hindex, hbound⟩ := shift_range hb20 hlow hhigh
  obtain ⟨hfour, hsixty⟩ := shift_bounds hindex hbound
  rw [← hshift] at hfour hsixty
  obtain ⟨hx, hxlow⟩ := firstEstimate_spec hb20 hfour hsixty
  rw [hshift] at hx
  have hx2 : 2 ≤ (firstEstimate b ((a >>> (b * 3)).setWidth 32)).toNat := le_trans (Nat.le_self_pow (by omega) 2) hxlow
  refine ⟨b, _, hb1, hb20, hindex, hbound, hx, hx2, ?_⟩
  have hsmall : ¬ a < 64 := by
    rw [BitVec.lt_def]
    simpa using ha
  have hcheck : ¬ 64 ≤ (a >>> (b * 3)).setWidth 32 := by
    rw [BitVec.not_le]
    exact hsixty
  unfold cubicRoot
  rw [if_neg hsmall, hb]
  simp only
  rw [if_neg hcheck]
  generalize firstEstimate b ((a >>> (b * 3)).setWidth 32) = x at hx2 ⊢
  have hpos : 0 < x.toNat * (x.toNat - 1) := Nat.mul_pos (by omega) (by omega)
  rw [checkedDiv_ne (ne_zero_of_pos (by rw [newtonDivisor_toNat (by omega)]; exact hpos))]
  rfl

/-- **The divisor of the Newton step is not zero.** -/
theorem cubicRoot_total (a : U64) : ∃ r, cubicRoot a = some r := by
  by_cases ha : 64 ≤ a.toNat
  · obtain ⟨b, x, -, -, -, -, -, -, hroot⟩ := cubicRoot_newton ha
    exact ⟨_, hroot⟩
  · have hsmall : a < 64 := by
      rw [BitVec.lt_def]
      simpa using ha
    exact ⟨_, if_pos hsmall⟩

end CoupledCC.Cubic
