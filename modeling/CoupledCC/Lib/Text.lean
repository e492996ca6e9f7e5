import CoupledCC.Lib.Bytes

/-!
# C strings

A string is the list of its bytes, without the NUL that ends it.

- `sprintf_eq_some`: a string printed into a block is read back, whatever was there before;
- `atoi_lt`: the value of a string is bounded by its length;
- `atoi_decimal`: and that of a number in decimal is the number.
-/

namespace Text

open Bytes

/-- The bytes of a text. -/
def bytes (s : String) : List U8 :=
  s.toList.map fun c => BitVec.ofNat 8 c.toNat

/-! ## Strings in blocks -/

/-- The string at the start of some bytes. -/
def cstr (l : List U8) : List U8 :=
  l.takeWhile (· ≠ 0)

/-- A string with its NUL written to the start of a block; `none` if they do not fit. -/
def sprintf {n : ℕ} (b : Buffer n) (s : List U8) : Option (Buffer n) :=
  b.store 0 (s ++ [0])

theorem cstr_append {s : List U8} (hs : 0 ∉ s) (after : List U8) : cstr (s ++ 0 :: after) = s := by
  induction s with
  | nil => simp [cstr]
  | cons c s ih =>
    have hc : c ≠ 0 := fun h => hs (h ▸ List.mem_cons_self)
    have hrest := ih fun h => hs (List.mem_cons_of_mem _ h)
    rw [cstr] at hrest
    rw [cstr, List.cons_append, List.takeWhile_cons_of_pos (by simpa using hc), hrest]

theorem cstr_zero (n : ℕ) : cstr (Buffer.zero n).bytes = [] := by
  cases n with
  | zero => rfl
  | succ n => simp [cstr, Buffer.zero, List.replicate_succ]

/-- **A string printed into a block** is read back from it. -/
theorem sprintf_eq_some {n : ℕ} (b : Buffer n) {s : List U8} (hs : 0 ∉ s) (hfit : s.length < n) :
    ∃ b', sprintf b s = some b' ∧ cstr b'.bytes = s := by
  have hlen : (s ++ [0]).length ≤ n := by
    rw [List.length_append]
    exact hfit
  obtain ⟨b', hstore, hbytes⟩ := b.store_start hlen
  refine ⟨b', hstore, ?_⟩
  rw [hbytes, List.append_assoc]
  exact cstr_append hs _

/-! ## Numbers -/

/-- `isspace`. -/
def isSpace (c : U8) : Bool :=
  c = 32 ∨ 9 ≤ c ∧ c ≤ 13

/-- `isdigit`. -/
def isDigit (c : U8) : Bool :=
  48 ≤ c ∧ c ≤ 57

/-- The digits a string starts with, after those that stand for `value`. -/
def digits : ℕ → List U8 → ℕ
  | value, [] => value
  | value, c :: s => if isDigit c then digits (10 * value + (c.toNat - 48)) s else value

/-- `atoi` on a string with a value that fits. -/
def atoi (s : List U8) : ℤ :=
  match s.dropWhile isSpace with
  | [] => 0
  | c :: s => if c = 45 then -digits 0 s else if c = 43 then digits 0 s else digits 0 (c :: s)

theorem isSpace_of_isDigit : ∀ c, isDigit c = true → isSpace c = false := by decide

theorem digit_le {c : U8} (h : isDigit c = true) : c.toNat - 48 ≤ 9 := by
  have hle : c ≤ 57 := (of_decide_eq_true h).2
  rw [BitVec.le_def] at hle
  have hnine : (57 : U8).toNat = 57 := rfl
  omega

/-- Each byte adds a digit at most. -/
theorem digits_lt (value : ℕ) (s : List U8) : digits value s < (value + 1) * 10 ^ s.length := by
  induction s generalizing value with
  | nil => simp [digits]
  | cons c s ih =>
    rw [digits, List.length_cons, pow_succ']
    split
    · rename_i hdigit
      have hle := digit_le hdigit
      calc digits (10 * value + (c.toNat - 48)) s
          < (10 * value + (c.toNat - 48) + 1) * 10 ^ s.length := ih _
        _ ≤ (value + 1) * 10 * 10 ^ s.length := by gcongr; omega
        _ = (value + 1) * (10 * 10 ^ s.length) := by ring
    · have hpos : 1 ≤ 10 * 10 ^ s.length := Nat.succ_le_of_lt (by positivity)
      calc value < value + 1 := Nat.lt_succ_self _
        _ ≤ (value + 1) * (10 * 10 ^ s.length) := Nat.le_mul_of_pos_right _ hpos

/-- **A string of `n` bytes** has a value below `10 ^ n`, and a sign takes one of them. -/
theorem atoi_lt {s : List U8} {n : ℕ} (hlen : s.length ≤ n + 1) : -(10 ^ n : ℤ) < atoi s ∧ atoi s < 10 ^ (n + 1) := by
  have hpos : (0 : ℤ) < 10 ^ n := by positivity
  have hmore : (10 : ℤ) ^ n < 10 ^ (n + 1) := pow_lt_pow_right₀ (by decide) n.lt_succ_self
  have hdrop : (s.dropWhile isSpace).length ≤ n + 1 := (s.dropWhile_sublist isSpace).length_le.trans hlen
  unfold atoi
  cases hs : s.dropWhile isSpace with
  | nil => exact ⟨neg_neg_of_pos hpos, by positivity⟩
  | cons c s =>
    rw [hs, List.length_cons] at hdrop
    have hrest : (digits 0 s : ℤ) < 10 ^ n := by
      have hlt := digits_lt 0 s
      have hle : 10 ^ s.length ≤ 10 ^ n := Nat.pow_le_pow_right (by decide) (by omega)
      exact_mod_cast (by omega : digits 0 s < 10 ^ n)
    have hall : (digits 0 (c :: s) : ℤ) < 10 ^ (n + 1) := by
      have hlt := digits_lt 0 (c :: s)
      have hle : 10 ^ (c :: s).length ≤ 10 ^ (n + 1) := Nat.pow_le_pow_right (by decide) hdrop
      exact_mod_cast (by omega : digits 0 (c :: s) < 10 ^ (n + 1))
    dsimp only
    split
    · omega
    · split <;> omega

/-! ## Numbers in decimal -/

/-- A number in decimal. -/
def decimal (n : ℕ) : List U8 :=
  bytes (toString n)

theorem decimal_eq (n : ℕ) : decimal n = (Nat.toDigits 10 n).map fun c => BitVec.ofNat 8 c.toNat := by
  rw [decimal, bytes, Nat.toString_eq_ofList_toDigits, String.toList_ofList]

theorem length_decimal_le_iff (n : ℕ) {k : ℕ} (hk : 0 < k) : (decimal n).length ≤ k ↔ n < 10 ^ k := by
  rw [decimal_eq, List.length_map]
  exact Nat.length_toDigits_le_iff (by decide) hk

theorem isDigit_of_isDigit {c : Char} (h : c.isDigit = true) :
    isDigit (BitVec.ofNat 8 c.toNat) = true ∧ (BitVec.ofNat 8 c.toNat).toNat = c.toNat := by
  have hbounds : 48 ≤ c.toNat ∧ c.toNat ≤ 57 := by
    simpa [Char.isDigit, UInt32.le_iff_toNat_le] using h
  have htoNat : (BitVec.ofNat 8 c.toNat).toNat = c.toNat := by
    rw [BitVec.toNat_ofNat]
    omega
  refine ⟨decide_eq_true ⟨?_, ?_⟩, htoNat⟩
  · rw [BitVec.le_def, htoNat]
    exact hbounds.1
  · rw [BitVec.le_def, htoNat]
    exact hbounds.2

theorem digits_ofDigitChars {l : List Char} (hl : ∀ c ∈ l, c.isDigit = true) (value : ℕ) :
    digits value (l.map fun c => BitVec.ofNat 8 c.toNat) = Nat.ofDigitChars 10 l value := by
  induction l generalizing value with
  | nil => rfl
  | cons c l ih =>
    obtain ⟨hdigit, htoNat⟩ := isDigit_of_isDigit (hl c List.mem_cons_self)
    rw [List.map_cons, digits, if_pos hdigit, htoNat, ih fun c hc => hl c (List.mem_cons_of_mem _ hc),
      Nat.ofDigitChars_cons]
    rfl

/-- **A number in decimal** is read back. -/
theorem atoi_decimal (n : ℕ) : atoi (decimal n) = n := by
  have hdigits : ∀ c ∈ Nat.toDigits 10 n, c.isDigit = true := fun c hc =>
    Nat.isDigit_of_mem_toDigits (by decide) (by decide) hc
  have hvalue : digits 0 (decimal n) = n := by
    rw [decimal_eq, digits_ofDigitChars hdigits, Nat.ofDigitChars_ten_toDigits]
  cases hl : Nat.toDigits 10 n with
  | nil => exact absurd hl Nat.toDigits_ne_nil
  | cons c l =>
    obtain ⟨hdigit, htoNat⟩ := isDigit_of_isDigit (hdigits c (hl ▸ List.mem_cons_self))
    have hsplit : decimal n = BitVec.ofNat 8 c.toNat :: l.map fun c => BitVec.ofNat 8 c.toNat := by
      rw [decimal_eq, hl, List.map_cons]
    generalize BitVec.ofNat 8 c.toNat = d at hdigit hsplit
    have hspace : isSpace d = false := isSpace_of_isDigit d hdigit
    have hminus : d ≠ 45 := by
      rintro rfl
      cases hdigit
    have hplus : d ≠ 43 := by
      rintro rfl
      cases hdigit
    rw [hsplit] at hvalue
    rw [hsplit, atoi, List.dropWhile_cons_of_neg (by simp [hspace])]
    dsimp only
    rw [if_neg hminus, if_neg hplus, hvalue]

end Text
