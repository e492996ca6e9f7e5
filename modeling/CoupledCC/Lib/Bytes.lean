import CoupledCC.Lib.Word

/-!
# Byte buffers

A `Buffer n` is a block of `n` bytes. Copying into it or out of it (`store`, `load`) is a fault when the bytes do not
lie inside the block. Words are kept with the low byte first (`toLE`, `ofLE`).

- `ofLE_toLE`: reading back a word;
- `storeAll_place`: pieces stored one after another stand one after another;
- `sub_piece`: and each is found where it was stored.
-/

namespace Bytes

/-! ## Words as bytes -/

/-- The `n` low bytes of a number, the lowest first. -/
def toLE : ℕ → ℕ → List U8
  | 0, _ => []
  | n + 1, x => BitVec.ofNat 8 x :: toLE n (x / 256)

/-- The number some bytes stand for, the lowest first. -/
def ofLE : List U8 → ℕ
  | [] => 0
  | b :: bs => b.toNat + 256 * ofLE bs

@[simp] theorem length_toLE (n x : ℕ) : (toLE n x).length = n := by
  induction n generalizing x with
  | zero => rfl
  | succ n ih => simp [toLE, ih]

/-- Reading back a number. -/
theorem ofLE_toLE (n x : ℕ) : ofLE (toLE n x) = x % 256 ^ n := by
  induction n generalizing x with
  | zero => simp [toLE, ofLE, Nat.mod_one]
  | succ n ih =>
    have hlow : (BitVec.ofNat 8 x).toNat = x % 256 := by rw [BitVec.toNat_ofNat]
    rw [toLE, ofLE, ih, hlow, pow_succ, Nat.mul_comm (256 ^ n), Nat.mod_mul]

/-- Reading back a word of `8 * n` bits. -/
theorem ofNat_ofLE_toLE {w n : ℕ} (hw : 256 ^ n = 2 ^ w) (x : BitVec w) :
    BitVec.ofNat w (ofLE (toLE n x.toNat)) = x := by
  rw [ofLE_toLE, hw, Nat.mod_eq_of_lt x.isLt, BitVec.ofNat_toNat, BitVec.setWidth_eq]

/-! ## Parts of a list -/

/-- The `len` bytes from `off` on. -/
def sub (l : List U8) (off len : ℕ) : List U8 :=
  (l.drop off).take len

theorem length_sub {l : List U8} {off len : ℕ} (h : off + len ≤ l.length) : (sub l off len).length = len := by
  simp [sub]; omega

/-- A piece is found after the pieces before it. -/
theorem sub_piece {l before piece after : List U8} {off len : ℕ} (hl : l = before ++ piece ++ after)
    (hoff : before.length = off) (hlen : piece.length = len) : sub l off len = piece := by
  subst hl hoff hlen
  simp [sub]

/-! ## Buffers -/

/-- A block of `n` bytes. -/
@[ext] structure Buffer (n : ℕ) where
  bytes : List U8
  size : bytes.length = n
deriving Repr, DecidableEq

namespace Buffer

variable {n : ℕ}

/-- A block of zeros. -/
def zero (n : ℕ) : Buffer n :=
  ⟨List.replicate n 0, List.length_replicate⟩

/-- Bytes copied into the block at `off`. -/
def store (b : Buffer n) (off : ℕ) (src : List U8) : Option (Buffer n) :=
  if h : off + src.length ≤ n then
    some ⟨b.bytes.take off ++ src ++ b.bytes.drop (off + src.length), by simp [b.size]; omega⟩
  else none

/-- `len` bytes copied out of the block at `off`. -/
def load (b : Buffer n) (off len : ℕ) : Option (List U8) :=
  if off + len ≤ n then some (sub b.bytes off len) else none

/-- The block with zeros from `k` on. -/
def trim (b : Buffer n) (k : ℕ) : Buffer n :=
  ⟨b.bytes.take k ++ List.replicate (n - k) 0, by simp [b.size]; omega⟩

theorem load_of_le (b : Buffer n) {off len : ℕ} (h : off + len ≤ n) : b.load off len = some (sub b.bytes off len) :=
  if_pos h

/-- A copy after a prefix of the block. -/
theorem store_prefix {b : Buffer n} {before after : List U8} {off : ℕ} (src : List U8) (hb : b.bytes = before ++ after)
    (hoff : before.length = off) (hsrc : src.length ≤ after.length) :
    ∃ b', b.store off src = some b' ∧ b'.bytes = before ++ src ++ after.drop src.length := by
  have hsize := b.size
  rw [hb, List.length_append] at hsize
  subst hoff
  have hfit : before.length + src.length ≤ n := by omega
  refine ⟨_, dif_pos hfit, ?_⟩
  simp [hb, List.drop_append]

/-- A copy to the start of the block. -/
theorem store_start (b : Buffer n) {src : List U8} (h : src.length ≤ n) :
    ∃ b', b.store 0 src = some b' ∧ b'.bytes = src ++ b.bytes.drop src.length := by
  have hstart : b.bytes = [] ++ b.bytes := rfl
  exact store_prefix src hstart rfl (by rw [b.size]; exact h)

theorem store_nil (b : Buffer n) : b.store 0 [] = some b := by
  have hnil : ([] : List U8).length ≤ n := Nat.zero_le n
  obtain ⟨b', hstore, hbytes⟩ := b.store_start hnil
  rw [hstore, Option.some.injEq]
  ext1
  simpa using hbytes

theorem le_of_store {b b' : Buffer n} {off : ℕ} {src : List U8} (h : b.store off src = some b') :
    off + src.length ≤ n := by
  by_contra hfit
  rw [store, dif_neg hfit] at h
  cases h

/-- The first `k` bytes of a block, in a block of zeros. -/
theorem store_zero (b : Buffer n) {k : ℕ} (hk : k ≤ n) : (zero n).store 0 (sub b.bytes 0 k) = some (b.trim k) := by
  have hlen : (sub b.bytes 0 k).length = k := length_sub (by rw [b.size]; omega)
  have hfit : 0 + (sub b.bytes 0 k).length ≤ n := by omega
  rw [store, dif_pos hfit, Option.some.injEq]
  ext1
  simp [zero, trim, sub, b.size, Nat.min_eq_left hk]

theorem length_of_load {b : Buffer n} {off len : ℕ} {bytes : List U8} (h : b.load off len = some bytes) :
    bytes.length = len := by
  unfold load at h
  split at h
  · rename_i hfit
    cases h
    exact length_sub (by rw [b.size]; exact hfit)
  · cases h

/-- A block of zeros that some bytes were copied to the start of has nothing after them. -/
theorem trim_of_store_zero {b : Buffer n} {src : List U8} (h : (zero n).store 0 src = some b) :
    b.trim src.length = b := by
  unfold store at h
  split at h
  · rename_i hfit
    cases h
    ext1
    simp [trim, zero]
  · cases h

theorem take_trim (b : Buffer n) (k : ℕ) : (b.trim k).bytes.take k = b.bytes.take k := by
  have hsize := b.size
  by_cases hk : k ≤ n
  · have hlen : (b.bytes.take k).length = k := by rw [List.length_take]; omega
    rw [trim, List.take_left' hlen]
  · have hnone : n - k = 0 := by omega
    simp [trim, hnone]

/-- The bytes of a trimmed block, one by one. -/
theorem getElem?_trim (b : Buffer n) {k : ℕ} (hk : k ≤ n) (i : ℕ) :
    (b.trim k).bytes[i]? = if i < k then b.bytes[i]? else if i < n then some 0 else none := by
  have hlen : (b.bytes.take k).length = k := by
    rw [List.length_take, b.size]
    omega
  rw [trim, List.getElem?_append, hlen]
  split
  · rename_i hi
    rw [List.getElem?_take_of_lt hi]
  · rename_i hi
    have hin : i - k < n - k ↔ i < n := by omega
    simp only [List.getElem?_replicate, hin]

theorem trim_trim (b : Buffer n) (k : ℕ) : (b.trim k).trim k = b.trim k := by
  ext1
  show (b.trim k).bytes.take k ++ List.replicate (n - k) 0 = (b.trim k).bytes
  rw [take_trim]
  rfl

theorem trim_zero (b : Buffer n) : b.trim 0 = zero n := by
  ext1
  simp [trim, zero]

/-- A trimmed block keeps its first bytes. -/
theorem sub_trim (b : Buffer n) {k len : ℕ} (h : len ≤ k) : sub (b.trim k).bytes 0 len = sub b.bytes 0 len := by
  have htake := congrArg (List.take len) (b.take_trim k)
  rw [List.take_take, List.take_take, Nat.min_eq_left h] at htake
  simpa [sub] using htake

/-- Bytes copied to places of the block, one copy after another. -/
def storeAll (b : Buffer n) (l : List (ℕ × List U8)) : Option (Buffer n) :=
  l.foldlM (fun b place => b.store place.1 place.2) b

end Buffer

/-- Pieces with the places they get one after another from `off` on. -/
def place : ℕ → List (List U8) → List (ℕ × List U8)
  | _, [] => []
  | off, piece :: pieces => (off, piece) :: place (off + piece.length) pieces

/-- **Consecutive copies.** Pieces stored one after another stand one after another. -/
theorem Buffer.storeAll_place {n : ℕ} (pieces : List (List U8)) {b : Buffer n} {before after : List U8} {off : ℕ}
    (hb : b.bytes = before ++ after) (hoff : before.length = off) (hfit : pieces.flatten.length ≤ after.length) :
    ∃ b', b.storeAll (place off pieces) = some b' ∧
      b'.bytes = before ++ pieces.flatten ++ after.drop pieces.flatten.length := by
  induction pieces generalizing b before after off with
  | nil => exact ⟨b, rfl, by simpa using hb⟩
  | cons piece pieces ih =>
    rw [List.flatten_cons, List.length_append] at hfit
    obtain ⟨b₁, hstore, hbytes⟩ := store_prefix piece hb hoff (by omega)
    have hrest : pieces.flatten.length ≤ (after.drop piece.length).length := by
      rw [List.length_drop]; omega
    have hnext : (before ++ piece).length = off + piece.length := by rw [List.length_append, hoff]
    obtain ⟨b', hall, hbytes'⟩ := ih hbytes hnext hrest
    refine ⟨b', ?_, ?_⟩
    · simp only [storeAll, place, List.foldlM_cons, hstore]
      exact hall
    · rw [hbytes']
      simp [List.append_assoc, List.drop_drop]

end Bytes
