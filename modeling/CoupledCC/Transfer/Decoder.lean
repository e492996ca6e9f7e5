import CoupledCC.Transfer.Message

/-!
# What `ifri_receive` copies

The copies of `ifri_receive` out of a received buffer, as ranges (`receiveCopies`). Two lengths are read from the wire
as signed longs: they are added to pointers as they are, and passed to `memcpy` as unsigned sizes. Nothing is checked in
between.

- `receiveCopies_within_iff`: the ranges lie within their objects exactly for announced lengths within the two arrays;
- `decoder_safe_iff`: so for these a buffer is received safely, and for no others; none is rejected.
-/

namespace CoupledCC.Transfer

open Bytes

/-- A `memcpy` of `ifri_receive`: `len` bytes from the offset `src` of the buffer to an object of `room` bytes. -/
structure Memcpy where
  src : ℤ
  len : ℕ
  room : ℕ
deriving Repr, DecidableEq

/-- The bytes read lie inside the buffer, and those written inside the object. -/
def Memcpy.Within (c : Memcpy) : Prop :=
  0 ≤ c.src ∧ c.src + c.len ≤ sizeofMessage ∧ c.len ≤ c.room

instance (c : Memcpy) : Decidable c.Within := by
  unfold Memcpy.Within
  infer_instance

/-- The `count` a buffer announces. -/
def wireCount (buff : Buffer sizeofMessage) : U64 :=
  longAt buff (SL + SL + SL)

/-- The `name_len` a buffer announces. -/
def wireNameLen (buff : Buffer sizeofMessage) : U64 :=
  longAt buff (SL + SL + SL + SL + SL + SL)

/-- The copies of `ifri_receive`, in their order. -/
def receiveCopies (buff : Buffer sizeofMessage) : List Memcpy :=
  let header : ℕ := SL + SL + SL + SL + SL + SL + SL
  [⟨0, SL, SL⟩, ⟨SL, SL, SL⟩, ⟨(SL + SL : ℕ), SL, SL⟩, ⟨(SL + SL + SL : ℕ), SL, SL⟩, ⟨(SL + SL + SL + SL : ℕ), SL, SL⟩,
    ⟨(SL + SL + SL + SL + SL : ℕ), SL, SL⟩, ⟨(SL + SL + SL + SL + SL + SL : ℕ), SL, SL⟩,
    ⟨header, (wireNameLen buff).toNat, maxPath⟩,
    ⟨header + (wireNameLen buff).toInt, (wireCount buff).toNat, bufSize⟩,
    ⟨header + (wireNameLen buff).toInt + (wireCount buff).toInt, sizeofInt, sizeofInt⟩]

/-- The lengths a buffer announces lie within the two arrays. -/
structure LengthsFit (buff : Buffer sizeofMessage) : Prop where
  nameLen : 0 ≤ (wireNameLen buff).toInt ∧ (wireNameLen buff).toInt ≤ maxPath
  count : 0 ≤ (wireCount buff).toInt ∧ (wireCount buff).toInt ≤ bufSize

/-- A received buffer is decoded by copies within their objects, or it is rejected with an error. -/
def ReceivedSafely (buff wire : Buffer sizeofMessage) (m : Message) : Prop :=
  ∃ m' ret, ifriReceive buff (.got wire.bytes) m = some (m', ret) ∧
    (ret = resultOk → ∀ c ∈ receiveCopies wire, c.Within)

theorem lengthsFit_iff (buff : Buffer sizeofMessage) :
    LengthsFit buff ↔ (wireNameLen buff).toNat ≤ maxPath ∧ (wireCount buff).toNat ≤ bufSize := by
  have hname := toInt_between_iff (x := wireNameLen buff) (k := maxPath) (by decide)
  have hcount := toInt_between_iff (x := wireCount buff) (k := bufSize) (by decide)
  constructor
  · intro h
    exact ⟨hname.mp h.nameLen, hcount.mp h.count⟩
  · rintro ⟨h₁, h₂⟩
    exact ⟨hname.mpr h₁, hcount.mpr h₂⟩

/-- **The ranges.** The two arrays fit into the buffer together, so it is enough that each length fits its array. -/
theorem receiveCopies_within_iff (buff : Buffer sizeofMessage) :
    (∀ c ∈ receiveCopies buff, c.Within) ↔ LengthsFit buff := by
  have hsizes : maxPath = 255 ∧ bufSize = 1024 ∧ SL = 8 ∧ sizeofInt = 4 ∧ sizeofMessage = 1344 :=
    ⟨rfl, rfl, rfl, rfl, rfl⟩
  constructor
  · intro h
    rw [lengthsFit_iff]
    have hname : (⟨(SL + SL + SL + SL + SL + SL + SL : ℕ), (wireNameLen buff).toNat, maxPath⟩ : Memcpy).Within :=
      h _ (by simp [receiveCopies])
    have hcount : (⟨(SL + SL + SL + SL + SL + SL + SL : ℕ) + (wireNameLen buff).toInt, (wireCount buff).toNat,
        bufSize⟩ : Memcpy).Within := h _ (by simp [receiveCopies])
    exact ⟨hname.2.2, hcount.2.2⟩
  · intro h
    have hname := h.nameLen
    have hcount := h.count
    obtain ⟨hnameLen, hcountLen⟩ := (lengthsFit_iff buff).mp h
    -- the signed readings are the unsigned ones
    have hnat : (wireNameLen buff).toInt = (wireNameLen buff).toNat := BitVec.toInt_eq_toNat_of_lt (by omega)
    have hnat' : (wireCount buff).toInt = (wireCount buff).toNat := BitVec.toInt_eq_toNat_of_lt (by omega)
    simp only [receiveCopies, List.forall_mem_cons, List.not_mem_nil, false_implies, implies_true, and_true,
      Memcpy.Within]
    omega

/-- The lengths of a decoded message are those the buffer announces. -/
theorem decode_lengths {buff : Buffer sizeofMessage} {m : Message} (h : decode buff = some m) :
    m.nameLen = wireNameLen buff ∧ m.count = wireCount buff := by
  obtain ⟨name, -, h⟩ := Option.bind_eq_some_iff.mp h
  obtain ⟨data, -, h⟩ := Option.bind_eq_some_iff.mp h
  obtain ⟨flag, -, rfl⟩ := Option.map_eq_some_iff.mp h
  exact ⟨rfl, rfl⟩

/-- **Decoding.** A buffer is decoded without a fault exactly when the lengths it announces fit. -/
theorem decode_total_iff (buff : Buffer sizeofMessage) : (∃ m, decode buff = some m) ↔ LengthsFit buff := by
  constructor
  · rintro ⟨m, hm⟩
    obtain ⟨hwell, -⟩ := decode_spec hm
    obtain ⟨hname, hcount⟩ := decode_lengths hm
    exact ⟨hname ▸ hwell.nameLen, hcount ▸ hwell.count⟩
  · intro h
    obtain ⟨hname, hcount⟩ := (lengthsFit_iff buff).mp h
    have hsizes : maxPath = 255 ∧ bufSize = 1024 ∧ SL = 8 ∧ sizeofInt = 4 ∧ sizeofMessage = 1344 :=
      ⟨rfl, rfl, rfl, rfl, rfl⟩
    have hstore (n off len : ℕ) (hfit : off + len ≤ sizeofMessage) (hle : len ≤ n) :
        ∃ b, (Buffer.zero n).store 0 (sub buff.bytes off len) = some b := by
      have hlen : (sub buff.bytes off len).length ≤ n := by
        rw [length_sub (by rw [buff.size]; exact hfit)]
        exact hle
      obtain ⟨b, hb, -⟩ := (Buffer.zero n).store_start hlen
      exact ⟨b, hb⟩
    obtain ⟨name, hname'⟩ := hstore maxPath (SL + SL + SL + SL + SL + SL + SL) (wireNameLen buff).toNat (by omega) hname
    obtain ⟨data, hdata⟩ := hstore bufSize (SL + SL + SL + SL + SL + SL + SL + (wireNameLen buff).toNat)
      (wireCount buff).toNat (by omega) hcount
    simp only [wireNameLen, wireCount] at hname' hdata hname hcount
    unfold decode
    simp only [Message.zero]
    rw [Buffer.load_of_le _ (by omega), Option.bind_some, hname', Option.bind_some,
      Buffer.load_of_le _ (by omega), Option.bind_some, hdata, Option.bind_some, Buffer.load_of_le _ (by omega)]
    exact ⟨_, rfl⟩

/-- **Which buffers are received safely.** Those that announce lengths within the two arrays; every other buffer is
neither rejected nor copied within the objects. -/
theorem decoder_safe_iff (buff wire : Buffer sizeofMessage) (m : Message) :
    ReceivedSafely buff wire m ↔ LengthsFit wire := by
  unfold ReceivedSafely
  rw [ifriReceive_whole]
  constructor
  · rintro ⟨m', ret, hrun, -⟩
    obtain ⟨m₁, hm₁, -⟩ := Option.map_eq_some_iff.mp hrun
    exact (decode_total_iff wire).mp ⟨m₁, hm₁⟩
  · intro h
    obtain ⟨m', hm'⟩ := (decode_total_iff wire).mpr h
    exact ⟨m', resultOk, by rw [hm']; rfl, fun _ => (receiveCopies_within_iff wire).mpr h⟩

/-- A buffer of zeros but for its `name_len`. -/
def nameLenBuffer (x : U64) : Buffer sizeofMessage :=
  ⟨List.replicate (SL + SL + SL + SL + SL + SL) 0 ++ longBytes x ++ List.replicate (sizeofMessage - 7 * SL) 0, by
    rw [List.length_append, List.length_append, List.length_replicate, List.length_replicate, length_longBytes]
    rfl⟩

theorem wireNameLen_nameLenBuffer (x : U64) : wireNameLen (nameLenBuffer x) = x := by
  have hpiece : sub (nameLenBuffer x).bytes (SL + SL + SL + SL + SL + SL) SL = longBytes x :=
    sub_piece rfl List.length_replicate (length_longBytes x)
  rw [wireNameLen, longAt, hpiece]
  exact ofNat_ofLE_toLE (by decide) x

/-- A `name_len` of 300 is not rejected: the copy of the name needs 300 bytes in an array of 255. -/
theorem long_name_overruns :
    ¬ ReceivedSafely (.zero _) (nameLenBuffer 300) .zero ∧ ¬ LengthsFit (nameLenBuffer 300) ∧
      ⟨56, 300, 255⟩ ∈ receiveCopies (nameLenBuffer 300) := by
  have hlen : wireNameLen (nameLenBuffer 300) = 300 := wireNameLen_nameLenBuffer 300
  have hunfit : ¬ LengthsFit (nameLenBuffer 300) := by
    rw [lengthsFit_iff, hlen]
    decide
  refine ⟨?_, hunfit, ?_⟩
  · rintro ⟨m, ret, hrun, -⟩
    rw [ifriReceive_whole] at hrun
    obtain ⟨m₁, hm₁, -⟩ := Option.map_eq_some_iff.mp hrun
    exact hunfit ((decode_total_iff _).mp ⟨m₁, hm₁⟩)
  · have hname : (⟨56, (wireNameLen (nameLenBuffer 300)).toNat, 255⟩ : Memcpy) ∈ receiveCopies (nameLenBuffer 300) := by
      simp [receiveCopies, SL, maxPath]
    rw [hlen] at hname
    exact hname

end CoupledCC.Transfer
