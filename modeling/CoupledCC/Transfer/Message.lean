import CoupledCC.Lib.Bytes

/-!
# Messages of the file transfer

`struct message` of `message.h`, and its encoding and decoding by `ifri_send` and `ifri_receive`. A copy that leaves its
buffer is a fault (`none`). Both functions work in a buffer from `malloc`, whose content is a parameter.

- `ifriSend_wire`: a well-formed message is encoded without a fault (`Wire`);
- `ifriSend_fault`: any other message faults;
- `ifriReceive_wire`: a whole encoded message is decoded to the message without the bytes past `name_len` and `count`;
- `ifriReceive_ifriSend`: field by field, for every content of the buffers.
-/

namespace CoupledCC.Transfer

open Bytes

def maxPath : ℕ := 255
def bufSize : ℕ := 1024
def opRead : U64 := 2
def opWrite : U64 := 3
def resultOk : ℤ := 0
def eBadOpcode : ℤ := -1
def eIo : ℤ := -3

/-- `sizeof(long)`. -/
def SL : ℕ := 8

/-- `sizeof(int)`. -/
def sizeofInt : ℕ := 4

/-- `sizeof(struct message)`: seven longs, the two arrays, one byte of padding, the int, and four bytes of padding. -/
def sizeofMessage : ℕ := 7 * SL + maxPath + bufSize + 1 + sizeofInt + 4

structure Message where
  source : U64
  dest : U64
  opcode : U64
  count : U64
  offset : U64
  result : U64
  nameLen : U64
  name : Buffer maxPath
  data : Buffer bufSize
  sendFileContent : U32
deriving Repr, DecidableEq

/-- A message after `memset(m, 0, sizeof(*m))`. -/
def Message.zero : Message :=
  ⟨0, 0, 0, 0, 0, 0, 0, .zero _, .zero _, 0⟩

def longBytes (x : U64) : List U8 :=
  toLE SL x.toNat

def intBytes (x : U32) : List U8 :=
  toLE sizeofInt x.toNat

def longAt (buff : Buffer sizeofMessage) (off : ℕ) : U64 :=
  BitVec.ofNat 64 (ofLE (sub buff.bytes off SL))

/-- `ifri_send` up to its call of `send`: what it passes to `send`, in a buffer that held `buff`. -/
def ifriSend (m : Message) (buff : Buffer sizeofMessage) : Option (Buffer sizeofMessage) :=
  (m.name.load 0 m.nameLen.toNat).bind fun name =>
    (m.data.load 0 m.count.toNat).bind fun data =>
      buff.storeAll [
        (0, longBytes m.source),
        (SL, longBytes m.dest),
        (SL + SL, longBytes m.opcode),
        (SL + SL + SL, longBytes m.count),
        (SL + SL + SL + SL, longBytes m.offset),
        (SL + SL + SL + SL + SL, longBytes m.result),
        (SL + SL + SL + SL + SL + SL, longBytes m.nameLen),
        (SL + SL + SL + SL + SL + SL + SL, name),
        (SL + SL + SL + SL + SL + SL + SL + m.nameLen.toNat, data),
        (SL + SL + SL + SL + SL + SL + SL + m.nameLen.toNat + m.count.toNat, intBytes m.sendFileContent)]

/-- The copies of `ifri_receive` out of the buffer, into a message of zeros. -/
def decode (buff : Buffer sizeofMessage) : Option Message :=
  let count := longAt buff (SL + SL + SL)
  let nameLen := longAt buff (SL + SL + SL + SL + SL + SL)
  let header := SL + SL + SL + SL + SL + SL + SL
  ((buff.load header nameLen.toNat).bind (Message.zero.name.store 0)).bind fun name =>
    ((buff.load (header + nameLen.toNat) count.toNat).bind (Message.zero.data.store 0)).bind fun data =>
      (buff.load (header + nameLen.toNat + count.toNat) sizeofInt).map fun sendFileContent =>
        { source := longAt buff 0
          dest := longAt buff SL
          opcode := longAt buff (SL + SL)
          count := count
          offset := longAt buff (SL + SL + SL + SL)
          result := longAt buff (SL + SL + SL + SL + SL)
          nameLen := nameLen
          name := name
          data := data
          sendFileContent := BitVec.ofNat 32 (ofLE sendFileContent) }

/-- What `recv` does: it fails, or it delivers bytes; none at the end of the stream. -/
inductive Recv
  | error
  | got (bytes : List U8)
deriving Repr, DecidableEq

/-- `ifri_receive` on the message `m`, with a buffer that held `buff`. -/
def ifriReceive (buff : Buffer sizeofMessage) (recv : Recv) (m : Message) : Option (Message × ℤ) :=
  match recv with
  | .error => some (m, eIo)
  | .got bytes => (buff.store 0 bytes).bind fun buff => (decode buff).map fun m => (m, resultOk)

/-! ## Well-formed messages -/

/-- The lengths a message announces lie within its arrays. -/
structure Message.WellFormed (m : Message) : Prop where
  nameLen : 0 ≤ m.nameLen.toInt ∧ m.nameLen.toInt ≤ maxPath
  count : 0 ≤ m.count.toInt ∧ m.count.toInt ≤ bufSize

/-- A long between 0 and a small bound, as an unsigned number. -/
theorem toInt_between_iff {x : U64} {k : ℕ} (hk : k < 2 ^ 63) : 0 ≤ x.toInt ∧ x.toInt ≤ k ↔ x.toNat ≤ k := by
  rw [BitVec.toInt_eq_toNat_cond]
  split <;> omega

theorem wellFormed_iff (m : Message) : m.WellFormed ↔ m.nameLen.toNat ≤ maxPath ∧ m.count.toNat ≤ bufSize := by
  have hname := toInt_between_iff (x := m.nameLen) (k := maxPath) (by decide)
  have hcount := toInt_between_iff (x := m.count) (k := bufSize) (by decide)
  constructor
  · intro h
    exact ⟨hname.mp h.nameLen, hcount.mp h.count⟩
  · intro h
    exact ⟨hname.mpr h.1, hcount.mpr h.2⟩

instance (m : Message) : Decidable m.WellFormed :=
  decidable_of_iff _ (wellFormed_iff m).symm

/-- The message without the bytes past `name_len` and `count`. -/
def Message.trim (m : Message) : Message :=
  { m with name := m.name.trim m.nameLen.toNat, data := m.data.trim m.count.toNat }

theorem Message.trim_trim (m : Message) : m.trim.trim = m.trim := by
  simp only [Message.trim, Buffer.trim_trim]

/-! ## Encoding -/

/-- What the encoding of a message consists of. -/
def Message.pieces (m : Message) : List (List U8) :=
  [longBytes m.source, longBytes m.dest, longBytes m.opcode, longBytes m.count, longBytes m.offset, longBytes m.result,
    longBytes m.nameLen, sub m.name.bytes 0 m.nameLen.toNat, sub m.data.bytes 0 m.count.toNat,
    intBytes m.sendFileContent]

/-- A buffer that begins with the encoding of a message. -/
def Wire (m : Message) (buff : Buffer sizeofMessage) : Prop :=
  ∃ tail, buff.bytes = m.pieces.flatten ++ tail

@[simp] theorem length_longBytes (x : U64) : (longBytes x).length = SL := length_toLE _ _
@[simp] theorem length_intBytes (x : U32) : (intBytes x).length = sizeofInt := length_toLE _ _

theorem Message.WellFormed.length_name {m : Message} (h : m.WellFormed) :
    (sub m.name.bytes 0 m.nameLen.toNat).length = m.nameLen.toNat :=
  length_sub (by rw [m.name.size]; exact (Nat.zero_add _).trans_le ((wellFormed_iff m).mp h).1)

theorem Message.WellFormed.length_data {m : Message} (h : m.WellFormed) :
    (sub m.data.bytes 0 m.count.toNat).length = m.count.toNat :=
  length_sub (by rw [m.data.size]; exact (Nat.zero_add _).trans_le ((wellFormed_iff m).mp h).2)

/-- The encoding of a well-formed message fits in the buffer. -/
theorem Message.WellFormed.length_pieces {m : Message} (h : m.WellFormed) :
    m.pieces.flatten.length = 7 * SL + m.nameLen.toNat + m.count.toNat + sizeofInt := by
  have hname := h.length_name
  have hdata := h.length_data
  simp only [Message.pieces, List.flatten_cons, List.flatten_nil, List.length_append, List.length_nil,
    length_longBytes, length_intBytes, hname, hdata]
  omega

/-- **A well-formed message is encoded without a fault.** -/
theorem ifriSend_wire {m : Message} (h : m.WellFormed) (buff : Buffer sizeofMessage) :
    ∃ wire, ifriSend m buff = some wire ∧ Wire m wire := by
  obtain ⟨hname, hcount⟩ := (wellFormed_iff m).mp h
  have hlen := h.length_pieces
  have hsize := buff.size
  have hsizes : maxPath = 255 ∧ bufSize = 1024 ∧ SL = 8 ∧ sizeofInt = 4 ∧ sizeofMessage = 1344 :=
    ⟨rfl, rfl, rfl, rfl, rfl⟩
  have hstart : buff.bytes = [] ++ buff.bytes := rfl
  obtain ⟨wire, hstore, hbytes⟩ := Buffer.storeAll_place m.pieces hstart rfl (by omega)
  refine ⟨wire, ?_, _, hbytes⟩
  rw [ifriSend, Buffer.load_of_le _ (by omega), Option.bind_some, Buffer.load_of_le _ (by omega), Option.bind_some]
  rw [← hstore]
  simp only [Message.pieces, place, length_longBytes, h.length_name, h.length_data, List.length_nil,
    Nat.zero_add]

/-- **Any other message faults.** -/
theorem ifriSend_fault {m : Message} (h : ¬ m.WellFormed) (buff : Buffer sizeofMessage) : ifriSend m buff = none := by
  rw [wellFormed_iff] at h
  unfold ifriSend Buffer.load
  simp only [Nat.zero_add]
  by_cases hname : m.nameLen.toNat ≤ maxPath
  · rw [if_pos hname, Option.bind_some, if_neg (fun hcount => h ⟨hname, hcount⟩)]
    rfl
  · rw [if_neg hname]
    rfl

/-! ## Decoding -/

/-- A piece is found after the pieces before it. -/
theorem Wire.sub {m : Message} {buff : Buffer sizeofMessage} (hw : Wire m buff) (before : List (List U8))
    {piece : List U8} {after : List (List U8)} {off len : ℕ} (h : m.pieces = before ++ piece :: after)
    (hoff : before.flatten.length = off) (hlen : piece.length = len) : sub buff.bytes off len = piece := by
  obtain ⟨tail, hb⟩ := hw
  have hsplit : buff.bytes = before.flatten ++ piece ++ (after.flatten ++ tail) := by
    rw [hb, h]
    simp [List.append_assoc]
  exact sub_piece hsplit hoff hlen

/-- A long is read back where its piece stands. -/
theorem Wire.longAt {m : Message} {buff : Buffer sizeofMessage} (hw : Wire m buff) (before : List (List U8)) {x : U64}
    {after : List (List U8)} {off : ℕ} (h : m.pieces = before ++ longBytes x :: after)
    (hoff : before.flatten.length = off) : longAt buff off = x := by
  rw [Transfer.longAt, hw.sub before h hoff (length_longBytes x)]
  exact ofNat_ofLE_toLE (by decide) x

/-- **Decoding undoes encoding**, but for the bytes that are not sent. -/
theorem decode_wire {m : Message} (h : m.WellFormed) {buff : Buffer sizeofMessage} (hw : Wire m buff) :
    decode buff = some m.trim := by
  obtain ⟨hname, hcount⟩ := (wellFormed_iff m).mp h
  have hsizes : maxPath = 255 ∧ bufSize = 1024 ∧ SL = 8 ∧ sizeofInt = 4 ∧ sizeofMessage = 1344 :=
    ⟨rfl, rfl, rfl, rfl, rfl⟩
  have source : longAt buff 0 = m.source := hw.longAt [] rfl rfl
  have dest : longAt buff SL = m.dest := hw.longAt (m.pieces.take 1) rfl rfl
  have opcode : longAt buff (SL + SL) = m.opcode := hw.longAt (m.pieces.take 2) rfl rfl
  have count : longAt buff (SL + SL + SL) = m.count := hw.longAt (m.pieces.take 3) rfl rfl
  have offset : longAt buff (SL + SL + SL + SL) = m.offset := hw.longAt (m.pieces.take 4) rfl rfl
  have result : longAt buff (SL + SL + SL + SL + SL) = m.result := hw.longAt (m.pieces.take 5) rfl rfl
  have nameLen : longAt buff (SL + SL + SL + SL + SL + SL) = m.nameLen := hw.longAt (m.pieces.take 6) rfl rfl
  have name : sub buff.bytes (SL + SL + SL + SL + SL + SL + SL) m.nameLen.toNat = _ :=
    hw.sub (m.pieces.take 7) rfl rfl h.length_name
  have hdata : (m.pieces.take 8).flatten.length = SL + SL + SL + SL + SL + SL + SL + m.nameLen.toNat := by
    simp [Message.pieces, h.length_name, Nat.add_assoc]
  have data : sub buff.bytes (SL + SL + SL + SL + SL + SL + SL + m.nameLen.toNat) m.count.toNat = _ :=
    hw.sub (m.pieces.take 8) rfl hdata h.length_data
  have hflag : (m.pieces.take 9).flatten.length =
      SL + SL + SL + SL + SL + SL + SL + m.nameLen.toNat + m.count.toNat := by
    simp [Message.pieces, h.length_name, h.length_data, Nat.add_assoc]
  have flag : sub buff.bytes (SL + SL + SL + SL + SL + SL + SL + m.nameLen.toNat + m.count.toNat) sizeofInt = _ :=
    hw.sub (m.pieces.take 9) rfl hflag (length_intBytes m.sendFileContent)
  have hname' := Buffer.store_zero m.name hname
  have hdata' := Buffer.store_zero m.data hcount
  have hflag' : BitVec.ofNat 32 (ofLE (intBytes m.sendFileContent)) = m.sendFileContent :=
    ofNat_ofLE_toLE (by decide) _
  unfold decode
  simp only [source, dest, opcode, count, offset, result, nameLen]
  rw [Buffer.load_of_le _ (by omega), name, Option.bind_some, Message.zero, hname', Option.bind_some,
    Buffer.load_of_le _ (by omega), data, Option.bind_some, hdata', Option.bind_some,
    Buffer.load_of_le _ (by omega), flag, Option.map_some, hflag']
  rfl

/-- A buffer received whole is decoded as it is. -/
theorem ifriReceive_whole (buff wire : Buffer sizeofMessage) (m : Message) :
    ifriReceive buff (.got wire.bytes) m = (decode wire).map fun m => (m, resultOk) := by
  obtain ⟨buff', hstore, hbytes⟩ := buff.store_start (le_of_eq wire.size)
  have hsame : buff' = wire := by
    ext1
    rw [hbytes, List.drop_of_length_le (by rw [buff.size, wire.size]), List.append_nil]
  simp only [ifriReceive]
  rw [hstore, Option.bind_some, hsame]

/-- `ifri_receive` of a whole encoded message. -/
theorem ifriReceive_wire {m : Message} (h : m.WellFormed) {wire : Buffer sizeofMessage} (hw : Wire m wire)
    (buff : Buffer sizeofMessage) (m₀ : Message) : ifriReceive buff (.got wire.bytes) m₀ = some (m.trim, resultOk) := by
  rw [ifriReceive_whole, decode_wire h hw]
  rfl

/-- A decoded message is well formed and has nothing past its lengths. -/
theorem decode_spec {buff : Buffer sizeofMessage} {m : Message} (h : decode buff = some m) :
    m.WellFormed ∧ m.trim = m := by
  unfold decode at h
  obtain ⟨name, hname, h⟩ := Option.bind_eq_some_iff.mp h
  obtain ⟨data, hdata, h⟩ := Option.bind_eq_some_iff.mp h
  obtain ⟨flag, -, rfl⟩ := Option.map_eq_some_iff.mp h
  obtain ⟨nameBytes, hloadName, hstoreName⟩ := Option.bind_eq_some_iff.mp hname
  obtain ⟨dataBytes, hloadData, hstoreData⟩ := Option.bind_eq_some_iff.mp hdata
  have hnameLen := Buffer.le_of_store hstoreName
  have hcount := Buffer.le_of_store hstoreData
  have htrimName := Buffer.trim_of_store_zero hstoreName
  have htrimData := Buffer.trim_of_store_zero hstoreData
  rw [Buffer.length_of_load hloadName] at htrimName hnameLen
  rw [Buffer.length_of_load hloadData] at htrimData hcount
  refine ⟨(wellFormed_iff _).mpr ⟨by simpa using hnameLen, by simpa using hcount⟩, ?_⟩
  simp only [Message.trim, htrimName, htrimData]

/-! ## The round trip -/

/-- A message that was received for `m`: the same fields, and arrays that agree up to the lengths and are zero after
them. -/
structure ReceivedFor (m m' : Message) : Prop where
  source : m'.source = m.source
  dest : m'.dest = m.dest
  opcode : m'.opcode = m.opcode
  count : m'.count = m.count
  offset : m'.offset = m.offset
  result : m'.result = m.result
  nameLen : m'.nameLen = m.nameLen
  sendFileContent : m'.sendFileContent = m.sendFileContent
  name : ∀ i, m'.name.bytes[i]? =
    if i < m.nameLen.toNat then m.name.bytes[i]? else if i < maxPath then some 0 else none
  data : ∀ i, m'.data.bytes[i]? =
    if i < m.count.toNat then m.data.bytes[i]? else if i < bufSize then some 0 else none

theorem Message.WellFormed.receivedFor_trim {m : Message} (h : m.WellFormed) : ReceivedFor m m.trim := by
  obtain ⟨hname, hcount⟩ := (wellFormed_iff m).mp h
  refine ⟨rfl, rfl, rfl, rfl, rfl, rfl, rfl, rfl, ?_, ?_⟩
  · intro i
    exact m.name.getElem?_trim hname i
  · intro i
    exact m.data.getElem?_trim hcount i

/-- **Decoding undoes encoding.** A well-formed message is encoded inside the send buffer, and a receiver that gets the
whole buffer returns `OK` with the message, whatever the two buffers and the receiver's message held before. -/
theorem ifriReceive_ifriSend {m : Message} (h : 0 ≤ m.nameLen.toInt ∧ m.nameLen.toInt ≤ 255)
    (h' : 0 ≤ m.count.toInt ∧ m.count.toInt ≤ 1024) (buff buff' : Buffer sizeofMessage) (m₀ : Message) :
    ∃ wire m', ifriSend m buff = some wire ∧ ifriReceive buff' (.got wire.bytes) m₀ = some (m', resultOk) ∧
      ReceivedFor m m' := by
  have hm : m.WellFormed := ⟨h, h'⟩
  obtain ⟨wire, hsend, hw⟩ := ifriSend_wire hm buff
  exact ⟨wire, m.trim, hsend, ifriReceive_wire hm hw buff' m₀, hm.receivedFor_trim⟩

/-- A message with a name of one byte and two bytes of data, through buffers of ones. -/
theorem ifriReceive_ifriSend_two :
    let m : Message := { Message.zero with opcode := opWrite, nameLen := 1, count := 2 }
    let ones : Buffer sizeofMessage := ⟨List.replicate sizeofMessage 1, List.length_replicate⟩
    ∃ wire m', ifriSend m ones = some wire ∧ ifriReceive ones (.got wire.bytes) m = some (m', resultOk) ∧
      ReceivedFor m m' := by
  intro m ones
  exact ifriReceive_ifriSend (m := m) ⟨by decide, by decide⟩ ⟨by decide, by decide⟩ ones ones m

end CoupledCC.Transfer
