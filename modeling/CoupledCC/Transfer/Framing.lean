import CoupledCC.Transfer.Message

/-!
# Messages over a byte stream

Messages are sent with `ifri_send` (`sendAll`) over a connection that keeps the order of the bytes; each `ifri_receive`
gets one piece of the stream (`receiveAll`). `ifri_receive` decodes whatever a single `recv` delivers, so it returns one
message for each piece.

- `receiveAll_whole`: pieces of whole messages give the messages that were sent;
- `framing_iff`: no other way to cut the stream does.
-/

namespace CoupledCC.Transfer

open Bytes

/-- A well-formed message to be sent, with the former content of the buffer it is encoded in. -/
structure Outgoing where
  message : Message
  buff : Buffer sizeofMessage
  wellFormed : message.WellFormed

/-- What one `recv` delivers of the stream, with the former content of the buffer it is delivered to. -/
structure Cut where
  len : ℕ
  buff : Buffer sizeofMessage
  pos : 1 ≤ len
  le : len ≤ sizeofMessage

/-- The bytes of messages sent one after another. -/
def sendAll : List Outgoing → Option (List U8)
  | [] => some []
  | o :: os => (ifriSend o.message o.buff).bind fun wire => (sendAll os).map fun bytes => wire.bytes ++ bytes

/-- The messages successive calls of `ifri_receive` return with `OK`. -/
def receiveAll : List Cut → List U8 → Option (List Message)
  | [], _ => some []
  | c :: cs, pending =>
    (ifriReceive c.buff (.got (pending.take c.len)) .zero).bind fun (m, ret) =>
      (receiveAll cs (pending.drop c.len)).map fun ms => if ret = resultOk then m :: ms else ms

/-- The bytes the pieces take of the stream. -/
def taken (cs : List Cut) : ℕ :=
  (cs.map Cut.len).sum

/-! ## One piece, one message -/

/-- `ifri_receive` of some bytes returns `OK` or faults. -/
theorem ifriReceive_got {buff : Buffer sizeofMessage} {bytes : List U8} {m m' : Message} {ret : ℤ}
    (h : ifriReceive buff (.got bytes) m = some (m', ret)) : ret = resultOk := by
  obtain ⟨buff', -, h⟩ := Option.bind_eq_some_iff.mp h
  obtain ⟨m₁, -, h⟩ := Option.map_eq_some_iff.mp h
  cases h
  rfl

/-- Every piece gives one message. -/
theorem receiveAll_length {cs : List Cut} {pending : List U8} {ms : List Message}
    (h : receiveAll cs pending = some ms) : ms.length = cs.length := by
  induction cs generalizing pending ms with
  | nil =>
    cases h
    rfl
  | cons c cs ih =>
    obtain ⟨⟨m, ret⟩, hreceive, h⟩ := Option.bind_eq_some_iff.mp h
    obtain ⟨ms', hrest, rfl⟩ := Option.map_eq_some_iff.mp h
    rw [if_pos (ifriReceive_got hreceive), List.length_cons, List.length_cons, ih hrest]

/-! ## Whole messages -/

/-- A stream of whole messages, received whole. -/
theorem receiveAll_whole (os : List Outgoing) :
    ∃ stream, sendAll os = some stream ∧ stream.length = sizeofMessage * os.length ∧
      ∀ cs : List Cut, (∀ c ∈ cs, c.len = sizeofMessage) → cs.length = os.length →
        receiveAll cs stream = some (os.map fun o => o.message.trim) := by
  induction os with
  | nil =>
    refine ⟨[], rfl, rfl, fun cs _ hlen => ?_⟩
    rw [List.length_eq_zero_iff.mp hlen]
    rfl
  | cons o os ih =>
    obtain ⟨stream, hsend, hlength, hreceive⟩ := ih
    obtain ⟨wire, hwire, hw⟩ := ifriSend_wire o.wellFormed o.buff
    refine ⟨wire.bytes ++ stream, ?_, ?_, fun cs hcs hlen => ?_⟩
    · rw [sendAll, hwire, Option.bind_some, hsend]
      rfl
    · rw [List.length_append, wire.size, hlength, List.length_cons]
      ring
    · obtain ⟨c, cs, rfl⟩ := List.exists_cons_of_length_pos (l := cs) (by simp [hlen])
      have hfirst : c.len = wire.bytes.length := by rw [hcs c List.mem_cons_self, wire.size]
      have hrest := hreceive cs (fun c hc => hcs c (List.mem_cons_of_mem _ hc)) (by simpa using hlen)
      rw [receiveAll, hfirst, List.take_left, List.drop_left, ifriReceive_wire o.wellFormed hw, Option.bind_some, hrest]
      rfl

/-- Numbers of at most `k` whose sum is `k` times their number are all `k`. -/
theorem eq_of_sum_eq {k : ℕ} {l : List ℕ} (hle : ∀ n ∈ l, n ≤ k) (hsum : l.sum = k * l.length) : ∀ n ∈ l, n = k := by
  induction l with
  | nil => simp
  | cons a l ih =>
    have ha := hle a List.mem_cons_self
    have hrest := List.sum_le_card_nsmul l k fun n hn => hle n (List.mem_cons_of_mem _ hn)
    rw [smul_eq_mul, Nat.mul_comm] at hrest
    rw [List.sum_cons, List.length_cons, Nat.mul_add_one] at hsum
    intro n hn
    rcases List.mem_cons.mp hn with rfl | hn
    · omega
    · exact ih (fun n hn => hle n (List.mem_cons_of_mem _ hn)) (by omega) n hn

/-- As many pieces as messages, for the whole stream, are whole messages. -/
theorem whole_of_length {cs : List Cut} {n : ℕ} (htaken : taken cs = sizeofMessage * n) (hlen : cs.length = n) :
    ∀ c ∈ cs, c.len = sizeofMessage := by
  have hle : ∀ len ∈ cs.map Cut.len, len ≤ sizeofMessage := by
    intro len hlen
    obtain ⟨c, -, rfl⟩ := List.mem_map.mp hlen
    exact c.le
  have hall := eq_of_sum_eq hle (by rw [List.length_map, hlen]; exact htaken)
  exact fun c hc => hall c.len (List.mem_map_of_mem hc)

/-- The messages received have nothing past their lengths. -/
theorem receiveAll_trim {cs : List Cut} {pending : List U8} {ms : List Message}
    (h : receiveAll cs pending = some ms) : ∀ m ∈ ms, m.trim = m := by
  induction cs generalizing pending ms with
  | nil =>
    cases h
    simp
  | cons c cs ih =>
    obtain ⟨⟨m, ret⟩, hreceive, h⟩ := Option.bind_eq_some_iff.mp h
    obtain ⟨ms', hrest, rfl⟩ := Option.map_eq_some_iff.mp h
    obtain ⟨buff, -, hdecode⟩ := Option.bind_eq_some_iff.mp hreceive
    obtain ⟨m₁, hm₁, heq⟩ := Option.map_eq_some_iff.mp hdecode
    cases heq
    rw [if_pos (ifriReceive_got hreceive)]
    intro m' hm'
    rcases List.mem_cons.mp hm' with rfl | hm'
    · exact (decode_spec hm₁).2
    · exact ih hrest m' hm'

/-- **Which ways to cut the stream keep the messages.** Well-formed messages are sent without a fault. Received in
pieces that make up the whole stream they are the messages sent, as far as these were sent, if and only if every piece
is a whole message; and the very messages if moreover nothing stood past their lengths. -/
theorem framing_iff (os : List Outgoing) (cs : List Cut) (hcs : taken cs = sizeofMessage * os.length) :
    ∃ stream, sendAll os = some stream ∧ taken cs = stream.length ∧
      (receiveAll cs stream = some (os.map fun o => o.message.trim) ↔ ∀ c ∈ cs, c.len = sizeofMessage) ∧
      (receiveAll cs stream = some (os.map Outgoing.message) ↔
        (∀ c ∈ cs, c.len = sizeofMessage) ∧ ∀ o ∈ os, o.message.trim = o.message) := by
  obtain ⟨stream, hsend, hlength, hreceive⟩ := receiveAll_whole os
  have hcount : (∀ c ∈ cs, c.len = sizeofMessage) → cs.length = os.length := by
    intro hwhole
    have hsum : taken cs = cs.length * sizeofMessage :=
      List.sum_eq_card_nsmul (cs.map Cut.len) sizeofMessage (by simpa using hwhole) |>.trans (by simp)
    have hpos : 0 < sizeofMessage := by decide
    exact Nat.eq_of_mul_eq_mul_left hpos (by rw [Nat.mul_comm, ← hsum, hcs])
  have hwhole : ∀ f : Outgoing → Message, receiveAll cs stream = some (os.map f) → ∀ c ∈ cs, c.len = sizeofMessage := by
    intro f h
    exact whole_of_length hcs (by rw [← receiveAll_length h, List.length_map])
  refine ⟨stream, hsend, hcs.trans hlength.symm, ⟨hwhole _, fun h => hreceive cs h (hcount h)⟩, ⟨?_, ?_⟩⟩
  · intro h
    refine ⟨hwhole _ h, fun o ho => ?_⟩
    exact receiveAll_trim h o.message (List.mem_map_of_mem ho)
  · rintro ⟨h, htrim⟩
    rw [hreceive cs h (hcount h), Option.some.injEq]
    exact List.map_congr_left htrim

/-- A request to read the file `a`, and then an empty message, each received whole. -/
theorem framing_iff_whole :
    let name : Buffer maxPath := ⟨97 :: List.replicate 254 0, congrArg (· + 1) List.length_replicate⟩
    let request : Message := { Message.zero with opcode := opRead, count := 1024, nameLen := 1, name := name }
    let piece : Cut := ⟨1344, .zero _, by decide, by decide⟩
    ∃ stream, sendAll [⟨request, .zero _, by decide⟩, ⟨.zero, .zero _, by decide⟩] = some stream ∧
      2688 = stream.length ∧
      receiveAll [piece, piece] stream = some [request.trim, Message.zero.trim] := by
  intro name request piece
  obtain ⟨stream, hsend, hlength, hiff, -⟩ := framing_iff
    [⟨request, .zero _, by decide⟩, ⟨.zero, .zero _, by decide⟩] [piece, piece] rfl
  refine ⟨stream, hsend, hlength, hiff.mpr fun c hc => ?_⟩
  obtain rfl : c = piece := by simpa using hc
  rfl

/-- The request alone, received as 1000 bytes and 344 bytes: two messages are returned, so not the one that was sent. -/
theorem framing_short :
    let name : Buffer maxPath := ⟨97 :: List.replicate 254 0, congrArg (· + 1) List.length_replicate⟩
    let request : Message := { Message.zero with opcode := opRead, count := 1024, nameLen := 1, name := name }
    let pieces : List Cut := [⟨1000, .zero _, by decide, by decide⟩, ⟨344, .zero _, by decide, by decide⟩]
    ∃ stream, sendAll [⟨request, .zero _, by decide⟩] = some stream ∧ taken pieces = stream.length ∧
      receiveAll pieces stream ≠ some [request.trim] ∧ receiveAll pieces stream ≠ some [request] := by
  intro name request pieces
  obtain ⟨stream, hsend, hlength, -⟩ := receiveAll_whole [⟨request, .zero _, by decide⟩]
  have hshort (m : Message) : receiveAll pieces stream ≠ some [m] := by
    intro h
    have hlen := receiveAll_length h
    simp [pieces] at hlen
  exact ⟨stream, hsend, hlength.symm, hshort _, hshort _⟩

end CoupledCC.Transfer
