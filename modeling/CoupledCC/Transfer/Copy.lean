import CoupledCC.Transfer.Server

/-!
# The slow transfer

`copy` of `client.c` against one child of the server: in every turn of its loop the client sends a READ and then a WRITE
request and waits for both replies. Messages arrive whole and in order (`deliver`). The state records every message
either side passes to `ifri_send`.

- `exchange_spec`: a well-formed request is answered; any other one ends the run;
- `copy_wellFormed_iff`: every message of a run is well formed exactly when every `do_read` of the run succeeds.
-/

namespace CoupledCC.Transfer

open Word Bytes Files

/-- A message that is sent with `ifri_send` and received whole with `ifri_receive`. -/
def deliver (m : Message) : Option Message :=
  if m.WellFormed then some m.trim else none

/-- `deliver` is encoding followed by decoding, whatever the buffers held. -/
theorem deliver_eq (m m₀ : Message) (buff buff' : Buffer sizeofMessage) :
    ((ifriSend m buff).bind fun wire => (ifriReceive buff' (.got wire.bytes) m₀).map Prod.fst) = deliver m := by
  unfold deliver
  by_cases hm : m.WellFormed
  · obtain ⟨wire, hsend, hw⟩ := ifriSend_wire hm buff
    rw [if_pos hm, hsend, Option.bind_some, ifriReceive_wire hm hw]
    rfl
  · rw [if_neg hm, ifriSend_fault hm]
    rfl

/-- The READ request of a turn: `strncpy` of a name that does not fit is a fault. -/
def readRequest (src : Name) (position : U64) : Option Message :=
  (Message.zero.name.store 0 src).map fun name =>
    { Message.zero with
      opcode := opRead
      offset := position
      count := BitVec.ofNat 64 bufSize
      nameLen := BitVec.ofNat 64 src.length
      name := name }

/-- The WRITE request of a turn, made in place of the reply to the READ request. -/
def writeRequest (dst : Name) (position : U64) (m1 : Message) : Option Message :=
  (m1.name.store 0 dst).map fun name =>
    { m1 with
      opcode := opWrite
      offset := position
      count := m1.result
      nameLen := BitVec.ofNat 64 dst.length
      name := name }

/-- A request and its reply: the messages passed to `ifri_send`, and the child and the reply that was received unless
the run ended in a fault. -/
structure Exchange where
  passed : List Message
  outcome : Option (Child × Message)

def exchange (o : Outcome) (c : Child) (m : Message) : Exchange :=
  match deliver m with
  | none => ⟨[m], none⟩
  | some m1 =>
    match serve o { c with m1 := m1 } with
    | none => ⟨[m], none⟩
    | some c' => ⟨[m, c'.m2], (deliver c'.m2).map fun reply => (c', reply)⟩

/-- How a run of `copy` stands. -/
inductive Status
  | running
  | returned (r : ℤ)
  | crashed
deriving Repr, DecidableEq

structure Copy where
  child : Child
  position : U64
  status : Status
  passed : List Message

/-- What the system calls of a turn do. -/
structure Turn where
  read : Outcome
  write : Outcome

/-- The second half of a turn: the WRITE request, and the test of the loop. -/
def copyWrite (dst : Name) (o : Outcome) (s : Copy) (m1 : Message) : Copy :=
  match writeRequest dst s.position m1 with
  | none => { s with status := .crashed }
  | some m =>
    match exchange o s.child m with
    | ⟨passed, none⟩ => { s with status := .crashed, passed := s.passed ++ passed }
    | ⟨passed, some (child, m1)⟩ =>
      { child := child
        position := s.position + m1.result
        status :=
          if 0 < m1.result.toInt then .running
          else .returned (if 0 ≤ m1.result.toInt then resultOk else m1.result.toInt)
        passed := s.passed ++ passed }

/-- One turn of the loop of `copy`. -/
def copyTurn (src dst : Name) (t : Turn) (s : Copy) : Copy :=
  match s.status with
  | .running =>
    match readRequest src s.position with
    | none => { s with status := .crashed }
    | some m =>
      match exchange t.read s.child m with
      | ⟨passed, none⟩ => { s with status := .crashed, passed := s.passed ++ passed }
      | ⟨passed, some (child, m1)⟩ =>
        copyWrite dst t.write { s with child := child, passed := s.passed ++ passed } m1
  | _ => s

/-- The first `n` turns of a run against a fresh child. -/
def copyRun (src dst : Name) (turns : ℕ → Turn) (fs : FileSys) : ℕ → Copy
  | 0 => ⟨.fresh fs, 0, .running, []⟩
  | n + 1 => copyTurn src dst (turns n) (copyRun src dst turns fs n)

/-! ## Names -/

/-- A name as the client gets it: a C string of at most 254 bytes. -/
structure GoodName (s : Name) : Prop where
  len : s.length < maxPath
  nonzero : ∀ b ∈ s, b ≠ 0

theorem GoodName.single {b : U8} (h : b ≠ 0) : GoodName [b] :=
  ⟨by rw [List.length_singleton]; decide, by simpa using h⟩

theorem GoodName.toNat_length {s : Name} (h : GoodName s) : (BitVec.ofNat 64 s.length).toNat = s.length := by
  have hlen := h.len
  have hsize : maxPath = 255 := rfl
  rw [BitVec.toNat_ofNat, Nat.mod_eq_of_lt (by omega)]

/-- A good name at the start of a block of zeros. -/
theorem GoodName.store {s : Name} (h : GoodName s) :
    ∃ name, (Buffer.zero maxPath).store 0 s = some name ∧ name.bytes = s ++ List.replicate (maxPath - s.length) 0 := by
  obtain ⟨name, hstore, hbytes⟩ := (Buffer.zero maxPath).store_start (le_of_lt h.len)
  exact ⟨name, hstore, by rw [hbytes, Buffer.zero, List.drop_replicate]⟩

/-- The file a delivered message with a good name names. -/
theorem GoodName.path {s : Name} (h : GoodName s) {m : Message} (hlen : m.nameLen = BitVec.ofNat 64 s.length)
    (hname : (Buffer.zero maxPath).store 0 s = some m.name) : m.trim.path = s := by
  have htrim : m.name.trim m.nameLen.toNat = m.name := by
    rw [hlen, h.toNat_length]
    exact Buffer.trim_of_store_zero hname
  obtain ⟨name, hstore, hbytes⟩ := h.store
  rw [hname, Option.some.injEq] at hstore
  subst hstore
  obtain ⟨k, hk⟩ : ∃ k, maxPath - s.length = k + 1 := ⟨maxPath - s.length - 1, by have := h.len; omega⟩
  rw [Message.path, Message.trim, htrim, hbytes, hk, List.replicate_succ, List.append_assoc, List.cons_append,
    List.takeWhile_append_of_pos (by simpa using h.nonzero), List.takeWhile_cons_of_neg (by simp), List.append_nil]

/-! ## Requests -/

/-- A request to read a buffer full at `position`. -/
structure IsRead (m : Message) (src : Name) (position : U64) : Prop where
  wellFormed : m.WellFormed
  opcode : m.opcode = opRead
  offset : m.offset = position
  count : m.count = BitVec.ofNat 64 bufSize
  content : m.sendFileContent = 0
  path : m.trim.path = src

theorem readRequest_spec {src : Name} (h : GoodName src) (position : U64) :
    ∃ m, readRequest src position = some m ∧ IsRead m src position := by
  obtain ⟨name, hstore, -⟩ := h.store
  have hlen : (BitVec.ofNat 64 src.length).toNat ≤ maxPath := by
    rw [h.toNat_length]
    exact le_of_lt h.len
  have hcount : (BitVec.ofNat 64 bufSize).toNat ≤ bufSize := by decide
  refine ⟨{ Message.zero with
    opcode := opRead, offset := position, count := BitVec.ofNat 64 bufSize, nameLen := BitVec.ofNat 64 src.length,
    name := name }, ?_, (wellFormed_iff _).mpr ⟨hlen, hcount⟩, rfl, rfl, rfl, rfl, h.path rfl hstore⟩
  rw [readRequest, Message.zero, hstore]
  rfl

/-- A request to write what a reply says was read. -/
structure IsWrite (m : Message) (dst : Name) (position : U64) (reply : Message) : Prop where
  wellFormed : m.WellFormed ↔ reply.result.toNat ≤ bufSize
  opcode : m.opcode = opWrite
  offset : m.offset = position
  count : m.count = reply.result
  data : m.data = reply.trim.data
  path : m.trim.path = dst

theorem writeRequest_spec {dst : Name} (h : GoodName dst) (position : U64) {reply : Message} (hreply : ReplyOk reply) :
    ∃ m, writeRequest dst position reply.trim = some m ∧ IsWrite m dst position reply := by
  obtain ⟨name, hstore, -⟩ := h.store
  have hname : reply.trim.name = .zero maxPath := by
    rw [Message.trim, hreply.nameLen]
    exact Buffer.trim_zero _
  have hlen : (BitVec.ofNat 64 dst.length).toNat ≤ maxPath := by
    rw [h.toNat_length]
    exact le_of_lt h.len
  refine ⟨{ reply.trim with
    opcode := opWrite, offset := position, count := reply.result, nameLen := BitVec.ofNat 64 dst.length,
    name := name }, ?_, ?_, rfl, rfl, rfl, rfl, h.path rfl hstore⟩
  · rw [writeRequest, hname, hstore]
    rfl
  · rw [wellFormed_iff]
    constructor
    · intro hm
      exact hm.2
    · intro hm
      exact ⟨hlen, hm⟩

/-! ## Exchanges -/

/-- **A well-formed request is answered.** -/
theorem exchange_spec (o : Outcome) {c : Child} {m : Message} (hm : m.WellFormed) (hc : ReplyOk c.m2) :
    ∃ c', serve o { c with m1 := m.trim } = some c' ∧ ReplyOk c'.m2 ∧
      exchange o c m = ⟨[m, c'.m2], some (c', c'.m2.trim)⟩ := by
  have hm1 : ({ c with m1 := m.trim } : Child).m1.WellFormed := ⟨hm.nameLen, hm.count⟩
  have hm2 : ReplyOk ({ c with m1 := m.trim } : Child).m2 := hc
  obtain ⟨c', hserve, -, hok⟩ := serve_total o hm1 hm2
  refine ⟨c', hserve, hok, ?_⟩
  rw [exchange, deliver, if_pos hm]
  simp only [hserve]
  rw [deliver, if_pos hok.wellFormed]
  rfl

/-- Any other request ends the run. -/
theorem exchange_fault (o : Outcome) (c : Child) {m : Message} (hm : ¬ m.WellFormed) :
    exchange o c m = ⟨[m], none⟩ := by
  rw [exchange, deliver, if_neg hm]

/-! ## The result of a read -/

/-- The source is open or can be opened, and the read does not fail. -/
def ReadSucceeds (o : Outcome) (s : Server) (src : Name) : Prop :=
  (s.rfd ≠ none ∨ o.opens = true ∧ s.fs src ≠ none) ∧ o.io ≠ .fail

/-- Reading finds no descriptor when none is open and none can be opened. -/
theorem descriptor_read (o : Outcome) (s : Server) (name : Name) :
    descriptor s.rfd o.opens readFlags name s.fs = none ↔ ¬ (s.rfd ≠ none ∨ o.opens = true ∧ s.fs name ≠ none) := by
  unfold descriptor
  cases s.rfd with
  | some fd => simp
  | none => simp [openFile_existing readFlags_creat]

/-- A read gives bytes exactly when it succeeds. -/
theorem readBytes_ne_none_iff (o : Outcome) (s : Server) (m : Message) :
    readBytes o s m ≠ none ↔ ReadSucceeds o s m.path := by
  have hopen := descriptor_read o s m.path
  unfold ReadSucceeds readBytes
  cases hfd : descriptor s.rfd o.opens readFlags m.path s.fs with
  | none =>
    constructor
    · intro h
      exact absurd rfl h
    · intro h
      exact absurd h.1 (hopen.mp hfd)
  | some opened =>
    have hopened : s.rfd ≠ none ∨ o.opens = true ∧ s.fs m.path ≠ none := by
      by_contra hnot
      exact Option.some_ne_none _ (hfd.symm.trans (hopen.mpr hnot))
    cases o.io with
    | fail =>
      constructor
      · intro h
        exact absurd rfl h
      · intro h
        exact absurd rfl h.2
    | cut k =>
      constructor
      · intro _
        exact ⟨hopened, Io.noConfusion⟩
      · intro _
        exact Option.some_ne_none _

/-! ## Turns -/

/-- The first half of a turn: the READ request is served and answered. -/
theorem copyTurn_read {src : Name} (dst : Name) (t : Turn) {s : Copy} (hsrc : GoodName src)
    (hrun : s.status = .running) (hok : ReplyOk s.child.m2) :
    ∃ m c, IsRead m src s.position ∧ serve t.read { s.child with m1 := m.trim } = some c ∧ ReplyOk c.m2 ∧
      copyTurn src dst t s =
        copyWrite dst t.write { s with child := c, passed := s.passed ++ [m, c.m2] } c.m2.trim := by
  obtain ⟨m, hrequest, hm⟩ := readRequest_spec hsrc s.position
  obtain ⟨c, hserve, hc, hexchange⟩ := exchange_spec t.read hm.wellFormed hok
  refine ⟨m, c, hm, hserve, hc, ?_⟩
  rw [copyTurn, hrun]
  simp only [hrequest, hexchange]

/-- The result of a READ request is a count that fits in a buffer exactly when the read succeeds. -/
theorem read_fits_iff {o : Outcome} {c c' : Child} {m : Message} {src : Name} {position : U64}
    (hm : IsRead m src position) (hserve : serve o { c with m1 := m.trim } = some c') :
    c'.m2.result.toNat ≤ bufSize ↔ ReadSucceeds o c.server src := by
  have hop : ({ c with m1 := m.trim } : Child).m1.opcode = opRead := hm.opcode
  obtain ⟨s', m2', r, hread, rfl⟩ := serve_read hop hserve
  have hcount : m.trim.count.toNat ≤ bufSize := ((wellFormed_iff m).mp hm.wellFormed).2
  have hcontent : m.trim.sendFileContent = 0 := hm.content
  obtain ⟨rfd, data, hspec, -⟩ := doRead_spec o c.server c.m2 hcontent hcount
  have heq := hread.symm.trans hspec
  cases heq
  have hbounds := readResult_bounds o c.server hcount
  have hsize : bufSize = 1024 := rfl
  rw [← hm.path, ← readBytes_ne_none_iff]
  show (BitVec.ofInt 64 (readResult (readBytes o c.server m.trim))).toNat ≤ bufSize ↔ _
  cases hbytes : readBytes o c.server m.trim with
  | none =>
    constructor
    · intro h
      exact absurd h (by decide)
    · intro h
      exact absurd rfl h
  | some bytes =>
    rw [hbytes, readResult] at hbounds
    rw [readResult, toNat_ofInt_natCast (by omega)]
    constructor
    · intro _
      exact Option.some_ne_none _
    · intro _
      omega

/-- The second half of a turn after a count that fits: the WRITE request is served and answered. -/
theorem copyWrite_spec {dst : Name} (o : Outcome) {s : Copy} {reply : Message} (hdst : GoodName dst)
    (hreply : ReplyOk reply) (hok : ReplyOk s.child.m2) (hfits : reply.result.toNat ≤ bufSize) :
    ∃ m c, IsWrite m dst s.position reply ∧ m.WellFormed ∧ serve o { s.child with m1 := m.trim } = some c ∧
      ReplyOk c.m2 ∧
      copyWrite dst o s reply.trim =
        { child := c
          position := s.position + c.m2.result
          status :=
            if 0 < c.m2.result.toInt then .running
            else .returned (if 0 ≤ c.m2.result.toInt then resultOk else c.m2.result.toInt)
          passed := s.passed ++ [m, c.m2] } := by
  obtain ⟨m, hrequest, hm⟩ := writeRequest_spec hdst s.position hreply
  have hwf := hm.wellFormed.mpr hfits
  obtain ⟨c, hserve, hc, hexchange⟩ := exchange_spec o hwf hok
  refine ⟨m, c, hm, hwf, hserve, hc, ?_⟩
  rw [copyWrite, hrequest]
  simp only [hexchange]
  rfl

/-- After any other result the WRITE request is not well formed. -/
theorem copyWrite_fault {dst : Name} (o : Outcome) {s : Copy} {reply : Message} (hdst : GoodName dst)
    (hreply : ReplyOk reply) (hfits : ¬ reply.result.toNat ≤ bufSize) :
    ∃ m, ¬ m.WellFormed ∧
      copyWrite dst o s reply.trim = { s with status := .crashed, passed := s.passed ++ [m] } := by
  obtain ⟨m, hrequest, hm⟩ := writeRequest_spec hdst s.position hreply
  have hwf : ¬ m.WellFormed := fun h => hfits (hm.wellFormed.mp h)
  refine ⟨m, hwf, ?_⟩
  rw [copyWrite, hrequest]
  simp only [exchange_fault o s.child hwf]

/-- **A turn** whose `do_read` succeeds passes well-formed messages; any other turn passes one that is not. -/
theorem copyTurn_wellFormed {src dst : Name} (t : Turn) {s : Copy} (hsrc : GoodName src) (hdst : GoodName dst)
    (hrun : s.status = .running) (hok : ReplyOk s.child.m2) :
    ReplyOk (copyTurn src dst t s).child.m2 ∧
      (ReadSucceeds t.read s.child.server src → (∀ m ∈ s.passed, m.WellFormed) →
        ∀ m ∈ (copyTurn src dst t s).passed, m.WellFormed) ∧
      (¬ ReadSucceeds t.read s.child.server src → ∃ m ∈ (copyTurn src dst t s).passed, ¬ m.WellFormed) := by
  obtain ⟨m, c, hm, hserve, hc, hturn⟩ := copyTurn_read dst t hsrc hrun hok
  rw [hturn, ← read_fits_iff hm hserve]
  by_cases hfits : c.m2.result.toNat ≤ bufSize
  · obtain ⟨m', c', -, hm', -, hc', hwrite⟩ := copyWrite_spec t.write
      (s := { s with child := c, passed := s.passed ++ [m, c.m2] }) hdst hc hc hfits
    rw [hwrite]
    refine ⟨hc', fun _ hpassed => ?_, fun h => absurd hfits h⟩
    simp only [List.mem_append, List.mem_cons, List.not_mem_nil, or_false]
    rintro x ((hx | rfl | rfl) | rfl | rfl)
    · exact hpassed x hx
    · exact hm.wellFormed
    · exact hc.wellFormed
    · exact hm'
    · exact hc'.wellFormed
  · obtain ⟨m', hm', hwrite⟩ := copyWrite_fault t.write
      (s := { s with child := c, passed := s.passed ++ [m, c.m2] }) hdst hc hfits
    rw [hwrite]
    exact ⟨hc, fun h => absurd h hfits, fun _ => ⟨m', List.mem_append_right _ List.mem_cons_self, hm'⟩⟩

/-- A turn of a run that has ended changes nothing. -/
theorem copyTurn_ended {src dst : Name} {t : Turn} {s : Copy} (h : s.status ≠ .running) : copyTurn src dst t s = s := by
  unfold copyTurn
  split
  · rename_i hrun
    exact absurd hrun h
  · rfl

/-- The outgoing message of the server stays well formed. -/
theorem copyRun_replyOk {src dst : Name} (hsrc : GoodName src) (hdst : GoodName dst) (turns : ℕ → Turn) (fs : FileSys) :
    ∀ n, ReplyOk (copyRun src dst turns fs n).child.m2
  | 0 => replyOk_zero
  | n + 1 => by
    have ih := copyRun_replyOk hsrc hdst turns fs n
    by_cases hrun : (copyRun src dst turns fs n).status = .running
    · exact (copyTurn_wellFormed (turns n) hsrc hdst hrun ih).1
    · rw [copyRun, copyTurn_ended hrun]
      exact ih

/-- **When every message of a run is well formed.** In every run of `copy`, whatever the files are and the system calls
of the server do, every message that either side passes to `ifri_send` is well formed, and encoded without a fault, if
and only if the `do_read` of every turn succeeds. -/
theorem copy_wellFormed_iff {src dst : Name} (hsrc : GoodName src) (hdst : GoodName dst) (turns : ℕ → Turn)
    (fs : FileSys) :
    (∀ n, ∀ m ∈ (copyRun src dst turns fs n).passed, m.WellFormed ∧ ∀ buff, ∃ wire, ifriSend m buff = some wire) ↔
      ∀ n, (copyRun src dst turns fs n).status = .running →
        ReadSucceeds (turns n).read (copyRun src dst turns fs n).child.server src := by
  have hok := copyRun_replyOk hsrc hdst turns fs
  constructor
  · intro h n hrun
    by_contra hread
    obtain ⟨m, hm, hnot⟩ := (copyTurn_wellFormed (turns n) hsrc hdst hrun (hok n)).2.2 hread
    exact hnot (h (n + 1) m hm).1
  · intro h
    have hall : ∀ n, ∀ m ∈ (copyRun src dst turns fs n).passed, m.WellFormed := by
      intro n
      induction n with
      | zero => simp [copyRun]
      | succ n ih =>
        by_cases hrun : (copyRun src dst turns fs n).status = .running
        · exact (copyTurn_wellFormed (turns n) hsrc hdst hrun (hok n)).2.1 (h n hrun) ih
        · rw [copyRun, copyTurn_ended hrun]
          exact ih
    intro n m hm
    refine ⟨hall n m hm, fun buff => ?_⟩
    obtain ⟨wire, hsend, -⟩ := ifriSend_wire (hall n m hm) buff
    exact ⟨wire, hsend⟩

/-- A file `a` of three bytes copied to `b` without an error. -/
theorem copy_wellFormed_iff_three :
    let fs : FileSys := Function.update (fun _ => none) [97] (some [1, 2, 3])
    let turns (_ : ℕ) : Turn := ⟨⟨true, .cut 1023, []⟩, ⟨true, .cut 1023, []⟩⟩
    (∀ n, ∀ m ∈ (copyRun [97] [98] turns fs n).passed,
      m.WellFormed ∧ ∀ buff, ∃ wire, ifriSend m buff = some wire) ↔
      ∀ n, (copyRun [97] [98] turns fs n).status = .running →
        ReadSucceeds (turns n).read (copyRun [97] [98] turns fs n).child.server [97] :=
  copy_wellFormed_iff (.single (by decide)) (.single (by decide)) _ _

/-- A source that is not there: the client passes a WRITE request with a count of -3 to `ifri_send`. -/
theorem missing_source_malformed :
    let turns (_ : ℕ) : Turn := ⟨⟨true, .cut 1023, []⟩, ⟨true, .cut 1023, []⟩⟩
    ∃ m ∈ (copyRun [97] [98] turns (fun _ => none) 1).passed, ¬ m.WellFormed ∧ ∀ buff, ifriSend m buff = none := by
  intro turns
  have hread : ¬ ReadSucceeds (turns 0).read (Server.mk (fun _ => none) none none []) [97] := by
    rintro ⟨h | h, -⟩
    · exact h rfl
    · exact h.2 rfl
  have hsrc : GoodName [97] := .single (by decide)
  have hdst : GoodName [98] := .single (by decide)
  obtain ⟨m, hm, hnot⟩ := (copyTurn_wellFormed (turns 0) (s := copyRun [97] [98] turns (fun _ => none) 0) hsrc hdst rfl
    replyOk_zero).2.2 hread
  exact ⟨m, hm, hnot, ifriSend_fault hnot⟩

end CoupledCC.Transfer
