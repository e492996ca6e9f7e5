import CoupledCC.Lib.Files
import CoupledCC.Transfer.Message

/-!
# The requests of the server

`do_read` and `do_write` of `server.c`, and the part of the child's loop between `ifri_receive` and `ifri_send`. The two
descriptors are opened by the first request that needs them and stay open. A system call that leaves a buffer of the
program is a fault (`none`); what the calls do is a parameter (`Outcome`).

- `serve_total`: a well-formed request is served without a fault, and its reply is well formed (`ReplyOk`).
-/

namespace CoupledCC.Transfer

open Word Bytes Files

/-- What the system calls of one request do. -/
structure Outcome where
  opens : Bool
  io : Io
  stream : List Io
deriving Repr, DecidableEq

/-- The files and descriptors of a child, and the bytes it has written to the data connection. -/
structure Server where
  fs : FileSys
  rfd : Option Fd
  wfd : Option Fd
  dataSent : List U8

/-- A child: besides, the incoming and the outgoing message. -/
structure Child where
  server : Server
  m1 : Message
  m2 : Message

/-- The file name of a message as a C string: it runs on into `data` when `name` holds no NUL. -/
def Message.path (m : Message) : Name :=
  (m.name.bytes ++ m.data.bytes).takeWhile (· ≠ 0)

/-- The flags of `do_read`; the mode bits stand among them. -/
def readFlags : U32 := oRdonly ||| sIrusr ||| sIwusr

/-- The flags of `do_write`; the mode bits stand among them. -/
def writeFlags : U32 := oCreat ||| oWronly ||| sIrwxu

/-- `(fd == -1) && (fd = open(..)) < 0`: the descriptor that is open, or else a new one. -/
def descriptor (fd : Option Fd) (permitted : Bool) (flags : U32) (name : Name) (fs : FileSys) : Option (FileSys × Fd) :=
  match fd with
  | some fd => some (fs, fd)
  | none => openFile permitted flags name fs

/-- A negative count is refused by the kernel. -/
def refuse (count : U64) (io : Io) : Io :=
  if count.toInt < 0 then .fail else io

/-- The loop of `do_read` that sends the file content: what it writes to the data connection, and its last result. Reads
without an outcome are whole. -/
def sendContent : List Io → List U8 → List U8 × ℤ
  | [], rest => (rest, 0)
  | .fail :: _, _ => ([], -1)
  | .cut k :: ios, rest =>
    if rest = [] then ([], 0)
    else
      let n := min 16384 (k + 1)
      (rest.take n ++ (sendContent ios (rest.drop n)).1, (sendContent ios (rest.drop n)).2)

def doRead (o : Outcome) (s : Server) (m1 m2 : Message) : Option (Server × Message × ℤ) :=
  match descriptor s.rfd o.opens readFlags m1.path s.fs with
  | none => some (s, m2, eIo)
  | some (fs, fd) =>
    if m1.sendFileContent = 0 then
      let fd := fd.lseek m1.offset
      match readFile fs fd m1.count.toNat (refuse m1.count o.io) with
      | none => some ({ s with fs := fs, rfd := some fd }, m2, eIo)
      | some (bytes, fd) =>
        (m2.data.store 0 bytes).map fun data =>
          ({ s with fs := fs, rfd := some fd }, { m2 with data := data }, (bytes.length : ℤ))
    else
      let (bytes, r) := sendContent o.stream ((content fs fd.name).drop fd.pos)
      some ({ s with fs := fs, rfd := some { fd with pos := fd.pos + bytes.length }, dataSent := s.dataSent ++ bytes },
        m2, r)

def doWrite (o : Outcome) (s : Server) (m1 : Message) : Option (Server × ℤ) :=
  match descriptor s.wfd o.opens writeFlags m1.path s.fs with
  | none => some (s, eIo)
  | some (fs, fd) =>
    let fd := fd.lseek m1.offset
    if m1.count.toInt < 0 then some ({ s with fs := fs, wfd := some fd }, eIo)
    else
      (m1.data.load 0 m1.count.toNat).map fun bytes =>
        match writeFile fs fd bytes o.io with
        | none => ({ s with fs := fs, wfd := some fd }, eIo)
        | some (fs, fd, n) => ({ s with fs := fs, wfd := some fd }, (n : ℤ))

/-- `m2.result = r; if(r > 0) m2.count = r;` -/
def putResult (m2 : Message) (r : ℤ) : Message :=
  { m2 with
    result := BitVec.ofInt 64 r
    count := if 0 < r then BitVec.ofInt 64 r else m2.count }

/-- One turn of the child's loop, from the `switch` to before `ifri_send`: the child after it, and the messages that
`do_read` and `do_write` were called with. -/
def serveCalls (o : Outcome) (c : Child) : Option (Child × List Message) :=
  if c.m1.opcode = opRead then
    (doRead o c.server c.m1 c.m2).map fun (s, m2, r) => ({ c with server := s, m2 := putResult m2 r }, [c.m1])
  else if c.m1.opcode = opWrite then
    (doWrite o c.server c.m1).map fun (s, r) => ({ c with server := s, m2 := putResult c.m2 r }, [c.m1])
  else some ({ c with m2 := putResult c.m2 eBadOpcode }, [])

/-- The child after such a turn. -/
def serve (o : Outcome) (c : Child) : Option Child :=
  (serveCalls o c).map Prod.fst

/-- A child right after `fork`. -/
def Child.fresh (fs : FileSys) : Child :=
  ⟨⟨fs, none, none, []⟩, .zero, .zero⟩

/-! ## Flags -/

theorem readFlags_creat : readFlags &&& oCreat = 0 := by decide

/-- The mode bits of the owner contain `O_EXCL`: `do_write` opens no file that is there. -/
theorem openFile_writeFlags (permitted : Bool) (name : Name) (fs : FileSys) :
    openFile permitted writeFlags name fs =
      if permitted ∧ fs name = none then some (Function.update fs name (some []), ⟨name, 0⟩) else none := by
  have hcreat : writeFlags &&& oCreat ≠ 0 := by decide
  have hexcl : writeFlags &&& oExcl ≠ 0 := by decide
  exact openFile_exclusive hcreat hexcl permitted name fs

theorem opWrite_ne_opRead : opWrite ≠ opRead := by decide

/-! ## Replies -/

/-- The outgoing message names no file, and its count lies within its data. -/
structure ReplyOk (m2 : Message) : Prop where
  nameLen : m2.nameLen = 0
  count : m2.count.toNat ≤ bufSize

theorem ReplyOk.wellFormed {m2 : Message} (h : ReplyOk m2) : m2.WellFormed := by
  rw [wellFormed_iff, h.nameLen]
  exact ⟨Nat.zero_le _, h.count⟩

theorem replyOk_zero : ReplyOk .zero :=
  ⟨rfl, Nat.zero_le _⟩

theorem putResult_replyOk {m2 : Message} {r : ℤ} (h : ReplyOk m2) (hr : r ≤ bufSize) : ReplyOk (putResult m2 r) := by
  refine ⟨h.nameLen, ?_⟩
  simp only [putResult]
  split
  · rename_i hpos
    obtain ⟨n, rfl⟩ := Int.eq_ofNat_of_zero_le (le_of_lt hpos)
    have hsize : bufSize = 1024 := rfl
    rw [toNat_ofInt_natCast (by omega)]
    omega
  · exact h.count

/-! ## Reading -/

/-- The bytes a read through a descriptor gives, cut after `k + 1`. -/
def nextBytes (fs : FileSys) (fd : Fd) (m : Message) (k : ℕ) : List U8 :=
  sub (content fs fd.name) (fd.lseek m.offset).pos (min m.count.toNat (k + 1))

/-- What the `read` of a READ request gives. -/
def readBytes (o : Outcome) (s : Server) (m : Message) : Option (List U8) :=
  match descriptor s.rfd o.opens readFlags m.path s.fs, o.io with
  | some (_, fd), .cut k => some (nextBytes s.fs fd m k)
  | _, _ => none

/-- The result of a READ request. -/
def readResult : Option (List U8) → ℤ
  | none => eIo
  | some bytes => bytes.length

theorem descriptor_read_fs {fd? : Option Fd} {permitted : Bool} {name : Name} {fs fs' : FileSys} {fd : Fd}
    (h : descriptor fd? permitted readFlags name fs = some (fs', fd)) : fs' = fs := by
  cases fd? with
  | some fd => cases h; rfl
  | none =>
    rw [descriptor, openFile_existing readFlags_creat] at h
    split at h
    · cases h; rfl
    · cases h

/-- **What `do_read` does** for a request. -/
theorem doRead_spec (o : Outcome) (s : Server) {m1 : Message} (m2 : Message) (hcontent : m1.sendFileContent = 0)
    (hcount : m1.count.toNat ≤ bufSize) :
    ∃ rfd data, doRead o s m1 m2 =
        some ({ s with rfd := rfd }, { m2 with data := data }, readResult (readBytes o s m1)) ∧
      (∀ bytes, readBytes o s m1 = some bytes → sub data.bytes 0 bytes.length = bytes) ∧
      ∀ fs fd, descriptor s.rfd o.opens readFlags m1.path s.fs = some (fs, fd) → ∃ pos, rfd = some ⟨fd.name, pos⟩ := by
  have hsign : ¬ m1.count.toInt < 0 := not_neg_of_lt (lt_of_le_of_lt hcount (by decide))
  unfold doRead
  cases hfd : descriptor s.rfd o.opens readFlags m1.path s.fs with
  | none =>
    have hnone : readBytes o s m1 = none := by simp only [readBytes, hfd]
    rw [hnone]
    exact ⟨s.rfd, m2.data, rfl, fun bytes h => (by cases h), fun fs fd h => (by cases h)⟩
  | some opened =>
    obtain ⟨fs, fd⟩ := opened
    have hfs := descriptor_read_fs hfd
    subst hfs
    simp only [if_pos hcontent, refuse, if_neg hsign]
    cases hio : o.io with
    | fail =>
      have hnone : readBytes o s m1 = none := by simp only [readBytes, hfd, hio]
      rw [hnone]
      refine ⟨some (fd.lseek m1.offset), m2.data, rfl, fun bytes h => (by cases h), fun fs fd' h => ?_⟩
      cases h
      exact ⟨(fd.lseek m1.offset).pos, by rw [← fd.lseek_name m1.offset]⟩
    | cut k =>
      have hsome : readBytes o s m1 = some (nextBytes s.fs fd m1 k) := by simp only [readBytes, hfd, hio]
      have hread := readFile_cut s.fs (fd.lseek m1.offset) m1.count.toNat k
      rw [fd.lseek_name, ← nextBytes] at hread
      have hlen : (nextBytes s.fs fd m1 k).length ≤ bufSize := by
        simp only [nextBytes, sub, List.length_take]
        omega
      obtain ⟨data, hstore, hdata⟩ := m2.data.store_start hlen
      simp only [hread, hstore, hsome, Option.map_some]
      refine ⟨_, data, rfl, fun bytes h => ?_, fun fs fd' h => ?_⟩
      · cases h
        rw [hdata, sub, List.drop_zero, List.take_left' rfl]
      · cases h
        exact ⟨_, by rw [← fd.lseek_name m1.offset]⟩

theorem readResult_bounds (o : Outcome) (s : Server) {m : Message} (hcount : m.count.toNat ≤ bufSize) :
    eIo ≤ readResult (readBytes o s m) ∧ readResult (readBytes o s m) ≤ bufSize := by
  have he : eIo = -3 := rfl
  have hb : bufSize = 1024 := rfl
  unfold readBytes
  split
  · simp only [readResult, nextBytes, sub, List.length_take]
    omega
  · simp only [readResult]
    omega

theorem sendContent_result_le (ios : List Io) (rest : List U8) : (sendContent ios rest).2 ≤ 0 := by
  induction ios generalizing rest with
  | nil => exact le_refl _
  | cons io ios ih =>
    cases io with
    | fail => exact Int.negSucc_le_zero 0
    | cut k =>
      simp only [sendContent]
      split
      · exact le_refl _
      · exact ih _

/-- `do_read` with a count that fits in the data of the reply. -/
theorem doRead_total (o : Outcome) (s : Server) {m1 m2 : Message} (hcount : m1.count.toNat ≤ bufSize)
    (hm2 : ReplyOk m2) : ∃ s' m2' r, doRead o s m1 m2 = some (s', m2', r) ∧ ReplyOk m2' ∧ r ≤ bufSize := by
  by_cases hcontent : m1.sendFileContent = 0
  · obtain ⟨rfd, data, hread, -, -⟩ := doRead_spec o s m2 hcontent hcount
    exact ⟨_, _, _, hread, ⟨hm2.nameLen, hm2.count⟩, (readResult_bounds o s hcount).2⟩
  · unfold doRead
    cases descriptor s.rfd o.opens readFlags m1.path s.fs with
    | none => exact ⟨s, m2, eIo, rfl, hm2, by decide⟩
    | some opened =>
      have hr := sendContent_result_le o.stream ((content opened.1 opened.2.name).drop opened.2.pos)
      simp only [if_neg hcontent]
      exact ⟨_, m2, _, rfl, hm2, hr.trans (by decide)⟩

/-! ## Writing -/

/-- What the `open` and the `write` of a WRITE request do: the files after them, and the result. -/
def writeOutcome (o : Outcome) (s : Server) (m : Message) : FileSys × ℤ :=
  match descriptor s.wfd o.opens writeFlags m.path s.fs with
  | none => (s.fs, eIo)
  | some (fs, fd) =>
    match writeFile fs (fd.lseek m.offset) (sub m.data.bytes 0 m.count.toNat) o.io with
    | none => (fs, eIo)
    | some (fs, _, n) => (fs, n)

/-- **What `do_write` does** for a request. -/
theorem doWrite_spec (o : Outcome) (s : Server) {m : Message} (hcount : m.count.toNat ≤ bufSize) :
    ∃ wfd, doWrite o s m = some ({ s with fs := (writeOutcome o s m).1, wfd := wfd }, (writeOutcome o s m).2) ∧
      (descriptor s.wfd o.opens writeFlags m.path s.fs = none → wfd = s.wfd) ∧
      ∀ fs fd, descriptor s.wfd o.opens writeFlags m.path s.fs = some (fs, fd) → ∃ pos, wfd = some ⟨fd.name, pos⟩ := by
  have hsign : ¬ m.count.toInt < 0 := not_neg_of_lt (lt_of_le_of_lt hcount (by decide))
  unfold doWrite writeOutcome
  cases hfd : descriptor s.wfd o.opens writeFlags m.path s.fs with
  | none => exact ⟨s.wfd, rfl, fun _ => rfl, fun fs fd h => (by cases h)⟩
  | some opened =>
    obtain ⟨fs, fd⟩ := opened
    have hname := fd.lseek_name m.offset
    simp only [if_neg hsign]
    rw [Buffer.load_of_le _ (by omega), Option.map_some]
    cases hwrite : writeFile fs (fd.lseek m.offset) (sub m.data.bytes 0 m.count.toNat) o.io with
    | none =>
      refine ⟨some (fd.lseek m.offset), rfl, fun h => (by cases h), fun fs' fd' h => ?_⟩
      cases h
      exact ⟨(fd.lseek m.offset).pos, by rw [← hname]⟩
    | some written =>
      obtain ⟨fs', fd', n⟩ := written
      refine ⟨some fd', rfl, fun h => (by cases h), fun fs'' fd'' h => ?_⟩
      cases h
      obtain ⟨-, hsame, -⟩ := writeFile_spec hwrite
      exact ⟨fd'.pos, by rw [← hname, ← hsame]⟩

theorem writeOutcome_bounds (o : Outcome) (s : Server) {m : Message} (hcount : m.count.toNat ≤ bufSize) :
    eIo ≤ (writeOutcome o s m).2 ∧ (writeOutcome o s m).2 ≤ bufSize := by
  have he : eIo = -3 := rfl
  have hb : bufSize = 1024 := rfl
  unfold writeOutcome
  split
  · omega
  · split
    · omega
    · rename_i hwrite
      obtain ⟨⟨k, -, hn⟩, -⟩ := writeFile_spec hwrite
      have hlen : (sub m.data.bytes 0 m.count.toNat).length ≤ m.count.toNat := List.length_take_le _ _
      simp only
      omega

/-- `do_write` with a count that fits in the data of the request. -/
theorem doWrite_total (o : Outcome) (s : Server) {m1 : Message} (hcount : m1.count.toNat ≤ bufSize) :
    ∃ s' r, doWrite o s m1 = some (s', r) ∧ r ≤ bufSize := by
  obtain ⟨wfd, hwrite, -⟩ := doWrite_spec o s hcount
  exact ⟨_, _, hwrite, (writeOutcome_bounds o s hcount).2⟩

/-! ## Serving -/

theorem serve_eq (o : Outcome) (c : Child) :
    serve o c =
      if c.m1.opcode = opRead then
        (doRead o c.server c.m1 c.m2).map fun (s, m2, r) => { c with server := s, m2 := putResult m2 r }
      else if c.m1.opcode = opWrite then
        (doWrite o c.server c.m1).map fun (s, r) => { c with server := s, m2 := putResult c.m2 r }
      else some { c with m2 := putResult c.m2 eBadOpcode } := by
  unfold serve serveCalls
  split
  · rw [Option.map_map]
    rfl
  · split
    · rw [Option.map_map]
      rfl
    · rfl

/-- What a served READ request did. -/
theorem serve_read {o : Outcome} {c c' : Child} (hop : c.m1.opcode = opRead) (h : serve o c = some c') :
    ∃ s' m2' r, doRead o c.server c.m1 c.m2 = some (s', m2', r) ∧ c' = ⟨s', c.m1, putResult m2' r⟩ := by
  rw [serve_eq, if_pos hop] at h
  obtain ⟨⟨s', m2', r⟩, hread, heq⟩ := Option.map_eq_some_iff.mp h
  exact ⟨s', m2', r, hread, heq.symm⟩

/-- What a served WRITE request did. -/
theorem serve_write {o : Outcome} {c c' : Child} (hop : c.m1.opcode = opWrite) (h : serve o c = some c') :
    ∃ s' r, doWrite o c.server c.m1 = some (s', r) ∧ c' = ⟨s', c.m1, putResult c.m2 r⟩ := by
  have hnot : ¬ c.m1.opcode = opRead := hop ▸ opWrite_ne_opRead
  rw [serve_eq, if_neg hnot, if_pos hop] at h
  obtain ⟨⟨s', r⟩, hwrite, heq⟩ := Option.map_eq_some_iff.mp h
  exact ⟨s', r, hwrite, heq.symm⟩

/-- **A well-formed request is served without a fault, and the reply is well formed.** -/
theorem serve_total (o : Outcome) {c : Child} (hm1 : c.m1.WellFormed) (hm2 : ReplyOk c.m2) :
    ∃ c', serve o c = some c' ∧ c'.m1 = c.m1 ∧ ReplyOk c'.m2 := by
  have hcount := ((wellFormed_iff c.m1).mp hm1).2
  rw [serve_eq]
  split
  · obtain ⟨s', m2', r, hread, hm2', hr⟩ := doRead_total o c.server hcount hm2
    refine ⟨{ c with server := s', m2 := putResult m2' r }, ?_, rfl, putResult_replyOk hm2' hr⟩
    rw [hread]
    rfl
  · split
    · obtain ⟨s', r, hwrite, hr⟩ := doWrite_total o c.server hcount
      refine ⟨{ c with server := s', m2 := putResult c.m2 r }, ?_, rfl, putResult_replyOk hm2 hr⟩
      rw [hwrite]
      rfl
    · exact ⟨_, rfl, rfl, putResult_replyOk hm2 (by decide)⟩

end CoupledCC.Transfer
