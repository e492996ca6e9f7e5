import CoupledCC.Transfer.Server

/-!
# Requests after requests

Sequences of READ and WRITE requests on one connection. Each is compared with the same request, with the same outcome of
the system calls, as the first of a fresh connection over the same files (`SameAsFirst`).

- `serve_read_spec`, `serve_write_spec`: what a request does to the files and to the reply;
- `read_same_iff`, `write_same_iff`: when a request does the same as a first one (`ReadIndependent`,
  `WriteIndependent`);
- `requests_independent_iff`: every request of a sequence does, if and only if every one meets its condition.
-/

namespace CoupledCC.Transfer

open Word Bytes Files

/-- A READ request without file content, or a WRITE request, with a count of at most 1024. -/
structure IsRequest (m : Message) : Prop where
  kind : m.opcode = opRead ∧ m.sendFileContent = 0 ∨ m.opcode = opWrite
  count : m.count.toNat ≤ bufSize

/-- The child after some requests on a fresh connection. -/
def serveAll : List (Outcome × Message) → Child → Option Child
  | [], c => some c
  | (o, m) :: reqs, c => (serve o { c with m1 := m }).bind (serveAll reqs)

/-- Two replies with the same result, count, and first `count` bytes of data. -/
structure SameReply (m m' : Message) : Prop where
  result : m.result = m'.result
  count : m.count = m'.count
  data : sub m.data.bytes 0 m.count.toNat = sub m'.data.bytes 0 m'.count.toNat

/-- The request does to the files, and answers, what it would as the first request of a fresh connection. -/
def SameAsFirst (o : Outcome) (c : Child) (m : Message) : Prop :=
  ∃ c₁ c₂, serve o { c with m1 := m } = some c₁ ∧ serve o { Child.fresh c.server.fs with m1 := m } = some c₂ ∧
    c₁.server.fs = c₂.server.fs ∧ SameReply c₁.m2 c₂.m2

theorem sameAsFirst_iff {o : Outcome} {c c₁ c₂ : Child} {m : Message} (h₁ : serve o { c with m1 := m } = some c₁)
    (h₂ : serve o { Child.fresh c.server.fs with m1 := m } = some c₂) :
    SameAsFirst o c m ↔ c₁.server.fs = c₂.server.fs ∧ SameReply c₁.m2 c₂.m2 := by
  constructor
  · rintro ⟨c₁', c₂', h₁', h₂', hsame⟩
    cases h₁.symm.trans h₁'
    cases h₂.symm.trans h₂'
    exact hsame
  · exact fun hsame => ⟨c₁, c₂, h₁, h₂, hsame⟩

/-! ## Replies -/

theorem toInt_ofInt_result {r : ℤ} (h : eIo ≤ r ∧ r ≤ bufSize) : (BitVec.ofInt 64 r).toInt = r := by
  have he : eIo = -3 := rfl
  have hb : bufSize = 1024 := rfl
  rw [BitVec.toInt_ofInt]
  exact Int.bmod_eq_of_le (by omega) (by omega)

theorem toNat_ofInt_result {r : ℤ} (h : eIo ≤ r ∧ r ≤ bufSize) (hpos : 0 < r) :
    (BitVec.ofInt 64 r).toNat = r.toNat := by
  obtain ⟨n, rfl⟩ := Int.eq_ofNat_of_zero_le (le_of_lt hpos)
  have hb : bufSize = 1024 := rfl
  rw [toNat_ofInt_natCast (by omega), Int.toNat_natCast]

/-- Two replies made of results between `E_IO` and a buffer full, the second by a child without an earlier count. -/
theorem sameReply_putResult {a b : Message} {r r' : ℤ} (hr : eIo ≤ r ∧ r ≤ bufSize) (hr' : eIo ≤ r' ∧ r' ≤ bufSize)
    (hb : b.count = 0) :
    SameReply (putResult a r) (putResult b r') ↔
      r = r' ∧ (r ≤ 0 → a.count = 0) ∧ (0 < r → sub a.data.bytes 0 r.toNat = sub b.data.bytes 0 r.toNat) := by
  have hsplit (m : Message) (data : Buffer bufSize) (hcount : m.count = 0) : sub data.bytes 0 m.count.toNat = [] := by
    rw [hcount]
    rfl
  constructor
  · rintro ⟨hresult, hcount, hdata⟩
    have heq : r = r' := by
      rw [← toInt_ofInt_result hr, ← toInt_ofInt_result hr']
      exact congrArg BitVec.toInt hresult
    subst heq
    refine ⟨rfl, fun hnot => ?_, fun hpos => ?_⟩
    · simpa only [putResult, if_neg (not_lt.mpr hnot), hb] using hcount
    · simpa only [putResult, if_pos hpos, toNat_ofInt_result hr hpos] using hdata
  · rintro ⟨rfl, hnot, hpos⟩
    rcases lt_or_ge 0 r with h | h
    · refine ⟨rfl, by simp only [putResult, if_pos h], ?_⟩
      simpa only [putResult, if_pos h, toNat_ofInt_result hr h] using hpos h
    · refine ⟨rfl, ?_, ?_⟩
      · simp only [putResult, if_neg (not_lt.mpr h), hnot h, hb]
      · simp only [putResult, if_neg (not_lt.mpr h)]
        rw [hsplit a _ (hnot h), hsplit b _ hb]

/-! ## Reading -/

theorem readResult_inj {b b' : Option (List U8)} (h : readResult b = readResult b')
    (hbytes : ∀ bytes bytes', b = some bytes → b' = some bytes' → bytes.length = bytes'.length → bytes = bytes') :
    b = b' := by
  have he : eIo = -3 := rfl
  cases b with
  | none =>
    cases b' with
    | none => rfl
    | some bytes' => simp only [readResult] at h; omega
  | some bytes =>
    cases b' with
    | none => simp only [readResult] at h; omega
    | some bytes' => rw [hbytes bytes bytes' rfl rfl (by simpa only [readResult, Int.natCast_inj] using h)]

/-- What the child does for a READ request. -/
theorem serve_read_spec (o : Outcome) (c : Child) {m : Message} (hop : m.opcode = opRead)
    (hcontent : m.sendFileContent = 0) (hcount : m.count.toNat ≤ bufSize) :
    ∃ rfd data, serve o { c with m1 := m } =
        some ⟨{ c.server with rfd := rfd }, m,
          putResult { c.m2 with data := data } (readResult (readBytes o c.server m))⟩ ∧
      ∀ bytes, readBytes o c.server m = some bytes → sub data.bytes 0 bytes.length = bytes := by
  obtain ⟨rfd, data, hread, hdata, -⟩ := doRead_spec o c.server c.m2 hcontent hcount
  refine ⟨rfd, data, ?_, hdata⟩
  rw [serve_eq, if_pos hop]
  simp only [hread]
  rfl

/-- A READ request does the same as a first one when it gets the same bytes, and repeats no earlier count. -/
theorem read_same_iff_bytes {o : Outcome} {c : Child} {m : Message} (hop : m.opcode = opRead)
    (hcontent : m.sendFileContent = 0) (hcount : m.count.toNat ≤ bufSize) :
    SameAsFirst o c m ↔ readBytes o c.server m = readBytes o (Child.fresh c.server.fs).server m ∧
      (readResult (readBytes o (Child.fresh c.server.fs).server m) ≤ 0 → c.m2.count = 0) := by
  obtain ⟨rfd, data, hserve, hdata⟩ := serve_read_spec o c hop hcontent hcount
  obtain ⟨rfd', data', hserve', hdata'⟩ := serve_read_spec o (.fresh c.server.fs) hop hcontent hcount
  have hsame := sameReply_putResult (a := { c.m2 with data := data }) (b := { Message.zero with data := data' })
    (readResult_bounds o c.server hcount) (readResult_bounds o (Child.fresh c.server.fs).server hcount) rfl
  rw [sameAsFirst_iff hserve hserve']
  constructor
  · rintro ⟨-, hreply⟩
    obtain ⟨hr, hnot, hpos⟩ := hsame.mp hreply
    refine ⟨readResult_inj hr fun bytes bytes' hb hb' hlen => ?_, fun h => hnot (hr ▸ h)⟩
    cases bytes with
    | nil => exact (List.length_eq_zero_iff.mp hlen.symm).symm
    | cons b bytes =>
      have hsub := hpos (by rw [hb]; exact Int.natCast_pos.mpr (Nat.succ_pos _))
      rw [hb] at hsub
      have hright := hdata' _ hb'
      rw [← hlen] at hright
      rw [← hdata _ hb, ← hright]
      exact hsub
  · rintro ⟨heq, hnot⟩
    refine ⟨rfl, hsame.mpr ⟨by rw [heq], fun h => hnot (heq ▸ h), fun hpos => ?_⟩⟩
    cases hb : readBytes o c.server m with
    | none =>
      rw [hb] at hpos
      exact absurd hpos (by decide)
    | some bytes => exact (hdata _ hb).trans (hdata' _ (heq ▸ hb)).symm

/-- The named file can be opened for reading. -/
def CanRead (o : Outcome) (fs : FileSys) (m : Message) : Prop :=
  o.opens = true ∧ fs m.path ≠ none

/-- When a READ request does the same as a first one: a descriptor that is open gives the bytes of the named file, and
where no byte is read the last reply left no count. -/
structure ReadIndependent (o : Outcome) (c : Child) (m : Message) : Prop where
  file : ∀ fd k, c.server.rfd = some fd → o.io = .cut k → CanRead o c.server.fs m ∧
    nextBytes c.server.fs fd m k = nextBytes c.server.fs ⟨m.path, 0⟩ m k
  count : (∀ k, o.io = .cut k → CanRead o c.server.fs m → nextBytes c.server.fs ⟨m.path, 0⟩ m k = []) → c.m2.count = 0

instance (o : Outcome) (fs : FileSys) (m : Message) : Decidable (CanRead o fs m) :=
  inferInstanceAs (Decidable (_ ∧ _))

theorem readBytes_open {o : Outcome} {s : Server} {fd : Fd} {k : ℕ} (m : Message) (hrfd : s.rfd = some fd)
    (hio : o.io = .cut k) : readBytes o s m = some (nextBytes s.fs fd m k) := by
  simp only [readBytes, descriptor, hrfd, hio]

theorem readBytes_fresh {o : Outcome} {k : ℕ} (fs : FileSys) (m : Message) (hio : o.io = .cut k) :
    readBytes o (Child.fresh fs).server m = if CanRead o fs m then some (nextBytes fs ⟨m.path, 0⟩ m k) else none := by
  simp only [readBytes, Child.fresh, descriptor, openFile_existing readFlags_creat, hio]
  by_cases h : o.opens = true ∧ fs m.path ≠ none
  · rw [if_pos h, if_pos (show CanRead o fs m from h)]
  · rw [if_neg h, if_neg (show ¬ CanRead o fs m from h)]

theorem readBytes_fail {o : Outcome} (s : Server) (m : Message) (hio : o.io = .fail) : readBytes o s m = none := by
  unfold readBytes
  rw [hio]
  cases descriptor s.rfd o.opens readFlags m.path s.fs <;> rfl

/-- The same bytes, by the descriptor that is open. -/
theorem readBytes_same_iff (o : Outcome) (c : Child) (m : Message) :
    readBytes o c.server m = readBytes o (Child.fresh c.server.fs).server m ↔
      ∀ fd k, c.server.rfd = some fd → o.io = .cut k → CanRead o c.server.fs m ∧
        nextBytes c.server.fs fd m k = nextBytes c.server.fs ⟨m.path, 0⟩ m k := by
  cases hrfd : c.server.rfd with
  | none =>
    have hsame : readBytes o c.server m = readBytes o (Child.fresh c.server.fs).server m := by
      simp only [readBytes, hrfd]
      rfl
    constructor
    · intro _ fd k h
      cases h
    · intro _
      exact hsame
  | some fd =>
    cases hio : o.io with
    | fail =>
      rw [readBytes_fail _ m hio, readBytes_fail _ m hio]
      constructor
      · intro _ fd' k _ hk
        cases hk
      · intro _
        rfl
    | cut k =>
      rw [readBytes_open m hrfd hio, readBytes_fresh c.server.fs m hio]
      constructor
      · intro heq fd' k' hfd hk
        cases hfd
        cases hk
        by_cases hcan : CanRead o c.server.fs m
        · rw [if_pos hcan] at heq
          exact ⟨hcan, Option.some.inj heq⟩
        · rw [if_neg hcan] at heq
          cases heq
      · intro h
        obtain ⟨hcan, heq⟩ := h fd k rfl rfl
        rw [if_pos hcan, heq]

/-- No byte of the named file is read. -/
theorem readResult_fresh_iff (o : Outcome) (fs : FileSys) (m : Message) :
    readResult (readBytes o (Child.fresh fs).server m) ≤ 0 ↔
      ∀ k, o.io = .cut k → CanRead o fs m → nextBytes fs ⟨m.path, 0⟩ m k = [] := by
  cases hio : o.io with
  | fail =>
    rw [readBytes_fail _ m hio]
    constructor
    · intro _ k hk
      cases hk
    · intro _
      decide
  | cut k =>
    rw [readBytes_fresh fs m hio]
    constructor
    · intro hle k' hk hcan
      cases hk
      rw [if_pos hcan] at hle
      exact List.length_eq_zero_iff.mp (by simpa only [readResult, Int.natCast_nonpos_iff] using hle)
    · intro hall
      by_cases hcan : CanRead o fs m
      · rw [if_pos hcan, hall k rfl hcan]
        exact le_refl _
      · rw [if_neg hcan]
        decide

/-- **When a READ request does the same as a first one.** -/
theorem read_same_iff {o : Outcome} {c : Child} {m : Message} (hop : m.opcode = opRead)
    (hcontent : m.sendFileContent = 0) (hcount : m.count.toNat ≤ bufSize) :
    SameAsFirst o c m ↔ ReadIndependent o c m := by
  rw [read_same_iff_bytes hop hcontent hcount, readBytes_same_iff, readResult_fresh_iff]
  constructor
  · rintro ⟨hfile, hcount⟩
    exact ⟨hfile, hcount⟩
  · intro h
    exact ⟨h.file, h.count⟩

/-! ## Writing -/

/-- Every file open for writing is there. -/
def WfdOk (s : Server) : Prop :=
  ∀ fd, s.wfd = some fd → s.fs fd.name ≠ none

/-- A file that is open for writing is there. -/
theorem descriptor_write_there {fd? : Option Fd} {permitted : Bool} {name : Name} {fs fs' : FileSys} {fd : Fd}
    (h : descriptor fd? permitted writeFlags name fs = some (fs', fd)) (hok : ∀ fd, fd? = some fd → fs fd.name ≠ none) :
    fs' fd.name ≠ none := by
  cases fd? with
  | some fd₀ =>
    cases h
    exact hok _ rfl
  | none =>
    rw [descriptor, openFile_writeFlags] at h
    split at h
    · cases h
      simp
    · cases h

/-- It is there after the request, too. -/
theorem writeOutcome_there {o : Outcome} {s : Server} {m : Message} {fs : FileSys} {fd : Fd}
    (hfd : descriptor s.wfd o.opens writeFlags m.path s.fs = some (fs, fd)) (hok : WfdOk s) :
    (writeOutcome o s m).1 fd.name ≠ none := by
  have hthere := descriptor_write_there hfd hok
  simp only [writeOutcome, hfd]
  cases hwrite : writeFile fs (fd.lseek m.offset) (sub m.data.bytes 0 m.count.toNat) o.io with
  | none => exact hthere
  | some written =>
    obtain ⟨-, -, hkeeps, -⟩ := writeFile_spec hwrite
    rw [fd.lseek_name] at hkeeps
    exact hkeeps hthere

/-- What the child does for a WRITE request. -/
theorem serve_write_spec (o : Outcome) {c : Child} {m : Message} (hop : m.opcode = opWrite)
    (hcount : m.count.toNat ≤ bufSize) (hok : WfdOk c.server) :
    ∃ s, serve o { c with m1 := m } = some ⟨s, m, putResult c.m2 (writeOutcome o c.server m).2⟩ ∧
      s.fs = (writeOutcome o c.server m).1 ∧ WfdOk s := by
  obtain ⟨wfd, hwrite, hnone, hsome⟩ := doWrite_spec o c.server hcount
  have hnot : ¬ m.opcode = opRead := hop ▸ opWrite_ne_opRead
  refine ⟨{ c.server with fs := (writeOutcome o c.server m).1, wfd := wfd }, ?_, rfl, fun fd' hfd' => ?_⟩
  · rw [serve_eq, if_neg hnot, if_pos hop]
    simp only [hwrite]
    rfl
  · cases hfd : descriptor c.server.wfd o.opens writeFlags m.path c.server.fs with
    | none =>
      have hsame : (writeOutcome o c.server m).1 = c.server.fs := by simp only [writeOutcome, hfd]
      show (writeOutcome o c.server m).1 fd'.name ≠ none
      rw [hsame]
      exact hok fd' ((hnone hfd).symm.trans hfd')
    | some opened =>
      obtain ⟨pos, hpos⟩ := hsome _ _ hfd
      have hthere := writeOutcome_there hfd hok
      cases hpos.symm.trans hfd'
      exact hthere

/-- A WRITE request does the same as a first one when it has the same effect and result, repeats no earlier count, and
leaves nothing of the earlier data in its reply. -/
theorem write_same_iff_outcome {o : Outcome} {c : Child} {m : Message} (hop : m.opcode = opWrite)
    (hcount : m.count.toNat ≤ bufSize) (hok : WfdOk c.server) :
    SameAsFirst o c m ↔ writeOutcome o c.server m = writeOutcome o (Child.fresh c.server.fs).server m ∧
      ((writeOutcome o (Child.fresh c.server.fs).server m).2 ≤ 0 → c.m2.count = 0) ∧
      (0 < (writeOutcome o (Child.fresh c.server.fs).server m).2 →
        sub c.m2.data.bytes 0 (writeOutcome o (Child.fresh c.server.fs).server m).2.toNat =
          sub Message.zero.data.bytes 0 (writeOutcome o (Child.fresh c.server.fs).server m).2.toNat) := by
  obtain ⟨s, hserve, hfs, -⟩ := serve_write_spec o hop hcount hok
  obtain ⟨s', hserve', hfs', -⟩ := serve_write_spec (c := .fresh c.server.fs) o hop hcount fun fd h => (by cases h)
  have hsame := sameReply_putResult (a := c.m2) (b := .zero) (writeOutcome_bounds o c.server hcount)
    (writeOutcome_bounds o (Child.fresh c.server.fs).server hcount) rfl
  rw [sameAsFirst_iff hserve hserve']
  show s.fs = s'.fs ∧ SameReply (putResult c.m2 _) (putResult .zero _) ↔ _
  rw [hsame, hfs, hfs', Prod.ext_iff]
  constructor
  · rintro ⟨heq, hr, hnot, hpos⟩
    rw [← hr]
    exact ⟨⟨heq, rfl⟩, hnot, hpos⟩
  · rintro ⟨⟨heq, hr⟩, hnot, hpos⟩
    rw [hr]
    exact ⟨heq, rfl, hnot, hpos⟩

/-- The named file can be created. -/
def CanCreate (o : Outcome) (fs : FileSys) (m : Message) : Prop :=
  o.opens = true ∧ fs m.path = none

/-- How many bytes the `write` of a WRITE request writes to a new file. -/
def writeLength (o : Outcome) (m : Message) : ℕ :=
  match o.io with
  | .fail => 0
  | .cut k => min (min m.count.toNat (maxOffset - (Fd.lseek ⟨m.path, 0⟩ m.offset).pos)) (k + 1)

/-- When a WRITE request does the same as a first one: with a descriptor that is open both fail, where no byte is
written the last reply left no count, and otherwise the earlier replies left zeros. -/
structure WriteIndependent (o : Outcome) (c : Child) (m : Message) : Prop where
  file : ∀ fd, c.server.wfd = some fd → ¬ CanCreate o c.server.fs m ∧
    (o.io = .fail ∨ 0 < m.count.toNat ∧ maxOffset ≤ (fd.lseek m.offset).pos)
  count : (CanCreate o c.server.fs m → writeLength o m = 0) → c.m2.count = 0
  data : CanCreate o c.server.fs m →
    sub c.m2.data.bytes 0 (writeLength o m) = List.replicate (writeLength o m) 0

/-- On a fresh connection a WRITE request fails where the file cannot be created. -/
theorem writeOutcome_refused {o : Outcome} {fs : FileSys} {m : Message} (h : ¬ CanCreate o fs m) :
    writeOutcome o (Child.fresh fs).server m = (fs, eIo) := by
  have hopen : openFile o.opens writeFlags m.path fs = none := (openFile_writeFlags _ _ _).trans (if_neg h)
  simp only [writeOutcome, Child.fresh, descriptor, hopen]

/-- On a fresh connection a WRITE request creates the file, and writes to it. -/
theorem writeOutcome_created {o : Outcome} {fs : FileSys} {m : Message} (hcount : m.count.toNat ≤ bufSize)
    (h : CanCreate o fs m) :
    (writeOutcome o (Child.fresh fs).server m).1 m.path ≠ none ∧
      (writeOutcome o (Child.fresh fs).server m).2.toNat = writeLength o m := by
  have hlen : (sub m.data.bytes 0 m.count.toNat).length = m.count.toNat := length_sub (by rw [m.data.size]; omega)
  have hname := Fd.lseek_name ⟨m.path, 0⟩ m.offset
  have hopen : openFile o.opens writeFlags m.path fs = some (Function.update fs m.path (some []), ⟨m.path, 0⟩) :=
    (openFile_writeFlags _ _ _).trans (if_pos h)
  simp only [writeOutcome, Child.fresh, descriptor, hopen]
  have hthere : Function.update fs m.path (some []) (Fd.lseek ⟨m.path, 0⟩ m.offset).name ≠ none := by
    rw [hname, Function.update_self]
    exact Option.some_ne_none _
  cases hwrite : writeFile (Function.update fs m.path (some [])) (Fd.lseek ⟨m.path, 0⟩ m.offset)
      (sub m.data.bytes 0 m.count.toNat) o.io with
  | none =>
    refine ⟨by rwa [hname] at hthere, ?_⟩
    rw [writeFile_eq_none_iff, hlen] at hwrite
    show (0 : ℕ) = _
    unfold writeLength
    rcases hwrite with hio | ⟨hpos, hmax⟩
    · rw [hio]
    · split <;> omega
  | some written =>
    obtain ⟨fs', fd', n⟩ := written
    obtain ⟨⟨k, hio, hn⟩, -, hkeeps, -⟩ := writeFile_spec hwrite
    refine ⟨by rw [hname] at hkeeps hthere; exact hkeeps hthere, ?_⟩
    show n = _
    rw [hn, hlen, writeLength, hio]

/-- With a descriptor that is open a WRITE request changes no file but the open one, and fails when the write does. -/
theorem writeOutcome_open {o : Outcome} {s : Server} {m : Message} {fd : Fd} (hcount : m.count.toNat ≤ bufSize)
    (hwfd : s.wfd = some fd) :
    (∀ name, name ≠ fd.name → (writeOutcome o s m).1 name = s.fs name) ∧
      (writeOutcome o s m = (s.fs, eIo) ↔
        o.io = .fail ∨ 0 < m.count.toNat ∧ maxOffset ≤ (fd.lseek m.offset).pos) := by
  have hlen : (sub m.data.bytes 0 m.count.toNat).length = m.count.toNat := length_sub (by rw [m.data.size]; omega)
  have hnone := writeFile_eq_none_iff s.fs (fd.lseek m.offset) (sub m.data.bytes 0 m.count.toNat) o.io
  rw [hlen] at hnone
  rw [← hnone]
  simp only [writeOutcome, descriptor, hwfd]
  cases hwrite : writeFile s.fs (fd.lseek m.offset) (sub m.data.bytes 0 m.count.toNat) o.io with
  | none => exact ⟨fun _ _ => rfl, fun _ => rfl, fun _ => rfl⟩
  | some written =>
    obtain ⟨fs', fd', n⟩ := written
    refine ⟨fun name hne => ?_, fun heq => ?_, fun heq => absurd heq (Option.some_ne_none _)⟩
    · exact (writeFile_spec hwrite).2.2.2 name (by rwa [Fd.lseek_name])
    · have hr : (n : ℤ) = eIo := congrArg Prod.snd heq
      have he : eIo = -3 := rfl
      omega

/-- The same effect and result, by the descriptor that is open. -/
theorem writeOutcome_same_iff {o : Outcome} {c : Child} {m : Message} (hcount : m.count.toNat ≤ bufSize)
    (hok : WfdOk c.server) :
    writeOutcome o c.server m = writeOutcome o (Child.fresh c.server.fs).server m ↔
      ∀ fd, c.server.wfd = some fd → ¬ CanCreate o c.server.fs m ∧
        (o.io = .fail ∨ 0 < m.count.toNat ∧ maxOffset ≤ (fd.lseek m.offset).pos) := by
  cases hwfd : c.server.wfd with
  | none =>
    have hsame : writeOutcome o c.server m = writeOutcome o (Child.fresh c.server.fs).server m := by
      simp only [writeOutcome, hwfd]
      rfl
    constructor
    · intro _ fd h
      cases h
    · intro _
      exact hsame
  | some fd =>
    obtain ⟨hother, hfails⟩ := writeOutcome_open hcount hwfd
    by_cases hcan : CanCreate o c.server.fs m
    · have hne : m.path ≠ fd.name := fun heq => hok fd hwfd (heq ▸ hcan.2)
      constructor
      · intro heq
        have hthere := (writeOutcome_created hcount hcan).1
        rw [← heq, hother _ hne] at hthere
        exact absurd hcan.2 hthere
      · intro h
        exact absurd hcan (h fd rfl).1
    · rw [writeOutcome_refused hcan, hfails]
      constructor
      · intro h fd' hfd'
        cases hfd'
        exact ⟨hcan, h⟩
      · intro h
        exact (h fd rfl).2

/-- No earlier count and no earlier data in the reply. -/
theorem writeReply_fresh_iff {o : Outcome} {fs : FileSys} {m m2 : Message} (hcount : m.count.toNat ≤ bufSize) :
    (((writeOutcome o (Child.fresh fs).server m).2 ≤ 0 → m2.count = 0) ∧
      (0 < (writeOutcome o (Child.fresh fs).server m).2 →
        sub m2.data.bytes 0 (writeOutcome o (Child.fresh fs).server m).2.toNat =
          sub Message.zero.data.bytes 0 (writeOutcome o (Child.fresh fs).server m).2.toNat)) ↔
      ((CanCreate o fs m → writeLength o m = 0) → m2.count = 0) ∧
        (CanCreate o fs m → sub m2.data.bytes 0 (writeLength o m) = List.replicate (writeLength o m) 0) := by
  by_cases hcan : CanCreate o fs m
  · obtain ⟨-, hlen⟩ := writeOutcome_created hcount hcan
    have hle := (writeOutcome_bounds o (Child.fresh fs).server hcount).2
    have hb : bufSize = 1024 := rfl
    have hzero : sub Message.zero.data.bytes 0 (writeLength o m) = List.replicate (writeLength o m) 0 := by
      have hfit : min (writeLength o m) bufSize = writeLength o m := Nat.min_eq_left (by omega)
      rw [sub, List.drop_zero]
      exact (List.take_replicate).trans (by rw [hfit])
    rw [hlen, hzero]
    constructor
    · rintro ⟨hnot, hpos⟩
      refine ⟨fun h => hnot ?_, fun _ => ?_⟩
      · have := h hcan
        omega
      · rcases Nat.eq_zero_or_pos (writeLength o m) with hz | hz
        · rw [hz]
          rfl
        · exact hpos (by omega)
    · rintro ⟨hnot, hpos⟩
      exact ⟨fun h => hnot fun _ => by omega, fun _ => hpos hcan⟩
  · have he : eIo = -3 := rfl
    rw [writeOutcome_refused hcan]
    constructor
    · rintro ⟨hnot, -⟩
      have hle : eIo ≤ 0 := by omega
      refine ⟨fun _ => hnot hle, ?_⟩
      intro h
      exact absurd h hcan
    · rintro ⟨hnot, -⟩
      refine ⟨fun _ => hnot fun h => absurd h hcan, ?_⟩
      intro hpos
      have hlt : 0 < eIo := hpos
      omega

/-- **When a WRITE request does the same as a first one.** -/
theorem write_same_iff {o : Outcome} {c : Child} {m : Message} (hop : m.opcode = opWrite)
    (hcount : m.count.toNat ≤ bufSize) (hok : WfdOk c.server) :
    SameAsFirst o c m ↔ WriteIndependent o c m := by
  rw [write_same_iff_outcome hop hcount hok, writeOutcome_same_iff hcount hok, writeReply_fresh_iff hcount]
  constructor
  · rintro ⟨hfile, hcount, hdata⟩
    exact ⟨hfile, hcount, hdata⟩
  · intro h
    exact ⟨h.file, h.count, h.data⟩

/-! ## Sequences -/

/-- The condition of a request. -/
def Independent (o : Outcome) (c : Child) (m : Message) : Prop :=
  if m.opcode = opRead then ReadIndependent o c m else WriteIndependent o c m

theorem same_iff {o : Outcome} {c : Child} {m : Message} (hm : IsRequest m) (hok : WfdOk c.server) :
    SameAsFirst o c m ↔ Independent o c m := by
  unfold Independent
  rcases hm.kind with ⟨hop, hcontent⟩ | hop
  · rw [if_pos hop]
    exact read_same_iff hop hcontent hm.count
  · have hnot : ¬ m.opcode = opRead := hop ▸ opWrite_ne_opRead
    rw [if_neg hnot]
    exact write_same_iff hop hm.count hok

/-- A request is served, and every file open for writing is there after it. -/
theorem serve_wfdOk (o : Outcome) {c : Child} {m : Message} (hm : IsRequest m) (hok : WfdOk c.server) :
    ∃ c', serve o { c with m1 := m } = some c' ∧ WfdOk c'.server := by
  rcases hm.kind with ⟨hop, hcontent⟩ | hop
  · obtain ⟨rfd, data, hserve, -⟩ := serve_read_spec o c hop hcontent hm.count
    exact ⟨_, hserve, hok⟩
  · obtain ⟨s, hserve, -, hs⟩ := serve_write_spec o hop hm.count hok
    exact ⟨_, hserve, hs⟩

/-- Requests are served one after another without a fault. -/
theorem serveAll_wfdOk {reqs : List (Outcome × Message)} {c : Child} (hreqs : ∀ r ∈ reqs, IsRequest r.2)
    (hok : WfdOk c.server) : ∃ c', serveAll reqs c = some c' ∧ WfdOk c'.server := by
  induction reqs generalizing c with
  | nil => exact ⟨c, rfl, hok⟩
  | cons r reqs ih =>
    obtain ⟨o, m⟩ := r
    obtain ⟨c', hserve, hok'⟩ := serve_wfdOk o (hreqs _ List.mem_cons_self) hok
    obtain ⟨c'', hall, hok''⟩ := ih (fun r hr => hreqs r (List.mem_cons_of_mem _ hr)) hok'
    exact ⟨c'', by rw [serveAll, hserve, Option.bind_some, hall], hok''⟩

/-- **When the requests of a connection are independent.** For every sequence of requests with counts of at most 1024 to
a fresh child, every request is served and does the same as the first of a fresh connection over the same files, if and
only if every request meets its condition in the state it finds. -/
theorem requests_independent_iff (fs : FileSys) {reqs : List (Outcome × Message)} (hreqs : ∀ r ∈ reqs, IsRequest r.2) :
    (∀ before o m after, reqs = before ++ (o, m) :: after →
      ∃ c, serveAll before (.fresh fs) = some c ∧ SameAsFirst o c m) ↔
      ∀ before o m after, reqs = before ++ (o, m) :: after →
        ∀ c, serveAll before (.fresh fs) = some c → Independent o c m := by
  have hstate (before : List (Outcome × Message)) (o : Outcome) (m : Message) (after : List (Outcome × Message))
      (h : reqs = before ++ (o, m) :: after) :
      IsRequest m ∧ ∃ c, serveAll before (.fresh fs) = some c ∧ WfdOk c.server := by
    subst h
    refine ⟨hreqs (o, m) (by simp), serveAll_wfdOk (fun r hr => hreqs r (List.mem_append_left _ hr)) ?_⟩
    exact fun fd hfd => (by cases hfd)
  constructor
  · intro h before o m after heq c hc
    obtain ⟨hm, c₁, hc₁, hok⟩ := hstate before o m after heq
    obtain ⟨c₂, hc₂, hsame⟩ := h before o m after heq
    cases hc₁.symm.trans hc
    cases hc₂.symm.trans hc
    exact (same_iff hm hok).mp hsame
  · intro h before o m after heq
    obtain ⟨hm, c, hc, hok⟩ := hstate before o m after heq
    exact ⟨c, hc, (same_iff hm hok).mpr (h before o m after heq c hc)⟩

/-- A request to read the first byte of a file with a name of one byte. -/
def readByte (b : U8) : Message :=
  { Message.zero with
    opcode := opRead
    count := 1
    nameLen := 1
    name := ⟨b :: List.replicate 254 0, by rw [List.length_cons, List.length_replicate]; rfl⟩ }

theorem readByte_isRequest (b : U8) : IsRequest (readByte b) :=
  ⟨.inl ⟨rfl, rfl⟩, show (1 : U64).toNat ≤ bufSize by decide⟩

/-- A READ request for the file `a` twice: each of the two does the same as a first one. -/
theorem requests_independent_iff_twice :
    let fs : FileSys := Function.update (fun _ => none) [97] (some [1])
    let o : Outcome := ⟨true, .cut 1023, []⟩
    ∀ before o' m after, [(o, readByte 97), (o, readByte 97)] = before ++ (o', m) :: after →
      ∃ c, serveAll before (.fresh fs) = some c ∧ SameAsFirst o' c m := by
  intro fs o
  have hreqs : ∀ r ∈ [(o, readByte 97), (o, readByte 97)], IsRequest r.2 := fun r hr => by
    obtain rfl : r = (o, readByte 97) := by simpa using hr
    exact readByte_isRequest 97
  have hpath : (readByte 97).path = [97] := by decide +kernel
  -- whatever is open for reading is the file `a`
  have hreads {c : Child} (hfile : c.server.fs [97] = some [1])
      (hopen : ∀ fd, c.server.rfd = some fd → fd.name = [97]) : Independent o c (readByte 97) := by
    have hbytes (fd : Fd) (k : ℕ) (hname : fd.name = [97]) :
        nextBytes c.server.fs fd (readByte 97) k = nextBytes c.server.fs ⟨(readByte 97).path, 0⟩ (readByte 97) k := by
      simp only [nextBytes, content, hname, hpath]
      rfl
    have hcan : CanRead o c.server.fs (readByte 97) := ⟨rfl, by rw [hpath, hfile]; exact Option.some_ne_none _⟩
    refine ⟨fun fd k hfd _ => ⟨hcan, hbytes fd k (hopen fd hfd)⟩, fun hnone => absurd (hnone 1023 rfl hcan) ?_⟩
    simp only [nextBytes, content, hpath, hfile]
    decide
  refine (requests_independent_iff fs hreqs).mpr fun before o' m after hsplit c hc => ?_
  cases before with
  | nil =>
    cases hsplit
    cases hc
    have hstart : (Child.fresh fs).server.fs [97] = some [1] := by decide
    exact hreads hstart fun fd hfd => (by cases hfd)
  | cons r before =>
    cases before with
    | nil =>
      cases hsplit
      have hfirst : (serveAll [(o, readByte 97)] (.fresh fs)).map (fun c => (c.server.rfd, c.server.fs [97])) =
          some (some ⟨[97], 1⟩, some [1]) := by
        decide +kernel
      rw [hc, Option.map_some, Option.some.injEq, Prod.mk.injEq] at hfirst
      refine hreads hfirst.2 fun fd hfd => ?_
      cases hfirst.1.symm.trans hfd
      rfl
    | cons r' before => simp at hsplit

/-- A READ request for `b` after one for `a` reads `a`. -/
theorem second_name_ignored :
    let fs : FileSys := Function.update (Function.update (fun _ => none) [97] (some [1])) [98] (some [2])
    let o : Outcome := ⟨true, .cut 1023, []⟩
    IsRequest (readByte 97) ∧ IsRequest (readByte 98) ∧
      ∃ c, serveAll [(o, readByte 97)] (.fresh fs) = some c ∧ ¬ SameAsFirst o c (readByte 98) := by
  intro fs o
  refine ⟨readByte_isRequest 97, readByte_isRequest 98, ?_⟩
  have hreqs : ∀ r ∈ [(o, readByte 97)], IsRequest r.2 := fun r hr => by
    rw [List.mem_singleton.mp hr]
    exact readByte_isRequest 97
  obtain ⟨c, hc, hok⟩ := serveAll_wfdOk (c := .fresh fs) hreqs fun fd hfd => (by cases hfd)
  refine ⟨c, hc, fun hsame => ?_⟩
  have hfirst : (serveAll [(o, readByte 97)] (.fresh fs)).map
      (fun c => (c.server.rfd, c.server.fs [97], c.server.fs [98])) =
      some (some ⟨[97], 1⟩, some [1], some [2]) := by
    decide +kernel
  rw [hc, Option.map_some, Option.some.injEq, Prod.mk.injEq, Prod.mk.injEq] at hfirst
  obtain ⟨hrfd, ha, hb⟩ := hfirst
  have hind := (read_same_iff rfl rfl (readByte_isRequest 98).count).mp hsame
  have hpath : (readByte 98).path = [98] := by decide +kernel
  have hbytes := (hind.file _ 1023 hrfd rfl).2
  simp only [nextBytes, content, hpath, ha, hb] at hbytes
  exact absurd hbytes (by decide)

end CoupledCC.Transfer
