import CoupledCC.Transfer.Copy

/-!
# What the slow transfer copies

Runs of `copy` in which no read and no write of the server fails; they may be short.

- `copyTurn_step`: a turn copies the next bytes, at least one, or ends the run at the end of the source (`CopyInv`);
- `copy_copies_iff`: the run ends with `OK` and a copy of the source exactly when the destination was not there and
  both files could be opened: the flags of `do_write` contain `O_EXCL`.
-/

namespace CoupledCC.Transfer

open Word Bytes Files

/-- No read and no write of the turn fails. -/
structure Turn.NoFailure (t : Turn) : Prop where
  read : t.read.io ≠ .fail
  write : t.write.io ≠ .fail

/-- The environment lets the calls of `open` pass that the turn makes. -/
structure Turn.MayOpen (t : Turn) (s : Server) : Prop where
  read : s.rfd = none → t.read.opens = true
  write : s.wfd = none → t.write.opens = true

/-- The destination holds the first `p` bytes of the source; before the first write it may not be there yet. -/
def DestInv (s : Server) (dst : Name) (source : List U8) (p : ℕ) : Prop :=
  s.wfd = none ∧ s.fs dst = none ∧ p = 0 ∨
    (∃ pos, s.wfd = some ⟨dst, pos⟩) ∧ s.fs dst = some (source.take p)

/-- Between two turns the client has come to byte `p` of the source. -/
structure SourceInv (src : Name) (source : List U8) (p : ℕ) (s : Copy) : Prop where
  status : s.status = .running
  position : s.position.toNat = p
  le : p ≤ source.length
  reply : ReplyOk s.child.m2
  file : s.child.server.fs src = some source
  rfd : ∀ fd, s.child.server.rfd = some fd → fd.name = src

/-- Between two turns: the first `p` bytes of the source have been copied. -/
structure CopyInv (src dst : Name) (source : List U8) (p : ℕ) (s : Copy) : Prop extends SourceInv src source p s where
  ne : src ≠ dst
  dest : DestInv s.child.server dst source p

/-! ## Reading -/

/-- The number of bytes a read of a buffer full gives, `p` bytes into a source, cut after `k + 1`. -/
def readLen (source : List U8) (p k : ℕ) : ℕ :=
  min (min bufSize (source.length - p)) (k + 1)

theorem length_sub_readLen (source : List U8) (p k : ℕ) :
    (sub source p (readLen source p k)).length = readLen source p k := by
  simp only [sub, List.length_take, List.length_drop, readLen]
  omega

/-- A READ request gets the next bytes of the source. -/
theorem readBytes_source {o : Outcome} {s : Server} {m : Message} {src : Name} {source : List U8} {p k : ℕ}
    (hsource : s.fs src = some source) (hrfd : ∀ fd, s.rfd = some fd → fd.name = src)
    (hopens : s.rfd = none → o.opens = true) (hio : o.io = .cut k) (hpath : m.path = src)
    (hcount : m.count = BitVec.ofNat 64 bufSize) (hoffset : m.offset.toNat = p) (hp : p < 2 ^ 63) :
    readBytes o s m = some (sub source p (readLen source p k)) ∧
      ∃ pos, descriptor s.rfd o.opens readFlags m.path s.fs = some (s.fs, ⟨src, pos⟩) := by
  obtain ⟨pos, hfd⟩ : ∃ pos, descriptor s.rfd o.opens readFlags m.path s.fs = some (s.fs, ⟨src, pos⟩) := by
    cases hr : s.rfd with
    | some fd => exact ⟨fd.pos, by rw [← hrfd fd hr]; rfl⟩
    | none => exact ⟨0, by simp [descriptor, openFile_existing readFlags_creat, hopens hr, hpath, hsource]⟩
  have hsize : m.count.toNat = bufSize := by
    rw [hcount]
    rfl
  have hnext : nextBytes s.fs ⟨src, pos⟩ m k = sub source p (readLen source p k) := by
    rw [nextBytes, Fd.lseek_of_lt _ hoffset hp, content, hsource, Option.getD_some, hsize]
    show (source.drop p).take _ = (source.drop p).take _
    rw [List.take_eq_take_iff, List.length_drop, readLen]
    omega
  exact ⟨by simp only [readBytes, hfd, hio, hnext], pos, hfd⟩

/-! ## Writing -/

/-- The number of bytes a write of `n` bytes writes, cut after `k + 1`. -/
def writeLen (n k : ℕ) : ℕ :=
  min n (k + 1)

/-- Writing the next bytes of the source after its first `p`. -/
theorem writeFile_source {fs : FileSys} {dst : Name} {source : List U8} {p n : ℕ} (k : ℕ)
    (hdest : fs dst = some (source.take p)) (hn : p + n ≤ source.length) (hlen : source.length < 2 ^ 63) :
    ∃ fs', writeFile fs ⟨dst, p⟩ (sub source p n) (.cut k) = some (fs', ⟨dst, p + writeLen n k⟩, writeLen n k) ∧
      fs' dst = some (source.take (p + writeLen n k)) ∧ ∀ name, name ≠ dst → fs' name = fs name := by
  have hsub : (sub source p n).length = n := length_sub hn
  rcases Nat.eq_zero_or_pos n with rfl | hpos
  · have hzero : writeLen 0 k = 0 := Nat.zero_min _
    refine ⟨fs, ?_, by rw [hzero, Nat.add_zero, hdest], fun _ _ => rfl⟩
    rw [writeFile, if_pos hsub, hzero]
    simp only [Io.transfer, Nat.zero_min, Option.map_some, Nat.add_zero]
  · have hroom : p + n ≤ maxOffset := by
      have hmax : maxOffset = 2 ^ 63 - 1 := rfl
      omega
    have hsome : ¬ (sub source p n).length = 0 := by omega
    have hbelow : ¬ maxOffset ≤ (⟨dst, p⟩ : Fd).pos := by
      show ¬ maxOffset ≤ p
      omega
    have hmin : min n (maxOffset - p) = n := Nat.min_eq_left (by omega)
    have htake : (sub source p n).take (writeLen n k) = sub source p (writeLen n k) := by
      rw [sub, sub, List.take_take, writeLen, Nat.min_eq_left (Nat.min_le_left _ _)]
    have hcontent : content fs dst = source.take p := by
      rw [content, hdest]
      rfl
    refine ⟨Function.update fs dst (some (source.take (p + writeLen n k))), ?_,
      Function.update_self _ _ _, fun name hne =>
      Function.update_of_ne hne _ _⟩
    rw [writeFile, if_neg hsome, if_neg hbelow]
    simp only [hsub, hmin, Io.transfer, Option.map_some]
    rw [← writeLen, htake, hcontent, overwrite_take (by omega)]

/-- `do_write` has the destination open, and creates it if it was not there. -/
theorem descriptor_write {s : Server} {dst : Name} {source : List U8} {p : ℕ} {opens : Bool}
    (h : DestInv s dst source p) (hopens : s.wfd = none → opens = true) :
    ∃ fs fd, descriptor s.wfd opens writeFlags dst s.fs = some (fs, fd) ∧ fd.name = dst ∧
      fs dst = some (source.take p) ∧ ∀ name, name ≠ dst → fs name = s.fs name := by
  rcases h with ⟨hwfd, hfs, rfl⟩ | ⟨⟨pos, hwfd⟩, hfs⟩
  · refine ⟨Function.update s.fs dst (some []), ⟨dst, 0⟩, ?_, rfl, Function.update_self _ _ _, fun name hne =>
      Function.update_of_ne hne _ _⟩
    rw [hwfd]
    exact (openFile_writeFlags opens dst s.fs).trans (if_pos ⟨hopens hwfd, hfs⟩)
  · exact ⟨s.fs, ⟨dst, pos⟩, by rw [hwfd]; rfl, rfl, hfs, fun _ _ => rfl⟩

/-- `do_write` appends the next bytes of the source. -/
theorem doWrite_source {o : Outcome} {s : Server} {m1 : Message} {dst : Name} {source : List U8} {p n k : ℕ}
    (hdest : DestInv s dst source p) (hopens : s.wfd = none → o.opens = true) (hio : o.io = .cut k)
    (hpath : m1.path = dst) (hcount : m1.count = BitVec.ofNat 64 n) (hoffset : m1.offset.toNat = p) (hn : n ≤ bufSize)
    (hdata : sub m1.data.bytes 0 n = sub source p n) (hle : p + n ≤ source.length) (hlen : source.length < 2 ^ 63) :
    ∃ fs pos, doWrite o s m1 = some ({ s with fs := fs, wfd := some ⟨dst, pos⟩ }, (writeLen n k : ℤ)) ∧
      fs dst = some (source.take (p + writeLen n k)) ∧ ∀ name, name ≠ dst → fs name = s.fs name := by
  obtain ⟨fs₁, fd, hfd, hname, hfirst, hother⟩ := descriptor_write hdest hopens
  obtain ⟨fs₂, hwrite, hnext, hother'⟩ := writeFile_source k hfirst hle hlen
  have hnat : m1.count.toNat = n := by
    have hsize : bufSize = 1024 := rfl
    rw [hcount, BitVec.toNat_ofNat, Nat.mod_eq_of_lt (by omega)]
  rw [← hpath] at hfd
  have houtcome : writeOutcome o s m1 = (fs₂, (writeLen n k : ℤ)) := by
    simp only [writeOutcome, hfd, fd.lseek_of_lt hoffset (by omega), hname, hnat, hdata, hio, hwrite]
  obtain ⟨wfd, hdo, -, hwfd⟩ := doWrite_spec o s (hnat.le.trans hn)
  obtain ⟨pos, hpos⟩ := hwfd _ _ hfd
  refine ⟨fs₂, pos, ?_, hnext, fun name hne => (hother' name hne).trans (hother name hne)⟩
  rw [hdo, houtcome, hpos, hname]

/-! ## Turns -/

/-- After the first half of a turn: the reply to the READ request carries the next `n` bytes of the source. -/
structure NextRead (src : Name) (source : List U8) (p n : ℕ) (s : Server) (c : Child) : Prop where
  fs : c.server.fs = s.fs
  wfd : c.server.wfd = s.wfd
  rfd : ∃ pos, c.server.rfd = some ⟨src, pos⟩
  reply : ReplyOk c.m2
  le : n ≤ bufSize
  result : c.m2.result = BitVec.ofNat 64 n
  data : sub c.m2.trim.data.bytes 0 n = sub source p n

theorem NextRead.toNat_result {src : Name} {source : List U8} {p n : ℕ} {s : Server} {c : Child}
    (h : NextRead src source p n s c) : c.m2.result.toNat = n := by
  have hle := h.le
  have hsize : bufSize = 1024 := rfl
  rw [h.result, BitVec.toNat_ofNat, Nat.mod_eq_of_lt (by omega)]

/-- After the second half of a turn: `w` bytes of the source have been appended to the destination. -/
structure NextWrite (dst : Name) (source : List U8) (p w : ℕ) (s : Server) (c : Child) : Prop where
  wfd : ∃ pos, c.server.wfd = some ⟨dst, pos⟩
  dest : c.server.fs dst = some (source.take (p + w))
  other : ∀ name, name ≠ dst → c.server.fs name = s.fs name
  rfd : c.server.rfd = s.rfd
  reply : ReplyOk c.m2
  result : c.m2.result = BitVec.ofInt 64 w

/-- The first half of a turn. -/
theorem copyTurn_reads {src dst : Name} {source : List U8} {p : ℕ} {t : Turn} {s : Copy} (hsrc : GoodName src)
    (hlen : source.length < 2 ^ 63) (ht : t.NoFailure) (h : SourceInv src source p s)
    (hopens : s.child.server.rfd = none → t.read.opens = true) :
    ∃ k passed c, NextRead src source p (readLen source p k) s.child.server c ∧
      copyTurn src dst t s = copyWrite dst t.write { s with child := c, passed := passed } c.m2.trim := by
  obtain ⟨k, hk⟩ := Io.exists_cut ht.read
  obtain ⟨m, c, hm, hserve, hc, hturn⟩ := copyTurn_read dst t hsrc h.status h.reply
  have hop : ({ s.child with m1 := m.trim } : Child).m1.opcode = opRead := hm.opcode
  obtain ⟨s', m2', r, hread, hceq⟩ := serve_read hop hserve
  have hoffset : m.trim.offset.toNat = p := (congrArg BitVec.toNat hm.offset).trans h.position
  have hp : p < 2 ^ 63 := lt_of_le_of_lt h.le hlen
  obtain ⟨hbytes, pos, hfd⟩ := readBytes_source h.file h.rfd hopens hk hm.path hm.count hoffset hp
  have hcontent : m.trim.sendFileContent = 0 := hm.content
  obtain ⟨rfd, data, hspec, hdata, hrfd⟩ := doRead_spec t.read s.child.server s.child.m2 hcontent
    ((wellFormed_iff m).mp hm.wellFormed).2
  rw [hbytes] at hspec
  cases hread.symm.trans hspec
  have hgot := hdata _ hbytes
  have hlen' := length_sub_readLen source p k
  rw [hlen'] at hgot
  have hle : readLen source p k ≤ bufSize := (Nat.min_le_left _ _).trans (Nat.min_le_left _ _)
  have hsize : bufSize = 1024 := rfl
  refine ⟨k, _, c, ⟨by rw [hceq], by rw [hceq], ?_, hc, hle, ?_, ?_⟩, hturn⟩
  · rw [hceq]
    exact hrfd _ _ hfd
  · rw [hceq]
    show BitVec.ofInt 64 ((sub source p (readLen source p k)).length : ℤ) = _
    rw [hlen', BitVec.ofInt_natCast]
  · have hcount : readLen source p k ≤ c.m2.count.toNat := by
      rw [hceq]
      simp only [putResult, readResult, hlen']
      split
      · rw [toNat_ofInt_natCast (by omega)]
      · omega
    rw [Message.trim, Buffer.sub_trim _ hcount, hceq]
    exact hgot

/-- The second half of a turn. -/
theorem copyWrite_writes {src dst : Name} {source : List U8} {p n : ℕ} {o : Outcome} {s₀ : Server} {s : Copy}
    (hdst : GoodName dst) (hlen : source.length < 2 ^ 63) (hio : o.io ≠ .fail)
    (hread : NextRead src source p n s₀ s.child)
    (hdest : DestInv s.child.server dst source p) (hposition : s.position.toNat = p) (hle : p + n ≤ source.length)
    (hopens : s.child.server.wfd = none → o.opens = true) :
    ∃ j passed c, NextWrite dst source p (writeLen n j) s.child.server c ∧
      copyWrite dst o s s.child.m2.trim =
        { child := c
          position := s.position + c.m2.result
          status :=
            if 0 < c.m2.result.toInt then .running
            else .returned (if 0 ≤ c.m2.result.toInt then resultOk else c.m2.result.toInt)
          passed := passed } := by
  obtain ⟨j, hj⟩ := Io.exists_cut hio
  have hnat := hread.toNat_result
  obtain ⟨m, c, hm, -, hserve, hc, hwrite⟩ := copyWrite_spec o hdst hread.reply hread.reply (hnat.le.trans hread.le)
  have hop : ({ s.child with m1 := m.trim } : Child).m1.opcode = opWrite := hm.opcode
  obtain ⟨s', r, hdo, hceq⟩ := serve_write hop hserve
  have hcount : m.trim.count = BitVec.ofNat 64 n := hm.count.trans hread.result
  have hdata : sub m.trim.data.bytes 0 n = sub source p n := by
    have hfirst : n ≤ m.count.toNat := by rw [hm.count, hnat]
    exact (Buffer.sub_trim m.data hfirst).trans (hm.data ▸ hread.data)
  have hoffset : m.trim.offset.toNat = p := (congrArg BitVec.toNat hm.offset).trans hposition
  obtain ⟨fs, pos, hdo', hnext, hother⟩ :=
    doWrite_source hdest hopens hj hm.path hcount hoffset hread.le hdata hle hlen
  cases hdo.symm.trans hdo'
  refine ⟨j, _, c, ⟨?_, ?_, ?_, ?_, hc, ?_⟩, hwrite⟩
  · rw [hceq]
    exact ⟨pos, rfl⟩
  · rw [hceq]
    exact hnext
  · rw [hceq]
    exact hother
  · rw [hceq]
  · rw [hceq]
    rfl

/-- **A turn** copies the next bytes of the source, at least one; at the end of the source it ends the run. -/
theorem copyTurn_step {src dst : Name} {source : List U8} {p : ℕ} {t : Turn} {s : Copy} (hsrc : GoodName src)
    (hdst : GoodName dst) (hlen : source.length < 2 ^ 63) (ht : t.NoFailure) (h : CopyInv src dst source p s)
    (hopens : t.MayOpen s.child.server) :
    (p < source.length → ∃ w, 0 < w ∧ CopyInv src dst source (p + w) (copyTurn src dst t s) ∧
        ∀ t' : Turn, t'.MayOpen (copyTurn src dst t s).child.server) ∧
      (p = source.length → (copyTurn src dst t s).status = .returned resultOk ∧
        (copyTurn src dst t s).child.server.fs dst = some source) := by
  obtain ⟨k, passed, c, hread, hturn⟩ := copyTurn_reads hsrc hlen ht h.toSourceInv hopens.read
  have hsize : bufSize = 1024 := rfl
  have hle : p + readLen source p k ≤ source.length := by
    have hp := h.le
    rw [readLen]
    omega
  have hdest : DestInv c.server dst source p := by
    rw [DestInv, hread.fs, hread.wfd]
    exact h.dest
  obtain ⟨j, passed', c', hnext, hwrite⟩ := copyWrite_writes (s := { s with child := c, passed := passed }) hdst hlen
    ht.write hread hdest h.position hle (fun hnone => hopens.write (hread.wfd ▸ hnone))
  have hcut : writeLen (readLen source p k) j ≤ readLen source p k := Nat.min_le_left _ _
  have hn := hread.le
  have hsigned : c'.m2.result.toInt = writeLen (readLen source p k) j := by
    rw [hnext.result, toInt_ofInt_natCast (by omega)]
  have hunsigned : c'.m2.result.toNat = writeLen (readLen source p k) j := by
    rw [hnext.result, toNat_ofInt_natCast (by omega)]
  rw [hturn, hwrite]
  constructor
  · intro hlt
    have hpos : 0 < writeLen (readLen source p k) j := by
      rw [writeLen, readLen]
      omega
    obtain ⟨pos, hrfd⟩ := hread.rfd
    obtain ⟨pos', hwfd⟩ := hnext.wfd
    have hrfd' : c'.server.rfd = some ⟨src, pos⟩ := hnext.rfd.trans hrfd
    refine ⟨writeLen (readLen source p k) j, hpos, ⟨⟨?_, ?_, by omega, hnext.reply, ?_, ?_⟩, h.ne, ?_⟩, ?_⟩
    · rw [if_pos (by omega)]
    · show (s.position + c'.m2.result).toNat = _
      rw [BitVec.toNat_add, hunsigned, h.position, Nat.mod_eq_of_lt (by omega)]
    · exact (hnext.other src h.ne).trans ((congrFun hread.fs src).trans h.file)
    · intro fd hfd
      cases hrfd'.symm.trans hfd
      rfl
    · exact .inr ⟨⟨pos', hwfd⟩, hnext.dest⟩
    · intro t'
      constructor
      · intro hnone
        cases hrfd'.symm.trans hnone
      · intro hnone
        cases hwfd.symm.trans hnone
  · intro heq
    have hzero : writeLen (readLen source p k) j = 0 := by
      rw [writeLen, readLen]
      omega
    have hdone := hnext.dest
    rw [hzero] at hsigned hdone
    constructor
    · rw [if_neg (by omega), if_pos (by omega)]
    · rw [hdone, Nat.add_zero, heq, List.take_length]

/-! ## Runs -/

/-- The run ends from any point of the source on. -/
theorem copyRun_ends {src dst : Name} {source : List U8} {turns : ℕ → Turn} {fs : FileSys} (hsrc : GoodName src)
    (hdst : GoodName dst) (hlen : source.length < 2 ^ 63) (ht : ∀ n, (turns n).NoFailure) {n p : ℕ}
    (h : CopyInv src dst source p (copyRun src dst turns fs n))
    (hopens : (turns n).MayOpen (copyRun src dst turns fs n).child.server) :
    ∃ n', (copyRun src dst turns fs n').status = .returned resultOk ∧
      (copyRun src dst turns fs n').child.server.fs dst = some source := by
  induction hrest : source.length - p using Nat.strong_induction_on generalizing n p with
  | _ rest ih =>
    obtain ⟨hnext, hlast⟩ := copyTurn_step hsrc hdst hlen (ht n) h hopens
    rcases Nat.lt_or_eq_of_le h.le with hlt | heq
    · obtain ⟨w, hw, hinv, hopens'⟩ := hnext hlt
      have hless : source.length - (p + w) < rest := hrest ▸ Nat.sub_lt_sub_left hlt (Nat.lt_add_of_pos_right hw)
      exact ih _ hless (n := n + 1) hinv (hopens' _) rfl
    · exact ⟨n + 1, hlast heq⟩

/-- A run over a file that is there starts at its first byte. -/
theorem copyRun_start {src : Name} (dst : Name) {source : List U8} (turns : ℕ → Turn) {fs : FileSys}
    (hfs : fs src = some source) : SourceInv src source 0 (copyRun src dst turns fs 0) :=
  ⟨rfl, rfl, Nat.zero_le _, replyOk_zero, hfs, fun _ h => by cases h⟩

/-- A destination that cannot be opened, or is there already as its creation is exclusive: the first turn returns an
error and leaves the files as they are. -/
theorem copyTurn_existing {src dst : Name} {source : List U8} {p : ℕ} {t : Turn} {s : Copy} (hsrc : GoodName src)
    (hdst : GoodName dst) (hlen : source.length < 2 ^ 63) (ht : t.NoFailure) (h : SourceInv src source p s)
    (hread : t.read.opens = true) (hwfd : s.child.server.wfd = none)
    (hnot : ¬ (s.child.server.fs dst = none ∧ t.write.opens = true)) :
    (copyTurn src dst t s).status = .returned eIo ∧ (copyTurn src dst t s).child.server.fs = s.child.server.fs := by
  obtain ⟨k, passed, c, hread, hturn⟩ := copyTurn_reads hsrc hlen ht h fun _ => hread
  obtain ⟨m, c', hm, -, hserve, -, hwrite⟩ := copyWrite_spec t.write (s := { s with child := c, passed := passed })
    hdst hread.reply hread.reply (hread.toNat_result.le.trans hread.le)
  have hop : ({ c with m1 := m.trim } : Child).m1.opcode = opWrite := hm.opcode
  obtain ⟨s', r, hdo, hceq⟩ := serve_write hop hserve
  have hfd : descriptor c.server.wfd t.write.opens writeFlags m.trim.path c.server.fs = none := by
    rw [hread.wfd, hwfd, hm.path, hread.fs]
    exact (openFile_writeFlags _ _ _).trans (if_neg fun h => hnot ⟨h.2, h.1⟩)
  have hsame : s' = c.server ∧ r = eIo := by
    unfold doWrite at hdo
    simp only [hfd] at hdo
    cases hdo
    exact ⟨rfl, rfl⟩
  have hsigned : c'.m2.result.toInt = eIo := by
    rw [hceq, hsame.2]
    show (BitVec.ofInt 64 eIo).toInt = eIo
    decide
  rw [hturn, hwrite]
  constructor
  · simp only [hsigned]
    decide
  · rw [hceq, hsame.1]
    exact hread.fs

/-- A run to a destination that is not there, with both files opened, ends with a copy of the source. -/
theorem copyRun_fresh {src dst : Name} {source : List U8} {turns : ℕ → Turn} {fs : FileSys} (hsrc : GoodName src)
    (hdst : GoodName dst) (hlen : source.length < 2 ^ 63) (ht : ∀ n, (turns n).NoFailure) (hfs : fs src = some source)
    (hnone : fs dst = none) (hread : (turns 0).read.opens = true) (hwrite : (turns 0).write.opens = true) :
    ∃ n, (copyRun src dst turns fs n).status = .returned resultOk ∧
      (copyRun src dst turns fs n).child.server.fs dst = some source := by
  have hne : src ≠ dst := by
    rintro rfl
    rw [hfs] at hnone
    cases hnone
  have hinv : CopyInv src dst source 0 (copyRun src dst turns fs 0) :=
    ⟨copyRun_start dst turns hfs, hne, .inl ⟨rfl, hnone, rfl⟩⟩
  exact copyRun_ends hsrc hdst hlen ht hinv ⟨fun _ => hread, fun _ => hwrite⟩

/-- The first turn crashes when the source cannot be opened, and returns an error when the destination cannot be opened
or is there already. -/
theorem copyTurn_refused {src dst : Name} {source : List U8} {p : ℕ} {t : Turn} {s : Copy} (hsrc : GoodName src)
    (hdst : GoodName dst) (hlen : source.length < 2 ^ 63) (ht : t.NoFailure) (h : SourceInv src source p s)
    (hrfd : s.child.server.rfd = none) (hwfd : s.child.server.wfd = none)
    (hnot : ¬ (s.child.server.fs dst = none ∧ t.read.opens = true ∧ t.write.opens = true)) :
    (copyTurn src dst t s).status = .crashed ∨ (copyTurn src dst t s).status = .returned eIo := by
  by_cases hopens : t.read.opens = true
  · exact .inr (copyTurn_existing hsrc hdst hlen ht h hopens hwfd fun h => hnot ⟨h.1, hopens, h.2⟩).1
  · left
    obtain ⟨m, c, hm, hserve, hc, hturn⟩ := copyTurn_read dst t hsrc h.status h.reply
    have hfails : ¬ ReadSucceeds t.read s.child.server src := by
      rintro ⟨hfd | ⟨hopens', -⟩, -⟩
      · exact hfd hrfd
      · exact hopens hopens'
    have hfits : ¬ c.m2.result.toNat ≤ bufSize := fun hle => hfails ((read_fits_iff hm hserve).mp hle)
    obtain ⟨m', -, hwrite⟩ := copyWrite_fault t.write
      (s := { s with child := c, passed := s.passed ++ [m, c.m2] }) hdst hc hfits
    rw [hturn, hwrite]

/-- A run that has ended stays as it is. -/
theorem copyRun_ended {src dst : Name} {turns : ℕ → Turn} {fs : FileSys} {n m : ℕ}
    (h : (copyRun src dst turns fs n).status ≠ .running) (hle : n ≤ m) :
    copyRun src dst turns fs m = copyRun src dst turns fs n := by
  induction m, hle using Nat.le_induction with
  | base => rfl
  | succ m _ ih => rw [copyRun, ih, copyTurn_ended h]

/-- A run whose first turn does not open both files does not return `OK`. -/
theorem copyRun_refused {src dst : Name} {source : List U8} {turns : ℕ → Turn} {fs : FileSys} (hsrc : GoodName src)
    (hdst : GoodName dst) (hlen : source.length < 2 ^ 63) (ht : ∀ n, (turns n).NoFailure) (hfs : fs src = some source)
    (hnot : ¬ (fs dst = none ∧ (turns 0).read.opens = true ∧ (turns 0).write.opens = true)) (n : ℕ) :
    (copyRun src dst turns fs n).status ≠ .returned resultOk := by
  have hfirst := copyTurn_refused hsrc hdst hlen (ht 0) (copyRun_start dst turns hfs) rfl rfl hnot
  have hended : (copyRun src dst turns fs 1).status ≠ .running := by
    rcases hfirst with h | h <;> exact h ▸ Status.noConfusion
  cases n with
  | zero => exact Status.noConfusion
  | succ n =>
    rw [copyRun_ended hended (Nat.le_add_left 1 n)]
    rcases hfirst with h | h
    · exact h ▸ Status.noConfusion
    · exact h ▸ fun heq => absurd (Status.returned.inj heq) (by decide)

/-- The destination holds the source, and what it held past the length of the source is as before. -/
def Copied (source before after : List U8) : Prop :=
  (∀ i, i < source.length → after[i]? = source[i]?) ∧ after.drop source.length = before.drop source.length

/-- **When a file is copied.** For every source file, with reads and writes that do not fail but may be short, the run
ends with `OK` and a copy of the source in the destination if and only if the destination was not there before and the
environment lets the first turn open both files. -/
theorem copy_copies_iff {src dst : Name} {source : List U8} {fs : FileSys} (hsrc : GoodName src) (hdst : GoodName dst)
    (hfs : fs src = some source) (hlen : source.length < 2 ^ 63) (turns : ℕ → Turn) (ht : ∀ n, (turns n).NoFailure) :
    (∃ n, (copyRun src dst turns fs n).status = .returned resultOk ∧
      ∃ after, (copyRun src dst turns fs n).child.server.fs dst = some after ∧
        Copied source (content fs dst) after) ↔
      fs dst = none ∧ (turns 0).read.opens = true ∧ (turns 0).write.opens = true := by
  constructor
  · rintro ⟨n, hok, -⟩
    by_contra hnot
    exact copyRun_refused hsrc hdst hlen ht hfs hnot n hok
  · rintro ⟨hnone, hread, hwrite⟩
    obtain ⟨n, hok, hcopy⟩ := copyRun_fresh hsrc hdst hlen ht hfs hnone hread hwrite
    refine ⟨n, hok, source, hcopy, fun _ _ => rfl, ?_⟩
    have hbefore : content fs dst = [] := by
      rw [content, hnone]
      rfl
    rw [hbefore, List.drop_length, List.drop_nil]

/-- A file `a` of three bytes copied to a new file `b`, two bytes at a time. -/
theorem copy_copies_iff_three :
    let fs : FileSys := Function.update (fun _ => none) [97] (some [1, 2, 3])
    let turns (_ : ℕ) : Turn := ⟨⟨true, .cut 1, []⟩, ⟨true, .cut 1, []⟩⟩
    (∃ n, (copyRun [97] [98] turns fs n).status = .returned resultOk ∧
      ∃ after, (copyRun [97] [98] turns fs n).child.server.fs [98] = some after ∧
        Copied [1, 2, 3] (content fs [98]) after) ↔
      fs [98] = none ∧ (turns 0).read.opens = true ∧ (turns 0).write.opens = true := by
  intro fs turns
  have hsrc : GoodName [97] := .single (by decide)
  have hdst : GoodName [98] := .single (by decide)
  have hfs : fs [97] = some [1, 2, 3] := by decide
  exact copy_copies_iff hsrc hdst hfs (by decide) turns fun _ => ⟨Io.noConfusion, Io.noConfusion⟩

/-- A destination that is there: every call of `open` would be let pass, but the client never returns `OK`. -/
theorem existing_destination_fails :
    let fs : FileSys := Function.update (Function.update (fun _ => none) [97] (some [1, 2, 3])) [98] (some [9])
    let turns (_ : ℕ) : Turn := ⟨⟨true, .cut 1023, []⟩, ⟨true, .cut 1023, []⟩⟩
    ∀ n, (copyRun [97] [98] turns fs n).status ≠ .returned resultOk := by
  intro fs turns
  have hsrc : GoodName [97] := .single (by decide)
  have hdst : GoodName [98] := .single (by decide)
  have hfs : fs [97] = some [1, 2, 3] := by decide
  have hthere : fs [98] ≠ none := by decide
  exact copyRun_refused hsrc hdst (by decide) (fun _ => ⟨Io.noConfusion, Io.noConfusion⟩) hfs fun h => hthere h.1

end CoupledCC.Transfer
