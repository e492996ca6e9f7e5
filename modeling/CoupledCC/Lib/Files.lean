import CoupledCC.Lib.Bytes

/-!
# Regular files and descriptors

A file system maps names to contents. The calls of POSIX are modelled with their Linux flag values on regular files:
`open` (`openFile`), `lseek`, `read` (`readFile`) and `write` (`writeFile`). A call may fail or transfer less than asked
for; what it does is a parameter (`Io`).

- `openFile_exclusive`: with `O_CREAT` and `O_EXCL` an existing file is not opened;
- `overwrite_take`: writing the next part of a source after its first part.
-/

namespace Files

open Word Bytes

abbrev Name := List U8

/-- The contents of the files there are. -/
abbrev FileSys := Name → Option (List U8)

/-- An open descriptor: its file and its position. -/
structure Fd where
  name : Name
  pos : ℕ
deriving Repr, DecidableEq

def oRdonly : U32 := 0
def oWronly : U32 := 1
def oCreat : U32 := 0x40
def oExcl : U32 := 0x80
def sIrusr : U32 := 0x100
def sIwusr : U32 := 0x80
def sIrwxu : U32 := 0x1c0

/-- The largest offset of a file. -/
def maxOffset : ℕ := 2 ^ 63 - 1

/-- What a call that transfers bytes does: it fails, or it transfers at most `k + 1` bytes. -/
inductive Io
  | fail
  | cut (k : ℕ)
deriving Repr, DecidableEq

/-- How many of `n` bytes are transferred: one at least, if there are any. -/
def Io.transfer (n : ℕ) : Io → Option ℕ
  | .fail => none
  | .cut k => some (min n (k + 1))

/-- `open`, where `permitted` says whether the environment lets it pass. -/
def openFile (permitted : Bool) (flags : U32) (name : Name) (fs : FileSys) : Option (FileSys × Fd) :=
  if !permitted then none
  else if (fs name).isSome then
    if flags &&& oCreat ≠ 0 ∧ flags &&& oExcl ≠ 0 then none else some (fs, ⟨name, 0⟩)
  else if flags &&& oCreat ≠ 0 then some (Function.update fs name (some []), ⟨name, 0⟩)
  else none

/-- `lseek` with `SEEK_SET`; a negative offset is refused. -/
def Fd.lseek (fd : Fd) (offset : U64) : Fd :=
  if offset.toInt < 0 then fd else { fd with pos := offset.toNat }

def content (fs : FileSys) (name : Name) : List U8 :=
  (fs name).getD []

/-- `read`: the bytes delivered, and the descriptor after them. -/
def readFile (fs : FileSys) (fd : Fd) (count : ℕ) (io : Io) : Option (List U8 × Fd) :=
  (io.transfer (sub (content fs fd.name) fd.pos count).length).map fun n =>
    (sub (content fs fd.name) fd.pos n, { fd with pos := fd.pos + n })

/-- A content with some bytes of it overwritten; a gap before them is filled with zeros. -/
def overwrite (l : List U8) (pos : ℕ) (bytes : List U8) : List U8 :=
  l.take pos ++ List.replicate (pos - l.length) 0 ++ bytes ++ l.drop (pos + bytes.length)

/-- `write`: the number of bytes written, and the file system and the descriptor after them. -/
def writeFile (fs : FileSys) (fd : Fd) (bytes : List U8) (io : Io) : Option (FileSys × Fd × ℕ) :=
  if bytes.length = 0 then (io.transfer 0).map fun n => (fs, fd, n)
  else if maxOffset ≤ fd.pos then none
  else (io.transfer (min bytes.length (maxOffset - fd.pos))).map fun n =>
    (Function.update fs fd.name (some (overwrite (content fs fd.name) fd.pos (bytes.take n))),
      { fd with pos := fd.pos + n }, n)

theorem Io.exists_cut {io : Io} (h : io ≠ .fail) : ∃ k, io = .cut k := by
  cases io with
  | fail => exact absurd rfl h
  | cut k => exact ⟨k, rfl⟩

/-! ## Opening -/

/-- An exclusive creation makes an empty file, and does not open an existing one. -/
theorem openFile_exclusive {flags : U32} (hcreat : flags &&& oCreat ≠ 0) (hexcl : flags &&& oExcl ≠ 0)
    (permitted : Bool) (name : Name) (fs : FileSys) :
    openFile permitted flags name fs =
      if permitted ∧ fs name = none then some (Function.update fs name (some []), ⟨name, 0⟩) else none := by
  unfold openFile
  cases permitted with
  | false => simp
  | true =>
    have hpass : ¬ (!true) = true := by simp
    rw [if_neg hpass]
    by_cases hfs : fs name = none
    · have hnone : ¬ (fs name).isSome := by simp [hfs]
      have hnew : true = true ∧ fs name = none := ⟨rfl, hfs⟩
      rw [if_neg hnone, if_pos hcreat, if_pos hnew]
    · have hsome : (fs name).isSome := Option.isSome_iff_ne_none.mpr hfs
      have hboth : flags &&& oCreat ≠ 0 ∧ flags &&& oExcl ≠ 0 := ⟨hcreat, hexcl⟩
      have hold : ¬ (true = true ∧ fs name = none) := fun h => hfs h.2
      rw [if_pos hsome, if_pos hboth, if_neg hold]

/-- Without creation a file is opened if it is there. -/
theorem openFile_existing {flags : U32} (hcreat : flags &&& oCreat = 0) (permitted : Bool) (name : Name)
    (fs : FileSys) :
    openFile permitted flags name fs = if permitted ∧ fs name ≠ none then some (fs, ⟨name, 0⟩) else none := by
  unfold openFile
  cases permitted with
  | false => simp
  | true => cases h : fs name <;> simp [hcreat]

/-! ## Positions -/

theorem Fd.lseek_name (fd : Fd) (offset : U64) : (fd.lseek offset).name = fd.name := by
  unfold Fd.lseek
  split <;> rfl

/-- A position below `2^63` is taken over by `lseek`. -/
theorem Fd.lseek_of_lt (fd : Fd) {offset : U64} {p : ℕ} (hp : offset.toNat = p) (hlt : p < 2 ^ 63) :
    fd.lseek offset = ⟨fd.name, p⟩ := by
  have hsign : ¬ offset.toInt < 0 := not_neg_of_lt (hp ▸ hlt)
  rw [Fd.lseek, if_neg hsign, hp]

/-! ## Reading -/

/-- A read that does not fail gives the next bytes, and moves on by their number. -/
theorem readFile_cut (fs : FileSys) (fd : Fd) (count k : ℕ) :
    readFile fs fd count (.cut k) =
      some (sub (content fs fd.name) fd.pos (min count (k + 1)),
        { fd with pos := fd.pos + (sub (content fs fd.name) fd.pos (min count (k + 1))).length }) := by
  have hbytes : sub (content fs fd.name) fd.pos (min (sub (content fs fd.name) fd.pos count).length (k + 1)) =
      sub (content fs fd.name) fd.pos (min count (k + 1)) := by
    rw [sub, sub, sub, List.take_eq_take_iff, List.length_take]
    omega
  have hlen : (sub (content fs fd.name) fd.pos (min count (k + 1))).length =
      min (sub (content fs fd.name) fd.pos count).length (k + 1) := by
    rw [sub, sub, List.length_take, List.length_take]
    omega
  simp only [readFile, Io.transfer, Option.map_some]
  rw [hbytes, hlen]

/-! ## Writing -/

/-- When a write fails. -/
theorem writeFile_eq_none_iff (fs : FileSys) (fd : Fd) (bytes : List U8) (io : Io) :
    writeFile fs fd bytes io = none ↔ io = .fail ∨ 0 < bytes.length ∧ maxOffset ≤ fd.pos := by
  unfold writeFile
  by_cases hlen : bytes.length = 0
  · cases io <;> simp [hlen, Io.transfer]
  · have hpos : 0 < bytes.length := Nat.pos_of_ne_zero hlen
    by_cases hmax : maxOffset ≤ fd.pos
    · simp [hlen, hmax, hpos]
    · cases io <;> simp [hlen, hmax, Io.transfer]

/-- What a write writes, and what it leaves as it is. -/
theorem writeFile_spec {fs fs' : FileSys} {fd fd' : Fd} {bytes : List U8} {io : Io} {n : ℕ}
    (h : writeFile fs fd bytes io = some (fs', fd', n)) :
    (∃ k, io = .cut k ∧ n = min (min bytes.length (maxOffset - fd.pos)) (k + 1)) ∧ fd'.name = fd.name ∧
      (fs fd.name ≠ none → fs' fd.name ≠ none) ∧ ∀ name, name ≠ fd.name → fs' name = fs name := by
  cases io with
  | fail =>
    rw [(writeFile_eq_none_iff fs fd bytes .fail).mpr (.inl rfl)] at h
    cases h
  | cut k =>
    unfold writeFile at h
    by_cases hlen : bytes.length = 0
    · rw [if_pos hlen] at h
      cases h
      exact ⟨⟨k, rfl, by rw [hlen]; simp⟩, rfl, id, fun _ _ => rfl⟩
    · rw [if_neg hlen] at h
      by_cases hmax : maxOffset ≤ fd.pos
      · rw [if_pos hmax] at h
        cases h
      · rw [if_neg hmax] at h
        cases h
        exact ⟨⟨k, rfl, rfl⟩, rfl, fun _ => by simp, fun name hne => Function.update_of_ne hne _ _⟩

/-- Writing the next part of a source after its first part. -/
theorem overwrite_take {src : List U8} {p n : ℕ} (hp : p ≤ src.length) :
    overwrite (src.take p) p (sub src p n) = src.take (p + n) := by
  have hlen : (src.take p).length = p := by rw [List.length_take]; omega
  have hfirst : (src.take p).take p = src.take p := by rw [List.take_take, Nat.min_self]
  have hlast : (src.take p).drop (p + (sub src p n).length) = [] := List.drop_of_length_le (by rw [hlen]; omega)
  rw [overwrite, hfirst, hlast, hlen, Nat.sub_self, List.replicate_zero, List.append_nil, List.append_nil,
    List.take_add]
  rfl

end Files
