import CoupledCC.Lib.Isolation
import CoupledCC.Transfer.ServerLoop
import CoupledCC.Transfer.Copy

/-!
# The children of the server

`main` of `server.c` forks a child for each pair of connections it accepts. The children serve their clients side by
side, over the same files; the two log files, which all of them append to, are no part of the files here. A child that
faults is gone, and the others go on.

- `serve_local`: what a request does depends on the file it reaches only, and nothing but that file is changed;
- `children_isolated`: in any schedule of forks and turns in which no child is asked to write a file another one is
  asked for, every child answers as if it were alone, and leaves its files as if it were alone.
-/

namespace CoupledCC.Transfer

open Word Bytes Files Isolation

/-- What a child has to itself: its descriptors, what it has sent on the data connection, and its messages. -/
structure Memory where
  rfd : Option Fd
  wfd : Option Fd
  dataSent : List U8
  m1 : Message
  m2 : Message

/-- The memory of a child right after `fork`: the parent never writes to the messages it zeroed. -/
def Memory.fresh : Memory :=
  ⟨none, none, [], .zero, .zero⟩

/-- The child with this memory, over some files. -/
def Memory.over (c : Memory) (fs : FileSys) : Child :=
  ⟨⟨fs, c.rfd, c.wfd, c.dataSent⟩, c.m1, c.m2⟩

def Child.memory (c : Child) : Memory :=
  ⟨c.server.rfd, c.server.wfd, c.server.dataSent, c.m1, c.m2⟩

/-- A child at work: its memory, and the replies it has sent. -/
structure Worker extends Memory where
  replies : List Message

def Worker.fresh : Worker :=
  ⟨.fresh, []⟩

/-- One turn of the loop of a child; nothing is left of one that faults. -/
def turn (it : Iteration) : Option Worker → FileSys → Option Worker × FileSys
  | none, fs => (none, fs)
  | some c, fs =>
    match iterate it (c.over fs) with
    | none => (none, fs)
    | some (c', _) =>
      (some ⟨c'.memory, c.replies ++ [c'.m2]⟩, c'.server.fs)

/-- The children the server has forked, and the files. -/
structure Forked where
  children : List (Option Worker)
  fs : FileSys

/-- A child of the server: a fresh one before it is forked. -/
def Forked.worker (s : Forked) (i : ℕ) : Option Worker :=
  (s.children[i]?).getD (some .fresh)

/-- The parent has accepted two connections and forks, or a child takes a turn. -/
inductive ServerEvent
  | fork
  | turn (i : ℕ) (it : Iteration)

def Forked.step (s : Forked) : ServerEvent → Option Forked
  | .fork => some { s with children := s.children ++ [some .fresh] }
  | .turn i it =>
    (s.children[i]?).map fun c => ⟨s.children.set i (turn it c s.fs).1, (turn it c s.fs).2⟩

/-- The server from `listen` on, as the scheduler runs its processes. -/
def runServer : List ServerEvent → Forked → Option Forked
  | [], s => some s
  | e :: es, s => (s.step e).bind (runServer es)

/-- The turns of a schedule, with the children that take them. -/
def turns : List ServerEvent → List (ℕ × Iteration)
  | [] => []
  | .fork :: es => turns es
  | .turn i it :: es => (i, it) :: turns es

/-! ## What a turn is asked for -/

/-- The message a turn takes from the connection: what it received whole, or the old content of the buffer at the end of
the stream. -/
def Iteration.message (it : Iteration) : Option Message :=
  match it.received with
  | .whole a => some a.message.trim
  | .eof => decode it.buff
  | .error => none

/-- The files some turns are asked to read or to write. -/
def Asked (its : List Iteration) : Set Name :=
  {name | ∃ it ∈ its, ∃ m, it.message = some m ∧ m.Request ∧ m.path = name}

/-- The files some turns are asked to write. -/
def AskedToWrite (its : List Iteration) : Set Name :=
  {name | ∃ it ∈ its, ∃ m, it.message = some m ∧ m.opcode = opWrite ∧ m.path = name}

theorem askedToWrite_subset (its : List Iteration) : AskedToWrite its ⊆ Asked its := by
  rintro name ⟨it, hit, m, hm, hop, hname⟩
  exact ⟨it, hit, m, hm, Or.inr hop, hname⟩

/-- No child is asked to write a file another one is asked for. -/
def Apart (es : List ServerEvent) : Prop :=
  ∀ i j, i ≠ j → Disjoint (AskedToWrite (own i (turns es))) (Asked (own j (turns es)))

/-- `Apart` on the turns: of two by different children, the one asked to write is asked for another file. -/
theorem apart_iff (es : List ServerEvent) :
    Apart es ↔ ∀ p ∈ turns es, ∀ q ∈ turns es, p.1 ≠ q.1 → ∀ m m', p.2.message = some m → q.2.message = some m' →
      m.opcode = opWrite → m'.Request → m.path ≠ m'.path := by
  constructor
  · intro h p hp q hq hne m m' hm hm' hop hrequest heq
    exact Set.disjoint_left.mp (h p.1 q.1 hne) ⟨p.2, mem_own.mpr hp, m, hm, hop, heq⟩
      ⟨q.2, mem_own.mpr hq, m', hm', hrequest, rfl⟩
  · intro h i j hne
    rw [Set.disjoint_left]
    rintro name ⟨it, hit, m, hm, hop, hname⟩ ⟨it', hit', m', hm', hrequest, hname'⟩
    exact h (i, it) (mem_own.mp hit) (j, it') (mem_own.mp hit') hne m m' hm hm' hop hrequest (hname.trans hname'.symm)

/-! ## Requests are local -/

/-- The file a request for `name` reaches through a descriptor: the one that is open, if there is one. -/
def reached (fd : Option Fd) (name : Name) : Name :=
  (fd.map Fd.name).getD name

/-- At most one file gets a new content. -/
def patch (fs : FileSys) : Option (Name × List U8) → FileSys
  | none => fs
  | some (name, bytes) => Function.update fs name (some bytes)

theorem patch_frame {fs : FileSys} {w : Option (Name × List U8)} {W : Set Name} (hw : ∀ p, w = some p → p.1 ∈ W)
    {name : Name} (h : name ∉ W) : patch fs w name = fs name := by
  cases w with
  | none => rfl
  | some p =>
    have hne : name ≠ p.1 := fun heq => h (heq ▸ hw p rfl)
    exact Function.update_of_ne hne _ _

theorem patch_eqOn {fs fs' : FileSys} {N : Set Name} (h : Set.EqOn fs fs' N) (w : Option (Name × List U8)) :
    Set.EqOn (patch fs w) (patch fs' w) N := by
  cases w with
  | none => exact h
  | some p =>
    intro name hname
    by_cases heq : name = p.1
    · subst heq
      simp [patch]
    · simp only [patch, Function.update_of_ne heq]
      exact h hname

/-- A second new content of the same file replaces the first one. -/
theorem patch_patch {w w' : Option (Name × List U8)} {name : Name} (hw : ∀ p, w = some p → p.1 = name)
    (hw' : ∀ p, w' = some p → p.1 = name) (fs : FileSys) :
    patch (patch fs w) w' = patch fs (w'.or w) ∧ ∀ p, w'.or w = some p → p.1 = name := by
  cases w' with
  | none => exact ⟨rfl, hw⟩
  | some p' =>
    refine ⟨?_, hw'⟩
    cases w with
    | none => rfl
    | some p =>
      have heq : p'.1 = p.1 := (hw' p' rfl).trans (hw p rfl).symm
      simp [patch, heq]

/-- The files of a server, exchanged. -/
def Server.on (s : Server) (fs : FileSys) : Server :=
  { s with fs := fs }

/-- Opening for reading depends on the file that is reached. -/
theorem descriptor_read_local {fd : Option Fd} {name : Name} {fs fs' : FileSys}
    (h : fs (reached fd name) = fs' (reached fd name)) (permitted : Bool) :
    descriptor fd permitted readFlags name fs' =
        (descriptor fd permitted readFlags name fs).map (fun p => (fs', p.2)) ∧
      ∀ p, descriptor fd permitted readFlags name fs = some p → p.1 = fs ∧ p.2.name = reached fd name := by
  cases fd with
  | some fd => exact ⟨rfl, fun p hp => by cases hp; exact ⟨rfl, rfl⟩⟩
  | none =>
    have hname : fs name = fs' name := h
    simp only [descriptor, openFile_existing readFlags_creat, hname]
    split
    · exact ⟨rfl, fun p hp => by cases hp; exact ⟨rfl, rfl⟩⟩
    · exact ⟨rfl, fun p hp => by cases hp⟩

theorem readFile_congr {fs fs' : FileSys} {fd : Fd} (h : fs fd.name = fs' fd.name) (count : ℕ) (io : Io) :
    readFile fs fd count io = readFile fs' fd count io := by
  simp only [readFile, content, h]

theorem readFile_name {fs : FileSys} {fd fd' : Fd} {count : ℕ} {io : Io} {bytes : List U8}
    (h : readFile fs fd count io = some (bytes, fd')) : fd'.name = fd.name := by
  obtain ⟨n, -, heq⟩ := Option.map_eq_some_iff.mp h
  cases heq
  rfl

/-- **A READ request is local**: it changes no file, and depends on the one it reaches. -/
theorem doRead_local (o : Outcome) (s : Server) (m1 m2 : Message) {fs' : FileSys}
    (h : s.fs (reached s.rfd m1.path) = fs' (reached s.rfd m1.path)) :
    doRead o (s.on fs') m1 m2 = (doRead o s m1 m2).map (fun p => (p.1.on fs', p.2)) ∧
      ∀ p, doRead o s m1 m2 = some p → p.1.fs = s.fs ∧ p.1.wfd = s.wfd ∧
        ∀ fd, p.1.rfd = some fd → fd.name = reached s.rfd m1.path := by
  obtain ⟨hopen, hfd⟩ := descriptor_read_local h o.opens
  simp only [doRead, Server.on, hopen]
  cases hd : descriptor s.rfd o.opens readFlags m1.path s.fs with
  | none =>
    refine ⟨rfl, fun p hp => ?_⟩
    cases hp
    refine ⟨rfl, rfl, fun fd hrfd => ?_⟩
    have hopened : s.rfd = some fd := hrfd
    rw [reached, hopened]
    rfl
  | some opened =>
    obtain ⟨fs, fd⟩ := opened
    obtain ⟨rfl, hname⟩ := hfd _ hd
    have hfile : s.fs fd.name = fs' fd.name := by rw [hname]; exact h
    simp only [Option.map_some]
    split
    · have hfile' : s.fs (fd.lseek m1.offset).name = fs' (fd.lseek m1.offset).name := by rw [fd.lseek_name]; exact hfile
      rw [← readFile_congr hfile']
      cases hread : readFile s.fs (fd.lseek m1.offset) m1.count.toNat (refuse m1.count o.io) with
      | none =>
        refine ⟨rfl, fun p hp => ?_⟩
        cases hp
        refine ⟨rfl, rfl, fun fd' hrfd => ?_⟩
        cases hrfd
        rw [fd.lseek_name, hname]
      | some got =>
        obtain ⟨bytes, fd'⟩ := got
        dsimp only
        cases hstore : m2.data.store 0 bytes with
        | none => exact ⟨rfl, fun p hp => by cases hp⟩
        | some data =>
          refine ⟨rfl, fun p hp => ?_⟩
          cases hp
          refine ⟨rfl, rfl, fun fd'' hrfd => ?_⟩
          cases hrfd
          rw [readFile_name hread, fd.lseek_name, hname]
    · have hcontent : content s.fs fd.name = content fs' fd.name := by rw [content, content, hfile]
      rw [hcontent]
      refine ⟨rfl, fun p hp => ?_⟩
      cases hp
      refine ⟨rfl, rfl, fun fd' hrfd => ?_⟩
      cases hrfd
      exact hname

/-- Opening for writing depends on the file that is reached, and changes no other. -/
theorem descriptor_write_local {fd : Option Fd} {name : Name} {fs fs' : FileSys}
    (h : fs (reached fd name) = fs' (reached fd name)) (permitted : Bool) :
    (descriptor fd permitted writeFlags name fs = none ∧ descriptor fd permitted writeFlags name fs' = none) ∨
      ∃ fd' w, descriptor fd permitted writeFlags name fs = some (patch fs w, fd') ∧
        descriptor fd permitted writeFlags name fs' = some (patch fs' w, fd') ∧ fd'.name = reached fd name ∧
        ∀ p, w = some p → p.1 = reached fd name := by
  cases fd with
  | some fd => exact .inr ⟨fd, none, rfl, rfl, rfl, fun p hp => by cases hp⟩
  | none =>
    have hname : fs name = fs' name := h
    simp only [descriptor, openFile_writeFlags, hname]
    split
    · exact .inr ⟨⟨name, 0⟩, some (name, []), rfl, rfl, rfl, fun p hp => by cases hp; rfl⟩
    · exact .inl ⟨rfl, rfl⟩

/-- A write depends on the file of the descriptor, and changes no other. -/
theorem writeFile_local {fs fs' : FileSys} {fd : Fd} (h : fs fd.name = fs' fd.name) (bytes : List U8) (io : Io) :
    (writeFile fs fd bytes io = none ∧ writeFile fs' fd bytes io = none) ∨
      ∃ fd' n w, writeFile fs fd bytes io = some (patch fs w, fd', n) ∧
        writeFile fs' fd bytes io = some (patch fs' w, fd', n) ∧ fd'.name = fd.name ∧
        ∀ p, w = some p → p.1 = fd.name := by
  have hcontent : content fs fd.name = content fs' fd.name := by rw [content, content, h]
  cases io with
  | fail =>
    have hfail := fun fs => (writeFile_eq_none_iff fs fd bytes .fail).mpr (.inl rfl)
    exact .inl ⟨hfail fs, hfail fs'⟩
  | cut k =>
    unfold writeFile
    by_cases hlen : bytes.length = 0
    · rw [if_pos hlen, if_pos hlen]
      exact .inr ⟨fd, _, none, rfl, rfl, rfl, fun p hp => by cases hp⟩
    · rw [if_neg hlen, if_neg hlen, ← hcontent]
      by_cases hmax : maxOffset ≤ fd.pos
      · rw [if_pos hmax, if_pos hmax]
        exact .inl ⟨rfl, rfl⟩
      · rw [if_neg hmax, if_neg hmax]
        exact .inr ⟨_, _, some (fd.name, _), rfl, rfl, rfl, fun p hp => by cases hp; rfl⟩

/-- **A WRITE request is local**: it depends on the file it reaches, and changes no other. -/
theorem doWrite_local (o : Outcome) (s : Server) (m1 : Message) {fs' : FileSys}
    (h : s.fs (reached s.wfd m1.path) = fs' (reached s.wfd m1.path)) :
    (doWrite o s m1 = none ∧ doWrite o (s.on fs') m1 = none) ∨
      ∃ wfd r w, doWrite o s m1 = some (⟨patch s.fs w, s.rfd, wfd, s.dataSent⟩, r) ∧
        doWrite o (s.on fs') m1 = some (⟨patch fs' w, s.rfd, wfd, s.dataSent⟩, r) ∧
        (∀ fd, wfd = some fd → fd.name = reached s.wfd m1.path) ∧ ∀ p, w = some p → p.1 = reached s.wfd m1.path := by
  simp only [doWrite, Server.on]
  obtain ⟨hnone, hnone'⟩ | ⟨fd, w, hd, hd', hname, hw⟩ := descriptor_write_local h o.opens
  · rw [hnone, hnone']
    refine .inr ⟨s.wfd, eIo, none, rfl, rfl, fun fd hwfd => ?_, fun p hp => by cases hp⟩
    rw [reached, hwfd]
    rfl
  · rw [hd, hd']
    have hlseek : (fd.lseek m1.offset).name = reached s.wfd m1.path := by rw [fd.lseek_name, hname]
    have hpos : ∀ fd', some (fd.lseek m1.offset) = some fd' → fd'.name = reached s.wfd m1.path := by
      intro fd' heq
      cases heq
      exact hlseek
    dsimp only
    split
    · exact .inr ⟨_, _, w, rfl, rfl, hpos, hw⟩
    · cases m1.data.load 0 m1.count.toNat with
      | none => exact .inl ⟨rfl, rfl⟩
      | some bytes =>
        have hpatched : patch s.fs w (fd.lseek m1.offset).name = patch fs' w (fd.lseek m1.offset).name := by
          have heq : Set.EqOn s.fs fs' {reached s.wfd m1.path} := by simpa using h
          exact patch_eqOn heq w hlseek
        obtain ⟨hfail, hfail'⟩ | ⟨fd', n, w', hwrite, hwrite', hname', hw'⟩ := writeFile_local hpatched bytes o.io
        · simp only [Option.map_some, hfail, hfail']
          exact .inr ⟨_, _, w, rfl, rfl, hpos, hw⟩
        · -- the file may just have been created
          rw [hlseek] at hw'
          obtain ⟨hpatch, hw''⟩ := patch_patch hw hw' s.fs
          obtain ⟨hpatch', -⟩ := patch_patch hw hw' fs'
          simp only [Option.map_some, hwrite, hwrite', hpatch, hpatch']
          refine .inr ⟨_, _, w'.or w, rfl, rfl, fun fd'' hwfd => ?_, hw''⟩
          cases hwfd
          rw [hname', hlseek]

/-- A child that may use the files `N`, and may write the files `W` among them. -/
structure Within (N W : Set Name) (c : Child) : Prop where
  rfd : ∀ fd, c.server.rfd = some fd → fd.name ∈ N
  wfd : ∀ fd, c.server.wfd = some fd → fd.name ∈ W
  named : c.m1.Request → c.m1.path ∈ N
  written : c.m1.opcode = opWrite → c.m1.path ∈ W

theorem reached_mem {fd : Option Fd} {name : Name} {N : Set Name} (hfd : ∀ fd', fd = some fd' → fd'.name ∈ N)
    (hname : name ∈ N) : reached fd name ∈ N := by
  cases fd with
  | none => exact hname
  | some fd => exact hfd fd rfl

/-- A child, with its files exchanged. -/
def Child.on (c : Child) (fs : FileSys) : Child :=
  { c with server := c.server.on fs }

/-- **Serving is local**: a request does the same over files that agree on `N`, and changes files of `W` only. -/
theorem serve_local (o : Outcome) {c : Child} {fs' : FileSys} {N W : Set Name} (hsub : W ⊆ N) (hc : Within N W c)
    (h : Set.EqOn c.server.fs fs' N) :
    (serve o c = none ∧ serve o (c.on fs') = none) ∨
      ∃ c' w, serve o c = some (c'.on (patch c.server.fs w)) ∧ serve o (c.on fs') = some (c'.on (patch fs' w)) ∧
        Within N W c' ∧ ∀ p, w = some p → p.1 ∈ W := by
  have hm1 : (c.on fs').m1 = c.m1 := rfl
  rw [serve_eq o c, serve_eq o (c.on fs'), hm1]
  by_cases hread : c.m1.opcode = opRead
  · rw [if_pos hread, if_pos hread]
    have hreach := reached_mem hc.rfd (hc.named (.inl hread))
    obtain ⟨hsame, hfiles⟩ := doRead_local o c.server c.m1 c.m2 (h hreach)
    have hsame' : doRead o (c.on fs').server c.m1 (c.on fs').m2 = _ := hsame
    rw [hsame']
    cases hdo : doRead o c.server c.m1 c.m2 with
    | none => exact .inl ⟨rfl, rfl⟩
    | some p =>
      obtain ⟨s', m2', r⟩ := p
      obtain ⟨hfs, hwfd, hrfd⟩ := hfiles _ hdo
      dsimp only at hfs hwfd hrfd
      refine .inr ⟨⟨s', c.m1, putResult m2' r⟩, none, ?_, rfl, ?_, fun p hp => by cases hp⟩
      · simp only [Option.map_some, Child.on, Server.on, patch, ← hfs]
      · refine ⟨fun fd hfd => ?_, fun fd hfd => hc.wfd fd (hwfd ▸ hfd), hc.named, hc.written⟩
        rw [hrfd fd hfd]
        exact hreach
  · rw [if_neg hread, if_neg hread]
    by_cases hwrite : c.m1.opcode = opWrite
    · rw [if_pos hwrite, if_pos hwrite]
      have hreach := reached_mem hc.wfd (hc.written hwrite)
      obtain ⟨hnone, hnone'⟩ | ⟨wfd, r, w, hdo, hdo', hwfd, hw⟩ := doWrite_local o c.server c.m1 (h (hsub hreach))
      · have hnone'' : doWrite o (c.on fs').server c.m1 = none := hnone'
        rw [hnone, hnone'']
        exact .inl ⟨rfl, rfl⟩
      · have hdo'' : doWrite o (c.on fs').server c.m1 = _ := hdo'
        rw [hdo, hdo'']
        refine .inr ⟨⟨⟨c.server.fs, c.server.rfd, wfd, c.server.dataSent⟩, c.m1, putResult c.m2 r⟩, w, rfl, rfl, ?_, ?_⟩
        · exact ⟨hc.rfd, fun fd hfd => hwfd fd hfd ▸ hreach, hc.named, hc.written⟩
        · exact fun p hp => hw p hp ▸ hreach
    · rw [if_neg hwrite, if_neg hwrite]
      exact .inr ⟨⟨c.server, c.m1, putResult c.m2 eBadOpcode⟩, none, rfl, rfl, ⟨hc.rfd, hc.wfd, hc.named, hc.written⟩,
        fun p hp => by cases hp⟩

/-! ## Turns are local -/

/-- What a turn serves: what it takes from the connection, or the message the child still has. -/
theorem ifriReceive_message {it : Iteration} {m₀ m : Message} {ret : ℤ}
    (h : ifriReceive it.buff it.received.recv m₀ = some (m, ret)) : it.message = some m ∨ m = m₀ := by
  cases hr : it.received with
  | whole a =>
    rw [hr, Received.recv, ifriReceive_wire a.wellFormed a.encodes] at h
    cases h
    exact .inl (by simp only [Iteration.message, hr])
  | eof =>
    rw [hr, Received.recv, ifriReceive_eof] at h
    obtain ⟨m', hm', heq⟩ := Option.map_eq_some_iff.mp h
    cases heq
    exact .inl (by simp only [Iteration.message, hr, hm'])
  | error =>
    rw [hr] at h
    cases h
    exact .inr rfl

/-- The messages a turn may be asked to serve by a child that may use the files `N` and write the files `W`. -/
def Permits (N W : Set Name) (it : Iteration) : Prop :=
  ∀ m, it.message = some m → (m.Request → m.path ∈ N) ∧ (m.opcode = opWrite → m.path ∈ W)

/-- A worker, if it is left, of a child that may use the files `N` and write the files `W`. -/
def Remains (N W : Set Name) (c : Option Worker) : Prop :=
  ∀ c', c = some c' → ∀ fs, Within N W (c'.over fs)

theorem remains_none (N W : Set Name) : Remains N W none := fun c' h => by cases h

/-- **A turn is local.** -/
theorem turn_local {N W : Set Name} (hsub : W ⊆ N) {it : Iteration} (hit : Permits N W it) {c : Option Worker}
    (hc : Remains N W c) {fs fs' : FileSys} (h : Set.EqOn fs fs' N) :
    ∃ c' w, turn it c fs = (c', patch fs w) ∧ turn it c fs' = (c', patch fs' w) ∧ Remains N W c' ∧
      ∀ p, w = some p → p.1 ∈ W := by
  cases c with
  | none => exact ⟨none, none, rfl, rfl, remains_none N W, fun p hp => by cases hp⟩
  | some c =>
    have hfault : ∃ c' w, (none, fs) = (c', patch fs w) ∧ (none, fs') = (c', patch fs' w) ∧ Remains N W c' ∧
        ∀ p, w = some p → p.1 ∈ W := ⟨none, none, rfl, rfl, remains_none N W, fun p hp => by cases hp⟩
    have hm1 (fs : FileSys) : (c.over fs).m1 = c.m1 := rfl
    simp only [turn, iterate_eq, hm1]
    cases hreceive : ifriReceive it.buff it.received.recv c.m1 with
    | none => exact hfault
    | some received =>
      obtain ⟨m, ret⟩ := received
      have hwithin : Within N W { c.over fs with m1 := m } := by
        have hold := hc c rfl fs
        obtain hnew | rfl := ifriReceive_message hreceive
        · exact ⟨hold.rfd, hold.wfd, (hit m hnew).1, (hit m hnew).2⟩
        · exact hold
      simp only [Option.bind_some]
      obtain ⟨hnone, hnone'⟩ | ⟨c', w, hserve, hserve', hkept, hw⟩ := serve_local it.outcome hsub hwithin h
      · have hnone'' : serve it.outcome { c.over fs' with m1 := m } = none := hnone'
        rw [hnone, hnone'']
        exact hfault
      · have hserve'' : serve it.outcome { c.over fs' with m1 := m } = some (c'.on (patch fs' w)) := hserve'
        rw [hserve, hserve'']
        have hm2 (fs : FileSys) : (c'.on fs).m2 = c'.m2 := rfl
        simp only [Option.bind_some, hm2]
        cases ifriSend c'.m2 it.replyBuff with
        | none => exact hfault
        | some wire =>
          refine ⟨_, w, rfl, rfl, fun c₁ hc₁ fs => ?_, hw⟩
          cases hc₁
          exact ⟨hkept.rfd, hkept.wfd, hkept.named, hkept.written⟩

/-- The turns of a child are confined to the files it may use and write. -/
theorem turn_confined {N W : Set Name} (hsub : W ⊆ N) : Confined turn (Permits N W) (Remains N W) N W where
  sub := hsub
  keeps it c fs hit hc := by
    obtain ⟨c', w, hturn, -, hkept, -⟩ := turn_local hsub hit hc (Set.eqOn_refl fs N)
    rw [hturn]
    exact hkept
  frame it c fs name hit hc hname := by
    obtain ⟨c', w, hturn, -, -, hw⟩ := turn_local hsub hit hc (Set.eqOn_refl fs N)
    rw [hturn]
    exact patch_frame hw hname
  state it c fs fs' hit hc h := by
    obtain ⟨c', w, hturn, hturn', -, -⟩ := turn_local hsub hit hc h
    rw [hturn, hturn']
  store it c fs fs' hit hc h := by
    obtain ⟨c', w, hturn, hturn', -, -⟩ := turn_local hsub hit hc h
    rw [hturn, hturn']
    exact patch_eqOn h w

/-! ## Schedules -/

theorem worker_fork (s : Forked) : (⟨s.children ++ [some .fresh], s.fs⟩ : Forked).worker = s.worker := by
  funext i
  simp only [Forked.worker]
  rcases lt_trichotomy i s.children.length with hi | rfl | hi
  · rw [List.getElem?_append_left hi]
  · simp
  · rw [List.getElem?_eq_none (by simp; omega), List.getElem?_eq_none (by omega)]

theorem worker_turn {s : Forked} {i : ℕ} {c : Option Worker} (hc : s.children[i]? = some c) (c' : Option Worker)
    (fs : FileSys) : (⟨s.children.set i c', fs⟩ : Forked).worker = Function.update s.worker i c' := by
  obtain ⟨hi, -⟩ := List.getElem?_eq_some_iff.mp hc
  funext j
  by_cases hj : j = i
  · subst hj
    simp [Forked.worker, hi]
  · simp [Forked.worker, hj, Ne.symm hj]

/-- The server runs the turns of its schedule: a child does not run before it is forked. -/
theorem runServer_interleaved {es : List ServerEvent} {s s' : Forked} (h : runServer es s = some s') :
    (s'.worker, s'.fs) = interleaved turn (turns es) (s.worker, s.fs) := by
  induction es generalizing s with
  | nil =>
    cases h
    rfl
  | cons e es ih =>
    obtain ⟨s₁, hstep, hrest⟩ := Option.bind_eq_some_iff.mp h
    have hih := ih hrest
    cases e with
    | fork =>
      cases hstep
      rw [worker_fork] at hih
      exact hih
    | turn i it =>
      obtain ⟨c, hc, heq⟩ := Option.map_eq_some_iff.mp hstep
      cases heq
      rw [worker_turn hc] at hih
      have hci : s.worker i = c := by simp only [Forked.worker, hc, Option.getD_some]
      simp only [turns, interleaved, hci]
      exact hih

/-- A schedule permits to each child the files it is asked for. -/
theorem permits_turns (es : List ServerEvent) (i : ℕ) (it : Iteration) (h : (i, it) ∈ turns es) :
    Permits (Asked (own i (turns es))) (AskedToWrite (own i (turns es))) it := by
  intro m hm
  have hown := mem_own.mpr h
  constructor
  · intro hrequest
    exact ⟨it, hown, m, hm, hrequest, rfl⟩
  · intro hop
    exact ⟨it, hown, m, hm, hop, rfl⟩

theorem remains_fresh (N W : Set Name) : Remains N W (some .fresh) := by
  intro c hc fs
  cases hc
  have hnot : ¬ Message.zero.Request := by decide
  exact ⟨fun fd h => (by cases h), fun fd h => (by cases h), fun h => absurd h hnot, fun h => absurd (Or.inr h) hnot⟩

/-- **The children do not disturb each other.** In every schedule of forks and turns in which no child is asked to write
a file that another one is asked for, each child has after it the memory that its own turns alone lead to, and has sent
the same replies and the same file content; the files it is asked for are as its own turns alone leave them; and a file
that nobody is asked to write is as it was. -/
theorem children_isolated {es : List ServerEvent} {fs : FileSys} {s : Forked} (hrun : runServer es ⟨[], fs⟩ = some s)
    (hapart : Apart es) :
    (∀ i c, s.children[i]? = some c →
      c = (solo turn (own i (turns es)) (some .fresh, fs)).1 ∧
        Set.EqOn s.fs (solo turn (own i (turns es)) (some .fresh, fs)).2 (Asked (own i (turns es)))) ∧
      ∀ name, (∀ i, name ∉ AskedToWrite (own i (turns es))) → s.fs name = fs name := by
  have hconf := fun i => turn_confined (askedToWrite_subset (own i (turns es)))
  have hfresh := fun i => remains_fresh (Asked (own i (turns es))) (AskedToWrite (own i (turns es)))
  have hint := runServer_interleaved hrun
  have hstart : (⟨[], fs⟩ : Forked).worker = fun _ => some .fresh := rfl
  rw [hstart] at hint
  have hworkers := congrArg Prod.fst hint
  have hfiles := congrArg Prod.snd hint
  dsimp only at hworkers hfiles
  constructor
  · intro i c hc
    obtain ⟨hstate, hstore⟩ := interleaved_eq_solo hconf hapart (permits_turns es) hfresh i (Set.eqOn_refl fs _)
    rw [← hworkers] at hstate
    rw [← hfiles] at hstore
    have hci : s.worker i = c := by simp only [Forked.worker, hc, Option.getD_some]
    exact ⟨hci ▸ hstate, hstore⟩
  · intro name hname
    rw [hfiles]
    exact interleaved_untouched hconf (permits_turns es) hfresh hname

/-- A message that is received whole. -/
theorem exists_arrival {m : Message} (h : m.WellFormed) : ∃ a : Arrival, a.message = m := by
  obtain ⟨wire, -, hw⟩ := ifriSend_wire h (.zero _)
  exact ⟨⟨m, wire, h, hw⟩, rfl⟩

/-- A client that writes to `a` and one that reads `b`. -/
theorem children_isolated_two :
    let asks (a : Arrival) : Iteration := ⟨.whole a, .zero _, ⟨true, .cut 0, []⟩, .zero _⟩
    ∃ a b : Arrival, a.message.opcode = opWrite ∧ a.message.trim.path = [97] ∧ b.message.opcode = opRead ∧
      b.message.trim.path = [98] ∧
      ∃ s, runServer [.fork, .fork, .turn 0 (asks a), .turn 1 (asks b)] ⟨[], fun _ => none⟩ = some s ∧
        ∀ i c, s.children[i]? = some c →
          c = (solo turn (own i [(0, asks a), (1, asks b)]) (some .fresh, fun _ => none)).1 := by
  intro asks
  obtain ⟨m, -, hwrite⟩ := writeRequest_spec (.single (by decide : (97 : U8) ≠ 0)) 0 replyOk_zero
  obtain ⟨m', -, hread⟩ := readRequest_spec (.single (by decide : (98 : U8) ≠ 0)) 0
  obtain ⟨a, rfl⟩ := exists_arrival (hwrite.wellFormed.mpr (by decide))
  obtain ⟨b, rfl⟩ := exists_arrival hread.wellFormed
  have hapart : Apart [.fork, .fork, .turn 0 (asks a), .turn 1 (asks b)] := by
    rw [apart_iff]
    rintro p hp q hq hne m m' hm hm' hop -
    simp only [turns, List.mem_cons, List.not_mem_nil, or_false] at hp hq
    obtain rfl | rfl := hp
    · obtain rfl | rfl := hq
      · exact absurd rfl hne
      · cases hm
        cases hm'
        rw [hwrite.path, hread.path]
        decide
    · cases hm
      exact absurd (hread.opcode.symm.trans hop) (by decide)
  refine ⟨a, b, hwrite.opcode, hwrite.path, hread.opcode, hread.path, _, rfl, ?_⟩
  exact fun i c hc => ((children_isolated rfl hapart).1 i c hc).1

end CoupledCC.Transfer
