import CoupledCC.Lib.Trace
import CoupledCC.Transfer.Copy

/-!
# The fast transfer

`copy_2` of `client.c` and the loop of the server's child as two processes. The command connection is a queue of
messages in each direction, the data connection a queue of bytes; a read from an empty connection that is open is no
step. Between two system calls nothing of a process is seen, so a step is a system call with what follows it (`Event`).

- `doRead_runs`: the steps of the child alone do what `do_read` does;
- `copy2_step`: once the destination is open, every step goes down in `Copy2.rank` and does not lead out of the loop
  that reads the data (`Waiting`), as nobody closes the data connection;
- `copy2_live_iff`: some process can take a step until `copy_2` returns exactly when the destination cannot be opened.
-/

namespace CoupledCC.Transfer

open Bytes Files Runs

/-- The two files, and whether the environment lets them be opened. -/
structure Copy2Config where
  src : Name
  dst : Name
  clientFs : FileSys
  dstPermitted : Bool
  serverFs : FileSys
  srcPermitted : Bool

/-- The client can open its destination: there is no such file, and it may create it. -/
def Copy2Config.Opens (cfg : Copy2Config) : Prop :=
  cfg.dstPermitted = true ∧ cfg.clientFs cfg.dst = none

/-- Where `copy_2` stands: before which system call, with what in its buffer. -/
inductive ClientAt
  | opening
  | sending
  | reading
  | writing (buffer : List U8)
  | receiving
  | returned (r : ℤ)
  | crashed
deriving Repr, DecidableEq

/-- Where the child stands. -/
inductive ServerAt
  | receiving
  | handling
  | reading
  | writing (buffer : List U8)
  | replying (r : ℤ)
  | crashed
deriving Repr, DecidableEq

structure Copy2 where
  client : ClientAt
  server : ServerAt
  child : Child
  /-- The command connection to the server, and back. -/
  up : List Message
  down : List Message
  data : List U8
  dataClosed : Bool
  /-- What the client has written to the destination. -/
  written : List U8

/-- The system calls of the two processes. -/
inductive Event
  | openDst
  | sendRequest
  | readData (io : Io)
  | writeDst (io : Io)
  | receiveReply
  | receiveRequest
  | serve (o : Outcome)
  | openSrc
  | readSrc (io : Io)
  | writeData (io : Io)
  | sendReply

def Copy2.start (cfg : Copy2Config) : Copy2 :=
  ⟨.opening, .receiving, .fresh cfg.serverFs, [], [], [], false, []⟩

/-- The request of `copy_2`. -/
def contentRequest (src : Name) : Option Message :=
  (readRequest src 0).map fun m => { m with sendFileContent := 1 }

/-- `do_read` is called, and sends the file content. -/
def Message.Streams (m : Message) : Prop :=
  m.opcode = opRead ∧ m.sendFileContent ≠ 0

instance (m : Message) : Decidable m.Streams :=
  inferInstanceAs (Decidable (_ ∧ _))

/-- The size of both buffers. -/
def chunkSize : ℕ := 16384

/-- The steps of `copy_2`. -/
def clientNext (cfg : Copy2Config) (s : Copy2) : Event → Option Copy2
  | .openDst =>
    match s.client with
    | .opening =>
      match openFile cfg.dstPermitted writeFlags cfg.dst cfg.clientFs with
      | none => some { s with client := .returned eIo }
      | some _ => some { s with client := .sending }
    | _ => none
  | .sendRequest =>
    match s.client with
    | .sending =>
      match (contentRequest cfg.src).bind deliver with
      | none => some { s with client := .crashed }
      | some m => some { s with client := .reading, up := s.up ++ [m] }
    | _ => none
  | .readData io =>
    match s.client, io with
    | .reading, .fail => some { s with client := .returned (-1) }
    | .reading, .cut k =>
      if s.data ≠ [] then
        let n := min chunkSize (k + 1)
        some { s with client := .writing (s.data.take n), data := s.data.drop n }
      else if s.dataClosed then some { s with client := .writing [] }
      else none
    | _, _ => none
  | .writeDst io =>
    match s.client with
    | .writing buffer =>
      match io.transfer buffer.length with
      | none => some { s with client := .receiving }
      | some n =>
        some { s with client := if 0 < n then .reading else .receiving, written := s.written ++ buffer.take n }
    | _ => none
  | .receiveReply =>
    match s.client, s.down with
    | .receiving, m :: down =>
      some { s with client := .returned (if 0 ≤ m.result.toInt then resultOk else m.result.toInt), down := down }
    | _, _ => none
  | _ => none

/-- `m2.result = r; ..; ifri_send(cmd_csd, &m2)`. -/
def replyNext (s : Copy2) (child : Child) : Copy2 :=
  match deliver child.m2 with
  | none => { s with server := .crashed, child := child }
  | some m => { s with server := .receiving, child := child, down := s.down ++ [m] }

/-- The steps of the child; a request that does not ask for the file content is served as `serve` says. -/
def serverNext (cfg : Copy2Config) (s : Copy2) : Event → Option Copy2
  | .receiveRequest =>
    match s.server, s.up with
    | .receiving, m :: up => some { s with server := .handling, child := { s.child with m1 := m }, up := up }
    | _, _ => none
  | .serve o =>
    match s.server with
    | .handling =>
      if s.child.m1.Streams then none
      else
        match serve o s.child with
        | none => some { s with server := .crashed }
        | some child => some (replyNext s child)
    | _ => none
  | .openSrc =>
    match s.server with
    | .handling =>
      if s.child.m1.Streams then
        match descriptor s.child.server.rfd cfg.srcPermitted readFlags s.child.m1.path s.child.server.fs with
        | none => some { s with server := .replying eIo }
        | some (fs, fd) =>
          some { s with
            server := .reading, child := { s.child with server := { s.child.server with fs := fs, rfd := some fd } } }
      else none
    | _ => none
  | .readSrc io =>
    match s.server, s.child.server.rfd with
    | .reading, some fd =>
      match readFile s.child.server.fs fd chunkSize io with
      | none => some { s with server := .replying (-1) }
      | some (bytes, fd) =>
        some { s with
          server := if bytes = [] then .replying 0 else .writing bytes
          child := { s.child with server := { s.child.server with rfd := some fd } } }
    | _, _ => none
  | .writeData io =>
    match s.server with
    | .writing buffer =>
      let sent := buffer.take ((io.transfer buffer.length).getD 0)
      some { s with
        server := .reading
        child := { s.child with server := { s.child.server with dataSent := s.child.server.dataSent ++ sent } }
        data := s.data ++ sent }
    | _ => none
  | .sendReply =>
    match s.server with
    | .replying r => some (replyNext s { s.child with m2 := putResult s.child.m2 r })
    | _ => none
  | _ => none

/-- The call does not fail; it may be short. -/
def Event.NoFailure : Event → Prop
  | .readData io | .writeDst io | .readSrc io | .writeData io => io ≠ .fail
  | _ => True

/-- A step of one of the two processes without a failure. -/
def copy2Step (cfg : Copy2Config) (s : Copy2) (e : Event) (s' : Copy2) : Prop :=
  e.NoFailure ∧ (clientNext cfg s e = some s' ∨ serverNext cfg s e = some s')

/-- The states of the runs. -/
def Copy2.Reached (cfg : Copy2Config) (s : Copy2) : Prop :=
  Reach (copy2Step cfg) (· = Copy2.start cfg) s

/-! ## The child alone -/

/-- A step of the child. -/
def serverStep (cfg : Copy2Config) (s : Copy2) (e : Event) (s' : Copy2) : Prop :=
  serverNext cfg s e = some s'

/-- The state after the child has read some bytes through `fd` and sent them all. -/
def Copy2.streamed (s : Copy2) (at' : ServerAt) (fd : Fd) (sent : List U8) : Copy2 :=
  { s with
    server := at'
    child := { s.child with
      server := { s.child.server with
        rfd := some { fd with pos := fd.pos + sent.length }, dataSent := s.child.server.dataSent ++ sent } }
    data := s.data ++ sent }

theorem Copy2.streamed_streamed (s : Copy2) (at₁ at₂ : ServerAt) (fd : Fd) (a b : List U8) :
    (s.streamed at₁ fd a).streamed at₂ { fd with pos := fd.pos + a.length } b = s.streamed at₂ fd (a ++ b) := by
  simp only [Copy2.streamed, List.append_assoc, List.length_append, Nat.add_assoc]

/-- What is left to read through a descriptor. -/
def Copy2.rest (s : Copy2) (fd : Fd) : List U8 :=
  (content s.child.server.fs fd.name).drop fd.pos

theorem rest_advance (s : Copy2) (fd : Fd) (n : ℕ) : s.rest { fd with pos := fd.pos + n } = (s.rest fd).drop n := by
  simp only [Copy2.rest, List.drop_drop]

/-- One turn of the loop of `do_read`, with a whole write. -/
theorem stream_turn (cfg : Copy2Config) {s : Copy2} {fd : Fd} (k : ℕ) (hat : s.server = .reading)
    (hrfd : s.child.server.rfd = some fd) (hrest : s.rest fd ≠ []) :
    ∃ s₁ bytes, s₁.server = .writing bytes ∧ serverStep cfg s (.readSrc (.cut k)) s₁ ∧
      serverStep cfg s₁ (.writeData (.cut bytes.length))
        (s.streamed .reading fd ((s.rest fd).take (min chunkSize (k + 1)))) := by
  have hbytes : sub (content s.child.server.fs fd.name) fd.pos (min chunkSize (k + 1)) =
      (s.rest fd).take (min chunkSize (k + 1)) := rfl
  have hne : (s.rest fd).take (min chunkSize (k + 1)) ≠ [] := by
    rw [← List.length_pos_iff] at hrest ⊢
    rw [List.length_take, chunkSize]
    omega
  generalize (s.rest fd).take (min chunkSize (k + 1)) = bytes at hbytes hne ⊢
  have hread : serverStep cfg s (.readSrc (.cut k)) { s with
      server := .writing bytes
      child := { s.child with
        server := { s.child.server with rfd := some { fd with pos := fd.pos + bytes.length } } } } := by
    simp only [serverStep, serverNext, hat, hrfd, readFile_cut, hbytes, if_neg hne]
  have htake : bytes.take (min bytes.length (bytes.length + 1)) = bytes := by
    rw [Nat.min_eq_left (Nat.le_succ _), List.take_length]
  refine ⟨_, bytes, rfl, hread, ?_⟩
  simp only [serverStep, serverNext, Io.transfer, Option.getD_some, htake]
  rfl

/-- At the end of the file the loop is left. -/
theorem stream_end {cfg : Copy2Config} {s : Copy2} {fd : Fd} (k : ℕ) (hat : s.server = .reading)
    (hrfd : s.child.server.rfd = some fd) (hrest : s.rest fd = []) :
    serverStep cfg s (.readSrc (.cut k)) (s.streamed (.replying 0) fd []) := by
  have hbytes : sub (content s.child.server.fs fd.name) fd.pos (min chunkSize (k + 1)) = [] := by
    show (s.rest fd).take _ = []
    rw [hrest, List.take_nil]
  simp only [serverStep, serverNext, hat, hrfd, readFile_cut, hbytes, if_pos, Copy2.streamed, List.append_nil,
    List.length_nil, Nat.add_zero]

theorem rest_streamed (s : Copy2) (at' : ServerAt) (fd : Fd) (n : ℕ) :
    (s.streamed at' fd ((s.rest fd).take n)).rest { fd with pos := fd.pos + ((s.rest fd).take n).length } =
      (s.rest fd).drop n := by
  show s.rest { fd with pos := fd.pos + ((s.rest fd).take n).length } = _
  rw [rest_advance, List.length_take]
  rcases Nat.le_total n (s.rest fd).length with hle | hle
  · rw [Nat.min_eq_left hle]
  · rw [Nat.min_eq_right hle, List.drop_length, List.drop_eq_nil_of_le hle]

/-- A turn, and then the rest of the loop. -/
theorem stream_cons {cfg : Copy2Config} {s : Copy2} {fd : Fd} {n : ℕ} (k : ℕ) (hn : n = min chunkSize (k + 1))
    (hat : s.server = .reading) (hrfd : s.child.server.rfd = some fd) (hrest : s.rest fd ≠ []) {at' : ServerAt}
    {sent : List U8} {tr : List (Transition Copy2 Event)}
    (h : Trace (serverStep cfg) (s.streamed .reading fd ((s.rest fd).take n)) tr
      ((s.streamed .reading fd ((s.rest fd).take n)).streamed at'
        { fd with pos := fd.pos + ((s.rest fd).take n).length } sent)) :
    ∃ tr, Trace (serverStep cfg) s tr (s.streamed at' fd ((s.rest fd).take n ++ sent)) := by
  subst hn
  obtain ⟨s₁, bytes, -, hread, hwrite⟩ := stream_turn cfg k hat hrfd hrest
  rw [Copy2.streamed_streamed] at h
  exact ⟨_, .cons hread (.cons hwrite h)⟩

/-- The loop with whole reads sends all that is left. -/
theorem stream_whole (cfg : Copy2Config) {s : Copy2} {fd : Fd} (hat : s.server = .reading)
    (hrfd : s.child.server.rfd = some fd) :
    ∃ tr, Trace (serverStep cfg) s tr (s.streamed (.replying 0) fd (s.rest fd)) := by
  induction hlen : (s.rest fd).length using Nat.strong_induction_on generalizing s fd with
  | _ len ih =>
    by_cases hrest : s.rest fd = []
    · rw [hrest]
      exact ⟨_, .cons (stream_end 0 hat hrfd hrest) (.nil _)⟩
    · have hnext := rest_streamed s .reading fd chunkSize
      have hpos : 0 < (s.rest fd).length := List.length_pos_iff.mpr hrest
      have hless : ((s.rest fd).drop chunkSize).length < len := by
        rw [List.length_drop, chunkSize]
        omega
      obtain ⟨tr, htrace⟩ := ih _ hless (s := s.streamed .reading fd ((s.rest fd).take chunkSize)) rfl rfl
        (by rw [hnext])
      rw [hnext] at htrace
      obtain ⟨tr', htrace'⟩ := stream_cons chunkSize (by omega) hat hrfd hrest htrace
      rw [List.take_append_drop] at htrace'
      exact ⟨tr', htrace'⟩

/-- **The loop of `do_read`.** The child alone sends what `sendContent` says, and comes to reply its result. -/
theorem stream_runs (cfg : Copy2Config) (ios : List Io) {s : Copy2} {fd : Fd} (hat : s.server = .reading)
    (hrfd : s.child.server.rfd = some fd) :
    ∃ tr, Trace (serverStep cfg) s tr
      (s.streamed (.replying (sendContent ios (s.rest fd)).2) fd (sendContent ios (s.rest fd)).1) := by
  induction ios generalizing s fd with
  | nil => exact stream_whole cfg hat hrfd
  | cons io ios ih =>
    cases io with
    | fail =>
      have hsame : s.streamed (.replying (-1)) fd [] = { s with server := .replying (-1) } := by
        simp only [Copy2.streamed, List.length_nil, Nat.add_zero, List.append_nil, ← hrfd]
      have hread : serverStep cfg s (.readSrc .fail) (s.streamed (.replying (-1)) fd []) := by
        rw [hsame]
        simp only [serverStep, serverNext, hat, hrfd, readFile, Io.transfer, Option.map_none]
      exact ⟨_, .cons hread (.nil _)⟩
    | cut k =>
      simp only [sendContent]
      by_cases hrest : s.rest fd = []
      · rw [if_pos hrest]
        exact ⟨_, .cons (stream_end k hat hrfd hrest) (.nil _)⟩
      · rw [if_neg hrest]
        have hnext := rest_streamed s .reading fd (min 16384 (k + 1))
        obtain ⟨tr, htrace⟩ := ih (s := s.streamed .reading fd ((s.rest fd).take (min 16384 (k + 1)))) rfl rfl
        rw [hnext] at htrace
        exact stream_cons k rfl hat hrfd hrest htrace

/-- **The child alone does what `do_read` does**, when it is asked for the file content. -/
theorem doRead_runs {cfg : Copy2Config} {s : Copy2} {o : Outcome} {server : Server} {m2 : Message} {r : ℤ}
    (hat : s.server = .handling) (hm : s.child.m1.Streams) (ho : o.opens = cfg.srcPermitted)
    (h : doRead o s.child.server s.child.m1 s.child.m2 = some (server, m2, r)) :
    ∃ tr sent, server.dataSent = s.child.server.dataSent ++ sent ∧
      Trace (serverStep cfg) s tr
        { s with
          server := .replying r, child := { s.child with server := server, m2 := m2 }, data := s.data ++ sent } := by
  unfold doRead at h
  cases hfd : descriptor s.child.server.rfd o.opens readFlags s.child.m1.path s.child.server.fs with
  | none =>
    simp only [hfd] at h
    cases h
    have hopen : serverStep cfg s .openSrc { s with server := .replying eIo, data := s.data ++ [] } := by
      rw [ho] at hfd
      simp only [serverStep, serverNext, hat, if_pos hm, hfd, List.append_nil]
    exact ⟨_, [], (List.append_nil _).symm, .cons hopen (.nil _)⟩
  | some opened =>
    obtain ⟨fs, fd⟩ := opened
    simp only [hfd, if_neg hm.2] at h
    cases h
    have hopen : serverStep cfg s .openSrc { s with
        server := .reading, child := { s.child with server := { s.child.server with fs := fs, rfd := some fd } } } := by
      rw [ho] at hfd
      simp only [serverStep, serverNext, hat, if_pos hm, hfd]
    obtain ⟨tr, htrace⟩ := stream_runs cfg o.stream
      (s := { s with
        server := .reading, child := { s.child with server := { s.child.server with fs := fs, rfd := some fd } } })
      rfl rfl
    exact ⟨_, _, rfl, .cons hopen htrace⟩

/-! ## Every step goes down -/

/-- `copy_2` has not come out of its loop. -/
def ClientAt.Waiting : ClientAt → Prop
  | .receiving | .returned _ => False
  | .writing buffer => buffer ≠ []
  | _ => True

/-- What holds of a run whose destination can be opened. -/
structure Copy2.Open (s : Copy2) : Prop where
  client : s.client.Waiting
  dataClosed : s.dataClosed = false

/-- The steps there are at most before the server knows its file. -/
def Copy2.early (s : Copy2) : ℕ :=
  (match s.client with
    | .opening => 4
    | .sending => 3
    | _ => 0) +
  (match s.server with
    | .handling => 1
    | _ => 0) +
  2 * s.up.length

/-- The bytes of the file that have not been read. -/
def Copy2.unread (s : Copy2) : ℕ :=
  match s.child.server.rfd with
  | none => 0
  | some fd => (content s.child.server.fs fd.name).length - fd.pos

/-- The bytes that have not been written to the destination, each with the steps it may still take. -/
def Copy2.pending (s : Copy2) : ℕ :=
  7 * s.unread +
  (match s.server with
    | .reading => 2
    | .writing buffer => 5 * buffer.length + 3
    | .replying _ => 1
    | _ => 0) +
  3 * s.data.length +
  (match s.client with
    | .writing buffer => buffer.length + 1
    | _ => 0)

def Copy2.rank (s : Copy2) : ℕ ×ₗ ℕ :=
  toLex (s.early, s.pending)

theorem Copy2.rank_lt_iff {s s' : Copy2} :
    s'.rank < s.rank ↔ s'.early < s.early ∨ s'.early = s.early ∧ s'.pending < s.pending :=
  Prod.Lex.toLex_lt_toLex

theorem openDst_none_iff (cfg : Copy2Config) :
    openFile cfg.dstPermitted writeFlags cfg.dst cfg.clientFs = none ↔ ¬ cfg.Opens := by
  rw [openFile_writeFlags, ite_eq_right_iff]
  constructor
  · intro hnone hopens
    have hsome := hnone hopens
    cases hsome
  · intro hopens hboth
    exact absurd hboth hopens

/-- Data that is read is not empty. -/
theorem readData_open {cfg : Copy2Config} {s s' : Copy2} {k : ℕ} (hs : s.Open)
    (h : clientNext cfg s (.readData (.cut k)) = some s') : s'.Open ∧ s'.early = s.early ∧ s'.pending < s.pending := by
  simp only [clientNext] at h
  split at h
  · rename_i hio
    cases hio
  · rename_i k' hat hio
    cases hio
    by_cases hdata : s.data ≠ []
    · rw [if_pos hdata] at h
      cases h
      have hlen : 0 < s.data.length := List.length_pos_iff.mpr hdata
      have htake : (s.data.take (min chunkSize (k + 1))).length + (s.data.drop (min chunkSize (k + 1))).length =
          s.data.length := by
        rw [← List.length_append, List.take_append_drop]
      have hpos : 0 < (s.data.take (min chunkSize (k + 1))).length := by
        rw [List.length_take, chunkSize]
        omega
      refine ⟨⟨List.length_pos_iff.mp hpos, hs.dataClosed⟩, by simp only [Copy2.early, hat], ?_⟩
      simp only [Copy2.pending, Copy2.unread, hat]
      omega
    · rw [if_neg hdata, hs.dataClosed] at h
      cases h
  · cases h

/-- After a write that writes something the client reads again. -/
theorem writeDst_open {cfg : Copy2Config} {s s' : Copy2} {k : ℕ} (hs : s.Open)
    (h : clientNext cfg s (.writeDst (.cut k)) = some s') : s'.Open ∧ s'.early = s.early ∧ s'.pending < s.pending := by
  simp only [clientNext] at h
  split at h
  · rename_i buffer hat
    have hclient := hs.client
    rw [hat] at hclient
    have hlen : 0 < buffer.length := List.length_pos_iff.mpr hclient
    have hpos : 0 < min buffer.length (k + 1) := by omega
    simp only [Io.transfer, if_pos hpos] at h
    cases h
    refine ⟨⟨trivial, hs.dataClosed⟩, by simp only [Copy2.early, hat], ?_⟩
    simp only [Copy2.pending, Copy2.unread, hat]
    omega
  · cases h

/-- A step of the client. -/
theorem clientNext_open {cfg : Copy2Config} {s s' : Copy2} {e : Event} (hopens : cfg.Opens) (hs : s.Open)
    (he : e.NoFailure) (h : clientNext cfg s e = some s') : s'.Open ∧ s'.rank < s.rank := by
  rw [Copy2.rank_lt_iff]
  cases e with
  | openDst =>
    simp only [clientNext] at h
    split at h
    · rename_i hat
      split at h
      · rename_i hnone
        exact absurd hopens ((openDst_none_iff cfg).mp hnone)
      · cases h
        exact ⟨⟨trivial, hs.dataClosed⟩, .inl (by simp only [Copy2.early, hat]; omega)⟩
    · cases h
  | sendRequest =>
    simp only [clientNext] at h
    split at h
    · rename_i hat
      split at h
      · cases h
        exact ⟨⟨trivial, hs.dataClosed⟩, .inl (by simp only [Copy2.early, hat]; omega)⟩
      · cases h
        refine ⟨⟨trivial, hs.dataClosed⟩, .inl ?_⟩
        simp only [Copy2.early, hat, List.length_append, List.length_singleton]
        omega
    · cases h
  | readData io =>
    obtain ⟨k, rfl⟩ := Io.exists_cut he
    obtain ⟨hopen, hlt⟩ := readData_open hs h
    exact ⟨hopen, .inr hlt⟩
  | writeDst io =>
    obtain ⟨k, rfl⟩ := Io.exists_cut he
    obtain ⟨hopen, hlt⟩ := writeDst_open hs h
    exact ⟨hopen, .inr hlt⟩
  | receiveReply =>
    simp only [clientNext] at h
    split at h
    · rename_i hat _
      have hclient := hs.client
      rw [hat] at hclient
      exact hclient.elim
    · cases h
  | receiveRequest | serve _ | openSrc | readSrc _ | writeData _ | sendReply => cases h

/-- Sending a reply leaves the client as it is. -/
theorem replyNext_spec (s : Copy2) (child : Child) :
    (replyNext s child).client = s.client ∧ (replyNext s child).up = s.up ∧ (replyNext s child).data = s.data ∧
      (replyNext s child).dataClosed = s.dataClosed ∧ (replyNext s child).child = child ∧
      ((replyNext s child).server = .receiving ∨ (replyNext s child).server = .crashed) := by
  unfold replyNext
  split
  · exact ⟨rfl, rfl, rfl, rfl, rfl, .inr rfl⟩
  · exact ⟨rfl, rfl, rfl, rfl, rfl, .inl rfl⟩

/-- The bytes the server reads are no longer left. -/
theorem readSrc_open {cfg : Copy2Config} {s s' : Copy2} {k : ℕ} (h : serverNext cfg s (.readSrc (.cut k)) = some s') :
    s'.client = s.client ∧ s'.dataClosed = s.dataClosed ∧ s'.early = s.early ∧ s'.pending < s.pending := by
  simp only [serverNext] at h
  split at h
  · rename_i fd hat hrfd
    simp only [readFile_cut] at h
    cases h
    set bytes := sub (content s.child.server.fs fd.name) fd.pos (min chunkSize (k + 1)) with hbytes
    have hlen : bytes.length ≤ (content s.child.server.fs fd.name).length - fd.pos := by
      rw [hbytes, sub, List.length_take, List.length_drop]
      omega
    by_cases hempty : bytes = []
    · refine ⟨rfl, rfl, by simp only [Copy2.early, hat, if_pos hempty], ?_⟩
      simp only [Copy2.pending, Copy2.unread, hat, hrfd, if_pos hempty]
      omega
    · have hpos : 0 < bytes.length := List.length_pos_iff.mpr hempty
      refine ⟨rfl, rfl, by simp only [Copy2.early, hat, if_neg hempty], ?_⟩
      simp only [Copy2.pending, Copy2.unread, hat, hrfd, if_neg hempty]
      omega
  · cases h

/-- A step of the server. -/
theorem serverNext_open {cfg : Copy2Config} {s s' : Copy2} {e : Event} (he : e.NoFailure)
    (h : serverNext cfg s e = some s') :
    s'.client = s.client ∧ s'.dataClosed = s.dataClosed ∧ s'.rank < s.rank := by
  rw [Copy2.rank_lt_iff]
  cases e with
  | receiveRequest =>
    simp only [serverNext] at h
    split at h
    · rename_i m up hat hup
      cases h
      refine ⟨rfl, rfl, .inl ?_⟩
      simp only [Copy2.early, hat, hup, List.length_cons]
      omega
    · cases h
  | serve o =>
    simp only [serverNext] at h
    split at h
    · rename_i hat
      split at h
      · cases h
      · split at h
        · cases h
          exact ⟨rfl, rfl, .inl (by simp only [Copy2.early, hat]; omega)⟩
        · rename_i child _
          cases h
          obtain ⟨hclient, hup, -, hclosed, -, hserver⟩ := replyNext_spec s child
          refine ⟨hclient, hclosed, .inl ?_⟩
          rcases hserver with hserver | hserver <;> simp only [Copy2.early, hclient, hup, hserver, hat] <;> omega
    · cases h
  | openSrc =>
    simp only [serverNext] at h
    split at h
    · rename_i hat
      split at h
      · split at h
        · cases h
          exact ⟨rfl, rfl, .inl (by simp only [Copy2.early, hat]; omega)⟩
        · cases h
          exact ⟨rfl, rfl, .inl (by simp only [Copy2.early, hat]; omega)⟩
      · cases h
    · cases h
  | readSrc io =>
    obtain ⟨k, rfl⟩ := Io.exists_cut he
    obtain ⟨hclient, hclosed, hlt⟩ := readSrc_open h
    exact ⟨hclient, hclosed, .inr hlt⟩
  | writeData io =>
    simp only [serverNext] at h
    split at h
    · rename_i buffer hat
      cases h
      refine ⟨rfl, rfl, .inr ⟨by simp only [Copy2.early, hat], ?_⟩⟩
      simp only [Copy2.pending, Copy2.unread, hat, List.length_append, List.length_take]
      omega
    · cases h
  | sendReply =>
    simp only [serverNext] at h
    split at h
    · rename_i r hat
      cases h
      obtain ⟨hclient, hup, hdata, hclosed, hchild, hserver⟩ :=
        replyNext_spec s { s.child with m2 := putResult s.child.m2 r }
      refine ⟨hclient, hclosed, .inr ⟨?_, ?_⟩⟩
      · rcases hserver with hserver | hserver <;> simp only [Copy2.early, hclient, hup, hserver, hat]
      · rcases hserver with hserver | hserver <;>
          simp only [Copy2.pending, Copy2.unread, hclient, hdata, hchild, hserver, hat] <;> omega
    · cases h
  | openDst | sendRequest | readData _ | writeDst _ | receiveReply => cases h

/-- **A step** of a run whose destination can be opened goes down, and does not lead out of the loop of the client. -/
theorem copy2_step {cfg : Copy2Config} {s s' : Copy2} {e : Event} (hopens : cfg.Opens) (hs : s.Open)
    (h : copy2Step cfg s e s') : s'.Open ∧ s'.rank < s.rank := by
  rcases h with ⟨he, h | h⟩
  · exact clientNext_open hopens hs he h
  · obtain ⟨hclient, hclosed, hlt⟩ := serverNext_open he h
    exact ⟨⟨hclient ▸ hs.client, hclosed.trans hs.dataClosed⟩, hlt⟩

theorem start_open (cfg : Copy2Config) : (Copy2.start cfg).Open :=
  ⟨trivial, rfl⟩

/-- A client that can open its destination never returns. -/
theorem copy2_never_returns {cfg : Copy2Config} (hopens : cfg.Opens) {s : Copy2} (h : s.Reached cfg) (r : ℤ) :
    s.client ≠ .returned r := by
  have hs : s.Open := h.invariant (fun s hs => hs ▸ start_open cfg) fun s e s' hs hstep =>
    (copy2_step hopens hs hstep).1
  intro heq
  have hclient := hs.client
  rw [heq] at hclient
  exact hclient

/-- Its runs come to an end where neither process can take a step. -/
theorem copy2_deadlocks {cfg : Copy2Config} (hopens : cfg.Opens) :
    ∃ s, s.Reached cfg ∧ (∀ r, s.client ≠ .returned r) ∧ ∀ e s', ¬ copy2Step cfg s e s' := by
  have hstart : (Copy2.start cfg).Reached cfg := .init rfl
  obtain ⟨s, hreached, -, hstuck⟩ := hstart.exists_final Copy2.rank
    (fun s e s' hs hstep => copy2_step hopens hs hstep) (start_open cfg)
  exact ⟨s, hreached, copy2_never_returns hopens hreached, hstuck⟩

/-! ## Runs -/

/-- A step of a client that cannot open its destination. -/
theorem copy2Step_refused {cfg : Copy2Config} (hopens : ¬ cfg.Opens) {s s' : Copy2} {e : Event}
    (hs : s.client = .opening ∨ s.client = .returned eIo) (h : copy2Step cfg s e s') :
    s'.client = .opening ∨ s'.client = .returned eIo := by
  have hnone := (openDst_none_iff cfg).mpr hopens
  rcases h with ⟨he, h | h⟩
  · rcases hs with hat | hat
    · cases e <;> simp only [clientNext, hat, hnone, reduceCtorEq, Option.some.injEq] at h
      exact .inr (h ▸ rfl)
    · cases e <;> simp only [clientNext, hat, reduceCtorEq] at h
  · rw [(serverNext_open he h).1]
    exact hs

/-- A client that cannot open its destination does nothing but return an error. -/
theorem copy2_refused {cfg : Copy2Config} (hopens : ¬ cfg.Opens) {s : Copy2} (h : s.Reached cfg) :
    s.client = .opening ∨ s.client = .returned eIo :=
  h.invariant (I := fun s => s.client = .opening ∨ s.client = .returned eIo) (fun _ hs => .inl (hs ▸ rfl))
    fun _ _ _ hs hstep => copy2Step_refused hopens hs hstep

/-- **When the fast transfer cannot deadlock.** In every reachable state in which `copy_2` has not returned some process
can take a step, for every way the data is cut into reads and writes, if and only if the client cannot open the
destination. -/
theorem copy2_live_iff (cfg : Copy2Config) :
    (∀ s, s.Reached cfg → (∃ r, s.client = .returned r) ∨ ∃ e s', copy2Step cfg s e s') ↔ ¬ cfg.Opens := by
  constructor
  · intro h hopens
    obtain ⟨s, hreached, hnot, hstuck⟩ := copy2_deadlocks hopens
    rcases h s hreached with ⟨r, hr⟩ | ⟨e, s', hstep⟩
    · exact hnot r hr
    · exact hstuck e s' hstep
  · intro hopens s hreached
    have hnone := (openDst_none_iff cfg).mpr hopens
    rcases copy2_refused hopens hreached with hat | hat
    · right
      refine ⟨.openDst, { s with client := .returned eIo }, trivial, .inl ?_⟩
      simp only [clientNext, hat, hnone]
    · left
      exact ⟨eIo, hat⟩

/-- A file `a` of three bytes, and a destination that is not there: a deadlock is reached. -/
theorem new_destination_deadlocks :
    let cfg : Copy2Config :=
      ⟨[97], [98], fun _ => none, true, Function.update (fun _ => none) [97] (some [1, 2, 3]), true⟩
    ∃ s, s.Reached cfg ∧ (∀ r, s.client ≠ .returned r) ∧ ∀ e s', ¬ copy2Step cfg s e s' :=
  copy2_deadlocks ⟨rfl, rfl⟩

end CoupledCC.Transfer
