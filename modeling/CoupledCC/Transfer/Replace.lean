import CoupledCC.Transfer.CopyFile
import CoupledCC.Transfer.FastTransfer

/-!
# What a transfer makes of its destination

A transfer is a run of `copy` that has returned, or one of `copy_2` whose data stream has ended. No call fails, but
reads and writes may be short. The client of the slow transfer asks again for what was not written; what a write of the
fast transfer leaves out is lost.

- `streamStep_flows`: a step of the fast transfer moves bytes on from the source to the destination, or loses them;
- `stream_completes`: there are such runs, which lose nothing;
- `Transferred.spec`: a transfer makes a copy of the source, less the lost bytes, if the destination was not there; if
  it was, it returns an error and leaves it;
- `transfers_replace_iff`: so a second transfer never replaces what the first one made.
-/

namespace CoupledCC.Transfer

open Bytes Files Runs

/-! ## The end of the data stream -/

/-- The child has left the loop that sends the file. -/
def Copy2.Sent (s : Copy2) : Prop :=
  s.child.m1.Streams ∧ (s.server = .receiving ∨ ∃ r, s.server = .replying r)

/-- A step of one of the two processes; or the data stream ends (`none`), after the file was sent. -/
def streamStep (cfg : Copy2Config) (s : Copy2) (e : Option Event) (s' : Copy2) : Prop :=
  match e with
  | some e => copy2Step cfg s e s'
  | none => s.Sent ∧ s' = { s with dataClosed := true }

/-- The destination: nothing but `written` is written to it, from its start on. -/
def Copy2.dstContent (cfg : Copy2Config) (s : Copy2) : Option (List U8) :=
  match openFile cfg.dstPermitted writeFlags cfg.dst cfg.clientFs with
  | none => cfg.clientFs cfg.dst
  | some (fs, fd) => some (overwrite (content fs fd.name) fd.pos s.written)

/-- The bytes that a write leaves out. -/
def lostBytes (t : Transition Copy2 (Option Event)) : ℕ :=
  match t.2.1, t.1.client, t.1.server with
  | some (.writeDst io), .writing buffer, _ => buffer.length - (io.transfer buffer.length).getD 0
  | some (.writeData io), _, .writing buffer => buffer.length - (io.transfer buffer.length).getD 0
  | _, _, _ => 0

/-- The bytes that the writes of a run leave out. -/
def totalLost (tr : List (Transition Copy2 (Option Event))) : ℕ :=
  (tr.map lostBytes).sum

/-! ## Where the bytes are -/

def Copy2.clientBuffer (s : Copy2) : List U8 :=
  match s.client with
  | .writing buffer => buffer
  | _ => []

def Copy2.serverBuffer (s : Copy2) : List U8 :=
  match s.server with
  | .writing buffer => buffer
  | _ => []

/-- The bytes of the source that have not been read. -/
def Copy2.toRead (cfg : Copy2Config) (s : Copy2) : List U8 :=
  match s.child.server.rfd with
  | none => content s.child.server.fs cfg.src
  | some fd => s.rest fd

/-- The bytes from the destination back to the source. -/
def Copy2.flow (cfg : Copy2Config) (s : Copy2) : List U8 :=
  (s.written ++ s.clientBuffer) ++ s.data ++ (s.serverBuffer ++ s.toRead cfg)

/-- Everything has been read, and written to the data connection. -/
structure Copy2.Drained (s : Copy2) : Prop where
  read : ∃ fd, s.child.server.rfd = some fd ∧ s.rest fd = []
  buffer : s.serverBuffer = []

/-- What holds of a run that can open its files, when `lost` bytes have been lost. -/
structure Flows (cfg : Copy2Config) (source : List U8) (lost : ℕ) (s : Copy2) : Prop where
  file : s.child.server.fs cfg.src = some source
  up : ∀ m ∈ s.up, m.Streams ∧ m.path = cfg.src
  handling : s.server = .handling → s.child.m1.Streams ∧ s.child.m1.path = cfg.src
  rfd : ∀ fd, s.child.server.rfd = some fd → fd.name = cfg.src
  flow : (s.flow cfg).Sublist source ∧ (s.flow cfg).length + lost = source.length
  sent : s.Sent → s.Drained
  closed : s.dataClosed = true → s.Drained
  finished : ¬ s.client.Waiting → s.dataClosed = true ∧ s.data = []
  replying : ∀ r, s.server = .replying r → r = 0
  down : ∀ m ∈ s.down, m.result = 0
  returned : ∀ r, s.client = .returned r → r = resultOk

/-- The request of `copy_2` as it arrives. -/
theorem contentRequest_spec {src : Name} (hsrc : GoodName src) {m : Message}
    (h : (contentRequest src).bind deliver = some m) : m.Streams ∧ m.path = src := by
  obtain ⟨m₀, hrequest, hread⟩ := readRequest_spec hsrc 0
  rw [contentRequest, hrequest, Option.map_some, Option.bind_some, deliver] at h
  obtain ⟨-, heq⟩ := Option.ite_none_right_eq_some.mp h
  cases heq
  exact ⟨⟨hread.opcode, by simp [Message.trim]⟩, hread.path⟩

/-- What is read and written of the source depends on the child alone. -/
theorem Copy2.Drained.congr {s s' : Copy2} (h : s.Drained) (hserver : s'.server = s.server)
    (hchild : s'.child = s.child) : s'.Drained := by
  obtain ⟨⟨fd, hrfd, hrest⟩, hbuffer⟩ := h
  constructor
  · exact ⟨fd, by rw [hchild, hrfd], by rwa [Copy2.rest, hchild]⟩
  · rwa [Copy2.serverBuffer, hserver]

/-! ## Steps of the client -/

section Client

variable {cfg : Copy2Config} {source : List U8} {lost k : ℕ} {s s' : Copy2}

/-- A step that leaves the child as it is. -/
theorem Flows.client (hs : Flows cfg source lost s) (hserver : s'.server = s.server) (hchild : s'.child = s.child)
    (hclosed : s'.dataClosed = s.dataClosed) (hup : ∀ m ∈ s'.up, m.Streams ∧ m.path = cfg.src)
    (hdown : ∀ m ∈ s'.down, m ∈ s.down)
    (hflow : ((s'.written ++ s'.clientBuffer) ++ s'.data).Sublist ((s.written ++ s.clientBuffer) ++ s.data) ∧
      ((s'.written ++ s'.clientBuffer) ++ s'.data).length + k = ((s.written ++ s.clientBuffer) ++ s.data).length)
    (hfinished : ¬ s'.client.Waiting → s'.dataClosed = true ∧ s'.data = [])
    (hreturned : ∀ r, s'.client = .returned r → r = resultOk) : Flows cfg source (lost + k) s' := by
  have hback : s'.serverBuffer ++ s'.toRead cfg = s.serverBuffer ++ s.toRead cfg := by
    simp only [Copy2.serverBuffer, Copy2.toRead, Copy2.rest, hserver, hchild]
  have hdrained : s.Drained → s'.Drained := fun h => h.congr hserver hchild
  refine ⟨hchild ▸ hs.file, hup, ?_, ?_, ?_, ?_, ?_, hfinished, ?_, fun m hm => hs.down m (hdown m hm), hreturned⟩
  · rw [hserver, hchild]
    exact hs.handling
  · rw [hchild]
    exact hs.rfd
  · obtain ⟨hsub, hlen⟩ := hs.flow
    unfold Copy2.flow at hsub hlen ⊢
    rw [hback]
    constructor
    · exact (hflow.1.append_right _).trans hsub
    · rw [List.length_append] at hlen ⊢
      omega
  · intro hsent
    rw [Copy2.Sent, hserver, hchild] at hsent
    exact hdrained (hs.sent hsent)
  · rw [hclosed]
    exact fun h => hdrained (hs.closed h)
  · rw [hserver]
    exact hs.replying

/-- The client takes bytes out of the data connection, or finds its end. -/
theorem readData_flows {io : Io} (hs : Flows cfg source lost s) (hio : io ≠ .fail)
    (h : clientNext cfg s (.readData io) = some s') : Flows cfg source (lost + 0) s' := by
  obtain ⟨j, rfl⟩ := Io.exists_cut hio
  simp only [clientNext] at h
  split at h
  · rename_i hfail
    cases hfail
  · rename_i j' hat hcut
    cases hcut
    split at h
    · rename_i hdata
      cases h
      have htake : s.data.take (min chunkSize (j + 1)) ++ s.data.drop (min chunkSize (j + 1)) = s.data :=
        List.take_append_drop _ _
      have hlen : 0 < s.data.length := List.length_pos_iff.mpr hdata
      have hne : s.data.take (min chunkSize (j + 1)) ≠ [] := by
        rw [← List.length_pos_iff, List.length_take, chunkSize]
        omega
      refine hs.client rfl rfl rfl hs.up (fun m hm => hm) ?_ (fun h => absurd hne h) (fun r h => by cases h)
      simp only [Copy2.clientBuffer, hat, List.append_nil, List.append_assoc, htake]
      exact ⟨List.Sublist.refl _, rfl⟩
    · rename_i hdata
      split at h
      · rename_i hclosed
        cases h
        refine hs.client rfl rfl rfl hs.up (fun m hm => hm) ?_ (fun _ => ⟨hclosed, not_not.mp hdata⟩)
          (fun r h => by cases h)
        simp only [Copy2.clientBuffer, hat]
        exact ⟨List.Sublist.refl _, rfl⟩
      · cases h
  · cases h

/-- The client writes to the destination. -/
theorem writeDst_flows {io : Io} (hs : Flows cfg source lost s) (hio : io ≠ .fail)
    (h : clientNext cfg s (.writeDst io) = some s') :
    Flows cfg source (lost + lostBytes (s, some (.writeDst io), s')) s' := by
  obtain ⟨j, rfl⟩ := Io.exists_cut hio
  simp only [clientNext] at h
  split at h
  · rename_i buffer hat
    have hlost : lostBytes (s, some (.writeDst (.cut j)), s') = buffer.length - min buffer.length (j + 1) := by
      simp only [lostBytes, hat, Io.transfer, Option.getD_some]
    have hflow : ((s.written ++ buffer.take (min buffer.length (j + 1))) ++ [] ++ s.data).Sublist
          ((s.written ++ s.clientBuffer) ++ s.data) ∧
        ((s.written ++ buffer.take (min buffer.length (j + 1))) ++ [] ++ s.data).length +
          (buffer.length - min buffer.length (j + 1)) = ((s.written ++ s.clientBuffer) ++ s.data).length := by
      simp only [Copy2.clientBuffer, hat, List.append_nil]
      constructor
      · exact ((List.take_sublist _ _).append_left _).append_right _
      · simp only [List.length_append, List.length_take]
        omega
    rw [hlost]
    simp only [Io.transfer] at h
    by_cases hpos : 0 < min buffer.length (j + 1)
    · rw [if_pos hpos] at h
      cases h
      exact hs.client rfl rfl rfl hs.up (fun m hm => hm) hflow (fun h => absurd trivial h) (fun r h => by cases h)
    · -- a write of nothing, at the end of the data stream
      have hempty : buffer = [] := List.length_eq_zero_iff.mp (by omega)
      rw [if_neg hpos] at h
      cases h
      have hfinished := hs.finished (by rw [hat, hempty]; exact fun h => h rfl)
      exact hs.client rfl rfl rfl hs.up (fun m hm => hm) hflow (fun _ => hfinished) (fun r h => by cases h)
  · cases h

/-- **A step of the client** moves bytes on, or loses them. -/
theorem clientNext_flows (hopens : cfg.Opens) (hsrc : GoodName cfg.src) {e : Event} (hs : Flows cfg source lost s)
    (he : e.NoFailure) (h : clientNext cfg s e = some s') :
    Flows cfg source (lost + lostBytes (s, some e, s')) s' := by
  cases e with
  | openDst =>
    simp only [clientNext] at h
    split at h
    · rename_i hat
      split at h
      · rename_i hnone
        exact absurd hopens ((openDst_none_iff cfg).mp hnone)
      · cases h
        refine hs.client rfl rfl rfl hs.up (fun m hm => hm) ?_ (fun h => absurd trivial h) (fun r h => by cases h)
        simp only [Copy2.clientBuffer, hat]
        exact ⟨List.Sublist.refl _, rfl⟩
    · cases h
  | sendRequest =>
    simp only [clientNext] at h
    split at h
    · rename_i hat
      split at h
      · cases h
        refine hs.client rfl rfl rfl hs.up (fun m hm => hm) ?_ (fun h => absurd trivial h) (fun r h => by cases h)
        simp only [Copy2.clientBuffer, hat]
        exact ⟨List.Sublist.refl _, rfl⟩
      · rename_i m hrequest
        cases h
        refine hs.client rfl rfl rfl ?_ (fun m hm => hm) ?_ (fun h => absurd trivial h) (fun r h => by cases h)
        · intro m' hm'
          rcases List.mem_append.mp hm' with hm' | hm'
          · exact hs.up m' hm'
          · rw [List.mem_singleton.mp hm']
            exact contentRequest_spec hsrc hrequest
        · simp only [Copy2.clientBuffer, hat]
          exact ⟨List.Sublist.refl _, rfl⟩
    · cases h
  | readData io => exact readData_flows hs he h
  | writeDst io => exact writeDst_flows hs he h
  | receiveReply =>
    simp only [clientNext] at h
    split at h
    · rename_i m down hat hdown
      cases h
      have hresult : m.result = 0 := hs.down m (by simp [hdown])
      have hfinished := hs.finished (by rw [hat]; exact id)
      refine hs.client rfl rfl rfl hs.up (fun m hm => ?_) ?_ (fun _ => hfinished) ?_
      · rw [hdown]
        exact List.mem_cons_of_mem _ hm
      · simp only [Copy2.clientBuffer, hat]
        exact ⟨List.Sublist.refl _, rfl⟩
      · intro r hr
        rw [hresult] at hr
        cases hr
        rfl
    · cases h
  | receiveRequest | serve _ | openSrc | readSrc _ | writeData _ | sendReply => cases h

end Client

/-! ## Steps of the child -/

section Server

variable {cfg : Copy2Config} {source : List U8} {lost k : ℕ} {s s' : Copy2}

/-- A step that leaves the client as it is. -/
theorem Flows.server (hs : Flows cfg source lost s) (hclient : s'.client = s.client) (hwritten : s'.written = s.written)
    (hclosed : s'.dataClosed = s.dataClosed) (hfs : s'.child.server.fs = s.child.server.fs)
    (hup : ∀ m ∈ s'.up, m ∈ s.up) (hhandling : s'.server = .handling → s'.child.m1.Streams ∧ s'.child.m1.path = cfg.src)
    (hrfd : ∀ fd, s'.child.server.rfd = some fd → fd.name = cfg.src)
    (hflow : (s'.data ++ (s'.serverBuffer ++ s'.toRead cfg)).Sublist (s.data ++ (s.serverBuffer ++ s.toRead cfg)) ∧
      (s'.data ++ (s'.serverBuffer ++ s'.toRead cfg)).length + k = (s.data ++ (s.serverBuffer ++ s.toRead cfg)).length)
    (hdrained : s.Drained → s'.Drained ∧ s'.data = s.data) (hsent : s'.Sent → s'.Drained)
    (hreplying : ∀ r, s'.server = .replying r → r = 0) (hdown : ∀ m ∈ s'.down, m.result = 0) :
    Flows cfg source (lost + k) s' := by
  refine ⟨hfs ▸ hs.file, fun m hm => hs.up m (hup m hm), hhandling, hrfd, ?_, hsent, ?_, ?_, hreplying, hdown, ?_⟩
  · obtain ⟨hsub, hlen⟩ := hs.flow
    unfold Copy2.flow at hsub hlen ⊢
    have hfront : s'.clientBuffer = s.clientBuffer := by rw [Copy2.clientBuffer, hclient]; rfl
    rw [List.append_assoc] at hsub hlen ⊢
    rw [hwritten, hfront]
    constructor
    · exact (hflow.1.append_left _).trans hsub
    · rw [List.length_append] at hlen ⊢
      omega
  · rw [hclosed]
    exact fun h => (hdrained (hs.closed h)).1
  · intro hover
    rw [hclient] at hover
    obtain ⟨hclosed', hdata⟩ := hs.finished hover
    exact ⟨hclosed.trans hclosed', (hdrained (hs.closed hclosed')).2.trans hdata⟩
  · rw [hclient]
    exact hs.returned

/-- The source is open, or can be opened, where reading goes on. -/
theorem Flows.descriptor (hpermitted : cfg.srcPermitted = true) (hs : Flows cfg source lost s)
    (hpath : s.child.m1.path = cfg.src) :
    ∃ fd, CoupledCC.Transfer.descriptor s.child.server.rfd cfg.srcPermitted readFlags s.child.m1.path
      s.child.server.fs =
        some (s.child.server.fs, fd) ∧ fd.name = cfg.src ∧ s.rest fd = s.toRead cfg := by
  cases hrfd : s.child.server.rfd with
  | some fd => exact ⟨fd, rfl, hs.rfd fd hrfd, by simp only [Copy2.toRead, hrfd]⟩
  | none =>
    have hthere : s.child.server.fs cfg.src ≠ none := by simp [hs.file]
    refine ⟨⟨cfg.src, 0⟩, ?_, rfl, by simp only [Copy2.toRead, hrfd, Copy2.rest, List.drop_zero]⟩
    rw [CoupledCC.Transfer.descriptor, openFile_existing readFlags_creat, hpath, if_pos ⟨hpermitted, hthere⟩]

/-- The child opens the source. -/
theorem openSrc_flows (hpermitted : cfg.srcPermitted = true) (hs : Flows cfg source lost s)
    (h : serverNext cfg s .openSrc = some s') : Flows cfg source (lost + 0) s' := by
  simp only [serverNext] at h
  split at h
  · rename_i hat
    obtain ⟨hstreams, hpath⟩ := hs.handling hat
    obtain ⟨fd, hfd, hname, hrest⟩ := hs.descriptor hpermitted hpath
    simp only [if_pos hstreams, hfd] at h
    cases h
    refine hs.server rfl rfl rfl rfl (fun m hm => hm) (fun h => by cases h)
      ?_ ?_ ?_ ?_ (fun r hr => by cases hr) hs.down
    · intro fd' hfd'
      cases hfd'
      exact hname
    · have hbuffer : s.serverBuffer = [] := by simp only [Copy2.serverBuffer, hat]
      rw [hbuffer, ← hrest]
      exact ⟨List.Sublist.refl _, rfl⟩
    · rintro ⟨⟨fd₀, hrfd₀, hrest₀⟩, -⟩
      have hnone : s.rest fd = [] := by
        rw [hrest]
        simp only [Copy2.toRead, hrfd₀, hrest₀]
      exact ⟨⟨⟨fd, rfl, hnone⟩, rfl⟩, rfl⟩
    · rintro ⟨-, hat' | ⟨r, hat'⟩⟩ <;> cases hat'
  · cases h

/-- The child reads the source. -/
theorem readSrc_flows {io : Io} (hs : Flows cfg source lost s) (hio : io ≠ .fail)
    (h : serverNext cfg s (.readSrc io) = some s') : Flows cfg source (lost + 0) s' := by
  obtain ⟨j, rfl⟩ := Io.exists_cut hio
  simp only [serverNext] at h
  split at h
  · rename_i fd hat hrfd
    simp only [readFile_cut] at h
    have hbytes : sub (content s.child.server.fs fd.name) fd.pos (min chunkSize (j + 1)) =
        (s.rest fd).take (min chunkSize (j + 1)) := rfl
    have hend : (s.rest fd).take (min chunkSize (j + 1)) = [] → s.rest fd = [] := by
      rw [List.take_eq_nil_iff, chunkSize]
      intro h
      exact h.resolve_left (by omega)
    have hprefix : (s.rest fd).take (min chunkSize (j + 1)) <+: s.rest fd := List.take_prefix _ _
    rw [hbytes] at h
    generalize (s.rest fd).take (min chunkSize (j + 1)) = bytes at h hend hprefix
    have hsplit : bytes ++ (s.rest fd).drop bytes.length = s.rest fd := List.prefix_iff_eq_append.mp hprefix
    have hrest := rest_advance s fd bytes.length
    have hname : ∀ fd', some { fd with pos := fd.pos + bytes.length } = some fd' → fd'.name = cfg.src := by
      intro fd' hfd'
      cases hfd'
      exact hs.rfd fd hrfd
    have htoRead : s.toRead cfg = s.rest fd := by simp only [Copy2.toRead, hrfd]
    have hbuffer : s.serverBuffer = [] := by simp only [Copy2.serverBuffer, hat]
    by_cases hempty : bytes = []
    · -- the end of the file
      have hnone := hend hempty
      rw [if_pos hempty] at h
      cases h
      have hdone : s.rest { fd with pos := fd.pos + bytes.length } = [] := by rw [hrest, hnone, List.drop_nil]
      refine hs.server rfl rfl rfl rfl (fun m hm => hm) (fun h => by cases h) hname ?_ ?_ ?_ ?_ hs.down
      · rw [hbuffer, htoRead, ← hsplit, ← hrest, hempty]
        exact ⟨List.Sublist.refl _, rfl⟩
      · exact fun _ => ⟨⟨⟨_, rfl, hdone⟩, rfl⟩, rfl⟩
      · exact fun _ => ⟨⟨_, rfl, hdone⟩, rfl⟩
      · intro r hr
        cases hr
        rfl
    · rw [if_neg hempty] at h
      cases h
      refine hs.server rfl rfl rfl rfl (fun m hm => hm) (fun h => by cases h) hname ?_ ?_ ?_ (fun r hr => by cases hr)
        hs.down
      · rw [hbuffer, htoRead, ← hsplit, ← hrest]
        exact ⟨List.Sublist.refl _, rfl⟩
      · rintro ⟨⟨fd', hfd', hnone⟩, -⟩
        cases hrfd.symm.trans hfd'
        rw [hnone] at hprefix
        exact absurd (List.prefix_nil.mp hprefix) hempty
      · rintro ⟨-, hat' | ⟨r, hat'⟩⟩ <;> cases hat'
  · cases h

/-- The child writes to the data connection. -/
theorem writeData_flows {io : Io} (hs : Flows cfg source lost s) (hio : io ≠ .fail)
    (h : serverNext cfg s (.writeData io) = some s') :
    Flows cfg source (lost + lostBytes (s, some (.writeData io), s')) s' := by
  obtain ⟨j, rfl⟩ := Io.exists_cut hio
  simp only [serverNext] at h
  split at h
  · rename_i buffer hat
    have hlost : lostBytes (s, some (.writeData (.cut j)), s') = buffer.length - min buffer.length (j + 1) := by
      simp only [lostBytes, hat, Io.transfer, Option.getD_some]
    rw [hlost]
    simp only [Io.transfer, Option.getD_some] at h
    cases h
    refine hs.server rfl rfl rfl rfl (fun m hm => hm) (fun h => by cases h)
      hs.rfd ?_ ?_ ?_ (fun r hr => by cases hr) hs.down
    · have hbuffer : s.serverBuffer = buffer := by simp only [Copy2.serverBuffer, hat]
      rw [hbuffer]
      show ((s.data ++ buffer.take (min buffer.length (j + 1))) ++ s.toRead cfg).Sublist
        (s.data ++ (buffer ++ s.toRead cfg)) ∧
        ((s.data ++ buffer.take (min buffer.length (j + 1))) ++ s.toRead cfg).length + _ =
          (s.data ++ (buffer ++ s.toRead cfg)).length
      rw [List.append_assoc]
      constructor
      · exact ((List.take_sublist _ _).append_right _).append_left _
      · simp only [List.length_append, List.length_take]
        omega
    · rintro ⟨hread, hbuffer⟩
      have hempty : buffer = [] := by simpa only [Copy2.serverBuffer, hat] using hbuffer
      subst hempty
      exact ⟨⟨hread, rfl⟩, by simp⟩
    · rintro ⟨-, hat' | ⟨r, hat'⟩⟩ <;> cases hat'
  · cases h

/-- The child replies. -/
theorem sendReply_flows (hs : Flows cfg source lost s) (h : serverNext cfg s .sendReply = some s') :
    Flows cfg source (lost + 0) s' := by
  simp only [serverNext] at h
  split at h
  · rename_i r hat
    cases hs.replying r hat
    have hbuffer : s.serverBuffer = [] := by simp only [Copy2.serverBuffer, hat]
    unfold replyNext at h
    split at h
    · cases h
      refine hs.server rfl rfl rfl rfl (fun m hm => hm) (fun h => by cases h)
        hs.rfd ?_ ?_ ?_ (fun r hr => by cases hr) hs.down
      · rw [hbuffer]
        exact ⟨List.Sublist.refl _, rfl⟩
      · exact fun hd => ⟨⟨hd.read, rfl⟩, rfl⟩
      · rintro ⟨-, hat' | ⟨r, hat'⟩⟩ <;> cases hat'
    · rename_i m hdeliver
      cases h
      refine hs.server rfl rfl rfl rfl (fun m hm => hm) (fun h => by cases h)
        hs.rfd ?_ ?_ ?_ (fun r hr => by cases hr) ?_
      · rw [hbuffer]
        exact ⟨List.Sublist.refl _, rfl⟩
      · exact fun hd => ⟨⟨hd.read, rfl⟩, rfl⟩
      · exact fun hsent => ⟨(hs.sent ⟨hsent.1, .inr ⟨0, hat⟩⟩).read, rfl⟩
      · intro m' hm'
        rcases List.mem_append.mp hm' with hm' | hm'
        · exact hs.down m' hm'
        · obtain ⟨-, heq⟩ := Option.ite_none_right_eq_some.mp hdeliver
          cases heq
          rw [List.mem_singleton.mp hm']
          rfl
  · cases h

/-- **A step of the child** moves bytes on, or loses them. -/
theorem serverNext_flows (hpermitted : cfg.srcPermitted = true) {e : Event} (hs : Flows cfg source lost s)
    (he : e.NoFailure) (h : serverNext cfg s e = some s') :
    Flows cfg source (lost + lostBytes (s, some e, s')) s' := by
  cases e with
  | receiveRequest =>
    simp only [serverNext] at h
    split at h
    · rename_i m up hat hup
      cases h
      refine hs.server rfl rfl rfl rfl (fun m' hm' => ?_) (fun _ => hs.up m (by simp [hup])) hs.rfd ?_ ?_ ?_ ?_ hs.down
      · rw [hup]
        exact List.mem_cons_of_mem _ hm'
      · simp only [Copy2.serverBuffer, hat]
        exact ⟨List.Sublist.refl _, rfl⟩
      · exact fun hd => ⟨⟨hd.read, rfl⟩, rfl⟩
      · rintro ⟨-, hat' | ⟨r, hat'⟩⟩ <;> cases hat'
      · intro r hr
        cases hr
    · cases h
  | serve o =>
    simp only [serverNext] at h
    split at h
    · rename_i hat
      rw [if_pos (hs.handling hat).1] at h
      cases h
    · cases h
  | openSrc => exact openSrc_flows hpermitted hs h
  | readSrc io => exact readSrc_flows hs he h
  | writeData io => exact writeData_flows hs he h
  | sendReply => exact sendReply_flows hs h
  | openDst | sendRequest | readData _ | writeDst _ | receiveReply => cases h

end Server

/-! ## Runs of the fast transfer -/

/-- **A step** moves bytes on from the source to the destination, or loses them. -/
theorem streamStep_flows {cfg : Copy2Config} {source : List U8} {lost : ℕ} {s s' : Copy2} {e : Option Event}
    (hopens : cfg.Opens) (hpermitted : cfg.srcPermitted = true) (hsrc : GoodName cfg.src)
    (hs : Flows cfg source lost s) (h : streamStep cfg s e s') : Flows cfg source (lost + lostBytes (s, e, s')) s' := by
  cases e with
  | some e =>
    rcases h with ⟨he, h | h⟩
    · exact clientNext_flows hopens hsrc hs he h
    · exact serverNext_flows hpermitted hs he h
  | none =>
    obtain ⟨hsent, rfl⟩ := h
    have hdrained := hs.sent hsent
    exact ⟨hs.file, hs.up, hs.handling, hs.rfd, hs.flow, fun _ => ⟨hdrained.read, hdrained.buffer⟩,
      fun _ => ⟨hdrained.read, hdrained.buffer⟩, fun h => ⟨rfl, (hs.finished h).2⟩, hs.replying, hs.down, hs.returned⟩

theorem start_flows {cfg : Copy2Config} {source : List U8} (hfile : cfg.serverFs cfg.src = some source) :
    Flows cfg source 0 (Copy2.start cfg) := by
  have hflow : (Copy2.start cfg).flow cfg = source := by
    show content cfg.serverFs cfg.src = source
    rw [content, hfile]
    rfl
  refine ⟨hfile, fun m hm => (by cases hm), fun h => (by cases h), fun fd h => (by cases h), ?_, ?_,
    fun h => (by cases h),
    fun h => absurd trivial h, fun r h => (by cases h), fun m hm => (by cases hm), fun r h => (by cases h)⟩
  · rw [hflow]
    exact ⟨List.Sublist.refl _, rfl⟩
  · rintro ⟨⟨hop, -⟩, -⟩
    have hzero : Message.zero.opcode ≠ opRead := by decide
    exact absurd hop hzero

/-- **A run** has moved on all bytes that it has not lost. -/
theorem stream_flows {cfg : Copy2Config} {source : List U8} {s : Copy2} {tr : List (Transition Copy2 (Option Event))}
    (hopens : cfg.Opens) (hpermitted : cfg.srcPermitted = true) (hsrc : GoodName cfg.src)
    (hfile : cfg.serverFs cfg.src = some source) (h : Trace (streamStep cfg) (Copy2.start cfg) tr s) :
    Flows cfg source (totalLost tr) s := by
  have hrun : Flows cfg source (history (fun n t => n + lostBytes t) 0 tr) s :=
    h.history_invariant (J := fun n s => Flows cfg source n s)
      (fun n s e s' hs hstep => streamStep_flows hopens hpermitted hsrc hs hstep) 0 (start_flows hfile)
  have htotal : history (fun n t => n + lostBytes t) 0 tr = totalLost tr := by
    rw [totalLost, List.sum_eq_foldl, List.foldl_map]
    rfl
  rwa [htotal] at hrun

/-- A run whose client has returned: the destination has the source, less the lost bytes. -/
theorem stream_returned {cfg : Copy2Config} {source : List U8} {s : Copy2} {r : ℤ}
    {tr : List (Transition Copy2 (Option Event))} (hopens : cfg.Opens) (hpermitted : cfg.srcPermitted = true)
    (hsrc : GoodName cfg.src) (hfile : cfg.serverFs cfg.src = some source)
    (h : Trace (streamStep cfg) (Copy2.start cfg) tr s) (hr : s.client = .returned r) :
    r = resultOk ∧ s.dstContent cfg = some s.written ∧ s.written.Sublist source ∧
      s.written.length + totalLost tr = source.length := by
  have hs := stream_flows hopens hpermitted hsrc hfile h
  obtain ⟨hclosed, hdata⟩ := hs.finished (by rw [hr]; exact id)
  obtain ⟨⟨fd, hrfd, hrest⟩, hbuffer⟩ := hs.closed hclosed
  have hflow : s.flow cfg = s.written := by
    simp only [Copy2.flow, Copy2.clientBuffer, hr, hdata, hbuffer, Copy2.toRead, hrfd, hrest, List.append_nil]
  have hcopied := hs.flow
  rw [hflow] at hcopied
  refine ⟨hs.returned r hr, ?_, hcopied⟩
  have hboth : cfg.dstPermitted = true ∧ cfg.clientFs cfg.dst = none := hopens
  rw [Copy2.dstContent, openFile_writeFlags, if_pos hboth]
  simp [overwrite, content]

/-- A run whose client cannot open the destination. -/
theorem stream_refused {cfg : Copy2Config} {s : Copy2} {r : ℤ} {tr : List (Transition Copy2 (Option Event))}
    (hopens : ¬ cfg.Opens) (h : Trace (streamStep cfg) (Copy2.start cfg) tr s) (hr : s.client = .returned r) :
    r = eIo ∧ s.dstContent cfg = cfg.clientFs cfg.dst := by
  have hclient : s.client = .opening ∨ s.client = .returned eIo := by
    refine h.invariant (I := fun s => s.client = .opening ∨ s.client = .returned eIo)
      (fun s e s' hs hstep => ?_) (.inl rfl)
    cases e with
    | some e => exact copy2Step_refused hopens hs hstep
    | none =>
      obtain ⟨-, rfl⟩ := hstep
      exact hs
  constructor
  · rcases hclient with hat | hat <;> cases hr.symm.trans hat
    rfl
  · rw [Copy2.dstContent, (openDst_none_iff cfg).mpr hopens]

/-! ## A run that loses nothing -/

/-- A run from `s` to `s'` that loses nothing. -/
def Moves (cfg : Copy2Config) (s s' : Copy2) : Prop :=
  ∃ tr, Trace (streamStep cfg) s tr s' ∧ totalLost tr = 0

section Moves

variable {cfg : Copy2Config} {s s₁ s' : Copy2}

theorem Moves.cons {e : Option Event} (h : streamStep cfg s e s₁) (hlost : lostBytes (s, e, s₁) = 0)
    (hrest : Moves cfg s₁ s') : Moves cfg s s' := by
  obtain ⟨tr, htrace, htotal⟩ := hrest
  refine ⟨_, .cons h htrace, ?_⟩
  rw [totalLost, List.map_cons, List.sum_cons, hlost, Nat.zero_add]
  exact htotal

/-- The child sends the rest of the file. -/
theorem moves_send {fd : Fd} (hat : s.server = .reading) (hrfd : s.child.server.rfd = some fd)
    (h : Moves cfg (s.streamed (.replying 0) fd (s.rest fd)) s') : Moves cfg s s' := by
  induction hlen : (s.rest fd).length using Nat.strong_induction_on generalizing s fd with
  | _ len ih =>
    by_cases hrest : s.rest fd = []
    · rw [hrest] at h
      exact h.cons (e := some (.readSrc (.cut 0))) ⟨Io.noConfusion, .inr (stream_end 0 hat hrfd hrest)⟩ rfl
    · have hpos : 0 < (s.rest fd).length := List.length_pos_iff.mpr hrest
      have hchunk : min chunkSize (chunkSize + 1) = chunkSize := Nat.min_eq_left (Nat.le_succ _)
      obtain ⟨s₁, bytes, hwriting, hread, hwrite⟩ := stream_turn cfg chunkSize hat hrfd hrest
      rw [hchunk] at hwrite
      have hnext := rest_streamed s .reading fd chunkSize
      have hless : ((s.rest fd).drop chunkSize).length < len := by
        rw [List.length_drop, chunkSize]
        omega
      have hloop : Moves cfg (s.streamed .reading fd ((s.rest fd).take chunkSize)) s' := by
        apply ih _ hless (s := s.streamed .reading fd ((s.rest fd).take chunkSize)) rfl rfl ?_ (by rw [hnext])
        rw [hnext, Copy2.streamed_streamed, List.take_append_drop]
        exact h
      have hlost : ∀ s₂, lostBytes (s₁, some (.writeData (.cut bytes.length)), s₂) = 0 := by
        intro s₂
        simp only [lostBytes, hwriting, Io.transfer, Option.getD_some]
        omega
      exact (hloop.cons (e := some (.writeData (.cut bytes.length))) ⟨Io.noConfusion, .inr hwrite⟩ (hlost _)).cons
        (e := some (.readSrc (.cut chunkSize))) ⟨Io.noConfusion, .inr hread⟩ rfl

/-- The client writes what has come, up to the end of the data stream. -/
theorem moves_drain (hat : s.client = .reading) (hclosed : s.dataClosed = true)
    (h : Moves cfg { s with client := .receiving, data := [], written := s.written ++ s.data } s') :
    Moves cfg s s' := by
  induction hlen : s.data.length using Nat.strong_induction_on generalizing s with
  | _ len ih =>
    by_cases hdata : s.data = []
    · have hread : streamStep cfg s (some (.readData (.cut 0))) { s with client := .writing [] } := by
        refine ⟨Io.noConfusion, .inl ?_⟩
        simp [clientNext, hat, hdata, hclosed]
      have hwrite : streamStep cfg { s with client := .writing [] } (some (.writeDst (.cut 0)))
          { s with client := .receiving, data := [], written := s.written ++ s.data } := by
        refine ⟨Io.noConfusion, .inl ?_⟩
        simp [clientNext, hdata, Io.transfer]
      exact (h.cons hwrite rfl).cons hread rfl
    · have hpos : 0 < s.data.length := List.length_pos_iff.mpr hdata
      have hread : streamStep cfg s (some (.readData (.cut chunkSize)))
          { s with client := .writing (s.data.take chunkSize), data := s.data.drop chunkSize } := by
        refine ⟨Io.noConfusion, .inl ?_⟩
        simp [clientNext, hat, hdata]
      have hsize : (s.data.take chunkSize).length ≤ chunkSize := List.length_take_le _ _
      have hsome : 0 < (s.data.take chunkSize).length := by
        rw [List.length_take, chunkSize]
        omega
      have hwhole : min (s.data.take chunkSize).length (chunkSize + 1) = (s.data.take chunkSize).length := by omega
      have hwrite : streamStep cfg { s with client := .writing (s.data.take chunkSize), data := s.data.drop chunkSize }
          (some (.writeDst (.cut chunkSize)))
          { s with
            client := .reading, data := s.data.drop chunkSize, written := s.written ++ s.data.take chunkSize } := by
        refine ⟨Io.noConfusion, .inl ?_⟩
        simp only [clientNext, Io.transfer, hwhole, if_pos hsome, List.take_length]
      have hlost : ∀ s₂,
          lostBytes ({ s with client := .writing (s.data.take chunkSize), data := s.data.drop chunkSize },
          some (.writeDst (.cut chunkSize)), s₂) = 0 := by
        intro s₂
        simp only [lostBytes, Io.transfer, hwhole, Option.getD_some, Nat.sub_self]
      have hless : (s.data.drop chunkSize).length < len := by
        rw [List.length_drop, chunkSize]
        omega
      refine ((ih _ hless (s := { s with
        client := .reading, data := s.data.drop chunkSize, written := s.written ++ s.data.take chunkSize }) rfl hclosed
        ?_ rfl).cons hwrite (hlost _)).cons hread rfl
      simp only [List.append_assoc, List.take_append_drop]
      exact h

/-- The request of `copy_2` is delivered. -/
theorem contentRequest_delivered {src : Name} (hsrc : GoodName src) :
    ∃ m, (contentRequest src).bind deliver = some m := by
  obtain ⟨m, hrequest, hread⟩ := readRequest_spec hsrc 0
  have hwf : ({ m with sendFileContent := 1 } : Message).WellFormed :=
    ⟨hread.wellFormed.nameLen, hread.wellFormed.count⟩
  exact ⟨_, by rw [contentRequest, hrequest, Option.map_some, Option.bind_some, deliver, if_pos hwf]⟩

end Moves

section Completes

variable {cfg : Copy2Config}

/-- After the data stream has ended, the client takes the data and the reply. -/
theorem moves_receive (cfg : Copy2Config) {s : Copy2} {reply : Message} {down : List Message}
    (hat : s.client = .reading) (hclosed : s.dataClosed = true)
    (hdown : s.down = reply :: down) (hresult : reply.result = 0) :
    ∃ s', Moves cfg s s' ∧ s'.client = .returned resultOk := by
  let s₁ : Copy2 := { s with client := .receiving, data := [], written := s.written ++ s.data }
  have hreceive : streamStep cfg s₁ (some .receiveReply) { s₁ with client := .returned resultOk, down := down } := by
    refine ⟨trivial, .inl ?_⟩
    simp only [s₁, clientNext, hdown, hresult]
    rfl
  have hlast : Moves cfg s₁ { s₁ with client := .returned resultOk, down := down } :=
    Moves.cons hreceive rfl ⟨[], .nil _, rfl⟩
  exact ⟨_, moves_drain hat hclosed hlast, rfl⟩

/-- After the file was sent, the child replies, and the data stream ends. -/
theorem moves_reply (cfg : Copy2Config) {s : Copy2} (hclient : s.client = .reading) (hserver : s.server = .replying 0)
    (hstreams : s.child.m1.Streams)
    (hm2 : ReplyOk s.child.m2) (hdown : s.down = []) : ∃ s', Moves cfg s s' ∧ s'.client = .returned resultOk := by
  have hok : ReplyOk (putResult s.child.m2 0) := putResult_replyOk hm2 (by decide)
  have hdeliver : deliver (putResult s.child.m2 0) = some (putResult s.child.m2 0).trim := if_pos hok.wellFormed
  let s₁ : Copy2 := { s with
    server := .receiving, child := { s.child with m2 := putResult s.child.m2 0 }
    down := [(putResult s.child.m2 0).trim] }
  have hreply : streamStep cfg s (some .sendReply) s₁ := by
    refine ⟨trivial, .inr ?_⟩
    simp only [serverNext, hserver, replyNext, hdeliver, hdown, List.nil_append, s₁]
  have hend : streamStep cfg s₁ none { s₁ with dataClosed := true } := ⟨⟨hstreams, .inl rfl⟩, rfl⟩
  obtain ⟨s', hmoves, hr⟩ := moves_receive cfg (s := { s₁ with dataClosed := true }) hclient rfl rfl rfl
  exact ⟨s', (hmoves.cons hend rfl).cons hreply rfl, hr⟩

/-- **The fast transfer can succeed**: with whole writes, and the end of the data stream after the file was sent, the
client returns `OK`. -/
theorem stream_completes {source : List U8} (hopens : cfg.Opens) (hpermitted : cfg.srcPermitted = true)
    (hsrc : GoodName cfg.src) (hfile : cfg.serverFs cfg.src = some source) :
    ∃ s, Moves cfg (Copy2.start cfg) s ∧ s.client = .returned resultOk := by
  obtain ⟨m, hrequest⟩ := contentRequest_delivered hsrc
  obtain ⟨hstreams, hpath⟩ := contentRequest_spec hsrc hrequest
  let s₁ : Copy2 := { Copy2.start cfg with client := .sending }
  let s₂ : Copy2 := { s₁ with client := .reading, up := [m] }
  let s₃ : Copy2 := { s₂ with server := .handling, child := { s₂.child with m1 := m }, up := [] }
  let s₄ : Copy2 := { s₃ with
    server := .reading
    child := { s₃.child with server := { s₃.child.server with rfd := some ⟨cfg.src, 0⟩ } } }
  have hopen : streamStep cfg (Copy2.start cfg) (some .openDst) s₁ := by
    refine ⟨trivial, .inl ?_⟩
    have hboth : cfg.dstPermitted = true ∧ cfg.clientFs cfg.dst = none := hopens
    simp only [clientNext, Copy2.start, openFile_writeFlags, if_pos hboth, s₁]
  have hsend : streamStep cfg s₁ (some .sendRequest) s₂ := by
    refine ⟨trivial, .inl ?_⟩
    simp only [clientNext, hrequest, s₁, s₂]
    rfl
  have hreceive : streamStep cfg s₂ (some .receiveRequest) s₃ := ⟨trivial, .inr rfl⟩
  have hthere : cfg.srcPermitted = true ∧ cfg.serverFs cfg.src ≠ none := ⟨hpermitted, by simp [hfile]⟩
  have hfd : descriptor none cfg.srcPermitted readFlags m.path cfg.serverFs = some (cfg.serverFs, ⟨cfg.src, 0⟩) := by
    rw [descriptor, openFile_existing readFlags_creat, hpath, if_pos hthere]
  have hsource : streamStep cfg s₃ (some .openSrc) s₄ := by
    refine ⟨trivial, .inr ?_⟩
    have hat : s₃.server = .handling := rfl
    have hm1 : s₃.child.m1 = m := rfl
    have hnone : s₃.child.server.rfd = none := rfl
    have hfs : s₃.child.server.fs = cfg.serverFs := rfl
    simp only [serverNext, hat, hm1, hnone, hfs, if_pos hstreams, hfd]
    rfl
  obtain ⟨s', hmoves, hr⟩ := moves_reply cfg (s := s₄.streamed (.replying 0) ⟨cfg.src, 0⟩ (s₄.rest ⟨cfg.src, 0⟩))
    rfl rfl hstreams replyOk_zero rfl
  exact ⟨s', ((((moves_send rfl rfl hmoves).cons hsource rfl).cons hreceive rfl).cons hsend rfl).cons hopen rfl, hr⟩

end Completes

/-! ## Transfers -/

/-- A transfer of `source` to the file `dst`, whose content was `before` and is `after`. It returned `r`, and `lost`
bytes were lost. All calls of `open` are permitted, and none of the others fails. -/
inductive Transferred (dst : Name) (source : List U8) : Option (List U8) → Option (List U8) → ℤ → ℕ → Prop
  | copy {src : Name} {turns : ℕ → Turn} {fs : FileSys} {n : ℕ} {r : ℤ} (hsrc : GoodName src) (hdst : GoodName dst)
    (hfile : fs src = some source) (hlen : source.length < 2 ^ 63) (hio : ∀ n, (turns n).NoFailure)
    (hread : (turns 0).read.opens = true) (hwrite : (turns 0).write.opens = true)
    (hreturned : (copyRun src dst turns fs n).status = .returned r) :
    Transferred dst source (fs dst) ((copyRun src dst turns fs n).child.server.fs dst) r 0
  | copy2 {cfg : Copy2Config} {tr : List (Transition Copy2 (Option Event))} {s : Copy2} {r : ℤ}
    (hsrc : GoodName cfg.src)
    (hdst : cfg.dst = dst) (hfile : cfg.serverFs cfg.src = some source) (hread : cfg.srcPermitted = true)
    (hwrite : cfg.dstPermitted = true) (hrun : Trace (streamStep cfg) (Copy2.start cfg) tr s)
    (hreturned : s.client = .returned r) :
    Transferred dst source (cfg.clientFs dst) (s.dstContent cfg) r (totalLost tr)

/-- **What a transfer does**: it copies the source, less the lost bytes, if there was no destination; a destination that
was there is left as it was, and an error returned. -/
theorem Transferred.spec {dst : Name} {source : List U8} {before after : Option (List U8)} {r : ℤ} {lost : ℕ}
    (h : Transferred dst source before after r lost) :
    (before = none → r = resultOk ∧ ∃ copied, after = some copied ∧ copied.Sublist source ∧
        copied.length + lost = source.length) ∧
      (before ≠ none → r = eIo ∧ after = before) := by
  cases h with
  | copy hsrc hdst hfile hlen hio hread hwrite hreturned =>
    rename_i src turns fs n
    constructor
    · intro hnone
      obtain ⟨n', hok, hcopy⟩ := copyRun_fresh hsrc hdst hlen hio hfile hnone hread hwrite
      have hended : (copyRun src dst turns fs n).status ≠ .running := by simp [hreturned]
      have hended' : (copyRun src dst turns fs n').status ≠ .running := by simp [hok]
      have hsame : copyRun src dst turns fs n = copyRun src dst turns fs n' :=
        (copyRun_ended hended (le_max_left n n')).symm.trans (copyRun_ended hended' (le_max_right n n'))
      rw [hsame] at hreturned ⊢
      rw [hok] at hreturned
      exact ⟨(Status.returned.inj hreturned).symm, source, hcopy, List.Sublist.refl _, rfl⟩
    · intro hthere
      obtain ⟨hrefused, hsame⟩ := copyTurn_existing hsrc hdst hlen (hio 0) (copyRun_start dst turns hfile) hread rfl
        fun h => hthere h.1
      have hended : (copyRun src dst turns fs 1).status ≠ .running := by
        rw [copyRun, hrefused]
        exact Status.noConfusion
      have hfirst : copyRun src dst turns fs n = copyRun src dst turns fs 1 := by
        cases n with
        | zero => cases hreturned
        | succ n => exact copyRun_ended hended (Nat.le_add_left 1 n)
      rw [hfirst] at hreturned ⊢
      rw [copyRun, hrefused] at hreturned
      exact ⟨(Status.returned.inj hreturned).symm, congrFun hsame dst⟩
  | copy2 hsrc hdst hfile hread hwrite hrun hreturned =>
    subst hdst
    constructor
    · intro hnone
      obtain ⟨hr, hafter, hcopied⟩ := stream_returned ⟨hwrite, hnone⟩ hread hsrc hfile hrun hreturned
      exact ⟨hr, _, hafter, hcopied⟩
    · intro hthere
      obtain ⟨hr, hafter⟩ := stream_refused (fun hopens => hthere hopens.2) hrun hreturned
      exact ⟨hr, hafter⟩

/-- There is a fast transfer of every source to a new file. -/
theorem stream_transfers {cfg : Copy2Config} {source : List U8} (hopens : cfg.Opens)
    (hpermitted : cfg.srcPermitted = true) (hsrc : GoodName cfg.src) (hfile : cfg.serverFs cfg.src = some source) :
    Transferred cfg.dst source none (some source) resultOk 0 := by
  obtain ⟨s, ⟨tr, hrun, hlost⟩, hreturned⟩ := stream_completes hopens hpermitted hsrc hfile
  have h : Transferred cfg.dst source _ _ _ _ := .copy2 hsrc rfl hfile hpermitted hopens.1 hrun hreturned
  rw [hlost, hopens.2] at h
  obtain ⟨-, copied, hafter, hsub, hlen⟩ := h.spec.1 rfl
  rw [hafter, hsub.eq_of_length hlen] at h
  exact h

/-- There is a transfer whatever is to be transferred, and whatever the destination was. -/
theorem exists_transferred {src dst : Name} (hsrc : GoodName src) (hdst : GoodName dst) (hne : src ≠ dst)
    (source : List U8) (hlen : source.length < 2 ^ 63) (before : Option (List U8)) :
    ∃ after r, Transferred dst source before after r 0 := by
  let fs : FileSys := Function.update (Function.update (fun _ => none) src (some source)) dst before
  let turns (_ : ℕ) : Turn := ⟨⟨true, .cut 0, []⟩, ⟨true, .cut 0, []⟩⟩
  have hfile : fs src = some source := by simp [fs, hne]
  have hbefore : fs dst = before := by simp [fs]
  have hio : ∀ n, (turns n).NoFailure := fun _ => ⟨Io.noConfusion, Io.noConfusion⟩
  obtain ⟨n, r, hreturned⟩ : ∃ n r, (copyRun src dst turns fs n).status = .returned r := by
    by_cases hnone : fs dst = none
    · obtain ⟨n, hok, -⟩ := copyRun_fresh hsrc hdst hlen hio hfile hnone rfl rfl
      exact ⟨n, _, hok⟩
    · obtain ⟨hrefused, -⟩ := copyTurn_existing hsrc hdst hlen (hio 0) (copyRun_start dst turns hfile) rfl rfl
        fun h => hnone h.1
      exact ⟨1, _, hrefused⟩
  rw [← hbefore]
  exact ⟨_, r, .copy hsrc hdst hfile hlen hio rfl rfl hreturned⟩

/-- **What transfers leave.** A transfer returns `OK` exactly when there was no destination, and the destination then
has the length of the source exactly when no bytes were lost. If none were lost, a second transfer leaves what was there
before the first one, or else what the first one transferred: that is what the second one transfers exactly when the two
are the same. -/
theorem transfers_replace_iff {dst : Name} {A : List U8} {d₀ d₁ : Option (List U8)} {r : ℤ} {lost : ℕ}
    (hA : Transferred dst A d₀ d₁ r lost) :
    (r = resultOk ↔ d₀ = none) ∧ (r = resultOk → (d₁.map List.length = some A.length ↔ lost = 0)) ∧
      (lost = 0 → ∀ B d₂ r' lost', Transferred dst B d₁ d₂ r' lost' → (d₂ = some B ↔ d₀.getD A = B)) := by
  obtain ⟨hfresh, hthere⟩ := hA.spec
  cases d₀ with
  | none =>
    obtain ⟨hok, copied, rfl, hsub, hlen⟩ := hfresh rfl
    refine ⟨by simp [hok], fun _ => ?_, fun hlost B d₂ r' lost' hB => ?_⟩
    · rw [Option.map_some, Option.some_inj]
      omega
    · obtain ⟨-, rfl⟩ := hB.spec.2 (Option.some_ne_none _)
      rw [hsub.eq_of_length (by omega), Option.some_inj]
      rfl
  | some D =>
    obtain ⟨hr, rfl⟩ := hthere (Option.some_ne_none _)
    have hne : r ≠ resultOk := by
      rw [hr]
      decide
    refine ⟨by simp [hne], fun hok => absurd hok hne, fun _ B d₂ r' lost' hB => ?_⟩
    obtain ⟨-, rfl⟩ := hB.spec.2 (Option.some_ne_none _)
    rw [Option.some_inj]
    rfl

/-- The byte 1 transferred twice to a new file, by a fast transfer and then by a slow one. -/
theorem transfers_replace_iff_same :
    ∃ d₁ d₂ r₁ r₂, Transferred [98] [1] none d₁ r₁ 0 ∧ Transferred [98] [1] d₁ d₂ r₂ 0 ∧ d₂ = some [1] := by
  have hsrc : GoodName [97] := .single (by decide)
  have hdst : GoodName [98] := .single (by decide)
  let cfg : Copy2Config := ⟨[97], [98], fun _ => none, true, fun _ => some [1], true⟩
  have hopens : cfg.Opens := ⟨rfl, rfl⟩
  have hA : Transferred [98] [1] none (some [1]) resultOk 0 := stream_transfers hopens rfl hsrc rfl
  obtain ⟨d₂, r₂, hB⟩ := exists_transferred hsrc hdst (by decide) [1] (by decide) (some [1])
  have hiff := (transfers_replace_iff hA).2.2 rfl [1] d₂ r₂ 0 hB
  exact ⟨_, d₂, _, r₂, hA, hB, hiff.mpr rfl⟩

/-- The byte 1 and then the byte 2 transferred to a new file: the second transfer fails and leaves the first one. -/
theorem second_transfer_fails :
    Transferred [98] [1] none (some [1]) resultOk 0 ∧ Transferred [98] [2] (some [1]) (some [1]) eIo 0 := by
  have hsrc : GoodName [97] := .single (by decide)
  have hdst : GoodName [98] := .single (by decide)
  obtain ⟨d₁, r₁, hA⟩ := exists_transferred hsrc hdst (by decide) [1] (by decide) none
  obtain ⟨d₂, r₂, hB⟩ := exists_transferred hsrc hdst (by decide) [2] (by decide) (some [1])
  obtain ⟨rfl, copied, rfl, hsub, hlen⟩ := hA.spec.1 rfl
  obtain ⟨rfl, rfl⟩ := hB.spec.2 (Option.some_ne_none _)
  rw [hsub.eq_of_length hlen] at hA
  exact ⟨hA, hB⟩

end CoupledCC.Transfer
