import CoupledCC.Transfer.Children
import CoupledCC.Transfer.CopyFile

/-!
# Clients that copy side by side

Any number of clients run `copy` at the same time, each with a child of the server of its own. A step of a client is one
half of a turn of its loop: a request that is sent, served by its child and answered. The steps of the clients are
interleaved in any order.

- `step_pair`: two steps are one turn of `copy`;
- `copies_concurrent`: when no destination is the source or the destination of another client, every client that has
  taken enough steps has returned `OK` with its destination a copy of its source.
-/

namespace CoupledCC.Transfer

open Word Bytes Files Isolation

/-- A client and its child, without the files; `reply` is the reply to the READ request when the first half of a turn is
over. -/
structure Session where
  src : Name
  dst : Name
  memory : Memory
  position : U64
  status : Status
  passed : List Message
  reply : Option Message

def Session.start (src dst : Name) : Session :=
  ⟨src, dst, .fresh, 0, .running, [], none⟩

/-- The run of `copy` the session is in, over some files. -/
def Session.copy (s : Session) (fs : FileSys) : Copy :=
  ⟨s.memory.over fs, s.position, s.status, s.passed⟩

/-- The session after a part of a turn. -/
def Session.after (s : Session) (c : Copy) (reply : Option Message) : Session × FileSys :=
  ({ s with memory := c.child.memory, position := c.position, status := c.status, passed := c.passed, reply := reply },
    c.child.server.fs)

/-- One half of a turn of the loop of `copy`. -/
def Session.step (o : Outcome) (s : Session) (fs : FileSys) : Session × FileSys :=
  match s.status with
  | .running =>
    match s.reply with
    | none =>
      match readRequest s.src s.position with
      | none => s.after { s.copy fs with status := .crashed } none
      | some m =>
        match exchange o (s.memory.over fs) m with
        | ⟨passed, none⟩ => s.after { s.copy fs with status := .crashed, passed := s.passed ++ passed } none
        | ⟨passed, some (child, m1)⟩ =>
          s.after { s.copy fs with child := child, passed := s.passed ++ passed } (some m1)
    | some m1 => s.after (copyWrite s.dst o (s.copy fs) m1) none
  | _ => (s, fs)

/-! ## Turns -/

theorem step_ended (o : Outcome) {s : Session} (h : s.status ≠ .running) (fs : FileSys) : s.step o fs = (s, fs) := by
  unfold Session.step
  split
  · rename_i hrun
    exact absurd hrun h
  · rfl

theorem solo_ended {s : Session} (h : s.status ≠ .running) (os : List Outcome) (fs : FileSys) :
    solo Session.step os (s, fs) = (s, fs) := by
  induction os with
  | nil => rfl
  | cons o os ih =>
    rw [solo]
    simp only [step_ended o h]
    exact ih

/-- What is left of a session that has ended. -/
theorem after_copy {s : Session} (hreply : s.reply = none) (fs : FileSys) : s.after (s.copy fs) none = (s, fs) := by
  obtain ⟨src, dst, memory, position, status, passed, reply⟩ := s
  cases hreply
  rfl

/-- The second half of a turn. -/
theorem step_after (o : Outcome) (s : Session) {c : Copy} (hc : c.status = .running) (m1 : Message) :
    solo Session.step [o] (s.after c (some m1)) = s.after (copyWrite s.dst o c m1) none := by
  obtain ⟨child, position, status, passed⟩ := c
  cases hc
  rfl

/-- **Two steps are one turn.** -/
theorem step_pair (o o' : Outcome) {s : Session} (hreply : s.reply = none) (fs : FileSys) :
    solo Session.step [o, o'] (s, fs) = s.after (copyTurn s.src s.dst ⟨o, o'⟩ (s.copy fs)) none := by
  have hstatus : (s.copy fs).status = s.status := rfl
  have hposition : (s.copy fs).position = s.position := rfl
  have hchild : (s.copy fs).child = s.memory.over fs := rfl
  by_cases hrun : s.status = .running
  · have hcrash (c : Copy) (hc : c.status = .crashed) : solo Session.step [o'] (s.after c none) = s.after c none := by
      refine solo_ended ?_ _ _
      show c.status ≠ .running
      rw [hc]
      exact Status.noConfusion
    have hfirst : solo Session.step [o, o'] (s, fs) = solo Session.step [o'] (s.step o fs) := rfl
    rw [hfirst, copyTurn, hstatus, hrun, hposition, hchild, Session.step, hrun, hreply]
    dsimp only
    cases readRequest s.src s.position with
    | none => exact hcrash _ rfl
    | some m =>
      dsimp only
      rcases exchange o (s.memory.over fs) m with ⟨passed, _ | ⟨child, m1⟩⟩
      · exact hcrash _ rfl
      · exact step_after o' s hrun m1
  · rw [copyTurn_ended (hstatus ▸ hrun), solo_ended hrun, after_copy hreply]

/-! ## Steps are local -/

/-- **An exchange is local.** -/
theorem exchange_local (o : Outcome) {c : Child} {m : Message} {fs' : FileSys} {N W : Set Name} (hsub : W ⊆ N)
    (hc : Within N W { c with m1 := m.trim }) (hok : ReplyOk c.m2) (h : Set.EqOn c.server.fs fs' N) :
    (exchange o c m = ⟨[m], none⟩ ∧ exchange o (c.on fs') m = ⟨[m], none⟩) ∨
      ∃ c' w, exchange o c m = ⟨[m, c'.m2], some (c'.on (patch c.server.fs w), c'.m2.trim)⟩ ∧
        exchange o (c.on fs') m = ⟨[m, c'.m2], some (c'.on (patch fs' w), c'.m2.trim)⟩ ∧
        Within N W c' ∧ ReplyOk c'.m2 ∧ ∀ p, w = some p → p.1 ∈ W := by
  by_cases hm : m.WellFormed
  · obtain ⟨c₁, hserve₁, hok₁, hex₁⟩ := exchange_spec o hm hok
    have hok' : ReplyOk (c.on fs').m2 := hok
    obtain ⟨c₂, hserve₂, -, hex₂⟩ := exchange_spec o hm hok'
    obtain ⟨hnone, -⟩ | ⟨c', w, hserve, hserve', hkept, hw⟩ := serve_local o hsub hc h
    · rw [hserve₁] at hnone
      cases hnone
    · cases hserve₁.symm.trans hserve
      cases hserve₂.symm.trans hserve'
      exact .inr ⟨c', w, hex₁, hex₂, hkept, hok₁, hw⟩
  · exact .inl ⟨exchange_fault o c hm, exchange_fault o _ hm⟩

/-- A session of a client that copies `src` to `dst`. -/
structure Session.Copies (src dst : Name) (s : Session) : Prop where
  source : s.src = src
  target : s.dst = dst
  rfd : ∀ fd, s.memory.rfd = some fd → fd.name ∈ ({src, dst} : Set Name)
  wfd : ∀ fd, s.memory.wfd = some fd → fd.name ∈ ({dst} : Set Name)
  m2 : ReplyOk s.memory.m2
  reply : ∀ m1, s.reply = some m1 → ∃ r, ReplyOk r ∧ m1 = r.trim

theorem Session.Copies.start (src dst : Name) : (Session.start src dst).Copies src dst :=
  ⟨rfl, rfl, fun _ h => (by cases h), fun _ h => (by cases h), replyOk_zero, fun _ h => (by cases h)⟩

/-- The first half of a turn. -/
theorem step_read (o : Outcome) {s : Session} {m : Message} (hrun : s.status = .running) (hreply : s.reply = none)
    (hrequest : readRequest s.src s.position = some m) (fs : FileSys) :
    s.step o fs = match exchange o (s.memory.over fs) m with
      | ⟨passed, none⟩ => s.after { s.copy fs with status := .crashed, passed := s.passed ++ passed } none
      | ⟨passed, some (child, m1)⟩ =>
        s.after { s.copy fs with child := child, passed := s.passed ++ passed } (some m1) := by
  rw [Session.step, hrun, hreply]
  simp only [hrequest]

/-- The second half of a turn. -/
theorem step_write (o : Outcome) {s : Session} {m1 m : Message} (hrun : s.status = .running)
    (hreply : s.reply = some m1) (hrequest : writeRequest s.dst s.position m1 = some m) (fs : FileSys) :
    s.step o fs = match exchange o (s.memory.over fs) m with
      | ⟨passed, none⟩ => s.after { s.copy fs with status := .crashed, passed := s.passed ++ passed } none
      | ⟨passed, some (child, m1)⟩ =>
        s.after { child := child
                  position := s.position + m1.result
                  status :=
                    if 0 < m1.result.toInt then .running
                    else .returned (if 0 ≤ m1.result.toInt then resultOk else m1.result.toInt)
                  passed := s.passed ++ passed } none := by
  have hposition : (s.copy fs).position = s.position := rfl
  have hchild : (s.copy fs).child = s.memory.over fs := rfl
  rw [Session.step, hrun, hreply]
  simp only [copyWrite, hposition, hrequest, hchild]
  rcases exchange o (s.memory.over fs) m with ⟨passed, _ | ⟨child, m1⟩⟩
  · rfl
  · rfl

/-- **A step is local** to the two files of the client, and changes its destination only. -/
theorem step_local {src dst : Name} (hsrc : GoodName src) (hdst : GoodName dst) (o : Outcome) {s : Session}
    (hs : s.Copies src dst) {fs fs' : FileSys} (h : Set.EqOn fs fs' {src, dst}) :
    ∃ s' w, s.step o fs = (s', patch fs w) ∧ s.step o fs' = (s', patch fs' w) ∧ s'.Copies src dst ∧
      ∀ p, w = some p → p.1 ∈ ({dst} : Set Name) := by
  have hsub : ({dst} : Set Name) ⊆ {src, dst} := by simp
  have hnoWrite : ∀ p : Name × List U8, none = some p → p.1 ∈ ({dst} : Set Name) := fun p hp => by cases hp
  by_cases hrun : s.status = .running
  · cases hreply : s.reply with
    | none =>
      obtain ⟨m, hrequest, hm⟩ := readRequest_spec hsrc s.position
      rw [← hs.source] at hrequest
      have hwithin : Within {src, dst} {dst} { s.memory.over fs with m1 := m.trim } := by
        have hpath : m.trim.path = src := hm.path
        refine ⟨hs.rfd, hs.wfd, fun _ => ?_, fun hop => ?_⟩
        · rw [hpath]
          simp
        · exact absurd (hop.symm.trans hm.opcode) opWrite_ne_opRead
      rw [step_read o hrun hreply hrequest, step_read o hrun hreply hrequest]
      obtain ⟨hex, hex'⟩ | ⟨c', w, hex, hex', hkept, hok, hw⟩ := exchange_local o hsub hwithin hs.m2 h
      · have hex'' : exchange o (s.memory.over fs') m = _ := hex'
        rw [hex, hex'']
        exact ⟨_, none, rfl, rfl, ⟨hs.source, hs.target, hs.rfd, hs.wfd, hs.m2, fun _ h => by cases h⟩, hnoWrite⟩
      · have hex'' : exchange o (s.memory.over fs') m = _ := hex'
        rw [hex, hex'']
        refine ⟨_, w, rfl, rfl, ⟨hs.source, hs.target, hkept.rfd, hkept.wfd, hok, fun m1 h => ?_⟩, hw⟩
        cases h
        exact ⟨c'.m2, hok, rfl⟩
    | some m1 =>
      obtain ⟨r, hr, rfl⟩ := hs.reply m1 hreply
      obtain ⟨m, hrequest, hm⟩ := writeRequest_spec hdst s.position hr
      rw [← hs.target] at hrequest
      have hwithin : Within {src, dst} {dst} { s.memory.over fs with m1 := m.trim } := by
        have hpath : m.trim.path = dst := hm.path
        refine ⟨hs.rfd, hs.wfd, fun _ => ?_, fun _ => ?_⟩
        · rw [hpath]
          simp
        · exact hpath
      rw [step_write o hrun hreply hrequest, step_write o hrun hreply hrequest]
      obtain ⟨hex, hex'⟩ | ⟨c', w, hex, hex', hkept, hok, hw⟩ := exchange_local o hsub hwithin hs.m2 h
      · have hex'' : exchange o (s.memory.over fs') m = _ := hex'
        rw [hex, hex'']
        exact ⟨_, none, rfl, rfl, ⟨hs.source, hs.target, hs.rfd, hs.wfd, hs.m2, fun _ h => by cases h⟩, hnoWrite⟩
      · have hex'' : exchange o (s.memory.over fs') m = _ := hex'
        rw [hex, hex'']
        exact ⟨_, w, rfl, rfl, ⟨hs.source, hs.target, hkept.rfd, hkept.wfd, hok, fun _ h => by cases h⟩, hw⟩
  · exact ⟨s, none, step_ended o hrun fs, step_ended o hrun fs', hs, hnoWrite⟩

theorem step_confined {src dst : Name} (hsrc : GoodName src) (hdst : GoodName dst) :
    Confined Session.step (fun _ => True) (Session.Copies src dst) {src, dst} {dst} where
  sub := by simp
  keeps o s fs _ hs := by
    obtain ⟨s', w, hstep, -, hkept, -⟩ := step_local hsrc hdst o hs (Set.eqOn_refl fs _)
    rw [hstep]
    exact hkept
  frame o s fs name _ hs hname := by
    obtain ⟨s', w, hstep, -, -, hw⟩ := step_local hsrc hdst o hs (Set.eqOn_refl fs _)
    rw [hstep]
    exact patch_frame hw hname
  state o s fs fs' _ hs h := by
    obtain ⟨s', w, hstep, hstep', -, -⟩ := step_local hsrc hdst o hs h
    rw [hstep, hstep']
  store o s fs fs' _ hs h := by
    obtain ⟨s', w, hstep, hstep', -, -⟩ := step_local hsrc hdst o hs h
    rw [hstep, hstep']
    exact patch_eqOn h w

/-! ## One client -/

/-- **A client that is alone** and has come to byte `p` of its source: two steps for each byte that is left, and two
more, bring it to its end. -/
theorem solo_copies {src dst : Name} {source : List U8} (hsrc : GoodName src) (hdst : GoodName dst)
    (hlen : source.length < 2 ^ 63) {p : ℕ} {os : List Outcome} (hos : ∀ o ∈ os, o.io ≠ .fail ∧ o.opens = true)
    (henough : 2 * (source.length - p + 1) ≤ os.length) {s : Session} {fs : FileSys} (hs : s.src = src ∧ s.dst = dst)
    (hreply : s.reply = none) (h : CopyInv src dst source p (s.copy fs)) :
    (solo Session.step os (s, fs)).1.status = .returned resultOk ∧
      (solo Session.step os (s, fs)).2 dst = some source := by
  induction hrest : source.length - p using Nat.strong_induction_on generalizing p os s fs with
  | _ rest ih =>
    obtain ⟨rfl, rfl⟩ := hs
    obtain _ | ⟨o, _ | ⟨o', os⟩⟩ := os
    · simp at henough
    · simp at henough
      omega
    · obtain ⟨ho, hos'⟩ := List.forall_mem_cons.mp hos
      obtain ⟨ho', hos''⟩ := List.forall_mem_cons.mp hos'
      have hturn : Turn.NoFailure ⟨o, o'⟩ := ⟨ho.1, ho'.1⟩
      have hopens : Turn.MayOpen ⟨o, o'⟩ (s.copy fs).child.server := ⟨fun _ => ho.2, fun _ => ho'.2⟩
      obtain ⟨hnext, hlast⟩ := copyTurn_step hsrc hdst hlen hturn h hopens
      have hpair : solo Session.step (o :: o' :: os) (s, fs) =
        solo Session.step os (solo Session.step [o, o'] (s, fs)) := rfl
      rw [hpair, step_pair o o' hreply]
      rcases Nat.lt_or_eq_of_le h.le with hlt | heq
      · obtain ⟨w, hw, hinv, -⟩ := hnext hlt
        have hless : source.length - (p + w) < source.length - p :=
          Nat.sub_lt_sub_left hlt (Nat.lt_add_of_pos_right hw)
        have hlength : 2 * (source.length - (p + w) + 1) ≤ os.length := by
          simp only [List.length_cons] at henough
          omega
        exact ih _ (hrest ▸ hless) hos'' hlength ⟨rfl, rfl⟩ rfl hinv rfl
      · obtain ⟨hstatus, hdest⟩ := hlast heq
        have hended : (s.after (copyTurn s.src s.dst ⟨o, o'⟩ (s.copy fs)) none).1.status ≠ .running := by
          show (copyTurn s.src s.dst ⟨o, o'⟩ (s.copy fs)).status ≠ .running
          rw [hstatus]
          exact Status.noConfusion
        have hstay := solo_ended hended os (s.after (copyTurn s.src s.dst ⟨o, o'⟩ (s.copy fs)) none).2
        have hsplit : solo Session.step os (s.after (copyTurn s.src s.dst ⟨o, o'⟩ (s.copy fs)) none) = _ := hstay
        rw [hsplit]
        exact ⟨hstatus, hdest⟩

/-! ## Many clients -/

/-- What the clients copy: no destination is there before, and none is the source or the destination of another
client. -/
structure Copying {ι : Type*} (src dst : ι → Name) (source : ι → List U8) (fs : FileSys) : Prop where
  goodSrc : ∀ i, GoodName (src i)
  goodDst : ∀ i, GoodName (dst i)
  file : ∀ i, fs (src i) = some (source i)
  size : ∀ i, (source i).length < 2 ^ 63
  fresh : ∀ i, fs (dst i) = none
  apart : ∀ i j, i ≠ j → dst i ≠ dst j

/-- **Copies side by side.** Any number of clients copy their sources to new files of their own, in any order of their
steps, while the calls of `open` pass and no read or write fails, though each may be short. A client that has taken two
steps for each byte of its source, and two more, has returned `OK`, and its destination is a copy of its source. -/
theorem copies_concurrent {ι : Type*} [DecidableEq ι] {src dst : ι → Name} {source : ι → List U8} {fs : FileSys}
    (h : Copying src dst source fs) {es : List (ι × Outcome)} (hes : ∀ e ∈ es, e.2.io ≠ .fail ∧ e.2.opens = true)
    (i : ι) (henough : 2 * ((source i).length + 1) ≤ (own i es).length) :
    let end_ := interleaved Session.step es (fun i => .start (src i) (dst i), fs)
    (end_.1 i).status = .returned resultOk ∧ end_.2 (dst i) = some (source i) ∧ end_.2 (src i) = some (source i) := by
  intro end_
  have hne : ∀ i j, src i ≠ dst j := by
    intro i j heq
    have hfile := h.file i
    rw [heq, h.fresh j] at hfile
    cases hfile
  have hapart : ∀ i j, i ≠ j → Disjoint ({dst i} : Set Name) {src j, dst j} := by
    intro i j hij
    rw [Set.disjoint_singleton_left]
    rintro (hsrc | hdst)
    · exact hne j i hsrc.symm
    · exact h.apart i j hij hdst
  have hown : ∀ o ∈ own i es, o.io ≠ .fail ∧ o.opens = true := fun o ho => hes (i, o) (mem_own.mp ho)
  have hok : ∀ (j : ι) (o : Outcome), (j, o) ∈ es → True := fun _ _ _ => trivial
  obtain ⟨hstate, hstore⟩ := interleaved_eq_solo (fun i => step_confined (h.goodSrc i) (h.goodDst i)) hapart hok
    (fun i => Session.Copies.start (src i) (dst i)) i (Set.eqOn_refl fs _)
  have hstart : CopyInv (src i) (dst i) (source i) 0 ((Session.start (src i) (dst i)).copy fs) :=
    ⟨⟨rfl, rfl, Nat.zero_le _, replyOk_zero, h.file i, fun _ h => by cases h⟩, hne i i, .inl ⟨rfl, h.fresh i, rfl⟩⟩
  obtain ⟨hstatus, hdest⟩ := solo_copies (h.goodSrc i) (h.goodDst i) (h.size i) hown henough ⟨rfl, rfl⟩ rfl hstart
  refine ⟨by rw [hstate]; exact hstatus, ?_, ?_⟩
  · rw [hstore (by simp)]
    exact hdest
  · have huntouched : ∀ j, src i ∉ ({dst j} : Set Name) := fun j hj => hne i j hj
    rw [interleaved_untouched (fun i => step_confined (h.goodSrc i) (h.goodDst i)) (fun _ _ _ => trivial)
      (fun i => Session.Copies.start (src i) (dst i)) huntouched]
    exact h.file i

/-- Two clients copy the file `a` of three bytes, one to `b` and one to `c`, in turns and two bytes at a time. -/
theorem copies_concurrent_two :
    let fs : FileSys := Function.update (fun _ => none) [97] (some [1, 2, 3])
    let dst (i : Bool) : Name := if i then [98] else [99]
    let es : List (Bool × Outcome) :=
      (List.replicate 8 [(true, ⟨true, .cut 1, []⟩), (false, ⟨true, .cut 1, []⟩)]).flatten
    let end_ := interleaved Session.step es (fun i => .start [97] (dst i), fs)
    (end_.1 true).status = .returned resultOk ∧ end_.2 (dst true) = some [1, 2, 3] ∧ end_.2 [97] = some [1, 2, 3] := by
  intro fs dst es
  have hcopying : Copying (fun _ => [97]) dst (fun _ => [1, 2, 3]) fs := by
    refine ⟨fun _ => .single (by decide), fun i => ?_, fun _ => by decide, fun _ => by decide, ?_, by decide⟩
    · cases i
      · exact .single (by decide)
      · exact .single (by decide)
    · intro i
      cases i <;> rfl
  have hes : ∀ e ∈ es, e.2.io ≠ .fail ∧ e.2.opens = true := by
    intro e he
    simp only [es, List.mem_flatten, List.mem_replicate] at he
    obtain ⟨l, ⟨-, rfl⟩, he⟩ := he
    simp only [List.mem_cons, List.not_mem_nil, or_false] at he
    obtain rfl | rfl := he
    · exact ⟨Io.noConfusion, rfl⟩
    · exact ⟨Io.noConfusion, rfl⟩
  have henough : 2 * (([1, 2, 3] : List U8).length + 1) ≤ (own true es).length := by decide
  exact copies_concurrent hcopying hes true henough

end CoupledCC.Transfer
