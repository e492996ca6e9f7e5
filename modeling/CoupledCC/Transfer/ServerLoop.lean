import CoupledCC.Transfer.Server

/-!
# What the server acts on

The loop of the server's child over any outcomes of `recv` on the command connection: a whole message, the end of the
stream, or an error. The loop does not look at the result of `ifri_receive`, so after an error it serves the message it
still has, and at the end of the stream what the buffer from `malloc` held.

- `run_iff`: a run executes exactly the requests it received when nothing it serves besides is a request (`Quiet`);
- `serves_exactly_iff`: so it is, whatever `malloc` returns, exactly for the outcomes without an end of the stream and
  without an error after a request (`Clean`).
-/

namespace CoupledCC.Transfer

open Bytes Files

/-- A whole message of the stream. -/
structure Arrival where
  message : Message
  wire : Buffer sizeofMessage
  wellFormed : message.WellFormed
  encodes : Wire message wire

/-- The outcome of `recv` on the command connection. -/
inductive Received
  | whole (a : Arrival)
  | eof
  | error

def Received.recv : Received → Recv
  | .whole a => .got a.wire.bytes
  | .eof => .got []
  | .error => .error

/-- One turn of the loop: what `recv` does, what the two buffers held, what the system calls do. -/
structure Iteration where
  received : Received
  buff : Buffer sizeofMessage
  outcome : Outcome
  replyBuff : Buffer sizeofMessage

/-- The opcodes the loop acts on. -/
def Message.Request (m : Message) : Prop :=
  m.opcode = opRead ∨ m.opcode = opWrite

instance (m : Message) : Decidable m.Request := by
  unfold Message.Request
  infer_instance

/-- One turn of the loop: the child after it, and what was executed. -/
def iterate (it : Iteration) (c : Child) : Option (Child × List Message) :=
  (ifriReceive it.buff it.received.recv c.m1).bind fun received =>
    (serveCalls it.outcome { c with m1 := received.1 }).bind fun (c', calls) =>
      (ifriSend c'.m2 it.replyBuff).map fun _ => (c', calls)

/-- What a run of the loop executes. -/
def run : List Iteration → Child → Option (List Message)
  | [], _ => some []
  | it :: its, c => (iterate it c).bind fun (c', log) => (run its c').map fun rest => log ++ rest

/-- What is to be executed for a message. -/
def executed (m : Message) : List Message :=
  if m.Request then [m] else []

/-- The requests received whole, as far as they were sent. -/
def requested : List Received → List Message
  | [] => []
  | .whole a :: rs => executed a.message.trim ++ requested rs
  | _ :: rs => requested rs

/-! ## One turn -/

/-- What holds between the turns: both messages are well formed. -/
structure ChildOk (c : Child) : Prop where
  m1 : c.m1.WellFormed
  m2 : ReplyOk c.m2

theorem childOk_fresh (fs : FileSys) : ChildOk (.fresh fs) :=
  ⟨replyOk_zero.wellFormed, replyOk_zero⟩

/-- **The calls of a turn**: `do_read` or `do_write` is called once, with the message that is served, if this is a
request. -/
theorem serveCalls_eq (o : Outcome) (c : Child) :
    serveCalls o c = (serve o c).map fun c' => (c', executed c.m1) := by
  rw [serve_eq]
  unfold serveCalls
  by_cases hread : c.m1.opcode = opRead
  · have hcalls : executed c.m1 = [c.m1] := if_pos (.inl hread)
    rw [if_pos hread, if_pos hread, hcalls, Option.map_map]
    rfl
  · rw [if_neg hread, if_neg hread]
    by_cases hwrite : c.m1.opcode = opWrite
    · have hcalls : executed c.m1 = [c.m1] := if_pos (.inr hwrite)
      rw [if_pos hwrite, if_pos hwrite, hcalls, Option.map_map]
      rfl
    · have hcalls : executed c.m1 = [] := if_neg (not_or.mpr ⟨hread, hwrite⟩)
      rw [if_neg hwrite, if_neg hwrite, hcalls]
      rfl

theorem iterate_eq (it : Iteration) (c : Child) :
    iterate it c = (ifriReceive it.buff it.received.recv c.m1).bind fun received =>
      (serve it.outcome { c with m1 := received.1 }).bind fun c' =>
        (ifriSend c'.m2 it.replyBuff).map fun _ => (c', executed received.1) := by
  unfold iterate
  refine congrArg (Option.bind _) (funext fun received => ?_)
  rw [serveCalls_eq, Option.bind_map]
  rfl

/-- A turn that serves the message `m`. -/
theorem iterate_serves {it : Iteration} {c : Child} {m : Message} (ret : ℤ) (hc : ReplyOk c.m2) (hm : m.WellFormed)
    (h : ifriReceive it.buff it.received.recv c.m1 = some (m, ret)) :
    ∃ c', iterate it c = some (c', executed m) ∧ c'.m1 = m ∧ ChildOk c' := by
  have hc' : ReplyOk ({ c with m1 := m } : Child).m2 := hc
  have hm' : ({ c with m1 := m } : Child).m1.WellFormed := hm
  obtain ⟨c', hserve, hm1, hm2⟩ := serve_total it.outcome hm' hc'
  obtain ⟨wire, hsend, -⟩ := ifriSend_wire hm2.wellFormed it.replyBuff
  refine ⟨c', ?_, hm1, by rw [hm1]; exact hm, hm2⟩
  rw [iterate_eq, h, Option.bind_some, hserve, Option.bind_some, hsend]
  rfl

/-- At the end of the stream the former content of the buffer is decoded. -/
theorem ifriReceive_eof (buff : Buffer sizeofMessage) (m : Message) :
    ifriReceive buff (.got []) m = (decode buff).map fun m => (m, resultOk) := by
  simp only [ifriReceive, Buffer.store_nil, Option.bind_some]

/-! ## Runs -/

/-- Nothing the turns serve besides what was received whole is a request; `m1` is the message the child has. -/
def Quiet (m1 : Message) : List Iteration → Prop
  | [] => True
  | it :: its =>
    match it.received with
    | .whole a => Quiet a.message.trim its
    | .eof => ∃ m, decode it.buff = some m ∧ ¬ m.Request ∧ Quiet m its
    | .error => ¬ m1.Request ∧ Quiet m1 its

/-- The rest of a run after a turn that executes `log`. -/
theorem run_cons {it : Iteration} {its : List Iteration} {c c' : Child} {log : List Message}
    (h : iterate it c = some (c', log)) : run (it :: its) c = (run its c').map fun rest => log ++ rest := by
  rw [run, h]
  rfl

/-- The trimmed message of an arrival is well formed, as the lengths are kept. -/
theorem Arrival.trim_wellFormed (a : Arrival) : a.message.trim.WellFormed :=
  ⟨a.wellFormed.nameLen, a.wellFormed.count⟩

/-- **A turn.** It serves the message it received whole, the decoded content of the buffer at the end of the stream (and
faults if that is no message), or the message it still has after an error. -/
theorem iterate_cases (it : Iteration) {c : Child} (hc : ChildOk c) :
    match it.received with
    | .whole a => ∃ c', iterate it c = some (c', executed a.message.trim) ∧ c'.m1 = a.message.trim ∧ ChildOk c'
    | .eof => match decode it.buff with
      | none => iterate it c = none
      | some m => ∃ c', iterate it c = some (c', executed m) ∧ c'.m1 = m ∧ ChildOk c'
    | .error => ∃ c', iterate it c = some (c', executed c.m1) ∧ c'.m1 = c.m1 ∧ ChildOk c' := by
  cases hr : it.received with
  | whole a =>
    refine iterate_serves resultOk hc.m2 a.trim_wellFormed ?_
    rw [hr]
    exact ifriReceive_wire a.wellFormed a.encodes _ _
  | eof =>
    have heof : ifriReceive it.buff it.received.recv c.m1 = (decode it.buff).map fun m => (m, resultOk) := by
      rw [hr]
      exact ifriReceive_eof _ _
    cases hd : decode it.buff with
    | none =>
      rw [hd] at heof
      simp only [iterate, heof]
      rfl
    | some m =>
      rw [hd] at heof
      exact iterate_serves resultOk hc.m2 (decode_spec hd).1 heof
  | error =>
    refine iterate_serves eIo hc.m2 hc.m1 ?_
    rw [hr]
    rfl

/-- A run executes at least as many requests as it received. -/
theorem run_length {its : List Iteration} {c : Child} {log : List Message} (hc : ChildOk c) (h : run its c = some log) :
    (requested (its.map Iteration.received)).length ≤ log.length := by
  induction its generalizing c log with
  | nil => exact Nat.zero_le _
  | cons it its ih =>
    obtain ⟨⟨c', first⟩, hit, hrest⟩ := Option.bind_eq_some_iff.mp h
    obtain ⟨rest, hrun, rfl⟩ := Option.map_eq_some_iff.mp hrest
    have hcases := iterate_cases it hc
    rw [List.map_cons, List.length_append]
    cases hr : it.received with
    | whole a =>
      simp only [hr] at hcases
      obtain ⟨c₁, hc₁, -, hok⟩ := hcases
      rw [hc₁] at hit
      cases hit
      have := ih hok hrun
      simp only [requested, List.length_append]
      omega
    | eof =>
      simp only [hr] at hcases
      split at hcases
      · rw [hcases] at hit
        cases hit
      · obtain ⟨c₁, hc₁, -, hok⟩ := hcases
        rw [hc₁] at hit
        cases hit
        exact (ih hok hrun).trans (Nat.le_add_left _ _)
    | error =>
      simp only [hr] at hcases
      obtain ⟨c₁, hc₁, -, hok⟩ := hcases
      rw [hc₁] at hit
      cases hit
      exact (ih hok hrun).trans (Nat.le_add_left _ _)

/-- A turn that executes what it received leaves it to the rest. -/
theorem run_received {it : Iteration} {c c' : Child} {log : List Message} (h : iterate it c = some (c', log))
    (its : List Iteration) (expected : List Message) :
    run (it :: its) c = some (log ++ expected) ↔ run its c' = some expected := by
  rw [run_cons h]
  simp

/-- A turn that serves a message it did not receive must not act on it, for nothing makes up for an execution. -/
theorem run_unreceived {it : Iteration} {its : List Iteration} {c c' : Child} {m : Message}
    (h : iterate it c = some (c', executed m)) (hok : ChildOk c') :
    run (it :: its) c = some (requested (its.map Iteration.received)) ↔
      ¬ m.Request ∧ run its c' = some (requested (its.map Iteration.received)) := by
  by_cases hm : m.Request
  · refine ⟨fun hrun => ?_, fun hrun => absurd hm hrun.1⟩
    rw [run_cons h] at hrun
    obtain ⟨rest, hrest, heq⟩ := Option.map_eq_some_iff.mp hrun
    have hlen := run_length hok hrest
    rw [← heq, executed, if_pos hm, List.length_append, List.length_singleton] at hlen
    omega
  · have hnone : executed m = [] := if_neg hm
    rw [hnone] at h
    have hrest := run_received h its (requested (its.map Iteration.received))
    rw [List.nil_append] at hrest
    rw [hrest]
    constructor
    · intro hrun
      exact ⟨hm, hrun⟩
    · intro hrun
      exact hrun.2

/-- **A run** executes exactly the requests it received when nothing else it serves is a request. -/
theorem run_iff {its : List Iteration} {c : Child} (hc : ChildOk c) :
    run its c = some (requested (its.map Iteration.received)) ↔ Quiet c.m1 its := by
  induction its generalizing c with
  | nil => exact ⟨fun _ => trivial, fun _ => rfl⟩
  | cons it its ih =>
    have hcases := iterate_cases it hc
    unfold Quiet
    rw [List.map_cons]
    cases hr : it.received with
    | whole a =>
      simp only [hr] at hcases
      obtain ⟨c', hit, hm1, hok⟩ := hcases
      simp only [requested]
      rw [run_received hit its, ih hok, hm1]
    | eof =>
      simp only [hr] at hcases
      simp only [requested]
      cases hd : decode it.buff with
      | none =>
        simp only [hd] at hcases
        simp [run, hcases]
      | some m =>
        simp only [hd] at hcases
        obtain ⟨c', hit, hm1, hok⟩ := hcases
        rw [run_unreceived hit hok, ih hok, hm1]
        simp
    | error =>
      simp only [hr] at hcases
      obtain ⟨c', hit, hm1, hok⟩ := hcases
      simp only [requested]
      rw [run_unreceived hit hok, ih hok, hm1]

/-! ## Which outcomes are safe -/

/-- No end of the stream, and no error after a request; `last` is the last message received whole. -/
def Clean (last : Message) : List Received → Prop
  | [] => True
  | .whole a :: rs => Clean a.message.trim rs
  | .eof :: _ => False
  | .error :: rs => ¬ last.Request ∧ Clean last rs

/-- Clean outcomes are quiet whatever the buffers held. -/
theorem Clean.quiet {its : List Iteration} {last : Message} (h : Clean last (its.map Iteration.received)) :
    Quiet last its := by
  induction its generalizing last with
  | nil => trivial
  | cons it its ih =>
    rw [List.map_cons] at h
    unfold Quiet
    cases hr : it.received with
    | whole a =>
      rw [hr] at h
      exact ih h
    | eof =>
      rw [hr] at h
      exact h.elim
    | error =>
      rw [hr] at h
      exact ⟨h.1, ih h.2⟩

/-- A buffer that holds a request. -/
theorem exists_request_buffer : ∃ buff m, decode buff = some m ∧ m.Request := by
  have hwf : ({ Message.zero with opcode := opWrite } : Message).WellFormed := by decide
  obtain ⟨wire, -, hw⟩ := ifriSend_wire hwf (.zero _)
  exact ⟨wire, _, decode_wire hwf hw, Or.inr rfl⟩

/-- Outcomes that are quiet with every buffer full of a request are clean. -/
theorem Quiet.clean {buff : Buffer sizeofMessage} {m : Message} (hbuff : decode buff = some m) (hm : m.Request)
    (outcome : Outcome) {rs : List Received} {last : Message}
    (h : Quiet last (rs.map fun r => ⟨r, buff, outcome, buff⟩)) : Clean last rs := by
  induction rs generalizing last with
  | nil => trivial
  | cons r rs ih =>
    rw [List.map_cons] at h
    unfold Quiet at h
    cases r with
    | whole a => exact ih h
    | eof =>
      obtain ⟨m', hm', hnot, -⟩ := h
      rw [hbuff, Option.some.injEq] at hm'
      exact hnot (hm' ▸ hm)
    | error => exact ⟨h.1, ih h.2⟩

/-- **When the server acts exactly on the requests it received.** For given outcomes of `recv`, every run of a fresh
child, whatever the buffers from `malloc` hold and the system calls do, executes exactly the requests received whole, if
and only if there is no end of the stream and every error comes when the last message is no request. -/
theorem serves_exactly_iff (fs : FileSys) (rs : List Received) :
    (∀ its : List Iteration, its.map Iteration.received = rs → run its (.fresh fs) = some (requested rs)) ↔
      Clean .zero rs := by
  constructor
  · intro h
    obtain ⟨buff, m, hbuff, hm⟩ := exists_request_buffer
    have hrs : (rs.map fun r => (⟨r, buff, ⟨true, .fail, []⟩, buff⟩ : Iteration)).map Iteration.received = rs := by
      rw [List.map_map]
      exact List.map_id rs
    have hrun := h _ hrs
    exact ((run_iff (childOk_fresh fs)).mp (hrun.trans (by rw [hrs]))).clean hbuff hm _
  · rintro h its rfl
    exact (run_iff (childOk_fresh fs)).mpr h.quiet

/-- A request to write one byte and then an error, with buffers of zeros: the one request is executed twice. -/
theorem error_repeats_request :
    let request : Message := { Message.zero with opcode := opWrite, count := 1 }
    let turn (r : Received) : Iteration := ⟨r, .zero _, ⟨true, .cut 0, []⟩, .zero _⟩
    ∃ a : Arrival, a.message = request ∧ requested [.whole a, .error] = [request.trim] ∧
      run [turn (.whole a), turn .error] (.fresh fun _ => none) = some [request.trim, request.trim] := by
  intro request turn
  have hwf : request.WellFormed := by decide
  obtain ⟨wire, -, hw⟩ := ifriSend_wire hwf (.zero _)
  have hrequest : executed request.trim = [request.trim] := if_pos (Or.inr rfl)
  obtain ⟨c₁, hfirst, hm1, hok⟩ :=
    iterate_cases (turn (.whole ⟨request, wire, hwf, hw⟩)) (childOk_fresh fun _ => none)
  obtain ⟨c₂, hsecond, -, -⟩ := iterate_cases (turn .error) hok
  refine ⟨⟨request, wire, hwf, hw⟩, rfl, hrequest, ?_⟩
  rw [run_cons hfirst, run_cons hsecond, hm1, hrequest]
  rfl

end CoupledCC.Transfer
