import Mathlib.Tactic

/-!
# Runs of a labelled transition relation

A relation `step s e s'` moves a state `s` to `s'` on the event `e`.

- `Reach step init s`: `s` is reached from an initial state; an invariant of the steps holds of every reached state
  (`Reach.invariant`), and steps that go down in a well-founded order lead to a state without a step
  (`Reach.exists_final`);
- `Trace step s tr s'`: the transitions `tr` lead from `s` to `s'`;
- `Trace.account`: when every transition pays its gain out of a potential and its own income, the total gain of a
  trace is paid out of the potential at its start and its total income;
- `history`: what an observer has noted down after a trace; an invariant may relate the notes to the state they were
  made up to (`Trace.history_invariant`);
- `transitions`: the trace of a list of events when these determine the next state (`Trace.of_transitions`).
-/

namespace Runs

variable {σ ε : Type*} {step : σ → ε → σ → Prop}

/-- The states reached from the initial ones. -/
inductive Reach (step : σ → ε → σ → Prop) (init : σ → Prop) : σ → Prop
  | init {s : σ} : init s → Reach step init s
  | step {s s' : σ} {e : ε} : Reach step init s → step s e s' → Reach step init s'

/-- A transition: the state before, the event, the state after. -/
abbrev Transition (σ ε : Type*) := σ × ε × σ

/-- The transitions of a run, in order. -/
inductive Trace (step : σ → ε → σ → Prop) : σ → List (Transition σ ε) → σ → Prop
  | nil (s : σ) : Trace step s [] s
  | cons {s s' s'' : σ} {e : ε} {tr : List (Transition σ ε)} :
      step s e s' → Trace step s' tr s'' → Trace step s ((s, e, s') :: tr) s''

/-- What holds initially and is kept by every step holds of every reached state. -/
theorem Reach.invariant {init : σ → Prop} {I : σ → Prop} {s : σ} (h : Reach step init s) (h0 : ∀ s, init s → I s)
    (hstep : ∀ s e s', I s → step s e s' → I s') : I s := by
  induction h with
  | init h => exact h0 _ h
  | step _ hs ih => exact hstep _ _ _ ih hs

/-- **Ending.** Steps that keep an invariant and go down in a well-founded order lead from a reached state with the
invariant to one without a step. -/
theorem Reach.exists_final {α : Type*} [LT α] [WellFoundedLT α] {init : σ → Prop} {I : σ → Prop} (rank : σ → α)
    (hstep : ∀ s e s', I s → step s e s' → I s' ∧ rank s' < rank s) {s : σ} (h : Reach step init s) (hs : I s) :
    ∃ s', Reach step init s' ∧ I s' ∧ ∀ e s'', ¬ step s' e s'' := by
  induction hr : rank s using WellFoundedLT.induction generalizing s with
  | _ r ih =>
    by_cases hnext : ∃ e s', step s e s'
    · obtain ⟨e, s', hs'⟩ := hnext
      obtain ⟨hi, hlt⟩ := hstep s e s' hs hs'
      exact ih (rank s') (hr ▸ hlt) (.step h hs') hi rfl
    · exact ⟨s, h, hs, fun e s' hs' => hnext ⟨e, s', hs'⟩⟩

/-- The end of a trace from a state with the invariant has it too. -/
theorem Trace.invariant {I : σ → Prop} {s s' : σ} {tr : List (Transition σ ε)} (h : Trace step s tr s')
    (hstep : ∀ s e s', I s → step s e s' → I s') : I s → I s' := by
  induction h with
  | nil => exact id
  | cons hs _ ih => exact fun hi => ih (hstep _ _ _ hi hs)

/-- **Accounting.** A potential that pays for every single gain pays for the gains of a whole trace. -/
theorem Trace.account {I : σ → Prop} {s s' : σ} {tr : List (Transition σ ε)} (h : Trace step s tr s') (Φ : σ → ℤ)
    (gain income : Transition σ ε → ℤ) (hI : ∀ s e s', I s → step s e s' → I s')
    (hpay : ∀ s e s', I s → step s e s' → gain (s, e, s') + Φ s' ≤ Φ s + income (s, e, s')) :
    I s → (tr.map gain).sum + Φ s' ≤ Φ s + (tr.map income).sum := by
  induction h with
  | nil => intro _; simp
  | cons hs _ ih =>
    intro hi
    have hfst := hpay _ _ _ hi hs
    have hrest := ih (hI _ _ _ hi hs)
    simp only [List.map_cons, List.sum_cons]
    omega

/-! ## Observers -/

/-- The notes of an observer after some transitions. -/
def history {η : Type*} (observe : η → Transition σ ε → η) (h : η) (tr : List (Transition σ ε)) : η :=
  tr.foldl observe h

/-- **Notes.** An invariant of the notes and the state that every observed step keeps holds at the end of a trace. -/
theorem Trace.history_invariant {η : Type*} {observe : η → Transition σ ε → η} {J : η → σ → Prop} {s s' : σ}
    {tr : List (Transition σ ε)} (h : Trace step s tr s')
    (hstep : ∀ n s e s', J n s → step s e s' → J (observe n (s, e, s')) s') :
    ∀ n, J n s → J (history observe n tr) s' := by
  induction h with
  | nil => exact fun n hn => hn
  | cons hs _ ih => exact fun n hn => ih _ (hstep n _ _ _ hn hs)

/-- The steps of a trace may be weakened. -/
theorem Trace.mono {step' : σ → ε → σ → Prop} {s s' : σ} {tr : List (Transition σ ε)} (h : Trace step s tr s')
    (himp : ∀ s e s', step s e s' → step' s e s') : Trace step' s tr s' := by
  induction h with
  | nil => exact .nil _
  | cons hs _ ih => exact .cons (himp _ _ _ hs) ih

/-! ## Events that determine the next state -/

/-- The transitions of a list of events, and the state they lead to. -/
def transitions (next : σ → ε → Option σ) (s : σ) : List ε → Option (List (Transition σ ε) × σ)
  | [] => some ([], s)
  | e :: es => (next s e).bind fun s' => (transitions next s' es).map fun (tr, s'') => ((s, e, s') :: tr, s'')

theorem Trace.of_transitions {next : σ → ε → Option σ} {s s' : σ} {es : List ε} {tr : List (Transition σ ε)}
    (h : transitions next s es = some (tr, s')) : Trace (fun s e s' => next s e = some s') s tr s' := by
  induction es generalizing s tr with
  | nil =>
    cases h
    exact .nil _
  | cons e es ih =>
    obtain ⟨s₁, hs₁, h⟩ := Option.bind_eq_some_iff.mp h
    obtain ⟨⟨tr₁, s₂⟩, htr₁, heq⟩ := Option.map_eq_some_iff.mp h
    cases heq
    exact .cons hs₁ (ih htr₁)

/-- Events that are allowed only under a condition. -/
theorem Trace.of_guarded {next : σ → ε → Option σ} {ok : σ → ε → Prop} [∀ s e, Decidable (ok s e)] {s s' : σ}
    {es : List ε}
    {tr : List (Transition σ ε)} (h : transitions (fun s e => if ok s e then next s e else none) s es = some (tr, s')) :
    Trace (fun s e s' => next s e = some s' ∧ ok s e) s tr s' := by
  apply (Trace.of_transitions h).mono
  intro s e s' hnext
  split at hnext
  · rename_i hok
    exact ⟨hnext, hok⟩
  · cases hnext

end Runs
