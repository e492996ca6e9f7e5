import CoupledCC.Lib.Word
import CoupledCC.Libcc.Loader

/-!
# The selection of a controller

`libcc.c` keeps the functions of the selected controller in the static record `ops`. `bpfcc_select` refuses every value:
its guard joins with `||` what it should join with `&&`.

- `bpfccSelect_refuses`: every selection returns `BPF_UNSPEC` and leaves `ops` as it is;
- `drives_iff`: so the API drives the selected controller exactly when nobody selects one.
-/

namespace CoupledCC.Libcc

open Word Journal

/-! ## The API -/

/-- A value of `enum bpfcc_t`. -/
abbrev BpfccT := U32

def bpfCubic : BpfccT := 0
def bpfReno : BpfccT := 1
def bpfVegas : BpfccT := 2
def bpfBbr : BpfccT := 3
def bpfUnspec : BpfccT := 4

/-- `bpfcc_loader_ops_t`: whose `load_bpf_*` and whose `unload_bpf_*` the two pointers point to. -/
structure LoaderOps where
  type : BpfccT
  load : Controller
  unload : Controller
deriving Repr, DecidableEq

/-- The state of the library: `ops` and the loaders of the controllers. -/
structure State where
  ops : LoaderOps
  loaders : Controller → Loader

def State.start : State :=
  ⟨⟨bpfReno, .reno, .reno⟩, fun _ => .start⟩

/-- `bpfcc_select`: `ops` after it, and the return value, if there is one. -/
def bpfccSelect (t : BpfccT) (ops : LoaderOps) : LoaderOps × Option U32 :=
  if t ≠ bpfBbr ∨ t ≠ bpfCubic ∨ t ≠ bpfReno ∨ t ≠ bpfVegas then (ops, some bpfUnspec)
  else
    let ops := { ops with type := t }
    let ops := if t = bpfCubic then { ops with load := .cubic, unload := .cubic } else ops
    let ops := if t = bpfReno then { ops with load := .reno, unload := .reno } else ops
    let ops := if t = bpfVegas then { ops with load := .vegas, unload := .vegas } else ops
    -- no `return` at the end of the function
    (ops, none)

def bpfccLoad (o : Outcome) (s : State) : State :=
  { s with loaders := Function.update s.loaders s.ops.load (s.ops.load.load o (s.loaders s.ops.load)) }

def bpfccUnload (s : State) : State :=
  { s with loaders := Function.update s.loaders s.ops.unload (s.ops.unload.unload (s.loaders s.ops.unload)) }

/-- The calls of an application. -/
inductive ApiCall
  | select (t : BpfccT)
  | load (o : Outcome)
  | unload

/-- What a call did: the value that `bpfcc_select` returned with `ops` before and after it, or the controller whose
function was called. -/
inductive Entry
  | selected (t : BpfccT) (r : Option U32) (ops ops' : LoaderOps)
  | loaded (ctl : Controller)
  | unloaded (ctl : Controller)
deriving Repr, DecidableEq

def apiCall (s : State) : ApiCall → State × Entry
  | .select t =>
    let (ops, r) := bpfccSelect t s.ops
    ({ s with ops := ops }, .selected t r s.ops ops)
  | .load o => (bpfccLoad o s, .loaded s.ops.load)
  | .unload => (bpfccUnload s, .unloaded s.ops.unload)

/-- The state after some calls, and what they did. -/
def apiRun (calls : List ApiCall) : State × List Entry :=
  calls.foldl (fun (s, journal) c => ((apiCall s c).1, journal ++ [(apiCall s c).2])) (.start, [])

/-! ## What the API is for -/

/-- The controller of a value. -/
def controllerOf (t : BpfccT) : Option Controller :=
  if t = bpfCubic then some .cubic
  else if t = bpfReno then some .reno
  else if t = bpfVegas then some .vegas
  else none

/-- The controller that was selected last with success: Reno before any selection. -/
def lastSelected (journal : List Entry) : Controller :=
  journal.foldl (fun ctl e =>
    match e with
    | .selected t (some r) _ _ => if r = 0 then (controllerOf t).getD ctl else ctl
    | _ => ctl) .reno

/-- A selection of a controller succeeds and one outside the enumeration fails; a failed one leaves `ops` as it was; a
load and an unload go to the controller that was selected last. -/
def EntryOk (before : List Entry) : Entry → Prop
  | .selected t r ops ops' =>
    (controllerOf t ≠ none → r = some 0) ∧ (bpfUnspec < t → r = some bpfUnspec) ∧ (r ≠ some 0 → ops' = ops)
  | .loaded ctl | .unloaded ctl => ctl = lastSelected before

instance (before : List Entry) : (e : Entry) → Decidable (EntryOk before e)
  | .selected t r ops ops' => inferInstanceAs (Decidable
      ((controllerOf t ≠ none → r = some 0) ∧ (bpfUnspec < t → r = some bpfUnspec) ∧ (r ≠ some 0 → ops' = ops)))
  | .loaded ctl | .unloaded ctl => inferInstanceAs (Decidable (ctl = lastSelected before))

/-- **The API drives the selected controller** in every call of a history. -/
def Drives (calls : List ApiCall) : Prop :=
  Kept EntryOk (apiRun calls).2

instance (calls : List ApiCall) : Decidable (Drives calls) :=
  inferInstanceAs (Decidable (Kept EntryOk (apiRun calls).2))

/-! ## What the API does -/

/-- **Every selection is refused.** -/
theorem bpfccSelect_refuses (t : BpfccT) (ops : LoaderOps) : bpfccSelect t ops = (ops, some bpfUnspec) := by
  have hguard : t ≠ bpfBbr ∨ t ≠ bpfCubic ∨ t ≠ bpfReno ∨ t ≠ bpfVegas := by
    by_cases ht : t = bpfBbr
    · right
      left
      rw [ht]
      decide
    · exact .inl ht
  exact if_pos hguard

theorem apiRun_concat (calls : List ApiCall) (c : ApiCall) :
    apiRun (calls ++ [c]) =
      ((apiCall (apiRun calls).1 c).1, (apiRun calls).2 ++ [(apiCall (apiRun calls).1 c).2]) := by
  rw [apiRun, List.foldl_append]
  rfl

/-- A call leaves `ops` as it was. -/
theorem apiCall_ops (s : State) (c : ApiCall) : (apiCall s c).1.ops = s.ops := by
  cases c with
  | select t => rw [apiCall, bpfccSelect_refuses]
  | load o => rfl
  | unload => rfl

theorem apiRun_ops (calls : List ApiCall) : (apiRun calls).1.ops = State.start.ops := by
  induction calls using List.reverseRecOn with
  | nil => rfl
  | append_singleton calls c ih => rw [apiRun_concat, apiCall_ops, ih]

/-- No selection ever succeeds. -/
theorem lastSelected_apiRun (calls : List ApiCall) : lastSelected (apiRun calls).2 = .reno := by
  induction calls using List.reverseRecOn with
  | nil => rfl
  | append_singleton calls c ih =>
    rw [apiRun_concat, lastSelected, List.foldl_append, ← lastSelected, ih]
    cases c with
    | select t =>
      rw [apiCall, bpfccSelect_refuses]
      rfl
    | load o => rfl
    | unload => rfl

/-- A call that does not ask for one of the three controllers. -/
def ApiCall.SelectsNone : ApiCall → Prop
  | .select t => controllerOf t = none
  | .load _ | .unload => True

/-- **What a call did is in order** exactly when it does not ask for a controller. -/
theorem apiCall_ok (calls : List ApiCall) (c : ApiCall) :
    EntryOk (apiRun calls).2 (apiCall (apiRun calls).1 c).2 ↔ c.SelectsNone := by
  cases c with
  | select t =>
    rw [apiCall, bpfccSelect_refuses]
    simp only [EntryOk, ApiCall.SelectsNone, implies_true, and_true]
    constructor
    · intro h
      by_contra hne
      exact absurd (h hne) (by decide)
    · intro h hne
      exact absurd h hne
  | load o =>
    rw [ApiCall.SelectsNone, iff_true]
    show (apiRun calls).1.ops.load = _
    rw [apiRun_ops, lastSelected_apiRun]
    rfl
  | unload =>
    rw [ApiCall.SelectsNone, iff_true]
    show (apiRun calls).1.ops.unload = _
    rw [apiRun_ops, lastSelected_apiRun]
    rfl

/-- **When the API drives the selected controller**: in a history of calls exactly when no call asks for one of the
three controllers. -/
theorem drives_iff (calls : List ApiCall) : Drives calls ↔ ∀ c ∈ calls, c.SelectsNone := by
  rw [← kept_forall_iff]
  apply kept_concat_iff (fun calls => (apiRun calls).2) fun before c => [(apiCall (apiRun before).1 c).2]
  · rfl
  · intro before c
    rw [apiRun_concat]
  · intro before c
    rw [keptFrom_cons, apiCall_ok]
    exact and_iff_left (keptFrom_nil _)

/-- A selection of Cubic, and nothing else. -/
theorem select_cubic_fails : ¬ Drives [.select bpfCubic] := by decide

end CoupledCC.Libcc
