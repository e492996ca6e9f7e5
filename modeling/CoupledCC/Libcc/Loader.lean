import CoupledCC.Lib.Journal

/-!
# The loaders of the controllers

`bpfcubic.c`, `bpfreno.c` and `bpfvegas.c` load a controller with libbpf. Each keeps the object that `open` returned in
a static pointer `skel`. What libbpf does is a parameter (`Outcome`); the calls on objects are noted in a log.

- `call_spec`: what one call does, and the entries it makes;
- `lifeCycle_iff`: the life cycle of the objects is kept exactly when no load comes over an object that is still there,
  no unload over one that is gone, and neither `attach` nor `load` goes wrong in a way that the return value hides;
- `lifeCycle_calls_iff`: whether this is so can be read off the calls and what libbpf does in them (`Status.CallsOk`).
-/

namespace CoupledCC.Libcc

open Journal

/-- What happens to objects, numbered in the order in which `open` returned them. -/
inductive Act
  | opened (obj : ℕ)
  | used (obj : ℕ)
  | attached (obj : ℕ)
  | destroyed (obj : ℕ)
  /-- `skel` no longer points to the object. -/
  | replaced (obj : ℕ)
  /-- `bpf_*_init` returned `r`, with the controller attached or not. -/
  | returned (r : ℤ) (attached : Bool)
deriving Repr, DecidableEq

/-- What `open`, `load` and `attach` do: an object or `NULL`, an error code, a link or `NULL`. -/
structure Outcome where
  opens : Bool
  load : ℤ
  attaches : Bool
deriving Repr, DecidableEq

/-- A loader: its static pointer, and the number of the next object. -/
structure Loader where
  skel : Option ℕ
  next : ℕ
  log : List Act
deriving Repr, DecidableEq

/-- `bpf*_bpf__destroy`, which ignores `NULL`. -/
def destroy (skel : Option ℕ) : List Act :=
  (skel.map Act.destroyed).toList

/-- `bpf_*_init`: the state after it, what it returns, and whether the controller is attached. Only the controller with
`bss` writes to its object between `load` and `attach`. -/
def bpfInit (bss : Bool) (o : Outcome) (s : Loader) : Loader × ℤ × Bool :=
  let s := { s with log := s.log ++ (s.skel.map Act.replaced).toList }
  if o.opens then
    let skel := s.next
    let s : Loader := { skel := some skel, next := s.next + 1, log := s.log ++ [.opened skel, .used skel] }
    let err := o.load
    let ret := if err < 0 then -err else 0
    if err ≠ 0 then (s, ret, false)
    else
      let s := { s with log := s.log ++ (if bss then [Act.used skel] else []) ++ [Act.used skel] }
      if o.attaches then ({ s with log := s.log ++ [Act.attached skel] }, ret, true)
      else ({ s with log := s.log ++ destroy s.skel }, ret, false)
  else ({ s with skel := none }, 1, false)

def bpfCubicInit : Outcome → Loader → Loader × ℤ × Bool := bpfInit true
def bpfRenoInit : Outcome → Loader → Loader × ℤ × Bool := bpfInit false
def bpfVegasInit : Outcome → Loader → Loader × ℤ × Bool := bpfInit false

/-- `bpf_*_stop`. -/
def bpfStop (s : Loader) : Loader :=
  { s with log := s.log ++ destroy s.skel }

def bpfCubicStop : Loader → Loader := bpfStop
def bpfRenoStop : Loader → Loader := bpfStop
def bpfVegasStop : Loader → Loader := bpfStop

/-- `load_bpf_*` calls `bpf_*_init` and does not look at what it returns. -/
def loadBpf (init : Outcome → Loader → Loader × ℤ × Bool) (o : Outcome) (s : Loader) : Loader :=
  let (s, r, attached) := init o s
  { s with log := s.log ++ [.returned r attached] }

def loadBpfCubic : Outcome → Loader → Loader := loadBpf bpfCubicInit
def loadBpfReno : Outcome → Loader → Loader := loadBpf bpfRenoInit
def loadBpfVegas : Outcome → Loader → Loader := loadBpf bpfVegasInit
def unloadBpfCubic : Loader → Loader := bpfCubicStop
def unloadBpfReno : Loader → Loader := bpfRenoStop
def unloadBpfVegas : Loader → Loader := bpfVegasStop

/-- The controllers that can be loaded. -/
inductive Controller
  | cubic
  | reno
  | vegas
deriving Repr, DecidableEq

def Controller.load : Controller → Outcome → Loader → Loader
  | .cubic => loadBpfCubic
  | .reno => loadBpfReno
  | .vegas => loadBpfVegas

def Controller.unload : Controller → Loader → Loader
  | .cubic => unloadBpfCubic
  | .reno => unloadBpfReno
  | .vegas => unloadBpfVegas

/-- A loader before any call. -/
def Loader.start : Loader :=
  ⟨none, 0, []⟩

inductive Call
  | load (o : Outcome)
  | unload
deriving Repr, DecidableEq

def call (ctl : Controller) (s : Loader) : Call → Loader
  | .load o => ctl.load o s
  | .unload => ctl.unload s

/-- The loader of a controller after some calls. -/
def after (ctl : Controller) (calls : List Call) : Loader :=
  calls.foldl (call ctl) .start

/-! ## The life cycle -/

/-- An object is used and destroyed only before it was destroyed, given up only after it, and `bpf_*_init` returns 0
exactly when the controller was attached. -/
def ActOk (before : List Act) : Act → Prop
  | .opened _ | .attached _ => True
  | .used obj | .destroyed obj => .destroyed obj ∉ before
  | .replaced obj => .destroyed obj ∈ before
  | .returned r attached => r = 0 ↔ attached = true

instance (before : List Act) : (a : Act) → Decidable (ActOk before a)
  | .opened _ | .attached _ => inferInstanceAs (Decidable True)
  | .used obj | .destroyed obj => inferInstanceAs (Decidable (.destroyed obj ∉ before))
  | .replaced obj => inferInstanceAs (Decidable (.destroyed obj ∈ before))
  | .returned r attached => inferInstanceAs (Decidable (r = 0 ↔ attached = true))

/-- **The life cycle** of all objects in a log. -/
def LifeCycle (log : List Act) : Prop :=
  Kept ActOk log

instance (log : List Act) : Decidable (LifeCycle log) :=
  inferInstanceAs (Decidable (Kept ActOk log))

/-- What `skel` points to. -/
inductive Status
  | empty
  | live
  | dangling
deriving Repr, DecidableEq

def Loader.status (s : Loader) : Status :=
  match s.skel with
  | none => .empty
  | some obj => if .destroyed obj ∈ s.log then .dangling else .live

/-- What the code relies on at a call: a load finds no object that is still there, and with an object from `open` either
`load` fails with a negative code or both `load` and `attach` succeed; an unload finds no object that is gone. -/
def Status.Allows (st : Status) : Call → Prop
  | .load o => st ≠ .live ∧ (o.opens = true → o.load < 0 ∨ o.load = 0 ∧ o.attaches = true)
  | .unload => st ≠ .dangling

instance (st : Status) : (c : Call) → Decidable (st.Allows c)
  | .load o => inferInstanceAs (Decidable (st ≠ .live ∧ (o.opens = true → o.load < 0 ∨ o.load = 0 ∧ o.attaches = true)))
  | .unload => inferInstanceAs (Decidable (st ≠ .dangling))

def CallOk (s : Loader) (c : Call) : Prop :=
  s.status.Allows c

instance (s : Loader) (c : Call) : Decidable (CallOk s c) :=
  inferInstanceAs (Decidable (s.status.Allows c))

/-- What `skel` points to after a call. -/
def Status.next (st : Status) : Call → Status
  | .load o =>
    if o.opens then
      if o.load = 0 ∧ o.attaches = false then .dangling else .live
    else .empty
  | .unload => if st = .empty then .empty else .dangling

/-- Each of the calls is one that the code can rely on. -/
def Status.CallsOk : Status → List Call → Prop
  | _, [] => True
  | st, c :: calls => st.Allows c ∧ (st.next c).CallsOk calls

instance Status.CallsOk.decidable : ∀ (st : Status) (calls : List Call), Decidable (st.CallsOk calls)
  | _, [] => .isTrue trivial
  | st, c :: calls =>
    have := Status.CallsOk.decidable (st.next c) calls
    inferInstanceAs (Decidable (st.Allows c ∧ (st.next c).CallsOk calls))

/-! ## One call -/

/-- The objects that were opened have the numbers below the next one. -/
def Loader.Numbered (s : Loader) : Prop :=
  (∀ obj, s.skel = some obj → obj < s.next) ∧ ∀ obj, .destroyed obj ∈ s.log → obj < s.next

/-- Cubic writes its parameters into the object. -/
def Controller.bss : Controller → Bool
  | .cubic => true
  | .reno | .vegas => false

/-- The entries of `bpf_*_init` from `open` on. -/
def initEntries (bss : Bool) (o : Outcome) (obj : ℕ) : List Act :=
  if o.opens then
    [.opened obj, .used obj] ++
      (if o.load ≠ 0 then [Act.returned (if o.load < 0 then -o.load else 0) false]
      else
        (if bss then [Act.used obj] else []) ++ [Act.used obj] ++
          (if o.attaches then [Act.attached obj, .returned 0 true] else [Act.destroyed obj, .returned 0 false]))
  else [.returned 1 false]

/-- The entries of one call. -/
def entries (ctl : Controller) (s : Loader) : Call → List Act
  | .load o => (s.skel.map Act.replaced).toList ++ initEntries ctl.bss o s.next
  | .unload => destroy s.skel

/-- What a load does: its entries, and the pointer and the number after it. -/
theorem loadBpf_spec (bss : Bool) (o : Outcome) (s : Loader) :
    loadBpf (bpfInit bss) o s =
      { skel := if o.opens then some s.next else none
        next := if o.opens then s.next + 1 else s.next
        log := s.log ++ ((s.skel.map Act.replaced).toList ++ initEntries bss o s.next) } := by
  simp only [loadBpf, bpfInit, initEntries]
  by_cases hopens : o.opens = true
  · simp only [if_pos hopens]
    by_cases hload : o.load ≠ 0
    · simp only [if_pos hload, List.append_assoc, List.cons_append, List.nil_append]
    · have hzero : o.load = 0 := not_not.mp hload
      have hret : (if o.load < 0 then -o.load else 0) = 0 := if_neg (by omega)
      simp only [if_neg hload, hret]
      split <;> simp [destroy, List.append_assoc]
  · simp only [if_neg hopens, List.append_assoc]

/-- **What one call does.** -/
theorem call_spec (ctl : Controller) (s : Loader) (c : Call) :
    call ctl s c =
      { skel := match c with
          | .load o => if o.opens then some s.next else none
          | .unload => s.skel
        next := match c with
          | .load o => if o.opens then s.next + 1 else s.next
          | .unload => s.next
        log := s.log ++ entries ctl s c } := by
  cases c with
  | unload => cases ctl <;> rfl
  | load o => cases ctl <;> exact loadBpf_spec _ o s

/-- The entries of `bpf_*_init` destroy at most its own object. -/
theorem destroyed_mem_initEntries (bss : Bool) (o : Outcome) (obj obj' : ℕ) :
    .destroyed obj' ∈ initEntries bss o obj ↔ (o.opens = true ∧ o.load = 0 ∧ o.attaches = false) ∧ obj' = obj := by
  unfold initEntries
  by_cases hopens : o.opens = true
  · by_cases hload : o.load = 0
    · cases bss <;> cases hattaches : o.attaches <;> simp [hopens, hload]
    · simp [hopens, hload]
  · simp [hopens]

/-- The entries on a fresh object are in order exactly when the outcome is one that the code relies on. -/
theorem initEntries_kept (bss : Bool) (o : Outcome) {obj : ℕ} {before : List Act} (hfresh : .destroyed obj ∉ before) :
    KeptFrom ActOk before (initEntries bss o obj) ↔
      (o.opens = true → o.load < 0 ∨ o.load = 0 ∧ o.attaches = true) := by
  unfold initEntries
  by_cases hopens : o.opens = true
  · simp only [hopens, if_true, true_implies]
    by_cases hload : o.load ≠ 0
    · by_cases hneg : o.load < 0
      · simp [ActOk, hfresh, hneg, hload]
      · simp [ActOk, hfresh, hneg, hload]
    · have hzero : o.load = 0 := not_not.mp hload
      cases bss <;> cases o.attaches <;> simp [ActOk, hfresh, hzero]
  · simp [hopens, ActOk]

theorem status_ne_live_iff (s : Loader) : s.status ≠ .live ↔ ∀ obj, s.skel = some obj → .destroyed obj ∈ s.log := by
  unfold Loader.status
  cases s.skel with
  | none => simp
  | some obj => simp

theorem status_ne_dangling_iff (s : Loader) :
    s.status ≠ .dangling ↔ ∀ obj, s.skel = some obj → .destroyed obj ∉ s.log := by
  unfold Loader.status
  cases s.skel with
  | none => simp
  | some obj =>
    by_cases h : .destroyed obj ∈ s.log <;> simp [h]

/-- **The entries of a call are in order** exactly when the call finds what the code relies on. -/
theorem entries_kept (ctl : Controller) {s : Loader} (hs : s.Numbered) (c : Call) :
    KeptFrom ActOk s.log (entries ctl s c) ↔ CallOk s c := by
  cases c with
  | unload =>
    rw [CallOk, Status.Allows, status_ne_dangling_iff, entries, destroy]
    cases s.skel with
    | none => simp
    | some obj => simp [ActOk]
  | load o =>
    have hfresh : .destroyed s.next ∉ s.log := fun h => lt_irrefl _ (hs.2 _ h)
    rw [CallOk, Status.Allows, status_ne_live_iff, entries, keptFrom_append]
    cases s.skel with
    | none =>
      rw [Option.map_none, Option.toList_none, List.append_nil, initEntries_kept ctl.bss o hfresh]
      simp
    | some obj =>
      have hfresh' : .destroyed s.next ∉ s.log ++ [.replaced obj] := by simpa using hfresh
      rw [Option.map_some, Option.toList_some, initEntries_kept ctl.bss o hfresh']
      simp [ActOk]

/-! ## All calls -/

/-- A call keeps the numbers of the objects below the next one. -/
theorem call_numbered (ctl : Controller) {s : Loader} (hs : s.Numbered) (c : Call) : (call ctl s c).Numbered := by
  obtain ⟨hskel, hlog⟩ := hs
  rw [call_spec]
  cases c with
  | unload =>
    refine ⟨hskel, fun obj h => ?_⟩
    rcases List.mem_append.mp h with h | h
    · exact hlog obj h
    · exact hskel obj (by simpa [entries, destroy, Option.map_eq_some_iff] using h)
  | load o =>
    constructor
    · intro obj h
      simp only at h ⊢
      split at h
      · rename_i hopens
        cases h
        rw [if_pos hopens]
        exact Nat.lt_succ_self _
      · cases h
    · intro obj h
      simp only [entries, List.mem_append] at h ⊢
      rcases h with h | h | h
      · have hlt := hlog obj h
        split
        · exact Nat.lt_succ_of_lt hlt
        · exact hlt
      · simp at h
      · obtain ⟨⟨hopens, -, -⟩, rfl⟩ := (destroyed_mem_initEntries ctl.bss o s.next obj).mp h
        rw [if_pos hopens]
        exact Nat.lt_succ_self _

/-- The status after a call depends on the status before it and on the call only. -/
theorem status_call (ctl : Controller) {s : Loader} (hs : s.Numbered) (c : Call) :
    (call ctl s c).status = s.status.next c := by
  rw [call_spec]
  cases c with
  | unload =>
    unfold Loader.status Status.next
    cases hskel : s.skel with
    | none => rfl
    | some obj =>
      have hgone : Act.destroyed obj ∈ s.log ++ entries ctl s .unload := by simp [entries, destroy, hskel]
      simp only [if_pos hgone]
      split <;> rfl
  | load o =>
    unfold Loader.status Status.next
    by_cases hopens : o.opens = true
    · have hfresh : Act.destroyed s.next ∉ s.log := fun h => lt_irrefl _ (hs.2 _ h)
      have hgone : Act.destroyed s.next ∈ s.log ++ entries ctl s (.load o) ↔ o.load = 0 ∧ o.attaches = false := by
        rw [entries, List.mem_append, List.mem_append, destroyed_mem_initEntries]
        simp [hfresh, hopens]
      simp only [if_pos hopens, hgone]
    · simp only [if_neg hopens]

theorem after_concat (ctl : Controller) (calls : List Call) (c : Call) :
    after ctl (calls ++ [c]) = call ctl (after ctl calls) c := by
  rw [after, List.foldl_append]
  rfl

theorem after_numbered (ctl : Controller) (calls : List Call) : (after ctl calls).Numbered := by
  induction calls using List.reverseRecOn with
  | nil => exact ⟨fun obj h => (by cases h), fun obj h => (by cases h)⟩
  | append_singleton calls c ih =>
    rw [after_concat]
    exact call_numbered ctl ih c

/-- **When the life cycle of the objects is kept**: for every sequence of calls and every outcome of libbpf, and for
each of the three loaders, exactly when every call finds what the code relies on. -/
theorem lifeCycle_iff (ctl : Controller) (calls : List Call) :
    LifeCycle (after ctl calls).log ↔ Kept (fun before c => CallOk (after ctl before) c) calls := by
  apply kept_concat_iff (fun calls => (after ctl calls).log) fun before c => entries ctl (after ctl before) c
  · rfl
  · intro before c
    rw [after_concat, call_spec]
  · intro before c
    exact entries_kept ctl (after_numbered ctl before) c

/-- The calls and the loader after them agree on what each call finds. -/
theorem kept_callOk_iff (ctl : Controller) (calls : List Call) :
    Kept (fun before c => CallOk (after ctl before) c) calls ↔ Status.empty.CallsOk calls := by
  have hfrom (before : List Call) : KeptFrom (fun before c => CallOk (after ctl before) c) before calls ↔
      (after ctl before).status.CallsOk calls := by
    induction calls generalizing before with
    | nil => exact Iff.rfl
    | cons c calls ih =>
      rw [keptFrom_cons, ih, after_concat, status_call ctl (after_numbered ctl before)]
      exact Iff.rfl
  exact hfrom []

/-- **The life cycle, read off the calls**: it is kept exactly when every call, with what libbpf does in it, is one that
the code can rely on after the calls before it. -/
theorem lifeCycle_calls_iff (ctl : Controller) (calls : List Call) :
    LifeCycle (after ctl calls).log ↔ Status.empty.CallsOk calls := by
  rw [lifeCycle_iff, kept_callOk_iff]

/-- A load, an unload and another unload: the object is destroyed twice. -/
theorem second_unload_destroys : ¬ LifeCycle (after .cubic [.load ⟨true, 0, true⟩, .unload, .unload]).log := by decide

end CoupledCC.Libcc
