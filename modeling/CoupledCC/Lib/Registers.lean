import Mathlib.Tactic

/-!
# Registers of a few bits

A state has registers `F` with a `width` in bits each; a program assigns numbers to them, and a register keeps what its
width holds (`stores`). When every assigned number fits, nothing is lost: the registers are what unbounded ones would be
(`stores_eq_assigns`).

- `Logged`: what a step assigns, in order; logs of steps in sequence and under a test;
- `AllFit`, `Within`: every number of a log fits, and the log assigns to some registers only.
-/

namespace Registers

variable {F σ : Type*}

/-- An assignment to a register, with the number before it is cut to the width. -/
structure Write (F : Type*) where
  field : F
  value : ℕ
deriving Repr, DecidableEq

/-- The number fits. -/
def Write.Fits (width : F → ℕ) (w : Write F) : Prop :=
  w.value < 2 ^ width w.field

instance (width : F → ℕ) (w : Write F) : Decidable (w.Fits width) := by
  unfold Write.Fits
  infer_instance

/-- Every number of a log fits. -/
def AllFit (width : F → ℕ) (ws : List (Write F)) : Prop :=
  ∀ w ∈ ws, w.Fits width

/-- A log assigns to some registers only, and every number fits. -/
def Within (width : F → ℕ) (fs : List F) (ws : List (Write F)) : Prop :=
  ∀ w ∈ ws, w.Fits width ∧ w.field ∈ fs

instance [DecidableEq F] (width : F → ℕ) (fs : List F) (ws : List (Write F)) : Decidable (Within width fs ws) := by
  unfold Within
  infer_instance

section Fit

variable {width : F → ℕ} {fs : List F}

theorem Within.allFit {ws : List (Write F)} (h : Within width fs ws) : AllFit width ws :=
  fun w hw => (h w hw).1

theorem within_nil : Within width fs [] := by
  simp [Within]

theorem within_cons {w : Write F} {ws : List (Write F)} :
    Within width fs (w :: ws) ↔ (w.Fits width ∧ w.field ∈ fs) ∧ Within width fs ws := by
  simp [Within]

/-- One more assignment. -/
theorem Within.cons {f : F} {n : ℕ} {ws : List (Write F)} (h : Within width fs ws) (hfit : n < 2 ^ width f)
    (hmem : f ∈ fs) : Within width fs (⟨f, n⟩ :: ws) :=
  within_cons.mpr ⟨⟨hfit, hmem⟩, h⟩

theorem within_single {f : F} {n : ℕ} (hfit : n < 2 ^ width f) (hmem : f ∈ fs) : Within width fs [⟨f, n⟩] :=
  within_nil.cons hfit hmem

theorem Within.append {ws ws' : List (Write F)} (h : Within width fs ws) (h' : Within width fs ws') :
    Within width fs (ws ++ ws') := by
  intro w hw
  rcases List.mem_append.mp hw with hmem | hmem
  · exact h w hmem
  · exact h' w hmem

theorem Within.mono {fs' : List F} {ws : List (Write F)} (h : Within width fs ws) (hfs : fs ⊆ fs') :
    Within width fs' ws :=
  fun w hw => ⟨(h w hw).1, hfs (h w hw).2⟩

theorem Within.ite {p : Prop} [Decidable p] {ws ws' : List (Write F)} (h : p → Within width fs ws)
    (h' : ¬ p → Within width fs ws') : Within width fs (if p then ws else ws') := by
  split
  · rename_i hp
    exact h hp
  · rename_i hp
    exact h' hp

theorem Within.when {p : Prop} [Decidable p] {ws : List (Write F)} (h : p → Within width fs ws) :
    Within width fs (if p then ws else []) :=
  .ite h fun _ => within_nil

theorem allFit_nil : AllFit width [] := by
  simp [AllFit]

theorem AllFit.append {ws ws' : List (Write F)} (h : AllFit width ws) (h' : AllFit width ws') :
    AllFit width (ws ++ ws') := by
  intro w hw
  rcases List.mem_append.mp hw with hmem | hmem
  · exact h w hmem
  · exact h' w hmem

end Fit

section Stores

variable [DecidableEq F] {width : F → ℕ}

/-- A register keeps what its width holds. -/
def store (width : F → ℕ) (v : F → ℕ) (w : Write F) : F → ℕ :=
  Function.update v w.field (w.value % 2 ^ width w.field)

/-- The registers after a log. -/
def stores (width : F → ℕ) (v : F → ℕ) (ws : List (Write F)) : F → ℕ :=
  ws.foldl (store width) v

/-- Registers without a bound, after a log. -/
def assigns (v : F → ℕ) (ws : List (Write F)) : F → ℕ :=
  ws.foldl (fun v w => Function.update v w.field w.value) v

theorem stores_append (v : F → ℕ) (ws ws' : List (Write F)) :
    stores width v (ws ++ ws') = stores width (stores width v ws) ws' :=
  List.foldl_append

/-- **Nothing wraps** when every number fits. -/
theorem stores_eq_assigns {ws : List (Write F)} (h : AllFit width ws) (v : F → ℕ) :
    stores width v ws = assigns v ws := by
  induction ws generalizing v with
  | nil => rfl
  | cons w ws ih =>
    have hstore : store width v w = Function.update v w.field w.value := by
      unfold store
      rw [Nat.mod_eq_of_lt (h w List.mem_cons_self)]
    show stores width (store width v w) ws = assigns (Function.update v w.field w.value) ws
    rw [hstore, ih fun w hw => h w (List.mem_cons_of_mem _ hw)]

/-- A log leaves the other registers alone. -/
theorem stores_other {fs : List F} {ws : List (Write F)} (h : Within width fs ws) {f : F} (hf : f ∉ fs) (v : F → ℕ) :
    stores width v ws f = v f := by
  induction ws generalizing v with
  | nil => rfl
  | cons w ws ih =>
    rw [within_cons] at h
    have hne : f ≠ w.field := fun heq => hf (heq ▸ h.1.2)
    show stores width (store width v w) ws f = v f
    rw [ih h.2, store, Function.update_of_ne hne]

/-! ## Steps with a log -/

variable {read : σ → F → ℕ}

/-- A step from `s` to `s'` makes the assignments `ws`. -/
def Logged (width : F → ℕ) (read : σ → F → ℕ) (s : σ) (ws : List (Write F)) (s' : σ) : Prop :=
  read s' = stores width (read s) ws

theorem Logged.nil (s : σ) : Logged width read s [] s := rfl

theorem Logged.append {s s' s'' : σ} {ws ws' : List (Write F)} (h : Logged width read s ws s')
    (h' : Logged width read s' ws' s'') : Logged width read s (ws ++ ws') s'' := by
  unfold Logged at h h' ⊢
  rw [stores_append, ← h, h']

theorem Logged.ite {p : Prop} [Decidable p] {s a b : σ} {ws ws' : List (Write F)} (h : p → Logged width read s ws a)
    (h' : ¬ p → Logged width read s ws' b) : Logged width read s (if p then ws else ws') (if p then a else b) := by
  split
  · rename_i hp
    exact h hp
  · rename_i hp
    exact h' hp

/-- A step under a test. -/
theorem Logged.when {p : Prop} [Decidable p] {s a : σ} {ws : List (Write F)} (h : p → Logged width read s ws a) :
    Logged width read s (if p then ws else []) (if p then a else s) :=
  .ite h fun _ => .nil s

/-- What a step does not assign it leaves alone. -/
theorem Logged.other {s s' : σ} {fs : List F} {ws : List (Write F)} (h : Logged width read s ws s')
    (hws : Within width fs ws) {f : F} (hf : f ∉ fs) : read s' f = read s f := by
  rw [h, stores_other hws hf]

end Stores

end Registers
