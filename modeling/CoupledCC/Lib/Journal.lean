import Mathlib.Tactic

/-!
# Journals

A journal is a list of entries in the order they were made. `ok before e` says that the entry `e` is in order after the
entries `before`; a journal is kept when each of its entries is.

- `keptFrom_append`: a journal that goes on, part by part;
- `kept_concat_iff`: a journal built call by call is kept when the entries of every call are in order.
-/

namespace Journal

variable {α β : Type*} {ok : List α → α → Prop}

/-- The entries of the second list are in order after those of the first. -/
def KeptFrom (ok : List α → α → Prop) : List α → List α → Prop
  | _, [] => True
  | before, e :: es => ok before e ∧ KeptFrom ok (before ++ [e]) es

/-- Every entry is in order. -/
def Kept (ok : List α → α → Prop) (l : List α) : Prop :=
  KeptFrom ok [] l

instance KeptFrom.decidable [∀ l e, Decidable (ok l e)] : ∀ before l, Decidable (KeptFrom ok before l)
  | _, [] => .isTrue trivial
  | before, e :: es =>
    have := KeptFrom.decidable (before ++ [e]) es
    inferInstanceAs (Decidable (ok before e ∧ KeptFrom ok (before ++ [e]) es))

instance [∀ l e, Decidable (ok l e)] (l : List α) : Decidable (Kept ok l) :=
  KeptFrom.decidable [] l

@[simp] theorem keptFrom_nil (before : List α) : KeptFrom ok before [] := trivial

@[simp] theorem kept_nil : Kept ok [] := trivial

@[simp] theorem keptFrom_cons (before : List α) (e : α) (es : List α) :
    KeptFrom ok before (e :: es) ↔ ok before e ∧ KeptFrom ok (before ++ [e]) es := Iff.rfl

theorem keptFrom_append (before l m : List α) :
    KeptFrom ok before (l ++ m) ↔ KeptFrom ok before l ∧ KeptFrom ok (before ++ l) m := by
  induction l generalizing before with
  | nil => simp
  | cons e es ih => simp [ih, and_assoc]

theorem kept_append (l m : List α) : Kept ok (l ++ m) ↔ Kept ok l ∧ KeptFrom ok l m :=
  keptFrom_append [] l m

theorem kept_concat (l : List α) (e : α) : Kept ok (l ++ [e]) ↔ Kept ok l ∧ ok l e := by
  rw [kept_append, keptFrom_cons]
  exact and_congr_right fun _ => and_iff_left (keptFrom_nil _)

/-- Entries that are in order whatever stands before them. -/
theorem kept_forall_iff {P : α → Prop} (l : List α) : Kept (fun _ e => P e) l ↔ ∀ e ∈ l, P e := by
  induction l using List.reverseRecOn with
  | nil => simp
  | append_singleton l e ih => simp [kept_concat, ih, or_imp, forall_and]

/-- **A journal of calls.** When each call `c` after the calls `before` makes entries that are in order exactly if
`fine` says so, the journal of all calls is kept exactly if `fine` says so of every call. -/
theorem kept_concat_iff {fine : List β → β → Prop} (journal : List β → List α) (entries : List β → β → List α)
    (hnil : journal [] = []) (hconcat : ∀ before c, journal (before ++ [c]) = journal before ++ entries before c)
    (hfine : ∀ before c, KeptFrom ok (journal before) (entries before c) ↔ fine before c) (calls : List β) :
    Kept ok (journal calls) ↔ Kept fine calls := by
  induction calls using List.reverseRecOn with
  | nil => simp [hnil]
  | append_singleton calls c ih => rw [hconcat, kept_append, kept_concat, ih, hfine]

end Journal
