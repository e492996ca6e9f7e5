import Mathlib.Order.Defs.LinearOrder
import Mathlib.Tactic

/-!
# Falls of a sequence

A fall is a pair of neighbours of which the later one is smaller. A watcher that keeps the last value counts falls, but
after each one it forgets the value, so that the next pair is not compared.

- `firstFall_concat`: the first fall of a sequence without falls that one value is added to;
- `watched_eq_iff`: the watcher counts every fall exactly when none follows right upon another.
-/

namespace Falls

variable {α R : Type*} [LinearOrder R]

/-- The number of pairs of neighbours with a smaller later value. -/
def falls : List R → ℕ
  | a :: b :: l => (if b < a then 1 else 0) + falls (b :: l)
  | _ => 0

/-- The later one of the first two neighbours whose values fall. -/
def firstFall (val : α → R) : List α → Option α
  | a :: b :: l => if val b < val a then some b else firstFall val (b :: l)
  | _ => none

/-- Two falls in a row. -/
def FallsTwice (l : List R) : Prop :=
  ∃ a b c, [a, b, c] <:+: l ∧ b < a ∧ c < b

/-- One value for the watcher: what it keeps, and how many falls it has counted. -/
def watch : Option R × ℕ → R → Option R × ℕ
  | (none, k), x => (some x, k)
  | (some b, k), x => if x < b then (none, k + 1) else (some x, k)

/-! ## The first fall -/

theorem firstFall_concat {val : α → R} {l : List α} (h : firstFall val l = none) (x : α) :
    firstFall val (l ++ [x]) = l.getLast?.bind fun b => if val x < val b then some x else none := by
  induction l using List.twoStepInduction with
  | nil => rfl
  | singleton a => rfl
  | cons_cons a b l _ ih =>
    rw [firstFall] at h
    split at h
    · cases h
    · rename_i hfall
      rw [List.cons_append, List.cons_append, firstFall, if_neg hfall, ← List.cons_append, ih b h,
        List.getLast?_cons_cons]

theorem firstFall_congr {val val' : α → R} {l : List α} (h : ∀ a ∈ l, val' a = val a) :
    firstFall val' l = firstFall val l := by
  induction l using List.twoStepInduction with
  | nil => rfl
  | singleton a => rfl
  | cons_cons a b l _ ih =>
    have hrest := ih b fun c hc => h c (List.mem_cons_of_mem _ hc)
    rw [firstFall, firstFall, hrest, h a (by simp), h b (by simp)]

/-! ## The watcher -/

/-- How many falls the watcher counts from what it keeps. -/
def watched (o : Option R) (l : List R) : ℕ :=
  (l.foldl watch (o, 0)).2

theorem foldl_watch (o : Option R) (k : ℕ) (l : List R) :
    (l.foldl watch (o, k)).2 = k + watched o l ∧ (l.foldl watch (o, k)).1 = (l.foldl watch (o, 0)).1 := by
  unfold watched
  induction l generalizing o k with
  | nil => exact ⟨rfl, rfl⟩
  | cons x l ih =>
    rw [List.foldl_cons, List.foldl_cons]
    cases o with
    | none => exact ih (some x) k
    | some b =>
      simp only [watch]
      split
      · obtain ⟨h₁, h₂⟩ := ih none (k + 1)
        obtain ⟨h₁', h₂'⟩ := ih none (0 + 1)
        rw [h₁, h₂, h₁', h₂']
        exact ⟨by omega, rfl⟩
      · exact ih (some x) k

theorem watched_none_cons (x : R) (l : List R) : watched none (x :: l) = watched (some x) l := rfl

theorem watched_some_cons (b x : R) (l : List R) :
    watched (some b) (x :: l) = if x < b then 1 + watched none l else watched (some x) l := by
  rw [watched, List.foldl_cons, watch]
  split
  · rw [(foldl_watch none (0 + 1) l).1]
  · rfl

theorem fallsTwice_cons (a b c : R) (l : List R) :
    FallsTwice (a :: b :: c :: l) ↔ (b < a ∧ c < b) ∨ FallsTwice (b :: c :: l) := by
  constructor
  · rintro ⟨x, y, z, hinfix, hfalls⟩
    rcases List.infix_cons_iff.mp hinfix with hprefix | hrest
    · simp only [List.cons_prefix_cons] at hprefix
      obtain ⟨rfl, rfl, rfl, -⟩ := hprefix
      exact .inl hfalls
    · exact .inr ⟨x, y, z, hrest, hfalls⟩
  · rintro (hfalls | ⟨x, y, z, hinfix, hfalls⟩)
    · exact ⟨a, b, c, ⟨[], l, rfl⟩, hfalls⟩
    · exact ⟨x, y, z, List.infix_cons hinfix, hfalls⟩

theorem not_fallsTwice_of_length {l : List R} (h : l.length < 3) : ¬ FallsTwice l := by
  rintro ⟨a, b, c, hinfix, -⟩
  have hlen := hinfix.length_le
  simp only [List.length_cons, List.length_nil] at hlen
  omega

/-- The watcher with the last value `b`, and the watcher that has just counted a fall to `b`. -/
theorem watched_spec (b : R) (l : List R) :
    (watched (some b) l ≤ falls (b :: l) ∧ (watched (some b) l = falls (b :: l) ↔ ¬ FallsTwice (b :: l))) ∧
      watched none l ≤ falls (b :: l) ∧
      (watched none l = falls (b :: l) ↔ (∀ c ∈ l.head?, ¬ c < b) ∧ ¬ FallsTwice (b :: l)) := by
  induction l generalizing b with
  | nil => simp [watched, falls, not_fallsTwice_of_length]
  | cons x l ih =>
    obtain ⟨⟨hle, hiff⟩, hle', hiff'⟩ := ih x
    have hfalls : falls (b :: x :: l) = (if x < b then 1 else 0) + falls (x :: l) := rfl
    have htwice : FallsTwice (b :: x :: l) ↔ (x < b ∧ ∃ c ∈ l.head?, c < x) ∨ FallsTwice (x :: l) := by
      cases l with
      | nil => simp [not_fallsTwice_of_length]
      | cons c l => simp [fallsTwice_cons]
    rw [watched_some_cons, watched_none_cons, hfalls, htwice]
    by_cases hx : x < b
    · simp only [if_pos hx, List.head?_cons, Option.mem_some_iff, forall_eq']
      refine ⟨⟨by omega, ?_⟩, by omega, ?_⟩
      · rw [Nat.add_left_cancel_iff, hiff']
        simp only [hx, true_and, not_or, not_exists, not_and]
      · constructor
        · intro h
          omega
        · intro h
          exact absurd hx h.1
    · simp only [if_neg hx, List.head?_cons, Option.mem_some_iff, forall_eq', Nat.zero_add]
      refine ⟨⟨hle, ?_⟩, hle, ?_⟩
      · rw [hiff]
        simp only [hx, false_and, false_or]
      · rw [hiff]
        simp only [hx, false_and, false_or, not_false_eq_true, true_and]

/-- **When every fall is counted.** -/
theorem watched_eq_iff (l : List R) : watched none l = falls l ↔ ¬ FallsTwice l := by
  cases l with
  | nil => exact iff_of_true rfl (not_fallsTwice_of_length (by simp))
  | cons b l => exact (watched_spec b l).1.2

/-- A part of a sequence without two falls in a row has none either. -/
theorem FallsTwice.mono {l m : List R} (h : FallsTwice l) (hlm : l <:+: m) : FallsTwice m := by
  obtain ⟨a, b, c, hinfix, hfalls⟩ := h
  exact ⟨a, b, c, hinfix.trans hlm, hfalls⟩

end Falls
