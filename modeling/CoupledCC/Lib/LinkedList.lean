import Mathlib.Data.List.Chain
import Mathlib.Tactic

/-!
# Doubly linked lists in a heap

Nodes with a pointer to the previous and one to the next node. `h.Linked l` says that the nodes `l` are linked in this
order in the heap `h`, and that the last one points to nothing.

- `Linked.insert`, `Linked.remove`: a node more and a node less, for any heap that has the right links and agrees with
  the old one elsewhere;
- `Linked.walk`: following the links visits the nodes in order.
-/

namespace LinkedList

variable {α : Type*}

/-- The two pointers of every node; `none` is `NULL`. -/
structure Links (α : Type*) where
  prev : α → Option α
  next : α → Option α

namespace Links

/-! ## Writing a pointer -/

section Write

variable [DecidableEq α]

def setPrev (h : Links α) (a : α) (p : Option α) : Links α :=
  { h with prev := Function.update h.prev a p }

def setNext (h : Links α) (a : α) (p : Option α) : Links α :=
  { h with next := Function.update h.next a p }

@[simp] theorem setPrev_prev (h : Links α) (a b : α) (p : Option α) :
    (h.setPrev a p).prev b = if b = a then p else h.prev b := Function.update_apply _ _ _ _
@[simp] theorem setPrev_next (h : Links α) (a b : α) (p : Option α) : (h.setPrev a p).next b = h.next b := rfl
@[simp] theorem setNext_next (h : Links α) (a b : α) (p : Option α) :
    (h.setNext a p).next b = if b = a then p else h.next b := Function.update_apply _ _ _ _
@[simp] theorem setNext_prev (h : Links α) (a b : α) (p : Option α) : (h.setNext a p).prev b = h.prev b := rfl

end Write

/-! ## Linked nodes -/

/-- `b` comes right after `a`. -/
def Joined (h : Links α) (a b : α) : Prop :=
  h.next a = some b ∧ h.prev b = some a

/-- **The nodes of a list are linked in this order**, and the last one points to nothing. -/
structure Linked (h : Links α) (l : List α) : Prop where
  joined : l.IsChain h.Joined
  ends : ∀ a ∈ l.getLast?, h.next a = none

variable {h h' : Links α}

/-- Only the pointers between the nodes matter. -/
theorem joined_congr {l : List α} (hl : l.IsChain h.Joined) (hnext : ∀ a ∈ l.dropLast, h'.next a = h.next a)
    (hprev : ∀ b ∈ l.tail, h'.prev b = h.prev b) : l.IsChain h'.Joined := by
  induction l using List.twoStepInduction with
  | nil => exact .nil
  | singleton a => exact .singleton a
  | cons_cons a b l _ ih =>
    obtain ⟨⟨hab, hba⟩, hrest⟩ := List.isChain_cons_cons.mp hl
    refine List.isChain_cons_cons.mpr ⟨⟨?_, ?_⟩, ih b hrest ?_ ?_⟩
    · rw [hnext a (by simp), hab]
    · rw [hprev b (by simp), hba]
    · intro c hc
      exact hnext c (by simp [hc])
    · intro c hc
      exact hprev c (by simp at hc; simp [hc])

theorem Linked.tail {a : α} {l : List α} (hl : h.Linked (a :: l)) : h.Linked l := by
  refine ⟨hl.joined.tail, fun b hb => hl.ends b ?_⟩
  cases l with
  | nil => cases hb
  | cons c l => rwa [List.getLast?_cons_cons]

theorem Linked.append_right {l m : List α} (hl : h.Linked (l ++ m)) : h.Linked m := by
  induction l with
  | nil => exact hl
  | cons a l ih => exact ih hl.tail

/-- A node points to the one after it, or to nothing. -/
theorem Linked.next {pre post : List α} {a : α} (hl : h.Linked (pre ++ a :: post)) : h.next a = post.head? := by
  have ha := hl.append_right
  cases post with
  | nil => exact ha.ends a rfl
  | cons b post => exact (List.isChain_cons_cons.mp ha.joined).1.1

/-- A node points back to the one before it. -/
theorem Linked.prev {pre post : List α} {a b : α} (hl : h.Linked (pre ++ a :: b :: post)) : h.prev b = some a :=
  (List.isChain_cons_cons.mp hl.append_right.joined).1.2

/-- The part up to a node keeps its links when those of the nodes after it change. -/
theorem Linked.before {pre post : List α} {a : α} (hl : h.Linked (pre ++ a :: post))
    (hnext : ∀ c ∈ pre, h'.next c = h.next c) (hprev : ∀ c ∈ pre ++ [a], h'.prev c = h.prev c) :
    (pre ++ [a]).IsChain h'.Joined := by
  have hpre := (List.isChain_split.mp hl.joined).1
  apply joined_congr hpre
  · rwa [List.dropLast_concat]
  · intro b hb
    exact hprev b (List.mem_of_mem_tail hb)

/-- The part from a node on keeps its links but for the pointer back. -/
theorem Linked.from {a : α} {l : List α} (hl : h.Linked (a :: l)) (hnext : ∀ c ∈ a :: l, h'.next c = h.next c)
    (hprev : ∀ c ∈ l, h'.prev c = h.prev c) : h'.Linked (a :: l) := by
  refine ⟨joined_congr hl.joined (fun c hc => hnext c (List.mem_of_mem_dropLast hc)) hprev, fun c hc => ?_⟩
  rw [hnext c (List.mem_of_mem_getLast? hc), hl.ends c hc]

/-- Two linked lists, the first ending where a pointer leads to the second. -/
theorem Linked.join {pre post : List α} {a b : α} (hpre : (pre ++ [a]).IsChain h.Joined) (hab : h.Joined a b)
    (hpost : h.Linked (b :: post)) : h.Linked (pre ++ a :: b :: post) := by
  refine ⟨List.isChain_append_cons_cons.mpr ⟨hpre, hab, hpost.joined⟩, fun c hc => hpost.ends c ?_⟩
  rwa [List.getLast?_append_cons, List.getLast?_cons_cons] at hc

/-- A list that ends with a node. -/
theorem Linked.concat {pre : List α} {a : α} (hpre : (pre ++ [a]).IsChain h.Joined) (ha : h.next a = none) :
    h.Linked (pre ++ [a]) := by
  refine ⟨hpre, fun c hc => ?_⟩
  rw [List.getLast?_concat] at hc
  cases hc
  exact ha

/-- **A node more**, right after `a`. -/
theorem Linked.insert {pre post : List α} {a b : α} (hl : h.Linked (pre ++ a :: post)) (hab : h'.Joined a b)
    (hbnext : h'.next b = post.head?) (hpost : ∀ c ∈ post.head?, h'.prev c = some b)
    (hnext : ∀ c ∈ pre ++ post, h'.next c = h.next c) (hprev : ∀ c ∈ pre ++ a :: post.tail, h'.prev c = h.prev c) :
    h'.Linked (pre ++ a :: b :: post) := by
  have hpre : (pre ++ [a]).IsChain h'.Joined :=
    hl.before (fun c hc => hnext c (by simp [hc])) fun c hc => hprev c (by simp at hc; simp; tauto)
  apply Linked.join hpre hab
  cases post with
  | nil =>
    have hlast : h'.Linked ([] ++ [b]) := .concat (.singleton b) hbnext
    exact hlast
  | cons c post =>
    have hrest : h'.Linked (c :: post) :=
      (hl.append_right.tail).from (fun d hd => hnext d (List.mem_append_right _ hd)) fun d hd => hprev d (by simp [hd])
    have hboth : h'.Linked ([] ++ b :: c :: post) := .join (.singleton b) ⟨hbnext, hpost c rfl⟩ hrest
    exact hboth

/-- **A node less**, the one after `a`. -/
theorem Linked.remove {pre post : List α} {a b : α} (hl : h.Linked (pre ++ a :: b :: post))
    (hanext : h'.next a = post.head?) (hpost : ∀ c ∈ post.head?, h'.prev c = some a)
    (hnext : ∀ c ∈ pre ++ post, h'.next c = h.next c) (hprev : ∀ c ∈ pre ++ a :: post.tail, h'.prev c = h.prev c) :
    h'.Linked (pre ++ a :: post) := by
  have hpre : (pre ++ [a]).IsChain h'.Joined :=
    hl.before (fun c hc => hnext c (by simp [hc])) fun c hc => hprev c (by simp at hc; simp; tauto)
  cases post with
  | nil => exact Linked.concat hpre hanext
  | cons c post =>
    have hrest : h'.Linked (c :: post) :=
      (hl.append_right.tail.tail).from (fun d hd => hnext d (List.mem_append_right _ hd))
        fun d hd => hprev d (by simp [hd])
    exact Linked.join hpre ⟨hanext, hpost c rfl⟩ hrest

/-! ## Following the links -/

/-- The nodes visited from a pointer on, at most `n`. -/
def walk (h : Links α) : ℕ → Option α → List α
  | 0, _ => []
  | _ + 1, none => []
  | n + 1, some a => a :: h.walk n (h.next a)

/-- **Following the links** visits the nodes in order, and ends after the last one. -/
theorem Linked.walk {l : List α} (hl : h.Linked l) {n : ℕ} (hn : l.length ≤ n) : h.walk n l.head? = l := by
  induction l generalizing n with
  | nil => cases n <;> rfl
  | cons a l ih =>
    obtain ⟨n, rfl⟩ : ∃ k, n = k + 1 := ⟨n - 1, by simp at hn; omega⟩
    have hstart : h.Linked ([] ++ a :: l) := hl
    have hnext := hstart.next
    rw [List.head?_cons, Links.walk, hnext, ih hl.tail (by simpa using hn)]

end Links

end LinkedList
