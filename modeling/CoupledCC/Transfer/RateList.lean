import CoupledCC.Lib.LinkedList

/-!
# The list of rates

`list.h`: a list with its sentinel and a pointer to its last node. The nodes are the `list_head`s of a heap, the
sentinel `head` among them. An operation that follows `NULL` is a fault (`none`).

- `listOp_refines`: each operation does to the heap what append, insert-after and delete do to the sequence of nodes;
- `runOps_refines`: and so does every sequence of operations on an initialised list.
-/

namespace CoupledCC.Transfer

open LinkedList

variable {α : Type*} [DecidableEq α]

/-! ## The operations -/

/-- `INIT_LIST_HEAD`. -/
def initListHead (h : Links α) (head : α) : Links α :=
  (h.setNext head none).setPrev head (some head)

def listAdd (h : Links α) (new head : α) : Links α :=
  ((h.setNext head (some new)).setPrev new (some head)).setNext new none

def listDel (h : Links α) (p : α) : Links α :=
  let h := match h.prev p with
    | none => h
    | some before => h.setNext before (h.next p)
  let h := match h.next p with
    | none => h
    | some after => h.setPrev after (h.prev p)
  (h.setNext p none).setPrev p none

/-- The heap, and the `last_head` of a `struct list`. -/
structure RateList (α : Type*) where
  links : Links α
  lastHead : Option α

def initList (h : Links α) (head : α) : RateList α :=
  ⟨initListHead h head, some head⟩

def listRemove (s : RateList α) (head : α) : RateList α :=
  let s := if s.lastHead = some head then { s with lastHead := s.links.prev head } else s
  { s with links := listDel s.links head }

def listInsert (s : RateList α) (head : α) : Option (RateList α) :=
  s.lastHead.map fun last => ⟨listAdd s.links head last, some head⟩

def listInsertAt (s : RateList α) (new old : α) : Option (RateList α) :=
  if s.lastHead = some old then listInsert s new
  else
    let h := s.links.setPrev new (some old)
    let h := h.setNext new (h.next old)
    (h.next old).map fun after => { s with links := (h.setPrev after (some new)).setNext old (some new) }

/-- An operation on a list that is initialised. -/
inductive ListOp (α : Type*)
  | insert (node : α)
  | insertAt (node old : α)
  | remove (node : α)

/-- The node that is put in or taken out. -/
def ListOp.node : ListOp α → α
  | .insert node | .insertAt node _ | .remove node => node

def listOp (s : RateList α) : ListOp α → Option (RateList α)
  | .insert node => listInsert s node
  | .insertAt node old => listInsertAt s node old
  | .remove node => some (listRemove s node)

/-- Operations one after another. -/
def runOps (s : RateList α) (ops : List (ListOp α)) : Option (RateList α) :=
  ops.foldlM listOp s

/-! ## The sequence -/

/-- A sequence with a node more right after `old`. -/
def insertAfter (node old : α) : List α → List α
  | [] => []
  | a :: l => if a = old then a :: node :: l else a :: insertAfter node old l

/-- What an operation does to the sequence of nodes. A node that is put in is not in the list, and `old` and a node that
is taken out are. -/
def ListOp.apply (head : α) (l : List α) : ListOp α → Option (List α)
  | .insert node => if node ∉ head :: l then some (l ++ [node]) else none
  | .insertAt node old => if node ∉ head :: l ∧ old ∈ l then some (insertAfter node old l) else none
  | .remove node => if node ∈ l then some (l.erase node) else none

/-- What operations do to an empty sequence. -/
def applyOps (head : α) (ops : List (ListOp α)) : Option (List α) :=
  ops.foldlM (ListOp.apply head) []

/-- **The heap represents a sequence**: no node twice, linked after the sentinel in this order, and the last one
noted. -/
structure Represents (head : α) (s : RateList α) (l : List α) : Prop where
  nodup : (head :: l).Nodup
  linked : s.links.Linked (head :: l)
  last : s.lastHead = (head :: l).getLast?

/-- The two pointers of a node. -/
def RateList.node (s : RateList α) (a : α) : Option α × Option α :=
  (s.links.prev a, s.links.next a)

theorem insertAfter_append {node old : α} {pre : List α} (post : List α) (h : old ∉ pre) :
    insertAfter node old (pre ++ old :: post) = pre ++ old :: node :: post := by
  induction pre with
  | nil => simp [insertAfter]
  | cons a pre ih =>
    simp only [List.mem_cons, not_or] at h
    rw [List.cons_append, insertAfter, if_neg (Ne.symm h.1), ih h.2]
    rfl

/-! ## One operation -/

theorem initList_represents (h : Links α) (head : α) : Represents head (initList h head) [] :=
  ⟨List.nodup_singleton head, ⟨.singleton head, by simp [initList, initListHead]⟩, rfl⟩

omit [DecidableEq α] in
/-- The other nodes of a list without repetition. -/
theorem ne_of_nodup {l pre post : List α} {a b : α} (hl : l.Nodup) (h : l = pre ++ a :: post) (hb : b ∈ pre ++ post) :
    b ≠ a := by
  subst h
  rintro rfl
  exact (List.nodup_cons.mp (List.nodup_middle.mp hl)).1 hb

/-- An appended node. -/
theorem listInsert_spec {head node : α} {s : RateList α} {l : List α} (hs : Represents head s l)
    (hnode : node ∉ head :: l) :
    ∃ s', listInsert s node = some s' ∧ Represents head s' (l ++ [node]) ∧
      ∀ a ∉ head :: (l ++ [node]), s'.node a = s.node a := by
  obtain ⟨pre, last, hl⟩ : ∃ pre last, head :: l = pre ++ [last] :=
    ⟨_, _, (List.dropLast_append_getLast (List.cons_ne_nil head l)).symm⟩
  have hlast : s.lastHead = some last := by rw [hs.last, hl, List.getLast?_concat]
  have hlinked := hl ▸ hs.linked
  have hnew : ∀ c ∈ pre ++ [last], c ≠ node := fun c hc h => hnode (by rw [hl, ← h]; exact hc)
  refine ⟨⟨listAdd s.links node last, some node⟩, by rw [listInsert, hlast]; rfl, ⟨?_, ?_, ?_⟩, ?_⟩
  · rw [← List.cons_append, List.nodup_append]
    exact ⟨hs.nodup, List.nodup_singleton node, fun a ha b hb hab => hnode (by simp at hb; rwa [← hb, ← hab])⟩
  · rw [← List.cons_append, hl, List.append_assoc]
    apply hlinked.insert
    · simp [Links.Joined, listAdd, hnew last (by simp)]
    · simp [listAdd]
    · simp
    · intro c hc
      have hclast : c ≠ last := ne_of_nodup hs.nodup hl hc
      have hcnode : c ≠ node := hnew c (List.mem_append_left _ (by simpa using hc))
      simp [listAdd, hclast, hcnode]
    · intro c hc
      simp [listAdd, hnew c hc]
  · rw [← List.cons_append, List.getLast?_concat]
  · intro a ha
    rw [← List.cons_append, hl] at ha
    have halast : a ≠ last := fun h => ha (by simp [h])
    have hanode : a ≠ node := fun h => ha (by simp [h])
    simp [RateList.node, listAdd, halast, hanode]

/-- A node put in after another one. -/
theorem listInsertAt_spec {head node old : α} {s : RateList α} {pre post : List α}
    (hs : Represents head s (pre ++ old :: post)) (hnode : node ∉ head :: (pre ++ old :: post)) :
    ∃ s', listInsertAt s node old = some s' ∧ Represents head s' (pre ++ old :: node :: post) ∧
      ∀ a ∉ head :: (pre ++ old :: node :: post), s'.node a = s.node a := by
  unfold listInsertAt
  cases post with
  | nil =>
    have hlast : s.lastHead = some old := by rw [hs.last, ← List.cons_append, List.getLast?_concat]
    rw [if_pos hlast]
    simpa [List.append_assoc] using listInsert_spec hs hnode
  | cons after post =>
    have hlast : s.lastHead = (after :: post).getLast? := by
      rw [hs.last, ← List.cons_append, List.getLast?_append_cons, List.getLast?_cons_cons]
    have hold : ∀ c ∈ (head :: pre) ++ (after :: post), c ≠ old :=
      fun c hc => ne_of_nodup hs.nodup (List.cons_append ..).symm hc
    have hafter : ∀ c ∈ (head :: pre ++ [old]) ++ post, c ≠ after :=
      fun c hc => ne_of_nodup hs.nodup (by simp) hc
    have hnew : ∀ c ∈ (head :: pre) ++ old :: after :: post, c ≠ node := fun c hc h => hnode (h ▸ hc)
    have hnot : ¬ s.lastHead = some old := by
      intro h
      rw [hlast] at h
      exact hold old (List.mem_append_right _ (List.mem_of_getLast? h)) rfl
    have hlinked : s.links.Linked ((head :: pre) ++ old :: after :: post) := hs.linked
    have hnext : s.links.next old = some after := hlinked.next
    have hnewOld : old ≠ node := hnew old (by simp)
    have hnewAfter : after ≠ node := hnew after (by simp)
    rw [if_neg hnot]
    simp only [Links.setNext_next, Links.setPrev_next, hnext, if_neg hnewOld, Option.map_some]
    refine ⟨_, rfl, ⟨?_, ?_, ?_⟩, ?_⟩
    · have hmiddle : head :: (pre ++ old :: node :: after :: post) =
          (head :: pre ++ [old]) ++ node :: after :: post := by
        simp
      rw [hmiddle, List.nodup_middle, List.nodup_cons]
      exact ⟨by simpa using hnode, by simpa using hs.nodup⟩
    · apply hlinked.insert (b := node)
      · simp [Links.Joined, hnewAfter.symm]
      · simp [hnewOld.symm]
      · simp
      · intro c hc
        have hcnode : c ≠ node := hnew c (by simp at hc ⊢; tauto)
        simp [hold c hc, hcnode]
      · intro c hc
        have hcafter : c ≠ after := hafter c (by simpa using hc)
        have hcnode : c ≠ node := hnew c (by simp at hc ⊢; tauto)
        simp [hcafter, hcnode]
    · rw [hlast, ← List.cons_append, List.getLast?_append_cons, List.getLast?_cons_cons, List.getLast?_cons_cons]
    · intro a ha
      have haold : a ≠ old := fun h => ha (by simp [h])
      have haafter : a ≠ after := fun h => ha (by simp [h])
      have hanode : a ≠ node := fun h => ha (by simp [h])
      simp [RateList.node, haold, haafter, hanode]

/-- What `list_del` does to the pointers of a node with one before it. -/
theorem listDel_spec {h : Links α} {p before : α} (hprev : h.prev p = some before) (hne : p ≠ before) (c : α) :
    (listDel h p).next c = (if c = p then none else if c = before then h.next p else h.next c) ∧
      (listDel h p).prev c = if c = p then none else if h.next p = some c then some before else h.prev c := by
  unfold listDel
  simp only [hprev, Links.setNext_next, if_neg hne]
  cases hnext : h.next p with
  | none => simp
  | some after => simp [hprev, eq_comm (a := c) (b := after)]

/-- A node taken out. -/
theorem listRemove_spec {head node : α} {s : RateList α} {pre post : List α}
    (hs : Represents head s (pre ++ node :: post)) :
    Represents head (listRemove s node) (pre ++ post) ∧ (listRemove s node).node node = (none, none) ∧
      ∀ a ∉ head :: (pre ++ post), a ≠ node → (listRemove s node).node a = s.node a := by
  -- the node before the one that is taken out, the sentinel perhaps
  obtain ⟨before, last, hl⟩ : ∃ before last, head :: pre = before ++ [last] :=
    ⟨_, _, (List.dropLast_append_getLast (List.cons_ne_nil head pre)).symm⟩
  have hwhole : head :: (pre ++ node :: post) = before ++ last :: node :: post := by
    rw [← List.cons_append, hl, List.append_assoc]
    rfl
  have hless : head :: (pre ++ post) = before ++ last :: post := by
    rw [← List.cons_append, hl, List.append_assoc]
    rfl
  have hlinked := hwhole ▸ hs.linked
  have hprev : s.links.prev node = some last := hlinked.prev
  have hlinked' : s.links.Linked ((before ++ [last]) ++ node :: post) := by simpa using hlinked
  have hnext : s.links.next node = post.head? := hlinked'.next
  have hnode : ∀ c ∈ (before ++ [last]) ++ post, c ≠ node :=
    fun c hc => ne_of_nodup hs.nodup (by rw [hwhole]; simp) hc
  have hlast : ∀ c ∈ before ++ node :: post, c ≠ last := fun c hc => ne_of_nodup hs.nodup hwhole hc
  have hnodup : (head :: (pre ++ post)).Nodup := by
    have hmiddle := hs.nodup
    rw [← List.cons_append, List.nodup_middle, List.nodup_cons] at hmiddle
    exact hmiddle.2
  have hhead : ∀ c ∈ before ++ last :: post.tail, ¬ post.head? = some c := by
    intro c hc hpost
    obtain ⟨rest, rfl⟩ := List.head?_eq_some_iff.mp hpost
    have hsplit : head :: (pre ++ c :: rest) = (before ++ [last]) ++ c :: rest := by simpa using hless
    exact ne_of_nodup hnodup hsplit (by simpa using hc) rfl
  have hdel := listDel_spec hprev (hlast node (by simp))
  have hlinks : (listRemove s node).links = listDel s.links node := by
    unfold listRemove
    split <;> rfl
  refine ⟨⟨hnodup, ?_, ?_⟩, ?_, ?_⟩
  · rw [hless, hlinks]
    apply hlinked.remove
    · have hlastnode : last ≠ node := hnode last (by simp)
      rw [(hdel last).1, if_neg hlastnode, if_pos rfl, hnext]
    · intro c hc
      have hcnode : c ≠ node := hnode c (by simp [List.mem_of_mem_head? hc])
      rw [(hdel c).2, if_neg hcnode, hnext, if_pos (Option.mem_def.mp hc)]
    · intro c hc
      have hcnode : c ≠ node := hnode c (by simp at hc ⊢; tauto)
      have hclast : c ≠ last := hlast c (by simp at hc ⊢; tauto)
      rw [(hdel c).1, if_neg hcnode, if_neg hclast]
    · intro c hc
      have hcnode : c ≠ node := hnode c (by simp at hc ⊢; rcases hc with h | h | h <;> simp [h, List.mem_of_mem_tail])
      rw [(hdel c).2, if_neg hcnode, hnext, if_neg (hhead c hc)]
  · have hlastHead := hs.last
    rw [hwhole] at hlastHead
    rw [hless]
    unfold listRemove
    cases post with
    | nil => simp [hlastHead, hprev]
    | cons after post =>
      have hne : ¬ s.lastHead = some node := by
        intro h
        rw [hlastHead, List.getLast?_append_cons, List.getLast?_cons_cons, List.getLast?_cons_cons] at h
        exact hnode node (List.mem_append_right _ (List.mem_of_getLast? h)) rfl
      rw [if_neg hne]
      simpa using hlastHead
  · rw [RateList.node, hlinks, (hdel node).1, (hdel node).2, if_pos rfl, if_pos rfl]
  · intro a ha hanode
    rw [hless] at ha
    have halast : a ≠ last := fun h => ha (by simp [h])
    have hahead : ¬ post.head? = some a := fun h => ha (by simp [List.mem_of_mem_head? h])
    rw [RateList.node, hlinks, (hdel a).1, (hdel a).2, if_neg hanode, if_neg hanode, if_neg halast, hnext,
      if_neg hahead]
    rfl

/-- **One operation** does to the heap what it does to the sequence, and leaves the links of the nodes that are not in
the list; a node that is taken out has none any more. -/
theorem listOp_refines {head : α} {s : RateList α} {l l' : List α} {op : ListOp α} (hs : Represents head s l)
    (hop : op.apply head l = some l') :
    ∃ s', listOp s op = some s' ∧ Represents head s' l' ∧
      ∀ a ∉ head :: l', s'.node a = if op.node = a then (none, none) else s.node a := by
  cases op with
  | insert node =>
    obtain ⟨hnode, heq⟩ := Option.ite_none_right_eq_some.mp hop
    cases heq
    obtain ⟨s', hrun, hs', hframe⟩ := listInsert_spec hs hnode
    refine ⟨s', hrun, hs', fun a ha => ?_⟩
    have hne : ¬ (ListOp.insert node).node = a := fun h => ha (by simp [← h, ListOp.node])
    rw [if_neg hne, hframe a ha]
  | insertAt node old =>
    obtain ⟨⟨hnode, hold⟩, heq⟩ := Option.ite_none_right_eq_some.mp hop
    cases heq
    obtain ⟨pre, post, rfl, hpre⟩ := List.eq_append_cons_of_mem hold
    obtain ⟨s', hrun, hs', hframe⟩ := listInsertAt_spec hs hnode
    rw [insertAfter_append post hpre]
    refine ⟨s', hrun, hs', fun a ha => ?_⟩
    have hne : ¬ (ListOp.insertAt node old).node = a := fun h => ha (by simp [← h, ListOp.node])
    rw [if_neg hne, hframe a ha]
  | remove node =>
    obtain ⟨hnode, heq⟩ := Option.ite_none_right_eq_some.mp hop
    cases heq
    obtain ⟨pre, post, rfl, hpre⟩ := List.eq_append_cons_of_mem hnode
    obtain ⟨hs', hnull, hframe⟩ := listRemove_spec hs
    rw [List.erase_append_right _ hpre, List.erase_cons_head]
    refine ⟨_, rfl, hs', fun a ha => ?_⟩
    split
    · rename_i heq
      cases heq
      exact hnull
    · rename_i hne
      exact hframe a ha (Ne.symm hne)

/-- An operation takes out its own node at most. -/
theorem mem_of_apply {head : α} {l l' : List α} {op : ListOp α} (hop : op.apply head l = some l') {a : α} (ha : a ∈ l)
    (hne : op.node ≠ a) : a ∈ l' := by
  cases op with
  | insert node =>
    obtain ⟨-, heq⟩ := Option.ite_none_right_eq_some.mp hop
    cases heq
    exact List.mem_append_left _ ha
  | insertAt node old =>
    obtain ⟨⟨-, hold⟩, heq⟩ := Option.ite_none_right_eq_some.mp hop
    cases heq
    obtain ⟨pre, post, rfl, hpre⟩ := List.eq_append_cons_of_mem hold
    rw [insertAfter_append post hpre]
    simp at ha ⊢
    tauto
  | remove node =>
    obtain ⟨-, heq⟩ := Option.ite_none_right_eq_some.mp hop
    cases heq
    exact (List.mem_erase_of_ne (Ne.symm hne)).mpr ha

/-! ## All operations -/

/-- The links of a node that is not in the list: those it had in the first place, or none when it was in the list. -/
def outsideLinks (h : Links α) (ops : List (ListOp α)) (a : α) : Option α × Option α :=
  if ∃ op ∈ ops, op.node = a then (none, none) else (h.prev a, h.next a)

/-- Operations on an initialised list, from the first to the last. -/
theorem runOps_represents {head : α} (h : Links α) {ops : List (ListOp α)} {l : List α}
    (hops : applyOps head ops = some l) :
    ∃ s, runOps (initList h head) ops = some s ∧ Represents head s l ∧
      ∀ a ∉ head :: l, s.node a = outsideLinks h ops a := by
  induction ops using List.reverseRecOn generalizing l with
  | nil =>
    cases hops
    refine ⟨_, rfl, initList_represents h head, fun a ha => ?_⟩
    have hne : a ≠ head := fun heq => ha (by simp [heq])
    simp [RateList.node, initList, initListHead, outsideLinks, hne]
  | append_singleton ops op ih =>
    rw [applyOps, List.foldlM_append] at hops
    obtain ⟨l₁, hops₁, hop⟩ := Option.bind_eq_some_iff.mp hops
    have hop : op.apply head l₁ = some l := by simpa using hop
    obtain ⟨s₁, hrun₁, hs₁, hframe₁⟩ := ih hops₁
    obtain ⟨s, hrun, hs, hframe⟩ := listOp_refines hs₁ hop
    refine ⟨s, ?_, hs, fun a ha => ?_⟩
    · rw [runOps, List.foldlM_append]
      exact Option.bind_eq_some_iff.mpr ⟨s₁, hrun₁, by simpa using hrun⟩
    · rw [hframe a ha, outsideLinks]
      simp only [List.mem_append, List.mem_singleton, or_and_right, exists_or, exists_eq_left]
      by_cases hne : op.node = a
      · rw [if_pos hne, if_pos (.inr hne)]
      · have houtside : a ∉ head :: l₁ := by
          rintro (_ | ⟨_, hmem⟩)
          · exact ha List.mem_cons_self
          · exact ha (List.mem_cons_of_mem _ (mem_of_apply hop hmem hne))
        rw [if_neg hne, hframe₁ a houtside, outsideLinks]
        simp only [hne, or_false]

/-- **The list implements a sequence.** After any operations that are allowed on the sequence, none of which is a fault:
following `next` from the sentinel visits exactly the sequence, without repetition, and ends; the `prev` of every node
is the one before it; `last_head` is the last one; and the other nodes have the links that `outsideLinks` says. -/
theorem runOps_refines {head : α} (h : Links α) {ops : List (ListOp α)} {l : List α}
    (hops : applyOps head ops = some l) :
    ∃ s, runOps (initList h head) ops = some s ∧ (head :: l).Nodup ∧
      (∀ n, l.length ≤ n → s.links.walk n (s.links.next head) = l) ∧
      (∀ pre a b post, head :: l = pre ++ a :: b :: post → s.links.prev b = some a) ∧
      s.lastHead = (head :: l).getLast? ∧
      ∀ a ∉ head :: l, s.node a = outsideLinks h ops a := by
  obtain ⟨s, hrun, hs, hframe⟩ := runOps_represents h hops
  have hstart : s.links.Linked ([] ++ head :: l) := hs.linked
  refine ⟨s, hrun, hs.nodup, ?_, ?_, hs.last, hframe⟩
  · intro n hn
    rw [hstart.next]
    exact hs.linked.tail.walk hn
  · intro pre a b post hl
    exact Links.Linked.prev (hl ▸ hs.linked)

/-- Two nodes appended, one put between them, and the first one taken out. -/
theorem runOps_refines_four :
    let h : Links ℕ := ⟨fun _ => some 7, fun _ => some 8⟩
    let ops : List (ListOp ℕ) := [.insert 1, .insert 2, .insertAt 3 1, .remove 1]
    ∃ s, runOps (initList h 0) ops = some s ∧ s.links.walk 2 (s.links.next 0) = [3, 2] ∧ s.lastHead = some 2 ∧
      s.node 1 = (none, none) ∧ s.node 4 = (some 7, some 8) := by
  intro h ops
  have hops : applyOps 0 ops = some [3, 2] := by decide
  obtain ⟨s, hrun, -, hwalk, -, hlast, houtside⟩ := runOps_refines h hops
  exact ⟨s, hrun, hwalk 2 (by decide), hlast, houtside 1 (by decide), houtside 4 (by decide)⟩

end CoupledCC.Transfer
