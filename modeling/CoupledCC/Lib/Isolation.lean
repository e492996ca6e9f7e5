import Mathlib

/-!
# Processes that share a store

Each process has a private state; all share a store of keys and values, and an event is one step of one of them. A step
is confined to two sets of keys when it depends on the store at `touches` only and changes it at `writes` only
(`Confined`).

- `interleaved_eq_solo`: when no process writes what another one touches, any interleaving leaves every process in the
  state, and the keys it touches with the values, that its own events alone lead to;
- `interleaved_untouched`: a key nobody writes keeps its value.
-/

namespace Isolation

variable {π σ κ ν ε : Type*}

/-- The events of one process, alone. -/
def solo (step : ε → σ → (κ → ν) → σ × (κ → ν)) : List ε → σ × (κ → ν) → σ × (κ → ν)
  | [], c => c
  | e :: es, c => solo step es (step e c.1 c.2)

/-- The events of all processes, in the order in which they happen. -/
def interleaved [DecidableEq π] (step : ε → σ → (κ → ν) → σ × (κ → ν)) :
    List (π × ε) → (π → σ) × (κ → ν) → (π → σ) × (κ → ν)
  | [], c => c
  | (p, e) :: es, c =>
    interleaved step es (Function.update c.1 p (step e (c.1 p) c.2).1, (step e (c.1 p) c.2).2)

/-- The events of a process, in their order. -/
def own [DecidableEq π] (p : π) (es : List (π × ε)) : List ε :=
  es.filterMap fun (q, e) => if q = p then some e else none

/-- The steps of a process on its events `ok` and its states `inv` stay within `touches`, and change `writes` only. -/
structure Confined (step : ε → σ → (κ → ν) → σ × (κ → ν)) (ok : ε → Prop) (inv : σ → Prop) (touches writes : Set κ) :
    Prop where
  sub : writes ⊆ touches
  keeps : ∀ e s st, ok e → inv s → inv (step e s st).1
  frame : ∀ e s st k, ok e → inv s → k ∉ writes → (step e s st).2 k = st k
  state : ∀ e s st st', ok e → inv s → Set.EqOn st st' touches → (step e s st).1 = (step e s st').1
  store : ∀ e s st st', ok e → inv s → Set.EqOn st st' touches → Set.EqOn (step e s st).2 (step e s st').2 touches

section
variable [DecidableEq π] {step : ε → σ → (κ → ν) → σ × (κ → ν)}

theorem own_cons_self (p : π) (e : ε) (es : List (π × ε)) : own p ((p, e) :: es) = e :: own p es := by
  simp [own]

theorem own_cons_ne {p q : π} (h : q ≠ p) (e : ε) (es : List (π × ε)) : own p ((q, e) :: es) = own p es := by
  simp [own, h]

theorem mem_own {p : π} {e : ε} {es : List (π × ε)} : e ∈ own p es ↔ (p, e) ∈ es := by
  simp only [own, List.mem_filterMap]
  constructor
  · rintro ⟨⟨q, e'⟩, hmem, heq⟩
    simp only [Option.ite_none_right_eq_some, Option.some.injEq] at heq
    obtain ⟨rfl, rfl⟩ := heq
    exact hmem
  · exact fun h => ⟨(p, e), h, by simp⟩

variable {ok : π → ε → Prop} {inv : π → σ → Prop} {touches writes : π → Set κ}

/-- A step of one process keeps the invariants of all. -/
theorem inv_update (hconf : ∀ p, Confined step (ok p) (inv p) (touches p) (writes p)) {ss : π → σ} {q : π} {e : ε}
    (hqe : ok q e) (hinv : ∀ p, inv p (ss p)) (st : κ → ν) (p : π) :
    inv p (Function.update ss q (step e (ss q) st).1 p) := by
  by_cases hp : p = q
  · subst hp
    simpa using (hconf p).keeps e (ss p) st hqe (hinv p)
  · simpa [hp] using hinv p

/-- **Isolation.** An interleaving is for each process what its own events alone are, from any store that agrees on the
keys it touches. -/
theorem interleaved_eq_solo (hconf : ∀ p, Confined step (ok p) (inv p) (touches p) (writes p))
    (hapart : ∀ p q, p ≠ q → Disjoint (writes p) (touches q)) {es : List (π × ε)} (hok : ∀ p e, (p, e) ∈ es → ok p e)
    {ss : π → σ} {st st' : κ → ν} (hinv : ∀ p, inv p (ss p)) (p : π) (hst : Set.EqOn st st' (touches p)) :
    (interleaved step es (ss, st)).1 p = (solo step (own p es) (ss p, st')).1 ∧
      Set.EqOn (interleaved step es (ss, st)).2 (solo step (own p es) (ss p, st')).2 (touches p) := by
  induction es generalizing ss st st' with
  | nil => exact ⟨rfl, hst⟩
  | cons qe es ih =>
    obtain ⟨q, e⟩ := qe
    have hqe : ok q e := hok q e (List.mem_cons_self ..)
    have hrest : ∀ p e, (p, e) ∈ es → ok p e := fun p e h => hok p e (List.mem_cons_of_mem _ h)
    have hinv' := inv_update hconf hqe hinv st
    rw [interleaved]
    by_cases hq : q = p
    · subst hq
      have hstate := (hconf q).state e (ss q) st st' hqe (hinv q) hst
      have hstore := (hconf q).store e (ss q) st st' hqe (hinv q) hst
      have hih := ih hrest hinv' hstore
      rw [Function.update_self] at hih
      have hsolo : step e (ss q) st' = ((step e (ss q) st).1, (step e (ss q) st').2) := Prod.ext hstate.symm rfl
      simp only [own_cons_self, solo]
      rw [hsolo]
      exact hih
    · -- another process changes nothing that `p` touches
      have hkeep : Set.EqOn (step e (ss q) st).2 st' (touches p) := by
        intro k hk
        have hnot : k ∉ writes q := fun h => Set.disjoint_left.mp (hapart q p hq) h hk
        rw [(hconf q).frame e (ss q) st k hqe (hinv q) hnot, hst hk]
      have hih := ih hrest hinv' hkeep
      rw [Function.update_of_ne (Ne.symm hq)] at hih
      rw [own_cons_ne hq]
      exact hih

/-- A key that no process writes keeps its value. -/
theorem interleaved_untouched (hconf : ∀ p, Confined step (ok p) (inv p) (touches p) (writes p)) {es : List (π × ε)}
    (hok : ∀ p e, (p, e) ∈ es → ok p e) {ss : π → σ} {st : κ → ν} (hinv : ∀ p, inv p (ss p)) {k : κ}
    (hk : ∀ p, k ∉ writes p) : (interleaved step es (ss, st)).2 k = st k := by
  induction es generalizing ss st with
  | nil => rfl
  | cons qe es ih =>
    obtain ⟨q, e⟩ := qe
    have hqe : ok q e := hok q e (List.mem_cons_self ..)
    have hrest : ∀ p e, (p, e) ∈ es → ok p e := fun p e h => hok p e (List.mem_cons_of_mem _ h)
    rw [interleaved, ih hrest (inv_update hconf hqe hinv st)]
    exact (hconf q).frame e (ss q) st k hqe (hinv q) (hk q)

end

end Isolation
