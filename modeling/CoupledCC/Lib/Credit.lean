import Mathlib.Tactic

/-!
# Additive increase by credits

A window `win` with a counter `cnt` of credits. `settle w` turns credits collected at a higher price into one packet;
`earn w a` adds `a` credits and buys packets at the price of `w` credits each.

- `increase_bound`: at a price of at least `k`, `k` credits are spent for every packet bought;
- `tick`: one credit at a time at the price of the current window, up to a limit; buying `a` credits at once is `a`
  ticks as long as `a` is at most the window (`tick_iterate`), so the way credits are grouped does not matter
  (`foldl_iterate`).
-/

/-- A window and the credits towards its next packet. -/
@[ext] structure Credit where
  win : ℕ
  cnt : ℕ
deriving Repr, DecidableEq

namespace Credit

/-- Credits collected at a higher price buy one packet. -/
def settle (w : ℕ) (c : Credit) : Credit :=
  if w ≤ c.cnt then ⟨c.win + 1, 0⟩ else c

/-- `a` more credits, spent at `w` credits a packet. -/
def earn (w a : ℕ) (c : Credit) : Credit :=
  ⟨c.win + (c.cnt + a) / w, (c.cnt + a) % w⟩

/-- One additive-increase step. -/
def increase (w a : ℕ) (c : Credit) : Credit :=
  earn w a (settle w c)

/-- The window is cut at a limit. -/
def cap (limit : ℕ) (c : Credit) : Credit :=
  { c with win := min c.win limit }

theorem settle_of_lt {w : ℕ} {c : Credit} (h : c.cnt < w) : settle w c = c :=
  if_neg (Nat.not_le.mpr h)

theorem settle_bound {k w : ℕ} (hk : k ≤ w) (c : Credit) :
    k * (settle w c).win + (settle w c).cnt ≤ k * c.win + c.cnt := by
  unfold settle
  split
  · simp only [Nat.mul_add]; omega
  · exact le_refl _

theorem earn_bound {k w : ℕ} (hk : k ≤ w) (a : ℕ) (c : Credit) :
    k * (earn w a c).win + (earn w a c).cnt ≤ k * c.win + c.cnt + a := by
  have hdiv := Nat.div_add_mod (c.cnt + a) w
  have hspent : k * ((c.cnt + a) / w) ≤ w * ((c.cnt + a) / w) := Nat.mul_le_mul_right _ hk
  simp only [earn, Nat.mul_add]
  omega

/-- At a price of at least `k` every packet bought costs `k` credits. -/
theorem increase_bound {k w : ℕ} (hk : k ≤ w) (a : ℕ) (c : Credit) :
    k * (increase w a c).win + (increase w a c).cnt ≤ k * c.win + c.cnt + a := by
  have hs := settle_bound hk c
  have he := earn_bound hk a (settle w c)
  unfold increase
  omega

/-- The window never shrinks before it is cut. -/
theorem le_increase_win (w a : ℕ) (c : Credit) : c.win ≤ (increase w a c).win := by
  have hsettle : c.win ≤ (settle w c).win := by
    unfold settle
    split
    · exact Nat.le_succ _
    · exact le_refl _
  exact hsettle.trans (Nat.le_add_right _ _)

/-! ## One credit at a time -/

/-- One credit: below `thresh` it is a packet, from there on it goes towards a packet at the price of the window. -/
def tick (thresh limit : ℕ) (c : Credit) : Credit :=
  if c.win < thresh then ⟨c.win + 1, c.cnt⟩
  else if c.win ≤ c.cnt + 1 then ⟨min (c.win + 1) limit, 0⟩
  else ⟨c.win, c.cnt + 1⟩

variable {thresh limit : ℕ}

/-- Below the threshold every credit is a packet. -/
theorem tick_iterate_below (win cnt : ℕ) :
    ∀ a, win + a ≤ thresh → (tick thresh limit)^[a] ⟨win, cnt⟩ = ⟨win + a, cnt⟩
  | 0, _ => rfl
  | a + 1, h => by
    rw [Function.iterate_succ_apply', tick_iterate_below win cnt a (by omega)]
    simp [tick, show win + a < thresh by omega, Nat.add_assoc]

/-- From the threshold on credits accumulate until they pay for a packet. -/
theorem tick_iterate_collect {win cnt : ℕ} (hwin : thresh ≤ win) :
    ∀ a, cnt + a < win → (tick thresh limit)^[a] ⟨win, cnt⟩ = ⟨win, cnt + a⟩
  | 0, _ => rfl
  | a + 1, h => by
    rw [Function.iterate_succ_apply', tick_iterate_collect hwin a (by omega)]
    simp [tick, Nat.not_lt.mpr hwin, show ¬ win ≤ cnt + (a + 1) by omega, Nat.add_assoc]

/-- `a` credits at once, `a` at most the window, are `a` ticks. -/
theorem tick_iterate {win cnt a : ℕ} (hwin : thresh ≤ win) (hcnt : cnt < win) (ha : a ≤ win) (hlimit : win ≤ limit) :
    (tick thresh limit)^[a] ⟨win, cnt⟩ = cap limit (earn win a ⟨win, cnt⟩) := by
  by_cases hfew : cnt + a < win
  · rw [tick_iterate_collect hwin a hfew]
    simp [cap, earn, Nat.div_eq_of_lt hfew, Nat.mod_eq_of_lt hfew, hlimit]
  · -- `win - cnt - 1` credits, the one that pays, and the rest at the new window
    obtain ⟨r, rfl⟩ : ∃ r, a = r + 1 + (win - cnt - 1) := ⟨cnt + a - win, by omega⟩
    have hquot : (cnt + (r + 1 + (win - cnt - 1))) / win = 1 := by
      rw [Nat.div_eq_iff (by omega)]; omega
    have hrem : (cnt + (r + 1 + (win - cnt - 1))) % win = r := by
      have := Nat.div_add_mod (cnt + (r + 1 + (win - cnt - 1))) win
      rw [hquot] at this; omega
    have hpay : tick thresh limit ⟨win, cnt + (win - cnt - 1)⟩ = ⟨min (win + 1) limit, 0⟩ := by
      simp [tick, show ¬ win < thresh by omega, show win ≤ cnt + (win - cnt - 1) + 1 by omega]
    rw [Function.iterate_add_apply, tick_iterate_collect hwin _ (by omega), Function.iterate_succ_apply, hpay,
      tick_iterate_collect (by omega) _ (by omega)]
    simp [cap, earn, hquot, hrem]

/-- A tick keeps the window between 1 and the limit and above its credits. -/
theorem tick_ready {thresh limit : ℕ} {c : Credit} (hpos : 1 ≤ c.win) (hlimit : c.win ≤ limit) (hcnt : c.cnt < c.win)
    (hthresh : thresh ≤ limit ∨ thresh ≤ c.win) :
    1 ≤ (c.tick thresh limit).win ∧ c.win ≤ (c.tick thresh limit).win ∧ (c.tick thresh limit).win ≤ limit ∧
      (c.tick thresh limit).cnt < (c.tick thresh limit).win := by
  unfold tick
  split
  · simp only; omega
  · split
    · simp only; omega
    · simp only; omega

/-- So do any number of ticks. -/
theorem ticks_ready {thresh limit : ℕ} {c : Credit} (hpos : 1 ≤ c.win) (hlimit : c.win ≤ limit) (hcnt : c.cnt < c.win)
    (hthresh : thresh ≤ limit ∨ thresh ≤ c.win) (n : ℕ) :
    1 ≤ ((tick thresh limit)^[n] c).win ∧ c.win ≤ ((tick thresh limit)^[n] c).win ∧
      ((tick thresh limit)^[n] c).win ≤ limit ∧
      ((tick thresh limit)^[n] c).cnt < ((tick thresh limit)^[n] c).win := by
  induction n with
  | zero => exact ⟨hpos, le_refl _, hlimit, hcnt⟩
  | succ n ih =>
    obtain ⟨h1, h2, h3, h4⟩ := ih
    rw [Function.iterate_succ_apply']
    obtain ⟨k1, k2, k3, k4⟩ := tick_ready h1 h3 h4 (hthresh.imp id fun h => h.trans h2)
    exact ⟨k1, h2.trans k2, k3, k4⟩

/-- Repeating a step once for every unit of a list depends on the sum only. -/
theorem foldl_iterate {α : Type*} (f : α → α) (x : α) (l : List ℕ) :
    l.foldl (fun y n => f^[n] y) x = f^[l.sum] x := by
  induction l generalizing x with
  | nil => rfl
  | cons n l ih => rw [List.foldl_cons, ih, List.sum_cons, Nat.add_comm, Function.iterate_add_apply]

end Credit
