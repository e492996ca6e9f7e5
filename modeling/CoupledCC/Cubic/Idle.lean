import CoupledCC.Cubic.Epoch

/-!
# Idle time and the cubic curve

When a connection sends again after an idle gap, `cubictcp_cwnd_event` shifts the start of the epoch by the length of
the gap, but not past the present. The clock values wrap; here they are readings of unbounded moments.

- `cubictcpCwndEvent_shifts`: one event, on the moments;
- `acts_epochStart`: no other action moves the start of an open epoch;
- `idle_on_curve`: so the time on the curve is the time since the epoch began, less the idle time after its begin.
-/

namespace CoupledCC.Cubic

open Word Runs

/-! ## Gaps -/

/-- Idle gaps, each from the last send to the next one: in order, with their events within an epoch that began at `e`,
up to the moment `t`. All moments are less than half of the clock's range before `t`. -/
structure IdleGaps (e t : ℕ) (gaps : List (ℕ × ℕ)) : Prop where
  ordered : ∀ g ∈ gaps, g.1 ≤ g.2
  chain : gaps.IsChain fun g g' => g.2 ≤ g'.1
  within : ∀ g ∈ gaps, e ≤ g.2 ∧ g.2 ≤ t
  later : e ≤ t
  span : t < e + 2 ^ 31
  first : ∀ g ∈ gaps.head?, t < g.1 + 2 ^ 31

/-- The total length of the parts of the gaps that lie after `e`. -/
def idleAfter (e : ℕ) (gaps : List (ℕ × ℕ)) : ℕ :=
  (gaps.map fun g => g.2 - max g.1 e).sum

/-- The start of an epoch, shifted by a gap but not past its end. -/
def shiftStart (e : ℕ) (g : ℕ × ℕ) : ℕ :=
  min (e + (g.2 - g.1)) g.2

/-- A gap moves the start by the part of the gap that lies after it. -/
theorem shiftStart_eq {e : ℕ} {g : ℕ × ℕ} (hordered : g.1 ≤ g.2) (hin : e ≤ g.2) :
    shiftStart e g = e + (g.2 - max g.1 e) := by
  unfold shiftStart
  omega

/-- Every later gap begins after the end of the first. -/
theorem IdleGaps.later_gaps {e t : ℕ} {g : ℕ × ℕ} {gaps : List (ℕ × ℕ)} (h : IdleGaps e t (g :: gaps)) :
    ∀ g' ∈ gaps, g.2 ≤ g'.1 := by
  have hchain := h.chain
  have hordered := h.ordered
  clear h
  induction gaps generalizing g with
  | nil => intro g' hmem; cases hmem
  | cons g₁ gaps ih =>
    rw [List.isChain_cons_cons] at hchain
    have hrest := ih hchain.2 fun g' hmem => hordered g' (List.mem_cons_of_mem _ hmem)
    have hfirst : g₁.1 ≤ g₁.2 := hordered g₁ (by simp)
    intro g' hmem
    rcases List.mem_cons.mp hmem with rfl | hmem
    · exact hchain.1
    · have hlater := hrest g' hmem
      omega

/-- After the first gap the start of the epoch is at most its end. -/
theorem IdleGaps.shift {e t : ℕ} {g : ℕ × ℕ} {gaps : List (ℕ × ℕ)} (h : IdleGaps e t (g :: gaps)) :
    IdleGaps (shiftStart e g) t gaps ∧ idleAfter e (g :: gaps) = g.2 - max g.1 e + idleAfter (shiftStart e g) gaps := by
  have hlater := h.later_gaps
  have hordered := h.ordered g (by simp)
  have hwithin := h.within g (by simp)
  have hspan := h.span
  have hshift := shiftStart_eq hordered hwithin.1
  refine ⟨⟨?_, ?_, ?_, ?_, ?_, ?_⟩, ?_⟩
  · intro g' hmem
    exact h.ordered g' (List.mem_cons_of_mem _ hmem)
  · exact h.chain.tail
  · intro g' hmem
    have hbegin := hlater g' hmem
    have hend := h.ordered g' (List.mem_cons_of_mem _ hmem)
    have hpast := h.within g' (List.mem_cons_of_mem _ hmem)
    omega
  · omega
  · omega
  · intro g' hmem
    have hbegin := hlater g' (List.mem_of_mem_head? hmem)
    omega
  · unfold idleAfter
    rw [List.map_cons, List.sum_cons]
    congr 2
    apply List.map_congr_left
    intro g' hmem
    have hbegin := hlater g' hmem
    omega

/-! ## Actions in an open epoch -/

/-- The last-send time and the clock reading of a `CA_EVENT_TX_START`. -/
def txStart : Transition CubicSock Action → Option (U32 × U32)
  | (s, .call (.cwndEvent .txStart now), _) => some (s.tp.lsndtime, now)
  | _ => none

theorem txStart_eq_some {s s' : CubicSock} {a : Action} {l now : U32} (h : txStart (s, a, s') = some (l, now)) :
    a = .call (.cwndEvent .txStart now) ∧ s.tp.lsndtime = l := by
  unfold txStart at h
  split at h
  · rename_i heq
    cases h
    cases heq
    exact ⟨rfl, rfl⟩
  · cases h

/-- **One event**: the start of the epoch, the last-send time and the present are readings of moments. -/
theorem cubictcpCwndEvent_shifts {s : CubicSock} {e l n : ℕ} (hstart : s.ca.epochStart = BitVec.ofNat 32 e)
    (hopen : s.ca.epochStart ≠ 0) (hlast : s.tp.lsndtime = BitVec.ofNat 32 l) (hordered : l ≤ n) (hin : e ≤ n)
    (hgap : n < l + 2 ^ 31) (hepoch : n < e + 2 ^ 31) :
    (cubictcpCwndEvent s .txStart (BitVec.ofNat 32 n)).ca.epochStart = BitVec.ofNat 32 (shiftStart e (l, n)) := by
  have hdelta : (BitVec.ofNat 32 n - BitVec.ofNat 32 l).toInt = (n : ℤ) - l := toInt_sub_ofNat (by omega) (by omega)
  have hword : BitVec.ofNat 32 n - BitVec.ofNat 32 l = BitVec.ofNat 32 (n - l) := by
    obtain ⟨d, rfl⟩ := Nat.exists_eq_add_of_le hordered
    rw [Nat.add_comm, BitVec.ofNat_add, BitVec.add_sub_cancel, Nat.add_sub_cancel]
  rw [cubictcpCwndEvent_epochStart, hlast, hdelta]
  unfold shiftStart
  split
  · unfold shifted
    simp only
    rw [hstart, hlast, hword, ← BitVec.ofNat_add]
    have hafter : after (BitVec.ofNat 32 (e + (n - l))) (BitVec.ofNat 32 n) = true ↔ n < e + (n - l) := by
      have hdiff : (BitVec.ofNat 32 n - BitVec.ofNat 32 (e + (n - l))).toInt = (n : ℤ) - (e + (n - l) : ℕ) :=
        toInt_sub_ofNat (by omega) (by omega)
      unfold after before
      rw [decide_eq_true_iff, hdiff]
      omega
    split
    · rename_i hpast
      rw [hafter] at hpast
      rw [min_eq_right (by omega)]
    · rename_i hpast
      rw [hafter] at hpast
      rw [min_eq_left (by omega)]
  · rename_i hquiet
    have hzero : ¬ 0 < (n : ℤ) - l := fun hpos => hquiet ⟨rfl, hopen, hpos⟩
    rw [hstart, show n - l = 0 by omega, Nat.add_zero, min_eq_left hin]

/-- **No other action** moves the start of an open epoch, but those that end it. -/
theorem acts_epochStart {cfg : Config} {s s' : CubicSock} {a : Action} (h : Acts cfg s a s')
    (hopen : s.ca.epochStart ≠ 0) (hends : ¬ EndsEpoch a) (htx : txStart (s, a, s') = none) :
    s'.ca.epochStart = s.ca.epochStart := by
  unfold Acts at h
  cases a with
  | init => exact absurd trivial hends
  | kernel tp =>
    cases h
    rfl
  | call c =>
    cases c with
    | congAvoid ack acked clk =>
      have hreset : (if hystartResets s ack then bictcpHystartReset s else s).ca.epochStart = s.ca.epochStart :=
        congrArg Window.epochStart (hystartResets_window s ack)
      rcases cubictcpCongAvoid_ca h with ⟨-, hca⟩ | ⟨s₁, left, hcall, hupdate⟩
      · rw [hca, hreset]
      · have hsame : s₁.ca.epochStart = s.ca.epochStart := by rw [updateCall_ca hcall, hreset]
        obtain ⟨path, -, hpath⟩ := bictcpUpdate_epoch hupdate
        rw [← hsame] at hopen ⊢
        cases path with
        | early ca => exact hpath.2
        | friendly ca => exact hpath.2.2
        | cubic ca =>
          have hcubic := hpath.2
          rw [if_neg hopen] at hcubic
          exact hcubic
    | recalcSsthresh => exact absurd trivial hends
    | state newState =>
      cases h
      have hsame : cubictcpState s newState = s := if_neg hends
      rw [hsame]
    | cwndEvent event now =>
      cases h
      rw [cubictcpCwndEvent_epochStart, if_neg]
      rintro ⟨rfl, -⟩
      simp [txStart] at htx
    | acked rttUs now => exact congrArg Window.epochStart (cubictcpAcked_window h)

/-! ## An epoch with idle gaps -/

/-- The start of the epoch after a run within it. -/
theorem epochStart_after_idle {cfg : Config} {s s' : CubicSock} {tr : List (Transition CubicSock Action)}
    (hrun : Trace (Acts cfg) s tr s') {e t : ℕ} {gaps : List (ℕ × ℕ)} (hstart : s.ca.epochStart = BitVec.ofNat 32 e)
    (hopen : ∀ x ∈ tr, x.1.ca.epochStart ≠ 0 ∧ ¬ EndsEpoch x.2.1)
    (htx : tr.filterMap txStart = gaps.map fun g => (BitVec.ofNat 32 g.1, BitVec.ofNat 32 g.2))
    (hgaps : IdleGaps e t gaps) :
    s'.ca.epochStart = BitVec.ofNat 32 (e + idleAfter e gaps) ∧ e + idleAfter e gaps ≤ t := by
  induction hrun generalizing e gaps with
  | nil =>
    have hnil : gaps = [] := by simpa using htx.symm
    subst hnil
    exact ⟨hstart, hgaps.later⟩
  | @cons s s₁ s' a tr hstep _ ih =>
    rw [List.forall_mem_cons] at hopen
    obtain ⟨⟨hopen₀, hends⟩, hopen⟩ := hopen
    cases hx : txStart (s, a, s₁) with
    | none =>
      rw [List.filterMap_cons_none hx] at htx
      have hsame := acts_epochStart hstep hopen₀ hends hx
      exact ih (hsame.trans hstart) hopen htx hgaps
    | some x =>
      obtain ⟨l, now⟩ := x
      rw [List.filterMap_cons_some hx] at htx
      cases gaps with
      | nil => simp at htx
      | cons g gaps =>
        rw [List.map_cons, List.cons.injEq, Prod.mk.injEq] at htx
        obtain ⟨⟨rfl, rfl⟩, htx⟩ := htx
        obtain ⟨rfl, hlast⟩ := txStart_eq_some hx
        cases hstep
        have hordered := hgaps.ordered g (by simp)
        have hwithin := hgaps.within g (by simp)
        have hspan := hgaps.span
        have hfirst := hgaps.first g rfl
        have hshift := cubictcpCwndEvent_shifts hstart hopen₀ hlast hordered hwithin.1 (by omega) (by omega)
        obtain ⟨hrest, hidle⟩ := hgaps.shift
        have hafter := ih hshift hopen htx hrest
        rw [shiftStart_eq hordered hwithin.1] at hafter hidle
        rw [hidle, ← Nat.add_assoc]
        exact hafter

/-- **Idle time does not move CUBIC along its curve.** In a run within an epoch that began at `e`, whose events of
`CA_EVENT_TX_START` end the given gaps, a later reading of the clock at `t` is as far from `epoch_start` as it is from
`e`, less the idle time after `e`. -/
theorem idle_on_curve {cfg : Config} {s s' : CubicSock} {tr : List (Transition CubicSock Action)}
    (hrun : Trace (Acts cfg) s tr s') {e t : ℕ} {gaps : List (ℕ × ℕ)} (hstart : s.ca.epochStart = BitVec.ofNat 32 e)
    (hopen : ∀ x ∈ tr, x.1.ca.epochStart ≠ 0 ∧ ¬ EndsEpoch x.2.1)
    (htx : tr.filterMap txStart = gaps.map fun g => (BitVec.ofNat 32 g.1, BitVec.ofNat 32 g.2))
    (hgaps : IdleGaps e t gaps) :
    (BitVec.ofNat 32 t - s'.ca.epochStart).toInt = ((t - e : ℕ) : ℤ) - idleAfter e gaps ∧
      0 ≤ (BitVec.ofNat 32 t - s'.ca.epochStart).toInt := by
  obtain ⟨hepoch, hle⟩ := epochStart_after_idle hrun hstart hopen htx hgaps
  have hspan := hgaps.span
  have hdiff : (BitVec.ofNat 32 t - BitVec.ofNat 32 (e + idleAfter e gaps)).toInt =
      (t : ℤ) - (e + idleAfter e gaps : ℕ) := toInt_sub_ofNat (by omega) (by omega)
  rw [hepoch, hdiff]
  constructor
  · omega
  · omega

/-- The target of the cubic function is that of an epoch without gaps, earlier by the idle time. -/
theorem bicTarget_after_idle {cfg : Config} {s s' : CubicSock} {tr : List (Transition CubicSock Action)}
    (hrun : Trace (Acts cfg) s tr s') {e t : ℕ} {gaps : List (ℕ × ℕ)} (hstart : s.ca.epochStart = BitVec.ofNat 32 e)
    (hopen : ∀ x ∈ tr, x.1.ca.epochStart ≠ 0 ∧ ¬ EndsEpoch x.2.1)
    (htx : tr.filterMap txStart = gaps.map fun g => (BitVec.ofNat 32 g.1, BitVec.ofNat 32 g.2))
    (hgaps : IdleGaps e t gaps) :
    bicTarget cfg s'.ca (BitVec.ofNat 32 t) =
      bicTarget cfg { s'.ca with epochStart := BitVec.ofNat 32 e } (BitVec.ofNat 32 (t - idleAfter e gaps)) := by
  obtain ⟨hepoch, hle⟩ := epochStart_after_idle hrun hstart hopen htx hgaps
  have helapsed : BitVec.ofNat 32 t - s'.ca.epochStart =
      BitVec.ofNat 32 (t - idleAfter e gaps) - BitVec.ofNat 32 e := by
    obtain ⟨d, rfl⟩ := Nat.exists_eq_add_of_le hle
    rw [hepoch, BitVec.ofNat_add (e + idleAfter e gaps), BitVec.add_comm, BitVec.add_sub_cancel,
      show e + idleAfter e gaps + d - idleAfter e gaps = d + e by omega, BitVec.ofNat_add, BitVec.add_sub_cancel]
  unfold bicTarget cubicTime
  simp only
  rw [helapsed]

/-- An epoch that began at jiffy 1000, with an idle gap from 900 to 1100 and another from 1150 to 1180: at 1200 the
curve is evaluated at 70 jiffies. -/
theorem idle_on_curve_two_gaps :
    let cfg : Config := ⟨1000, 717, 15, by decide⟩
    let tp : TcpSock := ⟨10, 0, 5, 10, 0, 100, true, 0, 900, 0, 0, 0, 0⟩
    let s : CubicSock := ⟨tp, ⟨20, 0, 10, 1000, 10, 0, 0, 1000, 0, 10, 0, 0, 0, 0, 0, 0⟩⟩
    ∃ tr s', Trace (Acts cfg) s tr s' ∧ (1200 - s'.ca.epochStart).toInt = 70 ∧
      0 ≤ ((1200 : U32) - s'.ca.epochStart).toInt := by
  intro cfg tp s
  let acts : List Action :=
    [.call (.cwndEvent .txStart 1100), .kernel { tp with lsndtime := 1150 }, .call (.cwndEvent .txStart 1180)]
  have hrun : (transitions (fun s (a : Action) => a.run cfg s) s acts).map
      (fun p => (decide (∀ x ∈ p.1, x.1.ca.epochStart ≠ 0 ∧ ¬ EndsEpoch x.2.1), p.1.filterMap txStart)) =
      some (true, [(900, 1100), (1150, 1180)]) := by decide
  obtain ⟨⟨tr, s'⟩, htr, hends⟩ := Option.map_eq_some_iff.mp hrun
  obtain ⟨hopen, hfilter⟩ := Prod.mk.inj hends
  have htx : tr.filterMap txStart =
      ([(900, 1100), (1150, 1180)] : List (ℕ × ℕ)).map fun g => (BitVec.ofNat 32 g.1, BitVec.ofNat 32 g.2) := hfilter
  have hgaps : IdleGaps 1000 1200 [(900, 1100), (1150, 1180)] :=
    ⟨by decide, by decide, by decide, by decide, by decide, by simp⟩
  have htrace := Trace.of_transitions htr
  have hcurve := idle_on_curve htrace (e := 1000) rfl (of_decide_eq_true hopen) htx hgaps
  exact ⟨tr, s', htrace, hcurve⟩

end CoupledCC.Cubic
