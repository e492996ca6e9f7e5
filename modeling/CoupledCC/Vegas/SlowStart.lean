import CoupledCC.Reno.Growth
import CoupledCC.Vegas.Decision

/-!
# Vegas stays out of slow start

The window and the threshold after `tcp_vegas_cong_avoid`, when none of the sums it evaluates wraps (`VegasFits`). The
threshold is lowered with the window where this is cut (`tcpVegasSsthresh`), and raised to at most three quarters of it
where it is brought up to date (`tcpCurrentSsthresh`).

- `vegasClip_spec`: the clipping keeps the window in its bounds, and keeps it at the threshold or above;
- `vegas_window`: so do all branches of the callback.
-/

namespace CoupledCC.Vegas

open Word Runs

/-- The window lies between 2 and the clamp, and the clamp can be incremented. -/
structure VegasWindow (tp : TcpSock) : Prop where
  low : 2 ≤ tp.sndCwnd.toNat
  high : tp.sndCwnd.toNat ≤ tp.sndCwndClamp.toNat
  clamp : tp.sndCwndClamp.toNat < 2 ^ 32 - 1

/-- The connection is not in slow start. -/
def Above (tp : TcpSock) : Prop :=
  tp.sndSsthresh.toNat ≤ tp.sndCwnd.toNat

/-- The callback makes the once-per-RTT adjustment by the formula. -/
def UsesFormula (s : VegasSock) (ack : U32) : Prop :=
  s.ca.doingVegasNow ≠ 0 ∧ after ack s.ca.begSndNxt = true ∧ ¬ s.ca.cntRTT ≤ 2

/-- The branch that declares slow start too fast. -/
def TooFast (s : VegasSock) (ack : U32) : Prop :=
  UsesFormula s ack ∧ tcpInSlowStart s.tp = true ∧ ∃ diff, vegasDiff s.tp s.ca = some diff ∧ gamma < diff

/-- The 32-bit sums of the Reno fallback and of plain slow start do not wrap. (Those of the formula may: its window is
clipped afterwards.) -/
def VegasFits (s : VegasSock) (ack acked : U32) : Prop :=
  if s.ca.doingVegasNow = 0 then RenoFits s.tp acked
  else if after ack s.ca.begSndNxt then s.ca.cntRTT ≤ 2 → RenoFits s.tp acked
  else tcpInSlowStart s.tp = true → s.tp.sndCwnd.toNat + acked.toNat < 2 ^ 32

instance (s : VegasSock) (ack acked : U32) : Decidable (VegasFits s ack acked) := by
  unfold VegasFits
  infer_instance

/-! ## The parts of the callback -/

/-- What every branch does: the window keeps its bounds, and stays at the threshold or above. -/
structure StaysUp (tp tp' : TcpSock) : Prop where
  low : 2 ≤ tp'.sndCwnd.toNat
  high : tp'.sndCwnd.toNat ≤ tp.sndCwndClamp.toNat
  clamp : tp'.sndCwndClamp = tp.sndCwndClamp
  above : Above tp → Above tp'

/-- Reno leaves the threshold alone, and shrinks no window that is at most the clamp. -/
theorem tcpRenoCongAvoid_staysUp {tp : TcpSock} {acked : U32} (h : VegasWindow tp) (hfit : RenoFits tp acked) :
    ∃ tp', tcpRenoCongAvoid tp acked = some tp' ∧ StaysUp tp tp' := by
  have hlow := h.low
  have hhigh := h.high
  obtain ⟨cwnd, cnt, hrun, hpaid⟩ := tcpRenoCongAvoid_spec tp (by omega) (by omega) hfit
  have hle := hpaid.low
  have hge := hpaid.high
  refine ⟨_, hrun, ?_, ?_, rfl, fun habove => ?_⟩
  · simp only [withWindow_sndCwnd]; omega
  · simp only [withWindow_sndCwnd]; omega
  · unfold Above at habove ⊢
    simp only [withWindow_sndCwnd, withWindow_sndSsthresh]
    omega

/-- Slow start is only entered below the threshold. -/
theorem tcpSlowStart_staysUp {tp : TcpSock} {acked : U32} (h : VegasWindow tp) (hslow : tcpInSlowStart tp = true)
    (hfit : tp.sndCwnd.toNat + acked.toNat < 2 ^ 32) : StaysUp tp (tcpSlowStart tp acked).1 := by
  have hlow := h.low
  have hhigh := h.high
  obtain ⟨cwnd, left, hstart, -, hge, hle⟩ := tcpSlowStart_paid acked hslow hfit
  rw [hstart]
  refine ⟨?_, hle, rfl, fun habove => ?_⟩
  · simp only [withWindow_sndCwnd]; omega
  · rw [tcpInSlowStart_iff] at hslow
    unfold Above at habove
    omega

/-- The threshold is raised to no more than the window. -/
theorem tcpCurrentSsthresh_le {tp : TcpSock} (h : Above tp) : (tcpCurrentSsthresh tp).toNat ≤ tp.sndCwnd.toNat := by
  unfold Above at h
  unfold tcpCurrentSsthresh
  split
  · exact h
  · have hsum : ((tp.sndCwnd >>> 1) + (tp.sndCwnd >>> 2)).toNat = tp.sndCwnd.toNat / 2 + tp.sndCwnd.toNat / 4 := by
      have hcwnd := tp.sndCwnd.isLt
      rw [BitVec.toNat_add, BitVec.toNat_ushiftRight, BitVec.toNat_ushiftRight, Nat.shiftRight_eq_div_pow,
        Nat.shiftRight_eq_div_pow]
      omega
    rw [toNat_umax, hsum]
    omega

/-- **Clipping.** The window is clipped to its bounds; one that is above the threshold, as is the clamp, stays above
it. -/
theorem vegasClip_spec (tp : TcpSock) (hclamp : 2 ≤ tp.sndCwndClamp.toNat) :
    (vegasClip tp).sndCwnd.toNat = max 2 (min tp.sndCwnd.toNat tp.sndCwndClamp.toNat) ∧
      (vegasClip tp).sndCwndClamp = tp.sndCwndClamp ∧
      (Above tp → tp.sndSsthresh.toNat ≤ tp.sndCwndClamp.toNat → Above (vegasClip tp)) := by
  have hcwnd : (if tp.sndCwnd < 2 then 2 else if tp.sndCwndClamp < tp.sndCwnd then tp.sndCwndClamp
      else tp.sndCwnd).toNat = max 2 (min tp.sndCwnd.toNat tp.sndCwndClamp.toNat) := by
    have htwo : tp.sndCwnd < 2 ↔ tp.sndCwnd.toNat < 2 := BitVec.lt_def
    have hlt : tp.sndCwndClamp < tp.sndCwnd ↔ tp.sndCwndClamp.toNat < tp.sndCwnd.toNat := BitVec.lt_def
    split_ifs with h₁ h₂
    · rw [htwo] at h₁
      show 2 = _
      omega
    · rw [htwo] at h₁
      rw [hlt] at h₂
      omega
    · rw [htwo] at h₁
      rw [hlt] at h₂
      omega
  refine ⟨hcwnd, rfl, fun habove hle => ?_⟩
  apply tcpCurrentSsthresh_le
  unfold Above at habove ⊢
  simp only [hcwnd]
  omega

/-! ## The formula -/

/-- What the decision leaves for the clipping: a window that is not above its clamp by more than one, and below the
threshold only where it was or where slow start goes on. -/
theorem vegasDecide_spec {tp : TcpSock} (h : VegasWindow tp) (acked : U32) (target : U64) (diff : U32) :
    (vegasDecide tp acked target diff).sndCwndClamp = tp.sndCwndClamp ∧
      (Above tp ∨ tcpInSlowStart tp = true ∧ gamma < diff → Above (vegasDecide tp acked target diff) ∧
        (vegasDecide tp acked target diff).sndSsthresh.toNat ≤ tp.sndCwndClamp.toNat) := by
  have hlow := h.low
  have hhigh := h.high
  have hclamp := h.clamp
  have hssthresh (tp₁ : TcpSock) : (tcpVegasSsthresh tp₁).toNat = min tp₁.sndSsthresh.toNat tp₁.sndCwnd.toNat :=
    toNat_umin _ _
  have hslow := tcpInSlowStart_iff tp
  unfold vegasDecide
  split
  · -- too fast: the window is cut, and the threshold with it
    refine ⟨rfl, fun _ => ⟨?_, ?_⟩⟩
    · unfold Above
      simp only [hssthresh]
      omega
    · simp only [hssthresh, toNat_umin]
      omega
  · rename_i hfast
    split
    · rename_i hstart
      refine ⟨rfl, ?_⟩
      rintro (habove | ⟨-, hdiff⟩)
      · unfold Above at habove
        rw [hslow] at hstart
        omega
      · exact absurd ⟨hdiff, hstart⟩ hfast
    · rename_i hstart
      have habove : tp.sndSsthresh.toNat ≤ tp.sndCwnd.toNat := by
        rw [hslow] at hstart
        omega
      split
      · refine ⟨rfl, fun _ => ⟨?_, ?_⟩⟩
        · unfold Above
          simp only [hssthresh]
          omega
        · simp only [hssthresh]
          omega
      · split
        · have hone : (tp.sndCwnd + 1).toNat = tp.sndCwnd.toNat + 1 := BitVec.toNat_add_of_lt (by
            show tp.sndCwnd.toNat + 1 < 2 ^ 32
            omega)
          refine ⟨rfl, fun _ => ⟨?_, ?_⟩⟩
          · unfold Above
            simp only [hone]
            omega
          · simp only
            omega
        · exact ⟨rfl, fun _ => ⟨habove, by omega⟩⟩

/-- **The adjustment by the formula.** -/
theorem vegasFormula_staysUp {tp : TcpSock} {ca : Vegas} (hi : RttInv ca) (h : VegasWindow tp) (acked : U32) :
    ∃ tp', (vegasFormula tp ca acked).map vegasClip = some tp' ∧ StaysUp tp tp' ∧
      (tcpInSlowStart tp = true → (∃ diff, vegasDiff tp ca = some diff ∧ gamma < diff) → Above tp') := by
  have hlow := h.low
  have hhigh := h.high
  obtain ⟨target, diff, hrun, hdiff, -⟩ := vegasFormula_spec tp hi acked
  obtain ⟨hclamp, habove⟩ := vegasDecide_spec h acked target diff
  obtain ⟨hcwnd, hclip, hkeep⟩ := vegasClip_spec (vegasDecide tp acked target diff) (by rw [hclamp]; omega)
  rw [hclamp] at hcwnd hkeep
  refine ⟨_, by rw [hrun]; rfl, ⟨by omega, by omega, hclip.trans hclamp, fun hup => ?_⟩, ?_⟩
  · obtain ⟨h₁, h₂⟩ := habove (Or.inl hup)
    exact hkeep h₁ h₂
  · rintro hslow ⟨diff', hdiff', hfast⟩
    rw [hdiff, Option.some.injEq] at hdiff'
    subst hdiff'
    obtain ⟨h₁, h₂⟩ := habove (Or.inr ⟨hslow, hfast⟩)
    exact hkeep h₁ h₂

/-! ## The callback -/

/-- **Vegas stays out of slow start.** From a reached state with a window between 2 and the clamp, and a clamp that can
be incremented, the callback returns; the window is still between 2 and the clamp, it is at the threshold or above if it
was before, and also where slow start was declared too fast. -/
theorem vegas_window {s : VegasSock} (hreach : Reach Step Started s) {ack acked : U32} (h : VegasWindow s.tp)
    (hfit : VegasFits s ack acked) :
    ∃ s', tcpVegasCongAvoid s ack acked = some s' ∧ 2 ≤ s'.tp.sndCwnd.toNat ∧
      s'.tp.sndCwnd.toNat ≤ s'.tp.sndCwndClamp.toNat ∧
      (s.tp.sndSsthresh.toNat ≤ s.tp.sndCwnd.toNat → s'.tp.sndSsthresh.toNat ≤ s'.tp.sndCwnd.toNat) ∧
      (TooFast s ack → s'.tp.sndSsthresh.toNat ≤ s'.tp.sndCwnd.toNat) := by
  suffices hstay : ∃ s', tcpVegasCongAvoid s ack acked = some s' ∧ StaysUp s.tp s'.tp ∧
      (TooFast s ack → Above s'.tp) by
    obtain ⟨s', hrun, hup, hfast⟩ := hstay
    exact ⟨s', hrun, hup.low, by rw [hup.clamp]; exact hup.high, hup.above, hfast⟩
  have hi := reach_rttInv hreach
  unfold VegasFits at hfit
  unfold tcpVegasCongAvoid
  by_cases hdoing : s.ca.doingVegasNow = 0
  · rw [if_pos hdoing] at hfit
    obtain ⟨tp', hrun, hup⟩ := tcpRenoCongAvoid_staysUp h hfit
    exact ⟨{ s with tp := tp' }, by rw [if_pos hdoing, hrun]; rfl, hup, fun hfast => absurd hdoing hfast.1.1⟩
  · rw [if_neg hdoing] at hfit ⊢
    by_cases hafter : after ack s.ca.begSndNxt = true
    · rw [if_pos hafter] at hfit ⊢
      unfold vegasAdjust
      by_cases hcnt : s.ca.cntRTT ≤ 2
      · obtain ⟨tp', hrun, hup⟩ := tcpRenoCongAvoid_staysUp h (hfit hcnt)
        exact ⟨_, by rw [if_pos hcnt, hrun]; rfl, hup, fun hfast => absurd hcnt hfast.1.2.2⟩
      · obtain ⟨tp', hrun, hup, hfast⟩ := vegasFormula_staysUp hi h acked
        exact ⟨_, by rw [if_neg hcnt, hrun]; rfl, hup, fun hcase => hfast hcase.2.1 hcase.2.2⟩
    · rw [if_neg hafter] at hfit ⊢
      have hnot : ¬ TooFast s ack := fun hfast => hafter hfast.1.2.1
      by_cases hslow : tcpInSlowStart s.tp = true
      · rw [if_pos hslow]
        exact ⟨_, rfl, tcpSlowStart_staysUp h hslow (hfit hslow), fun hfast => absurd hfast hnot⟩
      · rw [if_neg hslow]
        exact ⟨s, rfl, ⟨h.low, h.high, rfl, id⟩, fun hfast => absurd hfast hnot⟩

/-- A window of 10 in slow start towards 50, after round-trip times of 20 ms and then of 30 ms: the diff is 5, which is
too fast, and the window is cut to 7 with the threshold. -/
theorem vegas_window_fast :
    let s : VegasSock := ⟨⟨10, 0, 50, 100, 0, 20, true, 1000, 0, 0, 0, 0, 0⟩, ⟨1000, 1, 3, 30000, 20000⟩⟩
    TooFast s 2000 ∧ ∃ s', tcpVegasCongAvoid s 2000 1 = some s' ∧ 2 ≤ s'.tp.sndCwnd.toNat ∧
      s'.tp.sndCwnd.toNat ≤ s'.tp.sndCwndClamp.toNat ∧
      (s.tp.sndSsthresh.toNat ≤ s.tp.sndCwnd.toNat → s'.tp.sndSsthresh.toNat ≤ s'.tp.sndCwnd.toNat) ∧
      (TooFast s 2000 → s'.tp.sndSsthresh.toNat ≤ s'.tp.sndCwnd.toNat) := by
  intro s
  have hstart : Reach Step Started
      (tcpVegasInit ⟨⟨10, 0, 50, 100, 0, 20, true, 1000, 0, 0, 0, 0, 0⟩, ⟨0, 0, 0, 0, 0⟩⟩) := .init ⟨_, rfl⟩
  have hreach : Reach Step Started s := reach_foldlM hstart [.pktsAcked 19999, .state 0,
    .pktsAcked 29999, .pktsAcked 29999, .pktsAcked 29999] rfl
  refine ⟨⟨⟨by decide, by decide, by decide⟩, by decide, 5, by decide, by decide⟩, ?_⟩
  exact vegas_window hreach ⟨by decide, by decide, by decide⟩ (by decide)

end CoupledCC.Vegas
