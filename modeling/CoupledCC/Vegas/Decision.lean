import CoupledCC.Vegas.Callbacks

/-!
# The decision of Vegas

The window the Vegas formula gives, against its specification over the naturals (`vegasWindow`). The code forms
`snd_cwnd * (minRTT - baseRTT)` in 32 bits, and the specification without bounds.

- `vegasFormula_spec`: the formula divides by no zero; its diff is the quotient of the low 32 bits of the product;
- `vegas_filters`: what the order of the two minima means for the arithmetic of every reached state;
- `vegas_decision_iff`: in every reached state the decision is that of the specification exactly when the loss of the
  high bits changes no comparison (`Agrees`).
-/

namespace CoupledCC.Vegas

open Word Runs

/-- The product whose quotient by `baseRTT` is the diff, over the naturals. -/
def extra (tp : TcpSock) (ca : Vegas) : ℕ :=
  tp.sndCwnd.toNat * (ca.minRTT.toNat - ca.baseRTT.toNat)

/-- The specification: the window before it is clipped. -/
def vegasWindow (tp : TcpSock) (ca : Vegas) (acked : U32) : ℕ :=
  let cwnd := tp.sndCwnd.toNat
  let diff := extra tp ca / ca.baseRTT.toNat
  if tp.sndCwnd.toNat < tp.sndSsthresh.toNat then
    if 1 < diff then min cwnd (cwnd * ca.baseRTT.toNat / ca.minRTT.toNat + 1)
    else (tcpSlowStart tp acked).1.sndCwnd.toNat
  else if 4 < diff then cwnd - 1
  else if diff < 2 then cwnd + 1
  else cwnd

/-- Where the decision is that of the specification: the low 32 bits of the product stay above the bounds the product is
above, or slow start happens to end in the window of the actual rate; and the window can be incremented. -/
def Agrees (tp : TcpSock) (ca : Vegas) (acked : U32) : Prop :=
  let cwnd := tp.sndCwnd.toNat
  let base := ca.baseRTT.toNat
  let low := extra tp ca % 2 ^ 32
  if cwnd < tp.sndSsthresh.toNat then
    2 * base ≤ extra tp ca → 2 * base ≤ low ∨
      min (min ((cwnd + acked.toNat) % 2 ^ 32) tp.sndSsthresh.toNat) tp.sndCwndClamp.toNat =
        min cwnd (cwnd * base / ca.minRTT.toNat + 1)
  else (5 * base ≤ extra tp ca → 5 * base ≤ low) ∧ (2 * base ≤ extra tp ca → 2 * base ≤ low) ∧
    (extra tp ca < 2 * base → cwnd + 1 < 2 ^ 32)

instance (tp : TcpSock) (ca : Vegas) (acked : U32) : Decidable (Agrees tp ca acked) := by
  unfold Agrees
  infer_instance

/-- While the product and the incremented window fit in 32 bits the decision is that of the specification. -/
theorem agrees_of_fits {tp : TcpSock} {ca : Vegas} (acked : U32) (hextra : extra tp ca < 2 ^ 32)
    (hcwnd : tp.sndCwnd.toNat + 1 < 2 ^ 32) : Agrees tp ca acked := by
  unfold Agrees
  simp only [Nat.mod_eq_of_lt hextra]
  split
  · exact fun h => Or.inl h
  · exact ⟨id, id, fun _ => hcwnd⟩

/-! ## The formula in its words -/

/-- The target is exact. -/
theorem vegasTarget_spec (tp : TcpSock) {ca : Vegas} (h : RttInv ca) :
    ∃ target, vegasTarget tp ca = some target ∧
      target.toNat = tp.sndCwnd.toNat * ca.baseRTT.toNat / ca.minRTT.toNat := by
  have hpos := h.pos
  have hle := h.le
  have hprod : tp.sndCwnd.toNat * ca.baseRTT.toNat < 2 ^ 32 * 2 ^ 32 :=
    Nat.mul_lt_mul'' tp.sndCwnd.isLt ca.baseRTT.isLt
  have hmul : (tp.sndCwnd.setWidth 64 * ca.baseRTT.setWidth 64 : U64).toNat =
      tp.sndCwnd.toNat * ca.baseRTT.toNat := by
    rw [BitVec.toNat_mul_of_lt (by rw [toNat_setWidth64, toNat_setWidth64]; omega), toNat_setWidth64, toNat_setWidth64]
  refine ⟨_, checkedDiv_ne (ne_zero_of_pos (by rw [toNat_setWidth64]; omega)), ?_⟩
  rw [BitVec.toNat_udiv, hmul, toNat_setWidth64]

/-- Both divisors of the formula are positive; the target is exact, and the diff has lost the high bits. -/
theorem vegasFormula_spec (tp : TcpSock) {ca : Vegas} (h : RttInv ca) (acked : U32) :
    ∃ target diff, vegasFormula tp ca acked = some (vegasDecide tp acked target diff) ∧
      vegasDiff tp ca = some diff ∧
      target.toNat = tp.sndCwnd.toNat * ca.baseRTT.toNat / ca.minRTT.toNat ∧
      diff.toNat = extra tp ca % 2 ^ 32 / ca.baseRTT.toNat := by
  obtain ⟨target, htarget, hquot⟩ := vegasTarget_spec tp h
  have hsub : (ca.minRTT - ca.baseRTT).toNat = ca.minRTT.toNat - ca.baseRTT.toNat :=
    BitVec.toNat_sub_of_le (by rw [BitVec.le_def]; exact h.le)
  have hdiff := checkedDiv_ne (a := tp.sndCwnd * (ca.minRTT - ca.baseRTT)) (ne_zero_of_pos (a := ca.baseRTT) h.pos)
  refine ⟨target, _, by rw [vegasFormula, htarget, Option.bind_some, vegasDiff, hdiff, Option.map_some],
    hdiff, hquot, ?_⟩
  rw [BitVec.toNat_udiv, BitVec.toNat_mul, hsub, extra]

/-- **The filters of Vegas.** In every reached state the long minimum is at least 1 and at most the minimum of this RTT.
So where the formula is evaluated it divides by no zero, its subtraction does not underflow, and the target, at most the
window, loses nothing when it is cut to 32 bits; and a call of `tcp_vegas_cong_avoid` faults only where its Reno
fallback does. -/
theorem vegas_filters {s : VegasSock} (hreach : Reach Step Started s) :
    (1 ≤ s.ca.baseRTT.toNat ∧ s.ca.baseRTT.toNat ≤ s.ca.minRTT.toNat ∧ s.ca.minRTT.toNat ≤ 0x7fffffff) ∧
      s.ca.minRTT ≠ 0 ∧ s.ca.baseRTT ≠ 0 ∧
      (s.ca.minRTT - s.ca.baseRTT).toNat = s.ca.minRTT.toNat - s.ca.baseRTT.toNat ∧
      (∃ target, vegasTarget s.tp s.ca = some target ∧ target.toNat ≤ s.tp.sndCwnd.toNat ∧
        (target.setWidth 32).toNat = target.toNat) ∧
      ∀ ack acked, tcpVegasCongAvoid s ack acked = none → tcpRenoCongAvoid s.tp acked = none := by
  have hi := reach_rttInv hreach
  have hpos := hi.pos
  have hle := hi.le
  refine ⟨⟨hpos, hle, hi.bound⟩, ne_zero_of_pos (by omega), ne_zero_of_pos hpos,
    BitVec.toNat_sub_of_le (by rw [BitVec.le_def]; exact hle), ?_, ?_⟩
  · obtain ⟨target, htarget, hquot⟩ := vegasTarget_spec s.tp hi
    have hbound : target.toNat ≤ s.tp.sndCwnd.toNat := by
      rw [hquot]
      apply Nat.div_le_of_le_mul
      rw [Nat.mul_comm]
      exact Nat.mul_le_mul_right _ hle
    have hcwnd := s.tp.sndCwnd.isLt
    exact ⟨target, htarget, hbound, by rw [BitVec.toNat_setWidth, Nat.mod_eq_of_lt (by omega)]⟩
  · intro ack acked hfault
    obtain ⟨target, diff, hformula, -⟩ := vegasFormula_spec s.tp hi acked
    unfold tcpVegasCongAvoid at hfault
    split at hfault
    · exact Option.map_eq_none_iff.mp hfault
    · split at hfault
      · have hadjust := Option.map_eq_none_iff.mp hfault
        unfold vegasAdjust at hadjust
        split at hadjust
        · exact hadjust
        · rw [hformula] at hadjust
          cases hadjust
      · split at hfault <;> cases hfault

/-- A window of 10 after a round-trip time of 20 ms and three of 30 ms: the target is 6. -/
theorem vegas_filters_ten :
    let s : VegasSock := ⟨⟨10, 1, 5, 100, 0, 20, true, 1000, 0, 0, 0, 0, 0⟩, ⟨1000, 1, 3, 30000, 20000⟩⟩
    (1 ≤ s.ca.baseRTT.toNat ∧ s.ca.baseRTT.toNat ≤ s.ca.minRTT.toNat ∧ s.ca.minRTT.toNat ≤ 0x7fffffff) ∧
      ∃ target, vegasTarget s.tp s.ca = some target ∧ target.toNat ≤ 10 := by
  intro s
  have hstart : Reach Step Started (tcpVegasInit ⟨⟨10, 0, 5, 100, 0, 20, true, 1000, 0, 0, 0, 0, 0⟩,
      ⟨0, 0, 0, 0, 0⟩⟩) :=
    .init ⟨_, rfl⟩
  have hreach : Reach Step Started s := reach_foldlM hstart [.pktsAcked 19999, .congAvoid 2000 1,
    .pktsAcked 29999, .pktsAcked 29999, .pktsAcked 29999] rfl
  obtain ⟨horder, -, -, -, ⟨target, htarget, hle, -⟩, -⟩ := vegas_filters hreach
  exact ⟨horder, target, htarget, hle⟩

/-- The window after slow start. -/
theorem tcpSlowStart_cwnd (tp : TcpSock) (acked : U32) :
    (tcpSlowStart tp acked).1.sndCwnd.toNat =
      min (min ((tp.sndCwnd.toNat + acked.toNat) % 2 ^ 32) tp.sndSsthresh.toNat) tp.sndCwndClamp.toNat := by
  simp only [tcpSlowStart, toNat_umin, BitVec.toNat_add]

/-- The window the decision gives for a diff and a target. -/
theorem vegasDecide_cwnd (tp : TcpSock) (acked : U32) (target : U64) (diff : U32) :
    (vegasDecide tp acked target diff).sndCwnd.toNat =
      if tp.sndCwnd.toNat < tp.sndSsthresh.toNat then
        if 1 < diff.toNat then min tp.sndCwnd.toNat ((target.toNat % 2 ^ 32 + 1) % 2 ^ 32)
        else (tcpSlowStart tp acked).1.sndCwnd.toNat
      else if 4 < diff.toNat then (2 ^ 32 - 1 + tp.sndCwnd.toNat) % 2 ^ 32
      else if diff.toNat < 2 then (tp.sndCwnd.toNat + 1) % 2 ^ 32
      else tp.sndCwnd.toNat := by
  have hgamma : gamma < diff ↔ 1 < diff.toNat := BitVec.lt_def
  have hbeta : beta < diff ↔ 4 < diff.toNat := BitVec.lt_def
  have halpha : diff < alpha ↔ diff.toNat < 2 := BitVec.lt_def
  have hslow := tcpInSlowStart_iff tp
  unfold vegasDecide
  by_cases hs : tp.sndCwnd.toNat < tp.sndSsthresh.toNat
  · rw [if_pos hs]
    by_cases hd : 1 < diff.toNat
    · rw [if_pos hd, if_pos ⟨hgamma.mpr hd, hslow.mpr hs⟩]
      simp only [toNat_umin, BitVec.toNat_add, BitVec.toNat_setWidth]
      rfl
    · rw [if_neg hd, if_neg (fun h => hd (hgamma.mp h.1)), if_pos (hslow.mpr hs)]
  · rw [if_neg hs, if_neg (fun h => hs (hslow.mp h.2)), if_neg (fun h => hs (hslow.mp h))]
    by_cases hb : 4 < diff.toNat
    · rw [if_pos hb, if_pos (hbeta.mpr hb)]
      exact BitVec.toNat_sub _ _
    · rw [if_neg hb, if_neg (fun h => hb (hbeta.mp h))]
      by_cases ha : diff.toNat < 2
      · rw [if_pos ha, if_pos (halpha.mpr ha)]
        exact BitVec.toNat_add _ _
      · rw [if_neg ha, if_neg (fun h => ha (halpha.mp h))]

/-! ## The decision -/

/-- Going too fast, the window of the actual rate is below the window. -/
theorem target_lt (tp : TcpSock) {ca : Vegas} (h : RttInv ca) (hfast : 0 < extra tp ca) :
    tp.sndCwnd.toNat * ca.baseRTT.toNat / ca.minRTT.toNat < tp.sndCwnd.toNat := by
  have hpos := h.pos
  have hle := h.le
  unfold extra at hfast
  have hcwnd : 0 < tp.sndCwnd.toNat := Nat.pos_of_mul_pos_right hfast
  have hqueue : 0 < ca.minRTT.toNat - ca.baseRTT.toNat := Nat.pos_of_mul_pos_left hfast
  rw [Nat.div_lt_iff_lt_mul (by omega)]
  exact Nat.mul_lt_mul_of_pos_left (by omega) hcwnd

/-- The window before clipping is that of the specification exactly where the comparisons agree. -/
theorem vegasFormula_iff {tp : TcpSock} {ca : Vegas} (h : RttInv ca) (acked : U32) :
    ∃ tp', vegasFormula tp ca acked = some tp' ∧
      (tp'.sndCwnd.toNat = vegasWindow tp ca acked ↔ Agrees tp ca acked) := by
  obtain ⟨target, diff, hrun, -, htarget, hdiff⟩ := vegasFormula_spec tp h acked
  refine ⟨_, hrun, ?_⟩
  have hpos : 0 < ca.baseRTT.toNat := h.pos
  have hcwnd := tp.sndCwnd.isLt
  -- the comparisons with the two quotients, as bounds on the products
  have hfastLow : 1 < diff.toNat ↔ 2 * ca.baseRTT.toNat ≤ extra tp ca % 2 ^ 32 := by
    rw [hdiff]; exact Nat.le_div_iff_mul_le hpos
  have hslowLow : 4 < diff.toNat ↔ 5 * ca.baseRTT.toNat ≤ extra tp ca % 2 ^ 32 := by
    rw [hdiff]; exact Nat.le_div_iff_mul_le hpos
  have hfast : 1 < extra tp ca / ca.baseRTT.toNat ↔ 2 * ca.baseRTT.toNat ≤ extra tp ca :=
    Nat.le_div_iff_mul_le hpos
  have hslow : 4 < extra tp ca / ca.baseRTT.toNat ↔ 5 * ca.baseRTT.toNat ≤ extra tp ca :=
    Nat.le_div_iff_mul_le hpos
  have hmod : extra tp ca % 2 ^ 32 ≤ extra tp ca := Nat.mod_le _ _
  rw [vegasDecide_cwnd, vegasWindow, Agrees, tcpSlowStart_cwnd]
  by_cases hs : tp.sndCwnd.toNat < tp.sndSsthresh.toNat
  · rw [if_pos hs, if_pos hs, if_pos hs]
    by_cases hq : 2 * ca.baseRTT.toNat ≤ extra tp ca
    · have hlt := target_lt tp h (by omega)
      have hexact : (target.toNat % 2 ^ 32 + 1) % 2 ^ 32 =
          tp.sndCwnd.toNat * ca.baseRTT.toNat / ca.minRTT.toNat + 1 := by
        rw [htarget]
        omega
      rw [if_pos (hfast.mpr hq), hexact]
      by_cases hl : 2 * ca.baseRTT.toNat ≤ extra tp ca % 2 ^ 32
      · rw [if_pos (hfastLow.mpr hl)]
        exact ⟨fun _ _ => Or.inl hl, fun _ => rfl⟩
      · rw [if_neg (fun h => hl (hfastLow.mp h))]
        constructor
        · intro heq _
          exact Or.inr heq
        · intro h
          exact (h hq).resolve_left hl
    · rw [if_neg (fun h => hq (hfast.mp h)), if_neg (fun h => hq ((hfastLow.mp h).trans hmod))]
      exact ⟨fun _ h => absurd h hq, fun _ => rfl⟩
  · have hwindow : 0 < extra tp ca → 0 < tp.sndCwnd.toNat := Nat.pos_of_mul_pos_right
    rw [if_neg hs, if_neg hs, if_neg hs]
    generalize extra tp ca % 2 ^ 32 = low at *
    generalize extra tp ca / ca.baseRTT.toNat = quotient at *
    split_ifs <;> omega

/-- **Where Vegas decides as specified.** In a reached state in which the callback makes the once-per-RTT adjustment by
the formula, it divides by no zero and clips a window; this window is that of the specification if and only if the
comparisons agree. -/
theorem vegas_decision_iff {s : VegasSock} (hreach : Reach Step Started s) {ack acked : U32}
    (hdoing : s.ca.doingVegasNow ≠ 0) (hafter : after ack s.ca.begSndNxt = true) (hcnt : 2 < s.ca.cntRTT.toNat) :
    ∃ tp, vegasFormula s.tp s.ca acked = some tp ∧
      tcpVegasCongAvoid s ack acked =
        some ⟨vegasClip tp, { s.ca with begSndNxt := s.tp.sndNxt, cntRTT := 0, minRTT := rttInfinite }⟩ ∧
      (tp.sndCwnd.toNat = vegasWindow s.tp s.ca acked ↔ Agrees s.tp s.ca acked) := by
  obtain ⟨tp, hrun, hiff⟩ := vegasFormula_iff (reach_rttInv hreach) acked
  have hsamples : ¬ s.ca.cntRTT ≤ 2 := by
    rw [BitVec.le_def]
    exact Nat.not_le.mpr hcnt
  refine ⟨tp, hrun, ?_, hiff⟩
  rw [tcpVegasCongAvoid, if_neg hdoing, if_pos hafter, vegasAdjust, if_neg hsamples, hrun]
  rfl

/-- A window of 10 with a queue of half the base round-trip time: the diff is 5, and the window shrinks to 9. -/
theorem vegas_decision_iff_ten :
    let s : VegasSock := ⟨⟨10, 1, 5, 100, 0, 20, true, 1000, 0, 0, 0, 0, 0⟩, ⟨1000, 1, 3, 30000, 20000⟩⟩
    ∃ tp, vegasFormula s.tp s.ca 1 = some tp ∧
      tcpVegasCongAvoid s 2000 1 =
        some ⟨vegasClip tp, { s.ca with begSndNxt := s.tp.sndNxt, cntRTT := 0, minRTT := rttInfinite }⟩ ∧
      (tp.sndCwnd.toNat = vegasWindow s.tp s.ca 1 ↔ Agrees s.tp s.ca 1) := by
  intro s
  have hstart : Reach Step Started (tcpVegasInit ⟨⟨10, 0, 5, 100, 0, 20, true, 1000, 0, 0, 0, 0, 0⟩,
      ⟨0, 0, 0, 0, 0⟩⟩) :=
    .init ⟨_, rfl⟩
  have hreach : Reach Step Started s := reach_foldlM hstart [.pktsAcked 19999, .congAvoid 2000 1,
    .pktsAcked 29999, .pktsAcked 29999, .pktsAcked 29999] rfl
  exact vegas_decision_iff hreach (by decide) (by decide) (by decide)

/-- A window of 65536 whose round-trip time went from 20 ms to 85.536 ms: the product is `2^32`, the code sees a diff of
0 and speeds up, where the specification, with a diff of 214748, slows down. -/
theorem vegas_speeds_up :
    ∃ s tp, Reach Step Started s ∧ s.ca.doingVegasNow ≠ 0 ∧ after 2000 s.ca.begSndNxt = true ∧ 2 < s.ca.cntRTT.toNat ∧
      1 ≤ s.tp.sndCwnd.toNat ∧ 2 ≤ s.tp.sndCwndClamp.toNat ∧ RttInv s.ca ∧ vegasFormula s.tp s.ca 1 = some tp ∧
      tp.sndCwnd = 65537 ∧ vegasWindow s.tp s.ca 1 = 65535 := by
  have hstart : Reach Step Started
      (tcpVegasInit ⟨⟨65536, 0, 100, 100000, 0, 0, true, 1000, 0, 0, 0, 0, 0⟩, ⟨0, 0, 0, 0, 0⟩⟩) := .init ⟨_, rfl⟩
  have hreach : Reach Step Started
      ⟨⟨65536, 1, 100, 100000, 0, 0, true, 1000, 0, 0, 0, 0, 0⟩, ⟨1000, 1, 3, 85536, 20000⟩⟩ :=
    reach_foldlM hstart [.pktsAcked 19999, .congAvoid 2000 1, .pktsAcked 85535, .pktsAcked 85535,
      .pktsAcked 85535] rfl
  exact ⟨_, _, hreach, by decide, by decide, by decide, by decide, by decide, ⟨by decide, by decide, by decide⟩, rfl,
    by decide, by decide⟩

end CoupledCC.Vegas
