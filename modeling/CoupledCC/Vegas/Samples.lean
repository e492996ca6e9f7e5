import CoupledCC.Vegas.SlowStart

/-!
# Enough samples for Vegas

Once per RTT `tcp_vegas_cong_avoid` uses its formula, unless `cntRTT` shows at most two samples (`UsesFormula`). The
counter has 16 bits; an observer counts the accepted samples without a bound (`noteAccepted`).

- `tcpVegasCongAvoid_formula`, `tcpVegasCongAvoid_fallback`: the two branches;
- `counted`: the counter is the number of samples modulo `2^16`;
- `formula_iff`: so the branch is the right one unless the number wraps to less than three.
-/

namespace CoupledCC.Vegas

open Word Runs

/-- The callback comes to the once-per-RTT adjustment. -/
def Adjusts (s : VegasSock) (ack : U32) : Prop :=
  s.ca.doingVegasNow ≠ 0 ∧ after ack s.ca.begSndNxt = true

instance (s : VegasSock) (ack : U32) : Decidable (Adjusts s ack) := by
  unfold Adjusts
  infer_instance

/-- The samples `tcp_vegas_pkts_acked` has accepted since `cntRTT` was last cleared. -/
def noteAccepted (n : ℕ) : Transition VegasSock Event → ℕ
  | (_, .kernel _, _) => n
  | (_, .pktsAcked rttUs, _) => if rttUs.toInt < 0 then n else n + 1
  | (_, .state caState, _) => if caState = tcpCaOpen then 0 else n
  | (_, .cwndEvent event, _) => if event = .cwndRestart ∨ event = .txStart then 0 else n
  | (s, .congAvoid ack _, _) => if Adjusts s ack then 0 else n

/-! ## The branches -/

/-- The socket after the adjustment; the private area is ready for the next RTT. -/
def nextRtt (s : VegasSock) (tp : TcpSock) : VegasSock :=
  ⟨tp, { s.ca with begSndNxt := s.tp.sndNxt, cntRTT := 0, minRTT := rttInfinite }⟩

theorem tcpVegasCongAvoid_adjusts {s : VegasSock} {ack : U32} (h : Adjusts s ack) (acked : U32) :
    tcpVegasCongAvoid s ack acked = (vegasAdjust s.tp s.ca acked).map (nextRtt s) := by
  unfold tcpVegasCongAvoid
  rw [if_neg h.1, if_pos h.2]
  rfl

/-- The Vegas branch. -/
theorem tcpVegasCongAvoid_formula {s : VegasSock} {ack : U32} (h : UsesFormula s ack) (acked : U32) :
    tcpVegasCongAvoid s ack acked = ((vegasFormula s.tp s.ca acked).map vegasClip).map (nextRtt s) := by
  obtain ⟨hdoing, hafter, hcnt⟩ := h
  rw [tcpVegasCongAvoid_adjusts ⟨hdoing, hafter⟩, vegasAdjust, if_neg hcnt]

instance (s : VegasSock) (ack : U32) : Decidable (UsesFormula s ack) := by
  unfold UsesFormula
  infer_instance

/-- The Reno fallback. -/
theorem tcpVegasCongAvoid_fallback {s : VegasSock} {ack : U32} (h : Adjusts s ack) (hnot : ¬ UsesFormula s ack)
    (acked : U32) : tcpVegasCongAvoid s ack acked = (tcpRenoCongAvoid s.tp acked).map (nextRtt s) := by
  have hcnt : s.ca.cntRTT ≤ 2 := by
    by_contra hmany
    exact hnot ⟨h.1, h.2, hmany⟩
  rw [tcpVegasCongAvoid_adjusts h, vegasAdjust, if_pos hcnt]

/-! ## The counter -/

/-- The counter holds the number of samples modulo `2^16`. -/
def Counted (n : ℕ) (s : VegasSock) : Prop :=
  s.ca.cntRTT = BitVec.ofNat 16 n

theorem vegasEnable_counted (s : VegasSock) : Counted 0 (vegasEnable s) := rfl

/-- Without an adjustment `tcp_vegas_cong_avoid` leaves the private area alone. -/
theorem tcpVegasCongAvoid_ca {s s' : VegasSock} {ack acked : U32} (h : tcpVegasCongAvoid s ack acked = some s') :
    if Adjusts s ack then s'.ca.cntRTT = 0 else s'.ca = s.ca := by
  split
  · rename_i hadjusts
    rw [tcpVegasCongAvoid_adjusts hadjusts] at h
    obtain ⟨tp, -, rfl⟩ := Option.map_eq_some_iff.mp h
    rfl
  · rename_i hadjusts
    unfold tcpVegasCongAvoid at h
    split at h
    · obtain ⟨tp, -, rfl⟩ := Option.map_eq_some_iff.mp h
      rfl
    · rename_i hdoing
      split at h
      · rename_i hafter
        exact absurd ⟨hdoing, hafter⟩ hadjusts
      · split at h
        · cases h
          rfl
        · cases h
          rfl

/-- **One event.** -/
theorem counted_step (n : ℕ) (s : VegasSock) (e : Event) (s' : VegasSock) (h : Counted n s) (hstep : Step s e s') :
    Counted (noteAccepted n (s, e, s')) s' := by
  unfold Step at hstep
  cases e with
  | kernel tp =>
    cases hstep
    exact h
  | pktsAcked rttUs =>
    cases hstep
    simp only [noteAccepted, tcpVegasPktsAcked]
    split
    · exact h
    · show s.ca.cntRTT + 1 = BitVec.ofNat 16 (n + 1)
      rw [h, BitVec.ofNat_add]
      rfl
  | state caState =>
    cases hstep
    simp only [noteAccepted, tcpVegasState]
    split
    · exact vegasEnable_counted s
    · exact h
  | cwndEvent event =>
    cases hstep
    simp only [noteAccepted, tcpVegasCwndEvent]
    split
    · exact vegasEnable_counted _
    · exact h
  | congAvoid ack acked =>
    have hca := tcpVegasCongAvoid_ca hstep
    simp only [noteAccepted]
    split
    · rename_i hadjusts
      rw [if_pos hadjusts] at hca
      exact hca
    · rename_i hadjusts
      rw [if_neg hadjusts] at hca
      unfold Counted
      rw [hca]
      exact h

/-- The counter over a run from `tcp_vegas_init`. -/
theorem counted {s₀ s : VegasSock} {tr : List (Transition VegasSock Event)} (hrun : Trace Step (tcpVegasInit s₀) tr s) :
    Counted (history noteAccepted 0 tr) s :=
  hrun.history_invariant counted_step 0 (vegasEnable_counted _)

/-- What the branch is chosen by. -/
theorem Counted.formula {n : ℕ} {s : VegasSock} (h : Counted n s) {ack : U32} (hadjusts : Adjusts s ack) :
    UsesFormula s ack ↔ 3 ≤ n % 2 ^ 16 := by
  have hcnt : s.ca.cntRTT ≤ 2 ↔ n % 2 ^ 16 ≤ 2 := by
    rw [h, BitVec.le_def, BitVec.toNat_ofNat]
    rfl
  unfold UsesFormula
  rw [hcnt]
  constructor
  · rintro ⟨-, -, hmany⟩
    omega
  · intro hmany
    exact ⟨hadjusts.1, hadjusts.2, by omega⟩

/-- **When the branch is the right one.** After any run, an ACK that comes to the adjustment takes the Vegas branch, or
else the Reno fallback, as `UsesFormula` says; and it uses the formula exactly from three accepted samples on, if and
only if their number does not wrap to less than three. -/
theorem formula_iff {s₀ s : VegasSock} {tr : List (Transition VegasSock Event)}
    (hrun : Trace Step (tcpVegasInit s₀) tr s) {ack : U32} (hadjusts : Adjusts s ack) :
    (∀ acked, tcpVegasCongAvoid s ack acked =
        (if UsesFormula s ack then (vegasFormula s.tp s.ca acked).map vegasClip else tcpRenoCongAvoid s.tp acked).map
          (nextRtt s)) ∧
      ((UsesFormula s ack ↔ 3 ≤ history noteAccepted 0 tr) ↔
        (history noteAccepted 0 tr < 2 ^ 16 ∨ 3 ≤ history noteAccepted 0 tr % 2 ^ 16)) := by
  constructor
  · intro acked
    by_cases huses : UsesFormula s ack
    · rw [if_pos huses]
      exact tcpVegasCongAvoid_formula huses acked
    · rw [if_neg huses]
      exact tcpVegasCongAvoid_fallback hadjusts huses acked
  · rw [(counted hrun).formula hadjusts]
    omega

/-- A connection before `tcp_vegas_init`. -/
def freshSock : VegasSock :=
  ⟨⟨10, 0, 5, 1000, 0, 100, true, 0, 0, 0, 0, 0, 0⟩, ⟨0, 0, 0, 0, 0⟩⟩

/-- Any number of samples of 1 ms in a row. -/
theorem samples_trace (n : ℕ) (s : VegasSock) (m : ℕ) :
    ∃ tr s', Trace Step s tr s' ∧ history noteAccepted m tr = m + n ∧
      s'.ca.doingVegasNow = s.ca.doingVegasNow ∧ s'.ca.begSndNxt = s.ca.begSndNxt := by
  induction n generalizing s m with
  | zero => exact ⟨[], s, .nil s, rfl, rfl, rfl⟩
  | succ n ih =>
    obtain ⟨tr, s', htr, hcount, hdoing, hbeg⟩ := ih (tcpVegasPktsAcked s 1000) (m + 1)
    refine ⟨(s, .pktsAcked 1000, tcpVegasPktsAcked s 1000) :: tr, s', .cons rfl htr, ?_, hdoing, hbeg⟩
    have hnote : history noteAccepted m ((s, .pktsAcked 1000, tcpVegasPktsAcked s 1000) :: tr) =
        history noteAccepted (m + 1) tr := rfl
    rw [hnote, hcount]
    omega

/-- Three samples: the formula is used. -/
theorem formula_iff_three :
    ∃ tr s, Trace Step (tcpVegasInit freshSock) tr s ∧ history noteAccepted 0 tr = 3 ∧ Adjusts s 1 ∧
      (UsesFormula s 1 ↔ 3 ≤ history noteAccepted 0 tr) ∧
      ∀ acked, tcpVegasCongAvoid s 1 acked = ((vegasFormula s.tp s.ca acked).map vegasClip).map (nextRtt s) := by
  obtain ⟨tr, s, htr, hcount, hdoing, hbeg⟩ := samples_trace 3 (tcpVegasInit freshSock) 0
  have hadjusts : Adjusts s 1 := by
    unfold Adjusts
    rw [hdoing, hbeg]
    decide
  obtain ⟨hbranch, hwhen⟩ := formula_iff htr hadjusts
  have hright := hwhen.mpr (.inl (by rw [hcount]; decide))
  refine ⟨tr, s, htr, hcount, hadjusts, hright, fun acked => ?_⟩
  rw [hbranch, if_pos (hright.mpr (by rw [hcount]))]

/-- `2^16` samples in one RTT: the counter is 0 again, and the callback falls back to Reno. -/
theorem formula_missed :
    ∃ tr s, Trace Step (tcpVegasInit freshSock) tr s ∧ history noteAccepted 0 tr = 2 ^ 16 ∧ Adjusts s 1 ∧
      (∀ acked, tcpVegasCongAvoid s 1 acked = (tcpRenoCongAvoid s.tp acked).map (nextRtt s)) ∧
      ¬ UsesFormula s 1 ∧ ¬ (UsesFormula s 1 ↔ 3 ≤ history noteAccepted 0 tr) := by
  obtain ⟨tr, s, htr, hcount, hdoing, hbeg⟩ := samples_trace (2 ^ 16) (tcpVegasInit freshSock) 0
  have hadjusts : Adjusts s 1 := by
    unfold Adjusts
    rw [hdoing, hbeg]
    decide
  have hnot : ¬ UsesFormula s 1 := by
    rw [(counted htr).formula hadjusts, hcount]
    decide
  refine ⟨tr, s, htr, by rw [hcount, Nat.zero_add], hadjusts, tcpVegasCongAvoid_fallback hadjusts hnot, hnot,
    fun hiff => hnot (hiff.mpr ?_)⟩
  rw [hcount]
  decide

end CoupledCC.Vegas
