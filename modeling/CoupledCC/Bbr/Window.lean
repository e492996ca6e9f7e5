import CoupledCC.Bbr.Phase

/-!
# How far an ACK moves the window of BBR

`bbr_set_cwnd` cuts the window for losses, conserves packets, restores it after recovery, grows it towards a target or
cuts it down to it, and caps it twice. As long as no sum of windows and packets reaches `2^31`, signed and unsigned
comparisons agree.

- `bbrSetCwnd_window`: the window it sets, against the window it starts from (`Phase.base`);
- `bbr_window`: the window after `bbr_main`.
-/

namespace CoupledCC.Bbr

open Word

/-- The ACK ends loss recovery. -/
def Phase.EndsRecovery (p : Phase) : Prop :=
  tcpCaRecovery ≤ p.prevCaState.setWidth 8 ∧ p.icskCaState < tcpCaRecovery

instance (p : Phase) : Decidable p.EndsRecovery := by
  unfold Phase.EndsRecovery
  infer_instance

/-- The window an ACK starts from: at the end of loss recovery not less than the saved one. -/
def Phase.base (p : Phase) : ℕ :=
  if p.EndsRecovery then max p.sndCwnd.toNat p.priorCwnd.toNat else p.sndCwnd.toNat

theorem Phase.sndCwnd_le_base (p : Phase) : p.sndCwnd.toNat ≤ p.base := by
  unfold Phase.base
  split
  · exact Nat.le_max_left _ _
  · exact Nat.le_refl _

section SetCwnd

variable {M : Type} {k : Kernel M}

/-- The deduction of the losses leaves at least one packet. -/
theorem bbrDeductLosses_bounds (rs : RateSample) {cwnd : U32} (hpos : 1 ≤ cwnd.toNat) (hlt : cwnd.toNat < 2 ^ 31) :
    1 ≤ (bbrDeductLosses rs cwnd).toNat ∧ (bbrDeductLosses rs cwnd).toNat ≤ cwnd.toNat := by
  unfold bbrDeductLosses
  split
  · rename_i hlosses
    have hone : (1 : U32).toNat = 1 := rfl
    have honeInt : (1 : U32).toInt = 1 := rfl
    have hloss : 0 < rs.losses.toNat ∧ rs.losses.toNat < 2 ^ 31 := by
      rw [BitVec.toInt_eq_toNat_cond] at hlosses
      split at hlosses <;> omega
    unfold smax
    split
    · rename_i hmore
      rw [honeInt, BitVec.toInt_eq_toNat_cond] at hmore
      have hsub := BitVec.toNat_sub cwnd rs.losses
      -- a positive signed difference has not wrapped
      split at hmore <;> omega
    · rw [hone]
      exact ⟨le_refl 1, hpos⟩
  · exact ⟨hpos, le_refl _⟩

/-- The window after recovery may have been entered, in which case packets are conserved, or left. -/
theorem bbrRecoverOrRestore_bounds {s : BbrSock M} (rs : RateSample) {acked : U32} (hpos : 1 ≤ s.tp.sndCwnd.toNat)
    (hacked : 1 ≤ acked.toNat) (hcwnd : s.tp.sndCwnd.toNat < 2 ^ 31)
    (hflight : s.tp.packetsInFlight.toNat + acked.toNat < 2 ^ 31) :
    1 ≤ (bbrRecoverOrRestore s rs acked).2.toNat ∧
      (((bbrRecoverOrRestore s rs acked).1.packetConservation = true ∧
          (bbrRecoverOrRestore s rs acked).2.toNat = s.tp.packetsInFlight.toNat + acked.toNat) ∨
        (bbrRecoverOrRestore s rs acked).2.toNat ≤ s.phase.base) := by
  obtain ⟨hone, hle⟩ := bbrDeductLosses_bounds rs hpos hcwnd
  have hbase : s.tp.sndCwnd.toNat ≤ s.phase.base := s.phase.sndCwnd_le_base
  have hsum : (s.tp.packetsInFlight + acked).toNat = s.tp.packetsInFlight.toNat + acked.toNat :=
    BitVec.toNat_add_of_lt (by omega)
  unfold bbrRecoverOrRestore
  simp only
  split
  · exact ⟨by simp only [hsum]; omega, .inl ⟨rfl, hsum⟩⟩
  · split
    · rename_i hends
      have hmax : s.phase.base = max s.tp.sndCwnd.toNat s.ca.priorCwnd.toNat := if_pos hends
      simp only [toNat_umax]
      omega
    · exact ⟨hone, .inr (hle.trans hbase)⟩

/-- The window `bbr_set_cwnd_to_recover_or_restore` gives; without conservation of packets it is not above the base. -/
theorem bbrSetCwndToRecoverOrRestore_bounds {s : BbrSock M} (rs : RateSample) {acked : U32}
    (hpos : 1 ≤ s.tp.sndCwnd.toNat) (hacked : 1 ≤ acked.toNat) (hcwnd : s.tp.sndCwnd.toNat < 2 ^ 31)
    (hflight : s.tp.packetsInFlight.toNat + acked.toNat < 2 ^ 31) :
    1 ≤ (bbrSetCwndToRecoverOrRestore s rs acked).2.1.toNat ∧
      (bbrSetCwndToRecoverOrRestore s rs acked).2.1.toNat ≤
        max s.phase.base (s.tp.packetsInFlight.toNat + acked.toNat) ∧
      ((bbrSetCwndToRecoverOrRestore s rs acked).2.2 = false →
        (bbrSetCwndToRecoverOrRestore s rs acked).2.1.toNat ≤ s.phase.base) := by
  obtain ⟨hone, hcases⟩ := bbrRecoverOrRestore_bounds rs hpos hacked hcwnd hflight
  have hsum : (s.tp.packetsInFlight + acked).toNat = s.tp.packetsInFlight.toNat + acked.toNat :=
    BitVec.toNat_add_of_lt (by omega)
  unfold bbrSetCwndToRecoverOrRestore
  simp only
  split
  · simp only [toNat_umax, hsum]
    refine ⟨by omega, by omega, fun h => by cases h⟩
  · rename_i hconserve
    have hle : (bbrRecoverOrRestore s rs acked).2.toNat ≤ s.phase.base := hcases.resolve_left fun h => hconserve h.1
    exact ⟨hone, hle.trans (Nat.le_max_left _ _), fun _ => hle⟩

/-- Growth adds the ACKed packets at most, and never goes below the floor of 4. -/
theorem bbrGrowCwnd_bounds (s : BbrSock M) {cwnd acked : U32} (bw : U32) (gain : U64)
    (hfit : cwnd.toNat + acked.toNat < 2 ^ 32) :
    4 ≤ (bbrGrowCwnd k s cwnd acked bw gain).toNat ∧
      (bbrGrowCwnd k s cwnd acked bw gain).toNat ≤ max (cwnd.toNat + acked.toNat) 4 := by
  have hsum : (cwnd + acked).toNat = cwnd.toNat + acked.toNat := BitVec.toNat_add_of_lt hfit
  have hfour : bbrCwndMinTarget.toNat = 4 := rfl
  unfold bbrGrowCwnd
  simp only [toNat_umax, hfour]
  split
  · rw [toNat_umin, hsum]
    omega
  · split
    · rw [hsum]
      omega
    · omega

/-- The two caps keep a window of at least 1. -/
theorem bbrCapCwnd_bounds (s : BbrSock M) {cwnd : U32} (hpos : 1 ≤ cwnd.toNat) (hclamp : 1 ≤ s.tp.sndCwndClamp.toNat) :
    1 ≤ (bbrCapCwnd s cwnd).tp.sndCwnd.toNat ∧ (bbrCapCwnd s cwnd).tp.sndCwnd.toNat ≤ s.tp.sndCwndClamp.toNat ∧
      (bbrCapCwnd s cwnd).tp.sndCwnd.toNat ≤ cwnd.toNat := by
  have hfour : bbrCwndMinTarget.toNat = 4 := rfl
  unfold bbrCapCwnd
  simp only
  split
  · simp only [toNat_umin, hfour]
    omega
  · simp only [toNat_umin]
    omega

/-- **The window `bbr_set_cwnd` sets.** -/
theorem bbrSetCwnd_window (s : BbrSock M) (rs : RateSample) {acked : U32} (bw : U32) (gain : U64)
    (hpos : 1 ≤ s.tp.sndCwnd.toNat) (hclamp : 1 ≤ s.tp.sndCwndClamp.toNat)
    (hfit : s.phase.base + acked.toNat < 2 ^ 31) (hflight : s.tp.packetsInFlight.toNat + acked.toNat < 2 ^ 31) :
    1 ≤ (bbrSetCwnd k s rs acked bw gain).tp.sndCwnd.toNat ∧
      (bbrSetCwnd k s rs acked bw gain).tp.sndCwnd.toNat ≤ s.tp.sndCwndClamp.toNat ∧
      (bbrSetCwnd k s rs acked bw gain).tp.sndCwnd.toNat ≤
        max (max (s.phase.base + acked.toNat) (s.tp.packetsInFlight.toNat + acked.toNat)) 4 := by
  have hbase : s.tp.sndCwnd.toNat ≤ s.phase.base := s.phase.sndCwnd_le_base
  unfold bbrSetCwnd
  split
  · obtain ⟨hone, hcap, hle⟩ := bbrCapCwnd_bounds s hpos hclamp
    omega
  · rename_i hzero
    have hacked : 1 ≤ acked.toNat := by
      rw [← BitVec.toNat_inj] at hzero
      exact Nat.one_le_iff_ne_zero.mpr hzero
    have hbounds := bbrSetCwndToRecoverOrRestore_bounds rs hpos hacked (by omega) hflight
    have hphase := bbrSetCwndToRecoverOrRestore_phase s rs acked
    generalize bbrSetCwndToRecoverOrRestore s rs acked = r at hbounds hphase
    obtain ⟨s₁, cwnd, conserve⟩ := r
    obtain ⟨hone, hle, hgrow⟩ := hbounds
    have hclamp₁ : s₁.tp.sndCwndClamp = s.tp.sndCwndClamp := congrArg Phase.sndCwndClamp hphase
    rw [← hclamp₁] at hclamp ⊢
    cases conserve with
    | true =>
      have hcap := bbrCapCwnd_bounds s₁ hone hclamp
      simp only at hone hle hcap ⊢
      omega
    | false =>
      have hle' := hgrow rfl
      simp only at hone hle' ⊢
      have hgrown := bbrGrowCwnd_bounds (k := k) s₁ bw gain (show cwnd.toNat + acked.toNat < 2 ^ 32 by omega)
      have hcap := bbrCapCwnd_bounds s₁ (show 1 ≤ (bbrGrowCwnd k s₁ cwnd acked bw gain).toNat by omega) hclamp
      omega

/-- The window after the work on `BBR_PROBE_RTT`, set by the rest of `bbr_main`. -/
theorem bbrAfterProbeRtt_window (s : BbrSock M) (rs : RateSample) (hpos : 1 ≤ s.tp.sndCwnd.toNat)
    (hclamp : 1 ≤ s.tp.sndCwndClamp.toNat) (hfit : s.phase.base + rs.ackedSacked.toNat < 2 ^ 31)
    (hflight : s.tp.packetsInFlight.toNat + rs.ackedSacked.toNat < 2 ^ 31) :
    1 ≤ (bbrAfterProbeRtt k s rs).tp.sndCwnd.toNat ∧
      (bbrAfterProbeRtt k s rs).tp.sndCwnd.toNat ≤ s.tp.sndCwndClamp.toNat ∧
      (bbrAfterProbeRtt k s rs).tp.sndCwnd.toNat ≤
        max (max (s.phase.base + rs.ackedSacked.toNat) (s.tp.packetsInFlight.toNat + rs.ackedSacked.toNat)) 4 := by
  set s₁ := bbrUpdateGains (bbrEndIdleRestart s rs) with hs₁
  set s₂ := bbrSetPacingRate s₁ (bbrBw k s₁) (s₁.ca.pacingGain.setWidth 64) with hs₂
  have hphase : s₂.phase = s.phase := by simp [hs₂, hs₁]
  have hcwnd : s₂.tp.sndCwnd = s.tp.sndCwnd := congrArg Phase.sndCwnd hphase
  have hclamp₂ : s₂.tp.sndCwndClamp = s.tp.sndCwndClamp := congrArg Phase.sndCwndClamp hphase
  have hflight₂ : s₂.tp.packetsInFlight = s.tp.packetsInFlight := congrArg Phase.packetsInFlight hphase
  rw [← hcwnd] at hpos
  rw [← hclamp₂] at hclamp ⊢
  rw [← hphase] at hfit ⊢
  rw [← hflight₂] at hflight ⊢
  exact bbrSetCwnd_window s₂ rs (bbrBw k s₁) (s₂.ca.cwndGain.setWidth 64) hpos hclamp hfit hflight

end SetCwnd

/-! ## One ACK -/

/-- The work on `BBR_PROBE_RTT` moves the window only when it leaves the mode. -/
theorem Probes.frame {dwell : U32} {clk : Clock} {p p' : Phase} (h : Probes dwell clk p p') :
    ∃ mode stamp done cwnd,
      p' = { p with mode := mode, probeRttDoneStamp := stamp, probeRttRoundDone := done, sndCwnd := cwnd } ∧
      (cwnd = p.sndCwnd ∨
        (p.mode = .probeRtt ∧ p.probeRttDoneStamp ≠ 0 ∧ mode ≠ .probeRtt ∧ cwnd = umax p.sndCwnd p.priorCwnd)) := by
  cases h with
  | outside | wait => exact ⟨p.mode, p.probeRttDoneStamp, p.probeRttRoundDone, p.sndCwnd, rfl, .inl rfl⟩
  | stamp => exact ⟨_, _, _, _, rfl, .inl rfl⟩
  | hold => exact ⟨_, _, _, _, rfl, .inl rfl⟩
  | leave hin hdue => exact ⟨_, _, _, _, rfl, .inr ⟨hin, hdue.1, p.home_ne, rfl⟩⟩

theorem Probes.clamp_eq {dwell : U32} {clk : Clock} {p p' : Phase} (h : Probes dwell clk p p') :
    p'.sndCwndClamp = p.sndCwndClamp := by
  obtain ⟨mode, stamp, done, cwnd, rfl, -⟩ := h.frame
  rfl

theorem Probes.flight_eq {dwell : U32} {clk : Clock} {p p' : Phase} (h : Probes dwell clk p p') :
    p'.packetsInFlight = p.packetsInFlight := by
  obtain ⟨mode, stamp, done, cwnd, rfl, -⟩ := h.frame
  rfl

/-- It leaves a window of at least 1. -/
theorem Probes.cwnd_pos {dwell : U32} {clk : Clock} {p p' : Phase} (h : Probes dwell clk p p')
    (hpos : 1 ≤ p.sndCwnd.toNat) : 1 ≤ p'.sndCwnd.toNat := by
  obtain ⟨mode, stamp, done, cwnd, rfl, rfl | ⟨-, -, -, rfl⟩⟩ := h.frame
  · exact hpos
  · show 1 ≤ (umax p.sndCwnd p.priorCwnd).toNat
    rw [toNat_umax]
    omega

/-- The base of the window after the work on the mode: the window the ACK finds, or with an end of loss recovery or of
the mode the larger of it and the saved one. -/
theorem Probes.base_le {dwell : U32} {clk : Clock} {p p₁ p₂ : Phase} (h : Probes dwell clk p₁ p₂)
    (hcwnd : p₁.sndCwnd = p.sndCwnd) (hprior : p₁.priorCwnd.toNat ≤ max p.sndCwnd.toNat p.priorCwnd.toNat)
    (hends : p₁.EndsRecovery ↔ p.EndsRecovery) :
    p₂.base ≤ max p.sndCwnd.toNat p.priorCwnd.toNat ∧
      (¬ p.EndsRecovery → p₂.base ≤ p.sndCwnd.toNat ∨
        (p₁.mode = .probeRtt ∧ p₁.probeRttDoneStamp ≠ 0 ∧ p₂.mode ≠ .probeRtt)) := by
  obtain ⟨mode, stamp, done, cwnd, rfl, hwindow⟩ := h.frame
  have hle : cwnd.toNat ≤ max p.sndCwnd.toNat p.priorCwnd.toNat := by
    rcases hwindow with rfl | ⟨-, -, -, rfl⟩
    · rw [hcwnd]
      exact Nat.le_max_left _ _
    · rw [toNat_umax, hcwnd]
      omega
  by_cases hrec : p.EndsRecovery
  · have hbase :
        Phase.base
          { p₁ with mode := mode, probeRttDoneStamp := stamp, probeRttRoundDone := done, sndCwnd := cwnd } =
        max cwnd.toNat p₁.priorCwnd.toNat := if_pos (hends.mpr hrec)
    rw [hbase]
    exact ⟨by omega, fun hnot => absurd hrec hnot⟩
  · have hbase :
        Phase.base
          { p₁ with mode := mode, probeRttDoneStamp := stamp, probeRttRoundDone := done, sndCwnd := cwnd } =
        cwnd.toNat := if_neg (fun h => hrec (hends.mp h))
    rw [hbase]
    refine ⟨hle, fun _ => ?_⟩
    rcases hwindow with rfl | ⟨hin, hstamp, hout, -⟩
    · exact .inl (by rw [hcwnd])
    · exact .inr ⟨hin, hstamp, hout⟩

variable {M : Type} {k : Kernel M}

/-- What an ACK finds when it turns to `BBR_PROBE_RTT`: the window of before, and a saved window that has been raised to
it at most; a stamp it finds is one of an earlier ACK. -/
theorem bbrAtProbeRtt_window (s : BbrSock M) (rs : RateSample) (clk : Clock) (rands : Rands) :
    ∃ p, (bbrAtProbeRtt k s rs clk rands).phase = p ∧ p.sndCwnd = s.tp.sndCwnd ∧
      p.priorCwnd.toNat ≤ max s.tp.sndCwnd.toNat s.ca.priorCwnd.toNat ∧ (p.EndsRecovery ↔ s.phase.EndsRecovery) ∧
      p.sndCwndClamp = s.tp.sndCwndClamp ∧ p.packetsInFlight = s.tp.packetsInFlight ∧
      (p.mode = .probeRtt → p.probeRttDoneStamp ≠ 0 → s.ca.mode = .probeRtt) := by
  obtain ⟨round, full, mode, -, hdrains, hat⟩ := bbrAtProbeRtt_phase (k := k) s rs clk rands
  rcases hat with hat | ⟨-, hat⟩
  · exact ⟨_, hat, rfl, Nat.le_max_right _ _, Iff.rfl, rfl, rfl, fun hin _ => hdrains.probeRtt_iff.mp hin⟩
  · refine ⟨_, hat, rfl, ?_, Iff.rfl, rfl, rfl, fun _ hstamp => absurd rfl hstamp⟩
    show (umax s.ca.priorCwnd s.tp.sndCwnd).toNat ≤ _
    rw [toNat_umax, Nat.max_comm]

/-- **The window after an ACK.** It stays between 1 and the clamp. Unless the ACK ends loss recovery or `BBR_PROBE_RTT`,
it grows at most by the ACKed packets over itself or over the packets in flight, but it may be raised to 4; in these two
cases the saved window counts as well. -/
theorem bbr_window (s : BbrSock M) (rs : RateSample) (clk : Clock) (rands : Rands) (hpos : 1 ≤ s.tp.sndCwnd.toNat)
    (hclamp : 1 ≤ s.tp.sndCwndClamp.toNat) (hfit : s.tp.sndCwnd.toNat + rs.ackedSacked.toNat < 2 ^ 31)
    (hprior : s.ca.priorCwnd.toNat + rs.ackedSacked.toNat < 2 ^ 31)
    (hflight : s.tp.packetsInFlight.toNat + rs.ackedSacked.toNat < 2 ^ 31) :
    let s' := bbrMain k s rs clk rands
    let endsRecovery := tcpCaRecovery ≤ s.ca.prevCaState.setWidth 8 ∧ s.tp.icskCaState < tcpCaRecovery
    let endsProbeRtt := s.ca.mode = .probeRtt ∧ s'.ca.mode ≠ .probeRtt
    (1 ≤ s'.tp.sndCwnd.toNat ∧ s'.tp.sndCwnd.toNat ≤ s.tp.sndCwndClamp.toNat) ∧
      (¬ endsRecovery → ¬ endsProbeRtt →
        s'.tp.sndCwnd.toNat ≤ max (max (s.tp.sndCwnd.toNat + rs.ackedSacked.toNat)
          (s.tp.packetsInFlight.toNat + rs.ackedSacked.toNat)) 4) ∧
      (endsRecovery ∨ endsProbeRtt →
        s'.tp.sndCwnd.toNat ≤ max (max (max s.tp.sndCwnd.toNat s.ca.priorCwnd.toNat) s.tp.packetsInFlight.toNat) 4 +
          rs.ackedSacked.toNat) := by
  intro s' endsRecovery endsProbeRtt
  obtain ⟨p, hat, hcwnd, hsaved, hends, hclampEq, hflightEq, hearlier⟩ := bbrAtProbeRtt_window (k := k) s rs clk rands
  have hprobes := bbrInProbeRtt_phase (k := k) (bbrAtProbeRtt k s rs clk rands) clk rands.probeRtt
  set s₂ := bbrInProbeRtt k (bbrAtProbeRtt k s rs clk rands) clk rands.probeRtt with hs₂
  rw [hat] at hprobes
  obtain ⟨hbase, hnormal⟩ := hprobes.base_le (p := s.phase) hcwnd hsaved hends
  have hmode : s'.ca.mode = s₂.ca.mode := by
    obtain ⟨cwnd, prev, hafter, -⟩ := bbrAfterProbeRtt_phase (k := k) s₂ rs
    exact congrArg Phase.mode hafter
  -- the window and the bounds at the start of the last part
  have hpos₂ : 1 ≤ s₂.tp.sndCwnd.toNat := hprobes.cwnd_pos (by rw [hcwnd]; exact hpos)
  have hclamp₂ : s₂.tp.sndCwndClamp = s.tp.sndCwndClamp := hprobes.clamp_eq.trans hclampEq
  have hflight₂ : s₂.tp.packetsInFlight = s.tp.packetsInFlight := hprobes.flight_eq.trans hflightEq
  have hsum : s₂.phase.base ≤ max s.tp.sndCwnd.toNat s.ca.priorCwnd.toNat := hbase
  obtain ⟨hone, hcap, hle⟩ := bbrAfterProbeRtt_window (k := k) s₂ rs hpos₂ (by rw [hclamp₂]; exact hclamp) (by omega)
    (by rw [hflight₂]; exact hflight)
  rw [hclamp₂] at hcap
  rw [hflight₂] at hle
  refine ⟨⟨hone, hcap⟩, fun hrec hprobe => ?_, fun _ => ?_⟩
  · rcases hnormal hrec with hsame | ⟨hin, hstamp, hout⟩
    · have hsame' : s₂.phase.base ≤ s.tp.sndCwnd.toNat := hsame
      exact hle.trans (by omega)
    · exact absurd ⟨hearlier hin hstamp, by rw [hmode]; exact hout⟩ hprobe
  · exact hle.trans (by omega)

/-- The first ACK of a connection with a window of 10: at most 20 after 10 ACKed packets. -/
theorem bbr_window_first :
    let rs : RateSample := ⟨20, 10, 1000, 1000, 0, 10, 10, false, false⟩
    ∃ s s', bbrInit plainKernel (plainSock 10 10) 1000 = s ∧
      bbrMain plainKernel s rs ⟨1001, 1001, 1001, 1001, 1001⟩ ⟨0, 0, 0⟩ = s' ∧
      1 ≤ s'.tp.sndCwnd.toNat ∧ s'.tp.sndCwnd.toNat ≤ 1000 ∧ s'.tp.sndCwnd.toNat ≤ 20 := by
  intro rs
  obtain ⟨s, hs⟩ : ∃ s, bbrInit plainKernel (plainSock 10 10) 1000 = s := ⟨_, rfl⟩
  have htp : (s.tp.sndCwnd, s.tp.sndCwndClamp, s.tp.packetsInFlight, s.ca.priorCwnd) = (10, 1000, 10, 0) := by
    rw [← hs]
    decide +kernel
  have hca : (s.ca.mode, s.ca.prevCaState) = (.startup, 0) := by
    rw [← hs]
    decide +kernel
  simp only [Prod.mk.injEq] at htp hca
  obtain ⟨hcwnd, hclamp, hflight, hprior⟩ := htp
  obtain ⟨⟨hone, hcap⟩, hnormal, -⟩ := bbr_window (k := plainKernel) s rs ⟨1001, 1001, 1001, 1001, 1001⟩ ⟨0, 0, 0⟩
    (by rw [hcwnd]; decide) (by rw [hclamp]; decide) (by rw [hcwnd]; decide) (by rw [hprior]; decide)
    (by rw [hflight]; decide)
  rw [hclamp] at hcap
  rw [hcwnd, hflight, hca.1, hca.2] at hnormal
  exact ⟨s, _, hs, rfl, hone, hcap, hnormal (fun h => absurd h.1 (by decide)) (by simp)⟩

end CoupledCC.Bbr
