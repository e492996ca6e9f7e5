import CoupledCC.Bbr.Frame

/-!
# The first round of recovery

`bbr_set_cwnd_to_recover_or_restore` conserves packets in the first round of a recovery. Whether it is the first round
is kept in a flag, and what state the last ACK found in three bits; an observer keeps both from the events
(`noteRecovery`).

- `bbrSetCwnd_recovery`, `bbrMain_recovery`: what an ACK does about the recovery;
- `recovery_conserves`: in every run the flag is set exactly in the first round of a recovery, and in this round the
  window is what is in flight and what the ACK has taken out, or what is left of the old window if that is more.
-/

namespace CoupledCC.Bbr

open Word Runs

variable {M : Type} {k : Kernel M}

/-- What BBR knows of the recovery: the state that it saw last, and whether the first round lasts. -/
structure RecoveryNote where
  seen : U8
  first : Bool
deriving Repr, DecidableEq

/-- An ACK in the state `state`. One that acknowledges nothing looks at the round only. -/
def RecoveryNote.ack (n : RecoveryNote) (state : U8) (acked : U32) (roundStart : Bool) : RecoveryNote :=
  let first := n.first && !roundStart
  if acked = 0 then { n with first := first }
  else
    { seen := state
      first :=
        if state = tcpCaRecovery ∧ n.seen ≠ tcpCaRecovery then true
        else if tcpCaRecovery ≤ n.seen ∧ state < tcpCaRecovery then false
        else first }

def noteRecovery (n : RecoveryNote) : Transition (BbrSock M) Action → RecoveryNote
  | (_, .init _, _) => ⟨tcpCaOpen.setWidth 8, false⟩
  | (s, .call (.main rs _ _), s') => n.ack s.tp.icskCaState rs.ackedSacked s'.ca.roundStart
  | (_, .call (.setState newState _), _) => if newState = tcpCaLoss then { n with seen := tcpCaLoss } else n
  | _ => n

/-- The congestion states of the kernel. -/
def Action.StateOk : Action → Prop
  | .kernel tp => tp.icskCaState ≤ tcpCaLoss
  | _ => True

instance : DecidablePred Action.StateOk
  | .kernel tp => inferInstanceAs (Decidable (tp.icskCaState ≤ tcpCaLoss))
  | .init _ | .call _ => .isTrue trivial

/-- What a state holds of the recovery. -/
def BbrSock.recovery (s : BbrSock M) : RecoveryNote :=
  ⟨s.ca.prevCaState.setWidth 8, s.ca.packetConservation⟩

/-- The window of an ACK that conserves packets, before it is capped. -/
def conservedCwnd (n : RecoveryNote) (s : BbrSock M) (rs : RateSample) : U32 :=
  if s.tp.icskCaState = tcpCaRecovery ∧ n.seen ≠ tcpCaRecovery then s.tp.packetsInFlight + rs.ackedSacked
  else umax (bbrDeductLosses rs s.tp.sndCwnd) (s.tp.packetsInFlight + rs.ackedSacked)

/-! ## The window -/

theorem bbrCapCwnd_recovery (s : BbrSock M) (cwnd : U32) : (bbrCapCwnd s cwnd).recovery = s.recovery := rfl

/-- The states up to `TCP_CA_Loss` fit into three bits. -/
theorem setWidth_state {state : U8} (h : state ≤ tcpCaLoss) : (state.setWidth 3).setWidth 8 = state := by
  apply BitVec.eq_of_toNat_eq
  rw [BitVec.le_def] at h
  have hloss : tcpCaLoss.toNat = 4 := rfl
  simp only [BitVec.toNat_setWidth]
  omega

/-- **The window of an ACK** and the recovery. -/
theorem bbrSetCwnd_recovery {s : BbrSock M} (hstate : s.tp.icskCaState ≤ tcpCaLoss) (rs : RateSample) (bw : U32)
    (gain : U64) :
    (bbrSetCwnd k s rs rs.ackedSacked bw gain).recovery = s.recovery.ack s.tp.icskCaState rs.ackedSacked false ∧
      (rs.ackedSacked ≠ 0 → (bbrSetCwnd k s rs rs.ackedSacked bw gain).ca.packetConservation = true →
        (bbrSetCwnd k s rs rs.ackedSacked bw gain).tp.sndCwnd =
          (bbrCapCwnd s (conservedCwnd s.recovery s rs)).tp.sndCwnd) := by
  unfold bbrSetCwnd
  split
  · rename_i hacked
    refine ⟨?_, fun h => absurd hacked h⟩
    rw [bbrCapCwnd_recovery, RecoveryNote.ack, if_pos hacked, Bool.not_false, Bool.and_true]
  · rename_i hacked
    have hback := setWidth_state hstate
    -- entered, left, or neither
    by_cases henters : s.tp.icskCaState = tcpCaRecovery ∧ s.recovery.seen ≠ tcpCaRecovery
    · have hset : bbrSetCwndToRecoverOrRestore s rs rs.ackedSacked =
          ({ s with ca := { s.ca with
              packetConservation := true
              nextRttDelivered := s.tp.delivered
              prevCaState := s.tp.icskCaState.setWidth 3 } },
            umax (s.tp.packetsInFlight + rs.ackedSacked) (s.tp.packetsInFlight + rs.ackedSacked), true) := by
        have hrecover : bbrRecoverOrRestore s rs rs.ackedSacked = _ := if_pos henters
        simp only [bbrSetCwndToRecoverOrRestore, hrecover, if_true]
      have hwindow : umax (s.tp.packetsInFlight + rs.ackedSacked) (s.tp.packetsInFlight + rs.ackedSacked) =
          conservedCwnd s.recovery s rs := by
        rw [conservedCwnd, if_pos henters]
        unfold umax
        split <;> rfl
      rw [hset]
      refine ⟨?_, fun _ _ => by rw [← hwindow]; rfl⟩
      rw [RecoveryNote.ack, if_neg hacked, if_pos henters]
      exact congrArg (RecoveryNote.mk · true) hback
    · by_cases hleaves : tcpCaRecovery ≤ s.recovery.seen ∧ s.tp.icskCaState < tcpCaRecovery
      · have hset : bbrSetCwndToRecoverOrRestore s rs rs.ackedSacked =
            ({ s with ca := { s.ca with
                packetConservation := false
                prevCaState := s.tp.icskCaState.setWidth 3 } },
              umax (bbrDeductLosses rs s.tp.sndCwnd) s.ca.priorCwnd, false) := by
          have hrecover : bbrRecoverOrRestore s rs rs.ackedSacked = _ := (if_neg henters).trans (if_pos hleaves)
          simp only [bbrSetCwndToRecoverOrRestore, hrecover, Bool.false_eq_true, if_false]
        rw [hset]
        refine ⟨?_, fun _ h => ?_⟩
        · rw [RecoveryNote.ack, if_neg hacked, if_neg henters, if_pos hleaves]
          exact congrArg (RecoveryNote.mk · false) hback
        · cases h
      · have hrecover : bbrRecoverOrRestore s rs rs.ackedSacked = (s.ca, bbrDeductLosses rs s.tp.sndCwnd) :=
          (if_neg henters).trans (if_neg hleaves)
        have hack : s.recovery.ack s.tp.icskCaState rs.ackedSacked false =
            ⟨s.tp.icskCaState, s.ca.packetConservation⟩ := by
          rw [RecoveryNote.ack, if_neg hacked, if_neg henters, if_neg hleaves, Bool.not_false, Bool.and_true]
          rfl
        rw [hack]
        simp only [bbrSetCwndToRecoverOrRestore, hrecover]
        by_cases hconserving : s.ca.packetConservation = true
        · simp only [if_pos hconserving]
          refine ⟨congrArg (RecoveryNote.mk · s.ca.packetConservation) hback, fun _ _ => ?_⟩
          rw [conservedCwnd, if_neg henters]
          rfl
        · simp only [if_neg hconserving]
          exact ⟨congrArg (RecoveryNote.mk · s.ca.packetConservation) hback, fun _ h => absurd h hconserving⟩

/-! ## An ACK -/

/-- The work on the model ends the first round with the start of a new one, and leaves the rest of the recovery
alone. -/
theorem bbrAtProbeRtt_recovery (s : BbrSock M) (rs : RateSample) (clk : Clock) (rands : Rands) :
    (bbrAtProbeRtt k s rs clk rands).recovery =
        ⟨s.recovery.seen, s.recovery.first && !(bbrAtProbeRtt k s rs clk rands).ca.roundStart⟩ ∧
      (bbrAtProbeRtt k s rs clk rands).tp.icskCaState = s.tp.icskCaState ∧
      (bbrAtProbeRtt k s rs clk rands).tp.packetsInFlight = s.tp.packetsInFlight ∧
      (bbrAtProbeRtt k s rs clk rands).tp.sndCwnd = s.tp.sndCwnd := by
  obtain ⟨e, c, fullBw, cnt, reached, ssthresh, rtt, stamp, prior, done, h⟩ :=
    bbrAtProbeRtt_frame (k := k) s rs clk rands
  obtain ⟨next, rounds, start, l, c', bw, hbw⟩ := bbrUpdateBw_frame (k := k) s rs rands.sampling
  rw [h, hbw]
  exact ⟨rfl, rfl, rfl, rfl⟩

/-- The work on `BBR_PROBE_RTT` changes the window only when the mode ends. -/
theorem bbrInProbeRtt_recovery (s : BbrSock M) (clk : Clock) (rand : U32) :
    (bbrInProbeRtt k s clk rand).recovery = s.recovery ∧
      (bbrInProbeRtt k s clk rand).ca.roundStart = s.ca.roundStart ∧
      (bbrInProbeRtt k s clk rand).tp.icskCaState = s.tp.icskCaState ∧
      (bbrInProbeRtt k s clk rand).tp.packetsInFlight = s.tp.packetsInFlight ∧
      ((bbrInProbeRtt k s clk rand).tp.sndCwnd = s.tp.sndCwnd ∨
        (s.ca.mode = .probeRtt ∧ s.ca.probeRttDoneStamp ≠ 0 ∧ (bbrInProbeRtt k s clk rand).ca.mode ≠ .probeRtt)) := by
  have hprobes := bbrInProbeRtt_phase (k := k) s clk rand
  obtain ⟨c, cwnd, limited, rttStamp, doneStamp, roundDone, next, h, -⟩ := bbrInProbeRtt_frame (k := k) s clk rand
  have hcwnd : (bbrInProbeRtt k s clk rand).tp.sndCwnd = s.tp.sndCwnd ∨
      (s.ca.mode = .probeRtt ∧ s.ca.probeRttDoneStamp ≠ 0 ∧ (bbrInProbeRtt k s clk rand).ca.mode ≠ .probeRtt) := by
    generalize bbrInProbeRtt k s clk rand = s' at hprobes
    generalize hp : s.phase = p at hprobes
    generalize hp' : s'.phase = p' at hprobes
    have hsame (hkept : p'.sndCwnd = p.sndCwnd) : s'.tp.sndCwnd = s.tp.sndCwnd := by
      rw [← hp, ← hp'] at hkept
      exact hkept
    cases hprobes with
    | outside => exact .inl (hsame rfl)
    | wait => exact .inl (hsame rfl)
    | stamp => exact .inl (hsame rfl)
    | hold => exact .inl (hsame rfl)
    | leave hmode hdue hround =>
      refine .inr ⟨?_, ?_, ?_⟩
      · exact (congrArg Phase.mode hp).trans hmode
      · exact (congrArg Phase.probeRttDoneStamp hp).trans_ne hdue.1
      · exact (congrArg Phase.mode hp').trans_ne (Phase.home_ne _)
  have hkept : (bbrInProbeRtt k s clk rand).recovery = s.recovery ∧
      (bbrInProbeRtt k s clk rand).ca.roundStart = s.ca.roundStart ∧
      (bbrInProbeRtt k s clk rand).tp.icskCaState = s.tp.icskCaState ∧
      (bbrInProbeRtt k s clk rand).tp.packetsInFlight = s.tp.packetsInFlight := by
    rw [h]
    exact ⟨rfl, rfl, rfl, rfl⟩
  exact ⟨hkept.1, hkept.2.1, hkept.2.2.1, hkept.2.2.2, hcwnd⟩

/-- **An ACK and the recovery.** -/
theorem bbrMain_recovery {s : BbrSock M} (hstate : s.tp.icskCaState ≤ tcpCaLoss) (rs : RateSample) (clk : Clock)
    (rands : Rands) :
    (bbrMain k s rs clk rands).recovery =
        s.recovery.ack s.tp.icskCaState rs.ackedSacked (bbrMain k s rs clk rands).ca.roundStart ∧
      (rs.ackedSacked ≠ 0 → (bbrMain k s rs clk rands).ca.packetConservation = true →
        (s.ca.mode = .probeRtt → (bbrMain k s rs clk rands).ca.mode = .probeRtt) →
        (bbrMain k s rs clk rands).tp.sndCwnd =
          (bbrCapCwnd (bbrMain k s rs clk rands) (conservedCwnd s.recovery s rs)).tp.sndCwnd) := by
  obtain ⟨hseen, hca, hflight, hcwnd⟩ := bbrAtProbeRtt_recovery (k := k) s rs clk rands
  obtain ⟨round, full, mode, -, hdrains, henter⟩ := bbrAtProbeRtt_phase (k := k) s rs clk rands
  rw [bbrMain_eq]
  generalize bbrAtProbeRtt k s rs clk rands = s₁ at hseen hca hflight hcwnd henter ⊢
  obtain ⟨hseen', hround', hca', hflight', hcwnd'⟩ := bbrInProbeRtt_recovery (k := k) s₁ clk rands.probeRtt
  generalize bbrInProbeRtt k s₁ clk rands.probeRtt = s₂ at hseen' hround' hca' hflight' hcwnd' ⊢
  obtain ⟨s₃, hs₃⟩ : ∃ s₃, s₃ = bbrUpdateGains (bbrEndIdleRestart s₂ rs) := ⟨_, rfl⟩
  obtain ⟨idle, hidle⟩ : ∃ idle, bbrEndIdleRestart s₂ rs = { s₂ with ca := { s₂.ca with idleRestart := idle } } := by
    unfold bbrEndIdleRestart
    split
    · exact ⟨false, rfl⟩
    · exact ⟨s₂.ca.idleRestart, rfl⟩
  rw [hidle] at hs₃
  obtain ⟨rate, seen, hpacing⟩ := bbrSetPacingRate_frame s₃ (bbrBw k s₃) (s₃.ca.pacingGain.setWidth 64)
  obtain ⟨s₄, hs₄⟩ : ∃ s₄, s₄ = bbrSetPacingRate s₃ (bbrBw k s₃) (s₃.ca.pacingGain.setWidth 64) := ⟨_, rfl⟩
  have hafter : bbrAfterProbeRtt k s₂ rs =
      bbrSetCwnd k s₄ rs rs.ackedSacked (bbrBw k s₃) (s₄.ca.cwndGain.setWidth 64) := by
    rw [bbrAfterProbeRtt, hs₄, hs₃, hidle]
  rw [← hs₄, hs₃] at hpacing
  have hrecovery₄ : s₄.recovery = s₂.recovery := by rw [hpacing]; rfl
  have hstate₄ : s₄.tp.icskCaState = s₂.tp.icskCaState := by rw [hpacing]; rfl
  have hflight₄ : s₄.tp.packetsInFlight = s₂.tp.packetsInFlight := by rw [hpacing]; rfl
  have hcwnd₄ : s₄.tp.sndCwnd = s₂.tp.sndCwnd := by rw [hpacing]; rfl
  have hround₄ : s₄.ca.roundStart = s₂.ca.roundStart := by rw [hpacing]; rfl
  have hmode₄ : s₄.ca.mode = s₂.ca.mode := by rw [hpacing]; rfl
  have hok : s₄.tp.icskCaState ≤ tcpCaLoss := by
    rw [hstate₄, hca', hca]
    exact hstate
  obtain ⟨hrecovery, hwindow⟩ := bbrSetCwnd_recovery (k := k) hok rs (bbrBw k s₃) (s₄.ca.cwndGain.setWidth 64)
  obtain ⟨cwnd, conservation, next, prev, hset, -⟩ := bbrSetCwnd_frame (k := k) s₄ rs rs.ackedSacked (bbrBw k s₃)
    (s₄.ca.cwndGain.setWidth 64)
  rw [← hafter] at hrecovery hwindow hset
  have hstart : (bbrAfterProbeRtt k s₂ rs).ca.roundStart = s₁.ca.roundStart := by
    rw [hset, ← hround', ← hround₄]
  have hmode : (bbrAfterProbeRtt k s₂ rs).ca.mode = s₂.ca.mode := by rw [hset, ← hmode₄]
  have hclamp : (bbrAfterProbeRtt k s₂ rs).tp.sndCwndClamp = s₄.tp.sndCwndClamp := by rw [hset]
  have hnote : s₄.recovery = ⟨s.recovery.seen, s.recovery.first && !s₁.ca.roundStart⟩ := by
    rw [hrecovery₄, hseen', hseen]
  constructor
  · rw [hrecovery, hstart, hnote, hstate₄, hca', hca]
    simp [RecoveryNote.ack]
  · intro hacked hconserving hstays
    rw [hwindow hacked hconserving]
    have hsame : s₂.tp.sndCwnd = s₁.tp.sndCwnd := by
      rcases hcwnd' with hsame | ⟨hprobe, hdone, hout⟩
      · exact hsame
      · -- the mode was not entered by this ACK, so it ends with it
        have hs : s.ca.mode = .probeRtt := by
          rcases henter with h | ⟨-, h⟩
          · exact hdrains.probeRtt_iff.mp ((congrArg Phase.mode h).symm.trans hprobe)
          · exact absurd (congrArg Phase.probeRttDoneStamp h) hdone
        exact absurd (hmode.symm.trans (hstays hs)) hout
    have hconserved : conservedCwnd s₄.recovery s₄ rs = conservedCwnd s.recovery s rs := by
      rw [conservedCwnd, conservedCwnd, hnote, hstate₄, hca', hca, hflight₄, hflight', hflight, hcwnd₄, hsame, hcwnd]
    rw [hconserved]
    unfold bbrCapCwnd
    simp only [hclamp, hmode, hmode₄]

/-! ## Runs -/

/-- The flag and the state seen last are those of the observer. -/
structure Observed (n : RecoveryNote) (s : BbrSock M) : Prop where
  recovery : s.recovery = n
  state : s.tp.icskCaState ≤ tcpCaLoss

/-- The callbacks do not write the congestion state. -/
theorem callback_icskCaState (s : BbrSock M) (c : Callback) : (c.run k s).tp.icskCaState = s.tp.icskCaState := by
  cases c with
  | main rs clk rands =>
    obtain ⟨-, hstate, -, -⟩ := bbrAtProbeRtt_recovery (k := k) s rs clk rands
    obtain ⟨-, -, hstate', -, -⟩ :=
      bbrInProbeRtt_recovery (k := k) (bbrAtProbeRtt k s rs clk rands) clk rands.probeRtt
    obtain ⟨rate, cwnd, idle, seen, conservation, next, prev, h⟩ := bbrAfterProbeRtt_frame (k := k)
      (bbrInProbeRtt k (bbrAtProbeRtt k s rs clk rands) clk rands.probeRtt) rs
    show (bbrMain k s rs clk rands).tp.icskCaState = _
    rw [bbrMain_eq, h, ← hstate, ← hstate']
  | cwndEvent event check restart rand =>
    rcases bbrCwndEvent_phase (k := k) s event check restart rand with h | ⟨-, -, h⟩
    · exact congrArg Phase.icskCaState h
    · exact congrArg Phase.icskCaState h
  | ssthresh =>
    show (bbrSaveCwnd s).tp.icskCaState = _
    unfold bbrSaveCwnd
    split <;> rfl
  | undoCwnd => rfl
  | setState newState rand =>
    show (bbrSetState k s newState rand).tp.icskCaState = _
    unfold bbrSetState
    split
    · obtain ⟨l, c, h, -⟩ := bbrLtBwSampling_frame (k := k)
        { s with ca := { s.ca with prevCaState := tcpCaLoss.setWidth 3, fullBw := 0, roundStart := true } }
          lossSample rand
      rw [h]
      rfl
    · rfl

/-- A restart from idle leaves the recovery alone. -/
theorem bbrCwndEvent_recovery (s : BbrSock M) (event : CaEvent) (check restart : ℕ) (rand : U32) :
    (bbrCwndEvent k s event check restart rand).recovery = s.recovery := by
  unfold bbrCwndEvent
  split
  · simp only
    split
    · obtain ⟨rate, seen, h⟩ := bbrSetPacingRate_frame (bbrRestartIdle s) (bbrBw k (bbrRestartIdle s)) bbrUnit
      rw [h]
      rfl
    · split
      · obtain ⟨c, stamp, cwnd, h, -⟩ := bbrCheckProbeRttDone_frame (bbrRestartIdle s) check restart rand
        rw [h]
        rfl
      · rfl
  · rfl

/-- **One action.** -/
theorem observed_step (n : RecoveryNote) (s : BbrSock M) (a : Action) (s' : BbrSock M) (h : Observed n s)
    (hok : a.StateOk) (hstep : Acts k s a s') : Observed (noteRecovery n (s, a, s')) s' := by
  cases hstep
  obtain ⟨rfl, hstate⟩ := h
  cases a with
  | init now => exact ⟨rfl, hstate⟩
  | kernel tp => exact ⟨rfl, hok⟩
  | call c =>
    have hkept : (Action.run k s (.call c)).tp.icskCaState ≤ tcpCaLoss :=
      (callback_icskCaState (k := k) s c).symm ▸ hstate
    refine ⟨?_, hkept⟩
    cases c with
    | main rs clk rands => exact (bbrMain_recovery hstate rs clk rands).1
    | cwndEvent event check restart rand => exact bbrCwndEvent_recovery s event check restart rand
    | ssthresh =>
      show (bbrSaveCwnd s).recovery = s.recovery
      unfold bbrSaveCwnd
      split <;> rfl
    | undoCwnd => rfl
    | setState newState rand =>
      show (bbrSetState k s newState rand).recovery = if newState = tcpCaLoss then _ else _
      unfold bbrSetState
      split
      · obtain ⟨l, c, h, -⟩ := bbrLtBwSampling_frame (k := k)
          { s with ca := { s.ca with prevCaState := tcpCaLoss.setWidth 3, fullBw := 0, roundStart := true } } lossSample
          rand
        rw [h]
        rfl
      · rfl

/-- **Packets are conserved in the first round of a recovery.** In a run from `bbr_init` with the congestion states of
the kernel: after an ACK the flag is set exactly if this ACK, or an earlier one since which no round has started and the
recovery was not left, found a recovery that BBR had not seen last. Then the window is what is in flight together with
what the ACK has taken out; later in the round it is what is left of the old window, if that is more. Only the caps make
it smaller, and only the end of `BBR_PROBE_RTT` can restore a larger window first. -/
theorem recovery_conserves {s₀ s s' : BbrSock M} {now : ℕ} {rs : RateSample} {clk : Clock} {rands : Rands}
    (hstart : s₀.tp.icskCaState ≤ tcpCaLoss) {tr : List (Transition (BbrSock M) Action)}
    (hrun : Trace (fun s a s' => a.StateOk ∧ Acts k s a s') (bbrInit k s₀ now) tr s)
    (hstep : Acts k s (.call (.main rs clk rands)) s') :
    let n := history noteRecovery ⟨tcpCaOpen.setWidth 8, false⟩ tr
    s'.ca.packetConservation = (n.ack s.tp.icskCaState rs.ackedSacked s'.ca.roundStart).first ∧
      (rs.ackedSacked ≠ 0 → s'.ca.packetConservation = true → (s.ca.mode = .probeRtt → s'.ca.mode = .probeRtt) →
        s'.tp.sndCwnd = (bbrCapCwnd s' (conservedCwnd n s rs)).tp.sndCwnd) := by
  intro n
  have hobserved : Observed n s :=
    hrun.history_invariant (fun n s a s' h hs => observed_step n s a s' h hs.1 hs.2) _ ⟨rfl, hstart⟩
  cases hstep
  obtain ⟨hrecovery, hwindow⟩ := bbrMain_recovery (k := k) hobserved.state rs clk rands
  rw [hobserved.recovery] at hrecovery hwindow
  exact ⟨congrArg RecoveryNote.first hrecovery, hwindow⟩

/-- Recovery is entered with a window of 10, 7 packets in flight and an ACK for 2: the window is 9. -/
theorem recovery_conserves_first :
    let sample : RateSample := ⟨20, 2, 1000, 1000, 1, 2, 10, false, false⟩
    ∃ tr s s', Trace (fun s a s' => a.StateOk ∧ Acts plainKernel s a s')
      (bbrInit plainKernel (plainSock 10 7) 1000) tr s ∧
      Acts plainKernel s (.call (.main sample ⟨1001, 1001, 1001, 1001, 1001⟩ ⟨0, 0, 0⟩)) s' ∧
      s'.ca.packetConservation = true ∧ s'.tp.sndCwnd = (bbrCapCwnd s' 9).tp.sndCwnd := by
  intro sample
  let s₀ := bbrInit plainKernel (plainSock 10 7) 1000
  let s : BbrSock U32 := { s₀ with tp := { s₀.tp with icskCaState := tcpCaRecovery } }
  obtain ⟨s', hs'⟩ : ∃ s', Acts plainKernel s (.call (.main sample ⟨1001, 1001, 1001, 1001, 1001⟩ ⟨0, 0, 0⟩)) s' :=
    ⟨_, rfl⟩
  have hok : Action.StateOk (.kernel s.tp) := by decide
  have htrace : Trace (fun s a s' => a.StateOk ∧ Acts plainKernel s a s') s₀ [(s₀, .kernel s.tp, s)] s :=
    .cons ⟨hok, rfl⟩ (.nil _)
  have hmode : s.ca.mode ≠ .probeRtt := by decide
  have hwindow : conservedCwnd ⟨tcpCaOpen.setWidth 8, false⟩ s sample = 9 := by decide
  obtain ⟨hflag, hconserved⟩ := recovery_conserves (by decide) htrace hs'
  have hconserving : s'.ca.packetConservation = true := hflag.trans rfl
  refine ⟨_, s, s', htrace, hs', hconserving, ?_⟩
  rw [← hwindow]
  exact hconserved (by decide) hconserving fun h => absurd h hmode

end CoupledCC.Bbr
