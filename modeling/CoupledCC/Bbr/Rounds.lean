import CoupledCC.Lib.Rounds
import CoupledCC.Bbr.Frame
import CoupledCC.Bbr.ProbeRtt

/-!
# The packet-timed rounds of BBR

A round begins with an ACK for a packet that was sent after the round before it began: its sample was taken when at
least `next_rtt_delivered` packets had been delivered. The mark is also set when recovery is entered and with the stamp
of `BBR_PROBE_RTT`. All counts are kept modulo `2^32`; the numbers of the connection are noted beside it.

- `bbrMain_round`: what an ACK does about the round;
- `rounds_exact`: an ACK starts a round exactly when its packet was sent after the mark was set, over the numbers, so
  that no two rounds overlap, and `rtt_cnt` counts the rounds.
-/

namespace CoupledCC.Bbr

open Word Runs Rounds

variable {M : Type} {k : Kernel M}

/-- The fields the rounds are made of. -/
structure Round where
  nextRttDelivered : U32
  rttCnt : U32
  roundStart : Bool
  delivered : U32
deriving Repr, DecidableEq

def BbrSock.round (s : BbrSock M) : Round :=
  ⟨s.ca.nextRttDelivered, s.ca.rttCnt, s.ca.roundStart, s.tp.delivered⟩

/-- The round when the sample has been looked at. -/
def Round.sampled (r : Round) (rs : RateSample) : Round :=
  if ¬ InvalidSample rs ∧ before rs.priorDelivered r.nextRttDelivered = false then
    ⟨r.delivered, r.rttCnt + 1, true, r.delivered⟩
  else { r with roundStart := false }

@[simp] theorem Round.sampled_delivered (r : Round) (rs : RateSample) : (r.sampled rs).delivered = r.delivered := by
  unfold Round.sampled
  split <;> rfl

theorem Round.sampled_cases (r : Round) (rs : RateSample) :
    r.sampled rs = ⟨r.delivered, r.rttCnt + 1, true, r.delivered⟩ ∨ r.sampled rs = { r with roundStart := false } := by
  unfold Round.sampled
  split
  · exact .inl rfl
  · exact .inr rfl

/-! ## What the functions change of it -/

theorem bbrUpdateBw_round (s : BbrSock M) (rs : RateSample) (rand : U32) :
    (bbrUpdateBw k s rs rand).round = s.round.sampled rs := by
  unfold bbrUpdateBw
  simp only
  split
  · rename_i hinvalid
    rw [Round.sampled, if_neg fun h => h.1 hinvalid]
    rfl
  · rename_i hvalid
    obtain ⟨l, c, hsampling, -⟩ := bbrLtBwSampling_frame (k := k)
      (bbrUpdateRound { s with ca := { s.ca with roundStart := false } } rs) rs rand
    rw [hsampling]
    obtain ⟨bw, hfilter⟩ := bbrFilterBw_frame (k := k)
      (((bbrUpdateRound { s with ca := { s.ca with roundStart := false } } rs).setLongTerm l).setCycle c) rs
    rw [hfilter]
    have hsame : BbrSock.round
        { (((bbrUpdateRound { s with ca := { s.ca with roundStart := false } } rs).setLongTerm l).setCycle c) with
          ca := { (((bbrUpdateRound { s with ca := { s.ca with roundStart := false } } rs).setLongTerm l).setCycle c).ca
            with
            bw := bw } } = (bbrUpdateRound { s with ca := { s.ca with roundStart := false } } rs).round := rfl
    rw [hsame]
    unfold bbrUpdateRound Round.sampled
    cases hbefore : before rs.priorDelivered s.ca.nextRttDelivered with
    | true => simp [BbrSock.round, hbefore]
    | false => simp [BbrSock.round, hbefore, hvalid]

@[simp] theorem bbrUpdateAckAggregation_round (s : BbrSock M) (rs : RateSample) :
    (bbrUpdateAckAggregation k s rs).round = s.round := by
  obtain ⟨e, h⟩ := bbrUpdateAckAggregation_frame (k := k) s rs
  rw [h]
  rfl

@[simp] theorem bbrUpdateCyclePhase_round (s : BbrSock M) (rs : RateSample) :
    (bbrUpdateCyclePhase k s rs).round = s.round := by
  obtain ⟨c, h, -⟩ := bbrUpdateCyclePhase_frame (k := k) s rs
  rw [h]
  rfl

@[simp] theorem bbrCheckFullBwReached_round (s : BbrSock M) (rs : RateSample) :
    (bbrCheckFullBwReached k s rs).round = s.round := by
  obtain ⟨fullBw, cnt, reached, h⟩ := bbrCheckFullBwReached_frame (k := k) s rs
  rw [h]
  rfl

@[simp] theorem bbrCheckDrain_round (s : BbrSock M) (rand : U32) : (bbrCheckDrain k s rand).round = s.round := by
  obtain ⟨c, ssthresh, h, -⟩ := bbrCheckDrain_frame (k := k) s rand
  rw [h]
  rfl

@[simp] theorem bbrSampleMinRtt_round (s : BbrSock M) (rs : RateSample) (filterExpired : Bool) (now : ℕ) :
    (bbrSampleMinRtt s rs filterExpired now).round = s.round := by
  obtain ⟨rtt, stamp, h⟩ := bbrSampleMinRtt_frame s rs filterExpired now
  rw [h]
  rfl

@[simp] theorem bbrEnterProbeRtt_round (s : BbrSock M) (filterExpired : Bool) :
    (bbrEnterProbeRtt s filterExpired).round = s.round := by
  obtain ⟨mode, prior, stamp, h, -⟩ := bbrEnterProbeRtt_frame s filterExpired
  rw [h]
  rfl

@[simp] theorem bbrEndIdleRestart_round (s : BbrSock M) (rs : RateSample) :
    (bbrEndIdleRestart s rs).round = s.round := by
  unfold bbrEndIdleRestart
  split <;> rfl

@[simp] theorem bbrSetPacingRate_round (s : BbrSock M) (bw : U32) (gain : U64) :
    (bbrSetPacingRate s bw gain).round = s.round := by
  obtain ⟨rate, seen, h⟩ := bbrSetPacingRate_frame s bw gain
  rw [h]
  rfl

theorem bbrAtProbeRtt_round (s : BbrSock M) (rs : RateSample) (clk : Clock) (rands : Rands) :
    (bbrAtProbeRtt k s rs clk rands).round = s.round.sampled rs := by
  simp [bbrAtProbeRtt, bbrUpdateBw_round]

/-! ## An ACK -/

/-- The ACK sets the stamp of `BBR_PROBE_RTT`. -/
def Stamps (s s' : BbrSock M) : Prop :=
  s'.ca.mode = .probeRtt ∧ (s.ca.mode ≠ .probeRtt ∨ s.ca.probeRttDoneStamp = 0) ∧
    s.tp.packetsInFlight ≤ bbrCwndMinTarget

instance (s s' : BbrSock M) : Decidable (Stamps s s') := by
  unfold Stamps
  infer_instance

instance (s : BbrSock M) (acked : U32) : Decidable (Recovers s acked) := by
  unfold Recovers
  infer_instance

/-- The time stamp is set within the ACK exactly if the ACK is found to set it. -/
theorem stampsNow_iff {s : BbrSock M} {rs : RateSample} {clk : Clock} {rands : Rands} :
    StampsNow (bbrAtProbeRtt k s rs clk rands) ↔ Stamps s (bbrMain k s rs clk rands) := by
  obtain ⟨round, full, mode, -, hdrains, henter⟩ := bbrAtProbeRtt_phase (k := k) s rs clk rands
  obtain ⟨cwnd, prev, hafter, -⟩ :=
    bbrAfterProbeRtt_phase (k := k) (bbrInProbeRtt k (bbrAtProbeRtt k s rs clk rands) clk rands.probeRtt) rs
  rw [← bbrMain_eq] at hafter
  have hmode' : (bbrMain k s rs clk rands).ca.mode =
      (bbrInProbeRtt k (bbrAtProbeRtt k s rs clk rands) clk rands.probeRtt).ca.mode := congrArg Phase.mode hafter
  generalize bbrAtProbeRtt k s rs clk rands = s₁ at henter hmode' ⊢
  obtain ⟨c, cwnd, limited, rttStamp, doneStamp, roundDone, next, hin, hcases⟩ :=
    bbrInProbeRtt_frame (k := k) s₁ clk rands.probeRtt
  have hc : (bbrMain k s rs clk rands).ca.mode = c.mode := by rw [hmode', hin]; rfl
  have hflight : s₁.tp.packetsInFlight = s.tp.packetsInFlight := by
    rcases henter with h | ⟨-, h⟩
    · exact congrArg Phase.packetsInFlight h
    · exact congrArg Phase.packetsInFlight h
  constructor
  · intro hnow
    rcases hcases with ⟨rfl, -⟩ | ⟨-, -, -, hnot⟩ | ⟨-, -, -, -, hstamped⟩
    · refine ⟨hc.trans hnow.1, ?_, hflight ▸ hnow.2.2⟩
      rcases henter with h | ⟨hmode, -⟩
      · exact .inr ((congrArg Phase.probeRttDoneStamp h).symm.trans hnow.2.1)
      · exact .inl fun h => hmode (hdrains.probeRtt_iff.mpr h)
    · exact absurd hnow hnot
    · exact absurd hnow.2.1 hstamped
  · rintro ⟨hprobe, hnew, hsmall⟩
    rw [hc] at hprobe
    have hmode₁ : s₁.ca.mode = .probeRtt := by
      rcases hcases with ⟨rfl, -⟩ | ⟨rfl, -⟩ | ⟨rfl, -⟩
      · exact hprobe
      · exact hprobe
      · exact absurd hprobe (bbrResetMode_mode s₁ _)
    refine ⟨hmode₁, ?_, hflight ▸ hsmall⟩
    rcases henter with h | ⟨-, h⟩
    · have hmode : s.ca.mode = .probeRtt := hdrains.probeRtt_iff.mp ((congrArg Phase.mode h).symm.trans hmode₁)
      exact (congrArg Phase.probeRttDoneStamp h).trans (hnew.resolve_left fun hne => hne hmode)
    · exact congrArg Phase.probeRttDoneStamp h

/-- The end of an ACK touches the round only when recovery is entered. -/
theorem bbrAfterProbeRtt_round (s : BbrSock M) (rs : RateSample) :
    (bbrAfterProbeRtt k s rs).round = { s.round with
      nextRttDelivered := if Recovers s rs.ackedSacked then s.tp.delivered else s.ca.nextRttDelivered } := by
  set s₁ := bbrUpdateGains (bbrEndIdleRestart s rs) with hs₁
  set s₂ := bbrSetPacingRate s₁ (bbrBw k s₁) (s₁.ca.pacingGain.setWidth 64) with hs₂
  have hround : s₂.round = s.round := by
    have hgains : s₁.round = (bbrEndIdleRestart s rs).round := rfl
    rw [hs₂, bbrSetPacingRate_round, hgains, bbrEndIdleRestart_round]
  have hphase : s₂.phase = s.phase := by simp [hs₂, hs₁]
  have hrecovers : Recovers s₂ rs.ackedSacked ↔ Recovers s rs.ackedSacked := by
    have hstate : s₂.tp.icskCaState = s.tp.icskCaState := congrArg Phase.icskCaState hphase
    have hprev : s₂.ca.prevCaState = s.ca.prevCaState := congrArg Phase.prevCaState hphase
    rw [Recovers, Recovers, hstate, hprev]
  have hnext : s₂.ca.nextRttDelivered = s.ca.nextRttDelivered := congrArg Round.nextRttDelivered hround
  have hdelivered : s₂.tp.delivered = s.tp.delivered := congrArg Round.delivered hround
  obtain ⟨cwnd, conservation, next, prev, hset, hcases⟩ := bbrSetCwnd_frame (k := k) s₂ rs rs.ackedSacked (bbrBw k s₁)
    (s₂.ca.cwndGain.setWidth 64)
  have hmain : (bbrAfterProbeRtt k s rs).round = { s₂.round with nextRttDelivered := next } := by
    have heq : bbrAfterProbeRtt k s rs = _ := hset
    rw [heq]
    rfl
  rw [hmain, hround]
  rcases hcases with ⟨rfl, hrecovery⟩ | ⟨rfl, hrecovery⟩
  · rw [if_pos (hrecovers.mp hrecovery), hdelivered]
  · rw [if_neg fun h => hrecovery (hrecovers.mpr h), hnext]

/-- **What an ACK does about the round.** -/
theorem bbrMain_round (s : BbrSock M) (rs : RateSample) (clk : Clock) (rands : Rands) :
    (bbrMain k s rs clk rands).round =
      { s.round.sampled rs with
        nextRttDelivered := if Stamps s (bbrMain k s rs clk rands) ∨ Recovers s rs.ackedSacked then s.tp.delivered
          else (s.round.sampled rs).nextRttDelivered } := by
  have hstamps : StampsNow (bbrAtProbeRtt k s rs clk rands) ↔ Stamps s (bbrMain k s rs clk rands) := stampsNow_iff
  have hround := bbrAtProbeRtt_round (k := k) s rs clk rands
  have hphase := bbrAtProbeRtt_phase (k := k) s rs clk rands
  rw [bbrMain_eq, bbrAfterProbeRtt_round, ← bbrMain_eq]
  generalize bbrAtProbeRtt k s rs clk rands = s₁ at hstamps hround hphase ⊢
  obtain ⟨c, cwnd, limited, rttStamp, doneStamp, roundDone, next, hin, hcases⟩ :=
    bbrInProbeRtt_frame (k := k) s₁ clk rands.probeRtt
  have hrecovers : Recovers (bbrInProbeRtt k s₁ clk rands.probeRtt) rs.ackedSacked ↔ Recovers s rs.ackedSacked := by
    have hkeep : s₁.tp.icskCaState = s.tp.icskCaState ∧ s₁.ca.prevCaState = s.ca.prevCaState := by
      obtain ⟨round, full, mode, -, -, h | ⟨-, h⟩⟩ := hphase
      · exact ⟨congrArg Phase.icskCaState h, congrArg Phase.prevCaState h⟩
      · exact ⟨congrArg Phase.icskCaState h, congrArg Phase.prevCaState h⟩
    have hsame : Recovers (bbrInProbeRtt k s₁ clk rands.probeRtt) rs.ackedSacked ↔ Recovers s₁ rs.ackedSacked := by
      rw [hin]
      rfl
    rw [hsame, Recovers, Recovers, hkeep.1, hkeep.2]
  have hdelivered : s₁.tp.delivered = s.tp.delivered := by
    have h := congrArg Round.delivered hround
    rw [Round.sampled_delivered] at h
    exact h
  have hinRound : (bbrInProbeRtt k s₁ clk rands.probeRtt).round = { s₁.round with nextRttDelivered := next } := by
    rw [hin]
    rfl
  have hinDelivered : (bbrInProbeRtt k s₁ clk rands.probeRtt).tp.delivered = s.tp.delivered := by
    rw [← hdelivered]
    exact congrArg Round.delivered hinRound
  have hinNext : (bbrInProbeRtt k s₁ clk rands.probeRtt).ca.nextRttDelivered = next :=
    congrArg Round.nextRttDelivered hinRound
  rw [hinRound, hinDelivered, hinNext, hround]
  by_cases hrec : Recovers s rs.ackedSacked
  · rw [if_pos (hrecovers.mpr hrec), if_pos (Or.inr hrec)]
  · rw [if_neg fun h => hrec (hrecovers.mp h)]
    rcases hcases with ⟨-, -, hnext, hnow⟩ | ⟨-, -, hnext, hnow⟩ | ⟨-, -, hnext, -, hstamped⟩
    · rw [if_pos (Or.inl (hstamps.mp hnow)), hnext, hdelivered]
    · rw [if_neg fun h => h.elim (fun h => hnow (hstamps.mpr h)) hrec, hnext, ← hround]
      rfl
    · rw [if_neg fun h => h.elim (fun h => hstamped (hstamps.mpr h).2.1) hrec, hnext, ← hround]
      rfl

/-! ## The other callbacks -/

theorem bbrCwndEvent_round (s : BbrSock M) (event : CaEvent) (check restart : ℕ) (rand : U32) :
    (bbrCwndEvent k s event check restart rand).round = s.round := by
  unfold bbrCwndEvent
  split
  · simp only
    split
    · rw [bbrSetPacingRate_round]
      rfl
    · split
      · obtain ⟨c, stamp, cwnd, h, -⟩ := bbrCheckProbeRttDone_frame (bbrRestartIdle s) check restart rand
        rw [h]
        rfl
      · rfl
  · rfl

/-- A timeout marks a round, but neither counts it nor sets the mark. -/
theorem bbrSetState_round (s : BbrSock M) (newState : U8) (rand : U32) :
    ∃ start, (bbrSetState k s newState rand).round = { s.round with roundStart := start } := by
  unfold bbrSetState
  split
  · obtain ⟨l, c, h, -⟩ := bbrLtBwSampling_frame (k := k)
      { s with ca := { s.ca with prevCaState := tcpCaLoss.setWidth 3, fullBw := 0, roundStart := true } }
        lossSample rand
    rw [h]
    exact ⟨true, rfl⟩
  · exact ⟨s.ca.roundStart, rfl⟩

/-! ## Runs -/

/-- One action, on the connection and the number of packets delivered on it. For an ACK with a valid sample `x` is the
number when its packet was sent: at most `W` packets were delivered since then, and at most `G` since the last such
ACK. -/
def Gauged (k : Kernel M) (W G : ℕ) (s : BbrSock M × Gauge) (e : Action × ℕ) (s' : BbrSock M × Gauge) : Prop :=
  Acts k s.1 e.1 s'.1 ∧
    match e.1 with
    | .init _ => s'.2 = s.2.restart
    | .kernel tp => ∃ top, s.2.top ≤ top ∧ tp.delivered = BitVec.ofNat 32 top ∧ s'.2 = { s.2 with top := top }
    | .call (.main rs _ _) =>
      (¬ InvalidSample rs → rs.priorDelivered = BitVec.ofNat 32 e.2 ∧ Probed W G s.2 e.2) ∧
        s'.2 = if s'.1.ca.roundStart ∨ Stamps s.1 s'.1 ∨ Recovers s.1 rs.ackedSacked then s.2.restart
          else if InvalidSample rs then s.2 else s.2.probe
    | _ => s'.2 = s.2

/-- The rounds since `bbr_init`, and what had been delivered when the current one began. -/
structure RoundNote where
  rounds : ℕ
  began : ℕ
deriving Repr, DecidableEq

def noteRound (n : RoundNote) : Transition (BbrSock M × Gauge) (Action × ℕ) → RoundNote
  | (s, (.init _, _), _) => ⟨0, s.2.top⟩
  | (s, (.call (.main _ _ _), _), s') => if s'.1.ca.roundStart then ⟨n.rounds + 1, s.2.top⟩ else n
  | _ => n

/-- The fields of the rounds are the low words of the numbers. -/
structure Tracks (W : ℕ) (n : RoundNote) (r : Round) (g : Gauge) : Prop where
  kept : MarkKept W g
  delivered : r.delivered = BitVec.ofNat 32 g.top
  next : r.nextRttDelivered = BitVec.ofNat 32 g.mark
  cnt : r.rttCnt = BitVec.ofNat 32 n.rounds
  began : n.began ≤ g.mark

/-- **The test for a new round** is exact. -/
theorem Tracks.sampled_iff {W G : ℕ} (hfit : W + G < 2 ^ 31) {n : RoundNote} {r : Round} {g : Gauge}
    (h : Tracks W n r g)
    {rs : RateSample} {x : ℕ} (hx : ¬ InvalidSample rs → rs.priorDelivered = BitVec.ofNat 32 x ∧ Probed W G g x) :
    (r.sampled rs).roundStart = true ↔ ¬ InvalidSample rs ∧ g.mark ≤ x := by
  have hstart : (r.sampled rs).roundStart = true ↔
      ¬ InvalidSample rs ∧ before rs.priorDelivered r.nextRttDelivered = false := by
    unfold Round.sampled
    split
    · rename_i hstarts
      exact ⟨fun _ => hstarts, fun _ => rfl⟩
    · rename_i hnot
      exact ⟨fun h => (by cases h), fun h => absurd h hnot⟩
  rw [hstart]
  refine and_congr_right fun hvalid => ?_
  obtain ⟨hprior, hprobed⟩ := hx hvalid
  rw [before, decide_eq_false_iff_not, hprior, h.next, h.kept.toInt_sub (w := 31) hprobed hfit]
  omega

/-- An ACK keeps the words and the numbers together. -/
theorem bbrMain_tracks {W G : ℕ} (hfit : W + G < 2 ^ 31) {n : RoundNote} {s : BbrSock M} {g g' : Gauge} {x : ℕ}
    (h : Tracks W n s.round g) {rs : RateSample} {clk : Clock} {rands : Rands}
    (hcount : Gauged k W G (s, g) (.call (.main rs clk rands), x) (bbrMain k s rs clk rands, g')) :
    Tracks W (if (bbrMain k s rs clk rands).ca.roundStart then ⟨n.rounds + 1, g.top⟩ else n)
      (bbrMain k s rs clk rands).round g' := by
  obtain ⟨-, hx, hg⟩ := hcount
  dsimp only at hx hg
  have hround := bbrMain_round (k := k) s rs clk rands
  have hstart : (bbrMain k s rs clk rands).ca.roundStart = (s.round.sampled rs).roundStart :=
    congrArg Round.roundStart hround
  have hdelivered : s.tp.delivered = BitVec.ofNat 32 g.top := h.delivered
  rw [hround, hg, hstart]
  rcases Round.sampled_cases s.round rs with hsampled | hsampled
  · -- a new round
    have hnext : (if Stamps s (bbrMain k s rs clk rands) ∨ Recovers s rs.ackedSacked then s.tp.delivered
        else s.round.delivered) = BitVec.ofNat 32 g.top := by
      rw [h.delivered, hdelivered, ite_self]
    have hcnt : s.round.rttCnt + 1 = BitVec.ofNat 32 (n.rounds + 1) := by
      rw [h.cnt, BitVec.ofNat_add]
      rfl
    rw [hsampled, if_pos rfl, if_pos (Or.inl rfl), hnext]
    exact ⟨.restart W g, h.delivered, rfl, hcnt, le_rfl⟩
  · have hno : ¬ (¬ InvalidSample rs ∧ g.mark ≤ x) := by
      rw [← h.sampled_iff hfit hx, hsampled]
      exact Bool.false_ne_true
    rw [hsampled, if_neg Bool.false_ne_true]
    by_cases hmark : Stamps s (bbrMain k s rs clk rands) ∨ Recovers s rs.ackedSacked
    · rw [if_pos hmark, if_pos (Or.inr hmark)]
      exact ⟨.restart W g, h.delivered, hdelivered, h.cnt, h.began.trans h.kept.mark⟩
    · have hneither : ¬ (false = true ∨ Stamps s (bbrMain k s rs clk rands) ∨ Recovers s rs.ackedSacked) :=
        fun hor => hor.elim Bool.false_ne_true hmark
      rw [if_neg hmark, if_neg hneither]
      by_cases hinvalid : InvalidSample rs
      · rw [if_pos hinvalid]
        exact ⟨h.kept, h.delivered, h.next, h.cnt, h.began⟩
      · rw [if_neg hinvalid]
        have hbehind : x ≤ g.mark := (not_le.mp fun hle => hno ⟨hinvalid, hle⟩).le
        exact ⟨h.kept.probe (hx hinvalid).2 hbehind, h.delivered, h.next, h.cnt, h.began⟩

/-- **One action** keeps the words and the numbers together. -/
theorem gauged_tracks {W G : ℕ} (hfit : W + G < 2 ^ 31) {n : RoundNote} {s s' : BbrSock M × Gauge} {e : Action × ℕ}
    (h : Tracks W n s.1.round s.2) (hstep : Gauged k W G s e s') :
    Tracks W (noteRound n (s, e, s')) s'.1.round s'.2 := by
  obtain ⟨s, g⟩ := s
  obtain ⟨s', g'⟩ := s'
  obtain ⟨a, x⟩ := e
  obtain ⟨hacts, hcount⟩ := hstep
  dsimp only at h hacts hcount ⊢
  cases hacts
  cases a with
  | init now =>
    cases hcount
    exact ⟨.restart W g, h.delivered, h.delivered, rfl, le_rfl⟩
  | kernel tp =>
    obtain ⟨top, hle, htop, rfl⟩ := hcount
    exact ⟨h.kept.grow hle, htop, h.next, h.cnt, h.began⟩
  | call c =>
    cases c with
    | main rs clk rands => exact bbrMain_tracks hfit h ⟨rfl, hcount⟩
    | cwndEvent event check restart rand =>
      cases hcount
      have hround : (Action.run k s (.call (.cwndEvent event check restart rand))).round = s.round :=
        bbrCwndEvent_round s event check restart rand
      rw [hround]
      exact h
    | ssthresh =>
      cases hcount
      have hround : (bbrSaveCwnd s).round = s.round := by
        unfold bbrSaveCwnd
        split <;> rfl
      have hrun : (Action.run k s (.call .ssthresh)).round = s.round := hround
      rw [hrun]
      exact h
    | undoCwnd =>
      cases hcount
      exact h
    | setState newState rand =>
      cases hcount
      obtain ⟨start, hround⟩ := bbrSetState_round (k := k) s newState rand
      have hrun : (Action.run k s (.call (.setState newState rand))).round = _ := hround
      rw [hrun]
      exact ⟨h.kept, h.delivered, h.next, h.cnt, h.began⟩

/-- **The rounds of BBR.** In a run from `bbr_init` in which a flight and the packets delivered between two valid
samples fit together in `2^31`: an ACK starts a round exactly if its sample is valid and its packet was sent when what
was delivered had come to the mark, over the numbers and not their low words; its packet was then sent after the round
before it began; and `rtt_cnt` is the number of rounds since `bbr_init`, modulo `2^32`. -/
theorem rounds_exact {W G : ℕ} (hfit : W + G < 2 ^ 31) {s₀ : BbrSock M} {now : ℕ} {g₀ : Gauge}
    (hstart : s₀.tp.delivered = BitVec.ofNat 32 g₀.top) {s s' : BbrSock M × Gauge} {rs : RateSample} {clk : Clock}
    {rands : Rands} {x : ℕ} {tr : List (Transition (BbrSock M × Gauge) (Action × ℕ))}
    (hrun : Trace (Gauged k W G) (bbrInit k s₀ now, g₀.restart) tr s)
    (hstep : Gauged k W G s (.call (.main rs clk rands), x) s') :
    let n := history noteRound ⟨0, g₀.top⟩ tr
    (s'.1.ca.roundStart = true ↔ ¬ InvalidSample rs ∧ s.2.mark ≤ x) ∧
      (s'.1.ca.roundStart = true → n.began ≤ x) ∧ s.1.ca.rttCnt = BitVec.ofNat 32 n.rounds := by
  intro n
  have htracks : Tracks W n s.1.round s.2 :=
    hrun.history_invariant (J := fun n s => Tracks W n s.1.round s.2) (fun _ _ _ _ h hs => gauged_tracks hfit h hs) _
      ⟨.restart W g₀, hstart, hstart, rfl, le_rfl⟩
  have hmain : bbrMain k s.1 rs clk rands = s'.1 := hstep.1
  have hround : s'.1.ca.roundStart = (s.1.round.sampled rs).roundStart := by
    rw [← hmain]
    exact congrArg Round.roundStart (bbrMain_round s.1 rs clk rands)
  have hiff : s'.1.ca.roundStart = true ↔ ¬ InvalidSample rs ∧ s.2.mark ≤ x := by
    rw [hround]
    exact htracks.sampled_iff hfit hstep.2.1
  exact ⟨hiff, fun h => htracks.began.trans (hiff.mp h).2, htracks.cnt⟩

/-- The first ACK after `bbr_init`, at 20 delivered packets, starts a round; ten packets later an ACK for a packet sent
at 15 does not. -/
theorem rounds_exact_two :
    let sample (prior : U32) : RateSample := ⟨prior, 10, 1000, 1000, 0, 10, 10, false, false⟩
    let ack (prior : U32) : Callback := .main (sample prior) ⟨1001, 1001, 1001, 1001, 1001⟩ ⟨0, 0, 0⟩
    let s₀ := bbrInit plainKernel (plainSock 10 10) 1000
    ∃ s₁ s₂ s₃ g₃, Gauged plainKernel 15 10 (s₀, ⟨20, 20, 20⟩) (.call (ack 20), 20) (s₁, ⟨20, 20, 20⟩) ∧
      Gauged plainKernel 15 10 (s₁, ⟨20, 20, 20⟩) (.kernel s₂.tp, 0) (s₂, ⟨30, 20, 20⟩) ∧
      Gauged plainKernel 15 10 (s₂, ⟨30, 20, 20⟩) (.call (ack 15), 15) (s₃, g₃) ∧
      s₁.ca.roundStart = true ∧ s₃.ca.roundStart = false ∧ s₂.ca.rttCnt = 1 := by
  intro sample ack s₀
  obtain ⟨s₁, hs₁⟩ : ∃ s₁, (ack 20).run plainKernel s₀ = s₁ := ⟨_, rfl⟩
  let tp : BbrTcp := { s₁.tp with delivered := 30 }
  obtain ⟨s₃, hs₃⟩ : ∃ s₃, (ack 15).run plainKernel ⟨tp, s₁.ca⟩ = s₃ := ⟨_, rfl⟩
  have hround : s₁.ca.roundStart = true := by rw [← hs₁]; decide +kernel
  have hprobed : Probed 15 10 ⟨20, 20, 20⟩ 20 := ⟨by decide, by decide, by decide⟩
  have hprobed' : Probed 15 10 ⟨30, 20, 20⟩ 15 := ⟨by decide, by decide, by decide⟩
  have hfirst : Gauged plainKernel 15 10 (s₀, ⟨20, 20, 20⟩) (.call (ack 20), 20) (s₁, ⟨20, 20, 20⟩) :=
    ⟨hs₁, fun _ => ⟨rfl, hprobed⟩, (if_pos (Or.inl hround)).symm⟩
  have hkernel : Gauged plainKernel 15 10 (s₁, ⟨20, 20, 20⟩) (.kernel tp, 0) (⟨tp, s₁.ca⟩, ⟨30, 20, 20⟩) :=
    ⟨rfl, 30, Nat.le_add_right 20 10, rfl, rfl⟩
  let g₃ : Gauge :=
    if s₃.ca.roundStart ∨ Stamps ⟨tp, s₁.ca⟩ s₃ ∨ Recovers ⟨tp, s₁.ca⟩ 10 then Gauge.restart ⟨30, 20, 20⟩
    else if InvalidSample (sample 15) then ⟨30, 20, 20⟩ else Gauge.probe ⟨30, 20, 20⟩
  have hlast : Gauged plainKernel 15 10 (⟨tp, s₁.ca⟩, ⟨30, 20, 20⟩) (.call (ack 15), 15) (s₃, g₃) :=
    ⟨hs₃, fun _ => ⟨rfl, hprobed'⟩, rfl⟩
  let g₀ : Gauge := ⟨20, 20, 20⟩
  have hstart : (plainSock 10 10).tp.delivered = BitVec.ofNat 32 g₀.top := rfl
  have hexact := rounds_exact (by decide) hstart (.cons hfirst (.cons hkernel (.nil _))) hlast
  refine ⟨s₁, ⟨tp, s₁.ca⟩, s₃, g₃, hfirst, hkernel, hlast, hround, ?_, ?_⟩
  · refine Bool.eq_false_iff.mpr fun h => ?_
    have hlate : (20 : ℕ) ≤ 15 := (hexact.1.mp h).2
    omega
  · have hcnt : s₁.ca.rttCnt =
        BitVec.ofNat 32 (if s₁.ca.roundStart then (⟨1, 20⟩ : RoundNote) else ⟨0, 20⟩).rounds := hexact.2.2
    rw [hcnt, if_pos hround]
    rfl

end CoupledCC.Bbr
