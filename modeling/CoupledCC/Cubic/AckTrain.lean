import CoupledCC.Cubic.Runs

/-!
# The ACK-train detector of HyStart

`hystart_update` takes an ACK for one of a train when it comes at most 2 ms after `last_ack`, and ends slow start when
the train has lasted longer than a threshold. Both time stamps are the low 32 bits of the clock of the socket, which
never goes back. An observer notes the instants themselves (`noteStamps`).

- `hystartTrain_spec`: one call of the detector;
- `Stamped`: the time stamps are those of the noted instants;
- `ack_train_iff`: so a train is what it should be, unless more than half of the range of the stamps has passed.
-/

namespace CoupledCC.Cubic

open Word Runs

/-- The clock of the socket does not go back. -/
def ClockOk (s : CubicSock) : Action → Prop
  | .kernel tp => s.tp.tcpMstamp.toNat ≤ tp.tcpMstamp.toNat
  | _ => True

instance (s : CubicSock) (a : Action) : Decidable (ClockOk s a) := by
  unfold ClockOk
  split <;> infer_instance

/-- An ACK of a train, as the code sees it. -/
def InTrain (s : CubicSock) : Prop :=
  (bictcpClockUs s.tp - s.ca.lastAck).toInt ≤ hystartAckDeltaUs

instance (s : CubicSock) : Decidable (InTrain s) := by
  unfold InTrain
  infer_instance

/-- The ACK-train branch of a call of `hystart_update` ends slow start. -/
def TrainFires (s : CubicSock) : Prop :=
  ∃ s', hystartTrain s = some s' ∧ s'.ca.found = 1 ∧ s'.tp.sndSsthresh = s.tp.sndCwnd

/-- The length a train has to exceed: the minimum delay and the allowance, halved without pacing. -/
def trainThreshold (s : CubicSock) (allowance : U32) : ℕ :=
  if s.tp.skPacingStatus = skPacingNone then (s.ca.delayMin.toNat + allowance.toNat) / 2
  else s.ca.delayMin.toNat + allowance.toNat

/-! ## One call of the detector -/

/-- The allowance is at most a millisecond. -/
theorem hystartAckDelay_le {tp : TcpSock} {allowance : U32} (h : hystartAckDelay tp = some allowance) :
    allowance.toNat ≤ 1000 := by
  unfold hystartAckDelay at h
  split at h
  · cases h
    decide
  · obtain ⟨d, -, rfl⟩ := Option.map_eq_some_iff.mp h
    have hcap : (umin usecPerMsec d).toNat ≤ 1000 := by
      rw [toNat_umin]
      exact min_le_left _ _
    rw [BitVec.toNat_setWidth, Nat.mod_eq_of_lt (by omega)]
    exact hcap

/-- The threshold of the code does not wrap. -/
theorem toNat_trainThreshold {s : CubicSock} {allowance : U32} (hmin : s.ca.delayMin.toNat < 2 ^ 31)
    (hallow : allowance.toNat ≤ 1000) :
    (if s.tp.skPacingStatus = skPacingNone then (s.ca.delayMin + allowance) >>> 1
      else s.ca.delayMin + allowance).toNat = trainThreshold s allowance := by
  have hsum : (s.ca.delayMin + allowance).toNat = s.ca.delayMin.toNat + allowance.toNat :=
    BitVec.toNat_add_of_lt (by omega)
  unfold trainThreshold
  split
  · rw [BitVec.toNat_ushiftRight, hsum, Nat.shiftRight_eq_div_pow, Nat.pow_one]
  · exact hsum

/-- **One call of the detector** in slow start: it stores the time of an ACK of a train, and fires on such an ACK if the
stamps of the round are farther apart than the threshold. -/
theorem hystartTrain_spec {s s' : CubicSock} (h : hystartTrain s = some s') (hmin : s.ca.delayMin.toNat < 2 ^ 31)
    (hfound : s.ca.found = 0) :
    s'.ca.lastAck = (if InTrain s then bictcpClockUs s.tp else s.ca.lastAck) ∧ s'.ca.roundStart = s.ca.roundStart ∧
      s'.tp.tcpMstamp = s.tp.tcpMstamp ∧ (s'.ca.found = 1 → InTrain s ∧ ∃ allowance,
        hystartAckDelay s.tp = some allowance ∧
          trainThreshold s allowance < (bictcpClockUs s.tp - s.ca.roundStart).toNat) := by
  unfold hystartTrain at h
  simp only at h
  split at h
  · rename_i htrain
    obtain ⟨allowance, hallow, rfl⟩ := Option.map_eq_some_iff.mp h
    have hthreshold := toNat_trainThreshold hmin (hystartAckDelay_le hallow)
    have htrain' : InTrain s := htrain
    generalize (if s.tp.skPacingStatus = skPacingNone then _ else _ : U32) = threshold at hthreshold ⊢
    rw [if_pos htrain']
    split
    · rename_i hfires
      refine ⟨rfl, rfl, rfl, fun _ => ⟨htrain', allowance, hallow, ?_⟩⟩
      rw [← hthreshold]
      exact hfires
    · refine ⟨rfl, rfl, rfl, fun hone => ?_⟩
      have hone' : s.ca.found = 1 := hone
      rw [hfound] at hone'
      exact absurd hone' (by decide)
  · rename_i htrain
    have htrain' : ¬ InTrain s := htrain
    cases h
    rw [if_neg htrain']
    refine ⟨rfl, rfl, rfl, fun hone => ?_⟩
    rw [hfound] at hone
    exact absurd hone (by decide)

/-- The delay branch leaves the stamps alone. -/
theorem hystartDelaySample_stamps (s : CubicSock) (delay : U32) :
    (hystartDelaySample s delay).ca.lastAck = s.ca.lastAck ∧
      (hystartDelaySample s delay).ca.roundStart = s.ca.roundStart ∧
      (hystartDelaySample s delay).ca.delayMin = s.ca.delayMin ∧
      (hystartDelaySample s delay).tp.tcpMstamp = s.tp.tcpMstamp := by
  unfold hystartDelaySample
  split
  · exact ⟨rfl, rfl, rfl, rfl⟩
  · split <;> exact ⟨rfl, rfl, rfl, rfl⟩

/-! ## The stamps over a run -/

/-- The instants last stored in `last_ack` and in `round_start`. -/
structure Stamps where
  lastAck : ℕ
  roundStart : ℕ
deriving Repr, DecidableEq

/-- Both instants are the present one: a round starts. -/
def Stamps.now (tp : TcpSock) : Stamps :=
  ⟨tp.tcpMstamp.toNat, tp.tcpMstamp.toNat⟩

def noteStamps (cfg : Config) (n : Stamps) : Transition CubicSock Action → Stamps
  | (s, .init, _) => .now s.tp
  | (s, .call (.congAvoid ack _ _), _) => if hystartResets s ack then .now s.tp else n
  | (s, .call (.state newState), _) => if newState = tcpCaLoss then .now s.tp else n
  | (s, .call (.acked rttUs now), _) =>
    match hystartCall cfg s rttUs now with
    | some (s₁, _) => if InTrain s₁ then { n with lastAck := s₁.tp.tcpMstamp.toNat } else n
    | none => n
  | _ => n

/-- The stamps of the state are those of the noted instants. -/
structure Stamped (n : Stamps) (s : CubicSock) : Prop where
  delayMin : s.ca.delayMin.toNat < 2 ^ 31
  lastAck : s.ca.lastAck = BitVec.ofNat 32 n.lastAck
  roundStart : s.ca.roundStart = BitVec.ofNat 32 n.roundStart
  lastAckPast : n.lastAck ≤ s.tp.tcpMstamp.toNat
  roundStartPast : n.roundStart ≤ s.tp.tcpMstamp.toNat

theorem bictcpClockUs_eq (tp : TcpSock) : bictcpClockUs tp = BitVec.ofNat 32 tp.tcpMstamp.toNat := by
  unfold bictcpClockUs
  rw [← BitVec.ofNat_toNat]

/-- A round that starts now. -/
theorem stamped_reset {s : CubicSock} (h : s.ca.delayMin.toNat < 2 ^ 31) : Stamped (.now s.tp) (bictcpHystartReset s) :=
  ⟨h, bictcpClockUs_eq s.tp, bictcpClockUs_eq s.tp, le_refl _, le_refl _⟩

/-- The stamps depend on HyStart and on the clock. -/
theorem Stamped.of_round {n : Stamps} {s s' : CubicSock} (h : Stamped n s) (hround : s'.ca.round = s.ca.round)
    (hclock : s.tp.tcpMstamp.toNat ≤ s'.tp.tcpMstamp.toNat) : Stamped n s' := by
  simp only [Bictcp.round, Round.mk.injEq] at hround
  obtain ⟨hmin, -, -, hstart, -, hack, -⟩ := hround
  exact ⟨by rw [hmin]; exact h.delayMin, by rw [hack]; exact h.lastAck, by rw [hstart]; exact h.roundStart,
    h.lastAckPast.trans hclock, h.roundStartPast.trans hclock⟩

/-- A call of `hystart_update`. -/
theorem Stamped.update {n : Stamps} {s s' : CubicSock} {delay : U32} (h : Stamped n s) (hfound : s.ca.found = 0)
    (hrun : hystartUpdate s delay = some s') :
    Stamped (if InTrain s then { n with lastAck := s.tp.tcpMstamp.toNat } else n) s' := by
  obtain ⟨s₁, htrain, rfl⟩ := hystartUpdate_branches hrun
  obtain ⟨hack₁, hstart₁, hclock₁, -⟩ := hystartTrain_spec htrain h.delayMin hfound
  obtain ⟨hack, hstart, hmin, hclock⟩ := hystartDelaySample_stamps s₁ delay
  have hmin₁ := (hystartTrain_frame htrain).2.2.1
  have hlastAck := h.lastAck
  have hroundStart := h.roundStart
  have hlastAckPast := h.lastAckPast
  have hroundStartPast := h.roundStartPast
  refine ⟨?_, ?_, ?_, ?_, ?_⟩
  · rw [hmin, hmin₁]
    exact h.delayMin
  · rw [hack, hack₁]
    split
    · exact bictcpClockUs_eq s.tp
    · exact hlastAck
  · rw [hstart, hstart₁, hroundStart]
    split <;> rfl
  · rw [hclock, hclock₁]
    split
    · exact le_refl _
    · exact hlastAckPast
  · rw [hclock, hclock₁]
    split <;> exact hroundStartPast

/-- `cubictcp_cong_avoid` does not write the clock. -/
theorem cubictcpCongAvoid_tcpMstamp {cfg : Config} {s s' : CubicSock} {ack acked : U32} {clk : Jiffies}
    (h : cubictcpCongAvoid cfg s ack acked clk = some s') : s'.tp.tcpMstamp = s.tp.tcpMstamp := by
  have hreset (s₁ : CubicSock) :
      (if hystart && after ack s₁.ca.endSeq then bictcpHystartReset s₁ else s₁).tp = s₁.tp := by
    split <;> rfl
  obtain ⟨⟨s₂, call⟩, hcall, h⟩ := Option.bind_eq_some_iff.mp h
  have hupdate (s₁ : CubicSock) (left : U32) (hrun : cubictcpUpdateCall cfg s₁ left clk = some (s₂, call)) :
      s₂.tp = s₁.tp := by
    obtain ⟨ca, -, heq⟩ := Option.map_eq_some_iff.mp hrun
    cases heq
    rfl
  have hclock : s₂.tp.tcpMstamp = s.tp.tcpMstamp := by
    unfold cubictcpAiCall at hcall
    split at hcall
    · cases hcall
      rfl
    · split at hcall
      · simp only at hcall
        split at hcall
        · cases hcall
          simp only [cubictcpSlowStart, tcpSlowStart, hreset]
        · rw [hupdate _ _ hcall]
          simp only [cubictcpSlowStart, tcpSlowStart, hreset]
      · rw [hupdate _ _ hcall]
  cases call with
  | none =>
    cases h
    exact hclock
  | some left =>
    obtain ⟨tp, hai, rfl⟩ := Option.map_eq_some_iff.mp h
    simp only
    rw [tcpCongAvoidAi_frame hai]
    exact hclock

/-- **One action.** -/
theorem stamped_step {cfg : Config} (n : Stamps) (s : CubicSock) (a : Action) (s' : CubicSock) (h : Stamped n s)
    (hstep : Acts cfg s a s' ∧ ClockOk s a) : Stamped (noteStamps cfg n (s, a, s')) s' := by
  obtain ⟨hrun, hclock⟩ := hstep
  unfold Acts at hrun
  cases a with
  | init =>
    cases hrun
    exact stamped_reset (s := { s with ca := bictcpReset s.ca }) (bictcpReset_delayMin s.ca)
  | kernel tp =>
    cases hrun
    exact h.of_round rfl hclock
  | call c =>
    cases c with
    | congAvoid ack acked clk =>
      have hround := cubictcpCongAvoid_round hrun
      have hsame := cubictcpCongAvoid_tcpMstamp hrun
      simp only [noteStamps]
      split
      · rename_i hreset
        rw [if_pos hreset] at hround
        exact (stamped_reset h.delayMin).of_round hround (by rw [hsame]; rfl)
      · rename_i hreset
        rw [if_neg hreset] at hround
        exact h.of_round hround (by rw [hsame])
    | recalcSsthresh =>
      cases hrun
      exact h.of_round rfl (le_refl _)
    | state newState =>
      cases hrun
      simp only [noteStamps, cubictcpState]
      split
      · exact stamped_reset (s := { s with ca := bictcpReset s.ca }) (bictcpReset_delayMin s.ca)
      · exact h
    | cwndEvent event now =>
      cases hrun
      obtain ⟨start, hframe⟩ := cubictcpCwndEvent_frame s event now
      rw [hframe]
      exact h.of_round rfl (le_refl _)
    | acked rttUs now =>
      rcases cubictcpAcked_call hrun h.delayMin with ⟨s₁, delay, hcall, hupdate⟩ | ⟨hcall, delayMin, hmin, rfl⟩
      · simp only [noteStamps, hcall]
        obtain ⟨hfound, delayMin, hmin, rfl⟩ := hystartCall_spec hcall h.delayMin
        have hstart : Stamped n { s with ca := { s.ca with delayMin := delayMin } } :=
          ⟨hmin, h.lastAck, h.roundStart, h.lastAckPast, h.roundStartPast⟩
        exact hstart.update hfound hupdate
      · simp only [noteStamps, hcall]
        exact ⟨hmin, h.lastAck, h.roundStart, h.lastAckPast, h.roundStartPast⟩

/-! ## Trains in real time -/

/-- What the detector should have seen: the ACK came at most 2 ms after the instant stored in `last_ack`, and the round
has lasted longer than the threshold. -/
def RealTrain (n : Stamps) (s : CubicSock) : Prop :=
  s.tp.tcpMstamp.toNat - n.lastAck ≤ 2000 ∧ ∃ allowance, hystartAckDelay s.tp = some allowance ∧
    trainThreshold s allowance < s.tp.tcpMstamp.toNat - n.roundStart

/-- The stamps of the round are at most as far apart as its instants. -/
theorem stamps_le {now earlier : ℕ} (h : earlier ≤ now) :
    (BitVec.ofNat 32 now - BitVec.ofNat 32 earlier).toNat ≤ now - earlier := by
  obtain ⟨d, rfl⟩ := Nat.exists_eq_add_of_le h
  rw [Nat.add_comm, BitVec.ofNat_add, BitVec.add_sub_cancel, BitVec.toNat_ofNat, Nat.add_sub_cancel]
  exact Nat.mod_le _ _

/-- **When the ACK-train detector measures real time.** In a run from `cubictcp_init`, a call of `hystart_update` that
ends slow start by its ACK-train branch has seen such a train if and only if less than `2^31` microseconds have passed
since the instant stored in `last_ack`. -/
theorem ack_train_iff {cfg : Config} {s₀ s : CubicSock} {tr : List (Transition CubicSock Action)}
    (hrun : Trace (fun s a s' => Acts cfg s a s' ∧ ClockOk s a) (cubictcpInit s₀) tr s) {rttUs now delay : U32}
    {s₁ : CubicSock} (hcall : hystartCall cfg s rttUs now = some (s₁, delay)) (hfires : TrainFires s₁) :
    RealTrain (history (noteStamps cfg) (.now s₀.tp) tr) s₁ ↔
      s₁.tp.tcpMstamp.toNat - (history (noteStamps cfg) (.now s₀.tp) tr).lastAck < 2 ^ 31 := by
  have hinv := hrun.history_invariant stamped_step (.now s₀.tp)
    (stamped_reset (s := { s₀ with ca := bictcpReset s₀.ca }) (bictcpReset_delayMin s₀.ca))
  generalize history (noteStamps cfg) (.now s₀.tp) tr = n at hinv ⊢
  obtain ⟨hfound, delayMin, hmin, rfl⟩ := hystartCall_spec hcall hinv.delayMin
  obtain ⟨s', htrain, hone, -⟩ := hfires
  obtain ⟨-, -, -, hsees⟩ := hystartTrain_spec htrain hmin hfound
  obtain ⟨hack, allowance, hallow, hround⟩ := hsees hone
  have hlastAckPast := hinv.lastAckPast
  unfold InTrain at hack
  simp only [bictcpClockUs_eq, hinv.lastAck, hinv.roundStart] at hack hround
  constructor
  · rintro ⟨hreal, -⟩
    simp only at hreal ⊢
    omega
  · intro hspan
    simp only at hspan
    refine ⟨?_, allowance, hallow, hround.trans_le (stamps_le hinv.roundStartPast)⟩
    rw [toInt_sub_ofNat (by omega) (by omega), hystartAckDeltaUs] at hack
    simp only
    omega

/-- A minimum of 1 ms, and another ACK 1.5 ms after the round began: the call fires, within a train of 1.5 ms. -/
theorem ack_train_iff_short :
    let cfg : Config := ⟨1000, 717, 15, by decide⟩
    let tp : TcpSock := ⟨20, 0, 100, 1000, 0, 100, true, 0, 0, 0, 0, 0, 0⟩
    let s₀ : CubicSock := ⟨tp, ⟨0, 0, 0, 0, 0, 0, 0, 0, 0, 0, 0, 0, 0, 0, 0, 0⟩⟩
    let s₁ : CubicSock := ⟨{ tp with tcpMstamp := 1500 }, ⟨0, 0, 0, 0, 0, 0, 1000, 0, 0, 0, 1, 0, 0, 0, 0, 1000⟩⟩
    ∃ tr s, Trace (Acts cfg) (cubictcpInit s₀) tr s ∧ hystartCall cfg s 1000 0 = some (s₁, 1000) ∧ TrainFires s₁ ∧
      RealTrain (history (noteStamps cfg) (.now s₀.tp) tr) s₁ := by
  intro cfg tp s₀ s₁
  let next (s : CubicSock) (a : Action) : Option CubicSock := if ClockOk s a then a.run cfg s else none
  have hrun : (transitions next (cubictcpInit s₀) [.call (.acked 1000 0), .kernel { tp with tcpMstamp := 1500 }]).map
      (fun p => (hystartCall cfg p.2 1000 0, history (noteStamps cfg) (.now s₀.tp) p.1)) =
        some (some (s₁, 1000), ⟨0, 0⟩) := by decide
  obtain ⟨⟨tr, s⟩, htr, hends⟩ := Option.map_eq_some_iff.mp hrun
  obtain ⟨hcall, hnote⟩ := Prod.mk.inj hends
  have hgood : Trace (fun s a s' => Acts cfg s a s' ∧ ClockOk s a) (cubictcpInit s₀) tr s := Trace.of_guarded htr
  have hfires : TrainFires s₁ := ⟨hystartFound { s₁ with ca := { s₁.ca with lastAck := 1500 } }, by decide, rfl, rfl⟩
  refine ⟨tr, s, hgood.mono fun _ _ _ h => h.1, hcall, hfires, (ack_train_iff hgood hcall hfires).mpr ?_⟩
  simp only at hnote
  rw [hnote]
  decide

/-- The same connection, idle for 36 minutes: the signed difference of the stamps is negative, so the first ACK is taken
for one of a train, and slow start ends. -/
theorem ack_train_idle :
    let cfg : Config := ⟨1000, 717, 15, by decide⟩
    let tp : TcpSock := ⟨20, 0, 100, 1000, 0, 100, true, 0, 0, 0, 0, 0, 0⟩
    let s₀ : CubicSock := ⟨tp, ⟨0, 0, 0, 0, 0, 0, 0, 0, 0, 0, 0, 0, 0, 0, 0, 0⟩⟩
    let s₁ : CubicSock := ⟨{ tp with tcpMstamp := 2160000000 }, ⟨0, 0, 0, 0, 0, 0, 1000, 0, 0, 0, 1, 0, 0, 0, 0, 1000⟩⟩
    ∃ tr s, Trace (fun s a s' => Acts cfg s a s' ∧ ClockOk s a) (cubictcpInit s₀) tr s ∧
      hystartCall cfg s 1000 0 = some (s₁, 1000) ∧ TrainFires s₁ ∧
      ¬ RealTrain (history (noteStamps cfg) (.now s₀.tp) tr) s₁ := by
  intro cfg tp s₀ s₁
  let next (s : CubicSock) (a : Action) : Option CubicSock := if ClockOk s a then a.run cfg s else none
  have hrun : (transitions next (cubictcpInit s₀)
    [.call (.acked 1000 0), .kernel { tp with tcpMstamp := 2160000000 }]).map
      (fun p => (hystartCall cfg p.2 1000 0, history (noteStamps cfg) (.now s₀.tp) p.1)) =
        some (some (s₁, 1000), ⟨0, 0⟩) := by decide
  obtain ⟨⟨tr, s⟩, htr, hends⟩ := Option.map_eq_some_iff.mp hrun
  obtain ⟨hcall, hnote⟩ := Prod.mk.inj hends
  have hfires : TrainFires s₁ :=
    ⟨hystartFound { s₁ with ca := { s₁.ca with lastAck := 2160000000 } }, by decide, rfl, rfl⟩
  refine ⟨tr, s, Trace.of_guarded htr, hcall, hfires, ?_⟩
  rintro ⟨hreal, -⟩
  simp only at hnote
  rw [hnote] at hreal
  revert hreal
  decide

end CoupledCC.Cubic
