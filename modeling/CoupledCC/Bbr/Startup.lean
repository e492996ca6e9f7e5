import CoupledCC.Bbr.Frame

/-!
# The pacing rate of BBR

Until the pipe is full `bbr_set_pacing_rate` only raises the pacing rate, but the first RTT replaces the nominal one it
began with. An observer counts how often a callback lowered it before the pipe was full (`noteFalls`).

- `bbrMain_pacing`: the rate after an ACK, against the one its model asks for (`targetRate`);
- `startup_pacing`: between `bbr_init` and a full pipe the rate falls at most once, with the first RTT.
-/

namespace CoupledCC.Bbr

open Word Runs

variable {M : Type} {k : Kernel M}

/-- The rate that the model and the gain ask for. -/
def targetRate (k : Kernel M) (s : BbrSock M) : U64 :=
  bbrBwToPacingRate s.tp (bbrBw k s) (s.ca.pacingGain.setWidth 64)

/-- The rate, and whether an RTT has been seen. -/
structure Pace where
  rate : U64
  hasSeenRtt : Bool
deriving Repr, DecidableEq

def BbrSock.pace (s : BbrSock M) : Pace :=
  ⟨s.tp.skPacingRate, s.ca.hasSeenRtt⟩

/-! ## Setting the rate -/

/-- The first RTT has come, and the nominal rate is replaced. -/
def SeesRtt (s : BbrSock M) : Prop :=
  s.ca.hasSeenRtt = false ∧ s.tp.srttUs ≠ 0

instance (s : BbrSock M) : Decidable (SeesRtt s) :=
  inferInstanceAs (Decidable (s.ca.hasSeenRtt = false ∧ s.tp.srttUs ≠ 0))

/-- What `bbr_set_pacing_rate` does. -/
structure SetsRate (s : BbrSock M) (rate : U64) (s' : BbrSock M) : Prop where
  full : s.ca.fullBwReached = true → s'.tp.skPacingRate = rate
  reaches : s.ca.fullBwReached = false → rate ≤ s'.tp.skPacingRate
  keeps : s.ca.fullBwReached = false → ¬ SeesRtt s → s.tp.skPacingRate ≤ s'.tp.skPacingRate
  sees : s'.ca.hasSeenRtt = (s.ca.hasSeenRtt || decide (SeesRtt s))

theorem bbrInitPacingRateFromRtt_seen {s : BbrSock M} (h : s.tp.srttUs ≠ 0) :
    (bbrInitPacingRateFromRtt s).ca.hasSeenRtt = true ∧
      (bbrInitPacingRateFromRtt s).ca.fullBwReached = s.ca.fullBwReached := by
  unfold bbrInitPacingRateFromRtt
  exact ⟨if_pos h, rfl⟩

theorem bbrSetPacingRate_sets (s : BbrSock M) (bw : U32) (gain : U64) :
    SetsRate s (bbrBwToPacingRate s.tp bw gain) (bbrSetPacingRate s bw gain) := by
  obtain ⟨s₁, hs₁, hfull, hseen, hrate⟩ : ∃ s₁, s₁ = (if SeesRtt s then bbrInitPacingRateFromRtt s else s) ∧
      s₁.ca.fullBwReached = s.ca.fullBwReached ∧ s₁.ca.hasSeenRtt = (s.ca.hasSeenRtt || decide (SeesRtt s)) ∧
      (¬ SeesRtt s → s₁.tp.skPacingRate = s.tp.skPacingRate) := by
    refine ⟨_, rfl, ?_⟩
    split
    · rename_i hsees
      obtain ⟨hseen, hsame⟩ := bbrInitPacingRateFromRtt_seen hsees.2
      refine ⟨hsame, ?_, fun h => absurd hsees h⟩
      rw [hseen, decide_eq_true hsees, Bool.or_true]
    · rename_i hno
      exact ⟨rfl, by rw [decide_eq_false hno, Bool.or_false], fun _ => rfl⟩
  have hset : bbrSetPacingRate s bw gain =
      if s₁.ca.fullBwReached ∨ s₁.tp.skPacingRate < bbrBwToPacingRate s.tp bw gain then
        { s₁ with tp := { s₁.tp with skPacingRate := bbrBwToPacingRate s.tp bw gain } }
      else s₁ := by
    have hsplit : (if s.ca.hasSeenRtt = false ∧ s.tp.srttUs ≠ 0 then bbrInitPacingRateFromRtt s else s) = s₁ := hs₁.symm
    unfold bbrSetPacingRate
    simp only [hsplit]
  rw [hset]
  split
  · rename_i hraise
    refine ⟨fun _ => rfl, fun _ => BitVec.le_refl _, fun hnot hno => ?_, hseen⟩
    rw [← hrate hno]
    rcases hraise with hreached | hlt
    · rw [hfull, hnot] at hreached
      cases hreached
    · exact BitVec.le_of_lt hlt
  · rename_i hno
    obtain ⟨hreached, hle⟩ := not_or.mp hno
    refine ⟨fun hyes => absurd (hfull.trans hyes) hreached, fun _ => BitVec.not_lt.mp hle, fun _ hsees => ?_, hseen⟩
    rw [hrate hsees]
    exact BitVec.le_refl _

/-! ## What the other functions leave alone -/

/-- An ACK up to `BBR_PROBE_RTT`. -/
theorem bbrAtProbeRtt_pace (s : BbrSock M) (rs : RateSample) (clk : Clock) (rands : Rands) :
    (bbrAtProbeRtt k s rs clk rands).pace = s.pace := by
  obtain ⟨e, c, fullBw, cnt, reached, ssthresh, rtt, stamp, prior, done, h⟩ :=
    bbrAtProbeRtt_frame (k := k) s rs clk rands
  obtain ⟨next, rounds, start, l, c', bw, hbw⟩ := bbrUpdateBw_frame (k := k) s rs rands.sampling
  rw [h, hbw]
  rfl

theorem bbrInProbeRtt_pace (s : BbrSock M) (clk : Clock) (rand : U32) : (bbrInProbeRtt k s clk rand).pace = s.pace := by
  obtain ⟨c, cwnd, limited, rttStamp, doneStamp, roundDone, next, h, -⟩ := bbrInProbeRtt_frame (k := k) s clk rand
  rw [h]
  rfl

/-! ## An ACK -/

/-- **The rate after an ACK**: with a full pipe the one that the model asks for, before at least that, and no less than
it was unless the first RTT has come. -/
theorem bbrMain_pacing (s : BbrSock M) (rs : RateSample) (clk : Clock) (rands : Rands) :
    ∃ s₁ : BbrSock M, s₁.pace = s.pace ∧ s₁.ca.fullBwReached = (bbrMain k s rs clk rands).ca.fullBwReached ∧
      SetsRate s₁ (targetRate k (bbrMain k s rs clk rands)) (bbrMain k s rs clk rands) := by
  set s₀ := bbrInProbeRtt k (bbrAtProbeRtt k s rs clk rands) clk rands.probeRtt with hs₀
  have hpace : s₀.pace = s.pace := by rw [hs₀, bbrInProbeRtt_pace, bbrAtProbeRtt_pace]
  have hmain : bbrMain k s rs clk rands = bbrAfterProbeRtt k s₀ rs := by rw [hs₀, bbrMain_eq]
  obtain ⟨idle, hidle⟩ : ∃ idle, bbrEndIdleRestart s₀ rs = { s₀ with ca := { s₀.ca with idleRestart := idle } } := by
    unfold bbrEndIdleRestart
    split
    · exact ⟨false, rfl⟩
    · exact ⟨s₀.ca.idleRestart, rfl⟩
  obtain ⟨s₁, hs₁⟩ : ∃ s₁, s₁ = bbrUpdateGains (bbrEndIdleRestart s₀ rs) := ⟨_, rfl⟩
  have hpace₁ : s₁.pace = s.pace := by
    rw [hs₁, hidle, ← hpace]
    rfl
  have hsets := bbrSetPacingRate_sets s₁ (bbrBw k s₁) (s₁.ca.pacingGain.setWidth 64)
  obtain ⟨rate, seen, hpacing⟩ := bbrSetPacingRate_frame s₁ (bbrBw k s₁) (s₁.ca.pacingGain.setWidth 64)
  obtain ⟨s₂, hs₂⟩ : ∃ s₂, s₂ = bbrSetPacingRate s₁ (bbrBw k s₁) (s₁.ca.pacingGain.setWidth 64) := ⟨_, rfl⟩
  obtain ⟨cwnd, conservation, next, prev, hset, -⟩ := bbrSetCwnd_frame (k := k) s₂ rs rs.ackedSacked (bbrBw k s₁)
    (s₂.ca.cwndGain.setWidth 64)
  have hafter : bbrAfterProbeRtt k s₀ rs =
      bbrSetCwnd k s₂ rs rs.ackedSacked (bbrBw k s₁) (s₂.ca.cwndGain.setWidth 64) := by
    rw [bbrAfterProbeRtt, hs₂, hs₁]
  rw [← hs₂] at hsets hpacing
  rw [hmain, hafter, hset]
  rw [hpacing] at hsets ⊢
  exact ⟨s₁, hpace₁, rfl, hsets.full, hsets.reaches, hsets.keeps, hsets.sees⟩

/-! ## The other callbacks -/

/-- The pipe is not full, and the rate is lower than before. -/
def Falls (s s' : BbrSock M) : Prop :=
  s'.ca.fullBwReached = false ∧ s'.tp.skPacingRate < s.tp.skPacingRate

instance (s s' : BbrSock M) : Decidable (Falls s s') :=
  inferInstanceAs (Decidable (_ ∧ _))

/-- What a callback can do about the rate. -/
structure Paces (s s' : BbrSock M) : Prop where
  stays : s.ca.hasSeenRtt = true → s'.ca.hasSeenRtt = true
  falls : Falls s s' → s.ca.hasSeenRtt = false ∧ s'.ca.hasSeenRtt = true

theorem Paces.of_pace {s s' : BbrSock M} (h : s'.pace = s.pace) : Paces s s' := by
  have hrate : s'.tp.skPacingRate = s.tp.skPacingRate := congrArg Pace.rate h
  have hseen : s'.ca.hasSeenRtt = s.ca.hasSeenRtt := congrArg Pace.hasSeenRtt h
  refine ⟨fun hs => hseen.trans hs, fun hfalls => ?_⟩
  have hlt := hfalls.2
  rw [hrate] at hlt
  exact absurd hlt (BitVec.lt_irrefl _)

/-- The rate is set in a state with the same rate as before. -/
theorem SetsRate.paces {s s₁ s' : BbrSock M} {rate : U64} (h : SetsRate s₁ rate s') (hpace : s₁.pace = s.pace)
    (hfull : s₁.ca.fullBwReached = s'.ca.fullBwReached) : Paces s s' := by
  have hrate : s₁.tp.skPacingRate = s.tp.skPacingRate := congrArg Pace.rate hpace
  have hseen : s₁.ca.hasSeenRtt = s.ca.hasSeenRtt := congrArg Pace.hasSeenRtt hpace
  constructor
  · intro hs
    rw [h.sees, hseen, hs, Bool.true_or]
  · rintro ⟨hnot, hlt⟩
    by_cases hsees : SeesRtt s₁
    · exact ⟨hseen.symm.trans hsees.1, by rw [h.sees, decide_eq_true hsees, Bool.or_true]⟩
    · have hle := h.keeps (hfull.trans hnot) hsees
      rw [hrate] at hle
      exact absurd hlt (BitVec.not_lt.mpr hle)

theorem bbrCwndEvent_paces (s : BbrSock M) (event : CaEvent) (check restart : ℕ) (rand : U32) :
    Paces s (bbrCwndEvent k s event check restart rand) := by
  unfold bbrCwndEvent
  split
  · simp only
    split
    · have hsets := bbrSetPacingRate_sets (bbrRestartIdle s) (bbrBw k (bbrRestartIdle s)) bbrUnit
      refine hsets.paces rfl ?_
      obtain ⟨rate, seen, h⟩ := bbrSetPacingRate_frame (bbrRestartIdle s) (bbrBw k (bbrRestartIdle s)) bbrUnit
      rw [h]
    · split
      · obtain ⟨c, stamp, cwnd, h, -⟩ := bbrCheckProbeRttDone_frame (bbrRestartIdle s) check restart rand
        refine .of_pace ?_
        rw [h]
        rfl
      · exact .of_pace rfl
  · exact .of_pace rfl

/-- **A callback** lowers the rate before the pipe is full only with the first RTT. -/
theorem callback_paces (s : BbrSock M) (c : Callback) : Paces s (c.run k s) := by
  cases c with
  | main rs clk rands =>
    obtain ⟨s₁, hpace, hfull, hsets⟩ := bbrMain_pacing (k := k) s rs clk rands
    exact hsets.paces hpace hfull
  | cwndEvent event check restart rand => exact bbrCwndEvent_paces s event check restart rand
  | ssthresh =>
    have hpace : (bbrSaveCwnd s).pace = s.pace := by
      unfold bbrSaveCwnd
      split <;> rfl
    exact .of_pace hpace
  | undoCwnd => exact .of_pace rfl
  | setState newState rand =>
    refine .of_pace ?_
    show (bbrSetState k s newState rand).pace = s.pace
    unfold bbrSetState
    split
    · obtain ⟨l, c, h, -⟩ := bbrLtBwSampling_frame (k := k)
        { s with ca := { s.ca with prevCaState := tcpCaLoss.setWidth 3, fullBw := 0, roundStart := true } }
          lossSample rand
      rw [h]
      rfl
    · rfl

/-! ## Runs -/

/-- How often a callback has lowered the rate since `bbr_init` before the pipe was full. -/
def noteFalls (n : ℕ) : Transition (BbrSock M) Action → ℕ
  | (_, .init _, _) => 0
  | (_, .kernel _, _) => n
  | (s, .call _, s') => if Falls s s' then n + 1 else n

/-- With the first fall an RTT has been seen. -/
def FellOnce (n : ℕ) (s : BbrSock M) : Prop :=
  n = 0 ∨ (n = 1 ∧ s.ca.hasSeenRtt = true)

theorem fellOnce_step (n : ℕ) (s : BbrSock M) (a : Action) (s' : BbrSock M) (h : FellOnce n s)
    (hstep : Acts k s a s') : FellOnce (noteFalls n (s, a, s')) s' := by
  cases hstep
  cases a with
  | init now => exact .inl rfl
  | kernel tp => exact h
  | call c =>
    have hpaces : Paces s (Action.run k s (.call c)) := callback_paces s c
    simp only [noteFalls]
    split
    · rename_i hfalls
      obtain ⟨hbefore, hafter⟩ := hpaces.falls hfalls
      rcases h with rfl | ⟨-, hseen⟩
      · exact .inr ⟨rfl, hafter⟩
      · rw [hbefore] at hseen
        cases hseen
    · rcases h with rfl | ⟨rfl, hseen⟩
      · exact .inl rfl
      · exact .inr ⟨rfl, hpaces.stays hseen⟩

/-- **The pacing rate of the startup.** In a run from `bbr_init`, whatever the kernel does to the socket between the
callbacks, a callback lowers the pacing rate at most once before the pipe is full, and this is when the first RTT is
seen. After every ACK the rate is at least the one that the model asks for, and with a full pipe it is that one. -/
theorem startup_pacing {s₀ s s' : BbrSock M} {now : ℕ} {c : Callback} {tr : List (Transition (BbrSock M) Action)}
    (hrun : Trace (Acts k) (bbrInit k s₀ now) tr s) (hstep : Acts k s (.call c) s') :
    history noteFalls 0 tr ≤ 1 ∧
      (Falls s s' → history noteFalls 0 tr = 0 ∧ s.ca.hasSeenRtt = false ∧ s'.ca.hasSeenRtt = true) ∧
      (∀ rs clk rands, c = .main rs clk rands → targetRate k s' ≤ s'.tp.skPacingRate ∧
        (s'.ca.fullBwReached = true → s'.tp.skPacingRate = targetRate k s')) := by
  have hfell : FellOnce (history noteFalls 0 tr) s := hrun.history_invariant fellOnce_step 0 (.inl rfl)
  cases hstep
  refine ⟨?_, fun hfalls => ?_, ?_⟩
  · rcases hfell with hn | ⟨hn, -⟩ <;> omega
  · obtain ⟨hbefore, hafter⟩ := (callback_paces (k := k) s c).falls hfalls
    refine ⟨?_, hbefore, hafter⟩
    rcases hfell with hn | ⟨-, hseen⟩
    · exact hn
    · rw [hbefore] at hseen
      cases hseen
  · rintro rs clk rands rfl
    obtain ⟨s₁, -, hfull, hsets⟩ := bbrMain_pacing (k := k) s rs clk rands
    cases hreached : s₁.ca.fullBwReached with
    | true =>
      have hrate := hsets.full hreached
      exact ⟨hrate ▸ BitVec.le_refl _, fun _ => hrate⟩
    | false =>
      refine ⟨hsets.reaches hreached, fun hyes => ?_⟩
      have hno : (bbrMain k s rs clk rands).ca.fullBwReached = false := hfull.symm.trans hreached
      exact absurd (hno.symm.trans hyes) Bool.false_ne_true

/-- The connection begins without an RTT; the first one is 1 s, and the rate falls. -/
theorem startup_pacing_first :
    let tp : BbrTcp := { (plainSock 10 10).tp with srttUs := 0 }
    let sample : RateSample := ⟨20, 10, 1000000, 1000000, 0, 10, 10, false, false⟩
    ∃ tr s s', Trace (Acts plainKernel) (bbrInit plainKernel ⟨tp, (plainSock 10 10).ca⟩ 1000) tr s ∧
      Acts plainKernel s (.call (.main sample ⟨1001, 1001, 1001, 1001, 1001⟩ ⟨0, 0, 0⟩)) s' ∧ Falls s s' ∧
      s'.ca.hasSeenRtt = true ∧ targetRate plainKernel s' ≤ s'.tp.skPacingRate := by
  intro tp sample
  let s₀ := bbrInit plainKernel ⟨tp, (plainSock 10 10).ca⟩ 1000
  let s : BbrSock U32 := { s₀ with tp := { s₀.tp with srttUs := 8000000 } }
  let c : Callback := .main sample ⟨1001, 1001, 1001, 1001, 1001⟩ ⟨0, 0, 0⟩
  obtain ⟨s', hs'⟩ : ∃ s', c.run plainKernel s = s' := ⟨_, rfl⟩
  have htrace : Trace (Acts plainKernel) s₀ [(s₀, .kernel s.tp, s)] s := .cons rfl (.nil _)
  have hfalls : Falls s s' := by
    rw [← hs']
    decide +kernel
  have hstep : Acts plainKernel s (.call c) s' := hs'
  clear_value s
  obtain ⟨-, hfirst, hrate⟩ := startup_pacing htrace hstep
  exact ⟨_, s, s', htrace, hstep, hfalls, (hfirst hfalls).2.2, (hrate _ _ _ rfl).1⟩

end CoupledCC.Bbr
