import CoupledCC.Bbr.ProbeRtt

/-!
# When `BBR_PROBE_RTT` ends

In the mode BBR waits for an ACK with at most 4 packets in flight, and from then on for 200 ms and a round. On the phase
this is a function (`Phase.hold`). An observer keeps the moment of that ACK, and whether a round has started since
(`noteDwell`).

- `bbrInProbeRtt_hold`: the work on the mode computes that function;
- `probe_rtt_ends_iff`: the mode ends exactly at the first ACK at which both have passed.
-/

namespace CoupledCC.Bbr

open Word Runs

variable {M : Type} {k : Kernel M}

instance (p : Phase) (check : ℕ) : Decidable (p.Due check) :=
  inferInstanceAs (Decidable (_ ∧ _))

/-- The flag of the round, set when one starts. -/
def Phase.noteRound (p : Phase) : Phase :=
  { p with probeRttRoundDone := p.probeRttRoundDone || p.roundStart }

/-- The work on the mode. -/
def Phase.hold (k : Kernel M) (clk : Clock) (p : Phase) : Phase :=
  if p.mode ≠ .probeRtt then p
  else if p.probeRttDoneStamp = 0 then
    if p.packetsInFlight ≤ bbrCwndMinTarget then
      { p with
        probeRttDoneStamp := tcpJiffies32 clk.stamp + BitVec.ofNat 32 (dwell k)
        probeRttRoundDone := false }
    else p
  else if (p.probeRttRoundDone || p.roundStart) = true ∧ p.Due clk.check then p.noteRound.leave
  else p.noteRound

theorem bbrHoldProbeRtt_hold (s : BbrSock M) (clk : Clock) (rand : U32) (hin : s.ca.mode = .probeRtt) :
    (bbrHoldProbeRtt k s clk rand).phase = s.phase.hold k clk := by
  unfold bbrHoldProbeRtt Phase.hold
  rw [if_neg (not_not.mpr (show s.phase.mode = .probeRtt from hin))]
  by_cases hzero : s.ca.probeRttDoneStamp = 0
  · rw [if_pos (show s.phase.probeRttDoneStamp = 0 from hzero)]
    by_cases hsmall : s.tp.packetsInFlight ≤ bbrCwndMinTarget
    · rw [if_pos (show s.phase.packetsInFlight ≤ bbrCwndMinTarget from hsmall), if_pos ⟨hzero, hsmall⟩, ← ofNat_dwell]
      rfl
    · rw [if_neg (show ¬ s.phase.packetsInFlight ≤ bbrCwndMinTarget from hsmall), if_neg fun h => hsmall h.2,
        if_neg (not_not.mpr hzero)]
  · rw [if_neg (show ¬ s.phase.probeRttDoneStamp = 0 from hzero), if_neg fun h => hzero h.1, if_pos hzero]
    have hnote : (bbrNoteRound s).phase = s.phase.noteRound := bbrNoteRound_phase s
    have hdone : (bbrNoteRound s).ca.probeRttRoundDone = (s.phase.probeRttRoundDone || s.phase.roundStart) :=
      congrArg Phase.probeRttRoundDone hnote
    simp only
    by_cases hround : (s.phase.probeRttRoundDone || s.phase.roundStart) = true
    · rw [if_pos (hdone.trans hround)]
      rcases bbrCheckProbeRttDone_phase (bbrNoteRound s) clk.check clk.restart rand with ⟨hdue, heq⟩ | ⟨hdue, heq⟩
      · rw [hnote] at hdue
        rw [if_pos ⟨hround, hdue⟩, heq, hnote]
      · rw [hnote] at hdue
        rw [if_neg fun h => hdue h.2, heq, hnote]
    · rw [if_neg fun h => hround (hdone.symm.trans h), if_neg fun h => hround h.1, hnote]

/-- **The work on the mode** is that function. -/
theorem bbrInProbeRtt_hold (s : BbrSock M) (clk : Clock) (rand : U32) :
    (bbrInProbeRtt k s clk rand).phase = s.phase.hold k clk := by
  unfold bbrInProbeRtt
  by_cases hin : s.ca.mode = .probeRtt
  · rw [if_pos hin]
    exact bbrHoldProbeRtt_hold (bbrMarkAppLimited s) clk rand hin
  · rw [if_neg hin, Phase.hold, if_pos (show s.phase.mode ≠ .probeRtt from hin)]

/-! ## The observer -/

/-- The ACK from which on the time runs, and whether a round has started since. -/
structure Dwell where
  stamped : ℕ
  rounded : Bool
deriving Repr, DecidableEq

/-- An ACK in the mode. -/
def countDwell (stamp : ℕ) (inFlight : U32) (start : Bool) : Option Dwell → Option Dwell
  | none => if inFlight ≤ bbrCwndMinTarget then some ⟨stamp, false⟩ else none
  | some d => some { d with rounded := d.rounded || start }

def noteDwell (n : Option Dwell) : Transition (BbrSock M × ℕ) Action → Option Dwell
  | (s, .call (.main _ clk _), s') =>
    if s'.1.ca.mode = .probeRtt then
      countDwell clk.stamp s.1.tp.packetsInFlight s'.1.ca.roundStart (if s.1.ca.mode = .probeRtt then n else none)
    else none
  | (_, _, s') => if s'.1.ca.mode = .probeRtt then n else none

/-- No stamp is 0 by chance, which would stand for none. -/
def Action.StampOk (k : Kernel M) : Action → Prop
  | .call (.main _ clk _) => tcpJiffies32 clk.stamp + BitVec.ofNat 32 (dwell k) ≠ 0
  | _ => True

/-- In the mode, the stamp and the flag are those of the observer. -/
def Dwells (k : Kernel M) (now : ℕ) (p : Phase) : Option Dwell → Prop
  | none => p.probeRttDoneStamp = 0
  | some d => p.probeRttDoneStamp ≠ 0 ∧ p.probeRttDoneStamp = tcpJiffies32 d.stamped + BitVec.ofNat 32 (dwell k) ∧
      p.probeRttRoundDone = d.rounded ∧ d.stamped ≤ now

theorem Dwells.keep {now now' : ℕ} {p p' : Phase} {n : Option Dwell} (h : Dwells k now p n) (hle : now ≤ now')
    (hstamp : p'.probeRttDoneStamp = p.probeRttDoneStamp) (hdone : p'.probeRttRoundDone = p.probeRttRoundDone) :
    Dwells k now' p' n := by
  cases n with
  | none => exact hstamp.trans h
  | some d =>
    obtain ⟨hne, heq, hround, htime⟩ := h
    unfold Dwells
    rw [hstamp, hdone]
    exact ⟨hne, heq, hround, htime.trans hle⟩

/-- The time is over at the moment `check`. -/
theorem Dwells.due_iff {now check : ℕ} {p : Phase} {d : Dwell} (h : Dwells k now p (some d)) (hle : now ≤ check)
    (hrecent : check ≤ d.stamped + dwell k + 2 ^ 31) : p.Due check ↔ d.stamped + dwell k < check := by
  obtain ⟨hne, heq, -, htime⟩ := h
  constructor
  · exact fun hdue => due_late hdue (htime.trans hle) heq
  · intro hlate
    refine ⟨hne, ?_⟩
    rw [after, before, decide_eq_true_iff, heq, tcpJiffies32, tcpJiffies32, ← BitVec.ofNat_add,
      toInt_sub_ofNat (w := 31) (by omega) (by omega)]
    omega

/-! ## One ACK -/

/-- The work on the mode ends it exactly if a round has started and the time is over. -/
theorem Phase.hold_out_iff {clk : Clock} {p : Phase} (hin : p.mode = .probeRtt) :
    (p.hold k clk).mode ≠ .probeRtt ↔ (p.probeRttRoundDone || p.roundStart) = true ∧ p.Due clk.check := by
  unfold Phase.hold
  rw [if_neg (not_not.mpr hin)]
  by_cases hzero : p.probeRttDoneStamp = 0
  · rw [if_pos hzero]
    have hstays : ¬ p.Due clk.check := fun hdue => hdue.1 hzero
    by_cases hsmall : p.packetsInFlight ≤ bbrCwndMinTarget
    · rw [if_pos hsmall]
      simp [hin, hstays]
    · rw [if_neg hsmall]
      simp [hin, hstays]
  · rw [if_neg hzero]
    by_cases hends : (p.probeRttRoundDone || p.roundStart) = true ∧ p.Due clk.check
    · rw [if_pos hends]
      exact iff_of_true (Phase.home_ne _) hends
    · rw [if_neg hends]
      exact iff_of_false (not_not.mpr hin) hends

/-- An ACK that ends in the mode keeps the invariant, with itself counted. -/
theorem Dwells.hold {clk : Clock} {now now' : ℕ} {p : Phase} {n : Option Dwell} (h : Dwells k now p n)
    (hin : p.mode = .probeRtt) (hstays : (p.hold k clk).mode = .probeRtt)
    (hok : tcpJiffies32 clk.stamp + BitVec.ofNat 32 (dwell k) ≠ 0) (hle : now ≤ now') (hstamp : clk.stamp ≤ now') :
    Dwells k now' (p.hold k clk) (countDwell clk.stamp p.packetsInFlight p.roundStart n) := by
  have hends := mt (Phase.hold_out_iff hin).mpr (not_not.mpr hstays)
  unfold Phase.hold
  rw [if_neg (not_not.mpr hin)]
  cases n with
  | none =>
    rw [if_pos (show p.probeRttDoneStamp = 0 from h)]
    unfold countDwell
    by_cases hsmall : p.packetsInFlight ≤ bbrCwndMinTarget
    · rw [if_pos hsmall, if_pos hsmall]
      exact ⟨hok, rfl, rfl, hstamp⟩
    · rw [if_neg hsmall, if_neg hsmall]
      exact h
  | some d =>
    obtain ⟨hne, heq, hround, htime⟩ := h
    rw [if_neg hne, if_neg hends]
    exact ⟨hne, heq, congrArg (· || p.roundStart) hround, htime.trans hle⟩

theorem Probes.roundStart {stay : U32} {clk : Clock} {p p' : Phase} (h : Probes stay clk p p') :
    p'.roundStart = p.roundStart := by
  cases h <;> rfl

/-- An ACK, with the work on the mode as that function. -/
theorem bbrMain_hold (s : BbrSock M) (rs : RateSample) (clk : Clock) (rands : Rands) :
    ∃ p₁, AckProbes k clk s.phase p₁ (p₁.hold k clk) (bbrMain k s rs clk rands).phase := by
  obtain ⟨round, full, mode, -, hdrains, henter⟩ := bbrAtProbeRtt_phase (k := k) s rs clk rands
  have hwork := bbrInProbeRtt_hold (k := k) (bbrAtProbeRtt k s rs clk rands) clk rands.probeRtt
  have hprobes := bbrInProbeRtt_phase (k := k) (bbrAtProbeRtt k s rs clk rands) clk rands.probeRtt
  obtain ⟨cwnd, prev, hset, hle⟩ := bbrAfterProbeRtt_phase (k := k)
    (bbrInProbeRtt k (bbrAtProbeRtt k s rs clk rands) clk rands.probeRtt) rs
  rw [← bbrMain_eq] at hset
  rw [← phase_mode] at hle
  rw [hwork] at hprobes hset hle
  rw [ofNat_dwell] at hprobes
  refine ⟨(bbrAtProbeRtt k s rs clk rands).phase, ?_⟩
  rw [hset]
  refine ⟨hprobes, ?_, ?_, hprobes.roundStart.symm, rfl, rfl, rfl, hle⟩
  · rcases henter with heq | ⟨hmode, heq⟩
    · rw [heq]
      exact .inl ⟨hdrains.probeRtt_iff, rfl, rfl⟩
    · rw [heq]
      exact .inr ⟨fun h => hmode (hdrains.probeRtt_iff.mpr h), rfl⟩
  · rcases henter with heq | ⟨-, heq⟩
    · rw [heq]
    · rw [heq]
      rfl

/-- The phase an ACK works on: an episode it begins has no stamp yet. -/
theorem AckProbes.dwells {clk : Clock} {p p₁ p₂ p' : Phase} {now : ℕ} {n : Option Dwell}
    (hack : AckProbes k clk p p₁ p₂ p') (h : p.mode = .probeRtt → Dwells k now p n) (hin : p₁.mode = .probeRtt) :
    Dwells k now p₁ (if p.mode = .probeRtt then n else none) := by
  rcases hack.found with ⟨hiff, hstamp, hdone⟩ | ⟨hout, hzero⟩
  · rw [if_pos (hiff.mp hin)]
    exact (h (hiff.mp hin)).keep le_rfl hstamp hdone
  · rw [if_neg hout]
    exact hzero

/-! ## Runs -/

/-- An action that is no ACK keeps the invariant. -/
theorem noteDwell_keep {s s' : BbrSock M} {now now' : ℕ} {n : Option Dwell}
    (h : s.ca.mode = .probeRtt → Dwells k now s.phase n)
    (hle : now ≤ now') (hkeeps : s'.ca.mode = .probeRtt → KeepsModes s.phase s'.phase) :
    s'.ca.mode = .probeRtt → Dwells k now' s'.phase (if s'.ca.mode = .probeRtt then n else none) := by
  intro hin
  have hfields := hkeeps hin
  rw [if_pos hin]
  exact (h (hfields.mode.symm.trans hin)).keep hle hfields.stamp hfields.round

theorem noteDwell_quiet {a : Action} (h : a.Quiet) (n : Option Dwell) (s s' : BbrSock M × ℕ) :
    noteDwell n (s, a, s') = if s'.1.ca.mode = .probeRtt then n else none := by
  cases a with
  | init now => exact absurd h id
  | kernel tp => rfl
  | call c =>
    cases c with
    | main rs clk rands => exact absurd h id
    | cwndEvent event check restart rand => exact absurd h id
    | _ => rfl

/-- **One action** keeps the invariant. -/
theorem actsAt_dwells {n : Option Dwell} {s s' : BbrSock M × ℕ} {a : Action}
    (h : s.1.ca.mode = .probeRtt → Dwells k s.2 s.1.phase n) (hstep : ActsAt k s a s') (hok : a.StampOk k) :
    s'.1.ca.mode = .probeRtt → Dwells k s'.2 s'.1.phase (noteDwell n (s, a, s')) := by
  obtain ⟨s, now⟩ := s
  obtain ⟨s', now'⟩ := s'
  obtain ⟨hacts, hclock⟩ := hstep
  change Acts k s a s' at hacts
  change Chronological now a now' at hclock
  have hle : now ≤ now' := (List.pairwise_cons.mp hclock).1 now' (by simp)
  rcases acts_cases hacts with ⟨start, rfl, rfl⟩ | ⟨rs, clk, rands, rfl, rfl⟩ |
    ⟨event, check, restart, rand, rfl, rfl⟩ |
    ⟨hquiet, hkeeps, -⟩
  · exact fun hin => absurd hin (bbrInit_out (k := k) s start)
  · simp only [Chronological, Action.readings, List.cons_append, List.nil_append, List.pairwise_cons, List.mem_cons,
      forall_eq_or_imp] at hclock
    intro hin
    obtain ⟨p₁, hack⟩ := bbrMain_hold (k := k) s rs clk rands
    have hstays : (p₁.hold k clk).mode = .probeRtt := hack.mode.symm.trans hin
    have hin₁ : p₁.mode = .probeRtt := by
      by_contra hout
      rw [Phase.hold, if_pos hout] at hstays
      exact hout hstays
    have hcount := (hack.dwells h hin₁).hold hin₁ hstays hok hle (by tauto)
    rw [hack.flight, hack.round] at hcount
    have hnoted : noteDwell n ((s, now), .call (.main rs clk rands), (bbrMain k s rs clk rands, now')) = _ := if_pos hin
    rw [hnoted]
    exact hcount.keep le_rfl hack.stamp hack.done
  · refine noteDwell_keep h hle fun hin => ?_
    rcases bbrCwndEvent_phase (k := k) s event check restart rand with heq | ⟨-, -, heq⟩
    · rw [heq]
      exact ⟨rfl, rfl, rfl, rfl⟩
    · exact absurd ((congrArg Phase.mode heq).symm.trans hin) (Phase.home_ne _)
  · rw [noteDwell_quiet hquiet]
    exact noteDwell_keep h hle fun _ => hkeeps

/-- **The end of `BBR_PROBE_RTT`.** After a run from `bbr_init`, an ACK in the mode ends it exactly if an ACK of the
episode had at most 4 packets in flight, the dwell time is over since the first such ACK, and a round has started after
it. -/
theorem probe_rtt_ends_iff {s₀ : BbrSock M} {now₀ : ℕ} {s s' : BbrSock M × ℕ} {rs : RateSample} {clk : Clock}
    {rands : Rands} {tr : List (Transition (BbrSock M × ℕ) Action)}
    (hrun : Trace (fun s a s' => ActsAt k s a s' ∧ a.StampOk k) (bbrInit k s₀ now₀, now₀) tr s)
    (hack : ActsAt k s (.call (.main rs clk rands)) s') (hin : s.1.ca.mode = .probeRtt)
    (hrecent : ∀ d ∈ history noteDwell none tr, clk.check ≤ d.stamped + dwell k + 2 ^ 31) :
    s'.1.ca.mode ≠ .probeRtt ↔ ∃ d ∈ history noteDwell none tr, d.stamped + dwell k < clk.check ∧
      (d.rounded || s'.1.ca.roundStart) = true := by
  have hinv : s.1.ca.mode = .probeRtt → Dwells k s.2 s.1.phase (history noteDwell none tr) :=
    hrun.history_invariant (J := fun n s => s.1.ca.mode = .probeRtt → Dwells k s.2 s.1.phase n)
      (fun _ _ _ _ h hs => actsAt_dwells h hs.1 hs.2) none fun h => absurd h (bbrInit_out (k := k) s₀ now₀)
  set n := history noteDwell none tr
  obtain ⟨s, now⟩ := s
  obtain ⟨s', now'⟩ := s'
  obtain ⟨heq, hclock⟩ := hack
  change s.phase.mode = .probeRtt at hin
  have hcheck : now ≤ clk.check := (List.pairwise_cons.mp hclock).1 _ (by simp [Action.readings])
  obtain ⟨p₁, hprobes⟩ := bbrMain_hold (k := k) s rs clk rands
  have hmain : bbrMain k s rs clk rands = s' := heq
  rw [hmain] at hprobes
  have hin₁ : p₁.mode = .probeRtt := by
    rcases hprobes.found with ⟨hiff, -⟩ | ⟨hout, -⟩
    · exact hiff.mpr hin
    · exact absurd hin hout
  have hdwells := hprobes.dwells hinv hin₁
  rw [if_pos hin] at hdwells
  have hends : s'.ca.mode ≠ .probeRtt ↔ (p₁.probeRttRoundDone || p₁.roundStart) = true ∧ p₁.Due clk.check := by
    rw [← Phase.hold_out_iff hin₁, ← hprobes.mode, phase_mode]
  rw [hends, hprobes.round]
  change (p₁.probeRttRoundDone || s'.ca.roundStart) = true ∧ p₁.Due clk.check ↔ _
  cases hn : n with
  | none =>
    rw [hn] at hdwells
    exact iff_of_false (fun h => h.2.1 hdwells) (by simp)
  | some d =>
    rw [hn] at hdwells
    rw [hdwells.due_iff hcheck (hrecent d hn), hdwells.2.2.1, and_comm]
    simp

/-- Three packets are in flight at the ACK of jiffy 11001, which begins an episode; the ACK of jiffy 11300 starts a
round. -/
theorem probe_rtt_ends_startup :
    let ack (now : ℕ) : Callback :=
      .main ⟨20, 10, 1000, 1000, 0, 10, 10, false, false⟩ ⟨now, now, now, now, now⟩ ⟨0, 0, 0⟩
    let s₀ := bbrInit plainKernel (plainSock 10 3) 1000
    ∃ s₁ s₂, ActsAt plainKernel (s₀, 1000) (.call (ack 11001)) (s₁, 11001) ∧
      ActsAt plainKernel (s₁, 11001) (.call (ack 11300)) (s₂, 11300) ∧
      s₁.ca.mode = .probeRtt ∧ s₂.ca.mode ≠ .probeRtt ∧
      ∃ d ∈ history noteDwell none [((s₀, 1000), .call (ack 11001), (s₁, 11001))],
        d.stamped + dwell plainKernel < 11300 ∧ (d.rounded || s₂.ca.roundStart) = true := by
  intro ack s₀
  have hclock₁ : Chronological 1000 (.call (ack 11001)) 11001 := by simp [Chronological, Action.readings, ack]
  have hclock₂ : Chronological 11001 (.call (ack 11300)) 11300 := by simp [Chronological, Action.readings, ack]
  have hok : (Action.call (ack 11001)).StampOk plainKernel := by
    change tcpJiffies32 11001 + BitVec.ofNat 32 (dwell plainKernel) ≠ 0
    decide +kernel
  obtain ⟨s₁, hs₁⟩ : ∃ s₁, (ack 11001).run plainKernel s₀ = s₁ := ⟨_, rfl⟩
  obtain ⟨s₂, hs₂⟩ : ∃ s₂, (ack 11300).run plainKernel s₁ = s₂ := ⟨_, rfl⟩
  have hfirst : ActsAt plainKernel (s₀, 1000) (.call (ack 11001)) (s₁, 11001) := ⟨hs₁, hclock₁⟩
  have hlast : ActsAt plainKernel (s₁, 11001) (.call (ack 11300)) (s₂, 11300) := ⟨hs₂, hclock₂⟩
  have hin : s₁.ca.mode = .probeRtt := by rw [← hs₁]; decide +kernel
  have hout : s₂.ca.mode ≠ .probeRtt := by rw [← hs₂, ← hs₁]; decide +kernel
  have hnote : history noteDwell none [((s₀, 1000), .call (ack 11001), (s₁, 11001))] = some ⟨11001, false⟩ := by
    rw [← hs₁]
    decide +kernel
  have hrecent : ∀ d ∈ history noteDwell none [((s₀, 1000), .call (ack 11001), (s₁, 11001))],
      11300 ≤ d.stamped + dwell plainKernel + 2 ^ 31 := by
    rw [hnote]
    rintro d ⟨⟩
    omega
  exact ⟨s₁, s₂, hfirst, hlast, hin, hout,
    (probe_rtt_ends_iff (.cons ⟨hfirst, hok⟩ (.nil _)) hlast hin hrecent).mp hout⟩

end CoupledCC.Bbr
