import CoupledCC.Bbr.Phase

/-!
# How long BBR stays in `BBR_PROBE_RTT`

The clock of the connection never goes back, but BBR sees it modulo `2^32` (`ActsAt`). Its stamp for the end of the mode
is set at an ACK with at most 4 packets in flight, and 0 stands for no stamp. An observer notes the ACKs of the current
episode (`noteAck`).

- `Stamped`: the invariant, that a stamp was set at such an ACK of this episode;
- `probe_rtt_left`: the mode is left only 200 ms, and inside an ACK also the start of a round, after such an ACK; and an
  ACK that ends in the mode leaves a window of at most 4.
-/

namespace CoupledCC.Bbr

open Word Runs

/-! ## Runs with a clock -/

/-- The moments at which an action reads the clock. -/
def Action.readings : Action → List ℕ
  | .init now => [now]
  | .call (.main _ clk _) => [clk.expired, clk.sample, clk.stamp, clk.check, clk.restart]
  | .call (.cwndEvent _ check restart _) => [check, restart]
  | _ => []

/-- The readings of an action lie between two moments, in their order. -/
def Chronological (now : ℕ) (a : Action) (now' : ℕ) : Prop :=
  (now :: a.readings ++ [now']).Pairwise (· ≤ ·)

variable {M : Type} (k : Kernel M)

/-- One action, on the connection and its clock. -/
def ActsAt (s : BbrSock M × ℕ) (a : Action) (s' : BbrSock M × ℕ) : Prop :=
  Acts k s.1 a s'.1 ∧ Chronological s.2 a s'.2

/-- The jiffies `BBR_PROBE_RTT` has to last. -/
def dwell : ℕ :=
  (k.msecsToJiffies bbrProbeRttModeMs).toNat

/-! ## The observer -/

/-- An ACK of an episode: when its time stamp is read, the packets in flight, and whether it starts a round. -/
structure AckNote where
  time : ℕ
  inFlight : U32
  roundStart : Bool
deriving Repr, DecidableEq

/-- The ACKs of the current episode, with the one that began it. -/
def noteAck (n : List AckNote) : Transition (BbrSock M × ℕ) Action → List AckNote
  | (s, .call (.main _ clk _), s') =>
    if s'.1.ca.mode = .probeRtt then
      (if s.1.ca.mode = .probeRtt then n else []) ++ [⟨clk.stamp, s.1.tp.packetsInFlight, s'.1.ca.roundStart⟩]
    else []
  | (_, _, s') => if s'.1.ca.mode = .probeRtt then n else []

/-- An ACK of the episode had at most 4 packets in flight, and this holds of it and of the ACKs after it. -/
def SmallAck (n : List AckNote) (P : AckNote → List AckNote → Prop) : Prop :=
  ∃ earlier ack later, n = earlier ++ ack :: later ∧ ack.inFlight.toNat ≤ 4 ∧ P ack later

/-- The end of an episode came late enough: at the moment `check` the dwell time is over since an ACK with at most 4
packets in flight, and inside an ACK a round has started after it. -/
def LeftInTime (n : List AckNote) : Transition (BbrSock M × ℕ) Action → Prop
  | (_, .call (.main _ clk _), s') => SmallAck n fun ack later =>
      ack.time + dwell k < clk.check ∧ ((∃ b ∈ later, b.roundStart = true) ∨ s'.1.ca.roundStart = true)
  | (_, .call (.cwndEvent _ check _ _), _) => SmallAck n fun ack _ => ack.time + dwell k < check
  | _ => False

/-! ## The invariant -/

/-- The stamp and the round flag of an episode come from an ACK with at most 4 packets in flight. -/
def Stamped (n : List AckNote) (p : Phase) (now : ℕ) : Prop :=
  p.mode = .probeRtt → p.probeRttDoneStamp ≠ 0 → SmallAck n fun ack later =>
    p.probeRttDoneStamp = tcpJiffies32 ack.time + BitVec.ofNat 32 (dwell k) ∧ ack.time ≤ now ∧
      (p.probeRttRoundDone = true → ∃ b ∈ later, b.roundStart = true)

variable {k}

theorem dwell_lt : dwell k < 2 ^ 31 :=
  k.msecsToJiffies_lt

theorem ofNat_dwell : (k.msecsToJiffies bbrProbeRttModeMs).setWidth 32 = BitVec.ofNat 32 (dwell k) :=
  (BitVec.ofNat_toNat 32 _).symm

/-- An end that is due comes more than the dwell time after the ACK of the stamp. -/
theorem due_late {p : Phase} {time check : ℕ} (hdue : p.Due check) (hle : time ≤ check)
    (hstamp : p.probeRttDoneStamp = tcpJiffies32 time + BitVec.ofNat 32 (dwell k)) : time + dwell k < check := by
  have hafter := hdue.2
  rw [hstamp] at hafter
  exact lt_of_stamp_passed (w := 31) dwell_lt hle (of_decide_eq_true hafter)

/-- A state the stamp invariant says nothing about. -/
theorem stamped_of_quiet {n : List AckNote} {p : Phase} {now : ℕ} (h : p.mode ≠ .probeRtt ∨ p.probeRttDoneStamp = 0) :
    Stamped k n p now := by
  intro hmode hstamp
  rcases h with h | h
  · exact absurd hmode h
  · exact absurd h hstamp

/-- The notes and the fields of an episode stay, and time passes. -/
theorem Stamped.keep {n : List AckNote} {p p' : Phase} {now now' : ℕ} (h : Stamped k n p now) (hle : now ≤ now')
    (hmode : p'.mode = p.mode) (hstamp : p'.probeRttDoneStamp = p.probeRttDoneStamp)
    (hround : p'.probeRttRoundDone = p.probeRttRoundDone) : Stamped k n p' now' := by
  unfold Stamped
  rw [hmode, hstamp, hround]
  intro hm hs
  obtain ⟨earlier, ack, later, hn, hsmall, heq, htime, hlater⟩ := h hm hs
  exact ⟨earlier, ack, later, hn, hsmall, heq, htime.trans hle, hlater⟩

/-! ## One ACK -/

/-- What an ACK does about `BBR_PROBE_RTT`: `p₁` is the phase when it turns to it, `p₂` the phase when it is done with
it. -/
structure AckProbes (k : Kernel M) (clk : Clock) (p p₁ p₂ p' : Phase) : Prop where
  probes : Probes (BitVec.ofNat 32 (dwell k)) clk p₁ p₂
  /-- Either it finds the episode as it was, or it begins one. -/
  found : (p₁.mode = .probeRtt ↔ p.mode = .probeRtt) ∧ p₁.probeRttDoneStamp = p.probeRttDoneStamp ∧
      p₁.probeRttRoundDone = p.probeRttRoundDone ∨
    p.mode ≠ .probeRtt ∧ p₁.probeRttDoneStamp = 0
  flight : p₁.packetsInFlight = p.packetsInFlight
  round : p₁.roundStart = p'.roundStart
  mode : p'.mode = p₂.mode
  stamp : p'.probeRttDoneStamp = p₂.probeRttDoneStamp
  done : p'.probeRttRoundDone = p₂.probeRttRoundDone
  window : p₂.mode = .probeRtt → p'.sndCwnd.toNat ≤ 4

theorem bbrMain_probes (s : BbrSock M) (rs : RateSample) (clk : Clock) (rands : Rands) :
    ∃ p₁ p₂, AckProbes k clk s.phase p₁ p₂ (bbrMain k s rs clk rands).phase := by
  obtain ⟨round, full, mode, p₁, p₂, cwnd, prev, -, hdrains, henter, hprobes, hphase, hle⟩ :=
    bbrMain_phase (k := k) s rs clk rands
  rw [ofNat_dwell] at hprobes
  have hround : p₂.roundStart = p₁.roundStart := by cases hprobes <;> rfl
  refine ⟨p₁, p₂, ?_⟩
  rw [hphase]
  refine ⟨hprobes, ?_, ?_, hround.symm, rfl, rfl, rfl, hle⟩
  · rcases henter with rfl | ⟨hmode, rfl⟩
    · exact .inl ⟨hdrains.probeRtt_iff, rfl, rfl⟩
    · exact .inr ⟨fun h => hmode (hdrains.probeRtt_iff.mpr h), rfl⟩
  · rcases henter with rfl | ⟨-, rfl⟩
    · rfl
    · rfl

/-- An ACK keeps the invariant, with itself noted. -/
theorem AckProbes.stamped {clk : Clock} {p p₁ p₂ p' : Phase} {n : List AckNote} {now now' : ℕ}
    (hack : AckProbes k clk p p₁ p₂ p') (h : Stamped k n p now) (hle : now ≤ now') (hstamp : clk.stamp ≤ now') :
    Stamped k ((if p.mode = .probeRtt then n else []) ++ [⟨clk.stamp, p.packetsInFlight, p'.roundStart⟩]) p' now' := by
  unfold Stamped
  rw [hack.mode, hack.stamp, hack.done, ← hack.round, ← hack.flight]
  intro hin hset
  cases hack.probes with
  | outside hout => exact absurd hin hout
  | wait _ hzero => exact absurd hzero hset
  | stamp _ hsmall =>
    refine ⟨_, _, [], rfl, hsmall, rfl, hstamp, fun hr => ?_⟩
    cases hr
  | hold hprobe hopen =>
    rcases hack.found with ⟨hiff, hst, hrd⟩ | ⟨-, hzero⟩
    · have hs : p.mode = .probeRtt := hiff.mp hprobe
      rw [hst] at hopen
      obtain ⟨earlier, ack, later, hn, hsmall, heq, htime, hlater⟩ := h hs hopen
      rw [if_pos hs, hn]
      refine ⟨earlier, ack, later ++ [⟨clk.stamp, p₁.packetsInFlight, p₁.roundStart⟩], by simp, hsmall, hst.trans heq,
        htime.trans hle, fun hr => ?_⟩
      rcases (Bool.or_eq_true _ _).mp hr with hr | hr
      · obtain ⟨b, hb, hstart⟩ := hlater (hrd.symm.trans hr)
        exact ⟨b, List.mem_append_left _ hb, hstart⟩
      · exact ⟨_, List.mem_append_right _ List.mem_cons_self, hr⟩
    · exact absurd hzero hopen
  | leave => exact absurd hin (Phase.home_ne _)

/-- An ACK that ends the mode comes in time. -/
theorem AckProbes.left {clk : Clock} {p p₁ p₂ p' : Phase} {n : List AckNote} {now : ℕ}
    (hack : AckProbes k clk p p₁ p₂ p') (h : Stamped k n p now) (hle : now ≤ clk.check) (hin : p.mode = .probeRtt)
    (hout : p'.mode ≠ .probeRtt) :
    SmallAck n fun ack later =>
      ack.time + dwell k < clk.check ∧ ((∃ b ∈ later, b.roundStart = true) ∨ p'.roundStart = true) := by
  rw [← hack.round]
  rw [hack.mode] at hout
  rcases hack.found with ⟨hiff, hst, hrd⟩ | ⟨hno, -⟩
  · have hprobe := hiff.mpr hin
    cases hack.probes with
    | leave _ hdue hdone =>
      obtain ⟨earlier, ack, later, hn, hsmall, heq, htime, hlater⟩ := h hin (by rw [← hst]; exact hdue.1)
      refine ⟨earlier, ack, later, hn, hsmall, due_late hdue (htime.trans hle) (hst.trans heq), ?_⟩
      rcases (Bool.or_eq_true _ _).mp hdone with hdone | hdone
      · exact .inl (hlater (hrd.symm.trans hdone))
      · exact .inr hdone
    | _ => exact absurd hprobe hout
  · exact absurd hin hno

/-! ## The other actions -/

/-- A restart from idle keeps the invariant, and if it ends the mode it comes in time. -/
theorem bbrCwndEvent_stamped {n : List AckNote} {s : BbrSock M} {now now' check : ℕ} (h : Stamped k n s.phase now)
    (hle : now ≤ now') (hcheck : now ≤ check) (event : CaEvent) (restart : ℕ) (rand : U32) :
    Stamped k (noteAck n ((s, now), .call (.cwndEvent event check restart rand),
        (bbrCwndEvent k s event check restart rand, now')))
      (bbrCwndEvent k s event check restart rand).phase now' ∧
    (s.ca.mode = .probeRtt → (bbrCwndEvent k s event check restart rand).ca.mode ≠ .probeRtt →
      LeftInTime k n ((s, now), .call (.cwndEvent event check restart rand),
        (bbrCwndEvent k s event check restart rand, now'))) := by
  rcases bbrCwndEvent_phase (k := k) s event check restart rand with heq | ⟨hin, hdue, heq⟩
  · have hmode : (bbrCwndEvent k s event check restart rand).ca.mode = s.ca.mode := congrArg Phase.mode heq
    refine ⟨?_, fun hin hout => absurd (hmode.trans hin) hout⟩
    by_cases hprobe : s.ca.mode = .probeRtt
    · simp only [noteAck, if_pos (hmode.trans hprobe)]
      rw [heq]
      exact h.keep hle rfl rfl rfl
    · exact stamped_of_quiet (.inl (by rw [heq]; exact hprobe))
  · refine ⟨stamped_of_quiet (.inl (by rw [heq]; exact Phase.home_ne _)), fun _ _ => ?_⟩
    obtain ⟨earlier, ack, later, hn, hsmall, hst, htime, -⟩ := h hin hdue.1
    exact ⟨earlier, ack, later, hn, hsmall, due_late hdue (htime.trans hcheck) hst⟩

theorem noteAck_quiet {a : Action} (h : a.Quiet) (n : List AckNote) (s s' : BbrSock M × ℕ) :
    noteAck n (s, a, s') = if s'.1.ca.mode = .probeRtt then n else [] := by
  cases a with
  | init now => exact absurd h id
  | kernel tp => rfl
  | call c =>
    cases c with
    | main rs clk rands => exact absurd h id
    | cwndEvent event check restart rand => exact absurd h id
    | _ => rfl

/-- An action that leaves the fields of an episode alone. -/
theorem stamped_quiet {n : List AckNote} {s s' : BbrSock M} {now now' : ℕ} (h : Stamped k n s.phase now)
    (hle : now ≤ now')
    (hkeeps : KeepsModes s.phase s'.phase) : Stamped k (if s'.ca.mode = .probeRtt then n else []) s'.phase now' := by
  by_cases hprobe : s'.ca.mode = .probeRtt
  · rw [if_pos hprobe]
    exact h.keep hle hkeeps.mode hkeeps.stamp hkeeps.round
  · exact stamped_of_quiet (.inl hprobe)

/-- **One action**: the invariant is kept, and the mode is left in time. -/
theorem actsAt_stamped {n : List AckNote} {s s' : BbrSock M × ℕ} {a : Action} (h : Stamped k n s.1.phase s.2)
    (hstep : ActsAt k s a s') :
    Stamped k (noteAck n (s, a, s')) s'.1.phase s'.2 ∧
      (s.1.ca.mode = .probeRtt → s'.1.ca.mode ≠ .probeRtt → a.NoInit → LeftInTime k n (s, a, s')) := by
  obtain ⟨s, now⟩ := s
  obtain ⟨s', now'⟩ := s'
  obtain ⟨hacts, hclock⟩ := hstep
  change Acts k s a s' at hacts
  change Chronological now a now' at hclock
  have hle : now ≤ now' := (List.pairwise_cons.mp hclock).1 now' (by simp)
  rcases acts_cases hacts with ⟨start, rfl, rfl⟩ | ⟨rs, clk, rands, rfl, rfl⟩ |
    ⟨event, check, restart, rand, rfl, rfl⟩ |
    ⟨hquiet, hkeeps, -⟩
  · exact ⟨stamped_of_quiet (.inl (bbrInit_out (k := k) s start)), fun _ _ hno => absurd hno id⟩
  · simp only [Chronological, Action.readings, List.cons_append, List.nil_append, List.pairwise_cons, List.mem_cons,
      forall_eq_or_imp] at hclock
    obtain ⟨p₁, p₂, hack⟩ := bbrMain_probes (k := k) s rs clk rands
    refine ⟨?_, fun hin hout _ => hack.left h (by tauto) hin hout⟩
    by_cases hin : (bbrMain k s rs clk rands).ca.mode = .probeRtt
    · have hnoted := hack.stamped h hle (by tauto)
      have hnotes : noteAck n ((s, now), .call (.main rs clk rands), (bbrMain k s rs clk rands, now')) = _ := if_pos hin
      exact hnotes ▸ hnoted
    · exact stamped_of_quiet (.inl hin)
  · simp only [Chronological, Action.readings, List.cons_append, List.nil_append, List.pairwise_cons, List.mem_cons,
      forall_eq_or_imp] at hclock
    have hboth := bbrCwndEvent_stamped h hle hclock.1.1 event restart rand
    exact ⟨hboth.1, fun hin hout _ => hboth.2 hin hout⟩
  · rw [noteAck_quiet hquiet]
    exact ⟨stamped_quiet h hle hkeeps, fun hin hout => absurd (hkeeps.mode.trans hin) hout⟩

/-! ## Runs -/

/-- **Leaving `BBR_PROBE_RTT`.** After a run from `bbr_init`, an action that is not `bbr_init` again ends the mode only
in time; and an ACK that ends in the mode leaves a window of at most 4. -/
theorem probe_rtt_left {s₀ : BbrSock M} {now₀ : ℕ} {s s' : BbrSock M × ℕ} {a : Action}
    {tr : List (Transition (BbrSock M × ℕ) Action)} (hrun : Trace (ActsAt k) (bbrInit k s₀ now₀, now₀) tr s)
    (hstep : ActsAt k s a s') :
    (s.1.ca.mode = .probeRtt → s'.1.ca.mode ≠ .probeRtt → a.NoInit → LeftInTime k (history noteAck [] tr) (s, a, s')) ∧
      ∀ rs clk rands, a = .call (.main rs clk rands) → s'.1.ca.mode = .probeRtt → s'.1.tp.sndCwnd.toNat ≤ 4 := by
  have hinv : Stamped k (history noteAck [] tr) s.1.phase s.2 :=
    hrun.history_invariant (J := fun n s => Stamped k n s.1.phase s.2) (fun _ _ _ _ h hs => (actsAt_stamped h hs).1) []
      (stamped_of_quiet (.inl (by rw [bbrInit_phase]; simp)))
  refine ⟨(actsAt_stamped hinv hstep).2, ?_⟩
  rintro rs clk rands rfl hin
  obtain ⟨p₁, p₂, hack⟩ := bbrMain_probes (k := k) s.1 rs clk rands
  have heq : bbrMain k s.1 rs clk rands = s'.1 := hstep.1
  rw [heq] at hack
  exact hack.window (hack.mode.symm.trans hin)

/-- Three packets are in flight at the ACK of jiffy 11001, which begins an episode; the ACK of jiffy 11300 ends it. -/
theorem probe_rtt_left_startup :
    let ack (now : ℕ) : Callback :=
      .main ⟨20, 10, 1000, 1000, 0, 10, 10, false, false⟩ ⟨now, now, now, now, now⟩ ⟨0, 0, 0⟩
    let s₀ := bbrInit plainKernel (plainSock 10 3) 1000
    ∃ s₁ s₂, ActsAt plainKernel (s₀, 1000) (.call (ack 11001)) (s₁, 11001) ∧
      ActsAt plainKernel (s₁, 11001) (.call (ack 11300)) (s₂, 11300) ∧
      s₁.ca.mode = .probeRtt ∧ s₁.tp.sndCwnd.toNat ≤ 4 ∧ s₂.ca.mode = .startup ∧
      LeftInTime plainKernel (history noteAck [] [((s₀, 1000), .call (ack 11001), (s₁, 11001))])
        ((s₁, 11001), .call (ack 11300), (s₂, 11300)) := by
  intro ack s₀
  have hclock₁ : Chronological 1000 (.call (ack 11001)) 11001 := by simp [Chronological, Action.readings, ack]
  have hclock₂ : Chronological 11001 (.call (ack 11300)) 11300 := by simp [Chronological, Action.readings, ack]
  obtain ⟨s₁, hs₁⟩ : ∃ s₁, (ack 11001).run plainKernel s₀ = s₁ := ⟨_, rfl⟩
  obtain ⟨s₂, hs₂⟩ : ∃ s₂, (ack 11300).run plainKernel s₁ = s₂ := ⟨_, rfl⟩
  have hfirst : ActsAt plainKernel (s₀, 1000) (.call (ack 11001)) (s₁, 11001) := ⟨hs₁, hclock₁⟩
  have hlast : ActsAt plainKernel (s₁, 11001) (.call (ack 11300)) (s₂, 11300) := ⟨hs₂, hclock₂⟩
  have hin : s₁.ca.mode = .probeRtt := by rw [← hs₁]; decide +kernel
  have hout : s₂.ca.mode = .startup := by rw [← hs₂, ← hs₁]; decide +kernel
  have hleft := (probe_rtt_left (.cons hfirst (.nil _)) hlast).1 hin (by simp [hout]) trivial
  have hwindow := (probe_rtt_left (.nil _) hfirst).2 _ _ _ rfl hin
  exact ⟨s₁, s₂, hfirst, hlast, hin, hwindow, hout, hleft⟩

end CoupledCC.Bbr
