import CoupledCC.Bbr.Phase

/-!
# The mode of BBR and its flag for a full pipe

Outside `BBR_PROBE_RTT` the mode tells whether the pipe was found full. Inside a call of `bbr_main` this does not hold:
the flag is set before the mode follows, and `BBR_PROBE_RTT` ends in a mode chosen from the flag.

- `Agrees`: the invariant, on a mode and a flag;
- `Drains.agrees`, `Probes.agrees`: the two steps of the mode machine that change the mode;
- `mode_agrees`: it holds after every callback of a run, and the flag is never taken back.
-/

namespace CoupledCC.Bbr

open Word Runs

/-- The mode agrees with the flag `full_bw_reached`. -/
def Agrees (mode : BbrMode) (full : Bool) : Prop :=
  mode = .probeRtt ∨ (full = true ↔ mode = .drain ∨ mode = .probeBw)

/-- The mode `bbr_reset_mode` goes to agrees with the flag. -/
theorem agrees_home (p : Phase) : Agrees p.home p.fullBwReached := by
  right
  unfold Phase.home
  cases p.fullBwReached <;> simp

/-- In the modes after the startup the flag is set. -/
theorem Agrees.full {m : BbrMode} {full : Bool} (h : Agrees m full) (hm : m = .drain ∨ m = .probeBw) : full = true := by
  rcases h with rfl | hiff
  · simp at hm
  · exact hiff.mpr hm

/-- `bbr_check_drain` restores the agreement after the flag may have been set. -/
theorem Drains.agrees {full full' : Bool} {m m' : BbrMode} (h : Drains full' m m') (hmode : Agrees m full)
    (hfull : full = true → full' = true) : Agrees m' full' := by
  cases h with
  | keep hstart =>
    cases m with
    | startup => exact .inr (by simp [hstart rfl])
    | drain => exact .inr (by simp [hfull (hmode.full (.inl rfl))])
    | probeBw => exact .inr (by simp [hfull (hmode.full (.inr rfl))])
    | probeRtt => exact .inl rfl
  | begin hset => exact .inr (by simp [hset])
  | done hm =>
    rcases hm with rfl | ⟨-, hset⟩
    · exact .inr (by simp [hfull (hmode.full (.inl rfl))])
    · exact .inr (by simp [hset])

/-- Work on `BBR_PROBE_RTT` keeps the agreement and the flag. -/
theorem Probes.agrees {dwell : U32} {clk : Clock} {p p' : Phase} (h : Probes dwell clk p p')
    (hmode : Agrees p.mode p.fullBwReached) : Agrees p'.mode p'.fullBwReached ∧ p'.fullBwReached = p.fullBwReached := by
  cases h with
  | leave => exact ⟨agrees_home _, rfl⟩
  | _ => exact ⟨hmode, rfl⟩

/-- The agreement in a state of the controller. -/
def ModeAgrees {M : Type} (s : BbrSock M) : Prop :=
  Agrees s.ca.mode s.ca.fullBwReached

section Runs

variable {M : Type} {k : Kernel M}

theorem bbrMain_agrees {s : BbrSock M} (hs : ModeAgrees s) (rs : RateSample) (clk : Clock) (rands : Rands) :
    ModeAgrees (bbrMain k s rs clk rands) ∧
      (s.ca.fullBwReached = true → (bbrMain k s rs clk rands).ca.fullBwReached = true) := by
  obtain ⟨round, full, mode, p₁, p₂, cwnd, prev, hstays, hdrains, henter, hprobes, hphase, -⟩ :=
    bbrMain_phase (k := k) s rs clk rands
  have hmode : Agrees mode full := hdrains.agrees hs hstays
  have hp₁ : Agrees p₁.mode p₁.fullBwReached ∧ p₁.fullBwReached = full := by
    rcases henter with rfl | ⟨-, rfl⟩
    · exact ⟨hmode, rfl⟩
    · exact ⟨.inl rfl, rfl⟩
  obtain ⟨hp₂, hkept⟩ := hprobes.agrees hp₁.1
  have hmode' : (bbrMain k s rs clk rands).ca.mode = p₂.mode := congrArg Phase.mode hphase
  have hfull' : (bbrMain k s rs clk rands).ca.fullBwReached = p₂.fullBwReached := congrArg Phase.fullBwReached hphase
  unfold ModeAgrees
  rw [hmode', hfull']
  exact ⟨hp₂, fun h => by rw [hkept, hp₁.2]; exact hstays h⟩

theorem bbrCwndEvent_agrees {s : BbrSock M} (hs : ModeAgrees s) (event : CaEvent) (check restart : ℕ) (rand : U32) :
    ModeAgrees (bbrCwndEvent k s event check restart rand) ∧
      (bbrCwndEvent k s event check restart rand).ca.fullBwReached = s.ca.fullBwReached := by
  rcases bbrCwndEvent_phase (k := k) s event check restart rand with heq | ⟨-, -, heq⟩
  · have hmode : (bbrCwndEvent k s event check restart rand).ca.mode = s.ca.mode := congrArg Phase.mode heq
    have hfull : (bbrCwndEvent k s event check restart rand).ca.fullBwReached = s.ca.fullBwReached :=
      congrArg Phase.fullBwReached heq
    unfold ModeAgrees
    rw [hmode, hfull]
    exact ⟨hs, rfl⟩
  · have hmode : (bbrCwndEvent k s event check restart rand).ca.mode = s.phase.home := congrArg Phase.mode heq
    have hfull : (bbrCwndEvent k s event check restart rand).ca.fullBwReached = s.ca.fullBwReached :=
      congrArg Phase.fullBwReached heq
    unfold ModeAgrees
    rw [hmode, hfull]
    exact ⟨agrees_home s.phase, rfl⟩

/-- **One action.** -/
theorem acts_agrees {s s' : BbrSock M} {a : Action} (hs : ModeAgrees s) (ha : Acts k s a s') (hinit : a.NoInit) :
    ModeAgrees s' ∧ (s.ca.fullBwReached = true → s'.ca.fullBwReached = true) := by
  rcases acts_cases ha with ⟨now, rfl, -⟩ | ⟨rs, clk, rands, -, rfl⟩ | ⟨event, check, restart, rand, -, rfl⟩ |
    ⟨-, hkeeps, -⟩
  · exact absurd hinit id
  · exact bbrMain_agrees hs rs clk rands
  · obtain ⟨hagrees, hfull⟩ := bbrCwndEvent_agrees (k := k) hs event check restart rand
    exact ⟨hagrees, fun h => hfull.trans h⟩
  · have hmode : s'.ca.mode = s.ca.mode := hkeeps.mode
    have hfull : s'.ca.fullBwReached = s.ca.fullBwReached := hkeeps.full
    unfold ModeAgrees
    rw [hmode, hfull]
    exact ⟨hs, id⟩

/-- **The mode agrees with the flag** after `bbr_init` and after every action of a run from it, and no action takes the
flag back. -/
theorem mode_agrees {s₀ s : BbrSock M} {now : ℕ} {tr : List (Transition (BbrSock M) Action)}
    (hrun : Trace (fun s a s' => Acts k s a s' ∧ a.NoInit) (bbrInit k s₀ now) tr s) :
    ModeAgrees (bbrInit k s₀ now) ∧
      ∀ t ∈ tr, ModeAgrees t.2.2 ∧ (t.1.ca.fullBwReached = true → t.2.2.ca.fullBwReached = true) := by
  have hinit : ModeAgrees (bbrInit k s₀ now) := .inr (by simp [bbrInit, bbrResetStartupMode, bbrResetLtBwSampling,
    bbrResetLtBwSamplingInterval])
  refine ⟨hinit, ?_⟩
  generalize bbrInit k s₀ now = s₁ at hrun hinit
  induction hrun with
  | nil => simp
  | cons hstep _ ih =>
    obtain ⟨hagrees, hflag⟩ := acts_agrees hinit hstep.1 hstep.2
    rw [List.forall_mem_cons]
    exact ⟨⟨hagrees, hflag⟩, ih hagrees⟩

end Runs

/-- Four rounds with the same bandwidth: the pipe is found full, and the queue is being drained. -/
theorem mode_agrees_drain :
    ∃ tr s, Trace (fun s a s' => Acts plainKernel s a s' ∧ a.NoInit)
      (bbrInit plainKernel (plainSock 10 100) 1000) tr s ∧
      s.ca.mode = .drain ∧ s.ca.fullBwReached = true ∧
      ModeAgrees (bbrInit plainKernel (plainSock 10 100) 1000) ∧
      ∀ t ∈ tr, ModeAgrees t.2.2 ∧ (t.1.ca.fullBwReached = true → t.2.2.ca.fullBwReached = true) := by
  let ack : Action :=
    .call (.main ⟨20, 10, 1000, 1000, 0, 10, 10, false, false⟩ ⟨1001, 1001, 1001, 1001, 1001⟩ ⟨0, 0, 0⟩)
  let next (s : BbrSock U32) (a : Action) : Option (BbrSock U32) := if a = ack then some (a.run plainKernel s) else none
  have hnext : ∀ s a s', next s a = some s' → Acts plainKernel s a s' ∧ a.NoInit := by
    intro s a s' h
    simp only [next] at h
    split at h
    · rename_i hack
      exact ⟨Option.some.inj h, by rw [hack]; trivial⟩
    · cases h
  have hrun : (transitions next (bbrInit plainKernel (plainSock 10 100) 1000) (List.replicate 4 ack)).map
      (fun p => (p.2.ca.mode, p.2.ca.fullBwReached)) = some (.drain, true) := by decide +kernel
  obtain ⟨⟨tr, s⟩, htr, hends⟩ := Option.map_eq_some_iff.mp hrun
  obtain ⟨hmode, hfull⟩ := Prod.mk.inj hends
  have htrace := (Trace.of_transitions htr).mono hnext
  exact ⟨tr, s, htrace, hmode, hfull, mode_agrees htrace⟩

end CoupledCC.Bbr
