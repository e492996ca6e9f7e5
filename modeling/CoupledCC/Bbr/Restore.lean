import CoupledCC.Bbr.Phase

/-!
# The window BBR restores after `BBR_PROBE_RTT`

At the begin of an episode the window goes to `prior_cwnd`, at its end the larger of the two windows is taken. The mode
is set before the window is saved, so that `bbr_save_cwnd` takes the maximum with what `prior_cwnd` held before. An
observer logs the episodes (`noteEpisode`); the calls of `bbr_check_probe_rtt_done` are seen by `doneCall`.

- `doneCall_of_left`: every end of an episode is such a call;
- `restored_iff`: the window is restored to that at the begin of the episode exactly when nothing larger was left over.
-/

namespace CoupledCC.Bbr

open Word Runs

variable {M : Type} (k : Kernel M)

/-! ## The calls of `bbr_check_probe_rtt_done` -/

/-- The call in the work on the mode, if it gets that far: the socket at the call, and the socket it returns. -/
def holdCall (s : BbrSock M) (clk : Clock) (rand : U32) : Option (BbrSock M × BbrSock M) :=
  if s.ca.mode = .probeRtt ∧ s.ca.probeRttDoneStamp ≠ 0 ∧ (bbrNoteRound s).ca.probeRttRoundDone = true then
    some (bbrNoteRound s, bbrCheckProbeRttDone (bbrNoteRound s) clk.check clk.restart rand)
  else none

/-- The call an action makes. -/
def doneCall (s : BbrSock M) : Action → Option (BbrSock M × BbrSock M)
  | .call (.main rs clk rands) => holdCall (bbrMarkAppLimited (bbrAtProbeRtt k s rs clk rands)) clk rands.probeRtt
  | .call (.cwndEvent event check restart rand) =>
    if event = .txStart ∧ s.tp.appLimited ≠ 0 ∧ s.ca.mode = .probeRtt then
      some (bbrRestartIdle s, bbrCheckProbeRttDone (bbrRestartIdle s) check restart rand)
    else none
  | _ => none

variable {k}

/-- The work on the mode is that call, or it leaves the mode and the saved window alone. -/
theorem bbrHoldProbeRtt_call (s : BbrSock M) (clk : Clock) (rand : U32) :
    ((s.ca.probeRttDoneStamp ≠ 0 ∧ (bbrNoteRound s).ca.probeRttRoundDone = true) ∧
      bbrHoldProbeRtt k s clk rand = bbrCheckProbeRttDone (bbrNoteRound s) clk.check clk.restart rand) ∨
    (¬ (s.ca.probeRttDoneStamp ≠ 0 ∧ (bbrNoteRound s).ca.probeRttRoundDone = true) ∧
      (bbrHoldProbeRtt k s clk rand).ca.mode = s.ca.mode ∧
      (bbrHoldProbeRtt k s clk rand).ca.priorCwnd = s.ca.priorCwnd) := by
  have hnote := bbrNoteRound_phase s
  unfold bbrHoldProbeRtt
  by_cases hstamp : s.ca.probeRttDoneStamp = 0
  · refine .inr ⟨fun h => h.1 hstamp, ?_⟩
    split
    · exact ⟨rfl, rfl⟩
    · rw [if_neg (fun h => h hstamp)]
      exact ⟨rfl, rfl⟩
  · rw [if_neg (fun h => hstamp h.1), if_pos hstamp]
    by_cases hround : (bbrNoteRound s).ca.probeRttRoundDone = true
    · exact .inl ⟨⟨hstamp, hround⟩, if_pos hround⟩
    · refine .inr ⟨fun h => hround h.2, ?_⟩
      simp only [if_neg hround]
      exact ⟨congrArg Phase.mode hnote, congrArg Phase.priorCwnd hnote⟩

/-- In `bbr_main` the work on the mode is a call seen by `doneCall`, or it leaves the mode and the saved window
alone. -/
theorem doneCall_main (s : BbrSock M) (rs : RateSample) (clk : Clock) (rands : Rands) :
    (∃ s₁ s₂, doneCall k s (.call (.main rs clk rands)) = some (s₁, s₂) ∧
      s₁ = bbrNoteRound (bbrMarkAppLimited (bbrAtProbeRtt k s rs clk rands)) ∧
      s₂ = bbrCheckProbeRttDone s₁ clk.check clk.restart rands.probeRtt ∧
      s₂ = bbrInProbeRtt k (bbrAtProbeRtt k s rs clk rands) clk rands.probeRtt ∧
      (bbrAtProbeRtt k s rs clk rands).ca.mode = .probeRtt ∧
        (bbrAtProbeRtt k s rs clk rands).ca.probeRttDoneStamp ≠ 0) ∨
    (doneCall k s (.call (.main rs clk rands)) = none ∧
      (bbrInProbeRtt k (bbrAtProbeRtt k s rs clk rands) clk rands.probeRtt).ca.mode =
        (bbrAtProbeRtt k s rs clk rands).ca.mode ∧
      (bbrInProbeRtt k (bbrAtProbeRtt k s rs clk rands) clk rands.probeRtt).ca.priorCwnd =
        (bbrAtProbeRtt k s rs clk rands).ca.priorCwnd) := by
  unfold doneCall holdCall bbrInProbeRtt
  simp only
  generalize bbrAtProbeRtt k s rs clk rands = s₀
  have hmark : (bbrMarkAppLimited s₀).ca = s₀.ca := rfl
  by_cases hmode : s₀.ca.mode = .probeRtt
  · rcases bbrHoldProbeRtt_call (k := k) (bbrMarkAppLimited s₀) clk rands.probeRtt with ⟨hcall, heq⟩ | ⟨hcall, heq⟩
    · rw [if_pos hmode, heq]
      exact .inl ⟨_, _, if_pos ⟨hmode, hcall⟩, rfl, rfl, rfl, hmode, hcall.1⟩
    · rw [if_pos hmode]
      exact .inr ⟨if_neg (fun h => hcall h.2), heq⟩
  · rw [if_neg hmode]
    exact .inr ⟨if_neg (fun h => hmode h.1), rfl, rfl⟩

/-- A restart from idle is such a call too, or it leaves the mode and the saved window alone. -/
theorem doneCall_cwndEvent (s : BbrSock M) (event : CaEvent) (check restart : ℕ) (rand : U32) :
    (∃ s₁ s₂, doneCall k s (.call (.cwndEvent event check restart rand)) = some (s₁, s₂) ∧ s₁ = bbrRestartIdle s ∧
      s₂ = bbrCheckProbeRttDone s₁ check restart rand ∧ s₂ = bbrCwndEvent k s event check restart rand ∧
      s.ca.mode = .probeRtt) ∨
    (doneCall k s (.call (.cwndEvent event check restart rand)) = none ∧
      (bbrCwndEvent k s event check restart rand).phase = s.phase) := by
  unfold doneCall bbrCwndEvent
  by_cases hidle : event = .txStart ∧ s.tp.appLimited ≠ 0
  · rw [if_pos hidle]
    have hmode : (bbrRestartIdle s).ca.mode = s.ca.mode := rfl
    simp only [hmode]
    by_cases hprobe : s.ca.mode = .probeRtt
    · exact .inl ⟨_, _, if_pos ⟨hidle.1, hidle.2, hprobe⟩, rfl, rfl, by simp [hprobe], hprobe⟩
    · right
      simp only [hprobe, and_false, if_false, true_and]
      split
      · exact bbrSetPacingRate_phase _ _ _
      · rfl
  · rw [if_neg hidle]
    exact .inr ⟨if_neg (fun h => hidle ⟨h.1, h.2.1⟩), rfl⟩

/-- The call ends the episode and takes the larger window, or it changes nothing. -/
theorem bbrCheckProbeRttDone_ends (s : BbrSock M) (check restart : ℕ) (rand : U32) :
    ((bbrCheckProbeRttDone s check restart rand).ca.mode ≠ .probeRtt ∧
      (bbrCheckProbeRttDone s check restart rand).tp.sndCwnd = umax s.tp.sndCwnd s.ca.priorCwnd) ∨
    bbrCheckProbeRttDone s check restart rand = s := by
  rcases bbrCheckProbeRttDone_phase s check restart rand with ⟨-, heq⟩ | ⟨-, heq⟩
  · have hmode : (bbrCheckProbeRttDone s check restart rand).ca.mode = s.phase.home := congrArg Phase.mode heq
    exact .inl ⟨by rw [hmode]; exact s.phase.home_ne, congrArg Phase.sndCwnd heq⟩
  · exact .inr heq

theorem doneCall_quiet {a : Action} (h : a.Quiet) (s : BbrSock M) : doneCall k s a = none := by
  cases a with
  | init now => exact absurd h id
  | kernel tp => rfl
  | call c =>
    cases c with
    | main rs clk rands => exact absurd h id
    | cwndEvent event check restart rand => exact absurd h id
    | _ => rfl

/-- Every action that ends an episode, other than `bbr_init`, makes a call that ends it. -/
theorem doneCall_of_left {s s' : BbrSock M} {a : Action} (ha : Acts k s a s') (hinit : a.NoInit)
    (hin : s.ca.mode = .probeRtt) (hout : s'.ca.mode ≠ .probeRtt) :
    ∃ s₁ s₂, doneCall k s a = some (s₁, s₂) ∧ s₂.ca.mode = s'.ca.mode := by
  rcases acts_cases ha with ⟨now, rfl, -⟩ | ⟨rs, clk, rands, rfl, rfl⟩ | ⟨event, check, restart, rand, rfl, rfl⟩ |
    ⟨-, hkeeps, -⟩
  · exact absurd hinit id
  · obtain ⟨cwnd, prev, hafter, -⟩ := bbrAfterProbeRtt_phase (k := k)
      (bbrInProbeRtt k (bbrAtProbeRtt k s rs clk rands) clk rands.probeRtt) rs
    rw [← bbrMain_eq] at hafter
    have hmode : (bbrMain k s rs clk rands).ca.mode = _ := congrArg Phase.mode hafter
    rcases doneCall_main (k := k) s rs clk rands with ⟨s₁, s₂, hcall, -, -, heq, -, -⟩ | ⟨-, hsame, -⟩
    · exact ⟨s₁, s₂, hcall, by rw [heq]; exact hmode.symm⟩
    · obtain ⟨round, full, mode, -, hdrains, hat⟩ := bbrAtProbeRtt_phase (k := k) s rs clk rands
      have hmode' : (bbrAtProbeRtt k s rs clk rands).ca.mode = .probeRtt := by
        rcases hat with hat | ⟨-, hat⟩
        · exact (congrArg Phase.mode hat).trans (hdrains.probeRtt_iff.mpr hin)
        · exact congrArg Phase.mode hat
      exact absurd (hmode.trans (hsame.trans hmode')) hout
  · rcases doneCall_cwndEvent (k := k) s event check restart rand with ⟨s₁, s₂, hcall, -, -, heq, -⟩ | ⟨-, heq⟩
    · exact ⟨s₁, s₂, hcall, by rw [heq]⟩
    · exact absurd ((congrArg Phase.mode heq).trans hin) hout
  · exact absurd (hkeeps.mode.trans hin) hout

/-! ## The log of the episodes -/

/-- The begin of an episode: what `prior_cwnd` held until then, and the window. -/
structure Episode where
  leftover : U32
  began : U32
deriving Repr, DecidableEq

/-- The end of an episode: the window at the call of `bbr_check_probe_rtt_done`, and the window that call sets. -/
structure Ending extends Episode where
  current : U32
  restored : U32
deriving Repr, DecidableEq

/-- The current episode, and the ends of the earlier ones. -/
structure EpisodeLog where
  current : Option Episode
  endings : List Ending
deriving Repr, DecidableEq

def EpisodeLog.empty : EpisodeLog := ⟨none, []⟩

/-- The log after an action. -/
def noteEpisode (k : Kernel M) (n : EpisodeLog) (t : Transition (BbrSock M) Action) : EpisodeLog :=
  match doneCall k t.1 t.2.1 with
  | some (s₁, s₂) =>
    if s₂.ca.mode = .probeRtt then n
    else { n with endings := n.endings ++ n.current.toList.map fun e => ⟨e, s₁.tp.sndCwnd, s₂.tp.sndCwnd⟩ }
  | none =>
    if t.1.ca.mode ≠ .probeRtt ∧ t.2.2.ca.mode = .probeRtt then
      { n with current := some ⟨t.1.ca.priorCwnd, t.1.tp.sndCwnd⟩ }
    else n

/-- During an episode `prior_cwnd` is the larger of the window at its begin and of what was left over; and every end
logged so far took the larger of that and of the window it found. -/
structure Logged (n : EpisodeLog) (s : BbrSock M) : Prop where
  saved : s.ca.mode = .probeRtt → ∃ e ∈ n.current, s.ca.priorCwnd = umax e.leftover e.began
  endings : ∀ e ∈ n.endings, e.restored = umax e.current (umax e.leftover e.began)

section Steps

variable {n : EpisodeLog} {s s' s₁ s₂ : BbrSock M} {a : Action}

/-- An action without a call that leaves the mode and the saved window alone. -/
theorem Logged.quiet (h : Logged n s) (hcall : doneCall k s a = none) (hmode : s'.ca.mode = s.ca.mode)
    (hprior : s'.ca.priorCwnd = s.ca.priorCwnd) : Logged (noteEpisode k n (s, a, s')) s' := by
  have hnote : noteEpisode k n (s, a, s') = n := by
    unfold noteEpisode
    rw [hcall]
    exact if_neg (fun hbegin => hbegin.1 (hmode.symm.trans hbegin.2))
  rw [hnote]
  exact ⟨fun hin => by rw [hprior]; exact h.saved (hmode.symm.trans hin), h.endings⟩

/-- An action without a call, outside the mode. -/
theorem Logged.outside (h : Logged n s) (hcall : doneCall k s a = none) (hout : s'.ca.mode ≠ .probeRtt) :
    Logged (noteEpisode k n (s, a, s')) s' := by
  have hnote : noteEpisode k n (s, a, s') = n := by
    unfold noteEpisode
    rw [hcall]
    exact if_neg (fun hbegin => hout hbegin.2)
  rw [hnote]
  exact ⟨fun hin => absurd hin hout, h.endings⟩

/-- An action that begins an episode. -/
theorem Logged.begins (h : Logged n s) (hcall : doneCall k s a = none) (hout : s.ca.mode ≠ .probeRtt)
    (hin : s'.ca.mode = .probeRtt) (hprior : s'.ca.priorCwnd = umax s.ca.priorCwnd s.tp.sndCwnd) :
    Logged (noteEpisode k n (s, a, s')) s' := by
  have hnote : noteEpisode k n (s, a, s') = { n with current := some ⟨s.ca.priorCwnd, s.tp.sndCwnd⟩ } := by
    unfold noteEpisode
    rw [hcall]
    exact if_pos ⟨hout, hin⟩
  rw [hnote]
  exact ⟨fun _ => ⟨_, rfl, hprior⟩, h.endings⟩

/-- An action with a call in an episode: the episode goes on as it was, or it ends. -/
theorem Logged.call (h : Logged n s) (hcall : doneCall k s a = some (s₁, s₂)) (hin : s.ca.mode = .probeRtt)
    (hin₁ : s₁.ca.mode = .probeRtt) (hprior₁ : s₁.ca.priorCwnd = s.ca.priorCwnd)
    (hends : (s₂.ca.mode ≠ .probeRtt ∧ s₂.tp.sndCwnd = umax s₁.tp.sndCwnd s₁.ca.priorCwnd) ∨ s₂ = s₁)
    (hmode : s'.ca.mode = s₂.ca.mode) (hprior : s'.ca.priorCwnd = s₂.ca.priorCwnd) :
    Logged (noteEpisode k n (s, a, s')) s' := by
  obtain ⟨e, he, hsaved⟩ := h.saved hin
  unfold noteEpisode
  simp only [hcall]
  rcases hends with ⟨hout, hcwnd⟩ | rfl
  · rw [if_neg hout]
    refine ⟨fun h' => absurd (hmode.symm.trans h') hout, fun x hx => ?_⟩
    rw [Option.mem_def] at he
    simp only [he, Option.toList_some, List.map_cons, List.map_nil, List.mem_append, List.mem_singleton] at hx
    rcases hx with hx | rfl
    · exact h.endings x hx
    · simp only [hcwnd, hprior₁, hsaved]
  · rw [if_pos hin₁]
    exact ⟨fun _ => ⟨e, he, hprior.trans (hprior₁.trans hsaved)⟩, h.endings⟩

end Steps

theorem bbrMain_logged {n : EpisodeLog} {s : BbrSock M} (h : Logged n s) (rs : RateSample) (clk : Clock)
    (rands : Rands) :
    Logged (noteEpisode k n (s, .call (.main rs clk rands), bbrMain k s rs clk rands)) (bbrMain k s rs clk rands) := by
  obtain ⟨round, full, mode, -, hdrains, hat⟩ := bbrAtProbeRtt_phase (k := k) s rs clk rands
  obtain ⟨cwnd, prev, hafter, -⟩ := bbrAfterProbeRtt_phase (k := k)
    (bbrInProbeRtt k (bbrAtProbeRtt k s rs clk rands) clk rands.probeRtt) rs
  rw [← bbrMain_eq] at hafter
  have hmode : (bbrMain k s rs clk rands).ca.mode = _ := congrArg Phase.mode hafter
  have hprior : (bbrMain k s rs clk rands).ca.priorCwnd = _ := congrArg Phase.priorCwnd hafter
  rcases doneCall_main (k := k) s rs clk rands with ⟨s₁, s₂, hcall, hs₁, hs₂, heq, hin, hstamp⟩ | ⟨hcall, hin, hsame⟩
  · rcases hat with hat | ⟨-, hat⟩
    · have hin' : s.ca.mode = .probeRtt := hdrains.probeRtt_iff.mp ((congrArg Phase.mode hat).symm.trans hin)
      have hphase₁ := bbrNoteRound_phase (bbrMarkAppLimited (bbrAtProbeRtt k s rs clk rands))
      rw [← hs₁] at hphase₁
      have hin₁ : s₁.ca.mode = .probeRtt := (congrArg Phase.mode hphase₁).trans hin
      have hprior₁ : s₁.ca.priorCwnd = s.ca.priorCwnd :=
        (congrArg Phase.priorCwnd hphase₁).trans (congrArg Phase.priorCwnd hat)
      refine h.call hcall hin' hin₁ hprior₁ ?_ (by rw [heq]; exact hmode) (by rw [heq]; exact hprior)
      rw [hs₂]
      exact bbrCheckProbeRttDone_ends _ _ _ _
    · exact absurd (congrArg Phase.probeRttDoneStamp hat) hstamp
  · rw [show (bbrInProbeRtt k (bbrAtProbeRtt k s rs clk rands) clk rands.probeRtt).phase.mode = _ from hin] at hmode
    rw [show (bbrInProbeRtt k (bbrAtProbeRtt k s rs clk rands) clk rands.probeRtt).phase.priorCwnd = _ from hsame]
      at hprior
    rcases hat with hat | ⟨hnot, hat⟩
    · have hmode' := hmode.trans (congrArg Phase.mode hat)
      have hprior' := hprior.trans (congrArg Phase.priorCwnd hat)
      by_cases hprobe : s.ca.mode = .probeRtt
      · exact h.quiet hcall (hmode'.trans ((hdrains.probeRtt_iff.mpr hprobe).trans hprobe.symm)) hprior'
      · exact h.outside hcall (fun hp => hprobe (hdrains.probeRtt_iff.mp (hmode'.symm.trans hp)))
    · exact h.begins hcall (fun hp => hnot (hdrains.probeRtt_iff.mpr hp)) (hmode.trans (congrArg Phase.mode hat))
        (hprior.trans (congrArg Phase.priorCwnd hat))

/-- **One action** other than a call of `bbr_ssthresh`. -/
theorem acts_logged {n : EpisodeLog} {s s' : BbrSock M} {a : Action} (h : Logged n s) (ha : Acts k s a s')
    (hloss : a ≠ .call .ssthresh) : Logged (noteEpisode k n (s, a, s')) s' := by
  rcases acts_cases ha with ⟨now, rfl, rfl⟩ | ⟨rs, clk, rands, rfl, rfl⟩ | ⟨event, check, restart, rand, rfl, rfl⟩ |
    ⟨hquiet, hkeeps, hprior⟩
  · exact h.outside rfl (bbrInit_out s now)
  · exact bbrMain_logged h rs clk rands
  · rcases doneCall_cwndEvent (k := k) s event check restart rand with
      ⟨s₁, s₂, hcall, hs₁, hs₂, heq, hin⟩ | ⟨hcall, heq⟩
    · refine h.call hcall hin (by rw [hs₁]; exact hin) (by rw [hs₁]; rfl) ?_ (by rw [heq]) (by rw [heq])
      rw [hs₂]
      exact bbrCheckProbeRttDone_ends _ _ _ _
    · exact h.quiet hcall (congrArg Phase.mode heq) (congrArg Phase.priorCwnd heq)
  · exact h.quiet (doneCall_quiet hquiet s) hkeeps.mode (hprior hloss)

/-! ## Runs -/

/-- **What is restored.** In a run from `bbr_init` without loss recovery, an episode ends with the larger of the window
then and the window at its begin exactly when what was left over in `prior_cwnd` before it is no larger. -/
theorem restored_iff {s₀ s : BbrSock M} {now : ℕ} {tr : List (Transition (BbrSock M) Action)}
    (hrun : Trace (fun s a s' => Acts k s a s' ∧ a ≠ .call .ssthresh) (bbrInit k s₀ now) tr s) :
    ∀ e ∈ (history (noteEpisode k) .empty tr).endings,
      e.restored = umax e.current e.began ↔ e.leftover ≤ umax e.current e.began := by
  have hlogged : Logged (history (noteEpisode k) .empty tr) s := by
    have hstart : Logged .empty (bbrInit k s₀ now) :=
      ⟨fun hin => absurd hin (bbrInit_out s₀ now), by simp [EpisodeLog.empty]⟩
    exact hrun.history_invariant (fun _ _ _ _ h hstep => acts_logged h hstep.1 hstep.2) _ hstart
  intro e he
  rw [hlogged.endings e he, ← BitVec.toNat_inj, BitVec.le_def]
  simp only [toNat_umax]
  omega

/-- At each of the given moments the kernel counts two more packets as delivered, and their ACK, which starts a round,
arrives. -/
def acksOfTwo (s : BbrSock U32) : List ℕ → List Action
  | [] => []
  | now :: later =>
    let write : Action := .kernel { s.tp with delivered := s.tp.delivered + 2 }
    let ack : Action :=
      .call (.main ⟨s.tp.delivered, 2, 1000, 1000, 0, 2, 4, false, false⟩ ⟨now, now, now, now, now⟩ ⟨0, 0, 0⟩)
    write :: ack :: acksOfTwo (ack.run plainKernel (write.run plainKernel s)) later

/-- An action that is not a call of `bbr_ssthresh`. -/
def calmRun (s : BbrSock U32) (a : Action) : Option (BbrSock U32) :=
  if a = .call .ssthresh then none else some (a.run plainKernel s)

theorem acts_of_calmRun {s s' : BbrSock U32} {a : Action} (h : calmRun s a = some s') :
    Acts plainKernel s a s' ∧ a ≠ .call .ssthresh := by
  unfold calmRun at h
  split at h
  · cases h
  · rename_i hloss
    exact ⟨Option.some.inj h, hloss⟩

/-- One episode that begins with a window of 100. -/
theorem restored_iff_once :
    ∃ tr s, Trace (fun s a s' => Acts plainKernel s a s' ∧ a ≠ .call .ssthresh)
      (bbrInit plainKernel (plainSock 100 2) 0) tr s ∧
      (history (noteEpisode plainKernel) .empty tr).endings = [⟨⟨0, 100⟩, 4, 100⟩] ∧ (100 : U32) = umax 4 100 := by
  have hrun : (transitions calmRun (bbrInit plainKernel (plainSock 100 2) 0)
      (acksOfTwo (bbrInit plainKernel (plainSock 100 2) 0) [10001, 10300])).map
      (fun p => (history (noteEpisode plainKernel) .empty p.1).endings) = some [⟨⟨0, 100⟩, 4, 100⟩] := by decide +kernel
  obtain ⟨⟨tr, s⟩, htr, hends⟩ := Option.map_eq_some_iff.mp hrun
  have htrace := (Trace.of_transitions htr).mono fun _ _ _ => acts_of_calmRun
  exact ⟨tr, s, htrace, hends, (restored_iff htrace ⟨⟨0, 100⟩, 4, 100⟩ (by rw [hends]; simp)).mpr (by decide)⟩

/-- Between two episodes the pipe is found full and the window falls from 102 to 20; the end of the second restores the
window of 100 the first one left over. No recovery is ever entered. -/
theorem stale_window_restored :
    ∃ tr s, Trace (fun s a s' => Acts plainKernel s a s' ∧ a ≠ .call .ssthresh)
      (bbrInit plainKernel (plainSock 100 2) 0) tr s ∧
      (∀ t ∈ tr, t.2.2.tp.icskCaState < tcpCaRecovery ∧ t.2.2.ca.prevCaState.setWidth 8 < tcpCaRecovery) ∧
      (history (noteEpisode plainKernel) .empty tr).endings = [⟨⟨0, 100⟩, 4, 100⟩, ⟨⟨100, 20⟩, 4, 100⟩] ∧
      ¬ ∀ e ∈ (history (noteEpisode plainKernel) .empty tr).endings, e.restored = umax e.current e.began := by
  have hrun : (transitions calmRun (bbrInit plainKernel (plainSock 100 2) 0)
      (acksOfTwo (bbrInit plainKernel (plainSock 100 2) 0) [10001, 10300, 10301, 10302, 20400, 20700])).map
      (fun p => (decide (∀ t ∈ p.1, t.2.2.tp.icskCaState < tcpCaRecovery ∧
        t.2.2.ca.prevCaState.setWidth 8 < tcpCaRecovery),
        (history (noteEpisode plainKernel) .empty p.1).endings)) =
      some (true, [⟨⟨0, 100⟩, 4, 100⟩, ⟨⟨100, 20⟩, 4, 100⟩]) := by decide +kernel
  obtain ⟨⟨tr, s⟩, htr, hends⟩ := Option.map_eq_some_iff.mp hrun
  obtain ⟨hcalm, hlog⟩ := Prod.mk.inj hends
  have htrace := (Trace.of_transitions htr).mono fun _ _ _ => acts_of_calmRun
  refine ⟨tr, s, htrace, of_decide_eq_true hcalm, hlog, fun hall => ?_⟩
  have hsecond := hall ⟨⟨100, 20⟩, 4, 100⟩ (by rw [hlog]; simp)
  revert hsecond
  decide

end CoupledCC.Bbr
