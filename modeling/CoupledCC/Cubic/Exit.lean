import CoupledCC.Cubic.Runs

/-!
# The end of slow start

HyStart ends slow start by lowering `snd_ssthresh` to the window. Two observers follow a run: how often a callback
lowered the threshold (`noteExits`), and which delays `cubictcp_acked` took (`noteDelays`), both since the last
`bictcp_reset`.

- `cubictcpAcked_outcome`: one call of `cubictcp_acked`;
- `hystart_exits_once`: between two resets HyStart ends slow start at most once, and nothing else writes the threshold;
- `delay_min_is_minimum`: `delay_min` is the minimum of the delays.
-/

namespace CoupledCC.Cubic

open Word Runs

/-! ## What the callbacks leave of the socket -/

/-- `hystart_update` leaves the socket alone or ends slow start. -/
inductive HystartOutcome (s s' : CubicSock) : Prop
  | goesOn (tp : s'.tp = s.tp) (found : s'.ca.found = s.ca.found)
  | ends (tp : s'.tp = { s.tp with sndSsthresh := s.tp.sndCwnd }) (found : s'.ca.found = 1)

theorem hystartFound_outcome (s : CubicSock) : HystartOutcome s (hystartFound s) :=
  .ends rfl rfl

/-- The second branch may end slow start once more. -/
theorem HystartOutcome.trans {s s' s'' : CubicSock} (h : HystartOutcome s s') (h' : HystartOutcome s' s'') :
    HystartOutcome s s'' := by
  cases h with
  | goesOn htp hfound =>
    cases h' with
    | goesOn htp' hfound' => exact .goesOn (htp'.trans htp) (hfound'.trans hfound)
    | ends htp' hfound' => exact .ends (by rw [htp', htp]) hfound'
  | ends htp hfound =>
    cases h' with
    | goesOn htp' hfound' => exact .ends (htp'.trans htp) (hfound'.trans hfound)
    | ends htp' hfound' => exact .ends (by rw [htp', htp]) hfound'

theorem hystartTrain_outcome {s s' : CubicSock} (h : hystartTrain s = some s') : HystartOutcome s s' := by
  unfold hystartTrain at h
  dsimp only at h
  split at h
  · obtain ⟨allowance, -, rfl⟩ := Option.map_eq_some_iff.mp h
    -- whatever the threshold is
    generalize (if s.tp.skPacingStatus = skPacingNone then _ else _ : U32) = threshold
    split
    · exact .ends rfl rfl
    · exact .goesOn rfl rfl
  · cases h
    exact .goesOn rfl rfl

theorem hystartDelaySample_outcome (s : CubicSock) (delay : U32) : HystartOutcome s (hystartDelaySample s delay) := by
  unfold hystartDelaySample
  split
  · exact .goesOn rfl rfl
  · split
    · exact hystartFound_outcome s
    · exact .goesOn rfl rfl

theorem hystartUpdate_outcome {s s' : CubicSock} {delay : U32} (h : hystartUpdate s delay = some s') :
    HystartOutcome s s' ∧ s'.ca.delayMin = s.ca.delayMin := by
  obtain ⟨s₁, htrain, rfl⟩ := hystartUpdate_branches h
  refine ⟨(hystartTrain_outcome htrain).trans (hystartDelaySample_outcome s₁ delay), ?_⟩
  have hmin : (hystartDelaySample s₁ delay).ca.delayMin = s₁.ca.delayMin := by
    unfold hystartDelaySample
    split
    · rfl
    · split <;> rfl
  rw [hmin]
  exact (hystartTrain_frame htrain).2.2.1

/-- `cubictcp_cong_avoid` writes the window and its credits, and nothing else of the socket. -/
theorem cubictcpCongAvoid_tp {cfg : Config} {s s' : CubicSock} {ack acked : U32} {clk : Jiffies}
    (h : cubictcpCongAvoid cfg s ack acked clk = some s') : ∃ cwnd cnt, s'.tp = s.tp.withWindow cwnd cnt := by
  have hreset (s₁ : CubicSock) :
      (if hystart && after ack s₁.ca.endSeq then bictcpHystartReset s₁ else s₁).tp = s₁.tp := by
    split <;> rfl
  have hslow : ∃ cwnd cnt, (cubictcpSlowStart s ack acked).1.tp = s.tp.withWindow cwnd cnt := by
    simp only [cubictcpSlowStart, hreset]
    exact ⟨_, s.tp.sndCwndCnt, rfl⟩
  have hself : ∃ cwnd cnt, s.tp = s.tp.withWindow cwnd cnt := ⟨s.tp.sndCwnd, s.tp.sndCwndCnt, rfl⟩
  have hupdate {s₁ s₂ : CubicSock} {left : U32} {call : Option U32}
      (hrun : cubictcpUpdateCall cfg s₁ left clk = some (s₂, call)) : s₂.tp = s₁.tp := by
    obtain ⟨ca, -, heq⟩ := Option.map_eq_some_iff.mp hrun
    cases heq
    rfl
  obtain ⟨⟨s₂, call⟩, hcall, h⟩ := Option.bind_eq_some_iff.mp h
  have hframe : ∃ cwnd cnt, s₂.tp = s.tp.withWindow cwnd cnt := by
    unfold cubictcpAiCall at hcall
    split at hcall
    · cases hcall
      exact hself
    · split at hcall
      · dsimp only at hcall
        split at hcall
        · cases hcall
          exact hslow
        · rw [hupdate hcall]
          exact hslow
      · rw [hupdate hcall]
        exact hself
  cases call with
  | none =>
    cases h
    exact hframe
  | some left =>
    obtain ⟨tp, hai, rfl⟩ := Option.map_eq_some_iff.mp h
    obtain ⟨cwnd, cnt, hframe⟩ := hframe
    dsimp only
    rw [tcpCongAvoidAi_frame hai, hframe]
    exact ⟨_, _, rfl⟩

/-! ## A delay sample -/

/-- `cubictcp_acked` takes the delay of an ACK. -/
def TakesDelay (cfg : Config) (s : CubicSock) (rttUs now : U32) : Prop :=
  ¬ rttUs.toInt < 0 ∧ ¬ (s.ca.epochStart ≠ 0 ∧ (now - s.ca.epochStart).signExtend 64 < cfg.hz)

instance (cfg : Config) (s : CubicSock) (rttUs now : U32) : Decidable (TakesDelay cfg s rttUs now) :=
  inferInstanceAs (Decidable (¬ rttUs.toInt < 0 ∧
    ¬ (s.ca.epochStart ≠ 0 ∧ (now - s.ca.epochStart).signExtend 64 < cfg.hz)))

/-- The delay it takes: a round-trip time of 0 counts as 1. -/
def delayOf (rttUs : U32) : U32 :=
  if rttUs = 0 then 1 else rttUs

/-- `delay_min` after a delay. -/
def minDelay (delayMin delay : U32) : U32 :=
  if delayMin = 0 ∨ delay < delayMin then delay else delayMin

/-- **One call of `cubictcp_acked`.** -/
theorem cubictcpAcked_outcome {cfg : Config} {s s' : CubicSock} {rttUs now : U32}
    (h : cubictcpAcked cfg s rttUs now = some s') :
    s'.ca.delayMin = (if TakesDelay cfg s rttUs now then minDelay s.ca.delayMin (delayOf rttUs) else s.ca.delayMin) ∧
      (HystartOutcome s s' ∧ (s'.tp ≠ s.tp ∨ s'.ca.found ≠ s.ca.found →
        s.ca.found = 0 ∧ tcpInSlowStart s.tp = true ∧ hystartLowWindow ≤ s.tp.sndCwnd)) := by
  unfold cubictcpAcked at h
  have hsame {s' : CubicSock} (htp : s'.tp = s.tp) (hfound : s'.ca.found = s.ca.found) :
      HystartOutcome s s' ∧ (s'.tp ≠ s.tp ∨ s'.ca.found ≠ s.ca.found →
        s.ca.found = 0 ∧ tcpInSlowStart s.tp = true ∧ hystartLowWindow ≤ s.tp.sndCwnd) :=
    ⟨.goesOn htp hfound, fun hne => hne.elim (absurd htp) (absurd hfound)⟩
  split at h
  · rename_i hsign
    cases h
    have hno : ¬ TakesDelay cfg s rttUs now := fun htakes => htakes.1 hsign
    exact ⟨(if_neg hno).symm, hsame rfl rfl⟩
  · rename_i hsign
    split at h
    · rename_i hepoch
      cases h
      have hno : ¬ TakesDelay cfg s rttUs now := fun htakes => htakes.2 hepoch
      exact ⟨(if_neg hno).symm, hsame rfl rfl⟩
    · rename_i hepoch
      have htakes : TakesDelay cfg s rttUs now := ⟨hsign, hepoch⟩
      rw [if_pos htakes]
      dsimp only at h
      split at h
      · rename_i hcall
        obtain ⟨houtcome, hmin⟩ := hystartUpdate_outcome h
        refine ⟨hmin, ?_, fun _ => ⟨hcall.1, hcall.2.1, hcall.2.2.2⟩⟩
        cases houtcome with
        | goesOn htp hfound => exact .goesOn htp hfound
        | ends htp hfound => exact .ends htp hfound
      · cases h
        exact ⟨rfl, hsame rfl rfl⟩

/-! ## Runs -/

/-- How often a callback wrote the threshold since the last `bictcp_reset`. -/
def noteExits (n : ℕ) : Transition CubicSock Action → ℕ
  | (_, .init, _) => 0
  | (_, .kernel _, _) => n
  | (_, .call (.state newState), _) => if newState = tcpCaLoss then 0 else n
  | (s, .call _, s') => if s'.tp.sndSsthresh ≠ s.tp.sndSsthresh then n + 1 else n

/-- The delays that `cubictcp_acked` took since the last `bictcp_reset`, the latest first. -/
def noteDelays (cfg : Config) (delays : List ℕ) : Transition CubicSock Action → List ℕ
  | (_, .init, _) => []
  | (_, .call (.state newState), _) => if newState = tcpCaLoss then [] else delays
  | (s, .call (.acked rttUs now), _) => if TakesDelay cfg s rttUs now then (delayOf rttUs).toNat :: delays else delays
  | _ => delays

/-- `found` is the number of times that HyStart has ended slow start. -/
def Exited (n : ℕ) (s : CubicSock) : Prop :=
  (s.ca.found = 0 ∧ n = 0) ∨ (s.ca.found = 1 ∧ n = 1)

/-- `delay_min` is the minimum of the delays. -/
structure IsDelayMin (delays : List ℕ) (s : CubicSock) : Prop where
  pos : ∀ d ∈ delays, 0 < d
  min : s.ca.delayMin.toNat = delays.min?.getD 0

theorem delayOf_pos (rttUs : U32) : 0 < (delayOf rttUs).toNat := by
  unfold delayOf
  split
  · decide
  · rename_i hne
    exact Nat.pos_of_ne_zero fun h => hne (BitVec.eq_of_toNat_eq h)

/-- One delay more. -/
theorem IsDelayMin.cons {delays : List ℕ} {s s' : CubicSock} (h : IsDelayMin delays s) {delay : U32}
    (hpos : 0 < delay.toNat) (hmin : s'.ca.delayMin = minDelay s.ca.delayMin delay) :
    IsDelayMin (delay.toNat :: delays) s' := by
  refine ⟨List.forall_mem_cons.mpr ⟨hpos, h.pos⟩, ?_⟩
  rw [hmin, List.min?_cons, Option.getD_some]
  have hold := h.min
  cases hdelays : delays.min? with
  | none =>
    rw [hdelays, Option.getD_none] at hold
    rw [minDelay, if_pos (.inl (BitVec.eq_of_toNat_eq hold))]
    rfl
  | some m =>
    rw [hdelays, Option.getD_some] at hold
    have hm : 0 < m := h.pos m (List.min?_mem hdelays)
    have hne : ¬ s.ca.delayMin = 0 := fun hzero => by
      rw [hzero] at hold
      exact absurd hold hm.ne
    have humin : minDelay s.ca.delayMin delay = umin delay s.ca.delayMin := by
      simp only [minDelay, umin, hne, false_or]
    rw [humin, toNat_umin, hold]
    rfl

/-- Nothing happens to `delay_min`. -/
theorem IsDelayMin.keep {delays : List ℕ} {s s' : CubicSock} (h : IsDelayMin delays s)
    (hmin : s'.ca.delayMin = s.ca.delayMin) : IsDelayMin delays s' :=
  ⟨h.pos, by rw [hmin]; exact h.min⟩

/-- HyStart forgets everything. -/
theorem isDelayMin_reset {s : CubicSock} (hmin : s.ca.delayMin = 0) : IsDelayMin [] s :=
  ⟨fun d hd => (by cases hd), by rw [hmin]; rfl⟩

/-- **One action** on the minimum. -/
theorem isDelayMin_step {cfg : Config} (delays : List ℕ) (s : CubicSock) (a : Action) (s' : CubicSock)
    (h : IsDelayMin delays s) (hstep : Acts cfg s a s') : IsDelayMin (noteDelays cfg delays (s, a, s')) s' := by
  unfold Acts at hstep
  cases a with
  | init =>
    cases hstep
    exact isDelayMin_reset rfl
  | kernel tp =>
    cases hstep
    exact h.keep rfl
  | call c =>
    cases c with
    | congAvoid ack acked clk =>
      have hround := congrArg Round.delayMin (cubictcpCongAvoid_round hstep)
      refine h.keep (hround.trans ?_)
      split <;> rfl
    | recalcSsthresh =>
      cases hstep
      exact h.keep rfl
    | state newState =>
      cases hstep
      simp only [noteDelays, cubictcpState]
      split
      · exact isDelayMin_reset rfl
      · exact h
    | cwndEvent event now =>
      cases hstep
      obtain ⟨start, hframe⟩ := cubictcpCwndEvent_frame s event now
      exact h.keep (by rw [hframe])
    | acked rttUs now =>
      obtain ⟨hmin, -⟩ := cubictcpAcked_outcome hstep
      simp only [noteDelays]
      split
      · rename_i htakes
        rw [if_pos htakes] at hmin
        exact h.cons (delayOf_pos rttUs) hmin
      · rename_i htakes
        rw [if_neg htakes] at hmin
        exact h.keep hmin

/-- **`delay_min` is a minimum.** In every state of a run from `cubictcp_init` it is the minimum of the delays that
`cubictcp_acked` took since the last `bictcp_reset`, and 0 where there is none. -/
theorem delay_min_is_minimum {cfg : Config} {s₀ s : CubicSock} {tr : List (Transition CubicSock Action)}
    (hrun : Trace (Acts cfg) (cubictcpInit s₀) tr s) :
    s.ca.delayMin.toNat = (history (noteDelays cfg) [] tr).min?.getD 0 :=
  (hrun.history_invariant isDelayMin_step [] (isDelayMin_reset rfl)).min

/-- Two delays, of 3 ms and 2 ms. -/
theorem delay_min_is_minimum_two :
    let cfg : Config := ⟨1000, 717, 15, by decide⟩
    let s₀ : CubicSock :=
      ⟨⟨10, 0, 100, 1000, 0, 100, true, 0, 0, 0, 0, 0, 0⟩, ⟨0, 0, 0, 0, 0, 0, 0, 0, 0, 0, 0, 0, 0, 0, 0, 0⟩⟩
    ∃ tr s, Trace (Acts cfg) (cubictcpInit s₀) tr s ∧ s.ca.delayMin.toNat = 2000 := by
  intro cfg s₀
  have hrun : (transitions (fun s (a : Action) => a.run cfg s) (cubictcpInit s₀)
      [.call (.acked 3000 0), .call (.acked 2000 0)]).map (fun p => history (noteDelays cfg) [] p.1) =
        some [2000, 3000] := by decide
  obtain ⟨⟨tr, s⟩, htr, hdelays⟩ := Option.map_eq_some_iff.mp hrun
  have htrace : Trace (Acts cfg) (cubictcpInit s₀) tr s := Trace.of_transitions htr
  refine ⟨tr, s, htrace, ?_⟩
  rw [delay_min_is_minimum htrace, hdelays]
  rfl

/-! ## The exits -/

theorem exited_reset {s : CubicSock} (hfound : s.ca.found = 0) : Exited 0 s :=
  .inl ⟨hfound, rfl⟩

theorem Exited.keep {n : ℕ} {s s' : CubicSock} (h : Exited n s) (hfound : s'.ca.found = s.ca.found) : Exited n s' := by
  unfold Exited
  rw [hfound]
  exact h

/-- What a callback may do to the threshold. -/
theorem callback_threshold {cfg : Config} {s s' : CubicSock} {c : Callback} (h : c.run cfg s = some s')
    (hchange : s'.tp.sndSsthresh ≠ s.tp.sndSsthresh) :
    (∃ rttUs now, c = .acked rttUs now) ∧ s.ca.found = 0 ∧ s'.ca.found = 1 ∧ tcpInSlowStart s.tp = true ∧
      hystartLowWindow ≤ s.tp.sndCwnd ∧ s'.tp = { s.tp with sndSsthresh := s.tp.sndCwnd } := by
  cases c with
  | congAvoid ack acked clk =>
    obtain ⟨cwnd, cnt, htp⟩ := cubictcpCongAvoid_tp h
    rw [htp] at hchange
    exact absurd rfl hchange
  | recalcSsthresh =>
    cases h
    exact absurd rfl hchange
  | state newState =>
    cases h
    refine absurd ?_ hchange
    unfold cubictcpState
    split <;> rfl
  | cwndEvent event now =>
    cases h
    obtain ⟨start, hframe⟩ := cubictcpCwndEvent_frame s event now
    rw [hframe] at hchange
    exact absurd rfl hchange
  | acked rttUs now =>
    obtain ⟨-, houtcome, hwhen⟩ := cubictcpAcked_outcome h
    cases houtcome with
    | goesOn htp hfound =>
      rw [htp] at hchange
      exact absurd rfl hchange
    | ends htp hfound =>
      have hne : s'.tp ≠ s.tp := fun heq => hchange (congrArg TcpSock.sndSsthresh heq)
      obtain ⟨hzero, hslow, hlow⟩ := hwhen (.inl hne)
      exact ⟨⟨rttUs, now, rfl⟩, hzero, hfound, hslow, hlow, htp⟩

/-- `found` changes only with the threshold, or at a reset. -/
theorem callback_found {cfg : Config} {s s' : CubicSock} {c : Callback} (h : c.run cfg s = some s')
    (hloss : ∀ newState, c = .state newState → newState ≠ tcpCaLoss) (hsame : s'.tp.sndSsthresh = s.tp.sndSsthresh) :
    s'.ca.found = s.ca.found := by
  cases c with
  | congAvoid ack acked clk =>
    refine (congrArg Round.found (cubictcpCongAvoid_round h)).trans ?_
    split <;> rfl
  | recalcSsthresh =>
    cases h
    rfl
  | state newState =>
    cases h
    exact congrArg (fun s : CubicSock => s.ca.found) (if_neg (hloss newState rfl))
  | cwndEvent event now =>
    cases h
    obtain ⟨start, hframe⟩ := cubictcpCwndEvent_frame s event now
    rw [hframe]
  | acked rttUs now =>
    obtain ⟨-, houtcome, hwhen⟩ := cubictcpAcked_outcome h
    cases houtcome with
    | goesOn htp hfound => exact hfound
    | ends htp hfound =>
      -- in slow start the window is not the threshold
      by_contra hne
      obtain ⟨-, hslow, -⟩ := hwhen (.inr hne)
      rw [htp] at hsame
      have hlt := (tcpInSlowStart_iff s.tp).mp hslow
      have heq : s.tp.sndCwnd = s.tp.sndSsthresh := hsame
      rw [heq] at hlt
      exact lt_irrefl _ hlt

/-- **One action** on the exits. -/
theorem exited_step {cfg : Config} (n : ℕ) (s : CubicSock) (a : Action) (s' : CubicSock) (h : Exited n s)
    (hstep : Acts cfg s a s') : Exited (noteExits n (s, a, s')) s' := by
  unfold Acts at hstep
  cases a with
  | init =>
    cases hstep
    exact exited_reset rfl
  | kernel tp =>
    cases hstep
    exact h.keep rfl
  | call c =>
    by_cases hloss : c = .state tcpCaLoss
    · subst hloss
      cases hstep
      exact exited_reset rfl
    · have hnote : noteExits n (s, .call c, s') = if s'.tp.sndSsthresh ≠ s.tp.sndSsthresh then n + 1 else n := by
        cases c with
        | state newState =>
          have hne : newState ≠ tcpCaLoss := fun hnew => hloss (by rw [hnew])
          have hs : s' = s := (Option.some.inj hstep).symm.trans (if_neg hne)
          rw [noteExits, hs, if_neg hne, if_neg (not_not.mpr rfl)]
        | congAvoid | recalcSsthresh | cwndEvent | acked => rfl
      rw [hnote]
      split
      · rename_i hchange
        obtain ⟨-, hzero, hone, -⟩ := callback_threshold hstep hchange
        rcases h with ⟨-, rfl⟩ | ⟨hfound, -⟩
        · exact .inr ⟨hone, rfl⟩
        · rw [hfound] at hzero
          cases hzero
      · rename_i hsame
        refine h.keep (callback_found hstep ?_ (not_not.mp hsame))
        rintro newState rfl hnew
        exact hloss (by rw [hnew])

/-- **HyStart ends slow start once.** In a run from `cubictcp_init`, between two resets a callback writes `snd_ssthresh`
at most once. It is `cubictcp_acked` then, in slow start with a window of at least 16, and the threshold becomes the
window. -/
theorem hystart_exits_once {cfg : Config} {s₀ s s' : CubicSock} {c : Callback} {tr : List (Transition CubicSock Action)}
    (hrun : Trace (Acts cfg) (cubictcpInit s₀) tr s) (hstep : Acts cfg s (.call c) s') :
    history noteExits 0 tr ≤ 1 ∧
      (s'.tp.sndSsthresh ≠ s.tp.sndSsthresh →
        history noteExits 0 tr = 0 ∧ (∃ rttUs now, c = .acked rttUs now) ∧ 16 ≤ s.tp.sndCwnd.toNat ∧
          s.tp.sndCwnd.toNat < s.tp.sndSsthresh.toNat ∧ s'.tp = { s.tp with sndSsthresh := s.tp.sndCwnd }) := by
  have hexited : Exited (history noteExits 0 tr) s := hrun.history_invariant exited_step 0 (exited_reset rfl)
  constructor
  · rcases hexited with ⟨-, hn⟩ | ⟨-, hn⟩ <;> omega
  · intro hchange
    obtain ⟨hacked, hzero, -, hslow, hlow, htp⟩ := callback_threshold hstep hchange
    refine ⟨?_, hacked, hlow, (tcpInSlowStart_iff s.tp).mp hslow, htp⟩
    rcases hexited with ⟨-, hn⟩ | ⟨hfound, -⟩
    · exact hn
    · rw [hfound] at hzero
      cases hzero

/-- A minimum of 1 ms, and another ACK 1.5 ms after the round began: the threshold is lowered to 20. -/
theorem hystart_exits_once_train :
    let cfg : Config := ⟨1000, 717, 15, by decide⟩
    let tp : TcpSock := ⟨20, 0, 100, 1000, 0, 100, true, 0, 0, 0, 0, 0, 0⟩
    let s₀ : CubicSock := ⟨tp, ⟨0, 0, 0, 0, 0, 0, 0, 0, 0, 0, 0, 0, 0, 0, 0, 0⟩⟩
    ∃ tr s s', Trace (Acts cfg) (cubictcpInit s₀) tr s ∧ Acts cfg s (.call (.acked 1000 0)) s' ∧
      history noteExits 0 tr = 0 ∧ s'.tp.sndSsthresh = s.tp.sndCwnd := by
  intro cfg tp s₀
  have hrun : (transitions (fun s (a : Action) => a.run cfg s) (cubictcpInit s₀)
      [.call (.acked 1000 0), .kernel { tp with tcpMstamp := 1500 }]).map
        (fun p => (p.2.tp.sndSsthresh, (cubictcpAcked cfg p.2 1000 0).map fun s => s.tp.sndSsthresh)) =
          some (100, some 20) := by decide
  obtain ⟨⟨tr, s⟩, htr, hends⟩ := Option.map_eq_some_iff.mp hrun
  obtain ⟨hbefore, hafter⟩ := Prod.mk.inj hends
  obtain ⟨s', hstep, hafter⟩ := Option.map_eq_some_iff.mp hafter
  have htrace : Trace (Acts cfg) (cubictcpInit s₀) tr s := Trace.of_transitions htr
  have hchange : s'.tp.sndSsthresh ≠ s.tp.sndSsthresh := by
    rw [hafter, hbefore]
    decide
  obtain ⟨-, honce⟩ := hystart_exits_once (c := .acked 1000 0) htrace hstep
  obtain ⟨hzero, -, -, -, htp⟩ := honce hchange
  exact ⟨tr, s, s', htrace, hstep, hzero, congrArg TcpSock.sndSsthresh htp⟩

end CoupledCC.Cubic
