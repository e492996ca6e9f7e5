import CoupledCC.Cubic.Runs

/-!
# The delay detector of HyStart

`hystart_update` keeps the minimum of the first eight delay samples of a round (`curr_rtt`), and compares it with the
minimum of the connection from the ninth call on. The samples of a round are noted down by an observer (`noteSample`).

- `hystartUpdate_early`, `hystartUpdate_late`: one call;
- `RoundInv`: as long as late samples do not fall below `curr_rtt` unseen, it is the minimum of all samples of the
  round;
- `delay_branch_iff`: so the detector fires on a round that was slow throughout, up to the sample of the call itself.
-/

namespace CoupledCC.Cubic

open Word Runs

/-- The delay above which a round is slow, for a minimum of the connection. -/
def delayThreshold (delayMin : U32) : ℕ :=
  delayMin.toNat + min (max (delayMin.toNat / 8) 4000) 16000

/-- From the ninth call of a round on `curr_rtt` is compared. -/
def Late (s : CubicSock) : Prop :=
  ¬ s.ca.sampleCnt < hystartMinSamples

instance (s : CubicSock) : Decidable (Late s) := by
  unfold Late
  infer_instance

/-- A call of `hystart_update` takes the delay branch that ends slow start. -/
def DelayFires (s : CubicSock) : Prop :=
  Late s ∧ s.ca.delayMin + hystartDelayThresh (s.ca.delayMin >>> 3) < s.ca.currRtt

/-- The sample of a call is not one the detector should have seen: at a late call it is at least `curr_rtt`, or above
the threshold. -/
def SampleOk (s : CubicSock) (delay : U32) : Prop :=
  Late s → s.ca.currRtt.toNat ≤ delay.toNat ∨ delayThreshold s.ca.delayMin < delay.toNat

instance (s : CubicSock) (delay : U32) : Decidable (SampleOk s delay) := by
  unfold SampleOk
  infer_instance

/-- An action whose sample, if it passes one to `hystart_update`, is not one the detector should have seen. -/
def GoodSample (cfg : Config) (s : CubicSock) : Action → Prop
  | .call (.acked rttUs now) => ∀ call ∈ hystartCall cfg s rttUs now, SampleOk call.1 call.2
  | _ => True

instance (cfg : Config) (s : CubicSock) (a : Action) : Decidable (GoodSample cfg s a) := by
  unfold GoodSample
  split <;> infer_instance

/-- The samples passed to `hystart_update` since the last `bictcp_hystart_reset`, the latest first. -/
def noteSample (cfg : Config) (samples : List U32) : Transition CubicSock Action → List U32
  | (_, .init, _) => []
  | (s, .call (.congAvoid ack _ _), _) => if hystartResets s ack then [] else samples
  | (_, .call (.state newState), _) => if newState = tcpCaLoss then [] else samples
  | (s, .call (.acked rttUs now), _) =>
    match hystartCall cfg s rttUs now with
    | some (_, delay) => delay :: samples
    | none => samples
  | _ => samples

/-! ## One call of `hystart_update` -/

/-- The threshold of the code is that of the naturals: a minimum of signed times leaves room for the addition. -/
theorem toNat_threshold {delayMin : U32} (h : delayMin.toNat < 2 ^ 31) :
    (delayMin + hystartDelayThresh (delayMin >>> 3)).toNat = delayThreshold delayMin := by
  have hshift : (delayMin >>> 3).toNat = delayMin.toNat / 8 := by
    rw [BitVec.toNat_ushiftRight, Nat.shiftRight_eq_div_pow]
  have hclamp : (hystartDelayThresh (delayMin >>> 3)).toNat = min (max (delayMin.toNat / 8) 4000) 16000 := by
    rw [hystartDelayThresh, toNat_umin, toNat_umax, hshift]
    rfl
  rw [BitVec.toNat_add_of_lt (by omega), hclamp, delayThreshold]

/-- The first eight calls of a round lower `curr_rtt` to the sample. -/
theorem hystartUpdate_early {s s' : CubicSock} {delay : U32} (h : hystartUpdate s delay = some s') (hlate : ¬ Late s) :
    s'.ca.delayMin = s.ca.delayMin ∧ s'.ca.currRtt.toNat = min s.ca.currRtt.toNat delay.toNat := by
  obtain ⟨s₁, htrain, rfl⟩ := hystartUpdate_branches h
  obtain ⟨hcnt, hcurr, hmin, -, -⟩ := hystartTrain_frame htrain
  rw [Late, not_not, ← hcnt] at hlate
  rw [hystartDelaySample, if_pos hlate, ← hcurr, ← hmin]
  refine ⟨rfl, ?_⟩
  simp only
  split
  · rename_i hlt
    rw [BitVec.lt_def] at hlt
    omega
  · rename_i hle
    rw [BitVec.lt_def] at hle
    omega

/-- **Late calls** leave `curr_rtt` alone, whatever the sample; they end slow start where it is above the threshold. -/
theorem hystartUpdate_late {s s' : CubicSock} {delay : U32} (h : hystartUpdate s delay = some s') (hlate : Late s) :
    s'.ca.delayMin = s.ca.delayMin ∧ s'.ca.currRtt = s.ca.currRtt ∧
      (DelayFires s → s'.ca.found = 1 ∧ s'.tp.sndSsthresh = s.tp.sndCwnd) := by
  obtain ⟨s₁, htrain, rfl⟩ := hystartUpdate_branches h
  obtain ⟨hcnt, hcurr, hmin, -, hcwnd⟩ := hystartTrain_frame htrain
  rw [DelayFires]
  rw [Late, ← hcnt] at hlate
  rw [hystartDelaySample, if_neg hlate, ← hcurr, ← hmin, ← hcwnd]
  split
  · exact ⟨rfl, rfl, fun _ => ⟨rfl, rfl⟩⟩
  · rename_i hnot
    exact ⟨rfl, rfl, fun hfires => absurd hfires.2 hnot⟩

/-! ## The samples of a round -/

/-- The notes of the observer and the state: unless slow start has ended, `curr_rtt` is at most every sample of the
round. -/
structure RoundInv (samples : List U32) (s : CubicSock) : Prop where
  delayMin : s.ca.delayMin.toNat < 2 ^ 31
  currRtt : s.ca.found = 0 → ∀ x ∈ samples, s.ca.currRtt.toNat ≤ x.toNat

/-- A new round. -/
theorem RoundInv.fresh {s : CubicSock} (h : s.ca.delayMin.toNat < 2 ^ 31) : RoundInv [] s :=
  ⟨h, fun _ => by simp⟩

/-- The invariant depends on the fields of HyStart only. -/
theorem RoundInv.of_round {samples : List U32} {s s' : CubicSock} (h : RoundInv samples s)
    (hround : s'.ca.round = s.ca.round) : RoundInv samples s' := by
  simp only [Bictcp.round, Round.mk.injEq] at hround
  obtain ⟨hmin, -, hfound, -, -, -, hcurr⟩ := hround
  refine ⟨by rw [hmin]; exact h.delayMin, ?_⟩
  rw [hfound, hcurr]
  exact h.currRtt

/-- The socket at a call of `hystart_update`. -/
theorem RoundInv.call {cfg : Config} {samples : List U32} {s s₁ : CubicSock} {rttUs now delay : U32}
    (h : RoundInv samples s) (hcall : hystartCall cfg s rttUs now = some (s₁, delay)) :
    s₁.ca.found = 0 ∧ RoundInv samples s₁ := by
  obtain ⟨hfound, delayMin, hmin, rfl⟩ := hystartCall_spec hcall h.delayMin
  exact ⟨hfound, hmin, h.currRtt⟩

/-- A call of `hystart_update` whose sample is not one the detector should have seen. -/
theorem RoundInv.update {samples : List U32} {s s' : CubicSock} {delay : U32} (h : RoundInv samples s)
    (hfound : s.ca.found = 0) (hok : SampleOk s delay) (hrun : hystartUpdate s delay = some s') :
    RoundInv (delay :: samples) s' := by
  have hmin := h.delayMin
  have hall := h.currRtt hfound
  by_cases hlate : Late s
  · obtain ⟨hmin', hcurr, hends⟩ := hystartUpdate_late hrun hlate
    refine ⟨by rw [hmin']; exact hmin, fun hgoes => ?_⟩
    -- slow start goes on, so `curr_rtt` is not above the threshold
    have hnot : s.ca.currRtt.toNat ≤ delayThreshold s.ca.delayMin := by
      by_contra hslow
      have hfires : DelayFires s := ⟨hlate, by rw [BitVec.lt_def, toNat_threshold hmin]; omega⟩
      rw [(hends hfires).1] at hgoes
      exact absurd hgoes (by decide)
    rw [hcurr, List.forall_mem_cons]
    refine ⟨?_, hall⟩
    rcases hok hlate with hge | hslow
    · exact hge
    · omega
  · obtain ⟨hmin', hcurr⟩ := hystartUpdate_early hrun hlate
    refine ⟨by rw [hmin']; exact hmin, fun _ => ?_⟩
    rw [hcurr, List.forall_mem_cons]
    refine ⟨by omega, fun x hx => ?_⟩
    have hle := hall x hx
    omega

/-- **One action.** -/
theorem roundInv_step {cfg : Config} (samples : List U32) (s : CubicSock) (a : Action) (s' : CubicSock)
    (h : RoundInv samples s) (hstep : Acts cfg s a s' ∧ GoodSample cfg s a) :
    RoundInv (noteSample cfg samples (s, a, s')) s' := by
  obtain ⟨hrun, hgood⟩ := hstep
  unfold Acts at hrun
  cases a with
  | init =>
    cases hrun
    exact RoundInv.fresh (bictcpReset_delayMin s.ca)
  | kernel tp =>
    cases hrun
    exact h.of_round rfl
  | call c =>
    cases c with
    | congAvoid ack acked clk =>
      have hround := cubictcpCongAvoid_round hrun
      simp only [noteSample]
      split
      · rename_i hreset
        rw [if_pos hreset] at hround
        exact (RoundInv.fresh (s := bictcpHystartReset s) h.delayMin).of_round hround
      · rename_i hreset
        rw [if_neg hreset] at hround
        exact h.of_round hround
    | recalcSsthresh =>
      cases hrun
      exact h.of_round rfl
    | state newState =>
      cases hrun
      simp only [noteSample, cubictcpState]
      split
      · exact RoundInv.fresh (bictcpReset_delayMin s.ca)
      · exact h
    | cwndEvent event now =>
      cases hrun
      obtain ⟨start, hframe⟩ := cubictcpCwndEvent_frame s event now
      rw [hframe]
      exact h.of_round rfl
    | acked rttUs now =>
      rcases cubictcpAcked_call hrun h.delayMin with ⟨s₁, delay, hcall, hupdate⟩ | ⟨hcall, delayMin, hmin, rfl⟩
      · obtain ⟨hfound, hstart⟩ := h.call hcall
        simp only [noteSample, hcall]
        exact hstart.update hfound (hgood _ hcall) hupdate
      · simp only [noteSample, hcall]
        exact ⟨hmin, h.currRtt⟩

/-- **When the delay detector is right.** In a run from `cubictcp_init` without a sample that the detector should have
seen, a call of `hystart_update` that fires finds every sample of the round above the threshold if and only if its own
sample is not such a sample either. -/
theorem delay_branch_iff {cfg : Config} {s₀ s : CubicSock} {tr : List (Transition CubicSock Action)}
    (hrun : Trace (fun s a s' => Acts cfg s a s' ∧ GoodSample cfg s a) (cubictcpInit s₀) tr s) {rttUs now delay : U32}
    {s₁ : CubicSock} (hcall : hystartCall cfg s rttUs now = some (s₁, delay)) (hfires : DelayFires s₁) :
    (∀ x ∈ delay :: history (noteSample cfg) [] tr, delayThreshold s₁.ca.delayMin < x.toNat) ↔ SampleOk s₁ delay := by
  have hinv := hrun.history_invariant roundInv_step [] (RoundInv.fresh (bictcpReset_delayMin s₀.ca))
  obtain ⟨hfound, hround⟩ := hinv.call hcall
  have hslow := hfires.2
  rw [BitVec.lt_def, toNat_threshold hround.delayMin] at hslow
  rw [List.forall_mem_cons]
  constructor
  · rintro ⟨habove, -⟩ _
    exact Or.inr habove
  · intro hok
    refine ⟨?_, fun x hx => lt_of_lt_of_le hslow (hround.currRtt hfound x hx)⟩
    rcases hok hfires.1 with hge | habove
    · omega
    · exact habove

/-- A minimum of 10 ms and then a round of nine samples of 20 ms: the ninth call fires, and all of them are above 14
ms. -/
theorem delay_branch_iff_slow :
    let cfg : Config := ⟨1000, 717, 15, by decide⟩
    let tp : TcpSock := ⟨10, 0, 100, 1000, 0, 100, true, 0, 0, 0, 0, 0, 0⟩
    let s₀ : CubicSock := ⟨tp, ⟨0, 0, 0, 0, 0, 0, 0, 0, 0, 0, 0, 0, 0, 0, 0, 0⟩⟩
    let s₁ : CubicSock := ⟨{ tp with sndCwnd := 20 },
      ⟨0, 0, 0, 0, 0, 0, 10000, 0, 0, 0, 8, 0, 0, 0, 0, 20000⟩⟩
    ∃ tr s, Trace (Acts cfg) (cubictcpInit s₀) tr s ∧ hystartCall cfg s 20000 0 = some (s₁, 20000) ∧ DelayFires s₁ ∧
      ∀ x ∈ 20000 :: history (noteSample cfg) [] tr, delayThreshold s₁.ca.delayMin < x.toNat := by
  intro cfg tp s₀ s₁
  let next (s : CubicSock) (a : Action) : Option CubicSock := if GoodSample cfg s a then a.run cfg s else none
  have hrun : (transitions next (cubictcpInit s₀) (.call (.acked 10000 0) :: .kernel { tp with sndCwnd := 20 } ::
      List.replicate 8 (.call (.acked 20000 0)))).map (fun p => hystartCall cfg p.2 20000 0) =
        some (some (s₁, 20000)) := by decide
  obtain ⟨⟨tr, s⟩, htr, hcall⟩ := Option.map_eq_some_iff.mp hrun
  have hgood : Trace (fun s a s' => Acts cfg s a s' ∧ GoodSample cfg s a) (cubictcpInit s₀) tr s := Trace.of_guarded htr
  have hfires : DelayFires s₁ := ⟨by decide, by decide⟩
  exact ⟨tr, s, hgood.mono fun _ _ _ h => h.1, hcall, hfires, (delay_branch_iff hgood hcall hfires).mpr (by decide)⟩

/-- A round of eight samples of 20 ms and then one of 10 ms: the ninth call lowers the minimum of the connection to 10
ms, so that it fires, although its own sample is not above 14 ms. -/
theorem delay_branch_spurious :
    let cfg : Config := ⟨1000, 717, 15, by decide⟩
    let tp : TcpSock := ⟨20, 0, 100, 1000, 0, 100, true, 0, 0, 0, 0, 0, 0⟩
    let s₀ : CubicSock := ⟨tp, ⟨0, 0, 0, 0, 0, 0, 0, 0, 0, 0, 0, 0, 0, 0, 0, 0⟩⟩
    let s₁ : CubicSock := ⟨tp, ⟨0, 0, 0, 0, 0, 0, 10000, 0, 0, 0, 8, 0, 0, 0, 0, 20000⟩⟩
    ∃ tr s s', Trace (Acts cfg) (cubictcpInit s₀) tr s ∧ hystartCall cfg s 10000 0 = some (s₁, 10000) ∧
      hystartUpdate s₁ 10000 = some s' ∧ DelayFires s₁ ∧ s₁.ca.found = 0 ∧ s'.ca.found = 1 ∧ s'.tp.sndSsthresh = 20 ∧
      ¬ ∀ x ∈ 10000 :: history (noteSample cfg) [] tr, delayThreshold s₁.ca.delayMin < x.toNat := by
  intro cfg tp s₀ s₁
  have hrun : (transitions (fun s (a : Action) => a.run cfg s) (cubictcpInit s₀)
    (List.replicate 8 (.call (.acked 20000 0)))).map
      (fun p => hystartCall cfg p.2 10000 0) = some (some (s₁, 10000)) := by decide
  obtain ⟨⟨tr, s⟩, htr, hcall⟩ := Option.map_eq_some_iff.mp hrun
  refine ⟨tr, s, hystartFound s₁, Trace.of_transitions htr, hcall, by decide, ⟨by decide, by decide⟩, rfl, rfl, rfl,
    fun hall => ?_⟩
  have hown := hall 10000 List.mem_cons_self
  revert hown
  decide

end CoupledCC.Cubic
