import CoupledCC.Bbr.Frame
import CoupledCC.Bbr.ProbeRtt

/-!
# The minimum RTT of BBR

`min_rtt_us` is renewed by a sample below it, and by any sample that is not delayed once it is older than 10 s. Its
stamp is also set when `BBR_PROBE_RTT` ends. Observers note the samples since the last time it was given up
(`noteSample`), and the moment of its stamp (`noteStamp`).

- `min_rtt_is_minimum`: it is the minimum of these samples;
- `probe_rtt_entered_iff`: `BBR_PROBE_RTT` is entered at exactly the ACKs, not after a restart from idle, that come more
  than 10 s after this moment.
-/

namespace CoupledCC.Bbr

open Word Runs

variable {M : Type} {k : Kernel M}

/-- The filter, and what keeps BBR from probing it. -/
structure RttFilter where
  minRttUs : U32
  minRttStamp : U32
  idleRestart : Bool
deriving Repr, DecidableEq

def BbrSock.rttFilter (s : BbrSock M) : RttFilter :=
  ⟨s.ca.minRttUs, s.ca.minRttStamp, s.ca.idleRestart⟩

/-! ## What the functions change of it -/

/-- `bbr_main` up to the minimum RTT. -/
def bbrBeforeMinRtt (k : Kernel M) (s : BbrSock M) (rs : RateSample) (rands : Rands) : BbrSock M :=
  let s := bbrUpdateCyclePhase k (bbrUpdateAckAggregation k (bbrUpdateBw k s rs rands.sampling) rs) rs
  bbrCheckDrain k (bbrCheckFullBwReached k s rs) rands.drain

theorem bbrAtProbeRtt_eq (s : BbrSock M) (rs : RateSample) (clk : Clock) (rands : Rands) :
    bbrAtProbeRtt k s rs clk rands =
      bbrEnterProbeRtt
        (bbrSampleMinRtt (bbrBeforeMinRtt k s rs rands) rs
          (bbrFilterExpired k (bbrBeforeMinRtt k s rs rands) clk.expired)
          clk.sample)
        (bbrFilterExpired k (bbrBeforeMinRtt k s rs rands) clk.expired) := rfl

theorem bbrUpdateBw_rttFilter (s : BbrSock M) (rs : RateSample) (rand : U32) :
    (bbrUpdateBw k s rs rand).rttFilter = s.rttFilter := by
  obtain ⟨next, cnt, start, l, c, bw, h⟩ := bbrUpdateBw_frame (k := k) s rs rand
  rw [h]
  rfl

theorem bbrBeforeMinRtt_rttFilter (s : BbrSock M) (rs : RateSample) (rands : Rands) :
    (bbrBeforeMinRtt k s rs rands).rttFilter = s.rttFilter := by
  rw [← bbrUpdateBw_rttFilter (k := k) s rs rands.sampling, bbrBeforeMinRtt]
  generalize bbrUpdateBw k s rs rands.sampling = s₁
  obtain ⟨e, haggregation⟩ := bbrUpdateAckAggregation_frame (k := k) s₁ rs
  obtain ⟨c, hcycle, -⟩ := bbrUpdateCyclePhase_frame (k := k) (s₁.setExcess e) rs
  obtain ⟨fullBw, cnt, reached, hfull⟩ := bbrCheckFullBwReached_frame (k := k) ((s₁.setExcess e).setCycle c) rs
  simp only [haggregation, hcycle, hfull]
  generalize hs₂ : BbrSock.mk _ _ = s₂
  obtain ⟨c', ssthresh, hdrain, -⟩ := bbrCheckDrain_frame (k := k) s₂ rands.drain
  rw [hdrain, ← hs₂]
  rfl

/-- The end of an ACK leaves the filter alone. -/
theorem bbrAfterProbeRtt_rttFilter (s : BbrSock M) (rs : RateSample) :
    (bbrAfterProbeRtt k s rs).ca.minRttUs = s.ca.minRttUs ∧
      (bbrAfterProbeRtt k s rs).ca.minRttStamp = s.ca.minRttStamp := by
  obtain ⟨rate, cwnd, idle, seen, conservation, next, prev, h⟩ := bbrAfterProbeRtt_frame (k := k) s rs
  rw [h]
  exact ⟨rfl, rfl⟩

/-- The sample of an ACK is taken for the minimum. -/
def Renews (s : BbrSock M) (rs : RateSample) (filterExpired : Bool) : Prop :=
  0 ≤ rs.rttUs.toInt ∧ (rs.rttUs.toInt < s.ca.minRttUs.toNat ∨ (filterExpired ∧ rs.isAckDelayed = false))

instance (s : BbrSock M) (rs : RateSample) (filterExpired : Bool) : Decidable (Renews s rs filterExpired) := by
  unfold Renews
  infer_instance

/-- What an ACK does to the filter. -/
structure AckRtt (k : Kernel M) (s : BbrSock M) (rs : RateSample) (clk : Clock) (s' : BbrSock M) : Prop where
  minRttUs : s'.ca.minRttUs =
    if Renews s rs (bbrFilterExpired k s clk.expired) then rs.rttUs.setWidth 32 else s.ca.minRttUs
  minRttStamp : s'.ca.minRttStamp =
    if s.ca.mode = .probeRtt ∧ s'.ca.mode ≠ .probeRtt then tcpJiffies32 clk.restart
    else if Renews s rs (bbrFilterExpired k s clk.expired) then tcpJiffies32 clk.sample
    else s.ca.minRttStamp
  /-- When the mode is entered. -/
  enters : s.ca.mode ≠ .probeRtt →
    (s'.ca.mode = .probeRtt ↔ bbrFilterExpired k s clk.expired = true ∧ s.ca.idleRestart = false)

/-- Nothing before the minimum RTT enters or leaves `BBR_PROBE_RTT`. -/
theorem bbrBeforeMinRtt_mode (s : BbrSock M) (rs : RateSample) (rands : Rands) :
    (bbrBeforeMinRtt k s rs rands).ca.mode = .probeRtt ↔ s.ca.mode = .probeRtt := by
  obtain ⟨round, hround⟩ := bbrUpdateBw_phase (k := k) s rs rands.sampling
  unfold bbrBeforeMinRtt
  set s₁ := bbrUpdateCyclePhase k (bbrUpdateAckAggregation k (bbrUpdateBw k s rs rands.sampling) rs) rs with hs₁
  have hs₁mode : s₁.ca.mode = s.ca.mode := by
    have hphase : s₁.phase = { s.phase with roundStart := round } := by simp [hs₁, hround]
    exact congrArg Phase.mode hphase
  obtain ⟨full, hfull, -⟩ := bbrCheckFullBwReached_phase (k := k) s₁ rs
  have hfullMode : (bbrCheckFullBwReached k s₁ rs).ca.mode = s₁.ca.mode := congrArg Phase.mode hfull
  obtain ⟨mode, hmode, hdrains⟩ := bbrCheckDrain_phase (k := k) (bbrCheckFullBwReached k s₁ rs) rands.drain
  have hdrainMode : (bbrCheckDrain k (bbrCheckFullBwReached k s₁ rs) rands.drain).ca.mode = mode :=
    congrArg Phase.mode hmode
  rw [hfullMode, hs₁mode] at hdrains
  rw [hdrainMode]
  exact hdrains.probeRtt_iff

/-- What the sample does to the filter. -/
theorem bbrSampleMinRtt_rttFilter (s : BbrSock M) (rs : RateSample) (filterExpired : Bool) (now : ℕ) :
    (bbrSampleMinRtt s rs filterExpired now).rttFilter =
      if Renews s rs filterExpired then ⟨rs.rttUs.setWidth 32, tcpJiffies32 now, s.ca.idleRestart⟩
        else s.rttFilter := by
  unfold bbrSampleMinRtt
  split
  · rename_i hrenews
    rw [if_pos (show Renews s rs filterExpired from hrenews)]
    rfl
  · rename_i hno
    rw [if_neg (show ¬ Renews s rs filterExpired from hno)]

/-- When `BBR_PROBE_RTT` is entered, without a time stamp for its end. -/
theorem bbrEnterProbeRtt_cases (s : BbrSock M) (filterExpired : Bool) :
    (bbrEnterProbeRtt s filterExpired).rttFilter = s.rttFilter ∧
      ((filterExpired = true ∧ s.ca.idleRestart = false ∧ s.ca.mode ≠ .probeRtt ∧
          (bbrEnterProbeRtt s filterExpired).ca.mode = .probeRtt ∧
          (bbrEnterProbeRtt s filterExpired).ca.probeRttDoneStamp = 0) ∨
        (¬ (filterExpired = true ∧ s.ca.idleRestart = false ∧ s.ca.mode ≠ .probeRtt) ∧
          bbrEnterProbeRtt s filterExpired = s)) := by
  unfold bbrEnterProbeRtt bbrSaveCwnd
  have hms : 0 < bbrProbeRttModeMs := by decide
  split
  · rename_i henter
    simp only
    split
    · exact ⟨rfl, .inl ⟨henter.2.1, henter.2.2.1, henter.2.2.2, rfl, trivial⟩⟩
    · exact ⟨rfl, .inl ⟨henter.2.1, henter.2.2.1, henter.2.2.2, rfl, trivial⟩⟩
  · rename_i hno
    exact ⟨rfl, .inr ⟨fun h => hno ⟨hms, h⟩, rfl⟩⟩

/-- **The minimum RTT at an ACK.** -/
theorem bbrMain_rtt (s : BbrSock M) (rs : RateSample) (clk : Clock) (rands : Rands) :
    AckRtt k s rs clk (bbrMain k s rs clk rands) := by
  have hbefore := bbrBeforeMinRtt_rttFilter (k := k) s rs rands
  have hmode := bbrBeforeMinRtt_mode (k := k) s rs rands
  obtain ⟨cwnd, prev, hafter, -⟩ :=
    bbrAfterProbeRtt_phase (k := k) (bbrInProbeRtt k (bbrAtProbeRtt k s rs clk rands) clk rands.probeRtt) rs
  have hafterMode := congrArg Phase.mode hafter
  obtain ⟨hafterMin, hafterStamp⟩ :=
    bbrAfterProbeRtt_rttFilter (k := k) (bbrInProbeRtt k (bbrAtProbeRtt k s rs clk rands) clk rands.probeRtt) rs
  rw [← bbrMain_eq] at hafterMode hafterMin hafterStamp
  rw [bbrAtProbeRtt_eq] at hafterMode hafterMin hafterStamp
  generalize bbrBeforeMinRtt k s rs rands = s₀ at hbefore hmode hafterMode hafterMin hafterStamp
  obtain ⟨hmin₀, hstamp₀, hidle₀⟩ := RttFilter.mk.inj hbefore
  have hexpired : bbrFilterExpired k s₀ clk.expired = bbrFilterExpired k s clk.expired := by
    simp only [bbrFilterExpired, hstamp₀]
  rw [hexpired] at hafterMode hafterMin hafterStamp
  set expired := bbrFilterExpired k s clk.expired
  have hrenews : Renews s₀ rs expired ↔ Renews s rs expired := by simp only [Renews, hmin₀]
  have hsample := bbrSampleMinRtt_rttFilter s₀ rs expired clk.sample
  have hsampleMode : (bbrSampleMinRtt s₀ rs expired clk.sample).ca.mode = s₀.ca.mode :=
    congrArg Phase.mode (bbrSampleMinRtt_phase s₀ rs expired clk.sample)
  generalize bbrSampleMinRtt s₀ rs expired clk.sample = s₁ at hsample hsampleMode hafterMode hafterMin hafterStamp
  simp only [hrenews, hidle₀, hbefore] at hsample
  have hidle₁ : s₁.ca.idleRestart = s.ca.idleRestart := by
    have h := congrArg RttFilter.idleRestart hsample
    rw [apply_ite RttFilter.idleRestart] at h
    simpa [BbrSock.rttFilter] using h
  obtain ⟨hfilter, henter⟩ := bbrEnterProbeRtt_cases s₁ expired
  generalize bbrEnterProbeRtt s₁ expired = s₂ at hfilter henter hafterMode hafterMin hafterStamp
  rw [hsample] at hfilter
  have hmin₂ : s₂.ca.minRttUs = if Renews s rs expired then rs.rttUs.setWidth 32 else s.ca.minRttUs := by
    have h := congrArg RttFilter.minRttUs hfilter
    rwa [apply_ite RttFilter.minRttUs] at h
  have hstamp₂ : s₂.ca.minRttStamp = if Renews s rs expired then tcpJiffies32 clk.sample else s.ca.minRttStamp := by
    have h := congrArg RttFilter.minRttStamp hfilter
    rwa [apply_ite RttFilter.minRttStamp] at h
  obtain ⟨c, w, limited, rttStamp, doneStamp, roundDone, next, hin, hcases⟩ :=
    bbrInProbeRtt_frame (k := k) s₂ clk rands.probeRtt
  rw [hin] at hafterMode hafterMin hafterStamp
  have hmode' : (bbrMain k s rs clk rands).ca.mode = c.mode := hafterMode
  have hmin' : (bbrMain k s rs clk rands).ca.minRttUs = s₂.ca.minRttUs := hafterMin
  have hstamp' : (bbrMain k s rs clk rands).ca.minRttStamp = rttStamp := hafterStamp
  rw [hidle₁, hsampleMode] at henter
  -- the mode is left only if it was not entered just now
  have hleaves : c.mode ≠ .probeRtt ∧ s.ca.mode = .probeRtt ∧ rttStamp = tcpJiffies32 clk.restart ∨
      ¬ (s.ca.mode = .probeRtt ∧ c.mode ≠ .probeRtt) ∧ rttStamp = s₂.ca.minRttStamp := by
    have hstays (hc : c = s₂.cycle) : ¬ (s.ca.mode = .probeRtt ∧ c.mode ≠ .probeRtt) := by
      rintro ⟨hs, hne⟩
      rw [hc] at hne
      rcases henter with ⟨-, -, -, hprobe, -⟩ | ⟨-, rfl⟩
      · exact hne hprobe
      · exact hne (hsampleMode.trans (hmode.mpr hs))
    rcases hcases with ⟨hc, hstamp, -⟩ | ⟨hc, hstamp, -⟩ | ⟨rfl, hstamp, -, hprobe, hset⟩
    · exact .inr ⟨hstays hc, hstamp⟩
    · exact .inr ⟨hstays hc, hstamp⟩
    · rcases henter with ⟨-, -, -, -, hzero⟩ | ⟨-, rfl⟩
      · exact absurd hzero hset
      · exact .inl ⟨bbrResetMode_mode _ _, hmode.mp (hsampleMode.symm.trans hprobe), hstamp⟩
  refine ⟨hmin'.trans hmin₂, ?_, fun hout => ?_⟩
  · rw [hstamp', hmode']
    rcases hleaves with ⟨hc, hs, hstamp⟩ | ⟨hstays, hstamp⟩
    · rw [if_pos ⟨hs, hc⟩, hstamp]
    · rw [if_neg hstays, hstamp]
      exact hstamp₂
  · have hout₀ : s₀.ca.mode ≠ .probeRtt := fun h => hout (hmode.mp h)
    rw [hmode']
    rcases henter with ⟨hexp, hidle, -, hprobe, hzero⟩ | ⟨hno, rfl⟩
    · refine iff_of_true ?_ ⟨hexp, hidle⟩
      rcases hcases with ⟨rfl, -⟩ | ⟨rfl, -⟩ | ⟨-, -, -, -, hset⟩
      · exact hprobe
      · exact hprobe
      · exact absurd hzero hset
    · refine iff_of_false ?_ fun h => hno ⟨h.1, h.2, hout₀⟩
      rcases hcases with ⟨rfl, -⟩ | ⟨rfl, -⟩ | ⟨-, -, -, hprobe, -⟩
      · exact fun h => hout₀ (hsampleMode.symm.trans h)
      · exact fun h => hout₀ (hsampleMode.symm.trans h)
      · exact absurd (hsampleMode.symm.trans hprobe) hout₀

/-! ## The other callbacks -/

/-- A restart from idle may end `BBR_PROBE_RTT`, which sets the stamp. -/
theorem bbrCwndEvent_rtt (s : BbrSock M) (event : CaEvent) (check restart : ℕ) (rand : U32) :
    (bbrCwndEvent k s event check restart rand).ca.minRttUs = s.ca.minRttUs ∧
      (bbrCwndEvent k s event check restart rand).ca.minRttStamp =
        if s.ca.mode = .probeRtt ∧ (bbrCwndEvent k s event check restart rand).ca.mode ≠ .probeRtt
          then tcpJiffies32 restart
        else s.ca.minRttStamp := by
  have hkeep (s' : BbrSock M) (hmode : s'.ca.mode = s.ca.mode) (hstamp : s'.ca.minRttStamp = s.ca.minRttStamp) :
      s'.ca.minRttStamp =
        if s.ca.mode = .probeRtt ∧ s'.ca.mode ≠ .probeRtt then tcpJiffies32 restart else s.ca.minRttStamp := by
    rw [if_neg fun h => h.2 (hmode.trans h.1), hstamp]
  unfold bbrCwndEvent
  split
  · simp only
    split
    · obtain ⟨rate, seen, h⟩ := bbrSetPacingRate_frame (bbrRestartIdle s) (bbrBw k (bbrRestartIdle s)) bbrUnit
      rw [h]
      exact ⟨rfl, hkeep _ rfl rfl⟩
    · split
      · rename_i hmode
        obtain ⟨c, stamp, cwnd, h, ⟨rfl, rfl⟩ | ⟨rfl, rfl⟩⟩ :=
          bbrCheckProbeRttDone_frame (bbrRestartIdle s) check restart rand
        · rw [h]
          exact ⟨rfl, hkeep _ rfl rfl⟩
        · rw [h]
          exact ⟨rfl, (if_pos ⟨hmode, bbrResetMode_mode _ rand⟩).symm⟩
      · exact ⟨rfl, hkeep _ rfl rfl⟩
  · exact ⟨rfl, hkeep _ rfl rfl⟩

/-- The other actions leave the filter alone. -/
theorem acts_quiet_rtt {s s' : BbrSock M} {a : Action} (h : Acts k s a s') (hquiet : a.Quiet) :
    s'.ca.minRttUs = s.ca.minRttUs ∧ s'.ca.minRttStamp = s.ca.minRttStamp := by
  cases h
  cases a with
  | init now => exact absurd hquiet id
  | kernel tp => exact ⟨rfl, rfl⟩
  | call c =>
    cases c with
    | main rs clk rands => exact absurd hquiet id
    | cwndEvent event check restart rand => exact absurd hquiet id
    | ssthresh =>
      have hsave : (bbrSaveCwnd s).rttFilter = s.rttFilter := by
        unfold bbrSaveCwnd
        split <;> rfl
      exact ⟨congrArg RttFilter.minRttUs hsave, congrArg RttFilter.minRttStamp hsave⟩
    | undoCwnd => exact ⟨rfl, rfl⟩
    | setState newState rand =>
      show (bbrSetState k s newState rand).ca.minRttUs = _ ∧ (bbrSetState k s newState rand).ca.minRttStamp = _
      unfold bbrSetState
      split
      · obtain ⟨l, c, hsampling, -⟩ := bbrLtBwSampling_frame (k := k)
          { s with ca := { s.ca with prevCaState := tcpCaLoss.setWidth 3, fullBw := 0, roundStart := true } }
            lossSample rand
        rw [hsampling]
        exact ⟨rfl, rfl⟩
      · exact ⟨rfl, rfl⟩

/-! ## The observers -/

/-- The samples since the estimate was last given up, with the one it began with. -/
def noteSample (k : Kernel M) (n : List ℕ) : Transition (BbrSock M × ℕ) Action → List ℕ
  | (s, .init _, _) => [s.1.tp.minRtt.toNat]
  | (s, .call (.main rs clk _), _) =>
    if rs.rttUs.toInt < 0 then n
    else if bbrFilterExpired k s.1 clk.expired ∧ rs.isAckDelayed = false then [rs.rttUs.toNat % 2 ^ 32]
    else n ++ [rs.rttUs.toNat]
  | _ => n

/-- The moment of the stamp: the last of `bbr_init`, a sample that was taken, and the end of `BBR_PROBE_RTT`. -/
def noteStamp (k : Kernel M) (n : ℕ) : Transition (BbrSock M × ℕ) Action → ℕ
  | (_, .init now, _) => now
  | (s, .call (.main rs clk _), s') =>
    if s.1.ca.mode = .probeRtt ∧ s'.1.ca.mode ≠ .probeRtt then clk.restart
    else if Renews s.1 rs (bbrFilterExpired k s.1 clk.expired) then clk.sample
    else n
  | (s, .call (.cwndEvent _ _ restart _), s') =>
    if s.1.ca.mode = .probeRtt ∧ s'.1.ca.mode ≠ .probeRtt then restart else n
  | _ => n

/-- A number is the minimum of a list. -/
def IsMinimum (x : ℕ) (n : List ℕ) : Prop :=
  x ∈ n ∧ ∀ r ∈ n, x ≤ r

theorem isMinimum_singleton (x : ℕ) : IsMinimum x [x] := by simp [IsMinimum]

theorem IsMinimum.append {x : ℕ} {n : List ℕ} (h : IsMinimum x n) (r : ℕ) :
    IsMinimum (if r < x then r else x) (n ++ [r]) := by
  obtain ⟨hmem, hle⟩ := h
  split
  · rename_i hlt
    refine ⟨by simp, fun b hb => ?_⟩
    rcases List.mem_append.mp hb with hb | hb
    · exact hlt.le.trans (hle b hb)
    · exact (List.mem_singleton.mp hb).ge
  · rename_i hge
    refine ⟨List.mem_append_left _ hmem, fun b hb => ?_⟩
    rcases List.mem_append.mp hb with hb | hb
    · exact hle b hb
    · rw [List.mem_singleton.mp hb]
      exact not_lt.mp hge

/-- An ACK takes its sample into account. -/
theorem bbrMain_isMinimum {n : List ℕ} {s : BbrSock M} {now now' : ℕ} (h : IsMinimum s.ca.minRttUs.toNat n)
    (rs : RateSample) (clk : Clock) (rands : Rands) :
    IsMinimum (bbrMain k s rs clk rands).ca.minRttUs.toNat
      (noteSample k n ((s, now), .call (.main rs clk rands), (bbrMain k s rs clk rands, now'))) := by
  rw [(bbrMain_rtt s rs clk rands).minRttUs, noteSample]
  by_cases hneg : rs.rttUs.toInt < 0
  · rw [if_neg fun hr => absurd hr.1 (not_le.mpr hneg), if_pos hneg]
    exact h
  · rw [if_neg hneg]
    by_cases hgiven : bbrFilterExpired k s clk.expired = true ∧ rs.isAckDelayed = false
    · rw [if_pos ⟨not_lt.mp hneg, .inr hgiven⟩, if_pos hgiven, BitVec.toNat_setWidth]
      exact isMinimum_singleton _
    · have hsign : rs.rttUs.toInt = rs.rttUs.toNat := by
        rw [BitVec.toInt_eq_toNat_cond] at hneg ⊢
        split at hneg
        · rename_i hlow
          rw [if_pos hlow]
        · omega
      have hrenews : Renews s rs (bbrFilterExpired k s clk.expired) ↔ rs.rttUs.toNat < s.ca.minRttUs.toNat := by
        unfold Renews
        rw [hsign, or_iff_left hgiven]
        omega
      rw [if_neg hgiven]
      have happend := h.append rs.rttUs.toNat
      by_cases hlt : rs.rttUs.toNat < s.ca.minRttUs.toNat
      · have hfits : rs.rttUs.toNat < 2 ^ 32 := hlt.trans s.ca.minRttUs.isLt
        rw [if_pos hlt] at happend
        rw [if_pos (hrenews.mpr hlt), BitVec.toNat_setWidth, Nat.mod_eq_of_lt hfits]
        exact happend
      · rw [if_neg hlt] at happend
        rw [if_neg fun hr => hlt (hrenews.mp hr)]
        exact happend

/-- **One action** keeps the minimum. -/
theorem actsAt_isMinimum {n : List ℕ} {s s' : BbrSock M × ℕ} {a : Action} (h : IsMinimum s.1.ca.minRttUs.toNat n)
    (hstep : ActsAt k s a s') : IsMinimum s'.1.ca.minRttUs.toNat (noteSample k n (s, a, s')) := by
  obtain ⟨s, now⟩ := s
  obtain ⟨s', now'⟩ := s'
  obtain ⟨hacts, -⟩ := hstep
  dsimp only at h hacts ⊢
  rcases acts_cases hacts with ⟨start, rfl, rfl⟩ | ⟨rs, clk, rands, rfl, rfl⟩ |
    ⟨event, check, restart, rand, rfl, rfl⟩ |
    ⟨hquiet, -⟩
  · exact isMinimum_singleton _
  · exact bbrMain_isMinimum h rs clk rands
  · rw [(bbrCwndEvent_rtt s event check restart rand).1]
    exact h
  · have hnote : noteSample k n ((s, now), a, (s', now')) = n := by
      cases a with
      | init now => exact absurd hquiet id
      | kernel tp => rfl
      | call c =>
        cases c with
        | main rs clk rands => exact absurd hquiet id
        | _ => rfl
    rw [hnote, (acts_quiet_rtt hacts hquiet).1]
    exact h

/-- The stamp is the low word of the moment. -/
def StampedAt (n : ℕ) (s : BbrSock M × ℕ) : Prop :=
  s.1.ca.minRttStamp = tcpJiffies32 n ∧ n ≤ s.2

/-- **One action** keeps the stamp and the moment together. -/
theorem actsAt_stampedAt {n : ℕ} {s s' : BbrSock M × ℕ} {a : Action} (h : StampedAt n s) (hstep : ActsAt k s a s') :
    StampedAt (noteStamp k n (s, a, s')) s' := by
  obtain ⟨s, now⟩ := s
  obtain ⟨s', now'⟩ := s'
  obtain ⟨hacts, hclock⟩ := hstep
  dsimp only at h hacts hclock ⊢
  have hle : now ≤ now' := (List.pairwise_cons.mp hclock).1 now' (by simp)
  have hold : n ≤ now' := h.2.trans hle
  rcases acts_cases hacts with ⟨start, rfl, rfl⟩ | ⟨rs, clk, rands, rfl, rfl⟩ |
    ⟨event, check, restart, rand, rfl, rfl⟩ |
    ⟨hquiet, -⟩
  · have hread : start ≤ now' := by simp [Chronological, Action.readings] at hclock; omega
    exact ⟨rfl, hread⟩
  · have hread : clk.restart ≤ now' ∧ clk.sample ≤ now' := by
      simp [Chronological, Action.readings] at hclock
      omega
    unfold StampedAt
    rw [(bbrMain_rtt s rs clk rands).minRttStamp]
    simp only [noteStamp]
    split
    · exact ⟨rfl, hread.1⟩
    · split
      · exact ⟨rfl, hread.2⟩
      · exact ⟨h.1, hold⟩
  · have hread : restart ≤ now' := by simp [Chronological, Action.readings] at hclock; omega
    unfold StampedAt
    rw [(bbrCwndEvent_rtt s event check restart rand).2]
    simp only [noteStamp]
    split
    · exact ⟨rfl, hread⟩
    · exact ⟨h.1, hold⟩
  · have hnote : noteStamp k n ((s, now), a, (s', now')) = n := by
      cases a with
      | init now => exact absurd hquiet id
      | kernel tp => rfl
      | call c =>
        cases c with
        | main rs clk rands => exact absurd hquiet id
        | cwndEvent event check restart rand => exact absurd hquiet id
        | _ => rfl
    rw [hnote]
    exact ⟨(acts_quiet_rtt hacts hquiet).2.trans h.1, hold⟩

/-! ## Runs -/

/-- **What `min_rtt_us` is.** In every state of a run from `bbr_init` it is the minimum of the samples since it was last
given up, with the one it began with. -/
theorem min_rtt_is_minimum {s₀ : BbrSock M} {now₀ : ℕ} {s : BbrSock M × ℕ}
    {tr : List (Transition (BbrSock M × ℕ) Action)} (hrun : Trace (ActsAt k) (bbrInit k s₀ now₀, now₀) tr s) :
    IsMinimum s.1.ca.minRttUs.toNat (history (noteSample k) [s₀.tp.minRtt.toNat] tr) :=
  hrun.history_invariant (J := fun n s => IsMinimum s.1.ca.minRttUs.toNat n)
    (fun _ _ _ _ h hs => actsAt_isMinimum h hs) _
    (isMinimum_singleton _)

/-- Samples of 900 and 950 us after the 1000 us of `bbr_init`. -/
theorem min_rtt_is_minimum_two :
    let ack (rtt : U64) : Callback := .main ⟨20, 10, 1000, rtt, 0, 10, 10, false, false⟩ ⟨1, 1, 1, 1, 1⟩ ⟨0, 0, 0⟩
    let s₀ := bbrInit plainKernel (plainSock 10 10) 0
    ∃ s₁ s₂, ActsAt plainKernel (s₀, 0) (.call (ack 900)) (s₁, 1) ∧
      ActsAt plainKernel (s₁, 1) (.call (ack 950)) (s₂, 1) ∧
      s₂.ca.minRttUs = 900 ∧
      IsMinimum s₂.ca.minRttUs.toNat (history (noteSample plainKernel) [1000]
        [((s₀, 0), .call (ack 900), (s₁, 1)), ((s₁, 1), .call (ack 950), (s₂, 1))]) := by
  intro ack s₀
  obtain ⟨s₁, hs₁⟩ : ∃ s₁, (ack 900).run plainKernel s₀ = s₁ := ⟨_, rfl⟩
  obtain ⟨s₂, hs₂⟩ : ∃ s₂, (ack 950).run plainKernel s₁ = s₂ := ⟨_, rfl⟩
  have hclock₁ : Chronological 0 (.call (ack 900)) 1 := by simp [Chronological, Action.readings, ack]
  have hclock₂ : Chronological 1 (.call (ack 950)) 1 := by simp [Chronological, Action.readings, ack]
  have hfirst : ActsAt plainKernel (s₀, 0) (.call (ack 900)) (s₁, 1) := ⟨hs₁, hclock₁⟩
  have hlast : ActsAt plainKernel (s₁, 1) (.call (ack 950)) (s₂, 1) := ⟨hs₂, hclock₂⟩
  have hmin : s₂.ca.minRttUs = 900 := by rw [← hs₂, ← hs₁]; decide +kernel
  have hbase : (plainSock 10 10).tp.minRtt.toNat = 1000 := rfl
  have hleast := min_rtt_is_minimum (.cons hfirst (.cons hlast (.nil _)))
  rw [hbase] at hleast
  exact ⟨s₁, s₂, hfirst, hlast, hmin, hleast⟩

/-- The jiffies of the window of the filter. -/
def rttWindow (k : Kernel M) : ℕ :=
  10 * k.hz.toNat

/-- **When `BBR_PROBE_RTT` is entered.** In a run from `bbr_init`, with 10 s less than half of the range of the clock,
an ACK outside the mode enters it only when no restart from idle is under way and the estimate is older than 10 s at its
reading of the clock; and if this is so it enters it, as long as the estimate is not older than half of the range. -/
theorem probe_rtt_entered_iff (hhz : rttWindow k < 2 ^ 31) {s₀ : BbrSock M} {now₀ : ℕ} {s s' : BbrSock M × ℕ}
    {rs : RateSample} {clk : Clock} {rands : Rands} {tr : List (Transition (BbrSock M × ℕ) Action)}
    (hrun : Trace (ActsAt k) (bbrInit k s₀ now₀, now₀) tr s) (hstep : ActsAt k s (.call (.main rs clk rands)) s')
    (hout : s.1.ca.mode ≠ .probeRtt) :
    let n := history (noteStamp k) now₀ tr
    (s'.1.ca.mode = .probeRtt → s.1.ca.idleRestart = false ∧ n + rttWindow k < clk.expired) ∧
      (s.1.ca.idleRestart = false → n + rttWindow k < clk.expired → clk.expired ≤ n + 2 ^ 31 →
        s'.1.ca.mode = .probeRtt) := by
  intro n
  have hstamp : StampedAt n s := hrun.history_invariant (J := StampedAt) (fun _ _ _ _ h hs => actsAt_stampedAt h hs) _
    ⟨rfl, le_rfl⟩
  have hmain : bbrMain k s.1 rs clk rands = s'.1 := hstep.1
  have henters := (bbrMain_rtt (k := k) s.1 rs clk rands).enters hout
  rw [hmain] at henters
  have hle : n ≤ clk.expired := by
    have hclock := hstep.2
    simp [Chronological, Action.readings] at hclock
    exact hstamp.2.trans hclock.1.1
  have hwindow : bbrMinRttWinSec * k.hz = BitVec.ofNat 32 (rttWindow k) := by
    rw [rttWindow, BitVec.ofNat_mul, BitVec.ofNat_toNat, BitVec.setWidth_eq]
    rfl
  have hexpired : bbrFilterExpired k s.1 clk.expired = true ↔
      (BitVec.ofNat 32 n + BitVec.ofNat 32 (rttWindow k) - BitVec.ofNat 32 clk.expired).toInt < 0 := by
    rw [bbrFilterExpired, after, before, decide_eq_true_iff, hwindow, hstamp.1]
    rfl
  rw [henters]
  constructor
  · rintro ⟨hexp, hidle⟩
    exact ⟨hidle, lt_of_stamp_passed (w := 31) hhz hle (hexpired.mp hexp)⟩
  · intro hidle hlate hrecent
    refine ⟨hexpired.mpr ?_, hidle⟩
    rw [← BitVec.ofNat_add, toInt_sub_ofNat (w := 31) (by omega) (by omega)]
    omega

/-- The estimate of jiffy 1000 is older than 10 s at jiffy 11001. -/
theorem probe_rtt_entered_late :
    let ack : Callback :=
      .main ⟨20, 10, 1000, 1000, 0, 10, 10, false, false⟩ ⟨11001, 11001, 11001, 11001, 11001⟩ ⟨0, 0, 0⟩
    let s₀ := bbrInit plainKernel (plainSock 10 10) 1000
    ∃ s₁, ActsAt plainKernel (s₀, 1000) (.call ack) (s₁, 11001) ∧ s₁.ca.mode = .probeRtt := by
  intro ack s₀
  obtain ⟨s₁, hs₁⟩ : ∃ s₁, ack.run plainKernel s₀ = s₁ := ⟨_, rfl⟩
  have hclock : Chronological 1000 (.call ack) 11001 := by simp [Chronological, Action.readings, ack]
  have hstep : ActsAt plainKernel (s₀, 1000) (.call ack) (s₁, 11001) := ⟨hs₁, hclock⟩
  have hout : s₀.ca.mode ≠ .probeRtt := bbrInit_out _ _
  have hwindow : rttWindow plainKernel = 10000 := rfl
  have hhz : rttWindow plainKernel < 2 ^ 31 := by omega
  have henters := (probe_rtt_entered_iff hhz (.nil _) hstep hout).2
  have hlate : 1000 + rttWindow plainKernel < 11001 := by omega
  have hrecent : 11001 ≤ 1000 + 2 ^ 31 := by omega
  exact ⟨s₁, hstep, henters rfl hlate hrecent⟩

end CoupledCC.Bbr
