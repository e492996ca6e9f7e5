import CoupledCC.Cubic.Runs

/-!
# The epochs of CUBIC

`cubictcp_init`, `cubictcp_recalc_ssthresh` and a loss end the epoch: they set `epoch_start` to 0, and the next call of
`bictcp_update` is to open a new one. Zero is also a reading of the clock, and two exits of `bictcp_update` come before
the epoch is opened. An observer notes which values were computed since the last end (`noteEpoch`).

- `bictcpUpdate_epoch`: what a call does to `epoch_start`, by the way it leaves;
- `bictcpUpdate_forgets`: a call that opens an epoch reads none of the values it computes;
- `epoch_run_iff`: which runs keep the promise that every call leaves an open epoch with values of its own, whatever the
  values of the epoch before it.
-/

namespace CoupledCC.Cubic

open Word Runs

/-- The early return of `bictcp_update`: the window it has seen last, at most `HZ / 32` jiffies ago. -/
def EarlyReturn (cfg : Config) (ca : Bictcp) (cwnd : U32) (clk : Jiffies) : Prop :=
  ca.lastCwnd = cwnd ∧ (clk.early - ca.lastTime).signExtend 64 ≤ cfg.hz / 32

instance (cfg : Config) (ca : Bictcp) (cwnd : U32) (clk : Jiffies) : Decidable (EarlyReturn cfg ca cwnd clk) := by
  unfold EarlyReturn
  infer_instance

/-- The three events that end an epoch. -/
def EndsEpoch : Action → Prop
  | .init => True
  | .call .recalcSsthresh => True
  | .call (.state newState) => newState = tcpCaLoss
  | _ => False

instance (a : Action) : Decidable (EndsEpoch a) := by
  unfold EndsEpoch
  split <;> infer_instance

/-! ## One call of `bictcp_update` -/

theorem bictcpRecord_epochStart {ca ca' : Bictcp} {cwnd acked : U32} {clk : Jiffies}
    (h : bictcpRecord ca cwnd acked clk = some ca') :
    ca'.epochStart = if ca.epochStart = 0 then clk.start else ca.epochStart := by
  unfold bictcpRecord at h
  simp only at h
  split at h
  · rename_i hzero
    rw [if_pos hzero]
    unfold bictcpOpenEpoch at h
    simp only at h
    split at h
    · cases h
      rfl
    · obtain ⟨k, -, rfl⟩ := Option.map_eq_some_iff.mp h
      rfl
  · rename_i hopen
    rw [if_neg hopen]
    cases h
    rfl

/-- What a call does to `epoch_start`, by the way it leaves. -/
def PathEpoch (cfg : Config) (ca ca' : Bictcp) (cwnd : U32) (clk : Jiffies) : Path → Prop
  | .early _ => EarlyReturn cfg ca cwnd clk ∧ ca'.epochStart = ca.epochStart
  | .friendly _ => ¬ EarlyReturn cfg ca cwnd clk ∧ ca.epochStart ≠ 0 ∧ ca'.epochStart = ca.epochStart
  | .cubic _ => ¬ EarlyReturn cfg ca cwnd clk ∧
      ca'.epochStart = if ca.epochStart = 0 then clk.start else ca.epochStart

/-- **One call.** Only a call through the cubic function opens an epoch. -/
theorem bictcpUpdate_epoch {cfg : Config} {ca ca' : Bictcp} {cwnd acked : U32} {clk : Jiffies}
    (h : bictcpUpdate cfg ca cwnd acked clk = some ca') :
    ∃ path, bictcpPath cfg ca cwnd acked clk = some path ∧ PathEpoch cfg ca ca' cwnd clk path := by
  cases bictcpUpdate_way h with
  | early hearly hpath => exact ⟨_, hpath, hearly, rfl⟩
  | friendly hearly hopen hpath hblock =>
    have hepoch := congrArg Bictcp.epochStart (bictcpFriendliness_frame hblock)
    exact ⟨_, hpath, hearly, hopen, hepoch⟩
  | cubic hearly hrecord hpath hblock =>
    have hopened := bictcpRecord_epochStart hrecord
    have hepoch := congrArg Bictcp.epochStart (bictcpFriendliness_frame hblock)
    exact ⟨_, hpath, hearly, hepoch.trans hopened⟩

/-- A call on a closed epoch that does not leave early opens it. -/
theorem bictcpPath_opens {cfg : Config} (ca : Bictcp) {cwnd : U32} {clk : Jiffies} (acked : U32)
    (hclosed : ca.epochStart = 0) (hearly : ¬ EarlyReturn cfg ca cwnd clk) :
    bictcpPath cfg ca cwnd acked clk =
      (bictcpOpenEpoch { ca with ackCnt := ca.ackCnt + acked, lastCwnd := cwnd, lastTime := clk.stamp }
        cwnd acked clk.start).map .cubic := by
  unfold EarlyReturn at hearly
  unfold bictcpPath bictcpRecord
  simp only
  rw [if_neg hearly, if_neg (fun h => h.1 hclosed), if_pos hclosed]

/-- **What an opening call computes** does not depend on the origin point, `bic_K`, `tcp_cwnd` and `cnt` it finds. -/
theorem bictcpUpdate_forgets {cfg : Config} {ca : Bictcp} {cwnd : U32} {clk : Jiffies} (acked : U32)
    (hclosed : ca.epochStart = 0) (hearly : ¬ EarlyReturn cfg ca cwnd clk) (origin k tcpCwnd cnt : U32) :
    bictcpUpdate cfg { ca with bicOriginPoint := origin, bicK := k, tcpCwnd := tcpCwnd, cnt := cnt } cwnd acked clk =
      bictcpUpdate cfg ca cwnd acked clk := by
  have hstale := bictcpPath_opens { ca with bicOriginPoint := origin, bicK := k, tcpCwnd := tcpCwnd, cnt := cnt }
    acked hclosed
    hearly
  unfold bictcpUpdate
  rw [bictcpPath_opens ca acked hclosed hearly, hstale]
  unfold bictcpOpenEpoch
  simp only
  by_cases hmax : ca.lastMaxCwnd ≤ cwnd
  · rw [if_pos hmax, if_pos hmax]
    rfl
  · rw [if_neg hmax, if_neg hmax]
    cases cubicRoot (cubeFactor * (ca.lastMaxCwnd - cwnd).setWidth 64) with
    | none => rfl
    | some root => rfl

/-! ## The observer -/

/-- Which values were computed since the last end of an epoch. -/
structure Fresh where
  origin : Bool
  k : Bool
  tcpCwnd : Bool
  cnt : Bool
deriving Repr, DecidableEq

def Fresh.none : Fresh := ⟨false, false, false, false⟩

def Fresh.all : Fresh := ⟨true, true, true, true⟩

/-- A call of `bictcp_update`: through the cubic function it computes `cnt`, and where it opens an epoch the other
values. -/
def Fresh.update (f : Fresh) (ca : Bictcp) : Path → Fresh
  | .cubic _ => if ca.epochStart = 0 then .all else { f with cnt := true }
  | _ => f

/-- The notes after an action. -/
def noteEpoch (cfg : Config) (f : Fresh) : Transition CubicSock Action → Fresh
  | (s, .call (.congAvoid ack acked clk), _) =>
    match updateCall s ack acked with
    | some (s₁, left) => (bictcpPath cfg s₁.ca s₁.tp.sndCwnd left clk).elim f (f.update s₁.ca)
    | Option.none => f
  | (_, a, _) => if EndsEpoch a then .none else f

/-- The action calls `bictcp_update`. -/
def Updates (s : CubicSock) : Action → Prop
  | .call (.congAvoid ack acked _) => (updateCall s ack acked).isSome
  | _ => False

instance (s : CubicSock) (a : Action) : Decidable (Updates s a) := by
  unfold Updates
  split <;> infer_instance

/-- A call of `bictcp_update` on a closed epoch gives the same for all values of the old one it may find. -/
def Recomputes (cfg : Config) (s : CubicSock) : Action → Prop
  | .call (.congAvoid ack acked clk) => ∀ call ∈ updateCall s ack acked, call.1.ca.epochStart = 0 →
      ∀ origin k tcpCwnd cnt : U32,
        bictcpUpdate cfg { call.1.ca with bicOriginPoint := origin, bicK := k, tcpCwnd := tcpCwnd, cnt := cnt }
            call.1.tp.sndCwnd call.2 clk =
          bictcpUpdate cfg call.1.ca call.1.tp.sndCwnd call.2 clk
  | _ => True

/-- The promise, for one action: a call of `bictcp_update` leaves an open epoch, with values computed since the last
end, and not from the values of the epoch before it; and no other action than one that ends the epoch closes it. -/
structure Promise (cfg : Config) (f : Fresh) (t : Transition CubicSock Action) : Prop where
  opens : Updates t.1 t.2.1 → t.2.2.ca.epochStart ≠ 0 ∧ noteEpoch cfg f t = .all
  recomputes : Recomputes cfg t.1 t.2.1
  closes : t.1.ca.epochStart ≠ 0 → t.2.2.ca.epochStart = 0 → EndsEpoch t.2.1

/-- The promise, along a run. -/
def Kept (cfg : Config) (f : Fresh) : List (Transition CubicSock Action) → Prop
  | [] => True
  | t :: tr => Promise cfg f t ∧ Kept cfg (noteEpoch cfg f t) tr

theorem Kept.mem {cfg : Config} {f : Fresh} {tr : List (Transition CubicSock Action)} {t : Transition CubicSock Action}
    (h : Kept cfg f tr) (ht : t ∈ tr) : ∃ f', Promise cfg f' t := by
  induction tr generalizing f with
  | nil => cases ht
  | cons t₁ tr ih =>
    rcases List.mem_cons.mp ht with rfl | hmem
    · exact ⟨f, h.1⟩
    · exact ih h.2 hmem

/-- The start of the epoch after idle time, as `cubictcp_cwnd_event` shifts it. -/
def shifted (s : CubicSock) (now : U32) : U32 :=
  let epochStart := s.ca.epochStart + (now - s.tp.lsndtime)
  if after epochStart now then now else epochStart

/-- The condition: a call of `bictcp_update` on a closed epoch does not leave early and reads a clock that is not 0, and
idle time does not shift the start of an epoch to 0. -/
def EpochGood (cfg : Config) (s : CubicSock) : Action → Prop
  | .call (.congAvoid ack acked clk) => ∀ call ∈ updateCall s ack acked, call.1.ca.epochStart = 0 →
      ¬ EarlyReturn cfg call.1.ca call.1.tp.sndCwnd clk ∧ clk.start ≠ 0
  | .call (.cwndEvent event now) => event = .txStart → s.ca.epochStart ≠ 0 → 0 < (now - s.tp.lsndtime).toInt →
      shifted s now ≠ 0
  | _ => True

instance (cfg : Config) (s : CubicSock) (a : Action) : Decidable (EpochGood cfg s a) := by
  unfold EpochGood
  split <;> infer_instance

/-! ## The promise -/

/-- The values of an open epoch were computed since the last end of one. -/
def FreshInv (f : Fresh) (s : CubicSock) : Prop :=
  s.ca.epochStart ≠ 0 → f = .all

/-- A call of `bictcp_update` keeps the promise exactly when it finds an open epoch, or opens one that does not start at
0. -/
theorem update_promise {cfg : Config} {f : Fresh} {ca ca' : Bictcp} {cwnd left : U32} {clk : Jiffies}
    (hf : ca.epochStart ≠ 0 → f = .all) (h : bictcpUpdate cfg ca cwnd left clk = some ca') :
    ((ca'.epochStart ≠ 0 ∧ (bictcpPath cfg ca cwnd left clk).elim f (f.update ca) = .all) ↔
        (ca.epochStart = 0 → ¬ EarlyReturn cfg ca cwnd clk ∧ clk.start ≠ 0)) ∧
      (ca'.epochStart ≠ 0 → (bictcpPath cfg ca cwnd left clk).elim f (f.update ca) = .all) ∧
      (ca.epochStart ≠ 0 → ca'.epochStart ≠ 0) := by
  obtain ⟨path, hpath, hcase⟩ := bictcpUpdate_epoch h
  rw [hpath, Option.elim_some]
  by_cases hclosed : ca.epochStart = 0
  · cases path with
    | early ca₁ =>
      obtain ⟨hearly, hsame⟩ := hcase
      rw [hsame]
      simp [hclosed, hearly]
    | friendly ca₁ => exact absurd hclosed hcase.2.1
    | cubic ca₁ =>
      obtain ⟨hearly, hstart⟩ := hcase
      rw [if_pos hclosed] at hstart
      simp [hstart, hclosed, hearly, Fresh.update]
  · have hall := hf hclosed
    have hnotes : f.update ca path = .all := by
      rw [hall]
      unfold Fresh.update
      split
      · rw [if_neg hclosed]
        rfl
      · rfl
    have hopen : ca'.epochStart ≠ 0 := by
      cases path with
      | early ca₁ => rw [hcase.2]; exact hclosed
      | friendly ca₁ => rw [hcase.2.2]; exact hclosed
      | cubic ca₁ => rw [hcase.2, if_neg hclosed]; exact hclosed
    exact ⟨⟨fun _ h => absurd h hclosed, fun _ => ⟨hopen, hnotes⟩⟩, fun _ => hnotes, fun _ => hopen⟩

/-- The start of the epoch after `cubictcp_cwnd_event`. -/
theorem cubictcpCwndEvent_epochStart (s : CubicSock) (event : CaEvent) (now : U32) :
    (cubictcpCwndEvent s event now).ca.epochStart =
      if event = .txStart ∧ s.ca.epochStart ≠ 0 ∧ 0 < (now - s.tp.lsndtime).toInt then shifted s now
      else s.ca.epochStart := by
  unfold cubictcpCwndEvent shifted
  by_cases hevent : event = .txStart
  · simp only [hevent, if_true, true_and]
    split <;> rfl
  · simp [hevent]

/-- An action that does not call `bictcp_update` on a closed epoch has nothing to compute anew. -/
theorem recomputes_quiet {cfg : Config} {s : CubicSock} {a : Action} (h : ¬ Updates s a) : Recomputes cfg s a := by
  cases a with
  | call c =>
    cases c with
    | congAvoid ack acked clk =>
      have hnone : updateCall s ack acked = Option.none := by simpa [Updates] using h
      intro call hmem
      rw [hnone] at hmem
      cases hmem
    | _ => trivial
  | _ => trivial

/-- The notes stay as they are without a call of `bictcp_update` and without an end. -/
theorem noteEpoch_quiet {cfg : Config} {f : Fresh} {s s' : CubicSock} {a : Action} (hupdates : ¬ Updates s a)
    (hends : ¬ EndsEpoch a) : noteEpoch cfg f (s, a, s') = f := by
  cases a with
  | init => exact absurd trivial hends
  | kernel tp => rfl
  | call c =>
    cases c with
    | congAvoid ack acked clk =>
      have hnone : updateCall s ack acked = Option.none := by simpa [Updates] using hupdates
      simp only [noteEpoch, hnone]
    | _ => simp only [noteEpoch, if_neg hends]

/-- What is shown of every action: it keeps the promise exactly under the condition, and open epochs have values of
their own. -/
def Kind (cfg : Config) (f : Fresh) (t : Transition CubicSock Action) : Prop :=
  (Promise cfg f t ↔ EpochGood cfg t.1 t.2.1) ∧ FreshInv (noteEpoch cfg f t) t.2.2

/-- An action that leaves `epoch_start` alone. -/
theorem kind_quiet {cfg : Config} {f : Fresh} {s s' : CubicSock} {a : Action} (hf : FreshInv f s)
    (hupdates : ¬ Updates s a) (hends : ¬ EndsEpoch a) (hgood : EpochGood cfg s a)
    (hsame : s'.ca.epochStart = s.ca.epochStart) : Kind cfg f (s, a, s') := by
  refine ⟨⟨fun _ => hgood, fun _ => ⟨fun h => absurd h hupdates, recomputes_quiet hupdates, fun h h' => ?_⟩⟩, ?_⟩
  · exact absurd (hsame.symm.trans h') h
  · rw [noteEpoch_quiet hupdates hends]
    exact fun h => hf (by rw [← hsame]; exact h)

/-- An action that ends the epoch. -/
theorem kind_ends {cfg : Config} {f : Fresh} {s s' : CubicSock} {a : Action} (hupdates : ¬ Updates s a)
    (hends : EndsEpoch a) (hgood : EpochGood cfg s a) (hzero : s'.ca.epochStart = 0) : Kind cfg f (s, a, s') := by
  refine ⟨⟨fun _ => hgood, fun _ => ⟨fun h => absurd h hupdates, recomputes_quiet hupdates, fun _ _ => hends⟩⟩, ?_⟩
  exact fun h => absurd hzero h

/-- `cubictcp_cong_avoid`. -/
theorem kind_congAvoid {cfg : Config} {f : Fresh} {s s' : CubicSock} {ack acked : U32} {clk : Jiffies}
    (hf : FreshInv f s) (h : cubictcpCongAvoid cfg s ack acked clk = some s') :
    Kind cfg f (s, .call (.congAvoid ack acked clk), s') := by
  have hreset : (if hystartResets s ack then bictcpHystartReset s else s).ca.epochStart = s.ca.epochStart :=
    congrArg Window.epochStart (hystartResets_window s ack)
  rcases cubictcpCongAvoid_ca h with ⟨hnone, hca⟩ | ⟨s₁, left, hcall, hupdate⟩
  · refine kind_quiet hf (by simp [Updates, hnone]) id ?_ (by rw [hca, hreset])
    intro call hmem
    rw [hnone] at hmem
    cases hmem
  · have hsame : s₁.ca.epochStart = s.ca.epochStart := by rw [updateCall_ca hcall, hreset]
    obtain ⟨hiff, hfresh, hopen⟩ := update_promise (f := f) (fun hne => hf (by rw [← hsame]; exact hne)) hupdate
    have hnotes : noteEpoch cfg f (s, .call (.congAvoid ack acked clk), s') =
        (bictcpPath cfg s₁.ca s₁.tp.sndCwnd left clk).elim f (f.update s₁.ca) := by
      simp only [noteEpoch, hcall]
    have hgood : EpochGood cfg s (.call (.congAvoid ack acked clk)) ↔
        (s₁.ca.epochStart = 0 → ¬ EarlyReturn cfg s₁.ca s₁.tp.sndCwnd clk ∧ clk.start ≠ 0) := by
      constructor
      · exact fun hall => hall _ hcall
      · intro hone call hmem
        rw [hcall, Option.mem_some_iff] at hmem
        subst hmem
        exact hone
    refine ⟨?_, by rw [hnotes]; exact hfresh⟩
    rw [hgood, ← hiff]
    constructor
    · intro hp
      obtain ⟨h₁, h₂⟩ := hp.opens (by simp [Updates, hcall])
      exact ⟨h₁, by rw [← hnotes]; exact h₂⟩
    · rintro ⟨h₁, h₂⟩
      refine ⟨fun _ => ⟨h₁, by rw [hnotes]; exact h₂⟩, fun call hmem hclosed => ?_, fun _ hzero => absurd hzero h₁⟩
      rw [hcall, Option.mem_some_iff] at hmem
      subst hmem
      exact bictcpUpdate_forgets left hclosed ((hiff.mp ⟨h₁, h₂⟩) hclosed).1

/-- `cubictcp_cwnd_event`. -/
theorem kind_cwndEvent {cfg : Config} {f : Fresh} {s : CubicSock} (hf : FreshInv f s) (event : CaEvent) (now : U32) :
    Kind cfg f (s, .call (.cwndEvent event now), cubictcpCwndEvent s event now) := by
  have hepoch := cubictcpCwndEvent_epochStart s event now
  by_cases hshift : event = .txStart ∧ s.ca.epochStart ≠ 0 ∧ 0 < (now - s.tp.lsndtime).toInt
  · rw [if_pos hshift] at hepoch
    obtain ⟨hevent, hopen, hidle⟩ := hshift
    refine ⟨⟨fun hp _ _ _ hzero => ?_, fun hgood => ⟨fun h => absurd h id, trivial, fun _ hzero => ?_⟩⟩, fun _ => ?_⟩
    · exact hp.closes hopen (hepoch.trans hzero)
    · exact absurd (hepoch.symm.trans hzero) (hgood hevent hopen hidle)
    · rw [noteEpoch_quiet id id]
      exact hf hopen
  · rw [if_neg hshift] at hepoch
    refine kind_quiet hf id id (fun hevent hopen hidle => ?_) hepoch
    exact absurd ⟨hevent, hopen, hidle⟩ hshift

/-- **One action.** -/
theorem kind_of_acts {cfg : Config} {f : Fresh} {s s' : CubicSock} {a : Action} (hf : FreshInv f s)
    (hrun : Acts cfg s a s') : Kind cfg f (s, a, s') := by
  unfold Acts at hrun
  cases a with
  | init =>
    cases hrun
    exact kind_ends id trivial trivial rfl
  | kernel tp =>
    cases hrun
    exact kind_quiet hf id id trivial rfl
  | call c =>
    cases c with
    | congAvoid ack acked clk => exact kind_congAvoid hf hrun
    | recalcSsthresh =>
      cases hrun
      exact kind_ends id trivial trivial rfl
    | state newState =>
      cases hrun
      unfold cubictcpState
      split
      · rename_i hloss
        exact kind_ends id hloss trivial rfl
      · rename_i hloss
        exact kind_quiet hf id hloss trivial rfl
    | cwndEvent event now =>
      cases hrun
      exact kind_cwndEvent hf event now
    | acked rttUs now => exact kind_quiet hf id id trivial (congrArg Window.epochStart (cubictcpAcked_window hrun))

/-- **Which runs keep the promise.** Those from `cubictcp_init` in which every action meets the condition, and no
others. -/
theorem epoch_run_iff {cfg : Config} {s₀ s : CubicSock} {tr : List (Transition CubicSock Action)}
    (hrun : Trace (Acts cfg) (cubictcpInit s₀) tr s) :
    Kept cfg .none tr ↔ ∀ t ∈ tr, EpochGood cfg t.1 t.2.1 := by
  have hstart : FreshInv .none (cubictcpInit s₀) := fun h => absurd rfl h
  generalize Fresh.none = f at hstart ⊢
  generalize cubictcpInit s₀ = s₁ at hrun hstart
  induction hrun generalizing f with
  | nil => simp [Kept]
  | cons hstep _ ih =>
    obtain ⟨hiff, hfresh⟩ := kind_of_acts hstart hstep
    rw [Kept, List.forall_mem_cons]
    exact and_congr hiff (ih _ hfresh)

/-- An epoch is opened at jiffy 1000, ended, and opened again at jiffy 1100. -/
theorem epoch_run_iff_reopened :
    let cfg : Config := ⟨1000, 717, 15, by decide⟩
    let tp : TcpSock := ⟨10, 0, 5, 100, 0, 100, true, 0, 0, 0, 0, 0, 0⟩
    let s₀ : CubicSock := ⟨tp, ⟨0, 0, 0, 0, 0, 0, 0, 0, 0, 0, 0, 0, 0, 0, 0, 0⟩⟩
    ∃ tr s, Trace (Acts cfg) (cubictcpInit s₀) tr s ∧ s.ca.epochStart = 1100 ∧ Kept cfg .none tr := by
  intro cfg tp s₀
  let acts : List Action :=
    [.call (.congAvoid 1 1 ⟨1000, 1000, 1000, 1000, 1000⟩), .call .recalcSsthresh,
      .call (.congAvoid 2 1 ⟨1100, 1100, 1100, 1100, 1100⟩)]
  have hrun : (transitions (fun s (a : Action) => a.run cfg s) (cubictcpInit s₀) acts).map
      (fun p => (decide (∀ t ∈ p.1, EpochGood cfg t.1 t.2.1), p.2.ca.epochStart)) = some (true, 1100) := by decide
  obtain ⟨⟨tr, s⟩, htr, hends⟩ := Option.map_eq_some_iff.mp hrun
  obtain ⟨hgood, hstart⟩ := Prod.mk.inj hends
  have htrace := Trace.of_transitions htr
  exact ⟨tr, s, htrace, hstart, (epoch_run_iff htrace).mpr (of_decide_eq_true hgood)⟩

/-- The same with the second call at jiffy 1001: the window is the remembered one, so that the call leaves at the early
return and the epoch stays closed. -/
theorem epoch_stays_closed :
    let cfg : Config := ⟨1000, 717, 15, by decide⟩
    let tp : TcpSock := ⟨10, 0, 5, 100, 0, 100, true, 0, 0, 0, 0, 0, 0⟩
    let s₀ : CubicSock := ⟨tp, ⟨0, 0, 0, 0, 0, 0, 0, 0, 0, 0, 0, 0, 0, 0, 0, 0⟩⟩
    ∃ tr s, Trace (Acts cfg) (cubictcpInit s₀) tr s ∧
      (tr.map fun t => (t.2.1, t.1.tp.sndCwnd)) =
        [(.call (.congAvoid 1 1 ⟨1000, 1000, 1000, 1000, 1000⟩), 10), (.call .recalcSsthresh, 10),
          (.call (.congAvoid 2 1 ⟨1001, 1001, 1001, 1001, 1001⟩), 10)] ∧
      s.ca.epochStart = 0 ∧ ¬ Kept cfg .none tr := by
  intro cfg tp s₀
  let acts : List Action :=
    [.call (.congAvoid 1 1 ⟨1000, 1000, 1000, 1000, 1000⟩), .call .recalcSsthresh,
      .call (.congAvoid 2 1 ⟨1001, 1001, 1001, 1001, 1001⟩)]
  have hrun : (transitions (fun s (a : Action) => a.run cfg s) (cubictcpInit s₀) acts).map
      (fun p => (p.1.map fun t => (t.2.1, t.1.tp.sndCwnd), p.2.ca.epochStart,
        p.1.getLast?.map fun t => (decide (Updates t.1 t.2.1), t.2.2.ca.epochStart))) =
      some ([(.call (.congAvoid 1 1 ⟨1000, 1000, 1000, 1000, 1000⟩), 10), (.call .recalcSsthresh, 10),
        (.call (.congAvoid 2 1 ⟨1001, 1001, 1001, 1001, 1001⟩), 10)], 0, some (true, 0)) := by decide
  obtain ⟨⟨tr, s⟩, htr, hends⟩ := Option.map_eq_some_iff.mp hrun
  simp only [Prod.mk.injEq] at hends
  obtain ⟨hacts, hclosed, hlast⟩ := hends
  obtain ⟨t, hmem, hcall⟩ := Option.map_eq_some_iff.mp hlast
  obtain ⟨hupdates, hzero⟩ := Prod.mk.inj hcall
  refine ⟨tr, s, Trace.of_transitions htr, hacts, hclosed, fun hkept => ?_⟩
  obtain ⟨f, hpromise⟩ := hkept.mem (List.mem_of_getLast? hmem)
  exact (hpromise.opens (of_decide_eq_true hupdates)).1 hzero

end CoupledCC.Cubic
