import CoupledCC.Bbr.Gauges

/-!
# When BBR declares the pipe full

`bbr_check_full_bw_reached` looks at the bandwidth once a round. It remembers the bandwidth of a round that had grown
enough, and counts the rounds after it that had not. An observer notes the bandwidth and what it is compared with at
each such evaluation, and the calls that make the detection start anew (`noteBw`).

- `bbrCheckFullBwReached_pipe`: one evaluation;
- `Counted`: the count is that of the latest notes;
- `full_after_three_rounds`: so the flag is set after three rounds without growth.
-/

namespace CoupledCC.Bbr

open Word Runs

/-- What an observer notes: an evaluation of the bandwidth against `full_bw`, or a call that resets `full_bw`. -/
inductive BwNote
  | evaluation (maxBw fullBw : U32)
  | cut
deriving Repr, DecidableEq

/-- The bandwidth has not grown by a quarter. -/
def Low (fullBw maxBw : U32) : Prop :=
  maxBw.toNat < 5 * fullBw.toNat / 4

/-- The latest notes are evaluations of low bandwidths against one and the same `full_bw`, and right before them that
bandwidth was noted itself. -/
def LowRounds (fullBw : U32) (low : List U32) (notes : List BwNote) : Prop :=
  (∀ m ∈ low, Low fullBw m) ∧
    ∃ f₀ rest, notes = low.map (fun m => .evaluation m fullBw) ++ .evaluation fullBw f₀ :: rest

/-- While the pipe is not full, the count is that of the low rounds, unless `full_bw` was reset. -/
def Counted (notes : List BwNote) (p : Pipe) : Prop :=
  p.fullBwReached = false → p.fullBwCnt.toNat ≤ 2 ∧
    (p.fullBw = 0 ∨ ∃ low, LowRounds p.fullBw low notes ∧ low.length = p.fullBwCnt.toNat)

/-- A reset of `full_bw` is no claim about the rounds. -/
theorem counted_reset {notes : List BwNote} {p : Pipe} (hcnt : p.fullBwReached = false → p.fullBwCnt.toNat ≤ 2)
    (hzero : p.fullBw = 0) : Counted notes p :=
  fun hopen => ⟨hcnt hopen, .inl hzero⟩

/-- A bandwidth that has grown is the new `full_bw`. -/
theorem counted_grown (notes : List BwNote) (maxBw fullBw : U32) (reached : Bool) :
    Counted (.evaluation maxBw fullBw :: notes) ⟨maxBw, 0, reached⟩ := by
  intro _
  refine ⟨by simp, .inr ⟨[], ⟨by simp, fullBw, notes, rfl⟩, rfl⟩⟩

/-- A low bandwidth is one more round. -/
theorem Counted.low {notes : List BwNote} {p : Pipe} (h : Counted notes p) (hopen : p.fullBwReached = false)
    {maxBw : U32} (hlow : Low p.fullBw maxBw) :
    p.fullBwCnt.toNat ≤ 2 ∧ ∃ low, LowRounds p.fullBw low (.evaluation maxBw p.fullBw :: notes) ∧
      low.length = p.fullBwCnt.toNat + 1 := by
  obtain ⟨hcnt, hzero | ⟨low, ⟨hall, f₀, rest, hnotes⟩, hlen⟩⟩ := h hopen
  · -- no bandwidth is below a quarter more than 0
    rw [hzero] at hlow
    exact absurd hlow (by simp [Low])
  · refine ⟨hcnt, maxBw :: low, ⟨?_, f₀, rest, ?_⟩, by rw [List.length_cons, hlen]⟩
    · rw [List.forall_mem_cons]
      exact ⟨hlow, hall⟩
    · rw [hnotes]
      rfl

section Runs

variable {M : Type} {k : Kernel M}

/-- An ACK evaluates the bandwidth: a round has started, the sample is not limited by the application, and the pipe is
not yet known to be full. -/
def Evaluates (s : BbrSock M) (rs : RateSample) : Prop :=
  s.ca.fullBwReached = false ∧ s.ca.roundStart = true ∧ rs.isAppLimited = false

instance (s : BbrSock M) (rs : RateSample) : Decidable (Evaluates s rs) := by
  unfold Evaluates
  infer_instance

def noteBw (k : Kernel M) (notes : List BwNote) : Transition (BbrSock M) Action → List BwNote
  | (_, .init _, _) => []
  | (s, .call (.main rs _ rands), _) =>
    let s := bbrAtFullBw k s rs rands.sampling
    if Evaluates s rs then .evaluation (bbrMaxBw k s) s.ca.fullBw :: notes else notes
  | (_, .call .undoCwnd, _) => .cut :: notes
  | (_, .call (.setState newState _), _) => if newState = tcpCaLoss then .cut :: notes else notes
  | _ => notes

/-! ## One evaluation -/

/-- The threshold of the code is at most a quarter more than `full_bw`. -/
theorem bwThresh_le (fullBw : U32) :
    (((fullBw.setWidth 64 * bbrFullBwThresh) >>> bbrScale).setWidth 32 : U32).toNat ≤ 5 * fullBw.toNat / 4 := by
  have hgain : bbrFullBwThresh.toNat = 320 := by decide
  have hbw := fullBw.isLt
  have hmul : (fullBw.setWidth 64 * bbrFullBwThresh).toNat = fullBw.toNat * 320 := by
    rw [BitVec.toNat_mul_of_lt, toNat_setWidth64, hgain]
    rw [toNat_setWidth64, hgain]
    omega
  have hshift : ((fullBw.setWidth 64 * bbrFullBwThresh) >>> bbrScale).toNat = fullBw.toNat * 320 / 2 ^ 8 := by
    rw [BitVec.toNat_ushiftRight, hmul, Nat.shiftRight_eq_div_pow, bbrScale]
  rw [BitVec.toNat_setWidth, hshift]
  refine (Nat.mod_le _ _).trans ?_
  omega

/-- **One evaluation.** It remembers a bandwidth that has grown, or counts a low one; the third of these sets the
flag. -/
theorem bbrCheckFullBwReached_pipe (s : BbrSock M) (rs : RateSample) :
    (¬ Evaluates s rs ∧ (bbrCheckFullBwReached k s rs).pipe = s.pipe) ∨
      (Evaluates s rs ∧ (bbrCheckFullBwReached k s rs).pipe = ⟨bbrMaxBw k s, 0, false⟩) ∨
      (Evaluates s rs ∧ Low s.ca.fullBw (bbrMaxBw k s) ∧ (bbrCheckFullBwReached k s rs).pipe =
        ⟨s.ca.fullBw, s.ca.fullBwCnt + 1, decide (bbrFullBwCnt ≤ (s.ca.fullBwCnt + 1).setWidth 32)⟩) := by
  unfold bbrCheckFullBwReached
  split
  · rename_i hskip
    refine .inl ⟨fun ⟨hopen, hround, hlimited⟩ => ?_, rfl⟩
    simp [hopen, hround, hlimited] at hskip
  · rename_i hgo
    simp only [not_or, Bool.not_eq_true, Bool.not_eq_false] at hgo
    right
    simp only
    split
    · refine .inl ⟨hgo, ?_⟩
      simp only [BbrSock.pipe, hgo.1]
    · rename_i hlow
      refine .inr ⟨hgo, ?_, rfl⟩
      rw [BitVec.le_def, Nat.not_le] at hlow
      exact lt_of_lt_of_le hlow (bwThresh_le s.ca.fullBw)

/-- The third low round sets the flag. -/
theorem fullBwCnt_add (cnt : BitVec 2) (h : cnt.toNat ≤ 2) :
    (cnt + 1).toNat = cnt.toNat + 1 ∧ (bbrFullBwCnt ≤ (cnt + 1).setWidth 32 ↔ cnt.toNat = 2) := by
  obtain ⟨hadd, hwide⟩ := toNat_succ (x := cnt) (by decide) (by omega)
  have hthree : bbrFullBwCnt.toNat = 3 := rfl
  refine ⟨hadd, ?_⟩
  rw [BitVec.le_def, hwide, hthree]
  omega

/-! ## Runs -/

/-- The flag is set after three low rounds. -/
def FullAfterThree (notes : List BwNote) : Prop :=
  ∃ f m₁ m₂ m₃ f₀ rest,
    notes = .evaluation m₁ f :: .evaluation m₂ f :: .evaluation m₃ f :: .evaluation f f₀ :: rest ∧
      Low f m₁ ∧ Low f m₂ ∧ Low f m₃

theorem LowRounds.three {f : U32} {low : List U32} {notes : List BwNote} (h : LowRounds f low notes)
    (hlen : low.length = 3) : FullAfterThree notes := by
  obtain ⟨hall, f₀, rest, hnotes⟩ := h
  match low, hlen with
  | [m₁, m₂, m₃], _ => exact ⟨f, m₁, m₂, m₃, f₀, rest, hnotes, hall m₁ (by simp), hall m₂ (by simp), hall m₃ (by simp)⟩

/-- An ACK. -/
theorem bbrMain_counted {notes : List BwNote} {s : BbrSock M} (h : Counted notes s.pipe) (rs : RateSample) (clk : Clock)
    (rands : Rands) :
    let notes' := noteBw k notes (s, .call (.main rs clk rands), bbrMain k s rs clk rands)
    Counted notes' (bbrMain k s rs clk rands).pipe ∧
      (s.ca.fullBwReached = false → (bbrMain k s rs clk rands).ca.fullBwReached = true → FullAfterThree notes') := by
  have hpipe : (bbrMain k s rs clk rands).pipe = _ := bbrMain_pipe s rs clk rands
  have hsame := bbrAtFullBw_pipe (k := k) s rs rands.sampling
  have hreached : (bbrMain k s rs clk rands).ca.fullBwReached = (bbrMain k s rs clk rands).pipe.fullBwReached := rfl
  simp only [noteBw, hreached, hpipe]
  generalize bbrAtFullBw k s rs rands.sampling = s₁ at hsame ⊢
  have hstart : s.ca.fullBwReached = s₁.ca.fullBwReached := (congrArg Pipe.fullBwReached hsame).symm
  rw [← hsame] at h
  rw [hstart]
  rcases bbrCheckFullBwReached_pipe (k := k) s₁ rs with ⟨hskip, heq⟩ | ⟨heval, heq⟩ | ⟨heval, hlow, heq⟩
  · rw [if_neg hskip, heq]
    refine ⟨h, fun hopen hfull => ?_⟩
    have hfull' : s₁.ca.fullBwReached = true := hfull
    rw [hopen] at hfull'
    cases hfull'
  · rw [if_pos heval, heq]
    exact ⟨counted_grown notes _ _ false, fun _ hfull => by cases hfull⟩
  · rw [if_pos heval, heq]
    obtain ⟨hcnt, low, hrounds, hlen⟩ := h.low heval.1 hlow
    obtain ⟨hadd, hthird⟩ := fullBwCnt_add s₁.ca.fullBwCnt hcnt
    refine ⟨fun hopen => ?_, fun _ hfull => ?_⟩
    · rw [decide_eq_false_iff_not, hthird] at hopen
      have hcnt' : s₁.ca.fullBwCnt.toNat ≤ 2 := hcnt
      simp only
      rw [hadd]
      exact ⟨by omega, .inr ⟨low, hrounds, hlen⟩⟩
    · rw [decide_eq_true_eq, hthird] at hfull
      have hlen' : low.length = s₁.ca.fullBwCnt.toNat + 1 := hlen
      rw [hfull] at hlen'
      exact hrounds.three hlen'

/-- **One action.** -/
theorem acts_counted {notes : List BwNote} {s s' : BbrSock M} {a : Action} (h : Counted notes s.pipe)
    (ha : Acts k s a s') : Counted (noteBw k notes (s, a, s')) s'.pipe ∧
      (s.ca.fullBwReached = false → s'.ca.fullBwReached = true → FullAfterThree (noteBw k notes (s, a, s'))) := by
  -- without an evaluation the flag is not set
  have hquiet (hflag : s'.pipe.fullBwReached = s.pipe.fullBwReached) (n : List BwNote) :
      s.ca.fullBwReached = false → s'.ca.fullBwReached = true → FullAfterThree n := by
    intro hopen hfull
    have hfull' : s.ca.fullBwReached = true := hflag.symm.trans hfull
    rw [hopen] at hfull'
    cases hfull'
  unfold Acts at ha
  subst ha
  cases a with
  | init now => exact ⟨counted_reset (fun _ => Nat.zero_le 2) rfl, fun _ hfull => by cases hfull⟩
  | kernel tp => exact ⟨h, hquiet rfl _⟩
  | call c =>
    cases c with
    | main rs clk rands => exact bbrMain_counted h rs clk rands
    | cwndEvent event check restart rand =>
      have hpipe : (bbrCwndEvent k s event check restart rand).pipe = s.pipe := by
        rcases bbrCwndEvent_gauges (k := k) s event check restart rand with heq | heq
        · exact congrArg Prod.fst heq
        · exact congrArg Prod.fst heq
      refine ⟨?_, hquiet (congrArg Pipe.fullBwReached hpipe) _⟩
      show Counted notes (bbrCwndEvent k s event check restart rand).pipe
      rw [hpipe]
      exact h
    | ssthresh =>
      have hpipe : (bbrSsthresh s).1.pipe = s.pipe := pipe_of_gauges (bbrSaveCwnd_gauges s)
      refine ⟨?_, hquiet (congrArg Pipe.fullBwReached hpipe) _⟩
      show Counted notes (bbrSsthresh s).1.pipe
      rw [hpipe]
      exact h
    | undoCwnd => exact ⟨counted_reset (fun _ => Nat.zero_le 2) rfl, hquiet rfl _⟩
    | setState newState rand =>
      have hpipe : (bbrSetState k s newState rand).pipe = _ :=
        congrArg Prod.fst (bbrSetState_gauges (k := k) s newState rand)
      show Counted (if newState = tcpCaLoss then _ else notes) (bbrSetState k s newState rand).pipe ∧ _
      by_cases hloss : newState = tcpCaLoss
      · rw [if_pos hloss] at hpipe ⊢
        have hflag := congrArg Pipe.fullBwReached hpipe
        rw [hpipe]
        exact ⟨counted_reset (fun hopen => (h hopen).1) rfl, hquiet hflag _⟩
      · rw [if_neg hloss] at hpipe ⊢
        rw [hpipe]
        exact ⟨h, hquiet (congrArg Pipe.fullBwReached hpipe) _⟩

/-- **BBR declares the pipe full only after three rounds without growth.** Whenever an action of a run from `bbr_init`
sets the flag, the last three evaluations found a bandwidth below `5/4` of one and the same `full_bw`; the evaluation
before them found that bandwidth itself, and the detection was not reset since. -/
theorem full_after_three_rounds {s₀ s s' : BbrSock M} {now : ℕ} {a : Action} {tr : List (Transition (BbrSock M) Action)}
    (hrun : Trace (Acts k) (bbrInit k s₀ now) tr s) (hstep : Acts k s a s') (hopen : s.ca.fullBwReached = false)
    (hfull : s'.ca.fullBwReached = true) : FullAfterThree (history (noteBw k) [] (tr ++ [(s, a, s')])) := by
  have hinit : Counted [] (bbrInit k s₀ now).pipe := counted_reset (fun _ => Nat.zero_le 2) rfl
  have hcounted := hrun.history_invariant (J := fun n s => Counted n s.pipe) (fun _ _ _ _ h ha => (acts_counted h ha).1)
    [] hinit
  rw [history, List.foldl_append]
  exact (acts_counted hcounted hstep).2 hopen hfull

/-- Four rounds with the same bandwidth: the fourth sets the flag. -/
theorem full_after_three_rounds_equal :
    ∃ tr s a s', Trace (Acts plainKernel) (bbrInit plainKernel (plainSock 10 100) 1000) tr s ∧ Acts plainKernel s a s' ∧
      s.ca.fullBwReached = false ∧ s'.ca.fullBwReached = true ∧
      FullAfterThree (history (noteBw plainKernel) [] (tr ++ [(s, a, s')])) := by
  obtain ⟨ack, hack⟩ : ∃ a : Action, a = .call (.main ⟨20, 10, 1000, 1000, 0, 10, 10, false, false⟩
      ⟨1001, 1001, 1001, 1001, 1001⟩ ⟨0, 0, 0⟩) := ⟨_, rfl⟩
  have hrun : (transitions (fun s (a : Action) => some (a.run plainKernel s))
    (bbrInit plainKernel (plainSock 10 100) 1000)
      (List.replicate 3 ack)).map (fun p => (p.2.ca.fullBwReached, (ack.run plainKernel p.2).ca.fullBwReached)) =
        some (false, true) := by
    rw [hack]
    decide +kernel
  obtain ⟨⟨tr, s⟩, htr, hends⟩ := Option.map_eq_some_iff.mp hrun
  obtain ⟨hopen, hfull⟩ := Prod.mk.inj hends
  have htrace : Trace (Acts plainKernel) (bbrInit plainKernel (plainSock 10 100) 1000) tr s :=
    (Trace.of_transitions htr).mono fun _ _ _ h => Option.some.inj h
  exact ⟨tr, s, ack, ack.run plainKernel s, htrace, rfl, hopen, hfull,
    full_after_three_rounds htrace rfl hopen hfull⟩

end Runs

end CoupledCC.Bbr
