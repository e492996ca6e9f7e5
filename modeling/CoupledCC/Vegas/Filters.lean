import CoupledCC.Vegas.Samples

/-!
# The two minima of Vegas

`tcp_vegas_pkts_acked` filters the round-trip times twice: `baseRTT` over the time since the connection began or began
again after it was idle, `minRTT` over the time since the last adjustment. An observer keeps the samples of both times
(`noteSamples`).

- `filtered_step`: one event on the two minima and the counter;
- `rtts_are_minima`: so in every run the formula is computed from the least samples of the two times.
-/

namespace CoupledCC.Vegas

open Word Runs

/-- The accepted samples, the latest first: since `baseRTT` was last reset, and since `minRTT` was. -/
structure Samples where
  all : List ℕ
  round : List ℕ
deriving Repr, DecidableEq

/-- A sample of `rtt` is taken as `rtt + 1`. -/
def Samples.take (samples : Samples) (rtt : ℕ) : Samples :=
  ⟨(rtt + 1) :: samples.all, (rtt + 1) :: samples.round⟩

/-- The next adjustment starts with no sample. -/
def Samples.next (samples : Samples) : Samples :=
  { samples with round := [] }

def noteSamples (samples : Samples) : Transition VegasSock Event → Samples
  | (_, .kernel _, _) => samples
  | (_, .pktsAcked rttUs, _) => if rttUs.toInt < 0 then samples else samples.take rttUs.toNat
  | (_, .state caState, _) => if caState = tcpCaOpen then samples.next else samples
  | (_, .cwndEvent event, _) => if event = .cwndRestart ∨ event = .txStart then ⟨[], []⟩ else samples
  | (s, .congAvoid ack _, _) => if Adjusts s ack then samples.next else samples

/-- The least of some samples, at most the infinite one. -/
def leastRtt (rtts : List ℕ) : ℕ :=
  rtts.foldr min 0x7fffffff

@[simp] theorem leastRtt_nil : leastRtt [] = 0x7fffffff := rfl

@[simp] theorem leastRtt_cons (rtt : ℕ) (rtts : List ℕ) : leastRtt (rtt :: rtts) = min rtt (leastRtt rtts) := rfl

/-- **The private area holds the minima** of the two lists, and the number of samples of the second one. -/
structure Filtered (samples : Samples) (s : VegasSock) : Prop where
  base : s.ca.baseRTT.toNat = leastRtt samples.all
  min : s.ca.minRTT.toNat = leastRtt samples.round
  cnt : s.ca.cntRTT = BitVec.ofNat 16 samples.round.length

theorem tcpVegasInit_filtered (s : VegasSock) : Filtered ⟨[], []⟩ (tcpVegasInit s) :=
  ⟨rfl, rfl, rfl⟩

/-- Only the minima and the counter matter. -/
theorem Filtered.congr {samples : Samples} {s s' : VegasSock} (h : Filtered samples s)
    (hbase : s'.ca.baseRTT = s.ca.baseRTT) (hmin : s'.ca.minRTT = s.ca.minRTT) (hcnt : s'.ca.cntRTT = s.ca.cntRTT) :
    Filtered samples s' :=
  ⟨by rw [hbase]; exact h.base, by rw [hmin]; exact h.min, by rw [hcnt]; exact h.cnt⟩

/-- A cleared counter with an infinite minimum. -/
theorem Filtered.next {samples : Samples} {s s' : VegasSock} (h : Filtered samples s)
    (hbase : s'.ca.baseRTT = s.ca.baseRTT) (hmin : s'.ca.minRTT = rttInfinite) (hcnt : s'.ca.cntRTT = 0) :
    Filtered samples.next s' :=
  ⟨by rw [hbase]; exact h.base, by rw [hmin]; rfl, by rw [hcnt]; rfl⟩

/-- **An accepted sample.** -/
theorem Filtered.take {samples : Samples} {s : VegasSock} (h : Filtered samples s) {rttUs : U32}
    (hsign : ¬ rttUs.toInt < 0) : Filtered (samples.take rttUs.toNat) (tcpVegasPktsAcked s rttUs) := by
  have hlt := toNat_lt_of_not_neg hsign
  have hvrtt : (rttUs + 1).toNat = rttUs.toNat + 1 := BitVec.toNat_add_of_lt (by simp; omega)
  rw [tcpVegasPktsAcked, if_neg hsign]
  refine ⟨?_, ?_, ?_⟩
  · have humin : (if rttUs + 1 < s.ca.baseRTT then rttUs + 1 else s.ca.baseRTT) = umin (rttUs + 1) s.ca.baseRTT := rfl
    simp only [humin, toNat_umin, hvrtt, h.base]
    rfl
  · simp only [toNat_umin, hvrtt, h.min]
    exact min_comm _ _
  · simp only [h.cnt]
    rw [Samples.take, List.length_cons, BitVec.ofNat_add]
    rfl

/-- **One event** on the filters. -/
theorem filtered_step (samples : Samples) (s : VegasSock) (e : Event) (s' : VegasSock) (h : Filtered samples s)
    (hstep : Step s e s') : Filtered (noteSamples samples (s, e, s')) s' := by
  unfold Step at hstep
  cases e with
  | kernel tp =>
    cases hstep
    exact h.congr rfl rfl rfl
  | pktsAcked rttUs =>
    cases hstep
    simp only [noteSamples]
    split
    · rename_i hsign
      rw [tcpVegasPktsAcked, if_pos hsign]
      exact h
    · rename_i hsign
      exact h.take hsign
  | state caState =>
    cases hstep
    simp only [noteSamples, tcpVegasState]
    split
    · exact h.next rfl rfl rfl
    · exact h.congr rfl rfl rfl
  | cwndEvent event =>
    cases hstep
    simp only [noteSamples, tcpVegasCwndEvent]
    split
    · exact tcpVegasInit_filtered s
    · exact h
  | congAvoid ack acked =>
    have hcall : tcpVegasCongAvoid s ack acked = some s' := hstep
    have hca := tcpVegasCongAvoid_ca hcall
    simp only [noteSamples]
    split
    · rename_i hadjusts
      rw [tcpVegasCongAvoid_adjusts hadjusts] at hcall
      obtain ⟨tp, -, rfl⟩ := Option.map_eq_some_iff.mp hcall
      exact h.next rfl rfl rfl
    · rename_i hadjusts
      rw [if_neg hadjusts] at hca
      exact h.congr (by rw [hca]) (by rw [hca]) (by rw [hca])

/-- The formula is used from three samples on, as long as the counter does not wrap. -/
theorem Filtered.usesFormula_iff {samples : Samples} {s : VegasSock} (h : Filtered samples s)
    (hfew : samples.round.length < 2 ^ 16) {ack : U32} (hadjusts : Adjusts s ack) :
    UsesFormula s ack ↔ 3 ≤ samples.round.length := by
  have hcounted : Counted samples.round.length s := h.cnt
  rw [hcounted.formula hadjusts, Nat.mod_eq_of_lt hfew]

/-- **What the formula is computed from.** In every state of a run from `tcp_vegas_init`, `baseRTT` is the least sample
accepted since the connection began or was restarted, and `minRTT` the least one since Vegas was enabled or last
adjusted the window. With fewer than `2^16` of the latter, an ACK that adjusts the window uses the formula exactly from
three of them on. -/
theorem rtts_are_minima {s₀ s : VegasSock} {tr : List (Transition VegasSock Event)}
    (hrun : Trace Step (tcpVegasInit s₀) tr s) :
    s.ca.baseRTT.toNat = leastRtt (history noteSamples ⟨[], []⟩ tr).all ∧
      s.ca.minRTT.toNat = leastRtt (history noteSamples ⟨[], []⟩ tr).round ∧
      ((history noteSamples ⟨[], []⟩ tr).round.length < 2 ^ 16 → ∀ ack, Adjusts s ack →
        (UsesFormula s ack ↔ 3 ≤ (history noteSamples ⟨[], []⟩ tr).round.length)) := by
  have hfiltered : Filtered (history noteSamples ⟨[], []⟩ tr) s :=
    hrun.history_invariant filtered_step _ (tcpVegasInit_filtered s₀)
  exact ⟨hfiltered.base, hfiltered.min, fun hfew _ hadjusts => hfiltered.usesFormula_iff hfew hadjusts⟩

/-- Samples of 3 ms and 2 ms before an adjustment, and one of 5 ms after it. -/
theorem rtts_are_minima_three :
    ∃ tr s, Trace Step (tcpVegasInit freshSock) tr s ∧ s.ca.baseRTT.toNat = 2001 ∧ s.ca.minRTT.toNat = 5001 := by
  have hrun : (transitions (fun s (e : Event) => e.run s) (tcpVegasInit freshSock)
      [.pktsAcked 3000, .pktsAcked 2000, .congAvoid 1 1, .pktsAcked 5000]).map
        (fun p => history noteSamples ⟨[], []⟩ p.1) = some ⟨[5001, 2001, 3001], [5001]⟩ := by decide
  obtain ⟨⟨tr, s⟩, htr, hsamples⟩ := Option.map_eq_some_iff.mp hrun
  have htrace : Trace Step (tcpVegasInit freshSock) tr s := Trace.of_transitions htr
  obtain ⟨hbase, hmin, -⟩ := rtts_are_minima htrace
  have hkept : history noteSamples ⟨[], []⟩ tr = ⟨[5001, 2001, 3001], [5001]⟩ := hsamples
  refine ⟨tr, s, htrace, ?_, ?_⟩
  · rw [hbase, hkept]
    decide
  · rw [hmin, hkept]
    decide

end CoupledCC.Vegas
