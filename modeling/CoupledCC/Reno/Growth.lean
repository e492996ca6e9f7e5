import CoupledCC.Lib.Trace
import CoupledCC.Reno.CongAvoid

/-!
# Reno's growth is paid for by ACKs

Calls of `tcp_reno_cong_avoid` one after another, with a kernel that sets the threshold, the clamp and what it knows
about the connection anew before each call. The window and its credits together are a potential: slow start turns ACKed
packets into window, the additive increase turns credits into window, and every packet costs at least one of either.

- `tcpRenoCongAvoid_spec`: one call, when none of the sums it evaluates wraps (`RenoFits`);
- `reno_growth`: any number of calls.
-/

namespace CoupledCC

open Word Runs

/-- The 32-bit sums of `tcp_cong_avoid_ai` do not wrap. -/
def AiFits (tp : TcpSock) (w acked : U32) : Prop :=
  (Credit.settle w.toNat tp.credit).cnt + acked.toNat < 2 ^ 32 ∧
    (Credit.increase w.toNat acked.toNat tp.credit).win < 2 ^ 32

instance (tp : TcpSock) (w acked : U32) : Decidable (AiFits tp w acked) := by
  unfold AiFits
  infer_instance

/-- The 32-bit sums a call of `tcp_reno_cong_avoid` evaluates do not wrap. -/
def RenoFits (tp : TcpSock) (acked : U32) : Prop :=
  tcpIsCwndLimited tp = true →
    if tcpInSlowStart tp then tp.sndCwnd.toNat + acked.toNat < 2 ^ 32 ∧ ((tcpSlowStart tp acked).2 ≠ 0 →
      AiFits (tcpSlowStart tp acked).1 (tcpSlowStart tp acked).1.sndCwnd (tcpSlowStart tp acked).2)
    else AiFits tp tp.sndCwnd acked

instance (tp : TcpSock) (acked : U32) : Decidable (RenoFits tp acked) := by
  unfold RenoFits
  infer_instance

/-! ## One call -/

/-- What a call does to the window: it pays for its growth, and it shrinks no further than to the clamp. -/
structure Paid (tp : TcpSock) (acked cwnd cnt : ℕ) : Prop where
  pays : cwnd + cnt ≤ tp.sndCwnd.toNat + tp.sndCwndCnt.toNat + acked
  low : min tp.sndCwnd.toNat tp.sndCwndClamp.toNat ≤ cwnd
  high : cwnd = tp.sndCwnd.toNat ∨ cwnd ≤ tp.sndCwndClamp.toNat

/-- The additive increase at the price of the window. -/
theorem tcpCongAvoidAi_paid (tp : TcpSock) {acked : U32} (hpos : 1 ≤ tp.sndCwnd.toNat)
    (hfit : AiFits tp tp.sndCwnd acked) :
    ∃ cwnd cnt, tcpCongAvoidAi tp tp.sndCwnd acked = some (tp.withWindow cwnd cnt) ∧
      Paid tp acked.toNat cwnd.toNat cnt.toNat := by
  obtain ⟨cwnd, cnt, hrun, hcredit⟩ := tcpCongAvoidAi_spec tp hpos hfit.1 hfit.2
  have hbound := Credit.increase_bound (k := 1) hpos acked.toNat tp.credit
  have hgrow := Credit.le_increase_win tp.sndCwnd.toNat acked.toNat tp.credit
  simp only [Credit.cap, Credit.mk.injEq] at hcredit
  simp only [TcpSock.credit, Nat.one_mul] at hbound hgrow hcredit
  exact ⟨cwnd, cnt, hrun, by omega, by omega, by omega⟩

/-- Slow start passes on what it does not spend. -/
theorem tcpSlowStart_paid {tp : TcpSock} (acked : U32) (hslow : tcpInSlowStart tp = true)
    (hfit : tp.sndCwnd.toNat + acked.toNat < 2 ^ 32) :
    ∃ cwnd left, tcpSlowStart tp acked = (tp.withWindow cwnd tp.sndCwndCnt, left) ∧
      cwnd.toNat + left.toNat ≤ tp.sndCwnd.toNat + acked.toNat ∧
      min tp.sndCwnd.toNat tp.sndCwndClamp.toNat ≤ cwnd.toNat ∧ cwnd.toNat ≤ tp.sndCwndClamp.toNat := by
  rw [tcpInSlowStart_iff] at hslow
  obtain ⟨hcwnd, hleft⟩ := tcpSlowStart_toNat hfit
  exact ⟨(tcpSlowStart tp acked).1.sndCwnd, (tcpSlowStart tp acked).2, rfl, by omega, by omega, by omega⟩

/-- **One call.** On a window and a clamp of at least 1, and without a sum that wraps, the call returns; it changes only
the window and its credits, and pays for what it adds. -/
theorem tcpRenoCongAvoid_spec (tp : TcpSock) {acked : U32} (hpos : 1 ≤ tp.sndCwnd.toNat)
    (hclamp : 1 ≤ tp.sndCwndClamp.toNat) (hfit : RenoFits tp acked) :
    ∃ cwnd cnt, tcpRenoCongAvoid tp acked = some (tp.withWindow cwnd cnt) ∧
      Paid tp acked.toNat cwnd.toNat cnt.toNat := by
  unfold tcpRenoCongAvoid
  by_cases hlimited : tcpIsCwndLimited tp = true
  · have hsums := hfit hlimited
    rw [hlimited, Bool.not_true, if_neg Bool.false_ne_true]
    by_cases hslow : tcpInSlowStart tp = true
    · rw [if_pos hslow] at hsums
      obtain ⟨hsum, hrest⟩ := hsums
      obtain ⟨cwnd₁, left, hstart, hpaid, hlow, hhigh⟩ := tcpSlowStart_paid acked hslow hsum
      rw [hstart] at hrest
      rw [if_pos hslow, hstart]
      by_cases hzero : left = 0
      · refine ⟨cwnd₁, tp.sndCwndCnt, by simp [hzero], ?_, hlow, by omega⟩
        omega
      · -- what is left is spent at the price of the new window
        obtain ⟨cwnd, cnt, hai, hpays⟩ := tcpCongAvoidAi_paid (tp.withWindow cwnd₁ tp.sndCwndCnt)
          (by simp only [withWindow_sndCwnd]; omega) (hrest hzero)
        have h₁ := hpays.pays
        have h₂ := hpays.low
        have h₃ := hpays.high
        simp only [withWindow_sndCwnd, withWindow_sndCwndCnt, withWindow_sndCwndClamp] at h₁ h₂ h₃
        refine ⟨cwnd, cnt, (if_neg hzero).trans hai, by omega, by omega, by omega⟩
    · rw [if_neg hslow] at hsums
      rw [if_neg hslow]
      exact tcpCongAvoidAi_paid tp hpos hsums
  · rw [Bool.not_eq_true] at hlimited
    refine ⟨tp.sndCwnd, tp.sndCwndCnt, by rw [hlimited]; rfl, by omega, by omega, by omega⟩

/-- No sum wraps when the window, its credits and the ACKed packets fit together. -/
theorem renoFits_of_sum {tp : TcpSock} {acked : U32} (hpos : 1 ≤ tp.sndCwnd.toNat)
    (hclamp : 1 ≤ tp.sndCwndClamp.toNat)
    (hsum : tp.sndCwnd.toNat + tp.sndCwndCnt.toNat + acked.toNat < 2 ^ 32) : RenoFits tp acked := by
  intro _
  split
  · rename_i hslow
    obtain ⟨cwnd, left, hstart, hpaid, hlow, -⟩ := tcpSlowStart_paid acked hslow (by omega)
    rw [hstart]
    refine ⟨by omega, fun _ => ?_⟩
    exact increase_fits (by simp only [withWindow_sndCwnd]; omega)
      (by simp only [withWindow_sndCwnd, withWindow_sndCwndCnt]; omega)
  · exact increase_fits hpos hsum

/-! ## Any number of calls -/

/-- A call, with what the kernel sets before it. -/
structure RenoCall where
  acked : U32
  sndSsthresh : U32
  maxPacketsOut : U32
  isCwndLimited : Bool
  sndCwndClamp : U32
  clamp_pos : 1 ≤ sndCwndClamp.toNat

/-- The socket when the call is made. -/
def RenoCall.arrive (c : RenoCall) (tp : TcpSock) : TcpSock :=
  { tp with
    sndSsthresh := c.sndSsthresh
    maxPacketsOut := c.maxPacketsOut
    isCwndLimited := c.isCwndLimited
    sndCwndClamp := c.sndCwndClamp }

/-- The window, its credits and the ACKed packets fit together in 32 bits. -/
def RenoCall.Fits (c : RenoCall) (tp : TcpSock) : Prop :=
  tp.sndCwnd.toNat + tp.sndCwndCnt.toNat + c.acked.toNat < 2 ^ 32

/-- One call of a run. -/
def RenoStep (tp : TcpSock) (c : RenoCall) (tp' : TcpSock) : Prop :=
  c.Fits tp ∧ tcpRenoCongAvoid (c.arrive tp) c.acked = some tp'

/-- A call that fits returns, and leaves the window at least 1. -/
theorem renoCall_paid {tp : TcpSock} (c : RenoCall) (hpos : 1 ≤ tp.sndCwnd.toNat) (hfit : c.Fits tp) :
    ∃ tp', tcpRenoCongAvoid (c.arrive tp) c.acked = some tp' ∧ 1 ≤ tp'.sndCwnd.toNat ∧
      Paid (c.arrive tp) c.acked.toNat tp'.sndCwnd.toNat tp'.sndCwndCnt.toNat := by
  obtain ⟨cwnd, cnt, hrun, hpaid⟩ := tcpRenoCongAvoid_spec (c.arrive tp) hpos c.clamp_pos
    (renoFits_of_sum hpos c.clamp_pos hfit)
  have hlow : min tp.sndCwnd.toNat c.sndCwndClamp.toNat ≤ cwnd.toNat := hpaid.low
  have hclamp := c.clamp_pos
  exact ⟨_, hrun, by simp only [withWindow_sndCwnd]; omega, hpaid⟩

/-- **One step of a run.** It keeps the window at least 1, pays for its growth, and drops the window to the clamp
only. -/
theorem renoStep_paid {tp tp' : TcpSock} {c : RenoCall} (hpos : 1 ≤ tp.sndCwnd.toNat) (h : RenoStep tp c tp') :
    1 ≤ tp'.sndCwnd.toNat ∧
      tp'.sndCwnd.toNat + tp'.sndCwndCnt.toNat ≤ tp.sndCwnd.toNat + tp.sndCwndCnt.toNat + c.acked.toNat ∧
      (tp'.sndCwnd.toNat < tp.sndCwnd.toNat → tp'.sndCwnd = c.sndCwndClamp) := by
  obtain ⟨hfit, hrun⟩ := h
  obtain ⟨tp₁, hrun₁, hpos₁, hpaid⟩ := renoCall_paid c hpos hfit
  rw [hrun, Option.some.injEq] at hrun₁
  subst hrun₁
  have hpays : tp'.sndCwnd.toNat + tp'.sndCwndCnt.toNat ≤ tp.sndCwnd.toNat + tp.sndCwndCnt.toNat + c.acked.toNat :=
    hpaid.pays
  refine ⟨hpos₁, hpays, fun hdrop => BitVec.eq_of_toNat_eq ?_⟩
  have hlow : min tp.sndCwnd.toNat c.sndCwndClamp.toNat ≤ tp'.sndCwnd.toNat := hpaid.low
  have hhigh : tp'.sndCwnd.toNat = tp.sndCwnd.toNat ∨ tp'.sndCwnd.toNat ≤ c.sndCwndClamp.toNat := hpaid.high
  omega

/-- The packets the calls of a run acknowledge. -/
def totalAcked (tr : List (Transition TcpSock RenoCall)) : ℕ :=
  (tr.map fun t => t.2.1.acked.toNat).sum

/-- **Reno's growth.** From a window of at least 1, after any calls that fit: the window and its credits have grown by
at most what was acknowledged, no further call that fits divides by zero, and the window has dropped to a clamp only. -/
theorem reno_growth {tp tp' : TcpSock} {tr : List (Transition TcpSock RenoCall)} (hpos : 1 ≤ tp.sndCwnd.toNat)
    (hrun : Trace RenoStep tp tr tp') :
    tp'.sndCwnd.toNat + tp'.sndCwndCnt.toNat ≤ tp.sndCwnd.toNat + tp.sndCwndCnt.toNat + totalAcked tr ∧
      (∀ c : RenoCall, c.Fits tp' → ∃ tp'', tcpRenoCongAvoid (c.arrive tp') c.acked = some tp'') ∧
      ∀ t ∈ tr, t.2.2.sndCwnd.toNat < t.1.sndCwnd.toNat → t.2.2.sndCwnd = t.2.1.sndCwndClamp := by
  induction hrun with
  | nil tp =>
    refine ⟨by simp [totalAcked], fun c hfit => ?_, by simp⟩
    obtain ⟨tp', hcall, -⟩ := renoCall_paid c hpos hfit
    exact ⟨tp', hcall⟩
  | cons hstep _ ih =>
    obtain ⟨hpos₁, hpays, hdrop⟩ := renoStep_paid hpos hstep
    obtain ⟨hrest, htotal, hdrops⟩ := ih hpos₁
    refine ⟨?_, htotal, ?_⟩
    · simp only [totalAcked, List.map_cons, List.sum_cons] at hrest ⊢
      omega
    · intro t ht
      rcases List.mem_cons.mp ht with rfl | ht
      · exact hdrop
      · exact hdrops t ht

/-- A window of 10 with 25 credits, cut to a clamp of 4; under a clamp of 100 it then buys one packet for 4 of 6 packets
ACKed. -/
theorem reno_growth_cut :
    let tp : TcpSock := ⟨10, 25, 5, 100, 0, 0, true, 0, 0, 0, 0, 0, 0⟩
    let cut : RenoCall := ⟨0, 5, 0, true, 4, by decide⟩
    let grow : RenoCall := ⟨6, 3, 0, true, 100, by decide⟩
    let tp₁ : TcpSock := { tp with sndCwnd := 4, sndCwndCnt := 0, sndCwndClamp := 4 }
    let tp₂ : TcpSock := { tp with sndCwnd := 5, sndCwndCnt := 2, sndSsthresh := 3 }
    5 + 2 ≤ 10 + 25 + 6 ∧ Trace RenoStep tp [(tp, cut, tp₁), (tp₁, grow, tp₂)] tp₂ ∧
      tp₁.sndCwnd = cut.sndCwndClamp := by
  intro tp cut grow tp₁ tp₂
  have hrun : Trace RenoStep tp [(tp, cut, tp₁), (tp₁, grow, tp₂)] tp₂ :=
    .cons ⟨by unfold RenoCall.Fits; decide, by decide⟩ (.cons ⟨by unfold RenoCall.Fits; decide, by decide⟩ (.nil _))
  obtain ⟨hpays, -, hdrop⟩ := reno_growth (by decide) hrun
  exact ⟨hpays, hrun, hdrop (tp, cut, tp₁) (by simp) (by decide)⟩

end CoupledCC
