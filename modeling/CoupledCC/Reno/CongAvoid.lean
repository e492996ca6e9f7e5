import CoupledCC.Tcp.Sock

/-!
# The Reno controller

`tcp_reno_cong_avoid` of `bpf_reno` (and, word for word, of `bpf_vegas`), and what one call does to the window and its
credits when no 32-bit sum wraps:

- `tcpRenoCongAvoid_ticks`: an ACK of `n` packets, `n` at most the window, is `n` ticks of `Credit.tick`.
-/

namespace CoupledCC

open Word

def tcpRenoCongAvoid (tp : TcpSock) (acked : U32) : Option TcpSock :=
  if !tcpIsCwndLimited tp then some tp
  -- in the "safe" area, increase
  else if tcpInSlowStart tp then
    let (tp, acked) := tcpSlowStart tp acked
    if acked = 0 then some tp else tcpCongAvoidAi tp tp.sndCwnd acked
  -- in the dangerous area, increase slowly
  else tcpCongAvoidAi tp tp.sndCwnd acked

def tcpRenoSsthresh (tp : TcpSock) : U32 :=
  umax (tp.sndCwnd >>> 1) 2

/-! ## One ACK as single credits -/

/-- The window lies between 1 and the clamp, its credits do not pay for a packet yet, and slow start ends below the
clamp. -/
structure Ready (tp : TcpSock) : Prop where
  pos : 1 ≤ tp.sndCwnd.toNat
  clamp : tp.sndCwnd.toNat ≤ tp.sndCwndClamp.toNat
  cnt : tp.sndCwndCnt.toNat < tp.sndCwnd.toNat
  thresh : tp.sndSsthresh.toNat ≤ tp.sndCwndClamp.toNat ∨ tp.sndSsthresh.toNat ≤ tp.sndCwnd.toNat

/-- The 32-bit sums a call evaluates do not wrap. -/
def NoWrap (tp : TcpSock) (acked : U32) : Prop :=
  if tp.sndCwnd.toNat < tp.sndSsthresh.toNat then tp.sndCwnd.toNat + acked.toNat < 2 ^ 32
  else tp.sndCwndCnt.toNat + acked.toNat < 2 ^ 32 ∧
    tp.sndCwnd.toNat + (tp.sndCwndCnt.toNat + acked.toNat) / tp.sndCwnd.toNat < 2 ^ 32

instance (tp : TcpSock) (acked : U32) : Decidable (NoWrap tp acked) := by
  unfold NoWrap
  infer_instance

/-- Congestion avoidance with at most a window of packets is that many ticks. -/
theorem tcpCongAvoidAi_ticks {tp : TcpSock} (h : Ready tp) (acked : U32)
    (hthresh : tp.sndSsthresh.toNat ≤ tp.sndCwnd.toNat) (hacked : acked.toNat ≤ tp.sndCwnd.toNat)
    (hcnt : tp.sndCwndCnt.toNat + acked.toNat < 2 ^ 32)
    (hwin : tp.sndCwnd.toNat + (tp.sndCwndCnt.toNat + acked.toNat) / tp.sndCwnd.toNat < 2 ^ 32) :
    ∃ cwnd cnt, tcpCongAvoidAi tp tp.sndCwnd acked = some (tp.withWindow cwnd cnt) ∧
      (tp.withWindow cwnd cnt).credit =
        (Credit.tick tp.sndSsthresh.toNat tp.sndCwndClamp.toNat)^[acked.toNat] tp.credit := by
  have hsettle : Credit.settle tp.sndCwnd.toNat tp.credit = tp.credit := Credit.settle_of_lt h.cnt
  have hincrease : Credit.increase tp.sndCwnd.toNat acked.toNat tp.credit =
      Credit.earn tp.sndCwnd.toNat acked.toNat tp.credit := by rw [Credit.increase, hsettle]
  obtain ⟨cwnd, cnt, hrun, hcredit⟩ :=
    tcpCongAvoidAi_spec tp h.pos
      (by rw [hsettle]; exact hcnt) (by rw [hincrease]; exact hwin)
  refine ⟨cwnd, cnt, hrun, ?_⟩
  rw [hincrease, TcpSock.credit, ← Credit.tick_iterate hthresh h.cnt hacked h.clamp] at hcredit
  exact hcredit

/-- Slow start is ticks as well: those it spends, and then the packets left over, on a socket that is still ready. -/
theorem tcpSlowStart_ticks {tp : TcpSock} {acked : U32} (h : Ready tp)
    (hslow : tp.sndCwnd.toNat < tp.sndSsthresh.toNat) (hfit : tp.sndCwnd.toNat + acked.toNat < 2 ^ 32) :
    ∃ cwnd left, tcpSlowStart tp acked = (tp.withWindow cwnd tp.sndCwndCnt, left) ∧
      (Credit.tick tp.sndSsthresh.toNat tp.sndCwndClamp.toNat)^[acked.toNat] tp.credit =
        (Credit.tick tp.sndSsthresh.toNat tp.sndCwndClamp.toNat)^[left.toNat] ⟨cwnd.toNat, tp.sndCwndCnt.toNat⟩ ∧
      tp.sndCwnd.toNat ≤ cwnd.toNat ∧ cwnd.toNat ≤ tp.sndCwndClamp.toNat ∧
      cwnd.toNat + left.toNat ≤ tp.sndCwnd.toNat + acked.toNat ∧
      (0 < left.toNat → tp.sndSsthresh.toNat ≤ cwnd.toNat) := by
  obtain ⟨hcwnd, hleft⟩ := tcpSlowStart_toNat hfit
  have hclamp := h.clamp
  have hthresh := h.thresh
  refine ⟨(tcpSlowStart tp acked).1.sndCwnd, (tcpSlowStart tp acked).2, rfl, ?_, by omega, by omega, by omega, by omega⟩
  -- the packets spent in slow start come first, then the ones left over
  have hsplit : acked.toNat = (tcpSlowStart tp acked).2.toNat +
      ((tcpSlowStart tp acked).1.sndCwnd.toNat - tp.sndCwnd.toNat) := by omega
  have hgrow : tp.sndCwnd.toNat + ((tcpSlowStart tp acked).1.sndCwnd.toNat - tp.sndCwnd.toNat) =
      (tcpSlowStart tp acked).1.sndCwnd.toNat := by omega
  have hbelow : (Credit.tick tp.sndSsthresh.toNat tp.sndCwndClamp.toNat)^[(tcpSlowStart tp acked).1.sndCwnd.toNat -
      tp.sndCwnd.toNat] ⟨tp.sndCwnd.toNat, tp.sndCwndCnt.toNat⟩ =
        ⟨(tcpSlowStart tp acked).1.sndCwnd.toNat, tp.sndCwndCnt.toNat⟩ := by
    rw [Credit.tick_iterate_below _ _ _ (by omega), hgrow]
  calc (Credit.tick tp.sndSsthresh.toNat tp.sndCwndClamp.toNat)^[acked.toNat] tp.credit
      = (Credit.tick tp.sndSsthresh.toNat tp.sndCwndClamp.toNat)^[(tcpSlowStart tp acked).2.toNat +
          ((tcpSlowStart tp acked).1.sndCwnd.toNat - tp.sndCwnd.toNat)] tp.credit := by rw [← hsplit]
    _ = _ := by rw [Function.iterate_add_apply, TcpSock.credit, hbelow]

/-- **One ACK.** An ACK of at most a window of packets, on a connection limited by its window, is that many ticks. -/
theorem tcpRenoCongAvoid_ticks {tp : TcpSock} {acked : U32} (h : Ready tp) (hlimited : tcpIsCwndLimited tp = true)
    (hacked : acked.toNat ≤ tp.sndCwnd.toNat) (hfit : NoWrap tp acked) :
    ∃ cwnd cnt, tcpRenoCongAvoid tp acked = some (tp.withWindow cwnd cnt) ∧
      (tp.withWindow cwnd cnt).credit =
        (Credit.tick tp.sndSsthresh.toNat tp.sndCwndClamp.toNat)^[acked.toNat] tp.credit := by
  unfold NoWrap at hfit
  by_cases hslow : tp.sndCwnd.toNat < tp.sndSsthresh.toNat
  · rw [if_pos hslow] at hfit
    obtain ⟨cwnd₁, left, hstart, hticks, hge, hclamp, hle, hthresh⟩ := tcpSlowStart_ticks h hslow hfit
    have hrun : tcpRenoCongAvoid tp acked = if left = 0 then some (tp.withWindow cwnd₁ tp.sndCwndCnt)
        else tcpCongAvoidAi (tp.withWindow cwnd₁ tp.sndCwndCnt) cwnd₁ left := by
      simp [tcpRenoCongAvoid, hlimited, (tcpInSlowStart_iff tp).mpr hslow, hstart]
    rw [hrun, hticks]
    by_cases hzero : left = 0
    · rw [if_pos hzero]
      exact ⟨cwnd₁, tp.sndCwndCnt, rfl, by rw [hzero]; rfl⟩
    · have hpos : 0 < left.toNat := BitVec.toNat_pos_of_ne_zero hzero
      have hpos₀ := h.pos
      have hcnt := h.cnt
      have hready : Ready (tp.withWindow cwnd₁ tp.sndCwndCnt) :=
        ⟨by simp only [withWindow_sndCwnd]; omega, hclamp, lt_of_lt_of_le hcnt hge, Or.inr (hthresh hpos)⟩
      have hone : (tp.sndCwndCnt.toNat + left.toNat) / cwnd₁.toNat ≤ 1 :=
        Nat.le_of_lt_succ ((Nat.div_lt_iff_lt_mul (by omega)).mpr (by omega))
      obtain ⟨cwnd, cnt, hai, hcredit⟩ := tcpCongAvoidAi_ticks hready left (hthresh hpos)
        (by simp only [withWindow_sndCwnd]; omega) (by simp only [withWindow_sndCwndCnt]; omega)
        (by simp only [withWindow_sndCwnd, withWindow_sndCwndCnt]; omega)
      rw [if_neg hzero]
      exact ⟨cwnd, cnt, hai, hcredit⟩
  · rw [if_neg hslow] at hfit
    obtain ⟨hcnt, hwin⟩ := hfit
    have hrun : tcpRenoCongAvoid tp acked = tcpCongAvoidAi tp tp.sndCwnd acked := by
      have hnot : tcpInSlowStart tp = false := by
        rw [← Bool.not_eq_true, tcpInSlowStart_iff]; exact hslow
      simp [tcpRenoCongAvoid, hlimited, hnot]
    rw [hrun]
    exact tcpCongAvoidAi_ticks h acked (by omega) hacked hcnt hwin

end CoupledCC
