import CoupledCC.Lib.Word
import CoupledCC.Lib.Credit

/-!
# The socket and the helpers the controllers share

Each BPF program carries the same copy of the kernel's helpers (`tcp_slow_start`, `tcp_cong_avoid_ai`, …); they are
modelled once. Windows and counters are 32-bit words.

- `tcpSlowStart_toNat`, `tcpCongAvoidAi_spec`: what the helpers compute when no 32-bit sum wraps; the additive
  increase is `Credit.increase` followed by the cut at `snd_cwnd_clamp`.
-/

namespace CoupledCC

open Word

/-- The fields of `struct tcp_sock` (and of the socket around it) the controllers read or write. -/
structure TcpSock where
  sndCwnd : U32
  sndCwndCnt : U32
  sndSsthresh : U32
  sndCwndClamp : U32
  priorCwnd : U32
  maxPacketsOut : U32
  isCwndLimited : Bool
  sndNxt : U32
  lsndtime : U32
  tcpMstamp : U64
  icskCaState : U8
  skPacingRate : U64
  skPacingStatus : U32
deriving Repr, DecidableEq

/-- `enum tcp_ca_event`. -/
inductive CaEvent
  | txStart
  | cwndRestart
  | completeCwr
  | loss
  | ecnNoCe
  | ecnIsCe
deriving Repr, DecidableEq

/-- A sequence number (or clock value) before another, modulo `2^32`. -/
def before (seq1 seq2 : U32) : Bool :=
  decide ((seq1 - seq2).toInt < 0)

def after (seq2 seq1 : U32) : Bool :=
  before seq1 seq2

def tcpInSlowStart (tp : TcpSock) : Bool :=
  decide (tp.sndCwnd < tp.sndSsthresh)

/-- Grow towards `snd_ssthresh`; the result carries the ACKed packets that are left. -/
def tcpSlowStart (tp : TcpSock) (acked : U32) : TcpSock × U32 :=
  let cwnd := umin (tp.sndCwnd + acked) tp.sndSsthresh
  let acked := acked - (cwnd - tp.sndCwnd)
  ({ tp with sndCwnd := umin cwnd tp.sndCwndClamp }, acked)

def tcpIsCwndLimited (tp : TcpSock) : Bool :=
  -- in slow start, cwnd may grow to twice what was ACKed
  if tcpInSlowStart tp then decide (tp.sndCwnd < 2 * tp.maxPacketsOut)
  else tp.isCwndLimited

/-- Credits accumulated at a higher `w` are applied gently: one packet. -/
def applyCredits (tp : TcpSock) (w : U32) : TcpSock :=
  if w ≤ tp.sndCwndCnt then { tp with sndCwndCnt := 0, sndCwnd := tp.sndCwnd + 1 } else tp

/-- Whole packets are bought for `w` credits each. -/
def spendCredits (tp : TcpSock) (w : U32) : Option TcpSock :=
  if w ≤ tp.sndCwndCnt then
    (checkedDiv tp.sndCwndCnt w).map fun delta =>
      { tp with sndCwndCnt := tp.sndCwndCnt - delta * w, sndCwnd := tp.sndCwnd + delta }
  else some tp

/-- Additive increase: one packet for every `w` packets ACKed. -/
def tcpCongAvoidAi (tp : TcpSock) (w acked : U32) : Option TcpSock :=
  let tp := applyCredits tp w
  (spendCredits { tp with sndCwndCnt := tp.sndCwndCnt + acked } w).map fun tp =>
    { tp with sndCwnd := umin tp.sndCwnd tp.sndCwndClamp }

def tcpRenoUndoCwnd (tp : TcpSock) : U32 :=
  umax tp.sndCwnd tp.priorCwnd

/-! ## Slow start -/

theorem tcpInSlowStart_iff (tp : TcpSock) : tcpInSlowStart tp = true ↔ tp.sndCwnd.toNat < tp.sndSsthresh.toNat := by
  simp [tcpInSlowStart, BitVec.lt_def]

/-- Slow start without wrap-around: the window after it and the packets left over. -/
theorem tcpSlowStart_toNat {tp : TcpSock} {acked : U32} (hfit : tp.sndCwnd.toNat + acked.toNat < 2 ^ 32) :
    (tcpSlowStart tp acked).1.sndCwnd.toNat =
        min (min (tp.sndCwnd.toNat + acked.toNat) tp.sndSsthresh.toNat) tp.sndCwndClamp.toNat ∧
      (tcpSlowStart tp acked).2.toNat =
        tp.sndCwnd.toNat + acked.toNat - min (tp.sndCwnd.toNat + acked.toNat) tp.sndSsthresh.toNat := by
  have hcwnd : (umin (tp.sndCwnd + acked) tp.sndSsthresh).toNat =
      min (tp.sndCwnd.toNat + acked.toNat) tp.sndSsthresh.toNat := by
    rw [toNat_umin, BitVec.toNat_add_of_lt hfit]
  refine ⟨?_, ?_⟩
  · simp only [tcpSlowStart]
    rw [toNat_umin, hcwnd]
  · simp only [tcpSlowStart]
    rw [BitVec.toNat_sub, BitVec.toNat_sub, hcwnd]
    omega

/-! ## Additive increase -/

/-- The window and its credits. -/
def TcpSock.credit (tp : TcpSock) : Credit :=
  ⟨tp.sndCwnd.toNat, tp.sndCwndCnt.toNat⟩

/-- The socket with another window and other credits. -/
def TcpSock.withWindow (tp : TcpSock) (cwnd cnt : U32) : TcpSock :=
  { tp with sndCwnd := cwnd, sndCwndCnt := cnt }

@[simp] theorem withWindow_sndCwnd (tp : TcpSock) (cwnd cnt : U32) : (tp.withWindow cwnd cnt).sndCwnd = cwnd := rfl
@[simp] theorem withWindow_sndCwndCnt (tp : TcpSock) (cwnd cnt : U32) : (tp.withWindow cwnd cnt).sndCwndCnt = cnt := rfl
@[simp] theorem withWindow_sndSsthresh (tp : TcpSock) (cwnd cnt : U32) :
    (tp.withWindow cwnd cnt).sndSsthresh = tp.sndSsthresh := rfl
@[simp] theorem withWindow_sndCwndClamp (tp : TcpSock) (cwnd cnt : U32) :
    (tp.withWindow cwnd cnt).sndCwndClamp = tp.sndCwndClamp := rfl
@[simp] theorem withWindow_withWindow (tp : TcpSock) (cwnd cnt cwnd' cnt' : U32) :
    (tp.withWindow cwnd cnt).withWindow cwnd' cnt' = tp.withWindow cwnd' cnt' := rfl

theorem applyCredits_frame (tp : TcpSock) (w : U32) :
    applyCredits tp w = tp.withWindow (applyCredits tp w).sndCwnd (applyCredits tp w).sndCwndCnt := by
  unfold applyCredits
  split <;> rfl

/-- The first step of the additive increase, on the window and its credits. -/
theorem applyCredits_credit {tp : TcpSock} {w : U32} (hwin : (Credit.settle w.toNat tp.credit).win < 2 ^ 32) :
    (applyCredits tp w).credit = Credit.settle w.toNat tp.credit := by
  unfold Credit.settle at hwin
  unfold applyCredits Credit.settle
  by_cases hle : w ≤ tp.sndCwndCnt
  · have hle' : w.toNat ≤ tp.credit.cnt := hle
    rw [if_pos hle'] at hwin
    have hone : (tp.sndCwnd + 1#32).toNat = tp.sndCwnd.toNat + 1 := BitVec.toNat_add_of_lt hwin
    rw [if_pos hle, if_pos hle']
    simpa only [TcpSock.credit, Credit.mk.injEq] using ⟨hone, rfl⟩
  · have hle' : ¬ w.toNat ≤ tp.credit.cnt := hle
    rw [if_neg hle, if_neg hle']

/-- The second step: the credits in the counter are spent. -/
theorem spendCredits_spec (tp : TcpSock) {w : U32} (hw : 0 < w.toNat)
    (hwin : tp.sndCwnd.toNat + tp.sndCwndCnt.toNat / w.toNat < 2 ^ 32) :
    ∃ cwnd cnt, spendCredits tp w = some (tp.withWindow cwnd cnt) ∧
      (⟨cwnd.toNat, cnt.toNat⟩ : Credit) = Credit.earn w.toNat 0 tp.credit := by
  unfold spendCredits
  by_cases hle : w ≤ tp.sndCwndCnt
  · rw [if_pos hle, checkedDiv_ne (ne_zero_of_pos hw)]
    refine ⟨_, _, rfl, ?_⟩
    have hquot : (tp.sndCwndCnt / w).toNat = tp.sndCwndCnt.toNat / w.toNat := BitVec.toNat_udiv
    have hspent := Nat.div_add_mod tp.sndCwndCnt.toNat w.toNat
    have hmul : (tp.sndCwndCnt / w * w).toNat = w.toNat * (tp.sndCwndCnt.toNat / w.toNat) := by
      rw [BitVec.toNat_mul_of_lt (by rw [hquot, Nat.mul_comm]; omega), hquot, Nat.mul_comm]
    have hcwnd : (tp.sndCwnd + tp.sndCwndCnt / w).toNat =
        tp.sndCwnd.toNat + tp.sndCwndCnt.toNat / w.toNat := by
      rw [BitVec.toNat_add_of_lt (by rw [hquot]; exact hwin), hquot]
    have hcnt : (tp.sndCwndCnt - tp.sndCwndCnt / w * w).toNat = tp.sndCwndCnt.toNat % w.toNat := by
      rw [BitVec.toNat_sub_of_le (by rw [BitVec.le_def, hmul]; omega), hmul]
      omega
    simp only [TcpSock.credit, Credit.earn, hcwnd, hcnt, Nat.add_zero]
  · rw [if_neg hle]
    refine ⟨tp.sndCwnd, tp.sndCwndCnt, rfl, ?_⟩
    rw [BitVec.le_def] at hle
    simp only [TcpSock.credit, Credit.earn, Nat.add_zero]
    rw [Nat.div_eq_of_lt (by omega), Nat.mod_eq_of_lt (by omega), Nat.add_zero]

/-- The helper changes only the window and its credits. -/
theorem tcpCongAvoidAi_frame {tp tp' : TcpSock} {w acked : U32} (h : tcpCongAvoidAi tp w acked = some tp') :
    tp' = tp.withWindow tp'.sndCwnd tp'.sndCwndCnt := by
  obtain ⟨tp₁, hspend, rfl⟩ := Option.map_eq_some_iff.mp h
  rw [applyCredits_frame tp w] at hspend
  unfold spendCredits at hspend
  split at hspend
  · obtain ⟨delta, -, rfl⟩ := Option.map_eq_some_iff.mp hspend
    rfl
  · cases hspend
    rfl

/-- **Additive increase.** With a price that is not zero and no wrap-around the helper returns, it changes only the
window and its credits, and these as `Credit.increase` and the clamp say. -/
theorem tcpCongAvoidAi_spec (tp : TcpSock) {w acked : U32} (hw : 0 < w.toNat)
    (hcnt : (Credit.settle w.toNat tp.credit).cnt + acked.toNat < 2 ^ 32)
    (hwin : (Credit.increase w.toNat acked.toNat tp.credit).win < 2 ^ 32) :
    ∃ cwnd cnt, tcpCongAvoidAi tp w acked = some (tp.withWindow cwnd cnt) ∧
      (⟨cwnd.toNat, cnt.toNat⟩ : Credit) =
        (Credit.increase w.toNat acked.toNat tp.credit).cap tp.sndCwndClamp.toNat := by
  set tp₁ := applyCredits tp w with htp₁
  simp only [Credit.increase, Credit.earn] at hwin
  have hsettle : tp₁.credit = Credit.settle w.toNat tp.credit :=
    applyCredits_credit (lt_of_le_of_lt (Nat.le_add_right _ _) hwin)
  rw [← hsettle] at hcnt hwin
  have hadd : (tp₁.sndCwndCnt + acked).toNat = tp₁.sndCwndCnt.toNat + acked.toNat := BitVec.toNat_add_of_lt hcnt
  obtain ⟨cwnd, cnt, hspend, hcredit⟩ :=
    spendCredits_spec (tp₁.withWindow tp₁.sndCwnd (tp₁.sndCwndCnt + acked)) hw
      (by rw [withWindow_sndCwnd, withWindow_sndCwndCnt, hadd]; exact hwin)
  rw [withWindow_withWindow] at hspend
  refine ⟨umin cwnd tp.sndCwndClamp, cnt, ?_, ?_⟩
  · have hframe := applyCredits_frame tp w
    rw [← htp₁] at hframe
    simp only [tcpCongAvoidAi, ← htp₁]
    rw [show ({ tp₁ with sndCwndCnt := tp₁.sndCwndCnt + acked } : TcpSock) =
      tp₁.withWindow tp₁.sndCwnd (tp₁.sndCwndCnt + acked) from rfl, hspend, hframe]
    rfl
  · simp only [TcpSock.credit, withWindow_sndCwnd, withWindow_sndCwndCnt, hadd] at hcredit
    have hearn : (⟨cwnd.toNat, cnt.toNat⟩ : Credit) = Credit.earn w.toNat acked.toNat tp₁.credit := by
      simpa only [Credit.earn, TcpSock.credit, Nat.add_zero] using hcredit
    rw [toNat_umin, Credit.increase, ← hsettle, ← hearn]
    rfl

/-- No sum of the additive increase wraps when the window, its credits and the ACKed packets fit together. -/
theorem increase_fits {tp : TcpSock} {w acked : U32} (hw : 0 < w.toNat)
    (hfit : tp.sndCwnd.toNat + tp.sndCwndCnt.toNat + acked.toNat < 2 ^ 32) :
    (Credit.settle w.toNat tp.credit).cnt + acked.toNat < 2 ^ 32 ∧
      (Credit.increase w.toNat acked.toNat tp.credit).win < 2 ^ 32 := by
  have hsettle := Credit.settle_bound (k := 1) hw tp.credit
  have hincrease := Credit.increase_bound (k := 1) hw acked.toNat tp.credit
  simp only [TcpSock.credit, Nat.one_mul] at hsettle hincrease ⊢
  constructor <;> omega

end CoupledCC
