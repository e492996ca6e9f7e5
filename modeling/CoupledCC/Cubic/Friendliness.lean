import CoupledCC.Cubic.Epoch

/-!
# The TCP-friendly estimate of CUBIC

In an epoch `ack_cnt` collects the ACKed packets, and the friendliness block buys packets of `tcp_cwnd` with them, for
`delta` each. An observer keeps a tally of the epoch: the packets ACKed in all calls of `bictcp_update`, and those
spent.

- `bictcpTcpCwnd_spec`: what the block buys;
- `bictcpUpdate_counters`: what a call does to the two counters, by the way it leaves;
- `friendly_conserves`: every ACKed packet is counted once, over any run.
-/

namespace CoupledCC.Cubic

open Word Runs

/-- The price of a packet of `tcp_cwnd`. -/
def friendlyDelta (cfg : Config) (cwnd : U32) : U32 :=
  (cwnd * cfg.betaScale) >>> 3

/-- A call on a closed epoch that does not leave early opens one. -/
def OpensEpoch (cfg : Config) (ca : Bictcp) (cwnd : U32) (clk : Jiffies) : Prop :=
  ca.epochStart = 0 ∧ ¬ EarlyReturn cfg ca cwnd clk

instance (cfg : Config) (ca : Bictcp) (cwnd : U32) (clk : Jiffies) : Decidable (OpensEpoch cfg ca cwnd clk) := by
  unfold OpensEpoch
  infer_instance

/-! ## What the block buys -/

/-- The block buys `n` packets and keeps the rest, at most the price of one. -/
theorem bictcpTcpCwnd_spec {cfg : Config} {ca ca' : Bictcp} {cwnd : U32} (h : bictcpTcpCwnd cfg ca cwnd = some ca')
    (hfit : ca.tcpCwnd.toNat + ca.ackCnt.toNat < 2 ^ 32) :
    ∃ n : ℕ, ca'.ackCnt.toNat + (friendlyDelta cfg cwnd).toNat * n = ca.ackCnt.toNat ∧
      ca'.tcpCwnd.toNat = ca.tcpCwnd.toNat + n ∧ n ≤ (friendlyDelta cfg cwnd).toNat * n ∧
      (0 < (friendlyDelta cfg cwnd).toNat → ca'.ackCnt.toNat ≤ (friendlyDelta cfg cwnd).toNat) := by
  unfold bictcpTcpCwnd at h
  simp only at h
  rw [show (cwnd * cfg.betaScale) >>> 3 = friendlyDelta cfg cwnd from rfl] at h
  generalize friendlyDelta cfg cwnd = delta at h
  split at h
  · rename_i hbuys
    obtain ⟨n, hn, rfl⟩ := Option.map_eq_some_iff.mp h
    rw [checkedDiv_ne hbuys.2] at hn
    cases hn
    have hquot : (ca.ackCnt / delta).toNat = ca.ackCnt.toNat / delta.toNat := BitVec.toNat_udiv
    have hsplit := Nat.div_add_mod ca.ackCnt.toNat delta.toNat
    have hmul : (ca.ackCnt / delta * delta).toNat = delta.toNat * (ca.ackCnt.toNat / delta.toNat) := by
      rw [BitVec.toNat_mul_of_lt (by rw [hquot, Nat.mul_comm]; omega), hquot, Nat.mul_comm]
    have hpos : 0 < delta.toNat := by
      rw [Nat.pos_iff_ne_zero]
      intro hzero
      exact hbuys.2 (BitVec.eq_of_toNat_eq hzero)
    have hle : ca.ackCnt.toNat / delta.toNat ≤ delta.toNat * (ca.ackCnt.toNat / delta.toNat) :=
      Nat.le_mul_of_pos_left _ hpos
    refine ⟨ca.ackCnt.toNat / delta.toNat, ?_, ?_, hle, fun _ => ?_⟩
    · simp only
      rw [BitVec.toNat_sub_of_le (by rw [BitVec.le_def, hmul]; omega), hmul]
      omega
    · simp only
      rw [BitVec.toNat_add_of_lt (by rw [hquot]; omega), hquot]
    · have hmod := Nat.mod_lt ca.ackCnt.toNat hpos
      simp only
      rw [BitVec.toNat_sub_of_le (by rw [BitVec.le_def, hmul]; omega), hmul]
      omega
  · rename_i hkeeps
    cases h
    refine ⟨0, by omega, by omega, by omega, fun hpos => ?_⟩
    by_contra hmore
    exact hkeeps ⟨by rw [BitVec.lt_def]; omega, ne_zero_of_pos hpos⟩

/-- The rest of the friendliness block leaves both counters alone. -/
theorem bictcpFriendliness_counters {cfg : Config} {ca ca' : Bictcp} {cwnd : U32}
    (h : bictcpFriendliness cfg ca cwnd = some ca') :
    ∃ ca₁, bictcpTcpCwnd cfg ca cwnd = some ca₁ ∧ ca'.ackCnt = ca₁.ackCnt ∧ ca'.tcpCwnd = ca₁.tcpCwnd := by
  obtain ⟨ca₁, htcp, h⟩ := Option.bind_eq_some_iff.mp h
  refine ⟨ca₁, htcp, ?_⟩
  split at h
  · obtain ⟨maxCnt, -, rfl⟩ := Option.map_eq_some_iff.mp h
    exact ⟨rfl, rfl⟩
  · cases h
    exact ⟨rfl, rfl⟩

/-! ## One call -/

/-- The two counters when the friendliness block begins: an opening call starts them anew. -/
def countersAtBlock (cfg : Config) (ca : Bictcp) (cwnd acked : U32) (clk : Jiffies) : U32 × U32 :=
  if OpensEpoch cfg ca cwnd clk then (acked, cwnd) else (ca.ackCnt + acked, ca.tcpCwnd)

/-- The counters after `last_cwnd` and `last_time` are recorded. -/
theorem bictcpRecord_counters {cfg : Config} {ca ca' : Bictcp} {cwnd acked : U32} {clk : Jiffies}
    (hearly : ¬ EarlyReturn cfg ca cwnd clk)
    (h : bictcpRecord { ca with ackCnt := ca.ackCnt + acked } cwnd acked clk = some ca') :
    (ca'.ackCnt, ca'.tcpCwnd) = countersAtBlock cfg ca cwnd acked clk := by
  unfold bictcpRecord at h
  simp only at h
  unfold countersAtBlock
  split at h
  · rename_i hzero
    rw [if_pos ⟨hzero, hearly⟩]
    unfold bictcpOpenEpoch at h
    simp only at h
    split at h
    · cases h
      rfl
    · obtain ⟨k, -, rfl⟩ := Option.map_eq_some_iff.mp h
      rfl
  · rename_i hopen
    rw [if_neg (fun hopens => hopen hopens.1)]
    cases h
    rfl

/-- **One call.** The early return only counts the packets; on the other ways the friendliness block is run on the
counters. -/
theorem bictcpUpdate_counters {cfg : Config} {ca ca' : Bictcp} {cwnd acked : U32} {clk : Jiffies}
    (h : bictcpUpdate cfg ca cwnd acked clk = some ca') :
    (EarlyReturn cfg ca cwnd clk ∧ ca'.ackCnt = ca.ackCnt + acked ∧ ca'.tcpCwnd = ca.tcpCwnd) ∨
      (¬ EarlyReturn cfg ca cwnd clk ∧ ∃ ca₁ ca₂, (ca₁.ackCnt, ca₁.tcpCwnd) = countersAtBlock cfg ca cwnd acked clk ∧
        bictcpTcpCwnd cfg ca₁ cwnd = some ca₂ ∧ ca'.ackCnt = ca₂.ackCnt ∧ ca'.tcpCwnd = ca₂.tcpCwnd) := by
  cases bictcpUpdate_way h with
  | early hearly => exact .inl ⟨hearly, rfl, rfl⟩
  | friendly hearly hopen _ hblock =>
    obtain ⟨ca₂, htcp, hack, hcwnd⟩ := bictcpFriendliness_counters hblock
    refine .inr ⟨hearly, _, ca₂, ?_, htcp, hack, hcwnd⟩
    unfold countersAtBlock
    rw [if_neg (fun hopens => hopen hopens.1)]
  | cubic hearly hrecord _ hblock =>
    obtain ⟨ca₂, htcp, hack, hcwnd⟩ := bictcpFriendliness_counters hblock
    have hcounters := bictcpRecord_counters hearly hrecord
    refine .inr ⟨hearly, _, ca₂, ?_, htcp, hack, hcwnd⟩
    exact hcounters

/-! ## The tally of an epoch -/

/-- The window of the call that opened the epoch; the packets ACKed in its calls; those spent, as the price times the
increase of `tcp_cwnd`; whether all calls had the same window; and the price at the last call, if it came to the
friendliness block. -/
structure Tally where
  opening : U32
  acked : ℕ
  spent : ℤ
  constant : Bool
  price : Option U32
deriving Repr, DecidableEq

/-- One more call, with the increase of `tcp_cwnd` in it. -/
def Tally.add (cfg : Config) (n : Tally) (cwnd acked : U32) (increase : ℤ) (block : Bool) : Tally where
  opening := n.opening
  acked := n.acked + acked.toNat
  spent := n.spent + (friendlyDelta cfg cwnd).toNat * increase
  constant := n.constant && decide (cwnd = n.opening)
  price := if block then some (friendlyDelta cfg cwnd) else none

/-- An epoch before its first call is counted. -/
def Tally.start (cwnd : U32) : Tally :=
  ⟨cwnd, 0, 0, true, none⟩

/-- The tally after a call; an opening one starts it, with `tcp_cwnd` at the window. -/
def Tally.after (cfg : Config) (n : Option Tally) (ca ca' : Bictcp) (cwnd acked : U32) (clk : Jiffies) : Option Tally :=
  let block := !decide (EarlyReturn cfg ca cwnd clk)
  if OpensEpoch cfg ca cwnd clk then
    some ((Tally.start cwnd).add cfg cwnd acked (ca'.tcpCwnd.toNat - cwnd.toNat) block)
  else n.map fun n => n.add cfg cwnd acked (ca'.tcpCwnd.toNat - ca.tcpCwnd.toNat) block

/-- The tally of the current epoch, until it is ended. -/
def noteTally (cfg : Config) (n : Option Tally) : Transition CubicSock Action → Option Tally
  | (s, .call (.congAvoid ack acked clk), s') =>
    match updateCall s ack acked with
    | some (s₁, left) => Tally.after cfg n s₁.ca s'.ca s₁.tp.sndCwnd left clk
    | none => n
  | (_, a, _) => if EndsEpoch a then none else n

/-- A tally that fits the counters. -/
structure Balanced (cfg : Config) (n : Tally) (ackCnt tcpCwnd : ℕ) : Prop where
  conserved : (n.acked : ℤ) = ackCnt + n.spent
  bound : tcpCwnd + ackCnt ≤ n.opening.toNat + n.acked
  grows : n.opening.toNat ≤ tcpCwnd
  rest : ∀ d ∈ n.price, 0 < d.toNat → ackCnt ≤ d.toNat
  constant : n.constant = true →
    n.spent = (friendlyDelta cfg n.opening).toNat * (tcpCwnd - n.opening.toNat) ∧
      ∀ d ∈ n.price, d = friendlyDelta cfg n.opening

theorem balanced_start (cfg : Config) (cwnd : U32) : Balanced cfg (Tally.start cwnd) 0 cwnd.toNat := by
  refine ⟨by simp [Tally.start], by simp [Tally.start], le_refl _, by simp [Tally.start], fun _ => ?_⟩
  simp [Tally.start]

/-- A call that buys `m` packets keeps the balance. -/
theorem Balanced.add {cfg : Config} {n : Tally} {ackCnt tcpCwnd ackCnt' m : ℕ} (h : Balanced cfg n ackCnt tcpCwnd)
    (cwnd acked : U32) (block : Bool)
    (hpaid : ackCnt' + (friendlyDelta cfg cwnd).toNat * m = ackCnt + acked.toNat)
    (hcost : m ≤ (friendlyDelta cfg cwnd).toNat * m)
    (hrest : block = true → 0 < (friendlyDelta cfg cwnd).toNat → ackCnt' ≤ (friendlyDelta cfg cwnd).toNat) :
    Balanced cfg (n.add cfg cwnd acked m block) ackCnt' (tcpCwnd + m) := by
  have hconserved := h.conserved
  have hbound := h.bound
  have hgrows := h.grows
  have hpaid' : (ackCnt' : ℤ) + (friendlyDelta cfg cwnd).toNat * m = ackCnt + acked.toNat := by exact_mod_cast hpaid
  refine ⟨?_, ?_, ?_, ?_, ?_⟩
  · simp only [Tally.add]
    push_cast
    linarith
  · simp only [Tally.add]
    omega
  · simp only [Tally.add]
    omega
  · intro d hd hpos
    simp only [Tally.add] at hd
    split at hd
    · rename_i hblock
      cases hd
      exact hrest hblock hpos
    · cases hd
  · intro hconstant
    simp only [Tally.add, Bool.and_eq_true, decide_eq_true_eq] at hconstant ⊢
    obtain ⟨hspent, -⟩ := h.constant hconstant.1
    rw [hspent, hconstant.2]
    refine ⟨by push_cast; ring, ?_⟩
    intro d hd
    split at hd
    · cases hd
      rfl
    · cases hd

/-- The invariant of the runs: while no sum can wrap the tally fits the counters. -/
def TallyInv (cfg : Config) (n : Option Tally) (s : CubicSock) : Prop :=
  ∀ t ∈ n, t.opening.toNat + t.acked < 2 ^ 32 → Balanced cfg t s.ca.ackCnt.toNat s.ca.tcpCwnd.toNat

/-- A call that finds a balanced tally, with `ackCnt` packets and `tcp_cwnd` at `tcpCwnd` before it counts its own. -/
theorem Balanced.call {cfg : Config} {n : Tally} {ca ca' : Bictcp} {cwnd acked ackCnt tcpCwnd : U32} {clk : Jiffies}
    (h : Balanced cfg n ackCnt.toNat tcpCwnd.toNat) (hfit : n.opening.toNat + (n.acked + acked.toNat) < 2 ^ 32)
    (hcounters : countersAtBlock cfg ca cwnd acked clk = (ackCnt + acked, tcpCwnd))
    (hupdate : bictcpUpdate cfg ca cwnd acked clk = some ca') :
    Balanced cfg (n.add cfg cwnd acked (ca'.tcpCwnd.toNat - tcpCwnd.toNat) (!decide (EarlyReturn cfg ca cwnd clk)))
      ca'.ackCnt.toNat ca'.tcpCwnd.toNat := by
  have hbound := h.bound
  have hsum : (ackCnt + acked).toNat = ackCnt.toNat + acked.toNat := BitVec.toNat_add_of_lt (by omega)
  rcases bictcpUpdate_counters hupdate with ⟨hearly, hack, hcwnd⟩ | ⟨hearly, ca₁, ca₂, hblock, htcp, hack, hcwnd⟩
  · have hnot : ¬ OpensEpoch cfg ca cwnd clk := fun hopens => hopens.2 hearly
    unfold countersAtBlock at hcounters
    rw [if_neg hnot] at hcounters
    obtain ⟨hack₀, hcwnd₀⟩ := Prod.mk.inj hcounters
    rw [hack, hcwnd, hack₀, hcwnd₀, hsum]
    have hpaid : (ackCnt.toNat + acked.toNat) + (friendlyDelta cfg cwnd).toNat * 0 = ackCnt.toNat + acked.toNat := by
      rw [Nat.mul_zero, Nat.add_zero]
    have hadd := h.add cwnd acked false hpaid (Nat.zero_le _) (by simp)
    simpa [hearly] using hadd
  · rw [hcounters] at hblock
    obtain ⟨hack₁, hcwnd₁⟩ := Prod.mk.inj hblock
    obtain ⟨m, hpaid, hbuys, hcost, hrest⟩ := bictcpTcpCwnd_spec htcp (by rw [hack₁, hcwnd₁, hsum]; omega)
    rw [hack₁, hsum] at hpaid
    rw [hcwnd₁] at hbuys
    rw [hack, hcwnd, hbuys]
    have hadd := h.add cwnd acked true hpaid hcost fun _ => hrest
    simpa [hearly] using hadd

/-! ## Runs -/

/-- The tally after `cubictcp_cong_avoid`. -/
theorem tallyInv_update {cfg : Config} {n : Option Tally} {s : CubicSock} {ca ca' : Bictcp} {cwnd acked : U32}
    {clk : Jiffies} (h : TallyInv cfg n s) (hack : ca.ackCnt = s.ca.ackCnt) (htcp : ca.tcpCwnd = s.ca.tcpCwnd)
    (hupdate : bictcpUpdate cfg ca cwnd acked clk = some ca') :
    ∀ t ∈ Tally.after cfg n ca ca' cwnd acked clk, t.opening.toNat + t.acked < 2 ^ 32 →
      Balanced cfg t ca'.ackCnt.toNat ca'.tcpCwnd.toNat := by
  intro t ht hfit
  unfold Tally.after at ht
  simp only at ht
  split at ht
  · rename_i hopens
    cases ht
    have hstart : Balanced cfg (Tally.start cwnd) (0 : U32).toNat cwnd.toNat := balanced_start cfg cwnd
    apply hstart.call hfit _ hupdate
    unfold countersAtBlock
    rw [if_pos hopens]
    simp
  · rename_i hopens
    obtain ⟨m, hm, rfl⟩ := Option.map_eq_some_iff.mp ht
    have hfit' : m.opening.toNat + (m.acked + acked.toNat) < 2 ^ 32 := hfit
    have hm' : Balanced cfg m ca.ackCnt.toNat ca.tcpCwnd.toNat := by
      rw [hack, htcp]
      exact h m hm (by omega)
    apply hm'.call hfit' _ hupdate
    unfold countersAtBlock
    rw [if_neg hopens]

/-- An action that leaves the two counters alone and calls no `bictcp_update`. -/
theorem tallyInv_quiet {cfg : Config} {n : Option Tally} {s s' : CubicSock} (h : TallyInv cfg n s)
    (hack : s'.ca.ackCnt = s.ca.ackCnt) (htcp : s'.ca.tcpCwnd = s.ca.tcpCwnd) : TallyInv cfg n s' := by
  unfold TallyInv
  rw [hack, htcp]
  exact h

theorem tallyInv_none (cfg : Config) (s : CubicSock) : TallyInv cfg none s := by
  intro t ht
  cases ht

/-- **One action.** -/
theorem tallyInv_step {cfg : Config} (n : Option Tally) (s : CubicSock) (a : Action) (s' : CubicSock)
    (h : TallyInv cfg n s) (hrun : Acts cfg s a s') : TallyInv cfg (noteTally cfg n (s, a, s')) s' := by
  unfold Acts at hrun
  cases a with
  | init =>
    cases hrun
    exact tallyInv_none cfg _
  | kernel tp =>
    cases hrun
    exact h
  | call c =>
    cases c with
    | congAvoid ack acked clk =>
      have hreset := hystartResets_window s ack
      rcases cubictcpCongAvoid_ca hrun with ⟨hnone, hca⟩ | ⟨s₁, left, hcall, hupdate⟩
      · simp only [noteTally, hnone]
        rw [← hca] at hreset
        exact tallyInv_quiet h (congrArg Window.ackCnt hreset) (congrArg Window.tcpCwnd hreset)
      · simp only [noteTally, hcall]
        rw [← updateCall_ca hcall] at hreset
        exact tallyInv_update h (congrArg Window.ackCnt hreset) (congrArg Window.tcpCwnd hreset) hupdate
    | recalcSsthresh =>
      cases hrun
      exact tallyInv_none cfg _
    | state newState =>
      cases hrun
      simp only [noteTally]
      by_cases hloss : EndsEpoch (.call (.state newState))
      · rw [if_pos hloss]
        exact tallyInv_none cfg _
      · have hsame : cubictcpState s newState = s := if_neg hloss
        rw [if_neg hloss, hsame]
        exact h
    | cwndEvent event now =>
      cases hrun
      obtain ⟨start, hframe⟩ := cubictcpCwndEvent_frame s event now
      rw [hframe]
      exact tallyInv_quiet h rfl rfl
    | acked rttUs now =>
      have hwindow := cubictcpAcked_window hrun
      exact tallyInv_quiet h (congrArg Window.ackCnt hwindow) (congrArg Window.tcpCwnd hwindow)

/-- With a constant window the purchases are the packets divided by the price, or one less. -/
theorem quotient_of_rest {acked ackCnt d m : ℕ} (hd : 0 < d) (hpaid : acked = ackCnt + d * m) (hrest : ackCnt ≤ d) :
    m = acked / d ∨ m + 1 = acked / d := by
  rcases hrest.lt_or_eq with hlt | heq
  · left
    rw [hpaid, Nat.add_mul_div_left _ _ hd, Nat.div_eq_of_lt hlt, Nat.zero_add]
  · right
    rw [hpaid, heq, Nat.add_mul_div_left _ _ hd, Nat.div_self hd, Nat.add_comm]

/-- **The estimate counts every ACKed packet once.** In any run, since the call that opened the current epoch: while the
packets and the opening window fit into 32 bits, the packets are those in `ack_cnt` and those spent; after a call that
came to the friendliness block at a price that is not 0, `ack_cnt` is at most the price; and if all calls had the same
window, `tcp_cwnd` exceeds it by the packets divided by the price, or one less. -/
theorem friendly_conserves {cfg : Config} {s₀ s : CubicSock} {tr : List (Transition CubicSock Action)}
    (hrun : Trace (Acts cfg) (cubictcpInit s₀) tr s) {n : Tally} (hn : history (noteTally cfg) none tr = some n)
    (hfit : n.opening.toNat + n.acked < 2 ^ 32) :
    (n.acked : ℤ) = s.ca.ackCnt.toNat + n.spent ∧
      ∀ d ∈ n.price, 0 < d.toNat → s.ca.ackCnt.toNat ≤ d.toNat ∧
        (n.constant = true → ∃ m, s.ca.tcpCwnd.toNat = n.opening.toNat + m ∧
          (m = n.acked / d.toNat ∨ m + 1 = n.acked / d.toNat)) := by
  have hinv := hrun.history_invariant tallyInv_step none (tallyInv_none cfg _)
  have hbalanced := hinv n hn hfit
  refine ⟨hbalanced.conserved, fun d hd hpos => ⟨hbalanced.rest d hd hpos, fun hconstant => ?_⟩⟩
  obtain ⟨hspent, hprice⟩ := hbalanced.constant hconstant
  obtain ⟨m, hm⟩ := Nat.exists_eq_add_of_le hbalanced.grows
  refine ⟨m, hm, ?_⟩
  have hpaid : n.acked = s.ca.ackCnt.toNat + d.toNat * m := by
    have hconserved := hbalanced.conserved
    rw [hspent, hm, ← hprice d hd] at hconserved
    push_cast at hconserved
    rw [add_sub_cancel_left] at hconserved
    exact_mod_cast hconserved
  exact quotient_of_rest hpos hpaid (hbalanced.rest d hd hpos)

/-- A window of 10 and the price of 18: an opening call with 15 packets, an early return with 20, and a full computation
with 5 more. The 40 packets have bought two, and 4 are left. -/
theorem friendly_conserves_forty :
    let cfg : Config := ⟨1000, 717, 15, by decide⟩
    let tp : TcpSock := ⟨10, 0, 5, 10, 0, 100, true, 0, 0, 0, 0, 0, 0⟩
    let s₀ : CubicSock := ⟨tp, ⟨0, 0, 0, 0, 0, 0, 0, 0, 0, 0, 0, 0, 0, 0, 0, 0⟩⟩
    ∃ tr s, Trace (Acts cfg) (cubictcpInit s₀) tr s ∧
      history (noteTally cfg) none tr = some ⟨10, 40, 36, true, some 18⟩ ∧
      (40 : ℤ) = s.ca.ackCnt.toNat + 36 ∧ s.ca.ackCnt.toNat ≤ 18 ∧
      ∃ m, s.ca.tcpCwnd.toNat = 10 + m ∧ (m = 40 / 18 ∨ m + 1 = 40 / 18) := by
  intro cfg tp s₀
  let acts : List Action :=
    [.call (.congAvoid 1 15 ⟨1000, 1000, 1000, 1000, 1000⟩), .call (.congAvoid 2 20 ⟨1001, 1001, 1001, 1001, 1001⟩),
      .call (.congAvoid 3 5 ⟨1100, 1100, 1100, 1100, 1100⟩)]
  have hrun : (transitions (fun s (a : Action) => a.run cfg s) (cubictcpInit s₀) acts).map
      (fun p => history (noteTally cfg) none p.1) = some (some ⟨10, 40, 36, true, some 18⟩) := by decide
  obtain ⟨⟨tr, s⟩, htr, hnote⟩ := Option.map_eq_some_iff.mp hrun
  have htrace := Trace.of_transitions htr
  obtain ⟨hconserved, hblock⟩ := friendly_conserves htrace hnote (by decide)
  obtain ⟨hrest, hquotient⟩ := hblock 18 rfl (by decide)
  exact ⟨tr, s, htrace, hnote, hconserved, hrest, hquotient rfl⟩

end CoupledCC.Cubic
