import CoupledCC.Reno.CongAvoid

/-!
# Reno's window does not depend on how ACKs are split

A list of ACKs is processed by `tcp_reno_cong_avoid` one after another (`renoRun`); between ACKs the kernel may change
`max_packets_out` and `is_cwnd_limited`. Every ACK is at most the window when it arrives, finds the connection limited
by its window and wraps no 32-bit sum (`Admits`). Such a run ends after as many ticks as packets were ACKed
(`renoRun_ticks`), so two lists with the same sum end in the same window and credits (`renoRun_split`).
-/

namespace CoupledCC

/-- An ACK, with what the kernel knows about the connection when it arrives. -/
structure Ack where
  acked : U32
  maxPacketsOut : U32
  isCwndLimited : Bool

/-- The socket when the ACK arrives. -/
def Ack.arrive (a : Ack) (tp : TcpSock) : TcpSock :=
  { tp with maxPacketsOut := a.maxPacketsOut, isCwndLimited := a.isCwndLimited }

/-- The ACKs of a list, one after another. -/
def renoRun (tp : TcpSock) : List Ack → Option TcpSock
  | [] => some tp
  | a :: as => (tcpRenoCongAvoid (a.arrive tp) a.acked).bind fun tp' => renoRun tp' as

/-- The ACK is at most the window, the window limits the connection, and no 32-bit sum wraps. -/
def Admissible (tp : TcpSock) (a : Ack) : Prop :=
  a.acked.toNat ≤ tp.sndCwnd.toNat ∧ tcpIsCwndLimited (a.arrive tp) = true ∧ NoWrap tp a.acked

instance (tp : TcpSock) (a : Ack) : Decidable (Admissible tp a) := by
  unfold Admissible
  infer_instance

/-- Every ACK of the list is admissible when it arrives. -/
def Admits (tp : TcpSock) : List Ack → Prop
  | [] => True
  | a :: as => Admissible tp a ∧ ∀ tp' ∈ tcpRenoCongAvoid (a.arrive tp) a.acked, Admits tp' as

instance decidableAdmits : (tp : TcpSock) → (as : List Ack) → Decidable (Admits tp as)
  | _, [] => isTrue trivial
  | tp, a :: as =>
    match h : tcpRenoCongAvoid (a.arrive tp) a.acked with
    | none => decidable_of_iff (Admissible tp a) (by simp [Admits, h])
    | some tp' =>
      have := decidableAdmits tp' as
      decidable_of_iff (Admissible tp a ∧ Admits tp' as) (by simp [Admits, h])

/-- The sizes of the ACKs. -/
def sizes (as : List Ack) : List ℕ :=
  as.map fun a => a.acked.toNat

/-- **One step.** An admissible ACK of `n` packets is `n` ticks, and leaves the socket ready for the next. -/
theorem renoStep_ticks {tp : TcpSock} {a : Ack} (h : Ready tp) (ha : Admissible tp a) :
    ∃ tp', tcpRenoCongAvoid (a.arrive tp) a.acked = some tp' ∧
      tp'.credit = (Credit.tick tp.sndSsthresh.toNat tp.sndCwndClamp.toNat)^[a.acked.toNat] tp.credit ∧
      tp'.sndSsthresh = tp.sndSsthresh ∧ tp'.sndCwndClamp = tp.sndCwndClamp ∧ Ready tp' := by
  obtain ⟨hsize, hlimited, hfit⟩ := ha
  have harrive : Ready (a.arrive tp) := ⟨h.pos, h.clamp, h.cnt, h.thresh⟩
  obtain ⟨cwnd, cnt, hrun, hcredit⟩ := tcpRenoCongAvoid_ticks harrive hlimited hsize hfit
  have hready := Credit.ticks_ready (c := tp.credit) h.pos h.clamp h.cnt h.thresh a.acked.toNat
  refine ⟨_, hrun, hcredit, rfl, rfl, ?_⟩
  rw [show (Credit.tick tp.sndSsthresh.toNat tp.sndCwndClamp.toNat)^[a.acked.toNat] tp.credit =
    ((a.arrive tp).withWindow cwnd cnt).credit from hcredit.symm] at hready
  exact ⟨hready.1, hready.2.2.1, hready.2.2.2, h.thresh.imp id fun ht => ht.trans hready.2.1⟩

/-- **The run.** Admissible ACKs are as many ticks as packets they ACK. -/
theorem renoRun_ticks {tp : TcpSock} {as : List Ack} (h : Ready tp) (ha : Admits tp as) :
    ∃ tp', renoRun tp as = some tp' ∧
      tp'.credit = (Credit.tick tp.sndSsthresh.toNat tp.sndCwndClamp.toNat)^[(sizes as).sum] tp.credit := by
  rw [← Credit.foldl_iterate]
  induction as generalizing tp with
  | nil => exact ⟨tp, rfl, rfl⟩
  | cons a as ih =>
    obtain ⟨hfirst, hrest⟩ := ha
    obtain ⟨tp₁, hrun₁, hcredit₁, hthresh, hclamp, hready₁⟩ := renoStep_ticks h hfirst
    obtain ⟨tp', hrun, hcredit⟩ := ih hready₁ (hrest tp₁ hrun₁)
    refine ⟨tp', ?_, ?_⟩
    · rw [renoRun, hrun₁, Option.bind_some, hrun]
    · rw [hcredit, hthresh, hclamp, hcredit₁]
      rfl

/-- **Reno's window does not depend on how ACKs are split.** -/
theorem renoRun_split {tp : TcpSock} {as bs : List Ack} (hpos : 1 ≤ tp.sndCwnd.toNat)
    (hclamp : tp.sndCwnd.toNat ≤ tp.sndCwndClamp.toNat) (hcnt : tp.sndCwndCnt.toNat < tp.sndCwnd.toNat)
    (hthresh : tp.sndSsthresh.toNat ≤ tp.sndCwndClamp.toNat ∨ tp.sndSsthresh.toNat ≤ tp.sndCwnd.toNat)
    (hsum : (sizes as).sum = (sizes bs).sum) (ha : Admits tp as) (hb : Admits tp bs) :
    ∃ tpa tpb, renoRun tp as = some tpa ∧ renoRun tp bs = some tpb ∧
      tpa.sndCwnd = tpb.sndCwnd ∧ tpa.sndCwndCnt = tpb.sndCwndCnt := by
  have hready : Ready tp := ⟨hpos, hclamp, hcnt, hthresh⟩
  obtain ⟨tpa, hruna, hcredita⟩ := renoRun_ticks hready ha
  obtain ⟨tpb, hrunb, hcreditb⟩ := renoRun_ticks hready hb
  have hsame : tpa.credit = tpb.credit := by rw [hcredita, hcreditb, hsum]
  simp only [TcpSock.credit, Credit.mk.injEq] at hsame
  exact ⟨tpa, tpb, hruna, hrunb, BitVec.eq_of_toNat_eq hsame.1, BitVec.eq_of_toNat_eq hsame.2⟩

/-- Six packets from a window of 2, across the end of slow start at 3 and up to the clamp at 4. -/
theorem renoRun_split_six :
    let tp : TcpSock := ⟨2, 0, 3, 4, 0, 0, false, 0, 0, 0, 0, 0, 0⟩
    let ack (n : U32) : Ack := ⟨n, 10, true⟩
    ∃ tpa tpb, renoRun tp [ack 2, ack 2, ack 2] = some tpa ∧
      renoRun tp [ack 1, ack 1, ack 3, ack 1] = some tpb ∧
      tpa.sndCwnd = tpb.sndCwnd ∧ tpa.sndCwndCnt = tpb.sndCwndCnt :=
  renoRun_split (by decide) (by decide) (by decide) (by decide) (by decide) (by decide) (by decide)

end CoupledCC
