import CoupledCC.Cubic.Callbacks

/-!
# Runs of the CUBIC controller without restrictions

Besides the callbacks an action may be `cubictcp_init` again, or any write of the kernel to the socket: nothing bounds
the windows here, and no sum has to fit (`Action.run`). Two observers need to see inside a callback:

- `hystartCall`: the call of `hystart_update` a callback makes, with the socket at the call and the delay sample
  (`cubictcpAcked_call`);
- `updateCall`: the call of `bictcp_update` it makes, with the socket at the call and the ACKed packets
  (`cubictcpCongAvoid_ca`).
-/

namespace CoupledCC.Cubic

open Word Runs

/-- What can happen to a connection. -/
inductive Action
  | init
  | kernel (tp : TcpSock)
  | call (c : Callback)
deriving Repr, DecidableEq

def Action.run (cfg : Config) (s : CubicSock) : Action → Option CubicSock
  | .init => some (cubictcpInit s)
  | .kernel tp => some { s with tp := tp }
  | .call c => c.run cfg s

/-- One action. -/
def Acts (cfg : Config) (s : CubicSock) (a : Action) (s' : CubicSock) : Prop :=
  a.run cfg s = some s'

/-- `cubictcp_cwnd_event` writes `epoch_start` only. -/
theorem cubictcpCwndEvent_frame (s : CubicSock) (event : CaEvent) (now : U32) :
    ∃ start, cubictcpCwndEvent s event now = { s with ca := { s.ca with epochStart := start } } := by
  unfold cubictcpCwndEvent
  split
  · simp only
    split
    · exact ⟨_, rfl⟩
    · exact ⟨s.ca.epochStart, rfl⟩
  · exact ⟨s.ca.epochStart, rfl⟩

/-! ## What `hystart_update` leaves alone -/

/-- Both branches of `hystart_update` are compiled in. -/
theorem hystartUpdate_branches {s s' : CubicSock} {delay : U32} (h : hystartUpdate s delay = some s') :
    ∃ s₁, hystartTrain s = some s₁ ∧ s' = hystartDelaySample s₁ delay := by
  have htrain : hystartDetect &&& hystartAckTrain ≠ 0 := by decide
  have hdelay : hystartDetect &&& hystartDelay ≠ 0 := by decide
  unfold hystartUpdate at h
  rw [if_pos htrain] at h
  obtain ⟨s₁, hs₁, heq⟩ := Option.map_eq_some_iff.mp h
  rw [if_pos hdelay] at heq
  exact ⟨s₁, hs₁, heq.symm⟩

/-- The fields of `bictcp_update`. -/
structure Window where
  cnt : U32
  lastMaxCwnd : U32
  lastCwnd : U32
  lastTime : U32
  bicOriginPoint : U32
  bicK : U32
  epochStart : U32
  ackCnt : U32
  tcpCwnd : U32
deriving Repr, DecidableEq

def Bictcp.window (ca : Bictcp) : Window :=
  ⟨ca.cnt, ca.lastMaxCwnd, ca.lastCwnd, ca.lastTime, ca.bicOriginPoint, ca.bicK, ca.epochStart, ca.ackCnt, ca.tcpCwnd⟩

/-- The ACK-train branch touches neither the samples, the minima nor the fields of `bictcp_update`. -/
theorem hystartTrain_frame {s s' : CubicSock} (h : hystartTrain s = some s') :
    s'.ca.sampleCnt = s.ca.sampleCnt ∧ s'.ca.currRtt = s.ca.currRtt ∧ s'.ca.delayMin = s.ca.delayMin ∧
      s'.ca.window = s.ca.window ∧ s'.tp.sndCwnd = s.tp.sndCwnd := by
  unfold hystartTrain at h
  simp only at h
  split at h
  · obtain ⟨allowance, -, rfl⟩ := Option.map_eq_some_iff.mp h
    -- whatever the threshold is
    generalize (if s.tp.skPacingStatus = skPacingNone then _ else _ : U32) = threshold
    split <;> exact ⟨rfl, rfl, rfl, rfl, rfl⟩
  · cases h
    exact ⟨rfl, rfl, rfl, rfl, rfl⟩

theorem hystartDelaySample_window (s : CubicSock) (delay : U32) :
    (hystartDelaySample s delay).ca.window = s.ca.window := by
  unfold hystartDelaySample
  split
  · rfl
  · split <;> rfl

/-! ## The call of `hystart_update` -/

/-- The call of `hystart_update` in `cubictcp_acked`: the socket at the call, and the delay sample. -/
def hystartCall (cfg : Config) (s : CubicSock) (rttUs now : U32) : Option (CubicSock × U32) :=
  if rttUs.toInt < 0 then none
  else if s.ca.epochStart ≠ 0 ∧ (now - s.ca.epochStart).signExtend 64 < cfg.hz then none
  else
    let delay := if rttUs = 0 then 1 else rttUs
    let delayMin := if s.ca.delayMin = 0 ∨ delay < s.ca.delayMin then delay else s.ca.delayMin
    let s := { s with ca := { s.ca with delayMin := delayMin } }
    if s.ca.found = 0 ∧ tcpInSlowStart s.tp ∧ hystart ∧ hystartLowWindow ≤ s.tp.sndCwnd then some (s, delay) else none

/-- The minimum of the delays is that of signed round-trip times. -/
theorem delayMin_lt {rttUs delayMin : U32} (hsign : ¬ rttUs.toInt < 0) (hmin : delayMin.toNat < 2 ^ 31) :
    (if delayMin = 0 ∨ (if rttUs = 0 then 1 else rttUs) < delayMin then (if rttUs = 0 then 1 else rttUs)
      else delayMin).toNat < 2 ^ 31 := by
  have hdelay : (if rttUs = 0 then 1 else rttUs).toNat < 2 ^ 31 := by
    split
    · decide
    · exact toNat_lt_of_not_neg hsign
  generalize (if rttUs = 0 then 1 else rttUs) = delay at hdelay ⊢
  split
  · exact hdelay
  · exact hmin

/-- `hystart_update` is called during slow start, on a socket in which at most `delay_min` has changed. -/
theorem hystartCall_spec {cfg : Config} {s s₁ : CubicSock} {rttUs now delay : U32}
    (h : hystartCall cfg s rttUs now = some (s₁, delay)) (hmin : s.ca.delayMin.toNat < 2 ^ 31) :
    s.ca.found = 0 ∧ ∃ delayMin : U32, delayMin.toNat < 2 ^ 31 ∧
      s₁ = { s with ca := { s.ca with delayMin := delayMin } } := by
  unfold hystartCall at h
  split at h
  · cases h
  · rename_i hsign
    split at h
    · cases h
    · simp only at h
      split at h
      · rename_i hcall
        cases h
        exact ⟨hcall.1, _, delayMin_lt hsign hmin, rfl⟩
      · cases h

/-- **`cubictcp_acked`** calls `hystart_update`, or it changes at most `delay_min`. -/
theorem cubictcpAcked_call {cfg : Config} {s s' : CubicSock} {rttUs now : U32}
    (h : cubictcpAcked cfg s rttUs now = some s') (hmin : s.ca.delayMin.toNat < 2 ^ 31) :
    (∃ s₁ delay, hystartCall cfg s rttUs now = some (s₁, delay) ∧ hystartUpdate s₁ delay = some s') ∨
      (hystartCall cfg s rttUs now = none ∧ ∃ delayMin : U32, delayMin.toNat < 2 ^ 31 ∧
        s' = { s with ca := { s.ca with delayMin := delayMin } }) := by
  unfold cubictcpAcked at h
  unfold hystartCall
  split at h
  · rename_i hsign
    cases h
    exact Or.inr ⟨if_pos hsign, s.ca.delayMin, hmin, rfl⟩
  · rename_i hsign
    rw [if_neg hsign]
    split at h
    · rename_i hepoch
      cases h
      exact Or.inr ⟨if_pos hepoch, s.ca.delayMin, hmin, rfl⟩
    · rename_i hepoch
      rw [if_neg hepoch]
      simp only at h ⊢
      split at h
      · rename_i hcall
        rw [if_pos hcall]
        exact Or.inl ⟨_, _, rfl, h⟩
      · rename_i hcall
        rw [if_neg hcall]
        cases h
        exact Or.inr ⟨rfl, _, delayMin_lt hsign hmin, rfl⟩

/-- `cubictcp_acked` leaves the fields of `bictcp_update` alone. -/
theorem cubictcpAcked_window {cfg : Config} {s s' : CubicSock} {rttUs now : U32}
    (h : cubictcpAcked cfg s rttUs now = some s') : s'.ca.window = s.ca.window := by
  have hsample (s₁ s₂ : CubicSock) (delay : U32) (hrun : hystartUpdate s₁ delay = some s₂) :
      s₂.ca.window = s₁.ca.window := by
    obtain ⟨s₃, htrain, rfl⟩ := hystartUpdate_branches hrun
    rw [hystartDelaySample_window, (hystartTrain_frame htrain).2.2.2.1]
  unfold cubictcpAcked at h
  split at h
  · cases h
    rfl
  · split at h
    · cases h
      rfl
    · simp only at h
      split at h
      · have hwindow := hsample _ _ _ h
        exact hwindow
      · cases h
        rfl

/-! ## The call of `bictcp_update` -/

/-- The call of `bictcp_update` in `cubictcp_cong_avoid`: the socket at the call, and the ACKed packets. -/
def updateCall (s : CubicSock) (ack acked : U32) : Option (CubicSock × U32) :=
  if !tcpIsCwndLimited s.tp then none
  else if tcpInSlowStart s.tp then
    let (s, left) := cubictcpSlowStart s ack acked
    if left = 0 then none else some (s, left)
  else some (s, acked)

/-- `cubictcp_cong_avoid` starts a new HyStart round. -/
def hystartResets (s : CubicSock) (ack : U32) : Bool :=
  tcpIsCwndLimited s.tp && tcpInSlowStart s.tp && hystart && after ack s.ca.endSeq

/-- A new round leaves the fields of `bictcp_update` alone. -/
theorem hystartResets_window (s : CubicSock) (ack : U32) :
    (if hystartResets s ack then bictcpHystartReset s else s).ca.window = s.ca.window := by
  split <;> rfl

/-- The private area when `bictcp_update` is called. -/
theorem updateCall_ca {s s₁ : CubicSock} {ack acked left : U32} (h : updateCall s ack acked = some (s₁, left)) :
    s₁.ca = (if hystartResets s ack then bictcpHystartReset s else s).ca := by
  unfold updateCall at h
  unfold hystartResets
  cases hlimited : tcpIsCwndLimited s.tp with
  | false => simp [hlimited] at h
  | true =>
    cases hslow : tcpInSlowStart s.tp with
    | false =>
      simp only [hlimited, hslow, Bool.not_true, Bool.false_eq_true, if_false, Option.some.injEq, Prod.mk.injEq] at h
      rw [← h.1]
      rfl
    | true =>
      simp only [hlimited, hslow, Bool.not_true, Bool.false_eq_true, if_false, if_true] at h
      split at h
      · cases h
      · cases h
        rfl

/-- **`cubictcp_cong_avoid`** leaves the private area as the reset of the round and the call of `bictcp_update` leave
it. -/
theorem cubictcpCongAvoid_ca {cfg : Config} {s s' : CubicSock} {ack acked : U32} {clk : Jiffies}
    (h : cubictcpCongAvoid cfg s ack acked clk = some s') :
    (updateCall s ack acked = none ∧ s'.ca = (if hystartResets s ack then bictcpHystartReset s else s).ca) ∨
      ∃ s₁ left, updateCall s ack acked = some (s₁, left) ∧
        bictcpUpdate cfg s₁.ca s₁.tp.sndCwnd left clk = some s'.ca := by
  obtain ⟨⟨s₂, call⟩, hcall, h⟩ := Option.bind_eq_some_iff.mp h
  have hupdate (s₁ : CubicSock) (left : U32) (hrun : cubictcpUpdateCall cfg s₁ left clk = some (s₂, call)) :
      bictcpUpdate cfg s₁.ca s₁.tp.sndCwnd left clk = some s'.ca := by
    obtain ⟨ca, hca, heq⟩ := Option.map_eq_some_iff.mp hrun
    cases heq
    obtain ⟨tp, -, rfl⟩ := Option.map_eq_some_iff.mp h
    exact hca
  unfold cubictcpAiCall at hcall
  unfold updateCall hystartResets
  cases hlimited : tcpIsCwndLimited s.tp with
  | false =>
    rw [hlimited, Bool.not_false, if_pos rfl] at hcall
    cases hcall
    cases h
    exact Or.inl ⟨rfl, rfl⟩
  | true =>
    rw [hlimited, Bool.not_true, if_neg Bool.false_ne_true] at hcall
    cases hslow : tcpInSlowStart s.tp with
    | false =>
      rw [hslow, if_neg Bool.false_ne_true] at hcall
      exact Or.inr ⟨s, acked, rfl, hupdate s acked hcall⟩
    | true =>
      rw [hslow, if_pos rfl] at hcall
      simp only at hcall
      split at hcall
      · rename_i hzero
        cases hcall
        cases h
        exact Or.inl ⟨if_pos hzero, rfl⟩
      · rename_i hleft
        exact Or.inr ⟨_, _, if_neg hleft, hupdate _ _ hcall⟩

/-! ## What `bictcp_update` leaves alone -/

/-- The fields of HyStart. -/
structure Round where
  delayMin : U32
  sampleCnt : U8
  found : U8
  roundStart : U32
  endSeq : U32
  lastAck : U32
  currRtt : U32
deriving Repr, DecidableEq

def Bictcp.round (ca : Bictcp) : Round :=
  ⟨ca.delayMin, ca.sampleCnt, ca.found, ca.roundStart, ca.endSeq, ca.lastAck, ca.currRtt⟩

/-- `bictcp_reset` forgets the minimum of the connection. -/
theorem bictcpReset_delayMin (ca : Bictcp) : (bictcpReset ca).delayMin.toNat < 2 ^ 31 := by
  show (0 : U32).toNat < 2 ^ 31
  decide

theorem bictcpOpenEpoch_round {ca ca' : Bictcp} {cwnd acked start : U32}
    (h : bictcpOpenEpoch ca cwnd acked start = some ca') : ca'.round = ca.round := by
  unfold bictcpOpenEpoch at h
  simp only at h
  split at h
  · cases h
    rfl
  · obtain ⟨k, -, rfl⟩ := Option.map_eq_some_iff.mp h
    rfl

theorem bictcpRecord_round {ca ca' : Bictcp} {cwnd acked : U32} {clk : Jiffies}
    (h : bictcpRecord ca cwnd acked clk = some ca') : ca'.round = ca.round := by
  unfold bictcpRecord at h
  simp only at h
  split at h
  · have hround := bictcpOpenEpoch_round h
    exact hround
  · cases h
    rfl

/-- The friendliness code writes three fields only. -/
theorem bictcpFriendliness_frame {cfg : Config} {ca ca' : Bictcp} {cwnd : U32}
    (h : bictcpFriendliness cfg ca cwnd = some ca') :
    ca' = { ca with ackCnt := ca'.ackCnt, tcpCwnd := ca'.tcpCwnd, cnt := ca'.cnt } := by
  obtain ⟨ca₁, htcp, h⟩ := Option.bind_eq_some_iff.mp h
  have hframe : ca₁ = { ca with ackCnt := ca₁.ackCnt, tcpCwnd := ca₁.tcpCwnd } := by
    unfold bictcpTcpCwnd at htcp
    simp only at htcp
    split at htcp
    · obtain ⟨n, -, rfl⟩ := Option.map_eq_some_iff.mp htcp
      rfl
    · cases htcp
      rfl
  rw [hframe] at h
  simp only at h
  split at h
  · obtain ⟨maxCnt, -, rfl⟩ := Option.map_eq_some_iff.mp h
    rfl
  · cases h
    rfl

/-- `bictcp_update` leaves HyStart alone. -/
theorem bictcpUpdate_round {cfg : Config} {ca ca' : Bictcp} {cwnd acked : U32} {clk : Jiffies}
    (h : bictcpUpdate cfg ca cwnd acked clk = some ca') : ca'.round = ca.round := by
  cases bictcpUpdate_way h with
  | early => rfl
  | friendly _ _ _ hblock =>
    have hround := congrArg Bictcp.round (bictcpFriendliness_frame hblock)
    exact hround
  | @cubic ca₁ ca₂ cnt _ hrecord _ hblock =>
    have hrecorded := bictcpRecord_round hrecord
    have hround : ca₂.round = ca₁.round := by
      have hframe := congrArg Bictcp.round (bictcpFriendliness_frame hblock)
      exact hframe
    exact hround.trans hrecorded

/-- `cubictcp_cong_avoid` touches HyStart only to start a new round. -/
theorem cubictcpCongAvoid_round {cfg : Config} {s s' : CubicSock} {ack acked : U32} {clk : Jiffies}
    (h : cubictcpCongAvoid cfg s ack acked clk = some s') :
    s'.ca.round = (if hystartResets s ack then bictcpHystartReset s else s).ca.round := by
  rcases cubictcpCongAvoid_ca h with ⟨-, hca⟩ | ⟨s₁, left, hcall, hupdate⟩
  · rw [hca]
  · rw [bictcpUpdate_round hupdate, updateCall_ca hcall]

end CoupledCC.Cubic
