import CoupledCC.Lib.Trace
import CoupledCC.Cubic.Bictcp

/-!
# The callbacks of the CUBIC controller

The callbacks the kernel invokes, and the runs of the controller: after `cubictcp_init` the callbacks come in any order
with any arguments and clock readings, and between them the kernel may write the socket, as long as the windows stay at
least 1 (`Step`).

- `Inv`: the invariant of the runs; a recorded window comes with a price of at least 2 (`step_inv`, `reach_inv`);
- `callback_total`: no callback divides by zero.
-/

namespace CoupledCC.Cubic

open Word Runs

/-- The socket and its private area. -/
structure CubicSock where
  tp : TcpSock
  ca : Bictcp
deriving Repr, DecidableEq

def tcpCaLoss : U8 := 4
def skPacingNone : U32 := 0
def initialSsthresh : U32 := 0
def hystart : Bool := true
def hystartLowWindow : U32 := 16
def hystartAckDeltaUs : Int := 2000
def hystartAckTrain : U32 := 1
def hystartDelay : U32 := 2
def hystartDetect : U32 := hystartAckTrain ||| hystartDelay
def hystartMinSamples : U8 := 8
def hystartDelayMin : U32 := 4000
def hystartDelayMax : U32 := 16000
def gsoMaxSize : U64 := 65536
def usecPerMsec : U64 := 1000

def hystartDelayThresh (x : U32) : U32 :=
  umin (umax x hystartDelayMin) hystartDelayMax

def bictcpClockUs (tp : TcpSock) : U32 :=
  tp.tcpMstamp.setWidth 32

def bictcpHystartReset (s : CubicSock) : CubicSock :=
  { s with ca := { s.ca with
    roundStart := bictcpClockUs s.tp
    lastAck := bictcpClockUs s.tp
    endSeq := s.tp.sndNxt
    currRtt := BitVec.allOnes 32
    sampleCnt := 0 } }

def cubictcpInit (s : CubicSock) : CubicSock :=
  let s := { s with ca := bictcpReset s.ca }
  let s := if hystart then bictcpHystartReset s else s
  if !hystart && initialSsthresh != 0 then { s with tp := { s.tp with sndSsthresh := initialSsthresh } } else s

def cubictcpCwndEvent (s : CubicSock) (event : CaEvent) (now : U32) : CubicSock :=
  if event = .txStart then
    let delta := now - s.tp.lsndtime
    -- application limited for a while: shift the epoch to keep growing along the curve
    if s.ca.epochStart ≠ 0 ∧ 0 < delta.toInt then
      let epochStart := s.ca.epochStart + delta
      { s with ca := { s.ca with epochStart := if after epochStart now then now else epochStart } }
    else s
  else s

/-- The slow-start block of `cubictcp_cong_avoid`; the result carries the ACKed packets that are left. -/
def cubictcpSlowStart (s : CubicSock) (ack acked : U32) : CubicSock × U32 :=
  let s := if hystart && after ack s.ca.endSeq then bictcpHystartReset s else s
  ({ s with tp := (tcpSlowStart s.tp acked).1 }, (tcpSlowStart s.tp acked).2)

/-- The call of `bictcp_update` in `cubictcp_cong_avoid`, with the ACKed packets it leaves for `tcp_cong_avoid_ai`. -/
def cubictcpUpdateCall (cfg : Config) (s : CubicSock) (acked : U32) (clk : Jiffies) :
    Option (CubicSock × Option U32) :=
  (bictcpUpdate cfg s.ca s.tp.sndCwnd acked clk).map fun ca => ({ s with ca := ca }, some acked)

/-- `cubictcp_cong_avoid` up to its call of `tcp_cong_avoid_ai`: the socket, and the `acked` of the call unless the
callback returns without it. -/
def cubictcpAiCall (cfg : Config) (s : CubicSock) (ack acked : U32) (clk : Jiffies) :
    Option (CubicSock × Option U32) :=
  if !tcpIsCwndLimited s.tp then some (s, none)
  else if tcpInSlowStart s.tp then
    let (s, left) := cubictcpSlowStart s ack acked
    if left = 0 then some (s, none) else cubictcpUpdateCall cfg s left clk
  else cubictcpUpdateCall cfg s acked clk

def cubictcpCongAvoid (cfg : Config) (s : CubicSock) (ack acked : U32) (clk : Jiffies) : Option CubicSock :=
  (cubictcpAiCall cfg s ack acked clk).bind fun call =>
    match call with
    | (s, none) => some s
    | (s, some acked) => (tcpCongAvoidAi s.tp s.ca.cnt acked).map fun tp => { s with tp := tp }

/-- The new slow-start threshold, and the end of the epoch. -/
def cubictcpRecalcSsthresh (cfg : Config) (s : CubicSock) : CubicSock × U32 :=
  let lastMaxCwnd :=
    -- Wmax and fast convergence
    if s.tp.sndCwnd < s.ca.lastMaxCwnd ∧ fastConvergence then
      (s.tp.sndCwnd * (bictcpBetaScale + cfg.beta)) / (2 * bictcpBetaScale)
    else s.tp.sndCwnd
  ({ s with ca := { s.ca with epochStart := 0, lastMaxCwnd := lastMaxCwnd } },
    umax ((s.tp.sndCwnd * cfg.beta) / bictcpBetaScale) 2)

def cubictcpState (s : CubicSock) (newState : U8) : CubicSock :=
  if newState = tcpCaLoss then bictcpHystartReset { s with ca := bictcpReset s.ca } else s

/-- The allowance for TSO/GRO delays, at most 1 ms. -/
def hystartAckDelay (tp : TcpSock) : Option U32 :=
  if tp.skPacingRate = 0 then some 0
  else (checkedDiv (gsoMaxSize * 4 * usecPerSec) tp.skPacingRate).map fun d => (umin usecPerMsec d).setWidth 32

/-- The end of slow start: `found` is set and the threshold lowered to the window. -/
def hystartFound (s : CubicSock) : CubicSock :=
  ⟨{ s.tp with sndSsthresh := s.tp.sndCwnd }, { s.ca with found := 1 }⟩

/-- First detection parameter: the ACK train. -/
def hystartTrain (s : CubicSock) : Option CubicSock :=
  let now := bictcpClockUs s.tp
  if (now - s.ca.lastAck).toInt ≤ hystartAckDeltaUs then
    (hystartAckDelay s.tp).map fun (allowance : U32) =>
      let s : CubicSock := { s with ca := { s.ca with lastAck := now } }
      let threshold : U32 := s.ca.delayMin + allowance
      -- pacing might have delayed packets up to RTT/2 during slow start
      let threshold := if s.tp.skPacingStatus = skPacingNone then threshold >>> 1 else threshold
      -- a signed difference compared with an unsigned threshold
      if threshold < now - s.ca.roundStart then hystartFound s else s
  else some s

/-- Second detection parameter: the minimum delay of the first samples of the round. -/
def hystartDelaySample (s : CubicSock) (delay : U32) : CubicSock :=
  if s.ca.sampleCnt < hystartMinSamples then
    { s with ca := { s.ca with
      currRtt := if delay < s.ca.currRtt then delay else s.ca.currRtt
      sampleCnt := s.ca.sampleCnt + 1 } }
  else if s.ca.delayMin + hystartDelayThresh (s.ca.delayMin >>> 3) < s.ca.currRtt then hystartFound s
  else s

def hystartUpdate (s : CubicSock) (delay : U32) : Option CubicSock :=
  (if hystartDetect &&& hystartAckTrain ≠ 0 then hystartTrain s else some s).map fun s =>
    if hystartDetect &&& hystartDelay ≠ 0 then hystartDelaySample s delay else s

def cubictcpAcked (cfg : Config) (s : CubicSock) (rttUs now : U32) : Option CubicSock :=
  -- some calls are for duplicates without timestamps
  if rttUs.toInt < 0 then some s
  -- discard delay samples right after fast recovery
  else if s.ca.epochStart ≠ 0 ∧ (now - s.ca.epochStart).signExtend 64 < cfg.hz then some s
  else
    let delay := if rttUs = 0 then 1 else rttUs
    let delayMin := if s.ca.delayMin = 0 ∨ delay < s.ca.delayMin then delay else s.ca.delayMin
    let s := { s with ca := { s.ca with delayMin := delayMin } }
    if s.ca.found = 0 ∧ tcpInSlowStart s.tp ∧ hystart ∧ hystartLowWindow ≤ s.tp.sndCwnd then hystartUpdate s delay
    else some s

/-! ## Runs -/

/-- A callback with its arguments and the clock readings it makes. -/
inductive Callback
  | congAvoid (ack acked : U32) (clk : Jiffies)
  | recalcSsthresh
  | state (newState : U8)
  | cwndEvent (event : CaEvent) (now : U32)
  | acked (rttUs now : U32)
deriving Repr, DecidableEq

def Callback.run (cfg : Config) (s : CubicSock) : Callback → Option CubicSock
  | .congAvoid ack n clk => cubictcpCongAvoid cfg s ack n clk
  | .recalcSsthresh => some (cubictcpRecalcSsthresh cfg s).1
  | .state newState => some (cubictcpState s newState)
  | .cwndEvent event now => some (cubictcpCwndEvent s event now)
  | .acked rttUs now => cubictcpAcked cfg s rttUs now

/-- At `cubictcp_cong_avoid` the window, its credits and the ACKed packets fit together in 32 bits. -/
def Callback.Fits (s : CubicSock) : Callback → Prop
  | .congAvoid _ n _ => s.tp.sndCwnd.toNat + s.tp.sndCwndCnt.toNat + n.toNat < 2 ^ 32
  | _ => True

/-- The three windows of a socket are at least 1. -/
structure Windows (tp : TcpSock) : Prop where
  cwnd : 1 ≤ tp.sndCwnd.toNat
  ssthresh : 1 ≤ tp.sndSsthresh.toNat
  clamp : 1 ≤ tp.sndCwndClamp.toNat

/-- The kernel writes the socket, or it invokes a callback. -/
inductive Event
  | kernel (tp : TcpSock)
  | call (c : Callback)
deriving Repr, DecidableEq

/-- One step of the controller. -/
inductive Step (cfg : Config) : CubicSock → Event → CubicSock → Prop
  | kernel {s : CubicSock} {tp : TcpSock} : Windows tp → Step cfg s (.kernel tp) { s with tp := tp }
  | call {s s' : CubicSock} {c : Callback} : c.Fits s → c.run cfg s = some s' → Step cfg s (.call c) s'

/-- A socket right after `cubictcp_init`. -/
def Started (s : CubicSock) : Prop :=
  ∃ s₀ : CubicSock, Windows s₀.tp ∧ s = cubictcpInit s₀

/-- The invariant: the windows are at least 1, and a recorded window comes with a price of at least 2. -/
structure Inv (s : CubicSock) : Prop where
  windows : Windows s.tp
  price : s.ca.lastCwnd = 0 ∨ 2 ≤ s.ca.cnt.toNat

theorem started_inv {s : CubicSock} (h : Started s) : Inv s := by
  obtain ⟨s₀, hw, rfl⟩ := h
  exact ⟨hw, Or.inl rfl⟩

/-! ### Callbacks that leave the price alone -/

/-- `s'` has the window, the credits, the clamp, the price and the recorded window of `s`; its threshold is at
least 1. -/
structure Keeps (s s' : CubicSock) : Prop where
  cwnd : s'.tp.sndCwnd = s.tp.sndCwnd
  cnt : s'.tp.sndCwndCnt = s.tp.sndCwndCnt
  clamp : s'.tp.sndCwndClamp = s.tp.sndCwndClamp
  ssthresh : 1 ≤ s'.tp.sndSsthresh.toNat
  price : s'.ca.cnt = s.ca.cnt
  lastCwnd : s'.ca.lastCwnd = s.ca.lastCwnd

theorem Keeps.inv {s s' : CubicSock} (h : Keeps s s') (hi : Inv s) : Inv s' :=
  ⟨⟨by rw [h.cwnd]; exact hi.windows.cwnd, h.ssthresh, by rw [h.clamp]; exact hi.windows.clamp⟩,
    by rw [h.price, h.lastCwnd]; exact hi.price⟩

/-- Callbacks that leave the socket alone and touch neither the price nor the recorded window. -/
theorem keeps_of_ca {s : CubicSock} (hi : Inv s) {ca : Bictcp} (hcnt : ca.cnt = s.ca.cnt)
    (hlast : ca.lastCwnd = s.ca.lastCwnd) : Keeps s { s with ca := ca } :=
  ⟨rfl, rfl, rfl, hi.windows.ssthresh, hcnt, hlast⟩

theorem Keeps.refl {s : CubicSock} (hi : Inv s) : Keeps s s :=
  keeps_of_ca hi rfl rfl

theorem Keeps.trans {s₁ s₂ s₃ : CubicSock} (h : Keeps s₁ s₂) (h' : Keeps s₂ s₃) : Keeps s₁ s₃ :=
  ⟨h'.cwnd.trans h.cwnd, h'.cnt.trans h.cnt, h'.clamp.trans h.clamp, h'.ssthresh, h'.price.trans h.price,
    h'.lastCwnd.trans h.lastCwnd⟩

theorem Keeps.ite {s a b : CubicSock} {p : Prop} [Decidable p] (ha : Keeps s a) (hb : Keeps s b) :
    Keeps s (if p then a else b) := by
  split
  · exact ha
  · exact hb

theorem hystartFound_keeps {s : CubicSock} (hi : Inv s) : Keeps s (hystartFound s) :=
  ⟨rfl, rfl, rfl, hi.windows.cwnd, rfl, rfl⟩

theorem hystartTrain_keeps {s : CubicSock} (hi : Inv s) : ∃ s', hystartTrain s = some s' ∧ Keeps s s' := by
  have hallow : ∃ allowance, hystartAckDelay s.tp = some allowance := by
    unfold hystartAckDelay
    split
    · exact ⟨_, rfl⟩
    · rename_i hrate
      rw [checkedDiv_ne hrate]
      exact ⟨_, rfl⟩
  obtain ⟨allowance, hallowance⟩ := hallow
  unfold hystartTrain
  rw [hallowance]
  have hack : Keeps s { s with ca := { s.ca with lastAck := bictcpClockUs s.tp } } := keeps_of_ca hi rfl rfl
  simp only [Option.map_some]
  split
  · exact ⟨_, rfl, Keeps.ite (hack.trans (hystartFound_keeps (hack.inv hi))) hack⟩
  · exact ⟨s, rfl, Keeps.refl hi⟩

theorem hystartDelaySample_keeps {s : CubicSock} (hi : Inv s) (delay : U32) :
    Keeps s (hystartDelaySample s delay) := by
  unfold hystartDelaySample
  exact Keeps.ite (keeps_of_ca hi rfl rfl) (Keeps.ite (hystartFound_keeps hi) (Keeps.refl hi))

theorem hystartUpdate_keeps {s : CubicSock} (hi : Inv s) (delay : U32) :
    ∃ s', hystartUpdate s delay = some s' ∧ Keeps s s' := by
  have htrain : hystartDetect &&& hystartAckTrain ≠ 0 := by decide
  have hdelay : hystartDetect &&& hystartDelay ≠ 0 := by decide
  obtain ⟨s₁, hs₁, hkeeps⟩ := hystartTrain_keeps hi
  refine ⟨hystartDelaySample s₁ delay, ?_, hkeeps.trans (hystartDelaySample_keeps (hkeeps.inv hi) delay)⟩
  rw [hystartUpdate, if_pos htrain, hs₁, Option.map_some, if_pos hdelay]

theorem cubictcpAcked_keeps (cfg : Config) {s : CubicSock} (hi : Inv s) (rttUs now : U32) :
    ∃ s', cubictcpAcked cfg s rttUs now = some s' ∧ Keeps s s' := by
  unfold cubictcpAcked
  split
  · exact ⟨s, rfl, Keeps.refl hi⟩
  · split
    · exact ⟨s, rfl, Keeps.refl hi⟩
    · have hmin (delayMin : U32) : Keeps s { s with ca := { s.ca with delayMin := delayMin } } :=
        keeps_of_ca hi rfl rfl
      simp only
      split
      · obtain ⟨s₁, hs₁, hkeeps⟩ := hystartUpdate_keeps ((hmin _).inv hi) (if rttUs = 0 then 1 else rttUs)
        exact ⟨s₁, hs₁, (hmin _).trans hkeeps⟩
      · exact ⟨_, rfl, hmin _⟩

theorem cubictcpRecalcSsthresh_keeps (cfg : Config) {s : CubicSock} (hi : Inv s) :
    Keeps s (cubictcpRecalcSsthresh cfg s).1 :=
  keeps_of_ca hi rfl rfl

theorem cubictcpCwndEvent_keeps {s : CubicSock} (hi : Inv s) (event : CaEvent) (now : U32) :
    Keeps s (cubictcpCwndEvent s event now) := by
  unfold cubictcpCwndEvent
  exact Keeps.ite (Keeps.ite (keeps_of_ca hi rfl rfl) (Keeps.refl hi)) (Keeps.refl hi)

/-- A loss forgets the recorded window, and nothing else changes the price. -/
theorem cubictcpState_cases {s : CubicSock} (hi : Inv s) (newState : U8) :
    (cubictcpState s newState).tp = s.tp ∧ Inv (cubictcpState s newState) := by
  unfold cubictcpState
  split
  · exact ⟨rfl, hi.windows, Or.inl rfl⟩
  · exact ⟨rfl, hi⟩

/-! ### The congestion-avoidance callback -/

/-- The socket `s₁` and the ACKed packets `left` of a call of `tcp_cong_avoid_ai` made from `s`: the windows and the
price are in order, and no sum of the call wraps. -/
structure GoodCall (s s₁ : CubicSock) (left : U32) : Prop where
  windows : Windows s₁.tp
  price : 2 ≤ s₁.ca.cnt.toNat
  fits : s₁.tp.sndCwnd.toNat + s₁.tp.sndCwndCnt.toNat + left.toNat < 2 ^ 32
  cnt : s₁.tp.sndCwndCnt = s.tp.sndCwndCnt

/-- `bictcp_update` on a window of at least 1 keeps the invariant and gives a price of at least 2. -/
theorem update_inv {cfg : Config} {s : CubicSock} {acked : U32} {clk : Jiffies} {ca : Bictcp} (hi : Inv s)
    (h : bictcpUpdate cfg s.ca s.tp.sndCwnd acked clk = some ca) : 2 ≤ ca.cnt.toNat := by
  rcases bictcpUpdate_cnt h with ⟨rfl, hlast⟩ | hcnt
  · rcases hi.price with hzero | hprice
    · -- the early return needs a recorded window, and no window is 0
      have hpos := hi.windows.cwnd
      rw [← hlast, hzero] at hpos
      simp at hpos
    · exact hprice
  · exact hcnt

/-- The socket after the slow-start block. -/
theorem cubictcpSlowStart_inv {s : CubicSock} (hi : Inv s) (ack : U32) {acked : U32}
    (hfit : s.tp.sndCwnd.toNat + acked.toNat < 2 ^ 32) (hslow : s.tp.sndCwnd.toNat < s.tp.sndSsthresh.toNat) :
    Inv (cubictcpSlowStart s ack acked).1 ∧
      (cubictcpSlowStart s ack acked).1.tp.sndCwnd.toNat + (cubictcpSlowStart s ack acked).2.toNat ≤
        s.tp.sndCwnd.toNat + acked.toNat ∧
      (cubictcpSlowStart s ack acked).1.tp.sndCwndCnt = s.tp.sndCwndCnt := by
  have hreset : ∀ s₁ : CubicSock, s₁ = (if hystart && after ack s.ca.endSeq then bictcpHystartReset s else s) →
      s₁.tp = s.tp ∧ Inv s₁ := by
    rintro s₁ rfl
    split
    · exact ⟨rfl, hi.windows, hi.price⟩
    · exact ⟨rfl, hi⟩
  obtain ⟨htp, hinv⟩ := hreset _ rfl
  obtain ⟨hcwnd, hleft⟩ := tcpSlowStart_toNat hfit
  have hw := hi.windows.cwnd
  have hc := hi.windows.clamp
  simp only [cubictcpSlowStart]
  rw [htp]
  exact ⟨⟨⟨by simp only; omega, hi.windows.ssthresh, hi.windows.clamp⟩, hinv.price⟩, by omega, rfl⟩

/-- **The call of `tcp_cong_avoid_ai`.** The callback gets there without a fault; it returns before the call in a
socket with the invariant, or the call is good. -/
theorem cubictcpAiCall_spec (cfg : Config) {s : CubicSock} (hi : Inv s) (ack : U32) {acked : U32} (clk : Jiffies)
    (hfit : s.tp.sndCwnd.toNat + s.tp.sndCwndCnt.toNat + acked.toNat < 2 ^ 32) :
    ∃ s₁ call, cubictcpAiCall cfg s ack acked clk = some (s₁, call) ∧
      (call = none → Inv s₁ ∧ s₁.tp.sndCwndCnt = s.tp.sndCwndCnt) ∧ ∀ left, call = some left → GoodCall s s₁ left := by
  have hupdate : ∀ (s₁ : CubicSock) (left : U32), Inv s₁ → s₁.tp.sndCwndCnt = s.tp.sndCwndCnt →
      s₁.tp.sndCwnd.toNat + left.toNat ≤ s.tp.sndCwnd.toNat + acked.toNat →
      ∃ s₂ call, cubictcpUpdateCall cfg s₁ left clk = some (s₂, call) ∧
        (call = none → Inv s₂ ∧ s₂.tp.sndCwndCnt = s.tp.sndCwndCnt) ∧
        ∀ left', call = some left' → GoodCall s s₂ left' := by
    intro s₁ left hi₁ hcnt hle
    obtain ⟨ca, hca⟩ := bictcpUpdate_total cfg s₁.ca s₁.tp.sndCwnd left clk
    refine ⟨{ s₁ with ca := ca }, some left, by rw [cubictcpUpdateCall, hca]; rfl, by simp, ?_⟩
    rintro left' hleft'
    cases hleft'
    exact ⟨hi₁.windows, update_inv hi₁ hca, by simp only [hcnt]; omega, hcnt⟩
  unfold cubictcpAiCall
  split
  · exact ⟨s, none, rfl, fun _ => ⟨hi, rfl⟩, by simp⟩
  · split
    · rename_i hslow
      have hwrap : s.tp.sndCwnd.toNat + acked.toNat < 2 ^ 32 := by omega
      obtain ⟨hi₁, hle, hcnt⟩ := cubictcpSlowStart_inv hi ack hwrap
        ((tcpInSlowStart_iff s.tp).mp hslow)
      simp only
      split
      · exact ⟨_, none, rfl, fun _ => ⟨hi₁, hcnt⟩, by simp⟩
      · exact hupdate _ _ hi₁ hcnt hle
    · exact hupdate s acked hi rfl (le_refl _)

/-- A good call returns, and every packet it adds costs two credits. -/
theorem GoodCall.growth {s s₁ : CubicSock} {left : U32} (h : GoodCall s s₁ left) :
    ∃ cwnd cnt, tcpCongAvoidAi s₁.tp s₁.ca.cnt left = some (s₁.tp.withWindow cwnd cnt) ∧ 1 ≤ cwnd.toNat ∧
      2 * ((cwnd.toNat : ℤ) - s₁.tp.sndCwnd.toNat) + cnt.toNat ≤ s₁.tp.sndCwndCnt.toNat + left.toNat := by
  have hpos : 0 < s₁.ca.cnt.toNat := by have := h.price; omega
  obtain ⟨hcnt, hwin⟩ := increase_fits hpos h.fits
  obtain ⟨cwnd, cnt, hrun, hcredit⟩ := tcpCongAvoidAi_spec s₁.tp hpos hcnt hwin
  have hbound := Credit.increase_bound h.price left.toNat s₁.tp.credit
  have hgrow : s₁.tp.sndCwnd.toNat ≤ (Credit.increase s₁.ca.cnt.toNat left.toNat s₁.tp.credit).win :=
    Credit.le_increase_win _ _ s₁.tp.credit
  have hw := h.windows.cwnd
  have hc := h.windows.clamp
  simp only [Credit.cap, Credit.mk.injEq] at hcredit
  simp only [TcpSock.credit] at hbound hcredit hgrow
  exact ⟨cwnd, cnt, hrun, by omega, by omega⟩

/-- In congestion avoidance the call is made on the socket's own windows. -/
theorem cubictcpAiCall_avoidance {cfg : Config} {s s₁ : CubicSock} {ack acked : U32} {clk : Jiffies}
    {call : Option U32} (hslow : tcpInSlowStart s.tp = false)
    (h : cubictcpAiCall cfg s ack acked clk = some (s₁, call)) :
    s₁.tp = s.tp ∧ ∀ left, call = some left → left = acked := by
  unfold cubictcpAiCall at h
  split at h
  · cases h
    exact ⟨rfl, by simp⟩
  · rw [hslow, if_neg (by decide)] at h
    obtain ⟨ca, -, hca⟩ := Option.map_eq_some_iff.mp h
    cases hca
    exact ⟨rfl, fun left hleft => (Option.some.inj hleft).symm⟩

/-- **`cubictcp_cong_avoid`.** It returns, it keeps the invariant, and in congestion avoidance every packet it adds
costs two credits. -/
theorem cubictcpCongAvoid_spec (cfg : Config) {s : CubicSock} (hi : Inv s) {ack acked : U32} (clk : Jiffies)
    (hfit : s.tp.sndCwnd.toNat + s.tp.sndCwndCnt.toNat + acked.toNat < 2 ^ 32) :
    ∃ s', cubictcpCongAvoid cfg s ack acked clk = some s' ∧ Inv s' ∧ (tcpInSlowStart s.tp = false →
      2 * ((s'.tp.sndCwnd.toNat : ℤ) - s.tp.sndCwnd.toNat) + s'.tp.sndCwndCnt.toNat ≤
        s.tp.sndCwndCnt.toNat + acked.toNat) := by
  obtain ⟨s₁, call, hcall, hnone, hsome⟩ := cubictcpAiCall_spec cfg hi ack clk hfit
  unfold cubictcpCongAvoid
  rw [hcall, Option.bind_some]
  cases call with
  | none =>
    obtain ⟨hi₁, -⟩ := hnone rfl
    refine ⟨s₁, rfl, hi₁, fun hslow => ?_⟩
    rw [(cubictcpAiCall_avoidance hslow hcall).1]
    omega
  | some left =>
    have hgood := hsome left rfl
    obtain ⟨cwnd, cnt, hai, hpos, hgrowth⟩ := hgood.growth
    refine ⟨{ s₁ with tp := s₁.tp.withWindow cwnd cnt }, by simp only [hai]; rfl, ?_, fun hslow => ?_⟩
    · exact ⟨⟨hpos, hgood.windows.ssthresh, hgood.windows.clamp⟩, Or.inr hgood.price⟩
    · obtain ⟨htp, hleft⟩ := cubictcpAiCall_avoidance hslow hcall
      rw [htp, hleft left rfl] at hgrowth
      exact hgrowth

/-! ### All callbacks -/

/-- The packets a callback acknowledges in congestion avoidance. -/
def Callback.packets : Callback → ℕ
  | .congAvoid _ n _ => n.toNat
  | _ => 0

/-- An ACK that arrives in congestion avoidance. -/
def Callback.Avoids (s : CubicSock) : Callback → Prop
  | .congAvoid _ _ _ => tcpInSlowStart s.tp = false
  | _ => True

theorem Keeps.growth {s s' : CubicSock} (h : Keeps s s') :
    2 * ((s'.tp.sndCwnd.toNat : ℤ) - s.tp.sndCwnd.toNat) + s'.tp.sndCwndCnt.toNat ≤ s.tp.sndCwndCnt.toNat := by
  rw [h.cwnd, h.cnt]
  omega

/-- **What a callback does.** It returns, it keeps the invariant, and outside slow start every packet it adds costs two
credits. -/
theorem Callback.run_spec (cfg : Config) {s : CubicSock} (hi : Inv s) {c : Callback} (hfit : c.Fits s) :
    ∃ s', c.run cfg s = some s' ∧ Inv s' ∧ (c.Avoids s →
      2 * ((s'.tp.sndCwnd.toNat : ℤ) - s.tp.sndCwnd.toNat) + s'.tp.sndCwndCnt.toNat ≤
        s.tp.sndCwndCnt.toNat + c.packets) := by
  have hkept : ∀ s', Keeps s s' → Inv s' ∧ (c.Avoids s →
      2 * ((s'.tp.sndCwnd.toNat : ℤ) - s.tp.sndCwnd.toNat) + s'.tp.sndCwndCnt.toNat ≤
        s.tp.sndCwndCnt.toNat + c.packets) :=
    fun s' h => ⟨h.inv hi, fun _ => h.growth.trans (by omega)⟩
  cases c with
  | congAvoid ack n clk => exact cubictcpCongAvoid_spec cfg hi clk hfit
  | recalcSsthresh => exact ⟨_, rfl, hkept _ (cubictcpRecalcSsthresh_keeps cfg hi)⟩
  | state newState =>
    obtain ⟨htp, hinv⟩ := cubictcpState_cases hi newState
    refine ⟨_, rfl, hinv, fun _ => ?_⟩
    rw [htp]
    omega
  | cwndEvent event now => exact ⟨_, rfl, hkept _ (cubictcpCwndEvent_keeps hi event now)⟩
  | acked rttUs now =>
    obtain ⟨s', hs', hkeeps⟩ := cubictcpAcked_keeps cfg hi rttUs now
    exact ⟨s', hs', hkept s' hkeeps⟩

/-- Every step keeps the invariant. -/
theorem step_inv {cfg : Config} (s : CubicSock) (e : Event) (s' : CubicSock) (hi : Inv s) (h : Step cfg s e s') :
    Inv s' := by
  cases h with
  | kernel hw => exact ⟨hw, hi.price⟩
  | call hfit hrun =>
    obtain ⟨s₁, hs₁, hinv, -⟩ := Callback.run_spec cfg hi hfit
    rw [hs₁] at hrun
    cases hrun
    exact hinv

/-- The invariant holds in every state a run reaches. -/
theorem reach_inv {cfg : Config} {s : CubicSock} (h : Reach (Step cfg) Started s) : Inv s :=
  h.invariant (fun _ => started_inv) step_inv

/-- **No callback of a run divides by zero.** -/
theorem callback_total {cfg : Config} {s : CubicSock} (h : Reach (Step cfg) Started s) {c : Callback}
    (hfit : c.Fits s) : ∃ s', c.run cfg s = some s' := by
  obtain ⟨s', hs', -⟩ := Callback.run_spec cfg (reach_inv h) hfit
  exact ⟨s', hs'⟩

end CoupledCC.Cubic
