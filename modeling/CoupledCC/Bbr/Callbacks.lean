import CoupledCC.Lib.Trace
import CoupledCC.Bbr.Model

/-!
# The callbacks of BBR

The window of an ACK (`bbr_set_cwnd`), the callbacks of `tcp_bbr_cong_ops` that write, and the runs of the controller:
the callbacks come in any order with any arguments, `bbr_init` may be called again, and between them the kernel may
write the socket. `bbr_sndbuf_expand` and `bbr_get_info` only read.
-/

namespace CoupledCC.Bbr

open Word Runs

variable {M : Type} (k : Kernel M)

/-! ## The window -/

/-- An ACK of P packets releases at most 2P: first the lost packets are deducted. -/
def bbrDeductLosses (rs : RateSample) (cwnd : U32) : U32 :=
  if 0 < rs.losses.toInt then smax (cwnd - rs.losses) 1 else cwnd

/-- The window when recovery is entered or left. -/
def bbrRecoverOrRestore (s : BbrSock M) (rs : RateSample) (acked : U32) : Bbr M × U32 :=
  let prevState : U8 := s.ca.prevCaState.setWidth 8
  let state := s.tp.icskCaState
  let cwnd := bbrDeductLosses rs s.tp.sndCwnd
  if state = tcpCaRecovery ∧ prevState ≠ tcpCaRecovery then
    -- the first round of recovery conserves packets
    ({ s.ca with packetConservation := true, nextRttDelivered := s.tp.delivered }, s.tp.packetsInFlight + acked)
  else if tcpCaRecovery ≤ prevState ∧ state < tcpCaRecovery then
    ({ s.ca with packetConservation := false }, umax cwnd s.ca.priorCwnd)
  else (s.ca, cwnd)

/-- The socket after it, the window, and whether packets are conserved. -/
def bbrSetCwndToRecoverOrRestore (s : BbrSock M) (rs : RateSample) (acked : U32) : BbrSock M × U32 × Bool :=
  let (ca, cwnd) := bbrRecoverOrRestore s rs acked
  let s := { s with ca := { ca with prevCaState := s.tp.icskCaState.setWidth 3 } }
  if s.ca.packetConservation then (s, umax cwnd (s.tp.packetsInFlight + acked), true) else (s, cwnd, false)

/-- Slow start towards the target, or down to it once the pipe is full. -/
def bbrGrowCwnd (s : BbrSock M) (cwnd acked bw : U32) (gain : U64) : U32 :=
  let targetCwnd := bbrQuantizationBudget k s (bbrBdp s bw gain + bbrAckAggregationCwnd k s)
  let cwnd :=
    if s.ca.fullBwReached then umin (cwnd + acked) targetCwnd
    else if cwnd < targetCwnd ∨ s.tp.delivered < tcpInitCwnd then cwnd + acked
    else cwnd
  umax cwnd bbrCwndMinTarget

/-- The global cap, and that of `BBR_PROBE_RTT`. -/
def bbrCapCwnd (s : BbrSock M) (cwnd : U32) : BbrSock M :=
  let cwnd := umin cwnd s.tp.sndCwndClamp
  let cwnd := if s.ca.mode = .probeRtt then umin cwnd bbrCwndMinTarget else cwnd
  { s with tp := { s.tp with sndCwnd := cwnd } }

def bbrSetCwnd (s : BbrSock M) (rs : RateSample) (acked bw : U32) (gain : U64) : BbrSock M :=
  -- no packet fully ACKed: just the caps
  if acked = 0 then bbrCapCwnd s s.tp.sndCwnd
  else
    match bbrSetCwndToRecoverOrRestore s rs acked with
    | (s, cwnd, true) => bbrCapCwnd s cwnd
    | (s, cwnd, false) => bbrCapCwnd s (bbrGrowCwnd k s cwnd acked bw gain)

/-! ## Callbacks -/

/-- The callback of an ACK. -/
def bbrMain (s : BbrSock M) (rs : RateSample) (clk : Clock) (rands : Rands) : BbrSock M :=
  let s := bbrUpdateModel k s rs clk rands
  let bw := bbrBw k s
  let s := bbrSetPacingRate s bw (s.ca.pacingGain.setWidth 64)
  bbrSetCwnd k s rs rs.ackedSacked bw (s.ca.cwndGain.setWidth 64)

/-- `bbr_init`; `now` is its reading of `tcp_jiffies32`. -/
def bbrInit (s : BbrSock M) (now : ℕ) : BbrSock M :=
  let s := {
    tp := { s.tp with sndSsthresh := tcpInfiniteSsthresh }
    ca := { s.ca with
      priorCwnd := 0
      rttCnt := 0
      nextRttDelivered := s.tp.delivered
      prevCaState := tcpCaOpen
      packetConservation := false
      probeRttDoneStamp := 0
      probeRttRoundDone := false
      minRttUs := s.tp.minRtt
      minRttStamp := tcpJiffies32 now
      bw := k.minmaxReset s.ca.bw 0 0
      hasSeenRtt := false } }
  let s := bbrInitPacingRateFromRtt s
  let s := { s with ca := { s.ca with
    roundStart := false
    idleRestart := false
    fullBwReached := false
    fullBw := 0
    fullBwCnt := 0
    cycleMstamp := 0
    cycleIdx := 0 } }
  let s := bbrResetStartupMode (bbrResetLtBwSampling s)
  { tp := { s.tp with
      skPacingStatus := if s.tp.skPacingStatus = skPacingNone then skPacingNeeded else s.tp.skPacingStatus }
    ca := { s.ca with
      ackEpochMstamp := s.tp.tcpMstamp
      ackEpochAcked := 0
      extraAckedWinRtts := 0
      extraAckedWinIdx := false
      extraAcked0 := 0
      extraAcked1 := 0 } }

/-- A restart from idle, limited by the application. -/
def bbrRestartIdle (s : BbrSock M) : BbrSock M :=
  { s with ca := { s.ca with idleRestart := true, ackEpochMstamp := s.tp.tcpMstamp, ackEpochAcked := 0 } }

def bbrCwndEvent (s : BbrSock M) (event : CaEvent) (check restart : ℕ) (rand : U32) : BbrSock M :=
  if event = .txStart ∧ s.tp.appLimited ≠ 0 then
    let s := bbrRestartIdle s
    if s.ca.mode = .probeBw then bbrSetPacingRate s (bbrBw k s) bbrUnit
    else if s.ca.mode = .probeRtt then bbrCheckProbeRttDone s check restart rand
    else s
  else s

/-- Entering loss recovery; the result is `snd_ssthresh`. -/
def bbrSsthresh (s : BbrSock M) : BbrSock M × U32 :=
  (bbrSaveCwnd s, s.tp.sndSsthresh)

/-- The detection of a full pipe starts anew; the result is `snd_cwnd`. -/
def bbrUndoCwnd (s : BbrSock M) : BbrSock M × U32 :=
  (bbrResetLtBwSampling { s with ca := { s.ca with fullBw := 0, fullBwCnt := 0 } }, s.tp.sndCwnd)

/-- The rate sample of a timeout: one loss, everything else zero. -/
def lossSample : RateSample :=
  ⟨0, 0, 0, 0, 1, 0, 0, false, false⟩

def bbrSetState (s : BbrSock M) (newState : U8) (rand : U32) : BbrSock M :=
  if newState = tcpCaLoss then
    bbrLtBwSampling k
      { s with ca := { s.ca with prevCaState := tcpCaLoss.setWidth 3, fullBw := 0, roundStart := true } }
      lossSample rand
  else s

/-! ## Runs -/

/-- A callback with its arguments, its readings of the clock and its random numbers. -/
inductive Callback
  | main (rs : RateSample) (clk : Clock) (rands : Rands)
  | cwndEvent (event : CaEvent) (check restart : ℕ) (rand : U32)
  | ssthresh
  | undoCwnd
  | setState (newState : U8) (rand : U32)
deriving Repr, DecidableEq

def Callback.run (s : BbrSock M) : Callback → BbrSock M
  | .main rs clk rands => bbrMain k s rs clk rands
  | .cwndEvent event check restart rand => bbrCwndEvent k s event check restart rand
  | .ssthresh => (bbrSsthresh s).1
  | .undoCwnd => (bbrUndoCwnd s).1
  | .setState newState rand => bbrSetState k s newState rand

/-- What can happen to a connection. -/
inductive Action
  | init (now : ℕ)
  | kernel (tp : BbrTcp)
  | call (c : Callback)
deriving Repr, DecidableEq

def Action.run (s : BbrSock M) : Action → BbrSock M
  | .init now => bbrInit k s now
  | .kernel tp => { s with tp := tp }
  | .call c => c.run k s

/-- One action. -/
def Acts (s : BbrSock M) (a : Action) (s' : BbrSock M) : Prop :=
  a.run k s = s'

/-- The action is not a call of `bbr_init`. -/
def Action.NoInit : Action → Prop
  | .init _ => False
  | _ => True

/-- The action is none of `bbr_init`, `bbr_main` and `bbr_cwnd_event`, which alone may change the mode. -/
def Action.Quiet : Action → Prop
  | .init _ | .call (.main _ _ _) | .call (.cwndEvent _ _ _ _) => False
  | _ => True

end CoupledCC.Bbr
