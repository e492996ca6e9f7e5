import CoupledCC.Tcp.Sock

/-!
# The data of the BBR controller

`struct bbr` with the widths of its bit-fields, the fields of the socket BBR reads, and the rate sample of an ACK. What
the kernel computes is a parameter (`Kernel`): the windowed maximum filter, `tcp_stamp_us_delta`, `msecs_to_jiffies`,
and the distance `abs` gives. The signed fields of `struct rate_sample` are words read with `toInt`.
-/

namespace CoupledCC

/-- `enum bbr_mode`. -/
inductive BbrMode
  | startup
  | drain
  | probeBw
  | probeRtt
deriving Repr, DecidableEq

/-- `struct bbr`. -/
structure Bbr (M : Type) where
  minRttUs : U32
  minRttStamp : U32
  probeRttDoneStamp : U32
  bw : M
  rttCnt : U32
  nextRttDelivered : U32
  cycleMstamp : U64
  mode : BbrMode
  prevCaState : BitVec 3
  packetConservation : Bool
  roundStart : Bool
  idleRestart : Bool
  probeRttRoundDone : Bool
  ltIsSampling : Bool
  ltRttCnt : BitVec 7
  ltUseBw : Bool
  ltBw : U32
  ltLastDelivered : U32
  ltLastStamp : U32
  ltLastLost : U32
  pacingGain : BitVec 10
  cwndGain : BitVec 10
  fullBwReached : Bool
  fullBwCnt : BitVec 2
  cycleIdx : BitVec 3
  hasSeenRtt : Bool
  priorCwnd : U32
  fullBw : U32
  ackEpochMstamp : U64
  extraAcked0 : U16
  extraAcked1 : U16
  ackEpochAcked : BitVec 20
  extraAckedWinRtts : BitVec 5
  extraAckedWinIdx : Bool
deriving Repr, DecidableEq

/-- The slot `extra_acked[idx]`. -/
def Bbr.extraAcked {M : Type} (ca : Bbr M) (idx : Bool) : U16 :=
  if idx then ca.extraAcked1 else ca.extraAcked0

def Bbr.setExtraAcked {M : Type} (ca : Bbr M) (idx : Bool) (extra : U16) : Bbr M :=
  if idx then { ca with extraAcked1 := extra } else { ca with extraAcked0 := extra }

namespace Bbr

open Word

/-- The parts of the kernel BBR calls, and its configuration; `M` is `struct minmax`. -/
structure Kernel (M : Type) where
  minmaxGet : M → U32
  minmaxReset : M → U32 → U32 → M
  minmaxRunningMax : M → U32 → U32 → U32 → M
  tcpStampUsDelta : U64 → U64 → U32
  msecsToJiffies : U32 → U64
  /-- `abs(bw - lt_bw)`, of the two operands. -/
  bwDistance : U32 → U32 → U32
  hz : U32
  maxTcpHeader : U64
  /-- 200 ms are less than half of the clock. -/
  msecsToJiffies_lt : (msecsToJiffies 200).toNat < 2 ^ 31

/-- A kernel with 1000 jiffies per second; its filter keeps the maximum of all samples, as the windowed one does within
the window. -/
def plainKernel : Kernel U32 where
  minmaxGet bw := bw
  minmaxReset _ _ meas := meas
  minmaxRunningMax bw _ _ meas := umax bw meas
  tcpStampUsDelta t1 t0 := (smax (t1 - t0) 0).setWidth 32
  msecsToJiffies m := m.setWidth 64
  bwDistance a b := if a < b then b - a else a - b
  hz := 1000
  maxTcpHeader := 320
  msecsToJiffies_lt := by decide

/-- The socket as BBR sees it; the last two fields are what `tcp_packets_in_flight` and `tcp_min_rtt` return. -/
structure BbrTcp extends TcpSock where
  appLimited : U32
  delivered : U32
  lost : U32
  deliveredMstamp : U64
  srttUs : U32
  mssCache : U32
  tcpClockCache : U64
  tcpWstampNs : U64
  skMaxPacingRate : U64
  skPacingShift : U8
  packetsInFlight : U32
  minRtt : U32
deriving Repr, DecidableEq

structure BbrSock (M : Type) where
  tp : BbrTcp
  ca : Bbr M
deriving Repr, DecidableEq

/-- A connection before `bbr_init`, with a window, packets in flight, and an RTT of 1 ms. -/
def plainSock (cwnd inFlight : U32) : BbrSock U32 where
  tp := {
    sndCwnd := cwnd
    sndCwndCnt := 0
    sndSsthresh := 100
    sndCwndClamp := 1000
    priorCwnd := 0
    maxPacketsOut := 0
    isCwndLimited := false
    sndNxt := 0
    lsndtime := 0
    tcpMstamp := 0
    icskCaState := 0
    skPacingRate := 0
    skPacingStatus := 0
    appLimited := 0
    delivered := 20
    lost := 0
    deliveredMstamp := 0
    srttUs := 8000
    mssCache := 1448
    tcpClockCache := 0
    tcpWstampNs := 0
    skMaxPacingRate := BitVec.allOnes 64
    skPacingShift := 10
    packetsInFlight := inFlight
    minRtt := 1000 }
  ca := {
    minRttUs := 0
    minRttStamp := 0
    probeRttDoneStamp := 0
    bw := 0
    rttCnt := 0
    nextRttDelivered := 0
    cycleMstamp := 0
    mode := .startup
    prevCaState := 0
    packetConservation := false
    roundStart := false
    idleRestart := false
    probeRttRoundDone := false
    ltIsSampling := false
    ltRttCnt := 0
    ltUseBw := false
    ltBw := 0
    ltLastDelivered := 0
    ltLastStamp := 0
    ltLastLost := 0
    pacingGain := 0
    cwndGain := 0
    fullBwReached := false
    fullBwCnt := 0
    cycleIdx := 0
    hasSeenRtt := false
    priorCwnd := 0
    fullBw := 0
    ackEpochMstamp := 0
    extraAcked0 := 0
    extraAcked1 := 0
    ackEpochAcked := 0
    extraAckedWinRtts := 0
    extraAckedWinIdx := false }

/-- The fields of `struct rate_sample` BBR reads; `delivered`, `interval_us`, `rtt_us` and `losses` are signed. -/
structure RateSample where
  priorDelivered : U32
  delivered : U32
  intervalUs : U64
  rttUs : U64
  losses : U32
  ackedSacked : U32
  priorInFlight : U32
  isAppLimited : Bool
  isAckDelayed : Bool
deriving Repr, DecidableEq

/-- The moments at which a call may read `tcp_jiffies32`, in their order. -/
structure Clock where
  expired : ℕ
  sample : ℕ
  stamp : ℕ
  check : ℕ
  restart : ℕ
deriving Repr, DecidableEq

/-- The results of `prandom_u32_max` a call of `bbr_main` may ask for. -/
structure Rands where
  sampling : U32
  drain : U32
  probeRtt : U32
deriving Repr, DecidableEq

/-- `tcp_jiffies32` at a moment. -/
def tcpJiffies32 (jiffies : ℕ) : U32 :=
  BitVec.ofNat 32 jiffies

def tcpCaOpen : BitVec 3 := 0
def tcpCaRecovery : U8 := 3
def tcpCaLoss : U8 := 4
def tcpInitCwnd : U32 := 10
def tcpInfiniteSsthresh : U32 := 0x7fffffff
def skPacingNone : U32 := 0
def skPacingNeeded : U32 := 1
def gsoMaxSize : U64 := 65536
def usecPerMsec : U64 := 1000
def usecPerSec : U64 := 1000000
def nsecPerUsec : U64 := 1000

def bwScale : Nat := 24
def bwUnit : U64 := 1 <<< bwScale
def bbrScale : Nat := 8
def bbrUnit : U64 := 1 <<< bbrScale
def cycleLen : U32 := 8

def bbrBwRtts : U32 := cycleLen + 2
def bbrMinRttWinSec : U32 := 10
def bbrProbeRttModeMs : U32 := 200
def bbrMinTsoRate : U64 := 1200000
def bbrPacingMarginPercent : U64 := 1
def bbrHighGain : U64 := bbrUnit * 2885 / 1000 + 1
def bbrDrainGain : U64 := bbrUnit * 1000 / 2885
def bbrCwndGain : U64 := bbrUnit * 2

/-- `bbr_pacing_gain[]`. -/
def bbrPacingGain (idx : BitVec 3) : U64 :=
  if idx = 0 then bbrUnit * 5 / 4 else if idx = 1 then bbrUnit * 3 / 4 else bbrUnit

def bbrCycleRand : U32 := 7
def bbrCwndMinTarget : U32 := 4
def bbrFullBwThresh : U64 := bbrUnit * 5 / 4
def bbrFullBwCnt : U32 := 3
def bbrLtIntvlMinRtts : U32 := 4
def bbrLtLossThresh : U32 := 50
def bbrLtBwRatio : U32 := 256 / 8
def bbrLtBwDiff : U64 := 4000 / 8
def bbrLtBwMaxRtts : U32 := 48
def bbrExtraAckedGain : U32 := 256
def bbrExtraAckedWinRtts : U32 := 5
def bbrAckEpochAckedResetThresh : U32 := 1 <<< 20
def bbrExtraAckedMaxUs : U64 := 100 * 1000

end Bbr

end CoupledCC
