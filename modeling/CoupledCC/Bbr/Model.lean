import CoupledCC.Bbr.Pacing

/-!
# The model of the path

`bbr_update_model`: the bandwidth sample and the long-term sampling of a policed rate, the aggregation of ACKs, the gain
cycle, the test for a full pipe, the drain, and the minimum RTT with its mode `BBR_PROBE_RTT`.
-/

namespace CoupledCC.Bbr

open Word

variable {M : Type} (k : Kernel M)

/-! ## Modes -/

def bbrAdvanceCyclePhase (s : BbrSock M) : BbrSock M :=
  { s with ca := { s.ca with
    cycleIdx := ((s.ca.cycleIdx.setWidth 32 + 1) &&& (cycleLen - 1)).setWidth 3
    cycleMstamp := s.tp.deliveredMstamp } }

def bbrResetStartupMode (s : BbrSock M) : BbrSock M :=
  { s with ca := { s.ca with mode := .startup } }

/-- Gain cycling from a phase drawn by `prandom_u32_max`. -/
def bbrResetProbeBwMode (s : BbrSock M) (rand : U32) : BbrSock M :=
  bbrAdvanceCyclePhase { s with ca := { s.ca with
    mode := .probeBw
    cycleIdx := (cycleLen - 1 - rand).setWidth 3 } }

def bbrResetMode (s : BbrSock M) (rand : U32) : BbrSock M :=
  if s.ca.fullBwReached then bbrResetProbeBwMode s rand else bbrResetStartupMode s

/-- End a cycle phase if it is time, or its in-flight target is reached. -/
def bbrIsNextCyclePhase (s : BbrSock M) (rs : RateSample) : Bool :=
  let isFullLength := decide (s.ca.minRttUs < k.tcpStampUsDelta s.tp.deliveredMstamp s.ca.cycleMstamp)
  let gain := s.ca.pacingGain.setWidth 64
  if gain = bbrUnit then isFullLength
  else
    let inflight := bbrPacketsInNetAtEdt k s rs.priorInFlight
    let bw := bbrMaxBw k s
    if bbrUnit < gain then isFullLength && decide (rs.losses ≠ 0 ∨ bbrInflight k s bw gain ≤ inflight)
    else isFullLength || decide (inflight ≤ bbrInflight k s bw bbrUnit)

def bbrUpdateCyclePhase (s : BbrSock M) (rs : RateSample) : BbrSock M :=
  if s.ca.mode = .probeBw ∧ bbrIsNextCyclePhase k s rs then bbrAdvanceCyclePhase s else s

/-! ## Long-term sampling -/

def bbrResetLtBwSamplingInterval (s : BbrSock M) : BbrSock M :=
  { s with ca := { s.ca with
    ltLastStamp := (s.tp.deliveredMstamp / usecPerMsec).setWidth 32
    ltLastDelivered := s.tp.delivered
    ltLastLost := s.tp.lost
    ltRttCnt := 0 } }

def bbrResetLtBwSampling (s : BbrSock M) : BbrSock M :=
  bbrResetLtBwSamplingInterval { s with ca := { s.ca with ltBw := 0, ltUseBw := false, ltIsSampling := false } }

/-- The end of a long-term interval: is the rate policed? -/
def bbrLtBwIntervalDone (s : BbrSock M) (bw : U32) : BbrSock M :=
  let diff := k.bwDistance bw s.ca.ltBw
  if s.ca.ltBw ≠ 0 ∧
      (diff * bbrUnit.setWidth 32 ≤ bbrLtBwRatio * s.ca.ltBw ∨
        bbrRateBytesPerSec s.tp (diff.setWidth 64) bbrUnit ≤ bbrLtBwDiff) then
    { s with ca := { s.ca with
      ltBw := (bw + s.ca.ltBw) >>> 1
      ltUseBw := true
      pacingGain := bbrUnit.setWidth 10
      ltRttCnt := 0 } }
  else bbrResetLtBwSamplingInterval { s with ca := { s.ca with ltBw := bw } }

/-- The measurement of an interval that ends with a loss. -/
def bbrLtBwMeasure (s : BbrSock M) : BbrSock M :=
  let lost := s.tp.lost - s.ca.ltLastLost
  let delivered := s.tp.delivered - s.ca.ltLastDelivered
  if delivered = 0 ∨ lost <<< bbrScale < bbrLtLossThresh * delivered then s
  else
    let t := (s.tp.deliveredMstamp / usecPerMsec).setWidth 32 - s.ca.ltLastStamp
    -- an interval of less than a millisecond waits, one whose microseconds do not fit is given up
    if t.toInt < 1 then s
    else if 0xffffffff / usecPerMsec.setWidth 32 ≤ t then bbrResetLtBwSampling s
    else
      let t := t * usecPerMsec.setWidth 32
      bbrLtBwIntervalDone k s ((delivered.setWidth 64 * bwUnit / t.setWidth 64).setWidth 32)

/-- One more round trip in the interval. -/
def bbrCountLtRtt (s : BbrSock M) : BbrSock M :=
  { s with ca := { s.ca with ltRttCnt := s.ca.ltRttCnt + 1 } }

/-- While `lt_bw` is used: after 48 rounds of probing, back to the sampled bandwidth. -/
def bbrLtBwInUse (s : BbrSock M) (rand : U32) : BbrSock M :=
  if s.ca.mode = .probeBw ∧ s.ca.roundStart then
    let s := bbrCountLtRtt s
    if bbrLtBwMaxRtts ≤ s.ca.ltRttCnt.setWidth 32 then bbrResetProbeBwMode (bbrResetLtBwSampling s) rand else s
  else s

/-- A sampling interval in progress. -/
def bbrLtBwSample (s : BbrSock M) (rs : RateSample) : BbrSock M :=
  if rs.isAppLimited then bbrResetLtBwSampling s
  else
    let s := if s.ca.roundStart then bbrCountLtRtt s else s
    let rtts : U32 := s.ca.ltRttCnt.setWidth 32
    if rtts < bbrLtIntvlMinRtts then s
    else if 4 * bbrLtIntvlMinRtts < rtts then bbrResetLtBwSampling s
    else if rs.losses = 0 then s
    else bbrLtBwMeasure k s

def bbrLtBwSampling (s : BbrSock M) (rs : RateSample) (rand : U32) : BbrSock M :=
  if s.ca.ltUseBw then bbrLtBwInUse s rand
  else if s.ca.ltIsSampling then bbrLtBwSample k s rs
  else if rs.losses = 0 then s
  else
    -- the first loss starts the sampling
    let s := bbrResetLtBwSamplingInterval s
    bbrLtBwSample k { s with ca := { s.ca with ltIsSampling := true } } rs

/-! ## Bandwidth -/

/-- The sample is not a valid observation. -/
def InvalidSample (rs : RateSample) : Prop :=
  rs.delivered.toInt < 0 ∨ rs.intervalUs.toInt ≤ 0

instance (rs : RateSample) : Decidable (InvalidSample rs) := by
  unfold InvalidSample
  infer_instance

/-- The packet-timed round, at an ACK with a valid sample. -/
def bbrUpdateRound (s : BbrSock M) (rs : RateSample) : BbrSock M :=
  if before rs.priorDelivered s.ca.nextRttDelivered then s
  else { s with ca := { s.ca with
    nextRttDelivered := s.tp.delivered
    rttCnt := s.ca.rttCnt + 1
    roundStart := true
    packetConservation := false } }

/-- The bandwidth sample goes into the filter, unless the application limited it. -/
def bbrFilterBw (s : BbrSock M) (rs : RateSample) : BbrSock M :=
  let bw := rs.delivered.setWidth 64 * bwUnit / rs.intervalUs
  if rs.isAppLimited = false ∨ (bbrMaxBw k s).setWidth 64 ≤ bw then
    { s with ca := { s.ca with bw := k.minmaxRunningMax s.ca.bw bbrBwRtts s.ca.rttCnt (bw.setWidth 32) } }
  else s

def bbrUpdateBw (s : BbrSock M) (rs : RateSample) (rand : U32) : BbrSock M :=
  let s := { s with ca := { s.ca with roundStart := false } }
  if InvalidSample rs then s
  else bbrFilterBw k (bbrLtBwSampling k (bbrUpdateRound s rs) rs rand) rs

/-! ## Aggregation of ACKs -/

/-- A new round ages the slots of `extra_acked`; after five the other slot is cleared and used. -/
def bbrAgeExtraAcked (s : BbrSock M) : BbrSock M :=
  if s.ca.roundStart then
    let rtts : BitVec 5 := (umin (0x1f : U32) (s.ca.extraAckedWinRtts.setWidth 32 + 1)).setWidth 5
    if bbrExtraAckedWinRtts ≤ rtts.setWidth 32 then
      let idx := !s.ca.extraAckedWinIdx
      { s with ca := { s.ca with extraAckedWinRtts := 0, extraAckedWinIdx := idx }.setExtraAcked idx 0 }
    else { s with ca := { s.ca with extraAckedWinRtts := rtts } }
  else s

/-- The packets expected since the start of the epoch; the epoch ends when the ACKs fall behind, or it grows too old. -/
def bbrExpectAcked (s : BbrSock M) (rs : RateSample) : BbrSock M × U32 :=
  let epochUs := k.tcpStampUsDelta s.tp.deliveredMstamp s.ca.ackEpochMstamp
  let expectedAcked : U32 := ((bbrBw k s).setWidth 64 * epochUs.setWidth 64 / bwUnit).setWidth 32
  let acked : U32 := s.ca.ackEpochAcked.setWidth 32
  if acked ≤ expectedAcked ∨ bbrAckEpochAckedResetThresh ≤ acked + rs.ackedSacked then
    ({ s with ca := { s.ca with ackEpochAcked := 0, ackEpochMstamp := s.tp.deliveredMstamp } }, 0)
  else (s, expectedAcked)

/-- The excess over the expected packets is kept as a maximum in the current slot. -/
def bbrRecordExtraAcked (s : BbrSock M) (expectedAcked : U32) (rs : RateSample) : BbrSock M :=
  let acked := umin (0xfffff : U32) (s.ca.ackEpochAcked.setWidth 32 + rs.ackedSacked)
  let ca := { s.ca with ackEpochAcked := acked.setWidth 20 }
  let extraAcked := umin (ca.ackEpochAcked.setWidth 32 - expectedAcked) s.tp.sndCwnd
  let idx := ca.extraAckedWinIdx
  if (ca.extraAcked idx).setWidth 32 < extraAcked then
    { s with ca := ca.setExtraAcked idx (extraAcked.setWidth 16) }
  else { s with ca := ca }

def bbrUpdateAckAggregation (s : BbrSock M) (rs : RateSample) : BbrSock M :=
  if bbrExtraAckedGain = 0 ∨ rs.ackedSacked = 0 ∨ InvalidSample rs then s
  else
    let (s, expectedAcked) := bbrExpectAcked k (bbrAgeExtraAcked s) rs
    bbrRecordExtraAcked s expectedAcked rs

/-! ## A full pipe -/

def bbrCheckFullBwReached (s : BbrSock M) (rs : RateSample) : BbrSock M :=
  if s.ca.fullBwReached ∨ s.ca.roundStart = false ∨ rs.isAppLimited then s
  else
    let bwThresh : U32 := ((s.ca.fullBw.setWidth 64 * bbrFullBwThresh) >>> bbrScale).setWidth 32
    if bwThresh ≤ bbrMaxBw k s then { s with ca := { s.ca with fullBw := bbrMaxBw k s, fullBwCnt := 0 } }
    else
      let cnt := s.ca.fullBwCnt + 1
      { s with ca := { s.ca with fullBwCnt := cnt, fullBwReached := decide (bbrFullBwCnt ≤ cnt.setWidth 32) } }

/-- A full pipe ends the startup. -/
def bbrEnterDrain (s : BbrSock M) : BbrSock M :=
  if s.ca.mode = .startup ∧ s.ca.fullBwReached then
    let s := { s with ca := { s.ca with mode := .drain } }
    { s with tp := { s.tp with sndSsthresh := bbrInflight k s (bbrMaxBw k s) bbrUnit } }
  else s

def bbrCheckDrain (s : BbrSock M) (rand : U32) : BbrSock M :=
  let s := bbrEnterDrain k s
  if s.ca.mode = .drain ∧
      bbrPacketsInNetAtEdt k s s.tp.packetsInFlight ≤ bbrInflight k s (bbrMaxBw k s) bbrUnit then
    bbrResetProbeBwMode s rand
  else s

/-! ## The minimum RTT -/

/-- Save the window to restore it after losses or `BBR_PROBE_RTT`. -/
def bbrSaveCwnd (s : BbrSock M) : BbrSock M :=
  if s.ca.prevCaState.setWidth 8 < tcpCaRecovery ∧ s.ca.mode ≠ .probeRtt then
    { s with ca := { s.ca with priorCwnd := s.tp.sndCwnd } }
  else { s with ca := { s.ca with priorCwnd := umax s.ca.priorCwnd s.tp.sndCwnd } }

def bbrCheckProbeRttDone (s : BbrSock M) (check restart : ℕ) (rand : U32) : BbrSock M :=
  if s.ca.probeRttDoneStamp ≠ 0 ∧ after (tcpJiffies32 check) s.ca.probeRttDoneStamp then
    bbrResetMode
      { tp := { s.tp with sndCwnd := umax s.tp.sndCwnd s.ca.priorCwnd }
        ca := { s.ca with minRttStamp := tcpJiffies32 restart } } rand
  else s

/-- The minimum RTT is older than its window of 10 s. -/
def bbrFilterExpired (s : BbrSock M) (now : ℕ) : Bool :=
  after (tcpJiffies32 now) (s.ca.minRttStamp + bbrMinRttWinSec * k.hz)

def bbrSampleMinRtt (s : BbrSock M) (rs : RateSample) (filterExpired : Bool) (now : ℕ) : BbrSock M :=
  if 0 ≤ rs.rttUs.toInt ∧
      (rs.rttUs.toInt < s.ca.minRttUs.toNat ∨ (filterExpired ∧ rs.isAckDelayed = false)) then
    { s with ca := { s.ca with minRttUs := rs.rttUs.setWidth 32, minRttStamp := tcpJiffies32 now } }
  else s

def bbrEnterProbeRtt (s : BbrSock M) (filterExpired : Bool) : BbrSock M :=
  if 0 < bbrProbeRttModeMs ∧ filterExpired ∧ s.ca.idleRestart = false ∧ s.ca.mode ≠ .probeRtt then
    -- the mode is set before the window is saved
    let s := bbrSaveCwnd { s with ca := { s.ca with mode := .probeRtt } }
    { s with ca := { s.ca with probeRttDoneStamp := 0 } }
  else s

/-- The samples of this mode do not count for the bandwidth. -/
def bbrMarkAppLimited (s : BbrSock M) : BbrSock M :=
  let limit := s.tp.delivered + s.tp.packetsInFlight
  { s with tp := { s.tp with appLimited := if limit ≠ 0 then limit else 1 } }

/-- A round has passed in the mode. -/
def bbrNoteRound (s : BbrSock M) : BbrSock M :=
  if s.ca.roundStart then { s with ca := { s.ca with probeRttRoundDone := true } } else s

/-- The time stamp for the end of the mode. -/
def bbrStampProbeRtt (s : BbrSock M) (now : ℕ) : BbrSock M :=
  { s with ca := { s.ca with
    probeRttDoneStamp := tcpJiffies32 now + (k.msecsToJiffies bbrProbeRttModeMs).setWidth 32
    probeRttRoundDone := false
    nextRttDelivered := s.tp.delivered } }

/-- Keep the minimum of packets in flight for 200 ms and a round. -/
def bbrHoldProbeRtt (s : BbrSock M) (clk : Clock) (rand : U32) : BbrSock M :=
  if s.ca.probeRttDoneStamp = 0 ∧ s.tp.packetsInFlight ≤ bbrCwndMinTarget then bbrStampProbeRtt k s clk.stamp
  else if s.ca.probeRttDoneStamp ≠ 0 then
    let s := bbrNoteRound s
    if s.ca.probeRttRoundDone then bbrCheckProbeRttDone s clk.check clk.restart rand else s
  else s

/-- The work on the mode, once it may have been entered. -/
def bbrInProbeRtt (s : BbrSock M) (clk : Clock) (rand : U32) : BbrSock M :=
  if s.ca.mode = .probeRtt then bbrHoldProbeRtt k (bbrMarkAppLimited s) clk rand else s

/-- A restart from idle ends with a new ACK for data. -/
def bbrEndIdleRestart (s : BbrSock M) (rs : RateSample) : BbrSock M :=
  if 0 < rs.delivered.toInt then { s with ca := { s.ca with idleRestart := false } } else s

def bbrUpdateMinRtt (s : BbrSock M) (rs : RateSample) (clk : Clock) (rand : U32) : BbrSock M :=
  let filterExpired := bbrFilterExpired k s clk.expired
  let s := bbrEnterProbeRtt (bbrSampleMinRtt s rs filterExpired clk.sample) filterExpired
  bbrEndIdleRestart (bbrInProbeRtt k s clk rand) rs

/-! ## Gains -/

/-- The pacing gain and the window gain of a state. -/
def bbrGains (ca : Bbr M) : U64 × U64 :=
  match ca.mode with
  | .startup => (bbrHighGain, bbrHighGain)
  | .drain => (bbrDrainGain, bbrHighGain)
  | .probeBw => (if ca.ltUseBw then bbrUnit else bbrPacingGain ca.cycleIdx, bbrCwndGain)
  | .probeRtt => (bbrUnit, bbrUnit)

def bbrUpdateGains (s : BbrSock M) : BbrSock M :=
  { s with ca := { s.ca with
    pacingGain := (bbrGains s.ca).1.setWidth 10
    cwndGain := (bbrGains s.ca).2.setWidth 10 } }

def bbrUpdateModel (s : BbrSock M) (rs : RateSample) (clk : Clock) (rands : Rands) : BbrSock M :=
  let s := bbrUpdateBw k s rs rands.sampling
  let s := bbrUpdateAckAggregation k s rs
  let s := bbrUpdateCyclePhase k s rs
  let s := bbrCheckFullBwReached k s rs
  let s := bbrCheckDrain k s rands.drain
  let s := bbrUpdateMinRtt k s rs clk rands.probeRtt
  bbrUpdateGains s

end CoupledCC.Bbr
