import CoupledCC.Bbr.Sock

/-!
# Rates and targets of BBR

What BBR computes from its model of the path: the pacing rate, the bandwidth-delay product and the in-flight targets.
Only `bbr_init_pacing_rate_from_rtt` and `bbr_set_pacing_rate` write, and they write the pacing rate. Unsigned division
is that of the BPF machine, where a quotient by zero is zero.
-/

namespace CoupledCC.Bbr

open Word

variable {M : Type} (k : Kernel M)

/-- The windowed maximum of the recent bandwidth samples. -/
def bbrMaxBw (s : BbrSock M) : U32 :=
  k.minmaxGet s.ca.bw

/-- The estimated bandwidth of the path, in packets per microsecond, shifted by `BW_SCALE`. -/
def bbrBw (s : BbrSock M) : U32 :=
  if s.ca.ltUseBw then s.ca.ltBw else bbrMaxBw k s

def bbrExtraAcked (s : BbrSock M) : U16 :=
  umax (s.ca.extraAcked false) (s.ca.extraAcked true)

/-- A rate in bytes per second, with a gain. -/
def bbrRateBytesPerSec (tp : BbrTcp) (rate gain : U64) : U64 :=
  let rate := rate * tp.mssCache.setWidth 64
  let rate := rate * gain
  let rate := rate >>> bbrScale
  let rate := rate * (usecPerSec / 100 * (100 - bbrPacingMarginPercent))
  rate >>> bwScale

def bbrBwToPacingRate (tp : BbrTcp) (bw : U32) (gain : U64) : U64 :=
  umin (bbrRateBytesPerSec tp (bw.setWidth 64) gain) tp.skMaxPacingRate

/-- The pacing rate before there is a bandwidth sample: `high_gain * snd_cwnd / RTT`. -/
def bbrInitPacingRateFromRtt (s : BbrSock M) : BbrSock M :=
  let rttUs : U32 := if s.tp.srttUs ≠ 0 then umax (s.tp.srttUs >>> 3) 1 else usecPerMsec.setWidth 32
  let bw : U64 := s.tp.sndCwnd.setWidth 64 * bwUnit / rttUs.setWidth 64
  { tp := { s.tp with skPacingRate := bbrBwToPacingRate s.tp (bw.setWidth 32) bbrHighGain }
    ca := { s.ca with hasSeenRtt := if s.tp.srttUs ≠ 0 then true else s.ca.hasSeenRtt } }

def bbrSetPacingRate (s : BbrSock M) (bw : U32) (gain : U64) : BbrSock M :=
  let rate := bbrBwToPacingRate s.tp bw gain
  let s := if s.ca.hasSeenRtt = false ∧ s.tp.srttUs ≠ 0 then bbrInitPacingRateFromRtt s else s
  if s.ca.fullBwReached ∨ s.tp.skPacingRate < rate then { s with tp := { s.tp with skPacingRate := rate } } else s

def bbrMinTsoSegs (tp : BbrTcp) : U32 :=
  if tp.skPacingRate < bbrMinTsoRate >>> 3 then 1 else 2

def bbrTsoSegsGoal (tp : BbrTcp) : U32 :=
  let bytes : U32 := (umin (tp.skPacingRate >>> tp.skPacingShift) (gsoMaxSize - 1 - k.maxTcpHeader)).setWidth 32
  let segs := umax (bytes / tp.mssCache) (bbrMinTsoSegs tp)
  umin segs 0x7f

/-- The bandwidth-delay product with a gain, rounded up. -/
def bbrBdp (s : BbrSock M) (bw : U32) (gain : U64) : U32 :=
  -- no valid RTT sample yet
  if s.ca.minRttUs = 0xffffffff then tcpInitCwnd
  else
    let w : U64 := bw.setWidth 64 * s.ca.minRttUs.setWidth 64
    ((((w * gain) >>> bbrScale) + bwUnit - 1) / bwUnit).setWidth 32

def bbrQuantizationBudget (s : BbrSock M) (cwnd : U32) : U32 :=
  let cwnd := cwnd + 3 * bbrTsoSegsGoal k s.tp
  -- rounded up to the next even number
  let cwnd := (cwnd + 1) &&& ~~~1
  if s.ca.mode = .probeBw ∧ s.ca.cycleIdx = 0 then cwnd + 2 else cwnd

def bbrInflight (s : BbrSock M) (bw : U32) (gain : U64) : U32 :=
  bbrQuantizationBudget k s (bbrBdp s bw gain)

/-- The packets that may be in the network when the next one departs. -/
def bbrPacketsInNetAtEdt (s : BbrSock M) (inflightNow : U32) : U32 :=
  let nowNs := s.tp.tcpClockCache
  let edtNs := umax s.tp.tcpWstampNs nowNs
  let intervalUs := (edtNs - nowNs) / nsecPerUsec
  let intervalDelivered : U32 := (((bbrBw k s).setWidth 64 * intervalUs) >>> bwScale).setWidth 32
  let inflightAtEdt :=
    if bbrUnit < s.ca.pacingGain.setWidth 64 then inflightNow + bbrTsoSegsGoal k s.tp else inflightNow
  if inflightAtEdt ≤ intervalDelivered then 0 else inflightAtEdt - intervalDelivered

/-- The increment of the window for the aggregation of ACKs. -/
def bbrAckAggregationCwnd (s : BbrSock M) : U32 :=
  if bbrExtraAckedGain ≠ 0 ∧ s.ca.fullBwReached then
    let maxAggrCwnd : U32 := ((bbrBw k s).setWidth 64 * bbrExtraAckedMaxUs / bwUnit).setWidth 32
    let aggrCwnd : U32 := (bbrExtraAckedGain * (bbrExtraAcked s).setWidth 32) >>> bbrScale
    umin aggrCwnd maxAggrCwnd
  else 0

end CoupledCC.Bbr
