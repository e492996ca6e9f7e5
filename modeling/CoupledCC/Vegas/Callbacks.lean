import CoupledCC.Lib.Trace
import CoupledCC.Reno.CongAvoid

/-!
# The Vegas controller

`struct vegas`, the callbacks of `bpfvegas.bpf.c`, and the runs of the controller: after `tcp_vegas_init` the callbacks
come in any order with any arguments, and between them the kernel may write the socket.

- `RttInv`: in every reached state `1 ≤ baseRTT ≤ minRTT`, and both are below `2^31` (`reach_rttInv`).
-/

namespace CoupledCC

structure Vegas where
  begSndNxt : U32
  doingVegasNow : U8
  cntRTT : U16
  minRTT : U32
  baseRTT : U32
deriving Repr, DecidableEq

namespace Vegas

open Word Runs

/-- The socket and its private area. -/
structure VegasSock where
  tp : TcpSock
  ca : Vegas
deriving Repr, DecidableEq

def alpha : U32 := 2
def beta : U32 := 4
def gamma : U32 := 1
def rttInfinite : U32 := 0x7fffffff
def tcpCaOpen : U8 := 0
def tcpfCaCwr : U32 := 1 <<< 2
def tcpfCaRecovery : U32 := 1 <<< 3

def vegasEnable (s : VegasSock) : VegasSock :=
  { s with ca := { s.ca with doingVegasNow := 1, begSndNxt := s.tp.sndNxt, cntRTT := 0, minRTT := rttInfinite } }

def vegasDisable (s : VegasSock) : VegasSock :=
  { s with ca := { s.ca with doingVegasNow := 0 } }

def tcpVegasInit (s : VegasSock) : VegasSock :=
  vegasEnable { s with ca := { s.ca with baseRTT := rttInfinite } }

/-- RTT sampling: the minimum within an RTT, and the minimum of all samples. -/
def tcpVegasPktsAcked (s : VegasSock) (rttUs : U32) : VegasSock :=
  if rttUs.toInt < 0 then s
  else
    -- never allow zero rtt or baseRTT
    let vrtt := rttUs + 1
    { s with ca := { s.ca with
      baseRTT := if vrtt < s.ca.baseRTT then vrtt else s.ca.baseRTT
      minRTT := umin s.ca.minRTT vrtt
      cntRTT := s.ca.cntRTT + 1 } }

def tcpVegasState (s : VegasSock) (caState : U8) : VegasSock :=
  if caState = tcpCaOpen then vegasEnable s else vegasDisable s

def tcpVegasCwndEvent (s : VegasSock) (event : CaEvent) : VegasSock :=
  if event = .cwndRestart ∨ event = .txStart then
    vegasEnable { s with ca := { s.ca with baseRTT := rttInfinite } }
  else s

def tcpVegasSsthresh (tp : TcpSock) : U32 :=
  umin tp.sndSsthresh tp.sndCwnd

def tcpInCwndReduction (tp : TcpSock) : Bool :=
  decide ((tcpfCaCwr ||| tcpfCaRecovery) &&& ((1 : U32) <<< tp.icskCaState) ≠ 0)

/-- Outside a reduction the threshold may be raised half-way to the window. -/
def tcpCurrentSsthresh (tp : TcpSock) : U32 :=
  if tcpInCwndReduction tp then tp.sndSsthresh
  else umax tp.sndSsthresh ((tp.sndCwnd >>> 1) + (tp.sndCwnd >>> 2))

/-- The window the connection should have: a 64-bit product, divided by `do_div`. -/
def vegasTarget (tp : TcpSock) (ca : Vegas) : Option U64 :=
  checkedDiv (tp.sndCwnd.setWidth 64 * ca.baseRTT.setWidth 64) (ca.minRTT.setWidth 64)

/-- The "Diff" of Vegas: a 32-bit product. -/
def vegasDiff (tp : TcpSock) (ca : Vegas) : Option U32 :=
  checkedDiv (tp.sndCwnd * (ca.minRTT - ca.baseRTT)) ca.baseRTT

/-- The decision for a given target and diff, before the window is clipped. -/
def vegasDecide (tp : TcpSock) (acked : U32) (target : U64) (diff : U32) : TcpSock :=
  if gamma < diff ∧ tcpInSlowStart tp then
    -- going too fast: leave slow start at the actual rate, and one more against the truncation
    let tp := { tp with sndCwnd := umin tp.sndCwnd (target.setWidth 32 + 1) }
    { tp with sndSsthresh := tcpVegasSsthresh tp }
  else if tcpInSlowStart tp then (tcpSlowStart tp acked).1
  else if beta < diff then
    let tp := { tp with sndCwnd := tp.sndCwnd - 1 }
    { tp with sndSsthresh := tcpVegasSsthresh tp }
  else if diff < alpha then { tp with sndCwnd := tp.sndCwnd + 1 }
  else tp

/-- The Vegas formula up to the clipping of the window. -/
def vegasFormula (tp : TcpSock) (ca : Vegas) (acked : U32) : Option TcpSock :=
  (vegasTarget tp ca).bind fun target => (vegasDiff tp ca).map fun diff => vegasDecide tp acked target diff

/-- The window is clipped to `[2, snd_cwnd_clamp]`, and the threshold brought up to date. -/
def vegasClip (tp : TcpSock) : TcpSock :=
  let cwnd := if tp.sndCwnd < 2 then 2 else if tp.sndCwndClamp < tp.sndCwnd then tp.sndCwndClamp else tp.sndCwnd
  let tp := { tp with sndCwnd := cwnd }
  { tp with sndSsthresh := tcpCurrentSsthresh tp }

/-- The once-per-RTT adjustment of the socket. -/
def vegasAdjust (tp : TcpSock) (ca : Vegas) (acked : U32) : Option TcpSock :=
  -- two samples in an RTT are almost certainly delayed ACKs
  if ca.cntRTT ≤ 2 then tcpRenoCongAvoid tp acked else (vegasFormula tp ca acked).map vegasClip

def tcpVegasCongAvoid (s : VegasSock) (ack acked : U32) : Option VegasSock :=
  if s.ca.doingVegasNow = 0 then (tcpRenoCongAvoid s.tp acked).map fun tp => { s with tp := tp }
  else if after ack s.ca.begSndNxt then
    (vegasAdjust s.tp s.ca acked).map fun tp =>
      ⟨tp, { s.ca with begSndNxt := s.tp.sndNxt, cntRTT := 0, minRTT := rttInfinite }⟩
  else if tcpInSlowStart s.tp then some { s with tp := (tcpSlowStart s.tp acked).1 }
  else some s

/-! ## Runs -/

/-- The kernel writes the socket, or it invokes a callback. -/
inductive Event
  | kernel (tp : TcpSock)
  | pktsAcked (rttUs : U32)
  | state (caState : U8)
  | cwndEvent (event : CaEvent)
  | congAvoid (ack acked : U32)
deriving Repr, DecidableEq

/-- The state after an event. -/
def Event.run (s : VegasSock) : Event → Option VegasSock
  | .kernel tp => some { s with tp := tp }
  | .pktsAcked rttUs => some (tcpVegasPktsAcked s rttUs)
  | .state caState => some (tcpVegasState s caState)
  | .cwndEvent event => some (tcpVegasCwndEvent s event)
  | .congAvoid ack acked => tcpVegasCongAvoid s ack acked

/-- One step of the controller. -/
def Step (s : VegasSock) (e : Event) (s' : VegasSock) : Prop :=
  e.run s = some s'

/-- A socket right after `tcp_vegas_init`. -/
def Started (s : VegasSock) : Prop :=
  ∃ s₀ : VegasSock, s = tcpVegasInit s₀

/-- The minima of the round-trip times: the long one is positive, and at most the one of this RTT. -/
structure RttInv (ca : Vegas) : Prop where
  pos : 1 ≤ ca.baseRTT.toNat
  le : ca.baseRTT.toNat ≤ ca.minRTT.toNat
  bound : ca.minRTT.toNat ≤ 0x7fffffff

theorem toNat_rttInfinite : rttInfinite.toNat = 0x7fffffff := rfl

/-- Without a sample both minima are infinite. -/
theorem rttInv_infinite {ca : Vegas} (hbase : ca.baseRTT = rttInfinite) (hmin : ca.minRTT = rttInfinite) :
    RttInv ca := by
  have hinf := toNat_rttInfinite
  exact ⟨by rw [hbase]; omega, by rw [hbase, hmin], by rw [hmin]; omega⟩

theorem started_rttInv {s : VegasSock} (h : Started s) : RttInv s.ca := by
  obtain ⟨s₀, rfl⟩ := h
  exact rttInv_infinite rfl rfl

/-- An enabled controller keeps the long minimum and forgets the short one. -/
theorem RttInv.reset {ca ca' : Vegas} (h : RttInv ca) (hbase : ca'.baseRTT = ca.baseRTT)
    (hmin : ca'.minRTT = rttInfinite) : RttInv ca' := by
  have hpos := h.pos
  have hle := h.le
  have hbound := h.bound
  have hinf := toNat_rttInfinite
  exact ⟨by rw [hbase]; exact hpos, by rw [hbase, hmin]; omega, by rw [hmin]; omega⟩

/-- A sample moves both minima in the same direction. -/
theorem tcpVegasPktsAcked_rttInv {s : VegasSock} (h : RttInv s.ca) (rttUs : U32) :
    RttInv (tcpVegasPktsAcked s rttUs).ca := by
  unfold tcpVegasPktsAcked
  split
  · exact h
  · rename_i hsign
    have hpos := h.pos
    have hle := h.le
    have hbound := h.bound
    have hlt := toNat_lt_of_not_neg hsign
    have hone : (1 : U32).toNat = 1 := rfl
    have hvrtt : (rttUs + 1).toNat = rttUs.toNat + 1 := BitVec.toNat_add_of_lt (by omega)
    have hbase : (if rttUs + 1 < s.ca.baseRTT then rttUs + 1 else s.ca.baseRTT).toNat =
        min (rttUs.toNat + 1) s.ca.baseRTT.toNat := by
      rw [← hvrtt, ← toNat_umin, umin]
    refine ⟨?_, ?_, ?_⟩
    · simp only [hbase]; omega
    · simp only [hbase, toNat_umin, hvrtt]; omega
    · simp only [toNat_umin]; omega

/-- Every step keeps the invariant of the minima. -/
theorem step_rttInv (s : VegasSock) (e : Event) (s' : VegasSock) (h : RttInv s.ca) (hstep : Step s e s') :
    RttInv s'.ca := by
  unfold Step at hstep
  cases e with
  | kernel tp =>
    cases hstep
    exact h
  | pktsAcked rttUs =>
    cases hstep
    exact tcpVegasPktsAcked_rttInv h rttUs
  | state caState =>
    cases hstep
    unfold tcpVegasState
    split
    · exact h.reset rfl rfl
    · exact ⟨h.pos, h.le, h.bound⟩
  | cwndEvent event =>
    cases hstep
    unfold tcpVegasCwndEvent
    split
    · exact rttInv_infinite rfl rfl
    · exact h
  | congAvoid ack acked =>
    simp only [Event.run, tcpVegasCongAvoid] at hstep
    split at hstep
    · obtain ⟨tp, -, rfl⟩ := Option.map_eq_some_iff.mp hstep
      exact h
    · split at hstep
      · obtain ⟨tp, -, rfl⟩ := Option.map_eq_some_iff.mp hstep
        exact h.reset rfl rfl
      · split at hstep <;> cases hstep <;> exact h

/-- The minima of every reached state are in order. -/
theorem reach_rttInv {s : VegasSock} (h : Reach Step Started s) : RttInv s.ca :=
  h.invariant (fun _ => started_rttInv) step_rttInv

/-- The events of a list lead from a reached state to a reached state. -/
theorem reach_foldlM {s s' : VegasSock} (h : Reach Step Started s) (es : List Event)
    (hrun : es.foldlM Event.run s = some s') : Reach Step Started s' := by
  induction es generalizing s with
  | nil =>
    cases hrun
    exact h
  | cons e es ih =>
    obtain ⟨s₁, hs₁, hrest⟩ := Option.bind_eq_some_iff.mp hrun
    exact ih (h.step hs₁) hrest

end Vegas

end CoupledCC
