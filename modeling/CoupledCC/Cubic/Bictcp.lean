import CoupledCC.Tcp.Sock
import CoupledCC.Cubic.Root

/-!
# The window computation of the CUBIC controller

`struct bictcp` and `bictcp_update`. A call may read `tcp_jiffies32` up to five times, so it takes the five readings
(`Jiffies`). It leaves in one of three ways (`Path`): at the early return, by the jump to the friendliness block, or
through the cubic function.

- `bictcpUpdate_way`: what a call does on each of them;
- `bictcpUpdate_cnt`: every call that does not leave at the early return ends with a price `cnt` of at least 2;
- `bictcpUpdate_total`: no call divides by zero.
-/

namespace CoupledCC.Cubic

open Word

/-- What the program is configured with: `CONFIG_HZ`, and the globals the loader writes. -/
structure Config where
  hz : U64
  beta : U32
  betaScale : U32
  hz_ne : hz ≠ 0

structure Bictcp where
  cnt : U32
  lastMaxCwnd : U32
  lastCwnd : U32
  lastTime : U32
  bicOriginPoint : U32
  bicK : U32
  delayMin : U32
  epochStart : U32
  ackCnt : U32
  tcpCwnd : U32
  sampleCnt : U8
  found : U8
  roundStart : U32
  endSeq : U32
  lastAck : U32
  currRtt : U32
deriving Repr, DecidableEq

def bictcpBetaScale : U32 := 1024
def fastConvergence : Bool := true
def tcpFriendliness : Bool := true
def cubeRttScale : U64 := 410

/-- `2^40 / 410`. -/
def cubeFactor : U64 := (1 <<< 40) / 410

def usecPerSec : U64 := 1000000

def Config.usecPerJiffy (cfg : Config) : U64 :=
  usecPerSec / cfg.hz

/-- The readings of `tcp_jiffies32` a call of `bictcp_update` can make, in their order. -/
structure Jiffies where
  early : U32
  same : U32
  stamp : U32
  start : U32
  cubic : U32
deriving Repr, DecidableEq

def bictcpReset (ca : Bictcp) : Bictcp :=
  { ca with
    cnt := 0
    lastMaxCwnd := 0
    lastCwnd := 0
    lastTime := 0
    bicOriginPoint := 0
    bicK := 0
    delayMin := 0
    epochStart := 0
    ackCnt := 0
    tcpCwnd := 0
    found := 0 }

/-- The start of an epoch: `bic_K` and the origin point. -/
def bictcpOpenEpoch (ca : Bictcp) (cwnd acked start : U32) : Option Bictcp :=
  let ca := { ca with epochStart := start, ackCnt := acked, tcpCwnd := cwnd }
  if ca.lastMaxCwnd ≤ cwnd then some { ca with bicK := 0, bicOriginPoint := cwnd }
  else
    (cubicRoot (cubeFactor * (ca.lastMaxCwnd - cwnd).setWidth 64)).map fun k =>
      { ca with bicK := k, bicOriginPoint := ca.lastMaxCwnd }

/-- `last_cwnd` and `last_time` are recorded; without an epoch one is opened. -/
def bictcpRecord (ca : Bictcp) (cwnd acked : U32) (clk : Jiffies) : Option Bictcp :=
  let ca := { ca with lastCwnd := cwnd, lastTime := clk.stamp }
  if ca.epochStart = 0 then bictcpOpenEpoch ca cwnd acked clk.start else some ca

/-- The time since the start of the epoch, in units of `1/1024` s. -/
def cubicTime (cfg : Config) (ca : Bictcp) (now : U32) : U64 :=
  (((now - ca.epochStart).signExtend 64 * cfg.usecPerJiffy + ca.delayMin.setWidth 64) <<< 10) / usecPerSec

/-- The cubic function: `origin ± 410 * |t - K|^3 / 2^40`. -/
def bicTarget (cfg : Config) (ca : Bictcp) (now : U32) : U32 :=
  let t := cubicTime cfg ca now
  let offs := if t < ca.bicK.setWidth 64 then ca.bicK.setWidth 64 - t else t - ca.bicK.setWidth 64
  let delta : U32 := ((cubeRttScale * offs * offs * offs) >>> 40).setWidth 32
  if t < ca.bicK.setWidth 64 then ca.bicOriginPoint - delta else ca.bicOriginPoint + delta

/-- The price of a packet on the way to the target. -/
def bictcpCnt (ca : Bictcp) (cwnd target : U32) : Option Bictcp :=
  (if cwnd < target then checkedDiv cwnd (target - cwnd) else some (100 * cwnd)).map fun cnt =>
    { ca with cnt := if ca.lastMaxCwnd = 0 ∧ 20 < cnt then 20 else cnt }

/-- The window standard TCP would have is kept up to date. -/
def bictcpTcpCwnd (cfg : Config) (ca : Bictcp) (cwnd : U32) : Option Bictcp :=
  let delta := (cwnd * cfg.betaScale) >>> 3
  if delta < ca.ackCnt ∧ delta ≠ 0 then
    (checkedDiv ca.ackCnt delta).map fun n => { ca with ackCnt := ca.ackCnt - n * delta, tcpCwnd := ca.tcpCwnd + n }
  else some ca

/-- TCP friendliness: when cubic is slower than TCP the price is cut. -/
def bictcpFriendliness (cfg : Config) (ca : Bictcp) (cwnd : U32) : Option Bictcp :=
  if tcpFriendliness then
    (bictcpTcpCwnd cfg ca cwnd).bind fun ca =>
      if cwnd < ca.tcpCwnd then
        (checkedDiv cwnd (ca.tcpCwnd - cwnd)).map fun maxCnt =>
          { ca with cnt := if maxCnt < ca.cnt then maxCnt else ca.cnt }
      else some ca
  else some ca

/-- The way a call leaves, with the state at that point. -/
inductive Path
  | early (ca : Bictcp)
  | friendly (ca : Bictcp)
  | cubic (ca : Bictcp)
deriving Repr, DecidableEq

/-- Which way a call takes. -/
def bictcpPath (cfg : Config) (ca : Bictcp) (cwnd acked : U32) (clk : Jiffies) : Option Path :=
  let ca := { ca with ackCnt := ca.ackCnt + acked }
  -- the signed difference is compared as an unsigned long
  if ca.lastCwnd = cwnd ∧ (clk.early - ca.lastTime).signExtend 64 ≤ cfg.hz / 32 then some (.early ca)
  -- at most one cubic computation per jiffy, unless the epoch was ended
  else if ca.epochStart ≠ 0 ∧ clk.same = ca.lastTime then some (.friendly ca)
  else (bictcpRecord ca cwnd acked clk).map .cubic

/-- Compute the congestion window to use. -/
def bictcpUpdate (cfg : Config) (ca : Bictcp) (cwnd acked : U32) (clk : Jiffies) : Option Bictcp :=
  (bictcpPath cfg ca cwnd acked clk).bind fun path =>
    match path with
    | .early ca => some ca
    | .friendly ca => (bictcpFriendliness cfg ca cwnd).map fun ca => { ca with cnt := umax ca.cnt 2 }
    | .cubic ca =>
      (bictcpCnt ca cwnd (bicTarget cfg ca clk.cubic)).bind fun ca =>
        (bictcpFriendliness cfg ca cwnd).map fun ca => { ca with cnt := umax ca.cnt 2 }

/-! ## No division by zero -/

/-- The difference of a smaller word from a larger one is not zero. -/
theorem sub_ne_zero_of_lt {a b : U32} (h : a < b) : b - a ≠ 0 := by
  rw [BitVec.lt_def] at h
  apply ne_zero_of_pos
  rw [BitVec.toNat_sub_of_le (by rw [BitVec.le_def]; omega)]
  omega

theorem bictcpOpenEpoch_total (ca : Bictcp) (cwnd acked start : U32) :
    ∃ ca', bictcpOpenEpoch ca cwnd acked start = some ca' := by
  unfold bictcpOpenEpoch
  simp only
  split
  · exact ⟨_, rfl⟩
  · obtain ⟨k, hk⟩ := cubicRoot_total (cubeFactor * (ca.lastMaxCwnd - cwnd).setWidth 64)
    rw [hk]
    exact ⟨_, rfl⟩

theorem bictcpPath_total (cfg : Config) (ca : Bictcp) (cwnd acked : U32) (clk : Jiffies) :
    ∃ path, bictcpPath cfg ca cwnd acked clk = some path := by
  unfold bictcpPath
  simp only
  split
  · exact ⟨_, rfl⟩
  · split
    · exact ⟨_, rfl⟩
    · unfold bictcpRecord
      simp only
      split
      · obtain ⟨ca', hca'⟩ := bictcpOpenEpoch_total
          { ca with ackCnt := ca.ackCnt + acked, lastCwnd := cwnd, lastTime := clk.stamp } cwnd acked clk.start
        rw [hca']
        exact ⟨_, rfl⟩
      · exact ⟨_, rfl⟩

theorem bictcpCnt_total (ca : Bictcp) (cwnd target : U32) : ∃ ca', bictcpCnt ca cwnd target = some ca' := by
  unfold bictcpCnt
  split
  · rename_i hlt
    rw [checkedDiv_ne (sub_ne_zero_of_lt hlt)]
    exact ⟨_, rfl⟩
  · exact ⟨_, rfl⟩

theorem bictcpTcpCwnd_total (cfg : Config) (ca : Bictcp) (cwnd : U32) :
    ∃ ca', bictcpTcpCwnd cfg ca cwnd = some ca' := by
  unfold bictcpTcpCwnd
  simp only
  split
  · rename_i hdelta
    rw [checkedDiv_ne hdelta.2]
    exact ⟨_, rfl⟩
  · exact ⟨_, rfl⟩

theorem bictcpFriendliness_total (cfg : Config) (ca : Bictcp) (cwnd : U32) :
    ∃ ca', bictcpFriendliness cfg ca cwnd = some ca' := by
  obtain ⟨ca₁, hca₁⟩ := bictcpTcpCwnd_total cfg ca cwnd
  unfold bictcpFriendliness
  rw [hca₁, Option.bind_some]
  split
  · split
    · rename_i hlt
      rw [checkedDiv_ne (sub_ne_zero_of_lt hlt)]
      exact ⟨_, rfl⟩
    · exact ⟨_, rfl⟩
  · exact ⟨_, rfl⟩

/-- **No call of `bictcp_update` divides by zero.** -/
theorem bictcpUpdate_total (cfg : Config) (ca : Bictcp) (cwnd acked : U32) (clk : Jiffies) :
    ∃ ca', bictcpUpdate cfg ca cwnd acked clk = some ca' := by
  obtain ⟨path, hpath⟩ := bictcpPath_total cfg ca cwnd acked clk
  unfold bictcpUpdate
  rw [hpath, Option.bind_some]
  cases path with
  | early ca₁ => exact ⟨_, rfl⟩
  | friendly ca₁ =>
    obtain ⟨ca₂, hca₂⟩ := bictcpFriendliness_total cfg ca₁ cwnd
    simp only [hca₂]
    exact ⟨_, rfl⟩
  | cubic ca₁ =>
    obtain ⟨ca₂, hca₂⟩ := bictcpCnt_total ca₁ cwnd (bicTarget cfg ca₁ clk.cubic)
    obtain ⟨ca₃, hca₃⟩ := bictcpFriendliness_total cfg ca₂ cwnd
    simp only [hca₂, Option.bind_some, hca₃]
    exact ⟨_, rfl⟩

/-! ## The ways through a call -/

/-- The three ways through a call, with the states on the way. -/
inductive Way (cfg : Config) (ca : Bictcp) (cwnd acked : U32) (clk : Jiffies) : Bictcp → Prop
  | early (hearly : ca.lastCwnd = cwnd ∧ (clk.early - ca.lastTime).signExtend 64 ≤ cfg.hz / 32)
      (hpath : bictcpPath cfg ca cwnd acked clk = some (.early { ca with ackCnt := ca.ackCnt + acked })) :
      Way cfg ca cwnd acked clk { ca with ackCnt := ca.ackCnt + acked }
  | friendly {ca₁ : Bictcp} (hearly : ¬ (ca.lastCwnd = cwnd ∧ (clk.early - ca.lastTime).signExtend 64 ≤ cfg.hz / 32))
      (hopen : ca.epochStart ≠ 0)
      (hpath : bictcpPath cfg ca cwnd acked clk = some (.friendly { ca with ackCnt := ca.ackCnt + acked }))
      (hblock : bictcpFriendliness cfg { ca with ackCnt := ca.ackCnt + acked } cwnd = some ca₁) :
      Way cfg ca cwnd acked clk { ca₁ with cnt := umax ca₁.cnt 2 }
  | cubic {ca₁ ca₂ : Bictcp} {cnt : U32}
      (hearly : ¬ (ca.lastCwnd = cwnd ∧ (clk.early - ca.lastTime).signExtend 64 ≤ cfg.hz / 32))
      (hrecord : bictcpRecord { ca with ackCnt := ca.ackCnt + acked } cwnd acked clk = some ca₁)
      (hpath : bictcpPath cfg ca cwnd acked clk = some (.cubic ca₁))
      (hblock : bictcpFriendliness cfg { ca₁ with cnt := cnt } cwnd = some ca₂) :
      Way cfg ca cwnd acked clk { ca₂ with cnt := umax ca₂.cnt 2 }

/-- **What a call can do.** -/
theorem bictcpUpdate_way {cfg : Config} {ca ca' : Bictcp} {cwnd acked : U32} {clk : Jiffies}
    (h : bictcpUpdate cfg ca cwnd acked clk = some ca') : Way cfg ca cwnd acked clk ca' := by
  obtain ⟨path, hpath, h⟩ := Option.bind_eq_some_iff.mp h
  have hway := hpath
  unfold bictcpPath at hway
  simp only at hway
  split at hway
  · rename_i hearly
    cases hway
    cases h
    exact .early hearly hpath
  · rename_i hearly
    split at hway
    · rename_i hsame
      cases hway
      obtain ⟨ca₁, hblock, rfl⟩ := Option.map_eq_some_iff.mp h
      exact .friendly hearly hsame.1 hpath hblock
    · obtain ⟨ca₁, hrecord, rfl⟩ := Option.map_eq_some_iff.mp hway
      obtain ⟨ca₂, hcnt, h⟩ := Option.bind_eq_some_iff.mp h
      obtain ⟨cnt, -, rfl⟩ := Option.map_eq_some_iff.mp hcnt
      obtain ⟨ca₃, hblock, rfl⟩ := Option.map_eq_some_iff.mp h
      exact .cubic hearly hrecord hpath hblock

/-! ## The price -/

/-- A call leaves at the early return with the price and the window it found, or it ends with a price of at least 2. -/
theorem bictcpUpdate_cnt {cfg : Config} {ca ca' : Bictcp} {cwnd acked : U32} {clk : Jiffies}
    (h : bictcpUpdate cfg ca cwnd acked clk = some ca') :
    (ca' = { ca with ackCnt := ca.ackCnt + acked } ∧ ca.lastCwnd = cwnd) ∨ 2 ≤ ca'.cnt.toNat := by
  have hfloor (x : U32) : 2 ≤ (umax x 2).toNat := by
    have htwo : (2 : U32).toNat = 2 := rfl
    rw [toNat_umax]; omega
  cases bictcpUpdate_way h with
  | early hearly => exact Or.inl ⟨rfl, hearly.1⟩
  | friendly => exact Or.inr (hfloor _)
  | cubic => exact Or.inr (hfloor _)

end CoupledCC.Cubic
