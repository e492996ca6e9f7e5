import CoupledCC.Lib.Word

/-!
# Rounds of a counter

A counter goes up, and code that reads it modulo a power of two keeps a mark: the value the counter had when the current
round began. A probe is a value the counter had a short while ago; one that has come to the mark ends the round, and the
mark is set again.

- `Rounds.MarkKept`: the mark stays close behind the counter as long as it is probed often enough;
- `Rounds.MarkKept.toInt_sub`: a probe is then compared with the mark as if nothing wrapped.
-/

namespace Rounds

open Word

/-- What has been counted, the mark, and what had been counted at the last probe. -/
structure Gauge where
  top : ℕ
  mark : ℕ
  last : ℕ
deriving Repr, DecidableEq

/-- A probe that is at most `W` behind the counter, at most `G` after the probe before it. -/
structure Probed (W G : ℕ) (g : Gauge) (x : ℕ) : Prop where
  le : x ≤ g.top
  close : g.top ≤ x + W
  often : g.top ≤ g.last + G

/-- At the last probe the mark was at most `W` behind the counter. -/
structure MarkKept (W : ℕ) (g : Gauge) : Prop where
  mark : g.mark ≤ g.top
  last : g.last ≤ g.top
  close : g.last ≤ g.mark + W

variable {W G : ℕ} {g : Gauge}

/-- A new round begins. -/
def Gauge.restart (g : Gauge) : Gauge :=
  ⟨g.top, g.top, g.top⟩

/-- A probe that lets the round go on. -/
def Gauge.probe (g : Gauge) : Gauge :=
  { g with last := g.top }

theorem MarkKept.restart (W : ℕ) (g : Gauge) : MarkKept W g.restart :=
  ⟨le_rfl, le_rfl, Nat.le_add_right _ _⟩

/-- Something is counted. -/
theorem MarkKept.grow (h : MarkKept W g) {top : ℕ} (hle : g.top ≤ top) : MarkKept W { g with top := top } :=
  ⟨h.mark.trans hle, h.last.trans hle, h.close⟩

/-- A probe that has not passed the mark. -/
theorem MarkKept.probe (h : MarkKept W g) {x : ℕ} (hx : Probed W G g x) (hbefore : x ≤ g.mark) : MarkKept W g.probe :=
  ⟨h.mark, le_rfl, hx.close.trans (Nat.add_le_add_right hbefore W)⟩

/-- A probe is less than half of the range away from the mark. -/
theorem MarkKept.distance {w : ℕ} (h : MarkKept W g) {x : ℕ} (hx : Probed W G g x) (hfit : W + G < 2 ^ w) :
    (x : ℤ) - g.mark < 2 ^ w ∧ (g.mark : ℤ) - x < 2 ^ w := by
  have hmark := h.mark
  have hclose := h.close
  have hle := hx.le
  have hflight := hx.close
  have hoften := hx.often
  have hfit' : ((W + G : ℕ) : ℤ) < 2 ^ w := by exact_mod_cast hfit
  omega

/-- **The comparison is exact** when a flight and the counting between two probes fit together in half of the range. -/
theorem MarkKept.toInt_sub {w : ℕ} (h : MarkKept W g) {x : ℕ} (hx : Probed W G g x) (hfit : W + G < 2 ^ w) :
    (BitVec.ofNat (w + 1) x - BitVec.ofNat (w + 1) g.mark).toInt = (x : ℤ) - g.mark := by
  obtain ⟨hahead, hbehind⟩ := h.distance hx hfit
  apply toInt_sub_ofNat
  · omega
  · omega

/-- The same the other way round. -/
theorem MarkKept.toInt_mark_sub {w : ℕ} (h : MarkKept W g) {x : ℕ} (hx : Probed W G g x) (hfit : W + G < 2 ^ w) :
    (BitVec.ofNat (w + 1) g.mark - BitVec.ofNat (w + 1) x).toInt = (g.mark : ℤ) - x := by
  obtain ⟨hahead, hbehind⟩ := h.distance hx hfit
  apply toInt_sub_ofNat
  · omega
  · omega

end Rounds
