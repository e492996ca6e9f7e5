import CoupledCC.Bbr.Gauges

/-!
# The filter for the aggregation of ACKs

`bbr_update_ack_aggregation` computes how many more packets an ACK has brought than were expected, and keeps the maximum
of this excess over the last rounds in two slots: the current one, and one for the five rounds before. The slots have 16
bits.

- `bbrUpdateAckAggregation_aggregation`: one call, as an ageing of the slots and a record;
- `excessAcked_lt_iff`: when the excess fits into a slot; its subtraction does not wrap;
- `Kept`: a recorded excess stays in its slot while the slot is not used for the second time;
- `windowed_max_iff`: so it is not forgotten for five rounds, if it fits into the slot.
-/

namespace CoupledCC.Bbr

open Word Runs

/-! ## The slots -/

namespace Aggregation

def slot (g : Aggregation) (idx : Bool) : U16 :=
  if idx then g.extraAcked1 else g.extraAcked0

def setSlot (g : Aggregation) (idx : Bool) (extra : U16) : Aggregation :=
  if idx then { g with extraAcked1 := extra } else { g with extraAcked0 := extra }

/-- A round starts: after five the other slot is cleared and used. -/
def age (g : Aggregation) : Aggregation :=
  let rtts : BitVec 5 := (umin (0x1f : U32) (g.extraAckedWinRtts.setWidth 32 + 1)).setWidth 5
  if bbrExtraAckedWinRtts ≤ rtts.setWidth 32 then
    { g with extraAckedWinRtts := 0, extraAckedWinIdx := !g.extraAckedWinIdx }.setSlot (!g.extraAckedWinIdx) 0
  else { g with extraAckedWinRtts := rtts }

/-- The current slot keeps the maximum of the excess. -/
def record (g : Aggregation) (acked : BitVec 20) (excess : U32) : Aggregation :=
  if (g.slot g.extraAckedWinIdx).setWidth 32 < excess then
    { g with ackEpochAcked := acked }.setSlot g.extraAckedWinIdx (excess.setWidth 16)
  else { g with ackEpochAcked := acked }

@[simp] theorem setSlot_winRtts (g : Aggregation) (idx : Bool) (extra : U16) :
    (g.setSlot idx extra).extraAckedWinRtts = g.extraAckedWinRtts := by
  cases idx <;> rfl

@[simp] theorem setSlot_winIdx (g : Aggregation) (idx : Bool) (extra : U16) :
    (g.setSlot idx extra).extraAckedWinIdx = g.extraAckedWinIdx := by
  cases idx <;> rfl

@[simp] theorem slot_setSlot (g : Aggregation) (idx : Bool) (extra : U16) : (g.setSlot idx extra).slot idx = extra := by
  cases idx <;> rfl

theorem slot_setSlot_ne (g : Aggregation) {idx idx' : Bool} (extra : U16) (h : idx' ≠ idx) :
    (g.setSlot idx extra).slot idx' = g.slot idx' := by
  cases idx <;> cases idx' <;> first | rfl | exact absurd rfl h

/-- Ageing with at most four rounds behind: the fifth flips the slots. -/
theorem age_cases {g : Aggregation} (h : g.extraAckedWinRtts.toNat ≤ 4) :
    (g.extraAckedWinRtts.toNat < 4 ∧ g.age.extraAckedWinRtts.toNat = g.extraAckedWinRtts.toNat + 1 ∧
        g.age.extraAckedWinIdx = g.extraAckedWinIdx ∧ ∀ idx, g.age.slot idx = g.slot idx) ∨
      (g.extraAckedWinRtts.toNat = 4 ∧ g.age.extraAckedWinRtts = 0 ∧ g.age.extraAckedWinIdx = !g.extraAckedWinIdx ∧
        g.age.slot g.extraAckedWinIdx = g.slot g.extraAckedWinIdx) := by
  have hnext : (umin (0x1f : U32) (g.extraAckedWinRtts.setWidth 32 + 1)).toNat = g.extraAckedWinRtts.toNat + 1 := by
    have hcap : (0x1f : U32).toNat = 31 := rfl
    have hadd : (g.extraAckedWinRtts.setWidth 32 + 1 : U32).toNat = g.extraAckedWinRtts.toNat + 1 := by
      rw [BitVec.toNat_add, BitVec.toNat_setWidth_of_le (by decide)]
      exact Nat.mod_eq_of_lt (by simp; omega)
    rw [toNat_umin, hcap, hadd]
    omega
  have hrtts : ((umin (0x1f : U32) (g.extraAckedWinRtts.setWidth 32 + 1)).setWidth 5 : BitVec 5).toNat =
      g.extraAckedWinRtts.toNat + 1 := by
    rw [BitVec.toNat_setWidth, hnext]
    omega
  have hlimit : bbrExtraAckedWinRtts.toNat = 5 := rfl
  unfold age
  simp only
  generalize (umin (0x1f : U32) (g.extraAckedWinRtts.setWidth 32 + 1)).setWidth 5 = rtts at hrtts ⊢
  have hwide : (rtts.setWidth 32 : U32).toNat = rtts.toNat := BitVec.toNat_setWidth_of_le (by decide)
  split
  · rename_i hflip
    rw [BitVec.le_def, hlimit, hwide, hrtts] at hflip
    refine .inr ⟨by omega, by simp, by simp, ?_⟩
    rw [slot_setSlot_ne _ _ (by simp)]
    rfl
  · rename_i hstay
    rw [BitVec.le_def, hlimit, hwide, hrtts] at hstay
    exact .inl ⟨by omega, hrtts, rfl, fun _ => rfl⟩

/-- A record of an excess that fits into the slot never lowers it, and leaves it at least as high as the excess. -/
theorem record_slot (g : Aggregation) (acked : BitVec 20) {excess : U32} (hfit : excess.toNat < 2 ^ 16) :
    (∀ idx, (g.slot idx).toNat ≤ ((g.record acked excess).slot idx).toNat) ∧
      excess.toNat ≤ ((g.record acked excess).slot g.extraAckedWinIdx).toNat := by
  have hnarrow : (excess.setWidth 16 : U16).toNat = excess.toNat := by
    rw [BitVec.toNat_setWidth]
    exact Nat.mod_eq_of_lt hfit
  have hwide : ((g.slot g.extraAckedWinIdx).setWidth 32 : U32).toNat = (g.slot g.extraAckedWinIdx).toNat :=
    BitVec.toNat_setWidth_of_le (by decide)
  unfold record
  split
  · rename_i hmore
    rw [BitVec.lt_def, hwide] at hmore
    rw [slot_setSlot, hnarrow]
    refine ⟨fun idx => ?_, le_refl _⟩
    by_cases hidx : idx = g.extraAckedWinIdx
    · rw [hidx, slot_setSlot, hnarrow]
      exact hmore.le
    · rw [slot_setSlot_ne _ _ hidx]
      exact le_refl _
  · rename_i hless
    rw [BitVec.lt_def, hwide, Nat.not_lt] at hless
    exact ⟨fun _ => le_refl _, hless⟩

theorem record_win (g : Aggregation) (acked : BitVec 20) (excess : U32) :
    (g.record acked excess).extraAckedWinRtts = g.extraAckedWinRtts ∧
      (g.record acked excess).extraAckedWinIdx = g.extraAckedWinIdx := by
  unfold record
  split <;> simp

end Aggregation

section Runs

variable {M : Type} {k : Kernel M}

/-! ## One call -/

/-- The call gets past its first test. -/
def Aggregates (rs : RateSample) : Prop :=
  rs.ackedSacked ≠ 0 ∧ ¬ InvalidSample rs

instance (rs : RateSample) : Decidable (Aggregates rs) := by
  unfold Aggregates
  infer_instance

/-- The packets of the epoch, with those of the sample. -/
def epochAcked (s : BbrSock M) (rs : RateSample) : BitVec 20 :=
  (umin (0xfffff : U32) (s.ca.ackEpochAcked.setWidth 32 + rs.ackedSacked)).setWidth 20

/-- The socket in which the excess is computed, and the expected packets. -/
def bbrExpected (k : Kernel M) (s : BbrSock M) (rs : RateSample) : BbrSock M × U32 :=
  bbrExpectAcked k (bbrAgeExtraAcked s) rs

/-- The excess of a call. -/
def excessAcked (k : Kernel M) (s : BbrSock M) (rs : RateSample) : U32 :=
  umin ((epochAcked (bbrExpected k s rs).1 rs).setWidth 32 - (bbrExpected k s rs).2) s.tp.sndCwnd

theorem setExtraAcked_aggregation (tp : BbrTcp) (ca : Bbr M) (idx : Bool) (extra : U16) :
    (BbrSock.mk tp (ca.setExtraAcked idx extra)).aggregation = (BbrSock.mk tp ca).aggregation.setSlot idx extra := by
  cases idx <;> rfl

theorem bbrAgeExtraAcked_aggregation (s : BbrSock M) :
    (bbrAgeExtraAcked s).aggregation = if s.ca.roundStart then s.aggregation.age else s.aggregation := by
  unfold bbrAgeExtraAcked Aggregation.age
  split
  · simp only
    split
    · rename_i hflip
      have hflip' : bbrExtraAckedWinRtts ≤
          ((umin (0x1f : U32) (s.aggregation.extraAckedWinRtts.setWidth 32 + 1)).setWidth 5).setWidth 32 := hflip
      rw [setExtraAcked_aggregation, if_pos hflip']
      rfl
    · rename_i hstay
      have hstay' : ¬ bbrExtraAckedWinRtts ≤
          ((umin (0x1f : U32) (s.aggregation.extraAckedWinRtts.setWidth 32 + 1)).setWidth 5).setWidth 32 := hstay
      rw [if_neg hstay']
      rfl
  · rfl

theorem bbrRecordExtraAcked_aggregation (s : BbrSock M) (expectedAcked : U32) (rs : RateSample) :
    (bbrRecordExtraAcked s expectedAcked rs).aggregation = s.aggregation.record (epochAcked s rs)
      (umin ((epochAcked s rs).setWidth 32 - expectedAcked) s.tp.sndCwnd) := by
  unfold bbrRecordExtraAcked Aggregation.record
  simp only
  split
  · rename_i hmore
    rw [setExtraAcked_aggregation]
    exact (if_pos hmore).symm
  · rename_i hless
    exact (if_neg hless).symm

/-- **One call** ages the slots at the start of a round, and records its excess. -/
theorem bbrUpdateAckAggregation_aggregation (s : BbrSock M) {rs : RateSample} (h : Aggregates rs) :
    (bbrUpdateAckAggregation k s rs).aggregation = Aggregation.record
      (if s.ca.roundStart then s.aggregation.age else s.aggregation) (epochAcked (bbrExpected k s rs).1 rs)
      (excessAcked k s rs) := by
  have hgo : ¬ (bbrExtraAckedGain = 0 ∨ rs.ackedSacked = 0 ∨ InvalidSample rs) := by
    rintro (hgain | hzero | hinvalid)
    · exact absurd hgain (by decide)
    · exact h.1 hzero
    · exact h.2 hinvalid
  have hcwnd : (bbrExpected k s rs).1.tp.sndCwnd = s.tp.sndCwnd := by
    unfold bbrExpected bbrExpectAcked bbrAgeExtraAcked
    simp only
    split <;> split <;> first | rfl | split <;> rfl
  have hexpect : ∃ acked, (bbrExpected k s rs).1.aggregation =
      { (if s.ca.roundStart then s.aggregation.age else s.aggregation) with ackEpochAcked := acked } := by
    rw [← bbrAgeExtraAcked_aggregation]
    unfold bbrExpected bbrExpectAcked
    simp only
    split
    · exact ⟨0, rfl⟩
    · exact ⟨(bbrAgeExtraAcked s).ca.ackEpochAcked, rfl⟩
  obtain ⟨acked, hexpect⟩ := hexpect
  unfold bbrUpdateAckAggregation
  rw [if_neg hgo]
  show (bbrRecordExtraAcked (bbrExpected k s rs).1 (bbrExpected k s rs).2 rs).aggregation = _
  unfold excessAcked
  rw [← hcwnd]
  rw [bbrRecordExtraAcked_aggregation, hexpect]
  rfl

/-! ## The excess -/

/-- The packets expected since the start of the epoch. -/
def expectedPackets (k : Kernel M) (s : BbrSock M) : U32 :=
  ((bbrBw k s).setWidth 64 * (k.tcpStampUsDelta s.tp.deliveredMstamp s.ca.ackEpochMstamp).setWidth 64 /
    bwUnit).setWidth 32

/-- The epoch starts anew at a sample: the ACKs are behind, or too many packets have been counted. -/
def EpochEnds (k : Kernel M) (s : BbrSock M) (rs : RateSample) : Prop :=
  s.ca.ackEpochAcked.toNat ≤ (expectedPackets k s).toNat ∨ 2 ^ 20 ≤ s.ca.ackEpochAcked.toNat + rs.ackedSacked.toNat

instance (s : BbrSock M) (rs : RateSample) : Decidable (EpochEnds k s rs) := by
  unfold EpochEnds
  infer_instance

/-- The window is below `2^16` packets, or the ACKs of the epoch are less than that ahead of the expected packets. -/
def FitsSlot (k : Kernel M) (s : BbrSock M) (rs : RateSample) : Prop :=
  s.tp.sndCwnd.toNat < 2 ^ 16 ∨
    if EpochEnds k s rs then rs.ackedSacked.toNat < 2 ^ 16
    else s.ca.ackEpochAcked.toNat + rs.ackedSacked.toNat < (expectedPackets k s).toNat + 2 ^ 16

instance (s : BbrSock M) (rs : RateSample) : Decidable (FitsSlot k s rs) := by
  unfold FitsSlot
  infer_instance

theorem bbrAgeExtraAcked_epoch (s : BbrSock M) :
    expectedPackets k (bbrAgeExtraAcked s) = expectedPackets k s ∧
      (bbrAgeExtraAcked s).ca.ackEpochAcked = s.ca.ackEpochAcked := by
  unfold bbrAgeExtraAcked
  split
  · simp only
    split
    · cases s.ca.extraAckedWinIdx <;> exact ⟨rfl, rfl⟩
    · exact ⟨rfl, rfl⟩
  · exact ⟨rfl, rfl⟩

/-- The packets of the epoch with those of the sample, as 32-bit words. -/
theorem toNat_epochSum (s : BbrSock M) {rs : RateSample} (hsacked : rs.ackedSacked.toNat < 2 ^ 31) :
    (s.ca.ackEpochAcked.setWidth 32 : U32).toNat = s.ca.ackEpochAcked.toNat ∧
      (s.ca.ackEpochAcked.setWidth 32 + rs.ackedSacked : U32).toNat =
        s.ca.ackEpochAcked.toNat + rs.ackedSacked.toNat := by
  have hlt := s.ca.ackEpochAcked.isLt
  have hwide : (s.ca.ackEpochAcked.setWidth 32 : U32).toNat = s.ca.ackEpochAcked.toNat :=
    BitVec.toNat_setWidth_of_le (by decide)
  refine ⟨hwide, ?_⟩
  rw [BitVec.toNat_add_of_lt (by rw [hwide]; omega), hwide]

/-- The epoch, after the test whether it ends. -/
theorem bbrExpected_spec (s : BbrSock M) {rs : RateSample} (hsacked : rs.ackedSacked.toNat < 2 ^ 31) :
    (EpochEnds k s rs ∧ (bbrExpected k s rs).1.ca.ackEpochAcked = 0 ∧ (bbrExpected k s rs).2 = 0) ∨
      (¬ EpochEnds k s rs ∧ (bbrExpected k s rs).1.ca.ackEpochAcked = s.ca.ackEpochAcked ∧
        (bbrExpected k s rs).2 = expectedPackets k s) := by
  obtain ⟨hexpected, hacked⟩ := bbrAgeExtraAcked_epoch (k := k) s
  obtain ⟨hwide, hadd⟩ := toNat_epochSum s hsacked
  have hthresh : bbrAckEpochAckedResetThresh.toNat = 2 ^ 20 := by decide
  have hends : ((s.ca.ackEpochAcked.setWidth 32 : U32) ≤ expectedPackets k s ∨
      bbrAckEpochAckedResetThresh ≤ s.ca.ackEpochAcked.setWidth 32 + rs.ackedSacked) ↔ EpochEnds k s rs := by
    rw [BitVec.le_def, BitVec.le_def, hwide, hadd, hthresh]
    rfl
  have hunfold : bbrExpected k s rs =
      if (s.ca.ackEpochAcked.setWidth 32 : U32) ≤ expectedPackets k s ∨
          bbrAckEpochAckedResetThresh ≤ s.ca.ackEpochAcked.setWidth 32 + rs.ackedSacked then
        (⟨(bbrAgeExtraAcked s).tp, { (bbrAgeExtraAcked s).ca with
          ackEpochAcked := 0, ackEpochMstamp := (bbrAgeExtraAcked s).tp.deliveredMstamp }⟩, 0)
      else (bbrAgeExtraAcked s, expectedPackets k s) := by
    rw [← hacked, ← hexpected]
    rfl
  rw [hunfold]
  split
  · rename_i hreset
    exact .inl ⟨hends.mp hreset, rfl, rfl⟩
  · rename_i hgoes
    exact .inr ⟨fun h => hgoes (hends.mpr h), hacked, rfl⟩

theorem toNat_epochAcked (s : BbrSock M) {rs : RateSample} (hsacked : rs.ackedSacked.toNat < 2 ^ 31) :
    ((epochAcked s rs).setWidth 32 : U32).toNat =
      min (2 ^ 20 - 1) (s.ca.ackEpochAcked.toNat + rs.ackedSacked.toNat) := by
  obtain ⟨-, hadd⟩ := toNat_epochSum s hsacked
  have hcap : (0xfffff : U32).toNat = 2 ^ 20 - 1 := rfl
  have hmin : (umin (0xfffff : U32) (s.ca.ackEpochAcked.setWidth 32 + rs.ackedSacked)).toNat =
      min (2 ^ 20 - 1) (s.ca.ackEpochAcked.toNat + rs.ackedSacked.toNat) := by
    rw [toNat_umin, hcap, hadd]
  unfold epochAcked
  rw [BitVec.toNat_setWidth_of_le (by decide), BitVec.toNat_setWidth, hmin]
  exact Nat.mod_eq_of_lt (by omega)

/-- The expected packets are at most those of the epoch: the subtraction does not wrap. -/
theorem expected_le_epochAcked (s : BbrSock M) {rs : RateSample} (hsacked : rs.ackedSacked.toNat < 2 ^ 31) :
    (bbrExpected k s rs).2.toNat ≤ ((epochAcked (bbrExpected k s rs).1 rs).setWidth 32 : U32).toNat := by
  rw [toNat_epochAcked _ hsacked]
  rcases bbrExpected_spec (k := k) s hsacked with ⟨-, -, hzero⟩ | ⟨hgoes, hacked, hexpected⟩
  · rw [hzero]
    exact Nat.zero_le _
  · rw [hacked, hexpected]
    unfold EpochEnds at hgoes
    omega

/-- **The excess** fits into its slot exactly if the window does, or the lead of the ACKs. -/
theorem excessAcked_lt_iff (s : BbrSock M) {rs : RateSample} (hsacked : rs.ackedSacked.toNat < 2 ^ 31) :
    (excessAcked k s rs).toNat < 2 ^ 16 ↔ FitsSlot k s rs := by
  have hle := expected_le_epochAcked (k := k) s hsacked
  have hacked := toNat_epochAcked (bbrExpected k s rs).1 hsacked
  unfold excessAcked FitsSlot
  rw [toNat_umin, BitVec.toNat_sub_of_le (BitVec.le_def.mpr hle), hacked]
  rw [hacked] at hle
  rcases bbrExpected_spec (k := k) s hsacked with ⟨hends, hzero, hexpected⟩ | ⟨hgoes, hsame, hexpected⟩
  · have hzeros : (0 : BitVec 20).toNat = 0 ∧ (0 : U32).toNat = 0 := ⟨rfl, rfl⟩
    rw [if_pos hends, hzero, hexpected, hzeros.1, hzeros.2]
    omega
  · rw [hsame, hexpected] at hle ⊢
    rw [if_neg hgoes]
    unfold EpochEnds at hgoes
    omega

/-! ## An excess in its slot -/

/-- An excess `e` has been recorded in a slot, and `n` rounds have started since: it is still there, and if the other
slot is the current one, that is so for fewer rounds. -/
structure Kept (idx : Bool) (e n : ℕ) (g : Aggregation) : Prop where
  slot : e ≤ (g.slot idx).toNat
  rtts : g.extraAckedWinRtts.toNat ≤ 4
  away : g.extraAckedWinIdx ≠ idx → g.extraAckedWinRtts.toNat + 1 ≤ n

/-- The slots are aged for fewer than five rounds in a row. -/
theorem age_rtts {g : Aggregation} (h : g.extraAckedWinRtts.toNat ≤ 4) : g.age.extraAckedWinRtts.toNat ≤ 4 := by
  rcases g.age_cases h with ⟨hfew, hnext, -, -⟩ | ⟨-, hzero, -, -⟩
  · omega
  · rw [hzero]
    exact Nat.zero_le 4

theorem Kept.age {idx : Bool} {e n : ℕ} {g : Aggregation} (h : Kept idx e n g) (hn : n + 1 < 5) :
    Kept idx e (n + 1) g.age := by
  have haway := h.away
  refine ⟨?_, age_rtts h.rtts, ?_⟩
  · rcases g.age_cases h.rtts with ⟨-, -, -, hslot⟩ | ⟨hfull, -, -, hslot⟩
    · rw [hslot]
      exact h.slot
    · -- a flip that clears the slot would be the second one
      have hcurrent : g.extraAckedWinIdx = idx := by
        by_contra hne
        have hrounds := haway hne
        omega
      rw [← hcurrent, hslot, hcurrent]
      exact h.slot
  · intro hne
    rcases g.age_cases h.rtts with ⟨-, hnext, hidx, -⟩ | ⟨-, hzero, -, -⟩
    · rw [hidx] at hne
      have hrounds := haway hne
      omega
    · rw [hzero]
      exact Nat.le_add_left 1 n

theorem Kept.record {idx : Bool} {e n : ℕ} {g : Aggregation} (h : Kept idx e n g) (acked : BitVec 20) {excess : U32}
    (hfit : excess.toNat < 2 ^ 16) : Kept idx e n (g.record acked excess) := by
  obtain ⟨hrtts, hidx⟩ := g.record_win acked excess
  obtain ⟨hslots, -⟩ := g.record_slot acked hfit
  refine ⟨h.slot.trans (hslots idx), ?_, ?_⟩
  · rw [hrtts]
    exact h.rtts
  · rw [hrtts, hidx]
    exact h.away

/-- The count of the epoch has nothing to do with the slots. -/
theorem Kept.epoch {idx : Bool} {e n : ℕ} {g : Aggregation} (h : Kept idx e n g) (acked : BitVec 20) :
    Kept idx e n { g with ackEpochAcked := acked } :=
  ⟨h.slot, h.rtts, h.away⟩

theorem Kept.mono {idx : Bool} {e n n' : ℕ} {g : Aggregation} (h : Kept idx e n g) (hn : n ≤ n') : Kept idx e n' g :=
  ⟨h.slot, h.rtts, fun hne => (h.away hne).trans hn⟩

/-! ## Runs -/

/-- The state in which an ACK comes to `bbr_update_ack_aggregation`. -/
def bbrAtAggregation (k : Kernel M) (s : BbrSock M) (rs : RateSample) (rands : Rands) : BbrSock M :=
  bbrUpdateBw k s rs rands.sampling

/-- The rounds that have started. -/
def countRounds (k : Kernel M) (n : ℕ) : Transition (BbrSock M) Action → ℕ
  | (s, .call (.main rs _ rands), _) => if (bbrAtAggregation k s rs rands).ca.roundStart then n + 1 else n
  | _ => n

/-- An action that does not call `bbr_init` again, and whose excess, if it computes one, fits into its slot. -/
def SlotOk (k : Kernel M) (s : BbrSock M) : Action → Prop
  | .init _ => False
  | .call (.main rs _ rands) =>
    rs.ackedSacked.toNat < 2 ^ 31 ∧ (Aggregates rs → FitsSlot k (bbrAtAggregation k s rs rands) rs)
  | _ => True

/-- The slots after an ACK. -/
theorem bbrMain_slots (s : BbrSock M) (rs : RateSample) (clk : Clock) (rands : Rands) :
    let s₁ := bbrAtAggregation k s rs rands
    (Aggregates rs ∧ (bbrMain k s rs clk rands).aggregation = Aggregation.record
        (if s₁.ca.roundStart then s.aggregation.age else s.aggregation) (epochAcked (bbrExpected k s₁ rs).1 rs)
        (excessAcked k s₁ rs)) ∨
      (¬ Aggregates rs ∧ (bbrMain k s rs clk rands).aggregation = s.aggregation) := by
  have hsame : (bbrAtAggregation k s rs rands).aggregation = s.aggregation :=
    aggregation_of_gauges (bbrUpdateBw_gauges s rs rands.sampling)
  have hmain : (bbrMain k s rs clk rands).aggregation =
      (bbrUpdateAckAggregation k (bbrAtAggregation k s rs rands) rs).aggregation := bbrMain_aggregation s rs clk rands
  simp only
  rw [hmain, ← hsame]
  by_cases hgo : Aggregates rs
  · exact .inl ⟨hgo, bbrUpdateAckAggregation_aggregation _ hgo⟩
  · refine .inr ⟨hgo, ?_⟩
    have hstop : bbrExtraAckedGain = 0 ∨ rs.ackedSacked = 0 ∨ InvalidSample rs := by
      unfold Aggregates at hgo
      tauto
    unfold bbrUpdateAckAggregation
    rw [if_pos hstop]

/-- The other callbacks reset the count of the epoch at most. -/
theorem quiet_aggregation {s s' : BbrSock M} {a : Action} (ha : Acts k s a s') (hinit : a.NoInit)
    (hmain : ∀ rs clk rands, a ≠ .call (.main rs clk rands)) :
    s'.aggregation = s.aggregation ∨ s'.aggregation = { s.aggregation with ackEpochAcked := 0 } := by
  unfold Acts at ha
  subst ha
  cases a with
  | init now => exact absurd hinit id
  | kernel tp => exact .inl rfl
  | call c =>
    cases c with
    | main rs clk rands => exact absurd rfl (hmain rs clk rands)
    | cwndEvent event check restart rand =>
      rcases bbrCwndEvent_gauges (k := k) s event check restart rand with heq | heq
      · exact .inl (congrArg Prod.snd heq)
      · exact .inr (congrArg Prod.snd heq)
    | ssthresh => exact .inl (aggregation_of_gauges (bbrSaveCwnd_gauges s))
    | undoCwnd => exact .inl rfl
    | setState newState rand =>
      have heq := congrArg Prod.snd (bbrSetState_gauges (k := k) s newState rand)
      refine .inl (heq.trans ?_)
      split <;> rfl

/-- The invariant of all runs: the slots are aged for at most four rounds. -/
theorem acts_rtts {s s' : BbrSock M} {a : Action} (h : s.aggregation.extraAckedWinRtts.toNat ≤ 4) (ha : Acts k s a s') :
    s'.aggregation.extraAckedWinRtts.toNat ≤ 4 := by
  by_cases hmain : ∃ rs clk rands, a = .call (.main rs clk rands)
  · obtain ⟨rs, clk, rands, rfl⟩ := hmain
    unfold Acts at ha
    subst ha
    show (bbrMain k s rs clk rands).aggregation.extraAckedWinRtts.toNat ≤ 4
    rcases bbrMain_slots (k := k) s rs clk rands with ⟨-, heq⟩ | ⟨-, heq⟩
    · rw [heq, (Aggregation.record_win _ _ _).1]
      split
      · exact age_rtts h
      · exact h
    · rw [heq]
      exact h
  · push Not at hmain
    by_cases hinit : a.NoInit
    · rcases quiet_aggregation ha hinit hmain with heq | heq
      · rw [heq]
        exact h
      · rw [heq]
        exact h
    · cases a with
      | init now =>
        unfold Acts at ha
        subst ha
        exact Nat.zero_le 4
      | _ => exact absurd trivial hinit

/-- **One action** after the record. -/
theorem kept_step {idx : Bool} {e : ℕ} (n : ℕ) (s : BbrSock M) (a : Action) (s' : BbrSock M)
    (h : n < 5 → Kept idx e n s.aggregation) (hstep : Acts k s a s' ∧ SlotOk k s a) :
    countRounds k n (s, a, s') < 5 → Kept idx e (countRounds k n (s, a, s')) s'.aggregation := by
  obtain ⟨ha, hok⟩ := hstep
  by_cases hmain : ∃ rs clk rands, a = .call (.main rs clk rands)
  · obtain ⟨rs, clk, rands, rfl⟩ := hmain
    unfold Acts at ha
    subst ha
    obtain ⟨hsacked, hfits⟩ := hok
    show countRounds k n _ < 5 → Kept idx e (countRounds k n _) (bbrMain k s rs clk rands).aggregation
    simp only [countRounds]
    intro hn
    have hkept := h (by split at hn <;> omega)
    rcases bbrMain_slots (k := k) s rs clk rands with ⟨hgo, heq⟩ | ⟨-, heq⟩
    · rw [heq]
      apply Kept.record _ _ ((excessAcked_lt_iff _ hsacked).mpr (hfits hgo))
      split at hn
      · rename_i hround
        rw [if_pos hround, if_pos hround]
        exact hkept.age hn
      · rename_i hround
        rw [if_neg hround, if_neg hround]
        exact hkept
    · rw [heq]
      apply hkept.mono
      split <;> omega
  · push Not at hmain
    have hinit : a.NoInit := by
      cases a with
      | init now => exact hok
      | _ => trivial
    have hcount : countRounds k n (s, a, s') = n := by
      unfold countRounds
      split
      · rename_i heq
        exact absurd (congrArg (fun t => t.2.1) heq) (hmain _ _ _)
      · rfl
    rw [hcount]
    intro hn
    rcases quiet_aggregation ha hinit hmain with heq | heq
    · rw [heq]
      exact h hn
    · rw [heq]
      exact (h hn).epoch 0

/-- Both slots count for `bbr_extra_acked`. -/
theorem slot_le_bbrExtraAcked (s : BbrSock M) (idx : Bool) :
    (s.aggregation.slot idx).toNat ≤ (bbrExtraAcked s).toNat := by
  unfold bbrExtraAcked
  rw [toNat_umax]
  cases idx
  · exact le_max_left _ _
  · exact le_max_right _ _

/-- An excess is not forgotten: after any run from `s` of the given steps in which fewer than five rounds start, the
filter is at least as high. -/
def Remembered (k : Kernel M) (step : BbrSock M → Action → BbrSock M → Prop) (e : U32) (s : BbrSock M) : Prop :=
  ∀ tr s', Trace step s tr s' → history (countRounds k) 0 tr < 5 → e.toNat ≤ (bbrExtraAcked s').toNat

/-- **When the filter is a windowed maximum.** At an ACK that computes an excess, after any run from `bbr_init`: the
subtraction does not wrap, and the excess is not forgotten by calls whose own excess fits into its slot, exactly if the
window is below `2^16` packets or the ACKs of the epoch are less than that ahead of the expected packets. -/
theorem windowed_max_iff {s₀ s s' : BbrSock M} {now : ℕ} {tr : List (Transition (BbrSock M) Action)}
    (hrun : Trace (Acts k) (bbrInit k s₀ now) tr s) (rs : RateSample) (clk : Clock) (rands : Rands)
    (hstep : Acts k s (.call (.main rs clk rands)) s') (hgo : Aggregates rs) (hsacked : rs.ackedSacked.toNat < 2 ^ 31) :
    let s₁ := bbrAtAggregation k s rs rands
    (bbrExpected k s₁ rs).2.toNat ≤ ((epochAcked (bbrExpected k s₁ rs).1 rs).setWidth 32 : U32).toNat ∧
      (Remembered k (fun s a s' => Acts k s a s' ∧ SlotOk k s a) (excessAcked k s₁ rs) s' ↔ FitsSlot k s₁ rs) := by
  have hinit : (bbrInit k s₀ now).aggregation.extraAckedWinRtts.toNat ≤ 4 := Nat.zero_le 4
  have hrtts : s.aggregation.extraAckedWinRtts.toNat ≤ 4 :=
    hrun.invariant (I := fun s => s.aggregation.extraAckedWinRtts.toNat ≤ 4) (fun _ _ _ h ha => acts_rtts h ha) hinit
  refine ⟨expected_le_epochAcked _ hsacked, ?_⟩
  rw [← excessAcked_lt_iff _ hsacked]
  constructor
  · intro hremembered
    have hnow := hremembered [] s' (.nil s') (by decide : (0 : ℕ) < 5)
    exact lt_of_le_of_lt hnow (bbrExtraAcked s').isLt
  · intro hfit tr' s'' htrace hrounds
    rcases bbrMain_slots (k := k) s rs clk rands with ⟨-, heq⟩ | ⟨hno, -⟩
    · have hmain : s'.aggregation = (bbrMain k s rs clk rands).aggregation := congrArg _ (Eq.symm hstep)
      rw [heq] at hmain
      generalize hg : (if (bbrAtAggregation k s rs rands).ca.roundStart then s.aggregation.age else s.aggregation) =
        g at hmain
      have hage : g.extraAckedWinRtts.toNat ≤ 4 := by
        rw [← hg]
        split
        · exact age_rtts hrtts
        · exact hrtts
      obtain ⟨hrtts', hidx'⟩ := g.record_win (epochAcked (bbrExpected k (bbrAtAggregation k s rs rands) rs).1 rs)
        (excessAcked k (bbrAtAggregation k s rs rands) rs)
      have hkept : Kept g.extraAckedWinIdx
          (excessAcked k (bbrAtAggregation k s rs rands) rs).toNat 0 s'.aggregation := by
        rw [hmain]
        exact ⟨(g.record_slot _ hfit).2, by rw [hrtts']; exact hage, fun hne => absurd hidx' hne⟩
      have hend := htrace.history_invariant kept_step 0 (fun _ => hkept)
      exact (hend hrounds).slot.trans (slot_le_bbrExtraAcked s'' _)
    · exact absurd hgo hno

/-- A window of 10 packets, and a first ACK of 10: the excess of 10 is not forgotten for five rounds. -/
theorem windowed_max_iff_ten :
    let s := bbrInit plainKernel (plainSock 10 100) 1000
    let rs : RateSample := ⟨20, 10, 1000, 1000, 0, 10, 10, false, false⟩
    let rands : Rands := ⟨0, 0, 0⟩
    let s₁ := bbrAtAggregation plainKernel s rs rands
    ∃ s', Acts plainKernel s (.call (.main rs ⟨1001, 1001, 1001, 1001, 1001⟩ rands)) s' ∧
      excessAcked plainKernel s₁ rs = 10 ∧
      (bbrExpected plainKernel s₁ rs).2.toNat ≤
        ((epochAcked (bbrExpected plainKernel s₁ rs).1 rs).setWidth 32 : U32).toNat ∧
      Remembered plainKernel (fun s a s' => Acts plainKernel s a s' ∧ SlotOk plainKernel s a)
        (excessAcked plainKernel s₁ rs) s' := by
  intro s rs rands s₁
  have hexcess : excessAcked plainKernel s₁ rs = 10 := by decide +kernel
  have hfits : FitsSlot plainKernel s₁ rs := by decide +kernel
  obtain ⟨hle, hiff⟩ := windowed_max_iff (.nil s) rs ⟨1001, 1001, 1001, 1001, 1001⟩ rands rfl ⟨by decide, by decide⟩
    (by decide)
  exact ⟨_, rfl, hexcess, hle, hiff.mpr hfits⟩

/-- A window of 100000 packets, and a first ACK of 65536: the excess does not fit into the slot, which is left at 0. -/
theorem excess_truncated :
    let s := bbrInit plainKernel (plainSock 100000 100) 1000
    let rs : RateSample := ⟨20, 65536, 1000, 1000, 0, 65536, 10, false, false⟩
    let rands : Rands := ⟨0, 0, 0⟩
    let s₁ := bbrAtAggregation plainKernel s rs rands
    ∃ s', Acts plainKernel s (.call (.main rs ⟨1001, 1001, 1001, 1001, 1001⟩ rands)) s' ∧ Aggregates rs ∧
      rs.ackedSacked.toNat < 2 ^ 31 ∧ excessAcked plainKernel s₁ rs = 65536 ∧ bbrExtraAcked s' = 0 ∧
      ¬ Remembered plainKernel (fun s a s' => Acts plainKernel s a s' ∧ a.NoInit)
        (excessAcked plainKernel s₁ rs) s' := by
  intro s rs rands s₁
  have hexcess : excessAcked plainKernel s₁ rs = 65536 := by decide +kernel
  have hlost : bbrExtraAcked (bbrMain plainKernel s rs ⟨1001, 1001, 1001, 1001, 1001⟩ rands) = 0 := by decide +kernel
  refine ⟨_, rfl, ⟨by decide, by decide⟩, by decide, hexcess, hlost, fun hremembered => ?_⟩
  have hnow := hremembered [] _ (.nil _) (by decide : (0 : ℕ) < 5)
  rw [hexcess] at hnow
  revert hnow
  show ¬ _ ≤ (bbrExtraAcked (bbrMain plainKernel s rs ⟨1001, 1001, 1001, 1001, 1001⟩ rands)).toNat
  rw [hlost]
  decide

end Runs

end CoupledCC.Bbr
