import CoupledCC.Lib.Rounds
import CoupledCC.Vegas.Samples

/-!
# The rounds of Vegas

`beg_snd_nxt` marks what had been sent when Vegas was last enabled or last adjusted the window, and an ACK beyond it
brings the next adjustment. Sequence numbers are 32-bit words; beside the connection stand the numbers of bytes
(`Gauge`).

- `sent_step`: one event keeps the words and the numbers together;
- `adjusts_exact`: so the window is adjusted exactly once everything that had been sent at the last adjustment is
  acknowledged.
-/

namespace CoupledCC.Vegas

open Word Runs Rounds

/-- The event enables Vegas. -/
def Event.Enables : Event → Prop
  | .state caState => caState = tcpCaOpen
  | .cwndEvent event => event = .cwndRestart ∨ event = .txStart
  | .kernel _ | .pktsAcked _ | .congAvoid _ _ => False

instance : DecidablePred Event.Enables
  | .state caState => inferInstanceAs (Decidable (caState = tcpCaOpen))
  | .cwndEvent event => inferInstanceAs (Decidable (event = .cwndRestart ∨ event = .txStart))
  | .kernel _ | .pktsAcked _ | .congAvoid _ _ => .isFalse id

/-- One event, on the connection and the number of bytes sent on it. An ACK stands for the first `x` of them; while
Vegas is enabled, at most `W` bytes are sent beyond it, and at most `G` since the last ACK. -/
def Sent (W G : ℕ) (s : VegasSock × Gauge) (e : Event × ℕ) (s' : VegasSock × Gauge) : Prop :=
  Step s.1 e.1 s'.1 ∧
    match e.1 with
    | .kernel tp => ∃ top, s.2.top ≤ top ∧ tp.sndNxt = BitVec.ofNat 32 top ∧ s'.2 = { s.2 with top := top }
    | .congAvoid ack _ =>
      ack = BitVec.ofNat 32 e.2 ∧ (s.1.ca.doingVegasNow ≠ 0 → Probed W G s.2 e.2) ∧
        s'.2 = if Adjusts s.1 ack then s.2.restart else s.2.probe
    | event => s'.2 = if event.Enables then s.2.restart else s.2

/-- What had been sent when Vegas was last enabled or last adjusted the window. -/
def noteSent (n : ℕ) : Transition (VegasSock × Gauge) (Event × ℕ) → ℕ
  | (s, (.congAvoid ack _, _), _) => if Adjusts s.1 ack then s.2.top else n
  | (s, (event, _), _) => if event.Enables then s.2.top else n

/-- The words of the connection are the low words of the numbers. -/
structure Marked (W : ℕ) (n : ℕ) (s : VegasSock × Gauge) : Prop where
  sndNxt : s.1.tp.sndNxt = BitVec.ofNat 32 s.2.top
  mark : s.2.mark = n
  begSndNxt : s.1.ca.doingVegasNow ≠ 0 → s.1.ca.begSndNxt = BitVec.ofNat 32 n
  kept : s.1.ca.doingVegasNow ≠ 0 → MarkKept W s.2

/-- The comparison with `beg_snd_nxt` is that of the numbers. -/
theorem Marked.adjusts_iff {W G n : ℕ} (hfit : W + G < 2 ^ 31) {s : VegasSock × Gauge} (h : Marked W n s) {x : ℕ}
    (hx : s.1.ca.doingVegasNow ≠ 0 → Probed W G s.2 x) :
    Adjusts s.1 (BitVec.ofNat 32 x) ↔ s.1.ca.doingVegasNow ≠ 0 ∧ n < x := by
  unfold Adjusts
  apply and_congr_right
  intro hdoing
  have hdistance : (BitVec.ofNat 32 s.2.mark - BitVec.ofNat 32 x).toInt = (s.2.mark : ℤ) - x :=
    (h.kept hdoing).toInt_mark_sub (hx hdoing) hfit
  rw [h.begSndNxt hdoing, ← h.mark, after, before, decide_eq_true_iff, hdistance]
  omega

/-- Vegas is enabled, or the window was adjusted. -/
theorem Marked.restart {W n : ℕ} {s : VegasSock × Gauge} (h : Marked W n s) {s' : VegasSock}
    (htp : s'.tp.sndNxt = s.1.tp.sndNxt) (hbeg : s'.ca.begSndNxt = s.1.tp.sndNxt) :
    Marked W s.2.top (s', s.2.restart) :=
  ⟨htp.trans h.sndNxt, rfl, fun _ => hbeg.trans h.sndNxt, fun _ => .restart W s.2⟩

/-- The mark is left alone, and Vegas not enabled. -/
theorem Marked.keep {W n : ℕ} {s : VegasSock × Gauge} (h : Marked W n s) {s' : VegasSock}
    (htp : s'.tp.sndNxt = s.1.tp.sndNxt) (hbeg : s'.ca.begSndNxt = s.1.ca.begSndNxt)
    (hdoing : s'.ca.doingVegasNow ≠ 0 → s.1.ca.doingVegasNow ≠ 0) : Marked W n (s', s.2) :=
  ⟨htp.trans h.sndNxt, h.mark, fun hne => hbeg.trans (h.begSndNxt (hdoing hne)), fun hne => h.kept (hdoing hne)⟩

/-- The sampling of a round-trip time. -/
theorem tcpVegasPktsAcked_frame (s : VegasSock) (rttUs : U32) :
    (tcpVegasPktsAcked s rttUs).tp = s.tp ∧ (tcpVegasPktsAcked s rttUs).ca.begSndNxt = s.ca.begSndNxt ∧
      (tcpVegasPktsAcked s rttUs).ca.doingVegasNow = s.ca.doingVegasNow := by
  unfold tcpVegasPktsAcked
  split <;> exact ⟨rfl, rfl, rfl⟩

/-! ## What an ACK leaves alone -/

theorem tcpCongAvoidAi_sndNxt {tp tp' : TcpSock} {w acked : U32} (h : tcpCongAvoidAi tp w acked = some tp') :
    tp'.sndNxt = tp.sndNxt := by
  rw [tcpCongAvoidAi_frame h]
  rfl

theorem tcpRenoCongAvoid_sndNxt {tp tp' : TcpSock} {acked : U32} (h : tcpRenoCongAvoid tp acked = some tp') :
    tp'.sndNxt = tp.sndNxt := by
  rw [tcpRenoCongAvoid] at h
  obtain ⟨tp₁, left, hslow, htp₁⟩ : ∃ tp₁ left, tcpSlowStart tp acked = (tp₁, left) ∧ tp₁.sndNxt = tp.sndNxt :=
    ⟨_, _, rfl, rfl⟩
  rw [hslow] at h
  by_cases hlimited : (!tcpIsCwndLimited tp) = true
  · rw [if_pos hlimited] at h
    cases h
    rfl
  · rw [if_neg hlimited] at h
    dsimp only at h
    split at h
    · by_cases hleft : left = 0
      · rw [if_pos hleft] at h
        cases h
        exact htp₁
      · rw [if_neg hleft] at h
        exact (tcpCongAvoidAi_sndNxt h).trans htp₁
    · exact tcpCongAvoidAi_sndNxt h

theorem vegasDecide_sndNxt (tp : TcpSock) (acked : U32) (target : U64) (diff : U32) :
    (vegasDecide tp acked target diff).sndNxt = tp.sndNxt := by
  unfold vegasDecide
  split
  · rfl
  · split
    · rfl
    · split
      · rfl
      · split <;> rfl

theorem vegasAdjust_sndNxt {tp tp' : TcpSock} {ca : Vegas} {acked : U32} (h : vegasAdjust tp ca acked = some tp') :
    tp'.sndNxt = tp.sndNxt := by
  unfold vegasAdjust at h
  split at h
  · exact tcpRenoCongAvoid_sndNxt h
  · obtain ⟨tp₁, hformula, rfl⟩ := Option.map_eq_some_iff.mp h
    obtain ⟨target, -, hdiff⟩ := Option.bind_eq_some_iff.mp hformula
    obtain ⟨diff, -, rfl⟩ := Option.map_eq_some_iff.mp hdiff
    exact vegasDecide_sndNxt tp acked target diff

/-- An ACK writes only the window of the socket, and the mark only when it adjusts. -/
theorem tcpVegasCongAvoid_frame {s s' : VegasSock} {ack acked : U32} (h : tcpVegasCongAvoid s ack acked = some s') :
    s'.tp.sndNxt = s.tp.sndNxt ∧ s'.ca.doingVegasNow = s.ca.doingVegasNow ∧
      s'.ca.begSndNxt = if Adjusts s ack then s.tp.sndNxt else s.ca.begSndNxt := by
  have hca := tcpVegasCongAvoid_ca h
  by_cases hadjusts : Adjusts s ack
  · rw [if_pos hadjusts]
    rw [tcpVegasCongAvoid_adjusts hadjusts] at h
    obtain ⟨tp, htp, rfl⟩ := Option.map_eq_some_iff.mp h
    exact ⟨vegasAdjust_sndNxt htp, rfl, rfl⟩
  · rw [if_neg hadjusts] at hca ⊢
    rw [hca]
    refine ⟨?_, rfl, rfl⟩
    unfold tcpVegasCongAvoid at h
    split at h
    · obtain ⟨tp, htp, rfl⟩ := Option.map_eq_some_iff.mp h
      exact tcpRenoCongAvoid_sndNxt htp
    · rename_i hdoing
      split at h
      · rename_i hafter
        exact absurd ⟨hdoing, hafter⟩ hadjusts
      · split at h <;> cases h <;> rfl

/-! ## Runs -/

/-- **One event** keeps the words and the numbers together. -/
theorem sent_step {W G : ℕ} (hfit : W + G < 2 ^ 31) {n : ℕ} {s s' : VegasSock × Gauge} {e : Event × ℕ}
    (h : Marked W n s) (hstep : Sent W G s e s') : Marked W (noteSent n (s, e, s')) s' := by
  obtain ⟨v, g⟩ := s
  obtain ⟨v', g'⟩ := s'
  obtain ⟨event, x⟩ := e
  obtain ⟨hrun, hcount⟩ := hstep
  unfold Step at hrun
  cases event with
  | kernel tp =>
    cases hrun
    obtain ⟨top, hle, htop, rfl⟩ := hcount
    exact ⟨htop, h.mark, h.begSndNxt, fun hdoing => (h.kept hdoing).grow hle⟩
  | pktsAcked rttUs =>
    cases hrun
    cases hcount
    obtain ⟨htp, hbeg, hdoing⟩ := tcpVegasPktsAcked_frame v rttUs
    exact h.keep (congrArg TcpSock.sndNxt htp) hbeg fun hne => hdoing ▸ hne
  | state caState =>
    have hv : v' = tcpVegasState v caState := (Option.some.inj hrun).symm
    have hg : g' = if (Event.state caState).Enables then g.restart else g := hcount
    rw [noteSent, hv, hg]
    by_cases hopen : (Event.state caState).Enables
    · have hstate : tcpVegasState v caState = vegasEnable v := if_pos hopen
      rw [if_pos hopen, if_pos hopen, hstate]
      exact h.restart rfl rfl
    · have hstate : tcpVegasState v caState = vegasDisable v := if_neg hopen
      rw [if_neg hopen, if_neg hopen, hstate]
      exact h.keep rfl rfl fun hne => absurd rfl hne
    · simp
  | cwndEvent event =>
    have hv : v' = tcpVegasCwndEvent v event := (Option.some.inj hrun).symm
    have hg : g' = if (Event.cwndEvent event).Enables then g.restart else g := hcount
    rw [noteSent, hv, hg]
    by_cases hrestart : (Event.cwndEvent event).Enables
    · have hevent : tcpVegasCwndEvent v event = vegasEnable { v with ca := { v.ca with baseRTT := rttInfinite } } :=
        if_pos hrestart
      rw [if_pos hrestart, if_pos hrestart, hevent]
      exact h.restart rfl rfl
    · have hevent : tcpVegasCwndEvent v event = v := if_neg hrestart
      rw [if_neg hrestart, if_neg hrestart, hevent]
      exact h.keep rfl rfl id
    · simp
  | congAvoid ack acked =>
    obtain ⟨hack, hx, hg⟩ := hcount
    dsimp only at hack hx hg hrun
    subst hack hg
    obtain ⟨htp, hdoing, hbeg⟩ := tcpVegasCongAvoid_frame hrun
    simp only [noteSent]
    by_cases hadjusts : Adjusts v (BitVec.ofNat 32 x)
    · rw [if_pos hadjusts] at hbeg
      rw [if_pos hadjusts, if_pos hadjusts]
      exact h.restart htp hbeg
    · rw [if_neg hadjusts] at hbeg
      rw [if_neg hadjusts, if_neg hadjusts]
      refine ⟨htp.trans h.sndNxt, h.mark, fun hne => hbeg.trans (h.begSndNxt (hdoing ▸ hne)), fun hne => ?_⟩
      have hold : v.ca.doingVegasNow ≠ 0 := hdoing ▸ hne
      have hbefore : x ≤ g.mark := by
        by_contra hlate
        exact hadjusts ((h.adjusts_iff hfit hx).mpr ⟨hold, h.mark ▸ not_le.mp hlate⟩)
      exact (h.kept hold).probe (hx hold) hbefore

/-- **One adjustment for each round trip.** In a run from `tcp_vegas_init` in which a flight and what is sent between
two ACKs fit together in `2^31`: an ACK adjusts the window exactly if Vegas is enabled and the ACK goes beyond
everything that had been sent when Vegas was last enabled or last adjusted the window, over the numbers of bytes and not
their low words. -/
theorem adjusts_exact {W G : ℕ} (hfit : W + G < 2 ^ 31) {s₀ : VegasSock} {g₀ : Gauge}
    (hstart : s₀.tp.sndNxt = BitVec.ofNat 32 g₀.top) {s s' : VegasSock × Gauge} {ack acked : U32} {x : ℕ}
    {tr : List (Transition (VegasSock × Gauge) (Event × ℕ))}
    (hrun : Trace (Sent W G) (tcpVegasInit s₀, g₀.restart) tr s) (hstep : Sent W G s (.congAvoid ack acked, x) s') :
    Adjusts s.1 ack ↔ s.1.ca.doingVegasNow ≠ 0 ∧ history noteSent g₀.top tr < x := by
  have hmarked : Marked W (history noteSent g₀.top tr) s :=
    hrun.history_invariant (fun _ _ _ _ h hs => sent_step hfit h hs) _
      ⟨hstart, rfl, fun _ => hstart, fun _ => .restart W g₀⟩
  obtain ⟨-, hack, hx, -⟩ := hstep
  have hword : ack = BitVec.ofNat 32 x := hack
  rw [hword]
  exact hmarked.adjusts_iff hfit hx

/-- With 1000 bytes sent, an ACK for 500 adjusts the window, and the next one for all 1000 does not. -/
theorem adjusts_exact_two :
    ∃ tr s s', Trace (Sent 1000 1000) (tcpVegasInit freshSock, Gauge.restart ⟨0, 0, 0⟩) tr s ∧
      Sent 1000 1000 s (.congAvoid 500 1, 500) s' ∧ Adjusts s.1 500 ∧ ¬ Adjusts s'.1 1000 := by
  let g₀ : Gauge := ⟨0, 0, 0⟩
  let tp : TcpSock := { (tcpVegasInit freshSock).tp with sndNxt := 1000 }
  let v : VegasSock := { tcpVegasInit freshSock with tp := tp }
  let g : Gauge := ⟨1000, 0, 0⟩
  obtain ⟨v₂, hboth⟩ : ∃ v₂, (tcpVegasCongAvoid v 500 1).bind (tcpVegasCongAvoid · 1000 1) = some v₂ :=
    Option.isSome_iff_exists.mp (by decide)
  obtain ⟨v₁, hv₁, hv₂⟩ := Option.bind_eq_some_iff.mp hboth
  have hfit : 1000 + 1000 < 2 ^ 31 := by decide
  have hsent : Sent 1000 1000 (tcpVegasInit freshSock, g₀.restart) (.kernel tp, 0) (v, g) :=
    ⟨rfl, 1000, Nat.zero_le 1000, rfl, rfl⟩
  have hprobed : Probed 1000 1000 g 500 := ⟨by decide, by decide, by decide⟩
  have hfirst : Sent 1000 1000 (v, g) (.congAvoid 500 1, 500) (v₁, if Adjusts v 500 then g.restart else g.probe) :=
    ⟨hv₁, rfl, fun _ => hprobed, rfl⟩
  have hstart : freshSock.tp.sndNxt = BitVec.ofNat 32 g₀.top := rfl
  have hadjusts : Adjusts v 500 :=
    (adjusts_exact hfit hstart (.cons hsent (.nil _)) hfirst).mpr ⟨by decide, by decide⟩
  refine ⟨_, _, _, .cons hsent (.nil _), hfirst, hadjusts, ?_⟩
  rw [if_pos hadjusts] at hfirst
  have hprobed' : Probed 1000 1000 g.restart 1000 := ⟨by decide, by decide, by decide⟩
  have hnext : Sent 1000 1000 (v₁, g.restart) (.congAvoid 1000 1, 1000)
      (v₂, if Adjusts v₁ 1000 then g.restart.restart else g.restart.probe) := ⟨hv₂, rfl, fun _ => hprobed', rfl⟩
  intro hagain
  obtain ⟨-, hlate⟩ := (adjusts_exact hfit hstart (.cons hsent (.cons hfirst (.nil _))) hnext).mp hagain
  have hnote : history noteSent g₀.top [((tcpVegasInit freshSock, g₀.restart), (.kernel tp, 0), (v, g)),
      ((v, g), (.congAvoid 500 1, 500), (v₁, g.restart))] = if Adjusts v 500 then 1000 else 0 := rfl
  rw [hnote, if_pos hadjusts] at hlate
  exact lt_irrefl 1000 hlate

end CoupledCC.Vegas
