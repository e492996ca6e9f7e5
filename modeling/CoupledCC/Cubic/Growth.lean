import CoupledCC.Cubic.Callbacks

/-!
# Growth of the CUBIC window

A price of at least 2 makes a packet cost at least two credits, so in congestion avoidance the window grows by at most
half of what is acknowledged. The price may change from one ACK to the next: what pays is the credit counter
(`Trace.account`).

- `cubic_growth`: no fault, a price of at least 2 at every additive increase, and the bound over any ACKs.
-/

namespace CoupledCC.Cubic

open Word Runs

/-- The steps at and between ACKs in congestion avoidance: the callbacks, and writes of the kernel that leave the
credits alone. -/
inductive AvoidStep (cfg : Config) : CubicSock → Event → CubicSock → Prop
  | kernel {s : CubicSock} {tp : TcpSock} : Windows tp → tp.sndCwndCnt = s.tp.sndCwndCnt →
      AvoidStep cfg s (.kernel tp) { s with tp := tp }
  | call {s s' : CubicSock} {c : Callback} : c.Fits s → c.Avoids s → c.run cfg s = some s' →
      AvoidStep cfg s (.call c) s'

/-- What a callback adds to the window. -/
def growth : Transition CubicSock Event → ℤ
  | (_, .kernel _, _) => 0
  | (s, .call _, s') => (s'.tp.sndCwnd.toNat : ℤ) - s.tp.sndCwnd.toNat

/-- What a callback acknowledges. -/
def packets : Transition CubicSock Event → ℤ
  | (_, .kernel _, _) => 0
  | (_, .call c, _) => c.packets

theorem AvoidStep.step {cfg : Config} {s s' : CubicSock} {e : Event} (h : AvoidStep cfg s e s') : Step cfg s e s' := by
  cases h with
  | kernel hw _ => exact .kernel hw
  | call hfit _ hrun => exact .call hfit hrun

/-- The credits pay for what a step adds to the window. -/
theorem AvoidStep.pays {cfg : Config} (s : CubicSock) (e : Event) (s' : CubicSock) (hi : Inv s)
    (h : AvoidStep cfg s e s') :
    2 * growth (s, e, s') + s'.tp.sndCwndCnt.toNat ≤ s.tp.sndCwndCnt.toNat + packets (s, e, s') := by
  cases h with
  | kernel _ hcnt => simp [growth, packets, hcnt]
  | call hfit havoids hrun =>
    obtain ⟨s₁, hs₁, -, hgrowth⟩ := Callback.run_spec cfg hi hfit
    rw [hs₁] at hrun
    cases hrun
    exact hgrowth havoids

/-- **CUBIC's growth.** In every state a run reaches: no callback faults; every additive increase is made at a price of
at least 2 and pays two credits a packet; and what any congestion-avoidance ACKs from there on add to the window is at
most half of the credits and the acknowledged packets. -/
theorem cubic_growth (cfg : Config) {s : CubicSock} (hreach : Reach (Step cfg) Started s) :
    (∀ c : Callback, c.Fits s → ∃ s', c.run cfg s = some s') ∧
      (∀ ack acked clk s₁ left, (Callback.congAvoid ack acked clk).Fits s →
        cubictcpAiCall cfg s ack acked clk = some (s₁, some left) →
        2 ≤ s₁.ca.cnt.toNat ∧ ∃ tp, tcpCongAvoidAi s₁.tp s₁.ca.cnt left = some tp ∧
          2 * ((tp.sndCwnd.toNat : ℤ) - s₁.tp.sndCwnd.toNat) + tp.sndCwndCnt.toNat ≤
            s₁.tp.sndCwndCnt.toNat + left.toNat) ∧
      ∀ tr s', Trace (AvoidStep cfg) s tr s' →
        (tr.map growth).sum ≤ (s.tp.sndCwndCnt.toNat + (tr.map packets).sum) / 2 := by
  have hi := reach_inv hreach
  refine ⟨fun c hfit => callback_total hreach hfit, ?_, ?_⟩
  · intro ack acked clk s₁ left hfit hcall
    obtain ⟨s₂, call, hcall₂, -, hsome⟩ := cubictcpAiCall_spec cfg hi ack clk hfit
    rw [hcall, Option.some.injEq, Prod.mk.injEq] at hcall₂
    obtain ⟨rfl, rfl⟩ := hcall₂
    have hgood := hsome left rfl
    obtain ⟨cwnd, cnt, hai, -, hgrowth⟩ := hgood.growth
    exact ⟨hgood.price, _, hai, hgrowth⟩
  · intro tr s' htrace
    have haccount := htrace.account (I := Inv) (fun s => s.tp.sndCwndCnt.toNat) (fun t => 2 * growth t) packets
      (fun _ _ _ hi h => step_inv _ _ _ hi h.step)
      AvoidStep.pays hi
    rw [List.sum_map_mul_left] at haccount
    omega

/-- From a socket right after `cubictcp_init`, with a window of 10 and 3 credits. -/
theorem cubic_growth_fresh :
    let cfg : Config := ⟨1000, 717, 15, by decide⟩
    let s : CubicSock := cubictcpInit ⟨⟨10, 3, 5, 100, 0, 20, true, 7, 0, 42, 0, 0, 0⟩,
      ⟨9, 9, 9, 9, 9, 9, 9, 9, 9, 9, 9, 9, 9, 9, 9, 9⟩⟩
    (∃ s', (Callback.congAvoid 8 5 ⟨1, 1, 1, 1, 1⟩).run cfg s = some s') ∧
      ∀ tr s', Trace (AvoidStep cfg) s tr s' → (tr.map growth).sum ≤ (3 + (tr.map packets).sum) / 2 := by
  intro cfg s
  have hreach : Reach (Step cfg) Started s := .init ⟨_, ⟨by decide, by decide, by decide⟩, rfl⟩
  obtain ⟨hrun, -, hgrowth⟩ := cubic_growth cfg hreach
  exact ⟨hrun _ (show 10 + 3 + 5 < 2 ^ 32 by decide), hgrowth⟩

end CoupledCC.Cubic
