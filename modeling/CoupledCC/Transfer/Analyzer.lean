import CoupledCC.Lib.Falls
import CoupledCC.Libcc.Loader
import CoupledCC.Transfer.RateList

/-!
# The bandwidth analyzer

The part of `message.c` that keeps the lists of rates and calls `switch_bpfcc` when a rate falls. The analyzer goes on
where it stopped: at the node whose rate was smaller. As `list_for_each` starts one node after it, the pair of this node
and the next one is never compared.

- `probe_spec`: the analyzer on one list goes on up to the first fall after the place where it stopped;
- `bandwidthAnalyzer_sides`: a run of the analyzer after one append does on the side of the append what a watcher that
  forgets does (`Falls.watch`), and leaves the other side alone.
-/

namespace CoupledCC.Transfer

open LinkedList Falls Libcc

variable {α R : Type*} [LinearOrder R]

/-! ## The code -/

/-- `strm` of `log_data`. -/
inductive Strm
  | send
  | recv
deriving Repr, DecidableEq

def Strm.other : Strm → Strm
  | .send => .recv
  | .recv => .send

theorem Strm.other_ne (strm : Strm) : strm.other ≠ strm := by cases strm <;> decide

theorem Strm.eq_other {strm strm' : Strm} (h : strm' ≠ strm) : strm' = strm.other := by
  cases strm <;> cases strm' <;> first | rfl | exact absurd rfl h

/-- `struct bpfcc`: the controllers that were switched on. -/
structure Flags where
  bpfCubic : Bool
  bpfVegas : Bool
  bpfReno : Bool
deriving Repr, DecidableEq

/-- The lists of rates with their heap, where the analyzer stopped, and the calls of `switch_bpfcc` so far. -/
structure Analyzer (α R : Type*) where
  links : Links α
  bw : α → R
  /-- `last_head` of `send_list` and `recv_list`. -/
  last : Strm → Option α
  /-- `send_it` and `recv_it`. -/
  it : Strm → Option α
  flags : Flags
  switches : List (Option Controller)

/-- `init_params`, with the sentinels of the two lists. -/
def initParams [DecidableEq α] (heads : Strm → α) (links : Links α) (bw : α → R) (flags : Flags) : Analyzer α R :=
  let recvList := initList links (heads .recv)
  let sendList := initList recvList.links (heads .send)
  { links := sendList.links
    bw := bw
    last := fun
      | .recv => recvList.lastHead
      | .send => sendList.lastHead
    it := fun strm => some (heads strm)
    flags := flags
    switches := [] }

/-- `switch_bpfcc`: the next controller that was not switched on yet, if there is one. -/
def switchBpfcc (s : Analyzer α R) : Analyzer α R :=
  if !s.flags.bpfCubic then
    { s with flags := { s.flags with bpfCubic := true }, switches := s.switches ++ [some .cubic] }
  else if !s.flags.bpfVegas then
    { s with flags := { s.flags with bpfVegas := true }, switches := s.switches ++ [some .vegas] }
  else if !s.flags.bpfReno then
    { s with flags := { s.flags with bpfReno := true }, switches := s.switches ++ [some .reno] }
  else { s with switches := s.switches ++ [none] }

/-- The `list_for_each` of the analyzer for at most `n` nodes: the node that `break` is reached with. -/
def scan (links : Links α) (bw : α → R) : ℕ → Option α → Option α
  | 0, _ => none
  | _ + 1, none => none
  | n + 1, some slice₁ =>
    match links.next slice₁ with
    | none => scan links bw n none
    | some slice₂ => if bw slice₂ < bw slice₁ then some slice₂ else scan links bw n (some slice₂)

/-- The analyzer on one list. -/
def probe (n : ℕ) (s : Analyzer α R) (strm : Strm) : Analyzer α R :=
  match s.it strm with
  | none => s
  | some it =>
    match scan s.links s.bw n (s.links.next it) with
    | none => s
    | some slice₂ =>
      let s := switchBpfcc s
      { s with it := Function.update s.it strm (some slice₂) }

/-- `bandwidth_analyzer`. -/
def bandwidthAnalyzer (n : ℕ) (s : Analyzer α R) : Analyzer α R :=
  probe n (probe n s .recv) .send

/-- A rate noted in the node `rate`, with the list that `list_insert` makes. -/
def Analyzer.noted [DecidableEq α] (s : Analyzer α R) (strm : Strm) (rate : α) (bw : R) (list : RateList α) :
    Analyzer α R :=
  { s with
    links := list.links
    bw := Function.update s.bw rate bw
    last := Function.update s.last strm list.lastHead }

/-- The part of `log_data` that appends a rate and runs the analyzer. -/
def appendRate [DecidableEq α] (n : ℕ) (bandwidth : Bool) (strm : Strm) (s : Analyzer α R) (rate : α) (bw : R) :
    Option (Analyzer α R) :=
  (listInsert ⟨s.links, s.last strm⟩ rate).map fun list =>
    let s := s.noted strm rate bw list
    if bandwidth then bandwidthAnalyzer n s else s

/-- Rates appended to one list, each with its node, with the analyzer run after each. -/
def appendRates [DecidableEq α] (n : ℕ) (strm : Strm) (s : Analyzer α R) (rates : List (α × R)) :
    Option (Analyzer α R) :=
  rates.foldlM (fun s rate => appendRate n true strm s rate.1 rate.2) s

/-! ## Which controller comes next -/

/-- The controllers that are not switched on yet, in the order in which `switch_bpfcc` looks for them. -/
def Flags.pending (flags : Flags) : List Controller :=
  (if flags.bpfCubic then [] else [.cubic]) ++ (if flags.bpfVegas then [] else [.vegas]) ++
    (if flags.bpfReno then [] else [.reno])

omit [LinearOrder R] in
/-- A call of `switch_bpfcc` switches on the first of them. -/
theorem switchBpfcc_pending (s : Analyzer α R) :
    ∃ flags, switchBpfcc s = { s with flags := flags, switches := s.switches ++ [s.flags.pending.head?] } ∧
      flags.pending = s.flags.pending.tail := by
  obtain ⟨links, bw, last, it, ⟨cubic, vegas, reno⟩, switches⟩ := s
  cases cubic with
  | false => exact ⟨⟨true, vegas, reno⟩, rfl, rfl⟩
  | true =>
    cases vegas with
    | false => exact ⟨⟨true, true, reno⟩, rfl, rfl⟩
    | true =>
      cases reno with
      | false => exact ⟨⟨true, true, true⟩, rfl, rfl⟩
      | true => exact ⟨⟨true, true, true⟩, rfl, rfl⟩

/-- What the first `k` calls switch on. -/
def firstSwitches (flags : Flags) (k : ℕ) : List (Option Controller) :=
  (List.range k).map fun i => flags.pending[i]?

/-- The calls so far, starting with some flags. -/
structure Switched (flags : Flags) (k : ℕ) (s : Analyzer α R) : Prop where
  switches : s.switches = firstSwitches flags k
  pending : s.flags.pending = flags.pending.drop k

omit [LinearOrder R] in
theorem Switched.switch {flags : Flags} {k : ℕ} {s : Analyzer α R} (h : Switched flags k s) :
    Switched flags (k + 1) (switchBpfcc s) := by
  obtain ⟨after, hswitch, htail⟩ := switchBpfcc_pending s
  rw [hswitch]
  refine ⟨?_, ?_⟩
  · rw [h.switches, h.pending, firstSwitches, firstSwitches, List.range_succ]
    simp
  · rw [htail, h.pending, List.tail_drop]

/-! ## Scanning -/

/-- **A scan** of linked nodes finds their first fall. -/
theorem scan_spec {links : Links α} {l : List α} (hl : links.Linked l) (bw : α → R) {n : ℕ} (hn : l.length ≤ n) :
    scan links bw n l.head? = firstFall bw l := by
  induction l generalizing n with
  | nil => cases n <;> rfl
  | cons a l ih =>
    obtain ⟨n, rfl⟩ : ∃ k, n = k + 1 := ⟨n - 1, by simp at hn; omega⟩
    have hlen : l.length ≤ n := by simpa using hn
    have hstart : links.Linked ([] ++ a :: l) := hl
    have hnext := hstart.next
    rw [List.head?_cons, scan, hnext]
    have hrest := ih hl.tail hlen
    cases l with
    | nil => exact hrest
    | cons b l =>
      simp only [List.head?_cons] at hrest ⊢
      rw [hrest]
      rfl

/-- **The analyzer on a list** goes on from the place where it stopped, up to the first fall after it. -/
theorem probe_spec {s : Analyzer α R} {strm : Strm} {before after : List α} {it : α} (hit : s.it strm = some it)
    (hl : s.links.Linked (before ++ it :: after)) {n : ℕ} (hn : after.length ≤ n) :
    probe n s strm =
      match firstFall s.bw after with
      | none => s
      | some b => { switchBpfcc s with it := Function.update (switchBpfcc s).it strm (some b) } := by
  unfold probe
  simp only [hit, hl.next, scan_spec hl.append_right.tail s.bw hn]

/-- It leaves the lists and the rates, and stops at most on its own list. -/
theorem probe_frame (n : ℕ) (s : Analyzer α R) (strm : Strm) :
    (probe n s strm).links = s.links ∧ (probe n s strm).last = s.last ∧ (probe n s strm).bw = s.bw ∧
      (probe n s strm).it strm.other = s.it strm.other := by
  obtain ⟨flags, hswitch, -⟩ := switchBpfcc_pending s
  unfold probe
  split
  · exact ⟨rfl, rfl, rfl, rfl⟩
  · split
    · exact ⟨rfl, rfl, rfl, rfl⟩
    · rw [hswitch]
      exact ⟨rfl, rfl, rfl, Function.update_of_ne strm.other_ne _ _⟩

/-! ## One side -/

/-- What the analyzer has seen of the rates of one list: no rate after the node where it stopped is smaller than the one
before it, and `o` is the last of these rates. -/
structure Side (heads : Strm → α) (strm : Strm) (s : Analyzer α R) (rates : List (α × R)) (o : Option R) : Prop where
  rep : Represents (heads strm) ⟨s.links, s.last strm⟩ (rates.map Prod.fst)
  bw : ∀ rate ∈ rates, s.bw rate.1 = rate.2
  stopped : ∃ before it after, heads strm :: rates.map Prod.fst = before ++ it :: after ∧ s.it strm = some it ∧
    firstFall s.bw after = none ∧ after.getLast?.map s.bw = o

/-- The same with a rate at the end that the analyzer has not seen. -/
structure Unseen (heads : Strm → α) (strm : Strm) (s : Analyzer α R) (rates : List (α × R)) (o : Option R) (r : R) :
    Prop where
  rep : Represents (heads strm) ⟨s.links, s.last strm⟩ (rates.map Prod.fst)
  bw : ∀ rate ∈ rates, s.bw rate.1 = rate.2
  stopped : ∃ before it after rate, heads strm :: rates.map Prod.fst = before ++ it :: (after ++ [rate]) ∧
    s.it strm = some it ∧ firstFall s.bw after = none ∧ after.getLast?.map s.bw = o ∧ s.bw rate = r

/-- A side with nothing unseen is left alone by the analyzer. -/
theorem Side.probe {heads : Strm → α} {strm : Strm} {s : Analyzer α R} {rates : List (α × R)} {o : Option R}
    (h : Side heads strm s rates o) {n : ℕ} (hn : rates.length ≤ n) : probe n s strm = s := by
  obtain ⟨before, it, after, hsplit, hit, hafter, -⟩ := h.stopped
  have hlen : after.length ≤ n := by
    have hlen := congrArg List.length hsplit
    simp only [List.length_cons, List.length_map, List.length_append] at hlen
    omega
  rw [probe_spec hit (hsplit ▸ h.rep.linked) hlen, hafter]

/-- Only the links, the rates and the place of its own list matter to a side. -/
theorem Side.congr {heads : Strm → α} {strm : Strm} {s s' : Analyzer α R} {rates : List (α × R)} {o : Option R}
    (h : Side heads strm s rates o) (hlinks : s'.links = s.links) (hlast : s'.last strm = s.last strm)
    (hbw : s'.bw = s.bw) (hit : s'.it strm = s.it strm) : Side heads strm s' rates o := by
  refine ⟨?_, ?_, ?_⟩
  · rw [hlinks, hlast]
    exact h.rep
  · rw [hbw]
    exact h.bw
  · rw [hit, hbw]
    exact h.stopped

/-- **The analyzer sees the rate at the end** as the watcher does. -/
theorem Unseen.probe {heads : Strm → α} {strm : Strm} {s : Analyzer α R} {rates : List (α × R)} {o : Option R} {r : R}
    (h : Unseen heads strm s rates o r) {flags : Flags} {k : ℕ} (hk : Switched flags k s) {n : ℕ}
    (hn : rates.length ≤ n) :
    Side heads strm (probe n s strm) rates (watch (o, k) r).1 ∧ Switched flags (watch (o, k) r).2 (probe n s strm) := by
  obtain ⟨before, it, after, rate, hsplit, hit, hafter, ho, hr⟩ := h.stopped
  have hlen : (after ++ [rate]).length ≤ n := by
    have hlen := congrArg List.length hsplit
    simp only [List.length_cons, List.length_map, List.length_append, List.length_nil] at hlen ⊢
    omega
  have hfall := firstFall_concat hafter rate
  have hstay : firstFall s.bw (after ++ [rate]) = none → Side heads strm s rates (some r) := by
    intro hnone
    refine ⟨h.rep, h.bw, before, it, after ++ [rate], hsplit, hit, hnone, ?_⟩
    rw [List.getLast?_concat, Option.map_some, hr]
  rw [probe_spec hit (hsplit ▸ h.rep.linked) hlen]
  cases hlast : after.getLast? with
  | none =>
    rw [hlast] at hfall ho
    rw [hfall, ← ho]
    exact ⟨hstay hfall, hk⟩
  | some b =>
    rw [hlast, Option.map_some] at ho
    rw [hlast, Option.bind_some, hr] at hfall
    rw [hfall, ← ho]
    simp only [watch]
    by_cases hlt : r < s.bw b
    · -- the analyzer stops at the last node
      obtain ⟨flags', hswitch, -⟩ := switchBpfcc_pending s
      have hstop : heads strm :: rates.map Prod.fst = (before ++ it :: after) ++ rate :: [] := by
        rw [hsplit, List.append_assoc]
        rfl
      have hswitched := hk.switch
      simp only [if_pos hlt]
      refine ⟨?_, hswitched.switches, hswitched.pending⟩
      rw [hswitch]
      exact ⟨h.rep, h.bw, _, rate, [], hstop, Function.update_self _ _ _, rfl, rfl⟩
    · rw [if_neg hlt] at hfall
      simp only [if_neg hlt]
      exact ⟨hstay hfall, hk⟩

/-- The analyzer when one side has a rate it has not seen, and the other side has none. -/
theorem bandwidthAnalyzer_sides {heads : Strm → α} {strm : Strm} {s : Analyzer α R} {rates rates' : List (α × R)}
    {o o' : Option R} {r : R} (h : Unseen heads strm s rates o r) (h' : Side heads strm.other s rates' o')
    {flags : Flags} {k : ℕ} (hk : Switched flags k s) {n : ℕ} (hn : rates.length ≤ n) (hn' : rates'.length ≤ n) :
    Side heads strm (bandwidthAnalyzer n s) rates (watch (o, k) r).1 ∧
      Side heads strm.other (bandwidthAnalyzer n s) rates' o' ∧
      Switched flags (watch (o, k) r).2 (bandwidthAnalyzer n s) := by
  have hcall : bandwidthAnalyzer n s = probe n s strm := by
    cases strm with
    | send => rw [bandwidthAnalyzer, show probe n s .recv = s from h'.probe hn']
    | recv =>
      obtain ⟨hlinks, hlast, hbw, hit⟩ := probe_frame n s .recv
      exact (h'.congr hlinks (congrFun hlast _) hbw hit).probe hn'
  have hother : Side heads strm.other (probe n s strm) rates' o' := by
    obtain ⟨hlinks, hlast, hbw, hit⟩ := probe_frame n s strm
    exact h'.congr hlinks (congrFun hlast _) hbw hit
  obtain ⟨hside, hswitched⟩ := h.probe hk hn
  rw [hcall]
  exact ⟨hside, hother, hswitched⟩

/-- The nodes after the place where the analyzer stopped are in the list. -/
theorem mem_of_after {l before after : List α} {head it a : α} (h : head :: l = before ++ it :: after)
    (ha : a ∈ after) : a ∈ l := by
  cases before with
  | nil =>
    obtain ⟨-, rfl⟩ := List.cons.inj h
    exact ha
  | cons b before =>
    obtain ⟨-, rfl⟩ := List.cons.inj h
    exact List.mem_append_right _ (List.mem_cons_of_mem _ ha)

/-- At the start both lists are empty. -/
theorem initParams_side [DecidableEq α] (heads : Strm → α) (links : Links α) (bw : α → R) (flags : Flags)
    (strm : Strm) : Side heads strm (initParams heads links bw flags) [] none := by
  refine ⟨⟨List.nodup_singleton _, ⟨.singleton _, ?_⟩, ?_⟩, fun rate h => (by cases h), [], heads strm, [], rfl, rfl,
    rfl, rfl⟩
  · cases strm <;> simp [initParams, initList, initListHead]
  · cases strm <;> rfl

end CoupledCC.Transfer
