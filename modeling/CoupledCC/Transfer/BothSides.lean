import CoupledCC.Transfer.Analyzer

/-!
# The analyzer on both lists

Rates are appended to the lists of the send side and of the receive side in any order, and the analyzer probes both
after each.

- `appendRate_sides`: an append is seen on its own side only, as by a watcher that forgets;
- `both_sides_switches`: there are as many calls of `switch_bpfcc` as the watchers of the two sides count together, and
  they switch on, in order, the controllers that were not switched on before;
- `analyzer_counts_iff`: on one list there is a call for every fall exactly when no rate falls twice in a row.
-/

namespace CoupledCC.Transfer

open LinkedList Falls Libcc

variable {α R : Type*} [LinearOrder R]

/-! ## One append -/

omit [LinearOrder R] in
/-- A list is there when its nodes have the same pointers. -/
theorem Represents.congr {head : α} {s s' : RateList α} {l : List α} (h : Represents head s l)
    (hnode : ∀ a ∈ head :: l, s'.node a = s.node a) (hlast : s'.lastHead = s.lastHead) : Represents head s' l := by
  have hnext : ∀ a ∈ head :: l, s'.links.next a = s.links.next a := fun a ha => congrArg Prod.snd (hnode a ha)
  have hprev : ∀ a ∈ head :: l, s'.links.prev a = s.links.prev a := fun a ha => congrArg Prod.fst (hnode a ha)
  refine ⟨h.nodup, ⟨?_, fun a ha => ?_⟩, hlast.trans h.last⟩
  · exact Links.joined_congr h.linked.joined (fun a ha => hnext a (List.mem_of_mem_dropLast ha))
      fun a ha => hprev a (List.mem_of_mem_tail ha)
  · rw [hnext a (List.mem_of_mem_getLast? ha)]
    exact h.linked.ends a ha

variable [DecidableEq α]

/-- The rates of one side. -/
def sideRates (strm : Strm) (events : List (Strm × α × R)) : List (α × R) :=
  events.filterMap fun e => if e.1 = strm then some e.2 else none

/-- What the analyzer has seen of a list is the same when a new rate is noted in either list. -/
theorem Side.seen {heads : Strm → α} {strm : Strm} {s : Analyzer α R} {rates : List (α × R)} {o : Option R}
    (h : Side heads strm s rates o) (strm' : Strm) {rate : α} (r : R) (list : RateList α)
    (hrate : rate ∉ rates.map Prod.fst) :
    (∀ p ∈ rates, (s.noted strm' rate r list).bw p.1 = p.2) ∧
      ∃ before it after, heads strm :: rates.map Prod.fst = before ++ it :: after ∧ s.it strm = some it ∧
        firstFall (s.noted strm' rate r list).bw after = none ∧
        after.getLast?.map (s.noted strm' rate r list).bw = o := by
  obtain ⟨before, it, after, hsplit, hit, hafter, ho⟩ := h.stopped
  have hbw : ∀ a ∈ rates.map Prod.fst, (s.noted strm' rate r list).bw a = s.bw a := by
    intro a ha
    have hne : a ≠ rate := by
      rintro rfl
      exact hrate ha
    exact Function.update_of_ne hne _ _
  have hbw' : ∀ a ∈ after, (s.noted strm' rate r list).bw a = s.bw a := fun a ha => hbw a (mem_of_after hsplit ha)
  refine ⟨fun p hp => ?_, before, it, after, hsplit, hit, (firstFall_congr hbw').trans hafter, ?_⟩
  · rw [hbw p.1 (List.mem_map_of_mem hp), h.bw p hp]
  · rw [← ho]
    cases hlast : after.getLast? with
    | none => rfl
    | some b => simp [hbw' b (List.mem_of_getLast? hlast)]

/-- A rate noted at the end of its list has not been seen yet. -/
theorem Side.noted {heads : Strm → α} {strm : Strm} {s : Analyzer α R} {rates : List (α × R)} {o : Option R}
    (h : Side heads strm s rates o) {rate : α} (r : R) (hrate : rate ∉ heads strm :: rates.map Prod.fst) :
    ∃ list, listInsert ⟨s.links, s.last strm⟩ rate = some list ∧
      Unseen heads strm (s.noted strm rate r list) (rates ++ [(rate, r)]) o r ∧
      ∀ a ∉ heads strm :: (rates.map Prod.fst ++ [rate]),
        list.node a = RateList.node ⟨s.links, s.last strm⟩ a := by
  obtain ⟨list, hinsert, hrep, hframe⟩ := listInsert_spec h.rep hrate
  obtain ⟨hbw, before, it, after, hsplit, hit, hafter, ho⟩ :=
    h.seen strm r list fun hmem => hrate (List.mem_cons_of_mem _ hmem)
  have hnew : (s.noted strm rate r list).bw rate = r := Function.update_self _ _ _
  refine ⟨list, hinsert, ⟨?_, fun p hp => ?_, before, it, after, rate, ?_, hit, hafter, ho, hnew⟩, hframe⟩
  · have hlast : (s.noted strm rate r list).last strm = list.lastHead := Function.update_self _ _ _
    rw [hlast, List.map_append]
    exact hrep
  · rcases List.mem_append.mp hp with hp | hp
    · exact hbw p hp
    · rw [List.mem_singleton.mp hp]
      exact hnew
  · rw [List.map_append, ← List.cons_append, hsplit]
    simp

/-- The other side is not touched. -/
theorem Side.kept {heads : Strm → α} {strm : Strm} {s : Analyzer α R} {rates : List (α × R)} {o : Option R}
    (h : Side heads strm s rates o) {strm' : Strm} (hne : strm ≠ strm') {rate : α} {r : R} {list : RateList α}
    (hnode : ∀ a ∈ heads strm :: rates.map Prod.fst, list.node a = RateList.node ⟨s.links, s.last strm'⟩ a)
    (hrate : rate ∉ rates.map Prod.fst) : Side heads strm (s.noted strm' rate r list) rates o := by
  obtain ⟨hbw, before, it, after, hsplit, hit, hafter, ho⟩ := h.seen strm' r list hrate
  exact ⟨h.rep.congr hnode (Function.update_of_ne hne _ _), hbw, before, it, after, hsplit, hit, hafter, ho⟩

/-- The falls that the watcher of one side counts. -/
def sideWatched (strm : Strm) (events : List (Strm × α × R)) : ℕ :=
  watched none ((sideRates strm events).map Prod.snd)

omit [DecidableEq α] in
/-- The two sides in either order. -/
theorem sideWatched_add (strm : Strm) (events : List (Strm × α × R)) :
    sideWatched .recv events + sideWatched .send events = sideWatched strm events + sideWatched strm.other events := by
  cases strm with
  | recv => rfl
  | send => exact Nat.add_comm _ _

/-- What is known of both lists after some events. -/
structure Sides (heads : Strm → α) (flags : Flags) (s : Analyzer α R) (events : List (Strm × α × R)) : Prop where
  side : ∀ strm, Side heads strm s (sideRates strm events)
    (((sideRates strm events).map Prod.snd).foldl watch (none, 0)).1
  switched : Switched flags (sideWatched .recv events + sideWatched .send events) s

omit [LinearOrder R] [DecidableEq α] in
theorem sideRates_concat (strm : Strm) (events : List (Strm × α × R)) (e : Strm × α × R) :
    sideRates strm (events ++ [e]) = if e.1 = strm then sideRates strm events ++ [e.2] else sideRates strm events := by
  rw [sideRates, List.filterMap_append]
  by_cases h : e.1 = strm
  · simp [h, sideRates]
  · simp [h, sideRates]

omit [LinearOrder R] [DecidableEq α] in
/-- The nodes of the events are those of the two sides. -/
theorem sideRates_perm (strm : Strm) (events : List (Strm × α × R)) :
    ((sideRates strm events).map Prod.fst ++ (sideRates strm.other events).map Prod.fst).Perm
      (events.map fun e => e.2.1) := by
  induction events with
  | nil => exact .refl _
  | cons e events ih =>
    obtain ⟨strm', rate, r⟩ := e
    by_cases h : strm' = strm
    · have hne : strm' ≠ strm.other := fun heq => strm.other_ne (heq.symm.trans h)
      simpa [sideRates, h, strm.other_ne.symm] using ih
    · have heq : strm' = strm.other := Strm.eq_other h
      have hrest := List.perm_middle.trans (List.Perm.cons rate ih)
      simpa [sideRates, heq, strm.other_ne] using hrest

/-- The nodes of the two sides, and their sentinels, are different ones. -/
def Fresh (heads : Strm → α) (events : List (Strm × α × R)) : Prop :=
  (heads .recv :: heads .send :: events.map fun e => e.2.1).Nodup

omit [LinearOrder R] [DecidableEq α] in
theorem Fresh.apart {heads : Strm → α} {events : List (Strm × α × R)} (h : Fresh heads events) (strm : Strm) :
    (heads strm :: heads strm.other ::
      ((sideRates strm events).map Prod.fst ++ (sideRates strm.other events).map Prod.fst)).Nodup := by
  have hperm := sideRates_perm strm events
  cases strm with
  | recv => exact ((hperm.cons _).cons _).nodup_iff.mpr h
  | send => exact ((List.Perm.swap _ _ _).trans ((hperm.cons _).cons _)).nodup_iff.mpr h

/-- The watcher of one side when one more rate comes. -/
theorem watched_concat (l : List R) (r : R) (k : ℕ) :
    (l ++ [r]).foldl watch (none, 0) = watch ((l.foldl watch (none, 0)).1, watched none l) r ∧
      (watch ((l.foldl watch (none, 0)).1, watched none l + k) r).2 = watched none (l ++ [r]) + k ∧
      (watch ((l.foldl watch (none, 0)).1, watched none l + k) r).1 = ((l ++ [r]).foldl watch (none, 0)).1 := by
  have hfold : (l ++ [r]).foldl watch (none, 0) = watch ((l.foldl watch (none, 0)).1, watched none l) r := by
    rw [List.foldl_append]
    rfl
  obtain ⟨hcount, hlast⟩ := foldl_watch (l.foldl watch (none, 0)).1 (watched none l) [r]
  obtain ⟨hcount', hlast'⟩ := foldl_watch (l.foldl watch (none, 0)).1 (watched none l + k) [r]
  simp only [List.foldl_cons, List.foldl_nil] at hcount hlast hcount' hlast'
  have hsum : watched none (l ++ [r]) = watched none l + watched (l.foldl watch (none, 0)).1 [r] := by
    rw [← hcount, ← hfold]
    rfl
  refine ⟨hfold, ?_, ?_⟩
  · rw [hcount', hsum]
    omega
  · rw [hlast', hfold, hlast]

/-- **One append** is seen on its own side, as by the watcher. -/
theorem appendRate_sides {heads : Strm → α} {flags : Flags} {s : Analyzer α R} {events : List (Strm × α × R)}
    (h : Sides heads flags s events) {strm : Strm} {rate : α} {r : R}
    (hfresh : Fresh heads (events ++ [(strm, rate, r)])) {n : ℕ} (hn : events.length + 1 ≤ n) :
    ∃ s', appendRate n true strm s rate r = some s' ∧ Sides heads flags s' (events ++ [(strm, rate, r)]) := by
  have hself : sideRates strm (events ++ [(strm, rate, r)]) = sideRates strm events ++ [(rate, r)] := by
    rw [sideRates_concat, if_pos rfl]
  have hother : sideRates strm.other (events ++ [(strm, rate, r)]) = sideRates strm.other events := by
    rw [sideRates_concat, if_neg strm.other_ne.symm]
  have hlen (strm : Strm) : (sideRates strm events).length ≤ events.length := List.length_filterMap_le _ _
  have hapart := hfresh.apart strm
  rw [hself, hother, List.map_append] at hapart
  have hnew : rate ∉ heads strm :: (sideRates strm events).map Prod.fst := by
    intro hmem
    simp [List.nodup_append] at hapart
    grind
  have hfar : ∀ a ∈ heads strm.other :: (sideRates strm.other events).map Prod.fst,
      a ∉ heads strm :: ((sideRates strm events).map Prod.fst ++ [rate]) := by
    intro a ha hmem
    simp [List.nodup_append] at hapart
    grind
  have hrate : rate ∉ (sideRates strm.other events).map Prod.fst := by
    intro hmem
    exact hfar rate (List.mem_cons_of_mem _ hmem) (by simp)
  obtain ⟨list, hinsert, hunseen, hframe⟩ := (h.side strm).noted r hnew
  have hkept : Side heads strm.other (s.noted strm rate r list) _ _ :=
    (h.side strm.other).kept strm.other_ne (fun a ha => hframe a (hfar a ha)) hrate
  have hswitched : Switched flags (sideWatched strm events + sideWatched strm.other events)
      (s.noted strm rate r list) :=
    sideWatched_add strm events ▸ ⟨h.switched.switches, h.switched.pending⟩
  have hbound : (sideRates strm events ++ [(rate, r)]).length ≤ n := by
    have hle := hlen strm
    simp only [List.length_append, List.length_cons, List.length_nil]
    omega
  obtain ⟨hside, hstill, hcounted⟩ := bandwidthAnalyzer_sides hunseen hkept hswitched hbound
    ((hlen strm.other).trans (by omega))
  obtain ⟨-, hcount, hlast⟩ := watched_concat ((sideRates strm events).map Prod.snd) r (sideWatched strm.other events)
  have hsnd : (sideRates strm (events ++ [(strm, rate, r)])).map Prod.snd =
      (sideRates strm events).map Prod.snd ++ [r] := by
    rw [hself, List.map_append]
    rfl
  refine ⟨bandwidthAnalyzer n (s.noted strm rate r list), ?_, ⟨fun strm' => ?_, ?_⟩⟩
  · rw [appendRate, hinsert]
    rfl
  · by_cases hsame : strm' = strm
    · rw [hsame, hsnd, hself, ← hlast]
      exact hside
    · rw [Strm.eq_other hsame, hother]
      exact hstill
  · have hself' : sideWatched strm (events ++ [(strm, rate, r)]) =
        watched none ((sideRates strm events).map Prod.snd ++ [r]) := by rw [sideWatched, hsnd]
    have hother' : sideWatched strm.other (events ++ [(strm, rate, r)]) = sideWatched strm.other events := by
      rw [sideWatched, hother, sideWatched]
    rw [sideWatched_add strm, hself', hother', ← hcount]
    exact hcounted

/-! ## All appends -/

/-- Rates appended to the two lists, each with its side and its node, with the analyzer run after each. -/
def appendBoth (n : ℕ) (s : Analyzer α R) (events : List (Strm × α × R)) : Option (Analyzer α R) :=
  events.foldlM (fun s e => appendRate n true e.1 s e.2.1 e.2.2) s

theorem initParams_sides (heads : Strm → α) (links : Links α) (bw : α → R) (flags : Flags) :
    Sides heads flags (initParams heads links bw flags) [] :=
  ⟨initParams_side heads links bw flags, rfl, rfl⟩

theorem appendBoth_sides {heads : Strm → α} (links : Links α) (bw : α → R) (flags : Flags)
    {events : List (Strm × α × R)} (hfresh : Fresh heads events) {n : ℕ} (hn : events.length ≤ n) :
    ∃ s, appendBoth n (initParams heads links bw flags) events = some s ∧ Sides heads flags s events := by
  induction events using List.reverseRecOn with
  | nil => exact ⟨_, rfl, initParams_sides heads links bw flags⟩
  | append_singleton events e ih =>
    obtain ⟨strm, rate, r⟩ := e
    have hlen : events.length + 1 ≤ n := by simpa using hn
    have hbefore : Fresh heads events := by
      have hsub : (heads .recv :: heads .send :: events.map fun e => e.2.1).Sublist
          (heads .recv :: heads .send :: (events ++ [(strm, rate, r)]).map fun e => e.2.1) := by simp
      exact hfresh.sublist hsub
    obtain ⟨s, hrun, hs⟩ := ih hbefore (by omega)
    obtain ⟨s', hstep, hs'⟩ := appendRate_sides hs hfresh hlen
    refine ⟨s', ?_, hs'⟩
    rw [appendBoth, List.foldlM_append]
    exact Option.bind_eq_some_iff.mpr ⟨s, hrun, by simpa using hstep⟩

/-- **The two sides do not disturb each other.** For every order in which rates come in on the two sides, as many calls
of `switch_bpfcc` are made as the watchers of the two sides count together, and these calls switch on, in order, the
controllers that were not switched on before. -/
theorem both_sides_switches {heads : Strm → α} (links : Links α) (bw : α → R) (flags : Flags)
    {events : List (Strm × α × R)} (hfresh : Fresh heads events) {n : ℕ} (hn : events.length ≤ n) :
    ∃ s, appendBoth n (initParams heads links bw flags) events = some s ∧
      s.switches = firstSwitches flags (sideWatched .recv events + sideWatched .send events) := by
  obtain ⟨s, hrun, hs⟩ := appendBoth_sides links bw flags hfresh hn
  exact ⟨s, hrun, hs.switched.switches⟩

/-- The rates 3 and 2 come in on the receive side, between the rates 5 and 4 of the send side. -/
theorem both_sides_switches_two :
    let heads : Strm → ℕ := fun strm => if strm = .recv then 0 else 1
    let events : List (Strm × ℕ × ℕ) := [(.send, 2, 5), (.recv, 3, 3), (.recv, 4, 2), (.send, 5, 4)]
    ∃ s, appendBoth 4 (initParams heads ⟨fun _ => none, fun _ => none⟩ (fun _ => 0) ⟨true, false, false⟩)
      events = some s ∧ s.switches = [some .vegas, some .reno] := by
  intro heads events
  have hfresh : Fresh heads events := by
    unfold Fresh
    decide
  have hfirst : firstSwitches ⟨true, false, false⟩ (sideWatched .recv events + sideWatched .send events) =
      [some .vegas, some .reno] := by decide
  rw [← hfirst]
  exact both_sides_switches _ _ _ hfresh (by decide)

/-! ## One list -/

omit [LinearOrder R] [DecidableEq α] in
/-- When all rates come in on one side, they are the rates of that side and the other side has none. -/
theorem sideRates_alone (strm : Strm) (rates : List (α × R)) :
    sideRates strm (rates.map (Prod.mk strm)) = rates ∧ sideRates strm.other (rates.map (Prod.mk strm)) = [] := by
  induction rates with
  | nil => exact ⟨rfl, rfl⟩
  | cons rate rates ih =>
    obtain ⟨hself, hother⟩ := ih
    simp only [sideRates, List.map_cons, List.filterMap_cons, if_pos, if_neg strm.other_ne.symm] at hself hother ⊢
    exact ⟨congrArg (rate :: ·) hself, hother⟩

omit [LinearOrder R] [DecidableEq α] in
theorem fresh_alone {heads : Strm → α} {strm : Strm} {rates : List (α × R)}
    (h : (heads strm.other :: heads strm :: rates.map Prod.fst).Nodup) : Fresh heads (rates.map (Prod.mk strm)) := by
  have hnodes : (rates.map (Prod.mk strm)).map (fun e => e.2.1) = rates.map Prod.fst := by
    rw [List.map_map]
    rfl
  rw [Fresh, hnodes]
  cases strm with
  | send => exact h
  | recv => exact (List.Perm.swap _ _ _).nodup_iff.mpr h

theorem firstSwitches_length (flags : Flags) (k : ℕ) : (firstSwitches flags k).length = k := by
  rw [firstSwitches, List.length_map, List.length_range]

/-- **All appends to one list**: as many calls of `switch_bpfcc` as the watcher counts falls. -/
theorem appendRates_watched {heads : Strm → α} (links : Links α) (bw : α → R) (flags : Flags) {strm : Strm} {n : ℕ}
    {rates : List (α × R)} (hfresh : (heads strm.other :: heads strm :: rates.map Prod.fst).Nodup)
    (hn : rates.length ≤ n) :
    ∃ s, appendRates n strm (initParams heads links bw flags) rates = some s ∧
      s.switches.length = watched none (rates.map Prod.snd) := by
  have hlen : (rates.map (Prod.mk strm)).length ≤ n := by rwa [List.length_map]
  obtain ⟨s, hrun, hs⟩ := appendBoth_sides links bw flags (fresh_alone hfresh) hlen
  obtain ⟨hself, hother⟩ := sideRates_alone strm rates
  have hcount : s.switches.length =
      sideWatched strm (rates.map (Prod.mk strm)) + sideWatched strm.other (rates.map (Prod.mk strm)) := by
    rw [hs.switched.switches, firstSwitches_length, sideWatched_add]
  refine ⟨s, ?_, ?_⟩
  · rw [← hrun, appendBoth, List.foldlM_map]
    rfl
  · rw [hcount, sideWatched, sideWatched, hself, hother]
    rfl

/-- **When the analyzer reacts to every fall**: after every append there were as many calls of `switch_bpfcc` as there
are falls in the list, exactly when no rate falls twice in a row. -/
theorem analyzer_counts_iff {heads : Strm → α} (links : Links α) (bw : α → R) (flags : Flags) {strm : Strm} {n : ℕ}
    {rates : List (α × R)} (hfresh : (heads strm.other :: heads strm :: rates.map Prod.fst).Nodup)
    (hn : rates.length ≤ n) :
    (∀ pre, pre <+: rates → ∃ s, appendRates n strm (initParams heads links bw flags) pre = some s ∧
      s.switches.length = falls (pre.map Prod.snd)) ↔ ¬ FallsTwice (rates.map Prod.snd) := by
  have hall : ∀ pre, pre <+: rates → ∃ s, appendRates n strm (initParams heads links bw flags) pre = some s ∧
      s.switches.length = watched none (pre.map Prod.snd) := by
    intro pre hpre
    have hnodes : (heads strm.other :: heads strm :: pre.map Prod.fst).Sublist
        (heads strm.other :: heads strm :: rates.map Prod.fst) := by simpa using (hpre.map Prod.fst).sublist
    exact appendRates_watched links bw flags (hfresh.sublist hnodes) (hpre.length_le.trans hn)
  constructor
  · intro h
    obtain ⟨s, hrun, hcount⟩ := h rates (List.prefix_refl _)
    obtain ⟨s', hrun', hcount'⟩ := hall rates (List.prefix_refl _)
    cases hrun.symm.trans hrun'
    exact (watched_eq_iff _).mp (hcount'.symm.trans hcount)
  · intro h pre hpre
    obtain ⟨s, hrun, hcount⟩ := hall pre hpre
    have hnot : ¬ FallsTwice (pre.map Prod.snd) := fun htwice => h (htwice.mono (hpre.map Prod.snd).isInfix)
    exact ⟨s, hrun, hcount.trans ((watched_eq_iff _).mpr hnot)⟩

/-- The rates 3, 2, 4 and 1 in the list of the receive side. -/
theorem analyzer_counts_iff_four :
    let heads : Strm → ℕ := fun strm => if strm = .recv then 0 else 1
    let rates : List (ℕ × ℕ) := [(2, 3), (3, 2), (4, 4), (5, 1)]
    ∀ pre, pre <+: rates → ∃ s, appendRates 4 .recv (initParams heads ⟨fun _ => none, fun _ => none⟩ (fun _ => 0)
      ⟨false, false, false⟩) pre = some s ∧ s.switches.length = falls (pre.map Prod.snd) := by
  intro heads rates
  have hfresh : (heads Strm.recv.other :: heads .recv :: rates.map Prod.fst).Nodup := by decide
  refine (analyzer_counts_iff _ _ _ hfresh (by decide)).mpr ?_
  simp [rates, fallsTwice_cons, not_fallsTwice_of_length]

/-- The rates 3, 2 and 1: the analyzer stops at the second one and does not see the third one fall. -/
theorem second_fall_missed :
    let heads : Strm → ℕ := fun strm => if strm = .recv then 0 else 1
    (appendRates 3 .recv (initParams heads ⟨fun _ => none, fun _ => none⟩ (fun _ => 0) ⟨false, false, false⟩)
      [(2, 3), (3, 2), (4, 1)]).map (fun s => s.switches.length) = some 1 ∧ falls [3, 2, 1] = 2 := by
  decide

end CoupledCC.Transfer
