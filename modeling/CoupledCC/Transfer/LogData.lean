import CoupledCC.Lib.Double
import CoupledCC.Transfer.Analyzer

/-!
# The log of the receive side

`log_data` notes a rate when 10 MB more have been received. The bytes are counted in an `int` (`nb_bytes_recv`) and, by
`copy_2`, in a double that is converted to an `int`; the quotient is a double again.

- `receiveEvent_counts`: while the total fits into an `int`, the counts and the quotient are exact, and every 10 MB are
  noted;
- `receiveEvent_bounded`: whatever an `int` holds, no more than 214 rates are noted;
- `logsEach_iff`: so every 10 MB are noted exactly when the total fits into an `int`.
-/

namespace CoupledCC.Transfer

open LinkedList Double

variable {α R : Type*} [LinearOrder R]

/-! ## The code -/

def minInt : ℤ := -2147483648
def maxInt : ℤ := 2147483647

/-- What an operation gives whose result does not fit into an `int`. The language leaves it open: some `int`, or the
program does not go on (`none`). -/
structure Overflow where
  value : ℤ → Option ℤ
  fits : ∀ v, ∀ k ∈ value v, minInt ≤ k ∧ k ≤ maxInt

/-- The result of an operation as an `int`. -/
def Overflow.int (ovf : Overflow) (v : ℤ) : Option ℤ :=
  if minInt ≤ v ∧ v ≤ maxInt then some v else ovf.value v

/-- The variables of the receive side. -/
structure RecvSide (α R : Type*) where
  analyzer : Analyzer α R
  nbBytesRecv : ℤ
  recvDataMB : ℤ
  /-- The total of `copy_2`, a double. -/
  recvbytes : ℚ

/-- The two ways in which bytes are counted. -/
inductive RecvPath
  | ifriReceive
  | copy2
deriving Repr, DecidableEq

/-- Bytes received, with the node and the rate for the case that they are noted. -/
structure RecvEvent (α R : Type*) where
  path : RecvPath
  size : ℕ
  rate : α
  bw : R

/-- `init_params` for the receive side, and the start of `copy_2`. -/
def initRecvSide [DecidableEq α] (heads : Strm → α) (links : Links α) (bw : α → R) (flags : Flags) : RecvSide α R :=
  { analyzer := initParams heads links bw flags
    nbBytesRecv := 0
    recvDataMB := 0
    recvbytes := 0 }

section Code

variable [DecidableEq α] (ovf : Overflow) (n : ℕ) (bandwidth : Bool)

/-- `log_data`: the analyzer and `*nMB` afterwards. As `*nMB` is less than an `int`, one more is an `int`. -/
def logData (strm : Strm) (nbytes : ℚ) (nMB : ℤ) (s : Analyzer α R) (rate : α) (bw : R) : Option (Analyzer α R × ℤ) :=
  (ovf.int (trunc (toDouble (nbytes / 10000000)))).bind fun mb =>
    if nMB < mb then (appendRate n bandwidth strm s rate bw).map fun s => (s, nMB + 1)
    else some (s, nMB)

/-- The call of `log_data` for the receive side. An `int` is exact as a double. -/
def logRecv (s : RecvSide α R) (event : RecvEvent α R) : Option (RecvSide α R) :=
  (logData ovf n bandwidth .recv s.nbBytesRecv s.recvDataMB s.analyzer event.rate event.bw).map fun r =>
    { s with analyzer := r.1, recvDataMB := r.2 }

/-- `set_recv_data`. -/
def setRecvData (recvData : ℤ) (s : RecvSide α R) (event : RecvEvent α R) : Option (RecvSide α R) :=
  logRecv ovf n bandwidth { s with nbBytesRecv := recvData } event

/-- What `ifri_receive` and a turn of `copy_2` do with the number of bytes they got. -/
def receiveEvent (s : RecvSide α R) (event : RecvEvent α R) : Option (RecvSide α R) :=
  match event.path with
  | .ifriReceive =>
    (ovf.int (s.nbBytesRecv + event.size)).bind fun nbBytesRecv =>
      logRecv ovf n bandwidth { s with nbBytesRecv := nbBytesRecv } event
  | .copy2 =>
    let recvbytes := toDouble (s.recvbytes + event.size)
    (ovf.int (trunc recvbytes)).bind fun recvData =>
      setRecvData ovf n bandwidth recvData { s with recvbytes := recvbytes } event

def receiveEvents (s : RecvSide α R) (events : List (RecvEvent α R)) : Option (RecvSide α R) :=
  events.foldlM (receiveEvent ovf n bandwidth) s

end Code

/-! ## What is to be logged -/

/-- The bytes received. -/
def totalBytes (events : List (RecvEvent α R)) : ℕ :=
  (events.map RecvEvent.size).sum

/-- The rates of the receive side. -/
def RecvSide.Rates (heads : Strm → α) (s : RecvSide α R) (l : List α) : Prop :=
  Represents (heads .recv) ⟨s.analyzer.links, s.analyzer.last .recv⟩ l

/-- **Every 10 MB are logged once**: after each event there are as many rates as there are 10 MB in the total. -/
def LogsEach [DecidableEq α] (heads : Strm → α) (ovf : Overflow) (n : ℕ) (bandwidth : Bool) (s : RecvSide α R)
    (events : List (RecvEvent α R)) : Prop :=
  ∀ pre, pre <+: events → ∃ s' l, receiveEvents ovf n bandwidth s pre = some s' ∧ s'.Rates heads l ∧
    l.length = totalBytes pre / 10000000

omit [LinearOrder R] in
theorem totalBytes_append (events events' : List (RecvEvent α R)) :
    totalBytes (events ++ events') = totalBytes events + totalBytes events' := by
  simp [totalBytes]

omit [LinearOrder R] in
theorem totalBytes_concat (events : List (RecvEvent α R)) (event : RecvEvent α R) :
    totalBytes (events ++ [event]) = totalBytes events + event.size := by
  simp [totalBytes]

theorem Represents.unique {head : α} {s : RateList α} {l m : List α} (hl : Represents head s l)
    (hm : Represents head s m) : l = m := by
  have hlstart : s.links.Linked ([] ++ head :: l) := hl.linked
  have hmstart : s.links.Linked ([] ++ head :: m) := hm.linked
  calc l = s.links.walk (max l.length m.length) l.head? := (hl.linked.tail.walk (le_max_left _ _)).symm
    _ = s.links.walk (max l.length m.length) m.head? := by rw [← hlstart.next, hmstart.next]
    _ = m := hm.linked.tail.walk (le_max_right _ _)

theorem Overflow.int_bounds {ovf : Overflow} {v k : ℤ} (h : ovf.int v = some k) : minInt ≤ k ∧ k ≤ maxInt := by
  unfold Overflow.int at h
  split at h
  · cases h
    assumption
  · exact ovf.fits v k h

theorem Overflow.int_of_fits (ovf : Overflow) {v : ℤ} (hmin : minInt ≤ v) (hmax : v ≤ maxInt) : ovf.int v = some v :=
  if_pos ⟨hmin, hmax⟩

/-- The whole 10 MB in an `int`. -/
theorem int_tdiv {v : ℤ} (h : minInt ≤ v ∧ v ≤ maxInt) : -214 ≤ v.tdiv 10000000 ∧ v.tdiv 10000000 ≤ 214 := by
  simp only [minInt, maxInt] at h
  rcases Int.le_total 0 v with hv | hv
  · rw [Int.tdiv_eq_ediv_of_nonneg hv]
    omega
  · have hneg : v.tdiv 10000000 = -((-v) / 10000000) := by
      rw [← Int.tdiv_eq_ediv_of_nonneg (by omega), Int.neg_tdiv, neg_neg]
    omega

variable [DecidableEq α]

/-! ## One call of log_data -/

/-- An append keeps the list, also when the analyzer runs. -/
theorem appendRate_represents (n : ℕ) (bandwidth : Bool) {heads : Strm → α} {strm : Strm}
    {s : Analyzer α R} {l : List α}
    (hl : Represents (heads strm) ⟨s.links, s.last strm⟩ l) {rate : α} (bw : R) (hrate : rate ∉ heads strm :: l) :
    ∃ s', appendRate n bandwidth strm s rate bw = some s' ∧
      Represents (heads strm) ⟨s'.links, s'.last strm⟩ (l ++ [rate]) := by
  obtain ⟨list, hinsert, hrep, -⟩ := listInsert_spec hl hrate
  have hnoted : Represents (heads strm) ⟨(s.noted strm rate bw list).links, (s.noted strm rate bw list).last strm⟩
      (l ++ [rate]) := by
    have hlast : (s.noted strm rate bw list).last strm = list.lastHead := Function.update_self _ _ _
    rw [hlast]
    exact hrep
  rw [appendRate, hinsert]
  refine ⟨_, rfl, ?_⟩
  cases bandwidth with
  | false => exact hnoted
  | true =>
    obtain ⟨hlinks, hlast, -⟩ := probe_frame n (s.noted strm rate bw list) .recv
    obtain ⟨hlinks', hlast', -⟩ := probe_frame n (probe n (s.noted strm rate bw list) .recv) .send
    simp only [if_true, bandwidthAnalyzer, hlinks', hlast', hlinks, hlast]
    exact hnoted

/-- **A call of `log_data`** notes a rate when the whole 10 MB of an `int` are more than those noted. -/
theorem logRecv_spec (ovf : Overflow) (n : ℕ) (bandwidth : Bool) {heads : Strm → α} {s : RecvSide α R} {l : List α}
    (hl : s.Rates heads l) {event : RecvEvent α R} (hrate : event.rate ∉ heads .recv :: l)
    (hnb : minInt ≤ s.nbBytesRecv ∧ s.nbBytesRecv ≤ maxInt) :
    ∃ s', logRecv ovf n bandwidth s event = some s' ∧ s'.nbBytesRecv = s.nbBytesRecv ∧ s'.recvbytes = s.recvbytes ∧
      if s.recvDataMB < s.nbBytesRecv.tdiv 10000000 then
        s'.Rates heads (l ++ [event.rate]) ∧ s'.recvDataMB = s.recvDataMB + 1
      else s'.Rates heads l ∧ s'.recvDataMB = s.recvDataMB := by
  have htdiv := int_tdiv hnb
  simp only [minInt, maxInt] at hnb
  have hquot : trunc (toDouble ((s.nbBytesRecv : ℚ) / 10000000)) = s.nbBytesRecv.tdiv 10000000 := by
    have h := trunc_toDouble_div (n := s.nbBytesRecv) (d := 10000000) (k := 24) (by decide) (by decide)
      (by decide) (by omega)
    exact_mod_cast h
  have hint : ovf.int (s.nbBytesRecv.tdiv 10000000) = some (s.nbBytesRecv.tdiv 10000000) := by
    apply ovf.int_of_fits <;> simp only [minInt, maxInt] <;> omega
  unfold logRecv logData
  rw [hquot, hint, Option.bind_some]
  split
  · obtain ⟨s', hrun, hrep⟩ := appendRate_represents n bandwidth hl event.bw hrate
    rw [hrun]
    exact ⟨_, rfl, rfl, rfl, hrep, rfl⟩
  · exact ⟨_, rfl, rfl, rfl, hl, rfl⟩

/-! ## Any int -/

/-- What holds whatever the overflows give: the noted rates are counted, and they are at most the 10 MB of an `int`. -/
structure Bounded (heads : Strm → α) (events : List (RecvEvent α R)) (s : RecvSide α R) (l : List α) : Prop where
  rates : s.Rates heads l
  subset : l ⊆ events.map RecvEvent.rate
  counted : s.recvDataMB = l.length
  bound : l.length ≤ 214

omit [LinearOrder R] [DecidableEq α] in
theorem Bounded.fresh {heads : Strm → α} {events : List (RecvEvent α R)} {event : RecvEvent α R}
    (hfresh : (heads .recv :: (events ++ [event]).map RecvEvent.rate).Nodup) {s : RecvSide α R} {l : List α}
    (hs : Bounded heads events s l) : event.rate ∉ heads .recv :: l := by
  rw [List.map_append, ← List.cons_append, List.map_singleton, List.nodup_middle, List.append_nil,
    List.nodup_cons] at hfresh
  intro h
  rcases List.mem_cons.mp h with h | h
  · exact hfresh.1 (h ▸ List.mem_cons_self)
  · exact hfresh.1 (List.mem_cons_of_mem _ (hs.subset h))

theorem initRecvSide_bounded (heads : Strm → α) (links : Links α) (bw : α → R) (flags : Flags) :
    Bounded heads [] (initRecvSide heads links bw flags) [] :=
  ⟨(initParams_side heads links bw flags .recv).rep, List.Subset.refl _, rfl, Nat.zero_le _⟩

/-- The call of `log_data` after the bytes have been counted. -/
theorem logRecv_bounded (ovf : Overflow) (n : ℕ) (bandwidth : Bool) {heads : Strm → α} {events : List (RecvEvent α R)}
    {event : RecvEvent α R} (hfresh : (heads .recv :: (events ++ [event]).map RecvEvent.rate).Nodup) {s : RecvSide α R}
    {l : List α} (hs : Bounded heads events s l) {nb : ℤ} (hnb : minInt ≤ nb ∧ nb ≤ maxInt) (recvbytes : ℚ) :
    ∃ s' l', logRecv ovf n bandwidth { s with nbBytesRecv := nb, recvbytes := recvbytes } event = some s' ∧
      Bounded heads (events ++ [event]) s' l' ∧ s'.nbBytesRecv = nb ∧ s'.recvbytes = recvbytes ∧
      l'.length = if (l.length : ℤ) < nb.tdiv 10000000 then l.length + 1 else l.length := by
  have hrates : ({ s with nbBytesRecv := nb, recvbytes := recvbytes } : RecvSide α R).Rates heads l := hs.rates
  obtain ⟨s', hrun, hnb', hrecvbytes, hcase⟩ := logRecv_spec ovf n bandwidth hrates (hs.fresh hfresh) hnb
  have hsub : l ⊆ (events ++ [event]).map RecvEvent.rate := by
    rw [List.map_append]
    exact List.subset_append_of_subset_left _ hs.subset
  simp only [hs.counted] at hcase
  split at hcase
  · rename_i hlt
    have hmax := (int_tdiv hnb).2
    refine ⟨s', l ++ [event.rate], hrun, ⟨hcase.1, ?_, ?_, ?_⟩, hnb', hrecvbytes, ?_⟩
    · exact List.append_subset.mpr ⟨hsub, by simp⟩
    · simp [hcase.2]
    · rw [List.length_append, List.length_singleton]
      omega
    · simp [hlt]
  · rename_i hlt
    exact ⟨s', l, hrun, ⟨hcase.1, hsub, hcase.2, hs.bound⟩, hnb', hrecvbytes, by rw [if_neg hlt]⟩

/-- Whatever the overflows give, `log_data` is called with an `int`. -/
theorem receiveEvent_cases {ovf : Overflow} {n : ℕ} {bandwidth : Bool} {s s' : RecvSide α R} {event : RecvEvent α R}
    (h : receiveEvent ovf n bandwidth s event = some s') :
    ∃ nb recvbytes, (minInt ≤ nb ∧ nb ≤ maxInt) ∧
      logRecv ovf n bandwidth { s with nbBytesRecv := nb, recvbytes := recvbytes } event = some s' := by
  unfold receiveEvent at h
  split at h
  · obtain ⟨nb, hint, hlog⟩ := Option.bind_eq_some_iff.mp h
    exact ⟨nb, s.recvbytes, Overflow.int_bounds hint, hlog⟩
  · obtain ⟨nb, hint, hlog⟩ := Option.bind_eq_some_iff.mp h
    exact ⟨nb, _, Overflow.int_bounds hint, hlog⟩

theorem receiveEvent_bounded {ovf : Overflow} {n : ℕ} {bandwidth : Bool} {heads : Strm → α}
    {events : List (RecvEvent α R)} {event : RecvEvent α R}
    (hfresh : (heads .recv :: (events ++ [event]).map RecvEvent.rate).Nodup) {s s' : RecvSide α R} {l : List α}
    (hs : Bounded heads events s l) (h : receiveEvent ovf n bandwidth s event = some s') :
    ∃ l', Bounded heads (events ++ [event]) s' l' := by
  obtain ⟨nb, recvbytes, hnb, hlog⟩ := receiveEvent_cases h
  obtain ⟨s₁, l', hlog', hs', -⟩ := logRecv_bounded ovf n bandwidth hfresh hs hnb recvbytes
  cases hlog.symm.trans hlog'
  exact ⟨l', hs'⟩

omit [LinearOrder R] [DecidableEq α] in
/-- The nodes of fewer events. -/
theorem fresh_of_fewer {head : α} {pre events : List (RecvEvent α R)} (hpre : pre <+: events)
    (hfresh : (head :: events.map RecvEvent.rate).Nodup) : (head :: pre.map RecvEvent.rate).Nodup :=
  hfresh.sublist ((hpre.map RecvEvent.rate).sublist.cons_cons head)

/-- **Whatever the overflows give**, no more rates are noted than there are 10 MB in an `int`. -/
theorem receiveEvents_bounded {ovf : Overflow} {n : ℕ} {bandwidth : Bool} {heads : Strm → α} (links : Links α)
    (bw : α → R) (flags : Flags) {events : List (RecvEvent α R)}
    (hfresh : (heads .recv :: events.map RecvEvent.rate).Nodup) {s : RecvSide α R}
    (h : receiveEvents ovf n bandwidth (initRecvSide heads links bw flags) events = some s) :
    ∃ l, Bounded heads events s l := by
  induction events using List.reverseRecOn generalizing s with
  | nil =>
    cases h
    exact ⟨[], initRecvSide_bounded heads links bw flags⟩
  | append_singleton events event ih =>
    rw [receiveEvents, List.foldlM_append] at h
    obtain ⟨s₁, hrun, hstep⟩ := Option.bind_eq_some_iff.mp h
    obtain ⟨l, hs⟩ := ih (fresh_of_fewer (List.prefix_append _ _) hfresh) hrun
    exact receiveEvent_bounded hfresh hs (by simpa using hstep)

/-! ## Totals that fit -/

/-- What holds while the total fits into an `int`: it is counted exactly, and every 10 MB are noted. -/
structure Exact (heads : Strm → α) (events : List (RecvEvent α R)) (s : RecvSide α R) (l : List α) : Prop
    extends Bounded heads events s l where
  total : s.nbBytesRecv = totalBytes events
  logged : l.length = totalBytes events / 10000000
  copied : (∀ event ∈ events, event.path = .copy2) → s.recvbytes = totalBytes events

/-- `copy_2` writes its data before `ifri_receive` gets the reply. -/
def CopiedFirst (events : List (RecvEvent α R)) : Prop :=
  events.Pairwise fun event event' => event'.path = .copy2 → event.path = .copy2

/-- The next event counts the exact total, as an `int`. -/
theorem receiveEvent_eq (ovf : Overflow) (n : ℕ) (bandwidth : Bool) {heads : Strm → α} {events : List (RecvEvent α R)}
    {event : RecvEvent α R} (hcopied : CopiedFirst (events ++ [event])) (hsize : event.size ≤ 10000000)
    {s : RecvSide α R} {l : List α} (hs : Exact heads events s l) (htotal : totalBytes events ≤ 2147483647) :
    ∃ recvbytes : ℚ, receiveEvent ovf n bandwidth s event =
        (ovf.int (totalBytes (events ++ [event]))).bind (fun nb =>
          logRecv ovf n bandwidth { s with nbBytesRecv := nb, recvbytes := recvbytes } event) ∧
      ((∀ e ∈ events ++ [event], e.path = .copy2) → recvbytes = totalBytes (events ++ [event])) := by
  rw [totalBytes_concat]
  cases hpath : event.path with
  | ifriReceive =>
    refine ⟨s.recvbytes, ?_, fun hall => ?_⟩
    · simp only [receiveEvent, hpath, hs.total]
      rfl
    · have hcopy2 := hall event (by simp)
      rw [hpath] at hcopy2
      cases hcopy2
  | copy2 =>
    have hbefore : ∀ e ∈ events, e.path = .copy2 := fun e he =>
      (List.pairwise_append.mp hcopied).2.2 e he event (List.mem_singleton_self _) hpath
    have hsum : toDouble (s.recvbytes + event.size) = (totalBytes events + event.size : ℕ) := by
      rw [hs.copied hbefore, ← Nat.cast_add, toDouble_natCast (by omega)]
    refine ⟨(totalBytes events + event.size : ℕ), ?_, fun _ => rfl⟩
    simp only [receiveEvent, hpath, hsum, trunc_natCast]
    rfl

/-- **An event whose total fits** is counted and noted. -/
theorem receiveEvent_counts (ovf : Overflow) (n : ℕ) (bandwidth : Bool) {heads : Strm → α}
    {events : List (RecvEvent α R)} {event : RecvEvent α R}
    (hfresh : (heads .recv :: (events ++ [event]).map RecvEvent.rate).Nodup) (hcopied : CopiedFirst (events ++ [event]))
    (hsize : event.size ≤ 10000000) {s : RecvSide α R} {l : List α} (hs : Exact heads events s l)
    (htotal : totalBytes (events ++ [event]) ≤ 2147483647) :
    ∃ s' l', receiveEvent ovf n bandwidth s event = some s' ∧ Exact heads (events ++ [event]) s' l' := by
  have hsum := totalBytes_concat events event
  obtain ⟨recvbytes, heq, hrecvbytes⟩ := receiveEvent_eq ovf n bandwidth hcopied hsize hs (by omega)
  have hfits : minInt ≤ totalBytes (events ++ [event]) ∧ (totalBytes (events ++ [event]) : ℤ) ≤ maxInt := by
    simp only [minInt, maxInt]
    omega
  obtain ⟨s', l', hlog, hs', hnb, hdouble, hlen⟩ :=
    logRecv_bounded ovf n bandwidth hfresh hs.toBounded hfits recvbytes
  refine ⟨s', l', ?_, hs', hnb, ?_, fun hall => hdouble.trans (hrecvbytes hall)⟩
  · rw [heq, ovf.int_of_fits hfits.1 hfits.2]
    exact hlog
  · have hlogged := hs.logged
    rw [Int.tdiv_eq_ediv_of_nonneg (by omega)] at hlen
    split at hlen <;> omega

/-- A program that stops at an overflow. -/
def Overflow.stops : Overflow :=
  ⟨fun _ => none, by simp⟩

/-- **All events**: every 10 MB are noted as long as the total fits, and then the program may stop. -/
theorem receiveEvents_counts (ovf : Overflow) (n : ℕ) (bandwidth : Bool) {heads : Strm → α} (links : Links α)
    (bw : α → R) (flags : Flags) {events : List (RecvEvent α R)}
    (hfresh : (heads .recv :: events.map RecvEvent.rate).Nodup) (hcopied : CopiedFirst events)
    (hsize : ∀ event ∈ events, event.size ≤ 10000000) (htotal : totalBytes events ≤ 2147483647) :
    ∃ s l, receiveEvents ovf n bandwidth (initRecvSide heads links bw flags) events = some s ∧
      Exact heads events s l := by
  induction events using List.reverseRecOn with
  | nil =>
    refine ⟨_, [], rfl, initRecvSide_bounded heads links bw flags, rfl, ?_, fun _ => rfl⟩
    simp [totalBytes]
  | append_singleton events event ih =>
    have hsum := totalBytes_concat events event
    obtain ⟨s, l, hrun, hs⟩ := ih (fresh_of_fewer (List.prefix_append _ _) hfresh) (List.pairwise_append.mp hcopied).1
      (fun e he => hsize e (List.mem_append_left _ he)) (by omega)
    obtain ⟨s', l', hstep, hs'⟩ := receiveEvent_counts ovf n bandwidth hfresh hcopied (hsize event (by simp)) hs htotal
    refine ⟨s', l', ?_, hs'⟩
    rw [receiveEvents, List.foldlM_append]
    exact Option.bind_eq_some_iff.mpr ⟨s, hrun, by simpa using hstep⟩

/-- A total that does not fit is an overflow. -/
theorem receiveEvents_stops (n : ℕ) (bandwidth : Bool) {heads : Strm → α} (links : Links α) (bw : α → R) (flags : Flags)
    {events : List (RecvEvent α R)} (hfresh : (heads .recv :: events.map RecvEvent.rate).Nodup)
    (hcopied : CopiedFirst events) (hsize : ∀ event ∈ events, event.size ≤ 10000000)
    (htotal : 2147483647 < totalBytes events) :
    receiveEvents Overflow.stops n bandwidth (initRecvSide heads links bw flags) events = none := by
  induction events using List.reverseRecOn with
  | nil => cases htotal
  | append_singleton events event ih =>
    have hfresh' := fresh_of_fewer (List.prefix_append _ _) hfresh
    have hcopied' : CopiedFirst events := (List.pairwise_append.mp hcopied).1
    have hsize' : ∀ e ∈ events, e.size ≤ 10000000 := fun e he => hsize e (List.mem_append_left _ he)
    rw [receiveEvents, List.foldlM_append]
    by_cases hbefore : totalBytes events ≤ 2147483647
    · obtain ⟨s, l, hrun, hs⟩ := receiveEvents_counts .stops n bandwidth links bw flags hfresh' hcopied' hsize' hbefore
      obtain ⟨recvbytes, heq, -⟩ := receiveEvent_eq .stops n bandwidth hcopied (hsize event (by simp)) hs hbefore
      have hint : Overflow.stops.int (totalBytes (events ++ [event])) = none := by
        apply if_neg
        simp only [maxInt]
        omega
      rw [hint] at heq
      exact Option.bind_eq_none_iff.mpr fun s' hrun' => by
        cases hrun.symm.trans hrun'
        simp [heq]
    · exact Option.bind_eq_none_iff.mpr fun s' hrun' => by
        have hnone := ih hfresh' hcopied' hsize' (by omega)
        cases hnone.symm.trans hrun'

/-- From 2.15 GB on there are more 10 MB than in any `int`. -/
theorem not_logsEach {heads : Strm → α} (links : Links α) (bw : α → R) (flags : Flags) (ovf : Overflow) (n : ℕ)
    (bandwidth : Bool) {events : List (RecvEvent α R)} (hfresh : (heads .recv :: events.map RecvEvent.rate).Nodup)
    (htotal : 2150000000 ≤ totalBytes events) :
    ¬ LogsEach heads ovf n bandwidth (initRecvSide heads links bw flags) events := by
  intro h
  obtain ⟨s, l, hrun, hl, hlen⟩ := h events (List.prefix_refl _)
  obtain ⟨l', hs⟩ := receiveEvents_bounded links bw flags hfresh hrun
  have hbound := hs.bound
  rw [← Represents.unique hl hs.rates, hlen] at hbound
  omega

/-- **When every 10 MB are logged once**: whatever an overflow gives, exactly when the total fits into an `int`; and
from 2.15 GB on they are not, whatever an overflow gives. -/
theorem logsEach_iff {heads : Strm → α} (links : Links α) (bw : α → R) (flags : Flags) (n : ℕ) (bandwidth : Bool)
    {events : List (RecvEvent α R)} (hfresh : (heads .recv :: events.map RecvEvent.rate).Nodup)
    (hcopied : CopiedFirst events) (hsize : ∀ event ∈ events, event.size ≤ 10000000) :
    ((∀ ovf, LogsEach heads ovf n bandwidth (initRecvSide heads links bw flags) events) ↔
        totalBytes events ≤ 2147483647) ∧
      (2150000000 ≤ totalBytes events →
        ∀ ovf, ¬ LogsEach heads ovf n bandwidth (initRecvSide heads links bw flags) events) := by
  refine ⟨⟨fun h => ?_, fun htotal ovf pre hpre => ?_⟩,
    fun htotal ovf => not_logsEach links bw flags ovf n bandwidth hfresh htotal⟩
  · by_contra hover
    obtain ⟨s, l, hrun, -⟩ := h .stops events (List.prefix_refl _)
    have hstops := receiveEvents_stops n bandwidth links bw flags hfresh hcopied hsize (by omega)
    cases hrun.symm.trans hstops
  · have htotal' : totalBytes pre ≤ 2147483647 := by
      obtain ⟨post, rfl⟩ := hpre
      rw [totalBytes_append] at htotal
      omega
    obtain ⟨s, l, hrun, hs⟩ := receiveEvents_counts ovf n bandwidth links bw flags (fresh_of_fewer hpre hfresh)
      (hcopied.sublist hpre.sublist) (fun event he => hsize event (hpre.subset he)) htotal'
    exact ⟨s, l, hrun, hs.rates, hs.logged⟩

/-- 10 MB from `copy_2` and 10 MB from `ifri_receive`. -/
theorem logsEach_iff_two :
    let heads : Strm → ℕ := fun strm => if strm = .recv then 0 else 1
    let events : List (RecvEvent ℕ ℕ) := [⟨.copy2, 10000000, 2, 5⟩, ⟨.ifriReceive, 10000000, 3, 4⟩]
    ∀ ovf, LogsEach heads ovf 2 true (initRecvSide heads ⟨fun _ => none, fun _ => none⟩ (fun _ => 0) ⟨true, true, true⟩)
      events := by
  intro heads events
  have hfresh : (heads .recv :: events.map RecvEvent.rate).Nodup := by decide
  have hcopied : CopiedFirst events := by simp [CopiedFirst, events]
  have hsize : ∀ event ∈ events, event.size ≤ 10000000 := by simp [events]
  exact (logsEach_iff _ _ _ _ _ hfresh hcopied hsize).1.mpr (by simp [events, totalBytes])

/-- A file of 2.15 GB that `copy_2` writes in blocks of 16384 bytes: the 215th entry is missing. -/
theorem large_file_not_logged :
    let heads : Strm → ℕ := fun strm => if strm = .recv then 0 else 1
    let events : List (RecvEvent ℕ ℕ) := (List.range 131226).map fun k => ⟨.copy2, 16384, k + 2, 0⟩
    totalBytes events = 2150006784 ∧
      ∀ ovf, ¬ LogsEach heads ovf 0 false
        (initRecvSide heads ⟨fun _ => none, fun _ => none⟩ (fun _ => 0) ⟨true, true, true⟩) events := by
  intro heads events
  have hsum : ∀ n, totalBytes ((List.range n).map fun k => (⟨.copy2, 16384, k + 2, 0⟩ : RecvEvent ℕ ℕ)) =
      n * 16384 := by
    intro n
    simp [totalBytes, Function.comp_def]
  have htotal : totalBytes events = 2150006784 := hsum 131226
  have hfresh : (heads .recv :: events.map RecvEvent.rate).Nodup := by
    simp only [events, List.map_map, List.nodup_cons]
    refine ⟨by simp [heads], List.nodup_range.map fun a b h => ?_⟩
    simpa using h
  exact ⟨htotal, fun ovf => not_logsEach _ _ _ ovf _ _ hfresh (by omega)⟩

end CoupledCC.Transfer
