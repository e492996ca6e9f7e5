import CoupledCC.Lib.Trace
import CoupledCC.Transfer.Options

/-!
# The loaders in a run of a process

A child of the server or a client: it loads the controller of its command line, `switch_bpfcc` loads others while it
serves, and `release` unloads the one of the command line, at the end of `main` or out of the signal handler.

- `appendRate_switched`: which controllers one rate may switch on;
- `loaders_called`: no controller is loaded twice, and only the one of the command line is unloaded;
- `loaders_lifeCycle_iff`: when the life cycle of the objects is kept in such a run.
-/

namespace CoupledCC.Transfer

open Runs Journal Libcc Argp

variable {α R : Type*} [DecidableEq α] [LinearOrder R]

/-! ## The code -/

/-- Where a process is. -/
inductive Stage
  | starting
  | serving
  /-- `release` has run; `exit` is next. -/
  | released
  /-- `settcpcc` took the length of a name that is `NULL`. -/
  | crashed
deriving Repr, DecidableEq

structure Process (α R : Type*) where
  env : Env
  side : Analyzer α R
  loaders : Controller → Loader
  stage : Stage

/-- What happens to a process, with what libbpf does in it. -/
inductive ProcessEvent (α R : Type*)
  /-- The controller of the command line is loaded and set for the sockets, and its flags are handed on. -/
  | setController (o : Outcome)
  /-- `initialize` of the client gives up before that, and `main` goes on. -/
  | notConnected
  /-- `log_data` appends a rate. -/
  | rate (strm : Strm) (rate : α) (bw : R) (libbpf : Controller → Outcome)
  /-- `release`, at the end of `main` or in `sig_handler`, which a second signal may interrupt. -/
  | release

/-- The loaders after a load for each controller in a list of switches. -/
def loadAll (libbpf : Controller → Outcome) (loaders : Controller → Loader) : List (Option Controller) →
    Controller → Loader
  | [] => loaders
  | none :: switches => loadAll libbpf loaders switches
  | some ctl :: switches =>
    loadAll libbpf (Function.update loaders ctl (ctl.load (libbpf ctl) (loaders ctl))) switches

def Process.start (heads : Strm → α) (links : LinkedList.Links α) (bw : α → R) (env : Env) : Process α R :=
  { env := env
    side := initParams heads links bw ⟨false, false, false⟩
    loaders := fun _ => .start
    stage := .starting }

/-- One event; `none` where it cannot happen. -/
def Process.step (n : ℕ) (s : Process α R) : ProcessEvent α R → Option (Process α R)
  | .setController o =>
    if s.stage = .starting then
      let loaders := loadAll (fun _ => o) s.loaders [s.env.loadBpfcc]
      match s.env.bpfcc with
      | none => some { s with loaders := loaders, stage := .crashed }
      | some _ => some { s with loaders := loaders, side := { s.side with flags := s.env.flags }, stage := .serving }
    else none
  | .notConnected => if s.stage = .starting then some { s with stage := .serving } else none
  | .rate strm rate bw libbpf =>
    if s.stage = .serving then
      (appendRate n s.env.bandwidth strm s.side rate bw).map fun side =>
        { s with side := side, loaders := loadAll libbpf s.loaders (side.switches.drop s.side.switches.length) }
    else none
  | .release =>
    if s.stage = .crashed then none
    else
      let loaders := match s.env.unloadBpfcc with
        | none => s.loaders
        | some ctl => Function.update s.loaders ctl (ctl.unload (s.loaders ctl))
      some { s with loaders := loaders, stage := .released }

/-! ## What a rate switches on -/

/-- The calls of `switch_bpfcc` between two states: each controller is switched on at most once, and only if it was not
on. -/
structure Switching (s s' : Analyzer α R) (new : List (Option Controller)) : Prop where
  switches : s'.switches = s.switches ++ new
  once : ∀ ctl, new.count (some ctl) ≤ 1
  wasOff : ∀ ctl, some ctl ∈ new → s.flags.has ctl = false
  isOn : ∀ ctl, s'.flags.has ctl = true ↔ s.flags.has ctl = true ∨ some ctl ∈ new

omit [DecidableEq α] [LinearOrder R] in
/-- A state with the same calls and flags. -/
theorem Switching.nil {s s' : Analyzer α R} (hswitches : s'.switches = s.switches) (hflags : s'.flags = s.flags) :
    Switching s s' [] where
  switches := by rw [hswitches, List.append_nil]
  once := fun ctl => Nat.zero_le 1
  wasOff := fun ctl h => by cases h
  isOn := fun ctl => by simp [hflags]

omit [DecidableEq α] [LinearOrder R] in
theorem Switching.trans {s s' s'' : Analyzer α R} {new new' : List (Option Controller)} (h : Switching s s' new)
    (h' : Switching s' s'' new') : Switching s s'' (new ++ new') where
  switches := by rw [h'.switches, h.switches, List.append_assoc]
  once := fun ctl => by
    rw [List.count_append]
    by_cases hmem : some ctl ∈ new
    · have hoff : some ctl ∉ new' := fun hnew' => by
        have hon := (h.isOn ctl).mpr (.inr hmem)
        rw [h'.wasOff ctl hnew'] at hon
        cases hon
      rw [List.count_eq_zero.mpr hoff]
      exact h.once ctl
    · rw [List.count_eq_zero.mpr hmem, Nat.zero_add]
      exact h'.once ctl
  wasOff := fun ctl hmem => by
    rcases List.mem_append.mp hmem with hnew | hnew'
    · exact h.wasOff ctl hnew
    · have hoff := h'.wasOff ctl hnew'
      by_contra hon
      rw [(h.isOn ctl).mpr (.inl (by simpa using hon))] at hoff
      cases hoff
  isOn := fun ctl => by rw [h'.isOn, h.isOn, List.mem_append, or_assoc]

omit [DecidableEq α] [LinearOrder R] in
theorem switchBpfcc_switching (s : Analyzer α R) : ∃ new, Switching s (switchBpfcc s) new := by
  have hone (ctl : Controller) {flags : Flags} (hoff : s.flags.has ctl = false)
      (hflags : ∀ c, flags.has c = true ↔ s.flags.has c = true ∨ ctl = c) :
      Switching s { s with flags := flags, switches := s.switches ++ [some ctl] } [some ctl] := by
    refine ⟨rfl, fun c => List.count_le_length, fun c hc => ?_, fun c => ?_⟩
    · obtain rfl : c = ctl := by simpa using hc
      exact hoff
    · rw [hflags, List.mem_singleton, Option.some_inj, eq_comm (a := c)]
  unfold switchBpfcc
  split
  · rename_i hcubic
    refine ⟨_, hone .cubic (by simpa [Flags.has] using hcubic) fun c => ?_⟩
    cases c <;> simp [Flags.has]
  · split
    · rename_i hvegas
      refine ⟨_, hone .vegas (by simpa [Flags.has] using hvegas) fun c => ?_⟩
      cases c <;> simp [Flags.has]
    · split
      · rename_i hreno
        refine ⟨_, hone .reno (by simpa [Flags.has] using hreno) fun c => ?_⟩
        cases c <;> simp [Flags.has]
      · exact ⟨[none], rfl, fun c => by simp, fun c hc => by simp at hc, fun c => by simp⟩

omit [DecidableEq α] in
theorem probe_switching (n : ℕ) (s : Analyzer α R) (strm : Strm) : ∃ new, Switching s (probe n s strm) new := by
  unfold probe
  split
  · exact ⟨[], .nil rfl rfl⟩
  · split
    · exact ⟨[], .nil rfl rfl⟩
    · obtain ⟨new, hnew⟩ := switchBpfcc_switching s
      refine ⟨new ++ [], hnew.trans (.nil ?_ ?_)⟩ <;> rfl

/-- **What one rate switches on.** -/
theorem appendRate_switched {n : ℕ} {bandwidth : Bool} {strm : Strm} {s s' : Analyzer α R} {rate : α} {bw : R}
    (h : appendRate n bandwidth strm s rate bw = some s') : ∃ new, Switching s s' new := by
  obtain ⟨list, -, rfl⟩ := Option.map_eq_some_iff.mp h
  have hnoted : Switching s (s.noted strm rate bw list) [] := .nil rfl rfl
  dsimp only
  split
  · obtain ⟨new, hnew⟩ := probe_switching n (s.noted strm rate bw list) .recv
    obtain ⟨new', hnew'⟩ := probe_switching n (probe n (s.noted strm rate bw list) .recv) .send
    exact ⟨_, hnoted.trans (hnew.trans hnew')⟩
  · exact ⟨_, hnoted⟩

/-- The loaders after switches that name no controller twice. -/
theorem loadAll_apply (libbpf : Controller → Outcome) {loaders : Controller → Loader}
    {switches : List (Option Controller)} {ctl : Controller} (honce : switches.count (some ctl) ≤ 1) :
    loadAll libbpf loaders switches ctl =
      if some ctl ∈ switches then ctl.load (libbpf ctl) (loaders ctl) else loaders ctl := by
  induction switches generalizing loaders with
  | nil => rfl
  | cons next switches ih =>
    cases next with
    | none => simpa [loadAll] using ih (by simpa using honce)
    | some ctl' =>
      by_cases hsame : ctl' = ctl
      · subst hsame
        have hrest : some ctl' ∉ switches := by
          rw [List.count_cons_self] at honce
          exact List.count_eq_zero.mp (by omega)
        rw [loadAll, ih (by rw [List.count_eq_zero.mpr hrest]; exact Nat.zero_le 1), if_neg hrest,
          Function.update_self, if_pos List.mem_cons_self]
      · have hne : some ctl ≠ some ctl' := fun h => hsame (Option.some.inj h).symm
        rw [List.count_cons_of_ne hne.symm] at honce
        rw [loadAll, ih honce, Function.update_of_ne (Ne.symm hsame)]
        simp [hne]

/-! ## The calls of a loader -/

/-- The calls that an event makes to the loader of a controller. -/
def callsIn (ctl : Controller) : Transition (Process α R) (ProcessEvent α R) → List Call
  | (s, .setController o, _) => if s.env.loadBpfcc = some ctl then [.load o] else []
  | (_, .notConnected, _) => []
  | (s, .rate _ _ _ libbpf, s') =>
    if some ctl ∈ s'.side.switches.drop s.side.switches.length then [.load (libbpf ctl)] else []
  | (s, .release, _) => if s.env.unloadBpfcc = some ctl then [.unload] else []

/-- The calls to the loader of a controller so far. -/
def noteCalls (ctl : Controller) (calls : List Call) (t : Transition (Process α R) (ProcessEvent α R)) : List Call :=
  calls ++ callsIn ctl t

omit [DecidableEq α] [LinearOrder R] in
theorem Switching.new_eq {s s' : Analyzer α R} {new : List (Option Controller)} (h : Switching s s' new) :
    s'.switches.drop s.switches.length = new := by
  rw [h.switches, List.drop_left]

/-- An event calls the loader of a controller as noted. -/
theorem step_loaders {n : ℕ} {s s' : Process α R} {e : ProcessEvent α R} (h : s.step n e = some s') (ctl : Controller) :
    s'.env = s.env ∧ s'.loaders ctl = (callsIn ctl (s, e, s')).foldl (call ctl) (s.loaders ctl) := by
  cases e with
  | setController o =>
    rw [Process.step] at h
    split at h
    · have honce : [s.env.loadBpfcc].count (some ctl) ≤ 1 := List.count_le_length
      have hcalls : loadAll (fun _ => o) s.loaders [s.env.loadBpfcc] ctl =
          (callsIn ctl (s, .setController o, s')).foldl (call ctl) (s.loaders ctl) := by
        rw [loadAll_apply (fun _ => o) honce, callsIn]
        by_cases hctl : s.env.loadBpfcc = some ctl
        · rw [if_pos hctl, if_pos (List.mem_singleton.mpr hctl.symm)]
          rfl
        · rw [if_neg hctl, if_neg fun hmem => hctl (List.mem_singleton.mp hmem).symm]
          rfl
      rcases hname : s.env.bpfcc with - | name <;> rw [hname] at h <;> cases h <;> exact ⟨rfl, hcalls⟩
    · cases h
  | notConnected =>
    rw [Process.step] at h
    split at h
    · cases h
      exact ⟨rfl, rfl⟩
    · cases h
  | rate strm rate bw libbpf =>
    rw [Process.step] at h
    split at h
    · obtain ⟨side, hside, rfl⟩ := Option.map_eq_some_iff.mp h
      obtain ⟨new, hnew⟩ := appendRate_switched hside
      refine ⟨rfl, ?_⟩
      dsimp only
      rw [callsIn, hnew.new_eq, loadAll_apply libbpf (hnew.once ctl)]
      split <;> rfl
    · cases h
  | release =>
    rw [Process.step] at h
    split at h
    · cases h
    · cases h
      refine ⟨rfl, ?_⟩
      rw [callsIn]
      cases hunload : s.env.unloadBpfcc with
      | none => rfl
      | some ctl' =>
        by_cases hsame : ctl' = ctl
        · subst hsame
          simp only [Function.update_self, if_true]
          rfl
        · rw [if_neg (fun heq => hsame (Option.some.inj heq))]
          exact Function.update_of_ne (Ne.symm hsame) _ _

/-- At most one load, then unloads. -/
def shapeCalls (o : Option Outcome) (k : ℕ) : List Call :=
  (o.map Call.load).toList ++ List.replicate k .unload

/-- When a controller is loaded or unloaded: not before the start, with its flag set while the process serves, and
unloaded only by `release`. -/
structure Shape (ctl : Controller) (s : Process α R) (o : Option Outcome) (k : ℕ) : Prop where
  started : s.stage = .starting → o = none
  serving : s.stage = .serving → o ≠ none → s.side.flags.has ctl = true
  unloaded : 0 < k → s.stage = .released ∧ s.env.unloadBpfcc = some ctl

omit [DecidableEq α] [LinearOrder R] in
theorem Shape.not_unloaded {ctl : Controller} {s : Process α R} {o : Option Outcome} {k : ℕ} (h : Shape ctl s o k)
    (hstage : s.stage ≠ .released) : k = 0 := by
  by_contra hk
  exact hstage (h.unloaded (Nat.pos_of_ne_zero hk)).1

/-- **One event** keeps the calls in shape. -/
theorem step_shape {n : ℕ} {s s' : Process α R} {e : ProcessEvent α R} {ctl : Controller} {o : Option Outcome} {k : ℕ}
    (hflags : s.env.loadBpfcc = some ctl → s.env.flags.has ctl = true) (hs : Shape ctl s o k)
    (h : s.step n e = some s') :
    ∃ o' k', shapeCalls o k ++ callsIn ctl (s, e, s') = shapeCalls o' k' ∧ Shape ctl s' o' k' := by
  cases e with
  | setController out =>
    rw [Process.step] at h
    split at h
    · rename_i hstage
      obtain rfl : k = 0 := hs.not_unloaded (by rw [hstage]; decide)
      obtain rfl : o = none := hs.started hstage
      have hnext : s'.stage ≠ .starting ∧ (s'.stage = .serving → s'.side.flags = s.env.flags) := by
        rcases hname : s.env.bpfcc with - | name <;> rw [hname] at h <;> cases h
        · exact ⟨fun hstart => (by cases hstart), fun hstage => (by cases hstage)⟩
        · exact ⟨fun hstart => (by cases hstart), fun _ => rfl⟩
      rw [callsIn]
      by_cases hload : s.env.loadBpfcc = some ctl
      · rw [if_pos hload]
        refine ⟨some out, 0, rfl, fun hstart => absurd hstart hnext.1, fun hserve _ => ?_,
          fun hk => absurd hk (lt_irrefl 0)⟩
        rw [hnext.2 hserve]
        exact hflags hload
      · rw [if_neg hload]
        exact ⟨none, 0, rfl, fun _ => rfl, fun _ hne => absurd rfl hne, fun hk => absurd hk (lt_irrefl 0)⟩
    · cases h
  | notConnected =>
    rw [Process.step] at h
    split at h
    · rename_i hstage
      obtain rfl : k = 0 := hs.not_unloaded (by rw [hstage]; decide)
      obtain rfl : o = none := hs.started hstage
      cases h
      exact ⟨none, 0, rfl, fun _ => rfl, fun _ hne => absurd rfl hne, fun hk => absurd hk (lt_irrefl 0)⟩
    · cases h
  | rate strm rate bw libbpf =>
    rw [Process.step] at h
    split at h
    · rename_i hstage
      obtain rfl : k = 0 := hs.not_unloaded (by rw [hstage]; decide)
      obtain ⟨side, hside, rfl⟩ := Option.map_eq_some_iff.mp h
      obtain ⟨new, hnew⟩ := appendRate_switched hside
      rw [callsIn, hnew.new_eq]
      by_cases hmem : some ctl ∈ new
      · obtain rfl : o = none := by
          by_contra hne
          have hon := hs.serving hstage hne
          rw [hnew.wasOff ctl hmem] at hon
          cases hon
        rw [if_pos hmem]
        exact ⟨some (libbpf ctl), 0, rfl, fun hstart => (by cases hstage.symm.trans hstart),
          fun _ _ => (hnew.isOn ctl).mpr (.inr hmem), fun hk => absurd hk (lt_irrefl 0)⟩
      · rw [if_neg hmem]
        exact ⟨o, 0, List.append_nil _, fun hstart => (by cases hstage.symm.trans hstart),
          fun _ hne => (hnew.isOn ctl).mpr (.inl (hs.serving hstage hne)), fun hk => absurd hk (lt_irrefl 0)⟩
    · cases h
  | release =>
    rw [Process.step] at h
    split at h
    · cases h
    · cases h
      rw [callsIn]
      by_cases hunload : s.env.unloadBpfcc = some ctl
      · rw [if_pos hunload]
        refine ⟨o, k + 1, ?_, fun hstart => (by cases hstart), fun hserve => (by cases hserve), fun _ => ⟨rfl, hunload⟩⟩
        rw [shapeCalls, shapeCalls, List.replicate_succ', List.append_assoc]
      · rw [if_neg hunload]
        exact ⟨o, k, List.append_nil _, fun hstart => (by cases hstart), fun hserve => (by cases hserve),
          fun hk => ⟨rfl, (hs.unloaded hk).2⟩⟩

/-! ## All runs -/

/-- The environments that the command lines of the server and the client lead to. -/
def FromCommandLine (env : Env) : Prop :=
  ∃ args, serverArgs args = .ok env ∨ ∃ client, clientArgs args = .ok client ∧ client.toEnv = env

/-- The flag of the controller that is loaded is set. -/
theorem FromCommandLine.flags {env : Env} (h : FromCommandLine env) {ctl : Controller}
    (hload : env.loadBpfcc = some ctl) : env.flags.has ctl = true := by
  have hreads : ∃ args, Reads args env := by
    obtain ⟨args, hargs | ⟨client, hargs, rfl⟩⟩ := h
    · exact ⟨args, (serverArgs_reads hargs).2⟩
    · exact ⟨args, (clientArgs_reads hargs).shared⟩
  obtain ⟨args, hreads⟩ := hreads
  exact (hreads.flags ctl).mpr (mem_of_last ((hreads.load ctl).mp hload))

/-- The runs of a process with a command line. -/
abbrev ProcessRun (n : ℕ) (heads : Strm → α) (links : LinkedList.Links α) (bw : α → R) (env : Env)
    (tr : List (Transition (Process α R) (ProcessEvent α R))) (s : Process α R) : Prop :=
  Trace (fun s e s' => s.step n e = some s') (Process.start heads links bw env) tr s

variable {n : ℕ} {heads : Strm → α} {links : LinkedList.Links α} {bw : α → R} {env : Env}
  {tr : List (Transition (Process α R) (ProcessEvent α R))} {s : Process α R}

theorem run_shape (henv : FromCommandLine env) (hrun : ProcessRun n heads links bw env tr s) (ctl : Controller) :
    s.env = env ∧ s.loaders ctl = Libcc.after ctl (history (noteCalls ctl) [] tr) ∧
      ∃ o k, history (noteCalls ctl) [] tr = shapeCalls o k ∧ Shape ctl s o k := by
  apply hrun.history_invariant (J := fun calls s => s.env = env ∧ s.loaders ctl = Libcc.after ctl calls ∧
    ∃ o k, calls = shapeCalls o k ∧ Shape ctl s o k)
  · rintro calls s e s' ⟨rfl, hloader, o, k, rfl, hshape⟩ hstep
    obtain ⟨henv', hloader'⟩ := step_loaders hstep ctl
    refine ⟨henv', ?_, step_shape henv.flags hshape hstep⟩
    rw [hloader', hloader, noteCalls, Libcc.after, Libcc.after, List.foldl_append]
  · exact ⟨rfl, rfl, none, 0, rfl, fun _ => rfl, fun _ hne => absurd rfl hne, fun hk => absurd hk (lt_irrefl 0)⟩

/-- **No controller is loaded twice.** In every run of a process, whatever rates come in, the loader of each controller
sees at most one load, and after it only unloads, and these only if it is the controller of the command line. -/
theorem loaders_called (henv : FromCommandLine env) (hrun : ProcessRun n heads links bw env tr s) (ctl : Controller) :
    s.loaders ctl = Libcc.after ctl (history (noteCalls ctl) [] tr) ∧
      ∃ o k, history (noteCalls ctl) [] tr = shapeCalls o k ∧ (0 < k → env.unloadBpfcc = some ctl) := by
  obtain ⟨rfl, hloader, o, k, hcalls, hshape⟩ := run_shape henv hrun ctl
  exact ⟨hloader, o, k, hcalls, fun hk => (hshape.unloaded hk).2⟩

/-- A server with Reno and the analyzer. -/
def renoServer : Env :=
  (serverArgs [.opt 'c' (Text.bytes "bpf_reno"), .opt 'b' []]).toOption.getD .zero

theorem renoServer_fromCommandLine : FromCommandLine renoServer := by
  have hread : serverArgs [.opt 'c' (Text.bytes "bpf_reno"), .opt 'b' []] = .ok renoServer := by decide
  exact ⟨_, .inl hread⟩

/-- A controller is loaded and attached. -/
def loadsFine : Outcome :=
  ⟨true, 0, true⟩

/-- Its rate of receipt falls from 5 to 4, and a signal ends it. -/
def fallingRate : List (ProcessEvent ℕ ℕ) :=
  [.setController loadsFine, .rate .recv 2 5 fun _ => loadsFine, .rate .recv 3 4 fun _ => loadsFine, .release]

/-- Reno and Cubic are loaded, and Reno is unloaded. -/
theorem loaders_called_falling :
    let heads : Strm → ℕ := fun strm => if strm = .recv then 0 else 1
    ∃ tr s, ProcessRun 4 heads ⟨fun _ => none, fun _ => none⟩ (fun _ => 0) renoServer tr s ∧
      s.loaders .reno = Libcc.after .reno [.load loadsFine, .unload] ∧
      s.loaders .cubic = Libcc.after .cubic [.load loadsFine] := by
  intro heads
  have hrun : (transitions (Process.step 4) (Process.start heads ⟨fun _ => none, fun _ => none⟩ (fun _ => 0) renoServer)
      fallingRate).map (fun p => (history (noteCalls .reno) [] p.1, history (noteCalls .cubic) [] p.1)) =
      some ([.load loadsFine, .unload], [.load loadsFine]) := by decide +kernel
  obtain ⟨⟨tr, s⟩, htr, hcalls⟩ := Option.map_eq_some_iff.mp hrun
  obtain ⟨hreno, hcubic⟩ := Prod.mk.inj hcalls
  have htrace := Trace.of_transitions htr
  refine ⟨tr, s, htrace, ?_, ?_⟩
  · rw [← hreno]
    exact (loaders_called renoServer_fromCommandLine htrace .reno).1
  · rw [← hcubic]
    exact (loaders_called renoServer_fromCommandLine htrace .cubic).1

/-! ## The life cycle in a run -/

/-- A load whose outcome the code can deal with. -/
def LoadOk (o : Outcome) : Prop :=
  o.opens = true → o.load < 0 ∨ o.load = 0 ∧ o.attaches = true

/-- Unloads are in order as long as there is no object, and for an object that is there at most one of them is. -/
theorem unloads_ok_iff (st : Status) (k : ℕ) :
    st.CallsOk (List.replicate k .unload) ↔ st = .empty ∨ k = 0 ∨ st = .live ∧ k = 1 := by
  induction k generalizing st with
  | zero => exact iff_of_true trivial (.inr (.inl rfl))
  | succ k ih =>
    rw [List.replicate_succ, Status.CallsOk, ih]
    cases st with
    | empty => exact iff_of_true ⟨by decide, .inl rfl⟩ (.inl rfl)
    | live =>
      have hnext : Status.live.next .unload = .dangling := rfl
      rw [hnext]
      simp [Status.Allows]
    | dangling => simp [Status.Allows]

/-- A load, when there is no object, is in order for the outcomes that the code can deal with. -/
theorem load_ok_iff (out : Outcome) : Status.empty.Allows (.load out) ↔ LoadOk out := by
  simp [Status.Allows, LoadOk]

/-- **The life cycle for calls in shape.** -/
theorem shape_lifeCycle (ctl : Controller) (o : Option Outcome) (k : ℕ) :
    LifeCycle (Libcc.after ctl (shapeCalls o k)).log ↔
      (∀ out, o = some out → LoadOk out) ∧ (k ≤ 1 ∨ ∀ out, o = some out → out.opens = false) := by
  rw [lifeCycle_iff, kept_callOk_iff]
  cases o with
  | none => simpa [shapeCalls] using (unloads_ok_iff .empty k).mpr (.inl rfl)
  | some out =>
    show Status.empty.Allows (.load out) ∧ (Status.empty.next (.load out)).CallsOk (List.replicate k .unload) ↔ _
    rw [load_ok_iff, unloads_ok_iff]
    simp only [Option.some.injEq, forall_eq']
    refine and_congr_right fun hload => ?_
    by_cases hopens : out.opens = true
    · have hlive : Status.empty.next (.load out) = .live := by
        have hattached : ¬ (out.load = 0 ∧ out.attaches = false) := by
          rintro ⟨hzero, hfails⟩
          rcases hload hopens with hneg | ⟨-, hattaches⟩
          · omega
          · cases hattaches.symm.trans hfails
        rw [Status.next, if_pos hopens, if_neg hattached]
      rw [hlive, hopens]
      constructor
      · rintro (hempty | hzero | ⟨-, hone⟩)
        · cases hempty
        · exact .inl (by omega)
        · exact .inl (by omega)
      · rintro (hle | hno)
        · rcases Nat.le_one_iff_eq_zero_or_eq_one.mp hle with hzero | hone
          · exact .inr (.inl hzero)
          · exact .inr (.inr ⟨rfl, hone⟩)
        · cases hno
    · have hempty : Status.empty.next (.load out) = .empty := if_neg hopens
      exact iff_of_true (.inl hempty) (.inr (by simpa using hopens))

theorem load_mem_shapeCalls {o : Option Outcome} {k : ℕ} {out : Outcome} :
    .load out ∈ shapeCalls o k ↔ o = some out := by
  simp [shapeCalls, eq_comm]

theorem count_unload_shapeCalls (o : Option Outcome) (k : ℕ) : (shapeCalls o k).count .unload = k := by
  cases o <;> simp [shapeCalls]

/-- **When the life cycle of the objects is kept in a run.** In every run of a process the objects of a controller are
used as they should be exactly when the outcome of its load is one that the code can deal with, and `release` does not
run twice while there is an object. -/
theorem loaders_lifeCycle_iff (henv : FromCommandLine env) (hrun : ProcessRun n heads links bw env tr s)
    (ctl : Controller) :
    let calls := history (noteCalls ctl) [] tr
    LifeCycle (s.loaders ctl).log ↔
      (∀ out, .load out ∈ calls → LoadOk out) ∧
        (calls.count .unload ≤ 1 ∨ ∀ out, .load out ∈ calls → out.opens = false) := by
  intro calls
  obtain ⟨-, hloader, o, k, hcalls, -⟩ := run_shape henv hrun ctl
  have hshape : calls = shapeCalls o k := hcalls
  rw [hloader, hcalls, hshape, shape_lifeCycle, count_unload_shapeCalls]
  simp only [load_mem_shapeCalls]

/-- The signal is followed by another one, and the object of Reno is destroyed twice. -/
theorem loaders_lifeCycle_two_signals :
    let heads : Strm → ℕ := fun strm => if strm = .recv then 0 else 1
    ∃ tr s, ProcessRun 4 heads ⟨fun _ => none, fun _ => none⟩ (fun _ => 0) renoServer tr s ∧
      ¬ LifeCycle (s.loaders .reno).log ∧ LifeCycle (s.loaders .cubic).log := by
  intro heads
  have hrun : (transitions (Process.step 4) (Process.start heads ⟨fun _ => none, fun _ => none⟩ (fun _ => 0) renoServer)
      (fallingRate ++ [.release])).map
        (fun p => (history (noteCalls .reno) [] p.1, history (noteCalls .cubic) [] p.1)) =
      some ([.load loadsFine, .unload, .unload], [.load loadsFine]) := by decide +kernel
  obtain ⟨⟨tr, s⟩, htr, hcalls⟩ := Option.map_eq_some_iff.mp hrun
  obtain ⟨hreno, hcubic⟩ := Prod.mk.inj hcalls
  have htrace := Trace.of_transitions htr
  refine ⟨tr, s, htrace, ?_, ?_⟩
  · intro hlife
    rcases ((loaders_lifeCycle_iff renoServer_fromCommandLine htrace .reno).mp hlife).2 with hcount | hopens
    · rw [hreno] at hcount
      exact absurd hcount (by decide)
    · cases hopens loadsFine (by rw [hreno]; exact List.mem_cons_self)
  · refine (loaders_lifeCycle_iff renoServer_fromCommandLine htrace .cubic).mpr ?_
    rw [hcubic]
    refine ⟨fun out hmem hopens => ?_, .inl (by decide)⟩
    obtain rfl : out = loadsFine := by simpa using hmem
    exact .inr ⟨rfl, rfl⟩

end CoupledCC.Transfer
