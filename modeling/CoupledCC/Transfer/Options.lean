import CoupledCC.Lib.Argp
import CoupledCC.Transfer.Analyzer

/-!
# The command lines of client and server

`parse_arg` of `server.c` and `client.c`, with the buffer for the command that `system` runs.

- `commandLine_read`: which command lines are accepted, and what the environment holds after them; no command overflows
  its buffer;
- `ports_read`: which numbers are accepted as a port.
-/

namespace CoupledCC.Transfer

open Bytes Text Argp Libcc

/-! ## The code -/

/-- `struct env` of the server. -/
structure Env where
  serverAddr : Option (List U8)
  port : Option (List U8)
  port2 : Option (List U8)
  sendLogFile : Option (List U8)
  recvLogFile : Option (List U8)
  loadBpfcc : Option Controller
  unloadBpfcc : Option Controller
  bandwidth : Bool
  bpfcc : Option (List U8)
  sysctlCmd : Buffer 64
  flags : Flags
deriving Repr, DecidableEq

/-- `struct env` of the client. -/
structure ClientEnv extends Env where
  srcFile : Option (List U8)
  dstFile : Option (List U8)
  fastTransfer : Bool
deriving Repr, DecidableEq

/-- Static memory is zero. -/
def Env.zero : Env :=
  ⟨none, none, none, none, none, none, none, false, none, .zero 64, ⟨false, false, false⟩⟩

def ClientEnv.zero : ClientEnv :=
  ⟨.zero, none, none, false⟩

def serverOpts : List Char := ['s', 'p', 'P', 'S', 'R', 'c', 'b']

def clientOpts : List Char := ['s', 'p', 'P', 'i', 'o', 'f', 'b', 'S', 'R', 'c']

/-- A port that is not refused. -/
def PortOk (arg : List U8) : Prop :=
  ¬ (arg.length > 5 ∨ atoi arg = 0)

instance : DecidablePred PortOk := fun arg => inferInstanceAs (Decidable (¬ (arg.length > 5 ∨ atoi arg = 0)))

/-- The format of the command, up to the name of the controller. -/
def sysctlText : List U8 := bytes "sysctl -w net.ipv4.tcp_congestion_control="

/-- What all branches of the option `-c` do with a name that is known. -/
def Env.select (env : Env) (arg : List U8) (ctl : Option Controller) (flags : Flags) : Except Stop Env :=
  match sprintf env.sysctlCmd (sysctlText ++ arg) with
  | none => .error .fault
  | some cmd =>
    .ok { env with loadBpfcc := ctl, unloadBpfcc := ctl, bpfcc := some arg, sysctlCmd := cmd, flags := flags }

/-- The option `-c`. -/
def parseBpfcc (env : Env) (arg : List U8) : Except Stop Env :=
  if arg = bytes "bpf_reno" then env.select arg (some .reno) { env.flags with bpfReno := true }
  else if arg = bytes "bpf_vegas" then env.select arg (some .vegas) { env.flags with bpfVegas := true }
  else if arg = bytes "bpf_cubic" then env.select arg (some .cubic) { env.flags with bpfCubic := true }
  else if arg = bytes "cubic" then env.select arg none env.flags
  else if arg = bytes "reno" then env.select arg none env.flags
  else if arg = bytes "vegas" then env.select arg none env.flags
  else .error .usage

/-- `parse_arg` of the server. -/
def parseArg (env : Env) : Arg → Except Stop Env
  | .opt 'p' arg => if PortOk arg then .ok { env with port := some arg } else .error .usage
  | .opt 'P' arg => if PortOk arg then .ok { env with port2 := some arg } else .error .usage
  | .opt 'c' arg => parseBpfcc env arg
  | .opt 's' arg => .ok { env with serverAddr := some arg }
  | .opt 'S' arg => .ok { env with sendLogFile := some arg }
  | .opt 'R' arg => .ok { env with recvLogFile := some arg }
  | .opt 'b' _ => .ok { env with bandwidth := true }
  | .arg _ => .error .usage
  | .opt _ _ => .error .unknown

/-- `parse_arg` of the client: that of the server with three options more. -/
def parseClientArg (env : ClientEnv) : Arg → Except Stop ClientEnv
  | .opt 'i' arg => .ok { env with srcFile := some arg }
  | .opt 'o' arg => .ok { env with dstFile := some arg }
  | .opt 'f' _ => .ok { env with fastTransfer := true }
  | a => (parseArg env.toEnv a).map fun shared => { env with toEnv := shared }

/-- The environment of a server. -/
def serverArgs (args : List Arg) : Except Stop Env :=
  parse serverOpts parseArg .zero args

/-- The environment of a client. -/
def clientArgs (args : List Arg) : Except Stop ClientEnv :=
  parse clientOpts parseClientArg .zero args

/-! ## What a command line says -/

/-- The argument of `-c` that loads a controller. -/
def bpfName : Controller → List U8
  | .cubic => bytes "bpf_cubic"
  | .reno => bytes "bpf_reno"
  | .vegas => bytes "bpf_vegas"

/-- The arguments of `-c` that are known. -/
def supported : List (List U8) :=
  [bytes "bpf_reno", bytes "bpf_vegas", bytes "bpf_cubic", bytes "cubic", bytes "reno", bytes "vegas"]

/-- The arguments that are accepted. -/
def ArgOk : Arg → Prop
  | .opt 'p' arg | .opt 'P' arg => PortOk arg
  | .opt 'c' arg => arg ∈ supported
  | .opt _ _ => True
  | .arg _ => False

/-- Whether a controller was switched on. -/
def Flags.has (flags : Flags) : Controller → Bool
  | .cubic => flags.bpfCubic
  | .reno => flags.bpfReno
  | .vegas => flags.bpfVegas

/-- **What a command line says**: of each option its last value, but of `-c` every one for the flags. The command in the
buffer is the one for the last value of `-c`. -/
structure Reads (args : List Arg) (env : Env) : Prop where
  serverAddr : env.serverAddr = last 's' args
  port : env.port = last 'p' args
  port2 : env.port2 = last 'P' args
  sendLogFile : env.sendLogFile = last 'S' args
  recvLogFile : env.recvLogFile = last 'R' args
  bandwidth : env.bandwidth = (last 'b' args).isSome
  bpfcc : env.bpfcc = last 'c' args
  command : cstr env.sysctlCmd.bytes = ((last 'c' args).map (sysctlText ++ ·)).getD []
  load : ∀ ctl, env.loadBpfcc = some ctl ↔ last 'c' args = some (bpfName ctl)
  unload : env.unloadBpfcc = env.loadBpfcc
  flags : ∀ ctl, env.flags.has ctl = true ↔ .opt 'c' (bpfName ctl) ∈ args

theorem reads_nil : Reads [] .zero where
  serverAddr := rfl
  port := rfl
  port2 := rfl
  sendLogFile := rfl
  recvLogFile := rfl
  bandwidth := rfl
  bpfcc := rfl
  command := cstr_zero 64
  load := fun ctl => ⟨fun h => (by cases h), fun h => (by cases h)⟩
  unload := rfl
  flags := fun ctl => ⟨fun h => (by cases ctl <;> cases h), fun h => (by cases h)⟩

/-! ## One argument -/

/-- A known name fits into the buffer with its command. -/
theorem supported_fits {arg : List U8} (h : arg ∈ supported) :
    0 ∉ sysctlText ++ arg ∧ (sysctlText ++ arg).length < 64 := by
  revert arg
  decide

theorem bpfName_inj {c c' : Controller} : bpfName c = bpfName c' ↔ c = c' := by
  cases c <;> cases c' <;> decide

/-- Which controller a known name selects, and which flags are set then. -/
theorem parseBpfcc_eq (env : Env) {arg : List U8} (h : arg ∈ supported) :
    ∃ ctl flags, parseBpfcc env arg = env.select arg ctl flags ∧ (∀ c, ctl = some c ↔ arg = bpfName c) ∧
      ∀ c, flags.has c = true ↔ env.flags.has c = true ∨ arg = bpfName c := by
  have hsome (c' : Controller) : ∀ c, some c' = some c ↔ bpfName c' = bpfName c := fun c => by
    rw [Option.some_inj, bpfName_inj]
  have hplain {name : List U8} (hne : ∀ c, name ≠ bpfName c) :
      (∀ c, none = some c ↔ name = bpfName c) ∧
        ∀ c, env.flags.has c = true ↔ env.flags.has c = true ∨ name = bpfName c :=
    ⟨fun c => ⟨fun h => (by cases h), fun h => absurd h (hne c)⟩, fun c => (or_iff_left (hne c)).symm⟩
  simp only [supported, List.mem_cons, List.not_mem_nil, or_false] at h
  unfold parseBpfcc
  rcases h with rfl | rfl | rfl | rfl | rfl | rfl
  · refine ⟨_, _, if_pos rfl, hsome .reno, fun c => ?_⟩
    show _ ↔ _ ∨ bpfName .reno = bpfName c
    cases c <;> simp [Flags.has, bpfName_inj]
  · rw [if_neg (by decide)]
    refine ⟨_, _, if_pos rfl, hsome .vegas, fun c => ?_⟩
    show _ ↔ _ ∨ bpfName .vegas = bpfName c
    cases c <;> simp [Flags.has, bpfName_inj]
  · rw [if_neg (by decide), if_neg (by decide)]
    refine ⟨_, _, if_pos rfl, hsome .cubic, fun c => ?_⟩
    show _ ↔ _ ∨ bpfName .cubic = bpfName c
    cases c <;> simp [Flags.has, bpfName_inj]
  · rw [if_neg (by decide), if_neg (by decide), if_neg (by decide)]
    exact ⟨_, _, if_pos rfl, hplain fun c => by cases c <;> decide⟩
  · rw [if_neg (by decide), if_neg (by decide), if_neg (by decide), if_neg (by decide)]
    exact ⟨_, _, if_pos rfl, hplain fun c => by cases c <;> decide⟩
  · rw [if_neg (by decide), if_neg (by decide), if_neg (by decide), if_neg (by decide), if_neg (by decide)]
    exact ⟨_, _, if_pos rfl, hplain fun c => by cases c <;> decide⟩

theorem parseBpfcc_refuses (env : Env) {arg : List U8} (h : arg ∉ supported) : parseBpfcc env arg = .error .usage := by
  simp only [supported, List.mem_cons, List.not_mem_nil, or_false, not_or] at h
  obtain ⟨h₁, h₂, h₃, h₄, h₅, h₆⟩ := h
  rw [parseBpfcc, if_neg h₁, if_neg h₂, if_neg h₃, if_neg h₄, if_neg h₅, if_neg h₆]

/-- The option `-c` with a known name. -/
theorem Reads.bpfccOption {args : List Arg} {env : Env} (h : Reads args env) {arg : List U8} (harg : arg ∈ supported) :
    ∃ env', parseBpfcc env arg = .ok env' ∧ Reads (args ++ [.opt 'c' arg]) env' := by
  obtain ⟨ctl, flags, hparse, hctl, hflags⟩ := parseBpfcc_eq env harg
  obtain ⟨hnul, hfit⟩ := supported_fits harg
  obtain ⟨cmd, hsprintf, hcmd⟩ := sprintf_eq_some env.sysctlCmd hnul hfit
  refine ⟨_, hparse.trans (by rw [Env.select, hsprintf]), ?_⟩
  exact
    { serverAddr := by simpa using h.serverAddr
      port := by simpa using h.port
      port2 := by simpa using h.port2
      sendLogFile := by simpa using h.sendLogFile
      recvLogFile := by simpa using h.recvLogFile
      bandwidth := by simpa using h.bandwidth
      bpfcc := by simp
      command := by simpa using hcmd
      load := fun c => by simpa using hctl c
      unload := rfl
      flags := fun c => by simp [hflags c, h.flags c, eq_comm] }

/-- Any other option of the server. -/
theorem Reads.plainOption {args : List Arg} {env : Env} (h : Reads args env) {key : Char} {arg : List U8}
    (hkey : key ∈ serverOpts) (hne : key ≠ 'c') (hok : ArgOk (.opt key arg)) :
    ∃ env', parseArg env (.opt key arg) = .ok env' ∧ Reads (args ++ [.opt key arg]) env' := by
  obtain ⟨h₁, h₂, h₃, h₄, h₅, h₆, h₇, h₈, h₉, h₁₀, h₁₁⟩ := h
  simp only [serverOpts, List.mem_cons, List.not_mem_nil, or_false] at hkey
  rcases hkey with rfl | rfl | rfl | rfl | rfl | rfl | rfl
  · refine ⟨_, rfl, ?_⟩
    constructor <;> simp [*]
  · refine ⟨_, if_pos hok, ?_⟩
    constructor <;> simp [*]
  · refine ⟨_, if_pos hok, ?_⟩
    constructor <;> simp [*]
  · refine ⟨_, rfl, ?_⟩
    constructor <;> simp [*]
  · refine ⟨_, rfl, ?_⟩
    constructor <;> simp [*]
  · exact absurd rfl hne
  · refine ⟨_, rfl, ?_⟩
    constructor <;> simp [*]

/-- An argument that is accepted. -/
theorem Reads.next {args : List Arg} {env : Env} (h : Reads args env) {a : Arg} (hknown : a.Known serverOpts)
    (hok : ArgOk a) : ∃ env', parseArg env a = .ok env' ∧ Reads (args ++ [a]) env' := by
  cases a with
  | arg value => exact hok.elim
  | opt key value =>
    by_cases hkey : key = 'c'
    · subst hkey
      exact h.bpfccOption hok
    · exact h.plainOption hknown hkey hok

/-- An argument that is refused. -/
theorem parseArg_refuses (env : Env) {a : Arg} (hknown : a.Known serverOpts) (hbad : ¬ ArgOk a) :
    parseArg env a = .error .usage := by
  cases a with
  | arg value => rfl
  | opt key value =>
    simp only [Arg.Known, serverOpts, List.mem_cons, List.not_mem_nil, or_false] at hknown
    rcases hknown with rfl | rfl | rfl | rfl | rfl | rfl | rfl
    · exact absurd trivial hbad
    · exact if_neg hbad
    · exact if_neg hbad
    · exact absurd trivial hbad
    · exact absurd trivial hbad
    · exact parseBpfcc_refuses env hbad
    · exact absurd trivial hbad

/-! ## The client -/

/-- What a command line of the client says. -/
structure ClientReads (args : List Arg) (env : ClientEnv) : Prop where
  shared : Reads args env.toEnv
  srcFile : env.srcFile = last 'i' args
  dstFile : env.dstFile = last 'o' args
  fastTransfer : env.fastTransfer = (last 'f' args).isSome

/-- An option that the server does not have says nothing about the rest. -/
theorem Reads.skip {args : List Arg} {env : Env} (h : Reads args env) {key : Char} (hkey : key ∉ serverOpts)
    (arg : List U8) : Reads (args ++ [.opt key arg]) env := by
  obtain ⟨h₁, h₂, h₃, h₄, h₅, h₆, h₇, h₈, h₉, h₁₀, h₁₁⟩ := h
  simp only [serverOpts, List.mem_cons, List.not_mem_nil, or_false, not_or] at hkey
  obtain ⟨hs, hp, hP, hS, hR, hc, hb⟩ := hkey
  constructor <;> simp [*, Ne.symm hc]

/-- The options that both have are handed on. -/
theorem parseClientArg_shared (env : ClientEnv) {key : Char} (hkey : key ∈ serverOpts) (arg : List U8) :
    parseClientArg env (.opt key arg) = (parseArg env.toEnv (.opt key arg)).map fun shared =>
      { env with toEnv := shared } := by
  simp only [serverOpts, List.mem_cons, List.not_mem_nil, or_false] at hkey
  rcases hkey with rfl | rfl | rfl | rfl | rfl | rfl | rfl <;> rfl

theorem mem_clientOpts {key : Char} (h : key ∈ clientOpts) :
    key ∈ serverOpts ∨ (key = 'i' ∨ key = 'o' ∨ key = 'f') ∧ key ∉ serverOpts := by
  simp only [clientOpts, List.mem_cons, List.not_mem_nil, or_false] at h
  rcases h with rfl | rfl | rfl | rfl | rfl | rfl | rfl | rfl | rfl | rfl <;> decide

theorem ne_of_mem_serverOpts {key : Char} (h : key ∈ serverOpts) : key ≠ 'i' ∧ key ≠ 'o' ∧ key ≠ 'f' := by
  simp only [serverOpts, List.mem_cons, List.not_mem_nil, or_false] at h
  rcases h with rfl | rfl | rfl | rfl | rfl | rfl | rfl <;> decide

theorem ClientReads.next {args : List Arg} {env : ClientEnv} (h : ClientReads args env) {a : Arg}
    (hknown : a.Known clientOpts) (hok : ArgOk a) :
    ∃ env', parseClientArg env a = .ok env' ∧ ClientReads (args ++ [a]) env' := by
  cases a with
  | arg value => exact hok.elim
  | opt key value =>
    obtain ⟨hshared, hsrc, hdst, hfast⟩ := h
    rcases mem_clientOpts hknown with hkey | ⟨hown, hkey⟩
    · have hserver : (Arg.opt key value).Known serverOpts := hkey
      obtain ⟨shared, hparse, hreads⟩ := hshared.next hserver hok
      obtain ⟨hi, ho, hf⟩ := ne_of_mem_serverOpts hkey
      refine ⟨{ env with toEnv := shared }, by rw [parseClientArg_shared env hkey, hparse]; rfl, hreads, ?_, ?_, ?_⟩
      · simpa [hi] using hsrc
      · simpa [ho] using hdst
      · simpa [hf] using hfast
    · have hskip := hshared.skip hkey value
      rcases hown with rfl | rfl | rfl
      · exact ⟨_, rfl, hskip, by simp, by simpa using hdst, by simpa using hfast⟩
      · exact ⟨_, rfl, hskip, by simpa using hsrc, by simp, by simpa using hfast⟩
      · exact ⟨_, rfl, hskip, by simpa using hsrc, by simpa using hdst, by simp⟩

theorem parseClientArg_refuses (env : ClientEnv) {a : Arg} (hknown : a.Known clientOpts) (hbad : ¬ ArgOk a) :
    parseClientArg env a = .error .usage := by
  cases a with
  | arg value => rfl
  | opt key value =>
    rcases mem_clientOpts hknown with hkey | ⟨rfl | rfl | rfl, -⟩
    · have hserver : (Arg.opt key value).Known serverOpts := hkey
      rw [parseClientArg_shared env hkey, parseArg_refuses env.toEnv hserver hbad]
      rfl
    all_goals exact absurd trivial hbad

/-! ## All arguments -/

/-- The arguments that are in order for a table of options. -/
def LineOk (opts : List Char) (args : List Arg) : Prop :=
  ∀ a ∈ args, a.Known opts ∧ ArgOk a

/-- `argp_usage` refuses all that comes to `parse_arg` and is not in order. -/
def refusal : Arg → Stop :=
  fun _ => .usage

theorem clientReads_nil : ClientReads [] .zero :=
  ⟨reads_nil, rfl, rfl, rfl⟩

/-- A command line that the server reads. -/
theorem serverArgs_reads {args : List Arg} {env : Env} (h : serverArgs args = .ok env) :
    LineOk serverOpts args ∧ Reads args env :=
  parse_ok reads_nil (fun _ _ _ h => h.next) parseArg_refuses h

/-- A command line that the client reads. -/
theorem clientArgs_reads {args : List Arg} {env : ClientEnv} (h : clientArgs args = .ok env) : ClientReads args env :=
  (parse_ok clientReads_nil (fun _ _ _ h => h.next) parseClientArg_refuses h).2

/-- The last of some arguments that are in order. -/
theorem LineOk.concat_iff {opts : List Char} {args : List Arg} (h : LineOk opts args) (a : Arg) :
    LineOk opts (args ++ [a]) ↔ a.Known opts ∧ ArgOk a := by
  constructor
  · intro hall
    exact hall a (List.mem_append_right _ List.mem_cons_self)
  · intro ha b hb
    rcases List.mem_append.mp hb with hb | hb
    · exact h b hb
    · rw [List.mem_singleton.mp hb]
      exact ha

/-- A port that is not refused is a number, but the message says 0 to 65535. -/
theorem PortOk.bounds {arg : List U8} (h : PortOk arg) : atoi arg ≠ 0 ∧ -9999 ≤ atoi arg ∧ atoi arg ≤ 99999 := by
  obtain ⟨hlen, hzero⟩ := not_or.mp h
  have hlt := atoi_lt (n := 4) (not_lt.mp hlen)
  norm_num at hlt
  exact ⟨hzero, by omega, by omega⟩

theorem portOk_decimal_iff (n : ℕ) : PortOk (decimal n) ↔ 1 ≤ n ∧ n ≤ 99999 := by
  have hlen := length_decimal_le_iff n (k := 5) (by decide)
  rw [PortOk, atoi_decimal, not_or, not_lt, hlen]
  omega

/-- **Which ports the server takes.** The ports of a command line that is read are numbers from -9999 to 99999 other
than 0, and of the numbers in decimal it takes 1 to 99999. -/
theorem ports_read {args : List Arg} {env : Env} (h : serverArgs args = .ok env) :
    (∀ p, env.port = some p ∨ env.port2 = some p → atoi p ≠ 0 ∧ -9999 ≤ atoi p ∧ atoi p ≤ 99999) ∧
      ∀ n, (∃ env', serverArgs (args ++ [.opt 'p' (decimal n)]) = .ok env') ↔ 1 ≤ n ∧ n ≤ 99999 := by
  obtain ⟨hline, hreads⟩ := serverArgs_reads h
  constructor
  · rintro p (hp | hp)
    · have hmem := mem_of_last (hreads.port.symm.trans hp)
      exact PortOk.bounds (hline _ hmem).2
    · have hmem := mem_of_last (hreads.port2.symm.trans hp)
      exact PortOk.bounds (hline _ hmem).2
  · intro n
    have hknown : (Arg.opt 'p' (decimal n)).Known serverOpts := by
      show 'p' ∈ serverOpts
      decide
    rw [← portOk_decimal_iff]
    constructor
    · rintro ⟨env', henv⟩
      exact ((hline.concat_iff _).mp (serverArgs_reads henv).1).2
    · intro hport
      obtain ⟨env', henv, -⟩ := hreads.next hknown hport
      refine ⟨env', ?_⟩
      rw [serverArgs, parse_concat, ← serverArgs, h, Except.bind]
      rw [if_pos hknown, henv]

/-- The server takes the port 70000. -/
theorem ports_read_large :
    ∃ env, serverArgs [.opt 's' (bytes "localhost"), .opt 'p' (decimal 70000)] = .ok env := by
  have hargs : serverArgs [.opt 's' (bytes "localhost")] =
      .ok { Env.zero with serverAddr := some (bytes "localhost") } := by
    decide
  exact ((ports_read hargs).2 70000).mpr ⟨by decide, by decide⟩

end CoupledCC.Transfer
