import CoupledCC.Lib.Text

/-!
# Command lines

`argp_parse` hands the options of a command line to a parser one by one; the parser writes to its environment. What is
in no table stops the command line before the parser sees it: an option that `getopt` refuses, also for want of its
value, or one that `argp` answers itself (`--help`, `--usage`, `--version`).

- `parse_stops`: what every argument keeps of the arguments before it holds at the end of a command line in order; any
  other one stops at the first argument that is not in order.
-/

namespace Argp

/-- An option with its value, or an argument that is no option (`ARGP_KEY_ARG`). A key that is in no table stands for
all that does not come to the parser. -/
inductive Arg
  | opt (key : Char) (arg : List U8)
  | arg (arg : List U8)
deriving Repr, DecidableEq

/-- How a command line stops: the parser calls `argp_usage` or returns `ARGP_ERR_UNKNOWN`, `argp_parse` exits on its
own, or memory is written that is not the parser's. -/
inductive Stop
  | usage
  | unknown
  | argp
  | fault
deriving Repr, DecidableEq

variable {σ : Type*}

/-- The options that are in the table are handed to the parser, as well as what is no option. -/
def Arg.Known (opts : List Char) : Arg → Prop
  | .opt key _ => key ∈ opts
  | .arg _ => True

instance (opts : List Char) : DecidablePred (Arg.Known opts)
  | .opt key _ => inferInstanceAs (Decidable (key ∈ opts))
  | .arg _ => .isTrue trivial

/-- `argp_parse` with a table of options, for the arguments in the order in which `getopt` finds them. -/
def parse (opts : List Char) (parser : σ → Arg → Except Stop σ) (env : σ) (args : List Arg) : Except Stop σ :=
  args.foldlM (fun env a => if a.Known opts then parser env a else .error .argp) env

/-- The first argument that is not in order, and how it stops the command line: as the parser refuses it, if it comes to
the parser. -/
def StopsAt (opts : List Char) (Ok : Arg → Prop) (refusal : Arg → Stop) (args : List Arg) (stop : Stop) : Prop :=
  ∃ before a after, args = before ++ a :: after ∧ (∀ b ∈ before, b.Known opts ∧ Ok b) ∧ ¬ (a.Known opts ∧ Ok a) ∧
    stop = if a.Known opts then refusal a else .argp

variable {opts : List Char} {parser : σ → Arg → Except Stop σ}

theorem parse_concat (env : σ) (args : List Arg) (a : Arg) :
    parse opts parser env (args ++ [a]) =
      (parse opts parser env args).bind fun env => if a.Known opts then parser env a else .error .argp := by
  rw [parse, List.foldlM_append]
  simp only [List.foldlM_cons, List.foldlM_nil, bind_pure]
  rfl

/-- What stops a command line stops it as well when more comes after it. -/
theorem StopsAt.concat {Ok : Arg → Prop} {refusal : Arg → Stop} {args : List Arg} {stop : Stop}
    (h : StopsAt opts Ok refusal args stop) (b : Arg) : StopsAt opts Ok refusal (args ++ [b]) stop := by
  obtain ⟨before, a, after, rfl, hbefore, hbad, hstop⟩ := h
  exact ⟨before, a, after ++ [b], by simp, hbefore, hbad, hstop⟩

/-- **A command line** is read when each of its arguments is in order, and otherwise stopped by the first that is
not. -/
theorem parse_stops {Ok : Arg → Prop} {I : List Arg → σ → Prop} {refusal : Arg → Stop} {env : σ} (hnil : I [] env)
    (hok : ∀ args env a, I args env → a.Known opts → Ok a → ∃ env', parser env a = .ok env' ∧ I (args ++ [a]) env')
    (hbad : ∀ env a, a.Known opts → ¬ Ok a → parser env a = .error (refusal a)) (args : List Arg) :
    ((∀ a ∈ args, a.Known opts ∧ Ok a) → ∃ env', parse opts parser env args = .ok env' ∧ I args env') ∧
      ((¬ ∀ a ∈ args, a.Known opts ∧ Ok a) →
        ∃ stop, parse opts parser env args = .error stop ∧ StopsAt opts Ok refusal args stop) := by
  induction args using List.reverseRecOn with
  | nil => exact ⟨fun _ => ⟨env, rfl, hnil⟩, fun h => absurd (fun a ha => by cases ha) h⟩
  | append_singleton args a ih =>
    have hsplit : (∀ b ∈ args ++ [a], b.Known opts ∧ Ok b) ↔
        (∀ b ∈ args, b.Known opts ∧ Ok b) ∧ (a.Known opts ∧ Ok a) := by
      simp only [List.mem_append, List.mem_singleton, or_imp, forall_and, forall_eq]
      tauto
    rw [hsplit, parse_concat]
    by_cases hargs : ∀ b ∈ args, b.Known opts ∧ Ok b
    · obtain ⟨env', hparse, hI⟩ := ih.1 hargs
      rw [hparse]
      show (_ → ∃ env'', (if a.Known opts then parser env' a else _) = _ ∧ _) ∧
        (_ → ∃ stop, (if a.Known opts then parser env' a else _) = _ ∧ _)
      by_cases hknown : a.Known opts
      · rw [if_pos hknown]
        refine ⟨fun h => hok args env' a hI hknown h.2.2, fun h => ?_⟩
        have hnot : ¬ Ok a := fun hoka => h ⟨hargs, hknown, hoka⟩
        exact ⟨_, hbad env' a hknown hnot, args, a, [], rfl, hargs, fun h => hnot h.2, (if_pos hknown).symm⟩
      · rw [if_neg hknown]
        refine ⟨fun h => absurd h.2.1 hknown, fun _ => ?_⟩
        exact ⟨_, rfl, args, a, [], rfl, hargs, fun h => hknown h.1, (if_neg hknown).symm⟩
    · obtain ⟨stop, hparse, hstop⟩ := ih.2 hargs
      rw [hparse]
      exact ⟨fun h => absurd h.1 hargs, fun _ => ⟨stop, rfl, hstop.concat a⟩⟩

/-- A command line that is read is in order, and keeps what each of its arguments keeps. -/
theorem parse_ok {Ok : Arg → Prop} {I : List Arg → σ → Prop} {refusal : Arg → Stop} {env env' : σ} (hnil : I [] env)
    (hok : ∀ args env a, I args env → a.Known opts → Ok a → ∃ env', parser env a = .ok env' ∧ I (args ++ [a]) env')
    (hbad : ∀ env a, a.Known opts → ¬ Ok a → parser env a = .error (refusal a)) {args : List Arg}
    (h : parse opts parser env args = .ok env') : (∀ a ∈ args, a.Known opts ∧ Ok a) ∧ I args env' := by
  obtain ⟨hread, hstops⟩ := parse_stops hnil hok hbad args
  by_cases hargs : ∀ a ∈ args, a.Known opts ∧ Ok a
  · obtain ⟨env'', hparse, hI⟩ := hread hargs
    cases h.symm.trans hparse
    exact ⟨hargs, hI⟩
  · obtain ⟨stop, hparse, -⟩ := hstops hargs
    cases h.symm.trans hparse

/-! ## The last value of an option -/

/-- The value an option was given last. -/
def last (key : Char) (args : List Arg) : Option (List U8) :=
  (args.filterMap fun
    | .opt k arg => if k = key then some arg else none
    | .arg _ => none).getLast?

@[simp] theorem last_nil (key : Char) : last key [] = none := rfl

@[simp] theorem last_concat (key : Char) (args : List Arg) (k : Char) (arg : List U8) :
    last key (args ++ [.opt k arg]) = if k = key then some arg else last key args := by
  by_cases hk : k = key <;> simp [last, hk]

theorem mem_of_last {key : Char} {args : List Arg} {arg : List U8} (h : last key args = some arg) :
    .opt key arg ∈ args := by
  obtain ⟨a, hmem, ha⟩ := List.mem_filterMap.mp (List.mem_of_getLast? h)
  cases a with
  | opt k value =>
    obtain ⟨rfl, rfl⟩ : k = key ∧ value = arg := by simpa using ha
    exact hmem
  | arg value => cases ha

end Argp
