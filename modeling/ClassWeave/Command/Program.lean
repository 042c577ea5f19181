import ClassWeave.Command.Arguments

/-!
# The program

A command line is carried out on a file tree.

* `Program.run` : what the program shows and answers, and the tree after it.
-/

namespace ClassWeave

/-- What the program answers. -/
inductive ExitCode where
  | success
  | failure
  | misuse
  deriving DecidableEq, Repr

/-- The number of an answer. -/
def ExitCode.toNat : ExitCode → Nat
  | success => 0
  | failure => 1
  | misuse => 2

/-- What a run of the program comes to. -/
structure Answer where
  /-- What is shown. -/
  output : String := ""
  /-- Why it failed. -/
  failure? : Option Failure := none
  /-- What it answers. -/
  exit : ExitCode := .success
  deriving DecidableEq, Repr

namespace Answer

/-- A run that shows `output` and may fail nevertheless. -/
def ofShown (output : String) : Except Failure Unit → Answer
  | .ok _ => { output }
  | .error f => { output, failure? := some f, exit := .failure }

/-- A run that fails by `f` and shows nothing. -/
def ofFailure (f : Failure) : Answer := { failure? := some f, exit := .failure }

end Answer

namespace Program

/-- The name of the program. -/
def name : String := "weavescope"

/-- The version of the program. -/
def version : String := "0.1.0"

/-- Lines, each with its end. -/
def unlines (lines : List String) : String := String.join (lines.map (· ++ "\n"))

/-- A result for readers, as `lines`, or for programs, as a `document`. -/
def shown (json : Bool) (lines : List String) (document : Document) : String :=
  unlines (if json then [document.pretty] else lines)

/-- The help on a command. -/
def help : Stage → List String
  | .outer =>
    [s!"Usage: {name} [OPTIONS] <COMMAND>", "", "Commands:",
      "  weave    Weave every class file below a compiler output directory, in place",
      "  inspect  Show the classification, fields and packed layout of a single class file", "",
      "Options:", "      --json     Emit output as JSON instead of human-readable text",
      "  -v, --verbose  Enable verbose (debug-level) logging output",
      "  -h, --help     Print help", "  -V, --version  Print version"]
  | .weave =>
    [s!"Usage: {name} weave [OPTIONS] <DIR>", "", "Options:",
      "  -t, --threads <THREADS>  Worker threads; 0 uses one per logical CPU [default: 0]",
      "      --dry-run            Report what would be woven without writing anything",
      "      --tolerate-partial   Exit successfully even if some classes failed to weave"]
  | .inspect =>
    [s!"Usage: {name} inspect [OPTIONS] <FILE>", "", "Options:",
      "  -c, --classes <DIR>  Directory of sibling classes"]

/-- Carries out a request on the tree `t`. -/
def carryOut (json : Bool) (t : FileTree) : Request → Answer × FileTree
  | .weave r =>
    match r.run t with
    | (.error f, t) => (.ofFailure f, t)
    | (.ok report, t) =>
      let output := shown json (report.lines r.dryRun) (report.document r.dryRun)
      (.ofShown output ((report.check r.tolerant).mapError .ofError), t)
  | .inspect r =>
    match r.run t with
    | .error f => (.ofFailure f, t)
    | .ok found => (.ofShown (shown json found.lines found.document) (.ok ()), t)

/-- A run of the program with the `arguments` on the tree `t`. -/
def run (arguments : List String) (t : FileTree) : Answer × FileTree :=
  match Invocation.ofArguments arguments with
  | .misuse => ({ exit := .misuse }, t)
  | .help stage => ({ output := unlines (help stage) }, t)
  | .version => ({ output := unlines [s!"{name} {version}"] }, t)
  | .run json _ request => carryOut json t request

end Program

end ClassWeave
