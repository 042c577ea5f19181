import ClassWeave.Command.Inspect
import ClassWeave.Command.Weave

/-!
# Arguments

The command line names a command and gives it options, in any order.  Arguments are read from left
to right, and the first one that cannot be understood, or that asks for help, ends the reading.

* `Flag` : the options, with their long and short names.
* `Invocation.Draft` : what is known after some of the arguments.
* `Invocation.ofArguments` : what the arguments ask for.
-/

namespace ClassWeave

/-- What the command line is read for: before a command is named, or after. -/
inductive Stage where
  | outer
  | weave
  | inspect
  deriving DecidableEq, Repr

/-- The options. -/
inductive Flag where
  | json
  | verbose
  | threads
  | dryRun
  | tolerant
  | classes
  | help
  | version
  deriving DecidableEq, Repr

namespace Flag

/-- All options. -/
def all : List Flag := [json, verbose, threads, dryRun, tolerant, classes, help, version]

/-- The name after two dashes. -/
def long : Flag → String
  | json => "json"
  | verbose => "verbose"
  | threads => "threads"
  | dryRun => "dry-run"
  | tolerant => "tolerate-partial"
  | classes => "classes"
  | help => "help"
  | version => "version"

/-- The letter after one dash. -/
def short? : Flag → Option Char
  | verbose => some 'v'
  | threads => some 't'
  | classes => some 'c'
  | help => some 'h'
  | version => some 'V'
  | json | dryRun | tolerant => none

/-- Whether a value belongs to the option. -/
def takesValue : Flag → Bool
  | threads | classes => true
  | _ => false

/-- Whether the option can be given at `stage`. -/
def isKnownAt (stage : Stage) : Flag → Bool
  | json | verbose | help => true
  | version => stage == .outer
  | threads | dryRun | tolerant => stage == .weave
  | classes => stage == .inspect

/-- The option with the long `name` at `stage`. -/
def ofLong? (stage : Stage) (name : String) : Option Flag :=
  all.find? fun f => f.isKnownAt stage && f.long == name

/-- The option with the short name `letter` at `stage`. -/
def ofShort? (stage : Stage) (letter : Char) : Option Flag :=
  all.find? fun f => f.isKnownAt stage && f.short? == some letter

end Flag

/-! ### Requests -/

/-- What a command is asked for. -/
inductive Request where
  | weave (r : WeaveRequest)
  | inspect (r : InspectRequest)
  deriving DecidableEq, Repr

/-- The paths that a request names. -/
def Request.paths : Request → List String
  | .weave r => [r.root]
  | .inspect r => r.file :: r.classes?.toList

/-- What the arguments ask for. -/
inductive Invocation where
  /-- A command is to be run. -/
  | run (json verbose : Bool) (request : Request)
  /-- Help is to be shown. -/
  | help (stage : Stage)
  /-- The version is to be shown. -/
  | version
  /-- The arguments cannot be understood. -/
  | misuse
  deriving DecidableEq, Repr

namespace Invocation

/-- What is known after some of the arguments. -/
structure Draft where
  /-- What the arguments are read for. -/
  stage : Stage := .outer
  /-- The options that were given at this stage. -/
  given : List Flag := []
  /-- Whether documents are to be shown. -/
  json : Bool := false
  /-- Whether more is to be logged. -/
  verbose : Bool := false
  /-- The path that was given. -/
  path? : Option String := none
  /-- The number of threads. -/
  threads : Nat := 0
  /-- Whether nothing is to be written. -/
  dryRun : Bool := false
  /-- Whether failed units are tolerated. -/
  tolerant : Bool := false
  /-- The directory of the other units. -/
  classes? : Option String := none
  deriving DecidableEq, Repr

namespace Draft

/-- What was read so far, or what ends the reading. -/
abbrev Step := Except Invocation Draft

variable (d : Draft)

/-- The greatest number of threads that can be asked for. -/
def threadsLimit : Nat := 2 ^ 64 - 1

/-- The number that digits denote, with a plus sign in front or not. -/
def number? (text : String) : Option Nat :=
  let digits := match text.toList with
    | '+' :: digits => digits
    | digits => digits
  if digits = [] || !digits.all Char.isDigit then none
  else
    let n := digits.foldl (fun n c => 10 * n + (c.toNat - '0'.toNat)) 0
    if n ≤ threadsLimit then some n else none

/-- Takes note of an option, which can be given once. -/
def note (f : Flag) : Step :=
  if d.given.contains f then .error .misuse else .ok { d with given := f :: d.given }

/-- Takes an option without a value. -/
def takeFlag (f : Flag) : Step := do
  match f with
  | .help => throw (.help d.stage)
  | .version => throw .version
  | _ =>
    let d ← d.note f
    match f with
    | .json => return { d with json := true }
    | .verbose => return { d with verbose := true }
    | .dryRun => return { d with dryRun := true }
    | .tolerant => return { d with tolerant := true }
    | _ => throw .misuse

/-- Takes an option with its value. -/
def takeValue (f : Flag) (value : String) : Step := do
  let d ← d.note f
  match f with
  | .threads =>
    match number? value with
    | some threads => return { d with threads }
    | none => throw .misuse
  | .classes =>
    if value = "" then throw .misuse
    return { d with classes? := some value }
  | _ => throw .misuse

/-- Takes the path that a command needs; there is only one. -/
def takePath (path : String) : Step :=
  if d.path?.isSome || path = "" then .error .misuse else .ok { d with path? := some path }

/-- Takes the name of a command. -/
def takeCommand (name : String) : Step :=
  match name with
  | "weave" => .ok { d with stage := .weave, given := [] }
  | "inspect" => .ok { d with stage := .inspect, given := [] }
  | _ => .error .misuse

/-- What the end of the arguments leaves to be done. -/
def finish : Invocation :=
  match d.stage, d.path? with
  | .weave, some root =>
    .run d.json d.verbose (.weave
      { root, threads := d.threads, dryRun := d.dryRun, tolerant := d.tolerant })
  | .inspect, some file => .run d.json d.verbose (.inspect { file, classes? := d.classes? })
  | _, _ => .misuse

end Draft

/-! ### Reading -/

/-- An argument that can be a value: it does not look like an option. -/
def isPlainArgument (argument : String) : Bool :=
  argument.toList.head? != some '-' || argument == "-"

/-- A text without an equals sign at its front. -/
def dropEquals : List Char → List Char
  | '=' :: rest => rest
  | rest => rest

/-- Takes letters after one dash.  The value of an option is what follows its letter; when nothing
does, the option is left over, and its value is the next argument. -/
def Draft.takeLetters (d : Draft) : List Char → Except Invocation (Draft × Option Flag)
  | [] => .ok (d, none)
  | letter :: rest =>
    match Flag.ofShort? d.stage letter with
    | none => .error .misuse
    | some f =>
      if f.takesValue then
        if rest = [] then .ok (d, some f)
        else (d.takeValue f (String.ofList (dropEquals rest))).map (·, none)
      else
        match d.takeFlag f with
        | .ok d => d.takeLetters rest
        | .error stop => .error stop

/-- Takes a long option, given as the text after two dashes. -/
def Draft.takeLong (d : Draft) (text : List Char) : Except Invocation (Draft × Option Flag) :=
  let name := String.ofList (text.takeWhile (· ≠ '='))
  match Flag.ofLong? d.stage name, text.dropWhile (· ≠ '=') with
  | none, _ => .error .misuse
  | some f, [] => if f.takesValue then .ok (d, some f) else (d.takeFlag f).map (·, none)
  | some f, _ :: value =>
    if f.takesValue then (d.takeValue f (String.ofList value)).map (·, none) else .error .misuse

/-- The help that names of commands ask for. -/
def helpOn : List String → Invocation
  | [] | ["help"] => .help .outer
  | ["weave"] => .help .weave
  | ["inspect"] => .help .inspect
  | _ => .misuse

/-- Reads arguments after those that the draft is made of. -/
def read (d : Draft) : List String → Invocation
  | [] => d.finish
  | argument :: rest =>
    let went : Except Invocation (Draft × Option Flag) → Invocation
      | .error stop => stop
      | .ok (d, none) => read d rest
      | .ok (d, some f) =>
        match rest with
        | [] => .misuse
        | value :: rest =>
          if isPlainArgument value then
            match d.takeValue f value with
            | .ok d => read d rest
            | .error stop => stop
          else .misuse
    match argument.toList with
    | ['-', '-'] =>
      if d.stage = .outer then .misuse
      else
        match rest.foldlM Draft.takePath d with
        | .ok d => d.finish
        | .error stop => stop
    | '-' :: '-' :: text => went (d.takeLong text)
    | '-' :: letter :: letters => went (d.takeLetters (letter :: letters))
    | _ =>
      if d.stage = .outer then
        if argument = "help" then helpOn rest
        else
          match d.takeCommand argument with
          | .ok d => read d rest
          | .error stop => stop
      else
        match d.takePath argument with
        | .ok d => read d rest
        | .error stop => stop

/-- What the arguments ask for. -/
def ofArguments (arguments : List String) : Invocation := read {} arguments

end Invocation

end ClassWeave
