import ClassWeave.Error

/-!
# Failures of a command

When a command fails, it says what it was doing, and the causes from the outermost to the innermost.

* `Error.causes` : an error with what lies beneath it.
* `Failure.text` : what is shown.
-/

namespace ClassWeave

/-- What a command was doing. -/
inductive Activity where
  | openingDirectory (path : String)
  | weaving (path : String)
  | readingFile (path : String)
  | parsing (path : String)
  | inspecting (path : String)
  deriving DecidableEq, Repr

/-- The wording of a failed activity. -/
def Activity.message : Activity → String
  | openingDirectory path => s!"failed to open class directory: {path}"
  | weaving path => s!"failed to weave {path}"
  | readingFile path => s!"failed to read {path}"
  | parsing path => s!"failed to parse class file: {path}"
  | inspecting path => s!"failed to inspect {path}"

/-- The error `e` with what lies beneath it: that of storage stands for a fault with the same
words. -/
def Error.causes (e : Error) : List String :=
  match e with
  | .storage fault => [e.message, fault.message]
  | _ => [e.message]

/-- Why a command failed. -/
structure Failure where
  /-- What it was doing, or the error itself. -/
  summary : String
  /-- The causes, the outermost first. -/
  causes : List String := []
  deriving DecidableEq, Repr

namespace Failure

/-- A failed activity. -/
def during (activity : Activity) (causes : List String) : Failure := ⟨activity.message, causes⟩

/-- An error that no activity is named for. -/
def ofError (e : Error) : Failure := ⟨e.message, e.causes.drop 1⟩

/-- The `text` with `mark` in front; its further lines start with `indent`. -/
def marked (mark indent text : String) : String :=
  mark ++ String.join (text.toList.map fun c => if c = '\n' then "\n" ++ indent else c.toString)

/-- The cause `text` with its number `n`. -/
def numbered (text : String) (n : Nat) : String :=
  let digits := toString n
  let blanks := String.ofList (List.replicate (5 - digits.length) ' ')
  marked (blanks ++ digits ++ ": ") "       " text

/-- The lines of the causes; several of them are numbered. -/
def causeLines : List String → List String
  | [] => []
  | [cause] => [marked "    " "    " cause]
  | causes => causes.mapIdx fun n cause => numbered cause n

/-- What is shown of the failure `f`. -/
def text (f : Failure) : String :=
  let causes := match causeLines f.causes with
    | [] => ""
    | lines => "\n\nCaused by:\n" ++ String.intercalate "\n" lines
  "Error: " ++ f.summary ++ causes

end Failure

end ClassWeave
