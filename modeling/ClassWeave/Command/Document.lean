import ClassWeave.Text.Hex

/-!
# Documents

A document is a value in the JSON notation, shown over several lines: every item and every member
has a line of its own and is indented by its depth.

* `Document.quoted` : a text in quotes.
* `Document.pretty` : the whole document.
-/

namespace ClassWeave

/-- A value in the JSON notation. -/
inductive Document where
  | text (s : String)
  | number (n : Nat)
  | flag (b : Bool)
  | list (items : List Document)
  | record (members : List (String × Document))

namespace Document

/-- The character `c` inside quotes. -/
def escaped (c : Char) : String :=
  if c = '"' then "\\\""
  else if c = '\\' then "\\\\"
  else if c = '\x08' then "\\b"
  else if c = '\t' then "\\t"
  else if c = '\n' then "\\n"
  else if c = '\x0c' then "\\f"
  else if c = '\r' then "\\r"
  else if c.toNat < 0x20 then "\\u00" ++ Hex.ofBytes [UInt8.ofNat c.toNat]
  else c.toString

/-- The text `s` in quotes. -/
def quoted (s : String) : String := "\"" ++ String.join (s.toList.map escaped) ++ "\""

/-- The start of a line at the given depth. -/
def newline (depth : Nat) : String := "\n" ++ String.ofList (List.replicate (2 * depth) ' ')

/-- The `lines` between the brackets `opening` and `closing`, with commas between them; brackets
without lines stand side by side. -/
def bracketed (opening closing : String) (depth : Nat) (lines : List String) : String :=
  if lines = [] then opening ++ closing
  else
    opening ++ String.intercalate "," (lines.map (newline (depth + 1) ++ ·)) ++ newline depth
      ++ closing

mutual

/-- A document at the given depth. -/
def render (depth : Nat) : Document → String
  | text s => quoted s
  | number n => toString n
  | flag b => if b then "true" else "false"
  | list items => bracketed "[" "]" depth (renderItems (depth + 1) items)
  | record members => bracketed "\x7b" "\x7d" depth (renderMembers (depth + 1) members)

/-- The items of a list. -/
def renderItems (depth : Nat) : List Document → List String
  | [] => []
  | d :: ds => render depth d :: renderItems depth ds

/-- The members of a record. -/
def renderMembers (depth : Nat) : List (String × Document) → List String
  | [] => []
  | (key, d) :: ds => (quoted key ++ ": " ++ render depth d) :: renderMembers depth ds

end

/-- The text of the document `d`. -/
def pretty (d : Document) : String := render 0 d

/-- The member `key`, which is left out when there is nothing to show. -/
def optional (key : String) : Option Document → List (String × Document)
  | some d => [(key, d)]
  | none => []

end Document

end ClassWeave
