import ClassWeave.Text.DisplayWidth

/-!
# Lines of a limited width

A text that is wider than a limit is put on several lines.  It is parted at its blanks; a word goes
on a line as long as there is room, and a word that is wider than a whole line is cut.  A line is
finished as soon as hardly anything fits on it.

* `Wrapping.Line` : the words of a line.
* `Wrapping.cut` : a word in two, the first part of a limited width.
* `Wrapping.lines` : the lines of a text.
-/

namespace ClassWeave

namespace Wrapping

/-- Words on a line. -/
structure Line where
  /-- The words, the last one first.  A line that begins with nothing has not begun. -/
  words : List (List Char) := []
  /-- The columns that they take, with a blank between each two. -/
  width : Nat := 0

/-- Columns so few that a line that has no more left is finished. -/
def leastRoom : Nat := 2

namespace Line

/-- Whether nothing is on the line. -/
def isEmpty (l : Line) : Bool := l.words.isEmpty

/-- The characters of a line. -/
def text (l : Line) : List Char := [' '].intercalate l.words.reverse

/-- The column where a further word begins. -/
def start (l : Line) : Nat := if l.isEmpty then 0 else l.width + 1

/-- The line with `word` behind what it has. -/
def add (l : Line) (word : List Char) : Line :=
  if l.isEmpty && word.isEmpty then l
  else { words := word :: l.words, width := l.start + DisplayWidth.listWidth word }

/-- Whether a line of at most `limit` columns is finished. -/
def isFull (limit : Nat) (l : Line) : Bool := decide (limit - leastRoom < l.width)

end Line

/-- As many characters as fit in `room` columns, but one at least where there are any, and the
others. -/
def cut (room : Nat) : List Char → List Char × List Char
  | [] => ([], [])
  | c :: cs =>
    let rec more (used : Nat) : List Char → List Char × List Char
      | [] => ([], [])
      | c :: cs =>
        if used + DisplayWidth.charWidth c ≤ room then
          let (first, rest) := more (used + DisplayWidth.charWidth c) cs
          (c :: first, rest)
        else ([], c :: cs)
    let (first, rest) := more (DisplayWidth.charWidth c) cs
    (c :: first, rest)

theorem cut_more_append (room used : Nat) (cs : List Char) :
    (cut.more room used cs).1 ++ (cut.more room used cs).2 = cs := by
  induction cs generalizing used with
  | nil => rfl
  | cons c cs ih =>
    rw [cut.more]
    split
    · simp [ih]
    · rfl

/-- What remains of a word after a cut is shorter. -/
theorem length_cut_lt (room : Nat) {word : List Char} (h : word ≠ []) :
    (cut room word).2.length < word.length := by
  cases word with
  | nil => exact absurd rfl h
  | cons c cs =>
    have := congrArg List.length (cut_more_append room (DisplayWidth.charWidth c) cs)
    simp only [List.length_append] at this
    simp only [cut, List.length_cons]
    omega

/-- A word that takes columns has characters. -/
theorem ne_nil_of_lt_listWidth {limit : Nat} {word : List Char}
    (h : limit < DisplayWidth.listWidth word) : word ≠ [] := by
  rintro rfl
  simp at h

/-- Puts words on lines of at most `limit` columns, the first of which is `l` with what it has
already. -/
def arrange (limit : Nat) (l : Line) : List (List Char) → List (List Char)
  | [] => if l.isEmpty then [] else [l.text]
  | word :: rest =>
    if l.start + DisplayWidth.listWidth word ≤ limit then
      let next := l.add word
      if next.isFull limit then next.text :: arrange limit {} rest else arrange limit next rest
    else if !l.isEmpty && decide (limit - l.start ≤ leastRoom) then
      l.text :: arrange limit {} (word :: rest)
    else if limit < DisplayWidth.listWidth word then
      let parts := cut (limit - l.start) word
      let next := l.add parts.1
      if next.isFull limit then next.text :: arrange limit {} (parts.2 :: rest)
      else arrange limit next (parts.2 :: rest)
    else
      let next := Line.add {} word
      if next.isFull limit then l.text :: next.text :: arrange limit {} rest
      else l.text :: arrange limit next rest
termination_by words => (words.flatten.length + words.length, if l.isEmpty then 0 else 1)
decreasing_by
  all_goals simp_wf
  · exact Prod.Lex.left _ _ (by omega)
  · exact Prod.Lex.left _ _ (by omega)
  · rename_i full
    simp only [Bool.and_eq_true, Bool.not_eq_true'] at full
    rw [full.1]
    exact Prod.Lex.right _ (by simp [Line.isEmpty])
  · have := length_cut_lt (limit - l.start) (ne_nil_of_lt_listWidth ‹_›)
    exact Prod.Lex.left _ _ (by omega)
  · have := length_cut_lt (limit - l.start) (ne_nil_of_lt_listWidth ‹_›)
    exact Prod.Lex.left _ _ (by omega)
  · exact Prod.Lex.left _ _ (by omega)
  · exact Prod.Lex.left _ _ (by omega)

/-- The lines of `text`, of at most `limit` columns.  A text that fits is a line. -/
def lines (limit : Nat) (text : List Char) : List (List Char) :=
  if limit < DisplayWidth.listWidth text then arrange limit {} (text.splitOn ' ') else [text]

end Wrapping

end ClassWeave
