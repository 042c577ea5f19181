/-!
# Blanks

* `Text.isBlank` : the characters that only take room.
* `Text.trimEnd` : a text without the blanks at its end.
-/

namespace ClassWeave

namespace Text

/-- Whether the character `c` only takes room: a blank of any width, a tab, or an end of a line. -/
def isBlank (c : Char) : Bool :=
  let n := c.toNat
  (9 ≤ n && n ≤ 13) || n == 0x20 || n == 0x85 || n == 0xa0 || n == 0x1680 ||
    (0x2000 ≤ n && n ≤ 0x200a) || n == 0x2028 || n == 0x2029 || n == 0x202f || n == 0x205f ||
    n == 0x3000

/-- The `text` without the blanks at its end. -/
def trimEnd (text : String) : String :=
  String.ofList (text.toList.reverse.dropWhile isBlank).reverse

end Text

end ClassWeave
