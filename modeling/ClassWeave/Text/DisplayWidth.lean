import ClassWeave.Text.CodePoints

/-!
# Width of text in columns

In a table of fixed columns most characters take one column; the characters of East Asian scripts
and pictures take two, and marks on the character before them take none.  Some sequences take less
than their characters one by one: a picture with a skin tone, pictures that a joiner makes one, and
letters that some scripts write as one.  A selector makes a character a picture or a text, or a
quotation mark wide.

What a character adds depends on what follows it, so a text is read from its end.

* `DisplayWidth.Following` : what follows a character, as far as its width depends on it.
* `DisplayWidth.Following.before` : the columns that a character adds in front of what follows.
* `DisplayWidth.width` : the columns of a text.
-/

namespace ClassWeave

namespace DisplayWidth

/-- What may join the character before it. -/
inductive Joint where
  /-- Nothing of the kind. -/
  | none
  /-- The end of a line. -/
  | lineFeed
  /-- A skin tone. -/
  | skinTone
  /-- A regional indicator. -/
  | indicator
  /-- Several regional indicators. -/
  | indicators
  /-- A picture. -/
  | picture
  /-- A joiner in front of a picture. -/
  | joinedPicture
  /-- The frame of a key in front of a joined picture. -/
  | joinedKey
  /-- A regional indicator in front of a joined picture. -/
  | joinedIndicator
  /-- An even number of regional indicators in front of a joined picture. -/
  | joinedFlags
  /-- An odd number, from three on, of regional indicators in front of a joined picture. -/
  | joinedFlagsAndIndicator
  /-- Tags in front of a joined picture: their end, and as many letters. -/
  | joinedTags (letters : Nat)
  /-- Tags in front of a joined picture, of which the first ones read are as many digits. -/
  | joinedTagDigits (digits : Nat)
  /-- The Kirat Rai vowel sign e. -/
  | vowelSignE
  /-- The Kirat Rai vowel sign ai, or its two halves. -/
  | vowelSignAi
  /-- An Arabic alef. -/
  | alef
  /-- A Hebrew lamed. -/
  | lamed
  /-- A Buginese ya. -/
  | ya
  /-- A Buginese vowel sign i, a joiner and a ya. -/
  | vowelSignIYa
  /-- A Tifinagh consonant. -/
  | consonant
  /-- The Tifinagh joiner in front of a consonant. -/
  | joinedConsonant
  /-- A Lisu tone letter that can be the second one. -/
  | secondTone
  /-- The letter i of Orkhon. -/
  | orkhonI
  /-- A Khmer letter that can be put below the line. -/
  | khmerLetter
  deriving DecidableEq, Repr

/-- Whether it is a letter that other letters join. -/
def Joint.isLetter : Joint → Bool
  | alef | lamed | ya | vowelSignIYa | consonant | joinedConsonant | secondTone | orkhonI
  | khmerLetter => true
  | _ => false

/-- Whether marks that are not shown may stand in front of it and let it be joined. -/
def Joint.seesThrough (j : Joint) : Bool := j.isLetter && j != alef

/-- Whether it is a joined picture in front of which a further picture adds nothing. -/
def Joint.takesPicture : Joint → Bool
  | joinedPicture | joinedKey => true
  | _ => false

/-- What follows a character, as far as the width of the character depends on it. -/
structure Following where
  /-- What comes first, apart from selectors and joiners. -/
  joint : Joint := .none
  /-- Whether a selector for pictures is in front of it. -/
  asPicture : Bool := false
  /-- Whether a selector for texts is in front of it. -/
  asText : Bool := false
  /-- Whether a selector for wide forms is in front of it. -/
  asWide : Bool := false
  /-- Whether a joiner is in front of it. -/
  joined : Bool := false
  deriving DecidableEq, Repr

/-- The columns that something adds, and what it is to a character in front of it. -/
abbrev Placed := Int × Following

/-- The code points below which every character takes one column. -/
def plainLimit : Nat := 0xa0

/-- The number of columns of the code point `n` by itself. -/
def ownWidth (n : Nat) : Nat :=
  if n ≤ plainLimit then 1
  else if n = 0x17d8 then 3
  else if CodePoints.zeroWidth.contains n then 0
  else if CodePoints.wide.contains n then 2
  else 1

/-- The number of columns of the character `c` by itself. -/
def charWidth (c : Char) : Nat := ownWidth c.toNat

/-- Whether `n` is a skin tone. -/
def isSkinTone (n : Nat) : Bool := decide (0x1f3fb ≤ n) && decide (n ≤ 0x1f3ff)

/-- Whether `n` is a regional indicator. -/
def isIndicator (n : Nat) : Bool := decide (0x1f1e6 ≤ n) && decide (n ≤ 0x1f1ff)

/-- Whether `n` is the tag of a small letter. -/
def isTagLetter (n : Nat) : Bool := decide (0xe0061 ≤ n) && decide (n ≤ 0xe007a)

/-- Whether `n` is the tag of a digit. -/
def isTagDigit (n : Nat) : Bool := decide (0xe0030 ≤ n) && decide (n ≤ 0xe0039)

/-- Whether a selector can make a text of a picture that takes two columns.  Enclosed ideographs
take two columns in both forms. -/
def isNarrowAsText (n : Nat) : Bool :=
  CodePoints.styled.contains n && CodePoints.pictures.contains n &&
    !(decide (0x1f200 ≤ n) && decide (n ≤ 0x1f2ff))

/-- What the code point `n`, which joins nothing after it, is to a character in front of it. -/
def jointOf (n : Nat) : Joint :=
  if n ≤ plainLimit then if n = 0xa then .lineFeed else .none
  else if n = 0x5dc then .lamed
  else if CodePoints.alefs.contains n then .alef
  else if CodePoints.khmerLetters.contains n then .khmerLetter
  else if n = 0x1a10 then .ya
  else if CodePoints.tifinaghLetters.contains n then .consonant
  else if n = 0xa4fc ∨ n = 0xa4fd then .secondTone
  else if n = 0x10c03 then .orkhonI
  else if n = 0x16d67 then .vowelSignE
  else if n = 0x16d68 then .vowelSignAi
  else if isIndicator n then .indicator
  else if isSkinTone n then .skinTone
  else if CodePoints.pictures.contains n then .picture
  else .none

/-- The selector for texts. -/
def textSelector : Nat := 0xfe0e

/-- The selector for wide forms. -/
def wideSelector : Nat := 0xfe01

/-- The selector for pictures. -/
def pictureSelector : Nat := 0xfe0f

/-- The joiner. -/
def joiner : Nat := 0x200d

/-- What the code point `n` adds in front of something that it does not join. -/
def alone (n : Nat) : Placed := (ownWidth n, { joint := jointOf n })

/-- Something that does not add a column and that what is in front of it sees as `j`. -/
def joinedAs (j : Joint) : Placed := (0, { joint := j })

namespace Following

/-- What follows, without a selector for pictures that nothing in front of it takes. -/
def withoutPicture (f : Following) : Following :=
  if f.asPicture then if f.joint.isLetter then { f with asPicture := false } else {} else f

/-- What follows a selector for pictures. -/
def selectPicture (f : Following) : Following :=
  if f.joint.isLetter || f.joint.takesPicture then { f with asPicture := true }
  else { asPicture := true }

/-- What follows a selector for texts. -/
def selectText (f : Following) : Following :=
  if f.joint.isLetter then { f with asText := true } else { asText := true }

/-- What follows a selector for wide forms. -/
def selectWide (f : Following) : Following :=
  if f.joint.isLetter then { f with asWide := true } else { asWide := true }

/-- What `n` adds when it is a letter that some script writes as one with what follows. -/
def letter? (f : Following) (n : Nat) : Option Placed :=
  match f.joint with
  | .alef =>
    if CodePoints.lams.contains n then some (joinedAs .none)
    else if ownWidth n = 0 && !CodePoints.standing.contains n then some (0, f)
    else none
  | .lamed => if f.joined && n = 0x5d0 then some (joinedAs .none) else none
  | .khmerLetter => if n = 0x17d2 then some (-1, {}) else none
  | .ya => if f.joined && n = 0x1a17 then some (joinedAs .vowelSignIYa) else none
  | .vowelSignIYa => if n = 0x1a15 then some (joinedAs .none) else none
  | .consonant =>
    if n = 0x2d7f then some (1, { joint := .joinedConsonant })
    else if f.joined && CodePoints.tifinaghLetters.contains n then some (joinedAs .none)
    else none
  | .joinedConsonant => if CodePoints.tifinaghLetters.contains n then some (-1, {}) else none
  | .secondTone => if 0xa4f8 ≤ n ∧ n ≤ 0xa4fb then some (joinedAs .none) else none
  | .orkhonI => if f.joined && n = 0x10c32 then some (joinedAs .none) else none
  | .vowelSignE =>
    if n = 0x16d63 ∨ n = 0x16d69 then some (joinedAs .none)
    else if n = 0x16d67 then some (joinedAs .vowelSignAi)
    else if n = 0x16d68 then some (1, { joint := .vowelSignE })
    else none
  | .vowelSignAi => if n = 0x16d63 then some (joinedAs .none) else none
  | _ => none

/-- What `n` adds when a joiner makes it one with the picture that follows. -/
def joinedPicture? (n : Nat) : Option Placed :=
  if n = 0x20e3 then some (joinedAs .joinedKey)
  else if isIndicator n then some (1, { joint := .joinedIndicator })
  else if isSkinTone n then some (joinedAs .skinTone)
  else if n = 0xe007f then some (joinedAs (.joinedTags 0))
  else if jointOf n = .picture then some (joinedAs .picture)
  else none

/-- The flag of a region, spelled by tags after a black flag: three to six letters, or up to four
letters in front of three digits. -/
def tag? (f : Following) (n : Nat) : Option Placed :=
  match f.joint with
  | .joinedTags k =>
    if isTagLetter n && decide (k < 6) then some (joinedAs (.joinedTags (k + 1)))
    else if isTagDigit n && decide (k ≤ 4) then some (joinedAs (.joinedTagDigits 1))
    else if n = 0x1f3f4 && decide (3 ≤ k) then some (joinedAs .picture)
    else none
  | .joinedTagDigits k =>
    if isTagDigit n && decide (k < 3) then some (joinedAs (.joinedTagDigits (k + 1)))
    else if n = 0x1f3f4 && decide (k = 3) then some (joinedAs .picture)
    else none
  | _ => none

/-- What `n` adds when it is a part of the picture that follows. -/
def picture? (f : Following) (n : Nat) : Option Placed :=
  match f.joint with
  | .skinTone =>
    if CodePoints.skinToneBases.contains n then some (joinedAs .picture)
    else if n = joiner then some (joinedAs .joinedPicture)
    else none
  | .picture => if n = joiner then some (joinedAs .joinedPicture) else none
  | .indicator => if isIndicator n then some (1, { joint := .indicators }) else none
  | .indicators =>
    if isIndicator n then some (1, { joint := .indicators })
    else if n = joiner then some (joinedAs .joinedPicture)
    else none
  | .joinedPicture => joinedPicture? n
  | .joinedIndicator => if isIndicator n then some (-1, { joint := .joinedFlags }) else none
  | .joinedFlags =>
    if isIndicator n then some (3, { joint := .joinedFlagsAndIndicator })
    else if n = joiner then some (joinedAs .joinedPicture)
    else none
  | .joinedFlagsAndIndicator =>
    if isIndicator n then some (-1, { joint := .joinedFlags })
    else if n = joiner then some (joinedAs .joinedPicture)
    else none
  | .joinedTags _ | .joinedTagDigits _ => f.tag? n
  | _ => none

/-- The code point `n` in front of what follows, when no selector is in between. -/
def join (f : Following) (n : Nat) : Placed :=
  if f.joint.seesThrough && n = joiner then (0, { f with joined := true })
  else if f.joint.seesThrough && CodePoints.transparent.contains n then (0, f)
  else (f.letter? n <|> f.picture? n).getD (alone n)

/-- The code point `n` in front of what follows, when no selector for pictures is in between. -/
def beforeText (f : Following) (n : Nat) : Placed :=
  if n ≤ plainLimit then
    if n = 0xd ∧ f = { joint := .lineFeed } then (0, {}) else alone n
  else if n = pictureSelector then (0, f.selectPicture)
  else if n = textSelector then (0, f.selectText)
  else if n = wideSelector then (0, f.selectWide)
  else if f.asText && isNarrowAsText n then (1, {})
  else if f.asWide && CodePoints.quotationMarks.contains n then (2, {})
  else join { f with asText := false, asWide := false } n

/-- The columns that `c` adds in front of what follows, and what both are to a character in front of
them. -/
def before (f : Following) (c : Char) : Placed :=
  if f.asPicture && CodePoints.styled.contains c.toNat then
    (if f.joint.takesPicture then 0 else 2, { joint := .picture })
  else f.withoutPicture.beforeText c.toNat

end Following

/-- The columns of `text`, and what it is to a character in front of it. -/
def measure (text : List Char) : Placed :=
  text.foldr (fun c placed =>
    let (added, f) := placed.2.before c
    (added + placed.1, f)) (0, {})

/-- The columns of characters. -/
def listWidth (text : List Char) : Nat := (measure text).1.toNat

/-- The columns of a text. -/
def width (text : String) : Nat := listWidth text.toList

@[simp] theorem listWidth_nil : listWidth [] = 0 := rfl

end DisplayWidth

end ClassWeave
