/-!
# Blanks, control characters and letter case

The character classes that decide where a comment starts, how a numeral is trimmed and what a
string literal has to escape:

* `isBlank`: the characters with the property `White_Space`;
* `isControl`: the general category of control characters;
* `dropBlanks`, `trim`: a text without the blanks at its start, or at both ends;
* `sameIgnoringCase`, `upper`: letter case of the twenty-six ASCII letters, all others standing for
  themselves.
-/

namespace Sharpen.Text

/-- The twenty-five characters with the property `White_Space`. -/
def isBlank (c : Char) : Bool :=
  let n := c.toNat
  (0x09 ≤ n && n ≤ 0x0D) || n = 0x20 || n = 0x85 || n = 0xA0 || n = 0x1680 ||
    (0x2000 ≤ n && n ≤ 0x200A) || n = 0x2028 || n = 0x2029 || n = 0x202F || n = 0x205F || n = 0x3000

/-- The sixty-five control characters: two blocks of thirty-two, and the delete character. -/
def isControl (c : Char) : Bool :=
  let n := c.toNat
  n < 0x20 || (0x7F ≤ n && n ≤ 0x9F)

/-- Characters from the first one that is not blank. -/
def dropBlanks (cs : List Char) : List Char :=
  cs.dropWhile isBlank

/-- A text without the blanks at either end. -/
def trim (text : String) : String :=
  String.ofList (dropBlanks (dropBlanks text.toList).reverse).reverse

/-- A text with its ASCII letters in upper case. -/
def upper (text : String) : String :=
  String.ofList (text.toList.map Char.toUpper)

/-- Texts that differ at most in the case of ASCII letters. -/
def sameIgnoringCase (a b : String) : Bool :=
  a.toList.map Char.toLower == b.toList.map Char.toLower

/-- What follows `start` at the head of a list of characters. -/
def afterStart? : (start cs : List Char) → Option (List Char)
  | [], cs => some cs
  | _ :: _, [] => none
  | s :: start, c :: cs => if s = c then afterStart? start cs else none

/-- What comes before `last` at the end of a list of characters. -/
def beforeEnd? (last cs : List Char) : Option (List Char) :=
  (afterStart? last.reverse cs.reverse).map List.reverse

/-- The pieces of a text between the places where `sep` stands; there is always at least one. -/
def splitAt (sep : Char) : List Char → List (List Char)
  | [] => [[]]
  | c :: cs =>
    if c = sep then [] :: splitAt sep cs
    else match splitAt sep cs with
      | [] => [[c]]
      | piece :: rest => (c :: piece) :: rest

def dottedParts (path : String) : List String :=
  (splitAt '.' path.toList).map String.ofList

end Sharpen.Text
