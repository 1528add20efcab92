import Sharpen.Text.Blank

/-!
# Comments

Comments are no part of the grammar of either language. They ride on the nearest statement or member
as `Trivia` and are converted one by one: `Comment.convert` turns a Basic comment into a C# comment
and leaves a C# comment alone.
-/

namespace Sharpen

/-- Comments attached to a statement or member: whole lines before it, and at most one behind it. -/
structure Trivia where
  /-- whole-line comments, in order -/
  leading : List String := []
  /-- a comment on the same line -/
  trailing : Option String := none
  deriving DecidableEq, Inhabited

namespace Comment

/-- The characters of the comment keyword `REM`, in lower case. -/
def remark : List Char := ['r', 'e', 'm']

/-- What follows the keyword `REM` when it opens a comment: nothing, or a text that starts with a
blank. -/
def afterRemark? (cs : List Char) : Option (List Char) :=
  if (cs.take 3).map Char.toLower = remark then
    match cs.drop 3 with
    | [] => some []
    | c :: rest => if Text.isBlank c then some (c :: rest) else none
  else none

/-- The C# comment for a list of characters that does not start with a blank. Three apostrophes open
a documentation comment, one apostrophe or `REM` a plain one; a C# comment stays as it is, and any
other text is put behind a comment mark. -/
def convertTrimmed (cs : List Char) : List Char :=
  let apostrophe := Char.ofNat 39
  match Text.afterStart? [apostrophe, apostrophe, apostrophe] cs with
  | some rest => '/' :: '/' :: '/' :: rest
  | none =>
    match Text.afterStart? [apostrophe] cs with
    | some rest => '/' :: '/' :: rest
    | none =>
      match afterRemark? cs with
      | some rest => '/' :: '/' :: rest
      | none =>
        if (Text.afterStart? ['/', '/'] cs).isSome ||
          (Text.afterStart? ['/', '*'] cs).isSome then cs
        else '/' :: '/' :: ' ' :: cs

/-- The C# comment that stands for a comment text. -/
def convert (text : String) : String :=
  String.ofList (convertTrimmed (Text.dropBlanks text.toList))

end Comment

namespace Trivia

def isEmpty (trivia : Trivia) : Bool :=
  trivia.leading.isEmpty && trivia.trailing.isNone

/-- Every comment converted, none added or lost. -/
def convert (trivia : Trivia) : Trivia where
  leading := trivia.leading.map Comment.convert
  trailing := trivia.trailing.map Comment.convert

/-- All comments in the order in which they are read. -/
def comments (trivia : Trivia) : List String :=
  trivia.leading ++ trivia.trailing.toList

end Trivia

end Sharpen
