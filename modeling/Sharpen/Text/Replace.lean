/-!
# Replacing a text in a text

Occurrences are taken from left to right and do not overlap: after one is found the search goes on
behind it, and what was put in its place is not searched again.
-/

namespace Sharpen.Text

/-- Replaces in what follows the first `skip` characters, which belong to an occurrence already
replaced. -/
def replaceAfter (old new : List Char) : (skip : Nat) → List Char → List Char
  | _, [] => []
  | skip + 1, _ :: rest => replaceAfter old new skip rest
  | 0, c :: rest =>
    if old.isPrefixOf (c :: rest) then new ++ replaceAfter old new (old.length - 1) rest
    else c :: replaceAfter old new 0 rest

/-- Every occurrence of `old` becomes `new`. An empty `old` occurs nowhere. -/
def replaceAll (old new text : String) : String :=
  if old.isEmpty then text
  else String.ofList (replaceAfter old.toList new.toList 0 text.toList)

end Sharpen.Text
