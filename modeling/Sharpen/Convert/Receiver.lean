import Std.Data.HashSet
import Sharpen.Convert.Monad

/-!
# Names for the targets of `With` blocks

The target of a `With` block is put into a variable with a name of its own. It must differ from the
variables of the blocks around it and from every name that is visible inside the block.
-/

namespace Sharpen

/-- How many numbered names are tried. -/
def uniqueNameLimit : Nat := 10000

/-- The names that are tried: the name itself, then the name with a number behind it. -/
def candidateNames (base : String) : List String :=
  base :: (List.range uniqueNameLimit).map fun n => base ++ toString (n + 1)

/-- The first candidate that is neither an active receiver nor reserved. -/
def uniqueName (receivers : List String) (base : String) (reserved : List String) :
    Except ConversionError String :=
  let taken := Std.HashSet.ofList (receivers ++ reserved)
  match (candidateNames base).find? fun name => !taken.contains name with
  | some name => .ok name
  | none => .error (.unsupported "WithBlock" ("no free name for the " ++ base ++ " temporary"))

end Sharpen
