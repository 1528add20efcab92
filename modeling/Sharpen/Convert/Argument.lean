import Sharpen.Convert.Inner
import Sharpen.Convert.Numeral
import Sharpen.Source.Kind

/-!
# Arguments and array bounds

An argument is passed by reference when the callee asks for it and the argument is something that
can be referred to. A bound of an array is the last index in the source and the number of elements
in the target.
-/

namespace Sharpen

open Model (Symbol)
open Target (TypeSyntax)

/-- Expressions that can be passed by reference. One in parentheses is a copy. -/
def Source.Expr.isReferable : Source.Expr → Bool
  | .name _ => true
  | .memberAccess .. => true
  | .invocation .. => true
  | _ => false

def Source.Expr.isOne : Source.Expr → Bool
  | .literal _ (.numeric text) => text == "1"
  | _ => false

def Model.RefKind.passing? : Model.RefKind → Option Target.Passing
  | .none => Option.none
  | .ref => some .ref
  | .out => some .out

namespace Inner

/-- An argument of a call. Without a known callee it is passed by value. -/
def argument (inner : Inner) (callee : Option Symbol) (position : Nat) :
    Source.Argument → Convert Target.Argument
  | .simple _ name value => do
    let passing : Model.RefKind :=
      match callee with
      | some callee => if value.isReferable then callee.passing position name else .none
      | none => .none
    return ⟨name.map convertIdentifier, passing.passing?, ← inner.value value⟩
  | .omitted _ => Convert.unsupported "OmittedArgument" "omitted arguments have no C# form"

def arguments (inner : Inner) (callee : Option Symbol) (arguments : List Source.Argument) :
    Convert (List Target.Argument) :=
  arguments.zipIdx.mapM fun (argument, position) => inner.argument callee position argument

/-- The size of a dimension whose last index is a known number. -/
def knownSize? (inner : Inner) (bound : Source.Expr) : Option Int :=
  match (inner.table.integer? bound.id).bind Numeral.next? with
  | some size => some size
  | none =>
    match bound with
    | .literal _ (.numeric text) => (Numeral.integer? text).bind Numeral.next?
    | _ => none

/-- The size of a dimension. A last index `n - 1` is the usual way to write the size `n`. -/
def size (inner : Inner) : Source.Argument → Convert Target.Expr
  | .simple _ _ bound =>
    match inner.knownSize? bound with
    | some size => return .number (toString size)
    | none => do
      match bound with
      | .binary _ .subtract left right =>
        if right.isOne then inner.value left
        else return .binary (← inner.value bound) .add (.number "1")
      | _ => return .binary (← inner.value bound) .add (.number "1")
  | .omitted _ => Convert.unsupported "ArrayBounds" "an array bound cannot be omitted here"

/-- An argument that is left out. -/
def isOmitted : Source.Argument → Bool
  | .omitted _ => true
  | .simple .. => false

/-- The rank specifier for a list of bounds: sizes when they are given, none when all are left out.
-/
def boundsRank (inner : Inner) (bounds : List Source.Argument) :
    Convert (List (Option Target.Expr)) :=
  if bounds.isEmpty then return TypeSyntax.unsizedRank 1
  else if bounds.all isOmitted then return TypeSyntax.unsizedRank bounds.length
  else bounds.mapM fun bound => return some (← inner.size bound)

end Inner

end Sharpen
