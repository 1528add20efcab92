import Sharpen.Convert.Identifier
import Sharpen.Convert.Monad
import Sharpen.Target.Build

/-!
# Names and types

Names and types are converted piece by piece. Rank specifiers written on an array of arrays read
from the outside in in both languages and are gathered in one array type; a nullable array is an
array of nullable elements.
-/

namespace Sharpen

/-- The keyword of a predefined type; dates have none. -/
def Source.PredefinedType.keyword? : Source.PredefinedType → Option Target.PredefinedType
  | .boolean => some .bool
  | .byte => some .byte
  | .sbyte => some .sbyte
  | .char => some .char
  | .date => none
  | .decimal => some .decimal
  | .double => some .double
  | .single => some .float
  | .short => some .short
  | .ushort => some .ushort
  | .integer => some .int
  | .uinteger => some .uint
  | .long => some .long
  | .ulong => some .ulong
  | .object => some .object
  | .string => some .string

def dateTypeName : String := "System.DateTime"

def Source.PredefinedType.convert (type : Source.PredefinedType) : Target.TypeSyntax :=
  match type.keyword? with
  | some keyword => .predefined keyword
  | none => .dotted dateTypeName

/-- A type that the runtime knows by itself, written in the target. -/
def Model.SpecialType.keyword? : Model.SpecialType → Option Target.PredefinedType
  | .void => some .void
  | .object => some .object
  | .boolean => some .bool
  | .char => some .char
  | .sbyte => some .sbyte
  | .byte => some .byte
  | .int16 => some .short
  | .uint16 => some .ushort
  | .int32 => some .int
  | .uint32 => some .uint
  | .int64 => some .long
  | .uint64 => some .ulong
  | .decimal => some .decimal
  | .single => some .float
  | .double => some .double
  | .string => some .string
  | .dateTime => none

/-- A type of the semantic model written in the target. -/
def Model.TypeSymbol.written : Model.TypeSymbol → Target.TypeSyntax
  | ⟨displayName, _, special, _, elementType, _, _⟩ =>
    match special, elementType with
    | some known, _ =>
      match known.keyword? with
      | some keyword => .predefined keyword
      | none => .dotted dateTypeName
    | none, some element => .arrayOf element.written
    | none, none => .named (.identifier displayName)

/-- Rank specifiers without sizes. -/
def unsizedRanks (ranks : List UInt32) : List (List (Option Target.Expr)) :=
  ranks.map fun dimensions => Target.TypeSyntax.unsizedRank dimensions.toNat

mutual

def Source.SimpleName.convert : Source.SimpleName → Except ConversionError Target.Name
  | ⟨_, identifier, typeArguments⟩ =>
    if typeArguments.isEmpty then .ok (.identifier (convertIdentifier identifier))
    else
      match convertTypes typeArguments with
      | .ok arguments => .ok (.generic (convertIdentifier identifier) arguments)
      | .error error => .error error

/-- A name. The root namespace can only qualify another name. -/
def Source.Name.convert : Source.Name → Except ConversionError Target.Name
  | .simple name => name.convert
  | .qualified _ (.global _) right =>
    match right.convert with
    | .ok converted => .ok (.aliasQualified "global" converted)
    | .error error => .error error
  | .qualified _ left right =>
    match right.convert with
    | .error error => .error error
    | .ok converted =>
      match left.convert with
      | .ok qualifier => .ok (.qualified qualifier converted)
      | .error error => .error error
  | .global _ => .error (.unsupported "GlobalName" "Global must qualify a name")

def Source.TypeSyntax.convert : Source.TypeSyntax → Except ConversionError Target.TypeSyntax
  | .predefined _ keyword => .ok keyword.convert
  | .named name =>
    match name.convert with
    | .ok converted => .ok (.named converted)
    | .error error => .error error
  | .array _ element ranks =>
    match element.convert with
    | .ok converted => .ok (converted.withOuterRanks (unsizedRanks ranks))
    | .error error => .error error
  | .nullable _ element =>
    match element.convert with
    | .ok converted => .ok converted.nullableOf
    | .error error => .error error

def convertTypes : List Source.TypeSyntax → Except ConversionError (List Target.TypeSyntax)
  | [] => .ok []
  | type :: rest =>
    match type.convert with
    | .error error => .error error
    | .ok converted =>
      match convertTypes rest with
      | .ok others => .ok (converted :: others)
      | .error error => .error error

end

end Sharpen
