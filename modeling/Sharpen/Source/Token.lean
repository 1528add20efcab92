import Sharpen.Vocabulary

/-!
# Words of the source language

The closed vocabularies of Visual Basic trees: type keywords, modifiers, operators and the kinds of
blocks. Each is an enumeration with the spelling that trees use for it.
-/

namespace Sharpen.Source

/-- Types with a keyword of their own. -/
inductive PredefinedType where
  | boolean | byte | sbyte | char | date | decimal | double | single | short | ushort | integer
  | uinteger | long | ulong | object | string
  deriving DecidableEq, Inhabited

instance : Vocabulary PredefinedType where
  all := [.boolean, .byte, .sbyte, .char, .date, .decimal, .double, .single, .short, .ushort,
    .integer, .uinteger, .long, .ulong, .object, .string]
  spelling
    | .boolean => "Boolean"
    | .byte => "Byte"
    | .sbyte => "SByte"
    | .char => "Char"
    | .date => "Date"
    | .decimal => "Decimal"
    | .double => "Double"
    | .single => "Single"
    | .short => "Short"
    | .ushort => "UShort"
    | .integer => "Integer"
    | .uinteger => "UInteger"
    | .long => "Long"
    | .ulong => "ULong"
    | .object => "Object"
    | .string => "String"

/-- Words that may stand before a declaration, a parameter or a lambda. -/
inductive Modifier where
  | «public» | «private» | «protected» | friend | shared | shadows | overloads | overridable
  | overrides | notOverridable | mustOverride | mustInherit | notInheritable | readOnly
  | writeOnly | «partial» | default | withEvents | widening | narrowing | const | dim | static
  | byVal | byRef | optional | paramArray | async | iterator | custom | key
  deriving DecidableEq, Inhabited

instance : Vocabulary Modifier where
  all := [.public, .private, .protected, .friend, .shared, .shadows, .overloads, .overridable,
    .overrides, .notOverridable, .mustOverride, .mustInherit, .notInheritable, .readOnly,
    .writeOnly, .partial, .default, .withEvents, .widening, .narrowing, .const, .dim, .static,
    .byVal, .byRef, .optional, .paramArray, .async, .iterator, .custom, .key]
  spelling
    | .public => "Public"
    | .private => "Private"
    | .protected => "Protected"
    | .friend => "Friend"
    | .shared => "Shared"
    | .shadows => "Shadows"
    | .overloads => "Overloads"
    | .overridable => "Overridable"
    | .overrides => "Overrides"
    | .notOverridable => "NotOverridable"
    | .mustOverride => "MustOverride"
    | .mustInherit => "MustInherit"
    | .notInheritable => "NotInheritable"
    | .readOnly => "ReadOnly"
    | .writeOnly => "WriteOnly"
    | .partial => "Partial"
    | .default => "Default"
    | .withEvents => "WithEvents"
    | .widening => "Widening"
    | .narrowing => "Narrowing"
    | .const => "Const"
    | .dim => "Dim"
    | .static => "Static"
    | .byVal => "ByVal"
    | .byRef => "ByRef"
    | .optional => "Optional"
    | .paramArray => "ParamArray"
    | .async => "Async"
    | .iterator => "Iterator"
    | .custom => "Custom"
    | .key => "Key"

/-- Modifiers that say who may see a declaration. -/
def Modifier.isVisibility : Modifier → Bool
  | .public | .private | .protected | .friend => true
  | _ => false

/-- What an attribute of a whole file applies to. -/
inductive AttributeTarget where
  | assembly | module
  deriving DecidableEq, Inhabited

instance : Vocabulary AttributeTarget where
  all := [.assembly, .module]
  spelling
    | .assembly => "Assembly"
    | .module => "Module"

/-- Direction in which a type parameter may vary. -/
inductive Variance where
  | in | out
  deriving DecidableEq, Inhabited

instance : Vocabulary Variance where
  all := [.in, .out]
  spelling
    | .in => "In"
    | .out => "Out"

/-- Operators between two expressions. -/
inductive BinaryOperator where
  | add | subtract | multiply | divide | integerDivide | modulo | power | concatenate | leftShift
  | rightShift | equals | notEquals | lessThan | lessThanOrEqual | greaterThan
  | greaterThanOrEqual | is | isNot | like | and | or | xor | andAlso | orElse
  deriving DecidableEq, Inhabited

instance : Vocabulary BinaryOperator where
  all := [.add, .subtract, .multiply, .divide, .integerDivide, .modulo, .power, .concatenate,
    .leftShift, .rightShift, .equals, .notEquals, .lessThan, .lessThanOrEqual, .greaterThan,
    .greaterThanOrEqual, .is, .isNot, .like, .and, .or, .xor, .andAlso, .orElse]
  spelling
    | .add => "Add"
    | .subtract => "Subtract"
    | .multiply => "Multiply"
    | .divide => "Divide"
    | .integerDivide => "IntegerDivide"
    | .modulo => "Modulo"
    | .power => "Power"
    | .concatenate => "Concatenate"
    | .leftShift => "LeftShift"
    | .rightShift => "RightShift"
    | .equals => "Equals"
    | .notEquals => "NotEquals"
    | .lessThan => "LessThan"
    | .lessThanOrEqual => "LessThanOrEqual"
    | .greaterThan => "GreaterThan"
    | .greaterThanOrEqual => "GreaterThanOrEqual"
    | .is => "Is"
    | .isNot => "IsNot"
    | .like => "Like"
    | .and => "And"
    | .or => "Or"
    | .xor => "Xor"
    | .andAlso => "AndAlso"
    | .orElse => "OrElse"

/-- Operators before one expression. -/
inductive UnaryOperator where
  | plus | minus | not | addressOf
  deriving DecidableEq, Inhabited

instance : Vocabulary UnaryOperator where
  all := [.plus, .minus, .not, .addressOf]
  spelling
    | .plus => "Plus"
    | .minus => "Minus"
    | .not => "Not"
    | .addressOf => "AddressOf"

/-- Operators of assignment statements. -/
inductive AssignmentOperator where
  | simple | add | subtract | multiply | divide | integerDivide | power | concatenate | leftShift
  | rightShift
  deriving DecidableEq, Inhabited

instance : Vocabulary AssignmentOperator where
  all := [.simple, .add, .subtract, .multiply, .divide, .integerDivide, .power, .concatenate,
    .leftShift, .rightShift]
  spelling
    | .simple => "Simple"
    | .add => "Add"
    | .subtract => "Subtract"
    | .multiply => "Multiply"
    | .divide => "Divide"
    | .integerDivide => "IntegerDivide"
    | .power => "Power"
    | .concatenate => "Concatenate"
    | .leftShift => "LeftShift"
    | .rightShift => "RightShift"

/-- Operators that a type may declare. -/
inductive OverloadableOperator where
  | plus | minus | multiply | divide | integerDivide | modulo | power | concatenate | like
  | equals | notEquals | lessThan | lessThanOrEqual | greaterThan | greaterThanOrEqual | and | or
  | xor | not | leftShift | rightShift | isTrue | isFalse | ctype
  deriving DecidableEq, Inhabited

instance : Vocabulary OverloadableOperator where
  all := [.plus, .minus, .multiply, .divide, .integerDivide, .modulo, .power, .concatenate, .like,
    .equals, .notEquals, .lessThan, .lessThanOrEqual, .greaterThan, .greaterThanOrEqual, .and,
    .or, .xor, .not, .leftShift, .rightShift, .isTrue, .isFalse, .ctype]
  spelling
    | .plus => "Plus"
    | .minus => "Minus"
    | .multiply => "Multiply"
    | .divide => "Divide"
    | .integerDivide => "IntegerDivide"
    | .modulo => "Modulo"
    | .power => "Power"
    | .concatenate => "Concatenate"
    | .like => "Like"
    | .equals => "Equals"
    | .notEquals => "NotEquals"
    | .lessThan => "LessThan"
    | .lessThanOrEqual => "LessThanOrEqual"
    | .greaterThan => "GreaterThan"
    | .greaterThanOrEqual => "GreaterThanOrEqual"
    | .and => "And"
    | .or => "Or"
    | .xor => "Xor"
    | .not => "Not"
    | .leftShift => "LeftShift"
    | .rightShift => "RightShift"
    | .isTrue => "IsTrue"
    | .isFalse => "IsFalse"
    | .ctype => "CType"

/-- Casts that name their target type. -/
inductive CastKind where
  | ctype | directCast | tryCast
  deriving DecidableEq, Inhabited

instance : Vocabulary CastKind where
  all := [.ctype, .directCast, .tryCast]
  spelling
    | .ctype => "CType"
    | .directCast => "DirectCast"
    | .tryCast => "TryCast"

/-- Casts whose keyword implies the target type. -/
inductive CastKeyword where
  | cBool | cByte | cChar | cDate | cDbl | cDec | cInt | cLng | cObj | cSByte | cShort | cSng
  | cStr | cUInt | cULng | cUShort
  deriving DecidableEq, Inhabited

instance : Vocabulary CastKeyword where
  all := [.cBool, .cByte, .cChar, .cDate, .cDbl, .cDec, .cInt, .cLng, .cObj, .cSByte, .cShort,
    .cSng, .cStr, .cUInt, .cULng, .cUShort]
  spelling
    | .cBool => "CBool"
    | .cByte => "CByte"
    | .cChar => "CChar"
    | .cDate => "CDate"
    | .cDbl => "CDbl"
    | .cDec => "CDec"
    | .cInt => "CInt"
    | .cLng => "CLng"
    | .cObj => "CObj"
    | .cSByte => "CSByte"
    | .cShort => "CShort"
    | .cSng => "CSng"
    | .cStr => "CStr"
    | .cUInt => "CUInt"
    | .cULng => "CULng"
    | .cUShort => "CUShort"

/-- The type that a cast keyword converts to. -/
def CastKeyword.target : CastKeyword → PredefinedType
  | .cBool => .boolean
  | .cByte => .byte
  | .cChar => .char
  | .cDate => .date
  | .cDbl => .double
  | .cDec => .decimal
  | .cInt => .integer
  | .cLng => .long
  | .cObj => .object
  | .cSByte => .sbyte
  | .cShort => .short
  | .cSng => .single
  | .cStr => .string
  | .cUInt => .uinteger
  | .cULng => .ulong
  | .cUShort => .ushort

/-- Procedures give no value, functions give one. -/
inductive MethodKind where
  | sub | function
  deriving DecidableEq, Inhabited

instance : Vocabulary MethodKind where
  all := [.sub, .function]
  spelling
    | .sub => "Sub"
    | .function => "Function"

/-- Blocks that an `Exit` or `Continue` statement can name. -/
inductive BlockKind where
  | sub | function | property | operator | do | for | while | select | try
  deriving DecidableEq, Inhabited

instance : Vocabulary BlockKind where
  all := [.sub, .function, .property, .operator, .do, .for, .while, .select, .try]
  spelling
    | .sub => "Sub"
    | .function => "Function"
    | .property => "Property"
    | .operator => "Operator"
    | .do => "Do"
    | .for => "For"
    | .while => "While"
    | .select => "Select"
    | .try => "Try"

/-- Whether a loop runs while its test holds or until it does. -/
inductive TestKind where
  | while | until
  deriving DecidableEq, Inhabited

instance : Vocabulary TestKind where
  all := [.while, .until]
  spelling
    | .while => "While"
    | .until => "Until"

/-- Kinds of type declarations that have members. -/
inductive TypeBlockKind where
  | «class» | module | «structure» | interface
  deriving DecidableEq, Inhabited

instance : Vocabulary TypeBlockKind where
  all := [.class, .module, .structure, .interface]
  spelling
    | .class => "Class"
    | .module => "Module"
    | .structure => "Structure"
    | .interface => "Interface"

/-- Parts of properties and events that run code. -/
inductive AccessorKind where
  | get | set | addHandler | removeHandler | raiseEvent
  deriving DecidableEq, Inhabited

instance : Vocabulary AccessorKind where
  all := [.get, .set, .addHandler, .removeHandler, .raiseEvent]
  spelling
    | .get => "Get"
    | .set => "Set"
    | .addHandler => "AddHandler"
    | .removeHandler => "RemoveHandler"
    | .raiseEvent => "RaiseEvent"

end Sharpen.Source
