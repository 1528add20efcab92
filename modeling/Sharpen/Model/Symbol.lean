import Sharpen.Source.Token
import Sharpen.Text.Blank

/-!
# Symbols and types of a semantic model

What names and expressions of a source tree stand for: types, declared things with their parameters,
and constant values. A type symbol carries the spelling of the type in the target language.
-/

namespace Sharpen.Model

/-- Types that the runtime knows by itself. -/
inductive SpecialType where
  | void | object | boolean | char | sbyte | byte | int16 | uint16 | int32 | uint32 | int64 | uint64
  | decimal | single | double | string | dateTime
  deriving DecidableEq, Inhabited

instance : Vocabulary SpecialType where
  all := [.void, .object, .boolean, .char, .sbyte, .byte, .int16, .uint16, .int32, .uint32, .int64,
    .uint64, .decimal, .single, .double, .string, .dateTime]
  spelling
    | .void => "Void"
    | .object => "Object"
    | .boolean => "Boolean"
    | .char => "Char"
    | .sbyte => "SByte"
    | .byte => "Byte"
    | .int16 => "Int16"
    | .uint16 => "UInt16"
    | .int32 => "Int32"
    | .uint32 => "UInt32"
    | .int64 => "Int64"
    | .uint64 => "UInt64"
    | .decimal => "Decimal"
    | .single => "Single"
    | .double => "Double"
    | .string => "String"
    | .dateTime => "DateTime"

namespace SpecialType

/-- The type in the target language. -/
def displayName : SpecialType → String
  | .void => "void"
  | .object => "object"
  | .boolean => "bool"
  | .char => "char"
  | .sbyte => "sbyte"
  | .byte => "byte"
  | .int16 => "short"
  | .uint16 => "ushort"
  | .int32 => "int"
  | .uint32 => "uint"
  | .int64 => "long"
  | .uint64 => "ulong"
  | .decimal => "decimal"
  | .single => "float"
  | .double => "double"
  | .string => "string"
  | .dateTime => "DateTime"

/-- Types whose values are references. -/
def isReferenceType : SpecialType → Bool
  | .object | .string => true
  | _ => false

/-- Types of whole numbers. -/
def isIntegral : SpecialType → Bool
  | .sbyte | .byte | .int16 | .uint16 | .int32 | .uint32 | .int64 | .uint64 => true
  | _ => false

/-- The method that converts any value to the type, for the types that have one. -/
def conversionMethod? : SpecialType → Option String
  | .boolean => some "System.Convert.ToBoolean"
  | .byte => some "System.Convert.ToByte"
  | .char => some "System.Convert.ToChar"
  | .dateTime => some "System.Convert.ToDateTime"
  | .decimal => some "System.Convert.ToDecimal"
  | .double => some "System.Convert.ToDouble"
  | .int16 => some "System.Convert.ToInt16"
  | .int32 => some "System.Convert.ToInt32"
  | .int64 => some "System.Convert.ToInt64"
  | .sbyte => some "System.Convert.ToSByte"
  | .single => some "System.Convert.ToSingle"
  | .string => some "System.Convert.ToString"
  | .uint16 => some "System.Convert.ToUInt16"
  | .uint32 => some "System.Convert.ToUInt32"
  | .uint64 => some "System.Convert.ToUInt64"
  | .void | .object => none

/-- The type that a keyword names. -/
def ofKeyword : Source.PredefinedType → SpecialType
  | .boolean => .boolean
  | .byte => .byte
  | .sbyte => .sbyte
  | .char => .char
  | .date => .dateTime
  | .decimal => .decimal
  | .double => .double
  | .single => .single
  | .short => .int16
  | .ushort => .uint16
  | .integer => .int32
  | .uinteger => .uint32
  | .long => .int64
  | .ulong => .uint64
  | .object => .object
  | .string => .string

end SpecialType

/-- The kinds of types. `error` stands for a type that could not be found. -/
inductive TypeKind where
  | «class» | struct | enum | interface | delegate | array | module | typeParameter | error
  deriving DecidableEq, Inhabited

instance : Vocabulary TypeKind where
  all := [.class, .struct, .enum, .interface, .delegate, .array, .module, .typeParameter, .error]
  spelling
    | .class => "Class"
    | .struct => "Struct"
    | .enum => "Enum"
    | .interface => "Interface"
    | .delegate => "Delegate"
    | .array => "Array"
    | .module => "Module"
    | .typeParameter => "TypeParameter"
    | .error => "Error"

/-- A type. -/
structure TypeSymbol where
  /-- the type in the target language: `int`, `List<string>` -/
  displayName : String
  kind : TypeKind
  special : Option SpecialType
  isReferenceType : Bool
  /-- what an array holds -/
  elementType : Option TypeSymbol
  /-- what a delegate gives back -/
  delegateReturnType : Option TypeSymbol
  /-- anonymous types cannot be written down -/
  canBeNamed : Bool
  deriving Inhabited

namespace TypeSymbol

mutual

/-- Two descriptions that agree in every field. -/
def same : TypeSymbol → TypeSymbol → Bool
  | ⟨name, kind, special, isReference, element, returns, canBeNamed⟩,
    ⟨name', kind', special', isReference', element', returns', canBeNamed'⟩ =>
    name == name' && kind == kind' && special == special' && isReference == isReference' &&
      sameOption element element' && sameOption returns returns' && canBeNamed == canBeNamed'

/-- Two descriptions that agree, either of which may be absent. -/
def sameOption : Option TypeSymbol → Option TypeSymbol → Bool
  | none, none => true
  | some a, some b => same a b
  | _, _ => false

end

mutual

theorem same_iff : (a b : TypeSymbol) → (a.same b = true ↔ a = b)
  | ⟨_, _, _, _, element, returns, _⟩, ⟨_, _, _, _, element', returns', _⟩ => by
    simp [same, sameOption_iff element element', sameOption_iff returns returns', and_assoc]

theorem sameOption_iff : (a b : Option TypeSymbol) → (sameOption a b = true ↔ a = b)
  | none, none => by simp [sameOption]
  | none, some _ => by simp [sameOption]
  | some _, none => by simp [sameOption]
  | some a, some b => by simp [sameOption, same_iff a b]

end

instance : DecidableEq TypeSymbol := fun a b =>
  decidable_of_iff (a.same b = true) (same_iff a b)

/-- A type that the runtime knows by itself. -/
def ofSpecial (special : SpecialType) : TypeSymbol where
  displayName := special.displayName
  kind := if special.isReferenceType then .class else .struct
  special := some special
  isReferenceType := special.isReferenceType
  elementType := none
  delegateReturnType := none
  canBeNamed := true

def named (displayName : String) (kind : TypeKind) : TypeSymbol where
  displayName
  kind
  special := none
  isReferenceType :=
    match kind with
    | .class | .interface | .delegate | .array => true
    | _ => false
  elementType := none
  delegateReturnType := none
  canBeNamed := true

/-- The type of arrays of one dimension. -/
def arrayOf (element : TypeSymbol) : TypeSymbol where
  displayName := element.displayName ++ "[]"
  kind := .array
  special := none
  isReferenceType := true
  elementType := some element
  delegateReturnType := none
  canBeNamed := true

def delegate (displayName : String) (returns : Option TypeSymbol) : TypeSymbol :=
  { named displayName .delegate with delegateReturnType := returns }

/-- The type of all values. -/
def object : TypeSymbol :=
  ofSpecial .object

def isArray (type : TypeSymbol) : Bool :=
  type.kind == .array

def isVoid (type : TypeSymbol) : Bool :=
  type.special == some .void

def isError (type : TypeSymbol) : Bool :=
  type.kind == .error

/-- Types for which the target writes `default(T)` where it writes `null` for others. A type
parameter is of neither kind. -/
def isValueType (type : TypeSymbol) : Bool :=
  !type.isReferenceType && (type.kind == .struct || type.kind == .enum)

/-- The method that converts any value to the type. -/
def conversionMethod? (type : TypeSymbol) : Option String :=
  type.special.bind SpecialType.conversionMethod?

end TypeSymbol

/-- The kinds of declared things. -/
inductive SymbolKind where
  | method | property | field | local | parameter | event | namedType | namespace | label
  deriving DecidableEq, Inhabited

instance : Vocabulary SymbolKind where
  all := [.method, .property, .field, .local, .parameter, .event, .namedType, .namespace, .label]
  spelling
    | .method => "Method"
    | .property => "Property"
    | .field => "Field"
    | .local => "Local"
    | .parameter => "Parameter"
    | .event => "Event"
    | .namedType => "NamedType"
    | .namespace => "Namespace"
    | .label => "Label"

/-- How a parameter takes its argument. -/
inductive RefKind where
  | none | ref | out
  deriving DecidableEq, Inhabited

instance : Vocabulary RefKind where
  all := [.none, .ref, .out]
  spelling
    | .none => "None"
    | .ref => "Ref"
    | .out => "Out"

/-- A parameter of a declared thing. -/
structure ParameterSymbol where
  name : String
  refKind : RefKind
  /-- the parameter takes all remaining arguments -/
  isParams : Bool
  type : Option TypeSymbol
  deriving Inhabited

/-- A declared thing. -/
structure Symbol where
  name : String
  kind : SymbolKind
  /-- a property with parameters -/
  isIndexer : Bool
  /-- the type of a variable, or what a method gives back -/
  type : Option TypeSymbol
  parameters : List ParameterSymbol
  /-- the type that declares it -/
  containingType : Option String
  deriving Inhabited

namespace Symbol

/-- A thing of which only name and kind are known. -/
def named (name : String) (kind : SymbolKind) : Symbol where
  name
  kind
  isIndexer := false
  type := none
  parameters := []
  containingType := none

def isMethod (symbol : Symbol) : Bool :=
  symbol.kind == .method

/-- What a method gives back, if it gives anything. -/
def returnType? (symbol : Symbol) : Option TypeSymbol :=
  if symbol.isMethod then symbol.type.filter fun type => !type.isVoid else none

/-- How the argument at `position`, or the one with the given name, is taken. Names do not
distinguish case; arguments that no parameter is there for are taken by value. -/
def passing (callee : Symbol) (position : Nat) (name : Option String) : RefKind :=
  let parameter? : Option ParameterSymbol :=
    match name with
    | some name =>
      callee.parameters.find? fun parameter => Text.sameIgnoringCase parameter.name name
    | none => callee.parameters[position]?
  match parameter? with
  | some parameter => if parameter.isParams then .none else parameter.refKind
  | none => .none

end Symbol

/-- Whether `target(arguments)` reads an element instead of calling: the whole is an indexer, or the
target is a variable that holds an array. -/
def readsElement (whole target : Option Symbol) : Bool :=
  whole.any (·.isIndexer) ||
    target.any fun symbol => !symbol.isMethod && symbol.type.any TypeSymbol.isArray

/-- The value of a constant expression. A floating-point number is held as its bits. -/
inductive ConstantValue where
  | null
  | boolean (value : Bool)
  | integer (value : Int)
  | float (bits : UInt64)
  | string (value : String)
  | char (value : Char)
  deriving DecidableEq, Inhabited

def ConstantValue.integer? : ConstantValue → Option Int
  | .integer value => some value
  | _ => none

end Sharpen.Model
