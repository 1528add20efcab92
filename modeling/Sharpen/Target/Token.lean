import Sharpen.Vocabulary

/-!
# Words of the target language

The keywords and operators that C# text is made of. Each enumeration comes with the token that is
printed for it and with the spelling that trees use for it.
-/

namespace Sharpen.Target

/-- Types with a keyword of their own. -/
inductive PredefinedType where
  | bool | byte | sbyte | char | decimal | double | float | int | uint | long | ulong | object
  | short | ushort | string | void
  deriving DecidableEq, Inhabited

instance : Vocabulary PredefinedType where
  all := [.bool, .byte, .sbyte, .char, .decimal, .double, .float, .int, .uint, .long, .ulong,
    .object, .short, .ushort, .string, .void]
  spelling
    | .bool => "Bool"
    | .byte => "Byte"
    | .sbyte => "SByte"
    | .char => "Char"
    | .decimal => "Decimal"
    | .double => "Double"
    | .float => "Float"
    | .int => "Int"
    | .uint => "UInt"
    | .long => "Long"
    | .ulong => "ULong"
    | .object => "Object"
    | .short => "Short"
    | .ushort => "UShort"
    | .string => "String"
    | .void => "Void"

def PredefinedType.keyword : PredefinedType → String
  | .bool => "bool"
  | .byte => "byte"
  | .sbyte => "sbyte"
  | .char => "char"
  | .decimal => "decimal"
  | .double => "double"
  | .float => "float"
  | .int => "int"
  | .uint => "uint"
  | .long => "long"
  | .ulong => "ulong"
  | .object => "object"
  | .short => "short"
  | .ushort => "ushort"
  | .string => "string"
  | .void => "void"

/-- Words that may stand before a declaration or a parameter. -/
inductive Modifier where
  | «public» | «private» | «protected» | internal | static | abstract | virtual | override
  | sealed | readonly | const | new | «partial» | async | implicit | explicit | external | ref
  | out | params | event
  deriving DecidableEq, Inhabited

instance : Vocabulary Modifier where
  all := [.public, .private, .protected, .internal, .static, .abstract, .virtual, .override,
    .sealed, .readonly, .const, .new, .partial, .async, .implicit, .explicit, .external, .ref,
    .out, .params, .event]
  spelling
    | .public => "Public"
    | .private => "Private"
    | .protected => "Protected"
    | .internal => "Internal"
    | .static => "Static"
    | .abstract => "Abstract"
    | .virtual => "Virtual"
    | .override => "Override"
    | .sealed => "Sealed"
    | .readonly => "Readonly"
    | .const => "Const"
    | .new => "New"
    | .partial => "Partial"
    | .async => "Async"
    | .implicit => "Implicit"
    | .explicit => "Explicit"
    | .external => "Extern"
    | .ref => "Ref"
    | .out => "Out"
    | .params => "Params"
    | .event => "Event"

def Modifier.keyword : Modifier → String
  | .public => "public"
  | .private => "private"
  | .protected => "protected"
  | .internal => "internal"
  | .static => "static"
  | .abstract => "abstract"
  | .virtual => "virtual"
  | .override => "override"
  | .sealed => "sealed"
  | .readonly => "readonly"
  | .const => "const"
  | .new => "new"
  | .partial => "partial"
  | .async => "async"
  | .implicit => "implicit"
  | .explicit => "explicit"
  | .external => "extern"
  | .ref => "ref"
  | .out => "out"
  | .params => "params"
  | .event => "event"

/-- Modifiers that say who may see a declaration. -/
def Modifier.isAccessibility : Modifier → Bool
  | .public | .private | .protected | .internal => true
  | _ => false

/-- What an attribute list applies to when it is not the declaration that follows. -/
inductive AttributeTarget where
  | assembly | module | return
  deriving DecidableEq, Inhabited

instance : Vocabulary AttributeTarget where
  all := [.assembly, .module, .return]
  spelling
    | .assembly => "Assembly"
    | .module => "Module"
    | .return => "Return"

/-- The mark that opens an attribute list with a target. -/
def AttributeTarget.label : AttributeTarget → String
  | .assembly => "assembly: "
  | .module => "module: "
  | .return => "return: "

/-- Direction in which a type parameter may vary. -/
inductive Variance where
  | in | out
  deriving DecidableEq, Inhabited

instance : Vocabulary Variance where
  all := [.in, .out]
  spelling
    | .in => "In"
    | .out => "Out"

def Variance.keyword : Variance → String
  | .in => "in"
  | .out => "out"

/-- Operators between two expressions. -/
inductive BinaryOperator where
  | add | subtract | multiply | divide | modulo | leftShift | rightShift | equals | notEquals
  | lessThan | lessThanOrEqual | greaterThan | greaterThanOrEqual | bitwiseAnd | bitwiseOr
  | exclusiveOr | logicalAnd | logicalOr | coalesce
  deriving DecidableEq, Inhabited

instance : Vocabulary BinaryOperator where
  all := [.add, .subtract, .multiply, .divide, .modulo, .leftShift, .rightShift, .equals,
    .notEquals, .lessThan, .lessThanOrEqual, .greaterThan, .greaterThanOrEqual, .bitwiseAnd,
    .bitwiseOr, .exclusiveOr, .logicalAnd, .logicalOr, .coalesce]
  spelling
    | .add => "Add"
    | .subtract => "Subtract"
    | .multiply => "Multiply"
    | .divide => "Divide"
    | .modulo => "Modulo"
    | .leftShift => "LeftShift"
    | .rightShift => "RightShift"
    | .equals => "Equals"
    | .notEquals => "NotEquals"
    | .lessThan => "LessThan"
    | .lessThanOrEqual => "LessThanOrEqual"
    | .greaterThan => "GreaterThan"
    | .greaterThanOrEqual => "GreaterThanOrEqual"
    | .bitwiseAnd => "BitwiseAnd"
    | .bitwiseOr => "BitwiseOr"
    | .exclusiveOr => "ExclusiveOr"
    | .logicalAnd => "LogicalAnd"
    | .logicalOr => "LogicalOr"
    | .coalesce => "Coalesce"

def BinaryOperator.token : BinaryOperator → String
  | .add => "+"
  | .subtract => "-"
  | .multiply => "*"
  | .divide => "/"
  | .modulo => "%"
  | .leftShift => "<<"
  | .rightShift => ">>"
  | .equals => "=="
  | .notEquals => "!="
  | .lessThan => "<"
  | .lessThanOrEqual => "<="
  | .greaterThan => ">"
  | .greaterThanOrEqual => ">="
  | .bitwiseAnd => "&"
  | .bitwiseOr => "|"
  | .exclusiveOr => "^"
  | .logicalAnd => "&&"
  | .logicalOr => "||"
  | .coalesce => "??"

/-- Operators of assignment expressions. -/
inductive AssignmentOperator where
  | simple | add | subtract | multiply | divide | modulo | leftShift | rightShift | and | or
  | exclusiveOr
  deriving DecidableEq, Inhabited

instance : Vocabulary AssignmentOperator where
  all := [.simple, .add, .subtract, .multiply, .divide, .modulo, .leftShift, .rightShift, .and,
    .or, .exclusiveOr]
  spelling
    | .simple => "Simple"
    | .add => "Add"
    | .subtract => "Subtract"
    | .multiply => "Multiply"
    | .divide => "Divide"
    | .modulo => "Modulo"
    | .leftShift => "LeftShift"
    | .rightShift => "RightShift"
    | .and => "And"
    | .or => "Or"
    | .exclusiveOr => "ExclusiveOr"

def AssignmentOperator.token : AssignmentOperator → String
  | .simple => "="
  | .add => "+="
  | .subtract => "-="
  | .multiply => "*="
  | .divide => "/="
  | .modulo => "%="
  | .leftShift => "<<="
  | .rightShift => ">>="
  | .and => "&="
  | .or => "|="
  | .exclusiveOr => "^="

/-- Operators before one expression. -/
inductive PrefixOperator where
  | plus | minus | logicalNot | bitwiseNot | increment | decrement
  deriving DecidableEq, Inhabited

instance : Vocabulary PrefixOperator where
  all := [.plus, .minus, .logicalNot, .bitwiseNot, .increment, .decrement]
  spelling
    | .plus => "Plus"
    | .minus => "Minus"
    | .logicalNot => "LogicalNot"
    | .bitwiseNot => "BitwiseNot"
    | .increment => "Increment"
    | .decrement => "Decrement"

/-- The token of an operator before its operand. -/
def PrefixOperator.token : PrefixOperator → String
  | .plus => "+"
  | .minus => "-"
  | .logicalNot => "!"
  | .bitwiseNot => "~"
  | .increment => "++"
  | .decrement => "--"

/-- Operators behind one expression. -/
inductive PostfixOperator where
  | increment | decrement
  deriving DecidableEq, Inhabited

instance : Vocabulary PostfixOperator where
  all := [.increment, .decrement]
  spelling
    | .increment => "Increment"
    | .decrement => "Decrement"

/-- The token of an operator behind its operand. -/
def PostfixOperator.token : PostfixOperator → String
  | .increment => "++"
  | .decrement => "--"

/-- How an argument is handed over when it is not by value. -/
inductive Passing where
  | ref | out
  deriving DecidableEq, Inhabited

instance : Vocabulary Passing where
  all := [.ref, .out]
  spelling
    | .ref => "Ref"
    | .out => "Out"

/-- The keyword of a passing mode. -/
def Passing.keyword : Passing → String
  | .ref => "ref"
  | .out => "out"

/-- What a braced initializer builds. -/
inductive BracesKind where
  | collection | object | array
  deriving DecidableEq, Inhabited

instance : Vocabulary BracesKind where
  all := [.collection, .object, .array]
  spelling
    | .collection => "Collection"
    | .object => "Object"
    | .array => "Array"

/-- Kinds of type declarations that have members. -/
inductive TypeKeyword where
  | «class» | struct | interface
  deriving DecidableEq, Inhabited

instance : Vocabulary TypeKeyword where
  all := [.class, .struct, .interface]
  spelling
    | .class => "Class"
    | .struct => "Struct"
    | .interface => "Interface"

/-- The keyword of a type declaration. -/
def TypeKeyword.keyword : TypeKeyword → String
  | .class => "class"
  | .struct => "struct"
  | .interface => "interface"

/-- Parts of properties and events that run code. -/
inductive AccessorKind where
  | get | set | add | remove
  deriving DecidableEq, Inhabited

instance : Vocabulary AccessorKind where
  all := [.get, .set, .add, .remove]
  spelling
    | .get => "Get"
    | .set => "Set"
    | .add => "Add"
    | .remove => "Remove"

def AccessorKind.keyword : AccessorKind → String
  | .get => "get"
  | .set => "set"
  | .add => "add"
  | .remove => "remove"

/-- Operators that a type may declare. -/
inductive OperatorToken where
  | plus | minus | multiply | divide | modulo | equals | notEquals | lessThan | lessThanOrEqual
  | greaterThan | greaterThanOrEqual | bitwiseAnd | bitwiseOr | exclusiveOr | logicalNot
  | leftShift | rightShift | true | false
  deriving DecidableEq, Inhabited

instance : Vocabulary OperatorToken where
  all := [.plus, .minus, .multiply, .divide, .modulo, .equals, .notEquals, .lessThan,
    .lessThanOrEqual, .greaterThan, .greaterThanOrEqual, .bitwiseAnd, .bitwiseOr, .exclusiveOr,
    .logicalNot, .leftShift, .rightShift, .true, .false]
  spelling
    | .plus => "Plus"
    | .minus => "Minus"
    | .multiply => "Multiply"
    | .divide => "Divide"
    | .modulo => "Modulo"
    | .equals => "Equals"
    | .notEquals => "NotEquals"
    | .lessThan => "LessThan"
    | .lessThanOrEqual => "LessThanOrEqual"
    | .greaterThan => "GreaterThan"
    | .greaterThanOrEqual => "GreaterThanOrEqual"
    | .bitwiseAnd => "BitwiseAnd"
    | .bitwiseOr => "BitwiseOr"
    | .exclusiveOr => "ExclusiveOr"
    | .logicalNot => "LogicalNot"
    | .leftShift => "LeftShift"
    | .rightShift => "RightShift"
    | .true => "True"
    | .false => "False"

/-- The token of a declared operator. -/
def OperatorToken.token : OperatorToken → String
  | .plus => "+"
  | .minus => "-"
  | .multiply => "*"
  | .divide => "/"
  | .modulo => "%"
  | .equals => "=="
  | .notEquals => "!="
  | .lessThan => "<"
  | .lessThanOrEqual => "<="
  | .greaterThan => ">"
  | .greaterThanOrEqual => ">="
  | .bitwiseAnd => "&"
  | .bitwiseOr => "|"
  | .exclusiveOr => "^"
  | .logicalNot => "!"
  | .leftShift => "<<"
  | .rightShift => ">>"
  | .true => "true"
  | .false => "false"

/-- Which constructor a constructor calls first. -/
inductive ChainKind where
  | base | this
  deriving DecidableEq, Inhabited

instance : Vocabulary ChainKind where
  all := [.base, .this]
  spelling
    | .base => "Base"
    | .this => "This"

/-- The keyword of a constructor call. -/
def ChainKind.keyword : ChainKind → String
  | .base => "base"
  | .this => "this"

end Sharpen.Target
