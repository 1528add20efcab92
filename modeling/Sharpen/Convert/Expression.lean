import Sharpen.Convert.Literal
import Sharpen.Convert.Operator
import Sharpen.Convert.Variable

/-!
# Expressions

Most forms have a counterpart of the same shape. The others ask the semantic table: whether `a(1)`
calls or reads an element, which type `Nothing` has, whether `Not` works on bits, and whether the
name of a method calls it.
-/

namespace Sharpen

open Model (TypeSymbol Symbol)
open Target (TypeSyntax)

/-- The type of all sequences, without type argument. -/
def Model.TypeSymbol.isPlainSequence (type : TypeSymbol) : Bool :=
  type.displayName == "IEnumerable" || type.displayName == "System.Collections.IEnumerable"

/-- A parameter that can be written without parentheses: `x => …`. -/
def Source.Parameter.isPlain (parameter : Source.Parameter) : Bool :=
  parameter.asType.isNone && parameter.attributes.isEmpty &&
    parameter.modifiers.all (· == .byVal) && !parameter.nullable &&
    parameter.arrayRanks.isEmpty && parameter.defaultValue.isNone

namespace Inner

/-! ## Names, members and calls -/

/-- Methods without parameters are called without parentheses in the source. A name that stands for
a method is taken for such a call if what the method gives back is what its place demands. -/
def autoInvoke (inner : Inner) (id : Source.NodeId) (allowed : Bool) (converted : Target.Expr) :
    Target.Expr :=
  match (inner.table.resolve? id).bind Symbol.returnType? with
  | some returnType =>
    if allowed && inner.table.convertedType? id == some returnType then .invocation converted []
    else converted
  | none => converted

/-- A name used as an expression. -/
def name (name : Source.SimpleName) : Convert Target.Expr :=
  if name.isGeneric then
    return .generic (convertIdentifier name.identifier) (← convertTypes name.typeArguments)
  else return .identifier (convertIdentifier name.identifier)

/-- The receiver of an access that has none written: the head of a conditional access has none, any
other belongs to the innermost `With` block. -/
def implicitReceiver? : Convert (Option Target.Expr) := do
  if ← Convert.takeBindingHead then return none
  return (← Convert.receiver?).map .identifier

def memberAccess (inner : Inner) (receiver : Option Source.Expr) (name : Source.SimpleName) :
    Convert Target.Expr := do
  let identifier := convertIdentifier name.identifier
  let typeArguments ← convertTypes name.typeArguments
  match receiver with
  | some (.global _) =>
    if typeArguments.isEmpty then return .aliasQualified "global" identifier
    else Convert.unsupported "GlobalName" "generic names cannot be global-qualified in expressions"
  | some receiver => return .memberAccess (← inner.value receiver) identifier typeArguments
  | none =>
    match ← implicitReceiver? with
    | some receiver => return .memberAccess receiver identifier typeArguments
    | none => return .memberBinding identifier

/-- A call, or the reading of an element. -/
def invocation (inner : Inner) (id : Source.NodeId) (target : Source.Expr)
    (arguments : List Source.Argument) : Convert Target.Expr := do
  let callee := inner.table.resolve? id
  let converted ← inner.expr false target
  let arguments ← inner.arguments callee arguments
  if Model.readsElement callee (inner.table.resolve? target.id) then
    return .elementAccess converted arguments
  else return .invocation converted arguments

/-! ## Creation -/

/-- What follows an object creation. -/
def initializer (inner : Inner) : Source.Initializer → Convert Target.Braces
  | .absent => return .absent
  | .collection _ items => return .present .collection (← inner.values items)
  | .members fields => do
    let assignments ← fields.mapM fun field => do
      let value ← inner.value field.value
      return (.assignment (.identifier (convertIdentifier field.name)) .simple value : Target.Expr)
    return .present .object assignments

def objectCreation (inner : Inner) (id : Source.NodeId) (type : Source.TypeSyntax)
    (arguments : Option (List Source.Argument)) (initializer : Source.Initializer) :
    Convert Target.Expr := do
  let type ← type.convert
  let arguments ←
    match arguments with
    | some arguments => pure (some (← inner.arguments (inner.table.resolve? id) arguments))
    | none => pure none
  return .objectCreation type arguments (← inner.initializer initializer)

/-- An array creation. A sized array without items needs no braces. -/
def arrayCreation (inner : Inner) (elementType : Source.TypeSyntax)
    (bounds : Option (List Source.Argument)) (ranks : List UInt32) (items : List Source.Expr) :
    Convert Target.Expr := do
  let element ← elementType.convert
  let sized ←
    match bounds with
    | some bounds => pure [← inner.boundsRank bounds]
    | none => pure []
  let written := sized ++ unsizedRanks ranks
  let all := if written.isEmpty then [TypeSyntax.unsizedRank 1] else written
  let hasSizes := all.head?.any fun rank => rank.any Option.isSome
  let braces : Target.Braces ←
    if hasSizes && items.isEmpty then pure .absent
    else pure (.present .array (← inner.values items))
  return .arrayCreation (element.withOuterRanks all) braces

/-- The type that makes an array of a braced list: an array or a plain sequence that its place
demands, where the list has no type of its own. -/
def arrayTarget? (inner : Inner) (id : Source.NodeId) : Option TypeSymbol :=
  if (inner.table.expressionType? id).isSome then none
  else (inner.table.convertedType? id).filter fun type => type.isArray || type.isPlainSequence

/-- A braced list: an array, or the entries of a collection. An empty array needs its type written.
-/
def collection (inner : Inner) (id : Source.NodeId) (items : List Source.Expr) :
    Convert Target.Expr := do
  let items ← inner.values items
  match inner.arrayTarget? id with
  | none => return .braces .collection items
  | some target =>
    if items.isEmpty && target.isArray && target.canBeNamed then
      return .arrayCreation target.written (.present .array items)
    else return .implicitArray .array items

/-! ## Operators -/

/-- The operand of a comparison of references with `Nothing`. -/
def comparedWithNothing? (operator : Source.BinaryOperator) (left right : Source.Expr) :
    Option (Source.Expr × Target.BinaryOperator) :=
  let comparison? : Option Target.BinaryOperator :=
    match operator with
    | .is => some .equals
    | .isNot => some .notEquals
    | _ => none
  match comparison? with
  | none => none
  | some comparison =>
    if right.isNothing then some (left, comparison)
    else if left.isNothing then some (right, comparison)
    else none

/-- An operator between two expressions. -/
def binary (inner : Inner) (operator : Source.BinaryOperator) (left right : Source.Expr) :
    Convert Target.Expr :=
  match comparedWithNothing? operator left right with
  | some (tested, comparison) => return .binary (← inner.value tested) comparison .null
  | none => do
    let mapping ← operator.convert
    let left ← inner.value left
    let right ← inner.value right
    match mapping with
    | .operator token => return .binary left token right
    | .power => return .call (.dotted "Math.Pow") [left, right]

/-- Whether `Not` works on the bits of its operand. -/
def isBitwise (inner : Inner) (operand : Source.Expr) : Bool :=
  (inner.table.expressionType? operand.id).any fun type =>
    type.kind == .enum || type.special.any Model.SpecialType.isIntegral

/-- An operator before an expression. The address of a method is the method itself. -/
def unary (inner : Inner) (operator : Source.UnaryOperator) (operand : Source.Expr) :
    Convert Target.Expr :=
  match operator with
  | .addressOf => inner.expr false operand
  | .plus => return .prefixUnary .plus (← inner.value operand)
  | .minus => return .prefixUnary .minus (← inner.value operand)
  | .not => do
    let token : Target.PrefixOperator :=
      if inner.isBitwise operand then .bitwiseNot else .logicalNot
    return .prefixUnary token (← inner.value operand)

/-! ## Casts -/

/-- A cast that names its target type. -/
def cast (inner : Inner) (kind : Source.CastKind) (operand : Source.Expr)
    (type : Source.TypeSyntax) :
    Convert Target.Expr := do
  let operand ← inner.value operand
  match kind with
  | .ctype =>
    match (inner.table.typeOf? type).bind TypeSymbol.conversionMethod? with
    | some method => return .call (.dotted method) [operand]
    | none => return .cast (← type.convert) operand
  | .directCast => return .cast (← type.convert) operand
  | .tryCast => return .as operand (← type.convert)

/-- A cast whose keyword implies the target type. -/
def predefinedCast (inner : Inner) (keyword : Source.CastKeyword) (operand : Source.Expr) :
    Convert Target.Expr := do
  let operand ← inner.value operand
  if keyword = .cDate then return .cast (.dotted "DateTime") operand
  match (Model.SpecialType.ofKeyword keyword.target).conversionMethod? with
  | some method => return .call (.dotted method) [operand]
  | none => return .cast keyword.target.convert operand

/-! ## Lambdas -/

/-- What a lambda gives back, when it is known: what the delegate demands, or what the lambda says.
-/
def lambdaReturnType? (inner : Inner) (id : Source.NodeId) (kind : Source.MethodKind)
    (asClause : Option Source.TypeSyntax) : Option TypeSymbol :=
  match kind with
  | .sub => none
  | .function =>
    match (inner.table.convertedType? id).bind (·.delegateReturnType) with
    | some type => some type
    | none => asClause.bind inner.table.typeOf?

/-- The body of a lambda. One statement that is an expression becomes the expression. -/
def lambdaBody (inner : Inner) (body : Body) : Source.LambdaBody → Convert Target.LambdaBody
  | .expression value => return .expression (← inner.value value)
  | .statement only => do
    match ← inner.statement body only with
    | [.expression value] => return .expression value
    | statements => return .block statements
  | .block statements => return .block (← inner.statements body statements)

/-- The parameters of a lambda: either all of them have a type or none has. -/
def lambdaParameters (inner : Inner) (body : Target.LambdaBody)
    (parameters : List Source.Parameter) : Convert Target.LambdaParameters :=
  let listed : Convert Target.LambdaParameters := do
    let typed := parameters.any fun parameter => parameter.asType.isSome
    return .list (← parameters.mapM (inner.parameter typed))
  match body, parameters with
  | .expression _, [parameter] =>
    if parameter.isPlain then return .simple (convertIdentifier parameter.identifier) else listed
  | _, _ => listed

def lambda (inner : Inner) (id : Source.NodeId) (kind : Source.MethodKind)
    (modifiers : List Source.Modifier) (parameters : List Source.Parameter)
    (asClause : Option Source.TypeSyntax) (body : Source.LambdaBody) : Convert Target.Expr := do
  let kind : BodyKind := .lambda (inner.lambdaReturnType? id kind asClause)
  let body ← inner.lambdaBody { kind, isIterator := modifiers.contains .iterator } body
  let parameters ← inner.lambdaParameters body parameters
  return .lambda (modifiers.contains .async) parameters body

end Inner

/-! ## All expressions -/

/-- The rule for an expression. `allowed` says whether the name of a method may call it. -/
def Source.Expr.convertWith (inner : Inner) (allowed : Bool) : Source.Expr → Convert Target.Expr
  | .literal id value => inner.literal id value
  | .interpolated _ contents => return .interpolated (← contents.mapM inner.content)
  | .name simple => return inner.autoInvoke simple.id allowed (← Inner.name simple)
  | .global _ => Convert.unsupported "GlobalName" "Global must be followed by a member access"
  | .predefinedType _ keyword =>
    match keyword.keyword? with
    | some predefined => return .predefinedType predefined
    | none => return .dotted dateTypeName
  | .me _ => return .this
  | .myClass _ => return .this
  | .myBase _ => return .base
  | .memberAccess id receiver simple => do
    return inner.autoInvoke id allowed (← inner.memberAccess receiver simple)
  | .conditionalAccess _ receiver whenNotNull => do
    let receiver ← inner.value receiver
    return .conditionalAccess receiver (← Convert.bindingHead (inner.value whenNotNull))
  | .invocation id target arguments => inner.invocation id target arguments
  | .objectCreation id type arguments initializer =>
    inner.objectCreation id type arguments initializer
  | .arrayCreation _ elementType bounds ranks _ items =>
    inner.arrayCreation elementType bounds ranks items
  | .collection id items => inner.collection id items
  | .binary _ operator left right => inner.binary operator left right
  | .unary _ operator operand => inner.unary operator operand
  | .parenthesized _ operand => return .parenthesized (← inner.value operand)
  | .binaryConditional _ first second => do
    let first ← inner.value first
    return .binary first .coalesce (← inner.value second)
  | .ternaryConditional _ condition whenTrue whenFalse => do
    let condition ← inner.value condition
    let whenTrue ← inner.value whenTrue
    return .conditional condition whenTrue (← inner.value whenFalse)
  | .cast _ kind operand type => inner.cast kind operand type
  | .predefinedCast _ keyword operand => inner.predefinedCast keyword operand
  | .typeOf _ operand type isNot => do
    let operand ← inner.value operand
    let test : Target.Expr := .is operand (← type.convert)
    return if isNot then .prefixUnary .logicalNot (.parenthesized test) else test
  | .getType _ type => return .typeOf (← type.convert)
  | .nameOf _ argument => return .call (.identifier "nameof") [← inner.expr false argument]
  | .await _ operand => return .await (← inner.value operand)
  | .lambda id kind modifiers parameters asClause body =>
    inner.lambda id kind modifiers parameters asClause body
  | .anonymousObject _ fields => do
    let converted ← fields.mapM fun field => do
      return (⟨convertIdentifier field.name, ← inner.value field.value⟩ : Target.FieldValue)
    return .anonymousObject converted
  | .query .. => Convert.unimplemented "QueryExpression"
  | .xmlLiteral .. => Convert.unimplemented "XmlLiteralExpression"

end Sharpen
