import Sharpen.Convert.Statement

/-!
# Members

Fields, properties, methods, constructors, operators and events. Members of a module are shared by
all of its users; a property with parameters is an indexer; an event without a type brings a
delegate with it.
-/

namespace Sharpen

open Model (TypeSymbol)
open Target (TypeSyntax)

/-- The comment left where fields with events lose their mark. -/
def withEventsComment : String := "/* TODO ERROR didn't convert: WithEvents */"

/-- Adds a trailing comment to the last member. -/
def markLast (comment : String) : List Target.Member → List Target.Member
  | [] => []
  | [last] => [last.withTrivia { trailing := some comment }]
  | member :: rest => member :: markLast comment rest

/-- The call of another constructor that a constructor may start with: its kind, its number and its
arguments. -/
def Source.Statement.constructorChain? (statement : Source.Statement) :
    Option (Target.ChainKind × Source.NodeId × List Source.Argument) :=
  let value? : Option Source.Expr :=
    match statement.kind with
    | .expression value => some value
    | .call value => some value
    | _ => none
  match value? with
  | some (.invocation id (.memberAccess _ (some receiver) name) arguments) =>
    if Text.sameIgnoringCase name.unescaped "New" then
      match receiver with
      | .myBase _ => some (.base, id, arguments)
      | .me _ | .myClass _ => some (.this, id, arguments)
      | _ => none
    else none
  | _ => none

/-- The kind of an accessor; events of the target cannot be raised through one. -/
def Source.AccessorKind.convert : Source.AccessorKind → Except ConversionError Target.AccessorKind
  | .get => .ok .get
  | .set => .ok .set
  | .addHandler => .ok .add
  | .removeHandler => .ok .remove
  | .raiseEvent =>
    .error (.unsupported "RaiseEventAccessorBlock" "C# events have no raise accessor")

namespace Inner

/-! ## Fields -/

/-- A field declaration: one field for each type. -/
def field (inner : Inner) (attributes : List (List Source.Attribute))
    (modifiers : List Source.Modifier) (declarators : List Source.Declarator) :
    Convert (List Target.Member) := do
  let converted ← Modifiers.convert .variableOrConst modifiers
  let shared :=
    if (← Convert.inModule) && !Modifiers.isShared converted then converted ++ [.static]
    else converted
  let attributes ← inner.attributes attributes
  let site : DeclaratorSite := if modifiers.contains .const then .constant else .field
  let declared ← inner.variableLists site declarators
  let fields := declared.map (.field attributes shared)
  if fields.isEmpty then
    Convert.unsupported "FieldDeclaration" "a field declaration must declare at least one name"
  else if modifiers.contains .withEvents && inner.setting.options.emitTodoComments then
    return markLast withEventsComment fields
  else return fields

/-! ## Accessors and properties -/

/-- The first statement of an accessor whose parameter is not called `value`: a variable of that
name. -/
def valueAlias (kind : Target.AccessorKind) (valueType : TypeSyntax)
    (parameters : List Source.Parameter) : Convert (List Target.Statement) :=
  match parameters with
  | [] => return []
  | parameter :: _ =>
    if kind = .get || Text.sameIgnoringCase parameter.identifier "value" then return []
    else do
      let type ←
        match parameter.asType with
        | some type => type.convert
        | none => pure valueType
      return [.localVariable type (convertIdentifier parameter.identifier)
        (some (.identifier "value"))]

def accessor (inner : Inner) (body : Body) (valueType : TypeSyntax) (accessor : Source.Accessor) :
    Convert Target.Accessor := do
  let kind ← accessor.kind.convert
  let attributes ← inner.attributes accessor.attributes
  let modifiers ← Modifiers.convert .local accessor.modifiers
  let opening ← valueAlias kind valueType accessor.parameters
  let statements ← inner.statements body accessor.statements
  return ⟨kind, attributes, modifiers,
    some (attachStatements accessor.trivia (opening ++ statements))⟩

/-- The type of a property as it is written and as the model knows it, and its initial value. -/
def propertyType (inner : Inner) (id : Source.NodeId) (asClause : Source.AsClause)
    (initializer : Option Target.Expr) :
    Convert (TypeSyntax × Option TypeSymbol × Option Target.Expr) :=
  match asClause with
  | .simple _ type => return (← type.convert, inner.table.typeOf? type, initializer)
  | .new (.objectCreation creationId type arguments members) => do
    let creation ← inner.value (.objectCreation creationId type arguments members)
    return (← type.convert, inner.table.typeOf? type, some creation)
  | .new _ => Convert.unsupported "AsNewClause" "only object creation can follow As New"
  | .absent =>
    match (inner.table.declaredSymbol? id).bind (·.type) with
    | some type => return (type.written, some type, initializer)
    | none => return (.object, some .object, initializer)

/-- The accessors of a property that keeps its value by itself. -/
def autoAccessors (isReadOnly : Bool) : List Target.Accessor :=
  if isReadOnly then [.auto .get] else [.auto .get, .auto .set]

/-- The body of an accessor of a property. -/
def accessorBody (isIterator : Bool) (type : Option TypeSymbol) (accessor : Source.Accessor) :
    Body :=
  if accessor.kind = .get then { kind := .getter type, isIterator }
  else { kind := .setter, isIterator := false }

/-- A property, or an indexer. -/
def property (inner : Inner) (id : Source.NodeId) (attributes : List (List Source.Attribute))
    (modifiers : List Source.Modifier) (identifier : String) (parameters : List Source.Parameter)
    (asClause : Source.AsClause) (initializer : Option Source.Expr)
    (accessors : Option (List Source.Accessor)) : Convert (List Target.Member) := do
  let isIndexer := modifiers.contains .default && Text.sameIgnoringCase identifier "Item"
  if !isIndexer && !parameters.isEmpty then
    Convert.unsupported "PropertyBlock" "only the default Item property may take parameters"
  else
    let attributes ← inner.attributes attributes
    let converted ← Modifiers.convert (← Convert.memberSite) (modifiers.filter (· != .readOnly))
    let initializer ← inner.value? initializer
    let (type, known, initializer) ← inner.propertyType id asClause initializer
    let accessors ←
      match accessors with
      | none => pure (autoAccessors (modifiers.contains .readOnly))
      | some accessors =>
        accessors.mapM fun accessor =>
          inner.accessor (accessorBody (modifiers.contains .iterator) known accessor) type accessor
    if isIndexer then
      return [.indexer attributes converted type (← inner.parameters parameters) accessors]
    else
      return [.property attributes converted type (convertIdentifier identifier)
        accessors initializer]

/-! ## Methods and constructors -/

/-- What a method gives back according to the model. -/
def declaredReturnType? (inner : Inner) (id : Source.NodeId) : Option TypeSymbol :=
  (inner.table.declaredSymbol? id).bind Model.Symbol.returnType?

/-- The type of the value that leaves a function. -/
def functionType? (inner : Inner) (id : Source.NodeId) :
    Option Source.ResultClause → Option TypeSymbol
  | some clause => (inner.table.typeOf? clause.type).or (inner.declaredReturnType? id)
  | none => some ((inner.declaredReturnType? id).getD .object)

/-- The type that a method gives back, as it is written, and its attributes. -/
def resultClause (inner : Inner) (kind : Source.MethodKind) :
    Option Source.ResultClause → Convert (TypeSyntax × List Target.AttributeList)
  | some clause => do
    let type ← clause.type.convert
    return (type, ← inner.returnAttributes clause.attributes)
  | none =>
    match kind with
    | .sub => return (.void, [])
    | .function => return (.object, [])

/-- The name of the innermost type block. -/
def containerName? : Convert (Option String) := do
  return (← Convert.container?).map fun container => convertIdentifier container.identifier

def procedureBody : Body :=
  { kind := .procedure, isIterator := false }

/-- A method. The method that cleans up an object is its destructor. -/
def method (inner : Inner) (id : Source.NodeId) (kind : Source.MethodKind)
    (attributes : List (List Source.Attribute)) (modifiers : List Source.Modifier)
    (identifier : String) (typeParameters : List Source.TypeParameter)
    (parameters : List Source.Parameter) (result : Option Source.ResultClause)
    (body : Option (List Source.Statement)) : Convert (List Target.Member) := do
  let attributes ← inner.attributes attributes
  if Text.sameIgnoringCase identifier "Finalize" && modifiers.contains .overrides then
    match ← containerName? with
    | none => Convert.unsupported "MethodBlock" "Finalize outside a type"
    | some name =>
      return [.destructor attributes name (← inner.statements procedureBody (body.getD []))]
  else
    let converted ← Modifiers.convert (← Convert.memberSite) modifiers
    let (returnType, returnAttributes) ← inner.resultClause kind result
    let (typeParameters, constraints) ← convertTypeParameters typeParameters
    let parameters ← inner.parameters parameters
    let bodyKind : BodyKind :=
      match kind with
      | .sub => .procedure
      | .function => .function (inner.functionType? id result)
    let body ←
      match body with
      | none => pure none
      | some statements =>
        let inside : Body := { kind := bodyKind, isIterator := modifiers.contains .iterator }
        pure (some (← inner.statements inside statements))
    return [.method (attributes ++ returnAttributes) converted returnType
      (convertIdentifier identifier)
      typeParameters parameters constraints body]

/-- The call of another constructor that a constructor starts with, and the remaining statements. -/
def chain (inner : Inner) (body : List Source.Statement) :
    Convert (Option Target.ConstructorChain × List Source.Statement) :=
  match body with
  | [] => return (none, [])
  | first :: rest =>
    match first.constructorChain? with
    | none => return (none, first :: rest)
    | some (kind, id, arguments) => do
      let arguments ← inner.arguments (inner.table.resolve? id) arguments
      return (some ⟨kind, arguments⟩, rest)

/-- A constructor. One that is shared has no visibility. -/
def constructor (inner : Inner) (attributes : List (List Source.Attribute))
    (modifiers : List Source.Modifier) (parameters : List Source.Parameter)
    (body : List Source.Statement) : Convert (List Target.Member) := do
  match ← containerName? with
  | none => Convert.unsupported "ConstructorBlock" "constructor outside a type"
  | some name =>
    let attributes ← inner.attributes attributes
    let converted ←
      if (← Convert.inModule) || modifiers.contains .shared then pure [Target.Modifier.static]
      else Modifiers.convert (← Convert.memberSite) modifiers
    let parameters ← inner.parameters parameters
    let (chain, rest) ← inner.chain body
    let statements ← inner.statements procedureBody rest
    return [.constructor attributes converted name parameters chain statements]

/-! ## Operators and events -/

/-- An operator, or a conversion. -/
def operator (inner : Inner) (id : Source.NodeId) (attributes : List (List Source.Attribute))
    (modifiers : List Source.Modifier) (operator : Source.OverloadableOperator)
    (parameters : List Source.Parameter) (result : Option Source.ResultClause)
    (body : List Source.Statement) : Convert (List Target.Member) := do
  let attributes ← inner.attributes attributes
  let converted ← Modifiers.convert (← Convert.memberSite) modifiers
  let parameters ← inner.parameters parameters
  let (returnType, returnAttributes) ← inner.resultClause .function result
  let kind : BodyKind := .function (inner.functionType? id result)
  let statements ← inner.statements { kind, isIterator := false } body
  let all := attributes ++ returnAttributes
  if operator = .ctype then
    if modifiers.contains .widening || modifiers.contains .narrowing then
      return [.conversion all converted returnType parameters statements]
    else Convert.unsupported "OperatorBlock" "CType operators must be Widening or Narrowing"
  else return [.operator all converted returnType (← operator.convert) parameters statements]

/-- An event: with accessors of its own, with a type, or with the delegate that its parameters make.
-/
def event (inner : Inner) (attributes : List (List Source.Attribute))
    (modifiers : List Source.Modifier) (identifier : String) (parameters : List Source.Parameter)
    (asType : Option Source.TypeSyntax) (accessors : Option (List Source.Accessor)) :
    Convert (List Target.Member) := do
  let attributes ← inner.attributes attributes
  let converted ← Modifiers.convert (← Convert.memberSite) modifiers
  let name := convertIdentifier identifier
  match accessors, asType with
  | some _, none => Convert.unsupported "EventBlock" "custom events need a delegate type"
  | some accessors, some type =>
    let type ← type.convert
    let accessors ← accessors.mapM (inner.accessor procedureBody type)
    return [.event attributes converted type name accessors]
  | none, some type =>
    let type ← type.convert
    return [.eventField attributes converted (.single type name none)]
  | none, none =>
    let handler := Source.unescapeIdentifier identifier ++ "EventHandler"
    let parameters ← inner.parameters parameters
    return [.eventField attributes converted (.single (.named (.identifier handler)) name none),
      .delegate [] (converted.filter (·.isAccessibility)) .void handler [] parameters []]

end Inner

end Sharpen
