import Sharpen.Comment.Json
import Sharpen.Json.Field
import Sharpen.Target.Member

/-!
# Reading target trees

A node is an object whose field `k` says what it is; a node with one unnamed part has it in the
field `v`. Lists and optional parts may be left out. Some words stand for a short way to build a
node, such as `Dotted` for a dotted name.

The readers of what is inside a node are a `Readers`, one level further in; they are tied together
on the depth of the JSON value.
-/

namespace Sharpen.Target

open Json

/-- The readers of the four kinds of nodes that hold each other. -/
structure Readers where
  name : Json → Option Name
  type : Json → Option TypeSyntax
  expr : Json → Option Expr
  statement : Json → Option Statement

def modifiersOfJson? (json : Json) : Option (List Modifier) :=
  json.wantList "modifiers" spelled?

def triviaOfJson? (json : Json) : Option Trivia :=
  json.wantD "trivia" {} Trivia.ofJson?

namespace Readers

/-- Reads one pair of brackets: the number of its dimensions, or the sizes. -/
def rank (inner : Readers) : Json → Option (List (Option Expr))
  | .arr sizes => sizes.mapM (maybe inner.expr)
  | json => json.count?.map TypeSyntax.unsizedRank

def content (inner : Readers) (json : Json) : Option Content := do
  match json.field "k" with
  | .str "Text" => return .text (← json.need "v" str?)
  | .str "Interpolation" =>
    return .hole (← json.need "expression" inner.expr) (← json.want "alignment" inner.expr)
      (← json.want "format" str?)
  | _ => none

def braces (inner : Readers) (json : Json) : Option (BracesKind × List Expr) := do
  return (← json.need "kind" spelled?, ← json.wantList "expressions" inner.expr)

def initializer (inner : Readers) (json : Json) : Option Braces := do
  match ← json.want "initializer" inner.braces with
  | some (kind, items) => return .present kind items
  | none => return .absent

def argument (inner : Readers) (json : Json) : Option Argument := do
  let value ← json.need "expression" inner.expr
  let name ← json.want "name_colon" str?
  let passing ← json.want "ref_kind" spelled?
  return { name, passing, value }

def fieldValue (inner : Readers) (json : Json) : Option FieldValue := do
  return ⟨← json.need "name" str?, ← json.need "value" inner.expr⟩

def attributeArgument (inner : Readers) (json : Json) : Option AttributeArgument := do
  return ⟨← json.want "name_equals" str?, ← json.need "expression" inner.expr⟩

def attributeItem (inner : Readers) (json : Json) : Option Attribute := do
  return ⟨← json.need "name" inner.name, ← json.wantList "arguments" inner.attributeArgument⟩

def attributes (inner : Readers) (json : Json) : Option (List AttributeList) :=
  json.wantList "attributes" <| fieldsOf fun list => do
    return ⟨← list.want "target" spelled?, ← list.wantList "attributes" inner.attributeItem⟩

def parameter (inner : Readers) (json : Json) : Option Parameter := do
  return {
    attributes := ← inner.attributes json
    modifiers := ← modifiersOfJson? json
    type := ← json.want "ty" inner.type
    identifier := ← json.need "identifier" str?
    defaultValue := ← json.want "default" inner.expr }

def lambdaParameters (inner : Readers) : Json → Option LambdaParameters
  | .str identifier => some (.simple identifier)
  | .null => some (.list [])
  | json => (list? inner.parameter json).map .list

def lambdaBody (inner : Readers) : Json → Option LambdaBody
  | .arr statements => (statements.mapM inner.statement).map .block
  | json => (inner.expr json).map .expression

def declarator (inner : Readers) (json : Json) : Option Declarator := do
  return ⟨← json.need "identifier" str?, ← json.want "initializer" inner.expr⟩

def declared (inner : Readers) (json : Json) : Option Variables := do
  return ⟨← json.need "ty" inner.type, ← json.wantList "variables" inner.declarator⟩

def switchSection (inner : Readers) : Json → Option SwitchSection :=
  fieldsOf fun json => do
    return ⟨← json.wantList "labels" (maybe inner.expr),
      ← json.wantList "statements" inner.statement⟩

def catchHeader (inner : Readers) (json : Json) : Option CatchHeader := do
  return .typed (← json.need "ty" inner.type) (← json.want "identifier" str?)

def catchClause (inner : Readers) : Json → Option CatchClause :=
  fieldsOf fun json => do
    let header := (← json.want "declaration" inner.catchHeader).getD .all
    return ⟨header, ← json.want "filter" inner.expr, ← json.wantList "block" inner.statement⟩

/-- What stands first in a `for` or `using`: declared variables, or else expressions. -/
def opening (inner : Readers) (json : Json) (values : List Expr) : Option Opening := do
  match ← json.want "declaration" inner.declared with
  | some group => return .declared group
  | none => return .expressions values

def readName (inner : Readers) (json : Json) : Option Name := do
  match json.field "k" with
  | .str "Identifier" => return .identifier (← json.need "v" str?)
  | .str "Dotted" => return .dotted (← json.need "v" str?)
  | .str "Generic" =>
    return .generic (← json.need "identifier" str?) (← json.wantList "type_arguments" inner.type)
  | .str "Qualified" =>
    return .qualified (← json.need "left" inner.name) (← json.need "right" inner.name)
  | .str "AliasQualified" =>
    return .aliasQualified (← json.need "alias" str?) (← json.need "name" inner.name)
  | _ => none

def readType (inner : Readers) (json : Json) : Option TypeSyntax := do
  match json.field "k" with
  | .str "Predefined" => return .predefined (← json.need "v" spelled?)
  | .str "Named" => return .named (← json.need "v" inner.name)
  | .str "Dotted" => return .dotted (← json.need "v" str?)
  | .str "Array" =>
    return .array (← json.need "element" inner.type) (← json.wantList "ranks" inner.rank)
  | .str "ArrayOf" => return .arrayOf (← json.need "v" inner.type)
  | .str "Nullable" => return .nullable (← json.need "v" inner.type)
  | .str "Void" => return .void
  | .str "Var" => return .var
  | _ => none

def readExpr (inner : Readers) (json : Json) : Option Expr := do
  match json.field "k" with
  | .str "Null" => return .null
  | .str "Bool" => return .literal (.bool (← json.need "v" bool?))
  | .str "Numeric" => return .number (← json.need "v" str?)
  | .str "String" => return .string (← json.need "v" str?)
  | .str "Char" => return .literal (.char (← json.need "v" char?))
  | .str "InterpolatedString" => return .interpolated (← json.wantList "v" inner.content)
  | .str "Identifier" => return .identifier (← json.need "v" str?)
  | .str "Dotted" => return .dotted (← json.need "v" str?)
  | .str "Generic" =>
    return .generic (← json.need "identifier" str?) (← json.wantList "type_arguments" inner.type)
  | .str "PredefinedType" => return .predefinedType (← json.need "v" spelled?)
  | .str "AliasQualified" =>
    return .aliasQualified (← json.need "alias" str?) (← json.need "name" str?)
  | .str "This" => return .this
  | .str "Base" => return .base
  | .str "MemberAccess" =>
    return .memberAccess (← json.need "expression" inner.expr) (← json.need "name" str?)
      (← json.wantList "type_arguments" inner.type)
  | .str "MemberBinding" => return .memberBinding (← json.need "name" str?)
  | .str "ConditionalAccess" =>
    return .conditionalAccess (← json.need "expression" inner.expr)
      (← json.need "when_not_null" inner.expr)
  | .str "Invocation" =>
    return .invocation (← json.need "expression" inner.expr)
      (← json.wantList "arguments" inner.argument)
  | .str "ElementAccess" =>
    return .elementAccess (← json.need "expression" inner.expr)
      (← json.wantList "arguments" inner.argument)
  | .str "ObjectCreation" =>
    return .objectCreation (← json.need "ty" inner.type)
      (← json.want "arguments" (list? inner.argument)) (← inner.initializer json)
  | .str "ArrayCreation" =>
    return .arrayCreation (← json.need "ty" inner.type) (← inner.initializer json)
  | .str "ImplicitArrayCreation" =>
    let (kind, items) ← json.need "v" inner.braces
    return .implicitArray kind items
  | .str "Initializer" =>
    let (kind, items) ← json.need "v" inner.braces
    return .braces kind items
  | .str "AnonymousObjectCreation" =>
    return .anonymousObject (← json.wantList "v" inner.fieldValue)
  | .str "Binary" =>
    return .binary (← json.need "left" inner.expr) (← json.need "operator" spelled?)
      (← json.need "right" inner.expr)
  | .str "Assignment" =>
    return .assignment (← json.need "left" inner.expr) (← json.need "operator" spelled?)
      (← json.need "right" inner.expr)
  | .str "PrefixUnary" =>
    return .prefixUnary (← json.need "operator" spelled?) (← json.need "operand" inner.expr)
  | .str "PostfixUnary" =>
    return .postfixUnary (← json.need "operand" inner.expr) (← json.need "operator" spelled?)
  | .str "Conditional" =>
    return .conditional (← json.need "condition" inner.expr) (← json.need "when_true" inner.expr)
      (← json.need "when_false" inner.expr)
  | .str "Cast" => return .cast (← json.need "ty" inner.type) (← json.need "expression" inner.expr)
  | .str "As" => return .as (← json.need "expression" inner.expr) (← json.need "ty" inner.type)
  | .str "Is" => return .is (← json.need "expression" inner.expr) (← json.need "ty" inner.type)
  | .str "TypeOf" => return .typeOf (← json.need "v" inner.type)
  | .str "Default" => return .defaultOf (← json.need "v" inner.type)
  | .str "Parenthesized" => return .parenthesized (← json.need "v" inner.expr)
  | .str "Lambda" =>
    return .lambda (← json.wantD "is_async" false bool?)
      (← json.need "parameters" inner.lambdaParameters) (← json.need "body" inner.lambdaBody)
  | .str "Await" => return .await (← json.need "v" inner.expr)
  | .str "Commented" =>
    return .commented (← json.need "expression" inner.expr) (← json.need "comment" str?)
  | _ => none

def readStatement (inner : Readers) (json : Json) : Option Statement := do
  match json.field "k" with
  | .str "LocalDeclaration" =>
    return .localDeclaration (← modifiersOfJson? json) (← json.need "declaration" inner.declared)
  | .str "Expression" => return .expression (← json.need "v" inner.expr)
  | .str "Block" => return .block (← json.wantList "v" inner.statement)
  | .str "Return" => return .return (← json.want "v" inner.expr)
  | .str "YieldReturn" => return .yieldReturn (← json.need "v" inner.expr)
  | .str "YieldBreak" => return .yieldBreak
  | .str "Break" => return .break
  | .str "Continue" => return .continue
  | .str "Throw" => return .throw (← json.want "v" inner.expr)
  | .str "If" =>
    return .if (← json.need "condition" inner.expr) (← json.need "statement" inner.statement)
      (← json.want "else_clause" inner.statement)
  | .str "For" =>
    let opening ← inner.opening json (← json.wantList "initializers" inner.expr)
    return .for opening (← json.want "condition" inner.expr)
      (← json.wantList "incrementors" inner.expr) (← json.need "statement" inner.statement)
  | .str "ForEach" =>
    return .forEach (← json.need "ty" inner.type) (← json.need "identifier" str?)
      (← json.need "expression" inner.expr) (← json.need "statement" inner.statement)
  | .str "While" =>
    return .while (← json.need "condition" inner.expr) (← json.need "statement" inner.statement)
  | .str "Do" =>
    return .do (← json.need "statement" inner.statement) (← json.need "condition" inner.expr)
  | .str "Switch" =>
    return .switch (← json.need "expression" inner.expr)
      (← json.wantList "sections" inner.switchSection)
  | .str "Try" =>
    return .try (← json.wantList "block" inner.statement)
      (← json.wantList "catches" inner.catchClause)
      (← json.want "finally" (list? inner.statement))
  | .str "Lock" =>
    return .lock (← json.need "expression" inner.expr) (← json.need "statement" inner.statement)
  | .str "Using" =>
    let opening ← inner.opening json (← json.want "expression" inner.expr).toList
    return .using opening (← json.need "statement" inner.statement)
  | .str "Empty" => return .empty
  | .str "Commented" =>
    return .commented (← triviaOfJson? json) (← json.need "statement" inner.statement)
  | .str "WithTrivia" =>
    return (← json.need "statement" inner.statement).withTrivia (← triviaOfJson? json)
  | _ => none

/-- The readers for values nested no deeper than a number of levels. -/
def upTo : (levels : Nat) → Readers
  | 0 => ⟨fun _ => none, fun _ => none, fun _ => none, fun _ => none⟩
  | levels + 1 =>
    let inner := Readers.upTo levels
    ⟨inner.readName, inner.readType, inner.readExpr, inner.readStatement⟩

/-- The readers for the nodes of a value. -/
def of (json : Json) : Readers :=
  Readers.upTo json.depth

def typeParameter (json : Json) : Option TypeParameter := do
  let identifier ← json.need "identifier" str?
  return { variance := ← json.want "variance" spelled?, identifier }

def constraint (inner : Readers) (json : Json) : Option TypeConstraint := do
  match json.field "k" with
  | .str "Class" => return .class
  | .str "Struct" => return .struct
  | .str "Constructor" => return .constructor
  | .str "Type" => return .type (← json.need "v" inner.type)
  | _ => none

def constraintClause (inner : Readers) (json : Json) : Option ConstraintClause := do
  return ⟨← json.need "type_parameter" str?, ← json.wantList "constraints" inner.constraint⟩

def enumMember (inner : Readers) (json : Json) : Option EnumMember := do
  return {
    attributes := ← inner.attributes json
    identifier := ← json.need "identifier" str?
    value := ← json.want "value" inner.expr
    trivia := ← triviaOfJson? json }

def accessor (inner : Readers) (json : Json) : Option Accessor := do
  return {
    kind := ← json.need "kind" spelled?
    attributes := ← inner.attributes json
    modifiers := ← modifiersOfJson? json
    body := ← json.want "body" (list? inner.statement) }

def chain (inner : Readers) (json : Json) : Option ConstructorChain := do
  return ⟨← json.need "kind" spelled?, ← json.wantList "arguments" inner.argument⟩

/-- Reads a member, given the reader of the members inside it. -/
def readMember (inner : Readers) (member : Json → Option Member) (json : Json) : Option Member := do
  let attributes ← inner.attributes json
  let modifiers ← modifiersOfJson? json
  let identifier := json.need "identifier" str?
  let typeParameters := json.wantList "type_parameters" typeParameter
  let parameters := json.wantList "parameters" inner.parameter
  let constraints := json.wantList "constraints" inner.constraintClause
  let accessors := json.wantList "accessors" inner.accessor
  let body := json.wantList "body" inner.statement
  match json.field "k" with
  | .str "Namespace" =>
    return .namespace (← json.need "name" inner.name) (← json.wantList "members" member)
  | .str "Type" =>
    return .type (← json.need "keyword" spelled?) attributes modifiers (← identifier)
      (← typeParameters) (← json.wantList "base_list" inner.type) (← constraints)
      (← json.wantList "members" member)
  | .str "Enum" =>
    return .enum attributes modifiers (← identifier) (← json.want "base_type" inner.type)
      (← json.wantList "members" inner.enumMember)
  | .str "Delegate" =>
    return .delegate attributes modifiers (← json.need "return_type" inner.type) (← identifier)
      (← typeParameters) (← parameters) (← constraints)
  | .str "Field" => return .field attributes modifiers (← json.need "declaration" inner.declared)
  | .str "EventField" =>
    return .eventField attributes modifiers (← json.need "declaration" inner.declared)
  | .str "Event" =>
    return .event attributes modifiers (← json.need "ty" inner.type) (← identifier) (← accessors)
  | .str "Property" =>
    return .property attributes modifiers (← json.need "ty" inner.type) (← identifier)
      (← accessors) (← json.want "initializer" inner.expr)
  | .str "Indexer" =>
    return .indexer attributes modifiers (← json.need "ty" inner.type) (← parameters) (← accessors)
  | .str "Method" =>
    return .method attributes modifiers (← json.need "return_type" inner.type) (← identifier)
      (← typeParameters) (← parameters) (← constraints)
      (← json.want "body" (list? inner.statement))
  | .str "Constructor" =>
    return .constructor attributes modifiers (← identifier) (← parameters)
      (← json.want "initializer" inner.chain) (← body)
  | .str "Destructor" => return .destructor attributes (← identifier) (← body)
  | .str "Operator" =>
    return .operator attributes modifiers (← json.need "return_type" inner.type)
      (← json.need "operator" spelled?) (← parameters) (← body)
  | .str "ConversionOperator" =>
    return .conversion attributes modifiers (← json.need "ty" inner.type) (← parameters) (← body)
  | .str "Commented" => return .commented (← triviaOfJson? json) (← json.need "member" member)
  | .str "WithTrivia" =>
    return (← json.need "member" member).withTrivia (← triviaOfJson? json)
  | _ => none

/-- The reader for members nested no deeper than a number of levels. -/
def memberAt (inner : Readers) : (levels : Nat) → Json → Option Member
  | 0, _ => none
  | levels + 1, json => inner.readMember (inner.memberAt levels) json

end Readers

def Name.ofJson? (json : Json) : Option Name :=
  (Readers.of json).name json

def TypeSyntax.ofJson? (json : Json) : Option TypeSyntax :=
  (Readers.of json).type json

def Expr.ofJson? (json : Json) : Option Expr :=
  (Readers.of json).expr json

def Statement.ofJson? (json : Json) : Option Statement :=
  (Readers.of json).statement json

def Member.ofJson? (json : Json) : Option Member :=
  (Readers.of json).memberAt json.depth json

def UsingDirective.ofJson? (json : Json) : Option UsingDirective := do
  return ⟨← json.want "alias" str?, ← json.need "name" Name.ofJson?⟩

def CompilationUnit.ofJson? : Json → Option CompilationUnit :=
  fieldsOf fun json => do
    let usings ← json.wantList "usings" UsingDirective.ofJson?
    let attributes ← (Readers.of json).attributes json
    return { usings, attributes, members := ← json.wantList "members" Member.ofJson? }

end Sharpen.Target
