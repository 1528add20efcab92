import Sharpen.Source.Declaration
import Sharpen.Text.Blank

/-!
# Building source trees

A `Build` gives the nodes it makes fresh numbers, one after the other from `1` on. The short forms
here take finished parts and number only what they add, in the order in which the numbers are taken
below.
-/

namespace Sharpen.Source

/-- A computation that takes numbers for nodes; the state is the next one. -/
abbrev Build := StateM NodeId

namespace Build

/-- The first number. -/
def first : NodeId := 1

/-- A fresh number. -/
def nextId : Build NodeId := do
  let id ← get
  set (id + 1)
  return id

/-! ## Names and types -/

def simpleName (identifier : String) : Build SimpleName := do
  return { id := ← nextId, identifier, typeArguments := [] }

def genericName (identifier : String) (typeArguments : List TypeSyntax) : Build SimpleName := do
  return { id := ← nextId, identifier, typeArguments }

/-- The first part of a dotted name. -/
def nameStart (part : String) : Build Name := do
  if part = "Global" then return .global (← nextId) else return .simple (← simpleName part)

/-- A name with further parts. -/
def nameFrom (left : Name) : List String → Build Name
  | [] => return left
  | part :: rest => do
    let id ← nextId
    nameFrom (.qualified id left (← simpleName part)) rest

/-- A possibly dotted name: `System.Collections`. -/
def name (dotted : String) : Build Name :=
  match Text.dottedParts dotted with
  | [] => nameStart ""
  | part :: rest => do nameFrom (← nameStart part) rest

def predefined (keyword : PredefinedType) : Build TypeSyntax := do
  return .predefined (← nextId) keyword

def namedType (dotted : String) : Build TypeSyntax := do
  return .named (← name dotted)

def genericType (identifier : String) (typeArguments : List TypeSyntax) : Build TypeSyntax := do
  return .named (.simple (← genericName identifier typeArguments))

/-- An array of one dimension. -/
def arrayType (element : TypeSyntax) : Build TypeSyntax := do
  return .array (← nextId) element [1]

def nullableType (element : TypeSyntax) : Build TypeSyntax := do
  return .nullable (← nextId) element

/-! ## Expressions -/

def ident (identifier : String) : Build Expr := do
  return .name (← simpleName identifier)

def literal (value : Literal) : Build Expr := do
  return .literal (← nextId) value

def int (value : Int) : Build Expr :=
  literal (.numeric (toString value))

def string (value : String) : Build Expr :=
  literal (.string value)

def boolean (value : Bool) : Build Expr :=
  literal (.boolean value)

def nothing : Build Expr :=
  literal .nothing

def me : Build Expr := do
  return .me (← nextId)

def myBase : Build Expr := do
  return .myBase (← nextId)

/-- An access; it is numbered before the name. -/
def access (receiver : Option Expr) (name : String) : Build Expr := do
  let id ← nextId
  return .memberAccess id receiver (← simpleName name)

def member (receiver : Expr) (name : String) : Build Expr :=
  access (some receiver) name

/-- `.name` without a receiver. -/
def implicitMember (name : String) : Build Expr :=
  access none name

def argument (value : Expr) : Build Argument := do
  return .simple (← nextId) none value

def namedArgument (name : String) (value : Expr) : Build Argument := do
  return .simple (← nextId) (some name) value

def invokeWith (target : Expr) (arguments : List Argument) : Build Expr := do
  return .invocation (← nextId) target arguments

/-- A call; its arguments are numbered before it. -/
def invoke (target : Expr) (values : List Expr) : Build Expr := do
  invokeWith target (← values.mapM argument)

def binary (operator : BinaryOperator) (left right : Expr) : Build Expr := do
  return .binary (← nextId) operator left right

def unary (operator : UnaryOperator) (operand : Expr) : Build Expr := do
  return .unary (← nextId) operator operand

def parenthesized (operand : Expr) : Build Expr := do
  return .parenthesized (← nextId) operand

/-- An object creation; it is numbered before its arguments. -/
def newObject (type : TypeSyntax) (values : Option (List Expr)) : Build Expr := do
  let id ← nextId
  match values with
  | none => return .objectCreation id type none .absent
  | some values => return .objectCreation id type (some (← values.mapM argument)) .absent

/-- A lambda on one line. -/
def lambdaFunction (parameters : List Parameter) (body : Expr) : Build Expr := do
  return .lambda (← nextId) .function [] parameters none (.expression body)

/-! ## Statements -/

def statement (kind : StatementKind) : Build Statement := do
  return { id := ← nextId, kind, trivia := {} }

def expressionStatement (value : Expr) : Build Statement :=
  statement (.expression value)

def declaredName (identifier : String) : Build DeclaredName := do
  return { id := ← nextId, identifier, nullable := false, arrayBounds := none, arrayRanks := [] }

def declarator (identifier : String) (type : Option TypeSyntax) (initializer : Option Expr) :
    Build Declarator := do
  let name ← declaredName identifier
  let asClause : AsClause :=
    match type with
    | some type => .simple [] type
    | none => .absent
  return { names := [name], asClause, initializer }

/-- `Dim identifier As type = initializer` -/
def dim (identifier : String) (type : Option TypeSyntax) (initializer : Option Expr) :
    Build Statement := do
  let declarator ← declarator identifier type initializer
  statement (.localDeclaration [.dim] [declarator])

/-! ## Declarations -/

def parameter (identifier : String) (type : Option TypeSyntax) : Build Parameter := do
  return {
    id := ← nextId, attributes := [], modifiers := [], identifier, nullable := false
    arrayRanks := [], asType := type, defaultValue := none }

def declaration (kind : DeclarationKind) : Build Declaration := do
  return { id := ← nextId, kind, trivia := {} }

def typeBlock (block : TypeBlockKind) (identifier : String) (members : List Declaration) :
    Build Declaration :=
  declaration (.type block [] [] identifier [] [] [] members)

def classBlock (identifier : String) (members : List Declaration) : Build Declaration :=
  typeBlock .class identifier members

def method (kind : MethodKind) (identifier : String) (parameters : List Parameter)
    (returnType : Option TypeSyntax) (body : List Statement) : Build Declaration :=
  declaration (.method kind [] [] identifier [] parameters (returnType.map fun type => ⟨[], type⟩)
    (some body))

def sub (identifier : String) (parameters : List Parameter) (body : List Statement) :
    Build Declaration :=
  method .sub identifier parameters none body

def compilationUnit (members : List Declaration) : Build CompilationUnit := do
  return { id := ← nextId, imports := [], attributes := [], members }

end Build

end Sharpen.Source
