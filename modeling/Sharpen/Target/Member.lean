import Sharpen.Target.Build

/-!
# Declarations of the target language

Namespaces, types and the members of types, and the file that holds them.
-/

namespace Sharpen.Target

/-- `in T` -/
structure TypeParameter where
  variance : Option Variance
  identifier : String

/-- What a type argument has to be. -/
inductive TypeConstraint where
  | «class»
  | struct
  /-- `new()` -/
  | constructor
  | type (type : TypeSyntax)

/-- `where T : class, new()` -/
structure ConstraintClause where
  typeParameter : String
  constraints : List TypeConstraint

/-- One value of an enumeration. -/
structure EnumMember where
  attributes : List AttributeList
  identifier : String
  value : Option Expr
  trivia : Trivia

/-- An accessor; without a body it is written `get;`. -/
structure Accessor where
  kind : AccessorKind
  attributes : List AttributeList
  modifiers : List Modifier
  body : Option (List Statement)

/-- `: base(arguments)` -/
structure ConstructorChain where
  kind : ChainKind
  arguments : List Argument

/-- A namespace, a type or a member of a type. -/
inductive Member where
  | namespace (name : Name) (members : List Member)
  | type (keyword : TypeKeyword) (attributes : List AttributeList) (modifiers : List Modifier)
      (identifier : String) (typeParameters : List TypeParameter) (bases : List TypeSyntax)
      (constraints : List ConstraintClause) (members : List Member)
  | enum (attributes : List AttributeList) (modifiers : List Modifier) (identifier : String)
      (base : Option TypeSyntax) (values : List EnumMember)
  | delegate (attributes : List AttributeList) (modifiers : List Modifier) (returnType : TypeSyntax)
      (identifier : String) (typeParameters : List TypeParameter) (parameters : List Parameter)
      (constraints : List ConstraintClause)
  | field (attributes : List AttributeList) (modifiers : List Modifier) (declared : Variables)
  | eventField (attributes : List AttributeList) (modifiers : List Modifier) (declared : Variables)
  | event (attributes : List AttributeList) (modifiers : List Modifier) (type : TypeSyntax)
      (identifier : String) (accessors : List Accessor)
  | property (attributes : List AttributeList) (modifiers : List Modifier) (type : TypeSyntax)
      (identifier : String) (accessors : List Accessor) (initializer : Option Expr)
  | indexer (attributes : List AttributeList) (modifiers : List Modifier) (type : TypeSyntax)
      (parameters : List Parameter) (accessors : List Accessor)
  | method (attributes : List AttributeList) (modifiers : List Modifier) (returnType : TypeSyntax)
      (identifier : String) (typeParameters : List TypeParameter) (parameters : List Parameter)
      (constraints : List ConstraintClause) (body : Option (List Statement))
  | constructor (attributes : List AttributeList) (modifiers : List Modifier) (identifier : String)
      (parameters : List Parameter) (chain : Option ConstructorChain) (body : List Statement)
  | destructor (attributes : List AttributeList) (identifier : String) (body : List Statement)
  | operator (attributes : List AttributeList) (modifiers : List Modifier) (returnType : TypeSyntax)
      (token : OperatorToken) (parameters : List Parameter) (body : List Statement)
  | conversion (attributes : List AttributeList) (modifiers : List Modifier) (type : TypeSyntax)
      (parameters : List Parameter) (body : List Statement)
  | commented (trivia : Trivia) (inner : Member)

/-- `using Alias = Name;` -/
structure UsingDirective where
  shortName : Option String
  name : Name

/-- A whole file. -/
structure CompilationUnit where
  usings : List UsingDirective
  attributes : List AttributeList
  members : List Member

/-- An accessor that the compiler fills in. -/
def Accessor.auto (kind : AccessorKind) : Accessor :=
  ⟨kind, [], [], none⟩

namespace Member

/-- A member with comments; without any it stays as it is. -/
def withTrivia (member : Member) (trivia : Trivia) : Member :=
  if trivia.isEmpty then member else .commented trivia member

/-- A member without its comments. -/
def uncommented : Member → Member
  | .commented _ inner => inner.uncommented
  | other => other

/-- Members on one line stand without blank lines between them. -/
def isSingleLine (member : Member) : Bool :=
  match member.uncommented with
  | .field .. | .eventField .. | .delegate .. => true
  | .method _ _ _ _ _ _ _ body => body.isNone
  | .property _ _ _ _ accessors _ => accessors.all fun accessor => accessor.body.isNone
  | _ => false

end Member

end Sharpen.Target
