import Sharpen.Comment
import Sharpen.Source.Name

/-!
# Expressions and statements of the source language

Expressions hold statements through lambda bodies and statements hold expressions, so both are
declared together with the pieces they are made of. Optional parts that have a shape of their own
say so with a constructor for their absence: `Initializer.absent`, `AsClause.absent`,
`LoopTest.absent`.
-/

namespace Sharpen.Source

/-- The value of a literal. Numbers and dates are kept as they are written. -/
inductive Literal where
  | nothing
  | boolean (value : Bool)
  | numeric (text : String)
  | string (value : String)
  | char (value : Char)
  | date (text : String)
  deriving DecidableEq, Inhabited

mutual

/-- An expression. -/
inductive Expr where
  | literal (id : NodeId) (value : Literal)
  /-- `$"a{b}"` -/
  | interpolated (id : NodeId) (contents : List Content)
  | name (name : SimpleName)
  | global (id : NodeId)
  /-- a type keyword as a receiver: `Integer.MaxValue` -/
  | predefinedType (id : NodeId) (keyword : PredefinedType)
  | me (id : NodeId)
  | myBase (id : NodeId)
  | myClass (id : NodeId)
  /-- `a.b`, or `.b` without a receiver -/
  | memberAccess (id : NodeId) (receiver : Option Expr) (name : SimpleName)
  /-- `a?.b` -/
  | conditionalAccess (id : NodeId) (receiver whenNotNull : Expr)
  /-- `a(b)`: a call or an element access -/
  | invocation (id : NodeId) (target : Expr) (arguments : List Argument)
  | objectCreation (id : NodeId) (type : TypeSyntax) (arguments : Option (List Argument))
      (initializer : Initializer)
  | arrayCreation (id : NodeId) (elementType : TypeSyntax) (bounds : Option (List Argument))
      (ranks : List UInt32) (itemsId : NodeId) (items : List Expr)
  /-- `{a, b}` -/
  | collection (id : NodeId) (items : List Expr)
  | binary (id : NodeId) (operator : BinaryOperator) (left right : Expr)
  | unary (id : NodeId) (operator : UnaryOperator) (operand : Expr)
  | parenthesized (id : NodeId) (inner : Expr)
  /-- `If(a, b)` -/
  | binaryConditional (id : NodeId) (first second : Expr)
  /-- `If(a, b, c)` -/
  | ternaryConditional (id : NodeId) (condition whenTrue whenFalse : Expr)
  | cast (id : NodeId) (kind : CastKind) (operand : Expr) (type : TypeSyntax)
  | predefinedCast (id : NodeId) (keyword : CastKeyword) (operand : Expr)
  | typeOf (id : NodeId) (operand : Expr) (type : TypeSyntax) (isNot : Bool)
  | getType (id : NodeId) (type : TypeSyntax)
  | nameOf (id : NodeId) (argument : Expr)
  | await (id : NodeId) (operand : Expr)
  | lambda (id : NodeId) (kind : MethodKind) (modifiers : List Modifier)
      (parameters : List Parameter) (asClause : Option TypeSyntax) (body : LambdaBody)
  /-- `New With {.A = 1}` -/
  | anonymousObject (id : NodeId) (fields : List FieldValue)
  | query (id : NodeId) (text : String)
  | xmlLiteral (id : NodeId) (text : String)

/-- An argument of a call, or a bound of an array. -/
inductive Argument where
  | simple (id : NodeId) (name : Option String) (value : Expr)
  | omitted (id : NodeId)

/-- A piece of an interpolated string: text as it is written, or a hole. -/
inductive Content where
  | text (text : String)
  | hole (id : NodeId) (value : Expr) (alignment : Option Expr) (format : Option String)

/-- What follows `New T(…)`: nothing, `From {…}` or `With {…}`. -/
inductive Initializer where
  | absent
  | collection (id : NodeId) (items : List Expr)
  | members (fields : List FieldValue)

/-- `.Name = value` -/
structure FieldValue where
  id : NodeId
  name : String
  value : Expr

/-- The body of a lambda: one expression, one statement, or a block. -/
inductive LambdaBody where
  | expression (value : Expr)
  | statement (statement : Statement)
  | block (statements : List Statement)

/-- `<Name(arguments)>` -/
structure Attribute where
  id : NodeId
  target : Option AttributeTarget
  name : Name
  arguments : List Argument

/-- A declared parameter. Attributes come in lists, one for each pair of angle brackets. -/
structure Parameter where
  id : NodeId
  attributes : List (List Attribute)
  modifiers : List Modifier
  identifier : String
  nullable : Bool
  arrayRanks : List UInt32
  asType : Option TypeSyntax
  defaultValue : Option Expr

/-- A declared name with the marks written on it: `a`, `a?`, `a(5)`, `a(,)`. -/
structure DeclaredName where
  id : NodeId
  identifier : String
  nullable : Bool
  arrayBounds : Option (List Argument)
  arrayRanks : List UInt32

/-- The `As` clause of a declaration: none, `As T`, or `As New T(…)`. -/
inductive AsClause where
  | absent
  | simple (attributes : List (List Attribute)) (type : TypeSyntax)
  | new (creation : Expr)

/-- Names that share an `As` clause and an initial value. -/
structure Declarator where
  names : List DeclaredName
  asClause : AsClause
  initializer : Option Expr

/-- A statement with its comments. -/
structure Statement where
  id : NodeId
  kind : StatementKind
  trivia : Trivia

/-- The kinds of statements. -/
inductive StatementKind where
  | localDeclaration (modifiers : List Modifier) (declarators : List Declarator)
  | expression (value : Expr)
  | call (value : Expr)
  | assignment (operator : AssignmentOperator) (left right : Expr)
  | return (value : Option Expr)
  | exit (block : BlockKind)
  | continue (block : BlockKind)
  | throw (value : Option Expr)
  | yield (value : Expr)
  | raiseEvent (name : SimpleName) (arguments : List Argument)
  | addHandler (event handler : Expr)
  | removeHandler (event handler : Expr)
  | singleLineIf (condition : Expr) (statements : List Statement)
      (elseStatements : Option (List Statement))
  | multiLineIf (condition : Expr) (statements : List Statement) (elseIfs : List ElseIfBlock)
      (elseStatements : Option (List Statement))
  | for (control : LoopControl) (start limit : Expr) (step : Option Expr)
      (statements : List Statement)
  | forEach (control : LoopControl) (items : Expr) (statements : List Statement)
  | select (subject : Expr) (cases : List CaseBlock)
  | with (target : Expr) (statements : List Statement)
  | try (statements : List Statement) (catches : List CatchBlock)
      (finallyStatements : Option (List Statement))
  | syncLock (subject : Expr) (statements : List Statement)
  | usingValue (resource : Expr) (statements : List Statement)
  | usingVariables (resources : List Declarator) (statements : List Statement)
  | while (condition : Expr) (statements : List Statement)
  | doLoop (top bottom : LoopTest) (statements : List Statement)
  | stop
  | end
  | onErrorGoTo (label : String)
  | onErrorResumeNext
  | resume (label : Option String)
  | reDim (preserve : Bool) (clauses : List Expr)
  | erase (targets : List Expr)
  | goTo (label : String)
  | label (label : String)

/-- `ElseIf condition Then …` -/
structure ElseIfBlock where
  condition : Expr
  statements : List Statement
  trivia : Trivia

/-- What a `Case` compares with. -/
inductive CaseClause where
  | simple (value : Expr)
  | relational (operator : BinaryOperator) (value : Expr)
  | range (lower upper : Expr)
  | else

/-- `Case clauses …` -/
structure CaseBlock where
  clauses : List CaseClause
  statements : List Statement
  trivia : Trivia

/-- `Catch identifier As type When filter …` -/
structure CatchBlock where
  id : NodeId
  identifier : Option String
  asType : Option TypeSyntax
  filter : Option Expr
  statements : List Statement
  trivia : Trivia

/-- What a `For` loop counts with: a variable of its own, or an existing one. -/
inductive LoopControl where
  | declarator (declarator : Declarator)
  | existing (target : Expr)

/-- The test at one end of a `Do` loop. -/
inductive LoopTest where
  | absent
  | present (kind : TestKind) (condition : Expr)

end

instance : Inhabited Expr := ⟨.me 0⟩
instance : Inhabited Argument := ⟨.omitted 0⟩
instance : Inhabited Statement := ⟨⟨0, .stop, {}⟩⟩

end Sharpen.Source
