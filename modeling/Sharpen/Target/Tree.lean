import Sharpen.Comment
import Sharpen.Target.Token

/-!
# Names, types, expressions and statements of the target language

The tree that conversion builds and the printer lays out. Nodes carry neither numbers nor positions.
Comments ride along as `commented` wrappers, so that a node without comments is plain.

Names, types, expressions and statements refer to each other: an array type may hold the sizes of an
array creation, and a lambda may hold statements. They are declared together.
-/

namespace Sharpen.Target

/-- The value of a literal. Numbers are kept as they are written. -/
inductive Literal where
  | null
  | bool (value : Bool)
  | numeric (text : String)
  | string (value : String)
  | char (value : Char)
  deriving DecidableEq, Inhabited

mutual

/-- A possibly qualified name. -/
inductive Name where
  | identifier (text : String)
  | generic (text : String) (typeArguments : List TypeSyntax)
  | qualified (left right : Name)
  /-- `global::System` -/
  | aliasQualified (shortName : String) (name : Name)

/-- A type as it is written. -/
inductive TypeSyntax where
  | predefined (keyword : PredefinedType)
  | named (name : Name)
  /-- one list of sizes for each pair of brackets, `none` for a size that is left out -/
  | array (element : TypeSyntax) (ranks : List (List (Option Expr)))
  | nullable (element : TypeSyntax)
  /-- the inferred type of a local variable -/
  | var

/-- An expression. -/
inductive Expr where
  | literal (value : Literal)
  /-- `$"a{b}"` -/
  | interpolated (contents : List Content)
  | identifier (text : String)
  | generic (text : String) (typeArguments : List TypeSyntax)
  /-- a type keyword as a receiver: `int.MaxValue` -/
  | predefinedType (keyword : PredefinedType)
  /-- `global::Name` -/
  | aliasQualified (shortName name : String)
  | this
  | base
  | memberAccess (receiver : Expr) (name : String) (typeArguments : List TypeSyntax)
  /-- `.Name` on the right of a conditional access -/
  | memberBinding (name : String)
  /-- `a?.b` -/
  | conditionalAccess (receiver whenNotNull : Expr)
  | invocation (target : Expr) (arguments : List Argument)
  | elementAccess (target : Expr) (arguments : List Argument)
  | objectCreation (type : TypeSyntax) (arguments : Option (List Argument)) (initializer : Braces)
  | arrayCreation (type : TypeSyntax) (initializer : Braces)
  /-- `new[] { a, b }` -/
  | implicitArray (kind : BracesKind) (items : List Expr)
  /-- `{ a, b }`, valid only as the initial value of a variable -/
  | braces (kind : BracesKind) (items : List Expr)
  /-- `new { A = 1 }` -/
  | anonymousObject (fields : List FieldValue)
  | binary (left : Expr) (operator : BinaryOperator) (right : Expr)
  | assignment (left : Expr) (operator : AssignmentOperator) (right : Expr)
  | prefixUnary (operator : PrefixOperator) (operand : Expr)
  | postfixUnary (operand : Expr) (operator : PostfixOperator)
  | conditional (condition whenTrue whenFalse : Expr)
  | cast (type : TypeSyntax) (operand : Expr)
  | as (operand : Expr) (type : TypeSyntax)
  | is (operand : Expr) (type : TypeSyntax)
  | typeOf (type : TypeSyntax)
  | defaultOf (type : TypeSyntax)
  | parenthesized (inner : Expr)
  | lambda (isAsync : Bool) (parameters : LambdaParameters) (body : LambdaBody)
  | await (operand : Expr)
  /-- `expr /* comment */` -/
  | commented (inner : Expr) (comment : String)

/-- An argument of a call. -/
structure Argument where
  name : Option String
  passing : Option Passing
  value : Expr

/-- A piece of an interpolated string: text with doubled braces, or a hole. -/
inductive Content where
  | text (text : String)
  | hole (value : Expr) (alignment : Option Expr) (format : Option String)

/-- A braced initializer, or none. -/
inductive Braces where
  | absent
  | present (kind : BracesKind) (items : List Expr)

/-- `Name = value` -/
structure FieldValue where
  name : String
  value : Expr

/-- `x`, or `(x, y)`. -/
inductive LambdaParameters where
  | simple (identifier : String)
  | list (parameters : List Parameter)

/-- The body of a lambda. -/
inductive LambdaBody where
  | expression (value : Expr)
  | block (statements : List Statement)

/-- A declared parameter. Only a lambda may leave the type out. -/
structure Parameter where
  attributes : List AttributeList
  modifiers : List Modifier
  type : Option TypeSyntax
  identifier : String
  defaultValue : Option Expr

/-- `[target: A, B]` -/
structure AttributeList where
  target : Option AttributeTarget
  attributes : List Attribute

/-- `Name(arguments)` -/
structure Attribute where
  name : Name
  arguments : List AttributeArgument

/-- `value`, or `Name = value`. -/
structure AttributeArgument where
  name : Option String
  value : Expr

/-- `int a = 1, b` -/
structure Variables where
  type : TypeSyntax
  declarators : List Declarator

/-- `a = 1` -/
structure Declarator where
  identifier : String
  initializer : Option Expr

/-- What stands first between the parentheses of `for` and `using`. -/
inductive Opening where
  | declared (group : Variables)
  | expressions (values : List Expr)

/-- A statement. -/
inductive Statement where
  | localDeclaration (modifiers : List Modifier) (declared : Variables)
  | expression (value : Expr)
  | block (statements : List Statement)
  | return (value : Option Expr)
  | yieldReturn (value : Expr)
  | yieldBreak
  | break
  | continue
  | throw (value : Option Expr)
  | if (condition : Expr) (body : Statement) (elseBody : Option Statement)
  | for (opening : Opening) (condition : Option Expr) (incrementors : List Expr) (body : Statement)
  | forEach (type : TypeSyntax) (identifier : String) (items : Expr) (body : Statement)
  | while (condition : Expr) (body : Statement)
  | do (body : Statement) (condition : Expr)
  | switch (subject : Expr) (sections : List SwitchSection)
  | try (body : List Statement) (catches : List CatchClause)
      (finallyBody : Option (List Statement))
  | lock (subject : Expr) (body : Statement)
  | using (opening : Opening) (body : Statement)
  | empty
  | commented (trivia : Trivia) (inner : Statement)

/-- The labels of a section, `none` standing for `default`, and its statements. -/
structure SwitchSection where
  labels : List (Option Expr)
  statements : List Statement

/-- `catch (T e) when (filter) { … }` -/
structure CatchClause where
  header : CatchHeader
  filter : Option Expr
  body : List Statement

/-- What a `catch` catches: everything, or one type under an optional name. -/
inductive CatchHeader where
  | all
  | typed (type : TypeSyntax) (identifier : Option String)

end

instance : Inhabited TypeSyntax := ⟨.var⟩
instance : Inhabited Expr := ⟨.this⟩
instance : Inhabited Statement := ⟨.empty⟩

end Sharpen.Target
