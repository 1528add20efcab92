import Sharpen.Target.Tree
import Sharpen.Text.Blank

/-!
# Short ways to write target trees

Dotted names, calls, plain local declarations and comment wrappers, and the few questions that
conversion asks of a finished node.
-/

namespace Sharpen.Target

namespace Name

/-- A dotted name, qualified from the left: `System.Text` is `Text` inside `System`. -/
def dotted (path : String) : Name :=
  match Text.dottedParts path with
  | [] => .identifier ""
  | first :: rest =>
    rest.foldl (fun name part => .qualified name (.identifier part)) (.identifier first)

end Name

namespace TypeSyntax

def dotted (path : String) : TypeSyntax :=
  .named (Name.dotted path)

/-- The type of methods that give no value. -/
def void : TypeSyntax := .predefined .void

/-- The type of everything. -/
def object : TypeSyntax := .predefined .object

def isVoid : TypeSyntax → Bool
  | .predefined .void => true
  | _ => false

/-- The inferred type. -/
def isVar : TypeSyntax → Bool
  | .var => true
  | _ => false

/-- A rank specifier without sizes: `[]`, `[,]`. It has at least one dimension. -/
def unsizedRank (dimensions : Nat) : List (Option Expr) :=
  List.replicate (max dimensions 1) none

/-- The array of one dimension over a type. -/
def arrayOf (element : TypeSyntax) : TypeSyntax :=
  .array element [unsizedRank 1]

/-- `T?`; of an array the element becomes nullable, not the array. -/
def nullableOf : TypeSyntax → TypeSyntax
  | .array element ranks => .array (.nullable element) ranks
  | other => .nullable other

/-- Rank specifiers written outside those that a type already has. They come first. -/
def withOuterRanks (type : TypeSyntax) (ranks : List (List (Option Expr))) : TypeSyntax :=
  if ranks.isEmpty then type
  else match type with
    | .array element inner => .array element (ranks ++ inner)
    | other => .array other ranks

end TypeSyntax

namespace Expr

def null : Expr := .literal .null

def number (text : String) : Expr := .literal (.numeric text)

def string (value : String) : Expr := .literal (.string value)

/-- A member access without type arguments. -/
def member (receiver : Expr) (name : String) : Expr :=
  .memberAccess receiver name []

/-- A chain of member accesses: `System.Environment.Exit`. -/
def dotted (path : String) : Expr :=
  match Text.dottedParts path with
  | [] => .identifier ""
  | first :: rest => rest.foldl member (.identifier first)

/-- A call with plain arguments. -/
def call (target : Expr) (values : List Expr) : Expr :=
  .invocation target (values.map fun value => ⟨none, none, value⟩)

end Expr

namespace Variables

/-- The declaration of one variable. -/
def single (type : TypeSyntax) (identifier : String) (initializer : Option Expr) : Variables :=
  ⟨type, [⟨identifier, initializer⟩]⟩

end Variables

namespace Statement

/-- A local variable without modifiers. -/
def localVariable (type : TypeSyntax) (identifier : String) (initializer : Option Expr) :
    Statement :=
  .localDeclaration [] (Variables.single type identifier initializer)

/-- A statement with comments; without any it stays as it is. -/
def withTrivia (statement : Statement) (trivia : Trivia) : Statement :=
  if trivia.isEmpty then statement else .commented trivia statement

/-- A statement without its comments. -/
def uncommented : Statement → Statement
  | .commented _ inner => inner.uncommented
  | other => other

/-- Control never reaches what follows the statement. -/
def isJump (statement : Statement) : Bool :=
  match statement.uncommented with
  | .return _ | .yieldBreak | .break | .continue | .throw _ => true
  | _ => false

/-- A declaration of local variables, comments ignored. -/
def isLocalDeclaration (statement : Statement) : Bool :=
  match statement.uncommented with
  | .localDeclaration _ _ => true
  | _ => false

end Statement

end Sharpen.Target
