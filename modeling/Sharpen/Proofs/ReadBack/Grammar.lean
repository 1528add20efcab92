import Sharpen.Convert.Identifier
import Sharpen.Proofs.ReadBack.Lexer
import Sharpen.Target.Tree

/-!
# Reading expressions

The operator grammar of expressions, as a reader of tokens. From loose to tight:

* assignments and lambdas, grouping to the right;
* `a ? b : c`, then `??`, grouping to the right;
* ten rungs of operators that group to the left, from `||` to `*`, `is` and `as` among the
  relational ones;
* signs, casts to predefined types and `await`;
* names, literals and parentheses with what may be attached behind them.

The rules do not know how strongly the printer takes an operator to bind: the order of `rungs` and
the shape of the rules say it once more, in the words of the grammar. A rule calls the rules for its
parts through a `Grammar`, and `grammar n` may call itself `n` levels deep.

Casts to named types are outside this grammar. So `(x)(y)`, which could be such a cast, is read as a
call of `x`.
-/

namespace Sharpen.Target.ReadBack

/-- Reads something from the start of a list of tokens. -/
abbrev Reader (α : Type) := List Token → Option (α × List Token)

/-- The readers that a rule calls for its parts. -/
structure Grammar where
  expression : Reader Expr
  coalescing : Reader Expr
  unary : Reader Expr
  arguments : Reader (List Argument)

/-- What follows an expected symbol. -/
def expect (symbol : String) : List Token → Option (List Token)
  | [] => none
  | token :: rest => if token = .symbol symbol then some rest else none

/-- What is read first, changed by a function. -/
def Reader.map {α β : Type} (f : α → β) (reader : Reader α) : Reader β :=
  fun tokens => (reader tokens).map fun (value, rest) => (f value, rest)

/-! ## Repetition -/

/-- Attaches to an expression what the reader finds behind it, as often as it finds something. -/
def extend (attachment : Reader (Expr → Expr)) : Nat → Expr → List Token → Expr × List Token
  | 0, value, tokens => (value, tokens)
  | fuel + 1, value, tokens =>
    match attachment tokens with
    | some (attach, rest) => extend attachment fuel (attach value) rest
    | none => (value, tokens)

/-- An expression with everything that is attached behind it. Each attachment takes a token, so
there are no more of them than tokens. -/
def chain (first : Reader Expr) (attachment : Reader (Expr → Expr)) : Reader Expr := fun tokens =>
  (first tokens).map fun (value, rest) => extend attachment rest.length value rest

/-! ## Primary expressions -/

/-- Words that are literals. -/
def constants : List (String × Literal) :=
  [("null", .null), ("true", .bool true), ("false", .bool false)]

/-- A word that is a name. -/
def isName (text : String) : Bool :=
  !isTargetKeyword text && text ≠ "await"

/-- Names, literals and parentheses. -/
def atom (inner : Grammar) : Reader Expr
  | .number digits :: rest => some (.literal (.numeric digits), rest)
  | .string value :: rest => some (.literal (.string value), rest)
  | .char value :: rest => some (.literal (.char value), rest)
  | .word text :: rest =>
    match constants.lookup text with
    | some value => some (.literal value, rest)
    | none => if isName text then some (.identifier text, rest) else none
  | .symbol text :: rest =>
    if text = "(" then do
      let (value, rest) ← inner.expression rest
      let rest ← expect ")" rest
      return (.parenthesized value, rest)
    else none
  | [] => none

/-- The arguments up to a closing symbol. -/
def argumentsUpTo (inner : Grammar) (closing : String) : Reader (List Argument) := fun tokens =>
  match expect closing tokens with
  | some rest => some ([], rest)
  | none => do
    let (arguments, rest) ← inner.arguments tokens
    let rest ← expect closing rest
    return (arguments, rest)

/-- What may be attached behind a primary expression. -/
def attachment (inner : Grammar) : Reader (Expr → Expr)
  | .symbol "." :: .word name :: rest =>
    if isName name then some ((.memberAccess · name []), rest) else none
  | .symbol "(" :: rest =>
    (argumentsUpTo inner ")").map (fun arguments => (.invocation · arguments)) rest
  | .symbol "[" :: rest =>
    (argumentsUpTo inner "]").map (fun arguments => (.elementAccess · arguments)) rest
  | .symbol "++" :: rest => some ((.postfixUnary · .increment), rest)
  | .symbol "--" :: rest => some ((.postfixUnary · .decrement), rest)
  | _ => none

def primary (inner : Grammar) : Reader Expr :=
  chain (atom inner) (attachment inner)

/-! ## Unary expressions -/

/-- The keywords of the predefined types. -/
def types : List (Token × PredefinedType) :=
  [(.word "bool", .bool), (.word "byte", .byte), (.word "sbyte", .sbyte), (.word "char", .char),
    (.word "decimal", .decimal), (.word "double", .double), (.word "float", .float),
    (.word "int", .int), (.word "uint", .uint), (.word "long", .long), (.word "ulong", .ulong),
    (.word "object", .object), (.word "short", .short), (.word "ushort", .ushort),
    (.word "string", .string), (.word "void", .void)]

/-- The tokens that start a unary expression. -/
def signs : List (Token × (Expr → Expr)) :=
  [(.symbol "+", .prefixUnary .plus), (.symbol "-", .prefixUnary .minus),
    (.symbol "!", .prefixUnary .logicalNot), (.symbol "~", .prefixUnary .bitwiseNot),
    (.symbol "++", .prefixUnary .increment), (.symbol "--", .prefixUnary .decrement),
    (.word "await", .await)]

/-- What may stand before a unary expression. A parenthesized type is a cast. -/
def sign : Reader (Expr → Expr)
  | [] => none
  | token :: rest =>
    match signs.lookup token with
    | some apply => some (apply, rest)
    | none =>
      match token, rest with
      | .symbol "(", type :: .symbol ")" :: rest =>
        (types.lookup type).map fun keyword => (.cast (.predefined keyword), rest)
      | _, _ => none

def unary (inner : Grammar) : Reader Expr := fun tokens =>
  match sign tokens with
  | some (apply, rest) => Reader.map apply inner.unary rest
  | none => primary inner tokens

/-! ## Operators that group to the left -/

/-- What may stand between operands of one strength. -/
inductive Joint where
  | operator (operator : BinaryOperator)
  /-- `is` and `as`, with a type on the right -/
  | type (build : Expr → TypeSyntax → Expr)

/-- The operators of one strength. -/
abbrev Rung := List (Token × Joint)

/-- The operators that group to the left, the loosest first. -/
def rungs : List Rung :=
  [[(.symbol "||", .operator .logicalOr)], [(.symbol "&&", .operator .logicalAnd)],
    [(.symbol "|", .operator .bitwiseOr)],
    [(.symbol "^", .operator .exclusiveOr)],
    [(.symbol "&", .operator .bitwiseAnd)],
    [(.symbol "==", .operator .equals), (.symbol "!=", .operator .notEquals)],
    [(.symbol "<", .operator .lessThan), (.symbol "<=", .operator .lessThanOrEqual),
      (.symbol ">", .operator .greaterThan), (.symbol ">=", .operator .greaterThanOrEqual),
      (.word "is", .type .is), (.word "as", .type .as)],
    [(.symbol "<<", .operator .leftShift), (.symbol ">>", .operator .rightShift)],
    [(.symbol "+", .operator .add), (.symbol "-", .operator .subtract)],
    [(.symbol "*", .operator .multiply), (.symbol "/", .operator .divide),
      (.symbol "%", .operator .modulo)]]

/-- An operator of a rung with its right side. -/
def joint (rung : Rung) (operand : Reader Expr) : Reader (Expr → Expr)
  | [] => none
  | token :: rest =>
    match rung.lookup token, rest with
    | some (.operator operator), rest =>
      operand.map (fun right left => .binary left operator right) rest
    | some (.type build), type :: rest =>
      (types.lookup type).map fun keyword => ((build · (.predefined keyword)), rest)
    | _, _ => none

/-- Expressions of the given rungs and tighter ones. -/
def binary (inner : Grammar) : List Rung → Reader Expr
  | [] => unary inner
  | rung :: tighter => chain (binary inner tighter) (joint rung (binary inner tighter))

/-! ## What groups to the right -/

/-- Expressions with `??` and tighter ones. -/
def coalescing (inner : Grammar) : Reader Expr := fun tokens => do
  let (left, rest) ← binary inner rungs tokens
  match expect "??" rest with
  | some rest => inner.coalescing.map (.binary left .coalesce ·) rest
  | none => return (left, rest)

/-- `a ? b : c` and tighter expressions. -/
def conditional (inner : Grammar) : Reader Expr := fun tokens => do
  let (condition, rest) ← coalescing inner tokens
  match expect "?" rest with
  | some rest =>
    let (whenTrue, rest) ← inner.expression rest
    let rest ← expect ":" rest
    inner.expression.map (.conditional condition whenTrue ·) rest
  | none => return (condition, rest)

def assignments : List (Token × AssignmentOperator) :=
  [(.symbol "=", .simple), (.symbol "+=", .add), (.symbol "-=", .subtract),
    (.symbol "*=", .multiply), (.symbol "/=", .divide), (.symbol "%=", .modulo),
    (.symbol "<<=", .leftShift), (.symbol ">>=", .rightShift), (.symbol "&=", .and),
    (.symbol "|=", .or), (.symbol "^=", .exclusiveOr)]

/-- What a token makes of the expression before it and the one behind it: an assignment, or a lambda
if a name stands before it. -/
def loosest (left : Expr) (token : Token) : Option (Expr → Expr) :=
  match assignments.lookup token with
  | some operator => some (.assignment left operator ·)
  | none =>
    match left with
    | .identifier name =>
      if token = .symbol "=>" then some fun body => .lambda false (.simple name) (.expression body)
      else none
    | _ => none

def expression (inner : Grammar) : Reader Expr := fun tokens => do
  let (left, rest) ← conditional inner tokens
  match rest with
  | [] => return (left, [])
  | token :: behind =>
    match loosest left token with
    | some build => inner.expression.map build behind
    | none => return (left, rest)

/-- Arguments handed over by value and without a name, with commas. -/
def arguments (inner : Grammar) : Reader (List Argument) := fun tokens => do
  let (value, rest) ← expression inner tokens
  match expect "," rest with
  | some rest => inner.arguments.map (⟨none, none, value⟩ :: ·) rest
  | none => return ([⟨none, none, value⟩], rest)

/-- The grammar, for expressions nested at most `n` levels deep. -/
def grammar : Nat → Grammar
  | 0 => ⟨fun _ => none, fun _ => none, fun _ => none, fun _ => none⟩
  | n + 1 =>
    ⟨expression (grammar n), coalescing (grammar n), unary (grammar n), arguments (grammar n)⟩

/-- The expression that a text is. Each level of nesting takes a token. -/
def readExpression (text : String) : Option Expr := do
  let tokens ← lex text.toList
  match (grammar tokens.length).expression tokens with
  | some (value, []) => some value
  | _ => none

end Sharpen.Target.ReadBack
