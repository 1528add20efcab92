import Sharpen.Target.Tree

/-!
# Binding strength of operators

Printing inserts parentheses from the binding strength of operators, so a tree need not carry
parenthesized nodes to keep its meaning. Strengths grow from assignment to primary expressions.
-/

namespace Sharpen.Target

/-- Binding strengths that several rules refer to. -/
def Strength.assignment : Nat := 1

@[inherit_doc Strength.assignment]
def Strength.conditional : Nat := 2

@[inherit_doc Strength.assignment]
def Strength.coalesce : Nat := 3

@[inherit_doc Strength.assignment]
def Strength.relational : Nat := 10

@[inherit_doc Strength.assignment]
def Strength.unary : Nat := 14

@[inherit_doc Strength.assignment]
def Strength.primary : Nat := 15

/-- How strongly a binary operator binds. -/
def BinaryOperator.strength : BinaryOperator → Nat
  | .coalesce => Strength.coalesce
  | .logicalOr => 4
  | .logicalAnd => 5
  | .bitwiseOr => 6
  | .exclusiveOr => 7
  | .bitwiseAnd => 8
  | .equals | .notEquals => 9
  | .lessThan | .lessThanOrEqual | .greaterThan | .greaterThanOrEqual => Strength.relational
  | .leftShift | .rightShift => 11
  | .add | .subtract => 12
  | .multiply | .divide | .modulo => 13

/-- The least strength of the left operand: `??` groups to the right, every other operator to the
left. -/
def BinaryOperator.leftStrength (operator : BinaryOperator) : Nat :=
  if operator = .coalesce then operator.strength + 1 else operator.strength

/-- The least strength of the right operand. -/
def BinaryOperator.rightStrength (operator : BinaryOperator) : Nat :=
  if operator = .coalesce then operator.strength else operator.strength + 1

namespace PrefixOperator

/-- Operators written with minus signs. -/
def isMinus : PrefixOperator → Bool
  | .minus | .decrement => true
  | _ => false

/-- Operators written with plus signs. -/
def isPlus : PrefixOperator → Bool
  | .plus | .increment => true
  | _ => false

/-- Two operators whose tokens would run together into another one. -/
def clashes (outer inner : PrefixOperator) : Bool :=
  (outer.isMinus && inner.isMinus) || (outer.isPlus && inner.isPlus)

end PrefixOperator

namespace Expr

/-- How strongly an expression holds together. A comment does not count. -/
def strength : Expr → Nat
  | .assignment .. | .lambda .. => Strength.assignment
  | .conditional .. => Strength.conditional
  | .binary _ operator _ => operator.strength
  | .as .. | .is .. => Strength.relational
  | .prefixUnary .. | .cast .. | .await .. => Strength.unary
  | .commented inner _ => inner.strength
  | _ => Strength.primary

/-- An operand that has to be parenthesized behind `operator` to keep the two tokens apart. -/
def clashesWith (operator : PrefixOperator) : Expr → Bool
  | .prefixUnary inner _ => operator.clashes inner
  | _ => false

/-- An operand that starts with a sign: behind a cast to a named type it would be read as the right
side of an addition or subtraction. -/
def isSigned : Expr → Bool
  | .prefixUnary operator _ => operator.isMinus || operator.isPlus
  | _ => false

/-- A conditional expression: inside an interpolation hole its colon would start the format. -/
def isConditional : Expr → Bool
  | .conditional .. => true
  | _ => false

end Expr

namespace TypeSyntax

/-- A type that is a keyword. -/
def isPredefined : TypeSyntax → Bool
  | .predefined _ => true
  | _ => false

end TypeSyntax

namespace Statement

/-- A `using` statement: directly nested ones stand at the same level. -/
def isUsing : Statement → Bool
  | .using .. => true
  | _ => false

/-- An `if` statement: behind `else` it stays on the line. -/
def isIf : Statement → Bool
  | .if .. => true
  | _ => false

end Statement

end Sharpen.Target
