import Sharpen.Convert.Monad
import Sharpen.Target.Token

/-!
# Operators

The operators of the target. A power has no operator and becomes a call; comparison with a pattern
has no counterpart at all.
-/

namespace Sharpen

/-- What becomes of an operator between two expressions. -/
inductive BinaryMapping where
  | operator (token : Target.BinaryOperator)
  /-- a call of `Math.Pow` -/
  | power
  deriving DecidableEq, Inhabited

/-- The counterpart of an operator between two expressions. -/
def Source.BinaryOperator.convert : Source.BinaryOperator → Except ConversionError BinaryMapping
  | .add | .concatenate => .ok (.operator .add)
  | .subtract => .ok (.operator .subtract)
  | .multiply => .ok (.operator .multiply)
  | .divide | .integerDivide => .ok (.operator .divide)
  | .modulo => .ok (.operator .modulo)
  | .power => .ok .power
  | .leftShift => .ok (.operator .leftShift)
  | .rightShift => .ok (.operator .rightShift)
  | .equals | .is => .ok (.operator .equals)
  | .notEquals | .isNot => .ok (.operator .notEquals)
  | .lessThan => .ok (.operator .lessThan)
  | .lessThanOrEqual => .ok (.operator .lessThanOrEqual)
  | .greaterThan => .ok (.operator .greaterThan)
  | .greaterThanOrEqual => .ok (.operator .greaterThanOrEqual)
  | .and => .ok (.operator .bitwiseAnd)
  | .or => .ok (.operator .bitwiseOr)
  | .xor => .ok (.operator .exclusiveOr)
  | .andAlso => .ok (.operator .logicalAnd)
  | .orElse => .ok (.operator .logicalOr)
  | .like =>
    .error (.unsupported "LikeExpression" "pattern matching with Like has no C# operator")

/-- The counterpart of an assignment operator. -/
def Source.AssignmentOperator.convert :
    Source.AssignmentOperator → Except ConversionError Target.AssignmentOperator
  | .simple => .ok .simple
  | .add | .concatenate => .ok .add
  | .subtract => .ok .subtract
  | .multiply => .ok .multiply
  | .divide | .integerDivide => .ok .divide
  | .leftShift => .ok .leftShift
  | .rightShift => .ok .rightShift
  | .power =>
    .error (.unsupported "ExponentiateAssignmentStatement" "^= has no C# compound assignment")

/-- The operator that a declaration overloads. A conversion is no operator of the target. -/
def Source.OverloadableOperator.convert (operator : Source.OverloadableOperator) :
    Except ConversionError Target.OperatorToken :=
  match operator with
  | .plus | .concatenate => .ok .plus
  | .minus => .ok .minus
  | .multiply => .ok .multiply
  | .divide | .integerDivide => .ok .divide
  | .modulo => .ok .modulo
  | .equals => .ok .equals
  | .notEquals => .ok .notEquals
  | .lessThan => .ok .lessThan
  | .lessThanOrEqual => .ok .lessThanOrEqual
  | .greaterThan => .ok .greaterThan
  | .greaterThanOrEqual => .ok .greaterThanOrEqual
  | .and => .ok .bitwiseAnd
  | .or => .ok .bitwiseOr
  | .xor => .ok .exclusiveOr
  | .not => .ok .logicalNot
  | .leftShift => .ok .leftShift
  | .rightShift => .ok .rightShift
  | .isTrue => .ok .true
  | .isFalse => .ok .false
  | .power | .like | .ctype =>
    .error (.unsupported "OperatorStatement"
      ("operator " ++ Vocabulary.spelling operator ++ " has no C# overload"))

end Sharpen
