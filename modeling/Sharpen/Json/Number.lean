import Sharpen.Json.Basic

/-!
# Numbers in JSON text

A number without fraction and exponent is an integer as long as it fits sixty-four bits. Any other
number is a floating-point number found in a fixed way: the digits are gathered in a significand of
at most sixty-four bits, digits that no longer fit being dropped, and the significand is then
multiplied or divided once by a power of ten. The result may differ from the nearest floating-point
number in its last place; it never depends on more than the significand and the exponent.
-/

namespace Sharpen.Json

/-- A number while its digits are gathered: its value is `significand * 10 ^ exponent`. -/
structure Gathered where
  significand : Nat
  exponent : Int
  /-- a digit has been dropped, and so are all that follow -/
  full : Bool

namespace Gathered

/-- The greatest significand. -/
def greatest : Nat := 18446744073709551615

/-- A digit before the point: one that is dropped still moves the point. -/
def pushWhole (number : Gathered) (digit : Nat) : Gathered :=
  if number.full || number.significand * 10 + digit > greatest then
    { number with exponent := number.exponent + 1, full := true }
  else { number with significand := number.significand * 10 + digit }

/-- A digit behind the point: one that is dropped has no effect. -/
def pushFraction (number : Gathered) (digit : Nat) : Gathered :=
  if number.full || number.significand * 10 + digit > greatest then { number with full := true }
  else
    { number with
      significand := number.significand * 10 + digit
      exponent := number.exponent - 1 }

end Gathered

/-- The greatest power of ten that is a floating-point number. -/
def greatestPower : Nat := 308

/-- A power of ten, the nearest floating-point number to it. -/
def powerOfTen (exponent : Nat) : Float :=
  OfScientific.ofScientific 1 false exponent

/-- A number divided by a power of ten, in steps that are floating-point numbers. -/
def dividedByPower (value : Float) (exponent : Nat) : Float :=
  if exponent ≤ greatestPower then value / powerOfTen exponent
  else if value == 0 then value
  else dividedByPower (value / powerOfTen greatestPower) (exponent - greatestPower)
termination_by exponent
decreasing_by simp only [greatestPower] at *; omega

/-- A number multiplied by a power of ten, unless that is too great. -/
def multipliedByPower? (value : Float) (exponent : Nat) : Option Float :=
  if exponent ≤ greatestPower then
    let product := value * powerOfTen exponent
    if product.isInf then none else some product
  else if value == 0 then some value
  else none

/-- The floating-point number `significand * 10 ^ exponent`, unless it is too great. -/
def scaled? (significand : Nat) : Int → Option Float
  | .ofNat exponent => multipliedByPower? (UInt64.ofNat significand).toFloat exponent
  | .negSucc exponent => some (dividedByPower (UInt64.ofNat significand).toFloat (exponent + 1))

/-- A floating-point number with its sign. -/
def ofFloat (negative : Bool) (value : Float) : Json :=
  .float (if negative then -value else value).toBits

/-- The number `significand * 10 ^ exponent` with its sign; one that is too great is unreadable. -/
def ofScaled (negative : Bool) (significand : Nat) (exponent : Int) : Json :=
  match scaled? significand exponent with
  | some value => ofFloat negative value
  | none => .unreadable

/-- The value of a decimal digit. -/
def digitValue (c : Char) : Nat :=
  c.toNat - '0'.toNat

/-- The greatest exponent that is read exactly. -/
def greatestExponent : Nat := 2147483647

/-- The number behind an exponent sign, if it is not too great. -/
def exponentOf? (digits : List Char) : Option Nat :=
  digits.foldlM (fun exponent digit =>
    let next := exponent * 10 + digitValue digit
    if next > greatestExponent then none else some next) 0

/-- The number with the exponent that `e` starts: too great an exponent makes a number zero or too
great. -/
def withExponent (negative : Bool) (number : Gathered) (exponentNegative : Bool)
    (digits : List Char) : Json :=
  match exponentOf? digits with
  | some exponent =>
    let moved := if exponentNegative then number.exponent - exponent else number.exponent + exponent
    ofScaled negative number.significand moved
  | none =>
    if number.significand ≠ 0 && !exponentNegative then .unreadable else ofFloat negative 0

/-- The value of a number without fraction and exponent. -/
def ofWhole (negative : Bool) (number : Gathered) : Json :=
  if number.full then ofScaled negative number.significand number.exponent
  else if !negative then .int number.significand
  else if 0 < number.significand ∧ number.significand ≤ 9223372036854775808 then
    .int (-number.significand)
  else ofFloat true (UInt64.ofNat number.significand).toFloat

/-- What follows the digits of a number: nothing, or an exponent. -/
def afterDigits? (negative : Bool) (number : Gathered) (whole : Bool) : List Char → Option Json
  | [] =>
    if whole then some (ofWhole negative number)
    else some (ofScaled negative number.significand number.exponent)
  | mark :: rest =>
    if mark == 'e' || mark == 'E' then
      let (exponentNegative, digits) :=
        match rest with
        | '-' :: digits => (true, digits)
        | '+' :: digits => (false, digits)
        | digits => (false, digits)
      if !digits.isEmpty && digits.all Char.isDigit then
        some (withExponent negative number exponentNegative digits)
      else none
    else none

/-- What follows the digits before the point. -/
def afterWhole? (negative : Bool) (number : Gathered) : List Char → Option Json
  | '.' :: rest =>
    let digits := rest.takeWhile Char.isDigit
    if digits.isEmpty then none
    else
      let start := { number with full := false }
      let gathered :=
        digits.foldl (fun gathered digit => gathered.pushFraction (digitValue digit)) start
      afterDigits? negative gathered false (rest.dropWhile Char.isDigit)
  | rest => afterDigits? negative number true rest

/-- The value of a number without its sign. A leading zero stands alone. -/
def unsigned? (negative : Bool) (cs : List Char) : Option Json :=
  let digits := cs.takeWhile Char.isDigit
  if digits.isEmpty || (digits.head? == some '0' && digits.length > 1) then none
  else
    let number := digits.foldl (fun gathered digit => gathered.pushWhole (digitValue digit))
      { significand := 0, exponent := 0, full := false }
    afterWhole? negative number (cs.dropWhile Char.isDigit)

/-- The value of a number text. -/
def number? : List Char → Option Json
  | '-' :: rest => unsigned? true rest
  | cs => unsigned? false cs

end Sharpen.Json
