import Sharpen.Convert.Monad

/-!
# Numerals

A numeral has an optional prefix for its base, digits, and an optional type mark: `&HFFUI`, `&O17`,
`12.5D`. The digits are kept, except that octal digits are written in decimal; the type mark is
replaced by that of the target. Letter case does not matter.
-/

namespace Sharpen.Numeral

/-- Type marks of whole numbers, longer ones first. -/
def wholeMarks : List (List Char) :=
  [['U', 'L'], ['U', 'S'], ['U', 'I'], ['L'], ['S'], ['I'], ['%'], ['&']]

/-- Type marks of decimal numerals, longer ones first. -/
def decimalMarks : List (List Char) :=
  [['U', 'L'], ['U', 'S'], ['U', 'I'], ['L'], ['S'], ['I'], ['D'], ['F'], ['R'],
    ['%'], ['&'], ['@'],
    ['!'], ['#']]

/-- Digits and the type mark behind them: the first mark of the list that leaves a digit. -/
def splitMark (marks : List (List Char)) (cs : List Char) : List Char × List Char :=
  match marks.findSome? fun mark =>
      match Text.beforeEnd? mark cs with
      | some (c :: digits) => some (c :: digits, mark)
      | _ => none with
  | some parts => parts
  | none => (cs, [])

/-- The type mark of the target. Types shorter than `int`, and `int` itself, have none. -/
def targetMark : List Char → String
  | ['U', 'L'] => "UL"
  | ['U', 'I'] => "U"
  | ['L'] | ['&'] => "L"
  | ['D'] | ['@'] => "M"
  | ['F'] | ['!'] => "F"
  | ['R'] | ['#'] => "D"
  | _ => ""

/-- The value of octal digits below `2 ^ 64`, if there are any and no other characters. -/
def octal? : List Char → Option Nat
  | [] => none
  | digits =>
    digits.foldlM (fun value digit =>
      if '0' ≤ digit ∧ digit ≤ '7' then
        let next := value * 8 + (digit.toNat - '0'.toNat)
        if next < UInt64.size then some next else none
      else none) 0

/-- The value of an octal numeral, which may have a plus sign; underscores between digits do not
count. -/
def octalValue? (digits : List Char) : Option Nat :=
  match digits.filter (· != '_') with
  | '+' :: rest => octal? rest
  | plain => octal? plain

/-- The numeral of the target. -/
def convert (text : String) : Except ConversionError String :=
  let upper := (Text.upper (Text.trim text)).toList
  match Text.afterStart? ['&', 'H'] upper with
  | some rest =>
    let (digits, mark) := splitMark wholeMarks rest
    .ok ("0x" ++ String.ofList digits ++ targetMark mark)
  | none =>
    match Text.afterStart? ['&', 'B'] upper with
    | some rest =>
      let (digits, mark) := splitMark wholeMarks rest
      .ok ("0b" ++ String.ofList digits ++ targetMark mark)
    | none =>
      match Text.afterStart? ['&', 'O'] upper with
      | some rest =>
        let (digits, mark) := splitMark wholeMarks rest
        match octalValue? digits with
        | some value => .ok (toString value ++ targetMark mark)
        | none => .error (.unsupported "NumericLiteral" ("malformed octal literal " ++ text))
      | none =>
        let (digits, mark) := splitMark decimalMarks upper
        .ok (String.ofList digits ++ targetMark mark)

/-- The greatest signed integer of sixty-four bits. -/
def greatest : Int := 9223372036854775807

/-- The least signed integer of sixty-four bits. -/
def least : Int := -9223372036854775808

/-- The value of decimal digits, if there are any and no other characters. -/
def decimal? (cs : List Char) : Option Nat :=
  if !cs.isEmpty && cs.all Char.isDigit then
    some (cs.foldl (fun value digit => value * 10 + (digit.toNat - '0'.toNat)) 0)
  else none

/-- The value of a whole number with an optional sign, if it fits sixty-four bits. -/
def integer? (text : String) : Option Int := do
  let value ←
    match text.toList with
    | '-' :: digits => (decimal? digits).map fun value => -(value : Int)
    | '+' :: digits => (decimal? digits).map Int.ofNat
    | digits => (decimal? digits).map Int.ofNat
  if least ≤ value ∧ value ≤ greatest then some value else none

/-- The next integer, if it fits sixty-four bits. -/
def next? (value : Int) : Option Int :=
  if value < greatest then some (value + 1) else none

end Sharpen.Numeral
