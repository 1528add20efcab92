/-!
# The shortest decimal text of a floating-point number

A positive floating-point number is `m * 2 ^ q`. The decimals that read back as it are those between
the middles to its two neighbours, the middles included when `m` is even. `Binary.decimal` finds
the one with the fewest digits, and among those the nearest, in exact arithmetic on natural numbers:
for each count of digits from one to seventeen it looks at the two decimals of that length next to
the number.

`Shortest.text` writes it: positionally when the point lies within or near the digits, with an
exponent otherwise.
-/

namespace Sharpen.Json.Shortest

/-- A positive number `m * 2 ^ q` together with whether the number below it is closer than the one
above it. -/
structure Binary where
  m : Nat
  q : Int
  atPower : Bool

/-- The number that bits write, its sign aside. -/
def Binary.ofBits (bits : UInt64) : Binary :=
  let fraction : Nat := bits.toNat % 4503599627370496
  let field : Nat := bits.toNat / 4503599627370496 % 2048
  if field = 0 then ⟨fraction, -1074, false⟩
  else ⟨fraction + 4503599627370496, (field : Int) - 1075, fraction = 0 && field > 1⟩

/-- `value * 2 ^ twos * 10 ^ tens` as a quotient of natural numbers. -/
def quotient (value : Nat) (twos tens : Int) : Nat × Nat :=
  (value * Nat.pow 2 twos.toNat * Nat.pow 10 tens.toNat,
    Nat.pow 2 (-twos).toNat * Nat.pow 10 (-tens).toNat)

/-- Compares two quotients. -/
def quotientLe (a b : Nat × Nat) : Bool :=
  a.1 * b.2 ≤ b.1 * a.2

/-- A decimal `digits * 10 ^ exponent` reads back as the number. -/
def Binary.readsBack (number : Binary) (digits : Nat) (exponent : Int) : Bool :=
  let decimal := quotient digits 0 exponent
  -- the middles, counted in quarters of the last place
  let lower := quotient (4 * number.m - if number.atPower then 1 else 2) (number.q - 2) 0
  let upper := quotient (4 * number.m + 2) (number.q - 2) 0
  if number.m % 2 = 0 then quotientLe lower decimal && quotientLe decimal upper
  else !quotientLe decimal lower && !quotientLe upper decimal

/-- The distance between a decimal and the number, in units of `2 ^ (q - 2) * 10 ^ exponent` with
denominators cleared; only comparisons of distances on one grid matter. -/
def Binary.distance (number : Binary) (digits : Nat) (exponent : Int) : Nat :=
  let decimal := quotient digits 0 exponent
  let exact := quotient number.m number.q 0
  let a := decimal.1 * exact.2
  let b := exact.1 * decimal.2
  if a ≤ b then b - a else a - b

/-- The decimal with last place `10 ^ exponent` that reads back, the nearer one if there are two. -/
def Binary.onGrid? (number : Binary) (exponent : Int) : Option Nat :=
  let scaled := quotient number.m number.q (-exponent)
  let below := scaled.1 / scaled.2
  match number.readsBack below exponent && below > 0, number.readsBack (below + 1) exponent with
  | true, true =>
    if number.distance below exponent < number.distance (below + 1) exponent then some below
    else if number.distance (below + 1) exponent <
      number.distance below exponent then some (below + 1)
    else if below % 2 = 0 then some below else some (below + 1)
  | true, false => some below
  | false, true => some (below + 1)
  | false, false => none

/-- The number of decimal digits. -/
def width (n : Nat) : Nat :=
  (Nat.toDigits 10 n).length

/-- The exponent of the first decimal digit of a positive number. -/
def Binary.magnitude (number : Binary) : Int :=
  let (above, below) := quotient number.m number.q 0
  if below ≤ above then (width (above / below) : Int) - 1
  else
    let guess := -((width below : Int) - width above)
    -- the quotient of the two is within a factor of ten of the guess
    let (a, b) := quotient number.m number.q (-guess)
    if b ≤ a then guess else guess - 1

/-- The shortest decimal on the grids from `exponent` downwards, at most `count` of them. -/
def Binary.search (number : Binary) : (count : Nat) → (exponent : Int) → Nat × Int
  | 0, exponent => ((quotient number.m number.q (-exponent)).1, exponent)
  | count + 1, exponent =>
    match number.onGrid? exponent with
    | some digits => (digits, exponent)
    | none => number.search count (exponent - 1)

/-- A number without the zeros at its end, and how many they are. -/
def withoutZeros (digits : List Char) : List Char × Nat :=
  let zeros := digits.reverse.takeWhile (· == '0')
  (digits.take (digits.length - zeros.length), zeros.length)

/-- The digits of a positive number and the exponent of their last place. -/
def Binary.decimal (number : Binary) : List Char × Int :=
  let (digits, exponent) := number.search 18 (number.magnitude + 1)
  let (kept, zeros) := withoutZeros (Nat.toDigits 10 digits)
  (kept, exponent + zeros)

/-- The text of digits whose last place is `10 ^ exponent`. The point is written when it lies at
most sixteen places behind the first digit and less than five zeros before it. -/
def place (digits : List Char) (exponent : Int) : String :=
  let count : Int := digits.length
  let point := count + exponent
  if 0 ≤ exponent ∧ point ≤ 16 then
    String.ofList (digits ++ List.replicate exponent.toNat '0') ++ ".0"
  else if 0 < point ∧ point ≤ 16 then
    String.ofList (digits.take point.toNat) ++ "." ++ String.ofList (digits.drop point.toNat)
  else if -5 < point ∧ point ≤ 0 then
    "0." ++ String.ofList (List.replicate (-point).toNat '0' ++ digits)
  else
    match digits with
    | [digit] => digit.toString ++ "e" ++ toString (point - 1)
    | digit :: rest => digit.toString ++ "." ++ String.ofList rest ++ "e" ++ toString (point - 1)
    | [] => ""

/-- The text of a finite number. -/
def text (bits : UInt64) : String :=
  let number := Binary.ofBits bits
  let written :=
    if number.m = 0 then "0.0"
    else
      let (digits, exponent) := number.decimal
      place digits exponent
  if bits.toNat < 9223372036854775808 then written else "-" ++ written

end Sharpen.Json.Shortest
