import Sharpen.Text.Blank

/-!
# Escapes in string and character literals

A literal writes the backslash, its own quote and the control characters as escapes and every other
character as itself. Five escapes have a letter or digit of their own, the remaining control
characters are written with four hexadecimal digits.
-/

namespace Sharpen.Text

/-- An upper-case hexadecimal digit. -/
def hexDigit (n : Nat) : Char :=
  if n < 10 then Char.ofNat (48 + n) else Char.ofNat (55 + n)

/-- The last four hexadecimal digits of a number. -/
def hexDigits4 (n : Nat) : List Char :=
  [hexDigit (n / 4096 % 16), hexDigit (n / 256 % 16), hexDigit (n / 16 % 16), hexDigit (n % 16)]

/-- How one character is written inside a literal that ends at `quote`. -/
def escapeIn (quote c : Char) : List Char :=
  if c = '\\' then ['\\', '\\']
  else if c = '\n' then ['\\', 'n']
  else if c = '\r' then ['\\', 'r']
  else if c = '\t' then ['\\', 't']
  else if c.toNat = 0 then ['\\', '0']
  else if c = quote then ['\\', c]
  else if isControl c then '\\' :: 'u' :: hexDigits4 c.toNat
  else [c]

/-- The quote around strings. -/
def stringQuote : Char := Char.ofNat 34

/-- The quote around single characters. -/
def charQuote : Char := Char.ofNat 39

/-- The text between the quotes of a string literal. -/
def escapeString (value : String) : String :=
  String.ofList (value.toList.flatMap (escapeIn stringQuote))

/-- The text between the quotes of a character literal. -/
def escapeChar (value : Char) : String :=
  String.ofList (escapeIn charQuote value)

end Sharpen.Text
