import Sharpen.Json.Basic
import Sharpen.Json.Shortest

/-!
# Writing JSON text

Text without blanks. What is unreadable is written `null`. `canonical` puts the fields of every
object in the order of their names and keeps the last of those that share one.
-/

namespace Sharpen.Json

/-- A lower-case hexadecimal digit. -/
def lowerHexDigit (n : Nat) : Char :=
  if n < 10 then Char.ofNat (48 + n) else Char.ofNat (87 + n)

/-- How a character is written inside a string. -/
def escapeChar (c : Char) : List Char :=
  if c = '"' then ['\\', '"']
  else if c = '\\' then ['\\', '\\']
  else if c.toNat = 8 then ['\\', 'b']
  else if c.toNat = 9 then ['\\', 't']
  else if c.toNat = 10 then ['\\', 'n']
  else if c.toNat = 12 then ['\\', 'f']
  else if c.toNat = 13 then ['\\', 'r']
  else if c.toNat < 32 then
    ['\\', 'u', '0', '0', lowerHexDigit (c.toNat / 16), lowerHexDigit (c.toNat % 16)]
  else [c]

/-- A string between its quotes. -/
def quoted (value : String) : String :=
  "\"" ++ String.ofList (value.toList.flatMap escapeChar) ++ "\""

mutual

/-- The text of a value in pieces, and the pieces that follow it. -/
def pieces : Json → List String → List String
  | .null, rest => "null" :: rest
  | .bool value, rest => (if value then "true" else "false") :: rest
  | .int value, rest => toString value :: rest
  | .float bits, rest => Shortest.text bits :: rest
  | .str value, rest => quoted value :: rest
  | .arr items, rest => "[" :: itemPieces items ("]" :: rest)
  | .obj fields, rest => "\x7b" :: fieldPieces fields ("\x7d" :: rest)
  | .unreadable, rest => "null" :: rest
  | .escaped fields, rest => "\x7b" :: fieldPieces fields ("\x7d" :: rest)

/-- The texts of items, with commas between them. -/
def itemPieces : List Json → List String → List String
  | [], rest => rest
  | [item], rest => item.pieces rest
  | item :: items, rest => item.pieces ("," :: itemPieces items rest)

/-- The texts of fields, with commas between them. -/
def fieldPieces : List (String × Json) → List String → List String
  | [], rest => rest
  | [(name, value)], rest => quoted name :: ":" :: value.pieces rest
  | (name, value) :: fields, rest =>
    quoted name :: ":" :: value.pieces ("," :: fieldPieces fields rest)

end

def text (value : Json) : String :=
  String.join (value.pieces [])

/-- Puts a field into fields that are in the order of their names, in place of one with its name. -/
def insertField (name : String) (value : Json) : List (String × Json) → List (String × Json)
  | [] => [(name, value)]
  | (other, kept) :: rest =>
    if name < other then (name, value) :: (other, kept) :: rest
    else if name = other then (name, value) :: rest
    else (other, kept) :: insertField name value rest

mutual

/-- The same value with the fields of objects in the order of their names, each name once. -/
def canonical : Json → Json
  | .arr items => .arr (canonicalItems items)
  | .obj fields => .obj (canonicalFields fields [])
  | .escaped fields => .obj (canonicalFields fields [])
  | value => value

/-- The items of an array in canonical form. -/
def canonicalItems : List Json → List Json
  | [] => []
  | item :: rest => item.canonical :: canonicalItems rest

/-- Fields in canonical form put into `done`, later ones replacing earlier ones. -/
def canonicalFields : List (String × Json) → List (String × Json) → List (String × Json)
  | [], done => done
  | (name, value) :: rest, done => canonicalFields rest (insertField name value.canonical done)

end

end Sharpen.Json
