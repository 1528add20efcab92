/-!
# JSON values

The values that trees and semantic tables are exchanged as. A number without fraction and exponent
is an integer as long as it fits sixty-four bits; any other number is a binary floating-point
number, held as its bits. An object keeps its fields in the order in which they are written,
repeated ones included: whether a name may be repeated is for the reader of the object to say.

Two more values come from texts only. What is well formed and yet stands for nothing, such as a
number out of range, is `unreadable`: it may be skipped. An object with escapes in its names is
`escaped`: it reads like any other object as long as its names are words.
-/

namespace Sharpen

/-- A JSON value. -/
inductive Json where
  | null
  | bool (value : Bool)
  | int (value : Int)
  | float (bits : UInt64)
  | str (value : String)
  | arr (items : List Json)
  | obj (fields : List (String × Json))
  /-- a number out of range, a string with half a surrogate pair, or what is nested too deep -/
  | unreadable
  /-- an object some of whose names are written with escapes -/
  | escaped (fields : List (String × Json))

namespace Json

instance : Inhabited Json := ⟨.null⟩

mutual

/-- Every part of the value stands for something. -/
def isReadable : Json → Bool
  | .arr items => itemsReadable items
  | .obj fields => fieldsReadable fields
  | .escaped fields => fieldsReadable fields
  | .unreadable => false
  | .null | .bool _ | .int _ | .float _ | .str _ => true

def itemsReadable : List Json → Bool
  | [] => true
  | item :: rest => item.isReadable && itemsReadable rest

def fieldsReadable : List (String × Json) → Bool
  | [] => true
  | (_, value) :: rest => value.isReadable && fieldsReadable rest

end

mutual

/-- The value with unreadable parts where arrays and objects are nested deeper than `limit`. -/
def within : Nat → Json → Json
  | limit + 1, .arr items => .arr (itemsWithin limit items)
  | limit + 1, .obj fields => .obj (fieldsWithin limit fields)
  | limit + 1, .escaped fields => .escaped (fieldsWithin limit fields)
  | 0, .arr _ | 0, .obj _ | 0, .escaped _ => .unreadable
  | _, value => value

def itemsWithin (limit : Nat) : List Json → List Json
  | [] => []
  | item :: rest => item.within limit :: itemsWithin limit rest

def fieldsWithin (limit : Nat) : List (String × Json) → List (String × Json)
  | [] => []
  | (name, value) :: rest => (name, value.within limit) :: fieldsWithin limit rest

end

def fields? : Json → Option (List (String × Json))
  | .obj fields => some fields
  | .escaped fields => some fields
  | _ => none

/-- The text of a string. -/
def str? : Json → Option String
  | .str value => some value
  | _ => none

def bool? : Json → Option Bool
  | .bool value => some value
  | _ => none

/-- A string of exactly one character. -/
def char? : Json → Option Char
  | .str value =>
    match value.toList with
    | [c] => some c
    | _ => none
  | _ => none

/-- An integer from `0` up to, and not including, `bound`. -/
def natBelow? (bound : Nat) : Json → Option Nat
  | .int value => if 0 ≤ value ∧ value.toNat < bound then some value.toNat else none
  | _ => none

/-- An unsigned integer of thirty-two bits. -/
def uint32? (value : Json) : Option UInt32 :=
  (value.natBelow? UInt32.size).map UInt32.ofNat

/-- A signed integer of sixty-four bits. -/
def int64? : Json → Option Int
  | .int value =>
    if -9223372036854775808 ≤ value ∧ value < 9223372036854775808 then some value else none
  | _ => none

/-- The bits of a number read as a floating-point number; an integer counts as one. -/
def floatBits? : Json → Option UInt64
  | .float bits => some bits
  | .int value => some (Float.ofInt value).toBits
  | _ => none

/-- An unsigned integer of thirty-two bits. -/
def ofUInt32 (value : UInt32) : Json :=
  .int value.toNat

/-- A value that may be absent, written `null`. -/
def ofOption {α : Type} (encode : α → Json) : Option α → Json
  | some value => encode value
  | none => .null

/-- A list of texts. -/
def ofStrings (values : List String) : Json :=
  .arr (values.map .str)

end Json

end Sharpen
