import Sharpen.Json.Record

/-!
# Fields that may be left out

In an object read this way a field that is missing counts as `null`. What needs a value refuses
`null`; what can do without one takes it for absent.
-/

namespace Sharpen.Json

/-- A field of an object, `null` when there is none. -/
def field (json : Json) (name : String) : Json :=
  match json with
  | .obj fields => (fields.lookup name).getD .null
  | _ => .null

/-- A value that may be `null`. -/
def maybe {α : Type} (decode : Json → Option α) : Json → Option (Option α)
  | .null => some none
  | json => (decode json).map some

/-- The value of a field that is needed. -/
def need {α : Type} (json : Json) (name : String) (decode : Json → Option α) : Option α :=
  decode (json.field name)

/-- The value of a field that may be absent. -/
def want {α : Type} (json : Json) (name : String) (decode : Json → Option α) : Option (Option α) :=
  maybe decode (json.field name)

/-- The value of a field, or `fallback` when it is absent. -/
def wantD {α : Type} (json : Json) (name : String) (fallback : α) (decode : Json → Option α) :
    Option α :=
  (json.want name decode).map (·.getD fallback)

/-- The items of an array, none when the field is absent. -/
def wantList {α : Type} (json : Json) (name : String) (decode : Json → Option α) :
    Option (List α) :=
  json.wantD name [] (list? decode)

/-- An unsigned integer of sixty-four bits. -/
def count? : Json → Option Nat :=
  natBelow? UInt64.size

/-- The word for a value of a closed vocabulary. -/
def spelled? {α : Type} [Vocabulary α] : Json → Option α
  | .str word => Vocabulary.read? word
  | _ => none

/-- Reads an object by its fields. -/
def fieldsOf {α : Type} (decode : Json → Option α) : Json → Option α
  | .obj fields => decode (.obj fields)
  | _ => none

mutual

/-- How deep arrays and objects are nested in a value. -/
def depth : Json → Nat
  | .arr items => itemsDepth items + 1
  | .obj fields => fieldsDepth fields + 1
  | .escaped fields => fieldsDepth fields + 1
  | .null | .bool _ | .int _ | .float _ | .str _ | .unreadable => 0

def itemsDepth : List Json → Nat
  | [] => 0
  | item :: rest => max (depth item) (itemsDepth rest)

def fieldsDepth : List (String × Json) → Nat
  | [] => 0
  | (_, value) :: rest => max (depth value) (fieldsDepth rest)

end

end Sharpen.Json
