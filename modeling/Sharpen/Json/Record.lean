import Sharpen.Json.Given

/-!
# Reading records

A record is written as an object, its fields found by name, or as an array, its fields found by
place. A `Reader` asks for the fields one after the other in the order in which the record declares
them:

* a required field has to be there;
* an optional field is absent when it is missing or `null`;
* a defaulted field may be missing, `null` counting as a value of its own.

A name that stands twice is refused when it is asked for; fields nobody asks for do not matter. An
array must not hold more values than are asked for.

A record of one of several kinds says which one in a field of its own. When that is the field
`kind`, the other fields stand beside it (`readVariant`) and are set aside until the kind is known.
When it is a field for the kind and another one for the content, `Reader.choose` reads the kind.
-/

namespace Sharpen.Json

open Given (Part)

/-- The fields of a record that have not been read yet. -/
inductive Row (whole : Given) where
  | named (fields : List (String × Part whole))
  | placed (items : List (Part whole))

/-- A computation that reads the fields of a record in order. -/
abbrev Reader (whole : Given) := StateT (Row whole) Option

namespace Reader

/-- A reading that fails. -/
def refuse {whole : Given} {α : Type} : Reader whole α :=
  fun _ => none

/-- The next field, if there is one. -/
def next? {whole : Given} (name : String) : Reader whole (Option (Part whole))
  | .named fields =>
    match fields.filter fun field => field.1 == name with
    | [] => some (none, .named fields)
    | [field] => some (some field.2, .named fields)
    | _ => none
  | .placed [] => some (none, .placed [])
  | .placed (item :: rest) => some (some item, .placed rest)

/-- The next field, which has to be there. -/
def required {whole : Given} (name : String) : Reader whole (Part whole) := do
  match ← next? name with
  | some part => return part
  | none => refuse

/-- The next field, absent when missing or `null`. -/
def optional {whole : Given} (name : String) : Reader whole (Option (Part whole)) := do
  match ← next? name with
  | some ⟨⟨.null, _⟩, _⟩ => return none
  | found => return found

/-- A required value read by `decode`. -/
def value {whole : Given} {α : Type} (name : String) (decode : Given → Option α) :
    Reader whole α := do
  let part ← required name
  match decode part.1 with
  | some result => return result
  | none => refuse

def value? {whole : Given} {α : Type} (name : String) (decode : Given → Option α) :
    Reader whole (Option α) := do
  match ← optional name with
  | none => return none
  | some part =>
    match decode part.1 with
    | some result => return some result
    | none => refuse

/-- A value read by `decode`, or `fallback` when the field is missing. -/
def valueD {whole : Given} {α : Type} (name : String) (fallback : α)
    (decode : Given → Option α) : Reader whole α := do
  match ← next? name with
  | none => return fallback
  | some part =>
    match decode part.1 with
    | some result => return result
    | none => refuse

/-- The items of a required array. -/
def items {whole : Given} (name : String) : Reader whole (List (Part whole)) := do
  let part ← required name
  match part.1.parts? with
  | some parts => return parts.map fun inner => ⟨inner.1, Nat.lt_trans inner.2 part.2⟩
  | none => refuse

/-- The items of an array, none when the field is missing. -/
def itemsD {whole : Given} (name : String) : Reader whole (List (Part whole)) := do
  match ← next? name with
  | none => return []
  | some part =>
    match part.1.parts? with
    | some parts => return parts.map fun inner => ⟨inner.1, Nat.lt_trans inner.2 part.2⟩
    | none => refuse

/-- The items of an array that may be absent. -/
def items? {whole : Given} (name : String) : Reader whole (Option (List (Part whole))) := do
  match ← optional name with
  | none => return none
  | some part =>
    match part.1.parts? with
    | some parts => return some (parts.map fun inner => ⟨inner.1, Nat.lt_trans inner.2 part.2⟩)
    | none => refuse

/-- The content of a kind that has none: a field that is missing or `null`, or `null` in its place.
-/
def empty {whole : Given} (name : String) : Reader whole Unit
  | .named fields => (optional name |>.run (.named fields)).bind fun
    | (none, rest) => some ((), rest)
    | (some _, _) => none
  | .placed (⟨⟨.null, _⟩, _⟩ :: rest) => some ((), .placed rest)
  | .placed _ => none

/-- The kind of a record in a field of its own. By name it is a word like any other. -/
def kind {whole : Given} (name : String) (kinds : List String) : Reader whole String
  | .named fields => value name Given.spelling? (.named fields)
  | .placed items => value name (Given.kind? kinds) (.placed items)

/-- The reading for the kind that the field `name` gives. -/
def choose {whole : Given} {α : Type} (name : String) (variants : List (String × Reader whole α)) :
    Reader whole α := do
  let kind ← kind name (variants.map (·.1))
  (variants.lookup kind).getD refuse

end Reader

/-- The result of a reading that leaves no value of an array unread. -/
def Row.finish {whole : Given} {α : Type} : Option (α × Row whole) → Option α
  | some (result, .named _) => some result
  | some (result, .placed []) => some result
  | _ => none

/-- Reads a value as a record. -/
def readRecord {α : Type} (whole : Given) (reader : Reader whole α) : Option α :=
  match whole.namedParts? with
  | some fields => Row.finish (reader (.named fields))
  | none =>
    match whole.parts? with
    | some items => Row.finish (reader (.placed items))
    | none => none

/-- Reads a value as an object only, its fields found by name. -/
def readObject {α : Type} (whole : Given) (reader : Reader whole α) : Option α :=
  match whole.namedParts? with
  | some fields => Row.finish (reader (.named fields))
  | none => none

/-- Reads a row with the reading for a kind, given by `tag`. -/
def readKind {α : Type} {whole : Given} (variants : List (String × Reader whole α))
    (tag : Given) (row : Row whole) : Option α := do
  let kind ← tag.kind? (variants.map (·.1))
  let reader ← variants.lookup kind
  Row.finish (reader row)

/-- Reads a value as one of several records. The field `kind` says which, or the first value of an
array; the rest is set aside. -/
def readVariant {α : Type} (whole : Given) (variants : List (String × Reader whole α)) : Option α :=
  if whole.canBeCopied then
    match whole.namedParts? with
    | some fields =>
      match fields.filter fun field => field.1 == "kind" with
      | [(_, tag)] =>
        readKind variants tag.1 (.named (fields.map fun field => (field.1, field.2.copied)))
      | _ => none
    | none =>
      match whole.parts? with
      | some (tag :: items) => readKind variants tag.1 (.placed (items.map (·.copied)))
      | _ => none
  else none

/-- Reads an array whose items `decode` reads. -/
def list? {α : Type} (decode : Json → Option α) : Json → Option (List α)
  | .arr items => items.mapM decode
  | _ => none

/-- An object whose field `kind` says what it is. -/
def ofVariant (kind : String) (fields : List (String × Json)) : Json :=
  .obj (("kind", .str kind) :: fields)

end Sharpen.Json
