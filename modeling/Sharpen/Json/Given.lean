import Sharpen.Json.Basic
import Sharpen.Vocabulary

/-!
# Values that are read

A reader is given a value together with the manner in which it is read.

* A `value` is at hand.
* A `text` is read from left to right. What nobody asks for is skipped in it and need not be
  readable.
* A `copy` was set aside: the record it stands in says in one of its fields what kind it is, and
  that field has to be found first. A copy is readable throughout, and it is read more freely: a
  kind may be given by its number, and the word for a value may map to an empty object.

The values inside a value come as its `Part`s, that is with the fact that they are smaller, so that
readers may call each other.
-/

namespace Sharpen.Json

/-- The manner in which a value is read. -/
inductive Manner where
  | value | text | copy
  deriving DecidableEq, Inhabited

/-- A value that is read. -/
structure Given where
  json : Json
  manner : Manner := .value

namespace Given

/-- The same value, set aside. -/
def copied (given : Given) : Given :=
  { given with manner := .copy }

/-- A value can be set aside when all of it can be read. -/
def canBeCopied (given : Given) : Bool :=
  given.manner ≠ .text || given.json.isReadable

/-- An object whose fields, apart from those called `names`, can be set aside. -/
def canBeCopiedBeside (names : List String) (given : Given) : Bool :=
  given.manner ≠ .text ||
    (given.json.fields?.getD []).all fun field => names.contains field.1 || field.2.isReadable

/-! ## Parts -/

/-- A value that stands inside another one. -/
abbrev Part (whole : Given) := { part : Given // sizeOf part.json < sizeOf whole.json }

theorem Part.sizeOf_lt {whole : Given} (part : Part whole) :
    sizeOf part.1.json < sizeOf whole.json :=
  part.2

theorem sizeOf_lt_of_mem_arr {items : List Json} {item : Json} (h : item ∈ items) :
    sizeOf item < sizeOf (Json.arr items) := by
  have := List.sizeOf_lt_of_mem h
  simp only [Json.arr.sizeOf_spec]
  omega

theorem sizeOf_lt_of_mem_fields {whole : Json} {fields : List (String × Json)}
    {field : String × Json} (h : whole.fields? = some fields) (hf : field ∈ fields) :
    sizeOf field.2 < sizeOf whole := by
  have := List.sizeOf_lt_of_mem hf
  obtain ⟨name, value⟩ := field
  cases whole <;> simp only [Json.fields?, Option.some.injEq, reduceCtorEq] at h
  all_goals
    subst h
    simp only [Prod.mk.sizeOf_spec, Json.obj.sizeOf_spec, Json.escaped.sizeOf_spec] at *
    omega

/-- The items of an array, read in the same manner. -/
def parts? (whole : Given) : Option (List (Part whole)) :=
  match h : whole.json with
  | .arr items =>
    some (items.attach.map fun item =>
      ⟨⟨item.1, whole.manner⟩, h ▸ sizeOf_lt_of_mem_arr item.2⟩)
  | _ => none

/-- The fields of an object, read in the same manner. -/
def namedParts? (whole : Given) : Option (List (String × Part whole)) :=
  match h : whole.json.fields? with
  | some fields =>
    some (fields.attach.map fun field =>
      (field.1.1, ⟨⟨field.1.2, whole.manner⟩, sizeOf_lt_of_mem_fields h field.2⟩))
  | none => none

/-- A part that has been set aside. -/
def Part.copied {whole : Given} (part : Part whole) : Part whole :=
  ⟨part.1.copied, part.2⟩

/-! ## Plain values -/

/-- The text of a string. -/
def str? (given : Given) : Option String :=
  given.json.str?

/-- The value of a boolean. -/
def bool? (given : Given) : Option Bool :=
  given.json.bool?

/-- A string of exactly one character. -/
def char? (given : Given) : Option Char :=
  given.json.char?

/-- An unsigned integer of thirty-two bits. -/
def uint32? (given : Given) : Option UInt32 :=
  given.json.uint32?

/-- A signed integer of sixty-four bits. -/
def int64? (given : Given) : Option Int :=
  given.json.int64?

/-- The bits of a number read as a floating-point number. -/
def floatBits? (given : Given) : Option UInt64 :=
  given.json.floatBits?

/-- What a word may map to: `null`, and in a copy also an empty object. -/
def isNothing (given : Given) : Bool :=
  match given.json, given.manner with
  | .null, _ => true
  | .obj [], .copy => true
  | _, _ => false

/-- A word. It may also be written as an object that maps it to nothing. -/
def spelling? (given : Given) : Option String :=
  match given.json with
  | .str word => some word
  | json =>
    match json.fields? with
    | some [(word, beside)] => if isNothing ⟨beside, given.manner⟩ then some word else none
    | _ => none

/-- A word of a closed vocabulary. -/
def word? {α : Type} [Vocabulary α] (given : Given) : Option α :=
  given.spelling?.bind Vocabulary.read?

/-- The kind of a record: a word, or in a copy the place of that word among the `kinds` there are.
-/
def kind? (kinds : List String) (given : Given) : Option String :=
  match given.json, given.manner with
  | .str kind, _ => some kind
  | .int place, .copy => if 0 ≤ place then kinds[place.toNat]? else none
  | _, _ => none

/-- An array whose items `decode` reads. -/
def list? {α : Type} (decode : Given → Option α) (given : Given) : Option (List α) :=
  match given.json with
  | .arr items => items.mapM fun item => decode ⟨item, given.manner⟩
  | _ => none

end Given

/-- A word of a closed vocabulary. -/
def word? {α : Type} [Vocabulary α] (json : Json) : Option α :=
  Given.word? { json }

/-- The spelling of a value of a closed vocabulary. -/
def ofWord {α : Type} [Vocabulary α] (value : α) : Json :=
  .str (Vocabulary.spelling value)

end Sharpen.Json
