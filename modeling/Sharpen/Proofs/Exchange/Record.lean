import Mathlib.Data.List.Forall2
import Sharpen.Json.Record

/-!
# Records that are read back

What is written can be read back in every manner: as a value at hand, from a text and from a copy
(`Exchanged`). A record is read back field by field. `Reading fields reader value` says that
`reader` finds in `fields` what makes up `value`, and that all of `fields` can be set aside; its
rules follow the steps of a reader, and each of them takes off one field:

* `Reading.value`, `Reading.valueD` and `Reading.value?` for what is read on its own;
* `Reading.part`, `Reading.items` and their like for what is read by readers that call each other;
* `Reading.done` at the end.

A record is then read back as an object (`Exchanged.record`), as one of several
(`Exchanged.variant`), or beside fields that belong to others (`Flattened`).
-/

namespace Sharpen.Json

open List
open Option (bind_some)
open Given (Part)

variable {α β : Type}

/-- A value stands for something and is read as `value`, whatever the manner. -/
structure Exchanged (read : Given → Option α) (json : Json) (value : α) : Prop where
  readable : json.isReadable
  present : json ≠ .null
  reads : ∀ manner, read ⟨json, manner⟩ = some value

/-- A value that may be absent: then it is `null`. -/
inductive ExchangedOption (read : Given → Option α) : Json → Option α → Prop where
  | none : ExchangedOption read .null none
  | some {json value} (h : Exchanged read json value) : ExchangedOption read json (some value)

theorem ExchangedOption.readable {read : Given → Option α} {json : Json} {value? : Option α}
    (h : ExchangedOption read json value?) : json.isReadable := by
  cases h with
  | none => rfl
  | some h => exact h.readable

/-- A value that may be absent is written as what it is, or as `null`. -/
theorem ExchangedOption.ofOption {read : Given → Option α} {write : α → Json} (value? : Option α)
    (h : ∀ value, Exchanged read (write value) value) :
    ExchangedOption read (Json.ofOption write value?) value? := by
  cases value? with
  | none => exact .none
  | some value => exact .some (h value)

/-- A value that is `absent` when nothing is written for it. -/
inductive ExchangedOr (read : Given → Option α) (absent : α) : Json → α → Prop where
  | absent : ExchangedOr read absent .null absent
  | present {json value} (h : Exchanged read json value) : ExchangedOr read absent json value

/-- A value with a default is one that may be absent. -/
theorem ExchangedOr.exists_option {read : Given → Option α} {absent value : α} {json : Json}
    (h : ExchangedOr read absent json value) :
    ∃ value?, ExchangedOption read json value? ∧ value?.getD absent = value := by
  cases h with
  | absent => exact ⟨none, .none, rfl⟩
  | present h => exact ⟨some value, .some h, rfl⟩

/-! ## Plain values -/

theorem exchanged_str (text : String) : Exchanged Given.str? (.str text) text :=
  ⟨rfl, nofun, fun _ => rfl⟩

theorem exchanged_bool (value : Bool) : Exchanged Given.bool? (.bool value) value :=
  ⟨rfl, nofun, fun _ => rfl⟩

/-- A character is written as a text of one character. -/
theorem exchanged_char (value : Char) : Exchanged Given.char? (.str value.toString) value := by
  refine ⟨rfl, nofun, fun _ => ?_⟩
  simp [Given.char?, Json.char?, Char.toString, String.toList_singleton]

/-- A number of 32 bits is in range where it is read. -/
theorem exchanged_uint32 (value : UInt32) : Exchanged Given.uint32? (ofUInt32 value) value := by
  refine ⟨rfl, nofun, fun _ => ?_⟩
  have hlt : value.toNat < UInt32.size := value.toNat_lt
  simp [Given.uint32?, Json.uint32?, Json.natBelow?, ofUInt32, hlt]

/-- A number is read back if 64 bits hold it. -/
theorem exchanged_int64 {value : Int} (hlow : -9223372036854775808 ≤ value)
    (hhigh : value < 9223372036854775808) : Exchanged Given.int64? (.int value) value :=
  ⟨rfl, nofun, fun _ => if_pos ⟨hlow, hhigh⟩⟩

theorem exchanged_floatBits (bits : UInt64) : Exchanged Given.floatBits? (.float bits) bits :=
  ⟨rfl, nofun, fun _ => rfl⟩

theorem itemsReadable_of_forall {items : List Json} (h : ∀ item ∈ items, item.isReadable) :
    itemsReadable items := by
  induction items with
  | nil => rfl
  | cons item rest ih =>
    obtain ⟨hitem, hrest⟩ := forall_mem_cons.mp h
    rw [itemsReadable, hitem, ih hrest]
    rfl

theorem fieldsReadable_of_forall {fields : List (String × Json)}
    (h : ∀ field ∈ fields, field.2.isReadable) : fieldsReadable fields := by
  induction fields with
  | nil => rfl
  | cons field rest ih =>
    obtain ⟨hfield, hrest⟩ := forall_mem_cons.mp h
    rw [fieldsReadable, hfield, ih hrest]
    rfl

section Lists

variable {read : Given → Option α} {items : List Json} {values : List α}

/-- Values that are read back can be set aside. -/
theorem readable_of_forall₂ (h : Forall₂ (Exchanged read) items values) :
    ∀ item ∈ items, item.isReadable := by
  induction h with
  | nil => exact forall_mem_nil _
  | cons hfirst _ ih => exact forall_mem_cons.mpr ⟨hfirst.readable, ih⟩

/-- So can a list of them. -/
theorem isReadable_arr (h : Forall₂ (Exchanged read) items values) :
    (Json.arr items).isReadable := by
  rw [isReadable]
  exact itemsReadable_of_forall (readable_of_forall₂ h)

/-- A list is read back item by item. -/
theorem exchanged_list (h : Forall₂ (Exchanged read) items values) :
    Exchanged (Given.list? read) (.arr items) values := by
  refine ⟨isReadable_arr h, nofun, fun manner => ?_⟩
  show items.mapM (fun item => read ⟨item, manner⟩) = some values
  induction h with
  | nil => rfl
  | cons hfirst _ ih => rw [mapM_cons, hfirst.reads, ih]; rfl

/-- A list is written item by item. -/
theorem exchanged_map {write : α → Json} (values : List α) (h : ∀ value ∈ values,
Exchanged read (write value) value) :
    Exchanged (Given.list? read) (.arr (values.map write)) values := by
  refine exchanged_list ?_
  induction values with
  | nil => exact .nil
  | cons value rest ih =>
    obtain ⟨hvalue, hrest⟩ := forall_mem_cons.mp h
    exact .cons hvalue (ih hrest)

end Lists

/-! ## Rows -/

variable {manner : Manner}

section Rows

variable {whole : Given} {row : Row whole} {name : String} {given : Given}

/-- The fields of a row have one called `name`, and it holds `given`. -/
def Row.Finds (row : Row whole) (name : String) (given : Given) : Prop :=
  ∃ fields part, row = .named fields ∧ fields.filter (fun field => field.1 == name) =
  [(name, part)] ∧ part.1 = given

/-- A field that is found is the next one asked for. -/
theorem Row.Finds.next? (h : row.Finds name given) :
    ∃ part : Part whole, part.1 = given ∧ Reader.next? name row = some (some part, row) := by
  obtain ⟨_, part, rfl, hfilter, hpart⟩ := h
  refine ⟨part, hpart, ?_⟩
  rw [Reader.next?, hfilter]

/-- A field that must be there is found. -/
theorem Row.Finds.required (h : row.Finds name given) :
    ∃ part : Part whole, part.1 = given ∧ Reader.required name row = some (part, row) := by
  obtain ⟨part, hpart, hnext⟩ := h.next?
  refine ⟨part, hpart, ?_⟩
  show (Reader.next? name row).bind _ = _
  rw [hnext]
  rfl

/-- A field that holds `null` counts as absent. -/
theorem Row.Finds.optional_null (h : row.Finds name ⟨.null, manner⟩) :
    Reader.optional name row = some (none, row) := by
  obtain ⟨⟨_, _⟩, rfl, hnext⟩ := h.next?
  show (Reader.next? name row).bind _ = _
  rw [hnext]
  rfl

/-- A field that may be absent is found if it holds something. -/
theorem Row.Finds.optional (h : row.Finds name given) (hpresent : given.json ≠ .null) :
    ∃ part : Part whole, part.1 = given ∧ Reader.optional name row = some (some part, row) := by
  obtain ⟨⟨⟨json, manner⟩, hsize⟩, rfl, hnext⟩ := h.next?
  refine ⟨⟨⟨json, manner⟩, hsize⟩, rfl, ?_⟩
  show (Reader.next? name row).bind _ = _
  rw [hnext]
  cases json with
  | null => exact absurd rfl hpresent
  | _ => rfl

end Rows

/-- The parts of an array are its items. -/
theorem parts_arr {given : Given} {items : List Json} (h : given = ⟨.arr items, manner⟩) :
    ∃ parts, given.parts? = some parts ∧ parts.map (·.1) = items.map fun item => ⟨item, manner⟩ :=
    by
  subst h
  refine ⟨_, rfl, ?_⟩
  rw [map_map]
  exact attach_map_val (f := fun item => (⟨item, manner⟩ : Given))

/-! ## Reading field by field -/

/-- The fields can be set aside, and wherever they are found `reader` makes `value` of them. -/
structure Reading {whole : Given} (fields : List (String × Json)) (reader : Reader whole α) (value :
α) :
    Prop where
  readable : ∀ field ∈ fields, field.2.isReadable
  reads : ∀ (row : Row whole) (manner : Manner),
    (∀ field ∈ fields, row.Finds field.1 ⟨field.2, manner⟩) → reader row = some (value, row)

namespace Reading

variable {whole : Given} {fields : List (String × Json)} {name : String} {json : Json} {result : β}

/-- Nothing is left to read. -/
theorem done : Reading [] (pure result : Reader whole β) result :=
  ⟨forall_mem_nil _, fun _ _ _ => rfl⟩

theorem returns {found : β} (h : found = result) : Reading [] (pure found : Reader whole β)
    result :=
  h ▸ done

variable {next : α → Reader whole β}

/-- The first step of a reader takes off the first field and goes on with what it finds there. -/
theorem step {first : Reader whole α} {rest : Reader whole β} (hreadable : json.isReadable)
    (hfirst : ∀ (row : Row whole) (manner : Manner), row.Finds name ⟨json, manner⟩ → ∃ found,
      first row = some (found, row) ∧ next found row = rest row)
    (hrest : Reading fields rest result) :
    Reading ((name, json) :: fields) (first >>= next) result := by
  refine ⟨forall_mem_cons.mpr ⟨hreadable, hrest.readable⟩, fun row manner hrow => ?_⟩
  obtain ⟨hhere, hothers⟩ := forall_mem_cons.mp hrow
  obtain ⟨_, hfound, hnext⟩ := hfirst row manner hhere
  show (first row).bind (fun step => next step.1 step.2) = _
  rw [hfound, bind_some, hnext]
  exact hrest.reads row manner hothers

/-- What is checked on the way holds. -/
theorem guard {condition : Bool} {next : Unit → Reader whole β} (h : condition = true)
    (hrest : Reading fields (next ()) result) :
    Reading fields (if condition = true then next () else Reader.refuse >>= next) result := by
  rw [if_pos h]
  exact hrest

section Steps

variable {read : Given → Option α}

/-- A field that is read on its own. -/
theorem value {value : α} (h : Exchanged read json value) (hrest :
Reading fields (next value) result) :
    Reading ((name, json) :: fields) (Reader.value name read >>= next) result := by
  refine step h.readable (fun row manner hrow => ⟨value, ?_, rfl⟩) hrest
  obtain ⟨_, hpart, hrequired⟩ := hrow.required
  show (Reader.required name row).bind _ = _
  rw [hrequired, bind_some]
  dsimp only
  rw [hpart, h.reads]
  rfl

/-- A field with a default. -/
theorem valueD {value fallback : α} (h : Exchanged read json value) (hrest :
Reading fields (next value) result) :
    Reading ((name, json) :: fields) (Reader.valueD name fallback read >>= next) result := by
  refine step h.readable (fun row manner hrow => ⟨value, ?_, rfl⟩) hrest
  obtain ⟨_, hpart, hnext⟩ := hrow.next?
  show (Reader.next? name row).bind _ = _
  rw [hnext, bind_some]
  dsimp only
  rw [hpart, h.reads]
  rfl

/-- A field that may be absent. -/
theorem value? {next : Option α → Reader whole β} {value? : Option α}
    (h : ExchangedOption read json value?) (hrest : Reading fields (next value?) result) :
    Reading ((name, json) :: fields) (Reader.value? name read >>= next) result := by
  refine step h.readable (fun row manner hrow => ⟨value?, ?_, rfl⟩) hrest
  show (Reader.optional name row).bind _ = _
  cases h with
  | none =>
    rw [hrow.optional_null]
    rfl
  | some h =>
    obtain ⟨_, hpart, hoptional⟩ := hrow.optional h.present
    rw [hoptional, bind_some]
    dsimp only
    rw [hpart, h.reads]
    rfl

/-- A field for which the reader puts in a value if it is absent. -/
theorem valueOr {next : Option α → Reader whole β} {absent value : α}
(h : ExchangedOr read absent json value)
    (hrest : ∀ {value? : Option α}, value?.getD absent = value → Reading fields (next value?)
    result) :
    Reading ((name, json) :: fields) (Reader.value? name read >>= next) result := by
  obtain ⟨_, hvalue?, hvalue⟩ := h.exists_option
  exact Reading.value? hvalue? (hrest hvalue)

/-! ### Parts -/

/-- A step that takes off no field. -/
theorem lift {value? : Option α} {value : α} (h : value? = some value) (hrest :
Reading fields (next value) result) :
    Reading fields ((liftM value? : Reader whole α) >>= next) result := by
  subst h
  exact hrest

theorem lift_bind {value? : Option α} {value : α} (h : value? = some value) (row : Row whole) :
    ((liftM value? : Reader whole α) >>= next) row = next value row := by
  rw [h]
  rfl

/-- Parts are read one after the other. -/
theorem mapM_parts {next : List α → Reader whole β} {parts : List (Part whole)} {items : List Json}
    {values : List α} (hparts : parts.map (·.1) = items.map fun item => ⟨item, manner⟩)
    (h : Forall₂ (Exchanged read) items values) (row : Row whole) :
    ((parts.mapM fun part => (liftM (read part.1) : Reader whole α)) >>= next) row =
    next values row := by
  induction h generalizing parts next with
  | nil =>
    obtain rfl := map_eq_nil_iff.mp hparts
    rfl
  | @cons item value items values hfirst _ ih =>
    obtain ⟨part, _, rfl, hpart, hothers⟩ := map_eq_cons_iff.mp hparts
    have hread : read part.1 = some value := by rw [hpart, hfirst.reads]
    rw [mapM_cons, bind_assoc, lift_bind hread, bind_assoc, ih hothers]
    rfl

/-- A field that is read by one of the readers that call each other. -/
theorem part {value : α} (h : Exchanged read json value) (hrest :
Reading fields (next value) result) :
    Reading ((name, json) :: fields) (Reader.required name >>= fun part => liftM (read part.1) >>=
    next) result := by
  refine step h.readable (fun row manner hrow => ?_) hrest
  obtain ⟨part, hpart, hrequired⟩ := hrow.required
  exact ⟨part, hrequired, lift_bind (by rw [hpart, h.reads]) row⟩

/-- Such a field that may be absent. -/
theorem part? {next : Option α → Reader whole β} {value? : Option α}
(h : ExchangedOption read json value?)
    (hrest : Reading fields (next value?) result) :
    Reading ((name, json) :: fields)
      (Reader.optional name >>= fun part? => part?.mapM (fun part => liftM (read part.1)) >>= next)
      result := by
  refine step h.readable (fun row manner hrow => ?_) hrest
  cases h with
  | none => exact ⟨none, hrow.optional_null, rfl⟩
  | some h =>
    obtain ⟨part, hpart, hoptional⟩ := hrow.optional h.present
    refine ⟨part, hoptional, ?_⟩
    show ((liftM (read part.1) >>= fun value => pure (some value)) >>= next) row = _
    rw [bind_assoc, lift_bind (by rw [hpart, h.reads])]
    rfl

theorem partOr {next : Option α → Reader whole β} {absent value : α}
    (h : ExchangedOr read absent json value)
    (hrest : ∀ {value? : Option α}, value?.getD absent = value →
      Reading fields (next value?) result) :
    Reading ((name, json) :: fields)
      (Reader.optional name >>= fun part? => part?.mapM (fun part => liftM (read part.1)) >>= next)
      result := by
  obtain ⟨_, hvalue?, hvalue⟩ := h.exists_option
  exact part? hvalue? (hrest hvalue)

/-- A part after which the reading goes on in one of two ways that say the same. -/
theorem partOrElse {next : Option (Part whole) → Reader whole β} {after : α → Reader whole β}
    {absent value : α} (h : ExchangedOr read absent json value)
    (hsome : ∀ part : Part whole, next (some part) = liftM (read part.1) >>= after)
    (hnone : next none = after absent) (hrest : Reading fields (after value) result) :
    Reading ((name, json) :: fields) (Reader.optional name >>= next) result := by
  cases h with
  | absent =>
    exact step rfl (fun row manner hrow => ⟨none, hrow.optional_null, congrFun hnone row⟩) hrest
  | present h =>
    refine step h.readable (fun row manner hrow => ?_) hrest
    obtain ⟨part, hpart, hoptional⟩ := hrow.optional h.present
    refine ⟨some part, hoptional, ?_⟩
    rw [hsome, lift_bind (by rw [hpart, h.reads])]

section Items

variable {jsons : List Json} {values : List α} (h : Forall₂ (Exchanged read) jsons values)
include h

/-- An array whose items are read by readers that call each other. -/
theorem items {next : List α → Reader whole β} (hrest : Reading fields (next values) result) :
    Reading ((name, .arr jsons) :: fields)
      (Reader.items name >>= fun parts => parts.mapM (fun part => liftM (read part.1)) >>= next)
      result := by
  refine step (isReadable_arr h) (fun row manner hrow => ?_) hrest
  obtain ⟨part, hpart, hrequired⟩ := hrow.required
  obtain ⟨parts, hparts, hview⟩ := parts_arr hpart
  refine ⟨parts.map fun inner => ⟨inner.1, Nat.lt_trans inner.2 part.2⟩, ?_, ?_⟩
  · show (Reader.required name row).bind _ = _
    rw [hrequired, bind_some]
    dsimp only
    rw [hparts]
    rfl
  · exact mapM_parts (by rw [map_map, ← hview]; rfl) h row

/-- Such an array that may be left out. -/
theorem itemsD {next : List α → Reader whole β} (hrest : Reading fields (next values) result) :
    Reading ((name, .arr jsons) :: fields)
      (Reader.itemsD name >>= fun parts => parts.mapM (fun part => liftM (read part.1)) >>= next)
      result := by
  refine step (isReadable_arr h) (fun row manner hrow => ?_) hrest
  obtain ⟨part, hpart, hnext⟩ := hrow.next?
  obtain ⟨parts, hparts, hview⟩ := parts_arr hpart
  refine ⟨parts.map fun inner => ⟨inner.1, Nat.lt_trans inner.2 part.2⟩, ?_, ?_⟩
  · show (Reader.next? name row).bind _ = _
    rw [hnext, bind_some]
    dsimp only
    rw [hparts]
    rfl
  · exact mapM_parts (by rw [map_map, ← hview]; rfl) h row

/-- The items of an array are all there is to read. -/
theorem items_last : Reading [(name, .arr jsons)]
    (Reader.items name >>= fun parts : List (Part whole) => parts.mapM fun part =>
    liftM (read part.1))
    values := by
  have hitems : Reading [(name, .arr jsons)] (Reader.items name >>= fun parts : List (Part whole) =>
        parts.mapM (fun part => liftM (read part.1)) >>= pure) values :=
    items h done
  simpa only [bind_pure] using hitems

end Items

/-- The items of an array that may be absent. -/
inductive ItemsOption (read : Given → Option α) : Json → Option (List α) → Prop where
  | none : ItemsOption read .null none
  | some {items values} (h : Forall₂ (Exchanged read) items values) :
      ItemsOption read (.arr items) (some values)

/-- Such an array that may be absent. -/
theorem items? {next : Option (List α) → Reader whole β} {values? : Option (List α)}
    (h : ItemsOption read json values?) (hrest : Reading fields (next values?) result) :
    Reading ((name, json) :: fields) (Reader.items? name >>= fun parts? =>
        parts?.mapM (fun parts => parts.mapM fun part => liftM (read part.1)) >>= next) result := by
  cases h with
  | none =>
    refine step rfl (fun row manner hrow => ⟨none, ?_, rfl⟩) hrest
    show (Reader.optional name row).bind _ = _
    rw [hrow.optional_null]
    rfl
  | @some items values h =>
    refine step (isReadable_arr h) (fun row manner hrow => ?_) hrest
    obtain ⟨part, hpart, hoptional⟩ := hrow.optional (by nofun)
    obtain ⟨parts, hparts, hview⟩ := parts_arr hpart
    refine ⟨some (parts.map fun inner => ⟨inner.1, Nat.lt_trans inner.2 part.2⟩), ?_, ?_⟩
    · show (Reader.optional name row).bind _ = _
      rw [hoptional, bind_some]
      dsimp only
      rw [hparts]
      rfl
    · have hvalues :
        (((parts.map fun inner => (⟨inner.1, Nat.lt_trans inner.2 part.2⟩ : Part whole)).mapM
          fun part => (liftM (read part.1) : Reader whole α)) >>= fun values => next (some values))
          row =
          next (some values) row :=
        mapM_parts (by rw [map_map, ← hview]; rfl) h row
      rw [← hvalues]
      show ((_ >>= fun values => pure (some values)) >>= next) row = _
      rw [bind_assoc]
      rfl

end Steps

/-- The kind comes first when it stands in a field of its own. -/
theorem choose {kind : String} {variants : List (String × Reader whole β)} {reader : Reader whole β}
    (hkind : variants.lookup kind = some reader) (h : Reading fields reader result) :
    Reading ((name, .str kind) :: fields) (Reader.choose name variants) result := by
  refine step rfl (fun row manner hrow => ⟨kind, ?_, ?_⟩) h
  · obtain ⟨_, hpart, hrequired⟩ := hrow.required
    obtain ⟨named, _, rfl, _⟩ := hrow
    show (Reader.required name (.named named)).bind _ = _
    rw [hrequired, bind_some]
    dsimp only
    rw [hpart]
    rfl
  · rw [hkind]
    rfl

end Reading

/-! ## Records -/

/-- The parts of an object are its fields. -/
theorem namedParts_of_fields {whole : Given} {fields : List (String × Json)}
(h : whole.json.fields? = some fields) :
    ∃ parts, whole.namedParts? = some parts ∧ parts.map (fun part => (part.1, part.2.1)) =
        fields.map fun field => (field.1, ⟨field.2, whole.manner⟩) := by
  rw [Given.namedParts?]
  split
  case h_1 found hfound =>
    obtain rfl : found = fields := Option.some.inj (hfound.symm.trans h)
    refine ⟨_, rfl, ?_⟩
    rw [map_map]
    exact attach_map_val (f := fun field : String × Json =>
      (field.1, (⟨field.2, whole.manner⟩ : Given)))
  case h_2 hnone => exact absurd (hnone.symm.trans h) nofun

/-- With no name twice, every field is found. -/
theorem Row.finds_of_mem {whole : Given} {parts : List (String × Part whole)} {fields :
List (String × Json)}
    (hview : parts.map (fun part => (part.1, part.2.1)) = fields.map fun field =>
    (field.1, ⟨field.2, manner⟩))
    (hnames : (fields.map Prod.fst).Nodup) :
    ∀ field ∈ fields, (Row.named parts).Finds field.1 ⟨field.2, manner⟩ := by
  induction fields generalizing parts with
  | nil => exact forall_mem_nil _
  | cons field rest ih =>
    obtain ⟨⟨_, part⟩, others, rfl, hpart, hothers⟩ := map_eq_cons_iff.mp hview
    obtain ⟨rfl, hpart⟩ := Prod.mk.inj hpart
    obtain ⟨hfresh, hrest⟩ := nodup_cons.mp hnames
    refine forall_mem_cons.mpr ⟨⟨_, part, rfl, ?_, hpart⟩, fun other hother => ?_⟩
    · have hsame : others.map Prod.fst = rest.map Prod.fst := by
        simpa [Function.comp_def] using congrArg (map Prod.fst) hothers
      have hnone : others.filter (fun other => other.1 == field.1) = [] := by
        refine filter_eq_nil_iff.mpr fun other hother heq => hfresh ?_
        rw [← hsame, ← beq_iff_eq.mp heq]
        exact mem_map_of_mem hother
      rw [filter_cons_of_pos (by simp), hnone]
    · obtain ⟨_, found, hrow, hfilter, hfound⟩ := ih hothers hrest other hother
      obtain rfl := Row.named.inj hrow
      refine ⟨_, found, rfl, ?_, hfound⟩
      have hne : field.1 ≠ other.1 := fun heq => hfresh (heq ▸ mem_map_of_mem hother)
      rw [filter_cons_of_neg (by simpa using hne), hfilter]

section Objects

variable {read : Given → Option α} {whole : Given} {fields all : List (String × Json)} {value : α}
  {kind : String}

/-- In an object the fields are found among all that it has. -/
theorem Reading.finish_eq {reader : Reader whole α} (h : Reading fields reader value)
    (hwhole : whole.json.fields? = some all) (hnames : (all.map Prod.fst).Nodup)
    (hall : ∀ field ∈ fields, field ∈ all) :
    ∃ parts, whole.namedParts? = some parts ∧ Row.finish (reader (.named parts)) = some value := by
  obtain ⟨parts, hparts, hview⟩ := namedParts_of_fields hwhole
  refine ⟨parts, hparts, ?_⟩
  rw [h.reads _ _ fun field hfield => Row.finds_of_mem hview hnames field (hall field hfield)]
  rfl

/-- A reader of an object gives what its fields make up. -/
theorem Reading.readObject_eq {reader : Reader whole α} (h : Reading fields reader value)
    (hwhole : whole.json.fields? = some all) (hnames : (all.map Prod.fst).Nodup)
    (hall : ∀ field ∈ fields, field ∈ all) : readObject whole reader = some value := by
  obtain ⟨_, hparts, hfinish⟩ := h.finish_eq hwhole hnames hall
  rw [readObject, hparts]
  exact hfinish

/-- A record that is written as an object is read back. -/
theorem Exchanged.record {reader : (given : Given) → Reader given α}
    (hread : ∀ given, read given = readRecord given (reader given))
    (h : ∀ given, Reading fields (reader given) value)
    (hnames : (fields.map Prod.fst).Nodup := by simp) : Exchanged read (.obj fields) value := by
  refine ⟨?_, nofun, fun manner => ?_⟩
  · rw [isReadable]
    exact fieldsReadable_of_forall (h ⟨.null, .value⟩).readable
  · obtain ⟨_, hparts, hfinish⟩ := (h ⟨.obj fields, manner⟩).finish_eq rfl hnames fun _ => id
    rw [hread, readRecord, hparts]
    exact hfinish

/-- One of several records is found by its kind, also beside fields that belong to others. -/
theorem Reading.readVariant_eq {variants : List (String × Reader whole α)} {reader : Reader whole α}
    (h : Reading fields reader value) (hkind : variants.lookup kind = some reader)
    (hwhole : whole.json.fields? = some all) (hcopy : whole.canBeCopied)
    (hnames : (all.map Prod.fst).Nodup)
    (hall : ∀ field ∈ ("kind", Json.str kind) :: fields, field ∈ all) :
    readVariant whole variants = some value := by
  obtain ⟨hkindMem, hfields⟩ := forall_mem_cons.mp hall
  obtain ⟨parts, hparts, hview⟩ := namedParts_of_fields hwhole
  obtain ⟨_, _, hrow, htag, hjson⟩ := Row.finds_of_mem hview hnames _ hkindMem
  obtain rfl := Row.named.inj hrow
  have hcopied : (parts.map fun part => (part.1, part.2.copied)).map (fun part =>
    (part.1, part.2.1)) =
      all.map fun field => (field.1, (⟨field.2, .copy⟩ : Given)) := by
    have := congrArg (map fun view : String × Given => (view.1, view.2.copied)) hview
    rw [map_map, map_map] at this
    rw [map_map]
    exact this
  have hread := h.reads _ .copy fun field hfield =>
    Row.finds_of_mem hcopied hnames field (hfields field hfield)
  rw [readVariant, if_pos hcopy, hparts]
  dsimp only
  rw [htag]
  dsimp only
  rw [readKind, hjson, Given.kind?]
  show (variants.lookup kind >>= fun reader => Row.finish (reader _)) = _
  rw [hkind]
  show Row.finish (reader _) = _
  rw [hread]
  rfl

/-- A reader of one of several records, which are told apart by their kinds. -/
class Variants (read : Given → Option α) where
  /-- the kinds, no two of them alike -/
  names : List String
  /-- where the kind of a value stands among them -/
  place : α → Nat
  /-- the readers for all of the kinds -/
  variants : (given : Given) → List (String × Reader given α)
  read_eq : ∀ given, read given = readVariant given (variants given)
  names_eq : ∀ given, (variants given).map Prod.fst = names := by exact fun _ => rfl
  nodup : names.Nodup := by simp

/-- With no key twice, an entry is found by its key. -/
theorem lookup_of_getElem? {ρ : Type} {variants : List (String × ρ)} {place : Nat} {reader : ρ}
    (hnames : (variants.map Prod.fst).Nodup) (hentry : variants[place]? = some (kind, reader)) :
    variants.lookup kind = some reader := by
  induction variants generalizing place with
  | nil => exact absurd hentry (by simp)
  | cons variant rest ih =>
    obtain ⟨hfresh, hrest⟩ := nodup_cons.mp hnames
    cases place with
    | zero =>
      obtain rfl : variant = (kind, reader) := by simpa using hentry
      exact lookup_cons_self
    | succ place =>
      have hentry : rest[place]? = some (kind, reader) := by simpa using hentry
      have hne : (kind == variant.1) = false := by
        refine beq_eq_false_iff_ne.mpr fun heq => hfresh (heq ▸ ?_)
        exact mem_map_of_mem (mem_of_getElem? hentry)
      rw [lookup_cons, hne]
      exact ih hrest hentry

section Variants

variable [known : Variants read] {reader : (given : Given) → Reader given α}

/-- The reader for a value is found by its kind. -/
theorem Variants.lookup_eq {given : Given} {reader : Reader given α}
    (h : (known.variants given)[known.place value]? = some (kind, reader)) :
    (known.variants given).lookup kind = some reader :=
  lookup_of_getElem? (known.names_eq given ▸ known.nodup) h

/-- One of several records that is written as an object is read back. -/
theorem Exchanged.variant
    (hkind : (fun given => (known.variants given)[known.place value]?) = fun given =>
      some (kind, reader given))
    (h : ∀ given, Reading fields (reader given) value)
    (hnames : ("kind" :: fields.map Prod.fst).Nodup := by simp) :
    Exchanged read (ofVariant kind fields) value := by
  have hreadable : (ofVariant kind fields).isReadable := by
    rw [ofVariant, isReadable]
    exact fieldsReadable_of_forall (forall_mem_cons.mpr ⟨rfl, (h ⟨.null, .value⟩).readable⟩)
  refine ⟨hreadable, nofun, fun manner => ?_⟩
  rw [known.read_eq]
  refine (h _).readVariant_eq (Variants.lookup_eq (congrFun hkind _)) rfl ?_ hnames
    fun field hfield => hfield
  rw [Given.canBeCopied, hreadable, Bool.or_true]

/-- Fields with names of their own, none of them in `others`, that are read as `value` wherever they
stand. -/
structure Flattened (others : List String) (read : Given → Option α) (fields : List (String × Json))
    (value : α) : Prop where
  readable : ∀ field ∈ fields, field.2.isReadable
  names : (others ++ fields.map Prod.fst).Nodup
  reads : ∀ all : List (String × Json), (all.map Prod.fst).Nodup → (∀ field ∈ fields, field ∈ all) →
    read ⟨.obj all, .copy⟩ = some value

/-- One of several records, beside fields that belong to others. -/
theorem Flattened.variant {others : List String}
    (hkind : (fun given => (known.variants given)[known.place value]?) = fun given =>
      some (kind, reader given))
    (h : ∀ given, Reading fields (reader given) value)
    (hnames : (others ++ "kind" :: fields.map Prod.fst).Nodup := by simp) :
    Flattened others read (("kind", .str kind) :: fields) value := by
  refine ⟨forall_mem_cons.mpr ⟨rfl, (h ⟨.null, .value⟩).readable⟩, hnames, fun all hall hfields =>
    ?_⟩
  rw [known.read_eq]
  exact (h _).readVariant_eq (Variants.lookup_eq (congrFun hkind _)) rfl rfl hall hfields

end Variants

end Objects

end Sharpen.Json
