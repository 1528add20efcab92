import Sharpen.Proofs.TypeShape
import Sharpen.Proofs.Whereabouts

/-!
# The sizes of declared arrays

The source declares an array by its last indices, the target creates it by its sizes. The size is
one more than the last index, and there are four ways to it: a number that the semantic model knows,
a number that is written, the `n` of `n - 1`, and adding one. The first two are left when the next
number does not fit sixty-four bits, and whichever is taken, the size evaluates to the last index
and one (`Meaning.size`).

The declared type and the created one are put together separately. They differ in the sizes only,
because a type that conversion gives has none (`unsized_formation`). Both come together in
`declared_arrays_are_allocated`.
-/

namespace Sharpen

open List

open Source (NodeId Argument Declarator DeclaredName)
open Target (TypeSyntax)

/-! ## Types without sizes -/

namespace Target

/-- A rank specifier without its sizes. -/
def unsizedSizes (rank : List (Option Expr)) : List (Option Expr) :=
  rank.map fun _ => none

mutual

/-- The name without the sizes in its type arguments. -/
def Name.unsized : Name → Name
  | .identifier text => .identifier text
  | .generic text typeArguments => .generic text (unsizedTypes typeArguments)
  | .qualified left right => .qualified left.unsized right.unsized
  | .aliasQualified shortName name => .aliasQualified shortName name.unsized

/-- The type without any sizes. -/
def TypeSyntax.unsized : TypeSyntax → TypeSyntax
  | .predefined keyword => .predefined keyword
  | .named name => .named name.unsized
  | .array element ranks => .array element.unsized (ranks.map unsizedSizes)
  | .nullable element => .nullable element.unsized
  | .var => .var

@[inherit_doc TypeSyntax.unsized]
def unsizedTypes : List TypeSyntax → List TypeSyntax
  | [] => []
  | type :: rest => type.unsized :: unsizedTypes rest

end

theorem unsizedTypes_eq_self {types : List TypeSyntax} (h : ∀ type ∈ types, type.unsized = type) :
    unsizedTypes types = types := by
  induction types with
  | nil => rfl
  | cons type rest ih =>
    obtain ⟨htype, hrest⟩ := forall_mem_cons.mp h
    rw [unsizedTypes, htype, ih hrest]

theorem unsizedSizes_unsizedRanks (ranks : List UInt32) :
    (unsizedRanks ranks).map unsizedSizes = unsizedRanks ranks := by
  rw [unsizedRanks, map_map]
  refine map_congr_left fun rank _ => ?_
  rw [Function.comp_apply, unsizedSizes, TypeSyntax.unsizedRank, map_replicate]

theorem unsizedRank_length {rank : List (Option Expr)} {size : Option Expr} (h : size ∈ rank) :
    TypeSyntax.unsizedRank rank.length = unsizedSizes rank := by
  rw [unsizedSizes, map_const', TypeSyntax.unsizedRank, Nat.max_eq_left (length_pos_of_mem h)]

namespace TypeSyntax

variable {type : TypeSyntax}

theorem unsized_nullableOf (h : type.unsized = type) :
    type.nullableOf.unsized = type.nullableOf := by
  cases type with
  | array =>
    obtain ⟨helement, hranks⟩ := TypeSyntax.array.inj h
    rw [nullableOf, unsized, unsized, helement, hranks]
  | predefined | named | nullable | var => rw [nullableOf_of_not_isArray rfl, unsized, h]

/-- Sizes can only come in with the outer ranks. -/
theorem unsized_withOuterRanks (h : type.unsized = type) (ranks : List (List (Option Expr))) :
    (type.withOuterRanks ranks).unsized = type.withOuterRanks (ranks.map unsizedSizes) := by
  cases ranks with
  | nil => exact h
  | cons rank rest =>
    cases type with
    | array element inner =>
      obtain ⟨helement, hinner⟩ := TypeSyntax.array.inj h
      change TypeSyntax.array element.unsized ((rank :: rest ++ inner).map unsizedSizes) = _
      rw [helement, map_append, hinner]
      rfl
    | predefined | named | nullable | var =>
      rw [withOuterRanks_of_not_isArray rfl, withOuterRanks_of_not_isArray rfl]
      exact congrArg (array · _) h

/-- What is inside of the first rank does not depend on it. -/
theorem exists_withOuterRanks_cons (type : TypeSyntax) (outer : List (List (Option Expr))) :
    ∃ element inner, ∀ rank, type.withOuterRanks (rank :: outer) =
      .array element (rank :: inner) := by
  cases type with
  | array element inner => exact ⟨element, outer ++ inner, fun _ => rfl⟩
  | predefined | named | nullable | var => exact ⟨_, outer, fun _ => rfl⟩

theorem any_isSome_unsizedRank (dimensions : Nat) :
    (unsizedRank dimensions).any Option.isSome = false :=
  any_eq_false.mpr fun _ hsize => by simp [eq_of_mem_replicate hsize]

end TypeSyntax

/-- Conversion gives names and types without sizes. -/
theorem unsized_formation :
    TypeFormation (fun name => name.unsized = name) fun type => type.unsized = type where
  identifier _ := rfl
  generic h := congrArg (Name.generic _) (unsizedTypes_eq_self h)
  qualified hleft hright := congrArg₂ Name.qualified hleft hright
  aliasQualified h := congrArg (Name.aliasQualified _) h
  predefined _ := rfl
  named h := congrArg TypeSyntax.named h
  nullableOf h := TypeSyntax.unsized_nullableOf h
  withOuterRanks ranks h := by rw [TypeSyntax.unsized_withOuterRanks h, unsizedSizes_unsizedRanks]

/-! ## What expressions evaluate to -/

/-- Whole numbers and sums evaluate to what they say. What other expressions evaluate to is given.
-/
inductive Expr.Evaluates (given : Expr → Int → Prop) : Expr → Int → Prop where
  | given {expr : Expr} {value : Int} (h : given expr value) : Evaluates given expr value
  | number (value : Int) : Evaluates given (.number (toString value)) value
  | add {left right : Expr} {first second : Int} (hleft : Evaluates given left first)
    (hright : Evaluates given right second) :
      Evaluates given (.binary left .add right) (first + second)

end Target

namespace Inner

/-- What expressions of the source and of the target evaluate to, such that a converted expression
evaluates to the value of its source. -/
structure Meaning (inner : Inner) (place : Surroundings) where
  source : Source.Expr → Int → Prop
  target : Target.Expr → Int → Prop
  kept {expr : Source.Expr} {value : Int} {converted : Target.Expr} (h : source expr value)
    (hconverted : (inner.value expr).GivesWhere place.Settles converted) :
      converted.Evaluates target value

namespace Meaning

variable {inner : Inner} {place : Surroundings}

/-- A value of the last index of a dimension: everything that can be known about the last index
agrees with it. -/
structure LastIndex (meaning : inner.Meaning place) (bound : Source.Expr) (value : Int) : Prop where
  evaluates : meaning.source bound value
  constant {known : Int} (h : inner.table.integer? bound.id = some known) : known = value
  literal {id : NodeId} {text : String} {read : Int} (hbound : bound = .literal id (.numeric text))
    (h : Numeral.integer? text = some read) : read = value
  lessOne {id : NodeId} {left right : Source.Expr}
    (hbound : bound = .binary id .subtract left right)
    (hone : right.isOne) : meaning.source left (value + 1)

end Meaning

end Inner

/-! ## The four ways to a size -/

theorem Numeral.eq_of_next? {value next : Int} (h : Numeral.next? value = some next) :
    next = value + 1 := by
  unfold Numeral.next? at h
  split at h
  · exact (Option.some.inj h).symm
  · cases h

namespace Inner

variable {inner : Inner} {place : Surroundings} {P : Surroundings → Prop}

variable {bound : Source.Expr}

theorem knownSize?_cases {size : Int} (h : inner.knownSize? bound = some size) :
    (∃ last, inner.table.integer? bound.id = some last ∧ size = last + 1) ∨
    ∃ id text last, bound = .literal id (.numeric text) ∧ Numeral.integer? text = some last ∧ size =
      last + 1 := by
  unfold knownSize? at h
  split at h
  · next hnext =>
    obtain rfl := Option.some.inj h
    obtain ⟨last, hlast, hnext⟩ := Option.bind_eq_some_iff.mp hnext
    exact .inl ⟨last, hlast, Numeral.eq_of_next? hnext⟩
  · split at h
    · next id text _ =>
      obtain ⟨last, hlast, hnext⟩ := Option.bind_eq_some_iff.mp h
      exact .inr ⟨id, text, last, rfl, hlast, Numeral.eq_of_next? hnext⟩
    · cases h

theorem size_cases {id : NodeId} {label : Option String} {size : Target.Expr}
    (h : (inner.size (.simple id label bound)).GivesWhere P size) :
    (∃ known, inner.knownSize? bound = some known ∧ size = .number (toString known)) ∨
    (∃ id left right, bound = .binary id .subtract left right ∧ right.isOne ∧
      (inner.value left).GivesWhere P size) ∨
    ∃ converted, (inner.value bound).GivesWhere P converted ∧ size =
      .binary converted .add (.number "1") := by
  unfold Inner.size at h
  dsimp only at h
  split at h
  · next known hknown => exact .inl ⟨known, hknown, h.gives.pure.symm⟩
  split at h
  · next id left right _ =>
    split at h
    · next hone => exact .inr (.inl ⟨id, left, right, rfl, hone, h⟩)
    · exact .inr (.inr h.map)
  · exact .inr (.inr h.map)

/-- The size of a dimension is its last index and one. -/
theorem Meaning.size {meaning : inner.Meaning place} {id : NodeId} {label : Option String}
    {value : Int} (hvalue : meaning.LastIndex bound value) {size : Target.Expr}
    (h : (inner.size (.simple id label bound)).GivesWhere place.Settles size) :
    size.Evaluates meaning.target (value + 1) := by
  obtain ⟨_, hknown, rfl⟩ | ⟨_, _, _, rfl, hone, hleft⟩ | ⟨_, hconverted, rfl⟩ := size_cases h
  · obtain ⟨_, hlast, rfl⟩ | ⟨_, _, _, hbound, hlast, rfl⟩ := knownSize?_cases hknown
    · exact hvalue.constant hlast ▸ .number _
    · exact hvalue.literal hbound hlast ▸ .number _
  · exact meaning.kept (hvalue.lessOne rfl hone) hleft
  · exact .add (meaning.kept hvalue.evaluates hconverted) (.number 1)

/-! ## Declared and created types -/

/-- Either all bounds are left out, or all of them are given and have sizes. -/
theorem boundsRank_cases (hkept : Surroundings.Kept P)
    (hsettles : ∀ bound, (inner.size bound).Settles) {bounds : List Argument}
    {rank : List (Option Target.Expr)} (h : (inner.boundsRank bounds).GivesWhere P rank) :
    ((∀ bound ∈ bounds, isOmitted bound) ∧ rank = TypeSyntax.unsizedRank bounds.length) ∨
    ((∃ bound ∈ bounds, isOmitted bound = false) ∧ ∃ sizes, rank = sizes.map some ∧
      Forall₂ (fun bound size => (inner.size bound).GivesWhere P size) bounds sizes) := by
  unfold boundsRank at h
  split at h
  · next hempty =>
    obtain rfl := isEmpty_iff.mp hempty
    exact .inl ⟨forall_mem_nil _, h.gives.pure.symm⟩
  next hempty =>
  clear hempty
  split at h
  · next homitted => exact .inl ⟨all_eq_true.mp homitted, h.gives.pure.symm⟩
  · next homitted =>
    have hgiven : ∃ bound ∈ bounds, isOmitted bound = false := by simpa using homitted
    have hsized := h.mapM hkept fun bound => (hsettles bound).bind fun _ _ => .refl _
    refine .inr ⟨hgiven, ?_⟩
    clear h homitted hgiven
    induction hsized with
    | nil => exact ⟨[], rfl, .nil⟩
    | cons hfirst _ ih =>
      obtain ⟨size, hsize, rfl⟩ := hfirst.map
      obtain ⟨sizes, rfl, hsizes⟩ := ih
      exact ⟨size :: sizes, rfl, .cons hsize hsizes⟩

variable {initializer : Option Target.Expr}

/-- The type of a declarator has no sizes, and there is no initial value if none is written. -/
theorem baseType_unsized {site : DeclaratorSite} {declarator : Declarator} {name : DeclaredName}
    (hinitializer : declarator.initializer = none)
    (hnew : ∀ creation, declarator.asClause ≠ .new creation) {plain : TypeSyntax}
    (h : (inner.baseType site declarator name).Gives (plain, initializer)) :
    plain.unsized = plain ∧ initializer = none := by
  have hwritten (type : Model.TypeSymbol) : type.written.unsized = type.written :=
    Target.unsized_formation.written (fun element helement =>
      congrArg (TypeSyntax.array · _) helement) type
  obtain ⟨_, hvalue, h⟩ := h.bind
  rw [hinitializer] at hvalue
  obtain rfl := hvalue.pure
  split at h
  · next type _ =>
    obtain ⟨_, hconverted, heq⟩ := h.map
    obtain ⟨rfl, rfl⟩ := Prod.mk.inj heq
    exact ⟨Target.unsized_formation.type type hconverted.ofExcept, rfl⟩
  · next heq => exact absurd heq (hnew _)
  · next heq => exact absurd heq (hnew _)
  · obtain ⟨_, hconverted, heq⟩ := h.map
    obtain ⟨rfl, rfl⟩ := Prod.mk.inj heq
    refine ⟨?_, rfl⟩
    unfold implicitType at hconverted
    dsimp only at hconverted
    split at hconverted
    · obtain rfl := hconverted.pure
      rfl
    split at hconverted
    · obtain rfl := hconverted.pure
      exact hwritten _
    split at hconverted
    · obtain rfl := hconverted.pure
      rfl
    split at hconverted
    · obtain rfl := hconverted.pure
      exact hwritten _
    · exact hconverted.unsupported.elim

/-- The array that is declared by a name with bounds, and the one that is created for it. -/
theorem declaredVariable_cases {setting : Setting} {levels : Nat} {site : DeclaratorSite}
    {declarator : Declarator} {name : DeclaredName} {bounds : List Argument}
    (hinitializer : declarator.initializer = none)
    (hnew : ∀ creation, declarator.asClause ≠ .new creation)
    (hbounds : name.arrayBounds = some bounds) {type : TypeSyntax}
    (h : ((Inner.at setting levels).declaredVariable site declarator name).GivesWhere place.Settles
      (type, initializer)) :
    ∃ base rank, TypeSyntax.unsized base = base ∧
      ((Inner.at setting levels).boundsRank bounds).GivesWhere place.Settles rank ∧
      type = base.withOuterRanks (TypeSyntax.unsizedRank rank.length ::
        unsizedRanks name.arrayRanks) ∧
      initializer = if rank.any Option.isSome then
        some (.arrayCreation (base.withOuterRanks (rank :: unsizedRanks name.arrayRanks)) .absent)
          else none := by
  have hsettles (expr : Source.Expr) := settling.levels setting levels (.expr expr)
  obtain ⟨⟨_, _⟩, hplain, h⟩ := h.bind place.kept_settles
    (Congruence.baseType (C := settling.toCongruence) rfl (fun expr _ => hsettles expr)
      fun expr _ => hsettles expr)
  obtain ⟨hunsized, rfl⟩ := baseType_unsized hinitializer hnew hplain.gives
  dsimp only at h
  generalize hbase : (if name.nullable then _ else _ : TypeSyntax) = base at h
  have hbase : base.unsized = base := by
    rw [← hbase]
    split <;> split
    · rfl
    · exact TypeSyntax.unsized_nullableOf hunsized
    · rfl
    · exact hunsized
  rw [hbounds] at h
  obtain ⟨rank, hrank, heq⟩ := h.map
  obtain ⟨rfl, rfl⟩ := Prod.mk.inj heq
  exact ⟨base, rank, hbase, hrank, rfl, rfl⟩

end Inner

/-- **Declared arrays are allocated.** A name with bounds and without an initial value is given one
if and only if some bound is given. It is the creation of an array whose type is the declared one
but for its sizes, one for each bound, and each size evaluates to the last index and one. -/
theorem declared_arrays_are_allocated (setting : Setting) (levels : Nat) (place : Surroundings)
    (site : DeclaratorSite) (declarator : Declarator) (name : DeclaredName) (bounds : List Argument)
    (type : TypeSyntax) (initializer : Option Target.Expr)
    (hinitializer : declarator.initializer = none)
    (hnew : ∀ creation, declarator.asClause ≠ .new creation)
    (hbounds : name.arrayBounds = some bounds)
    (h : ((Inner.at setting levels).declaredVariable site declarator name place).1 =
      .ok (type, initializer)) :
    (initializer.isSome ↔ ∃ bound ∈ bounds, Inner.isOmitted bound = false) ∧
    ∀ created, initializer = some created → ∃ element sizes inner,
      let allocated : TypeSyntax := .array element (sizes.map some :: inner)
      created = .arrayCreation allocated .absent ∧ allocated.unsized = type ∧
        type = .array element (sizes.map (fun _ => none) :: inner) ∧
        Forall₂ (fun bound size => ∃ id label last, bound = .simple id label last ∧
          ∀ (meaning : (Inner.at setting levels).Meaning place) value,
            meaning.LastIndex last value →
            size.Evaluates meaning.target (value + 1)) bounds sizes := by
  have hsettles (bound : Argument) : ((Inner.at setting levels).size bound).Settles :=
    Congruence.size (C := settling.toCongruence) rfl fun expr _ =>
      settling.levels setting levels (.expr expr)
  obtain ⟨base, _, hbase, hrank, rfl, rfl⟩ :=
    Inner.declaredVariable_cases hinitializer hnew hbounds ⟨place, .refl place, h⟩
  obtain ⟨homitted, rfl⟩ | ⟨hgiven, sizes, rfl, hsizes⟩ :=
    Inner.boundsRank_cases place.kept_settles hsettles hrank
  · rw [TypeSyntax.any_isSome_unsizedRank, if_neg Bool.false_ne_true]
    refine ⟨iff_of_false nofun ?_, nofun⟩
    rintro ⟨bound, hbound, hgiven⟩
    exact absurd (homitted bound hbound) (by rw [hgiven]; exact Bool.false_ne_true)
  · obtain ⟨size, hsize⟩ : ∃ size, size ∈ sizes := by
      obtain ⟨_, hbound, -⟩ := hgiven
      obtain ⟨size, hsize, -⟩ := (Forall₂.flip hsizes).exists_left hbound
      exact ⟨size, hsize⟩
    have hmem : some size ∈ sizes.map some := mem_map_of_mem hsize
    have hsome : (sizes.map some).any Option.isSome = true := any_eq_true.mpr ⟨_, hmem, rfl⟩
    have hrank := Target.unsizedRank_length hmem
    have hallocated :=
      TypeSyntax.unsized_withOuterRanks hbase (sizes.map some :: unsizedRanks name.arrayRanks)
    rw [map_cons, Target.unsizedSizes_unsizedRanks, ← hrank] at hallocated
    obtain ⟨element, inner, hinner⟩ :=
      base.exists_withOuterRanks_cons (unsizedRanks name.arrayRanks)
    rw [if_pos hsome]
    refine ⟨iff_of_true rfl hgiven, ?_⟩
    rintro _ ⟨⟩
    refine ⟨element, sizes, inner, congrArg (Target.Expr.arrayCreation · .absent) (hinner _),
      (congrArg _ (hinner _).symm).trans hallocated, ?_, ?_⟩
    · rw [hinner, hrank, Target.unsizedSizes, map_map]
      rfl
    · refine hsizes.imp fun bound size hsize => ?_
      cases bound with
      | omitted => exact absurd hsize.gives Convert.not_gives_unsupported
      | simple id label last =>
        exact ⟨id, label, last, rfl, fun meaning value hlast => meaning.size hlast hsize⟩

/-- The source means what it is converted to. -/
def Inner.Meaning.ofTarget (inner : Inner) (place : Surroundings)
    (target : Target.Expr → Int → Prop) :
    inner.Meaning place where
  source expr value := ∀ converted, (inner.value expr).GivesWhere place.Settles converted →
    converted.Evaluates target value
  target := target
  kept h hconverted := h _ hconverted

/-- Where `n` is 8 and `k` is a constant 9, `Dim grid(n - 1, 9223372036854775807, k)() As Integer`
allocates sizes of 8, one more than the greatest number, which is written as a sum, and 10. -/
theorem allocation_of_three_dimensions :
    let setting : Setting := { table := { constants := .ofList [(8, .integer 9)] } }
    let count : Source.Expr := .name ⟨4, "n", []⟩
    let last : List Source.Expr := [.binary 3 .subtract count (.literal 5 (.numeric "1")),
      .literal 6 (.numeric "9223372036854775807"), .name ⟨8, "k", []⟩]
    let name : DeclaredName := ⟨1, "grid", false, some (last.map (.simple 2 none)), [1]⟩
    let declarator : Declarator := ⟨[name], .simple [] (.predefined 9 .integer), none⟩
    let sizes : List Target.Expr := [.identifier "n",
      .binary (.number "9223372036854775807") .add (.number "1"), .number "10"]
    let less : Target.Expr := .binary (.identifier "n") .subtract (.number "1")
    let target (expr : Target.Expr) (value : Int) : Prop :=
      expr = .identifier "n" ∧ value = 8 ∨ expr = less ∧ value = 7 ∨ expr =
        .identifier "k" ∧ value = 9
    ((Inner.at setting 3).declaredVariable .local declarator name {}).1 =
        .ok (.array (.predefined .int) [[none, none, none], [none]],
          some (.arrayCreation (.array (.predefined .int) [sizes.map some, [none]]) .absent)) ∧
      Forall₂ (·.Evaluates target ·) sizes [8, 9223372036854775808, 10] := by
  intro setting count last name declarator sizes less target
  have hrun : ((Inner.at setting 3).declaredVariable .local declarator name {}).1 =
      .ok (.array (.predefined .int) [[none, none, none], [none]],
        some (.arrayCreation (.array (.predefined .int) [sizes.map some, [none]]) .absent)) := rfl
  obtain ⟨-, hcreated⟩ :=
    declared_arrays_are_allocated setting 3 {} .local declarator name _ _ _ rfl nofun rfl hrun
  obtain ⟨_, allocated, _, heq, -, -, hsizes⟩ := hcreated _ rfl
  obtain rfl : sizes = allocated := by
    obtain ⟨htype, -⟩ := Target.Expr.arrayCreation.inj heq
    obtain ⟨-, hranks⟩ := TypeSyntax.array.inj htype
    exact map_injective_iff.mpr (fun _ _ => Option.some.inj) (List.cons.inj hranks).1
  let meaning := Inner.Meaning.ofTarget (Inner.at setting 3) {} target
  have hsource {expr : Source.Expr} {value : Int} {converted : Target.Expr}
      (hrun : ((Inner.at setting 3).value expr {}).1 = .ok converted)
        (h : converted.Evaluates target value) :
      meaning.source expr value := by
    rintro _ ⟨_, hplace, hother⟩
    obtain rfl := hplace.eq rfl
    exact Except.ok.inj (hrun.symm.trans hother) ▸ h
  change Forall₂ _ [_, _, _] [_, _, _] at hsizes
  obtain _ | ⟨⟨_, _, _, ⟨⟩, hless⟩,
    _ | ⟨⟨_, _, _, ⟨⟩, hgreatest⟩, _ | ⟨⟨_, _, _, ⟨⟩, hconstant⟩, -⟩⟩⟩ := hsizes
  refine ⟨hrun, .cons (hless meaning 7 ?_) (.cons (hgreatest meaning 9223372036854775807 ?_)
    (.cons (hconstant meaning 9 ?_) .nil))⟩
  · refine ⟨hsource rfl (.given (.inr (.inl ⟨rfl, rfl⟩))), nofun, nofun, ?_⟩
    rintro _ _ _ ⟨⟩ -
    exact hsource rfl (.given (.inl ⟨rfl, rfl⟩))
  · refine ⟨hsource rfl (.number 9223372036854775807), nofun, ?_, nofun⟩
    rintro _ _ _ ⟨⟩ h
    exact (Option.some.inj h).symm
  · refine ⟨hsource rfl (.given (.inr (.inr ⟨rfl, rfl⟩))), ?_, nofun, nofun⟩
    exact fun h => (Option.some.inj h).symm

end Sharpen
