import Sharpen.Proofs.DeclaredVariables.Groups
import Sharpen.Proofs.DeclaredVariables.Sizes

/-!
# Types that are left to the model

A parameter or a name without `As` has the type of its symbol in the semantic model. The symbol of
`a()` has an array type already, but the marks that are written on a name go onto whatever type
stands before it. So the model's type is declared as it is if and only if nothing is written on the
name (`marks_go_onto_the_known_type`).
-/

namespace Sharpen

open List

open Model (TypeSymbol Symbol)
open Source (Parameter DeclaredName)
open Target (TypeSyntax Variables Declarator Expr)

/-- What is written on a declared name: a question mark, and rank specifiers from the outside in. -/
structure Marks where
  nullable : Bool
  ranks : List (List (Option Expr))

namespace Marks

/-- Nothing is written on the name. -/
def none : Marks := ⟨false, []⟩

def on (marks : Marks) (type : TypeSyntax) : TypeSyntax :=
  (if marks.nullable then type.nullableOf else type).withOuterRanks marks.ranks

/-- The number of rank specifiers that an array type has. -/
def rankCount : TypeSyntax → Nat
  | .array _ ranks => ranks.length
  | _ => 0

theorem rankCount_nullableOf (type : TypeSyntax) : rankCount type.nullableOf = rankCount type := by
  cases type with
  | array | predefined | named | nullable | var => rfl

theorem rankCount_withOuterRanks (type : TypeSyntax) (ranks : List (List (Option Expr))) :
    rankCount (type.withOuterRanks ranks) = ranks.length + rankCount type := by
  cases ranks with
  | nil => exact (Nat.zero_add _).symm
  | cons first rest =>
    cases type with
    | array => exact length_append
    | predefined | named | nullable | var => rfl

theorem nullableOf_ne (type : TypeSyntax) : type.nullableOf ≠ type := by
  have hmark (element : TypeSyntax) : TypeSyntax.nullable element ≠ element := by
    intro h
    have hsize := congrArg sizeOf h
    simp only [TypeSyntax.nullable.sizeOf_spec] at hsize
    omega
  cases type with
  | array element => exact fun h => hmark element (TypeSyntax.array.inj h).1
  | predefined | named | nullable | var => exact hmark _

/-- Every mark makes a type another one. -/
theorem on_eq_self_iff (marks : Marks) (type : TypeSyntax) :
    marks.on type = type ↔ marks = none := by
  obtain ⟨isNullable, ranks⟩ := marks
  constructor
  · intro h
    have hranks : ranks = [] := by
      have hcount := congrArg rankCount h
      rw [on, rankCount_withOuterRanks] at hcount
      have hkept : rankCount (if isNullable then type.nullableOf else type) = rankCount type := by
        split
        · exact rankCount_nullableOf type
        · rfl
      rw [hkept] at hcount
      exact length_eq_zero_iff.mp (by simpa using hcount)
    subst hranks
    cases isNullable with
    | false => rfl
    | true => exact absurd h (nullableOf_ne type)
  · intro h
    obtain ⟨rfl, rfl⟩ := Marks.mk.inj h
    rfl

end Marks

def Source.Parameter.marks (parameter : Parameter) : Marks :=
  ⟨parameter.nullable, unsizedRanks parameter.arrayRanks⟩

/-- The marks on a declared name. Bounds are the outermost rank specifier; a declared type has no
sizes. -/
def Source.DeclaredName.marks (name : DeclaredName) : Marks :=
  ⟨name.nullable,
    name.arrayBounds.toList.map (fun bounds => TypeSyntax.unsizedRank bounds.length) ++
    unsizedRanks name.arrayRanks⟩

/-- The type that the model gives the symbol declared at a node. -/
def Model.SemanticTable.typeDeclaredAt? (table : Model.SemanticTable) (id : Source.NodeId) :
    Option TypeSymbol :=
  (table.declaredSymbol? id).bind (·.type)

theorem Model.TypeSymbol.isVar_written (type : TypeSymbol) : type.written.isVar = false := by
  cases type
  unfold written
  split
  · split <;> rfl
  · rfl
  · rfl

namespace Inner

variable {inner : Inner} {site : DeclaratorSite} {declarator : Source.Declarator}
  {name : DeclaredName}

/-- A parameter without `As` has the type of its symbol under its marks. -/
theorem type_of_parameter {parameter : Parameter} {converted : Target.Parameter}
    {type : TypeSymbol} (has : parameter.asType = none)
    (htype : inner.table.typeDeclaredAt? parameter.id = some type)
    (h : (inner.parameter true parameter).Gives converted) :
    converted.type = some (parameter.marks.on type.written) := by
  obtain ⟨_, -, h⟩ := h.bind
  rw [has] at h
  obtain ⟨_, hgiven, h⟩ := h.bind
  obtain rfl := hgiven.pure
  obtain ⟨_, -, h⟩ := h.bind
  obtain ⟨_, -, rfl⟩ := h.map
  have hdeclared : inner.declaredType parameter.id = type.written := by
    unfold declaredType
    rw [show (inner.table.declaredSymbol? parameter.id).bind (·.type) = some type from htype]
  exact congrArg (fun declared => some (parameter.marks.on declared)) hdeclared

/-- Left-out bounds have as many dimensions as given ones. -/
theorem unsizedRank_of_boundsRank {bounds : List Source.Argument} {rank : List (Option Expr)}
    (h : (inner.boundsRank bounds).Gives rank) :
    TypeSyntax.unsizedRank rank.length = TypeSyntax.unsizedRank bounds.length := by
  have hunsized (count : Nat) :
      TypeSyntax.unsizedRank (TypeSyntax.unsizedRank count).length =
        TypeSyntax.unsizedRank count := by
    simp [TypeSyntax.unsizedRank]
  unfold boundsRank at h
  split at h
  · next hempty =>
    obtain rfl := isEmpty_iff.mp hempty
    obtain rfl := h.pure
    rfl
  · split at h
    · obtain rfl := h.pure
      exact hunsized _
    · rw [h.mapM.length_eq]

/-- A name without `As` has the type of its symbol under its marks, if nothing tells its type but
the model. -/
theorem type_of_declaredVariable {declared : TypeSyntax × Option Expr} {type : TypeSymbol}
    (has : declarator.asClause = .absent) (hsite : site = .local → declarator.initializer = none)
    (htype : inner.table.typeDeclaredAt? name.id = some type) (herror : type.isError = false)
    (hnamed : type.canBeNamed = true)
    (h : (inner.declaredVariable site declarator name).Gives declared) :
    declared.1 = name.marks.on type.written := by
  have himplicit : inner.implicitType site declarator.initializer name = pure type.written := by
    have hknown : ¬(site = .local && declarator.initializer.isSome) := by
      simp only [Bool.and_eq_true, decide_eq_true_eq, not_and]
      intro hlocal
      simp [hsite hlocal]
    have hfilter : ((inner.table.declaredSymbol? name.id).bind (·.type)).filter
        (fun type => !type.isError && type.canBeNamed) = some type := by
      rw [show (inner.table.declaredSymbol? name.id).bind (·.type) = some type from htype]
      simp [Option.filter, herror, hnamed]
    unfold implicitType
    rw [if_neg hknown, hfilter]
  obtain ⟨⟨plain, _⟩, hplain, h⟩ := h.bind
  obtain rfl : plain = type.written := by
    obtain ⟨_, -, hplain⟩ := hplain.bind
    rw [has] at hplain
    dsimp only at hplain
    rw [himplicit] at hplain
    obtain ⟨_, hgiven, heq⟩ := hplain.map
    obtain rfl := hgiven.pure
    exact (Prod.mk.inj heq).1
  dsimp only at h
  rw [type.isVar_written, Bool.and_false, if_neg Bool.false_ne_true] at h
  unfold DeclaredName.marks
  split at h
  · next hbounds =>
    obtain rfl := h.pure
    rw [hbounds]
    rfl
  · next hbounds =>
    obtain ⟨_, hrank, rfl⟩ := h.map
    rw [hbounds, unsizedRank_of_boundsRank hrank]
    rfl

end Inner

/-- **Marks go onto the known type.** A parameter without `As` whose symbol has a type is declared
with that type and the marks on the parameter; so is each name of a declarator without `As`, unless
the initial value of a local variable tells its type. It is exactly the type of the symbol if and
only if there are no marks. The names are then grouped by how their types are written. -/
theorem marks_go_onto_the_known_type (setting : Setting) (levels : Nat) (place : Surroundings) :
    let inner := Inner.at setting levels
    (∀ parameters converted, (inner.parameters parameters place).1 = .ok converted →
      Forall₂ (fun (parameter : Parameter) (one : Target.Parameter) => ∀ type,
        parameter.asType = none → setting.table.typeDeclaredAt? parameter.id = some type →
        one.type = some (parameter.marks.on type.written) ∧
          (one.type = some type.written ↔ parameter.nullable = false ∧ parameter.arrayRanks = []))
        parameters converted) ∧
    ∀ site (declarator : Source.Declarator) groups,
      (inner.declaredVariables site declarator place).1 = .ok groups →
      declarator.asClause = .absent → (site = .local → declarator.initializer = none) →
      ∃ declared, GroupedByType declared groups ∧
        Forall₂ (fun (name : DeclaredName) (one : TypeSyntax × Declarator) =>
          one.2.identifier = convertIdentifier name.identifier ∧ ∀ type,
          setting.table.typeDeclaredAt? name.id = some type → type.isError = false →
            type.canBeNamed = true →
          one.1 = name.marks.on type.written ∧ (one.1 = type.written ↔
              name.nullable = false ∧ name.arrayBounds = none ∧ name.arrayRanks = []))
          declarator.names declared := by
  have hranks (ranks : List UInt32) : unsizedRanks ranks = [] ↔ ranks = [] := map_eq_nil_iff
  intro inner
  have htable : inner.table = setting.table :=
    congrArg Setting.table (Inner.at_setting setting levels)
  refine ⟨fun parameters converted h => ?_, fun site declarator groups h has hsite => ?_⟩
  · refine (Convert.Gives.mapM ⟨place, h⟩).imp fun parameter one hone type has htype => ?_
    rw [← htable] at htype
    have hmarked := Inner.type_of_parameter has htype hone
    refine ⟨hmarked, ?_⟩
    rw [hmarked, Option.some_inj, Marks.on_eq_self_iff, Parameter.marks, Marks.none,
      Marks.mk.injEq, hranks]
  · obtain ⟨declared, hdeclared, hgrouped⟩ := Inner.run_declaredVariables.mp h
    refine ⟨declared, hgrouped, ?_⟩
    rw [← Convert.map_fst_starts (inner.declaredVariable site declarator) place declarator.names,
      forall₂_map_left_iff]
    refine hdeclared.imp ?_
    rintro ⟨name, start⟩ _ ⟨own, hown, rfl⟩
    refine ⟨rfl, fun type htype herror hnamed => ?_⟩
    rw [← htable] at htype
    have hmarked : own.1 = name.marks.on type.written :=
      Inner.type_of_declaredVariable has hsite htype herror hnamed ⟨start, hown⟩
    refine ⟨hmarked, ?_⟩
    change own.1 = _ ↔ _
    rw [hmarked, Marks.on_eq_self_iff, DeclaredName.marks, Marks.none, Marks.mk.injEq,
      append_eq_nil_iff, hranks, map_eq_nil_iff, Option.toList_eq_nil_iff]

/-- Without marks the type of a symbol is declared as it is, also that of an array. A question mark
and a rank specifier go onto it. -/
theorem marks_on_three_names :
    let integer : TypeSymbol := .ofSpecial .int32
    let field (name : String) (type : TypeSymbol) : Symbol :=
      ⟨name, .field, false, some type, [], none⟩
    let symbols : Model.NodeMap Symbol :=
      .ofList [(1, field "a" (.arrayOf integer)), (2, field "b" integer), (3, field "c" integer)]
    let setting : Setting := { table := { declared := symbols } }
    let names : List DeclaredName :=
      [⟨1, "a", false, none, []⟩, ⟨2, "b", true, none, []⟩, ⟨3, "c", false, none, [2]⟩]
    let groups : List Variables := [⟨.array (.predefined .int) [[none]], [⟨"a", none⟩]⟩,
      ⟨.nullable (.predefined .int), [⟨"b", none⟩]⟩, ⟨.array (.predefined .int) [[none, none]],
        [⟨"c", none⟩]⟩]
    ((Inner.at setting 1).declaredVariables .field ⟨names, .absent, none⟩ {}).1 = .ok groups ∧
      ∃ declared, GroupedByType declared groups ∧ Forall₂ (fun name one => ∀ type,
        setting.table.typeDeclaredAt? name.id = some type → type.isError = false →
          type.canBeNamed = true →
        one.1 = name.marks.on type.written) names declared := by
  intro integer field symbols setting names groups
  have hrun : ((Inner.at setting 1).declaredVariables .field ⟨names, .absent, none⟩ {}).1 =
    .ok groups := rfl
  obtain ⟨declared, hgrouped, hdeclared⟩ :=
    (marks_go_onto_the_known_type setting 1 {}).2 .field ⟨names, .absent,
      none⟩ groups hrun rfl nofun
  exact ⟨hrun, declared, hgrouped, hdeclared.imp fun _ _ h type htype herror hnamed =>
    (h.2 type htype herror hnamed).1⟩

/-- The symbol of a field `a()` is an array of integers, and its type can be written. What is
declared is an array of arrays. -/
theorem marked_array_is_declared_as_an_array_of_arrays :
    let integers : TypeSymbol := .arrayOf (.ofSpecial .int32)
    let setting : Setting :=
      { table := { declared := .ofList [(1, ⟨"a", .field, false, some integers, [], none⟩)] } }
    let declarator : Source.Declarator := ⟨[⟨1, "a", false, none, [1]⟩], .absent, none⟩
    setting.table.typeDeclaredAt? 1 = some integers ∧ integers.isError = false ∧
      integers.canBeNamed = true ∧
      integers.written = .array (.predefined .int) [[none]] ∧
      ((Inner.at setting 1).declaredVariables .field declarator {}).1 =
        .ok [⟨.array (.predefined .int) [[none], [none]], [⟨"a", none⟩]⟩] :=
  ⟨rfl, rfl, rfl, rfl, rfl⟩

end Sharpen
