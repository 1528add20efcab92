import Mathlib.Data.List.Nodup
import Sharpen.Proofs.StatementImage
import Sharpen.Proofs.Whereabouts

/-!
# Declared variables by type

A declarator can declare variables of different types, and each declaration of the target has one.
`addToGroup` takes in one variable at a time, and what it keeps up is that the groups are those of a
stable grouping (`GroupedByType`): the variables with one written type, in their order, under that
type, and the types in the order in which they turn up first.

From there on declarations of fields and of local variables only put the groups of their declarators
one after the other (`declarators_are_split_by_type`).
-/

namespace Sharpen

open List
open Target (TypeSyntax Variables Declarator Modifier Member)

/-! ## Grouping -/

/-- Groups hold the declared variables of one written type each. -/
structure GroupedByType (declared : List (TypeSyntax × Declarator)) (groups : List Variables) :
    Prop where
  /-- nothing is lost, nothing comes in twice -/
  all : (groups.flatMap (·.declarators)).Perm (declared.map (·.2))
  /-- a group has the variables whose type is written like its own, in their order -/
  members : ∀ group ∈ groups, group.declarators =
    (declared.filter fun one => one.1.text == group.type.text).map (·.2)
  /-- the type of a group is that of its first variable -/
  type : ∀ group ∈ groups, ∃ first, declared.find? (fun one => one.1.text == group.type.text) =
    some (group.type, first)
  /-- no two types are written the same -/
  distinct : (groups.map (·.type.text)).Nodup
  /-- the types are in the order in which they turn up first -/
  order : groups.map (·.type.text) = (declared.map (·.1.text)).eraseDups

/-- A variable is added to the first group of its type, or starts a new one at the end. -/
theorem addToGroup_cases (type : TypeSyntax) (added : Declarator) (groups : List Variables) :
    (∃ before group after, groups = before ++ group :: after ∧ group.type.text = type.text ∧
      addToGroup type added groups = before ++
        { group with declarators := group.declarators ++ [added] } :: after) ∨
    (type.text ∉ groups.map (·.type.text) ∧ addToGroup type added groups = groups ++
      [⟨type, [added]⟩]) := by
  induction groups with
  | nil => exact .inr ⟨not_mem_nil, rfl⟩
  | cons group rest ih =>
    rw [addToGroup]
    split
    · next htype => exact .inl ⟨[], group, rest, rfl, eq_of_beq htype, rfl⟩
    · next htype =>
      have hne : group.type.text ≠ type.text := fun h => htype (beq_iff_eq.mpr h)
      obtain ⟨before, other, after, rfl, hother, hadded⟩ | ⟨hnew, hadded⟩ := ih
      · exact .inl ⟨group :: before, other, after, rfl, hother, by rw [hadded, cons_append]⟩
      · refine .inr ⟨?_, by rw [hadded, cons_append]⟩
        exact not_mem_cons_of_ne_of_not_mem hne.symm hnew

namespace GroupedByType

variable {declared : List (TypeSyntax × Declarator)} {groups : List Variables}

theorem nil : GroupedByType [] [] where
  all := .nil
  members := forall_mem_nil _
  type := forall_mem_nil _
  distinct := nodup_nil
  order := rfl

theorem mem_texts_iff (h : GroupedByType declared groups) {text : String} :
    text ∈ groups.map (·.type.text) ↔ text ∈ declared.map (·.1.text) := by
  rw [h.order, mem_eraseDups]

section Add

variable (h : GroupedByType declared groups) {type : TypeSyntax} {added : Declarator}
  {group : Variables}
include h

/-- The first variable of a group stays the first one. -/
theorem type_append (hgroup : group ∈ groups) (more : List (TypeSyntax × Declarator)) : ∃ first,
    (declared ++ more).find? (fun one => one.1.text == group.type.text) =
      some (group.type, first) := by
  obtain ⟨first, hfirst⟩ := h.type group hgroup
  exact ⟨first, by rw [List.find?_append, hfirst, Option.some_or]⟩

/-- A group of another type stays as it is. -/
theorem members_concat (hgroup : group ∈ groups) (hne : type.text ≠ group.type.text) :
    group.declarators = ((declared ++ [(type, added)]).filter fun one =>
      one.1.text == group.type.text).map (·.2) := by
  rw [filter_append, map_append, ← h.members group hgroup]
  simp [hne]

/-- A variable of a known type. -/
theorem add_known {before after : List Variables} (hgroups : groups = before ++ group :: after)
    (htype : group.type.text = type.text) :
    GroupedByType (declared ++ [(type, added)])
      (before ++ { group with declarators := group.declarators ++ [added] } :: after) := by
  subst hgroups
  have hgroup : group ∈ before ++ group :: after := mem_append_right _ (mem_cons_self ..)
  have hknown : type.text ∈ declared.map (·.1.text) :=
    h.mem_texts_iff.mp (htype ▸ mem_map_of_mem hgroup)
  have hother : ∀ other ∈ before ++ after, type.text ≠ other.type.text := by
    have hdistinct := h.distinct
    rw [map_append, map_cons, nodup_middle, nodup_cons, ← map_append] at hdistinct
    exact fun other hother heq => hdistinct.1 (htype.trans heq ▸ mem_map_of_mem hother)
  have htexts : (before ++ { group with declarators := group.declarators ++ [added] } :: after).map
      (·.type.text) = (before ++ group :: after).map (·.type.text) := by
    simp only [map_append, map_cons]
  constructor
  case all =>
    rw [map_append]
    refine .trans ?_ (h.all.append_right [added])
    simp only [flatMap_append, flatMap_cons, append_assoc]
    exact (perm_append_comm.append_left _).append_left _
  case members =>
    intro one hone
    obtain hone | rfl | hone := by simpa using hone
    · exact h.members_concat (mem_append_left _ hone) (hother one (mem_append_left _ hone))
    · rw [filter_append, map_append, ← h.members group hgroup]
      simp [htype]
    · exact h.members_concat (mem_append_right _ (mem_cons_of_mem _ hone))
        (hother one (mem_append_right _ hone))
  case type =>
    intro one hone
    obtain hone | rfl | hone := by simpa using hone
    · exact h.type_append (mem_append_left _ hone) _
    · have hfirst := h.type_append hgroup [(type, added)]
      exact hfirst
    · exact h.type_append (mem_append_right _ (mem_cons_of_mem _ hone)) _
  case distinct => exact htexts ▸ h.distinct
  case order =>
    rw [htexts, h.order, map_append, eraseDups_append]
    simp [List.removeAll, hknown]

/-- A variable of a new type. -/
theorem add_new (hnew : type.text ∉ groups.map (·.type.text)) :
    GroupedByType (declared ++ [(type, added)]) (groups ++ [⟨type, [added]⟩]) := by
  have hunknown : ∀ one ∈ declared, one.1.text ≠ type.text :=
    fun one hone heq => hnew (h.mem_texts_iff.mpr (heq ▸ mem_map_of_mem hone))
  constructor
  case all =>
    rw [flatMap_append, map_append]
    exact h.all.append_right [added]
  case members =>
    refine forall_mem_append.mpr ⟨fun group hgroup => ?_, forall_mem_singleton.mpr ?_⟩
    · exact h.members_concat hgroup fun heq => hnew (heq ▸ mem_map_of_mem hgroup)
    · rw [filter_append, filter_eq_nil_iff.mpr fun one hone => by simp [hunknown one hone]]
      simp
  case type =>
    refine forall_mem_append.mpr ⟨fun group hgroup => h.type_append hgroup _,
      forall_mem_singleton.mpr ⟨added, ?_⟩⟩
    rw [List.find?_append, List.find?_eq_none.mpr fun one hone => by simp [hunknown one hone]]
    simp
  case distinct =>
    rw [map_append]
    exact nodup_append.mpr ⟨h.distinct, nodup_singleton _, by simpa using hnew⟩
  case order =>
    rw [map_append, map_append, h.order, eraseDups_append]
    have hknown : type.text ∉ declared.map (·.1.text) := fun hmem => hnew (h.mem_texts_iff.mpr hmem)
    simp [List.removeAll, hknown, eraseDups_cons]

end Add

/-- Variables one after the other. -/
theorem foldl (h : GroupedByType declared groups) (more : List (TypeSyntax × Declarator)) :
    GroupedByType (declared ++ more)
      (more.foldl (fun groups (type, added) => addToGroup type added groups) groups) := by
  induction more generalizing declared groups with
  | nil => rwa [append_nil]
  | cons one rest ih =>
    have hadded : GroupedByType (declared ++ [one]) (addToGroup one.1 one.2 groups) := by
      obtain ⟨_, _, _, hgroups, htype, hadded⟩ | ⟨hnew, hadded⟩ :=
        addToGroup_cases one.1 one.2 groups
      · exact hadded ▸ h.add_known hgroups htype
      · exact hadded ▸ h.add_new hnew
    have hrest := ih hadded
    rwa [append_assoc] at hrest

/-- There is only one such grouping. -/
theorem unique (h : GroupedByType declared groups) {others : List Variables}
    (hothers : GroupedByType declared others) : groups = others := by
  -- a group is told by how its type is written
  let group (text : String) : Option Variables :=
    (declared.find? fun one => one.1.text == text).map fun first =>
      ⟨first.1, (declared.filter fun one => one.1.text == text).map (·.2)⟩
  have htold {groups : List Variables} (h : GroupedByType declared groups) :
      groups.map some = ((declared.map (·.1.text)).eraseDups).map group := by
    rw [← h.order, map_map]
    refine map_congr_left fun one hone => ?_
    obtain ⟨_, hfirst⟩ := h.type one hone
    simp only [group, Function.comp_apply, hfirst, Option.map_some, ← h.members one hone]
    cases one
    rfl
  exact map_injective_iff.mpr (fun _ _ => Option.some.inj) ((htold h).trans (htold hothers).symm)

end GroupedByType

/-! ## Declarators -/

namespace Inner

variable {inner : Inner} {site : DeclaratorSite} {declarators : List Source.Declarator}
  {place : Surroundings}

/-- A name with the type and the initial value that are declared for it. -/
def named (name : Source.DeclaredName) (declared : TypeSyntax × Option Target.Expr) :
    TypeSyntax × Declarator :=
  (declared.1, ⟨convertIdentifier name.identifier, declared.2⟩)

/-- Declarations hold the names of a declarator by their types. Each name is there with what is
declared for it where its turn comes. -/
def SplitsByType (inner : Inner) (site : DeclaratorSite) (declarator : Source.Declarator)
    (place : Surroundings) (groups : List Variables) : Prop :=
  ∃ declared, Forall₂ (fun start one => ∃ own,
      (inner.declaredVariable site declarator start.1 start.2).1 = .ok own ∧ one =
        named start.1 own)
    (Convert.starts (inner.declaredVariable site declarator) place declarator.names) declared ∧
    GroupedByType declared groups

theorem run_declaredVariables {declarator : Source.Declarator} {groups : List Variables} :
    (inner.declaredVariables site declarator place).1 = .ok groups ↔
      inner.SplitsByType site declarator place groups := by
  have hrule : inner.declaredVariables site declarator = (do
      let declared ← declarator.names.mapM fun name => do
        return named name (← inner.declaredVariable site declarator name)
      return declared.foldl (fun groups (type, one) => addToGroup type one groups) []) := rfl
  have hgrouped := fun declared => GroupedByType.nil.foldl declared
  simp only [hrule, Convert.run_map_ok_iff, Convert.run_mapM_ok_iff, Convert.starts_map]
  refine exists_congr fun declared => and_congr_right fun _ =>
    ⟨?_, fun h => h.unique (hgrouped declared)⟩
  rintro rfl
  exact hgrouped declared

/-- The lists of declarations of several declarators, each of them where its turn comes. -/
def SplitsInto (inner : Inner) (site : DeclaratorSite) (declarators : List Source.Declarator)
    (place : Surroundings) (lists : List (List Variables)) : Prop :=
  Forall₂ (fun start groups => inner.SplitsByType site start.1 start.2 groups)
    (Convert.starts (inner.declaredVariables site) place declarators) lists

theorem splitsInto_iff {lists : List (List Variables)} :
    inner.SplitsInto site declarators place lists ↔
    ((declarators.mapM (inner.declaredVariables site)) place).1 = .ok lists := by
  simp only [Convert.run_mapM_ok_iff, run_declaredVariables]
  rfl

theorem run_variableLists {declared : List Variables} :
    (inner.variableLists site declarators place).1 = .ok declared ↔
      ∃ lists, inner.SplitsInto site declarators place lists ∧ declared = lists.flatten := by
  simp only [variableLists, Convert.run_map_ok_iff, splitsInto_iff]

theorem run_localDeclaration {modifiers : List Source.Modifier}
    {statements : List Target.Statement} :
    (inner.localDeclaration modifiers declarators place).1 = .ok statements ↔
      ∃ converted lists, Modifiers.convert .local modifiers = .ok converted ∧
        inner.SplitsInto (if modifiers.contains .const then .constant else .local)
          declarators place lists ∧
        statements = lists.flatten.map (.localDeclaration converted) := by
  refine Convert.run_bind_ok_iff.trans (exists_congr fun converted => ?_)
  rw [Convert.run_map_ok_iff]
  simp only [run_variableLists]
  constructor
  · rintro ⟨hconverted, _, ⟨lists, hlists, rfl⟩, rfl⟩
    exact ⟨lists, hconverted, hlists, rfl⟩
  · rintro ⟨lists, hconverted, hlists, rfl⟩
    exact ⟨hconverted, _, ⟨lists, hlists, rfl⟩, rfl⟩

/-! ## Fields -/

/-- The modifiers of a field: in a module it is shared. -/
def fieldModifiers (place : Surroundings) (converted : List Modifier) : List Modifier :=
  if (place.containers.head?.any fun container => container.kind == .module) &&
    !Modifiers.isShared converted then
    converted ++ [.static]
  else converted

/-- The last field of a declaration with `WithEvents` says so, if such remarks are wanted. -/
def remarked (setting : Setting) (modifiers : List Source.Modifier) (fields : List Member) :
    List Member :=
  if modifiers.contains .withEvents && setting.options.emitTodoComments then markLast
    withEventsComment fields
  else fields

variable {attributes : List (List Source.Attribute)} {modifiers : List Source.Modifier}

theorem run_field {members : List Member} :
    (inner.field attributes modifiers declarators place).1 = .ok members ↔
      ∃ converted marks lists, Modifiers.convert .variableOrConst modifiers = .ok converted ∧
        (inner.attributes attributes place).1 = .ok marks ∧
        inner.SplitsInto (if modifiers.contains .const then .constant else .field) declarators
          (inner.attributes attributes place).2 lists ∧
        lists.flatten ≠ [] ∧
        members = remarked inner.setting modifiers
          (lists.flatten.map (.field marks (fieldModifiers place converted))) := by
  let fields (converted : List Modifier) (marks : List Target.AttributeList)
    (declared : List Variables) :=
    declared.map (Member.field marks (fieldModifiers place converted))
  have hrule : inner.field attributes modifiers declarators place = (do
      let converted ← Convert.ofExcept (Modifiers.convert .variableOrConst modifiers)
      let marks ← inner.attributes attributes
      let declared ← inner.variableLists (if modifiers.contains .const then .constant else .field)
        declarators
      if (fields converted marks declared).isEmpty then
        Convert.unsupported "FieldDeclaration" "a field declaration must declare at least one name"
      else if modifiers.contains .withEvents && inner.setting.options.emitTodoComments then
        return markLast withEventsComment (fields converted marks declared)
      else return fields converted marks declared : Convert _) place := by
    unfold field
    rw [Convert.run_bind, Convert.run_bind]
    cases Modifiers.convert .variableOrConst modifiers with
    | ok converted => rfl
    | error error => rfl
  have hlast {fields : List Member} {after : Surroundings} :
      ((if fields.isEmpty then
          Convert.unsupported "FieldDeclaration"
            "a field declaration must declare at least one name"
        else if modifiers.contains .withEvents && inner.setting.options.emitTodoComments then
          return markLast withEventsComment fields
        else return fields : Convert _) after).1 = .ok members ↔
        fields ≠ [] ∧ members = remarked inner.setting modifiers fields := by
    cases fields with
    | nil => exact iff_of_false nofun fun h => h.1 rfl
    | cons first rest =>
      rw [isEmpty_cons, if_neg Bool.false_ne_true, remarked]
      split
      · exact ⟨fun h => ⟨cons_ne_nil _ _, (Except.ok.inj h).symm⟩, fun h =>
          congrArg Except.ok h.2.symm⟩
      · exact ⟨fun h => ⟨cons_ne_nil _ _, (Except.ok.inj h).symm⟩, fun h =>
          congrArg Except.ok h.2.symm⟩
  rw [hrule, Convert.run_bind_ok_iff]
  refine exists_congr fun converted => ?_
  simp only [Convert.run_bind_ok_iff, run_variableLists, hlast, fields, Convert.ofExcept, ne_eq,
    map_eq_nil_iff]
  constructor
  · rintro ⟨hconverted, marks, hmarks, _, ⟨lists, hlists, rfl⟩, hne, rfl⟩
    exact ⟨marks, lists, hconverted, hmarks, hlists, hne, rfl⟩
  · rintro ⟨marks, lists, hconverted, hmarks, hlists, hne, rfl⟩
    exact ⟨hconverted, marks, hmarks, _, ⟨lists, hlists, rfl⟩, hne, rfl⟩

theorem field_fails_iff :
    (∃ error, (inner.field attributes modifiers declarators place).1 = .error error) ↔
      (∃ error, Modifiers.convert .variableOrConst modifiers = .error error) ∨
      (∃ error, (inner.attributes attributes place).1 = .error error) ∨
      (∃ start ∈ Convert.starts
        (inner.declaredVariables (if modifiers.contains .const then .constant else .field))
          (inner.attributes attributes place).2 declarators,
        ∃ error,
          (inner.declaredVariables (if modifiers.contains .const then .constant else .field) start.1
          start.2).1 = .error error) ∨ ∀ declarator ∈ declarators, declarator.names = [] := by
  have hfails {α : Type} (result : Except ConversionError α) :
      (∃ error, result = .error error) ↔ ¬∃ a, result = .ok a := by
    cases result with
    | ok a => exact iff_of_false nofun (not_not_intro ⟨a, rfl⟩)
    | error error => exact iff_of_true ⟨error, rfl⟩ nofun
  have hempty {site : DeclaratorSite} {after : Surroundings} {lists : List (List Variables)}
      (h : inner.SplitsInto site declarators after lists) :
      lists.flatten = [] ↔ ∀ declarator ∈ declarators, declarator.names = [] := by
    rw [variableLists_eq_nil_iff ⟨after, run_variableLists.mpr ⟨lists, h, rfl⟩⟩]
    simp
  have hsucceeds : (∃ members, (inner.field attributes modifiers declarators place).1 =
    .ok members) ↔
      (∃ converted, Modifiers.convert .variableOrConst modifiers = .ok converted) ∧
      (∃ marks, (inner.attributes attributes place).1 = .ok marks) ∧
      (∃ lists,
        inner.SplitsInto (if modifiers.contains .const then .constant else .field) declarators
        (inner.attributes attributes place).2 lists) ∧
      ¬∀ declarator ∈ declarators, declarator.names = [] := by
    simp only [run_field]
    constructor
    · rintro ⟨_, converted, marks, lists, hconverted, hmarks, hlists, hne, -⟩
      exact ⟨⟨converted, hconverted⟩, ⟨marks, hmarks⟩, ⟨lists, hlists⟩, fun h =>
        hne ((hempty hlists).mpr h)⟩
    · rintro ⟨⟨converted, hconverted⟩, ⟨marks, hmarks⟩, ⟨lists, hlists⟩, hnames⟩
      exact ⟨_, converted, marks, lists, hconverted, hmarks, hlists, fun h =>
        hnames ((hempty hlists).mp h), rfl⟩
  rw [← Convert.run_mapM_error_iff, hfails, hfails, hfails, hfails, hsucceeds]
  simp only [splitsInto_iff, not_and_or, not_not]

end Inner

/-- **Declarators are split by type.** A declarator becomes one declaration for each way in which a
type of its names is written: they hold every name once, with what is declared for it, in the order
of the names; the types are in the order in which they turn up first. Local variables and fields are
the declarations of their declarators one after the other, all with the same modifiers. A field
declaration fails if and only if a part of it does, or if it has no names. -/
theorem declarators_are_split_by_type (setting : Setting) (levels : Nat) (place : Surroundings) :
    let inner := Inner.at setting levels
    (∀ site declarator groups, (inner.declaredVariables site declarator place).1 = .ok groups ↔
      inner.SplitsByType site declarator place groups) ∧
    (∀ modifiers declarators statements, (inner.localDeclaration modifiers declarators place).1 =
      .ok statements ↔
        ∃ converted lists, Modifiers.convert .local modifiers = .ok converted ∧
          inner.SplitsInto (if modifiers.contains .const then .constant else .local)
            declarators place lists ∧
          statements = lists.flatten.map (.localDeclaration converted)) ∧
    ∀ attributes modifiers declarators,
      let site : DeclaratorSite := if modifiers.contains .const then .constant else .field
      let marked := inner.attributes attributes place
      (∀ members, (inner.field attributes modifiers declarators place).1 = .ok members ↔
        ∃ converted marks lists, Modifiers.convert .variableOrConst modifiers = .ok converted ∧
          marked.1 = .ok marks ∧ inner.SplitsInto site declarators marked.2 lists ∧
            lists.flatten ≠ [] ∧
          members = Inner.remarked setting modifiers
            (lists.flatten.map (.field marks (Inner.fieldModifiers place converted)))) ∧
      ((∃ error, (inner.field attributes modifiers declarators place).1 = .error error) ↔
        (∃ error, Modifiers.convert .variableOrConst modifiers = .error error) ∨
        (∃ error, marked.1 = .error error) ∨
        (∃ start ∈ Convert.starts (inner.declaredVariables site) marked.2 declarators,
          ∃ error, (inner.declaredVariables site start.1 start.2).1 = .error error) ∨
        ∀ declarator ∈ declarators, declarator.names = []) := by
  refine ⟨fun _ _ _ => Inner.run_declaredVariables, fun _ _ _ => Inner.run_localDeclaration, ?_⟩
  refine fun attributes modifiers declarators => ⟨fun members => ?_, Inner.field_fails_iff⟩
  rw [Inner.run_field, Inner.at_setting]

/-- `Dim a, b(5), c As Integer` declares `a` and `c` together, and an array for `b`. -/
theorem split_of_three_names :
    let name (id : Source.NodeId) (identifier : String) (bounds : Option (List Source.Argument)) :
      Source.DeclaredName := ⟨id, identifier, false, bounds, []⟩
    let five : Source.Argument := .simple 5 none (.literal 6 (.numeric "5"))
    let declarator : Source.Declarator :=
      ⟨[name 1 "a" none, name 2 "b" (some [five]), name 3 "c" none],
      .simple [] (.predefined 4 .integer), none⟩
    let groups : List Variables := [⟨.predefined .int, [⟨"a", none⟩, ⟨"c", none⟩]⟩,
      ⟨.array (.predefined .int) [[none]],
        [⟨"b", some (.arrayCreation (.array (.predefined .int) [[some (.number "6")]]) .absent)⟩]⟩]
    ((Inner.at {} 1).declaredVariables .local declarator {}).1 = .ok groups ∧
      (Inner.at {} 1).SplitsByType .local declarator {} groups :=
  ⟨rfl, ((declarators_are_split_by_type {} 1 {}).1 _ _ _).mp rfl⟩

end Sharpen
