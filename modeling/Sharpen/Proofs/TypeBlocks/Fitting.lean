import Sharpen.Proofs.TypeBlocks.Sites
import Sharpen.Proofs.Whereabouts

/-!
# What a type block asks of its members

The rules for members read the innermost type block off the surroundings, which types push
themselves onto for the length of their own members. `c.GivesIn containers a` says what a conversion
gives inside some type blocks, and one lemma for each building block takes such a result apart. All
that a rule reads is the innermost block, and what follows it is still in the same blocks, since
conversions leave their surroundings as they found them.

`Member.FitsIn` is what a block asks of the members directly in it.
-/

namespace Sharpen

open Target (Member)

variable {block? : Option Container}

/-! ## Conversions inside type blocks -/

/-- Where members stand whose innermost type block is given. -/
def ModifierSite.inBlock : Option Container → ModifierSite
  | some block => .ofContainer block.kind
  | none => .member

namespace Convert

variable {α β : Type} {containers : List Container} {c : Convert α} {a : α}

/-- Inside these type blocks, in some surroundings, the conversion succeeds with this result. -/
def GivesIn (containers : List Container) (c : Convert α) (a : α) : Prop :=
  c.GivesWhere (fun surroundings => surroundings.containers = containers) a

theorem Gives.exists_givesIn (h : c.Gives a) : ∃ containers, c.GivesIn containers a := by
  obtain ⟨surroundings, hrun⟩ := h
  exact ⟨surroundings.containers, surroundings, rfl, hrun⟩

namespace GivesIn

theorem kept (containers : List Container) :
    Surroundings.Kept fun surroundings => surroundings.containers = containers := by
  rintro _ _ (rfl | rfl) hcontainers
  · exact hcontainers
  · exact hcontainers

theorem gives (h : c.GivesIn containers a) : c.Gives a :=
  GivesWhere.gives h

variable {f : α → Convert β} {b : β}

/-- A conversion that settles leaves those after it in the same blocks. -/
theorem bind (h : (c >>= f).GivesIn containers b) (hsettles : c.Settles) :
    ∃ a, c.GivesIn containers a ∧ (f a).GivesIn containers b :=
  GivesWhere.bind h (kept containers) hsettles

theorem bind_ofExcept {result : Except ConversionError α}
    (h : (ofExcept result >>= f).GivesIn containers b) :
    ∃ a, result = .ok a ∧ (f a).GivesIn containers b :=
  GivesWhere.bind_ofExcept h

/-- The innermost block is what a conversion sees of its surroundings. -/
theorem bind_inModule {f : Bool → Convert β} (h : (inModule >>= f).GivesIn containers b) :
    (f (containers.head?.any fun container => container.kind == .module)).GivesIn containers b := by
  obtain ⟨surroundings, rfl, hrun⟩ := h
  exact ⟨surroundings, rfl, hrun⟩

theorem bind_containerName? {f : Option String → Convert β}
    (h : (Inner.containerName? >>= f).GivesIn containers b) :
    (f (containers.head?.map fun container => convertIdentifier container.identifier)).GivesIn
      containers b := by
  obtain ⟨surroundings, rfl, hrun⟩ := h
  exact ⟨surroundings, rfl, hrun⟩

theorem bind_memberSite {f : ModifierSite → Convert β}
    (h : (memberSite >>= f).GivesIn containers b) :
    (f (.inBlock containers.head?)).GivesIn containers b := by
  obtain ⟨⟨_, containers, _, _⟩, rfl, hrun⟩ := h
  cases containers with
  | nil | cons block outer => exact ⟨_, rfl, hrun⟩

theorem map {f : α → β} (h : GivesIn containers (do return f (← c)) b) :
    ∃ a, c.GivesIn containers a ∧ b = f a :=
  GivesWhere.map h

theorem mapM (hsettles : ∀ item, (f item).Settles) {items : List α} {results : List β}
    (h : GivesIn containers (items.mapM f) results) :
    List.Forall₂ (fun item result => (f item).GivesIn containers result) items results :=
  GivesWhere.mapM (kept containers) hsettles h

theorem of_nested (h : (Convert.nested c).GivesIn containers a) : c.GivesIn containers a := by
  obtain ⟨surroundings, hcontainers, hrun⟩ := h
  exact ⟨{ surroundings with depth := surroundings.depth + 1 }, hcontainers, hrun⟩

theorem of_inContainer {container : Container}
    (h : (Convert.inContainer container c).GivesIn containers a) :
    c.GivesIn (container :: containers) a := by
  obtain ⟨_, hcontainers, hrun⟩ := h
  exact ⟨_, congrArg (container :: ·) hcontainers, hrun⟩

end GivesIn

end Convert

/-- The attributes before a member leave it in the same blocks. -/
theorem Inner.settles_attributes (setting : Setting) (levels : Nat)
    (lists : List (List Source.Attribute)) :
    ((Inner.at setting levels).attributes lists).Settles :=
  Congruence.attributes (C := settling.toCongruence) fun expr _ =>
    settling.levels setting levels (.expr expr)

/-! ## Members and their block -/

namespace Target

/-- The sorts of members of a type that a type block has a say in. -/
inductive MemberSort where
  | field | property | indexer | method | constructor | destructor | operator | event
  deriving DecidableEq

namespace Member

/-- The sort of a member. Types inside a type see to themselves, and so do delegates. -/
def sort? : Member → Option MemberSort
  | .field .. => some .field
  | .property .. => some .property
  | .indexer .. => some .indexer
  | .method .. => some .method
  | .constructor .. => some .constructor
  | .destructor .. => some .destructor
  | .operator .. | .conversion .. => some .operator
  | .event .. | .eventField .. => some .event
  | .commented _ inner => inner.sort?
  | .namespace .. | .type .. | .enum .. | .delegate .. => none

def modifiers : Member → List Modifier
  | .type _ _ modifiers _ _ _ _ _ | .enum _ modifiers _ _ _ | .delegate _ modifiers _ _ _ _ _
  | .field _ modifiers _ | .eventField _ modifiers _ | .event _ modifiers _ _ _
  | .property _ modifiers _ _ _ _ | .indexer _ modifiers _ _ _ | .method _ modifiers _ _ _ _ _ _
  | .constructor _ modifiers _ _ _ _ | .operator _ modifiers _ _ _ _ | .conversion _ modifiers _ _
    _ => modifiers
  | .commented _ inner => inner.modifiers
  | .namespace .. | .destructor .. => []

/-- The name that a constructor or destructor takes from its type. -/
def typeName? : Member → Option String
  | .constructor _ _ identifier _ _ _ | .destructor _ identifier _ => some identifier
  | .commented _ inner => inner.typeName?
  | _ => none

/-- What a type block asks of the members of the type that it becomes. -/
structure FitsIn (block : Container) (member : Member) : Prop where
  named : ∀ name ∈ member.typeName?, name = convertIdentifier block.identifier
  shared : block.kind = .module → ∀ sort ∈ member.sort?, sort ≠ .destructor →
    Modifiers.isShared member.modifiers
  unmarked : block.kind = .interface → ∀ sort ∈ member.sort?,
    sort ∈ [MemberSort.method, .property, .indexer, .event] →
      ∀ modifier ∈ member.modifiers, ¬ modifier.isAccessibility
  marked : block.kind = .class ∨ block.kind = .structure → ∀ sort ∈ member.sort?,
    sort ∈ [MemberSort.method, .property, .indexer, .event, .operator] ∨
      sort = .constructor ∧ .static ∉ member.modifiers →
    ∃ modifier ∈ member.modifiers, modifier.isAccessibility

end Member

/-- A type of the target: the names of the types around it, innermost first, and what is directly
inside. -/
structure TypeOutline where
  keyword : TypeKeyword
  identifier : String
  outer : List String
  members : List Member

mutual

/-- The types in a member, in the order in which they are written. -/
def Member.types (outer : List String) : Member → List TypeOutline
  | .namespace _ members => typesIn outer members
  | .type keyword _ _ identifier _ _ _ members =>
    ⟨keyword, identifier, outer, members⟩ :: typesIn (identifier :: outer) members
  | .commented _ inner => inner.types outer
  | _ => []

def typesIn (outer : List String) : List Member → List TypeOutline
  | [] => []
  | member :: rest => member.types outer ++ typesIn outer rest

end

end Target
/-! ## What fits -/

variable {modifiers : List Source.Modifier}

namespace Target.Member

variable {block : Container} {member : Member}

/-- Modifiers that are converted where the members of a block stand do what the block asks for. -/
theorem FitsIn.of_convert
    (hmodifiers : Modifiers.convert (.ofContainer block.kind) modifiers = .ok member.modifiers)
    (hnamed : ∀ name ∈ member.typeName?, name =
      convertIdentifier block.identifier := by rintro _ ⟨⟩) :
    member.FitsIn block := by
  refine ⟨hnamed, fun hkind sort _ _ => ?_, fun hkind sort _ _ => ?_, fun hkind sort _ _ => ?_⟩
  · rw [hkind] at hmodifiers
    exact Modifiers.isShared_convert hmodifiers
  · rw [hkind] at hmodifiers
    exact Modifiers.not_isAccessibility_convert hmodifiers
  · refine Modifiers.exists_isAccessibility_convert hmodifiers ?_
    obtain hkind | hkind := hkind <;> rw [hkind] <;> rfl

/-- A member that a block asks at most to be shared: a field, a shared constructor, or a destructor.
-/
theorem FitsIn.of_shared {sort : MemberSort} (hsort : member.sort? = some sort)
    (hshared : block.kind = .module → sort ≠ .destructor → Modifiers.isShared member.modifiers)
    (hname : ∀ name ∈ member.typeName?, name = convertIdentifier block.identifier)
    (hother : sort = .field ∨ sort = .destructor ∨ sort = .constructor ∧ .static ∈ member.modifiers) :
    member.FitsIn block := by
  refine ⟨hname, fun hkind => ?_, fun _ => ?_, fun _ => ?_⟩
  all_goals
    rw [hsort]
    rintro _ ⟨⟩
  · exact hshared hkind
  · rintro hmem
    obtain rfl | rfl | ⟨rfl, -⟩ := hother <;> exact absurd hmem (by decide)
  · rintro (hmem | ⟨rfl, hstatic⟩)
    · obtain rfl | rfl | ⟨rfl, -⟩ := hother <;> exact absurd hmem (by decide)
    · obtain hfield | hdestructor | ⟨-, hmem⟩ := hother
      · cases hfield
      · cases hdestructor
      · exact absurd hmem hstatic

/-- What the block has no say in. -/
theorem FitsIn.of_none (hsort : member.sort? = none) (hname : member.typeName? = none) :
    member.FitsIn block := by
  refine ⟨?_, fun _ => ?_, fun _ => ?_, fun _ => ?_⟩
  · rw [hname]
    rintro _ ⟨⟩
  all_goals
    rw [hsort]
    rintro _ ⟨⟩

theorem fitsIn_commented {trivia : Trivia} :
    (Member.commented trivia member).FitsIn block ↔ member.FitsIn block :=
  ⟨fun h => ⟨h.named, h.shared, h.unmarked, h.marked⟩, fun h =>
    ⟨h.named, h.shared, h.unmarked, h.marked⟩⟩

end Target.Member

/-- A member without types inside, which fits into the innermost type block around it. -/
def FitLeaf (block? : Option Container) (member : Member) : Prop :=
  (∀ outer, member.types outer = []) ∧ ∀ block ∈ block?, member.FitsIn block

variable {member : Member}

/-- A member whose modifiers are converted for where it stands. -/
theorem FitLeaf.of_convert
    (hmodifiers : Modifiers.convert (.inBlock block?) modifiers = .ok member.modifiers)
    (htypes : ∀ outer, member.types outer = [])
    (hname : ∀ block ∈ block?, ∀ name ∈ member.typeName?, name = convertIdentifier block.identifier) :
    FitLeaf block? member := by
  refine ⟨htypes, fun block hblock => ?_⟩
  obtain rfl := Option.mem_def.mp hblock
  exact .of_convert hmodifiers (hname block hblock)

theorem FitLeaf.withTrivia (h : FitLeaf block? member) (trivia : Trivia) :
    FitLeaf block? (member.withTrivia trivia) := by
  unfold Target.Member.withTrivia
  split
  · exact h
  · exact ⟨h.1, fun block hblock => Target.Member.fitsIn_commented.mpr (h.2 block hblock)⟩

variable {block : Container} {statements : List Target.Statement}

variable {attributes : List Target.AttributeList}

theorem FitLeaf.destructor :
    FitLeaf (some block) (.destructor attributes (convertIdentifier block.identifier)
      statements) := by
  refine ⟨fun _ => rfl, ?_⟩
  rintro _ ⟨⟩
  exact .of_shared rfl (fun _ hne => absurd rfl hne) (by rintro _ ⟨⟩; rfl) (.inr (.inl rfl))

theorem FitLeaf.sharedConstructor {parameters : List Target.Parameter}
    {chain : Option Target.ConstructorChain} :
    FitLeaf (some block)
      (.constructor attributes [.static] (convertIdentifier block.identifier) parameters chain
        statements) := by
  refine ⟨fun _ => rfl, ?_⟩
  rintro _ ⟨⟩
  exact .of_shared rfl (fun _ _ => rfl) (by rintro _ ⟨⟩; rfl)
    (.inr (.inr ⟨rfl, List.mem_singleton_self _⟩))

/-- The members that a rule gives all fit. -/
abbrev FitLeaves (block? : Option Container) (members : List Member) : Prop :=
  ∀ member ∈ members, FitLeaf block? member

theorem FitLeaf.only (h : FitLeaf block? member) : FitLeaves block? [member] :=
  List.forall_mem_singleton.mpr h

theorem FitLeaves.of_convert
    (h : Modifiers.convert (.inBlock block?) modifiers = .ok member.modifiers)
    (htypes : ∀ outer, member.types outer = [] := by exact fun _ => rfl)
    (hname : member.typeName? = none := by rfl) : FitLeaves block? [member] :=
  FitLeaf.only (.of_convert h htypes (by rw [hname]; nofun))

/-- Enumerations and delegates are left alone by the block around them. -/
theorem FitLeaf.of_none (htypes : ∀ outer, member.types outer = [] := by exact fun _ => rfl)
    (hsort : member.sort? = none := by rfl) (hname : member.typeName? = none := by rfl) :
    FitLeaf block? member :=
  ⟨htypes, fun _ _ => .of_none hsort hname⟩

end Sharpen
