import Sharpen.Proofs.MemberImage

/-!
# Members see their own type block

`Source.blocksIn` and `Target.typesIn` list the type blocks of a file and the types of a result,
each with those around it. A block becomes a type of the same name whose members do what the block
asks for. The main result is `members_see_their_own_block`.
-/

namespace Sharpen

open List

open Target (Member)

namespace Source

mutual

/-- The type blocks in a declaration, in the order in which they are written, each with the blocks
around it. -/
def Declaration.blocks (outer : List Container) : Declaration → List (Container × List Container)
  | ⟨_, kind, _⟩ => kind.blocks outer

/-- The type blocks in a declaration of a kind. -/
def DeclarationKind.blocks (outer : List Container) :
    DeclarationKind → List (Container × List Container)
  | .namespace _ members => blocksIn outer members
  | .type block _ _ identifier _ _ _ members =>
    (⟨identifier, block⟩, outer) :: blocksIn (⟨identifier, block⟩ :: outer) members
  | _ => []

/-- The type blocks in declarations. -/
def blocksIn (outer : List Container) : List Declaration → List (Container × List Container)
  | [] => []
  | declaration :: rest => declaration.blocks outer ++ blocksIn outer rest

end

end Source

/-- The names that type blocks have in the target. -/
def convertedNames (blocks : List Container) : List String :=
  blocks.map fun block => convertIdentifier block.identifier

/-- A type is what a type block becomes. -/
structure Mirrors (block : Container × List Container) (type : Target.TypeOutline) : Prop where
  keyword : type.keyword = block.1.kind.convert.1
  identifier : type.identifier = convertIdentifier block.1.identifier
  outer : type.outer = convertedNames block.2
  members : ∀ member ∈ type.members, member.FitsIn block.1
/-! ## Nested blocks -/

namespace Target

theorem typesIn_append (outer : List String) (members others : List Member) :
    typesIn outer (members ++ others) = typesIn outer members ++ typesIn outer others := by
  induction members with
  | nil => rfl
  | cons member rest ih => rw [cons_append, typesIn, typesIn, ih, append_assoc]

theorem typesIn_eq_nil {outer : List String} {members : List Member}
    (h : ∀ member ∈ members, member.types outer = []) : typesIn outer members = [] := by
  induction members with
  | nil => rfl
  | cons member rest ih =>
    obtain ⟨hmember, hrest⟩ := forall_mem_cons.mp h
    rw [typesIn, hmember, ih hrest, append_nil]

theorem Member.types_addTrivia (outer : List String) (trivia : Trivia) (member : Member) :
    (member.addTrivia trivia).types outer = member.types outer := by
  unfold Member.addTrivia
  split
  · rfl
  · unfold Member.withTrivia
    split
    · rfl
    · rfl

theorem Member.FitsIn.addTrivia {block : Container} {member : Member} (h : member.FitsIn block)
    (trivia : Trivia) : (member.addTrivia trivia).FitsIn block := by
  unfold Member.addTrivia
  split
  · exact Member.fitsIn_commented.mpr (Member.fitsIn_commented.mp h)
  · unfold Member.withTrivia
    split
    · exact h
    · exact Member.fitsIn_commented.mpr h

theorem typesIn_attachMembers (outer : List String) (trivia : Trivia) (members : List Member) :
    typesIn outer (attachMembers trivia members) = typesIn outer members := by
  have hlast : ∀ trailing members,
      typesIn outer (attachLast Member.addTrivia trailing members) = typesIn outer members := by
    intro trailing members
    fun_induction attachLast Member.addTrivia trailing members with
    | case1 => rfl
    | case2 => simp only [typesIn, Member.types_addTrivia]
    | case3 _ _ _ ih => rw [typesIn, typesIn, ih]
  unfold attachMembers attachTrivia
  split
  · rfl
  split
  · rfl
  · simp only [typesIn, Member.types_addTrivia]
  · rw [typesIn, typesIn, Member.types_addTrivia, hlast]

end Target

/-- Declarations inside some type blocks become these members: their blocks become the types inside,
and they fit into the innermost block around them. -/
structure PlacedIn (containers : List Container)
    (blocks : List Container → List (Container × List Container)) (members : List Member) :
    Prop where
  types : ∀ outer, Forall₂ Mirrors (blocks outer) (Target.typesIn (convertedNames outer) members)
  fits : ∀ block ∈ containers.head?, ∀ member ∈ members, member.FitsIn block

namespace PlacedIn

variable {inner : Inner} {containers : List Container} {members : List Member}

variable {blocks : List Container → List (Container × List Container)}

theorem attachMembers (h : PlacedIn containers blocks members) (trivia : Trivia) :
    PlacedIn containers blocks (attachMembers trivia members) := by
  refine ⟨fun outer => ?_, fun block hblock => ?_⟩
  · rw [Target.typesIn_attachMembers]
    exact h.types outer
  · unfold Sharpen.attachMembers
    split
    · exact h.fits block hblock
    · exact forall_mem_attachTrivia (fun trivia member _ hmember => hmember.addTrivia trivia)
        (h.fits block hblock)

/-- Declarations one after the other. -/
theorem of_members {declarations : List Source.Declaration}
    (hsettles : ∀ declaration, (inner.declaration declaration).Settles)
    (hdeclarations : ∀ declaration members,
      (inner.declaration declaration).GivesIn containers members →
      PlacedIn containers declaration.blocks members)
    (h : (inner.members declarations).GivesIn containers members) :
    PlacedIn containers (Source.blocksIn · declarations) members := by
  obtain ⟨lists, hlists, rfl⟩ := h.map
  replace hlists := hlists.mapM fun declaration =>
    (hsettles declaration).bind fun _ surroundings => .refl surroundings
  clear h
  induction hlists with
  | nil => exact ⟨fun _ => .nil, fun _ _ => forall_mem_nil _⟩
  | @cons declaration list rest lists hfirst _ ih =>
    obtain ⟨plain, hplain, rfl⟩ := hfirst.map
    -- comments are put around the members of one declaration before the next one is looked at
    have hfirst := (hdeclarations declaration plain hplain).attachMembers declaration.trivia
    refine ⟨fun outer => ?_, fun block hblock => ?_⟩
    · rw [flatten_cons, Target.typesIn_append, Source.blocksIn]
      exact rel_append (hfirst.types outer) (ih.types outer)
    · exact forall_mem_append.mpr ⟨hfirst.fits block hblock, ih.fits block hblock⟩

/-- Declarations without type blocks inside. -/
theorem of_leaves (hblocks : ∀ outer, blocks outer = []) (h : FitLeaves containers.head? members) :
    PlacedIn containers blocks members := by
  refine ⟨fun outer => ?_, fun block hblock member hmember => (h member hmember).2 block hblock⟩
  rw [hblocks, Target.typesIn_eq_nil fun member hmember => (h member hmember).1 _]
  exact .nil

/-- **One level**: what a declaration becomes fits where it stands, if that holds of the
declarations inside. -/
theorem of_declaration {declaration : Source.Declaration}
    (hattributes : ∀ lists, (inner.attributes lists).Settles)
    (hsettles : ∀ declaration, (inner.declaration declaration).Settles)
    (hdeclarations : ∀ containers declaration members,
      (inner.declaration declaration).GivesIn containers members →
      PlacedIn containers declaration.blocks members)
    (h : (declaration.convertKind inner).GivesIn containers members) :
    PlacedIn containers declaration.blocks members := by
  obtain ⟨_, kind⟩ := declaration
  cases kind with
  | «namespace» _ declarations =>
    obtain ⟨_, -, h⟩ := Convert.GivesIn.bind_ofExcept h
    obtain ⟨inside, hinside, rfl⟩ := h.map
    have hplaced := of_members hsettles (hdeclarations containers) hinside
    refine ⟨fun outer => ?_, fun block _ => forall_mem_singleton.mpr (.of_none rfl rfl)⟩
    change Forall₂ Mirrors (Source.blocksIn outer declarations)
      (Target.typesIn (convertedNames outer) inside ++ [])
    rw [append_nil]
    exact hplaced.types outer
  | type block _ _ identifier =>
    obtain ⟨_, -, h⟩ := Convert.GivesIn.bind h (hattributes _)
    obtain ⟨_, -, h⟩ := h.bind_ofExcept
    obtain ⟨⟨_, _⟩, -, h⟩ := h.bind_ofExcept
    obtain ⟨_, -, h⟩ := h.bind_ofExcept
    obtain ⟨_, -, h⟩ := h.bind_ofExcept
    obtain ⟨inside, hinside, rfl⟩ := h.map
    -- inside, the block is the innermost one
    have hplaced := of_members hsettles (hdeclarations _) hinside.of_inContainer
    refine ⟨fun outer => ?_, fun _ _ => forall_mem_singleton.mpr (.of_none rfl rfl)⟩
    have hinner := hplaced.types (⟨identifier, block⟩ :: outer)
    simp only [Target.typesIn, Target.Member.types, append_nil]
    exact .cons ⟨rfl, rfl, rfl, hplaced.fits _ rfl⟩ hinner
  | enum => exact of_leaves (fun _ => rfl) (LeafImage.enum h).fits
  | delegate => exact of_leaves (fun _ => rfl) (LeafImage.delegate h).fits
  | field =>
    obtain ⟨_, himage, rfl | rfl⟩ := LeafImage.field h
    · exact of_leaves (fun _ => rfl) himage.fits
    · exact of_leaves (fun _ => rfl)
        (forall_mem_markLast (fun _ hmember => hmember.withTrivia _) himage.fits)
  | property => exact of_leaves (fun _ => rfl) (LeafImage.property hattributes h).fits
  | method => exact of_leaves (fun _ => rfl) (LeafImage.method hattributes h).fits
  | «constructor» => exact of_leaves (fun _ => rfl) (LeafImage.constructor hattributes h).fits
  | operator => exact of_leaves (fun _ => rfl) (LeafImage.operator hattributes h).fits
  | event => exact of_leaves (fun _ => rfl) (LeafImage.event hattributes h).fits
  | externalMethod => exact absurd h.gives Convert.not_gives_unimplemented

end PlacedIn

/-- The converters of every level put what they convert into its place. -/
theorem placedIn_at (setting : Setting) (levels : Nat) (containers : List Container)
    (declaration : Source.Declaration) (members : List Member)
    (h : ((Inner.at setting levels).declaration declaration).GivesIn containers members) :
    PlacedIn containers declaration.blocks members := by
  induction levels generalizing containers declaration members with
  | zero => exact absurd h.gives Convert.not_gives_unsupported
  | succ levels ih =>
    exact PlacedIn.of_declaration (Inner.settles_attributes setting levels)
      (fun declaration => settling.levels setting levels (.declaration declaration)) ih h.of_nested

/-- **Members see their own type block**: when a file is converted, its type blocks become the types
of the result, in the same order and inside the same others, whatever is nested in them and stands
before or behind it. What stands directly in such a type has been converted for that block and for
no other: constructors and destructors have its name; in a module everything is shared; in an
interface nothing says who may see it; in a class or structure everything does, apart from fields
and shared constructors. -/
theorem members_see_their_own_block {setting : Setting} {unit : Source.CompilationUnit}
    {surroundings : Surroundings} {output : Target.CompilationUnit}
    (h : (convertUnit setting unit surroundings).1 = .ok output) :
    Forall₂ Mirrors (Source.blocksIn [] unit.members) (Target.typesIn [] output.members) := by
  rw [convertUnit, Inner.run_current] at h
  have hsettles := settling.levels setting (depthLimit - surroundings.depth)
  obtain ⟨_, -, h⟩ := Convert.GivesIn.bind ⟨surroundings, rfl, h⟩
    (settling.mapM fun clause _ => settling.ofExcept _)
  obtain ⟨_, -, h⟩ := h.bind (Inner.settles_attributes setting _ _)
  obtain ⟨_, hmembers, rfl⟩ := h.map
  exact (PlacedIn.of_members (fun declaration => hsettles (.declaration declaration))
    (placedIn_at setting _ _) hmembers).types []

/-- A module with a class in it, and an interface in the class, each with members before or behind
the block inside. -/
def nestedBlocks : Source.CompilationUnit :=
  let method (id : Source.NodeId) (modifiers : List Source.Modifier) (name : String) :
    Source.Declaration :=
    ⟨id, .method .sub [] modifiers name [] [] none (some []), {}⟩
  let interface : Source.Declaration :=
    ⟨1, .type .interface [] [] "I" [] [] [] [method 2 [.public] "B"], {}⟩
  let inside : Source.Declaration := ⟨3, .type .class [] [] "C" [] [] [] [interface,
    ⟨4, .constructor [] [] [] [], { leading := ["' made"] }⟩, method 5 [.overrides] "Finalize"], {}⟩
  ⟨0, [], [],
    [⟨6, .type .module [] [] "M" [] [] [] [method 7 [] "A", inside, method 8 [.friend] "D",
    ⟨9, .constructor [] [] [] [], {}⟩], {}⟩]⟩

theorem nested_blocks_keep_their_members :
    ∃ output, (convertUnit {} nestedBlocks {}).1 = .ok output ∧
      Source.blocksIn [] nestedBlocks.members =
        [(⟨"M", .module⟩, []), (⟨"C", .class⟩, [⟨"M", .module⟩]),
        (⟨"I", .interface⟩, [⟨"C", .class⟩, ⟨"M", .module⟩])] ∧
      (Target.typesIn [] output.members).map (·.members.map (·.modifiers)) =
        [[[.public, .static], [], [.internal, .static], [.static]], [[], [.public], []], [[]]] ∧
      Forall₂ Mirrors (Source.blocksIn [] nestedBlocks.members)
        (Target.typesIn [] output.members) := by
  have hconverted : ∃ output, (convertUnit {} nestedBlocks {}).1 = .ok output ∧
      (Target.typesIn [] output.members).map (·.members.map (·.modifiers)) =
        [[[.public, .static], [], [.internal, .static], [.static]], [[], [.public], []], [[]]] :=
          ⟨_, rfl, rfl⟩
  obtain ⟨output, houtput, hmodifiers⟩ := hconverted
  exact ⟨output, houtput, rfl, hmodifiers, members_see_their_own_block houtput⟩

end Sharpen
