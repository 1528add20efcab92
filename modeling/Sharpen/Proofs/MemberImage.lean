import Sharpen.Proofs.LambdaBodies.Statement
import Sharpen.Proofs.TypeBlocks.Fitting

/-!
# What declarations become

A declaration becomes members. `MemberImage inner kind members` says what they are made of, in terms
of what the parts of the declaration are converted to: the names, types and expressions of the
members come from the expressions of the declaration, each body from one of its bodies
(`BodyImage`), the values of an enumeration with their comments from its values, and the members
inside from the declarations inside.

`Source.Declaration.image_of_gives` says that the rules give nothing else. What holds of whole trees
follows by induction on the levels of converters.
-/

namespace Sharpen

open List
open Source (DeclarationKind TypeParameter Attribute)
open Target (Statement Node Member TypeSyntax Expr Modifier EachLambdaOf)

variable {values : List Source.EnumMember} {modifiers : List Source.Modifier}
  {typeParameters : List TypeParameter} {marks : List Target.AttributeList}
  {accessors : Option (List Source.Accessor)} {known : Option Model.TypeSymbol}
  {result : Option Source.ResultClause} {asClause : Source.AsClause} {id : Source.NodeId}
  {valueType : TypeSyntax}

/-! ## The parts of a member -/

namespace Target

/-- The type that a constraint names. -/
def TypeConstraint.parts : TypeConstraint → List Node
  | .type bound => [.type bound]
  | _ => []

/-- The types that constraints name. -/
def constraintParts (clauses : List ConstraintClause) : List Node :=
  clauses.flatMap fun clause => clause.constraints.flatMap TypeConstraint.parts

/-- The parts of a value of an enumeration. -/
def EnumMember.parts (member : EnumMember) : List Node :=
  attributeParts member.attributes ++ member.value.toList.map .expr

/-- The parts of accessors, their bodies apart. -/
def accessorParts (accessors : List Accessor) : List Node :=
  accessors.flatMap fun accessor => attributeParts accessor.attributes

/-- The values that a call of another constructor passes. -/
def ConstructorChain.parts (chain : ConstructorChain) : List Node :=
  chain.arguments.map (.expr ·.value)

/-- The names, types and expressions directly inside a member. -/
def Member.terms : Member → List Node
  | .namespace name _ => [.name name]
  | .type _ attributes _ _ _ bases constraints _ =>
    attributeParts attributes ++ bases.map .type ++ constraintParts constraints
  | .enum attributes _ _ base values =>
    attributeParts attributes ++ base.toList.map .type ++ values.flatMap EnumMember.parts
  | .delegate attributes _ returnType _ _ parameters constraints
  | .method attributes _ returnType _ _ parameters constraints _ =>
    attributeParts attributes ++ .type returnType :: parameters.flatMap Parameter.parts ++
      constraintParts constraints
  | .field attributes _ declared | .eventField attributes _ declared =>
    attributeParts attributes ++ declared.parts
  | .event attributes _ valueType _ accessors =>
    attributeParts attributes ++ .type valueType :: accessorParts accessors
  | .property attributes _ valueType _ accessors initializer =>
    attributeParts attributes ++ .type valueType :: accessorParts accessors ++
      initializer.toList.map .expr
  | .indexer attributes _ valueType parameters accessors =>
    attributeParts attributes ++ .type valueType :: parameters.flatMap Parameter.parts ++
      accessorParts accessors
  | .constructor attributes _ _ parameters chain _ =>
    attributeParts attributes ++ parameters.flatMap Parameter.parts ++
      chain.toList.flatMap ConstructorChain.parts
  | .destructor attributes _ _ => attributeParts attributes
  | .operator attributes _ returnType _ parameters _
  | .conversion attributes _ returnType parameters _ =>
    attributeParts attributes ++ .type returnType :: parameters.flatMap Parameter.parts
  | .commented _ _ => []

/-- The bodies directly inside a member. -/
def Member.bodies : Member → List (List Statement)
  | .event _ _ _ _ accessors | .property _ _ _ _ accessors _ | .indexer _ _ _ _ accessors =>
    accessors.flatMap (·.body.toList)
  | .method _ _ _ _ _ _ _ body => body.toList
  | .constructor _ _ _ _ _ body | .destructor _ _ body | .operator _ _ _ _ _ body
  | .conversion _ _ _ _ body => [body]
  | _ => []

/-- The members directly inside a member. -/
def Member.members : Member → List Member
  | .namespace _ members | .type _ _ _ _ _ _ _ members => members
  | .commented _ inner => [inner]
  | _ => []

/-- The comments that a member carries itself, or the values of an enumeration. -/
def Member.ownComments : Member → List String
  | .enum _ _ _ _ values => values.flatMap (·.trivia.comments)
  | .commented trivia _ => trivia.comments
  | _ => []

theorem attributeParts_append (lists others : List AttributeList) :
    attributeParts (lists ++ others) = attributeParts lists ++ attributeParts others :=
  flatMap_append

end Target

/-! ## The bodies of a declaration -/

/-- How a body is left before its end. -/
inductive Leaving where
  | withValue | plain | iterator

/-- How a body of the target is left. -/
def Body.leaving (body : Body) : Leaving :=
  if body.isIterator then .iterator else if body.kind.returnsValue then .withValue else .plain

namespace Source

/-- A body of a declaration: its statements, the comments around all of them, whether a variable for
the value of an accessor comes before them, and how it is left. -/
structure MemberBody where
  statements : List Statement
  trivia : Trivia := {}
  namesValue : Bool := false
  leaving : Leaving := .plain

/-- An accessor that takes a value under another name than `value` starts with a variable for it. -/
def Accessor.namesValue (accessor : Accessor) : Bool :=
  match accessor.parameters with
  | [] => false
  | parameter :: _ => accessor.kind != .get && !Text.sameIgnoringCase parameter.identifier "value"

/-- A function gives a value. -/
def MethodKind.leaving (isIterator : Bool) (kind : MethodKind) : Leaving :=
  if isIterator then .iterator
  else match kind with
    | .sub => .plain
    | .function => .withValue

/-- An accessor that reads a property gives a value. -/
def Accessor.leaving (isIterator : Bool) (accessor : Accessor) : Leaving :=
  if accessor.kind = .get then MethodKind.leaving isIterator .function else .plain

/-- The body of an accessor of a plain property. The comments of the accessor are around its
statements. -/
def Accessor.body (accessor : Accessor) : MemberBody :=
  ⟨accessor.statements, accessor.trivia, accessor.namesValue, accessor.leaving false⟩

/-- The statements of a constructor without the call of another one that they may start with. -/
def behindChain : List Statement → List Statement
  | [] => []
  | first :: rest => if first.constructorChain?.isSome then rest else first :: rest

/-- The bodies of a declaration. A destructor has one even if none is written. -/
def DeclarationKind.bodies : DeclarationKind → List MemberBody
  | .property _ modifiers _ _ _ _ accessors =>
    (accessors.getD []).map fun accessor =>
      { accessor.body with leaving := accessor.leaving (modifiers.contains .iterator) }
  | .event _ _ _ _ _ accessors =>
    (accessors.getD []).map fun accessor => { accessor.body with leaving := .plain }
  | .method kind _ modifiers identifier _ _ _ body =>
    if Text.sameIgnoringCase identifier "Finalize" && modifiers.contains .overrides then
      [{ statements := body.getD [] }]
    else body.toList.map fun statements =>
      { statements, leaving := kind.leaving (modifiers.contains .iterator) }
  | .constructor _ _ _ body => [{ statements := behindChain body }]
  | .operator _ _ _ _ _ body => [{ statements := body, leaving := .withValue }]
  | _ => []

/-- The comments of the values of an enumeration. -/
def DeclarationKind.valueComments : DeclarationKind → List String
  | .enum _ _ _ _ values => values.flatMap (·.trivia.comments)
  | _ => []

end Source

/-! ## The image -/

/-- What a body starts with: a variable for the value of an accessor, or nothing. -/
inductive OpeningImage : (namesValue : Bool) → List Statement → Prop where
  | none : OpeningImage false []
  | value {type : TypeSyntax} {identifier : String} (htype : ∀ P, type.EachLambda P) :
      OpeningImage true [.localVariable type identifier (some (.identifier "value"))]

/-- There is no lambda in what a body starts with. -/
theorem OpeningImage.eachLambda {P : List Statement → Prop} {namesValue : Bool}
    {opening : List Statement} (h : OpeningImage namesValue opening) : EachLambdaIn P opening := by
  cases h with
  | none => exact .nil
  | value htype => exact .singleton (.cons (htype P) (.one (.leaf rfl rfl))) .nil

/-- The body of a declaration itself, outside of all loops and `Select` blocks. -/
structure Body.IsOutermost (leaving : Leaving) (body : Body) : Prop where
  breakables : body.breakables = []
  leaving : body.leaving = leaving

/-- What a body of a declaration becomes. -/
def BodyImage (inner : Inner) (source : Source.MemberBody) (converted : List Statement) : Prop :=
  ∃ opening, ∃ body : Body, ∃ statements, OpeningImage source.namesValue opening ∧
    body.IsOutermost source.leaving ∧ inner.Converts body source.statements statements ∧
    converted = attachStatements source.trivia (opening ++ statements)

/-- What a declaration becomes. -/
structure MemberImage (inner : Inner) (kind : DeclarationKind) (members : List Member) : Prop where
  terms : ∀ P, (inner.BodiesIn P kind.exprs) → ∀ member ∈ members, EachLambdaOf P member.terms
  bodies : Forall₂ (BodyImage inner) kind.bodies (members.flatMap Member.bodies)
  comments : members.flatMap Member.ownComments = kind.valueComments.map Comment.convert
  inside : (inner.members kind.declarations).Gives (members.flatMap Member.members)

theorem Trivia.comments_convert (trivia : Trivia) :
    trivia.convert.comments = trivia.comments.map Comment.convert := by
  obtain ⟨_, trailing⟩ := trivia
  cases trailing <;> simp [convert, comments]

/-! ## Names, types and expressions -/

section Types

variable {P : List Statement → Prop}

/-- There is no lambda in a type. -/
theorem Convert.Gives.eachLambda_type {type : Source.TypeSyntax} {converted : TypeSyntax}
    (h : (Convert.ofExcept type.convert).Gives converted) : converted.EachLambda P :=
  type.eachLambda h.ofExcept

theorem eachLambdaOf_convertConstraints {constraints : List Source.TypeConstraint}
    {converted : List Target.TypeConstraint} (h : convertConstraints constraints = .ok converted) :
    EachLambdaOf P (converted.flatMap Target.TypeConstraint.parts) := by
  unfold convertConstraints at h
  simp only [bind, Except.bind, pure, Except.pure] at h
  split at h
  · cases h
  · next htypes =>
    obtain rfl := Except.ok.inj h
    rw [flatMap_append, flatMap_append]
    refine .append (.append ?_ ?_) ?_
    · -- `class` and `struct` name no type
      refine .flatMap fun bound hbound => ?_
      obtain ⟨_, -, hsource⟩ := mem_filterMap.mp hbound
      split at hsource <;> cases hsource <;> exact .nil
    · refine .flatMap (forall_mem_map.mpr fun type htype => .one ?_)
      exact eachLambda_convertTypes _ htypes type htype
    · split <;> exact .nil

/-- There is no lambda in constraints. -/
theorem eachLambdaOf_constraints {parameters : List TypeParameter}
    {names : List Target.TypeParameter} {clauses : List Target.ConstraintClause}
    (h : (Convert.ofExcept (convertTypeParameters parameters)).Gives (names, clauses)) :
    EachLambdaOf P (Target.constraintParts clauses) := by
  replace h := h.ofExcept
  unfold convertTypeParameters at h
  simp only [bind, Except.bind, pure, Except.pure] at h
  split at h
  · cases h
  · next hwritten =>
    obtain ⟨-, rfl⟩ := Prod.mk.inj (Except.ok.inj h)
    refine .flatMap fun clause hclause => ?_
    obtain ⟨_, hmem, rfl⟩ := mem_filterMap.mp hclause
    obtain ⟨_, -, hparameter⟩ := (forall₂_of_mapM_ok hwritten).exists_left hmem
    unfold TypeParameter.clause? at hparameter
    simp only [bind, Except.bind, pure, Except.pure] at hparameter
    split at hparameter
    · cases hparameter
    split at hparameter
    · cases hparameter
    · next hbounds =>
      obtain rfl := Option.some.inj (Except.ok.inj hparameter)
      exact eachLambdaOf_convertConstraints hbounds

end Types

variable {kind : Source.MethodKind} {type : TypeSyntax}

namespace Inner

variable {inner : Inner} {P : List Statement → Prop}

theorem Bodies.returnAttributes {lists : List (List Attribute)}
    (h : inner.BodiesIn P (Source.attributeExprs lists)) :
    (inner.returnAttributes lists).Ensures fun converted =>
      EachLambdaOf P (Target.attributeParts converted) := by
  refine (Bodies.attributes h).map fun plain hplain => ?_
  rw [Target.attributeParts, flatMap_map]
  exact hplain

theorem Bodies.parameters {parameters : List Source.Parameter}
    (h : inner.BodiesIn P (parameters.flatMap Source.Parameter.exprs)) :
    (inner.parameters parameters).Ensures fun converted =>
      EachLambdaOf P (converted.flatMap Target.Parameter.parts) := by
  intro converted hgives
  refine .flatMap (Convert.Ensures.mapM (fun parameter hparameter => ?_) converted hgives)
  exact Bodies.parameter (forall_mem_flatMap.mp h parameter hparameter)

/-- What the clause of a result, or its absence, is written as. -/
theorem Bodies.resultClause (h : inner.BodiesIn P (Source.resultExprs result)) :
    (inner.resultClause kind result).Ensures fun (type, marks) =>
      type.EachLambda P ∧ EachLambdaOf P (Target.attributeParts marks) := by
  cases result with
  | some clause =>
    refine (clause.type.ensures_eachLambda P).bind fun type htype => ?_
    exact (Bodies.returnAttributes h).map fun marks hmarks => ⟨htype, hmarks⟩
  | none =>
    cases kind with
    | sub | function => exact .pure ⟨.leaf rfl rfl, .nil⟩

/-- A value of an enumeration, with its attributes. -/
theorem Bodies.enumMember {member : Source.EnumMember} (h : inner.BodiesIn P member.exprs) :
    (inner.enumMember member).Ensures fun converted => EachLambdaOf P converted.parts := by
  obtain ⟨hattributes, hvalue⟩ := forall_mem_append.mp h
  refine (Bodies.attributes hattributes).bind fun marks hmarks => ?_
  exact (Bodies.value? hvalue).map fun value hvalue => hmarks.append hvalue

variable {body rest : List Source.Statement} {converted : Option Target.ConstructorChain}

/-- A call of another constructor. -/
theorem Bodies.chain (h : inner.BodiesIn P (Source.chainExprs body)) :
    (inner.chain body).Ensures fun (chain, _) =>
    EachLambdaOf P (chain.toList.flatMap Target.ConstructorChain.parts) := by
  cases body with
  | nil => exact .pure .nil
  | cons first others =>
    unfold Inner.chain
    dsimp only
    split
    · exact .pure .nil
    · next arguments hchain =>
      rw [Source.chainExprs, List.head?_cons, Option.bind_some, hchain] at h
      refine (Bodies.arguments h).map fun passed hpassed => ?_
      rw [Option.toList_some, flatMap_singleton]
      exact hpassed

/-- A constructor is left with the statements behind the call of another one. -/
theorem chain_rest (h : (inner.chain body).Gives (converted, rest)) :
    rest = Source.behindChain body := by
  unfold Inner.chain at h
  split at h
  · cases h.pure
    rfl
  split at h
  · next hchain =>
    cases h.pure
    simp [Source.behindChain, hchain]
  · next hchain =>
    obtain ⟨_, _, h⟩ := h.map
    cases h
    simp [Source.behindChain, hchain]

variable {initializer value : Option Expr}

/-- The value that a property gets, written behind it or in its clause. -/
theorem Bodies.propertyType (h : inner.BodiesIn P asClause.exprs)
    (hinitializer : EachLambdaOf P (initializer.toList.map .expr)) :
    (inner.propertyType id asClause initializer).Ensures fun (_, _, value) =>
      EachLambdaOf P (value.toList.map .expr) := by
  unfold Inner.propertyType
  split
  · exact .map .trivial fun _ _ => hinitializer
  · refine (h _ (mem_singleton_self _) true).bind fun creation hcreation => ?_
    exact .map .trivial fun _ _ => .one hcreation
  · exact .unsupported
  · split <;> exact .pure hinitializer

/-- The type of a property is written without lambdas. -/
theorem eachLambda_propertyType (P : List Statement → Prop) :
    (inner.propertyType id asClause initializer).Ensures (·.1.EachLambda P) := by
  unfold Inner.propertyType
  split
  · exact (Source.TypeSyntax.ensures_eachLambda P _).map fun _ htype => htype
  · exact .bind .trivial fun _ _ => (Source.TypeSyntax.ensures_eachLambda P _).map fun _ htype =>
      htype
  · exact .unsupported
  · split
    · exact .pure (Model.TypeSymbol.eachLambda_written _)
    · exact .pure (.leaf rfl rfl)

end Inner

/-! ## Accessors -/

section Accessors

variable {inner : Inner} {leaving : Leaving}

/-- A body without comments of its own and without an opening. -/
theorem BodyImage.of_gives {body : Body} {source : List Source.Statement}
    {converted : List Statement} (hbody : body.IsOutermost leaving)
    (h : (inner.statements body source).Gives converted) :
    BodyImage inner { statements := source, leaving } converted :=
  ⟨[], body, converted, .none, hbody, h.converts, rfl⟩

variable {accessor : Source.Accessor}

/-- The variable for the value of an accessor is there if it is needed. -/
theorem OpeningImage.of_gives {kind : Target.AccessorKind} {opening : List Statement}
    (htype : ∀ P, valueType.EachLambda P) (hkind : accessor.kind.convert = .ok kind)
    (h : (Inner.valueAlias kind valueType accessor.parameters).Gives opening) :
    OpeningImage accessor.namesValue opening := by
  have hget : (kind = .get) = (accessor.kind = .get) := by
    generalize accessor.kind = source at hkind
    cases source <;> cases hkind <;> simp
  unfold Source.Accessor.namesValue
  generalize accessor.parameters = parameters at h
  cases parameters with
  | nil =>
    obtain rfl := h.pure
    exact .none
  | cons parameter rest =>
    unfold Inner.valueAlias at h
    dsimp only at h ⊢
    split at h
    · next hplain =>
      obtain rfl := h.pure
      have hfalse : (accessor.kind != .get && !Text.sameIgnoringCase parameter.identifier "value") =
        false := by
        simpa [hget, or_iff_not_imp_left] using hplain
      exact hfalse ▸ .none
    · next hnamed =>
      have htrue : (accessor.kind != .get && !Text.sameIgnoringCase parameter.identifier "value") =
        true := by
        simpa [hget] using hnamed
      rw [htrue]
      split at h
      · obtain ⟨_, hwritten, h⟩ := h.bind
        obtain rfl := h.pure
        exact .value fun P => hwritten.eachLambda_type
      · obtain ⟨_, hwritten, h⟩ := h.bind
        obtain rfl := h.pure
        obtain rfl := hwritten.pure
        exact .value htype

/-- What an accessor becomes. -/
structure AccessorImage (inner : Inner) (leavingOf : Source.Accessor → Leaving)
    (accessor : Source.Accessor) (converted : Target.Accessor) : Prop where
  attributes : (inner.attributes accessor.attributes).Gives converted.attributes
  body : ∃ statements, converted.body = some statements ∧
    BodyImage inner { accessor.body with leaving := leavingOf accessor } statements

variable {leavingOf : Source.Accessor → Leaving}

/-- The rule for accessors gives nothing else. -/
theorem AccessorImage.of_gives {body : Body} {converted : Target.Accessor}
    (hbody : body.IsOutermost (leavingOf accessor)) (htype : ∀ P, valueType.EachLambda P)
    (h : (inner.accessor body valueType accessor).Gives converted) :
    AccessorImage inner leavingOf accessor converted := by
  obtain ⟨_, hkind, h⟩ := h.bind
  obtain ⟨_, hmarks, h⟩ := h.bind
  obtain ⟨_, -, h⟩ := h.bind
  obtain ⟨opening, hopening, h⟩ := h.bind
  obtain ⟨statements, hstatements, rfl⟩ := h.map
  refine ⟨hmarks, _, rfl, opening, body, statements, ?_, hbody, hstatements.converts, rfl⟩
  exact .of_gives htype hkind.ofExcept hopening

theorem Inner.accessorBody_isOutermost {isIterator : Bool} {type : Option Model.TypeSymbol} :
    (Inner.accessorBody isIterator type accessor).IsOutermost (accessor.leaving isIterator) := by
  unfold Inner.accessorBody Source.Accessor.leaving
  split <;> exact ⟨rfl, rfl⟩

theorem accessorImages_of_gives {bodyOf : Source.Accessor → Body} {accessors : List Source.Accessor}
    {converted : List Target.Accessor}
    (hbodies : ∀ accessor, (bodyOf accessor).IsOutermost (leavingOf accessor))
    (htype : ∀ P, valueType.EachLambda P)
    (h : Convert.Gives (accessors.mapM fun accessor =>
      inner.accessor (bodyOf accessor) valueType accessor) converted) :
    Forall₂ (AccessorImage inner leavingOf) accessors converted :=
  h.mapM.imp fun _ _ hgiven => .of_gives (hbodies _) htype hgiven

variable {accessors : List Source.Accessor} {converted : List Target.Accessor}
  (h : Forall₂ (AccessorImage inner leavingOf) accessors converted)
include h

/-- The lambdas of accessors come from their attributes. -/
theorem AccessorImage.eachLambdaOf {P : List Statement → Prop}
    (hexprs : inner.BodiesIn P (accessors.flatMap fun accessor =>
      Source.attributeExprs accessor.attributes)) :
    EachLambdaOf P (Target.accessorParts converted) := by
  refine .flatMap fun accessor haccessor => ?_
  obtain ⟨source, hsource, himage⟩ := h.exists_left haccessor
  exact Inner.Bodies.attributes (forall_mem_flatMap.mp hexprs source hsource) _ himage.attributes

/-- The bodies of accessors, one for one. -/
theorem AccessorImage.bodies : Forall₂ (BodyImage inner)
    (accessors.map fun accessor => { accessor.body with leaving := leavingOf accessor })
    (converted.flatMap (·.body.toList)) := by
  induction h with
  | nil => exact .nil
  | cons hfirst _ ih =>
    obtain ⟨_, hbody, himage⟩ := hfirst.body
    rw [map_cons, flatMap_cons, hbody]
    exact .cons himage ih

end Accessors

/-! ## The rules -/

variable {inner : Inner}

theorem Inner.members_nil : (inner.members []).Gives [] :=
  ⟨{}, rfl⟩

/-- The values of an enumeration keep their comments. -/
theorem Inner.comments_enumMembers {written : List Target.EnumMember}
    (h : Forall₂ (fun source value => (inner.enumMember source).Gives value) values written) :
    written.flatMap (·.trivia.comments) =
      (values.flatMap (·.trivia.comments)).map Comment.convert := by
  induction h with
  | nil => rfl
  | cons hfirst _ ih =>
    obtain ⟨_, -, hfirst⟩ := hfirst.bind
    obtain ⟨_, -, rfl⟩ := hfirst.map
    rw [flatMap_cons, flatMap_cons, ih, map_append, Trivia.comments_convert]

/-- What a declaration without others inside becomes: its members fit into the innermost type block.
-/
structure LeafImage (inner : Inner) (containers : List Container) (kind : DeclarationKind)
    (members : List Member) : Prop extends MemberImage inner kind members where
  fits : FitLeaves containers.head? members

namespace LeafImage

variable {inner : Inner} {members : List Member} {attributes : List (List Attribute)}
  {identifier : String} {parameters : List Source.Parameter} {initializer : Option Source.Expr}
  {converted : List Modifier} {underlyingType : Option Source.ResultClause}
  {body : List Source.Statement} {containers : List Container}

/-- A declaration without others inside that becomes one member. -/
theorem single {kind : DeclarationKind} {member : Member}
    (hfits : FitLeaves containers.head? [member])
    (hterms : ∀ P, inner.BodiesIn P kind.exprs → EachLambdaOf P member.terms)
    (hbodies : Forall₂ (BodyImage inner) kind.bodies member.bodies)
    (hcomments : member.ownComments = kind.valueComments.map Comment.convert := by rfl)
    (hmembers : member.members = [] := by rfl)
    (hdeclarations : kind.declarations = [] := by rfl) :
    LeafImage inner containers kind [member] := by
  refine ⟨⟨fun P hexprs => forall_mem_singleton.mpr (hterms P hexprs), ?_, ?_, ?_⟩, hfits⟩
  · rwa [flatMap_singleton]
  · rwa [flatMap_singleton]
  · rw [flatMap_singleton, hmembers, hdeclarations]
    exact Inner.members_nil

/-- The attributes, the result and the parameters of a delegate, a method or an operator. -/
theorem eachLambdaOf_signature {P : List Statement → Prop} {returnType : TypeSyntax}
    {more : List Target.AttributeList} {listed : List Target.Parameter}
    (hmarks : (inner.attributes attributes).Gives marks)
    (hlisted : (inner.parameters parameters).Gives listed)
    (hresult : inner.BodiesIn P (Source.resultExprs result) →
      returnType.EachLambda P ∧ EachLambdaOf P (Target.attributeParts more))
    (h : inner.BodiesIn P (Source.attributeExprs attributes ++
      parameters.flatMap Source.Parameter.exprs ++ Source.resultExprs result)) :
    EachLambdaOf P (Target.attributeParts (marks ++ more) ++
      .type returnType :: listed.flatMap Target.Parameter.parts) := by
  obtain ⟨hexprs, hclause⟩ := forall_mem_append.mp h
  obtain ⟨hattributes, hparameters⟩ := forall_mem_append.mp hexprs
  obtain ⟨hreturn, hmore⟩ := hresult hclause
  rw [Target.attributeParts_append]
  exact .append (.append (Inner.Bodies.attributes hattributes _ hmarks) hmore)
    (.cons hreturn (Inner.Bodies.parameters hparameters _ hlisted))

/-- A field may get one more comment. -/
theorem field {declarators : List Source.Declarator}
    (h : (inner.field attributes modifiers declarators).GivesIn containers members) :
    ∃ plain, LeafImage inner containers (.field attributes modifiers declarators) plain ∧
      (members = plain ∨ members = markLast withEventsComment plain) := by
  obtain ⟨converted, -, h⟩ := Convert.GivesIn.bind_ofExcept h
  obtain ⟨marks, hmarks, h⟩ := h.bind_inModule.gives.bind
  obtain ⟨declared, hdeclared, h⟩ := h.bind
  dsimp only at h
  generalize hmodifiers : (if (containers.head?.any fun container => container.kind == .module) &&
    !Modifiers.isShared converted then converted ++ [Modifier.static] else converted) = shared at h
  refine ⟨declared.map (.field marks shared), ⟨⟨fun P hexprs => ?_, ?_, ?_, ?_⟩, ?_⟩, ?_⟩
  · obtain ⟨hattributes, hvalues⟩ := forall_mem_append.mp hexprs
    refine forall_mem_map.mpr fun group hgroup => ?_
    exact EachLambdaOf.append (Inner.Bodies.attributes hattributes _ hmarks)
      (Inner.Bodies.variableLists hvalues _ hdeclared group hgroup)
  · rw [flatMap_eq_nil_iff.mpr (forall_mem_map.mpr fun _ _ => rfl)]
    exact .nil
  · exact flatMap_eq_nil_iff.mpr (forall_mem_map.mpr fun _ _ => rfl)
  · rw [flatMap_eq_nil_iff.mpr (forall_mem_map.mpr fun _ _ => rfl)]
    exact Inner.members_nil
  · refine forall_mem_map.mpr fun group _ => ⟨fun _ => rfl, fun block hblock => ?_⟩
    refine .of_shared rfl (fun hkind _ => ?_) nofun (.inl rfl)
    change Modifiers.isShared shared
    rw [← hmodifiers, Option.mem_def.mp hblock]
    cases hshared : Modifiers.isShared converted with
    | true => simp [hshared]
    | false => simp [hkind, Modifiers.isShared]
  · split at h
    · exact h.unsupported.elim
    split at h
    · exact .inr h.pure.symm
    · exact .inl h.pure.symm

/-- A property or an indexer, whatever its accessors are. -/
theorem propertyRest {given value : Option Expr} {own : List Target.Accessor}
    {others : List Source.Modifier} (isIndexer : Bool)
    (hmarks : (inner.attributes attributes).Gives marks)
    (hconverted : Modifiers.convert (.inBlock containers.head?) others = .ok converted)
    (hgiven : (inner.value? initializer).Gives given)
    (htyped : (inner.propertyType id asClause given).Gives (type, known, value))
    (hterms : ∀ P, inner.BodiesIn P ((accessors.getD []).flatMap fun accessor =>
      Source.attributeExprs accessor.attributes) → EachLambdaOf P (Target.accessorParts own))
    (hbodies : Forall₂ (BodyImage inner) ((accessors.getD []).map fun accessor =>
      { accessor.body with leaving := accessor.leaving (modifiers.contains .iterator) })
      (own.flatMap (·.body.toList)))
    (h : Convert.Gives (if isIndexer then do
        return [Member.indexer marks converted type (← inner.parameters parameters) own]
      else return [Member.property marks converted type (convertIdentifier identifier) own value])
        members) :
    LeafImage inner containers
      (.property attributes modifiers identifier parameters asClause initializer accessors)
        members := by
  -- what the parts of both forms have, for any property of lambdas
  have hparts : ∀ P, inner.BodiesIn P (DeclarationKind.property attributes modifiers identifier
        parameters asClause initializer accessors).exprs →
      EachLambdaOf P (Target.attributeParts marks) ∧ EachLambdaOf P (Target.accessorParts own) ∧
        EachLambdaOf P (value.toList.map .expr) ∧
        inner.BodiesIn P (parameters.flatMap Source.Parameter.exprs) := by
    intro P hexprs
    obtain ⟨hexprs, haccessors⟩ := forall_mem_append.mp hexprs
    obtain ⟨hexprs, hinitializer⟩ := forall_mem_append.mp hexprs
    obtain ⟨hexprs, hclause⟩ := forall_mem_append.mp hexprs
    obtain ⟨hattributes, hparameters⟩ := forall_mem_append.mp hexprs
    have hvalue :=
      Inner.Bodies.propertyType hclause (Inner.Bodies.value? hinitializer _ hgiven) _ htyped
    exact ⟨Inner.Bodies.attributes hattributes _ hmarks, hterms P haccessors, hvalue, hparameters⟩
  split at h
  · obtain ⟨_, hlisted, rfl⟩ := h.map
    refine single (.of_convert hconverted) (fun P hexprs => ?_) hbodies
    obtain ⟨hattributes, haccessors, -, hparameters⟩ := hparts P hexprs
    have hlisted := Inner.Bodies.parameters hparameters _ hlisted
    exact .append (.append hattributes (.cons (Inner.eachLambda_propertyType P _ htyped) hlisted))
      haccessors
  · obtain rfl := h.pure
    refine single (.of_convert hconverted) (fun P hexprs => ?_) hbodies
    obtain ⟨hattributes, haccessors, hvalue, -⟩ := hparts P hexprs
    exact .append
      (.append hattributes (.cons (Inner.eachLambda_propertyType P _ htyped) haccessors)) hvalue

/-- An enumeration, with and without an underlying type. -/
theorem enumRest {more : List Target.AttributeList} {base : Option TypeSyntax}
    (hmarks : (inner.attributes attributes).Gives marks)
    (hbase : ∀ P, EachLambdaOf P (base.toList.map .type))
    (hmore : ∀ P, (inner.BodiesIn P (Source.resultExprs underlyingType)) →
      EachLambdaOf P (Target.attributeParts more))
    (h : Convert.Gives (do
      let values ← values.mapM inner.enumMember
      return [Member.enum (marks ++ more) converted (convertIdentifier identifier) base values])
        members) :
    LeafImage inner containers (.enum attributes modifiers identifier underlyingType values)
      members := by
  obtain ⟨_, hwritten, rfl⟩ := h.map
  refine single (FitLeaf.only .of_none) (fun P hexprs => ?_) .nil
    (Inner.comments_enumMembers hwritten.mapM)
  obtain ⟨hexprs, hvalues⟩ := forall_mem_append.mp hexprs
  obtain ⟨hattributes, hclause⟩ := forall_mem_append.mp hexprs
  refine EachLambdaOf.append (.append ?_ (hbase P)) (.flatMap ?_)
  · rw [Target.attributeParts_append]
    exact .append (Inner.Bodies.attributes hattributes _ hmarks) (hmore P hclause)
  · refine Convert.Ensures.mapM (fun value hvalue => ?_) _ hwritten
    exact Inner.Bodies.enumMember (forall_mem_flatMap.mp hvalues value hvalue)

/-- An enumeration. -/
theorem enum
    (h : (inner.enum attributes modifiers identifier underlyingType values).GivesIn
      containers members) :
    LeafImage inner containers (.enum attributes modifiers identifier underlyingType values)
      members := by
  obtain ⟨_, hmarks, h⟩ := h.gives.bind
  obtain ⟨_, -, h⟩ := h.bind
  cases underlyingType with
  | some clause =>
    obtain ⟨_, hmore, h⟩ := h.bind
    obtain ⟨_, htype, h⟩ := h.bind
    exact enumRest hmarks (fun P => .one htype.eachLambda_type)
      (fun P hexprs => Inner.Bodies.returnAttributes hexprs _ hmore) h
  | none => exact enumRest hmarks (fun P => .nil) (fun P _ => .nil) h

/-- The part of a delegate after its result. -/
theorem delegateRest (returnType : TypeSyntax) (more : List Target.AttributeList)
    (hmarks : (inner.attributes attributes).Gives marks)
    (hresult : ∀ P, inner.BodiesIn P (Source.resultExprs result) →
      returnType.EachLambda P ∧ EachLambdaOf P (Target.attributeParts more))
    (h : Convert.Gives (do
      let (names, constraints) ← (convertTypeParameters typeParameters : Convert _)
      let parameters ← inner.parameters parameters
      return [Member.delegate (marks ++ more) converted returnType
        (convertIdentifier identifier) names parameters constraints]) members) :
    LeafImage inner containers
      (.delegate kind attributes modifiers identifier typeParameters parameters result)
        members := by
  obtain ⟨⟨_, _⟩, hconstraints, h⟩ := h.bind
  obtain ⟨_, hlisted, rfl⟩ := h.map
  exact single (FitLeaf.only .of_none) (fun P hexprs => .append
    (eachLambdaOf_signature hmarks hlisted (hresult P) hexprs)
    (eachLambdaOf_constraints hconstraints)) .nil

/-- A delegate, whatever its result is. -/
theorem delegate
    (h : (inner.delegate kind attributes modifiers identifier typeParameters parameters
      result).GivesIn containers members) :
    LeafImage inner containers
      (.delegate kind attributes modifiers identifier typeParameters parameters result)
        members := by
  obtain ⟨_, hmarks, h⟩ := h.gives.bind
  obtain ⟨_, -, h⟩ := h.bind
  -- whatever the result is: written, nothing for a `Sub`, an object for a `Function`
  cases result with
  | some clause =>
    obtain ⟨more, hmore, h⟩ := h.bind
    obtain ⟨type, htype, h⟩ := h.bind
    exact delegateRest type more hmarks (fun P hexprs =>
      ⟨htype.eachLambda_type, Inner.Bodies.returnAttributes hexprs _ hmore⟩) h
  | none =>
    cases kind with
    | sub | function => exact delegateRest _ [] hmarks (fun P _ => ⟨.leaf rfl rfl, .nil⟩) h

/-- The part of a constructor after its modifiers. -/
theorem constructorRest {name : String} (hmarks : (inner.attributes attributes).Gives marks)
    (hfits : ∀ listed chain statements,
      FitLeaf containers.head? (.constructor marks converted name listed chain statements))
    (h : Convert.Gives (do
      let parameters ← inner.parameters parameters
      let (chain, rest) ← inner.chain body
      let statements ← inner.statements Inner.procedureBody rest
      return [Member.constructor marks converted name parameters chain statements]) members) :
    LeafImage inner containers (.constructor attributes modifiers parameters body) members := by
  obtain ⟨_, hlisted, h⟩ := h.bind
  obtain ⟨⟨_, _⟩, hchain, h⟩ := h.bind
  obtain ⟨_, hstatements, rfl⟩ := h.map
  obtain rfl := Inner.chain_rest hchain
  refine single (hfits ..).only (fun P hexprs => ?_) (.cons (.of_gives ⟨rfl, rfl⟩ hstatements) .nil)
  obtain ⟨hexprs, harguments⟩ := forall_mem_append.mp hexprs
  obtain ⟨hattributes, hparameters⟩ := forall_mem_append.mp hexprs
  exact .append (.append (Inner.Bodies.attributes hattributes _ hmarks)
    (Inner.Bodies.parameters hparameters _ hlisted)) (Inner.Bodies.chain harguments _ hchain)

section Attributes

variable (hattributes : ∀ lists, (inner.attributes lists).Settles)
include hattributes

/-- A property, with its own accessors or those it is given. -/
theorem property
    (h : (inner.property id attributes modifiers identifier parameters asClause initializer
      accessors).GivesIn containers members) :
    LeafImage inner containers
      (.property attributes modifiers identifier parameters asClause initializer accessors)
        members := by
  unfold Inner.property at h
  dsimp only at h
  split at h
  · exact absurd h.gives Convert.not_gives_unsupported
  obtain ⟨_, hmarks, h⟩ := Convert.GivesIn.bind h (hattributes _)
  obtain ⟨_, hconverted, h⟩ := h.bind_memberSite.bind_ofExcept
  obtain ⟨_, hgiven, h⟩ := h.gives.bind
  obtain ⟨⟨_, _, _⟩, htyped, h⟩ := h.bind
  cases accessors with
  | none =>
    obtain ⟨_, hown, h⟩ := h.bind
    obtain rfl := hown.pure
    refine propertyRest _ hmarks.gives hconverted hgiven htyped ?_ ?_ h
    · intro P _
      unfold Inner.autoAccessors
      split <;> exact .nil
    · unfold Inner.autoAccessors
      split <;> exact .nil
  | some accessors =>
    obtain ⟨_, hown, h⟩ := h.bind
    have himages := accessorImages_of_gives (fun accessor => Inner.accessorBody_isOutermost)
      (fun P => Inner.eachLambda_propertyType P _ htyped) hown
    exact propertyRest _ hmarks.gives hconverted hgiven htyped
      (fun P => AccessorImage.eachLambdaOf himages) (AccessorImage.bodies himages) h

/-- A method or a destructor. -/
theorem method {body : Option (List Source.Statement)}
    (h : (inner.method id kind attributes modifiers identifier typeParameters parameters result
      body).GivesIn containers members) :
    LeafImage inner containers
      (.method kind attributes modifiers identifier typeParameters parameters result body)
        members := by
  obtain ⟨marks, hmarks, h⟩ := Convert.GivesIn.bind h (hattributes _)
  split at h
  · next hdestructor =>
    replace h := h.bind_containerName?
    cases hblock : containers.head? with
    | none =>
      rw [hblock] at h
      exact absurd h.gives Convert.not_gives_unsupported
    | some block =>
      rw [hblock] at h
      obtain ⟨_, hstatements, rfl⟩ := h.gives.map
      refine single ?_ (fun P hexprs => ?_) ?_
      · rw [hblock]
        exact FitLeaf.destructor.only
      · obtain ⟨hexprs, -⟩ := forall_mem_append.mp hexprs
        exact Inner.Bodies.attributes (forall_mem_append.mp hexprs).1 _ hmarks.gives
      · rw [DeclarationKind.bodies, if_pos hdestructor]
        exact .cons (.of_gives ⟨rfl, rfl⟩ hstatements) .nil
  · next hdestructor =>
    obtain ⟨converted, hconverted, h⟩ := h.bind_memberSite.bind_ofExcept
    obtain ⟨⟨returnType, more⟩, hresult, h⟩ := h.gives.bind
    obtain ⟨⟨names, constraints⟩, hconstraints, h⟩ := h.bind
    obtain ⟨listed, hlisted, h⟩ := h.bind
    have hterms : ∀ P, inner.BodiesIn P (DeclarationKind.method kind attributes modifiers identifier
          typeParameters parameters result body).exprs → ∀ statements,
        EachLambdaOf P (Member.method (marks ++ more) converted returnType
          (convertIdentifier identifier) names listed constraints statements).terms :=
      fun P hexprs _ => .append (eachLambdaOf_signature hmarks.gives hlisted
        (Inner.Bodies.resultClause · _ hresult) hexprs) (eachLambdaOf_constraints hconstraints)
    dsimp only at h
    cases body with
    | none =>
      obtain rfl := h.pure
      refine single (.of_convert hconverted) (hterms · · none) ?_
      rw [DeclarationKind.bodies, if_neg hdestructor]
      exact .nil
    | some source =>
      obtain ⟨_, hstatements, h⟩ := h.bind
      obtain rfl := h.pure
      refine single (.of_convert hconverted) (hterms · · _) ?_
      rw [DeclarationKind.bodies, if_neg hdestructor]
      refine .cons (.of_gives ?_ hstatements) .nil
      cases kind with
      | sub | function => exact ⟨rfl, rfl⟩

/-- A constructor, shared or not. -/
theorem «constructor»
    (h : (inner.constructor attributes modifiers parameters body).GivesIn containers members) :
    LeafImage inner containers (.constructor attributes modifiers parameters body) members := by
  replace h := Convert.GivesIn.bind_containerName? h
  cases hblock : containers.head? with
  | none =>
    rw [hblock] at h
    exact absurd h.gives Convert.not_gives_unsupported
  | some block =>
    rw [hblock] at h
    obtain ⟨_, hmarks, h⟩ := Convert.GivesIn.bind h (hattributes _)
    replace h := h.bind_inModule
    -- the modifiers are found in one of two ways, and the rest is done after either of them
    dsimp only at h
    split at h
    · refine constructorRest hmarks.gives (fun _ _ _ => ?_) h.gives
      rw [hblock]
      exact .sharedConstructor
    · obtain ⟨_, hconverted, h⟩ := (Convert.GivesIn.bind_memberSite h).bind_ofExcept
      refine constructorRest hmarks.gives (fun _ _ _ => ?_) h.gives
      rw [hblock] at hconverted ⊢
      exact .of_convert hconverted (fun _ => rfl) (by rintro _ ⟨⟩ _ ⟨⟩; rfl)

/-- An operator or a conversion. -/
theorem operator {operator : Source.OverloadableOperator}
    (h : (inner.operator id attributes modifiers operator parameters result body).GivesIn
      containers members) :
    LeafImage inner containers (.operator attributes modifiers operator parameters result body)
      members := by
  obtain ⟨marks, hmarks, h⟩ := Convert.GivesIn.bind h (hattributes _)
  obtain ⟨_, hconverted, h⟩ := h.bind_memberSite.bind_ofExcept
  obtain ⟨listed, hlisted, h⟩ := h.gives.bind
  obtain ⟨⟨returnType, more⟩, hresult, h⟩ := h.bind
  obtain ⟨statements, hstatements, h⟩ := h.bind
  have hbodies : Forall₂ (BodyImage inner) [{ statements := body, leaving := .withValue }]
    [statements] := .cons (.of_gives ⟨rfl, rfl⟩ hstatements) .nil
  have hterms P := eachLambdaOf_signature (P := P) hmarks.gives hlisted
    (Inner.Bodies.resultClause · _ hresult)
  dsimp only at h
  split at h
  · split at h
    · obtain rfl := h.pure
      exact single (.of_convert hconverted) hterms hbodies
    · exact h.unsupported.elim
  · obtain ⟨_, -, rfl⟩ := h.map
    exact single (.of_convert hconverted) hterms hbodies

/-- An event, with its own accessors, a delegate or parameters. -/
theorem event {asType : Option Source.TypeSyntax}
    (h : (inner.event attributes modifiers identifier parameters asType accessors).GivesIn
      containers members) :
    LeafImage inner containers (.event attributes modifiers identifier parameters asType accessors)
      members := by
  obtain ⟨marks, hmarks, h⟩ := Convert.GivesIn.bind h (hattributes _)
  obtain ⟨_, hconverted, h⟩ := h.bind_memberSite.bind_ofExcept
  replace h := h.gives
  have hmarks : ∀ P, inner.BodiesIn P (DeclarationKind.event attributes modifiers identifier
        parameters asType accessors).exprs → EachLambdaOf P (Target.attributeParts marks) := by
    intro P hexprs
    obtain ⟨hexprs, -⟩ := forall_mem_append.mp hexprs
    exact Inner.Bodies.attributes (forall_mem_append.mp hexprs).1 _ hmarks.gives
  dsimp only at h
  split at h
  · exact h.unsupported.elim
  · obtain ⟨_, htype, h⟩ := h.bind
    obtain ⟨_, hown, rfl⟩ := h.map
    have himages :=
      accessorImages_of_gives (fun _ => ⟨rfl, rfl⟩) (fun P => htype.eachLambda_type) hown
    refine single (.of_convert hconverted) (fun P hexprs => ?_) (AccessorImage.bodies himages)
    obtain ⟨-, haccessors⟩ := forall_mem_append.mp hexprs
    exact .append (hmarks P hexprs)
      (.cons htype.eachLambda_type (AccessorImage.eachLambdaOf himages haccessors))
  · obtain ⟨_, htype, rfl⟩ := h.map
    exact single (.of_convert hconverted)
      (fun P hexprs => .append (hmarks P hexprs) (.one htype.eachLambda_type)) .nil
  · obtain ⟨_, hlisted, rfl⟩ := h.map
    refine ⟨⟨fun P hexprs => forall_mem_cons.mpr ⟨?_, forall_mem_singleton.mpr ?_⟩, .nil, rfl,
      Inner.members_nil⟩, ?_⟩
    · refine .append (hmarks P hexprs) (.cons ?_ .nil)
      exact .around rfl (.one (.leaf rfl rfl))
    · obtain ⟨hexprs, -⟩ := forall_mem_append.mp hexprs
      refine .append (.cons (.leaf rfl rfl) ?_) .nil
      exact Inner.Bodies.parameters (forall_mem_append.mp hexprs).2 _ hlisted
    · exact forall_mem_cons.mpr ⟨.of_convert hconverted (fun _ => rfl) nofun, FitLeaf.only .of_none⟩

end Attributes

end LeafImage

variable {members : List Member}

/-- A type block has the members inside of it. -/
theorem MemberImage.typeBlock {inner : Inner} {block : Source.TypeBlockKind}
    {attributes : List (List Attribute)} {identifier : String}
    {inherited implemented : List Source.TypeSyntax} {declarations : List Source.Declaration}
    (h : (inner.typeBlock block attributes modifiers identifier typeParameters inherited implemented
      declarations).Gives members) :
    MemberImage inner (.type block attributes modifiers identifier typeParameters
      inherited implemented
      declarations) members := by
  obtain ⟨_, hmarks, h⟩ := h.bind
  obtain ⟨_, -, h⟩ := h.bind
  obtain ⟨⟨_, _⟩, hconstraints, h⟩ := h.bind
  obtain ⟨_, hbases, h⟩ := h.bind
  obtain ⟨_, hinterfaces, h⟩ := h.bind
  obtain ⟨_, hinside, rfl⟩ := h.map
  refine ⟨fun P hexprs => forall_mem_singleton.mpr ?_, .nil, rfl, ?_⟩
  · refine .append (.append (Inner.Bodies.attributes hexprs _ hmarks) (forall_mem_map.mpr ?_))
      (eachLambdaOf_constraints hconstraints)
    exact forall_mem_append.mpr
      ⟨eachLambda_convertTypes _ hbases.ofExcept, eachLambda_convertTypes _ hinterfaces.ofExcept⟩
  · rw [flatMap_singleton]
    exact hinside.of_within

/-- What a comment leaves to a member is left to all members when the last one gets a comment. -/
theorem forall_mem_markLast {P : Member → Prop} {comment : String}
    (hmark : ∀ member, P member → P (member.withTrivia { trailing := some comment }))
    (h : ∀ member ∈ members, P member) : ∀ member ∈ markLast comment members, P member := by
  fun_induction markLast comment members with
  | case1 => exact h
  | case2 last => exact forall_mem_singleton.mpr (hmark last (h last (mem_singleton_self _)))
  | case3 _ _ _ ih =>
    obtain ⟨hfirst, hrest⟩ := forall_mem_cons.mp h
    exact forall_mem_cons.mpr ⟨hfirst, ih hrest⟩

/-- The rules for declarations give nothing but their images; only fields may get one more comment.
-/
theorem Source.Declaration.image_of_gives {inner : Inner} {declaration : Source.Declaration}
    (hattributes : ∀ lists, (inner.attributes lists).Settles)
    (h : (declaration.convertKind inner).Gives members) :
    MemberImage inner declaration.kind members ∨
      ∃ attributes modifiers declarators plain, declaration.kind =
        .field attributes modifiers declarators ∧
        MemberImage inner declaration.kind plain ∧ members = markLast withEventsComment plain := by
  obtain ⟨_, kind⟩ := declaration
  obtain ⟨_, hin⟩ := h.exists_givesIn
  cases kind with
  | «namespace» name =>
    obtain ⟨_, hwritten, h⟩ := h.bind
    obtain ⟨_, hinside, rfl⟩ := h.map
    refine .inl ⟨fun P hexprs => forall_mem_singleton.mpr (EachLambdaOf.cons ?_ .nil),
      .nil, rfl, ?_⟩
    · exact name.eachLambda hwritten.ofExcept
    · rw [flatMap_singleton]
      exact hinside
  | type => exact .inl (.typeBlock h)
  | enum => exact .inl (LeafImage.enum hin).toMemberImage
  | delegate => exact .inl (LeafImage.delegate hin).toMemberImage
  | field attributes modifiers declarators =>
    obtain ⟨plain, himage, rfl | rfl⟩ := LeafImage.field hin
    · exact .inl himage.toMemberImage
    · exact .inr ⟨attributes, modifiers, declarators, plain, rfl, himage.toMemberImage, rfl⟩
  | property => exact .inl (LeafImage.property hattributes hin).toMemberImage
  | method => exact .inl (LeafImage.method hattributes hin).toMemberImage
  | constructor => exact .inl (LeafImage.constructor hattributes hin).toMemberImage
  | operator => exact .inl (LeafImage.operator hattributes hin).toMemberImage
  | event => exact .inl (LeafImage.event hattributes hin).toMemberImage
  | externalMethod => exact h.unimplemented.elim

/-- The bodies of a declaration become the bodies of its members, one for one. -/
theorem Convert.Gives.bodies {inner : Inner} {declaration : Source.Declaration}
    (h : (declaration.convertKind inner).Gives members)
    (hattributes : ∀ lists, (inner.attributes lists).Settles) :
    Forall₂ (BodyImage inner) declaration.kind.bodies (members.flatMap Member.bodies) := by
  obtain himage | ⟨_, _, _, plain, hkind, himage, rfl⟩ :=
    Source.Declaration.image_of_gives hattributes h
  · exact himage.bodies
  · -- a field has no bodies, and a comment brings none
    have hplain := himage.bodies
    rw [hkind] at hplain ⊢
    have hnone := flatMap_eq_nil_iff.mp (forall₂_nil_left_iff.mp hplain)
    have hmarked : ∀ member ∈ markLast withEventsComment plain, member.bodies = [] := by
      refine forall_mem_markLast (fun member hmember => ?_) hnone
      rw [Member.withTrivia]
      split
      · exact hmember
      · rfl
    rw [flatMap_eq_nil_iff.mpr hmarked]
    exact .nil

end Sharpen
