import Sharpen.Proofs.MemberImage
import Sharpen.Proofs.Placement.Tree

/-!
# Valid declarations

What it takes for all terms, bodies and members of a member to be valid (`Member.WellFormed`). The
image of a declaration is well formed if its expressions, bodies and declarations are treated so
(`MemberImage.wellFormed`); whole trees follow by induction on the levels of converters.

The main result is `conversions_are_well_formed`: whatever is converted, every node of the result is
valid where it stands.
-/

namespace Sharpen

open List

open Source (Declaration ImportsClause)
open Target (Statement Node Member EachLambdaOf)

namespace Target

/-- All nodes and bodies in a member are valid, at any depth. -/
inductive Member.WellFormed : Member → Prop where
  | intro {member : Member} (hterms : ∀ node ∈ member.terms, node.Everywhere Node.Valid)
      (hbodies : ∀ body ∈ member.bodies, ValidBody body)
      (hmembers : ∀ part ∈ member.members, part.WellFormed) : WellFormed member

/-- All nodes and bodies in a file are valid, at any depth. -/
structure CompilationUnit.WellFormed (unit : CompilationUnit) : Prop where
  usings : ∀ directive ∈ unit.usings, (Node.name directive.name).Everywhere Node.Valid
  attributes : ∀ node ∈ attributeParts unit.attributes, node.Everywhere Node.Valid
  members : ∀ member ∈ unit.members, member.WellFormed

section Terms

variable {statement : Statement}

@[simp] theorem statement_notMem_attributeParts (lists : List AttributeList) :
    .statement statement ∉ attributeParts lists := by
  simp [attributeParts]

@[simp] theorem statement_notMem_constraintParts (clauses : List ConstraintClause) :
    .statement statement ∉ constraintParts clauses := by
  have hconstraint : ∀ bound : TypeConstraint, .statement statement ∉ bound.parts := by
    intro bound
    cases bound <;> simp [TypeConstraint.parts]
  simp [constraintParts, hconstraint]

theorem Member.statement_notMem_terms (member : Member) : .statement statement ∉ member.terms := by
  cases member <;> simp [Member.terms, EnumMember.parts, accessorParts, ConstructorChain.parts]

end Terms

end Target

/-! ## Members made of sound parts -/

/-- A body whose statements are sound, and the lambdas in them. -/
def SoundBody (statements : List Statement) : Prop :=
  SoundBlock statements ∧ EachLambdaIn SoundBlock statements

theorem SoundBody.valid {statements : List Statement} (h : SoundBody statements) :
    Target.ValidBody statements :=
  ⟨h.2.valid h.1.1, h.1.2⟩

theorem SoundBody.append {statements others : List Statement} (h : SoundBody statements)
    (hothers : SoundBody others) : SoundBody (statements ++ others) := by
  refine ⟨⟨h.1.1.append hothers.1.1, ?_⟩, forall_mem_append.mpr ⟨h.2, hothers.2⟩⟩
  unfold Target.JumpsLand
  rw [Target.flowIn_append]
  exact forall_mem_append.mpr ⟨h.1.2, hothers.1.2⟩

theorem SoundBody.attachStatements {statements : List Statement} (trivia : Trivia)
    (h : SoundBody statements) : SoundBody (attachStatements trivia statements) := by
  refine ⟨⟨h.1.1.attachStatements trivia, ?_⟩, h.2.attachStatements⟩
  unfold Target.JumpsLand
  rw [Target.flowIn_eq_flatMap, View.flatMap_attachStatements, ← Target.flowIn_eq_flatMap]
  exact h.1.2

namespace Target.Member.WellFormed

variable {member : Member}

theorem of_sound (hterms : EachLambdaOf SoundBlock member.terms)
    (hbodies : ∀ body ∈ member.bodies, SoundBody body)
    (hmembers : ∀ part ∈ member.members, part.WellFormed) : member.WellFormed := by
  refine .intro (fun node hnode => ?_) (fun body hbody => (hbodies body hbody).valid) hmembers
  refine (hterms node hnode).valid ?_
  rintro _ rfl
  exact absurd hnode member.statement_notMem_terms

theorem commented {trivia : Trivia} (h : member.WellFormed) :
    (Member.commented trivia member).WellFormed :=
  .of_sound .nil (forall_mem_nil _) (forall_mem_singleton.mpr h)

theorem withTrivia (trivia : Trivia) (h : member.WellFormed) :
    (member.withTrivia trivia).WellFormed := by
  unfold Member.withTrivia
  split
  · exact h
  · exact h.commented

theorem addTrivia (trivia : Trivia) (h : member.WellFormed) :
    (member.addTrivia trivia).WellFormed := by
  unfold Member.addTrivia
  split
  · cases h with
    | intro _ _ hmembers => exact (hmembers _ (mem_singleton_self _)).commented
  · exact h.withTrivia trivia

end Target.Member.WellFormed

theorem wellFormed_attachMembers (trivia : Trivia) {members : List Member}
    (h : ∀ member ∈ members, member.WellFormed) :
    ∀ member ∈ attachMembers trivia members, member.WellFormed := by
  unfold attachMembers
  split
  · exact h
  · exact forall_mem_attachTrivia (fun added _ _ h => h.addTrivia added) h

/-! ## One level -/

/-- Converters whose results are sound. -/
structure Inner.Sound (inner : Inner) : Prop where
  expr : ∀ expr, inner.Bodies SoundBlock expr
  body : ∀ {body : Body} {statements : List Source.Statement} {converted : List Statement},
    body.breakables = [] → inner.Converts body statements converted → SoundBody converted
  declaration : ∀ {declaration : Declaration} {members : List Member},
    (inner.declaration declaration).Gives members → ∀ member ∈ members, member.WellFormed

theorem OpeningImage.soundBody {namesValue : Bool} {opening : List Statement}
    (h : OpeningImage namesValue opening) : SoundBody opening := by
  refine ⟨?_, h.eachLambda⟩
  cases h with
  | none => exact ⟨forall_mem_nil _, forall_mem_nil _⟩
  | value => exact ⟨forall_mem_singleton.mpr (.declaration [] _), forall_mem_nil _⟩

section Level

variable {inner : Inner} (hinner : inner.Sound)
include hinner

theorem BodyImage.soundBody {source : Source.MemberBody} {converted : List Statement}
    (h : BodyImage inner source converted) : SoundBody converted := by
  obtain ⟨_, _, _, hopening, hfresh, hconverts, rfl⟩ := h
  exact (hopening.soundBody.append (hinner.body hfresh.breakables hconverts)).attachStatements _

theorem Inner.Sound.members {declarations : List Declaration} {converted : List Member}
    (h : (inner.members declarations).Gives converted) :
    ∀ member ∈ converted, member.WellFormed := by
  obtain ⟨_, hlists, rfl⟩ := h.map
  intro member hmember
  obtain ⟨_, hlist, hmember⟩ := mem_flatten.mp hmember
  obtain ⟨_, -, hgiven⟩ := hlists.mapM.exists_left hlist
  obtain ⟨_, hplain, rfl⟩ := hgiven.map
  exact wellFormed_attachMembers _ (hinner.declaration hplain) member hmember

theorem MemberImage.wellFormed {kind : Source.DeclarationKind} {members : List Member}
    (h : MemberImage inner kind members) : ∀ member ∈ members, member.WellFormed := by
  intro member hmember
  refine .of_sound (h.terms _ (fun expr _ => hinner.expr expr) member hmember)
    (fun body hbody => ?_)
    fun part hpart => ?_
  · obtain ⟨_, -, himage⟩ := h.bodies.exists_left (mem_flatMap.mpr ⟨member, hmember, hbody⟩)
    exact himage.soundBody hinner
  · exact hinner.members h.inside part (mem_flatMap.mpr ⟨member, hmember, hpart⟩)

theorem Source.Declaration.wellFormed {declaration : Declaration} {members : List Member}
    (hattributes : ∀ lists, (inner.attributes lists).Settles)
    (h : (declaration.convertKind inner).Gives members) :
    ∀ member ∈ members, member.WellFormed := by
  obtain himage | ⟨_, _, _, _, -, himage, rfl⟩ := Declaration.image_of_gives hattributes h
  · exact himage.wellFormed hinner
  · exact forall_mem_markLast (fun member h => h.withTrivia _) (himage.wellFormed hinner)

end Level

/-! ## Whole trees -/

theorem soundBody_at {setting : Setting} {levels : Nat} {body : Body}
    {statements : List Source.Statement} {converted : List Statement}
    (hfresh : body.breakables = [])
    (h : (Inner.at setting levels).Converts body statements converted) : SoundBody converted :=
  ⟨h.soundBlock hfresh, h.soundLambdas⟩

theorem sound_at (setting : Setting) (levels : Nat) : (Inner.at setting levels).Sound := by
  -- expressions and bodies are known at every level, only declarations need the level below
  induction levels with
  | zero => exact ⟨bodies_soundBlock setting 0, soundBody_at, fun h => h.unsupported.elim⟩
  | succ levels ih =>
    refine ⟨bodies_soundBlock setting (levels + 1), soundBody_at, fun h => ?_⟩
    exact Declaration.wellFormed ih (Inner.settles_attributes setting levels)
      (Convert.Gives.of_nested h)

/-- Names, types and expressions in which all lambdas are sound are valid. -/
theorem Target.Node.EachLambda.valid_term {node : Node} (h : node.EachLambda SoundBlock)
    (hterm : ∀ statement, node ≠ .statement statement) : node.Everywhere Node.Valid :=
  h.valid fun statement heq => absurd heq (hterm statement)

theorem Source.ImportsClause.eachLambda {P : List Target.Statement → Prop} {clause : ImportsClause}
    {directive : Target.UsingDirective} (h : clause.convert = .ok directive) :
    (Node.name directive.name).EachLambda P := by
  cases clause with
  | simple _ name =>
    unfold ImportsClause.convert at h
    simp only [bind, Except.bind, pure, Except.pure] at h
    split at h
    · cases h
    · next hwritten =>
      obtain rfl := Except.ok.inj h
      exact name.eachLambda hwritten
  | xmlNamespace => cases h

theorem wellFormed_convertUnit {setting : Setting} {unit : Source.CompilationUnit}
    {output : Target.CompilationUnit} (h : (convertUnit setting unit).Gives output) :
    output.WellFormed := by
  obtain ⟨levels, h⟩ := Inner.exists_at_of_current h
  have hinner := sound_at setting levels
  obtain ⟨_, husings, h⟩ := h.bind
  obtain ⟨marks, hmarks, h⟩ := h.bind
  obtain ⟨_, hmembers, rfl⟩ := h.map
  refine ⟨fun directive hdirective => ?_, fun node hnode => ?_, hinner.members hmembers⟩
  · obtain ⟨_, -, hclause⟩ := husings.mapM.exists_left hdirective
    exact (ImportsClause.eachLambda hclause.ofExcept).valid_term fun _ => Node.noConfusion
  · refine (Inner.Bodies.attributes (fun expr _ => hinner.expr expr) _ hmarks node hnode).valid_term
      ?_
    rintro _ rfl
    exact Target.statement_notMem_attributeParts marks hnode

/-- Whatever is converted, all nodes of the result are valid where they stand, at any depth and with
the blocks of lambdas: bodies without braces are neither declarations nor commented, sections of a
`switch` close, jumps have a block to go to, and the parameters of a lambda all have types or none
has. -/
theorem conversions_are_well_formed (setting : Setting) (surroundings : Surroundings) :
    (∀ unit output, (convertUnit setting unit surroundings).1 = .ok output → output.WellFormed) ∧
    (∀ declaration output, (convertDeclaration setting declaration surroundings).1 = .ok output →
      ∀ member ∈ output, member.WellFormed) ∧
    (∀ (body : Body) source output, (convertStatements setting body source surroundings).1 =
      .ok output →
      (∀ statement ∈ output, (Node.statement statement).Everywhere Node.Valid) ∧
        ∀ mark ∈ Target.flowIn (targetScope body.breakables) output, mark.hasTarget) ∧
    ∀ expr output, (convertExpr setting expr surroundings).1 = .ok output →
      (Node.expr output).Everywhere Node.Valid := by
  refine ⟨fun unit output h => ?_, fun declaration output h => ?_, fun body source output h => ?_,
    fun expr output h => ?_⟩
  · exact wellFormed_convertUnit ⟨surroundings, h⟩
  · obtain ⟨levels, h⟩ := Inner.exists_at_of_current ⟨surroundings, h⟩
    exact (sound_at setting levels).declaration h
  · obtain ⟨_, hconverts⟩ := converts_of_convertStatements h
    obtain ⟨hflow, htarget⟩ := hconverts.sameJumps
    refine ⟨hconverts.soundLambdas.valid hconverts.sound, ?_⟩
    rw [hflow]
    exact htarget
  · obtain ⟨levels, h⟩ := Inner.exists_at_of_current ⟨surroundings, h⟩
    exact (bodies_soundBlock setting levels expr true output h).valid_term fun _ => Node.noConfusion

/-- An operator, and a lambda with the same body: a choice inside a loop, which it resumes. -/
theorem choice_inside_a_loop_is_well_formed :
    let source : List Source.Statement :=
      [⟨1, .while (.me 2) [⟨3, .select (.me 4) [⟨[.else], [⟨5, .continue .while, {}⟩], {}⟩], {}⟩],
        {}⟩]
    let declaration : Declaration := ⟨6, .operator [] [] .plus [] none source, {}⟩
    let lambda : Source.Expr := .lambda 7 .sub [] [] none (.block source)
    let body : List Statement := [.while .this (.switch .this [⟨[none], [.continue]⟩])]
    let member : Member := .operator [] [.public] .object .plus [] body
    (convertDeclaration {} declaration {}).1 = .ok [member] ∧ member.WellFormed ∧
      (convertExpr {} lambda {}).1 = .ok (.lambda false (.list []) (.block body)) ∧
      (Node.expr (.lambda false (.list []) (.block body))).Everywhere Node.Valid := by
  intro source declaration lambda body member
  have hmember : (convertDeclaration {} declaration {}).1 = .ok [member] := by rfl
  have hlambda : (convertExpr {} lambda {}).1 =
    .ok (.lambda false (.list []) (.block body)) := by rfl
  obtain ⟨-, hdeclarations, -, hexprs⟩ := conversions_are_well_formed {} {}
  exact ⟨hmember, hdeclarations _ _ hmember member (mem_singleton_self _), hlambda,
    hexprs _ _ hlambda⟩

end Sharpen
