import Sharpen.Proofs.Correspondence.Statement

/-!
# Corresponding conversions of declarations

The rules for members and declarations keep every correspondence.
-/

namespace Sharpen

open List
open Source (Accessor AsClause Attribute Declaration DeclarationKind Expr NodeId Parameter
  ResultClause Statement
  TypeSyntax attributeExprs chainExprs resultExprs)

variable {f : NodeId → NodeId} {inner other : Inner}

/-- Both converters treat statements in corresponding ways in every body that no loop surrounds. -/
def Correspondence.OnBody (C : Correspondence) (inner other : Inner) (statements : List Statement) :
    Prop :=
  ∀ body : Body, body.breakables = [] → C.OnStatements inner other body statements

theorem Inner.Alike.functionType {id : NodeId} {result : Option ResultClause}
    (halike : inner.Alike f other) :
    inner.functionType? (f id) (result.map (.renumber f)) = other.functionType? id result := by
  have hdeclared : inner.declaredReturnType? (f id) = other.declaredReturnType? id := by
    unfold Inner.declaredReturnType?
    rw [halike.declaredSymbol]
  cases result with
  | none => simp only [Option.map_none, Inner.functionType?, hdeclared]
  | some clause =>
    simp only [Option.map_some, Inner.functionType?, ResultClause.renumber,
      halike.typeOf, hdeclared]

namespace Renumbered

variable {C : Correspondence}
variable {attributes : List (List Attribute)} {parameters : List Parameter}
  {modifiers : List Source.Modifier} {typeParameters : List Source.TypeParameter}
    {body : List Statement}
  {result : Option ResultClause} {kind : Source.MethodKind} {id : NodeId} {identifier : String}
  {valueType : Target.TypeSyntax}

section Rules

variable (halike : inner.Alike f other)
include halike

omit halike in
theorem valueAlias {kind : Target.AccessorKind} :
    C.Rel (Inner.valueAlias kind valueType (Parameter.listRenumber f parameters))
      (Inner.valueAlias kind valueType parameters) := by
  cases parameters with
  | nil => exact C.pure _
  | cons parameter rest =>
    obtain ⟨_, _, _, _, _, _, asType⟩ := parameter
    refine C.ite (C.pure _) ?_
    cases asType with
    | none => exact C.bind (C.pure _) fun _ => C.pure _
    | some type =>
      simp only [Parameter.renumber, Option.map_some, Source.convertTypes_renumber]
      exact C.bind (C.ofExcept _) fun _ => C.pure _

omit halike in
theorem accessor {body : Body} {accessor : Accessor}
    (hattributes : C.OnExprs (inner.via f) other (attributeExprs accessor.attributes))
    (hstatements : C.OnStatements (inner.via f) other body accessor.statements) :
    C.Rel (inner.accessor body valueType (accessor.renumber f))
      (other.accessor body valueType accessor) := by
  refine C.bind (C.ofExcept _) fun kind =>
    C.bind (Renumbered.attributes hattributes) fun attributes => ?_
  refine C.bind (C.ofExcept _) fun modifiers => C.bind valueAlias fun opening => ?_
  exact C.map (Renumbered.statements hstatements) _

omit halike in
/-- The accessors of a property or event, each in a body of its own. -/
theorem accessors {accessors : List Accessor} {bodyOf : Accessor → Body}
    (hfresh : ∀ accessor, (bodyOf accessor).breakables = [])
    (hsame : ∀ accessor : Accessor, bodyOf (accessor.renumber f) = bodyOf accessor)
    (hattributes : C.OnExprs (inner.via f) other (accessors.flatMap fun accessor =>
      attributeExprs accessor.attributes))
    (hstatements : C.OnBody (inner.via f) other (accessors.flatMap (·.statements))) :
    C.Rel ((accessors.map (.renumber f)).mapM fun accessor =>
      inner.accessor (bodyOf accessor) valueType accessor)
      (accessors.mapM fun accessor => other.accessor (bodyOf accessor) valueType accessor) := by
  refine C.mapM_map fun accessor haccessor => ?_
  rw [hsame]
  refine Renumbered.accessor (fun expr hexpr => ?_) fun statement hstatement => ?_
  · exact hattributes expr (mem_flatMap_of_mem haccessor hexpr)
  · exact hstatements _ (hfresh accessor) statement
      (mem_flatMap_of_mem haccessor hstatement)

theorem propertyType {asClause : AsClause} {initializer : Option Target.Expr}
    (h : C.OnExprs (inner.via f) other asClause.exprs) :
    C.Rel (inner.propertyType (f id) (asClause.renumber f) initializer)
      (other.propertyType id asClause initializer) := by
  cases asClause with
  | simple _ type =>
    simp only [AsClause.renumber, Inner.propertyType, Source.convertTypes_renumber, halike.typeOf]
    exact C.map (C.ofExcept _) _
  | absent =>
    simp only [AsClause.renumber, Inner.propertyType, halike.declaredSymbol]
    split
    · exact C.pure _
    · exact C.pure _
  | new creation =>
    cases creation with
    | objectCreation _ type =>
      simp only [AsClause.renumber, Expr.renumber, Inner.propertyType, Source.convertTypes_renumber,
        halike.typeOf]
      exact C.bind (h _ mem_cons_self true) fun creation => C.map (C.ofExcept _) _
    | _ => exact C.unsupported _ _

omit halike in
theorem resultClause (h : C.OnExprs (inner.via f) other (resultExprs result)) :
    C.Rel (inner.resultClause kind (result.map (.renumber f)))
      (other.resultClause kind result) := by
  cases result with
  | some clause =>
    simp only [Option.map_some, Inner.resultClause, ResultClause.renumber,
      Source.convertTypes_renumber]
    exact C.bind (C.ofExcept _) fun type => C.map (returnAttributes h) _
  | none =>
    cases kind with
    | sub => exact C.pure _
    | function => exact C.pure _

omit halike in
theorem containerName? : C.Rel Inner.containerName? Inner.containerName? :=
  C.map C.container? _

/-- The call of another constructor leaves over a part of the body, so what follows it is only asked
about such parts. -/
theorem chain {α : Type} {next next' : _ → Convert α}
    (harguments : C.OnExprs (inner.via f) other (chainExprs body))
    (hrest : ∀ call rest, rest ⊆ body → C.Rel (next (call, Statement.listRenumber f rest))
      (next' (call, rest))) :
    C.Rel (inner.chain (Statement.listRenumber f body) >>= next) (other.chain body >>= next') := by
  cases body with
  | nil => exact hrest none [] (List.Subset.refl _)
  | cons first rest =>
    simp only [Statement.listRenumber, Inner.chain, first.constructorChain?_renumber f]
    cases heq : first.constructorChain? with
    | none => exact hrest none (first :: rest) (List.Subset.refl _)
    | some call =>
      simp only [chainExprs, List.head?_cons, Option.bind_some, heq] at harguments
      simp only [Option.map_some, Source.renumberChain, halike.resolve, bind_assoc, pure_bind]
      refine C.bind (arguments harguments) fun arguments => ?_
      exact hrest _ _ (subset_cons_self ..)

/-- The part of a constructor after its modifiers. -/
theorem constructorRest
    (hparameters : C.OnExprs (inner.via f) other (parameters.flatMap Parameter.exprs))
    (hchain : C.OnExprs (inner.via f) other (chainExprs body))
    (hbody : C.OnBody (inner.via f) other body) (attributes : List Target.AttributeList)
    (name : String) (converted : List Target.Modifier) :
    C.Rel (do
        let parameters ← inner.parameters (Parameter.listRenumber f parameters)
        let (chain, rest) ← inner.chain (Statement.listRenumber f body)
        let statements ← inner.statements Inner.procedureBody rest
        return [Target.Member.constructor attributes converted name parameters chain statements])
      (do
        let parameters ← other.parameters parameters
        let (chain, rest) ← other.chain body
        let statements ← other.statements Inner.procedureBody rest
        return [Target.Member.constructor attributes converted name parameters chain
          statements]) := by
  refine C.bind (listed halike true hparameters) fun parameters => ?_
  refine chain halike hchain fun call rest hsub => ?_
  refine C.map (Renumbered.statements fun statement hstatement => ?_) _
  exact hbody _ rfl statement (hsub hstatement)

omit halike in
theorem members {declarations : List Declaration}
    (h : ∀ declaration ∈ declarations, C.OnDeclaration (inner.via f) other declaration) :
    C.Rel (inner.members (Declaration.listRenumber f declarations))
      (other.members declarations) := by
  simp only [Source.listRenumber_eq]
  refine C.map (C.mapM_map fun declaration hdeclaration => ?_) _
  have hconverted := h declaration hdeclaration
  cases declaration
  exact C.map hconverted _

variable (hattributes : C.OnExprs (inner.via f) other (attributeExprs attributes))
include hattributes

omit halike in
theorem typeBlock {block : Source.TypeBlockKind} {inherits implements : List TypeSyntax}
    {members : List Declaration}
    (hmembers : ∀ member ∈ members, C.OnDeclaration (inner.via f) other member) :
    C.Rel (inner.typeBlock block (Attribute.listsRenumber f attributes) modifiers identifier
        (typeParameters.map (.renumber f)) (TypeSyntax.listRenumber f inherits)
        (TypeSyntax.listRenumber f implements) (Declaration.listRenumber f members))
      (other.typeBlock block attributes modifiers identifier typeParameters inherits implements
        members) := by
  simp only [Inner.typeBlock, Source.convertTypeParameters_renumber, Source.convertTypes_renumber]
  refine C.bind (Renumbered.attributes hattributes) fun attributes => ?_
  refine C.bind (C.ofExcept _) fun converted => ?_
  refine C.bind (C.ofExcept _) fun ⟨typeParameters, constraints⟩ => ?_
  refine C.bind (C.ofExcept _) fun inherited => C.bind (C.ofExcept _) fun implemented => ?_
  exact C.map (C.inContainer _ (Renumbered.members hmembers)) _

omit halike in
theorem enum {underlyingType : Option ResultClause} {members : List Source.EnumMember}
    (hresult : C.OnExprs (inner.via f) other (resultExprs underlyingType))
    (hmembers : C.OnExprs (inner.via f) other (members.flatMap Source.EnumMember.exprs)) :
    C.Rel (inner.enum (Attribute.listsRenumber f attributes) modifiers identifier
      (underlyingType.map (.renumber f))
        (members.map (.renumber f)))
      (other.enum attributes modifiers identifier underlyingType members) := by
  have hvalues : C.Rel ((members.map (.renumber f)).mapM inner.enumMember)
    (members.mapM other.enumMember) := by
    refine C.mapM_map fun member hmember => ?_
    have hmember : C.OnExprs (inner.via f) other member.exprs := fun expr hexpr =>
      hmembers expr (mem_flatMap_of_mem hmember hexpr)
    obtain ⟨hmarks, hvalue⟩ := forall_mem_append.mp hmember
    exact C.bind (Renumbered.attributes hmarks) fun _ => C.map (value? hvalue) _
  refine C.bind (Renumbered.attributes hattributes) fun attributes => ?_
  refine C.bind (C.ofExcept _) fun converted => ?_
  cases underlyingType with
  | none => exact C.bind (C.pure _) fun _ => C.map hvalues _
  | some clause =>
    simp only [Option.map_some, ResultClause.renumber, Source.convertTypes_renumber]
    refine C.bind (returnAttributes hresult) fun more => C.bind (C.ofExcept _) fun type => ?_
    exact C.bind (C.pure _) fun _ => C.map hvalues _

theorem field {declarators : List Source.Declarator}
    (hdeclarators : C.OnExprs (inner.via f) other (declarators.flatMap Source.Declarator.exprs)) :
    C.Rel (inner.field (Attribute.listsRenumber f attributes) modifiers
      (Source.Declarator.listRenumber f declarators))
      (other.field attributes modifiers declarators) := by
  unfold Inner.field
  rw [halike.options]
  refine C.bind (C.ofExcept _) fun converted => C.bind C.inModule fun inModule => ?_
  refine C.bind (Renumbered.attributes hattributes) fun attributes => ?_
  refine C.bind (variableLists halike hdeclarators) fun declared => ?_
  exact C.ite (C.unsupported _ _) (C.ite (C.pure _) (C.pure _))

variable (hparameters : C.OnExprs (inner.via f) other (parameters.flatMap Parameter.exprs))
include hparameters

theorem property {asClause : AsClause} {initializer : Option Expr}
    {accessors : Option (List Accessor)} (hclause : C.OnExprs (inner.via f) other asClause.exprs)
    (hvalue : C.OnExprs (inner.via f) other initializer.toList)
    (hmarks : C.OnExprs (inner.via f) other ((accessors.getD []).flatMap fun accessor =>
      attributeExprs accessor.attributes))
    (hstatements : C.OnBody (inner.via f) other ((accessors.getD []).flatMap (·.statements))) :
    C.Rel (inner.property (f id) (Attribute.listsRenumber f attributes) modifiers identifier
        (Parameter.listRenumber f parameters) (asClause.renumber f)
          (Expr.optionRenumber f initializer)
        (accessors.map (·.map (.renumber f))))
      (other.property id attributes modifiers identifier parameters asClause initializer
        accessors) := by
  have hempty : (Parameter.listRenumber f parameters).isEmpty = parameters.isEmpty := by
    cases parameters <;> rfl
  unfold Inner.property
  rw [hempty]
  refine C.ite (C.unsupported _ _) ?_
  refine C.bind (Renumbered.attributes hattributes) fun attributes => ?_
  refine C.bind C.memberSite fun site => C.bind (C.ofExcept _) fun converted => ?_
  refine C.bind (value? hvalue) fun initializer => ?_
  refine C.bind (propertyType halike hclause) fun ⟨type, known, initializer⟩ => ?_
  cases accessors with
  | none =>
    refine C.bind (C.pure _) fun accessors => ?_
    exact C.ite (C.map (listed halike true hparameters) _) (C.pure _)
  | some accessors =>
    have hfresh : ∀ accessor,
      (Inner.accessorBody (modifiers.contains .iterator) known accessor).breakables = [] := by
      intro accessor
      unfold Inner.accessorBody
      split <;> rfl
    refine C.bind (Renumbered.accessors hfresh (fun _ => rfl) hmarks hstatements) fun accessors =>
      ?_
    exact C.ite (C.map (listed halike true hparameters) _) (C.pure _)

theorem method {body : Option (List Statement)}
    (hresult : C.OnExprs (inner.via f) other (resultExprs result))
    (hbody : C.OnBody (inner.via f) other (body.getD [])) :
    C.Rel (inner.method (f id) kind (Attribute.listsRenumber f attributes) modifiers identifier
        (typeParameters.map (.renumber f)) (Parameter.listRenumber f parameters)
          (result.map (.renumber f))
        (Statement.optionRenumber f body))
      (other.method id kind attributes modifiers identifier typeParameters parameters
        result body) := by
  have hall : (Statement.optionRenumber f body).getD [] =
    Statement.listRenumber f (body.getD []) := by
    cases body <;> rfl
  unfold Inner.method
  rw [halike.functionType, hall, Source.convertTypeParameters_renumber]
  refine C.bind (Renumbered.attributes hattributes) fun attributes => C.ite ?_ ?_
  · refine C.bind containerName? fun name => ?_
    cases name with
    | none => exact C.unsupported _ _
    | some name => exact C.map (Renumbered.statements (hbody _ rfl)) _
  · refine C.bind C.memberSite fun site => C.bind (C.ofExcept _) fun converted => ?_
    refine C.bind (resultClause hresult) fun ⟨returnType, returnAttributes⟩ => ?_
    refine C.bind (C.ofExcept _) fun ⟨typeParameters, constraints⟩ => ?_
    refine C.bind (listed halike true hparameters) fun parameters => ?_
    cases body with
    | none => exact C.map (C.pure _) _
    | some statements =>
      refine C.bind (Renumbered.statements (hbody _ rfl)) fun converted => ?_
      exact C.map (C.pure _) _

theorem constructor (hchain : C.OnExprs (inner.via f) other (chainExprs body))
    (hbody : C.OnBody (inner.via f) other body) :
    C.Rel (inner.constructor (Attribute.listsRenumber f attributes) modifiers
      (Parameter.listRenumber f parameters)
        (Statement.listRenumber f body))
          (other.constructor attributes modifiers parameters body) := by
  refine C.bind containerName? fun name => ?_
  cases name with
  | none => exact C.unsupported _ _
  | some name =>
    refine C.bind (Renumbered.attributes hattributes) fun attributes => ?_
    refine C.bind C.inModule fun inModule => ?_
    have hrest := constructorRest halike hparameters hchain hbody attributes name
    refine C.ite (C.bind (C.pure _) hrest) ?_
    exact C.bind C.memberSite fun site => C.bind (C.ofExcept _) hrest

theorem operator {operator : Source.OverloadableOperator}
    (hresult : C.OnExprs (inner.via f) other (resultExprs result))
    (hbody : C.OnBody (inner.via f) other body) :
    C.Rel (inner.operator (f id) (Attribute.listsRenumber f attributes) modifiers operator
        (Parameter.listRenumber f parameters) (result.map (.renumber f))
          (Statement.listRenumber f body))
      (other.operator id attributes modifiers operator parameters result body) := by
  unfold Inner.operator
  rw [halike.functionType]
  refine C.bind (Renumbered.attributes hattributes) fun attributes => ?_
  refine C.bind C.memberSite fun site => C.bind (C.ofExcept _) fun converted => ?_
  refine C.bind (listed halike true hparameters) fun parameters => ?_
  refine C.bind (resultClause hresult) fun ⟨returnType, returnAttributes⟩ => ?_
  refine C.bind (Renumbered.statements (hbody _ rfl)) fun statements => C.ite ?_ ?_
  · exact C.ite (C.pure _) (C.unsupported _ _)
  · exact C.map (C.ofExcept _) _

theorem event {asType : Option TypeSyntax} {accessors : Option (List Accessor)}
    (hmarks : C.OnExprs (inner.via f) other ((accessors.getD []).flatMap fun accessor =>
      attributeExprs accessor.attributes))
    (hstatements : C.OnBody (inner.via f) other ((accessors.getD []).flatMap (·.statements))) :
    C.Rel (inner.event (Attribute.listsRenumber f attributes) modifiers identifier
      (Parameter.listRenumber f parameters)
        (asType.map (.renumber f)) (accessors.map (·.map (.renumber f))))
      (other.event attributes modifiers identifier parameters asType accessors) := by
  refine C.bind (Renumbered.attributes hattributes) fun attributes => ?_
  refine C.bind C.memberSite fun site => C.bind (C.ofExcept _) fun converted => ?_
  cases asType with
  | none =>
    cases accessors with
    | none => exact C.map (listed halike true hparameters) _
    | some => exact C.unsupported _ _
  | some type =>
    cases accessors with
    | none =>
      simp only [Option.map_none, Option.map_some, Source.convertTypes_renumber]
      exact C.map (C.ofExcept _) _
    | some accessors =>
      simp only [Option.map_some, Source.convertTypes_renumber]
      refine C.bind (C.ofExcept _) fun type => ?_
      exact C.map (Renumbered.accessors (fun _ => rfl) (fun _ => rfl) hmarks hstatements) _

theorem delegate (hresult : C.OnExprs (inner.via f) other (resultExprs result)) :
    C.Rel (inner.delegate kind (Attribute.listsRenumber f attributes) modifiers identifier
      (typeParameters.map (.renumber f))
        (Parameter.listRenumber f parameters) (result.map (.renumber f)))
      (other.delegate kind attributes modifiers identifier typeParameters parameters result) := by
  have hparameters := listed halike true hparameters
  unfold Inner.delegate
  rw [Source.convertTypeParameters_renumber]
  refine C.bind (Renumbered.attributes hattributes) fun attributes => ?_
  refine C.bind (C.ofExcept _) fun converted => ?_
  cases result with
  | some clause =>
    simp only [Option.map_some, ResultClause.renumber, Source.convertTypes_renumber]
    refine C.bind (returnAttributes hresult) fun more => C.bind (C.ofExcept _) fun type => ?_
    exact C.bind (C.pure _) fun _ => C.bind (C.ofExcept _) fun _ => C.map hparameters _
  | none =>
    cases kind <;>
      exact C.bind (C.pure _) fun _ => C.bind (C.ofExcept _) fun _ => C.map hparameters _

omit hattributes hparameters in
/-- **Declarations**: the rule for a declaration keeps a correspondence that its parts have. -/
theorem declaration {declaration : Declaration}
    (hexprs : C.OnExprs (inner.via f) other declaration.kind.exprs)
    (hbody : C.OnBody (inner.via f) other declaration.kind.statements)
    (hdeclarations : ∀ member ∈ declaration.kind.declarations,
      C.OnDeclaration (inner.via f) other member) :
    C.Rel ((declaration.renumber f).convertKind inner) (declaration.convertKind other) := by
  obtain ⟨_, kind⟩ := declaration
  cases kind with
  | «namespace» name =>
    simp only [Declaration.renumber, DeclarationKind.renumber, Declaration.convertKind,
      Source.convertTypes_renumber]
    exact C.bind (C.ofExcept _) fun name => C.map (Renumbered.members hdeclarations) _
  | type =>
    exact typeBlock hexprs hdeclarations
  | enum =>
    obtain ⟨hfirst, hmembers⟩ := forall_mem_append.mp hexprs
    obtain ⟨hattributes, hresult⟩ := forall_mem_append.mp hfirst
    exact enum hattributes hresult hmembers
  | delegate =>
    obtain ⟨hfirst, hresult⟩ := forall_mem_append.mp hexprs
    obtain ⟨hattributes, hparameters⟩ := forall_mem_append.mp hfirst
    exact delegate halike hattributes hparameters hresult
  | field =>
    obtain ⟨hattributes, hdeclarators⟩ := forall_mem_append.mp hexprs
    exact field halike hattributes hdeclarators
  | property =>
    obtain ⟨hexprs, hmarks⟩ := forall_mem_append.mp hexprs
    obtain ⟨hexprs, hvalue⟩ := forall_mem_append.mp hexprs
    obtain ⟨hexprs, hclause⟩ := forall_mem_append.mp hexprs
    obtain ⟨hattributes, hparameters⟩ := forall_mem_append.mp hexprs
    exact property halike hattributes hparameters hclause hvalue hmarks hbody
  | method =>
    obtain ⟨hfirst, hresult⟩ := forall_mem_append.mp hexprs
    obtain ⟨hattributes, hparameters⟩ := forall_mem_append.mp hfirst
    exact method halike hattributes hparameters hresult hbody
  | constructor =>
    obtain ⟨hfirst, hchain⟩ := forall_mem_append.mp hexprs
    obtain ⟨hattributes, hparameters⟩ := forall_mem_append.mp hfirst
    exact Renumbered.constructor halike hattributes hparameters hchain hbody
  | operator =>
    obtain ⟨hfirst, hresult⟩ := forall_mem_append.mp hexprs
    obtain ⟨hattributes, hparameters⟩ := forall_mem_append.mp hfirst
    exact Renumbered.operator halike hattributes hparameters hresult hbody
  | event =>
    obtain ⟨hfirst, hmarks⟩ := forall_mem_append.mp hexprs
    obtain ⟨hattributes, hparameters⟩ := forall_mem_append.mp hfirst
    exact event halike hattributes hparameters hmarks hbody
  | externalMethod => exact C.unimplemented _

end Rules

end Renumbered

end Sharpen
