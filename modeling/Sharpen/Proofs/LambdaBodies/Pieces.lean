import Sharpen.Proofs.Outcome
import Sharpen.Proofs.TargetParts
import Sharpen.Proofs.TypeFormation

/-!
# Where the lambda bodies of a converted node come from: pieces

The rules for expressions write no block of statements of their own: a lambda with a block in a
converted expression is the image of a lambda of the source. For a property `P` of blocks,
`Inner.Bodies P` says that the lambda bodies in whatever an expression is converted to have the
property. This module follows the property through types, which hold no lambdas at all, through
arguments, declared variables, attributes and parameters.
-/

namespace Sharpen

open List
open Source (Expr Argument)
open Target (Node EachLambdaOf)

variable {P : List Target.Statement → Prop}
variable {site : DeclaratorSite} {declarator : Source.Declarator} {name : Source.DeclaredName}
  {type : Target.TypeSyntax}

abbrev Target.Expr.EachLambda (P : List Target.Statement → Prop) (expr : Target.Expr) : Prop :=
  (Node.expr expr).EachLambda P

abbrev Target.TypeSyntax.EachLambda (P : List Target.Statement → Prop) (type : Target.TypeSyntax) :
    Prop :=
  (Node.type type).EachLambda P

/-! ## Names and types hold no lambdas -/

section Types

/-- The sizes that a rank specifier gives. -/
abbrev Target.sizeParts (sizes : List (Option Target.Expr)) : List Node :=
  sizes.flatMap fun size => size.toList.map .expr

theorem Target.TypeSyntax.eachLambda_withOuterRanks {ranks : List (List (Option Target.Expr))}
    (htype : type.EachLambda P) (hranks : EachLambdaOf P (Target.sizeParts ranks.flatten)) :
    (type.withOuterRanks ranks).EachLambda P := by
  unfold Target.TypeSyntax.withOuterRanks
  split
  · exact htype
  split
  · refine .around rfl (.cons (htype.of_mem_parts (mem_cons_self ..)) ?_)
    rw [flatten_append, flatMap_append]
    exact hranks.append fun part hpart => htype.of_mem_parts (mem_cons_of_mem _ hpart)
  · exact .around rfl (.cons htype hranks)

theorem eachLambda_unsizedRank {dimensions : Nat} :
    EachLambdaOf P (Target.sizeParts (Target.TypeSyntax.unsizedRank dimensions)) := by
  refine .flatMap fun size hsize => ?_
  obtain rfl := eq_of_mem_replicate hsize
  exact .nil

theorem unsizedRanks_none {ranks : List UInt32} :
    EachLambdaOf P (Target.sizeParts (unsizedRanks ranks).flatten) := by
  refine .flatMap fun size hsize => ?_
  obtain ⟨_, hrank, hsize⟩ := mem_flatten.mp hsize
  obtain ⟨_, -, rfl⟩ := mem_map.mp hrank
  exact forall_mem_flatMap.mp eachLambda_unsizedRank size hsize

theorem Target.TypeSyntax.eachLambda_nullableOf (htype : type.EachLambda P) :
    type.nullableOf.EachLambda P := by
  unfold Target.TypeSyntax.nullableOf
  split
  · refine .around rfl (.cons (.around rfl (.one (htype.of_mem_parts (mem_cons_self ..)))) ?_)
    exact fun part hpart => htype.of_mem_parts (mem_cons_of_mem _ hpart)
  · exact .around rfl (.one htype)

/-- Conversion puts no lambda into a name or a type. -/
theorem eachLambda_formation : TypeFormation (fun name => (Node.name name).EachLambda P)
    fun type => type.EachLambda P where
  identifier _ := .leaf rfl rfl
  generic h := .around rfl (.map h)
  qualified hleft hright := .around rfl (.cons hleft (.one hright))
  aliasQualified h := .around rfl (.one h)
  predefined _ := .leaf rfl rfl
  named h := .around rfl (.one h)
  nullableOf h := Target.TypeSyntax.eachLambda_nullableOf h
  withOuterRanks _ h := Target.TypeSyntax.eachLambda_withOuterRanks h unsizedRanks_none

theorem Target.TypeSyntax.eachLambda_dotted (path : String) :
    (Target.TypeSyntax.dotted path).EachLambda P :=
  eachLambda_formation.dotted path

theorem Model.TypeSymbol.eachLambda_written (type : Model.TypeSymbol) : type.written.EachLambda P :=
  eachLambda_formation.written (fun _ helement => .around rfl (.one helement)) type

theorem Source.Name.eachLambda {converted : Target.Name} (name : Source.Name)
    (h : name.convert = .ok converted) : (Node.name converted).EachLambda P :=
  eachLambda_formation.name name h

theorem Source.TypeSyntax.eachLambda {converted : Target.TypeSyntax} (type : Source.TypeSyntax)
    (h : type.convert = .ok converted) : converted.EachLambda P :=
  eachLambda_formation.type type h

theorem Source.TypeSyntax.ensures_eachLambda (P : List Target.Statement → Prop)
    (type : Source.TypeSyntax) :
    (Convert.ofExcept type.convert).Ensures (·.EachLambda P) :=
  .ofExcept fun _ => type.eachLambda

theorem eachLambda_convertTypes {converted : List Target.TypeSyntax}
    (types : List Source.TypeSyntax) (h : convertTypes types = .ok converted) :
    ∀ type ∈ converted, type.EachLambda P :=
  eachLambda_formation.types types h

end Types

/-! ## Small expressions that rules write -/

theorem Target.Expr.eachLambda_dotted (path : String) : (Target.Expr.dotted path).EachLambda P := by
  unfold Target.Expr.dotted
  split
  · exact .leaf rfl rfl
  · next rest heq =>
    clear heq
    suffices ∀ expr : Target.Expr, expr.EachLambda P →
      (rest.foldl Target.Expr.member expr).EachLambda P from
      this _ (.leaf rfl rfl)
    induction rest with
    | nil => exact fun expr hexpr => hexpr
    | cons part rest ih => exact fun expr hexpr => ih _ (.around rfl (.one hexpr))

theorem Target.Expr.eachLambda_call {target : Target.Expr} {values : List Target.Expr}
    (htarget : target.EachLambda P) (hvalues : ∀ value ∈ values, value.EachLambda P) :
    (Target.Expr.call target values).EachLambda P := by
  refine .around rfl (.cons htarget (.map ?_))
  simpa using hvalues

theorem eachLambda_unknownDefault : unknownDefault.EachLambda P :=
  .around rfl (.one (.leaf rfl rfl))

theorem Model.TypeSymbol.eachLambda_defaultValue {type : Model.TypeSymbol} {value : Target.Expr}
    (h : type.defaultValue? = some value) : value.EachLambda P := by
  unfold Model.TypeSymbol.defaultValue? at h
  split at h
  · obtain rfl := Option.some.inj h
    exact .leaf rfl rfl
  · split at h
    · cases h
    · obtain rfl := Option.some.inj h
      exact .around rfl (.one type.eachLambda_written)

/-! ## Pieces of expressions -/

namespace Inner

/-- The lambda bodies in whatever the expression is converted to have the property. -/
def Bodies (P : List Target.Statement → Prop) (inner : Inner) (expr : Expr) : Prop :=
  ∀ allowed, (inner.expr allowed expr).Ensures (·.EachLambda P)

abbrev BodiesIn (P : List Target.Statement → Prop) (inner : Inner) (exprs : List Expr) : Prop :=
  ∀ expr ∈ exprs, inner.Bodies P expr

variable {inner : Inner}

theorem Bodies.value? {value : Option Expr} (h : inner.BodiesIn P value.toList) :
    (inner.value? value).Ensures fun converted => EachLambdaOf P (converted.toList.map .expr) := by
  cases value with
  | none => exact .pure .nil
  | some value => exact (h value (mem_cons_self ..) true).map fun _ => .one

theorem Bodies.values {values : List Expr} (h : inner.BodiesIn P values) :
    (inner.values values).Ensures fun converted => EachLambdaOf P (converted.map .expr) :=
  fun _ hgives => .map (Convert.Ensures.mapM (fun value hvalue => h value hvalue true) _ hgives)

theorem Bodies.arguments {callee : Option Model.Symbol} {arguments : List Argument}
    (h : inner.BodiesIn P (arguments.flatMap Argument.exprs)) :
    (inner.arguments callee arguments).Ensures fun converted =>
      EachLambdaOf P (converted.map (.expr ·.value)) := by
  suffices hall : (inner.arguments callee arguments).Ensures fun converted =>
      ∀ argument ∈ converted, argument.value.EachLambda P from
    fun converted hgives => .map (hall converted hgives)
  refine .mapM fun ⟨source, _⟩ hsource => ?_
  have hexprs := forall_mem_flatMap.mp h source ((mem_zipIdx' hsource).2 ▸ getElem_mem _)
  cases source with
  | omitted => exact .unsupported
  | simple _ _ value => exact (hexprs value (mem_cons_self ..) true).map fun _ hvalue => hvalue

/-! ## Declared variables -/

theorem Bodies.size {bound : Argument} (h : inner.BodiesIn P bound.boundExprs) :
    (inner.size bound).Ensures (·.EachLambda P) := by
  cases bound with
  | omitted => exact .unsupported
  | simple _ _ bound =>
    have hwhole : inner.Bodies P bound := by
      refine h bound ?_
      unfold Argument.boundExprs
      split <;> simp_all
    have hnext : Convert.Ensures (do return .binary (← inner.value bound) .add (.number "1"))
        (Target.Expr.EachLambda P) :=
      (hwhole true).map fun _ hvalue => .around rfl (.cons hvalue (.one (.leaf rfl rfl)))
    unfold Inner.size
    dsimp only
    split
    · exact .pure (.leaf rfl rfl)
    split
    · split
      · exact h _ (by simp [Argument.boundExprs]) true
      · exact hnext
    · exact hnext

theorem Bodies.boundsRank {bounds : List Argument}
    (h : inner.BodiesIn P (bounds.flatMap Argument.boundExprs)) :
    (inner.boundsRank bounds).Ensures fun rank => EachLambdaOf P (Target.sizeParts rank) := by
  unfold Inner.boundsRank
  split
  · exact .pure eachLambda_unsizedRank
  split
  · exact .pure eachLambda_unsizedRank
  intro rank hrank
  refine .flatMap (Convert.Ensures.mapM (fun bound hbound => ?_) rank hrank)
  exact (Bodies.size (forall_mem_flatMap.mp h bound hbound)).map fun _ => .one

theorem eachLambda_implicitType {initializer : Option Expr} :
    (inner.implicitType site initializer name).Ensures (·.EachLambda P) := by
  unfold Inner.implicitType
  dsimp only
  split
  · exact .pure (.leaf rfl rfl)
  split
  · exact .pure (Model.TypeSymbol.eachLambda_written _)
  split
  · exact .pure (.leaf rfl rfl)
  split
  · exact .pure (Model.TypeSymbol.eachLambda_written _)
  · exact .unsupported

/-- A type and an initial value whose lambda bodies have the property. -/
def TypedBodies (P : List Target.Statement → Prop)
    (declared : Target.TypeSyntax × Option Target.Expr) : Prop :=
  declared.1.EachLambda P ∧ EachLambdaOf P (declared.2.toList.map .expr)

theorem Bodies.baseType (hclause : inner.BodiesIn P declarator.asClause.exprs)
    (hvalue : inner.BodiesIn P declarator.initializer.toList) :
    (inner.baseType site declarator name).Ensures (TypedBodies P) := by
  refine (Bodies.value? hvalue).bind fun initializer hinitial => ?_
  split
  · exact (Source.TypeSyntax.ensures_eachLambda P _).map fun _ htype => ⟨htype, hinitial⟩
  · next heq =>
    rw [heq] at hclause
    refine (hclause _ (mem_cons_self ..) true).bind fun creation hcreation => ?_
    exact (Source.TypeSyntax.ensures_eachLambda P _).map fun _ htype => ⟨htype, .one hcreation⟩
  · exact .unsupported
  · exact eachLambda_implicitType.map fun _ htype => ⟨htype, hinitial⟩

theorem Bodies.declaredVariable (hname : inner.BodiesIn P name.exprs)
    (hclause : inner.BodiesIn P declarator.asClause.exprs)
    (hvalue : inner.BodiesIn P declarator.initializer.toList) :
    (inner.declaredVariable site declarator name).Ensures (TypedBodies P) := by
  refine (Bodies.baseType hclause hvalue).bind fun (plain, initializer) ⟨htype, hinitial⟩ => ?_
  dsimp only
  generalize hbase : (if name.nullable then _ else _ : Target.TypeSyntax) = base
  have hbase : base.EachLambda P := by
    rw [← hbase]
    split <;> split
    · exact Target.TypeSyntax.eachLambda_nullableOf (.leaf rfl rfl)
    · exact Target.TypeSyntax.eachLambda_nullableOf htype
    · exact .leaf rfl rfl
    · exact htype
  split
  · exact .pure ⟨Target.TypeSyntax.eachLambda_withOuterRanks hbase unsizedRanks_none, hinitial⟩
  · next heq =>
    rw [Source.DeclaredName.exprs, heq] at hname
    have houter : ∀ outer, EachLambdaOf P (Target.sizeParts outer) →
        (base.withOuterRanks (outer :: unsizedRanks name.arrayRanks)).EachLambda P := by
      intro outer hsizes
      refine Target.TypeSyntax.eachLambda_withOuterRanks hbase ?_
      rw [flatten_cons, Target.sizeParts, flatMap_append]
      exact hsizes.append unsizedRanks_none
    refine (Bodies.boundsRank hname).map fun rank hsizes => ⟨houter _ eachLambda_unsizedRank, ?_⟩
    dsimp only
    split
    · exact .one (.around rfl (.one (houter _ hsizes)))
    · exact hinitial

theorem addToGroup_parts {declared : Target.Declarator} {groups : List Target.Variables}
    (hdeclared : TypedBodies P (type, declared.initializer))
    (hgroups : ∀ group ∈ groups, EachLambdaOf P group.parts) :
    ∀ group ∈ addToGroup type declared groups, EachLambdaOf P group.parts := by
  induction groups with
  | nil =>
    refine forall_mem_singleton.mpr (.cons hdeclared.1 ?_)
    rw [flatMap_singleton]
    exact hdeclared.2
  | cons group rest ih =>
    obtain ⟨hgroup, hrest⟩ := forall_mem_cons.mp hgroups
    unfold addToGroup
    split
    · obtain ⟨htype, hvalues⟩ := forall_mem_cons.mp hgroup
      refine forall_mem_cons.mpr ⟨.cons htype ?_, hrest⟩
      rw [flatMap_append, flatMap_singleton]
      exact .append hvalues hdeclared.2
    · exact forall_mem_cons.mpr ⟨hgroup, ih hrest⟩

theorem Bodies.declaredVariables (h : inner.BodiesIn P declarator.exprs) :
    (inner.declaredVariables site declarator).Ensures fun groups =>
      ∀ group ∈ groups, EachLambdaOf P group.parts := by
  obtain ⟨h, hvalue⟩ := forall_mem_append.mp h
  obtain ⟨hnames, hclause⟩ := forall_mem_append.mp h
  refine .map (R := fun declared => ∀ pair ∈ declared,
    TypedBodies P (pair.1, pair.2.initializer)) ?_ ?_
  · refine .mapM fun name hname => ?_
    exact (Bodies.declaredVariable (forall_mem_flatMap.mp hnames name hname) hclause hvalue).map
      fun _ => id
  intro declared hdeclared
  suffices ∀ groups : List Target.Variables, (∀ group ∈ groups, EachLambdaOf P group.parts) →
      ∀ group ∈ declared.foldl (fun groups pair => addToGroup pair.1 pair.2 groups) groups,
        EachLambdaOf P group.parts from
    this [] (forall_mem_nil _)
  induction declared with
  | nil => exact fun groups hgroups => hgroups
  | cons pair rest ih =>
    obtain ⟨hpair, hrest⟩ := forall_mem_cons.mp hdeclared
    exact fun groups hgroups => ih hrest _ (addToGroup_parts hpair hgroups)

theorem Bodies.variableLists {declarators : List Source.Declarator}
    (h : inner.BodiesIn P (declarators.flatMap Source.Declarator.exprs)) :
    (inner.variableLists site declarators).Ensures fun groups => ∀ group ∈ groups,
      EachLambdaOf P group.parts := by
  refine .map (.mapM fun declarator hdeclarator =>
    Bodies.declaredVariables (forall_mem_flatMap.mp h declarator hdeclarator))
      fun lists hlists group hgroup => ?_
  obtain ⟨list, hlist, hgroup⟩ := mem_flatten.mp hgroup
  exact hlists list hlist group hgroup

/-! ## Attributes and parameters -/

theorem Bodies.attributes {lists : List (List Source.Attribute)}
    (h : inner.BodiesIn P (Source.attributeExprs lists)) :
    (inner.attributes lists).Ensures fun converted =>
      EachLambdaOf P (Target.attributeParts converted) := by
  intro converted hconverted
  refine .flatMap (Convert.Ensures.mapM (fun mark hmark => ?_) converted hconverted)
  have hexprs := forall_mem_flatMap.mp h mark hmark
  refine .bind (R := fun arguments => ∀ argument ∈ arguments, argument.value.EachLambda P) ?_ ?_
  · refine .mapM fun source hsource => ?_
    have hvalue := forall_mem_flatMap.mp hexprs source hsource
    cases source with
    | omitted => exact .unsupported
    | simple _ _ value => exact (hvalue value (mem_cons_self ..) true).map fun _ => id
  · intro arguments harguments
    refine .map (.ofExcept fun _ => mark.name.eachLambda (P := P)) fun name hname => ?_
    rw [flatMap_singleton]
    exact .cons hname (.map harguments)

theorem eachLambda_declaredType {id : Source.NodeId} : (inner.declaredType id).EachLambda P := by
  unfold Inner.declaredType
  split
  · exact Model.TypeSymbol.eachLambda_written _
  · exact .leaf rfl rfl

theorem Bodies.parameter {typed : Bool} {parameter : Source.Parameter}
    (h : inner.BodiesIn P parameter.exprs) :
    (inner.parameter typed parameter).Ensures fun converted => EachLambdaOf P converted.parts := by
  obtain ⟨hattributes, hdefault⟩ := forall_mem_append.mp h
  refine .bind .trivial fun written _ => ?_
  have hkept : ∀ keep : Source.Attribute → Bool, inner.BodiesIn P (Source.attributeExprs
      (parameter.attributes.map fun list => list.filter keep)) :=
    fun keep expr hexpr => hattributes expr (Source.mem_attributeExprs_of_filter hexpr)
  have hmarked : ∀ type : Target.TypeSyntax, type.EachLambda P →
      ((if parameter.nullable then type.nullableOf else type).withOuterRanks
        (unsizedRanks parameter.arrayRanks)).EachLambda P := by
    intro type htype
    refine Target.TypeSyntax.eachLambda_withOuterRanks ?_ unsizedRanks_none
    split
    · exact Target.TypeSyntax.eachLambda_nullableOf htype
    · exact htype
  generalize parameter.asType = asType
  cases asType with
  | none =>
    refine .pure_bind ((Bodies.value? hdefault).bind fun value hvalue => ?_)
    refine (Bodies.attributes (hkept _)).map fun marks hmarks => .append (.append hmarks ?_) hvalue
    cases typed with
    | false => exact .nil
    | true => exact .one (hmarked _ eachLambda_declaredType)
  | some type =>
    refine (type.ensures_eachLambda P).bind fun named hnamed => ?_
    refine .pure_bind ((Bodies.value? hdefault).bind fun value hvalue => ?_)
    refine (Bodies.attributes (hkept _)).map fun marks hmarks => .append (.append hmarks ?_) hvalue
    exact .one (hmarked _ hnamed)

end Inner

end Sharpen
