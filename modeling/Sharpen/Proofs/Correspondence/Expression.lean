import Sharpen.Proofs.Correspondence.Basic

/-!
# Corresponding conversions of expressions

The rules for declared variables and for expressions keep every correspondence. The rules for an
access without a receiver and for a conditional access are the only ones for which a congruence is
not enough: they depend on where the expression stands.
-/

namespace Sharpen

open List
open Source (Expr Statement Argument Parameter Declarator DeclaredName SimpleName TypeSyntax NodeId)

variable {site : DeclaratorSite} {declarator : Declarator} {id : NodeId} {allowed : Bool}

/-- An expression whose conversion reads or changes the surroundings. -/
def Source.Expr.readsSurroundings : Expr → Bool
  | .memberAccess _ none _ | .conditionalAccess _ _ _ => true
  | _ => false

theorem Inner.Alike.knownSize {f : NodeId → NodeId} {inner other : Inner}
    (halike : inner.Alike f other) (bound : Expr) :
    inner.knownSize? (bound.renumber f) = other.knownSize? bound := by
  unfold Inner.knownSize?
  rw [bound.id_renumber, halike.integer]
  cases bound with
  | literal _ value => cases value <;> rfl
  | _ => rfl

namespace Renumbered

variable {C : Congruence} {f : NodeId → NodeId} {inner other : Inner}

section Rules

variable (halike : inner.Alike f other)
include halike

/-! ## Declared variables -/

theorem size {bound : Argument} (h : C.OnExprs (inner.via f) other bound.boundExprs) :
    C.Rel (inner.size (bound.renumber f)) (other.size bound) := by
  cases bound with
  | omitted => exact C.unsupported _ _
  | simple _ _ bound =>
    have hwhole : C.OnExpr (inner.via f) other bound := by
      refine h bound ?_
      unfold Argument.boundExprs
      split <;> simp_all
    simp only [Argument.renumber, Inner.size, halike.knownSize]
    cases other.knownSize? bound with
    | some => exact C.pure _
    | none =>
      cases bound with
      | binary _ operator left right =>
        cases operator with
        | subtract =>
          simp only [Expr.renumber, right.isOne_renumber]
          exact C.ite (h left (by simp [Argument.boundExprs]) true) (C.map (hwhole true) _)
        | _ => exact C.map (hwhole true) _
      | _ => exact C.map (hwhole true) _

theorem boundsRank {bounds : List Argument}
    (h : C.OnExprs (inner.via f) other (bounds.flatMap Argument.boundExprs)) :
    C.Rel (inner.boundsRank (Argument.listRenumber f bounds)) (other.boundsRank bounds) := by
  have homitted : (bounds.map (Argument.renumber f)).all Inner.isOmitted =
    bounds.all Inner.isOmitted := by
    rw [all_map, show Inner.isOmitted ∘ Argument.renumber f = Inner.isOmitted from
      funext (Argument.isOmitted_renumber f)]
  unfold Inner.boundsRank
  simp only [Source.listRenumber_eq, isEmpty_map, homitted, length_map]
  refine C.ite (C.pure _) (C.ite (C.pure _) ?_)
  refine C.mapM_map fun bound hbound => C.map (size halike fun expr hexpr => ?_) _
  exact h expr (mem_flatMap_of_mem hbound hexpr)

theorem implicitType {initializer : Option Expr} {name : DeclaredName} :
    C.Rel (inner.implicitType site (Expr.optionRenumber f initializer) (name.renumber f))
      (other.implicitType site initializer name) := by
  have hequal : inner.implicitType site (Expr.optionRenumber f initializer) (name.renumber f) =
      other.implicitType site initializer name := by
    obtain ⟨id, identifier, nullable, _, arrayRanks⟩ := name
    change inner.implicitType site _ ⟨f id, identifier, nullable, _, arrayRanks⟩ =
      other.implicitType site _ ⟨id, identifier, nullable, _, arrayRanks⟩
    unfold Inner.implicitType
    cases initializer with
    | none =>
      simp only [halike.declaredSymbol]
      rfl
    | some value =>
      change (if site = .local && true then _ else _) = if site = .local && true then _ else _
      simp only [halike.declaredSymbol, Expr.optionRenumber, Option.bind_some, value.id_renumber,
        halike.expressionType]
  rw [hequal]
  refine C.ite (C.pure _) ?_
  dsimp only
  split
  · exact C.pure _
  refine C.ite (C.pure _) ?_
  split
  · exact C.pure _
  · exact C.unsupported _ _

theorem baseType {name : DeclaredName}
    (hclause : C.OnExprs (inner.via f) other declarator.asClause.exprs)
    (hvalue : C.OnExprs (inner.via f) other declarator.initializer.toList) :
    C.Rel (inner.baseType site (declarator.renumber f) (name.renumber f))
      (other.baseType site declarator name) := by
  obtain ⟨_, asClause⟩ := declarator
  refine C.bind (value? hvalue) fun initializer => ?_
  cases asClause with
  | absent => exact C.map (implicitType halike) _
  | simple _ type =>
    simp only [Declarator.renumber, Source.AsClause.renumber, Source.convertTypes_renumber]
    exact C.map (C.ofExcept _) _
  | new creation =>
    cases creation with
    | objectCreation _ type =>
      simp only [Declarator.renumber, Source.AsClause.renumber, Expr.renumber,
        Source.convertTypes_renumber]
      exact C.bind (hclause _ mem_cons_self true) fun creation => C.map (C.ofExcept _) _
    | _ => exact C.unsupported _ _

theorem declaredVariables (h : C.OnExprs (inner.via f) other declarator.exprs) :
    C.Rel (inner.declaredVariables site (declarator.renumber f))
      (other.declaredVariables site declarator) := by
  obtain ⟨h, hvalue⟩ := forall_mem_append.mp h
  obtain ⟨hnames, hclause⟩ := forall_mem_append.mp h
  have hlist : (declarator.renumber f).names = declarator.names.map (.renumber f) := by
    cases declarator
    simp only [Declarator.renumber, Source.listRenumber_eq]
  unfold Inner.declaredVariables
  rw [hlist]
  refine C.map (C.mapM_map fun name hname => ?_) _
  have hname : C.OnExprs (inner.via f) other name.exprs := fun expr hexpr =>
    hnames expr (mem_flatMap_of_mem hname hexpr)
  refine C.bind (C.bind (baseType halike hclause hvalue) ?_) fun _ => ?_
  · rintro ⟨plain, initializer⟩
    obtain ⟨_, _, _, arrayBounds⟩ := name
    cases arrayBounds with
    | none => exact C.pure _
    | some bounds => exact C.map (boundsRank halike hname) _
  · cases name
    exact C.pure _

theorem variableLists {declarators : List Declarator}
    (h : C.OnExprs (inner.via f) other (declarators.flatMap Declarator.exprs)) :
    C.Rel (inner.variableLists site (Declarator.listRenumber f declarators))
      (other.variableLists site declarators) := by
  simp only [Source.listRenumber_eq]
  refine C.map (C.mapM_map fun declarator hdeclarator => ?_) _
  refine declaredVariables halike fun expr hexpr => ?_
  exact h expr (mem_flatMap_of_mem hdeclarator hexpr)

/-! ## Expressions -/

theorem literal {value : Source.Literal} :
    C.Rel (inner.literal (f id) value) (other.literal id value) := by
  cases value with
  | nothing =>
    simp only [Inner.literal, Inner.nothing, halike.convertedType]
    exact C.pure _
  | numeric => exact C.map (C.ofExcept _) _
  | boolean | string | char | date => exact C.pure _

theorem autoInvoke {converted : Target.Expr} :
    inner.autoInvoke (f id) allowed converted = other.autoInvoke id allowed converted := by
  rw [Inner.autoInvoke, Inner.autoInvoke, halike.resolve, halike.convertedType]

omit halike in
theorem memberAccess {receiver : Expr} {name : SimpleName}
    (h : C.OnExpr (inner.via f) other receiver) :
    C.Rel (inner.memberAccess (some (receiver.renumber f)) (name.renumber f))
      (other.memberAccess (some receiver) name) := by
  cases name
  simp only [SimpleName.renumber, Inner.memberAccess, Source.convertTypes_renumber]
  refine C.bind (C.ofExcept _) fun typeArguments => ?_
  cases receiver with
  | «global» => exact C.ite (C.pure _) (C.unsupported _ _)
  | _ => exact C.map (h true) _

omit halike in
theorem initializer {initializer : Source.Initializer}
    (h : C.OnExprs (inner.via f) other initializer.exprs) :
    C.Rel (inner.initializer (initializer.renumber f)) (other.initializer initializer) := by
  cases initializer with
  | absent => exact C.pure _
  | collection => exact C.map (values h) _
  | members =>
    simp only [Source.Initializer.renumber, Inner.initializer, Source.listRenumber_eq]
    refine C.map (C.mapM_map fun field hfield => ?_) _
    have hvalue := h field.value (mem_map_of_mem hfield) true
    cases field
    exact C.map hvalue _

theorem objectCreation {type : TypeSyntax} {arguments : Option (List Argument)}
    {initializer : Source.Initializer}
    (harguments : C.OnExprs (inner.via f) other ((arguments.getD []).flatMap Argument.exprs))
    (hinitializer : C.OnExprs (inner.via f) other initializer.exprs) :
    C.Rel (inner.objectCreation (f id) (type.renumber f) (Argument.optionRenumber f arguments)
        (initializer.renumber f)) (other.objectCreation id type arguments initializer) := by
  unfold Inner.objectCreation
  rw [(Source.convertTypes_renumber f).2.2.1, halike.resolve]
  refine C.bind (C.ofExcept _) fun type => ?_
  cases arguments with
  | none => exact C.bind (C.pure _) fun _ => C.map (Renumbered.initializer hinitializer) _
  | some arguments =>
    refine C.bind (Renumbered.arguments harguments) fun _ => C.bind (C.pure _) fun arguments => ?_
    exact C.map (Renumbered.initializer hinitializer) _

theorem arrayCreation {elementType : TypeSyntax} {bounds : Option (List Argument)}
    {ranks : List UInt32} {items : List Expr}
    (hbounds : C.OnExprs (inner.via f) other ((bounds.getD []).flatMap Argument.boundExprs))
    (hitems : C.OnExprs (inner.via f) other items) :
    C.Rel (inner.arrayCreation (elementType.renumber f) (Argument.optionRenumber f bounds) ranks
        (Expr.listRenumber f items)) (other.arrayCreation elementType bounds ranks items) := by
  have hempty : (Expr.listRenumber f items).isEmpty = items.isEmpty := by
    simp only [Source.listRenumber_eq, isEmpty_map]
  unfold Inner.arrayCreation
  rw [(Source.convertTypes_renumber f).2.2.1, hempty]
  refine C.bind (C.ofExcept _) fun element => ?_
  cases bounds with
  | none =>
    refine C.bind (C.pure _) fun sized => C.ite (C.map (C.pure _) _) ?_
    exact C.bind (values hitems) fun _ => C.map (C.pure _) _
  | some bounds =>
    refine C.bind (boundsRank halike hbounds) fun rank => ?_
    refine C.bind (C.pure _) fun sized => C.ite (C.map (C.pure _) _) ?_
    exact C.bind (values hitems) fun _ => C.map (C.pure _) _

omit halike in
theorem binary {operator : Source.BinaryOperator} {left right : Expr}
    (hleft : C.OnExpr (inner.via f) other left) (hright : C.OnExpr (inner.via f) other right) :
    C.Rel (inner.binary operator (left.renumber f) (right.renumber f))
      (other.binary operator left right) := by
  have htested : Inner.comparedWithNothing? operator (left.renumber f) (right.renumber f) =
      (Inner.comparedWithNothing? operator left right).map fun (tested, token) =>
        (tested.renumber f, token) := by
    unfold Inner.comparedWithNothing?
    simp only [Expr.isNothing_renumber]
    split
    · rfl
    · split
      · rfl
      · split <;> rfl
  unfold Inner.binary
  rw [htested]
  cases hcompared : Inner.comparedWithNothing? operator left right with
  | some compared =>
    obtain ⟨tested⟩ := compared
    obtain rfl | rfl := Inner.eq_of_comparedWithNothing hcompared
    · exact C.map (hleft true) _
    · exact C.map (hright true) _
  | none =>
    refine C.bind (C.ofExcept _) fun mapping => ?_
    refine C.bind (hleft true) fun left => C.bind (hright true) fun right => ?_
    cases mapping with
    | operator => exact C.pure _
    | power => exact C.pure _

variable {operand : Expr}

theorem unary {operator : Source.UnaryOperator} (h : C.OnExpr (inner.via f) other operand) :
    C.Rel (inner.unary operator (operand.renumber f)) (other.unary operator operand) := by
  cases operator with
  | addressOf => exact h false
  | plus | minus => exact C.map (h true) _
  | not =>
    simp only [Inner.unary, Inner.isBitwise, operand.id_renumber, halike.expressionType]
    exact C.map (h true) _

theorem cast {kind : Source.CastKind} {type : TypeSyntax}
    (h : C.OnExpr (inner.via f) other operand) :
    C.Rel (inner.cast kind (operand.renumber f) (type.renumber f))
      (other.cast kind operand type) := by
  unfold Inner.cast
  rw [halike.typeOf, (Source.convertTypes_renumber f).2.2.1]
  refine C.bind (h true) fun converted => ?_
  cases kind with
  | ctype =>
    dsimp only
    split
    · exact C.pure _
    · exact C.map (C.ofExcept _) _
  | directCast | tryCast => exact C.map (C.ofExcept _) _

omit halike in
theorem lambdaBody {inside : Body} {body : Source.LambdaBody}
    (hexprs : C.OnExprs (inner.via f) other body.exprs)
    (hstatements : C.OnStatements (inner.via f) other inside body.statements) :
    C.Rel (inner.lambdaBody inside (body.renumber f)) (other.lambdaBody inside body) := by
  cases body with
  | expression value => exact C.map (hexprs value mem_cons_self true) _
  | statement only =>
    refine C.bind (hstatements only mem_cons_self) fun converted => ?_
    split
    · exact C.pure _
    · exact C.pure _
  | block => exact C.map (Renumbered.statements hstatements) _

theorem lambdaParameters {body : Target.LambdaBody} {parameters : List Parameter}
    (h : C.OnExprs (inner.via f) other (parameters.flatMap Parameter.exprs)) :
    C.Rel (inner.lambdaParameters body (Parameter.listRenumber f parameters))
      (other.lambdaParameters body parameters) := by
  have htyped : (Parameter.listRenumber f parameters).any (fun parameter =>
    parameter.asType.isSome) =
      parameters.any fun parameter => parameter.asType.isSome := by
    simp only [Source.listRenumber_eq, any_map]
    exact congrArg parameters.any (funext fun parameter => parameter.isSome_asType_renumber f)
  have hlisted := C.map (listed halike (parameters.any fun parameter => parameter.asType.isSome) h)
    Target.LambdaParameters.list
  unfold Inner.lambdaParameters
  rw [htyped]
  cases body with
  | block => exact hlisted
  | expression =>
    rcases parameters with _ | ⟨parameter, _ | _⟩
    · exact hlisted
    · simp only [Parameter.listRenumber, parameter.isPlain_renumber, parameter.identifier_renumber]
      exact C.ite (C.pure _) hlisted
    · exact hlisted

theorem lambda {kind : Source.MethodKind} {modifiers : List Source.Modifier}
    {parameters : List Parameter} {asClause : Option TypeSyntax} {body : Source.LambdaBody}
    (hparameters : C.OnExprs (inner.via f) other (parameters.flatMap Parameter.exprs))
    (hexprs : C.OnExprs (inner.via f) other body.exprs)
    (hstatements : ∀ inside : Body, inside.breakables = [] →
      C.OnStatements (inner.via f) other inside body.statements) :
    C.Rel (inner.lambda (f id) kind modifiers (Parameter.listRenumber f parameters)
        (asClause.map (.renumber f)) (body.renumber f))
          (other.lambda id kind modifiers parameters asClause body) := by
  have htype : inner.lambdaReturnType? (f id) kind (asClause.map (.renumber f)) =
      other.lambdaReturnType? id kind asClause := by
    unfold Inner.lambdaReturnType?
    rw [halike.convertedType, Option.bind_map, show _ ∘ _ =
      other.table.typeOf? from funext halike.typeOf]
  unfold Inner.lambda
  rw [htype]
  refine C.bind (lambdaBody hexprs (hstatements _ rfl)) fun converted => ?_
  exact C.map (lambdaParameters halike hparameters) _

/-- Rules that do not depend on the surroundings keep a congruence. The statements of a lambda are
converted in a body of their own, which no loop surrounds. -/
theorem expr {expr : Expr} (hplain : expr.readsSurroundings = false)
    (hparts : ∀ part ∈ expr.parts, C.OnExpr (inner.via f) other part)
    (hstatements : ∀ inside : Body, inside.breakables = [] →
      C.OnStatements (inner.via f) other inside expr.statements) :
    C.Rel ((expr.renumber f).convertWith inner allowed) (expr.convertWith other allowed) := by
  cases expr with
  | literal => exact literal halike
  | interpolated =>
    simp only [Expr.renumber, Expr.convertWith, Source.listRenumber_eq]
    refine C.map (C.mapM_map fun content hcontent => ?_) _
    cases content with
    | text => exact C.pure _
    | hole =>
      obtain ⟨hvalue, halignment⟩ := forall_mem_cons.mp fun part hpart =>
        hparts part (mem_flatMap_of_mem hcontent hpart)
      exact C.bind (hvalue true) fun _ => C.map (value? halignment) _
  | name simple =>
    simp only [Expr.renumber, Expr.convertWith, simple.id_renumber, simple.convertName_renumber,
      autoInvoke halike]
    refine C.map ?_ _
    unfold Inner.name
    exact C.ite (C.map (C.ofExcept _) _) (C.pure _)
  | global => exact C.unsupported _ _
  | predefinedType =>
    simp only [Expr.renumber, Expr.convertWith]
    split
    · exact C.pure _
    · exact C.pure _
  | me | myClass | myBase => exact C.pure _
  | memberAccess _ receiver =>
    cases receiver with
    | none => cases hplain
    | some receiver =>
      simp only [Expr.renumber, Expr.optionRenumber, Expr.convertWith, autoInvoke halike]
      exact C.map (memberAccess (hparts receiver mem_cons_self)) _
  | conditionalAccess => cases hplain
  | invocation _ target =>
    obtain ⟨htarget, harguments⟩ := forall_mem_cons.mp hparts
    simp only [Expr.renumber, Expr.convertWith, Inner.invocation, target.id_renumber,
      halike.resolve]
    refine C.bind (htarget false) fun converted => C.bind (arguments harguments) fun arguments => ?_
    exact C.ite (C.pure _) (C.pure _)
  | objectCreation =>
    obtain ⟨harguments, hinitializer⟩ := forall_mem_append.mp hparts
    exact objectCreation halike harguments hinitializer
  | arrayCreation =>
    obtain ⟨hbounds, hitems⟩ := forall_mem_append.mp hparts
    exact arrayCreation halike hbounds hitems
  | collection =>
    simp only [Expr.renumber, Expr.convertWith, Inner.collection, Inner.arrayTarget?,
      halike.expressionType, halike.convertedType]
    refine C.bind (values hparts) fun converted => ?_
    split
    · exact C.pure _
    · exact C.ite (C.pure _) (C.pure _)
  | binary _ _ left right =>
    exact binary (hparts left (by simp [Expr.parts])) (hparts right (by simp [Expr.parts]))
  | unary _ _ operand => exact unary halike (hparts operand mem_cons_self)
  | parenthesized _ operand | await _ operand => exact C.map (hparts operand mem_cons_self true) _
  | binaryConditional _ first second =>
    refine C.bind (hparts first (by simp [Expr.parts]) true) fun first => ?_
    exact C.map (hparts second (by simp [Expr.parts]) true) _
  | ternaryConditional _ condition whenTrue whenFalse =>
    refine C.bind (hparts condition (by simp [Expr.parts]) true) fun condition => ?_
    refine C.bind (hparts whenTrue (by simp [Expr.parts]) true) fun whenTrue => ?_
    exact C.map (hparts whenFalse (by simp [Expr.parts]) true) _
  | cast _ _ operand => exact cast halike (hparts operand mem_cons_self)
  | predefinedCast _ _ operand =>
    refine C.bind (hparts operand mem_cons_self true) fun converted => ?_
    split
    · exact C.pure _
    split
    · exact C.pure _
    · exact C.pure _
  | typeOf _ operand type =>
    simp only [Expr.renumber, Expr.convertWith, Source.convertTypes_renumber]
    exact C.bind (hparts operand mem_cons_self true) fun operand => C.map (C.ofExcept _) _
  | getType _ type =>
    simp only [Expr.renumber, Expr.convertWith, Source.convertTypes_renumber]
    exact C.map (C.ofExcept _) _
  | nameOf _ argument => exact C.map (hparts argument mem_cons_self false) _
  | lambda =>
    obtain ⟨hparameters, hexprs⟩ := forall_mem_append.mp hparts
    exact lambda halike hparameters hexprs hstatements
  | anonymousObject =>
    simp only [Expr.renumber, Expr.convertWith, Source.listRenumber_eq]
    refine C.map (C.mapM_map fun field hfield => ?_) _
    have hvalue := hparts field.value (mem_map_of_mem hfield) true
    cases field
    exact C.map hvalue _
  | query | xmlLiteral => exact C.unimplemented _

/-- **Expressions**: the rule for an expression keeps a correspondence that its parts have. -/
theorem anyExpr {C : Correspondence} {expr : Expr}
    (hparts : ∀ part ∈ expr.parts, C.OnExpr (inner.via f) other part)
    (hstatements : ∀ inside : Body, inside.breakables = [] →
      C.OnStatements (inner.via f) other inside expr.statements) :
    C.Rel ((expr.renumber f).convertWith inner allowed) (expr.convertWith other allowed) := by
  cases hplain : expr.readsSurroundings with
  | false => exact Renumbered.expr halike hplain hparts hstatements
  | true =>
    unfold Expr.readsSurroundings at hplain
    split at hplain
    · next name =>
      cases name
      simp only [Expr.renumber, Expr.optionRenumber, SimpleName.renumber, Expr.convertWith,
        Inner.memberAccess, Source.convertTypes_renumber, autoInvoke halike]
      refine C.map (C.bind (C.ofExcept _) fun typeArguments =>
        C.bind C.implicitReceiver? fun receiver => ?_) _
      cases receiver with
      | some receiver => exact C.pure _
      | none => exact C.pure _
    · next receiver whenNotNull =>
      refine C.bind (hparts receiver (by simp [Expr.parts]) true) fun receiver => ?_
      exact C.map (C.bindingHead (hparts whenNotNull (by simp [Expr.parts]) true)) _
    · cases hplain

end Rules

end Renumbered

end Sharpen
