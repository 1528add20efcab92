import Sharpen.Proofs.LambdaBodies.Pieces

/-!
# Where the lambda bodies of a converted expression come from

The main result is `Inner.Bodies.expr`: the lambda bodies in a converted expression have a property
if those in its converted parts have it, and the converted body of the expression itself if it is a
lambda.
-/

namespace Sharpen

open List
open Source (Expr Argument Parameter TypeSyntax)
open Target (Node EachLambdaOf)

variable {P : List Target.Statement → Prop} {inner : Inner}

namespace Inner

variable {items : List Expr} {parameters : List Parameter} {id : Source.NodeId}

theorem eachLambda_literal {value : Source.Literal} :
    (inner.literal id value).Ensures (·.EachLambda P) := by
  cases value with
  | nothing =>
    refine .pure ?_
    unfold Inner.nothing
    split
    · exact eachLambda_unknownDefault
    · next type _ =>
      cases hvalue : type.defaultValue? with
      | none => exact eachLambda_unknownDefault
      | some value => exact type.eachLambda_defaultValue hvalue
  | numeric => exact .map .trivial fun _ _ => .leaf rfl rfl
  | boolean | string | char => exact .pure (.leaf rfl rfl)
  | date =>
    refine .pure (Target.Expr.eachLambda_call (Target.Expr.eachLambda_dotted _) ?_)
    exact forall_mem_cons.mpr ⟨.leaf rfl rfl,
      forall_mem_singleton.mpr (Target.Expr.eachLambda_dotted _)⟩

theorem Bodies.content {content : Source.Content} (h : inner.BodiesIn P content.exprs) :
    (inner.content content).Ensures fun converted => EachLambdaOf P converted.parts := by
  cases content with
  | text => exact .pure .nil
  | hole =>
    obtain ⟨hvalue, halignment⟩ := forall_mem_cons.mp h
    refine (hvalue true).bind fun shown hshown => ?_
    exact (Bodies.value? halignment).map fun _ hwidth => .cons hshown hwidth

theorem ensures_convertTypes (P : List Target.Statement → Prop) (types : List TypeSyntax) :
    (Convert.ofExcept (convertTypes types)).Ensures fun converted =>
      EachLambdaOf P (converted.map .type) :=
  .ofExcept fun _ h => .map (eachLambda_convertTypes types h)

theorem eachLambda_name {name : Source.SimpleName} :
    (Inner.name name).Ensures (·.EachLambda P) := by
  unfold Inner.name
  split
  · exact (ensures_convertTypes P _).map fun _ htypes => .around rfl htypes
  · exact .pure (.leaf rfl rfl)

theorem eachLambda_autoInvoke {allowed : Bool} {converted : Target.Expr}
    (h : converted.EachLambda P) :
    (inner.autoInvoke id allowed converted).EachLambda P := by
  unfold Inner.autoInvoke
  split
  · split
    · exact .around rfl (.one h)
    · exact h
  · exact h

/-- The implicit receiver is the variable of a `With` block. -/
theorem eachLambda_implicitReceiver (P : List Target.Statement → Prop) :
    Inner.implicitReceiver?.Ensures fun receiver => ∀ held ∈ receiver, held.EachLambda P := by
  refine .bind .trivial fun isHead _ => ?_
  split
  · exact .pure nofun
  · refine .map .trivial fun receiver _ held hheld => ?_
    obtain ⟨_, -, rfl⟩ := Option.map_eq_some_iff.mp hheld
    exact .leaf rfl rfl

theorem Bodies.memberAccess {receiver : Option Expr} {name : Source.SimpleName}
    (h : inner.BodiesIn P receiver.toList) :
    (inner.memberAccess receiver name).Ensures (·.EachLambda P) := by
  refine (ensures_convertTypes P _).bind fun types htypes => ?_
  split
  · split
    · exact .pure (.leaf rfl rfl)
    · exact .unsupported
  · exact (h _ (mem_cons_self ..) true).map fun _ hobject => .around rfl (.cons hobject htypes)
  · refine (eachLambda_implicitReceiver P).bind fun receiver hreceiver => ?_
    cases receiver with
    | none => exact .pure (.leaf rfl rfl)
    | some held => exact .pure (.around rfl (.cons (hreceiver held rfl) htypes))

theorem Bodies.invocation {target : Expr} {arguments : List Argument}
    (h : inner.BodiesIn P (target :: arguments.flatMap Argument.exprs)) :
    (inner.invocation id target arguments).Ensures (·.EachLambda P) := by
  obtain ⟨htarget, harguments⟩ := forall_mem_cons.mp h
  refine (htarget false).bind fun called hcalled => ?_
  refine (Bodies.arguments harguments).bind fun passed hpassed => ?_
  split
  · exact .pure (.around rfl (.cons hcalled hpassed))
  · exact .pure (.around rfl (.cons hcalled hpassed))

theorem Bodies.initializer {initializer : Source.Initializer}
    (h : inner.BodiesIn P initializer.exprs) :
    (inner.initializer initializer).Ensures fun braces => EachLambdaOf P braces.parts := by
  cases initializer with
  | absent => exact .pure .nil
  | collection => exact (Bodies.values h).map fun _ => id
  | members =>
    refine .map (.mapM (Q := (·.EachLambda P)) fun field hfield => ?_) fun _ => .map
    exact (forall_mem_map.mp h field hfield true).map fun _ hvalue =>
      .around rfl (.cons (.leaf rfl rfl) (.one hvalue))

theorem Bodies.objectCreation {type : TypeSyntax} {arguments : Option (List Argument)}
    {initializer : Source.Initializer}
    (harguments : inner.BodiesIn P ((arguments.getD []).flatMap Argument.exprs))
    (hinitializer : inner.BodiesIn P initializer.exprs) :
    (inner.objectCreation id type arguments initializer).Ensures (·.EachLambda P) := by
  refine (type.ensures_eachLambda P).bind fun created hcreated => ?_
  cases arguments with
  | none =>
    refine .pure_bind ((Bodies.initializer hinitializer).map fun braces hbraces => ?_)
    exact .around rfl (.cons hcreated hbraces)
  | some arguments =>
    refine (Bodies.arguments harguments).bind fun passed hpassed => ?_
    refine .pure_bind ((Bodies.initializer hinitializer).map fun braces hbraces => ?_)
    exact .around rfl (.cons hcreated (hpassed.append hbraces))

theorem Bodies.arrayBraces {type : Target.TypeSyntax} {hasSizes : Bool} (htype : type.EachLambda P)
    (hitems : inner.BodiesIn P items) :
    Convert.Ensures (do
      let braces : Target.Braces ←
        if hasSizes && items.isEmpty then pure .absent
        else pure (.present .array (← inner.values items))
      return .arrayCreation type braces) (Target.Expr.EachLambda P) := by
  split
  · exact .pure_bind (.pure (.around rfl (.one htype)))
  · exact (Bodies.values hitems).bind fun _ hvalues =>
      .pure_bind (.pure (.around rfl (.cons htype hvalues)))

theorem Bodies.arrayCreation {elementType : TypeSyntax} {bounds : Option (List Argument)}
    {ranks : List UInt32}
    (hbounds : inner.BodiesIn P ((bounds.getD []).flatMap Argument.boundExprs))
    (hitems : inner.BodiesIn P items) :
    (inner.arrayCreation elementType bounds ranks items).Ensures (·.EachLambda P) := by
  refine (elementType.ensures_eachLambda P).bind fun element helement => ?_
  have htype : ∀ sized : List (List (Option Target.Expr)),
    EachLambdaOf P (Target.sizeParts sized.flatten) →
      (element.withOuterRanks (if (sized ++ unsizedRanks ranks).isEmpty then
        [Target.TypeSyntax.unsizedRank 1] else sized ++ unsizedRanks ranks)).EachLambda P := by
    intro sized hsized
    refine Target.TypeSyntax.eachLambda_withOuterRanks helement ?_
    split
    · rw [flatten_singleton]
      exact eachLambda_unsizedRank
    · rw [flatten_append, Target.sizeParts, flatMap_append]
      exact hsized.append unsizedRanks_none
  cases bounds with
  | none => exact .pure_bind (Bodies.arrayBraces (htype [] .nil) hitems)
  | some bounds =>
    refine (Bodies.boundsRank hbounds).bind fun rank hrank => ?_
    refine .pure_bind (Bodies.arrayBraces (htype [rank] ?_) hitems)
    rw [flatten_singleton]
    exact hrank

theorem Bodies.collection (h : inner.BodiesIn P items) :
    (inner.collection id items).Ensures (·.EachLambda P) := by
  refine (Bodies.values h).bind fun values hvalues => ?_
  split
  · exact .pure (.around rfl hvalues)
  split
  · exact .pure (.around rfl (.cons (Model.TypeSymbol.eachLambda_written _) hvalues))
  · exact .pure (.around rfl hvalues)

theorem eachLambda_binary {left right : Target.Expr} {operator : Target.BinaryOperator}
    (hleft : left.EachLambda P) (hright : right.EachLambda P) :
    (Target.Expr.binary left operator right).EachLambda P :=
  .around rfl (.cons hleft (.one hright))

theorem Bodies.binary {operator : Source.BinaryOperator} {left right : Expr}
    (hleft : inner.Bodies P left) (hright : inner.Bodies P right) :
    (inner.binary operator left right).Ensures (·.EachLambda P) := by
  unfold Inner.binary
  split
  · next heq =>
    obtain rfl | rfl := Inner.eq_of_comparedWithNothing heq
    · exact (hleft true).map fun _ hvalue => eachLambda_binary hvalue (.leaf rfl rfl)
    · exact (hright true).map fun _ hvalue => eachLambda_binary hvalue (.leaf rfl rfl)
  · refine .bind .trivial fun mapping _ => ?_
    refine (hleft true).bind fun first hfirst => (hright true).bind fun second hsecond => ?_
    cases mapping with
    | operator => exact .pure (eachLambda_binary hfirst hsecond)
    | power =>
      refine .pure (Target.Expr.eachLambda_call (Target.Expr.eachLambda_dotted _) ?_)
      exact forall_mem_cons.mpr ⟨hfirst, forall_mem_singleton.mpr hsecond⟩

theorem Bodies.unary {operator : Source.UnaryOperator} {operand : Expr}
    (h : inner.Bodies P operand) :
    (inner.unary operator operand).Ensures (·.EachLambda P) := by
  cases operator with
  | addressOf => exact h false
  | plus | minus | not => exact (h true).map fun _ hvalue => .around rfl (.one hvalue)

theorem eachLambda_cast {type : Target.TypeSyntax} {operand : Target.Expr}
    (htype : type.EachLambda P) (h : operand.EachLambda P) :
    (Target.Expr.cast type operand).EachLambda P :=
  .around rfl (.cons htype (.one h))

theorem eachLambda_converted {method : String} {operand : Target.Expr} (h : operand.EachLambda P) :
    (Target.Expr.call (.dotted method) [operand]).EachLambda P :=
  Target.Expr.eachLambda_call (Target.Expr.eachLambda_dotted _) (forall_mem_singleton.mpr h)

theorem Bodies.cast {kind : Source.CastKind} {operand : Expr} {type : TypeSyntax}
    (h : inner.Bodies P operand) :
    (inner.cast kind operand type).Ensures (·.EachLambda P) := by
  refine (h true).bind fun value hvalue => ?_
  have hnamed := type.ensures_eachLambda P
  cases kind with
  | ctype =>
    dsimp only
    split
    · exact .pure (eachLambda_converted hvalue)
    · exact hnamed.map fun _ htype => eachLambda_cast htype hvalue
  | directCast => exact hnamed.map fun _ htype => eachLambda_cast htype hvalue
  | tryCast => exact hnamed.map fun _ htype => .around rfl (.cons htype (.one hvalue))

theorem Bodies.predefinedCast {keyword : Source.CastKeyword} {operand : Expr}
    (h : inner.Bodies P operand) :
    (inner.predefinedCast keyword operand).Ensures (·.EachLambda P) := by
  refine (h true).bind fun value hvalue => ?_
  split
  · exact .pure (eachLambda_cast (Target.TypeSyntax.eachLambda_dotted _) hvalue)
  split
  · exact .pure (eachLambda_converted hvalue)
  · exact .pure (eachLambda_cast (eachLambda_formation.keyword _) hvalue)

/-! ## Lambdas -/

/-- Whatever the statements of a lambda are converted to, in a body that no loop surrounds, has the
property, and so have the lambda bodies in it. -/
def BodyImages (P : List Target.Statement → Prop) (inner : Inner)
    (statements : List Source.Statement) : Prop :=
  ∀ inside : Body, inside.breakables = [] → ∀ converted,
    inner.Converts inside statements converted →
    P converted ∧ ∀ statement ∈ converted, (Node.statement statement).EachLambda P

/-- A parameter has a type if it is written or demanded. -/
theorem parameter_type {typed : Bool} {parameter : Parameter} :
    (inner.parameter typed parameter).Ensures fun converted =>
      converted.type.isSome = (parameter.asType.isSome || typed) := by
  refine .bind .trivial fun written _ => ?_
  generalize parameter.asType = asType
  cases asType with
  | none =>
    refine .pure_bind (.bind .trivial fun value _ => .map .trivial fun marks _ => ?_)
    cases typed <;> rfl
  | some type =>
    exact .bind .trivial fun _ _ =>
      .pure_bind (.bind .trivial fun _ _ => .map .trivial fun _ _ => rfl)

/-- One type that is written demands all the others. -/
theorem isUniform_of_types (parameters : List Parameter) {list : List Target.Parameter}
    (h : ∀ declared ∈ list, ∃ parameter ∈ parameters, declared.type.isSome =
      (parameter.asType.isSome || parameters.any fun parameter => parameter.asType.isSome)) :
    (Target.LambdaParameters.list list).isUniform := by
  rw [Target.LambdaParameters.isUniform, Bool.or_eq_true, all_eq_true, all_eq_true]
  cases htyped : parameters.any fun parameter => parameter.asType.isSome with
  | true =>
    refine .inl fun declared hdeclared => ?_
    obtain ⟨_, -, heq⟩ := h declared hdeclared
    rw [heq, htyped, Bool.or_true]
  | false =>
    refine .inr fun declared hdeclared => ?_
    obtain ⟨parameter, hparameter, heq⟩ := h declared hdeclared
    have hplain : parameter.asType.isSome = false := by
      simpa using any_eq_false.mp htyped parameter hparameter
    rw [htyped, hplain] at heq
    simpa using heq

theorem Bodies.lambdaParameters {body : Target.LambdaBody}
    (h : inner.BodiesIn P (parameters.flatMap Parameter.exprs)) :
    (inner.lambdaParameters body parameters).Ensures fun converted =>
      converted.isUniform ∧ EachLambdaOf P converted.parts := by
  have hlisted : Convert.Ensures (do return .list (← parameters.mapM
      (inner.parameter (parameters.any fun parameter => parameter.asType.isSome))))
      fun converted : Target.LambdaParameters => converted.isUniform ∧
        EachLambdaOf P converted.parts := by
    intro converted hgives
    obtain ⟨list, hlist, rfl⟩ := hgives.map
    refine ⟨isUniform_of_types parameters fun declared hdeclared => ?_,
      .flatMap fun declared hdeclared => ?_⟩
    · obtain ⟨parameter, hparameter, hresult⟩ := hlist.mapM.exists_left hdeclared
      exact ⟨parameter, hparameter, parameter_type declared hresult⟩
    · obtain ⟨parameter, hparameter, hresult⟩ := hlist.mapM.exists_left hdeclared
      exact Bodies.parameter (forall_mem_flatMap.mp h parameter hparameter) declared hresult
  unfold Inner.lambdaParameters
  dsimp only
  split
  · split
    · exact .pure ⟨rfl, .nil⟩
    · exact hlisted
  · exact hlisted

theorem Bodies.lambda {kind : Source.MethodKind} {modifiers : List Source.Modifier}
    {asClause : Option TypeSyntax} {body : Source.LambdaBody}
    (hparameters : inner.BodiesIn P (parameters.flatMap Parameter.exprs))
    (hexprs : inner.BodiesIn P body.exprs) (hbody : ∀ statements, Source.Node.body?
      (.expr (.lambda id kind modifiers parameters asClause body)) = some statements →
      inner.BodyImages P statements) :
    (inner.lambda id kind modifiers parameters asClause body).Ensures (·.EachLambda P) := by
  intro converted hgives
  obtain ⟨_, hinside, hgives⟩ := hgives.bind
  obtain ⟨_, hlist, rfl⟩ := hgives.map
  obtain ⟨huniform, hdeclared⟩ := Bodies.lambdaParameters hparameters _ hlist
  cases body with
  | expression value =>
    obtain ⟨result, hresult, rfl⟩ := hinside.map
    exact .lambdaValue huniform hdeclared (hexprs value (mem_cons_self ..) true result hresult)
  | statement only =>
    obtain ⟨statements, hstatements, hinside⟩ := hinside.bind
    have himages := hbody [only] rfl _ rfl statements ⟨[statements], .cons hstatements .nil,
      (append_nil _).symm⟩
    split at hinside
    · obtain rfl := hinside.pure
      have hvalue := himages.2 _ (mem_cons_self ..)
      exact .lambdaValue huniform hdeclared (hvalue.of_mem_parts (mem_cons_self ..))
    · obtain rfl := hinside.pure
      exact .lambda huniform hdeclared himages.1 himages.2
  | block statements =>
    obtain ⟨_, hconverted, rfl⟩ := hinside.map
    have himages := hbody statements rfl _ rfl _ hconverted.converts
    exact .lambda huniform hdeclared himages.1 himages.2

/-! ## All expressions -/

/-- **Expressions**: every lambda body in a converted expression comes from a part of the
expression, or is its own. -/
theorem Bodies.expr {allowed : Bool} {expr : Expr} (hparts : inner.BodiesIn P expr.parts)
    (hbody : ∀ statements, Source.Node.body? (.expr expr) = some statements →
      inner.BodyImages P statements) :
    (expr.convertWith inner allowed).Ensures (·.EachLambda P) := by
  cases expr with
  | literal => exact eachLambda_literal
  | interpolated =>
    refine .map (.mapM fun piece hpiece => ?_) fun _ hpieces => .around rfl (.flatMap hpieces)
    exact Bodies.content (forall_mem_flatMap.mp hparts piece hpiece)
  | name => exact eachLambda_name.map fun _ => eachLambda_autoInvoke
  | global => exact .unsupported
  | predefinedType =>
    simp only [Source.Expr.convertWith]
    split
    · exact .pure (.leaf rfl rfl)
    · exact .pure (Target.Expr.eachLambda_dotted _)
  | me | myClass | myBase => exact .pure (.leaf rfl rfl)
  | memberAccess => exact (Bodies.memberAccess hparts).map fun _ => eachLambda_autoInvoke
  | conditionalAccess =>
    obtain ⟨hreceiver, hrest⟩ := forall_mem_cons.mp hparts
    refine (hreceiver true).bind fun object hobject => ?_
    refine .map (.bindingHead (forall_mem_singleton.mp hrest true)) fun access haccess => ?_
    exact .around rfl (.cons hobject (.one haccess))
  | invocation => exact Bodies.invocation hparts
  | objectCreation =>
    obtain ⟨harguments, hinitializer⟩ := forall_mem_append.mp hparts
    exact Bodies.objectCreation harguments hinitializer
  | arrayCreation =>
    obtain ⟨hbounds, hitems⟩ := forall_mem_append.mp hparts
    exact Bodies.arrayCreation hbounds hitems
  | collection => exact Bodies.collection hparts
  | binary =>
    obtain ⟨hleft, hrest⟩ := forall_mem_cons.mp hparts
    exact Bodies.binary hleft (forall_mem_singleton.mp hrest)
  | unary => exact Bodies.unary (forall_mem_singleton.mp hparts)
  | parenthesized | await =>
    exact (forall_mem_singleton.mp hparts true).map fun _ hvalue => .around rfl (.one hvalue)
  | binaryConditional =>
    obtain ⟨hfirst, hrest⟩ := forall_mem_cons.mp hparts
    refine (hfirst true).bind fun tested htested => ?_
    exact (forall_mem_singleton.mp hrest true).map fun _ hvalue => eachLambda_binary htested hvalue
  | ternaryConditional =>
    obtain ⟨hcondition, hrest⟩ := forall_mem_cons.mp hparts
    obtain ⟨hwhenTrue, hrest⟩ := forall_mem_cons.mp hrest
    refine (hcondition true).bind fun test htest => (hwhenTrue true).bind fun first hfirst => ?_
    refine (forall_mem_singleton.mp hrest true).map fun second hsecond => ?_
    exact .around rfl (.cons htest (.cons hfirst (.one hsecond)))
  | cast => exact Bodies.cast (forall_mem_singleton.mp hparts)
  | predefinedCast => exact Bodies.predefinedCast (forall_mem_singleton.mp hparts)
  | typeOf _ _ type isNot =>
    refine (forall_mem_singleton.mp hparts true).bind fun value hvalue => ?_
    refine (type.ensures_eachLambda P).map fun named hnamed => ?_
    have htest : (Target.Expr.is value named).EachLambda P :=
      .around rfl (.cons hnamed (.one hvalue))
    cases isNot with
    | false => exact htest
    | true => exact .around rfl (.one (.around rfl (.one htest)))
  | getType =>
    exact (TypeSyntax.ensures_eachLambda P _).map fun _ hnamed => .around rfl (.one hnamed)
  | nameOf =>
    refine (forall_mem_singleton.mp hparts false).map fun value hvalue => ?_
    exact Target.Expr.eachLambda_call (.leaf rfl rfl) (forall_mem_singleton.mpr hvalue)
  | lambda =>
    obtain ⟨hparameters, hexprs⟩ := forall_mem_append.mp hparts
    exact Bodies.lambda hparameters hexprs hbody
  | anonymousObject =>
    refine .map (.mapM (Q := (·.value.EachLambda P)) fun field hfield => ?_) fun _ hvalues =>
      .around rfl (.map hvalues)
    exact (forall_mem_map.mp hparts field hfield true).map fun _ => id
  | query | xmlLiteral => exact .unimplemented

end Inner

end Sharpen
