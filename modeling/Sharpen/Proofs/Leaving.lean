import Sharpen.Proofs.MemberImage
import Sharpen.Proofs.StatementOrder.Conversion

/-!
# Leaving a body early

`Exit Sub`, `Exit Function`, `Exit Property` and `Exit Operator` leave the whole body that they
stand in, at any depth of its blocks. What they become depends on the body alone (`Body.leaving`):
an iterator is left by `yield break`, a body that has to give a value by a `return` with one, every
other body by a plain `return`.

Members say themselves how their bodies are left (`MemberBody.leaving`), whatever the semantic model
knows of them. A `Function` lambda does not: if the model does not know the type of its value, it is
left as a procedure is (`Inner.lambdaLeaving`). Both are in `exits_fit_their_bodies`.
-/

namespace Sharpen

open List

open Source (Stop StatementKind DeclarationKind)
open Target (Statement Member)

/-! ## Ways out of a body -/

/-- A statement that leaves a body in this way. -/
def Leaving.Fits : Leaving → Statement → Prop
  | .withValue, statement => ∃ value, statement = .return (some value)
  | .plain, statement => statement = .return none
  | .iterator, statement => statement = .yieldBreak

theorem Body.fits_leave {body : Body} {statement : Statement} (h : body.leave = .ok statement) :
    body.leaving.Fits statement := by
  unfold Body.leave at h
  unfold Body.leaving
  split at h
  · next hiterator =>
    rw [if_pos hiterator]
    exact (Except.ok.inj h).symm
  next hiterator =>
  rw [if_neg hiterator]
  split at h
  · next hvalue =>
    rw [if_neg (by simpa using hvalue)]
    exact (Except.ok.inj h).symm
  next hvalue =>
  rw [if_pos (by simpa using hvalue)]
  split at h
  · exact ⟨_, (Except.ok.inj h).symm⟩
  · split at h
    · exact ⟨_, (Except.ok.inj h).symm⟩
    · cases h

/-- Blocks that are whole bodies. -/
def Source.BlockKind.isBody : Source.BlockKind → Bool
  | .sub | .function | .property | .operator => true
  | .do | .for | .while | .select | .try => false

theorem Body.exit_of_isBody {body : Body} {block : Source.BlockKind} (h : block.isBody) :
    body.exit block = body.leave := by
  cases block with
  | sub | function | property | operator => rfl
  | _ => cases h

/-! ## The stops of a walk -/

namespace Source

/-- A stop at a statement that leaves the whole body. -/
def Stop.leavesBody : Stop → Bool
  | .statement _ ⟨_, .exit block, _⟩ => block.isBody
  | _ => false

/-- A stop stands in a body that is left in this way. -/
def Stop.StandsIn (leaving : Leaving) : Stop → Prop
  | .statement own _ | .elseIf own _ _ _ => own.leaving = leaving
  | .caseEnd _ => True

/-- All of some stops stand in a body. -/
def StandIn (body : Body) (stops : List Stop) : Prop :=
  ∀ stop ∈ stops, stop.StandsIn body.leaving

theorem StandIn.append {body : Body} {stops others : List Stop} (h : StandIn body stops)
    (hothers : StandIn body others) : StandIn body (stops ++ others) :=
  forall_mem_append.mpr ⟨h, hothers⟩

theorem StandIn.cons {body : Body} {stop : Stop} {others : List Stop}
    (h : stop.StandsIn body.leaving) (hothers : StandIn body others) :
    StandIn body (stop :: others) :=
  forall_mem_cons.mpr ⟨h, hothers⟩

/-- However deep in its blocks, a statement of a body leaves that body. -/
theorem standsIn_preorder (body : Body) (statements : List Statement) :
    StandIn body (preorder body statements) := by
  apply preorder.induct (fun body kind => StandIn body (kind.preorder body))
    (fun body blocks => StandIn body (catchPreorder body blocks))
    (fun body statements => StandIn body (preorder body statements))
    (fun body blocks => StandIn body (casePreorder body blocks))
    (fun body elseStatements blocks => StandIn body (elseIfPreorder body elseStatements blocks))
  all_goals intros
  -- one block inside; a loop around it does not change how the body is left
  case case1 hblock | case5 hblock | case6 hblock | case7 hblock | case8 hblock | case9 hblock
  | case10 hblock | case11 hblock | case12 hblock | case13 hblock => exact hblock
  -- several blocks, of an `If` or `Try`
  case case2 hfirst hrest | case3 hfirst hrest | case14 hfirst hrest => exact hfirst.append hrest
  case case4 hfirst hmiddle hlast | case15 hfirst hmiddle hlast =>
    exact (hfirst.append hmiddle).append hlast
  -- no statements inside
  case case16 => grind [StatementKind.preorder, StandIn]
  -- lists of statements and blocks
  case case17 | case19 | case21 | case23 => exact forall_mem_nil _
  case case18 hkind hrest => exact .cons rfl (hkind.append hrest)
  case case20 hblock hrest => exact .cons rfl (hblock.append hrest)
  case case22 hblock hrest => exact hblock.append (.cons trivial hrest)
  case case24 hblock hrest => exact hblock.append hrest

end Source

/-! ## Converted bodies -/

theorem Follows.imp_of_mem {R S : Stop → List Statement → Prop} {stops : List Stop}
    {met : List Statement} (h : Follows R stops met)
    (himp : ∀ stop ∈ stops, ∀ piece, R stop piece → S stop piece) :
    Follows S stops met := by
  obtain ⟨pieces, hpieces, rfl⟩ := h
  refine ⟨pieces, ?_, rfl⟩
  induction hpieces with
  | nil => exact .nil
  | cons hfirst _ ih =>
    obtain ⟨hstop, hrest⟩ := forall_mem_cons.mp himp
    exact .cons (hstop _ hfirst) (ih hrest)

/-- A walk over the output meets what the stops of the source become, and each stop that leaves the
whole body becomes one statement that leaves it in this way. -/
def LeavesAs (setting : Setting) (leaving : Leaving) (source : List Source.Statement)
    (output : List Statement) :
    Prop :=
  ∃ body : Body, Follows (fun stop met => Becomes setting stop met ∧
      (stop.leavesBody → ∃ statement, met = [statement] ∧ leaving.Fits statement))
    (Source.preorder body source) (Target.preorder output)

section Bodies

variable {setting : Setting} {levels : Nat}

/-- What an `Exit` from a whole body becomes. -/
theorem Becomes.fits {leaving : Leaving} {stop : Stop} {met : List Statement}
    (h : Becomes setting stop met) (hstands : stop.StandsIn leaving) (hleaves : stop.leavesBody) :
    ∃ statement, met = [statement] ∧ leaving.Fits statement := by
  obtain ⟨_, hmet⟩ := h.image
  cases hmet with
  | elseIf | caseEnd => cases hleaves
  | @statement own node converted himage =>
    obtain ⟨_, kind, _⟩ := node
    cases kind with
    | exit block =>
      cases himage with
      | exit hexit =>
        rw [Body.exit_of_isBody hleaves] at hexit
        obtain rfl : own.leaving = leaving := hstands
        exact ⟨_, rfl, Body.fits_leave hexit⟩
    | _ => cases hleaves

theorem Inner.Converts.leavesAs {body : Body} {source : List Source.Statement}
    {output : List Statement} (h : (Inner.at setting levels).Converts body source output) :
    LeavesAs setting body.leaving source output :=
  ⟨body, h.sameOrder.order.imp_of_mem fun stop hstop _ hbecomes =>
    ⟨hbecomes, hbecomes.fits (Source.standsIn_preorder body source stop hstop)⟩⟩

/-! ## Members -/

/-- A body of a declaration is left in its way, behind what it may start with and under its
comments. -/
def IsLeft (setting : Setting) (source : Source.MemberBody) (converted : List Statement) : Prop :=
  ∃ opening statements, OpeningImage source.namesValue opening ∧
    converted = attachStatements source.trivia (opening ++ statements) ∧
    LeavesAs setting source.leaving source.statements statements

theorem BodyImage.isLeft {source : Source.MemberBody} {converted : List Statement}
    (h : BodyImage (Inner.at setting levels) source converted) :
    IsLeft setting source converted := by
  obtain ⟨opening, _, statements, hopening, houtermost, hconverts, rfl⟩ := h
  exact ⟨opening, statements, hopening, rfl, houtermost.leaving ▸ hconverts.leavesAs⟩

/-! ## Lambdas -/

/-- The body of a lambda as statements. -/
def Target.LambdaBody.asStatements : Target.LambdaBody → List Statement
  | .expression value => [.expression value]
  | .block statements => statements

variable {id : Source.NodeId} {kind : Source.MethodKind} {modifiers : List Source.Modifier}
  {asClause : Option Source.TypeSyntax}

/-- How a lambda is left: as a method of its kind, but without a value if the type of the value is
not known. -/
def Inner.lambdaLeaving (inner : Inner) (id : Source.NodeId) (kind : Source.MethodKind)
    (modifiers : List Source.Modifier) (asClause : Option Source.TypeSyntax) : Leaving :=
  match kind.leaving (modifiers.contains .iterator) with
  | .withValue =>
    if (inner.lambdaReturnType? id kind asClause).any (!·.isVoid) then .withValue else .plain
  | other => other

theorem Inner.leaving_lambda {inner : Inner} :
    Body.leaving ⟨.lambda (inner.lambdaReturnType? id kind asClause),
      modifiers.contains .iterator, []⟩ =
      inner.lambdaLeaving id kind modifiers asClause := by
  unfold Inner.lambdaLeaving Body.leaving Source.MethodKind.leaving
  cases modifiers.contains .iterator with
  | true => rfl
  | false =>
    cases kind with
    | sub | function => rfl

theorem Inner.lambda_leavesAs {parameters : List Source.Parameter} {body : Source.LambdaBody}
    {statements : List Source.Statement} {converted : Target.Expr}
    (hbody : Source.Node.body? (.expr (.lambda id kind modifiers parameters asClause body)) =
      some statements)
    (h : ((Inner.at setting levels).lambda id kind modifiers parameters asClause body).Gives
      converted) :
    ∃ isAsync list inside, converted = .lambda isAsync list inside ∧
      LeavesAs setting ((Inner.at setting levels).lambdaLeaving id kind modifiers asClause)
        statements
        inside.asStatements := by
  obtain ⟨inside, hinside, h⟩ := h.bind
  obtain ⟨list, -, rfl⟩ := h.map
  refine ⟨_, list, inside, rfl, ?_⟩
  rw [← Inner.leaving_lambda]
  cases body with
  | expression value => cases hbody
  | statement only =>
    obtain rfl := Option.some.inj hbody
    obtain ⟨output, houtput, hinside⟩ := hinside.bind
    have hconverts : (Inner.at setting levels).Converts _ [only] output :=
      ⟨[output], .cons houtput .nil, (append_nil _).symm⟩
    split at hinside
    · obtain rfl := hinside.pure
      exact hconverts.leavesAs
    · obtain rfl := hinside.pure
      exact hconverts.leavesAs
  | block block =>
    obtain rfl := Option.some.inj hbody
    obtain ⟨_, houtput, rfl⟩ := hinside.map
    exact houtput.converts.leavesAs

end Bodies

/-- **Exits fit their bodies.** The bodies of a declaration become the bodies of its members, one
for one, and each `Exit` from the whole body, at any depth of its blocks, becomes one statement: in
an iterator `yield break`, in the body of a function, an operator or a reading accessor a `return`
with a value, in any other body a plain `return`. So it is in a lambda, with one exception: a
`Function` lambda that is no iterator is left with a value if and only if the model knows the type
of the value, and otherwise by a plain `return`. -/
theorem exits_fit_their_bodies (setting : Setting) (levels : Nat) (place : Surroundings) :
    let inner := Inner.at setting levels
    (∀ declaration members, (inner.declaration declaration place).1 = .ok members →
      Forall₂ (IsLeft setting) declaration.kind.bodies (members.flatMap Member.bodies)) ∧
    ∀ allowed id kind modifiers parameters asClause body statements converted,
      Source.Node.body? (.expr (.lambda id kind modifiers parameters asClause body)) =
        some statements →
      (inner.expr allowed (.lambda id kind modifiers parameters asClause body) place).1 =
        .ok converted →
      ∃ isAsync list inside, converted = .lambda isAsync list inside ∧
        LeavesAs setting (inner.lambdaLeaving id kind modifiers asClause) statements
          inside.asStatements := by
  intro inner
  cases levels with
  | zero =>
    refine ⟨fun declaration members h => ?_, fun _ _ _ _ _ _ _ _ _ _ h => ?_⟩
    · exact absurd ⟨place, h⟩ Convert.not_gives_unsupported
    · exact absurd ⟨place, h⟩ Convert.not_gives_unsupported
  | succ levels =>
    refine ⟨fun declaration members h => ?_,
      fun allowed id kind modifiers parameters asClause body statements
      converted hbody h => ?_⟩
    · have hgives : (declaration.convertKind (Inner.at setting levels)).Gives members :=
        Convert.Gives.of_nested ⟨place, h⟩
      exact (hgives.bodies (Inner.settles_attributes setting levels)).imp fun _ _ hbody =>
        hbody.isLeft
    · have hgives :
        ((Inner.at setting levels).lambda id kind modifiers parameters asClause body).Gives
        converted :=
        Convert.Gives.of_nested ⟨place, h⟩
      have htable : inner.lambdaLeaving id kind modifiers asClause =
          (Inner.at setting levels).lambdaLeaving id kind modifiers asClause := by
        simp only [inner, Inner.lambdaLeaving, Inner.lambdaReturnType?, Inner.table,
          Inner.at_setting]
      rw [htable]
      exact Inner.lambda_leavesAs hbody hgives

/-- `Exit Function` in a loop gives the default value back. -/
theorem exit_from_a_loop_of_a_function :
    let exit : Source.Statement := ⟨3, .exit .function, {}⟩
    let declaration : Source.Declaration :=
      ⟨1, .method .function [] [] "F" [] [] none (some [⟨2, .while (.me 4) [exit], {}⟩]), {}⟩
    let left : List Statement := [.while .this (.return (some .null))]
    let member : Member := .method [] [.public] .object "F" [] [] [] (some left)
    ((Inner.at {} 3).declaration declaration {}).1 = .ok [member] ∧
      declaration.kind.bodies.map (·.leaving) = [.withValue] ∧
      Forall₂ (IsLeft {}) declaration.kind.bodies [left] := by
  intro exit declaration left member
  have hrun : ((Inner.at {} 3).declaration declaration {}).1 = .ok [member] := rfl
  exact ⟨hrun, rfl, (exits_fit_their_bodies {} 3 {}).1 declaration [member] hrun⟩

/-- `Exit Function` leaves a `Function` lambda of which the model knows nothing without a value. -/
theorem unknown_function_lambda_is_left_without_a_value :
    let lambda : Source.Expr := .lambda 1 .function [] [] none (.block [⟨2, .exit .function, {}⟩])
    ((Inner.at {} 2).expr true lambda {}).1 =
      .ok (.lambda false (.list []) (.block [.return none])) ∧
      Source.MethodKind.leaving false .function = .withValue ∧
        ¬Leaving.withValue.Fits (.return none) := by
  refine ⟨rfl, rfl, ?_⟩
  rintro ⟨value, hvalue⟩
  cases hvalue

end Sharpen
