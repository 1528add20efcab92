import Sharpen.Proofs.StatementOrder.Preorder

/-!
# The order of statements through the conversion

The main result is `statements_keep_their_order`: a walk over a converted body meets, stop by stop,
what the stops of the source become, and nothing else. One line of the table is `Image.ordered`; the
induction is on the levels of converters.
-/

namespace Sharpen

open List
open Source (Expr Stop StatementKind ElseIfBlock CaseBlock CatchBlock)
open Target (Statement)

/-! ## One after the other -/

/-- A list is put together from what the stops become, in their order. -/
def Follows (R : Stop → List Statement → Prop) (stops : List Stop) (met : List Statement) : Prop :=
  ∃ pieces, Forall₂ R stops pieces ∧ met = pieces.flatten

namespace Follows

variable {R : Stop → List Statement → Prop} {stop : Stop} {stops : List Stop}
  {piece met : List Statement}

theorem nil : Follows R [] [] :=
  ⟨[], .nil, rfl⟩

theorem cons (h : R stop piece) (hrest : Follows R stops met) :
    Follows R (stop :: stops) (piece ++ met) := by
  obtain ⟨pieces, hpieces, rfl⟩ := hrest
  exact ⟨piece :: pieces, .cons h hpieces, rfl⟩

theorem append {others : List Stop} {rest : List Statement} (h : Follows R stops met)
    (hothers : Follows R others rest) : Follows R (stops ++ others) (met ++ rest) := by
  obtain ⟨pieces, hpieces, rfl⟩ := h
  obtain ⟨more, hmore, rfl⟩ := hothers
  exact ⟨pieces ++ more, rel_append hpieces hmore, flatten_append.symm⟩

end Follows

/-! ## What is met for one stop -/

/-- What is met for a stop, by the table and by its sort. -/
structure Becomes (setting : Setting) (stop : Stop) (met : List Statement) : Prop where
  image : ∃ levels, Met (Inner.at setting levels) stop met
  sort : ∀ statement ∈ met, statement.sort? = stop.sort?
  single : stop.isSingle → met.length = 1

variable {inner : Inner} {body : Body}

variable {statements : List Source.Statement} {elseStatements : Option (List Source.Statement)}

theorem IfImage.sort {condition : Expr} {elseIfs : List ElseIfBlock} {converted : Statement}
    (h : IfImage inner body condition statements elseStatements elseIfs converted) :
    converted.sort? = some (.choice (!elseIfs.isEmpty || elseStatements.isSome)) := by
  cases h with
  | only => rfl
  | withElse => rfl
  | elseIf => rfl

theorem usings_resources (groups : List Target.Variables) (statements : List Statement) :
    let chain : Statement :=
      groups.foldr (fun group rest => .using (.declared group) rest) (.block statements)
    chain.preorder = chain.usings ++ Target.preorder statements ∧
      ∀ statement ∈ chain.usings, statement.sort? = some .using := by
  induction groups with
  | nil =>
    refine ⟨?_, forall_mem_nil _⟩
    simp only [foldr_nil, Statement.preorder, Statement.usings, nil_append]
  | cons group rest ih =>
    obtain ⟨hpreorder, hsort⟩ := ih
    refine ⟨?_, forall_mem_cons.mpr ⟨rfl, hsort⟩⟩
    rw [foldr_cons, Statement.preorder, hpreorder]
    rfl

variable {converted : List Statement}

theorem Image.sort {kind : StatementKind} (h : Image inner body kind converted) :
    (∀ statement ∈ kind.heads converted, statement.sort? = kind.sort?) ∧
      (kind.declaresMany = false → (kind.heads converted).length = 1) := by
  cases h with
  | localDeclaration =>
    exact ⟨forall_mem_map.mpr fun group _ => rfl, Bool.noConfusion⟩
  | usingVariables => exact ⟨(usings_resources _ _).2, Bool.noConfusion⟩
  | «with» => exact ⟨forall_mem_singleton.mpr rfl, fun _ => rfl⟩
  | expression h | call h =>
    obtain ⟨_, rfl⟩ := Inner.expressionStatement_gives h
    exact ⟨forall_mem_singleton.mpr rfl, fun _ => rfl⟩
  | @«return» _ converted =>
    refine ⟨forall_mem_singleton.mpr ?_, fun _ => rfl⟩
    cases converted with
    | none => cases hiterator : body.isIterator <;> simp only [Body.leaveWith, hiterator] <;> rfl
    | some converted => rfl
  | exit h =>
    refine ⟨forall_mem_singleton.mpr ?_, fun _ => rfl⟩
    obtain hleave | hleave := Body.exit_eq_ok h
    · obtain ⟨rfl, -⟩ := Body.leaveBlock_eq_ok hleave
      rfl
    · obtain rfl | ⟨_, rfl, -⟩ := Body.leave_eq_ok hleave
      · rfl
      · rfl
  | «continue» h =>
    obtain ⟨rfl, -⟩ := Body.resume_eq_ok h
    exact ⟨forall_mem_singleton.mpr rfl, fun _ => rfl⟩
  | singleLineIf h | multiLineIf h => exact ⟨forall_mem_singleton.mpr h.sort, fun _ => rfl⟩
  | select _ hcases =>
    refine ⟨forall_mem_singleton.mpr ?_, fun _ => rfl⟩
    exact congrArg (fun sections => some (StatementSort.switch sections)) hcases.length_eq.symm
  | «try» _ hcatches =>
    refine ⟨forall_mem_singleton.mpr ?_, fun _ => rfl⟩
    exact congrArg (fun catches => some (StatementSort.try catches false)) hcatches.length_eq.symm
  | tryFinally _ hcatches =>
    refine ⟨forall_mem_singleton.mpr ?_, fun _ => rfl⟩
    exact congrArg (fun catches => some (StatementSort.try catches true)) hcatches.length_eq.symm
  | _ => exact ⟨forall_mem_singleton.mpr rfl, fun _ => rfl⟩

theorem Met.becomes {setting : Setting} {levels : Nat} {stop : Stop} {met : List Statement}
    (h : Met (Inner.at setting levels) stop met) : Becomes setting stop met := by
  refine ⟨⟨levels, h⟩, ?_, ?_⟩
  · cases h with
    | statement h => exact h.sort.1
    | @elseIf _ block _ _ _ h =>
      obtain ⟨test, branch, elseBody, rfl⟩ := h.exists_if
      obtain ⟨_, heq, -⟩ := exists_branch_of_header block.trivia test branch elseBody
      rw [heq]
      exact forall_mem_singleton.mpr h.sort
    | caseEnd =>
      split
      · exact forall_mem_nil _
      · exact forall_mem_singleton.mpr rfl
  · intro hsingle
    cases h with
    | @statement _ _ _ h =>
      refine h.sort.2 ?_
      simpa [Stop.isSingle] using hsingle
    | elseIf => rfl
    | @caseEnd statements =>
      have hend : ¬ Source.endsInJump statements := by simpa [Stop.isSingle] using hsingle
      rw [if_neg hend]
      rfl

/-! ## The table -/

section Levels

variable {setting : Setting} {levels : Nat}

/-- What is met for a statement and those inside it. -/
def Inner.Orders (setting : Setting) (inner : Inner) (statement : Source.Statement) : Prop :=
  ∀ (body : Body) converted, (inner.statement body statement).Gives converted →
    Follows (Becomes setting) (.statement body statement :: statement.kind.preorder body)
      (Target.preorder converted)

theorem Inner.Converts.ordered (h : inner.Converts body statements converted)
    (hparts : ∀ part, inner.Orders setting part) :
    Follows (Becomes setting) (Source.preorder body statements) (Target.preorder converted) := by
  obtain ⟨_, hlists, rfl⟩ := h
  induction hlists with
  | nil =>
    rw [Source.preorder, flatten_nil, Target.preorder_nil]
    exact .nil
  | @cons statement _ _ _ hfirst _ ih =>
    cases statement
    rw [Source.preorder, flatten_cons, Target.preorder_eq_flatMap, flatMap_append,
      ← Target.preorder_eq_flatMap, ← Target.preorder_eq_flatMap]
    exact (hparts _ body _ hfirst).append ih

theorem IfImage.ordered {condition : Expr} {elseIfs : List ElseIfBlock} {converted : Statement}
    (h : IfImage (Inner.at setting levels) body condition statements elseStatements
      elseIfs converted)
    (hparts : ∀ part, (Inner.at setting levels).Orders setting part) :
    ∃ test branch elseBody, converted = .if test branch elseBody ∧
      Follows (Becomes setting) (Source.preorder body statements ++
        Source.elseIfPreorder body elseStatements elseIfs ++
          elseStatements.elim [] (Source.preorder body))
        (branch.preorder ++ elseBody.elim [] Statement.preorder) := by
  induction h with
  | only _ hbranch =>
    have hlist := hbranch.ordered hparts
    refine ⟨_, _, _, rfl, ?_⟩
    simpa [Target.preorder_thenBranch, Source.elseIfPreorder] using hlist
  | withElse _ hbranch helse =>
    have hlist := hbranch.ordered hparts
    have hother := helse.ordered hparts
    refine ⟨_, _, _, rfl, ?_⟩
    simpa [Target.preorder_thenBranch, Target.preorder_embedded, Source.elseIfPreorder]
      using hlist.append hother
  | @elseIf _ _ _ block _ _ _ _ _ hbranch hrest ih =>
    cases block
    have hlist := hbranch.ordered hparts
    obtain ⟨test, branch, elseBody, rfl, hinside⟩ := ih
    -- the comments of the header may put braces around the branch, which no walk sees
    obtain ⟨inside, heq, hsame⟩ := exists_branch_of_header _ test branch elseBody
    have hpreorder : inside.preorder = branch.preorder := hsame Target.preorderView
    have hnext := hinside.cons (Met.elseIf hrest).becomes
    rw [heq] at hnext
    refine ⟨_, _, _, rfl, ?_⟩
    simpa [Target.preorder_thenBranch, Source.elseIfPreorder, heq, Statement.preorder_if, hpreorder]
      using hlist.append hnext

theorem ordered_sections {cases : List CaseBlock} {sections : List Target.SwitchSection}
    (h : Forall₂ (SectionImage (Inner.at setting levels) body) cases sections)
    (hparts : ∀ part, (Inner.at setting levels).Orders setting part) :
    Follows (Becomes setting) (Source.casePreorder (body.inside .select) cases)
      (Target.sectionPreorder sections) := by
  induction h with
  | nil =>
    rw [Source.casePreorder, Target.sectionPreorder]
    exact .nil
  | @cons block converted rest others hfirst _ ih =>
    obtain ⟨_, -, hstatements, hconverted⟩ := hfirst
    obtain ⟨_, source⟩ := block
    obtain ⟨_, inside⟩ := converted
    have hend : Met (Inner.at setting levels) (.caseEnd source) _ := .caseEnd
    -- source and target agree on whether the end of the section is reached
    have hjump := (hstatements.routed (routes_at setting levels)).isJump
    rw [Source.casePreorder, Target.sectionPreorder, show inside = _ from hconverted,
      Target.preorder_eq_flatMap, flatMap_sectionBody Target.preorderView.block,
      ← Target.preorder_eq_flatMap, Target.preorder_attachHeader, lastIsJump_attachHeader, hjump,
      append_assoc]
    exact (hstatements.ordered hparts).append (ih.cons hend.becomes)

theorem ordered_catches {catches : List CatchBlock} {clauses : List Target.CatchClause}
    (h : Forall₂ (CatchImage inner body) catches clauses)
    (hparts : ∀ part, inner.Orders setting part) :
    Follows (Becomes setting) (Source.catchPreorder body catches)
      (Target.catchPreorder clauses) := by
  induction h with
  | nil =>
    rw [Source.catchPreorder, Target.catchPreorder]
    exact .nil
  | @cons block converted rest others hfirst _ ih =>
    obtain ⟨_, -, -, hstatements, hconverted⟩ := hfirst
    cases block
    obtain ⟨_, _, inside⟩ := converted
    rw [Source.catchPreorder, Target.catchPreorder, show inside = _ from hconverted,
      Target.preorder_attachHeader]
    exact (hstatements.ordered hparts).append ih

/-- A statement that becomes one, with those inside it behind it. -/
theorem Image.ordered_single {statement : Source.Statement} {single : Statement}
    {inside : List Statement} (h : Image (Inner.at setting levels) body statement.kind [single])
    (hhead : statement.kind.heads [single] = [single])
    (hsingle : single.preorder = single :: inside)
    (hinside : Follows (Becomes setting) (statement.kind.preorder body) inside) :
    Follows (Becomes setting) (.statement body statement :: statement.kind.preorder body)
      (Target.preorder [single]) := by
  have hstop := hinside.cons (Met.statement h).becomes
  rw [hhead] at hstop
  rw [Target.preorder_cons, Target.preorder_nil, append_nil, hsingle]
  exact hstop

/-- Nothing is met inside a simple statement. -/
theorem preorder_simple {kind : StatementKind} {single : Statement} (hsingle : single.isSimple)
    (hkind : kind.isSimple) :
    single.preorder = [single] ∧ kind.preorder body = [] ∧ kind.heads [single] = [single] := by
  refine ⟨?_, ?_⟩
  · cases single with
    | expression | «return» | yieldReturn | yieldBreak | «break» | «continue» | throw => rfl
    | _ => cases hsingle
  · cases kind with
    | expression | call | assignment | «return» | exit | «continue» | throw | yield | raiseEvent
    | addHandler | removeHandler | stop | «end» => exact ⟨rfl, rfl⟩
    | _ => cases hkind

/-- **One level**: a walk over what a statement becomes meets its image, and then those of its
parts. -/
theorem Image.ordered {statement : Source.Statement}
    (h : Image (Inner.at setting levels) body statement.kind converted)
    (hparts : ∀ part, (Inner.at setting levels).Orders setting part) :
    Follows (Becomes setting) (.statement body statement :: statement.kind.preorder body)
      (Target.preorder converted) := by
  obtain ⟨_, kind⟩ := statement
  -- `h` is taken apart below; the stop for the statement itself needs it whole
  have himage := h
  change Image _ _ kind _ at h
  by_cases hsimple : kind.isSimple
  · obtain ⟨_, rfl, hsingle⟩ := h.exists_simple hsimple
    obtain ⟨hpreorder, hkind⟩ := preorder_simple hsingle hsimple
    exact himage.ordered_single hkind.2 hpreorder (hkind.1 ▸ .nil)
  cases h with
  | localDeclaration =>
    have hstop := Follows.nil.cons (Met.statement himage).becomes
    rw [append_nil] at hstop
    rw [Target.preorder_declarations]
    exact hstop
  | @singleLineIf _ statements elseStatements _ h =>
    obtain ⟨_, _, _, rfl, hinside⟩ := h.ordered hparts
    refine himage.ordered_single rfl (Statement.preorder_if ..) ?_
    cases elseStatements with
    | none | some elseStatements =>
      simpa [StatementKind.preorder, Source.elseIfPreorder] using hinside
  | @multiLineIf _ _ _ elseStatements _ h =>
    obtain ⟨_, _, _, rfl, hinside⟩ := h.ordered hparts
    refine himage.ordered_single rfl (Statement.preorder_if ..) ?_
    cases elseStatements with
    | none | some elseStatements => simpa [StatementKind.preorder] using hinside
  | «for» _ _ _ hbody | forEach _ _ hbody | «while» _ hbody | doFirst _ hbody | doForever hbody =>
    refine himage.ordered_single rfl rfl ?_
    rw [Target.preorder_embedded]
    exact hbody.ordered hparts
  | doLast _ hbody | syncLock _ hbody | usingValue _ hbody =>
    refine himage.ordered_single rfl rfl ?_
    rw [Statement.preorder_block]
    exact hbody.ordered hparts
  | select _ hcases => exact himage.ordered_single rfl rfl (ordered_sections hcases hparts)
  | «with» _ hbody =>
    -- the braces are passed over, so the declaration that opens them comes first
    have hstop := (hbody.ordered hparts).cons (Met.statement himage).becomes
    rw [Target.preorder_cons, Target.preorder_nil, append_nil, Statement.preorder_block,
      Target.preorder_cons]
    exact hstop
  | «try» hbody hcatches =>
    refine himage.ordered_single rfl rfl ?_
    exact (hbody.ordered hparts).append (ordered_catches hcatches hparts)
  | tryFinally hbody hcatches hlast =>
    have hinside := (hbody.ordered hparts).append (ordered_catches hcatches hparts)
    exact himage.ordered_single rfl rfl (hinside.append (hlast.ordered hparts))
  | usingVariables _ hbody =>
    have hstop := (hbody.ordered hparts).cons (Met.statement himage).becomes
    rw [Target.preorder_cons, Target.preorder_nil, append_nil, (usings_resources _ _).1]
    exact hstop
  | _ => exact absurd rfl hsimple

end Levels

/-! ## Whole bodies -/

theorem orders_at (setting : Setting) (levels : Nat) :
    ∀ statement, (Inner.at setting levels).Orders setting statement := by
  refine Inner.statement_induction (fun himage ih => ?_) levels
  -- a walk passes over the comments of the statement
  rw [Target.preorder_eq_flatMap, Target.preorderView.flatMap_attachStatements,
    ← Target.preorder_eq_flatMap]
  exact himage.ordered ih

/-- A body and what it becomes: the same statements in the same order. The empty statements, which
the walk passes over, have comments to carry. -/
structure SameOrder (setting : Setting) (body : Body) (source : List Source.Statement)
    (output : List Statement) : Prop where
  order : Follows (Becomes setting) (Source.preorder body source) (Target.preorder output)
  ne_empty : .empty ∉ output
  emptyCommented : ∀ statement ∈ output, statement.Everywhere fun outer =>
    .empty ∈ outer.statements → ∃ trivia, outer = .commented trivia .empty

theorem Inner.Converts.sameOrder {setting : Setting} {levels : Nat} {body : Body}
    {source : List Source.Statement} {output : List Statement}
    (h : (Inner.at setting levels).Converts body source output) :
    SameOrder setting body source output where
  order := h.ordered (orders_at setting levels)
  ne_empty hempty := (h.sound _ hempty).ne_empty rfl
  emptyCommented statement hstatement :=
    (h.sound statement hstatement).everywhere.mono fun _ hplaced => hplaced.emptyCommented

/-- A walk over a converted body meets, in the same order, what the stops of a walk over its source
become, and nothing else. The same holds of the body of every lambda inside it. -/
theorem statements_keep_their_order {setting : Setting} {body : Body}
    {source : List Source.Statement} {surroundings : Surroundings} {output : List Statement}
    (h : (convertStatements setting body source surroundings).1 = .ok output) :
    SameOrder setting body source output ∧ ∀ statement ∈ output,
      (Target.Node.statement statement).EachBody fun block =>
        ∃ part ∈ source, ∃ statements inside, (Source.Node.statement part).HasBody statements ∧
          SameOrder setting inside statements block := by
  obtain ⟨_, hconverts⟩ := converts_of_convertStatements h
  refine ⟨hconverts.sameOrder, fun statement hstatement block hblock => ?_⟩
  obtain ⟨part, hpart, statements, hbody, _, inside, -, hinside⟩ :=
    hconverts.bodies_from statement hstatement block hblock
  exact ⟨part, hpart, statements, inside, hbody, hinside.sameOrder⟩

/-- An `If` with an `ElseIf` in a `Case`: two `if` statements, and a `break` behind them. -/
theorem order_inside_a_choice :
    let source : List Source.Statement :=
      [⟨1, .select (.me 2) [⟨[.else], [⟨3, .multiLineIf (.me 4) [⟨5, .throw none, {}⟩]
        [⟨.myBase 6, [⟨7, .return none, {}⟩], {}⟩] (some [⟨8, .stop, {}⟩]), {}⟩], {}⟩], {}⟩]
    let body : Body := ⟨.procedure, false, []⟩
    let stopped := Inner.runtimeCall "System.Diagnostics.Debugger.Break" []
    let second : Statement := .if .base (.return none) (some stopped)
    let first : Statement := .if .this (.throw none) (some second)
    let output : List Statement := [.switch .this [⟨[none], [first, .break]⟩]]
    (convertStatements {} body source {}).1 = .ok output ∧
      (Source.preorder body source).map Stop.sort? =
        [some (.switch 1), some (.choice true), some .jump, some (.choice true), some .jump,
          some .expression, some .jump] ∧
      Target.preorder output = output ++ [first, .throw none, second, .return none,
        stopped, .break] ∧
      SameOrder {} body source output := by
  intro source body stopped second first output
  have hrun : (convertStatements {} body source {}).1 = .ok output := by rfl
  exact ⟨hrun, rfl, rfl, (statements_keep_their_order hrun).1⟩

end Sharpen
