import Sharpen.Proofs.Comments
import Sharpen.Proofs.Correspondence.Levels
import Sharpen.Proofs.LambdaBodies.Expression
import Sharpen.Proofs.StatementImage

/-!
# Where the lambda bodies of a converted statement come from

Every lambda with a block in a converted tree is the image of a lambda of the source: its block is
what the converters of some level give for the statements of that lambda, in a body of their own
(`BodyFrom`). The main result is `bodies_from`, by induction on the levels of the converters.
-/

namespace Sharpen

open List
open Source (Expr Statement StatementKind)
open Target (Node EachLambdaOf)

variable {P : List Target.Statement → Prop} {inner : Inner} {body : Body}
variable {source : List Source.Statement} {statements : List Statement}
  {output : List Target.Statement}
  {setting : Setting} {test : Target.Expr} {converted : Target.Statement} {trivia : Trivia}

/-! ## Statements that rules put around others -/

/-- The lambda bodies in a statement have a property. -/
abbrev Target.Statement.EachLambda (P : List Target.Statement → Prop)
    (statement : Target.Statement) : Prop :=
  (Node.statement statement).EachLambda P

/-- The lambda bodies in a list of statements have a property. -/
def EachLambdaIn (P : List Target.Statement → Prop) (statements : List Target.Statement) : Prop :=
  ∀ statement ∈ statements, statement.EachLambda P

/-- A statement is made of its terms and the statements in it. -/
theorem Target.Node.EachLambda.statement {node : Target.Statement}
    (hterms : EachLambdaOf P node.terms) (hstatements : EachLambdaIn P node.statements) :
    node.EachLambda P :=
  .around rfl (hterms.append (.map hstatements))

namespace EachLambdaIn

variable {statements others : List Target.Statement} {first : Target.Statement}

theorem nil : EachLambdaIn P [] :=
  forall_mem_nil _

theorem cons (h : first.EachLambda P) (hothers : EachLambdaIn P others) :
    EachLambdaIn P (first :: others) :=
  forall_mem_cons.mpr ⟨h, hothers⟩

theorem one (h : first.EachLambda P) : EachLambdaIn P [first] :=
  .cons h .nil

theorem append (h : EachLambdaIn P statements) (hothers : EachLambdaIn P others) :
    EachLambdaIn P (statements ++ others) :=
  forall_mem_append.mpr ⟨h, hothers⟩

/-- A block around statements. -/
theorem block (h : EachLambdaIn P statements) : (Target.Statement.block statements).EachLambda P :=
  .statement .nil h

/-- The body of another statement, with or without braces. -/
theorem embedded (h : EachLambdaIn P statements) : (embedded statements).EachLambda P := by
  unfold Sharpen.embedded
  split
  · exact h.block
  · exact h.block
  · exact h _ (mem_singleton_self _)
  · exact h.block

/-- The branch of an `if`, in braces where an `else` could be taken for its own. -/
theorem thenBranch (hasElse : Bool) (h : EachLambdaIn P statements) :
    (thenBranch hasElse statements).EachLambda P := by
  unfold Sharpen.thenBranch
  split
  · next heq =>
    have hbranch := h.embedded
    rw [heq] at hbranch
    split
    · exact block (.one hbranch)
    · exact hbranch
  · exact h.embedded

end EachLambdaIn

/-- Comments have no lambdas. -/
theorem Target.Statement.eachLambda_commented {inner : Target.Statement} :
    (Target.Statement.commented trivia inner).EachLambda P ↔ inner.EachLambda P :=
  ⟨fun h => h.of_mem_parts (mem_singleton_self _), fun h => .statement .nil (.one h)⟩

/-- So a statement can be looked at without them. -/
theorem Target.Statement.eachLambda_uncommented {statement : Target.Statement} :
    statement.uncommented.EachLambda P ↔ statement.EachLambda P := by
  fun_induction Target.Statement.uncommented statement with
  | case1 _ _ ih => rw [ih, eachLambda_commented]
  | case2 => rfl

namespace EachLambdaIn

variable {statements others : List Target.Statement}

/-- Statements that differ in comments only have the same lambdas. -/
theorem of_map_uncommented
    (heq : others.map Target.Statement.uncommented = statements.map Target.Statement.uncommented)
    (h : EachLambdaIn P statements) : EachLambdaIn P others := by
  intro statement hstatement
  have hmem := heq ▸ mem_map_of_mem hstatement
  obtain ⟨original, horiginal, hsame⟩ := mem_map.mp hmem
  rw [← Target.Statement.eachLambda_uncommented, ← hsame, Target.Statement.eachLambda_uncommented]
  exact h original horiginal

/-- Comments around converted statements. -/
theorem attachStatements (h : EachLambdaIn P statements) :
    EachLambdaIn P (attachStatements trivia statements) :=
  h.of_map_uncommented (map_uncommented_attachStatements trivia statements)

/-- Comments of a header that go into its block. -/
theorem attachHeader (h : EachLambdaIn P statements) :
    EachLambdaIn P (attachHeader trivia statements) := by
  cases statements with
  | cons first rest =>
    exact h.of_map_uncommented (map_uncommented_attachHeader trivia (cons_ne_nil first rest))
  | nil =>
    obtain hnil | ⟨_, hempty⟩ := attachHeader_nil trivia
    · rw [hnil]
      exact h
    · rw [hempty]
      exact .one (Target.Statement.eachLambda_commented.mpr (.leaf rfl rfl))

/-- The statements of a section, with the `break` at their end. -/
theorem sectionBody (h : EachLambdaIn P statements) : EachLambdaIn P (sectionBody statements) := by
  have hended : EachLambdaIn P (endedCase statements) := by
    unfold endedCase
    split
    · exact h
    · exact h.append (.one (.leaf rfl rfl))
  obtain heq | heq := sectionBody_eq statements
  · rw [heq]
    exact .one hended.block
  · rw [heq]
    exact hended

end EachLambdaIn

/-! ## Statements -/

/-- The lambda bodies in whatever the statement is converted to have the property. -/
def Inner.StatementBodies (P : List Target.Statement → Prop) (inner : Inner)
    (statement : Statement) : Prop :=
  ∀ body, (inner.statement body statement).Ensures (EachLambdaIn P)

/-- Statements that are converted one by one. -/
theorem Inner.Converts.eachLambda {converted : List Target.Statement}
    (h : inner.Converts body statements converted)
    (hstatements : ∀ part ∈ statements, inner.StatementBodies P part) : EachLambdaIn P converted :=
  h.forall_mem fun part hpart => hstatements part hpart body

/-- The type of a loop variable has no lambdas. -/
theorem Source.AsClause.ensures_loopType (P : List Target.Statement → Prop)
    (clause : Source.AsClause) :
    (Convert.ofExcept clause.loopType).Ensures (·.EachLambda P) := by
  refine .ofExcept fun type h => ?_
  unfold Source.AsClause.loopType at h
  split at h
  · exact Source.TypeSyntax.eachLambda _ h
  · obtain rfl := Except.ok.inj h
    exact .leaf rfl rfl

/-- A `for` starts with what its variable is set to. -/
theorem Inner.ensures_forOpening {id : Source.NodeId} {control : Source.LoopControl} {start : Expr}
    (hcontrol : inner.BodiesIn P control.exprs) (hstart : inner.Bodies P start) :
    (inner.forOpening id control start).Ensures fun (counter, opening) =>
      counter.EachLambda P ∧ EachLambdaOf P opening.parts := by
  unfold Inner.forOpening
  split
  · next asClause _ =>
    refine (asClause.ensures_loopType P).bind fun type htype =>
      (hstart true).map fun first hfirst => ?_
    exact ⟨.leaf rfl rfl, .cons htype (.one hfirst)⟩
  · exact .unsupported
  · refine (forall_mem_singleton.mp hcontrol true).bind fun assigned hassigned => ?_
    refine (hstart true).bind fun first hfirst => ?_
    have hassignment : EachLambdaOf P [.expr (.assignment assigned .simple first)] :=
      .one (.around rfl (.cons hassigned (.one hfirst)))
    split
    · split
      · exact .pure ⟨hassigned, hassignment⟩
      · exact .pure ⟨hassigned, .cons (.leaf rfl rfl) (.one hfirst)⟩
    · exact .pure ⟨hassigned, hassignment⟩

/-- The step of a `for`. -/
theorem Inner.ensures_forStep {counter : Target.Expr} {step : Option Expr}
    (hcounter : counter.EachLambda P) (hstep : inner.BodiesIn P step.toList) :
    (inner.forStep counter step).Ensures (·.2.EachLambda P) := by
  cases step with
  | none => exact .pure (.around rfl (.one hcounter))
  | some step =>
    exact (forall_mem_singleton.mp hstep true).map fun _ hvalue =>
      .around rfl (.cons hcounter (.one hvalue))

theorem Inner.ensures_forEachVariable (P : List Target.Statement → Prop)
    (control : Source.LoopControl) :
    (Inner.forEachVariable control).Ensures (·.1.EachLambda P) := by
  unfold Inner.forEachVariable
  split
  · exact (Source.AsClause.ensures_loopType P _).map fun _ => id
  · exact .unsupported
  · exact .pure (.leaf rfl rfl)
  · exact .unsupported

variable {condition : Expr}

/-- The test of a loop, negated behind `Until`. -/
theorem Inner.ensures_goesOn {kind : Source.TestKind} (hcondition : inner.Bodies P condition) :
    (inner.goesOn kind condition).Ensures (·.EachLambda P) := by
  refine (hcondition true).bind fun value hvalue => ?_
  cases kind with
  | «while» => exact .pure hvalue
  | «until» => exact .pure (.around rfl (.one hvalue))

/-- The labels of a section. -/
theorem Inner.ensures_switchLabel {clause : Source.CaseClause}
    (hexprs : inner.BodiesIn P clause.exprs) :
    (inner.switchLabel clause).Ensures fun label => EachLambdaOf P (label.toList.map .expr) := by
  cases clause with
  | simple => exact (forall_mem_singleton.mp hexprs true).map fun _ => .one
  | «else» => exact .pure .nil
  | relational | range => exact .unsupported

/-- The type that a `catch` names has no lambdas. -/
theorem Inner.ensures_catchHeader (P : List Target.Statement → Prop) (block : Source.CatchBlock) :
    (inner.catchHeader block).Ensures fun header => EachLambdaOf P header.parts := by
  unfold Inner.catchHeader
  split
  · exact .pure .nil
  · exact (Source.TypeSyntax.ensures_eachLambda P _).map fun _ => .one
  · refine .pure (.one ?_)
    split
    · exact Model.TypeSymbol.eachLambda_written _
    · exact Target.TypeSyntax.eachLambda_dotted _

variable {elseBody : Option Target.Statement}

theorem Target.Statement.eachLambda_if {branch : Target.Statement} (htest : test.EachLambda P)
    (hbranch : branch.EachLambda P) (helse : EachLambdaIn P elseBody.toList) :
    (Target.Statement.if test branch elseBody).EachLambda P :=
  .statement (.one htest) (.cons hbranch helse)

variable {elseStatements : Option (List Statement)} {elseIfs : List Source.ElseIfBlock}

/-- What an `If` becomes is an `if`. -/
theorem IfImage.exists_if
    (h : IfImage inner body condition statements elseStatements elseIfs converted) :
    ∃ test branch elseBody, converted = .if test branch elseBody := by
  cases h with
  | only | withElse | elseIf => exact ⟨_, _, _, rfl⟩

/-- Comments of a header that go into a branch. -/
theorem eachLambda_headerIntoBranch {branch : Target.Statement}
    (h : (Target.Statement.if test branch elseBody).EachLambda P) :
    (headerIntoBranch trivia (.if test branch elseBody)).EachLambda P := by
  obtain ⟨-, heq⟩ | ⟨-, inside, hinside, heq⟩ := headerIntoBranch_if trivia test branch elseBody
  · rw [heq]
    exact h
  have hparts : EachLambdaOf P (Node.statement (.if test branch elseBody)).parts :=
    fun part => h.of_mem_parts
  obtain ⟨hterms, hstatements⟩ := forall_mem_append.mp hparts
  obtain ⟨hbranch, helse⟩ := forall_mem_cons.mp (forall_mem_map.mp hstatements)
  have hlist : EachLambdaIn P inside := by
    obtain rfl | rfl := hinside
    · exact fun statement hstatement => hbranch.of_mem_parts (mem_map_of_mem hstatement)
    · exact .one hbranch
  rw [heq]
  exact Target.Statement.eachLambda_if (hterms _ (mem_singleton_self _))
    hlist.attachHeader.block helse

/-- The branches of an `If`, one `if` in the other. -/
theorem IfImage.eachLambda
    (h : IfImage inner body condition statements elseStatements elseIfs converted)
    (hexprs : inner.BodiesIn P (condition :: elseIfs.map (·.condition)))
    (hstatements : ∀ part ∈ statements ++ elseIfs.flatMap (·.statements) ++ elseStatements.getD [],
      inner.StatementBodies P part) : converted.EachLambda P := by
  induction h with
  | only htest hbranch =>
    obtain ⟨hcondition, -⟩ := forall_mem_cons.mp hexprs
    obtain ⟨hstatements, -⟩ := forall_mem_append.mp hstatements
    obtain ⟨hstatements, -⟩ := forall_mem_append.mp hstatements
    exact Target.Statement.eachLambda_if (hcondition true _ htest)
      ((hbranch.eachLambda hstatements).thenBranch false) .nil
  | withElse htest hbranch helse =>
    obtain ⟨hcondition, -⟩ := forall_mem_cons.mp hexprs
    obtain ⟨hstatements, helseStatements⟩ := forall_mem_append.mp hstatements
    obtain ⟨hstatements, -⟩ := forall_mem_append.mp hstatements
    exact Target.Statement.eachLambda_if (hcondition true _ htest)
      ((hbranch.eachLambda hstatements).thenBranch true)
        (.one (helse.eachLambda helseStatements).embedded)
  | elseIf htest hbranch hrest ih =>
    obtain ⟨hcondition, hexprs⟩ := forall_mem_cons.mp hexprs
    obtain ⟨hstatements, helseStatements⟩ := forall_mem_append.mp hstatements
    obtain ⟨hstatements, hblocks⟩ := forall_mem_append.mp hstatements
    rw [flatMap_cons] at hblocks
    have hchained := ih hexprs (forall_mem_append.mpr ⟨hblocks, helseStatements⟩)
    obtain ⟨_, _, _, rfl⟩ := hrest.exists_if
    exact Target.Statement.eachLambda_if (hcondition true _ htest)
      ((hbranch.eachLambda hstatements).thenBranch true)
        (.one (eachLambda_headerIntoBranch hchained))

/-- A statement alone. -/
theorem EachLambdaIn.singleton {node : Target.Statement} (hterms : EachLambdaOf P node.terms)
    (hstatements : EachLambdaIn P node.statements) : EachLambdaIn P [node] :=
  .one (.statement hterms hstatements)

/-- A statement made of one expression. -/
theorem EachLambdaIn.expression {value : Target.Expr} (h : value.EachLambda P) :
    EachLambdaIn P [.expression value] :=
  .singleton (.one h) .nil

/-- An assignment. -/
theorem EachLambdaIn.assignment {assigned value : Target.Expr}
    {operator : Target.AssignmentOperator} (hassigned : assigned.EachLambda P)
    (hvalue : value.EachLambda P) :
    EachLambdaIn P [.expression (.assignment assigned operator value)] :=
  .expression (.around rfl (.cons hassigned (.one hvalue)))

/-- A statement made of one expression. -/
theorem Inner.ensures_expressionStatement {value : Expr} (hvalue : inner.Bodies P value) :
    (inner.expressionStatement value).Ensures fun converted => EachLambdaIn P [converted] := by
  refine (hvalue true).bind fun result hresult => ?_
  dsimp only
  split
  · exact .pure (.expression (.around rfl (.one hresult)))
  · exact .pure (.expression hresult)

/-- A body is left with the value that is given. -/
theorem Body.eachLambda_leaveWith {value : Option Target.Expr}
    (h : EachLambdaOf P (value.toList.map .expr)) :
    EachLambdaIn P [body.leaveWith value] := by
  unfold Body.leaveWith
  split
  · exact .singleton h .nil
  · split
    · exact .singleton .nil .nil
    · exact .singleton .nil .nil

/-- A block or body is left without a lambda. -/
theorem Body.eachLambda_exit {block : Source.BlockKind} (h : body.exit block = .ok converted) :
    EachLambdaIn P [converted] := by
  obtain h | h := Body.exit_eq_ok h
  · obtain ⟨rfl, -⟩ := Body.leaveBlock_eq_ok h
    exact .singleton .nil .nil
  · obtain rfl | ⟨_, rfl, hvalue⟩ := Body.leave_eq_ok h
    · exact .singleton .nil .nil
    · refine .singleton (.map fun result hresult => ?_) .nil
      obtain rfl | ⟨type, htype⟩ := hvalue result (Option.mem_toList.mp hresult)
      · exact eachLambda_unknownDefault
      · exact type.eachLambda_defaultValue htype

/-- The blocks that catch exceptions. -/
theorem eachLambda_catches {catches : List Source.CatchBlock} {clauses : List Target.CatchClause}
    (h : Forall₂ (CatchImage inner body) catches clauses)
    (hexprs : inner.BodiesIn P (catches.flatMap fun block => block.filter.toList))
    (hstatements : ∀ part ∈ catches.flatMap (·.statements), inner.StatementBodies P part) :
    EachLambdaOf P (clauses.flatMap fun clause => clause.header.parts ++
      clause.filter.toList.map .expr) ∧
      EachLambdaIn P (clauses.flatMap (·.body)) := by
  refine ⟨.flatMap fun clause hclause => ?_, forall_mem_flatMap.mpr fun clause hclause => ?_⟩
  · obtain ⟨block, hblock, _, hheader, hfilter, -, -⟩ := h.exists_left hclause
    refine .append (Inner.ensures_catchHeader P block _ hheader) ?_
    exact Inner.Bodies.value? (forall_mem_flatMap.mp hexprs block hblock) _ hfilter
  · obtain ⟨block, hblock, _, -, -, hconverts, hbody⟩ := h.exists_left hclause
    rw [hbody]
    exact (hconverts.eachLambda (forall_mem_flatMap.mp hstatements block hblock)).attachHeader

/-- The sections of a `switch`. -/
theorem eachLambda_sections {cases : List Source.CaseBlock} {sections : List Target.SwitchSection}
    (h : Forall₂ (SectionImage inner body) cases sections)
    (hexprs : inner.BodiesIn P (cases.flatMap fun block =>
      block.clauses.flatMap Source.CaseClause.exprs))
    (hstatements : ∀ part ∈ cases.flatMap (·.statements), inner.StatementBodies P part) :
    EachLambdaOf P (sections.flatMap fun part => part.labels.flatMap fun label =>
      label.toList.map .expr) ∧
      EachLambdaIn P (sections.flatMap (·.statements)) := by
  refine ⟨.flatMap fun part hpart => .flatMap fun label hlabel => ?_,
    forall_mem_flatMap.mpr fun part hpart => ?_⟩
  · obtain ⟨block, hblock, _, hlabels, -, -⟩ := h.exists_left hpart
    obtain ⟨clause, hclause, hgives⟩ := hlabels.exists_left hlabel
    have hclauses := forall_mem_flatMap.mp hexprs block hblock
    exact Inner.ensures_switchLabel (forall_mem_flatMap.mp hclauses clause hclause) _ hgives
  · obtain ⟨block, hblock, _, -, hconverts, hbody⟩ := h.exists_left hpart
    rw [hbody]
    exact (hconverts.eachLambda
      (forall_mem_flatMap.mp hstatements block hblock)).attachHeader.sectionBody

/-- **Statements**: the lambda bodies in what a statement becomes come from the parts of the
statement. -/
theorem Image.eachLambda {kind : StatementKind} {converted : List Target.Statement}
    (h : Image inner body kind converted) (hexprs : inner.BodiesIn P kind.exprs)
    (hstatements : ∀ part ∈ kind.statements, inner.StatementBodies P part) :
    EachLambdaIn P converted := by
  cases h with
  | localDeclaration hdeclared =>
    refine forall_mem_map.mpr fun group hgroup => ?_
    exact .statement (Inner.Bodies.variableLists hexprs _ hdeclared group hgroup) .nil
  | expression hvalue | call hvalue =>
    exact Inner.ensures_expressionStatement (forall_mem_singleton.mp hexprs) _ hvalue
  | assignment hleft hright =>
    obtain ⟨hassigned, hrest⟩ := forall_mem_cons.mp hexprs
    exact .assignment (hassigned true _ hleft) (forall_mem_singleton.mp hrest true _ hright)
  | «return» hvalue => exact Body.eachLambda_leaveWith (Inner.Bodies.value? hexprs _ hvalue)
  | exit hexit => exact Body.eachLambda_exit hexit
  | «continue» hresume =>
    obtain ⟨rfl, -⟩ := Body.resume_eq_ok hresume
    exact .singleton .nil .nil
  | throw hvalue => exact .singleton (Inner.Bodies.value? hexprs _ hvalue) .nil
  | yield hvalue => exact .singleton (.one (forall_mem_singleton.mp hexprs true _ hvalue)) .nil
  | raiseEvent harguments =>
    have hcall : (Target.Expr.invocation (.memberBinding "Invoke") _).EachLambda P :=
      .around rfl (.cons (.leaf rfl rfl) (Inner.Bodies.arguments hexprs _ harguments))
    exact .expression (.around rfl (.cons (.leaf rfl rfl) (.one hcall)))
  | addHandler hevent hhandler | removeHandler hevent hhandler =>
    obtain ⟨hassigned, hrest⟩ := forall_mem_cons.mp hexprs
    exact .assignment (hassigned true _ hevent) (forall_mem_singleton.mp hrest true _ hhandler)
  | singleLineIf hif =>
    refine .one (hif.eachLambda hexprs ?_)
    rw [flatMap_nil, append_nil]
    exact hstatements
  | multiLineIf hif => exact .one (hif.eachLambda hexprs hstatements)
  | «for» hopening hlimit hstep hbody =>
    obtain ⟨hcontrol, hrest⟩ := forall_mem_append.mp hexprs
    obtain ⟨hstart, hrest⟩ := forall_mem_cons.mp hrest
    obtain ⟨hlast, hsteps⟩ := forall_mem_cons.mp hrest
    obtain ⟨hcounter, hparts⟩ := Inner.ensures_forOpening hcontrol hstart _ hopening
    have hincrement := Inner.ensures_forStep hcounter hsteps _ hstep
    refine .singleton (.append (.append hparts (.one ?_)) (.one hincrement)) ?_
    · exact Inner.eachLambda_binary hcounter (hlast true _ hlimit)
    · exact .one (hbody.eachLambda hstatements).embedded
  | forEach hvariable hitems hbody =>
    obtain ⟨-, hrest⟩ := forall_mem_append.mp hexprs
    have hitems := forall_mem_singleton.mp hrest true _ hitems
    have htype := Inner.ensures_forEachVariable P _ _ hvariable
    exact .singleton (.cons htype (.one hitems)) (.one (hbody.eachLambda hstatements).embedded)
  | «while» htest hbody =>
    have htest := forall_mem_singleton.mp hexprs true _ htest
    exact .singleton (.one htest) (.one (hbody.eachLambda hstatements).embedded)
  | doFirst htest hbody =>
    have htest := Inner.ensures_goesOn (forall_mem_singleton.mp hexprs) _ htest
    exact .singleton (.one htest) (.one (hbody.eachLambda hstatements).embedded)
  | doLast htest hbody =>
    have htest := Inner.ensures_goesOn (forall_mem_singleton.mp hexprs) _ htest
    exact .singleton (.one htest) (.one (hbody.eachLambda hstatements).block)
  | doForever hbody =>
    exact .singleton (.one (.leaf rfl rfl)) (.one (hbody.eachLambda hstatements).embedded)
  | select hsubject hcases =>
    obtain ⟨hvalue, hclauses⟩ := forall_mem_cons.mp hexprs
    obtain ⟨hlabels, hsections⟩ := eachLambda_sections hcases hclauses hstatements
    exact .singleton (.cons (hvalue true _ hsubject) hlabels) hsections
  | «with» htarget hbody =>
    have hvalue := forall_mem_singleton.mp hexprs true _ htarget
    refine .singleton .nil (.cons ?_ (hbody.eachLambda hstatements))
    exact .statement (.cons (.leaf rfl rfl) (.one hvalue)) .nil
  | «try» hbody hcatches =>
    obtain ⟨hstatements, -⟩ := forall_mem_append.mp hstatements
    obtain ⟨hstatements, hblocks⟩ := forall_mem_append.mp hstatements
    obtain ⟨hterms, hclauses⟩ := eachLambda_catches hcatches hexprs hblocks
    exact .singleton hterms (((hbody.eachLambda hstatements).append hclauses).append .nil)
  | tryFinally hbody hcatches hlast =>
    obtain ⟨hstatements, hfinally⟩ := forall_mem_append.mp hstatements
    obtain ⟨hstatements, hblocks⟩ := forall_mem_append.mp hstatements
    obtain ⟨hterms, hclauses⟩ := eachLambda_catches hcatches hexprs hblocks
    exact .singleton hterms (((hbody.eachLambda hstatements).append hclauses).append
      (hlast.eachLambda hfinally))
  | syncLock hvalue hbody | usingValue hvalue hbody =>
    have hvalue := forall_mem_singleton.mp hexprs true _ hvalue
    exact .singleton (.one hvalue) (.one (hbody.eachLambda hstatements).block)
  | usingVariables hdeclared hbody =>
    have hgroups := Inner.Bodies.variableLists hexprs _ hdeclared
    have hblock := (hbody.eachLambda hstatements).block
    refine .one ?_
    generalize _ :: _ = groups at hgroups
    induction groups with
    | nil => exact hblock
    | cons group rest ih =>
      obtain ⟨hgroup, hrest⟩ := forall_mem_cons.mp hgroups
      exact .statement hgroup (.one (ih hrest))
  | stop => exact .expression (Target.Expr.eachLambda_call (Target.Expr.eachLambda_dotted _) nofun)
  | «end» => exact .expression (Inner.eachLambda_converted (.leaf rfl rfl))

/-! ## Whole trees -/

/-- A block is what the converters of some level give for the body of a lambda inside a node. -/
def BodyFrom (setting : Setting) (node : Source.Node) (block : List Target.Statement) : Prop :=
  ∃ statements, node.HasBody statements ∧ ∃ levels, ∃ body : Body, body.breakables = [] ∧
    (Inner.at setting levels).Converts body statements block

/-- Lambdas of a part are lambdas of the whole. -/
theorem BodyFrom.of_part {node part : Source.Node} {block : List Target.Statement}
    (hpart : part ∈ node.parts) (h : BodyFrom setting part block) :
    BodyFrom setting node block := by
  obtain ⟨statements, hbody, hconverts⟩ := h
  exact ⟨statements, .inside hpart hbody, hconverts⟩

/-- **Whole trees**: every lambda with a block, anywhere in what a node becomes, is the image of a
lambda inside the node. -/
theorem bodies_from (setting : Setting) (levels : Nat) :
    (∀ expr, (Inner.at setting levels).Bodies (BodyFrom setting (.expr expr)) expr) ∧
    ∀ statement,
      (Inner.at setting levels).StatementBodies (BodyFrom setting (.statement statement))
        statement := by
  induction levels with
  | zero =>
    refine ⟨fun expr allowed converted h => ?_, fun statement body converted h => ?_⟩
    · exact h.unsupported.elim
    · exact h.unsupported.elim
  | succ levels ih =>
    obtain ⟨hexpr, hstatement⟩ := ih
    -- what holds of the parts of a node, with the node to look for lambdas in
    have hexprs : ∀ node part, Source.Node.expr part ∈ node.parts →
        (Inner.at setting levels).Bodies (BodyFrom setting node) part :=
      fun node part hpart allowed converted h =>
        (hexpr part allowed converted h).mono fun _ => BodyFrom.of_part hpart
    have hstatements : ∀ node part, Source.Node.statement part ∈ node.parts →
        (Inner.at setting levels).StatementBodies (BodyFrom setting node) part :=
      fun node part hpart body converted h statement hmem =>
        (hstatement part body converted h statement hmem).mono fun _ => BodyFrom.of_part hpart
    rw [Inner.at_succ]
    refine ⟨fun expr allowed converted h => ?_, fun statement body converted h => ?_⟩
    · refine Inner.Bodies.expr (fun part hpart => hexprs _ part ?_) ?_ _ h.of_nested
      · exact mem_append_left _ (mem_map_of_mem hpart)
      · intro statements hbody inside hinside block hconverts
        refine ⟨⟨statements, .here hbody, levels, inside, hinside, hconverts⟩, ?_⟩
        refine hconverts.eachLambda fun part hpart => hstatements _ part ?_
        refine mem_append_right _ (mem_map_of_mem ?_)
        exact Source.Expr.mem_statements_of_body hbody hpart
    · obtain ⟨_, hplain, rfl⟩ := h.map
      have himage := Source.Statement.image_of_gives hplain.of_nested
      refine (himage.eachLambda (fun part hpart => ?_) fun part hpart => ?_).attachStatements
      · exact hexprs _ part (mem_append_left _ (mem_map_of_mem hpart))
      · exact hstatements _ part (mem_append_right _ (mem_map_of_mem hpart))

/-- The converters for where a conversion stands are those of some level. -/
theorem Inner.exists_at_of_current {α : Type} {rule : Inner → Convert α} {result : α}
    (h : (Inner.current setting >>= rule).Gives result) :
    ∃ levels, (rule (Inner.at setting levels)).Gives result := by
  obtain ⟨_, hinner, h⟩ := h.bind
  obtain ⟨_, -, hinner⟩ := hinner.bind
  obtain rfl := hinner.pure
  exact ⟨_, h⟩

variable {body : Body}

/-- A converted body is converted by the converters of some level. -/
theorem converts_of_convertStatements {surroundings : Surroundings}
    (h : (convertStatements setting body source surroundings).1 = .ok output) :
    ∃ levels, (Inner.at setting levels).Converts body source output := by
  obtain ⟨levels, hgives⟩ := Inner.exists_at_of_current ⟨surroundings, h⟩
  exact ⟨levels, hgives.converts⟩

/-- The lambdas in a converted body are images of lambdas of the source. -/
theorem Inner.Converts.lambdas_from {levels : Nat}
    (h : (Inner.at setting levels).Converts body source output) :
    ∀ statement ∈ output, (Target.Node.statement statement).EachLambda fun block =>
      ∃ part ∈ source, BodyFrom setting (.statement part) block := by
  refine h.forall_mem fun part hpart list hgives statement hmem => ?_
  have hlambdas := (Sharpen.bodies_from setting levels).2 part body list hgives statement hmem
  exact hlambdas.mono fun block hblock => ⟨part, hpart, hblock⟩

/-- In particular the blocks in them are. -/
theorem Inner.Converts.bodies_from {levels : Nat}
    (h : (Inner.at setting levels).Converts body source output) :
    ∀ statement ∈ output, (Target.Node.statement statement).EachBody fun block =>
      ∃ part ∈ source, BodyFrom setting (.statement part) block :=
  fun statement hstatement => (h.lambdas_from statement hstatement).eachBody

end Sharpen
