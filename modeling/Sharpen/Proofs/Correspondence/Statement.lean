import Sharpen.Proofs.Correspondence.Expression

/-!
# Corresponding conversions of statements

The rules for statements keep every correspondence. Statements inside a loop or `Select` block are
converted in a body that knows of it, all others in the body of the statement around them. `With` is
the only statement for which a congruence is not enough.
-/

namespace Sharpen

open List
open Source (CaseBlock CatchBlock Declarator DeclaredName Expr LoopControl NodeId SimpleName
  Statement StatementKind)

variable {body : Body} {statements : List Statement} {control : LoopControl}

theorem Inner.forEachVariable_renumber (f : NodeId → NodeId) (control : LoopControl) :
    Inner.forEachVariable (control.renumber f) = Inner.forEachVariable control := by
  cases control with
  | declarator own =>
    obtain ⟨names, asClause⟩ := own
    match names with
    | [] => rfl
    | _ :: _ :: _ => rfl
    | [name] =>
      cases name
      simp only [LoopControl.renumber, Declarator.renumber, DeclaredName.listRenumber,
        DeclaredName.renumber, Inner.forEachVariable, asClause.loopType_renumber]
  | existing target =>
    cases target with
    | name simple =>
      cases simple
      rfl
    | _ => rfl

namespace Renumbered

variable {C : Congruence} {f : NodeId → NodeId} {inner other : Inner}

section Rules

variable (halike : inner.Alike f other)
include halike

theorem expressionStatement {value : Expr} (h : C.OnExpr (inner.via f) other value) :
    C.Rel (inner.expressionStatement (value.renumber f)) (other.expressionStatement value) := by
  unfold Inner.expressionStatement
  rw [value.id_renumber, halike.resolve]
  refine C.bind (h true) fun converted => ?_
  exact C.ite (C.pure _) (C.pure _)

omit halike in
/-- `If`: by recursion along the `ElseIf` blocks, as the rule. -/
theorem ifChain {elseStatements : Option (List Statement)}
    (helse : C.OnStatements (inner.via f) other body (elseStatements.getD [])) :
    ∀ {elseIfs : List Source.ElseIfBlock} {condition : Expr} {statements : List Statement},
      C.OnExpr (inner.via f) other condition →
      C.OnStatements (inner.via f) other body statements →
      (∀ block ∈ elseIfs, C.OnExpr (inner.via f) other block.condition) →
      C.OnStatements (inner.via f) other body (elseIfs.flatMap (·.statements)) →
      C.Rel (inner.ifChain body (condition.renumber f) (Statement.listRenumber f statements)
          (Statement.optionRenumber f elseStatements) (Source.ElseIfBlock.listRenumber f elseIfs))
        (other.ifChain body condition statements elseStatements elseIfs) := by
  intro elseIfs
  induction elseIfs with
  | nil =>
    intro condition statements hcondition hstatements _ _
    refine C.bind (hcondition true) fun condition => ?_
    refine C.bind (Renumbered.statements hstatements) fun branch => ?_
    cases elseStatements with
    | none => exact C.pure _
    | some elseStatements => exact C.map (Renumbered.statements helse) _
  | cons block rest ih =>
    intro condition statements hcondition hstatements hconditions hblocks
    obtain ⟨hfirst, hlater⟩ := forall_mem_cons.mp hconditions
    obtain ⟨hblock, hblocks⟩ := forall_mem_append.mp hblocks
    have hrest := ih hfirst hblock hlater hblocks
    cases block
    refine C.bind (hcondition true) fun condition => ?_
    exact C.bind (Renumbered.statements hstatements) fun branch => C.map hrest _

omit halike in
theorem switchSection {block : CaseBlock}
    (hclauses : C.OnExprs (inner.via f) other (block.clauses.flatMap Source.CaseClause.exprs))
    (hstatements : C.OnStatements (inner.via f) other (body.inside .select) block.statements) :
    C.Rel (inner.switchSection body (block.renumber f)) (other.switchSection body block) := by
  have hbody := Renumbered.statements hstatements
  cases block
  simp only [CaseBlock.renumber, Inner.switchSection, Source.listRenumber_eq] at hbody ⊢
  refine C.bind (C.mapM_map fun clause hclause => ?_) fun labels => ?_
  · cases clause with
    | simple value =>
      exact C.map (hclauses value (mem_flatMap.mpr ⟨_, hclause, mem_cons_self⟩) true) _
    | «else» => exact C.pure _
    | relational | range => exact C.unsupported _ _
  · exact C.map hbody _

omit halike in
theorem select {subject : Expr} {cases : List CaseBlock}
    (hsubject : C.OnExpr (inner.via f) other subject)
    (hclauses : C.OnExprs (inner.via f) other (cases.flatMap fun block =>
      block.clauses.flatMap Source.CaseClause.exprs))
    (hstatements : C.OnStatements (inner.via f) other (body.inside .select)
      (cases.flatMap (·.statements))) :
    C.Rel (inner.select body (subject.renumber f) (CaseBlock.listRenumber f cases))
      (other.select body subject cases) := by
  simp only [Source.listRenumber_eq]
  refine C.bind (hsubject true) fun subject => C.map (C.mapM_map fun block hblock => ?_) _
  refine switchSection (fun expr hexpr => ?_) fun statement hstatement => ?_
  · exact hclauses expr (mem_flatMap_of_mem hblock hexpr)
  · exact hstatements statement (mem_flatMap_of_mem hblock hstatement)

theorem catchClause {block : CatchBlock}
    (hfilter : C.OnExprs (inner.via f) other block.filter.toList)
    (hstatements : C.OnStatements (inner.via f) other body block.statements) :
    C.Rel (inner.catchClause body (block.renumber f)) (other.catchClause body block) := by
  obtain ⟨_, identifier, asType⟩ := block
  refine C.bind ?_ fun header => C.bind (value? hfilter) fun filter =>
    C.map (Renumbered.statements hstatements) _
  cases asType with
  | none =>
    cases identifier with
    | none => exact C.pure _
    | some identifier =>
      simp only [CatchBlock.renumber, Inner.catchHeader, Option.map_none, halike.declaredSymbol]
      exact C.pure _
  | some type =>
    simp only [CatchBlock.renumber, Inner.catchHeader, Option.map_some,
      Source.convertTypes_renumber]
    cases identifier <;> exact C.map (C.ofExcept _) _

theorem tryBlock {catches : List CatchBlock} {finallyStatements : Option (List Statement)}
    (hfilters : C.OnExprs (inner.via f) other (catches.flatMap fun block => block.filter.toList))
    (hstatements : C.OnStatements (inner.via f) other body statements)
    (hcatches : C.OnStatements (inner.via f) other body (catches.flatMap (·.statements)))
    (hfinally : C.OnStatements (inner.via f) other body (finallyStatements.getD [])) :
    C.Rel (inner.tryBlock body (Statement.listRenumber f statements)
      (CatchBlock.listRenumber f catches)
        (Statement.optionRenumber f finallyStatements))
      (other.tryBlock body statements catches finallyStatements) := by
  refine C.bind (Renumbered.statements hstatements) fun converted => ?_
  simp only [Source.listRenumber_eq]
  refine C.bind (C.mapM_map fun block hblock => ?_) fun catches => ?_
  · refine catchClause halike (fun expr hexpr => ?_) fun statement hstatement => ?_
    · exact hfilters expr (mem_flatMap_of_mem hblock hexpr)
    · exact hcatches statement (mem_flatMap_of_mem hblock hstatement)
  · cases finallyStatements with
    | none => exact C.pure _
    | some statements => exact C.map (Renumbered.statements hfinally) _

omit halike in
theorem loopBody {block : Source.BlockKind}
    (h : C.OnStatements (inner.via f) other (body.inside block) statements) :
    C.Rel (inner.loopBody body block (Statement.listRenumber f statements))
      (other.loopBody body block statements) :=
  C.map (Renumbered.statements h) _

theorem forOpening {id : NodeId} {start : Expr}
    (hcontrol : C.OnExprs (inner.via f) other control.exprs)
    (hstart : C.OnExpr (inner.via f) other start) :
    C.Rel (inner.forOpening (f id) (control.renumber f) (start.renumber f))
      (other.forOpening id control start) := by
  cases control with
  | declarator own =>
    obtain ⟨names, asClause⟩ := own
    match names with
    | [] | _ :: _ :: _ => exact C.unsupported _ _
    | [name] =>
      cases name
      simp only [LoopControl.renumber, Declarator.renumber, DeclaredName.listRenumber,
        DeclaredName.renumber, Inner.forOpening, asClause.loopType_renumber]
      exact C.bind (C.ofExcept _) fun type => C.map (hstart true) _
  | existing target =>
    refine C.bind (hcontrol target mem_cons_self true) fun converted =>
      C.bind (hstart true) fun start => ?_
    cases target with
    | name simple =>
      cases simple
      simp only [Expr.renumber, SimpleName.renumber, Model.SemanticTable.isNameInScope,
        halike.namesInScope]
      exact C.ite (C.pure _) (C.pure _)
    | _ => exact C.pure _

theorem forStep {counter : Target.Expr} {step : Option Expr}
    (h : C.OnExprs (inner.via f) other step.toList) :
    C.Rel (inner.forStep counter (Expr.optionRenumber f step)) (other.forStep counter step) := by
  cases step with
  | none => exact C.pure _
  | some step =>
    simp only [Expr.optionRenumber, Inner.forStep, step.isNegated_renumber, step.id_renumber,
      halike.integer]
    exact C.map (h step mem_cons_self true) _

omit halike in
theorem goesOn {kind : Source.TestKind} {condition : Expr}
    (h : C.OnExpr (inner.via f) other condition) :
    C.Rel (inner.goesOn kind (condition.renumber f)) (other.goesOn kind condition) := by
  refine C.bind (h true) fun condition => ?_
  cases kind with
  | «while» => exact C.pure _
  | «until» => exact C.pure _

omit halike in
theorem doLoop {top bottom : Source.LoopTest} (htop : C.OnExprs (inner.via f) other top.exprs)
    (hbottom : C.OnExprs (inner.via f) other bottom.exprs)
    (hstatements : C.OnStatements (inner.via f) other (body.inside .do) statements) :
    C.Rel (inner.doLoop body (top.renumber f) (bottom.renumber f)
      (Statement.listRenumber f statements))
      (other.doLoop body top bottom statements) := by
  cases top with
  | absent =>
    cases bottom with
    | absent => exact C.map (loopBody hstatements) _
    | present =>
      refine C.bind (Renumbered.statements hstatements) fun converted => ?_
      exact C.map (goesOn (hbottom _ mem_cons_self)) _
  | present =>
    cases bottom with
    | absent =>
      exact C.bind (goesOn (htop _ mem_cons_self)) fun condition => C.map (loopBody hstatements) _
    | present => exact C.unsupported _ _

/-- Rules that do not depend on the surroundings keep a congruence. -/
theorem statement {statement : Statement}
    (hplain : ∀ target statements, statement.kind ≠ .with target statements)
    (hexprs : C.OnExprs (inner.via f) other statement.kind.exprs)
    (hstatements : C.OnStatements (inner.via f) other (body.within statement.kind)
      statement.kind.statements) :
    C.Rel ((statement.renumber f).convertKind inner body) (statement.convertKind other body) := by
  obtain ⟨_, kind⟩ := statement
  cases kind with
  | localDeclaration =>
    exact C.bind (C.ofExcept _) fun converted => C.map (variableLists halike hexprs) _
  | expression value | call value =>
    exact C.map (expressionStatement halike (hexprs value mem_cons_self)) _
  | assignment operator left =>
    obtain ⟨hleft, hright⟩ := forall_mem_cons.mp hexprs
    refine C.map (C.bind (hleft true) fun left => C.bind (C.ofExcept _) fun operator => ?_) _
    exact C.map (forall_mem_singleton.mp hright true) _
  | «return» value | throw value => exact C.map (value? hexprs) _
  | exit | «continue» => exact C.map (C.ofExcept _) _
  | yield value => exact C.map (hexprs value mem_cons_self true) _
  | raiseEvent name =>
    cases name
    exact C.map (C.map (arguments hexprs) _) _
  | addHandler event | removeHandler event =>
    obtain ⟨hevent, hhandler⟩ := forall_mem_cons.mp hexprs
    refine C.map (C.bind (hevent true) fun event => ?_) _
    exact C.map (forall_mem_singleton.mp hhandler true) _
  | singleLineIf condition =>
    obtain ⟨hthen, helse⟩ := forall_mem_append.mp hstatements
    have hnone : ∀ block ∈ ([] : List Source.ElseIfBlock),
      C.OnExpr (inner.via f) other block.condition :=
      forall_mem_nil _
    exact C.map (ifChain helse (hexprs condition mem_cons_self) hthen hnone (forall_mem_nil _)) _
  | multiLineIf =>
    obtain ⟨hfirst, helse⟩ := forall_mem_append.mp hstatements
    obtain ⟨hthen, hblocks⟩ := forall_mem_append.mp hfirst
    obtain ⟨hcondition, hconditions⟩ := forall_mem_cons.mp hexprs
    refine C.map (ifChain helse hcondition hthen (fun block hblock => ?_) hblocks) _
    exact hconditions block.condition (mem_map_of_mem hblock)
  | «for» =>
    obtain ⟨hcontrol, hexprs⟩ := forall_mem_append.mp hexprs
    obtain ⟨hstart, hlimit, hstep⟩ := by simpa only [forall_mem_cons] using hexprs
    refine C.map (C.bind (forOpening halike hcontrol hstart) fun ⟨counter, opening⟩ => ?_) _
    refine C.bind (hlimit true) fun limit => ?_
    exact C.bind (forStep halike hstep) fun ⟨descends, increment⟩ => C.map (loopBody hstatements) _
  | forEach control items =>
    simp only [Statement.renumber, StatementKind.renumber, Statement.convertKind, Inner.forEachLoop,
      Inner.forEachVariable_renumber]
    refine C.map (C.bind ?_ fun ⟨type, identifier⟩ => ?_) _
    · unfold Inner.forEachVariable
      split
      · exact C.map (C.ofExcept _) _
      · exact C.unsupported _ _
      · exact C.pure _
      · exact C.unsupported _ _
    · exact C.bind (hexprs items (by simp [StatementKind.exprs]) true) fun items =>
        C.map (loopBody hstatements) _
  | «while» condition =>
    refine C.map (C.bind (hexprs condition mem_cons_self true) fun condition => ?_) _
    exact C.map (loopBody hstatements) _
  | doLoop =>
    obtain ⟨htop, hbottom⟩ := forall_mem_append.mp hexprs
    exact C.map (doLoop htop hbottom hstatements) _
  | select =>
    obtain ⟨hsubject, hclauses⟩ := forall_mem_cons.mp hexprs
    exact C.map (select hsubject hclauses hstatements) _
  | «with» target statements => exact absurd rfl (hplain target statements)
  | «try» =>
    obtain ⟨hfirst, hfinally⟩ := forall_mem_append.mp hstatements
    obtain ⟨hbody, hcatches⟩ := forall_mem_append.mp hfirst
    exact C.map (tryBlock halike hexprs hbody hcatches hfinally) _
  | syncLock value | usingValue value =>
    refine C.map (C.bind (hexprs value mem_cons_self true) fun value => ?_) _
    exact C.map (Renumbered.statements hstatements) _
  | usingVariables =>
    refine C.map (C.bind (variableLists halike hexprs) fun declared => ?_) _
    exact C.ite (C.unsupported _ _) (C.map (Renumbered.statements hstatements) _)
  | stop => exact C.pure _
  | «end» => exact C.pure _
  | onErrorGoTo | onErrorResumeNext | resume | reDim | erase
  | goTo | label => exact C.unimplemented _

/-- **Statements**: the rule for a statement keeps a correspondence that its parts have. -/
theorem anyStatement {C : Correspondence} {statement : Statement}
    (hexprs : C.OnExprs (inner.via f) other statement.kind.exprs)
    (hstatements : C.OnStatements (inner.via f) other (body.within statement.kind)
      statement.kind.statements) :
    C.Rel ((statement.renumber f).convertKind inner body) (statement.convertKind other body) := by
  by_cases hwith : ∃ target statements, statement.kind = .with target statements
  · have hnames : inner.namesInside (statement.renumber f) = other.namesInside statement := by
      simp only [Inner.namesInside, Source.nodeIds_renumber, flatMap_map]
      exact congrArg statement.nodeIds.flatMap (funext halike.namesInScope)
    cases statement
    obtain ⟨target, _, rfl⟩ := hwith
    simp only [Statement.renumber, StatementKind.renumber, Statement.convertKind,
      Inner.withBlock_eq] at hnames ⊢
    rw [hnames]
    refine C.map (C.bind (hexprs target mem_cons_self true) fun target => ?_) _
    exact C.map (C.inWithBlock _ (Renumbered.statements hstatements)) _
  · have hplain : ∀ target statements, statement.kind ≠ .with target statements :=
      fun target statements heq => hwith ⟨target, statements, heq⟩
    exact Renumbered.statement halike hplain hexprs hstatements

end Rules

end Renumbered

end Sharpen
