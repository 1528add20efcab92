import Sharpen.Proofs.Correspondence.Declaration

/-!
# Corresponding conversions of the same nodes

The rules for nodes with new numbers are in particular about nodes that keep their numbers. So the
rules keep every correspondence between converters with the same setting.
-/

namespace Sharpen

/-! ## Keeping the numbers -/

namespace Source

theorem types_renumber_id :
    SimpleName.renumber id = id ∧ TypeSyntax.listRenumber id = id ∧ TypeSyntax.renumber id = id ∧
      Name.renumber id = id := by
  simp only [funext_iff]
  apply SimpleName.renumber.mutual_induct
  all_goals
    intros
    simp! only [*, id_eq]

/-- Expressions and statements that keep their numbers are the same: by induction along `renumber`,
which takes apart all that they are made of. -/
theorem nodes_renumber_id :
    Expr.renumber id = id ∧ FieldValue.listRenumber id = id ∧ FieldValue.renumber id = id ∧
    LambdaBody.renumber id = id ∧ Statement.listRenumber id = id ∧ Statement.renumber id = id ∧
    StatementKind.renumber id = id ∧ Expr.listRenumber id = id ∧ LoopTest.renumber id = id ∧
    CatchBlock.listRenumber id = id ∧ CatchBlock.renumber id = id ∧ Expr.optionRenumber id = id ∧
    CaseBlock.listRenumber id = id ∧ CaseBlock.renumber id = id ∧ CaseClause.listRenumber id = id ∧
    CaseClause.renumber id = id ∧ LoopControl.renumber id = id ∧ Declarator.renumber id = id ∧
    AsClause.renumber id = id ∧ Attribute.listsRenumber id = id ∧ Attribute.listRenumber id = id ∧
    Attribute.renumber id = id ∧ Argument.listRenumber id = id ∧ Argument.renumber id = id ∧
    DeclaredName.listRenumber id = id ∧ DeclaredName.renumber id = id ∧
      Argument.optionRenumber id = id ∧
    ElseIfBlock.listRenumber id = id ∧ ElseIfBlock.renumber id = id ∧
      Statement.optionRenumber id = id ∧
    Declarator.listRenumber id = id ∧ Parameter.listRenumber id = id ∧ Parameter.renumber id = id ∧
    Initializer.renumber id = id ∧ Content.listRenumber id = id ∧ Content.renumber id = id := by
  simp only [funext_iff]
  apply Expr.renumber.mutual_induct
  all_goals
    intros
    simp! only [*, types_renumber_id, Option.map_id_fun, id_eq]

theorem declarations_renumber_id :
    Declaration.renumber id = id ∧ DeclarationKind.renumber id = id ∧
      Declaration.listRenumber id = id := by
  have hresult : ResultClause.renumber id = id := funext fun clause => by
    simp only [ResultClause.renumber, types_renumber_id, nodes_renumber_id, id_eq]
  have hparameter : TypeParameter.renumber id = id := funext fun parameter => by
    have hconstraint : TypeConstraint.renumber id = id := funext fun constraint => by
      cases constraint <;> simp only [TypeConstraint.renumber, types_renumber_id, id_eq]
    simp only [TypeParameter.renumber, hconstraint, List.map_id, id_eq]
  have hmember : EnumMember.renumber id = id := funext fun member => by
    simp only [EnumMember.renumber, nodes_renumber_id, id_eq]
  have haccessor : Accessor.renumber id = id := funext fun accessor => by
    simp only [Accessor.renumber, nodes_renumber_id, id_eq]
  simp only [funext_iff]
  apply Declaration.renumber.mutual_induct
  all_goals
    intros
    simp! only [*, types_renumber_id, nodes_renumber_id, List.map_id, List.map_id_fun,
      Option.map_id_fun, id_eq]

end Source

open Source (Argument Declarator DeclaredName Expr LoopControl NodeId Statement nodes_renumber_id)

variable {inner other : Inner}

theorem Inner.via_id (inner : Inner) : inner.via id = inner := by
  simp only [Inner.via, nodes_renumber_id, Source.declarations_renumber_id, id_eq]

/-- Tables of the same setting answer the same. -/
theorem Inner.Alike.of_setting (hsetting : inner.setting = other.setting) :
    inner.Alike id other where
  options := congrArg Setting.options hsetting
  answers n := by rw [Congruence.table_eq hsetting, id_eq]

/-! ## Rules for the same nodes -/

namespace Congruence

variable {C : Congruence} {declarator : Declarator} {site : DeclaratorSite} {allowed : Bool}

theorem arguments {callee : Option Model.Symbol} {arguments : List Argument}
    (h : C.OnExprs inner other (arguments.flatMap Argument.exprs)) :
    C.Rel (inner.arguments callee arguments) (other.arguments callee arguments) := by
  rw [← inner.via_id] at h
  simpa only [nodes_renumber_id, id_eq] using Renumbered.arguments h

theorem attributes {lists : List (List Source.Attribute)}
    (h : C.OnExprs inner other (Source.attributeExprs lists)) :
    C.Rel (inner.attributes lists) (other.attributes lists) := by
  rw [← inner.via_id] at h
  simpa only [nodes_renumber_id, id_eq] using Renumbered.attributes h

variable (hsetting : inner.setting = other.setting)
include hsetting

theorem size {bound : Argument} (h : C.OnExprs inner other bound.boundExprs) :
    C.Rel (inner.size bound) (other.size bound) := by
  rw [← inner.via_id] at h
  simpa only [nodes_renumber_id, id_eq] using Renumbered.size (.of_setting hsetting) h

theorem baseType {name : DeclaredName} (hclause : C.OnExprs inner other declarator.asClause.exprs)
    (hvalue : C.OnExprs inner other declarator.initializer.toList) :
    C.Rel (inner.baseType site declarator name) (other.baseType site declarator name) := by
  rw [← inner.via_id] at hclause hvalue
  simpa only [nodes_renumber_id, id_eq] using Renumbered.baseType (.of_setting hsetting)
    hclause hvalue

theorem declaredVariables (h : C.OnExprs inner other declarator.exprs) :
    C.Rel (inner.declaredVariables site declarator) (other.declaredVariables site declarator) := by
  rw [← inner.via_id] at h
  simpa only [nodes_renumber_id, id_eq] using Renumbered.declaredVariables (.of_setting hsetting) h

theorem forOpening {id : NodeId} {control : LoopControl} {start : Expr}
    (hcontrol : C.OnExprs inner other control.exprs) (hstart : C.OnExpr inner other start) :
    C.Rel (inner.forOpening id control start) (other.forOpening id control start) := by
  rw [← inner.via_id] at hcontrol hstart
  simpa only [nodes_renumber_id, id_eq] using Renumbered.forOpening (.of_setting hsetting)
    hcontrol hstart

theorem forStep {counter : Target.Expr} {step : Option Expr}
    (h : C.OnExprs inner other step.toList) :
    C.Rel (inner.forStep counter step) (other.forStep counter step) := by
  rw [← inner.via_id] at h
  simpa only [nodes_renumber_id, id_eq] using Renumbered.forStep (.of_setting hsetting) h

theorem autoInvoke_eq {id : NodeId} {converted : Target.Expr} :
    inner.autoInvoke id allowed converted = other.autoInvoke id allowed converted :=
  Renumbered.autoInvoke (.of_setting hsetting)

theorem expr {expr : Expr} (hplain : expr.readsSurroundings = false)
    (hparts : ∀ part ∈ expr.parts, C.OnExpr inner other part)
    (hstatements : ∀ inside : Body, inside.breakables = [] →
      C.OnStatements inner other inside expr.statements) :
    C.Rel (expr.convertWith inner allowed) (expr.convertWith other allowed) := by
  rw [← inner.via_id] at hparts hstatements
  simpa only [nodes_renumber_id, id_eq] using Renumbered.expr (.of_setting hsetting) hplain
    hparts hstatements

theorem statement {body : Body} {statement : Statement}
    (hplain : ∀ target statements, statement.kind ≠ .with target statements)
    (hexprs : C.OnExprs inner other statement.kind.exprs)
    (hstatements : C.OnStatements inner other (body.within statement.kind)
      statement.kind.statements) :
    C.Rel (statement.convertKind inner body) (statement.convertKind other body) := by
  rw [← inner.via_id] at hexprs hstatements
  simpa only [nodes_renumber_id, id_eq] using Renumbered.statement (.of_setting hsetting) hplain
    hexprs hstatements

end Congruence

namespace Correspondence

variable {C : Correspondence} (hsetting : inner.setting = other.setting)
include hsetting

theorem expr {expr : Expr} {allowed : Bool}
    (hparts : ∀ part ∈ expr.parts, C.OnExpr inner other part)
    (hstatements : ∀ inside : Body, inside.breakables = [] →
      C.OnStatements inner other inside expr.statements) :
    C.Rel (expr.convertWith inner allowed) (expr.convertWith other allowed) := by
  rw [← inner.via_id] at hparts hstatements
  simpa only [nodes_renumber_id, id_eq] using Renumbered.anyExpr (.of_setting hsetting)
    hparts hstatements

theorem statement {body : Body} {statement : Statement}
    (hexprs : C.OnExprs inner other statement.kind.exprs)
    (hstatements : C.OnStatements inner other (body.within statement.kind)
      statement.kind.statements) :
    C.Rel (statement.convertKind inner body) (statement.convertKind other body) := by
  rw [← inner.via_id] at hexprs hstatements
  simpa only [nodes_renumber_id, id_eq] using Renumbered.anyStatement (.of_setting hsetting)
    hexprs hstatements

end Correspondence

end Sharpen
