import Mathlib.Logic.Relation
import Sharpen.Proofs.SourceParts

/-!
# The walk through a statement misses no node

`Statement.nodeIds` collects the numbers at which the names for `With` targets look up what is
visible. Here the same nodes are described without a walk: a node has the number of its own and
those of the arguments, declared names, `Catch` blocks and lambda parameters directly in it
(`Node.numbers`), and a node stands inside another one if it can be reached by going from a node to
what stands directly inside (`Node.openParts`). The only parts that are left out are those of
attributes and of the default values of lambda parameters.

The main result is `Node.numbers_subset_of_surrounds`.
-/

namespace Sharpen.Source

open List

/-! ## Lists of numbers -/

theorem Expr.listNodeIds_eq (exprs : List Expr) :
    Expr.listNodeIds exprs = exprs.flatMap Expr.nodeIds :=
  eq_flatMap_of_append rfl (fun _ _ => rfl) exprs

theorem Argument.listNodeIds_eq (arguments : List Argument) :
    Argument.listNodeIds arguments = arguments.flatMap Argument.nodeIds :=
  eq_flatMap_of_append rfl (fun _ _ => rfl) arguments

theorem Content.listNodeIds_eq (contents : List Content) :
    Content.listNodeIds contents = contents.flatMap Content.nodeIds :=
  eq_flatMap_of_append rfl (fun _ _ => rfl) contents

theorem FieldValue.listNodeIds_eq (fields : List FieldValue) :
    FieldValue.listNodeIds fields = fields.flatMap FieldValue.nodeIds :=
  eq_flatMap_of_append rfl (fun _ _ => rfl) fields

theorem DeclaredName.listNodeIds_eq (names : List DeclaredName) :
    DeclaredName.listNodeIds names = names.flatMap DeclaredName.nodeIds :=
  eq_flatMap_of_append rfl (fun _ _ => rfl) names

theorem Declarator.listNodeIds_eq (declarators : List Declarator) :
    Declarator.listNodeIds declarators = declarators.flatMap Declarator.nodeIds :=
  eq_flatMap_of_append rfl (fun _ _ => rfl) declarators

theorem Statement.listNodeIds_eq (statements : List Statement) :
    Statement.listNodeIds statements = statements.flatMap Statement.nodeIds :=
  eq_flatMap_of_append rfl (fun _ _ => rfl) statements

theorem ElseIfBlock.listNodeIds_eq (blocks : List ElseIfBlock) :
    ElseIfBlock.listNodeIds blocks = blocks.flatMap ElseIfBlock.nodeIds :=
  eq_flatMap_of_append rfl (fun _ _ => rfl) blocks

theorem CaseClause.listNodeIds_eq (clauses : List CaseClause) :
    CaseClause.listNodeIds clauses = clauses.flatMap CaseClause.nodeIds :=
  eq_flatMap_of_append rfl (fun _ _ => rfl) clauses

theorem CaseBlock.listNodeIds_eq (blocks : List CaseBlock) :
    CaseBlock.listNodeIds blocks = blocks.flatMap CaseBlock.nodeIds :=
  eq_flatMap_of_append rfl (fun _ _ => rfl) blocks

theorem CatchBlock.listNodeIds_eq (blocks : List CatchBlock) :
    CatchBlock.listNodeIds blocks = blocks.flatMap CatchBlock.nodeIds :=
  eq_flatMap_of_append rfl (fun _ _ => rfl) blocks

theorem Expr.optionNodeIds_eq (value : Option Expr) :
    Expr.optionNodeIds value = value.toList.flatMap Expr.nodeIds := by
  cases value <;> simp [Expr.optionNodeIds]

theorem Argument.optionNodeIds_eq (arguments : Option (List Argument)) :
    Argument.optionNodeIds arguments = (arguments.getD []).flatMap Argument.nodeIds := by
  cases arguments <;> simp [Argument.optionNodeIds, Argument.listNodeIds_eq]

theorem Statement.optionNodeIds_eq (statements : Option (List Statement)) :
    Statement.optionNodeIds statements = (statements.getD []).flatMap Statement.nodeIds := by
  cases statements <;> simp [Statement.optionNodeIds, Statement.listNodeIds_eq]

/-! ## Nodes and their numbers -/

/-- The expressions directly inside an expression, but for those of its lambda parameters. -/
def Expr.openParts : Expr → List Expr
  | .lambda _ _ _ _ _ body => body.exprs
  | expr => expr.parts

/-- The expression of an `As` clause, but for those of attributes. -/
def AsClause.openExprs : AsClause → List Expr
  | .new creation => [creation]
  | _ => []

/-- The expressions of a declarator, but for those of attributes. -/
def Declarator.openExprs (declarator : Declarator) : List Expr :=
  declarator.names.flatMap DeclaredName.exprs ++ declarator.asClause.openExprs ++
    declarator.initializer.toList

/-- The expressions of what a loop counts with, but for those of attributes. -/
def LoopControl.openExprs : LoopControl → List Expr
  | .declarator own => own.openExprs
  | .existing target => [target]

/-- The expressions directly inside a statement, but for those of attributes. -/
def StatementKind.openExprs : StatementKind → List Expr
  | .localDeclaration _ declarators => declarators.flatMap Declarator.openExprs
  | .usingVariables resources _ => resources.flatMap Declarator.openExprs
  | .for control start limit step _ => control.openExprs ++ start :: limit :: step.toList
  | .forEach control items _ => control.openExprs ++ [items]
  | kind => kind.exprs

/-- What stands directly inside a node, but for attributes and default values. -/
def Node.openParts : Node → List Node
  | .expr node => node.openParts.map .expr ++ node.statements.map .statement
  | .statement node => node.kind.openExprs.map .expr ++ node.kind.statements.map .statement

/-- A node stands somewhere inside another one, or is that node. -/
def Node.Surrounds (whole part : Node) : Prop :=
  Relation.ReflTransGen (fun outer inner => inner ∈ outer.openParts) whole part

/-- The numbers of declared names and of the bounds written on them. -/
def Declarator.numbers (declarator : Declarator) : List NodeId :=
  declarator.names.flatMap fun name => name.id :: (name.arrayBounds.getD []).map Argument.id

/-- The numbers that an expression has itself, with those of its arguments and lambda parameters. -/
def Expr.numbers (expr : Expr) : List NodeId :=
  expr.id :: match expr with
    | .invocation _ _ arguments => arguments.map Argument.id
    | .objectCreation _ _ arguments _ => (arguments.getD []).map Argument.id
    | .arrayCreation _ _ bounds _ _ _ => (bounds.getD []).map Argument.id
    | .lambda _ _ _ parameters _ _ => parameters.map (·.id)
    | _ => []

/-- The numbers of a loop variable. -/
def LoopControl.numbers : LoopControl → List NodeId
  | .declarator own => own.numbers
  | .existing _ => []

/-- The numbers that a statement has itself, with those of its arguments, declared names and `Catch`
blocks. -/
def Statement.numbers (statement : Statement) : List NodeId :=
  statement.id :: match statement.kind with
    | .localDeclaration _ declarators => declarators.flatMap Declarator.numbers
    | .usingVariables resources _ => resources.flatMap Declarator.numbers
    | .for control _ _ _ _ | .forEach control _ _ => control.numbers
    | .raiseEvent name arguments => name.id :: arguments.map Argument.id
    | .try _ catches _ => catches.map (·.id)
    | _ => []

def Node.numbers : Node → List NodeId
  | .expr node => node.numbers
  | .statement node => node.numbers

/-- The numbers that the walk finds in a node. -/
def Node.walk : Node → List NodeId
  | .expr node => node.nodeIds
  | .statement node => node.nodeIds

/-! ## The walk goes everywhere -/

section Walk

variable {number : NodeId} {part : Expr} {inside : Statement}

attribute [local grind =] Expr.listNodeIds_eq Argument.listNodeIds_eq Content.listNodeIds_eq
  FieldValue.listNodeIds_eq DeclaredName.listNodeIds_eq Declarator.listNodeIds_eq
  Statement.listNodeIds_eq ElseIfBlock.listNodeIds_eq CaseClause.listNodeIds_eq
  CaseBlock.listNodeIds_eq CatchBlock.listNodeIds_eq Expr.optionNodeIds_eq Argument.optionNodeIds_eq
  Statement.optionNodeIds_eq
attribute [local grind =] Expr.nodeIds Argument.nodeIds Content.nodeIds Initializer.nodeIds
  FieldValue.nodeIds LambdaBody.nodeIds DeclaredName.nodeIds AsClause.nodeIds Declarator.nodeIds
  LoopControl.nodeIds LoopTest.nodeIds CaseClause.nodeIds ElseIfBlock.nodeIds CaseBlock.nodeIds
  CatchBlock.nodeIds StatementKind.nodeIds Statement.nodeIds
attribute [local grind cases] FieldValue ElseIfBlock CaseBlock CatchBlock LambdaBody

@[local grind →] theorem Argument.walk_expr {argument : Argument} (h : part ∈ argument.exprs)
    (hnumber : number ∈ part.nodeIds) : number ∈ argument.nodeIds := by
  cases argument <;> grind [Argument.exprs]

/-- Of the bound `n - 1` also `n` is walked through. -/
@[local grind →] theorem Argument.walk_boundExpr {argument : Argument}
    (h : part ∈ argument.boundExprs) (hnumber : number ∈ part.nodeIds) :
    number ∈ argument.nodeIds := by
  unfold Argument.boundExprs at h
  split at h <;> grind

@[local grind →] theorem Content.walk_expr {content : Content} (h : part ∈ content.exprs)
    (hnumber : number ∈ part.nodeIds) : number ∈ content.nodeIds := by
  cases content <;> grind [Content.exprs]

@[local grind →] theorem Initializer.walk_expr {initializer : Initializer}
    (h : part ∈ initializer.exprs) (hnumber : number ∈ part.nodeIds) :
    number ∈ initializer.nodeIds := by
  cases initializer <;> grind [Initializer.exprs]

theorem Expr.walk_part {expr : Expr} (h : part ∈ expr.openParts) (hnumber : number ∈ part.nodeIds) :
    number ∈ expr.nodeIds := by
  cases expr <;> grind [Expr.openParts, Expr.parts, LambdaBody.exprs]

theorem Expr.walk_statement {expr : Expr} (h : inside ∈ expr.statements)
    (hnumber : number ∈ inside.nodeIds) :
    number ∈ expr.nodeIds := by
  cases expr <;> grind [Expr.statements, LambdaBody.statements]

@[local grind →] theorem DeclaredName.walk_expr {name : DeclaredName} (h : part ∈ name.exprs)
    (hnumber : number ∈ part.nodeIds) : number ∈ name.nodeIds := by
  cases name
  grind [DeclaredName.exprs]

@[local grind →] theorem Declarator.walk_expr {declarator : Declarator}
    (h : part ∈ declarator.openExprs) (hnumber : number ∈ part.nodeIds) :
    number ∈ declarator.nodeIds := by
  cases declarator
  grind [Declarator.openExprs, AsClause.openExprs, cases AsClause]

@[local grind →] theorem LoopControl.walk_expr {control : LoopControl}
    (h : part ∈ control.openExprs) (hnumber : number ∈ part.nodeIds) :
    number ∈ control.nodeIds := by
  cases control <;> grind [LoopControl.openExprs]

@[local grind →] theorem LoopTest.walk_expr {test : LoopTest} (h : part ∈ test.exprs)
    (hnumber : number ∈ part.nodeIds) : number ∈ test.nodeIds := by
  cases test <;> grind [LoopTest.exprs]

@[local grind →] theorem CaseClause.walk_expr {clause : CaseClause} (h : part ∈ clause.exprs)
    (hnumber : number ∈ part.nodeIds) : number ∈ clause.nodeIds := by
  cases clause <;> grind [CaseClause.exprs]

theorem StatementKind.walk_expr {kind : StatementKind} (h : part ∈ kind.openExprs)
    (hnumber : number ∈ part.nodeIds) : number ∈ kind.nodeIds := by
  cases kind <;> grind [StatementKind.openExprs, StatementKind.exprs]

@[local grind →] theorem CatchBlock.walk_statement {block : CatchBlock}
    (h : inside ∈ block.statements) (hnumber : number ∈ inside.nodeIds) :
    number ∈ block.nodeIds := by
  cases block
  grind

theorem StatementKind.walk_statement {kind : StatementKind} (h : inside ∈ kind.statements)
    (hnumber : number ∈ inside.nodeIds) : number ∈ kind.nodeIds := by
  cases kind <;> grind [StatementKind.statements]

@[local grind .] theorem Argument.id_mem (argument : Argument) :
    argument.id ∈ argument.nodeIds := by
  cases argument <;> grind [Argument.id]

theorem Expr.numbers_subset (expr : Expr) : expr.numbers ⊆ expr.nodeIds := by
  intro number h
  cases expr <;> grind [Expr.numbers, Expr.id]

@[local grind →] theorem Declarator.mem_nodeIds {declarator : Declarator}
    (h : number ∈ declarator.numbers) :
    number ∈ declarator.nodeIds := by
  cases declarator
  grind [Declarator.numbers, cases DeclaredName]

theorem Statement.numbers_subset (statement : Statement) :
    statement.numbers ⊆ statement.nodeIds := by
  intro number h
  obtain ⟨id, kind, trivia⟩ := statement
  cases kind <;> grind [Statement.numbers, LoopControl.numbers, cases LoopControl]

end Walk

theorem Node.numbers_subset_walk (node : Node) : node.numbers ⊆ node.walk := by
  cases node with
  | expr expr => exact expr.numbers_subset
  | statement statement => exact statement.numbers_subset

/-- The walk through a node goes through everything directly inside it. -/
theorem Node.walk_subset {node part : Node} (h : part ∈ node.openParts) :
    part.walk ⊆ node.walk := by
  cases node with
  | expr expr =>
    obtain h | h := mem_append.mp h
    · obtain ⟨inner, hinner, rfl⟩ := mem_map.mp h
      exact fun _ => Expr.walk_part hinner
    · obtain ⟨inner, hinner, rfl⟩ := mem_map.mp h
      exact fun _ => Expr.walk_statement hinner
  | statement statement =>
    obtain ⟨id, kind, trivia⟩ := statement
    refine subset_cons_of_subset id ?_
    obtain h | h := mem_append.mp h
    · obtain ⟨inner, hinner, rfl⟩ := mem_map.mp h
      exact fun _ => StatementKind.walk_expr hinner
    · obtain ⟨inner, hinner, rfl⟩ := mem_map.mp h
      exact fun _ => StatementKind.walk_statement hinner

/-- The walk through a node finds the numbers of every node inside it, however deep. -/
theorem Node.numbers_subset_of_surrounds {whole part : Node} (h : whole.Surrounds part) :
    part.numbers ⊆ whole.walk := by
  have hwalk : part.walk ⊆ whole.walk := by
    induction h with
    | refl => exact Subset.refl _
    | tail _ hpart ih => exact Subset.trans (Node.walk_subset hpart) ih
  exact Subset.trans part.numbers_subset_walk hwalk

end Sharpen.Source
