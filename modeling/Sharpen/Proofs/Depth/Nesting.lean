import Sharpen.Proofs.Surroundings
import Sharpen.Proofs.TargetParts

/-!
# How deep a tree is nested

`Construct.nesting` is the largest number of constructs on a way down from a construct. The parts of
a construct are smaller than the construct (`Construct.sizeOf_lt`), so every way down ends.
-/

namespace Sharpen.Source

open List
open Target (sizeOf_lt_of_mem_toList sizeOf_lt_of_mem_getD)

variable {construct : Construct}

/-! ## Parts are smaller -/

section Sizes

variable {part : Expr} {inside : Statement}

attribute [local grind →] sizeOf_lt_of_mem sizeOf_lt_of_mem_toList sizeOf_lt_of_mem_getD
attribute [local grind cases] Attribute FieldValue ResultClause Accessor ElseIfBlock CaseBlock
  CatchBlock
attribute [local grind =] mem_flatten

@[local grind →] theorem Argument.sizeOf_expr {argument : Argument} (h : part ∈ argument.exprs) :
    sizeOf part < sizeOf argument := by
  cases argument <;> grind [Argument.exprs]

@[local grind →] theorem Argument.sizeOf_boundExpr {argument : Argument}
    (h : part ∈ argument.boundExprs) :
    sizeOf part < sizeOf argument := by
  unfold Argument.boundExprs at h
  split at h <;> grind

@[local grind →] theorem sizeOf_attributeExpr {lists : List (List Attribute)}
    (h : part ∈ attributeExprs lists) :
    sizeOf part < sizeOf lists := by
  grind [attributeExprs]

@[local grind →] theorem Content.sizeOf_expr {content : Content} (h : part ∈ content.exprs) :
    sizeOf part < sizeOf content := by
  cases content <;> grind [Content.exprs]

@[local grind →] theorem Initializer.sizeOf_expr {initializer : Initializer}
    (h : part ∈ initializer.exprs) :
    sizeOf part < sizeOf initializer := by
  cases initializer <;> grind [Initializer.exprs]

@[local grind →] theorem Parameter.sizeOf_expr {parameter : Parameter}
    (h : part ∈ parameter.exprs) :
    sizeOf part < sizeOf parameter := by
  cases parameter
  grind [Parameter.exprs]

@[local grind →] theorem DeclaredName.sizeOf_expr {name : DeclaredName} (h : part ∈ name.exprs) :
    sizeOf part < sizeOf name := by
  cases name
  grind [DeclaredName.exprs]

@[local grind →] theorem AsClause.sizeOf_expr {clause : AsClause} (h : part ∈ clause.exprs) :
    sizeOf part < sizeOf clause := by
  cases clause <;> grind [AsClause.exprs]

@[local grind →] theorem Declarator.sizeOf_expr {declarator : Declarator}
    (h : part ∈ declarator.exprs) :
    sizeOf part < sizeOf declarator := by
  cases declarator
  grind [Declarator.exprs]

theorem Expr.sizeOf_part {expr : Expr} (h : part ∈ expr.parts) : sizeOf part < sizeOf expr := by
  cases expr <;> grind [Expr.parts, LambdaBody.exprs, cases LambdaBody]

theorem Expr.sizeOf_statement {expr : Expr} (h : inside ∈ expr.statements) :
    sizeOf inside < sizeOf expr := by
  cases expr <;> grind [Expr.statements, LambdaBody.statements, cases LambdaBody]

@[local grind →] theorem CaseClause.sizeOf_expr {clause : CaseClause} (h : part ∈ clause.exprs) :
    sizeOf part < sizeOf clause := by
  cases clause <;> grind [CaseClause.exprs]

@[local grind →] theorem LoopControl.sizeOf_expr {control : LoopControl}
    (h : part ∈ control.exprs) :
    sizeOf part < sizeOf control := by
  cases control <;> grind [LoopControl.exprs]

@[local grind →] theorem LoopTest.sizeOf_expr {test : LoopTest} (h : part ∈ test.exprs) :
    sizeOf part < sizeOf test := by
  cases test <;> grind [LoopTest.exprs]

theorem StatementKind.sizeOf_expr {kind : StatementKind} (h : part ∈ kind.exprs) :
    sizeOf part < sizeOf kind := by
  cases kind <;> grind [StatementKind.exprs]

theorem StatementKind.sizeOf_statement {kind : StatementKind} (h : inside ∈ kind.statements) :
    sizeOf inside < sizeOf kind := by
  cases kind <;> grind [StatementKind.statements]

theorem Statement.sizeOf_kind_lt (statement : Statement) :
    sizeOf statement.kind < sizeOf statement := by
  cases statement
  simp +arith

theorem Declaration.sizeOf_kind_lt (declaration : Declaration) :
    sizeOf declaration.kind < sizeOf declaration := by
  cases declaration
  simp +arith

@[local grind →] theorem sizeOf_resultExpr {result : Option ResultClause}
    (h : part ∈ resultExprs result) :
    sizeOf part < sizeOf result := by
  cases result <;> grind [resultExprs]

@[local grind →] theorem EnumMember.sizeOf_expr {member : EnumMember} (h : part ∈ member.exprs) :
    sizeOf part < sizeOf member := by
  cases member
  grind [EnumMember.exprs]

/-- The arguments for another constructor stand in the call of it. -/
theorem sizeOf_chainArguments {statement : Statement} {chain : Target.ChainKind} {number : NodeId}
    {arguments : List Argument}
    (h : statement.constructorChain? = some (chain, number, arguments)) :
    sizeOf arguments < sizeOf statement := by
  have hcall : ∀ id target, Expr.invocation id target arguments ∈ statement.kind.exprs →
      sizeOf arguments < sizeOf statement := by
    intro id target hmem
    have hvalue := StatementKind.sizeOf_expr hmem
    have := statement.sizeOf_kind_lt
    simp at hvalue
    omega
  unfold Statement.constructorChain? at h
  dsimp only at h
  split at h
  · next id access receiver name given hvalue =>
    have hgiven : given = arguments := by
      split at h
      · split at h <;> simp_all
      · cases h
    subst hgiven
    refine hcall id (.memberAccess access (some receiver) name) ?_
    split at hvalue
    · simp_all [StatementKind.exprs]
    · simp_all [StatementKind.exprs]
    · cases hvalue
  · cases h

@[local grind →] theorem sizeOf_chainExpr {body : List Statement} (h : part ∈ chainExprs body) :
    sizeOf part < sizeOf body := by
  unfold chainExprs at h
  split at h
  · next hchain =>
    obtain ⟨_, hfirst, hchain⟩ := Option.bind_eq_some_iff.mp hchain
    have hcall := sizeOf_chainArguments hchain
    have := sizeOf_lt_of_mem (mem_of_mem_head? hfirst)
    grind
  · cases h

theorem DeclarationKind.sizeOf_expr {kind : DeclarationKind} (h : part ∈ kind.exprs) :
    sizeOf part < sizeOf kind := by
  cases kind <;> grind [DeclarationKind.exprs]

theorem DeclarationKind.sizeOf_accessorExpr {kind : DeclarationKind}
    (h : part ∈ kind.accessorExprs) :
    sizeOf part < sizeOf kind := by
  cases kind <;> grind [DeclarationKind.accessorExprs]

theorem DeclarationKind.sizeOf_statement {kind : DeclarationKind} (h : inside ∈ kind.statements) :
    sizeOf inside < sizeOf kind := by
  cases kind <;> grind [DeclarationKind.statements]

theorem DeclarationKind.sizeOf_declaration {kind : DeclarationKind} {inside : Declaration}
    (h : inside ∈ kind.declarations) : sizeOf inside < sizeOf kind := by
  cases kind <;> grind [DeclarationKind.declarations]

end Sizes

/-! ## Nesting -/

namespace Construct

theorem sizeOf_lt {part : Construct} (h : part ∈ construct.parts) :
    sizeOf part < sizeOf construct := by
  cases construct with
  | expr =>
    rw [parts, mem_append, mem_map, mem_map] at h
    obtain ⟨_, hmem, rfl⟩ | ⟨_, hmem, rfl⟩ := h
    · simpa using Expr.sizeOf_part hmem
    · simpa using Expr.sizeOf_statement hmem
  | statement node =>
    have hkind := node.sizeOf_kind_lt
    rw [parts, mem_append, mem_map, mem_map] at h
    obtain ⟨_, hmem, rfl⟩ | ⟨_, hmem, rfl⟩ := h
    · simpa using Nat.lt_trans (StatementKind.sizeOf_expr hmem) hkind
    · simpa using Nat.lt_trans (StatementKind.sizeOf_statement hmem) hkind
  | declaration node =>
    have hkind := node.sizeOf_kind_lt
    rw [parts, mem_append, mem_append, mem_map, mem_map, mem_map] at h
    obtain (⟨_, hmem, rfl⟩ | ⟨_, hmem, rfl⟩) | ⟨_, hmem, rfl⟩ := h
    · obtain hmem | hmem := mem_append.mp hmem
      · simpa using Nat.lt_trans (DeclarationKind.sizeOf_expr hmem) hkind
      · simpa using Nat.lt_trans (DeclarationKind.sizeOf_accessorExpr hmem) hkind
    · simpa using Nat.lt_trans (DeclarationKind.sizeOf_statement hmem) hkind
    · simpa using Nat.lt_trans (DeclarationKind.sizeOf_declaration hmem) hkind

/-- The largest number of constructs on a way down. -/
def nesting (construct : Construct) : Nat :=
  (construct.parts.attach.map fun part => part.1.nesting).foldr max 0 + 1
termination_by sizeOf construct
decreasing_by exact sizeOf_lt part.2

/-- The largest number of constructs on a way down from any of some constructs. -/
def deepest (constructs : List Construct) : Nat :=
  (constructs.map nesting).foldr max 0

theorem nesting_eq (construct : Construct) : construct.nesting = deepest construct.parts + 1 := by
  rw [nesting, attach_map_val, deepest]

theorem nesting_le_deepest {constructs : List Construct} (h : construct ∈ constructs) :
    construct.nesting ≤ deepest constructs := by
  induction constructs with
  | nil => cases h
  | cons first rest ih =>
    rw [deepest, map_cons, foldr_cons]
    obtain rfl | h := mem_cons.mp h
    · exact Nat.le_max_left ..
    · exact Nat.le_trans (ih h) (Nat.le_max_right ..)

/-- A part is nested less deep than the whole. -/
theorem nesting_lt {part : Construct} (h : part ∈ construct.parts) :
    part.nesting < construct.nesting := by
  rw [nesting_eq construct]
  exact Nat.lt_succ_of_le (nesting_le_deepest h)

end Construct

end Sharpen.Source
