import Sharpen.Convert.Unit
import Sharpen.Proofs.Renumbering.Tree

/-!
# What is read off a node

What the rules of the conversion read off a node themselves, without a table, does not depend on the
numbers in it: its kind, what is written in it, the conversion of its names and types. The number of
a node, and the numbers in a statement, change like the statement does.
-/

namespace Sharpen.Source

open List

variable (f : NodeId → NodeId)

/-! ## Lists -/

/-- A recursion along a list that changes each item. -/
theorem eq_map_of_cons {α : Type} {change : List α → List α} {item : α → α} (hnil : change [] = [])
    (hcons : ∀ first rest, change (first :: rest) = item first :: change rest) :
    change = List.map item := by
  funext items
  induction items with
  | nil => exact hnil
  | cons first rest ih => rw [hcons, ih, map_cons]

/-- A list gets new numbers item by item. -/
@[simp] theorem listRenumber_eq :
    TypeSyntax.listRenumber f = List.map (.renumber f) ∧
    Expr.listRenumber f = List.map (.renumber f) ∧
    Argument.listRenumber f = List.map (.renumber f) ∧
    Content.listRenumber f = List.map (.renumber f) ∧
    FieldValue.listRenumber f = List.map (.renumber f) ∧
    Attribute.listRenumber f = List.map (.renumber f) ∧
    Attribute.listsRenumber f = List.map (Attribute.listRenumber f) ∧
    Parameter.listRenumber f = List.map (.renumber f) ∧
    DeclaredName.listRenumber f = List.map (.renumber f) ∧
    Declarator.listRenumber f = List.map (.renumber f) ∧
    Statement.listRenumber f = List.map (.renumber f) ∧
    CaseClause.listRenumber f = List.map (.renumber f) ∧
    CaseBlock.listRenumber f = List.map (.renumber f) ∧
    CatchBlock.listRenumber f = List.map (.renumber f) ∧
    Declaration.listRenumber f = List.map (.renumber f) := by
  repeat' apply And.intro
  all_goals exact eq_map_of_cons rfl fun _ _ => rfl

/-! ## Names and types -/

/-- The number of a name is the new one. -/
theorem Name.id_renumber (name : Name) : (name.renumber f).id = f name.id := by
  cases name with
  | simple name =>
    cases name
    rfl
  | qualified => rfl
  | «global» => rfl

/-- The last part of a name is written as before. -/
theorem Name.lastIdentifier_renumber (name : Name) :
    (name.renumber f).lastIdentifier = name.lastIdentifier := by
  cases name with
  | simple name =>
    cases name
    rfl
  | qualified _ _ right =>
    cases right
    rfl
  | «global» => rfl

theorem SimpleName.id_renumber (name : SimpleName) : (name.renumber f).id = f name.id := by
  cases name
  rfl

/-- A name has type arguments as before. -/
theorem SimpleName.isGeneric_renumber (name : SimpleName) :
    (name.renumber f).isGeneric = name.isGeneric := by
  obtain ⟨_, _, typeArguments⟩ := name
  cases typeArguments <;> rfl

/-- What names and types are converted to does not depend on their numbers. -/
theorem convertTypes_renumber :
    (∀ name : SimpleName, (name.renumber f).convert = name.convert) ∧
    (∀ types, convertTypes (TypeSyntax.listRenumber f types) = convertTypes types) ∧
    (∀ type : TypeSyntax, (type.renumber f).convert = type.convert) ∧
    ∀ name : Name, (name.renumber f).convert = name.convert := by
  have hempty (types : List TypeSyntax) :
      (TypeSyntax.listRenumber f types).isEmpty = types.isEmpty := by
    cases types <;> rfl
  apply SimpleName.convert.mutual_induct
  all_goals intros
  all_goals simp! only [*, if_true, if_false, Bool.false_eq_true]
  -- only the root namespace is left out in front of a name
  all_goals
    cases ‹Name› with
    | «global» id => simp_all
    | _ => simp_all!

/-- A name that is used as an expression. -/
theorem SimpleName.convertName_renumber (name : SimpleName) :
    Inner.name (name.renumber f) = Inner.name name := by
  unfold Inner.name
  rw [name.isGeneric_renumber f]
  cases name
  simp only [SimpleName.renumber, convertTypes_renumber]

/-- An import is converted as before. -/
theorem ImportsClause.convert_renumber (clause : ImportsClause) :
    (clause.renumber f).convert = clause.convert := by
  cases clause with
  | simple _ name =>
    simp only [ImportsClause.renumber, ImportsClause.convert, convertTypes_renumber]
  | xmlNamespace => rfl

theorem AsClause.loopType_renumber (clause : AsClause) :
    (clause.renumber f).loopType = clause.loopType := by
  cases clause with
  | absent => rfl
  | simple _ type => exact (convertTypes_renumber f).2.2.1 type
  | new => rfl

/-- What is read off the constraints is what is read off each of them. -/
theorem filterMap_renumber {α : Type} (change : α → α) {read : TypeConstraint → Option α}
    (h : ∀ constraint, read (constraint.renumber f) = (read constraint).map change)
    (constraints : List TypeConstraint) :
    (constraints.map (.renumber f)).filterMap read = (constraints.filterMap read).map change := by
  rw [filterMap_map, map_filterMap, show read ∘ TypeConstraint.renumber f = _ from funext h]

/-- A test of the constraints that each of them passes as before. -/
theorem any_renumber {test : TypeConstraint → Bool}
    (h : ∀ constraint, test (constraint.renumber f) = test constraint)
    (constraints : List TypeConstraint) :
    (constraints.map (.renumber f)).any test = constraints.any test := by
  rw [any_map, show test ∘ TypeConstraint.renumber f = test from funext h]

/-- Constraints are converted as before. -/
theorem convertConstraints_renumber (constraints : List TypeConstraint) :
    convertConstraints (constraints.map (.renumber f)) = convertConstraints constraints := by
  unfold convertConstraints
  rw [filterMap_renumber f id, filterMap_renumber f (TypeSyntax.renumber f), any_renumber f,
    map_id, ← (listRenumber_eq f).1, (convertTypes_renumber f).2.1]
  all_goals
    intro constraint
    cases constraint <;> rfl

/-- Type parameters are converted as before, with their constraints. -/
theorem convertTypeParameters_renumber (parameters : List TypeParameter) :
    convertTypeParameters (parameters.map (.renumber f)) = convertTypeParameters parameters := by
  have hclause : ∀ parameter : TypeParameter, (parameter.renumber f).clause? =
    parameter.clause? := by
    intro parameter
    have hempty : (parameter.constraints.map (TypeConstraint.renumber f)).isEmpty =
        parameter.constraints.isEmpty := isEmpty_map
    unfold TypeParameter.clause? TypeParameter.renumber
    simp only [hempty, convertConstraints_renumber]
  unfold convertTypeParameters
  rw [mapM_map, map_map]
  simp only [Function.comp_def, hclause]
  rfl

/-! ## Expressions -/

/-- The number of an expression is the new one. -/
theorem Expr.id_renumber (value : Expr) : (value.renumber f).id = f value.id := by
  cases value with
  | name simple =>
    cases simple
    rfl
  | _ => rfl

/-- An expression is called in messages what it was called before. -/
theorem Expr.kindName_renumber (value : Expr) : (value.renumber f).kindName = value.kindName := by
  cases value with
  | name simple =>
    exact congrArg (fun isGeneric => if isGeneric then "GenericName" else "IdentifierName")
      (simple.isGeneric_renumber f)
  | cast _ kind => cases kind <;> rfl
  | _ => rfl

/-- `Nothing` is still `Nothing`. -/
theorem Expr.isNothing_renumber (value : Expr) :
    (value.renumber f).isNothing = value.isNothing := by
  cases value with
  | literal _ value => cases value <;> rfl
  | _ => rfl

theorem Expr.isReferable_renumber (value : Expr) :
    (value.renumber f).isReferable = value.isReferable := by
  cases value <;> rfl

theorem Expr.isOne_renumber (value : Expr) : (value.renumber f).isOne = value.isOne := by
  cases value with
  | literal _ value => cases value <;> rfl
  | _ => rfl

/-- A step is negated as before. -/
theorem Expr.isNegated_renumber (value : Expr) :
    (value.renumber f).isNegated = value.isNegated := by
  fun_induction isNegated value with
  | case1 _ _ ih => exact ih
  | case2 => rfl
  | case3 value hparenthesized hminus =>
    cases value with
    | parenthesized id operand => exact absurd rfl (hparenthesized id operand)
    | unary id operator operand =>
      cases operator with
      | minus => exact absurd rfl (hminus id operand)
      | _ => rfl
    | _ => rfl

theorem Argument.isOmitted_renumber (argument : Argument) :
    Inner.isOmitted (argument.renumber f) = Inner.isOmitted argument := by
  cases argument <;> rfl

/-- An attribute for `out` is recognised by its name. -/
theorem Attribute.isOut_renumber (mark : Attribute) : (mark.renumber f).isOut = mark.isOut := by
  obtain ⟨_, _, name, arguments⟩ := mark
  have hempty : (Argument.listRenumber f arguments).isEmpty = arguments.isEmpty := by
    cases arguments <;> rfl
  rw [Attribute.renumber, isOut, isOut, hempty, name.lastIdentifier_renumber]

/-- So it is among other attributes. -/
theorem Attribute.any_isOut_renumber (lists : List (List Attribute)) :
    ((Attribute.listsRenumber f lists).any fun list => list.any (·.isOut)) =
      lists.any fun list => list.any (·.isOut) := by
  simp [any_map, Function.comp_def, Attribute.isOut_renumber]

/-- The other attributes are left with their new numbers. -/
theorem Attribute.filter_isOut_renumber (lists : List (List Attribute)) :
    ((Attribute.listsRenumber f lists).map fun list => list.filter fun mark => !mark.isOut) =
      Attribute.listsRenumber f (lists.map fun list => list.filter fun mark => !mark.isOut) := by
  simp [filter_map, Function.comp_def, Attribute.isOut_renumber]

theorem Parameter.identifier_renumber (parameter : Parameter) :
    (parameter.renumber f).identifier = parameter.identifier := by
  cases parameter
  rfl

theorem Parameter.isSome_asType_renumber (parameter : Parameter) :
    (parameter.renumber f).asType.isSome = parameter.asType.isSome := by
  cases parameter
  exact Option.isSome_map

/-- A parameter is plain as before. -/
theorem Parameter.isPlain_renumber (parameter : Parameter) :
    (parameter.renumber f).isPlain = parameter.isPlain := by
  obtain ⟨_, attributes, _, _, _, _, asType, defaultValue⟩ := parameter
  cases attributes <;> cases asType <;> cases defaultValue <;> rfl

/-! ## Statements and declarations -/

/-- A statement is called in messages what it was called before. -/
theorem StatementKind.kindName_renumber (kind : StatementKind) :
    (kind.renumber f).kindName = kind.kindName := by
  cases kind <;> rfl

/-- So is a declaration. -/
theorem DeclarationKind.kindName_renumber (kind : DeclarationKind) :
    (kind.renumber f).kindName = kind.kindName := by
  cases kind <;> rfl

/-- The call of another constructor, with new numbers. -/
def renumberChain (chain : Target.ChainKind × NodeId × List Argument) :
    Target.ChainKind × NodeId × List Argument :=
  (chain.1, f chain.2.1, Argument.listRenumber f chain.2.2)

/-- An expression calls another constructor as before. -/
theorem Expr.constructorChain?_renumber (id : NodeId) (value : Expr) (trivia : Trivia) :
    (Statement.mk (f id) (.expression (value.renumber f)) trivia).constructorChain? =
      (Statement.mk id (.expression value) trivia).constructorChain?.map (renumberChain f) := by
  cases value with
  | invocation call target arguments =>
    cases target with
    | memberAccess access receiver name =>
      obtain ⟨nameId, identifier, typeArguments⟩ := name
      cases receiver with
      | none => rfl
      | some receiver =>
        change Statement.constructorChain? ⟨f id,
          .expression (.invocation (f call) (.memberAccess (f access)
          (some (receiver.renumber f)) ⟨f nameId, identifier,
            TypeSyntax.listRenumber f typeArguments⟩)
          (Argument.listRenumber f arguments)), trivia⟩ = _
        unfold Statement.constructorChain? SimpleName.unescaped
        dsimp only
        split
        · cases receiver <;> rfl
        · rfl
    | _ => rfl
  | _ => rfl

/-- The call of another constructor has its new numbers. -/
theorem Statement.constructorChain?_renumber (statement : Statement) :
    (statement.renumber f).constructorChain? =
      statement.constructorChain?.map (renumberChain f) := by
  obtain ⟨id, kind, trivia⟩ := statement
  cases kind with
  | expression value | call value => exact value.constructorChain?_renumber f id trivia
  | _ => rfl

/-! ## The numbers in a statement -/

/-- The numbers of parameters are the new ones. -/
theorem parameterIds_renumber (parameters : List Parameter) :
    (Parameter.listRenumber f parameters).map (·.id) = (parameters.map (·.id)).map f := by
  simp only [listRenumber_eq, map_map]
  exact map_congr_left fun ⟨_, _, _, _, _, _, _, _⟩ _ => rfl

/-- The numbers that the walk through a statement finds are the new ones of those it found before.
The induction is along the walk, and new numbers come in the order of the old ones at each node of
it. -/
theorem nodeIds_renumber :
    (∀ x, (Expr.renumber f x).nodeIds = x.nodeIds.map f) ∧
    (∀ x, FieldValue.listNodeIds (FieldValue.listRenumber f x) = (FieldValue.listNodeIds x).map f) ∧
    (∀ x, (FieldValue.renumber f x).nodeIds = x.nodeIds.map f) ∧
    (∀ x, (LambdaBody.renumber f x).nodeIds = x.nodeIds.map f) ∧
    (∀ x, Statement.listNodeIds (Statement.listRenumber f x) = (Statement.listNodeIds x).map f) ∧
    (∀ x, (Statement.renumber f x).nodeIds = x.nodeIds.map f) ∧
    (∀ x, (StatementKind.renumber f x).nodeIds = x.nodeIds.map f) ∧
    (∀ x, Expr.listNodeIds (Expr.listRenumber f x) = (Expr.listNodeIds x).map f) ∧
    (∀ x, (LoopTest.renumber f x).nodeIds = x.nodeIds.map f) ∧
    (∀ x, CatchBlock.listNodeIds (CatchBlock.listRenumber f x) = (CatchBlock.listNodeIds x).map f) ∧
    (∀ x, (CatchBlock.renumber f x).nodeIds = x.nodeIds.map f) ∧
    (∀ x, Expr.optionNodeIds (Expr.optionRenumber f x) = (Expr.optionNodeIds x).map f) ∧
    (∀ x, CaseBlock.listNodeIds (CaseBlock.listRenumber f x) = (CaseBlock.listNodeIds x).map f) ∧
    (∀ x, (CaseBlock.renumber f x).nodeIds = x.nodeIds.map f) ∧
    (∀ x, CaseClause.listNodeIds (CaseClause.listRenumber f x) = (CaseClause.listNodeIds x).map f) ∧
    (∀ x, (CaseClause.renumber f x).nodeIds = x.nodeIds.map f) ∧
    (∀ x, (LoopControl.renumber f x).nodeIds = x.nodeIds.map f) ∧
    (∀ x, (Declarator.renumber f x).nodeIds = x.nodeIds.map f) ∧
    (∀ x, (AsClause.renumber f x).nodeIds = x.nodeIds.map f) ∧
    (∀ x, DeclaredName.listNodeIds (DeclaredName.listRenumber f x) =
      (DeclaredName.listNodeIds x).map f) ∧
    (∀ x, (DeclaredName.renumber f x).nodeIds = x.nodeIds.map f) ∧
    (∀ x, Argument.optionNodeIds (Argument.optionRenumber f x) = (Argument.optionNodeIds x).map f) ∧
    (∀ x, Argument.listNodeIds (Argument.listRenumber f x) = (Argument.listNodeIds x).map f) ∧
    (∀ x, (Argument.renumber f x).nodeIds = x.nodeIds.map f) ∧
    (∀ x, ElseIfBlock.listNodeIds (ElseIfBlock.listRenumber f x) =
      (ElseIfBlock.listNodeIds x).map f) ∧
    (∀ x, (ElseIfBlock.renumber f x).nodeIds = x.nodeIds.map f) ∧
    (∀ x, Statement.optionNodeIds (Statement.optionRenumber f x) =
      (Statement.optionNodeIds x).map f) ∧
    (∀ x, Declarator.listNodeIds (Declarator.listRenumber f x) = (Declarator.listNodeIds x).map f) ∧
    (∀ x, (Initializer.renumber f x).nodeIds = x.nodeIds.map f) ∧
    (∀ x, Content.listNodeIds (Content.listRenumber f x) = (Content.listNodeIds x).map f) ∧
    ∀ x, (Content.renumber f x).nodeIds = x.nodeIds.map f := by
  apply Expr.nodeIds.mutual_induct
  all_goals
    intros
    simp! only [*, parameterIds_renumber, map_append, SimpleName.id_renumber]

end Sharpen.Source
