import Sharpen.Target.Build

/-!
# The parts of a target node

What stands directly inside a name, type, expression or statement of a target tree (`Node.parts`),
and the lambdas that stand anywhere inside: their parameters, and the blocks that are their bodies
(`Node.EachBody`, `Node.EachLambda`). A body is looked at as a whole: jumps and `else` branches
never reach out of it.
-/

namespace Sharpen.Target

open List

/-- A name, type, expression or statement. -/
inductive Node where
  | name (name : Name)
  | type (type : TypeSyntax)
  | expr (expr : Expr)
  | statement (statement : Statement)

/-! ## Direct parts -/

/-- The types directly inside a name, and the names it is made of. -/
def Name.parts : Name → List Node
  | .identifier _ => []
  | .generic _ typeArguments => typeArguments.map .type
  | .qualified left right => [.name left, .name right]
  | .aliasQualified _ name => [.name name]

/-- What a type is made of. The sizes of an array creation count. -/
def TypeSyntax.parts : TypeSyntax → List Node
  | .predefined _ | .var => []
  | .named name => [.name name]
  | .array element ranks => .type element :: ranks.flatten.flatMap fun size => size.toList.map .expr
  | .nullable element => [.type element]

/-- The expressions of a piece of an interpolated string. -/
def Content.parts : Content → List Node
  | .text _ => []
  | .hole value alignment _ => .expr value :: alignment.toList.map .expr

/-- The items of a braced initializer. -/
def Braces.parts : Braces → List Node
  | .absent => []
  | .present _ items => items.map .expr

/-- The names and expressions of lists of attributes. -/
def attributeParts (lists : List AttributeList) : List Node :=
  lists.flatMap fun list => list.attributes.flatMap fun mark =>
    .name mark.name :: mark.arguments.map (.expr ·.value)

/-- What a parameter is made of. -/
def Parameter.parts (parameter : Parameter) : List Node :=
  attributeParts parameter.attributes ++ parameter.type.toList.map .type ++
    parameter.defaultValue.toList.map .expr

def LambdaParameters.parts : LambdaParameters → List Node
  | .simple _ => []
  | .list parameters => parameters.flatMap Parameter.parts

def LambdaBody.parts : LambdaBody → List Node
  | .expression value => [.expr value]
  | .block statements => statements.map .statement

/-- The type and the initial values of declared variables. -/
def Variables.parts (group : Variables) : List Node :=
  .type group.type :: group.declarators.flatMap fun declarator =>
    declarator.initializer.toList.map .expr

/-- The parts of what opens a `for` or `using`. -/
def Opening.parts : Opening → List Node
  | .declared group => group.parts
  | .expressions values => values.map .expr

def Expr.parts : Expr → List Node
  | .literal _ | .identifier _ | .predefinedType _ | .aliasQualified _ _ | .this | .base
  | .memberBinding _ => []
  | .interpolated contents => contents.flatMap Content.parts
  | .generic _ typeArguments => typeArguments.map .type
  | .memberAccess receiver _ typeArguments => .expr receiver :: typeArguments.map .type
  | .conditionalAccess receiver whenNotNull => [.expr receiver, .expr whenNotNull]
  | .invocation target arguments | .elementAccess target arguments =>
    .expr target :: arguments.map (.expr ·.value)
  | .objectCreation type arguments initializer =>
    .type type :: (arguments.getD []).map (.expr ·.value) ++ initializer.parts
  | .arrayCreation type initializer => .type type :: initializer.parts
  | .implicitArray _ items | .braces _ items => items.map .expr
  | .anonymousObject fields => fields.map (.expr ·.value)
  | .binary left _ right | .assignment left _ right => [.expr left, .expr right]
  | .prefixUnary _ operand | .postfixUnary operand _ | .parenthesized operand | .await operand
  | .commented operand _ => [.expr operand]
  | .conditional condition whenTrue whenFalse => [.expr condition, .expr whenTrue, .expr whenFalse]
  | .cast type operand | .as operand type | .is operand type => [.type type, .expr operand]
  | .typeOf type | .defaultOf type => [.type type]
  | .lambda _ parameters body => parameters.parts ++ body.parts

/-- The statements directly inside a statement, in the order in which they are written. -/
def Statement.statements : Statement → List Statement
  | .block statements => statements
  | .if _ body elseBody => body :: elseBody.toList
  | .for _ _ _ body | .forEach _ _ _ body | .while _ body | .do body _ | .lock _ body
  | .using _ body => [body]
  | .switch _ sections => sections.flatMap (·.statements)
  | .try body catches finallyBody => body ++ catches.flatMap (·.body) ++ finallyBody.getD []
  | .commented _ inner => [inner]
  | _ => []

section Sizes

variable {α : Type} [SizeOf α] {item : α}

theorem sizeOf_lt_of_mem_toList {items : Option α} (h : item ∈ items.toList) :
    sizeOf item < sizeOf items := by
  obtain rfl := Option.mem_toList.mp h
  simp

theorem sizeOf_lt_of_mem_getD {items : Option (List α)} (h : item ∈ items.getD []) :
    sizeOf item < sizeOf items := by
  cases items with
  | none => cases h
  | some items => exact Nat.lt_add_left 1 (sizeOf_lt_of_mem h)

attribute [local grind →] sizeOf_lt_of_mem sizeOf_lt_of_mem_toList sizeOf_lt_of_mem_getD
attribute [local grind cases] SwitchSection CatchClause

theorem Statement.sizeOf_lt_of_mem {statement part : Statement} (h : part ∈ statement.statements) :
    sizeOf part < sizeOf statement := by
  cases statement <;> grind [Statement.statements]

end Sizes

/-- Induction over the statements inside a statement. -/
theorem Statement.inductionOnParts {P : Statement → Prop}
    (h : ∀ statement, (∀ part ∈ statement.statements, P part) → P statement)
    (statement : Statement) :
    P statement :=
  h statement fun part hpart =>
    have := Statement.sizeOf_lt_of_mem hpart
    inductionOnParts h part
termination_by sizeOf statement

/-- The type that a `catch` names. -/
def CatchHeader.parts : CatchHeader → List Node
  | .all => []
  | .typed type _ => [.type type]

/-- The types and expressions directly inside a statement. -/
def Statement.terms : Statement → List Node
  | .localDeclaration _ declared => declared.parts
  | .expression value | .yieldReturn value => [.expr value]
  | .return value | .throw value => value.toList.map .expr
  | .if condition _ _ | .while condition _ | .do _ condition => [.expr condition]
  | .for opening condition incrementors _ =>
    opening.parts ++ condition.toList.map .expr ++ incrementors.map .expr
  | .forEach type _ items _ => [.type type, .expr items]
  | .switch subject sections =>
    .expr subject :: sections.flatMap fun part => part.labels.flatMap fun label =>
      label.toList.map .expr
  | .try _ catches _ =>
    catches.flatMap fun clause => clause.header.parts ++ clause.filter.toList.map .expr
  | .lock subject _ => [.expr subject]
  | .using opening _ => opening.parts
  | .block _ | .yieldBreak | .break | .continue | .empty | .commented _ _ => []

/-- What stands directly inside a node. -/
def Node.parts : Node → List Node
  | .name node => node.parts
  | .type node => node.parts
  | .expr node => node.parts
  | .statement node => node.terms ++ node.statements.map .statement

/-! ## Lambdas -/

/-- Either every parameter of a lambda has a type or none has. -/
def LambdaParameters.isUniform : LambdaParameters → Bool
  | .simple _ => true
  | .list parameters => parameters.all (·.type.isSome) || parameters.all (·.type.isNone)

def Node.body? : Node → Option (List Statement)
  | .expr (.lambda _ _ (.block statements)) => some statements
  | _ => none

/-- A block is the body of a lambda somewhere inside a node. -/
inductive Node.HasBody (block : List Statement) : Node → Prop where
  | here {node : Node} (h : node.body? = some block) : HasBody block node
  | inside {node part : Node} (hpart : part ∈ node.parts) (h : HasBody block part) :
      HasBody block node

/-- The bodies of all lambdas inside a node have a property. -/
def Node.EachBody (P : List Statement → Prop) (node : Node) : Prop :=
  ∀ block, node.HasBody block → P block

def Node.parameters? : Node → Option LambdaParameters
  | .expr (.lambda _ parameters _) => some parameters
  | _ => none

/-- A node that is a lambda is one with uniform parameters, and its block has a property. -/
def Node.LambdaWith (P : List Statement → Prop) (node : Node) : Prop :=
  (∀ parameters ∈ node.parameters?, parameters.isUniform) ∧ ∀ block ∈ node.body?, P block

/-- A node and all nodes inside it have a property. -/
inductive Node.Everywhere (P : Node → Prop) : Node → Prop where
  | intro {node : Node} (hnode : P node) (hparts : ∀ part ∈ node.parts, part.Everywhere P) :
      Everywhere P node

/-- All lambdas inside a node have uniform parameters, and their blocks have a property. -/
def Node.EachLambda (P : List Statement → Prop) (node : Node) : Prop :=
  node.Everywhere (LambdaWith P)

/-- All of some nodes hold only such lambdas. -/
def EachLambdaOf (P : List Statement → Prop) (nodes : List Node) : Prop :=
  ∀ node ∈ nodes, node.EachLambda P

namespace EachLambdaOf

variable {P : List Statement → Prop} {node : Node} {nodes others : List Node}

theorem nil : EachLambdaOf P [] :=
  forall_mem_nil _

theorem cons (h : node.EachLambda P) (hothers : EachLambdaOf P others) :
    EachLambdaOf P (node :: others) :=
  forall_mem_cons.mpr ⟨h, hothers⟩

theorem one (h : node.EachLambda P) : EachLambdaOf P [node] :=
  .cons h .nil

theorem append (h : EachLambdaOf P nodes) (hothers : EachLambdaOf P others) :
    EachLambdaOf P (nodes ++ others) :=
  forall_mem_append.mpr ⟨h, hothers⟩

theorem map {α : Type} {items : List α} {f : α → Node} (h : ∀ item ∈ items, (f item).EachLambda P) :
    EachLambdaOf P (items.map f) :=
  forall_mem_map.mpr h

theorem flatMap {α : Type} {items : List α} {f : α → List Node}
    (h : ∀ item ∈ items, EachLambdaOf P (f item)) :
    EachLambdaOf P (items.flatMap f) :=
  forall_mem_flatMap.mpr h

end EachLambdaOf

namespace Node.EachLambda

variable {P Q : List Statement → Prop} {node : Node}

theorem here (h : node.EachLambda P) : node.LambdaWith P := by
  cases h with
  | intro hnode hparts => exact hnode

theorem of_mem_parts (h : node.EachLambda P) {part : Node} (hpart : part ∈ node.parts) :
    part.EachLambda P := by
  cases h with
  | intro hnode hparts => exact hparts part hpart

theorem mono (himp : ∀ block, P block → Q block) (h : node.EachLambda P) : node.EachLambda Q := by
  induction h with
  | intro hnode hparts ih =>
    exact .intro ⟨hnode.1, fun block hblock => himp block (hnode.2 block hblock)⟩ ih

/-- A node that is no lambda is left to its parts. -/
theorem around (hlambda : node.parameters? = none) (hparts : EachLambdaOf P node.parts) :
    node.EachLambda P := by
  refine .intro ⟨?_, ?_⟩ hparts
  · rw [hlambda]
    rintro _ ⟨⟩
  · intro block hblock
    unfold Node.body? at hblock
    split at hblock
    · cases hlambda
    · cases hblock

theorem leaf (hlambda : node.parameters? = none) (hparts : node.parts = []) : node.EachLambda P :=
  .around hlambda (hparts ▸ .nil)

/-- A lambda with a block. -/
theorem lambda {isAsync : Bool} {parameters : LambdaParameters} {statements : List Statement}
    (huniform : parameters.isUniform) (hparameters : EachLambdaOf P parameters.parts)
    (hbody : P statements)
    (hstatements : ∀ statement ∈ statements, (Node.statement statement).EachLambda P) :
    (Node.expr (.lambda isAsync parameters (.block statements))).EachLambda P := by
  refine .intro ⟨?_, ?_⟩ (hparameters.append (.map hstatements))
  · rintro _ ⟨⟩
    exact huniform
  · rintro _ ⟨⟩
    exact hbody

/-- A lambda that gives a value. -/
theorem lambdaValue {isAsync : Bool} {parameters : LambdaParameters} {value : Expr}
    (huniform : parameters.isUniform) (hparameters : EachLambdaOf P parameters.parts)
    (hvalue : (Node.expr value).EachLambda P) :
    (Node.expr (.lambda isAsync parameters (.expression value))).EachLambda P := by
  refine .intro ⟨?_, ?_⟩ (hparameters.append (.one hvalue))
  · rintro _ ⟨⟩
    exact huniform
  · rintro _ ⟨⟩

theorem eachBody (h : node.EachLambda P) : node.EachBody P := by
  intro block hblock
  induction hblock with
  | here hbody => exact h.here.2 block hbody
  | inside hpart _ ih => exact ih (h.of_mem_parts hpart)

end Node.EachLambda

end Sharpen.Target
