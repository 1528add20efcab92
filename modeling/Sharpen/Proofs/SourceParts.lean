import Sharpen.Convert.Member

/-!
# The parts of a source node

What stands directly inside a node of a source tree, as lists:

* `Expr.parts` and `Expr.statements`: the expressions in an expression, and the statements of a
  lambda;
* `StatementKind.exprs` and `StatementKind.statements`: the same for a statement, with
  `StatementKind.block?` for the kind of block that a jump inside can name;
* `DeclarationKind.exprs`, `DeclarationKind.statements` and `DeclarationKind.declarations`.

`Node.HasBody` says which statements are the body of a lambda anywhere inside a node.

A rule of the conversion looks at a node and at the conversions of its parts. Two places look one
node further down: the bound `n - 1` of an array stands for `n`, and the call of another constructor
is taken apart where it stands. What they find there counts as a part as well.
-/

namespace Sharpen.Source

open List

/-- A recursion along a list that only appends. -/
theorem eq_flatMap_of_append {α β : Type} {f : List α → List β} {g : α → List β} (hnil : f [] = [])
    (hcons : ∀ item rest, f (item :: rest) = g item ++ f rest) (items : List α) :
    f items = items.flatMap g := by
  induction items with
  | nil => exact hnil
  | cons item rest ih => rw [hcons, ih, flatMap_cons]

/-! ## Pieces of expressions -/

def Argument.exprs : Argument → List Expr
  | .simple _ _ value => [value]
  | .omitted _ => []

/-- The expressions of a bound of an array: of `n - 1` also `n`. -/
def Argument.boundExprs : Argument → List Expr
  | .simple _ _ (.binary id .subtract left right) => [.binary id .subtract left right, left]
  | .simple _ _ value => [value]
  | .omitted _ => []

/-- The expressions of a piece of an interpolated string. -/
def Content.exprs : Content → List Expr
  | .text _ => []
  | .hole _ value alignment _ => value :: alignment.toList

/-- The expressions behind an object creation. -/
def Initializer.exprs : Initializer → List Expr
  | .absent => []
  | .collection _ items => items
  | .members fields => fields.map (·.value)

def attributeExprs (lists : List (List Attribute)) : List Expr :=
  lists.flatten.flatMap fun mark => mark.arguments.flatMap Argument.exprs

theorem mem_attributeExprs_of_filter {lists : List (List Attribute)} {keep : Attribute → Bool}
    {expr : Expr} (h : expr ∈ attributeExprs (lists.map fun list => list.filter keep)) :
    expr ∈ attributeExprs lists := by
  obtain ⟨mark, hmark, hexpr⟩ := mem_flatMap.mp h
  obtain ⟨_, hkept, hmark⟩ := mem_flatten.mp hmark
  obtain ⟨list, hlist, rfl⟩ := mem_map.mp hkept
  refine mem_flatMap.mpr ⟨mark, ?_, hexpr⟩
  exact mem_flatten.mpr ⟨list, hlist, (mem_filter.mp hmark).1⟩

def Parameter.exprs (parameter : Parameter) : List Expr :=
  attributeExprs parameter.attributes ++ parameter.defaultValue.toList

def DeclaredName.exprs (name : DeclaredName) : List Expr :=
  (name.arrayBounds.getD []).flatMap Argument.boundExprs

def AsClause.exprs : AsClause → List Expr
  | .absent => []
  | .simple attributes _ => attributeExprs attributes
  | .new creation => [creation]

def Declarator.exprs (declarator : Declarator) : List Expr :=
  declarator.names.flatMap DeclaredName.exprs ++ declarator.asClause.exprs ++
    declarator.initializer.toList

/-- The expression of a lambda that gives its value. -/
def LambdaBody.exprs : LambdaBody → List Expr
  | .expression value => [value]
  | _ => []

def LambdaBody.statements : LambdaBody → List Statement
  | .expression _ => []
  | .statement only => [only]
  | .block statements => statements

/-! ## Expressions -/

/-- The expressions directly inside an expression. -/
def Expr.parts : Expr → List Expr
  | .interpolated _ contents => contents.flatMap Content.exprs
  | .memberAccess _ receiver _ => receiver.toList
  | .conditionalAccess _ receiver whenNotNull => [receiver, whenNotNull]
  | .invocation _ target arguments => target :: arguments.flatMap Argument.exprs
  | .objectCreation _ _ arguments initializer =>
    (arguments.getD []).flatMap Argument.exprs ++ initializer.exprs
  | .arrayCreation _ _ bounds _ _ items => (bounds.getD []).flatMap Argument.boundExprs ++ items
  | .collection _ items => items
  | .binary _ _ left right => [left, right]
  | .binaryConditional _ first second => [first, second]
  | .ternaryConditional _ condition whenTrue whenFalse => [condition, whenTrue, whenFalse]
  | .unary _ _ operand | .parenthesized _ operand | .cast _ _ operand
      _ | .predefinedCast _ _ operand
  | .typeOf _ operand _ _ | .nameOf _ operand | .await _ operand => [operand]
  | .lambda _ _ _ parameters _ body => parameters.flatMap Parameter.exprs ++ body.exprs
  | .anonymousObject _ fields => fields.map (·.value)
  | .name _ | .literal _ _ | .global _ | .predefinedType _ _ | .me _ | .myBase _ | .myClass _
  | .getType _ _ | .query _ _ | .xmlLiteral _ _ => []

/-- The statements directly inside an expression: those of a lambda. -/
def Expr.statements : Expr → List Statement
  | .lambda _ _ _ _ _ body => body.statements
  | _ => []

/-! ## Statements -/

/-- The expressions of what a `Case` compares with. -/
def CaseClause.exprs : CaseClause → List Expr
  | .simple value => [value]
  | .relational _ value => [value]
  | .range lower upper => [lower, upper]
  | .else => []

/-- The expressions of what a loop counts with. -/
def LoopControl.exprs : LoopControl → List Expr
  | .declarator own => own.exprs
  | .existing target => [target]

def LoopTest.exprs : LoopTest → List Expr
  | .absent => []
  | .present _ condition => [condition]

/-- The expressions directly inside a statement. -/
def StatementKind.exprs : StatementKind → List Expr
  | .localDeclaration _ declarators => declarators.flatMap Declarator.exprs
  | .expression value | .call value | .yield value => [value]
  | .assignment _ left right => [left, right]
  | .return value | .throw value => value.toList
  | .raiseEvent _ arguments => arguments.flatMap Argument.exprs
  | .addHandler event handler | .removeHandler event handler => [event, handler]
  | .singleLineIf condition _ _ => [condition]
  | .multiLineIf condition _ elseIfs _ => condition :: elseIfs.map (·.condition)
  | .for control start limit step _ => control.exprs ++ start :: limit :: step.toList
  | .forEach control items _ => control.exprs ++ [items]
  | .select subject cases =>
    subject :: cases.flatMap fun block => block.clauses.flatMap CaseClause.exprs
  | .with target _ => [target]
  | .try _ catches _ => catches.flatMap fun block => block.filter.toList
  | .syncLock subject _ => [subject]
  | .usingValue resource _ => [resource]
  | .usingVariables resources _ => resources.flatMap Declarator.exprs
  | .while condition _ => [condition]
  | .doLoop top bottom _ => top.exprs ++ bottom.exprs
  | .reDim _ clauses => clauses
  | .erase targets => targets
  | .exit _ | .continue _ | .stop | .end | .onErrorGoTo _ | .onErrorResumeNext | .resume _ | .goTo _
  | .label _ => []

/-- The statements directly inside a statement, in the order in which they are written. -/
def StatementKind.statements : StatementKind → List Statement
  | .singleLineIf _ statements elseStatements => statements ++ elseStatements.getD []
  | .multiLineIf _ statements elseIfs elseStatements =>
    statements ++ elseIfs.flatMap (·.statements) ++ elseStatements.getD []
  | .for _ _ _ _ statements | .forEach _ _ statements | .with _ statements | .syncLock _ statements
  | .usingValue _ statements | .usingVariables _ statements | .while _ statements
  | .doLoop _ _ statements => statements
  | .select _ cases => cases.flatMap (·.statements)
  | .try statements catches finallyStatements =>
    statements ++ catches.flatMap (·.statements) ++ finallyStatements.getD []
  | _ => []

/-- The kind of block under which a jump inside can name a statement. -/
def StatementKind.block? : StatementKind → Option BlockKind
  | .for .. | .forEach .. => some .for
  | .while .. => some .while
  | .doLoop .. => some .do
  | .select .. => some .select
  | _ => none

/-- A declaration of no variables, which writes nothing. -/
def StatementKind.isSilent : StatementKind → Bool
  | .localDeclaration _ declarators => declarators.all fun declarator => declarator.names.isEmpty
  | _ => false

/-- The statements that write something. -/
def loud (statements : List Statement) : List Statement :=
  statements.filter fun statement => !statement.kind.isSilent

theorem loud_cons (statement : Statement) (rest : List Statement) :
    loud (statement :: rest) = if statement.kind.isSilent then loud rest else statement ::
      loud rest := by
  unfold loud
  rw [filter_cons]
  cases statement.kind.isSilent <;> rfl

/-! ## Bodies of lambdas -/

/-- An expression or a statement. -/
inductive Node where
  | expr (expr : Expr)
  | statement (statement : Statement)

/-- What stands directly inside a node. -/
def Node.parts : Node → List Node
  | .expr node => node.parts.map .expr ++ node.statements.map .statement
  | .statement node => node.kind.exprs.map .expr ++ node.kind.statements.map .statement

def Node.body? : Node → Option (List Statement)
  | .expr (.lambda _ _ _ _ _ (.statement only)) => some [only]
  | .expr (.lambda _ _ _ _ _ (.block statements)) => some statements
  | _ => none

/-- Statements are the body of a lambda somewhere inside a node. -/
inductive Node.HasBody (statements : List Statement) : Node → Prop where
  | here {node : Node} (h : node.body? = some statements) : HasBody statements node
  | inside {node part : Node} (hpart : part ∈ node.parts) (h : HasBody statements part) :
      HasBody statements node

theorem Expr.mem_statements_of_body {expr : Expr} {statements : List Statement} {part : Statement}
    (h : (Node.expr expr).body? = some statements) (hpart : part ∈ statements) :
    part ∈ expr.statements := by
  unfold Node.body? at h
  split at h
  · next heq =>
    cases heq
    cases h
    exact hpart
  · next heq =>
    cases heq
    cases h
    exact hpart
  · cases h

/-! ## Declarations -/

/-- The expressions of the clause that says what a method gives back. -/
def resultExprs (result : Option ResultClause) : List Expr :=
  attributeExprs ((result.map (·.attributes)).getD [])

def EnumMember.exprs (member : EnumMember) : List Expr :=
  attributeExprs member.attributes ++ member.initializer.toList

/-- The arguments for another constructor that a body starts with. -/
def chainExprs (body : List Statement) : List Expr :=
  match body.head?.bind Statement.constructorChain? with
  | some (_, _, arguments) => arguments.flatMap Argument.exprs
  | none => []

/-- The expressions directly inside a declaration. -/
def DeclarationKind.exprs : DeclarationKind → List Expr
  | .namespace _ _ => []
  | .type _ attributes _ _ _ _ _ _ => attributeExprs attributes
  | .enum attributes _ _ underlyingType members =>
    attributeExprs attributes ++ resultExprs underlyingType ++ members.flatMap EnumMember.exprs
  | .delegate _ attributes _ _ _ parameters result =>
    attributeExprs attributes ++ parameters.flatMap Parameter.exprs ++ resultExprs result
  | .field attributes _ declarators =>
    attributeExprs attributes ++ declarators.flatMap Declarator.exprs
  | .property attributes _ _ parameters asClause initializer accessors =>
    attributeExprs attributes ++ parameters.flatMap Parameter.exprs ++ asClause.exprs ++
      initializer.toList ++ (accessors.getD []).flatMap fun accessor =>
        attributeExprs accessor.attributes
  | .method _ attributes _ _ _ parameters result _ =>
    attributeExprs attributes ++ parameters.flatMap Parameter.exprs ++ resultExprs result
  | .constructor attributes _ parameters body =>
    attributeExprs attributes ++ parameters.flatMap Parameter.exprs ++ chainExprs body
  | .operator attributes _ _ parameters result _ =>
    attributeExprs attributes ++ parameters.flatMap Parameter.exprs ++ resultExprs result
  | .event attributes _ _ parameters _ accessors =>
    attributeExprs attributes ++ parameters.flatMap Parameter.exprs ++
      (accessors.getD []).flatMap fun accessor => attributeExprs accessor.attributes
  | .externalMethod _ _ => []

/-- The statements directly inside a declaration. -/
def DeclarationKind.statements : DeclarationKind → List Statement
  | .property _ _ _ _ _ _ accessors | .event _ _ _ _ _ accessors =>
    (accessors.getD []).flatMap (·.statements)
  | .method _ _ _ _ _ _ _ body => body.getD []
  | .constructor _ _ _ body | .operator _ _ _ _ _ body => body
  | _ => []

/-- The declarations directly inside a declaration. -/
def DeclarationKind.declarations : DeclarationKind → List Declaration
  | .namespace _ members | .type _ _ _ _ _ _ _ members => members
  | _ => []

end Sharpen.Source
