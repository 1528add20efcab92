import Sharpen.Proofs.Jumps.Reach
import Sharpen.Proofs.Placement.Statement

/-!
# The order of statements

A walk over a body meets its statements in the order in which they are written, each one before
those inside it. On the source side the walk makes a `Stop` at every statement; also at each
`ElseIf` block, since it becomes an `if` of its own, and at the end of each `Case` block, since
control leaves the block there. On the target side braces and comments are no statements of their
own, and an empty statement is there for its comments only.

`Met` says what is met in the target for a stop of the source: what the table of the conversion has
for it. `Becomes` says it once more in terms that both languages share, the `StatementSort`.
-/

namespace Sharpen

/-- The sorts of statements that both languages have. -/
inductive StatementSort where
  | declaration
  | expression
  | jump
  | yield
  | choice (hasElse : Bool)
  | loop
  | switch (sections : Nat)
  | try (catches : Nat) (hasFinally : Bool)
  | lock
  | using
  deriving DecidableEq

/-! ## The source -/

namespace Source

/-- What a walk over the source comes to, and the body that it stands in. -/
inductive Stop where
  | statement (body : Body) (statement : Statement)
  /-- an `ElseIf` block, before the others and the `Else` block -/
  | elseIf (body : Body) (block : ElseIfBlock) (others : List ElseIfBlock)
      (elseStatements : Option (List Statement))
  /-- the end of the statements of a `Case` block -/
  | caseEnd (statements : List Statement)

mutual

/-- The stops inside a statement. -/
def StatementKind.preorder (body : Body) : StatementKind → List Stop
  | .singleLineIf _ statements none => preorder body statements
  | .singleLineIf _ statements (some elseStatements) =>
    preorder body statements ++ preorder body elseStatements
  | .multiLineIf _ statements elseIfs none =>
    preorder body statements ++ elseIfPreorder body none elseIfs
  | .multiLineIf _ statements elseIfs (some elseStatements) =>
    preorder body statements ++ elseIfPreorder body (some elseStatements) elseIfs ++
      preorder body elseStatements
  | .for _ _ _ _ statements | .forEach _ _ statements => preorder (body.inside .for) statements
  | .while _ statements => preorder (body.inside .while) statements
  | .doLoop _ _ statements => preorder (body.inside .do) statements
  | .select _ cases => casePreorder (body.inside .select) cases
  | .with _ statements | .syncLock _ statements | .usingValue _ statements
  | .usingVariables _ statements => preorder body statements
  | .try statements catches none => preorder body statements ++ catchPreorder body catches
  | .try statements catches (some finallyStatements) =>
    preorder body statements ++ catchPreorder body catches ++ preorder body finallyStatements
  | _ => []

def preorder (body : Body) : List Statement → List Stop
  | [] => []
  | ⟨id, kind, trivia⟩ :: rest =>
    .statement body ⟨id, kind, trivia⟩ :: kind.preorder body ++ preorder body rest

def elseIfPreorder (body : Body) (elseStatements : Option (List Statement)) :
    List ElseIfBlock → List Stop
  | [] => []
  | ⟨condition, statements, trivia⟩ :: rest =>
    .elseIf body ⟨condition, statements, trivia⟩ rest elseStatements :: preorder body statements ++
      elseIfPreorder body elseStatements rest

def casePreorder (body : Body) : List CaseBlock → List Stop
  | [] => []
  | ⟨_, statements, _⟩ :: rest =>
    preorder body statements ++ .caseEnd statements :: casePreorder body rest

def catchPreorder (body : Body) : List CatchBlock → List Stop
  | [] => []
  | ⟨_, _, _, _, statements, _⟩ :: rest => preorder body statements ++ catchPreorder body rest

end

/-- The sort of a statement. A `With` block declares the variable for its target. -/
def StatementKind.sort? : StatementKind → Option StatementSort
  | .localDeclaration .. | .with .. => some .declaration
  | .expression _ | .call _ | .assignment .. | .raiseEvent .. | .addHandler .. | .removeHandler ..
  | .stop | .end => some .expression
  | .return _ | .exit _ | .continue _ | .throw _ => some .jump
  | .yield _ => some .yield
  | .singleLineIf _ _ elseStatements => some (.choice elseStatements.isSome)
  | .multiLineIf _ _ elseIfs elseStatements =>
    some (.choice (!elseIfs.isEmpty || elseStatements.isSome))
  | .for .. | .forEach .. | .while .. | .doLoop .. => some .loop
  | .select _ cases => some (.switch cases.length)
  | .try _ catches finallyStatements => some (.try catches.length finallyStatements.isSome)
  | .syncLock .. => some .lock
  | .usingValue .. | .usingVariables .. => some .using
  | .onErrorGoTo _ | .onErrorResumeNext | .resume _ | .reDim .. | .erase _ | .goTo _ | .label _ =>
    none

/-- A statement that declares variables of any number of types. -/
def StatementKind.declaresMany : StatementKind → Bool
  | .localDeclaration .. | .usingVariables .. => true
  | _ => false

/-- The sort of what a stop becomes. -/
def Stop.sort? : Stop → Option StatementSort
  | .statement _ node => node.kind.sort?
  | .elseIf _ _ others elseStatements => some (.choice (!others.isEmpty || elseStatements.isSome))
  | .caseEnd _ => some .jump

/-- A stop for which exactly one statement is met. -/
def Stop.isSingle : Stop → Bool
  | .statement _ node => !node.kind.declaresMany
  | .elseIf .. => true
  | .caseEnd statements => !endsInJump statements

end Source

/-! ## The target -/

namespace Target

mutual

/-- The statements that a walk over a statement meets. -/
def Statement.preorder : Statement → List Statement
  | .block statements => preorder statements
  | .commented _ inner => inner.preorder
  | .empty => []
  | .if condition body none => .if condition body none :: body.preorder
  | .if condition body (some alternative) =>
    .if condition body (some alternative) :: body.preorder ++ alternative.preorder
  | .for opening condition incrementors body =>
    .for opening condition incrementors body :: body.preorder
  | .forEach type identifier items body => .forEach type identifier items body :: body.preorder
  | .while condition body => .while condition body :: body.preorder
  | .do body condition => .do body condition :: body.preorder
  | .switch subject sections => .switch subject sections :: sectionPreorder sections
  | .try body catches none => .try body catches none :: preorder body ++ catchPreorder catches
  | .try body catches (some finallyBody) =>
    .try body catches (some finallyBody) :: preorder body ++ catchPreorder catches ++
      preorder finallyBody
  | .lock subject body => .lock subject body :: body.preorder
  | .using opening body => .using opening body :: body.preorder
  | .localDeclaration modifiers declared => [.localDeclaration modifiers declared]
  | .expression value => [.expression value]
  | .return value => [.return value]
  | .yieldReturn value => [.yieldReturn value]
  | .yieldBreak => [.yieldBreak]
  | .break => [.break]
  | .continue => [.continue]
  | .throw value => [.throw value]

/-- The statements that a walk over a body meets. -/
def preorder : List Statement → List Statement
  | [] => []
  | statement :: rest => statement.preorder ++ preorder rest

def sectionPreorder : List SwitchSection → List Statement
  | [] => []
  | ⟨_, statements⟩ :: rest => preorder statements ++ sectionPreorder rest

/-- The statements in the `catch` clauses of a `try`. -/
def catchPreorder : List CatchClause → List Statement
  | [] => []
  | ⟨_, _, body⟩ :: rest => preorder body ++ catchPreorder rest

end

theorem preorder_nil : preorder [] = [] := by
  simp only [preorder]

theorem preorder_cons (statement : Statement) (rest : List Statement) :
    preorder (statement :: rest) = statement.preorder ++ preorder rest := by
  simp only [preorder]

/-- The order of statements shows through braces and comments. -/
def preorderView : View Statement where
  see := Statement.preorder
  empty := by simp only [Statement.preorder]
  block statements := by rw [Statement.preorder,
    Source.eq_flatMap_of_append preorder_nil preorder_cons]
  commented trivia inner := by simp only [Statement.preorder]

theorem preorder_eq_flatMap (statements : List Statement) :
    preorder statements = statements.flatMap preorderView.see :=
  Source.eq_flatMap_of_append preorder_nil preorder_cons statements

theorem Statement.preorder_if (condition : Expr) (body : Statement) (elseBody : Option Statement) :
    (Statement.if condition body elseBody).preorder =
      .if condition body elseBody :: body.preorder ++ elseBody.elim [] Statement.preorder := by
  cases elseBody with
  | none => rw [Statement.preorder, Option.elim_none, List.append_nil]
  | some alternative => rw [Statement.preorder, Option.elim_some]

theorem Statement.preorder_block (statements : List Statement) :
    (Statement.block statements).preorder = Target.preorder statements := by
  rw [Statement.preorder]

theorem preorder_declarations (modifiers : List Modifier) (groups : List Variables) :
    preorder (groups.map (.localDeclaration modifiers)) =
      groups.map (.localDeclaration modifiers) := by
  induction groups with
  | nil => exact preorder_nil
  | cons group rest ih =>
    rw [List.map_cons, preorder_cons, ih]
    rfl

theorem preorder_embedded (statements : List Statement) :
    (embedded statements).preorder = preorder statements := by
  rw [preorder_eq_flatMap]
  exact see_embedded preorderView.block statements

theorem preorder_thenBranch (hasElse : Bool) (statements : List Statement) :
    (thenBranch hasElse statements).preorder = preorder statements := by
  rw [preorder_eq_flatMap]
  exact see_thenBranch preorderView.block hasElse statements

theorem preorder_attachHeader (trivia : Trivia) (statements : List Statement) :
    preorder (attachHeader trivia statements) = preorder statements := by
  rw [preorder_eq_flatMap, preorder_eq_flatMap]
  exact preorderView.flatMap_attachHeader trivia statements

/-- The sort of a statement that a walk can meet. -/
def Statement.sort? : Statement → Option StatementSort
  | .localDeclaration .. => some .declaration
  | .expression _ => some .expression
  | .return _ | .yieldBreak | .break | .continue | .throw _ => some .jump
  | .yieldReturn _ => some .yield
  | .if _ _ elseBody => some (.choice elseBody.isSome)
  | .for .. | .forEach .. | .while .. | .do .. => some .loop
  | .switch _ sections => some (.switch sections.length)
  | .try _ catches finallyBody => some (.try catches.length finallyBody.isSome)
  | .lock .. => some .lock
  | .using .. => some .using
  | .block _ | .empty | .commented .. => none

/-- A `using` and those that stand directly inside it, the outermost first. -/
def Statement.usings : Statement → List Statement
  | .using opening body => .using opening body :: body.usings
  | _ => []

end Target

/-! ## Stops and what is met for them -/

/-- The statements of an image that stand for the statement itself, and not for those inside it. Of
a `With` block this is the declaration that opens it. -/
def Source.StatementKind.heads : StatementKind → List Target.Statement → List Target.Statement
  | .with .., [.block (opening :: _)] => [opening]
  -- the resources stand one inside the other, so the walk meets them before the statements inside
  | .usingVariables .., [outermost] => outermost.usings
  | _, converted => converted

/-- What is met for a stop. -/
inductive Met (inner : Inner) : Source.Stop → List Target.Statement → Prop where
  | statement {body statement converted} (h : Image inner body statement.kind converted) :
      Met inner (.statement body statement) (statement.kind.heads converted)
  | elseIf {body block others elseStatements chained}
      (h : IfImage inner body block.condition block.statements elseStatements others chained) :
      Met inner (.elseIf body block others elseStatements) [headerIntoBranch block.trivia chained]
  /-- where control would run into the next section, it leaves the `switch` -/
  | caseEnd {statements} :
      Met inner (.caseEnd statements) (if Source.endsInJump statements then [] else [.break])

end Sharpen
