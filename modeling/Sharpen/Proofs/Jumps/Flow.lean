import Sharpen.Proofs.Views

/-!
# The flow of a body

What a jump does is a matter of the loops and choices around it. The flow of a body lists them:
where each loop and choice starts and ends, and between them the jumps, each with the number of the
block that it leaves or resumes. Blocks are counted from the jump outwards, within the body.

The two languages find that block in different ways. A jump of the source names a kind of block and
means the innermost one of that kind (`Source.named?`). In the target, `break` leaves whatever is
innermost (`Target.left?`) and `continue` resumes the innermost loop (`Target.resumed?`).
-/

namespace Sharpen

/-- What matters of a body for its jumps. -/
inductive FlowMark where
  /-- the start of a loop, or of a choice between sections -/
  | enter (isLoop : Bool)
  /-- the end of the last block that is still open -/
  | finish
  /-- a jump to the end of a block -/
  | leave (block : Option Nat)
  /-- a jump to the next turn of a loop -/
  | resume (block : Option Nat)
  deriving DecidableEq

/-- A jump that has a block to go to. -/
def FlowMark.hasTarget : FlowMark → Bool
  | .leave block | .resume block => block.isSome
  | _ => true

/-! ## The source -/

namespace Source

/-- A block other than a choice. -/
def BlockKind.isLoop (block : BlockKind) : Bool :=
  block != .select

/-- A block that `Exit` leaves without leaving the body. -/
def BlockKind.isBreakable : BlockKind → Bool
  | .do | .for | .while | .select => true
  | _ => false

/-- The innermost block of a kind. -/
def named? (scope : List BlockKind) (block : BlockKind) : Option Nat :=
  scope.findIdx? (· == block)

/-- A statement that control never gets past. -/
def StatementKind.isJump : StatementKind → Bool
  | .return _ | .exit _ | .continue _ | .throw _ => true
  | _ => false

theorem StatementKind.isJump_of_isSilent {kind : StatementKind} (h : kind.isSilent) :
    kind.isJump = false := by
  cases kind <;> first | rfl | cases h

/-- Statements whose end is never reached, since the last of them is a jump. -/
def endsInJump (statements : List Statement) : Bool :=
  (loud statements).getLast?.any fun statement => statement.kind.isJump

mutual

/-- The flow of a statement among blocks. -/
def StatementKind.flow (scope : List BlockKind) : StatementKind → List FlowMark
  | .exit block => if block.isBreakable then [.leave (named? scope block)] else []
  | .continue block => [.resume (named? scope block)]
  | .singleLineIf _ statements none => flowIn scope statements
  | .singleLineIf _ statements (some elseStatements) =>
    flowIn scope statements ++ flowIn scope elseStatements
  | .multiLineIf _ statements elseIfs none =>
    flowIn scope statements ++ elseIfFlow scope elseIfs
  | .multiLineIf _ statements elseIfs (some elseStatements) =>
    flowIn scope statements ++ elseIfFlow scope elseIfs ++ flowIn scope elseStatements
  | .for _ _ _ _ statements | .forEach _ _ statements =>
    .enter true :: flowIn (.for :: scope) statements ++ [.finish]
  | .while _ statements => .enter true :: flowIn (.while :: scope) statements ++ [.finish]
  | .doLoop _ _ statements => .enter true :: flowIn (.do :: scope) statements ++ [.finish]
  | .select _ cases => .enter false :: caseFlow (.select :: scope) cases ++ [.finish]
  | .with _ statements | .syncLock _ statements | .usingValue _ statements
  | .usingVariables _ statements => flowIn scope statements
  | .try statements catches none => flowIn scope statements ++ catchFlow scope catches
  | .try statements catches (some finallyStatements) =>
    flowIn scope statements ++ catchFlow scope catches ++ flowIn scope finallyStatements
  | _ => []

def flowIn (scope : List BlockKind) : List Statement → List FlowMark
  | [] => []
  | ⟨_, kind, _⟩ :: rest => kind.flow scope ++ flowIn scope rest

def elseIfFlow (scope : List BlockKind) : List ElseIfBlock → List FlowMark
  | [] => []
  | ⟨_, statements, _⟩ :: rest => flowIn scope statements ++ elseIfFlow scope rest

/-- The flow of `Case` blocks: at the end of each of them, the `Select` block is left. -/
def caseFlow (scope : List BlockKind) : List CaseBlock → List FlowMark
  | [] => []
  | ⟨_, statements, _⟩ :: rest =>
    flowIn scope statements ++ (if endsInJump statements then [] else [.leave (some 0)]) ++
      caseFlow scope rest

def catchFlow (scope : List BlockKind) : List CatchBlock → List FlowMark
  | [] => []
  | ⟨_, _, _, _, statements, _⟩ :: rest => flowIn scope statements ++ catchFlow scope rest

end

variable (scope : List BlockKind)

theorem flowIn_cons (statement : Statement) (rest : List Statement) :
    flowIn scope (statement :: rest) = statement.kind.flow scope ++ flowIn scope rest := by
  cases statement
  simp only [flowIn]

end Source

/-! ## The target -/

namespace Target

/-- What `break` leaves: the innermost block. -/
def left? (scope : List Bool) : Option Nat :=
  scope.findIdx? fun _ => true

/-- What `continue` resumes: the innermost loop. -/
def resumed? (scope : List Bool) : Option Nat :=
  scope.findIdx? fun isLoop => isLoop

mutual

/-- The flow of a statement among blocks, of which it is known whether they are loops. -/
def Statement.flow (scope : List Bool) : Statement → List FlowMark
  | .break => [.leave (left? scope)]
  | .continue => [.resume (resumed? scope)]
  | .for _ _ _ body | .forEach _ _ _ body | .while _ body | .do body _ =>
    .enter true :: body.flow (true :: scope) ++ [.finish]
  | .switch _ sections => .enter false :: sectionFlow (false :: scope) sections ++ [.finish]
  | .block statements => flowIn scope statements
  | .if _ body none => body.flow scope
  | .if _ body (some alternative) => body.flow scope ++ alternative.flow scope
  | .try body catches none => flowIn scope body ++ catchFlow scope catches
  | .try body catches (some finallyBody) =>
    flowIn scope body ++ catchFlow scope catches ++ flowIn scope finallyBody
  | .lock _ body | .using _ body | .commented _ body => body.flow scope
  | .localDeclaration _ _ | .expression _ | .return _ | .yieldReturn _ | .yieldBreak | .throw _
  | .empty => []

def flowIn (scope : List Bool) : List Statement → List FlowMark
  | [] => []
  | statement :: rest => statement.flow scope ++ flowIn scope rest

def sectionFlow (scope : List Bool) : List SwitchSection → List FlowMark
  | [] => []
  | ⟨_, statements⟩ :: rest => flowIn scope statements ++ sectionFlow scope rest

/-- The flow of the `catch` clauses of a `try`. -/
def catchFlow (scope : List Bool) : List CatchClause → List FlowMark
  | [] => []
  | ⟨_, _, body⟩ :: rest => flowIn scope body ++ catchFlow scope rest

end

variable (scope : List Bool)

@[simp] theorem flowIn_nil : flowIn scope [] = [] := by
  simp only [flowIn]

@[simp] theorem flowIn_cons (statement : Statement) (rest : List Statement) :
    flowIn scope (statement :: rest) = statement.flow scope ++ flowIn scope rest := by
  simp only [flowIn]

@[simp] theorem flowIn_append (first second : List Statement) :
    flowIn scope (first ++ second) = flowIn scope first ++ flowIn scope second := by
  induction first with
  | nil => simp
  | cons statement rest ih => simp [ih]

@[simp] theorem Statement.flow_block (statements : List Statement) :
    (Statement.block statements).flow scope = flowIn scope statements := by
  simp only [flow]

/-- The flow shows through braces and comments. -/
def flowView : View FlowMark where
  see := Statement.flow scope
  empty := by simp only [Statement.flow]
  block statements := by
    rw [Statement.flow_block, Source.eq_flatMap_of_append (flowIn_nil scope) (flowIn_cons scope)]
  commented trivia inner := by simp only [Statement.flow]

theorem flowIn_eq_flatMap (statements : List Statement) :
    flowIn scope statements = statements.flatMap (flowView scope).see :=
  (Statement.flow_block scope statements).symm.trans ((flowView scope).block statements)

end Target

end Sharpen
