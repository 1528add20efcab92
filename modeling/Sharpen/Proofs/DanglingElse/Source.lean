import Sharpen.Proofs.Outline
import Sharpen.Proofs.SourceParts

/-!
# `Else` branches of the source

In the source every `If` says where it ends, so its branches are what the tree says they are:
`StatementKind.forks`. An `ElseIf` is an `If` in the `Else` branch of the one before it.

Of the statements that stand alone in a branch, the conversion drops the braces. `LosesElse` says
where that goes wrong: a branch that an `Else` or `ElseIf` follows consists of nothing but a loop
that ends, by way of single statements only, in an `If` without `Else`. A branch that is itself a
single `If` does no harm, since it gets its braces.
-/

namespace Sharpen

/-- Where an `if` starts, where its other branch starts, and where it ends. -/
inductive Fork where
  | if | else | endIf
  deriving DecidableEq

namespace Target

/-- The fork that a mark stands for. -/
def Mark.fork? : Mark → Option Fork
  | .if => some .if
  | .else => some .else
  | .endIf => some .endIf
  | _ => none

def forksOf (outline : List Mark) : List Fork :=
  outline.filterMap Mark.fork?

end Target

namespace Source

mutual

def StatementKind.forks : StatementKind → List Fork
  | .singleLineIf _ statements none => .if :: forksIn statements ++ [.endIf]
  | .singleLineIf _ statements (some elseStatements) =>
    .if :: forksIn statements ++ .else :: forksIn elseStatements ++ [.endIf]
  | .multiLineIf _ statements elseIfs none =>
    .if :: forksIn statements ++ elseForks [] elseIfs ++ [.endIf]
  | .multiLineIf _ statements elseIfs (some elseStatements) =>
    .if :: forksIn statements ++ elseForks (.else :: forksIn elseStatements) elseIfs ++ [.endIf]
  | .for _ _ _ _ statements | .forEach _ _ statements | .with _ statements | .syncLock _ statements
  | .usingValue _ statements | .usingVariables _ statements | .while _ statements
  | .doLoop _ _ statements => forksIn statements
  | .select _ cases => caseForks cases
  | .try statements catches none => forksIn statements ++ catchForks catches
  | .try statements catches (some finallyStatements) =>
    forksIn statements ++ catchForks catches ++ forksIn finallyStatements
  | _ => []

def forksIn : List Statement → List Fork
  | [] => []
  | ⟨_, kind, _⟩ :: rest => kind.forks ++ forksIn rest

/-- The forks of `ElseIf` blocks, each one inside the one before it, and of what comes last. -/
def elseForks (last : List Fork) : List ElseIfBlock → List Fork
  | [] => last
  | ⟨_, statements, _⟩ :: rest =>
    .else :: .if :: forksIn statements ++ elseForks last rest ++ [.endIf]

def caseForks : List CaseBlock → List Fork
  | [] => []
  | ⟨_, statements, _⟩ :: rest => forksIn statements ++ caseForks rest

def catchForks : List CatchBlock → List Fork
  | [] => []
  | ⟨_, _, _, _, statements, _⟩ :: rest => forksIn statements ++ catchForks rest

end

/-- The statement that statements amount to: the only one that writes something, if it has no
comments. -/
def lone? (statements : List Statement) : Option StatementKind :=
  match loud statements with
  | [only] => if only.trivia.isEmpty then some only.kind else none
  | _ => none

def StatementKind.isIf : StatementKind → Bool
  | .singleLineIf .. | .multiLineIf .. => true
  | _ => false

/-- An `If` without `Else`. -/
def StatementKind.isOpenIf : StatementKind → Bool
  | .singleLineIf _ _ none | .multiLineIf _ _ _ none => true
  | _ => false

/-- The statements at the end of a statement that may have no braces around them: the `Else` branch
of an `If`, the body of a loop that is not tested at the bottom. -/
def StatementKind.unbraced? : StatementKind → Option (List Statement)
  | .singleLineIf _ _ (some elseStatements) | .multiLineIf _ _ _ (some elseStatements) =>
    some elseStatements
  | .for _ _ _ _ statements | .forEach _ _ statements | .while _ statements
  | .doLoop _ .absent statements => some statements
  | _ => none

/-- Statements that end, by way of single statements only, in an `If` without `Else`. -/
inductive Opens : List Statement → Prop where
  | here {statements : List Statement} {kind : StatementKind} (hlone : lone? statements = some kind)
      (h : kind.isOpenIf) : Opens statements
  | inside {statements part : List Statement} {kind : StatementKind}
      (hlone : lone? statements = some kind) (hpart : kind.unbraced? = some part) (h : Opens part) :
      Opens statements

/-- A statement that ends, by way of single statements only, in an `If` without `Else`. -/
def StatementKind.Opens (kind : StatementKind) : Prop :=
  kind.isOpenIf ∨ ∃ part, kind.unbraced? = some part ∧ Source.Opens part

theorem opens_iff {statements : List Statement} :
    Opens statements ↔ ∃ kind, lone? statements = some kind ∧ kind.Opens := by
  constructor
  · intro h
    cases h with
    | here hlone h => exact ⟨_, hlone, .inl h⟩
    | inside hlone hpart h => exact ⟨_, hlone, .inr ⟨_, hpart, h⟩⟩
  · rintro ⟨_, hlone, h | ⟨_, hpart, h⟩⟩
    · exact .here hlone h
    · exact .inside hlone hpart h

/-- A statement that writes something and does not end, without braces, in others. -/
def StatementKind.isClosed (kind : StatementKind) : Bool :=
  !kind.isSilent && !kind.isIf && kind.unbraced?.isNone

variable {kind : StatementKind}

theorem StatementKind.isIf_of_isOpenIf (h : kind.isOpenIf) : kind.isIf := by
  cases kind <;> first | rfl | cases h

theorem StatementKind.not_opens_of_isClosed (h : kind.isClosed) : ¬ kind.Opens := by
  simp only [isClosed, Bool.and_eq_true, Bool.not_eq_true', Option.isNone_iff_eq_none] at h
  rintro (hopen | ⟨_, hpart, -⟩)
  · simp [isIf_of_isOpenIf hopen] at h
  · simp [hpart] at h

theorem StatementKind.loop_facts {statements : List Statement}
    (h : kind.unbraced? = some statements) (hif : kind.isIf = false) :
    kind.forks = forksIn statements ∧ kind.statements = statements ∧ kind.isOpenIf = false ∧
      kind.isSilent = false := by
  unfold unbraced? at h
  split at h <;> cases h <;> first | exact ⟨rfl, rfl, rfl, rfl⟩ | cases hif

/-- A branch that takes the `else` behind it for its own: nothing but a statement that ends in an
`If` without `Else` and is no `If` itself. -/
def CapturesElse (branch : List Statement) : Prop :=
  ∃ kind, lone? branch = some kind ∧ ¬ kind.isIf ∧ kind.Opens

/-- The branches of an `If` that another branch follows. The comments of an `ElseIf` go into its
branch, which gets braces for them; such a branch is left out. -/
def elsedBranches (isBare : Bool) (statements : List Statement) (hasElse : Bool) :
    List ElseIfBlock → List (List Statement)
  | [] => if isBare && hasElse then [statements] else []
  | block :: rest =>
    (if isBare then [statements] else []) ++
      elsedBranches block.trivia.isEmpty block.statements hasElse rest

/-- The branches of a statement that another branch follows. -/
def StatementKind.elsedBranches : StatementKind → List (List Statement)
  | .singleLineIf _ statements elseStatements =>
    Source.elsedBranches true statements elseStatements.isSome []
  | .multiLineIf _ statements elseIfs elseStatements =>
    Source.elsedBranches true statements elseStatements.isSome elseIfs
  | _ => []

/-- Somewhere in the statement, in the same body, a branch takes the `else` behind it for its own.
-/
inductive StatementKind.LosesElse : StatementKind → Prop where
  | branch {kind : StatementKind} {branch : List Statement} (hbranch : branch ∈ kind.elsedBranches)
      (h : CapturesElse branch) : LosesElse kind
  | inside {kind : StatementKind} {part : Statement} (hpart : part ∈ kind.statements)
      (h : LosesElse part.kind) : LosesElse kind

theorem StatementKind.elsedBranches_of_not_isIf (h : kind.isIf = false) :
    kind.elsedBranches = [] := by
  cases kind <;> first | rfl | cases h

/-- In one of the statements a branch takes the `else` behind it for its own. -/
def ElseLost (statements : List Statement) : Prop :=
  ∃ statement ∈ statements, statement.kind.LosesElse

theorem StatementKind.losesElse_iff :
    kind.LosesElse ↔ (∃ branch ∈ kind.elsedBranches, CapturesElse branch) ∨
      ElseLost kind.statements := by
  constructor
  · intro h
    cases h with
    | branch hbranch h => exact .inl ⟨_, hbranch, h⟩
    | inside hpart h => exact .inr ⟨_, hpart, h⟩
  · rintro (⟨_, hbranch, h⟩ | ⟨_, hpart, h⟩)
    · exact .branch hbranch h
    · exact .inside hpart h

/-- In a statement that is no `If`, it is the parts that count. -/
theorem StatementKind.losesElse_iff_parts (h : kind.isIf = false) :
    kind.LosesElse ↔ ElseLost kind.statements := by
  rw [losesElse_iff, elsedBranches_of_not_isIf h]
  simp

@[simp] theorem not_elseLost_nil : ¬ ElseLost [] := by
  simp [ElseLost]

@[simp] theorem elseLost_cons {statement : Statement} {rest : List Statement} :
    ElseLost (statement :: rest) ↔ statement.kind.LosesElse ∨ ElseLost rest := by
  simp [ElseLost]

@[simp] theorem elseLost_append {first second : List Statement} :
    ElseLost (first ++ second) ↔ ElseLost first ∨ ElseLost second := by
  simp [ElseLost, or_and_right, exists_or]

end Source

end Sharpen
