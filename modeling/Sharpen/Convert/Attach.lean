import Sharpen.Target.Member

/-!
# Comments of converted nodes

One node of the source may become several of the target: its leading comments go to the first of
them and its trailing comment to the last. Comments that are already there stay closer to the code.
-/

namespace Sharpen

namespace Trivia

/-- Two comments behind a line: one after the other. -/
def joinTrailing : Option String → Option String → Option String
  | some existing, some added => some (existing ++ " " ++ added)
  | some existing, none => some existing
  | none, added => added

/-- Comments with others around them. -/
def around (outer inner : Trivia) : Trivia where
  leading := outer.leading ++ inner.leading
  trailing := joinTrailing inner.trailing outer.trailing

end Trivia

/-- Puts comments around a statement. -/
def Target.Statement.addTrivia (trivia : Trivia) : Target.Statement → Target.Statement
  | .commented existing inner => .commented (trivia.around existing) inner
  | other => other.withTrivia trivia

/-- Puts comments around a member. -/
def Target.Member.addTrivia (trivia : Trivia) : Target.Member → Target.Member
  | .commented existing inner => .commented (trivia.around existing) inner
  | other => other.withTrivia trivia

/-- Puts a trailing comment on the last node. -/
def attachLast {α : Type} (add : Trivia → α → α) (trailing : Option String) : List α → List α
  | [] => []
  | [last] => [add { trailing } last]
  | node :: rest => node :: attachLast add trailing rest

/-- Puts comments on nodes: the leading ones on the first, the trailing one on the last. -/
def attachTrivia {α : Type} (add : Trivia → α → α) (trivia : Trivia) : List α → List α
  | [] => []
  | [only] => [add trivia only]
  | first :: rest => add { leading := trivia.leading } first :: attachLast add trivia.trailing rest

/-- The statements that a source statement became, with its comments. -/
def attachStatements (trivia : Trivia) (statements : List Target.Statement) :
    List Target.Statement :=
  if trivia.isEmpty then statements
  else attachTrivia Target.Statement.addTrivia trivia.convert statements

/-- The members that a source declaration became, with its comments. -/
def attachMembers (trivia : Trivia) (members : List Target.Member) : List Target.Member :=
  if trivia.isEmpty then members else attachTrivia Target.Member.addTrivia trivia.convert members

/-- The statements of a block with the comments of its header, which all come before them. -/
def attachHeader (trivia : Trivia) (statements : List Target.Statement) : List Target.Statement :=
  if trivia.isEmpty then statements
  else
    let header : Trivia := { leading := trivia.leading ++ trivia.trailing.toList }
    match statements with
    | [] => [Target.Statement.empty.withTrivia header.convert]
    | statements => attachStatements header statements

end Sharpen
