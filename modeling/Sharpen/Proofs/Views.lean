import Sharpen.Proofs.Comments
import Sharpen.Proofs.StatementImage
import Sharpen.Proofs.TargetParts

/-!
# What shows through braces and comments

The conversion puts braces around statements, and comments over them, where the target needs them.
For many questions neither matters: the jumps of a body are the same with and without them, and so
is the order of its statements. A `View` lists what a statement has to show for such a question. It
sees the same of statements before and after they have become a branch, the body of a loop or a
section of a `switch`.
-/

namespace Sharpen

open List

open Target (Statement)

/-- What a statement has to show, seen through braces and comments. -/
structure View (α : Type) where
  see : Statement → List α
  empty : see .empty = []
  block : ∀ statements, see (.block statements) = statements.flatMap see
  commented : ∀ trivia inner, see (.commented trivia inner) = see inner

/-! ## Jumps at the end -/

def lastIsJump (statements : List Statement) : Bool :=
  statements.getLast?.any Statement.isJump

theorem lastIsJump_eq_of_uncommented {first second : List Statement}
    (h : first.map Statement.uncommented = second.map Statement.uncommented) :
    lastIsJump first = lastIsJump second := by
  have hlast := congrArg List.getLast? h
  rw [List.getLast?_map, List.getLast?_map] at hlast
  unfold lastIsJump
  generalize first.getLast? = last at hlast ⊢
  generalize second.getLast? = other at hlast ⊢
  cases last with
  | none =>
    cases other with
    | none => rfl
    | some other => cases hlast
  | some last =>
    cases other with
    | none => cases hlast
    | some other =>
      have hsame : last.uncommented = other.uncommented := Option.some.inj hlast
      simp only [Option.any_some, Statement.isJump, hsame]

theorem lastIsJump_attachHeader (trivia : Trivia) (statements : List Statement) :
    lastIsJump (attachHeader trivia statements) = lastIsJump statements := by
  cases statements with
  | nil =>
    obtain h | ⟨_, h⟩ := attachHeader_nil trivia
    · rw [h]
    · rw [h]
      rfl
  | cons first rest =>
    exact lastIsJump_eq_of_uncommented
      (map_uncommented_attachHeader trivia (cons_ne_nil first rest))

/-! ## What is put around statements -/

section Braces

variable {α : Type} {see : Statement → List α} (block : ∀ statements, see (.block statements) =
  statements.flatMap see)
include block

theorem see_embedded (statements : List Statement) :
    see (embedded statements) = statements.flatMap see := by
  unfold embedded
  split
  · exact block _
  · exact block _
  · exact (flatMap_singleton ..).symm
  · exact block _

theorem see_thenBranch (hasElse : Bool) (statements : List Statement) :
    see (thenBranch hasElse statements) = statements.flatMap see := by
  rw [← see_embedded block]
  unfold thenBranch
  split
  · next heq =>
    rw [heq]
    split
    · rw [block, flatMap_singleton]
    · rfl
  · rfl

/-- A section ends with a jump: its own, or one that leaves the `switch`. -/
theorem flatMap_sectionBody (statements : List Statement) : (sectionBody statements).flatMap see =
      statements.flatMap see ++ if lastIsJump statements then [] else see .break := by
  have hended : (endedCase statements).flatMap see =
      statements.flatMap see ++ if lastIsJump statements then [] else see .break := by
    unfold endedCase lastIsJump
    split
    · rw [append_nil]
    · rw [flatMap_append, flatMap_singleton]
  obtain h | h := sectionBody_eq statements
  · rw [h, flatMap_singleton, block, hended]
  · rw [h, hended]

end Braces

namespace View

variable {α : Type} (view : View α)

theorem see_uncommented (statement : Statement) :
    view.see statement.uncommented = view.see statement := by
  induction statement using Statement.inductionOnParts with
  | h statement ih =>
    cases statement with
    | commented _ inner =>
      rw [Statement.uncommented, view.commented]
      exact ih inner (mem_singleton_self _)
    | _ => rfl

theorem flatMap_eq_of_uncommented {first second : List Statement}
    (h : first.map Statement.uncommented = second.map Statement.uncommented) :
    first.flatMap view.see = second.flatMap view.see := by
  have hmap : ∀ statements : List Statement,
      statements.flatMap view.see = (statements.map Statement.uncommented).flatMap view.see := by
    intro statements
    rw [flatMap_map]
    exact flatMap_congr fun statement _ => (view.see_uncommented statement).symm
  rw [hmap first, hmap second, h]

theorem flatMap_attachStatements (trivia : Trivia) (statements : List Statement) :
    (attachStatements trivia statements).flatMap view.see = statements.flatMap view.see :=
  view.flatMap_eq_of_uncommented (map_uncommented_attachStatements trivia statements)

theorem flatMap_attachHeader (trivia : Trivia) (statements : List Statement) :
    (attachHeader trivia statements).flatMap view.see = statements.flatMap view.see := by
  cases statements with
  | nil =>
    obtain h | ⟨_, h⟩ := attachHeader_nil trivia
    · rw [h]
    · rw [h, flatMap_singleton, view.commented, view.empty, flatMap_nil]
  | cons first rest =>
    exact view.flatMap_eq_of_uncommented
      (map_uncommented_attachHeader trivia (cons_ne_nil first rest))

end View

/-- The comments of an `ElseIf` header change nothing but the first branch, and there nothing that
shows. -/
theorem exists_branch_of_header (trivia : Trivia) (condition : Target.Expr) (branch : Statement)
    (elseBody : Option Statement) :
    ∃ inside, headerIntoBranch trivia (.if condition branch elseBody) =
      .if condition inside elseBody ∧
      ∀ {α : Type} (view : View α), view.see inside = view.see branch := by
  obtain ⟨-, h⟩ | ⟨-, _, hbranch, h⟩ := headerIntoBranch_if trivia condition branch elseBody
  · exact ⟨branch, h, fun _ => rfl⟩
  · refine ⟨_, h, fun view => ?_⟩
    rw [view.block, view.flatMap_attachHeader]
    obtain rfl | rfl := hbranch
    · exact (view.block _).symm
    · exact flatMap_singleton ..

end Sharpen
