import Sharpen.Proofs.DanglingElse.Reading
import Sharpen.Proofs.DanglingElse.Source
import Sharpen.Proofs.Views

/-!
# Branches and what is put around them

Bodies are put in braces or left without, comments are put around statements, a `Case` gets a
`break` at its end. None of this changes the forks of the statements inside, nor whether an `else`
dangles among them. What it can change is whether a branch ends open: braces close it.
-/

namespace Sharpen

open List

variable {first second statements rest : List Target.Statement} {statement : Target.Statement}
  {trivia : Trivia}

namespace Target

/-! ## Forks -/

variable {mark : Mark} {marks others : List Mark}

@[simp] theorem forksOf_nil : forksOf [] = [] := rfl

@[simp] theorem forksOf_append : forksOf (marks ++ others) = forksOf marks ++ forksOf others :=
  filterMap_append

/-- A mark stands for one fork or for none. -/
@[simp] theorem forksOf_cons : forksOf (mark :: marks) = mark.fork?.toList ++ forksOf marks := by
  cases mark <;> rfl

/-- Braces are no forks. -/
@[simp] theorem forksOf_braced : forksOf (braced marks) = forksOf marks := by
  simp [braced, Mark.fork?]

@[simp] theorem outlines_nil : outlines [] = [] := by
  simp only [outlines]

@[simp] theorem outlines_cons :
    outlines (statement :: rest) = statement.outline ++ outlines rest := by
  simp only [outlines]

@[simp] theorem Statement.outline_block :
    (Statement.block statements).outline = braced (outlines statements) := by
  simp only [outline]

/-- The labels of a section are no forks. -/
theorem forksOf_sectionOutlines_cons (first : SwitchSection) (rest : List SwitchSection) :
    forksOf (sectionOutlines (first :: rest)) =
      forksOf (outlines first.statements) ++ forksOf (sectionOutlines rest) := by
  obtain ⟨labels⟩ := first
  have hlabels : forksOf (labels.map fun _ => .plain) = [] := by
    induction labels with
    | nil => rfl
    | cons label labels ih => exact ih
  rw [sectionOutlines, forksOf_append, forksOf_append, hlabels]
  rfl

/-- The head of a handler is no fork. -/
theorem forksOf_catchOutlines_cons (first : CatchClause) (rest : List CatchClause) :
    forksOf (catchOutlines (first :: rest)) = forksOf (outlines first.body) ++
      forksOf (catchOutlines rest) := by
  cases first
  simp [catchOutlines, Mark.fork?]

/-- The forks of statements are those of one after the other. -/
theorem forksOf_outlines :
    forksOf (outlines statements) = statements.flatMap (forksOf ·.outline) := by
  induction statements with
  | nil => rfl
  | cons statement rest ih => simp [ih]

/-- The forks show through braces and comments. -/
def forkView : View Fork where
  see statement := forksOf statement.outline
  empty := rfl
  block statements := by rw [Statement.outline_block, forksOf_braced, forksOf_outlines]
  commented trivia inner := by rw [Statement.outline]

/-! ## Dangling `else` branches -/

/-- In one of the statements an `else` dangles. -/
def Dangling (statements : List Statement) : Prop :=
  ∃ statement ∈ statements, statement.Dangles

@[simp] theorem not_dangling_nil : ¬ Dangling [] := by
  simp [Dangling]

@[simp] theorem dangling_cons :
    Dangling (statement :: rest) ↔ statement.Dangles ∨ Dangling rest := by
  simp [Dangling]

@[simp] theorem dangling_append :
    Dangling (first ++ second) ↔ Dangling first ∨ Dangling second := by
  simp [Dangling, or_and_right, exists_or]

namespace Statement

/-- With an `else`, the branch before it must not end open. -/
theorem dangles_if_else {condition : Expr} {body alternative : Statement} :
    (Statement.if condition body (some alternative)).Dangles ↔
      body.endsOpen ∨ body.Dangles ∨ alternative.Dangles := by
  constructor
  · intro h
    cases h with
    | here h => exact .inl h
    | inside hpart h =>
      obtain rfl | hpart := mem_cons.mp hpart
      · exact .inr (.inl h)
      · obtain rfl := mem_singleton.mp hpart
        exact .inr (.inr h)
  · rintro (h | h | h)
    · exact .here h
    · exact .inside (mem_cons_self ..) h
    · exact .inside (mem_cons_of_mem _ (mem_singleton_self _)) h

/-- In a statement that is no `if` with an `else`, it is the parts that count. -/
theorem dangles_iff
    (h : ∀ condition body alternative, statement ≠ .if condition body (some alternative)) :
    statement.Dangles ↔ Dangling statement.statements := by
  constructor
  · intro hdangles
    cases hdangles with
    | here => exact absurd rfl (h _ _ _)
    | inside hpart hinside => exact ⟨_, hpart, hinside⟩
  · rintro ⟨_, hpart, hinside⟩
    exact .inside hpart hinside

@[simp] theorem dangles_block : (Statement.block statements).Dangles ↔ Dangling statements :=
  dangles_iff fun _ _ _ => nofun

/-- Without one, only the branch counts. -/
theorem dangles_if {condition : Expr} {body : Statement} :
    (Statement.if condition body none).Dangles ↔ body.Dangles := by
  rw [dangles_iff (by simp)]
  exact dangling_cons.trans (or_iff_left not_dangling_nil)

/-- Comments do not count. -/
theorem dangles_commented {inner : Statement} :
    (Statement.commented trivia inner).Dangles ↔ inner.Dangles := by
  rw [dangles_iff (by simp)]
  exact dangling_cons.trans (or_iff_left not_dangling_nil)

@[inherit_doc dangles_commented]
theorem dangles_uncommented : statement.uncommented.Dangles ↔ statement.Dangles := by
  induction statement using Statement.inductionOnParts with
  | h statement ih =>
    cases statement with
    | commented _ inner =>
      rw [dangles_commented]
      exact ih inner (mem_singleton_self _)
    | _ => rfl

end Statement

/-- A statement that does not end, without braces, in others, and has no comments. -/
def Statement.isClosed : Statement → Bool
  | .if .. | .commented .. => false
  | other => !other.endsOpen

theorem Statement.endsOpen_of_isClosed (h : statement.isClosed) : statement.endsOpen = false := by
  cases statement <;> first | rfl | cases h | simpa [isClosed] using h

theorem Statement.dangles_iff_of_isClosed (h : statement.isClosed) :
    statement.Dangles ↔ Dangling statement.statements := by
  refine dangles_iff ?_
  rintro _ _ _ rfl
  cases h

/-- A statement without others inside. -/
def Statement.isLeaf : Statement → Bool
  | .localDeclaration .. | .expression _ | .return _ | .yieldReturn _ | .yieldBreak | .break
  | .continue | .throw _ | .empty => true
  | _ => false

/-- What there is to know of a statement without others inside. -/
theorem Statement.isLeaf_facts (h : statement.isLeaf) :
    statement.isClosed ∧ statement.outline = [.plain] ∧ statement.statements = [] := by
  cases statement <;> first | exact ⟨rfl, rfl, rfl⟩ | cases h

/-- The body of a loop that stands at its end. -/
def Statement.loopBody? : Statement → Option Statement
  | .for _ _ _ body | .forEach _ _ _ body | .while _ body => some body
  | _ => none

/-- What there is to know of a loop whose body stands at its end. -/
theorem Statement.loop_facts {body : Statement} (h : statement.loopBody? = some body) :
    statement.outline = .head :: body.outline ∧ statement.statements = [body] ∧
      statement.endsOpen = body.endsOpen ∧ statement.isIf = false := by
  cases statement <;> cases h <;> exact ⟨rfl, rfl, rfl, rfl⟩

/-- Statements that differ in comments only dangle alike. -/
theorem dangling_iff_of_uncommented
    (h : first.map Statement.uncommented = second.map Statement.uncommented) :
    Dangling first ↔ Dangling second := by
  have hmap : ∀ statements, Dangling statements ↔
      ∃ statement ∈ statements.map Statement.uncommented, statement.Dangles := by
    intro statements
    simp [Dangling, Statement.dangles_uncommented]
  rw [hmap, hmap, h]

end Target

open Target (Statement outlines forksOf Dangling)

/-! ## Bodies -/

/-- The forks of a body are those of its statements. -/
theorem outline_embedded :
    forksOf (embedded statements).outline = forksOf (outlines statements) := by
  rw [Target.forksOf_outlines]
  exact see_embedded Target.forkView.block statements

/-- So are its dangling `else` branches. -/
theorem dangles_embedded : (embedded statements).Dangles ↔ Dangling statements := by
  unfold embedded
  split <;> simp

/-- A body ends open only if it is one statement without comments. -/
theorem embedded_endsOpen (h : (embedded statements).endsOpen) :
    ∃ single, statements = [single] ∧ embedded statements = single ∧
      ∀ trivia inner, single ≠ .commented trivia inner := by
  unfold embedded at h ⊢
  split at h
  · simp [Statement.endsOpen] at h
  · simp [Statement.endsOpen] at h
  · next single _ hcommented => exact ⟨single, rfl, rfl, hcommented⟩
  · simp [Statement.endsOpen] at h

/-- One statement that ends open and has no comments stands as it is. -/
theorem embedded_single {single : Statement} (hopen : single.endsOpen)
    (hplain : ∀ trivia inner, single ≠ .commented trivia inner) : embedded [single] = single := by
  unfold embedded
  split
  · next heq => cases heq; simp [Statement.endsOpen] at hopen
  · next heq => cases heq; exact absurd rfl (hplain _ _)
  · next heq => cases heq; rfl
  · next hother => exact absurd rfl (hother single)

/-- Without an `Else`, a branch is a body like any other. -/
theorem thenBranch_false : thenBranch false statements = embedded statements := by
  unfold thenBranch
  split
  · next heq => simp [heq]
  · rfl

/-- With an `Else`, an `if` gets braces. -/
theorem thenBranch_true : thenBranch true statements =
      if (embedded statements).isIf then .block [embedded statements] else embedded statements := by
  unfold thenBranch
  split
  · next heq => simp [heq, Statement.isIf]
  · next hother =>
    split
    · next hif =>
      cases hbody : embedded statements with
      | «if» condition body elseBody => exact absurd hbody (hother condition body elseBody)
      | _ => simp [hbody, Statement.isIf] at hif
    · rfl

/-- The forks of a branch are those of its statements. -/
theorem outline_thenBranch {hasElse : Bool} :
    forksOf (thenBranch hasElse statements).outline = forksOf (outlines statements) := by
  rw [Target.forksOf_outlines]
  exact see_thenBranch Target.forkView.block hasElse statements

/-- So are its dangling `else` branches, with and without braces. -/
theorem dangles_thenBranch {hasElse : Bool} :
    (thenBranch hasElse statements).Dangles ↔ Dangling statements := by
  cases hasElse with
  | false => rw [thenBranch_false, dangles_embedded]
  | true =>
    rw [thenBranch_true]
    split <;> simp [dangles_embedded]

/-- Resources stand around a block one inside the other. -/
theorem resources_facts (groups : List Target.Variables) (statements : List Statement) :
    let single : Statement := groups.foldr (fun group rest => .using (.declared group) rest)
      (.block statements)
    forksOf single.outline = forksOf (outlines statements) ∧
      (single.Dangles ↔ Dangling statements) ∧ single.isClosed := by
  induction groups with
  | nil => exact ⟨Target.forksOf_braced, Statement.dangles_block, rfl⟩
  | cons group rest ih =>
    rw [foldr_cons]
    generalize rest.foldr _ _ = inside at ih
    obtain ⟨hforks, hdangles, hclosed⟩ := ih
    have hends := Statement.endsOpen_of_isClosed hclosed
    have hclosed : (Statement.using (.declared group) inside).isClosed := by
      simpa [Statement.isClosed, Statement.endsOpen] using hends
    refine ⟨hforks, ?_, hclosed⟩
    rw [Statement.dangles_iff_of_isClosed hclosed, ← hdangles]
    exact Target.dangling_cons.trans (or_iff_left Target.not_dangling_nil)

/-! ## Comments and ends -/

/-- Comments are no forks. -/
theorem outlines_attachHeader :
    forksOf (outlines (attachHeader trivia statements)) = forksOf (outlines statements) := by
  rw [Target.forksOf_outlines, Target.forksOf_outlines]
  exact Target.forkView.flatMap_attachHeader trivia statements

/-- No `else` dangles in a comment. -/
theorem dangling_attachHeader :
    Dangling (attachHeader trivia statements) ↔ Dangling statements := by
  cases statements with
  | nil =>
    obtain h | ⟨_, h⟩ := attachHeader_nil trivia <;>
      simp [h, Statement.dangles_iff, Statement.statements]
  | cons first rest =>
    exact Target.dangling_iff_of_uncommented
      (map_uncommented_attachHeader trivia (cons_ne_nil first rest))

/-- A `break` at the end of a section is no fork. -/
theorem outlines_sectionBody :
    forksOf (outlines (sectionBody statements)) = forksOf (outlines statements) := by
  rw [Target.forksOf_outlines, Target.forksOf_outlines]
  refine (flatMap_sectionBody Target.forkView.block statements).trans ?_
  split <;> exact append_nil _

/-- Nor does an `else` dangle in it. -/
theorem dangling_sectionBody : Dangling (sectionBody statements) ↔ Dangling statements := by
  have hended : Dangling (endedCase statements) ↔ Dangling statements := by
    unfold endedCase
    split
    · rfl
    · simp [Statement.dangles_iff, Statement.statements]
  obtain h | h := sectionBody_eq statements <;> simp [h, hended]

/-- Comments of the header close the branch of an `if`, and change nothing else. -/
theorem dangles_headerIntoBranch_else {condition : Target.Expr} {branch alternative : Statement} :
    (headerIntoBranch trivia (.if condition branch (some alternative))).Dangles ↔
      (trivia.isEmpty ∧ branch.endsOpen) ∨ branch.Dangles ∨ alternative.Dangles := by
  obtain ⟨hempty, h⟩ | ⟨hempty, statements, hbranch, h⟩ :=
    headerIntoBranch_if trivia condition branch (some alternative)
  · rw [h, Statement.dangles_if_else]
    simp [hempty]
  · have hinside : Dangling statements ↔ branch.Dangles := by
      obtain rfl | rfl := hbranch <;> simp
    rw [h, Statement.dangles_if_else, Statement.dangles_block, dangling_attachHeader, hinside]
    simp [hempty, Statement.endsOpen]

/-- Without an `else`, the comments change nothing at all. -/
theorem dangles_headerIntoBranch {condition : Target.Expr} {branch : Statement} :
    (headerIntoBranch trivia (.if condition branch none)).Dangles ↔ branch.Dangles := by
  obtain ⟨-, h⟩ | ⟨-, statements, hbranch, h⟩ := headerIntoBranch_if trivia condition branch none
  · rw [h, Statement.dangles_if]
  · have hinside : Dangling statements ↔ branch.Dangles := by
      obtain rfl | rfl := hbranch <;> simp
    rw [h, Statement.dangles_if, Statement.dangles_block, dangling_attachHeader, hinside]

/-- Comments of the header leave the forks and the end of an `if` as they are. -/
theorem headerIntoBranch_outline_endsOpen (trivia : Trivia) (condition : Target.Expr)
    (branch : Statement) (elseBody : Option Statement) :
    forksOf (headerIntoBranch trivia (.if condition branch elseBody)).outline =
        forksOf (Statement.if condition branch elseBody).outline ∧
      (headerIntoBranch trivia (.if condition branch elseBody)).endsOpen =
        (Statement.if condition branch elseBody).endsOpen := by
  obtain ⟨inside, h, hinside⟩ := exists_branch_of_header trivia condition branch elseBody
  have hforks : forksOf inside.outline = forksOf branch.outline := hinside Target.forkView
  rw [h]
  cases elseBody with
  | none | some alternative => simp [Statement.outline, Statement.endsOpen, hforks]

end Sharpen
