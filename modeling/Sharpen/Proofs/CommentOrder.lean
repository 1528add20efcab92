import Sharpen.Proofs.LambdaBodies.Statement
import Sharpen.Proofs.Views

/-!
# Comments of statements are conserved

The comments of a body are read from top to bottom: those before a statement, those of the
statements inside it, the one behind it. The header of an `ElseIf`, `Case` or `Catch` block has its
comments before the statements of the block. Conversion moves comments between statements, into
blocks and onto empty statements, but reading the target gives the comments of the source, each one
converted, in the same order.

The one thing that can go wrong is a declaration of no variables, which becomes nothing and takes
its comments with it. The main result is `comments_are_conserved`.
-/

namespace Sharpen

open List
open Source (Expr StatementKind ElseIfBlock CaseBlock CatchBlock)
open Target (Statement)

variable {converted : List Statement} {trivia : Trivia}

/-! ## Reading the source -/

namespace Source

mutual

/-- The comments of the statements inside a statement, without those of statements whose kind is
dropped. -/
def StatementKind.commentsUnless (drops : StatementKind → Bool) : StatementKind → List String
  | .singleLineIf _ statements none => commentsUnless drops statements
  | .singleLineIf _ statements (some elseStatements) =>
    commentsUnless drops statements ++ commentsUnless drops elseStatements
  | .multiLineIf _ statements elseIfs none =>
    commentsUnless drops statements ++ elseIfComments drops elseIfs
  | .multiLineIf _ statements elseIfs (some elseStatements) =>
    commentsUnless drops statements ++ elseIfComments drops elseIfs ++
      commentsUnless drops elseStatements
  | .for _ _ _ _ statements | .forEach _ _ statements | .while _ statements
  | .doLoop _ _ statements | .with _ statements | .syncLock _ statements
  | .usingValue _ statements | .usingVariables _ statements => commentsUnless drops statements
  | .select _ cases => caseComments drops cases
  | .try statements catches none => commentsUnless drops statements ++ catchComments drops catches
  | .try statements catches (some finallyStatements) =>
    commentsUnless drops statements ++ catchComments drops catches ++
      commentsUnless drops finallyStatements
  | _ => []

/-- The comments of a body, without those of statements whose kind is dropped. -/
def commentsUnless (drops : StatementKind → Bool) : List Statement → List String
  | [] => []
  | ⟨_, kind, trivia⟩ :: rest =>
    (if drops kind then []
      else trivia.leading ++ kind.commentsUnless drops ++ trivia.trailing.toList) ++
      commentsUnless drops rest

/-- The comments of `ElseIf` blocks, with their headers. -/
def elseIfComments (drops : StatementKind → Bool) : List ElseIfBlock → List String
  | [] => []
  | ⟨_, statements, header⟩ :: rest =>
    header.comments ++ commentsUnless drops statements ++ elseIfComments drops rest

/-- The comments of `Case` blocks, with their headers. -/
def caseComments (drops : StatementKind → Bool) : List CaseBlock → List String
  | [] => []
  | ⟨_, statements, header⟩ :: rest =>
    header.comments ++ commentsUnless drops statements ++ caseComments drops rest

/-- The comments of `Catch` blocks, with their headers. -/
def catchComments (drops : StatementKind → Bool) : List CatchBlock → List String
  | [] => []
  | ⟨_, _, _, _, statements, header⟩ :: rest =>
    header.comments ++ commentsUnless drops statements ++ catchComments drops rest

end

/-- The comments of a body. -/
abbrev comments (statements : List Statement) : List String :=
  commentsUnless (fun _ => false) statements

/-- The comments of a statement: before it, inside it and behind it. -/
def Statement.commentsUnless (drops : StatementKind → Bool) (statement : Statement) : List String :=
  if drops statement.kind then []
  else statement.trivia.leading ++ statement.kind.commentsUnless drops ++
    statement.trivia.trailing.toList

/-- The comments of a block, where `read` reads those of a statement: the header comes first. -/
def blockComments (read : Statement → List String) (header : Trivia) (statements : List Statement) :
    List String :=
  header.comments ++ statements.flatMap read

/-- The comments inside a statement, where `read` reads those of a statement directly in it. -/
def StatementKind.commentsWith (read : Statement → List String) : StatementKind → List String
  | .singleLineIf _ statements elseStatements =>
    statements.flatMap read ++ (elseStatements.getD []).flatMap read
  | .multiLineIf _ statements elseIfs elseStatements =>
    statements.flatMap read ++
      elseIfs.flatMap (fun block => blockComments read block.trivia block.statements) ++
      (elseStatements.getD []).flatMap read
  | .for _ _ _ _ statements | .forEach _ _ statements | .while _ statements | .doLoop _ _ statements
  | .with _ statements | .syncLock _ statements | .usingValue _ statements
  | .usingVariables _ statements => statements.flatMap read
  | .select _ cases => cases.flatMap fun block => blockComments read block.trivia block.statements
  | .try statements catches finallyStatements =>
    statements.flatMap read ++ catches.flatMap (fun block => blockComments read block.trivia
    block.statements) ++
      (finallyStatements.getD []).flatMap read
  | _ => []

section Dropping

variable (drops : StatementKind → Bool)

/-- The comments of a body are those of its statements. -/
theorem commentsUnless_eq_flatMap (statements : List Statement) :
    commentsUnless drops statements = statements.flatMap (Statement.commentsUnless drops) :=
  eq_flatMap_of_append rfl (by rintro ⟨⟩ _; rfl) statements

/-- The comments of blocks with headers, for a recursion that reads them one after the other. -/
theorem eq_flatMap_blockComments {α : Type} (header : α → Trivia) (inside : α → List Statement)
    {read : List α → List String} (hnil : read [] = [])
    (hcons : ∀ block rest, read (block :: rest) = (header block).comments ++
      commentsUnless drops (inside block) ++ read rest)
    (blocks : List α) : read blocks = blocks.flatMap fun block =>
      blockComments (Statement.commentsUnless drops) (header block) (inside block) := by
  refine eq_flatMap_of_append hnil (fun block rest => ?_) blocks
  rw [hcons, commentsUnless_eq_flatMap, blockComments]

/-- The recursion reads the statements directly inside a statement. -/
theorem StatementKind.commentsUnless_eq (kind : StatementKind) :
    kind.commentsUnless drops = kind.commentsWith (Statement.commentsUnless drops) := by
  have helseIfs := eq_flatMap_blockComments drops ElseIfBlock.trivia ElseIfBlock.statements
    (elseIfComments.eq_1 drops) (by rintro ⟨⟩ _; rfl)
  have hcases := eq_flatMap_blockComments drops CaseBlock.trivia CaseBlock.statements
    (caseComments.eq_1 drops) (by rintro ⟨⟩ _; rfl)
  have hcatches := eq_flatMap_blockComments drops CatchBlock.trivia CatchBlock.statements
    (catchComments.eq_1 drops) (by rintro ⟨⟩ _; rfl)
  cases kind with
  | singleLineIf _ _ elseStatements =>
    cases elseStatements <;>
      simp [commentsUnless, commentsWith, commentsUnless_eq_flatMap]
  | multiLineIf _ _ _ elseStatements =>
    cases elseStatements <;>
      simp [commentsUnless, commentsWith, commentsUnless_eq_flatMap, helseIfs]
  | «try» _ _ finallyStatements =>
    cases finallyStatements <;>
      simp [commentsUnless, commentsWith, commentsUnless_eq_flatMap, hcatches]
  | select _ cases => exact hcases cases
  | «for» | forEach | «while» | doLoop | «with» | syncLock | usingValue | usingVariables =>
    exact commentsUnless_eq_flatMap drops _
  | _ => rfl

end Dropping

/-- Every declaration of local variables among the statements declares at least one. -/
inductive Statement.DeclaresAll : Statement → Prop where
  | intro {statement : Statement} (hhere : statement.kind.isSilent = false)
      (hinside : ∀ part ∈ statement.kind.statements, part.DeclaresAll) : DeclaresAll statement

end Source

/-! ## Reading the target -/

namespace Target

mutual

/-- The comments of a statement: before it, inside it and behind it. -/
def Statement.comments : Statement → List String
  | .commented trivia inner => trivia.leading ++ inner.comments ++ trivia.trailing.toList
  | .block statements => comments statements
  | .if _ body none => body.comments
  | .if _ body (some alternative) => body.comments ++ alternative.comments
  | .for _ _ _ body | .forEach _ _ _ body | .while _ body | .do body _ | .lock _ body
  | .using _ body => body.comments
  | .switch _ sections => sectionComments sections
  | .try body catches none => comments body ++ catchComments catches
  | .try body catches (some finallyBody) =>
    comments body ++ catchComments catches ++ comments finallyBody
  | .localDeclaration .. | .expression _ | .return _ | .yieldReturn
    _ | .yieldBreak | .break | .continue
  | .throw _ | .empty => []

/-- The comments of a body. -/
def comments : List Statement → List String
  | [] => []
  | statement :: rest => statement.comments ++ comments rest

/-- The comments in the sections of a `switch`. -/
def sectionComments : List SwitchSection → List String
  | [] => []
  | ⟨_, statements⟩ :: rest => comments statements ++ sectionComments rest

/-- The comments in the `catch` clauses of a `try`. -/
def catchComments : List CatchClause → List String
  | [] => []
  | ⟨_, _, body⟩ :: rest => comments body ++ catchComments rest

end

@[simp] theorem comments_nil : comments [] = [] := rfl

@[simp] theorem comments_cons (statement : Statement) (rest : List Statement) :
    comments (statement :: rest) = statement.comments ++ comments rest := rfl

theorem comments_singleton (statement : Statement) : comments [statement] = statement.comments := by
  rw [comments_cons, comments_nil, append_nil]

theorem comments_eq_flatMap (statements : List Statement) :
    comments statements = statements.flatMap Statement.comments :=
  Source.eq_flatMap_of_append comments_nil comments_cons statements

/-- Bodies are read one after the other. -/
@[simp] theorem comments_append (first second : List Statement) :
    comments (first ++ second) = comments first ++ comments second := by
  simp only [comments_eq_flatMap, flatMap_append]

/-- Sections are read one after the other. -/
@[simp] theorem sectionComments_cons (first : SwitchSection) (rest : List SwitchSection) :
    sectionComments (first :: rest) = comments first.statements ++ sectionComments rest := by
  cases first
  rfl

/-- Clauses are read one after the other. -/
@[simp] theorem catchComments_cons (first : CatchClause) (rest : List CatchClause) :
    catchComments (first :: rest) = comments first.body ++ catchComments rest := by
  cases first
  rfl

@[simp] theorem Statement.comments_block (statements : List Statement) :
    (Statement.block statements).comments = Target.comments statements := rfl

/-- A block is read as what stands in it. -/
theorem comments_braced (statements : List Statement) :
    (Statement.block statements).comments = statements.flatMap Statement.comments := by
  rw [Statement.comments_block, comments_eq_flatMap]

@[simp] theorem Statement.comments_commented (trivia : Trivia) (inner : Statement) :
    (Statement.commented trivia inner).comments = trivia.leading ++ inner.comments ++
    trivia.trailing.toList :=
  rfl

/-- The branches of an `if`, the `else` behind the other one. -/
@[simp] theorem Statement.comments_if (condition : Expr) (body : Statement)
    (elseBody : Option Statement) :
    (Statement.if condition body elseBody).comments = body.comments ++
    elseBody.elim [] Statement.comments := by
  cases elseBody with
  | none => exact (append_nil _).symm
  | some alternative => rfl

/-- Declarations have no comments of their own. -/
@[simp] theorem comments_declarations (modifiers : List Modifier) (groups : List Variables) :
    comments (groups.map (.localDeclaration modifiers)) = [] := by
  induction groups with
  | nil => rfl
  | cons group rest ih => exact ih

/-- One `using` in another is read as the block inside. -/
@[simp] theorem comments_resources (groups : List Variables) (statements : List Statement) :
    (groups.foldr (fun group rest => Statement.using (.declared group) rest)
    (.block statements)).comments =
      comments statements := by
  induction groups with
  | nil => exact Statement.comments_block statements
  | cons group rest ih => exact ih

/-- A statement that has comments of its own. -/
def Statement.isCommented : Statement → Bool
  | .commented _ _ => true
  | _ => false

end Target

/-! ## Attached comments -/

section Attach

variable {statements : List Statement}

theorem Trivia.comments_of_isEmpty (h : trivia.isEmpty) : trivia.leading = [] ∧ trivia.trailing =
    none := by
  obtain ⟨hleading, htrailing⟩ := Bool.and_eq_true_iff.mp h
  exact ⟨isEmpty_iff.mp hleading, Option.isNone_iff_eq_none.mp htrailing⟩

/-- Comments are put around a statement, if there are any. -/
@[simp] theorem comments_withTrivia (statement : Statement) (trivia : Trivia) :
    (statement.withTrivia trivia).comments =
      trivia.leading ++ statement.comments ++ trivia.trailing.toList := by
  unfold Statement.withTrivia
  split
  · next hempty => simp [Trivia.comments_of_isEmpty hempty]
  · exact Statement.comments_commented trivia statement

/-- Two comments behind one statement would be joined to one. This never comes to pass: comments are
only put on a statement that has none of its own, or they have none to put behind it. -/
theorem comments_addTrivia {statement : Statement}
    (h : trivia.trailing = none ∨ statement.isCommented = false) :
    (statement.addTrivia trivia).comments = trivia.leading ++ statement.comments ++
    trivia.trailing.toList := by
  unfold Statement.addTrivia
  split
  · next existing _ =>
    obtain hnone | hplain := h
    · have hjoined : Trivia.joinTrailing existing.trailing none = existing.trailing := by
        cases existing.trailing <;> rfl
      simp [Trivia.around, hnone, hjoined]
    · cases hplain
  · exact comments_withTrivia _ _

/-- A comment is put behind the last statement. -/
theorem comments_attachLast {trailing : Option String} (hne : statements ≠ [])
    (h : trailing = none ∨ ∀ statement ∈ statements, statement.isCommented = false) :
    Target.comments (attachLast Statement.addTrivia trailing statements) =
      Target.comments statements ++ trailing.toList := by
  fun_induction attachLast Statement.addTrivia trailing statements with
  | case1 => exact absurd rfl hne
  | case2 last =>
    have hlast : trailing = none ∨ last.isCommented = false :=
      h.imp_right fun hplain => hplain last (mem_singleton_self _)
    rw [Target.comments_singleton, Target.comments_singleton, comments_addTrivia hlast]
    rfl
  | case3 _ _ hrest ih =>
    simp [ih hrest (h.imp_right fun hplain => (forall_mem_cons.mp hplain).2)]

/-- Comments are put before the first and behind the last statement. -/
theorem comments_attachTrivia (hne : statements ≠ [])
    (h : trivia.trailing = none ∨ ∀ statement ∈ statements, statement.isCommented = false) :
    Target.comments (attachTrivia Statement.addTrivia trivia statements) =
      trivia.leading ++ Target.comments statements ++ trivia.trailing.toList := by
  unfold attachTrivia
  split
  · exact absurd rfl hne
  · next only =>
    have honly : trivia.trailing = none ∨ only.isCommented = false :=
      h.imp_right fun hplain => hplain only (mem_singleton_self _)
    simp [comments_addTrivia honly]
  · next hrest =>
    have hplain := h.imp_right fun hplain => (forall_mem_cons.mp hplain).2
    rw [Target.comments_cons, comments_addTrivia (.inl rfl), comments_attachLast hrest hplain]
    simp

/-- The comments of a statement around what it became. -/
theorem comments_attachStatements (hne : statements ≠ [])
    (h : trivia.trailing = none ∨ ∀ statement ∈ statements, statement.isCommented = false) :
    Target.comments (attachStatements trivia statements) =
      trivia.leading.map Comment.convert ++ Target.comments statements ++
        trivia.trailing.toList.map Comment.convert := by
  unfold attachStatements
  split
  · next hempty => simp [Trivia.comments_of_isEmpty hempty]
  · have hplain : trivia.convert.trailing = none ∨
        ∀ statement ∈ statements, statement.isCommented = false :=
      h.imp_left fun hnone => by rw [Trivia.convert, hnone, Option.map_none]
    rw [comments_attachTrivia hne hplain]
    cases htrailing : trivia.trailing <;> simp [Trivia.convert, htrailing]

/-- The comments of a header come before those of its block, also if the block is empty. -/
@[simp] theorem comments_attachHeader (trivia : Trivia) (statements : List Statement) :
    Target.comments (attachHeader trivia statements) =
      trivia.comments.map Comment.convert ++ Target.comments statements := by
  unfold attachHeader
  split
  · next hempty =>
    obtain ⟨hleading, htrailing⟩ := Trivia.comments_of_isEmpty hempty
    rw [Trivia.comments, hleading, htrailing]
    rfl
  dsimp only
  split
  · simp [Trivia.convert, Trivia.comments, Statement.comments]
  · next hne =>
    rw [comments_attachStatements (fun hnil => hne hnil) (.inl rfl)]
    simp [Trivia.comments]

end Attach

/-! ## Statements around others -/

/-- Braces are not seen. -/
@[simp] theorem comments_embedded (statements : List Statement) :
    (embedded statements).comments = Target.comments statements := by
  rw [Target.comments_eq_flatMap]
  exact see_embedded Target.comments_braced statements

@[simp] theorem comments_thenBranch (hasElse : Bool) (statements : List Statement) :
    (thenBranch hasElse statements).comments = Target.comments statements := by
  rw [Target.comments_eq_flatMap]
  exact see_thenBranch Target.comments_braced hasElse statements

@[simp] theorem comments_sectionBody (statements : List Statement) :
    Target.comments (sectionBody statements) = Target.comments statements := by
  rw [Target.comments_eq_flatMap, Target.comments_eq_flatMap,
    flatMap_sectionBody Target.comments_braced]
  split <;> exact append_nil _

/-- The comments of an `ElseIf` header come before those of the branch. -/
@[simp] theorem comments_headerIntoBranch (trivia : Trivia) (condition : Target.Expr)
    (branch : Statement)
    (elseBody : Option Statement) :
    (headerIntoBranch trivia (.if condition branch elseBody)).comments =
      trivia.comments.map Comment.convert ++ (Statement.if condition branch elseBody).comments := by
  obtain ⟨hempty, h⟩ | ⟨-, statements, hbranch, h⟩ := headerIntoBranch_if trivia condition branch
    elseBody
  · obtain ⟨hleading, htrailing⟩ := Trivia.comments_of_isEmpty hempty
    rw [h, Trivia.comments, hleading, htrailing]
    rfl
  · have hinside : Target.comments statements = branch.comments := by
      obtain rfl | rfl := hbranch
      · exact (Statement.comments_block statements).symm
      · exact Target.comments_singleton branch
    simp [h, hinside]

/-! ## The table -/

/-- Of whatever the converters give for a statement, the comments are those that `read` reads in it.
-/
def Inner.Conserves (inner : Inner) (read : Source.Statement → List String)
    (statement : Source.Statement) :
    Prop :=
  ∀ (body : Body) converted, (inner.statement body statement).Gives converted →
    Target.comments converted = (read statement).map Comment.convert

variable {statements : List Source.Statement}

section Table

variable {inner : Inner} {body : Body} {read : Source.Statement → List String}

/-- Statements that are converted one by one. -/
theorem Inner.Converts.comments_read (h : inner.Converts body statements converted)
    (hparts : ∀ part ∈ statements, inner.Conserves read part) :
    Target.comments converted = (statements.flatMap read).map Comment.convert := by
  obtain ⟨_, hlists, rfl⟩ := h
  induction hlists with
  | nil => rfl
  | cons hfirst _ ih =>
    obtain ⟨hpart, hrest⟩ := forall_mem_cons.mp hparts
    simp [hpart body _ hfirst, ih hrest]

/-- The branches of an `If`, one `if` in the other. -/
theorem IfImage.comments_read {condition : Expr} {elseStatements : Option (List Source.Statement)}
    {elseIfs : List ElseIfBlock} {converted : Statement}
    (h : IfImage inner body condition statements elseStatements elseIfs converted)
    (hparts : ∀ part ∈ statements ++ elseIfs.flatMap (·.statements) ++ elseStatements.getD [],
      inner.Conserves read part) :
    converted.comments =
      ((StatementKind.multiLineIf condition statements elseIfs elseStatements).commentsWith
      read).map Comment.convert := by
  induction h with
  | only _ hbranch =>
    have hlist := hbranch.comments_read fun part hpart => hparts part (by simp [hpart])
    simp [hlist, StatementKind.commentsWith]
  | withElse _ hbranch helse =>
    have hlist := hbranch.comments_read fun part hpart => hparts part (by simp [hpart])
    have hother := helse.comments_read fun part hpart => hparts part (by simp [hpart])
    simp [hlist, hother, StatementKind.commentsWith]
  | elseIf _ hbranch hrest ih =>
    have hlist := hbranch.comments_read fun part hpart => hparts part (by simp [hpart])
    have hchained := ih fun part hpart => hparts part (by simpa using .inr (by simpa using hpart))
    obtain ⟨_, _, _, rfl⟩ := hrest.exists_if
    rw [Statement.comments_if, Option.elim_some, comments_headerIntoBranch, hchained]
    simp [hlist, StatementKind.commentsWith, Source.blockComments]

/-- The sections of a `switch`. -/
theorem comments_sections {cases : List CaseBlock} {sections : List Target.SwitchSection}
    (h : Forall₂ (SectionImage inner body) cases sections)
    (hparts : ∀ part ∈ cases.flatMap (·.statements), inner.Conserves read part) :
    Target.sectionComments sections = (cases.flatMap fun block =>
      Source.blockComments read block.trivia block.statements).map Comment.convert := by
  induction h with
  | nil => rfl
  | @cons block converted rest others hfirst _ ih =>
    obtain ⟨hblock, hrest⟩ := forall_mem_append.mp hparts
    obtain ⟨_, -, hstatements, hconverted⟩ := hfirst
    simp [hconverted, hstatements.comments_read hblock, ih hrest, Source.blockComments]

/-- The blocks that catch exceptions. -/
theorem comments_catches {catches : List CatchBlock} {clauses : List Target.CatchClause}
    (h : Forall₂ (CatchImage inner body) catches clauses)
    (hparts : ∀ part ∈ catches.flatMap (·.statements), inner.Conserves read part) :
    Target.catchComments clauses = (catches.flatMap fun block =>
      Source.blockComments read block.trivia block.statements).map Comment.convert := by
  induction h with
  | nil => rfl
  | @cons block converted rest others hfirst _ ih =>
    obtain ⟨hblock, hrest⟩ := forall_mem_append.mp hparts
    obtain ⟨_, -, -, hstatements, hconverted⟩ := hfirst
    simp [hconverted, hstatements.comments_read hblock, ih hrest, Source.blockComments]

variable {kind : StatementKind}

/-- A simple statement has no comments inside. -/
theorem comments_simple (read : Source.Statement → List String) {single : Statement}
    (hsingle : single.isSimple)
    (hkind : kind.isSimple) : single.comments = [] ∧ kind.commentsWith read = [] := by
  constructor
  · cases single with
    | expression | «return» | yieldReturn | yieldBreak | «break» | «continue» | throw => rfl
    | _ => cases hsingle
  · cases kind with
    | expression | call | assignment | «return» | exit | «continue» | throw | yield | raiseEvent
    | addHandler | removeHandler | stop | «end» => rfl
    | _ => cases hkind

/-- **One level**: the comments inside a statement are those inside what it becomes. -/
theorem Image.comments_read (h : Image inner body kind converted)
    (hparts : ∀ part ∈ kind.statements, inner.Conserves read part) :
    Target.comments converted = (kind.commentsWith read).map Comment.convert := by
  by_cases hsimple : kind.isSimple
  · obtain ⟨_, rfl, hsingle⟩ := h.exists_simple hsimple
    obtain ⟨htarget, hsource⟩ := comments_simple read hsingle hsimple
    rw [Target.comments_singleton, htarget, hsource, map_nil]
  -- what is left declares variables or has other statements inside
  cases h with
  | localDeclaration => simp!
  | singleLineIf h =>
    simpa [StatementKind.commentsWith] using
      h.comments_read (by simpa [StatementKind.statements] using hparts)
  | multiLineIf h => simpa using h.comments_read hparts
  | «for» _ _ _ hbody | forEach _ _ hbody | «while» _ hbody | doFirst _ hbody | doForever hbody
  | doLast _ hbody | syncLock _ hbody | usingValue _ hbody | usingVariables _ hbody =>
    simp! [hbody.comments_read hparts]
  | «with» _ hbody =>
    -- the variable for the target comes first and has no comments
    simp! [hbody.comments_read hparts]
    rfl
  | select _ hcases => simp! [comments_sections hcases hparts]
  | «try» hbody hcatches =>
    obtain ⟨hparts, -⟩ := forall_mem_append.mp hparts
    obtain ⟨hstatements, hblocks⟩ := forall_mem_append.mp hparts
    simp! [hbody.comments_read hstatements, comments_catches hcatches hblocks]
  | tryFinally hbody hcatches hlast =>
    obtain ⟨hparts, hfinally⟩ := forall_mem_append.mp hparts
    obtain ⟨hstatements, hblocks⟩ := forall_mem_append.mp hparts
    simp! [hbody.comments_read hstatements, comments_catches hcatches hblocks,
      hlast.comments_read hfinally]
  | _ => exact absurd rfl hsimple

/-- What a rule gives has no comments of its own yet. -/
theorem Image.isCommented_eq_false (h : Image inner body kind converted) :
    ∀ statement ∈ converted, statement.isCommented = false := by
  by_cases hsimple : kind.isSimple
  · obtain ⟨single, rfl, hsingle⟩ := h.exists_simple hsimple
    cases single with
    | commented => cases hsingle
    | _ => exact forall_mem_singleton.mpr rfl
  cases h with
  | localDeclaration => exact forall_mem_map.mpr fun group _ => rfl
  | singleLineIf h | multiLineIf h =>
    obtain ⟨_, _, _, rfl⟩ := h.exists_if
    exact forall_mem_singleton.mpr rfl
  | «for» | forEach | «while» | doFirst | doLast | doForever | select | «with» | «try» | tryFinally
  | syncLock | usingValue | usingVariables => exact forall_mem_singleton.mpr rfl
  | _ => exact absurd rfl hsimple

end Table

/-! ## Whole bodies -/

/-- One level further out: the comments around a statement that writes something, and those inside
it. -/
theorem Image.comments_attached {inner : Inner} {body : Body}
    {read : Source.Statement → List String} {statement : Source.Statement} {plain : List Statement}
    (h : Image inner body statement.kind plain) (hloud : statement.kind.isSilent = false)
    (hparts : ∀ part ∈ statement.kind.statements, inner.Conserves read part) :
    Target.comments (attachStatements statement.trivia plain) =
      (statement.trivia.leading ++ statement.kind.commentsWith read ++
        statement.trivia.trailing.toList).map Comment.convert := by
  have hne : plain ≠ [] := fun hnil => Bool.false_ne_true (hloud ▸ h.eq_nil_iff.mp hnil)
  rw [comments_attachStatements hne (.inr h.isCommented_eq_false), h.comments_read hparts,
    ← map_append, ← map_append]

/-- The converters of every level keep the comments. -/
theorem conserves_at (setting : Setting) (levels : Nat) {statement : Source.Statement}
    (h : statement.DeclaresAll) :
    (Inner.at setting levels).Conserves (Source.Statement.commentsUnless fun _ => false)
    statement := by
  refine fun body converted hgives => Inner.statement_induction (P := fun _ statement converted =>
    statement.DeclaresAll → Target.comments converted =
      (statement.commentsUnless fun _ => false).map Comment.convert)
    (fun himage ih ⟨hhere, hinside⟩ => ?_) levels statement body converted hgives h
  rw [himage.comments_attached hhere fun part hpart body converted hgives =>
    ih part body converted hgives (hinside part hpart), ← StatementKind.commentsUnless_eq]
  rfl

/-- Read from top to bottom, a converted body has the comments of its source, each one converted, in
the same order. Only declarations of no variables are ruled out. -/
theorem comments_are_conserved {setting : Setting} {body : Body} {source : List Source.Statement}
    {surroundings : Surroundings} {output : List Statement}
    (hdeclares : ∀ statement ∈ source, statement.DeclaresAll)
    (h : (convertStatements setting body source surroundings).1 = .ok output) :
    Target.comments output = (Source.comments source).map Comment.convert := by
  obtain ⟨levels, hconverts⟩ := converts_of_convertStatements h
  rw [hconverts.comments_read fun part hpart => conserves_at setting levels (hdeclares part hpart),
    Source.comments, Source.commentsUnless_eq_flatMap]

/-- An `ElseIf` whose header has comments before and behind it, over a statement that has one as
well. -/
theorem comments_around_an_elseIf :
    let source : List Source.Statement :=
      [⟨1, .multiLineIf (.me 2) [⟨3, .stop, { trailing := some "' a" }⟩]
        [⟨.myBase 4, [⟨5, .return none, { leading := ["' d"] }⟩], ⟨["' b"], some "' c"⟩⟩]
        none, ⟨[], some "' e"⟩⟩]
    let body : Body := ⟨.procedure, false, []⟩
    let stopped := Inner.runtimeCall "System.Diagnostics.Debugger.Break" []
    let first : Statement := .block [.commented ⟨[], some (Comment.convert "' a")⟩ stopped]
    let header : List String := ["' b", "' c", "' d"]
    let second : Statement := .block [.commented ⟨header.map Comment.convert, none⟩ (.return none)]
    let output : List Statement := [.commented ⟨[], some (Comment.convert "' e")⟩
      (.if .this first (some (.if .base second none)))]
    (∀ statement ∈ source, statement.DeclaresAll) ∧ (convertStatements {} body source {}).1 =
    .ok output ∧
      Source.comments source = ["' a", "' b", "' c", "' d", "' e"] ∧
      Target.comments output = (Source.comments source).map Comment.convert := by
  intro source body stopped first header second output
  have hleaf : ∀ {statement : Source.Statement}, statement.kind.isSilent = false →
      statement.kind.statements = [] → statement.DeclaresAll := fun hhere hinside =>
    .intro hhere (by rw [hinside]; exact forall_mem_nil _)
  have hdeclares : ∀ statement ∈ source, statement.DeclaresAll :=
    forall_mem_singleton.mpr (.intro rfl (forall_mem_cons.mpr ⟨hleaf rfl rfl,
      forall_mem_singleton.mpr (hleaf rfl rfl)⟩))
  have hrun : (convertStatements {} body source {}).1 = .ok output := by rfl
  exact ⟨hdeclares, hrun, rfl, comments_are_conserved hdeclares hrun⟩

end Sharpen
