import Sharpen.Proofs.Correspondence.Levels
import Sharpen.Proofs.Views

/-!
# Statements in their places

A target tree can say more than the target language: a declaration may stand as the branch of an
`if`, or a section of a `switch` run into the next one. `Statement.Placed` lists what a statement
must not do to the statements directly inside it, and `Statement.Everywhere` asks it of all
statements inside.

The conversion keeps to these rules because it only puts statements inside others by `embedded`,
`thenBranch` and `sectionBody`, or with braces around them: statements that are `SoundIn` a list
come out as one that `Fits` where one is expected. `Image.soundIn` takes this through the table, and
`Inner.Converts.sound` through whole trees.
-/

namespace Sharpen

open List

namespace Target

/-! ## The rules -/

/-- A statement that can be the body of another one as it is. A declaration would have no scope, and
comments would stand between the header and its body. -/
def Statement.standsAlone : Statement → Bool
  | .localDeclaration .. | .commented .. => false
  | _ => true

/-- The statements that are the bodies of a statement: branches, and what is repeated, locked or
used. -/
def Statement.bodies : Statement → List Statement
  | .if _ body elseBody => body :: elseBody.toList
  | .for _ _ _ body | .forEach _ _ _ body | .while _ body | .do body _ | .lock _ body
  | .using _ body => [body]
  | _ => []

/-- The sections of a `switch`. -/
def Statement.sections : Statement → List SwitchSection
  | .switch _ sections => sections
  | _ => []

/-- Control never runs out of a section, and its variables are its own. -/
structure SwitchSection.Closes (part : SwitchSection) : Prop where
  ne_nil : part.statements ≠ []
  jumps : lastIsJump part.statements ∨ ∃ inside, part.statements = [.block inside] ∧
    lastIsJump inside
  declaresNothing : ∀ statement ∈ part.statements, statement.isLocalDeclaration = false

/-- What stands directly inside a statement is allowed to stand there. Empty statements are only
there to carry comments. -/
structure Statement.Placed (statement : Statement) : Prop where
  standsAlone : ∀ body ∈ statement.bodies, body.standsAlone
  closes : ∀ part ∈ statement.sections, part.Closes
  emptyCommented : .empty ∈ statement.statements → ∃ trivia, statement = .commented trivia .empty

/-- A statement and all statements inside it, lambdas apart, have a property. -/
inductive Statement.Everywhere (P : Statement → Prop) : Statement → Prop where
  | intro {statement : Statement} (h : P statement)
      (hparts : ∀ part ∈ statement.statements, part.Everywhere P) : Everywhere P statement

end Target

open Source (Expr StatementKind ElseIfBlock CaseBlock CatchBlock)
open Target (Statement)

/-- A statement that is placed well inside and can stand in a list of statements. -/
structure Target.Statement.Sound (statement : Statement) : Prop where
  everywhere : statement.Everywhere Statement.Placed
  ne_empty : statement ≠ .empty

/-- A statement that can also be the body of another one. -/
structure Target.Statement.Fits (statement : Statement) : Prop extends statement.Sound where
  standsAlone : statement.standsAlone

/-- Statements that can stand together. -/
def SoundIn (statements : List Statement) : Prop :=
  ∀ statement ∈ statements, statement.Sound

/-! ## Statements around others -/

/-- A statement with bodies has nothing else inside, and can be a body itself. -/
theorem Target.Statement.facts_of_bodies {statement : Statement} (h : statement.bodies ≠ []) :
    statement.statements = statement.bodies ∧ statement.sections = [] ∧ statement.standsAlone ∧
      statement ≠ .empty := by
  cases statement with
  | «if» | «for» | forEach | «while» | «do» | lock | «using» =>
    exact ⟨rfl, rfl, rfl, Statement.noConfusion⟩
  | _ => exact absurd rfl h

namespace Target.Statement

variable {statement : Statement} {trivia : Trivia}

namespace Everywhere

theorem mono {P Q : Statement → Prop} (himp : ∀ statement, P statement → Q statement)
    (h : statement.Everywhere P) : statement.Everywhere Q := by
  induction h with
  | intro h _ ih => exact .intro (himp _ h) ih

/-- A statement with lists of others inside: braces, or a `try`. -/
theorem enclosing (hbodies : statement.bodies = []) (hsections : statement.sections = [])
    (h : SoundIn statement.statements) : statement.Everywhere Placed := by
  refine .intro ⟨?_, ?_, fun hempty => absurd rfl (h _ hempty).ne_empty⟩ fun part hpart =>
    (h part hpart).everywhere
  · rw [hbodies]
    exact forall_mem_nil _
  · rw [hsections]
    exact forall_mem_nil _

/-- Comments may stand over any statement, an empty one included. -/
theorem commented (h : statement.Everywhere Placed) :
    (Statement.commented trivia statement).Everywhere Placed := by
  refine .intro ⟨forall_mem_nil _, forall_mem_nil _, ?_⟩ (forall_mem_singleton.mpr h)
  intro hempty
  obtain rfl := mem_singleton.mp hempty
  exact ⟨trivia, rfl⟩

end Everywhere

namespace Fits

/-- A statement around bodies that fit. -/
theorem around (hbodies : statement.bodies ≠ []) (h : ∀ body ∈ statement.bodies, body.Fits) :
    statement.Fits := by
  obtain ⟨hstatements, hsections, halone, hempty⟩ := facts_of_bodies hbodies
  refine ⟨⟨.intro ⟨fun body hbody => (h body hbody).standsAlone, ?_, ?_⟩ ?_, hempty⟩, halone⟩
  · rw [hsections]
    exact forall_mem_nil _
  · rw [hstatements]
    exact fun hempty => absurd rfl (h _ hempty).ne_empty
  · rw [hstatements]
    exact fun body hbody => (h body hbody).everywhere

/-- An `if` whose branches fit. -/
theorem «if» {condition : Target.Expr} {branch : Statement} {elseBody : Option Statement}
    (hbranch : branch.Fits) (helse : ∀ alternative ∈ elseBody, alternative.Fits) :
    (Statement.if condition branch elseBody).Fits := by
  refine .around (cons_ne_nil _ _) (forall_mem_cons.mpr ⟨hbranch, fun alternative h => ?_⟩)
  exact helse alternative (Option.mem_toList.mp h)

/-- What stands between braces. -/
theorem of_block {statements : List Statement} (h : (Statement.block statements).Fits) :
    SoundIn statements := by
  cases h.everywhere with
  | intro hplaced hparts =>
    refine fun part hpart => ⟨hparts part hpart, ?_⟩
    rintro rfl
    obtain ⟨_, hcommented⟩ := hplaced.emptyCommented hpart
    cases hcommented

end Fits

namespace Sound

@[inherit_doc Everywhere.commented]
theorem commented (h : statement.Everywhere Placed) :
    (Statement.commented trivia statement).Sound :=
  ⟨h.commented, Statement.noConfusion⟩

/-- More comments may come to those that there are. -/
theorem addTrivia (trivia : Trivia) (h : statement.Sound) : (statement.addTrivia trivia).Sound := by
  unfold Statement.addTrivia
  split
  · cases h.everywhere with
    | intro _ hparts => exact commented (hparts _ (mem_singleton_self _))
  · unfold Statement.withTrivia
    split
    · exact h
    · exact commented h.everywhere

/-- A declaration has no statements inside. -/
theorem declaration (modifiers : List Target.Modifier) (group : Target.Variables) :
    (Statement.localDeclaration modifiers group).Sound :=
  ⟨.enclosing rfl rfl (forall_mem_nil _), Statement.noConfusion⟩

end Sound

end Target.Statement

namespace SoundIn

variable {statements : List Statement} {single : Statement}

theorem append {others : List Statement} (h : SoundIn statements) (hothers : SoundIn others) :
    SoundIn (statements ++ others) :=
  forall_mem_append.mpr ⟨h, hothers⟩

/-- A statement without others inside. -/
theorem simple (h : single.isSimple) : SoundIn [single] := by
  refine forall_mem_singleton.mpr ?_
  cases single with
  | expression | «return» | yieldReturn | yieldBreak | «break» | «continue» | throw =>
    exact ⟨.enclosing rfl rfl (forall_mem_nil _), Statement.noConfusion⟩
  | _ => cases h

/-- One statement that fits. -/
theorem fits (h : single.Fits) : SoundIn [single] :=
  forall_mem_singleton.mpr h.toSound

/-- One statement around a body that fits. -/
theorem around {body : Statement} (hbodies : single.bodies = [body]) (h : body.Fits) :
    SoundIn [single] := by
  refine fits (.around ?_ ?_) <;> rw [hbodies]
  · exact cons_ne_nil _ _
  · exact forall_mem_singleton.mpr h

/-- Braces around statements. -/
theorem block (h : SoundIn statements) : (Statement.block statements).Fits :=
  ⟨⟨.enclosing rfl rfl h, Statement.noConfusion⟩, rfl⟩

/-- Declarations and comments get braces, other single statements stand as they are. -/
theorem embedded (h : SoundIn statements) : (embedded statements).Fits := by
  unfold Sharpen.embedded
  split <;> try exact h.block
  · next single hdeclaration hcommented =>
    refine ⟨h _ (mem_singleton_self _), ?_⟩
    cases single with
    | localDeclaration modifiers declared => exact absurd rfl (hdeclaration modifiers declared)
    | commented trivia inner => exact absurd rfl (hcommented trivia inner)
    | _ => rfl

/-- A branch, with braces around an `if` before an `else`. -/
theorem thenBranch (hasElse : Bool) (h : SoundIn statements) :
    (thenBranch hasElse statements).Fits := by
  have hfits := h.embedded
  unfold Sharpen.thenBranch
  split
  · next heq =>
    rw [heq] at hfits
    split
    · exact block (forall_mem_singleton.mpr hfits.toSound)
    · exact hfits
  · exact hfits

/-- Comments around statements. -/
theorem attachStatements (trivia : Trivia) (h : SoundIn statements) :
    SoundIn (attachStatements trivia statements) := by
  unfold Sharpen.attachStatements
  split
  · exact h
  · exact forall_mem_attachTrivia (fun added _ _ h => h.addTrivia added) h

/-- The comments of a header stand over an empty statement, if there is no other. -/
theorem attachHeader (trivia : Trivia) (h : SoundIn statements) :
    SoundIn (attachHeader trivia statements) := by
  cases statements with
  | nil =>
    obtain hnil | ⟨_, hempty⟩ := attachHeader_nil trivia
    · rwa [hnil]
    · rw [hempty]
      exact forall_mem_singleton.mpr (.commented (.enclosing rfl rfl (forall_mem_nil _)))
  | cons first rest =>
    unfold Sharpen.attachHeader
    split
    · exact h
    · exact attachStatements _ h

/-- A section of a `switch` closes, and so does every `switch` inside it. -/
theorem sectionBody (labels : List (Option Target.Expr)) (h : SoundIn statements) :
    (Target.SwitchSection.mk labels (sectionBody statements)).Closes ∧
      SoundIn (sectionBody statements) := by
  have hended : SoundIn (endedCase statements) := by
    unfold endedCase
    split
    · exact h
    · exact h.append (.simple rfl)
  -- either the last statement was a jump already, or `break` has been put behind it
  have hjump : lastIsJump (endedCase statements) := by
    unfold endedCase lastIsJump
    split
    · next hlast => exact hlast
    · rw [List.getLast?_append_of_ne_nil _ (cons_ne_nil _ _)]
      rfl
  have hsection : Sharpen.sectionBody statements =
      if (endedCase statements).any Statement.isLocalDeclaration then
        [.block (endedCase statements)]
      else endedCase statements := rfl
  rw [hsection]
  split
  · refine ⟨⟨cons_ne_nil _ _, .inr ⟨_, rfl, hjump⟩, forall_mem_singleton.mpr rfl⟩, ?_⟩
    exact forall_mem_singleton.mpr hended.block.toSound
  · next hdeclares =>
    refine ⟨⟨?_, .inl hjump, fun statement hstatement => ?_⟩, hended⟩
    · intro hnil
      rw [show endedCase statements = [] from hnil] at hjump
      cases hjump
    · rw [any_eq_true] at hdeclares
      exact Bool.eq_false_iff.mpr fun hdeclares' => hdeclares ⟨statement, hstatement, hdeclares'⟩

end SoundIn

/-! ## The table -/

/-- Whatever the converters give for a statement can stand in a list of statements. -/
def Inner.Places (inner : Inner) (statement : Source.Statement) : Prop :=
  ∀ (body : Body) converted, (inner.statement body statement).Gives converted → SoundIn converted

/-- The comments of an `ElseIf` header go to the start of the branch, which gets braces for them. -/
theorem Target.Statement.Fits.headerIntoBranch (trivia : Trivia) {condition : Target.Expr}
    {branch : Statement} {elseBody : Option Statement} (hbranch : branch.Fits)
    (helse : ∀ alternative ∈ elseBody, alternative.Fits) :
    (headerIntoBranch trivia (.if condition branch elseBody)).Fits := by
  obtain ⟨-, h⟩ | ⟨-, statements, hstatements, h⟩ :=
    headerIntoBranch_if trivia condition branch elseBody
  · rw [h]
    exact .if hbranch helse
  · have hinside : SoundIn statements := by
      obtain rfl | rfl := hstatements
      · exact hbranch.of_block
      · exact .fits hbranch
    rw [h]
    exact .if (hinside.attachHeader trivia).block helse

/-- Resources stand around a block one inside the other. -/
theorem fits_resources {statements : List Statement} (h : SoundIn statements)
    (groups : List Target.Variables) :
    Statement.Fits (groups.foldr (fun group rest => .using (.declared group) rest)
      (.block statements)) := by
  induction groups with
  | nil => exact h.block
  | cons group rest ih => exact .around (cons_ne_nil _ _) (forall_mem_singleton.mpr ih)

section Table

variable {inner : Inner} {body : Body} {statements : List Source.Statement}
  {output : List Statement} (hparts : ∀ part, inner.Places part)
include hparts

/-- Statements that are converted one by one. -/
theorem Inner.Converts.soundIn (h : inner.Converts body statements output) : SoundIn output :=
  h.forall_mem fun part _ => hparts part body

/-- The branches of an `If` fit. -/
theorem IfImage.fits {condition : Expr} {elseStatements : Option (List Source.Statement)}
    {elseIfs : List ElseIfBlock} {converted : Statement}
    (h : IfImage inner body condition statements elseStatements elseIfs converted) :
    ∃ test branch elseBody, converted = .if test branch elseBody ∧ branch.Fits ∧
      ∀ alternative ∈ elseBody, alternative.Fits := by
  induction h with
  | only _ hbranch =>
    exact ⟨_, _, _, rfl, (hbranch.soundIn hparts).thenBranch false, by simp⟩
  | withElse _ hbranch helse =>
    refine ⟨_, _, _, rfl, (hbranch.soundIn hparts).thenBranch true, ?_⟩
    rintro _ ⟨⟩
    exact (helse.soundIn hparts).embedded
  | elseIf _ hbranch _ ih =>
    obtain ⟨_, _, _, rfl, hinside, helse⟩ := ih
    refine ⟨_, _, _, rfl, (hbranch.soundIn hparts).thenBranch true, ?_⟩
    rintro _ ⟨⟩
    exact .headerIntoBranch _ hinside helse

/-- The sections of a `Select` close. -/
theorem closes_sections {cases : List CaseBlock} {sections : List Target.SwitchSection}
    (h : Forall₂ (SectionImage inner body) cases sections) :
    (∀ part ∈ sections, part.Closes) ∧ SoundIn (sections.flatMap (·.statements)) := by
  induction h with
  | nil => exact ⟨forall_mem_nil _, forall_mem_nil _⟩
  | @cons block converted rest others hfirst _ ih =>
    obtain ⟨statements, -, hstatements, hconverted⟩ := hfirst
    obtain ⟨labels, inside⟩ := converted
    obtain rfl : inside = sectionBody (attachHeader block.trivia statements) := hconverted
    obtain ⟨hcloses, hsound⟩ :=
      ((hstatements.soundIn hparts).attachHeader block.trivia).sectionBody labels
    obtain ⟨hclosed, hothers⟩ := ih
    exact ⟨forall_mem_cons.mpr ⟨hcloses, hclosed⟩, hsound.append hothers⟩

/-- The bodies of the handlers of a `Try`. -/
theorem soundIn_catches {catches : List CatchBlock} {clauses : List Target.CatchClause}
    (h : Forall₂ (CatchImage inner body) catches clauses) :
    SoundIn (clauses.flatMap (·.body)) := by
  induction h with
  | nil => exact forall_mem_nil _
  | @cons block converted rest others hfirst _ ih =>
    obtain ⟨_, -, -, hstatements, hconverted⟩ := hfirst
    have hsound := (hstatements.soundIn hparts).attachHeader block.trivia
    rw [← hconverted] at hsound
    exact hsound.append ih

/-- **One level**: what a statement becomes is in its place if what its parts become is. -/
theorem Image.soundIn {kind : StatementKind} {converted : List Statement}
    (h : Image inner body kind converted) : SoundIn converted := by
  by_cases hsimple : kind.isSimple
  · obtain ⟨_, rfl, hsingle⟩ := h.exists_simple hsimple
    exact .simple hsingle
  -- what is left declares variables or has other statements inside
  cases h with
  | localDeclaration => exact forall_mem_map.mpr fun group _ => .declaration _ group
  | singleLineIf h | multiLineIf h =>
    obtain ⟨_, _, _, rfl, hbranch, helse⟩ := h.fits hparts
    exact .fits (.if hbranch helse)
  | «for» _ _ _ hbody | forEach _ _ hbody | «while» _ hbody | doFirst _ hbody | doForever hbody =>
    exact .around rfl (hbody.soundIn hparts).embedded
  | doLast _ hbody | syncLock _ hbody | usingValue _ hbody =>
    exact .around rfl (hbody.soundIn hparts).block
  | select _ hcases =>
    obtain ⟨hcloses, hsound⟩ := closes_sections hparts hcases
    refine forall_mem_singleton.mpr ⟨.intro ⟨forall_mem_nil _, hcloses, ?_⟩ ?_,
      Statement.noConfusion⟩
    · exact fun hempty => absurd rfl (hsound _ hempty).ne_empty
    · exact fun part hpart => (hsound part hpart).everywhere
  | «with» _ hbody =>
    refine .fits (SoundIn.block (forall_mem_cons.mpr ⟨?_, hbody.soundIn hparts⟩))
    exact .declaration [] _
  | «try» hbody hcatches =>
    have hinside := (hbody.soundIn hparts).append (soundIn_catches hparts hcatches)
    refine forall_mem_singleton.mpr ⟨.enclosing rfl rfl ?_, Statement.noConfusion⟩
    exact hinside.append (forall_mem_nil _)
  | tryFinally hbody hcatches hlast =>
    have hinside := (hbody.soundIn hparts).append (soundIn_catches hparts hcatches)
    refine forall_mem_singleton.mpr ⟨.enclosing rfl rfl ?_, Statement.noConfusion⟩
    exact hinside.append (hlast.soundIn hparts)
  | usingVariables _ hbody => exact .fits (fits_resources (hbody.soundIn hparts) _)
  | _ => exact absurd rfl hsimple

end Table

/-! ## Whole trees -/

/-- **Every level**: whatever is converted is in its place. -/
theorem places_at (setting : Setting) (levels : Nat) (statement : Source.Statement) :
    (Inner.at setting levels).Places statement :=
  Inner.statement_induction
    (fun himage ih => (himage.soundIn ih).attachStatements _) levels statement

/-- All statements of a converted body are in their places. -/
theorem Inner.Converts.sound {setting : Setting} {levels : Nat} {body : Body}
    {source : List Source.Statement} {output : List Statement}
    (h : (Inner.at setting levels).Converts body source output) :
    SoundIn output :=
  h.soundIn (places_at setting levels)

end Sharpen
