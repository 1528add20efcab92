import Sharpen.Proofs.TargetParts
import Sharpen.Target.Print.Code

/-!
# The outline of printed statements

For the question which `if` an `else` belongs to, a statement is a sequence of marks: its keywords,
braces, and the stretches of text between them. `Statement.outline` is that sequence as the tree has
it, with a mark where each `if` ends. The end of an `if` is the one mark that has no text.

`Statement.words` is the printed text cut into pieces, with the mark that each of them is. The
pieces make up the whole text, and their marks are the outline without the ends of `if`s:
`spell_words`. How a reader puts the ends back is in `Proofs/DanglingElse/Reading`.
-/

namespace Sharpen.Target

open List

/-- What matters of a piece of the text of a statement. -/
inductive Mark where
  /-- a statement without others inside, or the label of a section -/
  | plain
  /-- what stands before the body of a loop, `switch`, `lock` or `using` -/
  | head
  | if | else
  /-- where an `if` ends; it has no text -/
  | endIf
  | opening | closing
  | do
  /-- the test behind the body of a `do` -/
  | until
  | try
  /-- what stands before the block of a `catch` or `finally` -/
  | handler
  deriving DecidableEq

/-- Marks between braces. -/
def braced (marks : List Mark) : List Mark :=
  .opening :: marks ++ [.closing]

mutual

def Statement.outline : Statement → List Mark
  | .commented _ inner => inner.outline
  | .block statements => braced (outlines statements)
  | .if _ body none => .if :: body.outline ++ [.endIf]
  | .if _ body (some alternative) => .if :: body.outline ++ .else :: alternative.outline ++ [.endIf]
  | .for _ _ _ body | .forEach _ _ _ body | .while _ body | .lock _ body | .using _ body =>
    .head :: body.outline
  | .do body _ => .do :: body.outline ++ [.until]
  | .switch _ sections => .head :: braced (sectionOutlines sections)
  | .try body catches none => .try :: braced (outlines body) ++ catchOutlines catches
  | .try body catches (some finallyBody) =>
    .try :: braced (outlines body) ++ catchOutlines catches ++ .handler ::
      braced (outlines finallyBody)
  | .localDeclaration _ _ | .expression _ | .return _ | .yieldReturn _ | .yieldBreak | .break
  | .continue | .throw _ | .empty => [.plain]

def outlines : List Statement → List Mark
  | [] => []
  | statement :: rest => statement.outline ++ outlines rest

def sectionOutlines : List SwitchSection → List Mark
  | [] => []
  | ⟨labels, statements⟩ :: rest =>
    labels.map (fun _ => .plain) ++ outlines statements ++ sectionOutlines rest

/-- The marks of the `catch` clauses of a `try`. -/
def catchOutlines : List CatchClause → List Mark
  | [] => []
  | ⟨_, _, body⟩ :: rest => .handler :: braced (outlines body) ++ catchOutlines rest

end

/-- A piece of printed text, with the mark it is; line ends, indentation and comments have none. -/
structure Word where
  mark : Option Mark
  layout : Layout

/-- A piece of text that says nothing. -/
def Word.blank (layout : Layout) : Word :=
  ⟨none, layout⟩

/-- A piece of text with a mark. -/
def Word.of (mark : Mark) (layout : Layout) : Word :=
  ⟨some mark, layout⟩

/-- Words between braces, on lines of their own. -/
def bracedWords (level : Nat) (inside : List Word) : List Word :=
  .of .opening (Layout.write "\x7b") :: .blank [.newline] :: inside ++
    [.blank [.indent level], .of .closing (Layout.write "\x7d")]

/-- What leads to a statement at a place. -/
def Place.start (place : Place) (isBlock : Bool) (level : Nat) : Word :=
  .blank (place.lead ++ place.indentation (place.levelOf isBlock level))

/-- The words of a statement without others inside. -/
def plainWords (level : Nat) (place : Place) (statement : Statement) : List Word :=
  [place.start false level, .of .plain (statement.layout (place.levelOf false level) .inline)]

/-- The words of a label on a line of its own. -/
def labelWords (level : Nat) : Option Layout → List Word
  | some value =>
    [.blank [.indent level], .of .plain (.text "case " :: value ++ [.text ":"]), .blank [.newline]]
  | none => [.blank [.indent level], .of .plain [.text "default:"], .blank [.newline]]

mutual

def Statement.words (level : Nat) (place : Place) : Statement → List Word
  | .commented trivia inner =>
    let inside := place.levelOf false level
    .blank (place.lead ++ Layout.commentLines inside trivia.leading) :: inner.words inside .line ++
      [.blank (Layout.endComment trivia.trailing)]
  | .block statements =>
    let inside := place.levelOf true level
    place.start true level :: bracedWords inside (lineWords (inside + 1) statements)
  | .if condition body elseBody =>
    let inside := place.levelOf false level
    place.start false level :: .of .if (Layout.enclosed "if (" ")" (condition.layout inside)) ::
      body.words inside .body ++
      (match elseBody with
        | some alternative =>
          .blank [.newline, .indent inside] :: .of .else (Layout.write "else") ::
            if alternative.isIf then .blank [.text " "] :: alternative.words inside .inline
            else alternative.words inside .body
        | none => [])
  | .for opening condition incrementors body =>
    let inside := place.levelOf false level
    place.start false level ::
      .of .head (.text "for (" :: opening.layout inside ++ .text ";" ::
        (match condition with
          | some condition => .text " " :: condition.layout inside
          | none => []) ++ .text ";" ::
        (match exprLayouts inside incrementors with
          | [] => []
          | steps => .text " " :: Layout.commaSeparated steps) ++ [.text ")"]) ::
      body.words inside .body
  | .forEach type identifier items body =>
    let inside := place.levelOf false level
    place.start false level ::
      .of .head (.text "foreach (" :: type.layout inside ++
        .text " " :: .text identifier :: .text " in " :: items.layout inside ++ [.text ")"]) ::
      body.words inside .body
  | .while condition body =>
    let inside := place.levelOf false level
    place.start false level ::
      .of .head (Layout.enclosed "while (" ")" (condition.layout inside)) ::
      body.words inside .body
  | .do body condition =>
    let inside := place.levelOf false level
    place.start false level :: .of .do (Layout.write "do") :: body.words inside .body ++
      [.blank [.newline, .indent inside],
        .of .until (Layout.enclosed "while (" ");" (condition.layout inside))]
  | .switch subject sections =>
    let inside := place.levelOf false level
    place.start false level :: .of .head (Layout.enclosed "switch (" ")" (subject.layout inside)) ::
      .blank [.newline, .indent inside] :: bracedWords inside (sectionWords (inside + 1) sections)
  | .try body catches finallyBody =>
    let inside := place.levelOf false level
    place.start false level :: .of .try (Layout.write "try") :: .blank [.newline, .indent inside] ::
      bracedWords inside (lineWords (inside + 1) body) ++ catchWords inside catches ++
      (match finallyBody with
        | some statements =>
          .blank [.newline, .indent inside] :: .of .handler (Layout.write "finally") ::
            .blank [.newline, .indent inside] ::
            bracedWords inside (lineWords (inside + 1) statements)
        | none => [])
  | .lock subject body =>
    let inside := place.levelOf false level
    place.start false level :: .of .head (Layout.enclosed "lock (" ")" (subject.layout inside)) ::
      body.words inside .body
  | .using opening body =>
    let inside := place.levelOf false level
    place.start false level :: .of .head (Layout.enclosed "using (" ")" (opening.layout inside)) ::
      if body.isUsing then .blank [.newline] :: body.words inside .line else body.words inside .body
  | .localDeclaration modifiers declared =>
    plainWords level place (.localDeclaration modifiers declared)
  | .expression value => plainWords level place (.expression value)
  | .return value => plainWords level place (.return value)
  | .yieldReturn value => plainWords level place (.yieldReturn value)
  | .yieldBreak => plainWords level place .yieldBreak
  | .break => plainWords level place .break
  | .continue => plainWords level place .continue
  | .throw value => plainWords level place (.throw value)
  | .empty => plainWords level place .empty

/-- The words of statements on lines of their own. -/
def lineWords (level : Nat) : List Statement → List Word
  | [] => []
  | statement :: rest => statement.words level .line ++ .blank [.newline] :: lineWords level rest

def sectionWords (level : Nat) : List SwitchSection → List Word
  | [] => []
  | ⟨labels, statements⟩ :: rest =>
    (optionLayouts level labels).flatMap (labelWords level) ++
    lineWords (level + 1) statements ++ sectionWords level rest

/-- The words of the `catch` clauses of a `try`. -/
def catchWords (level : Nat) : List CatchClause → List Word
  | [] => []
  | ⟨header, filter, body⟩ :: rest =>
    .blank [.newline, .indent level] ::
      .of .handler (.text "catch" :: header.layout level ++ (match filter with
          | some condition => Layout.enclosed " when (" ")" (condition.layout level)
          | none => [])) ::
      .blank [.newline, .indent level] :: bracedWords level (lineWords (level + 1) body) ++
      catchWords level rest

end

/-! ## The text and the marks of words -/

/-- The text that words make up. -/
def wordsLayout (words : List Word) : Layout :=
  words.flatMap (·.layout)

@[simp] theorem wordsLayout_nil : wordsLayout [] = [] :=
  rfl

@[simp] theorem wordsLayout_blank (layout : Layout) (rest : List Word) :
    wordsLayout (.blank layout :: rest) = layout ++ wordsLayout rest :=
  flatMap_cons ..

@[simp] theorem wordsLayout_of (mark : Mark) (layout : Layout) (rest : List Word) :
    wordsLayout (.of mark layout :: rest) = layout ++ wordsLayout rest :=
  flatMap_cons ..

@[simp] theorem wordsLayout_append (first second : List Word) :
    wordsLayout (first ++ second) = wordsLayout first ++ wordsLayout second :=
  flatMap_append ..

/-- The marks that have a text. -/
def printed (outline : List Mark) : List Mark :=
  outline.filter (· != .endIf)

@[simp] theorem printed_nil : printed [] = [] :=
  rfl

@[simp] theorem printed_append (first second : List Mark) :
    printed (first ++ second) = printed first ++ printed second :=
  filter_append ..

@[simp] theorem printed_endIf (rest : List Mark) : printed (.endIf :: rest) = printed rest :=
  rfl

theorem printed_cons {mark : Mark} (h : mark ≠ .endIf) (rest : List Mark) :
    printed (mark :: rest) = mark :: printed rest :=
  filter_cons_of_pos (by simpa using h)

@[simp] theorem printed_braced (marks : List Mark) :
    printed (braced marks) = braced (printed marks) := by
  simp [braced, printed_cons]

def wordsMarks (words : List Word) : List Mark :=
  words.filterMap (·.mark)

@[simp] theorem wordsMarks_nil : wordsMarks [] = [] :=
  rfl

@[simp] theorem wordsMarks_append (first second : List Word) :
    wordsMarks (first ++ second) = wordsMarks first ++ wordsMarks second :=
  filterMap_append ..

@[simp] theorem wordsMarks_blank (layout : Layout) (rest : List Word) :
    wordsMarks (.blank layout :: rest) = wordsMarks rest :=
  rfl

@[simp] theorem wordsMarks_of (mark : Mark) (layout : Layout) (rest : List Word) :
    wordsMarks (.of mark layout :: rest) = mark :: wordsMarks rest :=
  rfl

/-! ## The words of statements -/

/-- Words that make up a text and have the marks of an outline that have a text. -/
def Spell (words : List Word) (layout : Layout) (outline : List Mark) : Prop :=
  wordsLayout words = layout ∧ wordsMarks words = printed outline

theorem wordsLayout_labels (level : Nat) (labels : List (Option Expr)) :
    wordsLayout ((optionLayouts level labels).flatMap (labelWords level)) =
      ((optionLayouts level labels).map fun
        | some value => .indent level :: .text "case " :: value ++ [.text ":"]
        | none => [.indent level, .text "default:"]).flatMap (· ++ [.newline]) := by
  rw [wordsLayout, flatMap_assoc, flatMap_map]
  congr 1
  funext label
  cases label with
  | none => rfl
  | some value => simp [labelWords, Word.blank, Word.of]

theorem wordsMarks_labels (level : Nat) (labels : List (Option Expr)) :
    wordsMarks ((optionLayouts level labels).flatMap (labelWords level)) =
      printed (labels.map fun _ => .plain) := by
  induction labels with
  | nil => rfl
  | cons label labels ih => cases label <;> simp [optionLayouts, labelWords, printed_cons, ih]

/-- **The words of a statement make up its text**, and their marks are its outline without the ends
of `if`s. -/
theorem spell_words :
    (∀ level place (statement : Statement),
      Spell (statement.words level place) (statement.layout level place) statement.outline) ∧
    (∀ level catches,
      Spell (catchWords level catches) (catchesLayout level catches) (catchOutlines catches)) ∧
    (∀ level statements, Spell (lineWords level statements)
      ((statementLayouts level statements).flatMap (· ++ [.newline])) (outlines statements)) ∧
    (∀ level sections, Spell (sectionWords level sections)
      ((sectionLines level sections).flatMap (· ++ [.newline])) (sectionOutlines sections)) := by
  -- words and text are written down by the same recursion, so each case unfolds both of them
  apply Statement.words.mutual_induct
  all_goals intros
  all_goals try cases ‹Option _›
  all_goals
    simp_all! +zetaDelta [Spell, apply_ite wordsLayout, apply_ite wordsMarks, plainWords,
      bracedWords, braced, Layout.block, Layout.blockBelow, Layout.write,
      Place.start, wordsLayout_labels, wordsMarks_labels, printed_cons]
  all_goals rfl

end Sharpen.Target
