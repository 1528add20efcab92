import Sharpen.Proofs.Printing.Emitted
import Sharpen.Proofs.Printing.Tree

/-!
# The width of indentation

How wide a level of indentation is, changes nothing but the blanks that lines start with:
indentation is written at the start of a line only, whatever stands around it.

The printer has a level that its rules move up and down while they write. Each of its rules, on any
tree, only appends to the output and comes back to the level that it was called with (`Rule`), and
what the rules write is the text of the tree.

The main result is `width_changes_leading_blanks_only`.
-/

namespace Sharpen

open List

/-! ## Leading blanks -/

namespace Text

/-- The lines of a text, without the blanks that they start with. -/
def unindentedLines (text : String) : List (List Char) :=
  (text.toList.splitOn '\n').map (List.dropWhile (· == ' '))

/-- A text without the blanks that its lines start with. The first line is one of these lines only
if the text starts a line. -/
def unindent (startsLine : Bool) : List Char → List Char
  | [] => []
  | char :: rest =>
    if char == '\n' then char :: unindent true rest
    else if startsLine && char == ' ' then unindent true rest
    else char :: unindent false rest

/-- Whether what follows a text still starts a line, blanks aside. -/
def startsLineBehind (startsLine : Bool) : List Char → Bool
  | [] => startsLine
  | char :: rest => startsLineBehind (char == '\n' || startsLine && char == ' ') rest

theorem unindent_append (startsLine : Bool) (text rest : List Char) :
    unindent startsLine (text ++ rest) =
      unindent startsLine text ++ unindent (startsLineBehind startsLine text) rest := by
  induction text generalizing startsLine with
  | nil => rfl
  | cons char others ih =>
    simp only [cons_append, unindent, startsLineBehind]
    by_cases hnewline : char == '\n'
    · simp only [hnewline, if_true, Bool.true_or, ih, cons_append]
    · by_cases hblank : startsLine && char == ' '
      · simp only [hnewline, hblank, if_true, Bool.or_true, ih, Bool.false_eq_true, if_false]
      · simp only [hnewline, hblank, Bool.or_self, ih, Bool.false_eq_true, if_false,
          cons_append]

theorem unindent_blanks (count : Nat) (rest : List Char) :
    unindent true (List.replicate count ' ' ++ rest) = unindent true rest := by
  induction count with
  | zero => rfl
  | succ count ih => exact ih

/-- Lines are the same before and after their blanks are dropped. -/
theorem splitOn_unindent (startsLine : Bool) (text : List Char) :
    ∃ first others, text.splitOn '\n' = first :: others ∧ (unindent startsLine text).splitOn '\n' =
      (if startsLine then first.dropWhile (· == ' ') else first) ::
        others.map (List.dropWhile (· == ' ')) := by
  induction text generalizing startsLine with
  | nil => exact ⟨[], [], rfl, by cases startsLine <;> rfl⟩
  | cons char rest ih =>
    simp only [List.splitOn, splitOnP_cons_eq_if_modifyHead, unindent] at ih ⊢
    by_cases hnewline : char == '\n'
    · obtain ⟨first, others, hrest, heq⟩ := ih true
      refine ⟨[], first :: others, by rw [if_pos hnewline, hrest], ?_⟩
      rw [if_pos hnewline, splitOnP_cons_eq_if_modifyHead, if_pos hnewline, heq]
      cases startsLine <;> rfl
    · obtain ⟨first, others, hrest, heq⟩ := ih (startsLine && char == ' ')
      refine ⟨char :: first, others, by rw [if_neg hnewline, hrest, modifyHead_cons], ?_⟩
      rw [if_neg hnewline]
      by_cases hblank : startsLine && char == ' '
      · obtain ⟨rfl, hchar⟩ := Bool.and_eq_true_iff.mp hblank
        rw [hblank] at heq
        simp only [hchar, Bool.and_self, if_true, heq, dropWhile_cons]
      · rw [Bool.not_eq_true] at hblank
        rw [hblank] at heq
        simp only [hblank, Bool.false_eq_true, if_false, splitOnP_cons_eq_if_modifyHead,
          hnewline, heq, modifyHead_cons]
        cases startsLine with
        | false => rfl
        | true =>
          rw [Bool.true_and] at hblank
          simp only [dropWhile_cons, hblank, Bool.false_eq_true, if_false, if_true]

theorem unindentedLines_eq (text : String) :
    unindentedLines text = (unindent true text.toList).splitOn '\n' := by
  obtain ⟨_, _, hlines, heq⟩ := splitOn_unindent true text.toList
  rw [heq, unindentedLines, hlines]
  rfl

end Text

namespace Layout

open Text (unindent unindentedLines)

variable {P : String → Prop} {spot : Spot} {rest : Layout}

/-- What is printed in the grammar is the same for two widths, up to leading blanks. -/
theorem Fits.unindent_render (v w : Nat) {layout : Layout} {startsLine : Bool}
    (h : Fits P spot (layout ++ rest)) (hspot : spot = .start → startsLine = true) :
    unindent startsLine (layout.render v).toList =
      unindent startsLine (layout.render w).toList := by
  induction layout generalizing spot startsLine with
  | nil => rfl
  | cons piece others ih =>
    simp only [render_cons, String.toList_append, Text.unindent_append]
    cases piece with
    | text content =>
      rw [cons_append, Fits] at h
      simp only [Piece.render]
      split at h
      · rw [ih h.2 (by simp)]
      · rw [ih h.2 (by simp)]
    | comment content =>
      simp only [Piece.render]
      rw [ih h.2.2 (by simp)]
    | newline =>
      simp only [Piece.render]
      rw [ih h.2 fun _ => by cases startsLine <;> rfl]
    | indent level =>
      obtain rfl := hspot h.1
      simp only [← Text.unindent_append, Piece.render, String.toList_ofList, Text.unindent_blanks]
      exact ih h.2 (by simp)

/-- A layout, with whatever ends its last line, has the same lines for two widths. -/
theorem Fits.unindentedLines_render {layout : Layout} (h : Fits P spot (layout ++ rest))
    (v w : Nat) :
    unindentedLines (layout.render v) = unindentedLines (layout.render w) := by
  rw [Text.unindentedLines_eq, Text.unindentedLines_eq, h.unindent_render v w fun _ => rfl]

end Layout

/-! ## The rules of the printer -/

namespace Target

open Layout (Fits)
open Printer
open Text (unindentedLines)

/-- A rule of the printer, and what it is called for. -/
inductive Rule where
  | unit (unit : CompilationUnit)
  | members (members : List Member)
  | memberBody (members : List Member)
  | member (member : Member)
  | attributeLines (lists : List AttributeList)
  | attributeList (list : AttributeList)
  | accessorList (accessors : List Accessor)
  | enumMembers (members : List EnumMember)
  | typeParameters (parameters : List TypeParameter)
  | constraintClauses (clauses : List ConstraintClause)
  | parameterList (before after : String) (parameters : List Parameter)
  | parameter (parameter : Parameter)
  | variables (group : Variables)
  | modifiers (modifiers : List Modifier)
  | blockBody (statements : List Statement)
  | blockOnNewLine (statements : List Statement)
  | statement (statement : Statement) (place : Place)
  | commaSeparated (exprs : List Expr)
  | arguments (arguments : List Argument)
  | operand (least : Nat) (expr : Expr)
  | typeArguments (types : List TypeSyntax)
  | initializer (items : List Expr)
  | expr (expr : Expr)
  | literal (value : Literal)
  | type (type : TypeSyntax)
  | name (name : Name)

/-- What the printer does at a call. -/
def emitRule : Rule → Emission
  | .unit unit => unit.emit
  | .members members => emitMembers none members
  | .memberBody members => emitMemberBody (emitMembers none members)
  | .member member => member.emit
  | .attributeLines lists => emitAttributeLines lists
  | .attributeList list => list.emit
  | .accessorList accessors => emitAccessorList accessors
  | .enumMembers members => emitEnumMembers members
  | .typeParameters parameters => emitTypeParameterList parameters
  | .constraintClauses clauses => emitConstraintClauses clauses
  | .parameterList before after parameters => emitParameterList before after parameters
  | .parameter parameter => emitParameters true [parameter]
  | .variables group => group.emit
  | .modifiers modifiers => emitModifiers modifiers
  | .blockBody statements => emitBlockBody (emitStatements statements)
  | .blockOnNewLine statements => emitBlockOnNewLine (emitStatements statements)
  | .statement statement place => statement.emit place
  | .commaSeparated exprs => emitExprs true exprs
  | .arguments arguments => emitArguments true arguments
  | .operand least expr => emitOperand least expr expr.emit
  | .typeArguments types => emitAngled types.isEmpty (emitTypes true types)
  | .initializer items => emitBraced items.isEmpty (emitExprs true items)
  | .expr expr => expr.emit
  | .literal value => value.emit
  | .type type => type.emit
  | .name name => name.emit

/-- With comments, a statement in a line that is begun is laid out as well. -/
theorem Statement.exists_lay_inline (statement : Statement) :
    ∃ layout, statement.emit .inline = lay layout := by
  induction statement using Statement.inductionOnParts with
  | h statement ih =>
    cases statement with
    | commented trivia inner =>
      obtain ⟨layout, hinner⟩ := ih inner (mem_singleton_self _)
      obtain ⟨comments, hcomments⟩ := exists_lay_writeInlineComments trivia.leading
      refine ⟨fun level => layout level ++ (comments level ++ Layout.endComment trivia.trailing),
        ?_⟩
      change (do
        inner.emit .inline
        writeInlineComments trivia.leading; writeTrailingComment trivia.trailing) = _
      rw [hinner, hcomments, writeTrailingComment_eq, lay_bind, lay_bind]
    | _ => exact ⟨_, Statement.emit_eq _ fun _ => trivial⟩

/-- Every rule writes a layout for the level that it is called at. -/
theorem exists_lay_emitRule (rule : Rule) : ∃ layout, emitRule rule = lay layout := by
  cases rule with
  | unit unit =>
    obtain ⟨layout, heq, -⟩ := unit.emit_eq
    exact ⟨layout, heq⟩
  | member => exact ⟨_, emit_members.1 _⟩
  | members => exact ⟨_, emit_members.2 none _⟩
  | memberBody members => exact ⟨_, by rw [emitRule, emit_members.2, emitMemberBody_eq]⟩
  | statement statement place =>
    by_cases hplace : place = .inline
    · exact hplace ▸ statement.exists_lay_inline
    · exact ⟨_, statement.emit_eq fun h => absurd h hplace⟩
  | typeArguments types => simp [emitRule, emitAngled_eq _ (isEmpty_types types)]
  | initializer items => simp [emitRule, emitBraced_eq _ (isEmpty_exprs items)]
  | _ => simp [emitRule]

/-- What the steps of a printer write from the start, for a width. -/
def emittedText (width : Nat) (emission : Emission) : String :=
  (emission.run { width }).2.output

/-- A layout is written from the outermost level. -/
theorem emittedText_lay (width : Nat) (layout : Nat → Layout) :
    emittedText width (lay layout) = (layout 0).render width :=
  String.empty_append

/-- **The width of indentation changes leading blanks only**: the text of any file, member,
statement or expression has the same lines for any two widths, up to the blanks that they start
with.

These texts are what the rules of the printer write. Whatever rule is called, on any tree and with
the printer in any state, it only appends to the output, and the printer is left at the level that
it was at. -/
theorem width_changes_leading_blanks_only (v w : Nat) :
    ((∀ unit : CompilationUnit, unindentedLines (unit.text v) = unindentedLines (unit.text w)) ∧
      (∀ member : Member, unindentedLines (member.text v) = unindentedLines (member.text w)) ∧
      (∀ statement : Statement,
        unindentedLines (statement.text v) = unindentedLines (statement.text w)) ∧
      ∀ expr : Expr, unindentedLines (expr.text v) = unindentedLines (expr.text w)) ∧
    ((∀ unit : CompilationUnit, emittedText v unit.emit = unit.text v) ∧
      (∀ member : Member, emittedText v member.emit = member.text v) ∧
      (∀ statement : Statement, emittedText v (statement.emit .line) = statement.text v) ∧
      ∀ expr : Expr, emittedText v expr.emit = expr.text v) ∧
    ∀ (rule : Rule) (printer : Printer), ∃ text,
      (emitRule rule).run printer = ((), { printer with output := printer.output ++ text }) := by
  -- no comment is asked for anything
  have hnode (node : Node) : node.Carries fun _ => True := fun _ _ => trivial
  have hmember (member : Member) : member.Carries fun _ => True := fun _ _ => trivial
  have hempty : Fits (fun _ => True) .start [] := .inl rfl
  refine ⟨⟨fun unit => ?_, fun member => ?_, fun statement => ?_, fun expr => ?_⟩,
    ⟨fun unit => ?_, fun member => ?_, fun statement => ?_, fun expr => ?_⟩,
    fun rule printer => ?_⟩
  · have hunit : unit.Carries fun _ => True :=
      ⟨fun _ _ => hnode _, fun node _ => hnode node, fun member _ => hmember member⟩
    have hfits := hunit.fits
    rw [← append_nil unit.layout] at hfits
    exact hfits.unindentedLines_render v w
  · have hline := fits_members.1 member (hmember member) 0
    exact (hline.fits.mpr hempty).unindentedLines_render v w
  · have hline := Statement.line (hnode (.statement statement)) 0
    exact (hline.fits.mpr hempty).unindentedLines_render v w
  · have hinline : Layout.Inline _ (expr.layout 0) := Expr.inline (hnode (.expr expr))
    exact ((hinline []).mpr (.inr rfl)).unindentedLines_render v w
  · obtain ⟨layout, hemit, hlayout⟩ := unit.emit_eq
    rw [hemit, emittedText_lay, hlayout, CompilationUnit.text]
  · rw [emit_members.1, emittedText_lay, Member.text]
  · have hemit : statement.emit .line = lay fun level => statement.layout level .line :=
      statement.emit_eq nofun
    rw [hemit, emittedText_lay, Statement.text]
  · simp only [emit_code, emittedText_lay, Expr.text]
  · obtain ⟨layout, hemit⟩ := exists_lay_emitRule rule
    refine ⟨(layout printer.level).render printer.width, ?_⟩
    rw [hemit]
    rfl

end Target

end Sharpen
