import Sharpen.Proofs.Printing.Emission
import Sharpen.Proofs.Printing.Grammar

/-!
# What the printer appends

Every rule of the printer appends what the layout of its node is rendered to, for the level that the
printer is at, and leaves the printer at this level. This is one equation for each rule: the rule is
`lay` of the layout. Steps that follow each other join their layouts, and a step between
`increaseIndent` and `decreaseIndent` appends its layout one level deeper, because it comes back to
the level it was called with.

The main results are `emit_code`, `emit_members` and `CompilationUnit.emit_eq`.
-/

namespace Sharpen

open List

namespace Printer

/-- Appends the text of a layout for the level of the printer. -/
def lay (layout : Nat → Layout) : Emission :=
  modify fun printer =>
    { printer with output := printer.output ++ (layout printer.level).render printer.width }

variable (first second : Nat → Layout)

/-! ## Steps -/

/-- No step appends nothing. -/
@[simp] theorem pure_eq : (pure () : Emission) = lay fun _ => [] := by
  funext printer
  simp only [lay, Layout.render, map_nil, String.join_nil, String.append_empty]
  rfl

/-- A text that is written as it is, also as a comment. -/
theorem write_eq_piece {piece : Piece} {text : String} (h : ∀ width, piece.render width = text) :
    write text = lay fun _ => [piece] := by
  simp [write, lay, Layout.render, h, String.join]

/-- A text that is part of the code. -/
@[simp] theorem write_eq (text : String) : write text = lay fun _ => [.text text] :=
  write_eq_piece fun _ => rfl

@[simp] theorem writeLine_eq : writeLine = lay fun _ => [.newline] :=
  write_eq_piece fun _ => rfl

@[simp] theorem writeIndent_eq : writeIndent = lay fun level => [.indent level] := by
  funext printer
  simp [lay, Layout.render, String.join]
  rfl

/-- Steps one after the other append one layout after the other. -/
@[simp] theorem lay_bind : (do lay first; lay second) = lay fun level => first level ++
second level := by
  funext printer
  simp only [lay, Layout.render_append, ← String.append_assoc]
  rfl

/-- Steps at the front are joined also where the steps behind them move the level. -/
theorem lay_bind_bind (rest : Emission) :
    (do lay first; lay second; rest) = (do lay fun level => first level ++ second level; rest) := by
  rw [← lay_bind, bind_assoc]

/-- One level deeper and back. -/
@[simp] theorem indented :
    (do increaseIndent; lay first; decreaseIndent) = lay fun level => first (level + 1) := rfl

/-- The steps behind are at the level of the steps in front. -/
@[simp] theorem indented_bind (rest : Emission) :
    (do increaseIndent; lay first; decreaseIndent; rest) =
    (do lay fun level => first (level + 1); rest) := rfl

/-- A choice of steps is a choice of layouts. -/
@[simp] theorem ite_lay (c : Prop) [Decidable c] :
    (if c then lay first else lay second) = lay fun level => if c then first level else second
    level := by
  split <;> rfl

/-- A token between blanks is one text. -/
@[simp] theorem writeSpaced_eq (token : String) :
    writeSpaced token = lay fun _ => [.text (" " ++ token ++ " ")] := by
  simp only [writeSpaced, write_eq, lay_bind]
  simp [lay, Layout.render, Piece.render, String.join, String.append_assoc]

@[simp] theorem writeComma_eq (isFirst : Bool) :
    writeComma isFirst = lay fun _ => if isFirst then [] else [.text ", "] := by
  simp [writeComma]

/-- Each comment has a line of its own. -/
@[simp] theorem writeLeadingComments_eq (comments : List String) :
    writeLeadingComments comments = lay fun level => Layout.commentLines level comments := by
  induction comments with
  | nil => exact pure_eq
  | cons comment rest ih =>
    have hcomment : write comment = lay fun _ => [.comment comment] := write_eq_piece fun _ => rfl
    simp only [writeLeadingComments, hcomment, writeIndent_eq, writeLine_eq, ih, lay_bind]
    rfl

/-- The comment at the end of a line, behind a blank. -/
@[simp] theorem writeTrailingComment_eq (comment : Option String) :
    writeTrailingComment comment = lay fun _ => Layout.endComment comment := by
  cases comment with
  | none => exact pure_eq
  | some comment =>
    have hcomment : write comment = lay fun _ => [.comment comment] := write_eq_piece fun _ => rfl
    simp only [writeTrailingComment, write_eq " ", hcomment, lay_bind]
    rfl

/-- Comments in the middle of a line. -/
theorem exists_lay_writeInlineComments (comments : List String) :
    ∃ layout, writeInlineComments comments = lay layout := by
  induction comments with
  | nil => exact ⟨_, pure_eq⟩
  | cons comment rest ih =>
    obtain ⟨layout, hrest⟩ := ih
    unfold writeInlineComments writeInlineComment
    split <;> simp only [hrest, write_eq, lay_bind] <;> exact ⟨_, rfl⟩

end Printer

namespace Target

open Printer
open Layout (commaSeparated enclosed)

variable (inner : Nat → Layout) (lays : Nat → List Layout) {isEmpty : Bool}

/-! ## Parts of code -/

/-- Layouts with commas, one also in front unless they are the first ones. -/
def listed (isFirst : Bool) : List Layout → Layout
  | [] => []
  | one :: rest => (if isFirst then [] else [.text ", "]) ++ one ++ listed false rest

/-- From the first one on, commas stand between layouts. -/
@[simp] theorem listed_first (layouts : List Layout) : listed true layouts =
commaSeparated layouts := by
  induction layouts with
  | nil => rfl
  | cons one rest ih =>
    cases rest with
    | nil => simp [listed, commaSeparated, Layout.separated]
    | cons next others =>
      simp only [commaSeparated, Layout.separated] at ih ⊢
      simp [← ih, listed]

/-- The sizes of a rank specifier, from the first one on or behind it. -/
def sizesFrom (isFirst : Bool) : List (Option Layout) → Layout
  | [] => []
  | some size :: rest => (if isFirst then [] else [.text ", "]) ++ size ++ sizesFrom false rest
  | none :: rest => (if isFirst then [] else [.text ","]) ++ sizesFrom false rest

/-- From the first one on, these are all the sizes. -/
@[simp] theorem sizesFrom_first (sizes : List (Option Layout)) : sizesFrom true sizes =
sizesLayout sizes := by
  have hbehind (sizes : List (Option Layout)) :
      sizesFrom false sizes = sizesLayout (none :: sizes) := by
    induction sizes with
    | nil => rfl
    | cons size rest ih => cases size <;> simp [sizesFrom, ih, sizesLayout]
  cases sizes with
  | nil => rfl
  | cons size rest => cases size <;> simp [sizesFrom, hbehind, sizesLayout]

@[simp] theorem emitModifiers_eq (modifiers : List Modifier) :
    emitModifiers modifiers = lay fun _ => modifiersLayout modifiers := by
  induction modifiers with
  | nil => exact pure_eq
  | cons modifier rest ih =>
    simp only [emitModifiers, write_eq, ih, lay_bind]
    rfl

/-- A quoted text is written in three steps, and is one piece of the layout. -/
@[simp] theorem Literal.emit_eq (value : Literal) : value.emit = lay fun _ => value.layout := by
  cases value with
  | bool value => cases value <;> exact write_eq _
  | null | numeric => exact write_eq _
  | string | char =>
    simp only [emit, write_eq, lay_bind]
    simp [lay, Literal.layout, Layout.render, Piece.render, String.join, String.append_assoc,
      Layout.write]

/-- An operand gets parentheses by its rank. -/
@[simp] theorem emitOperand_eq (least : Nat) (expr : Expr) :
    emitOperand least expr (lay inner) = lay fun level => operand least expr (inner level) := by
  simp only [emitOperand, write_eq, lay_bind, ite_lay]
  rfl

@[simp] theorem emitParenthesizedIf_eq (needed : Bool) :
    emitParenthesizedIf needed (lay inner) = lay fun level =>
    parenthesizedIf needed (inner level) := by
  simp only [emitParenthesizedIf, write_eq, lay_bind, ite_lay]
  rfl

/-- Angle brackets are left out around nothing. -/
@[simp] theorem emitAngled_eq (h : ∀ level, isEmpty = (lays level).isEmpty) :
    emitAngled isEmpty (lay fun level => commaSeparated (lays level)) =
      lay fun level => angleBrackets (lays level) := by
  simp only [emitAngled, write_eq, pure_eq, lay_bind, ite_lay]
  congr 1
  funext level
  rw [h level]
  cases lays level <;> rfl

/-- Braces around nothing have a blank between them. -/
@[simp] theorem emitBraced_eq (h : ∀ level, isEmpty = (lays level).isEmpty) :
    emitBraced isEmpty (lay fun level => commaSeparated (lays level)) =
      lay fun level => bracesLayout (lays level) := by
  simp only [emitBraced, write_eq, lay_bind, ite_lay]
  congr 1
  funext level
  rw [h level]
  cases lays level <;> rfl

theorem isEmpty_types (types : List TypeSyntax) (level : Nat) :
    types.isEmpty = (typeLayouts level types).isEmpty := by
  cases types <;> rfl

theorem isEmpty_exprs (exprs : List Expr) (level : Nat) :
    exprs.isEmpty = (exprLayouts level exprs).isEmpty := by
  cases exprs <;> rfl

theorem isEmpty_fields (fields : List FieldValue) (level : Nat) :
    fields.isEmpty = (fieldLayouts level fields).isEmpty := by
  rcases fields with _ | ⟨⟨⟩, _⟩ <;> rfl

/-- A block goes one level deeper for its lines. -/
@[simp] theorem emitBlockBody_eq :
    emitBlockBody (lay fun level => (lays level).flatMap (· ++ [.newline])) =
      lay fun level => Layout.block level (lays (level + 1)) := by
  simp only [emitBlockBody, write_eq, writeLine_eq, writeIndent_eq, indented_bind, lay_bind]
  rfl

/-- The brace that opens a block stands below the line before it. -/
@[simp] theorem emitBlockOnNewLine_eq :
    emitBlockOnNewLine (lay fun level => (lays level).flatMap (· ++ [.newline])) =
      lay fun level => Layout.blockBelow level (lays (level + 1)) := by
  simp only [emitBlockOnNewLine, emitBlockBody_eq, writeLine_eq, writeIndent_eq, lay_bind]
  rfl

/-- A statement goes where its place says. -/
@[simp] theorem emitStatementAt_eq (isBlock : Bool) (place : Place) :
    emitStatementAt isBlock (lay inner) place = lay fun level =>
      place.lead ++ place.indentation (place.levelOf isBlock level) ++
      inner (place.levelOf isBlock level) := by
  cases place with
  | inline => rfl
  | line =>
    simp only [emitStatementAt, writeIndent_eq, lay_bind]
    rfl
  | body =>
    cases isBlock <;> simp only [emitStatementAt, writeIndent_eq, writeLine_eq, lay_bind_bind,
      indented,
      lay_bind, Bool.false_eq_true, if_true, if_false] <;> rfl

/-- A statement with comments, unless it stands in a line that is begun. -/
theorem emitCommentedAt_eq (trivia : Trivia) {statement : Place → Emission}
    (h : statement .line = lay inner) {place : Place} (hplace : place ≠ .inline) :
    emitCommentedAt trivia statement place = lay fun level => place.lead ++
      Layout.commentLines (place.levelOf false level) trivia.leading ++
      inner (place.levelOf false level) ++
      Layout.endComment trivia.trailing := by
  cases place with
  | inline => exact absurd rfl hplace
  | line | body =>
    simp only [emitCommentedAt, h, writeLeadingComments_eq, writeTrailingComment_eq, writeLine_eq,
      lay_bind_bind, indented, lay_bind, ← append_assoc]
    rfl

/-! ## Code -/

/-- A statement without comments of its own. -/
def Statement.IsPlain : Statement → Prop
  | .commented _ _ => False
  | _ => True

theorem Statement.isPlain_of_isIf {statement : Statement} (h : statement.isIf) :
    statement.IsPlain := by
  cases statement <;> trivial

theorem Statement.isPlain_of_isUsing {statement : Statement} (h : statement.isUsing) :
    statement.IsPlain := by
  cases statement <;> trivial

/-- On a line of its own a `using` only has its indentation in front. -/
theorem Statement.layout_line_of_isUsing {statement : Statement} (h : statement.isUsing) (level :
Nat) :
    statement.layout level .line = .indent level :: statement.layout level .inline := by
  cases statement with
  | «using» => rfl
  | _ => cases h

/-- **Every rule for code** appends the layout of its node. Only a statement that has comments is
laid out differently in the middle of a line, where no rule asks for one. -/
@[simp] theorem emit_code :
    (∀ name : Name, name.emit = lay fun level => name.layout level) ∧
    (∀ isFirst types, emitTypes isFirst types = lay fun level =>
    listed isFirst (typeLayouts level types)) ∧
    (∀ type : TypeSyntax, type.emit = lay fun level => type.layout level) ∧
    (∀ ranks, emitRanks ranks = lay fun level => rankLayouts level ranks) ∧
    (∀ isFirst sizes, emitSizes isFirst sizes = lay fun level =>
    sizesFrom isFirst (optionLayouts level sizes)) ∧
    (∀ expr : Expr, expr.emit = lay fun level => expr.layout level) ∧
    (∀ body : LambdaBody, body.emit = lay fun level => body.layout level) ∧
    (∀ statements, emitStatements statements = lay fun level =>
      (statementLayouts level statements).flatMap (· ++ [.newline])) ∧
    (∀ (statement : Statement) place, (place = .inline → statement.IsPlain) →
      statement.emit place = lay fun level => statement.layout level place) ∧
    (∀ catches, emitCatches catches = lay fun level => catchesLayout level catches) ∧
    (∀ header : CatchHeader, header.emit = lay fun level => header.layout level) ∧
    (∀ sections, emitSections sections = lay fun level =>
      (sectionLines level sections).flatMap (· ++ [.newline])) ∧
    (∀ labels, emitLabels labels = lay fun level =>
      (sectionLines level [⟨labels, []⟩]).flatMap (· ++ [.newline])) ∧
    (∀ isFirst exprs, emitExprs isFirst exprs = lay fun level =>
    listed isFirst (exprLayouts level exprs)) ∧
    (∀ opening : Opening, opening.emit = lay fun level => opening.layout level) ∧
    (∀ group : Variables, group.emit = lay fun level => group.layout level) ∧
    (∀ isFirst declarators, emitDeclarators isFirst declarators =
      lay fun level => listed isFirst (declaratorLayouts level declarators)) ∧
    (∀ parameters : LambdaParameters, parameters.emit = lay fun level => parameters.layout level) ∧
    (∀ isFirst parameters, emitParameters isFirst parameters =
      lay fun level => listed isFirst (parameterLayouts level parameters)) ∧
    (∀ lists, emitAttributeLists lists =
      lay fun level => (attributeListLayouts level lists).flatMap (· ++ [.text " "])) ∧
    (∀ list : AttributeList, list.emit = lay fun level => list.layout level) ∧
    (∀ isFirst attributes, emitAttributes isFirst attributes =
      lay fun level => listed isFirst (attributeLayouts level attributes)) ∧
    (∀ isFirst arguments, emitAttributeArguments isFirst arguments =
      lay fun level => listed isFirst (attributeArgumentLayouts level arguments)) ∧
    (∀ isFirst fields, emitFields isFirst fields = lay fun level =>
    listed isFirst (fieldLayouts level fields)) ∧
    (∀ braces : Braces, braces.emit = lay fun level => braces.layout level) ∧
    (∀ isFirst arguments, emitArguments isFirst arguments =
      lay fun level => listed isFirst (argumentLayouts level arguments)) ∧
    ∀ contents, emitContents contents = lay fun level => contentsLayout level contents := by
  apply Name.emit.mutual_induct
  case case54 =>
    intro trivia inner ih place hplace
    exact emitCommentedAt_eq _ trivia (ih .line nofun) hplace
  all_goals intros
  -- what a node may leave out
  all_goals try cases ‹Option Expr›
  all_goals try cases ‹Option String›
  all_goals try cases ‹Option Passing›
  all_goals try cases ‹Option TypeSyntax›
  all_goals try cases ‹Option AttributeTarget›
  all_goals try cases ‹Option (List Statement)›
  all_goals try cases ‹Option Statement›
  case case25 type initializer hpresent htype hinitializer =>
    cases initializer with
    | absent => exact absurd rfl hpresent
    | present =>
      change (do write "new "; type.emit; Braces.emit _) =
        lay fun level => .text "new " :: type.layout level ++ Braces.layout level _
      rw [htype, hinitializer, write_eq, lay_bind, lay_bind]
      rfl
  -- behind `else` an `if` goes on in the same line, and one `using` in another stands at the same
  -- level
  case case64.some alternative ih _ =>
    have hother : (if alternative.isIf then do lay fun _ => [.text " "]; alternative.emit .inline
        else alternative.emit .body) =
        lay fun level => if alternative.isIf then .text " " :: alternative.layout level .inline
          else alternative.layout level .body := by
      rw [ih.2 .body nofun]
      split
      · rename_i hif
        rw [ih.1 .inline fun _ => Statement.isPlain_of_isIf hif, lay_bind]
        rfl
      · rfl
    clear ih
    simp! only [*, write_eq, writeLine_eq, writeIndent_eq, lay_bind, emitStatementAt_eq, enclosed,
      cons_append, nil_append, append_assoc, reduceCtorEq, false_imp_iff]
  case case72 body _ ih _ _ =>
    have hbody : (if body.isUsing then do
          lay fun _ => [.newline]; lay fun level => [.indent level]; body.emit .inline
        else body.emit .body) = lay fun level =>
          if body.isUsing then .newline :: body.layout level .line else body.layout level .body :=
            by
      rw [ih .body nofun]
      split
      · rename_i husing
        rw [ih .inline fun _ => Statement.isPlain_of_isUsing husing, lay_bind, lay_bind]
        simp only [Statement.layout_line_of_isUsing husing]
        rfl
      · rfl
    clear ih
    simp! only [*, write_eq, writeLine_eq, writeIndent_eq, lay_bind, emitStatementAt_eq, enclosed,
      cons_append, nil_append, append_assoc]
  all_goals simp! only [*, write_eq, writeLine_eq, writeIndent_eq, writeSpaced_eq, writeComma_eq,
    pure_eq, lay_bind, ite_lay, indented_bind, Literal.emit_eq, emitOperand_eq,
    emitParenthesizedIf_eq, emitModifiers_eq, emitAngled_eq _ (isEmpty_types _),
    emitBraced_eq _ (isEmpty_exprs _), emitBraced_eq _ (isEmpty_fields _), emitBlockOnNewLine_eq,
    emitBlockBody_eq, emitStatementAt_eq, listed, listed_first, sizesFrom, sizesFrom_first,
    enclosed, parenthesizedIf, Layout.write, Layout.block, Layout.blockBelow, cons_append,
    nil_append, append_assoc, append_nil, map_cons, map_nil,
    flatMap_cons, flatMap_nil, flatMap_append, reduceCtorEq, false_imp_iff, if_true]
  -- the steps of a `for` and the arguments of an attribute stand behind a text unless there are
  -- none
  case case65.none | case65.some => cases ‹List Expr› <;> rfl
  case case96 arguments _ _ _ _ => rcases arguments with _ | ⟨⟨⟩, _⟩ <;> rfl

/-- A statement, unless it has comments and stands in a line that is begun. -/
theorem Statement.emit_eq (statement : Statement) {place : Place}
    (h : place = .inline → statement.IsPlain) :
    statement.emit place = lay fun level => statement.layout level place :=
  emit_code.2.2.2.2.2.2.2.2.1 statement place h

/-! ## Declarations -/

/-- Attributes before a member have lines of their own. -/
@[simp] theorem emitAttributeLines_eq (lists : List AttributeList) :
    emitAttributeLines lists = lay fun level => attributeLines level lists := by
  induction lists with
  | nil => exact pure_eq
  | cons list rest ih => simp [emitAttributeLines, ih, attributeLines]

/-- What a member starts with: its attributes and modifiers. -/
@[simp] theorem emitHead_eq (attributes : List AttributeList) (modifiers : List Modifier) :
    emitHead attributes modifiers = lay fun level => memberHead level attributes modifiers := by
  simp [emitHead, memberHead]

@[simp] theorem emitParameterList_eq (before after : String) (parameters : List Parameter) :
    emitParameterList before after parameters = lay fun level => parameterList level before after
    parameters := by
  simp [emitParameterList, parameterList, enclosed]

/-- Type parameters with their variance. -/
@[simp] theorem emitTypeParameters_eq (isFirst : Bool) (parameters : List TypeParameter) :
    emitTypeParameters isFirst parameters =
      lay fun _ => listed isFirst (parameters.map TypeParameter.layout) := by
  induction parameters generalizing isFirst with
  | nil => exact pure_eq
  | cons parameter rest ih =>
    obtain ⟨variance, identifier⟩ := parameter
    cases variance <;> simp [emitTypeParameters, ih, listed, TypeParameter.layout, Layout.write]

@[simp] theorem emitTypeParameterList_eq (parameters : List TypeParameter) :
    emitTypeParameterList parameters = lay fun _ => typeParameterList parameters := by
  rw [emitTypeParameterList, emitTypeParameters_eq]
  simp only [listed_first]
  exact emitAngled_eq (fun _ => _) fun _ => by cases parameters <;> rfl

/-- Base types stand behind a colon, if there are any. -/
@[simp] theorem emitBases_eq (bases : List TypeSyntax) : emitBases bases = lay fun level =>
    match typeLayouts level bases with
    | [] => []
    | bases => .text " : " :: commaSeparated bases := by
  cases bases <;> simp [emitBases, typeLayouts]

@[simp] theorem emitConstraints_eq (isFirst : Bool) (bounds : List TypeConstraint) :
    emitConstraints isFirst bounds =
      lay fun level => listed isFirst (bounds.map (TypeConstraint.layout level)) := by
  induction bounds generalizing isFirst with
  | nil => exact pure_eq
  | cons bound rest ih => cases bound <;> simp [emitConstraints, ih, listed, TypeConstraint.layout,
    Layout.write]

/-- Constraints, each clause behind `where`. -/
@[simp] theorem emitConstraintClauses_eq (clauses : List ConstraintClause) :
    emitConstraintClauses clauses = lay fun level => constraintClauses level clauses := by
  induction clauses with
  | nil => exact pure_eq
  | cons clause rest ih => simp [emitConstraintClauses, ih, constraintClauses]

@[simp] theorem emitBody_eq (statements : List Statement) :
    emitBody statements = lay fun level => bodyBelow level statements := by
  simp [emitBody, bodyBelow]

/-- A method without a body ends with a semicolon. -/
@[simp] theorem emitBodyOrSemicolon_eq (body : Option (List Statement)) :
    emitBodyOrSemicolon body = lay fun level => bodyOrSemicolon level body := by
  cases body <;> simp [emitBodyOrSemicolon, bodyOrSemicolon, Layout.write]

/-- Accessors without bodies stand in one line. -/
theorem emitAutoAccessors_eq (accessors : List Accessor) :
    emitAutoAccessors accessors = lay fun _ => accessors.flatMap fun accessor =>
      .text " " :: modifiersLayout accessor.modifiers ++ [.text accessor.kind.keyword, .text ";"] :=
      by
  induction accessors with
  | nil => exact pure_eq
  | cons accessor rest ih => simp [emitAutoAccessors, ih]

/-- Accessors with bodies have lines of their own. -/
theorem emitAccessors_eq (accessors : List Accessor) :
    emitAccessors accessors = lay fun level =>
      (accessors.map (Accessor.layout level)).flatMap (· ++ [.newline]) := by
  induction accessors with
  | nil => exact pure_eq
  | cons accessor rest ih => simp [emitAccessors, ih, Accessor.layout]

/-- The accessors of a property or an event, in one line or in a block. -/
@[simp] theorem emitAccessorList_eq (accessors : List Accessor) :
    emitAccessorList accessors = lay fun level => accessorList level accessors := by
  simp [emitAccessorList, emitAutoAccessors_eq, emitAccessors_eq, accessorList, Layout.blockBelow,
    Layout.block]

/-- A comma follows each value of an enumeration but the last one. -/
@[simp] theorem emitEnumMembers_eq (members : List EnumMember) :
    emitEnumMembers members = lay fun level => (enumLines level members).flatMap (· ++
    [.newline]) := by
  induction members with
  | nil => exact pure_eq
  | cons member rest ih =>
    obtain ⟨_, _, value, _⟩ := member
    simp only [emitEnumMembers, ih]
    cases rest <;> cases value <;> simp [enumLines, EnumMember.layout, Layout.write]

/-- Members are kept apart by an empty line. -/
@[simp] theorem emitBlankBetween_eq (before : Option Member) (member : Member) :
    emitBlankBetween before member = lay fun _ => blankBetween before member := by
  cases before <;> simp [emitBlankBetween, blankBetween]

/-- Members inside a member stand one level deeper. -/
@[simp] theorem emitMemberBody_eq :
    emitMemberBody (lay inner) = lay fun level => .newline :: .indent level :: .text "\x7b" ::
    .newline ::
      inner (level + 1) ++ [.indent level, .text "\x7d"] := by
  simp [emitMemberBody]

/-- **Members**, at any depth. -/
theorem emit_members :
    (∀ member : Member, member.emit = lay fun level => member.layout level) ∧
    ∀ before members, emitMembers before members = lay fun level =>
    membersLayout level before members := by
  apply Member.emit.mutual_induct
  all_goals intros
  all_goals try cases ‹Option TypeSyntax›
  all_goals try cases ‹Option Expr›
  all_goals try cases ‹Option ConstructorChain›
  all_goals simp! [*, Layout.blockBelow, Layout.block, ConstructorChain.layout, enclosed]
  all_goals rfl

/-- Directives are laid out at the outermost level, so elsewhere a printer writes something else. -/
theorem emitUsings_eq (directives : List UsingDirective) :
    ∃ layout : Nat → Layout, emitUsings directives = lay layout ∧
      layout 0 = directives.flatMap UsingDirective.layout := by
  induction directives with
  | nil => exact ⟨_, pure_eq, rfl⟩
  | cons directive rest ih =>
    obtain ⟨layout, hrest, heq⟩ := ih
    obtain ⟨shortName, name⟩ := directive
    cases shortName <;> simp only [emitUsings, hrest, writeIndent_eq, write_eq, pure_eq, emit_code,
      writeLine_eq, lay_bind] <;> refine ⟨_, rfl, ?_⟩ <;>
      simp [UsingDirective.layout, heq]

/-- **Files**, from a printer at the outermost level. -/
theorem CompilationUnit.emit_eq (unit : CompilationUnit) :
    ∃ layout : Nat → Layout, unit.emit = lay layout ∧ layout 0 = unit.layout := by
  obtain ⟨layout, husings, heq⟩ := emitUsings_eq unit.usings
  simp only [CompilationUnit.emit, husings, pure_eq, writeLine_eq, ite_lay, emitAttributeLines_eq,
    emit_members.2, lay_bind]
  refine ⟨_, rfl, ?_⟩
  simp [CompilationUnit.layout, heq]

end Target

end Sharpen
