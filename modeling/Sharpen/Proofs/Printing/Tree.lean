import Sharpen.Proofs.MemberImage
import Sharpen.Proofs.Printing.Emission
import Sharpen.Proofs.Printing.Grammar

/-!
# Printed trees

Every tree is printed in the grammar of `Fits`, with any property `P` that all comments in the tree
have. Names, types and expressions stand inside a line, also where a lambda in them goes over
several lines. A statement or member starts at its place in a line, and may end with a comment.

The main results are `fits_code`, by one induction over all rules of the printer for code, and
`CompilationUnit.Carries.fits`.
-/

namespace Sharpen.Target

open Layout List

variable {P : String → Prop} {rest layout : Layout} {layouts : List Layout} {level : Nat}

/-! ## The comments of a tree -/

/-- The comments of a statement itself. -/
def Node.ownComments : Node → List String
  | .statement (.commented trivia _) => trivia.comments
  | _ => []

/-- A comment stands in a node, at any depth and also in the blocks of lambdas. -/
inductive Node.HasComment (text : String) : Node → Prop where
  | own {node : Node} (h : text ∈ node.ownComments) : HasComment text node
  | inside {node part : Node} (hpart : part ∈ node.parts) (h : HasComment text part) :
      HasComment text node

/-- All comments in a node have a property. -/
def Node.Carries (P : String → Prop) (node : Node) : Prop :=
  ∀ text, node.HasComment text → P text

/-- All comments in some nodes have a property. -/
def CarryAll (P : String → Prop) (nodes : List Node) : Prop :=
  ∀ node ∈ nodes, node.Carries P

@[simp] theorem carryAll_nil : CarryAll P [] :=
  forall_mem_nil _

@[simp] theorem carryAll_cons {node : Node} {nodes : List Node} :
    CarryAll P (node :: nodes) ↔ node.Carries P ∧ CarryAll P nodes :=
  forall_mem_cons

/-- Nodes, and other nodes behind them. -/
@[simp] theorem carryAll_append {nodes others : List Node} :
    CarryAll P (nodes ++ others) ↔ CarryAll P nodes ∧ CarryAll P others :=
  forall_mem_append

namespace Node.Carries

variable {node : Node}

/-- Comments are those of a node itself and those of its parts. -/
theorem intro (hown : ∀ text ∈ node.ownComments, P text) (hparts : CarryAll P node.parts) :
    node.Carries P := by
  intro text h
  cases h with
  | own h => exact hown text h
  | inside hpart h => exact hparts _ hpart text h

theorem own (h : node.Carries P) : ∀ text ∈ node.ownComments, P text :=
  fun text htext => h text (.own htext)

theorem parts (h : node.Carries P) : CarryAll P node.parts :=
  fun _ hpart text htext => h text (.inside hpart htext)

end Node.Carries

/-! ## Pieces of code -/

@[simp] theorem fits_modifiers (modifiers : List Modifier) :
    Fits P .middle (modifiersLayout modifiers ++ rest) ↔ Fits P .middle rest := by
  induction modifiers with
  | nil => rfl
  | cons modifier others ih => simpa [modifiersLayout] using ih

/-- An operand, with or without parentheses. -/
@[simp] theorem fits_operand {least : Nat} {expr : Expr} (h : Inline P layout) :
    Fits P .middle (operand least expr layout ++ rest) ↔ Fits P .middle rest := by
  simp [operand, enclosed, h]

@[simp] theorem fits_parenthesizedIf {needed : Bool} (h : Inline P layout) :
    Fits P .middle (parenthesizedIf needed layout ++ rest) ↔ Fits P .middle rest := by
  simp [parenthesizedIf, enclosed, h]

/-- Types in angle brackets, if there are any. -/
@[simp] theorem fits_angleBrackets (h : InlineAll P layouts) :
    Fits P .middle (angleBrackets layouts ++ rest) ↔ Fits P .middle rest := by
  unfold angleBrackets
  split
  · rfl
  · simp [enclosed, commaSeparated, h]

/-- Items in braces. -/
@[simp] theorem fits_braces (h : InlineAll P layouts) :
    Fits P .middle (bracesLayout layouts ++ rest) ↔ Fits P .middle rest := by
  unfold bracesLayout
  split
  · simp [write]
  · simp [enclosed, commaSeparated, h]

/-- A literal is one piece of a line. -/
@[simp] theorem fits_literal (value : Literal) :
    Fits P .middle (value.layout ++ rest) ↔ Fits P .middle rest := by
  cases value with
  | bool value => cases value <;> simp [Literal.layout, write]
  | _ => simp [Literal.layout, write]

/-- Attribute lists in a line, each before a blank. -/
@[simp] theorem fits_attributeLists (h : InlineAll P layouts) :
    Fits P .middle (layouts.flatMap (· ++ [.text " "]) ++ rest) ↔ Fits P .middle rest := by
  induction layouts with
  | nil => rfl
  | cons => simp_all

/-- The sizes of a rank, some of them left out. -/
@[simp] theorem fits_sizes {sizes : List (Option Layout)} (h : InlineSome P sizes) :
    Fits P .middle (sizesLayout sizes ++ rest) ↔ Fits P .middle rest := by
  cases sizes with
  | nil => rfl
  | cons first others =>
    have hfirst : Inline P (first.getD []) := by
      cases first with
      | none => exact fun _ => Iff.rfl
      | some size => exact h size mem_cons_self
    have hothers : InlineSome P others := fun size hsize => h size (mem_cons_of_mem _ hsize)
    rw [sizesLayout, append_assoc, hfirst]
    clear h
    induction others with
    | nil => rfl
    | cons size others ih => cases size <;> simp_all

/-! ## Statements -/

/-- Where a statement starts in its line. -/
def Place.spot : Place → Spot
  | .line => .start
  | .body | .inline => .middle

/-- What leads to a statement at a place. -/
@[simp] theorem Place.fits_lead (place : Place) :
    Fits P place.spot (place.lead ++ (place.indentation level ++ rest)) ↔ Fits P .middle rest := by
  cases place <;> simp [Place.lead, Place.indentation, Place.spot]

/-- A statement is printed in the grammar at all its places. Only an `if` goes on in a line. -/
def Statement.Fitting (P : String → Prop) (statement : Statement) : Prop :=
  ∀ level place, (place = .inline → statement.isIf) → ∀ rest, Closes rest →
    (Layout.Fits P place.spot (statement.layout level place ++ rest) ↔ Layout.Fits P .remark rest)

section Statements

variable {statement : Statement} (h : statement.Fitting P)
include h

/-- A statement on a line of its own. -/
@[simp] theorem line_statement : Line P (statement.layout level .line) :=
  h level .line nofun

@[simp] theorem fits_statement (hrest : Closes rest) :
    Fits P .start (statement.layout level .line ++ rest) ↔ Fits P .remark rest :=
  h level .line nofun rest hrest

/-- The body of another statement, in its line or below. -/
@[simp] theorem fits_body (hrest : Closes rest) :
    Fits P .middle (statement.layout level .body ++ rest) ↔ Fits P .remark rest :=
  h level .body nofun rest hrest

@[simp] theorem fits_body_newline :
    Fits P .middle (statement.layout level .body ++ .newline :: rest) ↔ Fits P .start rest := by
  rw [fits_body h closes_newline, fits_newline_remark]

/-- An `if` behind `else`. -/
@[simp] theorem fits_else (hif : statement.isIf) (hrest : Closes rest) :
    Fits P .middle (statement.layout level .inline ++ rest) ↔ Fits P .remark rest :=
  h level .inline (fun _ => hif) rest hrest

end Statements

/-- Comments around a statement. -/
theorem Statement.Fitting.commented {trivia : Trivia} {inner : Statement} (h : inner.Fitting P)
    (hcomments : ∀ text ∈ trivia.comments, P text) :
    (Statement.commented trivia inner).Fitting P := by
  obtain ⟨hleading, htrailing⟩ := forall_mem_append.mp hcomments
  intro level place hplace rest hrest
  cases place with
  | inline => cases hplace rfl
  | line | body =>
    simp! [h, hrest, fits_commentLines hleading, fits_endComment htrailing, Place.lead, Place.spot]

/-- The labels of a section, each on a line. -/
theorem lines_labels {label : Option Layout → Layout} {values : List (Option Layout)}
    (hvalue : ∀ value, Inline P value → Line P (label (some value)))
    (hnone : Line P (label none)) (h : InlineSome P values) : Lines P (values.map label) := by
  refine forall_mem_map.mpr fun value hmem => ?_
  cases value with
  | none => exact hnone
  | some value => exact hvalue value (h value hmem)

/-- **Code is printed in the grammar.** The induction is over the rules of the printer. -/
theorem fits_code :
    (∀ name : Name, (Node.name name).Carries P → ∀ level, Inline P (name.layout level)) ∧
    (∀ (_ : Bool) types, CarryAll P (types.map .type) → ∀ level,
      InlineAll P (typeLayouts level types)) ∧
    (∀ type : TypeSyntax, (Node.type type).Carries P → ∀ level, Inline P (type.layout level)) ∧
    (∀ ranks, CarryAll P (ranks.flatten.flatMap fun size => size.toList.map .expr) → ∀ level,
      Inline P (rankLayouts level ranks)) ∧
    (∀ (_ : Bool) sizes, CarryAll P (sizes.flatMap fun size => size.toList.map .expr) → ∀ level,
      InlineSome P (optionLayouts level sizes)) ∧
    (∀ expr : Expr, (Node.expr expr).Carries P → ∀ level, Inline P (expr.layout level)) ∧
    (∀ body : LambdaBody, CarryAll P body.parts → ∀ level, Inline P (body.layout level)) ∧
    (∀ statements, CarryAll P (statements.map .statement) → ∀ level,
      Lines P (statementLayouts level statements)) ∧
    (∀ statement : Statement, (Node.statement statement).Carries P → statement.Fitting P) ∧
    (∀ catches : List CatchClause,
      CarryAll P (catches.flatMap fun clause => clause.header.parts ++
        clause.filter.toList.map .expr) →
      CarryAll P (catches.flatMap (·.body.map .statement)) → ∀ level,
      Inline P (catchesLayout level catches)) ∧
    (∀ header : CatchHeader, CarryAll P header.parts → ∀ level, Inline P (header.layout level)) ∧
    (∀ sections : List SwitchSection,
      CarryAll P (sections.flatMap fun part =>
        part.labels.flatMap fun label => label.toList.map .expr) →
      CarryAll P (sections.flatMap (·.statements.map .statement)) → ∀ level,
      Lines P (sectionLines level sections)) ∧
    (∀ labels, CarryAll P (labels.flatMap fun label => label.toList.map .expr) → ∀ level,
      InlineSome P (optionLayouts level labels)) ∧
    (∀ (_ : Bool) exprs, CarryAll P (exprs.map .expr) → ∀ level,
      InlineAll P (exprLayouts level exprs)) ∧
    (∀ opening : Opening, CarryAll P opening.parts → ∀ level, Inline P (opening.layout level)) ∧
    (∀ group : Variables, CarryAll P group.parts → ∀ level, Inline P (group.layout level)) ∧
    (∀ (_ : Bool) (declarators : List Declarator),
      CarryAll P (declarators.flatMap (·.initializer.toList.map .expr)) → ∀ level,
      InlineAll P (declaratorLayouts level declarators)) ∧
    (∀ parameters : LambdaParameters, CarryAll P parameters.parts → ∀ level,
      Inline P (parameters.layout level)) ∧
    (∀ (_ : Bool) parameters, CarryAll P (parameters.flatMap Parameter.parts) → ∀ level,
      InlineAll P (parameterLayouts level parameters)) ∧
    (∀ lists, CarryAll P (attributeParts lists) → ∀ level,
      InlineAll P (attributeListLayouts level lists)) ∧
    (∀ list : AttributeList, CarryAll P (attributeParts [list]) → ∀ level,
      Inline P (list.layout level)) ∧
    (∀ (_ : Bool) attributes, CarryAll P (attributeParts [⟨none, attributes⟩]) → ∀ level,
      InlineAll P (attributeLayouts level attributes)) ∧
    (∀ (_ : Bool) (arguments : List AttributeArgument),
      CarryAll P (arguments.map (.expr ·.value)) → ∀ level,
      InlineAll P (attributeArgumentLayouts level arguments)) ∧
    (∀ (_ : Bool) (fields : List FieldValue), CarryAll P (fields.map (.expr ·.value)) → ∀ level,
      InlineAll P (fieldLayouts level fields)) ∧
    (∀ braces : Braces, CarryAll P braces.parts → ∀ level, Inline P (braces.layout level)) ∧
    (∀ (_ : Bool) (arguments : List Argument), CarryAll P (arguments.map (.expr ·.value)) →
      ∀ level, InlineAll P (argumentLayouts level arguments)) ∧
    ∀ contents, CarryAll P (contents.flatMap Content.parts) → ∀ level,
      Inline P (contentsLayout level contents) := by
  apply Name.emit.mutual_induct
  all_goals intros
  case case54 ih hcarries =>
    exact (ih (hcarries.parts _ (mem_singleton_self _))).commented hcarries.own
  case case25 type initializer hpresent ihType ihBraces hcarries level =>
    have heq : (Expr.objectCreation type none initializer).layout level =
        .text "new " :: type.layout level ++ initializer.layout level := by
      cases initializer with
      | absent => contradiction
      | present => rfl
    have hparts := hcarries.parts
    simp [Node.parts, Expr.parts] at hparts
    intro rest
    simp [*]
  case case65 opening condition incrementors body ihOpening ihCondition ihSteps ihBody hcarries =>
    intro level place hplace rest hrest
    have hparts := hcarries.parts
    simp [Node.parts, Statement.terms, Statement.statements] at hparts
    have hsteps := ihSteps hparts.2.2.1 (place.levelOf false level)
    have hbehind := hrest.fits_middle (P := P)
    cases condition <;> simp at hparts <;> simp! [*, enclosed] <;> split <;>
      simp_all [commaSeparated]
  case case96 name arguments others ihName ihArguments ihOthers hparts level =>
    simp [attributeParts] at hparts
    have harguments := ihArguments hparts.2.1 level
    refine inlineAll_cons.mpr ⟨fun rest => ?_, ihOthers (by simp [attributeParts, *]) level⟩
    simp [*]
    split <;> simp_all [enclosed, commaSeparated]
  case case102 labels statements others ihLabels ihStatements ihOthers hterms hbodies level =>
    simp at hterms hbodies
    have hlabels := ihLabels hterms.1 level
    refine lines_append.mpr ⟨lines_append.mpr ⟨?_, ihStatements hbodies.1 _⟩,
      ihOthers hterms.2 hbodies.2 level⟩
    refine lines_labels (fun value hvalue rest hrest => ?_) (fun rest hrest => ?_) hlabels
    · simp [hvalue, hrest.fits_middle]
    · simp [hrest.fits_middle]
  all_goals try have hparts := Node.Carries.parts ‹Node.Carries P _›
  all_goals try cases ‹Option Expr›
  all_goals try cases ‹Option String›
  all_goals try cases ‹Option Passing›
  all_goals try cases ‹Option TypeSyntax›
  all_goals try cases ‹Option AttributeTarget›
  all_goals try cases ‹Option (List Statement)›
  all_goals try cases ‹Option Statement›
  all_goals try refine inlineAll_cons.mpr ⟨fun rest => ?_, ?_⟩
  all_goals try refine (fun rest => ?_ : Inline P _)
  all_goals try refine (fun level place hplace rest hclosing => ?_ : Statement.Fitting P _)
  all_goals try have hrest := Closes.fits_middle (P := P) ‹_›
  all_goals try simp! [attributeParts, Variables.parts, Parameter.parts, map_flatMap] at *
  all_goals try simp! +contextual [*, enclosed, write, commaSeparated]

/-! ## Members -/

/-- A comment stands in a member, at any depth. -/
inductive Member.HasComment (text : String) : Member → Prop where
  | own {member : Member} (h : text ∈ member.ownComments) : HasComment text member
  | term {member : Member} {node : Node} (hnode : node ∈ member.terms)
      (h : node.HasComment text) : HasComment text member
  | body {member : Member} {body : List Statement} {statement : Statement}
      (hbody : body ∈ member.bodies) (hstatement : statement ∈ body)
      (h : (Node.statement statement).HasComment text) : HasComment text member
  | inside {member part : Member} (hpart : part ∈ member.members) (h : HasComment text part) :
      HasComment text member

/-- All comments in a member have a property. -/
def Member.Carries (P : String → Prop) (member : Member) : Prop :=
  ∀ text, member.HasComment text → P text

/-- Comments are those of a member itself and those of its parts. -/
theorem Member.Carries.intro {member : Member} (hown : ∀ text ∈ member.ownComments, P text)
    (hterms : CarryAll P member.terms)
    (hbodies : ∀ body ∈ member.bodies, ∀ statement ∈ body, (Node.statement statement).Carries P)
    (hmembers : ∀ part ∈ member.members, part.Carries P) : member.Carries P := by
  intro text h
  cases h with
  | own h => exact hown text h
  | term hnode h => exact hterms _ hnode text h
  | body hbody hstatement h => exact hbodies _ hbody _ hstatement text h
  | inside hpart h => exact hmembers _ hpart text h

namespace Member.Carries

variable {member : Member} (h : member.Carries P)
include h

theorem own : ∀ text ∈ member.ownComments, P text :=
  fun text htext => h text (.own htext)

theorem terms : CarryAll P member.terms :=
  fun _ hnode text htext => h text (.term hnode htext)

theorem bodies : ∀ body ∈ member.bodies, ∀ statement ∈ body, (Node.statement statement).Carries P :=
  fun _ hbody _ hstatement text htext => h text (.body hbody hstatement htext)

theorem members : ∀ part ∈ member.members, part.Carries P :=
  fun _ hpart text htext => h text (.inside hpart htext)

end Member.Carries

section Members

/-- A name stands inside a line. -/
@[simp] theorem Name.inline {name : Name} (h : (Node.name name).Carries P) :
    Inline P (name.layout level) :=
  fits_code.1 name h level

/-- A type stands inside a line. -/
@[simp] theorem TypeSyntax.inline {type : TypeSyntax} (h : (Node.type type).Carries P) :
    Inline P (type.layout level) :=
  fits_code.2.2.1 type h level

/-- An expression stands inside a line. -/
@[simp] theorem Expr.inline {expr : Expr} (h : (Node.expr expr).Carries P) :
    Inline P (expr.layout level) :=
  fits_code.2.2.2.2.2.1 expr h level

/-- A statement starts a line. -/
theorem Statement.line {statement : Statement} (h : (Node.statement statement).Carries P)
    (level : Nat) : Line P (statement.layout level .line) :=
  line_statement (fits_code.2.2.2.2.2.2.2.2.1 statement h)

/-- Declared variables stand inside a line. -/
@[simp] theorem Variables.inline {group : Variables} (h : CarryAll P group.parts) :
    Inline P (group.layout level) := by
  obtain ⟨-, -, -, -, -, -, -, -, -, -, -, -, -, -, -, hgroup, -⟩ := fits_code (P := P)
  exact hgroup group h level

/-- Each type of a list stands inside a line. -/
@[simp] theorem inlineAll_types {types : List TypeSyntax} (h : CarryAll P (types.map .type)) :
    InlineAll P (typeLayouts level types) :=
  fits_code.2.1 false types h level

/-- Each argument of a list stands inside a line. -/
@[simp] theorem inlineAll_arguments {arguments : List Argument}
    (h : CarryAll P (arguments.map (.expr ·.value))) :
    InlineAll P (argumentLayouts level arguments) := by
  obtain ⟨-, -, -, -, -, -, -, -, -, -, -, -, -, -, -, -, -, -, -, -, -, -, -, -, -, hall, -⟩ :=
    fits_code (P := P)
  exact hall false arguments h level

/-- Attribute lists, each on a line. -/
@[simp] theorem fits_attributeLines {lists : List AttributeList}
    (h : CarryAll P (attributeParts lists)) :
    Fits P .start (attributeLines level lists ++ rest) ↔ Fits P .start rest := by
  obtain ⟨-, -, -, -, -, -, -, -, -, -, -, -, -, -, -, -, -, -, -, -, hlist, -⟩ :=
    fits_code (P := P)
  induction lists with
  | nil => rfl
  | cons list others ih =>
    obtain ⟨hhere, hothers⟩ := carryAll_append.mp h
    have hinline : Inline P (list.layout level) :=
      hlist list (by simpa [attributeParts] using hhere) level
    simpa [attributeLines, hinline] using ih hothers

/-- Attributes and modifiers lead into the line of a member. -/
@[simp] theorem fits_memberHead {attributes : List AttributeList} {modifiers : List Modifier}
    (h : CarryAll P (attributeParts attributes)) :
    Fits P .start (memberHead level attributes modifiers ++ rest) ↔ Fits P .middle rest := by
  simp [memberHead, h]

/-- Parameters in their brackets. -/
@[simp] theorem fits_parameterList {opening closing : String} {parameters : List Parameter}
    (h : CarryAll P (parameters.flatMap Parameter.parts)) :
    Fits P .middle (parameterList level opening closing parameters ++ rest) ↔
      Fits P .middle rest := by
  obtain ⟨-, -, -, -, -, -, -, -, -, -, -, -, -, -, -, -, -, -, hall, -⟩ := fits_code (P := P)
  simp [parameterList, enclosed, commaSeparated, hall false parameters h level]

/-- Type parameters in their brackets. -/
@[simp] theorem fits_typeParameterList (parameters : List TypeParameter) :
    Fits P .middle (typeParameterList parameters ++ rest) ↔ Fits P .middle rest := by
  refine fits_angleBrackets (forall_mem_map.mpr fun parameter _ rest => ?_)
  unfold TypeParameter.layout
  split <;> simp [write]

/-- The clauses behind `where`. -/
@[simp] theorem fits_constraintClauses {clauses : List ConstraintClause}
    (h : CarryAll P (constraintParts clauses)) :
    Fits P .middle (constraintClauses level clauses ++ rest) ↔ Fits P .middle rest := by
  have hbounds {bounds : List TypeConstraint}
      (h : CarryAll P (bounds.flatMap TypeConstraint.parts)) :
      InlineAll P (bounds.map (TypeConstraint.layout level)) := by
    refine forall_mem_map.mpr fun bound hbound rest => ?_
    cases bound with
    | type bound =>
      have hbound := h (.type bound) (mem_flatMap.mpr ⟨_, hbound, mem_singleton_self _⟩)
      simp [TypeConstraint.layout, hbound]
    | _ => simp [TypeConstraint.layout, write]
  induction clauses with
  | nil => rfl
  | cons clause others ih =>
    obtain ⟨hhere, hothers⟩ := carryAll_append.mp h
    simpa [constraintClauses, commaSeparated, hbounds hhere] using ih hothers

/-- A body on the lines below a member. -/
theorem fits_bodyBelow {statements : List Statement}
    (h : ∀ statement ∈ statements, (Node.statement statement).Carries P) :
    Fits P .middle (bodyBelow level statements ++ rest) ↔ Fits P .middle rest := by
  obtain ⟨-, -, -, -, -, -, -, hall, -⟩ := fits_code (P := P)
  exact fits_blockBelow (hall statements (forall_mem_map.mpr h) _)

/-- The body of a method, or the semicolon in its place. -/
theorem fits_bodyOrSemicolon {body : Option (List Statement)}
    (h : ∀ statements ∈ body.toList, ∀ statement ∈ statements, (Node.statement statement).Carries P) :
    Fits P .middle (bodyOrSemicolon level body ++ rest) ↔ Fits P .middle rest := by
  cases body with
  | none => simp [bodyOrSemicolon, write]
  | some statements => exact fits_bodyBelow (h statements (mem_singleton_self _))

/-- Accessors, in the line of their member or below. -/
theorem fits_accessorList {accessors : List Accessor}
    (hterms : CarryAll P (accessorParts accessors))
    (hbodies : ∀ body ∈ accessors.flatMap (·.body.toList), ∀ statement ∈ body,
      (Node.statement statement).Carries P) :
    Fits P .middle (accessorList level accessors ++ rest) ↔ Fits P .middle rest := by
  unfold accessorList
  split
  · clear hterms hbodies
    simp only [cons_append, append_assoc, fits_text]
    induction accessors with
    | nil => simp
    | cons accessor others ih => simp_all
  · refine fits_blockBelow (forall_mem_map.mpr fun accessor haccessor rest hrest => ?_)
    have hattributes : CarryAll P (attributeParts accessor.attributes) :=
      fun part hpart => hterms part (mem_flatMap.mpr ⟨accessor, haccessor, hpart⟩)
    have hbody := fun body hbody => hbodies body (mem_flatMap.mpr ⟨accessor, haccessor, hbody⟩)
    simp [Accessor.layout, hattributes, fits_bodyOrSemicolon hbody, hrest.fits_middle]

/-- Each value of an enumeration has a line, with its comments. -/
theorem lines_enum {members : List EnumMember}
    (hown : ∀ text ∈ members.flatMap (·.trivia.comments), P text)
    (hterms : CarryAll P (members.flatMap EnumMember.parts)) :
    Lines P (enumLines level members) := by
  have hline (member : EnumMember) (isLast : Bool) (hown : ∀ text ∈ member.trivia.comments, P text)
      (hterms : CarryAll P member.parts) : Line P (member.layout level isLast) := by
    obtain ⟨hleading, htrailing⟩ := forall_mem_append.mp hown
    obtain ⟨hattributes, hvalue⟩ := carryAll_append.mp hterms
    intro rest hrest
    have hend := (closes_endComment hrest member.trivia.trailing).fits_middle (P := P)
    obtain ⟨attributes, identifier, value, trivia⟩ := member
    cases value <;>
      simp_all [EnumMember.layout, fits_commentLines hleading, fits_endComment htrailing, write]
  fun_induction enumLines level members with
  | case1 => simp
  | case2 last => simp_all
  | case3 member others _ ih => simp_all [-mem_flatMap]

/-- **Members are printed in the grammar**, each on lines of its own. -/
theorem fits_members :
    (∀ member : Member, member.Carries P → ∀ level, Line P (member.layout level)) ∧
    ∀ before members, (∀ member ∈ members, member.Carries P) → ∀ level rest,
      (Fits P .start (membersLayout level before members ++ rest) ↔ Fits P .start rest) := by
  apply Member.emit.mutual_induct
  case case16 => exact fun _ _ _ _ => Iff.rfl
  case case17 =>
    intro before member others ih ihOthers hcarries level rest
    obtain ⟨hmember, hothers⟩ := forall_mem_cons.mp hcarries
    have hblank (rest : Layout) :
        Fits P .start (blankBetween before member ++ rest) ↔ Fits P .start rest := by
      unfold blankBetween
      split
      · split <;> simp
      · rfl
    simp [membersLayout, hblank, (ih hmember level).fits, ihOthers hothers]
  case case1 =>
    intro trivia inner ih hcarries level rest hrest
    have hown := hcarries.own
    obtain ⟨hleading, htrailing⟩ := forall_mem_append.mp hown
    have hinner := ih (hcarries.members inner (mem_singleton_self _)) level _
      (closes_endComment hrest trivia.trailing)
    simp [Member.layout, fits_commentLines hleading, hinner, fits_endComment htrailing]
  all_goals intros
  all_goals have hterms := Member.Carries.terms ‹Member.Carries P _›
  all_goals have hbodies := Member.Carries.bodies ‹Member.Carries P _›
  all_goals refine fun rest hrest => ?_
  all_goals have hbehind := hrest.fits_middle (P := P)
  case case2 ih hcarries level =>
    have hmembers (rest : Layout) := ih hcarries.members (level + 1) rest
    simp_all [Member.terms, Member.layout]
  case case3 bases _ _ ih hcarries level =>
    have hmembers (rest : Layout) := ih hcarries.members (level + 1) rest
    simp [Member.terms] at hterms
    have hbases : InlineAll P (typeLayouts level bases) := inlineAll_types hterms.2.1
    simp only [Member.layout]
    split <;> simp_all [commaSeparated]
  case case4 base values hcarries level =>
    simp [Member.terms] at hterms
    have hvalues : Lines P (enumLines (level + 1) values) := lines_enum hcarries.own hterms.2.2
    cases base <;> simp_all [Member.layout]
  case case5 | case6 | case7 => simp_all [Member.terms, Member.layout]
  case case8 | case10 => simp_all [Member.terms, Member.layout, fits_accessorList _ hbodies]
  case case9 initializer _ _ =>
    cases initializer <;> simp_all [Member.terms, Member.layout, fits_accessorList _ hbodies]
  case case11 => simp_all [Member.terms, Member.layout, fits_bodyOrSemicolon hbodies]
  -- the others have exactly one body
  all_goals have hbody := hbodies _ (mem_singleton_self _)
  case case12 chain _ _ _ =>
    cases chain <;> simp_all [Member.terms, Member.layout, fits_bodyBelow hbody,
      ConstructorChain.layout, ConstructorChain.parts, enclosed, commaSeparated]
  all_goals simp_all [Member.terms, Member.layout, fits_bodyBelow hbody]

end Members

/-! ## Files -/

/-- All comments in a file have a property. -/
structure CompilationUnit.Carries (P : String → Prop) (unit : CompilationUnit) : Prop where
  usings : ∀ directive ∈ unit.usings, (Node.name directive.name).Carries P
  attributes : ∀ node ∈ attributeParts unit.attributes, node.Carries P
  members : ∀ member ∈ unit.members, member.Carries P

/-- A file is printed in the grammar. -/
theorem CompilationUnit.Carries.fits {unit : CompilationUnit} (h : unit.Carries P) :
    Fits P .start unit.layout := by
  have hmembers : Fits P .start (membersLayout 0 none unit.members) := by
    rw [← append_nil (membersLayout ..), fits_members.2 none unit.members h.members]
    exact .inl rfl
  have husings (rest : Layout) :
      Fits P .start (unit.usings.flatMap UsingDirective.layout ++ rest) ↔ Fits P .start rest := by
    have hnames := h.usings
    generalize unit.usings = usings at hnames
    induction usings with
    | nil => rfl
    | cons directive others ih =>
      obtain ⟨hname, hothers⟩ := forall_mem_cons.mp hnames
      obtain ⟨shortName, name⟩ := directive
      cases shortName <;> simp_all [UsingDirective.layout]
  simp [CompilationUnit.layout, husings, fits_attributeLines h.attributes, hmembers]

end Sharpen.Target
