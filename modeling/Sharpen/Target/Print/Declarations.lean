import Sharpen.Target.Member
import Sharpen.Target.Print.Code

/-!
# Printed declarations

The layout of members and whole files: attributes on lines of their own, braces on lines of their
own, and a blank line between two members unless both fit on one line.
-/

namespace Sharpen.Target

open Layout (write enclosed commaSeparated blockBelow)

/-- Attribute lists on lines of their own. -/
def attributeLines (level : Nat) (lists : List AttributeList) : Layout :=
  lists.flatMap fun list => .indent level :: list.layout level ++ [.newline]

/-- What every member starts with: attributes, indentation and modifiers. -/
def memberHead (level : Nat) (attributes : List AttributeList) (modifiers : List Modifier) :
    Layout :=
  attributeLines level attributes ++ .indent level :: modifiersLayout modifiers

/-- A parameter list between two texts. -/
def parameterList (level : Nat) (before after : String) (parameters : List Parameter) : Layout :=
  enclosed before after (commaSeparated (parameterLayouts level parameters))

def TypeParameter.layout (parameter : TypeParameter) : Layout :=
  match parameter.variance with
  | some variance => [.text variance.keyword, .text " ", .text parameter.identifier]
  | none => write parameter.identifier

/-- Type parameters between angle brackets, when there are any. -/
def typeParameterList (parameters : List TypeParameter) : Layout :=
  angleBrackets (parameters.map TypeParameter.layout)

def TypeConstraint.layout (level : Nat) : TypeConstraint → Layout
  | .class => write "class"
  | .struct => write "struct"
  | .constructor => write "new()"
  | .type bound => bound.layout level

/-- The constraints on type parameters. -/
def constraintClauses (level : Nat) (clauses : List ConstraintClause) : Layout :=
  clauses.flatMap fun clause =>
    .text " where " :: .text clause.typeParameter :: .text " : " ::
      commaSeparated (clause.constraints.map (TypeConstraint.layout level))

/-- The body of a member on the lines below it. -/
def bodyBelow (level : Nat) (statements : List Statement) : Layout :=
  blockBelow level (statementLayouts (level + 1) statements)

/-- A body, or the semicolon that stands for none. -/
def bodyOrSemicolon (level : Nat) : Option (List Statement) → Layout
  | some statements => bodyBelow level statements
  | none => write ";"

/-- The line of an accessor with its body. -/
def Accessor.layout (level : Nat) (accessor : Accessor) : Layout :=
  memberHead level accessor.attributes accessor.modifiers ++ .text accessor.kind.keyword ::
    bodyOrSemicolon level accessor.body

/-- Accessors on one line when each is filled in by the compiler and has no attributes, otherwise
one after the other below. -/
def accessorList (level : Nat) (accessors : List Accessor) : Layout :=
  if accessors.all fun accessor => accessor.body.isNone && accessor.attributes.isEmpty then
    .text " \x7b" ::
      accessors.flatMap (fun accessor =>
        .text " " :: modifiersLayout accessor.modifiers ++
          [.text accessor.kind.keyword, .text ";"]) ++
      [.text " \x7d"]
  else blockBelow level (accessors.map (Accessor.layout (level + 1)))

/-- The lines of one value of an enumeration; every value but the last is followed by a comma. -/
def EnumMember.layout (level : Nat) (isLast : Bool) (member : EnumMember) : Layout :=
  Layout.commentLines level member.trivia.leading ++ attributeLines level member.attributes ++
    .indent level :: .text member.identifier ::
    (match member.value with
      | some value => .text " = " :: value.layout level
      | none => []) ++
    (if isLast then [] else write ",") ++ Layout.endComment member.trivia.trailing

/-- The lines of the values of an enumeration. -/
def enumLines (level : Nat) : List EnumMember → List Layout
  | [] => []
  | [last] => [last.layout level true]
  | member :: rest => member.layout level false :: enumLines level rest

def ConstructorChain.layout (level : Nat) (chain : ConstructorChain) : Layout :=
  enclosed (" : " ++ chain.kind.keyword ++ "(") ")"
    (commaSeparated (argumentLayouts level chain.arguments))

/-- A blank line between two members unless both fit on one line. -/
def blankBetween (before : Option Member) (member : Member) : Layout :=
  match before with
  | some previous => if previous.isSingleLine && member.isSingleLine then [] else [.newline]
  | none => []

mutual

/-- The layout of a member, up to the end of its last line. -/
def Member.layout (level : Nat) : Member → Layout
  | .commented trivia inner =>
    Layout.commentLines level trivia.leading ++ inner.layout level ++
      Layout.endComment trivia.trailing
  | .namespace name members =>
    .indent level :: .text "namespace " :: name.layout level ++
      .newline :: .indent level :: .text "\x7b" :: .newline ::
      membersLayout (level + 1) none members ++ [.indent level, .text "\x7d"]
  | .type keyword attributes modifiers identifier typeParameters bases constraints members =>
    memberHead level attributes modifiers ++ .text keyword.keyword :: .text " " ::
      .text identifier :: typeParameterList typeParameters ++
      (match typeLayouts level bases with
        | [] => []
        | bases => .text " : " :: commaSeparated bases) ++
      constraintClauses level constraints ++
      .newline :: .indent level :: .text "\x7b" :: .newline ::
      membersLayout (level + 1) none members ++ [.indent level, .text "\x7d"]
  | .enum attributes modifiers identifier base values =>
    memberHead level attributes modifiers ++ .text "enum " :: .text identifier ::
      (match base with
        | some base => .text " : " :: base.layout level
        | none => []) ++
      blockBelow level (enumLines (level + 1) values)
  | .delegate attributes modifiers returnType identifier typeParameters parameters constraints =>
    memberHead level attributes modifiers ++ .text "delegate " :: returnType.layout level ++
      .text " " :: .text identifier :: typeParameterList typeParameters ++
      parameterList level "(" ")" parameters ++ constraintClauses level constraints ++ [.text ";"]
  | .field attributes modifiers declared =>
    memberHead level attributes modifiers ++ declared.layout level ++ [.text ";"]
  | .eventField attributes modifiers declared =>
    memberHead level attributes modifiers ++ .text "event " :: declared.layout level ++ [.text ";"]
  | .event attributes modifiers valueType identifier accessors =>
    memberHead level attributes modifiers ++ .text "event " :: valueType.layout level ++
      .text " " :: .text identifier :: accessorList level accessors
  | .property attributes modifiers valueType identifier accessors initializer =>
    memberHead level attributes modifiers ++ valueType.layout level ++
      .text " " :: .text identifier :: accessorList level accessors ++
      (match initializer with
        | some value => .text " = " :: value.layout level ++ [.text ";"]
        | none => [])
  | .indexer attributes modifiers valueType parameters accessors =>
    memberHead level attributes modifiers ++ valueType.layout level ++ .text " this" ::
      parameterList level "[" "]" parameters ++ accessorList level accessors
  | .method attributes modifiers returnType identifier typeParameters parameters constraints body =>
    memberHead level attributes modifiers ++ returnType.layout level ++
      .text " " :: .text identifier :: typeParameterList typeParameters ++
      parameterList level "(" ")" parameters ++ constraintClauses level constraints ++
      bodyOrSemicolon level body
  | .constructor attributes modifiers identifier parameters chain body =>
    memberHead level attributes modifiers ++ .text identifier ::
      parameterList level "(" ")" parameters ++
      (match chain with
        | some chain => chain.layout level
        | none => []) ++
      bodyBelow level body
  | .destructor attributes identifier body =>
    memberHead level attributes [] ++ .text "~" :: .text identifier :: .text "()" ::
      bodyBelow level body
  | .operator attributes modifiers returnType token parameters body =>
    memberHead level attributes modifiers ++ returnType.layout level ++ .text " operator " ::
      .text token.token :: parameterList level "(" ")" parameters ++ bodyBelow level body
  | .conversion attributes modifiers valueType parameters body =>
    memberHead level attributes modifiers ++ .text "operator " :: valueType.layout level ++
      parameterList level "(" ")" parameters ++ bodyBelow level body

/-- Members on lines of their own, each followed by a line end; `before` is the member above them.
-/
def membersLayout (level : Nat) (before : Option Member) : List Member → Layout
  | [] => []
  | member :: rest =>
    blankBetween before member ++ member.layout level ++ .newline ::
      membersLayout level (some member) rest

end

/-- The line of a `using` directive. -/
def UsingDirective.layout (directive : UsingDirective) : Layout :=
  .indent 0 :: .text "using " ::
    (match directive.shortName with
      | some shortName => [.text shortName, .text " = "]
      | none => []) ++
    directive.name.layout 0 ++ [.text ";", .newline]

namespace CompilationUnit

/-- The layout of a file: directives, attributes and members, with a blank line between two of these
that are not empty. -/
def layout (unit : CompilationUnit) : Layout :=
  unit.usings.flatMap UsingDirective.layout ++
    (if unit.usings.isEmpty || (unit.attributes.isEmpty && unit.members.isEmpty) then []
      else [.newline]) ++
    attributeLines 0 unit.attributes ++
    (if unit.attributes.isEmpty || unit.members.isEmpty then [] else [.newline]) ++
    membersLayout 0 none unit.members

end CompilationUnit

def TypeSyntax.text (type : TypeSyntax) : String :=
  (type.layout 0).render defaultIndentWidth

def Name.text (name : Name) : String :=
  (name.layout 0).render defaultIndentWidth

def Expr.text (width : Nat) (expr : Expr) : String :=
  (expr.layout 0).render width

def Statement.text (width : Nat) (statement : Statement) : String :=
  (statement.layout 0 .line).render width

def Member.text (width : Nat) (member : Member) : String :=
  (member.layout 0).render width

/-- The text of a file. -/
def CompilationUnit.text (width : Nat) (unit : CompilationUnit) : String :=
  unit.layout.render width

end Sharpen.Target
