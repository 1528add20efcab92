import Sharpen.Target.Print.Declarations

/-!
# A printer with a level of its own

A layout names the level of every line in it. Here the same trees are printed the other way round:
by a printer that has written some output, is at a level of indentation, and is changed step by
step. Three steps write and two move the level; a rule that goes one level deeper for its lines has
to come back by itself. There is one rule for each kind of node, and nothing else that pairs the two
steps.

Every rule for a member or a statement starts by writing the indentation and stops before the end of
its last line, so that whoever calls it decides what separates two nodes.
-/

namespace Sharpen

/-- A printer: what it has written, the level that it is at, and how many blanks a level is wide. -/
structure Printer where
  output : String := ""
  level : Nat := 0
  width : Nat := defaultIndentWidth

/-- Steps of a printer. -/
abbrev Emission := StateM Printer Unit

namespace Printer

def write (text : String) : Emission :=
  modify fun printer => { printer with output := printer.output ++ text }

def writeLine : Emission :=
  write "\n"

/-- The blanks that a line at the level of the printer starts with. -/
def writeIndent : Emission := do
  let printer ← get
  write (String.ofList (List.replicate (printer.level * printer.width) ' '))

def increaseIndent : Emission :=
  modify fun printer => { printer with level := printer.level + 1 }

/-- No level is below the first one. -/
def decreaseIndent : Emission :=
  modify fun printer => { printer with level := printer.level - 1 }

/-- Comments on lines of their own. -/
def writeLeadingComments : List String → Emission
  | [] => pure ()
  | comment :: rest => do
    writeIndent; write comment; writeLine
    writeLeadingComments rest

/-- A comment at the end of a line. -/
def writeTrailingComment : Option String → Emission
  | none => pure ()
  | some comment => do write " "; write comment

/-- A comment in the middle of a line; one that goes to the end of its line is put between marks. -/
def writeInlineComment (comment : String) : Emission :=
  match comment.toList with
  | '/' :: '/' :: text => do
    write "/*"
    write (String.ofList (text.dropWhile (· == '/')))
    write " */"
  | _ => write comment

/-- Leading comments that have no line of their own, behind what they belong to. -/
def writeInlineComments : List String → Emission
  | [] => pure ()
  | comment :: rest => do
    write " "
    writeInlineComment comment
    writeInlineComments rest

/-- An operator between blanks. -/
def writeSpaced (token : String) : Emission := do
  write " "; write token; write " "

/-- The comma in front of every item but the first one. -/
def writeComma (isFirst : Bool) : Emission :=
  if isFirst then pure () else write ", "

end Printer

namespace Target

open Printer

/-! ## Parts of code -/

def emitModifiers : List Modifier → Emission
  | [] => pure ()
  | modifier :: rest => do
    write modifier.keyword; write " "
    emitModifiers rest

/-- Parentheses around an expression that binds more loosely than `least`. -/
def emitOperand (least : Nat) (expr : Expr) (inner : Emission) : Emission :=
  if expr.strength < least then do write "("; inner; write ")" else inner

/-- Parentheses on demand. -/
def emitParenthesizedIf (needed : Bool) (inner : Emission) : Emission :=
  if needed then do write "("; inner; write ")" else inner

/-- Type arguments or parameters; without any there are no brackets. -/
def emitAngled (isEmpty : Bool) (inner : Emission) : Emission :=
  if isEmpty then pure () else do write "<"; inner; write ">"

def emitBraced (isEmpty : Bool) (inner : Emission) : Emission :=
  if isEmpty then write "\x7b \x7d" else do write "\x7b "; inner; write " \x7d"

def Literal.emit : Literal → Emission
  | .null => write "null"
  | .bool true => write "true"
  | .bool false => write "false"
  | .numeric digits => write digits
  | .string value => do write "\""; write (Text.escapeString value); write "\""
  | .char value => do write "'"; write (Text.escapeChar value); write "'"

/-- Lines between braces, one level deeper than the printer is at. -/
def emitBlockBody (lines : Emission) : Emission := do
  write "\x7b"; writeLine
  increaseIndent
  lines
  decreaseIndent
  writeIndent; write "\x7d"

def emitBlockOnNewLine (lines : Emission) : Emission := do
  writeLine; writeIndent
  emitBlockBody lines

/-- A statement at a place, given what it writes from its indentation on: on a line of its own, or
as the body of another statement on the lines below, one level deeper unless it is a block. -/
def emitStatementAt (isBlock : Bool) (inline : Emission) : Place → Emission
  | .inline => inline
  | .line => do writeIndent; inline
  | .body =>
    if isBlock then do writeLine; writeIndent; inline
    else do
      writeLine
      increaseIndent
      writeIndent; inline
      decreaseIndent

/-- A statement with comments at a place. In the middle of a line all of them go behind the
statement. -/
def emitCommentedAt (trivia : Trivia) (inner : Place → Emission) : Place → Emission
  | .inline => do
    inner .inline
    writeInlineComments trivia.leading; writeTrailingComment trivia.trailing
  | .line => do
    writeLeadingComments trivia.leading
    inner .line
    writeTrailingComment trivia.trailing
  | .body => do
    writeLine
    increaseIndent
    writeLeadingComments trivia.leading
    inner .line
    writeTrailingComment trivia.trailing
    decreaseIndent

/-! ## Code -/

mutual

def Name.emit : Name → Emission
  | .identifier name => write name
  | .generic name types => do write name; emitAngled types.isEmpty (emitTypes true types)
  | .qualified left right => do left.emit; write "."; right.emit
  | .aliasQualified shortName name => do write shortName; write "::"; name.emit

def TypeSyntax.emit : TypeSyntax → Emission
  | .predefined keyword => write keyword.keyword
  | .named name => name.emit
  | .array element ranks => do element.emit; emitRanks ranks
  | .nullable element => do element.emit; write "?"
  | .var => write "var"

def emitTypes (isFirst : Bool) : List TypeSyntax → Emission
  | [] => pure ()
  | type :: rest => do writeComma isFirst; type.emit; emitTypes false rest

def emitRanks : List (List (Option Expr)) → Emission
  | [] => pure ()
  | sizes :: rest => do write "["; emitSizes true sizes; write "]"; emitRanks rest

def emitSizes (isFirst : Bool) : List (Option Expr) → Emission
  | [] => pure ()
  | some size :: rest => do writeComma isFirst; size.emit; emitSizes false rest
  | none :: rest => do
    (if isFirst then pure () else write ",")
    emitSizes false rest

def Expr.emit : Expr → Emission
  | .literal value => value.emit
  | .interpolated contents => do write "$\""; emitContents contents; write "\""
  | .identifier name => write name
  | .generic name types => do write name; emitAngled types.isEmpty (emitTypes true types)
  | .predefinedType keyword => write keyword.keyword
  | .aliasQualified shortName name => do write shortName; write "::"; write name
  | .this => write "this"
  | .base => write "base"
  | .memberAccess receiver name types => do
    emitOperand Strength.primary receiver receiver.emit
    write "."; write name
    emitAngled types.isEmpty (emitTypes true types)
  | .memberBinding name => do write "."; write name
  | .conditionalAccess receiver whenNotNull => do
    emitOperand Strength.primary receiver receiver.emit
    write "?"; whenNotNull.emit
  | .invocation target arguments => do
    emitOperand Strength.primary target target.emit
    write "("; emitArguments true arguments; write ")"
  | .elementAccess target arguments => do
    emitOperand Strength.primary target target.emit
    write "["; emitArguments true arguments; write "]"
  | .objectCreation type (some arguments) initializer => do
    write "new "; type.emit
    write "("; emitArguments true arguments; write ")"
    initializer.emit
  | .objectCreation type none .absent => do write "new "; type.emit; write "()"
  | .objectCreation type none initializer => do write "new "; type.emit; initializer.emit
  | .arrayCreation type initializer => do write "new "; type.emit; initializer.emit
  | .implicitArray _ items => do write "new[] "; emitBraced items.isEmpty (emitExprs true items)
  | .braces _ items => emitBraced items.isEmpty (emitExprs true items)
  | .anonymousObject fields => do write "new "; emitBraced fields.isEmpty (emitFields true fields)
  | .binary left operator right => do
    emitOperand operator.leftStrength left left.emit
    writeSpaced operator.token
    emitOperand operator.rightStrength right right.emit
  | .assignment left operator right => do
    emitOperand Strength.unary left left.emit
    writeSpaced operator.token
    emitOperand Strength.assignment right right.emit
  | .prefixUnary operator inner => do
    write operator.token
    if inner.clashesWith operator then emitParenthesizedIf true inner.emit
    else emitOperand Strength.unary inner inner.emit
  | .postfixUnary inner operator => do
    emitOperand Strength.primary inner inner.emit
    write operator.token
  | .conditional condition whenTrue whenFalse => do
    emitOperand Strength.coalesce condition condition.emit
    write " ? "; emitOperand Strength.conditional whenTrue whenTrue.emit
    write " : "; emitOperand Strength.conditional whenFalse whenFalse.emit
  | .cast type inner => do
    write "("; type.emit; write ")"
    if inner.isSigned && !type.isPredefined then emitParenthesizedIf true inner.emit
    else emitOperand Strength.unary inner inner.emit
  | .as inner type => do emitOperand Strength.relational inner inner.emit; write " as "; type.emit
  | .is inner type => do emitOperand Strength.relational inner inner.emit; write " is "; type.emit
  | .typeOf type => do write "typeof("; type.emit; write ")"
  | .defaultOf type => do write "default("; type.emit; write ")"
  | .parenthesized inner => do write "("; inner.emit; write ")"
  | .lambda isAsync parameters body => do
    (if isAsync then write "async " else pure ())
    parameters.emit
    write " =>"
    body.emit
  | .await inner => do write "await "; emitOperand Strength.unary inner inner.emit
  | .commented inner comment => do inner.emit; write " /* "; write comment; write " */"

def emitExprs (isFirst : Bool) : List Expr → Emission
  | [] => pure ()
  | expr :: rest => do writeComma isFirst; expr.emit; emitExprs false rest

def emitArguments (isFirst : Bool) : List Argument → Emission
  | [] => pure ()
  | ⟨name, passing, value⟩ :: rest => do
    writeComma isFirst
    (match name with
      | some name => do write name; write ": "
      | none => pure ())
    (match passing with
      | some passing => do write passing.keyword; write " "
      | none => pure ())
    value.emit
    emitArguments false rest

def emitContents : List Content → Emission
  | [] => pure ()
  | .text content :: rest => do write (Text.escapeString content); emitContents rest
  | .hole value alignment format :: rest => do
    write "\x7b"
    emitParenthesizedIf value.isConditional value.emit
    (match alignment with
      | some alignment => do write ","; alignment.emit
      | none => pure ())
    (match format with
      | some format => do write ":"; write format
      | none => pure ())
    write "\x7d"
    emitContents rest

def Braces.emit : Braces → Emission
  | .absent => pure ()
  | .present _ items => do write " "; emitBraced items.isEmpty (emitExprs true items)

def emitFields (isFirst : Bool) : List FieldValue → Emission
  | [] => pure ()
  | ⟨name, value⟩ :: rest => do
    writeComma isFirst
    write name; write " = "; value.emit
    emitFields false rest

def LambdaParameters.emit : LambdaParameters → Emission
  | .simple identifier => write identifier
  | .list parameters => do write "("; emitParameters true parameters; write ")"

def LambdaBody.emit : LambdaBody → Emission
  | .expression value => do write " "; emitOperand Strength.assignment value value.emit
  | .block statements => emitBlockOnNewLine (emitStatements statements)

def emitParameters (isFirst : Bool) : List Parameter → Emission
  | [] => pure ()
  | ⟨attributes, modifiers, type, identifier, defaultValue⟩ :: rest => do
    writeComma isFirst
    emitAttributeLists attributes
    emitModifiers modifiers
    (match type with
      | some type => do type.emit; write " "
      | none => pure ())
    write identifier
    (match defaultValue with
      | some value => do write " = "; value.emit
      | none => pure ())
    emitParameters false rest

def AttributeList.emit : AttributeList → Emission
  | ⟨target, attributes⟩ => do
    write "["
    (match target with
      | some target => write target.label
      | none => pure ())
    emitAttributes true attributes
    write "]"

/-- Attribute lists in the middle of a line. -/
def emitAttributeLists : List AttributeList → Emission
  | [] => pure ()
  | list :: rest => do list.emit; write " "; emitAttributeLists rest

def emitAttributes (isFirst : Bool) : List Attribute → Emission
  | [] => pure ()
  | ⟨name, arguments⟩ :: rest => do
    writeComma isFirst
    name.emit
    (if arguments.isEmpty then pure () else do
      write "("; emitAttributeArguments true arguments; write ")")
    emitAttributes false rest

def emitAttributeArguments (isFirst : Bool) : List AttributeArgument → Emission
  | [] => pure ()
  | ⟨name, value⟩ :: rest => do
    writeComma isFirst
    (match name with
      | some name => do write name; write " = "
      | none => pure ())
    value.emit
    emitAttributeArguments false rest

def Variables.emit : Variables → Emission
  | ⟨type, declarators⟩ => do type.emit; write " "; emitDeclarators true declarators

def emitDeclarators (isFirst : Bool) : List Declarator → Emission
  | [] => pure ()
  | ⟨identifier, initializer⟩ :: rest => do
    writeComma isFirst
    write identifier
    (match initializer with
      | some value => do write " = "; value.emit
      | none => pure ())
    emitDeclarators false rest

def Opening.emit : Opening → Emission
  | .declared group => group.emit
  | .expressions values => emitExprs true values

/-- A statement at a place. Its indentation is written by `emitStatementAt`. -/
def Statement.emit : Statement → Place → Emission
  | .commented trivia inner => emitCommentedAt trivia inner.emit
  | .block statements => emitStatementAt true (emitBlockBody (emitStatements statements))
  | .localDeclaration modifiers declared => emitStatementAt false do
    emitModifiers modifiers; declared.emit; write ";"
  | .expression value => emitStatementAt false do value.emit; write ";"
  | .return value => emitStatementAt false do
    write "return"
    (match value with
      | some value => do write " "; value.emit
      | none => pure ())
    write ";"
  | .yieldReturn value => emitStatementAt false do write "yield return "; value.emit; write ";"
  | .yieldBreak => emitStatementAt false (write "yield break;")
  | .break => emitStatementAt false (write "break;")
  | .continue => emitStatementAt false (write "continue;")
  | .throw value => emitStatementAt false do
    write "throw"
    (match value with
      | some value => do write " "; value.emit
      | none => pure ())
    write ";"
  | .if condition body elseBody => emitStatementAt false do
    write "if ("; condition.emit; write ")"
    body.emit .body
    (match elseBody with
      | some alternative => do
        writeLine; writeIndent; write "else"
        if alternative.isIf then do write " "; alternative.emit .inline else alternative.emit .body
      | none => pure ())
  | .for opening condition incrementors body => emitStatementAt false do
    write "for ("; opening.emit; write ";"
    (match condition with
      | some condition => do write " "; condition.emit
      | none => pure ())
    write ";"
    (if incrementors.isEmpty then pure () else do write " "; emitExprs true incrementors)
    write ")"
    body.emit .body
  | .forEach type identifier items body => emitStatementAt false do
    write "foreach ("; type.emit; write " "; write identifier; write " in "; items.emit; write ")"
    body.emit .body
  | .while condition body => emitStatementAt false do
    write "while ("; condition.emit; write ")"
    body.emit .body
  | .do body condition => emitStatementAt false do
    write "do"
    body.emit .body
    writeLine; writeIndent; write "while ("; condition.emit; write ");"
  | .switch subject sections => emitStatementAt false do
    write "switch ("; subject.emit; write ")"
    writeLine; writeIndent; write "\x7b"; writeLine
    increaseIndent
    emitSections sections
    decreaseIndent
    writeIndent; write "\x7d"
  | .try body catches finallyBody => emitStatementAt false do
    write "try"
    emitBlockOnNewLine (emitStatements body)
    emitCatches catches
    (match finallyBody with
      | some statements => do
        writeLine; writeIndent; write "finally"
        emitBlockOnNewLine (emitStatements statements)
      | none => pure ())
  | .lock subject body => emitStatementAt false do
    write "lock ("; subject.emit; write ")"
    body.emit .body
  | .using opening body => emitStatementAt false do
    write "using ("; opening.emit; write ")"
    -- one inside the other they stand at the same level
    if body.isUsing then do writeLine; writeIndent; body.emit .inline else body.emit .body
  | .empty => emitStatementAt false (write ";")

/-- Statements, each on its own lines. -/
def emitStatements : List Statement → Emission
  | [] => pure ()
  | statement :: rest => do statement.emit .line; writeLine; emitStatements rest

def emitLabels : List (Option Expr) → Emission
  | [] => pure ()
  | some value :: rest => do
    writeIndent; write "case "; value.emit; write ":"; writeLine
    emitLabels rest
  | none :: rest => do writeIndent; write "default:"; writeLine; emitLabels rest

/-- The labels of a section, and one level deeper its statements. -/
def emitSections : List SwitchSection → Emission
  | [] => pure ()
  | ⟨labels, statements⟩ :: rest => do
    emitLabels labels
    increaseIndent
    emitStatements statements
    decreaseIndent
    emitSections rest

def emitCatches : List CatchClause → Emission
  | [] => pure ()
  | ⟨header, filter, body⟩ :: rest => do
    writeLine; writeIndent; write "catch"
    header.emit
    (match filter with
      | some condition => do write " when ("; condition.emit; write ")"
      | none => pure ())
    emitBlockOnNewLine (emitStatements body)
    emitCatches rest

def CatchHeader.emit : CatchHeader → Emission
  | .all => pure ()
  | .typed type identifier => do
    write " ("; type.emit
    (match identifier with
      | some identifier => do write " "; write identifier
      | none => pure ())
    write ")"

end

/-! ## Declarations -/

def emitAttributeLines : List AttributeList → Emission
  | [] => pure ()
  | list :: rest => do
    writeIndent; list.emit; writeLine
    emitAttributeLines rest

/-- What every member starts with. -/
def emitHead (attributes : List AttributeList) (modifiers : List Modifier) : Emission := do
  emitAttributeLines attributes
  writeIndent; emitModifiers modifiers

def emitParameterList (before after : String) (parameters : List Parameter) : Emission := do
  write before; emitParameters true parameters; write after

def emitTypeParameters (isFirst : Bool) : List TypeParameter → Emission
  | [] => pure ()
  | ⟨variance, identifier⟩ :: rest => do
    writeComma isFirst
    (match variance with
      | some variance => do write variance.keyword; write " "
      | none => pure ())
    write identifier
    emitTypeParameters false rest

def emitTypeParameterList (parameters : List TypeParameter) : Emission :=
  emitAngled parameters.isEmpty (emitTypeParameters true parameters)

def emitBases (bases : List TypeSyntax) : Emission :=
  if bases.isEmpty then pure () else do write " : "; emitTypes true bases

def emitConstraints (isFirst : Bool) : List TypeConstraint → Emission
  | [] => pure ()
  | constraint :: rest => do
    writeComma isFirst
    (match constraint with
      | .class => write "class"
      | .struct => write "struct"
      | .constructor => write "new()"
      | .type bound => bound.emit)
    emitConstraints false rest

def emitConstraintClauses : List ConstraintClause → Emission
  | [] => pure ()
  | clause :: rest => do
    write " where "; write clause.typeParameter; write " : "
    emitConstraints true clause.constraints
    emitConstraintClauses rest

def emitBody (statements : List Statement) : Emission :=
  emitBlockOnNewLine (emitStatements statements)

/-- A body, or the semicolon that stands for none. -/
def emitBodyOrSemicolon : Option (List Statement) → Emission
  | some statements => emitBody statements
  | none => write ";"

def emitAutoAccessors : List Accessor → Emission
  | [] => pure ()
  | accessor :: rest => do
    write " "; emitModifiers accessor.modifiers; write accessor.kind.keyword; write ";"
    emitAutoAccessors rest

def emitAccessors : List Accessor → Emission
  | [] => pure ()
  | accessor :: rest => do
    emitHead accessor.attributes accessor.modifiers
    write accessor.kind.keyword
    emitBodyOrSemicolon accessor.body
    writeLine
    emitAccessors rest

/-- Accessors on one line when each is filled in by the compiler and has no attributes, otherwise
one after the other below. -/
def emitAccessorList (accessors : List Accessor) : Emission :=
  if accessors.all fun accessor => accessor.body.isNone && accessor.attributes.isEmpty then do
    write " \x7b"; emitAutoAccessors accessors; write " \x7d"
  else do
    writeLine; writeIndent; write "\x7b"; writeLine
    increaseIndent
    emitAccessors accessors
    decreaseIndent
    writeIndent; write "\x7d"

/-- The values of an enumeration; every value but the last is followed by a comma. -/
def emitEnumMembers : List EnumMember → Emission
  | [] => pure ()
  | ⟨attributes, identifier, value, trivia⟩ :: rest => do
    writeLeadingComments trivia.leading
    emitAttributeLines attributes
    writeIndent; write identifier
    (match value with
      | some value => do write " = "; value.emit
      | none => pure ())
    (if rest.isEmpty then pure () else write ",")
    writeTrailingComment trivia.trailing
    writeLine
    emitEnumMembers rest

/-- A blank line between two members unless both fit on one line. -/
def emitBlankBetween (before : Option Member) (member : Member) : Emission :=
  match before with
  | some previous => if previous.isSingleLine && member.isSingleLine then pure () else writeLine
  | none => pure ()

/-- Members between braces on lines of their own. -/
def emitMemberBody (members : Emission) : Emission := do
  writeLine; writeIndent; write "\x7b"; writeLine
  increaseIndent
  members
  decreaseIndent
  writeIndent; write "\x7d"

mutual

def Member.emit : Member → Emission
  | .commented trivia inner => do
    writeLeadingComments trivia.leading
    inner.emit
    writeTrailingComment trivia.trailing
  | .namespace name members => do
    writeIndent; write "namespace "; name.emit
    emitMemberBody (emitMembers none members)
  | .type keyword attributes modifiers identifier typeParameters bases constraints members => do
    emitHead attributes modifiers
    write keyword.keyword; write " "; write identifier
    emitTypeParameterList typeParameters
    emitBases bases
    emitConstraintClauses constraints
    emitMemberBody (emitMembers none members)
  | .enum attributes modifiers identifier base values => do
    emitHead attributes modifiers
    write "enum "; write identifier
    (match base with
      | some base => do write " : "; base.emit
      | none => pure ())
    writeLine; writeIndent; write "\x7b"; writeLine
    increaseIndent
    emitEnumMembers values
    decreaseIndent
    writeIndent; write "\x7d"
  | .delegate attributes modifiers returnType identifier typeParameters parameters constraints => do
    emitHead attributes modifiers
    write "delegate "; returnType.emit; write " "; write identifier
    emitTypeParameterList typeParameters
    emitParameterList "(" ")" parameters
    emitConstraintClauses constraints
    write ";"
  | .field attributes modifiers declared => do
    emitHead attributes modifiers; declared.emit; write ";"
  | .eventField attributes modifiers declared => do
    emitHead attributes modifiers; write "event "; declared.emit; write ";"
  | .event attributes modifiers valueType identifier accessors => do
    emitHead attributes modifiers
    write "event "; valueType.emit; write " "; write identifier
    emitAccessorList accessors
  | .property attributes modifiers valueType identifier accessors initializer => do
    emitHead attributes modifiers
    valueType.emit; write " "; write identifier
    emitAccessorList accessors
    (match initializer with
      | some value => do write " = "; value.emit; write ";"
      | none => pure ())
  | .indexer attributes modifiers valueType parameters accessors => do
    emitHead attributes modifiers
    valueType.emit; write " this"
    emitParameterList "[" "]" parameters
    emitAccessorList accessors
  | .method attributes modifiers returnType identifier typeParameters parameters constraints body =>
    do
    emitHead attributes modifiers
    returnType.emit; write " "; write identifier
    emitTypeParameterList typeParameters
    emitParameterList "(" ")" parameters
    emitConstraintClauses constraints
    emitBodyOrSemicolon body
  | .constructor attributes modifiers identifier parameters chain body => do
    emitHead attributes modifiers
    write identifier
    emitParameterList "(" ")" parameters
    (match chain with
      | some chain => do
        write (" : " ++ chain.kind.keyword ++ "("); emitArguments true chain.arguments; write ")"
      | none => pure ())
    emitBody body
  | .destructor attributes identifier body => do
    emitHead attributes []
    write "~"; write identifier; write "()"
    emitBody body
  | .operator attributes modifiers returnType token parameters body => do
    emitHead attributes modifiers
    returnType.emit; write " operator "; write token.token
    emitParameterList "(" ")" parameters
    emitBody body
  | .conversion attributes modifiers valueType parameters body => do
    emitHead attributes modifiers
    write "operator "; valueType.emit
    emitParameterList "(" ")" parameters
    emitBody body

/-- Members, each on its own lines; `before` is the member above them. -/
def emitMembers (before : Option Member) : List Member → Emission
  | [] => pure ()
  | member :: rest => do
    emitBlankBetween before member
    member.emit; writeLine
    emitMembers (some member) rest

end

def emitUsings : List UsingDirective → Emission
  | [] => pure ()
  | ⟨shortName, name⟩ :: rest => do
    writeIndent; write "using "
    (match shortName with
      | some shortName => do write shortName; write " = "
      | none => pure ())
    name.emit; write ";"; writeLine
    emitUsings rest

/-- A whole file. -/
def CompilationUnit.emit (unit : CompilationUnit) : Emission := do
  emitUsings unit.usings
  (if unit.usings.isEmpty || (unit.attributes.isEmpty && unit.members.isEmpty) then pure
    () else writeLine)
  emitAttributeLines unit.attributes
  (if unit.attributes.isEmpty || unit.members.isEmpty then pure () else writeLine)
  emitMembers none unit.members

end Target

end Sharpen
