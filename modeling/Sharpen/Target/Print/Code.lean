import Sharpen.Layout
import Sharpen.Target.Print.Precedence
import Sharpen.Text.Escape

/-!
# Printed code

The layout of names, types, expressions and statements. Everything that spans lines is laid out for
an indentation `level`; an expression needs the level for the block bodies of lambdas in it.

* `Expr.layout` writes an expression; `operand` puts parentheses around one that binds too loosely.
* `Statement.layout` writes a statement at a `Place`: on a line of its own, as the body of another
  statement, or in the middle of a line.
-/

namespace Sharpen.Target

open Layout (write enclosed commaSeparated blockBelow)

/-- Keywords, each followed by a blank. -/
def modifiersLayout (modifiers : List Modifier) : Layout :=
  modifiers.flatMap fun modifier => [.text modifier.keyword, .text " "]

/-- The inside of an expression, parenthesized when the expression binds more loosely than `least`.
-/
def operand (least : Nat) (expr : Expr) (inner : Layout) : Layout :=
  if expr.strength < least then enclosed "(" ")" inner else inner

/-- The inside of an expression, parenthesized on demand. -/
def parenthesizedIf (needed : Bool) (inner : Layout) : Layout :=
  if needed then enclosed "(" ")" inner else inner

/-- Type arguments between angle brackets, when there are any. -/
def angleBrackets : List Layout → Layout
  | [] => []
  | arguments => enclosed "<" ">" (commaSeparated arguments)

/-- Items between braces. -/
def bracesLayout : List Layout → Layout
  | [] => write "\x7b \x7d"
  | items => enclosed "\x7b " " \x7d" (commaSeparated items)

/-- The sizes of one rank specifier: a blank follows a comma only before a given size. -/
def sizesLayout : List (Option Layout) → Layout
  | [] => []
  | first :: rest =>
    first.getD [] ++ rest.flatMap fun
      | some size => .text ", " :: size
      | none => [.text ","]

/-- Where a statement starts: on a line of its own, as the body of the statement before it, or on a
line that is already begun. -/
inductive Place where
  | line | body | inline
  deriving DecidableEq

/-- The level at which a statement stands at a place. A body stands one level deeper, a braced one
does not. -/
def Place.levelOf (place : Place) (isBlock : Bool) (level : Nat) : Nat :=
  match place with
  | .body => if isBlock then level else level + 1
  | _ => level

/-- What leads from the end of the line before to a statement at a place. -/
def Place.lead : Place → Layout
  | .body => [.newline]
  | _ => []

/-- The indentation of a statement at a place. -/
def Place.indentation (place : Place) (level : Nat) : Layout :=
  match place with
  | .inline => []
  | _ => [.indent level]

/-- The text of a literal. -/
def Literal.layout : Literal → Layout
  | .null => write "null"
  | .bool true => write "true"
  | .bool false => write "false"
  | .numeric digits => write digits
  | .string value => write ("\"" ++ Text.escapeString value ++ "\"")
  | .char value => write ("'" ++ Text.escapeChar value ++ "'")

mutual

def Name.layout (level : Nat) : Name → Layout
  | .identifier name => write name
  | .generic name typeArguments => .text name :: angleBrackets (typeLayouts level typeArguments)
  | .qualified left right => left.layout level ++ .text "." :: right.layout level
  | .aliasQualified shortName name => .text shortName :: .text "::" :: name.layout level

def TypeSyntax.layout (level : Nat) : TypeSyntax → Layout
  | .predefined keyword => write keyword.keyword
  | .named name => name.layout level
  | .array element ranks => element.layout level ++ rankLayouts level ranks
  | .nullable element => element.layout level ++ [.text "?"]
  | .var => write "var"

def typeLayouts (level : Nat) : List TypeSyntax → List Layout
  | [] => []
  | type :: rest => type.layout level :: typeLayouts level rest

/-- The rank specifiers of an array type. -/
def rankLayouts (level : Nat) : List (List (Option Expr)) → Layout
  | [] => []
  | sizes :: rest =>
    enclosed "[" "]" (sizesLayout (optionLayouts level sizes)) ++ rankLayouts level rest

def optionLayouts (level : Nat) : List (Option Expr) → List (Option Layout)
  | [] => []
  | some size :: rest => some (size.layout level) :: optionLayouts level rest
  | none :: rest => none :: optionLayouts level rest

def Expr.layout (level : Nat) : Expr → Layout
  | .literal value => value.layout
  | .interpolated contents => enclosed "$\"" "\"" (contentsLayout level contents)
  | .identifier name => write name
  | .generic name typeArguments => .text name :: angleBrackets (typeLayouts level typeArguments)
  | .predefinedType keyword => write keyword.keyword
  | .aliasQualified shortName name => [.text shortName, .text "::", .text name]
  | .this => write "this"
  | .base => write "base"
  | .memberAccess receiver name typeArguments =>
    operand Strength.primary receiver (receiver.layout level) ++ .text "." :: .text name ::
      angleBrackets (typeLayouts level typeArguments)
  | .memberBinding name => [.text ".", .text name]
  | .conditionalAccess receiver whenNotNull =>
    operand Strength.primary receiver (receiver.layout level) ++ .text "?" ::
      whenNotNull.layout level
  | .invocation target arguments =>
    operand Strength.primary target (target.layout level) ++
      enclosed "(" ")" (commaSeparated (argumentLayouts level arguments))
  | .elementAccess target arguments =>
    operand Strength.primary target (target.layout level) ++
      enclosed "[" "]" (commaSeparated (argumentLayouts level arguments))
  | .objectCreation type (some arguments) initializer =>
    .text "new " :: type.layout level ++
      enclosed "(" ")" (commaSeparated (argumentLayouts level arguments)) ++
        initializer.layout level
  | .objectCreation type none .absent => .text "new " :: type.layout level ++ write "()"
  | .objectCreation type none initializer =>
    .text "new " :: type.layout level ++ initializer.layout level
  | .arrayCreation type initializer => .text "new " :: type.layout level ++ initializer.layout level
  | .implicitArray _ items => .text "new[] " :: bracesLayout (exprLayouts level items)
  | .braces _ items => bracesLayout (exprLayouts level items)
  | .anonymousObject fields => .text "new " :: bracesLayout (fieldLayouts level fields)
  | .binary left operator right =>
    operand operator.leftStrength left (left.layout level) ++
      .text (" " ++ operator.token ++ " ") ::
      operand operator.rightStrength right (right.layout level)
  | .assignment left operator right =>
    operand Strength.unary left (left.layout level) ++ .text (" " ++ operator.token ++ " ") ::
      operand Strength.assignment right (right.layout level)
  | .prefixUnary operator inner =>
    .text operator.token ::
      if inner.clashesWith operator then enclosed "(" ")" (inner.layout level)
      else operand Strength.unary inner (inner.layout level)
  | .postfixUnary inner operator =>
    operand Strength.primary inner (inner.layout level) ++ [.text operator.token]
  | .conditional condition whenTrue whenFalse =>
    operand Strength.coalesce condition (condition.layout level) ++ .text " ? " ::
      operand Strength.conditional whenTrue (whenTrue.layout level) ++ .text " : " ::
      operand Strength.conditional whenFalse (whenFalse.layout level)
  | .cast type inner =>
    enclosed "(" ")" (type.layout level) ++
      if inner.isSigned && !type.isPredefined then enclosed "(" ")" (inner.layout level)
      else operand Strength.unary inner (inner.layout level)
  | .as inner type =>
    operand Strength.relational inner (inner.layout level) ++ .text " as " :: type.layout level
  | .is inner type =>
    operand Strength.relational inner (inner.layout level) ++ .text " is " :: type.layout level
  | .typeOf type => enclosed "typeof(" ")" (type.layout level)
  | .defaultOf type => enclosed "default(" ")" (type.layout level)
  | .parenthesized inner => enclosed "(" ")" (inner.layout level)
  | .lambda isAsync parameters body =>
    (if isAsync then write "async " else []) ++ parameters.layout level ++ .text " =>" ::
      body.layout level
  | .await inner => .text "await " :: operand Strength.unary inner (inner.layout level)
  | .commented inner comment => inner.layout level ++ [.text " /* ", .text comment, .text " */"]

def exprLayouts (level : Nat) : List Expr → List Layout
  | [] => []
  | expr :: rest => expr.layout level :: exprLayouts level rest

def Argument.layout (level : Nat) : Argument → Layout
  | ⟨name, passing, value⟩ =>
    (match name with
      | some name => [.text name, .text ": "]
      | none => []) ++
    (match passing with
      | some passing => [.text passing.keyword, .text " "]
      | none => []) ++
    value.layout level

def argumentLayouts (level : Nat) : List Argument → List Layout
  | [] => []
  | argument :: rest => argument.layout level :: argumentLayouts level rest

/-- The pieces of an interpolated string. -/
def contentsLayout (level : Nat) : List Content → Layout
  | [] => []
  | .text content :: rest => .text (Text.escapeString content) :: contentsLayout level rest
  | .hole value alignment format :: rest =>
    .text "\x7b" :: parenthesizedIf value.isConditional (value.layout level) ++
      (match alignment with
        | some alignment => .text "," :: alignment.layout level
        | none => []) ++
      (match format with
        | some format => [.text ":", .text format]
        | none => []) ++
      .text "\x7d" :: contentsLayout level rest

def Braces.layout (level : Nat) : Braces → Layout
  | .absent => []
  | .present _ items => .text " " :: bracesLayout (exprLayouts level items)

def fieldLayouts (level : Nat) : List FieldValue → List Layout
  | [] => []
  | ⟨name, value⟩ :: rest =>
    (.text name :: .text " = " :: value.layout level) :: fieldLayouts level rest

def LambdaParameters.layout (level : Nat) : LambdaParameters → Layout
  | .simple identifier => write identifier
  | .list parameters => enclosed "(" ")" (commaSeparated (parameterLayouts level parameters))

def LambdaBody.layout (level : Nat) : LambdaBody → Layout
  | .expression value => .text " " :: operand Strength.assignment value (value.layout level)
  | .block statements => blockBelow level (statementLayouts (level + 1) statements)

def Parameter.layout (level : Nat) : Parameter → Layout
  | ⟨attributes, modifiers, type, identifier, defaultValue⟩ =>
    (attributeListLayouts level attributes).flatMap (· ++ [.text " "]) ++
    modifiersLayout modifiers ++
    (match type with
      | some type => type.layout level ++ [.text " "]
      | none => []) ++
    .text identifier ::
    (match defaultValue with
      | some value => .text " = " :: value.layout level
      | none => [])

def parameterLayouts (level : Nat) : List Parameter → List Layout
  | [] => []
  | parameter :: rest => parameter.layout level :: parameterLayouts level rest

def AttributeList.layout (level : Nat) : AttributeList → Layout
  | ⟨target, attributes⟩ =>
    enclosed "[" "]"
      ((match target with
        | some target => write target.label
        | none => []) ++ commaSeparated (attributeLayouts level attributes))

def attributeListLayouts (level : Nat) : List AttributeList → List Layout
  | [] => []
  | list :: rest => list.layout level :: attributeListLayouts level rest

def attributeLayouts (level : Nat) : List Attribute → List Layout
  | [] => []
  | ⟨name, arguments⟩ :: rest =>
    (name.layout level ++
      (match attributeArgumentLayouts level arguments with
        | [] => []
        | arguments => enclosed "(" ")" (commaSeparated arguments))) ::
    attributeLayouts level rest

def attributeArgumentLayouts (level : Nat) : List AttributeArgument → List Layout
  | [] => []
  | ⟨name, value⟩ :: rest =>
    ((match name with
      | some name => [.text name, .text " = "]
      | none => []) ++ value.layout level) :: attributeArgumentLayouts level rest

def Variables.layout (level : Nat) : Variables → Layout
  | ⟨type, declarators⟩ =>
    type.layout level ++ .text " " :: commaSeparated (declaratorLayouts level declarators)

def declaratorLayouts (level : Nat) : List Declarator → List Layout
  | [] => []
  | ⟨identifier, some value⟩ :: rest =>
    (.text identifier :: .text " = " :: value.layout level) :: declaratorLayouts level rest
  | ⟨identifier, none⟩ :: rest => write identifier :: declaratorLayouts level rest

def Opening.layout (level : Nat) : Opening → Layout
  | .declared group => group.layout level
  | .expressions values => commaSeparated (exprLayouts level values)

/-- The layout of a statement at a place, up to the end of its last line. -/
def Statement.layout (level : Nat) (place : Place) : Statement → Layout
  | .commented trivia inner =>
    let inside := place.levelOf false level
    place.lead ++ Layout.commentLines inside trivia.leading ++ inner.layout inside .line ++
      Layout.endComment trivia.trailing
  | .block statements =>
    let inside := place.levelOf true level
    place.lead ++ place.indentation inside ++
      Layout.block inside (statementLayouts (inside + 1) statements)
  | .localDeclaration modifiers declared =>
    let inside := place.levelOf false level
    place.lead ++ place.indentation inside ++ modifiersLayout modifiers ++
      declared.layout inside ++ [.text ";"]
  | .expression value =>
    let inside := place.levelOf false level
    place.lead ++ place.indentation inside ++ value.layout inside ++ [.text ";"]
  | .return value =>
    let inside := place.levelOf false level
    place.lead ++ place.indentation inside ++ .text "return" ::
      (match value with
        | some value => .text " " :: value.layout inside
        | none => []) ++ [.text ";"]
  | .yieldReturn value =>
    let inside := place.levelOf false level
    place.lead ++ place.indentation inside ++ .text "yield return " :: value.layout inside ++
      [.text ";"]
  | .yieldBreak =>
    place.lead ++ place.indentation (place.levelOf false level) ++ write "yield break;"
  | .break => place.lead ++ place.indentation (place.levelOf false level) ++ write "break;"
  | .continue => place.lead ++ place.indentation (place.levelOf false level) ++ write "continue;"
  | .throw value =>
    let inside := place.levelOf false level
    place.lead ++ place.indentation inside ++ .text "throw" ::
      (match value with
        | some value => .text " " :: value.layout inside
        | none => []) ++ [.text ";"]
  | .if condition body elseBody =>
    let inside := place.levelOf false level
    place.lead ++ place.indentation inside ++ enclosed "if (" ")" (condition.layout inside) ++
      body.layout inside .body ++
      (match elseBody with
        | some alternative =>
          .newline :: .indent inside :: .text "else" ::
            if alternative.isIf then .text " " :: alternative.layout inside .inline
            else alternative.layout inside .body
        | none => [])
  | .for opening condition incrementors body =>
    let inside := place.levelOf false level
    place.lead ++ place.indentation inside ++ .text "for (" :: opening.layout inside ++ .text ";" ::
      (match condition with
        | some condition => .text " " :: condition.layout inside
        | none => []) ++ .text ";" ::
      (match exprLayouts inside incrementors with
        | [] => []
        | steps => .text " " :: commaSeparated steps) ++
      .text ")" :: body.layout inside .body
  | .forEach type identifier items body =>
    let inside := place.levelOf false level
    place.lead ++ place.indentation inside ++ .text "foreach (" :: type.layout inside ++
      .text " " :: .text identifier :: .text " in " :: items.layout inside ++
      .text ")" :: body.layout inside .body
  | .while condition body =>
    let inside := place.levelOf false level
    place.lead ++ place.indentation inside ++ enclosed "while (" ")" (condition.layout inside) ++
      body.layout inside .body
  | .do body condition =>
    let inside := place.levelOf false level
    place.lead ++ place.indentation inside ++ .text "do" :: body.layout inside .body ++
      .newline :: .indent inside :: enclosed "while (" ");" (condition.layout inside)
  | .switch subject sections =>
    let inside := place.levelOf false level
    place.lead ++ place.indentation inside ++ enclosed "switch (" ")" (subject.layout inside) ++
      blockBelow inside (sectionLines (inside + 1) sections)
  | .try body catches finallyBody =>
    let inside := place.levelOf false level
    place.lead ++ place.indentation inside ++ .text "try" ::
      blockBelow inside (statementLayouts (inside + 1) body) ++ catchesLayout inside catches ++
      (match finallyBody with
        | some statements =>
          .newline :: .indent inside :: .text "finally" ::
            blockBelow inside (statementLayouts (inside + 1) statements)
        | none => [])
  | .lock subject body =>
    let inside := place.levelOf false level
    place.lead ++ place.indentation inside ++ enclosed "lock (" ")" (subject.layout inside) ++
      body.layout inside .body
  | .using opening body =>
    let inside := place.levelOf false level
    place.lead ++ place.indentation inside ++ enclosed "using (" ")" (opening.layout inside) ++
      if body.isUsing then .newline :: body.layout inside .line else body.layout inside .body
  | .empty => place.lead ++ place.indentation (place.levelOf false level) ++ write ";"

def statementLayouts (level : Nat) : List Statement → List Layout
  | [] => []
  | statement :: rest => statement.layout level .line :: statementLayouts level rest

/-- The lines of the sections of a `switch`: labels, and one level deeper statements. -/
def sectionLines (level : Nat) : List SwitchSection → List Layout
  | [] => []
  | ⟨labels, statements⟩ :: rest =>
    (optionLayouts level labels).map (fun
      | some value => .indent level :: .text "case " :: value ++ [.text ":"]
      | none => [.indent level, .text "default:"]) ++
    statementLayouts (level + 1) statements ++ sectionLines level rest

/-- The `catch` clauses of a `try`. -/
def catchesLayout (level : Nat) : List CatchClause → Layout
  | [] => []
  | ⟨header, filter, body⟩ :: rest =>
    .newline :: .indent level :: .text "catch" :: header.layout level ++
      (match filter with
        | some condition => enclosed " when (" ")" (condition.layout level)
        | none => []) ++
      blockBelow level (statementLayouts (level + 1) body) ++ catchesLayout level rest

/-- The type and name that a `catch` declares. -/
def CatchHeader.layout (level : Nat) : CatchHeader → Layout
  | .all => []
  | .typed type (some identifier) =>
    enclosed " (" ")" (type.layout level ++ [.text " ", .text identifier])
  | .typed type none => enclosed " (" ")" (type.layout level)

end

end Sharpen.Target
