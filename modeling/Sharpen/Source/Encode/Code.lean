import Sharpen.Comment.Json
import Sharpen.Source.Tree

/-!
# Writing source code as JSON

The inverse of the readers. Every field is written: an absent optional part as `null`, an empty list
as an empty array.
-/

namespace Sharpen.Source

open Json

def NodeId.toJson (id : NodeId) : Json :=
  ofUInt32 id

def ranksToJson (ranks : List UInt32) : Json :=
  .arr (ranks.map ofUInt32)

def Literal.toJson : Literal → Json
  | .nothing => .obj [("type", .str "Nothing")]
  | .boolean value => .obj [("type", .str "Boolean"), ("value", .bool value)]
  | .numeric text => .obj [("type", .str "Numeric"), ("value", .str text)]
  | .string value => .obj [("type", .str "String"), ("value", .str value)]
  | .char value => .obj [("type", .str "Char"), ("value", .str value.toString)]
  | .date text => .obj [("type", .str "Date"), ("value", .str text)]

mutual

def SimpleName.fields : SimpleName → List (String × Json)
  | ⟨id, identifier, typeArguments⟩ =>
    [("id", id.toJson), ("identifier", .str identifier),
      ("type_arguments", .arr (TypeSyntax.listToJson typeArguments))]

def Name.toJson : Name → Json
  | .simple name => ofVariant "Simple" name.fields
  | .qualified id left right =>
    ofVariant "Qualified" [("id", id.toJson), ("left", left.toJson), ("right", .obj right.fields)]
  | .global id => ofVariant "Global" [("id", id.toJson)]

def TypeSyntax.toJson : TypeSyntax → Json
  | .predefined id keyword =>
    ofVariant "Predefined" [("id", id.toJson), ("keyword", ofWord keyword)]
  | .named name => ofVariant "Named" [("name", name.toJson)]
  | .array id element ranks =>
    ofVariant "Array" [("id", id.toJson), ("element", element.toJson), ("ranks", ranksToJson ranks)]
  | .nullable id element => ofVariant "Nullable" [("id", id.toJson), ("element", element.toJson)]

def TypeSyntax.listToJson : List TypeSyntax → List Json
  | [] => []
  | type :: rest => type.toJson :: TypeSyntax.listToJson rest

end

def SimpleName.toJson (name : SimpleName) : Json :=
  .obj name.fields

def modifiersToJson (modifiers : List Modifier) : Json :=
  .arr (modifiers.map ofWord)

mutual

def Expr.toJson : Expr → Json
  | .literal id value => ofVariant "Literal" [("id", id.toJson), ("value", value.toJson)]
  | .interpolated id contents =>
    ofVariant "InterpolatedString"
      [("id", id.toJson), ("contents", .arr (Content.listToJson contents))]
  | .name simple => ofVariant "Name" simple.fields
  | .global id => ofVariant "Global" [("id", id.toJson)]
  | .predefinedType id keyword =>
    ofVariant "PredefinedType" [("id", id.toJson), ("keyword", ofWord keyword)]
  | .me id => ofVariant "Me" [("id", id.toJson)]
  | .myBase id => ofVariant "MyBase" [("id", id.toJson)]
  | .myClass id => ofVariant "MyClass" [("id", id.toJson)]
  | .memberAccess id receiver simple =>
    ofVariant "MemberAccess"
      [("id", id.toJson), ("expression", Expr.optionToJson receiver), ("name", simple.toJson)]
  | .conditionalAccess id receiver whenNotNull =>
    ofVariant "ConditionalAccess"
      [("id", id.toJson), ("expression", receiver.toJson), ("when_not_null", whenNotNull.toJson)]
  | .invocation id target arguments =>
    ofVariant "Invocation"
      [("id", id.toJson), ("expression", target.toJson),
        ("arguments", .arr (Argument.listToJson arguments))]
  | .objectCreation id type arguments initializer =>
    ofVariant "ObjectCreation"
      [("id", id.toJson), ("ty", type.toJson), ("arguments", Argument.optionToJson arguments),
        ("initializer", initializer.toJson)]
  | .arrayCreation id elementType bounds ranks itemsId items =>
    ofVariant "ArrayCreation"
      [("id", id.toJson), ("element_type", elementType.toJson),
        ("bounds", Argument.optionToJson bounds), ("rank_specifiers", ranksToJson ranks),
        ("initializer",
          .obj [("id", itemsId.toJson), ("initializers", .arr (Expr.listToJson items))])]
  | .collection id items =>
    ofVariant "CollectionInitializer"
      [("id", id.toJson), ("initializers", .arr (Expr.listToJson items))]
  | .binary id operator left right =>
    ofVariant "Binary"
      [("id", id.toJson), ("operator", ofWord operator), ("left", left.toJson),
        ("right", right.toJson)]
  | .unary id operator operand =>
    ofVariant "Unary"
      [("id", id.toJson), ("operator", ofWord operator), ("operand", operand.toJson)]
  | .parenthesized id inner =>
    ofVariant "Parenthesized" [("id", id.toJson), ("expression", inner.toJson)]
  | .binaryConditional id first second =>
    ofVariant "BinaryConditional"
      [("id", id.toJson), ("first", first.toJson), ("second", second.toJson)]
  | .ternaryConditional id condition whenTrue whenFalse =>
    ofVariant "TernaryConditional"
      [("id", id.toJson), ("condition", condition.toJson), ("when_true", whenTrue.toJson),
        ("when_false", whenFalse.toJson)]
  | .cast id kind operand type =>
    ofVariant "Cast"
      [("id", id.toJson), ("cast_kind", ofWord kind), ("expression", operand.toJson),
        ("ty", type.toJson)]
  | .predefinedCast id keyword operand =>
    ofVariant "PredefinedCast"
      [("id", id.toJson), ("keyword", ofWord keyword), ("expression", operand.toJson)]
  | .typeOf id operand type isNot =>
    ofVariant "TypeOf"
      [("id", id.toJson), ("expression", operand.toJson), ("ty", type.toJson),
        ("is_not", .bool isNot)]
  | .getType id type => ofVariant "GetType" [("id", id.toJson), ("ty", type.toJson)]
  | .nameOf id argument => ofVariant "NameOf" [("id", id.toJson), ("argument", argument.toJson)]
  | .await id operand => ofVariant "Await" [("id", id.toJson), ("expression", operand.toJson)]
  | .lambda id kind modifiers parameters asClause body =>
    ofVariant "Lambda"
      [("id", id.toJson), ("method_kind", ofWord kind), ("modifiers", modifiersToJson modifiers),
        ("parameters", .arr (Parameter.listToJson parameters)),
        ("as_clause", ofOption TypeSyntax.toJson asClause), ("body", body.toJson)]
  | .anonymousObject id fields =>
    ofVariant "AnonymousObjectCreation"
      [("id", id.toJson), ("fields", .arr (FieldValue.listToJson fields))]
  | .query id text => ofVariant "Query" [("id", id.toJson), ("text", .str text)]
  | .xmlLiteral id text => ofVariant "XmlLiteral" [("id", id.toJson), ("text", .str text)]

def Expr.listToJson : List Expr → List Json
  | [] => []
  | value :: rest => value.toJson :: Expr.listToJson rest

def Expr.optionToJson : Option Expr → Json
  | none => .null
  | some value => value.toJson

def Argument.toJson : Argument → Json
  | .simple id name value =>
    ofVariant "Simple"
      [("id", id.toJson), ("name", ofOption .str name), ("expression", value.toJson)]
  | .omitted id => ofVariant "Omitted" [("id", id.toJson)]

def Argument.listToJson : List Argument → List Json
  | [] => []
  | argument :: rest => argument.toJson :: Argument.listToJson rest

def Argument.optionToJson : Option (List Argument) → Json
  | none => .null
  | some arguments => .arr (Argument.listToJson arguments)

def Content.toJson : Content → Json
  | .text written => ofVariant "Text" [("text", .str written)]
  | .hole id value alignment format =>
    ofVariant "Interpolation"
      [("id", id.toJson), ("expression", value.toJson),
        ("alignment", Expr.optionToJson alignment), ("format", ofOption .str format)]

def Content.listToJson : List Content → List Json
  | [] => []
  | content :: rest => content.toJson :: Content.listToJson rest

def Initializer.toJson : Initializer → Json
  | .absent => .null
  | .collection id items =>
    ofVariant "Collection"
      [("initializer", .obj [("id", id.toJson), ("initializers", .arr (Expr.listToJson items))])]
  | .members fields => ofVariant "Members" [("fields", .arr (FieldValue.listToJson fields))]

def FieldValue.toJson : FieldValue → Json
  | ⟨id, name, value⟩ =>
    .obj [("id", id.toJson), ("name", .str name), ("expression", value.toJson)]

def FieldValue.listToJson : List FieldValue → List Json
  | [] => []
  | field :: rest => field.toJson :: FieldValue.listToJson rest

def LambdaBody.toJson : LambdaBody → Json
  | .expression value => ofVariant "Expression" [("expression", value.toJson)]
  | .statement only => ofVariant "Statement" [("statement", only.toJson)]
  | .block statements => ofVariant "Block" [("statements", .arr (Statement.listToJson statements))]

def Attribute.toJson : Attribute → Json
  | ⟨id, target, name, arguments⟩ =>
    .obj [("id", id.toJson), ("target", ofOption ofWord target), ("name", name.toJson),
      ("arguments", .arr (Argument.listToJson arguments))]

def Attribute.listToJson : List Attribute → List Json
  | [] => []
  | first :: rest => first.toJson :: Attribute.listToJson rest

def Attribute.listsToJson : List (List Attribute) → List Json
  | [] => []
  | attributes :: rest =>
    .obj [("attributes", .arr (Attribute.listToJson attributes))] :: Attribute.listsToJson rest

def Parameter.toJson : Parameter → Json
  | ⟨id, attributes, modifiers, identifier, nullable, arrayRanks, asType, defaultValue⟩ =>
    .obj [("id", id.toJson), ("attributes", .arr (Attribute.listsToJson attributes)),
      ("modifiers", modifiersToJson modifiers), ("identifier", .str identifier),
      ("nullable", .bool nullable), ("array_ranks", ranksToJson arrayRanks),
      ("as_type", ofOption TypeSyntax.toJson asType), ("default", Expr.optionToJson defaultValue)]

def Parameter.listToJson : List Parameter → List Json
  | [] => []
  | parameter :: rest => parameter.toJson :: Parameter.listToJson rest

def DeclaredName.toJson : DeclaredName → Json
  | ⟨id, identifier, nullable, arrayBounds, arrayRanks⟩ =>
    .obj [("id", id.toJson), ("identifier", .str identifier), ("nullable", .bool nullable),
      ("array_bounds", Argument.optionToJson arrayBounds), ("array_ranks", ranksToJson arrayRanks)]

def DeclaredName.listToJson : List DeclaredName → List Json
  | [] => []
  | name :: rest => name.toJson :: DeclaredName.listToJson rest

def AsClause.toJson : AsClause → Json
  | .absent => .null
  | .simple attributes type =>
    ofVariant "Simple"
      [("attributes", .arr (Attribute.listsToJson attributes)), ("ty", type.toJson)]
  | .new creation => ofVariant "New" [("creation", creation.toJson)]

def Declarator.toJson : Declarator → Json
  | ⟨names, asClause, initializer⟩ =>
    .obj [("names", .arr (DeclaredName.listToJson names)), ("as_clause", asClause.toJson),
      ("initializer", Expr.optionToJson initializer)]

def Declarator.listToJson : List Declarator → List Json
  | [] => []
  | declarator :: rest => declarator.toJson :: Declarator.listToJson rest

/-- Writes a statement, its fields between its number and its comments. -/
def Statement.toJson : Statement → Json
  | ⟨id, kind, trivia⟩ => .obj (("id", id.toJson) :: kind.fields ++ [("trivia", trivia.toJson)])

def Statement.listToJson : List Statement → List Json
  | [] => []
  | statement :: rest => statement.toJson :: Statement.listToJson rest

def Statement.optionToJson : Option (List Statement) → Json
  | none => .null
  | some statements => .arr (Statement.listToJson statements)

def StatementKind.fields : StatementKind → List (String × Json)
  | .localDeclaration modifiers declarators =>
    [("kind", .str "LocalDeclaration"), ("modifiers", modifiersToJson modifiers),
      ("declarators", .arr (Declarator.listToJson declarators))]
  | .expression value => [("kind", .str "Expression"), ("expression", value.toJson)]
  | .call value => [("kind", .str "Call"), ("expression", value.toJson)]
  | .assignment operator left right =>
    [("kind", .str "Assignment"), ("operator", ofWord operator), ("left", left.toJson),
      ("right", right.toJson)]
  | .return value => [("kind", .str "Return"), ("expression", Expr.optionToJson value)]
  | .exit block => [("kind", .str "Exit"), ("block", ofWord block)]
  | .continue block => [("kind", .str "Continue"), ("block", ofWord block)]
  | .throw value => [("kind", .str "Throw"), ("expression", Expr.optionToJson value)]
  | .yield value => [("kind", .str "Yield"), ("expression", value.toJson)]
  | .raiseEvent name arguments =>
    [("kind", .str "RaiseEvent"), ("name", name.toJson),
      ("arguments", .arr (Argument.listToJson arguments))]
  | .addHandler event handler =>
    [("kind", .str "AddHandler"), ("event", event.toJson), ("handler", handler.toJson)]
  | .removeHandler event handler =>
    [("kind", .str "RemoveHandler"), ("event", event.toJson), ("handler", handler.toJson)]
  | .singleLineIf condition statements elseStatements =>
    [("kind", .str "SingleLineIf"), ("condition", condition.toJson),
      ("statements", .arr (Statement.listToJson statements)),
      ("else_statements", Statement.optionToJson elseStatements)]
  | .multiLineIf condition statements elseIfs elseStatements =>
    [("kind", .str "MultiLineIf"), ("condition", condition.toJson),
      ("statements", .arr (Statement.listToJson statements)),
      ("else_if_blocks", .arr (ElseIfBlock.listToJson elseIfs)),
      ("else_statements", Statement.optionToJson elseStatements)]
  | .for control start limit step statements =>
    [("kind", .str "For"), ("control", control.toJson), ("from", start.toJson),
      ("to", limit.toJson), ("step", Expr.optionToJson step),
      ("statements", .arr (Statement.listToJson statements))]
  | .forEach control items statements =>
    [("kind", .str "ForEach"), ("control", control.toJson), ("expression", items.toJson),
      ("statements", .arr (Statement.listToJson statements))]
  | .select subject cases =>
    [("kind", .str "Select"), ("expression", subject.toJson),
      ("case_blocks", .arr (CaseBlock.listToJson cases))]
  | .with target statements =>
    [("kind", .str "With"), ("expression", target.toJson),
      ("statements", .arr (Statement.listToJson statements))]
  | .try statements catches finallyStatements =>
    [("kind", .str "Try"), ("statements", .arr (Statement.listToJson statements)),
      ("catch_blocks", .arr (CatchBlock.listToJson catches)),
      ("finally_statements", Statement.optionToJson finallyStatements)]
  | .syncLock subject statements =>
    [("kind", .str "SyncLock"), ("expression", subject.toJson),
      ("statements", .arr (Statement.listToJson statements))]
  | .usingValue resource statements =>
    [("kind", .str "Using"),
      ("resource", ofVariant "Expression" [("expression", resource.toJson)]),
      ("statements", .arr (Statement.listToJson statements))]
  | .usingVariables resources statements =>
    [("kind", .str "Using"),
      ("resource", ofVariant "Variables" [("declarators", .arr (Declarator.listToJson resources))]),
      ("statements", .arr (Statement.listToJson statements))]
  | .while condition statements =>
    [("kind", .str "While"), ("condition", condition.toJson),
      ("statements", .arr (Statement.listToJson statements))]
  | .doLoop top bottom statements =>
    [("kind", .str "DoLoop"), ("top_condition", top.toJson), ("bottom_condition", bottom.toJson),
      ("statements", .arr (Statement.listToJson statements))]
  | .stop => [("kind", .str "Stop")]
  | .end => [("kind", .str "End")]
  | .onErrorGoTo target => [("kind", .str "OnErrorGoTo"), ("label", .str target)]
  | .onErrorResumeNext => [("kind", .str "OnErrorResumeNext")]
  | .resume target => [("kind", .str "Resume"), ("label", ofOption .str target)]
  | .reDim preserve clauses =>
    [("kind", .str "ReDim"), ("preserve", .bool preserve),
      ("clauses", .arr (Expr.listToJson clauses))]
  | .erase targets => [("kind", .str "Erase"), ("expressions", .arr (Expr.listToJson targets))]
  | .goTo target => [("kind", .str "GoTo"), ("label", .str target)]
  | .label name => [("kind", .str "Label"), ("label", .str name)]

def ElseIfBlock.toJson : ElseIfBlock → Json
  | ⟨condition, statements, trivia⟩ =>
    .obj [("condition", condition.toJson), ("statements", .arr (Statement.listToJson statements)),
      ("trivia", trivia.toJson)]

def ElseIfBlock.listToJson : List ElseIfBlock → List Json
  | [] => []
  | block :: rest => block.toJson :: ElseIfBlock.listToJson rest

def CaseClause.toJson : CaseClause → Json
  | .simple value => ofVariant "Simple" [("value", value.toJson)]
  | .relational operator value =>
    ofVariant "Relational" [("operator", ofWord operator), ("value", value.toJson)]
  | .range lower upper => ofVariant "Range" [("lower", lower.toJson), ("upper", upper.toJson)]
  | .else => ofVariant "Else" []

def CaseClause.listToJson : List CaseClause → List Json
  | [] => []
  | clause :: rest => clause.toJson :: CaseClause.listToJson rest

def CaseBlock.toJson : CaseBlock → Json
  | ⟨clauses, statements, trivia⟩ =>
    .obj [("clauses", .arr (CaseClause.listToJson clauses)),
      ("statements", .arr (Statement.listToJson statements)), ("trivia", trivia.toJson)]

def CaseBlock.listToJson : List CaseBlock → List Json
  | [] => []
  | block :: rest => block.toJson :: CaseBlock.listToJson rest

def CatchBlock.toJson : CatchBlock → Json
  | ⟨id, identifier, asType, filter, statements, trivia⟩ =>
    .obj [("id", id.toJson), ("identifier", ofOption .str identifier),
      ("as_type", ofOption TypeSyntax.toJson asType), ("filter", Expr.optionToJson filter),
      ("statements", .arr (Statement.listToJson statements)), ("trivia", trivia.toJson)]

def CatchBlock.listToJson : List CatchBlock → List Json
  | [] => []
  | block :: rest => block.toJson :: CatchBlock.listToJson rest

def LoopControl.toJson : LoopControl → Json
  | .declarator own => ofVariant "Declarator" [("declarator", own.toJson)]
  | .existing target => ofVariant "Variable" [("expression", target.toJson)]

def LoopTest.toJson : LoopTest → Json
  | .absent => .null
  | .present kind condition => .obj [("kind", ofWord kind), ("condition", condition.toJson)]

end

end Sharpen.Source
