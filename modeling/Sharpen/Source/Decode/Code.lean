import Sharpen.Comment.Json
import Sharpen.Source.Tree

/-!
# Reading source code from JSON

One reader for each type of node. A node with several shapes says in its field `kind` which one it
has; the fields of a statement stand beside its number and its comments and are set aside. The
readers of expressions and statements call each other and end because every value they pass on
stands inside the one they read.
-/

namespace Sharpen.Source

open Json (Given readRecord readObject readVariant)
open Json.Given Json.Reader

def NodeId.read? (given : Given) : Option NodeId :=
  given.uint32?

/-- Reads the value of a literal: a field `type` and, unless it is `Nothing`, a field `value`. -/
def Literal.read? (given : Given) : Option Literal :=
  readRecord given <| choose "type" [
    ("Nothing", do
      empty "value"
      return .nothing),
    ("Boolean", do return .boolean (← value "value" bool?)),
    ("Numeric", do return .numeric (← value "value" str?)),
    ("String", do return .string (← value "value" str?)),
    ("Char", do return .char (← value "value" char?)),
    ("Date", do return .date (← value "value" str?))]

mutual

def SimpleName.read? (given : Given) : Option SimpleName :=
  readRecord given do
    let id ← value "id" NodeId.read?
    let identifier ← value "identifier" str?
    let typeArguments ← (← itemsD "type_arguments").mapM fun part => TypeSyntax.read? part.1
    return { id, identifier, typeArguments }
termination_by sizeOf given.json
decreasing_by exact Part.sizeOf_lt _

def Name.read? (given : Given) : Option Name :=
  readVariant given [
    ("Simple", do
      let id ← value "id" NodeId.read?
      let identifier ← value "identifier" str?
      let typeArguments ← (← itemsD "type_arguments").mapM fun part => TypeSyntax.read? part.1
      return .simple { id, identifier, typeArguments }),
    ("Qualified", do
      let id ← value "id" NodeId.read?
      let left ← Name.read? (← required "left").1
      let right ← SimpleName.read? (← required "right").1
      return .qualified id left right),
    ("Global", do return .global (← value "id" NodeId.read?))]
termination_by sizeOf given.json
decreasing_by all_goals exact Part.sizeOf_lt _

def TypeSyntax.read? (given : Given) : Option TypeSyntax :=
  readVariant given [
    ("Predefined", do
      let id ← value "id" NodeId.read?
      return .predefined id (← value "keyword" word?)),
    ("Named", do return .named (← Name.read? (← required "name").1)),
    ("Array", do
      let id ← value "id" NodeId.read?
      let element ← TypeSyntax.read? (← required "element").1
      return .array id element (← value "ranks" (list? uint32?))),
    ("Nullable", do
      let id ← value "id" NodeId.read?
      return .nullable id (← TypeSyntax.read? (← required "element").1))]
termination_by sizeOf given.json
decreasing_by all_goals exact Part.sizeOf_lt _

end

mutual

def Expr.read? (given : Given) : Option Expr :=
  readVariant given [
    ("Literal", do
      let id ← value "id" NodeId.read?
      return .literal id (← value "value" Literal.read?)),
    ("InterpolatedString", do
      let id ← value "id" NodeId.read?
      return .interpolated id (← (← items "contents").mapM fun part => Content.read? part.1)),
    ("Name", do
      let id ← value "id" NodeId.read?
      let identifier ← value "identifier" str?
      let typeArguments ← valueD "type_arguments" [] (list? TypeSyntax.read?)
      return .name { id, identifier, typeArguments }),
    ("Global", do return .global (← value "id" NodeId.read?)),
    ("PredefinedType", do
      let id ← value "id" NodeId.read?
      return .predefinedType id (← value "keyword" word?)),
    ("Me", do return .me (← value "id" NodeId.read?)),
    ("MyBase", do return .myBase (← value "id" NodeId.read?)),
    ("MyClass", do return .myClass (← value "id" NodeId.read?)),
    ("MemberAccess", do
      let id ← value "id" NodeId.read?
      let receiver ← (← optional "expression").mapM fun part => Expr.read? part.1
      return .memberAccess id receiver (← value "name" SimpleName.read?)),
    ("ConditionalAccess", do
      let id ← value "id" NodeId.read?
      let receiver ← Expr.read? (← required "expression").1
      return .conditionalAccess id receiver (← Expr.read? (← required "when_not_null").1)),
    ("Invocation", do
      let id ← value "id" NodeId.read?
      let target ← Expr.read? (← required "expression").1
      return .invocation id target (← (← itemsD "arguments").mapM fun part =>
        Argument.read? part.1)),
    ("ObjectCreation", do
      let id ← value "id" NodeId.read?
      let type ← value "ty" TypeSyntax.read?
      let arguments ← (← items? "arguments").mapM fun parts =>
        parts.mapM fun part => Argument.read? part.1
      match ← optional "initializer" with
      | none => return .objectCreation id type arguments .absent
      | some part => return .objectCreation id type arguments (← Initializer.read? part.1)),
    ("ArrayCreation", do
      let id ← value "id" NodeId.read?
      let elementType ← value "element_type" TypeSyntax.read?
      let bounds ← (← items? "bounds").mapM fun parts =>
        parts.mapM fun part => Argument.read? part.1
      let ranks ← valueD "rank_specifiers" [] (list? uint32?)
      let (itemsId, items) ← readCollection? (← required "initializer").1
      return .arrayCreation id elementType bounds ranks itemsId items),
    ("CollectionInitializer", do
      let id ← value "id" NodeId.read?
      return .collection id (← (← itemsD "initializers").mapM fun part => Expr.read? part.1)),
    ("Binary", do
      let id ← value "id" NodeId.read?
      let operator ← value "operator" word?
      let left ← Expr.read? (← required "left").1
      return .binary id operator left (← Expr.read? (← required "right").1)),
    ("Unary", do
      let id ← value "id" NodeId.read?
      let operator ← value "operator" word?
      return .unary id operator (← Expr.read? (← required "operand").1)),
    ("Parenthesized", do
      let id ← value "id" NodeId.read?
      return .parenthesized id (← Expr.read? (← required "expression").1)),
    ("BinaryConditional", do
      let id ← value "id" NodeId.read?
      let first ← Expr.read? (← required "first").1
      return .binaryConditional id first (← Expr.read? (← required "second").1)),
    ("TernaryConditional", do
      let id ← value "id" NodeId.read?
      let condition ← Expr.read? (← required "condition").1
      let whenTrue ← Expr.read? (← required "when_true").1
      return .ternaryConditional id condition whenTrue (← Expr.read? (← required "when_false").1)),
    ("Cast", do
      let id ← value "id" NodeId.read?
      let kind ← value "cast_kind" word?
      let operand ← Expr.read? (← required "expression").1
      return .cast id kind operand (← value "ty" TypeSyntax.read?)),
    ("PredefinedCast", do
      let id ← value "id" NodeId.read?
      let keyword ← value "keyword" word?
      return .predefinedCast id keyword (← Expr.read? (← required "expression").1)),
    ("TypeOf", do
      let id ← value "id" NodeId.read?
      let operand ← Expr.read? (← required "expression").1
      let type ← value "ty" TypeSyntax.read?
      return .typeOf id operand type (← valueD "is_not" false bool?)),
    ("GetType", do
      let id ← value "id" NodeId.read?
      return .getType id (← value "ty" TypeSyntax.read?)),
    ("NameOf", do
      let id ← value "id" NodeId.read?
      return .nameOf id (← Expr.read? (← required "argument").1)),
    ("Await", do
      let id ← value "id" NodeId.read?
      return .await id (← Expr.read? (← required "expression").1)),
    ("Lambda", do
      let id ← value "id" NodeId.read?
      let kind ← value "method_kind" word?
      let modifiers ← valueD "modifiers" [] (list? word?)
      let parameters ← (← itemsD "parameters").mapM fun part => Parameter.read? part.1
      let asClause ← value? "as_clause" TypeSyntax.read?
      return .lambda id kind modifiers parameters asClause
        (← LambdaBody.read? (← required "body").1)),
    ("AnonymousObjectCreation", do
      let id ← value "id" NodeId.read?
      return .anonymousObject id (← (← items "fields").mapM fun part => FieldValue.read? part.1)),
    ("Query", do
      let id ← value "id" NodeId.read?
      return .query id (← value "text" str?)),
    ("XmlLiteral", do
      let id ← value "id" NodeId.read?
      return .xmlLiteral id (← value "text" str?))]
termination_by (sizeOf given.json, 0)
decreasing_by all_goals exact Prod.Lex.left _ _ (Part.sizeOf_lt _)

def readCollection? (given : Given) : Option (NodeId × List Expr) :=
  readRecord given do
    let id ← value "id" NodeId.read?
    return (id, ← (← itemsD "initializers").mapM fun part => Expr.read? part.1)
termination_by (sizeOf given.json, 0)
decreasing_by all_goals exact Prod.Lex.left _ _ (Part.sizeOf_lt _)

def Argument.read? (given : Given) : Option Argument :=
  readVariant given [
    ("Simple", do
      let id ← value "id" NodeId.read?
      let name ← value? "name" str?
      return .simple id name (← Expr.read? (← required "expression").1)),
    ("Omitted", do return .omitted (← value "id" NodeId.read?))]
termination_by (sizeOf given.json, 0)
decreasing_by all_goals exact Prod.Lex.left _ _ (Part.sizeOf_lt _)

def Content.read? (given : Given) : Option Content :=
  readVariant given [
    ("Text", do return .text (← value "text" str?)),
    ("Interpolation", do
      let id ← value "id" NodeId.read?
      let hole ← Expr.read? (← required "expression").1
      let alignment ← (← optional "alignment").mapM fun part => Expr.read? part.1
      return .hole id hole alignment (← value? "format" str?))]
termination_by (sizeOf given.json, 0)
decreasing_by all_goals exact Prod.Lex.left _ _ (Part.sizeOf_lt _)

def Initializer.read? (given : Given) : Option Initializer :=
  readVariant given [
    ("Collection", do
      let (id, items) ← readCollection? (← required "initializer").1
      return .collection id items),
    ("Members", do return .members (← (← items "fields").mapM fun part => FieldValue.read? part.1))]
termination_by (sizeOf given.json, 0)
decreasing_by all_goals exact Prod.Lex.left _ _ (Part.sizeOf_lt _)

def FieldValue.read? (given : Given) : Option FieldValue :=
  readRecord given do
    let id ← value "id" NodeId.read?
    let name ← value "name" str?
    return { id, name, value := ← Expr.read? (← required "expression").1 }
termination_by (sizeOf given.json, 0)
decreasing_by all_goals exact Prod.Lex.left _ _ (Part.sizeOf_lt _)

def LambdaBody.read? (given : Given) : Option LambdaBody :=
  readVariant given [
    ("Expression", do return .expression (← Expr.read? (← required "expression").1)),
    ("Statement", do return .statement (← Statement.read? (← required "statement").1)),
    ("Block", do return .block (← (← items "statements").mapM fun part => Statement.read? part.1))]
termination_by (sizeOf given.json, 0)
decreasing_by all_goals exact Prod.Lex.left _ _ (Part.sizeOf_lt _)

def Attribute.read? (given : Given) : Option Attribute :=
  readRecord given do
    let id ← value "id" NodeId.read?
    let target ← value? "target" word?
    let name ← value "name" Name.read?
    let arguments ← (← itemsD "arguments").mapM fun part => Argument.read? part.1
    return { id, target, name, arguments }
termination_by (sizeOf given.json, 0)
decreasing_by all_goals exact Prod.Lex.left _ _ (Part.sizeOf_lt _)

def readAttributes? (given : Given) : Option (List Attribute) :=
  readRecord given do
    (← items "attributes").mapM fun part => Attribute.read? part.1
termination_by (sizeOf given.json, 0)
decreasing_by all_goals exact Prod.Lex.left _ _ (Part.sizeOf_lt _)

def Parameter.read? (given : Given) : Option Parameter :=
  readRecord given do
    let id ← value "id" NodeId.read?
    let attributes ← (← itemsD "attributes").mapM fun part => readAttributes? part.1
    let modifiers ← valueD "modifiers" [] (list? word?)
    let identifier ← value "identifier" str?
    let nullable ← valueD "nullable" false bool?
    let arrayRanks ← valueD "array_ranks" [] (list? uint32?)
    let asType ← value? "as_type" TypeSyntax.read?
    let defaultValue ← (← optional "default").mapM fun part => Expr.read? part.1
    return { id, attributes, modifiers, identifier, nullable, arrayRanks, asType, defaultValue }
termination_by (sizeOf given.json, 0)
decreasing_by all_goals exact Prod.Lex.left _ _ (Part.sizeOf_lt _)

def DeclaredName.read? (given : Given) : Option DeclaredName :=
  readRecord given do
    let id ← value "id" NodeId.read?
    let identifier ← value "identifier" str?
    let nullable ← valueD "nullable" false bool?
    let arrayBounds ← (← items? "array_bounds").mapM fun parts =>
      parts.mapM fun part => Argument.read? part.1
    let arrayRanks ← valueD "array_ranks" [] (list? uint32?)
    return { id, identifier, nullable, arrayBounds, arrayRanks }
termination_by (sizeOf given.json, 0)
decreasing_by all_goals exact Prod.Lex.left _ _ (Part.sizeOf_lt _)

def AsClause.read? (given : Given) : Option AsClause :=
  readVariant given [
    ("Simple", do
      let attributes ← (← itemsD "attributes").mapM fun part => readAttributes? part.1
      return .simple attributes (← value "ty" TypeSyntax.read?)),
    ("New", do return .new (← Expr.read? (← required "creation").1))]
termination_by (sizeOf given.json, 0)
decreasing_by all_goals exact Prod.Lex.left _ _ (Part.sizeOf_lt _)

def Declarator.read? (given : Given) : Option Declarator :=
  readRecord given do
    let names ← (← items "names").mapM fun part => DeclaredName.read? part.1
    let asClause ← (← optional "as_clause").mapM fun part => AsClause.read? part.1
    let initializer ← (← optional "initializer").mapM fun part => Expr.read? part.1
    return { names, asClause := asClause.getD .absent, initializer }
termination_by (sizeOf given.json, 0)
decreasing_by all_goals exact Prod.Lex.left _ _ (Part.sizeOf_lt _)

def ElseIfBlock.read? (given : Given) : Option ElseIfBlock :=
  readRecord given do
    let condition ← Expr.read? (← required "condition").1
    let statements ← (← itemsD "statements").mapM fun part => Statement.read? part.1
    let trivia ← valueD "trivia" {} Trivia.read?
    return { condition, statements, trivia }
termination_by (sizeOf given.json, 0)
decreasing_by all_goals exact Prod.Lex.left _ _ (Part.sizeOf_lt _)

def CaseClause.read? (given : Given) : Option CaseClause :=
  readVariant given [
    ("Simple", do return .simple (← Expr.read? (← required "value").1)),
    ("Relational", do
      let operator ← value "operator" word?
      return .relational operator (← Expr.read? (← required "value").1)),
    ("Range", do
      let lower ← Expr.read? (← required "lower").1
      return .range lower (← Expr.read? (← required "upper").1)),
    ("Else", do return .else)]
termination_by (sizeOf given.json, 0)
decreasing_by all_goals exact Prod.Lex.left _ _ (Part.sizeOf_lt _)

def CaseBlock.read? (given : Given) : Option CaseBlock :=
  readRecord given do
    let clauses ← (← items "clauses").mapM fun part => CaseClause.read? part.1
    let statements ← (← itemsD "statements").mapM fun part => Statement.read? part.1
    let trivia ← valueD "trivia" {} Trivia.read?
    return { clauses, statements, trivia }
termination_by (sizeOf given.json, 0)
decreasing_by all_goals exact Prod.Lex.left _ _ (Part.sizeOf_lt _)

def CatchBlock.read? (given : Given) : Option CatchBlock :=
  readRecord given do
    let id ← value "id" NodeId.read?
    let identifier ← value? "identifier" str?
    let asType ← value? "as_type" TypeSyntax.read?
    let filter ← (← optional "filter").mapM fun part => Expr.read? part.1
    let statements ← (← itemsD "statements").mapM fun part => Statement.read? part.1
    let trivia ← valueD "trivia" {} Trivia.read?
    return { id, identifier, asType, filter, statements, trivia }
termination_by (sizeOf given.json, 0)
decreasing_by all_goals exact Prod.Lex.left _ _ (Part.sizeOf_lt _)

def LoopControl.read? (given : Given) : Option LoopControl :=
  readVariant given [
    ("Declarator", do return .declarator (← Declarator.read? (← required "declarator").1)),
    ("Variable", do return .existing (← Expr.read? (← required "expression").1))]
termination_by (sizeOf given.json, 0)
decreasing_by all_goals exact Prod.Lex.left _ _ (Part.sizeOf_lt _)

def LoopTest.read? (given : Given) : Option LoopTest :=
  readRecord given do
    let kind ← value "kind" word?
    return .present kind (← Expr.read? (← required "condition").1)
termination_by (sizeOf given.json, 0)
decreasing_by all_goals exact Prod.Lex.left _ _ (Part.sizeOf_lt _)

/-- Reads the resource of a `Using` block together with the block's statements. -/
def readUsing? (given : Given) (statements : List Statement) : Option StatementKind :=
  readVariant given [
    ("Expression", do return .usingValue (← Expr.read? (← required "expression").1) statements),
    ("Variables", do
      let declarators ← (← items "declarators").mapM fun part => Declarator.read? part.1
      return .usingVariables declarators statements)]
termination_by (sizeOf given.json, 0)
decreasing_by all_goals exact Prod.Lex.left _ _ (Part.sizeOf_lt _)

def Statement.read? (given : Given) : Option Statement :=
  readObject given do
    let id ← value "id" NodeId.read?
    unless given.canBeCopiedBeside ["id", "trivia"] do refuse
    let kind ← StatementKind.read? given.copied
    let trivia ← valueD "trivia" {} Trivia.read?
    return { id, kind, trivia }
termination_by (sizeOf given.json, 1)
decreasing_by all_goals exact Prod.Lex.right _ (Nat.lt_succ_self _)

def StatementKind.read? (given : Given) : Option StatementKind :=
  readVariant given [
    ("LocalDeclaration", do
      let modifiers ← value "modifiers" (list? word?)
      let declarators ← (← items "declarators").mapM fun part => Declarator.read? part.1
      return .localDeclaration modifiers declarators),
    ("Expression", do return .expression (← Expr.read? (← required "expression").1)),
    ("Call", do return .call (← Expr.read? (← required "expression").1)),
    ("Assignment", do
      let operator ← value "operator" word?
      let left ← Expr.read? (← required "left").1
      return .assignment operator left (← Expr.read? (← required "right").1)),
    ("Return", do
      return .return (← (← optional "expression").mapM fun part => Expr.read? part.1)),
    ("Exit", do return .exit (← value "block" word?)),
    ("Continue", do return .continue (← value "block" word?)),
    ("Throw", do
      return .throw (← (← optional "expression").mapM fun part => Expr.read? part.1)),
    ("Yield", do return .yield (← Expr.read? (← required "expression").1)),
    ("RaiseEvent", do
      let name ← value "name" SimpleName.read?
      return .raiseEvent name (← (← itemsD "arguments").mapM fun part => Argument.read? part.1)),
    ("AddHandler", do
      let event ← Expr.read? (← required "event").1
      return .addHandler event (← Expr.read? (← required "handler").1)),
    ("RemoveHandler", do
      let event ← Expr.read? (← required "event").1
      return .removeHandler event (← Expr.read? (← required "handler").1)),
    ("SingleLineIf", do
      let condition ← Expr.read? (← required "condition").1
      let statements ← (← items "statements").mapM fun part => Statement.read? part.1
      let elseStatements ← (← items? "else_statements").mapM fun parts =>
        parts.mapM fun part => Statement.read? part.1
      return .singleLineIf condition statements elseStatements),
    ("MultiLineIf", do
      let condition ← Expr.read? (← required "condition").1
      let statements ← (← itemsD "statements").mapM fun part => Statement.read? part.1
      let elseIfs ← (← itemsD "else_if_blocks").mapM fun part => ElseIfBlock.read? part.1
      let elseStatements ← (← items? "else_statements").mapM fun parts =>
        parts.mapM fun part => Statement.read? part.1
      return .multiLineIf condition statements elseIfs elseStatements),
    ("For", do
      let control ← LoopControl.read? (← required "control").1
      let start ← Expr.read? (← required "from").1
      let limit ← Expr.read? (← required "to").1
      let step ← (← optional "step").mapM fun part => Expr.read? part.1
      let statements ← (← itemsD "statements").mapM fun part => Statement.read? part.1
      return .for control start limit step statements),
    ("ForEach", do
      let control ← LoopControl.read? (← required "control").1
      let source ← Expr.read? (← required "expression").1
      let statements ← (← itemsD "statements").mapM fun part => Statement.read? part.1
      return .forEach control source statements),
    ("Select", do
      let subject ← Expr.read? (← required "expression").1
      return .select subject (← (← items "case_blocks").mapM fun part => CaseBlock.read? part.1)),
    ("With", do
      let target ← Expr.read? (← required "expression").1
      return .with target (← (← itemsD "statements").mapM fun part => Statement.read? part.1)),
    ("Try", do
      let statements ← (← itemsD "statements").mapM fun part => Statement.read? part.1
      let catches ← (← itemsD "catch_blocks").mapM fun part => CatchBlock.read? part.1
      let finallyStatements ← (← items? "finally_statements").mapM fun parts =>
        parts.mapM fun part => Statement.read? part.1
      return .try statements catches finallyStatements),
    ("SyncLock", do
      let subject ← Expr.read? (← required "expression").1
      return .syncLock subject (← (← itemsD "statements").mapM fun part => Statement.read? part.1)),
    ("Using", do
      let resource ← required "resource"
      let statements ← (← itemsD "statements").mapM fun part => Statement.read? part.1
      readUsing? resource.1 statements),
    ("While", do
      let condition ← Expr.read? (← required "condition").1
      return .while condition (← (← itemsD "statements").mapM fun part => Statement.read? part.1)),
    ("DoLoop", do
      let top ← (← optional "top_condition").mapM fun part => LoopTest.read? part.1
      let bottom ← (← optional "bottom_condition").mapM fun part => LoopTest.read? part.1
      let statements ← (← itemsD "statements").mapM fun part => Statement.read? part.1
      return .doLoop (top.getD .absent) (bottom.getD .absent) statements),
    ("Stop", do return .stop),
    ("End", do return .end),
    ("OnErrorGoTo", do return .onErrorGoTo (← value "label" str?)),
    ("OnErrorResumeNext", do return .onErrorResumeNext),
    ("Resume", do return .resume (← value? "label" str?)),
    ("ReDim", do
      let preserve ← value "preserve" bool?
      return .reDim preserve (← (← items "clauses").mapM fun part => Expr.read? part.1)),
    ("Erase", do return .erase (← (← items "expressions").mapM fun part => Expr.read? part.1)),
    ("GoTo", do return .goTo (← value "label" str?)),
    ("Label", do return .label (← value "label" str?))]
termination_by (sizeOf given.json, 0)
decreasing_by all_goals exact Prod.Lex.left _ _ (Part.sizeOf_lt _)

end

/-! ## Whole values -/

def NodeId.ofJson? (json : Json) : Option NodeId :=
  NodeId.read? { json }

def Literal.ofJson? (json : Json) : Option Literal :=
  Literal.read? { json }

def Name.ofJson? (json : Json) : Option Name :=
  Name.read? { json }

def TypeSyntax.ofJson? (json : Json) : Option TypeSyntax :=
  TypeSyntax.read? { json }

def Expr.ofJson? (json : Json) : Option Expr :=
  Expr.read? { json }

def Argument.ofJson? (json : Json) : Option Argument :=
  Argument.read? { json }

def Parameter.ofJson? (json : Json) : Option Parameter :=
  Parameter.read? { json }

def Declarator.ofJson? (json : Json) : Option Declarator :=
  Declarator.read? { json }

def Statement.ofJson? (json : Json) : Option Statement :=
  Statement.read? { json }

def StatementKind.ofJson? (json : Json) : Option StatementKind :=
  StatementKind.read? { json }

end Sharpen.Source
