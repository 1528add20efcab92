import Sharpen.Source.Declaration

/-!
# Renumbering source trees

The nodes of a source tree have numbers. `renumber f` gives every node a new number, which depends
on the old one, and leaves the rest of a tree as it is.
-/

namespace Sharpen.Source

variable (f : NodeId → NodeId)

/-! ## Names and types -/

mutual

def SimpleName.renumber : SimpleName → SimpleName
  | ⟨id, identifier, typeArguments⟩ => ⟨f id, identifier, TypeSyntax.listRenumber typeArguments⟩

def Name.renumber : Name → Name
  | .simple name => .simple name.renumber
  | .qualified id left right => .qualified (f id) left.renumber right.renumber
  | .global id => .global (f id)

def TypeSyntax.renumber : TypeSyntax → TypeSyntax
  | .predefined id keyword => .predefined (f id) keyword
  | .named name => .named name.renumber
  | .array id element ranks => .array (f id) element.renumber ranks
  | .nullable id element => .nullable (f id) element.renumber

def TypeSyntax.listRenumber : List TypeSyntax → List TypeSyntax
  | [] => []
  | type :: rest => type.renumber :: TypeSyntax.listRenumber rest

end

/-! ## Expressions and statements -/

mutual

def Expr.renumber : Expr → Expr
  | .literal id value => .literal (f id) value
  | .interpolated id contents => .interpolated (f id) (Content.listRenumber contents)
  | .name simple => .name (simple.renumber f)
  | .global id => .global (f id)
  | .predefinedType id keyword => .predefinedType (f id) keyword
  | .me id => .me (f id)
  | .myBase id => .myBase (f id)
  | .myClass id => .myClass (f id)
  | .memberAccess id receiver name =>
    .memberAccess (f id) (Expr.optionRenumber receiver) (name.renumber f)
  | .conditionalAccess id receiver whenNotNull =>
    .conditionalAccess (f id) receiver.renumber whenNotNull.renumber
  | .invocation id target arguments =>
    .invocation (f id) target.renumber (Argument.listRenumber arguments)
  | .objectCreation id type arguments initializer =>
    .objectCreation (f id) (type.renumber f) (Argument.optionRenumber arguments)
      initializer.renumber
  | .arrayCreation id elementType bounds ranks itemsId items =>
    .arrayCreation (f id) (elementType.renumber f) (Argument.optionRenumber bounds)
      ranks (f itemsId)
      (Expr.listRenumber items)
  | .collection id items => .collection (f id) (Expr.listRenumber items)
  | .binary id operator left right => .binary (f id) operator left.renumber right.renumber
  | .unary id operator operand => .unary (f id) operator operand.renumber
  | .parenthesized id operand => .parenthesized (f id) operand.renumber
  | .binaryConditional id first second => .binaryConditional (f id) first.renumber second.renumber
  | .ternaryConditional id condition whenTrue whenFalse =>
    .ternaryConditional (f id) condition.renumber whenTrue.renumber whenFalse.renumber
  | .cast id kind operand type => .cast (f id) kind operand.renumber (type.renumber f)
  | .predefinedCast id keyword operand => .predefinedCast (f id) keyword operand.renumber
  | .typeOf id operand type isNot => .typeOf (f id) operand.renumber (type.renumber f) isNot
  | .getType id type => .getType (f id) (type.renumber f)
  | .nameOf id argument => .nameOf (f id) argument.renumber
  | .await id operand => .await (f id) operand.renumber
  | .lambda id kind modifiers parameters asClause body =>
    .lambda (f id) kind modifiers (Parameter.listRenumber parameters)
      (asClause.map (TypeSyntax.renumber f)) body.renumber
  | .anonymousObject id fields => .anonymousObject (f id) (FieldValue.listRenumber fields)
  | .query id text => .query (f id) text
  | .xmlLiteral id text => .xmlLiteral (f id) text

def Expr.listRenumber : List Expr → List Expr
  | [] => []
  | value :: rest => value.renumber :: Expr.listRenumber rest

def Expr.optionRenumber : Option Expr → Option Expr
  | none => none
  | some value => some value.renumber

def Argument.renumber : Argument → Argument
  | .simple id name value => .simple (f id) name value.renumber
  | .omitted id => .omitted (f id)

def Argument.listRenumber : List Argument → List Argument
  | [] => []
  | argument :: rest => argument.renumber :: Argument.listRenumber rest

def Argument.optionRenumber : Option (List Argument) → Option (List Argument)
  | none => none
  | some arguments => some (Argument.listRenumber arguments)

def Content.renumber : Content → Content
  | .text text => .text text
  | .hole id value alignment format =>
    .hole (f id) value.renumber (Expr.optionRenumber alignment) format

def Content.listRenumber : List Content → List Content
  | [] => []
  | content :: rest => content.renumber :: Content.listRenumber rest

/-- What follows an object creation, with new numbers. -/
def Initializer.renumber : Initializer → Initializer
  | .absent => .absent
  | .collection id items => .collection (f id) (Expr.listRenumber items)
  | .members fields => .members (FieldValue.listRenumber fields)

def FieldValue.renumber : FieldValue → FieldValue
  | ⟨id, name, value⟩ => ⟨f id, name, value.renumber⟩

def FieldValue.listRenumber : List FieldValue → List FieldValue
  | [] => []
  | field :: rest => field.renumber :: FieldValue.listRenumber rest

def LambdaBody.renumber : LambdaBody → LambdaBody
  | .expression value => .expression value.renumber
  | .statement only => .statement only.renumber
  | .block statements => .block (Statement.listRenumber statements)

def Attribute.renumber : Attribute → Attribute
  | ⟨id, target, name, arguments⟩ =>
    ⟨f id, target, name.renumber f, Argument.listRenumber arguments⟩

def Attribute.listRenumber : List Attribute → List Attribute
  | [] => []
  | mark :: rest => mark.renumber :: Attribute.listRenumber rest

def Attribute.listsRenumber : List (List Attribute) → List (List Attribute)
  | [] => []
  | list :: rest => Attribute.listRenumber list :: Attribute.listsRenumber rest

def Parameter.renumber : Parameter → Parameter
  | ⟨id, attributes, modifiers, identifier, nullable, arrayRanks, asType, defaultValue⟩ =>
    ⟨f id, Attribute.listsRenumber attributes, modifiers, identifier, nullable, arrayRanks,
      asType.map (TypeSyntax.renumber f), Expr.optionRenumber defaultValue⟩

def Parameter.listRenumber : List Parameter → List Parameter
  | [] => []
  | parameter :: rest => parameter.renumber :: Parameter.listRenumber rest

def DeclaredName.renumber : DeclaredName → DeclaredName
  | ⟨id, identifier, nullable, arrayBounds, arrayRanks⟩ =>
    ⟨f id, identifier, nullable, Argument.optionRenumber arrayBounds, arrayRanks⟩

def DeclaredName.listRenumber : List DeclaredName → List DeclaredName
  | [] => []
  | name :: rest => name.renumber :: DeclaredName.listRenumber rest

def AsClause.renumber : AsClause → AsClause
  | .absent => .absent
  | .simple attributes type => .simple (Attribute.listsRenumber attributes) (type.renumber f)
  | .new creation => .new creation.renumber

def Declarator.renumber : Declarator → Declarator
  | ⟨names, asClause, initializer⟩ =>
    ⟨DeclaredName.listRenumber names, asClause.renumber, Expr.optionRenumber initializer⟩

def Declarator.listRenumber : List Declarator → List Declarator
  | [] => []
  | declarator :: rest => declarator.renumber :: Declarator.listRenumber rest

def Statement.renumber : Statement → Statement
  | ⟨id, kind, trivia⟩ => ⟨f id, kind.renumber, trivia⟩

def Statement.listRenumber : List Statement → List Statement
  | [] => []
  | statement :: rest => statement.renumber :: Statement.listRenumber rest

def Statement.optionRenumber : Option (List Statement) → Option (List Statement)
  | none => none
  | some statements => some (Statement.listRenumber statements)

def StatementKind.renumber : StatementKind → StatementKind
  | .localDeclaration modifiers declarators =>
    .localDeclaration modifiers (Declarator.listRenumber declarators)
  | .expression value => .expression value.renumber
  | .call value => .call value.renumber
  | .assignment operator left right => .assignment operator left.renumber right.renumber
  | .return value => .return (Expr.optionRenumber value)
  | .exit block => .exit block
  | .continue block => .continue block
  | .throw value => .throw (Expr.optionRenumber value)
  | .yield value => .yield value.renumber
  | .raiseEvent name arguments => .raiseEvent (name.renumber f) (Argument.listRenumber arguments)
  | .addHandler event handler => .addHandler event.renumber handler.renumber
  | .removeHandler event handler => .removeHandler event.renumber handler.renumber
  | .singleLineIf condition statements elseStatements =>
    .singleLineIf condition.renumber (Statement.listRenumber statements)
      (Statement.optionRenumber elseStatements)
  | .multiLineIf condition statements elseIfs elseStatements =>
    .multiLineIf condition.renumber (Statement.listRenumber statements)
      (ElseIfBlock.listRenumber elseIfs) (Statement.optionRenumber elseStatements)
  | .for control start limit step statements =>
    .for control.renumber start.renumber limit.renumber (Expr.optionRenumber step)
      (Statement.listRenumber statements)
  | .forEach control items statements =>
    .forEach control.renumber items.renumber (Statement.listRenumber statements)
  | .select subject cases => .select subject.renumber (CaseBlock.listRenumber cases)
  | .with target statements => .with target.renumber (Statement.listRenumber statements)
  | .try statements catches finallyStatements =>
    .try (Statement.listRenumber statements) (CatchBlock.listRenumber catches)
      (Statement.optionRenumber finallyStatements)
  | .syncLock subject statements => .syncLock subject.renumber (Statement.listRenumber statements)
  | .usingValue resource statements =>
    .usingValue resource.renumber (Statement.listRenumber statements)
  | .usingVariables resources statements =>
    .usingVariables (Declarator.listRenumber resources) (Statement.listRenumber statements)
  | .while condition statements => .while condition.renumber (Statement.listRenumber statements)
  | .doLoop top bottom statements =>
    .doLoop top.renumber bottom.renumber (Statement.listRenumber statements)
  | .stop => .stop
  | .end => .end
  | .onErrorGoTo label => .onErrorGoTo label
  | .onErrorResumeNext => .onErrorResumeNext
  | .resume label => .resume label
  | .reDim preserve clauses => .reDim preserve (Expr.listRenumber clauses)
  | .erase targets => .erase (Expr.listRenumber targets)
  | .goTo label => .goTo label
  | .label label => .label label

def ElseIfBlock.renumber : ElseIfBlock → ElseIfBlock
  | ⟨condition, statements, trivia⟩ =>
    ⟨condition.renumber, Statement.listRenumber statements, trivia⟩

def ElseIfBlock.listRenumber : List ElseIfBlock → List ElseIfBlock
  | [] => []
  | block :: rest => block.renumber :: ElseIfBlock.listRenumber rest

/-- What a `Case` compares with, with new numbers. -/
def CaseClause.renumber : CaseClause → CaseClause
  | .simple value => .simple value.renumber
  | .relational operator value => .relational operator value.renumber
  | .range lower upper => .range lower.renumber upper.renumber
  | .else => .else

def CaseClause.listRenumber : List CaseClause → List CaseClause
  | [] => []
  | clause :: rest => clause.renumber :: CaseClause.listRenumber rest

def CaseBlock.renumber : CaseBlock → CaseBlock
  | ⟨clauses, statements, trivia⟩ =>
    ⟨CaseClause.listRenumber clauses, Statement.listRenumber statements, trivia⟩

def CaseBlock.listRenumber : List CaseBlock → List CaseBlock
  | [] => []
  | block :: rest => block.renumber :: CaseBlock.listRenumber rest

def CatchBlock.renumber : CatchBlock → CatchBlock
  | ⟨id, identifier, asType, filter, statements, trivia⟩ =>
    ⟨f id, identifier, asType.map (TypeSyntax.renumber f), Expr.optionRenumber filter,
      Statement.listRenumber statements, trivia⟩

def CatchBlock.listRenumber : List CatchBlock → List CatchBlock
  | [] => []
  | block :: rest => block.renumber :: CatchBlock.listRenumber rest

/-- What a loop counts with, with new numbers. -/
def LoopControl.renumber : LoopControl → LoopControl
  | .declarator own => .declarator own.renumber
  | .existing target => .existing target.renumber

def LoopTest.renumber : LoopTest → LoopTest
  | .absent => .absent
  | .present kind condition => .present kind condition.renumber

end

/-! ## Declarations -/

def TypeConstraint.renumber : TypeConstraint → TypeConstraint
  | .new => .new
  | .class => .class
  | .structure => .structure
  | .type bound => .type (bound.renumber f)

def TypeParameter.renumber (parameter : TypeParameter) : TypeParameter :=
  { parameter with id := f parameter.id, constraints := parameter.constraints.map (.renumber f) }

/-- A clause that says what is given back, with new numbers. -/
def ResultClause.renumber (clause : ResultClause) : ResultClause :=
  ⟨Attribute.listsRenumber f clause.attributes, clause.type.renumber f⟩

def EnumMember.renumber (member : EnumMember) : EnumMember :=
  { member with
    id := f member.id
    attributes := Attribute.listsRenumber f member.attributes
    initializer := Expr.optionRenumber f member.initializer }

def Accessor.renumber (accessor : Accessor) : Accessor :=
  { accessor with
    id := f accessor.id
    attributes := Attribute.listsRenumber f accessor.attributes
    parameters := Parameter.listRenumber f accessor.parameters
    statements := Statement.listRenumber f accessor.statements }

mutual

def Declaration.renumber : Declaration → Declaration
  | ⟨id, kind, trivia⟩ => ⟨f id, kind.renumber, trivia⟩

def Declaration.listRenumber : List Declaration → List Declaration
  | [] => []
  | declaration :: rest => declaration.renumber :: Declaration.listRenumber rest

def DeclarationKind.renumber : DeclarationKind → DeclarationKind
  | .namespace name members => .namespace (name.renumber f) (Declaration.listRenumber members)
  | .type block attributes modifiers identifier typeParameters inherits implements members =>
    .type block (Attribute.listsRenumber f attributes) modifiers identifier
      (typeParameters.map (.renumber f)) (TypeSyntax.listRenumber f inherits)
      (TypeSyntax.listRenumber f implements) (Declaration.listRenumber members)
  | .enum attributes modifiers identifier underlyingType members =>
    .enum (Attribute.listsRenumber f attributes) modifiers identifier
      (underlyingType.map (.renumber f))
      (members.map (.renumber f))
  | .delegate kind attributes modifiers identifier typeParameters parameters result =>
    .delegate kind (Attribute.listsRenumber f attributes) modifiers identifier
      (typeParameters.map (.renumber f)) (Parameter.listRenumber f parameters)
        (result.map (.renumber f))
  | .field attributes modifiers declarators =>
    .field (Attribute.listsRenumber f attributes) modifiers (Declarator.listRenumber f declarators)
  | .property attributes modifiers identifier parameters asClause initializer accessors =>
    .property (Attribute.listsRenumber f attributes) modifiers identifier
      (Parameter.listRenumber f parameters)
      (asClause.renumber f) (Expr.optionRenumber f initializer)
        (accessors.map (List.map (.renumber f)))
  | .method kind attributes modifiers identifier typeParameters parameters result body =>
    .method kind (Attribute.listsRenumber f attributes) modifiers identifier
      (typeParameters.map (.renumber f))
      (Parameter.listRenumber f parameters) (result.map (.renumber f))
        (Statement.optionRenumber f body)
  | .constructor attributes modifiers parameters body =>
    .constructor (Attribute.listsRenumber f attributes) modifiers
      (Parameter.listRenumber f parameters)
      (Statement.listRenumber f body)
  | .operator attributes modifiers operator parameters result body =>
    .operator (Attribute.listsRenumber f attributes) modifiers operator
      (Parameter.listRenumber f parameters)
      (result.map (.renumber f)) (Statement.listRenumber f body)
  | .event attributes modifiers identifier parameters asType accessors =>
    .event (Attribute.listsRenumber f attributes) modifiers identifier
      (Parameter.listRenumber f parameters)
      (asType.map (.renumber f)) (accessors.map (List.map (.renumber f)))
  | .externalMethod identifier library => .externalMethod identifier library

end

def ImportsClause.renumber : ImportsClause → ImportsClause
  | .simple shortName name => .simple shortName (name.renumber f)
  | .xmlNamespace text => .xmlNamespace text

def CompilationUnit.renumber (unit : CompilationUnit) : CompilationUnit where
  id := f unit.id
  imports := unit.imports.map (.renumber f)
  attributes := Attribute.listsRenumber f unit.attributes
  members := Declaration.listRenumber f unit.members

end Sharpen.Source
