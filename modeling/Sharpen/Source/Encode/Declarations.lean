import Sharpen.Source.Declaration
import Sharpen.Source.Encode.Code

/-!
# Writing source declarations as JSON

The inverse of the readers of declarations; every field is written.
-/

namespace Sharpen.Source

open Json

def attributeListsToJson (attributes : List (List Attribute)) : Json :=
  .arr (Attribute.listsToJson attributes)

def parametersToJson (parameters : List Parameter) : Json :=
  .arr (Parameter.listToJson parameters)

def statementsToJson (statements : List Statement) : Json :=
  .arr (Statement.listToJson statements)

def TypeConstraint.toJson : TypeConstraint → Json
  | .new => ofVariant "New" []
  | .class => ofVariant "Class" []
  | .structure => ofVariant "Structure" []
  | .type bound => ofVariant "Type" [("ty", bound.toJson)]

def TypeParameter.toJson (parameter : TypeParameter) : Json :=
  .obj [("id", parameter.id.toJson), ("identifier", .str parameter.identifier),
    ("variance", ofOption ofWord parameter.variance),
    ("constraints", .arr (parameter.constraints.map TypeConstraint.toJson))]

def typeParametersToJson (parameters : List TypeParameter) : Json :=
  .arr (parameters.map TypeParameter.toJson)

def ResultClause.toJson (clause : ResultClause) : Json :=
  .obj [("attributes", attributeListsToJson clause.attributes), ("ty", clause.type.toJson)]

def EnumMember.toJson (member : EnumMember) : Json :=
  .obj [("id", member.id.toJson), ("attributes", attributeListsToJson member.attributes),
    ("identifier", .str member.identifier),
    ("initializer", ofOption Expr.toJson member.initializer), ("trivia", member.trivia.toJson)]

def Accessor.toJson (accessor : Accessor) : Json :=
  .obj [("id", accessor.id.toJson), ("kind", ofWord accessor.kind),
    ("attributes", attributeListsToJson accessor.attributes),
    ("modifiers", modifiersToJson accessor.modifiers),
    ("parameters", parametersToJson accessor.parameters),
    ("statements", statementsToJson accessor.statements), ("trivia", accessor.trivia.toJson)]

def accessorsToJson (accessors : List Accessor) : Json :=
  .arr (accessors.map Accessor.toJson)

mutual

/-- Writes a declaration, its fields between its number and its comments. -/
def Declaration.toJson : Declaration → Json
  | ⟨id, kind, trivia⟩ => .obj (("id", id.toJson) :: kind.fields ++ [("trivia", trivia.toJson)])

def Declaration.listToJson : List Declaration → List Json
  | [] => []
  | declaration :: rest => declaration.toJson :: Declaration.listToJson rest

def DeclarationKind.fields : DeclarationKind → List (String × Json)
  | .namespace name members =>
    [("kind", .str "Namespace"), ("name", name.toJson),
      ("members", .arr (Declaration.listToJson members))]
  | .type block attributes modifiers identifier typeParameters inherits implements members =>
    [("kind", .str "Type"), ("block", ofWord block),
      ("attributes", attributeListsToJson attributes), ("modifiers", modifiersToJson modifiers),
      ("identifier", .str identifier), ("type_parameters", typeParametersToJson typeParameters),
      ("inherits", .arr (TypeSyntax.listToJson inherits)),
      ("implements", .arr (TypeSyntax.listToJson implements)),
      ("members", .arr (Declaration.listToJson members))]
  | .enum attributes modifiers identifier underlyingType members =>
    [("kind", .str "Enum"), ("attributes", attributeListsToJson attributes),
      ("modifiers", modifiersToJson modifiers), ("identifier", .str identifier),
      ("underlying_type", ofOption ResultClause.toJson underlyingType),
      ("members", .arr (members.map EnumMember.toJson))]
  | .delegate kind attributes modifiers identifier typeParameters parameters result =>
    [("kind", .str "Delegate"), ("method_kind", ofWord kind),
      ("attributes", attributeListsToJson attributes), ("modifiers", modifiersToJson modifiers),
      ("identifier", .str identifier), ("type_parameters", typeParametersToJson typeParameters),
      ("parameters", parametersToJson parameters),
        ("as_clause", ofOption ResultClause.toJson result)]
  | .field attributes modifiers declarators =>
    [("kind", .str "Field"), ("attributes", attributeListsToJson attributes),
      ("modifiers", modifiersToJson modifiers),
      ("declarators", .arr (Declarator.listToJson declarators))]
  | .property attributes modifiers identifier parameters asClause initializer accessors =>
    [("kind", .str "Property"), ("attributes", attributeListsToJson attributes),
      ("modifiers", modifiersToJson modifiers), ("identifier", .str identifier),
      ("parameters", parametersToJson parameters), ("as_clause", asClause.toJson),
      ("initializer", ofOption Expr.toJson initializer),
      ("accessors", ofOption accessorsToJson accessors)]
  | .method kind attributes modifiers identifier typeParameters parameters result body =>
    [("kind", .str "Method"), ("method_kind", ofWord kind),
      ("attributes", attributeListsToJson attributes), ("modifiers", modifiersToJson modifiers),
      ("identifier", .str identifier), ("type_parameters", typeParametersToJson typeParameters),
      ("parameters", parametersToJson parameters),
      ("as_clause", ofOption ResultClause.toJson result), ("body", ofOption statementsToJson body)]
  | .constructor attributes modifiers parameters body =>
    [("kind", .str "Constructor"), ("attributes", attributeListsToJson attributes),
      ("modifiers", modifiersToJson modifiers), ("parameters", parametersToJson parameters),
      ("body", statementsToJson body)]
  | .operator attributes modifiers token parameters result body =>
    [("kind", .str "Operator"), ("attributes", attributeListsToJson attributes),
      ("modifiers", modifiersToJson modifiers), ("operator", ofWord token),
      ("parameters", parametersToJson parameters),
      ("as_clause", ofOption ResultClause.toJson result), ("body", statementsToJson body)]
  | .event attributes modifiers identifier parameters asType accessors =>
    [("kind", .str "Event"), ("attributes", attributeListsToJson attributes),
      ("modifiers", modifiersToJson modifiers), ("identifier", .str identifier),
      ("parameters", parametersToJson parameters), ("as_type", ofOption TypeSyntax.toJson asType),
      ("accessors", ofOption accessorsToJson accessors)]
  | .externalMethod identifier library =>
    [("kind", .str "ExternalMethod"), ("identifier", .str identifier), ("library", .str library)]

end

def ImportsClause.toJson : ImportsClause → Json
  | .simple shortName name =>
    ofVariant "Simple" [("alias", ofOption .str shortName), ("name", name.toJson)]
  | .xmlNamespace text => ofVariant "XmlNamespace" [("text", .str text)]

def CompilationUnit.toJson (unit : CompilationUnit) : Json :=
  .obj [("id", unit.id.toJson), ("imports", .arr (unit.imports.map ImportsClause.toJson)),
    ("attributes", attributeListsToJson unit.attributes),
    ("members", .arr (Declaration.listToJson unit.members))]

end Sharpen.Source
