import Sharpen.Source.Decode.Code
import Sharpen.Source.Declaration

/-!
# Reading source declarations from JSON

The readers of declarations, and of the compilation unit that holds them. The fields of a
declaration stand beside its number and its comments.
-/

namespace Sharpen.Source

open Json (Given readRecord readObject readVariant)
open Json.Given Json.Reader

def readAttributeLists? : Given → Option (List (List Attribute)) :=
  list? readAttributes?

def TypeConstraint.read? (given : Given) : Option TypeConstraint :=
  readVariant given [
    ("New", do return .new),
    ("Class", do return .class),
    ("Structure", do return .structure),
    ("Type", do return .type (← value "ty" TypeSyntax.read?))]

def TypeParameter.read? (given : Given) : Option TypeParameter :=
  readRecord given do
    let id ← value "id" NodeId.read?
    let identifier ← value "identifier" str?
    let variance ← value? "variance" word?
    let constraints ← valueD "constraints" [] (list? TypeConstraint.read?)
    return { id, identifier, variance, constraints }

def ResultClause.read? (given : Given) : Option ResultClause :=
  readRecord given do
    let attributes ← valueD "attributes" [] readAttributeLists?
    return { attributes, type := ← value "ty" TypeSyntax.read? }

def EnumMember.read? (given : Given) : Option EnumMember :=
  readRecord given do
    let id ← value "id" NodeId.read?
    let attributes ← valueD "attributes" [] readAttributeLists?
    let identifier ← value "identifier" str?
    let initializer ← value? "initializer" Expr.read?
    let trivia ← valueD "trivia" {} Trivia.read?
    return { id, attributes, identifier, initializer, trivia }

def Accessor.read? (given : Given) : Option Accessor :=
  readRecord given do
    let id ← value "id" NodeId.read?
    let kind ← value "kind" word?
    let attributes ← valueD "attributes" [] readAttributeLists?
    let modifiers ← valueD "modifiers" [] (list? word?)
    let parameters ← valueD "parameters" [] (list? Parameter.read?)
    let statements ← valueD "statements" [] (list? Statement.read?)
    let trivia ← valueD "trivia" {} Trivia.read?
    return { id, kind, attributes, modifiers, parameters, statements, trivia }

def readTypeParameters? : Given → Option (List TypeParameter) :=
  list? TypeParameter.read?

mutual

def Declaration.read? (given : Given) : Option Declaration :=
  readObject given do
    let id ← value "id" NodeId.read?
    unless given.canBeCopiedBeside ["id", "trivia"] do refuse
    let kind ← DeclarationKind.read? given.copied
    let trivia ← valueD "trivia" {} Trivia.read?
    return { id, kind, trivia }
termination_by (sizeOf given.json, 1)
decreasing_by all_goals exact Prod.Lex.right _ (Nat.lt_succ_self _)

def DeclarationKind.read? (given : Given) : Option DeclarationKind :=
  readVariant given [
    ("Namespace", do
      let name ← value "name" Name.read?
      return .namespace name (← (← itemsD "members").mapM fun part => Declaration.read? part.1)),
    ("Type", do
      let block ← value "block" word?
      let attributes ← valueD "attributes" [] readAttributeLists?
      let modifiers ← valueD "modifiers" [] (list? word?)
      let identifier ← value "identifier" str?
      let typeParameters ← valueD "type_parameters" [] readTypeParameters?
      let inherits ← valueD "inherits" [] (list? TypeSyntax.read?)
      let implements ← valueD "implements" [] (list? TypeSyntax.read?)
      let members ← (← itemsD "members").mapM fun part => Declaration.read? part.1
      return .type block attributes modifiers identifier typeParameters inherits
        implements members),
    ("Enum", do
      let attributes ← valueD "attributes" [] readAttributeLists?
      let modifiers ← valueD "modifiers" [] (list? word?)
      let identifier ← value "identifier" str?
      let underlyingType ← value? "underlying_type" ResultClause.read?
      let members ← valueD "members" [] (list? EnumMember.read?)
      return .enum attributes modifiers identifier underlyingType members),
    ("Delegate", do
      let kind ← value "method_kind" word?
      let attributes ← valueD "attributes" [] readAttributeLists?
      let modifiers ← valueD "modifiers" [] (list? word?)
      let identifier ← value "identifier" str?
      let typeParameters ← valueD "type_parameters" [] readTypeParameters?
      let parameters ← valueD "parameters" [] (list? Parameter.read?)
      let result ← value? "as_clause" ResultClause.read?
      return .delegate kind attributes modifiers identifier typeParameters parameters result),
    ("Field", do
      let attributes ← valueD "attributes" [] readAttributeLists?
      let modifiers ← valueD "modifiers" [] (list? word?)
      return .field attributes modifiers (← value "declarators" (list? Declarator.read?))),
    ("Property", do
      let attributes ← valueD "attributes" [] readAttributeLists?
      let modifiers ← valueD "modifiers" [] (list? word?)
      let identifier ← value "identifier" str?
      let parameters ← valueD "parameters" [] (list? Parameter.read?)
      let asClause ← value? "as_clause" AsClause.read?
      let initializer ← value? "initializer" Expr.read?
      let accessors ← value? "accessors" (list? Accessor.read?)
      return .property attributes modifiers identifier parameters
        (asClause.getD .absent) initializer
        accessors),
    ("Method", do
      let kind ← value "method_kind" word?
      let attributes ← valueD "attributes" [] readAttributeLists?
      let modifiers ← valueD "modifiers" [] (list? word?)
      let identifier ← value "identifier" str?
      let typeParameters ← valueD "type_parameters" [] readTypeParameters?
      let parameters ← valueD "parameters" [] (list? Parameter.read?)
      let result ← value? "as_clause" ResultClause.read?
      let body ← value? "body" (list? Statement.read?)
      return .method kind attributes modifiers identifier typeParameters parameters result body),
    ("Constructor", do
      let attributes ← valueD "attributes" [] readAttributeLists?
      let modifiers ← valueD "modifiers" [] (list? word?)
      let parameters ← valueD "parameters" [] (list? Parameter.read?)
      return .constructor attributes modifiers parameters
        (← valueD "body" [] (list? Statement.read?))),
    ("Operator", do
      let attributes ← valueD "attributes" [] readAttributeLists?
      let modifiers ← valueD "modifiers" [] (list? word?)
      let operator ← value "operator" word?
      let parameters ← valueD "parameters" [] (list? Parameter.read?)
      let result ← value? "as_clause" ResultClause.read?
      let body ← valueD "body" [] (list? Statement.read?)
      return .operator attributes modifiers operator parameters result body),
    ("Event", do
      let attributes ← valueD "attributes" [] readAttributeLists?
      let modifiers ← valueD "modifiers" [] (list? word?)
      let identifier ← value "identifier" str?
      let parameters ← valueD "parameters" [] (list? Parameter.read?)
      let asType ← value? "as_type" TypeSyntax.read?
      let accessors ← value? "accessors" (list? Accessor.read?)
      return .event attributes modifiers identifier parameters asType accessors),
    ("ExternalMethod", do
      let identifier ← value "identifier" str?
      return .externalMethod identifier (← value "library" str?))]
termination_by (sizeOf given.json, 0)
decreasing_by all_goals exact Prod.Lex.left _ _ (Part.sizeOf_lt _)

end

def ImportsClause.read? (given : Given) : Option ImportsClause :=
  readVariant given [
    ("Simple", do
      let shortName ← value? "alias" str?
      return .simple shortName (← value "name" Name.read?)),
    ("XmlNamespace", do return .xmlNamespace (← value "text" str?))]

def CompilationUnit.read? (given : Given) : Option CompilationUnit :=
  readRecord given do
    let id ← value "id" NodeId.read?
    let imports ← valueD "imports" [] (list? ImportsClause.read?)
    let attributes ← valueD "attributes" [] readAttributeLists?
    let members ← valueD "members" [] (list? Declaration.read?)
    return { id, imports, attributes, members }

/-! ## Whole values -/

def Declaration.ofJson? (json : Json) : Option Declaration :=
  Declaration.read? { json }

def DeclarationKind.ofJson? (json : Json) : Option DeclarationKind :=
  DeclarationKind.read? { json }

def ImportsClause.ofJson? (json : Json) : Option ImportsClause :=
  ImportsClause.read? { json }

def CompilationUnit.ofJson? (json : Json) : Option CompilationUnit :=
  CompilationUnit.read? { json }

end Sharpen.Source
