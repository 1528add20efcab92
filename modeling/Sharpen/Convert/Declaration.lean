import Sharpen.Convert.Member

/-!
# Declarations

The rule for every kind of declaration. A module becomes a static class.
-/

namespace Sharpen

open Target (TypeSyntax)

/-- What a type block becomes, and where its modifiers stand. -/
def Source.TypeBlockKind.convert : Source.TypeBlockKind → Target.TypeKeyword × ModifierSite
  | .class => (.class, .global)
  | .module => (.class, .interfaceOrModule)
  | .structure => (.struct, .global)
  | .interface => (.interface, .interfaceOrModule)

namespace Inner

/-- Declarations one after the other, with their comments. -/
def members (inner : Inner) (declarations : List Source.Declaration) :
    Convert (List Target.Member) := do
  let converted ← declarations.mapM fun declaration => do
    return attachMembers declaration.trivia (← inner.declaration declaration)
  return converted.flatten

/-- A class, module, structure or interface. -/
def typeBlock (inner : Inner) (block : Source.TypeBlockKind)
    (attributes : List (List Source.Attribute)) (modifiers : List Source.Modifier)
    (identifier : String) (typeParameters : List Source.TypeParameter)
    (inherits implements : List Source.TypeSyntax) (members : List Source.Declaration) :
    Convert (List Target.Member) := do
  let (keyword, site) := block.convert
  let attributes ← inner.attributes attributes
  let converted ← Modifiers.convert site modifiers
  let all := if block = .module then Modifiers.add converted .static else converted
  let (typeParameters, constraints) ← convertTypeParameters typeParameters
  let inherited ← convertTypes inherits
  let implemented ← convertTypes implements
  let members ← Convert.inContainer ⟨identifier, block⟩ (inner.members members)
  return [.type keyword attributes all (convertIdentifier identifier) typeParameters
    (inherited ++ implemented) constraints members]

def enumMember (inner : Inner) (member : Source.EnumMember) : Convert Target.EnumMember := do
  let attributes ← inner.attributes member.attributes
  let value ← inner.value? member.initializer
  return {
    attributes, identifier := convertIdentifier member.identifier, value
    trivia := member.trivia.convert }

def enum (inner : Inner) (attributes : List (List Source.Attribute))
    (modifiers : List Source.Modifier) (identifier : String)
    (underlyingType : Option Source.ResultClause) (members : List Source.EnumMember) :
    Convert (List Target.Member) := do
  let attributes ← inner.attributes attributes
  let converted ← Modifiers.convert .global modifiers
  let (base, more) ←
    match underlyingType with
    | some clause =>
      let more ← inner.returnAttributes clause.attributes
      pure (some (← clause.type.convert), more)
    | none => pure (none, [])
  let values ← members.mapM inner.enumMember
  return [.enum (attributes ++ more) converted (convertIdentifier identifier) base values]

def delegate (inner : Inner) (kind : Source.MethodKind) (attributes : List (List Source.Attribute))
    (modifiers : List Source.Modifier) (identifier : String)
    (typeParameters : List Source.TypeParameter) (parameters : List Source.Parameter)
    (result : Option Source.ResultClause) : Convert (List Target.Member) := do
  let attributes ← inner.attributes attributes
  let converted ← Modifiers.convert .global modifiers
  let (returnType, more) ←
    match result, kind with
    | some clause, _ =>
      let more ← inner.returnAttributes clause.attributes
      pure (← clause.type.convert, more)
    | none, .sub => pure (TypeSyntax.void, [])
    | none, .function => pure (TypeSyntax.object, [])
  let (typeParameters, constraints) ← convertTypeParameters typeParameters
  let parameters ← inner.parameters parameters
  return [.delegate (attributes ++ more) converted returnType (convertIdentifier identifier)
    typeParameters parameters constraints]

end Inner

/-- The rule for a declaration, without its comments. -/
def Source.Declaration.convertKind (inner : Inner) (declaration : Source.Declaration) :
    Convert (List Target.Member) :=
  match declaration.kind with
  | .namespace name members => do
    let name ← name.convert
    return [.namespace name (← inner.members members)]
  | .type block attributes modifiers identifier typeParameters inherits implements members =>
    inner.typeBlock block attributes modifiers identifier typeParameters inherits implements members
  | .enum attributes modifiers identifier underlyingType members =>
    inner.enum attributes modifiers identifier underlyingType members
  | .delegate kind attributes modifiers identifier typeParameters parameters result =>
    inner.delegate kind attributes modifiers identifier typeParameters parameters result
  | .field attributes modifiers declarators => inner.field attributes modifiers declarators
  | .property attributes modifiers identifier parameters asClause initializer accessors =>
    inner.property declaration.id attributes modifiers identifier parameters asClause initializer
      accessors
  | .method kind attributes modifiers identifier typeParameters parameters result body =>
    inner.method declaration.id kind attributes modifiers identifier typeParameters
      parameters result
      body
  | .constructor attributes modifiers parameters body =>
    inner.constructor attributes modifiers parameters body
  | .operator attributes modifiers operator parameters result body =>
    inner.operator declaration.id attributes modifiers operator parameters result body
  | .event attributes modifiers identifier parameters asType accessors =>
    inner.event attributes modifiers identifier parameters asType accessors
  | .externalMethod .. => Convert.unimplemented declaration.kind.kindName

end Sharpen
