import Sharpen.Source.Tree

/-!
# Declarations of the source language

Namespaces, types and their members, and the compilation unit that holds them.
-/

namespace Sharpen.Source

/-- What a type parameter demands of its argument. -/
inductive TypeConstraint where
  | new
  | «class»
  | «structure»
  | type (type : TypeSyntax)

/-- `(Of In T As {Class, New})` -/
structure TypeParameter where
  id : NodeId
  identifier : String
  variance : Option Variance
  constraints : List TypeConstraint

/-- `As T` with the attributes written in it. -/
structure ResultClause where
  attributes : List (List Attribute)
  type : TypeSyntax

/-- A member of an enumeration. -/
structure EnumMember where
  id : NodeId
  attributes : List (List Attribute)
  identifier : String
  initializer : Option Expr
  trivia : Trivia

/-- A part of a property or event that runs code. -/
structure Accessor where
  id : NodeId
  kind : AccessorKind
  attributes : List (List Attribute)
  modifiers : List Modifier
  parameters : List Parameter
  statements : List Statement
  trivia : Trivia

mutual

/-- A declaration with its comments. -/
structure Declaration where
  id : NodeId
  kind : DeclarationKind
  trivia : Trivia

/-- The kinds of declarations. -/
inductive DeclarationKind where
  | namespace (name : Name) (members : List Declaration)
  | type (block : TypeBlockKind) (attributes : List (List Attribute)) (modifiers : List Modifier)
      (identifier : String) (typeParameters : List TypeParameter) (inherits : List TypeSyntax)
      (implements : List TypeSyntax) (members : List Declaration)
  | enum (attributes : List (List Attribute)) (modifiers : List Modifier) (identifier : String)
      (underlyingType : Option ResultClause) (members : List EnumMember)
  | delegate (kind : MethodKind) (attributes : List (List Attribute)) (modifiers : List Modifier)
      (identifier : String) (typeParameters : List TypeParameter) (parameters : List Parameter)
      (result : Option ResultClause)
  | field (attributes : List (List Attribute)) (modifiers : List Modifier)
      (declarators : List Declarator)
  /-- a property without accessors keeps its value by itself -/
  | property (attributes : List (List Attribute)) (modifiers : List Modifier)
      (identifier : String) (parameters : List Parameter) (asClause : AsClause)
      (initializer : Option Expr) (accessors : Option (List Accessor))
  /-- a method without body is only announced -/
  | method (kind : MethodKind) (attributes : List (List Attribute)) (modifiers : List Modifier)
      (identifier : String) (typeParameters : List TypeParameter) (parameters : List Parameter)
      (result : Option ResultClause) (body : Option (List Statement))
  | constructor (attributes : List (List Attribute)) (modifiers : List Modifier)
      (parameters : List Parameter) (body : List Statement)
  | operator (attributes : List (List Attribute)) (modifiers : List Modifier)
      (operator : OverloadableOperator) (parameters : List Parameter)
      (result : Option ResultClause) (body : List Statement)
  | event (attributes : List (List Attribute)) (modifiers : List Modifier) (identifier : String)
      (parameters : List Parameter) (asType : Option TypeSyntax)
      (accessors : Option (List Accessor))
  /-- `Declare Function … Lib "…"` -/
  | externalMethod (identifier library : String)

end

/-- `Imports System.Text`, or `Imports S = System.Text`, or an XML namespace. -/
inductive ImportsClause where
  | simple (shortName : Option String) (name : Name)
  | xmlNamespace (text : String)

/-- The contents of one source file. -/
structure CompilationUnit where
  id : NodeId
  imports : List ImportsClause
  attributes : List (List Attribute)
  members : List Declaration

instance : Inhabited Declaration := ⟨⟨0, .externalMethod "" "", {}⟩⟩

end Sharpen.Source
