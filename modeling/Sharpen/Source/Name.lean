import Sharpen.Source.Token

/-!
# Names and types of the source language

A source tree numbers its nodes: every name, type, expression, statement and declaration carries a
`NodeId` under which a semantic model can be asked about it. Names and type syntax refer to each
other through type arguments.
-/

namespace Sharpen.Source

/-- The number of a node of a source tree. -/
abbrev NodeId := UInt32

/-- How a node number is shown. -/
def NodeId.display (id : NodeId) : String :=
  "#" ++ toString id.toNat

mutual

/-- One identifier, with type arguments when it is generic. -/
structure SimpleName where
  id : NodeId
  identifier : String
  typeArguments : List TypeSyntax

/-- A possibly qualified name. -/
inductive Name where
  /-- `List(Of Integer)` -/
  | simple (name : SimpleName)
  /-- `System.Text` -/
  | qualified (id : NodeId) (left : Name) (right : SimpleName)
  /-- the root namespace -/
  | global (id : NodeId)

/-- A type as it is written. -/
inductive TypeSyntax where
  /-- `Integer` -/
  | predefined (id : NodeId) (keyword : PredefinedType)
  /-- `Widget` -/
  | named (name : Name)
  /-- `T()(,)`: the dimensions of each rank specifier -/
  | array (id : NodeId) (element : TypeSyntax) (ranks : List UInt32)
  /-- `T?` -/
  | nullable (id : NodeId) (element : TypeSyntax)

end

instance : Inhabited SimpleName := ⟨⟨0, "", []⟩⟩
instance : Inhabited Name := ⟨.global 0⟩
instance : Inhabited TypeSyntax := ⟨.predefined 0 default⟩

/-- An identifier without the brackets that escape a keyword: `[Class]` is `Class`. -/
def unescapeIdentifier (text : String) : String :=
  match text.toList with
  | '[' :: rest =>
    match rest.reverse with
    | ']' :: inner => String.ofList inner.reverse
    | _ => text
  | _ => text

namespace SimpleName

/-- The identifier without escaping brackets. -/
def unescaped (name : SimpleName) : String :=
  unescapeIdentifier name.identifier

def isGeneric (name : SimpleName) : Bool :=
  !name.typeArguments.isEmpty

end SimpleName

namespace Name

/-- The number of a name. -/
def id : Name → NodeId
  | .simple name => name.id
  | .qualified id _ _ => id
  | .global id => id

/-- The rightmost identifier. -/
def lastIdentifier : Name → String
  | .simple name => name.unescaped
  | .qualified _ _ right => right.unescaped
  | .global _ => "Global"

end Name

namespace TypeSyntax

/-- The number of a type. -/
def id : TypeSyntax → NodeId
  | .predefined id _ => id
  | .named name => name.id
  | .array id _ _ => id
  | .nullable id _ => id

end TypeSyntax

end Sharpen.Source
