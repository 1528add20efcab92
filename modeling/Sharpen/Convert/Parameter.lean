import Sharpen.Convert.Inner
import Sharpen.Target.Member

/-!
# Attributes and parameters

Every attribute gets a list of its own. An attribute in an `As` clause applies to the value that is
given back. A parameter with the attribute `Out` is an output parameter.
-/

namespace Sharpen

open Target (TypeSyntax)

/-- What an attribute applies to. -/
def Source.AttributeTarget.convert : Source.AttributeTarget → Target.AttributeTarget
  | .assembly => .assembly
  | .module => .module

def Source.Attribute.isOut (mark : Source.Attribute) : Bool :=
  mark.arguments.isEmpty &&
    (Text.sameIgnoringCase mark.name.lastIdentifier "Out" ||
      Text.sameIgnoringCase mark.name.lastIdentifier "OutAttribute")

/-- The direction in which a type parameter varies. -/
def Source.Variance.convert : Source.Variance → Target.Variance
  | .in => .in
  | .out => .out

namespace Inner

def attributeArgument (inner : Inner) : Source.Argument → Convert Target.AttributeArgument
  | .simple _ name value => return ⟨name.map convertIdentifier, ← inner.value value⟩
  | .omitted _ =>
    Convert.unsupported "OmittedArgument" "attribute arguments cannot be omitted"

/-- An attribute in a list of its own. -/
def attributeList (inner : Inner) (mark : Source.Attribute) : Convert Target.AttributeList := do
  let arguments ← mark.arguments.mapM inner.attributeArgument
  let name ← mark.name.convert
  return ⟨mark.target.map Source.AttributeTarget.convert, [⟨name, arguments⟩]⟩

/-- The attributes of a declaration. -/
def attributes (inner : Inner) (lists : List (List Source.Attribute)) :
    Convert (List Target.AttributeList) :=
  lists.flatten.mapM inner.attributeList

/-- The attributes of the value that is given back. -/
def returnAttributes (inner : Inner) (lists : List (List Source.Attribute)) :
    Convert (List Target.AttributeList) := do
  return (← inner.attributes lists).map fun list => { list with target := some .return }

/-- The type of a parameter without `As`: what the model says it is, or `object`. -/
def declaredType (inner : Inner) (id : Source.NodeId) : TypeSyntax :=
  match (inner.table.declaredSymbol? id).bind (·.type) with
  | some type => type.written
  | none => .object

/-- A parameter. Without `As` it has a type only where one is demanded. -/
def parameter (inner : Inner) (typed : Bool) (parameter : Source.Parameter) :
    Convert Target.Parameter := do
  let isOut := parameter.attributes.any fun list => list.any (·.isOut)
  let kept := parameter.attributes.map fun list => list.filter fun mark => !mark.isOut
  let written ← Modifiers.convert .local parameter.modifiers
  let modifiers := if isOut then .out :: written.filter (· != .ref) else written
  let type : Option TypeSyntax ←
    match parameter.asType with
    | some type => pure (some (← type.convert))
    | none => pure (if typed then some (inner.declaredType parameter.id) else none)
  let marked := type.map fun type =>
    (if parameter.nullable then type.nullableOf else type).withOuterRanks
      (unsizedRanks parameter.arrayRanks)
  let defaultValue ← inner.value? parameter.defaultValue
  let attributes ← inner.attributes kept
  return {
    attributes, modifiers, type := marked
    identifier := convertIdentifier parameter.identifier, defaultValue }

/-- The parameters of a declaration. -/
def parameters (inner : Inner) (parameters : List Source.Parameter) :
    Convert (List Target.Parameter) :=
  parameters.mapM (inner.parameter true)

end Inner

/-! ## Type parameters -/

/-- The constraints of a type parameter, in the order that the target demands: `class` and `struct`,
then types, then `new()`. -/
def convertConstraints (constraints : List Source.TypeConstraint) :
    Except ConversionError (List Target.TypeConstraint) := do
  let kinds := constraints.filterMap fun
    | .class => some Target.TypeConstraint.class
    | .structure => some .struct
    | _ => none
  let types ← convertTypes (constraints.filterMap fun
    | .type bound => some bound
    | _ => none)
  let creatable := constraints.any fun
    | .new => true
    | _ => false
  return kinds ++ types.map .type ++ (if creatable then [.constructor] else [])

/-- The constraint clause of a type parameter that has constraints. -/
def Source.TypeParameter.clause? (parameter : Source.TypeParameter) :
    Except ConversionError (Option Target.ConstraintClause) :=
  if parameter.constraints.isEmpty then .ok none
  else do
    return some ⟨convertIdentifier parameter.identifier, ← convertConstraints parameter.constraints⟩

def convertTypeParameters (parameters : List Source.TypeParameter) :
    Except ConversionError (List Target.TypeParameter × List Target.ConstraintClause) := do
  let clauses ← parameters.mapM Source.TypeParameter.clause?
  let converted := parameters.map fun parameter =>
    (⟨parameter.variance.map Source.Variance.convert, convertIdentifier parameter.identifier⟩ :
      Target.TypeParameter)
  return (converted, clauses.filterMap id)

end Sharpen
