import Sharpen.Proofs.Exchange.Code
import Sharpen.Source.Decode.Declarations
import Sharpen.Source.Encode.Declarations

/-!
# Source declarations are read back

Like a statement, a declaration shares one object with the fields of its kind. Everything below it
is read back already, so its own fields are plain values apart from the members.
-/

namespace Sharpen.Source

open Json

instance : Vocabulary.Lawful Variance where
instance : Vocabulary.Lawful TypeBlockKind where
instance : Vocabulary.Lawful OverloadableOperator where
instance : Vocabulary.Lawful AccessorKind where

/-! ## Parts of declarations -/

theorem exchanged_attributeLists (attributes : List (List Attribute)) :
    Exchanged readAttributeLists? (attributeListsToJson attributes) attributes :=
  exchanged_list (Attribute.exchanged_lists attributes)

theorem exchanged_parameters (parameters : List Parameter) :
    Exchanged (Given.list? Parameter.read?) (parametersToJson parameters) parameters :=
  exchanged_list (Parameter.exchanged_all parameters)

theorem exchanged_statements (statements : List Statement) :
    Exchanged (Given.list? Statement.read?) (statementsToJson statements) statements :=
  exchanged_list (Statement.exchanged_all statements)

/-- The kinds of constraints. -/
instance : Variants TypeConstraint.read? where
  names := ["New", "Class", "Structure", "Type"]
  place := TypeConstraint.ctorIdx
  variants := _
  read_eq _ := rfl

theorem TypeConstraint.exchanged :
    (bound : TypeConstraint) → Exchanged TypeConstraint.read? bound.toJson bound
  | .new | .class | .structure => .variant rfl fun _ => .done
  | .type bound => .variant rfl fun _ => .value bound.exchanged .done

theorem TypeParameter.exchanged (parameter : TypeParameter) :
    Exchanged TypeParameter.read? parameter.toJson parameter :=
  .record (fun _ => rfl) fun _ =>
    .value parameter.id.exchanged <| .value (exchanged_str parameter.identifier) <|
    .value? (.ofOption parameter.variance exchanged_word) <|
    .valueD (exchanged_map parameter.constraints fun bound _ => bound.exchanged) .done

theorem exchanged_typeParameters (parameters : List TypeParameter) :
    Exchanged readTypeParameters? (typeParametersToJson parameters) parameters :=
  exchanged_map parameters fun parameter _ => parameter.exchanged

theorem ResultClause.exchanged (clause : ResultClause) :
    Exchanged ResultClause.read? clause.toJson clause :=
  .record (fun _ => rfl) fun _ =>
    .valueD (exchanged_attributeLists clause.attributes) <| .value clause.type.exchanged .done

theorem EnumMember.exchanged (member : EnumMember) :
    Exchanged EnumMember.read? member.toJson member :=
  .record (fun _ => rfl) fun _ =>
    .value member.id.exchanged <| .valueD (exchanged_attributeLists member.attributes) <|
    .value (exchanged_str member.identifier) <|
      .value? (.ofOption member.initializer Expr.exchanged) <|
    .valueD member.trivia.exchanged .done

theorem exchanged_enumMembers (members : List EnumMember) :
    Exchanged (Given.list? EnumMember.read?) (.arr (members.map EnumMember.toJson)) members :=
  exchanged_map members fun member _ => member.exchanged

theorem Accessor.exchanged (accessor : Accessor) :
    Exchanged Accessor.read? accessor.toJson accessor :=
  .record (fun _ => rfl) fun _ =>
    .value accessor.id.exchanged <| .value (exchanged_word accessor.kind) <|
    .valueD (exchanged_attributeLists accessor.attributes) <|
      .valueD (exchanged_words accessor.modifiers) <|
    .valueD (exchanged_parameters accessor.parameters) <|
    .valueD (exchanged_statements accessor.statements) <| .valueD accessor.trivia.exchanged .done

theorem exchanged_accessors (accessors : List Accessor) :
    Exchanged (Given.list? Accessor.read?) (accessorsToJson accessors) accessors :=
  exchanged_map accessors fun accessor _ => accessor.exchanged

/-! ## Declarations -/

/-- The kinds of declarations. -/
instance : Variants DeclarationKind.read? where
  names := ["Namespace", "Type", "Enum", "Delegate", "Field", "Property", "Method",
    "Constructor", "Operator",
    "Event", "ExternalMethod"]
  place := DeclarationKind.ctorIdx
  variants := _
  read_eq := DeclarationKind.read?.eq_1

/-- Everything that is written for declarations is read back. -/
theorem exchanged_declarations :
    (∀ x, Exchanged Declaration.read? (Declaration.toJson x) x) ∧
    (∀ x, Flattened ["id", "trivia"] DeclarationKind.read? (DeclarationKind.fields x) x) ∧
    (∀ x, List.Forall₂ (Exchanged Declaration.read?) (Declaration.listToJson x) x) := by
  apply Declaration.toJson.mutual_induct
  all_goals intros
  case case7 =>
    refine .variant rfl fun _ => .valueD (exchanged_attributeLists _) <|
      .valueD (exchanged_words _) <|
      .value (exchanged_str _) <| .valueD (exchanged_parameters _) <|
        .valueOr (AsClause.exchanged _) fun h => ?_
    exact .value? (.ofOption _ Expr.exchanged) <| .value? (.ofOption _ exchanged_accessors) <|
      .returns (by rw [h])
  all_goals first
    | exact exchanged_beside Declaration.read?.eq_1 ‹_›
    | exact .nil
    | exact .cons ‹_› ‹_›
    | refine .variant rfl fun _ => ?_
  all_goals
    apply_rules [Reading.value, Reading.valueD, Reading.value?, Reading.itemsD, Reading.done,
      exchanged_str, exchanged_word, exchanged_words, Name.exchanged, ExchangedOption.ofOption,
      ResultClause.exchanged, TypeSyntax.exchanged, exchanged_attributeLists,
      exchanged_typeParameters, exchanged_parameters, exchanged_statements, exchanged_accessors,
      exchanged_enumMembers, exchanged_list (TypeSyntax.exchanged_all _),
      exchanged_list (Declarator.exchanged_all _)]

theorem Declaration.exchanged (declaration : Declaration) :
    Exchanged Declaration.read? declaration.toJson declaration :=
  exchanged_declarations.1 declaration

/-! ## Compilation units -/

/-- The kinds of `Imports` clauses. -/
instance : Variants ImportsClause.read? where
  names := ["Simple", "XmlNamespace"]
  place := ImportsClause.ctorIdx
  variants := _
  read_eq _ := rfl

theorem ImportsClause.exchanged :
    (clause : ImportsClause) → Exchanged ImportsClause.read? clause.toJson clause
  | .simple shortName name =>
    .variant rfl fun _ => .value? (.ofOption shortName exchanged_str) <| .value name.exchanged .done
  | .xmlNamespace text => .variant rfl fun _ => .value (exchanged_str text) .done

theorem CompilationUnit.exchanged (unit : CompilationUnit) :
    Exchanged CompilationUnit.read? unit.toJson unit :=
  .record (fun _ => rfl) fun _ =>
    .value unit.id.exchanged <| .valueD (exchanged_map unit.imports fun clause _ =>
      clause.exchanged) <|
    .valueD (exchanged_attributeLists unit.attributes) <|
    .valueD (exchanged_list (exchanged_declarations.2.2 unit.members)) .done

end Sharpen.Source
