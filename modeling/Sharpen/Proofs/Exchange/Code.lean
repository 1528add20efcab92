import Mathlib.Data.List.Nodup
import Sharpen.Proofs.Exchange.Record
import Sharpen.Source.Decode.Code
import Sharpen.Source.Encode.Code

/-!
# Source code is read back

What is written for a name, a type, an expression or a statement is read as the same thing. The
proofs follow the trees: one rule of reading for each field, in the order in which the fields are
written and read. A statement shares one object with the fields of its kind, so these must have
names of their own.
-/

namespace Sharpen

open List
open Json

/-! ## Words -/

/-- The list of the values is complete, and no two values are spelled alike. -/
class Vocabulary.Lawful (α : Type) [Vocabulary α] : Prop where
  mem_all : ∀ value : α, value ∈ (Vocabulary.all : List α) := by
    intro value
    cases value <;> exact List.mem_of_elem_eq_true rfl
  nodup : ((Vocabulary.all : List α).map Vocabulary.spelling).Nodup := by
    simp [Vocabulary.all, Vocabulary.spelling]

theorem Vocabulary.read?_spelling {α : Type} [Vocabulary α] [Vocabulary.Lawful α] (value : α) :
    Vocabulary.read? (Vocabulary.spelling value) = some value := by
  have hmem := Lawful.mem_all value
  cases hread : Vocabulary.read? (α := α) (Vocabulary.spelling value) with
  | none => exact absurd (List.find?_eq_none.mp hread value hmem) (by simp)
  | some found =>
    have hspelling : Vocabulary.spelling found = Vocabulary.spelling value := by
      simpa using List.find?_some hread
    rw [inj_on_of_nodup_map Lawful.nodup (mem_of_find?_eq_some hread) hmem hspelling]

namespace Json

variable {α : Type} [Vocabulary α] [Vocabulary.Lawful α]

theorem exchanged_word (value : α) : Exchanged Given.word? (ofWord value) value :=
  ⟨rfl, nofun, fun _ => Vocabulary.read?_spelling value⟩

theorem exchanged_words (values : List α) :
    Exchanged (Given.list? Given.word?) (.arr (values.map ofWord)) values :=
  exchanged_map values fun value _ => exchanged_word value

end Json

theorem Trivia.exchanged (trivia : Trivia) : Exchanged Trivia.read? trivia.toJson trivia :=
  .record (fun _ => rfl) fun _ =>
    .valueD (exchanged_map trivia.leading fun text _ => exchanged_str text) <|
    .value? (.ofOption trivia.trailing exchanged_str) .done

namespace Source

instance : Vocabulary.Lawful PredefinedType where
instance : Vocabulary.Lawful Modifier where
instance : Vocabulary.Lawful AttributeTarget where
instance : Vocabulary.Lawful BinaryOperator where
instance : Vocabulary.Lawful UnaryOperator where
instance : Vocabulary.Lawful AssignmentOperator where
instance : Vocabulary.Lawful CastKind where
instance : Vocabulary.Lawful CastKeyword where
instance : Vocabulary.Lawful MethodKind where
instance : Vocabulary.Lawful BlockKind where
instance : Vocabulary.Lawful TestKind where

theorem NodeId.exchanged (id : NodeId) : Exchanged NodeId.read? id.toJson id :=
  exchanged_uint32 id

theorem exchanged_ranks (ranks : List UInt32) :
    Exchanged (Given.list? Given.uint32?) (ranksToJson ranks) ranks :=
  exchanged_map ranks fun rank _ => exchanged_uint32 rank

theorem Literal.exchanged : (literal : Literal) → Exchanged Literal.read? literal.toJson literal
  | .nothing => ⟨rfl, nofun, fun _ => rfl⟩
  | .boolean value =>
    .record (fun _ => rfl) fun _ => .choose rfl <| .value (exchanged_bool value) .done
  | .numeric text =>
    .record (fun _ => rfl) fun _ => .choose rfl <| .value (exchanged_str text) .done
  | .string value =>
    .record (fun _ => rfl) fun _ => .choose rfl <| .value (exchanged_str value) .done
  | .char value =>
    .record (fun _ => rfl) fun _ => .choose rfl <| .value (exchanged_char value) .done
  | .date text => .record (fun _ => rfl) fun _ => .choose rfl <| .value (exchanged_str text) .done

/-! ## Names and types -/

/-- The kinds of names. -/
instance : Variants Name.read? where
  names := ["Simple", "Qualified", "Global"]
  place := Name.ctorIdx
  variants := _
  read_eq := Name.read?.eq_1

/-- The kinds of types. -/
instance : Variants TypeSyntax.read? where
  names := ["Predefined", "Named", "Array", "Nullable"]
  place := TypeSyntax.ctorIdx
  variants := _
  read_eq := TypeSyntax.read?.eq_1

mutual

theorem SimpleName.exchanged :
    (name : SimpleName) → Exchanged SimpleName.read? (.obj name.fields) name
  | ⟨id, identifier, typeArguments⟩ =>
    .record SimpleName.read?.eq_1 (fun _ => .value id.exchanged <|
      .value (exchanged_str identifier) <| .itemsD
      (TypeSyntax.exchanged_all typeArguments) .done) (by simp [SimpleName.fields])

theorem Name.exchanged : (name : Name) → Exchanged Name.read? name.toJson name
  | .simple ⟨id, identifier, typeArguments⟩ =>
    .variant rfl (fun _ => .value id.exchanged <| .value (exchanged_str identifier) <| .itemsD
      (TypeSyntax.exchanged_all typeArguments) .done) (by simp [SimpleName.fields])
  | .qualified id left right =>
    .variant rfl fun _ => .value id.exchanged <| .part left.exchanged <| .part right.exchanged .done
  | .global id => .variant rfl fun _ => .value id.exchanged .done

theorem TypeSyntax.exchanged : (type : TypeSyntax) → Exchanged TypeSyntax.read? type.toJson type
  | .predefined id keyword =>
    .variant rfl fun _ => .value id.exchanged <| .value (exchanged_word keyword) .done
  | .named name => .variant rfl fun _ => .part name.exchanged .done
  | .array id element ranks =>
    .variant rfl fun _ => .value id.exchanged <| .part element.exchanged <|
      .value (exchanged_ranks ranks) .done
  | .nullable id element =>
    .variant rfl fun _ => .value id.exchanged <| .part element.exchanged .done

theorem TypeSyntax.exchanged_all :
    (types : List TypeSyntax) →
      Forall₂ (Exchanged TypeSyntax.read?) (TypeSyntax.listToJson types) types
  | [] => .nil
  | type :: rest => .cons type.exchanged (TypeSyntax.exchanged_all rest)

end

/-! ## Expressions and statements -/

/-- The kinds of expressions. -/
instance : Variants Expr.read? where
  names := ["Literal", "InterpolatedString", "Name", "Global", "PredefinedType", "Me", "MyBase",
    "MyClass", "MemberAccess", "ConditionalAccess", "Invocation", "ObjectCreation", "ArrayCreation",
    "CollectionInitializer", "Binary", "Unary", "Parenthesized", "BinaryConditional",
      "TernaryConditional",
    "Cast", "PredefinedCast", "TypeOf", "GetType", "NameOf", "Await", "Lambda",
      "AnonymousObjectCreation",
    "Query", "XmlLiteral"]
  place := Expr.ctorIdx
  variants := _
  read_eq := Expr.read?.eq_1

/-- The kinds of arguments. -/
instance : Variants Argument.read? where
  names := ["Simple", "Omitted"]
  place := Argument.ctorIdx
  variants := _
  read_eq := Argument.read?.eq_1

/-- The kinds of pieces of an interpolated string. -/
instance : Variants Content.read? where
  names := ["Text", "Interpolation"]
  place := Content.ctorIdx
  variants := _
  read_eq := Content.read?.eq_1

/-- The kinds of initializers; an absent one has none. -/
instance : Variants Initializer.read? where
  names := ["Collection", "Members"]
  place := fun initializer => initializer.ctorIdx - 1
  variants := _
  read_eq := Initializer.read?.eq_1

/-- The kinds of bodies of lambdas. -/
instance : Variants LambdaBody.read? where
  names := ["Expression", "Statement", "Block"]
  place := LambdaBody.ctorIdx
  variants := _
  read_eq := LambdaBody.read?.eq_1

/-- The kinds of `As` clauses; an absent one has none. -/
instance : Variants AsClause.read? where
  names := ["Simple", "New"]
  place := fun clause => clause.ctorIdx - 1
  variants := _
  read_eq := AsClause.read?.eq_1

/-- The kinds of `Case` clauses. -/
instance : Variants CaseClause.read? where
  names := ["Simple", "Relational", "Range", "Else"]
  place := CaseClause.ctorIdx
  variants := _
  read_eq := CaseClause.read?.eq_1

/-- The kinds of loop variables. -/
instance : Variants LoopControl.read? where
  names := ["Declarator", "Variable"]
  place := LoopControl.ctorIdx
  variants := _
  read_eq := LoopControl.read?.eq_1

/-- The kinds of statements; both forms of `Using` are of one kind. -/
instance : Variants StatementKind.read? where
  names := ["LocalDeclaration", "Expression", "Call", "Assignment", "Return", "Exit",
    "Continue", "Throw",
    "Yield", "RaiseEvent", "AddHandler", "RemoveHandler", "SingleLineIf", "MultiLineIf",
      "For", "ForEach",
    "Select", "With", "Try", "SyncLock", "Using", "While", "DoLoop", "Stop", "End", "OnErrorGoTo",
    "OnErrorResumeNext", "Resume", "ReDim", "Erase", "GoTo", "Label"]
  place := fun kind => if kind.ctorIdx ≤ 20 then kind.ctorIdx else kind.ctorIdx - 1
  variants := _
  read_eq := StatementKind.read?.eq_1

/-- A node that keeps the fields of its kind beside its number and its comments. -/
theorem exchanged_beside {α κ : Type} {read : Given → Option α} {readKind : Given → Option κ}
    {make : NodeId → κ → Trivia → α} {id : NodeId} {kind : κ} {trivia : Trivia}
    {fields : List (String × Json)}
    (hread : ∀ given, read given = readObject given do
      let id ← Reader.value "id" NodeId.read?
      unless given.canBeCopiedBeside ["id", "trivia"] do Reader.refuse
      let kind ← readKind given.copied
      let trivia ← Reader.valueD "trivia" {} Trivia.read?
      return make id kind trivia)
    (hkind : Flattened ["id", "trivia"] readKind fields kind) :
    Exchanged read (.obj (("id", id.toJson) :: fields ++ [("trivia", trivia.toJson)]))
      (make id kind trivia) := by
  have hnames :
    ((("id", id.toJson) :: fields ++ [("trivia", trivia.toJson)]).map Prod.fst).Nodup := by
    refine Perm.nodup ?_ hkind.names
    rw [map_append, map_cons]
    exact (perm_append_comm : (["trivia"] ++ fields.map Prod.fst).Perm _).cons "id"
  have hreadable : ∀ field ∈ ("id", id.toJson) :: fields ++ [("trivia", trivia.toJson)],
    field.2.isReadable := by
    intro field hfield
    simp only [cons_append, mem_cons, mem_append, not_mem_nil, or_false] at hfield
    rcases hfield with rfl | hfield | rfl
    · rfl
    · exact hkind.readable field hfield
    · exact trivia.exchanged.readable
  refine ⟨by rw [isReadable]; exact fieldsReadable_of_forall hreadable, nofun, fun manner => ?_⟩
  have hcopy : Given.canBeCopiedBeside ["id", "trivia"]
      ⟨.obj (("id", id.toJson) :: fields ++ [("trivia", trivia.toJson)]), manner⟩ = true := by
    refine Bool.or_eq_true_iff.mpr (.inr (all_eq_true.mpr fun field hfield => ?_))
    rw [hreadable field hfield, Bool.or_true]
  have hfields : ∀ field ∈ fields, field ∈ ("id", id.toJson) :: fields ++
    [("trivia", trivia.toJson)] :=
    fun field hfield => mem_append_left _ (mem_cons_of_mem _ hfield)
  have hown : ∀ field ∈ [("id", id.toJson), ("trivia", trivia.toJson)],
      field ∈ ("id", id.toJson) :: fields ++ [("trivia", trivia.toJson)] := by
    simp
  rw [hread]
  refine Json.Reading.readObject_eq ?_ rfl hnames hown
  exact .value id.exchanged <| .guard hcopy <| .lift (hkind.reads _ hnames hfields) <|
    .valueD trivia.exchanged .done

theorem exchanged_collection (id : NodeId) {jsons : List Json} {items : List Expr}
    (h : Forall₂ (Exchanged Expr.read?) jsons items) :
    Exchanged readCollection? (.obj [("id", id.toJson), ("initializers", .arr jsons)])
      (id, items) :=
  .record readCollection?.eq_1 fun _ => .value id.exchanged <| .itemsD h .done

/-- The kinds of resources of a `Using` block. -/
instance (statements : List Statement) : Variants (readUsing? · statements) where
  names := ["Expression", "Variables"]
  place := fun kind => kind.ctorIdx - 20
  variants := _
  read_eq := (readUsing?.eq_1 · statements)

/-- The resource of a `Using` block is looked at after the statements. -/
theorem reading_using {whole : Given} {json : Json} {jsons : List Json}
    {statements : List Statement} {make : List Statement → StatementKind}
    (hstatements : Forall₂ (Exchanged Statement.read?) jsons statements)
    (hresource : ∀ statements, Exchanged (readUsing? · statements) json (make statements)) :
    Json.Reading [("resource", json), ("statements", .arr jsons)] (do
      let resource ← Reader.required "resource"
      let statements ← (← Reader.itemsD "statements").mapM fun part => Statement.read? part.1
      readUsing? resource.1 statements : Reader whole StatementKind) (make statements) := by
  have hrest : Json.Reading [("statements", .arr jsons)] (do
      let statements ← (← Reader.itemsD "statements").mapM fun part => Statement.read? part.1
      return make statements : Reader whole StatementKind) (make statements) :=
    .itemsD hstatements .done
  refine .step (hresource []).readable (fun row manner hrow => ?_) hrest
  obtain ⟨part, hpart, hrequired⟩ := hrow.required
  refine ⟨part, hrequired, ?_⟩
  simp only [hpart, (hresource _).reads]
  rfl

/-- Everything that is written for expressions and statements is read back. The induction is along
the writers; at each node, the fields are taken off one after the other by the rules for their
readers. -/
theorem exchanged_code :
    (∀ x, Exchanged Expr.read? (Expr.toJson x) x) ∧
    (∀ x, Forall₂ (Exchanged FieldValue.read?) (FieldValue.listToJson x) x) ∧
    (∀ x, Exchanged FieldValue.read? (FieldValue.toJson x) x) ∧
    (∀ x, Exchanged LambdaBody.read? (LambdaBody.toJson x) x) ∧
    (∀ x, Forall₂ (Exchanged Statement.read?) (Statement.listToJson x) x) ∧
    (∀ x, Exchanged Statement.read? (Statement.toJson x) x) ∧
    (∀ x, Flattened ["id", "trivia"] StatementKind.read? (StatementKind.fields x) x) ∧
    (∀ x, Forall₂ (Exchanged Expr.read?) (Expr.listToJson x) x) ∧
    (∀ x, ExchangedOr LoopTest.read? .absent (LoopTest.toJson x) x) ∧
    (∀ x, Forall₂ (Exchanged CatchBlock.read?) (CatchBlock.listToJson x) x) ∧
    (∀ x, Exchanged CatchBlock.read? (CatchBlock.toJson x) x) ∧
    (∀ x, ExchangedOption Expr.read? (Expr.optionToJson x) x) ∧
    (∀ x, Forall₂ (Exchanged CaseBlock.read?) (CaseBlock.listToJson x) x) ∧
    (∀ x, Exchanged CaseBlock.read? (CaseBlock.toJson x) x) ∧
    (∀ x, Forall₂ (Exchanged CaseClause.read?) (CaseClause.listToJson x) x) ∧
    (∀ x, Exchanged CaseClause.read? (CaseClause.toJson x) x) ∧
    (∀ x, Exchanged LoopControl.read? (LoopControl.toJson x) x) ∧
    (∀ x, Exchanged Declarator.read? (Declarator.toJson x) x) ∧
    (∀ x, ExchangedOr AsClause.read? .absent (AsClause.toJson x) x) ∧
    (∀ x, Forall₂ (Exchanged readAttributes?) (Attribute.listsToJson x) x) ∧
    (∀ x, Forall₂ (Exchanged Attribute.read?) (Attribute.listToJson x) x) ∧
    (∀ x, Exchanged Attribute.read? (Attribute.toJson x) x) ∧
    (∀ x, Forall₂ (Exchanged Argument.read?) (Argument.listToJson x) x) ∧
    (∀ x, Exchanged Argument.read? (Argument.toJson x) x) ∧
    (∀ x, Forall₂ (Exchanged DeclaredName.read?) (DeclaredName.listToJson x) x) ∧
    (∀ x, Exchanged DeclaredName.read? (DeclaredName.toJson x) x) ∧
    (∀ x, Json.Reading.ItemsOption Argument.read? (Argument.optionToJson x) x) ∧
    (∀ x, Forall₂ (Exchanged ElseIfBlock.read?) (ElseIfBlock.listToJson x) x) ∧
    (∀ x, Exchanged ElseIfBlock.read? (ElseIfBlock.toJson x) x) ∧
    (∀ x, Json.Reading.ItemsOption Statement.read? (Statement.optionToJson x) x) ∧
    (∀ x, Forall₂ (Exchanged Declarator.read?) (Declarator.listToJson x) x) ∧
    (∀ x, Forall₂ (Exchanged Parameter.read?) (Parameter.listToJson x) x) ∧
    (∀ x, Exchanged Parameter.read? (Parameter.toJson x) x) ∧
    (∀ x, ExchangedOr Initializer.read? .absent (Initializer.toJson x) x) ∧
    (∀ x, Forall₂ (Exchanged Content.read?) (Content.listToJson x) x) ∧
    (∀ x, Exchanged Content.read? (Content.toJson x) x) := by
  apply Expr.toJson.mutual_induct
  all_goals intros
  case case3 name =>
    cases name
    refine .variant rfl (fun _ => .value (NodeId.exchanged _) <| .value (exchanged_str _) ?_)
      (by simp [SimpleName.fields])
    exact .valueD (exchanged_list (TypeSyntax.exchanged_all _)) .done
  case case12 harguments hinitializer =>
    refine .variant rfl fun _ => .value (NodeId.exchanged _) <| .value (TypeSyntax.exchanged _) ?_
    exact .items? harguments <| .partOrElse hinitializer (fun _ => rfl) rfl .done
  case case47 hnames hclause hvalue =>
    refine .record Declarator.read?.eq_1 fun _ => .items hnames <| .partOr hclause fun h => ?_
    exact .part? hvalue <| .returns (by rw [h])
  case case69 hresource hstatements =>
    refine .variant rfl fun _ => reading_using hstatements fun _ => ?_
    exact .variant rfl fun _ => .part hresource .done
  case case70 hresources hstatements =>
    refine .variant rfl fun _ => reading_using hstatements fun _ => ?_
    exact .variant rfl fun _ => .items hresources .done
  case case72 htop hbottom hstatements =>
    refine .variant rfl fun _ => .partOr htop fun h => .partOr hbottom fun h' => ?_
    exact .itemsD hstatements <| .returns (by rw [h, h'])
  case case110 hfirst hrest =>
    exact .cons (.record readAttributes?.eq_1 fun _ => .items_last hfirst) hrest
  all_goals first
    | exact .nil
    | exact .none
    | exact .absent
    | exact .cons ‹_› ‹_›
    | exact .some ‹_›
    | exact exchanged_beside Statement.read?.eq_1 ‹_›
    | refine .variant rfl fun _ => ?_
    | refine .present (.variant rfl fun _ => ?_)
    | refine .present (.record LoopTest.read?.eq_1 fun _ => ?_)
    | refine .record FieldValue.read?.eq_1 fun _ => ?_
    | refine .record Attribute.read?.eq_1 fun _ => ?_
    | refine .record Parameter.read?.eq_1 fun _ => ?_
    | refine .record DeclaredName.read?.eq_1 fun _ => ?_
    | refine .record ElseIfBlock.read?.eq_1 fun _ => ?_
    | refine .record CaseBlock.read?.eq_1 fun _ => ?_
    | refine .record CatchBlock.read?.eq_1 fun _ => ?_
  all_goals
    apply_rules [Json.Reading.value, Json.Reading.valueD, Json.Reading.value?, Json.Reading.part,
      Json.Reading.part?, Json.Reading.items, Json.Reading.itemsD, Json.Reading.items?,
      Json.Reading.done, NodeId.exchanged, exchanged_str, exchanged_bool, exchanged_word,
      exchanged_words, exchanged_ranks, ExchangedOption.ofOption, SimpleName.exchanged,
      Name.exchanged, TypeSyntax.exchanged, Literal.exchanged, Trivia.exchanged,
        exchanged_collection]

theorem Expr.exchanged (value : Expr) : Exchanged Expr.read? value.toJson value :=
  exchanged_code.1 value

theorem Argument.exchanged (argument : Argument) :
    Exchanged Argument.read? argument.toJson argument :=
  exchanged_code.2.2.2.2.2.2.2.2.2.2.2.2.2.2.2.2.2.2.2.2.2.2.2.1 argument

theorem Attribute.exchanged_lists (lists : List (List Attribute)) :
    Forall₂ (Exchanged readAttributes?) (Attribute.listsToJson lists) lists :=
  exchanged_code.2.2.2.2.2.2.2.2.2.2.2.2.2.2.2.2.2.2.2.1 lists

theorem Parameter.exchanged (parameter : Parameter) :
    Exchanged Parameter.read? parameter.toJson parameter :=
  exchanged_code.2.2.2.2.2.2.2.2.2.2.2.2.2.2.2.2.2.2.2.2.2.2.2.2.2.2.2.2.2.2.2.2.1 parameter

theorem Parameter.exchanged_all (parameters : List Parameter) :
    Forall₂ (Exchanged Parameter.read?) (Parameter.listToJson parameters) parameters :=
  exchanged_code.2.2.2.2.2.2.2.2.2.2.2.2.2.2.2.2.2.2.2.2.2.2.2.2.2.2.2.2.2.2.2.1 parameters

theorem AsClause.exchanged (clause : AsClause) :
    ExchangedOr AsClause.read? .absent clause.toJson clause :=
  exchanged_code.2.2.2.2.2.2.2.2.2.2.2.2.2.2.2.2.2.2.1 clause

theorem Declarator.exchanged (declarator : Declarator) :
    Exchanged Declarator.read? declarator.toJson declarator :=
  exchanged_code.2.2.2.2.2.2.2.2.2.2.2.2.2.2.2.2.2.1 declarator

theorem Declarator.exchanged_all (declarators : List Declarator) :
    Forall₂ (Exchanged Declarator.read?) (Declarator.listToJson declarators) declarators :=
  exchanged_code.2.2.2.2.2.2.2.2.2.2.2.2.2.2.2.2.2.2.2.2.2.2.2.2.2.2.2.2.2.2.1 declarators

theorem Statement.exchanged (statement : Statement) :
    Exchanged Statement.read? statement.toJson statement :=
  exchanged_code.2.2.2.2.2.1 statement

theorem Statement.exchanged_all (statements : List Statement) :
    Forall₂ (Exchanged Statement.read?) (Statement.listToJson statements) statements :=
  exchanged_code.2.2.2.2.1 statements

end Source

end Sharpen
