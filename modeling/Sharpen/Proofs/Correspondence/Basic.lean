import Mathlib.Logic.Basic
import Sharpen.Proofs.Renumbering.Reading
import Sharpen.Proofs.SourceParts

/-!
# Corresponding conversions

A rule is a plain function of the converters one level further in. What two runs of a rule have to
do with each other therefore follows from what the conversions of the parts have to do with each
other, for every relation that the building blocks of rules keep.

* `Congruence` says what such a relation has to keep for the rules that only put results together;
* `Correspondence` says what it has to keep for the others, which read and change the surroundings;
* `Renumbered.expr`, `Renumbered.statement` and `Renumbered.declaration` are the main
  results: corresponding conversions of the parts of a node give corresponding conversions of the
  node.

Only the parts of the node itself are asked about, and statements only in the body in which the rule
converts them. Equality is a correspondence, so a rule depends on nothing but its parts.
-/

namespace Sharpen

open List
open Model (Symbol TypeSymbol SemanticTable)
open Source (NodeId Expr Statement StatementKind Declaration DeclarationKind Argument Attribute
  Parameter TypeSyntax)

/-- Conversions run one after the other. -/
theorem Convert.run_bind {α β : Type} (c : Convert α) (f : α → Convert β)
    (surroundings : Surroundings) :
    (c >>= f) surroundings = match c surroundings with
      | (.ok a, after) => f a after | (.error error, after) => (.error error, after) := by
  change ExceptT.bindCont f (c surroundings).1 (c surroundings).2 = _
  obtain ⟨result⟩ := c surroundings
  cases result with
  | ok a => rfl
  | error error => rfl

/-- A run of two conversions that succeeds is a successful run of each of them. -/
theorem Convert.ok_of_bind {α β : Type} {c : Convert α} {f : α → Convert β}
    {surroundings : Surroundings} {b : β} (h : ((c >>= f) surroundings).1 = .ok b) :
    ∃ a after, c surroundings = (.ok a, after) ∧ (f a after).1 = .ok b := by
  rw [run_bind] at h
  cases hfirst : c surroundings with
  | mk result after =>
    rw [hfirst] at h
    cases result with
    | ok a => exact ⟨a, after, rfl, h⟩
    | error error => cases h

/-- What is compared with `Nothing` is one of the two operands. -/
theorem Inner.eq_of_comparedWithNothing {operator : Source.BinaryOperator}
    {left right tested : Expr} {comparison : Target.BinaryOperator}
    (h : Inner.comparedWithNothing? operator left right = some (tested, comparison)) :
    tested = left ∨ tested = right := by
  unfold Inner.comparedWithNothing? at h
  grind

/-- A conversion inside a `With` block, with the name of the variable that holds the target. -/
def Convert.inWithBlock {α : Type} (reserved : List String) (inner : Convert α) :
    Convert (String × α) := do
  let name ← uniqueName (← get).receivers withVariable reserved
  return (name, ← Convert.withReceiver name inner)

/-- The name is found before the block is converted. -/
theorem Convert.run_inWithBlock {α : Type} (reserved : List String) (inner : Convert α)
    (surroundings : Surroundings) :
    inWithBlock reserved inner surroundings =
      match uniqueName surroundings.receivers withVariable reserved with
      | .ok name => (do return (name, ← withReceiver name inner) : Convert _) surroundings
      | .error error => (.error error, surroundings) := by
  unfold inWithBlock
  rw [run_bind]
  change ((liftM (uniqueName surroundings.receivers withVariable reserved) : Convert String) >>=
    _) surroundings = _
  generalize uniqueName surroundings.receivers withVariable reserved = result
  cases result with
  | ok name => rfl
  | error error => rfl

/-- The rule for `With` converts its block with a name that is free. -/
theorem Inner.withBlock_eq (inner : Inner) (body : Body) (whole : Statement) (target : Expr)
    (statements : List Statement) :
    inner.withBlock body whole target statements = do
      let target ← inner.value target
      let (name, converted) ←
        Convert.inWithBlock (inner.namesInside whole) (inner.statements body statements)
      return .block (.localVariable .var name (some target) :: converted) := by
  simp only [withBlock, Convert.inWithBlock, bind_assoc, pure_bind]

/-- A relation between conversions with results of the same type that is kept where they run one
after the other. -/
structure Congruence where
  /-- the relation -/
  Rel : {α : Type} → Convert α → Convert α → Prop
  ofExcept : ∀ {α : Type} (result : Except ConversionError α),
    Rel (Convert.ofExcept result) (Convert.ofExcept result)
  bind : ∀ {α β : Type} {c d : Convert α} {f g : α → Convert β},
    Rel c d → (∀ a, Rel (f a) (g a)) → Rel (c >>= f) (d >>= g)

/-- A relation that is kept by everything that rules are made of, also by what reads and changes the
surroundings. Going a level further in is no part of a rule. -/
structure Correspondence extends Congruence where
  get : Rel (get : Convert Surroundings) get
  takeBindingHead : Rel Convert.takeBindingHead Convert.takeBindingHead
  inContainer : ∀ {α : Type} {c d : Convert α} (container : Container),
    Rel c d → Rel (Convert.inContainer container c) (Convert.inContainer container d)
  inWithBlock : ∀ {α : Type} {c d : Convert α} (reserved : List String),
    Rel c d → Rel (Convert.inWithBlock reserved c) (Convert.inWithBlock reserved d)
  bindingHead : ∀ {α : Type} {c d : Convert α}, Rel c d →
    Rel (Convert.bindingHead c) (Convert.bindingHead d)

/-- The body in which the statements inside a statement are converted. -/
def Body.within (body : Body) (kind : StatementKind) : Body :=
  { body with breakables := kind.block?.toList ++ body.breakables }

namespace Congruence

variable (C : Congruence)

/-! ## Building blocks -/

theorem pure {α : Type} (a : α) : C.Rel (pure a) (pure a) :=
  C.ofExcept (.ok a)

theorem unsupported {α : Type} (kind reason : String) :
    C.Rel (Convert.unsupported kind reason : Convert α) (Convert.unsupported kind reason) :=
  C.ofExcept (.error (.unsupported kind reason))

theorem unimplemented {α : Type} (kind : String) :
    C.Rel (Convert.unimplemented kind : Convert α) (Convert.unimplemented kind) :=
  C.ofExcept (.error (.unimplemented kind))

/-- A conversion whose result is only put into a form. -/
theorem map {α β : Type} {c d : Convert α} (h : C.Rel c d) (f : α → β) :
    C.Rel (do return f (← c)) (do return f (← d)) :=
  C.bind h fun _ => C.pure _

theorem ite {α : Type} {p : Prop} [Decidable p] {c c' d d' : Convert α} (hpos : C.Rel c d)
    (hneg : C.Rel c' d') : C.Rel (if p then c else c') (if p then d else d') := by
  split
  · exact hpos
  · exact hneg

/-- Conversions of items, one after the other. -/
theorem mapM {α β : Type} {f g : α → Convert β} {items : List α}
    (h : ∀ item ∈ items, C.Rel (f item) (g item)) : C.Rel (items.mapM f) (items.mapM g) := by
  induction items with
  | nil => exact C.pure []
  | cons item rest ih =>
    rw [mapM_cons, mapM_cons]
    refine C.bind (h item mem_cons_self) fun converted => ?_
    refine C.bind (ih fun later hlater => h later (mem_cons_of_mem _ hlater)) fun others => ?_
    exact C.pure _

/-- Items that are changed on the one side. -/
theorem mapM_map {α β γ : Type} {change : α → γ} {f : γ → Convert β} {g : α → Convert β}
    {items : List α} (h : ∀ item ∈ items, C.Rel (f (change item)) (g item)) :
    C.Rel ((items.map change).mapM f) (items.mapM g) := by
  rw [List.mapM_map]
  exact C.mapM h

/-! ## Converters that correspond at some nodes -/

/-- Both converters treat an expression in corresponding ways. -/
def OnExpr (inner other : Inner) (expr : Expr) : Prop :=
  ∀ allowed, C.Rel (inner.expr allowed expr) (other.expr allowed expr)

/-- Both converters treat some expressions in corresponding ways. -/
abbrev OnExprs (inner other : Inner) (exprs : List Expr) : Prop :=
  ∀ expr ∈ exprs, C.OnExpr inner other expr

/-- Both converters treat a statement of a body in corresponding ways. -/
def OnStatement (inner other : Inner) (body : Body) (statement : Statement) : Prop :=
  C.Rel (inner.statement body statement) (other.statement body statement)

/-- Both converters treat some statements of a body in corresponding ways. -/
abbrev OnStatements (inner other : Inner) (body : Body) (statements : List Statement) : Prop :=
  ∀ statement ∈ statements, C.OnStatement inner other body statement

/-- Both converters treat a declaration in corresponding ways. -/
def OnDeclaration (inner other : Inner) (declaration : Declaration) : Prop :=
  C.Rel (inner.declaration declaration) (other.declaration declaration)

variable {C} {inner other : Inner}

theorem statements {body : Body} {statements : List Statement}
    (h : C.OnStatements inner other body statements) :
    C.Rel (inner.statements body statements) (other.statements body statements) :=
  C.map (C.mapM h) _

theorem table_eq (hsetting : inner.setting = other.setting) : inner.table = other.table := by
  rw [Inner.table, Inner.table, hsetting]

end Congruence

/-! ## Tables for other numbers -/

/-- What a table answers about a node. -/
structure Model.Answers where
  symbolInfo : Model.SymbolInfo
  typeInfo : Model.TypeInfo
  constant? : Option Model.ConstantValue
  declaredSymbol? : Option Symbol
  namesInScope : List String

/-- The answers about a node. -/
def Model.SemanticTable.answers (table : SemanticTable) (node : NodeId) : Model.Answers where
  symbolInfo := table.symbolInfo node
  typeInfo := table.typeInfo node
  constant? := table.constant? node
  declaredSymbol? := table.declaredSymbol? node
  namesInScope := table.namesInScope node

/-- The one table answers about the new numbers what the other one answers about the old ones. -/
structure Inner.Alike (f : NodeId → NodeId) (inner other : Inner) : Prop where
  options : inner.setting.options = other.setting.options
  answers : ∀ n, inner.table.answers (f n) = other.table.answers n

/-- The converters of nodes that get new numbers first. -/
def Inner.via (f : NodeId → NodeId) (inner : Inner) : Inner where
  setting := inner.setting
  expr allowed expr := inner.expr allowed (expr.renumber f)
  statement body statement := inner.statement body (statement.renumber f)
  declaration declaration := inner.declaration (declaration.renumber f)

namespace Inner.Alike

variable {f : NodeId → NodeId} {inner other : Inner} (h : inner.Alike f other)
include h

/-- What a number refers to. -/
theorem resolve (n : NodeId) : inner.table.resolve? (f n) = other.table.resolve? n := by
  have hinfo : inner.table.symbolInfo (f n) = other.table.symbolInfo n :=
    congrArg Model.Answers.symbolInfo (h.answers n)
  unfold SemanticTable.resolve?
  rw [hinfo]

/-- The types of an expression. -/
theorem typeInfo (n : NodeId) : inner.table.typeInfo (f n) = other.table.typeInfo n :=
  congrArg Model.Answers.typeInfo (h.answers n)

theorem expressionType (n : NodeId) :
    inner.table.expressionType? (f n) = other.table.expressionType? n :=
  congrArg Model.TypeInfo.type (h.typeInfo n)

theorem convertedType (n : NodeId) :
    inner.table.convertedType? (f n) = other.table.convertedType? n :=
  congrArg Model.TypeInfo.convertedType (h.typeInfo n)

/-- The constant value of an expression. -/
theorem integer (n : NodeId) : inner.table.integer? (f n) = other.table.integer? n :=
  congrArg (fun answers : Model.Answers => answers.constant?.bind Model.ConstantValue.integer?)
    (h.answers n)

theorem declaredSymbol (n : NodeId) :
    inner.table.declaredSymbol? (f n) = other.table.declaredSymbol? n :=
  congrArg Model.Answers.declaredSymbol? (h.answers n)

theorem namesInScope (n : NodeId) : inner.table.namesInScope (f n) = other.table.namesInScope n :=
  congrArg Model.Answers.namesInScope (h.answers n)

/-- The type that is written somewhere. -/
theorem typeOf (type : TypeSyntax) :
    inner.table.typeOf? (type.renumber f) = other.table.typeOf? type := by
  cases type with
  | predefined id keyword =>
    exact congrArg (·.or (some (TypeSymbol.ofSpecial (.ofKeyword keyword)))) (h.expressionType id)
  | named name =>
    change inner.table.expressionType? (name.renumber f).id = other.table.expressionType? name.id
    rw [name.id_renumber, h.expressionType]
  | array id element =>
    exact congrArg₂ (fun known element => known.or (element.map TypeSymbol.arrayOf))
      (h.expressionType id)
      (typeOf element)
  | nullable id => exact h.expressionType id

end Inner.Alike

/-! ## Arguments, attributes and parameters -/

namespace Renumbered

variable {C : Congruence} {f : NodeId → NodeId} {inner other : Inner}

/-- An expression that may be absent. -/
theorem value? {value : Option Expr} (h : C.OnExprs (inner.via f) other value.toList) :
    C.Rel (inner.value? (Expr.optionRenumber f value)) (other.value? value) := by
  cases value with
  | none => exact C.pure _
  | some value => exact C.map (h value (by simp) true) _

theorem values {exprs : List Expr} (h : C.OnExprs (inner.via f) other exprs) :
    C.Rel (inner.values (Expr.listRenumber f exprs)) (other.values exprs) := by
  simp only [Source.listRenumber_eq]
  exact C.mapM_map fun expr hexpr => h expr hexpr true

theorem statements {body : Body} {statements : List Statement}
    (h : C.OnStatements (inner.via f) other body statements) :
    C.Rel (inner.statements body (Statement.listRenumber f statements))
      (other.statements body statements) := by
  simp only [Source.listRenumber_eq]
  refine C.map (C.mapM_map ?_) _
  exact h

/-- Arguments, with what the call refers to. -/
theorem arguments {callee : Option Symbol} {arguments : List Argument}
    (h : C.OnExprs (inner.via f) other (arguments.flatMap Argument.exprs)) :
    C.Rel (inner.arguments callee (Argument.listRenumber f arguments))
      (other.arguments callee arguments) := by
  unfold Inner.arguments
  simp only [Source.listRenumber_eq, zipIdx_map]
  refine C.mapM_map ?_
  rintro ⟨argument, position⟩ hargument
  have hmem : argument ∈ arguments := (mem_zipIdx' hargument).2 ▸ getElem_mem _
  cases argument with
  | simple _ _ value =>
    simp only [Prod.map, Argument.renumber, Inner.argument, value.isReferable_renumber]
    exact C.map (h value (mem_flatMap.mpr ⟨_, hmem, mem_cons_self⟩) true) _
  | omitted => exact C.unsupported _ _

variable {lists : List (List Attribute)}

/-- Attributes with their arguments. -/
theorem attributes (h : C.OnExprs (inner.via f) other (Source.attributeExprs lists)) :
    C.Rel (inner.attributes (Attribute.listsRenumber f lists)) (other.attributes lists) := by
  unfold Inner.attributes
  simp only [Source.listRenumber_eq, ← map_flatten]
  refine C.mapM_map ?_
  rintro ⟨_, _, name, arguments⟩ hmark
  simp only [Attribute.renumber, Inner.attributeList, Source.listRenumber_eq,
    Source.convertTypes_renumber]
  refine C.bind (C.mapM_map fun argument hargument => ?_) fun _ => C.map (C.ofExcept _) _
  cases argument with
  | simple _ _ value =>
    refine C.map (h value ?_ true) _
    exact mem_flatMap.mpr ⟨_, hmark, mem_flatMap_of_mem hargument mem_cons_self⟩
  | omitted => exact C.unsupported _ _

theorem returnAttributes (h : C.OnExprs (inner.via f) other (Source.attributeExprs lists)) :
    C.Rel (inner.returnAttributes (Attribute.listsRenumber f lists))
      (other.returnAttributes lists) :=
  C.map (attributes h) _

section Parameters

variable (halike : inner.Alike f other)
include halike

/-- A parameter, with its attributes and its default. -/
theorem parameter {typed : Bool} {parameter : Parameter}
    (h : C.OnExprs (inner.via f) other parameter.exprs) :
    C.Rel (inner.parameter typed (parameter.renumber f)) (other.parameter typed parameter) := by
  obtain ⟨id, attributes, _, _, _, _, asType, _⟩ := parameter
  obtain ⟨hattributes, hdefault⟩ := forall_mem_append.mp h
  have hkept : C.OnExprs (inner.via f) other
      (Source.attributeExprs (attributes.map fun list => list.filter fun mark => !mark.isOut)) :=
    fun expr hexpr => hattributes expr (Source.mem_attributeExprs_of_filter hexpr)
  simp only [Parameter.renumber, Inner.parameter, Attribute.any_isOut_renumber,
    Attribute.filter_isOut_renumber, Inner.declaredType, halike.declaredSymbol]
  refine C.bind (C.ofExcept _) fun written => ?_
  cases asType with
  | none =>
    exact C.bind (C.pure _) fun _ => C.bind (value? hdefault) fun _ =>
      C.map (Renumbered.attributes hkept) _
  | some type =>
    simp only [Option.map_some, Source.convertTypes_renumber]
    refine C.bind (C.ofExcept _) fun _ => C.bind (C.pure _) fun _ => ?_
    exact C.bind (value? hdefault) fun _ => C.map (Renumbered.attributes hkept) _

/-- Parameters, one after the other. -/
theorem listed (typed : Bool) {parameters : List Parameter}
    (h : C.OnExprs (inner.via f) other (parameters.flatMap Parameter.exprs)) :
    C.Rel ((Parameter.listRenumber f parameters).mapM (inner.parameter typed))
      (parameters.mapM (other.parameter typed)) := by
  simp only [Source.listRenumber_eq]
  exact C.mapM_map fun parameter hparameter => Renumbered.parameter halike fun expr hexpr =>
    h expr (mem_flatMap_of_mem hparameter hexpr)

end Parameters

end Renumbered

/-! ## Reading the surroundings -/

namespace Correspondence

open List

variable (C : Correspondence)

theorem container? : C.Rel Convert.container? Convert.container? :=
  C.map C.get _

theorem inModule : C.Rel Convert.inModule Convert.inModule :=
  C.map C.container? _

/-- Where a member stands decides how it is written. -/
theorem memberSite : C.Rel Convert.memberSite Convert.memberSite := by
  refine C.bind C.container? fun container => ?_
  cases container with
  | some container => exact C.pure _
  | none => exact C.pure _

/-- What an access without a receiver refers to. -/
theorem implicitReceiver? : C.Rel Inner.implicitReceiver? Inner.implicitReceiver? := by
  refine C.bind C.takeBindingHead fun atHead => ?_
  split
  · exact C.pure _
  · exact C.map (C.map C.get _) _

end Correspondence

end Sharpen
