import Mathlib.Algebra.Group.Nat.Defs
import Sharpen.Source.Build
import Sharpen.Source.Encode.Declarations

/-!
# Numbers of built trees

A `Build` takes the numbers of its nodes one after the other. What a call builds has the numbers of
the finished parts it is handed, and those it takes itself, each of them once (`Allots`). So
whatever trees are built, in whatever order, and however they are put into each other, no number is
used twice and none is left out: the main result is `built_numbers_are_unique`.

The numbers of a tree are read off its written form, where each of them stands in a field `id`.
-/

namespace Sharpen

open List

namespace Json

/-- The number that a field `id` holds. -/
def number : Json → List Int
  | .int value => [value]
  | _ => []

mutual

/-- The numbers that stand in fields `id` anywhere in a value. -/
def ids : Json → List Int
  | .arr items => itemsIds items
  | .obj fields | .escaped fields => fieldsIds fields
  | .null | .bool _ | .int _ | .float _ | .str _ | .unreadable => []

/-- The numbers of the items of an array. -/
def itemsIds : List Json → List Int
  | [] => []
  | item :: rest => item.ids ++ itemsIds rest

/-- The numbers of the fields of an object. -/
def fieldsIds : List (String × Json) → List Int
  | [] => []
  | (name, value) :: rest => (if name = "id" then value.number else value.ids) ++ fieldsIds rest

end

end Json

namespace Source

/-- The numbers that are taken one after the other from some number on. -/
def numbersFrom (next : NodeId) (count : Nat) : List Int :=
  (List.range count).map fun i => ((next + .ofNat i).toNat : Int)

/-- The numbers that are taken in two goes. -/
theorem numbersFrom_add (next : NodeId) (count more : Nat) :
    numbersFrom next (count + more) = numbersFrom next count ++
      numbersFrom (next + .ofNat count) more := by
  simp [numbersFrom, range_add, UInt32.add_assoc]

/-- What is built has the numbers of the parts, and all those that are taken, each of them once. -/
def Build.Allots {α : Type} (ids : α → List Int) (parts : List Int) (build : Build α) : Prop :=
  ∀ next : NodeId, ∃ count value, build next = (value, next + .ofNat count) ∧
    (ids value).Perm (parts ++ numbersFrom next count)

namespace Build.Allots

variable {α β : Type} {ids : α → List Int} {idsOf : β → List Int} {parts all : List Int}

/-- A finished value takes no number. -/
theorem done {value : α} (h : (ids value).Perm parts) : Allots ids parts (pure value) := by
  refine fun next => ⟨0, value, ?_, by simpa [numbersFrom] using h⟩
  exact congrArg (Prod.mk value) next.add_zero.symm

/-- A fresh number is the only one that is taken. -/
theorem nextId : Allots (fun id => [(id.toNat : Int)]) [] nextId := by
  refine fun next => ⟨1, next, rfl, .of_eq ?_⟩
  change [_] = [((next + 0).toNat : Int)]
  rw [UInt32.add_zero]

/-- What the first step takes goes on, beside the parts that only the second one uses. -/
theorem bind (more : List Int) {build : Build α} {f : α → Build β} (h : Allots ids parts build)
    (hf : ∀ value, Allots idsOf (ids value ++ more) (f value)) (hall : parts ++ more ~ all) :
    Allots idsOf all (build >>= f) := by
  intro next
  obtain ⟨count, value, hrun, hids⟩ := h next
  obtain ⟨others, result, hlast, hresult⟩ := hf value (next + .ofNat count)
  refine ⟨count + others, result, ?_, hresult.trans ?_⟩
  · change f (build next).1 (build next).2 = _
    rw [hrun, UInt32.ofNat_add, ← UInt32.add_assoc]
    exact hlast
  · rw [numbersFrom_add]
    calc ids value ++ more ++ numbersFrom (next + .ofNat count) others
      _ ~ parts ++ numbersFrom next count ++ more ++ numbersFrom (next + .ofNat count) others :=
        (hids.append_right _).append_right _
      _ ~ parts ++ more ++
        (numbersFrom next count ++ numbersFrom (next + .ofNat count) others) := by
        simp only [append_assoc]
        exact perm_append_comm_assoc .. |>.append_left parts
      _ ~ all ++ (numbersFrom next count ++ numbersFrom (next + .ofNat count) others) :=
        hall.append_right _

/-- The order of the parts does not matter. -/
theorem perm {build : Build α} (h : Allots ids parts build) (hall : parts ~ all) :
    Allots ids all build := by
  intro next
  obtain ⟨count, value, hrun, hids⟩ := h next
  exact ⟨count, value, hrun, hids.trans (hall.append_right _)⟩

/-- A call that takes one number. -/
theorem node {f : NodeId → α} (h : ∀ id, (ids (f id)).Perm (↑id.toNat :: parts)) :
    Allots ids parts (do return f (← Build.nextId)) :=
  bind parts nextId (fun id => done (h id)) (.refl _)

/-- What is built may be put into something with the same numbers. -/
theorem map {f : α → β} {build : Build α} (h : Allots (fun value => idsOf (f value)) parts build) :
    Allots idsOf parts (f <$> build) := by
  intro next
  obtain ⟨count, value, hrun, hids⟩ := h next
  exact ⟨count, f value, by change (f (build next).1, (build next).2) = _; rw [hrun], hids⟩

/-- The items of a list are built one after the other. -/
theorem mapM {items : List β} {f : β → Build α} (h : ∀ item, Allots ids (idsOf item) (f item)) :
    Allots (fun values => values.flatMap ids) (items.flatMap idsOf) (items.mapM f) := by
  induction items with
  | nil => exact done (.refl _)
  | cons item rest ih =>
    rw [mapM_cons, flatMap_cons]
    refine bind (rest.flatMap idsOf) (h item) (fun value => ?_) (.refl _)
    exact bind (ids value) ih (fun values => done perm_append_comm) perm_append_comm

end Build.Allots

/-! ## Calls -/

/-- A call by which a tree is built, with the finished trees that it is handed, all of them as they
are written. The trees inside the kind of a statement or declaration are those whose numbers it has.
-/
inductive Build.Call : List Json → Build Json → Prop where
  | nextId : Call [] ((fun id => .obj [("id", NodeId.toJson id)]) <$> nextId)
  | simpleName (identifier) : Call [] (SimpleName.toJson <$> simpleName identifier)
  | genericName (identifier types) :
      Call (types.map TypeSyntax.toJson) (SimpleName.toJson <$> genericName identifier types)
  | name (dotted) : Call [] (Name.toJson <$> name dotted)
  | predefined (keyword) : Call [] (TypeSyntax.toJson <$> predefined keyword)
  | namedType (dotted) : Call [] (TypeSyntax.toJson <$> namedType dotted)
  | genericType (identifier types) :
      Call (types.map TypeSyntax.toJson) (TypeSyntax.toJson <$> genericType identifier types)
  | arrayType (element) : Call [element.toJson] (TypeSyntax.toJson <$> arrayType element)
  | nullableType (element) : Call [element.toJson] (TypeSyntax.toJson <$> nullableType element)
  | ident (identifier) : Call [] (Expr.toJson <$> ident identifier)
  | literal (value) : Call [] (Expr.toJson <$> literal value)
  | int (value) : Call [] (Expr.toJson <$> int value)
  | string (value) : Call [] (Expr.toJson <$> string value)
  | boolean (value) : Call [] (Expr.toJson <$> boolean value)
  | nothing : Call [] (Expr.toJson <$> nothing)
  | me : Call [] (Expr.toJson <$> me)
  | myBase : Call [] (Expr.toJson <$> myBase)
  | member (receiver name) : Call [receiver.toJson] (Expr.toJson <$> member receiver name)
  | implicitMember (name) : Call [] (Expr.toJson <$> implicitMember name)
  | argument (value) : Call [value.toJson] (Argument.toJson <$> argument value)
  | namedArgument (name value) : Call [value.toJson] (Argument.toJson <$> namedArgument name value)
  | invoke (target values) :
      Call (target.toJson :: values.map Expr.toJson) (Expr.toJson <$> invoke target values)
  | invokeWith (target arguments) :
      Call (target.toJson :: arguments.map Argument.toJson)
        (Expr.toJson <$> invokeWith target arguments)
  | binary (operator left right) :
      Call [left.toJson, right.toJson] (Expr.toJson <$> binary operator left right)
  | unary (operator operand) : Call [operand.toJson] (Expr.toJson <$> unary operator operand)
  | parenthesized (operand) : Call [operand.toJson] (Expr.toJson <$> parenthesized operand)
  | newObject (type values) :
      Call (type.toJson :: (values.getD []).map Expr.toJson) (Expr.toJson <$> newObject type values)
  | lambdaFunction (parameters body) :
      Call (parameters.map Parameter.toJson ++ [body.toJson])
        (Expr.toJson <$> lambdaFunction parameters body)
  | statement (kind) {parts} (h : Json.fieldsIds kind.fields ~ parts.flatMap Json.ids) :
      Call parts (Statement.toJson <$> statement kind)
  | expressionStatement (value) :
      Call [value.toJson] (Statement.toJson <$> expressionStatement value)
  | declaredName (identifier) : Call [] (DeclaredName.toJson <$> declaredName identifier)
  | declarator (identifier type initializer) :
      Call (type.toList.map TypeSyntax.toJson ++ initializer.toList.map Expr.toJson)
        (Declarator.toJson <$> declarator identifier type initializer)
  | dim (identifier type initializer) :
      Call (type.toList.map TypeSyntax.toJson ++ initializer.toList.map Expr.toJson)
        (Statement.toJson <$> dim identifier type initializer)
  | parameter (identifier type) :
      Call (type.toList.map TypeSyntax.toJson) (Parameter.toJson <$> parameter identifier type)
  | declaration (kind) {parts} (h : Json.fieldsIds kind.fields ~ parts.flatMap Json.ids) :
      Call parts (Declaration.toJson <$> declaration kind)
  | typeBlock (block identifier members) :
      Call (members.map Declaration.toJson)
        (Declaration.toJson <$> typeBlock block identifier members)
  | classBlock (identifier members) :
      Call (members.map Declaration.toJson) (Declaration.toJson <$> classBlock identifier members)
  | method (kind identifier parameters result body) :
      Call (parameters.map Parameter.toJson ++ result.toList.map TypeSyntax.toJson ++
        body.map Statement.toJson)
        (Declaration.toJson <$> method kind identifier parameters result body)
  | sub (identifier parameters body) :
      Call (parameters.map Parameter.toJson ++ body.map Statement.toJson)
        (Declaration.toJson <$> sub identifier parameters body)
  | compilationUnit (members) :
      Call (members.map Declaration.toJson) (CompilationUnit.toJson <$> compilationUnit members)

/-- The numbers of a list that is written item by item. -/
theorem itemsIds_eq {α : Type} {encode : List α → List Json} {one : α → Json}
    (hnil : encode [] = [])
    (hcons : ∀ value rest, encode (value :: rest) = one value :: encode rest) (values : List α) :
    Json.itemsIds (encode values) = values.flatMap fun value => (one value).ids := by
  induction values with
  | nil => rw [hnil]; rfl
  | cons value rest ih => rw [hcons, Json.itemsIds, ih]; rfl

/-- The numbers of two lists of fields. -/
theorem fieldsIds_append (fields more : List (String × Json)) :
    Json.fieldsIds (fields ++ more) = Json.fieldsIds fields ++ Json.fieldsIds more := by
  induction fields with
  | nil => rfl
  | cons field rest ih => simp [Json.fieldsIds, ih]

section

/-- A written list has the numbers of its items. -/
theorem lists_ids :
    (∀ types, Json.itemsIds (TypeSyntax.listToJson types) = types.flatMap (·.toJson.ids)) ∧
    (∀ arguments, Json.itemsIds (Argument.listToJson arguments) =
      arguments.flatMap (·.toJson.ids)) ∧
    (∀ parameters,
      Json.itemsIds (Parameter.listToJson parameters) = parameters.flatMap (·.toJson.ids)) ∧
    (∀ statements,
      Json.itemsIds (Statement.listToJson statements) = statements.flatMap (·.toJson.ids)) ∧
    ∀ members, Json.itemsIds (Declaration.listToJson members) = members.flatMap (·.toJson.ids) := by
  refine ⟨?_, ?_, ?_, ?_, ?_⟩ <;> exact itemsIds_eq rfl fun _ _ => rfl

/-- No trivia holds a number. -/
theorem trivia_ids : (Trivia.toJson {}).ids = [] := rfl

attribute [local simp] Json.ids Json.itemsIds Json.fieldsIds Json.number Json.ofVariant Json.ofWord
  Json.ofOption Json.ofUInt32 NodeId.toJson SimpleName.toJson SimpleName.fields Name.toJson
  TypeSyntax.toJson Expr.toJson Argument.toJson lists_ids trivia_ids fieldsIds_append ranksToJson
  modifiersToJson LambdaBody.toJson Statement.toJson StatementKind.fields DeclaredName.toJson
  DeclaredName.listToJson Declarator.toJson Declarator.listToJson AsClause.toJson
  Attribute.listsToJson Expr.optionToJson Argument.optionToJson Parameter.toJson Declaration.toJson
  DeclarationKind.fields CompilationUnit.toJson attributeListsToJson typeParametersToJson
  parametersToJson statementsToJson ResultClause.toJson Initializer.toJson flatMap_map

open Build

/-- A simple name takes one number. -/
theorem simpleName_allots (identifier : String) :
    Allots (·.toJson.ids) [] (simpleName identifier) :=
  .node fun id => by simp

/-- A generic name takes one number beside its types. -/
theorem genericName_allots (identifier : String) (types : List TypeSyntax) :
    Allots (·.toJson.ids) (types.flatMap (·.toJson.ids)) (genericName identifier types) :=
  .node fun id => by simp

/-- The first part of a name is `Global` or a simple name. -/
theorem nameStart_allots (part : String) : Allots (·.toJson.ids) [] (nameStart part) := by
  unfold nameStart
  split
  · exact .node fun id => by simp
  · exact .bind [] (simpleName_allots part) (fun name => .done (by simp)) (.refl _)

/-- Every further part takes two numbers, one for the part and one for the dot. -/
theorem nameFrom_allots (left : Name) (parts : List String) :
    Allots (·.toJson.ids) left.toJson.ids (nameFrom left parts) := by
  induction parts generalizing left with
  | nil => exact .done (.refl _)
  | cons part rest ih =>
    refine .bind left.toJson.ids .nextId (fun id => ?_) (.refl _)
    refine .bind _ (simpleName_allots part) (fun name => (ih _).perm ?_) (.refl _)
    simpa using (perm_append_comm : (_ :: _) ++ _ ~ _)

/-- A dotted name has the numbers it takes. -/
theorem name_allots (dotted : String) : Allots (·.toJson.ids) [] (name dotted) := by
  unfold name
  split
  · exact nameStart_allots ""
  · next part rest _ =>
    exact .bind [] (nameStart_allots part) (fun left => by simpa using nameFrom_allots left rest)
      (.refl _)

/-- A literal takes one number. -/
theorem literal_allots (value : Literal) : Allots (·.toJson.ids) [] (literal value) :=
  .node fun id => by cases value <;> simp [Literal.toJson]

/-- An access takes two numbers beside its receiver, if it has one. -/
theorem access_allots (receiver : Option Expr) (name : String) :
    Allots (·.toJson.ids) (receiver.toList.flatMap (·.toJson.ids)) (access receiver name) := by
  refine .bind _ .nextId (fun id => .bind _ (simpleName_allots name) (fun simple => .done ?_)
    (.refl _)) (.refl _)
  cases receiver with
  | none => simpa using (perm_append_comm : [_] ++ _ ~ _)
  | some receiver => simpa using (perm_append_comm : (_ :: _) ++ _ ~ _)

/-- Every argument takes one number beside its value. -/
theorem arguments_allot (values : List Expr) :
    Allots (fun arguments => arguments.flatMap (·.toJson.ids)) (values.flatMap (·.toJson.ids))
      (values.mapM argument) :=
  .mapM fun value => .node fun id => by simp

/-- A statement takes one number beside its parts. -/
theorem statement_allots {kind : StatementKind} {parts : List Int}
    (h : Json.fieldsIds kind.fields ~ parts) :
    Allots (·.toJson.ids) parts (statement kind) :=
  .node fun id => by simpa using h

/-- A declared name takes one number. -/
theorem declaredName_allots (identifier : String) :
    Allots (·.toJson.ids) [] (declaredName identifier) :=
  .node fun id => by simp

/-- A declarator has the numbers of its name, type and initializer. -/
theorem declarator_allots (identifier : String) (type : Option TypeSyntax)
    (initializer : Option Expr) :
    Allots (·.toJson.ids)
      ((type.toList.map (·.toJson) ++ initializer.toList.map (·.toJson)).flatMap Json.ids)
      (declarator identifier type initializer) := by
  refine .bind _ (declaredName_allots identifier) (fun name => .done ?_) (.refl _)
  cases type <;> cases initializer <;> simp

/-- A declaration takes one number beside its parts. -/
theorem declaration_allots {kind : DeclarationKind} {parts : List Int}
    (h : Json.fieldsIds kind.fields ~ parts) :
    Allots (·.toJson.ids) parts (declaration kind) :=
  .node fun id => by simpa using h

/-- Every call has the numbers of the trees it is handed and those it takes. -/
theorem Build.Call.allots {parts : List Json} {call : Build Json} (h : Call parts call) :
    Allots Json.ids (parts.flatMap Json.ids) call := by
  cases h with
  | nextId => exact .map (by simpa using Allots.nextId)
  | simpleName identifier => exact .map (simpleName_allots identifier)
  | name dotted => exact .map (name_allots dotted)
  | namedType dotted =>
    exact .map (.bind [] (name_allots dotted) (fun name => .done (by simp)) (.refl _))
  | genericType identifier types =>
    exact .map (.bind [] (genericName_allots identifier types) (fun name =>
      .done (by simp)) (by simp))
  | ident identifier =>
    exact .map (.bind [] (simpleName_allots identifier) (fun name => .done (by simp)) (.refl _))
  | literal | int | string | boolean | nothing => exact .map (literal_allots _)
  | member receiver name => exact .map (access_allots receiver name)
  | implicitMember name => exact .map (access_allots none name)
  | invoke target values =>
    refine .map (.bind target.toJson.ids (arguments_allot values) (fun arguments =>
      .node fun id => ?_) ?_)
    · simpa using perm_append_comm
    · simpa using perm_append_comm
  | newObject type values =>
    refine .map (.bind (type.toJson.ids ++ (values.getD []).flatMap (·.toJson.ids)) .nextId
      (fun id => ?_) (by simp))
    cases values with
    | none => exact .done (by simp)
    | some values =>
      refine .bind (↑id.toNat :: type.toJson.ids) (arguments_allot values)
        (fun arguments => .done ?_) ?_
      · simpa using (perm_append_comm : (_ :: _) ++ _ ~ _)
      · simpa using (perm_append_comm : _ ++ (_ :: _) ~ _)
  | statement _ h => exact .map (statement_allots h)
  | declarator identifier type initializer =>
    exact .map (declarator_allots identifier type initializer)
  | dim identifier type initializer =>
    refine .map (.bind [] (declarator_allots identifier type initializer) (fun declarator =>
      ?_) (by simp))
    exact statement_allots (by simp)
  | parameter _ type => exact .map (.node fun id => by cases type <;> simp)
  | declaration _ h => exact .map (declaration_allots h)
  | method _ _ _ result => exact .map (declaration_allots (by cases result <;> simp))
  | typeBlock | classBlock | sub => exact .map (declaration_allots (by simp))
  | _ => exact .map (.node fun id => by simp)

end

/-! ## Sessions -/

/-- What a new builder comes to by calls, each of them handed trees that are built and not yet used:
the trees that are left, and the next number. -/
inductive Build.Session : List Json → NodeId → Prop where
  | start : Session [] first
  | call {trees used rest : List Json} {next after : NodeId} {call : Build Json} {tree : Json}
      (h : Session trees next) (htrees : trees ~ used ++ rest) (hcall : Call used call)
      (hrun : call next = (tree, after)) : Session (tree :: rest) after

/-- The trees of a session hold all the numbers that were taken, each of them once. -/
theorem Build.Session.ids_perm {trees : List Json} {next : NodeId} (h : Session trees next) :
    ∃ count, next = first + .ofNat count ∧ trees.flatMap Json.ids ~ numbersFrom first count := by
  induction h with
  | start => exact ⟨0, rfl, .refl _⟩
  | @call trees used rest _ _ _ tree _ htrees hcall hrun ih =>
    obtain ⟨count, rfl, hids⟩ := ih
    obtain ⟨more, _, hvalue, htree⟩ := hcall.allots (first + .ofNat count)
    obtain ⟨rfl, rfl⟩ := Prod.mk.inj (hrun.symm.trans hvalue)
    refine ⟨count + more, by rw [UInt32.ofNat_add, UInt32.add_assoc], ?_⟩
    calc (tree :: rest).flatMap Json.ids
      _ ~ used.flatMap Json.ids ++ numbersFrom (first + .ofNat count) more ++
        rest.flatMap Json.ids :=
        htree.append_right _
      _ ~ (used ++ rest).flatMap Json.ids ++ numbersFrom (first + .ofNat count) more := by
        rw [flatMap_append, append_assoc, append_assoc]
        exact perm_append_comm.append_left _
      _ ~ trees.flatMap Json.ids ++ numbersFrom (first + .ofNat count) more :=
        (htrees.symm.flatMap_right _).append_right _
      _ ~ numbersFrom first count ++ numbersFrom (first + .ofNat count) more := hids.append_right _
      _ = numbersFrom first (count + more) := (numbersFrom_add ..).symm

/-- Below the bound, numbers do not wrap around. -/
theorem toNat_first_add {count : Nat} (h : count < 2 ^ 32 - 1) :
    (Build.first + .ofNat count).toNat = count + 1 := by
  rw [UInt32.toNat_add, UInt32.toNat_ofNat']
  change (1 + count % 2 ^ 32) % 2 ^ 32 = count + 1
  omega

/-- Below the bound of the numbers, those that are taken first are the numbers from `1` on. -/
theorem numbersFrom_first {count : Nat} (h : count < 2 ^ 32 - 1) :
    numbersFrom Build.first count = (List.range count).map fun i => ((i + 1 : Nat) : Int) := by
  refine map_congr_left fun i hi => ?_
  have hlt : i < count := mem_range.mp hi
  rw [toNat_first_add (by omega)]

/-- Whatever trees a builder builds, in whatever order and however they are nested: as long as the
numbers last, no number stands twice in them, and those that stand there are the ones from `1` up to
the next fresh one. -/
theorem built_numbers_are_unique {trees : List Json} {next : NodeId} (h : Build.Session trees next)
    (hcount : (trees.flatMap Json.ids).length < 2 ^ 32 - 1) :
    (trees.flatMap Json.ids).Nodup ∧
      ∀ number : Int, number ∈ trees.flatMap Json.ids ↔ 1 ≤ number ∧
        number < (Build.nextId next).1.toNat := by
  obtain ⟨count, rfl, hids⟩ := h.ids_perm
  have hlength : count < 2 ^ 32 - 1 := by simpa [hids.length_eq, numbersFrom] using hcount
  rw [numbersFrom_first hlength] at hids
  have hnext : (Build.nextId (Build.first + .ofNat count)).1.toNat = count + 1 :=
    toNat_first_add hlength
  refine ⟨hids.nodup_iff.mpr ?_, fun number => hids.mem_iff.trans ?_⟩
  · refine Pairwise.map _ (fun i j (hne : i ≠ j) => ?_) nodup_range
    omega
  · rw [hnext, mem_map]
    constructor
    · rintro ⟨i, hi, rfl⟩
      have hlt : i < count := mem_range.mp hi
      omega
    · rintro ⟨_, _⟩
      exact ⟨(number - 1).toNat, mem_range.mpr (by omega), by omega⟩

/-- A declaration whose type is generic and whose value is a call, and a number taken for itself. -/
theorem numbers_of_a_declaration_and_one_more : ∃ trees next, Build.Session trees next ∧
    trees.flatMap Json.ids = [9, 8, 7, 6, 5, 4, 1, 3, 2] ∧ (trees.flatMap Json.ids).Nodup ∧
      ∀ number : Int, number ∈ trees.flatMap Json.ids ↔ 1 ≤ number ∧
        number < (Build.nextId next).1.toNat := by
  have hname := Build.Session.call .start (.refl _) (.ident "f") rfl
  have hvalue := Build.Session.call hname (.refl _) (.int 5) rfl
  have hcall := Build.Session.call hvalue (.swap ..) (.invoke _ [_]) rfl
  have hpart := Build.Session.call hcall (.refl _) (.predefined .integer) rfl
  have htype := Build.Session.call hpart (.refl _) (.genericType "Task" [_]) rfl
  have hdim := Build.Session.call htype (.refl _) (.dim "x" (some _) (some _)) rfl
  have hlast := Build.Session.call hdim (.refl _) .nextId rfl
  have hcount : 9 < 2 ^ 32 - 1 := by decide
  exact ⟨_, _, hlast, rfl, built_numbers_are_unique hlast hcount⟩

end Source

end Sharpen
