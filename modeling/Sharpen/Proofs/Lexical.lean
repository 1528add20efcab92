import Mathlib.Logic.Relation
import Sharpen.Proofs.Surroundings

/-!
# What an access without a receiver refers to

`.name` refers to the target of the innermost `With` block around it, unless it is the head of the
right side of a conditional access: in `a?.b(.c)`, `.b` belongs to `a` and `.c` to the block. The
conversion finds out with a stack of names and a flag that the first access takes down, both of them
shared by all nodes. Here is the same conversion without any shared state: converters for every
`Place`, which hand it on to the parts of a node (`Inner.lexical`).

* `Source.Expr.convertAt` and `Source.Statement.convertAt` say which part stands where;
* `bare_accesses_bind_by_place` is the main result: both conversions agree on every tree in which
  the right side of each conditional access starts with an access without a receiver.
-/

namespace Sharpen

open List

open Source (Expr Statement NodeId Argument)

/-! ## Conversion by place -/

/-- Where an expression stands: what an access without a receiver refers to there. -/
structure Place where
  /-- the variables of the `With` blocks around it, innermost first -/
  receivers : List String
  /-- whether it starts the right side of a conditional access -/
  atHead : Bool := false

namespace Place

/-- The variable that an access without a receiver belongs to. The head of a conditional access has
none. -/
def receiver? (place : Place) : Option String :=
  if place.atHead then none else place.receivers.head?

/-- The right side of a conditional access. -/
def head (place : Place) : Place :=
  { place with atHead := true }

/-- Any part that does not start the expression around it. -/
def apart (place : Place) : Place :=
  { place with atHead := false }

/-- The inside of a `With` block. -/
def inBlock (place : Place) (name : String) : Place :=
  { receivers := name :: place.receivers }

end Place

/-- A call or the reading of an element, with a target that is converted elsewhere. -/
def Inner.callOf (inner : Inner) (id : NodeId) (target : Expr) (converted : Convert Target.Expr)
    (arguments : List Argument) : Convert Target.Expr := do
  let callee := inner.table.resolve? id
  let converted ← converted
  let arguments ← inner.arguments callee arguments
  if Model.readsElement callee (inner.table.resolve? target.id) then
    return .elementAccess converted arguments
  else return .invocation converted arguments

/-- The rule for an expression at a place. An access, a call and a conditional access start with
their receiver, target and left side, which stand where the whole stands. -/
def Source.Expr.convertAt (inner : Place → Inner) (place : Place) (allowed : Bool) :
    Expr → Convert Target.Expr
  | .memberAccess id none simple => do
    let identifier := convertIdentifier simple.identifier
    let typeArguments ← convertTypes simple.typeArguments
    return (inner place).autoInvoke id allowed (match place.receiver? with
      | some receiver => .memberAccess (.identifier receiver) identifier typeArguments
      | none => .memberBinding identifier)
  | .memberAccess id (some receiver) simple => do
    return (inner place).autoInvoke id allowed (← (inner place).memberAccess (some receiver) simple)
  | .conditionalAccess _ receiver whenNotNull => do
    let receiver ← (inner place).value receiver
    return .conditionalAccess receiver (← (inner place.head).value whenNotNull)
  | .invocation id target arguments =>
    (inner place.apart).callOf id target ((inner place).expr false target) arguments
  | expr => expr.convertWith (inner place.apart) allowed

/-- The rule for a statement at a place. The target of a `With` block stands outside the block. -/
def Source.Statement.convertAt (inner : Place → Inner) (place : Place) (body : Body)
    (statement : Statement) : Convert (List Target.Statement) :=
  match statement.kind with
  | .with target statements => do
    let target ← (inner place).value target
    let name ← uniqueName place.receivers withVariable ((inner place).namesInside statement)
    let converted ← (inner (place.inBlock name)).statements body statements
    return [.block (.localVariable .var name (some target) :: converted)]
  | _ => statement.convertKind (inner place) body

/-- The converters for a place that may go a number of levels deep. -/
def Inner.lexical (setting : Setting) : (levels : Nat) → Place → Inner
  | 0, _ => Inner.at setting 0
  | levels + 1, place => {
    setting
    expr := fun allowed expr => expr.convertAt (Inner.lexical setting levels) place allowed
    statement := fun body statement => do
      let converted ← statement.convertAt (Inner.lexical setting levels) place.apart body
      return attachStatements statement.trivia converted
    declaration := fun declaration =>
      declaration.convertKind (Inner.lexical setting levels place.apart) }

/-! ## Conditional accesses -/

namespace Source

/-- An expression that starts with an access without a receiver. -/
def Expr.startsBare : Expr → Bool
  | .memberAccess _ none _ => true
  | .memberAccess _ (some receiver) _ => receiver.startsBare
  | .invocation _ target _ => target.startsBare
  | .conditionalAccess _ receiver _ => receiver.startsBare
  | _ => false

/-- A node stands somewhere inside another one, or is that node. -/
def Node.Contains (whole part : Node) : Prop :=
  Relation.ReflTransGen (fun outer inner => inner ∈ outer.parts) whole part

/-- The right sides of all conditional accesses in a node start with an access without a receiver.
-/
def Node.HeadsAreBare (node : Node) : Prop :=
  ∀ id receiver whenNotNull, node.Contains (.expr (.conditionalAccess id receiver whenNotNull)) →
    whenNotNull.startsBare

theorem Node.HeadsAreBare.of_mem_parts {node part : Node} (h : node.HeadsAreBare)
    (hpart : part ∈ node.parts) : part.HeadsAreBare :=
  fun id receiver whenNotNull hcontains => h id receiver whenNotNull (hcontains.head hpart)

theorem Node.HeadsAreBare.of_parts {node : Node} (hparts : ∀ part ∈ node.parts, part.HeadsAreBare)
    (hnode : ∀ id receiver whenNotNull, node = .expr (.conditionalAccess id receiver whenNotNull) →
      whenNotNull.startsBare) : node.HeadsAreBare := by
  intro id receiver whenNotNull hcontains
  obtain rfl | ⟨part, hpart, hcontains⟩ := hcontains.cases_head
  · exact hnode id receiver whenNotNull rfl
  · exact hparts part hpart id receiver whenNotNull hcontains

end Source

/-! ## Agreement -/

/-- Both conversions give the same, where the first one starts with these names and with the flag
for the head of a conditional access down. -/
def Convert.AgreesAt {α : Type} (receivers : List String) (c d : Convert α) : Prop :=
  ∀ surroundings elsewhere : Surroundings, surroundings.receivers = receivers →
    surroundings.atBindingHead = false →
    ∃ result, c surroundings = (result, surroundings) ∧ d elsewhere = (result, elsewhere)

/-- Both conversions give the same, where the first one starts with the flag up. If it succeeds, it
has taken the flag down. -/
def Convert.AgreesAtHead {α : Type} (receivers : List String) (c d : Convert α) : Prop :=
  ∀ surroundings elsewhere : Surroundings, surroundings.receivers = receivers →
    surroundings.atBindingHead = true →
    ∃ result after, c surroundings = (result, after) ∧ d elsewhere = (result, elsewhere) ∧
      surroundings.Settles after ∧ (result.isOk → after.atBindingHead = false)

namespace Convert

variable {α β : Type} {receivers : List String} {c d : Convert α}

variable {f g : α → Convert β}

theorem AgreesAt.bind (hc : AgreesAt receivers c d) (hf : ∀ a, AgreesAt receivers (f a) (g a)) :
    AgreesAt receivers (c >>= f) (d >>= g) := by
  intro surroundings elsewhere hreceivers hflag
  obtain ⟨result, hfirst, hsecond⟩ := hc surroundings elsewhere hreceivers hflag
  rw [run_bind, run_bind, hfirst, hsecond]
  cases result with
  | ok a => exact hf a surroundings elsewhere hreceivers hflag
  | error error => exact ⟨_, rfl, rfl⟩

/-- What comes after the head is converted with the flag down. -/
theorem AgreesAtHead.bind (hc : AgreesAtHead receivers c d)
    (hf : ∀ a, AgreesAt receivers (f a) (g a)) :
    AgreesAtHead receivers (c >>= f) (d >>= g) := by
  intro surroundings elsewhere hreceivers hflag
  obtain ⟨result, after, hfirst, hsecond, hsettles, hdown⟩ :=
    hc surroundings elsewhere hreceivers hflag
  rw [run_bind, run_bind, hfirst, hsecond]
  cases result with
  | ok a =>
    have hsame : after.receivers = receivers := by
      obtain rfl | rfl := hsettles <;> exact hreceivers
    obtain ⟨later, hthird, hfourth⟩ := hf a after elsewhere hsame (hdown rfl)
    exact ⟨later, after, hthird, hfourth, hsettles, fun _ => hdown rfl⟩
  | error error => exact ⟨_, after, rfl, rfl, hsettles, fun h => nomatch h⟩

/-- What needs no surroundings leaves the flag up. -/
theorem AgreesAtHead.ofExcept_bind {result : Except ConversionError α}
    (hf : ∀ a, AgreesAtHead receivers (f a) (g a)) :
    AgreesAtHead receivers (ofExcept result >>= f) (ofExcept result >>= g) := by
  intro surroundings elsewhere hreceivers hflag
  cases result with
  | ok a => exact hf a surroundings elsewhere hreceivers hflag
  | error error => exact ⟨_, surroundings, rfl, rfl, .refl surroundings, fun h => nomatch h⟩

/-- The right side of a conditional access. -/
theorem AgreesAtHead.bindingHead (hc : AgreesAtHead receivers c d) :
    AgreesAt receivers (Convert.bindingHead c) d := by
  intro surroundings elsewhere hreceivers hflag
  obtain ⟨result, _, hfirst, hsecond, hsettles, -⟩ :=
    hc { surroundings with atBindingHead := true } elsewhere hreceivers rfl
  refine ⟨result, ?_, hsecond⟩
  unfold Convert.bindingHead
  rw [hfirst]
  obtain rfl | rfl := hsettles <;> rfl

theorem AgreesAt.nested (hc : AgreesAt receivers c d) :
    AgreesAt receivers (Convert.nested c) d := by
  intro surroundings elsewhere hreceivers hflag
  obtain ⟨result, hfirst, hsecond⟩ :=
    hc { surroundings with depth := surroundings.depth + 1 } elsewhere hreceivers hflag
  refine ⟨result, ?_, hsecond⟩
  unfold Convert.nested Convert.within
  rw [hfirst]
  rfl

theorem AgreesAtHead.nested (hc : AgreesAtHead receivers c d) :
    AgreesAtHead receivers (Convert.nested c) d := by
  intro surroundings elsewhere hreceivers hflag
  obtain ⟨result, after, hfirst, hsecond, hsettles, hdown⟩ :=
    hc { surroundings with depth := surroundings.depth + 1 } elsewhere hreceivers hflag
  refine ⟨result, { after with depth := after.depth - 1 }, ?_, hsecond, ?_, hdown⟩
  · unfold Convert.nested Convert.within
    rw [hfirst]
  · obtain rfl | rfl := hsettles
    · exact .inl rfl
    · exact .inr rfl

/-- Inside a `With` block there is one name more. -/
theorem AgreesAt.withReceiver {name : String} (hc : AgreesAt (name :: receivers) c d) :
    AgreesAt receivers (Convert.withReceiver name c) d := by
  intro surroundings elsewhere hreceivers hflag
  obtain ⟨result, hfirst, hsecond⟩ :=
    hc { surroundings with receivers := name :: surroundings.receivers } elsewhere
      (congrArg (name :: ·) hreceivers) hflag
  refine ⟨result, ?_, hsecond⟩
  unfold Convert.withReceiver Convert.within
  rw [hfirst]
  rfl

theorem AgreesAt.inWithBlock (reserved : List String) {d : String → Convert α}
    (hc : ∀ name, AgreesAt (name :: receivers) c (d name)) :
    AgreesAt receivers (Convert.inWithBlock reserved c) (do
      let name ← uniqueName receivers withVariable reserved
      return (name, ← d name)) := by
  intro surroundings elsewhere hreceivers hflag
  rw [Convert.run_inWithBlock, hreceivers]
  generalize uniqueName receivers withVariable reserved = chosen
  cases chosen with
  | error error => exact ⟨_, rfl, rfl⟩
  | ok name =>
    refine (hc name).withReceiver.bind (fun result => ?_) surroundings elsewhere hreceivers hflag
    exact fun _ _ _ _ => ⟨_, rfl, rfl⟩

end Convert

/-- Agreement is kept by all rules that do not depend on the place. -/
def agreeing (receivers : List String) : Congruence where
  Rel c d := Convert.AgreesAt receivers c d
  ofExcept _ _ _ _ _ := ⟨_, rfl, rfl⟩
  bind hc hf := hc.bind hf

/-- Converters that agree with converters for every place, on trees in which heads are bare. -/
structure AgreesEverywhere (inner : Inner) (other : Place → Inner) : Prop where
  setting : ∀ place, inner.setting = (other place).setting
  expr : ∀ (receivers : List String) (expr : Expr), (Source.Node.expr expr).HeadsAreBare →
    (agreeing receivers).OnExpr inner (other { receivers }) expr
  head : ∀ (receivers : List String) (expr : Expr), (Source.Node.expr expr).HeadsAreBare →
    expr.startsBare → ∀ allowed, Convert.AgreesAtHead receivers (inner.expr allowed expr)
      ((other { receivers, atHead := true }).expr allowed expr)
  statement : ∀ (receivers : List String) (body : Body) (statement : Statement),
    (Source.Node.statement statement).HeadsAreBare →
    (agreeing receivers).OnStatement inner (other { receivers }) body statement

namespace AgreesEverywhere

variable {inner : Inner} {other : Place → Inner} (h : AgreesEverywhere inner other)
include h

/-- An access without a receiver, away from the head of a conditional access: it belongs to the
innermost `With` block. -/
theorem bareAccess (receivers : List String) (id : NodeId) (name : Source.SimpleName)
    (allowed : Bool) :
    Convert.AgreesAt receivers ((Expr.memberAccess id none name).convertWith inner allowed)
      ((Expr.memberAccess id none name).convertAt other { receivers } allowed) := by
  simp only [Expr.convertWith, Expr.convertAt, Congruence.autoInvoke_eq (h.setting { receivers }),
    Inner.memberAccess, bind_assoc]
  refine (agreeing receivers).bind ((agreeing receivers).ofExcept _) fun typeArguments => ?_
  rintro ⟨_, _, names, _⟩ _ rfl rfl
  cases names with
  | nil => exact ⟨_, rfl, rfl⟩
  | cons receiver outer => exact ⟨_, rfl, rfl⟩

/-- An access without a receiver at the head of a conditional access: it takes the flag down. -/
theorem bareHead (receivers : List String) (id : NodeId) (name : Source.SimpleName)
    (allowed : Bool) :
    Convert.AgreesAtHead receivers ((Expr.memberAccess id none name).convertWith inner allowed)
      ((Expr.memberAccess id none name).convertAt other { receivers, atHead := true } allowed) := by
  simp only [Expr.convertWith, Expr.convertAt,
    Congruence.autoInvoke_eq (h.setting { receivers, atHead := true }), Inner.memberAccess,
    bind_assoc]
  refine Convert.AgreesAtHead.ofExcept_bind fun typeArguments => ?_
  rintro ⟨_, _, _, _⟩ _ rfl rfl
  exact ⟨_, _, rfl, rfl, .inr rfl, fun _ => rfl⟩

variable {receivers : List String}

/-- The right side of a conditional access. -/
theorem whenNotNull {id : NodeId} {left right : Expr}
    (hbare : (Source.Node.expr (.conditionalAccess id left right)).HeadsAreBare) :
    Convert.AgreesAt receivers (Convert.bindingHead (inner.value right))
      ((other { receivers, atHead := true }).value right) := by
  have hmem :
    (Source.Node.expr right) ∈ (Source.Node.expr (.conditionalAccess id left right)).parts := by
    simp [Source.Node.parts, Expr.parts]
  exact (h.head receivers right (hbare.of_mem_parts hmem) (hbare id left right .refl)
    true).bindingHead

variable {expr : Expr}

theorem parts (receivers : List String) (hbare : (Source.Node.expr expr).HeadsAreBare) :
    ∀ part ∈ expr.parts, (agreeing receivers).OnExpr inner (other { receivers }) part :=
  fun part hpart =>
    h.expr receivers part (hbare.of_mem_parts (mem_append_left _ (mem_map_of_mem hpart)))

/-- The rule for an expression away from the head of a conditional access. -/
theorem convertWith {allowed : Bool} (hbare : (Source.Node.expr expr).HeadsAreBare) :
    Convert.AgreesAt receivers (expr.convertWith inner allowed)
      (expr.convertAt other { receivers } allowed) := by
  have hparts := h.parts receivers hbare
  cases hplain : expr.readsSurroundings with
  | false =>
    have hrule : expr.convertAt other { receivers } allowed =
      expr.convertWith (other { receivers }) allowed := by
      cases expr with
      | memberAccess _ receiver =>
        cases receiver with
        | none => cases hplain
        | some receiver => rfl
      | conditionalAccess => cases hplain
      | _ => rfl
    rw [hrule]
    refine Congruence.expr (C := agreeing receivers) (h.setting _) hplain hparts
      fun body _ part hpart => ?_
    exact h.statement receivers body part
      (hbare.of_mem_parts (mem_append_right _ (mem_map_of_mem hpart)))
  | true =>
    unfold Expr.readsSurroundings at hplain
    split at hplain
    · exact h.bareAccess receivers _ _ allowed
    · next left _ =>
      refine (agreeing receivers).bind (hparts left (by simp [Expr.parts]) true) fun converted => ?_
      exact (agreeing receivers).map (h.whenNotNull hbare) _
    · cases hplain

/-- The rule for an expression that starts the right side of a conditional access. -/
theorem convertWithHead {allowed : Bool} (hbare : (Source.Node.expr expr).HeadsAreBare)
    (hstarts : expr.startsBare) :
    Convert.AgreesAtHead receivers (expr.convertWith inner allowed)
      (expr.convertAt other { receivers, atHead := true } allowed) := by
  have hparts := h.parts receivers hbare
  have hpure : ∀ {α : Type} (a : α), Convert.AgreesAt receivers (pure a) (pure a) :=
    (agreeing receivers).pure
  have hfirst : ∀ part ∈ expr.parts, part.startsBare → ∀ allowed,
      Convert.AgreesAtHead receivers (inner.expr allowed part)
        ((other { receivers, atHead := true }).expr allowed part) :=
    fun part hpart =>
      h.head receivers part (hbare.of_mem_parts (mem_append_left _ (mem_map_of_mem hpart)))
  cases expr with
  | memberAccess id receiver name =>
    cases receiver with
    | none => exact h.bareHead receivers id name allowed
    | some receiver =>
      have haccess : ∀ inner : Inner, inner.memberAccess (some receiver) name = (do
            let typeArguments ← convertTypes name.typeArguments
            return .memberAccess (← inner.value receiver) (convertIdentifier name.identifier)
              typeArguments) := by
        intro inner
        cases receiver <;> first | rfl | cases hstarts
      simp only [Expr.convertWith, Expr.convertAt,
        Congruence.autoInvoke_eq (h.setting { receivers, atHead := true }), haccess, bind_assoc]
      refine Convert.AgreesAtHead.ofExcept_bind fun typeArguments => ?_
      exact (hfirst receiver (mem_cons_self ..) hstarts true).bind fun converted => hpure _
  | invocation id target arguments =>
    change Convert.AgreesAtHead receivers
      (inner.callOf id target (inner.expr false target) arguments) _
    unfold Expr.convertAt Inner.callOf
    rw [Congruence.table_eq (h.setting { receivers })]
    refine (hfirst target (mem_cons_self ..) hstarts false).bind fun converted => ?_
    refine (agreeing receivers).bind (Congruence.arguments fun part hpart => ?_) fun arguments => ?_
    · exact hparts part (mem_cons_of_mem _ hpart)
    · exact (agreeing receivers).ite (hpure _) (hpure _)
  | conditionalAccess _ left =>
    refine (hfirst left (mem_cons_self ..) hstarts true).bind fun converted => ?_
    exact (agreeing receivers).map (h.whenNotNull hbare) _
  | _ => cases hstarts

/-- The rule for a statement. -/
theorem convertKind {body : Body} {statement : Statement}
    (hbare : (Source.Node.statement statement).HeadsAreBare) :
    Convert.AgreesAt receivers (statement.convertKind inner body)
      (statement.convertAt other { receivers } body) := by
  have hexprs : ∀ receivers, ∀ part ∈ statement.kind.exprs,
      (agreeing receivers).OnExpr inner (other { receivers }) part :=
    fun receivers part hpart => h.expr receivers part
      (hbare.of_mem_parts (mem_append_left _ (mem_map_of_mem hpart)))
  have hstatements : ∀ receivers body, ∀ part ∈ statement.kind.statements,
      (agreeing receivers).OnStatement inner (other { receivers }) body part :=
    fun receivers body part hpart => h.statement receivers body part
      (hbare.of_mem_parts (mem_append_right _ (mem_map_of_mem hpart)))
  by_cases hwith : ∃ target statements, statement.kind = .with target statements
  · obtain ⟨id, _, trivia⟩ := statement
    obtain ⟨target, statements, rfl⟩ := hwith
    have hnames : inner.namesInside ⟨id, .with target statements, trivia⟩ =
        (other { receivers }).namesInside ⟨id, .with target statements, trivia⟩ := by
      rw [Inner.namesInside, Inner.namesInside, Congruence.table_eq (h.setting { receivers })]
    have hblock : ∀ name, Convert.AgreesAt (name :: receivers) (inner.statements body statements)
        ((other { receivers := name :: receivers }).statements body statements) :=
      fun name => Congruence.statements (C := agreeing _) (hstatements _ body)
    change Convert.AgreesAt receivers (do return [← inner.withBlock body _ target statements]) _
    rw [Inner.withBlock_eq, hnames]
    simp only [Statement.convertAt, Place.inBlock, bind_assoc, pure_bind]
    refine (agreeing receivers).bind (hexprs receivers target (mem_cons_self ..) true) fun value =>
      ?_
    have hagrees := (agreeing receivers).map (Convert.AgreesAt.inWithBlock
        ((other { receivers }).namesInside ⟨id, .with target statements, trivia⟩) hblock)
      fun pair => [Target.Statement.block (.localVariable .var pair.1 (some value) :: pair.2)]
    simpa only [bind_assoc, pure_bind] using hagrees
  · have hrule : statement.convertAt other { receivers } body =
        statement.convertKind (other { receivers }) body := by
      unfold Statement.convertAt
      split
      · next heq => exact absurd ⟨_, _, heq⟩ hwith
      · rfl
    rw [hrule]
    exact Congruence.statement (C := agreeing receivers) (h.setting _)
      (fun target statements heq => hwith ⟨target, statements, heq⟩) (hexprs receivers)
      (hstatements receivers _)

end AgreesEverywhere

/-- The converters of every level agree with those that are told their place. -/
theorem agreesEverywhere_at (setting : Setting) (levels : Nat) :
    AgreesEverywhere (Inner.at setting levels) (Inner.lexical setting levels) := by
  induction levels with
  | zero =>
    refine ⟨fun _ => rfl, fun receivers expr _ allowed => ?_, fun receivers expr _ _ allowed => ?_,
      fun receivers body statement _ => ?_⟩
    · exact (agreeing receivers).unsupported _ _
    · exact fun surroundings _ _ _ => ⟨_, surroundings, rfl, rfl, .refl surroundings,
        fun h => nomatch h⟩
    · exact (agreeing receivers).unsupported _ _
  | succ levels ih =>
    refine ⟨fun _ => rfl, fun receivers expr hbare allowed => ?_,
      fun receivers expr hbare hstarts allowed => ?_, fun receivers body statement hbare => ?_⟩
    · exact (ih.convertWith hbare).nested
    · exact (ih.convertWithHead hbare hstarts).nested
    · exact (agreeing receivers).map (ih.convertKind hbare).nested _

/-- Wherever the flag for the head of a conditional access is down, the conversion of an expression
or of statements is the one that is told its place: the head of the right side of a conditional
access becomes a member binding, every other access without a receiver an access to the variable of
the innermost `With` block around it, and the target of a `With` block stands outside of it. -/
theorem bare_accesses_bind_by_place (setting : Setting) (surroundings elsewhere : Surroundings)
    (hflag : surroundings.atBindingHead = false) :
    (∀ expr : Expr, (Source.Node.expr expr).HeadsAreBare →
      (convertExpr setting expr surroundings).1 =
        ((Inner.lexical setting (depthLimit - surroundings.depth)
          { receivers := surroundings.receivers }).value expr elsewhere).1) ∧
    ∀ (body : Body) (statements : List Statement),
      (∀ statement ∈ statements, (Source.Node.statement statement).HeadsAreBare) →
      (convertStatements setting body statements surroundings).1 =
        ((Inner.lexical setting (depthLimit - surroundings.depth)
          { receivers := surroundings.receivers }).statements body statements elsewhere).1 := by
  have hagrees := agreesEverywhere_at setting (depthLimit - surroundings.depth)
  refine ⟨fun expr hbare => ?_, fun body statements hbare => ?_⟩
  · obtain ⟨_, hfirst, hsecond⟩ :=
      hagrees.expr surroundings.receivers expr hbare true surroundings elsewhere rfl hflag
    rw [convertExpr, Inner.run_current, Inner.value, Inner.value, hfirst, hsecond]
  · have hstatements : Convert.AgreesAt surroundings.receivers
        ((Inner.at setting (depthLimit - surroundings.depth)).statements body statements)
        ((Inner.lexical setting (depthLimit - surroundings.depth)
          { receivers := surroundings.receivers }).statements body statements) :=
      Congruence.statements (C := agreeing _) fun statement hmem =>
        hagrees.statement _ body statement (hbare statement hmem)
    obtain ⟨_, hfirst, hsecond⟩ := hstatements surroundings elsewhere rfl hflag
    rw [convertStatements, Inner.run_current, hfirst, hsecond]

/-- Inside a `With` block, `.a?.b(.c)`: `.b` is the head, `.a` and `.c` belong to the block. The
same as the only statement of a further block, whose target is `.d`. -/
theorem bare_accesses_around_a_head :
    let access (name : String) : Expr := .memberAccess 1 none ⟨2, name, []⟩
    let call : Expr := .invocation 3 (access "b") [.simple 4 none (access "c")]
    let expr : Expr := .conditionalAccess 5 (access "a") call
    let block : Statement := ⟨6, .with (access "d") [⟨7, .expression expr, {}⟩], {}⟩
    let body : Body := ⟨.procedure, false, []⟩
    let surroundings : Surroundings := { receivers := ["outer"] }
    let lexical := Inner.lexical {} depthLimit { receivers := ["outer"] }
    surroundings.atBindingHead = false ∧ (Source.Node.statement block).HeadsAreBare ∧
      (convertExpr {} expr surroundings).1 =
        .ok (.conditionalAccess (.memberAccess (.identifier "outer") "a" [])
          (.invocation (.memberBinding "b")
            [⟨none, none, .memberAccess (.identifier "outer") "c" []⟩])) ∧
      (convertExpr {} expr surroundings).1 = (lexical.value expr {}).1 ∧
      (convertStatements {} body [block] surroundings).1 =
        (lexical.statements body [block] {}).1 := by
  intro access call expr block body surroundings lexical
  have haccess : ∀ name, (Source.Node.expr (access name)).HeadsAreBare := fun name =>
    .of_parts (forall_mem_nil _) fun _ _ _ h => nomatch h
  have hcall :
    (Source.Node.expr (.invocation 3 (access "b") [.simple 4 none (access "c")])).HeadsAreBare :=
    .of_parts (forall_mem_cons.mpr ⟨haccess "b", forall_mem_singleton.mpr (haccess "c")⟩)
      fun _ _ _ h => nomatch h
  have hexpr : (Source.Node.expr expr).HeadsAreBare := by
    refine .of_parts (forall_mem_cons.mpr ⟨haccess "a", forall_mem_singleton.mpr hcall⟩) ?_
    intro id receiver whenNotNull h
    injection h with h
    injection h with _ _ h
    rw [← h]
    rfl
  have hinner : (Source.Node.statement ⟨7, .expression expr, {}⟩).HeadsAreBare :=
    .of_parts (forall_mem_singleton.mpr hexpr) fun _ _ _ h => nomatch h
  have hblock : (Source.Node.statement block).HeadsAreBare :=
    .of_parts (forall_mem_cons.mpr ⟨haccess "d", forall_mem_singleton.mpr hinner⟩) fun _ _ _ h =>
      nomatch h
  obtain ⟨hvalue, hstatements⟩ := bare_accesses_bind_by_place {} surroundings {} rfl
  exact ⟨rfl, hblock, rfl, hvalue expr hexpr,
    hstatements body [block] (forall_mem_singleton.mpr hblock)⟩

end Sharpen
