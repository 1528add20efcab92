import Sharpen.Proofs.Correspondence.Levels

/-!
# Conversions leave their surroundings as they found them

A conversion changes its surroundings on the way in and restores them on the way out. The one thing
it may leave changed is the flag for the head of a conditional access, which the first access
without a receiver takes down: a conversion `Settles` its surroundings. One that starts with the
flag down ends exactly where it started, whether it succeeds or fails.

Conversions can be asked for one after the other on one state, mixed with names of `With` targets
that are pushed and popped by hand: a list of `Step`s. The main result is `requests_leave_no_trace`:
no request can tell what happened before it, apart from the names that are still held.
-/

namespace Sharpen

open List

namespace Surroundings

/-- What a conversion may do to its surroundings: nothing, or take the head of a conditional access.
-/
def Settles (before after : Surroundings) : Prop :=
  after = before ∨ after = { before with atBindingHead := false }

namespace Settles

variable {before middle after : Surroundings}

theorem refl (surroundings : Surroundings) : surroundings.Settles surroundings :=
  .inl rfl

theorem trans (first : before.Settles middle) (second : middle.Settles after) :
    before.Settles after := by
  obtain rfl | rfl := first
  · exact second
  · obtain rfl | rfl := second
    · exact .inr rfl
    · exact .inr rfl

/-- With the flag down there is nothing left to take. -/
theorem eq (h : before.Settles after) (hflag : before.atBindingHead = false) : after = before := by
  obtain rfl | rfl := h
  · rfl
  · rw [← hflag]

end Settles

end Surroundings

/-- A conversion that settles whatever surroundings it is in. -/
def Convert.Settles {α : Type} (conversion : Convert α) : Prop :=
  ∀ surroundings : Surroundings, surroundings.Settles (conversion surroundings).2

namespace Convert.Settles

variable {α β : Type} {c : Convert α}

theorem bind {f : α → Convert β} (hc : c.Settles) (hf : ∀ a, (f a).Settles) :
    (c >>= f).Settles := by
  intro surroundings
  have hfirst := hc surroundings
  rw [Convert.run_bind]
  generalize c surroundings = run at hfirst ⊢
  obtain ⟨result, after⟩ := run
  cases result with
  | ok a => exact hfirst.trans (hf a after)
  | error error => exact hfirst

/-- A change that is undone afterwards and has nothing to do with the flag. -/
theorem within {change restore : Surroundings → Surroundings} (hc : c.Settles)
    (hrestore : ∀ s, restore (change s) = s)
    (hflag : ∀ s, restore { change s with atBindingHead := false } =
      { s with atBindingHead := false }) :
    (Convert.within change restore c).Settles := by
  intro surroundings
  have hinner := hc (change surroundings)
  unfold Convert.within
  generalize c (change surroundings) = run at hinner ⊢
  cases run
  obtain rfl | rfl := hinner
  · exact .inl (hrestore surroundings)
  · exact .inr (hflag surroundings)

theorem inWithBlock (hc : c.Settles) (reserved : List String) :
    (Convert.inWithBlock reserved c).Settles := by
  refine bind (c := get) (fun surroundings => .refl surroundings) fun state => ?_
  refine bind (c := Convert.ofExcept _) (fun surroundings => .refl surroundings) fun name => ?_
  exact bind (hc.within (fun _ => rfl) fun _ => rfl) fun _ surroundings => .refl surroundings

theorem bindingHead (hc : c.Settles) : (Convert.bindingHead c).Settles := by
  intro surroundings
  have hinner := hc { surroundings with atBindingHead := true }
  unfold Convert.bindingHead
  generalize c { surroundings with atBindingHead := true } = run at hinner ⊢
  cases run
  obtain rfl | rfl := hinner
  · exact .inl rfl
  · exact .inl rfl

end Convert.Settles

/-- Conversions that are made of settling ones settle. -/
def settling : LevelCorrespondence where
  Rel c _ := c.Settles
  ofExcept _ surroundings := .refl surroundings
  bind hc hf := hc.bind hf
  get surroundings := .refl surroundings
  takeBindingHead _ := .inr rfl
  nested hc := hc.within (fun _ => rfl) fun _ => rfl
  inContainer _ hc := hc.within (fun _ => rfl) fun _ => rfl
  inWithBlock reserved hc := hc.inWithBlock reserved
  bindingHead hc := hc.bindingHead

/-! ## Sessions -/

/-- A conversion that can be asked for. -/
inductive Request where
  | unit (node : Source.CompilationUnit)
  | declaration (node : Source.Declaration)
  | expr (node : Source.Expr)
  | type (node : Source.TypeSyntax)
  | name (node : Source.Name)
  | declarator (site : DeclaratorSite) (node : Source.Declarator)
  | statements (kind : BodyKind) (isIterator : Bool) (nodes : List Source.Statement)

namespace Request

/-- What a request is answered with, if it is not declined. -/
def Answer : Request → Type
  | .unit _ => Target.CompilationUnit
  | .declaration _ => List Target.Member
  | .expr _ => Target.Expr
  | .type _ => Target.TypeSyntax
  | .name _ => Target.Name
  | .declarator .. => List Target.Variables
  | .statements .. => List Target.Statement

/-- The conversion asked for. -/
def convert (setting : Setting) : (request : Request) → Convert request.Answer
  | .unit node => convertUnit setting node
  | .declaration node => convertDeclaration setting node
  | .expr node => convertExpr setting node
  | .type node => Convert.ofExcept node.convert
  | .name node => Convert.ofExcept node.convert
  | .declarator site node => convertVariables setting site node
  | .statements kind isIterator nodes => convertStatements setting { kind, isIterator } nodes

/-- The constructs that a request is about. -/
def parts : Request → List Source.Construct
  | .unit node => (Source.attributeExprs node.attributes).map .expr ++ node.members.map .declaration
  | .declaration node => [.declaration node]
  | .expr node => [.expr node]
  | .type _ => []
  | .name _ => []
  | .declarator _ node => node.exprs.map .expr
  | .statements _ _ nodes => nodes.map .statement

end Request

/-- The conversion asked for, by given converters. -/
def Inner.answer (inner : Inner) : (request : Request) → Convert request.Answer
  | .unit node => do
    let usings ← (inner.table.globalImports ++ node.imports).mapM fun clause =>
      Convert.ofExcept clause.convert
    let attributes ← inner.attributes node.attributes
    return ⟨usings, attributes, ← inner.members node.members⟩
  | .declaration node => inner.declaration node
  | .expr node => inner.value node
  | .type node => Convert.ofExcept node.convert
  | .name node => Convert.ofExcept node.convert
  | .declarator site node => inner.declaredVariables site node
  | .statements kind isIterator nodes => inner.statements { kind, isIterator } nodes

/-- Two answers to a request correspond if the conversions of what it is about do. -/
theorem Correspondence.answer {C : Correspondence} {inner other : Inner}
    (hsetting : inner.setting = other.setting) {request : Request}
    (hparts : ∀ part ∈ request.parts, C.OnConstruct inner other part) :
    C.Rel (inner.answer request) (other.answer request) := by
  cases request with
  | unit =>
    obtain ⟨hattributes, hmembers⟩ := forall_mem_append.mp hparts
    rw [forall_mem_map] at hattributes hmembers
    unfold Inner.answer
    rw [Congruence.table_eq hsetting]
    refine C.bind (C.mapM fun clause _ => C.ofExcept _) fun usings => ?_
    refine C.bind (Congruence.attributes hattributes) fun attributes => ?_
    exact C.map (C.map (C.mapM fun member hmember => C.map (hmembers member hmember) _) _) _
  | declaration node => exact hparts (.declaration node) (mem_cons_self ..)
  | expr node => exact hparts (.expr node) (mem_cons_self ..) true
  | type => exact C.ofExcept _
  | name => exact C.ofExcept _
  | declarator =>
    refine Congruence.declaredVariables hsetting fun expr hmem => ?_
    exact hparts (.expr expr) (mem_map_of_mem hmem)
  | statements =>
    refine Congruence.statements fun statement hmem => ?_
    exact hparts (.statement statement) (mem_map_of_mem hmem) _

namespace Request

theorem convert_eq (setting : Setting) (request : Request) (surroundings : Surroundings) :
    request.convert setting surroundings =
      (Inner.at setting (depthLimit - surroundings.depth)).answer request surroundings := by
  cases request with
  | unit =>
    simp only [Inner.answer, Inner.table, Inner.at_setting]
    exact Inner.run_current setting _ surroundings
  | declaration | expr | declarator | statements => exact Inner.run_current setting _ surroundings
  | type => rfl
  | name => rfl

theorem settles (setting : Setting) (request : Request) : (request.convert setting).Settles := by
  intro surroundings
  have hsettles :
    settling.Rel ((Inner.at setting (depthLimit - surroundings.depth)).answer request) _ :=
    Correspondence.answer rfl fun part _ => settling.levels setting _ part
  rw [convert_eq]
  exact hsettles surroundings

/-- A request made with the flag down changes nothing. -/
theorem convert_snd {setting : Setting} (request : Request) {surroundings : Surroundings}
    (hflag : surroundings.atBindingHead = false) :
    (request.convert setting surroundings).2 = surroundings :=
  (request.settles setting surroundings).eq hflag

end Request

/-- A step on a state that conversions share. -/
inductive Step where
  | ask (request : Request)
  | push (name : String)
  | pop

namespace Step

/-- The state after a step. The answer to a request is forgotten, be it a result or an error. -/
def run (setting : Setting) (surroundings : Surroundings) : Step → Surroundings
  | .ask request => (request.convert setting surroundings).2
  | .push name => { surroundings with receivers := name :: surroundings.receivers }
  | .pop => { surroundings with receivers := surroundings.receivers.tail }

/-- The names that are held after a step, the last one pushed first. -/
def hold (held : List String) : Step → List String
  | .ask _ => held
  | .push name => name :: held
  | .pop => held.tail

/-- A state that carries nothing but the held names does so after every step. -/
theorem run_holding (setting : Setting) (held : List String) (step : Step) :
    step.run setting { receivers := held } = { receivers := step.hold held } := by
  cases step with
  | ask request => exact request.convert_snd rfl
  | push => rfl
  | pop => rfl

theorem foldl_run_holding (setting : Setting) (held : List String) (steps : List Step) :
    steps.foldl (run setting) { receivers := held } = { receivers := steps.foldl hold held } := by
  induction steps generalizing held with
  | nil => rfl
  | cons step rest ih => rw [foldl_cons, foldl_cons, run_holding, ih]

end Step

/-- A conversion that starts with the flag for the head of a conditional access down leaves its
surroundings exactly as it found them, also when it fails. So after any steps on a new state, a
request is answered as it is on a new state that holds just the names that were pushed and not
popped. -/
theorem requests_leave_no_trace (setting : Setting) :
    (∀ (request : Request) (surroundings : Surroundings), surroundings.atBindingHead = false →
      (request.convert setting surroundings).2 = surroundings) ∧
    ∀ (earlier : List Step) (request : Request),
      (request.convert setting (earlier.foldl (Step.run setting) {})).1 =
        (request.convert setting { receivers := earlier.foldl Step.hold [] }).1 := by
  refine ⟨fun request surroundings hflag => request.convert_snd hflag, fun earlier request => ?_⟩
  have hstate := Step.foldl_run_holding setting [] earlier
  rw [← hstate]

/-- Inside a `With` block and a class, a conditional access whose right side is declined; then the
same again on a new state, between a name that is popped and one that is held. -/
theorem declined_access_leaves_no_trace :
    let request := Request.expr (.conditionalAccess 1 (.me 2) (.query 3 "From x In y"))
    let inBlocks : Surroundings :=
      { depth := 4, containers := [⟨"C", .class⟩], receivers := ["withTarget"] }
    inBlocks.atBindingHead = false ∧ (request.convert {} inBlocks).1 =
      .error (.unimplemented "QueryExpression") ∧
      (request.convert {} inBlocks).2 = inBlocks ∧
      (request.convert {} ([.push "a", .ask request, .pop, .push "b", .ask request].foldl
        (Step.run {}) {})).1 = (request.convert {} { receivers := ["b"] }).1 :=
  ⟨rfl, by rfl, (requests_leave_no_trace {}).1 _ _ rfl, (requests_leave_no_trace {}).2 _ _⟩

end Sharpen
