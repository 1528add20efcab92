import Sharpen.Proofs.Surroundings
import Sharpen.Proofs.Outcome

/-!
# Type arguments of names in expressions

A generic name takes one of several ways through the conversion: by itself, behind a receiver,
behind the variable of a `With` block, or at the head of a conditional access. The last one has no
room for type arguments, and a name that goes there loses them; on every other way they are
converted one by one (`Source.Expr.KeepsTypeArguments`).

To say so of every expression that a conversion reaches, the conversion is run once more with
converters that look at each result and stop with an error of our choice unless the type arguments
are where they belong (`Inner.checking`). The main result is `type_arguments_are_kept_unless_bound`.
-/

namespace Sharpen

/-! ## What a name becomes -/

/-- Type arguments and what they become, one by one. -/
abbrev TypesConverted (types : List Source.TypeSyntax) (converted : List Target.TypeSyntax) :
    Prop :=
  List.Forall₂ (fun type result => type.convert = .ok result) types converted

theorem typesConverted {types : List Source.TypeSyntax} {converted : List Target.TypeSyntax}
    (h : convertTypes types = .ok converted) : TypesConverted types converted := by
  induction types generalizing converted with
  | nil =>
    obtain rfl := Except.ok.inj h
    exact .nil
  | cons type rest ih =>
    unfold convertTypes at h
    split at h
    · cases h
    next hfirst =>
    split at h
    · next hothers =>
      obtain rfl := Except.ok.inj h
      exact .cons hfirst (ih hothers)
    · cases h

/-- The variable that an access without a receiver belongs to. It has none at the head of a
conditional access, and none outside of all `With` blocks. -/
def Surroundings.implicitReceiver? (place : Surroundings) : Option String :=
  if place.atBindingHead then none else place.receivers.head?

theorem Inner.run_implicitReceiver? (place : Surroundings) :
    (Inner.implicitReceiver? place).1 = .ok (place.implicitReceiver?.map .identifier) := by
  unfold Surroundings.implicitReceiver?
  cases hflag : place.atBindingHead <;>
    simp only [Inner.implicitReceiver?, Convert.run_bind, Convert.takeBindingHead, hflag] <;> rfl

/-- What is called, where the call is one without arguments. -/
def Target.Expr.uncalled : Target.Expr → Target.Expr
  | .invocation target [] => target
  | expr => expr

theorem Inner.uncalled_autoInvoke {inner : Inner} {id : Source.NodeId} {allowed : Bool}
    {expr : Target.Expr} (h : expr.uncalled = expr) :
    (inner.autoInvoke id allowed expr).uncalled = expr := by
  unfold Inner.autoInvoke
  split
  · split
    · rfl
    · exact h
  · exact h

/-- Where a generic name is used in an expression, its type arguments stand converted in the result,
which may be called: on the name itself, or on the access to a member. Only an access that has no
receiver, neither written nor implicit, becomes a bare name. -/
def Source.Expr.KeepsTypeArguments (place : Surroundings) (converted : Target.Expr) :
    Source.Expr → Prop
  | .name simple => simple.isGeneric → ∃ types, TypesConverted simple.typeArguments types ∧
      converted.uncalled = .generic (convertIdentifier simple.identifier) types
  | .memberAccess _ (some _) simple => simple.isGeneric → ∃ receiver types,
      TypesConverted simple.typeArguments types ∧
      converted.uncalled = .memberAccess receiver (convertIdentifier simple.identifier) types
  | .memberAccess _ none simple =>
    match place.implicitReceiver? with
    | some receiver => ∃ types, TypesConverted simple.typeArguments types ∧
        converted.uncalled =
          .memberAccess (.identifier receiver) (convertIdentifier simple.identifier) types
    | none => converted.uncalled = .memberBinding (convertIdentifier simple.identifier)
  | _ => True

theorem Source.Expr.keepsTypeArguments {inner : Inner} {allowed : Bool} {place : Surroundings}
    {converted : Target.Expr} (expr : Source.Expr)
    (h : (expr.convertWith inner allowed place).1 = .ok converted) :
    expr.KeepsTypeArguments place converted := by
  cases expr with
  | name simple =>
    intro hgeneric
    obtain ⟨plain, hplain, rfl⟩ := Convert.Gives.map ⟨place, h⟩
    rw [Inner.name, if_pos hgeneric] at hplain
    obtain ⟨types, htypes, rfl⟩ := hplain.map
    exact ⟨types, typesConverted htypes.ofExcept, Inner.uncalled_autoInvoke rfl⟩
  | memberAccess id receiver simple =>
    obtain ⟨plain, _, hplain, hresult⟩ := Convert.ok_of_bind h
    obtain rfl := Except.ok.inj hresult
    obtain ⟨types, _, hrun, hplain⟩ := Convert.ok_of_bind (congrArg Prod.fst hplain)
    obtain ⟨htypes, rfl⟩ : convertTypes simple.typeArguments = .ok types ∧ place = _ :=
      Prod.mk.inj hrun
    replace htypes := typesConverted htypes
    cases receiver with
    | none =>
      obtain ⟨_, _, hrun, hplain⟩ := Convert.ok_of_bind hplain
      obtain rfl :=
        Except.ok.inj ((Inner.run_implicitReceiver? place).symm.trans (congrArg Prod.fst hrun))
      unfold KeepsTypeArguments
      generalize place.implicitReceiver? = receiver? at hplain ⊢
      cases receiver? with
      | none =>
        obtain rfl := Except.ok.inj hplain
        exact Inner.uncalled_autoInvoke rfl
      | some receiver =>
        obtain rfl := Except.ok.inj hplain
        exact ⟨types, htypes, Inner.uncalled_autoInvoke rfl⟩
    | some receiver =>
      intro hgeneric
      cases receiver with
      | global =>
        -- what is generic is declined there
        cases types with
        | nil =>
          rw [Source.SimpleName.isGeneric, List.forall₂_nil_right_iff.mp htypes] at hgeneric
          cases hgeneric
        | cons => cases hplain
      | _ =>
        obtain ⟨receiver, _, rfl⟩ := Convert.Gives.map ⟨place, hplain⟩
        exact ⟨receiver, types, htypes, Inner.uncalled_autoInvoke rfl⟩
  | _ => trivial

/-! ## Looking at every result -/

open Classical in
/-- A conversion whose result is looked at: it stops with an error unless the result is as it should
be. -/
noncomputable def Convert.checked {α : Type} (Good : Surroundings → α → Prop)
    (error : ConversionError) (c : Convert α) : Convert α := fun place =>
  match c place with
  | (.ok result, after) => if Good place result then (.ok result, after) else (.error error, after)
  | (.error declined, after) => (.error declined, after)

theorem Convert.checked_eq {α : Type} {Good : Surroundings → α → Prop} {error : ConversionError}
    {c : Convert α} (h : ∀ place result, (c place).1 = .ok result → Good place result) :
    c.checked Good error = c := by
  funext place
  unfold Convert.checked
  specialize h place
  generalize c place = run at h
  obtain ⟨result | result, after⟩ := run
  · rfl
  · exact if_pos (h result rfl)

namespace Inner

/-- The same converters, but they look at what expressions become. -/
noncomputable def checked (error : ConversionError) (inner : Inner) : Inner :=
  { inner with
    expr := fun allowed expr =>
      (inner.expr allowed expr).checked (fun place => expr.KeepsTypeArguments place) error }

/-- The converters that may go a number of levels deep and look at what each expression becomes. -/
noncomputable def checking (setting : Setting) (error : ConversionError) : (levels : Nat) → Inner
  | 0 => (Inner.at setting 0).checked error
  | levels + 1 => (checking setting error levels).deeper.checked error

theorem keepsTypeArguments {setting : Setting} {levels : Nat} {allowed : Bool}
    {place : Surroundings} {converted : Target.Expr} {expr : Source.Expr}
    (h : ((Inner.at setting levels).expr allowed expr place).1 = .ok converted) :
    expr.KeepsTypeArguments place converted := by
  cases levels with
  | zero => cases h
  | succ levels =>
    -- the depth does not matter
    have hkept : expr.KeepsTypeArguments { place with depth := place.depth + 1 } converted :=
      expr.keepsTypeArguments h
    exact hkept

theorem checked_at (setting : Setting) (error : ConversionError) (levels : Nat) :
    (Inner.at setting levels).checked error = Inner.at setting levels := by
  unfold checked
  congr
  funext allowed expr
  exact Convert.checked_eq fun _ _ => keepsTypeArguments

theorem checking_eq (setting : Setting) (error : ConversionError) (levels : Nat) :
    checking setting error levels = Inner.at setting levels := by
  induction levels with
  | zero => exact checked_at setting error 0
  | succ levels ih => rw [checking, ih, ← Inner.at_succ, checked_at]

end Inner

/-- The conversion asked for, with a look at what each expression becomes. -/
noncomputable def Request.convertChecked (setting : Setting) (error : ConversionError)
    (request : Request) :
    Convert request.Answer := do
  (Inner.checking setting error (depthLimit - (← get).depth)).answer request

/-- Type arguments are kept wherever there is room for them: in what an expression becomes at any
level, and so in every expression that a conversion reaches, since a look at each of them changes
nothing. -/
theorem type_arguments_are_kept_unless_bound (setting : Setting) :
    (∀ (levels : Nat) (allowed : Bool) (expr : Source.Expr) (place : Surroundings)
      (converted : Target.Expr),
      ((Inner.at setting levels).expr allowed expr place).1 = .ok converted →
      expr.KeepsTypeArguments place converted) ∧
    ∀ (request : Request) (error : ConversionError),
      request.convertChecked setting error = request.convert setting := by
  refine ⟨fun levels allowed expr place converted => Inner.keepsTypeArguments,
    fun request error => ?_⟩
  funext place
  rw [Request.convert_eq, ← Inner.checking_eq setting error]
  rfl

/-- `.Pick(Of Integer)(a?.Cast(Of String)())` in a `With` block. -/
theorem type_arguments_in_a_with_block :
    let pick : Source.Expr := .memberAccess 1 none ⟨2, "Pick", [.predefined 3 .integer]⟩
    let cast : Source.Expr := .memberAccess 4 none ⟨5, "Cast", [.predefined 6 .string]⟩
    let argument : Source.Expr := .conditionalAccess 7 (.name ⟨8, "a", []⟩) (.invocation 9 cast [])
    let expr : Source.Expr := .invocation 10 pick [.simple 11 none argument]
    let place : Surroundings := { receivers := ["held"] }
    let picked : Target.Expr := .memberAccess (.identifier "held") "Pick" [.predefined .int]
    ((Inner.at {} 2).expr false pick place).1 = .ok picked ∧ pick.KeepsTypeArguments place picked ∧
      ((Request.expr expr).convert {} place).1 = .ok (.invocation picked
        [⟨none, none,
          .conditionalAccess (.identifier "a") (.invocation (.memberBinding "Cast") [])⟩]) ∧
      ∀ error, (Request.expr expr).convertChecked {} error = (Request.expr expr).convert {} := by
  intro pick cast argument expr place picked
  have hpicked : ((Inner.at {} 2).expr false pick place).1 = .ok picked := by
    dsimp only [pick]
    rfl
  refine ⟨hpicked, (type_arguments_are_kept_unless_bound {}).1 2 false pick place
    picked hpicked, ?_,
    (type_arguments_are_kept_unless_bound {}).2 (.expr expr)⟩
  dsimp only [expr, argument, pick, cast]
  rfl

/-- `a?.Cast(Of Integer)()` becomes `a?.Cast()`. -/
theorem conditional_call_loses_its_type_arguments :
    let cast : Source.Expr := .memberAccess 1 none ⟨2, "Cast", [.predefined 3 .integer]⟩
    let expr : Source.Expr := .conditionalAccess 4 (.name ⟨5, "a", []⟩) (.invocation 6 cast [])
    (convertExpr {} expr {}).1 =
      .ok (.conditionalAccess (.identifier "a") (.invocation (.memberBinding "Cast") [])) := by
  intro cast expr
  dsimp only [expr, cast]
  rfl

end Sharpen
