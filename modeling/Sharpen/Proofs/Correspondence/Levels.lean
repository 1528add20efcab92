import Sharpen.Proofs.Correspondence.Rules

/-!
# Corresponding conversions of whole trees

Expressions, statements and declarations are the constructs of which each takes a level of the
conversion, and `Construct.parts` gives those that stand directly inside a construct. The converters
of each level are made from those of the level below it: `Inner.deeper`. A correspondence between
two families of converters is therefore an induction on the number of levels, with one step for all
constructs (`LevelCorrespondence.deeper`). It asks for a correspondence that is kept where a
conversion goes a level further in, which is more than the rules ask for. Converters always
correspond to themselves (`LevelCorrespondence.levels`).
-/

namespace Sharpen

open List

namespace Source

/-- The expressions of the parameters of accessors, which no rule converts. -/
def DeclarationKind.accessorExprs : DeclarationKind → List Expr
  | .property _ _ _ _ _ _ accessors | .event _ _ _ _ _ accessors =>
    (accessors.getD []).flatMap fun accessor => accessor.parameters.flatMap Parameter.exprs
  | _ => []

/-- An expression, a statement or a declaration: what takes a level of the conversion. -/
inductive Construct where
  | expr (expr : Expr)
  | statement (statement : Statement)
  | declaration (declaration : Declaration)

namespace Construct

/-- What stands directly inside a construct. -/
def parts : Construct → List Construct
  | .expr node => node.parts.map .expr ++ node.statements.map .statement
  | .statement node => node.kind.exprs.map .expr ++ node.kind.statements.map .statement
  | .declaration node =>
    (node.kind.exprs ++ node.kind.accessorExprs).map .expr ++ node.kind.statements.map .statement ++
      node.kind.declarations.map .declaration

end Construct

end Source

open Source (Expr Statement Declaration Construct)

/-- Both converters treat a construct in corresponding ways. -/
def Congruence.OnConstruct (C : Congruence) (inner other : Inner) : Construct → Prop
  | .expr expr => C.OnExpr inner other expr
  | .statement statement => ∀ body, C.OnStatement inner other body statement
  | .declaration declaration => C.OnDeclaration inner other declaration

/-- The rule for a construct does corresponding things with both converters. -/
def Congruence.OnRule (C : Congruence) (inner other : Inner) : Construct → Prop
  | .expr expr => ∀ allowed, C.Rel (expr.convertWith inner allowed) (expr.convertWith other allowed)
  | .statement statement =>
    ∀ body, C.Rel (statement.convertKind inner body) (statement.convertKind other body)
  | .declaration declaration =>
    C.Rel (declaration.convertKind inner) (declaration.convertKind other)

/-- The converters that may go one level deeper. -/
def Inner.deeper (inner : Inner) : Inner where
  setting := inner.setting
  expr allowed expr := Convert.nested (expr.convertWith inner allowed)
  statement body statement := do
    let converted ← Convert.nested (statement.convertKind inner body)
    return attachStatements statement.trivia converted
  declaration declaration := Convert.nested (declaration.convertKind inner)

@[simp] theorem Inner.at_setting (setting : Setting) (levels : Nat) :
    (Inner.at setting levels).setting = setting := by
  cases levels <;> rfl

theorem Inner.at_succ (setting : Setting) (levels : Nat) :
    Inner.at setting (levels + 1) = (Inner.at setting levels).deeper := by
  rw [Inner.deeper, Inner.at_setting]
  rfl

theorem Inner.run_current {α : Type} (setting : Setting) (f : Inner → Convert α)
    (surroundings : Surroundings) :
    (Inner.current setting >>= f) surroundings =
      f (Inner.at setting (depthLimit - surroundings.depth)) surroundings :=
  rfl

/-- A correspondence that is also kept where conversions go one level further in. -/
structure LevelCorrespondence extends Correspondence where
  nested : ∀ {α : Type} {c d : Convert α}, Rel c d → Rel (Convert.nested c) (Convert.nested d)

section Parts

variable {C : Correspondence} {inner other : Inner} (hsetting : inner.setting = other.setting)
include hsetting

theorem Correspondence.rule {construct : Construct}
    (hparts : ∀ part ∈ construct.parts, C.OnConstruct inner other part) :
    C.OnRule inner other construct := by
  cases construct with
  | expr =>
    obtain ⟨hexprs, hstatements⟩ := forall_mem_append.mp hparts
    rw [forall_mem_map] at hexprs hstatements
    exact fun allowed => Correspondence.expr hsetting hexprs fun body _ part hmem =>
      hstatements part hmem body
  | statement =>
    obtain ⟨hexprs, hstatements⟩ := forall_mem_append.mp hparts
    rw [forall_mem_map] at hexprs hstatements
    exact fun body => Correspondence.statement hsetting hexprs fun part hmem =>
      hstatements part hmem _
  | declaration =>
    obtain ⟨hparts, hdeclarations⟩ := forall_mem_append.mp hparts
    obtain ⟨hexprs, hstatements⟩ := forall_mem_append.mp hparts
    rw [forall_mem_map] at hexprs hstatements hdeclarations
    rw [← inner.via_id] at hexprs hstatements hdeclarations
    have hrule := Renumbered.declaration (.of_setting hsetting) (forall_mem_append.mp hexprs).1
      (fun body _ part hmem => hstatements part hmem body) hdeclarations
    rwa [Source.declarations_renumber_id.1] at hrule

theorem LevelCorrespondence.deeper {C : LevelCorrespondence} {construct : Construct}
    (hparts : ∀ part ∈ construct.parts, C.OnConstruct inner other part) :
    C.OnConstruct inner.deeper other.deeper construct := by
  have hrule := Correspondence.rule hsetting hparts
  cases construct with
  | expr => exact fun allowed => C.nested (hrule allowed)
  | statement => exact fun body => C.map (C.nested (hrule body)) _
  | declaration => exact C.nested hrule

end Parts

/-- The converters of every level correspond to themselves. -/
theorem LevelCorrespondence.levels (C : LevelCorrespondence) (setting : Setting) (levels : Nat)
    (construct : Construct) :
    C.OnConstruct (Inner.at setting levels) (Inner.at setting levels) construct := by
  induction levels generalizing construct with
  | zero =>
    cases construct with
    | expr | statement => exact fun _ => C.unsupported _ _
    | declaration => exact C.unsupported _ _
  | succ levels ih =>
    rw [Inner.at_succ]
    exact LevelCorrespondence.deeper rfl fun part _ => ih part

def equality : LevelCorrespondence where
  Rel c d := c = d
  ofExcept _ := rfl
  bind hc hf := by rw [hc, funext hf]
  get := rfl
  takeBindingHead := rfl
  nested hc := by rw [hc]
  inContainer _ hc := by rw [hc]
  inWithBlock _ hc := by rw [hc]
  bindingHead hc := by rw [hc]

end Sharpen
