import Sharpen.Proofs.Comments
import Sharpen.Proofs.Counting.Runs
import Sharpen.Proofs.Whereabouts

/-!
# Converted `For` blocks

A converted `For` block is a `for` statement put together from the conversions of its pieces:
`Counting` holds them and `Counting.From` says which piece of the block each of them comes from.
Where the pieces are worth the integers `first`, `last` and `step`, the statement keeps to a
direction, and what it runs through is known.

The direction is guessed: `>=` is taken for a step whose constant is negative, and for one that is
written with a minus sign. The main result, `for_blocks_count`, is that the loop runs through the
values of the block exactly if the guess is right: the exception is a step written with a minus sign
that is positive after all, such as `-Down` with a negative constant `Down`.
-/

namespace Sharpen

open List

open Model (SemanticTable)
open Target (Environment Ending Opening)

/-! ## `For` blocks -/

namespace Source

/-- The step of a `For` block according to the table. One that is left out is one. -/
def stride? (table : SemanticTable) : Option Expr → Option Int
  | none => some 1
  | some step => table.integer? step.id

/-- What an expression becomes in these surroundings, or after the flag in them has been taken down.
-/
def Expr.BecomesIn (setting : Setting) (place : Surroundings) (expr : Expr)
    (converted : Target.Expr) : Prop :=
  (convertExpr setting expr).GivesWhere place.Settles converted

/-- A name that a loop at this node has to declare is that of a variable. -/
def LoopControl.NamesVariable (table : SemanticTable) (id : NodeId) (control : LoopControl) :
    Prop :=
  ∀ simple, control = .existing (.name simple) → table.isNameInScope id simple.unescaped = false →
    simple.isGeneric = false ∧ (table.resolve? simple.id).any (·.isMethod) = false

/-- The expression that a loop counts with. -/
inductive LoopControl.CountsWith (setting : Setting) (place : Surroundings) :
    LoopControl → Target.Expr → Prop
  | declared {name : DeclaredName} {asClause : AsClause} {initializer : Option Expr} :
      CountsWith setting place (.declarator ⟨[name], asClause, initializer⟩)
        (.identifier (convertIdentifier name.identifier))
  | existing {target : Expr} {counter : Target.Expr} (h : target.BecomesIn setting place counter) :
      CountsWith setting place (.existing target) counter

end Source

/-! ## Counting loops -/

namespace Target

/-- An opening that gives a variable its first value. -/
inductive Opening.Sets (first : Expr) : Opening → Expr → Prop
  | assigned {counter : Expr} :
      Sets first (.expressions [.assignment counter .simple first]) counter
  | declared {type : TypeSyntax} {name : String} :
      Sets first (.declared (.single type name (some first))) (.identifier name)

/-- The pieces of a loop that counts. -/
structure Counting where
  counter : Expr
  first : Expr
  last : Expr
  /-- absent where the loop counts by one -/
  step : Option Expr
  body : Statement

namespace Counting

/-- What happens after each turn. -/
def increment (parts : Counting) : Expr :=
  match parts.step with
  | none => .postfixUnary parts.counter .increment
  | some step => .assignment parts.counter .add step

/-- The loop with a given opening and comparison. -/
def loop (parts : Counting) (opening : Opening) (comparison : BinaryOperator) : Statement :=
  .for opening (some (.binary parts.counter comparison parts.last)) [parts.increment] parts.body

/-- The pieces are the conversions of those of a `For` block. -/
structure From (setting : Setting) (place : Surroundings) (body : Body)
    (control : Source.LoopControl) (start limit : Source.Expr) (step : Option Source.Expr)
    (statements : List Source.Statement) (parts : Counting) : Prop where
  counter : control.CountsWith setting place parts.counter
  first : start.BecomesIn setting place parts.first
  last : limit.BecomesIn setting place parts.last
  step : Option.Rel (Source.Expr.BecomesIn setting place) step parts.step
  body : ∃ converted,
    (convertStatements setting (body.inside .for) statements).GivesWhere place.Settles
    converted ∧ parts.body = embedded converted

end Counting

namespace Environment

/-- An environment in which the pieces of a loop are worth these integers, and the counter is a
variable that the body does not assign. -/
structure Suits {State : Type} (env : Environment State) (parts : Counting)
    (first last step : Int) : Prop where
  first (state : State) : env.value parts.first state = some first
  last (state : State) : env.value parts.last state = some last
  step : ∀ value ∈ parts.step, ∀ state, env.value value state = some step
  reads (value : Int) (state : State) :
    env.value parts.counter (env.store parts.counter value state) = some value
  keeps {state middle : State} (h : env.perform parts.body state = .through middle) :
    env.value parts.counter middle = env.value parts.counter state

namespace Suits

variable {State : Type} {env : Environment State} {parts : Counting} {first last step : Int}

theorem opens (h : env.Suits parts first last step) {opening : Opening}
    (hopening : Opening.Sets parts.first opening parts.counter) (state : State) :
    ∃ start, env.opens state opening = some start ∧ env.value parts.counter start = some first := by
  refine ⟨env.store parts.counter first state, ?_, h.reads first state⟩
  generalize parts.counter = counter at hopening
  cases hopening with
  | assigned => simp [Environment.opens, effect, h.first state]
  | declared => simp [Environment.opens, Variables.single, declare, h.first state]

theorem moves (h : env.Suits parts first last step) (hone : parts.step = none → step = 1)
    {state : State} {value : Int} (hvalue : env.value parts.counter state = some value) :
    ∃ after, [parts.increment].foldlM env.effect state = some after ∧
      env.value parts.counter after = some (value + step) := by
  refine ⟨env.store parts.counter (value + step) state, ?_, h.reads _ state⟩
  cases hstep : parts.step with
  | none => simp [Counting.increment, hstep, effect, hvalue, hone hstep]
  | some written => simp [Counting.increment, hstep, effect, hvalue, h.step written hstep state]

/-- The loop goes on as its comparison says. -/
theorem keepsTo (h : env.Suits parts first last step) (hone : parts.step = none → step = 1)
    (comparison : BinaryOperator) {compare : Int → Int → Bool}
    (hcompare : comparison.compare? = some compare) :
    env.KeepsTo parts.counter (compare · last) step
      (some (.binary parts.counter comparison parts.last))
      [parts.increment] parts.body where
  tests {state value} hvalue := by simp [passes, hcompare, hvalue, h.last state]
  moves := h.moves hone
  keeps := h.keeps

end Suits

end Environment

end Target

/-! ## Integer variables -/

namespace Target

/-- The value of an expression of decimal numerals, variables and constants. -/
def Expr.integer? (constant : String → Option Int) (state : String → Int) : Expr → Option Int
  | .identifier name => some ((constant name).getD (state name))
  | .literal (.numeric text) =>
    some (text.toList.foldl (fun (value : Int) digit => 10 * value + (digit.toNat - '0'.toNat)) 0)
  | .prefixUnary .minus operand => (operand.integer? constant state).map fun value => -value
  | .parenthesized inner => inner.integer? constant state
  | _ => none

/-- Variables that hold integers, beside some constants. Statements do nothing to them. -/
def Environment.ofConstants (constant : String → Option Int) : Environment (String → Int) where
  value expr state := expr.integer? constant state
  store place value state :=
    match place with
    | .identifier name => fun other => if other = name then value else state other
    | _ => state
  perform _ state := .through state

theorem Environment.suits_ofConstants {constant : String → Option Int} {parts : Counting}
    {name : String} {first last step : Int} (hname : constant name = none)
    (hcounter : parts.counter = .identifier name)
    (hfirst : ∀ state, parts.first.integer? constant state = some first)
    (hlast : ∀ state, parts.last.integer? constant state = some last)
    (hstep : ∀ value ∈ parts.step, ∀ state, value.integer? constant state = some step) :
    (ofConstants constant).Suits parts first last step where
  first := hfirst
  last := hlast
  step := hstep
  reads value state := by simp [ofConstants, hcounter, Expr.integer?, hname]
  keeps h := by
    obtain rfl := Ending.through.inj h
    rfl

end Target

/-! ## The loop that a `For` block becomes -/

section Emitted

variable {setting : Setting} {place : Surroundings} {levels : Nat}

theorem Source.Expr.BecomesIn.of_value (hlevels : levels = depthLimit - place.depth)
    {expr : Source.Expr} {converted : Target.Expr}
    (h : ((Inner.at setting levels).value expr).GivesWhere place.Settles converted) :
    expr.BecomesIn setting place converted :=
  Convert.GivesWhere.current hlevels h

/-- A name that is that of a variable becomes that variable. -/
theorem Inner.eq_identifier_of_value {simple : Source.SimpleName} {counter : Target.Expr}
    (hgeneric : simple.isGeneric = false)
    (hmethod : (setting.table.resolve? simple.id).any (·.isMethod) = false)
    (h : ((Inner.at setting levels).value (.name simple)).Gives counter) :
    counter = .identifier (convertIdentifier simple.identifier) := by
  cases levels with
  | zero => exact h.unsupported.elim
  | succ levels =>
    have hname : Inner.name simple = pure (.identifier (convertIdentifier simple.identifier)) := by
      unfold Inner.name
      rw [hgeneric]
      rfl
    have hreturns : (setting.table.resolve? simple.id).bind Model.Symbol.returnType? = none := by
      cases hsymbol : setting.table.resolve? simple.id with
      | none => rfl
      | some symbol =>
        rw [hsymbol, Option.any_some] at hmethod
        simp [Model.Symbol.returnType?, hmethod]
    have hplain :
      (do return (Inner.at setting levels).autoInvoke simple.id true (← Inner.name simple)
        : Convert Target.Expr).Gives counter := Convert.Gives.of_nested h
    rw [hname, pure_bind, Convert.gives_pure, Inner.autoInvoke, Inner.table, Inner.at_setting,
      hreturns] at hplain
    exact hplain.symm

variable {control : Source.LoopControl}

theorem Inner.forOpening_sets (hlevels : levels = depthLimit - place.depth) {id : Source.NodeId}
    {start : Source.Expr} {counter : Target.Expr} {opening : Opening}
    (hvariable : control.NamesVariable setting.table id)
    (h : ((Inner.at setting levels).forOpening id control start).GivesWhere place.Settles
      (counter, opening)) :
    control.CountsWith setting place counter ∧
      ∃ first, start.BecomesIn setting place first ∧ Opening.Sets first opening counter := by
  have hkept := Surroundings.kept_settles place
  unfold Inner.forOpening at h
  split at h
  · obtain ⟨_, -, h⟩ := h.bind_ofExcept
    obtain ⟨first, hfirst, heq⟩ := h.map
    obtain ⟨rfl, rfl⟩ := Prod.mk.inj heq
    exact ⟨.declared, first, .of_value hlevels hfirst, .declared⟩
  · exact absurd h.gives Convert.not_gives_unsupported
  · next target =>
    obtain ⟨_, hconverted, h⟩ := h.bind hkept (settling.levels setting levels (.expr target) true)
    obtain ⟨first, hfirst, h⟩ := h.bind hkept (settling.levels setting levels (.expr start) true)
    have hcounts := Source.LoopControl.CountsWith.existing (.of_value hlevels hconverted)
    have hbecomes := Source.Expr.BecomesIn.of_value hlevels hfirst
    split at h
    · next simple _ _ =>
      split at h
      · obtain ⟨rfl, rfl⟩ := Prod.mk.inj h.gives.pure
        exact ⟨hcounts, first, hbecomes, .assigned⟩
      · next hscope =>
        -- the variable that is declared has to be the one that the loop counts with
        obtain ⟨rfl, rfl⟩ := Prod.mk.inj h.gives.pure
        rw [Inner.table, Inner.at_setting, Bool.not_eq_true] at hscope
        obtain ⟨hgeneric, hmethod⟩ := hvariable simple rfl hscope
        obtain rfl := Inner.eq_identifier_of_value hgeneric hmethod hconverted.gives
        exact ⟨hcounts, first, hbecomes, .declared⟩
    · obtain ⟨rfl, rfl⟩ := Prod.mk.inj h.gives.pure
      exact ⟨hcounts, first, hbecomes, .assigned⟩

/-- Whether the step of a loop is taken for one that counts down. -/
def Source.countsDown (table : SemanticTable) (step : Option Source.Expr) : Bool :=
  step.any fun step => step.isNegated || (table.integer? step.id).any (· < 0)

variable {step : Option Source.Expr}

theorem Source.countsDown_iff {table : SemanticTable} {stride : Int}
    (h : Source.stride? table step = some stride) :
    Source.countsDown table step = true ↔ step.any Source.Expr.isNegated = true ∨ stride < 0 := by
  cases step with
  | none =>
    obtain rfl := Option.some.inj h
    simp [countsDown]
  | some step =>
    have hconstant : table.integer? step.id = some stride := h
    simp [countsDown, hconstant]

theorem Inner.forStep_eq (hlevels : levels = depthLimit - place.depth)
    {counter increment : Target.Expr} {descends : Bool}
    (h : ((Inner.at setting levels).forStep counter step).GivesWhere place.Settles
      (descends, increment)) :
    descends = Source.countsDown setting.table step ∧
      ∃ written, Option.Rel (Source.Expr.BecomesIn setting place) step written ∧
        ∀ parts : Target.Counting, parts.counter = counter → parts.step = written →
          parts.increment = increment := by
  cases step with
  | none =>
    obtain ⟨rfl, rfl⟩ := Prod.mk.inj h.gives.pure
    refine ⟨rfl, none, .none, fun parts hcounter hstep => ?_⟩
    rw [Target.Counting.increment, hstep, hcounter]
  | some step =>
    obtain ⟨written, hwritten, heq⟩ := Convert.GivesWhere.map h
    obtain ⟨rfl, rfl⟩ := Prod.mk.inj heq
    refine ⟨?_, some written, .some (.of_value hlevels hwritten), fun parts hcounter hstep => ?_⟩
    · rw [Inner.table, Inner.at_setting]
      rfl
    · rw [Target.Counting.increment, hstep, hcounter]

variable {statements : List Source.Statement}

/-- The loop is made of the conversions of its pieces. -/
theorem Inner.forLoop_eq (hlevels : levels = depthLimit - place.depth) {body : Body}
    {id : Source.NodeId} {start limit : Source.Expr} {loop : Target.Statement}
    (hvariable : control.NamesVariable setting.table id)
    (h : ((Inner.at setting levels).forLoop body id control start limit step statements).GivesWhere
      place.Settles loop) :
    ∃ (parts : Target.Counting) (opening : Opening), loop = parts.loop opening
        (if Source.countsDown setting.table step then .greaterThanOrEqual else .lessThanOrEqual) ∧
      parts.From setting place body control start limit step statements ∧
      Opening.Sets parts.first opening parts.counter := by
  have hkept := Surroundings.kept_settles place
  have hexpr (expr : Source.Expr) := settling.levels setting levels (.expr expr)
  have hsetting : (Inner.at setting levels).setting = (Inner.at setting levels).setting := rfl
  obtain ⟨⟨counter, opening⟩, hopening, h⟩ := h.bind hkept
    (Congruence.forOpening (C := settling.toCongruence) hsetting (fun expr _ => hexpr expr)
      (hexpr start))
  obtain ⟨last, hlast, h⟩ := h.bind hkept (hexpr limit true)
  obtain ⟨⟨_, _⟩, hstep, h⟩ := h.bind hkept
    (Congruence.forStep (C := settling.toCongruence) hsetting fun expr _ => hexpr expr)
  obtain ⟨_, hinside, rfl⟩ := h.map
  obtain ⟨converted, hconverted, rfl⟩ := hinside.map
  obtain ⟨hcounter, first, hfirst, hsets⟩ := Inner.forOpening_sets hlevels hvariable hopening
  obtain ⟨rfl, written, hwritten, hincrement⟩ := Inner.forStep_eq hlevels hstep
  let parts : Target.Counting := ⟨counter, first, last, written, embedded converted⟩
  refine ⟨parts, opening, ?_, ⟨hcounter, hfirst, .of_value hlevels hlast, hwritten,
    converted, ?_, rfl⟩, hsets⟩
  · rw [Target.Counting.loop, hincrement parts rfl rfl]
  · exact Convert.GivesWhere.current hlevels hconverted

/-- A `For` block becomes one statement, made of the conversions of its pieces. -/
theorem exists_counting {body : Body} {surroundings : Surroundings} {id : Source.NodeId}
    {start limit : Source.Expr} {trivia : Trivia} {output : List Target.Statement}
    (hvariable : control.NamesVariable setting.table id)
    (h : (convertStatements setting body [⟨id, .for control start limit step statements, trivia⟩]
      surroundings).1 = .ok output) :
    ∃ (parts : Target.Counting) (opening : Opening) (emitted : Target.Statement),
      output = [emitted] ∧
      emitted.uncommented = parts.loop opening
        (if Source.countsDown setting.table step then .greaterThanOrEqual else .lessThanOrEqual) ∧
      parts.From setting { surroundings with depth := surroundings.depth + 1 } body control
        start limit step
        statements ∧
      Opening.Sets parts.first opening parts.counter := by
  have hrun : ((Inner.at setting (depthLimit - surroundings.depth)).statements body
      [⟨id, .for control start limit step statements, trivia⟩]).GivesWhere
        surroundings.Settles output :=
    ⟨surroundings, .refl surroundings, h⟩
  obtain ⟨_, hlists, rfl⟩ := hrun.map
  have hone := hlists.mapM (Surroundings.kept_settles surroundings)
    fun statement => settling.levels setting (depthLimit - surroundings.depth)
      (.statement statement) body
  obtain _ | ⟨hlist, hnone⟩ := hone
  cases hnone
  cases hdepth : depthLimit - surroundings.depth with
  | zero =>
    rw [hdepth] at hlist
    exact absurd hlist.gives Convert.not_gives_unsupported
  | succ levels =>
    rw [hdepth] at hlist
    have hlevels : levels = depthLimit - (surroundings.depth + 1) := by omega
    obtain ⟨_, hplain, rfl⟩ := Convert.GivesWhere.map hlist
    obtain ⟨_, hloop, rfl⟩ := Convert.GivesWhere.map hplain.of_nested
    obtain ⟨parts, opening, rfl, hfrom, hsets⟩ := Inner.forLoop_eq hlevels hvariable hloop
    have hcomments := map_uncommented_attachStatements trivia
      [parts.loop opening (if Source.countsDown setting.table step then .greaterThanOrEqual
        else .lessThanOrEqual)]
    obtain ⟨emitted, hemitted, huncommented⟩ := map_eq_singleton_iff.mp hcomments
    refine ⟨parts, opening, emitted, ?_, huncommented, hfrom, hsets⟩
    rw [flatten_singleton]
    exact hemitted

end Emitted

/-- A converted `For` block whose step is a constant is one loop made of the conversions of its
pieces. Wherever these are worth `first`, `last` and that constant, it runs through the values of
the block, unless the step is written with a minus sign and is positive. Then the loop compares the
wrong way round: it gets to its end only if it makes no turn, which it does where the block has one
to make. -/
theorem for_blocks_count (setting : Setting) (body : Body) (surroundings : Surroundings)
    (id : Source.NodeId) (control : Source.LoopControl) (start limit : Source.Expr)
    (step : Option Source.Expr) (statements : List Source.Statement) (trivia : Trivia)
    (output : List Target.Statement) (stride : Int)
    (hrun : (convertStatements setting body [⟨id, .for control start limit step statements, trivia⟩]
      surroundings).1 = .ok output)
    (hvariable : control.NamesVariable setting.table id)
    (hstride : Source.stride? setting.table step = some stride) (hne : stride ≠ 0) :
    ∃ (parts : Target.Counting) (opening : Opening) (emitted : Target.Statement),
      output = [emitted] ∧
      emitted.uncommented = parts.loop opening
        (if step.any Source.Expr.isNegated = true ∨
          stride < 0 then .greaterThanOrEqual else .lessThanOrEqual) ∧
      parts.From setting { surroundings with depth := surroundings.depth + 1 } body control
        start limit step
        statements ∧
      ∀ first last : Int, ∃ values, Source.Counts first last stride values ∧
        ∀ (State : Type) (env : Environment State), env.Suits parts first last stride →
          (¬ (step.any Source.Expr.isNegated = true ∧ 0 < stride) →
            env.CountsThrough emitted parts.counter values) ∧
          (step.any Source.Expr.isNegated = true ∧ 0 < stride →
            ∀ state visited after, env.Runs emitted state visited (.through after) →
              visited = [] ∧ first ∈ values) := by
  obtain ⟨parts, opening, emitted, houtput, hemitted, hfrom, hsets⟩ :=
    exists_counting hvariable hrun
  simp only [Source.countsDown_iff hstride] at hemitted
  refine ⟨parts, opening, emitted, houtput, hemitted, hfrom, fun first last => ?_⟩
  obtain ⟨values, hvalues⟩ := Source.exists_counts first last hne
  refine ⟨values, hvalues, fun State env hsuits => ?_⟩
  -- an increment by one stands for a step that is left out, which is one according to the table
  have hone : parts.step = none → stride = 1 := by
    intro hnone
    have hstep := hfrom.step
    rw [hnone] at hstep
    cases hstep
    exact (Option.some.inj hstride).symm
  refine ⟨fun hright => ?_, fun ⟨hnegated, hpositive⟩ state visited after hruns => ?_⟩
  · -- the comparison is the one that goes with the direction of the step
    by_cases hdown : stride < 0
    · rw [if_pos (.inr hdown)] at hemitted
      have hkeeps := hsuits.keepsTo hone .greaterThanOrEqual rfl
      rw [← Source.notPast_down hdown last] at hkeeps
      exact hkeeps.countsThrough hemitted (hsuits.opens hsets) hvalues
    · have hplain : ¬ (step.any Source.Expr.isNegated = true ∨ stride < 0) := by
        rintro (hnegated | hnegative)
        · exact hright ⟨hnegated, by omega⟩
        · exact hdown hnegative
      rw [if_neg hplain] at hemitted
      have hkeeps := hsuits.keepsTo hone .lessThanOrEqual rfl
      rw [← Source.notPast_up hdown last] at hkeeps
      exact hkeeps.countsThrough hemitted (hsuits.opens hsets) hvalues
  · rw [if_pos (.inl hnegated)] at hemitted
    have hkeeps := hsuits.keepsTo hone .greaterThanOrEqual rfl
    rw [Environment.Runs, hemitted] at hruns
    obtain ⟨_, hopens, hturns⟩ := hruns
    obtain ⟨_, hopens', hbegun⟩ := hsuits.opens hsets state
    obtain rfl := Option.some.inj (hopens.symm.trans hopens')
    -- each step leads further above the limit
    have hinto : ∀ value, decide (last ≤ value) = true → decide (last ≤ value + stride) = true := by
      intro value hvalue
      simp only [decide_eq_true_eq] at hvalue ⊢
      omega
    obtain ⟨hbelow, rfl⟩ := hkeeps.not_started_of_through hinto hbegun hturns
    have hstarts : Source.notPast last stride first = true := by
      simp only [decide_eq_false_iff_not] at hbelow
      simp only [Source.notPast_up (Int.not_lt.mpr (Int.le_of_lt hpositive)), decide_eq_true_eq]
      omega
    exact ⟨rfl, mem_of_getElem? ((hvalues 0 first).mpr ⟨by simp, hstarts⟩)⟩

/-- `For i = 10 To 4 Step Down` with the constant -3 for `Down`. -/
theorem counting_down_by_a_constant :
    let setting : Setting := { table := ({} : SemanticTable).setConstant 5 (.integer (-3)) }
    let control : Source.LoopControl := .existing (.name ⟨2, "i", []⟩)
    let step : Source.Expr := .name ⟨5, "Down", []⟩
    let block : Source.Statement :=
      ⟨1, .for control (.literal 3 (.numeric "10")) (.literal 4 (.numeric "4")) (some step) [], {}⟩
    let emitted : Target.Statement := .for (.declared (.single .var "i" (some (.number "10"))))
      (some (.binary (.identifier "i") .greaterThanOrEqual (.number "4")))
      [.assignment (.identifier "i") .add (.identifier "Down")] (.block [])
    let constant : String → Option Int := fun name => if name = "Down" then some (-3) else none
    (convertStatements setting ⟨.procedure, false, []⟩ [block] {}).1 = .ok [emitted] ∧
      control.NamesVariable setting.table 1 ∧ Source.stride? setting.table (some step) = some (-3) ∧
      Source.Counts 10 4 (-3) [10, 7, 4] ∧
      (Environment.ofConstants constant).CountsThrough emitted (.identifier "i") [10, 7, 4] := by
  intro setting control step block emitted constant
  have hrun : (convertStatements setting ⟨.procedure, false, []⟩ [block] {}).1 =
    .ok [emitted] := by rfl
  have hvariable : control.NamesVariable setting.table 1 := by
    rintro simple hsimple -
    obtain rfl : ⟨2, "i", []⟩ = simple :=
      Source.Expr.name.inj (Source.LoopControl.existing.inj hsimple)
    exact ⟨rfl, rfl⟩
  have hcounts : Source.Counts 10 4 (-3) [10, 7, 4] :=
    .cons rfl (.cons rfl (.cons rfl (.nil rfl)))
  refine ⟨hrun, hvariable, rfl, hcounts, ?_⟩
  obtain ⟨parts, _, _, honly, hloop, hfrom, hvalues⟩ :=
    for_blocks_count setting ⟨.procedure, false, []⟩ {} 1 control _ _ (some step) [] {}
      [emitted] (-3) hrun
      hvariable rfl (by decide)
  obtain rfl := singleton_inj.mp honly
  obtain ⟨-, htest, hincrement, -⟩ := Target.Statement.for.inj hloop
  obtain ⟨hcounter, -, hlast⟩ := Target.Expr.binary.inj (Option.some.inj htest)
  have hfirst : Target.Expr.number "10" = parts.first := by
    obtain ⟨_, rfl | rfl, hplace⟩ := hfrom.first
    · exact Except.ok.inj hplace
    · exact Except.ok.inj hplace
  have hdown : ∀ value ∈ parts.step, Target.Expr.identifier "Down" = value := by
    intro value hvalue
    rw [Target.Counting.increment, hvalue] at hincrement
    exact (Target.Expr.assignment.inj (singleton_inj.mp hincrement)).2.2
  obtain ⟨_, hvalues, hcounting⟩ := hvalues 10 4
  obtain rfl := hvalues.unique hcounts
  have hsuits : (Environment.ofConstants constant).Suits parts 10 4 (-3) := by
    refine Environment.suits_ofConstants rfl hcounter.symm (fun state => ?_) (fun state => ?_)
      fun value hvalue state => ?_
    · rw [← hfirst]
      rfl
    · rw [← hlast]
      rfl
    · rw [← hdown value hvalue]
      rfl
  rw [hcounter]
  exact (hcounting _ _ hsuits).1 (by decide)

/-- `For i = 1 To 5 Step -Down` with the constant -1 for `Down`. The step is 1, and the block runs
from 1 to 5; the loop makes no turn. -/
theorem negated_constant_counts_the_wrong_way :
    let table :=
      (((({} : SemanticTable).setConstant 3 (.integer 1)).setConstant 4 (.integer 5)).setConstant 5
      (.integer 1)).setConstant 6 (.integer (-1))
    let step : Source.Expr := .unary 5 .minus (.name ⟨6, "Down", []⟩)
    let block : Source.Statement :=
      ⟨1, .for (.existing (.name ⟨2, "i", []⟩)) (.literal 3 (.numeric "1"))
        (.literal 4 (.numeric "5"))
        (some step) [], {}⟩
    let parts : Target.Counting := ⟨.identifier "i", .number "1", .number "5",
      some (.prefixUnary .minus (.identifier "Down")), .block []⟩
    let emitted :=
      parts.loop (.declared (.single .var "i" (some (.number "1")))) .greaterThanOrEqual
    let constant : String → Option Int := fun name => if name = "Down" then some (-1) else none
    let env := Environment.ofConstants constant
    (convertStatements { table } ⟨.procedure, false, []⟩ [block] {}).1 = .ok [emitted] ∧
      table.integer? 3 = some 1 ∧ table.integer? 4 = some 5 ∧
        Source.stride? table (some step) = some 1 ∧
      Source.Counts 1 5 1 [1, 2, 3, 4, 5] ∧
      env.Suits parts 1 5 1 ∧ (∀ state, ∃ after, env.Runs emitted state [] (.through after)) ∧
      ¬ env.CountsThrough emitted (.identifier "i") [1, 2, 3, 4, 5] := by
  intro table step block parts emitted constant env
  have hruns : ∀ state, ∃ after, env.Runs emitted state [] (.through after) :=
    fun state => ⟨_, _, rfl, .done rfl⟩
  refine ⟨by rfl, rfl, rfl, rfl, ?_, ?_, hruns, fun hcounts => ?_⟩
  · exact .cons rfl (.cons rfl (.cons rfl (.cons rfl (.cons rfl (.nil rfl)))))
  · refine Environment.suits_ofConstants rfl rfl (fun _ => rfl) (fun _ => rfl) ?_
    rintro _ ⟨⟩ _
    rfl
  · obtain ⟨_, _, -, ⟨-, hall⟩, hunique⟩ := hcounts fun _ => 0
    obtain ⟨after, hafter⟩ := hruns fun _ => 0
    obtain ⟨rfl, rfl⟩ := hunique _ _ hafter
    cases hall after rfl

end Sharpen
