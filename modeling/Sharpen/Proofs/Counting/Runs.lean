import Mathlib.Data.List.Basic
import Sharpen.Target.Build

/-!
# What a counting loop runs through

`Source.Counts` lists the values of the control variable of a `For` block: `first`, `first + step`
and so on, as long as they have not passed `last`. On the other side, `Environment.Runs` says what a
`for` statement does. An environment gives the meaning of the parts: what expressions are worth,
what it is to store a value in a variable, and what the body of a loop does, which may leave the
loop.

A loop that keeps to a direction (`KeepsTo`) has exactly one run, and its turns follow the listed
values (`KeepsTo.countsThrough`). One that steps away from its limit gets to its end only by not
starting at all (`KeepsTo.not_started_of_through`).
-/

namespace Sharpen

open List

/-! ## The values of a control variable -/

namespace Source

/-- A value that has not passed the last one, seen in the direction of the step. -/
def notPast (last step value : Int) : Bool :=
  if step < 0 then last ≤ value else value ≤ last

/-- The values that a control variable takes: turn by turn one step further, as long as the last
value has not been passed. -/
def Counts (first last step : Int) (values : List Int) : Prop :=
  ∀ (turn : Nat) (value : Int),
    values[turn]? = some value ↔ value = first + turn * step ∧ notPast last step value = true

theorem notPast_down {step : Int} (h : step < 0) (last : Int) :
    notPast last step = fun value => decide (last ≤ value) := by
  funext value
  rw [notPast, if_pos h]

theorem notPast_up {step : Int} (h : ¬ step < 0) (last : Int) :
    notPast last step = fun value => decide (value ≤ last) := by
  funext value
  rw [notPast, if_neg h]

/-- What has been passed once is passed for good. -/
theorem notPast_of_later {first last step : Int} (turn : Nat)
    (h : notPast last step (first + turn * step) = true) : notPast last step first = true := by
  by_cases hstep : step < 0
  · have hmoved : (turn : Int) * step ≤ 0 :=
      Int.mul_nonpos_of_nonneg_of_nonpos (Int.natCast_nonneg turn) (Int.le_of_lt hstep)
    simp only [notPast_down hstep, decide_eq_true_eq] at h ⊢
    omega
  · have hmoved : 0 ≤ (turn : Int) * step :=
      Int.mul_nonneg (Int.natCast_nonneg turn) (Int.not_lt.mp hstep)
    simp only [notPast_up hstep, decide_eq_true_eq] at h ⊢
    omega

/-- The value of a turn is that of the turn before, counted from one step further on. -/
theorem turn_succ (first step : Int) (turn : Nat) :
    first + ((turn + 1 : Nat) : Int) * step = first + step + turn * step := by
  rw [Int.natCast_add, Int.natCast_one, Int.add_mul, Int.one_mul]
  omega

namespace Counts

variable {first last step value : Int} {values : List Int}

theorem nil (h : notPast last step first = false) : Counts first last step [] := by
  intro turn value
  constructor
  · intro hvalue
    cases hvalue
  · rintro ⟨rfl, hlater⟩
    rw [notPast_of_later turn hlater] at h
    cases h

theorem cons (h : notPast last step first = true) (hrest : Counts (first + step) last step values) :
    Counts first last step (first :: values) := by
  intro turn value
  cases turn with
  | zero =>
    rw [List.getElem?_cons_zero, Option.some.injEq, Int.natCast_zero, Int.zero_mul, Int.add_zero]
    constructor
    · rintro rfl
      exact ⟨rfl, h⟩
    · rintro ⟨rfl, -⟩
      rfl
  | succ turn =>
    rw [List.getElem?_cons_succ, turn_succ]
    exact hrest turn value

theorem past_of_nil (h : Counts first last step []) : notPast last step first = false := by
  have hnone := mt (h 0 first).mpr (fun h => nomatch h)
  simpa using hnone

theorem of_cons (h : Counts first last step (value :: values)) :
    value = first ∧ notPast last step first = true ∧ Counts (first + step) last step values := by
  obtain ⟨heq, hvalue⟩ := (h 0 value).mp rfl
  have hfirst : value = first := by simpa using heq
  subst hfirst
  refine ⟨rfl, hvalue, fun turn other => ?_⟩
  have hnext := h (turn + 1) other
  rwa [List.getElem?_cons_succ, turn_succ] at hnext

/-- There is one list of values. -/
theorem unique {others : List Int} (h : Counts first last step values)
    (h' : Counts first last step others) :
    values = others := by
  refine ext_getElem? fun turn => Option.ext fun value => ?_
  exact (h turn value).trans (h' turn value).symm

end Counts

/-- Steps that lead somewhere pass every limit. -/
theorem exists_counts {step : Int} (first last : Int) (hstep : step ≠ 0) :
    ∃ values, Counts first last step values := by
  -- the distance to the limit, in the direction of the step, goes down by at least one each turn
  obtain ⟨bound, hbound⟩ : ∃ bound : Nat,
    (if step < 0 then first - last else last - first) < bound :=
    ⟨(if step < 0 then first - last else last - first).toNat + 1, by omega⟩
  induction bound generalizing first with
  | zero =>
    refine ⟨[], .nil ?_⟩
    by_cases hdown : step < 0
    · rw [if_pos hdown] at hbound
      simp only [notPast_down hdown, decide_eq_false_iff_not]
      omega
    · rw [if_neg hdown] at hbound
      simp only [notPast_up hdown, decide_eq_false_iff_not]
      omega
  | succ bound ih =>
    cases hpast : notPast last step first with
    | false => exact ⟨[], .nil hpast⟩
    | true =>
      have hcloser : (if step < 0 then first + step - last else last - (first + step)) < bound := by
        split at hbound <;> split <;> omega
      obtain ⟨values, hvalues⟩ := ih (first + step) hcloser
      exact ⟨first :: values, .cons hpast hvalues⟩

end Source

/-! ## Runs of a loop -/

namespace Target

/-- How statements end: they get through, or they leave the loop around them. -/
inductive Ending (State : Type) where
  | through (state : State)
  | left (state : State)

/-- What the parts of a loop mean, over states of any kind. -/
structure Environment (State : Type) where
  /-- the integer that an expression is worth, if it is worth one -/
  value : Expr → State → Option Int
  /-- the state after a variable has been given a value -/
  store : Expr → Int → State → State
  /-- what a body does -/
  perform : Statement → State → Ending State

/-- How an operator compares integers, if that is what it does. -/
def BinaryOperator.compare? : BinaryOperator → Option (Int → Int → Bool)
  | .lessThan => some fun left right => left < right
  | .lessThanOrEqual => some fun left right => left ≤ right
  | .greaterThan => some fun left right => right < left
  | .greaterThanOrEqual => some fun left right => right ≤ left
  | .equals => some fun left right => left = right
  | .notEquals => some fun left right => left ≠ right
  | _ => none

namespace Environment

variable {State : Type} (env : Environment State)

/-- Whether the test of a loop is passed. A loop without a test always goes on. -/
def passes (test : Option Expr) (state : State) : Option Bool :=
  match test with
  | none => some true
  | some (.binary left operator right) => do
    let compare ← operator.compare?
    return compare (← env.value left state) (← env.value right state)
  | some _ => none

/-- The state after an expression that is evaluated for its effect. -/
def effect (state : State) : Expr → Option State
  | .assignment place .simple value => do
    return env.store place (← env.value value state) state
  | .assignment place .add value => do
    return env.store place ((← env.value place state) + (← env.value value state)) state
  | .assignment place .subtract value => do
    return env.store place ((← env.value place state) - (← env.value value state)) state
  | .postfixUnary place .increment => do
    return env.store place ((← env.value place state) + 1) state
  | .postfixUnary place .decrement => do
    return env.store place ((← env.value place state) - 1) state
  | _ => none

/-- The state after a variable has been declared. -/
def declare (state : State) (declarator : Declarator) : Option State :=
  match declarator.initializer with
  | some value =>
    do return env.store (.identifier declarator.identifier) (← env.value value state) state
  | none => some state

/-- The state in which a loop makes its first test. -/
def opens (state : State) : Opening → Option State
  | .declared group => group.declarators.foldlM env.declare state
  | .expressions values => values.foldlM env.effect state

/-- The turns of a loop from a test on: the states that its body starts in, and how the loop ends.
-/
inductive Turns (test : Option Expr) (increments : List Expr) (body : Statement) :
    State → List State → Ending State → Prop
  | done {state : State} (htest : env.passes test state = some false) :
      Turns test increments body state [] (.through state)
  | left {state after : State} (htest : env.passes test state = some true)
      (hbody : env.perform body state = .left after) :
      Turns test increments body state [state] (.left after)
  | next {state middle after : State} {visited : List State} {ending : Ending State}
      (htest : env.passes test state = some true) (hbody : env.perform body state = .through middle)
      (hincrements : increments.foldlM env.effect middle = some after)
      (hrest : Turns test increments body after visited ending) :
      Turns test increments body state (state :: visited) ending

/-- What a `for` statement does, comments aside. -/
def Runs (statement : Statement) (state : State) (visited : List State) (ending : Ending State) :
    Prop :=
  match statement.uncommented with
  | .for opening test increments body =>
    ∃ first, env.opens state opening = some first ∧
      env.Turns test increments body first visited ending
  | _ => False

/-- The states visited have these values in a variable, in order: all of them unless the loop is
left. -/
def Follows (counter : Expr) (values : List Int) (visited : List State) (ending : Ending State) :
    Prop :=
  visited.map (env.value counter) <+: values.map some ∧
    ∀ after, ending = .through after → visited.map (env.value counter) = values.map some

/-- From every state a loop has exactly one run, and that one follows the values. -/
def CountsThrough (statement : Statement) (counter : Expr) (values : List Int) : Prop :=
  ∀ state, ∃ visited ending, env.Runs statement state visited ending ∧
    env.Follows counter values visited ending ∧
    ∀ other last, env.Runs statement state other last → other = visited ∧ last = ending

variable {env}

/-- A loop has at most one run. -/
theorem Turns.unique {test : Option Expr} {increments : List Expr} {body : Statement}
    {state : State} {visited other : List State} {ending last : Ending State}
    (h : env.Turns test increments body state visited ending)
    (h' : env.Turns test increments body state other last) : other = visited ∧ last = ending := by
  induction h generalizing other last with
  | done htest =>
    cases h' with
    | done => exact ⟨rfl, rfl⟩
    | left htest' | next htest' => simp [htest] at htest'
  | left htest hbody =>
    cases h' with
    | done htest' => simp [htest] at htest'
    | left _ hbody' =>
      obtain rfl := Ending.left.inj (hbody.symm.trans hbody')
      exact ⟨rfl, rfl⟩
    | next _ hbody' => cases hbody.symm.trans hbody'
  | next htest hbody hincrements _ ih =>
    cases h' with
    | done htest' => simp [htest] at htest'
    | left _ hbody' => cases hbody.symm.trans hbody'
    | next _ hbody' hincrements' hrest' =>
      obtain rfl := Ending.through.inj (hbody.symm.trans hbody')
      obtain rfl := Option.some.inj (hincrements.symm.trans hincrements')
      obtain ⟨rfl, rfl⟩ := ih hrest'
      exact ⟨rfl, rfl⟩

/-! ## Loops that keep to a direction -/

variable (env) in
/-- A loop that moves a variable by a step each turn and goes on while `goesOn` holds of it. -/
structure KeepsTo (counter : Expr) (goesOn : Int → Bool) (step : Int) (test : Option Expr)
    (increments : List Expr) (body : Statement) : Prop where
  tests {state : State} {value : Int} (h : env.value counter state = some value) :
    env.passes test state = some (goesOn value)
  moves {state : State} {value : Int} (h : env.value counter state = some value) :
    ∃ after, increments.foldlM env.effect state = some after ∧ env.value counter after =
      some (value + step)
  keeps {state middle : State} (h : env.perform body state = .through middle) :
    env.value counter middle = env.value counter state

namespace KeepsTo

variable {counter : Expr} {goesOn : Int → Bool} {step : Int} {test : Option Expr}
  {increments : List Expr} {body : Statement}

/-- A loop that goes on as long as the last value has not been passed makes a turn for each value.
-/
theorem exists_turns {last : Int}
    (h : env.KeepsTo counter (Source.notPast last step) step test increments body)
    {values : List Int} {first : Int} (hvalues : Source.Counts first last step values)
    {state : State} (hfirst : env.value counter state = some first) :
    ∃ visited ending, env.Turns test increments body state visited ending ∧
      env.Follows counter values visited ending := by
  have htest := h.tests hfirst
  -- the induction is on the values that are left: each turn takes one of them
  induction values generalizing first state with
  | nil =>
    rw [hvalues.past_of_nil] at htest
    exact ⟨[], _, .done htest, prefix_refl _, fun _ _ => rfl⟩
  | cons value values ih =>
    obtain ⟨rfl, hpast, hrest⟩ := hvalues.of_cons
    rw [hpast] at htest
    cases hbody : env.perform body state with
    | left =>
      refine ⟨[state], _, .left htest hbody, ?_, fun _ h => nomatch h⟩
      rw [map_singleton, hfirst, map_cons]
      exact prefix_append [some value] _
    | through =>
      obtain ⟨_, hmoves, hafter⟩ := h.moves ((h.keeps hbody).trans hfirst)
      obtain ⟨visited, ending, hturns, hprefix, hall⟩ := ih hrest hafter (h.tests hafter)
      refine ⟨state :: visited, ending, .next htest hbody hmoves hturns, ?_, fun last hlast => ?_⟩
      · simpa only [map_cons, hfirst] using prefix_cons_inj _ |>.mpr hprefix
      · simp only [map_cons, hfirst, hall last hlast]

/-- A loop that only steps further into where it goes on gets to its end only if it does not start.
-/
theorem not_started_of_through (h : env.KeepsTo counter goesOn step test increments body)
    (hinto : ∀ value, goesOn value = true → goesOn (value + step) = true) {state after : State}
    {first : Int} (hfirst : env.value counter state = some first) {visited : List State}
    (hturns : env.Turns test increments body state visited (.through after)) :
    goesOn first = false ∧ visited = [] := by
  generalize hending : Ending.through after = ending at hturns
  have htest := h.tests hfirst
  induction hturns generalizing first with
  | done hdone => exact ⟨Option.some.inj (htest.symm.trans hdone), rfl⟩
  | left => cases hending
  | next hpasses hbody hincrements _ ih =>
    obtain ⟨_, hmoves, hother⟩ := h.moves ((h.keeps hbody).trans hfirst)
    obtain rfl := Option.some.inj (hincrements.symm.trans hmoves)
    -- the rest of the run has started too, so it does not get to its end
    have hgoes := hinto first (Option.some.inj (htest.symm.trans hpasses))
    obtain ⟨hstops, -⟩ := ih hother hending (h.tests hother)
    rw [hgoes] at hstops
    cases hstops

/-- A loop that starts at the first value and goes on as long as the last one has not been passed.
-/
theorem countsThrough {first last : Int} {opening : Opening} {statement : Statement}
    (h : env.KeepsTo counter (Source.notPast last step) step test increments body)
    (hstatement : statement.uncommented = .for opening test increments body)
    (hopens : ∀ state, ∃ start, env.opens state opening = some start ∧
      env.value counter start = some first)
    {values : List Int} (hvalues : Source.Counts first last step values) :
    env.CountsThrough statement counter values := by
  intro state
  obtain ⟨start, hstart, hfirst⟩ := hopens state
  obtain ⟨visited, ending, hturns, hfollows⟩ := h.exists_turns hvalues hfirst
  simp only [Runs, hstatement]
  refine ⟨visited, ending, ⟨start, hstart, hturns⟩, hfollows, ?_⟩
  rintro _ _ ⟨_, hstart', hother⟩
  obtain rfl := Option.some.inj (hstart.symm.trans hstart')
  exact hturns.unique hother

end KeepsTo

end Environment

end Target

end Sharpen
