import Mathlib.Data.List.Find
import Sharpen.Proofs.Hygiene.Receivers

/-!
# The scope of a `With` variable

A `With` block becomes a block that starts with the declaration of a variable. Inside that block no
other variable of the same name can be declared, neither in its statements nor in the value that the
variable starts with. To say so of a conversion, it is run once more with converters that keep the
names of the blocks they are in the scope of, and stop with an error of our choice at a `With` block
that takes one of them (`Inner.scoping`).

* In the statements of a block its name is never taken again.
* In its target it is not taken again either, as long as the target holds no `With` block, as it may
  in a lambda. A `With` block there is converted before the block around it has a name, and ends up
  with the same one: `with_variable_declared_twice`.

The main result is `with_variables_have_their_scope`.
-/

namespace Sharpen

open List
open Source (Expr Statement Construct StatementKind)

/-- A `With` block with this target stands in a construct. -/
inductive Source.Construct.HasWith (target : Expr) : Construct → Prop where
  | here {statement : Statement} {statements : List Statement}
      (hkind : statement.kind = .with target statements) : HasWith target (.statement statement)
  | inside {construct part : Construct} (hpart : part ∈ construct.parts) (h : HasWith target part) :
      HasWith target construct

/-- No target of a `With` block in a construct holds a `With` block. -/
def Source.Construct.TargetsAreFlat (construct : Construct) : Prop :=
  ∀ target, construct.HasWith target → ∀ deeper, ¬ (Construct.expr target).HasWith deeper

/-! ## Runs that look out for names that are taken twice -/

/-- Where the variable of a `With` block counts as declared. -/
inductive VariableScope where
  /-- in the statements of the block -/
  | statements
  /-- in the whole block, also in the value that the variable starts with -/
  | block
  deriving DecidableEq

/-- The names that are declared in the target of a block, given the name that it takes. -/
def VariableScope.inTarget (declared : List String) (name? : Option String) :
    VariableScope → List String
  | .statements => declared
  | .block => name?.toList ++ declared

/-- The name that a statement takes: a `With` block does, if there is one left. -/
def Source.Statement.withName? (setting : Setting) (receivers : List String)
    (statement : Statement) :
    Option String :=
  match statement.kind with
  | .with _ _ =>
    (uniqueName receivers withVariable
      (statement.nodeIds.flatMap setting.table.namesInScope)).toOption
  | _ => none

variable {body : Body} {statement : Statement} {surroundings : Surroundings} {name : String}

namespace Inner

/-- The converters for the target and for the statements of a block, given the name that it takes.
-/
def insideBlock (inner : List String → Inner) (scope : VariableScope) (declared : List String)
    (name? : Option String) : Inner :=
  { inner (name?.toList ++ declared) with expr := (inner (scope.inTarget declared name?)).expr }

/-- The converters that may go a number of levels deep in the scope of variables with the declared
names, and stop at a `With` block that takes one of these names. -/
def scoping (setting : Setting) (error : ConversionError) (scope : VariableScope) :
    (levels : Nat) → (declared : List String) → Inner
  | 0, _ => Inner.at setting 0
  | levels + 1, declared =>
    let inner := scoping setting error scope levels
    { (inner declared).deeper with
      statement := fun body statement surroundings =>
        let name? := statement.withName? setting surroundings.receivers
        if name?.any declared.contains then (.error error, surroundings)
        else (insideBlock inner scope declared name?).deeper.statement body statement surroundings }

theorem insideBlock_block (inner : List String → Inner) (declared : List String) (name : String) :
    insideBlock inner .block declared (some name) = inner (name :: declared) :=
  rfl

variable {setting : Setting} {error : ConversionError} {scope : VariableScope} {levels : Nat}
  {declared : List String}

@[simp] theorem scoping_setting :
    (scoping setting error scope levels declared).setting = setting := by
  induction levels with
  | zero => rfl
  | succ levels ih => exact ih

theorem scoping_expr (levels : Nat) : (scoping setting error scope (levels + 1) declared).expr =
    (scoping setting error scope levels declared).deeper.expr :=
  rfl

theorem scoping_statement_none (hname : statement.withName? setting surroundings.receivers = none) :
    (scoping setting error scope (levels + 1) declared).statement body statement surroundings =
      (scoping setting error scope levels declared).deeper.statement body statement
        surroundings := by
  rw [scoping]
  dsimp only
  rw [hname]
  cases scope <;> rfl

theorem scoping_statement_some
    (hname : statement.withName? setting surroundings.receivers = some name)
    (hnew : name ∉ declared) :
    (scoping setting error scope (levels + 1) declared).statement body statement surroundings =
      (insideBlock (scoping setting error scope levels) scope declared (some name)).deeper.statement
        body statement surroundings := by
  rw [scoping]
  dsimp only
  rw [hname, if_neg (by simpa using hnew)]

end Inner

variable {setting : Setting} {receivers : List String}

theorem Source.Statement.withName?_eq_none
    (hkind : ∀ target statements, statement.kind ≠ .with target statements) :
    statement.withName? setting receivers = none := by
  unfold withName?
  split
  · next target statements hwith => exact absurd hwith (hkind target statements)
  · rfl

theorem Source.Statement.exists_of_withName?
    (h : statement.withName? setting receivers = some name) :
    ∃ target statements, statement.kind = .with target statements ∧
      uniqueName receivers withVariable (statement.nodeIds.flatMap setting.table.namesInScope) =
        .ok name := by
  unfold withName? at h
  split at h
  · next target statements hkind =>
    refine ⟨target, statements, hkind, ?_⟩
    generalize uniqueName .. = chosen at h ⊢
    cases chosen with
    | error => cases h
    | ok => exact congrArg _ (Option.some.inj h)
  · cases h

variable {error : ConversionError} {scope : VariableScope} {levels : Nat}

/-- Where no `With` block stands, none takes a name. -/
theorem scoping_eq_of_no_with {declared : List String} {construct : Construct}
    (hnone : ∀ target, ¬ construct.HasWith target) :
    equality.OnConstruct (Inner.scoping setting error scope levels declared)
      (Inner.at setting levels) construct := by
  induction levels generalizing construct with
  | zero =>
    cases construct with
    | expr | statement => exact fun _ => rfl
    | declaration => rfl
  | succ levels ih =>
    have hdeeper : equality.OnConstruct (Inner.scoping setting error scope levels declared).deeper
        (Inner.at setting levels).deeper construct :=
      LevelCorrespondence.deeper (by simp) fun part hpart =>
        ih fun target htarget => hnone target (.inside hpart htarget)
    rw [Inner.at_succ]
    cases construct with
    | expr => exact hdeeper
    | statement node =>
      intro body
      funext surroundings
      have hname : node.withName? setting surroundings.receivers = none :=
        Source.Statement.withName?_eq_none fun target statements hwith => hnone target (.here hwith)
      rw [Inner.scoping_statement_none hname]
      exact congrFun (hdeeper body) surroundings
    | declaration => exact hdeeper

/-! ## One `With` block -/

variable {block : Statement} {target : Expr} {statements : List Statement}

/-- Two runs of the rule for a `With` block do the same if they do so for the target, where the
names are those outside the block, and for the statements, where the name of the block has come to
them. -/
theorem Inner.sameWhere_with {inner other : Inner} (hsetting : inner.setting = other.setting)
    (hkind : block.kind = .with target statements)
    (htarget : Convert.SameWhere (·.receivers) (· = receivers) (inner.value target)
      (other.value target))
    (hbody : ∀ name, uniqueName receivers withVariable (inner.namesInside block) = .ok name →
      Convert.SameWhere (·.receivers) (· = name :: receivers) (inner.statements body statements)
      (other.statements body statements)) :
    Convert.SameWhere (·.receivers) (· = receivers) (inner.deeper.statement body block)
      (other.deeper.statement body block) := by
  have hnames : other.namesInside block = inner.namesInside block := by
    rw [Inner.namesInside, Inner.namesInside, Congruence.table_eq hsetting]
  have hblock : Convert.SameWhere (·.receivers) (· = receivers)
      (inner.withBlock body block target statements)
        (other.withBlock body block target statements) := by
    rw [Inner.withBlock_eq, Inner.withBlock_eq, hnames]
    refine htarget.bind fun value => Convert.SameWhere.bind ?_ fun _ _ _ => ⟨rfl, rfl⟩
    refine Convert.SameWhere.inWithBlock ?_
    rintro _ name rfl hname
    exact hbody name hname
  have hrule : Convert.SameWhere (·.receivers) (· = receivers) (block.convertKind inner body)
      (block.convertKind other body) := by
    obtain ⟨_, kind⟩ := block
    obtain rfl : kind = _ := hkind
    exact hblock.bind fun _ _ _ => ⟨rfl, rfl⟩
  have hnested : Convert.SameWhere (·.receivers) (· = receivers)
      (Convert.nested (block.convertKind inner body))
        (Convert.nested (block.convertKind other body)) :=
    hrule.within (fun _ => rfl) fun _ => rfl
  exact hnested.bind fun _ _ _ => ⟨rfl, rfl⟩

/-! ## Whole conversions -/

/-- Inside the blocks with the declared names, both conversions do the same and keep the names. -/
def sameInside (declared : List String) : LevelCorrespondence where
  Rel c d := Convert.SameWhere (·.receivers) (declared ⊆ ·) c d
  ofExcept _ _ _ := ⟨rfl, rfl⟩
  bind hc hf := hc.bind hf
  get _ _ := ⟨rfl, rfl⟩
  takeBindingHead _ _ := ⟨rfl, rfl⟩
  nested hc := hc.within (fun _ => rfl) fun _ => rfl
  inContainer _ hc := hc.within (fun _ => rfl) fun _ => rfl
  inWithBlock _ hc := Convert.SameWhere.inWithBlock fun _ name hsub _ => hc.mono fun _ heq =>
    heq ▸ subset_cons_of_subset name hsub
  bindingHead hc := hc.bindingHead fun _ _ => rfl

variable {declared receivers : List String}

/-- In the target of a block its name is declared or not, as the scope has it. -/
theorem same_in_target (name : String) (hsub : declared ⊆ receivers)
    (hflat : scope = .block → ∀ deeper, ¬ (Construct.expr target).HasWith deeper)
    (htarget : (sameInside declared).OnConstruct (Inner.scoping setting error scope levels declared)
      (Inner.at setting levels) (.expr target)) :
    Convert.SameWhere (·.receivers) (· = receivers)
      ((Inner.insideBlock (Inner.scoping setting error scope levels) scope declared
        (some name)).value target)
      ((Inner.at setting levels).value target) := by
  cases scope with
  | statements =>
    refine Convert.SameWhere.mono (htarget true) ?_
    rintro _ rfl
    exact hsub
  | block =>
    -- a run that finds no `With` block does what the converters do, whatever is declared
    have heq : (Inner.scoping setting error .block levels (name :: declared)).expr true target =
        (Inner.at setting levels).expr true target :=
      scoping_eq_of_no_with (hflat rfl) true
    intro before _
    refine ⟨congrFun heq before, ?_⟩
    change ((Inner.scoping setting error .block levels (name :: declared)).expr true target
      before).2.receivers = _
    rw [heq]
    exact (settling.levels setting levels (.expr target) true).receivers_eq before

/-- In the statements of a block its name is declared, and it is the last one that came to the
names. -/
theorem same_in_statements (body : Body) (hsub : declared ⊆ receivers)
    (hstatements : ∀ statement ∈ statements, (sameInside (name :: declared)).OnConstruct
      (Inner.scoping setting error scope levels (name :: declared)) (Inner.at setting levels)
      (.statement statement)) :
    Convert.SameWhere (·.receivers) (· = name :: receivers)
      ((Inner.insideBlock (Inner.scoping setting error scope levels) scope declared
        (some name)).statements
        body statements) ((Inner.at setting levels).statements body statements) := by
  have hsame : (sameInside (name :: declared)).Rel
      ((Inner.scoping setting error scope levels (name :: declared)).statements body statements)
      ((Inner.at setting levels).statements body statements) :=
    Congruence.statements fun statement hstatement => hstatements statement hstatement body
  refine Convert.SameWhere.mono hsame ?_
  rintro _ rfl
  exact cons_subset_cons name hsub

/-- **Every level**: the name that a block takes is not declared around it, and its parts are in the
scope of the name. -/
theorem scoping_levels (levels : Nat) (declared : List String) {construct : Construct}
    (hflat : scope = .block → construct.TargetsAreFlat) :
    (sameInside declared).OnConstruct (Inner.scoping setting error scope levels declared)
      (Inner.at setting levels) construct := by
  induction levels generalizing declared construct with
  | zero =>
    cases construct with
    | expr | statement => exact fun _ _ _ => ⟨rfl, rfl⟩
    | declaration => exact fun _ _ => ⟨rfl, rfl⟩
  | succ levels ih =>
    have hparts : ∀ declared, ∀ part ∈ construct.parts, (sameInside declared).OnConstruct
        (Inner.scoping setting error scope levels declared) (Inner.at setting levels) part :=
      fun declared part hpart => ih declared fun hscope target htarget =>
        hflat hscope target (.inside hpart htarget)
    have hdeeper : (sameInside declared).OnConstruct
        (Inner.scoping setting error scope levels declared).deeper (Inner.at setting levels).deeper
        construct :=
      LevelCorrespondence.deeper (by simp) (hparts declared)
    rw [Inner.at_succ]
    cases construct with
    | expr | declaration => exact hdeeper
    | statement node =>
      intro body surroundings hsub
      cases hname : node.withName? setting surroundings.receivers with
      | none =>
        rw [Inner.scoping_statement_none hname]
        exact hdeeper body surroundings hsub
      | some name =>
        obtain ⟨target, _, hkind, hunique⟩ := Source.Statement.exists_of_withName? hname
        obtain ⟨hfree, -⟩ := not_mem_of_uniqueName hunique
        rw [Inner.scoping_statement_some hname fun hdeclared => hfree (hsub hdeclared)]
        refine Inner.sameWhere_with (by simp [Inner.insideBlock]) hkind ?_ ?_ surroundings rfl
        · have hexpr : Construct.expr target ∈ (Construct.statement node).parts := by
            simp [Construct.parts, hkind, StatementKind.exprs]
          exact same_in_target name hsub (fun hscope => hflat hscope target (.here hkind))
            (hparts declared _ hexpr)
        · intro chosen hchosen
          have hnames : (Inner.insideBlock (Inner.scoping setting error scope levels) scope declared
              (some name)).namesInside node = node.nodeIds.flatMap setting.table.namesInScope := by
            simp [Inner.insideBlock, Inner.namesInside, Inner.table]
          rw [hnames, hunique] at hchosen
          obtain rfl := Except.ok.inj hchosen
          refine same_in_statements body hsub fun part hpart => hparts (name :: declared) _ ?_
          simp [Construct.parts, hkind, StatementKind.statements, hpart]

/-- The conversion of what is asked for, which stops at a `With` block that takes the name of a
block in whose scope it stands. -/
def Request.convertScoping (setting : Setting) (error : ConversionError) (scope : VariableScope)
    (request : Request) : Convert request.Answer := do
  (Inner.scoping setting error scope (depthLimit - (← get).depth) []).answer request

theorem Request.convertScoping_eq (setting : Setting) (error : ConversionError)
    (scope : VariableScope) (request : Request) (surroundings : Surroundings) :
    request.convertScoping setting error scope surroundings =
      (Inner.scoping setting error scope (depthLimit - surroundings.depth) []).answer request
        surroundings :=
  rfl

theorem Request.convertScoping_eq_convert {request : Request} (surroundings : Surroundings)
    (hflat : scope = .block → ∀ part ∈ request.parts, part.TargetsAreFlat) :
    request.convertScoping setting error scope surroundings =
      request.convert setting surroundings := by
  have hparts : ∀ levels, ∀ part ∈ request.parts, (sameInside []).OnConstruct
      (Inner.scoping setting error scope levels []) (Inner.at setting levels) part :=
    fun levels part hpart => scoping_levels levels [] fun hscope => hflat hscope part hpart
  have hsame : (sameInside []).Rel
      ((Inner.scoping setting error scope (depthLimit - surroundings.depth) []).answer request)
      ((Inner.at setting (depthLimit - surroundings.depth)).answer request) :=
    Correspondence.answer (by simp) (hparts _)
  rw [Request.convertScoping_eq, Request.convert_eq]
  exact (hsame surroundings (nil_subset _)).1

/-! ## The name of a block -/

/-- The name depends on which of the candidates are reserved. -/
theorem uniqueName_congr {receivers reserved other : List String} {base : String}
    (h : ∀ name ∈ candidateNames base, name ∈ reserved ↔ name ∈ other) :
    uniqueName receivers base reserved = uniqueName receivers base other := by
  have hfind : (candidateNames base).find? (fun name => !(receivers ++ reserved).contains name) =
      (candidateNames base).find? (fun name => !(receivers ++ other).contains name) :=
    List.find?_congr fun name hname => by simp [h name hname]
  unfold uniqueName
  simp only [Std.HashSet.contains_ofList, hfind]

/-- Two `With` blocks that stand between the same names take the same name if the same candidates
are visible in them. -/
theorem Source.Statement.withName?_congr {block other : Statement} {target target' : Expr}
    {statements statements' : List Statement} (hblock : block.kind = .with target statements)
    (hother : other.kind = .with target' statements')
    (hvisible : ∀ name ∈ candidateNames withVariable,
      name ∈ block.nodeIds.flatMap setting.table.namesInScope ↔
      name ∈ other.nodeIds.flatMap setting.table.namesInScope) :
    block.withName? setting receivers = other.withName? setting receivers := by
  unfold withName?
  rw [hblock, hother]
  dsimp only
  rw [uniqueName_congr hvisible]

/-- **A `With` variable is not declared again in the statements of its block**: no conversion stops
because a block takes a name that is declared around its statements. Nor is it declared again in the
value that the variable starts with, as long as no target of a `With` block holds another `With`
block. Such a block stands between the same names as the one around it, and takes the same name if
it sees the same candidates. -/
theorem with_variables_have_their_scope (setting : Setting) (surroundings : Surroundings) :
    (∀ (request : Request) (error : ConversionError),
      request.convertScoping setting error .statements surroundings =
          request.convert setting surroundings ∧
        ((∀ part ∈ request.parts, part.TargetsAreFlat) →
          request.convertScoping setting error .block surroundings =
            request.convert setting surroundings)) ∧
      ∀ (block other : Statement) (target target' : Expr) (statements statements' : List Statement),
        block.kind = .with target statements → other.kind = .with target' statements' →
        (∀ name ∈ candidateNames withVariable,
          name ∈ block.nodeIds.flatMap setting.table.namesInScope ↔
            name ∈ other.nodeIds.flatMap setting.table.namesInScope) →
        block.withName? setting surroundings.receivers =
          other.withName? setting surroundings.receivers := by
  refine ⟨fun request error => ⟨?_, fun hflat => ?_⟩, ?_⟩
  · exact Request.convertScoping_eq_convert surroundings fun hscope => by cases hscope
  · exact Request.convertScoping_eq_convert surroundings fun _ => hflat
  · intro block other target target' statements statements' hblock hother hvisible
    exact Source.Statement.withName?_congr hblock hother hvisible

/-- A `With` block in the statements of another one: none of the two stands in a target. -/
theorem with_in_the_statements_of_a_with :
    let nested : Statement := ⟨3, .with (.me 4) [], {}⟩
    let outer : Statement := ⟨1, .with (.me 2) [nested], {}⟩
    let request := Request.statements .procedure false [outer]
    (∀ part ∈ request.parts, part.TargetsAreFlat) ∧
      (∀ error, request.convertScoping {} error .block {} = request.convert {} {}) ∧
      outer.withName? {} [] = nested.withName? {} [] := by
  intro nested outer request
  have hme : ∀ id deeper, ¬ (Construct.expr (.me id)).HasWith deeper := by
    rintro _ _ (_ | ⟨hpart, -⟩)
    simp [Construct.parts, Source.Expr.parts, Source.Expr.statements] at hpart
  have hnested : (Construct.statement nested).TargetsAreFlat := by
    rintro target (⟨hkind⟩ | ⟨hpart, h⟩)
    · cases hkind
      exact hme 4
    · obtain rfl : _ = Construct.expr (.me 4) := by
        simpa [Construct.parts, nested, StatementKind.exprs, StatementKind.statements] using hpart
      exact absurd h (hme 4 target)
  have hflat : ∀ part ∈ request.parts, part.TargetsAreFlat := by
    simp only [request, Request.parts, map_cons, map_nil, forall_mem_singleton]
    rintro target (⟨hkind⟩ | ⟨hpart, h⟩)
    · cases hkind
      exact hme 2
    · obtain rfl | rfl : _ = Construct.expr (.me 2) ∨ _ = Construct.statement nested := by
        simpa [Construct.parts, outer, StatementKind.exprs, StatementKind.statements] using hpart
      · exact absurd h (hme 2 target)
      · exact hnested target h
  obtain ⟨hscope, hname⟩ := with_variables_have_their_scope {} {}
  exact ⟨hflat, fun error => (hscope request error).2 hflat,
    hname outer nested (.me 2) (.me 4) [nested] [] rfl rfl fun _ _ => Iff.rfl⟩

/-! ## Runs of closed `With` blocks -/

variable {inner : Inner}

/-- A `With` block is converted one level further in, and the comments are put back. -/
theorem Inner.run_with {result : Except ConversionError Target.Statement}
    (surroundings : Surroundings) (hkind : block.kind = .with target statements)
    (hblock : inner.withBlock body block target statements
      { surroundings with depth := surroundings.depth + 1 } =
        (result, { surroundings with depth := surroundings.depth + 1 })) :
    inner.deeper.statement body block surroundings =
      (result.map fun converted => attachStatements block.trivia [converted], surroundings) := by
  obtain ⟨_, kind, trivia⟩ := block
  obtain rfl : kind = _ := hkind
  change ((do
    let converted ← Convert.nested (do return [← inner.withBlock body _ target statements])
    return attachStatements trivia converted : Convert _)) surroundings = _
  unfold Convert.nested Convert.within
  rw [Convert.run_bind]
  dsimp only
  rw [Convert.run_bind, hblock]
  cases result <;> rfl

theorem Inner.run_withBlock {value : Target.Expr} {inside : List Target.Statement}
    (htarget : inner.value target surroundings = (.ok value, surroundings))
    (hname : uniqueName surroundings.receivers withVariable (inner.namesInside block) = .ok name)
    (hinside : inner.statements body statements
      { surroundings with receivers := name :: surroundings.receivers } =
        (.ok inside, { surroundings with receivers := name :: surroundings.receivers })) :
    inner.withBlock body block target statements surroundings =
      (.ok (.block (.localVariable .var name (some value) :: inside)), surroundings) := by
  rw [Inner.withBlock_eq, Convert.run_bind, htarget]
  dsimp only
  rw [Convert.run_bind, Convert.run_inWithBlock, hname]
  dsimp only
  rw [Convert.run_bind]
  unfold Convert.withReceiver Convert.within
  dsimp only
  rw [hinside]
  rfl

theorem uniqueName_nil : uniqueName [] withVariable [] = .ok "withBlock" := by
  unfold uniqueName candidateNames
  simp [withVariable]

variable {result : Except ConversionError (List Target.Statement)}

theorem Inner.run_statements_singleton {surroundings after : Surroundings}
    (h : inner.statement body statement surroundings = (result, after)) :
    inner.statements body [statement] surroundings = (result, after) := by
  unfold Inner.statements
  rw [mapM_cons, mapM_nil, Convert.run_bind, Convert.run_bind, h]
  cases result with
  | error error => rfl
  | ok converted =>
    change (Except.ok [converted].flatten, after) = _
    rw [flatten_singleton]

/-- A call with a lambda gives what the statement in the lambda gives, three levels further in. -/
theorem Inner.run_call_with_lambda {whole call inner : Inner} {nested : Statement}
    (hsetting : call.setting = {}) (hwhole : whole.expr = call.deeper.expr)
    (hcall : call.expr = inner.deeper.expr)
    (hnested : ∀ body depth, inner.statement body nested { depth } = (result, { depth }))
    (depth : Nat) :
    whole.value (.invocation 2 (.name ⟨3, "Make", []⟩)
        [.simple 4 none (.lambda 5 .sub [] [] none (.block [nested]))]) { depth } =
      (result.map fun list => .invocation (.identifier "Make")
        [⟨none, none, .lambda false (.list []) (.block list)⟩], { depth }) := by
  have hlambda : call.value (.lambda 5 .sub [] [] none (.block [nested])) { depth := depth + 1 } =
      (result.map fun list => Target.Expr.lambda false (.list []) (.block list),
        { depth := depth + 1 }) := by
    rw [Inner.value, hcall]
    change Convert.nested (inner.lambda 5 .sub [] [] none (.block [nested]))
      { depth := depth + 1 } = _
    unfold Convert.nested Convert.within Inner.lambda Inner.lambdaBody
    simp only [Convert.run_bind, Inner.run_statements_singleton (hnested _ _)]
    cases result <;> rfl
  have hname : call.expr false (.name ⟨3, "Make", []⟩) { depth := depth + 1 } =
      (.ok (.identifier "Make"), { depth := depth + 1 }) := by
    have hplain : inner.autoInvoke 3 false (.identifier "Make") = .identifier "Make" := by
      unfold Inner.autoInvoke
      split <;> rfl
    rw [hcall]
    change (Except.ok (inner.autoInvoke 3 false (.identifier "Make")), _) = _
    rw [hplain]
    rfl
  have htable : call.table = {} := congrArg Setting.table hsetting
  rw [Inner.value, hwhole]
  change Convert.nested (call.invocation 2 (.name ⟨3, "Make", []⟩) _) { depth } = _
  unfold Convert.nested Convert.within Inner.invocation Inner.arguments Inner.argument
  simp only [zipIdx_cons, zipIdx_nil, mapM_cons, mapM_nil, Convert.run_bind, htable]
  rw [hname]
  dsimp only
  rw [hlambda]
  cases result <;> rfl

/-- A `With` block in a lambda in the target of another one declares the name of the block around it
a second time, in the value that the outer variable starts with. -/
theorem with_variable_declared_twice :
    let nested : Statement := ⟨6, .with (.me 7) [], {}⟩
    let target : Expr := .invocation 2 (.name ⟨3, "Make", []⟩)
      [.simple 4 none (.lambda 5 .sub [] [] none (.block [nested]))]
    let outer : Statement := ⟨1, .with target [], {}⟩
    let request := Request.statements .procedure false [outer]
    let block (value : Target.Expr) : Target.Statement :=
      .block [.localVariable .var "withBlock" (some value)]
    let lambda : Target.Expr := .lambda false (.list []) (.block [block .this])
    (request.convert {} {}).1 =
      .ok [block (.invocation (.identifier "Make") [⟨none, none, lambda⟩])] ∧
      ∀ error, (request.convertScoping {} error .block {}).1 = .error error := by
  intro nested target outer request block lambda
  refine ⟨?_, fun error => ?_⟩
  · have hnested : ∀ (body : Body) (depth : Nat),
      (Inner.at {} 497).statement body nested { depth } =
        (.ok [block .this], { depth }) := by
      intro body depth
      have hblock : (Inner.at {} 496).withBlock body nested (.me 7) [] { depth := depth + 1 } =
          (.ok (block .this), { depth := depth + 1 }) :=
        Inner.run_withBlock rfl uniqueName_nil rfl
      rw [show Inner.at {} 497 = (Inner.at {} 496).deeper from Inner.at_succ {} 496]
      exact Inner.run_with { depth } rfl hblock
    have htarget : (Inner.at {} 499).value target { depth := 1 } =
        (.ok (.invocation (.identifier "Make") [⟨none, none, lambda⟩]), { depth := 1 }) :=
      Inner.run_call_with_lambda rfl (congrArg Inner.expr (Inner.at_succ {} 498))
        (congrArg Inner.expr (Inner.at_succ {} 497)) hnested 1
    have hblock : (Inner.at {} 499).withBlock Inner.procedureBody outer target [] { depth := 1 } =
        (.ok (block (.invocation (.identifier "Make") [⟨none, none, lambda⟩])), { depth := 1 }) :=
      Inner.run_withBlock htarget uniqueName_nil rfl
    have hstatement := Inner.run_with {} rfl hblock
    rw [← Inner.at_succ] at hstatement
    rw [Request.convert_eq]
    exact congrArg Prod.fst (Inner.run_statements_singleton hstatement)
  · have hname : ∀ statement ∈ [outer, nested], statement.withName? {} [] = some "withBlock" := by
      have hunique : (uniqueName [] withVariable []).toOption = some "withBlock" := by
        rw [uniqueName_nil]
        rfl
      exact forall_mem_cons.mpr ⟨hunique, forall_mem_singleton.mpr hunique⟩
    have hnested : ∀ (body : Body) (depth : Nat),
        (Inner.scoping {} error .block 497 ["withBlock"]).statement body nested { depth } =
          (.error error, { depth }) := by
      intro body depth
      rw [Inner.scoping]
      dsimp only
      rw [hname nested (by simp)]
      rfl
    have htarget : (Inner.scoping {} error .block 499 ["withBlock"]).value target { depth := 1 } =
        (.error error, { depth := 1 }) :=
      Inner.run_call_with_lambda Inner.scoping_setting (Inner.scoping_expr 498)
        (Inner.scoping_expr 497) hnested 1
    have hblock : (Inner.scoping {} error .block 500 []).statement Inner.procedureBody outer {} =
        (.error error, {}) := by
      rw [Inner.scoping_statement_some (hname outer (by simp)) (by simp), Inner.insideBlock_block]
      have hwith : (Inner.scoping {} error .block 499 ["withBlock"]).withBlock
          Inner.procedureBody outer target [] { depth := 1 } = (.error error, { depth := 1 }) := by
        rw [Inner.withBlock_eq, Convert.run_bind, htarget]
      exact Inner.run_with {} rfl hwith
    rw [Request.convertScoping_eq]
    exact congrArg Prod.fst (Inner.run_statements_singleton hblock)

end Sharpen
