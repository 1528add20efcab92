import Sharpen.Proofs.Correspondence.Same
import Sharpen.Proofs.Depth.Nesting
import Sharpen.Proofs.StatementImage

/-!
# The limit on nesting only declines

A conversion may go as many levels deep as `depthLimit` leaves it. Converters without such a limit
are made from themselves: `Inner.unguarded`, which is the only solution of `inner.deeper = inner`.
The main result, `limit_only_declines`, compares the two.

* A tree for which there is room is converted as if there were no limit.
* Whatever is converted within the limit is converted in the same way without it.
* Parentheses or loops that are nested deeper than there is room are declined.
* The counter of levels never goes above the limit. To say so of the whole of a conversion, it is
  run once more with converters that look at the counter each time they have raised it, and stop
  with an error of our choice where it is above the limit (`Inner.watching`).

All four are inductions on the number of levels that are left.
-/

namespace Sharpen

open List

open Source (Expr Statement Declaration Construct)

/-! ## Converters without a limit -/

theorem Inner.eq_of_onConstruct {inner other : Inner} (hsetting : inner.setting = other.setting)
    (h : ∀ construct, equality.OnConstruct inner other construct) : inner = other := by
  obtain ⟨setting, expr, statement, declaration⟩ := inner
  obtain ⟨setting', expr', statement', declaration'⟩ := other
  obtain rfl : setting = setting' := hsetting
  obtain rfl : expr = expr' := funext fun allowed => funext fun node => h (.expr node) allowed
  obtain rfl : statement = statement' := funext fun body => funext fun node =>
    h (.statement node) body
  obtain rfl : declaration = declaration' := funext fun node => h (.declaration node)
  rfl

/-- The converters that may go as deep as there is something to convert. -/
def Inner.unguarded (setting : Setting) : Inner where
  setting
  expr allowed node := (Inner.at setting (Construct.expr node).nesting).expr allowed node
  statement body node := (Inner.at setting (Construct.statement node).nesting).statement body node
  declaration node := (Inner.at setting (Construct.declaration node).nesting).declaration node

/-- All numbers of levels that are enough for a construct give the same. -/
theorem at_eq_at {setting : Setting} {levels more : Nat} {construct : Construct}
    (hlevels : construct.nesting ≤ levels) (hmore : construct.nesting ≤ more) :
    equality.OnConstruct (Inner.at setting levels) (Inner.at setting more) construct := by
  induction levels generalizing more construct with
  | zero =>
    rw [Construct.nesting_eq] at hlevels
    cases hlevels
  | succ levels ih =>
    cases more with
    | zero =>
      rw [Construct.nesting_eq] at hmore
      cases hmore
    | succ more =>
      rw [Inner.at_succ, Inner.at_succ]
      refine LevelCorrespondence.deeper (by simp) fun part hpart => ?_
      have hless := Construct.nesting_lt hpart
      exact ih (by omega) (by omega)

theorem at_eq_unguarded {setting : Setting} {levels : Nat} {construct : Construct}
    (hlevels : construct.nesting ≤ levels) :
    equality.OnConstruct (Inner.at setting levels) (Inner.unguarded setting) construct := by
  cases construct with
  | expr => exact fun allowed => at_eq_at hlevels (Nat.le_refl _) allowed
  | statement => exact fun body => at_eq_at hlevels (Nat.le_refl _) body
  | declaration => exact at_eq_at hlevels (Nat.le_refl _)

/-- Converters without a limit lose nothing by going a level deeper. -/
theorem Inner.unguarded_deeper (setting : Setting) :
    (Inner.unguarded setting).deeper = Inner.unguarded setting := by
  refine Inner.eq_of_onConstruct rfl fun construct => ?_
  -- one level more than the parts need is enough for the whole
  let levels := Construct.deepest construct.parts
  have hparts : equality.OnConstruct (Inner.at setting levels).deeper
    (Inner.unguarded setting).deeper
      construct :=
    LevelCorrespondence.deeper (by rw [Inner.at_setting]; rfl) fun part hpart =>
      at_eq_unguarded (Construct.nesting_le_deepest hpart)
  have hwhole : equality.OnConstruct (Inner.at setting (levels + 1)) (Inner.unguarded setting)
      construct :=
    at_eq_unguarded (Nat.le_of_eq (Construct.nesting_eq construct))
  rw [Inner.at_succ] at hwhole
  cases construct with
  | expr => exact fun allowed => (hparts allowed).symm.trans (hwhole allowed)
  | statement => exact fun body => (hparts body).symm.trans (hwhole body)
  | declaration => exact Eq.trans hparts.symm hwhole

/-- There are no other converters that lose nothing by going a level deeper. -/
theorem Inner.eq_unguarded {inner : Inner} (hdeeper : inner.deeper = inner) :
    inner = Inner.unguarded inner.setting := by
  refine Inner.eq_of_onConstruct rfl fun construct => ?_
  induction hsize : construct.nesting using Nat.strongRecOn generalizing construct with
  | _ _ ih =>
    rw [← hdeeper, ← Inner.unguarded_deeper]
    refine LevelCorrespondence.deeper (by rw [hdeeper]; rfl) fun part hpart => ?_
    have := ih part.nesting (hsize ▸ Construct.nesting_lt hpart) part rfl
    rwa [hdeeper]

/-! ## Within the limit nothing else is converted -/

/-- Where the first conversion succeeds, the second does the same. -/
def Convert.Refines {α : Type} (c d : Convert α) : Prop :=
  ∀ (surroundings : Surroundings) (a : α), (c surroundings).1 = .ok a → d surroundings =
    c surroundings

namespace Convert.Refines

variable {α β : Type} {c d : Convert α}

theorem bind {f g : α → Convert β} (hc : Refines c d) (hf : ∀ a, Refines (f a) (g a)) :
    Refines (c >>= f) (d >>= g) := by
  intro surroundings b hb
  obtain ⟨a, after, hfirst, hrest⟩ := Convert.ok_of_bind hb
  have hsame : d surroundings = (.ok a, after) := by
    rw [hc surroundings a (congrArg Prod.fst hfirst), hfirst]
  rw [Convert.run_bind, Convert.run_bind, hfirst, hsame]
  exact hf a after b hrest

theorem within {change restore : Surroundings → Surroundings} (hc : Refines c d) :
    Refines (Convert.within change restore c) (Convert.within change restore d) := by
  intro surroundings a ha
  unfold Convert.within
  rw [hc (change surroundings) a ha]

theorem bindingHead (hc : Refines c d) :
    Refines (Convert.bindingHead c) (Convert.bindingHead d) := by
  intro surroundings a ha
  unfold Convert.bindingHead
  rw [hc _ a ha]

theorem inWithBlock (hc : Refines c d) (reserved : List String) :
    Refines (Convert.inWithBlock reserved c) (Convert.inWithBlock reserved d) := by
  intro surroundings a ha
  rw [Convert.run_inWithBlock] at ha ⊢
  rw [Convert.run_inWithBlock]
  cases hname : uniqueName surroundings.receivers withVariable reserved with
  | error error => rfl
  | ok name =>
    rw [hname] at ha
    exact bind hc.within (fun _ _ _ _ => rfl) surroundings a ha

end Convert.Refines

/-- Conversions that are made of such conversions are such conversions. -/
def refining : LevelCorrespondence where
  Rel c d := Convert.Refines c d
  ofExcept _ _ _ _ := rfl
  bind hc hf := hc.bind hf
  get _ _ _ := rfl
  takeBindingHead _ _ _ := rfl
  nested hc := hc.within
  inContainer _ hc := hc.within
  inWithBlock reserved hc := hc.inWithBlock reserved
  bindingHead hc := hc.bindingHead

/-- What is converted within some levels is converted in the same way without a limit. -/
theorem at_refines_unguarded (setting : Setting) (levels : Nat) (construct : Construct) :
    refining.OnConstruct (Inner.at setting levels) (Inner.unguarded setting) construct := by
  induction levels generalizing construct with
  | zero =>
    cases construct with
    | expr | statement => exact fun _ _ _ hok => nomatch hok
    | declaration => exact fun _ _ hok => nomatch hok
  | succ levels ih =>
    rw [Inner.at_succ, ← Inner.unguarded_deeper]
    exact LevelCorrespondence.deeper (by rw [Inner.at_setting]; rfl) fun part _ => ih part

/-! ## The counter stays within the limit -/

/-- Where there is room for some levels, both conversions do the same and keep the counter. -/
abbrev Convert.SameWithin (room : Nat) {α : Type} (c d : Convert α) : Prop :=
  SameWhere (·.depth) (· + room ≤ depthLimit) c d

theorem Convert.SameWithin.inWithBlock {α : Type} {room : Nat} {c d : Convert α}
    (hc : SameWithin room c d) (reserved : List String) :
    SameWithin room (Convert.inWithBlock reserved c) (Convert.inWithBlock reserved d) := by
  intro surroundings hroom
  rw [Convert.run_inWithBlock, Convert.run_inWithBlock]
  cases uniqueName surroundings.receivers withVariable reserved with
  | error error => exact ⟨rfl, rfl⟩
  | ok name =>
    have hinside : SameWithin room (Convert.withReceiver name c) (Convert.withReceiver name d) :=
      hc.within (fun _ => rfl) fun _ => rfl
    exact hinside.bind (fun _ _ _ => ⟨rfl, rfl⟩) surroundings hroom

/-- Conversions that are made of such conversions are such conversions. -/
def sameWithin (room : Nat) : Correspondence where
  Rel c d := Convert.SameWithin room c d
  ofExcept _ _ _ := ⟨rfl, rfl⟩
  bind hc hf := hc.bind hf
  get _ _ := ⟨rfl, rfl⟩
  takeBindingHead _ _ := ⟨rfl, rfl⟩
  inContainer _ hc := hc.within (fun _ => rfl) fun _ => rfl
  inWithBlock reserved hc := Convert.SameWithin.inWithBlock hc reserved
  bindingHead hc := hc.bindingHead fun _ _ => rfl

/-- A conversion one level deeper, which is not started where the counter is above the limit. -/
def Convert.watched {α : Type} (error : ConversionError) (c : Convert α) : Convert α :=
  Convert.nested fun surroundings =>
    if surroundings.depth ≤ depthLimit then c surroundings else (.error error, surroundings)

namespace Inner

/-- The converters that may go a number of levels deep, and look at the counter on every level. -/
def watching (setting : Setting) (error : ConversionError) : (levels : Nat) → Inner
  | 0 => Inner.at setting 0
  | levels + 1 =>
    let inner := watching setting error levels
    { setting
      expr := fun allowed expr => Convert.watched error (expr.convertWith inner allowed)
      statement := fun body statement => do
        let converted ← Convert.watched error (statement.convertKind inner body)
        return attachStatements statement.trivia converted
      declaration := fun declaration => Convert.watched error (declaration.convertKind inner) }

@[simp] theorem watching_setting (setting : Setting) (error : ConversionError) (levels : Nat) :
    (watching setting error levels).setting = setting := by
  cases levels <;> rfl

end Inner

/-- One level deeper there is room for one level less, and the counter is not above the limit. -/
theorem Convert.SameWithin.watched {α : Type} {room : Nat} {c d : Convert α}
    (hc : SameWithin room c d) (error : ConversionError) :
    SameWithin (room + 1) (Convert.watched error c) (Convert.nested d) := by
  intro surroundings (hroom : surroundings.depth + (room + 1) ≤ depthLimit)
  have hdeeper : surroundings.depth + 1 + room ≤ depthLimit := by omega
  obtain ⟨heq, hkept⟩ := hc { surroundings with depth := surroundings.depth + 1 } hdeeper
  have hlimit : surroundings.depth + 1 ≤ depthLimit := by omega
  unfold Convert.watched Convert.nested Convert.within
  dsimp only
  rw [if_pos hlimit, ← heq]
  generalize c _ = run at hkept
  cases run
  exact ⟨rfl, congrArg (· - 1) hkept⟩

/-- Where there is room for the levels, looking at the counter changes nothing. -/
theorem watching_levels (setting : Setting) (error : ConversionError) (levels : Nat)
    (construct : Construct) :
    (sameWithin levels).OnConstruct (Inner.watching setting error levels) (Inner.at setting levels)
      construct := by
  induction levels generalizing construct with
  | zero =>
    cases construct with
    | expr | statement => exact fun _ _ _ => ⟨rfl, rfl⟩
    | declaration => exact fun _ _ => ⟨rfl, rfl⟩
  | succ levels ih =>
    have hrule : (sameWithin levels).OnRule (Inner.watching setting error levels)
        (Inner.at setting levels) construct :=
      Correspondence.rule (by simp) fun part _ => ih part
    cases construct with
    | expr => exact fun allowed => (hrule allowed).watched error
    | statement => exact fun body => ((hrule body).watched error).bind fun _ _ _ => ⟨rfl, rfl⟩
    | declaration => exact Convert.SameWithin.watched hrule error

/-! ## Chains that are too long -/

/-- So many `While` blocks, one inside the other. -/
inductive Source.Statement.WhileChain : (count : Nat) → Statement → Prop where
  | last {statement : Statement} {condition : Expr} {statements : List Statement}
      (hkind : statement.kind = .while condition statements) : WhileChain 1 statement
  | around {count : Nat} {statement part : Statement} {condition : Expr}
      {statements : List Statement}
      (hkind : statement.kind = .while condition statements) (hpart : part ∈ statements)
      (h : WhileChain count part) : WhileChain (count + 1) statement

/-- Parentheses that are nested deeper than there are levels are declined. -/
theorem parentheses_too_deep (setting : Setting) {levels : Nat} {ids : List Source.NodeId}
    (hlevels : levels < ids.length) (operand : Expr) (allowed : Bool)
    (surroundings : Surroundings) :
    ((Inner.at setting levels).expr allowed (ids.foldr Expr.parenthesized operand) surroundings).1 =
      .error (.unsupported "ParenthesizedExpression" "nesting deeper than 500 levels") := by
  induction levels generalizing ids allowed surroundings with
  | zero =>
    cases ids with
    | nil => cases hlevels
    | cons id rest => rfl
  | succ levels ih =>
    cases ids with
    | nil => cases hlevels
    | cons id rest =>
      have hinside := ih (Nat.lt_of_succ_lt_succ hlevels) true
        { surroundings with depth := surroundings.depth + 1 }
      rw [Inner.at_succ, foldr_cons]
      change ((do return Target.Expr.parenthesized (← (Inner.at setting levels).value _) :
        Convert Target.Expr) { surroundings with depth := surroundings.depth + 1 }).1 = _
      rw [Convert.run_bind]
      unfold Inner.value
      generalize (Inner.at setting levels).expr true _ _ = run at hinside ⊢
      obtain ⟨result⟩ := run
      obtain rfl : result = _ := hinside
      rfl

/-- Where statements are converted, so is each of them. -/
theorem Inner.Converts.exists_of_mem {inner : Inner} {body : Body} {statements : List Statement}
    {converted : List Target.Statement} (h : inner.Converts body statements converted)
    {statement : Statement} (hmem : statement ∈ statements) :
    ∃ list, (inner.statement body statement).Gives list := by
  obtain ⟨lists, hlists, -⟩ := h
  have hflipped : Forall₂ (fun list statement => (inner.statement body statement).Gives list)
      lists statements := hlists.flip
  obtain ⟨list, -, hlist⟩ := hflipped.exists_left hmem
  exact ⟨list, hlist⟩

/-- `While` blocks that are nested deeper than there are levels are never converted. -/
theorem while_too_deep (setting : Setting) {levels count : Nat} {statement : Statement}
    (hchain : statement.WhileChain count) (hlevels : levels < count) (body : Body)
    (converted : List Target.Statement) :
    ¬ ((Inner.at setting levels).statement body statement).Gives converted := by
  induction levels generalizing count statement body converted with
  | zero => exact Convert.not_gives_unsupported
  | succ levels ih =>
    intro hgives
    obtain ⟨_, hplain, -⟩ := hgives.map
    have himage := Source.Statement.image_of_gives hplain.of_nested
    cases hchain with
    | last => omega
    | around hkind hpart hinner =>
      rw [hkind] at himage
      cases himage with
      | «while» _ hbody =>
        obtain ⟨_, hlist⟩ := hbody.exists_of_mem hpart
        exact ih hinner (by omega) _ _ hlist

/-! ## The limit -/

namespace Request

/-- The largest number of constructs on a way down in what a request is about. -/
def nesting (request : Request) : Nat :=
  Construct.deepest request.parts

/-- The conversion asked for, with a look at the counter on every level. -/
def convertWatched (setting : Setting) (error : ConversionError) (request : Request) :
    Convert request.Answer := do
  (Inner.watching setting error (depthLimit - (← get).depth)).answer request

/-- The conversion asked for, without a limit. -/
def convertUnguarded (setting : Setting) (request : Request) : Convert request.Answer :=
  (Inner.unguarded setting).answer request

variable (setting : Setting) (request : Request) (surroundings : Surroundings)

theorem convertWatched_eq (error : ConversionError) :
    request.convertWatched setting error surroundings = request.convert setting surroundings := by
  rw [convert_eq]
  change (Inner.watching setting error (depthLimit - surroundings.depth)).answer request
    surroundings = _
  by_cases hdepth : surroundings.depth ≤ depthLimit
  · have hsame : (sameWithin (depthLimit - surroundings.depth)).Rel
        ((Inner.watching setting error (depthLimit - surroundings.depth)).answer request)
        ((Inner.at setting (depthLimit - surroundings.depth)).answer request) :=
      Correspondence.answer (by simp) fun part _ => watching_levels setting error _ part
    have hroom : surroundings.depth + (depthLimit - surroundings.depth) ≤ depthLimit := by omega
    exact (hsame surroundings hroom).1
  · -- above the limit there are no levels left, and the counter is never raised
    rw [Nat.sub_eq_zero_of_le (by omega)]
    rfl

theorem convert_eq_unguarded (hroom : surroundings.depth + request.nesting ≤ depthLimit) :
    request.convert setting surroundings = request.convertUnguarded setting surroundings := by
  have hsame : equality.Rel ((Inner.at setting (depthLimit - surroundings.depth)).answer request)
      (request.convertUnguarded setting) :=
    Correspondence.answer (by rw [Inner.at_setting]; rfl) fun part hpart => at_eq_unguarded (by
      have hless : part.nesting ≤ request.nesting := Construct.nesting_le_deepest hpart
      omega)
  rw [convert_eq]
  exact congrFun hsame surroundings

theorem convertUnguarded_of_ok {answer : request.Answer}
    (h : (request.convert setting surroundings).1 = .ok answer) :
    request.convertUnguarded setting surroundings = request.convert setting surroundings := by
  have hrefines : refining.Rel ((Inner.at setting (depthLimit - surroundings.depth)).answer request)
      (request.convertUnguarded setting) :=
    Correspondence.answer (by rw [Inner.at_setting]; rfl) fun part _ =>
      at_refines_unguarded setting _ part
  rw [convert_eq] at h ⊢
  exact hrefines surroundings answer h

end Request

/-- The limit on nesting only declines. There is exactly one way to convert without it. With it, the
counter of levels never goes above the limit; what there is room for is converted as without it, and
so is whatever is converted at all. Parentheses and `While` blocks that are nested deeper than there
is room are never converted. -/
theorem limit_only_declines (setting : Setting) (surroundings : Surroundings) :
    (∀ inner : Inner, inner.setting = setting →
      (inner.deeper = inner ↔ inner = Inner.unguarded setting)) ∧
    (∀ request : Request,
      (∀ error,
        request.convertWatched setting error surroundings = request.convert setting surroundings) ∧
      (surroundings.depth + request.nesting ≤ depthLimit →
        request.convert setting surroundings = request.convertUnguarded setting surroundings) ∧
      ∀ answer, (request.convert setting surroundings).1 = .ok answer →
        (request.convertUnguarded setting surroundings).1 = .ok answer) ∧
    (∀ (ids : List Source.NodeId) (operand : Expr), depthLimit - surroundings.depth < ids.length →
      (convertExpr setting (ids.foldr Expr.parenthesized operand) surroundings).1 =
        .error (.unsupported "ParenthesizedExpression" "nesting deeper than 500 levels")) ∧
    ∀ (body : Body) (statements : List Statement) (statement : Statement) (count : Nat),
      statement ∈ statements → statement.WhileChain count →
        depthLimit - surroundings.depth < count →
      ∃ error, (convertStatements setting body statements surroundings).1 = .error error := by
  refine ⟨?_, fun request => ⟨request.convertWatched_eq setting surroundings,
    request.convert_eq_unguarded setting surroundings, ?_⟩, ?_, ?_⟩
  · rintro _ rfl
    refine ⟨Inner.eq_unguarded, fun heq => ?_⟩
    rw [heq, Inner.unguarded_deeper]
  · intro answer hok
    rw [request.convertUnguarded_of_ok setting surroundings hok]
    exact hok
  · intro ids operand hlong
    exact parentheses_too_deep setting hlong operand true surroundings
  · intro body statements statement count hmem hchain hlong
    cases hrun : (convertStatements setting body statements surroundings).1 with
    | error error => exact ⟨error, rfl⟩
    | ok converted =>
      obtain ⟨list, hlist⟩ := (Convert.Gives.converts ⟨surroundings, hrun⟩).exists_of_mem hmem
      exact absurd hlist (while_too_deep setting hchain hlong body list)

/-- With room for two levels: one pair of parentheses around `Me` just fits, and three pairs or
three loops inside each other do not. -/
theorem two_levels_left :
    let surroundings : Surroundings := { depth := 498 }
    let request := Request.expr (.parenthesized 1 (.me 2))
    let inmost : Statement := ⟨3, .while (.me 4) [], {}⟩
    let loop : Statement := ⟨5, .while (.me 6) [⟨7, .while (.me 8) [inmost], {}⟩], {}⟩
    surroundings.depth + request.nesting = depthLimit ∧
      (request.convert {} surroundings).1 = .ok (.parenthesized .this) ∧
      request.convert {} surroundings = request.convertUnguarded {} surroundings ∧
      (request.convertUnguarded {} surroundings).1 = .ok (.parenthesized .this) ∧
      (convertExpr {} ([1, 2, 3].foldr Expr.parenthesized (.me 4)) surroundings).1 =
        .error (.unsupported "ParenthesizedExpression" "nesting deeper than 500 levels") ∧
      loop.WhileChain 3 ∧
      ∃ error, (convertStatements {} ⟨.procedure, false, []⟩ [loop] surroundings).1 =
        .error error := by
  intro surroundings request inmost loop
  obtain ⟨-, hrequest, hparentheses, hwhile⟩ := limit_only_declines {} surroundings
  obtain ⟨-, hroom, hok⟩ := hrequest request
  have hfits : surroundings.depth + request.nesting = depthLimit := by
    simp [surroundings, request, Request.nesting, Request.parts, Construct.deepest,
      Construct.nesting_eq, Construct.parts, Expr.parts, Expr.statements, depthLimit]
  have hrun : (request.convert {} surroundings).1 = .ok (.parenthesized .this) := rfl
  have hchain : loop.WhileChain 3 :=
    .around rfl (mem_cons_self ..) (.around rfl (mem_cons_self ..) (.last rfl))
  exact ⟨hfits, hrun, hroom (Nat.le_of_eq hfits), hok _ hrun, hparentheses _ _ (by decide), hchain,
    hwhile _ _ loop 3 (mem_cons_self ..) hchain (by decide)⟩

end Sharpen
