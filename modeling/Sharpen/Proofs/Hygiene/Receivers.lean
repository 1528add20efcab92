import Sharpen.Proofs.Correspondence.Same
import Sharpen.Proofs.FreeNames
import Sharpen.Proofs.Hygiene.Nodes
import Sharpen.Proofs.Surroundings

/-!
# Names for `With` targets capture nothing

The variable for the target of a `With` block is new: it differs from the variables of the blocks
around it, and from every name that is visible anywhere in the block. So the variables of the blocks
that are open at one time have different names, in every conversion that starts that way.

To say so of the whole of a conversion, it is run once more with converters that look at the names
before they start with a node and stop with an error of our choice unless they are different
(`Inner.guarding`). If the run is the same, whatever the error, then no node is ever reached with
two names that are the same. The main result is `with_variables_are_fresh`.
-/

namespace Sharpen

open Source (Expr Statement Construct NodeId)

/-! ## New names -/

/-- What a `With` block becomes when it is converted where the names of the blocks around it are
`receivers`. -/
structure WithVariable (setting : Setting) (receivers : List String) (block : Statement)
    (converted : Target.Statement) (name : String) : Prop where
  /-- the variable is declared first, and the converted statements follow -/
  declared : ∃ target inside, converted = .block (.localVariable .var name (some target) :: inside)
  notReceiver : name ∉ receivers
  notVisible : ∀ part, (Source.Node.statement block).Surrounds part →
    ∀ number ∈ part.numbers, name ∉ setting.table.namesInScope number

theorem Convert.Settles.receivers_eq {α : Type} {c : Convert α} (h : c.Settles)
    (surroundings : Surroundings) : (c surroundings).2.receivers = surroundings.receivers := by
  obtain heq | heq := h surroundings
  · rw [heq]
  · rw [heq]

theorem Convert.uniqueName_of_inWithBlock {α : Type} {c : Convert α} {reserved : List String}
    {surroundings after : Surroundings} {name : String} {result : α}
    (h : Convert.inWithBlock reserved c surroundings = (.ok (name, result), after)) :
    uniqueName surroundings.receivers withVariable reserved = .ok name := by
  rw [Convert.run_inWithBlock] at h
  cases hname : uniqueName surroundings.receivers withVariable reserved with
  | error error =>
    rw [hname] at h
    cases h
  | ok chosen =>
    rw [hname] at h
    obtain ⟨_, _, -, hpair⟩ := Convert.ok_of_bind (congrArg Prod.fst h)
    cases hpair
    rfl

/-- A `With` block that is converted has a variable of its own. -/
theorem Inner.exists_withVariable {setting : Setting} {levels : Nat} {body : Body}
    {block : Statement} {target : Expr} {statements : List Statement} {surroundings : Surroundings}
    {converted : Target.Statement}
    (h : ((Inner.at setting levels).withBlock body block target statements surroundings).1 =
      .ok converted) :
    ∃ name, WithVariable setting surroundings.receivers block converted name := by
  rw [Inner.withBlock_eq] at h
  obtain ⟨value, middle, htarget, h⟩ := Convert.ok_of_bind h
  obtain ⟨⟨name, inside⟩, after, hblock, h⟩ := Convert.ok_of_bind h
  -- the names are read after the conversion of the target, which leaves them as they are
  have hreceivers : middle.receivers = surroundings.receivers := by
    rw [← (settling.levels setting levels (.expr target) true).receivers_eq surroundings]
    exact congrArg (·.2.receivers) htarget.symm
  have hunique : uniqueName surroundings.receivers withVariable
      ((Inner.at setting levels).namesInside block) = .ok name := by
    rw [← hreceivers]
    exact Convert.uniqueName_of_inWithBlock hblock
  obtain ⟨hfree, hunseen⟩ := not_mem_of_uniqueName hunique
  refine ⟨name, ⟨value, inside, (Except.ok.inj h).symm⟩, hfree, ?_⟩
  intro part hpart number hnumber hvisible
  refine hunseen (List.mem_flatMap.mpr ⟨number, ?_, ?_⟩)
  · exact Source.Node.numbers_subset_of_surrounds hpart hnumber
  · rw [Inner.table, Inner.at_setting]
    exact hvisible

/-! ## Different names -/

/-- Where the names are different, both conversions do the same and keep the names. -/
def Convert.SameIfDistinct {α : Type} (c d : Convert α) : Prop :=
  ∀ surroundings : Surroundings, surroundings.receivers.Nodup →
    c surroundings = d surroundings ∧ (c surroundings).2.receivers = surroundings.receivers

namespace Convert.SameWhere

variable {α : Type} {P : List String → Prop} {c d : Convert α}

/-- Inside a `With` block there is one name more. -/
theorem withReceiver {receivers : List String} {name : String}
    (hc : SameWhere (·.receivers) (· = name :: receivers) c d) :
    SameWhere (·.receivers) (· = receivers) (Convert.withReceiver name c)
      (Convert.withReceiver name d) := by
  rintro surroundings rfl
  obtain ⟨heq, hkept⟩ := hc { surroundings with receivers := name :: surroundings.receivers } rfl
  unfold Convert.withReceiver Convert.within
  dsimp only
  rw [← heq]
  generalize c _ = run at hkept
  cases run
  exact ⟨rfl, congrArg List.tail hkept⟩

/-- It is enough to look at a `With` block with the name that it takes. -/
theorem inWithBlock {reserved : List String}
    (hc : ∀ receivers name, P receivers → uniqueName receivers withVariable reserved = .ok name →
      SameWhere (·.receivers) (· = name :: receivers) c d) :
    SameWhere (·.receivers) P (Convert.inWithBlock reserved c)
      (Convert.inWithBlock reserved d) := by
  intro surroundings hP
  rw [Convert.run_inWithBlock, Convert.run_inWithBlock]
  cases hname : uniqueName surroundings.receivers withVariable reserved with
  | error error => exact ⟨rfl, rfl⟩
  | ok name =>
    have hinside := (hc _ _ hP hname).withReceiver
    exact hinside.bind (fun _ _ _ => ⟨rfl, rfl⟩) surroundings rfl

end Convert.SameWhere

/-- Conversions that are made of such conversions are such conversions. -/
def sameIfDistinct : LevelCorrespondence where
  Rel c d := Convert.SameIfDistinct c d
  ofExcept _ _ _ := ⟨rfl, rfl⟩
  bind hc hf := Convert.SameWhere.bind hc hf
  get _ _ := ⟨rfl, rfl⟩
  takeBindingHead _ _ := ⟨rfl, rfl⟩
  nested hc := Convert.SameWhere.within hc (fun _ => rfl) fun _ => rfl
  inContainer _ hc := Convert.SameWhere.within hc (fun _ => rfl) fun _ => rfl
  inWithBlock _ hc := Convert.SameWhere.inWithBlock fun _ _ hdistinct hname =>
    Convert.SameWhere.mono hc fun _ heq =>
      heq ▸ List.nodup_cons.mpr ⟨(not_mem_of_uniqueName hname).1, hdistinct⟩
  bindingHead hc := Convert.SameWhere.bindingHead hc fun _ _ => rfl

/-! ## Looking at the names before each node -/

/-- A conversion that is not started unless the names are different. -/
def Convert.guarded {α : Type} (error : ConversionError) (c : Convert α) : Convert α :=
  fun surroundings =>
    if surroundings.receivers.Nodup then c surroundings else (.error error, surroundings)

namespace Inner

/-- The same converters, but they look at the names before they start with a node. -/
def guarded (error : ConversionError) (inner : Inner) : Inner where
  setting := inner.setting
  expr allowed expr := Convert.guarded error (inner.expr allowed expr)
  statement body statement := Convert.guarded error (inner.statement body statement)
  declaration declaration := Convert.guarded error (inner.declaration declaration)

/-- The converters that may go a number of levels deep and look at the names before each node. -/
def guarding (setting : Setting) (error : ConversionError) : (levels : Nat) → Inner
  | 0 => (Inner.at setting 0).guarded error
  | levels + 1 => (guarding setting error levels).deeper.guarded error

end Inner

/-- The conversion asked for, with a look at the names before each node. -/
def Request.convertGuarded (setting : Setting) (error : ConversionError) (request : Request) :
    Convert request.Answer := do
  (Inner.guarding setting error (depthLimit - (← get).depth)).answer request

@[simp] theorem Inner.guarding_setting (setting : Setting) (error : ConversionError)
    (levels : Nat) :
    (Inner.guarding setting error levels).setting = setting := by
  induction levels with
  | zero => rfl
  | succ levels ih => exact ih

/-- A look at names that are different changes nothing. -/
theorem Convert.SameIfDistinct.guarded {α : Type} {c d : Convert α} (h : SameIfDistinct c d)
    (error : ConversionError) : SameIfDistinct (Convert.guarded error c) d := by
  intro surroundings hdistinct
  unfold Convert.guarded
  rw [if_pos hdistinct]
  exact h surroundings hdistinct

/-- Converters that look at the names do the same as those that do not. -/
theorem guarding_levels (setting : Setting) (error : ConversionError) (levels : Nat)
    (construct : Construct) :
    sameIfDistinct.OnConstruct (Inner.guarding setting error levels) (Inner.at setting levels)
      construct := by
  have hguarded {inner other : Inner} {construct : Construct}
    (h : sameIfDistinct.OnConstruct inner other construct) :
      sameIfDistinct.OnConstruct (inner.guarded error) other construct := by
    cases construct with
    | expr | statement => exact fun context => (h context).guarded error
    | declaration => exact Convert.SameIfDistinct.guarded h error
  induction levels generalizing construct with
  | zero => exact hguarded (sameIfDistinct.levels setting 0 construct)
  | succ levels ih =>
    rw [Inner.at_succ]
    exact hguarded (LevelCorrespondence.deeper (by simp) fun part _ => ih part)

/-- Where the names of the open `With` blocks are different, every `With` block that is converted
gets a variable with another name, which is not visible anywhere in the block either. And no
conversion that starts with different names ever comes to a node with two that are the same. -/
theorem with_variables_are_fresh (setting : Setting) (surroundings : Surroundings)
    (hdistinct : surroundings.receivers.Nodup) :
    (∀ (levels : Nat) (body : Body) (block : Statement) (target : Expr)
      (statements : List Statement)
      (converted : Target.Statement), block.kind = .with target statements →
      ((Inner.at setting levels).withBlock body block target statements surroundings).1 =
        .ok converted →
      ∃ name, WithVariable setting surroundings.receivers block converted name) ∧
    ∀ (request : Request) (error : ConversionError),
      request.convertGuarded setting error surroundings = request.convert setting surroundings := by
  refine ⟨fun levels body block target statements converted _ => Inner.exists_withVariable, ?_⟩
  intro request error
  rw [Request.convert_eq]
  have hsame :
    sameIfDistinct.Rel
    ((Inner.guarding setting error (depthLimit - surroundings.depth)).answer request)
      ((Inner.at setting (depthLimit - surroundings.depth)).answer request) :=
    Correspondence.answer (by simp) fun part _ => guarding_levels setting error _ part
  exact (hsame surroundings hdistinct).1

/-- Inside a block that holds `withBlock`, where `withBlock1` is visible at an access without a
receiver. -/
theorem nested_with_variable :
    let setting : Setting :=
      { table := ({} : Model.SemanticTable).addNamesInScope 5 ["withBlock1"] }
    let surroundings : Surroundings := { receivers := ["withBlock"] }
    let body : Body := ⟨.procedure, false, []⟩
    let statements : List Statement :=
      [⟨3, .call (.invocation 4 (.memberAccess 5 none ⟨6, "Run", []⟩) []), {}⟩]
    let block : Statement := ⟨1, .with (.me 2) statements, {}⟩
    let converted : Target.Statement := .block [.localVariable .var "withBlock2" (some .this),
      .expression (.invocation (.memberAccess (.identifier "withBlock2") "Run" []) [])]
    let request := Request.statements .procedure false [block]
    surroundings.receivers.Nodup ∧
      ((Inner.at setting 4).withBlock body block (.me 2) statements surroundings).1 =
        .ok converted ∧
      (∃ name, WithVariable setting surroundings.receivers block converted name) ∧
      ∀ error, request.convertGuarded setting error surroundings =
        request.convert setting surroundings := by
  intro setting surroundings body statements block converted request
  have hname :
    uniqueName surroundings.receivers withVariable ((Inner.at setting 4).namesInside block) =
      .ok "withBlock2" := by
    have hvisible : (Inner.at setting 4).namesInside block = ["withBlock1"] := rfl
    -- the first two candidates are the name of the block around it and a name that is visible
    -- inside
    have htaken : ∀ m < 2, numberedName withVariable m ∈ surroundings.receivers ++
      ["withBlock1"] := by decide
    rw [hvisible]
    exact uniqueName_eq_ok_iff.mpr ⟨2, by decide, rfl, by decide, htaken⟩
  have hrun : ((Inner.at setting 4).withBlock body block (.me 2) statements surroundings).1 =
    .ok converted := by
    rw [Inner.withBlock_eq, Convert.run_bind]
    change ((Convert.inWithBlock _ _ >>= _) surroundings).1 = _
    rw [Convert.run_bind, Convert.run_inWithBlock, hname]
    rfl
  have hdistinct : surroundings.receivers.Nodup := by decide
  obtain ⟨hblock, hguarded⟩ := with_variables_are_fresh setting surroundings hdistinct
  exact ⟨hdistinct, hrun, hblock 4 body block (.me 2) statements converted rfl hrun,
    hguarded request⟩

end Sharpen
