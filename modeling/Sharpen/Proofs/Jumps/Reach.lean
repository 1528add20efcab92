import Sharpen.Proofs.Jumps.Conversion

/-!
# Jumps reach the blocks they name

The main result, `jumps_reach_named_blocks`, has two halves. A body that is converted keeps its
flow: every `Exit` and `Continue` becomes a jump that reaches what stands for the block it names.
And a jump for which that is impossible (`Source.Statement.Misses`) is never converted: it stops the
conversion with an error that names it.

To say that the conversion comes to a jump, the conversion is run once more with converters that
stop at the number of the jump with an error of our choice (`Inner.stopping`). If the run ends in
that error, whichever it is, then nothing before the jump has failed.
-/

namespace Sharpen

open List

open Source (Expr Statement StatementKind BlockKind NodeId named?)

variable {body : Body} {setting : Setting}

/-! ## Jumps that miss their block -/

namespace Source

/-- A statement stands inside a node among these blocks of its body, if the node itself stands among
`outer`. The body of a lambda starts without blocks. -/
inductive Node.Holds (statement : Statement) (scope : List BlockKind) :
    (outer : List BlockKind) → Node → Prop where
  | here : Holds statement scope scope (.statement statement)
  | inStatement {outer : List BlockKind} {whole part : Statement}
      (hpart : part ∈ whole.kind.statements)
      (h : Holds statement scope (whole.kind.block?.toList ++ outer) (.statement part)) :
      Holds statement scope outer (.statement whole)
  | inExpr {outer : List BlockKind} {whole : Statement} {part : Expr}
      (hpart : part ∈ whole.kind.exprs)
      (h : Holds statement scope outer (.expr part)) :
        Holds statement scope outer (.statement whole)
  | inPart {outer : List BlockKind} {whole part : Expr} (hpart : part ∈ whole.parts)
      (h : Holds statement scope outer (.expr part)) : Holds statement scope outer (.expr whole)
  | inLambda {outer : List BlockKind} {whole : Expr} {part : Statement}
      (hpart : part ∈ whole.statements)
      (h : Holds statement scope [] (.statement part)) : Holds statement scope outer (.expr whole)

/-- A jump to a block that is not there, or that the jump of the target would not reach, with the
kind of its error. -/
inductive Statement.Misses (scope : List BlockKind) (statement : Statement) : String → Prop where
  | exit {block : BlockKind} (hkind : statement.kind = .exit block) (hblock : block.isBreakable)
      (h : named? scope block = none ∨ named? scope block ≠ Target.left? (targetScope scope)) :
      Misses scope statement "ExitStatement"
  | continue {block : BlockKind} (hkind : statement.kind = .continue block)
      (h : named? scope block = none ∨ named? scope block ≠ Target.resumed? (targetScope scope)) :
      Misses scope statement "ContinueStatement"

end Source

/-- `Exit` is declined where it would miss its block. -/
theorem Body.leaveBlock_eq_error {block : BlockKind}
    (h : named? body.breakables block = none ∨ named? body.breakables block ≠
      Target.left? (targetScope body.breakables)) :
    ∃ reason, body.leaveBlock block = .error (.unsupported "ExitStatement" reason) := by
  unfold leaveBlock
  dsimp only
  split
  · next hscope =>
    split
    · next hsame =>
      have hnamed : named? body.breakables block = some 0 := by
        simp [named?, hscope, hsame, List.findIdx?_cons]
      have hleft : Target.left? (targetScope body.breakables) = some 0 := by
        rw [hscope]
        rfl
      simp [hnamed, hleft] at h
    · exact ⟨_, rfl⟩
  · exact ⟨_, rfl⟩

/-- `Continue` is declined where it would miss its loop. -/
theorem Body.resume_eq_error {block : BlockKind}
    (h : named? body.breakables block = none ∨ named? body.breakables block ≠
      Target.resumed? (targetScope body.breakables)) :
    ∃ reason, body.resume block = .error (.unsupported "ContinueStatement" reason) := by
  unfold resume
  dsimp only
  split
  · next hfind =>
    split
    · next hsame =>
      obtain ⟨heq, hsome⟩ := named?_eq_resumed? (hsame ▸ hfind)
      obtain hnone | hne := h
      · rw [hnone] at hsome
        cases hsome
      · exact absurd heq hne
    · exact ⟨_, rfl⟩
  · exact ⟨_, rfl⟩

/-- A jump that misses its block is declined. -/
theorem Source.Statement.Misses.declined {statement : Statement} {kind : String}
    (h : statement.Misses body.breakables kind) (inner : Inner) :
    statement.kind.kindName = kind ∧ ∃ reason,
      statement.convertKind inner body = Convert.ofExcept (.error (.unsupported kind reason)) := by
  obtain ⟨_, statement⟩ := statement
  cases h with
  | @exit block hkind hblock h =>
    obtain rfl := hkind
    obtain ⟨reason, hreason⟩ := Body.leaveBlock_eq_error h
    have hexit : body.exit block = .error (.unsupported "ExitStatement" reason) := by
      cases block <;> first | exact hreason | cases hblock
    refine ⟨rfl, reason, ?_⟩
    change (do return [← Convert.ofExcept (body.exit block)]) = _
    rw [hexit]
    rfl
  | @«continue» block hkind h =>
    obtain rfl := hkind
    obtain ⟨reason, hreason⟩ := Body.resume_eq_error h
    refine ⟨rfl, reason, ?_⟩
    change (do return [← Convert.ofExcept (body.resume block)]) = _
    rw [hreason]
    rfl

/-! ## Stopping at a statement -/

namespace Inner

/-- The same converters, but they stop at a statement. -/
def stopAt (number : NodeId) (error : ConversionError) (inner : Inner) : Inner :=
  { inner with
    statement := fun body statement =>
      if statement.id = number then Convert.ofExcept (.error error) else inner.statement
        body statement }

/-- The converters that may go a number of levels deep, but stop at a statement. -/
def stopping (setting : Setting) (number : NodeId) (error : ConversionError) :
    (levels : Nat) → Inner
  | 0 => (Inner.at setting 0).stopAt number error
  | levels + 1 => (stopping setting number error levels).deeper.stopAt number error

end Inner

/-- Converts the statements of a body, but stops at the statement with a number. -/
def convertUpTo (setting : Setting) (number : NodeId) (error : ConversionError) (body : Body)
    (statements : List Statement) : Convert (List Target.Statement) := do
  (Inner.stopping setting number error (depthLimit - (← get).depth)).statements body statements

/-- The conversion of a body comes to the statement with a number: nothing before it fails. -/
def ComesTo (setting : Setting) (body : Body) (statements : List Statement)
    (surroundings : Surroundings) (number : NodeId) : Prop :=
  ∀ error, (convertUpTo setting number error body statements surroundings).1 = .error error

/-- The first conversion does what the second does, unless it stops with the given error where the
second declines something. -/
def Convert.StopsWith {α : Type} (error : ConversionError) (kind : String) (c d : Convert α) :
    Prop :=
  ∀ surroundings, c surroundings = d surroundings ∨ (c surroundings).1 = .error error ∧
      ∃ reason, (d surroundings).1 = .error (.unsupported kind reason)

namespace Convert.StopsWith

variable {α β : Type} {error : ConversionError} {kind : String} {c d : Convert α}

theorem bind {f g : α → Convert β} (hc : StopsWith error kind c d)
    (hf : ∀ a, StopsWith error kind (f a) (g a)) : StopsWith error kind (c >>= f) (d >>= g) := by
  intro surroundings
  rw [Convert.run_bind, Convert.run_bind]
  obtain heq | ⟨hstop, reason, hdecline⟩ := hc surroundings
  · rw [heq]
    obtain ⟨result, after⟩ := d surroundings
    cases result with
    | ok a => exact hf a after
    | error other => exact .inl rfl
  · generalize c surroundings = first at hstop ⊢
    generalize d surroundings = second at hdecline ⊢
    cases first
    cases second
    obtain rfl := hstop
    obtain rfl := hdecline
    exact .inr ⟨rfl, reason, rfl⟩

theorem within {change restore : Surroundings → Surroundings} (hc : StopsWith error kind c d) :
    StopsWith error kind (Convert.within change restore c) (Convert.within change restore d) := by
  intro surroundings
  unfold Convert.within
  obtain heq | hstop := hc (change surroundings)
  · rw [heq]
    exact .inl rfl
  · exact .inr hstop

theorem inWithBlock (hc : StopsWith error kind c d) (reserved : List String) :
    StopsWith error kind (Convert.inWithBlock reserved c) (Convert.inWithBlock reserved d) := by
  refine bind (c := get) (fun _ => .inl rfl) fun state => ?_
  refine bind (c := Convert.ofExcept _) (fun _ => .inl rfl) fun name => ?_
  exact bind hc.within fun _ _ => .inl rfl

theorem bindingHead (hc : StopsWith error kind c d) :
    StopsWith error kind (Convert.bindingHead c) (Convert.bindingHead d) := by
  intro surroundings
  unfold Convert.bindingHead
  obtain heq | hstop := hc { surroundings with atBindingHead := true }
  · rw [heq]
    exact .inl rfl
  · exact .inr hstop

end Convert.StopsWith

/-- Conversions that are made of stopping ones stop. -/
def stopsWith (error : ConversionError) (kind : String) : LevelCorrespondence where
  Rel c d := Convert.StopsWith error kind c d
  ofExcept _ _ := .inl rfl
  bind hc hf := hc.bind hf
  get _ := .inl rfl
  takeBindingHead _ := .inl rfl
  nested hc := hc.within
  inContainer _ hc := hc.within
  inWithBlock reserved hc := hc.inWithBlock reserved
  bindingHead hc := hc.bindingHead

@[simp] theorem Inner.stopping_setting (setting : Setting) (number : NodeId)
    (error : ConversionError) (levels : Nat) :
    (Inner.stopping setting number error levels).setting = setting := by
  induction levels with
  | zero => rfl
  | succ levels ih => exact ih

/-- At a jump that misses its block the converters stop, or decline it. -/
theorem Source.Statement.Misses.stops {statement : Statement} {kind : String}
    (h : statement.Misses body.breakables kind) (error : ConversionError) (levels : Nat) :
    Convert.StopsWith error kind (Convert.ofExcept (.error error))
      ((Inner.at setting levels).statement body statement) := by
  intro surroundings
  refine .inr ⟨rfl, ?_⟩
  cases levels with
  | zero =>
    obtain ⟨hname, -⟩ := h.declined (Inner.at setting 0)
    exact ⟨_, by rw [← hname]; rfl⟩
  | succ levels =>
    obtain ⟨-, reason, hdeclined⟩ := h.declined (Inner.at setting levels)
    refine ⟨reason, ?_⟩
    change ((do
      let converted ← Convert.nested (statement.convertKind (Inner.at setting levels) body)
      return attachStatements statement.trivia converted : Convert _) surroundings).1 = _
    rw [hdeclined]
    rfl

/-- Inside a node that stands among some blocks, a number stands only for jumps that miss theirs. -/
def Source.Node.OnlyMisses (node : Source.Node) (outer : List BlockKind) (number : NodeId)
    (kind : String) : Prop :=
  ∀ statement scope, node.Holds statement scope outer → statement.id = number →
    statement.Misses scope kind

/-- Converters that stop at a number stop where the others decline, if the number stands only for
jumps that miss their blocks. -/
theorem stopping_levels (setting : Setting) (number : NodeId) (error : ConversionError)
    (kind : String) (levels : Nat) :
    (∀ expr outer, (Source.Node.expr expr).OnlyMisses outer number kind →
      (stopsWith error kind).OnExpr (Inner.stopping setting number error levels)
        (Inner.at setting levels) expr) ∧
    ∀ (statement : Statement) (body : Body),
      (Source.Node.statement statement).OnlyMisses body.breakables number kind →
      (stopsWith error kind).OnStatement (Inner.stopping setting number error levels)
        (Inner.at setting levels) body statement := by
  -- what the stopping converters do at a statement, given what they do elsewhere
  have hstatement : ∀ (inner : Inner) (statement : Statement) (body : Body) (levels : Nat),
      (Source.Node.statement statement).OnlyMisses body.breakables number kind →
      (stopsWith error kind).OnStatement inner (Inner.at setting levels) body statement →
      (stopsWith error kind).OnStatement (inner.stopAt number error) (Inner.at setting levels) body
        statement := by
    intro inner statement body levels hmisses hinner
    unfold Congruence.OnStatement Inner.stopAt
    dsimp only
    split
    · next hid => exact (hmisses statement _ .here hid).stops error levels
    · exact hinner
  induction levels with
  | zero =>
    refine ⟨fun expr outer _ allowed => ?_, fun statement body hmisses => ?_⟩
    · exact (stopsWith error kind).unsupported _ _
    · exact hstatement _ statement body 0 hmisses ((stopsWith error kind).unsupported _ _)
  | succ levels ih =>
    obtain ⟨hexpr, hpart⟩ := ih
    have hsetting : (Inner.stopping setting number error levels).setting =
      (Inner.at setting levels).setting := by simp
    refine ⟨fun expr outer hmisses => ?_, fun statement body hmisses => ?_⟩
    · rw [Inner.at_succ]
      refine fun allowed =>
        (stopsWith error kind).nested (Correspondence.expr hsetting (fun part hmem => ?_)
        fun body hbody part hmem => ?_)
      · exact hexpr part outer fun found scope h => hmisses found scope (.inPart hmem h)
      · exact hpart part body fun found scope h => hmisses found scope (.inLambda hmem (hbody ▸ h))
    · refine hstatement _ statement body (levels + 1) hmisses ?_
      rw [Inner.at_succ]
      refine (stopsWith error kind).map
        ((stopsWith error kind).nested (Correspondence.statement hsetting
        (fun part hmem => ?_) fun part hmem => ?_)) _
      · exact hexpr part _ fun found scope h => hmisses found scope (.inExpr hmem h)
      · exact hpart part _ fun found scope h => hmisses found scope (.inStatement hmem h)

variable {source : List Statement} {number : NodeId}

theorem stopsWith_convertUpTo {kind : String}
    (hmisses : ∀ statement ∈ source,
      (Source.Node.statement statement).OnlyMisses body.breakables number kind)
    (error : ConversionError) :
    Convert.StopsWith error kind (convertUpTo setting number error body source)
      (convertStatements setting body source) := by
  unfold convertUpTo convertStatements Inner.current
  simp only [bind_assoc, pure_bind]
  refine (stopsWith error kind).bind (stopsWith error kind).get fun state => ?_
  refine Congruence.statements fun statement hmem => ?_
  exact (stopping_levels setting number error kind _).2 statement body (hmisses statement hmem)

/-- If the conversion comes to a jump that misses its block, it ends in an error that names the
jump. -/
theorem declined_of_comesTo {surroundings : Surroundings} {kind : String}
    (hmisses : ∀ statement ∈ source,
      (Source.Node.statement statement).OnlyMisses body.breakables number kind)
    (hcomes : ComesTo setting body source surroundings number) :
    ∃ reason, (convertStatements setting body source surroundings).1 =
      .error (.unsupported kind reason) := by
  -- the conversion cannot itself end in two different errors
  obtain hsame | ⟨-, hdeclined⟩ := stopsWith_convertUpTo hmisses (.unimplemented "") surroundings
  · obtain hother | ⟨-, hdeclined⟩ :=
      stopsWith_convertUpTo hmisses (.unsupported "" "") surroundings
    · have hfirst := hcomes (.unimplemented "")
      have hsecond := hcomes (.unsupported "" "")
      rw [hsame] at hfirst
      rw [hother, hfirst] at hsecond
      cases hsecond
    · exact hdeclined
  · exact hdeclined

/-! ## Whole bodies -/

theorem routes_at (setting : Setting) (levels : Nat) (statement : Statement) :
    (Inner.at setting levels).Routes statement :=
  Inner.statement_induction
    (fun himage ih => (himage.routed ih).attachStatements _) levels statement

/-- The jumps of a body that stands among blocks and of what it becomes: the flow is the same, and
every jump has a block to go to. -/
structure SameJumps (scope : List BlockKind) (source : List Statement)
    (output : List Target.Statement) : Prop where
  flow : Target.flowIn (targetScope scope) output = Source.flowIn scope source
  hasTarget : ∀ mark ∈ Source.flowIn scope source, mark.hasTarget

theorem Inner.Converts.sameJumps {levels : Nat} {output : List Target.Statement}
    (h : (Inner.at setting levels).Converts body source output) :
    SameJumps body.breakables source output := by
  have hlist := h.routed (routes_at setting levels)
  exact ⟨hlist.flow, hlist.hasTarget⟩

/-- In a converted body, and in the bodies of all lambdas inside it, every `Exit` and `Continue` has
become a jump that reaches what stands for the block it names. Where that is impossible and the
conversion comes to the jump, it ends in an error of the kind of the jump. -/
theorem jumps_reach_named_blocks (setting : Setting) (body : Body) (source : List Statement)
    (surroundings : Surroundings) :
    (∀ output, (convertStatements setting body source surroundings).1 = .ok output →
      SameJumps body.breakables source output ∧
        ∀ statement ∈ output, (Target.Node.statement statement).EachBody fun block =>
          ∃ part ∈ source, ∃ statements, (Source.Node.statement part).HasBody statements ∧
            SameJumps [] statements block) ∧
    ∀ number kind,
      (∀ statement ∈ source, (Source.Node.statement statement).OnlyMisses body.breakables
        number kind) →
      ComesTo setting body source surroundings number →
      ∃ reason, (convertStatements setting body source surroundings).1 =
        .error (.unsupported kind reason) := by
  refine ⟨fun output h => ?_, fun number kind => declined_of_comesTo⟩
  obtain ⟨_, hconverts⟩ := converts_of_convertStatements h
  refine ⟨hconverts.sameJumps, fun statement hstatement block hblock => ?_⟩
  obtain ⟨part, hpart, statements, hbody, _, _, hfresh, hinside⟩ :=
    hconverts.bodies_from statement hstatement block hblock
  exact ⟨part, hpart, statements, hbody, hfresh ▸ hinside.sameJumps⟩

/-- In a choice inside a loop, `Continue` resumes the loop, one block further out; `Exit` to the end
of the loop is declined. -/
theorem jumps_inside_a_choice :
    let within (jump : StatementKind) : List Statement :=
      [⟨1, .while (.me 2) [⟨3, .select (.me 4) [⟨[.else], [⟨5, jump, {}⟩], {}⟩], {}⟩], {}⟩]
    let body : Body := ⟨.procedure, false, []⟩
    let output : List Target.Statement := [.while .this (.switch .this [⟨[none], [.continue]⟩])]
    (convertStatements {} body (within (.continue .while)) {}).1 = .ok output ∧
      SameJumps [] (within (.continue .while)) output ∧
      Source.flowIn [] (within (.continue .while)) = [.enter true, .enter false, .resume (some 1),
        .finish, .finish] ∧
      ComesTo {} body (within (.exit .while)) {} 5 ∧
      ∃ reason, (convertStatements {} body (within (.exit .while)) {}).1 =
        .error (.unsupported "ExitStatement" reason) := by
  intro within body output
  have hrun : (convertStatements {} body (within (.continue .while)) {}).1 = .ok output := rfl
  have hcomes : ComesTo {} body (within (.exit .while)) {} 5 := fun error => rfl
  have hmisses : ∀ statement ∈ within (.exit .while),
      (Source.Node.statement statement).OnlyMisses body.breakables 5 "ExitStatement" := by
    rintro _ hloop found scope hfound hid
    have hme : ∀ id outer, ¬ (Source.Node.expr (.me id)).Holds found scope outer := by
      rintro _ _ (_ | _ | _ | ⟨hpart, -⟩ | ⟨hpart, -⟩)
      · cases hpart
      · cases hpart
    obtain rfl := mem_singleton.mp hloop
    obtain _ | ⟨hpart, hfound⟩ | ⟨hpart, hfound⟩ := hfound
    · cases hid
    · obtain rfl := mem_singleton.mp hpart
      obtain _ | ⟨hpart, hfound⟩ | ⟨hpart, hfound⟩ := hfound
      · cases hid
      · obtain rfl := mem_singleton.mp hpart
        obtain _ | ⟨hpart, hfound⟩ | ⟨hpart, hfound⟩ := hfound
        · exact .exit rfl rfl (.inr (by decide))
        · cases hpart
        · cases hpart
      · obtain rfl := mem_singleton.mp hpart
        exact absurd hfound (hme _ _)
    · obtain rfl := mem_singleton.mp hpart
      exact absurd hfound (hme _ _)
  exact ⟨hrun, ((jumps_reach_named_blocks {} body _ {}).1 output hrun).1, rfl, hcomes,
    (jumps_reach_named_blocks {} body _ {}).2 5 _ hmisses hcomes⟩

end Sharpen
