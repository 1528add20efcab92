import Sharpen.Proofs.Jumps.Flow
import Sharpen.Proofs.LambdaBodies.Statement

/-!
# The flow through the conversion

What a statement becomes has the flow of the statement, and every jump in it has a block to go to:
`Routed`. The converters carry the blocks around a statement in `Body.breakables`; a jump is only
converted where the block that it names is the one that the target reaches, so the two ways of
finding it agree (`Body.leaveBlock_routed`, `named?_eq_resumed?`). All other statements hand the
flow of their parts on, which is `Image.routed`, one case for each line of the table.
-/

namespace Sharpen

open List
open Source (Expr StatementKind ElseIfBlock CaseBlock CatchBlock BlockKind named? endsInJump loud)
open Target (Statement)

/-! ## What is put around statements -/

section Building

variable (scope : List Bool) {statements : List Statement} {trivia : Trivia}

/-- A body has the flow of its statements, with and without braces. -/
theorem flow_embedded :
    (embedded statements).flow scope = Target.flowIn scope statements := by
  rw [Target.flowIn_eq_flatMap]
  exact see_embedded (Target.flowView scope).block statements

@[inherit_doc flow_embedded]
theorem flow_thenBranch {hasElse : Bool} :
    (thenBranch hasElse statements).flow scope = Target.flowIn scope statements := by
  rw [Target.flowIn_eq_flatMap]
  exact see_thenBranch (Target.flowView scope).block hasElse statements

/-- Comments have no flow. -/
theorem flowIn_attachHeader :
    Target.flowIn scope (attachHeader trivia statements) = Target.flowIn scope statements := by
  rw [Target.flowIn_eq_flatMap, Target.flowIn_eq_flatMap, View.flatMap_attachHeader]

@[inherit_doc flowIn_attachHeader]
theorem flow_headerIntoBranch {condition : Target.Expr} {branch : Statement}
    {elseBody : Option Statement} :
    (headerIntoBranch trivia (.if condition branch elseBody)).flow scope =
      (Statement.if condition branch elseBody).flow scope := by
  obtain ⟨inside, h, hinside⟩ := exists_branch_of_header trivia condition branch elseBody
  have hflow : inside.flow scope = branch.flow scope := hinside (Target.flowView scope)
  rw [h]
  cases elseBody with
  | none | some alternative => simp only [Statement.flow, hflow]

/-- Resources stand around a block one inside the other. -/
theorem flow_resources {groups : List Target.Variables} :
    (groups.foldr (fun group rest => .using (.declared group) rest)
      (.block statements) : Statement).flow scope = Target.flowIn scope statements := by
  induction groups with
  | nil => exact Statement.flow_block scope statements
  | cons group rest ih => simp only [foldr_cons, Statement.flow, ih]

end Building

/-! ## Lists of statements -/

/-- The blocks of the target that stand for those of the source. -/
def targetScope (scope : List BlockKind) : List Bool :=
  scope.map BlockKind.isLoop

/-- A statement of the source among blocks, and what it becomes. -/
structure Routed (scope : List BlockKind) (kind : StatementKind)
    (converted : List Statement) : Prop where
  flow : Target.flowIn (targetScope scope) converted = kind.flow scope
  hasTarget : ∀ mark ∈ kind.flow scope, mark.hasTarget
  nil_iff : converted = [] ↔ kind.isSilent
  isJump : lastIsJump converted = kind.isJump

/-- Statements of the source among blocks, and what they become. -/
structure RoutedList (scope : List BlockKind) (statements : List Source.Statement)
    (converted : List Statement) : Prop where
  flow : Target.flowIn (targetScope scope) converted = Source.flowIn scope statements
  hasTarget : ∀ mark ∈ Source.flowIn scope statements, mark.hasTarget
  nil_iff : converted = [] ↔ loud statements = []
  isJump : lastIsJump converted = endsInJump statements

variable {converted : List Statement}

/-- Comments around the statements change nothing. -/
theorem Routed.attachStatements {scope : List BlockKind} {kind : StatementKind}
    (h : Routed scope kind converted) (trivia : Trivia) :
    Routed scope kind (attachStatements trivia converted) := by
  have hsame := map_uncommented_attachStatements trivia converted
  refine ⟨?_, h.hasTarget, ?_, ?_⟩
  · rw [← h.flow, Target.flowIn_eq_flatMap, Target.flowIn_eq_flatMap,
      View.flatMap_eq_of_uncommented _ hsame]
  · rw [← h.nil_iff, ← map_eq_nil_iff, hsame, map_eq_nil_iff]
  · rw [lastIsJump_eq_of_uncommented hsame, h.isJump]

variable {statements : List Source.Statement}

/-- Statements have their flow if each of them has. -/
theorem RoutedList.of_forall₂ {scope : List BlockKind} {lists : List (List Statement)}
    (h : Forall₂ (fun statement list => Routed scope statement.kind list) statements lists) :
    RoutedList scope statements lists.flatten := by
  induction h with
  | nil =>
    refine ⟨rfl, ?_, iff_of_true rfl rfl, rfl⟩
    simp [Source.flowIn]
  | @cons statement list rest others hfirst _ ih =>
    refine ⟨?_, ?_, ?_, ?_⟩
    · rw [flatten_cons, Target.flowIn_append, hfirst.flow, ih.flow, Source.flowIn_cons]
    · rw [Source.flowIn_cons]
      exact forall_mem_append.mpr ⟨hfirst.hasTarget, ih.hasTarget⟩
    · rw [flatten_cons, append_eq_nil_iff, ih.nil_iff, hfirst.nil_iff, Source.loud_cons]
      cases statement.kind.isSilent <;> simp
    · rw [flatten_cons]
      by_cases hothers : others.flatten = []
      · -- nothing behind the first statement writes anything
        have hloud := ih.nil_iff.mp hothers
        rw [hothers, append_nil, hfirst.isJump, endsInJump, Source.loud_cons, hloud]
        cases hsilent : statement.kind.isSilent with
        | true => exact StatementKind.isJump_of_isSilent hsilent
        | false => rfl
      · have hloud := mt ih.nil_iff.mpr hothers
        rw [lastIsJump, List.getLast?_append_of_ne_nil _ hothers, ← lastIsJump, ih.isJump,
          endsInJump, endsInJump, Source.loud_cons]
        cases statement.kind.isSilent with
        | true => rfl
        | false => rw [if_neg Bool.false_ne_true, List.getLast?_cons_of_ne_nil hloud]

/-- Whatever the converters give for a statement has its flow. -/
def Inner.Routes (inner : Inner) (statement : Source.Statement) : Prop :=
  ∀ (body : Body) converted, (inner.statement body statement).Gives converted →
    Routed body.breakables statement.kind converted

variable {inner : Inner} {body : Body}

/-- Statements that are converted one by one. -/
theorem Inner.Converts.routed (h : inner.Converts body statements converted)
    (hparts : ∀ part, inner.Routes part) : RoutedList body.breakables statements converted := by
  obtain ⟨_, hlists, rfl⟩ := h
  exact .of_forall₂ (hlists.imp fun part list => hparts part body list)

/-! ## Jumps -/

/-- A block that is left is the innermost one, and the one that is named. -/
theorem Body.leaveBlock_routed {block : BlockKind} {converted : Statement}
    (h : body.leaveBlock block = .ok converted) :
    converted = .break ∧ named? body.breakables block = some 0 ∧
      Target.left? (targetScope body.breakables) = some 0 := by
  obtain ⟨rfl, hhead⟩ := Body.leaveBlock_eq_ok h
  obtain ⟨_, hscope⟩ := List.head?_eq_some_iff.mp hhead
  rw [hscope]
  refine ⟨rfl, ?_, rfl⟩
  simp [named?, List.findIdx?_cons]

/-- The first block that is not a choice is the first of its own kind. -/
theorem named?_eq_resumed? {scope : List BlockKind} {block : BlockKind}
    (h : scope.find? (· != .select) = some block) :
    named? scope block = Target.resumed? (targetScope scope) ∧ (named? scope block).isSome := by
  induction scope with
  | nil => cases h
  | cons first rest ih =>
    unfold named? Target.resumed? targetScope at ih ⊢
    rw [map_cons, List.findIdx?_cons, List.findIdx?_cons]
    rw [List.find?_cons] at h
    cases hfirst : first != .select with
    | true =>
      rw [hfirst] at h
      obtain rfl := Option.some.inj h
      simp [BlockKind.isLoop, hfirst]
    | false =>
      rw [hfirst] at h
      obtain ⟨heq, hsome⟩ := ih h
      have hblock : block ≠ .select := by simpa using List.find?_some h
      have hselect : first = .select := by simpa using hfirst
      have hother : (first == block) = false := by simp [hselect, Ne.symm hblock]
      simp only [BlockKind.isLoop, hfirst, hother, Bool.false_eq_true, if_false, Option.isSome_map]
      exact ⟨congrArg _ heq, hsome⟩

namespace Routed

variable {scope : List BlockKind} {kind : StatementKind} {single : Statement}

/-- A statement that becomes a single one with the same flow. -/
theorem singleton {flow : List FlowMark} (hkind : kind.flow scope = flow)
    (hsingle : single.flow (targetScope scope) = flow) (htarget : ∀ mark ∈ flow, mark.hasTarget)
    (hsilent : kind.isSilent = false := by rfl) (hjump : single.isJump = kind.isJump := by rfl) :
    Routed scope kind [single] where
  flow := by rw [Target.flowIn_cons, Target.flowIn_nil, append_nil, hsingle, hkind]
  hasTarget := hkind ▸ htarget
  nil_iff := by simp [hsilent]
  isJump := hjump

/-- A statement without loops and choices inside that does not jump to one. -/
theorem leaf (hkind : kind.flow scope = [] := by rfl)
    (hsingle : single.flow (targetScope scope) = [] := by rfl)
    (hsilent : kind.isSilent = false := by rfl) (hjump : single.isJump = kind.isJump := by rfl) :
    Routed scope kind [single] :=
  .singleton hkind hsingle (forall_mem_nil _) hsilent hjump

/-- An `Exit` leaves the innermost block or the whole body. -/
theorem exit {block : BlockKind} (h : body.exit block = .ok single) :
    Routed body.breakables (.exit block) [single] := by
  cases hblock : block.isBreakable with
  | true =>
    have hleave : body.leaveBlock block = .ok single := by
      cases block <;> first | exact h | cases hblock
    obtain ⟨rfl, hnamed, hleft⟩ := Body.leaveBlock_routed hleave
    have hflow : (StatementKind.exit block).flow body.breakables = [.leave (some 0)] := by
      rw [StatementKind.flow, if_pos hblock, hnamed]
    exact .singleton hflow (by rw [Statement.flow, hleft]) (forall_mem_singleton.mpr rfl)
  | false =>
    have hflow : (StatementKind.exit block).flow body.breakables = [] := by
      rw [StatementKind.flow, hblock]
      rfl
    have hleave : body.leave = .ok single := by
      cases block <;> first | exact h | cases h | cases hblock
    obtain rfl | ⟨_, rfl, -⟩ := Body.leave_eq_ok hleave <;> exact .leaf hflow

/-- A `Continue` resumes the loop that it names. -/
theorem «continue» {block : BlockKind} (h : body.resume block = .ok single) :
    Routed body.breakables (.continue block) [single] := by
  obtain ⟨rfl, hfind⟩ := Body.resume_eq_ok h
  obtain ⟨hnamed, hsome⟩ := named?_eq_resumed? hfind
  exact .singleton rfl (by rw [Statement.flow, ← hnamed]; rfl) (forall_mem_singleton.mpr hsome)

/-- A loop. -/
theorem loop {block : BlockKind} {inside : Statement}
    (hlist : RoutedList (block :: scope) statements converted) (hblock : block.isLoop)
    (hkind : kind.flow scope = .enter true :: Source.flowIn (block :: scope) statements ++
      [.finish])
    (hsingle : single.flow (targetScope scope) = .enter true ::
      inside.flow (true :: targetScope scope) ++ [.finish])
    (hinside : ∀ scope, inside.flow scope = Target.flowIn scope converted)
    (hsilent : kind.isSilent = false := by rfl) (hjump : single.isJump = kind.isJump := by rfl) :
    Routed scope kind [single] := by
  have hscope : targetScope (block :: scope) = true :: targetScope scope := by
    rw [targetScope, map_cons, hblock, ← targetScope]
  refine .singleton hkind ?_ ?_ hsilent hjump
  · rw [hsingle, hinside, ← hscope, hlist.flow]
  · refine forall_mem_append.mpr ⟨forall_mem_cons.mpr ⟨rfl, hlist.hasTarget⟩, ?_⟩
    exact forall_mem_singleton.mpr rfl

/-- A statement that hands on the flow of the statements inside it. -/
theorem block (hlist : RoutedList scope statements converted)
    (hkind : kind.flow scope = Source.flowIn scope statements)
    (hsingle : single.flow (targetScope scope) = Target.flowIn (targetScope scope) converted)
    (hsilent : kind.isSilent = false := by rfl) (hjump : single.isJump = kind.isJump := by rfl) :
    Routed scope kind [single] :=
  .singleton hkind (hsingle.trans hlist.flow) hlist.hasTarget hsilent hjump

end Routed

/-! ## Branches, sections and handlers -/

variable {elseStatements : Option (List Source.Statement)} (hparts : ∀ part, inner.Routes part)
include hparts

section If

variable {condition : Expr} {elseIfs : List ElseIfBlock} {converted : Statement}
  (h : IfImage inner body condition statements elseStatements elseIfs converted)
include h

/-- The flow of an `If` is that of its branches. -/
theorem IfImage.routed :
    let flow := Source.flowIn body.breakables statements ++
      Source.elseIfFlow body.breakables elseIfs ++
      elseStatements.elim [] (Source.flowIn body.breakables)
    converted.flow (targetScope body.breakables) = flow ∧ ∀ mark ∈ flow, mark.hasTarget := by
  induction h with
  | only _ hbranch =>
    have hlist := hbranch.routed hparts
    simp [Statement.flow, flow_thenBranch, hlist.flow, Source.elseIfFlow]
    exact hlist.hasTarget
  | withElse _ hbranch helse =>
    have hlist := hbranch.routed hparts
    have hother := helse.routed hparts
    refine ⟨?_, ?_⟩
    · simp [Statement.flow, flow_thenBranch, flow_embedded, hlist.flow, hother.flow,
        Source.elseIfFlow]
    · simp only [Source.elseIfFlow, append_nil, Option.elim_some]
      exact forall_mem_append.mpr ⟨hlist.hasTarget, hother.hasTarget⟩
  | @elseIf _ _ _ block _ _ _ _ _ hbranch hrest ih =>
    cases block
    have hlist := hbranch.routed hparts
    obtain ⟨hflow, htarget⟩ := ih
    obtain ⟨_, _, _, rfl⟩ := hrest.exists_if
    rw [Source.elseIfFlow, append_assoc]
    refine ⟨?_, forall_mem_append.mpr ⟨hlist.hasTarget, htarget⟩⟩
    rw [Statement.flow, flow_thenBranch, hlist.flow, flow_headerIntoBranch, hflow]

@[inherit_doc IfImage.routed]
theorem Routed.branches {kind : StatementKind} (hkind : kind.flow body.breakables =
      Source.flowIn body.breakables statements ++ Source.elseIfFlow body.breakables elseIfs ++
        elseStatements.elim [] (Source.flowIn body.breakables))
    (hsilent : kind.isSilent = false := by rfl) (hjump : kind.isJump = false := by rfl) :
    Routed body.breakables kind [converted] := by
  obtain ⟨hflow, htarget⟩ := h.routed hparts
  obtain ⟨_, _, _, rfl⟩ := h.exists_if
  exact .singleton hkind hflow htarget hsilent hjump.symm

end If

/-- The sections of a `Select`, each with the `break` at its end. -/
theorem routed_sections {cases : List CaseBlock} {sections : List Target.SwitchSection}
    (h : Forall₂ (SectionImage inner body) cases sections) :
    Target.sectionFlow (false :: targetScope body.breakables) sections =
        Source.caseFlow (.select :: body.breakables) cases ∧
      ∀ mark ∈ Source.caseFlow (.select :: body.breakables) cases, mark.hasTarget := by
  induction h with
  | nil => simp [Target.sectionFlow, Source.caseFlow]
  | @cons block converted rest others hfirst _ ih =>
    obtain ⟨statements, -, hstatements, hconverted⟩ := hfirst
    obtain ⟨_, source⟩ := block
    obtain ⟨_, listed⟩ := converted
    obtain ⟨hflow, htarget⟩ := ih
    have hlist := hstatements.routed hparts
    have hinside : Target.flowIn (false :: targetScope body.breakables) statements =
        Source.flowIn (.select :: body.breakables) source := hlist.flow
    rw [Source.caseFlow, Target.sectionFlow, hflow, show listed = _ from hconverted,
      Target.flowIn_eq_flatMap, flatMap_sectionBody (View.block _), ← Target.flowIn_eq_flatMap,
      flowIn_attachHeader, lastIsJump_attachHeader, hinside, hlist.isJump]
    refine ⟨rfl, ?_⟩
    refine forall_mem_append.mpr ⟨forall_mem_append.mpr ⟨hlist.hasTarget, ?_⟩, htarget⟩
    split
    · exact forall_mem_nil _
    · exact forall_mem_singleton.mpr rfl

/-- The handlers of a `Try`. -/
theorem routed_catches {catches : List CatchBlock} {clauses : List Target.CatchClause}
    (h : Forall₂ (CatchImage inner body) catches clauses) :
    Target.catchFlow (targetScope body.breakables) clauses =
      Source.catchFlow body.breakables catches ∧
      ∀ mark ∈ Source.catchFlow body.breakables catches, mark.hasTarget := by
  induction h with
  | nil => simp [Target.catchFlow, Source.catchFlow]
  | @cons block converted rest others hfirst _ ih =>
    obtain ⟨_, -, -, hstatements, hconverted⟩ := hfirst
    cases block
    obtain ⟨_, _, inside⟩ := converted
    obtain ⟨hflow, htarget⟩ := ih
    have hlist := hstatements.routed hparts
    rw [Source.catchFlow, Target.catchFlow, hflow, show inside = _ from hconverted,
      flowIn_attachHeader, hlist.flow]
    exact ⟨rfl, forall_mem_append.mpr ⟨hlist.hasTarget, htarget⟩⟩

/-! ## The table -/

/-- Every line of the table keeps the flow. -/
theorem Image.routed {kind : StatementKind} (h : Image inner body kind converted) :
    Routed body.breakables kind converted := by
  have hnil := h.eq_nil_iff
  cases h with
  | @localDeclaration _ _ _ _ declared h =>
    clear h
    refine ⟨?_, forall_mem_nil _, hnil, ?_⟩
    · clear hnil
      induction declared with
      | nil => rfl
      | cons group rest ih => exact ih
    · unfold lastIsJump
      rw [List.getLast?_map]
      cases declared.getLast? <;> rfl
  | expression h | call h =>
    obtain ⟨_, rfl⟩ := Inner.expressionStatement_gives h
    exact .leaf
  | assignment | throw | yield | raiseEvent | addHandler | removeHandler | stop | «end» =>
    exact .leaf
  | @«return» _ converted =>
    cases converted with
    | none =>
      cases hiterator : body.isIterator <;> simp only [Body.leaveWith, hiterator] <;>
        exact .leaf
    | some converted => exact .leaf
  | exit h => exact .exit h
  | «continue» h => exact .continue h
  | @singleLineIf _ _ elseStatements _ h =>
    refine .branches hparts h ?_
    cases elseStatements <;> simp [StatementKind.flow, Source.elseIfFlow]
  | @multiLineIf _ _ _ elseStatements _ h =>
    refine .branches hparts h ?_
    cases elseStatements <;> simp [StatementKind.flow]
  | «for» _ _ _ hbody | forEach _ _ hbody | «while» _ hbody | doFirst _ hbody | doForever hbody =>
    exact .loop (hbody.routed hparts) rfl rfl rfl (flow_embedded ·)
  | doLast _ hbody =>
    exact .loop (hbody.routed hparts) rfl rfl rfl (Statement.flow_block · _)
  | select _ hcases =>
    obtain ⟨hflow, htarget⟩ := routed_sections hparts hcases
    refine .singleton rfl (by rw [Statement.flow, hflow, StatementKind.flow]) ?_
    rw [StatementKind.flow]
    refine forall_mem_append.mpr ⟨forall_mem_cons.mpr ⟨rfl, htarget⟩, ?_⟩
    exact forall_mem_singleton.mpr rfl
  | «with» _ hbody | syncLock _ hbody | usingValue _ hbody =>
    exact .block (hbody.routed hparts) rfl (Statement.flow_block _ _)
  | «try» hbody hcatches =>
    have hlist := hbody.routed hparts
    obtain ⟨hflow, htarget⟩ := routed_catches hparts hcatches
    exact .singleton (by rfl) (by rw [Statement.flow, hlist.flow, hflow])
      (forall_mem_append.mpr ⟨hlist.hasTarget, htarget⟩)
  | tryFinally hbody hcatches hlast =>
    have hlist := hbody.routed hparts
    have hend := hlast.routed hparts
    obtain ⟨hflow, htarget⟩ := routed_catches hparts hcatches
    exact .singleton (by rfl) (by rw [Statement.flow, hlist.flow, hflow, hend.flow])
      (forall_mem_append.mpr ⟨forall_mem_append.mpr ⟨hlist.hasTarget, htarget⟩, hend.hasTarget⟩)
  | usingVariables _ hbody => exact .block (hbody.routed hparts) rfl (flow_resources _)

end Sharpen
