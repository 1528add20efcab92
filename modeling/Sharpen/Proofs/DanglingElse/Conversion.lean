import Sharpen.Proofs.DanglingElse.Branches
import Sharpen.Proofs.LambdaBodies.Statement

/-!
# `Else` branches through the conversion

What a statement becomes has the same forks, and an `else` dangles in it exactly if the statement
loses one (`Source.StatementKind.LosesElse`). `Kept` says so of a single statement, with what the
statements around it need to know of it; `Image.kept` has one case for each line of the table. The
main result, `else_read_back_unless_captured`, is about whole bodies and the printed text.
-/

namespace Sharpen

open List
open Source (Expr StatementKind ElseIfBlock CaseBlock CatchBlock forksIn elseForks CapturesElse
  Opens ElseLost lone? loud)
open Target (outlines forksOf Dangling Statement Mark)

/-- A statement of the source and the one statement that it becomes. -/
structure Alone (kind : StatementKind) (single : Statement) : Prop where
  plain : ∀ trivia inner, single ≠ .commented trivia inner
  endsOpen : single.endsOpen ↔ kind.Opens
  isIf : single.isIf = kind.isIf

/-- A statement of the source and what it becomes, its comments apart. -/
structure Kept (kind : StatementKind) (converted : List Statement) : Prop where
  forks : forksOf (outlines converted) = kind.forks
  dangling : Dangling converted ↔ kind.LosesElse
  nil_iff : converted = [] ↔ kind.isSilent
  alone : ∀ single, converted = [single] → Alone kind single
  exists_single : kind.Opens → ∃ single, converted = [single]

/-- A statement of the source and what it becomes. -/
def KeptStatement (statement : Source.Statement) (converted : List Statement) : Prop :=
  ∃ plain, Kept statement.kind plain ∧ converted = attachStatements statement.trivia plain

/-- Statements of the source and what they become. -/
structure KeptList (statements : List Source.Statement) (converted : List Statement) : Prop where
  forks : forksOf (outlines converted) = forksIn statements
  dangling : Dangling converted ↔ ElseLost statements
  endsOpen : (embedded converted).endsOpen ↔ Opens statements
  captures : (thenBranch true converted).endsOpen ↔ CapturesElse statements

/-! ## Lists of statements -/

namespace KeptStatement

variable {statement : Source.Statement} {converted : List Statement}

/-- Silent statements are left out, and no others. -/
theorem nil_iff (h : KeptStatement statement converted) :
    converted = [] ↔ statement.kind.isSilent := by
  obtain ⟨plain, hkept, rfl⟩ := h
  rw [← hkept.nil_iff]
  have hlength := congrArg List.length (map_uncommented_attachStatements statement.trivia plain)
  rw [length_map, length_map] at hlength
  rw [← length_eq_zero_iff, ← length_eq_zero_iff, hlength]

/-- Only a statement without comments becomes one without. -/
theorem alone {single : Statement} (h : KeptStatement statement [single])
    (hplain : ∀ trivia inner, single ≠ .commented trivia inner) :
    statement.trivia.isEmpty ∧ Alone statement.kind single := by
  obtain ⟨plain, hkept, hsingle⟩ := h
  unfold attachStatements at hsingle
  split at hsingle
  · next hempty => exact ⟨hempty, hkept.alone single hsingle.symm⟩
  · next hempty =>
    exfalso
    match plain, hkept, hsingle with
    | [only], hkept, hsingle =>
      have honly := (hkept.alone only rfl).plain
      have hadded : single = only.addTrivia statement.trivia.convert := head_eq_of_cons_eq hsingle
      have hcommented : only.addTrivia statement.trivia.convert =
        .commented statement.trivia.convert only := by
        unfold Statement.addTrivia
        split
        · exact absurd rfl (honly _ _)
        · unfold Statement.withTrivia
          rw [Trivia.isEmpty_convert, if_neg hempty]
      exact hplain _ _ (hadded.trans hcommented)
    | first :: second :: rest, _, hsingle =>
      have hlength := congrArg List.length hsingle
      cases rest <;> simp [attachTrivia, attachLast] at hlength

/-- A statement that opens becomes a single one, without comments of its own. -/
theorem exists_single (h : KeptStatement statement converted) (htrivia : statement.trivia.isEmpty)
    (hopens : statement.kind.Opens) :
    ∃ single, converted = [single] ∧ Alone statement.kind single := by
  obtain ⟨_, hkept, rfl⟩ := h
  obtain ⟨single, rfl⟩ := hkept.exists_single hopens
  exact ⟨single, if_pos htrivia, hkept.alone single rfl⟩

end KeptStatement

section Lists

variable {statements : List Source.Statement} {lists : List (List Statement)}
  (h : Forall₂ KeptStatement statements lists)
include h

/-- Nothing comes of statements that are all silent. -/
theorem flatten_eq_nil_iff_loud : lists.flatten = [] ↔ loud statements = [] := by
  induction h with
  | nil => exact iff_of_true rfl rfl
  | @cons statement list rest others hfirst _ ih =>
    rw [flatten_cons, append_eq_nil_iff, ih, hfirst.nil_iff, Source.loud_cons]
    cases statement.kind.isSilent <;> simp

/-- One statement without comments comes from one without. -/
theorem lone_of_flatten {single : Statement} (hsingle : lists.flatten = [single])
    (hplain : ∀ trivia inner, single ≠ .commented trivia inner) :
    ∃ kind, lone? statements = some kind ∧ Alone kind single := by
  induction h with
  | nil => cases hsingle
  | @cons statement list rest others hfirst hrest ih =>
    rw [flatten_cons, append_eq_singleton_iff] at hsingle
    obtain ⟨rfl, hothers⟩ | ⟨rfl, hothers⟩ := hsingle
    · have hsilent := hfirst.nil_iff.mp rfl
      obtain ⟨kind, hlone, halone⟩ := ih hothers
      refine ⟨kind, ?_, halone⟩
      rwa [lone?, Source.loud_cons, hsilent]
    · obtain ⟨htrivia, halone⟩ := hfirst.alone hplain
      have hloud : loud rest = [] := (flatten_eq_nil_iff_loud hrest).mp hothers
      have hsilent : statement.kind.isSilent = false := by
        rw [← Bool.not_eq_true, ← hfirst.nil_iff]
        exact cons_ne_nil _ _
      exact ⟨statement.kind, by simp [lone?, Source.loud_cons, hsilent, hloud, htrivia], halone⟩

/-- What amounts to one statement that opens becomes one statement. -/
theorem flatten_of_lone {kind : StatementKind} (hlone : lone? statements = some kind)
    (hopens : kind.Opens) :
    ∃ single, lists.flatten = [single] ∧ Alone kind single := by
  induction h with
  | nil => cases hlone
  | @cons statement list rest others hfirst hrest ih =>
    rw [lone?, Source.loud_cons] at hlone
    cases hsilent : statement.kind.isSilent with
    | true =>
      rw [hsilent] at hlone
      obtain ⟨single, hsingle, halone⟩ := ih hlone
      exact ⟨single, by simp [hfirst.nil_iff.mpr hsilent, hsingle], halone⟩
    | false =>
      cases hloud : loud rest with
      | nil =>
        simp only [hsilent, hloud, Bool.false_eq_true, if_false, Option.ite_none_right_eq_some,
          Option.some.injEq] at hlone
        obtain ⟨htrivia, rfl⟩ := hlone
        obtain ⟨single, rfl, halone⟩ := hfirst.exists_single htrivia hopens
        exact ⟨single, by simp [(flatten_eq_nil_iff_loud hrest).mpr hloud], halone⟩
      | cons => simp [hsilent, hloud] at hlone

/-- The forks of statements, one after the other. -/
theorem forks_flatten : forksOf (outlines lists.flatten) = forksIn statements := by
  induction h with
  | nil => simp [forksIn]
  | @cons statement _ _ _ hfirst _ ih =>
    cases statement
    obtain ⟨_, hkept, rfl⟩ := hfirst
    rw [flatten_cons, Target.outlines_append, Target.forksOf_append, ih, forksIn, ← hkept.forks,
      Target.forksOf_outlines, Target.forksOf_outlines]
    exact congrArg (· ++ _) (Target.forkView.flatMap_attachStatements ..)

/-- An `else` dangles in one of the statements. -/
theorem dangling_flatten : Dangling lists.flatten ↔ ElseLost statements := by
  induction h with
  | nil => simp
  | cons hfirst _ ih =>
    obtain ⟨_, hkept, rfl⟩ := hfirst
    rw [flatten_cons, Target.dangling_append, ih,
      Target.dangling_iff_of_uncommented (map_uncommented_attachStatements ..), hkept.dangling,
      Source.elseLost_cons]

/-- Statements keep their `else` branches if each of them does. -/
theorem KeptList.of_forall₂ : KeptList statements lists.flatten := by
  -- both ways, a body that ends open is the single statement that the branch amounts to
  have hopen : (embedded lists.flatten).endsOpen → ∃ kind, lone? statements = some kind ∧
      Alone kind (embedded lists.flatten) := by
    intro hopen
    obtain ⟨_, hsingle, heq, hplain⟩ := embedded_endsOpen hopen
    rw [heq]
    exact lone_of_flatten h hsingle hplain
  have hlone : ∀ kind, lone? statements = some kind → kind.Opens →
    Alone kind (embedded lists.flatten) := by
    intro kind hlone hopens
    obtain ⟨_, hsingle, halone⟩ := flatten_of_lone h hlone hopens
    rw [hsingle, embedded_single (halone.endsOpen.mpr hopens) halone.plain]
    exact halone
  refine ⟨forks_flatten h, dangling_flatten h, ?_, ?_⟩
  · rw [Source.opens_iff]
    constructor
    · intro hends
      obtain ⟨kind, hkind, halone⟩ := hopen hends
      exact ⟨kind, hkind, halone.endsOpen.mp hends⟩
    · rintro ⟨kind, hkind, hopens⟩
      exact (hlone kind hkind hopens).endsOpen.mpr hopens
  · rw [thenBranch_true]
    constructor
    · intro hends
      split at hends
      · simp [Statement.endsOpen] at hends
      · next hif =>
        obtain ⟨kind, hkind, halone⟩ := hopen hends
        exact ⟨kind, hkind, halone.isIf ▸ hif, halone.endsOpen.mp hends⟩
    · rintro ⟨kind, hkind, hif, hopens⟩
      have halone := hlone kind hkind hopens
      rw [if_neg (halone.isIf ▸ hif)]
      exact halone.endsOpen.mpr hopens

end Lists

/-- Whatever the converters give for a statement keeps its `else` branches. -/
def Inner.Keeps (inner : Inner) (statement : Source.Statement) : Prop :=
  ∀ body converted, (inner.statement body statement).Gives converted →
    KeptStatement statement converted

variable {inner : Inner} {body : Body}

/-- Statements that are converted one by one. -/
theorem Inner.Converts.kept {statements : List Source.Statement} {converted : List Statement}
    (h : inner.Converts body statements converted) (hparts : ∀ part, inner.Keeps part) :
    KeptList statements converted := by
  obtain ⟨_, hlists, rfl⟩ := h
  exact .of_forall₂ (hlists.imp fun part list => hparts part body list)

/-! ## Single statements -/

namespace Kept

variable {kind : StatementKind} {single : Statement}

/-- What a statement that becomes a single one has to keep. -/
theorem singleton (hforks : forksOf single.outline = kind.forks)
    (hdangles : single.Dangles ↔ kind.LosesElse) (hsilent : kind.isSilent = false)
    (halone : Alone kind single) : Kept kind [single] where
  forks := by simpa using hforks
  dangling := by simpa using hdangles
  nil_iff := by simp [hsilent]
  alone := by
    rintro _ heq
    obtain rfl := head_eq_of_cons_eq heq
    exact halone
  exists_single := fun _ => ⟨single, rfl⟩

/-- A statement that does not end, without braces, in others. -/
theorem closed (hforks : forksOf single.outline = kind.forks)
    (hdangles : Dangling single.statements ↔ ElseLost kind.statements) (hkind : kind.isClosed)
    (hsingle : single.isClosed) : Kept kind [single] := by
  have hopens := StatementKind.not_opens_of_isClosed hkind
  simp only [StatementKind.isClosed, Bool.and_eq_true, Bool.not_eq_true'] at hkind
  obtain ⟨⟨hsilent, hif⟩, -⟩ := hkind
  have hends : single.isIf = false ∧ single.endsOpen = false := by
    cases single <;> simp_all [Statement.isClosed, Statement.isIf]
  refine .singleton hforks ?_ hsilent ⟨?_, ?_, hends.1.trans hif.symm⟩
  · rw [StatementKind.losesElse_iff_parts hif, ← hdangles]
    exact Statement.dangles_iff_of_isClosed hsingle
  · rintro _ _ rfl
    cases hsingle
  · rw [hends.2]
    exact iff_of_false Bool.false_ne_true hopens

/-- A statement without others inside. -/
theorem leaf (hforks : kind.forks = []) (hparts : kind.statements = []) (hkind : kind.isClosed)
    (hsingle : single.isLeaf) : Kept kind [single] := by
  obtain ⟨hclosed, houtline, hstatements⟩ := Statement.isLeaf_facts hsingle
  refine .closed ?_ ?_ hkind hclosed
  · rw [houtline, hforks]
    rfl
  · rw [hparts, hstatements]
    simp

/-- A loop whose body stands at its end. -/
theorem loop {statements : List Source.Statement} {converted : List Statement}
    (hlist : KeptList statements converted) (hkind : kind.unbraced? = some statements)
    (hif : kind.isIf = false) (hsingle : single.loopBody? = some (embedded converted)) :
    Kept kind [single] := by
  obtain ⟨hforks, hparts, hopen, hsilent⟩ := StatementKind.loop_facts hkind hif
  obtain ⟨houtline, hstatements, hends, hsingleIf⟩ := Statement.loop_facts hsingle
  refine .singleton ?_ ?_ hsilent ⟨?_, ?_, hsingleIf.trans hif.symm⟩
  · rw [houtline, Target.forksOf_cons, outline_embedded, hlist.forks, hforks]
    rfl
  · have hdangles : single.Dangles ↔ Dangling single.statements := by
      refine Statement.dangles_iff ?_
      rintro _ _ _ rfl
      cases hsingle
    rw [hdangles, hstatements, Target.dangling_cons, dangles_embedded, hlist.dangling,
      StatementKind.losesElse_iff_parts hif, hparts]
    simp
  · rintro _ _ rfl
    cases hsingle
  · rw [hends, hlist.endsOpen]
    constructor
    · intro hopens
      exact .inr ⟨statements, hkind, hopens⟩
    · rintro (hopenIf | ⟨_, hpart, hopens⟩)
      · rw [hopen] at hopenIf
        cases hopenIf
      · rw [hkind] at hpart
        exact Option.some.inj hpart ▸ hopens

end Kept

/-! ## `If` -/

namespace IfImage

variable {condition : Expr} {statements : List Source.Statement}
  {elseStatements : Option (List Source.Statement)} {elseIfs : List ElseIfBlock}
  {converted : Statement}
  (h : IfImage inner body condition statements elseStatements elseIfs converted)
  (hparts : ∀ part, inner.Keeps part)
include h hparts

/-- The forks of an `If` are those of its branches, between marks of its own. -/
theorem forks : forksOf converted.outline = .if :: forksIn statements ++
      elseForks (elseStatements.elim [] fun last => .else :: forksIn last) elseIfs ++ [.endIf] := by
  induction h with
  | only _ hbranch =>
    simp [Statement.outline, outline_thenBranch, (hbranch.kept hparts).forks, Mark.fork?, elseForks]
  | withElse _ hbranch helse =>
    simp [Statement.outline, outline_thenBranch, outline_embedded, (hbranch.kept hparts).forks,
      (helse.kept hparts).forks, Mark.fork?, elseForks]
  | @elseIf _ _ _ block _ _ _ _ _ hbranch hrest ih =>
    obtain ⟨_, _, trivia⟩ := block
    obtain ⟨test, branch, elseBody, rfl⟩ := hrest.exists_if
    have hheader := (headerIntoBranch_outline_endsOpen trivia test branch elseBody).1.trans ih
    simp [Statement.outline, outline_thenBranch, (hbranch.kept hparts).forks, hheader, Mark.fork?,
      elseForks]

/-- An `If` ends open without an `Else`, or with one that does. -/
theorem endsOpen_iff : converted.endsOpen ↔
    elseStatements = none ∨ ∃ last, elseStatements = some last ∧ Opens last := by
  induction h with
  | only => simp [Statement.endsOpen]
  | withElse _ _ helse => simp [Statement.endsOpen, (helse.kept hparts).endsOpen]
  | elseIf _ _ hrest ih =>
    obtain ⟨test, branch, elseBody, rfl⟩ := hrest.exists_if
    rw [← ih, Statement.endsOpen, (headerIntoBranch_outline_endsOpen _ test branch elseBody).2]

/-- An `else` dangles in an `If` if a branch before an `Else` captures it. -/
theorem dangles_iff (trivia : Trivia) : (headerIntoBranch trivia converted).Dangles ↔
      (∃ branch ∈ Source.elsedBranches trivia.isEmpty statements elseStatements.isSome elseIfs,
        CapturesElse branch) ∨
      ElseLost (statements ++ elseIfs.flatMap (·.statements) ++ elseStatements.getD []) := by
  induction h generalizing trivia with
  | only _ hbranch =>
    rw [dangles_headerIntoBranch, dangles_thenBranch, (hbranch.kept hparts).dangling]
    simp [Source.elsedBranches]
  | withElse _ hbranch helse =>
    have hlist := hbranch.kept hparts
    rw [dangles_headerIntoBranch_else, dangles_thenBranch, dangles_embedded, hlist.dangling,
      (helse.kept hparts).dangling, hlist.captures]
    simp [Source.elsedBranches]
  | elseIf _ hbranch _ ih =>
    have hlist := hbranch.kept hparts
    rw [dangles_headerIntoBranch_else, dangles_thenBranch, hlist.dangling, hlist.captures, ih,
      Source.elsedBranches]
    cases trivia.isEmpty <;> simp [or_assoc, or_left_comm]

/-- An `If` keeps its `else` branches. -/
theorem kept {kind : StatementKind} (hkind : kind.statements = statements ++
      elseIfs.flatMap (·.statements) ++ elseStatements.getD [])
    (hforks : kind.forks = .if :: forksIn statements ++
      elseForks (elseStatements.elim [] fun last => .else :: forksIn last) elseIfs ++ [.endIf])
    (helsed : kind.elsedBranches =
      Source.elsedBranches true statements elseStatements.isSome elseIfs)
    (hopen : kind.isOpenIf = elseStatements.isNone) (hunbraced : kind.unbraced? = elseStatements)
    (hif : kind.isIf = true) : Kept kind [converted] := by
  have hheader : headerIntoBranch {} converted = converted := rfl
  have hsilent : kind.isSilent = false := by
    cases kind <;> first | rfl | cases hif
  refine .singleton ?_ ?_ hsilent ⟨?_, ?_, ?_⟩
  · rw [h.forks hparts, hforks]
  · rw [← hheader, h.dangles_iff hparts, StatementKind.losesElse_iff, helsed, hkind]
    rfl
  · obtain ⟨_, _, _, rfl⟩ := h.exists_if
    exact fun _ _ => nofun
  · rw [h.endsOpen_iff hparts]
    simp [StatementKind.Opens, hopen, hunbraced]
  · obtain ⟨_, _, _, rfl⟩ := h.exists_if
    exact hif.symm

end IfImage

/-! ## Blocks -/

/-- The sections of a `Select`, one for each case. -/
theorem kept_sections {cases : List CaseBlock} {sections : List Target.SwitchSection}
    (h : Forall₂ (SectionImage inner body) cases sections)
    (hparts : ∀ part, inner.Keeps part) :
    forksOf (Target.sectionOutlines sections) = Source.caseForks cases ∧
      (Dangling (sections.flatMap (·.statements)) ↔ ElseLost (cases.flatMap (·.statements))) := by
  induction h with
  | nil => simp [Target.sectionOutlines, Source.caseForks]
  | @cons block converted rest others hfirst _ ih =>
    obtain ⟨_, -, hstatements, hconverted⟩ := hfirst
    cases block
    obtain ⟨hforks, hdangling⟩ := ih
    have hlist := hstatements.kept hparts
    constructor
    · rw [Target.forksOf_sectionOutlines_cons, hforks, hconverted, outlines_sectionBody,
        outlines_attachHeader, hlist.forks, Source.caseForks]
    · rw [flatMap_cons, flatMap_cons, Target.dangling_append, hdangling, hconverted,
        dangling_sectionBody, dangling_attachHeader, hlist.dangling, Source.elseLost_append]

/-- The handlers of a `Try`, one by one. -/
theorem kept_catches {catches : List CatchBlock} {clauses : List Target.CatchClause}
    (h : Forall₂ (CatchImage inner body) catches clauses)
    (hparts : ∀ part, inner.Keeps part) :
    forksOf (Target.catchOutlines clauses) = Source.catchForks catches ∧
      (Dangling (clauses.flatMap (·.body)) ↔ ElseLost (catches.flatMap (·.statements))) := by
  induction h with
  | nil => simp [Target.catchOutlines, Source.catchForks]
  | @cons block converted rest others hfirst _ ih =>
    obtain ⟨_, -, -, hstatements, hconverted⟩ := hfirst
    cases block
    obtain ⟨hforks, hdangling⟩ := ih
    have hlist := hstatements.kept hparts
    constructor
    · rw [Target.forksOf_catchOutlines_cons, hforks, hconverted, outlines_attachHeader, hlist.forks,
        Source.catchForks]
    · rw [flatMap_cons, flatMap_cons, Target.dangling_append, hdangling, hconverted,
        dangling_attachHeader, hlist.dangling, Source.elseLost_append]

/-- A block with one list of statements inside. -/
theorem Kept.block {kind : StatementKind} {single : Statement}
    {statements : List Source.Statement} {converted : List Statement}
    (hlist : KeptList statements converted) (hforks : kind.forks = forksIn statements)
    (hparts : kind.statements = statements) (hkind : kind.isClosed)
    (houtline : forksOf single.outline = forksOf (outlines converted))
    (hdangling : Dangling single.statements ↔ Dangling converted) (hsingle : single.isClosed) :
    Kept kind [single] := by
  refine .closed ?_ ?_ hkind hsingle
  · rw [houtline, hlist.forks, hforks]
  · rw [hdangling, hlist.dangling, hparts]

/-- An `Exit` becomes a statement without others inside. -/
theorem Body.exit_isLeaf {block : Source.BlockKind} {converted : Statement}
    (h : body.exit block = .ok converted) : converted.isLeaf := by
  obtain h | h := Body.exit_eq_ok h
  · rw [(Body.leaveBlock_eq_ok h).1]
    rfl
  · obtain rfl | ⟨_, rfl, -⟩ := Body.leave_eq_ok h <;> rfl

/-- Every line of the table keeps the `else` branches. -/
theorem Image.kept {kind : StatementKind} {converted : List Statement}
    (h : Image inner body kind converted) (hparts : ∀ part, inner.Keeps part) :
    Kept kind converted := by
  cases h with
  | @localDeclaration modifiers declarators _ _ declared h =>
    have hnil := Inner.variableLists_eq_nil_iff h
    have hopens : ¬ (StatementKind.localDeclaration modifiers declarators).Opens := by
      rintro (hopen | ⟨_, hpart, -⟩)
      · cases hopen
      · cases hpart
    refine ⟨?_, ?_, ?_, ?_, fun h => absurd h hopens⟩
    · clear h hnil
      induction declared with
      | nil => rfl
      | cons group rest ih => exact ih
    · rw [StatementKind.losesElse_iff_parts rfl]
      refine iff_of_false ?_ Source.not_elseLost_nil
      rintro ⟨_, hstatement, hdangles⟩
      obtain ⟨_, -, rfl⟩ := mem_map.mp hstatement
      cases hdangles with
      | inside hpart => cases hpart
    · rw [map_eq_nil_iff, hnil]
      rfl
    · intro single hsingle
      obtain ⟨_, -, rfl⟩ := mem_map.mp (hsingle ▸ mem_singleton_self single)
      exact ⟨fun _ _ => nofun, iff_of_false Bool.false_ne_true hopens, rfl⟩
  | expression h | call h =>
    obtain ⟨_, rfl⟩ := Inner.expressionStatement_gives h
    exact .leaf rfl rfl rfl rfl
  | assignment | throw | yield | raiseEvent | addHandler | removeHandler | stop | «end» =>
    exact .leaf rfl rfl rfl rfl
  | @«return» _ converted =>
    refine .leaf rfl rfl rfl ?_
    cases converted with
    | none =>
      cases hiterator : body.isIterator <;> simp [Body.leaveWith, hiterator, Statement.isLeaf]
    | some converted => rfl
  | exit h => exact .leaf rfl rfl rfl (Body.exit_isLeaf h)
  | «continue» h =>
    rw [(Body.resume_eq_ok h).1]
    exact .leaf rfl rfl rfl rfl
  | @singleLineIf _ _ elseStatements _ h =>
    cases elseStatements with
    | none | some last =>
      refine h.kept hparts ?_ ?_ rfl rfl rfl rfl
      · simp [StatementKind.statements]
      · simp [StatementKind.forks, elseForks]
  | @multiLineIf _ _ _ elseStatements _ h =>
    cases elseStatements with
    | none | some last => exact h.kept hparts rfl (by simp [StatementKind.forks]) rfl rfl rfl rfl
  | «for» _ _ _ hbody | forEach _ _ hbody | «while» _ hbody | doFirst _ hbody | doForever hbody =>
    exact .loop (hbody.kept hparts) rfl rfl rfl
  | doLast _ hbody | syncLock _ hbody | usingValue _ hbody =>
    exact .block (hbody.kept hparts) rfl rfl rfl (by simp [Statement.outline, Mark.fork?])
      (by simp [Statement.statements]) rfl
  | select _ hcases =>
    obtain ⟨hforks, hdangling⟩ := kept_sections hcases hparts
    refine .closed ?_ hdangling rfl rfl
    rw [Statement.outline, Target.forksOf_cons, Target.forksOf_braced, hforks, StatementKind.forks]
    rfl
  | «with» _ hbody =>
    refine .block (hbody.kept hparts) rfl rfl rfl ?_ ?_ rfl
    · rw [Statement.outline_block, Target.forksOf_braced, Target.outlines_cons]
      rfl
    · simp [Statement.statements, Statement.localVariable, Statement.dangles_iff]
  | «try» hbody hcatches =>
    have hlist := hbody.kept hparts
    obtain ⟨hforks, hdangling⟩ := kept_catches hcatches hparts
    refine .closed ?_ ?_ rfl rfl
    · simp [Statement.outline, Mark.fork?, StatementKind.forks, hforks, hlist.forks]
    · simp [Statement.statements, StatementKind.statements, hdangling, hlist.dangling]
  | tryFinally hbody hcatches hlast =>
    have hlist := hbody.kept hparts
    have hend := hlast.kept hparts
    obtain ⟨hforks, hdangling⟩ := kept_catches hcatches hparts
    refine .closed ?_ ?_ rfl rfl
    · simp [Statement.outline, Mark.fork?, StatementKind.forks, hforks, hlist.forks, hend.forks]
    · simp [Statement.statements, StatementKind.statements, hdangling, hlist.dangling,
        hend.dangling]
  | usingVariables _ hbody =>
    obtain ⟨hforks, hdangles, hclosed⟩ := resources_facts _ _
    refine .block (hbody.kept hparts) rfl rfl rfl hforks ?_ hclosed
    rw [← Statement.dangles_iff_of_isClosed hclosed, hdangles]

/-! ## Whole bodies -/

/-- The `else` branches of a body and of what it becomes. An `else` dangles in the result exactly if
the body loses one; if it does not, then reading the printed text gives back the forks of the body.
-/
structure SameElse (source : List Source.Statement) (output : List Statement) : Prop where
  dangling_iff : Dangling output ↔ ElseLost source
  read_back : ¬ ElseLost source → ∀ level, Target.wordsLayout (Target.lineWords level output) =
        (Target.statementLayouts level output).flatMap (· ++ [.newline]) ∧
      ∃ outline, Target.readBody (Target.wordsMarks (Target.lineWords level output)) =
        some outline ∧ forksOf outline = forksIn source

/-- So does every converted body. -/
theorem Inner.Converts.sameElse {setting : Setting} {levels : Nat} {source : List Source.Statement}
    {output : List Statement} (hconverts : (Inner.at setting levels).Converts body source output) :
    SameElse source output := by
  have h := hconverts.kept
    (Inner.statement_induction (fun himage ih => ⟨_, himage.kept ih, rfl⟩) levels)
  refine ⟨h.dangling, fun hkept level => ?_⟩
  obtain ⟨hlayout, hmarks⟩ := Target.spell_words.2.2.1 level output
  refine ⟨hlayout, outlines output, ?_, h.forks⟩
  rw [hmarks]
  refine Target.readBody_printed fun statement hstatement hdangles => hkept ?_
  exact h.dangling.mp ⟨statement, hstatement, hdangles⟩

/-- Which statements lose an `else`, in a converted body and in the bodies of all lambdas inside it:
just those with a branch before an `Else` that is nothing but a loop around an `If` without one.
Everywhere else the printed text is read back with the `If` and `Else` structure of the source. -/
theorem else_read_back_unless_captured (setting : Setting) (body : Body)
    (source : List Source.Statement) (surroundings : Surroundings) (output : List Statement)
    (h : (convertStatements setting body source surroundings).1 = .ok output) :
    SameElse source output ∧ ∀ statement ∈ output,
      (Target.Node.statement statement).EachBody fun block =>
        ∃ part ∈ source, ∃ statements, (Source.Node.statement part).HasBody statements ∧
          SameElse statements block := by
  obtain ⟨_, hconverts⟩ := converts_of_convertStatements h
  refine ⟨hconverts.sameElse, fun statement hstatement block hblock => ?_⟩
  obtain ⟨part, hpart, statements, hbody, _, _, -, hinside⟩ :=
    hconverts.bodies_from statement hstatement block hblock
  exact ⟨part, hpart, statements, hbody, hinside.sameElse⟩

/-- An `If` in a branch gets braces, and so does a loop with the comment of an `ElseIf` before it.
-/
theorem nested_if_read_back :
    let stop : Source.Statement := ⟨0, .return none, {}⟩
    let inner : Source.Statement := ⟨1, .singleLineIf (.me 2) [stop] none, {}⟩
    let loop : Source.Statement := ⟨3, .while (.me 4) [inner], {}⟩
    let source : List Source.Statement :=
      [⟨5, .multiLineIf (.me 6) [inner] [⟨.me 7, [loop], { leading := ["'otherwise"] }⟩]
        (some [stop]), {}⟩]
    ∃ output, (convertStatements {} ⟨.procedure, false, []⟩ source {}).1 = .ok output ∧
      ¬ ElseLost source ∧ ∃ outline,
        Target.readBody (Target.wordsMarks (Target.lineWords 0 output)) = some outline ∧
          forksOf outline = [.if, .if, .endIf, .else, .if, .if, .endIf, .else, .endIf, .endIf] := by
  intro stop inner loop source
  have hkept : ¬ ElseLost source := by
    simp [source, loop, inner, stop, StatementKind.losesElse_iff, StatementKind.elsedBranches,
      Source.elsedBranches, StatementKind.statements, CapturesElse, lone?, loud,
      StatementKind.isSilent, StatementKind.isIf, Trivia.isEmpty]
  obtain ⟨output, houtput⟩ :
    ∃ output, (convertStatements {} ⟨.procedure, false, []⟩ source {}).1 = .ok output := ⟨_, rfl⟩
  obtain ⟨hsame, -⟩ := else_read_back_unless_captured {} _ source {} output houtput
  obtain ⟨-, outline, hread, hforks⟩ := hsame.read_back hkept 0
  exact ⟨output, houtput, hkept, outline, hread, hforks⟩

/-- A loop in a branch gets none: the `else` of the outer `if` is read as one of the inner `if`. -/
theorem else_captured_by_loop :
    let stop : Source.Statement := ⟨0, .return none, {}⟩
    let inner : Source.Statement := ⟨1, .singleLineIf (.me 2) [stop] none, {}⟩
    let loop : Source.Statement := ⟨3, .while (.me 4) [inner], {}⟩
    let source : List Source.Statement := [⟨5, .multiLineIf (.me 6) [loop] [] (some [stop]), {}⟩]
    ∃ output, (convertStatements {} ⟨.procedure, false, []⟩ source {}).1 = .ok output ∧
      Dangling output ∧ ∃ outline,
        Target.readBody (Target.wordsMarks (Target.lineWords 0 output)) = some outline ∧
          forksOf outline = [.if, .if, .else, .endIf, .endIf] ∧
          forksIn source = [.if, .if, .endIf, .else, .endIf] := by
  refine ⟨[.if .this (.while .this (.if .this (.return none) none)) (some (.return none))], rfl, ?_,
    [.if, .head, .if, .plain, .else, .plain, .endIf, .endIf], ?_, rfl, rfl⟩
  · exact ⟨_, mem_singleton_self _, .here rfl⟩
  · decide +kernel

end Sharpen
