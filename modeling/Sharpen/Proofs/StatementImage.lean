import Sharpen.Proofs.Outcome

/-!
# What statements become

`Image inner body kind converted` is the table of the conversion of statements: which statements of
the target stand for a statement of the source, in terms of what its parts are converted to. Each
rule of the conversion has one line in it, or one for each form of its result.
`Source.Statement.image_of_gives` says that the rules give nothing else.

The table leaves the parts to `inner`. What holds of whole trees follows by induction on the levels
of converters, from what the table says about one level.
-/

namespace Sharpen

open List
open Except (ok)
open Source (Expr Statement StatementKind ElseIfBlock CaseBlock CatchBlock BlockKind)

/-! ## Jumps -/

namespace Body

variable {body : Body} {block : BlockKind} {converted : Target.Statement}

/-- A block is only left if it is the innermost one. -/
theorem leaveBlock_eq_ok (h : body.leaveBlock block = .ok converted) :
    converted = .break ∧ body.breakables.head? = some block := by
  unfold leaveBlock at h
  dsimp only at h
  split at h
  · next heq =>
    split at h
    · next hsame =>
      obtain rfl := ok.inj h
      rw [heq, hsame]
      exact ⟨rfl, rfl⟩
    · cases h
  · cases h

/-- A loop is only resumed if it is the innermost one. -/
theorem resume_eq_ok (h : body.resume block = .ok converted) :
    converted = .continue ∧ body.breakables.find? (· != .select) = some block := by
  unfold resume at h
  dsimp only at h
  split at h
  · next heq =>
    split at h
    · next hsame =>
      obtain rfl := ok.inj h
      rw [heq, hsame]
      exact ⟨rfl, rfl⟩
    · cases h
  · cases h

/-- What leaves a whole body: the end of an iterator, or a return, with a default value where one is
due. -/
theorem leave_eq_ok (h : body.leave = .ok converted) :
    converted = .yieldBreak ∨ ∃ value, converted = .return value ∧ ∀ result ∈ value,
      result = unknownDefault ∨ ∃ type : Model.TypeSymbol, type.defaultValue? = some result := by
  unfold leave at h
  split at h
  · obtain rfl := ok.inj h
    exact .inl rfl
  refine .inr ?_
  split at h
  · obtain rfl := ok.inj h
    exact ⟨none, rfl, fun _ hnone => nomatch hnone⟩
  split at h
  · obtain rfl := ok.inj h
    exact ⟨some unknownDefault, rfl, fun result hresult => .inl (Option.some.inj hresult).symm⟩
  · next type _ =>
    split at h
    · next value hvalue =>
      obtain rfl := ok.inj h
      exact ⟨some value, rfl, fun result hresult => .inr ⟨type, Option.some.inj hresult ▸ hvalue⟩⟩
    · cases h

/-- `Exit` leaves a block of the body, or the body. -/
theorem exit_eq_ok (h : body.exit block = .ok converted) :
    body.leaveBlock block = .ok converted ∨ body.leave = .ok converted := by
  cases block with
  | «do» | «for» | «while» | select => exact .inl h
  | «try» => cases h
  | sub | function | property | operator => exact .inr h

end Body

/-! ## The table -/

/-- What an `If` with its `ElseIf` blocks becomes. -/
inductive IfImage (inner : Inner) (body : Body) :
    Expr → List Statement → Option (List Statement) → List ElseIfBlock →
      Target.Statement → Prop where
  | only {condition statements test branch} (htest : (inner.value condition).Gives test)
      (hbranch : inner.Converts body statements branch) :
      IfImage inner body condition statements none [] (.if test (thenBranch false branch) none)
  | withElse {condition statements elseStatements test branch elseBranch}
      (htest : (inner.value condition).Gives test) (hbranch : inner.Converts body statements branch)
      (helse : inner.Converts body elseStatements elseBranch) :
      IfImage inner body condition statements (some elseStatements) []
        (.if test (thenBranch true branch) (some (embedded elseBranch)))
  | elseIf {condition statements elseStatements block rest test branch chained}
      (htest : (inner.value condition).Gives test) (hbranch : inner.Converts body statements branch)
      (hrest : IfImage inner body block.condition block.statements elseStatements rest chained) :
      IfImage inner body condition statements elseStatements (block :: rest)
        (.if test (thenBranch true branch) (some (headerIntoBranch block.trivia chained)))

/-- The comments of an `ElseIf` header go to the start of the branch, which gets braces for them. -/
theorem headerIntoBranch_if (trivia : Trivia) (condition : Target.Expr) (branch : Target.Statement)
    (elseBody : Option Target.Statement) :
    trivia.isEmpty ∧ headerIntoBranch trivia (.if condition branch elseBody) =
        .if condition branch elseBody ∨
      ¬ trivia.isEmpty ∧ ∃ statements, (branch = .block statements ∨ statements = [branch]) ∧
        headerIntoBranch trivia (.if condition branch elseBody) =
          .if condition (.block (attachHeader trivia statements)) elseBody := by
  unfold headerIntoBranch
  split
  · next hempty => exact .inl ⟨hempty, rfl⟩
  · next hempty =>
    refine .inr ⟨hempty, ?_⟩
    split
    · next heq =>
      cases heq
      exact ⟨_, .inl rfl, rfl⟩
    · next heq =>
      cases heq
      exact ⟨_, .inr rfl, rfl⟩
    · next hother => exact absurd rfl (hother _ _ _)

/-- The statements of a `Case`, which never run into the next one. -/
def endedCase (statements : List Target.Statement) : List Target.Statement :=
  if statements.getLast?.any Target.Statement.isJump then statements else statements ++ [.break]

/-- A `Case` with variables of its own has braces around it. -/
theorem sectionBody_eq (statements : List Target.Statement) :
    sectionBody statements = [.block (endedCase statements)] ∨ sectionBody statements =
      endedCase statements := by
  have hsection : sectionBody statements =
      if (endedCase statements).any Target.Statement.isLocalDeclaration then [.block
        (endedCase statements)]
      else endedCase statements := rfl
  rw [hsection]
  split
  · exact .inl rfl
  · exact .inr rfl

/-- What a `Case` block becomes. -/
def SectionImage (inner : Inner) (body : Body) (block : CaseBlock)
    (converted : Target.SwitchSection) : Prop :=
  ∃ statements, Forall₂ (fun clause label => (inner.switchLabel clause).Gives label)
      block.clauses converted.labels ∧
    inner.Converts (body.inside .select) block.statements statements ∧
    converted.statements = sectionBody (attachHeader block.trivia statements)

/-- What a `Catch` block becomes. -/
def CatchImage (inner : Inner) (body : Body) (block : CatchBlock)
    (converted : Target.CatchClause) : Prop :=
  ∃ statements, (inner.catchHeader block).Gives converted.header ∧
    (inner.value? block.filter).Gives converted.filter ∧
    inner.Converts body block.statements statements ∧
    converted.body = attachHeader block.trivia statements

/-- What a statement becomes, its comments apart. -/
inductive Image (inner : Inner) (body : Body) : StatementKind → List Target.Statement → Prop where
  | localDeclaration {modifiers declarators site converted declared}
      (h : (inner.variableLists site declarators).Gives declared)
      (hsite : site = if modifiers.contains .const then .constant else .local)
      (hmodifiers : Modifiers.convert .local modifiers = .ok converted) :
      Image inner body (.localDeclaration modifiers declarators)
        (declared.map (.localDeclaration converted))
  | expression {value converted} (h : (inner.expressionStatement value).Gives converted) :
      Image inner body (.expression value) [converted]
  | call {value converted} (h : (inner.expressionStatement value).Gives converted) :
      Image inner body (.call value) [converted]
  | assignment {operator token left right assigned value}
      (hleft : (inner.value left).Gives assigned)
      (hright : (inner.value right).Gives value) (htoken : operator.convert = .ok token) :
      Image inner body (.assignment operator left right)
        [.expression (.assignment assigned token value)]
  | return {value converted} (h : (inner.value? value).Gives converted) :
      Image inner body (.return value) [body.leaveWith converted]
  | exit {block converted} (h : body.exit block = .ok converted) :
      Image inner body (.exit block) [converted]
  | continue {block converted} (h : body.resume block = .ok converted) :
      Image inner body (.continue block) [converted]
  | throw {value converted} (h : (inner.value? value).Gives converted) :
      Image inner body (.throw value) [.throw converted]
  | yield {value converted} (h : (inner.value value).Gives converted) :
      Image inner body (.yield value) [.yieldReturn converted]
  | raiseEvent {name arguments converted} (h : (inner.arguments none arguments).Gives converted) :
      Image inner body (.raiseEvent name arguments)
        [.expression (.conditionalAccess (.identifier (convertIdentifier name.identifier))
          (.invocation (.memberBinding "Invoke") converted))]
  | addHandler {event handler assigned value} (hevent : (inner.value event).Gives assigned)
      (hhandler : (inner.value handler).Gives value) :
      Image inner body (.addHandler event handler) [.expression (.assignment assigned .add value)]
  | removeHandler {event handler assigned value} (hevent : (inner.value event).Gives assigned)
      (hhandler : (inner.value handler).Gives value) :
      Image inner body (.removeHandler event handler)
        [.expression (.assignment assigned .subtract value)]
  | singleLineIf {condition statements elseStatements converted}
      (h : IfImage inner body condition statements elseStatements [] converted) :
      Image inner body (.singleLineIf condition statements elseStatements) [converted]
  | multiLineIf {condition statements elseIfs elseStatements converted}
      (h : IfImage inner body condition statements elseStatements elseIfs converted) :
      Image inner body (.multiLineIf condition statements elseIfs elseStatements) [converted]
  | for {id control start limit step statements counter opening last comparison descends increment
      converted}
      (hopening : (inner.forOpening id control start).Gives (counter, opening))
      (hlimit : (inner.value limit).Gives last)
      (hstep : (inner.forStep counter step).Gives (descends, increment))
      (hbody : inner.Converts (body.inside .for) statements converted)
      (hcomparison : comparison = if descends then .greaterThanOrEqual else .lessThanOrEqual) :
      Image inner body (.for control start limit step statements)
        [.for opening (some (.binary counter comparison last)) [increment] (embedded converted)]
  | forEach {control items statements type identifier sequence converted}
      (hvariable : (Inner.forEachVariable control).Gives (type, identifier))
      (hitems : (inner.value items).Gives sequence)
      (hbody : inner.Converts (body.inside .for) statements converted) :
      Image inner body (.forEach control items statements)
        [.forEach type identifier sequence (embedded converted)]
  | while {condition statements test converted} (htest : (inner.value condition).Gives test)
      (hbody : inner.Converts (body.inside .while) statements converted) :
      Image inner body (.while condition statements) [.while test (embedded converted)]
  | doFirst {kind condition statements test converted}
      (htest : (inner.goesOn kind condition).Gives test)
      (hbody : inner.Converts (body.inside .do) statements converted) :
      Image inner body (.doLoop (.present kind condition) .absent statements)
        [.while test (embedded converted)]
  | doLast {kind condition statements test converted}
      (htest : (inner.goesOn kind condition).Gives test)
      (hbody : inner.Converts (body.inside .do) statements converted) :
      Image inner body (.doLoop .absent (.present kind condition) statements)
        [.do (.block converted) test]
  | doForever {statements converted}
      (hbody : inner.Converts (body.inside .do) statements converted) :
      Image inner body (.doLoop .absent .absent statements)
        [.while (.literal (.bool true)) (embedded converted)]
  | select {subject cases value sections} (hsubject : (inner.value subject).Gives value)
      (hcases : Forall₂ (SectionImage inner body) cases sections) :
      Image inner body (.select subject cases) [.switch value sections]
  | with {target statements value name converted} (htarget : (inner.value target).Gives value)
      (hbody : inner.Converts body statements converted) :
      Image inner body (.with target statements)
        [.block (.localVariable .var name (some value) :: converted)]
  | try {statements catches converted clauses} (hbody : inner.Converts body statements converted)
      (hcatches : Forall₂ (CatchImage inner body) catches clauses) :
      Image inner body (.try statements catches none) [.try converted clauses none]
  | tryFinally {statements catches finallyStatements converted clauses last}
      (hbody : inner.Converts body statements converted)
      (hcatches : Forall₂ (CatchImage inner body) catches clauses)
      (hlast : inner.Converts body finallyStatements last) :
      Image inner body (.try statements catches (some finallyStatements))
        [.try converted clauses (some last)]
  | syncLock {subject statements value converted} (hsubject : (inner.value subject).Gives value)
      (hbody : inner.Converts body statements converted) :
      Image inner body (.syncLock subject statements) [.lock value (.block converted)]
  | usingValue {resource statements value converted} (hvalue : (inner.value resource).Gives value)
      (hbody : inner.Converts body statements converted) :
      Image inner body (.usingValue resource statements)
        [.using (.expressions [value]) (.block converted)]
  | usingVariables {resources statements first others converted}
      (hdeclared : (inner.variableLists .local resources).Gives (first :: others))
      (hbody : inner.Converts body statements converted) :
      Image inner body (.usingVariables resources statements)
        [(first :: others).foldr (fun group rest => .using (.declared group) rest)
          (.block converted)]
  | stop : Image inner body .stop [Inner.runtimeCall "System.Diagnostics.Debugger.Break" []]
  | end : Image inner body .end [Inner.runtimeCall "System.Environment.Exit" [.number "0"]]

/-! ## The rules follow the table -/

section Rules

variable {inner : Inner} {body : Body}

variable {statements : List Statement} {converted : Target.Statement}

theorem IfImage.of_gives {condition : Expr} {elseStatements : Option (List Statement)}
    {elseIfs : List ElseIfBlock}
    (h : (inner.ifChain body condition statements elseStatements elseIfs).Gives converted) :
    IfImage inner body condition statements elseStatements elseIfs converted := by
  induction elseIfs generalizing condition statements converted with
  | nil =>
    obtain ⟨_, htest, h⟩ := h.bind
    obtain ⟨_, hbranch, h⟩ := h.bind
    cases elseStatements with
    | none =>
      obtain rfl := h.pure
      exact .only htest hbranch.converts
    | some elseStatements =>
      obtain ⟨_, helse, rfl⟩ := h.map
      exact .withElse htest hbranch.converts helse.converts
  | cons block rest ih =>
    obtain ⟨_, htest, h⟩ := h.bind
    obtain ⟨_, hbranch, h⟩ := h.bind
    obtain ⟨_, hchained, rfl⟩ := h.map
    exact .elseIf htest hbranch.converts (ih hchained)

theorem SectionImage.of_gives {block : CaseBlock} {converted : Target.SwitchSection}
    (h : (inner.switchSection body block).Gives converted) :
    SectionImage inner body block converted := by
  obtain ⟨_, hlabels, h⟩ := h.bind
  obtain ⟨statements, hstatements, rfl⟩ := h.map
  exact ⟨statements, hlabels.mapM, hstatements.converts, rfl⟩

theorem CatchImage.of_gives {block : CatchBlock} {converted : Target.CatchClause}
    (h : (inner.catchClause body block).Gives converted) :
    CatchImage inner body block converted := by
  obtain ⟨_, hheader, h⟩ := h.bind
  obtain ⟨_, hfilter, h⟩ := h.bind
  obtain ⟨statements, hstatements, rfl⟩ := h.map
  exact ⟨statements, hheader, hfilter, hstatements.converts, rfl⟩

/-- The body of a loop holds what its statements became. -/
theorem Inner.loopBody_gives {block : BlockKind}
    (h : (inner.loopBody body block statements).Gives converted) :
    ∃ list, inner.Converts (body.inside block) statements list ∧ converted = embedded list := by
  obtain ⟨list, hlist, rfl⟩ := h.map
  exact ⟨list, hlist.converts, rfl⟩

theorem Image.doLoop {top bottom : Source.LoopTest}
    (h : (inner.doLoop body top bottom statements).Gives converted) :
    Image inner body (.doLoop top bottom statements) [converted] := by
  unfold Inner.doLoop at h
  split at h
  · obtain ⟨_, htest, h⟩ := h.bind
    obtain ⟨_, hloop, rfl⟩ := h.map
    obtain ⟨_, hlist, rfl⟩ := Inner.loopBody_gives hloop
    exact .doFirst htest hlist
  · obtain ⟨_, hlist, h⟩ := h.bind
    obtain ⟨_, htest, rfl⟩ := h.map
    exact .doLast htest hlist.converts
  · obtain ⟨_, hloop, rfl⟩ := h.map
    obtain ⟨_, hlist, rfl⟩ := Inner.loopBody_gives hloop
    exact .doForever hlist
  · exact h.unsupported.elim

theorem Image.tryBlock {catches : List CatchBlock} {finallyStatements : Option (List Statement)}
    (h : (inner.tryBlock body statements catches finallyStatements).Gives converted) :
    Image inner body (.try statements catches finallyStatements) [converted] := by
  obtain ⟨_, hlist, h⟩ := h.bind
  obtain ⟨clauses, hclauses, h⟩ := h.bind
  have hcatches : Forall₂ (CatchImage inner body) catches clauses :=
    hclauses.mapM.imp fun _ _ => CatchImage.of_gives
  cases finallyStatements with
  | none =>
    obtain rfl := h.pure
    exact .try hlist.converts hcatches
  | some finallyStatements =>
    obtain ⟨_, hlast, rfl⟩ := h.map
    exact .tryFinally hlist.converts hcatches hlast.converts

theorem Image.usingBlock {resources : List Source.Declarator}
    (h : (inner.usingVariables body resources statements).Gives converted) :
    Image inner body (.usingVariables resources statements) [converted] := by
  obtain ⟨declared, hdeclared, h⟩ := h.bind
  cases declared with
  | nil => exact h.unsupported.elim
  | cons first others =>
    obtain ⟨_, hlist, rfl⟩ := h.map
    exact .usingVariables hdeclared hlist.converts

/-- **The table is complete**: a rule gives nothing that the table does not have. -/
theorem Source.Statement.image_of_gives {statement : Statement} {converted : List Target.Statement}
    (h : (statement.convertKind inner body).Gives converted) :
    Image inner body statement.kind converted := by
  obtain ⟨_, kind⟩ := statement
  cases kind with
  | localDeclaration =>
    obtain ⟨_, hwritten, h⟩ := h.bind
    obtain ⟨_, hdeclared, rfl⟩ := h.map
    exact .localDeclaration hdeclared rfl hwritten.ofExcept
  | expression =>
    obtain ⟨_, hconverted, rfl⟩ := h.map
    exact .expression hconverted
  | call =>
    obtain ⟨_, hconverted, rfl⟩ := h.map
    exact .call hconverted
  | assignment =>
    obtain ⟨_, hrule, rfl⟩ := h.map
    obtain ⟨_, hassigned, hrule⟩ := hrule.bind
    obtain ⟨_, htoken, hrule⟩ := hrule.bind
    obtain ⟨_, hvalue, rfl⟩ := hrule.map
    exact .assignment hassigned hvalue htoken.ofExcept
  | «return» =>
    obtain ⟨_, hconverted, rfl⟩ := h.map
    exact .return hconverted
  | exit =>
    obtain ⟨_, hconverted, rfl⟩ := h.map
    exact .exit hconverted.ofExcept
  | «continue» =>
    obtain ⟨_, hconverted, rfl⟩ := h.map
    exact .continue hconverted.ofExcept
  | throw =>
    obtain ⟨_, hconverted, rfl⟩ := h.map
    exact .throw hconverted
  | yield =>
    obtain ⟨_, hconverted, rfl⟩ := h.map
    exact .yield hconverted
  | raiseEvent _ arguments =>
    obtain ⟨_, hrule, rfl⟩ := h.map
    obtain ⟨_, harguments, rfl⟩ := hrule.map
    exact .raiseEvent harguments
  | addHandler =>
    obtain ⟨_, hrule, rfl⟩ := h.map
    obtain ⟨_, hassigned, hrule⟩ := hrule.bind
    obtain ⟨_, hvalue, rfl⟩ := hrule.map
    exact .addHandler hassigned hvalue
  | removeHandler =>
    obtain ⟨_, hrule, rfl⟩ := h.map
    obtain ⟨_, hassigned, hrule⟩ := hrule.bind
    obtain ⟨_, hvalue, rfl⟩ := hrule.map
    exact .removeHandler hassigned hvalue
  | singleLineIf =>
    obtain ⟨_, hconverted, rfl⟩ := h.map
    exact .singleLineIf (.of_gives hconverted)
  | multiLineIf =>
    obtain ⟨_, hconverted, rfl⟩ := h.map
    exact .multiLineIf (.of_gives hconverted)
  | «for» =>
    obtain ⟨_, hrule, rfl⟩ := h.map
    obtain ⟨⟨_, _⟩, hopening, hrule⟩ := hrule.bind
    obtain ⟨_, hlast, hrule⟩ := hrule.bind
    obtain ⟨⟨_, _⟩, hstep, hrule⟩ := hrule.bind
    obtain ⟨_, hloop, rfl⟩ := hrule.map
    obtain ⟨_, hlist, rfl⟩ := Inner.loopBody_gives hloop
    exact .for hopening hlast hstep hlist rfl
  | forEach =>
    obtain ⟨_, hrule, rfl⟩ := h.map
    obtain ⟨⟨_, _⟩, hvariable, hrule⟩ := hrule.bind
    obtain ⟨_, hsequence, hrule⟩ := hrule.bind
    obtain ⟨_, hloop, rfl⟩ := hrule.map
    obtain ⟨_, hlist, rfl⟩ := Inner.loopBody_gives hloop
    exact .forEach hvariable hsequence hlist
  | select =>
    obtain ⟨_, hrule, rfl⟩ := h.map
    obtain ⟨_, hvalue, hrule⟩ := hrule.bind
    obtain ⟨_, hsections, rfl⟩ := hrule.map
    exact .select hvalue (hsections.mapM.imp fun _ _ => SectionImage.of_gives)
  | «with» =>
    obtain ⟨_, hrule, rfl⟩ := h.map
    obtain ⟨_, hvalue, hrule⟩ := hrule.bind
    obtain ⟨_, -, hrule⟩ := hrule.bind
    obtain ⟨_, -, hrule⟩ := hrule.bind
    obtain ⟨_, hlist, rfl⟩ := hrule.map
    exact .with hvalue hlist.of_within.converts
  | «try» =>
    obtain ⟨_, hconverted, rfl⟩ := h.map
    exact .tryBlock hconverted
  | syncLock =>
    obtain ⟨_, hrule, rfl⟩ := h.map
    obtain ⟨_, hvalue, hrule⟩ := hrule.bind
    obtain ⟨_, hlist, rfl⟩ := hrule.map
    exact .syncLock hvalue hlist.converts
  | usingValue =>
    obtain ⟨_, hrule, rfl⟩ := h.map
    obtain ⟨_, hvalue, hrule⟩ := hrule.bind
    obtain ⟨_, hlist, rfl⟩ := hrule.map
    exact .usingValue hvalue hlist.converts
  | usingVariables =>
    obtain ⟨_, hconverted, rfl⟩ := h.map
    exact .usingBlock hconverted
  | «while» =>
    obtain ⟨_, hrule, rfl⟩ := h.map
    obtain ⟨_, htest, hrule⟩ := hrule.bind
    obtain ⟨_, hloop, rfl⟩ := hrule.map
    obtain ⟨_, hlist, rfl⟩ := Inner.loopBody_gives hloop
    exact .while htest hlist
  | doLoop =>
    obtain ⟨_, hconverted, rfl⟩ := h.map
    exact .doLoop hconverted
  | stop =>
    obtain rfl := h.pure
    exact .stop
  | «end» =>
    obtain rfl := h.pure
    exact .end
  | onErrorGoTo | onErrorResumeNext | resume | reDim | erase
  | goTo | label => exact h.unimplemented.elim

theorem Inner.expressionStatement_gives {value : Expr}
    (h : (inner.expressionStatement value).Gives converted) :
    ∃ result, converted = .expression result := by
  obtain ⟨_, -, h⟩ := h.bind
  dsimp only at h
  split at h
  · exact ⟨_, h.pure.symm⟩
  · exact ⟨_, h.pure.symm⟩

/-! ## Simple statements -/

/-- A statement that computes or jumps, without others inside. -/
def Source.StatementKind.isSimple : StatementKind → Bool
  | .expression _ | .call _ | .assignment .. | .return _ | .exit _ | .continue
      _ | .throw _ | .yield _
  | .raiseEvent .. | .addHandler .. | .removeHandler .. | .stop | .end => true
  | _ => false

/-- A statement that computes or jumps, without others inside. -/
def Target.Statement.isSimple : Target.Statement → Bool
  | .expression _ | .return _ | .yieldReturn _ | .yieldBreak | .break | .continue | .throw _ => true
  | _ => false

theorem Body.leaveWith_isSimple (value : Option Target.Expr) : (body.leaveWith value).isSimple := by
  cases value with
  | some value => rfl
  | none =>
    unfold Body.leaveWith
    dsimp only
    split
    · rfl
    · rfl

theorem Body.exit_isSimple {block : BlockKind} (h : body.exit block = .ok converted) :
    converted.isSimple := by
  obtain hleave | hleave := Body.exit_eq_ok h
  · obtain ⟨rfl, -⟩ := Body.leaveBlock_eq_ok hleave
    rfl
  · obtain rfl | ⟨_, rfl, -⟩ := Body.leave_eq_ok hleave
    · rfl
    · rfl

/-- A simple statement becomes one. -/
theorem Image.exists_simple {kind : StatementKind} {converted : List Target.Statement}
    (h : Image inner body kind converted) (hsimple : kind.isSimple) :
    ∃ single, converted = [single] ∧ single.isSimple := by
  cases h with
  | expression h | call h =>
    obtain ⟨_, rfl⟩ := Inner.expressionStatement_gives h
    exact ⟨_, rfl, rfl⟩
  | «return» => exact ⟨_, rfl, Body.leaveWith_isSimple _⟩
  | exit h => exact ⟨_, rfl, Body.exit_isSimple h⟩
  | «continue» h =>
    obtain ⟨rfl, -⟩ := Body.resume_eq_ok h
    exact ⟨_, rfl, rfl⟩
  | assignment | throw | yield | raiseEvent | addHandler | removeHandler | stop | «end» =>
    exact ⟨_, rfl, rfl⟩
  | _ => cases hsimple

/-! ## What becomes nothing -/

theorem addToGroup_ne_nil (type : Target.TypeSyntax) (declared : Target.Declarator)
    (groups : List Target.Variables) : addToGroup type declared groups ≠ [] := by
  cases groups with
  | nil => exact cons_ne_nil _ _
  | cons group rest =>
    rw [addToGroup]
    split <;> exact cons_ne_nil _ _

variable {declared : List Target.Variables}

theorem Inner.declaredVariables_eq_nil_iff {site : DeclaratorSite} {declarator : Source.Declarator}
    (h : (inner.declaredVariables site declarator).Gives declared) :
    declared = [] ↔ declarator.names = [] := by
  obtain ⟨pairs, hpairs, rfl⟩ := h.map
  have hlength := hpairs.mapM.length_eq
  rw [← length_eq_zero_iff (l := declarator.names), hlength, length_eq_zero_iff]
  have hfold :
    ∀ (pairs : List (Target.TypeSyntax × Target.Declarator)) (groups : List Target.Variables),
      pairs.foldl (fun groups pair => addToGroup pair.1 pair.2 groups) groups = [] ↔ pairs = [] ∧
        groups = [] := by
    intro pairs
    induction pairs with
    | nil => simp
    | cons pair rest ih =>
      intro groups
      simp [ih, addToGroup_ne_nil]
  exact (hfold pairs []).trans (and_iff_left rfl)

/-- What holds of everything that statements are converted to, by induction on the levels of the
converters. -/
theorem Inner.statement_induction {setting : Setting}
    {P : Body → Statement → List Target.Statement → Prop}
    (hstep : ∀ {levels body statement plain},
      Image (Inner.at setting levels) body statement.kind plain →
      (∀ part body converted, ((Inner.at setting levels).statement body part).Gives converted →
        P body part converted) → P body statement (attachStatements statement.trivia plain))
    (levels : Nat) (statement : Statement) (body : Body) (converted : List Target.Statement)
    (h : ((Inner.at setting levels).statement body statement).Gives converted) :
    P body statement converted := by
  induction levels generalizing statement body converted with
  | zero => exact h.unsupported.elim
  | succ levels ih =>
    obtain ⟨_, hplain, rfl⟩ := h.map
    exact hstep (Source.Statement.image_of_gives hplain.of_nested) ih

/-- Only declarations of nothing become nothing. -/
theorem Inner.variableLists_eq_nil_iff {site : DeclaratorSite}
    {declarators : List Source.Declarator}
    (h : (inner.variableLists site declarators).Gives declared) :
    declared = [] ↔ declarators.all fun declarator => declarator.names.isEmpty := by
  obtain ⟨_, hlists, rfl⟩ := h.map
  have hall := hlists.mapM
  clear hlists h
  induction hall with
  | nil => simp
  | cons hfirst _ ih =>
    have hnames := Inner.declaredVariables_eq_nil_iff hfirst
    simp only [flatten_cons, append_eq_nil_iff, hnames, ih, all_cons,
      Bool.and_eq_true, List.isEmpty_iff]

theorem Image.eq_nil_iff {kind : StatementKind} {converted : List Target.Statement}
    (h : Image inner body kind converted) : converted = [] ↔ kind.isSilent := by
  cases h with
  | localDeclaration h =>
    rw [map_eq_nil_iff, Inner.variableLists_eq_nil_iff h]
    rfl
  | _ => exact iff_of_false (cons_ne_nil _ _) Bool.false_ne_true

end Rules

end Sharpen
