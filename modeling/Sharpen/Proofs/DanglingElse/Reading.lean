import Sharpen.Proofs.Outline

/-!
# Reading `else` branches back

An `else` belongs to the nearest `if` before it that has none. `readOne` reads the marks of a
printed statement by that rule and puts the ends of `if`s back. It finds the outline that was
printed unless an `else` dangles (`Statement.Dangles`): unless the branch of an `if` with an `else`
ends, without braces in between, in an `if` without one. The main result is `readBody_printed`.
-/

namespace Sharpen.Target

open List

/-! ## Dangling `else` branches -/

/-- The statement ends, without braces in between, in an `if` without `else`. -/
def Statement.endsOpen : Statement → Bool
  | .if _ _ none => true
  | .if _ _ (some alternative) => alternative.endsOpen
  | .for _ _ _ body | .forEach _ _ _ body | .while _ body | .lock _ body | .using _ body
  | .commented _ body => body.endsOpen
  | _ => false

/-- Somewhere in the statement, in the same body, the branch of an `if` with an `else` ends open. -/
inductive Statement.Dangles : Statement → Prop where
  | here {condition : Expr} {body alternative : Statement} (h : body.endsOpen) :
      Dangles (.if condition body (some alternative))
  | inside {statement part : Statement} (hpart : part ∈ statement.statements) (h : Dangles part) :
      Dangles statement

/-! ## The reader -/

mutual

/-- Reads one statement: its outline, and what is left. -/
def readOne : (fuel : Nat) → List Mark → Option (List Mark × List Mark)
  | _ + 1, .plain :: rest => some ([.plain], rest)
  | fuel + 1, .head :: rest => do
    let (inside, rest) ← readOne fuel rest
    return (.head :: inside, rest)
  | fuel + 1, .if :: rest => do
    let (whenTrue, rest) ← readOne fuel rest
    match rest with
    | .else :: rest => do
      let (whenFalse, rest) ← readOne fuel rest
      return (.if :: whenTrue ++ .else :: whenFalse ++ [.endIf], rest)
    | rest => return (.if :: whenTrue ++ [.endIf], rest)
  | fuel + 1, .opening :: rest => do
    let (inside, rest) ← readMany fuel rest
    match rest with
    | .closing :: rest => return (braced inside, rest)
    | _ => none
  | fuel + 1, .do :: rest => do
    let (inside, rest) ← readOne fuel rest
    match rest with
    | .until :: rest => return (.do :: inside ++ [.until], rest)
    | _ => none
  | fuel + 1, .try :: rest => do
    let (inside, rest) ← readOne fuel rest
    let (handlers, rest) ← readHandlers fuel rest
    return (.try :: inside ++ handlers, rest)
  | _, _ => none

/-- Reads statements up to a closing brace or the end. -/
def readMany : (fuel : Nat) → List Mark → Option (List Mark × List Mark)
  | _ + 1, [] => some ([], [])
  | _ + 1, .closing :: rest => some ([], .closing :: rest)
  | fuel + 1, marks => do
    let (first, rest) ← readOne fuel marks
    let (others, rest) ← readMany fuel rest
    return (first ++ others, rest)
  | 0, _ => none

/-- Reads the `catch` and `finally` blocks of a `try`. -/
def readHandlers : (fuel : Nat) → List Mark → Option (List Mark × List Mark)
  | fuel + 1, .handler :: rest => do
    let (inside, rest) ← readOne fuel rest
    let (others, rest) ← readHandlers fuel rest
    return (.handler :: inside ++ others, rest)
  | _ + 1, rest => some ([], rest)
  | 0, _ => none

end

/-- Reads the statements of a whole body. -/
def readBody (marks : List Mark) : Option (List Mark) :=
  match readMany (marks.length + 1) marks with
  | some (outline, []) => some outline
  | _ => none

/-! ## Reading back what was printed -/

/-- What comes after a statement cannot be taken for a part of it. -/
structure Statement.Followed (statement : Statement) (rest : List Mark) : Prop where
  not_handler : rest.head? ≠ some .handler
  not_else : statement.endsOpen → rest.head? ≠ some .else

/-- The printed statement is read back, whatever follows it. -/
def Statement.Reads (statement : Statement) : Prop :=
  ∀ fuel rest, (printed statement.outline).length ≤ fuel → statement.Followed rest →
    readOne fuel (printed statement.outline ++ rest) = some (statement.outline, rest)

/-- Marks that can start a statement. -/
def Mark.starts : Mark → Bool
  | .plain | .head | .if | .opening | .do | .try => true
  | _ => false

theorem Mark.ne_of_starts (mark : Mark) : mark.starts = true → mark ≠ .handler ∧ mark ≠ .else := by
  cases mark <;> decide

/-- The marks of a statement start with one that can start a statement. -/
theorem Statement.exists_printed_outline (statement : Statement) :
    ∃ mark rest, printed statement.outline = mark :: rest ∧ mark.starts = true := by
  induction statement using Statement.inductionOnParts with
  | h statement ih =>
    cases statement with
    | commented _ inner => exact ih inner (mem_singleton_self _)
    | «if» _ _ elseBody =>
      cases elseBody <;> simp [Statement.outline, printed_cons, Mark.starts]
    | «try» _ _ finallyBody =>
      cases finallyBody <;> simp [Statement.outline, printed_cons, Mark.starts]
    | _ => simp [Statement.outline, braced, printed_cons, Mark.starts]

/-- Reading several statements starts with reading one. -/
theorem readMany_cons {mark : Mark} (h : mark.starts = true) (fuel : Nat) (marks : List Mark) :
    readMany (fuel + 1) (mark :: marks) = (do
      let (first, rest) ← readOne fuel (mark :: marks)
      let (others, rest) ← readMany fuel rest
      return (first ++ others, rest)) := by
  cases mark with
  | closing => cases h
  | _ => rfl

/-- What a list of statements is followed by: nothing, or a closing brace. -/
def EndsList (rest : List Mark) : Prop :=
  rest = [] ∨ ∃ after, rest = .closing :: after

/-- The printed statements are read back up to a closing brace or the end. -/
theorem readMany_printed {statements : List Statement} (h : ∀ part ∈ statements, part.Reads)
    {fuel : Nat} {rest : List Mark} (hfuel : (printed (outlines statements)).length < fuel)
    (hrest : EndsList rest) :
    readMany fuel (printed (outlines statements) ++ rest) = some (outlines statements, rest) := by
  induction statements generalizing fuel with
  | nil =>
    obtain ⟨_, rfl⟩ := Nat.exists_eq_add_one_of_ne_zero (Nat.ne_of_gt hfuel)
    obtain rfl | ⟨_, rfl⟩ := hrest
    · rfl
    · rfl
  | cons first others ih =>
    obtain ⟨hfirst, hothers⟩ := forall_mem_cons.mp h
    obtain ⟨fuel, rfl⟩ : ∃ smaller, fuel = smaller + 1 :=
      Nat.exists_eq_add_one_of_ne_zero (by omega)
    have hfollowed : first.Followed (printed (outlines others) ++ rest) := by
      suffices ∀ mark, (printed (outlines others) ++ rest).head? = some mark → mark ≠ .handler ∧
        mark ≠ .else from
        ⟨fun hhead => (this _ hhead).1 rfl, fun _ hhead => (this _ hhead).2 rfl⟩
      intro mark hmark
      cases others with
      | nil =>
        obtain rfl | ⟨_, rfl⟩ := hrest
        · cases hmark
        · cases hmark
          decide
      | cons second others =>
        obtain ⟨start, _, hmarks, hstarts⟩ := second.exists_printed_outline
        rw [outlines, printed_append, hmarks] at hmark
        obtain rfl := Option.some.inj hmark
        exact start.ne_of_starts hstarts
    obtain ⟨_, _, hmarks, hstarts⟩ := first.exists_printed_outline
    have hlength : (printed first.outline).length ≤ fuel ∧
      (printed (outlines others)).length < fuel := by
      rw [outlines, printed_append, length_append] at hfuel
      have : 0 < (printed first.outline).length := by rw [hmarks]; exact Nat.zero_lt_succ _
      omega
    have hone := hfirst fuel _ hlength.1 hfollowed
    rw [outlines, printed_append, append_assoc]
    rw [hmarks, cons_append] at hone ⊢
    rw [readMany_cons hstarts, hone]
    simp [ih hothers hlength.2]

/-! ### One step of the reader for each kind of statement -/

section Steps

variable {fuel : Nat} {marks inside rest : List Mark}

theorem readOne_if (h : readOne fuel marks = some (inside, rest))
    (helse : rest.head? ≠ some .else) :
    readOne (fuel + 1) (.if :: marks) = some (.if :: inside ++ [.endIf], rest) := by
  rw [readOne, h]
  cases rest with
  | nil => rfl
  | cons mark rest =>
    cases mark with
    | «else» => exact absurd rfl helse
    | _ => rfl

theorem readHandlers_end (h : rest.head? ≠ some .handler) :
    readHandlers (fuel + 1) rest = some ([], rest) := by
  cases rest with
  | nil => rfl
  | cons mark rest =>
    cases mark with
    | handler => exact absurd rfl h
    | _ => rfl

end Steps

/-- Fuel for a mark and what follows it. -/
theorem exists_fuel {needed fuel : Nat} (h : needed < fuel) :
    ∃ smaller, fuel = smaller + 1 ∧ needed ≤ smaller :=
  ⟨fuel - 1, by omega, by omega⟩

/-- Statements between braces are read back as one. -/
theorem readOne_braced {statements : List Statement} (h : ∀ part ∈ statements, part.Reads)
    {fuel : Nat} {rest : List Mark}
    (hfuel : (braced (printed (outlines statements))).length ≤ fuel) :
    readOne fuel (braced (printed (outlines statements)) ++ rest) =
      some (braced (outlines statements), rest) := by
  have hlength : (printed (outlines statements)).length + 1 < fuel := by
    simp only [braced, length_cons, length_append, length_nil] at hfuel
    omega
  obtain ⟨_, rfl, hsmaller⟩ := exists_fuel hlength
  rw [braced, append_assoc]
  have hmany := readMany_printed h hsmaller (.inr ⟨rest, rfl⟩)
  simp [readOne, braced, hmany]

theorem outlines_append (first second : List Statement) :
    outlines (first ++ second) = outlines first ++ outlines second := by
  induction first with
  | nil => rfl
  | cons statement rest ih => rw [cons_append, outlines, outlines, ih, append_assoc]

/-- For the reader, the sections of a `switch` are a list of statements: a label is as good as an
empty statement. -/
theorem sectionOutlines_eq (sections : List SwitchSection) :
    sectionOutlines sections =
      outlines (sections.flatMap fun part => part.labels.map (fun _ => .empty) ++
        part.statements) := by
  induction sections with
  | nil => rfl
  | cons first rest ih =>
    obtain ⟨labels⟩ := first
    have hlabels : outlines (labels.map fun _ => .empty) = labels.map fun _ => .plain := by
      induction labels with
      | nil => rfl
      | cons label labels ih => rw [map_cons, outlines, ih]; rfl
    rw [sectionOutlines, flatMap_cons, outlines_append, outlines_append, ← ih, hlabels]

theorem Statement.reads_empty : Statement.empty.Reads := by
  intro fuel rest hfuel _
  obtain ⟨_, rfl, -⟩ := exists_fuel hfuel
  rfl

/-- A `switch` is read back from its sections. -/
theorem readOne_sections {sections : List SwitchSection}
    (h : ∀ part ∈ sections.flatMap (·.statements), part.Reads) {fuel : Nat} {rest : List Mark}
    (hfuel : (braced (printed (sectionOutlines sections))).length ≤ fuel) :
    readOne fuel (braced (printed (sectionOutlines sections)) ++ rest) =
      some (braced (sectionOutlines sections), rest) := by
  rw [sectionOutlines_eq] at hfuel ⊢
  refine readOne_braced (fun part hpart => ?_) hfuel
  obtain ⟨one, hone, hpart⟩ := mem_flatMap.mp hpart
  obtain hpart | hpart := mem_append.mp hpart
  · obtain ⟨_, -, rfl⟩ := mem_map.mp hpart
    exact Statement.reads_empty
  · exact h part (mem_flatMap.mpr ⟨one, hone, hpart⟩)

/-- The marks of blocks behind a `try`. -/
def handlerOutlines (blocks : List (List Statement)) : List Mark :=
  blocks.flatMap fun block => .handler :: braced (outlines block)

theorem catchOutlines_eq (catches : List CatchClause) :
    catchOutlines catches = handlerOutlines (catches.map (·.body)) := by
  induction catches with
  | nil => rfl
  | cons first rest ih =>
    cases first
    rw [catchOutlines, ih]
    rfl

theorem readHandlers_printed {blocks : List (List Statement)}
    (h : ∀ block ∈ blocks, ∀ part ∈ block, part.Reads) {fuel : Nat} {rest : List Mark}
    (hfuel : (printed (handlerOutlines blocks)).length < fuel)
    (hrest : rest.head? ≠ some .handler) :
    readHandlers fuel (printed (handlerOutlines blocks) ++ rest) =
      some (handlerOutlines blocks, rest) := by
  induction blocks generalizing fuel with
  | nil =>
    obtain ⟨_, rfl, -⟩ := exists_fuel hfuel
    exact readHandlers_end hrest
  | cons block blocks ih =>
    obtain ⟨hblock, hblocks⟩ := forall_mem_cons.mp h
    have hmarks : printed (handlerOutlines (block :: blocks)) =
        .handler :: (braced (printed (outlines block)) ++ printed (handlerOutlines blocks)) := by
      simp [handlerOutlines, printed_cons]
    rw [hmarks, length_cons, length_append] at hfuel
    obtain ⟨fuel, rfl, hsmaller⟩ := exists_fuel hfuel
    rw [hmarks, cons_append, append_assoc]
    have : 0 < (braced (printed (outlines block))).length := Nat.zero_lt_succ _
    have hothers := ih hblocks (show _ < fuel by omega)
    rw [readHandlers, readOne_braced hblock (by omega)]
    simp only [Option.bind_eq_bind, Option.bind_some, hothers]
    rfl

/-- The outline of a `try` is its block and the blocks behind it. -/
theorem Statement.outline_try (body : List Statement) (catches : List CatchClause)
    (finallyBody : Option (List Statement)) : (Statement.try body catches finallyBody).outline =
      .try :: braced (outlines body) ++ handlerOutlines (catches.map (·.body) ++
        finallyBody.toList) := by
  cases finallyBody with
  | none => rw [outline, catchOutlines_eq, Option.toList_none, append_nil]
  | some statements =>
    rw [outline, catchOutlines_eq, handlerOutlines, handlerOutlines, flatMap_append,
      Option.toList_some, flatMap_singleton, append_assoc]

/-- **Reading back**: a statement in which no `else` dangles is read as it was printed. -/
theorem Statement.reads (statement : Statement) (h : ¬ statement.Dangles) : statement.Reads := by
  induction statement using Statement.inductionOnParts with
  | h statement ih =>
    have hparts : ∀ part ∈ statement.statements, part.Reads := fun part hpart =>
      ih part hpart fun hdangles => h (.inside hpart hdangles)
    intro fuel rest hfuel hfollowed
    cases statement with
    | localDeclaration | expression | «return» | yieldReturn | yieldBreak | «break» | «continue» | throw
    | empty =>
      obtain ⟨_, rfl, -⟩ := exists_fuel hfuel
      rfl
    | block =>
      rw [outline, printed_braced] at hfuel ⊢
      exact readOne_braced hparts hfuel
    | «if» condition body elseBody =>
      obtain ⟨hbody, helse⟩ := forall_mem_cons.mp hparts
      cases elseBody with
      | none =>
        have hmarks : printed (Statement.if condition body none).outline =
          .if :: printed body.outline := by
          simp [outline, printed_cons]
        rw [hmarks] at hfuel
        obtain ⟨fuel, rfl, hsmaller⟩ := exists_fuel hfuel
        rw [hmarks, outline]
        refine readOne_if (hbody fuel rest hsmaller ⟨hfollowed.not_handler, ?_⟩)
          (hfollowed.not_else rfl)
        exact fun _ => hfollowed.not_else rfl
      | some alternative =>
        -- the `else` is not taken for one of the branch, which does not end open
        have hclosed : ¬ body.endsOpen := fun hopen => h (.here hopen)
        have hmarks : printed (Statement.if condition body (some alternative)).outline =
            .if :: (printed body.outline ++ .else :: printed alternative.outline) := by
          simp [outline, printed_cons]
        rw [hmarks, length_cons, length_append, length_cons] at hfuel
        obtain ⟨fuel, rfl, hsmaller⟩ := exists_fuel hfuel
        rw [hmarks, outline, cons_append, append_assoc]
        have hthen := hbody fuel (.else :: (printed alternative.outline ++ rest)) (by omega)
          ⟨by simp, fun hopen => absurd hopen hclosed⟩
        have hother := forall_mem_singleton.mp helse fuel rest (by omega)
          ⟨hfollowed.not_handler, hfollowed.not_else⟩
        simp [readOne, hthen, hother]
    | «for» | forEach | «while» | lock | «using» =>
      have hbody := forall_mem_singleton.mp hparts
      rw [outline, printed_cons (by decide)] at hfuel ⊢
      obtain ⟨fuel, rfl, hsmaller⟩ := exists_fuel hfuel
      simp [readOne, hbody fuel rest hsmaller ⟨hfollowed.not_handler, hfollowed.not_else⟩]
    | «do» body condition =>
      have hbody := forall_mem_singleton.mp hparts
      have hmarks : printed (Statement.do body condition).outline =
          .do :: (printed body.outline ++ [.until]) := by
        simp [outline, printed_cons]
      rw [hmarks, length_cons, length_append] at hfuel
      obtain ⟨fuel, rfl, hsmaller⟩ := exists_fuel hfuel
      rw [hmarks, outline, cons_append, append_assoc]
      simp [readOne, hbody fuel (.until :: rest) (by omega) ⟨by simp, by simp⟩]
    | switch =>
      rw [outline, printed_cons (by decide), printed_braced] at hfuel ⊢
      obtain ⟨_, rfl, hsmaller⟩ := exists_fuel hfuel
      simp [readOne, readOne_sections hparts hsmaller]
    | «try» body catches finallyBody =>
      obtain ⟨hinside, hfinally⟩ := forall_mem_append.mp hparts
      obtain ⟨hbody, hcatches⟩ := forall_mem_append.mp hinside
      have hblocks : ∀ block ∈ catches.map (·.body) ++ finallyBody.toList, ∀ part ∈ block,
        part.Reads := by
        refine forall_mem_append.mpr ⟨forall_mem_map.mpr fun clause hclause part hpart => ?_, ?_⟩
        · exact hcatches part (mem_flatMap.mpr ⟨clause, hclause, hpart⟩)
        · intro block hblock
          rw [Option.mem_toList.mp hblock] at hfinally
          exact hfinally
      have hmarks : printed (Statement.try body catches finallyBody).outline =
          .try :: (braced (printed (outlines body)) ++
            printed (handlerOutlines (catches.map (·.body) ++ finallyBody.toList))) := by
        simp [outline_try, printed_cons]
      rw [hmarks, length_cons, length_append] at hfuel
      obtain ⟨fuel, rfl, hsmaller⟩ := exists_fuel hfuel
      rw [hmarks, outline_try, cons_append, append_assoc]
      have : 0 < (braced (printed (outlines body))).length := Nat.zero_lt_succ _
      rw [readOne, readOne_braced hbody (by omega)]
      simp [readHandlers_printed hblocks (show _ < fuel by omega) hfollowed.not_handler]
    | commented _ inner =>
      rw [outline] at hfuel ⊢
      exact hparts inner (mem_singleton_self _) fuel rest hfuel ⟨hfollowed.not_handler,
        hfollowed.not_else⟩

/-- **Reading a body back**: statements in which no `else` dangles are read as they were printed. -/
theorem readBody_printed {statements : List Statement}
    (h : ∀ statement ∈ statements, ¬ statement.Dangles) :
    readBody (printed (outlines statements)) = some (outlines statements) := by
  have hmany := readMany_printed (fun part hpart => part.reads (h part hpart))
    (Nat.lt_succ_self (printed (outlines statements)).length) (.inl rfl)
  rw [append_nil] at hmany
  rw [readBody, hmany]

end Sharpen.Target
