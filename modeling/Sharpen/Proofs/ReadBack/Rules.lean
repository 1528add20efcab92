import Mathlib.Tactic.IntervalCases
import Sharpen.Proofs.ReadBack.Grammar
import Sharpen.Target.Print.Precedence

/-!
# The rules of the grammar

What each rule reads, given what it reads of the parts. Every token says how strongly it binds what
stands before it (`Token.bond`):

* `ReadsAs`: a reader of strength `k` takes these tokens, and stops before a token that binds less
  strongly;
* `Chained`: for operators that group to the left, the reader has taken the left operand and is
  still to attach what follows;
* `Legible` collects what holds of one expression at all strengths up to its own.

The last part has one lemma for each rule: from `Legible` parts to a `Legible` whole.
-/

namespace Sharpen.Target.ReadBack

open Option (bind_eq_bind bind_some)
open List

variable {behind rest : List Token} {token : Token}

/-! ## How strongly tokens bind -/

/-- The operators of a strength. -/
def rung (i : Nat) : Rung :=
  rungs.getD i []

/-- How strongly a token binds the expression before it, zero if it cannot go on with one. -/
def Token.bond (token : Token) : Nat :=
  if token = .symbol "=>" ∨ (assignments.lookup token).isSome then Strength.assignment
  else if token = .symbol "?" then Strength.conditional
  else if token = .symbol "??" then Strength.coalesce
  else if token ∈ [.symbol ".", .symbol "(", .symbol "[", .symbol "++", .symbol "--"] then
    Strength.primary
  else match rungs.findIdx? fun rung => (rung.lookup token).isSome with
    | some i => i + 4
    | none => 0

/-- The tokens do not start with one that binds as strongly as `k`. -/
def Below (k : Nat) (tokens : List Token) : Prop :=
  ∀ token ∈ tokens.head?, token.bond < k

theorem below_nil (k : Nat) : Below k [] := by
  intro token h
  cases h

theorem below_cons {k : Nat} (h : token.bond < k) : Below k (token :: rest) := by
  intro other same
  cases same
  exact h

/-- What stops a weak reader stops a stronger one. -/
theorem Below.mono {j k : Nat} {tokens : List Token} (h : Below j tokens) (le : j ≤ k) :
Below k tokens :=
  fun token first => (h token first).trans_le le

/-- No token binds more strongly than what is attached to a primary expression. -/
theorem Token.bond_le_primary (token : Token) : token.bond ≤ Strength.primary := by
  unfold Token.bond
  split_ifs
  · decide
  · decide
  · decide
  · exact le_rfl
  · split
    · next i found =>
      have : i < rungs.length := (List.findIdx?_eq_some_iff_getElem.mp found).1
      exact (Nat.add_lt_add_right this 4).le.trans (by decide)
    · exact Nat.zero_le _

/-- Operators bind as strongly as their rung says. -/
theorem bond_of_mem_rung : ∀ i < 10, ∀ entry ∈ rung i, entry.1.bond = i + 4 := by
  decide

theorem mem_of_lookup_eq_some {α β : Type} [BEq α] [LawfulBEq α] {table : List (α × β)} {key : α}
    {value : β} (h : table.lookup key = some value) : (key, value) ∈ table := by
  obtain ⟨_, _, rfl, -⟩ := lookup_eq_some_iff.mp h
  exact mem_append_right _ mem_cons_self

/-- A key that differs from all keys of a table in a property is not found. -/
theorem lookup_eq_none_of_forall {α β : Type} [BEq α] [LawfulBEq α] {table : List (α × β)} {key : α}
    {P : α → Prop} (each : ∀ entry ∈ table, ¬P entry.1) (h : P key) : table.lookup key = none := by
  cases found : table.lookup key with
  | none => rfl
  | some value => exact absurd h (each _ (mem_of_lookup_eq_some found))

/-! ## Readers that stop -/

/-- The reader takes exactly these tokens as the value, before tokens that bind less strongly. -/
def ReadsAs (reader : Reader Expr) (k : Nat) (tokens : List Token) (value : Expr) : Prop :=
  ∀ rest, Below k rest → reader (tokens ++ rest) = some (value, rest)

/-- A chain has read these tokens as the value, and is still to attach what follows them. -/
def Chained (first : Reader Expr) (attachment : Reader (Expr → Expr)) (k : Nat)
    (tokens : List Token) (value : Expr) : Prop :=
  ∀ rest, Below k rest → ∃ fuel, rest.length ≤ fuel ∧
    chain first attachment (tokens ++ rest) = some (extend attachment fuel value rest)

section

variable {first : Reader Expr} {attachment : Reader (Expr → Expr)} {j k : Nat}
  {tokens : List Token} {value : Expr}

/-- A chain ends where nothing can be attached. -/
theorem extend_stop (stop : attachment rest = none) (fuel : Nat) :
    extend attachment fuel value rest = (value, rest) := by
  cases fuel with
  | zero => rfl
  | succ fuel => rw [extend, stop]

/-- What the first reader takes is a chain without attachments. -/
theorem ReadsAs.chained (h : ReadsAs first k tokens value) :
    Chained first attachment k tokens value := by
  intro rest below
  refine ⟨rest.length, le_rfl, ?_⟩
  rw [chain, h rest below]
  rfl

/-- A chain is at its end before a token that cannot be attached. -/
theorem Chained.readsAs (h : Chained first attachment k tokens value) (le : j ≤ k)
    (stop : ∀ rest, Below j rest → attachment rest = none) : ReadsAs (chain first attachment) j
    tokens value := by
  intro rest below
  obtain ⟨_, -, read⟩ := h rest (below.mono le)
  rw [read, extend_stop (stop rest below)]

/-- One attachment more. It takes at least one token, so the chain can still go on for as long as
there are tokens. -/
theorem Chained.attach (h : Chained first attachment k tokens value) (apply : Expr → Expr)
    (bond : token.bond < k)
    (step : ∀ rest, Below k rest → attachment (token :: behind ++ rest) = some (apply, rest)) :
    Chained first attachment k (tokens ++ token :: behind) (apply value) := by
  intro rest below
  obtain ⟨fuel, enough, read⟩ := h (token :: behind ++ rest) (below_cons bond)
  cases fuel with
  | zero => cases enough
  | succ fuel =>
    refine ⟨fuel, ?_, ?_⟩
    · simp only [cons_append, length_cons, length_append] at enough
      omega
    · rw [append_assoc, read, extend, step rest below]

end

/-! ## From strong to weak

A reader of one strength calls the reader of the next one first, and then looks for an operator of
its own strength. -/

/-- The reader of the rungs from the given one on. -/
def ladder (inner : Grammar) (i : Nat) : Reader Expr :=
  binary inner (rungs.drop i)

section

variable {inner : Grammar} {tokens : List Token} {value : Expr}

theorem drop_rungs {i : Nat} (h : i < 10) : rungs.drop i = rung i :: rungs.drop (i + 1) := by
  interval_cases i <;> rfl

/-- A rung is a chain of operands of the next one. -/
theorem ladder_eq_chain {i : Nat} (h : i < 10) :
    ladder inner i = chain (ladder inner (i + 1)) (joint (rung i) (ladder inner (i + 1))) := by
  rw [ladder, drop_rungs h, binary]
  rfl

/-- A token that binds less strongly is no operator of the rung. -/
theorem lookup_rung_of_below {i : Nat} (h : i < 10) (below : token.bond < i + 4) :
    (rung i).lookup token = none := by
  refine lookup_eq_none_of_forall (P := fun token => token.bond < i + 4) ?_ below
  intro entry mem
  have := bond_of_mem_rung i h entry mem
  omega

theorem joint_of_below {i : Nat} (h : i < 10) (below : Below (i + 4) rest) :
    joint (rung i) (ladder inner (i + 1)) rest = none := by
  cases rest with
  | nil => rfl
  | cons token rest => simp only [joint, lookup_rung_of_below h (below token rfl)]

/-- What a rung has read by then, for a rung below the last one. -/
abbrev RungChained (inner : Grammar) (i : Nat) (tokens : List Token) (value : Expr) : Prop :=
  Chained (ladder inner (i + 1)) (joint (rung i) (ladder inner (i + 1))) (i + 5) tokens value

/-- At the end of a chain, the rung has read it. -/
theorem Chained.ladder {i : Nat} (lt : i < 10) (h : RungChained inner i tokens value) :
    ReadsAs (ladder inner i) (i + 4) tokens value := by
  rw [ladder_eq_chain lt]
  exact h.readsAs (Nat.le_succ _) fun rest below => joint_of_below lt below

/-- What a rung reads, the rungs below it read as well. -/
theorem ReadsAs.ladder_of_le {i j : Nat} (h : ReadsAs (ladder inner i) (i + 4) tokens value)
    (le : j ≤ i) (top : i ≤ 10) : ReadsAs (ladder inner j) (j + 4) tokens value := by
  induction i with
  | zero =>
    obtain rfl : j = 0 := by omega
    exact h
  | succ i ih =>
    rcases Nat.lt_or_ge i j with lt | ge
    · obtain rfl : j = i + 1 := by omega
      exact h
    · exact ih (Chained.ladder (by omega) h.chained) ge (by omega)

/-- A symbol is not found before a token that binds less strongly. -/
theorem expect_of_below {k : Nat} {symbol : String} (bond : k ≤ (Token.symbol symbol).bond)
    (below : Below k rest) : expect symbol rest = none := by
  cases rest with
  | nil => rfl
  | cons token rest =>
    rw [expect, if_neg]
    intro same
    have := below token rfl
    rw [same] at this
    omega

/-- What is read without `??` is read where one may follow. -/
theorem ReadsAs.coalescing (h : ReadsAs (ladder inner 0) 4 tokens value) :
    ReadsAs (coalescing inner) 3 tokens value := by
  intro rest below
  have read : binary inner rungs (tokens ++ rest) = some (value, rest) :=
    h rest (below.mono (by decide))
  simp only [ReadBack.coalescing, read, bind_eq_bind, bind_some]
  rw [expect_of_below (by decide) below]
  rfl

/-- What is read without `?` is read where one may follow. -/
theorem ReadsAs.conditional (h : ReadsAs (ReadBack.coalescing inner) 3 tokens value) :
    ReadsAs (conditional inner) 2 tokens value := by
  intro rest below
  simp only [ReadBack.conditional, h rest (below.mono (by decide)), bind_eq_bind, bind_some]
  rw [expect_of_below (by decide) below]
  rfl

/-- Only an assignment or an arrow goes on after all other operators. -/
theorem loosest_of_below (below : token.bond < 1) (left : Expr) : loosest left token = none := by
  have free : ¬(token = .symbol "=>" ∨ (assignments.lookup token).isSome = true) := by
    intro loose
    rw [Token.bond, if_pos loose] at below
    exact absurd below (by decide)
  rw [not_or, Bool.not_eq_true, Option.isSome_eq_false_iff, Option.isNone_iff_eq_none] at free
  simp only [loosest, free.2]
  split
  · exact if_neg free.1
  · rfl

theorem expression_of_conditional (h : ReadBack.conditional inner tokens = some (value, rest))
    (below : Below 1 rest) : expression inner tokens = some (value, rest) := by
  simp only [ReadBack.expression, h, bind_eq_bind, bind_some]
  cases rest with
  | nil => rfl
  | cons token rest =>
    simp only [loosest_of_below (below token rfl)]
    rfl

/-- What is read as a condition is read as an expression. -/
theorem ReadsAs.expression (h : ReadsAs (ReadBack.conditional inner) 2 tokens value) :
    ReadsAs (expression inner) 1 tokens value :=
  fun rest below => expression_of_conditional (h rest (below.mono (by decide))) below

/-- Nothing is attached before a token that binds less strongly. -/
theorem attachment_of_below (below : Below 15 rest) : attachment inner rest = none := by
  unfold attachment
  split
  case h_6 => rfl
  all_goals exact absurd (below _ rfl) (by decide)

/-- What a primary expression has read by then. -/
abbrev PrimaryChained (inner : Grammar) (tokens : List Token) (value : Expr) : Prop :=
  Chained (atom inner) (attachment inner) 16 tokens value

/-- The tokens do not start with a sign or a cast. -/
def Unsigned (tokens : List Token) : Prop :=
  ∀ rest, sign (tokens ++ rest) = none

/-- A primary expression is an operand without signs. -/
theorem Chained.unary (h : PrimaryChained inner tokens value) (unsigned : Unsigned tokens) :
    ReadsAs (ReadBack.ladder inner 10) 14 tokens value := by
  intro rest below
  have read : ReadsAs (primary inner) 15 tokens value :=
    h.readsAs (by decide) fun rest below => attachment_of_below below
  change ReadBack.unary inner (tokens ++ rest) = _
  simp only [ReadBack.unary, unsigned rest]
  exact read rest (below.mono (by decide))

/-! ## One expression at all strengths -/

/-- The first token is not a type and closes nothing. -/
def Opens (tokens : List Token) : Prop :=
  ∃ token rest, tokens = token :: rest ∧ types.lookup token = none ∧
  token ∉ [.symbol ")", .symbol "]"]

/-- The tokens are read as the value by every reader up to the strength. -/
structure Legible (inner : Grammar) (tokens : List Token) (value : Expr) (strength : Nat) :
    Prop where
  opens : Opens tokens
  expression : ReadsAs (expression inner) 1 tokens value
  conditional : 3 ≤ strength → ReadsAs (conditional inner) 2 tokens value
  coalescing : 3 ≤ strength → ReadsAs (coalescing inner) 3 tokens value
  ladder : ∀ i ≤ 10, i + 4 ≤ strength → ReadsAs (ladder inner i) (i + 4) tokens value
  chained : ∀ i < 10, i + 4 ≤ strength → RungChained inner i tokens value
  unsigned : 15 ≤ strength → Unsigned tokens
  primary : 15 ≤ strength → PrimaryChained inner tokens value

namespace Legible

/-- Assignments, lambdas and choices are read as whole expressions only. -/
theorem of_expression (opens : Opens tokens)
    (h : ReadsAs (ReadBack.expression inner) 1 tokens value) {strength : Nat}
    (loose : strength < 3) : Legible inner tokens value strength where
  opens := opens
  expression := h
  conditional _ := by omega
  coalescing _ := by omega
  ladder _ _ _ := by omega
  chained _ _ _ := by omega
  unsigned _ := by omega
  primary _ := by omega

theorem of_coalescing (opens : Opens tokens)
    (h : ReadsAs (ReadBack.coalescing inner) 3 tokens value) : Legible inner tokens value 3 where
  opens := opens
  expression := h.conditional.expression
  conditional _ := h.conditional
  coalescing _ := h
  ladder _ _ _ := by omega
  chained _ _ _ := by omega
  unsigned _ := by omega
  primary _ := by omega

/-- An operand of a rung is read by all weaker readers. -/
theorem of_ladder (opens : Opens tokens) {i : Nat} (top : i ≤ 10)
    (h : ReadsAs (ReadBack.ladder inner i) (i + 4) tokens value)
    (own : i < 10 → RungChained inner i tokens value) : Legible inner tokens value (i + 4) :=
  have coalescing := (h.ladder_of_le (Nat.zero_le i) top).coalescing
  { opens := opens
    expression := coalescing.conditional.expression
    conditional := fun _ => coalescing.conditional
    coalescing := fun _ => coalescing
    ladder := fun j _ strong => h.ladder_of_le (by omega) top
    chained := by
      intro j lt strong
      rcases Nat.lt_or_ge j i with weaker | same
      · exact (h.ladder_of_le weaker top).chained
      · obtain rfl : j = i := by omega
        exact own lt
    unsigned := fun _ => by omega
    primary := fun _ => by omega }

theorem of_chained (opens : Opens tokens) {i : Nat} (lt : i < 10)
    (h : RungChained inner i tokens value) : Legible inner tokens value (i + 4) :=
  of_ladder opens lt.le (h.ladder lt) fun _ => h

theorem of_unary (opens : Opens tokens) (h : ReadsAs (ReadBack.ladder inner 10) 14 tokens value) :
    Legible inner tokens value 14 :=
  of_ladder opens le_rfl h fun lt => absurd lt (lt_irrefl 10)

/-- A primary expression is read by all readers. -/
theorem of_primary (opens : Opens tokens) (unsigned : Unsigned tokens)
    (h : PrimaryChained inner tokens value) : Legible inner tokens value 15 :=
  have unary := of_unary opens (h.unary unsigned)
  { opens := opens
    expression := unary.expression
    conditional := fun _ => unary.conditional (by decide)
    coalescing := fun _ => unary.coalescing (by decide)
    ladder := fun i top _ => unary.ladder i top (by omega)
    chained := fun i lt _ => unary.chained i lt (by omega)
    unsigned := fun _ => unsigned
    primary := fun _ => h }

end Legible

/-! ## One rule at a time -/

theorem Opens.append {tokens : List Token} (h : Opens tokens) (more : List Token) :
    Opens (tokens ++ more) := by
  obtain ⟨token, rest, rfl, free⟩ := h
  exact ⟨token, rest ++ more, rfl, free⟩

theorem opens_cons (type : types.lookup token = none)
    (closing : token ∉ [.symbol ")", .symbol "]"]) :
    Opens (token :: rest) :=
  ⟨token, rest, rfl, type, closing⟩

/-- Only the first tokens can be a sign. -/
theorem Unsigned.append {tokens : List Token} (h : Unsigned tokens) (more : List Token) :
    Unsigned (tokens ++ more) := by
  intro rest
  rw [append_assoc]
  exact h _

theorem sign_of_lookup (word : ∀ text, token ≠ .symbol text) (lookup : signs.lookup token = none) :
    sign (token :: rest) = none := by
  simp only [sign, lookup]
  split
  · exact absurd rfl (word "(")
  · rfl

/-- Parentheses around anything but a type are not a cast. -/
theorem sign_of_opens {tokens : List Token} (h : Opens tokens) :
    sign (.symbol "(" :: tokens ++ rest) = none := by
  obtain ⟨_, _, rfl, type, -⟩ := h
  have lookup : signs.lookup (.symbol "(") = none := rfl
  simp only [cons_append, sign, lookup]
  split
  · next same =>
    obtain ⟨rfl, -⟩ := List.cons.inj same
    rw [type]
    rfl
  · rfl

/-- A single token. -/
theorem Legible.atom (word : ∀ text, token ≠ .symbol text) (type : types.lookup token = none)
    (lookup : signs.lookup token = none)
    (read : ∀ rest, ReadBack.atom inner (token :: rest) = some (value, rest)) :
    Legible inner [token] value 15 :=
  .of_primary (opens_cons type (by simp [word])) (fun _ => sign_of_lookup word lookup)
    (ReadsAs.chained fun rest _ => read rest)

/-- Parentheses make a primary expression of any other one. -/
theorem Legible.parenthesized (opens : Opens tokens) (h : ReadsAs inner.expression 1 tokens value) :
    Legible inner (.symbol "(" :: tokens ++ [.symbol ")"]) (.parenthesized value) 15 := by
  refine .of_primary (opens_cons rfl (by decide)) ?_ (ReadsAs.chained fun rest _ => ?_)
  · intro rest
    rw [cons_append, cons_append, append_assoc]
    exact sign_of_opens opens
  · have read := h (.symbol ")" :: rest) (below_cons (by decide))
    rw [append_assoc]
    simp only [cons_append, nil_append, ReadBack.atom, if_true, read, bind_eq_bind,
      bind_some, expect]
    rfl

/-- A call, an access or another thing behind a primary expression. -/
theorem Legible.attach {s : Nat} (h : Legible inner tokens value s) (strong : 15 ≤ s) (apply :
Expr → Expr)
    (step : ∀ rest, attachment inner (token :: behind ++ rest) = some (apply, rest)) :
    Legible inner (tokens ++ token :: behind) (apply value) 15 :=
  .of_primary (h.opens.append _) ((h.unsigned strong).append _)
    ((h.primary strong).attach apply (Nat.lt_succ_of_le token.bond_le_primary) fun rest _ =>
    step rest)

/-- A sign or a cast before an operand. -/
theorem Legible.signed (lead : List Token) (apply : Expr → Expr) (opens : Opens lead)
    (step : ∀ rest, sign (lead ++ rest) = some (apply, rest))
    (h : ReadsAs inner.unary 14 tokens value) : Legible inner (lead ++ tokens) (apply value) 14 :=
    by
  refine .of_unary (opens.append _) fun rest below => ?_
  change ReadBack.unary inner (lead ++ tokens ++ rest) = _
  rw [append_assoc]
  simp only [ReadBack.unary, step, Reader.map, h rest below]
  rfl

section

variable {s t : Nat} {others : List Token} {other : Expr}

/-- An operator of a rung, and what stands to its right. -/
theorem Legible.rung (h : Legible inner tokens value s) {i : Nat} (lt : i < 10) (strong : i + 4 ≤ s)
    (apply : Expr → Expr) (bond : token.bond = i + 4)
    (step : ∀ rest, Below (i + 5) rest → joint (ReadBack.rung i) (ReadBack.ladder inner (i + 1))
      (token :: behind ++ rest) = some (apply, rest)) :
    Legible inner (tokens ++ token :: behind) (apply value) (i + 4) :=
  .of_chained (h.opens.append _) lt ((h.chained i lt strong).attach apply (by omega) step)

/-- The operators between two operands, `??` apart. -/
theorem Legible.binary (h : Legible inner tokens value s) (h' : Legible inner others other t)
    {operator : BinaryOperator} (left : operator.leftStrength ≤ s)
    (right : operator.rightStrength ≤ t) (grouped : operator ≠ .coalesce) :
    Legible inner (tokens ++ .symbol operator.token :: others) (.binary value operator other)
    operator.strength := by
  obtain ⟨i, lt, strength, lookup⟩ : ∃ i < 10, operator.strength = i + 4 ∧
      (ReadBack.rung i).lookup (.symbol operator.token) = some (.operator operator) := by
    cases operator <;> first | exact absurd rfl grouped | exact ⟨_, by decide, rfl, rfl⟩
  rw [BinaryOperator.leftStrength, if_neg grouped] at left
  rw [BinaryOperator.rightStrength, if_neg grouped] at right
  have bond := bond_of_mem_rung i lt _ (mem_of_lookup_eq_some lookup)
  rw [strength] at left right ⊢
  refine h.rung lt left (.binary · operator other) bond fun rest below => ?_
  simp only [cons_append, joint, lookup, Reader.map, h'.ladder (i + 1) (by omega) right rest below]
  rfl

/-- `is` and `as` have a type to their right. -/
theorem Legible.typed (h : Legible inner tokens value s) (strong : Strength.relational ≤ s)
    {build : Expr → TypeSyntax → Expr} (keyword : PredefinedType)
    (lookup : (ReadBack.rung 6).lookup token = some (.type build)) :
    Legible inner (tokens ++ [token, .word keyword.keyword])
      (build value (.predefined keyword)) Strength.relational := by
  have bond := bond_of_mem_rung 6 (by decide) _ (mem_of_lookup_eq_some lookup)
  have type : types.lookup (.word keyword.keyword) = some keyword := by cases keyword <;> rfl
  refine h.rung (by decide) strong (build · (.predefined keyword)) bond fun rest _ => ?_
  simp only [cons_append, nil_append, joint, lookup, type]
  rfl

/-- `??` groups to the right. -/
theorem Legible.coalesce (h : Legible inner tokens value s) (strong : 4 ≤ s)
    (h' : ReadsAs inner.coalescing 3 others other) :
    Legible inner (tokens ++ .symbol "??" :: others) (.binary value .coalesce other) 3 := by
  refine .of_coalescing (h.opens.append _) fun rest below => ?_
  have read : ReadBack.binary inner rungs (tokens ++ .symbol "??" :: (others ++ rest)) =
      some (value, .symbol "??" :: (others ++ rest)) :=
    h.ladder 0 (by decide) strong _ (below_cons (by decide))
  rw [append_assoc]
  simp only [cons_append, ReadBack.coalescing, read, bind_eq_bind, bind_some, expect,
    if_true, Reader.map, h' rest below]
  rfl

/-- A choice between two expressions. -/
theorem Legible.choice (h : Legible inner tokens value s) (strong : 3 ≤ s)
    {whenTrue whenFalse : List Token} {first second : Expr}
    (h₁ : ReadsAs inner.expression 1 whenTrue first)
    (h₂ : ReadsAs inner.expression 1 whenFalse second) :
    Legible inner (tokens ++ .symbol "?" :: whenTrue ++ .symbol ":" :: whenFalse)
      (.conditional value first second) 2 := by
  refine .of_expression ((h.opens.append _).append _) (fun rest below => ?_) (by decide)
  have read := h.coalescing strong
    (.symbol "?" :: (whenTrue ++ .symbol ":" :: (whenFalse ++ rest))) (below_cons (by decide))
  have read₁ := h₁ (.symbol ":" :: (whenFalse ++ rest)) (below_cons (by decide))
  have whole : ReadBack.conditional inner (tokens ++ .symbol "?" :: whenTrue ++ .symbol ":" ::
    whenFalse ++ rest) =
        some (.conditional value first second, rest) := by
    simp only [append_assoc, cons_append, ReadBack.conditional, read, bind_eq_bind,
      bind_some, expect, if_true, read₁, Reader.map, h₂ rest below]
    rfl
  exact expression_of_conditional whole below

/-- Assignments group to the right. -/
theorem Legible.assigned (h : Legible inner tokens value s) (strong : 3 ≤ s)
    (h' : ReadsAs inner.expression 1 others other) (operator : AssignmentOperator) :
    Legible inner (tokens ++ .symbol operator.token :: others) (.assignment value operator other)
    1 := by
  refine .of_expression (h.opens.append _) (fun rest below => ?_) (by decide)
  have lookup : assignments.lookup (.symbol operator.token) = some operator := by
    cases operator <;> rfl
  have bond : (Token.symbol operator.token).bond < 2 := by cases operator <;> decide
  have read := h.conditional strong (.symbol operator.token :: (others ++ rest)) (below_cons bond)
  rw [append_assoc]
  simp only [cons_append, ReadBack.expression, read, bind_eq_bind, bind_some,
    loosest, lookup, Reader.map, h' rest below]
  rfl

/-- A lambda with one parameter. -/
theorem Legible.lambda {name : String} (h : Legible inner tokens (.identifier name) s)
    (strong : 3 ≤ s) (h' : ReadsAs inner.expression 1 others other) :
    Legible inner (tokens ++ .symbol "=>" :: others)
    (.lambda false (.simple name) (.expression other)) 1 := by
  refine .of_expression (h.opens.append _) (fun rest below => ?_) (by decide)
  have lookup : assignments.lookup (.symbol "=>") = none := rfl
  have read := h.conditional strong (.symbol "=>" :: (others ++ rest)) (below_cons (by decide))
  rw [append_assoc]
  simp only [cons_append, ReadBack.expression, read, bind_eq_bind, bind_some,
    loosest, lookup, if_true, Reader.map, h' rest below]
  rfl

end

end

end Sharpen.Target.ReadBack
