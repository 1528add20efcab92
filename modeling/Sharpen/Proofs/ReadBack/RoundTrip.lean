import Sharpen.Proofs.ReadBack.Rules
import Sharpen.Proofs.ReadBack.Spelling
import Sharpen.Target.Print.Declarations

/-!
# Printed expressions are read back

The tokens of a plain expression are read as its explicit tree (`Expr.Plain.legible`), and so
printing an expression and reading the text gives the expression back up to parentheses
(`printed_expression_read_back`).
-/

namespace Sharpen.Target

open List hiding lex
open Option (bind_eq_bind bind_some map_some)
open ReadBack

/-! ## All plain expressions -/

/-- The tokens of the explicit tree are read as that tree, by a grammar that can call itself `n`
levels deep. -/
def Expr.LegibleAt (n : Nat) (expr : Expr) : Prop :=
  Legible (grammar n) expr.explicit.tokens expr.explicit expr.strength

/-- The expression as an operand at a place that needs a strength. -/
def Expr.wrapped (least : Nat) (expr : Expr) : Expr :=
  if expr.strength < least then .parenthesized expr else expr

/-- The parentheses around an operand are those of the operand at its place. -/
theorem bracketed_explicit (least : Nat) (expr : Expr) :
    bracketed least expr expr.explicit = (expr.wrapped least).explicit := by
  unfold bracketed Expr.wrapped
  split <;> rfl

/-- Parentheses keep an expression plain. -/
theorem Expr.Plain.wrapped {expr : Expr} (plain : expr.Plain) (least : Nat) :
    (expr.wrapped least).Plain := by
  unfold Expr.wrapped
  split
  · exact .parenthesized plain
  · exact plain

/-- At its place an operand is strong enough. -/
theorem Expr.le_strength_wrapped {least : Nat} (top : least ≤ Strength.primary) (expr : Expr) :
    least ≤ (expr.wrapped least).strength := by
  unfold Expr.wrapped
  split
  · exact top
  · next strong => exact Nat.le_of_not_lt strong

/-- The tokens of values with commas between them. -/
abbrev valueTokens (values : List Expr) : List Token :=
  commaTokens (values.map fun value => value.explicit.tokens)

theorem valueTokens_cons_cons (first second : Expr) (values : List Expr) :
    valueTokens (first :: second :: values) =
      first.explicit.tokens ++ .symbol "," :: valueTokens (second :: values) := by
  simp only [valueTokens, map_cons, commaTokens]

/-- A value has no more tokens than all of them. -/
theorem length_le_valueTokens {values : List Expr} {value : Expr} (mem : value ∈ values) :
    value.explicit.tokens.length ≤ (valueTokens values).length := by
  induction values with
  | nil => cases mem
  | cons first values ih =>
    cases values with
    | nil =>
      obtain rfl := mem_singleton.mp mem
      exact le_rfl
    | cons second values =>
      rw [valueTokens_cons_cons, length_append, length_cons]
      rcases mem_cons.mp mem with rfl | later
      · omega
      · have := ih later
        omega

theorem argumentTokens_explicit (values : List Expr) :
    commaTokens (argumentTokens (explicitArguments (values.map Argument.plain))) =
    valueTokens values := by
  rw [explicitArguments_plain, argumentTokens_plain, map_map]
  rfl

/-- An expression has at least one token. -/
theorem Expr.LegibleAt.filled {n : Nat} {expr : Expr} (h : expr.LegibleAt n) :
    0 < expr.explicit.tokens.length := by
  obtain ⟨_, _, whole, -⟩ := h.opens
  rw [whole]
  exact Nat.succ_pos _

/-- An expression does not start with a closing bracket. -/
theorem expect_of_opens {closing : String} {tokens : List Token} (h : Opens tokens)
    (known : Token.symbol closing ∈ [Token.symbol ")", Token.symbol "]"]) (rest : List Token) :
    expect closing (tokens ++ rest) = none := by
  obtain ⟨_, _, rfl, -, open'⟩ := h
  rw [cons_append, expect, if_neg]
  rintro rfl
  exact open' known

/-- Arguments are read one after the other, each by a grammar that is one level less deep. -/
theorem arguments_valueTokens {values : List Expr} (filled : values ≠ [])
    (each : ∀ value ∈ values, ∀ n, value.explicit.tokens.length ≤ n + 1 → value.LegibleAt n)
    {n : Nat} (deep : (valueTokens values).length ≤ n + 1) {rest : List Token}
    (below : Below 1 rest) (stop : expect "," rest = none) :
    arguments (grammar n) (valueTokens values ++ rest) =
      some ((values.map Expr.explicit).map Argument.plain, rest) := by
  induction values generalizing n with
  | nil => exact absurd rfl filled
  | cons value values ih =>
    obtain ⟨first, others⟩ := forall_mem_cons.mp each
    cases values with
    | nil =>
      have read := (first n deep).expression rest below
      simp only [valueTokens, map_cons, map_nil, commaTokens, arguments, read,
        bind_eq_bind, bind_some, stop]
      rfl
    | cons second values =>
      rw [valueTokens_cons_cons, length_append, length_cons] at deep
      have legible := first n (by omega)
      have filled := legible.filled
      obtain ⟨m, rfl⟩ : ∃ m, n = m + 1 := ⟨n - 1, by omega⟩
      have read := legible.expression (.symbol "," :: (valueTokens (second :: values) ++ rest))
        (below_cons (by decide))
      have behind : (grammar (m + 1)).arguments (valueTokens (second :: values) ++ rest) = _ :=
        ih (by simp) others (n := m) (by omega)
      rw [valueTokens_cons_cons, append_assoc, cons_append]
      simp only [arguments, read, bind_eq_bind, bind_some, expect, if_true, Reader.map, behind]
      rfl

/-- Values start as the first of them does. -/
theorem opens_valueTokens {values : List Expr} (filled : values ≠ [])
    (each : ∀ value ∈ values, Opens value.explicit.tokens) : Opens (valueTokens values) := by
  cases values with
  | nil => exact absurd rfl filled
  | cons value values =>
    have first := each value mem_cons_self
    cases values with
    | nil => exact first
    | cons second values =>
      rw [valueTokens_cons_cons]
      exact first.append _

/-- The arguments between brackets, with the closing one. -/
theorem argumentsUpTo_valueTokens {values : List Expr}
    (each : ∀ value ∈ values, ∀ n, value.explicit.tokens.length ≤ n + 1 → value.LegibleAt n)
    {closing : String} (known : Token.symbol closing ∈ [Token.symbol ")", Token.symbol "]"])
    {n : Nat} (deep : (valueTokens values).length ≤ n) (rest : List Token) :
    argumentsUpTo (grammar n) closing (valueTokens values ++ .symbol closing :: rest) =
      some ((values.map Expr.explicit).map Argument.plain, rest) := by
  by_cases filled : values = []
  · subst filled
    simp only [valueTokens, map_nil, commaTokens, nil_append, argumentsUpTo, expect, if_true]
  · have opens : Opens (valueTokens values) := opens_valueTokens filled fun value mem =>
      (each value mem _ (Nat.le_succ _)).opens
    obtain ⟨token, _, whole, -⟩ := id opens
    obtain ⟨m, rfl⟩ : ∃ m, n = m + 1 := by
      rw [whole, length_cons] at deep
      exact ⟨n - 1, by omega⟩
    have bond : (Token.symbol closing).bond < 1 ∧ Token.symbol closing ≠ .symbol "," := by
      revert known
      generalize Token.symbol closing = token
      revert token
      decide
    have stop : expect "," (.symbol closing :: rest) = none := if_neg bond.2
    have read : (grammar (m + 1)).arguments (valueTokens values ++ .symbol closing :: rest) = _ :=
      arguments_valueTokens filled each deep (below_cons bond.1) stop
    simp only [argumentsUpTo, expect_of_opens opens known, read, bind_eq_bind, bind_some]
    rw [expect, if_pos rfl]
    rfl

/-- What the readers for the parts of a rule make of an expression. -/
structure Expr.ReadWithin (n : Nat) (expr : Expr) : Prop where
  expression : ReadsAs (grammar n).expression 1 expr.explicit.tokens expr.explicit
  coalescing : 3 ≤ expr.strength →
    ReadsAs (grammar n).coalescing 3 expr.explicit.tokens expr.explicit
  unary : 14 ≤ expr.strength → ReadsAs (grammar n).unary 14 expr.explicit.tokens expr.explicit

/-- The readers for parts are one level less deep. -/
theorem Expr.LegibleAt.within {n : Nat} {expr : Expr} (h : expr.LegibleAt n) :
    expr.ReadWithin (n + 1) where
  expression := h.expression
  coalescing := h.coalescing
  unary strong := h.ladder 10 le_rfl strong

/-- A word that is a name. -/
def ReadBack.Token.isName : Token → Bool
  | .word text => ReadBack.isName text
  | _ => false

/-- A name is neither a type, nor a sign, nor a literal. -/
theorem lookup_of_isName {name : String} (h : isName name = true) :
    types.lookup (.word name) = none ∧ signs.lookup (.word name) = none ∧ constants.lookup name =
    none := by
  refine ⟨?_, ?_, ?_⟩
  · exact lookup_eq_none_of_forall (P := fun token => token.isName = true) (by decide) h
  · exact lookup_eq_none_of_forall (P := fun token => token.isName = true) (by decide) h
  · exact lookup_eq_none_of_forall (P := fun text => isName text = true) (by decide) h

/-- A name is read as itself. -/
theorem Legible.name {inner : Grammar} {name : String} (known : isName name = true) :
    Legible inner [.word name] (.identifier name) 15 := by
  obtain ⟨type, sign, constant⟩ := lookup_of_isName known
  refine Legible.atom (by simp) type sign fun rest => ?_
  simp only [atom, constant, known, if_true]

/-- The operand of a sign, with its parentheses. -/
theorem Expr.Plain.signed {expr : Expr} (plain : expr.Plain) (operator : PrefixOperator) :
    ∃ operand : Expr, operand.Plain ∧ Strength.unary ≤ operand.strength ∧
      (if expr.clashesWith operator then .parenthesized expr.explicit
        else (expr.wrapped Strength.unary).explicit) = operand.explicit := by
  split
  · exact ⟨.parenthesized expr, .parenthesized plain, show 14 ≤ 15 by decide, rfl⟩
  · exact ⟨_, plain.wrapped _, Expr.le_strength_wrapped (by decide) _, rfl⟩

theorem closing_mem : Token.symbol ")" ∈ [Token.symbol ")", Token.symbol "]"] ∧
    Token.symbol "]" ∈ [Token.symbol ")", Token.symbol "]"] := by
  decide

/-- No operator asks for more than a primary expression. -/
theorem BinaryOperator.operandStrength_le_primary (operator : BinaryOperator) :
    operator.leftStrength ≤ Strength.primary ∧ operator.rightStrength ≤ Strength.primary := by
  cases operator <;> decide

/-- Every plain expression is read as its explicit tree. The induction is on the number of tokens,
because an operand that printing puts in parentheses is not a part of the expression itself. -/
theorem Expr.Plain.legible {expr : Expr} (plain : expr.Plain) {n : Nat}
    (deep : expr.explicit.tokens.length ≤ n + 1) : expr.LegibleAt n := by
  generalize size : expr.explicit.tokens.length = count at deep
  induction count using Nat.strong_induction_on generalizing expr n with
  | _ count ih =>
    -- operands read at the same depth, and parts read one level deeper
    have same {e : Expr} (plain : e.Plain) (shorter : e.explicit.tokens.length < count) :
        e.LegibleAt n := ih _ shorter plain rfl (by omega)
    have inside {e : Expr} (plain : e.Plain) (shorter : e.explicit.tokens.length < count) :
        e.ReadWithin n := by
      have filled := (same plain shorter).filled
      obtain ⟨m, rfl⟩ : ∃ m, n = m + 1 := ⟨n - 1, by omega⟩
      exact (ih _ shorter plain rfl (by omega)).within
    have legibleValues {values : List Expr} (each : ∀ value ∈ values, value.Plain)
        (shorter : (valueTokens values).length < count) : ∀ value ∈ values, ∀ m,
        value.explicit.tokens.length ≤ m + 1 → value.LegibleAt m := by
      intro value mem m le
      exact ih _ ((length_le_valueTokens mem).trans_lt shorter) (each value mem) rfl le
    cases plain
    all_goals simp! only [Expr.LegibleAt, bracketed_explicit, argumentTokens_explicit,
      length_append, length_cons, cons_append, nil_append] at size ⊢
    case null | numeric | string | char => exact Legible.atom (by simp) rfl rfl fun _ => rfl
    case bool value => cases value <;> exact Legible.atom (by simp!) rfl rfl fun _ => rfl
    case identifier known => exact Legible.name known.free
    case memberAccess inner known =>
      have receiver := same (inner.wrapped Strength.primary) (by omega)
      refine receiver.attach (Expr.le_strength_wrapped le_rfl _) (.memberAccess · _ [])
        fun rest => ?_
      simp only [cons_append, nil_append, attachment, known.free, if_true]
    case invocation inner each =>
      have receiver := same (inner.wrapped Strength.primary) (by omega)
      have arguments := argumentsUpTo_valueTokens (n := n) (legibleValues each (by omega))
        closing_mem.1 (by omega)
      rw [append_assoc, cons_append, explicitArguments_plain]
      refine receiver.attach (Expr.le_strength_wrapped le_rfl _) (.invocation · _) fun rest => ?_
      simp only [cons_append, append_assoc, nil_append, attachment, Reader.map, arguments rest]
      rfl
    case elementAccess inner each =>
      have receiver := same (inner.wrapped Strength.primary) (by omega)
      have arguments := argumentsUpTo_valueTokens (n := n) (legibleValues each (by omega))
        closing_mem.2 (by omega)
      rw [append_assoc, cons_append, explicitArguments_plain]
      refine receiver.attach (Expr.le_strength_wrapped le_rfl _) (.elementAccess · _) fun rest => ?_
      simp only [cons_append, append_assoc, nil_append, attachment, Reader.map, arguments rest]
      rfl
    case binary operator first second =>
      obtain ⟨leftTop, rightTop⟩ := operator.operandStrength_le_primary
      have before := same (first.wrapped operator.leftStrength) (by omega)
      by_cases grouped : operator = .coalesce
      · subst grouped
        have behind := inside (second.wrapped BinaryOperator.coalesce.rightStrength) (by omega)
        exact before.coalesce (Expr.le_strength_wrapped leftTop _)
          (behind.coalescing (Expr.le_strength_wrapped rightTop _))
      · exact before.binary (same (second.wrapped operator.rightStrength) (by omega))
          (Expr.le_strength_wrapped leftTop _) (Expr.le_strength_wrapped rightTop _) grouped
    case assignment operator first second =>
      have before := same (first.wrapped Strength.unary) (by omega)
      exact before.assigned (le_trans (by decide) (Expr.le_strength_wrapped (by decide) _))
        (inside (second.wrapped Strength.assignment) (by omega)).expression operator
    case conditional first second third =>
      have condition := same (first.wrapped Strength.coalesce) (by omega)
      exact condition.choice (Expr.le_strength_wrapped (by decide) _)
        (inside (second.wrapped Strength.conditional) (by omega)).expression
        (inside (third.wrapped Strength.conditional) (by omega)).expression
    case prefixUnary operator _ inner =>
      obtain ⟨_, plain, strong, same⟩ := inner.signed operator
      rw [same] at size ⊢
      refine Legible.signed [.symbol operator.token] (.prefixUnary operator) ?_ (fun _ => ?_)
        ((inside plain (by omega)).unary strong)
      · cases operator <;> exact opens_cons rfl (by decide)
      · cases operator <;> rfl
    case postfixUnary operator inner =>
      have receiver := same (inner.wrapped Strength.primary) (by omega)
      refine receiver.attach (Expr.le_strength_wrapped le_rfl _) (.postfixUnary · operator)
        fun rest => ?_
      cases operator <;> rfl
    case await inner =>
      have operand := inside (inner.wrapped Strength.unary) (by omega)
      exact Legible.signed [.word "await"] .await (opens_cons rfl (by decide)) (fun _ => rfl)
        (operand.unary (Expr.le_strength_wrapped (by decide) _))
    case cast keyword _ inner =>
      have operand := inside (inner.wrapped Strength.unary) (by omega)
      refine Legible.signed [.symbol "(", .word keyword.keyword, .symbol ")"]
        (.cast (.predefined keyword)) (opens_cons rfl (by decide)) (fun _ => ?_)
        (operand.unary (Expr.le_strength_wrapped (by decide) _))
      cases keyword <;> rfl
    case as keyword inner | is keyword inner =>
      exact (same (inner.wrapped Strength.relational) (by omega)).typed
        (Expr.le_strength_wrapped (by decide) _) keyword rfl
    case parenthesized inner =>
      exact Legible.parenthesized (same inner (by omega)).opens (inside inner (by omega)).expression
    case lambda known inner =>
      exact (Legible.name known.free).lambda (by decide)
        (inside (inner.wrapped Strength.assignment) (by omega)).expression

/-- The text of a plain expression is cut into the tokens of its explicit tree. -/
theorem Expr.Plain.lex_render {expr : Expr} (plain : expr.Plain) (level width : Nat) :
    lex ((expr.layout level).render width).toList = some expr.explicit.tokens := by
  have read : lex (chars width (expr.layout level) ++ []) = _ := plain.reads [] ends_nil
  rw [append_nil, lex_nil, map_some, append_nil] at read
  exact read

/-- The text of a plain expression is read as its explicit tree. -/
theorem Expr.Plain.readExpression_render {expr : Expr} (plain : expr.Plain) (level width : Nat) :
    readExpression ((expr.layout level).render width) = some expr.explicit := by
  have legible := plain.legible (Nat.le_succ _)
  obtain ⟨count, size⟩ : ∃ count, expr.explicit.tokens.length = count + 1 :=
    Nat.exists_eq_add_one.mpr legible.filled
  have read : (grammar (count + 1)).expression (expr.explicit.tokens ++ []) = _ :=
    (plain.legible size.le).expression [] (below_nil 1)
  rw [append_nil] at read
  simp only [readExpression, plain.lex_render, bind_eq_bind, bind_some, size, read]

end Sharpen.Target

namespace Sharpen

open List hiding lex
open Target Target.ReadBack

/-- Printing a plain expression and reading the text back gives the same tree up to parentheses,
wherever the expression stands. -/
theorem printed_expression_read_back {expr : Target.Expr} (plain : expr.Plain) (level width : Nat) :
    (readExpression ((expr.layout level).render width)).map Target.Expr.erased = some expr.erased :=
    by
  rw [plain.readExpression_render, Option.map_some, plain.explicit_erased]

/-- An assignment, two signs, a lambda, a cast and a choice, each as an operand that needs
parentheses. -/
def nestedOperands : Target.Expr :=
  .binary (.assignment (.identifier "a") .simple
  (.prefixUnary .minus (.prefixUnary .minus (.literal (.numeric "1")))))
    .coalesce
    (.lambda false (.simple "x") (.expression
      (.invocation (.memberAccess (.cast (.predefined .int) (.identifier "b")) "c" [])
        ([.conditional (.is (.identifier "p") (.predefined .bool)) (.literal (.char 'q'))
            (.binary (.identifier "r") .subtract (.binary (.identifier "s") .subtract
            (.identifier "t"))),
          .literal (.string "\"\n")].map Argument.plain))))

theorem nested_operands_read_back : nestedOperands.Plain ∧ nestedOperands.text 4 =
      "(a = -(-1)) ?? (x => ((int)b).c(p is bool ? 'q' : r - (s - t), \"\\\"\\n\"))" ∧
    (readExpression (nestedOperands.text 4)).map Target.Expr.erased = some nestedOperands.erased :=
    by
  have name : ∀ text ∈ ["a", "b", "c", "p", "r", "s", "t", "x"], IsIdentifier text := by
    intro text mem
    refine ⟨⟨?_, ?_⟩, ?_⟩ <;> revert text <;> decide
  have plain : nestedOperands.Plain := by
    refine .binary _ (.assignment _ (.identifier (name "a" (by decide))) ?minus)
      (.lambda (name "x" (by decide)) (.invocation (.memberAccess ?cast (name "c" (by decide)))
      ?values))
    case minus => exact .prefixUnary _ (.prefixUnary _ (.numeric ⟨by decide, by decide⟩))
    case cast => exact .cast _ (.identifier (name "b" (by decide)))
    case values =>
      refine forall_mem_cons.mpr ⟨.conditional ?condition (.char 'q') ?difference,
        forall_mem_singleton.mpr (.string _)⟩
      case condition => exact .is _ (.identifier (name "p" (by decide)))
      case difference =>
        exact .binary _ (.identifier (name "r" (by decide)))
          (.binary _ (.identifier (name "s" (by decide))) (.identifier (name "t" (by decide))))
  exact ⟨plain, by decide, printed_expression_read_back plain 0 4⟩

end Sharpen
