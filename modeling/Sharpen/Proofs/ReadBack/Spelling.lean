import Sharpen.Proofs.ReadBack.Grammar
import Sharpen.Target.Print.Code

/-!
# Tokens of printed expressions

`Expr.Plain` are the expressions of the operator grammar. Printing one puts parentheses around
operands that bind too loosely; `Expr.explicit` is the tree with these parentheses as nodes of their
own, and `Expr.tokens` writes a tree down token by token without adding any.

The main statement, `Expr.Plain.reads`, is that the text of a plain expression is cut into the
tokens of its explicit tree. Tokens next to each other do not run together: behind a word or number
comes a blank or a symbol, an operator between two operands has blanks around it, and the sign
before an operand does not go on into the operand (`Expr.Plain.starts_apart`).
-/

namespace Sharpen.Target

open List
open ReadBack

variable {expr : Expr} {level : Nat}

/-! ## Plain expressions -/

/-- A name that is not a keyword. -/
structure IsIdentifier (name : String) : Prop extends IsWord name where
  free : isName name = true

/-- An argument handed over by value and without a name. -/
def Argument.plain (value : Expr) : Argument :=
  ⟨none, none, value⟩

/-- The expressions of the operator grammar. -/
inductive Expr.Plain : Expr → Prop where
  | null : Plain (.literal .null)
  | bool (value : Bool) : Plain (.literal (.bool value))
  | numeric {digits : String} (number : IsNumber digits) : Plain (.literal (.numeric digits))
  | string (value : String) : Plain (.literal (.string value))
  | char (value : Char) : Plain (.literal (.char value))
  | identifier {name : String} (known : IsIdentifier name) : Plain (.identifier name)
  | memberAccess {receiver : Expr} {name : String} (inner : Plain receiver)
      (known : IsIdentifier name) : Plain (.memberAccess receiver name [])
  | invocation {target : Expr} {values : List Expr} (inner : Plain target)
      (each : ∀ value ∈ values, Plain value) :
      Plain (.invocation target (values.map Argument.plain))
  | elementAccess {target : Expr} {values : List Expr} (inner : Plain target)
      (each : ∀ value ∈ values, Plain value) :
      Plain (.elementAccess target (values.map Argument.plain))
  | binary {left right : Expr} (operator : BinaryOperator) (first : Plain left)
      (second : Plain right) : Plain (.binary left operator right)
  | assignment {left right : Expr} (operator : AssignmentOperator) (first : Plain left)
      (second : Plain right) : Plain (.assignment left operator right)
  | conditional {condition whenTrue whenFalse : Expr} (first : Plain condition)
      (second : Plain whenTrue) (third : Plain whenFalse) :
      Plain (.conditional condition whenTrue whenFalse)
  | prefixUnary (operator : PrefixOperator) {operand : Expr} (inner : Plain operand) :
      Plain (.prefixUnary operator operand)
  | postfixUnary {operand : Expr} (operator : PostfixOperator) (inner : Plain operand) :
      Plain (.postfixUnary operand operator)
  | await {operand : Expr} (inner : Plain operand) : Plain (.await operand)
  | cast (keyword : PredefinedType) {operand : Expr} (inner : Plain operand) :
      Plain (.cast (.predefined keyword) operand)
  | as {operand : Expr} (keyword : PredefinedType) (inner : Plain operand) :
      Plain (.as operand (.predefined keyword))
  | is {operand : Expr} (keyword : PredefinedType) (inner : Plain operand) :
      Plain (.is operand (.predefined keyword))
  | parenthesized {value : Expr} (inner : Plain value) : Plain (.parenthesized value)
  | lambda {name : String} {body : Expr} (known : IsIdentifier name) (inner : Plain body) :
      Plain (.lambda false (.simple name) (.expression body))

/-! ## Trees without parentheses, and trees with all of them -/

mutual

/-- The expression without its parenthesized nodes. -/
def Expr.erased : Expr → Expr
  | .parenthesized inner => inner.erased
  | .memberAccess receiver name typeArguments => .memberAccess receiver.erased name typeArguments
  | .invocation target arguments => .invocation target.erased (erasedArguments arguments)
  | .elementAccess target arguments => .elementAccess target.erased (erasedArguments arguments)
  | .binary left operator right => .binary left.erased operator right.erased
  | .assignment left operator right => .assignment left.erased operator right.erased
  | .conditional condition whenTrue whenFalse =>
    .conditional condition.erased whenTrue.erased whenFalse.erased
  | .prefixUnary operator operand => .prefixUnary operator operand.erased
  | .postfixUnary operand operator => .postfixUnary operand.erased operator
  | .await operand => .await operand.erased
  | .cast type operand => .cast type operand.erased
  | .as operand type => .as operand.erased type
  | .is operand type => .is operand.erased type
  | .lambda isAsync parameters (.expression body) =>
    .lambda isAsync parameters (.expression body.erased)
  | expr => expr

@[inherit_doc Expr.erased]
def erasedArguments : List Argument → List Argument
  | [] => []
  | ⟨name, passing, value⟩ :: rest => ⟨name, passing, value.erased⟩ :: erasedArguments rest

end

/-- A rebuilt expression, parenthesized when the expression binds more loosely than `least`. -/
def bracketed (least : Nat) (expr rebuilt : Expr) : Expr :=
  if expr.strength < least then .parenthesized rebuilt else rebuilt

mutual

/-- The expression with the parentheses that printing inserts. -/
def Expr.explicit : Expr → Expr
  | .parenthesized inner => .parenthesized inner.explicit
  | .memberAccess receiver name typeArguments =>
    .memberAccess (bracketed Strength.primary receiver receiver.explicit) name typeArguments
  | .invocation target arguments =>
    .invocation (bracketed Strength.primary target target.explicit) (explicitArguments arguments)
  | .elementAccess target arguments =>
    .elementAccess (bracketed Strength.primary target target.explicit) (explicitArguments arguments)
  | .binary left operator right =>
    .binary (bracketed operator.leftStrength left left.explicit) operator
      (bracketed operator.rightStrength right right.explicit)
  | .assignment left operator right =>
    .assignment (bracketed Strength.unary left left.explicit) operator
      (bracketed Strength.assignment right right.explicit)
  | .conditional condition whenTrue whenFalse =>
    .conditional (bracketed Strength.coalesce condition condition.explicit)
      (bracketed Strength.conditional whenTrue whenTrue.explicit)
      (bracketed Strength.conditional whenFalse whenFalse.explicit)
  | .prefixUnary operator operand =>
    .prefixUnary operator (if operand.clashesWith operator then .parenthesized operand.explicit
        else bracketed Strength.unary operand operand.explicit)
  | .postfixUnary operand operator =>
    .postfixUnary (bracketed Strength.primary operand operand.explicit) operator
  | .await operand => .await (bracketed Strength.unary operand operand.explicit)
  | .cast type operand => .cast type (bracketed Strength.unary operand operand.explicit)
  | .as operand type => .as (bracketed Strength.relational operand operand.explicit) type
  | .is operand type => .is (bracketed Strength.relational operand operand.explicit) type
  | .lambda isAsync parameters (.expression body) =>
    .lambda isAsync parameters (.expression (bracketed Strength.assignment body body.explicit))
  | expr => expr

@[inherit_doc Expr.explicit]
def explicitArguments : List Argument → List Argument
  | [] => []
  | ⟨name, passing, value⟩ :: rest => ⟨name, passing, value.explicit⟩ :: explicitArguments rest

end

/-- A recursion along arguments, on arguments that are nothing but their values, is the recursion
along the values that takes the same steps. -/
theorem eq_of_plain {α : Type} (read : List Argument → α) (readValues : List Expr → α)
    (hnil : read [] = readValues [])
    (hcons : ∀ value rest values, read rest = readValues values → read (.plain value :: rest) =
      readValues (value :: values))
    (values : List Expr) : read (values.map Argument.plain) = readValues values := by
  induction values with
  | nil => exact hnil
  | cons value values ih => exact hcons value _ values ih

/-- Arguments are erased value by value. -/
theorem erasedArguments_plain (values : List Expr) :
    erasedArguments (values.map Argument.plain) = (values.map Expr.erased).map Argument.plain :=
  eq_of_plain erasedArguments (fun values => (values.map .erased).map .plain) rfl
    (fun _ _ _ => congrArg (_ :: ·)) values

/-- So they are made explicit. -/
theorem explicitArguments_plain (values : List Expr) :
    explicitArguments (values.map Argument.plain) = (values.map Expr.explicit).map Argument.plain :=
  eq_of_plain explicitArguments (fun values => (values.map .explicit).map .plain) rfl
    (fun _ _ _ => congrArg (_ :: ·)) values

/-- Parentheses around an operand are erased again. -/
theorem bracketed_erased (least : Nat) (expr rebuilt : Expr) :
    (bracketed least expr rebuilt).erased = rebuilt.erased := by
  unfold bracketed
  split <;> rfl

theorem map_explicit_erased {values : List Expr}
    (each : ∀ value ∈ values, value.explicit.erased = value.erased) :
    erasedArguments (explicitArguments (values.map Argument.plain)) =
    erasedArguments (values.map Argument.plain) := by
  rw [explicitArguments_plain, erasedArguments_plain, erasedArguments_plain]
  congr 1
  rw [map_map]
  exact map_congr_left each

/-- The parentheses that printing inserts do not change the tree without parentheses. -/
theorem Expr.Plain.explicit_erased (plain : expr.Plain) : expr.explicit.erased = expr.erased := by
  induction plain
  all_goals simp! only [bracketed_erased, *]
  case invocation ihs | elementAccess ihs => rw [map_explicit_erased ihs]
  case prefixUnary ih =>
    split
    · simp! only [ih]
    · rw [bracketed_erased, ih]

/-! ## Tokens -/

/-- A literal is one token. -/
def Literal.token : Literal → Token
  | .null => .word "null"
  | .bool true => .word "true"
  | .bool false => .word "false"
  | .numeric digits => .number digits
  | .string value => .string value
  | .char value => .char value

/-- The tokens of a predefined type. -/
def TypeSyntax.tokens : TypeSyntax → List Token
  | .predefined keyword => [.word keyword.keyword]
  | _ => []

/-- Lists of tokens with commas between them. -/
def commaTokens : List (List Token) → List Token
  | [] => []
  | [one] => one
  | one :: rest => one ++ .symbol "," :: commaTokens rest

mutual

/-- The tokens of an expression, written as the tree has them. -/
def Expr.tokens : Expr → List Token
  | .literal value => [value.token]
  | .identifier name => [.word name]
  | .memberAccess receiver name _ => receiver.tokens ++ [.symbol ".", .word name]
  | .invocation target arguments =>
    target.tokens ++ .symbol "(" :: commaTokens (argumentTokens arguments) ++ [.symbol ")"]
  | .elementAccess target arguments =>
    target.tokens ++ .symbol "[" :: commaTokens (argumentTokens arguments) ++ [.symbol "]"]
  | .binary left operator right => left.tokens ++ .symbol operator.token :: right.tokens
  | .assignment left operator right => left.tokens ++ .symbol operator.token :: right.tokens
  | .conditional condition whenTrue whenFalse =>
    condition.tokens ++ .symbol "?" :: whenTrue.tokens ++ .symbol ":" :: whenFalse.tokens
  | .prefixUnary operator operand => .symbol operator.token :: operand.tokens
  | .postfixUnary operand operator => operand.tokens ++ [.symbol operator.token]
  | .await operand => .word "await" :: operand.tokens
  | .cast type operand => .symbol "(" :: type.tokens ++ .symbol ")" :: operand.tokens
  | .as operand type => operand.tokens ++ .word "as" :: type.tokens
  | .is operand type => operand.tokens ++ .word "is" :: type.tokens
  | .parenthesized inner => .symbol "(" :: inner.tokens ++ [.symbol ")"]
  | .lambda _ (.simple name) (.expression body) => .word name :: .symbol "=>" :: body.tokens
  | _ => []

/-- The tokens of each argument. -/
def argumentTokens : List Argument → List (List Token)
  | [] => []
  | ⟨_, _, value⟩ :: rest => value.tokens :: argumentTokens rest

end

theorem argumentTokens_plain (values : List Expr) :
    argumentTokens (values.map Argument.plain) = values.map Expr.tokens :=
  eq_of_plain argumentTokens (·.map Expr.tokens) rfl (fun _ _ _ => congrArg (_ :: ·)) values

/-! ## Layouts as characters -/

/-- The characters of a layout. -/
def chars (width : Nat) (layout : Layout) : List Char :=
  (layout.render width).toList

section

variable {width : Nat}

@[simp]
theorem chars_nil : chars width [] = [] :=
  rfl

/-- A text is written as it is. -/
@[simp]
theorem chars_text (text : String) (rest : Layout) :
    chars width (.text text :: rest) = text.toList ++ chars width rest := by
  simp only [chars, Layout.render, String.toList_join, map_cons, flatMap_cons, Piece.render]

@[simp]
theorem chars_append (first second : Layout) :
    chars width (first ++ second) = chars width first ++ chars width second := by
  simp only [chars, Layout.render, String.toList_join, map_append, flatMap_append]

theorem chars_enclosed (before after : String) (inner : Layout) :
    chars width (Layout.enclosed before after inner) = before.toList ++
    (chars width inner ++ after.toList) := by
  simp only [Layout.enclosed, cons_append, chars_text, chars_append, chars_nil, append_nil]

variable {inner : Layout} {tokens : List Token}

/-- What stands between brackets is read before any text. -/
theorem closed_enclosed {opening closing : String}
    (before : Closed opening.toList [.symbol opening])
    (after : Closed closing.toList [.symbol closing])
    (starts : ∀ rest, Ends (closing.toList ++ rest)) (h : Reads (chars width inner) tokens) :
    Closed (chars width (Layout.enclosed opening closing inner)) (.symbol opening :: tokens ++
    [.symbol closing]) := by
  rw [chars_enclosed]
  exact before.append (h.append after starts)

/-- Parentheses around anything. -/
theorem closed_parenthesized (h : Reads (chars width inner) tokens) :
    Closed (chars width (Layout.enclosed "(" ")" inner)) (.symbol "(" :: tokens ++ [.symbol ")"]) :=
  closed_enclosed (closed_symbol (by decide) (by decide)) (closed_symbol (by decide) (by decide))
    (fun _ => ends_cons (by decide)) h

/-- Brackets around anything. -/
theorem closed_indexed (h : Reads (chars width inner) tokens) :
    Closed (chars width (Layout.enclosed "[" "]" inner)) (.symbol "[" :: tokens ++ [.symbol "]"]) :=
  closed_enclosed (closed_symbol (by decide) (by decide)) (closed_symbol (by decide) (by decide))
    (fun _ => ends_cons (by decide)) h

/-- Where printing puts parentheses, the explicit tree has them. -/
theorem reads_operand {least : Nat} {rebuilt : Expr}
    (h : Reads (chars width inner) rebuilt.tokens) :
    Reads (chars width (operand least expr inner)) (bracketed least expr rebuilt).tokens := by
  unfold operand bracketed
  split
  · exact (closed_parenthesized h).weaken
  · exact h

theorem closed_comma : Closed ", ".toList [.symbol ","] :=
  (closed_symbol (by decide) (by decide) : Closed ",".toList [.symbol ","]).append closed_blank

/-- Commas between what is read one by one. -/
theorem reads_commaSeparated {layouts : List Layout} {tokens : List (List Token)}
    (each : Forall₂ (fun layout tokens => Reads (chars width layout) tokens) layouts tokens) :
    Reads (chars width (Layout.commaSeparated layouts)) (commaTokens tokens) := by
  unfold Layout.commaSeparated
  induction each with
  | nil => exact Reads.nil
  | @cons layout tokens layouts lists first rest ih =>
    cases rest with
    | nil => exact first
    | cons second rest =>
      rw [Layout.separated, commaTokens, chars_append, chars_text]
      · exact first.joined closed_comma (fun _ => ends_cons (by decide)) ih
      · nofun
      · nofun

/-! ## Where an operand starts -/

/-- Characters that a primary expression may start with. -/
def isPrimaryStart (c : Char) : Bool :=
  isWordChar c || c = Text.stringQuote || c = Text.charQuote || c = '('

/-- The characters start as a primary expression does. -/
def StartsPrimary (cs : List Char) : Prop :=
  ∃ c rest, cs = c :: rest ∧ isPrimaryStart c = true

variable {cs : List Char}

theorem StartsPrimary.append (h : StartsPrimary cs) (more : List Char) :
    StartsPrimary (cs ++ more) := by
  obtain ⟨c, rest, rfl, start⟩ := h
  exact ⟨c, rest ++ more, rfl, start⟩

/-- A word starts a primary expression. -/
theorem startsPrimary_word {text : String} (h : IsWord text) : StartsPrimary text.toList := by
  obtain ⟨c, rest, whole, -⟩ := h.exists_cons
  refine ⟨c, rest, whole, ?_⟩
  have word := all_eq_true.mp h.chars c (by rw [whole]; exact mem_cons_self)
  rw [isPrimaryStart, word]
  rfl

/-- A number starts a primary expression. -/
theorem startsPrimary_number {digits : String} (h : IsNumber digits) :
    StartsPrimary digits.toList := by
  obtain ⟨c, rest, whole⟩ := exists_cons_of_ne_nil h.filled
  refine ⟨c, rest, whole, ?_⟩
  have digit := all_eq_true.mp h.chars c (by rw [whole]; exact mem_cons_self)
  rw [isPrimaryStart, isWordChar_of_isDigit digit]
  rfl

/-- A quoted text starts a primary expression. -/
theorem startsPrimary_quoted (quote text : String)
    (h : ∃ c rest, quote.toList = c :: rest ∧ isPrimaryStart c = true) :
    StartsPrimary (quote ++ text ++ quote).toList := by
  rw [String.toList_append, String.toList_append]
  exact (StartsPrimary.append h _).append _

theorem startsPrimary_parenthesized (inner : Layout) :
    StartsPrimary (chars width (Layout.enclosed "(" ")" inner)) := by
  rw [chars_enclosed]
  exact ⟨'(', _, rfl, by decide⟩

/-- In parentheses or not, an operand starts a primary expression. -/
theorem startsPrimary_operand
    (h : Strength.primary ≤ expr.strength → StartsPrimary (chars width inner)) :
    StartsPrimary (chars width (operand Strength.primary expr inner)) := by
  unfold operand
  split
  · exact startsPrimary_parenthesized inner
  · next strong => exact h (Nat.le_of_not_lt strong)

/-- Every operator binds more loosely than a sign. -/
theorem BinaryOperator.strength_lt_unary (operator : BinaryOperator) :
    operator.strength < Strength.unary := by
  cases operator <;> decide

/-- What is printed for a primary expression starts as one. -/
theorem Expr.Plain.startsPrimary (plain : expr.Plain) (strong : Strength.primary ≤ expr.strength) :
    StartsPrimary (chars width (expr.layout level)) := by
  induction plain
  case' bool value => cases value
  all_goals simp! only [chars_append, chars_text, Layout.write] at strong ⊢
  case null | bool.false | bool.true =>
    exact (startsPrimary_word ⟨by decide, by decide⟩).append _
  case numeric number => exact (startsPrimary_number number).append _
  case string | char => exact (startsPrimary_quoted _ _ ⟨_, _, rfl, by decide⟩).append _
  case identifier known => exact (startsPrimary_word known.toIsWord).append _
  case memberAccess ih | invocation ih _ | elementAccess ih _ | postfixUnary ih =>
    exact (startsPrimary_operand ih).append _
  case parenthesized => exact startsPrimary_parenthesized _
  case binary operator _ _ _ _ =>
    exact absurd (Nat.lt_trans operator.strength_lt_unary (by decide)) (Nat.not_lt.mpr strong)
  all_goals exact absurd strong (by decide)

/-- The character does not go on with a longer symbol than the operator. -/
def PrefixOperator.Free (operator : PrefixOperator) (c : Char) : Prop :=
  ∀ symbol ∈ symbols, ¬operator.token.toList ++ [c] <+: symbol.toList

/-- A primary expression does not go on with a sign. -/
theorem PrefixOperator.free_of_isPrimaryStart (operator : PrefixOperator) {c : Char}
    (start : isPrimaryStart c = true) : operator.Free c := by
  intro symbol known within
  obtain ⟨-, word, string, char⟩ := isSymbolChar_of_mem known
    (within.subset (mem_append_right _ mem_cons_self))
  have parenthesis : c = '(' := by simpa [isPrimaryStart, word, string, char] using start
  subst parenthesis
  revert symbol
  cases operator <;> decide

/-- The first character of an operator. -/
def PrefixOperator.mark : PrefixOperator → Char
  | .plus | .increment => '+'
  | .minus | .decrement => '-'
  | .logicalNot => '!'
  | .bitwiseNot => '~'

/-- A sign starts with its mark. -/
theorem PrefixOperator.token_eq_cons (operator : PrefixOperator) :
    ∃ rest, operator.token.toList = operator.mark :: rest := by
  cases operator <;> exact ⟨_, rfl⟩

instance (operator : PrefixOperator) (c : Char) : Decidable (operator.Free c) :=
  inferInstanceAs (Decidable (∀ symbol ∈ symbols, ¬operator.token.toList ++ [c] <+: symbol.toList))

/-- Signs that do not clash do not run together. -/
theorem PrefixOperator.free_of_not_clashes {outer inner : PrefixOperator}
    (h : outer.clashes inner = false) : outer.Free inner.mark := by
  revert h
  cases outer <;> cases inner <;> decide

/-- The characters do not go on with the operator before them. -/
def PrefixOperator.Before (operator : PrefixOperator) (cs : List Char) : Prop :=
  ∃ c rest, cs = c :: rest ∧ operator.Free c

/-- A primary expression can follow a sign. -/
theorem StartsPrimary.before (h : StartsPrimary cs) (operator : PrefixOperator) :
    operator.Before cs := by
  obtain ⟨c, rest, whole, start⟩ := h
  exact ⟨c, rest, whole, operator.free_of_isPrimaryStart start⟩

/-- The operand of a sign does not go on with the sign. -/
theorem Expr.Plain.starts_apart (plain : expr.Plain) (strong : Strength.unary ≤ expr.strength)
    {operator : PrefixOperator} (h : expr.clashesWith operator = false) :
    operator.Before (chars width (expr.layout level)) := by
  by_cases primary : Strength.primary ≤ expr.strength
  · exact (plain.startsPrimary primary).before operator
  · cases plain with
    | prefixUnary inner =>
      obtain ⟨_, whole⟩ := inner.token_eq_cons
      simp! only [chars_text, whole]
      exact ⟨_, _, rfl, PrefixOperator.free_of_not_clashes h⟩
    | await =>
      simp! only [chars_text]
      exact StartsPrimary.before ⟨'a', _, rfl, by decide⟩ operator
    | cast =>
      simp! only [chars_append]
      exact ((startsPrimary_parenthesized _).append _).before operator
    | binary operator => exact absurd strong (Nat.not_le.mpr operator.strength_lt_unary)
    | assignment | conditional | as | is | lambda =>
      simp only [Expr.strength] at strong
      exact absurd strong (by decide)
    | _ => exact absurd (Nat.le_refl _) primary

/-! ## The tokens of the text -/

/-- Predefined types are words. -/
theorem PredefinedType.isWord_keyword (type : PredefinedType) : IsWord type.keyword := by
  cases type <;> exact ⟨by decide, by decide⟩

theorem BinaryOperator.token_mem_symbols (operator : BinaryOperator) : operator.token ∈ symbols :=
    by
  cases operator <;> decide

theorem AssignmentOperator.token_mem_symbols (operator : AssignmentOperator) :
    operator.token ∈ symbols := by
  cases operator <;> decide

theorem PrefixOperator.token_mem_symbols (operator : PrefixOperator) : operator.token ∈ symbols :=
    by
  cases operator <;> decide

/-- A postfix operator ends before anything. -/
theorem PostfixOperator.closed_token (operator : PostfixOperator) :
    Closed operator.token.toList [.symbol operator.token] := by
  cases operator <;> exact closed_symbol (by decide) (by decide)

theorem reads_predefined (type : PredefinedType) :
    Reads (chars width [.text type.keyword]) [.word type.keyword] := by
  rw [chars_text, chars_nil, append_nil]
  exact reads_word type.isWord_keyword

theorem argumentLayouts_plain (level : Nat) (values : List Expr) :
    argumentLayouts level (values.map Argument.plain) = values.map (Expr.layout level) :=
  eq_of_plain (argumentLayouts level) (·.map (Expr.layout level)) rfl
    (fun _ _ _ => congrArg (_ :: ·)) values

/-- Arguments with commas between them. -/
theorem reads_arguments {values : List Expr}
    (each : ∀ value ∈ values, Reads (chars width (value.layout level)) value.explicit.tokens) :
    Reads (chars width (Layout.commaSeparated (argumentLayouts level (values.map Argument.plain))))
      (commaTokens (argumentTokens (explicitArguments (values.map Argument.plain)))) := by
  rw [explicitArguments_plain, argumentTokens_plain, argumentLayouts_plain]
  refine reads_commaSeparated ?_
  rw [map_map]
  exact forall₂_map_left_iff.mpr (forall₂_map_right_iff.mpr (forall₂_same.mpr each))

/-- The sign before an operand is read on its own. -/
theorem reads_signed {operator : PrefixOperator} (starts : operator.Before cs)
    (h : Reads cs tokens) :
    Reads (operator.token.toList ++ cs) (.symbol operator.token :: tokens) := by
  intro rest ends
  obtain ⟨c, cs, rfl, free⟩ := starts
  have apart : Apart operator.token (c :: cs ++ rest) := apart_cons free
  rw [append_assoc, lex_symbol operator.token_mem_symbols apart, h rest ends, Option.map_map]
  rfl

/-- The text of an expression is cut into the tokens of its explicit tree. -/
theorem Expr.Plain.reads (plain : expr.Plain) :
    Reads (chars width (expr.layout level)) expr.explicit.tokens := by
  induction plain
  case' bool value => cases value
  all_goals simp! only [chars_append, chars_text, chars_nil, append_nil, Layout.write]
  case null | bool.false | bool.true => exact reads_word ⟨by decide, by decide⟩
  case numeric number => exact reads_number number
  case string value => exact (closed_string value).weaken
  case char value => exact (closed_char value).weaken
  case identifier known => exact reads_word known.toIsWord
  case memberAccess known ih =>
    exact (reads_operand ih).joined (closed_symbol (by decide) (by decide))
      (fun _ => ends_cons (by decide)) (reads_word known.toIsWord)
  case invocation ih ihs =>
    rw [append_assoc]
    refine ((reads_operand ih).append (closed_parenthesized (reads_arguments ihs)) ?_).weaken
    intro rest
    rw [chars_enclosed]
    exact ends_cons (by decide)
  case elementAccess ih ihs =>
    rw [append_assoc]
    refine ((reads_operand ih).append (closed_indexed (reads_arguments ihs)) ?_).weaken
    intro rest
    rw [chars_enclosed]
    exact ends_cons (by decide)
  case binary operator _ _ ih₁ ih₂ | assignment operator _ _ ih₁ ih₂ =>
    exact (reads_operand ih₁).joined (closed_spaced operator.token_mem_symbols) (ends_spaced _)
      (reads_operand ih₂)
  case conditional ih₁ ih₂ ih₃ =>
    refine ((reads_operand ih₁).joined ?_ ?_ (reads_operand ih₂)).joined ?_ ?_ (reads_operand ih₃)
    · exact closed_spaced (show "?" ∈ symbols by decide)
    · exact ends_spaced "?"
    · exact closed_spaced (show ":" ∈ symbols by decide)
    · exact ends_spaced ":"
  case prefixUnary operator inside inner ih =>
    cases clash : inside.clashesWith operator with
    | true =>
      simp! only [if_true]
      exact reads_signed ((startsPrimary_parenthesized _).before operator)
        (closed_parenthesized ih).weaken
    | false =>
      simp only [Bool.false_eq_true, if_false]
      refine reads_signed ?_ (reads_operand ih)
      unfold operand
      split
      · exact (startsPrimary_parenthesized _).before operator
      · next strong => exact inner.starts_apart (Nat.le_of_not_lt strong) clash
  case postfixUnary operator _ ih =>
    refine ((reads_operand ih).append operator.closed_token ?_).weaken
    cases operator <;> exact fun _ => ends_cons (by decide)
  case await ih =>
    have word : IsWord "await" := ⟨by decide, by decide⟩
    have closed : Closed "await ".toList [.word "await"] :=
      (reads_word word).append closed_blank fun _ => ends_cons (by decide)
    exact closed.reads (reads_operand ih)
  case cast keyword _ _ ih =>
    simp only [Bool.and_false, Bool.false_eq_true, if_false]
    rw [append_cons]
    exact (closed_parenthesized (reads_predefined keyword)).reads (reads_operand ih)
  case as keyword _ ih =>
    have word : IsWord "as" := ⟨by decide, by decide⟩
    exact (reads_operand ih).joined (closed_spacedWord word) (ends_spaced "as")
      (reads_word keyword.isWord_keyword)
  case is keyword _ ih =>
    have word : IsWord "is" := ⟨by decide, by decide⟩
    exact (reads_operand ih).joined (closed_spacedWord word) (ends_spaced "is")
      (reads_word keyword.isWord_keyword)
  case parenthesized ih => exact (closed_parenthesized ih).weaken
  case lambda known _ ih =>
    simp only [Bool.false_eq_true, if_false]
    have arrow (cs : List Char) :
        " =>".toList ++ (" ".toList ++ cs) = (" " ++ "=>" ++ " ").toList ++ cs := rfl
    rw [arrow]
    exact (reads_word known.toIsWord).joined (closed_spaced (by decide)) (ends_spaced "=>")
      (reads_operand ih)

end

end Sharpen.Target
