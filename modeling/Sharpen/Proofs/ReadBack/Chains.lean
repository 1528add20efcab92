import Sharpen.Proofs.ReadBack.Spelling

/-!
# Chains of accesses

A conditional access goes on as far as the chain on its right does: whatever is attached to `a?.b`
is read as part of the right side. The printer takes a conditional access for a primary expression
and puts no parentheses around one that something is attached to, so that the tree is read with the
attachment inside. `Expr.regrouped` is the tree that is read, and two chains print alike if and only
if they are read as the same tree (`chains_print_alike_iff_regrouped`).

The reader goes through the tokens once, with a stack of the brackets that are open.
-/

namespace Sharpen.Target

open ReadBack
open List hiding lex

/-- Chains of accesses, headed by a name or, on the right side of a conditional access, by a member
binding. -/
inductive Expr.Chain : (isBound : Bool) → Expr → Prop where
  | identifier {name : String} (known : IsWord name) : Chain false (.identifier name)
  | memberBinding {name : String} (known : IsWord name) : Chain true (.memberBinding name)
  | memberAccess {isBound : Bool} {receiver : Expr} {name : String} (inner : Chain isBound receiver)
      (known : IsWord name) : Chain isBound (.memberAccess receiver name [])
  | invocation {isBound : Bool} {target : Expr} {values : List Expr} (inner : Chain isBound target)
      (each : ∀ value ∈ values, Chain false value) :
        Chain isBound (.invocation target (values.map Argument.plain))
  | elementAccess {isBound : Bool} {target : Expr} {values : List Expr}
      (inner : Chain isBound target)
      (each : ∀ value ∈ values, Chain false value) :
        Chain isBound (.elementAccess target (values.map Argument.plain))
  | conditionalAccess {isBound : Bool} {receiver whenNotNull : Expr}
      (inner : Chain isBound receiver)
      (right : Chain true whenNotNull) : Chain isBound (.conditionalAccess receiver whenNotNull)

variable {isBound : Bool} {expr : Expr} {level width : Nat}

/-! ## Regrouping -/

/-- A chain with the receivers whose right side it is, the innermost first. -/
def closed : List Expr → Expr → Expr
  | [], value => value
  | receiver :: receivers, value => closed receivers (.conditionalAccess receiver value)

mutual

/-- The receivers of the conditional accesses of a chain, the innermost first, and what stands
behind the last of them. -/
def Expr.spine : Expr → List Expr × Expr
  | .memberAccess receiver name typeArguments =>
    (receiver.spine.1, .memberAccess receiver.spine.2 name typeArguments)
  | .invocation target arguments =>
    (target.spine.1, .invocation target.spine.2 (regroupedArguments arguments))
  | .elementAccess target arguments =>
    (target.spine.1, .elementAccess target.spine.2 (regroupedArguments arguments))
  | .conditionalAccess receiver whenNotNull =>
    (whenNotNull.spine.1 ++ receiver.spine.2 :: receiver.spine.1, whenNotNull.spine.2)
  | expr => ([], expr)

/-- Arguments, each regrouped. -/
def regroupedArguments : List Argument → List Argument
  | [] => []
  | ⟨name, passing, value⟩ :: rest =>
    ⟨name, passing, closed value.spine.1 value.spine.2⟩ :: regroupedArguments rest

end

/-- The tree in which everything behind a conditional access belongs to its right side. -/
def Expr.regrouped (expr : Expr) : Expr :=
  closed expr.spine.1 expr.spine.2

theorem regroupedArguments_plain (values : List Expr) :
    regroupedArguments (values.map Argument.plain) =
      (values.map Expr.regrouped).map Argument.plain :=
  eq_of_plain regroupedArguments (fun values => (values.map .regrouped).map .plain) rfl
    (fun _ _ _ => congrArg (_ :: ·)) values

/-! ## Reading -/

namespace ReadBack

/-- A bracket that is open: the receivers before it, what it makes of its arguments, and the
arguments so far. -/
structure Bracket where
  receivers : List Expr
  build : List Argument → Expr
  arguments : List Argument := []

/-- One more argument. -/
def Bracket.with (bracket : Bracket) (value : Expr) : Bracket :=
  { bracket with arguments := bracket.arguments ++ [.plain value] }

/-- Reads tokens inside the open brackets, at the start of a chain or behind the given one. -/
def readChain : List Bracket → Option (List Expr × Expr) → List Token → Option Expr
  | open', none, .word name :: rest => readChain open' (some ([], .identifier name)) rest
  | bracket :: open', none, .symbol _ :: rest =>
    readChain open' (some (bracket.receivers, bracket.build bracket.arguments)) rest
  | open', some (receivers, value), .symbol "." :: .word name :: rest =>
    readChain open' (some (receivers, .memberAccess value name [])) rest
  | open', some (receivers, value), .symbol "?" :: .symbol "." :: .word name :: rest =>
    readChain open' (some (value :: receivers, .memberBinding name)) rest
  | open', some (receivers, value), .symbol "(" :: rest =>
    readChain ({ receivers, build := .invocation value } :: open') none rest
  | open', some (receivers, value), .symbol "[" :: rest =>
    readChain ({ receivers, build := .elementAccess value } :: open') none rest
  | bracket :: open', some (receivers, value), .symbol "," :: rest =>
    readChain (bracket.with (closed receivers value) :: open') none rest
  | bracket :: open', some (receivers, value), .symbol _ :: rest =>
    let bracket := bracket.with (closed receivers value)
    readChain open' (some (bracket.receivers, bracket.build bracket.arguments)) rest
  | [], some (receivers, value), [] => some (closed receivers value)
  | _, _, _ => none

/-- Where a chain may start: at the start of an argument, or behind the question mark of a receiver.
What is read there is put before the given receivers. -/
inductive Start : Bool → List Token → Option (List Expr × Expr) → List Expr → Prop where
  | head : Start false [] none []
  | bound (receivers : List Expr) (value : Expr) :
    Start true [.symbol "?"] (some (receivers, value)) (value :: receivers)

/-- Wherever a chain may start, the tokens are read as the chain. -/
def ReadAs (isBound : Bool) (tokens : List Token) (expr : Expr) : Prop :=
  ∀ ⦃before : List Token⦄ ⦃spot : Option (List Expr × Expr)⦄ ⦃receivers : List Expr⦄,
    Start isBound before spot receivers → ∀ (brackets : List Bracket) (rest : List Token),
      readChain brackets spot (before ++ (tokens ++ rest)) =
        readChain brackets (some (expr.spine.1 ++ receivers, expr.spine.2)) rest

theorem readChain_closing {closing : String} (closes : closing ∈ [")", "]"]) (bracket : Bracket)
    (brackets : List Bracket) (receivers : List Expr) (value : Expr) (rest : List Token) :
    readChain (bracket :: brackets) (some (receivers, value)) (.symbol closing :: rest) =
      readChain (bracket.with (closed receivers value) :: brackets) none
        (.symbol closing :: rest) := by
  simp only [mem_cons, not_mem_nil, or_false] at closes
  rcases closes with rfl | rfl <;> simp [readChain]

theorem readChain_arguments {values : List Expr} {tokens : List (List Token)}
    (each : Forall₂ (fun value tokens => ReadAs false tokens value) values tokens)
    (bracket : Bracket) (brackets : List Bracket) {closing : String} (closes : closing ∈ [")", "]"])
    (rest : List Token) :
    readChain (bracket :: brackets) none (commaTokens tokens ++ .symbol closing :: rest) =
      readChain brackets (some (bracket.receivers,
        bracket.build (bracket.arguments ++ (values.map Expr.regrouped).map Argument.plain)))
          rest := by
  induction each generalizing bracket with
  | nil => simp [commaTokens, readChain]
  | @cons value tokens values lists first others ih =>
    have read := first .head (bracket :: brackets)
    simp only [nil_append, append_nil] at read
    cases others with
    | nil =>
      rw [commaTokens, read, readChain_closing closes]
      simp [readChain, Bracket.with, Expr.regrouped]
    | cons second others =>
      rw [commaTokens, append_assoc, read, cons_append, readChain, ← Expr.regrouped, ih]
      · simp [Bracket.with]
      · simp

/-- The tokens of a call or of an access to an element. -/
theorem ReadAs.bracketed {target : Expr} {values : List Expr} {tokens : List Token}
    {lists : List (List Token)} {build : Expr → List Argument → Expr} {opening closing : String}
    (first : ReadAs isBound tokens target)
    (each : Forall₂ (fun value tokens => ReadAs false tokens value) values lists)
    (opens : ∀ brackets receivers value rest, readChain brackets (some (receivers, value))
      (.symbol opening :: rest) =
      readChain ({ receivers, build := build value } :: brackets) none rest)
    (closes : closing ∈ [")", "]"])
    (spine : (build target (values.map Argument.plain)).spine =
      (target.spine.1, build target.spine.2 (regroupedArguments (values.map Argument.plain)))) :
    ReadAs isBound (tokens ++ .symbol opening :: commaTokens lists ++ [.symbol closing])
      (build target (values.map Argument.plain)) := by
  intro before spot receivers start brackets rest
  simp only [append_assoc, cons_append, nil_append]
  rw [first start, opens, readChain_arguments each _ _ closes, spine, regroupedArguments_plain]
  rfl

end ReadBack

/-! ## The tokens of chains -/

theorem operand_primary (strong : expr.strength = Strength.primary) (layout : Layout) :
    operand Strength.primary expr layout = layout := by
  rw [operand, strong, if_neg (Nat.lt_irrefl _)]

/-- Nothing puts parentheses around a chain. -/
theorem Expr.Chain.operand (chain : expr.Chain isBound) (layout : Layout) :
    operand Strength.primary expr layout = layout :=
  operand_primary (by cases chain <;> rfl) layout

/-- A chain on the right side of a conditional access starts with a dot. -/
theorem Expr.Chain.starts (chain : expr.Chain isBound) (bound : isBound = true) :
    ∃ rest, chars width (expr.layout level) = '.' :: rest := by
  induction chain with
  | identifier => cases bound
  | memberBinding =>
    simp! only [chars_text]
    exact ⟨_, rfl⟩
  | memberAccess inner _ ih | invocation inner _ ih | elementAccess inner _ ih
  | conditionalAccess inner _ ih =>
    obtain ⟨_, starts⟩ := ih bound
    simp! only [inner.operand, chars_append, starts]
    exact ⟨_, rfl⟩

theorem exists_argument_tokens {values : List Expr}
    (each : ∀ value ∈ values, ∃ tokens, Reads (chars width (value.layout level)) tokens ∧
      ReadAs false tokens value) :
    ∃ lists,
      Reads (chars width
        (Layout.commaSeparated (argumentLayouts level (values.map Argument.plain))))
        (commaTokens lists) ∧
          Forall₂ (fun value tokens => ReadAs false tokens value) values lists := by
  rw [argumentLayouts_plain]
  suffices h : ∃ lists,
      Forall₂ (fun layout tokens => Reads (chars width layout) tokens)
        (values.map (Expr.layout level)) lists ∧
        Forall₂ (fun value tokens => ReadAs false tokens value) values lists by
    obtain ⟨lists, cut, read⟩ := h
    exact ⟨lists, reads_commaSeparated cut, read⟩
  induction values with
  | nil => exact ⟨[], .nil, .nil⟩
  | cons value values ih =>
    obtain ⟨⟨tokens, cut, read⟩, rest⟩ := forall_mem_cons.mp each
    obtain ⟨lists, cuts, reads⟩ := ih rest
    exact ⟨tokens :: lists, .cons cut cuts, .cons read reads⟩

/-- The text of a chain is cut into tokens that are read as the chain. -/
theorem Expr.Chain.read (chain : expr.Chain isBound) :
    ∃ tokens, Reads (chars width (expr.layout level)) tokens ∧ ReadAs isBound tokens expr := by
  induction chain with
  | @identifier name known =>
    refine ⟨[.word name], ?_, ?_⟩
    · simp! only [chars_text, chars_nil, append_nil]
      exact reads_word known
    · rintro _ _ _ ⟨⟩ _ _
      simp [readChain, Expr.spine]
  | @memberBinding name known =>
    refine ⟨[.symbol ".", .word name], ?_, ?_⟩
    · simp! only [chars_text, chars_nil, append_nil]
      exact (closed_symbol (by decide) (by decide)).reads (reads_word known)
    · rintro _ _ _ ⟨_, _⟩ _ _
      simp [readChain, Expr.spine]
  | @memberAccess _ _ name inner known ih =>
    obtain ⟨tokens, cut, read⟩ := ih
    refine ⟨tokens ++ [.symbol ".", .word name], ?_, ?_⟩
    · simp! only [inner.operand, chars_append, chars_text, chars_nil, append_nil]
      exact cut.joined (closed_symbol (by decide) (by decide)) (fun _ => ends_cons (by decide))
        (reads_word known)
    · intro before spot receivers start brackets rest
      rw [append_assoc, read start]
      simp [readChain, Expr.spine]
  | invocation inner _ ih ihs =>
    obtain ⟨tokens, cut, read⟩ := ih
    obtain ⟨lists, cuts, reads⟩ := exists_argument_tokens ihs
    refine ⟨tokens ++ .symbol "(" :: commaTokens lists ++ [.symbol ")"], ?_,
      read.bracketed reads (fun _ _ _ _ => by simp [readChain]) (by simp) rfl⟩
    simp! only [inner.operand, chars_append, append_assoc]
    refine (cut.append (closed_parenthesized cuts) fun rest => ?_).weaken
    rw [chars_enclosed]
    exact ends_cons (by decide)
  | elementAccess inner _ ih ihs =>
    obtain ⟨tokens, cut, read⟩ := ih
    obtain ⟨lists, cuts, reads⟩ := exists_argument_tokens ihs
    refine ⟨tokens ++ .symbol "[" :: commaTokens lists ++ [.symbol "]"], ?_,
      read.bracketed reads (fun _ _ _ _ => by simp [readChain]) (by simp) rfl⟩
    simp! only [inner.operand, chars_append, append_assoc]
    refine (cut.append (closed_indexed cuts) fun rest => ?_).weaken
    rw [chars_enclosed]
    exact ends_cons (by decide)
  | @conditionalAccess _ _ whenNotNull inner right ih ihr =>
    obtain ⟨tokens, cut, read⟩ := ih
    obtain ⟨others, cut', read'⟩ := ihr
    refine ⟨tokens ++ .symbol "?" :: others, ?_, ?_⟩
    · intro rest ends
      obtain ⟨behind, starts⟩ : ∃ rest, chars width (whenNotNull.layout level) = '.' :: rest :=
        right.starts rfl
      have apart : Apart "?" (chars width (whenNotNull.layout level) ++ rest) := by
        rw [starts]
        exact apart_cons (by decide)
      simp! only [inner.operand, chars_append, chars_text, append_assoc]
      rw [cut ("?".toList ++ _) (ends_cons (by decide : isWordChar '?' = false)),
        lex_symbol (by decide) apart, cut' rest ends]
      simp [Function.comp_def]
    · intro before spot receivers start brackets rest
      rw [append_assoc, read start, cons_append]
      exact (read' (.bound _ _) brackets rest).trans (by simp [Expr.spine])

/-- The tree that a chain is read as. -/
def readChainText (text : String) : Option Expr :=
  (lex text.toList).bind (readChain [] none)

theorem Expr.Chain.readChainText (chain : expr.Chain false) :
    readChainText ((expr.layout level).render width) = some expr.regrouped := by
  obtain ⟨tokens, cut, read⟩ :
      ∃ tokens, Reads (chars width (expr.layout level)) tokens ∧ ReadAs false tokens expr :=
        chain.read
  have whole := cut [] ends_nil
  rw [append_nil, lex_nil, Option.map_some, append_nil] at whole
  rw [Target.readChainText, ← chars, whole, Option.bind_some, ← append_nil tokens]
  exact (read .head [] []).trans (by simp [readChain, Expr.regrouped])

/-! ## Chains that are read as they are -/

def Expr.isConditionalAccess : Expr → Bool
  | .conditionalAccess .. => true
  | _ => false

mutual

/-- Nothing in a chain is attached to a conditional access. -/
def Expr.isStraight : Expr → Bool
  | .memberAccess receiver _ _ => !receiver.isConditionalAccess && receiver.isStraight
  | .invocation target arguments | .elementAccess target arguments =>
    !target.isConditionalAccess && target.isStraight && areStraight arguments
  | .conditionalAccess receiver whenNotNull =>
    !receiver.isConditionalAccess && receiver.isStraight && whenNotNull.isStraight
  | _ => true

@[inherit_doc Expr.isStraight]
def areStraight : List Argument → Bool
  | [] => true
  | ⟨_, _, value⟩ :: rest => value.isStraight && areStraight rest

end

theorem areStraight_plain (values : List Expr) :
    areStraight (values.map Argument.plain) = values.all Expr.isStraight :=
  eq_of_plain areStraight (·.all Expr.isStraight) rfl (fun _ _ _ => congrArg (_ && ·)) values

/-- A part of a chain between question marks, as it is read. -/
structure Expr.IsLink (link : Expr) : Prop where
  single : link.isConditionalAccess = false
  straight : link.isStraight = true
  strength : link.strength = Strength.primary

theorem isStraight_closed {receivers : List Expr} {value : Expr}
    (each : ∀ receiver ∈ receivers, receiver.IsLink) (straight : value.isStraight = true) :
    (closed receivers value).isStraight = true := by
  induction receivers generalizing value with
  | nil => exact straight
  | cons receiver receivers ih =>
    obtain ⟨first, others⟩ := forall_mem_cons.mp each
    exact ih others (by rw [Expr.isStraight, first.single, first.straight, straight]; rfl)

/-- The spine of a chain is made of links. -/
theorem Expr.Chain.isLink_spine (chain : expr.Chain isBound) :
    (∀ receiver ∈ expr.spine.1, receiver.IsLink) ∧ expr.spine.2.IsLink := by
  induction chain with
  | identifier | memberBinding => exact ⟨forall_mem_nil _, rfl, rfl, rfl⟩
  | memberAccess _ _ ih =>
    refine ⟨ih.1, rfl, ?_, rfl⟩
    rw [Expr.spine, Expr.isStraight, ih.2.single, ih.2.straight]
    rfl
  | @invocation _ _ values _ _ ih ihs | @elementAccess _ _ values _ _ ih ihs =>
    have straight : ∀ value ∈ values, value.regrouped.isStraight = true := fun value mem =>
      isStraight_closed (ihs value mem).1 (ihs value mem).2.straight
    rw [Expr.spine]
    refine ⟨ih.1, rfl, ?_, rfl⟩
    rw [Expr.isStraight, ih.2.single, ih.2.straight, regroupedArguments_plain,
      areStraight_plain, all_map]
    simpa using straight
  | conditionalAccess _ _ ih ihr =>
    rw [Expr.spine]
    exact ⟨forall_mem_append.mpr ⟨ihr.1, forall_mem_cons.mpr ⟨ih.2, ih.1⟩⟩, ihr.2⟩

theorem closed_append (first second : List Expr) (value : Expr) :
    closed (first ++ second) value = closed second (closed first value) := by
  induction first generalizing value with
  | nil => rfl
  | cons receiver first ih => exact ih _

/-- A chain to which nothing has to be moved is its own spine. -/
theorem Expr.Chain.spine_of_isStraight (chain : expr.Chain isBound)
    (straight : expr.isStraight = true) :
    expr.regrouped = expr ∧ (expr.isConditionalAccess = false → expr.spine = ([], expr)) := by
  induction chain with
  | identifier | memberBinding => exact ⟨rfl, fun _ => rfl⟩
  | memberAccess _ _ ih =>
    simp only [Expr.isStraight, Bool.and_eq_true, Bool.not_eq_true'] at straight
    have spine := (ih straight.2).2 straight.1
    simp [Expr.regrouped, Expr.spine, spine, closed]
  | @invocation _ _ values _ _ ih ihs | @elementAccess _ _ values _ _ ih ihs =>
    simp only [Expr.isStraight, Bool.and_eq_true, Bool.not_eq_true', areStraight_plain,
      all_eq_true] at straight
    have spine := (ih straight.1.2).2 straight.1.1
    have same : values.map Expr.regrouped = values :=
      (map_congr_left fun value mem => (ihs value mem (straight.2 value mem)).1).trans (map_id _)
    simp [Expr.regrouped, Expr.spine, spine, closed, regroupedArguments_plain, same]
  | conditionalAccess _ _ ih ihr =>
    simp only [Expr.isStraight, Bool.and_eq_true, Bool.not_eq_true'] at straight
    have spine := (ih straight.1.2).2 straight.1.1
    refine ⟨?_, nofun⟩
    rw [Expr.regrouped, Expr.spine, spine, closed_append, ← Expr.regrouped, (ihr straight.2).1]
    rfl

theorem layout_closed {receivers : List Expr} (each : ∀ receiver ∈ receivers, receiver.IsLink)
    (value : Expr) :
    (closed receivers value).layout level =
      receivers.reverse.flatMap (fun receiver => receiver.layout level ++ [.text "?"]) ++
        value.layout level := by
  induction receivers generalizing value with
  | nil => rfl
  | cons receiver receivers ih =>
    obtain ⟨first, others⟩ := forall_mem_cons.mp each
    rw [closed, ih others]
    simp! [operand_primary first.strength]

/-- Regrouping does not change what is printed. -/
theorem Expr.Chain.layout_regrouped (chain : expr.Chain isBound) :
    expr.regrouped.layout level = expr.layout level := by
  induction chain with
  | identifier | memberBinding => rfl
  | memberAccess inner _ ih =>
    obtain ⟨links, last⟩ := inner.isLink_spine
    rw [Expr.regrouped, layout_closed links] at ih
    rw [Expr.regrouped, Expr.spine, layout_closed links]
    simp! [operand_primary last.strength, inner.operand, ← ih]
  | @invocation _ _ values inner _ ih ihs | @elementAccess _ _ values inner _ ih ihs =>
    obtain ⟨links, last⟩ := inner.isLink_spine
    have same : (values.map Expr.regrouped).map (Expr.layout level) =
      values.map (Expr.layout level) := by
      rw [map_map]
      exact map_congr_left ihs
    rw [Expr.regrouped, layout_closed links] at ih
    rw [Expr.regrouped, Expr.spine, layout_closed links]
    simp! only [operand_primary last.strength, inner.operand, ← ih, regroupedArguments_plain,
      argumentLayouts_plain, same, append_assoc]
  | conditionalAccess inner _ ih ihr =>
    obtain ⟨links, last⟩ := inner.isLink_spine
    rw [Expr.regrouped, layout_closed links] at ih
    rw [Expr.regrouped, Expr.spine, closed_append, ← Expr.regrouped, closed, layout_closed links]
    simp! [operand_primary last.strength, inner.operand, ← ih, ihr]

/-- Two chains are printed as the same text if and only if regrouping makes them the same tree, and
regrouping leaves a chain as it is if and only if nothing in it is attached to a conditional access.
-/
theorem chains_print_alike_iff_regrouped {a b : Expr} (ha : a.Chain false) (hb : b.Chain false)
    (level width : Nat) :
    ((a.layout level).render width = (b.layout level).render width ↔ a.regrouped = b.regrouped) ∧
      (a.regrouped = a ↔ a.isStraight = true) := by
  refine ⟨⟨fun same => ?_, fun same => ?_⟩, fun same => ?_, fun straight =>
    (ha.spine_of_isStraight straight).1⟩
  · have read : readChainText ((a.layout level).render width) = some a.regrouped := ha.readChainText
    rw [same, hb.readChainText] at read
    exact (Option.some.inj read).symm
  · rw [← ha.layout_regrouped, ← hb.layout_regrouped, same]
  · rw [← same]
    exact isStraight_closed ha.isLink_spine.1 ha.isLink_spine.2.straight

/-- `a?.b` with a member `c`, inside and outside of the conditional access. -/
def accessInside : Expr :=
  .conditionalAccess (.identifier "a") (.memberAccess (.memberBinding "b") "c" [])

@[inherit_doc accessInside]
def accessOutside : Expr :=
  .memberAccess (.conditionalAccess (.identifier "a") (.memberBinding "b")) "c" []

theorem chain_accesses : accessInside.Chain false ∧ accessOutside.Chain false := by
  have word : ∀ name ∈ ["a", "b", "c"], IsWord name := by
    intro name mem
    refine ⟨?_, ?_⟩ <;> revert name <;> decide
  have head : (Expr.identifier "a").Chain false := .identifier (word _ (by simp))
  have bound : (Expr.memberBinding "b").Chain true := .memberBinding (word _ (by simp))
  exact ⟨.conditionalAccess head (.memberAccess bound (word _ (by simp))),
    .memberAccess (.conditionalAccess head bound) (word _ (by simp))⟩

theorem access_inside_is_read : accessInside.Chain false ∧ accessOutside.Chain false ∧
    accessOutside.regrouped = accessInside ∧ accessInside.regrouped = accessInside := by
  obtain ⟨inside, outside⟩ := chain_accesses
  obtain ⟨alike, straight⟩ := chains_print_alike_iff_regrouped inside outside 0 defaultIndentWidth
  have same := straight.mpr rfl
  exact ⟨inside, outside, (alike.mp rfl).symm.trans same, same⟩

/-- An access to the result of a conditional access is printed as an access inside of it. -/
theorem access_outside_prints_as_inside : accessInside.Chain false ∧ accessOutside.Chain false ∧
    accessInside ≠ accessOutside ∧
    (accessInside.layout 0).render defaultIndentWidth = "a?.b.c" ∧
    (accessOutside.layout 0).render defaultIndentWidth = "a?.b.c" :=
  ⟨chain_accesses.1, chain_accesses.2, nofun, rfl, rfl⟩

end Sharpen.Target
