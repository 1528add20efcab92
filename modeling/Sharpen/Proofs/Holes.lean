import Sharpen.Proofs.Outcome
import Sharpen.Proofs.Printing.Grammar

/-!
# Formats of holes

A hole of an interpolated string is printed as `{value,alignment:format}`, and a reader takes for
the format whatever stands behind the first colon outside of brackets and literals
(`Nesting.behindColon`). The printer puts parentheses around a value that is a conditional
expression, and looks at nothing else. So a reader finds the format that was written if and only if
the printer has written no other colon before it outside of brackets: neither for an alias nor for a
conditional expression further inside. `Expr.chunks` says where such colons are.
-/

namespace Sharpen

open List

open Layout (write enclosed commaSeparated)

namespace Target

/-! ## Looking for a colon -/

/-- What a reader of code is in: some brackets, and in them maybe a literal in quotes. -/
inductive Nesting where
  | code (depth : Nat)
  | quoted (quote : Char) (escaped : Bool) (depth : Nat)
  deriving DecidableEq

namespace Nesting

/-- What a reader is in behind a character. A bracket that was never opened cannot be closed. -/
def step : Nesting → Char → Option Nesting
  | .quoted quote true depth, _ => some (.quoted quote false depth)
  | .quoted quote false depth, c =>
    some (if c = quote then .code depth else .quoted quote (c = '\\') depth)
  | .code depth, c =>
    if c ∈ ['(', '[', '\x7b'] then some (.code (depth + 1))
    else if c ∈ [')', ']', '\x7d'] then if depth = 0 then none else some (.code (depth - 1))
    else if c = Text.stringQuote ∨ c = Text.charQuote then some (.quoted c false depth)
    else some (.code depth)

def run (place : Nesting) (text : List Char) : Option Nesting :=
  text.foldlM step place

/-- What follows the first colon outside of brackets and literals. -/
def behindColon : Nesting → List Char → Option (List Char)
  | _, [] => none
  | place, c :: rest =>
    if c = ':' ∧ place = .code 0 then some rest else (place.step c).bind (behindColon · rest)

theorem behindColon_append (place : Nesting) (first second : List Char) :
    place.behindColon (first ++ second) = ((place.behindColon first).map (· ++ second)).or
      ((place.run first).bind (behindColon · second)) := by
  induction first generalizing place with
  | nil => rfl
  | cons c rest ih =>
    rw [cons_append, behindColon, behindColon, run, foldlM_cons]
    split
    · rfl
    · cases place.step c with
      | none => rfl
      | some next => exact ih next

end Nesting

/-- The format that a reader finds in the text of a hole. -/
def formatIn? (text : String) : Option String :=
  (Nesting.behindColon (.code 0) text.toList).map String.ofList

/-- A reader passes by a text: it closes what it opens, and has no colon outside of brackets and
literals. -/
def PassedBy (text : String) : Prop :=
  Nesting.run (.code 0) text.toList = some (.code 0) ∧ Nesting.behindColon (.code 0) text.toList =
    none

/-! ## Colons of the printer -/

/-- Printed code: a colon that the printer writes outside of its brackets, or what stands between
such colons. -/
inductive Chunk where
  | colon (isDouble : Bool)
  | other (layout : Layout)

def Chunk.layout : Chunk → Layout
  | .colon isDouble => write (if isDouble then "::" else " : ")
  | .other layout => layout

def Chunk.word (text : String) : Chunk :=
  .other (write text)

/-- The printer has written a colon outside of its brackets. -/
def Exposed (chunks : List Chunk) : Prop :=
  ∃ isDouble, .colon isDouble ∈ chunks

/-- What chunks make up. -/
abbrev joined (chunks : List Chunk) : Layout :=
  chunks.flatMap Chunk.layout

/-- Chunks in parentheses, which hide their colons. -/
def guarded (needed : Bool) (chunks : List Chunk) : List Chunk :=
  if needed then [.other (enclosed "(" ")" (joined chunks))] else chunks

/-- Angle brackets hide nothing. -/
def angled : List (List Chunk) → List Chunk
  | [] => []
  | first :: rest => .word "<" :: first ++ rest.flatMap (.word ", " :: ·) ++ [.word ">"]

section Chunks

variable (level : Nat)

mutual

def Name.chunks : Name → List Chunk
  | .identifier name => [.word name]
  | .generic name typeArguments => .word name :: angled (typeChunks typeArguments)
  | .qualified left right => left.chunks ++ .word "." :: right.chunks
  | .aliasQualified shortName name => .word shortName :: .colon true :: name.chunks

def TypeSyntax.chunks : TypeSyntax → List Chunk
  | .named name => name.chunks
  | .array element ranks => element.chunks ++ [.other (rankLayouts level ranks)]
  | .nullable element => element.chunks ++ [.word "?"]
  | type => [.other (type.layout level)]

def typeChunks : List TypeSyntax → List (List Chunk)
  | [] => []
  | type :: rest => type.chunks :: typeChunks rest

end

/-- An operand, parenthesized when it binds more loosely than `least`. -/
def Expr.guard (least : Nat) (expr : Expr) (chunks : List Chunk) : List Chunk :=
  guarded (expr.strength < least) chunks

/-- The chunks of an expression. What is not taken apart has its colons in brackets or literals of
its own. -/
def Expr.chunks : Expr → List Chunk
  | .generic name typeArguments => .word name :: angled (typeChunks level typeArguments)
  | .aliasQualified shortName name => [.word shortName, .colon true, .word name]
  | .memberAccess receiver name typeArguments =>
    guard Strength.primary receiver receiver.chunks ++ .word "." :: .word name ::
      angled (typeChunks level typeArguments)
  | .conditionalAccess receiver whenNotNull =>
    guard Strength.primary receiver receiver.chunks ++ .word "?" :: whenNotNull.chunks
  | .invocation target arguments =>
    guard Strength.primary target target.chunks ++
      [.other (enclosed "(" ")" (commaSeparated (argumentLayouts level arguments)))]
  | .elementAccess target arguments =>
    guard Strength.primary target target.chunks ++
      [.other (enclosed "[" "]" (commaSeparated (argumentLayouts level arguments)))]
  | .objectCreation type (some arguments) initializer =>
    .word "new " :: type.chunks level ++
      [.other (enclosed "(" ")" (commaSeparated (argumentLayouts level arguments)) ++
        initializer.layout level)]
  | .objectCreation type none .absent => .word "new " :: type.chunks level ++ [.word "()"]
  | .objectCreation type none initializer | .arrayCreation type initializer =>
    .word "new " :: type.chunks level ++ [.other (initializer.layout level)]
  | .binary left operator right =>
    guard operator.leftStrength left left.chunks ++ .word (" " ++ operator.token ++ " ") ::
      guard operator.rightStrength right right.chunks
  | .assignment left operator right =>
    guard Strength.unary left left.chunks ++ .word (" " ++ operator.token ++ " ") ::
      guard Strength.assignment right right.chunks
  | .prefixUnary operator inner => .word operator.token ::
      if inner.clashesWith operator then guarded true inner.chunks else guard Strength.unary
        inner inner.chunks
  | .postfixUnary inner operator =>
    guard Strength.primary inner inner.chunks ++ [.word operator.token]
  | .conditional condition whenTrue whenFalse =>
    guard Strength.coalesce condition condition.chunks ++ .word " ? " ::
      guard Strength.conditional whenTrue whenTrue.chunks ++ .colon false ::
      guard Strength.conditional whenFalse whenFalse.chunks
  | .cast type inner => .other (enclosed "(" ")" (type.layout level)) ::
      if inner.isSigned && !type.isPredefined then guarded true inner.chunks
      else guard Strength.unary inner inner.chunks
  | .as inner type =>
    guard Strength.relational inner inner.chunks ++ .word " as " :: type.chunks level
  | .is inner type =>
    guard Strength.relational inner inner.chunks ++ .word " is " :: type.chunks level
  | .lambda isAsync parameters (.expression value) =>
    .other ((if isAsync then write "async " else []) ++ parameters.layout level ++
      [.text " =>", .text " "]) ::
      guard Strength.assignment value value.chunks
  | .await inner => .word "await " :: guard Strength.unary inner inner.chunks
  | .commented inner comment => inner.chunks ++ [.other [.text " /* ", .text comment, .text " */"]]
  | expr => [.other (expr.layout level)]

/-- What stands in a hole before its format. -/
def holeChunks (value : Expr) (alignment : Option Expr) : List Chunk :=
  guarded value.isConditional (value.chunks level) ++
    alignment.elim [] (.word "," :: ·.chunks level)

end Chunks

section Layouts

variable {level : Nat}

@[simp] theorem joined_guarded (needed : Bool) (chunks : List Chunk) :
    joined (guarded needed chunks) = parenthesizedIf needed (joined chunks) := by
  cases needed <;> simp [guarded, parenthesizedIf, Chunk.layout]

@[simp] theorem joined_guard (least : Nat) (expr : Expr) (chunks : List Chunk) :
    joined (expr.guard least chunks) = operand least expr (joined chunks) := by
  simp [Expr.guard, parenthesizedIf, operand]

@[simp] theorem joined_angled (lists : List (List Chunk)) :
    joined (angled lists) = angleBrackets (lists.map joined) := by
  have hlists : ∀ first rest, commaSeparated ((first :: rest).map joined) =
      joined (first ++ rest.flatMap (.word ", " :: ·)) := by
    intro first rest
    induction rest generalizing first with
    | nil => simp [commaSeparated, Layout.separated]
    | cons second rest ih =>
      have hsecond := ih second
      simp_all [commaSeparated, Layout.separated, Chunk.word, Chunk.layout, write]
  cases lists with
  | nil => rfl
  | cons first rest =>
    rw [angleBrackets, hlists]
    · simp [angled, enclosed, Chunk.word, Chunk.layout, write]
    · simp

theorem joined_types : (∀ name : Name, joined (name.chunks level) = name.layout level) ∧
    (∀ types, (typeChunks level types).map joined = typeLayouts level types) ∧
    ∀ type : TypeSyntax, joined (type.chunks level) = type.layout level := by
  apply Name.chunks.mutual_induct
  all_goals
    intros
    simp_all! [TypeSyntax.chunks, Chunk.word, write]

/-- The chunks make up what is printed. -/
theorem Expr.joined_chunks (expr : Expr) : joined (expr.chunks level) = expr.layout level := by
  fun_induction Expr.chunks level expr
  all_goals
    simp_all! [Expr.layout, joined_types, Chunk.word, write, enclosed]
  all_goals
    split <;> simp_all [parenthesizedIf, enclosed]

/-- What stands between the braces of a hole. -/
def holeLayout (level : Nat) (value : Expr) (alignment : Option Expr) (format : Option String) :
    Layout :=
  joined (holeChunks level value alignment) ++ format.elim [] (write ":" ++ write ·)

def Content.layout (level : Nat) : Content → Layout
  | .text content => write (Text.escapeString content)
  | .hole value alignment format => enclosed "\x7b" "\x7d" (holeLayout level value alignment format)

theorem contentsLayout_eq (contents : List Content) :
    contentsLayout level contents = contents.flatMap (Content.layout level) := by
  induction contents with
  | nil => rfl
  | cons content rest ih =>
    cases content with
    | text => simp! [ih, write]
    | hole _ alignment format =>
      cases alignment <;> cases format <;>
        simp! [holeLayout, holeChunks, Expr.joined_chunks, ih, write, enclosed, Chunk.word]

end Layouts

/-! ## Reading holes -/

/-- A reader passes by chunks without a colon, and finds the colon of others. -/
theorem read_joined {width : Nat} {chunks : List Chunk}
    (h : ∀ layout, .other layout ∈ chunks → PassedBy (layout.render width)) :
    ¬Exposed chunks ∧ PassedBy ((joined chunks).render width) ∨
    Exposed chunks ∧ ∃ rest, Nesting.behindColon (.code 0) ((joined chunks).render width).toList =
      some rest := by
  induction chunks with
  | nil => exact .inl ⟨nofun, rfl, rfl⟩
  | cons chunk rest ih =>
    rw [joined, flatMap_cons, Layout.render_append, PassedBy, String.toList_append,
      Nesting.behindColon_append]
    cases chunk with
    | colon isDouble =>
      obtain ⟨behind, hbehind⟩ : ∃ behind,
          Nesting.behindColon (.code 0) (Layout.render width (Chunk.colon isDouble).layout).toList =
            some behind := by
        cases isDouble <;>
          exact ⟨_, by simp [Chunk.layout, Layout.render, write, Piece.render, String.join]; rfl⟩
      rw [hbehind]
      exact .inr ⟨⟨isDouble, mem_cons_self⟩, _, rfl⟩
    | other layout =>
      obtain ⟨hrun, hnone⟩ := h layout mem_cons_self
      rw [Chunk.layout, hnone, Nesting.run, foldlM_append, ← Nesting.run, hrun]
      simpa [PassedBy, Exposed, Nesting.run] using ih fun layout hlayout =>
        h layout (mem_cons_of_mem _ hlayout)

theorem formatIn?_hole {level width : Nat} {value : Expr} {alignment : Option Expr}
    (format : Option String)
    (h : ∀ layout, .other layout ∈ holeChunks level value alignment →
      PassedBy (layout.render width)) :
    formatIn? ((holeLayout level value alignment format).render width) = format ↔
      ¬Exposed (holeChunks level value alignment) := by
  have hformat : (Layout.render width (format.elim [] (write ":" ++ write ·))).toList =
      format.elim [] (':' :: ·.toList) := by
    cases format <;> simp [Layout.render, write, Piece.render, String.join]
  rw [formatIn?, holeLayout, Layout.render_append, String.toList_append,
    Nesting.behindColon_append, hformat]
  obtain ⟨hcolons, hrun, hnone⟩ | ⟨hcolon, behind, hbehind⟩ := read_joined h
  · rw [hrun, hnone]
    refine iff_of_true ?_ hcolons
    cases format with
    | none => rfl
    | some format => exact congrArg some String.ofList_toList
  · rw [hbehind]
    refine iff_of_false (fun heq => ?_) (not_not_intro hcolon)
    cases format with
    | none => cases heq
    | some format =>
      have hlength := congrArg (·.toList.length) (Option.some.inj heq)
      simp at hlength
      omega

end Target

open Target (Chunk Exposed PassedBy formatIn? holeChunks holeLayout)

end Sharpen
