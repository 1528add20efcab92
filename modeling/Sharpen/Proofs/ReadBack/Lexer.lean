import Mathlib.Data.List.Forall2
import Mathlib.Tactic.SplitIfs
import Sharpen.Text.Escape

/-!
# Tokens of expressions

The text of an expression is cut into words, numbers, literals in quotes and symbols, and blanks
between them are dropped. A token is as long as it can be, so what follows a text matters:

* `lex` cuts a text into tokens;
* `Reads cs tokens`: `cs` is cut into `tokens` before any text that does not go on with a word;
* `Closed cs tokens`: `cs` is cut into `tokens` before any text at all.

Pieces of text are put together by `Closed.append`, `Closed.reads` and `Reads.append`.

Inside literals the separators U+2028 and U+2029 are taken as they are, since they are no control
characters, although they count as the end of a line elsewhere.
-/

namespace Sharpen.Target.ReadBack

open List

variable {c quote : Char} {a b cs rest : List Char}

/-- A token of an expression. Literals in quotes carry the value they stand for. -/
inductive Token where
  | word (text : String)
  | number (digits : String)
  | string (value : String)
  | char (value : Char)
  | symbol (text : String)
  deriving DecidableEq

variable {s t : List Token}

/-! ## Literals in quotes -/

/-- The value of a hexadecimal digit. -/
def hexValue? (c : Char) : Option Nat :=
  if '0' ≤ c ∧ c ≤ '9' then some (c.toNat - 48)
  else if 'A' ≤ c ∧ c ≤ 'F' then some (c.toNat - 55)
  else if 'a' ≤ c ∧ c ≤ 'f' then some (c.toNat - 87)
  else none

/-- The character with four given hexadecimal digits. -/
def charOfHex? (a b c d : Char) : Option Char := do
  let a ← hexValue? a
  let b ← hexValue? b
  let c ← hexValue? c
  let d ← hexValue? d
  return Char.ofNat (((a * 16 + b) * 16 + c) * 16 + d)

/-- The escapes of one letter, digit or mark behind a backslash. -/
def shortEscapes : List (Char × Char) :=
  [('\\', '\\'), (Text.stringQuote, Text.stringQuote), (Text.charQuote, Text.charQuote),
    ('n', '\n'), ('r', '\r'), ('t', '\t'), ('0', Char.ofNat 0)]

/-- One more character in front of the value of a literal. -/
def attach (value? : Option Char) (more : Option (List Char × List Char)) :
    Option (List Char × List Char) := do
  let value ← value?
  let (values, rest) ← more
  return (value :: values, rest)

theorem attach_eq_some {value? : Option Char} {more : Option (List Char × List Char)}
    {values : List Char} (h : attach value? more = some (values, rest)) :
    ∃ behind, more = some (behind, rest) := by
  cases value? with
  | none => cases h
  | some value =>
    obtain _ | ⟨behind, _⟩ := more
    · cases h
    · cases h
      exact ⟨behind, rfl⟩

/-- The value of a text with escapes. A text in quotes goes up to its closing quote, with what
follows it, and has no control characters outside escapes; another text goes to its end. -/
def unquoted? (quote? : Option Char) : List Char → Option (List Char × List Char)
  | [] => if quote?.isSome then none else some ([], [])
  | '\\' :: 'u' :: a :: b :: c :: d :: rest => attach (charOfHex? a b c d) (unquoted? quote? rest)
  | '\\' :: mark :: rest => attach (shortEscapes.lookup mark) (unquoted? quote? rest)
  | c :: rest =>
    if quote? = some c then some ([], rest)
    else if c = '\\' ∨ quote?.isSome && Text.isControl c then none
    else attach (some c) (unquoted? quote? rest)

/-- The value of a literal up to its closing quote, and what follows it. -/
def quoted? (quote : Char) (cs : List Char) : Option (List Char × List Char) :=
  unquoted? (some quote) cs

variable {quote? : Option Char}

theorem unquoted?_length_le {values : List Char} (h : unquoted? quote? cs = some (values, rest)) :
    rest.length ≤ cs.length := by
  fun_induction unquoted? quote? cs generalizing values rest with
  | case1 => cases h
  | case2 => cases h; exact Nat.le_refl _
  | case3 _ _ _ _ _ ih | case4 _ _ _ ih =>
    obtain ⟨_, inner⟩ := attach_eq_some h
    exact Nat.le_trans (ih inner) (by simp only [length_cons]; omega)
  | case5 =>
    cases h
    exact Nat.le_succ _
  | case6 => cases h
  | case7 _ _ _ _ _ _ ih =>
    obtain ⟨_, inner⟩ := attach_eq_some h
    exact Nat.le_succ_of_le (ih inner)

theorem unquoted?_cons (backslash : c ≠ '\\') :
    unquoted? quote? (c :: rest) = if quote? = some c then some ([], rest)
      else if c = '\\' ∨ quote?.isSome && Text.isControl c then none
      else attach (some c) (unquoted? quote? rest) :=
  unquoted?.eq_4 _ _ _ (fun _ _ _ _ _ h => absurd h backslash) fun _ _ h => absurd h backslash

theorem hexValue?_hexDigit {n : Nat} (h : n < 16) : hexValue? (Text.hexDigit n) = some n := by
  revert n
  decide

/-- Four hexadecimal digits give back any number they are wide enough for. -/
theorem charOfHex?_hexDigits4 {n : Nat} (h : n < 65536) :
    ∃ a b c d, Text.hexDigits4 n = [a, b, c, d] ∧ charOfHex? a b c d = some (Char.ofNat n) := by
  refine ⟨_, _, _, _, rfl, ?_⟩
  have sum : ((n / 4096 % 16 * 16 + n / 256 % 16) * 16 + n / 16 % 16) * 16 + n % 16 = n := by omega
  have digit (k : Nat) : hexValue? (Text.hexDigit (k % 16)) = some (k % 16) :=
    hexValue?_hexDigit (Nat.mod_lt _ (by decide))
  simp only [charOfHex?, digit, Option.bind_eq_bind, Option.bind_some, sum]
  rfl

/-- Four hexadecimal digits are wide enough for every control character. -/
theorem charOfHex?_of_isControl (control : Text.isControl c = true) :
    ∃ a b x d, Text.hexDigits4 c.toNat = [a, b, x, d] ∧ charOfHex? a b x d = some c := by
  simp only [Text.isControl, Bool.or_eq_true, Bool.and_eq_true, decide_eq_true_eq] at control
  simpa only [Char.ofNat_toNat] using charOfHex?_hexDigits4 (show c.toNat < 65536 by omega)

theorem quote_cases (known : quote ∈ [Text.stringQuote, Text.charQuote]) :
    quote = Text.stringQuote ∨ quote = Text.charQuote := by
  simpa using known

/-- An escape stands for a character: a mark behind a backslash, or four hexadecimal digits behind
`\u`. -/
inductive IsEscape (c : Char) : List Char → Prop where
  | short {mark : Char} (hex : mark ≠ 'u') (value : shortEscapes.lookup mark = some c) :
      IsEscape c ['\\', mark]
  | hex (control : Text.isControl c = true) : IsEscape c ('\\' :: 'u' :: Text.hexDigits4 c.toNat)

/-- A character is written as an escape, or as itself if it is no backslash, quote or control
character. -/
theorem escapeIn_cases (known : quote ∈ [Text.stringQuote, Text.charQuote]) (c : Char) :
    IsEscape c (Text.escapeIn quote c) ∨
      Text.escapeIn quote c = [c] ∧ c ≠ quote ∧ c ≠ '\\' ∧ Text.isControl c = false := by
  have itself : shortEscapes.lookup quote = some quote ∧ quote ≠ 'u' := by
    rcases quote_cases known with rfl | rfl <;> decide
  unfold Text.escapeIn
  split_ifs with backslash newline return' tab zero ends control
  · exact .inl (.short (by decide) (by rw [backslash]; decide))
  · exact .inl (.short (by decide) (by rw [newline]; decide))
  · exact .inl (.short (by decide) (by rw [return']; decide))
  · exact .inl (.short (by decide) (by rw [tab]; decide))
  · exact .inl (.short (by decide) (by rw [← Char.ofNat_toNat c, zero]; decide))
  · exact .inl (.short (ends ▸ itself.2) (ends ▸ itself.1))
  · exact .inl (.hex control)
  · exact .inr ⟨rfl, ends, backslash, by simpa using control⟩

theorem unquoted?_escape {escape : List Char} (h : IsEscape c escape) (rest : List Char) :
    unquoted? quote? (escape ++ rest) = attach (some c) (unquoted? quote? rest) := by
  cases h with
  | short hex value =>
    change unquoted? quote? ('\\' :: _ :: rest) = _
    rw [unquoted?.eq_3 _ _ _ fun _ _ _ _ _ h => absurd h hex, value]
  | hex control =>
    obtain ⟨a, b, x, d, digits, value⟩ := charOfHex?_of_isControl control
    rw [digits]
    change unquoted? quote? ('\\' :: 'u' :: a :: b :: x :: d :: rest) = _
    rw [unquoted?, value]

/-- An escaped character is read as the character it was made from. -/
theorem unquoted?_escapeIn (known : quote ∈ [Text.stringQuote, Text.charQuote])
    (same : ∀ other ∈ quote?, other = quote) (c : Char) (rest : List Char) :
    unquoted? quote? (Text.escapeIn quote c ++ rest) = attach (some c) (unquoted? quote? rest) := by
  rcases escapeIn_cases known c with escape | ⟨itself, ends, backslash, control⟩
  · exact unquoted?_escape escape rest
  · have inside : quote? ≠ some c := fun h => ends (same c h)
    rw [itself, singleton_append, unquoted?_cons backslash, if_neg inside,
      if_neg (by simp [backslash, control])]

/-- Escaped characters are read, and then what follows them. -/
theorem unquoted?_escaped (known : quote ∈ [Text.stringQuote, Text.charQuote])
    (same : ∀ other ∈ quote?, other = quote) (values rest : List Char) :
    unquoted? quote? (values.flatMap (Text.escapeIn quote) ++ rest) =
      (unquoted? quote? rest).map fun (more, behind) => (values ++ more, behind) := by
  induction values with
  | nil => exact Option.map_id_apply.symm
  | cons value values ih =>
    rw [flatMap_cons, append_assoc, unquoted?_escapeIn known same, ih]
    cases unquoted? quote? rest <;> rfl

/-- Escaped characters are read up to the closing quote. -/
theorem quoted?_escaped (known : quote ∈ [Text.stringQuote, Text.charQuote])
    (values rest : List Char) :
    quoted? quote (values.flatMap (Text.escapeIn quote) ++ quote :: rest) =
      some (values, rest) := by
  have backslash : quote ≠ '\\' := by rcases quote_cases known with rfl | rfl <;> decide
  rw [quoted?, unquoted?_escaped known (by simp), unquoted?_cons backslash, if_pos rfl]
  simp

/-! ## Cutting a text -/

/-- Characters of words: names, keywords and numbers. -/
def isWordChar (c : Char) : Bool :=
  !Text.isBlank c && (c.isAlphanum || c = '_' || c = '@' || c = '\\' || 128 ≤ c.toNat)

/-- The symbols, a longer one before those it starts with. -/
def symbols : List String :=
  ["<<=", ">>=", "=>", "==", "!=", "<=", ">=", "&&", "||", "??", "++", "--", "<<", ">>", "+=", "-=",
    "*=", "/=", "%=", "&=", "|=", "^=", "+", "-", "*", "/", "%", "&", "|", "^", "!", "~", "<", ">",
    "=", "?", ":", "(", ")", "[", "]", ".", ","]

/-- The first token of a text that does not start with a blank, and what follows it. -/
def next? (c : Char) (rest : List Char) : Option (Token × List Char) :=
  if isWordChar c then
    if c.isDigit then
      some (.number (String.ofList (c :: rest.takeWhile Char.isDigit)), rest.dropWhile Char.isDigit)
    else some (.word (String.ofList (c :: rest.takeWhile isWordChar)), rest.dropWhile isWordChar)
  else if c = Text.stringQuote then
    (quoted? c rest).map fun (values, rest) => (.string (String.ofList values), rest)
  else if c = Text.charQuote then
    match quoted? c rest with
    | some ([value], rest) => some (.char value, rest)
    | _ => none
  else
    (symbols.find? fun symbol => symbol.toList.isPrefixOf (c :: rest)).map fun symbol =>
      (.symbol symbol, rest.drop (symbol.length - 1))

theorem next?_length_le {token : Token} (h : next? c cs = some (token, rest)) :
    rest.length ≤ cs.length := by
  simp only [next?] at h
  split_ifs at h with word digit string char
  · cases h
    exact (dropWhile_suffix _).length_le
  · cases h
    exact (dropWhile_suffix _).length_le
  · obtain ⟨⟨_, _⟩, inner, same⟩ := Option.map_eq_some_iff.mp h
    cases same
    exact unquoted?_length_le inner
  · split at h
    · next inner =>
      cases h
      exact unquoted?_length_le inner
    · cases h
  · obtain ⟨_, -, same⟩ := Option.map_eq_some_iff.mp h
    cases same
    rw [length_drop]
    exact Nat.sub_le _ _

/-- The tokens of a text. -/
def lex : List Char → Option (List Token)
  | [] => some []
  | c :: cs =>
    if Text.isBlank c then lex cs
    else match h : next? c cs with
      | some (token, rest) =>
        have : rest.length ≤ cs.length := next?_length_le h
        (lex rest).map (token :: ·)
      | none => none
termination_by cs => cs.length

theorem lex_nil : lex [] = some [] := by
  rw [lex.eq_def]

theorem lex_blank (h : Text.isBlank c = true) : lex (c :: cs) = lex cs := by
  rw [lex.eq_def]
  exact if_pos h

theorem lex_next {token : Token} (blank : Text.isBlank c = false)
    (h : next? c cs = some (token, rest)) :
    lex (c :: cs) = (lex rest).map (token :: ·) := by
  rw [lex.eq_def]
  simp only [blank, Bool.false_eq_true, if_false]
  split
  · next h' =>
    rw [h] at h'
    cases h'
    rfl
  · next h' =>
    rw [h] at h'
    cases h'

/-! ## Texts before other texts -/

/-- The text does not go on with a word. -/
def Ends (rest : List Char) : Prop :=
  ∀ c ∈ rest.head?, isWordChar c = false

/-- The characters are cut into the tokens, before any text that does not go on with a word. -/
def Reads (cs : List Char) (tokens : List Token) : Prop :=
  ∀ rest, Ends rest → lex (cs ++ rest) = (lex rest).map (tokens ++ ·)

/-- The characters are cut into the tokens, before any text. -/
def Closed (cs : List Char) (tokens : List Token) : Prop :=
  ∀ rest, lex (cs ++ rest) = (lex rest).map (tokens ++ ·)

theorem ends_nil : Ends [] := by
  intro c h
  cases h

theorem ends_cons (h : isWordChar c = false) : Ends (c :: rest) := by
  intro d hd
  cases hd
  exact h

theorem Reads.nil : Reads [] [] := by
  intro rest _
  exact Option.map_id_apply.symm

theorem Closed.weaken {tokens : List Token} (h : Closed cs tokens) : Reads cs tokens :=
  fun rest _ => h rest

theorem map_append_append (a b : List Token) (rest : Option (List Token)) :
    (rest.map (b ++ ·)).map (a ++ ·) = rest.map (a ++ b ++ ·) := by
  rw [Option.map_map]
  congr 1
  funext tokens
  exact (append_assoc a b tokens).symm

theorem Closed.append (first : Closed a s) (second : Closed b t) : Closed (a ++ b) (s ++ t) := by
  intro rest
  rw [append_assoc, first, second, map_append_append]

theorem Closed.reads (first : Closed a s) (second : Reads b t) : Reads (a ++ b) (s ++ t) := by
  intro rest ends
  rw [append_assoc, first, second rest ends, map_append_append]

/-- A text may follow another one if it does not start within a word. -/
theorem Reads.append (first : Reads a s) (second : Closed b t) (starts : ∀ rest, Ends (b ++ rest)) :
    Closed (a ++ b) (s ++ t) := by
  intro rest
  rw [append_assoc, first _ (starts rest), second, map_append_append]

/-- Two texts with one token between them. -/
theorem Reads.joined {c : List Char} {token : Token} (first : Reads a s) (middle : Closed b [token])
    (starts : ∀ rest, Ends (b ++ rest)) (last : Reads c t) :
    Reads (a ++ (b ++ c)) (s ++ token :: t) := by
  rw [← append_assoc, append_cons]
  exact (first.append middle starts).reads last

/-! ## Words, numbers and literals -/

/-- A run of characters of one class ends before a text that starts with another one. -/
theorem span_append {p : Char → Bool} (run : ∀ c ∈ cs, p c = true)
    (ends : ∀ c ∈ rest.head?, p c = false) :
    (cs ++ rest).takeWhile p = cs ∧ (cs ++ rest).dropWhile p = rest := by
  rw [takeWhile_append_of_pos run, dropWhile_append_of_pos run]
  cases rest with
  | nil => exact ⟨append_nil cs, rfl⟩
  | cons c rest =>
    have stop : ¬p c = true := by simp [ends c rfl]
    rw [takeWhile_cons_of_neg stop, dropWhile_cons_of_neg stop]
    exact ⟨append_nil cs, rfl⟩

theorem isBlank_of_isWordChar (h : isWordChar c = true) : Text.isBlank c = false := by
  simp only [isWordChar, Bool.and_eq_true, Bool.not_eq_true'] at h
  exact h.1

theorem isWordChar_of_isDigit (h : c.isDigit = true) : isWordChar c = true := by
  have range : 48 ≤ c.toNat ∧ c.toNat ≤ 57 := by
    simpa [Char.isDigit, UInt32.le_iff_toNat_le] using h
  have blank : Text.isBlank c = false := by
    simp only [Text.isBlank, Bool.or_eq_false_iff, Bool.and_eq_false_iff, decide_eq_false_iff_not]
    omega
  simp [isWordChar, blank, Char.isAlphanum, h]

/-- A text that is one word and not a number. -/
structure IsWord (text : String) : Prop where
  chars : text.toList.all isWordChar = true
  start : text.toList.head?.map Char.isDigit = some false

/-- A text of decimal digits. -/
structure IsNumber (digits : String) : Prop where
  chars : digits.toList.all Char.isDigit = true
  filled : digits.toList ≠ []

theorem IsWord.exists_cons {text : String} (h : IsWord text) :
    ∃ c cs, text.toList = c :: cs ∧ c.isDigit = false := by
  obtain ⟨c, first, digit⟩ := Option.map_eq_some_iff.mp h.start
  obtain ⟨cs, whole⟩ := List.head?_eq_some_iff.mp first
  exact ⟨c, cs, whole, digit⟩

theorem reads_word {text : String} (h : IsWord text) : Reads text.toList [.word text] := by
  obtain ⟨c, cs, chars, digit⟩ := h.exists_cons
  have word := all_eq_true.mp h.chars
  rw [chars] at word ⊢
  intro rest ends
  have first : isWordChar c = true := word c (by simp)
  obtain ⟨taken, left⟩ := span_append (fun d hd => word d (mem_cons_of_mem c hd)) ends
  have whole : String.ofList (c :: cs) = text := by rw [← chars, String.ofList_toList]
  refine lex_next (isBlank_of_isWordChar first) ?_
  rw [append_eq, next?, if_pos first, if_neg (by simp [digit]), taken, left, whole]

theorem reads_number {digits : String} (h : IsNumber digits) :
    Reads digits.toList [.number digits] := by
  obtain ⟨c, cs, chars⟩ := exists_cons_of_ne_nil h.filled
  have digit := all_eq_true.mp h.chars
  rw [chars] at digit ⊢
  intro rest ends
  have first : c.isDigit = true := digit c (by simp)
  have stop : ∀ d ∈ rest.head?, d.isDigit = false := by
    intro d hd
    by_contra isDigit
    have := ends d hd
    rw [isWordChar_of_isDigit (by simpa using isDigit)] at this
    cases this
  obtain ⟨taken, left⟩ := span_append (fun d hd => digit d (mem_cons_of_mem c hd)) stop
  have whole : String.ofList (c :: cs) = digits := by rw [← chars, String.ofList_toList]
  have word := isWordChar_of_isDigit first
  refine lex_next (isBlank_of_isWordChar word) ?_
  rw [append_eq, next?, if_pos word, if_pos first, taken, left, whole]

theorem closed_string (value : String) :
    Closed ("\"" ++ Text.escapeString value ++ "\"").toList [.string value] := by
  intro rest
  have read := quoted?_escaped (mem_cons_self : Text.stringQuote ∈ _) value.toList rest
  have text : ("\"" ++ Text.escapeString value ++ "\"").toList ++ rest = Text.stringQuote ::
        (value.toList.flatMap (Text.escapeIn Text.stringQuote) ++ Text.stringQuote :: rest) := by
    simp only [Text.escapeString, String.toList_append, String.toList_ofList, append_assoc]
    rfl
  rw [text]
  refine lex_next (by decide) ?_
  rw [next?, if_neg (by decide), if_pos rfl, read]
  exact congrArg (fun text => some (Token.string text, rest)) String.ofList_toList

theorem closed_char (value : Char) :
    Closed ("'" ++ Text.escapeChar value ++ "'").toList [.char value] := by
  intro rest
  have read := quoted?_escaped (by simp : Text.charQuote ∈ _) [value] rest
  rw [flatMap_singleton] at read
  have text : ("'" ++ Text.escapeChar value ++ "'").toList ++ rest =
      Text.charQuote :: (Text.escapeIn Text.charQuote value ++ Text.charQuote :: rest) := by
    simp only [Text.escapeChar, String.toList_append, String.toList_ofList, append_assoc]
    rfl
  rw [text]
  refine lex_next (by decide) ?_
  rw [next?, if_neg (by decide), if_neg (by decide), if_pos rfl, read]

/-! ## Symbols and blanks -/

theorem closed_blank : Closed [' '] [] := by
  intro rest
  rw [singleton_append, lex_blank (by decide)]
  exact Option.map_id_apply.symm

/-- No symbol comes before one that it starts. -/
theorem symbols_ordered : symbols.Pairwise fun a b => ¬a.toList <+: b.toList := by
  decide

/-- Characters that symbols are made of are none of words, blanks and quotes. -/
def isSymbolChar (c : Char) : Bool :=
  !Text.isBlank c && !isWordChar c && c != Text.stringQuote && c != Text.charQuote

theorem symbols_chars :
    ∀ symbol ∈ symbols, symbol.toList.isEmpty = false ∧ symbol.toList.all isSymbolChar = true := by
  decide

theorem isSymbolChar_of_mem {symbol : String} (known : symbol ∈ symbols) (mem : c ∈ symbol.toList) :
    Text.isBlank c = false ∧ isWordChar c = false ∧ c ≠ Text.stringQuote ∧ c ≠ Text.charQuote := by
  have h := all_eq_true.mp (symbols_chars symbol known).2 c mem
  simpa [isSymbolChar, and_assoc] using h

/-- No longer symbol is read where the symbol stands before the text. -/
def Apart (symbol : String) (rest : List Char) : Prop :=
  ∀ other ∈ symbols, other.toList <+: symbol.toList ++ rest →
    other.toList.length ≤ symbol.toList.length

theorem find?_symbol {symbol : String} (known : symbol ∈ symbols) (apart : Apart symbol rest) :
    symbols.find? (fun other => other.toList.isPrefixOf (symbol.toList ++ rest)) = some symbol := by
  have here : symbol.toList.isPrefixOf (symbol.toList ++ rest) = true :=
    isPrefixOf_iff_prefix.mpr (prefix_append _ _)
  have some' :
    (symbols.find? fun other => other.toList.isPrefixOf (symbol.toList ++ rest)).isSome :=
    List.find?_isSome.mpr ⟨symbol, known, here⟩
  obtain ⟨found, found_eq⟩ := Option.isSome_iff_exists.mp some'
  rw [found_eq]
  obtain ⟨starts, _, _, whole, passed⟩ := List.find?_eq_some_iff_append.mp found_eq
  rw [List.isPrefixOf_iff_prefix] at starts
  have within : found.toList <+: symbol.toList :=
    prefix_of_prefix_length_le starts (prefix_append _ _)
      (apart found (mem_of_find?_eq_some found_eq) starts)
  rw [whole] at known
  rcases mem_append.mp known with earlier | others
  · have := passed symbol earlier
    rw [here] at this
    cases this
  · rcases mem_cons.mp others with same | later
    · rw [same]
    · have ordered := symbols_ordered
      rw [whole, pairwise_append, pairwise_cons] at ordered
      exact absurd within (ordered.2.1.1 symbol later)

theorem lex_symbol {symbol : String} (known : symbol ∈ symbols) (apart : Apart symbol rest) :
    lex (symbol.toList ++ rest) = (lex rest).map (.symbol symbol :: ·) := by
  have found := find?_symbol known apart
  have filled : symbol.toList ≠ [] := isEmpty_eq_false_iff.mp (symbols_chars symbol known).1
  obtain ⟨c, cs, text⟩ := exists_cons_of_ne_nil filled
  have size : symbol.length - 1 = cs.length := by
    rw [← String.length_toList, text]
    rfl
  have first : c ∈ symbol.toList := by
    rw [text]
    exact mem_cons_self
  obtain ⟨blank, word, string, char⟩ := isSymbolChar_of_mem known first
  rw [text] at found ⊢
  refine lex_next blank ?_
  rw [next?, if_neg (by simp [word]), if_neg string, if_neg char]
  rw [cons_append] at found
  rw [append_eq, found, Option.map_some, size, drop_left]

/-- A symbol that starts no other one is read before any text. -/
theorem closed_symbol {symbol : String} (known : symbol ∈ symbols)
    (alone : ∀ other ∈ symbols, symbol.toList <+: other.toList → other = symbol) :
    Closed symbol.toList [.symbol symbol] := by
  intro rest
  refine lex_symbol known ?_
  intro other known' here
  by_contra longer
  have within : symbol.toList <+: other.toList :=
    prefix_of_prefix_length_le (prefix_append _ _) here (by omega)
  rw [alone other known' within] at longer
  exact longer (Nat.le_refl _)

/-- A symbol is read before a character that goes on with no longer symbol. -/
theorem apart_cons {symbol : String}
    (h : ∀ other ∈ symbols, ¬symbol.toList ++ [c] <+: other.toList) :
    Apart symbol (c :: rest) := by
  intro other known here
  by_contra longer
  refine h other known (prefix_of_prefix_length_le ?_ here ?_)
  · exact append_cons symbol.toList c rest ▸ prefix_append _ _
  · rw [length_append, length_singleton]
    omega

/-- Blanks on both sides keep a symbol apart. -/
theorem closed_spaced {symbol : String} (known : symbol ∈ symbols) :
    Closed (" " ++ symbol ++ " ").toList [.symbol symbol] := by
  intro rest
  have text : (" " ++ symbol ++ " ").toList ++ rest = ' ' :: (symbol.toList ++ ' ' :: rest) := by
    simp only [String.toList_append, append_assoc]
    rfl
  rw [text, lex_blank (by decide), lex_symbol known, lex_blank (by decide)]
  · rfl
  · refine apart_cons fun other known' within => ?_
    have blank := within.subset (mem_append_right _ mem_cons_self)
    exact absurd (isSymbolChar_of_mem known' blank).1 (by decide)

theorem ends_spaced (symbol : String) (rest : List Char) :
    Ends ((" " ++ symbol ++ " ").toList ++ rest) := by
  simp only [String.toList_append, append_assoc]
  exact ends_cons (by decide)

/-- Blanks on both sides keep a word apart. -/
theorem closed_spacedWord {text : String} (h : IsWord text) :
    Closed (" " ++ text ++ " ").toList [.word text] := by
  rw [String.toList_append, String.toList_append]
  exact (closed_blank.reads (reads_word h)).append closed_blank fun _ => ends_cons (by decide)

end Sharpen.Target.ReadBack
