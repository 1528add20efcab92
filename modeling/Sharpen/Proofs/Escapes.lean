import Mathlib.Order.Interval.Finset.Nat
import Sharpen.Proofs.Outcome
import Sharpen.Proofs.Printing.Grammar
import Sharpen.Proofs.ReadBack.Lexer

/-!
# The meaning of escaped text

Reading the text between the quotes of a literal undoes what escaping did (`escaping_is_lossless`).
Escapes keep a literal on its line, but for the two separators of lines and paragraphs, which are no
control characters (`escaped_text_breaks_at_separators`). The text of an interpolated string has a
second layer on either side: quotes are written twice in the source, braces are written twice in
both (`interpolated_text_keeps_its_value`).
-/

/-- The partners of two lists one after the other. -/
theorem List.Forall₂.split_left {α β : Type} {R : α → β → Prop} {first second : List α}
    {items : List β} (h : Forall₂ R (first ++ second) items) :
    ∃ a b, Forall₂ R first a ∧ Forall₂ R second b ∧ items = a ++ b := by
  induction first generalizing items with
  | nil => exact ⟨[], items, .nil, h, rfl⟩
  | cons x first ih =>
    obtain _ | ⟨here, rest⟩ := h
    obtain ⟨a, b, left, right, rfl⟩ := ih rest
    exact ⟨_ :: a, b, .cons here left, right, rfl⟩

namespace Sharpen.Target.ReadBack

open List

variable {quote c : Char} {escape text rest : List Char}

/-! ## Reading escapes -/

/-- The value of the text between the quotes of a literal. Outside escapes every character stands
for itself. -/
def unescape? (text : List Char) : Option (List Char) :=
  (unquoted? none text).map Prod.fst

theorem unescape?_escaped (known : quote ∈ [Text.stringQuote, Text.charQuote])
    (values rest : List Char) :
    unescape? (values.flatMap (Text.escapeIn quote) ++ rest) =
      (unescape? rest).map (values ++ ·) := by
  rw [unescape?, unquoted?_escaped known (by simp), unescape?, Option.map_map, Option.map_map]
  rfl

/-! ## Which characters are left in an escaped text -/

/-- Every quote in the text is the mark of an escape: a backslash stands before it, and the escapes
before that backslash are complete. -/
def QuotesAreMarks (quote : Char) (text : List Char) : Prop :=
  ∀ before after, text = before ++ quote :: after →
    ∃ start, before = start ++ ['\\'] ∧ (unescape? start).isSome

theorem hexDigit_plain {n : Nat} (h : n < 16) :
    Text.hexDigit n ∉ [Text.stringQuote, Text.charQuote] ∧
      (Text.hexDigit n).toNat ∈ Finset.Icc 48 70 := by
  revert n
  decide

theorem mem_hexDigits4 {n : Nat} {d : Char} (h : d ∈ Text.hexDigits4 n) :
    ∃ k < 16, d = Text.hexDigit k := by
  simp only [Text.hexDigits4, mem_cons, not_mem_nil, or_false] at h
  rcases h with rfl | rfl | rfl | rfl <;> exact ⟨_, Nat.mod_lt _ (by decide), rfl⟩

/-- An escape has a quote only as its mark, and is made of printable ASCII characters. -/
theorem IsEscape.chars (known : quote ∈ [Text.stringQuote, Text.charQuote])
    (h : IsEscape c escape) :
    (∀ before after, escape = before ++ quote :: after → before = ['\\']) ∧
      ∀ d ∈ escape, d.toNat ∈ Finset.Icc 32 126 := by
  have backslash : quote ≠ '\\' ∧ quote ≠ 'u' := by
    rcases quote_cases known with rfl | rfl <;> decide
  cases h with
  | @short mark _ value =>
    constructor
    · rintro (_ | ⟨_, _ | ⟨_, _⟩⟩) _ same
      · exact absurd (List.cons.inj same).1.symm backslash.1
      · rw [(List.cons.inj same).1]
      · have := congrArg List.length same
        simp at this
    · have printable : ∀ pair ∈ shortEscapes, pair.1.toNat ∈ Finset.Icc 32 126 := by decide
      obtain ⟨_, _, whole, -⟩ := lookup_eq_some_iff.mp value
      refine forall_mem_cons.mpr ⟨by decide, forall_mem_singleton.mpr ?_⟩
      exact printable (mark, c) (whole ▸ by simp)
  | hex =>
    constructor
    · intro before after same
      have inside : quote ∈ '\\' :: 'u' :: Text.hexDigits4 c.toNat := same ▸ by simp
      simp only [mem_cons, backslash.1, backslash.2, false_or] at inside
      obtain ⟨_, small, rfl⟩ := mem_hexDigits4 inside
      exact absurd known (hexDigit_plain small).1
    · refine forall_mem_cons.mpr ⟨by decide,
        forall_mem_cons.mpr ⟨by decide, fun d mem => ?_⟩⟩
      obtain ⟨_, small, rfl⟩ := mem_hexDigits4 mem
      have := Finset.mem_Icc.mp (hexDigit_plain small).2
      exact Finset.mem_Icc.mpr (by omega)

theorem escapeIn_quote (known : quote ∈ [Text.stringQuote, Text.charQuote])
    {before after : List Char} (h : Text.escapeIn quote c = before ++ quote :: after) :
    before = ['\\'] := by
  rcases escapeIn_cases known c with written | ⟨itself, ends, -, -⟩
  · exact (written.chars known).1 before after h
  · have : quote ∈ [c] := itself ▸ h ▸ by simp
    exact absurd (mem_singleton.mp this).symm ends

theorem isControl_of_mem_escapeIn (known : quote ∈ [Text.stringQuote, Text.charQuote]) {d : Char}
    (h : d ∈ Text.escapeIn quote c) : Text.isControl d = false := by
  rcases escapeIn_cases known c with written | ⟨itself, -, -, control⟩
  · have := Finset.mem_Icc.mp ((written.chars known).2 d h)
    simp only [Text.isControl, Bool.or_eq_false_iff, Bool.and_eq_false_iff, decide_eq_false_iff_not]
    omega
  · rw [itself, mem_singleton] at h
    rw [h]
    exact control

/-- The quotes of an escaped text are escaped, one character after the other. -/
theorem quotesAreMarks_escaped (known : quote ∈ [Text.stringQuote, Text.charQuote])
    (values : List Char) :
    QuotesAreMarks quote (values.flatMap (Text.escapeIn quote)) := by
  induction values with
  | nil =>
    intro before after h
    simp at h
  | cons value values ih =>
    intro before after h
    rw [flatMap_cons] at h
    rcases append_eq_append_iff.mp h with ⟨behind, rfl, tail⟩ | ⟨inside, first, tail⟩
    · obtain ⟨start, rfl, complete⟩ := ih behind after tail
      refine ⟨Text.escapeIn quote value ++ start, (append_assoc ..).symm, ?_⟩
      rw [← flatMap_singleton (Text.escapeIn quote), unescape?_escaped known,
        Option.isSome_map]
      exact complete
    · cases inside with
      | nil =>
        obtain ⟨_, same, -⟩ := ih [] after tail.symm
        simp at same
      | cons mark inside =>
        obtain ⟨rfl, -⟩ := List.cons.inj tail
        exact ⟨[], escapeIn_quote known first, rfl⟩

/-- Escaping loses nothing. Reading an escaped string or character gives it back, each of its quotes
is the mark of an escape, and no control character is left. -/
theorem escaping_is_lossless :
    (∀ value : String, unescape? (Text.escapeString value).toList = some value.toList ∧
      QuotesAreMarks Text.stringQuote (Text.escapeString value).toList ∧
      ∀ c ∈ (Text.escapeString value).toList, Text.isControl c = false) ∧
    ∀ value : Char, unescape? (Text.escapeChar value).toList = some [value] ∧
      QuotesAreMarks Text.charQuote (Text.escapeChar value).toList ∧
      ∀ c ∈ (Text.escapeChar value).toList, Text.isControl c = false := by
  have lossless {quote : Char} (known : quote ∈ [Text.stringQuote, Text.charQuote])
    (values : List Char) :
      unescape? (values.flatMap (Text.escapeIn quote)) = some values ∧
        QuotesAreMarks quote (values.flatMap (Text.escapeIn quote)) ∧
        ∀ c ∈ values.flatMap (Text.escapeIn quote), Text.isControl c = false := by
    refine ⟨?_, quotesAreMarks_escaped known values, fun c mem => ?_⟩
    · have read := unescape?_escaped known values []
      rw [append_nil] at read
      rw [read]
      exact congrArg some (append_nil values)
    · obtain ⟨_, -, inside⟩ := mem_flatMap.mp mem
      exact isControl_of_mem_escapeIn known inside
  constructor
  · intro value
    rw [Text.escapeString, String.toList_ofList]
    exact lossless (by simp) value.toList
  · intro value
    have single := lossless (by simp : Text.charQuote ∈ _) [value]
    rw [flatMap_singleton] at single
    rwa [Text.escapeChar, String.toList_ofList]

/-! ## Lines -/

/-- The separators of lines and of paragraphs. -/
def isSeparator (c : Char) : Bool :=
  c.toNat = 0x2028 || c.toNat = 0x2029

/-- The characters that end a line, and with it a literal that is not closed. -/
def endsLine (c : Char) : Bool :=
  c.toNat = 0x0A || c.toNat = 0x0D || c.toNat = 0x85 || isSeparator c

theorem endsLine_eq (control : Text.isControl c = false) : endsLine c = isSeparator c := by
  simp only [Text.isControl, Bool.or_eq_false_iff, Bool.and_eq_false_iff,
    decide_eq_false_iff_not] at control
  have ten : c.toNat ≠ 10 := by omega
  have thirteen : c.toNat ≠ 13 := by omega
  have next : c.toNat ≠ 133 := by omega
  simp [endsLine, ten, thirteen, next]

/-- Neither an escape nor the character that it stands for is a separator. -/
theorem IsEscape.isSeparator (h : IsEscape c escape) :
    isSeparator c = false ∧ ∀ d ∈ escape, isSeparator d = false := by
  constructor
  · cases h with
    | @short mark _ value =>
      have plain : ∀ pair ∈ shortEscapes, ReadBack.isSeparator pair.2 = false := by decide
      obtain ⟨_, _, whole, -⟩ := lookup_eq_some_iff.mp value
      exact plain (mark, c) (whole ▸ by simp)
    | hex control =>
      simp only [Text.isControl, Bool.or_eq_true, Bool.and_eq_true, decide_eq_true_eq] at control
      simp only [ReadBack.isSeparator, Bool.or_eq_false_iff, decide_eq_false_iff_not]
      omega
  · intro d mem
    have := Finset.mem_Icc.mp ((h.chars (mem_cons_self : Text.stringQuote ∈ _)).2 d mem)
    simp only [ReadBack.isSeparator, Bool.or_eq_false_iff, decide_eq_false_iff_not]
    omega

/-- The line ends of an escaped text are the separators of the text. -/
theorem filter_endsLine_escapeString (value : String) :
    (Text.escapeString value).toList.filter endsLine = value.toList.filter isSeparator := by
  have known : Text.stringQuote ∈ [Text.stringQuote, Text.charQuote] := mem_cons_self
  have each (c : Char) : (Text.escapeIn Text.stringQuote c).filter endsLine =
    [c].filter isSeparator := by
    rw [filter_congr fun d mem => endsLine_eq (isControl_of_mem_escapeIn known mem)]
    rcases escapeIn_cases known c with written | ⟨itself, -⟩
    · obtain ⟨whole, parts⟩ := written.isSeparator
      rw [filter_eq_nil_iff.mpr fun d mem => by simp [parts d mem],
        filter_cons_of_neg (by simp [whole])]
      rfl
    · rw [itself]
  rw [Text.escapeString, String.toList_ofList, filter_flatMap]
  simp only [each]
  induction value.toList with
  | nil => rfl
  | cons c values ih => rw [flatMap_cons, ih, ← filter_append, singleton_append]

theorem contentsLayout_append (level : Nat) (first second : List Content) :
    contentsLayout level (first ++ second) = contentsLayout level first ++
      contentsLayout level second := by
  induction first with
  | nil => rfl
  | cons content rest ih =>
    cases content with
    | text text => exact congrArg (.text (Text.escapeString text) :: ·) ih
    | hole _ alignment format =>
      cases alignment with
      | none | some alignment =>
        cases format with
        | none | some format => simp [contentsLayout, ih]

/-- An escaped text stays on one line if and only if it has no separator of lines or paragraphs: its
line ends are exactly these separators. So are those of a printed string literal, and of a piece of
text wherever it stands in an interpolated string. -/
theorem escaped_text_breaks_at_separators (value : String) :
    (Text.escapeString value).toList.filter endsLine = value.toList.filter isSeparator ∧
      (∀ width, ((Literal.string value).layout.render width).toList.filter endsLine =
        value.toList.filter isSeparator) ∧
      (∀ level before after, contentsLayout level (before ++ .text value :: after) =
        contentsLayout level before ++ .text (Text.escapeString value) ::
          contentsLayout level after) ∧
      ((∀ c ∈ (Text.escapeString value).toList, endsLine c = false) ↔
        ∀ c ∈ value.toList, c ≠ Char.ofNat 0x2028 ∧ c ≠ Char.ofNat 0x2029) := by
  have escaped := filter_endsLine_escapeString value
  refine ⟨escaped, fun width => ?_, fun level before after => contentsLayout_append level before _,
    ?_⟩
  · have text : ((Literal.string value).layout.render width).toList =
        '"' :: (Text.escapeString value).toList ++ ['"'] := by
      simp [Literal.layout, Layout.render, Layout.write, Piece.render]
    rw [text, filter_append, filter_cons_of_neg (by decide), escaped]
    exact append_nil _
  · have empty := congrArg (· = []) escaped
    simp only [filter_eq_nil_iff, eq_iff_iff, Bool.not_eq_true] at empty
    rw [empty]
    refine forall₂_congr fun c _ => ?_
    have same {n : Nat} (h : (Char.ofNat n).toNat = n) : c.toNat = n ↔ c = Char.ofNat n :=
      ⟨fun here => here ▸ (Char.ofNat_toNat c).symm, fun here => here ▸ h⟩
    simp only [isSeparator, Bool.or_eq_false_iff, decide_eq_false_iff_not,
      same (rfl : (Char.ofNat 0x2028).toNat = _), same (rfl : (Char.ofNat 0x2029).toNat = _), ne_eq]

/-- A separator of lines is left as it is. -/
theorem separator_is_not_escaped :
    Text.escapeString "\u2028" = "\u2028" ∧ ¬∀ c ∈ (Text.escapeString "\u2028").toList,
      endsLine c = false :=
  ⟨by decide, fun kept => nomatch kept '\u2028' (by decide)⟩

/-! ## Interpolated text -/

/-- A text in which the given characters stand only in pairs, with one character for each pair. -/
def unpair? (isMark : Char → Bool) : List Char → Option (List Char)
  | [] => some []
  | [c] => if isMark c then none else some [c]
  | c :: d :: rest =>
    if isMark c then if d = c then (unpair? isMark rest).map (c :: ·) else none
    else (unpair? isMark (d :: rest)).map (c :: ·)

/-- Braces, which stand around holes. -/
def isBrace (c : Char) : Bool :=
  c = '\x7b' || c = '\x7d'

/-- The value of a piece of text in the source: quotes and braces are written twice. -/
def sourceText? (text : List Char) : Option (List Char) :=
  (unpair? (· = '"') text).bind (unpair? isBrace)

/-- The value of a printed piece of text: characters may be escaped, braces are written twice. -/
def targetText? (text : List Char) : Option (List Char) :=
  (unescape? text).bind (unpair? isBrace)

theorem undoubleQuotes_eq {text value : List Char} (h : unpair? (· = '"') text = some value) :
    undoubleQuotes text = value := by
  fun_induction unpair? (· = '"') text generalizing value with
  | case1 =>
    cases h
    rfl
  | case2 | case5 => cases h
  | case3 =>
    cases h
    rw [undoubleQuotes.eq_2 _ _ (by simp), undoubleQuotes]
  | case4 c _ mark ih =>
    obtain ⟨_, inside, rfl⟩ := Option.map_eq_some_iff.mp h
    obtain rfl : c = '"' := by simpa using mark
    rw [undoubleQuotes, ih inside]
  | case6 _ _ _ _ ih =>
    obtain ⟨_, inside, rfl⟩ := Option.map_eq_some_iff.mp h
    rw [undoubleQuotes.eq_2 _ _ (by simp_all), ih inside]

theorem unpair?_append {isMark : Char → Bool} {first second a b : List Char}
    (ha : unpair? isMark first = some a) (hb : unpair? isMark second = some b) :
    unpair? isMark (first ++ second) = some (a ++ b) := by
  fun_induction unpair? isMark first generalizing a with
  | case1 =>
    cases ha
    exact hb
  | case2 | case5 => cases ha
  | case3 _ mark =>
    cases ha
    cases second with
    | nil =>
      cases hb
      simp [unpair?, mark]
    | cons d rest => simp [unpair?, mark, hb]
  | case4 _ _ mark ih =>
    obtain ⟨_, inside, rfl⟩ := Option.map_eq_some_iff.mp ha
    simp [unpair?, mark, ih inside]
  | case6 _ _ _ mark ih =>
    obtain ⟨_, inside, rfl⟩ := Option.map_eq_some_iff.mp ha
    have read := ih inside
    rw [cons_append] at read
    simp [unpair?, mark, read]

theorem unescape?_texts (level width : Nat) (texts : List String) :
    unescape? ((contentsLayout level (texts.map .text)).render width).toList =
      some (texts.flatMap String.toList) := by
  induction texts with
  | nil => rfl
  | cons text texts ih =>
    rw [map_cons, contentsLayout, Layout.render_cons, String.toList_append, Piece.render,
      Text.escapeString, String.toList_ofList, unescape?_escaped mem_cons_self, ih]
    rfl

/-- Printed pieces of text have the values that the pieces have in the source. -/
theorem targetText?_texts (level width : Nat) {texts : List String} {values : List (List Char)}
    (h : Forall₂ (fun text value => sourceText? text.toList = some value) texts values) :
    targetText? ((contentsLayout level ((texts.map fun text =>
      String.ofList (undoubleQuotes text.toList)).map .text)).render width).toList =
        some values.flatten := by
  rw [targetText?, unescape?_texts, Option.bind_some]
  induction h with
  | nil => rfl
  | cons known _ ih =>
    obtain ⟨_, quotes, braces⟩ := Option.bind_eq_some_iff.mp known
    rw [map_cons, flatMap_cons, String.toList_ofList, undoubleQuotes_eq quotes]
    exact unpair?_append braces ih

end ReadBack

open ReadBack List

/-- Pieces of text between holes keep their value. Where pieces stand next to each other in an
interpolated string that converts, each with its quotes and braces in pairs, the printed string has
in their place a text whose value is theirs, one after the other. -/
theorem interpolated_text_keeps_its_value (setting : Setting) (levels : Nat) (allowed : Bool)
    (place : Surroundings) (id : Source.NodeId) (before after : List Source.Content)
    (texts : List String) (values : List (List Char)) (converted : Expr)
    (h : ((Inner.at setting (levels + 1)).expr allowed
      (.interpolated id (before ++ texts.map .text ++ after)) place).1 = .ok converted)
    (known : Forall₂ (fun text value => sourceText? text.toList = some value) texts values) :
    ∃ first inside last, converted = .interpolated (first ++ inside ++ last) ∧
      Forall₂ (fun content piece => ((Inner.at setting levels).content content).Gives piece)
        before first ∧
      Forall₂ (fun content piece => ((Inner.at setting levels).content content).Gives piece)
        after last ∧
      ∀ level,
        converted.layout level = Layout.enclosed "$\"" "\"" (contentsLayout level first ++
          contentsLayout level inside ++ contentsLayout level last) ∧
        ∀ width, targetText? ((contentsLayout level inside).render width).toList =
          some values.flatten := by
  have gives : ((Source.Expr.interpolated id (before ++ texts.map .text ++ after)).convertWith
      (Inner.at setting levels) allowed).Gives converted := Convert.Gives.of_nested ⟨place, h⟩
  obtain ⟨_, given, rfl⟩ := Convert.Gives.map gives
  obtain ⟨_, last, hfront, hlast, rfl⟩ := given.mapM.split_left
  obtain ⟨first, inside, hfirst, hinside, rfl⟩ := hfront.split_left
  obtain rfl :
    inside = (texts.map fun text => String.ofList (undoubleQuotes text.toList)).map .text := by
    rw [forall₂_map_left_iff] at hinside
    rw [map_map, ← forall₂_eq_eq_eq, forall₂_map_right_iff]
    exact hinside.flip.imp fun piece text h => (Convert.gives_pure.mp h).symm
  refine ⟨first, _, last, rfl, hfirst, hlast, fun level =>
    ⟨?_, fun width => targetText?_texts level width known⟩⟩
  simp! only [contentsLayout_append]

/-- In `$"{a}\""{{{b}"` the text between the holes is a backslash, a quote and a brace, before and
after. -/
theorem escapes_between_holes :
    let hole (name : String) : Source.Content := .hole 2 (.name ⟨3, name, []⟩) none none
    let printed : Expr := .interpolated
      [.hole (.identifier "a") none none, .text "\\\"\x7b\x7b", .hole (.identifier "b") none none]
    ((Inner.at {} 2).expr true (.interpolated 1 ([hole "a"] ++ ["\\\"\"\x7b\x7b"].map .text ++
      [hole "b"])) {}).1 =
        .ok printed ∧
      (printed.layout 0).render defaultIndentWidth = "$\"\x7ba\x7d\\\\\\\"\x7b\x7b\x7bb\x7d\"" ∧
      ∃ first inside last, printed = .interpolated (first ++ inside ++ last) ∧
        targetText? ((contentsLayout 0 inside).render defaultIndentWidth).toList =
          some ['\\', '"', '\x7b'] := by
  intro hole printed
  have run : ((Inner.at {} 2).expr true
      (.interpolated 1 ([hole "a"] ++ ["\\\"\"\x7b\x7b"].map .text ++ [hole "b"])) {}).1 =
        .ok printed := rfl
  refine ⟨run, rfl, ?_⟩
  obtain ⟨first, inside, last, whole, -, -, read⟩ :=
    interpolated_text_keeps_its_value {} 1 true {} 1 _ _ _
    [['\\', '"', '\x7b']] printed run (.cons rfl .nil)
  exact ⟨first, inside, last, whole, (read 0).2 defaultIndentWidth⟩

end Sharpen.Target
