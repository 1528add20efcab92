import Mathlib.Algebra.Order.Field.Rat
import Mathlib.Data.Bool.AllAny
import Mathlib.Data.Nat.Cast.Order.Basic
import Sharpen.Convert.Numeral

/-!
# Numerals keep their value

A numeral is a start that tells the base, a body and a type mark. `Writes` says which bodies there
are and what their values are, for the source and for the target alike. So
`numerals_keep_their_value` can say of every numeral that the target gets its digits, in upper case,
with the same value, and the type mark of the target; only octal digits have none there, so their
value is written in decimal, if it has no more than sixty-four bits.
-/

namespace Sharpen.Numeral

open List

/-! ## Digits and their values -/

/-- The bases of numerals. -/
inductive Base where
  | decimal
  | hexadecimal
  | binary
  | octal
  deriving DecidableEq

namespace Base

/-- The number of digits of a base. -/
def size : Base → Nat
  | decimal => 10
  | hexadecimal => 16
  | binary => 2
  | octal => 8

/-- What a numeral of the source starts with, in upper case. -/
def start : Base → List Char
  | decimal => []
  | hexadecimal => ['&', 'H']
  | binary => ['&', 'B']
  | octal => ['&', 'O']

/-- The base in which the target has the number. -/
def target : Base → Base
  | octal => decimal
  | base => base

/-- What a numeral of the target starts with. -/
def targetStart : Base → String
  | hexadecimal => "0x"
  | binary => "0b"
  | _ => ""

/-- The type marks, and no mark at all, each with the one that the target has for it. -/
def marking (base : Base) : List (List Char × String) :=
  [([], ""), (['U', 'L'], "UL"), (['U', 'S'], ""), (['U', 'I'], "U"), (['L'], "L"),
    (['S'], ""), (['I'], ""), (['%'], ""), (['&'], "L")] ++
  if base = decimal then
    [(['D'], "M"), (['@'], "M"), (['F'], "F"), (['!'], "F"), (['R'], "D"), (['#'], "D")]
  else []

end Base

/-- The digits of all bases, in either case, with their values. -/
def digitValues : List (Char × Nat) :=
  ['0', '1', '2', '3', '4', '5', '6', '7', '8', '9', 'A', 'B', 'C', 'D', 'E', 'F'].zipIdx ++
    ['a', 'b', 'c', 'd', 'e', 'f'].zipIdx 10

/-- Digits of a base, underscores among them, with their value and their number. -/
inductive Digits (size : Nat) : List Char → Nat → Nat → Prop where
  | nil : Digits size [] 0 0
  | underscore {cs : List Char} {value count : Nat} (h : Digits size cs value count) :
      Digits size (cs ++ ['_']) value count
  | digit {cs : List Char} {value count d : Nat} {c : Char} (h : Digits size cs value count)
      (hdigit : (c, d) ∈ digitValues) (hlt : d < size) :
        Digits size (cs ++ [c]) (value * size + d) (count + 1)

/-- The characters of bodies without letters. -/
def plainChars : List Char :=
  ['0', '1', '2', '3', '4', '5', '6', '7', '8', '9', '_', '.']

/-- A body of a numeral, and its value. Only what has no letters can have an exponent. -/
inductive Writes : Base → List Char → ℚ → Prop where
  | whole {base : Base} {cs : List Char} {value count : Nat} (h : Digits base.size cs value count)
      (hcount : 0 < count) : Writes base cs value
  | fraction {cs places : List Char} {value count part more : Nat} (h : Digits 10 cs value count)
      (hplaces : Digits 10 places part more) (hmore : 0 < more) :
      Writes .decimal (cs ++ '.' :: places) (value + part / 10 ^ more)
  | scaled {cs sign digits : List Char} {letter : Char} {value : ℚ} {exponent : ℤ}
      {size count : Nat}
      (h : Writes .decimal cs value) (hcs : ∀ c ∈ cs, c ∈ plainChars)
        (hletter : letter ∈ ['E', 'e'])
      (hsign : (sign, exponent) ∈ [([], (size : ℤ)), (['+'], (size : ℤ)), (['-'], -(size : ℤ))])
      (hdigits : Digits 10 digits size count) (hcount : 0 < count) :
      Writes .decimal (cs ++ letter :: (sign ++ digits)) (value * 10 ^ exponent)

/-- The characters of bodies in upper case. -/
def bodyChars : List Char :=
  plainChars ++ ['A', 'B', 'C', 'D', 'E', 'F', '+', '-']

variable {base : Base} {size total count : Nat} {cs : List Char} {value : ℚ}

/-- In upper case a digit has the same value. -/
theorem toUpper_mem_digitValues :
    ∀ digit ∈ digitValues, (digit.1.toUpper, digit.2) ∈ digitValues := by decide

/-- Digits keep their value in upper case. -/
theorem Digits.toUpper (h : Digits size cs total count) :
    Digits size (cs.map Char.toUpper) total count := by
  induction h with
  | nil => exact .nil
  | underscore _ ih => rw [map_append]; exact ih.underscore
  | digit _ hdigit hlt ih => rw [map_append]; exact ih.digit (toUpper_mem_digitValues _ hdigit) hlt

/-- A sign has no case, and is made of characters of bodies. -/
theorem sign_cases {sign : List Char} {exponent size : ℤ}
    (h : (sign, exponent) ∈ [([], size), (['+'], size), (['-'], -size)]) :
    sign.map Char.toUpper = sign ∧ ∀ c ∈ sign, c.toUpper ∈ bodyChars := by
  simp only [mem_cons, Prod.mk.injEq, not_mem_nil, or_false] at h
  rcases h with ⟨rfl, -⟩ | ⟨rfl, -⟩ | ⟨rfl, -⟩ <;>
    exact ⟨by decide, all_iff_forall_prop.mp (by decide)⟩

/-- A body keeps its value in upper case. -/
theorem Writes.toUpper (h : Writes base cs value) :
    Writes base (cs.map Char.toUpper) value := by
  have hplain : ∀ c ∈ plainChars, c.toUpper ∈ plainChars := all_iff_forall_prop.mp (by decide)
  have hletters : ∀ letter ∈ ['E', 'e'], letter.toUpper ∈ ['E', 'e'] :=
    all_iff_forall_prop.mp (by decide)
  induction h with
  | whole h hcount => exact .whole h.toUpper hcount
  | fraction h hplaces hmore =>
    rw [map_append]
    exact .fraction h.toUpper hplaces.toUpper hmore
  | scaled _ hcs hletter hsign hdigits hcount ih =>
    rw [map_append, map_cons, map_append, (sign_cases hsign).1]
    exact .scaled ih (forall_mem_map.mpr fun c hc => hplain c (hcs c hc)) (hletters _ hletter) hsign
      hdigits.toUpper hcount

/-- Digits are characters of bodies. -/
theorem Digits.mem_bodyChars (h : Digits size cs total count) :
    ∀ c ∈ cs, c.toUpper ∈ bodyChars := by
  have hdigits : ∀ digit ∈ digitValues, digit.1.toUpper ∈ bodyChars := by decide
  induction h with
  | nil => exact forall_mem_nil _
  | underscore _ ih => exact forall_mem_append.mpr ⟨ih, forall_mem_singleton.mpr (by decide)⟩
  | digit _ hdigit _ ih => exact forall_mem_append.mpr ⟨ih, by simpa using hdigits _ hdigit⟩

/-- A body is made of the characters of bodies. -/
theorem Writes.mem_bodyChars (h : Writes base cs value) :
    ∀ c ∈ cs, c.toUpper ∈ bodyChars := by
  have hletters : ∀ letter ∈ ['E', 'e'], letter.toUpper ∈ bodyChars :=
    all_iff_forall_prop.mp (by decide)
  induction h with
  | whole h => exact h.mem_bodyChars
  | fraction h hplaces =>
    exact forall_mem_append.mpr ⟨h.mem_bodyChars,
      forall_mem_cons.mpr ⟨by decide, hplaces.mem_bodyChars⟩⟩
  | scaled _ _ hletter hsign hdigits _ ih =>
    refine forall_mem_append.mpr ⟨ih, forall_mem_cons.mpr ⟨hletters _ hletter, ?_⟩⟩
    exact forall_mem_append.mpr ⟨(sign_cases hsign).2, hdigits.mem_bodyChars⟩

/-- What the body of a numeral ends in. -/
def IsLast (size : Nat) (c : Char) : Prop :=
  c = '_' ∨ ∃ d < size, (c, d) ∈ digitValues

/-- Digits end in a digit or an underscore. -/
theorem Digits.exists_last (h : Digits size cs total count) (hcount : 0 < count) :
    ∃ init last, cs = init ++ [last] ∧ IsLast size last := by
  cases h with
  | nil => omega
  | underscore => exact ⟨_, _, rfl, .inl rfl⟩
  | digit _ hdigit hlt => exact ⟨_, _, rfl, .inr ⟨_, hlt, hdigit⟩⟩

/-- Every body ends in a digit or an underscore. -/
theorem Writes.exists_last (h : Writes base cs value) :
    ∃ init last, cs = init ++ [last] ∧ IsLast base.size last := by
  cases h with
  | whole h hcount => exact h.exists_last hcount
  | @fraction cs _ _ _ _ _ _ hplaces hmore =>
    obtain ⟨init, last, rfl, hlast⟩ := hplaces.exists_last hmore
    exact ⟨cs ++ '.' :: init, last, by simp, hlast⟩
  | @scaled cs sign _ letter _ _ _ _ _ _ _ _ hdigits hcount =>
    obtain ⟨init, last, rfl, hlast⟩ := hdigits.exists_last hcount
    exact ⟨cs ++ letter :: (sign ++ init), last, by simp, hlast⟩

/-! ## Octal and decimal numerals -/

/-- What an octal digit is taken for. -/
theorem octal_digit : ∀ digit ∈ digitValues, digit.2 < 8 → (digit.1 != '_') = true ∧ digit.1 ≠ '+' ∧
    ('0' ≤ digit.1 ∧ digit.1 ≤ '7') ∧ digit.1.toNat - '0'.toNat = digit.2 := by
  decide

/-- Reading octal digits fails when the value gets too large, and then it would have stayed so. -/
theorem Digits.octal?_filter (h : Digits 8 cs total count) :
    (cs.filter (· != '_')).length = count ∧ (∀ c ∈ cs, c ≠ '+') ∧
      (cs.filter (· != '_')).foldlM (fun value digit =>
        if '0' ≤ digit ∧ digit ≤ '7' then
          let next := value * 8 + (digit.toNat - '0'.toNat)
          if next < UInt64.size then some next else none
        else none) 0 = if total < UInt64.size then some total else none := by
  induction h with
  | nil => exact ⟨rfl, forall_mem_nil _, rfl⟩
  | underscore _ ih => simpa [or_imp, forall_and] using ih
  | @digit cs value _ _ c _ hdigit hlt ih =>
    obtain ⟨_, hplus, hrange, hvalue⟩ := octal_digit _ hdigit hlt
    obtain ⟨hlength, hchars, hfold⟩ := ih
    have hfilter : (cs ++ [c]).filter (· != '_') = cs.filter (· != '_') ++ [c] := by simp_all
    refine ⟨by rw [hfilter, length_append, hlength]; rfl, ?_, ?_⟩
    · exact forall_mem_append.mpr ⟨hchars, by simpa using hplus⟩
    · rw [hfilter, foldlM_append, hfold]
      dsimp only at hrange hvalue
      by_cases hsmall : value < UInt64.size
      · simp [hsmall, hrange, ← hvalue]
      · rw [if_neg hsmall, if_neg (by omega)]
        rfl

/-- The value of octal digits is read, if it has no more than sixty-four bits. -/
theorem Digits.octalValue?_eq (h : Digits 8 cs total count) (hcount : 0 < count) :
    octalValue? cs = if total < UInt64.size then some total else none := by
  obtain ⟨hlength, hchars, hfold⟩ := h.octal?_filter
  unfold octalValue?
  split
  · next heq => exact absurd rfl (hchars '+' (mem_filter.mp (heq ▸ mem_cons_self)).1)
  · generalize cs.filter (· != '_') = digits at *
    cases digits with
    | nil => simp at hlength; omega
    | cons c rest => exact hfold

/-- An octal body is read in upper case. -/
theorem Writes.octalValue?_eq (h : Writes .octal cs value) :
    ∃ number : Nat, number = value ∧
      octalValue? (cs.map Char.toUpper) = if number < UInt64.size then some number else none := by
  cases h with
  | whole h hcount => exact ⟨_, rfl, h.toUpper.octalValue?_eq hcount⟩

/-- The decimal numeral of a number has its value. -/
theorem digits_toDigits (value : Nat) :
    ∃ count, Digits 10 (Nat.toDigits 10 value) value count ∧ 0 < count := by
  have hdigits : ∀ d < 10, (d.digitChar, d) ∈ digitValues := by decide
  induction value using Nat.strongRecOn with
  | ind value ih =>
    rw [Nat.toDigits_eq_if (by omega)]
    split
    case isTrue hlt =>
      refine ⟨1, ?_, by omega⟩
      simpa using Digits.nil.digit (hdigits value hlt) hlt
    case isFalse hge =>
      obtain ⟨count, h, hcount⟩ := ih (value / 10) (by omega)
      refine ⟨count + 1, ?_, by omega⟩
      have hlt : value % 10 < 10 := by omega
      simpa [Nat.div_add_mod'] using h.digit (hdigits _ hlt) hlt

/-! ## Where the mark starts -/

/-- A start ends before a character that it does not have. -/
theorem afterStart?_append {start rest : List Char} {last : Char} (h : last ∉ start) :
    Text.afterStart? start (cs ++ last :: rest) =
      (Text.afterStart? start cs).map (· ++ last :: rest) := by
  induction start generalizing cs with
  | nil => rfl
  | cons s start ih =>
    have hne : s ≠ last := fun heq => h (heq ▸ mem_cons_self)
    cases cs with
    | nil => simp [Text.afterStart?, hne]
    | cons c cs =>
      simp only [Text.afterStart?, cons_append, ih fun hmem => h (mem_cons_of_mem _ hmem)]
      split <;> rfl

/-- A mark begins behind a character that it does not have. -/
theorem beforeEnd?_append {mark init tail : List Char} {last : Char} (h : last ∉ mark) :
    Text.beforeEnd? mark (init ++ last :: tail) =
      (Text.beforeEnd? mark tail).map (init ++ last :: ·) := by
  simp [Text.beforeEnd?, afterStart?_append, h, Function.comp_def]

/-- No mark reaches into the digits, so which one there is can be seen from the characters behind
them. -/
theorem splitMark_append {marks : List (List Char)} {init tail : List Char} {last : Char}
    (hlast : ∀ mark ∈ marks, last ∉ mark) :
    splitMark marks (init ++ last :: tail) =
      let split :=
        (marks.findSome? fun mark => (Text.beforeEnd? mark tail).map (·, mark)).getD (tail, [])
      (init ++ last :: split.1, split.2) := by
  unfold splitMark
  induction marks with
  | nil => rfl
  | cons mark rest ih =>
    rw [forall_mem_cons] at hlast
    rw [List.findSome?_cons, List.findSome?_cons, beforeEnd?_append hlast.1]
    cases Text.beforeEnd? mark tail with
    | none => exact ih hlast.2
    | some before => cases init <;> rfl

/-! ## Blanks -/

/-- Blanks have no case. -/
theorem toUpper_of_isBlank {c : Char} (h : Text.isBlank c = true) : c.toUpper = c := by
  unfold Char.toUpper
  rw [dif_neg]
  rintro ⟨hleast, hmost⟩
  have hleast : 97 ≤ c.toNat := hleast
  have hmost : c.toNat ≤ 122 := hmost
  simp [Text.isBlank] at h
  omega

/-- What is no blank in upper case is none at all. -/
theorem not_isBlank_of_toUpper (h : ∀ c ∈ cs.map Char.toUpper, Text.isBlank c = false) :
    ∀ c ∈ cs, Text.isBlank c = false := by
  refine fun c hc => Bool.eq_false_iff.mpr fun hblank => ?_
  have hupper := h _ (mem_map_of_mem hc)
  rw [toUpper_of_isBlank hblank, hblank] at hupper
  cases hupper

/-- Blanks are dropped up to the first other character. -/
theorem dropBlanks_append {blanks : List Char} {c : Char}
    (hblanks : ∀ c ∈ blanks, Text.isBlank c = true) (hc : Text.isBlank c = false) :
    Text.dropBlanks (blanks ++ c :: cs) = c :: cs := by
  rw [Text.dropBlanks, dropWhile_append_of_pos hblanks, dropWhile_cons_of_neg (by simp [hc])]

/-- The blanks around a numeral, its letters in upper case. -/
theorem upper_trim {blanks more : List Char} (hblanks : ∀ c ∈ blanks, Text.isBlank c = true)
    (hmore : ∀ c ∈ more, Text.isBlank c = true) (hcs : ∀ c ∈ cs, Text.isBlank c = false)
    (hne : cs ≠ []) :
    (Text.upper (Text.trim (String.ofList (blanks ++ cs ++ more)))).toList =
      cs.map Char.toUpper := by
  have hfront : Text.dropBlanks (blanks ++ cs ++ more) = cs ++ more := by
    cases cs with
    | nil => exact absurd rfl hne
    | cons c rest => simpa using dropBlanks_append hblanks (hcs c mem_cons_self)
  have hback : Text.dropBlanks (more.reverse ++ cs.reverse) = cs.reverse := by
    cases hreverse : cs.reverse with
    | nil => exact absurd (reverse_eq_nil_iff.mp hreverse) hne
    | cons c rest =>
      refine dropBlanks_append (by simpa using hmore) (hcs c ?_)
      rw [← mem_reverse, hreverse]
      exact mem_cons_self
  simp only [Text.upper, Text.trim, String.toList_ofList, hfront, reverse_append, hback,
    reverse_reverse]

/-! ## Conversion -/

/-- The marks that are looked for. -/
def Base.marks : Base → List (List Char)
  | .decimal => decimalMarks
  | _ => wholeMarks

/-- What a body ends in stands in no mark of its base. -/
theorem IsLast.notMem_marks {c : Char} (h : IsLast base.size c) :
    ∀ mark ∈ base.marks, c ∉ mark := by
  rcases h with rfl | ⟨d, hlt, hdigit⟩
  · cases base <;> decide
  · have hdigits : ∀ base : Base, ∀ digit ∈ digitValues, digit.2 < base.size → ∀ mark ∈ base.marks,
      digit.1 ∉ mark := by
      intro base
      cases base <;> decide
    exact hdigits base _ hdigit hlt

/-- A body is split from its mark. -/
theorem splitMark_eq {body mark : List Char} {tail : String} (h : Writes base body value) (hmark : (mark, tail) ∈ base.marking) :
    splitMark base.marks (body ++ mark) = (body, mark) := by
  obtain ⟨_, _, rfl, hlast⟩ := h.exists_last
  have hmarks : ∀ base : Base, ∀ mark ∈ base.marking, (base.marks.findSome? fun other =>
      (Text.beforeEnd? other mark.1).map (·, other)).getD (mark.1, []) = ([], mark.1) := by
    intro base
    cases base <;> decide
  rw [append_assoc, singleton_append, splitMark_append hlast.notMem_marks, hmarks base _ hmark]

/-- Every mark gets the one that the target has for it. -/
theorem targetMark_eq : ∀ base : Base, ∀ mark ∈ base.marking, targetMark mark.1 = mark.2 := by
  intro base
  cases base <;> decide

/-- What comes of digits and a mark, by the base. -/
theorem convert_eq {text : String} {body mark : List Char}
    (hupper : (Text.upper (Text.trim text)).toList = base.start ++ (body ++ mark))
    (hsplit : splitMark base.marks (body ++ mark) = (body, mark))
    (hbody : ∀ rest, body ++ mark ≠ '&' :: rest) :
    convert text = if base = .octal then
        match octalValue? body with
        | some value => .ok (toString value ++ targetMark mark)
        | none => .error (.unsupported "NumericLiteral" ("malformed octal literal " ++ text))
      else .ok (base.targetStart ++ String.ofList body ++ targetMark mark) := by
  unfold convert
  rw [hupper]
  cases base with
  | decimal =>
    change splitMark decimalMarks _ = _ at hsplit
    have hplain : ∀ letter, Text.afterStart? ['&', letter] (body ++ mark) = none := by
      intro letter
      cases hcs : body ++ mark with
      | nil => rfl
      | cons c rest => exact if_neg fun heq : '&' = c => hbody rest (heq ▸ hcs)
    simp [Base.start, Base.targetStart, hplain, hsplit]
  | octal =>
    change splitMark wholeMarks _ = _ at hsplit
    cases hvalue : octalValue? body <;> simp [Base.start, Text.afterStart?, hsplit, hvalue]
  | _ =>
    change splitMark wholeMarks _ = _ at hsplit
    simp [Base.start, Base.targetStart, Text.afterStart?, hsplit]

/-- No body is empty. -/
theorem Writes.exists_cons (h : Writes base cs value) : ∃ c rest, cs = c :: rest := by
  obtain ⟨_, _, rfl, -⟩ := h.exists_last
  exact ne_nil_iff_exists_cons.mp (by simp)

/-- There is no blank in a start. -/
theorem not_isBlank_start : ∀ base : Base, ∀ c ∈ base.start, Text.isBlank c = false := by
  intro base
  cases base <;> exact all_iff_forall_prop.mp (by decide)

/-- There is no blank in a mark. -/
theorem not_isBlank_mark :
    ∀ base : Base, ∀ mark ∈ base.marking, ∀ c ∈ mark.1, Text.isBlank c = false := by
  have hall : ∀ base : Base, ∀ mark ∈ base.marking, mark.1.all fun c => Text.isBlank c = false := by
    intro base
    cases base <;> decide
  exact fun base mark hmark => all_iff_forall_prop.mp (hall base mark hmark)

/-- There is no blank in a body. -/
theorem not_isBlank_body :
    ∀ c ∈ bodyChars, Text.isBlank c = false := all_iff_forall_prop.mp (by decide)

/-- Whatever letter case its start, digits and mark are written in, and whatever blanks stand around
it, a numeral becomes the start of its base in the target, digits that write the same value, and the
mark of the target. The digits are kept, in upper case; octal ones become the decimal numeral of
their value, and fail above its bound. -/
theorem numerals_keep_their_value {base : Base} {blanks start body mark more : List Char}
    {tail : String} {value : ℚ} (hblanks : ∀ c ∈ blanks ++ more, Text.isBlank c = true)
    (hstart : start.map Char.toUpper = base.start) (hbody : Writes base body value)
    (hmark : (mark.map Char.toUpper, tail) ∈ base.marking) :
    let text := String.ofList (blanks ++ (start ++ body ++ mark) ++ more)
    if base = .octal ∧ 2 ^ 64 ≤ value then
      convert text = .error (.unsupported "NumericLiteral" ("malformed octal literal " ++ text))
    else ∃ digits, convert text = .ok (base.targetStart ++ String.ofList digits ++ tail) ∧
      Writes base.target digits value ∧
      if base = .octal then ∃ number : Nat, number = value ∧ String.ofList digits = toString number
      else digits = body.map Char.toUpper := by
  intro text
  obtain ⟨c, rest, rfl⟩ : ∃ c rest, body = c :: rest := hbody.exists_cons
  have hupper : (Text.upper (Text.trim text)).toList =
      base.start ++ ((c :: rest).map Char.toUpper ++ mark.map Char.toUpper) := by
    rw [forall_mem_append] at hblanks
    rw [upper_trim hblanks.1 hblanks.2 (not_isBlank_of_toUpper ?_) (by simp)]
    · simp [hstart]
    · rw [map_append, map_append, hstart]
      simp only [forall_mem_append]
      refine ⟨⟨not_isBlank_start base, ?_⟩, not_isBlank_mark base _ hmark⟩
      exact forall_mem_map.mpr fun c hc => not_isBlank_body _ (hbody.mem_bodyChars c hc)
  have hhead : ∀ others, (c :: rest).map Char.toUpper ++ mark.map Char.toUpper ≠ '&' :: others := by
    intro others heq
    have hc : c.toUpper ∈ bodyChars := hbody.mem_bodyChars c mem_cons_self
    rw [show c.toUpper = '&' from (List.cons.inj heq).1] at hc
    exact absurd hc (by decide)
  have hconvert := convert_eq hupper (splitMark_eq hbody.toUpper hmark) hhead
  rw [targetMark_eq base _ hmark] at hconvert
  by_cases hoctal : base = .octal
  · subst hoctal
    obtain ⟨number, rfl, hvalue⟩ := hbody.octalValue?_eq
    have hbound : (2 ^ 64 ≤ (number : ℚ)) ↔ ¬ number < UInt64.size := by
      rw [not_lt]
      exact_mod_cast Iff.rfl
    rw [hvalue, if_pos rfl] at hconvert
    by_cases hsmall : number < UInt64.size
    · obtain ⟨_, hdigits, hcount⟩ := digits_toDigits number
      rw [if_neg fun h => hbound.mp h.2 hsmall]
      rw [if_pos hsmall] at hconvert
      have htext : String.ofList (Nat.toDigits 10 number) = toString number := by
        rw [Nat.toString_eq_repr, ← Nat.toList_repr, String.ofList_toList]
      refine ⟨Nat.toDigits 10 number, ?_, .whole hdigits hcount, ?_⟩
      · rw [hconvert, htext]
        rfl
      · rw [if_pos rfl]
        exact ⟨number, rfl, htext⟩
    · rw [if_pos ⟨rfl, hbound.mpr hsmall⟩, hconvert, if_neg hsmall]
  · rw [if_neg hoctal] at hconvert
    rw [if_neg fun h => hoctal h.1]
    refine ⟨_, hconvert, ?_, by rw [if_neg hoctal]⟩
    cases base with
    | octal => exact absurd rfl hoctal
    | _ => exact hbody.toUpper

/-- A decimal numeral with an underscore, a fraction, an exponent and a type mark, between blanks.
-/
theorem decimal_numeral_between_blanks : convert " 1_0.5e-2d\t" = .ok "1_0.5E-2M" ∧
    Writes .decimal ['1', '_', '0', '.', '5', 'E', '-', '2'] ((10 + 5 / 10) * 10 ^ (-2 : ℤ)) := by
  have hone : Digits 10 ['1'] 1 1 :=
    Digits.nil.digit (show ('1', 1) ∈ digitValues by decide) (by decide)
  have hwhole : Digits 10 ['1', '_', '0'] 10 2 :=
    hone.underscore.digit (show ('0', 0) ∈ digitValues by decide) (by decide)
  have hplaces : Digits 10 ['5'] 5 1 :=
    Digits.nil.digit (show ('5', 5) ∈ digitValues by decide) (by decide)
  have hexponent : Digits 10 ['2'] 2 1 :=
    Digits.nil.digit (show ('2', 2) ∈ digitValues by decide) (by decide)
  have hbody : Writes .decimal ['1', '_', '0', '.', '5', 'e', '-', '2']
    ((10 + 5 / 10) * 10 ^ (-2 : ℤ)) := by
    simpa using Writes.scaled (.fraction hwhole hplaces (by decide))
      (all_iff_forall_prop.mp (by decide)) (show 'e' ∈ _ by decide)
      (show (['-'], -2) ∈ _ by decide) hexponent (by decide)
  simpa [Base.target, Base.targetStart] using
    @numerals_keep_their_value .decimal [' '] [] _ ['d'] ['\t'] "M" _
      (all_iff_forall_prop.mp (by decide)) rfl hbody
      (by decide)

end Sharpen.Numeral
