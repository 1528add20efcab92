import Sharpen.Comment

/-!
# Texts of comments

A comment is converted by taking off the blanks before it and what opens it, and putting a mark of
the target in front of the rest (`Opening`, `convert_cases`). So a comment of the source that stands
on one line becomes a comment to the end of its line (`IsBasic.convert`), and what has been
converted once stays as it is: the main result is `converted_comments_are_stable`.
-/

namespace Sharpen.Comment

open List

variable {cs rest opening mark : List Char}

/-- The characters that end a line. -/
def breaksLine (c : Char) : Bool :=
  [0x0A, 0x0D, 0x85, 0x2028, 0x2029].contains c.toNat

theorem not_breaksLine_of_all (h : cs.all (!breaksLine ·) = true) :
    ∀ c ∈ cs, breaksLine c = false :=
  fun c hc => (Bool.not_eq_true' _).mp (all_eq_true.mp h c hc)

/-- What a comment of the source starts with: an apostrophe, or `REM` with a blank or nothing behind
it. -/
inductive Opens : List Char → Prop where
  | apostrophe (rest : List Char) : Opens (Char.ofNat 39 :: rest)
  | remark {r e m : Char} {rest : List Char} (hr : r = 'R' ∨ r = 'r') (he : e = 'E' ∨ e = 'e')
      (hm : m = 'M' ∨ m = 'm') (hrest : ∀ c ∈ rest.head?, Text.isBlank c) :
        Opens (r :: e :: m :: rest)

/-- A comment of the source, on one line. -/
structure IsBasic (text : String) : Prop where
  opens : ∃ blanks body, text.toList = blanks ++ body ∧ (∀ c ∈ blanks, Text.isBlank c) ∧ Opens body
  line : ∀ c ∈ text.toList, breaksLine c = false

/-- A comment of the target that goes on to the end of its line. -/
structure IsLineComment (text : String) : Prop where
  opens : ∃ rest, text.toList = '/' :: '/' :: rest
  line : ∀ c ∈ text.toList, breaksLine c = false

/-- A comment of the target, to the end of the line or up to another mark. -/
def IsMarked (cs : List Char) : Prop :=
  "//".toList <+: cs ∨ "/*".toList <+: cs

/-- What opens a comment that goes on with `rest`, and the mark that it becomes. A comment of the
target keeps the mark that it has, and a text that nothing opens gets one. -/
inductive Opening (rest : List Char) : (opening mark : List Char) → Prop where
  | documentation : Opening rest "'''".toList "///".toList
  | plain : Opening rest "'".toList "//".toList
  | remark {r e m : Char} (hr : r = 'R' ∨ r = 'r') (he : e = 'E' ∨ e = 'e') (hm : m = 'M' ∨ m = 'm')
      (hrest : ∀ c ∈ rest.head?, Text.isBlank c) : Opening rest [r, e, m] "//".toList
  | kept (h : IsMarked rest) : Opening rest [] []
  | absent : Opening rest [] "// ".toList

/-! ## Openings -/

theorem afterStart?_eq_some {start : List Char} (h : Text.afterStart? start cs = some rest) :
    cs = start ++ rest := by
  fun_induction Text.afterStart? start cs with
  | case1 => exact Option.some.inj h
  | case2 => cases h
  | case3 _ _ _ ih => rw [ih h, cons_append]
  | case4 => cases h

theorem prefix_of_afterStart?_isSome {start : List Char} (h : (Text.afterStart? start cs).isSome) :
    start <+: cs := by
  obtain ⟨rest, hrest⟩ := Option.isSome_iff_exists.mp h
  exact ⟨rest, (afterStart?_eq_some hrest).symm⟩

theorem eq_of_toLower_eq {c upper lower : Char} (h : c.toLower = lower)
    (hcase : upper.toNat + 32 = lower.toNat) :
    c = upper ∨ c = lower := by
  unfold Char.toLower at h
  split at h
  · next hletter =>
    subst h
    have hle : c.toNat ≤ 90 := hletter.2
    refine .inl (Char.toNat_inj.mp ?_)
    change _ = (c.toNat + 32) % 4294967296 at hcase
    omega
  · exact .inr h

theorem afterRemark?_eq_some (h : afterRemark? cs = some rest) :
    ∃ opening, cs = opening ++ rest ∧ Opening rest opening "//".toList := by
  unfold afterRemark? at h
  split at h
  · next hword =>
    match cs, hword with
    | [], hword | [_], hword | [_, _], hword => simp [remark] at hword
    | r :: e :: m :: cs, hword =>
      injection hword with hr hword
      injection hword with he hword
      injection hword with hm
      have hrest : rest = cs ∧ ∀ c ∈ cs.head?, Text.isBlank c := by
        cases cs with
        | nil => exact ⟨(Option.some.inj h).symm, nofun⟩
        | cons c cs =>
          dsimp only [List.drop] at h
          split at h
          · next hblank =>
            refine ⟨(Option.some.inj h).symm, ?_⟩
            rintro _ ⟨⟩
            exact hblank
          · cases h
      obtain ⟨rfl, hrest⟩ := hrest
      refine ⟨[r, e, m], rfl, .remark ?_ ?_ ?_ hrest⟩
      · exact eq_of_toLower_eq hr rfl
      · exact eq_of_toLower_eq he rfl
      · exact eq_of_toLower_eq hm rfl
  · cases h

/-- A comment is converted by exchanging what opens it for a mark. -/
theorem convertTrimmed_cases (cs : List Char) : ∃ opening mark rest,
    Opening rest opening mark ∧ cs = opening ++ rest ∧ convertTrimmed cs = mark ++ rest := by
  unfold convertTrimmed
  dsimp only
  split
  · next rest heq => exact ⟨_, _, rest, .documentation, afterStart?_eq_some heq, rfl⟩
  split
  · next rest heq => exact ⟨_, _, rest, .plain, afterStart?_eq_some heq, rfl⟩
  split
  · next rest heq =>
    obtain ⟨opening, hcs, hopening⟩ := afterRemark?_eq_some heq
    exact ⟨opening, _, rest, hopening, hcs, rfl⟩
  split
  · next hmarked =>
    refine ⟨[], [], cs, .kept ?_, rfl, rfl⟩
    exact (Bool.or_eq_true_iff.mp hmarked).imp prefix_of_afterStart?_isSome
      prefix_of_afterStart?_isSome
  · exact ⟨[], _, cs, .absent, rfl, rfl⟩

/-- The blanks at the start of a text. -/
def leadingBlanks (text : String) : String :=
  String.ofList (text.toList.takeWhile Text.isBlank)

theorem convert_cases (text : String) : ∃ opening mark rest, Opening rest opening mark ∧
    text = leadingBlanks text ++ String.ofList opening ++ String.ofList rest ∧
    convert text = String.ofList mark ++ String.ofList rest := by
  obtain ⟨opening, mark, rest, hopening, hbody, hconvert⟩ :=
    convertTrimmed_cases (Text.dropBlanks text.toList)
  refine ⟨opening, mark, rest, hopening, ?_, ?_⟩
  · rw [leadingBlanks, String.append_assoc, ← String.ofList_append, ← hbody, ← String.ofList_append]
    rw [Text.dropBlanks, takeWhile_append_dropWhile, String.ofList_toList]
  · rw [convert, hconvert, String.ofList_append]

namespace Opening

variable (h : Opening rest opening mark)

include h

theorem isMarked : IsMarked (mark ++ rest) := by
  cases h with
  | documentation => exact .inl ⟨'/' :: rest, rfl⟩
  | plain => exact .inl ⟨rest, rfl⟩
  | remark => exact .inl ⟨rest, rfl⟩
  | kept hmarked => exact hmarked
  | absent => exact .inl ⟨' ' :: rest, rfl⟩

theorem not_breaksLine : ∀ c ∈ mark, breaksLine c = false := by
  cases h with
  | kept => exact nofun
  | _ => exact not_breaksLine_of_all rfl

/-- Each character of an opening takes one byte. -/
theorem utf8ByteSize_eq : (String.ofList opening).utf8ByteSize = opening.length := by
  cases h with
  | remark hr he hm =>
    obtain rfl | rfl := hr <;> obtain rfl | rfl := he <;> obtain rfl | rfl := hm <;> rfl
  | _ => rfl

end Opening

/-! ## Converted comments -/

theorem Opens.dropBlanks_eq (h : Opens cs) : Text.dropBlanks cs = cs := by
  cases h with
  | apostrophe => exact dropWhile_cons_of_neg (by decide)
  | remark hr =>
    obtain rfl | rfl := hr
    · exact dropWhile_cons_of_neg (by decide)
    · exact dropWhile_cons_of_neg (by decide)

theorem Opens.not_isMarked (h : Opens cs) : ¬ IsMarked cs := by
  rintro (⟨_, rfl⟩ | ⟨_, rfl⟩) <;> cases h with | remark hr => exact absurd hr (by decide)

/-- **One comment**: what a comment of the source becomes goes on to the end of its line, and no
further. -/
theorem IsBasic.convert {text : String} (h : IsBasic text) : IsLineComment (convert text) := by
  obtain ⟨⟨_, body, htext, hblanks, hopens⟩, hline⟩ := h
  have hbody : Text.dropBlanks text.toList = body := by
    rw [htext, Text.dropBlanks, dropWhile_append_of_pos hblanks]
    exact hopens.dropBlanks_eq
  obtain ⟨_, mark, rest, hopening, rfl, hconvert⟩ := convertTrimmed_cases body
  have hchars : (Comment.convert text).toList = mark ++ rest := by
    rw [Comment.convert, hbody, String.toList_ofList, hconvert]
  rw [htext] at hline
  refine ⟨?_, ?_⟩
  · rw [hchars]
    cases hopening with
    | documentation => exact ⟨'/' :: rest, rfl⟩
    | plain => exact ⟨rest, rfl⟩
    | remark => exact ⟨rest, rfl⟩
    | kept hmarked => exact absurd hmarked hopens.not_isMarked
    | absent => exact ⟨' ' :: rest, rfl⟩
  · rw [hchars]
    refine forall_mem_append.mpr ⟨hopening.not_breaksLine, fun c hc => hline c ?_⟩
    exact mem_append_right _ (mem_append_right _ hc)

theorem IsMarked.convert_eq {text : String} (h : IsMarked text.toList) : convert text = text := by
  have hchars : convertTrimmed (Text.dropBlanks text.toList) = text.toList := by
    obtain ⟨_, hrest⟩ | ⟨_, hrest⟩ := h
    · rw [← hrest]
      simp [Text.dropBlanks, Text.isBlank, convertTrimmed, Text.afterStart?, afterRemark?, remark]
    · rw [← hrest]
      simp [Text.dropBlanks, Text.isBlank, convertTrimmed, Text.afterStart?, afterRemark?, remark]
  rw [convert, hchars, String.ofList_toList]

theorem isMarked_convert (text : String) : IsMarked (convert text).toList := by
  obtain ⟨_, _, _, hopening, -, hconvert⟩ := convert_cases text
  rw [hconvert, ← String.ofList_append, String.toList_ofList]
  exact hopening.isMarked

/-- Every text becomes a comment of the target, and a text that is one stays as it is, so a second
conversion changes nothing. What is put behind the mark is the text from a position between two
characters on, behind the blanks and the opening, whose characters take one byte each; so there is
no end of a line in it but those of the text. Hence the comments of a node can be converted again,
and there are as many of them as before, in the same order and in the same places. -/
theorem converted_comments_are_stable :
    (∀ text : String,
      ("//".toList <+: (convert text).toList ∨ "/*".toList <+: (convert text).toList) ∧
      (∃ opening mark rest, Opening rest opening mark ∧ ∃ cut : text.Pos,
        cut.offset.byteIdx = (leadingBlanks text).utf8ByteSize + opening.length ∧
        (text.sliceTo cut).copy = leadingBlanks text ++ String.ofList opening ∧
        (text.sliceFrom cut).copy = String.ofList rest ∧
        convert text = String.ofList mark ++ (text.sliceFrom cut).copy) ∧
      (convert text).toList.filter breaksLine <:+ text.toList.filter breaksLine ∧
      convert (convert text) = convert text) ∧
    ∀ trivia : Trivia,
      trivia.convert.convert = trivia.convert ∧
      trivia.convert.leading.length = trivia.leading.length ∧
      trivia.convert.trailing.isSome = trivia.trailing.isSome ∧
      trivia.convert.comments = trivia.comments.map convert ∧
      trivia.convert.isEmpty = trivia.isEmpty := by
  have hstable : ∀ text, convert (convert text) = convert text :=
    fun text => (isMarked_convert text).convert_eq
  refine ⟨fun text => ⟨isMarked_convert text, ?_, ?_, hstable text⟩, fun trivia => ?_⟩
  · obtain ⟨opening, mark, rest, hopening, htext, hconvert⟩ := convert_cases text
    have hvalid :
      String.Pos.Raw.IsValid text (leadingBlanks text ++ String.ofList opening).rawEndPos :=
      String.Pos.Raw.isValid_iff_exists_append.mpr ⟨_, _, htext, rfl⟩
    have hsplits : (text.pos _ hvalid).Splits (leadingBlanks text ++ String.ofList opening)
      (String.ofList rest) :=
      ⟨htext, rfl⟩
    refine ⟨opening, mark, rest, hopening, text.pos _ hvalid, ?_, hsplits.copy_sliceTo_eq,
      hsplits.copy_sliceFrom_eq, ?_⟩
    · rw [← hopening.utf8ByteSize_eq]
      exact String.utf8ByteSize_append
    · rw [hsplits.copy_sliceFrom_eq, hconvert]
  · obtain ⟨_, mark, rest, hopening, htext, hconvert⟩ := convert_cases text
    have hrest : rest <:+ text.toList := by
      have hchars := congrArg String.toList htext
      rw [String.toList_append, String.toList_ofList] at hchars
      exact ⟨_, hchars.symm⟩
    have hmark : mark.filter breaksLine = [] := by
      simpa [filter_eq_nil_iff] using hopening.not_breaksLine
    rw [hconvert, ← String.ofList_append, String.toList_ofList, filter_append, hmark, nil_append]
    exact hrest.filter breaksLine
  · obtain ⟨leading, trailing⟩ := trivia
    cases trailing <;> cases leading <;> simp [Trivia.convert, Trivia.comments,
      Trivia.isEmpty, hstable]

end Sharpen.Comment
