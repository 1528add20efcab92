import Sharpen.Layout

/-!
# The grammar of printed text

What is printed stands somewhere in a line: at its start, in the middle, or behind a comment, where
the line can only end or go on with another comment. `Fits P spot layout` says that a layout,
written from a spot on,

* indents at the start of a line only;
* has comments only with the property `P`, and behind each of them on its line nothing but other
  comments, each behind a blank;
* does not stop behind a comment.

The rules below drop from a layout what can stand where it stands: a piece of a line (`Inline`), or
whole lines (`Lines`). They are rules for `simp`, which reads a layout from left to right with them.
-/

namespace Sharpen.Layout

open List

/-- The first piece, then the others. -/
theorem render_cons (piece : Piece) (rest : Layout) (width : Nat) :
    render width (piece :: rest) = piece.render width ++ rest.render width := by
  rw [render, map_cons, String.join_cons, render]

/-- Layouts one after the other are texts one after the other. -/
theorem render_append (first second : Layout) (width : Nat) :
    (first ++ second).render width = first.render width ++ second.render width := by
  rw [render, map_append, String.join_append, render, render]

/-- Where writing stands in a line. -/
inductive Spot where
  | start
  /-- somewhere in the line, or behind its indentation -/
  | middle
  /-- behind a comment -/
  | remark
  /-- behind the blank that separates a comment from the next one -/
  | gap
  deriving DecidableEq

/-- A layout can be written from a spot on. -/
def Fits (P : String → Prop) (spot : Spot) : Layout → Prop
  | [] => spot = .start ∨ spot = .middle
  | .text text :: rest =>
    if spot = .remark then text = " " ∧ Fits P .gap rest else spot ≠ .gap ∧ Fits P .middle rest
  | .comment text :: rest => spot ≠ .remark ∧ P text ∧ Fits P .remark rest
  | .newline :: rest => spot ≠ .gap ∧ Fits P .start rest
  | .indent _ :: rest => spot = .start ∧ Fits P .middle rest

/-- What may follow a comment as well as anything else in a line: the end of the line, or another
comment behind a blank. -/
def Closes : Layout → Prop
  | .newline :: _ => True
  | .text text :: .comment _ :: _ => text = " "
  | _ => False

section Rules

variable {P : String → Prop} {text : String} {rest layout : Layout} {layouts : List Layout}
  {level : Nat}

/-! ## Single pieces -/

/-- A text is followed in the middle of the line. -/
@[simp] theorem fits_text : Fits P .middle (.text text :: rest) ↔ Fits P .middle rest := by
  simp [Fits]

@[simp] theorem fits_newline : Fits P .middle (.newline :: rest) ↔ Fits P .start rest := by
  simp [Fits]

/-- A line may end behind a comment. -/
@[simp] theorem fits_newline_remark :
    Fits P .remark (.newline :: rest) ↔ Fits P .start rest := by
  simp [Fits]

/-- An empty line. -/
@[simp] theorem fits_newline_start : Fits P .start (.newline :: rest) ↔ Fits P .start rest := by
  simp [Fits]

/-- Indentation leads into the line. -/
@[simp] theorem fits_indent : Fits P .start (.indent level :: rest) ↔ Fits P .middle rest := by
  simp [Fits]

/-- A layout that is chosen fits if both choices do. -/
@[simp] theorem fits_ite {spot : Spot} {c : Prop} [Decidable c] {first second : Layout} :
    Fits P spot ((if c then first else second) ++ rest) ↔
      if c then Fits P spot (first ++ rest) else Fits P spot (second ++ rest) := by
  split <;> rfl

@[simp] theorem closes_newline : Closes (.newline :: rest) :=
  trivial

/-- What closes a line fits behind a comment if it fits in the line. -/
theorem Closes.fits_middle (h : Closes rest) : Fits P .middle rest ↔ Fits P .remark rest := by
  unfold Closes at h
  split at h
  · simp
  · simp [Fits, h]
  · exact h.elim

/-! ## Parts of a line -/

/-- A layout inside a line, with more of the line to follow. It may span lines of its own. -/
def Inline (P : String → Prop) (layout : Layout) : Prop :=
  ∀ rest, Fits P .middle (layout ++ rest) ↔ Fits P .middle rest

/-- Layouts that all stand inside a line. -/
def InlineAll (P : String → Prop) (layouts : List Layout) : Prop :=
  ∀ layout ∈ layouts, Inline P layout

/-- Layouts that are there or not, and stand inside a line. -/
def InlineSome (P : String → Prop) (layouts : List (Option Layout)) : Prop :=
  ∀ layout, some layout ∈ layouts → Inline P layout

@[simp] theorem inlineAll_nil : InlineAll P [] :=
  forall_mem_nil _

/-- The first layout, and the others. -/
@[simp] theorem inlineAll_cons :
    InlineAll P (layout :: layouts) ↔ Inline P layout ∧ InlineAll P layouts :=
  forall_mem_cons

@[simp] theorem inlineSome_nil : InlineSome P [] :=
  nofun

/-- A layout that is there counts. -/
@[simp] theorem inlineSome_some {others : List (Option Layout)} :
    InlineSome P (some layout :: others) ↔ Inline P layout ∧ InlineSome P others := by
  simp [InlineSome]

/-- A layout that is not there does not count. -/
@[simp] theorem inlineSome_none {others : List (Option Layout)} :
    InlineSome P (none :: others) ↔ InlineSome P others := by
  simp [InlineSome]

/-- What stands inside a line can be dropped. -/
@[simp] theorem fits_inline (h : Inline P layout) :
    Fits P .middle (layout ++ rest) ↔ Fits P .middle rest :=
  h rest

/-- Parts of a line with separators between them. -/
@[simp] theorem fits_separated {separator : String} (h : InlineAll P layouts) :
    Fits P .middle (separated separator layouts ++ rest) ↔ Fits P .middle rest := by
  fun_induction separated separator layouts with
  | case1 => rfl
  | case2 one => simp_all
  | case3 one others _ ih => simp_all

/-! ## Lines -/

/-- A layout on a line of its own, or on several: it may end with a comment. -/
def Line (P : String → Prop) (layout : Layout) : Prop :=
  ∀ rest, Closes rest → (Fits P .start (layout ++ rest) ↔ Fits P .remark rest)

/-- Layouts on lines of their own. -/
def Lines (P : String → Prop) (layouts : List Layout) : Prop :=
  ∀ layout ∈ layouts, Line P layout

@[simp] theorem lines_nil : Lines P [] :=
  forall_mem_nil _

@[simp] theorem lines_cons : Lines P (layout :: layouts) ↔ Line P layout ∧ Lines P layouts :=
  forall_mem_cons

/-- Lines, and other lines behind them. -/
@[simp] theorem lines_append {others : List Layout} :
    Lines P (layouts ++ others) ↔ Lines P layouts ∧ Lines P others :=
  forall_mem_append

/-- A line with its end. -/
theorem Line.fits (h : Line P layout) :
    Fits P .start (layout ++ .newline :: rest) ↔ Fits P .start rest := by
  rw [h _ closes_newline, fits_newline_remark]

/-- Lines, each with its end. -/
theorem fits_lines (h : Lines P layouts) :
    Fits P .start (layouts.flatMap (· ++ [.newline]) ++ rest) ↔ Fits P .start rest := by
  induction layouts with
  | nil => rfl
  | cons line others ih =>
    obtain ⟨hline, hothers⟩ := lines_cons.mp h
    rw [flatMap_cons, append_assoc, append_assoc, singleton_append, hline.fits,
      ih hothers]

/-- A block stands inside a line, whatever its lines are. -/
@[simp] theorem fits_block (h : Lines P layouts) :
    Fits P .middle (block level layouts ++ rest) ↔ Fits P .middle rest := by
  simp [Layout.block, fits_lines h]

/-- So does a block that opens on the next line. -/
@[simp] theorem fits_blockBelow (h : Lines P layouts) :
    Fits P .middle (blockBelow level layouts ++ rest) ↔ Fits P .middle rest := by
  simp [Layout.blockBelow, h]

/-! ## Comments -/

/-- Comments on lines of their own. -/
@[simp] theorem fits_commentLines {comments : List String} (h : ∀ text ∈ comments, P text) :
    Fits P .start (commentLines level comments ++ rest) ↔ Fits P .start rest := by
  induction comments with
  | nil => rfl
  | cons comment others ih =>
    obtain ⟨hcomment, hothers⟩ := forall_mem_cons.mp h
    simpa [commentLines, Fits, hcomment] using ih hothers

/-- A comment at the end of a line closes it. -/
@[simp] theorem closes_endComment (h : Closes rest) (trailing : Option String) :
    Closes (endComment trailing ++ rest) := by
  cases trailing with
  | none => exact h
  | some text => exact rfl

/-- A comment at the end of a line has the property of all comments. -/
@[simp] theorem fits_endComment {trailing : Option String} (h : ∀ text ∈ trailing.toList, P text) :
    Fits P .remark (endComment trailing ++ rest) ↔ Fits P .remark rest := by
  cases trailing with
  | none => rfl
  | some text => simp [endComment, Fits, h text (mem_singleton_self _)]

/-- A comment that a layout is split at. -/
theorem Fits.at_comment {spot : Spot} {before after : Layout}
    (h : Fits P spot (before ++ .comment text :: after)) : P text ∧ Fits P .remark after := by
  induction before generalizing spot with
  | nil => exact h.2
  | cons piece others ih =>
    cases piece with
    | text content =>
      rw [cons_append, Fits] at h
      split at h
      · exact ih h.2
      · exact ih h.2
    | comment content => exact ih h.2.2
    | newline | indent => exact ih h.2

/-- The text behind a comment: other comments, each behind a blank, and the end of the line. -/
theorem Fits.exists_text (width : Nat) : (layout : Layout) → Fits P .remark layout →
    ∃ others : List String, ∃ rest, (∀ other ∈ others, P other) ∧
      layout.render width = String.join (others.map (" " ++ ·)) ++ "\n" ++ rest
  | .newline :: rest, _ =>
    ⟨[], render width rest, forall_mem_nil _, render_cons .newline rest width⟩
  | .text blank :: .comment text :: rest, h => by
    obtain ⟨rfl, -, htext, hrest⟩ := h
    obtain ⟨others, behind, hothers, heq⟩ := Fits.exists_text width rest hrest
    refine ⟨text :: others, behind, forall_mem_cons.mpr ⟨htext, hothers⟩, ?_⟩
    rw [render_cons, render_cons, heq, map_cons, String.join_cons]
    simp only [Piece.render, String.append_assoc]
  | [], h => by simp [Fits] at h
  | .comment _ :: _, h => absurd rfl h.1
  | .indent _ :: _, h => by simp [Fits] at h
  | [.text _], h => by simp [Fits] at h
  | .text _ :: .text _ :: _, h => by simp [Fits] at h
  | .text _ :: .newline :: _, h => by simp [Fits] at h
  | .text _ :: .indent _ :: _, h => by simp [Fits] at h

end Rules

end Sharpen.Layout
