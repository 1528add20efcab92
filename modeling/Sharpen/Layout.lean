/-!
# Laid-out text

A layout is the sequence of things that are written: pieces of text, comments, line ends, and the
indentation of a line by a number of levels. How wide a level is, is decided only when a layout is
turned into text, so a layout does not depend on it.
-/

namespace Sharpen

/-- One step of writing. -/
inductive Piece where
  | text (content : String)
  | comment (content : String)
  | newline
  | indent (level : Nat)
  deriving DecidableEq, Inhabited

/-- The width of an indentation level unless another one is asked for. -/
def defaultIndentWidth : Nat := 4

/-- Steps of writing, in order. -/
abbrev Layout := List Piece

/-- The text of one piece, for indentation levels of `width` blanks. -/
def Piece.render (width : Nat) : Piece → String
  | .text content => content
  | .comment content => content
  | .newline => "\n"
  | .indent level => String.ofList (List.replicate (level * width) ' ')

namespace Layout

/-- The text of a layout, for indentation levels of `width` blanks. -/
def render (width : Nat) (layout : Layout) : String :=
  String.join (layout.map (Piece.render width))

/-- A layout of one piece of text. -/
def write (text : String) : Layout :=
  [.text text]

/-- Layouts one after the other with a text between each two. -/
def separated (separator : String) : List Layout → Layout
  | [] => []
  | [one] => one
  | one :: rest => one ++ .text separator :: separated separator rest

/-- Layouts one after the other, with commas. -/
def commaSeparated (layouts : List Layout) : Layout :=
  separated ", " layouts

/-- A layout between two texts. -/
def enclosed (before after : String) (inner : Layout) : Layout :=
  .text before :: inner ++ [.text after]

/-- Layouts on lines of their own between braces, the closing brace on a line at `level`. Each of
them brings its own indentation. -/
def block (level : Nat) (lines : List Layout) : Layout :=
  .text "\x7b" :: .newline :: lines.flatMap (· ++ [.newline]) ++ [.indent level, .text "\x7d"]

/-- A block that starts on a new line. -/
def blockBelow (level : Nat) (lines : List Layout) : Layout :=
  .newline :: .indent level :: block level lines

/-- Comments on lines of their own. -/
def commentLines (level : Nat) (comments : List String) : Layout :=
  comments.flatMap fun comment => [.indent level, .comment comment, .newline]

/-- A comment at the end of a line. -/
def endComment : Option String → Layout
  | none => []
  | some comment => [.text " ", .comment comment]

end Layout

end Sharpen
