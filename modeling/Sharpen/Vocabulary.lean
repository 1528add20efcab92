/-!
# Closed vocabularies

A finite set of words, such as the modifiers or the operators of a language, is an enumeration whose
values each have one spelling. Reading a word finds the value with that spelling.
-/

namespace Sharpen

/-- An enumeration whose values are spelled as words. -/
class Vocabulary (α : Type) where
  /-- every value, once -/
  all : List α
  /-- the word for a value -/
  spelling : α → String

namespace Vocabulary

def read? {α : Type} [Vocabulary α] (word : String) : Option α :=
  (all : List α).find? fun value => spelling value == word

end Vocabulary

end Sharpen
