/-!
# Closed vocabularies

Element types, formats, backend kinds and operation kinds are finite sets of values, each written
as one word.  A vocabulary lists its members once; reading a word back is a search in that list.
-/

namespace LayoutPlanner

/-- A finite type whose values are written as words.  Members come in declaration order. -/
class Vocabulary (α : Type) where
  members : List α
  word : α → String

namespace Vocabulary

variable {α : Type} [Vocabulary α]

/-- The member written `text`, if there is one. -/
def ofWord? (text : String) : Option α :=
  (members : List α).find? (fun a => word a == text)

theorem word_of_ofWord? {text : String} {a : α} (h : ofWord? text = some a) : word a = text := by
  have := List.find?_some h
  simpa using this

end Vocabulary

end LayoutPlanner
