/-!
# JSON values

The values a JSON text denotes, with members in the order they are written.  Natural numbers
that fit a size are kept by value; every other number is kept as it was written, since nothing here
computes with it.
-/

namespace LayoutPlanner

/-- The text of a string literal.  `none` is a literal with an unpaired surrogate escape: it is
well formed, but it denotes no text. -/
abbrev Literal := Option String

inductive Json where
  | null
  | bool (value : Bool)
  | nat (value : Nat)
  | number (lexeme : List Char)
  | text (literal : Literal)
  | list (items : List Json)
  | record (members : List (Literal × Json))

namespace Json

def ofString (text : String) : Json :=
  .text (some text)

def ofNat? : Option Nat → Json
  | none => .null
  | some value => .nat value

/-- A record whose keys are all plain text. -/
def object (members : List (String × Json)) : Json :=
  .record (members.map fun (key, value) => (some key, value))

end Json

end LayoutPlanner
