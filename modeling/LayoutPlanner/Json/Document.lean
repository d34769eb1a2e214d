import LayoutPlanner.Json.Parser
import LayoutPlanner.Json.Printer
import LayoutPlanner.Tensor.Size
import LayoutPlanner.Vocabulary

/-!
# Documents

How typed values are written as JSON and read back.

* A word of a vocabulary is a string; it may also be read from a record that maps it to `null`.
* A structure is a record.  It may also be read from the list of its fields in order, of which
  the last ones may be left out as far as they have a default.
* Reading a record ignores members it does not know and refuses a known member that comes twice.
-/

namespace LayoutPlanner

/-- Types with a written form. -/
class Document (α : Type) where
  toJson : α → Json
  ofJson? : Json → Option α

namespace Document

variable {α : Type} [Document α]

/-- The written form, without blanks. -/
def write (value : α) : String :=
  (toJson value).compact

def read? (text : String) : Option α :=
  (Json.parse? text).bind ofJson?

end Document

namespace Json

def asBool? : Json → Option Bool
  | .bool value => some value
  | _ => none

/-- A number below the bound.  Only plain natural numbers count. -/
def asNatBelow? (bound : Nat) : Json → Option Nat
  | .nat value => if value < bound then some value else none
  | _ => none

def asSize? : Json → Option Nat :=
  asNatBelow? Size.limit

def asText? : Json → Option String
  | .text literal => literal
  | _ => none

def asListOf? {α : Type} (item? : Json → Option α) : Json → Option (List α)
  | .list items => items.mapM item?
  | _ => none

/-- The word a value spells: the string itself, or the one key of a record that holds `null`. -/
def spelled? : Json → Option String
  | .text literal => literal
  | .record [(key, .null)] => key
  | _ => none

/-- The values of a known field.  A field may be absent but not repeated. -/
def field? (members : List (Literal × Json)) (name : String) : Option (Option Json) :=
  match members.filter (fun (key, _) => key == some name) with
  | [] => some none
  | [(_, value)] => some (some value)
  | _ => none

/-- The fields of a structure, in the given order, each present or absent. -/
def fields? (names : List String) : Json → Option (List (Option Json))
  | .record members =>
    if members.all (fun (key, _) => key.isSome) then names.mapM (field? members) else none
  | .list items =>
    if items.length ≤ names.length then
      some (items.map some ++ List.replicate (names.length - items.length) none)
    else none
  | _ => none

end Json

instance : Document String where
  toJson := .ofString
  ofJson? := Json.asText?

instance {α : Type} [Vocabulary α] : Document α where
  toJson value := .ofString (Vocabulary.word value)
  ofJson? json := json.spelled?.bind Vocabulary.ofWord?

end LayoutPlanner
