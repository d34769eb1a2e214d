import LayoutPlanner.Tensor.ElementType
import LayoutPlanner.Tensor.Format
import LayoutPlanner.Tensor.Size

/-!
# Format preferences

An opinion on the formats and element types of a node's slots.  A slot without an entry, an `any`
entry and an absent type all mean that there is no opinion on it.
-/

namespace LayoutPlanner

/-- Sets an entry of a list, growing the list with `fill` up to it. -/
def assign {α : Type} (fill : α) : List α → Nat → α → List α
  | [], 0, value => [value]
  | [], index + 1, value => fill :: assign fill [] index value
  | _ :: rest, 0, value => value :: rest
  | head :: rest, index + 1, value => head :: assign fill rest index value

/-- Assigns the entries of `news` that say something, each at its own index. -/
def overlayEntries {α : Type} (isSet : α → Bool) (fill : α) (old news : List α) : List α :=
  news.zipIdx.foldl
    (fun acc (value, index) => if isSet value then assign fill acc index value else acc) old

structure FormatPreference where
  inputs : List Format := []
  outputs : List Format := []
  inputTypes : List (Option ElementType) := []
  deriving DecidableEq

namespace FormatPreference

/-- The same format on every slot. -/
def uniform (inputs outputs : Nat) (format : Format) : FormatPreference :=
  { inputs := List.replicate inputs format, outputs := List.replicate outputs format }

def input (p : FormatPreference) (slot : Nat) : Format :=
  p.inputs.getD slot .any

def output (p : FormatPreference) (index : Nat) : Format :=
  p.outputs.getD index .any

def inputType (p : FormatPreference) (slot : Nat) : Option ElementType :=
  p.inputTypes.getD slot none

def setInput (p : FormatPreference) (slot : Nat) (format : Format) : FormatPreference :=
  { p with inputs := assign .any p.inputs slot format }

def setOutput (p : FormatPreference) (index : Nat) (format : Format) : FormatPreference :=
  { p with outputs := assign .any p.outputs index format }

/-- Gives a slot a type.  The list of types reaches up to the slot, so it must fit in memory. -/
def setInputType? (p : FormatPreference) (slot : Nat) (dtype : ElementType) :
    Option FormatPreference :=
  if Size.canHold (slot + 1) 1 then
    some { p with inputTypes := assign none p.inputTypes slot (some dtype) }
  else none

/-- No slot has an opinion. -/
def isEmpty (p : FormatPreference) : Bool :=
  p.inputs.all (!·.isChosen) && p.outputs.all (!·.isChosen) && p.inputTypes.all (·.isNone)

/-- Takes over every opinion of `news`; slots on which it has none keep their entry. -/
def overlay (p news : FormatPreference) : FormatPreference where
  inputs := overlayEntries Format.isChosen .any p.inputs news.inputs
  outputs := overlayEntries Format.isChosen .any p.outputs news.outputs
  inputTypes := overlayEntries Option.isSome none p.inputTypes news.inputTypes

end FormatPreference

/-! ## Reading an assigned entry -/

theorem getD_assign_self {α : Type} (fill : α) (l : List α) (i : Nat) (value : α) :
    (assign fill l i value).getD i fill = value := by
  induction l, i, value using assign.induct with
  | case1 value => rfl
  | case2 i value ih => simpa [assign] using ih
  | case3 value head rest => rfl
  | case4 value head rest i ih => simpa [assign] using ih

theorem getD_assign_of_ne {α : Type} (fill : α) (l : List α) {i j : Nat} (value : α)
    (h : j ≠ i) : (assign fill l i value).getD j fill = l.getD j fill := by
  induction l, i, value using assign.induct generalizing j with
  | case1 value =>
    cases j with
    | zero => exact absurd rfl h
    | succ j => rfl
  | case2 i value ih =>
    cases j with
    | zero => rfl
    | succ j => simpa [assign] using ih (fun hj => h (by rw [hj]))
  | case3 value head rest =>
    cases j with
    | zero => exact absurd rfl h
    | succ j => rfl
  | case4 value head rest i ih =>
    cases j with
    | zero => rfl
    | succ j => simpa [assign] using ih (fun hj => h (by rw [hj]))

namespace FormatPreference

@[simp]
theorem input_setInput (p : FormatPreference) (slot other : Nat) (format : Format) :
    (p.setInput slot format).input other = if other = slot then format else p.input other := by
  by_cases h : other = slot
  · subst h
    simpa [setInput, input] using getD_assign_self Format.any p.inputs other format
  · simpa [setInput, input, h] using getD_assign_of_ne Format.any p.inputs format h

@[simp]
theorem output_setOutput (p : FormatPreference) (index other : Nat) (format : Format) :
    (p.setOutput index format).output other = if other = index then format else p.output other := by
  by_cases h : other = index
  · subst h
    simpa [setOutput, output] using getD_assign_self Format.any p.outputs other format
  · simpa [setOutput, output, h] using getD_assign_of_ne Format.any p.outputs format h

@[simp]
theorem inputType_setInput (p : FormatPreference) (slot other : Nat) (format : Format) :
    (p.setInput slot format).inputType other = p.inputType other :=
  rfl

@[simp]
theorem input_setOutput (p : FormatPreference) (index slot : Nat) (format : Format) :
    (p.setOutput index format).input slot = p.input slot :=
  rfl

end FormatPreference

end LayoutPlanner
