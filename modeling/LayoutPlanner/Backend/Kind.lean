import LayoutPlanner.Vocabulary

/-!
# Backend kinds

The families of implementations that compete for a node, and sets of them.
-/

namespace LayoutPlanner

/-- Vendor library routines, generated device kernels, host code, and special accelerators, in
order of priority. -/
inductive BackendKind where
  | vendor
  | generic
  | host
  | accelerator
  deriving DecidableEq

namespace BackendKind

def all : List BackendKind :=
  [vendor, generic, host, accelerator]

def name : BackendKind → String
  | vendor => "vendor"
  | generic => "generic"
  | host => "host"
  | accelerator => "accelerator"

/-- Capitalised name, used where a structure is shown field by field. -/
def title : BackendKind → String
  | vendor => "Vendor"
  | generic => "Generic"
  | host => "Host"
  | accelerator => "Accelerator"

instance : Vocabulary BackendKind where
  members := all
  word := name

instance : ToString BackendKind := ⟨name⟩

end BackendKind

/-- A set of backend kinds. -/
structure KindMask where
  vendor : Bool := false
  generic : Bool := false
  host : Bool := false
  accelerator : Bool := false
  deriving DecidableEq

namespace KindMask

def none : KindMask := {}

def any : KindMask := ⟨true, true, true, true⟩

def contains (mask : KindMask) : BackendKind → Bool
  | .vendor => mask.vendor
  | .generic => mask.generic
  | .host => mask.host
  | .accelerator => mask.accelerator

def insert (mask : KindMask) : BackendKind → KindMask
  | .vendor => { mask with vendor := true }
  | .generic => { mask with generic := true }
  | .host => { mask with host := true }
  | .accelerator => { mask with accelerator := true }

def ofList (kinds : List BackendKind) : KindMask :=
  kinds.foldl insert none

def only (kind : BackendKind) : KindMask :=
  none.insert kind

/-- A pin restricts the choice to its kind; without one every kind is allowed. -/
def ofPin : Option BackendKind → KindMask
  | some kind => only kind
  | .none => any

def isEmpty (mask : KindMask) : Bool :=
  mask == none

def isAny (mask : KindMask) : Bool :=
  mask == any

/-- The members in order of priority. -/
def toList (mask : KindMask) : List BackendKind :=
  BackendKind.all.filter mask.contains

def text (mask : KindMask) : String :=
  if mask.isAny then "any"
  else if mask.isEmpty then "none"
  else "|".intercalate (mask.toList.map BackendKind.name)

instance : ToString KindMask := ⟨text⟩

/-- The mask as diagnostics show it. -/
def inspect (mask : KindMask) : String :=
  s!"KindMask({mask.text})"

@[simp]
theorem contains_insert (mask : KindMask) (kind other : BackendKind) :
    (mask.insert kind).contains other = (kind == other || mask.contains other) := by
  cases kind <;> cases other <;> rfl

@[simp]
theorem contains_none (kind : BackendKind) : none.contains kind = false := by
  cases kind <;> rfl

@[simp]
theorem contains_any (kind : BackendKind) : any.contains kind = true := by
  cases kind <;> rfl

end KindMask

end LayoutPlanner
