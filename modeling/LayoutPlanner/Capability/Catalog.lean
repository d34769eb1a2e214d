import LayoutPlanner.Capability.Basic

/-!
# Catalogs

A catalog is the list of registered capabilities, each with the operation it serves.  The order of
registration is the order of priority: of two entries for one operation the earlier one wins.
-/

namespace LayoutPlanner

structure Catalog where
  registrations : List (OpKind × Capability) := []

namespace Catalog

/-- Appends an entry, which comes after all the others. -/
def register (catalog : Catalog) (op : OpKind) (capability : Capability) : Catalog :=
  ⟨catalog.registrations ++ [(op, capability)]⟩

/-- The capabilities for an operation, in order of priority. -/
def entries (catalog : Catalog) (op : OpKind) : List Capability :=
  (catalog.registrations.filter (·.1 == op)).map (·.2)

/-- The first entry of a kind in the mask that serves the shape class. -/
def lookup? (catalog : Catalog) (op : OpKind) (mask : KindMask) (shape : ShapeClass) :
    Option Capability :=
  (catalog.entries op).find? fun c => mask.contains c.kind && c.supports shape

/-- The kinds that have an entry for the operation and the shape class. -/
def kindsFor (catalog : Catalog) (op : OpKind) (shape : ShapeClass) : KindMask :=
  .ofList (((catalog.entries op).filter (·.supports shape)).map Capability.kind)

def servesDynamic (catalog : Catalog) (op : OpKind) : Bool :=
  (catalog.entries op).any (·.supports .dynamic)

/-- The operations that have an entry, in the order of the vocabulary. -/
def ops (catalog : Catalog) : List OpKind :=
  OpKind.all.filter fun op => !(catalog.entries op).isEmpty

def size (catalog : Catalog) : Nat :=
  catalog.registrations.length

def isEmpty (catalog : Catalog) : Bool :=
  catalog.registrations.isEmpty

/-- The names of the entries by operation. -/
def inspect (catalog : Catalog) : String :=
  let group (op : OpKind) :=
    let names := (catalog.entries op).map fun c => Text.quoted s!"{c.kind}:{c.name}"
    op.title ++ ": [" ++ ", ".intercalate names ++ "]"
  "\x7b" ++ ", ".intercalate (catalog.ops.map group) ++ "\x7d"

@[simp]
theorem entries_register (catalog : Catalog) (op other : OpKind) (capability : Capability) :
    (catalog.register op capability).entries other =
      catalog.entries other ++ if op = other then [capability] else [] := by
  by_cases h : op = other <;> simp [entries, register, h]

end Catalog

/-- The place where one catalog is installed for everyone.  The first one stays. -/
structure Installation where
  current : Option Catalog := none

namespace Installation

/-- Installs a catalog if there is none yet, and tells whether it was taken. -/
def install (place : Installation) (catalog : Catalog) : Installation × Bool :=
  match place.current with
  | none => (⟨some catalog⟩, true)
  | some _ => (place, false)

/-- The installed catalog; if there is none, `make` is run for it.  Tells whether it was. -/
def installWith {m : Type → Type} [Monad m] (place : Installation) (make : m Catalog) :
    m (Installation × Catalog × Bool) :=
  match place.current with
  | none => do
    let catalog ← make
    return (⟨some catalog⟩, catalog, true)
  | some installed => return (place, installed, false)

end Installation

end LayoutPlanner
