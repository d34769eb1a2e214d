import LayoutPlanner.Vocabulary

/-!
# Element types

The scalar types a tensor can hold.
-/

namespace LayoutPlanner

inductive ElementType where
  | i1 | si8 | ui8 | si32 | si64 | f16 | bf16 | f32
  deriving DecidableEq

namespace ElementType

/-- Signed and unsigned integers.  A single bit is not one of them. -/
def isInteger : ElementType → Bool
  | si8 | ui8 | si32 | si64 => true
  | i1 | f16 | bf16 | f32 => false

/-- The 8-bit storage types of quantized tensors. -/
def isQuantized : ElementType → Bool
  | si8 | ui8 => true
  | i1 | si32 | si64 | f16 | bf16 | f32 => false

def isFloat : ElementType → Bool
  | f16 | bf16 | f32 => true
  | i1 | si8 | ui8 | si32 | si64 => false

/-- Bytes per element.  A single bit takes a whole byte. -/
def bytes : ElementType → Nat
  | i1 | si8 | ui8 => 1
  | f16 | bf16 => 2
  | si32 | f32 => 4
  | si64 => 8

def name : ElementType → String
  | i1 => "i1"
  | si8 => "si8"
  | ui8 => "ui8"
  | si32 => "si32"
  | si64 => "si64"
  | f16 => "f16"
  | bf16 => "bf16"
  | f32 => "f32"

/-- Capitalised name, used where a structure is shown field by field. -/
def title : ElementType → String
  | i1 => "I1"
  | si8 => "Si8"
  | ui8 => "Ui8"
  | si32 => "Si32"
  | si64 => "Si64"
  | f16 => "F16"
  | bf16 => "Bf16"
  | f32 => "F32"

instance : Vocabulary ElementType where
  members := [i1, si8, ui8, si32, si64, f16, bf16, f32]
  word := name

instance : ToString ElementType := ⟨name⟩

end ElementType

end LayoutPlanner
