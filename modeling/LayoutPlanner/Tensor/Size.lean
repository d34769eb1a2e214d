/-!
# Sizes

Extents, counts and byte sizes are 64-bit words.  A product or a sum that does not fit has no
value; it never wraps.
-/

namespace LayoutPlanner.Size

/-- Every size is below this bound. -/
def limit : Nat := 1 <<< 64

def mul? (a b : Nat) : Option Nat :=
  if a * b < limit then some (a * b) else none

def add? (a b : Nat) : Option Nat :=
  if a + b < limit then some (a + b) else none

@[simp]
theorem mul?_eq_some_iff {a b n : Nat} : mul? a b = some n ↔ a * b = n ∧ n < limit := by
  unfold mul?
  split <;> simp_all
  · rintro rfl
    assumption
  · rintro rfl
    assumption

@[simp]
theorem add?_eq_some_iff {a b n : Nat} : add? a b = some n ↔ a + b = n ∧ n < limit := by
  unfold add?
  split <;> simp_all
  · rintro rfl
    assumption
  · rintro rfl
    assumption

/-- Product of a list, multiplied from the left.  An intermediate product that does not fit
spoils the result, also when a later factor is zero. -/
def product? (factors : List Nat) : Option Nat :=
  factors.foldlM mul? 1

/-- Sum of a list of sizes, each of which may be unknown. -/
def total? (parts : List (Option Nat)) : Option Nat :=
  parts.foldlM (fun sum part => part.bind (add? sum)) 0

/-! ## Decimal digits -/

/-- Appends a decimal digit to a number. -/
def appendDigit? (n : Nat) (digit : Char) : Option Nat :=
  (mul? 10 n).bind (add? · (digit.toNat - '0'.toNat))

/-- The number that decimal digits stand for, if it fits a size.  Reading ends at the digit that
makes the number too large. -/
def ofDigits? (digits : List Char) : Option Nat :=
  digits.foldlM appendDigit? 0

theorem appendDigit?_eq (n : Nat) (digit : Char) :
    appendDigit? n digit =
      if 10 * n + (digit.toNat - '0'.toNat) < limit then
        some (10 * n + (digit.toNat - '0'.toNat))
      else none := by
  simp only [appendDigit?, mul?, add?]
  by_cases h : 10 * n < limit
  · simp [h]
  · simp only [h, if_false, Option.bind_none]
    rw [if_neg (by omega)]

theorem le_ofDigitChars (digits : List Char) (n : Nat) : n ≤ Nat.ofDigitChars 10 digits n := by
  induction digits generalizing n with
  | nil => exact Nat.le_refl n
  | cons digit rest ih =>
    rw [Nat.ofDigitChars_cons]
    exact Nat.le_trans (by omega) (ih _)

theorem foldlM_appendDigit? (digits : List Char) (n : Nat) (h : n < limit) :
    digits.foldlM appendDigit? n =
      if Nat.ofDigitChars 10 digits n < limit then some (Nat.ofDigitChars 10 digits n)
      else none := by
  induction digits generalizing n with
  | nil => simp [Nat.ofDigitChars, h]
  | cons digit rest ih =>
    rw [List.foldlM_cons, appendDigit?_eq, Nat.ofDigitChars_cons]
    split
    next fits => exact ih _ fits
    next large =>
      have := le_ofDigitChars rest (10 * n + (digit.toNat - '0'.toNat))
      rw [if_neg (by omega)]
      rfl

/-- Reading with a bound at every digit gives the same number as a bound at the end. -/
theorem ofDigits?_eq (digits : List Char) :
    ofDigits? digits =
      if Nat.ofDigitChars 10 digits 0 < limit then some (Nat.ofDigitChars 10 digits 0)
      else none :=
  foldlM_appendDigit? digits 0 (by decide)

/-- The digits of a size read back as that size. -/
theorem ofDigits?_toDigits {n : Nat} (h : n < limit) : ofDigits? (Nat.toDigits 10 n) = some n := by
  rw [ofDigits?_eq, Nat.ofDigitChars_ten_toDigits, if_pos h]

/-! ## Room -/

/-- Most bytes that one list can take. -/
def memoryLimit : Nat := (1 <<< 63) - 1

/-- A list of `count` entries of `width` bytes each can be held. -/
def canHold (count width : Nat) : Bool :=
  count * width ≤ memoryLimit

end LayoutPlanner.Size
