import Mathlib.Data.List.Basic
import Mathlib.Tactic.Common

/-!
# Numerals

A reader that accumulates the digits of a numeral in a machine word has to stop before
the word overflows. One that stops above a limit returns a number that stands for the
exact one: the two are equal, or both are above the limit. Whatever does not tell the
numbers above the limit apart is the same for both.
-/

namespace Conhost

universe u

namespace Numeral

/-- The value of a numeral after one more digit. -/
def shift (base value digit : Nat) : Nat := value * base + digit

/-- The value of a list of digits, the most significant one first. -/
def value (base : Nat) (digits : List Nat) : Nat := digits.foldl (shift base) 0

/-- The same, except that a value above the limit is no longer extended. -/
def cappedShift (base limit value digit : Nat) : Nat :=
  if value ≤ limit then shift base value digit else value

/-- A capped reading of a number. -/
def StandsFor (limit capped exact : Nat) : Prop :=
  capped = exact ∨ (limit < capped ∧ capped ≤ exact)

variable {base limit capped exact digit : Nat}

theorem StandsFor.refl (limit exact : Nat) : StandsFor limit exact exact := .inl rfl

theorem StandsFor.shift (stands : StandsFor limit capped exact) (positive : 0 < base)
    (digit : Nat) :
    StandsFor limit (cappedShift base limit capped digit) (shift base exact digit) := by
  have grows (number : Nat) : number ≤ number * base := Nat.le_mul_of_pos_right number positive
  unfold cappedShift
  split
  · rename_i small
    rcases stands with rfl | ⟨large, _⟩
    · exact .refl limit _
    · omega
  · rename_i large
    refine .inr ⟨by omega, ?_⟩
    have bounded : capped ≤ exact := by
      rcases stands with rfl | ⟨_, le⟩
      · exact Nat.le_refl capped
      · exact le
    calc capped ≤ exact := bounded
      _ ≤ exact * base := grows exact
      _ ≤ exact * base + digit := Nat.le_add_right _ _

/-- A capped reader computes no number above the bound of its last extension. -/
theorem cappedShift_le (isDigit : digit < base)
    (bounded : capped ≤ limit * base + (base - 1)) :
    cappedShift base limit capped digit ≤ limit * base + (base - 1) := by
  unfold cappedShift
  split
  · rename_i small
    have scaled : capped * base ≤ limit * base := Nat.mul_le_mul_right base small
    unfold shift
    omega
  · exact bounded

/-- A capped reading is exact, or both numbers are above the limit. -/
theorem StandsFor.eq_or_large (stands : StandsFor limit capped exact) :
    capped = exact ∨ (limit < capped ∧ limit < exact) := by
  rcases stands with rfl | ⟨large, le⟩
  · exact .inl rfl
  · exact .inr ⟨large, Nat.lt_of_lt_of_le large le⟩

/-- What is settled above the limit does not tell a number from its capped reading. -/
theorem StandsFor.congr {α : Sort u} {result : Nat → α} (stands : StandsFor limit capped exact)
    (settled : ∀ first second, limit < first → limit < second → result first = result second) :
    result capped = result exact := by
  rcases stands.eq_or_large with rfl | ⟨first, second⟩
  · rfl
  · exact settled capped exact first second

theorem StandsFor.eq_iff (stands : StandsFor limit capped exact) {number : Nat}
    (small : number ≤ limit) : capped = number ↔ exact = number := by
  rcases stands with rfl | ⟨large, le⟩
  · rfl
  · omega

theorem StandsFor.min_eq (stands : StandsFor limit capped exact) {number : Nat}
    (small : number ≤ limit) : min capped number = min exact number := by
  rcases stands with rfl | ⟨large, le⟩
  · rfl
  · omega

end Numeral

end Conhost
