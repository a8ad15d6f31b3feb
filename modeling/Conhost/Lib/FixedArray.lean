import Mathlib.Data.List.Basic

/-!
# Arrays of a fixed size with a count

A buffer of `size` entries of which the first `count` are in use. Nothing keeps the count below
the size but the code that uses it: an entry written at a count that is too large is a failure,
and so is reading more entries than there are.
-/

namespace Conhost

universe u

structure FixedArray (α : Type u) (size : Nat) where
  entries : Vector α size
  count : Nat

namespace FixedArray

variable {α : Type u} {size : Nat}

/-- The array after it was filled with one value -/
def filled (value : α) : FixedArray α size := ⟨Vector.replicate size value, 0⟩

/-- The array with none of its entries in use -/
def clear (array : FixedArray α size) : FixedArray α size := { array with count := 0 }

/-- Write the next entry, if there is one, and count it. -/
def push? (array : FixedArray α size) (value : α) : Option (FixedArray α size) :=
  if inside : array.count < size then
    some ⟨array.entries.set array.count value inside, array.count + 1⟩
  else none

/-- Read the entries in use, if they are inside the array. -/
def view? (array : FixedArray α size) : Option (List α) :=
  if array.count ≤ size then some (array.entries.toList.take array.count) else none

/-- The entries in use, whatever the count -/
def contents (array : FixedArray α size) : List α := array.entries.toList.take array.count

def InBounds (array : FixedArray α size) : Prop := array.count ≤ size

theorem inBounds_filled (value : α) : (filled value : FixedArray α size).InBounds := Nat.zero_le _

theorem inBounds_clear (array : FixedArray α size) : array.clear.InBounds := Nat.zero_le _

variable {array : FixedArray α size}

namespace InBounds

theorem length_contents (inside : array.InBounds) : array.contents.length = array.count := by
  rw [contents, List.length_take, Vector.length_toList]
  exact Nat.min_eq_left inside

theorem view?_eq (inside : array.InBounds) : array.view? = some array.contents := if_pos inside

end InBounds

/-- With room a write succeeds and appends to the entries in use. -/
theorem exists_push? (room : array.count < size) (value : α) :
    ∃ pushed, array.push? value = some pushed ∧ pushed.InBounds ∧
      pushed.contents = array.contents ++ [value] := by
  refine ⟨⟨array.entries.set array.count value room, array.count + 1⟩, dif_pos room, room, ?_⟩
  have length : array.count < array.entries.toList.length := by
    rwa [Vector.length_toList]
  simp only [contents, Vector.toList_set]
  rw [List.take_succ_eq_append_getElem (by rwa [List.length_set]), List.getElem_set_self,
    List.take_set_of_le (Nat.le_refl _)]

/-- A write that is made only if there is room -/
theorem InBounds.exists_push?_of_room (inside : array.InBounds) (value : α) :
    ∃ next, (if array.count < size then array.push? value else some array) = some next ∧
      next.InBounds ∧
      next.contents = if array.contents.length < size then array.contents ++ [value]
        else array.contents := by
  rw [inside.length_contents]
  by_cases room : array.count < size
  · rw [if_pos room, if_pos room]
    exact exists_push? room value
  · rw [if_neg room, if_neg room]
    exact ⟨array, rfl, inside, rfl⟩

theorem contents_eq_singleton (inside : array.InBounds) (positive : 0 < size) {value : α} :
    array.contents = [value] ↔ array.count = 1 ∧ array.entries[0] = value := by
  have length := inside.length_contents
  obtain ⟨first, rest, entries⟩ := List.exists_cons_of_length_pos
    (l := array.entries.toList) (by rwa [Vector.length_toList])
  have head : array.entries[0] = first := by
    rw [← Vector.getElem_toList (by rwa [Vector.length_toList])]
    simp only [entries, List.getElem_cons_zero]
  rw [head]
  constructor
  · intro single
    rw [single, List.length_singleton] at length
    rw [contents, ← length, entries, List.take_succ_cons, List.take_zero] at single
    exact ⟨length.symm, List.head_eq_of_cons_eq single⟩
  · rintro ⟨one, rfl⟩
    rw [contents, one, entries, List.take_succ_cons, List.take_zero]

end FixedArray

end Conhost
