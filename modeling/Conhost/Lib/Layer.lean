import Mathlib.Data.Option.Basic
import Mathlib.Tactic.Common

/-!
# Layers of settings

A layer says of each key which value it has, or nothing. A later layer over an earlier one says
what the later one says, and what the earlier one says where the later one says nothing.
-/

namespace Conhost

universe u v

abbrev Layer (κ : Type u) (υ : Type v) := κ → Option υ

namespace Layer

variable {κ : Type u} {υ : Type v}

def empty : Layer κ υ := fun _ => none

def single [DecidableEq κ] (key : κ) (value : υ) : Layer κ υ :=
  fun other => if other = key then some value else none

def atop (later earlier : Layer κ υ) : Layer κ υ := fun key => (later key).or (earlier key)

/-- The values with what a layer says on top of them -/
def applyTo (layer : Layer κ υ) (base : κ → υ) : κ → υ := fun key => (layer key).getD (base key)

theorem atop_applyTo (later earlier : Layer κ υ) (base : κ → υ) :
    (later.atop earlier).applyTo base = later.applyTo (earlier.applyTo base) := by
  funext key
  simp only [atop, applyTo]
  cases later key <;> rfl

theorem atop_assoc (first second third : Layer κ υ) :
    (first.atop second).atop third = first.atop (second.atop third) := by
  funext key
  exact Option.or_assoc

theorem isSome_atop {later earlier : Layer κ υ} {key : κ} :
    (later.atop earlier key).isSome ↔ (later key).isSome ∨ (earlier key).isSome := by
  rw [atop, Option.isSome_or, Bool.or_eq_true]

@[simp] theorem empty_atop (layer : Layer κ υ) : empty.atop layer = layer := rfl

/-- Where a layer is left out, nothing changes if and only if the layers over it say something, or
it says nothing or nothing new. -/
theorem applyTo_without_iff {later earlier : Layer κ υ} {base : κ → υ} {key : κ} :
    later.applyTo base key = (later.atop earlier).applyTo base key ↔
      (later key).isSome ∨ earlier key = none ∨ earlier key = some (base key) := by
  simp only [atop, applyTo]
  cases later key with
  | some value => simp
  | none =>
      cases earlier key with
      | none => simp
      | some value => simp [eq_comm]

end Layer

end Conhost
