import Mathlib.Algebra.Order.Group.Abs
import Mathlib.Order.Interval.Set.ProjIcc

/-!
# Nearest points

Something that has to move into a set and is to move as little as possible goes to a nearest
point of the set. In an interval that point is the projection, and a point of the set stays
where it is.
-/

namespace Conhost

universe u

variable {α : Type u} [AddCommGroup α] [LinearOrder α]

/-- A point of a set that no other point of the set comes closer than. -/
structure IsNearest (points : Set α) (point nearest : α) : Prop where
  mem : nearest ∈ points
  least : ∀ other ∈ points, |nearest - point| ≤ |other - point|

section Ordered

variable [IsOrderedAddMonoid α] {points : Set α} {point nearest low high : α}

/-- A point of the set is nearest to itself only. -/
theorem IsNearest.eq_self (isNearest : IsNearest points point nearest) (member : point ∈ points) :
    nearest = point := by
  have still := isNearest.least point member
  rw [sub_self, abs_zero] at still
  exact sub_eq_zero.mp (abs_nonpos_iff.mp still)

/-- The projection on the interval between the bounds of a set is nearest, if the set has all that
lies between them. -/
theorem isNearest_projIcc (bounds : ∀ other, other ∈ points ↔ low ≤ other ∧ other ≤ high)
    (ordered : low ≤ high) (point : α) :
    IsNearest points point (Set.projIcc low high ordered point) where
  mem := (bounds _).mpr (Set.projIcc low high ordered point).property
  least := by
    intro other member
    rcases (bounds other).mp member with ⟨lower, upper⟩
    rcases le_total point low with below | aboveLow
    · rw [Set.projIcc_of_le_left ordered below, abs_of_nonneg (sub_nonneg.mpr below),
        abs_of_nonneg (sub_nonneg.mpr (below.trans lower))]
      exact sub_le_sub_right lower point
    · rcases le_total point high with belowHigh | above
      · rw [Set.projIcc_of_mem ordered ⟨aboveLow, belowHigh⟩, sub_self, abs_zero]
        exact abs_nonneg _
      · rw [Set.projIcc_of_right_le ordered above, abs_of_nonpos (sub_nonpos.mpr above),
          abs_of_nonpos (sub_nonpos.mpr (upper.trans above))]
        exact neg_le_neg (sub_le_sub_right upper point)

end Ordered

end Conhost
