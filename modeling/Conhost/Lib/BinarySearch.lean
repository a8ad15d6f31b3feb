import Conhost.Lib.Loop
import Mathlib.Order.Basic
import Mathlib.Tactic.Ring

/-!
# A binary search for the last success

The search keeps an interval of candidates and the last probe that succeeded.
The interval starts at 0, a candidate at which the probe always fails. The
search is then not exact: if 1 is the only success it may be looked for at 0.
-/

namespace Conhost

/-- The locals of the search. -/
structure BinarySearch where
  low : Int
  high : Int
  best : Nat

namespace BinarySearch

def middle (search : BinarySearch) : Int := search.low + (search.high - search.low) / 2

/-- One probe, at the middle of the interval. -/
def probe (succeeds : Nat → Bool) (search : BinarySearch) : Pass BinarySearch Nat :=
  if search.low ≤ search.high then
    if succeeds search.middle.toNat then
      .next { search with best := search.middle.toNat, low := search.middle + 1 }
    else .next { search with high := search.middle - 1 }
  else .leave search.best

def loop (succeeds : Nat → Bool) : Loop BinarySearch Nat where
  body := probe succeeds
  measure search := (search.high - search.low + 1).toNat
  decreases := by
    intro search next pass
    simp only [probe] at pass
    split at pass
    · split at pass <;>
      · cases pass
        simp only [middle]
        omega
    · cases pass

/-- The search over `0 .. high`. -/
def run (succeeds : Nat → Bool) (high : Nat) : Nat := (loop succeeds).run ⟨0, high, 0⟩

variable {succeeds : Nat → Bool} {last : Nat}

/-- The probes succeed exactly at `1 .. last`. -/
def SucceedsTo (succeeds : Nat → Bool) (high last : Nat) : Prop :=
  last ≤ high ∧ ∀ candidate ≤ high, succeeds candidate = true ↔ 1 ≤ candidate ∧ candidate ≤ last

/-- Once a probe has succeeded the search is exact. -/
structure Narrows (limit last : Nat) (search : BinarySearch) : Prop where
  low_eq : search.low = search.best + 1
  best_pos : 1 ≤ search.best
  best_le : search.best ≤ last
  last_le : last ≤ search.high
  high_le : search.high ≤ limit

theorem loop_eq_last {limit : Nat} (exact : SucceedsTo succeeds limit last)
    (search : BinarySearch) (narrows : search.Narrows limit last) :
    (loop succeeds).run search = last := by
  let Holds (search : BinarySearch) (value : Nat) : Prop :=
    search.Narrows limit last → value = last
  suffices holds : Holds search ((loop succeeds).run search) from holds narrows
  apply (loop succeeds).run_induction
  · intro search value pass narrows
    change probe succeeds search = .leave value at pass
    obtain ⟨low, positive, below, above, inside⟩ := narrows
    simp only [probe] at pass
    split at pass
    · split at pass <;> cases pass
    · cases pass
      omega
  · intro search next value pass holds narrows
    change probe succeeds search = .next next at pass
    obtain ⟨low, positive, below, above, inside⟩ := narrows
    simp only [probe] at pass
    split at pass
    · have lower : search.low ≤ search.middle := by simp only [middle]; omega
      have upper : search.middle ≤ search.high := by simp only [middle]; omega
      have decided := exact.2 search.middle.toNat (by omega)
      split at pass
      · rename_i success
        cases pass
        have bounds := decided.mp success
        exact holds ⟨by simp only; omega, by simp only; omega, by simp only; omega, above, inside⟩
      · rename_i failure
        cases pass
        have bounds : ¬(1 ≤ search.middle.toNat ∧ search.middle.toNat ≤ last) :=
          fun within => failure (decided.mpr within)
        exact holds ⟨low, positive, below, by simp only; omega, by simp only; omega⟩
    · cases pass

/-- The intervals `0 .. high` whose halving reaches `0 .. 1`: the two leading binary digits of
`high + 2` are ones. -/
def MissesOne (high : Nat) : Prop := ∃ scale, 3 * 2 ^ scale ≤ high + 2 ∧ high + 2 < 4 * 2 ^ scale

theorem missesOne_iff_of_lt {high : Nat} (small : high < 4) : MissesOne high ↔ high = 1 := by
  constructor
  · rintro ⟨scale, lower, upper⟩
    match scale with
    | 0 => omega
    | scale + 1 =>
        rw [pow_succ] at lower upper
        have positive : 0 < 2 ^ scale := Nat.two_pow_pos scale
        omega
  · rintro rfl
    exact ⟨0, by decide⟩

theorem missesOne_half {high : Nat} (large : 4 ≤ high) :
    MissesOne high ↔ MissesOne (high / 2 - 1) := by
  constructor
  · rintro ⟨scale, lower, upper⟩
    match scale with
    | 0 => omega
    | scale + 1 =>
        rw [pow_succ] at lower upper
        exact ⟨scale, by omega, by omega⟩
  · rintro ⟨scale, lower, upper⟩
    refine ⟨scale + 1, ?_, ?_⟩ <;>
    · rw [pow_succ]
      omega

theorem run_of_failure {high : Nat} (failure : succeeds (high / 2) = false) :
    run succeeds high = (loop succeeds).run ⟨0, (high / 2 : Nat) - 1, 0⟩ := by
  have centre : (⟨0, high, 0⟩ : BinarySearch).middle = (high / 2 : Nat) := by
    simp only [middle]
    omega
  have pass : probe succeeds ⟨0, high, 0⟩ = .next ⟨0, (high / 2 : Nat) - 1, 0⟩ := by
    simp only [probe, centre, Int.toNat_natCast, failure]
    rw [if_pos (Int.natCast_nonneg high)]
    rfl
  exact (loop succeeds).run_of_next pass

theorem run_of_success {high : Nat} (success : succeeds (high / 2) = true) :
    run succeeds high = (loop succeeds).run ⟨(high / 2 : Nat) + 1, high, high / 2⟩ := by
  have centre : (⟨0, high, 0⟩ : BinarySearch).middle = (high / 2 : Nat) := by
    simp only [middle]
    omega
  have pass : probe succeeds ⟨0, high, 0⟩ = .next ⟨(high / 2 : Nat) + 1, high, high / 2⟩ := by
    simp only [probe, centre, Int.toNat_natCast, success]
    rw [if_pos (Int.natCast_nonneg high)]
    rfl
  exact (loop succeeds).run_of_next pass

theorem run_zero_one (high : Nat) (small : high / 2 = 0) (failure : succeeds 0 = false) :
    run succeeds high = 0 := by
  rw [run_of_failure (by rw [small]; exact failure), small]
  apply (loop succeeds).run_of_leave
  rfl

open Classical in
/-- The search finds the last success unless that is 1 and the halving misses it. -/
theorem run_eq (high : Nat) (exact : SucceedsTo succeeds high last) :
    run succeeds high = if last = 1 ∧ MissesOne high then 0 else last := by
  induction high using Nat.strongRecOn with
  | ind high hypothesis =>
      have bound := exact.1
      have atMiddle := exact.2 (high / 2) (by omega)
      by_cases small : high / 2 = 0
      · have failure : succeeds 0 = false := by
          have never := (exact.2 0 (Nat.zero_le _)).not.mpr (by omega)
          simpa using never
        rw [run_zero_one high small failure, missesOne_iff_of_lt (by omega)]
        split <;> omega
      · cases success : succeeds (high / 2) with
        | true =>
            have within := atMiddle.mp success
            rw [run_of_success success, loop_eq_last exact _
              ⟨rfl, within.1, within.2, by simp only; omega, by simp only; omega⟩]
            have found : ¬(last = 1 ∧ MissesOne high) := by
              rintro ⟨rfl, missed⟩
              rw [missesOne_iff_of_lt (by omega)] at missed
              omega
            rw [if_neg found]
        | false =>
            have beyond : last < high / 2 := by
              have outside : ¬(1 ≤ high / 2 ∧ high / 2 ≤ last) := by
                rw [← atMiddle, success]
                simp
              omega
            have same : run succeeds high = run succeeds (high / 2 - 1) := by
              rw [run_of_failure success, run]
              congr 2
              omega
            have shorter : SucceedsTo succeeds (high / 2 - 1) last :=
              ⟨by omega, fun candidate inside => exact.2 candidate (by omega)⟩
            rw [same, hypothesis (high / 2 - 1) (by omega) shorter]
            by_cases one : last = 1
            · have half := missesOne_half (by omega : 4 ≤ high)
              simp only [half]
            · simp [one]

end BinarySearch

end Conhost
