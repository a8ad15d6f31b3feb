import Mathlib.Data.List.Induction
import Mathlib.Tactic.Common

/-!
# Scans of a list

Two scans over a list: one that takes as many items at a time as the items themselves
say, and a search for the first item of least cost.
-/

namespace Conhost

universe u v

section Chunks

variable {α : Type u} {σ : Type v} (width : List α → Nat)

/-- The positions at which a scan starts a chunk. -/
inductive ChunkStart (items : List α) : Nat → Prop
  | first : ChunkStart items 0
  | next {position : Nat} (start : ChunkStart items position) (inside : position < items.length) :
      ChunkStart items (position + width (items.drop position))

/-- No chunk that starts in the first list reaches into the second one. -/
def ChunksInside (first second : List α) : Prop :=
  ∀ position, position < first.length → ChunkStart width (first ++ second) position →
    position + width ((first ++ second).drop position) ≤ first.length

variable {width}

theorem ChunkStart.shift {items : List α} {position : Nat} (nonempty : items ≠ [])
    (start : ChunkStart width (items.drop (width items)) position) :
    ChunkStart width items (width items + position) := by
  induction start with
  | first =>
      have next := ChunkStart.next (.first : ChunkStart width items 0)
        (List.length_pos_iff.mpr nonempty)
      rwa [List.drop_zero, Nat.zero_add] at next
  | next start inside ih =>
      rw [List.length_drop] at inside
      have next := ChunkStart.next ih (by omega)
      rwa [← List.drop_drop, Nat.add_assoc] at next

theorem ChunkStart.cases_shift {items : List α} {position : Nat}
    (start : ChunkStart width items position) :
    position = 0 ∨ ∃ later, position = width items + later ∧
      ChunkStart width (items.drop (width items)) later := by
  induction start with
  | first => exact .inl rfl
  | next start inside ih =>
      rcases ih with rfl | ⟨later, rfl, begun⟩
      · exact .inr ⟨0, by simp, .first⟩
      · refine .inr ⟨later + width ((items.drop (width items)).drop later), ?_, ?_⟩
        · rw [List.drop_drop, Nat.add_assoc]
        · exact .next begun (by rw [List.length_drop]; omega)

/-- The chunks of a list that starts with a complete chunk. -/
theorem chunksInside_iff {first second : List α} (nonempty : first ≠ []) :
    ChunksInside width first second ↔
      width (first ++ second) ≤ first.length ∧
        ChunksInside width (first.drop (width (first ++ second))) second := by
  have whole : first ++ second ≠ [] := by simp [nonempty]
  constructor
  · intro inside
    have here := inside 0 (List.length_pos_iff.mpr nonempty) .first
    rw [List.drop_zero, Nat.zero_add] at here
    refine ⟨here, ?_⟩
    intro position within start
    rw [List.length_drop] at within ⊢
    rw [← List.drop_append_of_le_length here] at start ⊢
    have reached := inside _ (by omega) (start.shift whole)
    rw [← List.drop_drop] at reached
    omega
  · rintro ⟨here, inside⟩ position within start
    rcases start.cases_shift with rfl | ⟨later, rfl, begun⟩
    · rwa [List.drop_zero, Nat.zero_add]
    · rw [List.drop_append_of_le_length here] at begun
      have reached := inside later (by rw [List.length_drop]; omega) begun
      rw [List.length_drop, ← List.drop_append_of_le_length here, List.drop_drop] at reached
      omega

/-- A scan that applies the effect of the first chunk and goes on behind it. -/
structure ChunkScan (width : List α → Nat) (effect : List α → σ → σ)
    (scan : List α → σ → σ) : Prop where
  nil : ∀ state, scan [] state = state
  step : ∀ {items}, items ≠ [] → ∀ state,
    scan items state = scan (items.drop (width items)) (effect items state)
  positive : ∀ items, 0 < width items
  width_append : ∀ {first second}, first ≠ [] → width (first ++ second) ≤ first.length →
    width first = width (first ++ second)
  effect_append : ∀ {first second}, first ≠ [] → width (first ++ second) ≤ first.length →
    effect first = effect (first ++ second)

namespace ChunkScan

variable {effect : List α → σ → σ} {scan : List α → σ → σ}

/-- Lists of whole chunks are scanned one after the other. -/
theorem append (scans : ChunkScan width effect scan) {first second : List α}
    (inside : ChunksInside width first second) (state : σ) :
    scan (first ++ second) state = scan second (scan first state) := by
  induction size : first.length using Nat.strongRecOn generalizing first state with
  | ind length ih =>
    by_cases empty : first = []
    · subst empty
      rw [List.nil_append, scans.nil]
    obtain ⟨here, rest⟩ := (chunksInside_iff empty).mp inside
    have shorter : (first.drop (width (first ++ second))).length < length := by
      have := scans.positive (first ++ second)
      have := List.length_pos_iff.mpr empty
      rw [List.length_drop]
      omega
    rw [scans.step (by simp [empty]), scans.step empty, List.drop_append_of_le_length here,
      scans.width_append empty here, scans.effect_append empty here]
    exact ih _ shorter rest _ rfl

/-- What every chunk of a list keeps is kept by the scan. -/
theorem keeps (scans : ChunkScan width effect scan) (property : σ → Prop) {items : List α}
    (chunks : ∀ position, position < items.length → ChunkStart width items position →
      ∀ state, property state → property (effect (items.drop position) state))
    {state : σ} (start : property state) : property (scan items state) := by
  induction size : items.length using Nat.strongRecOn generalizing items state with
  | ind length ih =>
    by_cases empty : items = []
    · subst empty
      rwa [scans.nil]
    have shorter : (items.drop (width items)).length < length := by
      have := scans.positive items
      have := List.length_pos_iff.mpr empty
      rw [List.length_drop]
      omega
    rw [scans.step empty]
    refine ih _ shorter ?_ ?_ rfl
    · intro position inside start state kept
      rw [List.length_drop] at inside
      rw [List.drop_drop]
      exact chunks _ (by omega) (start.shift empty) state kept
    · have first := chunks 0 (List.length_pos_iff.mpr empty) .first state start
      rwa [List.drop_zero] at first

end ChunkScan

end Chunks

section Cheapest

variable {α : Type u} (cost : α → Nat) (bound : Nat)

/-- The search keeps the first item that costs less than all before it. -/
def cheapest (items : List α) : Nat × Nat :=
  items.zipIdx.foldl
    (fun best entry => if cost entry.1 < best.2 then (entry.2, cost entry.1) else best) (0, bound)

theorem cheapest_append (items : List α) (item : α) :
    cheapest cost bound (items ++ [item]) =
      if cost item < (cheapest cost bound items).2 then (items.length, cost item)
      else cheapest cost bound items := by
  rw [cheapest, List.zipIdx_append, List.foldl_append, Nat.zero_add]
  rfl

/-- The first item of least cost, and its cost. -/
structure Cheapest (items : List α) (best : Nat × Nat) : Prop where
  found : ∃ item, items[best.1]? = some item ∧ cost item = best.2
  least : ∀ {index : Nat} {item : α}, items[index]? = some item → best.2 ≤ cost item
  first : ∀ {index : Nat} {item : α}, items[index]? = some item → index < best.1 →
    best.2 < cost item

variable {cost bound}

/-- An item behind the last one either wins or leaves the winner in place. -/
theorem Cheapest.push {items : List α} {best : Nat × Nat} (cheapest : Cheapest cost items best)
    (item : α) :
    Cheapest cost (items ++ [item])
      (if cost item < best.2 then (items.length, cost item) else best) := by
  have entry {index : Nat} {other : α} (found : (items ++ [item])[index]? = some other) :
      items[index]? = some other ∨ (index = items.length ∧ other = item) := by
    rcases Nat.lt_or_ge index items.length with before | behind
    · rw [List.getElem?_append_left before] at found
      exact .inl found
    · rw [List.getElem?_append_right behind, List.getElem?_singleton] at found
      split at found
      · exact .inr ⟨by omega, (Option.some.inj found).symm⟩
      · cases found
  split
  · rename_i cheaper
    refine ⟨⟨item, by simp, rfl⟩, ?_, ?_⟩
    · intro index other found
      rcases entry found with old | ⟨-, rfl⟩
      · exact Nat.le_trans (Nat.le_of_lt cheaper) (cheapest.least old)
      · exact Nat.le_refl _
    · intro index other found before
      rcases entry found with old | ⟨rfl, -⟩
      · exact Nat.lt_of_lt_of_le cheaper (cheapest.least old)
      · exact absurd before (Nat.lt_irrefl _)
  · rename_i dearer
    obtain ⟨winner, found, costs⟩ := cheapest.found
    have inside : best.1 < items.length := (List.getElem?_eq_some_iff.mp found).1
    refine ⟨⟨winner, by rw [List.getElem?_append_left inside, found], costs⟩, ?_, ?_⟩
    · intro index other found
      rcases entry found with old | ⟨-, rfl⟩
      · exact cheapest.least old
      · exact Nat.le_of_not_lt dearer
    · intro index other found before
      rcases entry found with old | ⟨rfl, -⟩
      · exact cheapest.first old before
      · omega

/-- A search whose bound is above every cost finds the first item of least cost. -/
theorem cheapest_spec {items : List α} (nonempty : items ≠ [])
    (bounded : ∀ item ∈ items, cost item < bound) :
    Cheapest cost items (cheapest cost bound items) := by
  induction items using List.reverseRecOn with
  | nil => exact absurd rfl nonempty
  | append_singleton items item ih =>
    rw [cheapest_append]
    by_cases alone : items = []
    · subst alone
      have wins : cost item < (cheapest cost bound []).2 := bounded item (by simp)
      rw [if_pos wins]
      refine ⟨⟨item, rfl, rfl⟩, ?_, ?_⟩
      · intro index other found
        rw [List.nil_append, List.getElem?_singleton] at found
        split at found
        · exact Nat.le_of_eq (congrArg cost (Option.some.inj found))
        · cases found
      · intro index other found before
        exact absurd before (Nat.not_lt_zero _)
    · exact (ih alone fun other mem => bounded other (List.mem_append_left _ mem)).push item

end Cheapest

end Conhost
