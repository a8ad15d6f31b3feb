import Mathlib.Data.List.Destutter
import Mathlib.Data.List.DropRight
import Mathlib.Tactic.Common

/-!
# Bounded lists of recent entries

A log keeps its latest entries and drops the earliest one to make room. What it keeps is the
end of a list without a bound: of the entries with adjacent repetitions collapsed, or, if an
entry that comes back leaves its old place, of the entries in the order of their last use.
-/

namespace Conhost

universe u

namespace Recency

variable {α : Type u}

/-- A full list without its first entry. -/
def makeRoom (limit : Nat) (entries : List α) : List α :=
  if entries.length = limit then entries.tail else entries

theorem length_makeRoom {limit : Nat} {entries : List α} (bounded : entries.length ≤ limit + 1) :
    (makeRoom (limit + 1) entries).length ≤ limit := by
  unfold makeRoom
  split
  · rw [List.length_tail]
    omega
  · omega

theorem length_rtake (entries : List α) (count : Nat) :
    (entries.rtake count).length = min count entries.length := by
  rw [List.rtake, List.length_drop]
  omega

theorem rtake_of_length_le {entries : List α} {count : Nat} (short : entries.length ≤ count) :
    entries.rtake count = entries := by
  rw [List.rtake, Nat.sub_eq_zero_of_le short, List.drop_zero]

theorem rtake_append_of_le {later : List α} {count : Nat} (long : count ≤ later.length)
    (entries : List α) : (entries ++ later).rtake count = later.rtake count := by
  rw [List.rtake, List.rtake, List.length_append, List.drop_append,
    List.drop_of_length_le (by omega), List.nil_append]
  congr 1
  omega

theorem getLast?_rtake (entries : List α) (count : Nat) :
    (entries.rtake (count + 1)).getLast? = entries.getLast? := by
  cases entries using List.reverseRecOn with
  | nil => rw [List.rtake_nil]
  | append_singleton earlier last =>
      rw [List.rtake_concat_succ, List.getLast?_concat, List.getLast?_concat]

theorem makeRoom_rtake (entries : List α) (limit : Nat) :
    makeRoom (limit + 1) (entries.rtake (limit + 1)) = entries.rtake limit := by
  unfold makeRoom
  rw [length_rtake]
  split
  · rename_i full
    rw [List.rtake, List.rtake, List.tail_drop]
    congr 1
    omega
  · rename_i short
    rw [rtake_of_length_le (by omega), rtake_of_length_le (by omega)]

section Repetitions

variable [DecidableEq α]

theorem destutter_concat (entries : List α) (entry : α) :
    (entries ++ [entry]).destutter (· ≠ ·) =
      if entries.getLast? = some entry then entries.destutter (· ≠ ·)
      else entries.destutter (· ≠ ·) ++ [entry] := by
  cases entries with
  | nil => rfl
  | cons first later =>
      rw [List.cons_append, List.destutter_cons', List.destutter_cons']
      induction later generalizing first with
      | nil =>
          by_cases same : first = entry
          · simp [same]
          · simp [same]
      | cons second later ih =>
          rw [List.cons_append, List.destutter'_cons, List.destutter'_cons, List.getLast?_cons_cons]
          by_cases same : first = second
          · subst same
            simp only [ne_eq, not_true_eq_false, if_false]
            exact ih first
          · simp only [ne_eq, same, not_false_eq_true, if_true]
            rw [ih second]
            split <;> rfl

/-- The last entry is never dropped. -/
theorem getLast?_destutter (entries : List α) :
    (entries.destutter (· ≠ ·)).getLast? = entries.getLast? := by
  induction entries using List.reverseRecOn with
  | nil => rfl
  | append_singleton earlier last ih =>
      rw [destutter_concat, List.getLast?_concat]
      split
      · rename_i same
        rw [ih, same]
      · rw [List.getLast?_concat]

end Repetitions

section Order

variable [BEq α]

/-- An entry is used, and comes last. -/
def touch (entries : List α) (entry : α) : List α := entries.erase entry ++ [entry]

/-- The entries in the order of their last use. -/
def lastUse (entries : List α) : List α := entries.foldl touch []

theorem lastUse_concat (entries : List α) (entry : α) :
    lastUse (entries ++ [entry]) = touch (lastUse entries) entry := by
  rw [lastUse, lastUse, List.foldl_append, List.foldl_cons, List.foldl_nil]

theorem getLast?_lastUse (entries : List α) : (lastUse entries).getLast? = entries.getLast? := by
  cases entries using List.reverseRecOn with
  | nil => rfl
  | append_singleton earlier last =>
      rw [lastUse_concat, touch, List.getLast?_concat, List.getLast?_concat]

variable [LawfulBEq α]

theorem nodup_touch {entries : List α} (distinct : entries.Nodup) (entry : α) :
    (touch entries entry).Nodup := by
  rw [touch, List.nodup_append]
  refine ⟨distinct.erase entry, List.nodup_singleton entry, ?_⟩
  intro kept member other single
  rw [List.mem_singleton.mp single]
  rintro rfl
  exact distinct.not_mem_erase member

theorem nodup_lastUse (entries : List α) : (lastUse entries).Nodup := by
  induction entries using List.reverseRecOn with
  | nil => exact List.nodup_nil
  | append_singleton earlier last ih =>
      rw [lastUse_concat]
      exact nodup_touch ih last

theorem touch_of_getLast? {entries : List α} (distinct : entries.Nodup) {entry : α}
    (last : entries.getLast? = some entry) : touch entries entry = entries := by
  obtain ⟨earlier, rfl⟩ := List.getLast?_eq_some_iff.mp last
  have absent : entry ∉ earlier := by
    intro member
    exact (List.nodup_append.mp distinct).2.2 entry member entry (List.mem_singleton_self entry) rfl
  rw [touch, List.erase_append_right _ absent, List.erase_cons_head, List.append_nil]

/-- To drop an old use and then the earliest entry is to drop the old use of the whole list. -/
theorem makeRoom_erase {entries : List α} (distinct : entries.Nodup) (entry : α) (limit : Nat) :
    makeRoom (limit + 1) ((entries.rtake (limit + 1)).erase entry) =
      (entries.erase entry).rtake limit := by
  have split : entries.take (entries.length - (limit + 1)) ++ entries.rtake (limit + 1) =
      entries := List.take_append_drop _ _
  have length := length_rtake entries (limit + 1)
  by_cases member : entry ∈ entries.rtake (limit + 1)
  · have absent : entry ∉ entries.take (entries.length - (limit + 1)) := by
      intro earlier
      rw [← split] at distinct
      exact (List.nodup_append.mp distinct).2.2 entry earlier entry member rfl
    have positive := List.length_pos_of_mem member
    have shorter := List.length_erase_of_mem member
    have whole : entries.erase entry =
        entries.take (entries.length - (limit + 1)) ++ (entries.rtake (limit + 1)).erase entry := by
      conv_lhs => rw [← split, List.erase_append_right _ absent]
    rw [makeRoom, if_neg (by omega), whole]
    by_cases full : limit + 1 ≤ entries.length
    · rw [rtake_append_of_le (by omega)]
      exact (rtake_of_length_le (by omega)).symm
    · have none : entries.length - (limit + 1) = 0 := by omega
      rw [none, List.take_zero, List.nil_append]
      exact (rtake_of_length_le (by omega)).symm
  · rw [List.erase_of_not_mem member, makeRoom_rtake]
    by_cases earlier : entry ∈ entries.take (entries.length - (limit + 1))
    · have whole : entries.erase entry =
          (entries.take (entries.length - (limit + 1))).erase entry ++
            entries.rtake (limit + 1) := by
        conv_lhs => rw [← split, List.erase_append_left _ earlier]
      have positive := List.length_pos_of_mem earlier
      rw [List.length_take] at positive
      rw [whole, rtake_append_of_le (by omega)]
      conv_lhs => rw [← split, rtake_append_of_le (by omega)]
    · rw [List.erase_of_not_mem]
      intro inside
      rw [← split, List.mem_append] at inside
      exact inside.elim earlier member

end Order

end Recency

end Conhost
