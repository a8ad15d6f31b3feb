import Mathlib.Data.List.GetD
import Mathlib.Logic.Function.Basic
import Mathlib.Order.Nat
import Mathlib.Tactic.Common

/-!
# Tapes

A row of cells without an end, with a head that writes as it goes forward and that can
step back without erasing. It is what a stream of characters and backspaces means where
no margin gets in the way. A device of finite width stands in for the tape as long as the
head never has to step back over the start of a row.
-/

namespace Conhost

universe u

inductive Mark (α : Type u) where
  | put (value : α)
  | back
deriving DecidableEq, Repr

/-- `reach` is how far the head has been. -/
structure Tape (α : Type u) where
  cells : Nat → α
  head : Nat
  reach : Nat

namespace Tape

variable {α : Type u} (tape : Tape α)

def mark : Mark α → Tape α
  | .put value =>
      { cells := Function.update tape.cells tape.head value
        head := tape.head + 1
        reach := max tape.reach (tape.head + 1) }
  | .back => { tape with head := tape.head - 1 }

def marks (stream : List (Mark α)) : Tape α := stream.foldl mark tape

/-- The stream steps back only behind `start` and inside of rows of the given width. -/
def BacksInRow (width start : Nat) : Tape α → List (Mark α) → Prop
  | _, [] => True
  | tape, .put value :: later => BacksInRow width start (tape.mark (.put value)) later
  | tape, .back :: later =>
      start < tape.head ∧ tape.head % width ≠ 0 ∧ BacksInRow width start (tape.mark .back) later

/-- From `start` on the tape reads `line` and then blanks, as far as the head has been. -/
structure Shows (blank : α) (start : Nat) (line : List α) (cursor : Nat) : Prop where
  cells : ∀ index, start + index < tape.reach →
    tape.cells (start + index) = line.getD index blank
  covers : start + line.length ≤ tape.reach
  head : tape.head = start + cursor
  inside : cursor ≤ line.length

variable {tape}

theorem marks_append (first second : List (Mark α)) :
    tape.marks (first ++ second) = (tape.marks first).marks second :=
  List.foldl_append

theorem marks_cons (mark : Mark α) (later : List (Mark α)) :
    tape.marks (mark :: later) = (tape.mark mark).marks later :=
  rfl

theorem reach_mark (mark : Mark α) : tape.reach ≤ (tape.mark mark).reach := by
  cases mark with
  | put value => exact Nat.le_max_left _ _
  | back => exact le_rfl

theorem reach_marks (stream : List (Mark α)) : tape.reach ≤ (tape.marks stream).reach := by
  induction stream generalizing tape with
  | nil => exact le_rfl
  | cons mark later hypothesis => exact (reach_mark mark).trans hypothesis

theorem backsInRow_append {width start : Nat} {first second : List (Mark α)}
    (before : tape.BacksInRow width start first)
    (after : (tape.marks first).BacksInRow width start second) :
    tape.BacksInRow width start (first ++ second) := by
  induction first generalizing tape with
  | nil => exact after
  | cons mark later hypothesis =>
      cases mark with
      | put value => exact hypothesis before after
      | back =>
          rcases before with ⟨behind, inRow, rest⟩
          exact ⟨behind, inRow, hypothesis rest after⟩

theorem backsInRow_split {width start : Nat} {first second : List (Mark α)}
    (both : tape.BacksInRow width start (first ++ second)) :
    tape.BacksInRow width start first ∧ (tape.marks first).BacksInRow width start second := by
  induction first generalizing tape with
  | nil => exact ⟨trivial, both⟩
  | cons mark later hypothesis =>
      cases mark with
      | put value => exact hypothesis both
      | back =>
          rcases both with ⟨behind, inRow, rest⟩
          rcases hypothesis rest with ⟨before, after⟩
          exact ⟨⟨behind, inRow, before⟩, after⟩

theorem backsInRow_puts {width start : Nat} (text : List α) :
    tape.BacksInRow width start (text.map .put) := by
  induction text generalizing tape with
  | nil => trivial
  | cons value later hypothesis => exact hypothesis

theorem marks_backs (count : Nat) :
    tape.marks (List.replicate count .back) = { tape with head := tape.head - count } := by
  induction count generalizing tape with
  | zero => rfl
  | succ count hypothesis =>
      rw [List.replicate_succ, marks_cons, hypothesis, mark, Nat.sub_sub, Nat.add_comm 1]

theorem mod_ne_zero_of_div_eq {width low high : Nat} (below : low < high)
    (sameRow : low / width = high / width) : high % width ≠ 0 := by
  intro edge
  have whole := Nat.div_add_mod high width
  have part := Nat.div_add_mod low width
  rw [edge] at whole
  rw [sameRow] at part
  omega

theorem div_eq_of_between {width low middle high : Nat} (first : low ≤ middle)
    (second : middle ≤ high) (sameRow : low / width = high / width) :
    low / width = middle / width :=
  Nat.le_antisymm (Nat.div_le_div_right first)
    ((Nat.div_le_div_right second).trans (Nat.le_of_eq sameRow.symm))

/-- Backspaces that end behind `start` in the row of the head. -/
theorem backsInRow_backs {width start : Nat} {count : Nat}
    (behind : start + count ≤ tape.head)
    (sameRow : (tape.head - count) / width = tape.head / width) :
    tape.BacksInRow width start (List.replicate count .back) := by
  induction count generalizing tape with
  | zero => trivial
  | succ count hypothesis =>
      have target : tape.head - 1 - count = tape.head - (count + 1) := by omega
      refine ⟨by omega, mod_ne_zero_of_div_eq (by omega) sameRow, hypothesis ?_ ?_⟩
      · simp only [mark]
        omega
      · simp only [mark, target]
        exact div_eq_of_between (by omega) (by omega) sameRow

theorem head_puts (text : List α) :
    (tape.marks (text.map .put)).head = tape.head + text.length := by
  induction text generalizing tape with
  | nil => rfl
  | cons value later hypothesis =>
      rw [List.map_cons, marks_cons, hypothesis, mark, List.length_cons]
      simp only
      omega

theorem reach_puts (visited : tape.head ≤ tape.reach) (text : List α) :
    (tape.marks (text.map .put)).reach = max tape.reach (tape.head + text.length) := by
  induction text generalizing tape with
  | nil => exact (Nat.max_eq_left visited).symm
  | cons value later hypothesis =>
      rw [List.map_cons, marks_cons, hypothesis (Nat.le_max_right _ _), mark, List.length_cons]
      simp only
      omega

theorem cells_puts (text : List α) (index : Nat) (blank : α) :
    (tape.marks (text.map .put)).cells index =
      if tape.head ≤ index ∧ index < tape.head + text.length then
        text.getD (index - tape.head) blank
      else tape.cells index := by
  induction text generalizing tape with
  | nil =>
      rw [if_neg (by simp only [List.length_nil]; omega)]
      rfl
  | cons value later hypothesis =>
      rw [List.map_cons, marks_cons, hypothesis, mark, List.length_cons]
      simp only
      by_cases here : index = tape.head
      · subst here
        rw [if_neg (by omega), if_pos (by omega), Function.update_self, Nat.sub_self,
          List.getD_cons_zero]
      · by_cases later' : tape.head + 1 ≤ index ∧ index < tape.head + 1 + later.length
        · have next : index - tape.head = index - (tape.head + 1) + 1 := by omega
          rw [if_pos later', if_pos (by omega), next, List.getD_cons_succ]
        · rw [if_neg later', if_neg (by omega), Function.update_of_ne here]

/-- The marks of a rewrite: some steps back, the text from there on, and some steps back again. -/
def rewrite (away : Nat) (written : List α) (back : Nat) : List (Mark α) :=
  List.replicate away .back ++ written.map .put ++ List.replicate back .back

section Rewrite

variable {blank : α} {start cursor away back width : Nat} {line next written : List α}

/-- A rewrite from the position `kept` on shows the line that has the written text there. -/
theorem Shows.rewrite (shows : tape.Shows blank start line cursor) {kept : Nat}
    (position : kept + away = cursor) (returns : back ≤ written.length)
    (rewritten : ∀ index, next.getD index blank =
      if kept ≤ index ∧ index < kept + written.length then written.getD (index - kept) blank
      else line.getD index blank)
    (within : kept + written.length ≤ max line.length next.length)
    (longer : next.length ≤ max line.length (kept + written.length))
    (inside : kept + written.length - back ≤ next.length)
    (leaves : (start + kept) / width = (start + cursor) / width)
    (returnsInRow : (start + (kept + written.length - back)) / width =
      (start + (kept + written.length)) / width) :
    let marked := tape.marks (Tape.rewrite away written back)
    tape.BacksInRow width start (Tape.rewrite away written back) ∧
      marked.Shows blank start next (kept + written.length - back) ∧
      marked.reach = max tape.reach (start + next.length) := by
  have head := shows.head
  have covers := shows.covers
  have within' := shows.inside
  have origin : tape.head - away = start + kept := by omega
  have moved : tape.marks (List.replicate away .back) = { tape with head := start + kept } := by
    rw [marks_backs, origin]
  have written' : (tape.marks (List.replicate away .back ++ written.map .put)).head =
      start + (kept + written.length) := by
    rw [marks_append, moved, head_puts]
    simp only
    omega
  have reached : (tape.marks (List.replicate away .back ++ written.map .put)).reach =
      max tape.reach (start + next.length) := by
    rw [marks_append, moved, reach_puts (by simp only; omega)]
    simp only
    omega
  simp only [Tape.rewrite]
  refine ⟨backsInRow_append (backsInRow_append ?_ (backsInRow_puts written)) ?_, ?_, ?_⟩
  · refine backsInRow_backs (by omega) ?_
    rw [origin, head, leaves]
  · refine backsInRow_backs (by omega) ?_
    rw [written', Nat.add_sub_assoc (by omega)]
    exact returnsInRow
  · rw [marks_append, marks_backs]
    refine ⟨?_, ?_, ?_, inside⟩
    · intro index reachable
      simp only [reached] at reachable
      simp only [marks_append, moved]
      rw [cells_puts written (start + index) blank, rewritten]
      simp only
      by_cases new : kept ≤ index ∧ index < kept + written.length
      · rw [if_pos (by omega), if_pos new, Nat.add_sub_add_left]
      · rw [if_neg (by omega), if_neg new]
        apply shows.cells
        omega
    · simp only [reached]
      exact Nat.le_max_right _ _
    · simp only [written']
      omega
  · rw [marks_append, marks_backs]
    exact reached

/-- The line from `kept` on is replaced; blanks cover what is left of the old line. -/
theorem Shows.replace (shows : tape.Shows blank start line cursor) {kept blanks : Nat}
    {tail : List α} (position : kept + away = cursor)
    (covered : line.length ≤ kept + tail.length + blanks)
    (covers : kept + tail.length + blanks ≤ max line.length (kept + tail.length))
    (returns : back ≤ tail.length + blanks) (beyond : blanks ≤ back)
    (leaves : (start + kept) / width = (start + cursor) / width)
    (returnsInRow : (start + (kept + tail.length + blanks - back)) / width =
      (start + (kept + tail.length + blanks)) / width) :
    let stream := Tape.rewrite away (tail ++ List.replicate blanks blank) back
    let marked := tape.marks stream
    tape.BacksInRow width start stream ∧
      marked.Shows blank start (line.take kept ++ tail) (kept + tail.length + blanks - back) ∧
      marked.reach = max tape.reach (start + (line.take kept ++ tail).length) := by
  have inside := shows.inside
  have front : (line.take kept).length = kept := by
    rw [List.length_take]
    omega
  have length : (line.take kept ++ tail).length = kept + tail.length := by
    rw [List.length_append, front]
  have size : (tail ++ List.replicate blanks blank).length = tail.length + blanks := by
    rw [List.length_append, List.length_replicate]
  have rewritten := @Shows.rewrite _ tape blank start cursor away back width line
    (line.take kept ++ tail) (tail ++ List.replicate blanks blank) shows kept position
  rw [size, length, ← Nat.add_assoc] at rewritten
  rw [length]
  apply rewritten
  · omega
  · intro index
    by_cases new : kept ≤ index ∧ index < kept + tail.length + blanks
    · rw [if_pos new, List.getD_append_right _ _ _ _ (by omega), front]
      by_cases typed : index - kept < tail.length
      · rw [List.getD_append _ _ _ _ typed]
      · rw [List.getD_append_right _ _ _ _ (by omega), List.getD_eq_default _ _ (by omega),
          List.getD_replicate _ (by omega)]
    · rw [if_neg new]
      by_cases old : index < kept
      · rw [List.getD_append _ _ _ _ (by omega)]
        simp only [List.getD_eq_getElem?_getD]
        rw [List.getElem?_take_of_lt old]
      · rw [List.getD_eq_default _ _ (by omega), List.getD_eq_default _ _ (by omega)]
  · omega
  · omega
  · omega
  · exact leaves
  · exact returnsInRow

/-- Steps back over a line. -/
theorem Shows.goBack (shows : tape.Shows blank start line cursor) {target : Nat}
    (position : target + away = cursor)
    (leaves : (start + target) / width = (start + cursor) / width) :
    let marked := tape.marks (Tape.rewrite away [] 0)
    tape.BacksInRow width start (Tape.rewrite away [] 0) ∧
      marked.Shows blank start line target ∧
      marked.reach = max tape.reach (start + line.length) := by
  have inside := shows.inside
  refine @Shows.rewrite _ tape blank start cursor away 0 width line line [] shows target position
    le_rfl ?_ ?_ ?_ ?_ leaves rfl
  · intro index
    rw [if_neg (by simp only [List.length_nil]; omega)]
  · simp only [List.length_nil]
    omega
  · omega
  · simp only [List.length_nil]
    omega

/-- The line written again goes forward over it. -/
theorem Shows.goForward (shows : tape.Shows blank start line cursor) {target : Nat}
    (forward : cursor ≤ target) (inLine : target ≤ line.length) :
    let stream := Tape.rewrite 0 ((line.take target).drop cursor) 0
    let marked := tape.marks stream
    tape.BacksInRow width start stream ∧
      marked.Shows blank start line target ∧
      marked.reach = max tape.reach (start + line.length) := by
  have size : cursor + ((line.take target).drop cursor).length = target := by
    rw [List.length_drop, List.length_take]
    omega
  have rewritten := @Shows.rewrite _ tape blank start cursor 0 0 width line line
    ((line.take target).drop cursor) shows cursor rfl (Nat.zero_le _)
  rw [size] at rewritten
  apply rewritten
  · intro index
    split
    · rename_i new
      have place : cursor + (index - cursor) = index := by omega
      simp only [List.getD_eq_getElem?_getD]
      rw [List.getElem?_drop, place, List.getElem?_take_of_lt new.2]
    · rfl
  · omega
  · omega
  · exact inLine
  · rfl
  · rfl

end Rewrite

end Tape

end Conhost
