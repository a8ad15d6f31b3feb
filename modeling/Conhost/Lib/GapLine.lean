import Mathlib.Data.List.Basic
import Mathlib.Logic.Function.Iterate
import Mathlib.Tactic.Common

/-!
# Lines with a gap cursor

A line of symbols that is edited at a gap between two of them. The editor knows
nothing of how a symbol is stored: a symbol is typed, passed and deleted as a whole,
and words are what stands between delimiters.
-/

namespace Conhost

universe u

/-- The keys of a line editor. -/
inductive EditKey where
  | insertKey
  | escapeKey
  | homeKey
  | endKey
  | leftKey
  | rightKey
  | deleteKey
deriving DecidableEq, Repr

/-- A line with a gap. The symbols before the gap are listed from the gap to the front. -/
structure GapLine (α : Type u) where
  before : List α := []
  after : List α := []
  insertMode : Bool := true
deriving DecidableEq, Repr

namespace GapLine

variable {α : Type u} (line : GapLine α) (delimiter : α → Bool)

def text : List α := line.before.reverse ++ line.after

def moveBack (count : Nat) : GapLine α :=
  { line with
    before := line.before.drop count
    after := (line.before.take count).reverse ++ line.after }

def moveForward (count : Nat) : GapLine α :=
  { line with
    before := (line.after.take count).reverse ++ line.before
    after := line.after.drop count }

def eraseBack (count : Nat) : GapLine α := { line with before := line.before.drop count }

def eraseForward (count : Nat) : GapLine α := { line with after := line.after.drop count }

/-- Type a symbol; in overwrite mode it replaces the next one. -/
def type (symbol : α) : GapLine α :=
  { line with
    before := symbol :: line.before
    after := if line.insertMode then line.after else line.after.tail }

/-- The number of symbols back to the start of a word: delimiters, then the word. -/
def wordBack : Nat :=
  let space := (line.before.takeWhile delimiter).length
  space + ((line.before.drop space).takeWhile (!delimiter ·)).length

/-- The number of symbols on to the start of the next word: the word, then delimiters. -/
def wordForward : Nat :=
  let word := (line.after.takeWhile (!delimiter ·)).length
  word + ((line.after.drop word).takeWhile delimiter).length

/-- One key, as often as it is repeated. With `ctrl`, Home and End delete instead of moving, and
the arrows move by words. -/
def press (key : EditKey) (ctrl : Bool) (count : Nat) : GapLine α :=
  match key with
  | .insertKey => if count % 2 = 1 then { line with insertMode := !line.insertMode } else line
  | .escapeKey => { line with before := [], after := [] }
  | .homeKey =>
      if ctrl then line.eraseBack line.before.length else line.moveBack line.before.length
  | .endKey =>
      if ctrl then line.eraseForward line.after.length else line.moveForward line.after.length
  | .leftKey => (fun line => line.moveBack
      (if ctrl then line.wordBack delimiter else 1))^[count] line
  | .rightKey =>
      (fun line => line.moveForward (if ctrl then line.wordForward delimiter else 1))^[count] line
  | .deleteKey => (fun line => line.eraseForward 1)^[count] line

variable {line}

@[simp]
theorem moveBack_text (count : Nat) : (line.moveBack count).text = line.text := by
  have split := congrArg List.reverse (List.take_append_drop count line.before)
  rw [List.reverse_append] at split
  rw [text, moveBack, ← List.append_assoc, split, text]

@[simp]
theorem moveForward_text (count : Nat) : (line.moveForward count).text = line.text := by
  simp [text, moveForward]

@[simp]
theorem moveBack_zero : line.moveBack 0 = line := by
  simp [moveBack]

@[simp]
theorem moveForward_zero : line.moveForward 0 = line := by
  simp [moveForward]

theorem moveBack_add (first second : Nat) :
    (line.moveBack first).moveBack second = line.moveBack (first + second) := by
  simp only [moveBack, List.drop_drop, List.take_add, List.reverse_append, List.append_assoc]

theorem moveForward_add (first second : Nat) :
    (line.moveForward first).moveForward second = line.moveForward (first + second) := by
  simp only [moveForward, List.drop_drop, List.take_add, List.reverse_append, List.append_assoc]

theorem moveBack_of_front (front : line.before = []) (count : Nat) :
    line.moveBack count = line := by
  rcases line with ⟨before, after, insertMode⟩
  cases front
  simp [moveBack]

theorem moveForward_of_back (back : line.after = []) (count : Nat) :
    line.moveForward count = line := by
  rcases line with ⟨before, after, insertMode⟩
  cases back
  simp [moveForward]

theorem eraseBack_of_front (front : line.before = []) (count : Nat) :
    line.eraseBack count = line := by
  rcases line with ⟨before, after, insertMode⟩
  cases front
  simp [eraseBack]

theorem eraseForward_of_back (back : line.after = []) (count : Nat) :
    line.eraseForward count = line := by
  rcases line with ⟨before, after, insertMode⟩
  cases back
  simp [eraseForward]

/-- To a word is over the delimiters first. -/
theorem moveBack_wordBack :
    line.moveBack (line.wordBack delimiter) =
      (line.moveBack (line.before.takeWhile delimiter).length).moveBack
        ((line.moveBack (line.before.takeWhile delimiter).length).before.takeWhile
          (!delimiter ·)).length := by
  rw [moveBack_add]
  rfl

theorem moveForward_wordForward :
    line.moveForward (line.wordForward delimiter) =
      (line.moveForward (line.after.takeWhile (!delimiter ·)).length).moveForward
        ((line.moveForward (line.after.takeWhile (!delimiter ·)).length).after.takeWhile
          delimiter).length := by
  rw [moveForward_add]
  rfl

end GapLine

end Conhost
