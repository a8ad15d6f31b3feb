import Mathlib.Data.List.Basic
import Mathlib.Tactic.Common

/-!
# Pipes

A pipe hands over what was written to it, in order and each item once. It keeps a record of both
ends, and that nothing is lost or added between them is part of it. A reader asks how much there
is, and reads; the pipe is broken for it when the writer is gone and nothing is left.
-/

namespace Conhost

universe u v

structure Pipe (α : Type u) where
  written : List α
  received : List α
  unread : List α
  writerGone : Bool
  conserved : received ++ unread = written

namespace Pipe

variable {α : Type u} {ε : Type v} (pipe : Pipe α)

theorem conserved_write (items : List α) :
    pipe.received ++ (pipe.unread ++ items) = pipe.written ++ items := by
  rw [← List.append_assoc, pipe.conserved]

theorem conserved_take (count : Nat) :
    pipe.received ++ pipe.unread.take count ++ pipe.unread.drop count = pipe.written := by
  rw [List.append_assoc, List.take_append_drop, pipe.conserved]

def empty : Pipe α := ⟨[], [], [], false, rfl⟩

def write (items : List α) : Pipe α :=
  ⟨pipe.written ++ items, pipe.received, pipe.unread ++ items, pipe.writerGone,
    pipe.conserved_write items⟩

def closeWriter : Pipe α := { pipe with writerGone := true }

/-- The reader takes the first items. -/
def take (count : Nat) : Pipe α :=
  ⟨pipe.written, pipe.received ++ pipe.unread.take count, pipe.unread.drop count, pipe.writerGone,
    pipe.conserved_take count⟩

@[simp] theorem take_zero : pipe.take 0 = pipe := by
  simp [take]

variable {pipe}

theorem received_take {items : List α} (front : items <+: pipe.unread) :
    (pipe.take items.length).received = pipe.received ++ items := by
  have same : items = pipe.unread.take items.length := List.prefix_iff_eq_take.mp front
  calc (pipe.take items.length).received
      = pipe.received ++ pipe.unread.take items.length := rfl
    _ = pipe.received ++ items := by rw [← same]

/-- What was received stands at the front of what was written. -/
theorem received_front (pipe : Pipe α) : pipe.received <+: pipe.written :=
  ⟨pipe.unread, pipe.conserved⟩

/-- Of a pipe with nothing left everything has been received. -/
theorem received_eq_written (empty : pipe.unread = []) : pipe.received = pipe.written := by
  have conserved := pipe.conserved
  rwa [empty, List.append_nil] at conserved

section Calls

variable [DecidableEq ε] (broken : ε)

/-- A call may fail in this way. -/
def mayFail (pipe : Pipe α) (error : ε) : Bool :=
  error != broken || pipe.unread.isEmpty && pipe.writerGone

/-- What a reader is told: the number of items that are left, and then the first of them, at most
`limit`. -/
def answers [DecidableEq α] (pipe : Pipe α) (limit : Nat) (peek : Except ε Nat)
    (read : Except ε (List α)) : Bool :=
  match peek, read with
  | .error error, _ => pipe.mayFail broken error
  | .ok available, .error error => available == pipe.unread.length && pipe.mayFail broken error
  | .ok available, .ok items =>
      available == pipe.unread.length && items.isPrefixOf pipe.unread &&
        decide (items.length ≤ limit)

variable {broken} {limit available : Nat} {peek : Except ε Nat} {read : Except ε (List α)}

theorem mayFail_broken (fails : pipe.mayFail broken broken = true) :
    pipe.unread = [] ∧ pipe.writerGone = true := by
  simpa [mayFail] using fails

variable [DecidableEq α]

theorem broken_of_peek {error : ε} (answers : pipe.answers broken limit (.error error) read = true)
    (same : error = broken) : pipe.unread = [] ∧ pipe.writerGone = true := by
  subst same
  exact mayFail_broken answers

theorem broken_of_read {error : ε}
    (answers : pipe.answers broken limit (.ok available) (.error error) = true)
    (same : error = broken) : pipe.unread = [] ∧ pipe.writerGone = true := by
  subst same
  simp only [Pipe.answers, Bool.and_eq_true] at answers
  exact mayFail_broken answers.2

theorem front_of_read {items : List α}
    (answers : pipe.answers broken limit (.ok available) (.ok items) = true) :
    items <+: pipe.unread := by
  simp only [Pipe.answers, Bool.and_eq_true, List.isPrefixOf_iff_prefix] at answers
  exact answers.1.2

end Calls

end Pipe

end Conhost
