import Conhost.Lib.Recency
import Conhost.Server.History

/-!
# The contents of a command history

A history is a log of commands with a limit. Without the suppression of duplicates it keeps
the latest commands, each once for as often as it comes in a row; with it, the commands used
last, each once.
-/

namespace Conhost

namespace CommandHistory

open Recency

variable {history : CommandHistory}

/-- The commands that a history takes note of. -/
def nonempty (commands : List (List WChar)) : List (List WChar) := commands.filter (· ≠ [])

/-- One `add` after the other. -/
def addAll (history : CommandHistory) (suppressDuplicates : Bool) (commands : List (List WChar)) :
    CommandHistory :=
  commands.foldl (fun history command => history.add command suppressDuplicates) history

theorem addAll_concat (history : CommandHistory) (suppressDuplicates : Bool)
    (commands : List (List WChar)) (command : List WChar) :
    history.addAll suppressDuplicates (commands ++ [command]) =
      (history.addAll suppressDuplicates commands).add command suppressDuplicates := by
  rw [addAll, addAll, List.foldl_append, List.foldl_cons, List.foldl_nil]

@[simp]
theorem add_empty (history : CommandHistory) (suppressDuplicates : Bool) :
    history.add [] suppressDuplicates = history := by
  rw [add, if_pos (.inr rfl)]

theorem nonempty_concat (commands : List (List WChar)) {command : List WChar}
    (given : command ≠ []) : nonempty (commands ++ [command]) = nonempty commands ++ [command] := by
  rw [nonempty, nonempty, List.filter_append, List.filter_cons_of_pos (by simpa using given),
    List.filter_nil]

theorem nonempty_concat_empty (commands : List (List WChar)) :
    nonempty (commands ++ [[]]) = nonempty commands := by
  rw [nonempty, nonempty, List.filter_append, List.filter_cons_of_neg (by simp), List.filter_nil,
    List.append_nil]

@[simp]
theorem add_maxCommands (history : CommandHistory) (command : List WChar)
    (suppressDuplicates : Bool) :
    (history.add command suppressDuplicates).maxCommands = history.maxCommands := by
  unfold add
  split
  · rfl
  · split <;> rfl

@[simp]
theorem addAll_maxCommands (history : CommandHistory) (suppressDuplicates : Bool)
    (commands : List (List WChar)) :
    (history.addAll suppressDuplicates commands).maxCommands = history.maxCommands := by
  induction commands using List.reverseRecOn with
  | nil => rfl
  | append_singleton earlier last ih => rw [addAll_concat, add_maxCommands, ih]

/-- What `add` stores of a command that is not empty, under a positive limit. -/
theorem add_commands {limit : Nat} (limited : history.maxCommands = limit + 1)
    {command : List WChar} (given : command ≠ []) (suppressDuplicates : Bool) :
    (history.add command suppressDuplicates).commands =
      if history.commands.getLast? = some command then history.commands
      else makeRoom (limit + 1)
        (if suppressDuplicates then history.commands.erase command else history.commands) ++
          [command] := by
  rw [add, if_neg (by simp [limited, given])]
  split
  · rfl
  · rw [limited]
    rfl

theorem add_of_limit_zero (none : history.maxCommands = 0) (command : List WChar)
    (suppressDuplicates : Bool) : history.add command suppressDuplicates = history := by
  rw [add, if_pos (.inl none)]

/-- Without suppression a history is the end of the log with adjacent repetitions collapsed. -/
theorem addAll_commands (history : CommandHistory) (commands : List (List WChar)) :
    (history.clearCommands.addAll false commands).commands =
      ((nonempty commands).destutter (· ≠ ·)).rtake history.maxCommands := by
  induction commands using List.reverseRecOn with
  | nil => rw [nonempty, List.filter_nil, List.destutter_nil, List.rtake_nil]; rfl
  | append_singleton earlier command ih =>
      rw [addAll_concat]
      by_cases given : command = []
      · rw [given, add_empty, ih, nonempty_concat_empty]
      · rw [nonempty_concat _ given, destutter_concat]
        have kept : (history.clearCommands.addAll false earlier).maxCommands =
            history.maxCommands := addAll_maxCommands ..
        cases limit : history.maxCommands with
        | zero =>
            rw [add_of_limit_zero (kept.trans limit), ih, limit, List.rtake_zero, List.rtake_zero]
        | succ limit' =>
            rw [add_commands (kept.trans limit) given, ih, limit, getLast?_rtake,
              getLast?_destutter]
            split
            · rfl
            · rw [if_neg Bool.false_ne_true, makeRoom_rtake, List.rtake_concat_succ]

/-- With suppression it is the end of the commands in the order of their last use. -/
theorem addAll_commands_suppressed (history : CommandHistory) (commands : List (List WChar)) :
    (history.clearCommands.addAll true commands).commands =
      (lastUse (nonempty commands)).rtake history.maxCommands := by
  induction commands using List.reverseRecOn with
  | nil => rw [nonempty, List.filter_nil, lastUse, List.foldl_nil, List.rtake_nil]; rfl
  | append_singleton earlier command ih =>
      rw [addAll_concat]
      by_cases given : command = []
      · rw [given, add_empty, ih, nonempty_concat_empty]
      · rw [nonempty_concat _ given, lastUse_concat]
        have kept : (history.clearCommands.addAll true earlier).maxCommands =
            history.maxCommands := addAll_maxCommands ..
        have distinct := nodup_lastUse (nonempty earlier)
        cases limit : history.maxCommands with
        | zero =>
            rw [add_of_limit_zero (kept.trans limit), ih, limit, List.rtake_zero, List.rtake_zero]
        | succ limit' =>
            rw [add_commands (kept.trans limit) given, ih, limit, getLast?_rtake]
            split
            · rename_i last
              rw [touch_of_getLast? distinct last]
            · rw [if_pos rfl, makeRoom_erase distinct, touch, List.rtake_concat_succ]

/-- What changes the commands or the limit of a history. -/
inductive Operation where
  | add (command : List WChar) (suppressDuplicates : Bool)
  | realloc (maxCommands : Nat)

def Operation.apply (history : CommandHistory) : Operation → CommandHistory
  | .add command suppressDuplicates => history.add command suppressDuplicates
  | .realloc maxCommands => history.realloc maxCommands

/-- The limit that an operation leaves in force. -/
def Operation.limit (limit : Nat) : Operation → Nat
  | .add _ _ => limit
  | .realloc maxCommands => maxCommands

/-- No more commands than the limit allows. -/
def Bounded (history : CommandHistory) : Prop := history.commands.length ≤ history.maxCommands

theorem Bounded.add (bounded : history.Bounded) (command : List WChar)
    (suppressDuplicates : Bool) : (history.add command suppressDuplicates).Bounded := by
  unfold Bounded at bounded ⊢
  rw [add_maxCommands]
  cases limit : history.maxCommands with
  | zero => rwa [add_of_limit_zero limit, ← limit]
  | succ limit' =>
      rw [limit] at bounded
      by_cases given : command = []
      · rwa [given, add_empty]
      · rw [add_commands limit given]
        have erased : (if suppressDuplicates then history.commands.erase command
            else history.commands).length ≤ limit' + 1 := by
          split
          · exact (List.length_erase_le).trans bounded
          · exact bounded
        split
        · exact bounded
        · rw [List.length_append, List.length_singleton]
          exact Nat.succ_le_succ (length_makeRoom erased)

theorem bounded_realloc (history : CommandHistory) (maxCommands : Nat) :
    (history.realloc maxCommands).Bounded :=
  List.length_take_le maxCommands history.commands

theorem Bounded.apply (bounded : history.Bounded) (operation : Operation) :
    (operation.apply history).Bounded := by
  cases operation with
  | add command suppressDuplicates => exact bounded.add command suppressDuplicates
  | realloc maxCommands => exact bounded_realloc history maxCommands

theorem Operation.apply_maxCommands (operation : Operation) (history : CommandHistory) :
    (operation.apply history).maxCommands = operation.limit history.maxCommands := by
  cases operation with
  | add command suppressDuplicates => exact add_maxCommands ..
  | realloc maxCommands => rfl

theorem Bounded.run (bounded : history.Bounded) (operations : List Operation) :
    (operations.foldl Operation.apply history).commands.length ≤
      operations.foldl Operation.limit history.maxCommands := by
  induction operations generalizing history with
  | nil => exact bounded
  | cons operation operations ih =>
      rw [List.foldl_cons, List.foldl_cons, ← operation.apply_maxCommands]
      exact ih (bounded.apply operation)

/-- What a history holds after it has been cleared: without suppression, the latest commands of
the log with adjacent repetitions collapsed; with it, distinct commands of which the latest is
the last; and after any operations no more than the limit in force. -/
theorem contents_of_runs (history : CommandHistory) :
    (∀ commands, (history.clearCommands.addAll false commands).commands =
      ((nonempty commands).destutter (· ≠ ·)).rtake history.maxCommands) ∧
    (∀ commands, (history.clearCommands.addAll true commands).commands.Nodup ∧
      (history.maxCommands ≠ 0 →
        (history.clearCommands.addAll true commands).commands.getLast? =
          (nonempty commands).getLast?)) ∧
    ∀ operations : List Operation,
      (operations.foldl Operation.apply history.clearCommands).commands.length ≤
        operations.foldl Operation.limit history.maxCommands := by
  refine ⟨addAll_commands history, fun commands => ?_, fun operations => ?_⟩
  · rw [addAll_commands_suppressed]
    refine ⟨(nodup_lastUse _).sublist (List.drop_sublist _ _), fun positive => ?_⟩
    obtain ⟨limit, limited⟩ := Nat.exists_eq_succ_of_ne_zero positive
    rw [limited, getLast?_rtake, getLast?_lastUse]
  · have empty : history.clearCommands.Bounded := Nat.zero_le _
    exact empty.run operations

end CommandHistory

end Conhost
