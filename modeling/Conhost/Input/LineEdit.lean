import Conhost.Input.Handle

/-!
# The line editor

The editing part of a line-input `ReadConsole`. Every key or character changes
the line, its cursor and the insert mode, and echoes some texts. What is echoed
depends on the line only, so an edit is a function to the edited line and the
list of texts to echo, one for each call of `echo_text`.

In the source some echoes precede the assignment of the cursor. The order can
be seen only after an echo has failed, and a failed echo ends the server.
-/

namespace Conhost

/-- The line being edited (`cooked_line_in_progress`, `cooked_line_cursor`,
`cooked_insert_mode`). -/
structure EditLine where
  line : List WChar := []
  cursor : Nat := 0
  insertMode : Bool := true
deriving DecidableEq, Repr

namespace EditLine

def unitAt (edit : EditLine) (index : Nat) : WChar := edit.line.getD index 0

def normalizeCursor (edit : EditLine) : EditLine :=
  let cursor := min edit.cursor edit.line.length
  if cursor ≠ 0 ∧ cursor < edit.line.length ∧ isLowSurrogate (edit.unitAt cursor) ∧
      isHighSurrogate (edit.unitAt (cursor - 1)) then
    { edit with cursor := cursor - 1 }
  else { edit with cursor := cursor }

def prevIndex (edit : EditLine) (index : Nat) : Nat :=
  let previous := index - 1
  if previous ≠ 0 ∧ isLowSurrogate (edit.unitAt previous) ∧
      isHighSurrogate (edit.unitAt (previous - 1)) then previous - 1
  else previous

def nextIndex (edit : EditLine) (index : Nat) : Nat :=
  if edit.line.length ≤ index then edit.line.length
  else if index + 1 < edit.line.length ∧ isHighSurrogate (edit.unitAt index) ∧
      isLowSurrogate (edit.unitAt (index + 1)) then index + 2
  else index + 1

def isWordDelimiter (edit : EditLine) (index : Nat) : Bool :=
  index < edit.line.length && (edit.unitAt index == wc ' ' || edit.unitAt index == wc '\t')

/-- Steps back over the units before `position` as long as they are (or are not) delimiters. -/
def backWhile (edit : EditLine) (delimiter : Bool) : (fuel : Nat) → (position : Nat) → Nat
  | 0, position => position
  | fuel + 1, position =>
      if position = 0 then 0
      else if edit.isWordDelimiter (edit.prevIndex position) == delimiter then
        edit.backWhile delimiter fuel (edit.prevIndex position)
      else position

/-- Steps forward over the units from `position` on as long as they are (or are not) delimiters. -/
def forwardWhile (edit : EditLine) (delimiter : Bool) : (fuel : Nat) → (position : Nat) → Nat
  | 0, position => position
  | fuel + 1, position =>
      if edit.line.length ≤ position then position
      else if edit.isWordDelimiter position == delimiter then
        edit.forwardWhile delimiter fuel (edit.nextIndex position)
      else position

def wordPrev (edit : EditLine) (index : Nat) : Nat :=
  edit.backWhile false index (edit.backWhile true index index)

def wordNext (edit : EditLine) (index : Nat) : Nat :=
  edit.forwardWhile true edit.line.length (edit.forwardWhile false edit.line.length index)

/-- `line.erase(from, count)` -/
def erase (edit : EditLine) (start count : Nat) : EditLine :=
  { edit with line := edit.line.take start ++ edit.line.drop (start + count) }

def moveTo (edit : EditLine) (cursor : Nat) : EditLine := { edit with cursor := cursor }

/-- `echo_repeat`: runs of at most 64 units. -/
def echoRepeat (unit : WChar) (count : Nat) : List (List WChar) :=
  List.replicate (count / 64) (List.replicate 64 unit) ++ [List.replicate (count % 64) unit]

def echoBackspaces (count : Nat) : List (List WChar) := echoRepeat 8 count

def echoSpaces (count : Nat) : List (List WChar) := echoRepeat (wc ' ') count

def echoRange (edit : EditLine) (start stop : Nat) : List (List WChar) :=
  if stop ≤ start ∨ edit.line.length < stop then []
  else [(edit.line.take stop).drop start]

abbrev Edit := EditLine × List (List WChar)

/-- An edit repeated as long as it applies. -/
def repeatEdit (step : EditLine → Option Edit) : Nat → EditLine → Edit
  | 0, edit => (edit, [])
  | count + 1, edit =>
      match step edit with
      | none => (edit, [])
      | some (next, echoes) =>
          let later := repeatEdit step count next
          (later.1, echoes ++ later.2)

def escapeKey (edit : EditLine) : Edit :=
  if edit.line = [] then (edit, [])
  else
    (({ edit with line := [], cursor := 0 } : EditLine).normalizeCursor,
      echoBackspaces edit.cursor ++ echoSpaces edit.line.length ++ echoBackspaces edit.line.length)

def homeKey (edit : EditLine) (ctrl : Bool) : Edit :=
  if edit.cursor = 0 then (edit, [])
  else if ctrl then
    let next := ((edit.erase 0 edit.cursor).moveTo 0).normalizeCursor
    (next, echoBackspaces edit.cursor ++ next.echoRange 0 next.line.length ++
      echoSpaces edit.cursor ++ echoBackspaces (next.line.length + edit.cursor))
  else ((edit.moveTo 0).normalizeCursor, echoBackspaces edit.cursor)

def endKey (edit : EditLine) (ctrl : Bool) : Edit :=
  if edit.line.length ≤ edit.cursor then (edit, [])
  else if ctrl then
    let removed := edit.line.length - edit.cursor
    ((edit.erase edit.cursor removed).normalizeCursor, echoSpaces removed ++ echoBackspaces removed)
  else
    ((edit.moveTo edit.line.length).normalizeCursor,
      edit.echoRange edit.cursor edit.line.length)

def leftStep (ctrl : Bool) (edit : EditLine) : Option Edit :=
  if edit.cursor = 0 then none
  else
    let cursor := if ctrl then edit.wordPrev edit.cursor else edit.prevIndex edit.cursor
    some ((edit.moveTo cursor).normalizeCursor, echoBackspaces (edit.cursor - cursor))

def rightStep (ctrl : Bool) (edit : EditLine) : Option Edit :=
  if edit.line.length ≤ edit.cursor then none
  else
    let cursor := if ctrl then edit.wordNext edit.cursor else edit.nextIndex edit.cursor
    some ((edit.moveTo cursor).normalizeCursor, edit.echoRange edit.cursor cursor)

def deleteStep (edit : EditLine) : Option Edit :=
  if edit.line.length ≤ edit.cursor then none
  else
    let removed := edit.nextIndex edit.cursor - edit.cursor
    let next := (edit.erase edit.cursor removed).normalizeCursor
    some (next, next.echoRange next.cursor next.line.length ++ echoSpaces removed ++
      echoBackspaces (next.line.length - next.cursor + removed))

/-- The keys that edit the line; any other key counts by its character. -/
def editKey (edit : EditLine) (virtualKey : UInt16) (ctrl : Bool) (count : Nat) : Option Edit :=
  if virtualKey = VtInput.vkInsert then
    some (if count % 2 = 1 then { edit with insertMode := !edit.insertMode } else edit, [])
  else if virtualKey = 0x1b then some edit.escapeKey
  else if virtualKey = VtInput.vkHome then some (edit.homeKey ctrl)
  else if virtualKey = VtInput.vkEnd then some (edit.endKey ctrl)
  else if virtualKey = VtInput.vkLeft then some (repeatEdit (leftStep ctrl) count edit)
  else if virtualKey = VtInput.vkRight then some (repeatEdit (rightStep ctrl) count edit)
  else if virtualKey = VtInput.vkDelete then some (repeatEdit deleteStep count edit)
  else none

/-- What a token does to the read apart from editing and echoing. -/
inductive Outcome where
  | proceed
  | endOfFile
  | ctrlC
  | ctrlBreak
  /-- The line is complete; after a carriage return a line feed is looked for. -/
  | newline (carriageReturn : Bool)
deriving DecidableEq, Repr

/-- An edited line, the texts to echo and what follows. -/
structure Effect where
  edit : EditLine
  echoes : List (List WChar) := []
  outcome : Outcome := .proceed
deriving DecidableEq, Repr

def backspace (edit : EditLine) : Effect :=
  if edit.cursor = 0 then { edit }
  else
    let cursor := edit.prevIndex edit.cursor
    let removed := edit.cursor - cursor
    let next := ((edit.erase cursor removed).moveTo cursor).normalizeCursor
    { edit := next
      echoes := echoBackspaces removed ++
        (if next.cursor < next.line.length then
          next.echoRange next.cursor next.line.length ++ echoSpaces removed ++
            echoBackspaces (next.line.length - next.cursor + removed)
        else echoSpaces removed ++ echoBackspaces removed) }

def insertUnit (edit : EditLine) (value : WChar) : Effect :=
  let removed :=
    if !edit.insertMode && edit.cursor < edit.line.length then
      edit.nextIndex edit.cursor - edit.cursor
    else 0
  let line := edit.line.take edit.cursor ++ value :: edit.line.drop (edit.cursor + removed)
  let next := ({ edit with line := line, cursor := edit.cursor + 1 } : EditLine).normalizeCursor
  let tail := next.line.length - next.cursor
  let clear := removed - 1
  { edit := next
    echoes := [value] :: next.echoRange next.cursor next.line.length ++ echoSpaces clear ++
      echoBackspaces (tail + clear) }

/-- `handle_single_unit`, up to the look-ahead for a line feed. -/
def handleSingleUnit (processed controlZ : Bool) (edit : EditLine) (value : WChar) : Effect :=
  let edit := edit.normalizeCursor
  if controlZ && edit.line.isEmpty && value == 0x1a then { edit, outcome := .endOfFile }
  else if processed && value == 3 then { edit, outcome := .ctrlC }
  else if value = 8 then edit.backspace
  else if value = 13 ∨ value = 10 then
    { edit := edit.moveTo edit.line.length
      echoes := edit.echoRange edit.cursor edit.line.length
      outcome := .newline (value == 13) }
  else edit.insertUnit value

/-- Units handled one after the other until one ends the read. -/
def handleUnits (processed controlZ : Bool) : List WChar → EditLine → Effect
  | [], edit => { edit }
  | value :: later, edit =>
      let effect := edit.handleSingleUnit processed controlZ value
      match effect.outcome with
      | .proceed =>
          let rest := handleUnits processed controlZ later effect.edit
          { rest with echoes := effect.echoes ++ rest.echoes }
      | _ => effect

/-- What a token does to the line. -/
def handleToken (processed controlZ : Bool) (edit : EditLine) : Token → Effect
  | .ignoredSequence => { edit }
  | .textUnits chars => handleUnits processed controlZ chars edit
  | .keyEvent key =>
      if !key.keyDown then { edit }
      else if processed && key.matchesCtrlBreak then { edit, outcome := .ctrlBreak }
      else if processed && key.matchesCtrlC then { edit, outcome := .ctrlC }
      else
        let count := max 1 key.repeatCount.toNat
        match edit.editKey key.virtualKeyCode (key.controlKeyState &&& 0x000c != 0) count with
        | some (next, echoes) => { edit := next, echoes }
        | none =>
            if key.unicodeChar = 0 then { edit }
            else handleUnits processed controlZ (List.replicate count key.unicodeChar) edit

/-- The cursor lies in the line and not inside a surrogate pair. -/
structure Normalized (edit : EditLine) : Prop where
  inside : edit.cursor ≤ edit.line.length
  whole : ¬(edit.cursor ≠ 0 ∧ edit.cursor < edit.line.length ∧
    isLowSurrogate (edit.unitAt edit.cursor) = true ∧
      isHighSurrogate (edit.unitAt (edit.cursor - 1)) = true)

theorem Normalized.normalizeCursor_eq {edit : EditLine} (normalized : edit.Normalized) :
    edit.normalizeCursor = edit := by
  simp only [normalizeCursor, Nat.min_eq_left normalized.inside]
  rw [if_neg normalized.whole]

theorem normalizeCursor_normalized (edit : EditLine) : edit.normalizeCursor.Normalized := by
  simp only [normalizeCursor]
  split
  · rename_i split
    refine ⟨?_, ?_⟩
    · simp only
      omega
    · rintro ⟨-, -, low, -⟩
      exact not_low_of_high split.2.2.2 low
  · rename_i whole
    exact ⟨Nat.min_le_right _ _, whole⟩

theorem Normalized.setInsertMode {edit : EditLine} (normalized : edit.Normalized)
    (insertMode : Bool) : ({ edit with insertMode := insertMode } : EditLine).Normalized :=
  ⟨normalized.inside, normalized.whole⟩

theorem normalized_atEnd (line : List WChar) (insertMode : Bool) :
    (⟨line, line.length, insertMode⟩ : EditLine).Normalized := by
  refine ⟨le_rfl, ?_⟩
  rintro ⟨-, beyond, -⟩
  exact Nat.lt_irrefl _ beyond

theorem repeatEdit_normalized {step : EditLine → Option Edit}
    (keeps : ∀ edit next, step edit = some next → next.1.Normalized) (count : Nat)
    {edit : EditLine} (normalized : edit.Normalized) :
    (repeatEdit step count edit).1.Normalized := by
  induction count generalizing edit with
  | zero => exact normalized
  | succ count hypothesis =>
      simp only [repeatEdit]
      split
      · exact normalized
      · rename_i next echoes stepped
        exact hypothesis (keeps edit _ stepped)

theorem normalized_fst (edit : EditLine) (echoes : List (List WChar)) :
    ((edit.normalizeCursor, echoes) : Edit).1.Normalized :=
  normalizeCursor_normalized edit

theorem step_normalized {condition : Prop} [Decidable condition] {moved : EditLine}
    {echoes : List (List WChar)} {next : Edit}
    (stepped : (if condition then none else some (moved.normalizeCursor, echoes)) = some next) :
    next.1.Normalized := by
  split at stepped
  · cases stepped
  · cases stepped
    exact normalized_fst _ _

theorem editKey_normalized {edit : EditLine} {virtualKey : UInt16} {ctrl : Bool} {count : Nat}
    {next : Edit} (normalized : edit.Normalized)
    (edited : edit.editKey virtualKey ctrl count = some next) : next.1.Normalized := by
  simp only [editKey] at edited
  split at edited
  · cases edited
    split
    · exact normalized.setInsertMode _
    · exact normalized
  · split at edited
    · cases edited
      simp only [escapeKey]
      split
      · exact normalized
      · exact normalized_fst _ _
    · split at edited
      · cases edited
        simp only [homeKey]
        split
        · exact normalized
        · split <;> exact normalized_fst _ _
      · split at edited
        · cases edited
          simp only [endKey]
          split
          · exact normalized
          · split <;> exact normalized_fst _ _
        · split at edited
          · cases edited
            exact repeatEdit_normalized (fun _ _ stepped => step_normalized stepped) _ normalized
          · split at edited
            · cases edited
              exact repeatEdit_normalized (fun _ _ stepped => step_normalized stepped) _ normalized
            · split at edited
              · cases edited
                exact repeatEdit_normalized
                  (fun _ _ stepped => step_normalized stepped) _ normalized
              · cases edited

theorem handleSingleUnit_normalized (processed controlZ : Bool) (edit : EditLine) (value : WChar) :
    (edit.handleSingleUnit processed controlZ value).edit.Normalized := by
  have normalized := normalizeCursor_normalized edit
  simp only [handleSingleUnit]
  split
  · exact normalized
  · split
    · exact normalized
    · split
      · simp only [backspace]
        split
        · exact normalized
        · exact normalizeCursor_normalized _
      · split
        · exact normalized_atEnd _ _
        · exact normalizeCursor_normalized _

theorem handleUnits_normalized {processed controlZ : Bool} (values : List WChar) {edit : EditLine}
    (normalized : edit.Normalized) :
    (edit.handleUnits processed controlZ values).edit.Normalized := by
  induction values generalizing edit with
  | nil => exact normalized
  | cons value later hypothesis =>
      have handled := handleSingleUnit_normalized processed controlZ edit value
      simp only [handleUnits]
      split
      · exact hypothesis handled
      · exact handled

/-- Every token leaves the cursor normalized. -/
theorem Normalized.handleToken {edit : EditLine} (normalized : edit.Normalized)
    (processed controlZ : Bool) (token : Token) :
    (edit.handleToken processed controlZ token).edit.Normalized := by
  cases token with
  | ignoredSequence => exact normalized
  | textUnits chars => exact handleUnits_normalized chars normalized
  | keyEvent key =>
      simp only [EditLine.handleToken]
      split
      · exact normalized
      · split
        · exact normalized
        · split
          · exact normalized
          · split
            · rename_i next echoes edited
              exact editKey_normalized normalized edited
            · split
              · exact normalized
              · exact handleUnits_normalized _ normalized

end EditLine

end Conhost
