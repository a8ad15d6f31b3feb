import Conhost.Input.Repeats
import Conhost.Input.WindowKeys

/-!
# Repeated keys in line-input reads

A line-input read applies a key to the line as often as its repeat count says,
until the line is complete or the read ends; the repetitions that are left then
are lost. After a carriage return one event with U+000A is taken for the line
feed, whatever its count is.
-/

namespace Conhost

open Relation (ReflTransGen TransGen)

namespace EditLine

/-- An effect repeated as long as it lets the read go on. -/
def timesEffect (step : EditLine → Effect) : Nat → EditLine → Effect
  | 0, edit => { edit }
  | count + 1, edit =>
      let effect := step edit
      match effect.outcome with
      | .proceed =>
          let rest := timesEffect step count effect.edit
          { rest with echoes := effect.echoes ++ rest.echoes }
      | _ => effect

theorem timesEffect_of_ends {step : EditLine → Effect} {edit : EditLine} {count : Nat}
    (ends : (step edit).outcome ≠ .proceed) : timesEffect step (count + 1) edit = step edit := by
  simp only [timesEffect]

theorem timesEffect_of_proceeds {step : EditLine → Effect} {edit : EditLine} {count : Nat}
    (proceeds : (step edit).outcome = .proceed) :
    timesEffect step (count + 1) edit =
      { timesEffect step count (step edit).edit with
        echoes := (step edit).echoes ++ (timesEffect step count (step edit).edit).echoes } := by
  simp only [timesEffect, proceeds]

theorem timesEffect_idle (count : Nat) (edit : EditLine) :
    timesEffect (fun edit => { edit }) count edit = { edit } := by
  induction count with
  | zero => rfl
  | succ count hypothesis => simp [timesEffect, hypothesis]

/-- Edits that are made one after the other. -/
theorem timesEffect_of_edits {step : EditLine → Effect} {edits : Nat → EditLine → Edit}
    (once : ∀ edit, step edit = { edit := (edits 1 edit).1, echoes := (edits 1 edit).2 })
    (more : ∀ count edit, edits (count + 2) edit =
      ((edits (count + 1) (edits 1 edit).1).1,
        (edits 1 edit).2 ++ (edits (count + 1) (edits 1 edit).1).2))
    (count : Nat) (edit : EditLine) :
    timesEffect step (count + 1) edit =
      { edit := (edits (count + 1) edit).1, echoes := (edits (count + 1) edit).2 } := by
  have proceeds (edit : EditLine) : (step edit).outcome = .proceed := by rw [once]
  induction count generalizing edit with
  | zero =>
      rw [timesEffect_of_proceeds (proceeds edit), once]
      simp [timesEffect]
  | succ count hypothesis =>
      rw [timesEffect_of_proceeds (proceeds edit), hypothesis, more, once]

/-- An edit that changes nothing when it is made again. -/
theorem repeats_of_idempotent (change : EditLine → Edit)
    (again : ∀ edit, change (change edit).1 = ((change edit).1, [])) (edit : EditLine) :
    change edit = ((change (change edit).1).1, (change edit).2 ++ (change (change edit).1).2) := by
  simp [again edit]

theorem escapeKey_again (edit : EditLine) :
    escapeKey (escapeKey edit).1 = ((escapeKey edit).1, []) := by
  by_cases empty : edit.line = []
  · simp [escapeKey, empty]
  · simp [escapeKey, empty, normalizeCursor]

theorem homeKey_again (ctrl : Bool) (edit : EditLine) :
    homeKey (homeKey edit ctrl).1 ctrl = ((homeKey edit ctrl).1, []) := by
  by_cases front : edit.cursor = 0
  · simp [homeKey, front]
  · cases ctrl <;> simp [homeKey, front, normalizeCursor, moveTo]

theorem endKey_again (ctrl : Bool) (edit : EditLine) :
    endKey (endKey edit ctrl).1 ctrl = ((endKey edit ctrl).1, []) := by
  by_cases back : edit.line.length ≤ edit.cursor
  · simp [endKey, back]
  · cases ctrl with
    | true =>
        have short : edit.cursor + (edit.line.length - edit.cursor) = edit.line.length := by omega
        have least : min edit.cursor edit.line.length = edit.cursor := by omega
        simp [endKey, back, normalizeCursor, erase, short, least]
    | false => simp [endKey, back, normalizeCursor, moveTo]

theorem repeatEdit_more (step : EditLine → Option Edit) (count : Nat) (edit : EditLine) :
    repeatEdit step (count + 2) edit =
      ((repeatEdit step (count + 1) (repeatEdit step 1 edit).1).1,
        (repeatEdit step 1 edit).2 ++
          (repeatEdit step (count + 1) (repeatEdit step 1 edit).1).2) := by
  cases stepped : step edit with
  | none => simp [repeatEdit, stepped]
  | some next => simp [repeatEdit, stepped]

/-- The edits of an editing key. -/
theorem editKey_times (virtualKey : UInt16) (ctrl : Bool) :
    (∀ edit count, editKey edit virtualKey ctrl count = none) ∨
      ∃ edits : Nat → EditLine → Edit,
        (∀ edit count, editKey edit virtualKey ctrl count = some (edits count edit)) ∧
        ∀ count edit, edits (count + 2) edit =
          ((edits (count + 1) (edits 1 edit).1).1,
            (edits 1 edit).2 ++ (edits (count + 1) (edits 1 edit).1).2) := by
  simp only [editKey]
  split_ifs
  · refine .inr ⟨_, fun _ _ => rfl, fun count edit => ?_⟩
    have parity : (count + 2) % 2 = count % 2 := by omega
    have other : (count + 1) % 2 = 1 - count % 2 := by omega
    have small : count % 2 = 0 ∨ count % 2 = 1 := by omega
    rcases small with even | odd
    · simp [parity, other, even]
    · simp [parity, other, odd]
  · exact .inr ⟨_, fun _ _ => rfl, fun _ edit =>
      repeats_of_idempotent escapeKey escapeKey_again edit⟩
  · exact .inr ⟨_, fun _ _ => rfl, fun _ edit =>
      repeats_of_idempotent (fun edit => homeKey edit ctrl) (homeKey_again ctrl) edit⟩
  · exact .inr ⟨_, fun _ _ => rfl, fun _ edit =>
      repeats_of_idempotent (fun edit => endKey edit ctrl) (endKey_again ctrl) edit⟩
  · exact .inr ⟨_, fun _ _ => rfl, fun count edit => repeatEdit_more (leftStep ctrl) count edit⟩
  · exact .inr ⟨_, fun _ _ => rfl, fun count edit => repeatEdit_more (rightStep ctrl) count edit⟩
  · exact .inr ⟨_, fun _ _ => rfl, fun count edit => repeatEdit_more deleteStep count edit⟩
  · exact .inl fun _ _ => rfl

theorem handleUnits_times (processed controlZ : Bool) (unit : WChar) (count : Nat)
    (edit : EditLine) :
    handleUnits processed controlZ (List.replicate count unit) edit =
      timesEffect (handleUnits processed controlZ [unit]) count edit := by
  induction count generalizing edit with
  | zero => rfl
  | succ count hypothesis =>
      cases outcome : (edit.handleSingleUnit processed controlZ unit).outcome with
      | proceed => simp [List.replicate_succ, handleUnits, timesEffect, outcome, hypothesis]
      | endOfFile | ctrlC | ctrlBreak | newline =>
          simp [List.replicate_succ, handleUnits, timesEffect, outcome]

/-- What one press of the key does to the line. -/
def press (processed controlZ : Bool) (key : KeyEvent) (edit : EditLine) : Effect :=
  edit.handleToken processed controlZ (.keyEvent key.once)

/-- An event does to the line what as many events with a count of one do, up to the one that ends
the read. -/
theorem handleToken_times (processed controlZ : Bool) (key : KeyEvent) (edit : EditLine) :
    edit.handleToken processed controlZ (.keyEvent key) =
      timesEffect (press processed controlZ key) key.count edit := by
  change _ = timesEffect (fun edit => edit.handleToken processed controlZ (.keyEvent key.once))
    key.count edit
  have down : key.once.keyDown = key.keyDown := rfl
  have isBreak : key.once.matchesCtrlBreak = key.matchesCtrlBreak := rfl
  have isC : key.once.matchesCtrlC = key.matchesCtrlC := rfl
  have code : key.once.virtualKeyCode = key.virtualKeyCode := rfl
  have held : key.once.controlKeyState = key.controlKeyState := rfl
  have unit : key.once.unicodeChar = key.unicodeChar := rfl
  have single : max 1 key.once.repeatCount.toNat = 1 := rfl
  have times : max 1 key.repeatCount.toNat = key.count := rfl
  rcases Nat.exists_eq_succ_of_ne_zero (Nat.ne_of_gt key.count_pos) with ⟨fewer, count⟩
  simp only [handleToken, down, isBreak, isC, code, held, unit, single, times]
  by_cases up : (!key.keyDown) = true
  · simp only [up, if_true]
    exact (timesEffect_idle key.count edit).symm
  simp only [up, Bool.false_eq_true, if_false]
  by_cases isBreak : (processed && key.matchesCtrlBreak) = true
  · simp only [isBreak, if_true]
    have ends : timesEffect (fun edit => { edit, outcome := .ctrlBreak }) (fewer + 1) edit =
        { edit, outcome := .ctrlBreak } := timesEffect_of_ends (by simp)
    rw [count]
    exact ends.symm
  simp only [isBreak, Bool.false_eq_true, if_false]
  by_cases isC : (processed && key.matchesCtrlC) = true
  · simp only [isC, if_true]
    have ends : timesEffect (fun edit => { edit, outcome := .ctrlC }) (fewer + 1) edit =
        { edit, outcome := .ctrlC } := timesEffect_of_ends (by simp)
    rw [count]
    exact ends.symm
  simp only [isC, Bool.false_eq_true, if_false]
  rcases editKey_times key.virtualKeyCode (key.controlKeyState &&& 0x000c != 0) with none |
    ⟨edits, some, more⟩
  · simp only [none]
    by_cases untyped : key.unicodeChar = 0
    · simp only [untyped, if_true]
      exact (timesEffect_idle key.count edit).symm
    · simp only [untyped, if_false]
      exact handleUnits_times processed controlZ key.unicodeChar key.count edit
  · simp only [some]
    rw [count]
    exact (timesEffect_of_edits (fun _ => rfl) more fewer edit).symm

theorem handleUnits_singleton (processed controlZ : Bool) (value : WChar) (edit : EditLine) :
    handleUnits processed controlZ [value] edit =
      edit.handleSingleUnit processed controlZ value := by
  rw [handleUnits]
  generalize edit.handleSingleUnit processed controlZ value = effect
  rcases effect with ⟨edit, echoes, outcome⟩
  cases outcome <;> simp [handleUnits]

variable {processed controlZ : Bool} {key : KeyEvent} {edit : EditLine}

theorem press_up (up : key.keyDown = false) : press processed controlZ key edit = { edit } := by
  have up' : (!key.once.keyDown) = true := by
    change (!key.keyDown) = true
    rw [up]
    rfl
  rw [press, handleToken, if_pos up']

theorem press_down (down : key.keyDown = true) :
    press processed controlZ key edit =
      if processed && key.matchesCtrlBreak then { edit, outcome := .ctrlBreak }
      else if processed && key.matchesCtrlC then { edit, outcome := .ctrlC }
      else
        match edit.editKey key.virtualKeyCode (key.controlKeyState &&& 0x000c != 0) 1 with
        | some (next, echoes) => { edit := next, echoes }
        | none =>
            if key.unicodeChar = 0 then { edit }
            else edit.handleSingleUnit processed controlZ key.unicodeChar := by
  have one : max 1 key.once.repeatCount.toNat = 1 := rfl
  have down' : ¬(!key.once.keyDown) = true := by
    change ¬(!key.keyDown) = true
    rw [down]
    decide
  simp only [press, handleToken, one, if_neg down', List.replicate_one, handleUnits_singleton]
  rfl

/-- The presses that end a read without data. -/
def Silent (outcome : Outcome) : Prop := outcome = .endOfFile ∨ outcome = .ctrlC

/-- A unit that ends the read without data changes nothing. -/
theorem handleSingleUnit_again {value : WChar} (normalized : edit.Normalized) {outcome : Outcome}
    (ends : (edit.handleSingleUnit processed controlZ value).outcome = outcome)
    (silent : Silent outcome) :
    edit.handleSingleUnit processed controlZ value = { edit, outcome } := by
  simp only [handleSingleUnit, normalized.normalizeCursor_eq] at ends ⊢
  by_cases endOfFile : (controlZ && edit.line.isEmpty && value == 0x1a) = true
  · rw [if_pos endOfFile] at ends ⊢
    rw [← ends]
  · rw [if_neg endOfFile] at ends ⊢
    by_cases ctrlC : (processed && value == 3) = true
    · rw [if_pos ctrlC] at ends ⊢
      rw [← ends]
    · exfalso
      rw [if_neg ctrlC] at ends
      subst ends
      simp only [backspace, insertUnit] at silent
      split_ifs at silent <;> simp [Silent] at silent

/-- So does a press. -/
theorem press_again (normalized : edit.Normalized) {outcome : Outcome}
    (ends : (press processed controlZ key edit).outcome = outcome) (silent : Silent outcome) :
    press processed controlZ key edit = { edit, outcome } := by
  cases down : key.keyDown with
  | false =>
      rw [press_up down] at ends ⊢
      rw [← ends]
  | true =>
      rw [press_down down] at ends ⊢
      by_cases isBreak : (processed && key.matchesCtrlBreak) = true
      · rw [if_pos isBreak] at ends ⊢
        rw [← ends]
      · rw [if_neg isBreak] at ends ⊢
        by_cases isC : (processed && key.matchesCtrlC) = true
        · rw [if_pos isC] at ends ⊢
          rw [← ends]
        · rw [if_neg isC] at ends ⊢
          cases edited : edit.editKey key.virtualKeyCode
            (key.controlKeyState &&& 0x000c != 0) 1 with
          | some next =>
              rw [edited] at ends
              subst ends
              simp [Silent] at silent
          | none =>
              simp only [edited] at ends ⊢
              by_cases untyped : key.unicodeChar = 0
              · rw [if_pos untyped] at ends ⊢
                rw [← ends]
              · rw [if_neg untyped] at ends ⊢
                exact handleSingleUnit_again normalized ends silent

/-- However often it is pressed, the key leaves an empty line as it is: it turns the insert mode
over and back, if at all, or it only raises alerts. -/
def LeavesEmpty (processed controlZ : Bool) (key : KeyEvent) (count : Nat) : Prop :=
  count = 0 ∨
    (∀ mode, press processed controlZ key ⟨[], 0, mode⟩ =
      { edit := ⟨[], 0, mode⟩, outcome := .ctrlC }) ∨
    ∃ turn : Bool → Bool,
      (∀ mode, press processed controlZ key ⟨[], 0, mode⟩ = { edit := ⟨[], 0, turn mode⟩ }) ∧
        ∀ mode, turn^[count] mode = mode

end EditLine

namespace KeyEvent

/-- The keys that edit the line whatever their character is. -/
def editsLine (key : KeyEvent) : Bool :=
  [VtInput.vkInsert, 0x1b, VtInput.vkHome, VtInput.vkEnd, VtInput.vkLeft, VtInput.vkRight,
    VtInput.vkDelete].contains key.virtualKeyCode

theorem ne_vkInsert (key : KeyEvent) (other : key.editsLine = false) :
    key.virtualKeyCode ≠ VtInput.vkInsert := by
  intro insert
  simp [editsLine, insert] at other

/-- The key completes no line, and what is left of its repetitions when it is taken for a line feed
at the end of one makes no difference, or it is pressed once. -/
def LineHonours (processed : Bool) (key : KeyEvent) : Prop :=
  key.count = 1 ∨
    if processed && key.matchesCtrlBreak then key.unicodeChar ≠ 10
    else if processed && key.matchesCtrlC then True
    else if key.virtualKeyCode = VtInput.vkInsert then key.unicodeChar ≠ 10 ∨ key.count % 2 = 1
    else if key.editsLine then True
    else key.unicodeChar ≠ 13 ∧ key.unicodeChar ≠ 10

end KeyEvent

namespace EditLine

variable {processed controlZ : Bool} {key : KeyEvent} {edit : EditLine}

theorem editKey_eq_none (other : key.editsLine = false) (edit : EditLine) (ctrl : Bool)
    (count : Nat) : edit.editKey key.virtualKeyCode ctrl count = none := by
  simp only [KeyEvent.editsLine, List.contains_cons, Bool.or_eq_false_iff, beq_eq_false_iff_ne,
    List.contains_nil] at other
  simp only [editKey]
  rw [if_neg other.1, if_neg other.2.1, if_neg other.2.2.1, if_neg other.2.2.2.1,
    if_neg other.2.2.2.2.1, if_neg other.2.2.2.2.2.1, if_neg other.2.2.2.2.2.2.1]

theorem editKey_eq_some (edits : key.editsLine = true) (edit : EditLine) (ctrl : Bool)
    (count : Nat) : ∃ next, edit.editKey key.virtualKeyCode ctrl count = some next := by
  simp only [editKey]
  split_ifs
  any_goals exact ⟨_, rfl⟩
  rename_i insert escape home last left right delete
  simp [KeyEvent.editsLine, insert, escape, home, last, left, right, delete] at edits

/-- An editing key leaves an empty line empty. -/
theorem editKey_empty (edits : key.editsLine = true) (mode ctrl : Bool) :
    (⟨[], 0, mode⟩ : EditLine).editKey key.virtualKeyCode ctrl 1 =
      some (⟨[], 0, if key.virtualKeyCode = VtInput.vkInsert then !mode else mode⟩, []) := by
  simp only [KeyEvent.editsLine, List.contains_cons, List.contains_nil, Bool.or_eq_true,
    beq_iff_eq] at edits
  by_cases insert : key.virtualKeyCode = VtInput.vkInsert
  · simp [editKey, insert]
  · simp only [editKey, if_neg insert]
    rcases edits with code | code | code | code | code | code | code | none
    · exact absurd code insert
    · rw [if_pos code]
      rfl
    · rw [code]
      rfl
    · rw [code]
      rfl
    · rw [code]
      rfl
    · rw [code]
      rfl
    · rw [code]
      rfl
    · cases none

theorem newline_of_handleSingleUnit {carriageReturn : Bool} {value : WChar}
    (ends : (edit.handleSingleUnit processed controlZ value).outcome = .newline carriageReturn) :
    value = 13 ∨ value = 10 := by
  simp only [handleSingleUnit, backspace, insertUnit] at ends
  split_ifs at ends
  assumption

/-- A key whose count is honoured is pressed once or completes no line. -/
theorem completes_none (honours : key.LineHonours processed) :
    key.count ≤ 1 ∨ ∀ edit carriageReturn,
      (press processed controlZ key edit).outcome ≠ .newline carriageReturn := by
  rcases honours with once | honours
  · exact .inl once.le
  · right
    intro edit carriageReturn ends
    cases down : key.keyDown with
    | false =>
        rw [press_up down] at ends
        cases ends
    | true =>
        rw [press_down down] at ends
        by_cases isBreak : (processed && key.matchesCtrlBreak) = true
        · rw [if_pos isBreak] at ends
          cases ends
        · rw [if_neg isBreak] at honours ends
          by_cases isC : (processed && key.matchesCtrlC) = true
          · rw [if_pos isC] at ends
            cases ends
          · rw [if_neg isC] at honours ends
            cases edits : key.editsLine with
            | true =>
                obtain ⟨next, edited⟩ := editKey_eq_some edits edit
                  (key.controlKeyState &&& 0x000c != 0) 1
                rw [edited] at ends
                cases ends
            | false =>
                rw [if_neg (key.ne_vkInsert edits), edits] at honours
                rw [editKey_eq_none edits] at ends
                simp only at ends
                split at ends
                · cases ends
                · rcases newline_of_handleSingleUnit ends with cr | lf
                  · exact honours.1 cr
                  · exact honours.2 lf

/-- What is left of its presses, if the first has been taken for a line feed, does nothing. -/
theorem leavesEmpty (honours : key.LineHonours processed) (down : key.keyDown = true)
    (typed : key.unicodeChar = 10) : LeavesEmpty processed controlZ key (key.count - 1) := by
  rcases honours with once | honours
  · exact .inl (by rw [once])
  · right
    by_cases isBreak : (processed && key.matchesCtrlBreak) = true
    · rw [if_pos isBreak] at honours
      exact absurd typed honours
    · rw [if_neg isBreak] at honours
      by_cases isC : (processed && key.matchesCtrlC) = true
      · left
        intro mode
        rw [press_down down, if_neg isBreak, if_pos isC]
      · rw [if_neg isC] at honours
        have edits : key.editsLine = true := by
          by_contra none
          rw [Bool.not_eq_true] at none
          rw [if_neg (key.ne_vkInsert none), none] at honours
          exact honours.2 typed
        refine .inr ⟨fun mode =>
          if key.virtualKeyCode = VtInput.vkInsert then !mode else mode, ?_, ?_⟩
        · intro mode
          rw [press_down down, if_neg isBreak, if_neg isC, editKey_empty edits]
        · intro mode
          by_cases insert : key.virtualKeyCode = VtInput.vkInsert
          · rw [if_pos insert] at honours
            have odd : key.count % 2 = 1 := honours.resolve_left fun other => other typed
            have even : Even (key.count - 1) := by
              rw [Nat.even_iff]
              omega
            simp only [if_pos insert]
            exact congrFun (Bool.involutive_not.iterate_even even) mode
          · simp only [if_neg insert]
            exact Function.iterate_fixed rfl _

end EditLine

end Conhost
