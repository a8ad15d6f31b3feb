import Conhost.Screen.OutputInvariant
import Conhost.Screen.Drawing

/-!
# Splitting text into several calls

A call works on local copies of the registers, so a text written by two calls
passes through a commit and a reload that one call does not have. This module
compares both with the `Terminal`, a machine that has one copy of every
register and consumes one character after the other.

Only a switch of screens looks at the committed registers while a call runs.
`OutputCall.Coherent` says that a character finds everything it looks at in
step with the local copies. Under it a call refines the terminal, and since the
terminal has no calls, it does not matter where the text was cut.
-/

namespace Conhost

namespace OutputCall

/-- Two states of the character loop that differ at most in what the terminal does
not have: the committed registers, the window, the revision and the replies. The
size and the default attributes are those the call started with, and so are the
committed modes that are never written while it runs; the local margins are the
committed ones. -/
structure Agrees (call : OutputCall) (original : VtRegisters) (left right : OutputState) :
    Prop where
  core : left.buffer.toScreenCore = right.buffer.toScreenCore
  regs : left.regs = right.regs
  margins : left.margins = right.margins
  title : left.title = right.title
  size : right.buffer.bufferSize = call.bufferSize
  defaults : right.buffer.defaultTextAttributes = call.defaultAttributes
  mirror : right.margins = right.buffer.vtVerticalMargins
  autowrap : left.buffer.regs.autowrap = original.autowrap
  insertMode : left.buffer.regs.insertMode = original.insertMode

variable {call : OutputCall} {original : VtRegisters} {left right : OutputState}

namespace Agrees

theorem lockstep : Lockstep call (call.Agrees original) where
  regs agree := agree.regs
  margins agree := agree.margins
  colorTable agree := by rw [agree.core]
  saved agree := by rw [agree.core]
  setRegs regs agree :=
    ⟨agree.core, rfl, agree.margins, agree.title, agree.size, agree.defaults, agree.mirror,
      agree.autowrap, agree.insertMode⟩
  deviceStatusReport csi agree := by
    unfold OutputCall.deviceStatusReport
    split
    · exact ⟨agree.core, agree.regs, agree.margins, agree.title, agree.size, agree.defaults,
        agree.mirror, agree.autowrap, agree.insertMode⟩
    · exact agree
  update := by
    intro left right α operation draws agree
    have frames := draws.frames right.buffer.toScreenCore
    refine ⟨?_, agree.regs, agree.margins, agree.title, frames.size.trans agree.size,
      frames.defaults.trans agree.defaults, agree.mirror.trans frames.margins.symm,
      agree.autowrap, agree.insertMode⟩
    exact congrArg (fun core => (operation core).core) agree.core
  setVtVerticalMargins margins agree :=
    ⟨congrArg (fun core => (core.setVtVerticalMargins margins).core) agree.core, agree.regs, rfl,
      agree.title, agree.size, agree.defaults, rfl, agree.autowrap, agree.insertMode⟩
  saveCursorState position attributes delayed origin agree :=
    ⟨congrArg (fun core => (core.saveCursorState position attributes delayed origin).core)
      agree.core, agree.regs, agree.margins, agree.title, agree.size, agree.defaults,
      agree.mirror, agree.autowrap, agree.insertMode⟩

theorem parse (agree : call.Agrees original left right)
    (change : VtOutputParseState → VtOutputParseState) :
    call.Agrees original (left.parse change) (right.parse change) := by
  refine ⟨?_, agree.regs, agree.margins, agree.title, agree.size, agree.defaults, agree.mirror,
    agree.autowrap, agree.insertMode⟩
  simp only [OutputState.parse, agree.core]

theorem ite {condition : Prop} [Decidable condition] {left' right' : OutputState}
    (whenTrue : call.Agrees original left right) (whenFalse : call.Agrees original left' right') :
    call.Agrees original (if condition then left else left')
      (if condition then right else right') :=
  lockstep.ite whenTrue whenFalse

theorem finishOsc (agree : call.Agrees original left right) :
    call.Agrees original (finishOsc left) (finishOsc right) := by
  unfold OutputCall.finishOsc
  rw [agree.core]
  apply parse
  refine ite ⟨agree.core, agree.regs, agree.margins, ?_, agree.size, agree.defaults,
    agree.mirror, agree.autowrap, agree.insertMode⟩ agree
  rw [agree.title]

end Agrees

/-- A parameter other than 1049 leaves the committed registers and the backup alone. -/
theorem setModeParam_frame (call : OutputCall) (state : OutputState)
    (privateMarker enable : Bool) {param : Nat} (noSwitch : param ≠ 1049) :
    (call.setModeParam privateMarker enable state param).buffer.regs = state.buffer.regs ∧
      (call.setModeParam privateMarker enable state param).buffer.vtMainBackup =
        state.buffer.vtMainBackup := by
  unfold setModeParam
  split
  · exact ⟨rfl, rfl⟩
  · split
    · exact ⟨rfl, rfl⟩
    · split
      · exact ⟨rfl, rfl⟩
      · split
        · exact ⟨rfl, rfl⟩
        · exact ⟨rfl, rfl⟩

/-- The registers a switch of screens reads from the buffer: all of them when it
enters the alternate screen, none when it returns to the main one, and all but the
delayed wrap when there is nothing to switch. -/
def InStep (enable : Bool) (backup : Option VtAlternateBufferBackup)
    (committed regs : VtRegisters) : Prop :=
  enable = true ∨ backup = none →
    committed.cursor = regs.cursor ∧ committed.attributes = regs.attributes ∧
      committed.originMode = regs.originMode ∧
      (enable = true → backup = none → committed.delayedWrap = regs.delayedWrap)

instance (enable : Bool) (backup : Option VtAlternateBufferBackup)
    (committed regs : VtRegisters) : Decidable (InStep enable backup committed regs) :=
  inferInstanceAs (Decidable (_ → _ ∧ _ ∧ _ ∧ (_ → _ → _)))

/-- Returning to the main screen keeps the default attributes. -/
def KeepsDefaults (enable : Bool) (backup : Option VtAlternateBufferBackup)
    (defaults : Attributes) : Prop :=
  enable = false → ∀ saved ∈ backup, saved.defaultTextAttributes = defaults

/-- Agreement that also covers what a sequence of mode parameters reads from the
buffer. -/
structure ModeAgrees (call : OutputCall) (original : VtRegisters) (enable : Bool)
    (left right : OutputState) : Prop where
  agrees : call.Agrees original left right
  inStep : InStep enable right.buffer.vtMainBackup left.buffer.regs right.buffer.regs
  keeps : KeepsDefaults enable right.buffer.vtMainBackup call.defaultAttributes

namespace ModeAgrees

variable {enable : Bool}

theorem switchScreen (agree : call.ModeAgrees original enable left right) :
    call.ModeAgrees original enable (switchScreen enable left) (switchScreen enable right) := by
  have core := agree.agrees.core
  have regs := agree.agrees.regs
  have inStep := agree.inStep
  have keeps := agree.keeps
  have backups : left.buffer.vtMainBackup = right.buffer.vtMainBackup := by rw [core]
  unfold OutputCall.switchScreen ScreenBuffer.setVtUsingAlternateScreenBuffer
  cases enable with
  | true =>
      cases backup : right.buffer.vtMainBackup with
      | none =>
          rw [backup] at backups inStep
          obtain ⟨cursor, attributes, origin, delayed⟩ := inStep (.inl rfl)
          rw [backups]
          refine ⟨⟨?_, ?_, rfl, agree.agrees.title, agree.agrees.size, agree.agrees.defaults,
            rfl, agree.agrees.autowrap, agree.agrees.insertMode⟩, ?_, ?_⟩
          · simp only [ScreenBuffer.touch, core, cursor, attributes, origin, delayed rfl rfl, regs]
          · simp only [ScreenBuffer.touch, attributes, origin, regs]
          · exact fun _ => ⟨rfl, attributes, origin, fun _ none => by cases none⟩
          · intro isFalse
            cases isFalse
      | some saved =>
          rw [backup] at backups inStep
          obtain ⟨cursor, attributes, origin, _⟩ := inStep (.inl rfl)
          rw [backups]
          refine ⟨⟨core, ?_, ?_, agree.agrees.title, agree.agrees.size, agree.agrees.defaults,
            rfl, agree.agrees.autowrap, agree.agrees.insertMode⟩, ?_, ?_⟩
          · simp only [cursor, attributes, origin, regs]
          · simp only [core]
          · rw [backup]
            exact inStep
          · intro isFalse
            cases isFalse
  | false =>
      cases backup : right.buffer.vtMainBackup with
      | none =>
          rw [backup] at backups inStep
          obtain ⟨cursor, attributes, origin, _⟩ := inStep (.inr rfl)
          rw [backups]
          refine ⟨⟨core, ?_, ?_, agree.agrees.title, agree.agrees.size, agree.agrees.defaults,
            rfl, agree.agrees.autowrap, agree.agrees.insertMode⟩, ?_, ?_⟩
          · simp only [cursor, attributes, origin, regs]
          · simp only [core]
          · rw [backup]
            exact inStep
          · rw [backup]
            intro _ saved mem
            cases mem
      | some saved =>
          rw [backup] at backups keeps
          rw [backups]
          refine ⟨⟨?_, ?_, rfl, agree.agrees.title, agree.agrees.size, keeps rfl saved rfl,
            rfl, agree.agrees.autowrap, agree.agrees.insertMode⟩, ?_, ?_⟩
          · simp only [ScreenBuffer.touch, core]
          · simp only [ScreenBuffer.touch, regs]
          · exact fun _ => ⟨rfl, rfl, rfl, fun isTrue => by cases isTrue⟩
          · intro _ other mem
            cases mem

theorem setModeParam (agree : call.ModeAgrees original enable left right) (privateMarker : Bool)
    (param : Nat) :
    call.ModeAgrees original enable (call.setModeParam privateMarker enable left param)
      (call.setModeParam privateMarker enable right param) := by
  by_cases switches : param = 1049
  · subst switches
    simpa [OutputCall.setModeParam] using agree.switchScreen
  · have leftFrame := setModeParam_frame call left privateMarker enable switches
    have rightFrame := setModeParam_frame call right privateMarker enable switches
    refine ⟨Agrees.lockstep.setModeParam agree.agrees privateMarker enable switches, ?_, ?_⟩
    · rw [leftFrame.1, rightFrame.1, rightFrame.2]
      exact agree.inStep
    · rw [rightFrame.2]
      exact agree.keeps

theorem setMode (agree : call.ModeAgrees original enable left right) (privateMarker : Bool)
    (params : List Nat) :
    call.ModeAgrees original enable (params.foldl (call.setModeParam privateMarker enable) left)
      (params.foldl (call.setModeParam privateMarker enable) right) := by
  induction params generalizing left right with
  | nil => exact agree
  | cons param params ih => exact ih (agree.setModeParam privateMarker param)

end ModeAgrees

end OutputCall

namespace OutputState

/-- The direction of the switch of screens a character dispatches, if it does. -/
def switchAt (state : OutputState) (character : WChar) : Option Bool :=
  let parser := state.buffer.vtOutputParseState
  if parser.phase = .csi ∧ parser.csiLength < 128 then
    match (parser.finishCsi character).function with
    | .setMode enable => if 1049 ∈ (parser.finishCsi character).params then some enable else none
    | _ => none
  else
    none

/-- Whether a character dispatches RIS. -/
def resetsAt (state : OutputState) (character : WChar) : Prop :=
  state.buffer.vtOutputParseState.phase = .escape ∧ character = wc 'c'

instance (state : OutputState) (character : WChar) : Decidable (state.resetsAt character) :=
  inferInstanceAs (Decidable (_ ∧ _))

/-- What a character reads from the buffer instead of the local copies is in step
with them: a switch of screens finds the committed registers it saves or reloads
equal to the local ones, and a return to the main screen brings back the default
attributes the call has cached. -/
structure Coherent (state : OutputState) (character : WChar) : Prop where
  inStep : ∀ enable ∈ state.switchAt character,
    OutputCall.InStep enable state.buffer.vtMainBackup state.buffer.regs state.regs
  keeps : state.switchAt character = some false ∨ state.resetsAt character →
    ∀ saved ∈ state.buffer.vtMainBackup,
      saved.defaultTextAttributes = state.buffer.defaultTextAttributes

instance (state : OutputState) (character : WChar) : Decidable (state.Coherent character) :=
  decidable_of_iff
    ((∀ enable ∈ state.switchAt character,
        OutputCall.InStep enable state.buffer.vtMainBackup state.buffer.regs state.regs) ∧
      (state.switchAt character = some false ∨ state.resetsAt character →
        ∀ saved ∈ state.buffer.vtMainBackup,
          saved.defaultTextAttributes = state.buffer.defaultTextAttributes))
    ⟨fun ⟨inStep, keeps⟩ => ⟨inStep, keeps⟩, fun coherent => ⟨coherent.inStep, coherent.keeps⟩⟩

end OutputState

namespace OutputCall

variable {call : OutputCall} {original : VtRegisters} {left right : OutputState}

namespace Agrees

theorem parser (agree : call.Agrees original left right) :
    left.buffer.vtOutputParseState = right.buffer.vtOutputParseState := by
  rw [agree.core]

theorem csiCharacter (agree : call.Agrees original left right) {character : WChar}
    (settled : right.buffer.regs = right.regs) (coherent : left.Coherent character)
    (phase : left.buffer.vtOutputParseState.phase = .csi) :
    call.Agrees original (call.csiCharacter left character)
      (call.csiCharacter right character) := by
  unfold OutputCall.csiCharacter
  rw [← agree.parser]
  by_cases tooLong : 128 ≤ left.buffer.vtOutputParseState.csiLength
  · simp only [if_pos tooLong]
    exact agree.parse _
  · simp only [if_neg tooLong]
    refine ite ?_ (agree.parse _)
    apply parse
    generalize csiEq : left.buffer.vtOutputParseState.finishCsi character = csi
    by_cases isMode : ∃ enable, csi.function = .setMode enable
    · obtain ⟨enable, function⟩ := isMode
      simp only [OutputCall.applyCsi, function]
      by_cases switches : 1049 ∈ csi.params
      · have switchAt : left.switchAt character = some enable := by
          simp only [OutputState.switchAt, phase, not_le.mp tooLong, csiEq, function, switches,
            and_self, if_true]
        have inStep := coherent.inStep enable switchAt
        refine (ModeAgrees.setMode ⟨agree, ?_, ?_⟩ _ _).agrees
        · rw [settled, ← agree.regs, ← agree.core]
          exact inStep
        · rw [← agree.defaults, ← agree.core]
          intro isFalse
          subst isFalse
          exact coherent.keeps (.inl switchAt)
      · exact lockstep.setMode agree _ _ switches
    · exact lockstep.applyCsi agree csi
        (fun enable function => absurd ⟨enable, function⟩ isMode)

theorem hardReset (agree : call.Agrees original left right)
    (keeps : ∀ saved ∈ left.buffer.vtMainBackup,
      saved.defaultTextAttributes = left.buffer.defaultTextAttributes) :
    call.Agrees original (call.hardReset left) (call.hardReset right) := by
  have core := agree.core
  have backups : left.buffer.vtMainBackup = right.buffer.vtMainBackup := by rw [core]
  unfold OutputCall.hardReset leaveAlternateScreen
  rw [backups]
  cases backup : right.buffer.vtMainBackup with
  | none => exact lockstep.resetScreen agree
  | some saved =>
      rw [backups, core] at keeps
      have defaults := (keeps saved backup).trans agree.defaults
      have switched : call.Agrees original
          { left with
            buffer := left.buffer.setVtUsingAlternateScreenBuffer false 0x20 left.regs.attributes
            margins := saved.vtVerticalMargins }
          { right with
            buffer := right.buffer.setVtUsingAlternateScreenBuffer false 0x20 right.regs.attributes
            margins := saved.vtVerticalMargins } := by
        simp only [ScreenBuffer.setVtUsingAlternateScreenBuffer, backups, backup]
        refine ⟨?_, agree.regs, rfl, agree.title, agree.size, defaults, rfl, agree.autowrap,
          agree.insertMode⟩
        simp only [ScreenBuffer.touch, core]
      have reset := lockstep.resetScreen switched
      exact reset

theorem escapeFinal (agree : call.Agrees original left right) {character : WChar}
    (coherent : left.Coherent character)
    (phase : left.buffer.vtOutputParseState.phase = .escape) :
    call.Agrees original (call.escapeFinal left character) (call.escapeFinal right character) := by
  have restarted := agree.parse (·.restartEscape .ground)
  unfold OutputCall.escapeFinal
  refine ite (restarted.parse _) ?_
  refine ite (restarted.parse _) ?_
  refine ite (restarted.parse _) ?_
  refine ite (lockstep.saveCursor restarted) ?_
  refine ite (lockstep.restoreCursor restarted) ?_
  refine ite (lockstep.lineFeed restarted) ?_
  refine ite (lockstep.reverseLineFeed restarted) ?_
  refine ite (lockstep.advanceLine restarted) ?_
  by_cases resets : character = wc 'c'
  · simp only [if_pos resets]
    exact restarted.hardReset (coherent.keeps (.inr ⟨phase, resets⟩))
  · simp only [if_neg resets]
    exact ite (restarted.parse _) restarted

theorem escapeDispatch (agree : call.Agrees original left right) (character : WChar) :
    call.Agrees original (call.escapeDispatch left character)
      (call.escapeDispatch right character) := by
  unfold OutputCall.escapeDispatch
  rw [agree.parser]
  refine ite (agree.parse _) ?_
  exact (ite (lockstep.screenAlignment agree) agree).parse _

theorem oscCharacter (agree : call.Agrees original left right) (character : WChar) :
    call.Agrees original (oscCharacter left character) (oscCharacter right character) := by
  unfold OutputCall.oscCharacter
  rw [agree.parser]
  exact ite (agree.parse _) (ite agree.finishOsc (ite (agree.parse _) (agree.parse _)))

theorem stringCharacter (agree : call.Agrees original left right) (character : WChar) :
    call.Agrees original (stringCharacter left character) (stringCharacter right character) :=
  ite (agree.parse _) (ite (agree.parse _) agree)

end Agrees

/-- The control characters of the ground phase, as a single step. -/
def groundStep (call : OutputCall) (state : OutputState) (character : WChar) : OutputState :=
  match groundCharacter state character with
  | .consumed next => next
  | .again next => next
  | .text => call.textCharacter state character

theorem Agrees.groundStep (agree : call.Agrees original left right) (character : WChar) :
    call.Agrees original (call.groundStep left character) (call.groundStep right character) := by
  unfold OutputCall.groundStep groundCharacter
  split_ifs
  · exact agree.parse _
  · exact agree.parse _
  · exact agree.parse _
  · exact agree
  · exact agree.parse _
  · exact Agrees.lockstep.textCharacter agree character

/-- One character while VT processing is on, phase by phase. A character that ends
the escape inside a string is used up by the string. -/
theorem step_of_vtProcessing (vt : call.mode.vtProcessing = true) (state : OutputState)
    (character : WChar) :
    call.step state character =
      match state.buffer.vtOutputParseState.phase with
      | .escape => call.escapeFinal state character
      | .escDispatch => call.escapeDispatch state character
      | .csi => call.csiCharacter state character
      | .osc => oscCharacter state character
      | .oscEscape =>
          if character = wc '\\' then finishOsc state
          else oscCharacter (state.parse ({ · with phase := .osc })) character
      | .string => stringCharacter state character
      | .stringEscape =>
          if character = wc '\\' then state.parse ({ · with phase := .ground })
          else stringCharacter (state.parse ({ · with phase := .string })) character
      | .ground => call.groundStep state character := by
  unfold step groundStep
  rw [if_pos vt]
  unfold vtPass
  cases phase : state.buffer.vtOutputParseState.phase with
  | oscEscape =>
      by_cases terminator : character = wc '\\'
      · simp only [if_pos terminator]
      · simp only [if_neg terminator]
        rfl
  | stringEscape =>
      by_cases terminator : character = wc '\\'
      · simp only [if_pos terminator]
      · simp only [if_neg terminator]
        rfl
  | ground =>
      dsimp only
      unfold groundCharacter
      split_ifs <;> rfl
  | escape | escDispatch | csi | osc | string => rfl

/-- One character keeps two states in agreement if the first is coherent and the
second has no stale registers. -/
theorem Agrees.step (agree : call.Agrees original left right) (vt : call.mode.vtProcessing = true)
    {character : WChar} (settled : right.buffer.regs = right.regs)
    (coherent : left.Coherent character) :
    call.Agrees original (call.step left character) (call.step right character) := by
  rw [step_of_vtProcessing vt, step_of_vtProcessing vt, ← agree.parser]
  cases phase : left.buffer.vtOutputParseState.phase with
  | escape => exact agree.escapeFinal coherent phase
  | escDispatch => exact agree.escapeDispatch character
  | csi => exact agree.csiCharacter settled coherent phase
  | osc => exact agree.oscCharacter character
  | oscEscape => exact Agrees.ite agree.finishOsc ((agree.parse _).oscCharacter character)
  | string => exact agree.stringCharacter character
  | stringEscape => exact Agrees.ite (agree.parse _) ((agree.parse _).stringCharacter character)
  | ground => exact agree.groundStep character

/-- A commit writes back all registers if the origin mode it would leave alone is
the committed one. -/
theorem Agrees.committed (agree : call.Agrees original left right)
    (origin : left.regs.originMode = original.originMode →
      left.buffer.regs.originMode = original.originMode) :
    (left.commit original).regs = left.regs := by
  rw [OutputState.commit_regs, agree.autowrap, agree.insertMode]
  have autowrap : (if left.regs.autowrap ≠ original.autowrap then left.regs.autowrap
      else original.autowrap) = left.regs.autowrap := by
    split
    · rfl
    · rename_i same
      exact (not_not.mp same).symm
  have insertMode : (if left.regs.insertMode ≠ original.insertMode then left.regs.insertMode
      else original.insertMode) = left.regs.insertMode := by
    split
    · rfl
    · rename_i same
      exact (not_not.mp same).symm
  have originMode : (if left.regs.originMode ≠ original.originMode then left.regs.originMode
      else left.buffer.regs.originMode) = left.regs.originMode := by
    split
    · rfl
    · rename_i same
      rw [origin (not_not.mp same), not_not.mp same]
  rw [autowrap, insertMode, originMode]

/-- Every character of a text finds the state coherent. -/
def CoherentRun (call : OutputCall) : OutputState → List WChar → Prop
  | _, [] => True
  | state, character :: text =>
      state.Coherent character ∧ call.CoherentRun (call.step state character) text

instance (call : OutputCall) :
    (state : OutputState) → (text : List WChar) → Decidable (call.CoherentRun state text)
  | _, [] => isTrue trivial
  | state, character :: text =>
      have := instDecidableCoherentRun call (call.step state character) text
      inferInstanceAs (Decidable (_ ∧ _))

end OutputCall

/-- A terminal that has one copy of every register. -/
@[ext]
structure Terminal where
  core : ScreenCore
  regs : VtRegisters
  title : Option TitleState
deriving DecidableEq

namespace Terminal

/-- The loop state of a call that has just started on the terminal's screen. -/
def state (terminal : Terminal) : OutputState where
  buffer := { toScreenCore := terminal.core, regs := terminal.regs, windowRect := ⟨0, 0, 0, 0⟩ }
  regs := terminal.regs
  margins := terminal.core.vtVerticalMargins
  title := terminal.title

/-- The constants of a call that starts on the terminal's screen. -/
def call (terminal : Terminal) (mode : OutputMode) (answerQueries : Bool) : OutputCall where
  bufferSize := terminal.core.bufferSize
  defaultAttributes := terminal.core.defaultTextAttributes
  mode := mode
  answerQueries := answerQueries

/-- One character: the loop body, started on registers that are never stale. -/
def step (mode : OutputMode) (answerQueries : Bool) (terminal : Terminal) (character : WChar) :
    Terminal :=
  let next := (terminal.call mode answerQueries).step terminal.state character
  ⟨next.buffer.toScreenCore, next.regs, next.title⟩

/-- The terminal after a text. -/
def run (mode : OutputMode) (answerQueries : Bool) (terminal : Terminal) (text : List WChar) :
    Terminal :=
  text.foldl (step mode answerQueries) terminal

variable {mode : OutputMode} {answerQueries : Bool} {original : VtRegisters}

/-- The constants of the call do not change if a character keeps the agreement. -/
theorem agrees_next {terminal : Terminal} {loop : OutputState} {character : WChar}
    (next : (terminal.call mode answerQueries).Agrees original loop
      ((terminal.call mode answerQueries).step terminal.state character)) :
    (terminal.call mode answerQueries).Agrees original loop
        (terminal.step mode answerQueries character).state ∧
      (terminal.step mode answerQueries character).call mode answerQueries =
        terminal.call mode answerQueries := by
  refine ⟨⟨next.core, next.regs, next.margins.trans next.mirror, next.title, next.size,
    next.defaults, rfl, next.autowrap, next.insertMode⟩, ?_⟩
  unfold call
  rw [show (terminal.step mode answerQueries character).core.bufferSize =
    terminal.core.bufferSize from next.size,
    show (terminal.step mode answerQueries character).core.defaultTextAttributes =
      terminal.core.defaultTextAttributes from next.defaults]

/-- One coherent character of a call refines one step of the terminal. -/
theorem agrees_step {terminal : Terminal} {loop : OutputState}
    (agree : (terminal.call mode answerQueries).Agrees original loop terminal.state)
    (vt : mode.vtProcessing = true) {character : WChar} (coherent : loop.Coherent character) :
    (terminal.call mode answerQueries).Agrees original
        ((terminal.call mode answerQueries).step loop character)
        (terminal.step mode answerQueries character).state ∧
      (terminal.step mode answerQueries character).call mode answerQueries =
        terminal.call mode answerQueries :=
  agrees_next (agree.step vt rfl coherent)

/-- A coherent text of a call refines a run of the terminal. -/
theorem agrees_run (text : List WChar) {terminal : Terminal} {loop : OutputState}
    (agree : (terminal.call mode answerQueries).Agrees original loop terminal.state)
    (vt : mode.vtProcessing = true)
    (coherent : (terminal.call mode answerQueries).CoherentRun loop text) :
    (terminal.call mode answerQueries).Agrees original
      ((terminal.call mode answerQueries).run loop text)
      (terminal.run mode answerQueries text).state := by
  induction text generalizing terminal loop with
  | nil => exact agree
  | cons character text ih =>
      obtain ⟨here, later⟩ := coherent
      obtain ⟨next, sameCall⟩ := agrees_step agree vt here
      rw [← sameCall] at next later
      have rest := ih next later
      rw [sameCall] at rest
      exact rest

end Terminal

/-- The screen a user sees and the title: everything but the window, the revision
and the injected reports. -/
def OutputResult.terminal (result : OutputResult) : Terminal :=
  ⟨result.buffer.toScreenCore, result.buffer.regs, result.title⟩

/-- A call is coherent if its characters are, and if the origin mode it would not
write back at its end is the committed one. -/
structure CoherentCall (buffer : ScreenBuffer) (text : List WChar) (mode : OutputMode)
    (title : Option TitleState) (answerQueries : Bool) : Prop where
  run : (buffer.outputCall mode answerQueries).CoherentRun (buffer.outputState mode title) text
  commit :
    let last := (buffer.outputCall mode answerQueries).run (buffer.outputState mode title) text
    last.regs.originMode = buffer.regs.originMode →
      last.buffer.regs.originMode = buffer.regs.originMode

/-- A coherent call on a non-empty buffer refines a run of the terminal and keeps
the size of the buffer. -/
theorem applyTextToScreenBuffer_refines {buffer : ScreenBuffer} {text : List WChar}
    {mode : OutputMode} {title : Option TitleState} {answerQueries : Bool}
    (nonempty : 0 < buffer.bufferSize.x ∧ 0 < buffer.bufferSize.y)
    (vt : mode.vtProcessing = true)
    (coherent : CoherentCall buffer text mode title answerQueries) :
    (applyTextToScreenBuffer buffer text mode title answerQueries).terminal =
        (Terminal.mk buffer.toScreenCore buffer.regs title).run mode answerQueries text ∧
      (applyTextToScreenBuffer buffer text mode title answerQueries).buffer.bufferSize =
        buffer.bufferSize := by
  obtain ⟨run, commit⟩ := coherent
  have started : buffer.outputState mode title =
      { buffer := buffer, regs := buffer.regs, margins := buffer.vtVerticalMargins,
        title := title } := if_pos vt
  rw [started] at run commit
  let terminal : Terminal := ⟨buffer.toScreenCore, buffer.regs, title⟩
  have start : (terminal.call mode answerQueries).Agrees buffer.regs
      { buffer := buffer, regs := buffer.regs, margins := buffer.vtVerticalMargins,
        title := title } terminal.state :=
    ⟨rfl, rfl, rfl, rfl, rfl, rfl, rfl, rfl, rfl⟩
  have final := Terminal.agrees_run text start vt run
  unfold applyTextToScreenBuffer OutputResult.terminal
  rw [if_neg (by omega), started]
  dsimp only
  have committed := final.committed commit
  rw [OutputState.commit_toScreenCore]
  constructor
  · exact Terminal.ext final.core (committed.trans final.regs) final.title
  · exact (congrArg ScreenCore.bufferSize final.core).trans final.size

/-- The two calls that write a text in two parts. -/
def applyTwice (buffer : ScreenBuffer) (first second : List WChar) (mode : OutputMode)
    (title : Option TitleState) (answerQueries : Bool) : OutputResult :=
  let before := applyTextToScreenBuffer buffer first mode title answerQueries
  let after := applyTextToScreenBuffer before.buffer second mode before.title answerQueries
  { after with replies := before.replies ++ after.replies }

/-- Streaming invariance: if the call that writes the whole text and the two calls
that write its parts are coherent, they leave the same screen and the same title. -/
theorem applyTextToScreenBuffer_append (buffer : ScreenBuffer) (first second : List WChar)
    (mode : OutputMode) (title : Option TitleState) (answerQueries : Bool)
    (vt : mode.vtProcessing = true)
    (whole : CoherentCall buffer (first ++ second) mode title answerQueries)
    (before : CoherentCall buffer first mode title answerQueries)
    (after : CoherentCall (applyTextToScreenBuffer buffer first mode title answerQueries).buffer
      second mode (applyTextToScreenBuffer buffer first mode title answerQueries).title
      answerQueries) :
    (applyTextToScreenBuffer buffer (first ++ second) mode title answerQueries).terminal =
      (applyTwice buffer first second mode title answerQueries).terminal := by
  by_cases nonempty : 0 < buffer.bufferSize.x ∧ 0 < buffer.bufferSize.y
  · obtain ⟨firstRefines, sameSize⟩ := applyTextToScreenBuffer_refines nonempty vt before
    have secondRefines := (applyTextToScreenBuffer_refines (by rw [sameSize]; exact nonempty) vt
      after).1
    rw [(applyTextToScreenBuffer_refines nonempty vt whole).1]
    calc (Terminal.mk buffer.toScreenCore buffer.regs title).run mode answerQueries
          (first ++ second)
        = ((Terminal.mk buffer.toScreenCore buffer.regs title).run mode answerQueries
            first).run mode answerQueries second := List.foldl_append
      _ = (applyTwice buffer first second mode title answerQueries).terminal := by
          rw [← firstRefines]
          exact secondRefines.symm
  · have unchanged (text : List WChar) :
        applyTextToScreenBuffer buffer text mode title answerQueries = ⟨buffer, title, []⟩ :=
      if_pos (by omega)
    unfold applyTwice
    rw [unchanged, unchanged]
    dsimp only
    rw [unchanged]
    rfl

/-- `CSI ? 1049 h`. -/
def enterAlternate : List WChar :=
  [0x1b, wc '[', wc '?', wc '1', wc '0', wc '4', wc '9', wc 'h']

/-- One call saves the cursor from before the `X`, two calls the one after it. -/
theorem applyTextToScreenBuffer_append_stale :
    (OutputMode.mk 7).vtProcessing = true ∧
      (applyTextToScreenBuffer twoCells ([wc 'X'] ++ enterAlternate) ⟨7⟩ none true).terminal ≠
        (applyTwice twoCells [wc 'X'] enterAlternate ⟨7⟩ none true).terminal := by
  decide +kernel

/-- The cut falls inside a switch that finds its registers in step. -/
theorem applyTextToScreenBuffer_append_inStep :
    (applyTextToScreenBuffer twoCells ([0x1b, wc '['] ++ enterAlternate.drop 2) ⟨7⟩ none
        true).terminal =
      (applyTwice twoCells [0x1b, wc '['] (enterAlternate.drop 2) ⟨7⟩ none true).terminal :=
  applyTextToScreenBuffer_append twoCells [0x1b, wc '['] (enterAlternate.drop 2) ⟨7⟩ none true
    (by decide) ⟨by decide +kernel, by decide +kernel⟩ ⟨by decide +kernel, by decide +kernel⟩
    ⟨by decide +kernel, by decide +kernel⟩

end Conhost
