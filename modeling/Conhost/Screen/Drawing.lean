import Conhost.Screen.VtOutput

/-!
# Two runs side by side

Several results compare two states of the character loop: a call with the
terminal it refines, a text with the same text after a control string, a state
with itself one operation later. The operations of the loop that draw look only
at the local copies of the registers and at the picture, so each of them keeps
every relation that is kept by a handful of primitive changes. `Lockstep` lists
these changes; the rest of the module goes through the operations once.
-/

namespace Conhost

/-- An update that keeps the size, the default attributes, the margins and the saved
cursor of the buffer. -/
structure CoreUpdate.Frames {α : Type} (core : ScreenCore) (update : CoreUpdate α) : Prop where
  size : update.core.bufferSize = core.bufferSize
  defaults : update.core.defaultTextAttributes = core.defaultTextAttributes
  margins : update.core.vtVerticalMargins = core.vtVerticalMargins
  saved : update.core.savedCursorState = core.savedCursorState

namespace ScreenCore

/-- Exchange the parts of a buffer that are not drawn. -/
def withHidden (core : ScreenCore) (parser : VtOutputParseState)
    (backup : Option VtAlternateBufferBackup) : ScreenCore :=
  { core with vtOutputParseState := parser, vtMainBackup := backup }

theorem withHidden_self (core : ScreenCore) :
    core.withHidden core.vtOutputParseState core.vtMainBackup = core := rfl

end ScreenCore

/-- An operation on the picture: it neither reads nor writes what is hidden, and it
keeps what frames the picture. -/
structure Draws {α : Type} (operation : ScreenCore → CoreUpdate α) : Prop where
  hidden : ∀ core parser backup,
    (operation (core.withHidden parser backup)).core =
      (operation core).core.withHidden parser backup
  touched : ∀ core parser backup,
    (operation (core.withHidden parser backup)).touched = (operation core).touched
  frames : ∀ core, (operation core).Frames core

namespace Draws

variable {α : Type}

theorem parser {operation : ScreenCore → CoreUpdate α} (draws : Draws operation)
    (core : ScreenCore) : (operation core).core.vtOutputParseState = core.vtOutputParseState := by
  have hidden := draws.hidden core core.vtOutputParseState core.vtMainBackup
  rw [core.withHidden_self] at hidden
  rw [hidden]
  rfl

theorem backup {operation : ScreenCore → CoreUpdate α} (draws : Draws operation)
    (core : ScreenCore) : (operation core).core.vtMainBackup = core.vtMainBackup := by
  have hidden := draws.hidden core core.vtOutputParseState core.vtMainBackup
  rw [core.withHidden_self] at hidden
  rw [hidden]
  rfl

/-- A choice that depends on the picture alone. -/
theorem ite {condition : ScreenCore → Prop} [∀ core, Decidable (condition core)]
    {whenTrue whenFalse : ScreenCore → CoreUpdate α}
    (visible : ∀ core parser backup,
      condition (core.withHidden parser backup) ↔ condition core)
    (drawsTrue : Draws whenTrue) (drawsFalse : Draws whenFalse) :
    Draws fun core => if condition core then whenTrue core else whenFalse core where
  hidden core parser backup := by
    simp only [visible]
    split
    · exact drawsTrue.hidden core parser backup
    · exact drawsFalse.hidden core parser backup
  touched core parser backup := by
    simp only [visible]
    split
    · exact drawsTrue.touched core parser backup
    · exact drawsFalse.touched core parser backup
  frames core := by
    split
    · exact drawsTrue.frames core
    · exact drawsFalse.frames core

theorem untouched (result : α) : Draws (·.untouched result) :=
  ⟨fun _ _ _ => rfl, fun _ _ _ => rfl, fun _ => ⟨rfl, rfl, rfl, rfl⟩⟩

theorem withCells {cells : ScreenCore → List ScreenCell} {result : ScreenCore → α}
    (visible : ∀ core parser backup, cells (core.withHidden parser backup) = cells core) :
    Draws fun core => core.withCells (cells core) (result core) where
  hidden core parser backup := by
    simp only [ScreenCore.withCells, visible]
    rfl
  touched _ _ _ := rfl
  frames core := ⟨rfl, rfl, rfl, rfl⟩

theorem writeCell (coord : Coord) (character : WChar) (attributes : Attributes) :
    Draws (·.writeCell coord character attributes) :=
  ite (fun _ _ _ => Iff.rfl) (withCells fun _ _ _ => rfl) (untouched false)

theorem insertCell (coord : Coord) (character : WChar) (attributes : Attributes) :
    Draws (·.insertCell coord character attributes) :=
  ite (fun _ _ _ => Iff.rfl)
    (ite (fun _ _ _ => Iff.rfl) (writeCell coord character attributes)
      (withCells fun _ _ _ => rfl))
    (untouched false)

theorem updateRun (origin : Coord) (count : Nat) (update : Nat → ScreenCell → ScreenCell) :
    Draws (·.updateRun origin count update) :=
  ite (fun _ _ _ => Iff.rfl) (withCells fun _ _ _ => rfl) (untouched 0)

theorem scrollScreenBuffer (scroll clip : SmallRect) (destination : Coord)
    (fillCharacter : WChar) (fillAttributes : Attributes) :
    Draws (·.scrollScreenBuffer scroll clip destination fillCharacter fillAttributes) :=
  ite (fun _ _ _ => Iff.rfl) (untouched false)
    (ite (fun _ _ _ => Iff.rfl) (untouched true)
      (ite (fun _ _ _ => Iff.rfl) (withCells fun _ _ _ => rfl) (untouched true)))

theorem copyCell (source target : Coord) (attributes : Attributes) :
    Draws fun core =>
      let cell : ScreenCell :=
        match core.readOutputCharacters source 1, core.readOutputAttributes source 1 with
        | [character], [attributes] => ⟨character, attributes⟩
        | _, _ => ⟨0x20, attributes⟩
      core.writeCell target cell.character cell.attributes where
  hidden core parser backup :=
    (writeCell target _ _).hidden core parser backup
  touched core parser backup :=
    (writeCell target _ _).touched core parser backup
  frames core := (writeCell target _ _).frames core

theorem setCursorInfo (visible : Bool) :
    Draws fun core => core.setCursorInfo core.cursorSize visible :=
  ⟨fun _ _ _ => rfl, fun _ _ _ => rfl, fun _ => ⟨rfl, rfl, rfl, rfl⟩⟩

theorem setColorTable (table : Vector ColorRef 16) : Draws (·.setColorTable table) :=
  ⟨fun _ _ _ => rfl, fun _ _ _ => rfl, fun _ => ⟨rfl, rfl, rfl, rfl⟩⟩

end Draws

theorem OutputCall.scrollRegionUp_regs {call : OutputCall} (state : OutputState)
    (top bottom : Int) (count : Nat) :
    (call.scrollRegionUp state top bottom count).regs = state.regs := by
  simp only [scrollRegionUp]
  split_ifs <;> rfl

/-- A sequence that overwrites the saved cursor. -/
def VtCsiSequence.SavesCursor (csi : VtCsiSequence) : Prop :=
  csi.function = .softReset ∨ csi.function = .saveCursor ∧ csi.params.isEmpty = true

/-- A relation between states of the character loop that the primitive changes keep.
Related states have the same registers and margins, and the same answers for what
an operation reads of the buffer into the registers. -/
structure DrawLockstep (call : OutputCall) (related : OutputState → OutputState → Prop) :
    Prop where
  regs : ∀ {left right}, related left right → left.regs = right.regs
  margins : ∀ {left right}, related left right → left.margins = right.margins
  colorTable : ∀ {left right}, related left right →
    left.buffer.colorTable = right.buffer.colorTable
  saved : ∀ {left right}, related left right →
    left.buffer.restoreCursorState = right.buffer.restoreCursorState
  setRegs : ∀ {left right} (regs : VtRegisters), related left right →
    related { left with regs := regs } { right with regs := regs }
  deviceStatusReport : ∀ {left right} (csi : VtCsiSequence), related left right →
    related (call.deviceStatusReport csi left) (call.deviceStatusReport csi right)
  update : ∀ {left right} {α : Type} {operation : ScreenCore → CoreUpdate α},
    Draws operation → related left right →
      related (left.update (operation left.buffer.toScreenCore))
        (right.update (operation right.buffer.toScreenCore))
  setVtVerticalMargins : ∀ {left right} (margins : Option VtVerticalMargins), related left right →
    related
      { left.update (left.buffer.setVtVerticalMargins margins) with margins := margins }
      { right.update (right.buffer.setVtVerticalMargins margins) with margins := margins }

/-- The relation is also kept when the cursor is saved. -/
structure Lockstep (call : OutputCall) (related : OutputState → OutputState → Prop) : Prop
    extends DrawLockstep call related where
  saveCursorState : ∀ {left right} (position : Coord) (attributes : Attributes)
    (delayed origin : Bool), related left right →
      related (left.update (left.buffer.saveCursorState position attributes delayed origin))
        (right.update (right.buffer.saveCursorState position attributes delayed origin))

namespace DrawLockstep

variable {call : OutputCall} {related : OutputState → OutputState → Prop}
  {left right : OutputState}

theorem rewriteRegs (lock : DrawLockstep call related) {first second : VtRegisters}
    (same : first = second)
    (states : related left right) :
    related { left with regs := first } { right with regs := second } := by
  rw [same]
  exact lock.setRegs second states

theorem ite (_ : DrawLockstep call related) {condition : Prop} [Decidable condition]
    {left' right' : OutputState} (whenTrue : related left right)
    (whenFalse : related left' right') :
    related (if condition then left else left') (if condition then right else right') := by
  split
  · exact whenTrue
  · exact whenFalse

theorem foldl (_ : DrawLockstep call related) {β : Type} {action : OutputState → β → OutputState}
    (preserves : ∀ {left right} item, related left right →
      related (action left item) (action right item))
    (items : List β) (states : related left right) :
    related (items.foldl action left) (items.foldl action right) := by
  induction items generalizing left right with
  | nil => exact states
  | cons item items ih => exact ih (preserves item states)

theorem fill (lock : DrawLockstep call related) (states : related left right) (origin : Coord)
    (character : WChar) (attributes : Attributes) (length : Nat) :
    related (left.fill origin character attributes length)
      (right.fill origin character attributes length) :=
  lock.update (Draws.updateRun ..) (lock.update (Draws.updateRun ..) states)

theorem resetMargins (lock : DrawLockstep call related) (states : related left right) :
    related left.resetMargins right.resetMargins :=
  lock.setVtVerticalMargins none states

theorem fillRows (lock : DrawLockstep call related) (states : related left right)
    (top bottom : Int) :
    related (call.fillRows left top bottom) (call.fillRows right top bottom) := by
  unfold OutputCall.fillRows
  rw [lock.regs states]
  exact lock.fill states ..

theorem moveRows (lock : DrawLockstep call related) (states : related left right)
    (sourceTop sourceBottom top bottom target : Int) :
    related (call.moveRows left sourceTop sourceBottom top bottom target)
      (call.moveRows right sourceTop sourceBottom top bottom target) := by
  unfold OutputCall.moveRows
  rw [lock.regs states]
  exact lock.update (Draws.scrollScreenBuffer ..) states

theorem scrollRegionUp (lock : DrawLockstep call related) (states : related left right)
    (top bottom : Int) (count : Nat) :
    related (call.scrollRegionUp left top bottom count)
      (call.scrollRegionUp right top bottom count) :=
  lock.ite (lock.ite (lock.fillRows states _ _) (lock.moveRows states _ _ _ _ _)) states

theorem scrollRegionDown (lock : DrawLockstep call related) (states : related left right)
    (top bottom : Int) (count : Nat) :
    related (call.scrollRegionDown left top bottom count)
      (call.scrollRegionDown right top bottom count) :=
  lock.ite (lock.ite (lock.fillRows states _ _) (lock.moveRows states _ _ _ _ _)) states

theorem region (lock : DrawLockstep call related) (states : related left right) :
    call.resolveVerticalRegion left.margins = call.resolveVerticalRegion right.margins := by
  rw [lock.margins states]

theorem lineFeed (lock : DrawLockstep call related) (states : related left right) :
    related (call.lineFeed left) (call.lineFeed right) := by
  unfold OutputCall.lineFeed
  rw [lock.region states, lock.regs states]
  refine lock.ite (lock.ite (lock.scrollRegionUp states _ _ _) (lock.setRegs _ states))
    (lock.ite ?_ (lock.setRegs _ states))
  have scrolled : related (call.scrollRegionUp left 0 (toShort (call.bufferSize.y - 1)) 1)
      (call.scrollRegionUp right 0 (toShort (call.bufferSize.y - 1)) 1) :=
    lock.scrollRegionUp states _ _ _
  exact lock.rewriteRegs (by rw [lock.regs scrolled]) scrolled

theorem reverseLineFeed (lock : DrawLockstep call related) (states : related left right) :
    related (call.reverseLineFeed left) (call.reverseLineFeed right) := by
  unfold OutputCall.reverseLineFeed
  rw [lock.region states, lock.regs states]
  exact lock.ite (lock.ite (lock.scrollRegionDown states _ _ _) (lock.setRegs _ states))
    (lock.ite (lock.setRegs _ states) (lock.scrollRegionDown states _ _ _))

theorem advanceLine (lock : DrawLockstep call related) (states : related left right) :
    related (call.advanceLine left) (call.advanceLine right) :=
  lock.lineFeed (lock.rewriteRegs (by rw [lock.regs states]) states)

theorem clearDelayedWrap (lock : DrawLockstep call related) (states : related left right) :
    related { left with regs.delayedWrap := none } { right with regs.delayedWrap := none } :=
  lock.rewriteRegs (by rw [lock.regs states]) states

theorem maybeApplyDelayedWrap (lock : DrawLockstep call related) (states : related left right) :
    related (call.maybeApplyDelayedWrap left) (call.maybeApplyDelayedWrap right) := by
  unfold OutputCall.maybeApplyDelayedWrap
  rw [lock.regs states]
  refine lock.ite ?_ states
  cases right.regs.delayedWrap with
  | none => exact states
  | some position => exact lock.clearDelayedWrap (lock.ite (lock.advanceLine states) states)

theorem advanceVt (lock : DrawLockstep call related) (states : related left right) :
    related (call.advanceVt left) (call.advanceVt right) := by
  unfold OutputCall.advanceVt
  rw [lock.regs states]
  exact lock.ite (lock.setRegs _ states) (lock.setRegs _ states)

theorem advancePlain (lock : DrawLockstep call related) (states : related left right) :
    related (call.advancePlain left) (call.advancePlain right) := by
  unfold OutputCall.advancePlain
  rw [lock.regs states]
  exact lock.ite (lock.ite (lock.advanceLine states) (lock.setRegs _ states))
    (lock.setRegs _ states)

theorem storePrintable (lock : DrawLockstep call related) (states : related left right)
    (value : WChar) :
    related (call.storePrintable left value) (call.storePrintable right value) := by
  unfold OutputCall.storePrintable
  rw [lock.regs states]
  exact lock.ite (lock.update (Draws.insertCell ..) states)
    (lock.update (Draws.writeCell ..) states)

theorem writePrintable (lock : DrawLockstep call related) (states : related left right)
    (value : WChar) :
    related (call.writePrintable left value) (call.writePrintable right value) :=
  have written := lock.storePrintable (lock.maybeApplyDelayedWrap states) value
  lock.ite (lock.advanceVt written) (lock.advancePlain written)

theorem copyCell (lock : DrawLockstep call related) (states : related left right)
    (source target : Coord) :
    related (OutputCall.copyCell left source target) (OutputCall.copyCell right source target) := by
  unfold OutputCall.copyCell
  rw [lock.regs states]
  exact lock.update (Draws.copyCell source target right.regs.attributes) states

theorem eraseCells (lock : DrawLockstep call related) (states : related left right) (start : Int)
    (count : Nat) :
    related (OutputCall.eraseCells left start count)
      (OutputCall.eraseCells right start count) := by
  refine lock.foldl ?_ _ states
  intro left right step states
  rw [lock.regs states]
  exact lock.update (Draws.writeCell ..) states

theorem shiftCells (lock : DrawLockstep call related) (states : related left right)
    (columns : List Int)
    (offset : Int) :
    related (OutputCall.shiftCells left columns offset)
      (OutputCall.shiftCells right columns offset) := by
  refine lock.foldl ?_ _ states
  intro left right column states
  rw [lock.regs states]
  exact lock.copyCell states _ _

theorem cursorInside (lock : DrawLockstep call related) (states : related left right) :
    call.cursorInside left = call.cursorInside right := by
  unfold OutputCall.cursorInside
  rw [lock.regs states]

theorem rowCount (lock : DrawLockstep call related) (states : related left right)
    (csi : VtCsiSequence) :
    call.rowCount csi left = call.rowCount csi right := by
  unfold OutputCall.rowCount
  rw [lock.regs states]

theorem insertCharacter (lock : DrawLockstep call related) (states : related left right)
    (csi : VtCsiSequence) :
    related (call.insertCharacter csi left) (call.insertCharacter csi right) := by
  unfold OutputCall.insertCharacter
  rw [lock.cursorInside states, lock.rowCount states, lock.regs states]
  apply lock.clearDelayedWrap
  exact lock.ite (lock.eraseCells (lock.shiftCells states _ _) _ _) states

theorem deleteCharacter (lock : DrawLockstep call related) (states : related left right)
    (csi : VtCsiSequence) :
    related (call.deleteCharacter csi left) (call.deleteCharacter csi right) := by
  unfold OutputCall.deleteCharacter
  rw [lock.cursorInside states, lock.rowCount states, lock.regs states]
  apply lock.clearDelayedWrap
  exact lock.ite (lock.eraseCells (lock.shiftCells states _ _) _ _) states

theorem eraseCharacter (lock : DrawLockstep call related) (states : related left right)
    (csi : VtCsiSequence) :
    related (call.eraseCharacter csi left) (call.eraseCharacter csi right) := by
  unfold OutputCall.eraseCharacter
  rw [lock.cursorInside states, lock.rowCount states, lock.regs states]
  exact lock.clearDelayedWrap (lock.ite (lock.eraseCells states _ _) states)

theorem eraseFrom (lock : DrawLockstep call related) (states : related left right) (origin : Coord)
    (length : Nat) :
    related (OutputCall.eraseFrom left origin length)
      (OutputCall.eraseFrom right origin length) := by
  unfold OutputCall.eraseFrom
  rw [lock.regs states]
  exact lock.ite states (lock.fill states ..)

theorem eraseDisplay (lock : DrawLockstep call related) (states : related left right)
    (csi : VtCsiSequence) :
    related (call.eraseDisplay csi left) (call.eraseDisplay csi right) := by
  unfold OutputCall.eraseDisplay
  rw [lock.regs states]
  apply lock.clearDelayedWrap
  split
  · exact lock.eraseFrom states _ _
  · exact lock.eraseFrom states _ _
  · exact lock.eraseFrom states _ _
  · exact lock.eraseFrom states _ _
  · exact states

theorem eraseLine (lock : DrawLockstep call related) (states : related left right)
    (csi : VtCsiSequence) :
    related (call.eraseLine csi left) (call.eraseLine csi right) := by
  unfold OutputCall.eraseLine
  rw [lock.regs states]
  apply lock.clearDelayedWrap
  refine lock.ite ?_ states
  split
  · exact lock.eraseFrom states _ _
  · exact lock.eraseFrom states _ _
  · exact lock.eraseFrom states _ _
  · exact states

theorem setMargins (lock : DrawLockstep call related) (states : related left right)
    (csi : VtCsiSequence) :
    related (call.setMargins csi left) (call.setMargins csi right) := by
  unfold OutputCall.setMargins
  dsimp only
  generalize (if csi.param 0 0 = 0 then 1 else csi.param 0 0) = top
  generalize (if csi.param 1 0 = 0 then call.bufferSize.y.toNat else csi.param 1 0) = bottom
  rw [lock.regs states]
  refine lock.ite ?_ states
  by_cases whole : top = 1 ∧ bottom = call.bufferSize.y.toNat
  · simp only [if_pos whole]
    have reset := lock.resetMargins states
    exact lock.rewriteRegs (by rw [lock.regs reset]; rfl) reset
  · simp only [if_neg whole]
    have changed := lock.setVtVerticalMargins
      (some ⟨toShort ((top : Int) - 1), toShort ((bottom : Int) - 1)⟩) states
    exact lock.rewriteRegs (by simp only [OutputState.update, lock.regs states]) changed

theorem scroll (lock : DrawLockstep call related) (states : related left right)
    (csi : VtCsiSequence)
    (up : Bool) :
    related (call.scroll csi up left) (call.scroll csi up right) := by
  unfold OutputCall.scroll
  rw [lock.region states]
  exact lock.ite (lock.scrollRegionUp states _ _ _) (lock.scrollRegionDown states _ _ _)

theorem insertLine (lock : DrawLockstep call related) (states : related left right)
    (csi : VtCsiSequence) :
    related (call.insertLine csi left) (call.insertLine csi right) := by
  unfold OutputCall.insertLine
  rw [lock.region states, lock.regs states]
  exact lock.ite (lock.ite (lock.fillRows states _ _) (lock.moveRows states _ _ _ _ _)) states

theorem deleteLine (lock : DrawLockstep call related) (states : related left right)
    (csi : VtCsiSequence) :
    related (call.deleteLine csi left) (call.deleteLine csi right) := by
  unfold OutputCall.deleteLine
  rw [lock.region states, lock.regs states]
  exact lock.ite (lock.ite (lock.fillRows states _ _) (lock.moveRows states _ _ _ _ _)) states

theorem restoreCursor (lock : DrawLockstep call related) (states : related left right) :
    related (call.restoreCursor left) (call.restoreCursor right) := by
  unfold OutputCall.restoreCursor
  rw [lock.saved states]
  cases right.buffer.restoreCursorState with
  | none => exact states
  | some saved =>
      exact lock.rewriteRegs (by rw [lock.regs states, lock.margins states]) states

theorem setModeParam (lock : DrawLockstep call related) (states : related left right)
    (privateMarker enable : Bool) {param : Nat} (noSwitch : param ≠ 1049) :
    related (call.setModeParam privateMarker enable left param)
      (call.setModeParam privateMarker enable right param) := by
  unfold OutputCall.setModeParam
  rw [if_neg noSwitch, if_neg noSwitch]
  refine lock.ite (lock.rewriteRegs (by rw [lock.regs states]) states) ?_
  refine lock.ite (lock.update (Draws.setCursorInfo enable) states) ?_
  refine lock.ite
    (lock.rewriteRegs (by rw [lock.regs states, lock.margins states]) states) ?_
  exact lock.ite (lock.rewriteRegs (by rw [lock.regs states]) states) states

theorem setMode (lock : DrawLockstep call related) (states : related left right)
    (privateMarker enable : Bool) {params : List Nat} (noSwitch : 1049 ∉ params) :
    related (params.foldl (call.setModeParam privateMarker enable) left)
      (params.foldl (call.setModeParam privateMarker enable) right) := by
  induction params generalizing left right with
  | nil => exact states
  | cons param params ih =>
      simp only [List.mem_cons, not_or] at noSwitch
      exact ih (lock.setModeParam states privateMarker enable (Ne.symm noSwitch.1)) noSwitch.2

/-- Every sequence that does not switch screens; the two that save the cursor apart. -/
theorem applyCsi (lock : DrawLockstep call related) (states : related left right)
    (csi : VtCsiSequence)
    (noSwitch : ∀ enable, csi.function = .setMode enable → 1049 ∉ csi.params)
    (saves : csi.SavesCursor → related (call.applyCsi csi left) (call.applyCsi csi right)) :
    related (call.applyCsi csi left) (call.applyCsi csi right) := by
  by_cases writes : csi.SavesCursor
  · exact saves writes
  unfold OutputCall.applyCsi
  cases function : csi.function with
  | selectGraphicRendition =>
      exact lock.rewriteRegs (by rw [lock.regs states, lock.colorTable states]) states
  | deviceStatusReport => exact lock.deviceStatusReport csi states
  | cursorPosition =>
      exact lock.rewriteRegs (by rw [lock.regs states, lock.margins states]) states
  | softReset => exact absurd (.inl function) writes
  | cursorHorizontalAbsolute => exact lock.rewriteRegs (by rw [lock.regs states]) states
  | verticalPositionAbsolute =>
      exact lock.rewriteRegs (by rw [lock.regs states, lock.margins states]) states
  | cursorLine down =>
      exact lock.rewriteRegs (by rw [lock.regs states, lock.margins states]) states
  | cursorMove dx dy =>
      exact lock.rewriteRegs (by rw [lock.regs states, lock.margins states]) states
  | insertCharacter => exact lock.insertCharacter states csi
  | deleteCharacter => exact lock.deleteCharacter states csi
  | eraseCharacter => exact lock.eraseCharacter states csi
  | setMargins => exact lock.setMargins states csi
  | scroll up => exact lock.scroll states csi up
  | insertLine => exact lock.insertLine states csi
  | deleteLine => exact lock.deleteLine states csi
  | eraseDisplay => exact lock.eraseDisplay states csi
  | eraseLine => exact lock.eraseLine states csi
  | saveCursor =>
      dsimp only
      split
      · rename_i bare
        exact absurd (.inr ⟨function, bare⟩) writes
      · exact states
  | restoreCursor => exact lock.restoreCursor states
  | setMode enable => exact lock.setMode states _ _ (noSwitch enable function)
  | unsupported => exact states

theorem screenAlignment (lock : DrawLockstep call related) (states : related left right) :
    related (call.screenAlignment left) (call.screenAlignment right) :=
  lock.rewriteRegs (by rw [lock.regs states]) (lock.resetMargins (lock.fill states ..))

theorem textCharacter (lock : DrawLockstep call related) (states : related left right)
    (character : WChar) :
    related (call.textCharacter left character) (call.textCharacter right character) := by
  have homed : related { left with regs.cursor.x := 0 } { right with regs.cursor.x := 0 } :=
    lock.rewriteRegs (by rw [lock.regs states]) states
  unfold OutputCall.textCharacter
  rw [lock.regs states]
  rw [lock.regs states] at homed
  refine lock.ite ?_ (lock.writePrintable states character)
  refine lock.ite homed ?_
  refine lock.ite (lock.lineFeed (lock.ite states homed)) ?_
  refine lock.ite (lock.ite (lock.setRegs _ states) states) ?_
  refine lock.ite ?_ (lock.writePrintable states character)
  exact lock.foldl (fun _ states => lock.writePrintable states 0x20) _ states

/-- A property of single states, as a relation of every state with itself. -/
theorem of_property {property : OutputState → Prop}
    (setRegs : ∀ {state} (regs : VtRegisters), property state →
      property { state with regs := regs })
    (setReplies : ∀ {state} (replies : List (List Byte)), property state →
      property { state with replies := replies })
    (update : ∀ {state} {α : Type} {operation : ScreenCore → CoreUpdate α},
      Draws operation → property state →
        property (state.update (operation state.buffer.toScreenCore)))
    (setVtVerticalMargins : ∀ {state} (margins : Option VtVerticalMargins), property state →
      property
        { state.update (state.buffer.setVtVerticalMargins margins) with margins := margins }) :
    DrawLockstep call fun left right => left = right ∧ property left where
  regs states := by rw [states.1]
  margins states := by rw [states.1]
  colorTable states := by rw [states.1]
  saved states := by rw [states.1]
  setRegs := by
    rintro left right regs ⟨rfl, holds⟩
    exact ⟨rfl, setRegs regs holds⟩
  deviceStatusReport := by
    rintro left right csi ⟨rfl, holds⟩
    refine ⟨rfl, ?_⟩
    unfold OutputCall.deviceStatusReport
    split
    · exact setReplies _ holds
    · exact holds
  update := by
    rintro left right α operation draws ⟨rfl, holds⟩
    exact ⟨rfl, update draws holds⟩
  setVtVerticalMargins := by
    rintro left right margins ⟨rfl, holds⟩
    exact ⟨rfl, setVtVerticalMargins margins holds⟩

end DrawLockstep

namespace Lockstep

variable {call : OutputCall} {related : OutputState → OutputState → Prop}
  {left right : OutputState}

theorem softReset (lock : Lockstep call related) (states : related left right) :
    related (call.softReset left) (call.softReset right) := by
  have reset := lock.resetMargins (lock.update (Draws.setCursorInfo true) states)
  unfold OutputCall.softReset
  apply lock.saveCursorState
  exact lock.rewriteRegs (by rw [lock.regs reset]) reset

theorem saveCursor (lock : Lockstep call related) (states : related left right) :
    related (OutputCall.saveCursor left) (OutputCall.saveCursor right) := by
  unfold OutputCall.saveCursor
  rw [lock.regs states]
  exact lock.saveCursorState _ _ _ _ states

/-- Every sequence that does not switch screens. -/
theorem applyCsi (lock : Lockstep call related) (states : related left right)
    (csi : VtCsiSequence)
    (noSwitch : ∀ enable, csi.function = .setMode enable → 1049 ∉ csi.params) :
    related (call.applyCsi csi left) (call.applyCsi csi right) := by
  apply lock.toDrawLockstep.applyCsi states csi noSwitch
  rintro (function | ⟨function, bare⟩)
  · unfold OutputCall.applyCsi
    rw [function]
    exact lock.softReset states
  · unfold OutputCall.applyCsi
    rw [function]
    exact lock.ite (lock.saveCursor states) states

theorem resetScreen (lock : Lockstep call related) (states : related left right) :
    related (call.resetScreen left) (call.resetScreen right) := by
  unfold OutputCall.resetScreen
  apply lock.fill
  apply lock.setRegs
  apply lock.resetMargins
  apply lock.saveCursorState
  apply lock.update (Draws.setCursorInfo true)
  exact lock.update (Draws.setColorTable ScreenBuffer.defaultColorTable) states

theorem of_property {property : OutputState → Prop}
    (setRegs : ∀ {state} (regs : VtRegisters), property state →
      property { state with regs := regs })
    (setReplies : ∀ {state} (replies : List (List Byte)), property state →
      property { state with replies := replies })
    (update : ∀ {state} {α : Type} {operation : ScreenCore → CoreUpdate α},
      Draws operation → property state →
        property (state.update (operation state.buffer.toScreenCore)))
    (setVtVerticalMargins : ∀ {state} (margins : Option VtVerticalMargins), property state →
      property
        { state.update (state.buffer.setVtVerticalMargins margins) with margins := margins })
    (saveCursorState : ∀ {state} (position : Coord) (attributes : Attributes)
      (delayed origin : Bool), property state →
        property (state.update
          (state.buffer.saveCursorState position attributes delayed origin))) :
    Lockstep call fun left right => left = right ∧ property left where
  toDrawLockstep := .of_property setRegs setReplies update setVtVerticalMargins
  saveCursorState := by
    rintro left right position attributes delayed origin ⟨rfl, holds⟩
    exact ⟨rfl, saveCursorState position attributes delayed origin holds⟩

end Lockstep

end Conhost
