import Conhost.Screen.Pieces
import Conhost.Screen.Requests

/-!
# Histories down to the glyph

A request on a screen buffer is cut into events, and a text into its glyphs and the
characters that print nothing. `Session` is a buffer between two writes or in the middle
of one, and `Session.run_history` shows that the events lead where the requests lead. So
properties of single glyphs can be stated over whole histories.
-/

namespace Conhost

/-- Whether a character is plain text in the present phase of the parser. -/
def OutputCall.isText (call : OutputCall) (state : OutputState) (character : WChar) : Bool :=
  !call.mode.vtProcessing ||
    decide (state.buffer.vtOutputParseState.action character = .text character)

/-- The glyphs `write_printable` is called for, at a character that is printed. -/
def OutputCall.glyphs (call : OutputCall) (state : OutputState) (character : WChar) :
    Option (List WChar) :=
  if call.isText state character = false then none
  else if call.mode.processedOutput then
    if character = 0x0d ∨ character = 0x0a ∨ character = 0x08 then none
    else if character = 0x09 then
      let column := state.regs.cursor.x
      some (List.replicate (8 - (if column < 0 then 0 else column.toNat % 8)) 0x20)
    else some [character]
  else
    some [character]

/-- Whether a request is a write of text. -/
def ScreenRequest.isWrite : ScreenRequest → Bool
  | .writeText .. => true
  | _ => false

/-- What happens to a screen buffer, down to the single glyph. A control character is one
that prints nothing. -/
inductive ScreenEvent where
  | beginWrite (mode : OutputMode) (title : Option TitleState) (answerQueries : Bool)
  | glyph (value : WChar)
  | control (character : WChar)
  | endWrite
  | request (request : ScreenRequest) (quiet : request.isWrite = false)

/-- A screen buffer between two writes, or in the middle of one. -/
inductive Session where
  | idle (buffer : ScreenBuffer)
  | writing (call : OutputCall) (original : VtRegisters) (state : OutputState)

namespace Session

def buffer : Session → ScreenBuffer
  | .idle buffer => buffer
  | .writing _ _ state => state.buffer

/-- The registers in force: the local copies while a write is running. -/
def regs : Session → VtRegisters
  | .idle buffer => buffer.regs
  | .writing _ _ state => state.regs

def cursor (session : Session) : Coord := session.regs.cursor

/-- The recorded position of a delayed wrap. -/
def pending (session : Session) : Option Coord := session.regs.delayedWrap

def lastColumn (session : Session) : Int := session.buffer.bufferSize.x - 1

/-- One event. A write can begin only between two writes and go on only after it began. -/
def step : Session → ScreenEvent → Session
  | .idle buffer, .beginWrite mode title answerQueries =>
      .writing (buffer.outputCall mode answerQueries) buffer.regs (buffer.outputState mode title)
  | .idle buffer, .request request _ => .idle (request.apply buffer)
  | .writing call original state, .glyph value =>
      .writing call original (call.writePrintable state value)
  | .writing call original state, .control character =>
      .writing call original
        (if (call.glyphs state character).isNone then call.step state character else state)
  | .writing _ original state, .endWrite => .idle (state.commit original)
  | session, _ => session

def run (session : Session) (events : List ScreenEvent) : Session := events.foldl step session

end Session

/-- The events of a character. -/
def OutputCall.events (call : OutputCall) (state : OutputState) (character : WChar) :
    List ScreenEvent :=
  match call.glyphs state character with
  | some glyphs => glyphs.map .glyph
  | none => [.control character]

/-- The events of a text. -/
def OutputCall.textEvents (call : OutputCall) : OutputState → List WChar → List ScreenEvent
  | _, [] => []
  | state, character :: text =>
      call.events state character ++ call.textEvents (call.step state character) text

/-- The events of a request. A buffer without cells ignores a write. -/
def ScreenRequest.events (buffer : ScreenBuffer) (request : ScreenRequest) : List ScreenEvent :=
  if quiet : request.isWrite = false then
    [.request request quiet]
  else
    match request with
    | .writeText text mode title answerQueries =>
        if buffer.bufferSize.x ≤ 0 ∨ buffer.bufferSize.y ≤ 0 then []
        else
          .beginWrite mode title answerQueries ::
            ((buffer.outputCall mode answerQueries).textEvents (buffer.outputState mode title)
              text ++ [.endWrite])
    | _ => []

/-- The events of a history of requests. -/
def ScreenRequest.history : ScreenBuffer → List ScreenRequest → List ScreenEvent
  | _, [] => []
  | buffer, request :: requests =>
      request.events buffer ++ history (request.apply buffer) requests

/-- Text is dispatched in ground phase only, and leaves the parser alone. -/
theorem VtOutputParseState.next_of_text {parser : VtOutputParseState} {character value : WChar}
    (text : parser.action character = .text value) :
    value = character ∧ parser.next character = parser := by
  cases phase : parser.phase with
  | ground =>
      simp only [VtOutputParseState.action, phase, VtOutputParseState.groundAction] at text
      split at text
      · cases text
      · rename_i plain
        simp only [not_or] at plain
        cases text
        simp only [VtOutputParseState.next, phase, VtOutputParseState.groundNext, plain, if_false,
          or_false, and_self]
  | escape =>
      simp only [VtOutputParseState.action, phase, VtOutputParseState.escapeAction] at text
      split_ifs at text
  | escDispatch =>
      simp only [VtOutputParseState.action, phase] at text
      split_ifs at text
  | csi =>
      simp only [VtOutputParseState.action, phase] at text
      split_ifs at text
  | osc =>
      simp only [VtOutputParseState.action, phase, VtOutputParseState.oscDispatch,
        VtOutputParseState.titleAction] at text
      split_ifs at text
  | oscEscape =>
      simp only [VtOutputParseState.action, phase, VtOutputParseState.oscDispatch,
        VtOutputParseState.titleAction] at text
      split_ifs at text
  | string =>
      simp only [VtOutputParseState.action, phase] at text
      cases text
  | stringEscape =>
      simp only [VtOutputParseState.action, phase] at text
      cases text

namespace OutputCall

variable {call : OutputCall} {state : OutputState} {character : WChar}

theorem step_of_isText (text : call.isText state character = true) :
    call.step state character = call.textCharacter state character := by
  cases vt : call.mode.vtProcessing with
  | false => exact step_plain vt state character
  | true =>
      simp only [isText, vt, Bool.not_true, Bool.false_or, decide_eq_true_eq] at text
      rw [step_eq_perform vt, text, (VtOutputParseState.next_of_text text).2]
      have same := @perform_parseState call state (.text character)
      exact (congrArg (OutputState.withParser _) same.symm).trans rfl

end OutputCall

namespace Session

variable {call : OutputCall} {original : VtRegisters}

theorem run_append (session : Session) (first second : List ScreenEvent) :
    session.run (first ++ second) = (session.run first).run second :=
  List.foldl_append

theorem run_glyphs (state : OutputState) (count : Nat) (value : WChar) :
    (Session.writing call original state).run ((List.replicate count value).map .glyph) =
      .writing call original
        ((List.range count).foldl (fun state _ => call.writePrintable state value) state) := by
  induction count with
  | zero => rfl
  | succ count ih =>
      rw [List.replicate_succ', List.map_append, run_append, ih, List.range_succ,
        List.foldl_append]
      rfl

/-- The glyphs of a character are all that it prints. -/
theorem run_printed {state : OutputState} {character : WChar} {glyphs : List WChar}
    (printed : call.glyphs state character = some glyphs) :
    (Session.writing call original state).run (glyphs.map .glyph) =
      .writing call original (call.step state character) := by
  unfold OutputCall.glyphs at printed
  split at printed
  · cases printed
  rename_i text
  rw [OutputCall.step_of_isText (by simpa using text), OutputCall.textCharacter]
  split at printed
  · rename_i processed
    rw [if_pos processed]
    split at printed
    · cases printed
    rename_i moves
    simp only [not_or] at moves
    rw [if_neg moves.1, if_neg moves.2.1, if_neg moves.2.2]
    split at printed
    · rename_i tab
      cases printed
      rw [if_pos tab]
      exact run_glyphs state _ 0x20
    · rename_i tab
      cases printed
      rw [if_neg tab]
      rfl
  · rename_i processed
    rw [if_neg processed]
    cases printed
    rfl

/-- The events of a character do what the character does. -/
theorem run_events (state : OutputState) (character : WChar) :
    (Session.writing call original state).run (call.events state character) =
      .writing call original (call.step state character) := by
  unfold OutputCall.events
  cases printed : call.glyphs state character with
  | some glyphs => exact run_printed printed
  | none =>
      change Session.writing call original _ = _
      rw [printed]
      rfl

theorem run_textEvents (state : OutputState) (text : List WChar) :
    (Session.writing call original state).run (call.textEvents state text) =
      .writing call original (call.run state text) := by
  induction text generalizing state with
  | nil => rfl
  | cons character text ih => rw [OutputCall.textEvents, run_append, run_events, ih]; rfl

/-- The events of a request do what the request does. -/
theorem run_request (buffer : ScreenBuffer) (request : ScreenRequest) :
    (Session.idle buffer).run (request.events buffer) = .idle (request.apply buffer) := by
  unfold ScreenRequest.events
  split
  · rfl
  · rename_i writes
    cases request with
    | writeText text mode title answerQueries =>
        simp only [ScreenRequest.apply, applyTextToScreenBuffer]
        split
        · rfl
        · rw [run, List.foldl_cons]
          change Session.run _ _ = _
          rw [step, run_append, run_textEvents]
          rfl
    | _ => exact absurd rfl writes

/-- The events of a history lead where the requests lead. -/
theorem run_history (buffer : ScreenBuffer) (requests : List ScreenRequest) :
    (Session.idle buffer).run (ScreenRequest.history buffer requests) =
      .idle (ScreenRequest.run buffer requests) := by
  induction requests generalizing buffer with
  | nil => rfl
  | cons request requests ih => rw [ScreenRequest.history, run_append, run_request, ih]; rfl

end Session

end Conhost
