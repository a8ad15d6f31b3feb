import Conhost.Input.Capacity
import Conhost.Input.RepeatedBytes
import Conhost.Input.RepeatedLineReads
import Conhost.Input.RepeatedUnits

/-!
# Repeat counts

Whether a read returns the same for a key event with a repeat count and for as
many events with a count of one. A Unicode read always does. A read of bytes
does so if the character of the key is not delivered or the count is one. A read
by lines does so for every key that completes no line, apart from keys with
U+000A that a read has taken for the line feed of a line.
-/

namespace Conhost

open Relation (ReflTransGen)

namespace Cooked

variable {platform : Platform} {device : Device} {call : CookedCall}

/-- A server that has only a line and bytes still to be read. -/
def typing (edit : EditLine) (completed : Option (List WChar)) (queue : List Byte) : CookedState :=
  { read :=
      { handle :=
          { cookedLineInProgress := edit.line
            cookedLineCursor := edit.cursor
            cookedInsertMode := edit.insertMode }
        host := { inputQueue := queue } }
    completed := completed }

theorem typing_eq_ahead (edit : EditLine) (completed : Option (List WChar)) (queue : List Byte) :
    typing edit completed queue = ahead queue (typing edit completed []) := by
  simp [typing, ahead, ReadState.setQueue]

/-- A read of UTF-16 units without echo. -/
structure Plain (call : CookedCall) : Prop where
  quiet : call.mode.echoInput = false
  wide : call.unicode = true

/-- A read that finds nothing waits. -/
theorem lineRequest_waits {state : CookedState} (edits : Edits call state)
    (empty : state.read.stream = []) (connected : state.read.host.inputDisconnected = false) :
    lineRequest platform device call state (start state) .stops := by
  have exhausted : (start state).read.exhausted = true := by
    rw [ReadState.exhausted_iff, stream_start, empty]
  have waits : body platform device call (start state) = .leave (start state, .ok .pending) := by
    have connected' : (start state).read.host.inputDisconnected = false := connected
    rw [body, if_pos exhausted, idle, connected']
    rfl
  exact (lineRequest_iff edits).mpr ⟨.ok .pending, .of_leave waits, rfl⟩

section Typed

variable {edit edit' : EditLine} {completed : Option (List WChar)} {more rest bytes : List Byte}
  {key : KeyEvent} (plain : Plain call)

include plain

theorem body_typing (sent : key.SentAs bytes) :
    body platform device call (typing edit completed (bytes ++ more)) =
      conclude platform device call
        (typing (edit.handleToken call.mode.processedInput call.processControlZ
          (.keyEvent key)).edit completed more)
        (edit.handleToken call.mode.processedInput call.processControlZ
          (.keyEvent key)).outcome := by
  have pass : body platform device call (ahead (bytes ++ more) (typing edit completed [])) = _ :=
    body_sent sent rfl more
  rw [typing_eq_ahead, pass, concluded, echoTexts_quiet plain.quiet, ← typing_eq_ahead]
  rfl

theorem continues_typing (sent : key.SentAs bytes) {echoes : List (List WChar)}
    (does : edit.handleToken call.mode.processedInput call.processControlZ (.keyEvent key) =
      { edit := edit', echoes }) :
    Continues (body platform device call) (typing edit completed (bytes ++ more))
      (typing edit' completed more) := by
  have pass : body platform device call (typing edit completed (bytes ++ more)) = _ :=
    body_typing plain sent
  rw [does] at pass
  exact pass

/-- The end of a line returns it. -/
theorem endLine_typing (room : 2 * (edit.line ++ newlineSuffix call).length ≤ call.capacity) :
    endLine platform device call (typing edit completed more) =
      .leave (typing ⟨[], 0, edit.insertMode⟩ (some edit.line) more,
        .ok (.complete .success (unitBytes (edit.line ++ newlineSuffix call)))) := by
  have units : edit.line ++ newlineSuffix call ≠ [] := by
    rw [newlineSuffix]
    split <;> simp
  have whole : (edit.line ++ newlineSuffix call).length ≤ call.capacity / 2 := by omega
  have delivered : Delivery.deliverPending platform call.codePage call.unicode call.capacity
      (edit.line ++ newlineSuffix call) =
        ([], .complete .success (unitBytes (edit.line ++ newlineSuffix call))) := by
    rw [Delivery.deliverPending, if_neg units, plain.wide, if_pos rfl, List.drop_of_length_le whole,
      List.take_of_length_le whole]
  have finished : finishLine platform call (typing edit completed more) =
      (typing ⟨[], 0, edit.insertMode⟩ (some edit.line) more,
        .ok (.complete .success (unitBytes (edit.line ++ newlineSuffix call)))) := by
    have line : (typing edit completed more).read.handle.cookedLineInProgress = edit.line := rfl
    simp only [finishLine, line, delivered]
    rfl
  rw [endLine, echoText_quiet plain.quiet]
  exact congrArg Pass.leave finished

/-- A read that comes to a key that completes the line returns the line. -/
theorem returns_line (normalized : edit.Normalized)
    {queue : List Byte} (path : ReflTransGen (Continues (body platform device call))
      (typing edit none queue) (typing edit' none (bytes ++ more)))
    (sent : key.SentAs bytes) {echoes : List (List WChar)} {carriageReturn : Bool}
    {last : EditLine}
    (does : edit'.handleToken call.mode.processedInput call.processControlZ (.keyEvent key) =
      { edit := last, echoes, outcome := .newline carriageReturn })
    (looked : (if carriageReturn then lookAhead platform call (typing last none more)
      else typing last none more) = typing last none rest)
    (room : 2 * (last.line ++ newlineSuffix call).length ≤ call.capacity) :
    lineRequest platform device call (typing edit completed queue)
      (typing ⟨[], 0, last.insertMode⟩ (some last.line) rest)
      (.gives (unitBytes (last.line ++ newlineSuffix call))) := by
  have some : call.capacity ≠ 0 := by
    intro none
    have suffix : 0 < (newlineSuffix call).length := by
      rw [newlineSuffix]
      split <;> decide
    rw [List.length_append] at room
    omega
  have pass : body platform device call (typing edit' none (bytes ++ more)) = _ :=
    body_typing plain sent
  rw [does, conclude_of_newline, looked, endLine_typing plain room] at pass
  have edits : Edits call (typing edit completed queue) := ⟨some, rfl⟩
  have started : start (typing edit completed queue) = typing edit none queue := by
    have line : editLine (typing edit completed queue).read.handle = edit := rfl
    rw [start, line, normalized.normalizeCursor_eq]
    rfl
  refine (lineRequest_iff edits).mpr
    ⟨.ok (.complete .success (unitBytes (last.line ++ newlineSuffix call))), ?_, rfl⟩
  rw [started]
  exact (Ends.path_iff path).mpr (.of_leave pass)

end Typed

section Lost

variable {key : KeyEvent} {event single : List Byte} (plain : Plain call)
  (room : 8 ≤ call.capacity)

theorem length_newlineSuffix (call : CookedCall) : (newlineSuffix call).length ≤ 2 := by
  rw [newlineSuffix]
  split <;> decide

/-- An empty line, completed. -/
abbrev emptyLine (call : CookedCall) : List Byte := unitBytes (newlineSuffix call)

theorem emptyLine_ne_nil (call : CookedCall) : emptyLine call ≠ [] := by
  rw [emptyLine, newlineSuffix]
  split <;> decide

/-- A key that completes an empty line. -/
theorem handleToken_newline_empty {processed controlZ mode : Bool} (down : key.keyDown = true)
    (isBreak : ¬(processed && key.matchesCtrlBreak) = true)
    (isC : ¬(processed && key.matchesCtrlC) = true) (other : key.editsLine = false)
    (newline : key.unicodeChar = 13 ∨ key.unicodeChar = 10) :
    (⟨[], 0, mode⟩ : EditLine).handleToken processed controlZ (.keyEvent key) =
      { edit := ⟨[], 0, mode⟩, outcome := .newline (key.unicodeChar == 13) } := by
  have pressed : EditLine.press processed controlZ key ⟨[], 0, mode⟩ =
      { edit := ⟨[], 0, mode⟩, outcome := .newline (key.unicodeChar == 13) } := by
    rw [EditLine.press_down down, if_neg isBreak, if_neg isC, EditLine.editKey_eq_none other]
    have typed : key.unicodeChar ≠ 0 := by rcases newline with same | same <;> simp [same]
    have unit : key.unicodeChar ≠ 0x1a ∧ key.unicodeChar ≠ 3 ∧ key.unicodeChar ≠ 8 := by
      rcases newline with same | same <;> simp [same]
    simp only [if_neg typed, EditLine.handleSingleUnit, if_pos newline, if_neg unit.2.2]
    simp [unit, EditLine.normalizeCursor, EditLine.moveTo, EditLine.echoRange]
  rcases Nat.exists_eq_succ_of_ne_zero (Nat.ne_of_gt key.count_pos) with ⟨fewer, count⟩
  rw [EditLine.handleToken_times, count, EditLine.timesEffect_of_ends (by rw [pressed]; simp),
    pressed]

theorem lookAhead_nil (edit : EditLine) (completed : Option (List WChar)) :
    lookAhead platform call (typing edit completed []) = typing edit completed [] := by
  have nothing : platform.decodeOneInputToken call.codePage
      (typing edit completed []).read.peekHead = .needMore := by
    rw [ReadState.peekHead_eq]
    rfl
  simp only [lookAhead, skipLf, nothing]

/-- The key that types a carriage return. -/
def enterKey : KeyEvent := { unicodeChar := 13 }

theorem handleToken_enter {processed controlZ : Bool} (mode : Bool) :
    (⟨[], 0, mode⟩ : EditLine).handleToken processed controlZ (.keyEvent enterKey) =
      { edit := ⟨[], 0, mode⟩, outcome := .newline true } := by
  have isBreak : enterKey.matchesCtrlBreak = false := by decide
  have isC : enterKey.matchesCtrlC = false := by decide
  refine handleToken_newline_empty rfl ?_ ?_ (by decide) (.inl rfl)
  · rw [isBreak, Bool.and_false]
    decide
  · rw [isC, Bool.and_false]
    decide

/-- The key that types a letter. -/
def letterKey (letter : WChar) : KeyEvent := { unicodeChar := letter }

def homeKey : KeyEvent := { virtualKeyCode := VtInput.vkHome }

/-- The keys a, Home, b and Enter. -/
def typedKeys : List Byte :=
  (letterKey (wc 'a')).win32Sequence ++ (homeKey.win32Sequence ++
    ((letterKey (wc 'b')).win32Sequence ++ (enterKey.win32Sequence ++ [])))

/-- The second letter is typed in front of the first or over it. -/
def typedLine (mode : Bool) : List WChar := if mode then [wc 'b', wc 'a'] else [wc 'b']

/-- What the keys do to the line. -/
theorem handleToken_typedKeys (processed controlZ mode : Bool) :
    (⟨[], 0, mode⟩ : EditLine).handleToken processed controlZ (.keyEvent (letterKey (wc 'a'))) =
        { edit := ⟨[wc 'a'], 1, mode⟩, echoes := [[wc 'a'], [], []] } ∧
      (⟨[wc 'a'], 1, mode⟩ : EditLine).handleToken processed controlZ (.keyEvent homeKey) =
        { edit := ⟨[wc 'a'], 0, mode⟩, echoes := [[8]] } ∧
      (⟨[wc 'a'], 0, mode⟩ : EditLine).handleToken processed controlZ
          (.keyEvent (letterKey (wc 'b'))) =
        { edit := ⟨typedLine mode, 1, mode⟩
          echoes := if mode then [[wc 'b'], [wc 'a'], [], [8]] else [[wc 'b'], [], []] } ∧
      (⟨typedLine mode, 1, mode⟩ : EditLine).handleToken processed controlZ
          (.keyEvent enterKey) =
        { edit := ⟨typedLine mode, (typedLine mode).length, mode⟩
          echoes := if mode then [[wc 'a']] else []
          outcome := .newline true } := by
  cases processed <;> cases controlZ <;> cases mode <;> decide

include plain room

/-- A read by lines of an empty line that is completed. -/
theorem returns_empty {mode : Bool} {completed : Option (List WChar)} {more rest : List Byte}
    (sent : key.SentAs event) {carriageReturn : Bool}
    (does : (⟨[], 0, mode⟩ : EditLine).handleToken call.mode.processedInput call.processControlZ
      (.keyEvent key) = { edit := ⟨[], 0, mode⟩, outcome := .newline carriageReturn })
    (looked : (if carriageReturn then lookAhead platform call (typing ⟨[], 0, mode⟩ none more)
      else typing ⟨[], 0, mode⟩ none more) = typing ⟨[], 0, mode⟩ none rest) :
    lineRequest platform device call (typing ⟨[], 0, mode⟩ completed (event ++ more))
      (typing ⟨[], 0, mode⟩ (some []) rest) (.gives (emptyLine call)) := by
  have suffix := length_newlineSuffix call
  refine returns_line plain (EditLine.normalized_atEnd [] mode) .refl sent does looked ?_
  rw [List.nil_append]
  omega

/-- A key that completes a line does so once in one event, and as often as there are events. -/
theorem newline_differs (sent : key.SentAs event) (sentOnce : key.once.SentAs single)
    (down : key.keyDown = true)
    (isBreak : ¬(call.mode.processedInput && key.matchesCtrlBreak) = true)
    (isC : ¬(call.mode.processedInput && key.matchesCtrlC) = true) (other : key.editsLine = false)
    (newline : key.unicodeChar = 13 ∨ key.unicodeChar = 10) (often : 2 ≤ key.count) :
    ¬SameData (lineRequest platform device call) (typing {} none event)
      (typing {} none (sentTimes key.count single)) := by
  have effect {mode : Bool} : (⟨[], 0, mode⟩ : EditLine).handleToken call.mode.processedInput
      call.processControlZ (.keyEvent key) = _ :=
    handleToken_newline_empty down isBreak isC other newline
  have effectOnce {mode : Bool} : (⟨[], 0, mode⟩ : EditLine).handleToken call.mode.processedInput
      call.processControlZ (.keyEvent key.once) = _ :=
    handleToken_newline_empty (by exact down) isBreak isC other newline
  have looked (count : Nat) : (if key.unicodeChar == 13 then
        lookAhead platform call (typing {} none (sentTimes count single))
      else typing {} none (sentTimes count single)) = typing {} none (sentTimes count single) := by
    split
    · rename_i carriageReturn
      cases count with
      | zero => exact lookAhead_nil {} none
      | succ count =>
          have other : isLf (.keyEvent key.once) = false := by
            have unit : key.unicodeChar = 13 := by simpa using carriageReturn
            simp [isLf, KeyEvent.once, unit]
          rw [sentTimes_succ, typing_eq_ahead, lookAhead_sent sentOnce rfl, other]
          rfl
    · rfl
  have some := emptyLine_ne_nil call
  have waits : lineRequest platform device call (typing {} (Option.some []) []) _ .stops :=
    lineRequest_waits ⟨by omega, rfl⟩ rfl rfl
  have first : lineRequest platform device call (typing {} none (event ++ [])) _ _ :=
    returns_empty plain room sent effect (looked 0)
  rw [List.append_nil] at first
  intro same
  have returned := (same _).mp ⟨1, .gives first some (.stops waits)⟩
  obtain ⟨fewer, count⟩ : ∃ fewer, key.count = fewer + 2 := ⟨key.count - 2, by omega⟩
  rw [count, sentTimes_succ] at returned
  rcases returned.head lineRequest_functional
    (returns_empty plain room sentOnce effectOnce (looked (fewer + 1))) some with
    ⟨later, whole, returned⟩
  cases whole
  rw [sentTimes_succ] at returned
  rcases returned.head lineRequest_functional
    (returns_empty plain room sentOnce effectOnce (looked fewer)) some with ⟨_, whole, -⟩
  cases whole

/-- A line completed in front of a key that is taken for its line feed. -/
theorem returns_front (sent : key.SentAs event) (down : key.keyDown = true)
    (lineFeed : key.unicodeChar = 10) {completed : Option (List WChar)} (more : List Byte) :
    lineRequest platform device call
      (typing {} completed (enterKey.win32Sequence ++ (event ++ more))) (typing {} (some []) more)
      (.gives (emptyLine call)) := by
  have lf : isLf (.keyEvent key) = true := by simp [isLf, down, lineFeed]
  refine returns_empty plain room enterKey.sentAs_win32Sequence (handleToken_enter true) ?_
  rw [if_pos rfl, typing_eq_ahead, lookAhead_sent sent rfl, if_pos lf, ← typing_eq_ahead]

/-- A Ctrl+Break ends a read without data and empties the queue. -/
theorem returns_ctrlBreak (sent : key.SentAs event) (down : key.keyDown = true)
    (isBreak : (call.mode.processedInput && key.matchesCtrlBreak) = true) (more : List Byte) :
    ∃ next, Silently (lineRequest platform device call)
        (typing {} (some []) (event ++ more)) next ∧
      Edits call next ∧ next.read.stream = [] ∧ next.read.host.inputDisconnected = false := by
  have edits : Edits call (typing {} (some []) (event ++ more)) := ⟨by omega, rfl⟩
  have effect : ({} : EditLine).handleToken call.mode.processedInput call.processControlZ
      (.keyEvent key) = { edit := {}, outcome := .ctrlBreak } := by
    simp only [EditLine.handleToken, down, isBreak, Bool.not_true, if_true, Bool.false_eq_true,
      if_false]
  have pass : body platform device call (typing {} none (event ++ more)) = _ :=
    body_typing plain sent
  rw [effect] at pass
  exact ⟨_, (lineRequest_iff edits).mpr ⟨.ok (.complete .alerted []), .of_leave pass, rfl⟩,
    ⟨edits.1, rfl⟩, rfl, rfl⟩

/-- A Ctrl+Break taken for a line feed is lost; if it is repeated the rest of it discards what
follows. -/
theorem ctrlBreak_differs (sent : key.SentAs event) (sentOnce : key.once.SentAs single)
    (down : key.keyDown = true)
    (isBreak : (call.mode.processedInput && key.matchesCtrlBreak) = true)
    (lineFeed : key.unicodeChar = 10) (often : 2 ≤ key.count) :
    ¬SameData (lineRequest platform device call)
      (typing {} none (enterKey.win32Sequence ++ (event ++ enterKey.win32Sequence)))
      (typing {} none (enterKey.win32Sequence ++
        (sentTimes key.count single ++ enterKey.win32Sequence))) := by
  have some := emptyLine_ne_nil call
  have second : lineRequest platform device call
      (typing {} (Option.some []) (enterKey.win32Sequence ++ [])) _ _ :=
    returns_empty plain room enterKey.sentAs_win32Sequence (handleToken_enter true)
      (lookAhead_nil {} none)
  rw [List.append_nil] at second
  have waits : lineRequest platform device call (typing {} (Option.some []) []) _ .stops :=
    lineRequest_waits ⟨by omega, rfl⟩ rfl rfl
  have first : lineRequest platform device call (typing {} none _) _ _ :=
    returns_front plain room sent down lineFeed enterKey.win32Sequence
  have whole := CollectsIn.gives first some (.gives second some (.stops waits))
  intro same
  have returned := (same _).mp ⟨2, whole⟩
  obtain ⟨fewer, count⟩ : ∃ fewer, key.count = fewer + 2 := ⟨key.count - 2, by omega⟩
  rw [count, sentTimes_succ, List.append_assoc] at returned
  rcases returned.head lineRequest_functional
    (returns_front plain room sentOnce down lineFeed _) some with ⟨later, same, returned⟩
  cases same
  rw [sentTimes_succ, List.append_assoc] at returned
  rcases returns_ctrlBreak plain room sentOnce (by exact down) isBreak _ with
    ⟨flushed, silent, edits, empty, connected⟩
  have rest := returned.after_silent lineRequest_functional silent
  cases rest.unique lineRequest_functional
    ⟨0, .stops (lineRequest_waits edits empty connected)⟩

omit room in
theorem typedKeys_path (mode : Bool) :
    ReflTransGen (Continues (body platform device call)) (typing ⟨[], 0, mode⟩ none typedKeys)
      (typing ⟨typedLine mode, 1, mode⟩ none (enterKey.win32Sequence ++ [])) := by
  rcases handleToken_typedKeys call.mode.processedInput call.processControlZ mode with
    ⟨a, home, b, -⟩
  have first : Continues (body platform device call) (typing ⟨[], 0, mode⟩ none typedKeys) _ :=
    continues_typing plain (letterKey (wc 'a')).sentAs_win32Sequence a
  exact .head first (.head (continues_typing plain homeKey.sentAs_win32Sequence home)
    (.single (continues_typing plain (letterKey (wc 'b')).sentAs_win32Sequence b)))

/-- An Insert taken for a line feed does not turn the insert mode over; the rest of its repetitions
does. -/
theorem insert_differs (sent : key.SentAs event) (sentOnce : key.once.SentAs single)
    (down : key.keyDown = true)
    (isBreak : ¬(call.mode.processedInput && key.matchesCtrlBreak) = true)
    (isC : ¬(call.mode.processedInput && key.matchesCtrlC) = true)
    (insert : key.virtualKeyCode = VtInput.vkInsert) (lineFeed : key.unicodeChar = 10)
    (even : key.count % 2 = 0) :
    ¬SameData (lineRequest platform device call)
      (typing {} none (enterKey.win32Sequence ++ (event ++ typedKeys)))
      (typing {} none (enterKey.win32Sequence ++ (sentTimes key.count single ++ typedKeys))) := by
  have some := emptyLine_ne_nil call
  have suffix := length_newlineSuffix call
  have returns {queue : List Byte} (mode : Bool)
      (path : ReflTransGen (Continues (body platform device call)) (typing {} none queue)
        (typing ⟨[], 0, mode⟩ none typedKeys)) :
      lineRequest platform device call (typing {} (Option.some []) queue)
        (typing ⟨[], 0, mode⟩ (Option.some (typedLine mode)) [])
        (.gives (unitBytes (typedLine mode ++ newlineSuffix call))) := by
    have enter := (handleToken_typedKeys call.mode.processedInput call.processControlZ mode).2.2.2
    have fits : 2 * (typedLine mode ++ newlineSuffix call).length ≤ call.capacity := by
      have short : (typedLine mode).length ≤ 2 := by cases mode <;> decide
      rw [List.length_append]
      omega
    exact returns_line plain (EditLine.normalized_atEnd [] true)
      (path.trans (typedKeys_path plain mode)) enterKey.sentAs_win32Sequence enter
      (lookAhead_nil _ none) fits
  have ne (mode : Bool) : unitBytes (typedLine mode ++ newlineSuffix call) ≠ [] := by
    cases mode <;> simp [typedLine, unitBytes]
  have waits : lineRequest platform device call
      (typing {} (Option.some (typedLine true)) []) _ .stops :=
    lineRequest_waits ⟨by omega, rfl⟩ rfl rfl
  have first : lineRequest platform device call (typing {} none _) _ _ :=
    returns_front plain room sent down lineFeed typedKeys
  have whole := CollectsIn.gives first some (.gives (returns true .refl) (ne true) (.stops waits))
  intro same
  have returned := (same _).mp ⟨2, whole⟩
  obtain ⟨fewer, count⟩ : ∃ fewer, key.count = fewer + 1 :=
    Nat.exists_eq_succ_of_ne_zero (Nat.ne_of_gt key.count_pos)
  rw [count, sentTimes_succ, List.append_assoc] at returned
  rcases returned.head lineRequest_functional
    (returns_front plain room sentOnce down lineFeed _) some with ⟨later, same, returned⟩
  cases same
  -- what is left of the repetitions turns the insert mode over
  have turns (mode : Bool) : press call key ⟨[], 0, mode⟩ = { edit := ⟨[], 0, !mode⟩ } := by
    have edits : key.editsLine = true := by simp [KeyEvent.editsLine, insert]
    rw [press, EditLine.press_down down, if_neg isBreak, if_neg isC, EditLine.editKey_empty edits,
      if_pos insert]
  have odd : Odd fewer := by
    rw [Nat.odd_iff]
    omega
  have path : ReflTransGen (Continues (body platform device call))
      (ahead (sentTimes fewer single) (typing {} none typedKeys)) _ :=
    turned_path sentOnce turns rfl rfl fewer
  rw [Bool.involutive_not.iterate_odd odd] at path
  rcases returned.head lineRequest_functional (returns false path) (ne false) with ⟨_, same, -⟩
  have sizes := congrArg List.length (List.cons.inj same).1
  simp [length_unitBytes, typedLine] at sizes

end Lost

end Cooked

/-- A read by lines, the raw reads of UTF-16 units and of bytes, and `CONSOLE_IO_RAW_READ`. -/
inductive ReadKind where
  | line
  | unicode
  | ansi
  | raw
deriving DecidableEq, Repr

namespace ReadKind

open Cooked (lineRequest typing enterKey typedKeys)

/-- The reads come to the event in one stream and to the events in the other: what they find in
front of them is the same. -/
def Comes (kind : ReadKind) (platform : Platform) (call : ReadCall) (one other : List Byte)
    (state : ReadState) : Prop :=
  match kind with
  | line => (windowDecoder platform call.codePage).Alike one other state.stream
  | unicode => ReadState.Faces true (windowDecoder platform call.codePage) call one other state
  | ansi => ReadState.Faces true ByteRead.pieceDecoder call one other state
  | raw => ByteRead.pieceDecoder.Alike one other state.stream

/-- The reads return the same whichever of the streams arrives. -/
def Returns (kind : ReadKind) (platform : Platform) (device : Device) (call : CookedCall)
    (state : CookedState) (one other : List Byte) : Prop :=
  match kind with
  | line =>
      SameData (lineRequest platform device call) (Cooked.arrive state one)
        (Cooked.arrive state other)
  | unicode =>
      SameData (rawRequest (UnicodeRead.rawUnicodeRead platform call.toReadCall))
        (state.read.arrive one) (state.read.arrive other)
  | ansi =>
      SameData (rawRequest (ByteRead.rawAnsiRead platform call.toReadCall))
        (state.read.arrive one) (state.read.arrive other)
  | raw =>
      SameData (rawRequest (ByteRead.rawRead platform call.toReadCall))
        (state.read.arrive one) (state.read.arrive other)

/-- In whatever input the event stands, reads with large enough buffers return the same for it as
for as many events with a count of one. -/
def HonoursCount (kind : ReadKind) (platform : Platform) (processed : Bool)
    (codePage : CodePage) (key : KeyEvent) : Prop :=
  ∀ (state : CookedState) (event single after : List Byte),
    key.SentAs event → key.once.SentAs single →
      ∃ room, ∀ (device : Device) (call : CookedCall), room ≤ call.capacity →
        call.mode.processedInput = processed → call.codePage = codePage →
          kind.Comes platform call.toReadCall (event ++ after)
            (sentTimes key.count single ++ after) state.read →
            kind.Returns platform device call state (event ++ after)
              (sentTimes key.count single ++ after)

/-- The keys whose count a read honours. -/
def Honours (kind : ReadKind) (platform : Platform) (processed : Bool)
    (codePage : CodePage) (key : KeyEvent) : Prop :=
  match kind with
  | line => key.LineHonours processed
  | unicode => True
  | ansi | raw => key.count = 1 ∨ ¬key.Delivered platform processed codePage

variable {platform : Platform} {processed : Bool} {codePage : CodePage} {key : KeyEvent}

theorem honoursCount_of_honours {kind : ReadKind}
    (honours : kind.Honours platform processed codePage key) :
    kind.HonoursCount platform processed codePage key := by
  intro state event single after sent sentOnce
  cases kind with
  | line =>
      refine ⟨0, fun device call _ mode _ comes => ?_⟩
      rw [← mode] at honours
      exact Cooked.lineRequest_sameData sent sentOnce honours comes
  | unicode =>
      refine ⟨2 * (1 + maxRepeat * (state.read.stream.length + 1)), ?_⟩
      intro device call room _ _ faces
      have enough : 1 + maxRepeat * (state.read.stream.length + 1) ≤
          UnicodeRead.maxUnits call.toReadCall := by
        rw [UnicodeRead.maxUnits]
        omega
      exact UnicodeRead.rawUnicodeRead_sameData sent sentOnce ⟨faces, enough⟩
  | ansi =>
      refine ⟨1, fun device call room mode page faces => ?_⟩
      subst mode page
      exact ByteRead.rawAnsiRead_sameData sent sentOnce honours (Nat.ne_of_gt room) faces
  | raw =>
      refine ⟨1, fun device call room mode page alike => ?_⟩
      subst mode page
      exact ByteRead.rawRead_sameData sent sentOnce honours (Nat.ne_of_gt room) alike

/-- A request for UTF-16 units without echo. -/
def plainCall (processed : Bool) (codePage : CodePage) (capacity : Nat) : CookedCall :=
  { codePage, mode := ⟨if processed then 1 else 0⟩, capacity }

theorem plainCall_mode (processed : Bool) (codePage : CodePage) (capacity : Nat) :
    (plainCall processed codePage capacity).mode.processedInput = processed ∧
      (plainCall processed codePage capacity).mode.echoInput = false := by
  have modes : ∀ processed : Bool,
      (⟨if processed then 1 else 0⟩ : InputMode).processedInput = processed ∧
        (⟨if processed then 1 else 0⟩ : InputMode).echoInput = false := by decide
  exact modes processed

theorem plain_plainCall (processed : Bool) (codePage : CodePage) (capacity : Nat) :
    Cooked.Plain (plainCall processed codePage capacity) :=
  ⟨(plainCall_mode processed codePage capacity).2, rfl⟩

/-- A read by lines comes to the event behind Enter. -/
theorem comes_enter (platform : Platform) (codePage : CodePage) (one other : List Byte) :
    (windowDecoder platform codePage).Alike one other enterKey.win32Sequence := by
  have sent := enterKey.sentAs_win32Sequence
  have decoded := sent.token platform codePage []
  rw [List.append_nil] at decoded
  have reads := Decoder.Reads.single decoded
  rw [List.drop_length] at reads
  exact .of_reads reads one other

/-- Some read by lines returns something else for the event. -/
theorem line_differs (down : key.keyDown = true) (often : 2 ≤ key.count)
    (lost : ¬key.LineHonours processed) :
    ∃ state after, ∀ device (call : CookedCall), Cooked.Plain call → 8 ≤ call.capacity →
      call.mode.processedInput = processed →
        line.Comes platform call.toReadCall (key.win32Sequence ++ after)
            (sentTimes key.count key.once.win32Sequence ++ after) state.read ∧
          ¬line.Returns platform device call state (key.win32Sequence ++ after)
            (sentTimes key.count key.once.win32Sequence ++ after) := by
  have sent := key.sentAs_win32Sequence
  have sentOnce := key.once.sentAs_win32Sequence
  simp only [KeyEvent.LineHonours, not_or] at lost
  rcases lost with ⟨-, lost⟩
  by_cases isBreak : (processed && key.matchesCtrlBreak) = true
  · rw [if_pos isBreak, not_not] at lost
    refine ⟨typing {} none enterKey.win32Sequence, enterKey.win32Sequence, ?_⟩
    rintro device call plain room rfl
    exact ⟨comes_enter _ _ _ _,
      Cooked.ctrlBreak_differs plain room sent sentOnce down isBreak lost often⟩
  · rw [if_neg isBreak] at lost
    by_cases isC : (processed && key.matchesCtrlC) = true
    · rw [if_pos isC] at lost
      exact absurd trivial lost
    · rw [if_neg isC] at lost
      by_cases insert : key.virtualKeyCode = VtInput.vkInsert
      · rw [if_pos insert, not_or, not_not] at lost
        refine ⟨typing {} none enterKey.win32Sequence, typedKeys, ?_⟩
        rintro device call plain room rfl
        exact ⟨comes_enter _ _ _ _, Cooked.insert_differs plain room sent sentOnce down isBreak isC
          insert lost.1 (by omega)⟩
      · rw [if_neg insert] at lost
        cases edits : key.editsLine with
        | true =>
            rw [if_pos edits] at lost
            exact absurd trivial lost
        | false =>
            rw [edits, if_neg Bool.false_ne_true] at lost
            have newline : key.unicodeChar = 13 ∨ key.unicodeChar = 10 := by
              by_contra other
              exact lost (not_or.mp other)
            refine ⟨{}, [], ?_⟩
            rintro device call plain room rfl
            rw [List.append_nil, List.append_nil]
            exact ⟨.here, Cooked.newline_differs plain room sent sentOnce down isBreak isC edits
              newline often⟩

/-- A read comes to the event behind a letter. -/
theorem comes_letter (one other : List Byte) :
    ByteRead.pieceDecoder.Alike one other ByteRead.letterState.stream := by
  have decoded : ByteRead.pieceDecoder.decode [bc 'x'] = .token (.byte (bc 'x')) 1 := by decide
  exact .of_reads (Decoder.Reads.single decoded) one other

/-- The same calls for bytes. -/
theorem bytes_differ {read : ReadCall → ReadState → ReadState × ReadReply Byte} {controlZ : Bool}
    (down : key.keyDown = true) (typed : key.unicodeChar ≠ 0) (often : 2 ≤ key.count)
    (delivered : key.Delivered platform processed codePage)
    (looks : ∀ call : ReadCall, call.capacity ≠ 0 → ∀ more,
      read call (ByteRead.letterState.arrive more) =
        (ByteRead.readLoop platform call controlZ).run ⟨ByteRead.letterState.arrive more, []⟩)
    (stops : ∀ call : ReadCall, call.capacity ≠ 0 → (read call {}).2 = .pending) (room : Nat) :
    ∃ call : CookedCall, room ≤ call.capacity ∧ call.mode.processedInput = processed ∧
      call.codePage = codePage ∧
        ¬SameData (rawRequest (read call.toReadCall))
          (ByteRead.letterState.arrive (key.win32Sequence ++ []))
          (ByteRead.letterState.arrive (sentTimes key.count key.once.win32Sequence ++ [])) := by
  let width := (platform.wideCharToMultiByte codePage [key.unicodeChar]).length
  let call := plainCall processed codePage (max room (1 + key.count * width))
  have mode : call.mode.processedInput = processed := (plainCall_mode processed codePage _).1
  have enough : 1 + key.count * width ≤ call.capacity := Nat.le_max_right _ _
  have some : call.capacity ≠ 0 := by omega
  refine ⟨call, Nat.le_max_left _ _, mode, rfl, ?_⟩
  rw [← mode] at delivered
  rw [List.append_nil, List.append_nil]
  exact ByteRead.letter_differs key.sentAs_win32Sequence key.once.sentAs_win32Sequence delivered
    down typed often enough (looks call.toReadCall some) (stops call.toReadCall some)

theorem honours_of_honoursCount {kind : ReadKind} (down : key.keyDown = true)
    (typed : key.unicodeChar ≠ 0)
    (holds : kind.HonoursCount platform processed codePage key) :
    kind.Honours platform processed codePage key := by
  have sent := key.sentAs_win32Sequence
  have sentOnce := key.once.sentAs_win32Sequence
  have often (several : key.count ≠ 1) : 2 ≤ key.count := by
    have positive := key.count_pos
    omega
  let device : Device := ⟨fun _ _ => false⟩
  by_contra lost
  cases kind with
  | unicode => exact lost trivial
  | line =>
      have several : key.count ≠ 1 := fun once => lost (.inl once)
      rcases line_differs down (often several) lost with ⟨state, after, differs⟩
      rcases holds state _ _ after sent sentOnce with ⟨room, returns⟩
      have mode := (plainCall_mode processed codePage (max room 8)).1
      rcases differs device _ (plain_plainCall processed codePage (max room 8))
        (Nat.le_max_right _ _) mode with ⟨comes, differs⟩
      exact differs (returns device _ (Nat.le_max_left _ _) mode rfl comes)
  | ansi =>
      rw [Honours, not_or, not_not] at lost
      rcases holds { read := ByteRead.letterState } _ _ [] sent sentOnce with ⟨room, returns⟩
      rcases bytes_differ down typed (often lost.1) lost.2
        (fun call some => ByteRead.rawAnsiRead_letter some)
        (fun call some => ByteRead.rawAnsiRead_empty some) room with
        ⟨call, enough, mode, page, differs⟩
      have faces (one other : List Byte) : ReadState.Faces true ByteRead.pieceDecoder
          call.toReadCall one other ByteRead.letterState :=
        .of_calm (ByteRead.alone_piece (by decide) (by decide))
          (ByteRead.alone_piece (by decide) (by decide)) (.inl rfl) (comes_letter one other)
      exact differs (returns device call enough mode page (faces _ _))
  | raw =>
      rw [Honours, not_or, not_not] at lost
      rcases holds { read := ByteRead.letterState } _ _ [] sent sentOnce with ⟨room, returns⟩
      have looks (call : ReadCall) (_ : call.capacity ≠ 0) (more : List Byte) :
          ByteRead.rawRead platform call (ByteRead.letterState.arrive more) =
            (ByteRead.readLoop platform call true).run ⟨ByteRead.letterState.arrive more, []⟩ := rfl
      have stops (call : ReadCall) (some : call.capacity ≠ 0) :
          (ByteRead.rawRead platform call {}).2 = .pending :=
        congrArg Prod.snd (ByteRead.run_empty some true)
      rcases bytes_differ down typed (often lost.1) lost.2 looks stops room with
        ⟨call, enough, mode, page, differs⟩
      exact differs (returns device call enough mode page (comes_letter _ _))

/-- The reads return the same for a key with a repeat count, in whatever input it stands, exactly
if its count is honoured. -/
theorem honoursCount_iff (kind : ReadKind) (platform : Platform) (processed : Bool)
    (codePage : CodePage) (down : key.keyDown = true) (typed : key.unicodeChar ≠ 0) :
    kind.HonoursCount platform processed codePage key ↔
      kind.Honours platform processed codePage key :=
  ⟨honours_of_honoursCount down typed, honoursCount_of_honours⟩

/-- The key a held down for two characters. -/
def heldKey : KeyEvent := { unicodeChar := wc 'a', repeatCount := 2 }

theorem honoursCount_iff_heldKey :
    raw.HonoursCount Platform.utf8 true cpUtf8 heldKey ↔
      raw.Honours Platform.utf8 true cpUtf8 heldKey :=
  honoursCount_iff .raw Platform.utf8 true cpUtf8 rfl (by decide)

/-- Behind the letter x, one event of the key held down for two characters returns one of them to
`CONSOLE_IO_RAW_READ`, and two events return two. Enter held down is one line to a read by lines. -/
theorem honoursCount_fails :
    Collects (rawRequest (ByteRead.rawRead Platform.utf8 { capacity := 16 }))
        (ByteRead.letterState.arrive (sentTimes 1 heldKey.win32Sequence)) [[bc 'x', bc 'a']] ∧
      Collects (rawRequest (ByteRead.rawRead Platform.utf8 { capacity := 16 }))
        (ByteRead.letterState.arrive (sentTimes 2 heldKey.once.win32Sequence))
        [[bc 'x', bc 'a', bc 'a']] ∧
      ¬raw.HonoursCount Platform.utf8 true cpUtf8 heldKey ∧
      ¬line.HonoursCount Platform.utf8 true cpUtf8
        { virtualKeyCode := 0x0d, unicodeChar := 13, repeatCount := 2 } := by
  let call : ReadCall := { capacity := 16 }
  have some : call.capacity ≠ 0 := by decide
  have looks (more : List Byte) :
      ByteRead.rawRead Platform.utf8 call (ByteRead.letterState.arrive more) =
        (ByteRead.readLoop Platform.utf8 call true).run
          ⟨ByteRead.letterState.arrive more, []⟩ := rfl
  have stops : (ByteRead.rawRead Platform.utf8 call {}).2 = .pending :=
    congrArg Prod.snd (ByteRead.run_empty some true)
  have delivers : ByteRead.Delivers Platform.utf8 call heldKey :=
    ⟨by decide, by decide, by decide⟩
  refine ⟨?_, ?_, fun holds => ?_, fun holds => ?_⟩
  · exact ByteRead.collects_letter looks stops heldKey.sentAs_win32Sequence delivers rfl (by decide)
      1 (by decide)
  · exact ByteRead.collects_letter looks stops heldKey.once.sentAs_win32Sequence (by exact delivers)
      rfl (by decide) 2 (by decide)
  · rcases honours_of_honoursCount rfl (by decide) holds with once | kept
    · exact absurd once (by decide)
    · exact kept ⟨by decide, by decide, by decide⟩
  · rcases honours_of_honoursCount rfl (by decide) holds with once | kept
    · exact absurd once (by decide)
    · exact absurd kept (by decide)

end ReadKind

end Conhost
