import Conhost.Input.ByteTokens
import Conhost.Input.Discard

/-!
# Empty replies

A client takes a successful read of zero bytes for the end of its input. The
reads of the server reply so to Ctrl+Z; a byte read also does when the first
character it comes to is that of a key event and its encoding is longer than
the buffer.
-/

namespace Conhost

open Relation (ReflTransGen)

theorem unitBytes_eq_nil_iff (units : List WChar) : unitBytes units = [] ↔ units = [] := by
  cases units <;> simp [unitBytes]

/-- A delivery that succeeds hands out something. -/
theorem Delivery.deliverPending_ne_empty (platform : Platform) (codePage : CodePage)
    {unicode : Bool} {capacity : Nat} {pending : List WChar} (nonempty : pending ≠ [])
    (room : (if unicode then 2 else 1) ≤ capacity) :
    (deliverPending platform codePage unicode capacity pending).2 ≠ .complete .success [] := by
  rw [deliverPending, if_neg nonempty]
  cases unicode with
  | true =>
      have units : capacity / 2 ≠ 0 := by
        simp only [if_true] at room
        omega
      simp [unitBytes_eq_nil_iff, nonempty, units]
  | false =>
      have some : capacity ≠ 0 := by
        simp only [Bool.false_eq_true, if_false] at room
        omega
      simp only [Bool.false_eq_true, if_false, if_neg some, deliverAnsi]
      split
      · split <;> simp
      · split
        · simp
        · rename_i written
          simp only [not_or] at written
          simp [written.1]

namespace EditLine

theorem controlZ_of_handleUnits {processed controlZ : Bool} {values : List WChar} {edit : EditLine}
    (ends : (edit.handleUnits processed controlZ values).outcome = .endOfFile) :
    0x1a ∈ values := by
  induction values generalizing edit with
  | nil => cases ends
  | cons value later hypothesis =>
      simp only [handleUnits] at ends
      split at ends
      · exact List.mem_cons_of_mem _ (hypothesis ends)
      · simp only [handleSingleUnit, backspace, insertUnit] at ends
        split at ends
        · rename_i found
          simp only [Bool.and_eq_true, beq_iff_eq] at found
          simp [found.2]
        · repeat' split at ends
          all_goals cases ends

/-- Only Ctrl+Z ends the input. -/
theorem controlZ_of_handleToken {processed controlZ : Bool} {edit : EditLine} {token : Token}
    (ends : (edit.handleToken processed controlZ token).outcome = .endOfFile) :
    0x1a ∈ token.typed := by
  cases token with
  | ignoredSequence => cases ends
  | textUnits chars => exact controlZ_of_handleUnits ends
  | keyEvent key =>
      simp only [handleToken] at ends
      split at ends
      · cases ends
      · rename_i down
        simp only [Bool.not_eq_true', Bool.not_eq_false] at down
        repeat' split at ends
        any_goals cases ends
        rw [Token.typed, if_pos down]
        exact controlZ_of_handleUnits ends

end EditLine

namespace Cooked

variable {platform : Platform} {device : Device} {call : CookedCall} {state : CookedState}

/-- Answers to echoed queries are appended to the input. -/
theorem stream_echoTexts_prefix (platform : Platform) (device : Device) (call : CookedCall)
    (texts : List (List WChar)) (state : CookedState) :
    state.read.stream <+: (echoTexts platform device call texts state).1.read.stream := by
  rw [stream_echoTexts]
  exact List.prefix_append _ _

/-- The read takes a token that types Ctrl+Z off the stream and ends in `final`. -/
def ConsumesControlZ (platform : Platform) (device : Device) (call : CookedCall)
    (state final : CookedState) : Prop :=
  ∃ last token length, ReflTransGen (Continues (body platform device call)) (start state) last ∧
    platform.decodeOneInputToken call.codePage last.read.peekHead = .token token length ∧
    0x1a ∈ token.typed ∧ last.read.stream.drop length <+: final.read.stream

theorem conclude_empty {outcome : EditLine.Outcome} {final : CookedState}
    (room : (if call.unicode then 2 else 1) ≤ call.capacity)
    (pass : conclude platform device call state outcome =
      .leave (final, .ok (.complete .success []))) :
    outcome = .endOfFile ∧ final = state := by
  cases outcome with
  | proceed => cases pass
  | endOfFile =>
      cases pass
      exact ⟨rfl, rfl⟩
  | ctrlC => cases pass
  | ctrlBreak => cases pass
  | newline carriageReturn =>
      simp only [conclude] at pass
      split at pass
      · cases pass
      · rename_i echoed _
        exfalso
        simp only [finishLine, Pass.leave.injEq, Prod.mk.injEq, Except.ok.injEq] at pass
        refine Delivery.deliverPending_ne_empty platform call.codePage ?_ room pass.2
        rw [newlineSuffix]
        split <;> simp

theorem body_empty {final : CookedState} (room : (if call.unicode then 2 else 1) ≤ call.capacity)
    (pass : body platform device call state = .leave (final, .ok (.complete .success []))) :
    ∃ token length,
      platform.decodeOneInputToken call.codePage state.read.peekHead = .token token length ∧
        0x1a ∈ token.typed ∧ state.read.stream.drop length <+: final.read.stream := by
  have notIdle (state : CookedState) : (idle state).2 ≠ .ok (.complete .success []) := by
    simp only [idle]
    split <;> simp
  simp only [body] at pass
  split at pass
  · exact absurd (congrArg Prod.snd (Pass.leave.inj pass)) (notIdle _)
  · split at pass
    · exact absurd (congrArg Prod.snd (Pass.leave.inj pass)) (notIdle _)
    · rename_i token length decoded
      refine ⟨token, length, decoded, ?_⟩
      simp only [handleToken] at pass
      split at pass
      · cases pass
      · rename_i echoed echo
        rcases conclude_empty room pass with ⟨ends, rfl⟩
        refine ⟨EditLine.controlZ_of_handleToken ends, ?_⟩
        have kept := stream_echoTexts_prefix platform device call
          ((editLine (state.read.consume length).handle).handleToken call.mode.processedInput
            call.processControlZ token).echoes
          (setEdit { state with read := state.read.consume length }
            ((editLine (state.read.consume length).handle).handleToken call.mode.processedInput
              call.processControlZ token).edit)
        rw [echo] at kept
        exact (state.read.stream_consume length) ▸ kept

theorem readConsole_empty {fuel : Nat} {final : CookedState}
    (room : (if call.unicode then 2 else 1) ≤ call.capacity)
    (read : readConsole platform device call fuel state =
      some (final, .ok (.complete .success []))) :
    ConsumesControlZ platform device call state final := by
  have some : call.capacity ≠ 0 := by
    split at room <;> omega
  by_cases waiting : state.read.handle.cookedReadPending = []
  · rw [readConsole_iterate some waiting] at read
    rcases exists_iterate_iff.mp ⟨fuel, read⟩ with ⟨last, path, pass⟩
    rcases body_empty room pass with ⟨token, length, decoded, found, kept⟩
    exact ⟨last, token, length, path, decoded, found, kept⟩
  · exfalso
    rw [readConsole_deliver some waiting] at read
    simp only [Option.some.injEq, Prod.mk.injEq, Except.ok.injEq] at read
    exact Delivery.deliverPending_ne_empty platform call.codePage waiting room read.2

end Cooked

/-- A raw `ReadConsole` takes Ctrl+Z off the front of the queue, behind Ctrl+C bytes that are
processed. -/
def ByteRead.TakesControlZ (call : ReadCall) (state final : ReadState) : Prop :=
  controlZAtFront call (prepared call state) = true ∧
    final = (prepared call state).setQueue (prepared call state).host.inputQueue.tail

namespace UnicodeRead

variable {platform : Platform} {call : ReadCall} {loop : LoopState}

theorem finish_of_written (written : loop.written ≠ []) :
    (finish loop).2 ≠ .complete .success [] := by
  simp [finish, written]

theorem wait_ne_success {α : Type} (state : ReadState) (data : List α) :
    (state.wait : ReadState × ReadReply α).2 ≠ .complete .success data := by
  simp only [ReadState.wait]
  split <;> simp

theorem body_ne_empty (room : 0 < maxUnits call) {value : ReadState × ReadReply WChar}
    (pass : body platform call loop = .leave value) : value.2 ≠ .complete .success [] := by
  simp only [body] at pass
  split at pass
  · rename_i full
    cases pass
    apply finish_of_written
    intro empty
    simp only [empty, List.length_nil] at full
    omega
  · rename_i notFull
    split at pass
    · split at pass
      · rename_i written
        cases pass
        exact finish_of_written written
      · cases pass
        exact wait_ne_success _ _
    · split at pass
      · split at pass
        · rename_i written
          cases pass
          exact finish_of_written written
        · cases pass
          exact wait_ne_success _ _
      · cases pass
      · simp only [keyEvent] at pass
        repeat' split at pass
        all_goals cases pass
        simp
      · rename_i chars length decoded
        rcases Platform.decodeOneInputToken_text decoded with ⟨nonempty, short⟩
        split at pass
        · rename_i fits
          simp only [overflows, Bool.and_eq_true, decide_eq_true_eq, Bool.not_eq_true',
            Bool.and_eq_false_iff, beq_eq_false_iff_ne] at fits
          omega
        · simp only [textUnits] at pass
          split at pass
          · cases pass
          · split at pass
            · cases pass
              apply finish_of_written
              simp [nonempty]
            · split at pass
              · cases pass
                apply finish_of_written
                simp [nonempty]
              · cases pass

theorem readLoop_ne_empty (platform : Platform) (room : 0 < maxUnits call) (loop : LoopState) :
    ((readLoop platform call).run loop).2 ≠ .complete .success [] := by
  let Holds (_ : LoopState) (value : ReadState × ReadReply WChar) : Prop :=
    value.2 ≠ .complete .success []
  suffices holds : Holds loop _ from holds
  apply (readLoop platform call).run_induction
  · intro loop value pass
    exact body_ne_empty room pass
  · intro loop next value pass later
    exact later

theorem rawUnicodeRead_empty {state : ReadState} (room : 2 ≤ call.capacity)
    (empty : (rawUnicodeRead platform call state).2 = .complete .success []) :
    ByteRead.TakesControlZ call state (rawUnicodeRead platform call state).1 := by
  have units : 0 < maxUnits call := by
    rw [maxUnits]
    omega
  rw [rawUnicodeRead_eq (by omega)] at empty ⊢
  split at empty
  · exact absurd empty (wait_ne_success _ _)
  · rename_i unread
    split at empty
    · rename_i atFront
      refine ⟨atFront, ?_⟩
      rw [if_neg unread, if_pos atFront]
    · rw [if_neg (by omega)] at empty
      exact absurd empty (readLoop_ne_empty platform units _)

end UnicodeRead

namespace ByteRead

variable {platform : Platform} {call : ReadCall} {controlZ : Bool} {state : ReadState}

/-- Ctrl+Z as a byte or as a key. -/
def Piece.isControlZ : Piece → Bool
  | .byte value => value == 0x1a
  | .sequence (.keyEvent key) => key.keyDown && key.unicodeChar == 0x1a
  | .sequence _ => false

theorem isControlZ_of_action {atStart : Bool} {piece : Piece}
    (ends : action platform call controlZ atStart piece = .endOfFile) :
    piece.isControlZ = true := by
  simp only [action, keyAction] at ends
  split at ends
  · rename_i key
    repeat' split at ends
    any_goals cases ends
    rename_i down _ found
    simp only [Bool.not_eq_true', Bool.not_eq_false] at down
    simp only [Bool.and_eq_true, beq_iff_eq] at found
    simp [Piece.isControlZ, down, found.2]
  · cases ends
  · repeat' split at ends
    any_goals cases ends
    rename_i found
    simp only [Bool.and_eq_true] at found
    exact found.2

/-- `CONSOLE_IO_RAW_READ` comes to Ctrl+Z first and takes it off the stream. -/
def ConsumesControlZ (platform : Platform) (call : ReadCall) (state : ReadState) : Prop :=
  ∃ piece length rest, FirstPiece platform call true state.stream piece length rest ∧
    piece.isControlZ = true ∧ (rawRead platform call state).1.stream = rest.drop length

/-- The first character that the loop comes to is that of a key event and does not fit the
buffer. -/
def Oversized (platform : Platform) (call : ReadCall) (controlZ : Bool)
    (state : ReadState) : Prop :=
  ∃ key length rest,
    FirstPiece platform call controlZ state.stream (.sequence (.keyEvent key)) length rest ∧
      (keyAction platform call controlZ true key).Oversized call.capacity

theorem key_of_oversized (room : 0 < call.capacity) {piece : Piece}
    (large : (action platform call controlZ true piece).Oversized call.capacity) :
    ∃ key, piece = .sequence (.keyEvent key) := by
  cases piece with
  | sequence token =>
      cases token with
      | keyEvent key => exact ⟨key, rfl⟩
      | ignoredSequence => exact large.elim
      | textUnits chars => exact large.elim
  | byte value =>
      simp only [action] at large
      repeat' split at large
      any_goals exact large.elim
      have long := large.2
      simp only [List.length_singleton] at long
      omega

theorem Oversized.empty (room : 0 < call.capacity)
    (large : Oversized platform call controlZ state) :
    ((readLoop platform call controlZ).run ⟨state, []⟩).2 = .complete .success [] := by
  rcases large with ⟨key, length, rest, first, large⟩
  exact (readLoop_empty_iff room state).mpr ⟨_, length, rest, first, .inr large⟩

theorem Oversized.unread (large : Oversized platform call controlZ state) :
    state.exhausted = false := by
  rcases large with ⟨key, length, rest, ⟨pieces, reads, -, found, -⟩, -⟩
  rw [ReadState.exhausted_eq_false_iff]
  intro empty
  rw [empty] at reads
  cases reads with
  | done => cases found
  | step decoded _ => cases decoded

theorem action_isControlZ {piece : Piece} (isEnd : piece.isControlZ = true)
    (loud : (action platform call true true piece).isSilent = false) :
    action platform call true true piece = .endOfFile ∨
      action platform call true true piece = .interrupt := by
  cases piece with
  | byte value =>
      simp only [Piece.isControlZ, beq_iff_eq] at isEnd
      subst isEnd
      simp [action]
  | sequence token =>
      cases token with
      | keyEvent key =>
          simp only [Piece.isControlZ, Bool.and_eq_true, beq_iff_eq] at isEnd
          simp only [action, keyAction, isEnd.1, isEnd.2] at loud ⊢
          split
          · simp
          · rename_i noBreak
            rw [if_neg noBreak] at loud
            split
            · rename_i isCtrlC
              rw [if_pos isCtrlC] at loud
              cases loud
            · simp
      | ignoredSequence => cases isEnd
      | textUnits chars => cases isEnd

/-- Without the check of the loop nothing in it ends the input. -/
theorem action_false_ne_endOfFile (atStart : Bool) (piece : Piece) :
    action platform call false atStart piece ≠ .endOfFile := by
  simp only [action, keyAction, Bool.false_and, Bool.false_eq_true, if_false]
  repeat' split
  all_goals simp

theorem rawAnsiRead_emptyAtEnd_iff (room : 0 < call.capacity) :
    ((rawAnsiRead platform call state).2 = .complete .success [] →
        TakesControlZ call state (rawAnsiRead platform call state).1) ↔
      ¬(controlZAtFront call (prepared call state) = false ∧
        Oversized platform call false (prepared call state)) := by
  have some : call.capacity ≠ 0 := by omega
  rw [rawAnsiRead_eq some]
  constructor
  · rintro atEnd ⟨notFront, large⟩
    rw [if_neg (by simp [large.unread]), if_neg (by simp [notFront])] at atEnd
    have taken := (atEnd (large.empty room)).1
    rw [notFront] at taken
    cases taken
  · intro fits empty
    split at empty
    · exact absurd empty (UnicodeRead.wait_ne_success _ _)
    · rename_i unread
      cases front : controlZAtFront call (prepared call state) with
      | true =>
          refine ⟨front, ?_⟩
          rw [if_neg unread, if_pos rfl]
      | false =>
          rw [front, if_neg Bool.false_ne_true] at empty
          rcases (readLoop_empty_iff room _).mp empty with
            ⟨piece, length, rest, first, ends | large⟩
          · exact absurd ends (action_false_ne_endOfFile true piece)
          · rcases key_of_oversized room large with ⟨key, rfl⟩
            exact absurd ⟨front, key, length, rest, first, large⟩ fits

theorem rawRead_ends (room : 0 < call.capacity) {piece : Piece} {length : Nat} {rest : List Byte}
    (first : FirstPiece platform call true state.stream piece length rest)
    (ends : action platform call true true piece = .endOfFile) :
    (rawRead platform call state).1.stream = rest.drop length := by
  rcases run_of_firstPiece room first with ⟨last, rfl, run, pass⟩
  rw [ends] at pass
  rw [rawRead, run, (readLoop platform call true).run_of_leave pass]
  exact last.stream_consume length

theorem rawRead_emptyAtEnd_iff (room : 0 < call.capacity) :
    ((rawRead platform call state).2 = .complete .success [] →
        ConsumesControlZ platform call state) ↔
      ¬Oversized platform call true state := by
  constructor
  · intro atEnd large
    rcases atEnd (large.empty room) with ⟨piece, length, rest, first, isEnd, -⟩
    rcases large with ⟨key, length', rest', first', large⟩
    rcases first.unique first' with ⟨rfl, rfl, rfl⟩
    change (action platform call true true (.sequence (.keyEvent key))).Oversized _ at large
    rcases action_isControlZ isEnd first.loud with ends | ends
    · rw [ends] at large
      exact large
    · rw [ends] at large
      exact large
  · intro fits empty
    rcases (readLoop_empty_iff room state).mp empty with ⟨piece, length, rest, first, ends | large⟩
    · exact ⟨piece, length, rest, first, isControlZ_of_action ends, rawRead_ends room first ends⟩
    · rcases key_of_oversized room large with ⟨key, rfl⟩
      exact absurd ⟨key, length, rest, first, large⟩ fits

end ByteRead

/-- A request that reads characters, with the state it is dispatched in. -/
inductive CharacterRead where
  | line (device : Device) (call : CookedCall) (fuel : Nat) (state : CookedState)
  | unicode (call : ReadCall) (state : ReadState)
  | ansi (call : ReadCall) (state : ReadState)
  | raw (call : ReadCall) (state : ReadState)

namespace CharacterRead

variable (platform : Platform)

/-- The buffer holds a UTF-16 unit or, for the other requests, a byte. -/
def HasUnit : CharacterRead → Prop
  | line _ call _ _ => (if call.unicode then 2 else 1) ≤ call.capacity
  | unicode call _ => 2 ≤ call.capacity
  | ansi call _ => 1 ≤ call.capacity
  | raw call _ => 1 ≤ call.capacity

/-- The request succeeds with zero bytes only if it consumes Ctrl+Z. -/
def EmptyAtEnd : CharacterRead → Prop
  | line device call fuel state => ∀ final,
      Cooked.readConsole platform device call fuel state =
          some (final, .ok (.complete .success [])) →
        Cooked.ConsumesControlZ platform device call state final
  | unicode call state =>
      (UnicodeRead.rawUnicodeRead platform call state).2 = .complete .success [] →
        ByteRead.TakesControlZ call state (UnicodeRead.rawUnicodeRead platform call state).1
  | ansi call state =>
      (ByteRead.rawAnsiRead platform call state).2 = .complete .success [] →
        ByteRead.TakesControlZ call state (ByteRead.rawAnsiRead platform call state).1
  | raw call state =>
      (ByteRead.rawRead platform call state).2 = .complete .success [] →
        ByteRead.ConsumesControlZ platform call state

/-- A byte read comes, first of all, to the character of a key event that does not fit the
buffer. -/
def Oversized : CharacterRead → Prop
  | line _ _ _ _ => False
  | unicode _ _ => False
  | ansi call state =>
      ByteRead.controlZAtFront call (ByteRead.prepared call state) = false ∧
        ByteRead.Oversized platform call false (ByteRead.prepared call state)
  | raw call state => ByteRead.Oversized platform call true state

variable {platform}

/-- A success without a byte means the end of the input exactly if the first character of a byte
read is not one of a key event that is longer than the buffer. -/
theorem emptyAtEnd_iff (read : CharacterRead) (room : read.HasUnit) :
    read.EmptyAtEnd platform ↔ ¬read.Oversized platform := by
  cases read with
  | line device call fuel state =>
      refine iff_of_true ?_ id
      intro final empty
      exact Cooked.readConsole_empty room empty
  | unicode call state =>
      refine iff_of_true ?_ id
      intro empty
      exact UnicodeRead.rawUnicodeRead_empty room empty
  | ansi call state => exact ByteRead.rawAnsiRead_emptyAtEnd_iff room
  | raw call state => exact ByteRead.rawRead_emptyAtEnd_iff room

/-- The key that types the euro sign. -/
def euroKeyBytes : List Byte :=
  [0x1b, bc '[', bc '0', bc ';', bc '0', bc ';', bc '8', bc '3', bc '6', bc '4', bc ';', bc '1',
    bc ';', bc '0', bc ';', bc '1', bc '_']

theorem firstPiece_euroKey (capacity : Nat) : ByteRead.FirstPiece .utf8 { capacity } true
    euroKeyBytes (.sequence (.keyEvent { unicodeChar := 0x20ac })) euroKeyBytes.length
      euroKeyBytes := by
  refine ⟨[], .done _, by simp, by decide +kernel, ?_⟩
  have unprocessed : InputMode.processedInput ⟨0⟩ = false := by decide
  simp [ByteRead.action, ByteRead.keyAction, unprocessed, ByteRead.Action.isSilent]

/-- A buffer of three bytes holds it. -/
theorem emptyAtEnd_iff_euro :
    (raw { capacity := 3 } { host.inputQueue := euroKeyBytes }).EmptyAtEnd .utf8 := by
  refine (emptyAtEnd_iff _ (by simp [HasUnit])).mpr ?_
  rintro ⟨key, length, rest, first, large⟩
  rcases first.unique (firstPiece_euroKey 3) with ⟨same, -, -⟩
  cases same
  exact absurd large.2 (by decide)

/-- `RAW_READ` with a buffer of one byte succeeds with nothing, and the key remains. -/
theorem not_emptyAtEnd_euro :
    let read := raw { capacity := 1 } { host.inputQueue := euroKeyBytes }
    read.HasUnit ∧ ¬read.EmptyAtEnd .utf8 ∧
      ByteRead.rawRead .utf8 { capacity := 1 } { host.inputQueue := euroKeyBytes } =
        ({ host.inputQueue := euroKeyBytes }, .complete .success []) := by
  have large : ByteRead.Oversized .utf8 { capacity := 1 } true
      { host.inputQueue := euroKeyBytes } :=
    ⟨_, _, _, firstPiece_euroKey 1, by decide, by decide⟩
  refine ⟨by simp [HasUnit], ?_, ?_⟩
  · intro atEnd
    exact (ByteRead.rawRead_emptyAtEnd_iff Nat.one_pos).mp atEnd large
  · have found : ByteRead.pieceDecoder.decode
        (ReadState.stream { host.inputQueue := euroKeyBytes }) =
          .token (.sequence (.keyEvent { unicodeChar := 0x20ac })) euroKeyBytes.length := by
      decide +kernel
    have room : (⟨{ host.inputQueue := euroKeyBytes }, []⟩ : ByteRead.LoopState).written.length <
        ReadCall.capacity { capacity := 1 } := Nat.one_pos
    have pass : ByteRead.body .utf8 { capacity := 1 } true _ = _ := ByteRead.body_piece room found
    exact Loop.run_of_leave _ pass

end CharacterRead

end Conhost
