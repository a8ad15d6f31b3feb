import Conhost.Input.Waiting

/-!
# Byte reads, piece by piece

A byte read takes one piece off the stream at a time: a VT sequence or a single
byte. What a pass does follows from the piece, from whether anything has been
written yet, and from the room that is left. Pieces that deliver nothing are
passed over, so a read that has written nothing yet depends on the first piece
that is not.
-/

namespace Conhost

open Relation (ReflTransGen)
open VtInput (tryDecodeVt DecodeResult)

namespace ByteRead

/-- What a byte read takes off the stream at a time. -/
inductive Piece where
  | sequence (token : Token)
  | byte (value : Byte)
deriving DecidableEq

/-- The piece at the front of the peeked head. -/
def pieceAt : List Byte → Decoded Piece
  | [] => .needMore
  | first :: rest =>
      match headOutcome (first :: rest) with
      | .needMoreData => .needMore
      | .produced token length => .token (.sequence token) length
      | .noMatch => .token (.byte first) 1

theorem pieceAt_spec {head : List Byte} {piece : Piece} {length : Nat}
    (found : pieceAt head = .token piece length) :
    (∃ token, piece = .sequence token ∧ headOutcome head = .produced token length) ∨
      ∃ first rest, head = first :: rest ∧ piece = .byte first ∧ length = 1 ∧
        headOutcome head = .noMatch := by
  cases head with
  | nil => cases found
  | cons first rest =>
      simp only [pieceAt] at found
      split at found
      · cases found
      · rename_i token count produced
        cases found
        exact .inl ⟨token, rfl, produced⟩
      · rename_i noMatch
        cases found
        exact .inr ⟨first, rest, rfl, rfl, rfl, noMatch⟩

theorem pieceAt_bounds {head : List Byte} {piece : Piece} {length : Nat}
    (found : pieceAt head = .token piece length) : 0 < length ∧ length ≤ head.length := by
  rcases pieceAt_spec found with ⟨token, -, produced⟩ | ⟨first, rest, rfl, -, rfl, -⟩
  · rcases VtInput.tryDecodeVt_within _ (headOutcome_produced produced) with ⟨long, within, -⟩
    exact ⟨by omega, within⟩
  · exact ⟨Nat.one_pos, by simp⟩

/-- Further bytes do not change what is at the front. -/
theorem headOutcome_append {bytes : List Byte} (nonempty : bytes ≠ []) (more : List Byte)
    (decided : headOutcome (bytes.take 64) ≠ .needMoreData) :
    headOutcome ((bytes ++ more).take 64) = headOutcome (bytes.take 64) := by
  by_cases full : 64 ≤ bytes.length
  · rw [List.take_append_of_le_length full]
  · have short : bytes.take 64 = bytes := List.take_of_length_le (by omega)
    rw [short] at decided ⊢
    have undecided : ¬(tryDecodeVt bytes = .needMoreData ∧ bytes.length = 64) := by
      rintro ⟨-, long⟩
      omega
    rw [headOutcome, if_neg undecided] at decided
    have settled := VtInput.tryDecodeVt_append nonempty (more.take (64 - bytes.length)) decided
    rw [List.take_append, short, headOutcome, headOutcome, settled, if_neg (by tauto),
      if_neg undecided]

def pieceDecoder : Decoder Byte Piece where
  decode bytes := pieceAt (bytes.take 64)
  positive found := (pieceAt_bounds found).1
  bounded found := (pieceAt_bounds found).2.trans (List.length_take_le' _ _)
  stable := by
    intro bytes piece length more found
    cases bytes with
    | nil => cases found
    | cons first rest =>
        have decided : headOutcome ((first :: rest).take 64) ≠ .needMoreData := by
          intro waiting
          rw [List.take_succ_cons] at waiting found
          simp only [pieceAt, waiting] at found
          cases found
        have same := headOutcome_append (List.cons_ne_nil first rest) more decided
        rw [List.cons_append, List.take_succ_cons, List.take_succ_cons] at same
        rw [List.take_succ_cons] at found
        rw [List.cons_append, List.take_succ_cons]
        simp only [pieceAt, same]
        exact found

variable (platform : Platform) (call : ReadCall) (controlZ : Bool)

/-- What is to be done with a piece. -/
inductive Action where
  | skip
  | ctrlC
  | interrupt
  | endOfFile
  | deliver (bytes : List Byte)
deriving DecidableEq

def keyAction (atStart : Bool) (key : KeyEvent) : Action :=
  if call.mode.processedInput && key.keyDown && key.matchesCtrlBreak then .interrupt
  else if call.mode.processedInput && key.keyDown && key.matchesCtrlC then .ctrlC
  else if !key.keyDown then .skip
  else if key.unicodeChar = 0 then .skip
  else if controlZ && atStart && key.unicodeChar == 0x1a then .endOfFile
  else .deliver (platform.wideCharToMultiByte call.codePage [key.unicodeChar])

/-- `atStart` says that nothing has been written yet. -/
def action (atStart : Bool) : Piece → Action
  | .sequence (.keyEvent key) => keyAction platform call controlZ atStart key
  | .sequence _ => .skip
  | .byte value =>
      if call.mode.processedInput && value == 3 then .ctrlC
      else if controlZ && atStart && value == 0x1a then .endOfFile
      else .deliver [value]

/-- The pass that takes a piece of the given length. -/
def perform (loop : LoopState) (length : Nat) : Action → Pass LoopState (ReadState × ReadReply Byte)
  | .skip => .next { loop with state := loop.state.consume length }
  | .ctrlC =>
      .next { loop with state := (loop.state.consume length).forward call.processes .ctrlC }
  | .interrupt =>
      .leave ((loop.state.consume length).flushInput.forward call.processes .ctrlBreak,
        .complete .alerted [])
  | .endOfFile => .leave (loop.state.consume length, .complete .success [])
  | .deliver bytes =>
      if bytes = [] then .leave (loop.state, .complete .invalidParameter [])
      else if call.capacity - loop.written.length < bytes.length then .leave (finish loop)
      else if 16 < bytes.length then .leave (loop.state, .complete .invalidParameter [])
      else .next ⟨loop.state.consume length, loop.written ++ bytes⟩

variable {platform call controlZ} {loop : LoopState}

theorem keyEvent_eq_perform (key : KeyEvent) (length : Nat) :
    keyEvent platform call controlZ loop key length =
      perform call loop length (keyAction platform call controlZ loop.written.isEmpty key) := by
  simp only [keyEvent, keyAction]
  split
  · rfl
  · split
    · rfl
    · split
      · rfl
      · split
        · rfl
        · have same : (controlZ = true ∧ loop.written = [] ∧ key.unicodeChar = 0x1a) ↔
              (controlZ && loop.written.isEmpty && key.unicodeChar == 0x1a) = true := by
            simp [and_assoc]
          simp only [same]
          split
          · rfl
          · rfl

theorem plainByte_eq_perform (value : Byte) (room : loop.written.length < call.capacity) :
    plainByte call controlZ loop value =
      perform call loop 1 (action platform call controlZ loop.written.isEmpty (.byte value)) := by
  have ctrlC : (call.mode.processedInput = true ∧ value = 3) ↔
      (call.mode.processedInput && value == 3) = true := by simp
  have atEnd : (controlZ = true ∧ loop.written = [] ∧ value = 0x1a) ↔
      (controlZ && loop.written.isEmpty && value == 0x1a) = true := by simp [and_assoc]
  simp only [plainByte, action, ctrlC, atEnd]
  split
  · rfl
  · split
    · rfl
    · have fits : ¬call.capacity - loop.written.length < 1 := by omega
      have short : ¬16 < 1 := by omega
      simp only [perform, List.cons_ne_nil, if_false, List.length_singleton, if_neg fits,
        if_neg short]

/-- What a pass does, by the piece at the front of the stream. -/
theorem body_piece {piece : Piece} {length : Nat} (room : loop.written.length < call.capacity)
    (found : pieceDecoder.decode loop.state.stream = .token piece length) :
    body platform call controlZ loop =
      perform call loop length (action platform call controlZ loop.written.isEmpty piece) := by
  change pieceAt (loop.state.stream.take 64) = _ at found
  rw [← ReadState.peekHead_eq] at found
  rw [body, if_neg (Nat.not_le.mpr room)]
  rcases pieceAt_spec found with ⟨token, rfl, produced⟩ | ⟨first, rest, head, rfl, rfl, noMatch⟩
  · split
    · rename_i empty
      rw [empty] at produced
      cases produced
    · rename_i first rest head
      rw [head] at produced
      rw [produced]
      cases token with
      | keyEvent key => exact keyEvent_eq_perform key length
      | ignoredSequence => rfl
      | textUnits chars => rfl
  · rw [head] at noMatch ⊢
    simp only [noMatch]
    exact plainByte_eq_perform first room

/-- What a pass does where no piece can be taken. -/
theorem body_waiting (platform : Platform) (controlZ : Bool)
    (room : loop.written.length < call.capacity)
    (waiting : pieceDecoder.Waiting loop.state.stream) :
    (loop.state.stream = [] ∧ body platform call controlZ loop = .leave (finish loop)) ∨
      (loop.state.stream ≠ [] ∧
        body platform call controlZ loop = .leave (unfinished loop)) := by
  change pieceAt (loop.state.stream.take 64) = _ at waiting
  rw [← ReadState.peekHead_eq] at waiting
  rw [body, if_neg (Nat.not_le.mpr room)]
  split
  · rename_i empty
    rw [ReadState.peekHead_eq, List.take_eq_nil_iff] at empty
    exact .inl ⟨by simpa using empty, rfl⟩
  · rename_i first rest head
    rw [head] at waiting
    have unread : loop.state.stream ≠ [] := by
      intro empty
      rw [ReadState.peekHead_eq, empty] at head
      cases head
    refine .inr ⟨unread, ?_⟩
    simp only [pieceAt] at waiting
    split at waiting
    · rename_i more
      rw [more]
    · cases waiting
    · cases waiting

/-- The piece delivers nothing and does not end the read. -/
def Action.isSilent : Action → Bool
  | .skip => true
  | .ctrlC => true
  | _ => false

/-- The first piece of a stream that a read does not pass over, its length, and the stream from
it on. -/
abbrev FirstPiece (platform : Platform) (call : ReadCall) (controlZ : Bool) :
    List Byte → Piece → Nat → List Byte → Prop :=
  pieceDecoder.First fun piece => (action platform call controlZ true piece).isSilent

/-- All pieces of the stream are passed over. -/
abbrev AllSilent (platform : Platform) (call : ReadCall) (controlZ : Bool) : List Byte → Prop :=
  pieceDecoder.AllSilent fun piece => (action platform call controlZ true piece).isSilent

/-- Silent pieces are taken off the stream one after the other. -/
theorem path_of_silent (room : 0 < call.capacity) {stream rest : List Byte} {pieces : List Piece}
    (reads : pieceDecoder.Reads stream pieces rest)
    (silent : ∀ other ∈ pieces, (action platform call controlZ true other).isSilent = true)
    {state : ReadState} (unread : state.stream = stream) :
    ∃ last : ReadState, last.stream = rest ∧
      ReflTransGen (Continues (body platform call controlZ)) ⟨state, []⟩ ⟨last, []⟩ ∧
      last.host.inputDisconnected = state.host.inputDisconnected := by
  induction reads generalizing state with
  | done => exact ⟨state, unread, .refl, rfl⟩
  | @step bytes piece length pieces rest decoded later hypothesis =>
      subst unread
      have pass : body platform call controlZ ⟨state, []⟩ =
          perform call ⟨state, []⟩ length (action platform call controlZ true piece) :=
        body_piece room decoded
      have quiet := silent piece List.mem_cons_self
      have others : ∀ other ∈ pieces,
          (action platform call controlZ true other).isSilent = true :=
        fun other member => silent other (List.mem_cons_of_mem _ member)
      cases does : action platform call controlZ true piece with
      | skip =>
          rw [does] at pass
          rcases hypothesis others (state.stream_consume length) with ⟨last, left, path, kept⟩
          exact ⟨last, left, .head pass path, kept⟩
      | ctrlC =>
          rw [does] at pass
          have moved : ((state.consume length).forward call.processes .ctrlC).stream =
              state.stream.drop length := state.stream_consume length
          rcases hypothesis others moved with ⟨last, left, path, kept⟩
          exact ⟨last, left, .head pass path, kept⟩
      | interrupt | endOfFile | deliver =>
          rw [does] at quiet
          cases quiet

theorem run_of_firstPiece (room : 0 < call.capacity) {state : ReadState} {piece : Piece}
    {length : Nat} {rest : List Byte}
    (first : FirstPiece platform call controlZ state.stream piece length rest) :
    ∃ last : ReadState, last.stream = rest ∧
      (readLoop platform call controlZ).run ⟨state, []⟩ =
        (readLoop platform call controlZ).run ⟨last, []⟩ ∧
      body platform call controlZ ⟨last, []⟩ =
        perform call ⟨last, []⟩ length (action platform call controlZ true piece) := by
  rcases first with ⟨pieces, reads, silent, found, -⟩
  rcases path_of_silent room reads silent rfl with ⟨last, left, path, -⟩
  refine ⟨last, left, (readLoop platform call controlZ).run_of_path path, ?_⟩
  subst left
  exact body_piece room found

theorem run_of_allSilent (room : 0 < call.capacity) {state : ReadState}
    (silent : AllSilent platform call controlZ state.stream) :
    ∃ last : ReadState, (readLoop platform call controlZ).run ⟨state, []⟩ = last.wait := by
  rcases silent with ⟨pieces, rest, reads, quiet, waiting⟩
  rcases path_of_silent room reads quiet rfl with ⟨last, rfl, path, -⟩
  rw [(readLoop platform call controlZ).run_of_path path]
  have room' : (⟨last, []⟩ : LoopState).written.length < call.capacity := room
  rcases body_waiting platform controlZ room' waiting with ⟨empty, pass⟩ | ⟨-, pass⟩
  · rw [(readLoop platform call controlZ).run_of_leave pass]
    refine ⟨last, ?_⟩
    have exhausted : last.exhausted = true := last.exhausted_iff.mpr empty
    simp [finish, exhausted]
  · rw [(readLoop platform call controlZ).run_of_leave pass]
    exact ⟨last.drain (64 - last.pendingPrefix.length), rfl⟩

/-- A pass that continues adds to what has been written. -/
theorem perform_next {does : Action} {length : Nat} {next : LoopState}
    (pass : perform call loop length does = .next next) :
    ∃ bytes, next.written = loop.written ++ bytes := by
  cases does with
  | skip =>
      cases pass
      exact ⟨[], by simp⟩
  | ctrlC =>
      cases pass
      exact ⟨[], by simp⟩
  | interrupt => cases pass
  | endOfFile => cases pass
  | deliver bytes =>
      simp only [perform] at pass
      split at pass
      · cases pass
      · split at pass
        · cases pass
        · split at pass
          · cases pass
          · cases pass
            exact ⟨bytes, rfl⟩

theorem action_ne_endOfFile (piece : Piece) :
    action platform call controlZ false piece ≠ .endOfFile := by
  simp only [action]
  split
  · simp only [keyAction, Bool.and_false, Bool.false_and, Bool.false_eq_true, if_false]
    repeat' split
    all_goals simp
  · simp
  · simp only [Bool.and_false, Bool.false_and, Bool.false_eq_true, if_false]
    split <;> simp

theorem finish_of_written (written : loop.written ≠ []) :
    (finish loop).2 ≠ .complete .success [] := by
  simp [finish, written]

theorem perform_leave {does : Action} {length : Nat} {value : ReadState × ReadReply Byte}
    (pass : perform call loop length does = .leave value) (written : loop.written ≠ [])
    (goesOn : does ≠ .endOfFile) : value.2 ≠ .complete .success [] := by
  cases does with
  | skip => cases pass
  | ctrlC => cases pass
  | interrupt =>
      cases pass
      simp
  | endOfFile => exact absurd rfl goesOn
  | deliver bytes =>
      simp only [perform] at pass
      split at pass
      · cases pass
        simp
      · split at pass
        · cases pass
          exact finish_of_written written
        · split at pass
          · cases pass
            simp
          · cases pass

/-- Once something has been written, a success returns it. -/
theorem readLoop_of_written (platform : Platform) (call : ReadCall) (controlZ : Bool)
    (loop : LoopState) (some : loop.written ≠ []) :
    ((readLoop platform call controlZ).run loop).2 ≠ .complete .success [] := by
  let Holds (loop : LoopState) (value : ReadState × ReadReply Byte) : Prop :=
    loop.written ≠ [] → value.2 ≠ .complete .success []
  suffices holds : Holds loop _ from holds some
  apply (readLoop platform call controlZ).run_induction
  · intro loop value pass written
    change body platform call controlZ loop = .leave value at pass
    by_cases full : call.capacity ≤ loop.written.length
    · rw [body, if_pos full] at pass
      cases pass
      exact finish_of_written written
    · replace full := Nat.not_le.mp full
      cases decoded : pieceDecoder.decode loop.state.stream with
      | needMore =>
          rcases body_waiting platform controlZ full decoded with ⟨-, left⟩ | ⟨-, left⟩
          · cases left.symm.trans pass
            exact finish_of_written written
          · cases left.symm.trans pass
            rw [unfinished, if_pos written]
            exact finish_of_written written
      | token piece length =>
          rw [body_piece full decoded, List.isEmpty_eq_false_iff.mpr written] at pass
          exact perform_leave pass written (action_ne_endOfFile piece)
  · intro loop next value pass holds written
    rcases body_next pass with ⟨full, -, -, count, positive, advanced, -⟩
    cases decoded : pieceDecoder.decode loop.state.stream with
    | needMore =>
        change body platform call controlZ loop = .next next at pass
        rcases body_waiting platform controlZ full decoded with ⟨-, left⟩ | ⟨-, left⟩ <;>
          cases left.symm.trans pass
    | token piece length =>
        rcases perform_next ((body_piece full decoded).symm.trans pass) with ⟨bytes, longer⟩
        apply holds
        rw [longer]
        simp [written]

/-- A character whose encoding is longer than the buffer. -/
def Action.Oversized (capacity : Nat) : Action → Prop
  | .deliver bytes => bytes ≠ [] ∧ capacity < bytes.length
  | _ => False

theorem run_of_first {state : ReadState} {length : Nat} {does : Action}
    (unread : state.stream ≠ []) (loud : does.isSilent = false)
    (pass : body platform call controlZ ⟨state, []⟩ = perform call ⟨state, []⟩ length does) :
    ((readLoop platform call controlZ).run ⟨state, []⟩).2 = .complete .success [] ↔
      does = .endOfFile ∨ does.Oversized call.capacity := by
  have busy : state.exhausted = false := state.exhausted_eq_false_iff.mpr unread
  cases does with
  | skip => cases loud
  | ctrlC => cases loud
  | interrupt =>
      rw [(readLoop platform call controlZ).run_of_leave pass]
      simp [Action.Oversized]
  | endOfFile =>
      rw [(readLoop platform call controlZ).run_of_leave pass]
      simp
  | deliver bytes =>
      simp only [perform, List.length_nil, Nat.sub_zero, List.nil_append] at pass
      simp only [Action.Oversized, reduceCtorEq, false_or]
      split at pass
      · rename_i failed
        rw [(readLoop platform call controlZ).run_of_leave pass]
        simp [failed]
      · rename_i encoded
        split at pass
        · rename_i large
          rw [(readLoop platform call controlZ).run_of_leave pass]
          simp [finish, busy, encoded, large]
        · rename_i fits
          split at pass
          · rw [(readLoop platform call controlZ).run_of_leave pass]
            simp [fits]
          · rw [(readLoop platform call controlZ).run_of_next pass]
            have returned := readLoop_of_written platform call controlZ
              ⟨state.consume length, bytes⟩ encoded
            simp [returned, fits]

/-- A read that succeeds without a byte has come, first of all, to Ctrl+Z or to a character that
does not fit. -/
theorem readLoop_empty_iff (room : 0 < call.capacity) (state : ReadState) :
    ((readLoop platform call controlZ).run ⟨state, []⟩).2 = .complete .success [] ↔
      ∃ piece length rest, FirstPiece platform call controlZ state.stream piece length rest ∧
        (action platform call controlZ true piece = .endOfFile ∨
          (action platform call controlZ true piece).Oversized call.capacity) := by
  constructor
  · intro empty
    rcases pieceDecoder.exists_first_or_allSilent
        (fun piece => (action platform call controlZ true piece).isSilent) state.stream with
      ⟨piece, length, rest, first⟩ | silent
    · rcases run_of_firstPiece room first with ⟨last, rfl, run, pass⟩
      rw [run, run_of_first first.unread first.loud pass] at empty
      exact ⟨piece, length, last.stream, first, empty⟩
    · rcases run_of_allSilent room silent with ⟨last, run⟩
      rw [run, ReadState.wait] at empty
      split at empty <;> simp at empty
  · rintro ⟨piece, length, rest, first, empties⟩
    rcases run_of_firstPiece room first with ⟨last, rfl, run, pass⟩
    rw [run, run_of_first first.unread first.loud pass]
    exact empties

end ByteRead

end Conhost
