import Conhost.Input.EndOfFile
import Conhost.Input.UnicodeTokens

/-!
# Ctrl+Z in raw reads

`CONSOLE_IO_RAW_READ` ends the input when the first character it comes to is
Ctrl+Z, typed or sent as a byte. A raw `ReadConsole` looks at the first byte of
the queue only, before it decodes anything.
-/

namespace Conhost

/-- Moving the first element of a list in front of another one changes nothing. -/
theorem all_eq_of_rotated {α : Type} {first last : α} {middle tail : List α}
    (same : first :: (middle ++ tail) = middle ++ last :: tail) :
    first = last ∧ ∀ value ∈ middle, value = last := by
  induction middle generalizing first with
  | nil =>
      cases same
      exact ⟨rfl, by simp⟩
  | cons second middle hypothesis =>
      simp only [List.cons_append, List.cons.injEq] at same
      rcases hypothesis same.2 with ⟨equal, others⟩
      exact ⟨same.1.trans equal, by simpa [equal] using others⟩

theorem rotated_of_all_eq {α : Type} {last : α} {middle : List α}
    (all : ∀ value ∈ middle, value = last) (tail : List α) :
    middle ++ last :: tail = last :: (middle ++ tail) := by
  induction middle with
  | nil => rfl
  | cons second middle hypothesis =>
      simp only [List.mem_cons, forall_eq_or_imp] at all
      rw [List.cons_append, hypothesis all.2, all.1, List.cons_append]

/-- What is left when one byte was taken out of the middle is what is left behind a token at the
front only if that token is the byte and all bytes before it are the same. -/
theorem all_eq_of_dropped {α : Type} {value : α} {before tail rest : List α} {length : Nat}
    (suffix : rest <:+ before ++ value :: tail) (positive : 0 < length)
    (bounded : length ≤ rest.length)
    (left : before ++ tail = rest.drop length) : ∀ other ∈ before, other = value := by
  have sizes := congrArg List.length left
  have shorter := suffix.length_le
  simp only [List.length_append, List.length_cons, List.length_drop] at sizes shorter
  have whole : rest = before ++ value :: tail := by
    apply suffix.eq_of_length
    simp only [List.length_append, List.length_cons]
    omega
  have single : length = 1 := by omega
  subst whole single
  cases before with
  | nil => simp
  | cons first middle =>
      simp only [List.cons_append, List.drop_succ_cons, List.drop_zero] at left
      rcases all_eq_of_rotated left with ⟨equal, others⟩
      simpa [equal] using others

namespace ByteRead

variable {platform : Platform} {call : ReadCall} {state : ReadState} {stream left : List Byte}

/-- Ctrl+Z is the first character of the stream, and `left` follows it. -/
def ControlZFirst (platform : Platform) (call : ReadCall) (stream left : List Byte) : Prop :=
  ∃ piece length rest, FirstPiece platform call true stream piece length rest ∧
    action platform call true true piece = .endOfFile ∧ left = rest.drop length

theorem ControlZFirst.unique {left' : List Byte} (one : ControlZFirst platform call stream left)
    (other : ControlZFirst platform call stream left') : left = left' := by
  rcases one with ⟨piece, length, rest, first, -, rfl⟩
  rcases other with ⟨piece', length', rest', first', -, rfl⟩
  rcases first.unique first' with ⟨-, rfl, rfl⟩
  rfl

/-- What is passed over does not depend on the check for Ctrl+Z. -/
theorem isSilent_action (controlZ : Bool) (piece : Piece) :
    (action platform call controlZ true piece).isSilent =
      (action platform call false true piece).isSilent := by
  cases controlZ with
  | false => rfl
  | true =>
      simp only [action, keyAction]
      split
      · repeat' split
        all_goals simp_all [Action.isSilent]
      · rfl
      · repeat' split
        all_goals simp_all [Action.isSilent]

theorem firstPiece_true_iff {piece : Piece} {length : Nat} {rest : List Byte} :
    FirstPiece platform call true stream piece length rest ↔
      FirstPiece platform call false stream piece length rest := by
  have same : (fun piece => (action platform call true true piece).isSilent) =
      fun piece => (action platform call false true piece).isSilent :=
    funext (isSilent_action true)
  simp only [FirstPiece, same]

/-- A Ctrl+Z byte at the front of the stream. -/
theorem controlZFirst_of_byte (tail : List Byte) :
    ControlZFirst platform call (0x1a :: tail) tail := by
  have ends : action platform call true true (.byte 0x1a) = .endOfFile := by
    simp [action]
  refine ⟨.byte 0x1a, 1, 0x1a :: tail, ⟨[], .done _, by simp, ?_, ?_⟩, ends, rfl⟩
  · change pieceAt (0x1a :: tail.take 63) = _
    have noMatch : VtInput.tryDecodeVt (0x1a :: tail.take 63) = .noMatch := rfl
    simp [pieceAt, headOutcome, noMatch]
  · simp [ends, Action.isSilent]

theorem rawRead_endsExactly_iff (room : 0 < call.capacity) :
    (((rawRead platform call state).2 = .complete .success [] ↔
        ∃ left, ControlZFirst platform call state.stream left) ∧
      ∀ left, ControlZFirst platform call state.stream left →
        (rawRead platform call state).1.stream = left) ↔
      ¬Oversized platform call true state := by
  constructor
  · rintro ⟨exactly, -⟩ large
    rcases exactly.mp (large.empty room) with ⟨left, piece, length, rest, first, ends, -⟩
    rcases large with ⟨key, length', rest', first', large⟩
    rcases first.unique first' with ⟨rfl, -, -⟩
    change (action platform call true true (.sequence (.keyEvent key))).Oversized _ at large
    rw [ends] at large
    exact large
  · intro fits
    refine ⟨⟨?_, ?_⟩, ?_⟩
    · intro empty
      rcases (readLoop_empty_iff room state).mp empty with
        ⟨piece, length, rest, first, ends | large⟩
      · exact ⟨_, piece, length, rest, first, ends, rfl⟩
      · rcases key_of_oversized room large with ⟨key, rfl⟩
        exact absurd ⟨key, length, rest, first, large⟩ fits
    · rintro ⟨left, piece, length, rest, first, ends, -⟩
      exact (readLoop_empty_iff room state).mpr ⟨piece, length, rest, first, .inl ends⟩
    · rintro left ⟨piece, length, rest, first, ends, rfl⟩
      exact rawRead_ends room first ends

/-- A character that does not fit is not taken off the stream. -/
theorem Oversized.keeps_stream (room : 0 < call.capacity) {piece : Piece} {length : Nat}
    {rest : List Byte} (large : Oversized platform call false state)
    (first : FirstPiece platform call false state.stream piece length rest) :
    ((readLoop platform call false).run ⟨state, []⟩).1.stream = rest := by
  rcases large with ⟨key, length', rest', first', large⟩
  rcases first.unique first' with ⟨rfl, rfl, rfl⟩
  rcases run_of_firstPiece room first with ⟨last, rfl, run, pass⟩
  rw [run]
  have busy : last.exhausted = false := last.exhausted_eq_false_iff.mpr first.unread
  change (action platform call false true (.sequence (.keyEvent key))).Oversized _ at large
  generalize action platform call false true (.sequence (.keyEvent key)) = does at large pass
  cases does with
  | deliver bytes =>
      have tooLong : call.capacity - ([] : List Byte).length < bytes.length := large.2
      simp only [perform, if_neg large.1, if_pos tooLong] at pass
      rw [(readLoop platform call false).run_of_leave pass]
      simp [finish, busy]
  | _ => exact large.elim

theorem controlZAtFront_iff : controlZAtFront call state = true ↔
    call.processControlZ = true ∧ ∃ tail, state.host.inputQueue = 0x1a :: tail := by
  simp only [controlZAtFront, Bool.and_eq_true, beq_iff_eq, List.head?_eq_some_iff]

theorem exhausted_of_front (front : controlZAtFront call state = true) :
    state.exhausted = false := by
  rcases controlZAtFront_iff.mp front with ⟨-, tail, queue⟩
  simp [ReadState.exhausted, queue]

/-- Where the end of the input is found at the front of the queue, that is the Ctrl+Z the stream
begins with exactly if nothing but Ctrl+Z is drained already. -/
theorem controlZFirst_front_iff (front : controlZAtFront call state = true) :
    (∃ left, ControlZFirst platform call state.stream left ∧
        (state.setQueue state.host.inputQueue.tail).stream = left) ↔
      ∀ byte ∈ state.pendingPrefix, byte = 0x1a := by
  rcases controlZAtFront_iff.mp front with ⟨-, tail, queue⟩
  have stream : state.stream = state.pendingPrefix ++ 0x1a :: tail := by
    rw [ReadState.stream, queue]
  have left : (state.setQueue state.host.inputQueue.tail).stream = state.pendingPrefix ++ tail := by
    rw [queue]
    rfl
  rw [stream, left]
  constructor
  · rintro ⟨left, ⟨piece, length, rest, first, -, rfl⟩, same⟩
    rcases first with ⟨pieces, reads, -, found, -⟩
    exact all_eq_of_dropped reads.suffix (pieceDecoder.positive found)
      (pieceDecoder.bounded found) same
  · intro all
    refine ⟨_, ?_, rfl⟩
    rw [rotated_of_all_eq all]
    exact controlZFirst_of_byte _

theorem rawAnsiRead_front (room : call.capacity ≠ 0)
    (front : controlZAtFront call (prepared call state) = true) :
    rawAnsiRead platform call state = ((prepared call state).setQueue
      (prepared call state).host.inputQueue.tail, .complete .success []) := by
  rw [rawAnsiRead_eq room, if_neg (by simp [exhausted_of_front front]), if_pos front]

theorem rawAnsiRead_behind (room : 0 < call.capacity)
    (behind : controlZAtFront call (prepared call state) = false) :
    (rawAnsiRead platform call state).2 = .complete .success [] ↔
      Oversized platform call false (prepared call state) := by
  have some : call.capacity ≠ 0 := by omega
  constructor
  · intro empty
    by_contra fits
    have taken := (rawAnsiRead_emptyAtEnd_iff room).mpr (fun large => fits large.2) empty
    rw [TakesControlZ, behind] at taken
    cases taken.1
  · intro large
    rw [rawAnsiRead_eq some, if_neg (by simp [large.unread]), if_neg (by simp [behind])]
    exact large.empty room

theorem not_controlZFirst_of_oversized (room : 0 < call.capacity)
    (behind : controlZAtFront call (prepared call state) = false)
    (large : Oversized platform call false (prepared call state))
    (first : ControlZFirst platform call (prepared call state).stream left) :
    (rawAnsiRead platform call state).1.stream ≠ left := by
  have some : call.capacity ≠ 0 := by omega
  rcases first with ⟨piece, length, rest, first, -, rfl⟩
  rw [rawAnsiRead_eq some, if_neg (by simp [large.unread]), if_neg (by simp [behind])]
  rw [large.keeps_stream room (firstPiece_true_iff.mp first)]
  intro same
  have sizes := congrArg List.length same
  have unread := List.length_pos_of_ne_nil first.unread
  rcases first with ⟨-, -, -, found, -⟩
  have positive := pieceDecoder.positive found
  rw [List.length_drop] at sizes
  omega

theorem rawAnsiRead_endsExactly_iff (room : 0 < call.capacity) :
    (((rawAnsiRead platform call state).2 = .complete .success [] ↔
        ∃ left, ControlZFirst platform call (prepared call state).stream left) ∧
      ∀ left, ControlZFirst platform call (prepared call state).stream left →
        (rawAnsiRead platform call state).1.stream = left) ↔
      if controlZAtFront call (prepared call state) then
        ∀ byte ∈ state.pendingPrefix, byte = 0x1a
      else (¬∃ left, ControlZFirst platform call (prepared call state).stream left) ∧
        ¬Oversized platform call false (prepared call state) := by
  have some : call.capacity ≠ 0 := by omega
  cases front : controlZAtFront call (prepared call state) with
  | true =>
      have iff : (∃ left, ControlZFirst platform call (prepared call state).stream left ∧ _) ↔ _ :=
        controlZFirst_front_iff front
      rw [pendingPrefix_prepared] at iff
      rw [rawAnsiRead_front some front, if_pos rfl, ← iff]
      constructor
      · rintro ⟨exactly, takes⟩
        rcases exactly.mp rfl with ⟨left, first⟩
        exact ⟨left, first, takes left first⟩
      · rintro ⟨left, first, same⟩
        refine ⟨iff_of_true rfl ⟨left, first⟩, ?_⟩
        intro left' first'
        rw [same, first.unique first']
  | false =>
      rw [rawAnsiRead_behind room front, if_neg Bool.false_ne_true]
      constructor
      · rintro ⟨exactly, takes⟩
        have absent : ¬∃ left, ControlZFirst platform call (prepared call state).stream left := by
          rintro ⟨left, first⟩
          exact not_controlZFirst_of_oversized room front (exactly.mpr ⟨left, first⟩) first
            (takes left first)
        exact ⟨absent, fun large => absent (exactly.mp large)⟩
      · rintro ⟨absent, fits⟩
        exact ⟨iff_of_false fits absent, fun left first => absurd ⟨left, first⟩ absent⟩

end ByteRead

namespace UnicodeRead

variable {platform : Platform} {call : ReadCall} {state : ReadState}

/-- The first unit the handle has to deliver is Ctrl+Z, and `left` follows it. -/
def ControlZFirst (platform : Platform) (call : ReadCall) (state : ReadState) (left : List Byte) :
    Prop :=
  (state.handle.decodedInputPending = some 0x1a ∧ left = state.stream) ∨
    (state.handle.decodedInputPending = none ∧ ∃ token length rest,
      (windowDecoder platform call.codePage).First (fun token => (action call token).isSilent)
          state.stream token length rest ∧
        (action call token).units.head? = some 0x1a ∧ left = rest.drop length)

/-- In the input code page the byte of Ctrl+Z is the character of Ctrl+Z. -/
structure DecodesControlZ (platform : Platform) (codePage : CodePage) : Prop where
  single : platform.isDbcsLeadByteEx codePage 0x1a = false
  unit : platform.multiByteToWideChar codePage (codePage == cpUtf8) [0x1a] = [0x1a]

theorem ControlZFirst.unique {left left' : List Byte}
    (one : ControlZFirst platform call state left)
    (other : ControlZFirst platform call state left') : left = left' := by
  rcases one with ⟨held, rfl⟩ | ⟨held, token, length, rest, first, -, rfl⟩
  · rcases other with ⟨-, rfl⟩ | ⟨none, -⟩
    · rfl
    · rw [held] at none
      cases none
  · rcases other with ⟨some, -⟩ | ⟨-, token', length', rest', first', -, rfl⟩
    · rw [held] at some
      cases some
    · rcases first.unique first' with ⟨-, rfl, rfl⟩
      rfl

theorem controlZFirst_of_byte (decodes : DecodesControlZ platform call.codePage)
    (empty : state.handle.decodedInputPending = none) {tail : List Byte}
    (stream : state.stream = 0x1a :: tail) : ControlZFirst platform call state tail := by
  refine .inr ⟨empty, .textUnits [0x1a], 1, 0x1a :: tail, ?_, ?_, rfl⟩
  · rw [stream]
    refine ⟨[], .done _, by simp, ?_, ?_⟩
    · exact Records.decodeOneInputToken_single decodes.single (by decide) decodes.unit (by decide) _
    · simp [action, Action.isSilent]
  · simp [action, Action.units]

theorem rawUnicodeRead_front (room : call.capacity ≠ 0)
    (front : ByteRead.controlZAtFront call (ByteRead.prepared call state) = true) :
    rawUnicodeRead platform call state = ((ByteRead.prepared call state).setQueue
      (ByteRead.prepared call state).host.inputQueue.tail, .complete .success []) := by
  rw [rawUnicodeRead_eq room, if_neg (by simp [ByteRead.exhausted_of_front front]), if_pos front]

theorem controlZFirst_front_iff (decodes : DecodesControlZ platform call.codePage)
    (front : ByteRead.controlZAtFront call state = true) :
    (∃ left, ControlZFirst platform call state left ∧
        (state.setQueue state.host.inputQueue.tail).stream = left) ∧
        state.handle.decodedInputPending = none ↔
      state.handle.decodedInputPending = none ∧ ∀ byte ∈ state.pendingPrefix, byte = 0x1a := by
  rcases ByteRead.controlZAtFront_iff.mp front with ⟨-, tail, queue⟩
  have stream : state.stream = state.pendingPrefix ++ 0x1a :: tail := by
    rw [ReadState.stream, queue]
  have left : (state.setQueue state.host.inputQueue.tail).stream = state.pendingPrefix ++ tail := by
    rw [queue]
    rfl
  rw [left]
  constructor
  · rintro ⟨⟨left, first, same⟩, empty⟩
    refine ⟨empty, ?_⟩
    rcases first with ⟨held, -⟩ | ⟨-, token, length, rest, first, -, rfl⟩
    · rw [empty] at held
      cases held
    · rw [stream] at first
      rcases first with ⟨tokens, reads, -, found, -⟩
      exact all_eq_of_dropped reads.suffix ((windowDecoder platform call.codePage).positive found)
        ((windowDecoder platform call.codePage).bounded found) same
  · rintro ⟨empty, all⟩
    refine ⟨⟨_, controlZFirst_of_byte decodes empty ?_, rfl⟩, empty⟩
    rw [stream, rotated_of_all_eq all]

theorem rawUnicodeRead_endsExactly_iff (decodes : DecodesControlZ platform call.codePage)
    (room : 2 ≤ call.capacity) :
    (((rawUnicodeRead platform call state).2 = .complete .success [] ↔
        ∃ left, ControlZFirst platform call (ByteRead.prepared call state) left) ∧
      ∀ left, ControlZFirst platform call (ByteRead.prepared call state) left →
        (rawUnicodeRead platform call state).1.stream = left ∧
          (rawUnicodeRead platform call state).1.handle.decodedInputPending = none) ↔
      if ByteRead.controlZAtFront call (ByteRead.prepared call state) then
        state.handle.decodedInputPending = none ∧ ∀ byte ∈ state.pendingPrefix, byte = 0x1a
      else ¬∃ left, ControlZFirst platform call (ByteRead.prepared call state) left := by
  cases front : ByteRead.controlZAtFront call (ByteRead.prepared call state) with
  | true =>
      have iff := controlZFirst_front_iff decodes front
      rw [ByteRead.pendingPrefix_prepared, ByteRead.held_prepared] at iff
      rw [rawUnicodeRead_front (by omega) front, if_pos rfl, ← iff]
      constructor
      · rintro ⟨exactly, takes⟩
        rcases exactly.mp rfl with ⟨left, first⟩
        rcases takes left first with ⟨same, empty⟩
        exact ⟨⟨left, first, same⟩, ByteRead.held_prepared.symm.trans empty⟩
      · rintro ⟨⟨left, first, same⟩, empty⟩
        refine ⟨iff_of_true rfl ⟨left, first⟩, ?_⟩
        intro left' first'
        exact ⟨by rw [same, first.unique first'], ByteRead.held_prepared.trans empty⟩
  | false =>
      have notEnd : (rawUnicodeRead platform call state).2 ≠ .complete .success [] := by
        intro empty
        have taken := (rawUnicodeRead_empty room empty).1
        rw [front] at taken
        cases taken
      rw [if_neg Bool.false_ne_true]
      constructor
      · rintro ⟨exactly, -⟩ present
        exact notEnd (exactly.mpr present)
      · intro absent
        exact ⟨iff_of_false notEnd absent, fun left first => absurd ⟨left, first⟩ absent⟩

end UnicodeRead

/-- A request that reads characters and not lines, with the state it is dispatched in. -/
inductive StreamRead where
  | unicode (call : ReadCall) (state : ReadState)
  | ansi (call : ReadCall) (state : ReadState)
  | raw (call : ReadCall) (state : ReadState)

namespace StreamRead

variable (platform : Platform)

def HasUnit : StreamRead → Prop
  | unicode call _ => 2 ≤ call.capacity
  | ansi call _ => 1 ≤ call.capacity
  | raw call _ => 1 ≤ call.capacity

/-- The byte of Ctrl+Z is that of the character where bytes are decoded at all. -/
def DecodesControlZ : StreamRead → Prop
  | unicode call _ => UnicodeRead.DecodesControlZ platform call.codePage
  | _ => True

/-- The request succeeds with zero bytes. -/
def AtEnd : StreamRead → Prop
  | unicode call state => (UnicodeRead.rawUnicodeRead platform call state).2 = .complete .success []
  | ansi call state => (ByteRead.rawAnsiRead platform call state).2 = .complete .success []
  | raw call state => (ByteRead.rawRead platform call state).2 = .complete .success []

/-- The first character that is to be delivered is Ctrl+Z, and `left` is the stream behind it. A
raw `ReadConsole` has taken Ctrl+C bytes off the queue before. -/
def ControlZFirst (left : List Byte) : StreamRead → Prop
  | unicode call state =>
      UnicodeRead.ControlZFirst platform call (ByteRead.prepared call state) left
  | ansi call state => ByteRead.ControlZFirst platform call
      (ByteRead.prepared call state).stream left
  | raw call state => ByteRead.ControlZFirst platform call state.stream left

/-- The request leaves nothing but `left`. -/
def Leaves (left : List Byte) : StreamRead → Prop
  | unicode call state => (UnicodeRead.rawUnicodeRead platform call state).1.stream = left ∧
      (UnicodeRead.rawUnicodeRead platform call state).1.handle.decodedInputPending = none
  | ansi call state => (ByteRead.rawAnsiRead platform call state).1.stream = left
  | raw call state => (ByteRead.rawRead platform call state).1.stream = left

/-- The request ends the input exactly at a Ctrl+Z that comes first, and takes it only. -/
def EndsExactly (read : StreamRead) : Prop :=
  (read.AtEnd platform ↔ ∃ left, read.ControlZFirst platform left) ∧
    ∀ left, read.ControlZFirst platform left → read.Leaves platform left

/-- A Ctrl+Z byte at the front of the queue has nothing before it in the handle, and no other
Ctrl+Z comes first. -/
def FrontOnly : StreamRead → Prop
  | unicode call state =>
      if ByteRead.controlZAtFront call (ByteRead.prepared call state) then
        state.handle.decodedInputPending = none ∧ ∀ byte ∈ state.pendingPrefix, byte = 0x1a
      else ¬∃ left, UnicodeRead.ControlZFirst platform call (ByteRead.prepared call state) left
  | ansi call state =>
      if ByteRead.controlZAtFront call (ByteRead.prepared call state) then
        ∀ byte ∈ state.pendingPrefix, byte = 0x1a
      else
        (¬∃ left, ByteRead.ControlZFirst platform call (ByteRead.prepared call state).stream left) ∧
          ¬ByteRead.Oversized platform call false (ByteRead.prepared call state)
  | raw call state => ¬ByteRead.Oversized platform call true state

variable {platform}

theorem endsExactly_iff (read : StreamRead) (decodes : read.DecodesControlZ platform)
    (room : read.HasUnit) : read.EndsExactly platform ↔ read.FrontOnly platform := by
  cases read with
  | unicode call state => exact UnicodeRead.rawUnicodeRead_endsExactly_iff decodes room
  | ansi call state => exact ByteRead.rawAnsiRead_endsExactly_iff room
  | raw call state => exact ByteRead.rawRead_endsExactly_iff room

/-- Ctrl+Z at the front of the queue of a Unicode read. -/
theorem endsExactly_iff_front :
    (unicode { capacity := 2, processControlZ := true }
      { host.inputQueue := [0x1a, bc 'a'] }).EndsExactly .utf8 := by
  refine (endsExactly_iff _ ?_ ?_).mpr ?_
  · exact ⟨by decide, by decide⟩
  · simp [HasUnit]
  · have front : ByteRead.controlZAtFront { capacity := 2, processControlZ := true }
        (ByteRead.prepared { capacity := 2, processControlZ := true }
          { host.inputQueue := [0x1a, bc 'a'] }) = true := by decide
    rw [FrontOnly, if_pos front]
    exact ⟨rfl, by simp [ReadState.pendingPrefix, PendingInputBytes.clear]⟩

/-- The key Ctrl+Z. -/
def controlZKeyBytes : List Byte :=
  [0x1b, bc '[', bc '9', bc '0', bc ';', bc '4', bc '4', bc ';', bc '2', bc '6', bc ';', bc '1',
    bc ';', bc '8', bc ';', bc '1', bc '_']

/-- The typed Ctrl+Z ends a `RAW_READ` and is delivered by a raw `ReadConsole`. -/
theorem not_endsExactly_key :
    let call : ReadCall := { capacity := 16, processControlZ := true }
    let state : ReadState := { host.inputQueue := controlZKeyBytes }
    ¬(ansi call state).EndsExactly .utf8 ∧ (raw call state).AtEnd .utf8 := by
  intro call state
  let key : KeyEvent := ⟨true, 1, 90, 44, 26, 8⟩
  have ends : ByteRead.action .utf8 call true true (.sequence (.keyEvent key)) = .endOfFile := by
    decide
  have first : ByteRead.FirstPiece .utf8 call true controlZKeyBytes (.sequence (.keyEvent key))
      controlZKeyBytes.length controlZKeyBytes :=
    ⟨[], .done _, by simp, by decide +kernel, by decide⟩
  have behind : ByteRead.controlZAtFront call (ByteRead.prepared call state) = false := by decide
  have stream : (ByteRead.prepared call state).stream = controlZKeyBytes := by decide
  have present : ByteRead.ControlZFirst .utf8 call (ByteRead.prepared call state).stream
      (controlZKeyBytes.drop controlZKeyBytes.length) :=
    ⟨_, _, _, stream ▸ first, ends, rfl⟩
  constructor
  · intro exactly
    have only := (ByteRead.rawAnsiRead_endsExactly_iff
        (show 0 < call.capacity by decide)).mp exactly
    rw [if_neg (by simp [behind])] at only
    exact only.1 ⟨_, present⟩
  · exact (ByteRead.readLoop_empty_iff (show 0 < call.capacity by decide) state).mpr
      ⟨_, _, _, first, .inl ends⟩

end StreamRead

end Conhost
