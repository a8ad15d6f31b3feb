import Conhost.Input.RecordStream
import Conhost.Input.TextTokens

/-!
# Text read as records

A stream that is the UTF-8 encoding of a text is read by removing requests for
records of any sizes. Every request returns units from where the last one
stopped; a surrogate pair can be cut between two of them. Read until a request
returns nothing, the units are those of the text.
-/

namespace Conhost

namespace Records

variable {platform : Platform} {call : RecordCall} {state : ReadState} {text : List Char}

/-- The token of a character. -/
def textToken (char : Char) : Token := .textUnits (utf16Code.word char)

/-- What is read off the encoding of a text is the beginning of the text. -/
theorem reads_encode (decodes : platform.DecodesUtf8) (plain : Printable text)
    {bytes rest : List Byte} {tokens : List Token} (encoded : bytes = utf8Code.encode text)
    (reads : (platform.inputDecoder cpUtf8).Reads bytes tokens rest) :
    ∃ before after, text = before ++ after ∧ tokens = before.map textToken ∧
      rest = utf8Code.encode after := by
  induction reads generalizing text with
  | done => exact ⟨[], text, rfl, rfl, encoded⟩
  | @step bytes token length tokens rest decoded later hypothesis =>
      subst encoded
      cases text with
      | nil => cases decoded
      | cons char text =>
          have large := plain char List.mem_cons_self
          have first := decodeOneInputToken_char decodes (by omega : char.toNat ≠ 0x1b)
            (utf8Code.encode text)
          change platform.decodeOneInputToken cpUtf8 (utf8Code.word char ++ utf8Code.encode text) =
            _ at decoded
          rw [first] at decoded
          cases decoded
          have others : Printable text :=
            fun other member => plain other (List.mem_cons_of_mem _ member)
          rcases hypothesis others (by simp) with ⟨before, after, rfl, rfl, rfl⟩
          exact ⟨char :: before, after, rfl, rfl, rfl⟩

/-- A text that is not empty begins with a token, also in a window of it. -/
theorem decode_encode_take (decodes : platform.DecodesUtf8) (plain : Printable text)
    (nonempty : text ≠ []) {limit : Nat} (wide : 4 ≤ limit) :
    ∃ token length, (platform.inputDecoder cpUtf8).decode ((utf8Code.encode text).take limit) =
      .token token length := by
  cases text with
  | nil => exact absurd rfl nonempty
  | cons char text =>
      have large := plain char List.mem_cons_self
      have short := (length_utf8Code_word char).2
      refine ⟨textToken char, (utf8Code.word char).length, ?_⟩
      rw [utf8Code.encode_cons, List.take_append, List.take_of_length_le (by omega)]
      exact decodeOneInputToken_char decodes (by omega : char.toNat ≠ 0x1b) _

theorem tokenRecords_textToken (unicode : call.unicode = true) {char : Char}
    (large : 0x20 ≤ char.toNat) :
    tokenRecords call (textToken char) =
      (utf16Code.word char).map makeSimpleCharacterKeyEvent := by
  have other : (utf16Code.word char == [3]) = false := utf16Code_word_ne_ctrlC large
  simp only [tokenRecords, textToken, other, Bool.and_false, Bool.false_eq_true, if_false,
    List.map_map]
  refine List.map_congr_left fun unit _ => ?_
  simp [makeInputRecordFromKey, unicode]

/-- The units a handle has still to return. -/
def unreturned (held : Option WChar) (text : List Char) : List WChar :=
  held.toList ++ utf16Code.encode text

/-- The handle has nothing to read but the text. -/
structure Holds (state : ReadState) (text : List Char) : Prop where
  drained : state.pendingPrefix = []
  queue : state.host.inputQueue = utf8Code.encode text
  printable : Printable text

theorem Holds.stream (holds : Holds state text) : state.stream = utf8Code.encode text := by
  rw [ReadState.stream, holds.drained, holds.queue, List.nil_append]

theorem Holds.stripped_eq (holds : Holds state text) : stripped call state = state := by
  simp only [stripped]
  split
  · apply state.stripCtrlC_of_head
    rw [holds.queue]
    exact head_encode holds.printable (by decide)
  · rfl

theorem Holds.noBreak (decodes : platform.DecodesUtf8) (utf8 : call.codePage = cpUtf8)
    (holds : Holds state text) : NoBreak platform call state.stream := by
  intro tokens rest reads token member
  rw [utf8] at reads
  rcases reads_encode decodes holds.printable holds.stream reads with ⟨before, -, -, rfl, -⟩
  rcases List.mem_map.mp member with ⟨char, -, rfl⟩
  rfl

theorem heldRecords_map (unicode : call.unicode = true) (held : Option WChar) :
    (heldRecords call held).map KeyEvent.unicodeChar = held.toList := by
  cases held <;> simp [heldRecords, makeInputRecordFromKey, unicode, makeSimpleCharacterKeyEvent]

theorem flatMap_tokenRecords_map (unicode : call.unicode = true) (plain : Printable text) :
    ((text.map textToken).flatMap (tokenRecords call)).map KeyEvent.unicodeChar =
      utf16Code.encode text := by
  induction text with
  | nil => rfl
  | cons char text hypothesis =>
      have others : Printable text :=
        fun other member => plain other (List.mem_cons_of_mem _ member)
      rw [List.map_cons, List.flatMap_cons, List.map_append, hypothesis others,
        tokenRecords_textToken unicode (plain char List.mem_cons_self), List.map_map,
        utf16Code.encode_cons]
      congr 1
      exact List.map_id'' (fun _ => rfl) _

/-- A removing request for the UTF-16 units of a UTF-8 stream. -/
structure Removes (call : RecordCall) : Prop where
  remove : call.isPeek = false
  utf8 : call.codePage = cpUtf8
  unicode : call.unicode = true
  room : call.capacity ≠ 0

/-- What the scan of a request finds in a text. -/
theorem scanWindow_text (decodes : platform.DecodesUtf8) (removes : Removes call)
    (holds : Holds state text) :
    ∃ after, text.drop (text.length - after.length) = after ∧
      state.stream.drop (scanWindow platform call state).bytesConsumed = utf8Code.encode after ∧
      (scanWindow platform call state).records.map KeyEvent.unicodeChar ++
          unreturned (scanWindow platform call state).cut after =
        unreturned state.handle.decodedInputPending text ∧
      (scanWindow platform call state).ctrlBreak = false ∧
      ((scanWindow platform call state).records = [] →
        unreturned state.handle.decodedInputPending text = []) := by
  have quiet := holds.noBreak decodes removes.utf8
  have calm : NoBreak platform call (state.window (peekLimit call)) := by
    rw [ReadState.window_eq]
    exact quiet.take _
  rcases scanLoop_reads removes.remove (({ rest := state.window (peekLimit call) } : Scan).push call
      (state.handle.decodedInputPending.toList.map makeSimpleCharacterKeyEvent)) calm
        ⟨rfl, rfl⟩ with
    ⟨tokens, scanned⟩
  change ScanReads platform call _ (scanWindow platform call state) tokens at scanned
  generalize scanWindow platform call state = scan at scanned
  have records : scan.records ++ heldRecords call scan.cut =
      heldRecords call state.handle.decodedInputPending ++ tokens.flatMap (tokenRecords call) :=
    scanned.records
  have consumed : scan.bytesConsumed + scan.rest.length =
      (state.window (peekLimit call)).length := by
    simpa [Scan.push] using scanned.consumed
  have within : (platform.inputDecoder cpUtf8).Reads (state.window (peekLimit call)) tokens
      scan.rest := removes.utf8 ▸ scanned.reads
  have reads : (platform.inputDecoder cpUtf8).Reads state.stream tokens
      (state.stream.drop scan.bytesConsumed) := by
    rw [ReadState.window_eq] at within consumed
    have whole := within.of_take
    rwa [← consumed, Nat.add_sub_cancel] at whole
  rcases reads_encode decodes holds.printable holds.stream reads with
    ⟨before, after, rfl, rfl, rest⟩
  have plain : Printable before :=
    fun char member => holds.printable char (List.mem_append_left _ member)
  refine ⟨after, by simp, rest, ?_, scanned.noBreak, ?_⟩
  · have units := congrArg (List.map KeyEvent.unicodeChar) records
    rw [List.map_append, List.map_append, heldRecords_map removes.unicode,
      heldRecords_map removes.unicode, flatMap_tokenRecords_map removes.unicode plain] at units
    rw [unreturned, unreturned, ← List.append_assoc, units, utf16Code.encode_append,
      List.append_assoc]
  · intro empty
    have notFull : ¬call.capacity ≤ scan.records.length := by
      have room := removes.room
      rw [empty, List.length_nil]
      omega
    have waiting := scanned.stopped.resolve_left notFull
    rw [empty, scanned.cut_full.resolve_right notFull] at records
    have units := congrArg (List.map KeyEvent.unicodeChar) records.symm
    rw [List.map_append, heldRecords_map removes.unicode,
      flatMap_tokenRecords_map removes.unicode plain] at units
    have nothing : state.handle.decodedInputPending.toList = [] ∧ utf16Code.encode before = [] :=
      List.append_eq_nil_iff.mp units
    rw [utf16Code.encode_eq_nil] at nothing
    rcases nothing with ⟨held, rfl⟩
    rw [unreturned, held, List.nil_append, List.nil_append, utf16Code.encode_eq_nil]
    by_contra nonempty
    have wide : 4 ≤ state.pendingPrefix.length + peekLimit call := by
      have room := removes.room
      simp only [peekLimit]
      omega
    rcases decode_encode_take decodes holds.printable nonempty wide with ⟨token, length, decoded⟩
    have stream : state.stream = utf8Code.encode after := holds.stream
    rw [List.nil_append, ← stream, ← ReadState.window_eq] at decoded
    generalize state.window (peekLimit call) = window at within decoded
    generalize scan.rest = left at within waiting
    cases within with
    | done =>
        rw [removes.utf8, Decoder.Waiting, decoded] at waiting
        cases waiting

/-- What a removing request does on a text. -/
theorem getConsoleInput_text (decodes : platform.DecodesUtf8) (removes : Removes call)
    (holds : Holds state text) :
    ∃ after, Holds (getConsoleInput platform call state).1 after ∧
      (getConsoleInput platform call state).2.data.map KeyEvent.unicodeChar ++
          unreturned (getConsoleInput platform call state).1.handle.decodedInputPending after =
        unreturned state.handle.decodedInputPending text ∧
      ((getConsoleInput platform call state).2.data = [] →
        unreturned state.handle.decodedInputPending text = []) := by
  rcases scanWindow_text decodes removes holds with ⟨after, suffix, rest, units, noBreak, empties⟩
  have plain : Printable after := by
    intro char member
    rw [← suffix] at member
    exact holds.printable char (List.mem_of_mem_drop member)
  have concluded (settled : (scanWindow platform call state).records = [] →
      ¬call.waitAllowed = true) :
      conclude call (afterScan call state (scanWindow platform call state))
        (scanWindow platform call state) = .leave
          (commit call (afterScan call state (scanWindow platform call state))
            (scanWindow platform call state),
          .complete .success (scanWindow platform call state).records) := by
    simp only [conclude, removes.remove]
    split
    · rename_i silent
      simp only [Bool.not_false, Bool.true_and, Bool.and_eq_true, List.isEmpty_iff] at silent
      exact absurd silent.1 (settled silent.2)
    · rfl
  rw [getConsoleInput_eq removes.room, holds.stripped_eq]
  by_cases idle : (call.waitAllowed && state.handle.decodedInputPending.isNone &&
      state.exhausted) = true
  · have pass : getBody platform call state = .leave state.wait := by
      rw [getBody, if_pos idle]
    simp only [Bool.and_eq_true, Option.isNone_iff_eq_none, ReadState.exhausted_iff, holds.stream,
      utf8Code.encode_eq_nil] at idle
    rcases idle with ⟨⟨-, held⟩, rfl⟩
    rw [(getLoop platform call).run_of_leave pass]
    have nothing : (state.wait : ReadState × ReadReply KeyEvent).2.data = [] := by
      simp only [ReadState.wait]
      split <;> rfl
    refine ⟨[], holds, ?_, ?_⟩
    · rw [nothing]
      rfl
    · intro _
      rw [unreturned, held]
      rfl
  · have settled : (scanWindow platform call state).records = [] → ¬call.waitAllowed = true := by
      intro empty wait
      have nothing := empties empty
      rw [unreturned, List.append_eq_nil_iff, utf16Code.encode_eq_nil] at nothing
      rcases nothing with ⟨held, rfl⟩
      have none : state.handle.decodedInputPending = none := by simpa using held
      refine idle ?_
      simp only [wait, none, Option.isNone_none, Bool.true_and]
      rw [ReadState.exhausted_iff, holds.stream]
      rfl
    have pass : getBody platform call state = .leave
        (commit call (afterScan call state (scanWindow platform call state))
          (scanWindow platform call state),
        .complete .success (scanWindow platform call state).records) := by
      simp only [getBody, if_neg idle]
      split
      · rename_i silent
        simp only [Bool.and_eq_true, List.isEmpty_iff] at silent
        exact absurd silent.1.1.2 (settled silent.1.2)
      · exact concluded settled
    rw [(getLoop platform call).run_of_leave pass]
    have committed : commit call (afterScan call state (scanWindow platform call state))
        (scanWindow platform call state) =
          ((state.setHeld (scanWindow platform call state).cut).consume
            (scanWindow platform call state).bytesConsumed).forwardTimes call.processes .ctrlC
              (scanWindow platform call state).ctrlC := by
      simp [commit, afterScan, removes.remove, noBreak]
    have drained : (commit call (afterScan call state (scanWindow platform call state))
        (scanWindow platform call state)).pendingPrefix = [] := by
      rw [committed]
      change state.pendingPrefix.drop _ = []
      rw [holds.drained, List.drop_nil]
    refine ⟨after, ⟨drained, ?_, plain⟩, ?_, empties⟩
    · have stream : (commit call (afterScan call state (scanWindow platform call state))
          (scanWindow platform call state)).stream = utf8Code.encode after := by
        rw [committed, ReadState.stream_forwardTimes, ReadState.stream_consume,
          ReadState.stream_setHeld, rest]
      rwa [ReadState.stream, drained, List.nil_append] at stream
    · rw [committed]
      exact units

/-- Requests one after the other, until one returns nothing, return the records. -/
inductive Returns (platform : Platform) : ReadState → (Nat → RecordCall) →
    List KeyEvent → Prop where
  | ends {state : ReadState} {calls : Nat → RecordCall}
      (nothing : (getConsoleInput platform (calls 0) state).2.data = []) :
      Returns platform state calls []
  | reads {state : ReadState} {calls : Nat → RecordCall} {records : List KeyEvent}
      (some : (getConsoleInput platform (calls 0) state).2.data ≠ [])
      (later : Returns platform (getConsoleInput platform (calls 0) state).1
        (fun index => calls (index + 1)) records) :
      Returns platform state calls
        ((getConsoleInput platform (calls 0) state).2.data ++ records)

theorem Returns.unique {calls : Nat → RecordCall} {records records' : List KeyEvent}
    (one : Returns platform state calls records) (other : Returns platform state calls records') :
    records = records' := by
  induction one generalizing records' with
  | ends nothing =>
      cases other with
      | ends => rfl
      | reads some _ => exact absurd nothing some
  | reads some later hypothesis =>
      cases other with
      | ends nothing => exact absurd nothing some
      | reads _ later' => rw [hypothesis later']

/-- The requests return the text. -/
theorem exists_returns_text (decodes : platform.DecodesUtf8) (calls : Nat → RecordCall)
    (removes : ∀ index, Removes (calls index)) (holds : Holds state text) :
    ∃ records, Returns platform state calls records ∧ records.map KeyEvent.unicodeChar =
      unreturned state.handle.decodedInputPending text := by
  induction size : (unreturned state.handle.decodedInputPending text).length
      using Nat.strong_induction_on generalizing state text calls with
  | _ size' hypothesis =>
      subst size
      rcases getConsoleInput_text decodes (removes 0) holds with ⟨after, holds', units, empties⟩
      by_cases nothing : (getConsoleInput platform (calls 0) state).2.data = []
      · exact ⟨[], .ends nothing, by simp [empties nothing]⟩
      · have shorter : (unreturned (getConsoleInput platform (calls 0)
            state).1.handle.decodedInputPending after).length <
              (unreturned state.handle.decodedInputPending text).length := by
          have some := List.length_pos_of_ne_nil nothing
          rw [← units, List.length_append, List.length_map]
          omega
        rcases hypothesis _ shorter (fun index => calls (index + 1))
          (fun index => removes (index + 1)) holds' rfl with ⟨records, later, same⟩
        refine ⟨_, .reads nothing later, ?_⟩
        rw [List.map_append, same, units]

end Records

end Conhost
