import Conhost.Input.RecordStream

/-!
# Input records after the host has disconnected

No byte follows once the host has closed its end of the input, and a waiting
request for records that has nothing to return fails. It asks for this after
every window it has decoded, so that records behind a window of ignored
sequences are not found.
-/

namespace Conhost

namespace Records

variable {platform : Platform} {call : RecordCall} {state : ReadState}

/-- The tokens of the bytes give a record. -/
def GivesRecord (platform : Platform) (call : RecordCall) (bytes : List Byte) : Prop :=
  ∃ tokens rest, (platform.inputDecoder call.codePage).Reads bytes tokens rest ∧
    tokens.flatMap (tokenRecords call) ≠ []

/-- There is a record to be returned: of the unit held back, or in the prefix and the queue. -/
def Deliverable (platform : Platform) (call : RecordCall) (state : ReadState) : Prop :=
  state.handle.decodedInputPending ≠ none ∨ GivesRecord platform call state.stream

theorem heldRecords_eq_nil_iff (held : Option WChar) :
    heldRecords call held = [] ↔ held = none := by
  cases held <;> simp [heldRecords]

/-- All tokens of the bytes give a record if some of them do. -/
theorem givesRecord_iff {bytes rest : List Byte} {tokens : List Token}
    (reads : (platform.inputDecoder call.codePage).Reads bytes tokens rest)
    (waiting : (platform.inputDecoder call.codePage).Waiting rest) :
    GivesRecord platform call bytes ↔ tokens.flatMap (tokenRecords call) ≠ [] := by
  constructor
  · rintro ⟨others, last, further, some⟩ none
    rcases further.resume reads waiting with ⟨more, rfl, -⟩
    rw [List.flatMap_append, List.append_eq_nil_iff] at none
    exact some none.1
  · intro some
    exact ⟨tokens, rest, reads, some⟩

/-- A scan finds a record if there is one in its window. -/
theorem scanWindow_records_iff (remove : call.isPeek = false) (room : 0 < call.capacity)
    (quiet : NoBreak platform call state.stream) :
    (scanWindow platform call state).records ≠ [] ↔
      state.handle.decodedInputPending ≠ none ∨
        GivesRecord platform call (state.window (peekLimit call)) := by
  have calm : NoBreak platform call (state.window (peekLimit call)) := by
    rw [ReadState.window_eq]
    exact quiet.take _
  rcases scanLoop_reads remove (({ rest := state.window (peekLimit call) } : Scan).push call
      (state.handle.decodedInputPending.toList.map makeSimpleCharacterKeyEvent)) calm
        ⟨rfl, rfl⟩ with
    ⟨tokens, scanned⟩
  change ScanReads platform call _ (scanWindow platform call state) tokens at scanned
  have reads : (platform.inputDecoder call.codePage).Reads (state.window (peekLimit call)) tokens
      (scanWindow platform call state).rest := scanned.reads
  have records : (scanWindow platform call state).records ++
      heldRecords call (scanWindow platform call state).cut =
        heldRecords call state.handle.decodedInputPending ++ tokens.flatMap (tokenRecords call) :=
    scanned.records
  constructor
  · intro some
    by_contra none
    rw [not_or, not_not] at none
    rcases none with ⟨held, silent⟩
    have nothing : tokens.flatMap (tokenRecords call) = [] := by
      by_contra gives
      exact silent ⟨tokens, _, reads, gives⟩
    rw [held, nothing] at records
    exact some (List.append_eq_nil_iff.mp records).1
  · intro some none
    have notFull : ¬call.capacity ≤ (scanWindow platform call state).records.length := by
      rw [none, List.length_nil]
      omega
    have uncut := scanned.cut_full.resolve_right notFull
    have waiting := scanned.stopped.resolve_left notFull
    rw [none, uncut] at records
    have both := List.append_eq_nil_iff.mp records.symm
    rcases some with held | gives
    · exact held ((heldRecords_eq_nil_iff _).mp both.1)
    · exact (givesRecord_iff reads waiting).mp gives both.2

theorem commit_disconnected (call : RecordCall) (state : ReadState) (scan : Scan) :
    (commit call state scan).host.inputDisconnected = state.host.inputDisconnected := by
  simp only [commit]
  repeat' split
  all_goals rfl

/-- After the host has disconnected one pass decides. -/
theorem getBody_disconnected (remove : call.isPeek = false) (wait : call.waitAllowed = true)
    (room : 0 < call.capacity) (offline : state.host.inputDisconnected = true)
    (quiet : NoBreak platform call state.stream) :
    ∃ final reply, getBody platform call state = .leave (final, reply) ∧
      (reply = .complete .unsuccessful [] ↔ (scanWindow platform call state).records = []) := by
  have cut : (afterScan call state (scanWindow platform call state)).host.inputDisconnected =
      true := by
    simp only [afterScan]
    split <;> exact offline
  simp only [getBody, wait, remove, offline, Bool.true_and, Bool.not_false, if_true]
  split
  · rename_i idle
    simp only [Bool.and_eq_true, Option.isNone_iff_eq_none, ReadState.exhausted_iff] at idle
    refine ⟨_, _, rfl, ?_⟩
    rw [if_pos offline]
    refine iff_of_true rfl ?_
    by_contra some
    rcases (scanWindow_records_iff remove room quiet).mp some with
      held | ⟨tokens, rest, reads, gives⟩
    · exact held idle.1
    · rw [ReadState.window_eq, idle.2, List.take_nil] at reads
      rcases reads.eq_nil_of_waiting rfl with ⟨rfl, -⟩
      exact gives rfl
  · split
    · rename_i silent
      simp only [Bool.and_eq_true, List.isEmpty_iff] at silent
      exact ⟨_, _, rfl, iff_of_true rfl silent.1⟩
    · simp only [conclude, remove, wait, commit_disconnected, cut, Bool.not_false, Bool.true_and,
        if_true]
      split
      · rename_i silent
        exact ⟨_, _, rfl, iff_of_true rfl (by simpa using silent)⟩
      · rename_i some
        refine ⟨_, _, rfl, iff_of_false (by simp) ?_⟩
        simpa using some

/-- The request fails only if there is no record to be returned. -/
def FailsEmpty (platform : Platform) (call : RecordCall) (state : ReadState) : Prop :=
  (getConsoleInput platform call state).2 = .complete .unsuccessful [] →
    ¬Deliverable platform call state

/-- There is a record among the bytes the request looks at first. -/
def FirstWindowGives (platform : Platform) (call : RecordCall) (state : ReadState) : Prop :=
  state.handle.decodedInputPending ≠ none ∨
    GivesRecord platform call ((stripped call state).window (peekLimit call))

theorem held_stripped (call : RecordCall) (state : ReadState) :
    (stripped call state).handle.decodedInputPending = state.handle.decodedInputPending := by
  simp only [stripped]
  split <;> rfl

theorem disconnected_stripped (call : RecordCall) (state : ReadState) :
    (stripped call state).host.inputDisconnected = state.host.inputDisconnected := by
  simp only [stripped]
  split <;> rfl

theorem getConsoleInput_unsuccessful_iff (remove : call.isPeek = false)
    (wait : call.waitAllowed = true) (room : call.capacity ≠ 0)
    (offline : state.host.inputDisconnected = true)
    (quiet : NoBreak platform call (stripped call state).stream) :
    (getConsoleInput platform call state).2 = .complete .unsuccessful [] ↔
      ¬FirstWindowGives platform call state := by
  have offline' : (stripped call state).host.inputDisconnected = true := by
    rw [disconnected_stripped]
    exact offline
  have some : 0 < call.capacity := Nat.pos_of_ne_zero room
  rcases getBody_disconnected remove wait some offline' quiet with ⟨final, reply, pass, fails⟩
  rw [getConsoleInput_eq room, (getLoop platform call).run_of_leave pass, fails, FirstWindowGives,
    ← held_stripped call state, ← scanWindow_records_iff remove some quiet, not_not]

/-- A removing, waiting request that is made after the host has disconnected fails for want of
input only, exactly if the first window gives a record or nothing does. -/
theorem failsEmpty_iff (remove : call.isPeek = false) (wait : call.waitAllowed = true)
    (offline : state.host.inputDisconnected = true)
    (quiet : NoBreak platform call (stripped call state).stream) :
    FailsEmpty platform call state ↔
      (call.capacity ≠ 0 → Deliverable platform call state →
        FirstWindowGives platform call state) := by
  by_cases room : call.capacity = 0
  · refine iff_of_true ?_ (absurd room)
    intro failed
    rw [getConsoleInput, if_pos room] at failed
    cases failed
  · rw [FailsEmpty, getConsoleInput_unsuccessful_iff remove wait room offline quiet]
    constructor
    · intro only _ deliverable
      by_contra hidden
      exact only hidden deliverable
    · intro gives hidden deliverable
      exact hidden (gives room deliverable)

/-- The report that the window of the terminal has got the focus. -/
def focusBytes : List Byte := [0x1b, bc '[', bc 'I']

theorem reads_focus (count : Nat) (rest : List Byte) :
    (Platform.utf8.inputDecoder cpUtf8).Reads ((List.replicate count focusBytes).flatten ++ rest)
      (List.replicate count .ignoredSequence) rest := by
  have single : (Platform.utf8.inputDecoder cpUtf8).decode focusBytes =
      .token .ignoredSequence 3 := by decide
  induction count with
  | zero => exact .done _
  | succ count hypothesis =>
      rw [List.replicate_succ, List.flatten_cons, List.append_assoc, List.replicate_succ]
      exact .step ((Platform.utf8.inputDecoder cpUtf8).stable _ single) hypothesis

theorem reads_letter :
    (Platform.utf8.inputDecoder cpUtf8).Reads [bc 'a'] [.textUnits [wc 'a']] [] := by
  have single : (Platform.utf8.inputDecoder cpUtf8).decode [bc 'a'] =
      .token (.textUnits [wc 'a']) 1 := by decide
  exact .single single

theorem noBreak_of_unprocessed (plain : call.mode.processedInput = false) (bytes : List Byte) :
    NoBreak platform call bytes := by
  intro tokens rest reads token member
  cases token <;> simp [breaks, plain]

/-- The letter is in the first window. -/
theorem failsEmpty_iff_letter :
    FailsEmpty .utf8 { capacity := 1 }
      { host.inputQueue := focusBytes ++ [bc 'a'], host.inputDisconnected := true } := by
  have unprocessed : InputMode.processedInput ⟨0⟩ = false := by decide
  refine (failsEmpty_iff rfl rfl rfl (noBreak_of_unprocessed unprocessed _)).mpr ?_
  intro _ _
  refine .inr ⟨[.ignoredSequence, .textUnits [wc 'a']], [], ?_, by decide⟩
  exact (reads_focus 1 [bc 'a']).trans reads_letter

/-- Twenty-two reports of the focus before a letter, and room for one record. -/
def hiddenLetter : ReadState :=
  { host.inputQueue := (List.replicate 22 focusBytes).flatten ++ [bc 'a']
    host.inputDisconnected := true }

/-- The request fails, and the letter is still to be returned. -/
theorem hiddenLetter_fails :
    (getConsoleInput .utf8 { capacity := 1 } hiddenLetter).2 = .complete .unsuccessful [] ∧
      ¬FailsEmpty .utf8 { capacity := 1 } hiddenLetter := by
  have unprocessed : InputMode.processedInput ⟨0⟩ = false := by decide
  have quiet : NoBreak .utf8 { capacity := 1 } (stripped { capacity := 1 } hiddenLetter).stream :=
    noBreak_of_unprocessed unprocessed _
  have window : (stripped { capacity := 1 } hiddenLetter).window (peekLimit { capacity := 1 }) =
      (List.replicate 21 focusBytes).flatten ++ [0x1b] := by decide
  have failed : (getConsoleInput .utf8 { capacity := 1 } hiddenLetter).2 =
      .complete .unsuccessful [] := by
    rw [getConsoleInput_unsuccessful_iff rfl rfl (by decide) rfl quiet]
    rintro (held | gives)
    · exact held rfl
    · rw [window] at gives
      exact (givesRecord_iff (reads_focus 21 [0x1b]) (by decide)).mp gives (by decide)
  have deliverable : Deliverable .utf8 { capacity := 1 } hiddenLetter := by
    refine .inr ⟨List.replicate 22 .ignoredSequence ++ [.textUnits [wc 'a']], [], ?_, by decide⟩
    exact (reads_focus 22 [bc 'a']).trans reads_letter
  exact ⟨failed, fun only => only failed deliverable⟩

end Records

end Conhost
