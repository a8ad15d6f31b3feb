import Conhost.Input.Records

/-!
# Peeking at the input records

A request with `CONSOLE_READ_NOREMOVE` goes through the same decode loop as one
that takes its records off the stream. The two loops make the same passes and
differ only in what the last of them leaves in the handle, so the records a
peek shows are those the next request of that capacity takes.
-/

namespace Conhost

/-- The request that takes the records another one shows, with `CONSOLE_READ_NOWAIT`. -/
abbrev RecordCall.removing (call : RecordCall) : RecordCall :=
  { call with isPeek := false, waitAllowed := false }

/-- The request that shows the records another one takes. -/
abbrev RecordCall.peeking (call : RecordCall) : RecordCall := { call with isPeek := true }

namespace Records

variable {platform : Platform} {call : RecordCall}

/-- The decode loops of a request and of the one that removes its records, pass by pass. -/
inductive SamePass : Pass Scan Scan → Pass Scan Scan → Prop
  | next (scan : Scan) : SamePass (.next scan) (.next scan)
  | leave {shown taken : Scan} (records : taken.records = shown.records)
      (broken : taken.ctrlBreak = shown.ctrlBreak) : SamePass (.leave shown) (.leave taken)

theorem SamePass.refl (pass : Pass Scan Scan) : SamePass pass pass := by
  cases pass with
  | next scan => exact .next scan
  | leave scan => exact .leave rfl rfl

theorem keyEvent_same (scan : Scan) (key : KeyEvent) (length : Nat) :
    SamePass (keyEvent call scan key length) (keyEvent call.removing scan key length) :=
  .refl _

theorem textUnits_same (scan : Scan) (chars : List WChar) (length : Nat) :
    SamePass (textUnits call scan chars length) (textUnits call.removing scan chars length) := by
  unfold textUnits
  by_cases ctrlC : (call.mode.processedInput && chars == [3]) = true
  · simp only [if_pos ctrlC]
    exact .next _
  · simp only [if_neg ctrlC]
    by_cases large : call.capacity - scan.records.length < chars.length
    · simp only [if_pos large]
      rcases chars with _ | ⟨first, _ | ⟨second, _ | ⟨third, rest⟩⟩⟩
      · exact .refl _
      · exact .refl _
      · by_cases one : call.capacity - scan.records.length = 1
        · simp only [if_pos one, Bool.false_eq_true, if_false]
          apply SamePass.leave
          · split <;> rfl
          · split <;> rfl
        · simp only [if_neg one]
          exact .refl _
      · exact .refl _
    · simp only [if_neg large]
      exact .next _

theorem scanBody_same (platform : Platform) (call : RecordCall) (scan : Scan) :
    SamePass (scanBody platform call scan) (scanBody platform call.removing scan) := by
  simp only [scanBody]
  split
  · exact .refl _
  · split
    · exact .refl _
    · exact .next _
    · exact keyEvent_same _ _ _
    · exact textUnits_same _ _ _

theorem scanLoop_same (platform : Platform) (call : RecordCall) (scan : Scan) :
    ((scanLoop platform call.removing).run scan).records =
        ((scanLoop platform call).run scan).records ∧
      ((scanLoop platform call.removing).run scan).ctrlBreak =
        ((scanLoop platform call).run scan).ctrlBreak := by
  let Holds (scan final : Scan) : Prop :=
    ((scanLoop platform call.removing).run scan).records = final.records ∧
      ((scanLoop platform call.removing).run scan).ctrlBreak = final.ctrlBreak
  change Holds scan _
  apply (scanLoop platform call).run_induction
  · intro scan final pass
    have same := scanBody_same platform call scan
    generalize taking : scanBody platform call.removing scan = other at same
    change scanBody platform call scan = .leave final at pass
    rw [pass] at same
    cases same with
    | leave records broken =>
        have ends := (scanLoop platform call.removing).run_of_leave taking
        exact ⟨by rw [ends, records], by rw [ends, broken]⟩
  · intro scan next final pass holds
    have same := scanBody_same platform call scan
    generalize taking : scanBody platform call.removing scan = other at same
    change scanBody platform call scan = .next next at pass
    rw [pass] at same
    cases same with
    | next =>
        have goesOn := (scanLoop platform call.removing).run_of_next taking
        exact ⟨by rw [goesOn, holds.1], by rw [goesOn, holds.2]⟩

theorem scanWindow_same (platform : Platform) (call : RecordCall) (state : ReadState) :
    (scanWindow platform call.removing state).records = (scanWindow platform call state).records ∧
      (scanWindow platform call.removing state).ctrlBreak =
        (scanWindow platform call state).ctrlBreak :=
  scanLoop_same platform call _

/-- A scan that was broken off has read a Ctrl+Break key-down. -/
theorem scanLoop_broken (remove : call.isPeek = false) (scan : Scan)
    (fresh : scan.ctrlBreak = false)
    (broken : ((scanLoop platform call).run scan).ctrlBreak = true) :
    ∃ tokens token rest,
      (platform.inputDecoder call.codePage).Reads scan.rest (tokens ++ [token]) rest ∧
        breaks call token = true := by
  let Holds (scan final : Scan) : Prop := scan.ctrlBreak = false → final.ctrlBreak = true →
    ∃ tokens token rest,
      (platform.inputDecoder call.codePage).Reads scan.rest (tokens ++ [token]) rest ∧
        breaks call token = true
  suffices holds : Holds scan ((scanLoop platform call).run scan) from holds fresh broken
  apply (scanLoop platform call).run_induction
  · intro scan final pass fresh broken
    change scanBody platform call scan = .leave final at pass
    have step := scanBody_step platform remove scan
    rw [pass] at step
    cases step with
    | stop =>
        rw [fresh] at broken
        cases broken
    | cut _ _ _ _ _ kept =>
        rw [kept, fresh] at broken
        cases broken
    | interrupt decoded _ breaks => exact ⟨[], _, _, .single decoded, breaks⟩
  · intro scan next final pass holds fresh broken
    change scanBody platform call scan = .next next at pass
    have step := scanBody_step platform remove scan
    rw [pass] at step
    cases step with
    | take decoded rest _ _ kept =>
        obtain ⟨tokens, token, final, reads, breaks⟩ := holds (kept.1.trans fresh) broken
        rw [rest] at reads
        exact ⟨_ :: tokens, token, final, .step decoded reads, breaks⟩

/-- The records before a Ctrl+Break are dropped. -/
theorem scanBody_dropped {scan final : Scan} (pass : scanBody platform call scan = .leave final)
    (fresh : scan.ctrlBreak = false) (broken : final.ctrlBreak = true) : final.records = [] := by
  have same : final = scan → final.records = [] := by
    rintro rfl
    rw [fresh] at broken
    cases broken
  simp only [scanBody] at pass
  split at pass
  · cases pass
    exact same rfl
  · split at pass
    · cases pass
      exact same rfl
    · cases pass
    · simp only [keyEvent] at pass
      split at pass
      · split at pass <;> cases pass
        rfl
      · split at pass <;> cases pass
    · simp only [textUnits] at pass
      split at pass
      · cases pass
      · split at pass
        · split at pass
          · split at pass
            · cases pass
              have kept : scan.ctrlBreak = true := by
                split at broken <;> exact broken
              rw [fresh] at kept
              cases kept
            · cases pass
              exact same rfl
          · cases pass
            exact same rfl
        · cases pass

theorem scanLoop_dropped (remove : call.isPeek = false) (scan : Scan)
    (fresh : scan.ctrlBreak = false)
    (broken : ((scanLoop platform call).run scan).ctrlBreak = true) :
    ((scanLoop platform call).run scan).records = [] := by
  let Holds (scan final : Scan) : Prop :=
    scan.ctrlBreak = false → final.ctrlBreak = true → final.records = []
  suffices holds : Holds scan ((scanLoop platform call).run scan) from holds fresh broken
  apply (scanLoop platform call).run_induction
  · intro scan final pass
    exact scanBody_dropped pass
  · intro scan next final pass holds fresh
    change scanBody platform call scan = .next next at pass
    have step := scanBody_step platform remove scan
    rw [pass] at step
    cases step with
    | take _ _ _ _ kept => exact holds (kept.1.trans fresh)

/-- The window of a state has a Ctrl+Break key-down that the request processes. -/
def MeetsBreak (platform : Platform) (call : RecordCall) (state : ReadState) : Prop :=
  ∃ tokens token rest, (platform.inputDecoder call.codePage).Reads
    (state.window (peekLimit call)) (tokens ++ [token]) rest ∧ breaks call token = true

theorem scanWindow_broken (state : ReadState)
    (broken : (scanWindow platform call state).ctrlBreak = true) :
    MeetsBreak platform call state := by
  have taken : (scanWindow platform call.removing state).ctrlBreak = true := by
    rw [(scanWindow_same platform call state).2, broken]
  exact scanLoop_broken rfl _ rfl taken

theorem scanWindow_dropped (state : ReadState)
    (broken : (scanWindow platform call state).ctrlBreak = true) :
    (scanWindow platform call state).records = [] := by
  obtain ⟨records, breaks⟩ := scanWindow_same platform call state
  rw [← records]
  exact scanLoop_dropped rfl _ rfl (breaks.trans broken)

/-- What the host and the handle are after a peek, by whether its scan was broken off. -/
def afterPeek (call : RecordCall) (state : ReadState) (broken : Bool) : ReadState :=
  if broken then state.flushInput.forward call.processes .ctrlBreak else state

theorem breaks_processed {token : Token} (broken : breaks call token = true) :
    call.mode.processedInput = true := by
  unfold breaks at broken
  split at broken
  · simp only [Bool.and_eq_true] at broken
    exact broken.1.1
  · cases broken

theorem commit_peek (peeks : call.isPeek = true) (state : ReadState) :
    commit call state (scanWindow platform call state) =
      afterPeek call state (scanWindow platform call state).ctrlBreak := by
  cases broken : (scanWindow platform call state).ctrlBreak with
  | false => simp [commit, peeks, broken, afterPeek]
  | true =>
      obtain ⟨_, _, _, _, breaks⟩ := scanWindow_broken state broken
      simp [commit, peeks, broken, afterPeek, breaks_processed breaks]

theorem stripped_idem (state : ReadState) :
    stripped call (stripped call state) = stripped call state := by
  unfold stripped
  split
  · apply ReadState.stripCtrlC_of_head
    intro head
    have first := List.head?_dropWhile_not (· == 3) state.host.inputQueue
    simp only [ReadState.stripCtrlC] at head
    simp [head] at first
  · rfl

theorem stripped_afterPeek (call : RecordCall) {state : ReadState}
    (kept : stripped call state = state) (broken : Bool) :
    stripped call (afterPeek call state broken) = afterPeek call state broken := by
  cases broken with
  | false => simpa [afterPeek] using kept
  | true =>
      simp only [afterPeek, if_true, stripped]
      split
      · apply ReadState.stripCtrlC_of_head
        simp [ReadState.forward, HostIo.forward, ReadState.flushInput]
      · rfl

/-- A scan of nothing. -/
theorem scanWindow_nil (platform : Platform) (call : RecordCall) (state : ReadState)
    (held : state.handle.decodedInputPending = none) (empty : state.stream = []) :
    scanWindow platform call state = { rest := [] } := by
  have blank : state.window (peekLimit call) = [] := by rw [ReadState.window_eq, empty]; simp
  have pass : (scanLoop platform call).body ({ rest := [] } : Scan) = .leave { rest := [] } := by
    simp [scanLoop, scanBody]
  have done := (scanLoop platform call).run_of_leave pass
  simp [scanWindow, blank, held, Scan.push, done]

/-- A peek is over after one pass. -/
theorem run_peek (platform : Platform) (call : RecordCall) (peeks : call.isPeek = true)
    (state : ReadState) :
    ((getLoop platform call).run state).1 =
        afterPeek call state (scanWindow platform call state).ctrlBreak ∧
      ((getLoop platform call).run state).2.data = (scanWindow platform call state).records := by
  by_cases waits : (call.waitAllowed && state.handle.decodedInputPending.isNone &&
      state.exhausted) = true
  · have pass : getBody platform call state = .leave state.wait := by
      simp only [getBody, if_pos waits]
    simp only [Bool.and_eq_true, Option.isNone_iff_eq_none] at waits
    have nothing := scanWindow_nil platform call state waits.1.2 (state.exhausted_iff.mp waits.2)
    rw [(getLoop platform call).run_of_leave pass, nothing]
    refine ⟨rfl, ?_⟩
    simp only [ReadState.wait]
    split <;> rfl
  · have pass : getBody platform call state =
        .leave (afterPeek call state (scanWindow platform call state).ctrlBreak,
          .complete .success (scanWindow platform call state).records) := by
      simp only [getBody, if_neg waits, peeks, Bool.not_true, Bool.false_and, Bool.false_eq_true,
        if_false, conclude, afterScan, if_true, commit_peek peeks]
    rw [(getLoop platform call).run_of_leave pass]
    exact ⟨rfl, rfl⟩

/-- A request that does not wait is over after one pass. -/
theorem run_nowait (wait : call.waitAllowed = false) (state : ReadState) :
    ((getLoop platform call).run state).2 =
      .complete .success (scanWindow platform call state).records := by
  let scan := scanWindow platform call state
  have pass : getBody platform call state =
      .leave (commit call (afterScan call state scan) scan, .complete .success scan.records) := by
    simp [getBody, conclude, wait, scan]
  rw [(getLoop platform call).run_of_leave pass]

/-- What the request after a peek returns. -/
theorem removing_reply (platform : Platform) (call : RecordCall) (room : call.capacity ≠ 0)
    {state : ReadState} (kept : stripped call state = state) :
    (getConsoleInput platform call.removing state).2 =
      .complete .success (scanWindow platform call state).records := by
  have starts : getConsoleInput platform call.removing state =
      (getLoop platform call.removing).run (stripped call state) := if_neg room
  rw [starts, kept, run_nowait rfl, (scanWindow_same platform call state).1]

/-- The scan after a peek finds what the peek has found. -/
theorem scanWindow_afterPeek (platform : Platform) (call : RecordCall) (state : ReadState) :
    (scanWindow platform call
        (afterPeek call state (scanWindow platform call state).ctrlBreak)).records =
      (scanWindow platform call state).records := by
  cases broken : (scanWindow platform call state).ctrlBreak with
  | false => rfl
  | true =>
      rw [scanWindow_dropped state broken]
      have nothing := scanWindow_nil platform call
        (state.flushInput.forward call.processes .ctrlBreak) rfl rfl
      simp only [afterPeek, if_true, nothing]

/-- A peek leaves the handle and the host as they were, but for the Ctrl+C bytes at the front of
the queue and for the flush of a Ctrl+Break; and the records it shows are those that the request
after it takes. -/
theorem peek_faithful (platform : Platform) (call : RecordCall) (state : ReadState) :
    let peek := getConsoleInput platform call.peeking state
    let start := if call.capacity = 0 then state else stripped call state
    (peek.1 = start ∨
      MeetsBreak platform call start ∧
        peek.1 = start.flushInput.forward call.processes .ctrlBreak) ∧
      (getConsoleInput platform call.removing peek.1).2 = .complete .success peek.2.data := by
  intro peek start
  by_cases full : call.capacity = 0
  · simp [peek, start, getConsoleInput, full, ReadReply.data]
  have begins : start = stripped call state := if_neg full
  have kept : stripped call start = start := by rw [begins, stripped_idem]
  have peeks : peek = (getLoop platform call.peeking).run start := by
    rw [begins]
    exact if_neg full
  obtain ⟨left, shown⟩ := run_peek platform call.peeking rfl start
  rw [← peeks] at left shown
  constructor
  · cases broken : (scanWindow platform call.peeking start).ctrlBreak with
    | false =>
        rw [broken] at left
        exact .inl left
    | true =>
        rw [broken] at left
        have meets : MeetsBreak platform call.peeking start := scanWindow_broken start broken
        exact .inr ⟨meets, left⟩
  · rw [shown, left]
    have clear := stripped_afterPeek call.peeking kept
      (scanWindow platform call.peeking start).ctrlBreak
    have taken := removing_reply platform call.peeking full clear
    rw [scanWindow_afterPeek] at taken
    exact taken

end Records

end Conhost
