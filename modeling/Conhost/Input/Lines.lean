import Conhost.Input.Cooked
import Conhost.Screen.Replies

/-!
# The lines of a stream

A line-input read is dispatched again and again while its line arrives. What
lines come out is a property of the tokens of the stream: every token edits the
line in progress, ends it, or is the line feed of a carriage return and is
skipped. A dispatch that ends a line at a carriage return can skip the line
feed only if it has arrived.
-/

namespace Conhost

/-- The tokenizer as the token reads see it, through a window of 64 bytes. -/
def windowDecoder (platform : Platform) (codePage : CodePage) : Decoder Byte Token where
  decode bytes := platform.decodeOneInputToken codePage (bytes.take 64)
  positive := Platform.decodeOneInputToken_positive
  bounded := by
    intro bytes token length decoded
    exact (Platform.decodeOneInputToken_bounded decoded).trans (List.length_take_le' _ _)
  stable := by
    intro bytes token length more decoded
    rw [List.take_append]
    exact Platform.decodeOneInputToken_stable _ decoded

/-- The line in progress, and whether the last token ended a line as a carriage return. -/
structure Assembly where
  edit : EditLine
  afterCr : Bool := false
deriving DecidableEq

namespace Assembly

variable (processed controlZ : Bool)

/-- One token: the assembly after it and the line it completes. -/
def take (assembly : Assembly) (token : Token) : Assembly × Option (List WChar) :=
  if assembly.afterCr && Cooked.isLf token then (⟨assembly.edit, false⟩, none)
  else
    let effect := assembly.edit.handleToken processed controlZ token
    match effect.outcome with
    | .newline carriageReturn =>
        (⟨⟨[], 0, effect.edit.insertMode⟩, carriageReturn⟩, some effect.edit.line)
    | _ => (⟨effect.edit, false⟩, none)

def takeAll : Assembly → List Token → Assembly × List (List WChar)
  | assembly, [] => (assembly, [])
  | assembly, token :: tokens =>
      let next := assembly.take processed controlZ token
      let final := takeAll next.1 tokens
      (final.1, next.2.toList ++ final.2)

variable {processed controlZ}

theorem take_of_outcome {assembly : Assembly} {token : Token}
    (kept : ¬(assembly.afterCr && Cooked.isLf token) = true)
    (outcome : ∀ carriageReturn, (assembly.edit.handleToken processed controlZ token).outcome ≠
      .newline carriageReturn) : assembly.take processed controlZ token =
      (⟨(assembly.edit.handleToken processed controlZ token).edit, false⟩, none) := by
  rw [take, if_neg kept]
  simp only

theorem take_newline {assembly : Assembly} {token : Token} {carriageReturn : Bool}
    (kept : ¬(assembly.afterCr && Cooked.isLf token) = true)
    (outcome : (assembly.edit.handleToken processed controlZ token).outcome =
      .newline carriageReturn) : assembly.take processed controlZ token =
      (⟨⟨[], 0, (assembly.edit.handleToken processed controlZ token).edit.insertMode⟩,
          carriageReturn⟩,
        some (assembly.edit.handleToken processed controlZ token).edit.line) := by
  rw [take, if_neg kept]
  simp only [outcome]

theorem take_lf (edit : EditLine) {token : Token} (isLineFeed : Cooked.isLf token = true) :
    (⟨edit, true⟩ : Assembly).take processed controlZ token = (⟨edit, false⟩, none) := by
  rw [take, if_pos (by simp [isLineFeed])]

theorem takeAll_append (assembly : Assembly) (first second : List Token) :
    assembly.takeAll processed controlZ (first ++ second) =
      (((assembly.takeAll processed controlZ first).1.takeAll processed controlZ second).1,
        (assembly.takeAll processed controlZ first).2 ++
          ((assembly.takeAll processed controlZ first).1.takeAll processed controlZ second).2) := by
  induction first generalizing assembly with
  | nil => simp [takeAll]
  | cons token tokens hypothesis => simp [takeAll, hypothesis]

theorem take_normalized {assembly : Assembly} (normalized : assembly.edit.Normalized)
    (token : Token) : (assembly.take processed controlZ token).1.edit.Normalized := by
  simp only [take]
  split
  · exact normalized
  · split
    · exact EditLine.normalized_atEnd [] _
    · exact normalized.handleToken processed controlZ token

theorem takeAll_normalized (tokens : List Token) {assembly : Assembly}
    (normalized : assembly.edit.Normalized) :
    (assembly.takeAll processed controlZ tokens).1.edit.Normalized := by
  induction tokens generalizing assembly with
  | nil => exact normalized
  | cons token tokens hypothesis => exact hypothesis (take_normalized normalized token)

end Assembly

namespace Cooked

variable {platform : Platform} {device : Device} {call : CookedCall} {state : CookedState}

/-- No query in echoed text is answered into the input: nothing is echoed, or the output target
answers, or queries are not interpreted. -/
def Unanswered (call : CookedCall) (state : CookedState) : Prop :=
  call.mode.echoInput = false ∨ state.read.host.hasOutput = true ∨
    call.outputMode.vtProcessing = false

/-- The states differ at most in what is shown and what was sent to the output target. -/
structure SameInput (before after : CookedState) : Prop where
  handle : after.read.handle = before.read.handle
  inputQueue : after.read.host.inputQueue = before.read.host.inputQueue
  inputDisconnected : after.read.host.inputDisconnected = before.read.host.inputDisconnected
  hasOutput : after.read.host.hasOutput = before.read.host.hasOutput
  completed : after.completed = before.completed

namespace SameInput

theorem refl (state : CookedState) : SameInput state state := ⟨rfl, rfl, rfl, rfl, rfl⟩

variable {first second third : CookedState}

theorem trans (one : SameInput first second) (two : SameInput second third) :
    SameInput first third :=
  ⟨two.handle.trans one.handle, two.inputQueue.trans one.inputQueue,
    two.inputDisconnected.trans one.inputDisconnected, two.hasOutput.trans one.hasOutput,
    two.completed.trans one.completed⟩

theorem stream (same : SameInput first second) : second.read.stream = first.read.stream := by
  simp only [ReadState.stream, ReadState.pendingPrefix, same.handle, same.inputQueue]

theorem unanswered (same : SameInput first second) (unanswered : Unanswered call first) :
    Unanswered call second := by
  rwa [Unanswered, same.hasOutput]

end SameInput

theorem showAnswers_eq_nil (echoes : call.mode.echoInput = true)
    (unanswered : Unanswered call state) (text : List WChar) :
    showAnswers call text state = [] := by
  simp only [showAnswers]
  split
  · rfl
  · rw [applyTextToScreenBuffer_replies, List.flatten_nil]
    rcases unanswered with off | target | plain
    · rw [echoes] at off
      cases off
    · exact .inl (by simp [target])
    · exact .inr plain

theorem showText_sameInput (echoes : call.mode.echoInput = true)
    (unanswered : Unanswered call state) (text : List WChar) :
    SameInput state (showText call text state) := by
  have silent : showAnswers call text state = [] := showAnswers_eq_nil echoes unanswered text
  simp only [showAnswers] at silent
  simp only [showText]
  split
  · exact .refl state
  · rename_i buffer shown
    rw [shown] at silent
    refine ⟨rfl, ?_, rfl, rfl, rfl⟩
    simp [ReadState.arrive, ReadState.setQueue, silent]

theorem echoText_sameInput (unanswered : Unanswered call state) (text : List WChar) :
    SameInput state (echoText platform device call text state).1 := by
  simp only [echoText]
  split
  · exact .refl state
  · rename_i active
    have echoes : call.mode.echoInput = true := by
      simp only [Bool.or_eq_true, not_or, Bool.not_eq_true', Bool.not_eq_false] at active
      exact active.1
    have shown := showText_sameInput echoes unanswered text
    split
    · exact shown
    · split
      · exact shown
      · rename_i host written
        refine shown.trans ?_
        simp only [HostIo.writeOutputBytes] at written
        split at written
        · cases written
          exact .refl _
        · split at written
          · cases written
          · cases written
            exact ⟨rfl, rfl, rfl, rfl, rfl⟩

theorem echoTexts_sameInput (texts : List (List WChar)) {state : CookedState}
    (unanswered : Unanswered call state) :
    SameInput state (echoTexts platform device call texts state).1 := by
  induction texts generalizing state with
  | nil => exact .refl state
  | cons text later hypothesis =>
      have first : SameInput state (echoText platform device call text state).1 :=
        echoText_sameInput unanswered text
      simp only [echoTexts]
      split
      · rename_i next echoed
        rw [echoed] at first
        exact first.trans (hypothesis (first.unanswered unanswered))
      · exact first

/-- What a token does to the line in progress. -/
abbrev effect (call : CookedCall) (edit : EditLine) (token : Token) : EditLine.Effect :=
  edit.handleToken call.mode.processedInput call.processControlZ token

/-- The next token is a line feed. -/
def NextIsLf (platform : Platform) (call : CookedCall) (bytes : List Byte) : Prop :=
  ∃ token length, (windowDecoder platform call.codePage).decode bytes = .token token length ∧
    isLf token = true

/-- The parts of the state that reading does not change. -/
structure Kept (before after : CookedState) : Prop where
  inputDisconnected : after.read.host.inputDisconnected = before.read.host.inputDisconnected
  hasOutput : after.read.host.hasOutput = before.read.host.hasOutput

theorem SameInput.kept {first second : CookedState} (same : SameInput first second) :
    Kept first second :=
  ⟨same.inputDisconnected, same.hasOutput⟩

/-- What one pass of the loop does. -/
inductive BodyStep (platform : Platform) (call : CookedCall) (state : CookedState) :
    Pass CookedState Result → Prop
  | wait {final : CookedState}
      (waiting : (windowDecoder platform call.codePage).Waiting state.read.stream)
      (stream : final.read.stream = state.read.stream)
      (edit : editLine final.read.handle = editLine state.read.handle)
      (completed : final.completed = state.completed) (kept : Kept state final) :
      BodyStep platform call state (.leave (final, .ok .pending))
  | proceed {token : Token} {length : Nat} {next : CookedState}
      (decoded : (windowDecoder platform call.codePage).decode state.read.stream =
        .token token length)
      (outcome : (effect call (editLine state.read.handle) token).outcome = .proceed)
      (stream : next.read.stream = state.read.stream.drop length)
      (edit : editLine next.read.handle = (effect call (editLine state.read.handle) token).edit)
      (completed : next.completed = state.completed) (kept : Kept state next) :
      BodyStep platform call state (.next next)
  | stop {token : Token} {length : Nat} {final : CookedState} {reply : ReadReply Byte}
      (decoded : (windowDecoder platform call.codePage).decode state.read.stream =
        .token token length)
      (outcome : (effect call (editLine state.read.handle) token).outcome = .endOfFile ∨
        (effect call (editLine state.read.handle) token).outcome = .ctrlC)
      (stream : final.read.stream = state.read.stream.drop length)
      (edit : editLine final.read.handle = (effect call (editLine state.read.handle) token).edit)
      (completed : final.completed = state.completed) (kept : Kept state final)
      (answered : reply ≠ .pending) : BodyStep platform call state (.leave (final, .ok reply))
  | line {token : Token} {length : Nat} {final : CookedState} {reply : ReadReply Byte}
      {carriageReturn : Bool}
      (decoded : (windowDecoder platform call.codePage).decode state.read.stream =
        .token token length)
      (outcome : (effect call (editLine state.read.handle) token).outcome =
        .newline carriageReturn)
      (stream : (carriageReturn = true ∧ ∃ lf size, (windowDecoder platform call.codePage).decode
            (state.read.stream.drop length) = .token lf size ∧ isLf lf = true ∧
              final.read.stream = (state.read.stream.drop length).drop size) ∨
          ((carriageReturn = true → ¬NextIsLf platform call (state.read.stream.drop length)) ∧
            final.read.stream = state.read.stream.drop length))
      (edit : editLine final.read.handle =
        ⟨[], 0, (effect call (editLine state.read.handle) token).edit.insertMode⟩)
      (completed : final.completed =
        some (effect call (editLine state.read.handle) token).edit.line)
      (kept : Kept state final)
      (answered : reply ≠ .pending) : BodyStep platform call state (.leave (final, .ok reply))
  | interrupt {token : Token} {length : Nat} {value : Result}
      (decoded : (windowDecoder platform call.codePage).decode state.read.stream =
        .token token length)
      (outcome : (effect call (editLine state.read.handle) token).outcome = .ctrlBreak) :
      BodyStep platform call state (.leave value)
  | fault {final : CookedState} {fault : Fault} :
      BodyStep platform call state (.leave (final, .error fault))

theorem stream_skipLf (platform : Platform) (call : CookedCall) (read : ReadState) :
    (∃ lf size, (windowDecoder platform call.codePage).decode read.stream = .token lf size ∧
        isLf lf = true ∧ (skipLf platform call read).stream = read.stream.drop size) ∨
      (¬NextIsLf platform call read.stream ∧ (skipLf platform call read).stream = read.stream) := by
  simp only [skipLf, ReadState.peekHead_eq]
  split
  · rename_i waiting
    right
    refine ⟨?_, rfl⟩
    rintro ⟨token, length, decoded, -⟩
    change platform.decodeOneInputToken call.codePage (read.stream.take 64) = _ at decoded
    rw [waiting] at decoded
    cases decoded
  · rename_i token length decoded
    split
    · rename_i isLineFeed
      exact .inl ⟨token, length, decoded, isLineFeed, ReadState.stream_consume read length⟩
    · rename_i other
      right
      refine ⟨?_, rfl⟩
      rintro ⟨token', length', decoded', isLineFeed⟩
      change platform.decodeOneInputToken call.codePage (read.stream.take 64) = _ at decoded'
      rw [decoded] at decoded'
      obtain ⟨rfl, rfl⟩ := Decoded.token.inj decoded'
      exact other isLineFeed

theorem kept_skipLf (platform : Platform) (call : CookedCall) (read : ReadState) :
    (skipLf platform call read).host.inputDisconnected = read.host.inputDisconnected ∧
      (skipLf platform call read).host.hasOutput = read.host.hasOutput ∧
      editLine (skipLf platform call read).handle = editLine read.handle := by
  simp only [skipLf]
  split
  · exact ⟨rfl, rfl, rfl⟩
  · split <;> exact ⟨rfl, rfl, rfl⟩

theorem editLine_drain (read : ReadState) (peeked : Nat) :
    editLine (read.drain peeked).handle = editLine read.handle ∧
      (read.drain peeked).host.hasOutput = read.host.hasOutput := by
  unfold ReadState.drain
  split <;> exact ⟨rfl, rfl⟩

/-- The end of a line, after the edits and echoes of its last token. -/
theorem conclude_newline {token : Token} {length : Nat} {carriageReturn : Bool}
    {edited : CookedState} (unanswered : Unanswered call edited)
    (decoded : (windowDecoder platform call.codePage).decode state.read.stream =
      .token token length)
    (outcome : (effect call (editLine state.read.handle) token).outcome = .newline carriageReturn)
    (stream : edited.read.stream = state.read.stream.drop length)
    (edit : editLine edited.read.handle = (effect call (editLine state.read.handle) token).edit)
    (kept : Kept state edited) :
    BodyStep platform call state
      (conclude platform device call edited (.newline carriageReturn)) := by
  let skipped : CookedState :=
    if carriageReturn then { edited with read := skipLf platform call edited.read } else edited
  have keptSkip : Kept edited skipped ∧
      editLine skipped.read.handle = editLine edited.read.handle := by
    obtain ⟨disconnected, output, same⟩ := kept_skipLf platform call edited.read
    cases carriageReturn with
    | true => exact ⟨⟨disconnected, output⟩, same⟩
    | false => exact ⟨⟨rfl, rfl⟩, rfl⟩
  have silent : Unanswered call skipped := by rwa [Unanswered, keptSkip.1.hasOutput]
  have echoed : SameInput skipped
      (echoText platform device call (newlineSuffix call) skipped).1 :=
    echoText_sameInput silent _
  have rest : (carriageReturn = true ∧ ∃ lf size, (windowDecoder platform call.codePage).decode
          (state.read.stream.drop length) = .token lf size ∧ isLf lf = true ∧
            skipped.read.stream = (state.read.stream.drop length).drop size) ∨
        ((carriageReturn = true → ¬NextIsLf platform call (state.read.stream.drop length)) ∧
          skipped.read.stream = state.read.stream.drop length) := by
    cases carriageReturn with
    | true =>
        rcases stream_skipLf platform call edited.read with
          ⟨lf, size, found, isLineFeed, taken⟩ | ⟨absent, same⟩
        · rw [stream] at found taken
          exact .inl ⟨rfl, lf, size, found, isLineFeed, taken⟩
        · rw [stream] at absent same
          exact .inr ⟨fun _ => absent, same⟩
    | false => exact .inr ⟨fun isCr => Bool.noConfusion isCr, stream⟩
  simp only [conclude]
  split
  · exact .fault
  · rename_i final succeeded
    change echoText platform device call (newlineSuffix call) skipped = (final, .ok ()) at succeeded
    rw [succeeded] at echoed
    have lineEdit : editLine final.read.handle =
        (effect call (editLine state.read.handle) token).edit := by
      rw [← edit, ← keptSkip.2, echoed.handle]
    refine .line decoded outcome ?_ ?_ ?_ ?_ ?_
    · rw [← echoed.stream] at rest
      exact rest
    · rw [← lineEdit]
      rfl
    · rw [← lineEdit]
      rfl
    · exact ⟨echoed.inputDisconnected.trans (keptSkip.1.inputDisconnected.trans
        kept.inputDisconnected), echoed.hasOutput.trans (keptSkip.1.hasOutput.trans
        kept.hasOutput)⟩
    · exact Delivery.deliverPending_complete _ _ _ _ _

theorem handleToken_step {token : Token} {length : Nat} (unanswered : Unanswered call state)
    (decoded : (windowDecoder platform call.codePage).decode state.read.stream =
      .token token length) :
    BodyStep platform call state (handleToken platform device call
      { state with read := state.read.consume length } token) := by
  have echoed : SameInput _ (echoTexts platform device call
      (effect call (editLine state.read.handle) token).echoes
      (setEdit { state with read := state.read.consume length }
        (effect call (editLine state.read.handle) token).edit)).1 :=
    echoTexts_sameInput _ unanswered
  simp only [handleToken]
  split
  · exact .fault
  · rename_i final succeeded
    change echoTexts platform device call (effect call (editLine state.read.handle) token).echoes
      (setEdit { state with read := state.read.consume length }
        (effect call (editLine state.read.handle) token).edit) = (final, .ok ()) at succeeded
    rw [succeeded] at echoed
    have stream : final.read.stream = state.read.stream.drop length := by
      rw [echoed.stream]
      exact state.read.stream_consume length
    have edit : editLine final.read.handle =
        (effect call (editLine state.read.handle) token).edit := by
      rw [echoed.handle]
      rfl
    have kept : Kept state final := ⟨echoed.inputDisconnected, echoed.hasOutput⟩
    change BodyStep platform call state (conclude platform device call final
      (effect call (editLine state.read.handle) token).outcome)
    cases ended : (effect call (editLine state.read.handle) token).outcome with
    | proceed => exact .proceed decoded ended stream edit echoed.completed kept
    | endOfFile =>
        exact .stop decoded (.inl ended) stream edit echoed.completed kept (by simp)
    | ctrlC =>
        exact .stop decoded (.inr ended) stream edit echoed.completed
          ⟨kept.inputDisconnected, kept.hasOutput⟩ (by simp)
    | ctrlBreak => exact .interrupt decoded ended
    | newline carriageReturn =>
        exact conclude_newline (echoed.unanswered unanswered) decoded ended stream edit kept

theorem body_step (unanswered : Unanswered call state)
    (connected : state.read.host.inputDisconnected = false) :
    BodyStep platform call state (body platform device call state) := by
  have connectedIdle : ∀ final : CookedState, final.read.host.inputDisconnected = false →
      idle final = (final, .ok .pending) := by
    intro final connected
    rw [idle, connected, if_neg Bool.false_ne_true]
  simp only [body]
  split
  · rename_i exhausted
    rw [ReadState.exhausted_iff] at exhausted
    rw [connectedIdle state connected]
    exact .wait (by rw [exhausted]; rfl) rfl rfl rfl ⟨rfl, rfl⟩
  · split
    · rename_i waiting
      rw [ReadState.peekHead_eq] at waiting
      rw [connectedIdle _ (by simpa using connected)]
      obtain ⟨edit, output⟩ :=
        editLine_drain state.read (64 - state.read.pendingPrefix.length)
      exact .wait waiting (by simp) edit rfl ⟨by simp, output⟩
    · rename_i token length decoded
      rw [ReadState.peekHead_eq] at decoded
      exact handleToken_step unanswered decoded

/-- A processed Ctrl+Break key-down, which flushes the input. -/
def breaks (call : CookedCall) : Token → Bool
  | .keyEvent key => call.mode.processedInput && key.matchesCtrlBreak && key.keyDown
  | _ => false

theorem handleUnits_outcome (processed controlZ : Bool) (values : List WChar) (edit : EditLine) :
    (edit.handleUnits processed controlZ values).outcome ≠ .ctrlBreak := by
  induction values generalizing edit with
  | nil => simp [EditLine.handleUnits]
  | cons value later hypothesis =>
      have single : (edit.handleSingleUnit processed controlZ value).outcome ≠ .ctrlBreak := by
        simp only [EditLine.handleSingleUnit, EditLine.backspace, EditLine.insertUnit]
        repeat' split
        all_goals simp
      simp only [EditLine.handleUnits]
      split
      · exact hypothesis _
      · exact single

theorem breaks_of_outcome {edit : EditLine} {token : Token}
    (outcome : (effect call edit token).outcome = .ctrlBreak) : breaks call token = true := by
  cases token with
  | ignoredSequence => cases outcome
  | textUnits chars => exact absurd outcome (handleUnits_outcome _ _ _ _)
  | keyEvent key =>
      simp only [effect, EditLine.handleToken] at outcome
      split at outcome
      · cases outcome
      · rename_i down
        split at outcome
        · rename_i isBreak
          simp only [Bool.not_eq_true', Bool.not_eq_false] at down
          simpa [breaks, down] using isBreak
        · split at outcome
          · cases outcome
          · split at outcome
            · cases outcome
            · split at outcome
              · cases outcome
              · exact absurd outcome (handleUnits_outcome _ _ _ _)

/-- No token of the stream is a Ctrl+Break key-down that is processed. -/
def NoBreak (platform : Platform) (call : CookedCall) (bytes : List Byte) : Prop :=
  ∀ tokens rest, (windowDecoder platform call.codePage).Reads bytes tokens rest →
    ∀ token ∈ tokens, breaks call token = false

theorem NoBreak.reads {bytes rest : List Byte} {tokens : List Token}
    (quiet : NoBreak platform call bytes)
    (reads : (windowDecoder platform call.codePage).Reads bytes tokens rest) :
    NoBreak platform call rest := by
  intro later final further token member
  exact quiet _ _ (reads.trans further) token (by simp [member])

theorem NoBreak.left {bytes more : List Byte} (quiet : NoBreak platform call (bytes ++ more)) :
    NoBreak platform call bytes := by
  intro tokens rest reads
  exact quiet _ _ (reads.append more)

/-- A dispatch on these bytes would end its line at a carriage return whose line feed is still to
arrive. -/
inductive SplitsCrLf (platform : Platform) (call : CookedCall) (future : List Byte) :
    EditLine → List Byte → Prop
  | here {edit : EditLine} {bytes : List Byte} {token : Token} {length : Nat}
      (decoded : (windowDecoder platform call.codePage).decode bytes = .token token length)
      (ends : (effect call edit token).outcome = .newline true)
      (waiting : (windowDecoder platform call.codePage).Waiting (bytes.drop length))
      (next : NextIsLf platform call (bytes.drop length ++ future)) :
      SplitsCrLf platform call future edit bytes
  | later {edit : EditLine} {bytes : List Byte} {token : Token} {length : Nat}
      (decoded : (windowDecoder platform call.codePage).decode bytes = .token token length)
      (proceeds : (effect call edit token).outcome = .proceed)
      (rest : SplitsCrLf platform call future (effect call edit token).edit (bytes.drop length)) :
      SplitsCrLf platform call future edit bytes

theorem splitsCrLf_iff {future : List Byte} {edit : EditLine} {bytes : List Byte} (token : Token)
    (length : Nat)
    (decoded : (windowDecoder platform call.codePage).decode bytes = .token token length) :
    SplitsCrLf platform call future edit bytes ↔
      ((effect call edit token).outcome = .newline true ∧
          (windowDecoder platform call.codePage).Waiting (bytes.drop length) ∧
          NextIsLf platform call (bytes.drop length ++ future)) ∨
        ((effect call edit token).outcome = .proceed ∧
          SplitsCrLf platform call future (effect call edit token).edit (bytes.drop length)) := by
  constructor
  · intro splits
    cases splits with
    | here decoded' ends waiting next =>
        rw [decoded] at decoded'
        obtain ⟨rfl, rfl⟩ := Decoded.token.inj decoded'
        exact .inl ⟨ends, waiting, next⟩
    | later decoded' proceeds rest =>
        rw [decoded] at decoded'
        obtain ⟨rfl, rfl⟩ := Decoded.token.inj decoded'
        exact .inr ⟨proceeds, rest⟩
  · rintro (⟨ends, waiting, next⟩ | ⟨proceeds, rest⟩)
    · exact .here decoded ends waiting next
    · exact .later decoded proceeds rest

theorem not_splitsCrLf_of_waiting {future : List Byte} {edit : EditLine} {bytes : List Byte}
    (waiting : (windowDecoder platform call.codePage).Waiting bytes) :
    ¬SplitsCrLf platform call future edit bytes := by
  intro splits
  cases splits with
  | here decoded =>
      rw [Decoder.Waiting, decoded] at waiting
      cases waiting
  | later decoded =>
      rw [Decoder.Waiting, decoded] at waiting
      cases waiting

/-- The state of a dispatch holds the assembly of the tokens read so far. -/
structure Assembles (platform : Platform) (call : CookedCall) (future : List Byte)
    (state : CookedState) (assembly : Assembly) : Prop where
  edit : editLine state.read.handle = assembly.edit
  next : assembly.afterCr = true → ¬NextIsLf platform call (state.read.stream ++ future)
  connected : state.read.host.inputDisconnected = false
  unanswered : Unanswered call state

namespace Assembles

variable {future : List Byte} {assembly : Assembly}

/-- A token at the head of the stream is not skipped. -/
theorem not_skipped (assembles : Assembles platform call future state assembly) {token : Token}
    {length : Nat} (decoded : (windowDecoder platform call.codePage).decode state.read.stream =
      .token token length) : ¬(assembly.afterCr && isLf token) = true := by
  intro skipped
  simp only [Bool.and_eq_true] at skipped
  exact assembles.next skipped.1
    ⟨token, length, (windowDecoder platform call.codePage).stable future decoded, skipped.2⟩

theorem kept {final : CookedState} (assembles : Assembles platform call future state assembly)
    (after : Assembly) (kept : Kept state final)
    (edit : editLine final.read.handle = after.edit)
    (next : after.afterCr = true → ¬NextIsLf platform call (final.read.stream ++ future)) :
    Assembles platform call future final after :=
  ⟨edit, next, kept.inputDisconnected.trans assembles.connected,
    by rw [Unanswered, kept.hasOutput]; exact assembles.unanswered⟩

end Assembles

/-- Where no further line feed is to arrive, the look-ahead decides. -/
theorem not_nextIsLf_append {edit : EditLine} {bytes future : List Byte} {token : Token}
    {length : Nat} (together : ¬SplitsCrLf platform call future edit bytes)
    (decoded : (windowDecoder platform call.codePage).decode bytes = .token token length)
    (ends : (effect call edit token).outcome = .newline true)
    (absent : ¬NextIsLf platform call (bytes.drop length)) :
    ¬NextIsLf platform call (bytes.drop length ++ future) := by
  intro next
  cases head : (windowDecoder platform call.codePage).decode (bytes.drop length) with
  | needMore => exact together (.here decoded ends head next)
  | token lf size =>
      obtain ⟨other, size', decoded', isLineFeed⟩ := next
      rw [(windowDecoder platform call.codePage).stable future head] at decoded'
      obtain ⟨rfl, rfl⟩ := Decoded.token.inj decoded'
      exact absent ⟨lf, size, head, isLineFeed⟩

/-- What a dispatch that returns has read. -/
structure Dispatched (platform : Platform) (call : CookedCall) (future : List Byte)
    (state : CookedState) (assembly : Assembly) (final : CookedState) (reply : ReadReply Byte)
    (tokens : List Token) : Prop where
  reads : (windowDecoder platform call.codePage).Reads state.read.stream tokens final.read.stream
  lines : final.completed.toList =
    (assembly.takeAll call.mode.processedInput call.processControlZ tokens).2
  after : Assembles platform call future final
    (assembly.takeAll call.mode.processedInput call.processControlZ tokens).1
  waiting : reply = .pending → (windowDecoder platform call.codePage).Waiting final.read.stream

theorem iterate_dispatched {future : List Byte} (fuel : Nat) {state final : CookedState}
    {reply : ReadReply Byte} {assembly : Assembly}
    (assembles : Assembles platform call future state assembly)
    (fresh : state.completed = none) (quiet : NoBreak platform call state.read.stream)
    (together : ¬SplitsCrLf platform call future assembly.edit state.read.stream)
    (returned : iterate (body platform device call) fuel state = some (final, .ok reply)) :
    ∃ tokens, Dispatched platform call future state assembly final reply tokens := by
  induction fuel generalizing state assembly with
  | zero => cases returned
  | succ fuel hypothesis =>
      have step : BodyStep platform call state (body platform device call state) :=
        body_step assembles.unanswered assembles.connected
      rw [iterate] at returned
      generalize body platform device call state = pass at step returned
      have same := assembles.edit
      cases step with
      | wait waiting stream edit completed kept =>
          cases returned
          refine ⟨[], ?_, ?_, assembles.kept _ kept (edit.trans assembles.edit) ?_, fun _ => ?_⟩
          · rw [stream]
            exact .done _
          · rw [completed, fresh]
            rfl
          · rw [stream]
            exact assembles.next
          · rwa [stream]
      | @proceed token length next decoded outcome stream edit completed kept =>
          rw [same] at outcome edit
          have taken := Assembly.take_of_outcome (assembles.not_skipped decoded)
            (by rw [outcome]; simp)
          have single := Decoder.Reads.single decoded
          rw [← stream] at single
          obtain ⟨tokens, later⟩ := hypothesis
            (assembles.kept ⟨(effect call assembly.edit token).edit, false⟩ kept edit (by simp))
            (completed.trans fresh) (quiet.reads single)
            (by rw [stream]; exact fun splits => together (.later decoded outcome splits)) returned
          refine ⟨token :: tokens, single.trans later.reads, ?_, ?_, later.waiting⟩
          · rw [later.lines]
            simp [Assembly.takeAll, taken]
          · rw [Assembly.takeAll, taken]
            exact later.after
      | @stop token length _ _ decoded outcome stream edit completed kept answered =>
          cases returned
          rw [same] at outcome edit
          have taken := Assembly.take_of_outcome (assembles.not_skipped decoded)
            (by rcases outcome with ended | ended <;> rw [ended] <;> simp)
          refine ⟨[token], ?_, ?_, ?_, fun pended => absurd pended answered⟩
          · rw [stream]
            exact .single decoded
          · rw [completed, fresh]
            simp [Assembly.takeAll, taken]
          · rw [Assembly.takeAll, taken]
            exact assembles.kept _ kept edit (by simp [Assembly.takeAll])
      | @line token length _ _ carriageReturn decoded outcome stream edit completed kept answered =>
          cases returned
          rw [same] at outcome edit completed
          have taken := Assembly.take_newline (assembles.not_skipped decoded) outcome
          rcases stream with ⟨rfl, lf, size, found, isLineFeed, stream⟩ | ⟨absent, stream⟩
          · have whole : assembly.takeAll call.mode.processedInput call.processControlZ
                [token, lf] =
                (⟨⟨[], 0, (effect call assembly.edit token).edit.insertMode⟩, false⟩,
                  [(effect call assembly.edit token).edit.line]) := by
              simp [Assembly.takeAll, taken, Assembly.take_lf _ isLineFeed]
            refine ⟨[token, lf], ?_, ?_, ?_, fun pended => absurd pended answered⟩
            · rw [stream]
              exact .step decoded (.single found)
            · rw [completed, whole]
              rfl
            · rw [whole]
              exact assembles.kept _ kept edit (by simp)
          · refine ⟨[token], ?_, ?_, ?_, fun pended => absurd pended answered⟩
            · rw [stream]
              exact .single decoded
            · rw [completed]
              simp [Assembly.takeAll, taken]
            · rw [Assembly.takeAll, taken]
              refine assembles.kept _ kept edit ?_
              intro isCr
              change carriageReturn = true at isCr
              rw [isCr] at outcome
              rw [stream]
              exact not_nextIsLf_append together decoded outcome (absent isCr)
      | interrupt decoded outcome =>
          have silent := quiet _ _ (.single decoded) _ (List.mem_singleton.mpr rfl)
          rw [breaks_of_outcome outcome] at silent
          cases silent
      | fault => cases returned

/-- While no query is answered every pass takes a token, and the loop ends. -/
theorem iterate_returns (device : Device) (fuel : Nat) {state : CookedState}
    (unanswered : Unanswered call state)
    (connected : state.read.host.inputDisconnected = false)
    (enough : state.read.stream.length < fuel) :
    ∃ result, iterate (body platform device call) fuel state = some result := by
  induction fuel generalizing state with
  | zero => omega
  | succ fuel hypothesis =>
      have step : BodyStep platform call state (body platform device call state) :=
        body_step unanswered connected
      rw [iterate]
      generalize body platform device call state = pass at step
      cases step with
      | proceed decoded _ stream _ _ kept =>
          have positive := (windowDecoder platform call.codePage).positive decoded
          have bounded := (windowDecoder platform call.codePage).bounded decoded
          apply hypothesis
          · rwa [Unanswered, kept.hasOutput]
          · rw [kept.inputDisconnected, connected]
          · rw [stream, List.length_drop]
            omega
      | wait => exact ⟨_, rfl⟩
      | stop => exact ⟨_, rfl⟩
      | line => exact ⟨_, rfl⟩
      | interrupt => exact ⟨_, rfl⟩
      | fault => exact ⟨_, rfl⟩

/-- A dispatch returns after at most one pass for every byte of the stream and one more. -/
theorem readConsole_returns (platform : Platform) (device : Device)
    (unanswered : Unanswered call state)
    (connected : state.read.host.inputDisconnected = false) :
    ∃ result, readConsole platform device call (state.read.stream.length + 1) state =
      some result := by
  by_cases room : call.capacity = 0
  · rw [readConsole, if_pos room]
    exact ⟨_, rfl⟩
  · by_cases empty : state.read.handle.cookedReadPending = []
    · rw [readConsole_iterate room empty]
      apply iterate_returns
      · exact unanswered
      · exact connected
      · exact Nat.lt_succ_self _
    · rw [readConsole_deliver room empty]
      exact ⟨_, rfl⟩

/-- Between dispatches the handle holds the assembly of the tokens read so far. -/
structure Rests (platform : Platform) (call : CookedCall) (future : List Byte)
    (state : CookedState) (assembly : Assembly) : Prop where
  edit : (editLine state.read.handle).normalizeCursor = assembly.edit
  next : assembly.afterCr = true → ¬NextIsLf platform call (state.read.stream ++ future)
  connected : state.read.host.inputDisconnected = false
  unanswered : Unanswered call state

/-- A dispatch reads tokens and completes the lines they make. -/
theorem readConsole_dispatched {future : List Byte} {fuel : Nat} {final : CookedState}
    {reply : ReadReply Byte} {assembly : Assembly}
    (rests : Rests platform call future state assembly) (normalized : assembly.edit.Normalized)
    (fresh : state.completed = none) (quiet : NoBreak platform call state.read.stream)
    (together : call.capacity ≠ 0 → state.read.handle.cookedReadPending = [] →
      ¬SplitsCrLf platform call future (editLine state.read.handle).normalizeCursor
        state.read.stream)
    (returned : readConsole platform device call fuel state = some (final, .ok reply)) :
    ∃ tokens, (windowDecoder platform call.codePage).Reads state.read.stream tokens
        final.read.stream ∧
      final.completed.toList =
        (assembly.takeAll call.mode.processedInput call.processControlZ tokens).2 ∧
      Rests platform call future final
        (assembly.takeAll call.mode.processedInput call.processControlZ tokens).1 ∧
      (reply = .pending → (windowDecoder platform call.codePage).Waiting final.read.stream) := by
  obtain ⟨edit, next, connected, unanswered⟩ := rests
  rw [edit] at together
  by_cases room : call.capacity = 0
  · rw [readConsole, if_pos room] at returned
    cases returned
    exact ⟨[], .done _, by rw [fresh]; rfl, ⟨edit, next, connected, unanswered⟩, by simp⟩
  · by_cases empty : state.read.handle.cookedReadPending = []
    · rw [readConsole_iterate room empty] at returned
      have assembles : Assembles platform call future (start state) assembly :=
        ⟨edit, next, connected, unanswered⟩
      obtain ⟨tokens, reads, lines, after, waiting⟩ :=
        iterate_dispatched fuel assembles rfl quiet (together room empty) returned
      refine ⟨tokens, reads, lines, ⟨?_, after.next, after.connected, after.unanswered⟩, waiting⟩
      rw [after.edit]
      exact (Assembly.takeAll_normalized tokens normalized).normalizeCursor_eq
    · rw [readConsole_deliver room empty] at returned
      cases returned
      refine ⟨[], .done _, rfl, ⟨?_, next, connected, unanswered⟩, ?_⟩
      · change (editLine state.read.handle).normalizeCursor.normalizeCursor = assembly.edit
        rw [edit, normalized.normalizeCursor_eq]
      · intro pended
        exact absurd pended (Delivery.deliverPending_complete _ _ _ _ _)

/-- Bytes arrive, or a line-input read of the given kind and buffer size is dispatched. -/
inductive Event where
  | arrive (bytes : List Byte)
  | dispatch (unicode : Bool) (capacity : Nat)

/-- The bytes that arrive in a run. -/
def arrivals (events : List Event) : List Byte :=
  events.flatMap fun
    | .arrive bytes => bytes
    | .dispatch _ _ => []

/-- A run on one handle: the lines completed so far, and whether the last event was a dispatch that
was left pending. -/
structure Session where
  state : CookedState
  lines : List (List WChar) := []
  waiting : Bool := false

/-- The request of a dispatch. -/
def request (call : CookedCall) (unicode : Bool) (capacity : Nat) : CookedCall :=
  { call with unicode := unicode, capacity := capacity }

namespace Session

variable (platform : Platform) (device : Device) (call : CookedCall) (fuel : Nat)

/-- One event, a dispatch with at most `fuel` passes. A dispatch that fails ends the server, and
with it the run. -/
def step (session : Session) : Event → Option Session
  | .arrive bytes =>
      some { session with state := Cooked.arrive session.state bytes, waiting := false }
  | .dispatch unicode capacity =>
      match readConsole platform device (request call unicode capacity) fuel
          { session.state with completed := none } with
      | some (state, .ok reply) =>
          some ⟨state, session.lines ++ state.completed.toList, reply == .pending⟩
      | _ => none

def run (session : Session) (events : List Event) : Option Session :=
  events.foldlM (step platform device call fuel) session

/-- No dispatch of the run ends a line at a carriage return whose line feed is still to arrive. -/
def CrLfTogether : Session → List Event → Prop
  | _, [] => True
  | session, event :: events =>
      (∀ unicode capacity, event = .dispatch unicode capacity → capacity ≠ 0 →
        session.state.read.handle.cookedReadPending = [] →
        ¬SplitsCrLf platform (request call unicode capacity) (arrivals events)
          (editLine session.state.read.handle).normalizeCursor session.state.read.stream) ∧
      ∀ next, session.step platform device call fuel event = some next → CrLfTogether next events

variable {platform device call fuel}

/-- The session has read these tokens off all the bytes that have arrived. -/
structure Follows (platform : Platform) (call : CookedCall) (initial : Assembly)
    (arrived future : List Byte) (session : Session) (tokens : List Token) : Prop where
  reads : (windowDecoder platform call.codePage).Reads arrived tokens session.state.read.stream
  lines : session.lines =
    (initial.takeAll call.mode.processedInput call.processControlZ tokens).2
  rests : Rests platform call future session.state
    (initial.takeAll call.mode.processedInput call.processControlZ tokens).1
  waiting : session.waiting = true →
    (windowDecoder platform call.codePage).Waiting session.state.read.stream

theorem step_follows {initial : Assembly} (normalized : initial.edit.Normalized)
    {arrived future : List Byte} {session next : Session} {tokens : List Token} {event : Event}
    (follows : Follows platform call initial arrived (arrivals [event] ++ future) session tokens)
    (quiet : NoBreak platform call (arrived ++ arrivals [event] ++ future))
    (together : ∀ unicode capacity, event = .dispatch unicode capacity → capacity ≠ 0 →
      session.state.read.handle.cookedReadPending = [] →
      ¬SplitsCrLf platform (request call unicode capacity) future
        (editLine session.state.read.handle).normalizeCursor session.state.read.stream)
    (stepped : session.step platform device call fuel event = some next) :
    ∃ tokens, Follows platform call initial (arrived ++ arrivals [event]) future next tokens := by
  obtain ⟨reads, lines, rests, waiting⟩ := follows
  cases event with
  | arrive bytes =>
      cases stepped
      have single : arrivals [.arrive bytes] = bytes := by simp [arrivals]
      rw [single] at rests ⊢
      refine ⟨tokens, ?_, lines, ⟨rests.edit, ?_, rests.connected, rests.unanswered⟩, by simp⟩
      · have longer := reads.append bytes
        rwa [← ReadState.stream_arrive] at longer
      · intro afterCr
        have absent := rests.next afterCr
        rwa [← List.append_assoc, ← ReadState.stream_arrive] at absent
  | dispatch unicode capacity =>
      have none : arrivals [.dispatch unicode capacity] = [] := rfl
      rw [none, List.nil_append] at rests
      rw [none, List.append_nil] at quiet ⊢
      simp only [step] at stepped
      split at stepped
      · rename_i state reply returned
        cases stepped
        have resting : Rests platform (request call unicode capacity) future
            { session.state with completed := Option.none }
            (initial.takeAll call.mode.processedInput call.processControlZ tokens).1 :=
          ⟨rests.edit, rests.next, rests.connected, rests.unanswered⟩
        obtain ⟨further, read, completed, after, pended⟩ := readConsole_dispatched resting
          (Assembly.takeAll_normalized tokens normalized) rfl (quiet.left.reads reads)
          (together unicode capacity rfl) returned
        refine ⟨tokens ++ further, reads.trans read, ?_, ?_, ?_⟩
        · rw [Assembly.takeAll_append, lines, completed]
          rfl
        · rw [Assembly.takeAll_append]
          exact ⟨after.edit, after.next, after.connected, after.unanswered⟩
        · intro waited
          exact pended (by simpa using waited)
      · cases stepped

theorem run_follows {initial : Assembly} (normalized : initial.edit.Normalized)
    (events : List Event) {arrived : List Byte} {session final : Session} {tokens : List Token}
    (follows : Follows platform call initial arrived (arrivals events) session tokens)
    (quiet : NoBreak platform call (arrived ++ arrivals events))
    (together : CrLfTogether platform device call fuel session events)
    (ran : session.run platform device call fuel events = some final) :
    ∃ tokens, Follows platform call initial (arrived ++ arrivals events) [] final tokens := by
  induction events generalizing arrived session tokens with
  | nil =>
      cases ran
      rw [arrivals, List.flatMap_nil, List.append_nil]
      exact ⟨tokens, follows⟩
  | cons event events hypothesis =>
      have split : arrivals (event :: events) = arrivals [event] ++ arrivals events := by
        simp [arrivals]
      rw [split] at follows quiet ⊢
      rw [← List.append_assoc] at quiet ⊢
      simp only [run, List.foldlM_cons, Option.bind_eq_bind, Option.bind_eq_some_iff] at ran
      obtain ⟨next, stepped, rest⟩ := ran
      obtain ⟨further, after⟩ := step_follows normalized follows quiet together.1 stepped
      exact hypothesis after quiet (together.2 next stepped) rest

/-- Once everything has arrived no line feed is still to come. -/
theorem crLfTogether_of_dispatches (reads : List (Bool × Nat)) (session : Session) :
    CrLfTogether platform device call fuel session (reads.map fun (unicode, capacity) =>
      .dispatch unicode capacity) := by
  have never : ∀ {call : CookedCall} {edit : EditLine} {bytes : List Byte},
      ¬SplitsCrLf platform call [] edit bytes := by
    intro call edit bytes splits
    induction splits with
    | here decoded ends waiting next =>
        obtain ⟨token, length, found, -⟩ := next
        rw [List.append_nil, waiting] at found
        cases found
    | later decoded proceeds rest hypothesis => exact hypothesis
  have nothing : ∀ reads : List (Bool × Nat), arrivals (reads.map fun (unicode, capacity) =>
      Event.dispatch unicode capacity) = [] := by
    intro reads
    simp [arrivals, List.flatMap_map]
  induction reads generalizing session with
  | nil => trivial
  | cons read reads hypothesis =>
      refine ⟨?_, fun next _ => hypothesis next⟩
      intro unicode capacity _ _ _
      rw [nothing]
      exact never

/-- The lines completed by a run are those of the run in which everything is queued before the
first read, as far as the run has got. -/
theorem lines_eq_of_queued (platform : Platform) (device : Device) (call : CookedCall)
    (fuel fuelQueued : Nat) (state : CookedState) (events : List Event)
    (reads : List (Bool × Nat)) {split queued : Session}
    (connected : state.read.host.inputDisconnected = false)
    (unanswered : Unanswered call state)
    (quiet : NoBreak platform call (state.read.stream ++ arrivals events))
    (together : CrLfTogether platform device call fuel { state := state } events)
    (ranSplit : run platform device call fuel { state := state } events = some split)
    (ranQueued : run platform device call fuelQueued { state := state }
      (.arrive (arrivals events) :: reads.map fun (unicode, capacity) =>
        .dispatch unicode capacity) = some queued)
    (drained : queued.waiting = true) :
    split.lines <+: queued.lines ∧ (split.waiting = true → split.lines = queued.lines) := by
  have normalized := EditLine.normalizeCursor_normalized (editLine state.read.handle)
  have start : ∀ future, Follows platform call ⟨(editLine state.read.handle).normalizeCursor, false⟩
      state.read.stream future { state := state } [] := fun future =>
    ⟨.done _, rfl, ⟨rfl, fun afterCr => Bool.noConfusion afterCr, connected, unanswered⟩,
      fun waited => Bool.noConfusion waited⟩
  have whole : arrivals (.arrive (arrivals events) :: reads.map fun (unicode, capacity) =>
      Event.dispatch unicode capacity) = arrivals events := by
    simp [arrivals, List.flatMap_map]
  obtain ⟨tokens, one⟩ := run_follows normalized events (start _) quiet together ranSplit
  have later : CrLfTogether platform device call fuelQueued { state := state }
      (.arrive (arrivals events) :: reads.map fun (unicode, capacity) =>
        .dispatch unicode capacity) :=
    ⟨fun _ _ isDispatch => Event.noConfusion isDispatch,
      fun next _ => crLfTogether_of_dispatches reads next⟩
  obtain ⟨others, other⟩ :=
    run_follows normalized _ (start _) (by rwa [whole]) later ranQueued
  rw [whole] at other
  constructor
  · rcases one.reads.confluent other.reads with ⟨further, same, -⟩ | ⟨further, same, read⟩
    · rw [one.lines, other.lines, same, Assembly.takeAll_append]
      exact List.prefix_append _ _
    · obtain ⟨rfl, -⟩ := read.eq_nil_of_waiting (other.waiting drained)
      rw [one.lines, other.lines, same, List.append_nil]
  · intro waited
    obtain ⟨same, -⟩ :=
      one.reads.deterministic (one.waiting waited) other.reads (other.waiting drained)
    rw [one.lines, other.lines, same]

/-- A line of which the first letter is read before the rest arrives. -/
def letterFirst : List Event :=
  [.arrive [0x68], .dispatch true 64, .arrive [0x69, 0x0d, 0x0a], .dispatch true 64,
    .dispatch true 64]

theorem crLfTogether_letterFirst : CrLfTogether .utf8 ⟨fun _ _ => false⟩
    { capacity := 0, mode := ⟨2⟩ } 4 { state := {} } letterFirst := by
  refine ⟨by simp, fun next stepped => ?_⟩
  cases stepped
  refine ⟨?_, fun next stepped => ?_⟩
  · rintro unicode capacity same - -
    cases same
    rw [splitsCrLf_iff (.textUnits [0x68]) 1 (by decide)]
    rintro (⟨ends, -⟩ | ⟨-, rest⟩)
    · exact absurd ends (by decide)
    · exact not_splitsCrLf_of_waiting (by decide) rest
  · obtain rfl := Option.some.inj stepped
    refine ⟨by simp, fun next stepped => ?_⟩
    cases stepped
    refine ⟨?_, fun next stepped => ?_⟩
    · rintro unicode capacity same - -
      cases same
      rw [splitsCrLf_iff (.textUnits [0x69]) 1 (by decide)]
      rintro (⟨ends, -⟩ | ⟨-, rest⟩)
      · exact absurd ends (by decide)
      · rw [splitsCrLf_iff (.textUnits [0x0d]) 1 (by decide)] at rest
        rcases rest with ⟨-, waiting, -⟩ | ⟨proceeds, -⟩
        · exact absurd waiting (by decide)
        · exact absurd proceeds (by decide)
    · obtain rfl := Option.some.inj stepped
      refine ⟨?_, fun _ _ => trivial⟩
      rintro unicode capacity same - -
      cases same
      exact not_splitsCrLf_of_waiting (by decide)

theorem lines_eq_of_queued_letterFirst :
    ∃ split queued, run .utf8 ⟨fun _ _ => false⟩ { capacity := 0, mode := ⟨2⟩ } 4 { state := {} }
        letterFirst = some split ∧
      run .utf8 ⟨fun _ _ => false⟩ { capacity := 0, mode := ⟨2⟩ } 8 { state := {} }
        [.arrive [0x68, 0x69, 0x0d, 0x0a], .dispatch true 64, .dispatch true 64] = some queued ∧
      split.waiting = true ∧ queued.waiting = true ∧ split.lines = queued.lines := by
  obtain ⟨split, ranSplit, splitWaits⟩ := Option.map_eq_some_iff.mp (show
    (run .utf8 ⟨fun _ _ => false⟩ { capacity := 0, mode := ⟨2⟩ } 4 { state := {} }
      letterFirst).map Session.waiting = some true by decide)
  obtain ⟨queued, ranQueued, queuedWaits⟩ := Option.map_eq_some_iff.mp (show
    (run .utf8 ⟨fun _ _ => false⟩ { capacity := 0, mode := ⟨2⟩ } 8 { state := {} }
      [.arrive [0x68, 0x69, 0x0d, 0x0a], .dispatch true 64,
        .dispatch true 64]).map Session.waiting = some true by decide)
  refine ⟨split, queued, ranSplit, ranQueued, splitWaits, queuedWaits, ?_⟩
  refine (lines_eq_of_queued .utf8 ⟨fun _ _ => false⟩ { capacity := 0, mode := ⟨2⟩ } 4 8 {}
    letterFirst [(true, 64), (true, 64)] rfl (.inl rfl) ?_ crLfTogether_letterFirst ranSplit
    ranQueued queuedWaits).2 splitWaits
  intro tokens rest _ token _
  cases token <;> rfl

/-- Whether a Ctrl+Break flushes the rest of the input, and where the answer to a query goes,
depends on what has arrived. -/
theorem lines_depend_on_timing :
    let device : Device := ⟨fun _ _ => false⟩
    let read : Event := .dispatch true 64
    let ctrlBreak : List Byte := [0x1b, bc '[', bc '3', bc ';', bc '7', bc '0', bc ';', bc '3',
      bc ';', bc '1', bc ';', bc '8', bc ';', bc '1', bc '_']
    let query : List Byte := [0x1b, bc '[', bc '5', bc 'n']
    let line : List Byte := [bc 'a', 0x0d]
    let processed : CookedCall := { capacity := 0, mode := ⟨3⟩ }
    let echoing : CookedCall := { capacity := 0, mode := ⟨6⟩, outputMode := ⟨7⟩ }
    let shown : CookedState :=
      { screen := some twoCells, read := { host := { hasOutput := false } } }
    let outcome (session : Option Session) := session.map fun final => (final.lines, final.waiting)
    (outcome (run .utf8 device processed 8 { state := {} }
          [.arrive ctrlBreak, read, .arrive line, read, read]) = some ([[wc 'a']], true) ∧
        outcome (run .utf8 device processed 8 { state := {} }
          [.arrive (ctrlBreak ++ line), read, read]) = some ([], true)) ∧
      outcome (run .utf8 device echoing 12 { state := shown }
          [.arrive query, read, .arrive line, read, read]) =
        some ([[0x1b, wc '[', wc '5', wc 'n', 0x1b, wc '[', wc '0', wc 'n', wc 'a']], true) ∧
      outcome (run .utf8 device echoing 12 { state := shown }
          [.arrive (query ++ line), read, read]) =
        some ([[0x1b, wc '[', wc '5', wc 'n', wc 'a']], true) := by
  decide +kernel

end Session

end Cooked

end Conhost
