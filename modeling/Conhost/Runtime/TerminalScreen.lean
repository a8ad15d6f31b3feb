import Conhost.Lib.DrainClock
import Conhost.Lib.Pipe
import Conhost.Lib.Run
import Conhost.Runtime.TerminalOutput

/-!
# What the window of a terminal shows

The client writes bytes to a pipe whenever it likes, and the output thread polls the pipe. In
every order of these events the screen is the one of a terminal that is given the decoded text of
the bytes read so far in one piece, the snapshot the window paints is the one of the screen, and
nothing that was written is lost before the pipe breaks. The thread gives up a silent pipe only
after its client has exited.
-/

namespace Conhost

/-- The texts a sequence of reads is decoded to; a read that completes no character gives none. -/
def decodedTexts (platform : Platform) : List (List Byte) → List Byte → List (List WChar)
  | [], _ => []
  | chunk :: later, pending =>
      let decoded := Utf8Stream.decodeAppend platform pending chunk
      (if decoded.1 = [] then [] else [decoded.1]) ++ decodedTexts platform later decoded.2

theorem flatten_decodedTexts (platform : Platform) (chunks : List (List Byte))
    (pending : List Byte) :
    (decodedTexts platform chunks pending).flatten =
      (Utf8Stream.decodeAll platform chunks pending).1 := by
  induction chunks generalizing pending with
  | nil => rfl
  | cons chunk later hypothesis =>
      simp only [decodedTexts, Utf8Stream.decodeAll, List.flatten_append, hypothesis]
      split
      · rename_i empty
        simp [empty]
      · simp

theorem decodedTexts_append (platform : Platform) (chunks later : List (List Byte))
    (pending : List Byte) :
    decodedTexts platform (chunks ++ later) pending =
      decodedTexts platform chunks pending ++
        decodedTexts platform later (Utf8Stream.decodeAll platform chunks pending).2 := by
  induction chunks generalizing pending with
  | nil => rfl
  | cons chunk chunks hypothesis =>
      simp only [List.cons_append, decodedTexts, hypothesis, Utf8Stream.decodeAll,
        List.append_assoc]

namespace TerminalThread

variable {platform : Platform} {host : TerminalHost} {thread next : TerminalThread}

/-- The screen is well formed, and the window has been given a snapshot of it. -/
structure Published (thread : TerminalThread) : Prop where
  valid : thread.screen.WellFormed
  shown : ∃ snapshot, thread.published = some snapshot ∧ snapshot.Describes thread.screen

theorem publish_published (valid : thread.screen.WellFormed) (hasWindow : Bool) :
    (thread.publish hasWindow).Published := by
  rcases valid.makeViewportSnapshot with ⟨snapshot, made, describes⟩
  simp only [publish, made]
  split
  · exact ⟨valid, snapshot, rfl, describes⟩
  · exact ⟨valid, snapshot, rfl, describes⟩

theorem publish_screen (thread : TerminalThread) (hasWindow : Bool) :
    (thread.publish hasWindow).screen = thread.screen ∧
      (thread.publish hasWindow).pending = thread.pending := by
  simp only [publish]
  split
  · exact ⟨rfl, rfl⟩
  · split
    · exact ⟨rfl, rfl⟩
    · exact ⟨rfl, rfl⟩

/-- What the thread remembers of its polls. -/
def clock (thread : TerminalThread) : DrainClock :=
  ⟨thread.clientExited, thread.drainingAfterExit, thread.drainStartTick⟩

@[simp] theorem publish_clock (thread : TerminalThread) (hasWindow : Bool) :
    (thread.publish hasWindow).clock = thread.clock := by
  simp only [publish]
  split
  · rfl
  · split
    · rfl
    · rfl

@[simp] theorem receive_clock (thread : TerminalThread) (bytes : List Byte) :
    (thread.receive platform bytes).clock = thread.clock := by
  simp only [receive]
  split
  · rfl
  · split
    · rfl
    · exact publish_clock _ true

theorem showText_published (published : thread.Published) (text : List WChar) :
    (thread.showText text).Published := by
  apply publish_published
  exact applyTextToScreenBuffer_wellFormed published.valid text terminalOutputMode none false

@[simp] theorem showText_pending (thread : TerminalThread) (text : List WChar) :
    (thread.showText text).pending = thread.pending :=
  (publish_screen _ true).2

theorem showText_screen (thread : TerminalThread) (text : List WChar) :
    (thread.showText text).screen =
      (applyTextToScreenBuffer thread.screen text terminalOutputMode none false).buffer :=
  (publish_screen _ true).1

theorem receive_pending (platform : Platform) (thread : TerminalThread) {bytes : List Byte}
    (some : bytes ≠ []) :
    (thread.receive platform bytes).pending =
      (Utf8Stream.decodeAppend platform thread.pending bytes).2 := by
  simp only [receive, if_neg some]
  split
  · rfl
  · rw [showText_pending]

/-- The calls that write texts to a screen without a title. -/
abbrev written (screen : ScreenBuffer) (texts : List (List WChar)) : OutputResult :=
  applyCalls terminalOutputMode false ⟨screen, none, []⟩ texts

theorem written_title (screen : ScreenBuffer) (texts : List (List WChar)) :
    (written screen texts).title = none := by
  induction texts using List.reverseRecOn with
  | nil => rfl
  | append_singleton earlier text hypothesis =>
      have same : (written screen (earlier ++ [text])).title.isSome =
          (written screen earlier).title.isSome := by
        rw [written, applyCalls_append]
        exact applyTextToScreenBuffer_title _ _ _ _ _
      rw [← Option.not_isSome_iff_eq_none, same, hypothesis]
      simp

theorem written_append_singleton (screen : ScreenBuffer) (texts : List (List WChar))
    (text : List WChar) :
    (written screen (texts ++ [text])).buffer =
      (applyTextToScreenBuffer (written screen texts).buffer text terminalOutputMode none
        false).buffer := by
  rw [← written_title screen texts, written, applyCalls_append]
  rfl

/-- What is read is decoded and written to the screen. -/
theorem receive_screen (platform : Platform) {thread : TerminalThread} {screen : ScreenBuffer}
    {texts : List (List WChar)} (same : thread.screen = (written screen texts).buffer)
    {bytes : List Byte} (some : bytes ≠ []) :
    (thread.receive platform bytes).screen =
      (written screen (texts ++ decodedTexts platform [bytes] thread.pending)).buffer := by
  simp only [receive, if_neg some, decodedTexts]
  split
  · rename_i empty
    simpa [empty] using same
  · rename_i text
    simp only [List.append_nil]
    rw [showText_screen, same, written_append_singleton]

theorem initial_published {size : Coord} (isSize : size.IsSize) (hasWindow : Bool) :
    (initial size hasWindow).Published := by
  apply publish_published
  apply ScreenBuffer.create_wellFormed
  exact isSize

theorem receive_published (published : thread.Published) (bytes : List Byte) :
    (thread.receive platform bytes).Published := by
  simp only [receive]
  split
  · exact published
  · split
    · exact ⟨published.valid, published.shown⟩
    · apply showText_published
      exact ⟨published.valid, published.shown⟩

theorem showText_posted (thread : TerminalThread) (valid : thread.screen.WellFormed)
    (text : List WChar) :
    (thread.showText text).posted = thread.posted ++ [.invalidate] := by
  have drawn := applyTextToScreenBuffer_wellFormed valid text terminalOutputMode none false
  rcases drawn.makeViewportSnapshot with ⟨snapshot, made, -⟩
  simp only [showText, publish, made]
  rfl

/-- The window is told to paint every text that is written. -/
theorem receive_posted (platform : Platform) (valid : thread.screen.WellFormed) {bytes : List Byte}
    (some : bytes ≠ []) :
    (thread.receive platform bytes).posted = thread.posted ++
      List.replicate (decodedTexts platform [bytes] thread.pending).length .invalidate := by
  simp only [receive, if_neg some, decodedTexts]
  split
  · simp
  · rw [showText_posted]
    · rfl
    · exact valid

/-- What the end of a pass changes: the drain clock. -/
def setDrain (thread : TerminalThread) (draining : Bool) (start : UInt64) : TerminalThread :=
  { thread with drainingAfterExit := draining, drainStartTick := start }

/-- A pass ends in the thread it began with, but for the drain clock. -/
def Resets (before : TerminalThread) : Pass TerminalThread (TerminalThread × TerminalEnding) →
    Prop
  | .next after => ∃ draining start, after = before.setDrain draining start
  | .leave (after, ending) =>
      ending = .drained ∧ ∃ draining start, after = before.setDrain draining start

theorem drain_resets (thread : TerminalThread) (hadOutput : Bool) (tick : UInt64) :
    Resets thread (thread.drain hadOutput tick) := by
  simp only [drain]
  cases hadOutput with
  | true =>
      simp only [if_true, Bool.not_true, Bool.and_false, Bool.false_eq_true, if_false]
      exact ⟨false, thread.drainStartTick, rfl⟩
  | false =>
      simp only [Bool.false_eq_true, if_false, Bool.not_false, Bool.and_true]
      split
      · split
        · exact ⟨true, tick, rfl⟩
        · split
          · exact ⟨rfl, thread.drainingAfterExit, thread.drainStartTick, rfl⟩
          · exact ⟨thread.drainingAfterExit, thread.drainStartTick, rfl⟩
      · exact ⟨thread.drainingAfterExit, thread.drainStartTick, rfl⟩

/-- The wait for the client changes nothing else. -/
theorem noteExit_eq_ok {client : WaitState} (noted : thread.noteExit host client = .ok next) :
    ∃ exited, next = { thread with clientExited := exited } := by
  simp only [noteExit] at noted
  split at noted
  · cases client with
    | signaled =>
        cases noted
        exact ⟨true, rfl⟩
    | timeout =>
        cases noted
        exact ⟨thread.clientExited, rfl⟩
    | failed error => cases noted
  · cases noted
    exact ⟨thread.clientExited, rfl⟩

theorem fail_ne_left (poll : TerminalPoll) (error : TerminalError) :
    poll.fail error ≠ .drained ∧ ∀ reason, poll.fail error ≠ .closed reason := by
  simp only [TerminalPoll.fail]
  split
  · simp
  · simp

/-- No call of a pass says that the output has been drained. -/
theorem output_ne_drained {poll : TerminalPoll} {ending : TerminalEnding}
    (output : poll.output host = .error ending) : ending ≠ .drained := by
  rintro rfl
  simp only [TerminalPoll.output, TerminalPoll.fail] at output
  split at output
  · split_ifs at output
    all_goals cases output
  · cases output
  · split at output
    · split_ifs at output
      all_goals cases output
    · cases output

/-- A pass reads, or it leaves the loop with the screen as it was: before it reads, or by an
exception while it decodes. -/
inductive Passes (platform : Platform) (host : TerminalHost) (thread : TerminalThread)
    (poll : TerminalPoll) : Pass TerminalThread (TerminalThread × TerminalEnding) → Prop where
  | stops {after : TerminalThread} {ending : TerminalEnding} (screen : after.screen = thread.screen)
      (pending : after.pending = thread.pending) (published : after.published = thread.published)
      (posted : after.posted = thread.posted)
      (unread : thread.reads host poll = []) (undrained : ending ≠ .drained)
      (closes : ∀ error, ending = .closed error → poll.output host = .error (.closed error)) :
      Passes platform host thread poll (.leave (after, ending))
  | throws {bytes : List Byte} {exited : Bool} (output : poll.output host = .ok bytes)
      (read : thread.reads host poll = bytes) :
      Passes platform host thread poll (.leave ({ thread with clientExited := exited }, .unhandled))
  | reads {bytes : List Byte} {exited : Bool} {result : Pass TerminalThread _}
      (output : poll.output host = .ok bytes) (read : thread.reads host poll = bytes)
      (resets : Resets
        ({ thread with clientExited := exited }.receive platform bytes) result) :
      Passes platform host thread poll result

theorem pass_passes (platform : Platform) (host : TerminalHost) (thread : TerminalThread)
    (poll : TerminalPoll) :
    Passes platform host thread poll (thread.pass platform host poll) := by
  simp only [pass]
  cases stopped : poll.stop with
  | signaled => exact .stops rfl rfl rfl rfl (by simp [reads, stopped]) (by simp) (by simp)
  | failed error =>
      rcases fail_ne_left poll ⟨host.stopFailed, error⟩ with ⟨undrained, unclosed⟩
      exact .stops rfl rfl rfl rfl (by simp [reads, stopped]) undrained
        fun reason closed => absurd closed (unclosed reason)
  | timeout =>
      cases noted : thread.noteExit host poll.client with
      | error error =>
          rcases fail_ne_left poll error with ⟨undrained, unclosed⟩
          exact .stops rfl rfl rfl rfl (by simp [reads, stopped, noted]) undrained
            fun reason closed => absurd closed (unclosed reason)
      | ok next =>
          rcases noteExit_eq_ok noted with ⟨exited, rfl⟩
          cases output : poll.output host with
          | ok bytes =>
              dsimp only
              split
              · exact .throws output (by simp [reads, stopped, noted, output])
              · exact .reads output (by simp [reads, stopped, noted, output]) (drain_resets _ _ _)
          | error ending =>
              refine .stops rfl rfl rfl rfl (by simp [reads, stopped, noted, output]) ?_ ?_
              · exact output_ne_drained output
              · rintro error rfl
                exact output

theorem noteExit_timeout (thread : TerminalThread) (host : TerminalHost) :
    thread.noteExit host .timeout = .ok thread := by
  simp [noteExit]

/-- A pass that reads something from a client that has not exited. -/
theorem pass_of_alive {poll : TerminalPoll} {bytes : List Byte} (goes : poll.stop = .timeout)
    (memory : poll.allocates = true) (waits : poll.client = .timeout)
    (alive : thread.clientExited = false) (some : bytes ≠ [])
    (output : poll.output host = .ok bytes) :
    thread.pass platform host poll =
      .next { thread.receive platform bytes with drainingAfterExit := false } := by
  have noted : thread.noteExit host poll.client = .ok thread := by
    rw [waits, noteExit_timeout]
  have exited : (thread.receive platform bytes).clientExited = false :=
    (congrArg DrainClock.exited (receive_clock thread bytes)).trans alive
  have read : bytes.isEmpty = false := by simpa using some
  simp [pass, goes, memory, noted, output, drain, exited, read]

theorem reads_of_alive {poll : TerminalPoll} {bytes : List Byte} (goes : poll.stop = .timeout)
    (waits : poll.client = .timeout) (output : poll.output host = .ok bytes) :
    thread.reads host poll = bytes := by
  have noted : thread.noteExit host poll.client = .ok thread := by
    rw [waits, noteExit_timeout]
  simp [reads, goes, noted, output]

theorem Resets.published {result : Pass TerminalThread (TerminalThread × TerminalEnding)}
    (resets : Resets thread result) (published : thread.Published) :
    result.Meets Published (fun ended => ended.1.Published) := by
  cases result with
  | next after =>
      rcases resets with ⟨draining, start, rfl⟩
      exact ⟨published.valid, published.shown⟩
  | leave ended =>
      rcases resets with ⟨-, draining, start, same⟩
      simp only [Pass.Meets, same]
      exact ⟨published.valid, published.shown⟩

/-- Every pass leaves the window with a snapshot of the screen. -/
theorem pass_published (platform : Platform) (host : TerminalHost) (published : thread.Published)
    (poll : TerminalPoll) :
    (thread.pass platform host poll).Meets Published (fun ended => ended.1.Published) := by
  have passes : Passes platform host thread poll (thread.pass platform host poll) :=
    pass_passes platform host thread poll
  generalize thread.pass platform host poll = result at passes ⊢
  cases passes with
  | stops screen pending shown =>
      refine ⟨?_, ?_⟩
      · rw [screen]
        exact published.valid
      · rw [screen, shown]
        exact published.shown
  | throws => exact ⟨published.valid, published.shown⟩
  | reads output read resets =>
      apply resets.published
      apply receive_published
      exact ⟨published.valid, published.shown⟩

/-- The window is closed unless the loop was canceled, if an exception was thrown or if the window
is not held open and the client has left an exit code. -/
def Closes (host : TerminalHost) (holdWindowOnExit : Bool) (ending : TerminalEnding)
    (result : TerminalResult) : Prop :=
  ending ≠ .canceled ∧
    (result = .unhandled ∨ holdWindowOnExit = false ∧ ∃ code, result.kept host = .ok code)

theorem catchAll_published (published : thread.Published) (opened : .close ∉ thread.posted)
    (canceled : Bool) :
    (thread.catchAll canceled).1.Published ∧
      (.close ∈ (thread.catchAll canceled).1.posted ↔ canceled = false) := by
  cases canceled with
  | true => exact ⟨published, by simpa [catchAll] using opened⟩
  | false => exact ⟨⟨published.valid, published.shown⟩, by simp [catchAll, post]⟩

/-- A loop that neither failed nor was left by an exception is followed by a call for the exit code
of the client. -/
theorem conclude_of_left (holdWindowOnExit : Bool) (exitCode : Except UInt32 UInt32)
    (allocates : Bool) {ending : TerminalEnding} (succeeds : ∀ error, ending ≠ .failed error)
    (handled : ending ≠ .unhandled) :
    thread.conclude host holdWindowOnExit exitCode allocates ending =
      match if host.hasClient then exitCode else .ok 0 with
      | .error error =>
          if allocates then (thread, .failed ⟨host.exitCodeFailed, error⟩)
          else thread.catchAll (ending = .canceled)
      | .ok code =>
          (if ending = .canceled then thread
            else if holdWindowOnExit then thread.showText (exitMessage code)
            else thread.post .close, .succeeded code) := by
  cases ending with
  | failed error => exact absurd rfl (succeeds error)
  | unhandled => exact absurd rfl handled
  | canceled | closed | drained => rfl

/-- After the loop, too, the window has a snapshot of the screen. -/
theorem conclude_published (published : thread.Published) (opened : .close ∉ thread.posted)
    (holdWindowOnExit : Bool) (exitCode : Except UInt32 UInt32) (allocates : Bool)
    (ending : TerminalEnding) :
    let concluded := thread.conclude host holdWindowOnExit exitCode allocates ending
    concluded.1.Published ∧
      (.close ∈ concluded.1.posted ↔ Closes host holdWindowOnExit ending concluded.2) := by
  by_cases fails : ∃ error, ending = .failed error
  · rcases fails with ⟨error, rfl⟩
    exact ⟨published, by simpa [conclude, Closes, TerminalResult.kept] using opened⟩
  by_cases thrown : ending = .unhandled
  · subst thrown
    have closed := catchAll_published published opened false
    simpa [conclude, Closes, catchAll, TerminalResult.kept] using closed
  simp only [not_exists] at fails
  rw [conclude_of_left holdWindowOnExit exitCode allocates fails thrown]
  split
  · cases allocates with
    | true => exact ⟨published, by simpa [Closes, TerminalResult.kept] using opened⟩
    | false =>
        have closed := catchAll_published published opened (ending = .canceled)
        simpa [Closes, catchAll, TerminalResult.kept] using closed
  · rename_i code _
    by_cases canceled : ending = .canceled
    · simpa [canceled, Closes, TerminalResult.kept] using ⟨published, opened⟩
    · cases holdWindowOnExit with
      | true =>
          have posted := showText_posted thread published.valid (exitMessage code)
          simpa [canceled, posted, opened, Closes, TerminalResult.kept] using
            showText_published published (exitMessage code)
      | false =>
          have closed : (thread.post .close).Published := ⟨published.valid, published.shown⟩
          have posted : WindowMessage.close ∈ (thread.post .close).posted := by simp [post]
          simpa [canceled, posted, Closes, TerminalResult.kept] using closed

end TerminalThread

/-- The output thread and the pipe it reads. -/
structure TerminalSession where
  thread : TerminalThread
  pipe : Pipe Byte := .empty
  /-- What was decoded, call by call. -/
  chunks : List (List Byte) := []
  ending : Option TerminalEnding := none

inductive TerminalEvent where
  | write (bytes : List Byte)
  | closeWriter
  | poll (poll : TerminalPoll)

/-- The calls of a pass are answered by the pipe. -/
def TerminalPoll.fits (poll : TerminalPoll) (pipe : Pipe Byte) : Bool :=
  pipe.answers Win32.errorBrokenPipe 8192 poll.peek poll.read

namespace TerminalSession

variable (platform : Platform) (host : TerminalHost)

def initial (size : Coord) (hasWindow : Bool) : TerminalSession where
  thread := .initial size hasWindow

variable (session : TerminalSession)

/-- A pass is over, and the loop with it if there is an ending. -/
def advance (bytes : List Byte) (thread : TerminalThread) (ending : Option TerminalEnding) :
    TerminalSession where
  thread := thread
  pipe := session.pipe.take bytes.length
  chunks :=
    if bytes = [] ∨ ending = some .unhandled then session.chunks else session.chunks ++ [bytes]
  ending := ending

def step : TerminalEvent → Option TerminalSession
  | .write bytes =>
      if session.pipe.writerGone then none
      else some { session with pipe := session.pipe.write bytes }
  | .closeWriter => some { session with pipe := session.pipe.closeWriter }
  | .poll poll =>
      if session.ending.isSome || !poll.fits session.pipe then none
      else
        let bytes := session.thread.reads host poll
        match session.thread.pass platform host poll with
        | .next thread => some (session.advance bytes thread none)
        | .leave (thread, ending) => some (session.advance bytes thread (some ending))

variable {platform host} {session next : TerminalSession}

/-- The texts that have been written to the screen. -/
def texts (platform : Platform) (session : TerminalSession) : List (List WChar) :=
  decodedTexts platform session.chunks []

/-- What holds throughout a session that began with a screen. -/
structure Follows (platform : Platform) (start : ScreenBuffer) (asked : Nat)
    (session : TerminalSession) : Prop where
  received : session.ending ≠ some .unhandled → session.chunks.flatten = session.pipe.received
  pending : session.thread.pending = (Utf8Stream.decodeAll platform session.chunks []).2
  screen : session.thread.screen =
    (TerminalThread.written start (session.texts platform)).buffer
  broken : session.ending = some (.closed Win32.errorBrokenPipe) →
    session.pipe.unread = [] ∧ session.pipe.writerGone = true
  published : session.thread.Published
  posted : session.thread.posted =
    List.replicate (asked + (session.texts platform).length) .invalidate

theorem output_of_fits {poll : TerminalPoll} {pipe : Pipe Byte} {bytes : List Byte}
    (fits : poll.fits pipe = true) (output : poll.output host = .ok bytes) :
    bytes <+: pipe.unread := by
  simp only [TerminalPoll.output] at output
  simp only [TerminalPoll.fits] at fits
  split at output
  · cases output
  · cases output
    exact List.nil_prefix
  · rename_i available positive peek
    split at output
    · cases output
    · rename_i all read
      rw [peek, read] at fits
      cases output
      exact (List.take_prefix _ _).trans (Pipe.front_of_read fits)

theorem closed_of_fits {poll : TerminalPoll} {pipe : Pipe Byte} (fits : poll.fits pipe = true)
    (output : poll.output host = .error (.closed Win32.errorBrokenPipe)) :
    pipe.unread = [] ∧ pipe.writerGone = true := by
  simp only [TerminalPoll.output] at output
  simp only [TerminalPoll.fits] at fits
  split at output
  · rename_i error peek
    split at output
    · rw [peek] at fits
      exact Pipe.broken_of_peek fits (by simpa using output)
    · exact absurd (Except.error.inj output) ((TerminalThread.fail_ne_left poll _).2 _)
  · cases output
  · rename_i available positive peek
    split at output
    · rename_i error read
      split at output
      · rw [peek, read] at fits
        exact Pipe.broken_of_read fits (by simpa using output)
      · exact absurd (Except.error.inj output) ((TerminalThread.fail_ne_left poll _).2 _)
    · cases output

namespace Follows

variable {start : ScreenBuffer} {asked : Nat}

theorem initial {size : Coord} (isSize : size.IsSize) (hasWindow : Bool) :
    Follows platform (.create (TerminalThread.settings size)) hasWindow.toNat
      (initial size hasWindow) where
  received := fun _ => rfl
  pending := (TerminalThread.publish_screen _ _).2
  screen := (TerminalThread.publish_screen _ _).1
  broken := by simp [TerminalSession.initial]
  published := TerminalThread.initial_published isSize hasWindow
  posted := by
    have valid : (ScreenBuffer.create (TerminalThread.settings size)).WellFormed :=
      ScreenBuffer.create_wellFormed isSize
    rcases valid.makeViewportSnapshot with ⟨snapshot, made, -⟩
    simp only [TerminalSession.initial, TerminalThread.initial, TerminalThread.publish, made]
    cases hasWindow with
    | false => rfl
    | true => rfl

/-- Nothing was decoded in a pass. -/
theorem still (follows : Follows platform start asked session) (running : session.ending = none)
    {bytes : List Byte} {thread : TerminalThread} {ending : Option TerminalEnding}
    (undecoded : bytes = [] ∨ ending = some .unhandled)
    (screen : thread.screen = session.thread.screen)
    (pending : thread.pending = session.thread.pending) (published : thread.Published)
    (posted : thread.posted = session.thread.posted)
    (broken : ending = some (.closed Win32.errorBrokenPipe) →
      session.pipe.unread = [] ∧ session.pipe.writerGone = true) :
    Follows platform start asked (session.advance bytes thread ending) := by
  have same : (session.advance bytes thread ending).chunks = session.chunks := if_pos undecoded
  constructor
  · intro handled
    have nothing : bytes = [] := undecoded.resolve_right handled
    subst nothing
    simpa [advance] using follows.received (by simp [running])
  · rw [same]
    exact pending.trans follows.pending
  · rw [texts, same]
    exact screen.trans follows.screen
  · intro ended
    rcases broken ended with ⟨nothing, gone⟩
    refine ⟨?_, gone⟩
    change session.pipe.unread.drop _ = []
    rw [nothing, List.drop_nil]
  · exact published
  · rw [texts, same]
    exact posted.trans follows.posted

/-- A pass reads from the front of the pipe. -/
theorem read (follows : Follows platform start asked session) (running : session.ending = none)
    {bytes : List Byte} (front : bytes <+: session.pipe.unread) {exited : Bool}
    {thread : TerminalThread} {ending : Option TerminalEnding}
    (undrained : ending = none ∨ ending = some .drained)
    (resets : ∃ draining moment, thread =
      ({ session.thread with clientExited := exited }.receive platform bytes).setDrain
        draining moment) :
    Follows platform start asked (session.advance bytes thread ending) := by
  rcases resets with ⟨draining, moment, rfl⟩
  have published : ({ session.thread with clientExited := exited }.receive
      platform bytes).Published := by
    apply TerminalThread.receive_published
    exact ⟨follows.published.valid, follows.published.shown⟩
  have unbroken : ending ≠ some (.closed Win32.errorBrokenPipe) ∧ ending ≠ some .unhandled := by
    rcases undrained with rfl | rfl <;> simp
  by_cases empty : bytes = []
  · subst empty
    apply follows.still running (.inl rfl)
    · simp [TerminalThread.setDrain, TerminalThread.receive]
    · simp [TerminalThread.setDrain, TerminalThread.receive]
    · exact ⟨published.valid, published.shown⟩
    · simp [TerminalThread.setDrain, TerminalThread.receive]
    · exact fun same => absurd same unbroken.1
  · have chunks : ∀ thread, (session.advance bytes thread ending).chunks =
        session.chunks ++ [bytes] := fun _ => if_neg (not_or.mpr ⟨empty, unbroken.2⟩)
    constructor
    · intro _
      rw [chunks, List.flatten_append, follows.received (by simp [running])]
      simpa [advance] using (Pipe.received_take front).symm
    · have same := TerminalThread.receive_pending platform
        { session.thread with clientExited := exited } empty
      rw [chunks]
      simp only [advance, TerminalThread.setDrain, same]
      rw [Utf8Stream.decodeAll_append, ← follows.pending]
      rfl
    · have current : { session.thread with clientExited := exited }.screen =
          (TerminalThread.written start (session.texts platform)).buffer := follows.screen
      have same := TerminalThread.receive_screen platform current empty
      simp only [texts, chunks]
      simp only [advance, TerminalThread.setDrain, same]
      rw [decodedTexts_append, ← follows.pending, texts]
    · exact fun same => absurd same unbroken.1
    · exact ⟨published.valid, published.shown⟩
    · have valid : { session.thread with clientExited := exited }.screen.WellFormed :=
        follows.published.valid
      have same := TerminalThread.receive_posted platform valid empty
      simp only [texts, chunks]
      simp only [advance, TerminalThread.setDrain, same]
      rw [decodedTexts_append, ← follows.pending, follows.posted, texts, List.length_append,
        ← Nat.add_assoc, List.replicate_append_replicate]

theorem step (follows : Follows platform start asked session) {event : TerminalEvent}
    (steps : session.step platform host event = some next) : Follows platform start asked next := by
  cases event with
  | write bytes =>
      simp only [TerminalSession.step] at steps
      split at steps
      · cases steps
      · rename_i present
        cases steps
        refine ⟨follows.received, follows.pending, follows.screen, ?_, follows.published,
          follows.posted⟩
        exact fun ended => absurd (follows.broken ended).2 present
  | closeWriter =>
      cases steps
      exact ⟨follows.received, follows.pending, follows.screen,
        fun ended => ⟨(follows.broken ended).1, rfl⟩, follows.published, follows.posted⟩
  | poll poll =>
      simp only [TerminalSession.step] at steps
      split at steps
      · cases steps
      · rename_i goes
        simp only [Bool.or_eq_true, Bool.not_eq_true', not_or, Bool.not_eq_true,
          Bool.not_eq_false, Option.isSome_eq_false_iff, Option.isNone_iff_eq_none] at goes
        rcases goes with ⟨running, fits⟩
        have passes := TerminalThread.pass_passes platform host session.thread poll
        have shown := TerminalThread.pass_published platform host follows.published poll
        generalize session.thread.pass platform host poll = result at passes shown steps
        cases passes with
        | stops screen pending published posted unread undrained closes =>
            cases steps
            apply follows.still running (.inl unread) screen pending shown posted
            intro same
            exact closed_of_fits fits (closes _ (Option.some.inj same))
        | throws output read =>
            cases steps
            exact follows.still running (.inr rfl) rfl rfl shown rfl (by simp)
        | reads output read resets =>
            have front := output_of_fits fits output
            rw [read] at steps
            cases result with
            | next thread =>
                cases steps
                exact follows.read running front (.inl rfl) resets
            | leave ended =>
                cases steps
                exact follows.read running front (.inr (congrArg some resets.1)) resets.2

end Follows

theorem run_follows {size : Coord} (isSize : size.IsSize) {hasWindow : Bool}
    (run : Run (step platform host) (fun _ _ => True) (initial size hasWindow) session) :
    Follows platform (.create (TerminalThread.settings size)) hasWindow.toNat session := by
  apply run.invariant (Follows.initial isSize hasWindow)
  intro state event next follows _ steps
  exact follows.step steps

/-- A session whose client has written something piece by piece, and the thread has read each of the
pieces at once. -/
structure Reading (pieces : List (List Byte)) (session : TerminalSession) : Prop where
  running : session.ending = none
  alive : session.thread.clientExited = false
  present : session.pipe.writerGone = false
  unread : session.pipe.unread = []
  written : session.pipe.written = pieces.flatten
  chunks : session.chunks = pieces

/-- A poll that finds a piece. -/
def pieceFound (piece : List Byte) (allocates : Bool) : TerminalPoll where
  peek := .ok piece.length
  read := .ok piece
  allocates := allocates

theorem output_pieceFound {piece : List Byte} (some : piece ≠ []) (small : piece.length ≤ 8192)
    (allocates : Bool) : (pieceFound piece allocates).output host = .ok piece := by
  rcases List.exists_cons_of_ne_nil some with ⟨byte, later, rfl⟩
  have whole : min (byte :: later).length 8192 = (byte :: later).length := Nat.min_eq_left small
  change Except.ok ((byte :: later).take (min (byte :: later).length 8192)) = _
  rw [whole, List.take_length]

namespace Reading

variable {pieces : List (List Byte)} {piece : List Byte}

theorem fits (reading : Reading pieces session) (small : piece.length ≤ 8192) (allocates : Bool) :
    (pieceFound piece allocates).fits (session.pipe.write piece) = true := by
  simp [TerminalPoll.fits, Pipe.answers, pieceFound, Pipe.write, reading.unread, small]

/-- The thread once it has read a piece. -/
def after (platform : Platform) (thread : TerminalThread) (piece : List Byte) : TerminalThread :=
  { thread.receive platform piece with drainingAfterExit := false }

/-- The next piece is written and read. -/
theorem append (platform : Platform) (host : TerminalHost) (reading : Reading pieces session)
    (some : piece ≠ []) (small : piece.length ≤ 8192) :
    ∃ last, Run.after (TerminalSession.step platform host) session
        [.write piece, .poll (pieceFound piece true)] = .some last ∧
      Reading (pieces ++ [piece]) last := by
  let written : TerminalSession := { session with pipe := session.pipe.write piece }
  let last := written.advance piece (after platform session.thread piece) none
  have output : (pieceFound piece true).output host = .ok piece :=
    output_pieceFound some small true
  have read : session.thread.reads host (pieceFound piece true) = piece :=
    TerminalThread.reads_of_alive rfl rfl output
  have pass : session.thread.pass platform host (pieceFound piece true) =
      .next (after platform session.thread piece) :=
    TerminalThread.pass_of_alive rfl rfl rfl reading.alive some output
  have wrote : session.step platform host (.write piece) = .some written :=
    if_neg (by simp [reading.present])
  have polled : written.step platform host (.poll (pieceFound piece true)) = .some last := by
    simp [TerminalSession.step, written, reading.running, reading.fits small, pass, read, last]
  refine ⟨last, by simp [Run.after, wrote, polled], ?_⟩
  constructor
  · rfl
  · exact (congrArg DrainClock.exited (TerminalThread.receive_clock session.thread piece)).trans
      reading.alive
  · exact reading.present
  · simp [last, advance, written, Pipe.take, Pipe.write, reading.unread]
  · simp [last, advance, written, Pipe.take, Pipe.write, reading.written]
  · simp [last, advance, written, some, reading.chunks]

/-- The client is gone, and the pipe breaks. -/
theorem breaks (platform : Platform) (host : TerminalHost) (reading : Reading pieces session) :
    ∃ last, Run.after (TerminalSession.step platform host) session
        [.closeWriter, .poll { peek := .error Win32.errorBrokenPipe }] = .some last ∧
      last.ending = .some (.closed Win32.errorBrokenPipe) ∧
        last.pipe.written = pieces.flatten ∧ last.chunks = pieces := by
  have noted := TerminalThread.noteExit_timeout session.thread host
  have pass : session.thread.pass platform host { peek := .error Win32.errorBrokenPipe } =
      .leave (session.thread, .closed Win32.errorBrokenPipe) := by
    simp [TerminalThread.pass, noted, TerminalPoll.output, Win32.endsOutput]
  have read : session.thread.reads host { peek := .error Win32.errorBrokenPipe } = [] := by
    simp [TerminalThread.reads, noted, TerminalPoll.output]
  refine ⟨{ session with
    pipe := session.pipe.closeWriter.take 0
    ending := .some (.closed Win32.errorBrokenPipe) }, ?_, rfl, reading.written, reading.chunks⟩
  simp [Run.after, TerminalSession.step, reading.running, TerminalPoll.fits, Pipe.answers,
    Pipe.mayFail, Pipe.closeWriter, reading.unread, pass, read, advance]

/-- There is no memory for what is decoded next. -/
theorem throws (platform : Platform) (host : TerminalHost) (reading : Reading pieces session)
    (some : piece ≠ []) (small : piece.length ≤ 8192) :
    ∃ last, Run.after (TerminalSession.step platform host) session
        [.write piece, .poll (pieceFound piece false)] = .some last ∧
      last.ending = .some .unhandled ∧ last.chunks = pieces := by
  have noted := TerminalThread.noteExit_timeout session.thread host
  have output : (pieceFound piece false).output host = .ok piece :=
    output_pieceFound some small false
  have read : session.thread.reads host (pieceFound piece false) = piece :=
    TerminalThread.reads_of_alive rfl rfl output
  have pass : session.thread.pass platform host (pieceFound piece false) =
      .leave (session.thread, .unhandled) := by
    have found : piece.isEmpty = false := by simpa using some
    simp only [TerminalThread.pass, output]
    simp [pieceFound, noted, found]
  refine ⟨{ session with
    pipe := (session.pipe.write piece).take piece.length
    ending := .some .unhandled }, ?_, rfl, reading.chunks⟩
  simp [Run.after, TerminalSession.step, reading.running, reading.present, reading.fits small, pass,
    read, advance]

end Reading

/-- Output is read in every way of cutting it into pieces. -/
theorem exists_reading (platform : Platform) (host : TerminalHost) (size : Coord)
    (hasWindow : Bool) {pieces : List (List Byte)}
    (pieceFits : ∀ piece ∈ pieces, piece ≠ [] ∧ piece.length ≤ 8192) :
    ∃ session, Run (step platform host) (fun _ _ => True) (initial size hasWindow) session ∧
      Reading pieces session := by
  induction pieces using List.reverseRecOn with
  | nil =>
      have clock := TerminalThread.publish_clock
        { screen := .create (TerminalThread.settings size) } hasWindow
      exact ⟨_, .refl, rfl, congrArg DrainClock.exited clock, rfl, rfl, rfl, rfl⟩
  | append_singleton earlier piece hypothesis =>
      rcases pieceFits piece (by simp) with ⟨some, small⟩
      rcases hypothesis fun other member => pieceFits other (by simp [member]) with
        ⟨session, run, reading⟩
      rcases reading.append platform host some small with ⟨last, goes, reads⟩
      exact ⟨last, run.extend goes, reads⟩

/-- The screen of a session, as a user sees it. -/
def terminal (session : TerminalSession) : Terminal :=
  ⟨session.thread.screen.toScreenCore, session.thread.screen.regs, none⟩

/-- The blank screen of a session. -/
def blankTerminal (size : Coord) : Terminal :=
  let screen := ScreenBuffer.create (TerminalThread.settings size)
  ⟨screen.toScreenCore, screen.regs, none⟩

theorem nonempty_screen {size : Coord} (isSize : size.IsSize) :
    0 < (ScreenBuffer.create (TerminalThread.settings size)).bufferSize.x ∧
      0 < (ScreenBuffer.create (TerminalThread.settings size)).bufferSize.y := by
  have valid : (ScreenBuffer.create (TerminalThread.settings size)).WellFormed :=
    ScreenBuffer.create_wellFormed isSize
  exact ⟨valid.core.size.x_pos, valid.core.size.y_pos⟩

/-- In every order of writes and polls, the screen is the one of a terminal that gets what has been
read in one piece, except for the beginning of a character. Nothing is lost on the way, and when
the pipe breaks everything has been read. -/
theorem run_shows (platform : Platform) (accepts : platform.AcceptsWellFormedUtf8)
    (host : TerminalHost) {size : Coord} (isSize : size.IsSize) (hasWindow : Bool)
    {session : TerminalSession}
    (run : Run (step platform host) (fun _ _ => True) (initial size hasWindow) session)
    (handled : session.ending ≠ some .unhandled)
    (steady : Utf8Stream.Steady session.pipe.written)
    (coherent : CoherentCalls terminalOutputMode false
      ⟨.create (TerminalThread.settings size), none, []⟩ (session.texts platform)) :
    ∃ items rest, utf8Code.items.Reads session.pipe.received items rest ∧
      utf8Code.items.Waiting rest ∧ session.thread.pending = rest ∧ rest.length ≤ 3 ∧
      session.terminal =
        (blankTerminal size).run terminalOutputMode false (items.flatMap Utf8Stream.units) ∧
      session.pipe.received ++ session.pipe.unread = session.pipe.written ∧
      (session.ending = some (.closed Win32.errorBrokenPipe) →
        session.pipe.received = session.pipe.written) ∧
      ∀ text, session.pipe.received = utf8Code.encode text →
        items.flatMap Utf8Stream.units = utf16Code.encode text ∧ rest = [] := by
  have follows := run_follows isSize run
  have stopped : utf8Code.items.Waiting ([] : List Byte) :=
    utf8Code.items_waiting_iff.mpr (.inl rfl)
  rcases utf8Code.items.exists_reads session.pipe.received with ⟨items, rest, reads, waiting⟩
  have part : Utf8Stream.Steady session.pipe.received :=
    steady.part session.pipe.received_front.isInfix
  have decoded : Utf8Stream.decodeAll platform session.chunks [] =
      (items.flatMap Utf8Stream.units, rest) := by
    rw [← follows.received handled] at part reads
    exact Utf8Stream.decodeAll_steady accepts part stopped reads waiting
  refine ⟨items, rest, reads, waiting, ?_, Utf8Stream.length_lt_of_waiting waiting, ?_,
    session.pipe.conserved, ?_, ?_⟩
  · rw [follows.pending, decoded]
  · have drawn := applyCalls_terminal (nonempty_screen isSize) (by decide) coherent
    rw [texts, flatten_decodedTexts, decoded] at drawn
    have same : session.terminal = (TerminalThread.written
        (.create (TerminalThread.settings size)) (session.texts platform)).terminal := by
      rw [terminal, follows.screen, OutputResult.terminal, TerminalThread.written_title]
    exact same.trans drawn
  · intro ended
    exact Pipe.received_eq_written (follows.broken ended).1
  · intro text whole
    have encoded : utf8Code.items.Reads session.pipe.received (text.map .symbol) [] := by
      rw [whole]
      simpa using utf8Code.reads_encode text []
    rcases reads.deterministic waiting encoded stopped with ⟨rfl, rfl⟩
    exact ⟨Utf8Stream.units_text text, rfl⟩

/-- `Aé` in two pieces, of which neither ends where a character ends but the second. -/
def accentPieces : List (List Byte) := [[0x41, 0xc3], [0xa9]]

theorem accentPieces_fit : ∀ piece ∈ accentPieces, piece ≠ [] ∧ piece.length ≤ 8192 := by
  simp [accentPieces]

theorem decodedTexts_accentPieces :
    decodedTexts .exactUtf8 accentPieces [] = [[0x41], [0xe9]] := by
  have begun : utf8Code.items.Waiting ([0xc3] : List Byte) :=
    utf8Code.items_waiting_iff_cut.mpr (.inr ⟨'é', [0xa9], by simp, by decide⟩)
  have whole : ([] : List Byte) ++ [[0x41, 0xc3]].flatten = utf8Code.encode ['A'] ++ [0xc3] := by
    decide
  have front : Utf8Stream.decodeAll .exactUtf8 [[0x41, 0xc3]] [] =
      ((['A'].map .symbol).flatMap Utf8Stream.units, [0xc3]) := by
    apply Utf8Stream.decodeAll_steady Platform.exactUtf8_accepts
    · exact .of_length_le (by simp)
    · exact utf8Code.items_waiting_iff.mpr (.inl rfl)
    · rw [whole]
      exact utf8Code.reads_encode ['A'] [0xc3]
    · exact begun
  have first : Utf8Stream.decodeAppend .exactUtf8 [] [0x41, 0xc3] = ([0x41], [0xc3]) := by
    rw [Utf8Stream.units_text, show utf16Code.encode ['A'] = [0x41] by decide] at front
    simpa [Utf8Stream.decodeAll] using front
  have both : Utf8Stream.decodeAll .exactUtf8 accentPieces [] = ([0x41, 0xe9], []) :=
    Utf8Stream.decodeAll_encode .exactUtf8 Platform.exactUtf8_accepts ['A', 'é'] accentPieces
      (by decide)
  have second : (Utf8Stream.decodeAppend .exactUtf8 [0xc3] [0xa9]).1 = [0xe9] := by
    simpa [accentPieces, Utf8Stream.decodeAll, first] using congrArg Prod.fst both
  simp [decodedTexts, accentPieces, first, second]

/-- The two pieces are read before the pipe breaks. -/
theorem run_shows_accent :
    ∃ session, Run (step .exactUtf8 .windowedPty) (fun _ _ => True) (initial ⟨2, 1⟩ false)
        session ∧
      session.ending = some (.closed Win32.errorBrokenPipe) ∧
        session.pipe.written = [0x41, 0xc3, 0xa9] ∧
        session.terminal =
          (blankTerminal ⟨2, 1⟩).run terminalOutputMode false [0x41, 0xe9] := by
  have isSize : (⟨2, 1⟩ : Coord).IsSize := by constructor <;> decide
  rcases exists_reading .exactUtf8 .windowedPty ⟨2, 1⟩ false accentPieces_fit with
    ⟨middle, run, reading⟩
  rcases reading.breaks .exactUtf8 .windowedPty with ⟨last, goes, ended, written, chunks⟩
  have run := run.extend goes
  have text : last.texts .exactUtf8 = [[0x41], [0xe9]] := by
    rw [texts, chunks, decodedTexts_accentPieces]
  have coherent : CoherentCalls terminalOutputMode false
      ⟨.create (TerminalThread.settings ⟨2, 1⟩), none, []⟩ (last.texts .exactUtf8) := by
    rw [text]
    exact ⟨⟨by decide +kernel, by decide +kernel⟩, ⟨by decide +kernel, by decide +kernel⟩, trivial⟩
  have steady : Utf8Stream.Steady last.pipe.written := by
    rw [written]
    exact .of_length_le (Nat.le_of_ble_eq_true rfl)
  rcases run_shows .exactUtf8 Platform.exactUtf8_accepts .windowedPty isSize false run
    (by simp [ended]) steady coherent with ⟨items, rest, -, -, -, -, shown, -, whole, exact⟩
  have encoded : last.pipe.received = utf8Code.encode ['A', 'é'] := by
    rw [whole ended, written]
    decide
  refine ⟨last, run, ended, written, ?_⟩
  rw [shown, (exact ['A', 'é'] encoded).1]
  rfl

/-- The window always has a snapshot of the screen, also after the loop, and it is told to paint
once for every text that is written. It is closed after an exception, and otherwise exactly if the
loop was not canceled, no call failed and the window is not held open. -/
theorem run_publishes (platform : Platform) (host : TerminalHost) {size : Coord}
    (isSize : size.IsSize) (hasWindow : Bool) {session : TerminalSession}
    (run : Run (step platform host) (fun _ _ => True) (initial size hasWindow) session) :
    session.thread.Published ∧
      session.thread.posted =
        List.replicate (hasWindow.toNat + (session.texts platform).length) .invalidate ∧
      ∀ holdWindowOnExit exitCode allocates ending, session.ending = some ending →
        let concluded := session.thread.conclude host holdWindowOnExit exitCode allocates ending
        concluded.1.Published ∧
          (.close ∈ concluded.1.posted ↔
            TerminalThread.Closes host holdWindowOnExit ending concluded.2) := by
  have follows := run_follows isSize run
  refine ⟨follows.published, follows.posted, ?_⟩
  intro holdWindowOnExit exitCode allocates ending _
  have open' : WindowMessage.close ∉ session.thread.posted := by
    rw [follows.posted, List.mem_replicate]
    simp
  exact TerminalThread.conclude_published follows.published open' holdWindowOnExit exitCode
    allocates ending

/-- The window is told to paint twice for the two pieces and is closed at the end; one that is held
open is closed if there is no memory for a third piece. -/
theorem run_publishes_accent :
    (∃ session, Run (step .exactUtf8 .windowedPty) (fun _ _ => True) (initial ⟨2, 1⟩ false)
        session ∧
      session.ending = some (.closed Win32.errorBrokenPipe) ∧ session.thread.Published ∧
        session.thread.posted = [.invalidate, .invalidate] ∧
        .close ∈ (session.thread.conclude .windowedPty false (.ok 7) true
          (.closed Win32.errorBrokenPipe)).1.posted) ∧
    ∃ session, Run (step .exactUtf8 .windowedPty) (fun _ _ => True) (initial ⟨2, 1⟩ false)
        session ∧
      session.ending = some .unhandled ∧
        .close ∈ (session.thread.conclude .windowedPty true (.ok 7) true .unhandled).1.posted := by
  have isSize : (⟨2, 1⟩ : Coord).IsSize := by constructor <;> decide
  rcases exists_reading .exactUtf8 .windowedPty ⟨2, 1⟩ false accentPieces_fit with
    ⟨middle, run, reading⟩
  constructor
  · rcases reading.breaks .exactUtf8 .windowedPty with ⟨last, goes, ended, -, chunks⟩
    have run := run.extend goes
    rcases run_publishes .exactUtf8 .windowedPty isSize false run with ⟨published, posted, ends⟩
    rw [texts, chunks, decodedTexts_accentPieces] at posted
    refine ⟨last, run, ended, published, posted, ?_⟩
    exact (ends false (.ok 7) true _ ended).2.mpr ⟨by simp, .inr ⟨rfl, 7, rfl⟩⟩
  · have some : ([0x42] : List Byte) ≠ [] := by simp
    rcases reading.throws .exactUtf8 .windowedPty some (by simp) with ⟨last, goes, ended, -⟩
    have run := run.extend goes
    rcases run_publishes .exactUtf8 .windowedPty isSize false run with ⟨-, -, ends⟩
    exact ⟨last, run, ended, (ends true (.ok 7) true _ ended).2.mpr ⟨by simp, .inl rfl⟩⟩

end TerminalSession

end Conhost
