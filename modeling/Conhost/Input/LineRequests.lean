import Conhost.Input.Cooked
import Conhost.Input.Repeats

/-!
# Requests of line-input reads

A client reads line after line. Two states are answered alike if the loops of the reads end alike;
a read that has a line to deliver, or no room for one, does not come to its loop. No read looks at
what has been forwarded to the processes or at the line that an earlier read has completed.
-/

namespace Conhost

namespace Cooked

variable {platform : Platform} {device : Device} {call : CookedCall}

/-- How a line-input read is answered; a fault ends the server. -/
def answerOf : Except Fault (ReadReply Byte) → Answer Byte
  | .ok reply => reply.answer
  | .error _ => .stops

/-- The requests of a line-input read. -/
def lineRequest (platform : Platform) (device : Device) (call : CookedCall)
    (state next : CookedState) (answer : Answer Byte) : Prop :=
  ∃ fuel reply, readConsole platform device call fuel state = some (next, reply) ∧
    answerOf reply = answer

/-- A read of the line. -/
def Edits (call : CookedCall) (state : CookedState) : Prop :=
  call.capacity ≠ 0 ∧ state.read.handle.cookedReadPending = []

theorem lineRequest_iff {state next : CookedState} {answer : Answer Byte}
    (edits : Edits call state) :
    lineRequest platform device call state next answer ↔
      ∃ reply, Ends (body platform device call) (start state) (next, reply) ∧
        answerOf reply = answer := by
  simp only [lineRequest, readConsole_iterate edits.1 edits.2, Ends]
  constructor
  · rintro ⟨fuel, reply, ends, answered⟩
    exact ⟨reply, ⟨fuel, ends⟩, answered⟩
  · rintro ⟨reply, ⟨fuel, ends⟩, answered⟩
    exact ⟨fuel, reply, ends, answered⟩

/-- A read that does not look at the input: the line is delivered, or there is no room. -/
def served (platform : Platform) (call : CookedCall) (state : CookedState) :
    CookedState × ReadReply Byte :=
  if call.capacity = 0 then (state, .complete .success [])
  else
    let delivered := Delivery.deliverPending platform call.codePage call.unicode call.capacity
      state.read.handle.cookedReadPending
    (setHandle (start state) fun handle => { handle with cookedReadPending := delivered.1 },
      delivered.2)

theorem lineRequest_served {state next : CookedState} {answer : Answer Byte}
    (other : ¬Edits call state) :
    lineRequest platform device call state next answer ↔
      next = (served platform call state).1 ∧
        (served platform call state).2.answer = answer := by
  have result (fuel : Nat) : readConsole platform device call fuel state =
      some ((served platform call state).1, .ok (served platform call state).2) := by
    by_cases room : call.capacity = 0
    · simp only [readConsole, served, if_pos room]
    · have waiting : state.read.handle.cookedReadPending ≠ [] := fun empty => other ⟨room, empty⟩
      simp only [readConsole_deliver room waiting, served, if_neg room]
  simp only [lineRequest, result, Option.some.injEq, Prod.mk.injEq]
  constructor
  · rintro ⟨_, _, ⟨rfl, rfl⟩, rfl⟩
    exact ⟨rfl, rfl⟩
  · rintro ⟨rfl, rfl⟩
    exact ⟨0, _, ⟨rfl, rfl⟩, rfl⟩

theorem lineRequest_functional : Functional (lineRequest platform device call) := by
  intro state next next' answer answer' one other
  by_cases edits : Edits call state
  · rcases (lineRequest_iff edits).mp one with ⟨reply, ends, rfl⟩
    rcases (lineRequest_iff edits).mp other with ⟨reply', ends', rfl⟩
    cases ends.unique ends'
    exact ⟨rfl, rfl⟩
  · rcases (lineRequest_served edits).mp one with ⟨rfl, rfl⟩
    rcases (lineRequest_served edits).mp other with ⟨rfl, rfl⟩
    exact ⟨rfl, rfl⟩

/-- The reads are answered alike and leave related states. -/
def AnsweredAlike (states : CookedState → CookedState → Prop) (first second : Result) : Prop :=
  answerOf first.2 = answerOf second.2 ∧
    (answerOf first.2 ≠ .stops → states first.1 second.1)

/-- Both requests look at the input, and their loops end alike, or both are served without it. -/
theorem answers_of_together {states : CookedState → CookedState → Prop}
    {first second : CookedState} (edits : Edits call first ↔ Edits call second)
    (together : Edits call first → EndTogether (body platform device call) (AnsweredAlike states)
      (start first) (start second))
    (alike : ¬Edits call first →
      (served platform call first).2 = (served platform call second).2 ∧
        states (served platform call first).1 (served platform call second).1) :
    Answers (lineRequest platform device call) states first second ∧
      Answers (lineRequest platform device call) (fun second first => states first second)
        second first := by
  by_cases looks : Edits call first
  · rcases together looks with ⟨forth, back⟩
    constructor
    · intro next answer gives
      rcases (lineRequest_iff looks).mp gives with ⟨reply, ends, rfl⟩
      rcases forth _ ends with ⟨⟨next', reply'⟩, ends', same, related⟩
      exact ⟨next', (lineRequest_iff (edits.mp looks)).mpr ⟨reply', ends', same.symm⟩, related⟩
    · intro next answer gives
      rcases (lineRequest_iff (edits.mp looks)).mp gives with ⟨reply, ends, rfl⟩
      rcases back _ ends with ⟨⟨next', reply'⟩, ends', same, related⟩
      refine ⟨next', (lineRequest_iff looks).mpr ⟨reply', ends', same⟩, fun goesOn => related ?_⟩
      rwa [same]
  · rcases alike looks with ⟨same, related⟩
    have other := fun looks' => looks (edits.mpr looks')
    constructor
    · intro next answer gives
      rcases (lineRequest_served looks).mp gives with ⟨rfl, rfl⟩
      exact ⟨_, (lineRequest_served other).mpr ⟨rfl, by rw [same]⟩, fun _ => related⟩
    · intro next answer gives
      rcases (lineRequest_served other).mp gives with ⟨rfl, rfl⟩
      exact ⟨_, (lineRequest_served looks).mpr ⟨rfl, by rw [same]⟩, fun _ => related⟩

/-- The look-ahead for a line feed. -/
def lookAhead (platform : Platform) (call : CookedCall) (state : CookedState) : CookedState :=
  { state with read := skipLf platform call state.read }

/-- What follows the look-ahead. -/
def endLine (platform : Platform) (device : Device) (call : CookedCall) (state : CookedState) :
    Pass CookedState Result :=
  match echoText platform device call (newlineSuffix call) state with
  | (state, .error fault) => .leave (state, .error fault)
  | (state, .ok ()) => .leave (finishLine platform call state)

theorem conclude_of_newline (state : CookedState) (carriageReturn : Bool) :
    conclude platform device call state (.newline carriageReturn) =
      endLine platform device call
        (if carriageReturn then lookAhead platform call state else state) := rfl

/-- The state with other events forwarded and another line completed. -/
def unseen (tasks : List (UInt32 × ControlEvent)) (completed : Option (List WChar))
    (state : CookedState) : CookedState :=
  { state with read := state.read.withTasks tasks, completed := completed }

/-- The states differ at most in what no read looks at. -/
def Twin (first second : CookedState) : Prop :=
  ∃ tasks completed, second = unseen tasks completed first

theorem showText_unseen (text : List WChar) (tasks : List (UInt32 × ControlEvent))
    (completed : Option (List WChar)) (state : CookedState) :
    showText call text (unseen tasks completed state) =
      unseen tasks completed (showText call text state) := by
  simp only [showText]
  cases shown : state.screen with
  | none => simp [unseen, shown]
  | some buffer => simp [unseen, shown, ReadState.arrive, ReadState.withTasks, ReadState.setQueue]

theorem writeOutputBytes_withTasks (host : HostIo) (device : Device) (encoded : List Byte)
    (tasks : List (UInt32 × ControlEvent)) :
    ({ host with endTasks := tasks } : HostIo).writeOutputBytes device encoded =
      (host.writeOutputBytes device encoded).map fun host => { host with endTasks := tasks } := by
  simp only [HostIo.writeOutputBytes]
  split
  · rfl
  · split <;> rfl

theorem echoText_unseen (text : List WChar) (tasks : List (UInt32 × ControlEvent))
    (completed : Option (List WChar)) (state : CookedState) :
    echoText platform device call text (unseen tasks completed state) =
      (unseen tasks completed (echoText platform device call text state).1,
        (echoText platform device call text state).2) := by
  simp only [echoText, showText_unseen]
  split
  · rfl
  · split
    · rfl
    · have written := writeOutputBytes_withTasks (showText call text state).read.host device
        (platform.wideCharToMultiByte cpUtf8 text) tasks
      simp only [unseen, ReadState.withTasks] at written ⊢
      rw [written]
      cases (showText call text state).read.host.writeOutputBytes device
        (platform.wideCharToMultiByte cpUtf8 text) with
      | error fault => rfl
      | ok host => rfl

theorem echoTexts_unseen (texts : List (List WChar)) (tasks : List (UInt32 × ControlEvent))
    (completed : Option (List WChar)) (state : CookedState) :
    echoTexts platform device call texts (unseen tasks completed state) =
      (unseen tasks completed (echoTexts platform device call texts state).1,
        (echoTexts platform device call texts state).2) := by
  induction texts generalizing state with
  | nil => rfl
  | cons text later ih =>
      simp only [echoTexts, echoText_unseen]
      rcases echoText platform device call text state with ⟨next, fault | _⟩
      · rfl
      · exact ih next

theorem lookAhead_unseen (state : CookedState) (tasks : List (UInt32 × ControlEvent))
    (completed : Option (List WChar)) :
    lookAhead platform call (unseen tasks completed state) =
      unseen tasks completed (lookAhead platform call state) := by
  have peeked : (unseen tasks completed state).read.peekHead = state.read.peekHead := rfl
  simp only [lookAhead, skipLf, peeked]
  split
  · rfl
  · split <;> rfl

theorem endLine_twin (state : CookedState) (tasks : List (UInt32 × ControlEvent))
    (completed : Option (List WChar)) :
    Pass.Related Twin (AnsweredAlike Twin) (endLine platform device call state)
      (endLine platform device call (unseen tasks completed state)) := by
  rw [endLine, endLine, echoText_unseen]
  rcases echoText platform device call (newlineSuffix call) state with ⟨next, fault | _⟩
  · exact .leave ⟨rfl, fun _ => ⟨tasks, completed, rfl⟩⟩
  · exact .leave ⟨rfl, fun _ => ⟨tasks, some next.read.handle.cookedLineInProgress, rfl⟩⟩

theorem conclude_twin (state : CookedState) (tasks : List (UInt32 × ControlEvent))
    (completed : Option (List WChar)) (outcome : EditLine.Outcome) :
    Pass.Related Twin (AnsweredAlike Twin) (conclude platform device call state outcome)
      (conclude platform device call (unseen tasks completed state) outcome) := by
  cases outcome with
  | proceed => exact .next ⟨tasks, completed, rfl⟩
  | endOfFile => exact .leave ⟨rfl, fun _ => ⟨tasks, completed, rfl⟩⟩
  | ctrlC => exact .leave ⟨rfl, fun _ => ⟨_, completed, rfl⟩⟩
  | ctrlBreak => exact .leave ⟨rfl, fun _ => ⟨_, completed, rfl⟩⟩
  | newline carriageReturn =>
      rw [conclude_of_newline, conclude_of_newline]
      cases carriageReturn with
      | false => exact endLine_twin state tasks completed
      | true =>
          rw [if_pos rfl, if_pos rfl, lookAhead_unseen]
          exact endLine_twin _ tasks completed

theorem body_twin (state : CookedState) (tasks : List (UInt32 × ControlEvent))
    (completed : Option (List WChar)) :
    Pass.Related Twin (AnsweredAlike Twin) (body platform device call state)
      (body platform device call (unseen tasks completed state)) := by
  have exhausted : (unseen tasks completed state).read.exhausted = state.read.exhausted := rfl
  have peeked : (unseen tasks completed state).read.peekHead = state.read.peekHead := rfl
  have idles (state : CookedState) :
      AnsweredAlike Twin (idle state) (idle (unseen tasks completed state)) := by
    have closed : (unseen tasks completed state).read.host.inputDisconnected =
      state.read.host.inputDisconnected := rfl
    simp only [idle, closed]
    split <;> exact ⟨rfl, fun _ => ⟨tasks, completed, rfl⟩⟩
  simp only [body, exhausted, peeked]
  split
  · exact .leave (idles state)
  · split
    · have drained : ({ unseen tasks completed state with
          read := (unseen tasks completed state).read.drain
            (64 - (unseen tasks completed state).read.pendingPrefix.length) } : CookedState) =
          unseen tasks completed { state with
            read := state.read.drain (64 - state.read.pendingPrefix.length) } := by
        simp only [unseen, ReadState.drain_withTasks]
        rfl
      rw [drained]
      exact .leave (idles _)
    · rename_i token length decoded
      have line : editLine (state.read.withTasks tasks |>.consume length).handle =
          editLine (state.read.consume length).handle := rfl
      have consumed : ({ unseen tasks completed state with
          read := (unseen tasks completed state).read.consume length } : CookedState) =
          unseen tasks completed { state with read := state.read.consume length } := rfl
      rw [consumed]
      generalize ({ state with read := state.read.consume length } : CookedState) = state
      have edited (edit : EditLine) : setEdit (unseen tasks completed state) edit =
          unseen tasks completed (setEdit state edit) := rfl
      have same : editLine (unseen tasks completed state).read.handle =
          editLine state.read.handle := rfl
      simp only [handleToken, same, edited, echoTexts_unseen]
      split
      · rename_i failed
        rw [failed]
        exact .leave ⟨rfl, fun _ => ⟨tasks, completed, rfl⟩⟩
      · rename_i shown echoed
        rw [echoed]
        exact conclude_twin shown tasks completed _

theorem twin_bisimulates : Bisimulates (lineRequest platform device call) Twin := by
  rintro first _ ⟨tasks, completed, rfl⟩
  refine .inl (answers_of_together Iff.rfl ?_ ?_)
  · intro _
    have keeps {first second : CookedState} (twin : Twin first second) :
        Pass.Related Twin (AnsweredAlike Twin) (body platform device call first)
          (body platform device call second) := by
      rcases twin with ⟨tasks, completed, rfl⟩
      exact body_twin first tasks completed
    have started : start (unseen tasks completed first) = unseen tasks none (start first) := rfl
    rw [started]
    exact .of_related keeps ⟨tasks, none, rfl⟩
  · intro _
    simp only [served]
    split
    · exact ⟨rfl, tasks, completed, rfl⟩
    · exact ⟨rfl, tasks, none, rfl⟩

theorem twin_sameData (state : CookedState) (tasks : List (UInt32 × ControlEvent))
    (completed : Option (List WChar)) :
    SameData (lineRequest platform device call) state (unseen tasks completed state) :=
  twin_bisimulates.sameData ⟨tasks, completed, rfl⟩

end Cooked

end Conhost
