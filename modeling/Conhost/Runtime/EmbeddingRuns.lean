import Conhost.Runtime.Embedding

/-!
# One handoff for an embedding server

However the calls of the handoff methods and the server interleave, at most one call establishes a
handoff, and a runner is only ever given the whole payload of that call. A call that fails cannot
touch the payload, but it can make the server fail, even when the handoff has been established.
-/

namespace Conhost

variable {supportsTerminalHandoff : Bool}

/-- The payload a method hands over with a state. -/
inductive HandoffCall.Gives (supportsTerminalHandoff : Bool) :
    HandoffCall → EmbeddingCompletionState → ComHandoffPayload →
      Option TerminalHandoffPayload → Prop
  | console {call : ConsoleCall} {terminal : Option TerminalHandoffPayload} :
      Gives supportsTerminalHandoff (.console call) .consoleSucceeded call.payload terminal
  | terminal {call : TerminalCall} {payload : ComHandoffPayload}
      (supported : supportsTerminalHandoff = true) :
      Gives supportsTerminalHandoff (.terminal call) .terminalSucceeded payload
        (some (call.toTerminalArguments.payload call.inPipe call.outPipe))
  | terminal3 {call : TerminalCall3} {payload : ComHandoffPayload}
      (supported : supportsTerminalHandoff = true) :
      Gives supportsTerminalHandoff (.terminal3 call) .terminalSucceeded payload
        (some (call.toTerminalArguments.payload (TerminalCall3.kept call.inputPipe)
          (TerminalCall3.kept call.outputPipe)))

theorem HandoffCall.Gives.ne_pending {call : HandoffCall} {state : EmbeddingCompletionState}
    {console : ComHandoffPayload} {terminal : Option TerminalHandoffPayload}
    (gives : call.Gives supportsTerminalHandoff state console terminal) : state ≠ .pending := by
  cases gives <;> simp

theorem HandoffCall.Gives.of_console {call : HandoffCall} {state : EmbeddingCompletionState}
    {console : ComHandoffPayload} {terminal : Option TerminalHandoffPayload}
    (gives : call.Gives supportsTerminalHandoff state console terminal)
    (same : state = .consoleSucceeded) :
    ∃ method, call = .console method ∧ console = method.payload := by
  cases gives with
  | console => exact ⟨_, rfl, rfl⟩
  | terminal | terminal3 => cases same

theorem HandoffCall.Gives.of_terminal {call : HandoffCall} {state : EmbeddingCompletionState}
    {console : ComHandoffPayload} {terminal : Option TerminalHandoffPayload}
    (gives : call.Gives supportsTerminalHandoff state console terminal)
    (same : state = .terminalSucceeded) :
    supportsTerminalHandoff = true ∧ (∀ method, call ≠ .console method) ∧
      ∃ payload, terminal = some payload := by
  cases gives with
  | console => cases same
  | terminal supported => exact ⟨supported, by simp, _, rfl⟩
  | terminal3 supported => exact ⟨supported, by simp, _, rfl⟩

/-- The writes to the payload. -/
def HandoffAction.copies : HandoffAction → Bool
  | .copy _ _ | .emplace _ => true
  | _ => false

/-- The payload after some writes to it. -/
def HandoffState.written (actions : List HandoffAction) :
    ComHandoffPayload × Option TerminalHandoffPayload :=
  let after := actions.foldl HandoffAction.apply {}
  (after.console, after.terminal)

/-- A write to the payload depends on nothing else, and changes nothing else. -/
theorem HandoffAction.apply_copies {action : HandoffAction} (copies : action.copies = true)
    (shared : HandoffState) :
    (action.apply shared).establishCalled = shared.establishCalled ∧
      (action.apply shared).stores = shared.stores ∧
      (action.apply shared).signaled = shared.signaled ∧
      ∀ other : HandoffState,
        (other.console, other.terminal) = (shared.console, shared.terminal) →
          ((action.apply other).console, (action.apply other).terminal) =
            ((action.apply shared).console, (action.apply shared).terminal) := by
  cases action with
  | copy source part =>
      refine ⟨rfl, rfl, rfl, ?_⟩
      intro other same
      simp only [Prod.mk.injEq] at same
      simp [HandoffAction.apply, same]
  | emplace payload =>
      refine ⟨rfl, rfl, rfl, ?_⟩
      intro other same
      simp only [Prod.mk.injEq] at same
      simp [HandoffAction.apply, same]
  | _ => cases copies

theorem HandoffState.written_append {shared : HandoffState} {writes : List HandoffAction}
    {action : HandoffAction} (copies : action.copies = true)
    (payload : (shared.console, shared.terminal) = HandoffState.written writes) :
    ((action.apply shared).console, (action.apply shared).terminal) =
      HandoffState.written (writes ++ [action]) := by
  simp only [HandoffState.written, List.foldl_append, List.foldl_cons, List.foldl_nil]
  exact (HandoffAction.apply_copies copies _).2.2.2 shared payload

/-- A method that comes through writes its payload, and then it fails, or it has written all of it
and reports its success. -/
structure HandoffCall.Establishes (supportsTerminalHandoff : Bool) (call : HandoffCall)
    (writes tail : List HandoffAction) : Prop where
  actions : call.establish.actions = writes ++ tail
  copies : ∀ action ∈ writes, action.copies = true
  tail : (∃ context result, tail = (HandoffWork.fail context result).actions) ∨
    ∃ state, state ≠ .failed ∧ state ≠ .pending ∧ tail = (HandoffWork.succeed state).actions ∧
      call.Gives supportsTerminalHandoff state (HandoffState.written writes).1
        (HandoffState.written writes).2

theorem HandoffCall.rejected_eq_fail {call : HandoffCall} {work : HandoffWork}
    (rejected : call.rejected supportsTerminalHandoff = some work) :
    ∃ context result, work = .fail context result := by
  cases call with
  | console call =>
      simp only [HandoffCall.rejected, ConsoleCall.rejected, Option.ite_none_right_eq_some,
        Option.some.injEq] at rejected
      exact ⟨_, _, rejected.2.symm⟩
  | terminal call =>
      simp only [HandoffCall.rejected, TerminalCall.rejected] at rejected
      split at rejected
      · exact ⟨_, _, (Option.some.inj rejected).symm⟩
      · simp only [Option.ite_none_right_eq_some, Option.some.injEq] at rejected
        exact ⟨_, _, rejected.2.symm⟩
  | terminal3 call =>
      simp only [HandoffCall.rejected, TerminalCall3.rejected] at rejected
      split at rejected
      · exact ⟨_, _, (Option.some.inj rejected).symm⟩
      · simp only [Option.ite_none_right_eq_some, Option.some.injEq] at rejected
        exact ⟨_, _, rejected.2.symm⟩

theorem HandoffCall.late_eq_fail (call : HandoffCall) :
    ∃ context result, call.late = .fail context result := by
  cases call <;> exact ⟨_, _, rfl⟩

theorem duplicateIncomingHandles_copies (call : ConsoleCall)
    (handles : List (IncomingHandle × HandoffPart)) :
    ∀ action ∈ (call.duplicateIncomingHandles handles).1, action.copies = true := by
  induction handles with
  | nil => simp [ConsoleCall.duplicateIncomingHandles]
  | cons first later hypothesis =>
      rcases first with ⟨handle, part⟩
      simp only [ConsoleCall.duplicateIncomingHandles]
      split
      · simp
      · intro action member
        rcases List.mem_append.mp member with new | old
        · split at new
          · rw [List.mem_singleton.mp new]
            rfl
          · cases new
        · exact hypothesis action old

/-- A part is written if its handle has been duplicated, and is as good as written if not. -/
theorem foldl_copy_part (call : ConsoleCall) (handle : IncomingHandle) (part : HandoffPart)
    {shared : HandoffState} (blank : handle.duplicate = none →
      shared.console.copy call.payload part = shared.console) :
    (if handle.duplicate.isSome then [HandoffAction.copy call.payload part] else []).foldl
        HandoffAction.apply shared =
      { shared with console := shared.console.copy call.payload part } := by
  cases duplicated : handle.duplicate with
  | none => simp [blank duplicated]
  | some value => rfl

theorem duplicateIncomingHandles_cons {call : ConsoleCall} {handle : IncomingHandle}
    {part : HandoffPart} {later : List (IncomingHandle × HandoffPart)}
    (duplicated : (call.duplicateIncomingHandles ((handle, part) :: later)).2 = none) :
    (call.duplicateIncomingHandles later).2 = none ∧
      (call.duplicateIncomingHandles ((handle, part) :: later)).1 =
        (if handle.duplicate.isSome then [.copy call.payload part] else []) ++
          (call.duplicateIncomingHandles later).1 := by
  simp only [ConsoleCall.duplicateIncomingHandles] at duplicated ⊢
  split at duplicated
  · cases duplicated
  · rename_i succeeds
    rw [if_neg succeeds]
    exact ⟨duplicated, rfl⟩

theorem console_written {call : ConsoleCall}
    (duplicated : (call.duplicateIncomingHandles call.incomingHandles).2 = none) :
    (HandoffState.written (.copy call.payload .attach ::
      (call.duplicateIncomingHandles call.incomingHandles).1)).1 = call.payload := by
  rcases duplicateIncomingHandles_cons duplicated with ⟨inputEvent, server⟩
  rcases duplicateIncomingHandles_cons inputEvent with ⟨signalPipe, second⟩
  rcases duplicateIncomingHandles_cons signalPipe with ⟨inboxProcess, third⟩
  rcases duplicateIncomingHandles_cons inboxProcess with ⟨-, fourth⟩
  rw [ConsoleCall.incomingHandles, server, second, third, fourth]
  simp only [HandoffState.written, List.foldl_cons, List.foldl_append]
  rw [foldl_copy_part call call.server .serverHandle,
    foldl_copy_part call call.inputEvent .inputEvent,
    foldl_copy_part call call.signalPipe .signalPipe,
    foldl_copy_part call call.inboxProcess .inboxProcess]
  · rfl
  all_goals
    intro absent
    simp [ComHandoffPayload.copy, ConsoleCall.payload, absent, HandoffAction.apply]

theorem console_establishes (call : ConsoleCall) :
    ∃ writes tail, HandoffCall.Establishes supportsTerminalHandoff (.console call) writes tail := by
  have copies : ∀ action ∈ HandoffAction.copy call.payload .attach ::
      (call.duplicateIncomingHandles call.incomingHandles).1, action.copies = true := by
    intro action member
    rcases List.mem_cons.mp member with rfl | later
    · rfl
    · exact duplicateIncomingHandles_copies call _ action later
  refine ⟨_, _, rfl, copies, ?_⟩
  cases duplicated : (call.duplicateIncomingHandles call.incomingHandles).2 with
  | some result => exact .inl ⟨_, _, rfl⟩
  | none =>
      cases own : call.selfProcess with
      | error error => exact .inl ⟨_, _, rfl⟩
      | ok process =>
          refine .inr ⟨.consoleSucceeded, by simp, by simp, rfl, ?_⟩
          rw [console_written duplicated]
          exact .console

/-- The end of a call of a terminal handoff. -/
theorem terminal_establishes {call : HandoffCall} {arguments : TerminalArguments}
    {input output : IncomingHandle} {context : String}
    (gives : ∀ payload, call.Gives supportsTerminalHandoff .terminalSucceeded payload
      (some (arguments.payload input output)))
    (establish : call.establish = arguments.finish input output context) :
    ∃ writes tail, call.Establishes supportsTerminalHandoff writes tail := by
  simp only [TerminalArguments.finish] at establish
  cases duplicated : arguments.duplicate input output with
  | error result =>
      rw [duplicated] at establish
      exact ⟨[], _, by rw [establish]; rfl, by simp, .inl ⟨_, _, rfl⟩⟩
  | ok payload =>
      have whole : payload = arguments.payload input output := by
        simp only [TerminalArguments.duplicate] at duplicated
        split at duplicated
        · cases duplicated
        · cases duplicated
          rfl
      subst whole
      rw [duplicated] at establish
      refine ⟨[.emplace (arguments.payload input output)], _, by rw [establish]; rfl, ?_, .inr ?_⟩
      · intro action member
        rw [List.mem_singleton.mp member]
        rfl
      · exact ⟨.terminalSucceeded, by simp, by simp, rfl, gives _⟩

theorem exists_establishes {call : HandoffCall}
    (accepted : call.rejected supportsTerminalHandoff = none) :
    ∃ writes tail, call.Establishes supportsTerminalHandoff writes tail := by
  cases call with
  | console call => exact console_establishes call
  | terminal call =>
      have supported : supportsTerminalHandoff = true := by
        rw [← Bool.not_eq_false]
        rintro rfl
        cases accepted
      exact terminal_establishes (fun _ => .terminal supported) rfl
  | terminal3 call =>
      have supported : supportsTerminalHandoff = true := by
        rw [← Bool.not_eq_false]
        rintro rfl
        simp only [HandoffCall.rejected, TerminalCall3.rejected] at accepted
        split at accepted <;> cases accepted
      have fails (context : String) (result : HResult)
          (establish : call.establish = .fail context result) :
          ∃ writes tail, HandoffCall.Establishes supportsTerminalHandoff (.terminal3 call)
            writes tail :=
        ⟨[], _, congrArg HandoffWork.actions establish, by simp, .inl ⟨_, _, rfl⟩⟩
      by_cases input : (TerminalCall3.pipeResult call.inputPipe).failed = true
      · exact fails _ _ (if_pos input)
      · by_cases output : (TerminalCall3.pipeResult call.outputPipe).failed = true
        · exact fails _ _ ((if_neg input).trans (if_pos output))
        · exact terminal_establishes (fun _ => .terminal3 supported)
            ((if_neg input).trans (if_neg output))

namespace HandoffState

/-- No success has been stored. -/
def Unsuccessful (shared : HandoffState) : Prop :=
  ∀ state ∈ shared.stores, state = .failed

/-- A success was stored by the call that came through, with its payload in place. -/
def Known (supportsTerminalHandoff : Bool) (shared : HandoffState) : Prop :=
  ∀ state ∈ shared.stores, state ≠ .failed → ∃ index call,
    shared.establishCalled = some (index, call) ∧
      call.Gives supportsTerminalHandoff state shared.console shared.terminal

/-- What holds of the state at any time. -/
structure Sound (count : Nat) (shared : HandoffState) : Prop where
  within {index : Nat} {call : HandoffCall} (called : shared.establishCalled = some (index, call)) :
    index < count
  present : 0 < count
  untouched : shared.establishCalled = none →
    shared.Unsuccessful ∧ shared.console = {} ∧ shared.terminal = none
  signaled : shared.signaled = true → shared.stores ≠ []
  decided : .pending ∉ shared.stores

end HandoffState

/-- The rest of the work of a call that fails. -/
inductive Failing (shared : HandoffState) : List HandoffAction → Prop
  | hr (result : HResult) (context : String) : Failing shared
      [.setFailureHr result, .setFailureContext context, .store .failed, .signal]
  | context (context : String) :
      Failing shared [.setFailureContext context, .store .failed, .signal]
  | store : Failing shared [.store .failed, .signal]
  | signal (stored : shared.stores ≠ []) : Failing shared [.signal]
  | done : Failing shared []

/-- The rest of the work of a call that has come through. -/
inductive Winning (supportsTerminalHandoff : Bool) (shared : HandoffState) (call : HandoffCall) :
    List HandoffAction → Prop
  | copying {written todo tail : List HandoffAction}
      (establishes : call.Establishes supportsTerminalHandoff (written ++ todo) tail)
      (unsuccessful : shared.Unsuccessful)
      (payload : (shared.console, shared.terminal) = HandoffState.written written) :
      Winning supportsTerminalHandoff shared call (todo ++ tail)
  | failing {actions : List HandoffAction} (unsuccessful : shared.Unsuccessful)
      (failing : Failing shared actions) : Winning supportsTerminalHandoff shared call actions
  | succeeded (stored : shared.stores ≠ []) :
      Winning supportsTerminalHandoff shared call [.signal]
  | done : Winning supportsTerminalHandoff shared call []

/-- What can be said of a result when the state is as it is. -/
def EmbeddingResult.Justified (supportsTerminalHandoff : Bool) (shared : HandoffState) :
    EmbeddingResult → Prop
  | .console payload => ∃ index call,
      shared.establishCalled = some (index, .console call) ∧ payload = call.payload
  | .terminal payload => ∃ index call, shared.establishCalled = some (index, call) ∧
      ∃ console, call.Gives supportsTerminalHandoff .terminalSucceeded console (some payload)
  | .timedOut | .waitFailed _ => True
  | .failure _ _ => .failed ∈ shared.stores
  | .noRunner => False
  | .notSet => .failed ∈ shared.stores ∧ ¬shared.Unsuccessful

/-- What holds at the stages of the server. -/
inductive Serving (supportsTerminalHandoff : Bool) (shared : HandoffState) : ServerStage → Prop
  | waiting (known : shared.Known supportsTerminalHandoff) :
      Serving supportsTerminalHandoff shared .waiting
  | first (known : shared.Known supportsTerminalHandoff) (stored : shared.stores ≠ []) :
      Serving supportsTerminalHandoff shared .first
  | second (known : shared.Known supportsTerminalHandoff) (succeeded : ¬shared.Unsuccessful) :
      Serving supportsTerminalHandoff shared .second
  | third (known : shared.Known supportsTerminalHandoff) (succeeded : ¬shared.Unsuccessful)
      (stored : .terminalSucceeded ∈ shared.stores ∨ .failed ∈ shared.stores) :
      Serving supportsTerminalHandoff shared .third
  | failureHr (failed : .failed ∈ shared.stores) : Serving supportsTerminalHandoff shared .failureHr
  | failureContext {result : HResult} (failed : .failed ∈ shared.stores) :
      Serving supportsTerminalHandoff shared (.failureContext result)
  | reading {copied parts : List HandoffPart} {index : Nat} {call : ConsoleCall}
      (all : copied ++ parts = [.serverHandle, .inputEvent, .signalPipe, .inboxProcess, .attach])
      (known : shared.Known supportsTerminalHandoff) (stored : .consoleSucceeded ∈ shared.stores)
      (called : shared.establishCalled = some (index, .console call)) :
      Serving supportsTerminalHandoff shared
        (.reading parts (copied.foldl (fun payload part => payload.copy call.payload part) {}))
  | moving (known : shared.Known supportsTerminalHandoff)
      (stored : .terminalSucceeded ∈ shared.stores) :
      Serving supportsTerminalHandoff shared .moving
  | returned {result : EmbeddingResult}
      (justified : result.Justified supportsTerminalHandoff shared) :
      Serving supportsTerminalHandoff shared (.returned result)

/-- What holds at the point a thread has come to. -/
def EmbeddingThread.Reached (supportsTerminalHandoff : Bool) (shared : HandoffState) (index : Nat) :
    EmbeddingThread → Prop
  | .server stage => index = 0 ∧ Serving supportsTerminalHandoff shared stage
  | .call _ .entered => True
  | .call _ (.working false actions) => Failing shared actions
  | .call method (.working true actions) => Winning supportsTerminalHandoff shared method actions

/-- The thread that came through `try_begin_establish`, and only this one, is about to work on the
payload. -/
structure EmbeddingThread.Said (supportsTerminalHandoff : Bool) (shared : HandoffState)
    (index : Nat) (thread : EmbeddingThread) : Prop where
  reached : thread.Reached supportsTerminalHandoff shared index
  owns (call : HandoffCall) : shared.establishCalled = some (index, call) ↔
    ∃ actions, thread = .call call (.working true actions)

inductive Effect (supportsTerminalHandoff : Bool) (index : Nat) (shared : HandoffState) :
    HandoffState → Prop
  /-- The payload and the flag stay, and no success is stored. -/
  | harmless {next : HandoffState} (called : next.establishCalled = shared.establishCalled)
      (console : next.console = shared.console) (terminal : next.terminal = shared.terminal)
      (stores : next.stores = shared.stores ∨ next.stores = .failed :: shared.stores) :
      Effect supportsTerminalHandoff index shared next
  | begins {call : HandoffCall} (free : shared.establishCalled = none) :
      Effect supportsTerminalHandoff index shared
        { shared with establishCalled := some (index, call) }
  | writes {next : HandoffState} {call : HandoffCall}
      (own : shared.establishCalled = some (index, call)) (unsuccessful : shared.Unsuccessful)
      (called : next.establishCalled = shared.establishCalled)
        (stores : next.stores = shared.stores) :
      Effect supportsTerminalHandoff index shared next
  | succeeds {call : HandoffCall} {state : EmbeddingCompletionState}
      (own : shared.establishCalled = some (index, call)) (unsuccessful : shared.Unsuccessful)
      (gives : call.Gives supportsTerminalHandoff state shared.console shared.terminal) :
      Effect supportsTerminalHandoff index shared { shared with stores := state :: shared.stores }
  | moves (server : index = 0) (stored : .terminalSucceeded ∈ shared.stores) :
      Effect supportsTerminalHandoff index shared { shared with terminal := none }

namespace Effect

variable {index : Nat} {shared next : HandoffState}

theorem stores_grow (effect : Effect supportsTerminalHandoff index shared next)
    {state : EmbeddingCompletionState} (stored : state ∈ shared.stores) : state ∈ next.stores := by
  cases effect with
  | harmless called console terminal stores =>
      rcases stores with same | more
      · rwa [same]
      · rw [more]
        exact List.mem_cons_of_mem _ stored
  | begins free => exact stored
  | writes own unsuccessful called stores => rwa [stores]
  | succeeds own unsuccessful gives => exact List.mem_cons_of_mem _ stored
  | moves server stored => assumption

theorem stores_ne_nil (effect : Effect supportsTerminalHandoff index shared next)
    (stored : shared.stores ≠ []) : next.stores ≠ [] := by
  rcases List.exists_mem_of_ne_nil _ stored with ⟨state, member⟩
  exact List.ne_nil_of_mem (effect.stores_grow member)

theorem succeeded (effect : Effect supportsTerminalHandoff index shared next)
    (succeeded : ¬shared.Unsuccessful) : ¬next.Unsuccessful := by
  intro unsuccessful
  apply succeeded
  intro state stored
  exact unsuccessful state (effect.stores_grow stored)

theorem called (effect : Effect supportsTerminalHandoff index shared next)
    {value : Nat × HandoffCall}
    (called : shared.establishCalled = some value) : next.establishCalled = some value := by
  cases effect with
  | harmless same => rwa [same]
  | begins free =>
      rw [free] at called
      cases called
  | writes own unsuccessful same => rwa [same]
  | succeeds => exact called
  | moves => exact called

/-- A success stays known, except to the server that has taken the payload. -/
theorem known (effect : Effect supportsTerminalHandoff index shared next) (other : index ≠ 0)
    (known : shared.Known supportsTerminalHandoff) : next.Known supportsTerminalHandoff := by
  intro state stored succeeds
  cases effect with
  | harmless called console terminal stores =>
      rw [called, console, terminal]
      rcases stores with same | more
      · rw [same] at stored
        exact known state stored succeeds
      · rw [more] at stored
        rcases List.mem_cons.mp stored with rfl | old
        · exact absurd rfl succeeds
        · exact known state old succeeds
  | begins free =>
      rcases known state stored succeeds with ⟨index, call, called, -⟩
      rw [free] at called
      cases called
  | writes own unsuccessful called stores =>
      rw [stores] at stored
      exact absurd (unsuccessful state stored) succeeds
  | succeeds own unsuccessful gives =>
      rcases List.mem_cons.mp stored with rfl | old
      · exact ⟨_, _, own, gives⟩
      · exact absurd (unsuccessful state old) succeeds
  | moves server => exact absurd server other

theorem unsuccessful_of_called {call : HandoffCall} {other : Nat}
    (effect : Effect supportsTerminalHandoff index shared next) (apart : index ≠ other)
    (called : shared.establishCalled = some (other, call)) (unsuccessful : shared.Unsuccessful) :
    next.Unsuccessful ∧ next.console = shared.console ∧ next.terminal = shared.terminal := by
  cases effect with
  | harmless same console terminal stores =>
      refine ⟨?_, console, terminal⟩
      intro state stored
      rcases stores with same | more
      · rw [same] at stored
        exact unsuccessful state stored
      · rw [more] at stored
        rcases List.mem_cons.mp stored with rfl | old
        · rfl
        · exact unsuccessful state old
  | begins free =>
      rw [free] at called
      cases called
  | writes own | succeeds own =>
      rw [own] at called
      cases called
      exact absurd rfl apart
  | moves server stored => cases unsuccessful _ stored

theorem sound {count : Nat} (effect : Effect supportsTerminalHandoff index shared next)
    (sound : shared.Sound count) (within : index < count)
    (signaled : next.signaled = true → next.stores ≠ []) : next.Sound count := by
  refine ⟨?_, sound.present, ?_, signaled, ?_⟩
  · intro other call called
    cases effect with
    | harmless same | writes _ _ same =>
        rw [same] at called
        exact sound.within called
    | begins free =>
        cases called
        exact within
    | succeeds | moves => exact sound.within called
  · intro free
    cases effect with
    | harmless same console terminal stores =>
        rw [same] at free
        rcases sound.untouched free with ⟨unsuccessful, blank, absent⟩
        refine ⟨?_, console.trans blank, terminal.trans absent⟩
        intro state stored
        rcases stores with same | more
        · rw [same] at stored
          exact unsuccessful state stored
        · rw [more] at stored
          rcases List.mem_cons.mp stored with rfl | old
          · rfl
          · exact unsuccessful state old
    | begins => cases free
    | writes own unsuccessful same =>
        rw [same, own] at free
        cases free
    | succeeds own =>
        rw [show _ = _ from free] at own
        cases own
    | moves server stored => cases (sound.untouched free).1 _ stored
  · cases effect with
    | harmless called console terminal stores =>
        rcases stores with same | more
        · rw [same]
          exact sound.decided
        · rw [more]
          simpa using sound.decided
    | begins | moves => exact sound.decided
    | writes own unsuccessful called stores =>
        rw [stores]
        exact sound.decided
    | succeeds own unsuccessful gives =>
        rw [List.mem_cons, not_or]
        exact ⟨gives.ne_pending.symm, sound.decided⟩

/-- A call that fails goes on as it would have. -/
theorem failing (effect : Effect supportsTerminalHandoff index shared next)
    {actions : List HandoffAction} (failing : Failing shared actions) : Failing next actions := by
  cases failing with
  | hr result context => exact .hr result context
  | context context => exact .context context
  | store => exact .store
  | signal stored => exact .signal (effect.stores_ne_nil stored)
  | done => exact .done

theorem winning {other : Nat} {call : HandoffCall} {actions : List HandoffAction}
    (effect : Effect supportsTerminalHandoff index shared next) (apart : index ≠ other)
    (called : shared.establishCalled = some (other, call))
    (winning : Winning supportsTerminalHandoff shared call actions) :
    Winning supportsTerminalHandoff next call actions := by
  cases winning with
  | copying establishes unsuccessful payload =>
      rcases effect.unsuccessful_of_called apart called unsuccessful with ⟨still, console, terminal⟩
      exact .copying establishes still (by rw [console, terminal, payload])
  | failing unsuccessful failing =>
      exact .failing (effect.unsuccessful_of_called apart called unsuccessful).1
        (effect.failing failing)
  | succeeded stored => exact .succeeded (effect.stores_ne_nil stored)
  | done => exact .done

theorem justified (effect : Effect supportsTerminalHandoff index shared next)
    {result : EmbeddingResult} (justified : result.Justified supportsTerminalHandoff shared) :
    result.Justified supportsTerminalHandoff next := by
  cases result with
  | console payload =>
      rcases justified with ⟨index, call, called, same⟩
      exact ⟨index, call, effect.called called, same⟩
  | terminal payload =>
      rcases justified with ⟨index, call, called, gives⟩
      exact ⟨index, call, effect.called called, gives⟩
  | timedOut | waitFailed error => trivial
  | failure result context => exact effect.stores_grow justified
  | noRunner => exact justified
  | notSet => exact ⟨effect.stores_grow justified.1, effect.succeeded justified.2⟩

theorem serving (effect : Effect supportsTerminalHandoff index shared next) (other : index ≠ 0)
    {stage : ServerStage} (serving : Serving supportsTerminalHandoff shared stage) :
    Serving supportsTerminalHandoff next stage := by
  cases serving with
  | waiting known => exact .waiting (effect.known other known)
  | first known stored => exact .first (effect.known other known) (effect.stores_ne_nil stored)
  | second known succeeded =>
      exact .second (effect.known other known) (effect.succeeded succeeded)
  | third known succeeded stored =>
      exact .third (effect.known other known) (effect.succeeded succeeded)
        (stored.imp effect.stores_grow effect.stores_grow)
  | failureHr failed => exact .failureHr (effect.stores_grow failed)
  | failureContext failed => exact .failureContext (effect.stores_grow failed)
  | reading all known stored called =>
      exact .reading all (effect.known other known) (effect.stores_grow stored)
        (effect.called called)
  | moving known stored => exact .moving (effect.known other known) (effect.stores_grow stored)
  | returned justified => exact .returned (effect.justified justified)

/-- No thread breaks what is said of another one. -/
theorem said {other : Nat} {thread : EmbeddingThread}
    (effect : Effect supportsTerminalHandoff index shared next) (apart : index ≠ other)
    (said : thread.Said supportsTerminalHandoff shared other) :
    thread.Said supportsTerminalHandoff next other := by
  have owns : ∀ call, next.establishCalled = some (other, call) ↔
      shared.establishCalled = some (other, call) := by
    intro call
    cases effect with
    | harmless same | writes _ _ same => rw [same]
    | begins free => simp [free, apart]
    | succeeds | moves => rfl
  refine ⟨?_, fun call => (owns call).trans (said.owns call)⟩
  have reached := said.reached
  cases thread with
  | server stage =>
      rcases reached with ⟨rfl, serving⟩
      exact ⟨rfl, effect.serving apart serving⟩
  | call method stage =>
      cases stage with
      | entered => trivial
      | working won actions =>
          cases won with
          | false => exact effect.failing reached
          | true =>
              have called := (said.owns method).mpr ⟨actions, rfl⟩
              exact effect.winning apart called reached

end Effect

namespace HandoffState

variable {shared : HandoffState} {count : Nat}

theorem state_mem (stored : shared.stores ≠ []) : shared.state ∈ shared.stores := by
  cases same : shared.stores with
  | nil => exact absurd same stored
  | cons state earlier => simp [HandoffState.state, same]

theorem not_unsuccessful {state : EmbeddingCompletionState} (stored : state ∈ shared.stores)
    (succeeds : state ≠ .failed) : ¬shared.Unsuccessful :=
  fun unsuccessful => succeeds (unsuccessful state stored)

theorem stores_ne_nil (succeeded : ¬shared.Unsuccessful) : shared.stores ≠ [] := by
  intro empty
  apply succeeded
  intro state stored
  rw [empty] at stored
  cases stored

/-- The kind of a success that is known is the one of the call that came through. -/
theorem Known.not_both (known : shared.Known supportsTerminalHandoff)
    (console : .consoleSucceeded ∈ shared.stores) : .terminalSucceeded ∉ shared.stores := by
  intro terminal
  rcases known _ console (by simp) with ⟨index, call, called, gives⟩
  rcases known _ terminal (by simp) with ⟨other, same, called', gives'⟩
  rw [called, Option.some.injEq, Prod.mk.injEq] at called'
  rcases called' with ⟨-, rfl⟩
  rcases gives.of_console rfl with ⟨method, rfl, -⟩
  exact (gives'.of_terminal rfl).2.1 method rfl

end HandoffState

theorem ServerStage.act_said {shared next : HandoffState} {count : Nat} {wait : WaitResult}
    {stage after : ServerStage} (sound : shared.Sound count)
    (serving : Serving supportsTerminalHandoff shared stage)
    (acts : stage.act supportsTerminalHandoff wait shared = some (next, after)) :
    Effect supportsTerminalHandoff 0 shared next ∧ next.signaled = shared.signaled ∧
      next.establishCalled = shared.establishCalled ∧
      Serving supportsTerminalHandoff next after := by
  have idle : Effect supportsTerminalHandoff 0 shared shared := .harmless rfl rfl rfl (.inl rfl)
  cases serving with
  | waiting known =>
      cases wait with
      | signaled =>
          simp only [ServerStage.act, Option.ite_none_right_eq_some] at acts
          rcases acts with ⟨signaled, same⟩
          cases same
          exact ⟨idle, rfl, rfl, .first known (sound.signaled signaled)⟩
      | timeout =>
          cases acts
          exact ⟨idle, rfl, rfl, .returned trivial⟩
      | failed error =>
          cases acts
          exact ⟨idle, rfl, rfl, .returned trivial⟩
  | first known stored =>
      simp only [ServerStage.act, Option.some.injEq, Prod.mk.injEq] at acts
      rcases acts with ⟨rfl, rfl⟩
      have head := HandoffState.state_mem stored
      refine ⟨idle, rfl, rfl, ?_⟩
      split
      · rename_i failed
        rw [failed] at head
        exact .failureHr head
      · rename_i succeeds
        exact .second known (HandoffState.not_unsuccessful head succeeds)
  | second known succeeded =>
      simp only [ServerStage.act, Option.some.injEq, Prod.mk.injEq] at acts
      rcases acts with ⟨rfl, rfl⟩
      have head := HandoffState.state_mem (HandoffState.stores_ne_nil succeeded)
      refine ⟨idle, rfl, rfl, ?_⟩
      split
      · rename_i console
        rw [console] at head
        rcases known _ head (by simp) with ⟨index, call, called, gives⟩
        rcases gives.of_console rfl with ⟨method, rfl, -⟩
        exact .reading (rfl : [] ++ _ = _) known head called
      · rename_i other
        apply Serving.third known succeeded
        cases state : shared.state with
        | pending => exact absurd (state ▸ head) sound.decided
        | consoleSucceeded => exact absurd state other
        | terminalSucceeded => exact .inl (state ▸ head)
        | failed => exact .inr (state ▸ head)
  | third known succeeded stored =>
      simp only [ServerStage.act, Option.some.injEq, Prod.mk.injEq] at acts
      rcases acts with ⟨rfl, rfl⟩
      have head := HandoffState.state_mem (HandoffState.stores_ne_nil succeeded)
      refine ⟨idle, rfl, rfl, ?_⟩
      split
      · rename_i terminal
        rw [terminal] at head
        rcases known _ head (by simp) with ⟨index, call, called, gives⟩
        rw [if_pos (gives.of_terminal rfl).1]
        exact .moving known head
      · rename_i other
        apply Serving.returned
        refine ⟨?_, succeeded⟩
        rcases stored with terminal | failed
        · cases state : shared.state with
          | pending => exact absurd (state ▸ head) sound.decided
          | consoleSucceeded => exact absurd terminal (known.not_both (state ▸ head))
          | terminalSucceeded => exact absurd state other
          | failed => exact state ▸ head
        · exact failed
  | failureHr failed =>
      cases acts
      exact ⟨idle, rfl, rfl, .failureContext failed⟩
  | failureContext failed =>
      cases acts
      exact ⟨idle, rfl, rfl, .returned failed⟩
  | @reading copied parts index call all known stored called =>
      rcases known _ stored (by simp) with ⟨_, _, same, gives⟩
      rw [called, Option.some.injEq, Prod.mk.injEq] at same
      rcases same with ⟨-, rfl⟩
      rcases gives.of_console rfl with ⟨method, same, console⟩
      cases same
      cases parts with
      | nil =>
          cases acts
          refine ⟨idle, rfl, rfl, .returned ⟨index, call, called, ?_⟩⟩
          rw [List.append_nil] at all
          rw [all]
          rfl
      | cons part parts =>
          cases acts
          refine ⟨idle, rfl, rfl, ?_⟩
          have more : copied ++ [part] ++ parts = _ := (List.append_assoc _ _ _).trans all
          have reads := Serving.reading more known stored called
          rw [List.foldl_append, List.foldl_cons, List.foldl_nil] at reads
          rw [console]
          exact reads
  | moving known stored =>
      cases acts
      rcases known _ stored (by simp) with ⟨index, call, called, gives⟩
      rcases (gives.of_terminal rfl).2.2 with ⟨payload, present⟩
      refine ⟨.moves rfl stored, rfl, rfl, .returned ⟨index, call, called, shared.console, ?_⟩⟩
      rw [present] at gives ⊢
      exact gives
  | returned justified => cases acts

namespace CallStage

variable {shared next : HandoffState} {count index : Nat} {call : HandoffCall}
  {actions : List HandoffAction} {after : CallStage}

/-- A write of a call that fails. -/
theorem act_failing {won : Bool} (sound : shared.Sound count) (failing : Failing shared actions)
    (acts : CallStage.act supportsTerminalHandoff index call shared (.working won actions) =
      some (next, after)) :
    Effect supportsTerminalHandoff index shared next ∧
      (next.signaled = true → next.stores ≠ []) ∧ next.establishCalled = shared.establishCalled ∧
      ∃ rest, after = .working won rest ∧ Failing next rest ∧
        (shared.Unsuccessful → next.Unsuccessful) := by
  cases failing with
  | hr result context =>
      cases acts
      exact ⟨.harmless rfl rfl rfl (.inl rfl), sound.signaled, rfl, _, rfl, .context context, id⟩
  | context context =>
      cases acts
      exact ⟨.harmless rfl rfl rfl (.inl rfl), sound.signaled, rfl, _, rfl, .store, id⟩
  | store =>
      cases acts
      refine ⟨.harmless rfl rfl rfl (.inr rfl), by simp [HandoffAction.apply], rfl, _, rfl,
        .signal (by simp [HandoffAction.apply]), ?_⟩
      intro unsuccessful state stored
      rcases List.mem_cons.mp stored with rfl | old
      · rfl
      · exact unsuccessful state old
  | signal stored =>
      cases acts
      exact ⟨.harmless rfl rfl rfl (.inl rfl), fun _ => stored, rfl, _, rfl, .done, id⟩
  | done => cases acts

/-- A write of the call that has come through. -/
theorem act_winning (sound : shared.Sound count)
    (own : shared.establishCalled = some (index, call))
    (winning : Winning supportsTerminalHandoff shared call actions)
    (acts : CallStage.act supportsTerminalHandoff index call shared (.working true actions) =
      some (next, after)) :
    Effect supportsTerminalHandoff index shared next ∧
      (next.signaled = true → next.stores ≠ []) ∧ next.establishCalled = shared.establishCalled ∧
      ∃ rest, after = .working true rest ∧ Winning supportsTerminalHandoff next call rest := by
  cases winning with
  | @copying written todo tail establishes unsuccessful payload =>
      cases todo with
      | cons action todo =>
          have copies : action.copies = true := establishes.copies action (by simp)
          rcases HandoffAction.apply_copies copies shared with ⟨called, stores, signaled, -⟩
          cases acts
          refine ⟨.writes own unsuccessful called stores, ?_, called, _, rfl, ?_⟩
          · rw [signaled, stores]
            exact sound.signaled
          · rw [List.append_cons] at establishes
            refine .copying establishes ?_ ?_
            · intro state stored
              rw [stores] at stored
              exact unsuccessful state stored
            · exact HandoffState.written_append copies payload
      | nil =>
          rw [List.append_nil] at establishes
          rcases establishes.tail with ⟨context, result, rfl⟩ | ⟨state, succeeds, -, rfl, gives⟩
          · rcases act_failing sound (.hr result context) acts with
              ⟨effect, signaled, called, rest, rfl, fails, still⟩
            exact ⟨effect, signaled, called, rest, rfl, .failing (still unsuccessful) fails⟩
          · cases acts
            rw [← payload] at gives
            refine ⟨.succeeds own unsuccessful gives, ?_, rfl, _, rfl, .succeeded ?_⟩
            · simp [HandoffAction.apply]
            · simp [HandoffAction.apply]
  | failing unsuccessful failing =>
      rcases act_failing sound failing acts with ⟨effect, signaled, called, rest, rfl, fails, still⟩
      exact ⟨effect, signaled, called, rest, rfl, .failing (still unsuccessful) fails⟩
  | succeeded stored =>
      cases acts
      exact ⟨.harmless rfl rfl rfl (.inl rfl), fun _ => stored, rfl, _, rfl, .done⟩
  | done => cases acts

end CallStage

namespace EmbeddingThread

variable {shared next : HandoffState} {count index : Nat} {wait : WaitResult}
  {thread after : EmbeddingThread}

/-- A call that is about to begin comes through, or it fails. -/
theorem act_entered {method : HandoffCall} (sound : shared.Sound count)
    (said : (EmbeddingThread.call method .entered).Said supportsTerminalHandoff shared index)
    (acts : (EmbeddingThread.call method .entered).act supportsTerminalHandoff wait index shared =
      some (next, after)) :
    Effect supportsTerminalHandoff index shared next ∧ (next.signaled = true → next.stores ≠ []) ∧
      after.Said supportsTerminalHandoff next index := by
  have idle : Effect supportsTerminalHandoff index shared shared := .harmless rfl rfl rfl (.inl rfl)
  have foreign : ∀ call, shared.establishCalled ≠ some (index, call) := by
    intro call called
    rcases (said.owns call).mp called with ⟨actions, same⟩
    cases same
  simp only [EmbeddingThread.act, CallStage.act] at acts
  split at acts
  · rename_i work rejected
    rcases method.rejected_eq_fail rejected with ⟨context, result, rfl⟩
    cases acts
    refine ⟨idle, sound.signaled, .hr result context, ?_⟩
    intro call
    simp [foreign call]
  · rename_i accepted
    split at acts
    · rename_i value called
      rcases method.late_eq_fail with ⟨context, result, same⟩
      cases acts
      refine ⟨idle, sound.signaled, ?_, ?_⟩
      · rw [same]
        exact .hr result context
      · intro call
        simp [foreign call]
    · rename_i free
      rcases sound.untouched free with ⟨unsuccessful, blank, absent⟩
      rcases exists_establishes accepted with ⟨writes, tail, establishes⟩
      cases acts
      refine ⟨.begins free, sound.signaled, ?_, ?_⟩
      · have whole : method.Establishes supportsTerminalHandoff ([] ++ writes) tail := establishes
        have payload : (shared.console, shared.terminal) = HandoffState.written [] := by
          rw [blank, absent]
          rfl
        have begun : Winning supportsTerminalHandoff
            { shared with establishCalled := some (index, method) } method (writes ++ tail) :=
          .copying whole unsuccessful payload
        rwa [← establishes.actions] at begun
      · intro call
        simp [eq_comm]

/-- What is said of a thread holds at its next point. -/
theorem act_said (sound : shared.Sound count)
    (said : thread.Said supportsTerminalHandoff shared index)
    (acts : thread.act supportsTerminalHandoff wait index shared = some (next, after)) :
    Effect supportsTerminalHandoff index shared next ∧ (next.signaled = true → next.stores ≠ []) ∧
      after.Said supportsTerminalHandoff next index := by
  have reached := said.reached
  cases thread with
  | server stage =>
      simp only [EmbeddingThread.act, Option.map_eq_some_iff, Prod.mk.injEq] at acts
      rcases acts with ⟨⟨state, last⟩, acts, rfl, rfl⟩
      rcases reached with ⟨rfl, serving⟩
      rcases ServerStage.act_said sound serving acts with ⟨effect, signaled, called, serving⟩
      refine ⟨effect, ?_, ⟨rfl, serving⟩, ?_⟩
      · rw [signaled]
        exact fun set => effect.stores_ne_nil (sound.signaled set)
      · intro call
        rw [called, said.owns call]
        simp
  | call method stage =>
      cases stage with
      | entered => exact act_entered sound said acts
      | working won actions =>
          simp only [EmbeddingThread.act, Option.map_eq_some_iff, Prod.mk.injEq] at acts
          rcases acts with ⟨⟨state, last⟩, acts, rfl, rfl⟩
          cases won with
          | false =>
              rcases CallStage.act_failing sound reached acts with
                ⟨effect, signaled, called, rest, rfl, failing, -⟩
              refine ⟨effect, signaled, failing, ?_⟩
              intro call
              rw [called, said.owns call]
              simp
          | true =>
              have own := (said.owns method).mpr ⟨actions, rfl⟩
              rcases CallStage.act_winning sound own reached acts with
                ⟨effect, signaled, called, rest, rfl, winning⟩
              refine ⟨effect, signaled, winning, ?_⟩
              intro call
              rw [called, said.owns call]
              simp

theorem join_said {new : EmbeddingThread} (sound : shared.Sound count)
    (fresh : new.joins = true) :
    shared.Sound (count + 1) ∧ new.Said supportsTerminalHandoff shared count := by
  refine ⟨⟨fun called => Nat.lt_succ_of_lt (sound.within called), Nat.succ_pos count,
    sound.untouched, sound.signaled, sound.decided⟩, ?_⟩
  cases new with
  | server stage => cases fresh
  | call method stage =>
      cases stage with
      | working won actions => cases fresh
      | entered =>
          refine ⟨trivial, ?_⟩
          intro call
          constructor
          · intro called
            exact absurd (sound.within called) (Nat.lt_irrefl count)
          · rintro ⟨actions, same⟩
            cases same

theorem keeps_said (sound : shared.Sound count) (within : index < count)
    (said : thread.Said supportsTerminalHandoff shared index)
    (acts : thread.act supportsTerminalHandoff wait index shared = some (next, after)) :
    next.Sound count ∧ after.Said supportsTerminalHandoff next index := by
  rcases act_said sound said acts with ⟨effect, signaled, said⟩
  exact ⟨effect.sound sound within signaled, said⟩

theorem spares_said {other : Nat} {bystander : EmbeddingThread} (sound : shared.Sound count)
    (own : thread.Said supportsTerminalHandoff shared index) (apart : index ≠ other)
    (said : bystander.Said supportsTerminalHandoff shared other)
    (acts : thread.act supportsTerminalHandoff wait index shared = some (next, after)) :
    bystander.Said supportsTerminalHandoff next other :=
  (act_said sound own acts).1.said apart said

/-- The proof outline of the server and the calls. -/
def outline (supportsTerminalHandoff : Bool) :
    Threads.Outline (EmbeddingThread.act supportsTerminalHandoff) EmbeddingThread.joins where
  shared count state := state.Sound count
  thread state index thread := thread.Said supportsTerminalHandoff state index
  join := join_said
  keeps := keeps_said
  spares := spares_said

theorem outline_initial : (outline supportsTerminalHandoff).Holds initial := by
  constructor
  · exact ⟨by simp [initial], by simp [initial], by simp [initial, HandoffState.Unsuccessful],
      by simp [initial], by simp [initial]⟩
  · intro index thread present
    simp only [initial, List.getElem?_singleton, Option.ite_none_right_eq_some,
      Option.some.injEq] at present
    rcases present with ⟨rfl, rfl⟩
    refine ⟨⟨rfl, .waiting ?_⟩, ?_⟩
    · intro state stored
      cases stored
    · simp [initial]

/-- A call has come through `try_begin_establish` on the thread with an index. -/
def CameThrough (system : Threads HandoffState EmbeddingThread) (index : Nat)
    (call : HandoffCall) : Prop :=
  ∃ rest, system.threads[index]? = some (.call call (.working true rest))

/-- The server has returned, or it has called a runner. -/
def Returned (system : Threads HandoffState EmbeddingThread) (result : EmbeddingResult) : Prop :=
  ∃ index : Nat, system.threads[index]? = some (.server (.returned result))

theorem came_through {system : Threads HandoffState EmbeddingThread}
    (holds : (outline supportsTerminalHandoff).Holds system) {call : HandoffCall} :
    CameThrough system index call ↔ system.shared.establishCalled = some (index, call) := by
  constructor
  · rintro ⟨rest, present⟩
    exact ((holds.thread present).owns call).mpr ⟨rest, rfl⟩
  · intro called
    have within : index < system.threads.length := holds.shared.within called
    have present : system.threads[index]? = some system.threads[index] :=
      List.getElem?_eq_getElem within
    rcases ((holds.thread present).owns call).mp called with ⟨rest, same⟩
    rw [same] at present
    exact ⟨rest, present⟩

/-- In every interleaving of the server and any number of calls, at most one call comes through. A
runner is only called with the complete payload of that call, a success is never taken for one that
no runner was meant for, and a success can only get lost to a call that fails. -/
theorem run_hands_over (supportsTerminalHandoff : Bool)
    {system : Threads HandoffState EmbeddingThread}
    (run : Run (fun system => system.step (EmbeddingThread.act supportsTerminalHandoff)
      EmbeddingThread.joins) (fun _ _ => True) initial system) :
    (∀ first second call other, CameThrough system first call → CameThrough system second other →
      first = second) ∧
    ∀ result, Returned system result →
      match result with
      | .console payload => ∃ winner call, CameThrough system winner (.console call) ∧
          payload = call.payload
      | .terminal payload => ∃ winner call console, CameThrough system winner call ∧
          call.Gives supportsTerminalHandoff .terminalSucceeded console (some payload)
      | .failure _ _ => .failed ∈ system.shared.stores
      | .notSet => .failed ∈ system.shared.stores ∧ ¬system.shared.Unsuccessful
      | .noRunner => False
      | .timedOut | .waitFailed _ => True := by
  have holds : (outline supportsTerminalHandoff).Holds system := outline_initial.run run
  constructor
  · intro first second call other winner rival
    rw [came_through holds] at winner rival
    rw [winner, Option.some.injEq, Prod.mk.injEq] at rival
    exact rival.1
  · rintro result ⟨index, present⟩
    rcases (holds.thread present).reached.2 with ⟨_⟩
    rename_i justified
    cases result with
    | console payload =>
        rcases justified with ⟨winner, call, called, same⟩
        exact ⟨winner, call, (came_through holds).mpr called, same⟩
    | terminal payload =>
        rcases justified with ⟨winner, call, called, console, gives⟩
        exact ⟨winner, call, console, (came_through holds).mpr called, gives⟩
    | failure result context => exact justified
    | notSet => exact justified
    | noRunner => exact justified
    | timedOut | waitFailed error => trivial

/-- A handoff with a server handle, while a second call comes too late. -/
theorem run_hands_over_console :
    ∃ system, Run (fun system => Threads.step (EmbeddingThread.act false) joins system)
        (fun _ _ => True) initial system ∧
      ∃ payload, Returned system (.console payload) ∧
        ∃ winner call, CameThrough system winner (.console call) ∧ payload = call.payload := by
  let method : HandoffCall := .console { server := some (.ok 7) }
  let payload : ComHandoffPayload := { serverHandle := some 7 }
  let shared : HandoffState :=
    { establishCalled := some (1, method)
      stores := [.consoleSucceeded]
      signaled := true
      console := payload }
  -- the first call comes through, the second is too late, and the server finds the payload
  let at' (stage : ServerStage) (late : CallStage) : Threads HandoffState EmbeddingThread :=
    ⟨shared, [.server stage, .call method (.working true []), .call method late]⟩
  let work (index count : Nat) : List (ThreadEvent EmbeddingThread WaitResult) :=
    List.replicate count (.act index .signaled)
  let step (system : Threads HandoffState EmbeddingThread) :=
    Threads.step (EmbeddingThread.act false) joins system
  have established : Run.after step initial
      ([.join (.call method .entered), .join (.call method .entered)] ++ work 1 5) =
        some (at' .waiting .entered) := rfl
  have late : Run.after step (at' .waiting .entered) (work 2 1) =
      some (at' .waiting (.working false method.late.actions)) := rfl
  have found : Run.after step (at' .waiting (.working false method.late.actions)) (work 0 4) =
      some (at' (.reading [.inputEvent, .signalPipe, .inboxProcess, .attach] payload)
        (.working false method.late.actions)) := rfl
  have served : Run.after step
      (at' (.reading [.inputEvent, .signalPipe, .inboxProcess, .attach] payload)
        (.working false method.late.actions)) (work 0 5) =
      some (at' (.returned (.console payload)) (.working false method.late.actions)) := rfl
  have run := (((Run.refl.extend established).extend late).extend found).extend served
  have returned : Returned (at' (.returned (.console payload))
      (.working false method.late.actions)) (.console payload) := ⟨0, rfl⟩
  exact ⟨_, run, payload, returned, (run_hands_over false run).2 _ returned⟩

end EmbeddingThread

end Conhost
