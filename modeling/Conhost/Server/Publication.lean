import Conhost.Server.Loop
import Conhost.Server.Painting

/-!
# The publication of snapshots

The loop hands a snapshot to the window at three points, and only if the active
screen buffer is another one than at the last time or its counter has moved.
What was published last is a snapshot of a buffer as it was then. It still
describes the buffer if the counter has not moved, and the point right before
`read_io` makes sure of the active one.
-/

namespace Conhost

/-- What `maybe_publish_snapshot` keeps. A screen buffer is known by its place; `paints` is set if
there is a window to paint. -/
structure Publisher where
  paints : Bool
  latest : Option ScreenBufferSnapshot := none
  lastBuffer : Option Nat := none
  lastRevision : Nat := 0

namespace Publisher

/-- `maybe_publish_snapshot` -/
def maybePublish (publisher : Publisher) (server : ServerState) : Publisher :=
  if publisher.paints then
    match server.activeScreenBuffer, server.activeBuffer with
    | some index, some buffer =>
        if publisher.lastBuffer = some index ∧ buffer.revision = publisher.lastRevision then
          publisher
        else
          match buffer.makeViewportSnapshot with
          | none => publisher
          | some snapshot =>
              { publisher with
                latest := some snapshot
                lastBuffer := some index
                lastRevision := buffer.revision }
    | _, _ => publisher
  else publisher

/-- What was published last describes its buffer, unless that has changed since. -/
def Follows (publisher : Publisher) (server : ServerState) : Prop :=
  ∀ index, publisher.lastBuffer = some index →
    ∃ buffer snapshot, server.screenBuffer index = some buffer ∧
      publisher.latest = some snapshot ∧ publisher.lastRevision ≤ buffer.revision ∧
      (buffer.revision = publisher.lastRevision → snapshot.Describes buffer)

/-- What was published last describes the active screen buffer. -/
def Shows (publisher : Publisher) (server : ServerState) : Prop :=
  ∃ buffer snapshot, server.activeBuffer = some buffer ∧ publisher.latest = some snapshot ∧
    snapshot.Describes buffer

variable {publisher : Publisher} {before after server : ServerState}

theorem Follows.paints (follows : publisher.Follows before) (paints : before.Paints after) :
    publisher.Follows after := by
  intro index last
  obtain ⟨buffer, snapshot, present, latest, bound, describes⟩ := follows index last
  obtain ⟨next, shown, redrawn⟩ := paints.counts present
  have counted := redrawn.counts.le
  refine ⟨next, snapshot, shown, latest, by omega, ?_⟩
  intro still
  have unmoved : next.revision = buffer.revision := by omega
  exact (describes (by omega)).of_same unmoved (redrawn.counts.same unmoved)

/-- A publication, or a reason why none is needed. -/
theorem maybePublish_shows (follows : publisher.Follows server) (sound : server.Sound)
    (window : publisher.paints = true) :
    (publisher.maybePublish server).Follows server ∧
      (publisher.maybePublish server).Shows server := by
  obtain ⟨buffer, active⟩ := sound.active
  obtain ⟨index, place, present⟩ := Option.bind_eq_some_iff.mp active
  obtain ⟨snapshot, made, describes⟩ := (sound.valid index buffer present).makeViewportSnapshot
  simp only [maybePublish, window, if_true, place, active]
  split
  · rename_i unchanged
    refine ⟨follows, ?_⟩
    obtain ⟨last, published, there, latest, -, still⟩ := follows index unchanged.1
    cases present.symm.trans there
    exact ⟨buffer, published, active, latest, still unchanged.2⟩
  · simp only [made]
    refine ⟨?_, buffer, snapshot, active, rfl, describes⟩
    rintro other ⟨⟩
    exact ⟨buffer, snapshot, present, rfl, Nat.le_refl _, fun _ => describes⟩

@[simp]
theorem maybePublish_paints (publisher : Publisher) (server : ServerState) :
    (publisher.maybePublish server).paints = publisher.paints := by
  simp only [maybePublish]
  repeat' split
  all_goals rfl

end Publisher

/-- The loop is about to call `read_io`, or is in it. -/
def Phase.Blocks : Phase → Prop
  | .ready | .reading => True
  | _ => False

namespace LoopState

/-- The publish points: after a packet that was answered, and before `read_io`. -/
def publishes (before after : LoopState) : Bool :=
  match before.phase, after.phase with
  | .start _, .check | .reading, .check => after.completion.isSome
  | .check, .ready | .service _, .ready => true
  | _, _ => false

variable {state next : LoopState}

theorem settle_paints {message : Message} {circumstances : Circumstances}
    {result : LoopState × Settled} (settles : state.settle message circumstances = some result) :
    state.console.server.Paints result.1.console.server := by
  rw [settle] at settles
  split at settles
  · cases settles
  · cases settles
    exact .same rfl rfl
  · rename_i console dispatched
    cases settles
    exact dispatchMessage_paints _ dispatched
  · rename_i console reply requestExit dispatched
    have painted := dispatchMessage_paints _ dispatched
    simp only [stage, Option.some.injEq] at settles
    subst settles
    split_ifs <;> exact painted

theorem settle_ended {message : Message} {circumstances : Circumstances} {ended : LoopState}
    (settles : state.settle message circumstances = some (ended, .ended)) :
    ended.phase = .failed ∨ ended.phase = .asserted := by
  rw [settle] at settles
  split at settles
  · cases settles
  · cases settles
    exact .inl rfl
  · cases settles
  · simp only [stage, Option.some.injEq] at settles
    split_ifs at settles
    · cases settles
      exact .inr rfl
    · cases settles
      exact .inl rfl
    · cases settles

theorem afterPacket_server (result : LoopState × Settled) :
    (afterPacket result).console.server = result.1.console.server := by
  obtain ⟨state, settled⟩ := result
  cases settled <;> rfl

theorem afterRetry_server (left : Nat) (result : LoopState × Settled) :
    (afterRetry left result).console.server = result.1.console.server := by
  obtain ⟨state, settled⟩ := result
  cases settled <;> rfl

/-- The screens after a step of the loop. -/
theorem step_paints {action : Action} (steps : state.step action = some next) :
    state.console.server.Paints next.console.server := by
  cases step_cases steps with
  | initialPacket phase settles | packet phase settles =>
      rw [afterPacket_server]
      have painted := settle_paints settles
      exact painted
  | retry phase waiting settles =>
      rw [afterRetry_server]
      have painted := settle_paints settles
      exact painted
  | check phase =>
      simp only [checkStep]
      split_ifs <;> exact .same rfl rfl
  | arrive | hostCloses | requestStop | begin | stalled | read | shutdown | pipeNotConnected
  | cancelled | readFailed => exact .same rfl rfl

theorem not_blocks_afterPacket {message : Message} {circumstances : Circumstances}
    {result : LoopState × Settled} (settles : state.settle message circumstances = some result) :
    ¬(afterPacket result).phase.Blocks := by
  obtain ⟨settled, outcome⟩ := result
  cases outcome with
  | queued | staged => exact id
  | ended =>
      intro blocks
      change settled.phase.Blocks at blocks
      rcases settle_ended settles with phase | phase
      · rw [phase] at blocks
        exact blocks
      · rw [phase] at blocks
        exact blocks

/-- The loop comes to `read_io` past a publish point, and nothing changes while it is there. -/
theorem step_blocks {action : Action} (steps : state.step action = some next)
    (blocks : next.phase.Blocks) :
    state.publishes next = true ∨
      state.publishes next = false ∧ state.phase.Blocks ∧
        next.console.server = state.console.server := by
  have waiting : state.phase.Blocks → state.publishes next = false := by
    intro there
    cases phase : state.phase <;> rw [phase] at there <;> first | exact there.elim | skip
    all_goals
      cases later : next.phase <;> rw [later] at blocks <;> first | exact blocks.elim | skip
      all_goals simp [publishes, phase, later]
  cases step_cases steps with
  | arrive | hostCloses | requestStop => exact .inr ⟨waiting blocks, blocks, rfl⟩
  | begin | shutdown | pipeNotConnected | readFailed => exact blocks.elim
  | initialPacket phase settles | packet phase settles =>
      exact absurd blocks (not_blocks_afterPacket settles)
  | check phase =>
      simp only [checkStep] at blocks waiting ⊢
      split_ifs at blocks ⊢ <;> first | exact blocks.elim | skip
      exact .inl (by simp [publishes, phase, enter])
  | stalled phase => exact .inl (by simp [publishes, phase, enter])
  | retry phase waits settles =>
      rename_i left message later result
      obtain ⟨settled, outcome⟩ := result
      cases outcome with
      | queued => exact blocks.elim
      | staged => exact .inl (by simp [publishes, phase, afterRetry, enter])
      | ended =>
          change settled.phase.Blocks at blocks
          rcases settle_ended settles with ended | ended <;> rw [ended] at blocks <;>
            exact blocks.elim
  | read phase =>
      have there : state.phase.Blocks := by rw [phase]; trivial
      exact .inr ⟨waiting there, there, rfl⟩
  | cancelled phase =>
      change (if state.stopRequested then Phase.left .signal else .check).Blocks at blocks
      split_ifs at blocks <;> exact blocks.elim

end LoopState

/-- The loop with the window it paints. -/
structure WindowedLoop where
  loop : LoopState
  publisher : Publisher

namespace WindowedLoop

/-- The loop of a server with a window; the empty screen has been published. -/
def initial (system : System) (host : HostIo) (packet : Option IoPacket) : WindowedLoop where
  loop := .initial system host packet
  publisher := Publisher.maybePublish { paints := true } (.initial system)

def step (state : WindowedLoop) (action : Action) : Option WindowedLoop :=
  (state.loop.step action).map fun next =>
    { loop := next
      publisher :=
        if state.loop.publishes next then state.publisher.maybePublish next.console.server
        else state.publisher }

/-- What holds throughout a run. -/
structure Invariant (state : WindowedLoop) : Prop where
  window : state.publisher.paints = true
  sound : state.loop.console.server.Sound
  follows : state.publisher.Follows state.loop.console.server
  shows : state.loop.phase.Blocks → state.publisher.Shows state.loop.console.server

theorem initial_invariant (system : System) (host : HostIo) (packet : Option IoPacket) :
    (initial system host packet).Invariant where
  window := Publisher.maybePublish_paints _ _
  sound := ServerState.initial_sound system
  follows :=
    (Publisher.maybePublish_shows (by rintro index ⟨⟩) (ServerState.initial_sound system) rfl).1
  shows := False.elim

theorem step_invariant {state next : WindowedLoop} {action : Action}
    (invariant : state.Invariant) (steps : state.step action = some next) : next.Invariant := by
  obtain ⟨loop, moves, rfl⟩ := Option.map_eq_some_iff.mp steps
  have paints := LoopState.step_paints moves
  have sound := paints.sound invariant.sound
  have follows := invariant.follows.paints paints
  have published := Publisher.maybePublish_shows follows sound invariant.window
  refine ⟨?_, sound, ?_, ?_⟩
  · dsimp only
    split
    · rw [Publisher.maybePublish_paints, invariant.window]
    · exact invariant.window
  · dsimp only
    split
    · exact published.1
    · exact follows
  · intro blocks
    rcases LoopState.step_blocks moves blocks with publishes | ⟨silent, blocked, same⟩
    · simp only [publishes, if_true]
      exact published.2
    · simp only [silent, Bool.false_eq_true, if_false, same]
      exact invariant.shows blocked

/-- An operation on a screen buffer that changes something that is painted moves its counter, and so
does every step of the loop; and at `read_io` the window has been given the viewport of the active
screen buffer, with its cursor and its palette. -/
theorem run_publishes_viewport :
    (∀ (buffer : ScreenBuffer) (operation : ScreenBuffer.Operation),
      (operation.apply buffer).appearance ≠ buffer.appearance →
        buffer.revision < (operation.apply buffer).revision) ∧
    ∀ (system : System) (host : HostIo) (packet : Option IoPacket) (state : WindowedLoop),
      Run step (fun _ _ => True) (initial system host packet) state →
        (∀ action next index before after, state.step action = some next →
          state.loop.console.server.screenBuffer index = some before →
          next.loop.console.server.screenBuffer index = some after →
          after.appearance ≠ before.appearance → before.revision < after.revision) ∧
        (state.loop.phase = .ready →
          ∃ buffer snapshot, state.loop.console.server.activeBuffer = some buffer ∧
            state.publisher.latest = some snapshot ∧ snapshot.Describes buffer) := by
  refine ⟨?_, ?_⟩
  · intro buffer operation changed
    exact (buffer.counts_apply operation).lt_of_ne changed
  · intro system host packet state run
    have invariant : state.Invariant := run.invariant (initial_invariant system host packet)
      fun holds _ steps => step_invariant holds steps
    refine ⟨?_, ?_⟩
    · intro action next index before after steps present shown changed
      obtain ⟨loop, moves, rfl⟩ := Option.map_eq_some_iff.mp steps
      obtain ⟨buffer, found, redrawn⟩ := (LoopState.step_paints moves).counts present
      cases found.symm.trans shown
      exact redrawn.counts.lt_of_ne changed
    · intro ready
      apply invariant.shows
      rw [ready]
      trivial

/-- A client that is connected first writes a character. -/
theorem run_publishes_viewport_oneCharacter :
    ∃ state buffer snapshot,
      Run step (fun _ _ => True) (initial .utf8 {} (some (connectPacket 100))) state ∧
        state.loop.phase = .ready ∧ state.loop.console.server.activeBuffer = some buffer ∧
        (buffer.viewportCell 0 0).map (·.character) = some (wc 'A') ∧
        state.publisher.latest = some snapshot ∧ snapshot.Describes buffer := by
  have ends : (Run.after step (initial .utf8 {} (some (connectPacket 100)))
      [.proceed .plain, .proceed .plain, .proceed .plain,
        .readIo (.packet ⟨0, 2, .rawWrite, [bc 'A'], 0⟩) .plain, .proceed .plain]).map
      (fun state => (state.loop.phase.isReady,
        state.loop.console.server.activeBuffer.map fun buffer =>
          (buffer.viewportCell 0 0).map (·.character))) = some (true, some (some (wc 'A'))) := by
    decide +kernel
  obtain ⟨state, reached, facts⟩ := Option.map_eq_some_iff.mp ends
  obtain ⟨ready, drawn⟩ := Prod.mk.inj facts
  have run : Run step (fun _ _ => True) _ state := .of_after_true reached
  have ready := Phase.isReady_iff.mp ready
  obtain ⟨buffer, snapshot, active, latest, describes⟩ :=
    (run_publishes_viewport.2 _ _ _ state run).2 ready
  rw [active] at drawn
  exact ⟨state, buffer, snapshot, run, ready, active, Option.some.inj drawn, latest, describes⟩

end WindowedLoop

end Conhost
