import Mathlib.Data.Bool.AllAny
import Conhost.Input.ByteRead

/-!
# Byte reads and text

Text without control characters is meant to pass through the byte reads
unchanged, whatever the chunks it arrives in and the buffers it is read with.
The loop looks for a VT sequence at every byte, not only at the start of a
character, and the byte `0x9B` that introduces one is also a continuation byte
of UTF-8. This module settles which texts pass.
-/

namespace Conhost

namespace ByteRead

inductive Kind where
  | readConsole
  | rawRead
deriving DecidableEq

/-- A byte read with a non-empty buffer; a raw `ReadConsole` is one without `ENABLE_LINE_INPUT`. -/
structure Request where
  kind : Kind
  call : ReadCall
  nonempty : 0 < call.capacity
  raw : kind = .readConsole → call.mode.lineInput = false

def Request.run (platform : Platform) (request : Request) (state : ReadState) :
    ReadState × ReadReply Byte :=
  match request.kind with
  | .readConsole => rawAnsiRead platform request.call state
  | .rawRead => rawRead platform request.call state

inductive Event where
  | arrive (bytes : List Byte)
  | read (request : Request)

/-- The bytes that arrive during a run. -/
def arrivals (events : List Event) : List Byte :=
  events.flatMap fun
    | .arrive bytes => bytes
    | .read _ => []

/-- A run on one handle: the read state and the bytes returned to the client so far. -/
structure Session where
  state : ReadState
  returned : List Byte := []

def Session.step (platform : Platform) (session : Session) : Event → Session
  | .arrive bytes => { session with state := session.state.arrive bytes }
  | .read request =>
      let result := request.run platform session.state
      ⟨result.1, session.returned ++ result.2.data⟩

def Session.run (platform : Platform) (session : Session) (events : List Event) : Session :=
  events.foldl (Session.step platform) session

/-- In every run on a fresh handle in which the bytes arrive, what was returned followed by what is
unread is the text, and as long as bytes are unread the next read returns some of them. -/
def Transparent (platform : Platform) (bytes : List Byte) : Prop :=
  ∀ events, arrivals events = bytes →
    let session := Session.run platform ⟨{}, []⟩ events
    session.returned ++ session.state.stream = bytes ∧
      ∀ request : Request, session.state.stream ≠ [] →
        ∃ data, data ≠ [] ∧ (request.run platform session.state).2 = .complete .success data

/-- No byte `0x9B` together with the bytes after it, in the window the loop sees, is taken for a VT
sequence, complete or still to be completed. -/
def NoHiddenSequence (bytes : List Byte) : Prop :=
  ∀ rest ∈ bytes.tails, rest.head? = some 0x9b → headOutcome (rest.take 64) = .noMatch

instance (bytes : List Byte) : Decidable (NoHiddenSequence bytes) :=
  inferInstanceAs (Decidable (∀ rest ∈ bytes.tails, _))

/-- A byte string the loop passes on byte by byte. -/
def Plain (bytes : List Byte) : Prop :=
  ∀ first rest, first :: rest <:+ bytes →
    first ≠ 3 ∧ first ≠ 0x1a ∧ headOutcome ((first :: rest).take 64) = .noMatch

theorem Plain.suffix {bytes rest : List Byte} (plain : Plain bytes) (suffix : rest <:+ bytes) :
    Plain rest := by
  intro first tail inside
  exact plain first tail (inside.trans suffix)

/-- The head outcome on the bytes that have arrived so far: the byte is passed on, or the decision
waits for bytes that are still to arrive. -/
theorem headOutcome_partial {unread future : List Byte} (arrived : unread ≠ [])
    (passed : headOutcome ((unread ++ future).take 64) = .noMatch) :
    headOutcome (unread.take 64) = .noMatch ∨
      headOutcome (unread.take 64) = .needMoreData ∧ future ≠ [] := by
  by_cases long : 64 ≤ unread.length
  · rw [List.take_append_of_le_length long] at passed
    exact .inl passed
  · have short : unread.take 64 = unread := List.take_of_length_le (by omega)
    rw [short]
    have whole : (unread ++ future).take 64 = unread ++ future.take (64 - unread.length) := by
      rw [List.take_append, short]
    rw [whole] at passed
    have settled := VtInput.tryDecodeVt_append arrived (future.take (64 - unread.length))
    have notFull : ¬(VtInput.tryDecodeVt unread = .needMoreData ∧ unread.length = 64) := by
      rintro ⟨-, full⟩
      omega
    simp only [headOutcome, if_neg notFull]
    cases outcome : VtInput.tryDecodeVt unread with
    | needMoreData =>
        refine .inr ⟨rfl, ?_⟩
        rintro rfl
        rw [List.take_nil, List.append_nil, headOutcome, if_neg notFull, outcome] at passed
        cases passed
    | noMatch => exact .inl rfl
    | produced token length =>
        rw [outcome] at settled
        have later := settled (by simp)
        simp [headOutcome, later] at passed

variable {platform : Platform} {call : ReadCall} {controlZ : Bool} {loop : LoopState}

/-- What the loop makes of plain bytes, `future` being those that have not arrived: nothing is lost
or reordered, and if everything has arrived something is returned. -/
def PassesOn (call : ReadCall) (loop : LoopState) (value : ReadState × ReadReply Byte) : Prop :=
  ∀ future, Plain (loop.state.stream ++ future) →
    value.2.data ++ value.1.stream = loop.written ++ loop.state.stream ∧
      (future = [] → 0 < call.capacity → loop.written ++ loop.state.stream ≠ [] →
        ∃ data, data ≠ [] ∧ value.2 = .complete .success data)

theorem finish_passesOn (stop : 0 < call.capacity → loop.state.stream ≠ [] → loop.written ≠ []) :
    PassesOn call loop (finish loop) := by
  intro future plain
  simp only [finish]
  split
  · rename_i idle
    simp only [Bool.and_eq_true, List.isEmpty_iff, ReadState.exhausted_iff] at idle
    rcases idle with ⟨nothing, empty⟩
    constructor
    · simp only [ReadState.wait, nothing, empty]
      split <;> rfl
    · intro _ _ unread
      simp [nothing, empty] at unread
  · rename_i busy
    refine ⟨rfl, fun _ capacity unread => ⟨loop.written, ?_, rfl⟩⟩
    by_cases empty : loop.state.stream = []
    · simpa [empty] using unread
    · exact stop capacity empty

theorem unfinished_passesOn
    (undecided : headOutcome (loop.state.stream.take 64) = .needMoreData)
    (unread : loop.state.stream ≠ []) : PassesOn call loop (unfinished loop) := by
  simp only [unfinished]
  split
  · rename_i something
    exact finish_passesOn fun _ _ => something
  · rename_i nothing
    intro future plain
    have nothing' : loop.written = [] := by simpa using nothing
    constructor
    · simp only [ReadState.wait, nothing', List.nil_append]
      split <;> simp [ReadReply.data]
    · rintro rfl
      obtain ⟨first, rest, split⟩ := List.exists_cons_of_ne_nil unread
      have passed := (plain first rest (by rw [List.append_nil, split])).2.2
      rw [← split, undecided] at passed
      cases passed

theorem body_plain {first : Byte} {rest future : List Byte}
    (stream : loop.state.stream = first :: rest) (room : loop.written.length < call.capacity)
    (plain : Plain (loop.state.stream ++ future)) :
    body platform call controlZ loop = .leave (unfinished loop) ∧
        headOutcome (loop.state.stream.take 64) = .needMoreData ∨
      body platform call controlZ loop =
        .next ⟨loop.state.consume 1, loop.written ++ [first]⟩ := by
  have inside := plain first (rest ++ future) (by rw [stream]; exact List.suffix_rfl)
  have head : loop.state.stream.take 64 = first :: rest.take 63 := by rw [stream]; rfl
  have arrived : loop.state.stream ≠ [] := by simp [stream]
  have passed : headOutcome ((loop.state.stream ++ future).take 64) = .noMatch := by
    rw [stream]
    exact inside.2.2
  simp only [body, if_neg (Nat.not_le.mpr room), ReadState.peekHead_eq]
  rcases headOutcome_partial arrived passed with outcome | ⟨outcome, -⟩
  · right
    rw [head] at outcome ⊢
    simp only [outcome]
    simp [plainByte, inside.1, inside.2.1]
  · left
    refine ⟨?_, outcome⟩
    rw [head] at outcome ⊢
    simp only [outcome]

theorem readLoop_passesOn (loop : LoopState) :
    PassesOn call loop ((readLoop platform call controlZ).run loop) := by
  apply (readLoop platform call controlZ).run_induction
  · intro loop value pass future plain
    change body platform call controlZ loop = .leave value at pass
    by_cases full : call.capacity ≤ loop.written.length
    · simp only [body, if_pos full] at pass
      cases pass
      exact finish_passesOn (fun capacity _ => List.ne_nil_of_length_pos (by omega)) future plain
    · by_cases empty : loop.state.stream = []
      · simp only [body, if_neg full, ReadState.peekHead_eq, empty, List.take_nil] at pass
        cases pass
        exact finish_passesOn (fun _ unread => absurd empty unread) future plain
      · obtain ⟨first, rest, stream⟩ := List.exists_cons_of_ne_nil empty
        rcases body_plain stream (Nat.not_le.mp full) plain with ⟨same, undecided⟩ | same
        · rw [same] at pass
          cases pass
          exact unfinished_passesOn undecided empty future plain
        · rw [same] at pass
          cases pass
  · intro loop next value pass holds future plain
    change body platform call controlZ loop = .next next at pass
    obtain ⟨room, unread, -⟩ := body_next pass
    obtain ⟨first, rest, stream⟩ := List.exists_cons_of_ne_nil unread
    rcases body_plain stream room plain with ⟨same, -⟩ | same
    · rw [same] at pass
      cases pass
    · rw [same] at pass
      cases pass
      have rest' : (loop.state.consume 1).stream = rest := by simp [stream]
      have plain' : Plain ((loop.state.consume 1).stream ++ future) := by
        refine plain.suffix ?_
        rw [rest', stream]
        exact List.suffix_cons _ _
      obtain ⟨kept, returns⟩ := holds future plain'
      rw [rest', List.append_assoc, List.singleton_append, ← stream] at kept returns
      exact ⟨kept, returns⟩

theorem Plain.no_ctrlC {bytes : List Byte} (plain : Plain bytes) : ∀ byte ∈ bytes, byte ≠ 3 := by
  intro byte member
  obtain ⟨before, after, split⟩ := List.append_of_mem member
  exact (plain byte after ⟨before, split.symm⟩).1

theorem request_passesOn (platform : Platform) (request : Request) (state : ReadState) :
    PassesOn request.call ⟨state, []⟩ (request.run platform state) := by
  unfold Request.run
  split
  · intro future plain
    have noCtrlC := plain.no_ctrlC
    have kept : (if request.call.mode.processedInput then
        state.stripCtrlC request.call.processes else state) = state := by
      split
      · refine state.stripCtrlC_eq_self request.call.processes fun byte member => ?_
        exact noCtrlC byte (by simp [ReadState.stream, member])
      · rfl
    have noControlZ : controlZAtFront request.call state = false := by
      cases queue : state.host.inputQueue with
      | nil => simp [controlZAtFront, queue]
      | cons first rest =>
          have inside : first :: (rest ++ future) <:+ state.stream ++ future := by
            simp only [ReadState.stream, queue, List.append_assoc, List.cons_append]
            exact List.suffix_append _ _
          simp [controlZAtFront, queue, (plain first _ inside).2.1]
    simp only [rawAnsiRead, if_neg request.nonempty.ne', kept, noControlZ]
    split
    · rename_i idle
      rw [ReadState.exhausted_iff] at idle
      constructor
      · simp only [ReadState.wait, idle]
        split <;> rfl
      · intro _ _ unread
        simp [idle] at unread
    · exact readLoop_passesOn _ future plain
  · exact readLoop_passesOn _

theorem arrivals_cons (event : Event) (events : List Event) :
    arrivals (event :: events) = arrivals [event] ++ arrivals events := by
  simp [arrivals]

/-- Nothing is lost or reordered along a run over plain bytes. -/
theorem run_kept (platform : Platform) (events : List Event) (session : Session)
    (plain : Plain (session.state.stream ++ arrivals events)) :
    (session.run platform events).returned ++ (session.run platform events).state.stream =
      session.returned ++ session.state.stream ++ arrivals events := by
  induction events generalizing session with
  | nil => simp [Session.run, arrivals]
  | cons event events hypothesis =>
      rw [arrivals_cons, ← List.append_assoc] at plain
      change ((session.step platform event).run platform events).returned ++
        ((session.step platform event).run platform events).state.stream = _
      rw [arrivals_cons]
      cases event with
      | arrive bytes =>
          have arrived : arrivals [.arrive bytes] = bytes := by simp [arrivals]
          rw [arrived] at plain ⊢
          rw [hypothesis _ (by simpa [Session.step] using plain)]
          simp [Session.step, List.append_assoc]
      | read request =>
          have arrived : arrivals [.read request] = [] := rfl
          rw [arrived, List.append_nil] at plain
          have kept := (request_passesOn platform request session.state _ plain).1
          simp only [List.nil_append] at kept
          have later : Plain ((session.step platform (.read request)).state.stream ++
              arrivals events) := by
            refine plain.suffix ?_
            rw [← kept, List.append_assoc]
            exact List.suffix_append _ _
          rw [hypothesis _ later, arrived, List.nil_append, ← kept]
          simp [Session.step, List.append_assoc]

/-- Plain bytes pass through every run. -/
theorem Plain.transparent {bytes : List Byte} (plain : Plain bytes) :
    Transparent platform bytes := by
  intro events arrived
  have start : ({} : ReadState).stream = [] := rfl
  have kept := run_kept platform events ⟨{}, []⟩ (by
    rw [arrived, start]
    exact plain)
  simp only [start, arrived, List.nil_append] at kept
  refine ⟨kept, fun request unread => ?_⟩
  have suffix : Plain ((Session.run platform ⟨{}, []⟩ events).state.stream ++ []) := by
    rw [List.append_nil]
    exact plain.suffix ⟨_, kept⟩
  exact (request_passesOn platform request _ [] suffix).2 rfl request.nonempty unread

/-- `CONSOLE_IO_RAW_READ` into a buffer of one byte, with no input mode set. -/
def singleRead : Request where
  kind := .rawRead
  call := { capacity := 1 }
  nonempty := Nat.zero_lt_one
  raw := by intro impossible; cases impossible

theorem run_append (platform : Platform) (session : Session) (events later : List Event) :
    session.run platform (events ++ later) = (session.run platform events).run platform later := by
  simp [Session.run, List.foldl_append]

theorem singleRead_bounded (platform : Platform) (state : ReadState) :
    Bounded singleRead.call ⟨state, []⟩ (singleRead.run platform state) :=
  readLoop_bounded _

/-- If every run is faithful, a read of one byte takes exactly the first unread byte. -/
theorem Transparent.single {bytes before after : List Byte} {byte : Byte}
    (transparent : Transparent platform bytes) (whole : bytes = before ++ byte :: after)
    {events : List Event} (arrived : arrivals events = bytes) {session : Session}
    (reached : Session.run platform ⟨{}, []⟩ events = session)
    (returned : session.returned = before) (unread : session.state.stream = byte :: after) :
    (singleRead.run platform session.state).2 = .complete .success [byte] ∧
      (singleRead.run platform session.state).1.stream = after := by
  obtain ⟨data, something, reply⟩ :=
    (transparent events arrived).2 singleRead (by simp [reached, unread])
  have kept := (transparent (events ++ [.read singleRead]) (by simpa [arrivals] using arrived)).1
  rw [run_append] at kept
  rw [reached] at reply kept
  have short := (singleRead_bounded platform session.state (Nat.zero_le 1)).1
  change session.returned ++ (singleRead.run platform session.state).2.data ++
    (singleRead.run platform session.state).1.stream = bytes at kept
  rw [reply] at kept short
  simp only [ReadReply.data] at kept short
  rw [returned, whole, List.append_assoc, List.append_cancel_left_eq] at kept
  cases data with
  | nil => exact absurd rfl something
  | cons first rest =>
      cases rest with
      | nil =>
          obtain ⟨rfl, same⟩ := List.cons.inj kept
          exact ⟨reply, same⟩
      | cons second rest =>
          change _ ≤ 1 at short
          simp at short

/-- If every run is faithful, the text can be read byte by byte up to any point. -/
theorem Transparent.reaches {bytes before after : List Byte}
    (transparent : Transparent platform bytes) (whole : bytes = before ++ after) :
    ∃ events, arrivals events = bytes ∧
      (Session.run platform ⟨{}, []⟩ events).returned = before ∧
        (Session.run platform ⟨{}, []⟩ events).state.stream = after := by
  induction before using List.reverseRecOn generalizing after with
  | nil =>
      refine ⟨[.arrive bytes], by simp [arrivals], rfl, ?_⟩
      exact whole
  | append_singleton before byte hypothesis =>
      have whole' : bytes = before ++ byte :: after := by simpa using whole
      obtain ⟨events, arrived, returned, unread⟩ := hypothesis whole'
      have taken := transparent.single whole' arrived rfl returned unread
      refine ⟨events ++ [.read singleRead], by simpa [arrivals] using arrived, ?_, ?_⟩
      · rw [run_append]
        change _ ++ (singleRead.run platform _).2.data = _
        rw [taken.1, returned]
        rfl
      · rw [run_append]
        exact taken.2

/-- A byte that a read of one byte returns was not taken for a VT sequence. -/
theorem headOutcome_of_single {state : ReadState} {byte : Byte} {after : List Byte}
    (unread : state.stream = byte :: after)
    (reply : (singleRead.run platform state).2 = .complete .success [byte])
    (remains : (singleRead.run platform state).1.stream = after) :
    headOutcome (state.stream.take 64) = .noMatch := by
  let loop : LoopState := ⟨state, []⟩
  have head : state.peekHead = byte :: after.take 63 := by
    rw [ReadState.peekHead_eq, unread]
    rfl
  cases pass : body platform singleRead.call true loop with
  | leave value =>
      have same : singleRead.run platform state = value :=
        (readLoop platform singleRead.call true).run_of_leave pass
      obtain ⟨nothing | nothing, -⟩ := body_returns pass <;>
      · rw [← same, reply] at nothing
        cases nothing
  | next next =>
      have same : singleRead.run platform state =
          (readLoop platform singleRead.call true).run next :=
        (readLoop platform singleRead.call true).run_of_next pass
      obtain ⟨-, -, kept, count, -, advanced, long⟩ := body_next pass
      have shrunk : ((readLoop platform singleRead.call true).run next).1.stream.length ≤
          next.state.stream.length := (readLoop_bounded next kept).2
      rw [← same, remains, advanced, List.length_drop] at shrunk
      change _ ≤ state.stream.length - count at shrunk
      rw [unread, List.length_cons] at shrunk
      cases outcome : headOutcome state.peekHead with
      | noMatch =>
          rw [← ReadState.peekHead_eq]
          exact outcome
      | produced token length =>
          obtain ⟨more, within⟩ := long token length outcome
          change count ≤ state.stream.length at within
          rw [unread, List.length_cons] at within
          omega
      | needMoreData =>
          rw [head] at outcome
          simp only [body, loop, head, outcome] at pass
          split at pass <;> cases pass

theorem Transparent.noHiddenSequence {bytes : List Byte}
    (transparent : Transparent platform bytes) : NoHiddenSequence bytes := by
  intro rest inside introducer
  obtain ⟨before, whole⟩ := (List.mem_tails _ _).mp inside
  obtain ⟨after, rfl⟩ : ∃ after, rest = 0x9b :: after := by
    cases rest with
    | nil => cases introducer
    | cons first after =>
        obtain rfl := Option.some.inj introducer
        exact ⟨after, rfl⟩
  obtain ⟨events, arrived, returned, unread⟩ := transparent.reaches whole.symm
  obtain ⟨reply, remains⟩ := transparent.single whole.symm arrived rfl returned unread
  rw [← unread]
  exact headOutcome_of_single unread reply remains

/-- The UTF-8 encoding of a text. -/
def encodeText (text : List Char) : List Byte := text.flatMap String.utf8EncodeChar

theorem le_of_mem_utf8EncodeChar {character : Char} (printable : 0x20 ≤ character.toNat) :
    ∀ byte ∈ String.utf8EncodeChar character, 0x20 ≤ byte := by
  intro byte member
  have value : 0x20 ≤ character.val.toNat := printable
  rw [UInt8.le_iff_toNat_le]
  change 32 ≤ byte.toNat
  simp only [String.utf8EncodeChar] at member
  split at member
  · simp only [List.mem_singleton] at member
    subst member
    simp only [UInt8.toNat_ofNat']
    omega
  · split at member
    · simp only [List.mem_cons, List.not_mem_nil, or_false] at member
      rcases member with rfl | rfl <;> simp only [UInt8.toNat_ofNat'] <;> omega
    · split at member
      · simp only [List.mem_cons, List.not_mem_nil, or_false] at member
        rcases member with rfl | rfl | rfl <;> simp only [UInt8.toNat_ofNat'] <;> omega
      · simp only [List.mem_cons, List.not_mem_nil, or_false] at member
        rcases member with rfl | rfl | rfl | rfl <;> simp only [UInt8.toNat_ofNat'] <;> omega

theorem NoHiddenSequence.plain {bytes : List Byte} (visible : NoHiddenSequence bytes)
    (printable : ∀ byte ∈ bytes, 0x20 ≤ byte) : Plain bytes := by
  intro first rest inside
  have large : 0x20 ≤ first := printable first (inside.subset (by simp))
  have different : ∀ control : Byte, control < 0x20 → first ≠ control := by
    rintro control small rfl
    exact absurd large (UInt8.not_le.mpr small)
  refine ⟨different 3 (by decide), different 0x1a (by decide), ?_⟩
  by_cases introducer : first = 0x9b
  · exact visible (first :: rest) ((List.mem_tails _ _).mpr inside) (by rw [introducer]; rfl)
  · have noEscape : first ≠ VtInput.escByte := different 0x1b (by decide)
    have noMatch : VtInput.tryDecodeVt ((first :: rest).take 64) = .noMatch := by
      simp only [List.take_succ_cons, VtInput.tryDecodeVt, if_neg noEscape]
      exact if_neg introducer
    rw [headOutcome, noMatch]
    rfl

/-- A text without C0 control characters passes unchanged through every run of byte reads exactly
if none of its bytes `0x9B` introduces a VT sequence. C1 control characters need not be excluded. -/
theorem transparent_iff_noHiddenSequence (platform : Platform) (text : List Char)
    (printable : ∀ character ∈ text, 0x20 ≤ character.toNat) :
    Transparent platform (encodeText text) ↔ NoHiddenSequence (encodeText text) := by
  constructor
  · exact Transparent.noHiddenSequence
  · intro visible
    refine (visible.plain fun byte member => ?_).transparent
    obtain ⟨character, inside, encoded⟩ := List.mem_flatMap.mp member
    exact le_of_mem_utf8EncodeChar (printable character inside) byte encoded

theorem transparent_iff_noHiddenSequence_letter :
    (∀ character ∈ ['Û', 'x'], 0x20 ≤ Char.toNat character) ∧
      NoHiddenSequence (encodeText ['Û', 'x']) ∧
        Transparent .utf8 (encodeText ['Û', 'x']) :=
  have printable : ∀ character ∈ ['Û', 'x'], 0x20 ≤ Char.toNat character :=
    List.all_iff_forall_prop.mp (by decide)
  have visible : NoHiddenSequence (encodeText ['Û', 'x']) := by decide
  ⟨printable, visible, (transparent_iff_noHiddenSequence .utf8 _ printable).mpr visible⟩

/-- In `ÛA` the bytes `9B 41` are taken for the Up key: a read with room for the whole text returns
the byte `C3` alone. -/
theorem not_transparent_cursor_key : ¬Transparent .utf8 (encodeText ['Û', 'A']) := by
  intro transparent
  let request : Request := ⟨.rawRead, { capacity := 16 }, by decide, by simp⟩
  have kept := (transparent [.arrive (encodeText ['Û', 'A']), .read request] (by decide)).1
  revert kept
  decide

end ByteRead

end Conhost
