import Conhost.Input.Cooked
import Conhost.Input.Records
import Conhost.Input.UnicodeRead

/-!
# The size of what a read returns

Every kind of read counts what it writes against the output buffer of its
message in its own way: in bytes, in UTF-16 units, in records, or by the length
of an encoded prefix. None returns more than the buffer holds.
-/

namespace Conhost

@[simp]
theorem length_unitBytes (units : List WChar) : (unitBytes units).length = 2 * units.length := by
  induction units with
  | nil => rfl
  | cons unit units hypothesis =>
      simp only [unitBytes, List.flatMap_cons, List.length_append, List.length_cons] at hypothesis ⊢
      rw [hypothesis]
      simp
      omega

namespace ReadState

@[simp]
theorem data_wait {α : Type} (state : ReadState) :
    (state.wait : ReadState × ReadReply α).2.data = [] := by
  simp only [wait]
  split <;> rfl

end ReadState

namespace ByteRead

variable (platform : Platform) (call : ReadCall)

theorem rawRead_fits (state : ReadState) :
    (rawRead platform call state).2.data.length ≤ call.capacity :=
  (readLoop_bounded ⟨state, []⟩ (Nat.zero_le _)).1

theorem rawAnsiRead_fits (state : ReadState) :
    (rawAnsiRead platform call state).2.data.length ≤ call.capacity := by
  simp only [rawAnsiRead]
  generalize (if call.mode.processedInput then state.stripCtrlC call.processes else state) = start
  split
  · exact Nat.zero_le _
  · split
    · simp
    · split
      · exact Nat.zero_le _
      · exact (readLoop_bounded ⟨start, []⟩ (Nat.zero_le _)).1

end ByteRead

namespace UnicodeRead

variable {platform : Platform} {call : ReadCall}

/-- What a pass has written is within the buffer. -/
abbrev WithinUnits (call : ReadCall) : Pass LoopState (ReadState × ReadReply WChar) → Prop :=
  Pass.Below (·.written.length) (·.2.data.length) (maxUnits call + 1)

theorem keyEvent_within {loop : LoopState} (key : KeyEvent)
    (room : loop.written.length ≤ maxUnits call) : WithinUnits call (keyEvent call loop key) := by
  simp only [keyEvent]
  split
  · exact Nat.succ_pos _
  · split
    · exact Nat.lt_succ_of_le room
    · split
      · exact Nat.lt_succ_of_le room
      · split
        · exact Nat.lt_succ_of_le room
        · simp only [Pass.Below, List.length_append, List.length_replicate]
          omega

theorem textUnits_within {loop : LoopState} {chars : List WChar} {split : Bool}
    (room : loop.written.length ≤ maxUnits call)
    (one : split = true → loop.written.length + 1 ≤ maxUnits call)
    (all : split = false → loop.written.length + chars.length ≤ maxUnits call) :
    WithinUnits call (textUnits call loop chars split) := by
  simp only [textUnits]
  split
  · exact Nat.lt_succ_of_le room
  · split
    · rename_i cut
      have fits := one cut
      simp only [Pass.Below, finish, ReadReply.data, List.length_append, List.length_take]
      omega
    · rename_i whole
      have fits := all (by simpa using whole)
      split
      · simp only [Pass.Below, finish, ReadReply.data, List.length_append]
        omega
      · simp only [Pass.Below, List.length_append]
        omega

theorem body_within {loop : LoopState} (room : loop.written.length ≤ maxUnits call) :
    WithinUnits call (body platform call loop) := by
  have done : (finish loop).2.data.length < maxUnits call + 1 := Nat.lt_succ_of_le room
  simp only [body]
  split
  · exact done
  · split
    · simp only [Pass.Below]
      split
      · exact done
      · simp
    · split
      · simp only [Pass.Below]
        split
        · exact done
        · simp
      · exact Nat.lt_succ_of_le room
      · exact keyEvent_within _ room
      · rename_i chars length decoded
        split
        · exact done
        · rename_i fits
          simp only [Bool.and_eq_true, Bool.not_eq_true', not_and, Bool.not_eq_false,
            beq_iff_eq] at fits
          refine textUnits_within room ?_ ?_
          · intro overflow
            have last := (fits overflow).2
            simp only [LoopState.consume]
            omega
          · intro whole
            simp only [overflows, decide_eq_false_iff_not, Nat.not_lt] at whole
            simp only [LoopState.consume]
            omega

theorem rawUnicodeRead_fits (platform : Platform) (call : ReadCall) (state : ReadState) :
    (rawUnicodeRead platform call state).2.data.length ≤ maxUnits call := by
  have keeps : ∀ loop : LoopState, loop.written.length < maxUnits call + 1 →
      WithinUnits call ((readLoop platform call).body loop) :=
    fun loop room => body_within (Nat.le_of_lt_succ room)
  simp only [rawUnicodeRead]
  generalize (if call.mode.processedInput then state.stripCtrlC call.processes else state) = start
  split
  · exact Nat.zero_le _
  · split
    · simp
    · split
      · exact Nat.zero_le _
      · split
        · exact Nat.zero_le _
        · rename_i room
          apply Nat.le_of_lt_succ
          apply (readLoop platform call).run_below keeps
          have few : start.handle.decodedInputPending.toList.length ≤ 1 := by
            cases start.handle.decodedInputPending <;> simp
          simp only
          omega

end UnicodeRead

namespace Records

variable {platform : Platform} {call : RecordCall}

/-- The records of a pass are within the buffer. -/
abbrev WithinRecords (call : RecordCall) : Pass Scan Scan → Prop :=
  Pass.Below (·.records.length) (·.records.length) (call.capacity + 1)

theorem keyEvent_within {scan : Scan} (room : scan.records.length < call.capacity) (key : KeyEvent)
    (length : Nat) : WithinRecords call (keyEvent call scan key length) := by
  simp only [keyEvent]
  split
  · split
    · exact Nat.succ_pos _
    · exact Nat.lt_succ_of_lt room
  · split
    · exact Nat.lt_succ_of_lt room
    · simp only [Pass.Below, Scan.advance, Scan.push, List.length_append, List.length_map,
        List.length_singleton]
      omega

theorem textUnits_within {scan : Scan} (room : scan.records.length < call.capacity)
    (chars : List WChar) (length : Nat) :
    WithinRecords call (textUnits call scan chars length) := by
  simp only [textUnits]
  split
  · exact Nat.lt_succ_of_lt room
  · split
    · split
      · split
        · rename_i one
          simp only [Pass.Below]
          split <;> simp [Scan.advance, Scan.push] <;> omega
        · exact Nat.lt_succ_of_lt room
      · exact Nat.lt_succ_of_lt room
    · rename_i fits
      simp only [Pass.Below, Scan.advance, Scan.push, List.length_append, List.length_map]
      omega

theorem scanBody_within {scan : Scan} (room : scan.records.length < call.capacity + 1) :
    WithinRecords call (scanBody platform call scan) := by
  simp only [scanBody]
  split
  · exact room
  · rename_i busy
    have left : scan.records.length < call.capacity :=
      Nat.not_le.mp fun full => busy (.inl full)
    split
    · exact room
    · exact room
    · exact keyEvent_within left _ _
    · exact textUnits_within left _ _

theorem scanWindow_fits (platform : Platform) (state : ReadState) (room : call.capacity ≠ 0) :
    (scanWindow platform call state).records.length ≤ call.capacity := by
  apply Nat.le_of_lt_succ
  have keeps : ∀ scan : Scan, scan.records.length < call.capacity + 1 →
      WithinRecords call ((scanLoop platform call).body scan) :=
    fun scan within => scanBody_within within
  apply (scanLoop platform call).run_below keeps
  have few : state.handle.decodedInputPending.toList.length ≤ 1 := by
    cases state.handle.decodedInputPending <;> simp
  simp only [Scan.push, List.nil_append, List.length_map]
  omega

theorem conclude_fits {state : ReadState} {scan : Scan} {value : ReadState × ReadReply KeyEvent}
    (room : scan.records.length ≤ call.capacity)
    (pass : conclude call state scan = .leave value) : value.2.data.length ≤ call.capacity := by
  simp only [conclude] at pass
  split at pass
  · split at pass
    · cases pass
      exact Nat.zero_le _
    · split at pass
      · cases pass
        exact Nat.zero_le _
      · split at pass
        · cases pass
        · cases pass
          exact room
  · cases pass
    exact room

theorem getBody_fits {state : ReadState} {value : ReadState × ReadReply KeyEvent}
    (room : call.capacity ≠ 0) (pass : getBody platform call state = .leave value) :
    value.2.data.length ≤ call.capacity := by
  have fits := scanWindow_fits platform state room
  simp only [getBody] at pass
  split at pass
  · cases pass
    simp
  · split at pass
    · split at pass
      · cases pass
        exact Nat.zero_le _
      · split at pass
        · cases pass
          exact Nat.zero_le _
        · split at pass
          · cases pass
            exact Nat.zero_le _
          · exact conclude_fits fits pass
    · exact conclude_fits fits pass

theorem getConsoleInput_fits (platform : Platform) (call : RecordCall) (state : ReadState) :
    (getConsoleInput platform call state).2.data.length ≤ call.capacity := by
  simp only [getConsoleInput]
  split
  · exact Nat.zero_le _
  · rename_i room
    generalize (if call.mode.processedInput then state.stripCtrlC call.processes else state) =
      start
    let Holds (_ : ReadState) (value : ReadState × ReadReply KeyEvent) : Prop :=
      value.2.data.length ≤ call.capacity
    change Holds start _
    apply (getLoop platform call).run_induction
    · intro state value pass
      exact getBody_fits room pass
    · intro state next value _ holds
      exact holds

end Records

namespace Delivery

theorem deliverPending_fits (platform : Platform) (codePage : CodePage) (unicode : Bool)
    (capacity : Nat) (pending : List WChar) :
    (deliverPending platform codePage unicode capacity pending).2.data.length ≤ capacity := by
  simp only [deliverPending]
  split
  · exact Nat.zero_le _
  · split
    · simp only [ReadReply.data, length_unitBytes, List.length_take]
      omega
    · split
      · exact Nat.zero_le _
      · simp only [deliverAnsi]
        split
        · exact Nat.zero_le _
        · split
          · exact Nat.zero_le _
          · rename_i fits
            simp only [not_or, Nat.not_lt] at fits
            exact fits.2.trans (Nat.min_le_left _ _)

end Delivery

namespace Cooked

variable {platform : Platform} {device : Device} {call : CookedCall}

/-- The reply of a read that has not failed is within the buffer. -/
def FitsBuffer (capacity : Nat) (result : Result) : Prop :=
  ∀ {reply}, result.2 = .ok reply → reply.data.length ≤ capacity

theorem fitsBuffer_nil {capacity : Nat} {state : CookedState} {status : Status} :
    FitsBuffer capacity (state, .ok (.complete status [])) := by
  rintro reply ⟨⟩
  exact Nat.zero_le _

theorem conclude_fits {state : CookedState} {outcome : EditLine.Outcome} {result : Result}
    (pass : conclude platform device call state outcome = .leave result) :
    FitsBuffer call.capacity result := by
  cases outcome with
  | proceed => cases pass
  | endOfFile | ctrlC | ctrlBreak =>
      cases pass
      exact fitsBuffer_nil
  | newline carriageReturn =>
      simp only [conclude] at pass
      split at pass
      · cases pass
        rintro reply ⟨⟩
      · cases pass
        rintro reply ⟨⟩
        exact Delivery.deliverPending_fits _ _ _ _ _

theorem idle_fits (capacity : Nat) (state : CookedState) : FitsBuffer capacity (idle state) := by
  simp only [idle]
  split
  · exact fitsBuffer_nil
  · rintro reply ⟨⟩
    exact Nat.zero_le _

theorem body_fits {state : CookedState} {result : Result}
    (pass : body platform device call state = .leave result) :
    FitsBuffer call.capacity result := by
  simp only [body] at pass
  split at pass
  · cases pass
    exact idle_fits _ _
  · split at pass
    · cases pass
      exact idle_fits _ _
    · simp only [handleToken] at pass
      split at pass
      · cases pass
        rintro reply ⟨⟩
      · exact conclude_fits pass

theorem readConsole_fits {fuel : Nat} {state : CookedState} {result : Result}
    (read : readConsole platform device call fuel state = some result) :
    FitsBuffer call.capacity result := by
  by_cases room : call.capacity = 0
  · rw [readConsole, if_pos room] at read
    cases read
    exact fitsBuffer_nil
  by_cases empty : state.read.handle.cookedReadPending = []
  · rw [readConsole_iterate room empty] at read
    obtain ⟨last, -, pass⟩ := exists_iterate_iff.mp ⟨fuel, read⟩
    exact body_fits pass
  · rw [readConsole_deliver room empty] at read
    cases read
    intro answered
    cases answered
    exact Delivery.deliverPending_fits _ _ _ _ _

end Cooked

end Conhost
