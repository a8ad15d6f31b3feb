import Conhost.Input.Capacity
import Conhost.Input.TextRecords
import Conhost.Server.Dispatch

/-!
# Injected input

`ConsolepWriteConsoleInput` turns the characters of key records into bytes of
the input code page and appends them to the queue, where requests for records
decode them again. A record holds one UTF-16 unit and is encoded by itself, so
that a character of two units does not survive.
-/

namespace Conhost

theorem or_shiftLeft_toUInt8 (unit : WChar) :
    unit.toUInt8.toUInt16 ||| ((unit >>> 8).toUInt8.toUInt16 <<< 8) = unit := by
  apply UInt16.toNat_inj.mp
  have bound := unit.toNat_lt
  have low : unit.toUInt8.toUInt16.toNat = unit.toNat % 256 := by simp
  have high : ((unit >>> 8).toUInt8.toUInt16 <<< 8).toNat = (unit.toNat / 256) <<< 8 := by
    simp [Nat.shiftRight_eq_div_pow, Nat.shiftLeft_eq]
    omega
  rw [UInt16.toNat_or, low, high, Nat.or_comm,
    ← Nat.shiftLeft_add_eq_or_of_lt (by omega : unit.toNat % 256 < 2 ^ 8), Nat.shiftLeft_eq]
  omega

theorem words_unitBytes (units : List WChar) : ScreenBuffer.words (unitBytes units) = units := by
  induction units with
  | nil => rfl
  | cons unit units hypothesis =>
      change (unit.toUInt8.toUInt16 ||| ((unit >>> 8).toUInt8.toUInt16 <<< 8)) ::
        ScreenBuffer.words (unitBytes units) = _
      rw [or_shiftLeft_toUInt8, hypothesis]

/-- The `INPUT_RECORD` of a key-down, by what its words hold. -/
structure InjectedKey where
  unit : WChar
  count : UInt16 := 1
  padding : UInt16 := 0
  virtualKeyCode : UInt16 := 0
  virtualScanCode : UInt16 := 0
  controlKeyState : UInt16 × UInt16 := (0, 0)

namespace InjectedKey

def words (key : InjectedKey) : List UInt16 :=
  [1, key.padding, 1, 0, key.count, key.virtualKeyCode, key.virtualScanCode, key.unit,
    key.controlKeyState.1, key.controlKeyState.2]

/-- A repeat count of zero counts as one. -/
def repetitions (key : InjectedKey) : Nat := max 1 key.count.toNat

/-- The units that the records stand for. -/
def typedUnits (keys : List InjectedKey) : List WChar :=
  keys.flatMap fun key => List.replicate key.repetitions key.unit

/-- The records type a text, one for each unit; a character of two units is not repeated. -/
inductive Types : List InjectedKey → List Char → Prop where
  | nil : Types [] []
  | single {key : InjectedKey} {keys : List InjectedKey} {char : Char} {text : List Char}
      (word : utf16Code.word char = [key.unit]) (later : Types keys text) :
      Types (key :: keys) (char :: text)
  | pair {high low : InjectedKey} {keys : List InjectedKey} {char : Char} {text : List Char}
      (word : utf16Code.word char = [high.unit, low.unit]) (once : high.count = 1 ∧ low.count = 1)
      (later : Types keys text) : Types (high :: low :: keys) (char :: text)

/-- The unit is a character by itself. -/
def Plain (unit : WChar) : Prop := unit.toNat < 0xd800 ∨ 0xdfff < unit.toNat

instance (unit : WChar) : Decidable (Plain unit) := inferInstanceAs (Decidable (_ ∨ _))

/-- What becomes of a unit that is encoded by itself. -/
def survivor (unit : WChar) : Char :=
  if Plain unit then Char.ofNat unit.toNat else replacementChar

/-- The text that is injected. -/
def injectedText (keys : List InjectedKey) : List Char :=
  keys.flatMap fun key => List.replicate key.repetitions (survivor key.unit)

theorem injectedText_cons (key : InjectedKey) (keys : List InjectedKey) :
    injectedText (key :: keys) =
      List.replicate key.repetitions (survivor key.unit) ++ injectedText keys := rfl

theorem typedUnits_cons (key : InjectedKey) (keys : List InjectedKey) :
    typedUnits (key :: keys) = List.replicate key.repetitions key.unit ++ typedUnits keys := rfl

theorem lossy_survivor (unit : WChar) :
    utf16Code.lossy replacementChar [unit] = [survivor unit] := by
  by_cases plain : Plain unit
  · rw [lossy_plain replacementChar plain, survivor, if_pos plain]
    simp
  · rw [survivor, if_neg plain]
    simp only [Plain, not_or, not_lt] at plain
    by_cases high : unit.toNat < 0xdc00
    · rw [lossy_high replacementChar ⟨plain.1, high⟩ (by simp)]
      simp
    · rw [lossy_low replacementChar ⟨by omega, by omega⟩]
      simp

theorem word_survivor (unit : WChar) :
    utf16Code.word (survivor unit) = if Plain unit then [unit] else [0xfffd] := by
  by_cases plain : Plain unit
  · rw [survivor, if_pos plain, if_pos plain, utf16Code_word_plain plain]
  · rw [survivor, if_neg plain, if_neg plain]
    rfl

variable {system : System}

theorem encodeInjected_eq (replaces : system.toPlatform.ReplacesLoneSurrogates) {unit : WChar}
    (typed : unit ≠ 0) :
    InputApi.encodeInjected system cpUtf8 true unit = utf8Code.word (survivor unit) := by
  have encoded : system.wideCharToMultiByte cpUtf8 [unit] = utf8Code.word (survivor unit) := by
    rw [replaces, utf16ToUtf8, lossy_survivor]
    simp
  have short := (length_utf8Code_word (survivor unit)).2
  have fits : ¬(utf8Code.word (survivor unit) = [] ∨
      8 < (utf8Code.word (survivor unit)).length) := by
    rw [not_or]
    exact ⟨utf8Code.word_ne_nil _, by omega⟩
  simp only [InputApi.encodeInjected, if_true, encoded, if_neg typed, if_neg fits]

theorem encode_replicate {α β : Type} (code : SymbolCode α β) (count : Nat) (symbol : α) :
    code.encode (List.replicate count symbol) =
      (List.replicate count (code.word symbol)).flatten := by
  induction count with
  | zero => rfl
  | succ count hypothesis =>
      rw [List.replicate_succ, List.replicate_succ, code.encode_cons, hypothesis, List.flatten_cons]

theorem injectedBytes_eq (replaces : system.toPlatform.ReplacesLoneSurrogates)
    {keys : List InjectedKey} (typed : ∀ key ∈ keys, key.unit ≠ 0) :
    InputApi.injectedBytes system cpUtf8 true (keys.flatMap words) =
      utf8Code.encode (injectedText keys) := by
  induction keys with
  | nil => rfl
  | cons key keys hypothesis =>
      have others : ∀ other ∈ keys, other.unit ≠ 0 :=
        fun other member => typed other (List.mem_cons_of_mem _ member)
      have count : (if key.count = 0 then 1 else key.count.toNat) = key.repetitions := by
        rw [repetitions]
        split
        · rename_i zero
          rw [zero]
          rfl
        · rename_i some
          have positive : key.count.toNat ≠ 0 := fun zero => some (UInt16.toNat_inj.mp zero)
          omega
      rw [injectedText_cons, utf8Code.encode_append, encode_replicate,
        ← encodeInjected_eq replaces (typed key List.mem_cons_self)]
      change (if (1 : UInt16) ≠ 1 ∨ _ then [] else _) ++ InputApi.injectedBytes system cpUtf8 true
        (keys.flatMap words) = _
      rw [hypothesis others, if_neg (by decide), count]

/-- Units that are encoded one by one come back unless they are surrogates. -/
theorem encode_injectedText_eq_iff (keys : List InjectedKey) :
    utf16Code.encode (injectedText keys) = typedUnits keys ↔ ∀ key ∈ keys, Plain key.unit := by
  induction keys with
  | nil => simp [injectedText, typedUnits]
  | cons key keys hypothesis =>
      have same : utf16Code.encode (List.replicate key.repetitions (survivor key.unit)) =
          List.replicate key.repetitions (if Plain key.unit then key.unit else 0xfffd) := by
        rw [encode_replicate, word_survivor]
        split <;> simp
      have size : (utf16Code.encode
          (List.replicate key.repetitions (survivor key.unit))).length =
            (List.replicate key.repetitions key.unit).length := by
        rw [same, List.length_replicate, List.length_replicate]
      have first : utf16Code.encode (List.replicate key.repetitions (survivor key.unit)) =
          List.replicate key.repetitions key.unit ↔ Plain key.unit := by
        have some : key.repetitions ≠ 0 := by
          rw [repetitions]
          omega
        rw [same, List.replicate_right_inj some]
        by_cases plain : Plain key.unit
        · simp [plain]
        · rw [if_neg plain]
          refine iff_of_false ?_ plain
          intro equal
          exact plain (.inr (by rw [← equal]; decide))
      rw [injectedText_cons, typedUnits_cons, utf16Code.encode_append, List.forall_mem_cons,
        ← hypothesis, ← first]
      constructor
      · intro whole
        exact List.append_inj whole size
      · rintro ⟨one, others⟩
        rw [one, others]

theorem Types.plain_iff {keys : List InjectedKey} {text : List Char} (types : Types keys text) :
    (∀ key ∈ keys, Plain key.unit) ↔ ∀ char ∈ text, char.toNat < 0x10000 := by
  induction types with
  | nil => simp
  | @single key keys char text word later hypothesis =>
      rw [List.forall_mem_cons, List.forall_mem_cons, hypothesis]
      rcases utf16Units_cases char with ⟨unit, units, value, range⟩ | ⟨high, low, units, -⟩
      · rw [utf16Code_word, units] at word
        cases word
        have bound := key.unit.toNat_lt
        have plain : Plain key.unit := by
          rw [Plain, value]
          omega
        simp only [plain, true_and]
        exact (and_iff_right (by omega)).symm
      · rw [utf16Code_word, units] at word
        cases word
  | @pair high low keys char text word once later hypothesis =>
      rcases utf16Units_cases char with
        ⟨unit, units, -⟩ | ⟨first, second, units, value, -, large, top⟩
      · rw [utf16Code_word, units] at word
        cases word
      · rw [utf16Code_word, units] at word
        cases word
        refine iff_of_false ?_ ?_
        · intro all
          have plain := all high List.mem_cons_self
          rw [Plain, value] at plain
          omega
        · intro all
          have small := all char List.mem_cons_self
          omega

theorem Types.typed {keys : List InjectedKey} {text : List Char} (types : Types keys text)
    (printable : Printable text) : ∀ key ∈ keys, 0x20 ≤ key.unit.toNat := by
  induction types with
  | nil => simp
  | @single key keys char text word later hypothesis =>
      have large := printable char List.mem_cons_self
      have others := hypothesis fun other member => printable other (List.mem_cons_of_mem _ member)
      rw [List.forall_mem_cons]
      refine ⟨?_, others⟩
      rcases utf16Units_cases char with ⟨unit, units, value, -⟩ | ⟨high, low, units, -⟩
      · rw [utf16Code_word, units] at word
        cases word
        omega
      · rw [utf16Code_word, units] at word
        cases word
  | @pair high low keys char text word once later hypothesis =>
      have others := hypothesis fun other member => printable other (List.mem_cons_of_mem _ member)
      rw [List.forall_mem_cons, List.forall_mem_cons]
      rcases utf16Units_cases char with ⟨unit, units, -⟩ | ⟨first, second, units, upper, lower, -⟩
      · rw [utf16Code_word, units] at word
        cases word
      · rw [utf16Code_word, units] at word
        cases word
        exact ⟨by omega, by omega, others⟩

theorem printable_injectedText {keys : List InjectedKey}
    (typed : ∀ key ∈ keys, 0x20 ≤ key.unit.toNat) : Printable (injectedText keys) := by
  intro char member
  rcases List.mem_flatMap.mp member with ⟨key, present, repeated⟩
  rw [List.eq_of_mem_replicate repeated, survivor]
  have large := typed key present
  have bound := key.unit.toNat_lt
  split
  · rename_i plain
    have value : (Char.ofNat key.unit.toNat).toNat = key.unit.toNat :=
      toNat_ofNat_of_valid (by rw [Plain] at plain; omega)
    omega
  · decide

/-- What a request on the object reads from. -/
def readStateOf (console : Console) (object : Handle) : Option ReadState :=
  (console.findHandle object .input).map fun handle => ⟨handle, console.host⟩

variable {environment : Environment} {console : Console} {object : Handle} {handle : ObjectHandle}

/-- `ConsolepWriteConsoleInput` of the records. -/
def inject (environment : Environment) (console : Console) (object : Handle) (handle : ObjectHandle)
    (append : Bool) (keys : List InjectedKey) : Console :=
  (InputApi.writeConsoleInputRequest environment console object handle
    (unitBytes (keys.flatMap words)) true append).1

theorem length_flatMap_words (keys : List InjectedKey) :
    (keys.flatMap words).length = 10 * keys.length := by
  induction keys with
  | nil => rfl
  | cons key keys hypothesis =>
      rw [List.flatMap_cons, List.length_append, hypothesis, List.length_cons]
      simp only [words, List.length_cons, List.length_nil]
      omega

/-- The handle has nothing to read but what was injected. -/
theorem inject_holds (replaces : environment.system.toPlatform.ReplacesLoneSurrogates)
    (utf8 : console.server.inputCodePage = cpUtf8)
    (found : console.findHandle object .input = some handle)
    (empty : console.host.inputQueue = []) (unheld : handle.decodedInputPending = none)
    (undrained : handle.pendingInputBytes = .clear) (append : Bool) {keys : List InjectedKey}
    (typed : ∀ key ∈ keys, 0x20 ≤ key.unit.toNat) :
    ∃ state, readStateOf (inject environment console object handle append keys) object =
        some state ∧ state.handle.decodedInputPending = none ∧
      Records.Holds state (injectedText keys) := by
  have size : ¬(unitBytes (keys.flatMap words)).length % 20 ≠ 0 := by
    rw [length_unitBytes, length_flatMap_words]
    omega
  have codePage : ¬console.server.inputCodePage = 0 := by
    rw [utf8]
    decide
  have nonzero : ∀ key ∈ keys, key.unit ≠ 0 := by
    intro key member zero
    have large := typed key member
    rw [zero] at large
    exact absurd large (by decide)
  have bytes : InputApi.injectedBytes environment.system
      (if console.server.inputCodePage = 0 then environment.system.getOemCp
        else console.server.inputCodePage) true
      (ScreenBuffer.words (unitBytes (keys.flatMap words))) =
        utf8Code.encode (injectedText keys) := by
    rw [if_neg codePage, utf8, words_unitBytes, injectedBytes_eq replaces nonzero]
  have printable := printable_injectedText typed
  have input : handle.kind == .input := (Option.filter_eq_some_iff.mp found).2
  cases append with
  | true =>
      refine ⟨⟨handle, console.host.injectInputBytes (utf8Code.encode (injectedText keys))⟩, ?_,
        unheld, ?_, ?_, printable⟩
      · simp only [inject, InputApi.writeConsoleInputRequest, if_neg size, bytes, if_true,
          readStateOf]
        rw [show Console.findHandle
          ⟨console.server, console.host.injectInputBytes _⟩ object .input =
          some handle from found]
        rfl
      · rw [ReadState.pendingPrefix, undrained]
        rfl
      · simp [HostIo.injectInputBytes, empty]
  | false =>
      refine ⟨⟨handle.flush, console.host.flushInputBuffer.injectInputBytes
        (utf8Code.encode (injectedText keys))⟩, ?_, rfl, rfl, rfl, printable⟩
      simp only [inject, InputApi.writeConsoleInputRequest, if_neg size, bytes, Bool.false_eq_true,
        if_false, readStateOf]
      have flushed : Console.findHandle
          ⟨console.server.setObject object (some handle.flush),
            console.host.flushInputBuffer.injectInputBytes (utf8Code.encode (injectedText keys))⟩
          object .input = some handle.flush := by
        simp only [Console.findHandle, ServerState.findObject, ServerState.setObject,
          Function.update_self, Option.filter_some]
        exact if_pos input
      rw [flushed]
      rfl

/-- Injected text is read back exactly if it has no character of two units. -/
theorem injected_reads_back_iff {text : List Char} {keys : List InjectedKey} (append : Bool)
    (decodes : environment.system.toPlatform.DecodesUtf8)
    (replaces : environment.system.toPlatform.ReplacesLoneSurrogates)
    (utf8 : console.server.inputCodePage = cpUtf8)
    (found : console.findHandle object .input = some handle)
    (empty : console.host.inputQueue = []) (unheld : handle.decodedInputPending = none)
    (undrained : handle.pendingInputBytes = .clear) (types : Types keys text)
    (printable : Printable text) :
    (∃ state, readStateOf (inject environment console object handle append keys) object =
        some state ∧ ∀ calls : Nat → RecordCall, (∀ index, Records.Removes (calls index)) →
          ∃ records, Records.Returns environment.system.toPlatform state calls records ∧
            records.map KeyEvent.unicodeChar = typedUnits keys) ↔
      ∀ char ∈ text, char.toNat < 0x10000 := by
  rcases inject_holds replaces utf8 found empty unheld undrained append (types.typed printable) with
    ⟨state, stateOf, held, holds⟩
  have returns (calls : Nat → RecordCall) (removes : ∀ index, Records.Removes (calls index)) :=
    Records.exists_returns_text decodes calls removes holds
  rw [← types.plain_iff, ← encode_injectedText_eq_iff]
  constructor
  · rintro ⟨state', stateOf', back⟩
    cases stateOf.symm.trans stateOf'
    have removes : Records.Removes { capacity := 1 } := ⟨rfl, rfl, rfl, by decide⟩
    rcases returns (fun _ => { capacity := 1 }) (fun _ => removes) with ⟨records, returned, units⟩
    rcases back (fun _ => { capacity := 1 }) (fun _ => removes) with ⟨records', returned', units'⟩
    rw [← returned.unique returned', units, held] at units'
    exact units'
  · intro same
    refine ⟨state, stateOf, ?_⟩
    intro calls removes
    rcases returns calls removes with ⟨records, returned, units⟩
    refine ⟨records, returned, ?_⟩
    rw [units, held, ← same]
    rfl

/-- A console with one input handle. -/
def freshConsole : Console :=
  ⟨{ ServerState.initial .utf8 with
      objects := fun id => if id = 1 then some {} else none
      inputCodePage := cpUtf8 }, {}⟩

/-- The key of a letter, held down for three repetitions. -/
theorem injected_reads_back_iff_letter :
    ∃ state, readStateOf (inject (.utf8 0) freshConsole 1 {} true
      [⟨wc 'a', 3, 0, 0, 0, (0, 0)⟩]) 1 =
      some state ∧ ∃ records,
        Records.Returns .utf8 state (fun _ => { capacity := 2 }) records ∧
          records.map KeyEvent.unicodeChar = [wc 'a', wc 'a', wc 'a'] := by
  have types : Types [⟨wc 'a', 3, 0, 0, 0, (0, 0)⟩] ['a'] := .single (by decide) .nil
  have back : (∃ state, readStateOf (inject (.utf8 0) freshConsole 1 {} true _) 1 =
      some state ∧ _) ↔
      _ := injected_reads_back_iff true Platform.utf8_decodesUtf8
    Platform.utf8_replacesLoneSurrogates rfl rfl rfl rfl rfl types (by simp [Printable])
  rcases back.mpr (by simp) with ⟨state, stateOf, returns⟩
  exact ⟨state, stateOf, returns _ fun _ => ⟨rfl, rfl, rfl, by decide⟩⟩

/-- U+1F600, as its two surrogates, comes back as two U+FFFD. -/
theorem injected_emoji_lost :
    Types [{ unit := 0xd83d }, { unit := 0xde00 }] [Char.ofNat 0x1f600] ∧ ∃ state,
      readStateOf (inject (.utf8 0) freshConsole 1 {} true [{ unit := 0xd83d }, { unit := 0xde00 }])
        1 = some state ∧
      ∃ records, Records.Returns .utf8 state (fun _ => { capacity := 2 }) records ∧
        records.map KeyEvent.unicodeChar = [0xfffd, 0xfffd] ∧
        records.map KeyEvent.unicodeChar ≠
          typedUnits [{ unit := 0xd83d }, { unit := 0xde00 }] := by
  have typed : ∀ key ∈ ([{ unit := 0xd83d }, { unit := 0xde00 }] : List InjectedKey),
      0x20 ≤ key.unit.toNat := by simp
  have holds : ∃ state, readStateOf (inject (.utf8 0) freshConsole 1 {} true
      [{ unit := 0xd83d }, { unit := 0xde00 }]) 1 = some state ∧
        state.handle.decodedInputPending = none ∧ Records.Holds state _ :=
    inject_holds Platform.utf8_replacesLoneSurrogates rfl rfl rfl rfl rfl true typed
  rcases holds with ⟨state, stateOf, held, holds⟩
  rcases Records.exists_returns_text Platform.utf8_decodesUtf8 (fun _ => { capacity := 2 })
    (fun _ => ⟨rfl, rfl, rfl, by decide⟩) holds with ⟨records, returned, units⟩
  have lost : records.map KeyEvent.unicodeChar = [0xfffd, 0xfffd] := by
    rw [units, held]
    decide
  refine ⟨.pair (by decide) ⟨rfl, rfl⟩ .nil, state, stateOf, records, returned, lost, ?_⟩
  rw [lost]
  decide

end InjectedKey

end Conhost
