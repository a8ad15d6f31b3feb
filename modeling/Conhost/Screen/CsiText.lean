import Mathlib.Data.List.Forall2
import Conhost.Lib.Numeral
import Conhost.Screen.ControlString

/-!
# The text of a CSI sequence

The body of a CSI sequence is what stands between its introducer and its final
character: fields of digits, separated by semicolons, and markers. `VtCsiSequence.exact`
is the sequence the body means, with the numbers its digits spell. The parser reads one
with capped numbers instead, and `OutputCall.run_csiText` says that this is all it does.
-/

namespace Conhost

/-- The number above which the parser does not extend a parameter. -/
abbrev paramLimit : Nat := 1000000

/-- The greatest parameter the parser can read. -/
abbrev paramBound : Nat := 10000009

namespace VtCsiSequence

def isSeparator (character : WChar) : Bool := character == wc ';'

def isFinal (character : WChar) : Prop := 0x40 ≤ character ∧ character ≤ 0x7e

instance (character : WChar) : Decidable (isFinal character) :=
  inferInstanceAs (Decidable (_ ∧ _))

/-- The number a field spells; characters other than digits do not count. -/
def fieldValue (field : List WChar) : Nat :=
  Numeral.value 10 ((field.filter VtOutputParseState.isDigit).map fun character =>
    (character - wc '0').toNat)

/-- The numbers of a body. A body without a digit and without a separator has none. -/
def bodyNumbers (body : List WChar) : List Nat :=
  if body.any fun character => VtOutputParseState.isDigit character || isSeparator character then
    (body.splitOnP isSeparator).map fieldValue
  else
    []

/-- The parameters that count: the first sixteen, and a zero for an SGR without any. -/
def boundParams (final : WChar) (numbers : List Nat) : List Nat :=
  if final = wc 'm' ∧ numbers = [] then [0] else numbers.take 16

/-- The sequence that a body and a final character mean. -/
def exact (body : List WChar) (final : WChar) : VtCsiSequence where
  final := final
  privateMarker := decide (wc '?' ∈ body)
  exclamationMarker := decide (wc '!' ∈ body)
  params := boundParams final (bodyNumbers body)

/-- A sequence with capped readings of the parameters of another one. -/
structure StandsFor (csi exact : VtCsiSequence) : Prop where
  final : csi.final = exact.final
  privateMarker : csi.privateMarker = exact.privateMarker
  exclamationMarker : csi.exclamationMarker = exact.exclamationMarker
  params : List.Forall₂ (Numeral.StandsFor paramLimit) csi.params exact.params

end VtCsiSequence

/-- The introducer of a CSI sequence, as ESC and a bracket or as a C1 character. -/
def csiIntroducer (eightBit : Bool) : List WChar := if eightBit then [0x9b] else [0x1b, wc '[']

/-- The text of a CSI sequence. -/
def csiText (eightBit : Bool) (body : List WChar) (final : WChar) : List WChar :=
  csiIntroducer eightBit ++ body ++ [final]

namespace VtOutputParseState

/-- A text that only the parser takes notice of. -/
def Idle (parser : VtOutputParseState) (text : List WChar) : Prop :=
  ∀ action ∈ parser.actions text, action = .nothing

theorem idle_nil {parser : VtOutputParseState} : parser.Idle [] := by
  intro action mem
  cases mem

theorem idle_cons {parser : VtOutputParseState} {character : WChar} {text : List WChar}
    (first : parser.action character = .nothing) (rest : (parser.next character).Idle text) :
    parser.Idle (character :: text) := by
  intro action mem
  rcases List.mem_cons.mp mem with rfl | mem
  · exact first
  · exact rest action mem

theorem idle_append {parser : VtOutputParseState} {first second : List WChar}
    (before : parser.Idle first) (after : (parser.run first).Idle second) :
    parser.Idle (first ++ second) := by
  intro action mem
  rw [actions_append] at mem
  rcases List.mem_append.mp mem with mem | mem
  · exact before action mem
  · exact after action mem

end VtOutputParseState

namespace OutputCall

variable {call : OutputCall}

/-- The loop over a text that only the parser takes notice of. -/
theorem run_idle (vt : call.mode.vtProcessing = true) {state : OutputState} {text : List WChar}
    (idle : state.buffer.vtOutputParseState.Idle text) :
    call.run state text = state.withParser (state.buffer.vtOutputParseState.run text) := by
  induction text generalizing state with
  | nil => rfl
  | cons character text ih =>
      have first : call.step state character =
          state.withParser (state.buffer.vtOutputParseState.next character) := by
        rw [step_eq_perform vt, idle _ List.mem_cons_self]
        rfl
      rw [run_cons, first]
      exact ih fun action mem => idle action (List.mem_cons_of_mem _ mem)

end OutputCall

namespace VtOutputParseState

open VtCsiSequence

/-- The parser inside a CSI sequence after the characters `seen`, the last `field` of
which is still open. -/
structure Collected (parser : VtOutputParseState) (seen : List WChar)
    (closed : List (List WChar)) (field : List WChar) : Prop where
  phase : parser.phase = .csi
  length : parser.csiLength = seen.length
  privateMarker : parser.csi.privateMarker = decide (wc '?' ∈ seen)
  exclamationMarker : parser.csi.exclamationMarker = decide (wc '!' ∈ seen)
  params : List.Forall₂ (Numeral.StandsFor paramLimit) parser.csi.params
    ((closed.map fieldValue).take 16)
  bounded : ∀ param ∈ parser.csi.params, param ≤ paramBound
  current : Numeral.StandsFor paramLimit parser.csiCurrent (fieldValue field)
  currentBounded : parser.csiCurrent ≤ paramBound
  haveDigits : parser.csiHaveDigits = field.any isDigit
  separator : parser.csiLastWasSeparator = (!closed.isEmpty && !field.any isDigit)
  counts : (seen.any fun character => isDigit character || isSeparator character) =
    (field.any isDigit || !closed.isEmpty)

theorem digit_lt {character : WChar} (digit : isDigit character = true) :
    (character - wc '0').toNat < 10 := by
  simp only [isDigit, Bool.and_eq_true, decide_eq_true_eq, UInt16.le_iff_toNat_le] at digit
  have zero : (wc '0').toNat = 48 := rfl
  have nine : (wc '9').toNat = 57 := rfl
  rw [UInt16.toNat_sub_of_le _ _ (UInt16.le_iff_toNat_le.mpr digit.1)]
  omega

theorem fieldValue_digit {field : List WChar} {character : WChar}
    (digit : isDigit character = true) :
    fieldValue (field ++ [character]) =
      Numeral.shift 10 (fieldValue field) (character - wc '0').toNat := by
  simp [fieldValue, Numeral.value, digit]

theorem fieldValue_other {field : List WChar} {character : WChar}
    (noDigit : isDigit character = false) :
    fieldValue (field ++ [character]) = fieldValue field := by
  simp [fieldValue, noDigit]

theorem fieldValue_of_noDigits {field : List WChar} (none : field.any isDigit = false) :
    fieldValue field = 0 := by
  have empty : field.filter isDigit = [] := by simpa using none
  simp [fieldValue, empty, Numeral.value]

/-- A character that is no digit and no separator at most sets a marker. -/
theorem collectCsi_marker {parser : VtOutputParseState} {character : WChar}
    (noDigit : isDigit character = false) (notSeparator : character ≠ wc ';') :
    parser.collectCsi character =
      { parser with
        csi.privateMarker := parser.csi.privateMarker || decide (character = wc '?')
        csi.exclamationMarker :=
          parser.csi.exclamationMarker || decide (character = wc '!') } := by
  unfold collectCsi
  rw [noDigit, if_neg notSeparator]
  by_cases isPrivate : character = wc '?'
  · subst isPrivate
    simp
  by_cases isExclamation : character = wc '!'
  · subst isExclamation
    simp
  · simp only [isPrivate, isExclamation, decide_false, Bool.or_false, if_false]
    rfl

variable {parser : VtOutputParseState} {seen field : List WChar}
  {closed : List (List WChar)} {character : WChar}

namespace Collected

/-- The parameter that closing the field stores. -/
theorem stored (collected : parser.Collected seen closed field) :
    Numeral.StandsFor paramLimit (if parser.csiHaveDigits then parser.csiCurrent else 0)
        (fieldValue field) ∧
      (if parser.csiHaveDigits then parser.csiCurrent else 0) ≤ paramBound := by
  rw [collected.haveDigits]
  split
  · exact ⟨collected.current, collected.currentBounded⟩
  · rename_i none
    rw [fieldValue_of_noDigits (by simpa using none)]
    exact ⟨.refl _ _, by omega⟩

theorem room (collected : parser.Collected seen closed field) :
    parser.csi.params.length < 16 ↔ closed.length < 16 := by
  have lengths := collected.params.length_eq
  simp only [List.length_take, List.length_map] at lengths
  omega

/-- Closing the field stores it among the parameters while there is room. -/
theorem pushed (collected : parser.Collected seen closed field) :
    List.Forall₂ (Numeral.StandsFor paramLimit) parser.pushParam.csi.params
        (((closed ++ [field]).map fieldValue).take 16) ∧
      ∀ param ∈ parser.pushParam.csi.params, param ≤ paramBound := by
  obtain ⟨stands, small⟩ := collected.stored
  unfold pushParam
  split
  · rename_i room
    have few : closed.length < 16 := collected.room.mp room
    have params := collected.params
    rw [List.take_of_length_le (by simp; omega)] at params ⊢
    simp only [List.map_append, List.map_cons, List.map_nil]
    refine ⟨List.rel_append params (.cons stands .nil), ?_⟩
    intro param mem
    rcases List.mem_append.mp mem with mem | mem
    · exact collected.bounded param mem
    · rw [List.mem_singleton.mp mem]
      exact small
  · rename_i full
    have many : 16 ≤ closed.length := not_lt.mp (mt collected.room.mpr full)
    have params := collected.params
    refine ⟨?_, collected.bounded⟩
    rw [List.map_append, List.take_append_of_le_length (by simpa using many)]
    exact params

/-- A separator closes the field. -/
theorem separate (collected : parser.Collected seen closed field) (short : seen.length < 128) :
    (parser.next (wc ';')).Collected (seen ++ [wc ';']) (closed ++ [field]) [] := by
  obtain ⟨params, bounded⟩ := collected.pushed
  have notLong : ¬ 128 ≤ parser.csiLength := by
    rw [collected.length]
    omega
  have stepped : parser.next (wc ';') =
      { parser.pushParam with
        csiLastWasSeparator := true
        csiCurrent := 0
        csiHaveDigits := false
        csiLength := parser.csiLength + 1 } := by
    simp only [next, collected.phase]
    rw [if_neg (by simp only [notLong, false_or]; decide)]
    rfl
  have kept : parser.pushParam.phase = .csi ∧
      parser.pushParam.csi.privateMarker = parser.csi.privateMarker ∧
      parser.pushParam.csi.exclamationMarker = parser.csi.exclamationMarker := by
    unfold pushParam
    split
    · exact ⟨collected.phase, rfl, rfl⟩
    · exact ⟨collected.phase, rfl, rfl⟩
  rw [stepped]
  exact {
    phase := kept.1
    length := by simp [collected.length]
    privateMarker := by
      rw [kept.2.1, collected.privateMarker]
      simp [wc]
    exclamationMarker := by
      rw [kept.2.2, collected.exclamationMarker]
      simp [wc]
    params := params
    bounded := bounded
    current := .refl _ _
    currentBounded := Nat.zero_le _
    haveDigits := rfl
    separator := by simp
    counts := by simp [isSeparator] }

/-- Any other character that is not final belongs to the field. -/
theorem extend (collected : parser.Collected seen closed field) (short : seen.length < 128)
    (notFinal : ¬ isFinal character) (notSeparator : character ≠ wc ';') :
    (parser.next character).Collected (seen ++ [character]) closed (field ++ [character]) := by
  have notLong : ¬ 128 ≤ parser.csiLength := by
    rw [collected.length]
    omega
  have stepped : parser.next character =
      { parser.collectCsi character with csiLength := parser.csiLength + 1 } := by
    simp only [next, collected.phase]
    exact if_neg (by rintro (long | final); exacts [notLong long, notFinal final])
  have length : parser.csiLength + 1 = (seen ++ [character]).length := by
    simp [collected.length]
  rw [stepped]
  by_cases digit : isDigit character = true
  · have marker (control : WChar) (noDigit : isDigit control = false) :
        decide (control ∈ seen ++ [character]) = decide (control ∈ seen) := by
      have differs : control ≠ character := by
        rintro rfl
        rw [digit] at noDigit
        cases noDigit
      simp [differs]
    have bounded : parser.csiCurrent ≤ paramLimit * 10 + (10 - 1) := collected.currentBounded
    simp only [collectCsi, if_pos digit]
    exact {
      phase := collected.phase
      length := length
      privateMarker := collected.privateMarker.trans (marker _ (by decide)).symm
      exclamationMarker := collected.exclamationMarker.trans (marker _ (by decide)).symm
      params := collected.params
      bounded := collected.bounded
      current := by
        rw [fieldValue_digit digit]
        exact collected.current.shift (by omega) _
      currentBounded := Numeral.cappedShift_le (digit_lt digit) bounded
      haveDigits := by simp [digit]
      separator := by simp [digit]
      counts := by simp [digit] }
  · have noDigit : isDigit character = false := by simpa using digit
    have digits : (field ++ [character]).any isDigit = field.any isDigit := by simp [noDigit]
    rw [collectCsi_marker noDigit notSeparator]
    exact {
      phase := collected.phase
      length := length
      privateMarker := by
        rw [collected.privateMarker]
        simp [eq_comm]
      exclamationMarker := by
        rw [collected.exclamationMarker]
        simp [eq_comm]
      params := collected.params
      bounded := collected.bounded
      current := by
        rw [fieldValue_other noDigit]
        exact collected.current
      currentBounded := collected.currentBounded
      haveDigits := collected.haveDigits.trans digits.symm
      separator := by
        rw [digits]
        exact collected.separator
      counts := by
        have joins : isSeparator character = false := beq_eq_false_iff_ne.mpr notSeparator
        rw [digits, ← collected.counts]
        simp [noDigit, joins] }

/-- A text without final characters is collected, and nothing is dispatched. -/
theorem collect {text : List WChar} (collected : parser.Collected seen closed field)
    (short : seen.length + text.length ≤ 128) (notFinal : ∀ character ∈ text, ¬ isFinal character) :
    parser.Idle text ∧ ∃ closed' field',
      closed ++ List.splitOnPPrepend isSeparator text field.reverse = closed' ++ [field'] ∧
        (parser.run text).Collected (seen ++ text) closed' field' := by
  induction text generalizing parser seen closed field with
  | nil =>
      refine ⟨idle_nil, closed, field, by simp, ?_⟩
      rw [List.append_nil]
      exact collected
  | cons character text ih =>
      have roomHere : seen.length < 128 := by
        rw [List.length_cons] at short
        omega
      have roomThen : (seen ++ [character]).length + text.length ≤ 128 := by
        rw [List.length_cons] at short
        rw [List.length_append, List.length_singleton]
        omega
      have notHere : ¬ isFinal character := notFinal character List.mem_cons_self
      have notThen : ∀ other ∈ text, ¬ isFinal other :=
        fun other mem => notFinal other (List.mem_cons_of_mem _ mem)
      have idle : parser.action character = .nothing := by
        have noDispatch : ¬ (parser.csiLength < 128 ∧ 0x40 ≤ character ∧ character ≤ 0x7e) :=
          fun dispatch => notHere dispatch.2
        simp only [action, collected.phase, if_neg noDispatch]
      rw [show seen ++ character :: text = (seen ++ [character]) ++ text by simp]
      by_cases isSep : character = wc ';'
      · subst isSep
        obtain ⟨rest, closed', field', split, done⟩ :=
          ih (collected.separate roomHere) roomThen notThen
        refine ⟨idle_cons idle rest, closed', field', ?_, done⟩
        have separates : isSeparator (wc ';') = true := rfl
        rw [List.splitOnPPrepend_cons_pos separates, List.reverse_reverse, ← split]
        simp
      · obtain ⟨rest, closed', field', split, done⟩ :=
          ih (collected.extend roomHere notHere isSep) roomThen notThen
        refine ⟨idle_cons idle rest, closed', field', ?_, done⟩
        have joins : isSeparator character = false := beq_eq_false_iff_ne.mpr isSep
        rw [List.splitOnPPrepend_cons_neg joins, ← split]
        simp

/-- The parameters that are stored when a final character arrives. -/
theorem finished (collected : parser.Collected seen closed field)
    (split : seen.splitOnP isSeparator = closed ++ [field]) :
    let stored := if parser.csiHaveDigits || parser.csiLastWasSeparator then parser.pushParam
      else parser
    List.Forall₂ (Numeral.StandsFor paramLimit) stored.csi.params ((bodyNumbers seen).take 16) ∧
      ∀ param ∈ stored.csi.params, param ≤ paramBound := by
  have pending : (parser.csiHaveDigits || parser.csiLastWasSeparator) =
      (field.any isDigit || !closed.isEmpty) := by
    rw [collected.haveDigits, collected.separator]
    cases field.any isDigit <;> simp
  unfold bodyNumbers
  rw [pending, collected.counts, split]
  dsimp only
  split
  · exact collected.pushed
  · rename_i none
    obtain ⟨-, isEmpty⟩ : field.any isDigit = false ∧ closed.isEmpty = true := by simpa using none
    have empty : closed = [] := List.isEmpty_iff.mp isEmpty
    have params := collected.params
    rw [empty] at params
    exact ⟨params, collected.bounded⟩

/-- The sequence that a final character dispatches. -/
theorem finish (collected : parser.Collected seen closed field)
    (split : seen.splitOnP isSeparator = closed ++ [field]) (final : WChar) :
    (parser.finishCsi final).StandsFor (exact seen final) ∧
      ∀ param ∈ (parser.finishCsi final).params, param ≤ paramBound := by
  obtain ⟨params, bounded⟩ := collected.finished split
  have markers : (if parser.csiHaveDigits || parser.csiLastWasSeparator then parser.pushParam
        else parser).csi.privateMarker = parser.csi.privateMarker ∧
      (if parser.csiHaveDigits || parser.csiLastWasSeparator then parser.pushParam
        else parser).csi.exclamationMarker = parser.csi.exclamationMarker := by
    unfold pushParam
    split_ifs <;> exact ⟨rfl, rfl⟩
  have none : (bodyNumbers seen).take 16 = [] ↔ bodyNumbers seen = [] := by simp
  unfold finishCsi
  dsimp only at params bounded ⊢
  generalize (if parser.csiHaveDigits || parser.csiLastWasSeparator then parser.pushParam
    else parser) = stored at params bounded markers ⊢
  have bare : stored.csi.params = [] ↔ bodyNumbers seen = [] := by
    rw [← none]
    constructor
    · intro empty
      rw [empty] at params
      exact List.forall₂_nil_left_iff.mp params
    · intro empty
      rw [empty] at params
      exact List.forall₂_nil_right_iff.mp params
  have privateMarker := markers.1.trans collected.privateMarker
  have exclamationMarker := markers.2.trans collected.exclamationMarker
  by_cases defaults : final = wc 'm' ∧ stored.csi.params = []
  · rw [if_pos defaults]
    refine ⟨⟨rfl, privateMarker, exclamationMarker, ?_⟩, ?_⟩
    · simp only [exact, boundParams, if_pos (And.imp_right bare.mp defaults)]
      exact .cons (.refl _ _) .nil
    · simp
  · rw [if_neg defaults]
    refine ⟨⟨rfl, privateMarker, exclamationMarker, ?_⟩, bounded⟩
    simp only [exact, boundParams, if_neg (mt (And.imp_right bare.mpr) defaults)]
    exact params

end Collected

/-- An introducer, a C1 character or ESC and a second character, opens a sequence. -/
theorem idle_introduced (phase : parser.phase = .ground) {short second : WChar}
    {opened : VtOutputParseState → Prop}
    (byShort : parser.action short = .nothing ∧ opened (parser.next short))
    (bySecond : ∀ before : VtOutputParseState, before.phase = .escape →
      before.action second = .nothing ∧ opened (before.next second)) (eightBit : Bool) :
    parser.Idle (if eightBit then [short] else [0x1b, second]) ∧
      opened (parser.run (if eightBit then [short] else [0x1b, second])) := by
  cases eightBit with
  | true => exact ⟨idle_cons byShort.1 idle_nil, byShort.2⟩
  | false =>
      have escaped : parser.next 0x1b = { parser with phase := .escape } := by
        simp [next, phase, groundNext]
      obtain ⟨idle, opens⟩ := bySecond (parser.next 0x1b) (by rw [escaped])
      refine ⟨idle_cons ?_ (idle_cons idle idle_nil), opens⟩
      simp [action, phase, groundAction]

/-- The parser right after the introducer. -/
theorem collected_introducer (phase : parser.phase = .ground) (eightBit : Bool) :
    parser.Idle (csiIntroducer eightBit) ∧
      (parser.run (csiIntroducer eightBit)).Collected [] [] [] := by
  have opened (before : VtOutputParseState) : (before.restartCsi .csi).Collected [] [] [] := by
    exact {
      phase := rfl
      length := rfl
      privateMarker := rfl
      exclamationMarker := rfl
      params := .nil
      bounded := by simp [restartCsi]
      current := .refl _ _
      currentBounded := Nat.zero_le _
      haveDigits := rfl
      separator := rfl
      counts := rfl }
  refine @idle_introduced _ phase _ _ (Collected · [] [] []) ?_ ?_ eightBit
  · simp [action, next, phase, groundAction, groundNext, opened]
  · intro before escaped
    simp [action, next, escaped, escapeAction, escapeNext, opened]

end VtOutputParseState

namespace OutputCall

open VtCsiSequence VtOutputParseState

variable {call : OutputCall}

/-- A CSI sequence is applied with capped readings of the numbers of its text. -/
theorem run_csiText (vt : call.mode.vtProcessing = true) {state : OutputState}
    (phase : state.buffer.vtOutputParseState.phase = .ground) (eightBit : Bool)
    {body : List WChar} (short : body.length < 128)
    (plain : ∀ character ∈ body, ¬ isFinal character)
    {final : WChar} (ends : isFinal final) :
    let csi :=
      (state.buffer.vtOutputParseState.run (csiIntroducer eightBit ++ body)).finishCsi final
    ∃ parser : VtOutputParseState, csi.StandsFor (exact body final) ∧
      (∀ param ∈ csi.params, param ≤ paramBound) ∧ parser.phase = .ground ∧
      call.run state (csiText eightBit body final) =
        (call.applyCsi csi state).withParser parser := by
  obtain ⟨opens, opened⟩ := collected_introducer phase eightBit
  obtain ⟨collects, closed, field, split, collected⟩ :=
    opened.collect (by rw [List.length_nil]; omega) plain
  rw [List.nil_append, List.reverse_nil, List.splitOnPPrepend_nil_right] at split
  rw [List.nil_append] at collected
  have idle : state.buffer.vtOutputParseState.Idle (csiIntroducer eightBit ++ body) :=
    idle_append opens collects
  rw [← VtOutputParseState.run_append] at collected
  generalize parsed : state.buffer.vtOutputParseState.run (csiIntroducer eightBit ++ body) = parser
    at collected ⊢
  obtain ⟨stands, bounded⟩ := collected.finish split final
  have dispatch : parser.csiLength < 128 ∧ 0x40 ≤ final ∧ final ≤ 0x7e := by
    rw [collected.length]
    exact ⟨short, ends⟩
  refine ⟨parser.restartCsi .ground, stands, bounded, rfl, ?_⟩
  unfold csiText
  rw [run_append, run_idle vt idle, parsed]
  have last : call.run (state.withParser parser) [final] =
      call.step (state.withParser parser) final := rfl
  have action : parser.action final = .sequence (parser.finishCsi final) := by
    simp only [VtOutputParseState.action, collected.phase, if_pos dispatch]
  have next : parser.next final = parser.restartCsi .ground := by
    simp only [VtOutputParseState.next, collected.phase]
    exact if_pos (.inr ends)
  rw [last, step_eq_perform vt]
  have same : (state.withParser parser).buffer.vtOutputParseState = parser := rfl
  rw [same, action, next, perform_withParser]
  rfl

end OutputCall

end Conhost
