import Conhost.Lib.FixedArray
import Conhost.Lib.Loop
import Conhost.Screen.Pieces
import Conhost.Screen.Parser
import Mathlib.Data.List.Induction

/-!
# The parser with its arrays

`VtOutputParseState` with the arrays and counters of the source, and the character loop with its
offset. A write outside an array is a failure of the loop. It is shown that no text written in
any order and mode makes the loop fail, that it looks at no character more than twice, and that
it computes what the parser on lists does.
-/

namespace Conhost

/-- `VtCsiSequence` -/
structure ArrayCsi where
  final : WChar := 0
  privateMarker : Bool := false
  exclamationMarker : Bool := false
  params : FixedArray Nat 16 := .filled 0

/-- `VtOutputParseState` -/
structure ArrayParser where
  phase : VtPhase := .ground
  escIntermediates : FixedArray WChar 8 := .filled 0
  escLength : Nat := 0
  csi : ArrayCsi := {}
  csiCurrent : Nat := 0
  csiHaveDigits : Bool := false
  csiLastWasSeparator : Bool := false
  csiLength : Nat := 0
  oscParam : Nat := 0
  oscParamHaveDigits : Bool := false
  oscInParam : Bool := true
  oscAction : Nat := 0
  oscCapturePayload : Bool := false
  oscPayload : FixedArray WChar 4096 := .filled 0

/-- What an iteration does with a character if VT processing is on -/
inductive Look where
  | consumed (parser : ArrayParser) (action : VtAction)
  | again (parser : ArrayParser)

/-- The sequence that `apply_csi` reads -/
def ArrayCsi.sequence? (csi : ArrayCsi) : Option VtCsiSequence :=
  csi.params.view?.map fun params =>
    ⟨csi.final, csi.privateMarker, csi.exclamationMarker, params⟩

namespace ArrayParser

variable (parser : ArrayParser)

def restartEscape (phase : VtPhase) : ArrayParser :=
  { parser with phase := phase, escIntermediates := parser.escIntermediates.clear, escLength := 0 }

def restartCsi (phase : VtPhase) : ArrayParser :=
  { parser with
    phase := phase
    csi := {}
    csiCurrent := 0
    csiHaveDigits := false
    csiLastWasSeparator := false
    csiLength := 0 }

def restartOsc (phase : VtPhase) : ArrayParser :=
  { parser with
    phase := phase
    oscParam := 0
    oscParamHaveDigits := false
    oscInParam := true
    oscAction := 0
    oscCapturePayload := false
    oscPayload := parser.oscPayload.clear }

/-- `Phase::escape` -/
def escape (character : WChar) : Option Look :=
  let ended := parser.restartEscape .ground
  if character = wc '[' then some (.consumed (ended.restartCsi .csi) .nothing)
  else if character = wc ']' then some (.consumed (ended.restartOsc .osc) .nothing)
  else if character = wc 'P' ∨ character = wc '^' ∨ character = wc '_' ∨ character = wc 'X' then
    some (.consumed { ended with phase := .string } .nothing)
  else if character = wc '7' then some (.consumed ended .saveCursor)
  else if character = wc '8' then some (.consumed ended .restoreCursor)
  else if character = wc 'D' then some (.consumed ended .lineFeed)
  else if character = wc 'M' then some (.consumed ended .reverseLineFeed)
  else if character = wc 'E' then some (.consumed ended .advanceLine)
  else if character = wc 'c' then some (.consumed ended .hardReset)
  else if character = wc '\\' then some (.consumed ended .nothing)
  else if 0x20 ≤ character ∧ character ≤ 0x2f then
    (ended.escIntermediates.push? character).map fun intermediates =>
      .consumed
        { ended with phase := .escDispatch, escIntermediates := intermediates, escLength := 1 }
        .nothing
  else some (.consumed ended .nothing)

/-- `Phase::esc_dispatch` -/
def escapeDispatch (character : WChar) : Option Look :=
  if 0x20 ≤ character ∧ character ≤ 0x2f then
    let pushed :=
      if parser.escIntermediates.count < 8 then parser.escIntermediates.push? character
      else some parser.escIntermediates
    pushed.map fun intermediates =>
      let pushed :=
        { parser with escIntermediates := intermediates, escLength := parser.escLength + 1 }
      .consumed (if 16 ≤ pushed.escLength then pushed.restartEscape .ground else pushed) .nothing
  else if 0x30 ≤ character ∧ character ≤ 0x7e then
    let action :=
      if parser.escIntermediates.count = 1 ∧ parser.escIntermediates.entries[0] = wc '#' ∧
          character = wc '8' then .screenAlignment
      else .nothing
    some (.consumed (parser.restartEscape .ground) action)
  else some (.consumed (parser.restartEscape .ground) .nothing)

/-- `params[param_count++]` with the number that was collected -/
def pushParam? : Option ArrayParser :=
  (parser.csi.params.push? (if parser.csiHaveDigits then parser.csiCurrent else 0)).map
    fun params => { parser with csi.params := params }

/-- The parameters of a sequence at its final character -/
def finishCsi (final : WChar) : Option ArrayParser :=
  let pushed :=
    if parser.csiHaveDigits ∨ parser.csiLastWasSeparator then
      if parser.csi.params.count < 16 then parser.pushParam? else some parser
    else some parser
  pushed.bind fun pushed =>
    let finished := { pushed with csi.final := final }
    if final = wc 'm' ∧ finished.csi.params.count = 0 then
      (finished.csi.params.push? 0).map fun params => { finished with csi.params := params }
    else some finished

/-- `Phase::csi` -/
def csiCharacter (character : WChar) : Option Look :=
  let counted := { parser with csiLength := parser.csiLength + 1 }
  if 128 ≤ parser.csiLength then some (.consumed (counted.restartCsi .ground) .nothing)
  else if VtOutputParseState.isDigit character then
    some (.consumed
      { counted with
        csiHaveDigits := true
        csiLastWasSeparator := false
        csiCurrent := VtOutputParseState.appendDigit parser.csiCurrent character }
      .nothing)
  else if character = wc '?' then
    some (.consumed { counted with csi.privateMarker := true } .nothing)
  else if character = wc '!' then
    some (.consumed { counted with csi.exclamationMarker := true } .nothing)
  else if character = wc ';' then
    let separated := { counted with csiLastWasSeparator := true }
    let pushed :=
      if separated.csi.params.count < 16 then separated.pushParam? else some separated
    pushed.map fun pushed =>
      .consumed { pushed with csiCurrent := 0, csiHaveDigits := false } .nothing
  else if 0x40 ≤ character ∧ character ≤ 0x7e then
    (counted.finishCsi character).bind fun finished =>
      finished.csi.sequence?.map fun sequence =>
        .consumed (finished.restartCsi .ground) (.sequence sequence)
  else some (.consumed counted .nothing)

/-- The terminator of an OSC sequence -/
def finishOsc : Option Look :=
  if parser.oscCapturePayload ∧ (parser.oscAction = 0 ∨ parser.oscAction = 1 ∨
      parser.oscAction = 2 ∨ parser.oscAction = 21) then
    parser.oscPayload.view?.map fun payload =>
      .consumed (parser.restartOsc .ground) (.setTitle payload)
  else some (.consumed (parser.restartOsc .ground) .nothing)

/-- `Phase::osc` -/
def oscCharacter (character : WChar) : Option Look :=
  if parser.oscInParam then
    if VtOutputParseState.isDigit character then
      some (.consumed
        { parser with
          oscParamHaveDigits := true
          oscParam := VtOutputParseState.appendDigit parser.oscParam character }
        .nothing)
    else if character = wc ';' then
      let action := if parser.oscParamHaveDigits then parser.oscParam else 0
      some (.consumed
        { parser with
          oscAction := action
          oscCapturePayload := action = 0 ∨ action = 1 ∨ action = 2 ∨ action = 21
          oscInParam := false
          oscPayload := parser.oscPayload.clear }
        .nothing)
    else some (.consumed (parser.restartOsc .ground) .nothing)
  else if character = 0x07 ∨ character = 0x9c then parser.finishOsc
  else if character = 0x1b then some (.consumed { parser with phase := .oscEscape } .nothing)
  else if parser.oscCapturePayload ∧ parser.oscPayload.count < 4096 then
    (parser.oscPayload.push? character).map fun payload =>
      .consumed { parser with oscPayload := payload } .nothing
  else some (.consumed parser .nothing)

/-- `Phase::string` -/
def stringCharacter (character : WChar) : Look :=
  if character = 0x9c then .consumed { parser with phase := .ground } .nothing
  else if character = 0x1b then .consumed { parser with phase := .stringEscape } .nothing
  else .consumed parser .nothing

/-- `Phase::ground` -/
def groundCharacter (character : WChar) : Look :=
  if character = 0x1b then .consumed { parser with phase := .escape } .nothing
  else if character = 0x9b then .consumed (parser.restartCsi .csi) .nothing
  else if character = 0x9d then .consumed (parser.restartOsc .osc) .nothing
  else if character = 0x9c then .consumed parser .nothing
  else if character = 0x90 ∨ character = 0x98 ∨ character = 0x9e ∨ character = 0x9f then
    .consumed { parser with phase := .string } .nothing
  else .consumed parser (.text character)

/-- The `switch` over the phase -/
def look (character : WChar) : Option Look :=
  match parser.phase with
  | .escape => parser.escape character
  | .escDispatch => parser.escapeDispatch character
  | .csi => parser.csiCharacter character
  | .osc => parser.oscCharacter character
  | .oscEscape =>
      if character = wc '\\' then parser.finishOsc
      else some (.again { parser with phase := .osc })
  | .string => some (parser.stringCharacter character)
  | .stringEscape =>
      if character = wc '\\' then some (.consumed { parser with phase := .ground } .nothing)
      else some (.again { parser with phase := .string })
  | .ground => some (parser.groundCharacter character)

/-- The parser in which a call starts its loop -/
def started (mode : OutputMode) : ArrayParser := if mode.vtProcessing then parser else {}

end ArrayParser

structure ParserLoop where
  offset : Nat := 0
  parser : ArrayParser
  screen : OutputState

/-- An iteration of the character loop; the loop is left with nothing if it writes or reads
outside an array. -/
def parserPass (call : OutputCall) (text : List WChar) (loop : ParserLoop) :
    Pass ParserLoop (Option ParserLoop) :=
  if inside : loop.offset < text.length then
    let character := text[loop.offset]
    if call.mode.vtProcessing then
      match loop.parser.look character with
      | none => .leave none
      | some (.again parser) => .next { loop with parser := parser }
      | some (.consumed parser action) =>
          .next ⟨loop.offset + 1, parser, call.perform loop.screen action⟩
    else .next ⟨loop.offset + 1, loop.parser, call.textCharacter loop.screen character⟩
  else .leave (some loop)

/-- The sequence with the parameters in use -/
def ArrayCsi.sequence (csi : ArrayCsi) : VtCsiSequence :=
  ⟨csi.final, csi.privateMarker, csi.exclamationMarker, csi.params.contents⟩

namespace ArrayParser

/-- The parser with the entries in use -/
def toLists (parser : ArrayParser) : VtOutputParseState where
  phase := parser.phase
  escIntermediates := parser.escIntermediates.contents
  escLength := parser.escLength
  csi := parser.csi.sequence
  csiCurrent := parser.csiCurrent
  csiHaveDigits := parser.csiHaveDigits
  csiLastWasSeparator := parser.csiLastWasSeparator
  csiLength := parser.csiLength
  oscParam := parser.oscParam
  oscParamHaveDigits := parser.oscParamHaveDigits
  oscInParam := parser.oscInParam
  oscAction := parser.oscAction
  oscCapturePayload := parser.oscCapturePayload
  oscPayload := parser.oscPayload.contents

/-- No counter is beyond its array. -/
structure InBounds (parser : ArrayParser) : Prop where
  escIntermediates : parser.escIntermediates.InBounds
  params : parser.csi.params.InBounds
  oscPayload : parser.oscPayload.InBounds

theorem inBounds_start : ({} : ArrayParser).InBounds :=
  ⟨FixedArray.inBounds_filled 0, FixedArray.inBounds_filled 0, FixedArray.inBounds_filled 0⟩

variable {parser : ArrayParser}

namespace InBounds

theorem started (inside : parser.InBounds) (mode : OutputMode) :
    (parser.started mode).InBounds := by
  unfold ArrayParser.started
  split
  · exact inside
  · exact inBounds_start

theorem restartEscape (inside : parser.InBounds) (phase : VtPhase) :
    (parser.restartEscape phase).InBounds :=
  ⟨FixedArray.inBounds_clear _, inside.params, inside.oscPayload⟩

theorem restartCsi (inside : parser.InBounds) (phase : VtPhase) :
    (parser.restartCsi phase).InBounds :=
  ⟨inside.escIntermediates, FixedArray.inBounds_filled 0, inside.oscPayload⟩

theorem restartOsc (inside : parser.InBounds) (phase : VtPhase) :
    (parser.restartOsc phase).InBounds :=
  ⟨inside.escIntermediates, inside.params, FixedArray.inBounds_clear _⟩

end InBounds

end ArrayParser

/-- A look that takes the character, to a parser inside its arrays -/
inductive Look.Yields (next : VtOutputParseState) (action : VtAction) : Option Look → Prop where
  | consumed {parser : ArrayParser} (inside : parser.InBounds) (same : parser.toLists = next) :
      Yields next action (some (.consumed parser action))

namespace ArrayParser

variable {parser : ArrayParser}

theorem escape_yields (inside : parser.InBounds) (character : WChar) :
    Look.Yields (parser.toLists.escapeNext character)
      (VtOutputParseState.escapeAction character) (parser.escape character) := by
  have ended := inside.restartEscape .ground
  by_cases isBracket : character = wc '['
  · subst isBracket
    exact .consumed (ended.restartCsi .csi) rfl
  by_cases isOsc : character = wc ']'
  · subst isOsc
    exact .consumed (ended.restartOsc .osc) rfl
  by_cases isString :
      character = wc 'P' ∨ character = wc '^' ∨ character = wc '_' ∨ character = wc 'X'
  · rcases isString with rfl | rfl | rfl | rfl <;>
      exact .consumed ⟨ended.1, ended.2, ended.3⟩ rfl
  by_cases isFinal : character = wc '7' ∨ character = wc '8' ∨ character = wc 'D' ∨
      character = wc 'M' ∨ character = wc 'E' ∨ character = wc 'c' ∨ character = wc '\\'
  · rcases isFinal with rfl | rfl | rfl | rfl | rfl | rfl | rfl <;> exact .consumed ended rfl
  simp only [not_or] at isFinal
  simp only [escape, VtOutputParseState.escapeNext, VtOutputParseState.escapeAction,
    if_neg isBracket, if_neg isOsc, if_neg isString, isFinal, if_false]
  split
  · have room : (parser.restartEscape .ground).escIntermediates.count < 8 := Nat.zero_lt_succ 7
    obtain ⟨pushed, written, within, contents⟩ := FixedArray.exists_push? room character
    rw [written]
    refine .consumed ⟨within, ended.params, ended.oscPayload⟩ ?_
    simp only [toLists, contents]
    rfl
  · exact .consumed ended rfl

theorem escapeDispatch_yields (inside : parser.InBounds) (phase : parser.phase = .escDispatch)
    (character : WChar) :
    Look.Yields (parser.toLists.next character) (parser.toLists.action character)
      (parser.escapeDispatch character) := by
  have phase' : parser.toLists.phase = .escDispatch := phase
  simp only [VtOutputParseState.next, VtOutputParseState.action, phase']
  have single : parser.escIntermediates.contents = [wc '#'] ↔ _ :=
    FixedArray.contents_eq_singleton inside.escIntermediates (Nat.zero_lt_succ 7)
  have lists : parser.toLists.escIntermediates = parser.escIntermediates.contents := rfl
  simp only [lists, single]
  by_cases intermediate : 0x20 ≤ character ∧ character ≤ 0x2f
  · have other : character ≠ wc '8' := by
      rintro rfl
      exact absurd intermediate (by decide)
    obtain ⟨next, written, within, contents⟩ :=
      inside.escIntermediates.exists_push?_of_room character
    simp only [if_pos intermediate, other, and_false, if_false, escapeDispatch, written,
      Option.map_some, VtOutputParseState.pushIntermediate]
    have length : parser.toLists.escLength = parser.escLength := rfl
    rw [length]
    by_cases long : 16 ≤ parser.escLength + 1
    · rw [if_pos long, if_pos long]
      refine .consumed ⟨FixedArray.inBounds_clear _, inside.params, inside.oscPayload⟩ ?_
      split <;> rfl
    · rw [if_neg long, if_neg long]
      refine .consumed ⟨within, inside.params, inside.oscPayload⟩ ?_
      simp only [toLists, contents]
      by_cases room : parser.escIntermediates.contents.length < 8 <;>
        simp only [room, if_true, if_false]
  · simp only [escapeDispatch, if_neg intermediate, and_assoc]
    by_cases final : 0x30 ≤ character ∧ character ≤ 0x7e
    · rw [if_pos final]
      exact .consumed (inside.restartEscape .ground) rfl
    · have other : character ≠ wc '8' := by
        rintro rfl
        exact final (by decide)
      simp only [if_neg final, other, and_false, if_false]
      exact .consumed (inside.restartEscape .ground) rfl

theorem exists_pushParam (inside : parser.InBounds) :
    ∃ pushed, (if parser.csi.params.count < 16 then parser.pushParam? else some parser) =
        some pushed ∧ pushed.InBounds ∧ pushed.toLists = parser.toLists.pushParam := by
  obtain ⟨params, written, within, contents⟩ := inside.params.exists_push?_of_room
    (if parser.csiHaveDigits then parser.csiCurrent else 0)
  refine ⟨{ parser with csi.params := params }, ?_, ?_, ?_⟩
  · have store : (if parser.csi.params.count < 16 then parser.pushParam? else some parser) =
        (if parser.csi.params.count < 16 then
            parser.csi.params.push? (if parser.csiHaveDigits then parser.csiCurrent else 0)
          else some parser.csi.params).map fun params => { parser with csi.params := params } := by
      split <;> rfl
    rw [store, written, Option.map_some]
  · exact ⟨inside.escIntermediates, within, inside.oscPayload⟩
  · simp only [toLists, ArrayCsi.sequence, contents, VtOutputParseState.pushParam]
    by_cases room : parser.csi.params.contents.length < 16
    · simp only [room, if_true]
      rfl
    · simp only [room, if_false]

/-- The implicit parameter of SGR is written only where there is none. -/
theorem exists_implicitParam (inside : parser.InBounds) (final : WChar) :
    ∃ finished,
      (if final = wc 'm' ∧ parser.csi.params.count = 0 then
        (parser.csi.params.push? 0).map fun params =>
          { parser with csi.final := final, csi.params := params }
      else some { parser with csi.final := final }) = some finished ∧
      finished.InBounds ∧
      finished.csi.sequence =
        (if final = wc 'm' ∧ parser.csi.params.contents = [] then
          { parser.csi.sequence with final := final, params := [0] }
        else { parser.csi.sequence with final := final }) ∧
      (finished.restartCsi .ground).toLists = parser.toLists.restartCsi .ground := by
  have empty : parser.csi.params.contents = [] ↔ parser.csi.params.count = 0 := by
    rw [← List.length_eq_zero_iff, inside.params.length_contents]
  simp only [empty]
  by_cases implicit : final = wc 'm' ∧ parser.csi.params.count = 0
  · have room : parser.csi.params.count < 16 := by omega
    obtain ⟨params, written, within, contents⟩ := FixedArray.exists_push? room 0
    rw [empty.mpr implicit.2] at contents
    rw [if_pos implicit, if_pos implicit, written]
    refine ⟨_, rfl, ⟨inside.escIntermediates, within, inside.oscPayload⟩, ?_, rfl⟩
    simp only [ArrayCsi.sequence, contents, List.nil_append]
  · rw [if_neg implicit, if_neg implicit]
    exact ⟨_, rfl, ⟨inside.escIntermediates, inside.params, inside.oscPayload⟩, rfl, rfl⟩

theorem restartCsi_pushParam (lists : VtOutputParseState) (phase : VtPhase) :
    lists.pushParam.restartCsi phase = lists.restartCsi phase := by
  unfold VtOutputParseState.pushParam
  split <;> rfl

/-- The length of a sequence is not part of it. -/
theorem finishCsi_length (lists : VtOutputParseState) (length : Nat) (final : WChar) :
    { lists with csiLength := length }.finishCsi final = lists.finishCsi final := by
  simp only [VtOutputParseState.finishCsi, VtOutputParseState.pushParam]
  by_cases explicit : (lists.csiHaveDigits || lists.csiLastWasSeparator) = true
  · simp only [explicit, if_true]
    split <;> rfl
  · simp only [explicit, if_false, Bool.false_eq_true]

theorem finishCsi_yields (inside : parser.InBounds) (final : WChar) :
    ∃ finished, parser.finishCsi final = some finished ∧ finished.InBounds ∧
      finished.csi.sequence? = some (parser.toLists.finishCsi final) ∧
      (finished.restartCsi .ground).toLists = parser.toLists.restartCsi .ground := by
  have sequence? {finished : ArrayParser} (within : finished.InBounds) :
      finished.csi.sequence? = some finished.csi.sequence := by
    rw [ArrayCsi.sequence?, within.params.view?_eq]
    rfl
  by_cases explicit : parser.csiHaveDigits ∨ parser.csiLastWasSeparator
  · obtain ⟨pushed, stored, kept, lists⟩ := exists_pushParam inside
    obtain ⟨finished, written, within, sequence, rest⟩ := exists_implicitParam kept final
    refine ⟨finished, ?_, within, ?_, ?_⟩
    · simp only [finishCsi, if_pos explicit, stored, Option.bind_some]
      exact written
    · rw [sequence? within, sequence]
      have some : (parser.toLists.csiHaveDigits || parser.toLists.csiLastWasSeparator) = true := by
        rw [Bool.or_eq_true]
        exact explicit
      simp only [VtOutputParseState.finishCsi, some, if_true, ← lists]
      rfl
    · rw [rest, lists, restartCsi_pushParam]
  · obtain ⟨finished, written, within, sequence, rest⟩ := exists_implicitParam inside final
    refine ⟨finished, ?_, within, ?_, rest⟩
    · simp only [finishCsi, if_neg explicit, Option.bind_some]
      exact written
    · rw [sequence? within, sequence]
      have none : (parser.toLists.csiHaveDigits || parser.toLists.csiLastWasSeparator) = false := by
        rw [← Bool.not_eq_true, Bool.or_eq_true]
        exact explicit
      simp only [VtOutputParseState.finishCsi, none, Bool.false_eq_true, if_false]
      rfl

theorem csiCharacter_yields (inside : parser.InBounds) (phase : parser.phase = .csi)
    (character : WChar) :
    Look.Yields (parser.toLists.next character) (parser.toLists.action character)
      (parser.csiCharacter character) := by
  have phase' : parser.toLists.phase = .csi := phase
  have length : parser.toLists.csiLength = parser.csiLength := rfl
  simp only [VtOutputParseState.next, VtOutputParseState.action, phase', length]
  by_cases long : 128 ≤ parser.csiLength
  · simp only [csiCharacter, long, true_or, if_true, Nat.not_lt.mpr long, false_and,
      if_false]
    exact .consumed (inside.restartCsi .ground) rfl
  · have short : parser.csiLength < 128 := Nat.not_le.mp long
    simp only [long, short, false_or, true_and]
    by_cases final : 0x40 ≤ character ∧ character ≤ 0x7e
    · have counted : InBounds { parser with csiLength := parser.csiLength + 1 } :=
        ⟨inside.escIntermediates, inside.params, inside.oscPayload⟩
      obtain ⟨finished, stored, within, sequence, lists⟩ := finishCsi_yields counted character
      have digit : VtOutputParseState.isDigit character = false := by
        rw [VtOutputParseState.isDigit, Bool.and_eq_false_iff, decide_eq_false_iff_not,
          decide_eq_false_iff_not]
        exact .inr (UInt16.not_le.mpr (UInt16.lt_of_lt_of_le (by decide) final.1))
      have other {mark : WChar} (outside : mark < 0x40) : character ≠ mark := by
        rintro rfl
        exact UInt16.not_lt.mpr final.1 outside
      have notPrivate : character ≠ wc '?' := other (by decide)
      have notExclamation : character ≠ wc '!' := other (by decide)
      have notSeparator : character ≠ wc ';' := other (by decide)
      simp only [csiCharacter, long, digit, notPrivate, notExclamation, notSeparator, final,
        and_self, if_true, if_false, Bool.false_eq_true, stored, Option.bind_some, sequence,
        Option.map_some]
      have same := finishCsi_length parser.toLists (parser.csiLength + 1) character
      refine (congrArg (fun sequence => Look.Yields _ (.sequence sequence) _) same).mp ?_
      exact .consumed (within.restartCsi .ground) lists
    · simp only [final, if_false, csiCharacter, long, VtOutputParseState.collectCsi]
      have counted : { parser with csiLength := parser.csiLength + 1 : ArrayParser }.InBounds :=
        ⟨inside.escIntermediates, inside.params, inside.oscPayload⟩
      by_cases digit : VtOutputParseState.isDigit character
      · simp only [digit, if_true]
        exact .consumed ⟨counted.1, counted.2, counted.3⟩ rfl
      by_cases isPrivate : character = wc '?'
      · subst isPrivate
        exact .consumed ⟨counted.1, counted.2, counted.3⟩ rfl
      by_cases isExclamation : character = wc '!'
      · subst isExclamation
        exact .consumed ⟨counted.1, counted.2, counted.3⟩ rfl
      by_cases isSeparator : character = wc ';'
      · have separated :
            InBounds { parser with
              csiLength := parser.csiLength + 1, csiLastWasSeparator := true } :=
          ⟨counted.1, counted.2, counted.3⟩
        obtain ⟨pushed, stored, within, lists⟩ := exists_pushParam separated
        subst isSeparator
        have looked : VtOutputParseState.isDigit (wc ';') = false := by decide
        have notPrivate : wc ';' ≠ wc '?' := by decide
        have notExclamation : wc ';' ≠ wc '!' := by decide
        simp only at stored
        simp only [looked, notPrivate, notExclamation, if_true, if_false, Bool.false_eq_true,
          stored, Option.map_some]
        refine .consumed ⟨within.1, within.2, within.3⟩ ?_
        have ended : { pushed with csiCurrent := 0, csiHaveDigits := false : ArrayParser }.toLists =
            { pushed.toLists with csiCurrent := 0, csiHaveDigits := false } := rfl
        rw [ended, lists]
        simp only [VtOutputParseState.pushParam]
        by_cases room : parser.csi.params.contents.length < 16
        · simp only [toLists, ArrayCsi.sequence, room, if_true]
          rfl
        · simp only [toLists, ArrayCsi.sequence, room, if_false]
      simp only [digit, isPrivate, isExclamation, isSeparator, if_false, Bool.false_eq_true]
      exact .consumed counted rfl

theorem finishOsc_yields (inside : parser.InBounds) :
    Look.Yields (parser.toLists.restartOsc .ground) parser.toLists.titleAction
      parser.finishOsc := by
  have ended := inside.restartOsc .ground
  have captures : parser.toLists.titleAction =
      if parser.oscCapturePayload ∧ (parser.oscAction = 0 ∨ parser.oscAction = 1 ∨
          parser.oscAction = 2 ∨ parser.oscAction = 21) then
        .setTitle parser.oscPayload.contents
      else .nothing := rfl
  rw [captures, finishOsc]
  split
  · rw [inside.oscPayload.view?_eq]
    exact .consumed ended rfl
  · exact .consumed ended rfl

theorem oscCharacter_yields (inside : parser.InBounds) (character : WChar) :
    Look.Yields (parser.toLists.oscNext character) (parser.toLists.oscDispatch character)
      (parser.oscCharacter character) := by
  have inParam : parser.toLists.oscInParam = parser.oscInParam := rfl
  unfold oscCharacter VtOutputParseState.oscNext VtOutputParseState.oscDispatch
  rw [inParam]
  by_cases number : parser.oscInParam = true
  · rw [if_pos number, if_pos number, if_neg (by rw [number]; simp),
      VtOutputParseState.collectOscParam]
    split
    · exact .consumed ⟨inside.1, inside.2, inside.3⟩ rfl
    · split
      · exact .consumed ⟨inside.1, inside.2, FixedArray.inBounds_clear _⟩ rfl
      · exact .consumed (inside.restartOsc .ground) rfl
  · rw [if_neg number, if_neg number]
    by_cases terminator : character = 0x07 ∨ character = 0x9c
    · rw [if_pos terminator, if_pos terminator, if_pos ⟨eq_false_of_ne_true number, terminator⟩]
      exact finishOsc_yields inside
    · have silent : ¬ (parser.oscInParam = false ∧ (character = 0x07 ∨ character = 0x9c)) :=
        fun both => terminator both.2
      rw [if_neg terminator, if_neg terminator, if_neg silent]
      by_cases isEscape : character = 0x1b
      · rw [if_pos isEscape, if_pos isEscape]
        exact .consumed ⟨inside.1, inside.2, inside.3⟩ rfl
      · rw [if_neg isEscape, if_neg isEscape]
        have count : parser.toLists.oscPayload.length = parser.oscPayload.count :=
          inside.oscPayload.length_contents
        have capture : parser.toLists.oscCapturePayload = parser.oscCapturePayload := rfl
        rw [VtOutputParseState.collectOscPayload, count, capture]
        split
        · rename_i room
          obtain ⟨pushed, written, within, contents⟩ :=
            FixedArray.exists_push? room.2 character
          rw [written]
          refine .consumed ⟨inside.1, inside.2, within⟩ ?_
          simp only [toLists, contents]
        · exact .consumed inside rfl

theorem stringCharacter_yields (inside : parser.InBounds) (character : WChar) :
    Look.Yields (parser.toLists.stringNext character) .nothing
      (some (parser.stringCharacter character)) := by
  unfold stringCharacter VtOutputParseState.stringNext
  split
  · exact .consumed ⟨inside.1, inside.2, inside.3⟩ rfl
  · split
    · exact .consumed ⟨inside.1, inside.2, inside.3⟩ rfl
    · exact .consumed inside rfl

theorem groundCharacter_yields (inside : parser.InBounds) (character : WChar) :
    Look.Yields (parser.toLists.groundNext character) (VtOutputParseState.groundAction character)
      (some (parser.groundCharacter character)) := by
  by_cases isControl : character = 0x1b ∨ character = 0x9b ∨ character = 0x9d ∨
      character = 0x9c ∨ character = 0x90 ∨ character = 0x98 ∨ character = 0x9e ∨ character = 0x9f
  · rcases isControl with rfl | rfl | rfl | rfl | rfl | rfl | rfl | rfl
    · exact .consumed ⟨inside.1, inside.2, inside.3⟩ rfl
    · exact .consumed (inside.restartCsi .csi) rfl
    · exact .consumed (inside.restartOsc .osc) rfl
    · exact .consumed inside rfl
    all_goals exact .consumed ⟨inside.1, inside.2, inside.3⟩ rfl
  · rw [VtOutputParseState.groundAction, if_neg isControl]
    simp only [not_or] at isControl
    simp only [groundCharacter, VtOutputParseState.groundNext, isControl, if_false, or_self]
    exact .consumed inside rfl

/-- A character is taken at the first look, or in another phase at the second. -/
theorem look_cases (inside : parser.InBounds) (character : WChar) :
    Look.Yields (parser.toLists.next character) (parser.toLists.action character)
        (parser.look character) ∨
      ∃ again, parser.look character = some (.again again) ∧
        again.InBounds ∧ Look.Yields (parser.toLists.next character)
          (parser.toLists.action character) (again.look character) := by
  have lists : parser.toLists.phase = parser.phase := rfl
  unfold VtOutputParseState.next VtOutputParseState.action look
  rw [lists]
  cases phase : parser.phase with
  | escape => exact .inl (escape_yields inside character)
  | escDispatch =>
      have yields := escapeDispatch_yields inside phase character
      simp only [VtOutputParseState.next, VtOutputParseState.action, lists, phase] at yields
      exact .inl yields
  | csi =>
      have yields := csiCharacter_yields inside phase character
      simp only [VtOutputParseState.next, VtOutputParseState.action, lists, phase] at yields
      exact .inl yields
  | osc => exact .inl (oscCharacter_yields inside character)
  | oscEscape =>
      simp only
      by_cases terminator : character = wc '\\'
      · simp only [if_pos terminator]
        exact .inl (finishOsc_yields inside)
      · simp only [if_neg terminator]
        have resumed : { parser with phase := .osc : ArrayParser }.InBounds :=
          ⟨inside.1, inside.2, inside.3⟩
        exact .inr ⟨_, rfl, resumed, oscCharacter_yields resumed character⟩
  | string => exact .inl (stringCharacter_yields inside character)
  | stringEscape =>
      simp only
      by_cases terminator : character = wc '\\'
      · simp only [if_pos terminator]
        exact .inl (.consumed ⟨inside.1, inside.2, inside.3⟩ rfl)
      · simp only [if_neg terminator]
        have resumed : { parser with phase := .string : ArrayParser }.InBounds :=
          ⟨inside.1, inside.2, inside.3⟩
        exact .inr ⟨_, rfl, resumed, stringCharacter_yields resumed character⟩
  | ground => exact .inl (groundCharacter_yields inside character)

end ArrayParser

variable {call : OutputCall} {text : List WChar}

/-- The state of the loop with the parser on lists in the screen buffer -/
def ParserLoop.onLists (loop : ParserLoop) : OutputState :=
  loop.screen.withParser loop.parser.toLists

/-- What the loop does with a character in one or two iterations -/
structure Takes (call : OutputCall) (text : List WChar) (loop : ParserLoop) (character : WChar)
    (next : ParserLoop) : Prop where
  path : Continues (parserPass call text) loop next ∨
    ∃ between, Continues (parserPass call text) loop between ∧
      Continues (parserPass call text) between next
  offset : next.offset = loop.offset + 1
  inside : next.parser.InBounds
  step : next.onLists = call.step loop.onLists character

theorem step_onLists (vt : call.mode.vtProcessing = true) (loop : ParserLoop)
    (character : WChar) :
    call.step loop.onLists character =
      (call.perform loop.screen (loop.parser.toLists.action character)).withParser
        (loop.parser.toLists.next character) := by
  have lists : loop.onLists.buffer.vtOutputParseState = loop.parser.toLists := rfl
  rw [OutputCall.step_eq_perform vt, lists, ParserLoop.onLists, OutputCall.perform_withParser]
  rfl

/-- An iteration that takes a character -/
theorem parserPass_consumed (vt : call.mode.vtProcessing = true) {loop : ParserLoop}
    (more : loop.offset < text.length) {parser : ArrayParser} {action : VtAction}
    (looked : loop.parser.look text[loop.offset] = some (.consumed parser action)) :
    Continues (parserPass call text) loop
      ⟨loop.offset + 1, parser, call.perform loop.screen action⟩ := by
  unfold Continues parserPass
  rw [dif_pos more]
  simp only [vt, if_true, looked]

theorem exists_takes (loop : ParserLoop) (inside : loop.parser.InBounds)
    (more : loop.offset < text.length) :
    ∃ next, Takes call text loop text[loop.offset] next := by
  by_cases vt : call.mode.vtProcessing = true
  · have step := step_onLists vt loop text[loop.offset]
    rcases ArrayParser.look_cases inside text[loop.offset] with yields | ⟨again, looked, -, yields⟩
    · generalize taken : loop.parser.look text[loop.offset] = look at yields
      cases yields with
      | consumed within same =>
          refine ⟨_, .inl (parserPass_consumed vt more taken), rfl, within, ?_⟩
          rw [step, ← same]
          rfl
    · generalize taken : again.look text[loop.offset] = look at yields
      cases yields with
      | consumed within same =>
          have first : Continues (parserPass call text) loop { loop with parser := again } := by
            unfold Continues parserPass
            rw [dif_pos more]
            simp only [vt, if_true, looked]
          let restarted : ParserLoop := { loop with parser := again }
          have unread : restarted.offset < text.length := more
          have second := parserPass_consumed vt unread taken
          refine ⟨_, .inr ⟨_, first, second⟩, rfl, within, ?_⟩
          rw [step, ← same]
          rfl
  · have off : call.mode.vtProcessing = false := eq_false_of_ne_true vt
    have pass : Continues (parserPass call text) loop
        ⟨loop.offset + 1, loop.parser, call.textCharacter loop.screen text[loop.offset]⟩ := by
      unfold Continues parserPass
      rw [dif_pos more]
      simp only [off, Bool.false_eq_true, if_false]
    refine ⟨_, .inl pass, rfl, inside, ?_⟩
    rw [OutputCall.step_plain off]
    exact (OutputCall.perform_withParser call (.text text[loop.offset]) loop.screen
      loop.parser.toLists).symm

/-- The loop is left after at most two iterations for each character, without a failure, and with
what the loop on lists computes. -/
theorem exists_iterate_parserPass (loop : ParserLoop) (inside : loop.parser.InBounds)
    (within : loop.offset ≤ text.length) :
    ∃ passes final, passes ≤ 2 * (text.length - loop.offset) + 1 ∧
      iterate (parserPass call text) passes loop = some (some final) ∧ final.parser.InBounds ∧
      final.onLists = call.run loop.onLists (text.drop loop.offset) := by
  induction left : text.length - loop.offset generalizing loop with
  | zero =>
      have ended : text.length = loop.offset := by omega
      refine ⟨1, loop, by omega, ?_, inside, ?_⟩
      · rw [iterate, parserPass, dif_neg (by omega)]
      · rw [List.drop_of_length_le ended.le]
        rfl
  | succ remaining ih =>
      have more : loop.offset < text.length := by omega
      obtain ⟨next, takes⟩ := @exists_takes call text loop inside more
      have offset := takes.offset
      obtain ⟨passes, final, few, ends, kept, lists⟩ :=
        ih next takes.inside (by omega) (by omega)
      have whole : final.onLists = call.run loop.onLists (text.drop loop.offset) := by
        rw [lists, takes.step, offset, List.drop_eq_getElem_cons more]
        rfl
      rcases takes.path with pass | ⟨between, first, second⟩
      · refine ⟨passes + 1, final, by omega, ?_, kept, whole⟩
        rw [iterate, pass]
        exact ends
      · refine ⟨passes + 2, final, by omega, ?_, kept, whole⟩
        rw [iterate, first]
        simp only
        rw [iterate, second]
        exact ends

/-- A call of `apply_text_to_screen_buffer`: its constants, the screen with everything but the
parser, and the text -/
structure Write where
  call : OutputCall
  screen : OutputState
  text : List WChar

/-- The state in which the loop of a write starts -/
def Write.start (write : Write) (parser : ArrayParser) : ParserLoop where
  parser := parser.started write.call.mode
  screen := write.screen

/-- A new parser after writes whose loops were all left without a failure -/
inductive Written : List Write → ArrayParser → Prop where
  | start : Written [] {}
  | write {writes : List Write} {parser : ArrayParser} {write : Write} {final : ParserLoop}
      (earlier : Written writes parser)
      (ends : Ends (parserPass write.call write.text) (write.start parser) (some final)) :
      Written (writes ++ [write]) final.parser

/-- What the next write does on a parser -/
structure SafeWrite (parser : ArrayParser) (write : Write) (passes : Nat) (final : ParserLoop) :
    Prop where
  terminates : iterate (parserPass write.call write.text) passes (write.start parser) =
    some (some final)
  bounded : passes ≤ 2 * write.text.length + 1
  inside : final.parser.InBounds
  refines : final.onLists = write.call.run (write.start parser).onLists write.text

theorem ArrayParser.InBounds.exists_safeWrite {parser : ArrayParser} (inside : parser.InBounds)
    (write : Write) : ∃ passes final, SafeWrite parser write passes final := by
  obtain ⟨passes, final, few, ends, kept, lists⟩ := @exists_iterate_parserPass write.call
    write.text (write.start parser) (inside.started write.call.mode) (Nat.zero_le _)
  exact ⟨passes, final, ends, few, kept, lists⟩

theorem Written.inBounds {writes : List Write} {parser : ArrayParser}
    (written : Written writes parser) : parser.InBounds := by
  induction written with
  | start => exact ArrayParser.inBounds_start
  | @write _ parser write final _ ends inside =>
      obtain ⟨passes, final', safe⟩ := inside.exists_safeWrite write
      have same := ends.unique ⟨passes, safe.terminates⟩
      cases same
      exact safe.inside

theorem exists_written (writes : List Write) : ∃ parser, Written writes parser := by
  induction writes using List.reverseRecOn with
  | nil => exact ⟨{}, .start⟩
  | append_singleton earlier write ih =>
      obtain ⟨parser, written⟩ := ih
      obtain ⟨passes, final, safe⟩ := written.inBounds.exists_safeWrite write
      exact ⟨final.parser, .write written ⟨passes, safe.terminates⟩⟩

/-- After any writes the parser is inside its arrays, a character that is looked at again is taken
then, and another write of any text in any mode terminates without a write outside an array. -/
theorem parserLoop_inBounds (writes : List Write) :
    (∃ parser, Written writes parser) ∧
    ∀ parser, Written writes parser → parser.InBounds ∧
      (∀ character again, parser.look character = some (.again again) →
        ∃ next action, again.look character = some (.consumed next action)) ∧
      ∀ write, ∃ passes final, SafeWrite parser write passes final := by
  refine ⟨exists_written writes, ?_⟩
  intro parser written
  have inside := written.inBounds
  refine ⟨inside, ?_, inside.exists_safeWrite⟩
  intro character again looked
  rcases ArrayParser.look_cases inside character with yields | ⟨again', looked', -, yields⟩
  · rw [looked] at yields
    cases yields
  · rw [looked] at looked'
    cases looked'
    generalize taken : again.look character = look at yields
    cases yields with
    | consumed => exact ⟨_, _, rfl⟩

end Conhost
