import Conhost.Screen.CsiText

/-!
# Titles

An OSC sequence with the number of a title action sets the title of the server to its
payload. The number, the decision to capture the payload and the payload itself live in
the parser, so they survive any cut of the sequence into calls; the title is set by the
call that carries the terminator.
-/

namespace Conhost

open VtCsiSequence

/-- The text of an OSC sequence: a number, a semicolon, a payload and a terminator. -/
def oscText (eightBit : Bool) (digits payload : List WChar) (terminator : ControlTerminator) :
    List WChar :=
  ControlKind.osc.introducer eightBit ++ digits ++ wc ';' :: payload ++ terminator.text

/-- The actions whose payload is a title. -/
def IsTitleAction (action : Nat) : Prop := action = 0 ∨ action = 1 ∨ action = 2 ∨ action = 21

instance (action : Nat) : Decidable (IsTitleAction action) :=
  inferInstanceAs (Decidable (_ ∨ _))

/-- The greatest length of a payload that is kept. -/
abbrev oscPayloadLimit : Nat := 4096

namespace VtOutputParseState

variable {parser : VtOutputParseState}

/-- A step that is idle and keeps the parser in a set of situations, over a text. -/
theorem idle_run (stays : List WChar → VtOutputParseState → Prop) {allowed : WChar → Prop}
    (step : ∀ seen parser character, stays seen parser → allowed character →
      parser.action character = .nothing ∧ stays (seen ++ [character]) (parser.next character))
    {text : List WChar} (every : ∀ character ∈ text, allowed character) {seen : List WChar}
    (start : stays seen parser) : parser.Idle text ∧ stays (seen ++ text) (parser.run text) := by
  induction text generalizing parser seen with
  | nil =>
      refine ⟨idle_nil, ?_⟩
      rw [List.append_nil]
      exact start
  | cons character text ih =>
      obtain ⟨idle, next⟩ := step seen parser character start (every character List.mem_cons_self)
      obtain ⟨rest, final⟩ := ih (fun other mem => every other (List.mem_cons_of_mem _ mem)) next
      refine ⟨idle_cons idle rest, ?_⟩
      rw [List.append_assoc] at final
      exact final

/-- The parser inside the number of an OSC sequence. -/
structure OscNumber (digits : List WChar) (parser : VtOutputParseState) : Prop where
  phase : parser.phase = .osc
  inParam : parser.oscInParam = true
  param : Numeral.StandsFor paramLimit parser.oscParam (fieldValue digits)
  none : parser.oscParamHaveDigits = false → fieldValue digits = 0

/-- The parser inside the payload of an OSC sequence. -/
structure OscPayload (captures : Bool) (payload : List WChar) (parser : VtOutputParseState) :
    Prop where
  phase : parser.phase = .osc
  inParam : parser.oscInParam = false
  action : captures = true ↔ IsTitleAction parser.oscAction
  capture : parser.oscCapturePayload = captures
  payload : captures = true → parser.oscPayload = payload.take oscPayloadLimit

theorem idle_introducer_osc (phase : parser.phase = .ground) (eightBit : Bool) :
    parser.Idle (ControlKind.osc.introducer eightBit) ∧
      OscNumber [] (parser.run (ControlKind.osc.introducer eightBit)) := by
  have opened (before : VtOutputParseState) : OscNumber [] (before.restartOsc .osc) :=
    ⟨rfl, rfl, .refl _ _, fun _ => rfl⟩
  have shape : ControlKind.osc.introducer eightBit =
      if eightBit then [0x9d] else [0x1b, wc ']'] := by
    cases eightBit <;> rfl
  rw [shape]
  refine @idle_introduced _ phase _ _ (OscNumber []) ?_ ?_ eightBit
  · simp [action, next, phase, groundAction, groundNext, opened]
  · intro before escaped
    simp [action, next, escaped, escapeAction, escapeNext, opened]

theorem OscNumber.digit {digits : List WChar} (number : OscNumber digits parser)
    {character : WChar} (isDigit : VtOutputParseState.isDigit character = true) :
    parser.action character = .nothing ∧
      OscNumber (digits ++ [character]) (parser.next character) := by
  have next : parser.next character =
      { parser with
        oscParamHaveDigits := true
        oscParam := appendDigit parser.oscParam character } := by
    simp only [VtOutputParseState.next, number.phase, oscNext, number.inParam, if_true,
      collectOscParam, if_pos isDigit]
  refine ⟨?_, ?_⟩
  · simp [action, number.phase, oscDispatch, number.inParam]
  · rw [next]
    refine ⟨number.phase, number.inParam, ?_, fun absurd => by cases absurd⟩
    rw [fieldValue_digit isDigit]
    exact number.param.shift (by omega) _

theorem OscNumber.digits {front digits : List WChar} (number : OscNumber front parser)
    (all : ∀ character ∈ digits, isDigit character = true) :
    parser.Idle digits ∧ OscNumber (front ++ digits) (parser.run digits) :=
  idle_run OscNumber (fun _ _ _ number isDigit => number.digit isDigit) all number

theorem isTitleAction_standsFor {capped exact : Nat}
    (stands : Numeral.StandsFor paramLimit capped exact) :
    IsTitleAction capped ↔ IsTitleAction exact :=
  or_congr (stands.eq_iff (by decide)) (or_congr (stands.eq_iff (by decide))
    (or_congr (stands.eq_iff (by decide)) (stands.eq_iff (by decide))))

/-- A capped number is a title action if and only if the exact one is. -/
theorem OscNumber.separator {digits : List WChar} (number : OscNumber digits parser) :
    parser.action (wc ';') = .nothing ∧
      OscPayload (decide (IsTitleAction (fieldValue digits))) [] (parser.next (wc ';')) := by
  have noDigit : isDigit (wc ';') = false := rfl
  have next : parser.next (wc ';') =
      { parser with
        oscAction := if parser.oscParamHaveDigits then parser.oscParam else 0
        oscCapturePayload :=
          decide (IsTitleAction (if parser.oscParamHaveDigits then parser.oscParam else 0))
        oscInParam := false
        oscPayload := [] } := by
    simp only [VtOutputParseState.next, number.phase, oscNext, number.inParam, if_true,
      collectOscParam, noDigit, Bool.false_eq_true, if_false]
    rfl
  have stands : Numeral.StandsFor paramLimit
      (if parser.oscParamHaveDigits then parser.oscParam else 0) (fieldValue digits) := by
    split
    · exact number.param
    · rename_i absent
      rw [number.none (by simpa using absent)]
      exact .refl _ _
  refine ⟨?_, ?_⟩
  · simp [action, number.phase, oscDispatch, number.inParam]
  · rw [next]
    refine ⟨number.phase, rfl, ?_, ?_, fun _ => rfl⟩
    · rw [decide_eq_true_iff]
      exact (isTitleAction_standsFor stands).symm
    · exact decide_eq_decide.mpr (isTitleAction_standsFor stands)

/-- A character of a payload. -/
def IsPayload (character : WChar) : Prop :=
  character ≠ 0x07 ∧ character ≠ 0x1b ∧ character ≠ 0x9c

instance (character : WChar) : Decidable (IsPayload character) :=
  inferInstanceAs (Decidable (_ ∧ _))

theorem OscPayload.character {captures : Bool} {payload : List WChar}
    (collected : OscPayload captures payload parser) {character : WChar}
    (isPayload : IsPayload character) :
    parser.action character = .nothing ∧
      OscPayload captures (payload ++ [character]) (parser.next character) := by
  obtain ⟨notBell, notEscape, notTerminator⟩ := isPayload
  have next : parser.next character = parser.collectOscPayload character := by
    simp only [VtOutputParseState.next, collected.phase, oscNext, collected.inParam]
    have notEnd : ¬ (character = 0x07 ∨ character = 0x9c) := not_or.mpr ⟨notBell, notTerminator⟩
    rw [if_neg (by decide), if_neg notEnd, if_neg notEscape]
  have limit : oscPayloadLimit = 4096 := rfl
  refine ⟨?_, ?_⟩
  · simp [VtOutputParseState.action, collected.phase, oscDispatch, notBell, notTerminator]
  rw [next]
  unfold collectOscPayload
  rw [collected.capture]
  cases captures with
  | false =>
      refine ⟨collected.phase, collected.inParam, collected.action, collected.capture, ?_⟩
      intro captured
      cases captured
  | true =>
      have kept := collected.payload rfl
      by_cases room : parser.oscPayload.length < 4096
      · rw [if_pos ⟨rfl, room⟩]
        refine ⟨collected.phase, collected.inParam, collected.action, rfl, ?_⟩
        intro _
        have few : payload.length < 4096 := by
          rw [kept, List.length_take] at room
          omega
        dsimp only
        rw [kept, List.take_of_length_le (Nat.le_of_lt few), List.take_of_length_le]
        rw [List.length_append, List.length_singleton]
        omega
      · rw [if_neg fun both => room both.2]
        refine ⟨collected.phase, collected.inParam, collected.action, collected.capture, ?_⟩
        intro _
        have many : 4096 ≤ payload.length := by
          rw [kept, List.length_take] at room
          omega
        rw [kept, List.take_append_of_le_length many]

theorem OscPayload.characters {captures : Bool} {front payload : List WChar}
    (collected : OscPayload captures front parser)
    (all : ∀ character ∈ payload, IsPayload character) :
    parser.Idle payload ∧ OscPayload captures (front ++ payload) (parser.run payload) :=
  idle_run (OscPayload captures) (fun _ _ _ collected isPayload => collected.character isPayload)
    all collected

/-- What the terminator does with a payload. -/
def payloadAction (captures : Bool) (payload : List WChar) : VtAction :=
  if captures then .setTitle (payload.take oscPayloadLimit) else .nothing

theorem OscPayload.titleAction {captures : Bool} {payload : List WChar}
    (collected : OscPayload captures payload parser) :
    parser.titleAction = payloadAction captures payload := by
  unfold VtOutputParseState.titleAction payloadAction
  rw [collected.capture]
  cases captures with
  | false => rfl
  | true => rw [if_pos ⟨rfl, collected.action.mp rfl⟩, collected.payload rfl, if_pos rfl]

/-- The terminator dispatches the payload and leads to ground phase. -/
theorem OscPayload.terminator {captures : Bool} {payload : List WChar}
    (collected : OscPayload captures payload parser) (terminator : ControlTerminator) :
    ∃ idle, (∀ action ∈ idle, action = VtAction.nothing) ∧
      parser.actions terminator.text = idle ++ [payloadAction captures payload] ∧
      (parser.run terminator.text).phase = .ground := by
  have action := collected.titleAction
  obtain ⟨phase, inParam⟩ := And.intro collected.phase collected.inParam
  cases terminator with
  | bell =>
      refine ⟨[], by simp, ?_, ?_⟩
      · simp [actions, ControlTerminator.text, VtOutputParseState.action, phase, oscDispatch,
          inParam, action]
      · simp [run, ControlTerminator.text, next, phase, oscNext, inParam, restartOsc]
  | stringTerminator =>
      refine ⟨[], by simp, ?_, ?_⟩
      · simp [actions, ControlTerminator.text, VtOutputParseState.action, phase, oscDispatch,
          inParam, action]
      · simp [run, ControlTerminator.text, next, phase, oscNext, inParam, restartOsc]
  | escapeBackslash =>
      have escaped : parser.next 0x1b = { parser with phase := .oscEscape } := by
        simp [next, phase, oscNext, inParam]
      have same : ({ parser with phase := .oscEscape } : VtOutputParseState).titleAction =
          parser.titleAction := rfl
      refine ⟨[.nothing], by simp, ?_, ?_⟩
      · simp [actions, ControlTerminator.text, escaped, VtOutputParseState.action, phase,
          oscDispatch, same, action]
      · simp only [run, ControlTerminator.text, List.foldl_cons, List.foldl_nil, escaped]
        rfl

/-- The actions of an OSC sequence: none before the one of its terminator. -/
theorem actions_oscText (phase : parser.phase = .ground) (eightBit : Bool)
    {digits payload : List WChar} (allDigits : ∀ character ∈ digits, isDigit character = true)
    (allPayload : ∀ character ∈ payload, IsPayload character) (terminator : ControlTerminator) :
    ∃ idle, (∀ action ∈ idle, action = VtAction.nothing) ∧
      parser.actions (oscText eightBit digits payload terminator) =
        idle ++ [payloadAction (decide (IsTitleAction (fieldValue digits))) payload] ∧
      (parser.run (oscText eightBit digits payload terminator)).phase = .ground := by
  obtain ⟨opens, opened⟩ := idle_introducer_osc phase eightBit
  obtain ⟨counts, counted⟩ := opened.digits allDigits
  obtain ⟨separates, separated⟩ := counted.separator
  obtain ⟨collects, collected⟩ := separated.characters allPayload
  rw [List.nil_append, List.nil_append] at collected
  obtain ⟨last, lastIdle, ends, ground⟩ := collected.terminator terminator
  have front : parser.Idle (ControlKind.osc.introducer eightBit ++ digits ++ wc ';' :: payload) :=
    idle_append (idle_append opens counts) (idle_cons (by rwa [run_append]) (by rwa [run_append]))
  unfold oscText
  generalize shape : ControlKind.osc.introducer eightBit ++ digits ++ wc ';' :: payload = before
    at front
  have reached : parser.run before =
      (((parser.run (ControlKind.osc.introducer eightBit)).run digits).next (wc ';')).run
        payload := by
    rw [← shape, run_append, run_append]
    rfl
  refine ⟨parser.actions before ++ last, ?_, ?_, ?_⟩
  · intro action mem
    rcases List.mem_append.mp mem with mem | mem
    · exact front action mem
    · exact lastIdle action mem
  · rw [actions_append, reached, ends, List.append_assoc]
  · rw [run_append, reached]
    exact ground

end VtOutputParseState

/-- The title after some actions. -/
def titleAfter (title : Option TitleState) (actions : List VtAction) : Option TitleState :=
  actions.foldl
    (fun title action =>
      match action with
      | .setTitle payload => title.map (·.setTitle payload)
      | _ => title)
    title

theorem titleAfter_idle (title : Option TitleState) {actions : List VtAction}
    (idle : ∀ action ∈ actions, action = VtAction.nothing) : titleAfter title actions = title := by
  induction actions with
  | nil => rfl
  | cons action actions ih =>
      have rest := ih fun other mem => idle other (List.mem_cons_of_mem _ mem)
      rw [idle action List.mem_cons_self]
      exact rest

/-- A silent text sets the titles of its actions. -/
theorem OutputCall.run_titleAfter {call : OutputCall} (vt : call.mode.vtProcessing = true)
    {state : OutputState} {text : List WChar}
    (silent : state.buffer.vtOutputParseState.Silent text) :
    (call.run state text).title =
      titleAfter state.title (state.buffer.vtOutputParseState.actions text) := by
  induction text generalizing state with
  | nil => rfl
  | cons character text ih =>
      have rest : (state.buffer.vtOutputParseState.next character).Silent text :=
        fun action mem => silent action (List.mem_cons_of_mem _ mem)
      have first := silent _ List.mem_cons_self
      rw [run_cons, step_eq_perform vt, ih rest]
      generalize action : state.buffer.vtOutputParseState.action character = performed at first
      have actions : state.buffer.vtOutputParseState.actions (character :: text) =
          performed :: (state.buffer.vtOutputParseState.next character).actions text := by
        rw [← action]
        rfl
      rw [actions]
      cases performed with
      | nothing => rfl
      | setTitle payload => rfl
      | _ => exact first.elim

theorem apply_titleAfter {buffer : ScreenBuffer} {mode : OutputMode} {text : List WChar}
    (title : Option TitleState) (answerQueries : Bool)
    (nonempty : ¬ (buffer.bufferSize.x ≤ 0 ∨ buffer.bufferSize.y ≤ 0))
    (vt : mode.vtProcessing = true) (silent : buffer.vtOutputParseState.Silent text) :
    (applyTextToScreenBuffer buffer text mode title answerQueries).title =
      titleAfter title (buffer.vtOutputParseState.actions text) := by
  have started := ScreenBuffer.Parallel.outputState_parseState vt buffer title
  have given : (buffer.outputState mode title).title = title := by
    unfold ScreenBuffer.outputState
    rw [if_pos vt]
  unfold applyTextToScreenBuffer
  rw [if_neg nonempty]
  have ran := @OutputCall.run_titleAfter (buffer.outputCall mode answerQueries) vt
    (buffer.outputState mode title) text (by rw [started]; exact silent)
  rw [started, given] at ran
  exact ran

/-- The calls that write the pieces of a silent text set the titles of the whole. -/
theorem applyCalls_titleAfter {mode : OutputMode} (answerQueries : Bool) (start : OutputResult)
    (pieces : List (List WChar))
    (nonempty : ¬ (start.buffer.bufferSize.x ≤ 0 ∨ start.buffer.bufferSize.y ≤ 0))
    (vt : mode.vtProcessing = true)
    (silent : start.buffer.vtOutputParseState.Silent pieces.flatten) :
    (applyCalls mode answerQueries start pieces).title =
      titleAfter start.title (start.buffer.vtOutputParseState.actions pieces.flatten) := by
  induction pieces generalizing start with
  | nil => rfl
  | cons piece pieces ih =>
      obtain ⟨first, rest⟩ := VtOutputParseState.silent_of_append silent
      obtain ⟨picture, parser⟩ := apply_silent answerQueries start.title nonempty vt first
      have titled := apply_titleAfter start.title answerQueries nonempty vt first
      obtain ⟨_, core⟩ := picture.core
      rw [← parser] at rest
      let next := applyTextToScreenBuffer start.buffer piece mode start.title answerQueries
      have later := ih { next with replies := start.replies ++ next.replies }
        (by rw [core]; exact nonempty) rest
      rw [applyCalls_cons, later, List.flatten_cons, VtOutputParseState.actions_append, ← parser]
      unfold titleAfter
      rw [List.foldl_append]
      exact congrArg (fun title => titleAfter title (next.buffer.vtOutputParseState.actions
        pieces.flatten)) titled

/-- An OSC sequence with a title action sets the title to its payload, any other one leaves
it alone, however the sequence is cut into calls, and neither touches the screen. -/
theorem oscTitle {buffer : ScreenBuffer} {mode : OutputMode} (vt : mode.vtProcessing = true)
    (nonempty : 0 < buffer.bufferSize.x ∧ 0 < buffer.bufferSize.y)
    (phase : buffer.vtOutputParseState.phase = .ground) (eightBit : Bool)
    {digits payload : List WChar}
    (spelling : ∀ character ∈ digits, VtOutputParseState.isDigit character = true)
    (plain : ∀ character ∈ payload, VtOutputParseState.IsPayload character)
    (terminator : ControlTerminator) (title : Option TitleState) (answerQueries : Bool)
    {pieces : List (List WChar)}
    (cut : pieces.flatten = oscText eightBit digits payload terminator) :
    let after := applyCalls mode answerQueries ⟨buffer, title, []⟩ pieces
    after.title =
        (if IsTitleAction (fieldValue digits) then
          title.map (·.setTitle (payload.take oscPayloadLimit))
        else title) ∧
      after.buffer.cells = buffer.cells ∧ after.buffer.regs = buffer.regs ∧
      after.buffer.SamePicture buffer ∧ after.buffer.vtOutputParseState.phase = .ground := by
  have sized : ¬ (buffer.bufferSize.x ≤ 0 ∨ buffer.bufferSize.y ≤ 0) := by omega
  obtain ⟨idle, allIdle, actions, ground⟩ :=
    VtOutputParseState.actions_oscText phase eightBit spelling plain terminator
  rw [← cut] at actions ground
  have silent : buffer.vtOutputParseState.Silent pieces.flatten := by
    intro action mem
    rw [actions] at mem
    rcases List.mem_append.mp mem with mem | mem
    · rw [allIdle action mem]
      trivial
    · rw [List.mem_singleton.mp mem]
      unfold VtOutputParseState.payloadAction
      split <;> trivial
  obtain ⟨picture, parser⟩ :=
    applyCalls_silent answerQueries ⟨buffer, title, []⟩ pieces sized vt silent
  have titled := applyCalls_titleAfter answerQueries ⟨buffer, title, []⟩ pieces sized vt silent
  obtain ⟨_, core⟩ := picture.core
  refine ⟨?_, ?_, picture.regs, picture, ?_⟩
  · rw [titled, actions]
    unfold titleAfter
    rw [List.foldl_append]
    have before := titleAfter_idle title allIdle
    unfold titleAfter at before
    rw [before]
    unfold VtOutputParseState.payloadAction
    by_cases isTitle : IsTitleAction (fieldValue digits)
    · rw [if_pos isTitle, decide_eq_true isTitle]
      rfl
    · rw [if_neg isTitle, decide_eq_false isTitle]
      rfl
  · rw [core]
    rfl
  · rw [parser]
    exact ground

theorem oscTitle_cut :
    let after := applyCalls ⟨7⟩ false ⟨twoCells, some {}, []⟩
      [[0x1b], [wc ']', wc '0', wc '2'], [wc ';', wc 'H', wc 'i', 0x1b], [wc '\\']]
    after.title =
        (if IsTitleAction (fieldValue [wc '0', wc '2']) then
          (some ({} : TitleState)).map (·.setTitle ([wc 'H', wc 'i'].take oscPayloadLimit))
        else some {}) ∧
      after.buffer.cells = twoCells.cells ∧ after.buffer.regs = twoCells.regs ∧
      after.buffer.SamePicture twoCells ∧ after.buffer.vtOutputParseState.phase = .ground := by
  apply oscTitle (by decide) (by decide) rfl false (List.all_eq_true.mp rfl) _ .escapeBackslash _ _
    rfl
  simp only [List.forall_mem_cons, List.not_mem_nil, false_imp_iff, implies_true, and_true]
  decide

end Conhost
