import Mathlib.Data.Bool.AllAny
import Conhost.Screen.Calls

/-!
# Control strings

A control string is an introducer, a payload and a terminator. The parser should
swallow it whole, however it is cut into calls. It does so for a DCS, SOS, PM or
APC string with either form of ST, and for an OSC string whose payload is a number
and a semicolon before anything else. The string phase does not know BEL, and the
number phase of OSC knows no terminator at all: it is left at the first character
that is neither a digit nor a semicolon, and what follows is text.
-/

namespace Conhost

/-- The control characters: C0, DEL and C1. -/
def IsControl (character : WChar) : Prop :=
  character < 0x20 ∨ (0x7f ≤ character ∧ character ≤ 0x9f)

instance (character : WChar) : Decidable (IsControl character) :=
  inferInstanceAs (Decidable (_ ∨ _))

inductive ControlKind where
  | osc
  | dcs
  | sos
  | pm
  | apc
deriving DecidableEq, Repr

/-- The introducer, as ESC and a letter or as a C1 character. -/
def ControlKind.introducer (kind : ControlKind) (eightBit : Bool) : List WChar :=
  match kind, eightBit with
  | .osc, false => [0x1b, wc ']']
  | .osc, true => [0x9d]
  | .dcs, false => [0x1b, wc 'P']
  | .dcs, true => [0x90]
  | .sos, false => [0x1b, wc 'X']
  | .sos, true => [0x98]
  | .pm, false => [0x1b, wc '^']
  | .pm, true => [0x9e]
  | .apc, false => [0x1b, wc '_']
  | .apc, true => [0x9f]

inductive ControlTerminator where
  | bell
  | escapeBackslash
  | stringTerminator
deriving DecidableEq, Repr

def ControlTerminator.text : ControlTerminator → List WChar
  | .bell => [0x07]
  | .escapeBackslash => [0x1b, wc '\\']
  | .stringTerminator => [0x9c]

/-- A complete control string. -/
structure ControlString where
  kind : ControlKind
  eightBit : Bool
  payload : List WChar
  terminator : ControlTerminator
  plain : ∀ character ∈ payload, ¬ IsControl character

namespace ControlString

def text (string : ControlString) : List WChar :=
  string.kind.introducer string.eightBit ++ string.payload ++ string.terminator.text

/-- The strings the parser swallows. An OSC string that consists of digits alone ends
at a terminator of one character, and one that is broken off at its last character
at a terminator that is not printed. -/
def Recognized (string : ControlString) : Prop :=
  match string.kind with
  | .osc =>
      match string.payload.dropWhile VtOutputParseState.isDigit with
      | [] => string.terminator ≠ .escapeBackslash
      | character :: rest =>
          character = wc ';' ∨ (rest = [] ∧ string.terminator ≠ .bell)
  | .dcs | .sos | .pm | .apc => string.terminator ≠ .bell

/-- Applied to any buffer in ground phase and cut in any way, the string leaves the
cells and the cursor unchanged and the parser in ground phase, and what is written
after it, in the same call or in later ones, shows as if the string were absent. -/
def Harmless (string : ControlString) : Prop :=
  ∀ (buffer : ScreenBuffer) (mode : OutputMode) (title : Option TitleState) (answerQueries : Bool)
    (front : List (List WChar)) (last : List WChar),
    mode.vtProcessing = true → buffer.vtOutputParseState.phase = .ground →
    front.flatten ++ last = string.text →
    let after (pieces : List (List WChar)) : ScreenBuffer :=
      (applyCalls mode answerQueries ⟨buffer, title, []⟩ pieces).buffer
    (after (front ++ [last])).cells = buffer.cells ∧
      (after (front ++ [last])).regs.cursor = buffer.regs.cursor ∧
      (after (front ++ [last])).vtOutputParseState.phase = .ground ∧
      ∀ text rest,
        (after (front ++ (last ++ text) :: rest)).cells = (after (text :: rest)).cells ∧
          (after (front ++ (last ++ text) :: rest)).regs.cursor =
            (after (text :: rest)).regs.cursor

end ControlString

/-- An action that leaves the screen alone. -/
def VtAction.Silent : VtAction → Prop
  | .nothing | .setTitle _ => True
  | _ => False

namespace VtOutputParseState

/-- Every action of a text leaves the screen alone. -/
def Silent (parser : VtOutputParseState) (text : List WChar) : Prop :=
  ∀ action ∈ parser.actions text, action.Silent

variable {parser : VtOutputParseState}

theorem silent_nil : parser.Silent [] := by
  intro action mem
  cases mem

theorem silent_cons {character : WChar} {text : List WChar}
    (first : (parser.action character).Silent) (rest : (parser.next character).Silent text) :
    parser.Silent (character :: text) := by
  intro action mem
  rcases List.mem_cons.mp mem with rfl | mem
  · exact first
  · exact rest action mem

theorem silent_append {first second : List WChar} (before : parser.Silent first)
    (after : (parser.run first).Silent second) : parser.Silent (first ++ second) := by
  intro action mem
  rw [actions_append] at mem
  rcases List.mem_append.mp mem with mem | mem
  · exact before action mem
  · exact after action mem

theorem silent_of_append {first second : List WChar} (both : parser.Silent (first ++ second)) :
    parser.Silent first ∧ (parser.run first).Silent second := by
  unfold Silent at both ⊢
  rw [actions_append] at both
  exact ⟨fun action mem => both action (List.mem_append_left _ mem),
    fun action mem => both action (List.mem_append_right _ mem)⟩

theorem titleAction_silent : parser.titleAction.Silent := by
  unfold titleAction
  split <;> trivial

/-- A step that keeps the parser in a set of situations keeps it there over a text. -/
theorem silent_run (stays : VtOutputParseState → Prop) {allowed : WChar → Prop}
    (step : ∀ parser character, stays parser → allowed character →
      (parser.action character).Silent ∧ stays (parser.next character))
    {text : List WChar} (every : ∀ character ∈ text, allowed character)
    (start : stays parser) : parser.Silent text ∧ stays (parser.run text) := by
  induction text generalizing parser with
  | nil => exact ⟨silent_nil, start⟩
  | cons character text ih =>
      obtain ⟨silent, next⟩ := step parser character start (every character List.mem_cons_self)
      obtain ⟨rest, final⟩ := ih (fun other mem => every other (List.mem_cons_of_mem _ mem)) next
      exact ⟨silent_cons silent rest, final⟩

theorem ne_of_plain {character control : WChar} (plain : ¬ IsControl character)
    (isControl : IsControl control) : character ≠ control := by
  rintro rfl
  exact plain isControl

/-- The payload of a DCS, SOS, PM or APC string is skipped. -/
theorem string_payload (phase : parser.phase = .string) {payload : List WChar}
    (plain : ∀ character ∈ payload, ¬ IsControl character) :
    parser.Silent payload ∧ (parser.run payload).phase = .string := by
  refine silent_run (fun parser => parser.phase = .string) ?_ plain phase
  intro parser character phase plain
  have notSt := ne_of_plain plain (show IsControl 0x9c by decide)
  have notEscape := ne_of_plain plain (show IsControl 0x1b by decide)
  simp only [action, next, phase, stringNext, if_neg notSt, if_neg notEscape]
  exact ⟨trivial, trivial⟩

/-- The number of an OSC string. -/
theorem osc_digits (phase : parser.phase = .osc ∧ parser.oscInParam = true)
    {digits : List WChar} (all : ∀ character ∈ digits, isDigit character = true) :
    parser.Silent digits ∧
      (parser.run digits).phase = .osc ∧ (parser.run digits).oscInParam = true := by
  refine silent_run (fun parser => parser.phase = .osc ∧ parser.oscInParam = true) ?_
    all phase
  rintro parser character ⟨phase, inParam⟩ digit
  simp only [action, next, phase, oscDispatch, oscNext, inParam, if_true, collectOscParam,
    if_pos digit, Bool.true_eq_false, false_and, if_false]
  exact ⟨trivial, trivial, trivial⟩

/-- The payload of an OSC string after its semicolon. -/
theorem osc_payload (phase : parser.phase = .osc ∧ parser.oscInParam = false)
    {payload : List WChar} (plain : ∀ character ∈ payload, ¬ IsControl character) :
    parser.Silent payload ∧
      (parser.run payload).phase = .osc ∧ (parser.run payload).oscInParam = false := by
  refine silent_run (fun parser => parser.phase = .osc ∧ parser.oscInParam = false) ?_
    plain phase
  rintro parser character ⟨phase, inParam⟩ plain
  have notBell := ne_of_plain plain (show IsControl 0x07 by decide)
  have notSt := ne_of_plain plain (show IsControl 0x9c by decide)
  have notEscape := ne_of_plain plain (show IsControl 0x1b by decide)
  simp only [action, next, phase, oscDispatch, oscNext, inParam, notBell, notSt, or_self,
    and_false, if_false, Bool.false_eq_true, if_neg notEscape, collectOscPayload]
  refine ⟨trivial, ?_⟩
  split
  · exact ⟨rfl, rfl⟩
  · exact ⟨phase, inParam⟩

theorem osc_terminator (phase : parser.phase = .osc ∧ parser.oscInParam = false)
    (terminator : ControlTerminator) :
    parser.Silent terminator.text ∧ (parser.run terminator.text).phase = .ground := by
  obtain ⟨phase, inParam⟩ := phase
  cases terminator with
  | bell =>
      refine ⟨silent_cons ?_ silent_nil, ?_⟩
      · simp [action, phase, oscDispatch, inParam, titleAction_silent]
      · simp [run, ControlTerminator.text, next, phase, oscNext, inParam, restartOsc]
  | stringTerminator =>
      refine ⟨silent_cons ?_ silent_nil, ?_⟩
      · simp [action, phase, oscDispatch, inParam, titleAction_silent]
      · simp [run, ControlTerminator.text, next, phase, oscNext, inParam, restartOsc]
  | escapeBackslash =>
      have escaped : parser.next 0x1b = { parser with phase := .oscEscape } := by
        simp [next, phase, oscNext, inParam]
      refine ⟨silent_cons ?_ (silent_cons ?_ silent_nil), ?_⟩
      · simp [action, phase, oscDispatch, VtAction.Silent]
      · rw [escaped]
        exact titleAction_silent
      · simp only [run, ControlTerminator.text, List.foldl_cons, List.foldl_nil, escaped]
        rfl

theorem string_terminator (phase : parser.phase = .string) {terminator : ControlTerminator}
    (notBell : terminator ≠ .bell) :
    parser.Silent terminator.text ∧ (parser.run terminator.text).phase = .ground := by
  cases terminator with
  | bell => exact absurd rfl notBell
  | stringTerminator =>
      refine ⟨silent_cons ?_ silent_nil, ?_⟩
      · simp [action, phase, VtAction.Silent]
      · simp [run, ControlTerminator.text, next, phase, stringNext]
  | escapeBackslash =>
      have escaped : parser.next 0x1b = { parser with phase := .stringEscape } := by
        simp [next, phase, stringNext]
      refine ⟨silent_cons ?_ (silent_cons ?_ silent_nil), ?_⟩
      · simp [action, phase, VtAction.Silent]
      · rw [escaped]
        trivial
      · simp only [run, ControlTerminator.text, List.foldl_cons, List.foldl_nil, escaped]
        rfl

/-- Either form of ST is swallowed in ground phase. -/
theorem ground_terminator (phase : parser.phase = .ground) {terminator : ControlTerminator}
    (notBell : terminator ≠ .bell) :
    parser.Silent terminator.text ∧ (parser.run terminator.text).phase = .ground := by
  cases terminator with
  | bell => exact absurd rfl notBell
  | stringTerminator =>
      refine ⟨silent_cons ?_ silent_nil, ?_⟩
      · simp [action, phase, groundAction, VtAction.Silent]
      · simp [run, ControlTerminator.text, next, phase, groundNext]
  | escapeBackslash =>
      have escaped : parser.next 0x1b = { parser with phase := .escape } := by
        simp [next, phase, groundNext]
      refine ⟨silent_cons ?_ (silent_cons ?_ silent_nil), ?_⟩
      · simp [action, phase, groundAction, VtAction.Silent]
      · rw [escaped]
        trivial
      · simp only [run, ControlTerminator.text, List.foldl_cons, List.foldl_nil, escaped]
        rfl

theorem silent_escape {character : WChar} (phase : parser.phase = .ground)
    (noAction : escapeAction character = .nothing) : parser.Silent [0x1b, character] := by
  refine silent_cons ?_ (silent_cons ?_ silent_nil)
  · simp [action, phase, groundAction, VtAction.Silent]
  · simp [action, next, phase, groundNext, noAction, VtAction.Silent]

theorem silent_introducer (phase : parser.phase = .ground) (kind : ControlKind)
    (eightBit : Bool) : parser.Silent (kind.introducer eightBit) := by
  cases eightBit with
  | false => cases kind <;> exact silent_escape phase rfl
  | true =>
      cases kind <;> refine silent_cons ?_ silent_nil <;>
        simp [action, phase, groundAction, VtAction.Silent]

theorem run_introducer_osc (phase : parser.phase = .ground) (eightBit : Bool) :
    (parser.run (ControlKind.osc.introducer eightBit)).phase = .osc ∧
      (parser.run (ControlKind.osc.introducer eightBit)).oscInParam = true := by
  cases eightBit <;>
    simp [run, ControlKind.introducer, next, phase, groundNext, escapeNext, restartOsc]

theorem run_introducer_string (phase : parser.phase = .ground) {kind : ControlKind}
    (notOsc : kind ≠ .osc) (eightBit : Bool) :
    (parser.run (kind.introducer eightBit)).phase = .string := by
  cases kind with
  | osc => exact absurd rfl notOsc
  | _ =>
    cases eightBit <;>
      simp [run, ControlKind.introducer, next, phase, groundNext, escapeNext, wc]

/-- The number of an OSC string is abandoned at any other character, which is
swallowed. -/
theorem osc_abandoned (phase : parser.phase = .osc ∧ parser.oscInParam = true)
    {character : WChar} (noDigit : isDigit character = false) (noSeparator : character ≠ wc ';') :
    (parser.action character).Silent ∧ (parser.next character).phase = .ground := by
  obtain ⟨phase, inParam⟩ := phase
  simp only [action, next, phase, oscDispatch, oscNext, inParam, collectOscParam, noDigit,
    if_neg noSeparator, if_true, Bool.true_eq_false, false_and, Bool.false_eq_true, if_false]
  exact ⟨trivial, rfl⟩

theorem osc_separator (phase : parser.phase = .osc ∧ parser.oscInParam = true) :
    (parser.action (wc ';')).Silent ∧ (parser.next (wc ';')).phase = .osc ∧
      (parser.next (wc ';')).oscInParam = false := by
  obtain ⟨phase, inParam⟩ := phase
  have noDigit : isDigit (wc ';') = false := by decide
  simp only [action, next, phase, oscDispatch, oscNext, inParam, collectOscParam, noDigit,
    if_true, Bool.true_eq_false, false_and, Bool.false_eq_true, if_false]
  exact ⟨trivial, trivial, trivial⟩

end VtOutputParseState

namespace ControlString

open VtOutputParseState

variable {parser : VtOutputParseState} {string : ControlString}

theorem digits_isDigit (payload : List WChar) :
    ∀ character ∈ payload.takeWhile isDigit, isDigit character = true :=
  List.all_eq_true.mp List.all_takeWhile

theorem head_noDigit {payload rest : List WChar} {character : WChar}
    (dropped : payload.dropWhile isDigit = character :: rest) : isDigit character = false := by
  have head := List.head?_dropWhile_not isDigit payload
  rw [dropped] at head
  simpa using head

/-- The parser after the introducer and the number of an OSC string. -/
theorem osc_number (phase : parser.phase = .ground) (eightBit : Bool) (payload : List WChar) :
    parser.Silent (ControlKind.osc.introducer eightBit ++ payload.takeWhile isDigit) ∧
      (parser.run (ControlKind.osc.introducer eightBit ++ payload.takeWhile isDigit)).phase =
        .osc ∧
      (parser.run (ControlKind.osc.introducer eightBit ++
        payload.takeWhile isDigit)).oscInParam = true := by
  obtain ⟨silent, final⟩ := osc_digits (run_introducer_osc phase eightBit)
    (digits_isDigit payload)
  rw [run_append]
  exact ⟨silent_append (silent_introducer phase _ _) silent, final⟩

theorem text_osc (kind : string.kind = .osc) :
    string.text = (ControlKind.osc.introducer string.eightBit ++
      string.payload.takeWhile isDigit) ++ (string.payload.dropWhile isDigit ++
        string.terminator.text) := by
  unfold text
  rw [kind]
  conv_lhs => rw [← List.takeWhile_append_dropWhile (p := isDigit) (l := string.payload)]
  simp only [List.append_assoc]

theorem recognized_osc (phase : parser.phase = .ground) (kind : string.kind = .osc)
    (recognized : string.Recognized) :
    parser.Silent string.text ∧ (parser.run string.text).phase = .ground := by
  obtain ⟨silent, number⟩ := osc_number phase string.eightBit string.payload
  simp only [Recognized, kind] at recognized
  have plain : ∀ character ∈ string.payload.dropWhile isDigit, ¬ IsControl character :=
    fun character mem => string.plain character ((List.dropWhile_sublist _).mem mem)
  rw [text_osc kind]
  generalize ControlKind.osc.introducer string.eightBit ++ string.payload.takeWhile isDigit =
    opening at silent number ⊢
  rw [run_append]
  suffices rest : (parser.run opening).Silent
        (string.payload.dropWhile isDigit ++ string.terminator.text) ∧
      ((parser.run opening).run
        (string.payload.dropWhile isDigit ++ string.terminator.text)).phase = .ground from
    ⟨silent_append silent rest.1, rest.2⟩
  generalize parser.run opening = numbered at number ⊢
  cases dropped : string.payload.dropWhile isDigit with
  | nil =>
      rw [dropped] at recognized
      cases terminator : string.terminator with
      | escapeBackslash => exact absurd terminator recognized
      | bell =>
          obtain ⟨silent, ground⟩ := osc_abandoned number (show isDigit 0x07 = false by decide)
            (by decide)
          exact ⟨silent_cons silent silent_nil, ground⟩
      | stringTerminator =>
          obtain ⟨silent, ground⟩ := osc_abandoned number (show isDigit 0x9c = false by decide)
            (by decide)
          exact ⟨silent_cons silent silent_nil, ground⟩
  | cons character rest =>
      rw [dropped] at recognized plain
      rcases recognized with rfl | ⟨rfl, notBell⟩
      · obtain ⟨separator, separated⟩ := osc_separator number
        obtain ⟨payload, collected⟩ := osc_payload separated
          fun other mem => plain other (List.mem_cons_of_mem _ mem)
        obtain ⟨terminator, ground⟩ := osc_terminator collected string.terminator
        refine ⟨silent_cons separator (silent_append payload terminator), ?_⟩
        rw [List.cons_append]
        exact (congrArg VtOutputParseState.phase (run_append _ _ _)).trans ground
      · by_cases separator : character = wc ';'
        · subst separator
          obtain ⟨separator, separated⟩ := osc_separator number
          obtain ⟨terminator, ground⟩ := osc_terminator separated string.terminator
          exact ⟨silent_cons separator terminator, ground⟩
        · obtain ⟨abandoned, ground⟩ := osc_abandoned number (head_noDigit dropped) separator
          obtain ⟨terminator, final⟩ := ground_terminator ground notBell
          exact ⟨silent_cons abandoned terminator, final⟩

theorem recognized_string (phase : parser.phase = .ground) (notOsc : string.kind ≠ .osc)
    (notBell : string.terminator ≠ .bell) :
    parser.Silent string.text ∧ (parser.run string.text).phase = .ground := by
  obtain ⟨payload, collected⟩ := string_payload
    (run_introducer_string phase notOsc string.eightBit) string.plain
  rw [← run_append] at collected
  obtain ⟨terminator, ground⟩ := string_terminator collected notBell
  unfold text
  refine ⟨silent_append (silent_append (silent_introducer phase _ _) payload) terminator, ?_⟩
  rw [run_append]
  exact ground

/-- A recognized string does nothing and ends in ground phase. -/
theorem recognized_silent (recognized : string.Recognized) (phase : parser.phase = .ground) :
    parser.Silent string.text ∧ (parser.run string.text).phase = .ground := by
  by_cases isOsc : string.kind = .osc
  · exact recognized_osc phase isOsc recognized
  · apply recognized_string phase isOsc
    cases kind : string.kind with
    | osc => exact absurd kind isOsc
    | _ => simpa only [Recognized, kind] using recognized

/-- The string phase is not left at BEL. -/
theorem string_bell (phase : parser.phase = .ground) (notOsc : string.kind ≠ .osc)
    (bell : string.terminator = .bell) : (parser.run string.text).phase = .string := by
  obtain ⟨payload, collected⟩ := string_payload
    (run_introducer_string phase notOsc string.eightBit) string.plain
  rw [← run_append] at collected
  unfold text
  rw [bell, run_append]
  generalize parser.run (string.kind.introducer string.eightBit ++ string.payload) = opened
    at collected ⊢
  simp [run, ControlTerminator.text, next, collected, stringNext]

/-- A character that is written as a glyph in ground phase. -/
def Printed (character : WChar) : Prop :=
  ¬ IsControl character ∨ character = 0x07

theorem printed_ne {character : WChar} (printed : Printed character) (control : WChar)
    (isControl : IsControl control) (notBell : control ≠ 0x07) : character ≠ control := by
  rcases printed with plain | rfl
  · exact ne_of_plain plain isControl
  · exact Ne.symm notBell

theorem printed_action {character : WChar} (printed : Printed character) :
    groundAction character = .text character := by
  have differs (control : WChar) (isControl : IsControl control) (notBell : control ≠ 0x07) :=
    printed_ne printed control isControl notBell
  unfold groundAction
  rw [if_neg]
  rintro (rfl | rfl | rfl | rfl | rfl | rfl | rfl | rfl) <;>
    exact differs _ (by decide) (by decide) rfl

theorem printed_next {character : WChar} (printed : Printed character)
    (phase : parser.phase = .ground) : parser.next character = parser := by
  have notEscape := printed_ne printed 0x1b (by decide) (by decide)
  have notCsi := printed_ne printed 0x9b (by decide) (by decide)
  have notOsc := printed_ne printed 0x9d (by decide) (by decide)
  have notSt := printed_ne printed 0x9c (by decide) (by decide)
  have notDcs := printed_ne printed 0x90 (by decide) (by decide)
  have notSos := printed_ne printed 0x98 (by decide) (by decide)
  have notPm := printed_ne printed 0x9e (by decide) (by decide)
  have notApc := printed_ne printed 0x9f (by decide) (by decide)
  simp only [next, phase, groundNext, if_neg notEscape, if_neg notCsi, if_neg notOsc,
    if_neg notSt, notDcs, notSos, notPm, notApc, or_self, if_false]

theorem run_printed {text : List WChar} (printed : ∀ character ∈ text, Printed character)
    (phase : parser.phase = .ground) : parser.run text = parser := by
  induction text with
  | nil => rfl
  | cons character text ih =>
      have next := printed_next (printed character List.mem_cons_self) phase
      have rest := ih fun other mem => printed other (List.mem_cons_of_mem _ mem)
      exact (congrArg (List.foldl VtOutputParseState.next · text) next).trans rest

/-- The part of a text that reaches the screen: it starts in ground phase, it is not
empty and all of it is printed, and the parser swallows what stands around it. -/
structure Leak (parser : VtOutputParseState) (text : List WChar) where
  before : List WChar
  leaked : List WChar
  after : List WChar
  split : text = before ++ leaked ++ after
  silentBefore : parser.Silent before
  ground : (parser.run before).phase = .ground
  nonempty : leaked ≠ []
  printed : ∀ character ∈ leaked, Printed character
  silentAfter : (parser.run before).Silent after

/-- Where the number of an OSC string is abandoned before the end of the payload, the
rest of the payload is printed, and so is BEL. -/
theorem leak_of_abandoned (phase : parser.phase = .ground) (kind : string.kind = .osc)
    {character : WChar} {rest : List WChar}
    (dropped : string.payload.dropWhile isDigit = character :: rest)
    (noSeparator : character ≠ wc ';') (visible : rest ≠ [] ∨ string.terminator = .bell) :
    Nonempty (Leak parser string.text) := by
  obtain ⟨silent, number⟩ := osc_number phase string.eightBit string.payload
  have plain : ∀ other ∈ rest, Printed other := by
    intro other mem
    apply Or.inl
    apply string.plain other
    apply (List.dropWhile_sublist isDigit).mem
    rw [dropped]
    exact List.mem_cons_of_mem _ mem
  have text := text_osc kind
  rw [dropped] at text
  generalize ControlKind.osc.introducer string.eightBit ++ string.payload.takeWhile isDigit =
    opening at silent number text
  obtain ⟨abandoned, ground⟩ := osc_abandoned number (head_noDigit dropped) noSeparator
  have silentBefore := silent_append silent (silent_cons abandoned silent_nil)
  have groundBefore : (parser.run (opening ++ [character])).phase = .ground := by
    rw [run_append]
    exact ground
  by_cases bell : string.terminator = .bell
  · refine ⟨⟨opening ++ [character], rest ++ [0x07], [], ?_, silentBefore, groundBefore, ?_, ?_,
      silent_nil⟩⟩
    · rw [text, bell]
      simp [ControlTerminator.text]
    · simp
    · intro other mem
      rcases List.mem_append.mp mem with mem | mem
      · exact plain other mem
      · exact .inr (List.mem_singleton.mp mem)
  · refine ⟨⟨opening ++ [character], rest, string.terminator.text, ?_, silentBefore, groundBefore,
      visible.resolve_right bell, plain, (ground_terminator groundBefore bell).1⟩⟩
    rw [text]
    simp

/-- ESC ends the number of an OSC string, and the backslash after it is printed. -/
theorem leak_of_digits (phase : parser.phase = .ground) (kind : string.kind = .osc)
    (dropped : string.payload.dropWhile isDigit = [])
    (escape : string.terminator = .escapeBackslash) :
    Nonempty (Leak parser string.text) := by
  obtain ⟨silent, number⟩ := osc_number phase string.eightBit string.payload
  have text := text_osc kind
  rw [dropped, escape] at text
  generalize ControlKind.osc.introducer string.eightBit ++ string.payload.takeWhile isDigit =
    opening at silent number text
  obtain ⟨abandoned, ground⟩ := osc_abandoned number (show isDigit 0x1b = false by decide)
    (by decide)
  refine ⟨⟨opening ++ [0x1b], [wc '\\'], [], ?_,
    silent_append silent (silent_cons abandoned silent_nil), ?_, by simp, ?_, silent_nil⟩⟩
  · rw [text]
    simp [ControlTerminator.text]
  · rw [run_append]
    exact ground
  · intro other mem
    rw [List.mem_singleton.mp mem]
    exact .inl (by decide)

theorem leak_of_unrecognized (phase : parser.phase = .ground) (kind : string.kind = .osc)
    (unrecognized : ¬ string.Recognized) : Nonempty (Leak parser string.text) := by
  simp only [Recognized, kind] at unrecognized
  cases dropped : string.payload.dropWhile isDigit with
  | nil =>
      rw [dropped] at unrecognized
      exact leak_of_digits phase kind dropped (not_not.mp unrecognized)
  | cons character rest =>
      rw [dropped] at unrecognized
      simp only [not_or, not_and_or, not_not] at unrecognized
      exact leak_of_abandoned phase kind dropped unrecognized.1 unrecognized.2


end ControlString

namespace OutputCall

variable (call : OutputCall)

theorem perform_silent {action : VtAction} (silent : action.Silent) (state : OutputState) :
    (call.perform state action).SamePicture state := by
  cases action with
  | nothing => exact .refl state
  | setTitle title => exact ⟨(OutputState.SamePicture.refl state).buffer, rfl, rfl⟩
  | _ => exact silent.elim

/-- A silent text leaves the picture alone. -/
theorem run_silent (vt : call.mode.vtProcessing = true) {state : OutputState} {text : List WChar}
    (silent : state.buffer.vtOutputParseState.Silent text) :
    (call.run state text).SamePicture state := by
  induction text generalizing state with
  | nil => exact .refl state
  | cons character text ih =>
      rw [run_cons, step_eq_perform vt]
      have first := perform_silent call (silent _ List.mem_cons_self) state
      have rest : (state.buffer.vtOutputParseState.next character).Silent text :=
        fun action mem => silent action (List.mem_cons_of_mem _ mem)
      exact (ih rest).trans (first.withParser_left _)

end OutputCall

section Calls

variable {mode : OutputMode} (answerQueries : Bool)

/-- A call on a buffer without cells does nothing. -/
theorem applyCalls_empty {start : OutputResult}
    (empty : start.buffer.bufferSize.x ≤ 0 ∨ start.buffer.bufferSize.y ≤ 0)
    (pieces : List (List WChar)) :
    (applyCalls mode answerQueries start pieces).buffer = start.buffer := by
  induction pieces generalizing start with
  | nil => rfl
  | cons piece pieces ih =>
      have first : (applyTextToScreenBuffer start.buffer piece mode start.title
          answerQueries).buffer = start.buffer := by
        unfold applyTextToScreenBuffer
        rw [if_pos empty]
      refine (ih ?_).trans first
      rw [first]
      exact empty

theorem apply_silent {buffer : ScreenBuffer} {text : List WChar} (title : Option TitleState)
    (nonempty : ¬ (buffer.bufferSize.x ≤ 0 ∨ buffer.bufferSize.y ≤ 0))
    (vt : mode.vtProcessing = true) (silent : buffer.vtOutputParseState.Silent text) :
    (applyTextToScreenBuffer buffer text mode title answerQueries).buffer.SamePicture buffer ∧
      (applyTextToScreenBuffer buffer text mode title answerQueries).buffer.vtOutputParseState =
        buffer.vtOutputParseState.run text := by
  have started := ScreenBuffer.Parallel.outputState_parseState vt buffer title
  unfold applyTextToScreenBuffer
  rw [if_neg nonempty]
  have ran := OutputCall.run_silent (buffer.outputCall mode answerQueries) vt
    (by rw [← started] at silent; exact silent)
  refine ⟨ran.commit_self vt, ?_⟩
  rw [OutputState.commit_toScreenCore, OutputCall.run_parseState vt, started]

theorem applyCalls_silent (start : OutputResult) (pieces : List (List WChar))
    (nonempty : ¬ (start.buffer.bufferSize.x ≤ 0 ∨ start.buffer.bufferSize.y ≤ 0))
    (vt : mode.vtProcessing = true)
    (silent : start.buffer.vtOutputParseState.Silent pieces.flatten) :
    (applyCalls mode answerQueries start pieces).buffer.SamePicture start.buffer ∧
      (applyCalls mode answerQueries start pieces).buffer.vtOutputParseState =
        start.buffer.vtOutputParseState.run pieces.flatten := by
  induction pieces generalizing start with
  | nil => exact ⟨⟨⟨start.buffer.vtOutputParseState, rfl⟩, rfl⟩, rfl⟩
  | cons piece pieces ih =>
      obtain ⟨first, rest⟩ := VtOutputParseState.silent_of_append silent
      obtain ⟨picture, parser⟩ := apply_silent answerQueries start.title nonempty vt first
      obtain ⟨_, core⟩ := picture.core
      rw [← parser] at rest
      let next := applyTextToScreenBuffer start.buffer piece mode start.title answerQueries
      obtain ⟨final, parsed⟩ := ih { next with replies := start.replies ++ next.replies }
        (by rw [core]; exact nonempty) rest
      refine ⟨final.trans picture, parsed.trans ?_⟩
      rw [List.flatten_cons, VtOutputParseState.run_append, ← parser]

end Calls

namespace ControlString

variable {string : ControlString}

/-- The call that carries the end of a silent text that leads to ground phase. -/
theorem apply_after_silent {middle buffer : ScreenBuffer} {mode : OutputMode}
    {last : List WChar} (answerQueries : Bool)
    (nonempty : ¬ (buffer.bufferSize.x ≤ 0 ∨ buffer.bufferSize.y ≤ 0))
    (vt : mode.vtProcessing = true) (picture : middle.SamePicture buffer)
    (phase : buffer.vtOutputParseState.phase = .ground)
    (silent : middle.vtOutputParseState.Silent last)
    (ground : (middle.vtOutputParseState.run last).phase = .ground) (text : List WChar)
    (first second : Option TitleState) :
    (applyTextToScreenBuffer middle (last ++ text) mode first answerQueries).buffer.Parallel
      (applyTextToScreenBuffer buffer text mode second answerQueries).buffer := by
  obtain ⟨_, core⟩ := picture.core
  have size : middle.bufferSize = buffer.bufferSize := by
    rw [core]
    rfl
  have started := ScreenBuffer.Parallel.outputState_parseState vt middle first
  unfold applyTextToScreenBuffer
  rw [size, if_neg nonempty, if_neg nonempty, ScreenBuffer.Parallel.outputCall picture,
    picture.regs]
  dsimp only
  rw [OutputCall.run_append]
  let call := buffer.outputCall mode answerQueries
  have swallowed : (call.run (middle.outputState mode first) last).Parallel
      (buffer.outputState mode second) := by
    refine ⟨(OutputCall.run_silent call vt ?_).trans
      (ScreenBuffer.Parallel.outputState vt picture first second), ?_⟩
    · rw [started]
      exact silent
    · rw [OutputCall.run_parseState vt, started, VtOutputParseState.live_of_ground _ ground,
        ScreenBuffer.Parallel.outputState_parseState vt, VtOutputParseState.live_of_ground _ phase]
  have ran := swallowed.run call vt text
  refine ⟨ran.picture.commit buffer.regs, ?_⟩
  rw [OutputState.commit_toScreenCore, OutputState.commit_toScreenCore]
  exact ran.parser

/-- What follows a recognized string runs as if the string were absent. -/
theorem recognized_parallel (recognized : string.Recognized) {buffer : ScreenBuffer}
    {mode : OutputMode} (title : Option TitleState) (answerQueries : Bool)
    {front : List (List WChar)} {last : List WChar} (vt : mode.vtProcessing = true)
    (phase : buffer.vtOutputParseState.phase = .ground)
    (split : front.flatten ++ last = string.text) (text : List WChar)
    (rest : List (List WChar)) :
    (applyCalls mode answerQueries ⟨buffer, title, []⟩
        (front ++ (last ++ text) :: rest)).buffer.Parallel
      (applyCalls mode answerQueries ⟨buffer, title, []⟩ (text :: rest)).buffer := by
  by_cases empty : buffer.bufferSize.x ≤ 0 ∨ buffer.bufferSize.y ≤ 0
  · rw [applyCalls_empty answerQueries empty, applyCalls_empty answerQueries empty]
    exact ⟨⟨⟨buffer.vtOutputParseState, rfl⟩, rfl⟩, rfl⟩
  obtain ⟨silent, ground⟩ := recognized_silent recognized phase
  rw [← split] at silent ground
  obtain ⟨silentFront, silentLast⟩ := VtOutputParseState.silent_of_append silent
  obtain ⟨picture, parser⟩ := applyCalls_silent answerQueries ⟨buffer, title, []⟩ front empty
    vt silentFront
  rw [applyCalls_append]
  generalize applyCalls mode answerQueries ⟨buffer, title, []⟩ front = middle at picture parser ⊢
  rw [VtOutputParseState.run_append, ← parser] at ground
  rw [← parser] at silentLast
  have joined := apply_after_silent answerQueries empty vt picture phase silentLast ground text
    middle.title title
  rw [applyCalls_cons, applyCalls_cons]
  apply ScreenBuffer.Parallel.applyCalls vt
  exact joined

theorem recognized_harmless (recognized : string.Recognized) : string.Harmless := by
  intro buffer mode title answerQueries front last vt phase split
  have alone := recognized_parallel recognized title answerQueries vt phase split [] []
  rw [List.append_nil] at alone
  have idle : (applyCalls mode answerQueries ⟨buffer, title, []⟩ [[]]).buffer.Parallel buffer := by
    by_cases empty : buffer.bufferSize.x ≤ 0 ∨ buffer.bufferSize.y ≤ 0
    · rw [applyCalls_empty answerQueries empty]
      exact ⟨⟨⟨buffer.vtOutputParseState, rfl⟩, rfl⟩, rfl⟩
    · obtain ⟨picture, parser⟩ := applyCalls_silent answerQueries ⟨buffer, title, []⟩
        [[]] empty vt VtOutputParseState.silent_nil
      exact ⟨picture, congrArg VtOutputParseState.live parser⟩
  have whole := alone.trans idle
  refine ⟨whole.cells, congrArg VtRegisters.cursor whole.picture.regs, ?_, ?_⟩
  · rw [← VtOutputParseState.live_phase, whole.parser, VtOutputParseState.live_phase]
    exact phase
  · intro text rest
    have later := recognized_parallel recognized title answerQueries vt phase split text rest
    exact ⟨later.cells, congrArg VtRegisters.cursor later.picture.regs⟩

end ControlString

namespace OutputCall

variable {call : OutputCall}

theorem lineFeed_column (state : OutputState) :
    (call.lineFeed state).regs.cursor.x = state.regs.cursor.x := by
  simp only [lineFeed]
  split_ifs <;> simp only [scrollRegionUp_regs]

theorem maybeApplyDelayedWrap_column (state : OutputState) :
    (call.maybeApplyDelayedWrap state).regs.cursor.x = state.regs.cursor.x ∨
      (call.maybeApplyDelayedWrap state).regs.cursor.x = 0 := by
  unfold maybeApplyDelayedWrap
  split
  · split
    · exact .inl rfl
    · dsimp only
      split
      · exact .inr (lineFeed_column _)
      · exact .inl rfl
  · exact .inl rfl

/-- In two columns the cursor stands in the second one after any character. -/
theorem writePrintable_column (vt : call.mode.vtProcessing = true) (width : call.bufferSize.x = 2)
    {state : OutputState} (nonnegative : 0 ≤ state.regs.cursor.x) (value : WChar) :
    (call.writePrintable state value).regs.cursor.x = 1 := by
  have last : toShort (call.bufferSize.x - 1) = 1 := by
    rw [width]
    decide
  have stored : (call.storePrintable (call.maybeApplyDelayedWrap state) value).regs =
      (call.maybeApplyDelayedWrap state).regs := by
    unfold storePrintable
    dsimp only
    split <;> rfl
  unfold writePrintable
  dsimp only
  rw [if_pos vt]
  unfold advanceVt
  dsimp only
  rw [last, stored]
  split
  · rfl
  · have column := call.maybeApplyDelayedWrap_column state
    have first : (call.maybeApplyDelayedWrap state).regs.cursor.x = 0 := by omega
    simp only [first]
    decide

theorem textCharacter_printed {character : WChar} (printed : ControlString.Printed character)
    (state : OutputState) :
    call.textCharacter state character = call.writePrintable state character := by
  have notReturn := ControlString.printed_ne printed 0x0d (by decide) (by decide)
  have notFeed := ControlString.printed_ne printed 0x0a (by decide) (by decide)
  have notBackspace := ControlString.printed_ne printed 0x08 (by decide) (by decide)
  have notTab := ControlString.printed_ne printed 0x09 (by decide) (by decide)
  unfold textCharacter
  simp only [if_neg notReturn, if_neg notFeed, if_neg notBackspace, if_neg notTab, ite_self]

theorem run_printed_column (vt : call.mode.vtProcessing = true) (width : call.bufferSize.x = 2)
    {state : OutputState} (phase : state.buffer.vtOutputParseState.phase = .ground)
    (nonnegative : 0 ≤ state.regs.cursor.x) {text : List WChar} (nonempty : text ≠ [])
    (printed : ∀ character ∈ text, ControlString.Printed character) :
    (call.run state text).regs.cursor.x = 1 := by
  induction text generalizing state with
  | nil => exact absurd rfl nonempty
  | cons character text ih =>
      have here := printed character List.mem_cons_self
      have column : (call.step state character).regs.cursor.x = 1 := by
        rw [step_eq_perform vt]
        simp only [VtOutputParseState.action, phase, ControlString.printed_action here, perform,
          textCharacter_printed here]
        exact writePrintable_column vt width nonnegative character
      rw [run_cons]
      by_cases done : text = []
      · rw [done]
        exact column
      · apply ih ?_ (by omega) done fun other mem => printed other (List.mem_cons_of_mem _ mem)
        rw [step_eq_perform vt, OutputState.withParser]
        simp only [OutputState.parse, ControlString.printed_next here phase]
        exact phase

end OutputCall

namespace ControlString

variable {string : ControlString}

/-- A leak moves the cursor of a buffer of two columns. -/
theorem Leak.column {text : List WChar} (leak : Leak twoCells.vtOutputParseState text) :
    (applyTextToScreenBuffer twoCells text ⟨7⟩ none true).buffer.regs.cursor.x = 1 := by
  let call := twoCells.outputCall ⟨7⟩ true
  have vt : call.mode.vtProcessing = true := by decide
  let start := twoCells.outputState ⟨7⟩ none
  let opened := call.run start leak.before
  let printed := call.run opened leak.leaked
  have opening : opened.SamePicture start := OutputCall.run_silent call vt leak.silentBefore
  have openedParser : opened.buffer.vtOutputParseState =
      twoCells.vtOutputParseState.run leak.before := OutputCall.run_parseState vt start leak.before
  have ground : opened.buffer.vtOutputParseState.phase = .ground := by
    rw [openedParser]
    exact leak.ground
  have column : printed.regs.cursor.x = 1 := by
    apply OutputCall.run_printed_column vt (by decide) ground ?_ leak.nonempty leak.printed
    rw [opening.regs]
    decide
  have printedParser : printed.buffer.vtOutputParseState =
      twoCells.vtOutputParseState.run leak.before := by
    rw [← openedParser, ← run_printed leak.printed ground]
    exact OutputCall.run_parseState vt opened leak.leaked
  have closing : (call.run printed leak.after).SamePicture printed := by
    apply OutputCall.run_silent call vt
    rw [printedParser]
    exact leak.silentAfter
  have ran : call.run start text = call.run printed leak.after :=
    (congrArg (call.run start) leak.split).trans
      (by rw [OutputCall.run_append, OutputCall.run_append])
  have committed : (applyTextToScreenBuffer twoCells text ⟨7⟩ none true).buffer.regs.cursor =
      (call.run start text).regs.cursor := by
    unfold applyTextToScreenBuffer
    rw [if_neg (by decide), OutputState.commit_regs]
  rw [committed, ran, closing.regs]
  exact column

/-- A control string is harmless if and only if the parser recognizes it. -/
theorem harmless_iff_recognized (string : ControlString) :
    string.Harmless ↔ string.Recognized := by
  refine ⟨?_, recognized_harmless⟩
  intro harmless
  have whole := harmless twoCells ⟨7⟩ none true [] string.text (by decide) (by decide) rfl
  obtain ⟨_, cursor, ground, _⟩ := whole
  by_contra unrecognized
  by_cases isOsc : string.kind = .osc
  · obtain ⟨leak⟩ := leak_of_unrecognized (show twoCells.vtOutputParseState.phase = .ground by
      decide) isOsc unrecognized
    have column : (twoCells.regs.cursor.x : Int) = 1 := by
      rw [← cursor]
      exact leak.column
    exact absurd column (by decide)
  · have bell : string.terminator = .bell := by
      cases kind : string.kind with
      | osc => exact absurd kind isOsc
      | _ => simpa only [Recognized, kind, ne_eq, not_not] using unrecognized
    have stuck := string_bell (show twoCells.vtOutputParseState.phase = .ground by decide) isOsc
      bell
    have parsed : (applyTextToScreenBuffer twoCells string.text ⟨7⟩ none
        true).buffer.vtOutputParseState = twoCells.vtOutputParseState.run string.text := by
      unfold applyTextToScreenBuffer
      rw [if_neg (by decide), OutputState.commit_toScreenCore]
      exact OutputCall.run_parseState (by decide) _ _
    rw [← parsed] at stuck
    rw [List.nil_append] at ground
    exact absurd (stuck.symm.trans ground) (by decide)

/-- A DCS string that ends in BEL does not end. -/
theorem not_harmless_dcs_bell : ¬ ∀ string : ControlString, string.Harmless := by
  intro every
  have plain : ∀ character ∈ [wc 'q'], ¬ IsControl character :=
    List.all_iff_forall_prop.mp (by decide)
  have whole := every ⟨.dcs, false, [wc 'q'], .bell, plain⟩ twoCells ⟨7⟩ none true []
    [0x1b, wc 'P', wc 'q', 0x07] (by decide) (by decide) rfl
  exact absurd whole.2.2.1 (by decide +kernel)

end ControlString

end Conhost
