import Conhost.Input.CodePoints
import Conhost.Input.Discard

/-!
# Line-input reads and the editor over code points

A token is a list of strokes: characters, editing keys with their counts, and the
interrupts. The strokes of a text are the strokes of its units, so that an editor over
code points and the line editor of the server can be given the same strokes. As long as
no code point of two units is typed over two or more code points in overwrite mode, the
server's line is the encoding of the text after every stroke, and so is the line that a
read completes.
-/

namespace Conhost

/-- What a line editor is given: a character of its alphabet, an editing key, or an interrupt. -/
inductive Stroke (α : Type) where
  | type (value : α)
  | press (key : EditKey) (ctrl : Bool) (count : Nat)
  | interrupt (breaks : Bool)
deriving DecidableEq, Repr

/-- The strokes of a token. -/
def Token.strokes (processed : Bool) : Token → List (Stroke WChar)
  | .ignoredSequence => []
  | .textUnits chars => chars.map .type
  | .keyEvent key =>
      if !key.keyDown then []
      else if processed && key.matchesCtrlBreak then [.interrupt true]
      else if processed && key.matchesCtrlC then [.interrupt false]
      else
        let count := max 1 key.repeatCount.toNat
        match EditKey.ofVirtualKey key.virtualKeyCode with
        | some editKey => [.press editKey (key.controlKeyState &&& 0x000c != 0) count]
        | none =>
            if key.unicodeChar = 0 then [] else List.replicate count (.type key.unicodeChar)

/-- The strokes of the units of a character. -/
def Stroke.units : Stroke Char → List (Stroke WChar)
  | .type char => (utf16Code.word char).map .type
  | .press key ctrl count => [.press key ctrl count]
  | .interrupt breaks => [.interrupt breaks]

def interruptOutcome (breaks : Bool) : EditLine.Outcome := if breaks then .ctrlBreak else .ctrlC

namespace EditLine

variable (processed controlZ : Bool)

/-- One stroke at a line of units. -/
def handleStroke (edit : EditLine) : Stroke WChar → Effect
  | .type value => edit.handleSingleUnit processed controlZ value
  | .press key ctrl count =>
      { edit := (edit.pressKey key ctrl count).1, echoes := (edit.pressKey key ctrl count).2 }
  | .interrupt breaks => { edit, outcome := interruptOutcome breaks }

/-- Strokes one after the other, up to one that ends the read. -/
def handleStrokes : List (Stroke WChar) → EditLine → Effect
  | [], edit => { edit }
  | stroke :: later, edit =>
      let effect := edit.handleStroke processed controlZ stroke
      match effect.outcome with
      | .proceed =>
          let rest := handleStrokes later effect.edit
          { rest with echoes := effect.echoes ++ rest.echoes }
      | _ => effect

variable {processed controlZ}

theorem handleStrokes_proceeds {stroke : Stroke WChar} {edit : EditLine}
    (proceeds : (edit.handleStroke processed controlZ stroke).outcome = .proceed)
    (later : List (Stroke WChar)) :
    edit.handleStrokes processed controlZ (stroke :: later) =
      { (edit.handleStroke processed controlZ stroke).edit.handleStrokes processed
        controlZ later with
        echoes := (edit.handleStroke processed controlZ stroke).echoes ++
          ((edit.handleStroke processed controlZ stroke).edit.handleStrokes processed controlZ
            later).echoes } := by
  rw [handleStrokes, proceeds]

theorem handleStrokes_ends {stroke : Stroke WChar} {edit : EditLine}
    (ends : (edit.handleStroke processed controlZ stroke).outcome ≠ .proceed)
    (later : List (Stroke WChar)) :
    edit.handleStrokes processed controlZ (stroke :: later) =
      edit.handleStroke processed controlZ stroke := by
  rw [handleStrokes]
  cases outcome : (edit.handleStroke processed controlZ stroke).outcome with
  | proceed => exact absurd outcome ends
  | endOfFile | ctrlC | ctrlBreak | newline => rfl

theorem handleStrokes_single (stroke : Stroke WChar) (edit : EditLine) :
    edit.handleStrokes processed controlZ [stroke] =
      edit.handleStroke processed controlZ stroke := by
  by_cases proceeds : (edit.handleStroke processed controlZ stroke).outcome = .proceed
  · rw [handleStrokes_proceeds proceeds, handleStrokes]
    simp [← proceeds]
  · exact handleStrokes_ends proceeds []

theorem handleStrokes_types (values : List WChar) (edit : EditLine) :
    edit.handleStrokes processed controlZ (values.map .type) =
      edit.handleUnits processed controlZ values := by
  induction values generalizing edit with
  | nil => rfl
  | cons value later ih =>
      cases outcome : (edit.handleSingleUnit processed controlZ value).outcome with
      | proceed => simp [handleStrokes, handleUnits, handleStroke, outcome, ih]
      | endOfFile | ctrlC | ctrlBreak | newline =>
          simp [handleStrokes, handleUnits, handleStroke, outcome]

/-- A token does what its strokes do. -/
theorem handleToken_eq_strokes (edit : EditLine) (token : Token) :
    edit.handleToken processed controlZ token =
      edit.handleStrokes processed controlZ (token.strokes processed) := by
  cases token with
  | ignoredSequence => rfl
  | textUnits chars => exact (handleStrokes_types chars edit).symm
  | keyEvent key =>
      simp only [handleToken, Token.strokes, editKey_eq]
      split
      · rfl
      split
      · exact (handleStrokes_single (.interrupt true) edit).symm
      split
      · exact (handleStrokes_single (.interrupt false) edit).symm
      cases EditKey.ofVirtualKey key.virtualKeyCode with
      | some editKey => exact (handleStrokes_single (.press editKey _ _) edit).symm
      | none =>
          simp only [Option.map_none]
          split
          · rfl
          · have typed := @handleStrokes_types processed controlZ
              (List.replicate (max 1 key.repeatCount.toNat) key.unicodeChar) edit
            rw [List.map_replicate] at typed
            exact typed.symm

/-- Strokes that go on are followed by the later ones; what ends the read is the end. -/
theorem handleStrokes_append (first second : List (Stroke WChar)) (edit : EditLine) :
    let effect := edit.handleStrokes processed controlZ first
    let next := effect.edit.handleStrokes processed controlZ second
    let both := edit.handleStrokes processed controlZ (first ++ second)
    both.edit = (if effect.outcome = .proceed then next.edit else effect.edit) ∧
      both.outcome = if effect.outcome = .proceed then next.outcome else effect.outcome := by
  induction first generalizing edit with
  | nil => exact ⟨rfl, rfl⟩
  | cons stroke later ih =>
      by_cases proceeds : (edit.handleStroke processed controlZ stroke).outcome = .proceed
      · simp only [List.cons_append, handleStrokes_proceeds proceeds]
        exact ih (edit.handleStroke processed controlZ stroke).edit
      · simp only [List.cons_append, handleStrokes_ends proceeds, if_neg proceeds, and_self]

end EditLine

namespace GapLine

variable (processed controlZ : Bool)

/-- One stroke at a text with a gap. -/
def stroke (line : GapLine Char) : Stroke Char → GapLine Char × EditLine.Outcome
  | .type char =>
      if controlZ && line.text.isEmpty && char == Char.ofNat 0x1a then (line, .endOfFile)
      else if processed && char == Char.ofNat 3 then (line, .ctrlC)
      else if char = Char.ofNat 8 then (line.eraseBack 1, .proceed)
      else if char = Char.ofNat 13 ∨ char = Char.ofNat 10 then
        (line.moveForward line.after.length, .newline (char == Char.ofNat 13))
      else (line.type char, .proceed)
  | .press key ctrl count => (line.press isDelimiter key ctrl count, .proceed)
  | .interrupt breaks => (line, interruptOutcome breaks)

/-- Strokes one after the other, up to one that ends the read. -/
def strokes : List (Stroke Char) → GapLine Char → GapLine Char × EditLine.Outcome
  | [], line => (line, .proceed)
  | stroke :: later, line =>
      let next := line.stroke processed controlZ stroke
      match next.2 with
      | .proceed => strokes later next.1
      | _ => next

/-- A stroke that does not type a code point of two units over more than one code point. -/
def Whole (line : GapLine Char) : Stroke Char → Prop
  | .type char => line.insertMode = false → 0x10000 ≤ char.toNat → line.after.length ≤ 1
  | _ => True

/-- Every stroke up to the end of the read is whole where it is made. -/
def AllWhole : GapLine Char → List (Stroke Char) → Prop
  | _, [] => True
  | line, stroke :: later =>
      line.Whole stroke ∧
        ((line.stroke processed controlZ stroke).2 = .proceed →
          AllWhole (line.stroke processed controlZ stroke).1 later)

end GapLine

namespace EditLine

variable {processed controlZ : Bool} {line : GapLine Char}

/-- In overwrite mode an inserted unit takes the place of the next code point. -/
theorem insertUnit_before (front : List WChar) (after : List Char) (value : WChar)
    (insertMode : Bool) :
    ((⟨front ++ utf16Code.encode after, front.length, insertMode⟩ : EditLine).insertUnit
        value).edit =
      ⟨front ++ [value] ++ utf16Code.encode (if insertMode then after else after.tail),
        (front ++ [value]).length, insertMode⟩ := by
  have placed (after : List Char) :
      (⟨front ++ value :: utf16Code.encode after, front.length + 1, insertMode⟩ :
        EditLine).normalizeCursor =
          ⟨front ++ [value] ++ utf16Code.encode after, (front ++ [value]).length, insertMode⟩ := by
    have normalized := (@normalized_before (front ++ [value]) after insertMode).normalizeCursor_eq
    simp only [List.append_assoc, List.singleton_append, List.length_append,
      List.length_singleton] at normalized ⊢
    exact normalized
  simp only [insertUnit]
  rw [List.take_left]
  cases insertMode with
  | true =>
      simp only [Bool.not_true, Bool.false_and, Bool.false_eq_true, if_false, if_true,
        Nat.add_zero, List.drop_left]
      exact placed after
  | false =>
      simp only [Bool.not_false, Bool.true_and, decide_eq_true_eq, Bool.false_eq_true, if_false]
      cases after with
      | nil =>
          rw [if_neg (by simp), Nat.add_zero, List.drop_left]
          exact placed []
      | cons char after =>
          have nonempty := List.length_pos_iff.mpr (utf16Code.word_ne_nil char)
          have next := @nextIndex_word
            ⟨front ++ utf16Code.encode (char :: after), front.length, false⟩ front
            (utf16Code.encode after) char rfl
          rw [if_pos (by simp only [SymbolCode.encode_cons, List.length_append]; omega), next,
            Nat.add_sub_cancel_left, ← List.drop_drop, List.drop_left, SymbolCode.encode_cons,
            List.drop_left]
          exact placed after

theorem insertUnit_outcome (edit : EditLine) (value : WChar) :
    (edit.insertUnit value).outcome = .proceed := rfl

theorem backspace_encode (line : GapLine Char) :
    line.encode.backspace.edit = (line.eraseBack 1).encode ∧
      line.encode.backspace.outcome = .proceed := by
  have cursor : line.encode.cursor = line.position := rfl
  simp only [backspace, cursor, GapLine.position_eq_zero]
  cases nearest : line.before with
  | nil =>
      rw [if_pos rfl, GapLine.eraseBack_of_front nearest]
      exact ⟨rfl, rfl⟩
  | cons char before =>
      have erased := @erase_before line (line.eraseBack 1) [char]
        (by simp [GapLine.eraseBack, nearest]) rfl rfl (line.position - (line.eraseBack 1).position)
        (by simp [GapLine.position, GapLine.eraseBack, nearest])
      have back : line.encode.prevIndex line.position = (line.eraseBack 1).position := by
        rw [@prevIndex_position line.encode line rfl]
        rfl
      rw [if_neg (by simp), back, erased, GapLine.encode_normalizeCursor]
      exact ⟨rfl, rfl⟩

/-- A unit that is no command is inserted. -/
theorem handleSingleUnit_plain {edit : EditLine} (normalized : edit.Normalized) {value : WChar}
    (goesOn : (controlZ && edit.line.isEmpty && value == 0x1a) = false)
    (uninterrupted : (processed && value == 3) = false) (kept : value ≠ 8)
    (inLine : ¬ (value = 13 ∨ value = 10)) :
    edit.handleSingleUnit processed controlZ value = edit.insertUnit value := by
  simp only [handleSingleUnit, normalized.normalizeCursor_eq, goesOn, uninterrupted,
    Bool.false_eq_true, if_false, if_neg kept, if_neg inLine]

theorem not_command_of_surrogate {value : WChar}
    (surrogate : isHighSurrogate value = true ∨ isLowSurrogate value = true) :
    value ≠ 0x1a ∧ value ≠ 3 ∧ value ≠ 8 ∧ ¬ (value = 13 ∨ value = 10) := by
  rw [Platform.isHighSurrogate_iff, Platform.isLowSurrogate_iff] at surrogate
  simp only [ne_eq, ← UInt16.toNat_inj, UInt16.reduceToNat]
  omega

theorem handleSingleUnit_surrogate {edit : EditLine} (normalized : edit.Normalized) {value : WChar}
    (surrogate : isHighSurrogate value = true ∨ isLowSurrogate value = true) :
    edit.handleSingleUnit processed controlZ value = edit.insertUnit value := by
  obtain ⟨notZ, notC, notBack, notLine⟩ := not_command_of_surrogate surrogate
  refine handleSingleUnit_plain normalized ?_ ?_ notBack notLine
  · rw [beq_false_of_ne notZ, Bool.and_false]
  · rw [beq_false_of_ne notC, Bool.and_false]

/-- What typing a character leaves of the text after the gap. -/
def typedAfter (line : GapLine Char) (char : Char) : List Char :=
  if line.insertMode then line.after else line.after.drop (utf16Code.word char).length

theorem handleUnits_single (value : WChar) (edit : EditLine) :
    edit.handleUnits processed controlZ [value] = edit.handleSingleUnit processed controlZ value :=
  (handleStrokes_types [value] edit).symm.trans (handleStrokes_single (.type value) edit)

/-- A character that is no command is inserted unit by unit. -/
theorem handleUnits_word {char : Char}
    (goesOn : (controlZ && line.text.isEmpty && char == Char.ofNat 0x1a) = false)
    (uninterrupted : (processed && char == Char.ofNat 3) = false) (kept : char ≠ Char.ofNat 8)
    (inLine : ¬ (char = Char.ofNat 13 ∨ char = Char.ofNat 10)) :
    let effect := line.encode.handleUnits processed controlZ (utf16Code.word char)
    effect.edit = ({ line with before := char :: line.before, after := typedAfter line char } :
        GapLine Char).encode ∧
      effect.outcome = .proceed := by
  have blank : line.encode.line.isEmpty = line.text.isEmpty := by
    rw [Bool.eq_iff_iff, List.isEmpty_iff, List.isEmpty_iff]
    exact utf16Code.encode_eq_nil
  rcases utf16_word_cases char with
    ⟨unit, word, value, -, -⟩ | ⟨high, low, word, isHigh, -, isLow, -⟩
  · have same (code : Nat) (small : code < 0xd800) :
        unit = UInt16.ofNat code ↔ char = Char.ofNat code := by
      rw [← UInt16.toNat_inj, ← Char.toNat_inj, value, toNat_ofNat_of_valid (.inl small),
        UInt16.toNat_ofNat', Nat.mod_eq_of_lt (by omega)]
    have sameBeq (code : Nat) (small : code < 0xd800) :
        (unit == UInt16.ofNat code) = (char == Char.ofNat code) := by
      rw [Bool.eq_iff_iff, beq_iff_eq, beq_iff_eq]
      exact same code small
    have single := @handleSingleUnit_plain processed controlZ _ line.encode_normalized unit
      (by rw [blank]; exact (congrArg _ (sameBeq 0x1a (by decide))).trans goesOn)
      ((congrArg _ (sameBeq 3 (by decide))).trans uninterrupted)
      (fun typed => kept ((same 8 (by decide)).mp typed))
      (fun typed => inLine (typed.imp (same 13 (by decide)).mp (same 10 (by decide)).mp))
    have inserted := insertUnit_before (utf16Code.encode line.before.reverse) line.after unit
      line.insertMode
    rw [← GapLine.encode_eq] at inserted
    have drops : typedAfter line char =
        if line.insertMode then line.after else line.after.tail := by
      rw [typedAfter, word, List.length_singleton, List.drop_one]
    rw [word, handleUnits_single, single, drops]
    refine ⟨inserted.trans ?_, rfl⟩
    rw [GapLine.encode_eq]
    simp [word]
  · have first := insertUnit_before (utf16Code.encode line.before.reverse) line.after high
      line.insertMode
    have second := insertUnit_before (utf16Code.encode line.before.reverse ++ [high])
      (if line.insertMode then line.after else line.after.tail) low line.insertMode
    rw [← GapLine.encode_eq] at first
    have drops : typedAfter line char =
        if line.insertMode then (if line.insertMode then line.after else line.after.tail)
        else (if line.insertMode then line.after else line.after.tail).tail := by
      cases mode : line.insertMode with
      | true => simp [typedAfter, mode]
      | false => simp [typedAfter, mode, word, ← List.drop_one]
    have typeHigh := @handleSingleUnit_surrogate processed controlZ _ line.encode_normalized high
      (.inl isHigh)
    have typeLow := @handleSingleUnit_surrogate processed controlZ
      (line.encode.insertUnit high).edit (by rw [first]; exact normalized_before) low (.inr isLow)
    have split : line.encode.handleUnits processed controlZ [high, low] =
        { (line.encode.insertUnit high).edit.insertUnit low with
          echoes := (line.encode.insertUnit high).echoes ++
            ((line.encode.insertUnit high).edit.insertUnit low).echoes } := by
      simp only [handleUnits, typeHigh, typeLow, insertUnit_outcome, List.append_nil]
    rw [word, split, drops]
    refine ⟨?_, rfl⟩
    simp only
    rw [first, second, GapLine.encode_eq]
    simp [word]

/-- The server's editor and the one over code points do the same at some strokes. -/
def Agrees (processed controlZ : Bool) (line : GapLine Char) (strokes : List (Stroke Char)) :
    Prop :=
  let effect := line.encode.handleStrokes processed controlZ (strokes.flatMap Stroke.units)
  let next := line.strokes processed controlZ strokes
  effect.edit = next.1.encode ∧ effect.outcome = next.2

theorem moveTo_end (line : GapLine Char) :
    line.encode.moveTo line.encode.line.length = (line.moveForward line.after.length).encode := by
  have last : (line.moveForward line.after.length).position = line.encode.line.length := by
    simp [GapLine.position, GapLine.moveForward, GapLine.encode, GapLine.text]
  rw [← last]
  exact GapLine.moveTo_position (GapLine.moveForward_text _) rfl

theorem encode_inj_after {before first second : List Char} {insertMode : Bool} :
    (⟨before, first, insertMode⟩ : GapLine Char).encode =
        (⟨before, second, insertMode⟩ : GapLine Char).encode ↔ first = second := by
  refine ⟨fun same => ?_, fun same => by rw [same]⟩
  have units := congrArg EditLine.line same
  exact List.append_cancel_left (utf16Code.encode_injective units)

theorem typedAfter_iff (line : GapLine Char) (char : Char) :
    typedAfter line char = (line.type char).after ↔ line.Whole (.type char) := by
  simp only [typedAfter, GapLine.type, GapLine.Whole]
  cases mode : line.insertMode with
  | true => simp
  | false =>
      simp only [Bool.false_eq_true, if_false, true_implies]
      rcases utf16_word_cases char with ⟨unit, word, value, -⟩ | ⟨high, low, word, -, -, -, above⟩
      · have small := unit.toNat_lt
        simp only [word, List.length_singleton, List.drop_one, true_iff]
        omega
      · rw [word]
        simp only [above, true_implies]
        match line.after with
        | [] => simp
        | [_] => simp
        | first :: second :: rest =>
            have longer : rest ≠ second :: rest := by
              intro same
              have lengths := congrArg List.length same
              simp at lengths
            simp [longer]

/-- One stroke ends both editors in the same way, and is the same in both if and only if it is
whole. -/
theorem handleStroke_iff (line : GapLine Char) (stroke : Stroke Char) :
    let effect := line.encode.handleStrokes processed controlZ stroke.units
    let next := line.stroke processed controlZ stroke
    effect.outcome = next.2 ∧ (effect.edit = next.1.encode ↔ line.Whole stroke) := by
  cases stroke with
  | press key ctrl count =>
      simp only [Stroke.units, handleStrokes_single, handleStroke]
      exact ⟨rfl, iff_of_true (pressKey_encode key ctrl count line) trivial⟩
  | interrupt breaks =>
      simp only [Stroke.units, handleStrokes_single, handleStroke]
      exact ⟨rfl, iff_of_true rfl trivial⟩
  | type char =>
      have blank : line.encode.line.isEmpty = line.text.isEmpty := by
        rw [Bool.eq_iff_iff, List.isEmpty_iff, List.isEmpty_iff]
        exact utf16Code.encode_eq_nil
      have command (value : WChar) (small : char.toNat < 0x10000)
          (word : utf16Code.word char = [value]) (next : GapLine Char × Outcome)
          (same : (line.encode.handleSingleUnit processed controlZ value).edit = next.1.encode)
          (outcome : (line.encode.handleSingleUnit processed controlZ value).outcome = next.2) :
          let effect := line.encode.handleUnits processed controlZ (utf16Code.word char)
          effect.outcome = next.2 ∧ (effect.edit = next.1.encode ↔ line.Whole (.type char)) := by
        rw [word, handleUnits_single]
        refine ⟨outcome, iff_of_true same ?_⟩
        intro _ above
        omega
      simp only [Stroke.units, handleStrokes_types, GapLine.stroke]
      by_cases eof : (controlZ && line.text.isEmpty && char == Char.ofNat 0x1a) = true
      · rw [if_pos eof]
        simp only [Bool.and_eq_true, beq_iff_eq] at eof
        rcases eof with ⟨⟨isZ, empty⟩, rfl⟩
        apply command 0x1a (by decide) rfl (line, .endOfFile)
        · simp [handleSingleUnit, isZ, blank, empty]
        · simp [handleSingleUnit, isZ, blank, empty]
      rw [if_neg eof]
      by_cases interrupted : (processed && char == Char.ofNat 3) = true
      · rw [if_pos interrupted]
        simp only [Bool.and_eq_true, beq_iff_eq] at interrupted
        rcases interrupted with ⟨isC, rfl⟩
        apply command 3 (by decide) rfl (line, .ctrlC)
        · simp [handleSingleUnit, isC]
        · simp [handleSingleUnit, isC]
      rw [if_neg interrupted]
      by_cases erases : char = Char.ofNat 8
      · rw [if_pos erases]
        subst erases
        have erased := backspace_encode line
        apply command 8 (by decide) rfl (line.eraseBack 1, .proceed)
        · simp [handleSingleUnit, erased.1]
        · simp [handleSingleUnit, erased.2]
      rw [if_neg erases]
      by_cases enters : char = Char.ofNat 13 ∨ char = Char.ofNat 10
      · rw [if_pos enters]
        have last := moveTo_end line
        rcases enters with rfl | rfl
        · apply command 13 (by decide) rfl (line.moveForward line.after.length, .newline true)
          · simp [handleSingleUnit, last]
          · simp [handleSingleUnit]
        · apply command 10 (by decide) rfl (line.moveForward line.after.length, .newline false)
          · simp [handleSingleUnit, last]
          · simp [handleSingleUnit]
      rw [if_neg enters]
      obtain ⟨typed, proceeds⟩ := @handleUnits_word processed controlZ line char
        (Bool.eq_false_iff.mpr eof) (Bool.eq_false_iff.mpr interrupted) erases enters
      rw [typed, ← typedAfter_iff]
      exact ⟨proceeds, encode_inj_after⟩

theorem agrees_nil (line : GapLine Char) : Agrees processed controlZ line [] := ⟨rfl, rfl⟩

theorem agrees_single_iff {stroke : Stroke Char} :
    Agrees processed controlZ line [stroke] ↔ line.Whole stroke := by
  obtain ⟨outcome, same⟩ := @handleStroke_iff processed controlZ line stroke
  have last : line.strokes processed controlZ [stroke] = line.stroke processed controlZ stroke := by
    simp only [GapLine.strokes]
    split
    · rename_i proceeds
      rw [← proceeds]
    · rfl
  simp only [Agrees, List.flatMap_cons, List.flatMap_nil, List.append_nil, last]
  exact ⟨fun agrees => same.mp agrees.1, fun whole => ⟨same.mpr whole, outcome⟩⟩

/-- After a whole stroke the editors agree if they do so from there on. -/
theorem agrees_cons_iff {stroke : Stroke Char} (whole : line.Whole stroke)
    (later : List (Stroke Char)) :
    Agrees processed controlZ line (stroke :: later) ↔
      ((line.stroke processed controlZ stroke).2 = .proceed →
        Agrees processed controlZ (line.stroke processed controlZ stroke).1 later) := by
  obtain ⟨outcome, same⟩ := @handleStroke_iff processed controlZ line stroke
  obtain ⟨edit, final⟩ := @handleStrokes_append processed controlZ stroke.units
    (later.flatMap Stroke.units) line.encode
  have stroked := same.mpr whole
  rw [stroked, outcome] at edit final
  simp only [Agrees, List.flatMap_cons, edit, final, GapLine.strokes]
  cases result : (line.stroke processed controlZ stroke).2 with
  | proceed => simp
  | endOfFile | ctrlC | ctrlBreak | newline => simp [result]

theorem agrees_of_allWhole {strokes : List (Stroke Char)}
    (whole : line.AllWhole processed controlZ strokes) :
    Agrees processed controlZ line strokes := by
  induction strokes generalizing line with
  | nil => exact agrees_nil line
  | cons stroke later hypothesis =>
      rcases whole with ⟨first, rest⟩
      exact (agrees_cons_iff first later).mpr fun proceeds => hypothesis (rest proceeds)

/-- The editors agree after every stroke if and only if every stroke is whole. -/
theorem forall_agrees_iff {strokes : List (Stroke Char)} :
    (∀ count, Agrees processed controlZ line (strokes.take count)) ↔
      line.AllWhole processed controlZ strokes := by
  induction strokes generalizing line with
  | nil => simp [GapLine.AllWhole, agrees_nil]
  | cons stroke later hypothesis =>
      constructor
      · intro agrees
        have whole : line.Whole stroke := agrees_single_iff.mp (agrees 1)
        refine ⟨whole, fun proceeds => hypothesis.mp fun count => ?_⟩
        exact (agrees_cons_iff whole (later.take count)).mp (agrees (count + 1)) proceeds
      · rintro ⟨whole, rest⟩ count
        cases count with
        | zero => exact agrees_nil line
        | succ count =>
            apply (agrees_cons_iff whole (later.take count)).mpr
            intro proceeds
            exact hypothesis.mpr (rest proceeds) count

end EditLine

namespace Cooked

variable (platform : Platform) (device : Device) (call : CookedCall)

/-- A line-input read takes tokens one after the other. While it waits for the rest of them it is
dispatched again when more bytes have arrived. -/
inductive TakesTokens : CookedState → List Token → Pass CookedState Result → Prop where
  | last {state : CookedState} {token : Token} {length : Nat}
      (decoded : platform.decodeOneInputToken call.codePage state.read.peekHead =
        .token token length) :
      TakesTokens state [token] (body platform device call state)
  | more {state next : CookedState} {token : Token} {length : Nat} {tokens : List Token}
      {pass : Pass CookedState Result}
      (decoded : platform.decodeOneInputToken call.codePage state.read.peekHead =
        .token token length)
      (goesOn : body platform device call state = .next next)
      (later : TakesTokens next tokens pass) : TakesTokens state (token :: tokens) pass
  | waits {state waiting : CookedState} {tokens : List Token} {pass : Pass CookedState Result}
      (bytes : List Byte)
      (idles : body platform device call state = .leave (waiting, .ok .pending))
      (later : TakesTokens (start (arrive waiting bytes)) tokens pass) :
      TakesTokens state tokens pass

variable {platform device call} {state : CookedState}

/-- What a pass does to the line is what its token does. -/
theorem body_edits {token : Token} {length : Nat}
    (decoded : platform.decodeOneInputToken call.codePage state.read.peekHead =
      .token token length) :
    let effect := (editLine state.read.handle).handleToken call.mode.processedInput
      call.processControlZ token
    (body platform device call state).Meets
      (fun next => effect.outcome = .proceed ∧ editLine next.read.handle = effect.edit)
      (fun result => ∀ carriageReturn, effect.outcome = .newline carriageReturn →
        ∀ reply, result.2 = .ok reply → result.1.completed = some effect.edit.line) := by
  have unread := ReadState.exhausted_eq_false_of_token decoded
  have same : editLine (state.read.consume length).handle = editLine state.read.handle := rfl
  simp only [body, unread, decoded, Bool.false_eq_true, if_false, handleToken, same]
  generalize (editLine state.read.handle).handleToken call.mode.processedInput
    call.processControlZ token = effect
  have handle := echoTexts_handle platform device call effect.echoes
    (setEdit { state with read := state.read.consume length } effect.edit)
  split
  · intro _ _ reply delivered
    cases delivered
  · rename_i shown echoed
    rw [echoed] at handle
    have edited : editLine shown.read.handle = effect.edit := by rw [handle]; rfl
    cases outcome : effect.outcome with
    | proceed => exact ⟨rfl, edited⟩
    | endOfFile | ctrlC | ctrlBreak =>
        intro _ newline
        cases newline
    | newline carriageReturn =>
        have line := lineOf_skipLf platform call shown carriageReturn
        simp only [conclude]
        generalize (if carriageReturn then { shown with read := skipLf platform call shown.read }
          else shown) = ended at line
        have suffix := echoText_handle platform device call (newlineSuffix call) ended
        split
        · intro _ _ reply delivered
          cases delivered
        · rename_i finished found
          rw [found] at suffix
          intro _ _ reply _
          change some (lineOf finished) = _
          rw [lineOf, suffix, ← edited]
          exact congrArg some line

/-- A read that waits keeps its line and the screen. -/
theorem body_waits {waiting : CookedState}
    (idles : body platform device call state = .leave (waiting, .ok .pending)) :
    editLine waiting.read.handle = editLine state.read.handle ∧
      waiting.screen = state.screen := by
  have drained (count : Nat) :
      editLine (state.read.drain count).handle = editLine state.read.handle := by
    simp only [ReadState.drain]
    split <;> rfl
  have idled {before : CookedState} (waits : idle before = (waiting, .ok .pending)) :
      waiting = before := by
    simp only [idle] at waits
    split at waits
    · cases waits
    · exact (congrArg Prod.fst waits).symm
  simp only [body] at idles
  split at idles
  · rw [idled (Pass.leave.inj idles)]
    exact ⟨rfl, rfl⟩
  · split at idles
    · rw [idled (Pass.leave.inj idles)]
      exact ⟨drained _, rfl⟩
    · exact absurd rfl (handleToken_complete idles)

theorem TakesTokens.completes {tokens : List Token} {pass : Pass CookedState Result}
    (takes : TakesTokens platform device call state tokens pass) {edit : EditLine}
    (current : editLine state.read.handle = edit) (normalized : edit.Normalized)
    {carriageReturn : Bool}
    (ends : (edit.handleStrokes call.mode.processedInput call.processControlZ
      (tokens.flatMap (Token.strokes call.mode.processedInput))).outcome =
        .newline carriageReturn) :
    ∃ final reply, pass = .leave (final, reply) ∧ ∀ delivered, reply = .ok delivered →
      final.completed = some (edit.handleStrokes call.mode.processedInput call.processControlZ
        (tokens.flatMap (Token.strokes call.mode.processedInput))).edit.line := by
  induction takes generalizing edit with
  | @last state token length decoded =>
      have edits := @body_edits platform device call _ _ _ decoded
      rw [List.flatMap_singleton, ← EditLine.handleToken_eq_strokes] at ends ⊢
      rw [current] at edits
      cases pass : body platform device call state with
      | next after =>
          rw [pass] at edits
          rcases edits with ⟨proceeds, -⟩
          cases proceeds.symm.trans ends
      | leave result =>
          rw [pass] at edits
          exact ⟨result.1, result.2, rfl, edits carriageReturn ends⟩
  | @more state next token length tokens pass decoded goesOn later hypothesis =>
      have edits := @body_edits platform device call _ _ _ decoded
      rw [goesOn, current] at edits
      rcases edits with ⟨proceeds, edited⟩
      obtain ⟨line, final⟩ := @EditLine.handleStrokes_append call.mode.processedInput
        call.processControlZ (token.strokes call.mode.processedInput)
        (tokens.flatMap (Token.strokes call.mode.processedInput)) edit
      rw [← EditLine.handleToken_eq_strokes, if_pos proceeds] at line final
      rw [List.flatMap_cons] at ends ⊢
      rw [final] at ends
      rw [line]
      exact hypothesis edited (normalized.handleToken _ _ token) ends
  | @waits state waiting tokens pass bytes idles later hypothesis =>
      have kept := (body_waits idles).1
      rw [current] at kept
      have resumed : editLine (start (arrive waiting bytes)).read.handle = edit := by
        change (editLine waiting.read.handle).normalizeCursor = edit
        rw [kept, normalized.normalizeCursor_eq]
      exact hypothesis resumed normalized ends

/-- The line editor is the editor over code points as long as no code point of two units is typed
over more than one code point in overwrite mode: it has the encoding of the text after every
stroke if and only if that is so, and then the line that a read completes is the encoding. -/
theorem cookedEditor_codePoints (platform : Platform) (device : Device) (call : CookedCall)
    (line : GapLine Char) (strokes : List (Stroke Char)) :
    ((∀ count, EditLine.Agrees call.mode.processedInput call.processControlZ line
        (strokes.take count)) ↔
      line.AllWhole call.mode.processedInput call.processControlZ strokes) ∧
    ∀ (state : CookedState) (tokens : List Token) (pass : Pass CookedState Result)
      (carriageReturn : Bool),
      line.AllWhole call.mode.processedInput call.processControlZ strokes →
      editLine state.read.handle = line.encode →
      tokens.flatMap (Token.strokes call.mode.processedInput) = strokes.flatMap Stroke.units →
      (line.strokes call.mode.processedInput call.processControlZ strokes).2 =
        .newline carriageReturn →
      TakesTokens platform device call state tokens pass →
      ∃ final reply, pass = .leave (final, reply) ∧ ∀ delivered, reply = .ok delivered →
        final.completed = some (utf16Code.encode
          (line.strokes call.mode.processedInput call.processControlZ strokes).1.text) := by
  refine ⟨EditLine.forall_agrees_iff, ?_⟩
  intro state tokens pass carriageReturn whole current units ends takes
  obtain ⟨edit, outcome⟩ := EditLine.agrees_of_allWhole whole
  rw [← units] at edit outcome
  have completes := takes.completes current line.encode_normalized (outcome.trans ends)
  rw [edit] at completes
  exact completes

/-- A line-input read without echo in processed mode. -/
def silentCall : CookedCall := { capacity := 16, mode := ⟨3⟩ }

/-- A read with a text in progress and bytes to read. -/
def gappedState (line : GapLine Char) (bytes : List Byte) : CookedState :=
  { read :=
      { handle :=
          { cookedLineInProgress := line.encode.line
            cookedLineCursor := line.encode.cursor
            cookedInsertMode := line.insertMode }
        host := { inputQueue := bytes } } }

/-- A letter typed to the left of a code point of two units. -/
theorem cookedEditor_codePoints_left :
    ∃ tokens final reply, TakesTokens .utf8 ⟨fun _ _ => false⟩ silentCall
        (gappedState { before := ['😀'] } [0x1b, 0x5b, 0x44, 98, 13]) tokens
        (.leave (final, .ok reply)) ∧
      final.completed = some (utf16Code.encode ['b', '😀']) := by
  have takes : ∃ final reply, TakesTokens .utf8 ⟨fun _ _ => false⟩ silentCall
      (gappedState { before := ['😀'] } [0x1b, 0x5b, 0x44, 98, 13])
      [.keyEvent { virtualKeyCode := 37 }, .textUnits [98], .textUnits [13]]
      (.leave (final, .ok reply)) := by
    refine ⟨_, _, @TakesTokens.more _ _ _ _ _ _ 3 _ _ rfl rfl
      (@TakesTokens.more _ _ _ _ _ _ 1 _ _ rfl rfl (@TakesTokens.last _ _ _ _ _ 1 rfl))⟩
  rcases takes with ⟨final, reply, takes⟩
  rcases (cookedEditor_codePoints .utf8 ⟨fun _ _ => false⟩ silentCall { before := ['😀'] }
    [.press .leftKey false 1, .type 'b', .type '\r']).2 _ _ _ true
    (by simp [GapLine.AllWhole, GapLine.Whole, GapLine.stroke, GapLine.press, GapLine.moveBack])
    rfl rfl rfl takes with ⟨left, outcome, same, completed⟩
  cases same
  exact ⟨_, _, _, takes, completed reply rfl⟩

/-- After `ab`, Home and Insert, a code point of two units replaces both letters. -/
theorem not_cookedEditor_codePoints :
    let line : GapLine Char := {}
    let strokes : List (Stroke Char) :=
      [.type 'a', .type 'b', .press .homeKey false 1, .press .insertKey false 1, .type '😀',
        .type '\r']
    (line.strokes true false strokes).2 = .newline true ∧
      (line.strokes true false strokes).1.text = ['😀', 'b'] ∧
      ∃ tokens final reply,
        tokens.flatMap (Token.strokes true) = strokes.flatMap Stroke.units ∧
        TakesTokens .utf8 ⟨fun _ _ => false⟩ silentCall
          (gappedState {}
            [97, 98, 0x1b, 0x5b, 0x48, 0x1b, 0x5b, 0x32, 0x7e, 0xf0, 0x9f, 0x98, 0x80, 13])
          tokens (.leave (final, .ok reply)) ∧
        final.completed = some (utf16Code.encode ['😀']) := by
  intro line strokes
  refine ⟨by decide, by decide,
    [.textUnits [97], .textUnits [98], .keyEvent { virtualKeyCode := 36 },
      .keyEvent { virtualKeyCode := 45 }, .textUnits [0xd83d, 0xde00], .textUnits [13]], ?_⟩
  have units : ([.textUnits [97], .textUnits [98], .keyEvent { virtualKeyCode := 36 },
      .keyEvent { virtualKeyCode := 45 }, .textUnits [0xd83d, 0xde00], .textUnits [13]] :
        List Token).flatMap (Token.strokes true) = strokes.flatMap Stroke.units := by
    decide
  refine ⟨_, _, units, @TakesTokens.more _ _ _ _ _ _ 1 _ _ rfl rfl
    (@TakesTokens.more _ _ _ _ _ _ 1 _ _ rfl rfl
      (@TakesTokens.more _ _ _ _ _ _ 3 _ _ rfl rfl
        (@TakesTokens.more _ _ _ _ _ _ 4 _ _ rfl rfl
          (@TakesTokens.more _ _ _ _ _ _ 4 _ _ rfl rfl
            (@TakesTokens.last _ _ _ _ _ 1 rfl))))), rfl⟩

end Cooked

end Conhost
