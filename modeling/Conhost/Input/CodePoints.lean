import Conhost.Input.Conversion
import Conhost.Input.LineEdit
import Conhost.Lib.GapLine

/-!
# The line editor over code points

The line editor works on UTF-16 units. On a line that is the encoding of a text it
steps over, deletes and finds words by whole code points, so that every key does what
it does to the text with a gap in it. Typing is done one unit at a time: a code point
of two units is inserted as a whole, but in overwrite mode each of its units replaces a
code point.
-/

namespace Conhost

/-- The delimiters of words. -/
def isDelimiter (char : Char) : Bool := char == ' ' || char == '\t'

theorem utf16_word_cases (char : Char) :
    (∃ unit, utf16Code.word char = [unit] ∧ unit.toNat = char.toNat ∧
        isHighSurrogate unit = false ∧ isLowSurrogate unit = false) ∨
      ∃ high low, utf16Code.word char = [high, low] ∧ isHighSurrogate high = true ∧
        isLowSurrogate high = false ∧ isLowSurrogate low = true ∧ 0x10000 ≤ char.toNat := by
  rcases utf16Units_cases char with ⟨unit, one, value, plain⟩ | ⟨high, low, two, highValue,
    lowValue, above, below⟩
  · refine .inl ⟨unit, one, value, ?_, ?_⟩
    · rw [Bool.eq_false_iff, ne_eq, Platform.isHighSurrogate_iff]
      omega
    · rw [Bool.eq_false_iff, ne_eq, Platform.isLowSurrogate_iff]
      omega
  · refine .inr ⟨high, low, two, ?_, ?_, ?_, above⟩
    · rw [Platform.isHighSurrogate_iff]
      omega
    · rw [Bool.eq_false_iff, ne_eq, Platform.isLowSurrogate_iff]
      omega
    · rw [Platform.isLowSurrogate_iff]
      omega

namespace EditLine

variable {edit : EditLine} {front rest : List WChar} {char : Char}

theorem unitAt_first {unit : WChar} (units : edit.line = front ++ unit :: rest) :
    edit.unitAt front.length = unit := by
  simp [unitAt, units, List.getD_eq_getElem?_getD]

theorem unitAt_second {high low : WChar} (units : edit.line = front ++ high :: low :: rest) :
    edit.unitAt (front.length + 1) = low := by
  simp [unitAt, units, List.getD_eq_getElem?_getD]

theorem nextIndex_word (units : edit.line = front ++ (utf16Code.word char ++ rest)) :
    edit.nextIndex front.length = front.length + (utf16Code.word char).length := by
  have length := congrArg List.length units
  simp only [List.length_append] at length
  unfold nextIndex
  rcases utf16_word_cases char with
    ⟨unit, word, -, plain, -⟩ | ⟨high, low, word, isHigh, -, isLow, -⟩
  · rw [word] at units length ⊢
    rw [unitAt_first units, plain]
    rw [List.length_singleton] at length
    rw [if_neg (by omega), if_neg (by simp)]
    rfl
  · rw [word] at units length ⊢
    rw [unitAt_first units, unitAt_second units]
    rw [List.length_cons, List.length_singleton] at length
    rw [if_neg (by omega), if_pos ⟨by omega, isHigh, isLow⟩]
    rfl

theorem prevIndex_word (units : edit.line = front ++ (utf16Code.word char ++ rest)) :
    edit.prevIndex (front.length + (utf16Code.word char).length) = front.length := by
  simp only [prevIndex]
  rcases utf16_word_cases char with
    ⟨unit, word, -, -, plain⟩ | ⟨high, low, word, isHigh, -, isLow, -⟩
  · rw [word] at units
    rw [word, List.length_singleton, Nat.add_sub_cancel, unitAt_first units, plain,
      if_neg (by simp)]
  · rw [word] at units
    have back : front.length + [high, low].length - 1 = front.length + 1 := rfl
    rw [word, back, Nat.add_sub_cancel, unitAt_first units, unitAt_second units,
      if_pos ⟨by omega, isLow, isHigh⟩]

theorem isWordDelimiter_word (units : edit.line = front ++ (utf16Code.word char ++ rest)) :
    edit.isWordDelimiter front.length = isDelimiter char := by
  have length := congrArg List.length units
  simp only [List.length_append] at length
  have nonempty := List.length_pos_iff.mpr (utf16Code.word_ne_nil char)
  unfold isWordDelimiter isDelimiter
  rw [decide_eq_true (by omega), Bool.true_and]
  rcases utf16_word_cases char with ⟨unit, word, value, -⟩ | ⟨high, low, word, isHigh, -, -, above⟩
  · rw [word] at units
    rw [unitAt_first units, Bool.eq_iff_iff]
    simp only [Bool.or_eq_true, beq_iff_eq, ← UInt16.toNat_inj, ← Char.toNat_inj, value]
    rfl
  · rw [word] at units
    rw [unitAt_first units]
    have notSpace : high ≠ wc ' ' ∧ high ≠ wc '\t' := by
      constructor <;> (rintro rfl; exact absurd isHigh (by decide))
    have charNotSpace : char ≠ ' ' ∧ char ≠ '\t' := by
      constructor <;> (rintro rfl; exact absurd above (by decide))
    rw [beq_false_of_ne notSpace.1, beq_false_of_ne notSpace.2, beq_false_of_ne charNotSpace.1,
      beq_false_of_ne charNotSpace.2]

/-- A cursor before a code point, or at the end of the line, is no place to normalize. -/
theorem normalized_before {after : List Char} {insertMode : Bool} :
    (⟨front ++ utf16Code.encode after, front.length, insertMode⟩ : EditLine).Normalized := by
  refine ⟨by simp, ?_⟩
  rintro ⟨-, inside, isLow, -⟩
  cases after with
  | nil => simp at inside
  | cons char after =>
      rcases utf16_word_cases char with
        ⟨unit, word, -, -, plain⟩ | ⟨high, low, word, -, plain, -, -⟩
      · rw [SymbolCode.encode_cons, word, unitAt_first rfl, plain] at isLow
        cases isLow
      · rw [SymbolCode.encode_cons, word, unitAt_first rfl, plain] at isLow
        cases isLow

end EditLine

namespace GapLine

variable {line : GapLine Char}

/-- The index of the gap in units. -/
def position (line : GapLine Char) : Nat := (utf16Code.encode line.before.reverse).length

/-- The line in units. -/
def encode (line : GapLine Char) : EditLine where
  line := utf16Code.encode line.text
  cursor := line.position
  insertMode := line.insertMode

theorem position_eq_zero : line.position = 0 ↔ line.before = [] := by
  rw [position, List.length_eq_zero_iff, SymbolCode.encode_eq_nil, List.reverse_eq_nil_iff]

theorem length_encode :
    line.encode.line.length = line.position + (utf16Code.encode line.after).length := by
  rw [encode, text, SymbolCode.encode_append, List.length_append, position]

theorem length_encode_le : line.encode.line.length ≤ line.position ↔ line.after = [] := by
  rw [length_encode, ← utf16Code.encode_eq_nil, ← List.length_eq_zero_iff]
  omega

/-- Units are at least as many as code points. -/
theorem length_le_encode (text : List Char) : text.length ≤ (utf16Code.encode text).length := by
  induction text with
  | nil => exact Nat.zero_le _
  | cons char text ih =>
      have nonempty := List.length_pos_iff.mpr (utf16Code.word_ne_nil char)
      rw [SymbolCode.encode_cons, List.length_append, List.length_cons]
      omega

theorem units_of_before {char : Char} {before : List Char}
    (nearest : line.before = char :: before) :
    utf16Code.encode line.text = utf16Code.encode before.reverse ++
      (utf16Code.word char ++ utf16Code.encode line.after) := by
  simp [text, nearest]

theorem units_of_after {char : Char} {after : List Char} (next : line.after = char :: after) :
    utf16Code.encode line.text = utf16Code.encode line.before.reverse ++
      (utf16Code.word char ++ utf16Code.encode after) := by
  simp [text, next]

theorem position_of_before {char : Char} {before : List Char}
    (nearest : line.before = char :: before) :
    line.position = (utf16Code.encode before.reverse).length + (utf16Code.word char).length := by
  simp [position, nearest]

theorem position_moveForward {char : Char} {after : List Char} (next : line.after = char :: after) :
    (line.moveForward 1).position = line.position + (utf16Code.word char).length := by
  simp [position, moveForward, next]

theorem encode_eq (line : GapLine Char) :
    line.encode = ⟨utf16Code.encode line.before.reverse ++ utf16Code.encode line.after,
      (utf16Code.encode line.before.reverse).length, line.insertMode⟩ := by
  rw [encode, text, SymbolCode.encode_append, position]

theorem encode_normalized (line : GapLine Char) : line.encode.Normalized := by
  rw [encode_eq]
  exact EditLine.normalized_before

@[simp]
theorem encode_normalizeCursor (line : GapLine Char) :
    line.encode.normalizeCursor = line.encode :=
  line.encode_normalized.normalizeCursor_eq

/-- Moving the gap is moving the cursor. -/
theorem moveTo_position {other : GapLine Char} (text : other.text = line.text)
    (insertMode : other.insertMode = line.insertMode) :
    line.encode.moveTo other.position = other.encode := by
  simp only [EditLine.moveTo, encode, text, insertMode]

end GapLine

namespace EditLine

variable {edit : EditLine} {line : GapLine Char}

theorem prevIndex_position (units : edit.line = utf16Code.encode line.text) :
    edit.prevIndex line.position = (line.moveBack 1).position := by
  cases nearest : line.before with
  | nil =>
      have front := GapLine.position_eq_zero.mpr nearest
      rw [GapLine.moveBack_of_front nearest, front, prevIndex]
      rfl
  | cons char before =>
      rw [GapLine.units_of_before nearest] at units
      rw [GapLine.position_of_before nearest, prevIndex_word units]
      simp [GapLine.position, GapLine.moveBack, nearest]

theorem nextIndex_position (units : edit.line = utf16Code.encode line.text) :
    edit.nextIndex line.position = (line.moveForward 1).position := by
  cases next : line.after with
  | nil =>
      rw [GapLine.moveForward_of_back next, nextIndex, units]
      have back : (utf16Code.encode line.text).length ≤ line.position :=
        GapLine.length_encode_le.mpr next
      have inside := @GapLine.length_encode line
      simp only [GapLine.encode] at inside
      rw [if_pos back]
      omega
  | cons char after =>
      rw [GapLine.position_moveForward next, GapLine.position]
      exact nextIndex_word (units.trans (GapLine.units_of_after next))

/-- Steps back over delimiters, or over the others, are steps over code points. -/
theorem backWhile_position (units : edit.line = utf16Code.encode line.text) (delimiter : Bool)
    {fuel : Nat} (enough : line.before.length ≤ fuel) :
    edit.backWhile delimiter fuel line.position =
      (line.moveBack (line.before.takeWhile (isDelimiter · == delimiter)).length).position := by
  induction fuel generalizing line with
  | zero =>
      have front : line.before = [] := List.length_eq_zero_iff.mp (Nat.le_zero.mp enough)
      rw [backWhile, GapLine.moveBack_of_front front]
  | succ fuel ih =>
      cases nearest : line.before with
      | nil =>
          have front := GapLine.position_eq_zero.mpr nearest
          rw [GapLine.moveBack_of_front nearest, backWhile, if_pos front, front]
      | cons char before =>
          have behind : line.position ≠ 0 := by
            rw [ne_eq, GapLine.position_eq_zero, nearest]
            simp
          have back : (line.moveBack 1).before = before := by simp [GapLine.moveBack, nearest]
          have place : (line.moveBack 1).position = (utf16Code.encode before.reverse).length := by
            rw [GapLine.position, back]
          have split := units.trans (GapLine.units_of_before nearest)
          rw [backWhile, if_neg behind, prevIndex_position units, place,
            isWordDelimiter_word split, ← place, List.takeWhile_cons]
          by_cases meets : isDelimiter char = delimiter
          · have rest := @ih (line.moveBack 1) (by rw [GapLine.moveBack_text]; exact units) (by
              rw [back]
              rw [nearest, List.length_cons] at enough
              exact Nat.le_of_succ_le_succ enough)
            rw [back, GapLine.moveBack_add, Nat.add_comm] at rest
            rw [if_pos (by simp [meets]), if_pos (by simp [meets]), rest, List.length_cons]
          · rw [if_neg (by simp [meets]), if_neg (by simp [meets]), List.length_nil,
              GapLine.moveBack_zero]

theorem forwardWhile_position (units : edit.line = utf16Code.encode line.text) (delimiter : Bool)
    {fuel : Nat} (enough : line.after.length ≤ fuel) :
    edit.forwardWhile delimiter fuel line.position =
      (line.moveForward (line.after.takeWhile (isDelimiter · == delimiter)).length).position := by
  have length : edit.line.length ≤ line.position ↔ line.after = [] := by
    rw [units]
    exact GapLine.length_encode_le
  induction fuel generalizing line with
  | zero =>
      have back : line.after = [] := List.length_eq_zero_iff.mp (Nat.le_zero.mp enough)
      rw [forwardWhile, GapLine.moveForward_of_back back]
  | succ fuel ih =>
      cases next : line.after with
      | nil => rw [GapLine.moveForward_of_back next, forwardWhile, if_pos (length.mpr next)]
      | cons char after =>
          have ahead : (line.moveForward 1).after = after := by simp [GapLine.moveForward, next]
          have sort : edit.isWordDelimiter line.position = isDelimiter char :=
            isWordDelimiter_word (units.trans (GapLine.units_of_after next))
          have moved : edit.line = utf16Code.encode (line.moveForward 1).text := by
            rw [GapLine.moveForward_text]
            exact units
          rw [forwardWhile, if_neg (by rw [length, next]; simp), sort, nextIndex_position units,
            List.takeWhile_cons]
          by_cases meets : isDelimiter char = delimiter
          · have rest := @ih (line.moveForward 1) moved (by
              rw [ahead]
              rw [next, List.length_cons] at enough
              exact Nat.le_of_succ_le_succ enough) (by rw [moved]; exact GapLine.length_encode_le)
            rw [ahead, GapLine.moveForward_add, Nat.add_comm] at rest
            rw [if_pos (by simp [meets]), if_pos (by simp [meets]), rest, List.length_cons]
          · rw [if_neg (by simp [meets]), if_neg (by simp [meets]), List.length_nil,
              GapLine.moveForward_zero]

theorem eq_true_delimiter : (fun char => isDelimiter char == true) = isDelimiter := by
  funext char
  exact beq_true _

theorem eq_false_delimiter : (fun char => isDelimiter char == false) = (!isDelimiter ·) := by
  funext char
  exact beq_false _

theorem wordPrev_position (line : GapLine Char) :
    line.encode.wordPrev line.position = (line.moveBack (line.wordBack isDelimiter)).position := by
  have enough : line.before.length ≤ line.position := by
    have bound := GapLine.length_le_encode line.before.reverse
    rwa [List.length_reverse] at bound
  have first := @backWhile_position line.encode line rfl true line.position enough
  have moved (count : Nat) : line.encode.line = utf16Code.encode (line.moveBack count).text := by
    rw [GapLine.moveBack_text]
    rfl
  have second := @backWhile_position line.encode _
    (moved (line.before.takeWhile isDelimiter).length) false line.position (by
      simp only [GapLine.moveBack, List.length_drop]
      omega)
  rw [eq_true_delimiter] at first
  rw [eq_false_delimiter] at second
  rw [wordPrev, first, second, GapLine.moveBack_wordBack]

theorem wordNext_position (line : GapLine Char) :
    line.encode.wordNext line.position =
      (line.moveForward (line.wordForward isDelimiter)).position := by
  have enough : line.after.length ≤ line.encode.line.length := by
    have bound := GapLine.length_le_encode line.after
    rw [GapLine.length_encode]
    omega
  have first := @forwardWhile_position line.encode line rfl false line.encode.line.length enough
  have moved (count : Nat) : line.encode.line = utf16Code.encode (line.moveForward count).text := by
    rw [GapLine.moveForward_text]
    rfl
  have second := @forwardWhile_position line.encode _
    (moved (line.after.takeWhile (!isDelimiter ·)).length) true line.encode.line.length (by
      simp only [GapLine.moveForward, List.length_drop]
      omega)
  rw [eq_false_delimiter] at first
  rw [eq_true_delimiter] at second
  rw [wordNext, first, second, GapLine.moveForward_wordForward]

theorem erase_after {other : GapLine Char} {erased : List Char}
    (before : other.before = line.before) (after : line.after = erased ++ other.after)
    (insertMode : other.insertMode = line.insertMode) {count : Nat}
    (size : count = (utf16Code.encode erased).length) :
    line.encode.erase line.position count = other.encode := by
  have units : line.encode.line = utf16Code.encode line.before.reverse ++
      (utf16Code.encode erased ++ utf16Code.encode other.after) := by
    simp [GapLine.encode, GapLine.text, after]
  have place : line.position = (utf16Code.encode line.before.reverse).length := rfl
  rw [erase, units, place, List.take_left, ← List.drop_drop, List.drop_left, size, List.drop_left]
  simp [GapLine.encode, GapLine.text, GapLine.position, before, insertMode]

theorem erase_before {other : GapLine Char} {erased : List Char}
    (before : line.before = erased ++ other.before) (after : other.after = line.after)
    (insertMode : other.insertMode = line.insertMode) {count : Nat}
    (size : count = (utf16Code.encode erased.reverse).length) :
    (line.encode.erase other.position count).moveTo other.position = other.encode := by
  have units : line.encode.line = utf16Code.encode other.before.reverse ++
      (utf16Code.encode erased.reverse ++ utf16Code.encode line.after) := by
    simp [GapLine.encode, GapLine.text, before]
  have place : other.position = (utf16Code.encode other.before.reverse).length := rfl
  rw [erase, units, place, List.take_left, ← List.drop_drop, List.drop_left, size, List.drop_left]
  simp [moveTo, GapLine.encode, GapLine.text, GapLine.position, after, insertMode]

/-- An edit of units that is repeated is an edit of code points that is repeated. -/
theorem repeatEdit_encode {step : EditLine → Option Edit} {change : GapLine Char → GapLine Char}
    (applies : ∀ line next, step (GapLine.encode line) = some next →
      next.1 = (change line).encode)
    (idle : ∀ line, step (GapLine.encode line) = none → change line = line) (count : Nat)
    (line : GapLine Char) :
    (repeatEdit step count line.encode).1 = (change^[count] line).encode := by
  induction count generalizing line with
  | zero => rfl
  | succ count ih =>
      cases stepped : step line.encode with
      | none =>
          rw [repeatEdit, stepped, Function.iterate_fixed (idle line stepped)]
      | some next =>
          rcases next with ⟨edit, echoes⟩
          have same : edit = (change line).encode := applies line _ stepped
          rw [repeatEdit, stepped, Function.iterate_succ_apply, ← ih, same]

theorem leftStep_encode (ctrl : Bool) (line : GapLine Char) :
    leftStep ctrl line.encode =
      if line.before = [] then none
      else
        let next := line.moveBack (if ctrl then line.wordBack isDelimiter else 1)
        some (next.encode, echoBackspaces (line.position - next.position)) := by
  have cursor : line.encode.cursor = line.position := rfl
  simp only [leftStep, cursor, GapLine.position_eq_zero, wordPrev_position,
    @prevIndex_position line.encode line rfl]
  cases ctrl with
  | true =>
      simp only [if_true]
      rw [GapLine.moveTo_position (GapLine.moveBack_text _) rfl, GapLine.encode_normalizeCursor]
  | false =>
      simp only [Bool.false_eq_true, if_false]
      rw [GapLine.moveTo_position (GapLine.moveBack_text _) rfl, GapLine.encode_normalizeCursor]

theorem rightStep_encode (ctrl : Bool) (line : GapLine Char) :
    rightStep ctrl line.encode =
      if line.after = [] then none
      else
        let next := line.moveForward (if ctrl then line.wordForward isDelimiter else 1)
        some (next.encode, line.encode.echoRange line.position next.position) := by
  have cursor : line.encode.cursor = line.position := rfl
  simp only [rightStep, cursor, GapLine.length_encode_le, wordNext_position,
    @nextIndex_position line.encode line rfl]
  cases ctrl with
  | true =>
      simp only [if_true]
      rw [GapLine.moveTo_position (GapLine.moveForward_text _) rfl, GapLine.encode_normalizeCursor]
  | false =>
      simp only [Bool.false_eq_true, if_false]
      rw [GapLine.moveTo_position (GapLine.moveForward_text _) rfl, GapLine.encode_normalizeCursor]

/-- The units of the next code point. -/
theorem erase_next (line : GapLine Char) :
    line.encode.erase line.position (line.encode.nextIndex line.position - line.position) =
      (line.eraseForward 1).encode := by
  rw [@nextIndex_position line.encode line rfl]
  cases next : line.after with
  | nil =>
      rw [GapLine.moveForward_of_back next]
      apply @erase_after line (line.eraseForward 1) [] rfl
        (by simp [GapLine.eraseForward, next]) rfl
      simp
  | cons char after =>
      rw [GapLine.position_moveForward next]
      apply @erase_after line (line.eraseForward 1) [char] rfl
        (by simp [GapLine.eraseForward, next])
        rfl
      simp

theorem deleteStep_encode (line : GapLine Char) :
    (deleteStep line.encode).map Prod.fst =
      if line.after = [] then none else some (line.eraseForward 1).encode := by
  have cursor : line.encode.cursor = line.position := rfl
  simp only [deleteStep, cursor, GapLine.length_encode_le, erase_next,
    GapLine.encode_normalizeCursor]
  split <;> rfl

theorem escapeKey_encode (ctrl : Bool) (count : Nat) (line : GapLine Char) :
    line.encode.escapeKey.1 = (line.press isDelimiter .escapeKey ctrl count).encode := by
  have empty : line.encode.line = [] ↔ line.text = [] := utf16Code.encode_eq_nil
  simp only [escapeKey, empty, GapLine.press]
  split
  · rename_i blank
    simp only [GapLine.text, List.append_eq_nil_iff, List.reverse_eq_nil_iff] at blank
    simp [GapLine.encode, GapLine.position, GapLine.text, blank]
  · simp [GapLine.encode, GapLine.position, GapLine.text, normalizeCursor]

theorem homeKey_encode (ctrl : Bool) (count : Nat) (line : GapLine Char) :
    (line.encode.homeKey ctrl).1 = (line.press isDelimiter .homeKey ctrl count).encode := by
  have cursor : line.encode.cursor = line.position := rfl
  simp only [homeKey, cursor, GapLine.position_eq_zero, GapLine.press]
  cases ctrl with
  | true =>
      have first : (line.eraseBack line.before.length).position = 0 := by
        simp [GapLine.position_eq_zero, GapLine.eraseBack]
      have erased := @erase_before line (line.eraseBack line.before.length) line.before
        (by simp [GapLine.eraseBack]) rfl rfl line.position rfl
      rw [first] at erased
      split
      · rename_i front
        rw [if_pos rfl, GapLine.eraseBack_of_front front]
      · simp only [if_true]
        rw [erased, GapLine.encode_normalizeCursor]
  | false =>
      have first : (line.moveBack line.before.length).position = 0 := by
        simp [GapLine.position_eq_zero, GapLine.moveBack]
      have moved := @GapLine.moveTo_position line (line.moveBack line.before.length)
        (GapLine.moveBack_text _) rfl
      rw [first] at moved
      split
      · rename_i front
        rw [GapLine.moveBack_of_front front]
        rfl
      · simp only [Bool.false_eq_true, if_false]
        rw [moved, GapLine.encode_normalizeCursor]

theorem endKey_encode (ctrl : Bool) (count : Nat) (line : GapLine Char) :
    (line.encode.endKey ctrl).1 = (line.press isDelimiter .endKey ctrl count).encode := by
  have cursor : line.encode.cursor = line.position := rfl
  have rest : line.encode.line.length - line.position = (utf16Code.encode line.after).length := by
    rw [GapLine.length_encode, Nat.add_sub_cancel_left]
  simp only [endKey, cursor, GapLine.length_encode_le, GapLine.press]
  cases ctrl with
  | true =>
      have erased := @erase_after line (line.eraseForward line.after.length) line.after rfl
        (by simp [GapLine.eraseForward]) rfl _ rest
      split
      · rename_i back
        rw [if_pos rfl, GapLine.eraseForward_of_back back]
      · simp only [if_true]
        rw [erased, GapLine.encode_normalizeCursor]
  | false =>
      have last : (line.moveForward line.after.length).position = line.encode.line.length := by
        simp [GapLine.position, GapLine.moveForward, GapLine.encode, GapLine.text]
      have moved := @GapLine.moveTo_position line (line.moveForward line.after.length)
        (GapLine.moveForward_text _) rfl
      rw [last] at moved
      split
      · rename_i back
        rw [GapLine.moveForward_of_back back]
        rfl
      · simp only [Bool.false_eq_true, if_false]
        rw [moved, GapLine.encode_normalizeCursor]

end EditLine

/-- The editing key of a virtual-key code. -/
def EditKey.ofVirtualKey (virtualKey : UInt16) : Option EditKey :=
  if virtualKey = VtInput.vkInsert then some .insertKey
  else if virtualKey = 0x1b then some .escapeKey
  else if virtualKey = VtInput.vkHome then some .homeKey
  else if virtualKey = VtInput.vkEnd then some .endKey
  else if virtualKey = VtInput.vkLeft then some .leftKey
  else if virtualKey = VtInput.vkRight then some .rightKey
  else if virtualKey = VtInput.vkDelete then some .deleteKey
  else none

namespace EditLine

/-- What an editing key does to a line of units. -/
def pressKey (edit : EditLine) (key : EditKey) (ctrl : Bool) (count : Nat) : Edit :=
  match key with
  | .insertKey => (if count % 2 = 1 then { edit with insertMode := !edit.insertMode } else edit, [])
  | .escapeKey => edit.escapeKey
  | .homeKey => edit.homeKey ctrl
  | .endKey => edit.endKey ctrl
  | .leftKey => repeatEdit (leftStep ctrl) count edit
  | .rightKey => repeatEdit (rightStep ctrl) count edit
  | .deleteKey => repeatEdit deleteStep count edit

theorem editKey_eq (edit : EditLine) (virtualKey : UInt16) (ctrl : Bool) (count : Nat) :
    edit.editKey virtualKey ctrl count =
      (EditKey.ofVirtualKey virtualKey).map fun key => edit.pressKey key ctrl count := by
  unfold editKey EditKey.ofVirtualKey
  split
  · rfl
  split
  · rfl
  split
  · rfl
  split
  · rfl
  split
  · rfl
  split
  · rfl
  split
  · rfl
  · rfl

/-- An editing key does to the units what it does to the code points. -/
theorem pressKey_encode (key : EditKey) (ctrl : Bool) (count : Nat) (line : GapLine Char) :
    (line.encode.pressKey key ctrl count).1 = (line.press isDelimiter key ctrl count).encode := by
  cases key with
  | insertKey =>
      simp only [pressKey, GapLine.press]
      split <;> rfl
  | escapeKey => exact escapeKey_encode ctrl count line
  | homeKey => exact homeKey_encode ctrl count line
  | endKey => exact endKey_encode ctrl count line
  | leftKey =>
      apply repeatEdit_encode
      · intro line next stepped
        rw [leftStep_encode] at stepped
        split at stepped
        · cases stepped
        · cases stepped
          rfl
      · intro line stepped
        rw [leftStep_encode] at stepped
        split at stepped
        · rename_i front
          exact GapLine.moveBack_of_front front _
        · cases stepped
  | rightKey =>
      apply repeatEdit_encode
      · intro line next stepped
        rw [rightStep_encode] at stepped
        split at stepped
        · cases stepped
        · cases stepped
          rfl
      · intro line stepped
        rw [rightStep_encode] at stepped
        split at stepped
        · rename_i back
          exact GapLine.moveForward_of_back back _
        · cases stepped
  | deleteKey =>
      apply repeatEdit_encode
      · intro line next stepped
        have first := deleteStep_encode line
        rw [stepped] at first
        split at first
        · cases first
        · exact Option.some.inj first
      · intro line stepped
        have first := deleteStep_encode line
        rw [stepped] at first
        split at first
        · rename_i back
          exact GapLine.eraseForward_of_back back 1
        · cases first

end EditLine

end Conhost
