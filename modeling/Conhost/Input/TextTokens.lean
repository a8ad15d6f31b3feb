import Mathlib.Algebra.Group.Nat.Defs
import Conhost.Input.Conversion
import Conhost.Input.LineEdit

/-!
# Text and key sequences

A terminal sends a character as its UTF-8 bytes, or in win32-input-mode as one
key-down sequence for each of its UTF-16 units. Either way the tokenizer of the
input stream takes it off the front of the stream whole.
-/

namespace Conhost

open VtInput (tryDecodeVt)

/-- No C0 control character. -/
def Printable (text : List Char) : Prop := ∀ char ∈ text, 0x20 ≤ char.toNat

theorem utf8Sequence_ofNat : ∀ value : Fin 256, Platform.utf8Sequence (UInt8.ofNat value) =
    if value.val < 0x80 then some 1
    else if value.val < 0xc0 then none
    else if value.val < 0xe0 then some 2
    else if value.val < 0xf0 then some 3
    else if value.val < 0xf8 then some 4
    else none := by
  decide +kernel

theorem utf8Sequence_lead {number length : Nat}
    (range : length = 1 ∧ number < 0x80 ∨ length = 2 ∧ 0xc0 ≤ number ∧ number < 0xe0 ∨
      length = 3 ∧ 0xe0 ≤ number ∧ number < 0xf0 ∨ length = 4 ∧ 0xf0 ≤ number ∧ number < 0xf8) :
    Platform.utf8Sequence (UInt8.ofNat number) = some length := by
  have table := utf8Sequence_ofNat ⟨number, by omega⟩
  simp only at table
  rw [table]
  rcases range with ⟨rfl, _⟩ | ⟨rfl, _⟩ | ⟨rfl, _⟩ | ⟨rfl, _⟩
  · rw [if_pos (by omega)]
  · rw [if_neg (by omega), if_neg (by omega), if_pos (by omega)]
  · rw [if_neg (by omega), if_neg (by omega), if_neg (by omega), if_pos (by omega)]
  · rw [if_neg (by omega), if_neg (by omega), if_neg (by omega), if_neg (by omega),
      if_pos (by omega)]

/-- The lead byte of a character other than Escape tells its length, and introduces no VT
sequence. -/
theorem utf8Code_word_lead {char : Char} (other : char.toNat ≠ 0x1b) :
    ∃ lead tail, utf8Code.word char = lead :: tail ∧
      Platform.utf8Sequence lead = some (utf8Code.word char).length ∧
      lead ≠ VtInput.escByte ∧ lead ≠ VtInput.csiByte := by
  have value : char.val.toNat ≠ 0x1b := other
  have shape {number length : Nat} (bound : number < 256) (large : number ≠ 0x1b)
      (found : Platform.utf8Sequence (UInt8.ofNat number) = some length) :
      Platform.utf8Sequence (UInt8.ofNat number) = some length ∧
        UInt8.ofNat number ≠ VtInput.escByte ∧ UInt8.ofNat number ≠ VtInput.csiByte := by
    refine ⟨found, ?_, ?_⟩
    · intro same
      have number' := congrArg UInt8.toNat same
      rw [UInt8.toNat_ofNat'] at number'
      change number % 256 = 0x1b at number'
      omega
    · intro same
      rw [same] at found
      cases found
  rw [utf8Code_word, String.utf8EncodeChar]
  split
  · have found : Platform.utf8Sequence (UInt8.ofNat char.val.toNat) = some 1 :=
      utf8Sequence_lead (by omega)
    exact ⟨_, _, rfl, shape (by omega) (by omega) found⟩
  · split
    · have found : Platform.utf8Sequence (UInt8.ofNat (char.val.toNat / 64 % 32 + 192)) =
          some 2 := utf8Sequence_lead (by omega)
      exact ⟨_, _, rfl, shape (by omega) (by omega) found⟩
    · split
      · have found : Platform.utf8Sequence (UInt8.ofNat (char.val.toNat / 4096 % 16 + 224)) =
            some 3 := utf8Sequence_lead (by omega)
        exact ⟨_, _, rfl, shape (by omega) (by omega) found⟩
      · have found : Platform.utf8Sequence (UInt8.ofNat (char.val.toNat / 262144 % 8 + 240)) =
            some 4 := utf8Sequence_lead (by omega)
        exact ⟨_, _, rfl, shape (by omega) (by omega) found⟩

/-- An ASCII byte stands at the front of its own character only. -/
theorem utf8Code_word_ascii (char : Char) : ∃ lead tail, utf8Code.word char = lead :: tail ∧
    (lead.toNat < 0x80 → lead.toNat = char.toNat) := by
  have value : char.val.toNat = char.toNat := rfl
  rw [utf8Code_word, String.utf8EncodeChar]
  split
  · refine ⟨_, _, rfl, ?_⟩
    rw [UInt8.toNat_ofNat']
    omega
  · split
    · refine ⟨_, _, rfl, ?_⟩
      rw [UInt8.toNat_ofNat']
      omega
    · split
      · refine ⟨_, _, rfl, ?_⟩
        rw [UInt8.toNat_ofNat']
        omega
      · refine ⟨_, _, rfl, ?_⟩
        rw [UInt8.toNat_ofNat']
        omega

theorem length_utf16Code_word (char : Char) :
    0 < (utf16Code.word char).length ∧ (utf16Code.word char).length ≤ 2 := by
  rw [utf16Code_word, utf16Units]
  split <;> simp

theorem length_utf8Code_word (char : Char) :
    0 < (utf8Code.word char).length ∧ (utf8Code.word char).length ≤ 4 := by
  rw [utf8Code_word, String.length_utf8EncodeChar]
  exact ⟨char.utf8Size_pos, char.utf8Size_le_four⟩

theorem tryDecodeVt_lead {lead : Byte} (notEscape : lead ≠ VtInput.escByte)
    (notCsi : lead ≠ VtInput.csiByte) (rest : List Byte) :
    tryDecodeVt (lead :: rest) = .noMatch := by
  simp [tryDecodeVt, notEscape, notCsi]

/-- A character is taken off the front of the stream whole. -/
theorem decodeOneInputToken_char {platform : Platform} (decodes : platform.DecodesUtf8)
    {char : Char} (other : char.toNat ≠ 0x1b) (rest : List Byte) :
    platform.decodeOneInputToken cpUtf8 (utf8Code.word char ++ rest) =
      .token (.textUnits (utf16Code.word char)) (utf8Code.word char).length := by
  obtain ⟨lead, tail, word, sequence, notEscape, notCsi⟩ := utf8Code_word_lead other
  have units := length_utf16Code_word char
  have converted : ¬(utf16Code.word char = [] ∨ 2 < (utf16Code.word char).length) := by
    rw [not_or]
    exact ⟨utf16Code.word_ne_nil char, by omega⟩
  have noMatch : tryDecodeVt (utf8Code.word char ++ rest) = .noMatch := by
    rw [word]
    exact tryDecodeVt_lead notEscape notCsi _
  have unit : platform.decodeOneConsoleInputUnit cpUtf8 (utf8Code.word char ++ rest) =
      platform.decodeSequence cpUtf8 true (utf8Code.word char ++ rest)
        (utf8Code.word char).length := by
    conv_lhs => rw [word, List.cons_append, Platform.decodeOneConsoleInputUnit, if_pos rfl]
    rw [sequence, ← List.cons_append, ← word]
  have long : ¬(utf8Code.word char ++ rest).length < (utf8Code.word char).length := by
    rw [List.length_append]
    omega
  simp only [Platform.decodeOneInputToken, noMatch, unit, Platform.decodeSequence, if_neg long,
    List.take_left, decodes char, if_neg converted]

/-- A text without control characters does not begin with one. -/
theorem head_encode {text : List Char} (plain : Printable text) {byte : Byte}
    (control : byte < 0x20) : (utf8Code.encode text).head? ≠ some byte := by
  cases text with
  | nil => simp
  | cons char text =>
      have large := plain char List.mem_cons_self
      rcases utf8Code_word_ascii char with ⟨lead, tail, word, ascii⟩
      rw [utf8Code.encode_cons, word]
      intro head
      simp only [List.cons_append, List.head?_cons, Option.some.injEq] at head
      subst head
      have small : lead.toNat < 0x20 := UInt8.lt_iff_toNat_lt.mp control
      have value := ascii (by omega)
      omega

theorem utf16Code_word_ne_ctrlC {char : Char} (large : 0x20 ≤ char.toNat) :
    (utf16Code.word char == [3]) = false := by
  rw [beq_eq_false_iff_ne]
  intro same
  rcases utf16Units_cases char with ⟨unit, units, value, -⟩ | ⟨high, low, units, -⟩
  · rw [utf16Code_word, units] at same
    cases same
    change (3 : UInt16).toNat = _ at value
    simp only [UInt16.reduceToNat] at value
    omega
  · rw [utf16Code_word, units] at same
    cases same

/-- The virtual keys with which the line editor does something else than insert a character. -/
def editingKeys : List UInt16 :=
  [VtInput.vkInsert, 0x1b, VtInput.vkHome, VtInput.vkEnd, VtInput.vkLeft, VtInput.vkRight,
    VtInput.vkDelete]

/-- The digits of a number. -/
def decimal (value : Nat) : List Byte :=
  if value < 10 then [UInt8.ofNat (48 + value)]
  else decimal (value / 10) ++ [UInt8.ofNat (48 + value % 10)]

namespace VtInput

theorem scanParams_digit {digit : Nat} (bound : digit < 10) (scan : ParamScan) (pos : Nat)
    (rest : List Byte) :
    scanParams scan pos (UInt8.ofNat (48 + digit) :: rest) =
      scanParams { scan with
          currentPresent := true
          current := saturatingMulAdd10 scan.current (UInt32.ofNat digit) } (pos + 1) rest := by
  have isDigit' : ∀ digit : Fin 10, isDigit (UInt8.ofNat (48 + digit)) = true ∧
      (UInt8.ofNat (48 + digit) - bc '0').toUInt32 = UInt32.ofNat digit := by decide
  obtain ⟨yes, value⟩ := isDigit' ⟨digit, bound⟩
  simp only at yes value
  rw [scanParams, if_pos yes, ParamScan.digit, value]

theorem saturatingMulAdd10_ofNat {value digit : Nat} (small : value * 10 + digit < 4294967296)
    (bound : digit < 10) :
    saturatingMulAdd10 (UInt32.ofNat value) (UInt32.ofNat digit) =
      UInt32.ofNat (value * 10 + digit) := by
  have first : (UInt32.ofNat value).toNat = value := by
    rw [UInt32.toNat_ofNat']
    omega
  have second : (UInt32.ofNat digit).toNat = digit := by
    rw [UInt32.toNat_ofNat']
    omega
  have fits : ¬(0xffffffff - UInt32.ofNat digit) / 10 < UInt32.ofNat value := by
    rw [UInt32.lt_iff_toNat_lt, UInt32.toNat_div, UInt32.toNat_sub_of_le, first, second]
    · change ¬(4294967295 - digit) / 10 < value
      omega
    · rw [UInt32.le_iff_toNat_le, second]
      change digit ≤ 4294967295
      omega
  rw [saturatingMulAdd10, if_neg fits, UInt32.ofNat_add, UInt32.ofNat_mul]
  rfl

theorem scanParams_decimal {value : Nat} (small : value < 4294967296) (scan : ParamScan)
    (fresh : scan.current = 0) (pos : Nat) (rest : List Byte) :
    scanParams scan pos (decimal value ++ rest) =
      scanParams { scan with currentPresent := true, current := UInt32.ofNat value }
        (pos + (decimal value).length) rest := by
  induction value using decimal.induct generalizing rest with
  | case1 value digit =>
      have zero : saturatingMulAdd10 (UInt32.ofNat 0) (UInt32.ofNat value) =
          UInt32.ofNat value := by
        rw [saturatingMulAdd10_ofNat (by omega) digit]
        simp
      rw [decimal, if_pos digit, List.singleton_append, scanParams_digit digit, fresh]
      exact congrArg (fun current => scanParams { scan with currentPresent := true, current }
        (pos + 1) rest) zero
  | case2 value large ih =>
      have parts : value / 10 * 10 + value % 10 = value := by omega
      rw [decimal, if_neg large, List.append_assoc, ih (by omega), List.singleton_append,
        scanParams_digit (Nat.mod_lt _ (by omega))]
      simp only [saturatingMulAdd10_ofNat (by omega : value / 10 * 10 + value % 10 < 4294967296)
        (Nat.mod_lt value (by omega : 10 > 0)), parts, List.length_append, List.length_singleton]
      rfl

theorem saturateWord_ofNat (word : UInt16) : saturateWord (UInt32.ofNat word.toNat) = word := by
  have small := word.toNat_lt
  have value : (UInt32.ofNat word.toNat).toNat = word.toNat := by
    rw [UInt32.toNat_ofNat']
    omega
  have fits : ¬0xffff < UInt32.ofNat word.toNat := by
    rw [UInt32.lt_iff_toNat_lt, value]
    change ¬65535 < word.toNat
    omega
  rw [saturateWord, if_neg fits]
  apply UInt16.toNat_inj.mp
  rw [UInt32.toNat_toUInt16, value]
  omega

end VtInput

theorem length_decimal {digits value : Nat} (small : value < 10 ^ (digits + 1)) :
    (decimal value).length ≤ digits + 1 := by
  induction digits generalizing value with
  | zero =>
      rw [decimal, if_pos (by simpa using small)]
      simp
  | succ digits ih =>
      rw [decimal]
      split
      · simp
      · have shorter : (decimal (value / 10)).length ≤ digits + 1 := by
          apply ih
          rw [Nat.pow_succ] at small
          omega
        rw [List.length_append]
        simp only [List.length_singleton]
        omega

theorem length_decimal_word (word : UInt16) : (decimal word.toNat).length ≤ 5 := by
  have small := word.toNat_lt
  exact length_decimal (by omega)

end Conhost
