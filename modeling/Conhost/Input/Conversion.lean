import Conhost.Input.Decode
import Conhost.Lib.Unicode

/-!
# The conversions of UTF-8

What is assumed of the conversions of the operating system in the code page
UTF-8, in terms of the two encodings. The conversion from UTF-16 encodes text
exactly and replaces a surrogate that is not part of a pair.
-/

namespace Conhost

namespace Platform

/-- `WideCharToMultiByte` without flags: text is encoded exactly, and a lone surrogate becomes
U+FFFD. -/
def ReplacesLoneSurrogates (platform : Platform) : Prop :=
  ∀ units, platform.wideCharToMultiByte cpUtf8 units = utf16ToUtf8 units

/-- `MultiByteToWideChar` with `MB_ERR_INVALID_CHARS` converts a UTF-8 sequence exactly. -/
def DecodesUtf8 (platform : Platform) : Prop :=
  ∀ char, platform.multiByteToWideChar cpUtf8 true (utf8Code.word char) = utf16Code.word char

theorem isHighSurrogate_iff {unit : WChar} :
    isHighSurrogate unit = true ↔ 0xd800 ≤ unit.toNat ∧ unit.toNat < 0xdc00 := by
  simp only [isHighSurrogate, Bool.and_eq_true, decide_eq_true_eq, UInt16.le_iff_toNat_le,
    UInt16.toNat_ofNat]
  omega

theorem isLowSurrogate_iff {unit : WChar} :
    isLowSurrogate unit = true ↔ 0xdc00 ≤ unit.toNat ∧ unit.toNat < 0xe000 := by
  simp only [isLowSurrogate, Bool.and_eq_true, decide_eq_true_eq, UInt16.le_iff_toNat_le,
    UInt16.toNat_ofNat]
  omega

theorem unitToUtf8_lossy {unit : WChar} {rest : List WChar}
    (alone : isHighSurrogate unit = true → ∀ next ∈ rest.head?, ¬ isLowSurrogate next = true) :
    utf16ToUtf8 (unit :: rest) = unitToUtf8 unit ++ utf16ToUtf8 rest := by
  simp only [utf16ToUtf8, unitToUtf8]
  by_cases high : isHighSurrogate unit = true
  · have isHigh := isHighSurrogate_iff.mp high
    rw [lossy_high replacementChar isHigh (by simpa [isLowSurrogate_iff] using alone high)]
    simp [high]
    rfl
  · by_cases low : isLowSurrogate unit = true
    · rw [lossy_low replacementChar (isLowSurrogate_iff.mp low)]
      simp [high, low]
      rfl
    · have plain : unit.toNat < 0xd800 ∨ 0xdfff < unit.toNat := by
        rw [isHighSurrogate_iff] at high
        rw [isLowSurrogate_iff] at low
        omega
      rw [lossy_plain replacementChar plain]
      simp [high, low]
      rfl

theorem pairToUtf8_eq (high low : WChar) :
    pairToUtf8 high low = utf8Code.word (Char.ofNat (pairCodePoint high low)) := by
  rw [utf8Code_word]
  unfold pairToUtf8
  congr 2

theorem wideToUtf8_eq (units : List WChar) : wideToUtf8 units = utf16ToUtf8 units := by
  induction units using wideToUtf8.induct with
  | case1 => simp [wideToUtf8, utf16ToUtf8]
  | case2 unit =>
      rw [wideToUtf8, unitToUtf8_lossy (by simp)]
      simp [utf16ToUtf8]
  | case3 first second rest pair ih =>
      simp only [Bool.and_eq_true] at pair
      rw [wideToUtf8, if_pos (by simpa using pair), ih, utf16ToUtf8, utf16ToUtf8,
        lossy_pair replacementChar (isHighSurrogate_iff.mp pair.1) (isLowSurrogate_iff.mp pair.2),
        SymbolCode.encode_cons, pairToUtf8_eq]
  | case4 first second rest apart ih =>
      have alone : isHighSurrogate first = true →
          ∀ next ∈ (second :: rest).head?, ¬ isLowSurrogate next = true := by
        simpa using apart
      rw [wideToUtf8, if_neg apart, ih, unitToUtf8_lossy alone]

theorem utf8_replacesLoneSurrogates : Platform.utf8.ReplacesLoneSurrogates := by
  intro units
  rw [← wideToUtf8_eq]
  rfl

theorem isContinuation_iff (byte : Byte) :
    isContinuation byte = true ↔ 0x80 ≤ byte.toNat ∧ byte.toNat < 0xc0 := by
  have table : ∀ value : Fin 256, isContinuation (UInt8.ofNat value) = true ↔
      0x80 ≤ value.val ∧ value.val < 0xc0 := by decide +kernel
  have row := table ⟨byte.toNat, byte.toNat_lt⟩
  simpa only [UInt8.ofNat_toNat] using row

theorem continuationBits_eq (byte : Byte) : continuationBits byte = byte.toNat % 64 := by
  rw [continuationBits, UInt8.toNat_and]
  exact Nat.and_two_pow_sub_one_eq_mod byte.toNat 6

theorem leadBits_eq (byte : Byte) : (byte &&& 0x1f).toNat = byte.toNat % 32 ∧
    (byte &&& 0x0f).toNat = byte.toNat % 16 ∧ (byte &&& 0x07).toNat = byte.toNat % 8 := by
  refine ⟨?_, ?_, ?_⟩
  · rw [UInt8.toNat_and]
    exact Nat.and_two_pow_sub_one_eq_mod byte.toNat 5
  · rw [UInt8.toNat_and]
    exact Nat.and_two_pow_sub_one_eq_mod byte.toNat 4
  · rw [UInt8.toNat_and]
    exact Nat.and_two_pow_sub_one_eq_mod byte.toNat 3

theorem lead3_iff (byte : Byte) :
    (byte &&& 0xf0 == 0xe0) = true ↔ 0xe0 ≤ byte.toNat ∧ byte.toNat < 0xf0 := by
  have table : ∀ value : Fin 256, (UInt8.ofNat value &&& 0xf0 == 0xe0) = true ↔
      0xe0 ≤ value.val ∧ value.val < 0xf0 := by decide +kernel
  have row := table ⟨byte.toNat, byte.toNat_lt⟩
  simpa only [UInt8.ofNat_toNat] using row

theorem utf8CodePoint_two {first second : Byte} (lead : 0xc2 ≤ first.toNat ∧ first.toNat < 0xe0)
    (range : 0x80 ≤ second.toNat ∧ second.toNat < 0xc0) (rest : List Byte) :
    utf8CodePoint (first :: second :: rest) =
      some (2, first.toNat % 32 * 64 + second.toNat % 64) := by
  have notOne : ¬first < 0x80 := by
    rw [UInt8.lt_iff_toNat_lt]
    change ¬first.toNat < 0x80
    omega
  have two : (0xc2 ≤ first && first ≤ 0xdf && isContinuation second) = true := by
    simp only [Bool.and_eq_true, decide_eq_true_eq, isContinuation_iff, UInt8.le_iff_toNat_le,
      UInt8.toNat_ofNat]
    omega
  simp only [utf8CodePoint, if_neg notOne, if_pos two, leadBits_eq, continuationBits_eq]

theorem utf8CodePoint_three {first second third : Byte}
    (lead : 0xe0 ≤ first.toNat ∧ first.toNat < 0xf0)
    (range : SecondByte first.toNat second.toNat)
    (tail : 0x80 ≤ third.toNat ∧ third.toNat < 0xc0) (rest : List Byte) :
    utf8CodePoint (first :: second :: third :: rest) =
      some (3, first.toNat % 16 * 4096 + second.toNat % 64 * 64 + third.toNat % 64) := by
  obtain ⟨low, high, e0, ed, -, -⟩ := range
  have notOne : ¬first < 0x80 := by
    rw [UInt8.lt_iff_toNat_lt]
    change ¬first.toNat < 0x80
    omega
  have notTwo : ¬(0xc2 ≤ first && first ≤ 0xdf && isContinuation second) = true := by
    simp only [Bool.and_eq_true, decide_eq_true_eq, isContinuation_iff, UInt8.le_iff_toNat_le,
      UInt8.toNat_ofNat]
    omega
  have three : (first &&& 0xf0 == 0xe0 && isContinuation second && isContinuation third &&
      (first != 0xe0 || 0xa0 ≤ second) && (first != 0xed || second < 0xa0)) = true := by
    simp only [Bool.and_eq_true, Bool.or_eq_true, bne_iff_ne, ne_eq, decide_eq_true_eq, lead3_iff,
      isContinuation_iff, UInt8.le_iff_toNat_le, UInt8.lt_iff_toNat_lt, ← UInt8.toNat_inj,
      UInt8.toNat_ofNat]
    omega
  simp only [utf8CodePoint, if_neg notOne, if_neg notTwo, if_pos three, leadBits_eq,
    continuationBits_eq]

theorem utf8CodePoint_four {first second third fourth : Byte}
    (lead : 0xf0 ≤ first.toNat ∧ first.toNat < 0xf5)
    (range : SecondByte first.toNat second.toNat)
    (tail : 0x80 ≤ third.toNat ∧ third.toNat < 0xc0)
    (last : 0x80 ≤ fourth.toNat ∧ fourth.toNat < 0xc0) (rest : List Byte) :
    utf8CodePoint (first :: second :: third :: fourth :: rest) =
      some (4, first.toNat % 8 * 262144 + second.toNat % 64 * 4096 + third.toNat % 64 * 64 +
        fourth.toNat % 64) := by
  obtain ⟨low, high, -, -, f0, f4⟩ := range
  have notOne : ¬first < 0x80 := by
    rw [UInt8.lt_iff_toNat_lt]
    change ¬first.toNat < 0x80
    omega
  have notTwo : ¬(0xc2 ≤ first && first ≤ 0xdf && isContinuation second) = true := by
    simp only [Bool.and_eq_true, decide_eq_true_eq, isContinuation_iff, UInt8.le_iff_toNat_le,
      UInt8.toNat_ofNat]
    omega
  have notThree : ¬(first &&& 0xf0 == 0xe0 && isContinuation second && isContinuation third &&
      (first != 0xe0 || 0xa0 ≤ second) && (first != 0xed || second < 0xa0)) = true := by
    simp only [Bool.and_eq_true, lead3_iff]
    omega
  have four : (0xf0 ≤ first && first ≤ 0xf4 && isContinuation second && isContinuation third &&
      isContinuation fourth && (first != 0xf0 || 0x90 ≤ second) &&
      (first != 0xf4 || second < 0x90)) = true := by
    simp only [Bool.and_eq_true, Bool.or_eq_true, bne_iff_ne, ne_eq, decide_eq_true_eq,
      isContinuation_iff, UInt8.le_iff_toNat_le, UInt8.lt_iff_toNat_lt, ← UInt8.toNat_inj,
      UInt8.toNat_ofNat]
    omega
  simp only [utf8CodePoint, if_neg notOne, if_neg notTwo, if_neg notThree, if_pos four,
    leadBits_eq, continuationBits_eq]

/-- The number a character's sequence stands for. -/
theorem utf8CodePoint_word (char : Char) (rest : List Byte) :
    utf8CodePoint (utf8Code.word char ++ rest) =
      some ((utf8Code.word char).length, char.toNat) := by
  have valid : char.toNat < 0xd800 ∨ 0xdfff < char.toNat ∧ char.toNat < 0x110000 := char.valid
  have value : char.val.toNat = char.toNat := rfl
  have sequence := utf8Sequence_word char
  rw [utf8Code_word, String.utf8EncodeChar] at sequence ⊢
  simp only [value] at sequence ⊢
  split at sequence
  · rename_i one
    cases sequence with
    | one lead =>
        have small : UInt8.ofNat char.toNat < 0x80 := by
          rw [UInt8.lt_iff_toNat_lt]
          exact lead
        simp only [if_pos one, List.singleton_append, utf8CodePoint, if_pos small,
          List.length_singleton, UInt8.toNat_ofNat']
        congr 2
        omega
  · rename_i notOne
    split at sequence
    · rename_i two
      cases sequence with
      | two lead range =>
          simp only [if_neg notOne, if_pos two, List.cons_append, List.nil_append,
            utf8CodePoint_two lead ⟨range.1, range.2.1⟩, UInt8.toNat_ofNat', List.length_cons,
            List.length_nil]
          congr 2
          omega
    · rename_i notTwo
      split at sequence
      · rename_i three
        cases sequence with
        | three lead range tail =>
            simp only [if_neg notOne, if_neg notTwo, if_pos three, List.cons_append,
              List.nil_append, utf8CodePoint_three lead range tail, UInt8.toNat_ofNat',
              List.length_cons, List.length_nil]
            congr 2
            omega
      · rename_i notThree
        cases sequence with
        | four lead range tail last =>
            simp only [if_neg notOne, if_neg notTwo, if_neg notThree, List.cons_append,
              List.nil_append, utf8CodePoint_four lead range tail last, UInt8.toNat_ofNat',
              List.length_cons, List.length_nil]
            congr 2
            omega

theorem utf8ToWide_skip (strict : Bool) (bytes : List Byte) :
    utf8ToWide strict bytes.length bytes = some [] := by
  induction bytes with
  | nil => rfl
  | cons first rest ih => exact ih

theorem utf8_decodesUtf8 : Platform.utf8.DecodesUtf8 := by
  intro char
  have codePoint := utf8CodePoint_word char []
  obtain ⟨first, tail, word⟩ := List.exists_cons_of_ne_nil (utf8Code.word_ne_nil char)
  rw [List.append_nil, word] at codePoint
  have units : codePointUnits char.toNat = utf16Code.word char := rfl
  have decoded : utf8ToWide true 0 (first :: tail) = some (utf16Code.word char) := by
    rw [utf8ToWide, codePoint]
    simp only [List.length_cons, Nat.add_sub_cancel, utf8ToWide_skip, units]
    simp
  rw [word]
  change (utf8ToWide true 0 (first :: tail)).getD [] = _
  rw [decoded, Option.getD_some]

end Platform

end Conhost
