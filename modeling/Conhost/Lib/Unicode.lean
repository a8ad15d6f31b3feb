import Conhost.Lib.SymbolCode

/-!
# UTF-8 and UTF-16

The two encodings of Unicode text as codes. A `Char` is a Unicode scalar value,
so a surrogate is the text of nothing.
-/

namespace Conhost

theorem utf8EncodeChar_prefix {first second : Char}
    (inside : String.utf8EncodeChar first <+: String.utf8EncodeChar second) : first = second := by
  obtain ⟨rest, split⟩ := inside
  have read (char : Char) (rest : List UInt8) :
      (String.utf8EncodeChar char ++ rest).toByteArray.utf8DecodeChar? 0 = some char := by
    simp only [List.toByteArray_append]
    exact ByteArray.utf8DecodeChar?_utf8EncodeChar_append
  have same := read first rest
  rw [split, ← List.append_nil (String.utf8EncodeChar second), read second []] at same
  exact (Option.some.inj same).symm

theorem utf8EncodeChar_tail {char other : Char} {byte : UInt8}
    (inside : byte ∈ (String.utf8EncodeChar char).tail) :
    byte ∉ (String.utf8EncodeChar other).head? := by
  intro first
  obtain ⟨index, bound, rfl⟩ := List.mem_iff_getElem.mp inside
  rw [List.getElem_tail] at first
  rw [Option.mem_def, List.head?_eq_getElem?, List.getElem?_eq_some_iff] at first
  obtain ⟨positive, same⟩ := first
  have begins : ((String.utf8EncodeChar other)[0]).IsUTF8FirstByte :=
    UInt8.isUTF8FirstByte_getElem_utf8EncodeChar.mpr rfl
  rw [same, UInt8.isUTF8FirstByte_getElem_utf8EncodeChar] at begins
  omega

/-- UTF-8. -/
def utf8Code : SymbolCode Char UInt8 where
  word := String.utf8EncodeChar
  word_ne_nil _ := String.utf8EncodeChar_ne_nil
  prefixFree _ _ := utf8EncodeChar_prefix
  synchronizing _ _ inside _ := utf8EncodeChar_tail inside

theorem utf8Code_word (char : Char) : utf8Code.word char = String.utf8EncodeChar char := rfl

/-- The UTF-16 encoding of a code point. -/
def utf16Units (codePoint : Nat) : List UInt16 :=
  if codePoint < 0x10000 then [UInt16.ofNat codePoint]
  else [UInt16.ofNat (0xd800 + (codePoint - 0x10000) / 0x400),
    UInt16.ofNat (0xdc00 + (codePoint - 0x10000) % 0x400)]

/-- A character has one unit that is no surrogate, or a high and a low surrogate. -/
theorem utf16Units_cases (char : Char) :
    (∃ unit, utf16Units char.toNat = [unit] ∧ unit.toNat = char.toNat ∧
        (char.toNat < 0xd800 ∨ 0xe000 ≤ char.toNat)) ∨
      ∃ high low, utf16Units char.toNat = [high, low] ∧
        high.toNat = 0xd800 + (char.toNat - 0x10000) / 0x400 ∧
        low.toNat = 0xdc00 + (char.toNat - 0x10000) % 0x400 ∧
        0x10000 ≤ char.toNat ∧ char.toNat < 0x110000 := by
  have valid : char.toNat < 0xd800 ∨ 0xdfff < char.toNat ∧ char.toNat < 0x110000 := char.valid
  unfold utf16Units
  split
  · refine .inl ⟨_, rfl, ?_, by omega⟩
    rw [UInt16.toNat_ofNat']
    omega
  · refine .inr ⟨_, _, rfl, ?_, ?_, by omega, by omega⟩
    · rw [UInt16.toNat_ofNat']
      omega
    · rw [UInt16.toNat_ofNat']
      omega

theorem utf16Units_prefix {first second : Char}
    (inside : utf16Units first.toNat <+: utf16Units second.toNat) : first = second := by
  apply Char.toNat_inj.mp
  obtain ⟨rest, split⟩ := inside
  rcases utf16Units_cases first with ⟨unit, one, value, plain⟩ | ⟨high, low, two, highValue,
    lowValue, above, below⟩
  · rcases utf16Units_cases second with ⟨unit', one', value', -⟩ | ⟨high', low', two', highValue',
      -, above', below'⟩
    · rw [one, one'] at split
      cases split
      rw [← value, value']
    · rw [one, two'] at split
      cases split
      omega
  · rcases utf16Units_cases second with ⟨unit', one', -⟩ | ⟨high', low', two', highValue',
      lowValue', above', below'⟩
    · rw [two, one'] at split
      cases split
    · rw [two, two'] at split
      cases split
      omega

theorem utf16Units_tail {char other : Char} {unit : UInt16}
    (inside : unit ∈ (utf16Units char.toNat).tail) :
    unit ∉ (utf16Units other.toNat).head? := by
  intro first
  rcases utf16Units_cases char with ⟨_, one, -⟩ | ⟨high, low, two, -, lowValue, -, -⟩
  · simp [one] at inside
  · have same : unit = low := by simpa [two] using inside
    subst same
    rcases utf16Units_cases other with ⟨unit', one, value, plain⟩ | ⟨high', low', two', highValue,
      -, above, below⟩
    · simp only [one, List.head?_cons, Option.mem_def, Option.some.injEq] at first
      subst first
      omega
    · simp only [two', List.head?_cons, Option.mem_def, Option.some.injEq] at first
      subst first
      omega

/-- UTF-16. -/
def utf16Code : SymbolCode Char UInt16 where
  word char := utf16Units char.toNat
  word_ne_nil char := by
    unfold utf16Units
    split <;> simp
  prefixFree _ _ := utf16Units_prefix
  synchronizing _ _ inside _ := utf16Units_tail inside

theorem toNat_ofNat_of_valid {codePoint : Nat}
    (valid : codePoint < 0xd800 ∨ 0xdfff < codePoint ∧ codePoint < 0x110000) :
    (Char.ofNat codePoint).toNat = codePoint := by
  have isValid : codePoint.isValidChar := valid
  rw [Char.ofNat, dif_pos isValid]
  rfl

theorem utf16Code_word (char : Char) : utf16Code.word char = utf16Units char.toNat := rfl

theorem utf16Code_word_plain {unit : UInt16} (plain : unit.toNat < 0xd800 ∨ 0xdfff < unit.toNat) :
    utf16Code.word (Char.ofNat unit.toNat) = [unit] := by
  have bound := unit.toNat_lt
  rw [utf16Code_word, toNat_ofNat_of_valid (by omega), utf16Units, if_pos (by omega),
    UInt16.ofNat_toNat]

/-- The code point of a surrogate pair. -/
def pairCodePoint (high low : UInt16) : Nat :=
  0x10000 + (high.toNat - 0xd800) * 0x400 + (low.toNat - 0xdc00)

theorem pairCodePoint_parts {high low : UInt16}
    (isHigh : 0xd800 ≤ high.toNat ∧ high.toNat < 0xdc00)
    (isLow : 0xdc00 ≤ low.toNat ∧ low.toNat < 0xe000) :
    0x10000 ≤ pairCodePoint high low ∧ pairCodePoint high low < 0x110000 ∧
      0xd800 + (pairCodePoint high low - 0x10000) / 0x400 = high.toNat ∧
      0xdc00 + (pairCodePoint high low - 0x10000) % 0x400 = low.toNat := by
  unfold pairCodePoint
  generalize high.toNat = first at isHigh ⊢
  generalize low.toNat = second at isLow ⊢
  omega

theorem utf16Code_word_pair {high low : UInt16}
    (isHigh : 0xd800 ≤ high.toNat ∧ high.toNat < 0xdc00)
    (isLow : 0xdc00 ≤ low.toNat ∧ low.toNat < 0xe000) :
    utf16Code.word (Char.ofNat (pairCodePoint high low)) = [high, low] := by
  obtain ⟨above, below, quotient, remainder⟩ := pairCodePoint_parts isHigh isLow
  generalize pairCodePoint high low = codePoint at above below quotient remainder ⊢
  rw [utf16Code_word, toNat_ofNat_of_valid (by omega), utf16Units, if_neg (by omega), quotient,
    remainder, UInt16.ofNat_toNat, UInt16.ofNat_toNat]

section Lossy

variable (replacement : Char)

theorem lossy_plain {unit : UInt16} (plain : unit.toNat < 0xd800 ∨ 0xdfff < unit.toNat)
    (rest : List UInt16) :
    utf16Code.lossy replacement (unit :: rest) =
      Char.ofNat unit.toNat :: utf16Code.lossy replacement rest := by
  rw [← List.singleton_append, ← utf16Code_word_plain plain, SymbolCode.lossy_word_append]

theorem lossy_pair {high low : UInt16} (isHigh : 0xd800 ≤ high.toNat ∧ high.toNat < 0xdc00)
    (isLow : 0xdc00 ≤ low.toNat ∧ low.toNat < 0xe000) (rest : List UInt16) :
    utf16Code.lossy replacement (high :: low :: rest) =
      Char.ofNat (pairCodePoint high low) :: utf16Code.lossy replacement rest := by
  have word := utf16Code_word_pair isHigh isLow
  rw [show high :: low :: rest = [high, low] ++ rest from rfl, ← word,
    SymbolCode.lossy_word_append]

theorem lossy_low {low : UInt16} (isLow : 0xdc00 ≤ low.toNat ∧ low.toNat < 0xe000)
    (rest : List UInt16) :
    utf16Code.lossy replacement (low :: rest) =
      replacement :: utf16Code.lossy replacement rest := by
  have word : utf16Code.word (Char.ofNat (pairCodePoint 0xd800 low)) = [0xd800, low] :=
    utf16Code_word_pair (by decide) isLow
  exact utf16Code.lossy_inside replacement (by rw [word]; simp) rest

/-- A word that begins with a high surrogate goes on with a low one. -/
theorem utf16Code_word_high {high : UInt16} {more : List UInt16} {char : Char}
    (isHigh : 0xd800 ≤ high.toNat ∧ high.toNat < 0xdc00)
    (begins : utf16Code.word char = high :: more) :
    ∃ low, more = [low] ∧ 0xdc00 ≤ low.toNat ∧ low.toNat < 0xe000 := by
  rw [utf16Code_word] at begins
  rcases utf16Units_cases char with ⟨unit, one, value, plain⟩ | ⟨first, low, two, -, lowValue, -, -⟩
  · rw [one] at begins
    cases begins
    omega
  · rw [two] at begins
    cases begins
    exact ⟨low, rfl, by omega⟩

theorem lossy_high {high : UInt16} (isHigh : 0xd800 ≤ high.toNat ∧ high.toNat < 0xdc00)
    {rest : List UInt16}
    (alone : ∀ low ∈ rest.head?, ¬ (0xdc00 ≤ low.toNat ∧ low.toNat < 0xe000)) :
    utf16Code.lossy replacement (high :: rest) =
      replacement :: utf16Code.lossy replacement rest := by
  have word : utf16Code.word (Char.ofNat (pairCodePoint high 0xdc00)) = [high, 0xdc00] :=
    utf16Code_word_pair isHigh (by decide)
  rw [← List.singleton_append]
  refine utf16Code.lossy_part replacement (by simp) ⟨_, by rw [word]; simp⟩ ?_ ?_
  · intro char length longer bound inside
    cases rest with
    | nil =>
        simp only [List.append_nil] at bound
        omega
    | cons low rest =>
        have two : [high, low] <+: utf16Code.word char :=
          (List.take_prefix_take_left longer).trans inside
        obtain ⟨more, begins⟩ := two
        obtain ⟨low', same, isLow⟩ := utf16Code_word_high isHigh begins.symm
        cases same
        exact alone low rfl isLow
  · rintro char ⟨more, begins⟩
    obtain ⟨first, tail, split⟩ := List.exists_cons_of_ne_nil (utf16Code.word_ne_nil char)
    rw [split, List.cons_append, List.singleton_append, List.cons.injEq] at begins
    obtain ⟨rfl, begins⟩ := begins
    obtain ⟨low, rfl, isLow⟩ := utf16Code_word_high isHigh split
    rw [← begins] at alone
    exact alone low rfl isLow

end Lossy

/-- U+FFFD. -/
def replacementChar : Char := Char.ofNat 0xfffd

/-- UTF-16 text of UTF-8 bytes of any kind. -/
noncomputable def utf8ToUtf16 (bytes : List UInt8) : List UInt16 :=
  utf16Code.encode (utf8Code.lossy replacementChar bytes)

/-- UTF-8 text of UTF-16 units of any kind. -/
noncomputable def utf16ToUtf8 (units : List UInt16) : List UInt8 :=
  utf8Code.encode (utf16Code.lossy replacementChar units)

theorem flatMap_utf8ToUtf16 (pieces : List (List UInt8)) :
    pieces.flatMap utf8ToUtf16 =
      utf16Code.encode (pieces.flatMap (utf8Code.lossy replacementChar)) := by
  rw [SymbolCode.encode, List.flatMap_assoc]
  rfl

theorem flatMap_utf16ToUtf8 (pieces : List (List UInt16)) :
    pieces.flatMap utf16ToUtf8 =
      utf8Code.encode (pieces.flatMap (utf16Code.lossy replacementChar)) := by
  rw [SymbolCode.encode, List.flatMap_assoc]
  rfl

theorem flatMap_utf8ToUtf16_eq_iff {pieces : List (List UInt8)}
    (whole : utf8Code.WellFormed pieces.flatten) :
    pieces.flatMap utf8ToUtf16 = utf8ToUtf16 pieces.flatten ↔
      ∀ piece ∈ pieces, utf8Code.WellFormed piece := by
  rw [flatMap_utf8ToUtf16, utf8ToUtf16, utf16Code.encode_injective.eq_iff]
  exact utf8Code.flatMap_lossy_eq_iff replacementChar whole

theorem flatMap_utf16ToUtf8_eq_iff {pieces : List (List UInt16)}
    (whole : utf16Code.WellFormed pieces.flatten) :
    pieces.flatMap utf16ToUtf8 = utf16ToUtf8 pieces.flatten ↔
      ∀ piece ∈ pieces, utf16Code.WellFormed piece := by
  rw [flatMap_utf16ToUtf8, utf16ToUtf8, utf8Code.encode_injective.eq_iff]
  exact utf16Code.flatMap_lossy_eq_iff replacementChar whole

@[simp]
theorem utf8ToUtf16_eq_nil {bytes : List UInt8} : utf8ToUtf16 bytes = [] ↔ bytes = [] := by
  rw [utf8ToUtf16, SymbolCode.encode_eq_nil]
  constructor
  · intro none
    by_contra some
    exact utf8Code.lossy_ne_nil replacementChar some none
  · rintro rfl
    simp

/-- The second byte of a sequence of three or four bytes. -/
def SecondByte (lead second : Nat) : Prop :=
  0x80 ≤ second ∧ second < 0xc0 ∧ (lead = 0xe0 → 0xa0 ≤ second) ∧ (lead = 0xed → second < 0xa0) ∧
    (lead = 0xf0 → 0x90 ≤ second) ∧ (lead = 0xf4 → second < 0x90)

/-- The well-formed sequences of one to four bytes. -/
inductive Utf8Sequence : List UInt8 → Prop where
  | one {first : UInt8} (lead : first.toNat < 0x80) : Utf8Sequence [first]
  | two {first second : UInt8} (lead : 0xc2 ≤ first.toNat ∧ first.toNat < 0xe0)
      (range : SecondByte first.toNat second.toNat) : Utf8Sequence [first, second]
  | three {first second third : UInt8} (lead : 0xe0 ≤ first.toNat ∧ first.toNat < 0xf0)
      (range : SecondByte first.toNat second.toNat)
      (tail : 0x80 ≤ third.toNat ∧ third.toNat < 0xc0) : Utf8Sequence [first, second, third]
  | four {first second third fourth : UInt8} (lead : 0xf0 ≤ first.toNat ∧ first.toNat < 0xf5)
      (range : SecondByte first.toNat second.toNat)
      (tail : 0x80 ≤ third.toNat ∧ third.toNat < 0xc0)
      (last : 0x80 ≤ fourth.toNat ∧ fourth.toNat < 0xc0) :
      Utf8Sequence [first, second, third, fourth]

theorem utf8Sequence_word (char : Char) : Utf8Sequence (utf8Code.word char) := by
  have valid : char.toNat < 0xd800 ∨ 0xdfff < char.toNat ∧ char.toNat < 0x110000 := char.valid
  change char.val.toNat < _ ∨ _ < char.val.toNat ∧ char.val.toNat < _ at valid
  rw [utf8Code_word, String.utf8EncodeChar]
  split
  · refine .one ?_
    rw [UInt8.toNat_ofNat']
    omega
  · split
    · refine .two ?_ ?_
      · rw [UInt8.toNat_ofNat']
        omega
      · simp only [SecondByte, UInt8.toNat_ofNat']
        omega
    · split
      · refine .three ?_ ?_ ?_
        · rw [UInt8.toNat_ofNat']
          omega
        · simp only [SecondByte, UInt8.toNat_ofNat']
          omega
        · rw [UInt8.toNat_ofNat']
          omega
      · refine .four ?_ ?_ ?_ ?_
        · rw [UInt8.toNat_ofNat']
          omega
        · simp only [SecondByte, UInt8.toNat_ofNat']
          omega
        · rw [UInt8.toNat_ofNat']
          omega
        · rw [UInt8.toNat_ofNat']
          omega

theorem exists_word_of_utf8Sequence {bytes : List UInt8} (sequence : Utf8Sequence bytes) :
    ∃ char, utf8Code.word char = bytes := by
  have byte {number : Nat} {value : UInt8} (same : number = value.toNat) :
      UInt8.ofNat number = value := by
    rw [same]
    exact UInt8.ofNat_toNat
  have encodes {number : Nat}
      (valid : number < 0xd800 ∨ 0xdfff < number ∧ number < 0x110000) :
      ∃ char : Char, char.val.toNat = number := ⟨Char.ofNat number, toNat_ofNat_of_valid valid⟩
  cases sequence with
  | @one first lead =>
      obtain ⟨char, value⟩ : ∃ char : Char, char.val.toNat = first.toNat := encodes (by omega)
      refine ⟨char, ?_⟩
      rw [utf8Code_word, String.utf8EncodeChar]
      simp only [value]
      rw [if_pos (by omega), byte rfl]
  | @two first second lead range =>
      obtain ⟨char, value⟩ : ∃ char : Char, char.val.toNat =
          (first.toNat - 0xc0) * 64 + (second.toNat - 0x80) := encodes (by
        simp only [SecondByte] at range
        omega)
      refine ⟨char, ?_⟩
      simp only [SecondByte] at range
      rw [utf8Code_word, String.utf8EncodeChar]
      simp only [value]
      rw [if_neg (by omega), if_pos (by omega), List.cons.injEq, List.cons.injEq]
      exact ⟨byte (by omega), byte (by omega), rfl⟩
  | @three first second third lead range tail =>
      obtain ⟨char, value⟩ : ∃ char : Char, char.val.toNat =
          (first.toNat - 0xe0) * 4096 + (second.toNat - 0x80) * 64 + (third.toNat - 0x80) :=
        encodes (by
          simp only [SecondByte] at range
          omega)
      refine ⟨char, ?_⟩
      simp only [SecondByte] at range
      rw [utf8Code_word, String.utf8EncodeChar]
      simp only [value]
      rw [if_neg (by omega), if_neg (by omega), if_pos (by omega), List.cons.injEq,
        List.cons.injEq, List.cons.injEq]
      exact ⟨byte (by omega), byte (by omega), byte (by omega), rfl⟩
  | @four first second third fourth lead range tail last =>
      obtain ⟨char, value⟩ : ∃ char : Char, char.val.toNat =
          (first.toNat - 0xf0) * 262144 + (second.toNat - 0x80) * 4096 +
            (third.toNat - 0x80) * 64 + (fourth.toNat - 0x80) := encodes (by
        simp only [SecondByte] at range
        omega)
      refine ⟨char, ?_⟩
      simp only [SecondByte] at range
      rw [utf8Code_word, String.utf8EncodeChar]
      simp only [value]
      rw [if_neg (by omega), if_neg (by omega), if_neg (by omega), List.cons.injEq,
        List.cons.injEq, List.cons.injEq, List.cons.injEq]
      exact ⟨byte (by omega), byte (by omega), byte (by omega), byte (by omega), rfl⟩

end Conhost
