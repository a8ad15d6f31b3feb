import Conhost.Input.VtDecoder
import Conhost.Lib.TokenStream

/-!
# Input tokens

`decode_one_input_token` takes one token off the front of the input byte
stream: a VT sequence if there is one, otherwise one character in the input
code page. The code page conversions belong to the operating system; they are
a parameter of everything that reads input.
-/

namespace Conhost

open VtInput (tryDecodeVt)

/-- `UINT` code page identifiers. -/
abbrev CodePage := UInt32

/-- `CP_UTF8` -/
def cpUtf8 : CodePage := 65001

def isHighSurrogate (unit : WChar) : Bool := 0xd800 ≤ unit && unit ≤ 0xdbff

def isLowSurrogate (unit : WChar) : Bool := 0xdc00 ≤ unit && unit ≤ 0xdfff

theorem not_low_of_high {unit : WChar} (high : isHighSurrogate unit = true) :
    ¬isLowSurrogate unit = true := by
  intro low
  simp only [isHighSurrogate, isLowSurrogate, Bool.and_eq_true, decide_eq_true_eq] at high low
  exact absurd (UInt16.le_trans low.1 high.2) (by decide)

/-- The conversion functions of the operating system. An empty result is a
failed call (the functions return 0). -/
structure Platform where
  isDbcsLeadByteEx : CodePage → Byte → Bool
  /-- The flag is `MB_ERR_INVALID_CHARS`. -/
  multiByteToWideChar : CodePage → Bool → List Byte → List WChar
  wideCharToMultiByte : CodePage → List WChar → List Byte

namespace Platform

variable (platform : Platform) (codePage : CodePage)

def replacement : WChar := 0xfffd

/-- The length of a UTF-8 sequence by its lead byte. -/
def utf8Sequence (lead : Byte) : Option Nat :=
  if lead < 0x80 then some 1
  else if lead &&& 0xe0 = 0xc0 then some 2
  else if lead &&& 0xf0 = 0xe0 then some 3
  else if lead &&& 0xf8 = 0xf0 then some 4
  else none

/-- The call of `MultiByteToWideChar` on a complete sequence into a buffer of two units. -/
def decodeSequence (strict : Bool) (bytes : List Byte) (sequence : Nat) : Decoded (List WChar) :=
  if bytes.length < sequence then .needMore
  else
    let decoded := platform.multiByteToWideChar codePage strict (bytes.take sequence)
    if decoded = [] ∨ 2 < decoded.length then .token [replacement] 1 else .token decoded sequence

/-- `decode_one_console_input_unit` -/
def decodeOneConsoleInputUnit : List Byte → Decoded (List WChar)
  | [] => .needMore
  | first :: rest =>
      if codePage = cpUtf8 then
        match utf8Sequence first with
        | none => .token [replacement] 1
        | some sequence => platform.decodeSequence codePage true (first :: rest) sequence
      else
        platform.decodeSequence codePage false (first :: rest)
          (if platform.isDbcsLeadByteEx codePage first then 2 else 1)

/-- `decode_one_input_token` -/
def decodeOneInputToken (bytes : List Byte) : Decoded Token :=
  match tryDecodeVt bytes with
  | .produced token bytesConsumed => .token token bytesConsumed
  | .needMoreData => .needMore
  | .noMatch =>
      match platform.decodeOneConsoleInputUnit codePage bytes with
      | .needMore => .needMore
      | .token chars bytesConsumed => .token (.textUnits chars) bytesConsumed

variable {platform codePage}

theorem utf8Sequence_bounds {lead : Byte} {sequence : Nat}
    (found : utf8Sequence lead = some sequence) : 0 < sequence ∧ sequence ≤ 4 := by
  simp only [utf8Sequence] at found
  split at found
  · cases found; simp
  · split at found
    · cases found; simp
    · split at found
      · cases found; simp
      · split at found
        · cases found; simp
        · cases found

/-- The decision on a sequence: when it is taken, how much it consumes, and that it is final. -/
theorem decodeSequence_token {strict : Bool} {bytes : List Byte} {sequence length : Nat}
    {chars : List WChar} (positive : 0 < sequence)
    (decoded : platform.decodeSequence codePage strict bytes sequence = .token chars length) :
    0 < length ∧ length ≤ bytes.length ∧ chars ≠ [] ∧ chars.length ≤ 2 ∧ ∀ more,
      platform.decodeSequence codePage strict (bytes ++ more) sequence = .token chars length := by
  simp only [decodeSequence] at decoded
  split at decoded
  · cases decoded
  · rename_i long
    have taken : ∀ more, (bytes ++ more).take sequence = bytes.take sequence := by
      intro more
      exact List.take_append_of_le_length (by omega)
    have unchanged : ∀ more, platform.decodeSequence codePage strict (bytes ++ more) sequence =
        platform.decodeSequence codePage strict bytes sequence := by
      intro more
      have long' : ¬(bytes ++ more).length < sequence := by
        rw [List.length_append]
        omega
      simp only [decodeSequence, if_neg long, if_neg long', taken more]
    simp only [unchanged]
    simp only [decodeSequence, if_neg long]
    split at decoded
    · rename_i failed
      cases decoded
      simp only [if_pos failed, implies_true, and_true]
      exact ⟨by omega, by omega, by simp, by simp⟩
    · rename_i converted
      cases decoded
      simp only [if_neg converted, implies_true, and_true]
      exact ⟨positive, by omega, fun empty => converted (.inl empty), by
        have short : ¬2 < _ := fun long => converted (.inr long)
        omega⟩

theorem decodeOneConsoleInputUnit_token {bytes : List Byte} {chars : List WChar} {length : Nat}
    (decoded : platform.decodeOneConsoleInputUnit codePage bytes = .token chars length) :
    0 < length ∧ length ≤ bytes.length ∧ chars ≠ [] ∧ chars.length ≤ 2 ∧ ∀ more,
      platform.decodeOneConsoleInputUnit codePage (bytes ++ more) = .token chars length := by
  cases bytes with
  | nil => cases decoded
  | cons first rest =>
      simp only [decodeOneConsoleInputUnit, List.cons_append] at decoded ⊢
      split at decoded
      · rename_i utf8
        simp only [if_pos utf8]
        cases found : utf8Sequence first with
        | none =>
            rw [found] at decoded
            cases decoded
            simp
        | some sequence =>
            rw [found] at decoded
            exact decodeSequence_token (utf8Sequence_bounds found).1 decoded
      · rename_i notUtf8
        simp only [if_neg notUtf8]
        exact decodeSequence_token (by split <;> simp) decoded

theorem decodeOneInputToken_positive {bytes : List Byte} {token : Token} {length : Nat}
    (decoded : platform.decodeOneInputToken codePage bytes = .token token length) :
    0 < length := by
  simp only [decodeOneInputToken] at decoded
  split at decoded
  · rename_i produced
    cases decoded
    exact Nat.lt_of_lt_of_le Nat.zero_lt_one (VtInput.tryDecodeVt_within bytes produced).1.le
  · cases decoded
  · split at decoded
    · cases decoded
    · rename_i unit
      cases decoded
      exact (decodeOneConsoleInputUnit_token unit).1

theorem decodeOneInputToken_bounded {bytes : List Byte} {token : Token} {length : Nat}
    (decoded : platform.decodeOneInputToken codePage bytes = .token token length) :
    length ≤ bytes.length := by
  simp only [decodeOneInputToken] at decoded
  split at decoded
  · rename_i produced
    cases decoded
    exact (VtInput.tryDecodeVt_within bytes produced).2.1
  · cases decoded
  · split at decoded
    · cases decoded
    · rename_i unit
      cases decoded
      exact (decodeOneConsoleInputUnit_token unit).2.1

theorem decodeOneInputToken_text {bytes : List Byte} {chars : List WChar} {length : Nat}
    (decoded : platform.decodeOneInputToken codePage bytes = .token (.textUnits chars) length) :
    chars ≠ [] ∧ chars.length ≤ 2 := by
  simp only [decodeOneInputToken] at decoded
  split at decoded
  · rename_i produced
    cases decoded
    exact absurd rfl ((VtInput.tryDecodeVt_within bytes produced).2.2 chars)
  · cases decoded
  · split at decoded
    · cases decoded
    · rename_i unit
      cases decoded
      obtain ⟨-, -, nonempty, short, -⟩ := decodeOneConsoleInputUnit_token unit
      exact ⟨nonempty, short⟩

theorem decodeOneInputToken_nil : platform.decodeOneInputToken codePage [] = .needMore := rfl

theorem decodeOneInputToken_stable {bytes : List Byte} {token : Token} {length : Nat}
    (more : List Byte)
    (decoded : platform.decodeOneInputToken codePage bytes = .token token length) :
    platform.decodeOneInputToken codePage (bytes ++ more) = .token token length := by
  have nonempty : bytes ≠ [] := by
    rintro rfl
    cases decoded
  have settled := VtInput.tryDecodeVt_append nonempty more
  simp only [decodeOneInputToken] at decoded ⊢
  cases outcome : tryDecodeVt bytes with
  | produced vtToken vtLength =>
      rw [outcome] at decoded settled
      rw [settled (by simp)]
      exact decoded
  | needMoreData =>
      rw [outcome] at decoded
      cases decoded
  | noMatch =>
      rw [outcome] at decoded settled
      rw [settled (by simp)]
      simp only at decoded ⊢
      split at decoded
      · cases decoded
      · rename_i unit
        rw [(decodeOneConsoleInputUnit_token unit).2.2.2.2 more]
        exact decoded

/-- Four bytes are enough for a character. -/
theorem decodeOneConsoleInputUnit_of_length {bytes : List Byte} (long : 4 ≤ bytes.length) :
    ∃ chars length,
      platform.decodeOneConsoleInputUnit codePage bytes = .token chars length := by
  have decided : ∀ strict sequence, sequence ≤ 4 → ∃ chars length,
      platform.decodeSequence codePage strict bytes sequence = .token chars length := by
    intro strict sequence short
    have complete : ¬bytes.length < sequence := by omega
    simp only [decodeSequence, if_neg complete]
    split
    · exact ⟨_, _, rfl⟩
    · exact ⟨_, _, rfl⟩
  cases bytes with
  | nil => simp at long
  | cons first rest =>
      simp only [decodeOneConsoleInputUnit]
      split
      · cases found : utf8Sequence first with
        | none => exact ⟨_, _, rfl⟩
        | some sequence => exact decided true sequence (utf8Sequence_bounds found).2
      · exact decided false _ (by split <;> omega)

/-- Bytes that continue no VT sequence and complete every character. -/
def plainText : List Byte := List.replicate 4 VtInput.plainByte

theorem take_append_plainText {bytes : List Byte} {limit : Nat} (short : bytes.length < limit) :
    ∃ more, (bytes ++ plainText).take limit = bytes ++ VtInput.plainByte :: more := by
  obtain ⟨room, rfl⟩ : ∃ room, limit = bytes.length + (room + 1) :=
    ⟨limit - bytes.length - 1, by omega⟩
  refine ⟨(List.replicate 3 VtInput.plainByte).take room, ?_⟩
  rw [List.take_length_add_append]
  rfl

/-- Bytes that are undecided, and do not fill the window of a read, can be completed. -/
theorem decodeOneInputToken_complete {bytes : List Byte} {limit : Nat} (wide : 4 ≤ limit)
    (short : bytes.length < limit)
    (waiting : platform.decodeOneInputToken codePage bytes = .needMore) :
    ∃ token length, platform.decodeOneInputToken codePage ((bytes ++ plainText).take limit) =
      .token token length := by
  obtain ⟨more, window⟩ := take_append_plainText short
  have long : 4 ≤ ((bytes ++ plainText).take limit).length := by
    rw [List.length_take, List.length_append]
    simp only [plainText, List.length_replicate]
    omega
  have noMatch : tryDecodeVt ((bytes ++ plainText).take limit) = .noMatch := by
    rw [window]
    by_cases empty : bytes = []
    · rw [empty]
      rfl
    · have settled := VtInput.tryDecodeVt_append empty (VtInput.plainByte :: more)
      cases outcome : tryDecodeVt bytes with
      | needMoreData => exact VtInput.tryDecodeVt_break more outcome
      | noMatch =>
          rw [outcome] at settled
          exact settled (by simp)
      | produced token length => simp [decodeOneInputToken, outcome] at waiting
  obtain ⟨chars, length, unit⟩ : ∃ chars length, platform.decodeOneConsoleInputUnit codePage
      ((bytes ++ plainText).take limit) = .token chars length :=
    decodeOneConsoleInputUnit_of_length long
  exact ⟨.textUnits chars, length, by simp [decodeOneInputToken, noMatch, unit]⟩

/-- The tokenizer of the input byte stream. -/
def inputDecoder (platform : Platform) (codePage : CodePage) : Decoder Byte Token where
  decode := platform.decodeOneInputToken codePage
  positive := decodeOneInputToken_positive
  bounded := decodeOneInputToken_bounded
  stable := decodeOneInputToken_stable

def isContinuation (byte : Byte) : Bool := byte &&& 0xc0 == 0x80

def continuationBits (byte : Byte) : Nat := (byte &&& 0x3f).toNat

/-- The UTF-16 encoding of a code point. -/
def codePointUnits (codePoint : Nat) : List WChar :=
  if codePoint < 0x10000 then [UInt16.ofNat codePoint]
  else [UInt16.ofNat (0xd800 + (codePoint - 0x10000) / 0x400),
    UInt16.ofNat (0xdc00 + (codePoint - 0x10000) % 0x400)]

/-- The length and code point of the well-formed UTF-8 sequence at the front of the bytes. -/
def utf8CodePoint : List Byte → Option (Nat × Nat)
  | [] => none
  | first :: rest =>
      if first < 0x80 then some (1, first.toNat)
      else
        match rest with
        | second :: rest =>
            if 0xc2 ≤ first && first ≤ 0xdf && isContinuation second then
              some (2, (first &&& 0x1f).toNat * 0x40 + continuationBits second)
            else
              match rest with
              | third :: rest =>
                  if first &&& 0xf0 == 0xe0 && isContinuation second && isContinuation third &&
                      (first != 0xe0 || 0xa0 ≤ second) && (first != 0xed || second < 0xa0) then
                    some (3, (first &&& 0x0f).toNat * 0x1000 + continuationBits second * 0x40 +
                      continuationBits third)
                  else
                    match rest with
                    | fourth :: _ =>
                        if 0xf0 ≤ first && first ≤ 0xf4 && isContinuation second &&
                            isContinuation third && isContinuation fourth &&
                            (first != 0xf0 || 0x90 ≤ second) &&
                              (first != 0xf4 || second < 0x90) then
                          some (4, (first &&& 0x07).toNat * 0x40000 +
                            continuationBits second * 0x1000 + continuationBits third * 0x40 +
                            continuationBits fourth)
                        else none
                    | [] => none
              | [] => none
        | [] => none

/-- UTF-8 to UTF-16; `skip` bytes at the front belong to a sequence already converted. -/
def utf8ToWide (strict : Bool) (skip : Nat) : List Byte → Option (List WChar)
  | [] => some []
  | first :: rest =>
      match skip with
      | skip + 1 => utf8ToWide strict skip rest
      | 0 =>
          match utf8CodePoint (first :: rest) with
          | some (length, codePoint) =>
              (codePointUnits codePoint ++ ·) <$> utf8ToWide strict (length - 1) rest
          | none =>
              if strict then none else (replacement :: ·) <$> utf8ToWide strict 0 rest

def pairToUtf8 (high low : WChar) : List Byte :=
  String.utf8EncodeChar
    (Char.ofNat (0x10000 + (high.toNat - 0xd800) * 0x400 + (low.toNat - 0xdc00)))

def unitToUtf8 (unit : WChar) : List Byte :=
  String.utf8EncodeChar
    (Char.ofNat (if isHighSurrogate unit || isLowSurrogate unit then 0xfffd else unit.toNat))

/-- UTF-16 to UTF-8; a lone surrogate becomes U+FFFD. -/
def wideToUtf8 : List WChar → List Byte
  | [] => []
  | [unit] => unitToUtf8 unit
  | first :: second :: rest =>
      if isHighSurrogate first && isLowSurrogate second then
        pairToUtf8 first second ++ wideToUtf8 rest
      else unitToUtf8 first ++ wideToUtf8 (second :: rest)

/-- The conversions of UTF-8; every other code page is treated as invalid. -/
def utf8 : Platform where
  isDbcsLeadByteEx _ _ := false
  multiByteToWideChar codePage strict bytes :=
    if codePage = cpUtf8 then (utf8ToWide strict 0 bytes).getD [] else []
  wideCharToMultiByte codePage units := if codePage = cpUtf8 then wideToUtf8 units else []

end Platform

end Conhost
