import Conhost.Core.FastNumber
import Conhost.Lib.Numeral
import Mathlib.Algebra.Group.Nat.Defs
import Mathlib.Data.List.Induction

/-!
# Number parsers on machine words

The parsers of `serialization/fast_number.cpp` with their accumulators of 64 bits. Every digit
is followed or preceded by a check, and it is shown that these checks are exact: a parser
returns the value of a numeral if it is in range, and no accumulator wraps around, for any
number of digits.
-/

namespace Conhost

namespace FastNumber

namespace Machine

/-- An iteration of the loop of `parse_signed_32` -/
def signedStep (negative : Bool) (accumulator : UInt64) (ch : WChar) :
    Except NumberErrorCode UInt64 :=
  if ch < charZero || ch > charNine then .error .invalidCharacter
  else
    let accumulator := accumulator * 10 + (ch - charZero).toUInt64
    if !negative && accumulator > 2147483647 then .error .overflow
    else if negative && accumulator > 2147483648 then .error .underflow
    else .ok accumulator

/-- `parse_signed_32` -/
def parseSigned32 (text : List WChar) : Except NumberErrorCode Int32 :=
  match text with
  | [] => .error .emptyInput
  | first :: rest =>
      let negative := first == charMinus
      let digits := if first == charPlus || first == charMinus then rest else text
      if digits = [] then .error .invalidCharacter
      else
        match digits.foldlM (signedStep negative) 0 with
        | .error code => .error code
        | .ok accumulator =>
            if !negative then .ok accumulator.toUInt32.toInt32
            else if accumulator == 2147483648 then .ok Int32.minValue
            else .ok (-accumulator.toUInt32.toInt32)

/-- `parse_i16` -/
def parseI16 (text : List WChar) : Except NumberErrorCode Int16 :=
  match parseSigned32 text with
  | .error code => .error code
  | .ok parsed =>
      if parsed > 32767 then .error .overflow
      else if parsed < -32768 then .error .underflow
      else .ok parsed.toInt16

/-- `parse_i32` -/
def parseI32 (text : List WChar) : Except NumberErrorCode Int32 := parseSigned32 text

/-- An iteration of the loop of `parse_unsigned_32` -/
def unsignedStep (accumulator : UInt64) (ch : WChar) : Except NumberErrorCode UInt64 :=
  if ch < charZero || ch > charNine then .error .invalidCharacter
  else
    let accumulator := accumulator * 10 + (ch - charZero).toUInt64
    if accumulator > 4294967295 then .error .overflow else .ok accumulator

/-- `parse_u32` -/
def parseU32 (text : List WChar) : Except NumberErrorCode UInt32 :=
  match text with
  | [] => .error .emptyInput
  | first :: rest =>
      let digits := if first == charPlus then rest else text
      if digits = [] then .error .invalidCharacter
      else (digits.foldlM unsignedStep 0).map (·.toUInt32)

/-- A hexadecimal digit in a machine word -/
def hexWord (ch : WChar) : Option UInt64 :=
  if 0x30 ≤ ch && ch ≤ 0x39 then some (ch - 0x30).toUInt64
  else if 0x61 ≤ ch && ch ≤ 0x66 then some (ch - 0x61 + 10).toUInt64
  else if 0x41 ≤ ch && ch ≤ 0x46 then some (ch - 0x41 + 10).toUInt64
  else none

/-- An iteration of the loop of `parse_hex_unsigned_32` -/
def hexStep32 (accumulator : UInt64) (ch : WChar) : Except NumberErrorCode UInt64 :=
  match hexWord ch with
  | none => .error .invalidCharacter
  | some digit =>
      let accumulator := (accumulator <<< 4) ||| digit
      if accumulator > 4294967295 then .error .overflow else .ok accumulator

/-- An iteration of the loop of `parse_hex_unsigned_64` -/
def hexStep64 (accumulator : UInt64) (ch : WChar) : Except NumberErrorCode UInt64 :=
  match hexWord ch with
  | none => .error .invalidCharacter
  | some digit =>
      if accumulator > (0xffffffffffffffff : UInt64) >>> 4 then .error .overflow
      else .ok ((accumulator <<< 4) ||| digit)

/-- The part that `parse_hex_unsigned_32` and `parse_hex_unsigned_64` share -/
def parseHex (step : UInt64 → WChar → Except NumberErrorCode UInt64) (text : List WChar)
    (requirePrefix : Bool) : Except NumberErrorCode UInt64 :=
  if text = [] then .error .emptyInput
  else
    match afterHexPrefix requirePrefix text with
    | none => .error .invalidCharacter
    | some [] => .error .invalidCharacter
    | some digits => digits.foldlM step 0

/-- `parse_hex_u32` -/
def parseHexU32 (text : List WChar) (requirePrefix : Bool) : Except NumberErrorCode UInt32 :=
  (parseHex hexStep32 text requirePrefix).map (·.toUInt32)

/-- `parse_hex_u64` -/
def parseHexU64 (text : List WChar) (requirePrefix : Bool) : Except NumberErrorCode UInt64 :=
  parseHex hexStep64 text requirePrefix

end Machine

/-- The value of a decimal digit -/
def decimalDigit (ch : WChar) : Option Nat :=
  if charZero ≤ ch && ch ≤ charNine then some (ch.toNat - charZero.toNat) else none

/-- One digit or more -/
structure Digits (digit : WChar → Option Nat) (text : List WChar) : Prop where
  nonempty : text ≠ []
  digits : ∀ ch ∈ text, (digit ch).isSome = true

/-- The number that digits stand for -/
def numeralValue (digit : WChar → Option Nat) (base : Nat) (text : List WChar) : Nat :=
  Numeral.value base (text.map fun ch => (digit ch).getD 0)

/-- A decimal number with an optional sign -/
inductive SignedNumeral : List WChar → Int → Prop where
  | bare {text : List WChar} (digits : Digits decimalDigit text) :
      SignedNumeral text (numeralValue decimalDigit 10 text)
  | plus {text : List WChar} (digits : Digits decimalDigit text) :
      SignedNumeral (charPlus :: text) (numeralValue decimalDigit 10 text)
  | minus {text : List WChar} (digits : Digits decimalDigit text) :
      SignedNumeral (charMinus :: text) (-(numeralValue decimalDigit 10 text : Int))

/-- A decimal number with an optional plus sign -/
inductive UnsignedNumeral : List WChar → Nat → Prop where
  | bare {text : List WChar} (digits : Digits decimalDigit text) :
      UnsignedNumeral text (numeralValue decimalDigit 10 text)
  | plus {text : List WChar} (digits : Digits decimalDigit text) :
      UnsignedNumeral (charPlus :: text) (numeralValue decimalDigit 10 text)

/-- A hexadecimal number with a prefix, or without one where it is not required -/
inductive HexNumeral (requirePrefix : Bool) : List WChar → Nat → Prop where
  | bare {text : List WChar} (optional : requirePrefix = false) (digits : Digits hexDigit text) :
      HexNumeral requirePrefix text (numeralValue hexDigit 16 text)
  | marked {text : List WChar} {mark : WChar} (isMark : mark = 0x78 ∨ mark = 0x58)
      (digits : Digits hexDigit text) :
      HexNumeral requirePrefix (charZero :: mark :: text) (numeralValue hexDigit 16 text)

theorem numeralValue_concat (digit : WChar → Option Nat) (base : Nat) (text : List WChar)
    (ch : WChar) :
    numeralValue digit base (text ++ [ch]) =
      numeralValue digit base text * base + (digit ch).getD 0 := by
  rw [numeralValue, numeralValue, Numeral.value, Numeral.value, List.map_append,
    List.foldl_append]
  rfl

/-- A step that takes a digit exactly if the number stays within the limit. -/
structure Accumulates (step : UInt64 → WChar → Except NumberErrorCode UInt64)
    (digit : WChar → Option Nat) (base limit : Nat) : Prop where
  positive : 0 < base
  bounded : limit < 2 ^ 64
  ok_iff : ∀ (accumulator next : UInt64) (ch : WChar), accumulator.toNat ≤ limit →
    (step accumulator ch = .ok next ↔ ∃ value, digit ch = some value ∧
      next.toNat = accumulator.toNat * base + value ∧ next.toNat ≤ limit)

variable {step : UInt64 → WChar → Except NumberErrorCode UInt64} {digit : WChar → Option Nat}
  {base limit : Nat}

/-- What a loop over such steps accumulates is the exact number. -/
theorem Accumulates.run (accumulates : Accumulates step digit base limit)
    (text : List WChar) (total : UInt64) :
    text.foldlM step 0 = .ok total ↔ (∀ ch ∈ text, (digit ch).isSome = true) ∧
      total.toNat = numeralValue digit base text ∧ total.toNat ≤ limit := by
  induction text using List.reverseRecOn generalizing total with
  | nil =>
      have zero : numeralValue digit base [] = 0 := rfl
      rw [List.foldlM_nil, zero]
      constructor
      · rintro ⟨⟩
        exact ⟨nofun, rfl, Nat.zero_le limit⟩
      · rintro ⟨-, same, -⟩
        rw [← UInt64.toNat_inj.mp (same.trans UInt64.toNat_zero.symm)]
        rfl
  | append_singleton earlier ch ih =>
      have single (accumulator : UInt64) : [ch].foldlM step accumulator = step accumulator ch := by
        rw [List.foldlM_cons]
        cases step accumulator ch <;> rfl
      have split : (earlier ++ [ch]).foldlM step 0 = .ok total ↔
          ∃ accumulator, earlier.foldlM step 0 = .ok accumulator ∧
            step accumulator ch = .ok total := by
        rw [List.foldlM_append]
        cases earlier.foldlM step 0 with
        | error code =>
            constructor
            · nofun
            · rintro ⟨_, stopped, -⟩
              cases stopped
        | ok accumulator =>
            change [ch].foldlM step accumulator = .ok total ↔ _
            rw [single]
            constructor
            · intro stepped
              exact ⟨accumulator, rfl, stepped⟩
            · rintro ⟨_, ⟨⟩, stepped⟩
              exact stepped
      rw [split, numeralValue_concat]
      constructor
      · rintro ⟨accumulator, before, stepped⟩
        obtain ⟨digits, exact, small⟩ := (ih accumulator).mp before
        obtain ⟨value, isDigit, sum, inside⟩ := (accumulates.ok_iff _ _ _ small).mp stepped
        refine ⟨fun other member => ?_, ?_, inside⟩
        · rw [List.mem_append, List.mem_singleton] at member
          rcases member with member | rfl
          · exact digits other member
          · rw [isDigit]
            rfl
        · rw [sum, exact, isDigit, Option.getD_some]
      · rintro ⟨digits, exact, small⟩
        obtain ⟨value, isDigit⟩ := Option.isSome_iff_exists.mp
          (digits ch (List.mem_append_right earlier (List.mem_singleton_self ch)))
        rw [isDigit, Option.getD_some] at exact
        have grows := Nat.le_mul_of_pos_right (numeralValue digit base earlier) accumulates.positive
        have bounded := accumulates.bounded
        have kept : (UInt64.ofNat (numeralValue digit base earlier)).toNat =
            numeralValue digit base earlier :=
              UInt64.toNat_ofNat_of_lt (by change _ < 2 ^ 64; omega)
        refine ⟨UInt64.ofNat (numeralValue digit base earlier), (ih _).mpr ⟨?_, kept, ?_⟩, ?_⟩
        · exact fun other member => digits other (List.mem_append_left [ch] member)
        · omega
        · apply (accumulates.ok_iff _ _ _ (by omega)).mpr
          exact ⟨value, isDigit, by rw [kept, exact], small⟩

/-- What the loops of the decimal parsers have in common -/
def limitedStep (limit : UInt64) (code : NumberErrorCode) (accumulator : UInt64) (ch : WChar) :
    Except NumberErrorCode UInt64 :=
  if ch < charZero || ch > charNine then .error .invalidCharacter
  else if accumulator * 10 + (ch - charZero).toUInt64 > limit then .error code
  else .ok (accumulator * 10 + (ch - charZero).toUInt64)

theorem signedStep_eq (negative : Bool) :
    Machine.signedStep negative =
      limitedStep (if negative then 2147483648 else 2147483647)
        (if negative then .underflow else .overflow) := by
  funext accumulator ch
  cases negative <;> simp [Machine.signedStep, limitedStep]

theorem unsignedStep_eq : Machine.unsignedStep = limitedStep 4294967295 .overflow := rfl

/-- A character is a digit, and its value fits the machine word, or it is not. -/
theorem decimalDigit_cases (ch : WChar) :
    (decimalDigit ch = none ∧ (ch < charZero || ch > charNine) = true) ∨
      ∃ value, decimalDigit ch = some value ∧ (ch < charZero || ch > charNine) = false ∧
        (ch - charZero).toUInt64.toNat = value ∧ value < 10 := by
  by_cases isDigit : charZero ≤ ch ∧ ch ≤ charNine
  · right
    have low : charZero.toNat ≤ ch.toNat := isDigit.1
    have high : ch.toNat ≤ charNine.toNat := isDigit.2
    have zero : charZero.toNat = 48 := rfl
    have nine : charNine.toNat = 57 := rfl
    refine ⟨ch.toNat - charZero.toNat, ?_, ?_, ?_, by omega⟩
    · simp [decimalDigit, isDigit.1, isDigit.2]
    · simp only [Bool.or_eq_false_iff, decide_eq_false_iff_not, gt_iff_lt, UInt16.not_lt]
      exact isDigit
    · rw [UInt16.toNat_toUInt64]
      exact UInt16.toNat_sub_of_le _ _ isDigit.1
  · left
    have outside : (ch < charZero || ch > charNine) = true := by
      by_contra inside
      simp only [Bool.or_eq_true, decide_eq_true_eq, gt_iff_lt, not_or, UInt16.not_lt] at inside
      exact isDigit inside
    refine ⟨?_, outside⟩
    rw [decimalDigit, if_neg]
    rw [Bool.and_eq_true, decide_eq_true_eq, decide_eq_true_eq]
    exact isDigit

theorem exact_decimal {accumulator : UInt64} {limit value : Nat} (small : accumulator.toNat ≤ limit)
    (bounded : limit < 2 ^ 33) {digit : UInt64} (isDigit : digit.toNat = value)
    (decimal : value < 10) :
    (accumulator * 10 + digit).toNat = accumulator.toNat * 10 + value := by
  rw [UInt64.toNat_add, UInt64.toNat_mul, isDigit]
  change (accumulator.toNat * 10 % 2 ^ 64 + value) % 2 ^ 64 = _
  omega

theorem accumulates_limitedStep {limit : UInt64} (bounded : limit.toNat < 2 ^ 33)
    (code : NumberErrorCode) :
    Accumulates (limitedStep limit code) decimalDigit 10 limit.toNat where
  positive := by decide
  bounded := by omega
  ok_iff := by
    intro accumulator next ch small
    unfold limitedStep
    rcases decimalDigit_cases ch with ⟨none, outside⟩ | ⟨value, isDigit, inside, exact, decimal⟩
    · rw [if_pos outside, none]
      constructor
      · nofun
      · rintro ⟨_, ⟨⟩, -⟩
    · have sum := exact_decimal small bounded exact decimal
      rw [if_neg (by simp [inside]), isDigit]
      by_cases above : accumulator * 10 + (ch - charZero).toUInt64 > limit
      · rw [if_pos above]
        have beyond : limit.toNat < (accumulator * 10 + (ch - charZero).toUInt64).toNat := above
        constructor
        · nofun
        · rintro ⟨_, ⟨⟩, same, within⟩
          omega
      · rw [if_neg above]
        have within : (accumulator * 10 + (ch - charZero).toUInt64).toNat ≤ limit.toNat :=
          UInt64.not_lt.mp above
        constructor
        · rintro ⟨⟩
          exact ⟨value, rfl, sum, within⟩
        · rintro ⟨_, ⟨⟩, same, -⟩
          rw [UInt64.toNat_inj.mp (same.trans sum.symm)]

theorem hexWord_cases (ch : WChar) :
    (hexDigit ch = none ∧ Machine.hexWord ch = none) ∨
      ∃ value word, hexDigit ch = some value ∧ Machine.hexWord ch = some word ∧
        word.toNat = value ∧ value < 16 := by
  unfold hexDigit Machine.hexWord
  split
  · rename_i isDigit
    rw [Bool.and_eq_true, decide_eq_true_eq, decide_eq_true_eq] at isDigit
    have high : ch.toNat ≤ 0x39 := isDigit.2
    refine .inr ⟨_, _, rfl, rfl, ?_, by omega⟩
    rw [UInt16.toNat_toUInt64, UInt16.toNat_sub_of_le _ _ isDigit.1]
    rfl
  · split
    · rename_i isLetter
      rw [Bool.and_eq_true, decide_eq_true_eq, decide_eq_true_eq] at isLetter
      have low : 0x61 ≤ ch.toNat := isLetter.1
      have high : ch.toNat ≤ 0x66 := isLetter.2
      refine .inr ⟨_, _, rfl, rfl, ?_, by omega⟩
      rw [UInt16.toNat_toUInt64, UInt16.toNat_add, UInt16.toNat_sub_of_le _ _ isLetter.1]
      change (ch.toNat - 0x61 + 10) % 2 ^ 16 = _
      omega
    · split
      · rename_i isLetter
        rw [Bool.and_eq_true, decide_eq_true_eq, decide_eq_true_eq] at isLetter
        have low : 0x41 ≤ ch.toNat := isLetter.1
        have high : ch.toNat ≤ 0x46 := isLetter.2
        refine .inr ⟨_, _, rfl, rfl, ?_, by omega⟩
        rw [UInt16.toNat_toUInt64, UInt16.toNat_add, UInt16.toNat_sub_of_le _ _ isLetter.1]
        change (ch.toNat - 0x41 + 10) % 2 ^ 16 = _
        omega
      · exact .inl ⟨rfl, rfl⟩

theorem exact_hex {accumulator digit : UInt64} {value : Nat} (isDigit : digit.toNat = value)
    (hex : value < 16) (small : accumulator.toNat < 2 ^ 60) :
    (accumulator <<< 4 ||| digit).toNat = accumulator.toNat * 16 + value := by
  have shifted : (accumulator <<< 4).toNat = accumulator.toNat <<< 4 := by
    rw [UInt64.toNat_shiftLeft]
    change accumulator.toNat <<< 4 % 2 ^ 64 = _
    rw [Nat.shiftLeft_eq]
    omega
  rw [UInt64.toNat_or, shifted, isDigit, ← Nat.shiftLeft_add_eq_or_of_lt hex, Nat.shiftLeft_eq]

theorem accumulates_hexStep32 : Accumulates Machine.hexStep32 hexDigit 16 4294967295 where
  positive := by decide
  bounded := by decide
  ok_iff := by
    intro accumulator next ch small
    unfold Machine.hexStep32
    rcases hexWord_cases ch with ⟨none, missing⟩ | ⟨value, word, isDigit, found, exact, hex⟩
    · rw [none, missing]
      constructor
      · nofun
      · rintro ⟨_, ⟨⟩, -⟩
    · have sum := exact_hex exact hex (by omega : accumulator.toNat < 2 ^ 60)
      rw [isDigit, found]
      simp only
      by_cases above : accumulator <<< 4 ||| word > 4294967295
      · rw [if_pos above]
        have beyond : 4294967295 < (accumulator <<< 4 ||| word).toNat := above
        constructor
        · nofun
        · rintro ⟨_, ⟨⟩, same, within⟩
          omega
      · rw [if_neg above]
        have within : (accumulator <<< 4 ||| word).toNat ≤ 4294967295 := UInt64.not_lt.mp above
        constructor
        · rintro ⟨⟩
          exact ⟨value, rfl, sum, within⟩
        · rintro ⟨_, ⟨⟩, same, -⟩
          rw [UInt64.toNat_inj.mp (same.trans sum.symm)]

theorem accumulates_hexStep64 :
    Accumulates Machine.hexStep64 hexDigit 16 18446744073709551615 where
  positive := by decide
  bounded := by decide
  ok_iff := by
    intro accumulator next ch small
    unfold Machine.hexStep64
    rcases hexWord_cases ch with ⟨none, missing⟩ | ⟨value, word, isDigit, found, exact, hex⟩
    · rw [none, missing]
      constructor
      · nofun
      · rintro ⟨_, ⟨⟩, -⟩
    · rw [isDigit, found]
      simp only
      have top : ((0xffffffffffffffff : UInt64) >>> 4).toNat = 2 ^ 60 - 1 := by decide
      by_cases above : accumulator > (0xffffffffffffffff : UInt64) >>> 4
      · rw [if_pos above]
        have beyond : ((0xffffffffffffffff : UInt64) >>> 4).toNat < accumulator.toNat := above
        constructor
        · nofun
        · rintro ⟨_, ⟨⟩, same, within⟩
          omega
      · rw [if_neg above]
        have within : accumulator.toNat ≤ ((0xffffffffffffffff : UInt64) >>> 4).toNat :=
          UInt64.not_lt.mp above
        have sum := exact_hex exact hex (by omega : accumulator.toNat < 2 ^ 60)
        constructor
        · rintro ⟨⟩
          exact ⟨value, rfl, sum, by omega⟩
        · rintro ⟨_, ⟨⟩, same, -⟩
          rw [UInt64.toNat_inj.mp (same.trans sum.symm)]

theorem decimalDigit_charPlus : decimalDigit charPlus = none := by decide

theorem decimalDigit_charMinus : decimalDigit charMinus = none := by decide

theorem not_digits_cons {digit : WChar → Option Nat} {first : WChar} (other : digit first = none)
    (rest : List WChar) : ¬ Digits digit (first :: rest) := by
  intro digits
  have isDigit := digits.digits first List.mem_cons_self
  rw [other] at isDigit
  cases isDigit

/-- A numeral is read by its first character. -/
theorem signedNumeral_cons {first : WChar} {rest : List WChar} {number : Int} :
    SignedNumeral (first :: rest) number ↔
      Digits decimalDigit (if first == charPlus || first == charMinus then rest
        else first :: rest) ∧
      number = (if first == charMinus then -1 else 1) * (numeralValue decimalDigit 10
        (if first == charPlus || first == charMinus then rest else first :: rest) : Int) := by
  constructor
  · intro numeral
    cases numeral with
    | bare digits =>
        have unsigned : (first == charPlus || first == charMinus) = false := by
          by_contra signed
          simp only [Bool.not_eq_false, Bool.or_eq_true, beq_iff_eq] at signed
          rcases signed with rfl | rfl
          · exact not_digits_cons decimalDigit_charPlus rest digits
          · exact not_digits_cons decimalDigit_charMinus rest digits
        obtain ⟨noPlus, noMinus⟩ := Bool.or_eq_false_iff.mp unsigned
        simp only [noPlus, noMinus, Bool.or_self, Bool.false_eq_true, if_false, Int.one_mul]
        exact ⟨digits, trivial⟩
    | plus digits => exact ⟨digits, (Int.one_mul _).symm⟩
    | minus digits => exact ⟨digits, by simp⟩
  · rintro ⟨digits, rfl⟩
    by_cases minus : first = charMinus
    · subst minus
      simpa using SignedNumeral.minus digits
    · by_cases plus : first = charPlus
      · subst plus
        have positive : (charPlus == charMinus) = false := by decide
        simp only [positive, Bool.false_eq_true, if_false, Int.one_mul]
        exact .plus digits
      · simp only [beq_false_of_ne minus, beq_false_of_ne plus, Bool.or_self,
          Bool.false_eq_true, if_false, Int.one_mul] at digits ⊢
        exact .bare digits

/-- The result of `parse_signed_32` from its accumulator -/
theorem toInt_toInt32 {accumulator : UInt64} (small : accumulator.toNat < 2 ^ 31) :
    accumulator.toUInt32.toInt32.toInt = accumulator.toNat := by
  have kept : accumulator.toUInt32.toNat = accumulator.toNat := by
    rw [UInt64.toNat_toUInt32]
    omega
  rw [← kept]
  apply BitVec.toInt_eq_toNat_of_lt
  change 2 * accumulator.toUInt32.toNat < 2 ^ 32
  omega

/-- `static_cast` of the accumulator and its sign -/
def signedResult (negative : Bool) (accumulator : UInt64) : Int32 :=
  if !negative then accumulator.toUInt32.toInt32
  else if accumulator == 2147483648 then Int32.minValue
  else -accumulator.toUInt32.toInt32

theorem toInt_signedResult {negative : Bool} {accumulator : UInt64}
    (small : accumulator.toNat ≤ if negative then 2147483648 else 2147483647) :
    (signedResult negative accumulator).toInt =
      (if negative then -1 else 1) * (accumulator.toNat : Int) := by
  unfold signedResult
  cases negative with
  | false =>
      have bounded : accumulator.toNat ≤ 2147483647 := small
      simp only [Bool.not_false, if_true, Bool.false_eq_true, if_false, Int.one_mul]
      exact toInt_toInt32 (by omega)
  | true =>
      have bounded : accumulator.toNat ≤ 2147483648 := small
      simp only [Bool.not_true, Bool.false_eq_true, if_false, if_true]
      by_cases least : accumulator = 2147483648
      · subst least
        rfl
      · have below : accumulator.toNat < 2 ^ 31 := by
          have other : accumulator.toNat ≠ 2147483648 := fun same =>
            least (UInt64.toNat_inj.mp same)
          omega
        rw [if_neg (by simpa using least), Int32.toInt_neg, toInt_toInt32 below]
        rw [Int.bmod_eq_of_le] <;> omega

theorem parseSigned32_cons (first : WChar) (rest : List WChar) :
    Machine.parseSigned32 (first :: rest) =
      let negative := first == charMinus
      let digits := if first == charPlus || negative then rest else first :: rest
      if digits = [] then .error .invalidCharacter
      else (digits.foldlM (Machine.signedStep negative) 0).map (signedResult negative) := by
  simp only [Machine.parseSigned32]
  generalize (first == charMinus) = negative
  generalize (if (first == charPlus || negative) = true then rest else first :: rest) = digits
  split
  · rfl
  · cases digits.foldlM (Machine.signedStep negative) 0 with
    | error code => rfl
    | ok accumulator =>
        simp only [Except.map, signedResult]
        split
        · rfl
        · split <;> rfl

theorem signedRun (negative : Bool) (digits : List WChar) (accumulator : UInt64) :
    digits.foldlM (Machine.signedStep negative) 0 = .ok accumulator ↔
      (∀ ch ∈ digits, (decimalDigit ch).isSome = true) ∧
        accumulator.toNat = numeralValue decimalDigit 10 digits ∧
        accumulator.toNat ≤ if negative then 2147483648 else 2147483647 := by
  rw [signedStep_eq]
  cases negative with
  | false => exact (accumulates_limitedStep (by decide) .overflow).run digits accumulator
  | true => exact (accumulates_limitedStep (by decide) .underflow).run digits accumulator

/-- `parse_signed_32` returns the value of a signed numeral if it is in range. -/
theorem parseSigned32_iff (text : List WChar) (number : Int) :
    (∃ parsed, Machine.parseSigned32 text = .ok parsed ∧ parsed.toInt = number) ↔
      SignedNumeral text number ∧ -2147483648 ≤ number ∧ number ≤ 2147483647 := by
  cases text with
  | nil =>
      constructor
      · rintro ⟨_, ⟨⟩, -⟩
      · rintro ⟨numeral, -⟩
        cases numeral with
        | bare digits => exact absurd rfl digits.nonempty
  | cons first rest =>
      rw [signedNumeral_cons, parseSigned32_cons]
      simp only
      generalize (first == charMinus) = negative
      generalize (if (first == charPlus || negative) = true then rest else first :: rest) = digits
      have run := signedRun negative digits
      constructor
      · rintro ⟨result, succeeds, rfl⟩
        split at succeeds
        · cases succeeds
        · rename_i nonempty
          cases accumulated : digits.foldlM (Machine.signedStep negative) 0 with
          | error code =>
              rw [accumulated] at succeeds
              cases succeeds
          | ok accumulator =>
              rw [accumulated] at succeeds
              cases succeeds
              obtain ⟨isDigit, exact, small⟩ := (run accumulator).mp accumulated
              rw [toInt_signedResult small, exact]
              refine ⟨⟨⟨nonempty, isDigit⟩, rfl⟩, ?_⟩
              cases negative <;> simp only [Bool.false_eq_true, if_false, if_true] at small ⊢ <;>
                omega
      · rintro ⟨⟨numeral, rfl⟩, least, greatest⟩
        have small : numeralValue decimalDigit 10 digits ≤
            if negative then 2147483648 else 2147483647 := by
          cases negative <;>
            simp only [Bool.false_eq_true, if_false, if_true] at least greatest ⊢ <;> omega
        have bounded : numeralValue decimalDigit 10 digits < 2 ^ 64 := by
          cases negative <;> simp only [Bool.false_eq_true, if_false, if_true] at small <;> omega
        have kept : (UInt64.ofNat (numeralValue decimalDigit 10 digits)).toNat =
            numeralValue decimalDigit 10 digits := UInt64.toNat_ofNat_of_lt bounded
        have accumulated := (run (UInt64.ofNat (numeralValue decimalDigit 10 digits))).mpr
          ⟨numeral.digits, kept, by rw [kept]; exact small⟩
        refine ⟨_, by rw [if_neg numeral.nonempty, accumulated]; rfl, ?_⟩
        rw [toInt_signedResult (by rw [kept]; exact small), kept]

theorem int16_high (parsed : Int32) : parsed > 32767 ↔ parsed.toInt > 32767 := by
  have high : (32767 : Int32).toInt = 32767 := by decide
  rw [gt_iff_lt, gt_iff_lt, Int32.lt_iff_toInt_lt, high]

theorem int16_low (parsed : Int32) : parsed < -32768 ↔ parsed.toInt < -32768 := by
  have low : (-32768 : Int32).toInt = -32768 := by decide
  rw [Int32.lt_iff_toInt_lt, low]

theorem toInt_toInt16 {parsed : Int32} (high : ¬ parsed > 32767) (low : ¬ parsed < -32768) :
    parsed.toInt16.toInt = parsed.toInt := by
  rw [int16_high] at high
  rw [int16_low] at low
  rw [Int32.toInt_toInt16, Int.bmod_eq_of_le] <;> omega

theorem parseI16_iff (text : List WChar) (number : Int) :
    (∃ parsed, Machine.parseI16 text = .ok parsed ∧ parsed.toInt = number) ↔
      SignedNumeral text number ∧ -32768 ≤ number ∧ number ≤ 32767 := by
  have wide := parseSigned32_iff text number
  unfold Machine.parseI16
  constructor
  · rintro ⟨result, succeeds, rfl⟩
    cases parsed : Machine.parseSigned32 text with
    | error code =>
        rw [parsed] at succeeds
        cases succeeds
    | ok value =>
        rw [parsed] at succeeds
        simp only at succeeds
        split at succeeds
        · cases succeeds
        · split at succeeds
          · cases succeeds
          · rename_i notHigh notLow
            cases succeeds
            have exact := toInt_toInt16 notHigh notLow
            rw [int16_high] at notHigh
            rw [int16_low] at notLow
            rw [exact]
            exact ⟨((parseSigned32_iff text value.toInt).mp ⟨value, parsed, rfl⟩).1,
              Int.not_lt.mp notLow, Int.not_lt.mp notHigh⟩
  · rintro ⟨numeral, range⟩
    obtain ⟨value, parsed, rfl⟩ := wide.mpr ⟨numeral, by omega, by omega⟩
    have notHigh : ¬ value > 32767 := by
      rw [int16_high]
      omega
    have notLow : ¬ value < -32768 := by
      rw [int16_low]
      omega
    refine ⟨value.toInt16, ?_, toInt_toInt16 notHigh notLow⟩
    rw [parsed]
    simp only [if_neg notHigh, if_neg notLow]

theorem unsignedNumeral_cons {first : WChar} {rest : List WChar} {number : Nat} :
    UnsignedNumeral (first :: rest) number ↔
      Digits decimalDigit (if first == charPlus then rest else first :: rest) ∧
      number = numeralValue decimalDigit 10
        (if first == charPlus then rest else first :: rest) := by
  constructor
  · intro numeral
    cases numeral with
    | bare digits =>
        have unsigned : (first == charPlus) = false := by
          by_contra signed
          rw [Bool.not_eq_false, beq_iff_eq] at signed
          subst signed
          exact not_digits_cons decimalDigit_charPlus rest digits
        simp only [unsigned, Bool.false_eq_true, if_false]
        exact ⟨digits, trivial⟩
    | plus digits => exact ⟨digits, rfl⟩
  · rintro ⟨digits, rfl⟩
    by_cases plus : first = charPlus
    · subst plus
      exact .plus digits
    · simp only [beq_false_of_ne plus, Bool.false_eq_true, if_false] at digits ⊢
      exact .bare digits

/-- A loop that ends with its accumulator narrowed to a result -/
theorem Accumulates.narrowed (accumulates : Accumulates step digit base limit)
    {result : Type} (narrow : UInt64 → result) (toNat : result → Nat)
    (exact : ∀ accumulator : UInt64, accumulator.toNat ≤ limit →
      toNat (narrow accumulator) = accumulator.toNat)
    (text : List WChar) (number : Nat) :
    (∃ parsed, (text.foldlM step 0).map narrow = .ok parsed ∧ toNat parsed = number) ↔
      (∀ ch ∈ text, (digit ch).isSome = true) ∧ number = numeralValue digit base text ∧
        number ≤ limit := by
  constructor
  · rintro ⟨parsed, succeeds, rfl⟩
    cases accumulated : text.foldlM step 0 with
    | error code =>
        rw [accumulated] at succeeds
        cases succeeds
    | ok accumulator =>
        rw [accumulated] at succeeds
        cases succeeds
        obtain ⟨digits, value, small⟩ := (accumulates.run text accumulator).mp accumulated
        rw [exact accumulator small]
        exact ⟨digits, value, small⟩
  · rintro ⟨digits, rfl, small⟩
    have bounded := accumulates.bounded
    have kept : (UInt64.ofNat (numeralValue digit base text)).toNat =
        numeralValue digit base text :=
      UInt64.toNat_ofNat_of_lt (by change _ < 2 ^ 64; omega)
    have accumulated := (accumulates.run text (UInt64.ofNat (numeralValue digit base text))).mpr
      ⟨digits, kept, by omega⟩
    exact ⟨_, by rw [accumulated]; rfl, (exact _ (by omega)).trans kept⟩

theorem toNat_toUInt32 {accumulator : UInt64} (small : accumulator.toNat ≤ 4294967295) :
    accumulator.toUInt32.toNat = accumulator.toNat := by
  rw [UInt64.toNat_toUInt32]
  omega

theorem parseU32_iff (text : List WChar) (number : Nat) :
    (∃ parsed, Machine.parseU32 text = .ok parsed ∧ parsed.toNat = number) ↔
      UnsignedNumeral text number ∧ number ≤ 4294967295 := by
  cases text with
  | nil =>
      constructor
      · rintro ⟨_, ⟨⟩, -⟩
      · rintro ⟨numeral, -⟩
        cases numeral with
        | bare digits => exact absurd rfl digits.nonempty
  | cons first rest =>
      have accumulates : Accumulates Machine.unsignedStep decimalDigit 10 4294967295 :=
        @accumulates_limitedStep 4294967295 (by decide) .overflow
      rw [unsignedNumeral_cons]
      simp only [Machine.parseU32]
      generalize (if (first == charPlus) = true then rest else first :: rest) = digits
      by_cases empty : digits = []
      · rw [if_pos empty]
        constructor
        · rintro ⟨_, ⟨⟩, -⟩
        · rintro ⟨⟨numeral, -⟩, -⟩
          exact absurd empty numeral.nonempty
      · rw [if_neg empty, accumulates.narrowed _ UInt32.toNat fun _ => toNat_toUInt32]
        constructor
        · rintro ⟨isDigit, value, small⟩
          exact ⟨⟨⟨empty, isDigit⟩, value⟩, small⟩
        · rintro ⟨⟨numeral, value⟩, small⟩
          exact ⟨numeral.digits, value, small⟩

/-- A prefix is never the beginning of the digits themselves. -/
theorem hexNumeral_iff {requirePrefix : Bool} {text : List WChar} {number : Nat} :
    HexNumeral requirePrefix text number ↔
      ∃ digits, afterHexPrefix requirePrefix text = some digits ∧
      Digits hexDigit digits ∧ number = numeralValue hexDigit 16 digits := by
  have mark (letter : WChar) (isMark : letter = 0x78 ∨ letter = 0x58) : hexDigit letter = none := by
    rcases isMark with rfl | rfl <;> decide
  have notMarked {letter : WChar} (isMark : letter = 0x78 ∨ letter = 0x58) (rest : List WChar) :
      ¬ Digits hexDigit (0x30 :: letter :: rest) := by
    intro digits
    have isDigit := digits.digits letter (List.mem_cons_of_mem _ List.mem_cons_self)
    rw [mark letter isMark] at isDigit
    cases isDigit
  constructor
  · intro numeral
    cases numeral with
    | bare optional digits =>
        refine ⟨text, ?_, digits, rfl⟩
        unfold afterHexPrefix
        split
        · exact absurd digits (notMarked (.inl rfl) _)
        · exact absurd digits (notMarked (.inr rfl) _)
        · rw [optional]
          rfl
    | marked isMark digits =>
        refine ⟨_, ?_, digits, rfl⟩
        rcases isMark with rfl | rfl <;> rfl
  · rintro ⟨digits, found, numeral, rfl⟩
    unfold afterHexPrefix at found
    split at found
    · cases found
      exact .marked (.inl rfl) numeral
    · cases found
      exact .marked (.inr rfl) numeral
    · cases requirePrefix with
      | true => cases found
      | false =>
          cases found
          exact .bare rfl numeral

theorem parseHex_iff {accumulatorLimit : Nat} {result : Type}
    (accumulates : Accumulates step hexDigit 16 accumulatorLimit) (narrow : UInt64 → result)
    (toNat : result → Nat)
    (exact : ∀ accumulator : UInt64, accumulator.toNat ≤ accumulatorLimit →
      toNat (narrow accumulator) = accumulator.toNat)
    (text : List WChar) (requirePrefix : Bool) (number : Nat) :
    (∃ parsed, (Machine.parseHex step text requirePrefix).map narrow = .ok parsed ∧
      toNat parsed = number) ↔
        HexNumeral requirePrefix text number ∧ number ≤ accumulatorLimit := by
  rw [hexNumeral_iff]
  unfold Machine.parseHex
  by_cases empty : text = []
  · subst empty
    constructor
    · rintro ⟨_, ⟨⟩, -⟩
    · rintro ⟨⟨digits, found, numeral, -⟩, -⟩
      cases requirePrefix with
      | true => cases found
      | false =>
          cases found
          exact absurd rfl numeral.nonempty
  · rw [if_neg empty]
    cases found : afterHexPrefix requirePrefix text with
    | none =>
        constructor
        · rintro ⟨_, ⟨⟩, -⟩
        · rintro ⟨⟨_, ⟨⟩, -⟩, -⟩
    | some digits =>
        cases digits with
        | nil =>
            constructor
            · rintro ⟨_, ⟨⟩, -⟩
            · rintro ⟨⟨_, ⟨⟩, numeral, -⟩, -⟩
              exact absurd rfl numeral.nonempty
        | cons first rest =>
            simp only
            rw [accumulates.narrowed narrow toNat exact]
            constructor
            · rintro ⟨isDigit, value, small⟩
              exact ⟨⟨_, rfl, ⟨nofun, isDigit⟩, value⟩, small⟩
            · rintro ⟨⟨_, ⟨⟩, numeral, value⟩, small⟩
              exact ⟨numeral.digits, value, small⟩

theorem parseHexU32_iff (text : List WChar) (requirePrefix : Bool) (number : Nat) :
    (∃ parsed, Machine.parseHexU32 text requirePrefix = .ok parsed ∧ parsed.toNat = number) ↔
      HexNumeral requirePrefix text number ∧ number ≤ 4294967295 :=
  parseHex_iff accumulates_hexStep32 (·.toUInt32) UInt32.toNat (fun _ => toNat_toUInt32) text
    requirePrefix number

theorem parseHexU64_iff (text : List WChar) (requirePrefix : Bool) (number : Nat) :
    (∃ parsed, Machine.parseHexU64 text requirePrefix = .ok parsed ∧ parsed.toNat = number) ↔
      HexNumeral requirePrefix text number ∧ number ≤ 18446744073709551615 := by
  have parsed := parseHex_iff accumulates_hexStep64 id UInt64.toNat (fun _ _ => rfl) text
    requirePrefix number
  have same : (Machine.parseHex Machine.hexStep64 text requirePrefix).map id =
      Machine.parseHexU64 text requirePrefix := by
    unfold Machine.parseHexU64
    cases Machine.parseHex Machine.hexStep64 text requirePrefix <;> rfl
  rwa [same] at parsed

/-- Wherever a loop computes its accumulator, after any digits it has taken, the machine word is
the exact number. -/
structure NoOverflow : Prop where
  signed : ∀ (negative : Bool) (taken : List WChar) (accumulator : UInt64) (ch : WChar)
    (value : Nat), taken.foldlM (Machine.signedStep negative) 0 = .ok accumulator →
      decimalDigit ch = some value →
        (accumulator * 10 + (ch - charZero).toUInt64).toNat = accumulator.toNat * 10 + value
  unsigned : ∀ (taken : List WChar) (accumulator : UInt64) (ch : WChar) (value : Nat),
    taken.foldlM Machine.unsignedStep 0 = .ok accumulator → decimalDigit ch = some value →
      (accumulator * 10 + (ch - charZero).toUInt64).toNat = accumulator.toNat * 10 + value
  hex32 : ∀ (taken : List WChar) (accumulator : UInt64) (ch : WChar) (digit : UInt64),
    taken.foldlM Machine.hexStep32 0 = .ok accumulator → Machine.hexWord ch = some digit →
      (accumulator <<< 4 ||| digit).toNat = accumulator.toNat * 16 + digit.toNat
  hex64 : ∀ (taken : List WChar) (accumulator : UInt64) (ch : WChar) (digit : UInt64),
    taken.foldlM Machine.hexStep64 0 = .ok accumulator → Machine.hexWord ch = some digit →
      ¬ accumulator > (0xffffffffffffffff : UInt64) >>> 4 →
        (accumulator <<< 4 ||| digit).toNat = accumulator.toNat * 16 + digit.toNat

theorem exact_decimalDigit {accumulator : UInt64} {bound value : Nat} {ch : WChar}
    (small : accumulator.toNat ≤ bound) (bounded : bound < 2 ^ 33)
    (isDigit : decimalDigit ch = some value) :
    (accumulator * 10 + (ch - charZero).toUInt64).toNat = accumulator.toNat * 10 + value := by
  rcases decimalDigit_cases ch with ⟨none, -⟩ | ⟨other, found, -, exact, decimal⟩
  · rw [none] at isDigit
    cases isDigit
  · rw [found] at isDigit
    cases isDigit
    exact exact_decimal small bounded exact decimal

theorem hexWord_lt {ch : WChar} {digit : UInt64} (isDigit : Machine.hexWord ch = some digit) :
    digit.toNat < 16 := by
  rcases hexWord_cases ch with ⟨-, none⟩ | ⟨value, word, -, found, exact, hex⟩
  · rw [none] at isDigit
    cases isDigit
  · rw [found] at isDigit
    cases isDigit
    rwa [exact]

theorem noOverflow : NoOverflow where
  signed := by
    intro negative taken accumulator ch value reached isDigit
    rw [signedStep_eq] at reached
    cases negative with
    | false =>
        have small := (((accumulates_limitedStep (by decide) .overflow).run taken accumulator).mp
          reached).2.2
        exact exact_decimalDigit small (by decide) isDigit
    | true =>
        have small := (((accumulates_limitedStep (by decide) .underflow).run taken accumulator).mp
          reached).2.2
        exact exact_decimalDigit small (by decide) isDigit
  unsigned := by
    intro taken accumulator ch value reached isDigit
    rw [unsignedStep_eq] at reached
    have small := (((accumulates_limitedStep (by decide) .overflow).run taken accumulator).mp
      reached).2.2
    exact exact_decimalDigit small (by decide) isDigit
  hex32 := by
    intro taken accumulator ch digit reached isDigit
    have small := ((accumulates_hexStep32.run taken accumulator).mp reached).2.2
    exact exact_hex rfl (hexWord_lt isDigit) (by omega)
  hex64 := by
    intro taken accumulator ch digit _ isDigit small
    have top : ((0xffffffffffffffff : UInt64) >>> 4).toNat = 2 ^ 60 - 1 := by decide
    have within : accumulator.toNat ≤ ((0xffffffffffffffff : UInt64) >>> 4).toNat :=
      UInt64.not_lt.mp small
    exact exact_hex rfl (hexWord_lt isDigit) (by omega)

/-- The parsers return exactly the numbers of their types that the text stands for, and compute
them without overflow. -/
theorem numberParsers_exact :
    (∀ text number, (∃ parsed, Machine.parseI16 text = .ok parsed ∧ parsed.toInt = number) ↔
      SignedNumeral text number ∧ -32768 ≤ number ∧ number ≤ 32767) ∧
    (∀ text number, (∃ parsed, Machine.parseI32 text = .ok parsed ∧ parsed.toInt = number) ↔
      SignedNumeral text number ∧ -2147483648 ≤ number ∧ number ≤ 2147483647) ∧
    (∀ text number, (∃ parsed, Machine.parseU32 text = .ok parsed ∧ parsed.toNat = number) ↔
      UnsignedNumeral text number ∧ number ≤ 4294967295) ∧
    (∀ text requirePrefix number,
      (∃ parsed, Machine.parseHexU32 text requirePrefix = .ok parsed ∧ parsed.toNat = number) ↔
        HexNumeral requirePrefix text number ∧ number ≤ 4294967295) ∧
    (∀ text requirePrefix number,
      (∃ parsed, Machine.parseHexU64 text requirePrefix = .ok parsed ∧ parsed.toNat = number) ↔
        HexNumeral requirePrefix text number ∧ number ≤ 18446744073709551615) ∧
    NoOverflow :=
  ⟨parseI16_iff, parseSigned32_iff, parseU32_iff, parseHexU32_iff, parseHexU64_iff, noOverflow⟩

theorem toNat_limit (negative : Bool) :
    (if negative then 2147483648 else 2147483647 : UInt64).toNat =
      if negative then int32Max + 1 else int32Max := by
  cases negative <;> rfl

/-- A step on natural numbers takes the same decision. -/
theorem signedDigits_cons (negative : Bool) (accumulator : Nat) (ch : WChar)
    (digits : List WChar) :
    signedDigits negative accumulator (ch :: digits) =
      if ch < charZero || ch > charNine then .error .invalidCharacter
      else if accumulator * 10 + (ch.toNat - charZero.toNat) >
          (if negative then int32Max + 1 else int32Max) then
        .error (if negative then .underflow else .overflow)
      else signedDigits negative (accumulator * 10 + (ch.toNat - charZero.toNat)) digits := by
  cases negative <;> simp [signedDigits]

theorem signedDigits_eq (negative : Bool) (digits : List WChar) (accumulator : UInt64)
    (small : accumulator.toNat ≤ if negative then int32Max + 1 else int32Max) :
    signedDigits negative accumulator.toNat digits =
      (digits.foldlM (Machine.signedStep negative) accumulator).map UInt64.toNat := by
  have limit : (if negative then int32Max + 1 else int32Max) < 2 ^ 33 := by
    cases negative <;> decide
  induction digits generalizing accumulator with
  | nil => rfl
  | cons ch digits ih =>
      rw [signedDigits_cons, List.foldlM_cons, signedStep_eq, limitedStep]
      rcases decimalDigit_cases ch with ⟨-, outside⟩ | ⟨value, isDigit, inside, exact, decimal⟩
      · rw [if_pos outside, if_pos outside]
        rfl
      · have same : ch.toNat - charZero.toNat = value := by
          rw [decimalDigit] at isDigit
          split at isDigit
          · exact Option.some_inj.mp isDigit
          · cases isDigit
        have sum := exact_decimal small limit exact decimal
        rw [if_neg (ne_true_of_eq_false inside), if_neg (ne_true_of_eq_false inside), same, ← sum]
        by_cases above : accumulator * 10 + (ch - charZero).toUInt64 >
            if negative then 2147483648 else 2147483647
        · have beyond := UInt64.lt_iff_toNat_lt.mp above
          rw [toNat_limit] at beyond
          rw [if_pos beyond, if_pos above]
          rfl
        · have within := UInt64.le_iff_toNat_le.mp (UInt64.not_lt.mp above)
          rw [toNat_limit] at within
          rw [if_neg (Nat.not_lt.mpr within), if_neg above, ih _ within, signedStep_eq]
          rfl

theorem parseSigned32_eq (text : List WChar) :
    parseSigned32 text = (Machine.parseSigned32 text).map Int32.toInt := by
  cases text with
  | nil => rfl
  | cons first rest =>
      rw [parseSigned32_cons, parseSigned32]
      simp only
      generalize (first == charMinus) = negative
      generalize (if (first == charPlus || negative) = true then rest else first :: rest) = digits
      split
      · rfl
      · rw [show (0 : Nat) = (0 : UInt64).toNat from rfl,
          signedDigits_eq negative digits 0 (Nat.zero_le _)]
        cases accumulated : digits.foldlM (Machine.signedStep negative) 0 with
        | error code => rfl
        | ok accumulator =>
            have small := (signedRun negative digits accumulator).mp accumulated
            simp only [Except.map, toInt_signedResult small.2.2]
            cases negative <;> simp

/-- The parsers of the command line are those on machine words. -/
theorem parseI16_eq (text : List WChar) :
    parseI16 text = (Machine.parseI16 text).map Int16.toInt := by
  rw [parseI16, Machine.parseI16, parseSigned32_eq]
  cases Machine.parseSigned32 text with
  | error code => rfl
  | ok parsed =>
      simp only [Except.map]
      by_cases high : parsed > 32767
      · rw [if_pos high, if_pos ((int16_high parsed).mp high)]
      · rw [if_neg high, if_neg (mt (int16_high parsed).mpr high)]
        by_cases low : parsed < -32768
        · rw [if_pos low, if_pos ((int16_low parsed).mp low)]
        · rw [if_neg low, if_neg (mt (int16_low parsed).mpr low)]
          exact congrArg _ (toInt_toInt16 high low).symm

theorem hexDigits64_eq (digits : List WChar) (accumulator : UInt64) :
    hexDigits64 accumulator.toNat digits =
      (digits.foldlM Machine.hexStep64 accumulator).map UInt64.toNat := by
  induction digits generalizing accumulator with
  | nil => rfl
  | cons ch digits ih =>
      rw [hexDigits64, List.foldlM_cons, Machine.hexStep64]
      rcases hexWord_cases ch with ⟨none, noWord⟩ | ⟨value, word, isDigit, isWord, exact, hex⟩
      · rw [none, noWord]
        rfl
      · rw [isDigit, isWord]
        simp only
        have top : ((0xffffffffffffffff : UInt64) >>> 4).toNat = uint64Max / 16 := by decide
        by_cases above : accumulator > (0xffffffffffffffff : UInt64) >>> 4
        · have beyond := UInt64.lt_iff_toNat_lt.mp above
          rw [top] at beyond
          rw [if_pos beyond, if_pos above]
          rfl
        · have within := UInt64.le_iff_toNat_le.mp (UInt64.not_lt.mp above)
          rw [top] at within
          have wide : uint64Max / 16 = 2 ^ 60 - 1 := by decide
          have sum := exact_hex exact hex (by omega : accumulator.toNat < 2 ^ 60)
          rw [if_neg (Nat.not_lt.mpr within), if_neg above, ← sum, ih]
          rfl

theorem parseHexU64_eq (text : List WChar) (requirePrefix : Bool) :
    parseHexU64 text requirePrefix =
      (Machine.parseHexU64 text requirePrefix).map UInt64.toNat := by
  unfold parseHexU64 Machine.parseHexU64 Machine.parseHex
  split
  · rfl
  · cases afterHexPrefix requirePrefix text with
    | none => rfl
    | some digits =>
        cases digits with
        | nil => rfl
        | cons first rest => exact hexDigits64_eq (first :: rest) 0

end FastNumber

end Conhost
