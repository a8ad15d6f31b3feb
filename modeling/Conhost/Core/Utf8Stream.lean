import Conhost.Input.Delivery
import Conhost.Input.Conversion
import Conhost.Lib.SymbolStream

/-!
# The streaming UTF-8 decoder

`Utf8StreamDecoder` converts the chunks of a byte stream to UTF-16. It tries to
convert everything that is buffered at once, then everything but the last one,
two or three bytes; if this fails too, it keeps an unfinished character for the
next call or replaces the first byte of the buffer.
-/

namespace Conhost

namespace Utf8Stream

def isUtf8ContinuationByte (value : Byte) : Bool := 0x80 ≤ value && value ≤ 0xbf

/-- The length of the sequence a lead byte announces. -/
def expectedLength (lead : Byte) : Option Nat :=
  if 0xc2 ≤ lead && lead ≤ 0xdf then some 2
  else if 0xe0 ≤ lead && lead ≤ 0xef then some 3
  else if 0xf0 ≤ lead && lead ≤ 0xf4 then some 4
  else none

/-- The ranges of the second byte that avoid overlong encodings and surrogates. -/
def firstContinuationInRange (lead firstCont : Byte) : Bool :=
  !(lead == 0xe0 && firstCont < 0xa0) && !(lead == 0xed && 0x9f < firstCont) &&
    !(lead == 0xf0 && firstCont < 0x90) && !(lead == 0xf4 && 0x8f < firstCont)

/-- `looks_like_incomplete_utf8_sequence` -/
def looksLikeIncompleteUtf8Sequence : List Byte → Bool
  | [] => false
  | lead :: continuation =>
      match expectedLength lead with
      | none => false
      | some expected =>
          continuation.length + 1 < expected && continuation.all isUtf8ContinuationByte &&
            continuation.head?.all (firstContinuationInRange lead)

variable (platform : Platform)

/-- `try_decode` on the unread bytes. -/
def tryDecode (unread : List Byte) (prefixLen : Nat) : Option (List WChar) :=
  if prefixLen = 0 ∨ intMax < prefixLen then none
  else
    match platform.multiByteToWideChar cpUtf8 true (unread.take prefixLen) with
    | [] => none
    | decoded => some decoded

/-- The loop over `trim`: the first prefix that can be decoded. -/
def tryTrimmed (unread : List Byte) (attemptLen : Nat) : Option (Nat × List WChar) :=
  (List.range' 1 (min 3 attemptLen)).findSome? fun trim =>
    (tryDecode platform unread (attemptLen - trim)).map fun decoded => (attemptLen - trim, decoded)

/-- The locals of `decode_append`: the bytes from `consumed` on, and the output. -/
structure LoopState where
  unread : List Byte
  output : List WChar := []

def LoopState.advance (loop : LoopState) (count : Nat) (decoded : List WChar) : LoopState :=
  ⟨loop.unread.drop count, loop.output ++ decoded⟩

def body (loop : LoopState) : Pass LoopState LoopState :=
  if loop.unread = [] then .leave loop
  else
    let attemptLen := min loop.unread.length intMax
    match tryDecode platform loop.unread attemptLen with
    | some decoded => .next (loop.advance attemptLen decoded)
    | none =>
        match tryTrimmed platform loop.unread attemptLen with
        | some (prefixLen, decoded) => .next (loop.advance prefixLen decoded)
        | none =>
            if attemptLen ≤ 3 ∧ looksLikeIncompleteUtf8Sequence (loop.unread.take attemptLen) then
              .leave loop
            else .next (loop.advance 1 [0xfffd])

variable {platform}

theorem tryDecode_some {unread : List Byte} {prefixLen : Nat} {decoded : List WChar}
    (converted : tryDecode platform unread prefixLen = some decoded) :
    0 < prefixLen ∧ prefixLen ≤ intMax ∧ decoded ≠ [] ∧
      platform.multiByteToWideChar cpUtf8 true (unread.take prefixLen) = decoded := by
  rw [tryDecode] at converted
  split at converted
  · cases converted
  · rename_i inside
    split at converted
    · cases converted
    · rename_i nonempty
      cases converted
      exact ⟨by omega, by omega, nonempty, rfl⟩

theorem tryTrimmed_some {unread : List Byte} {attemptLen prefixLen : Nat} {decoded : List WChar}
    (converted : tryTrimmed platform unread attemptLen = some (prefixLen, decoded)) :
    prefixLen < attemptLen ∧ attemptLen ≤ prefixLen + 3 ∧
      tryDecode platform unread prefixLen = some decoded := by
  obtain ⟨trim, inside, found⟩ := List.exists_of_findSome?_eq_some converted
  obtain ⟨decoded', converted', same⟩ := Option.map_eq_some_iff.mp found
  cases same
  have range := List.mem_range'_1.mp inside
  exact ⟨by omega, by omega, converted'⟩

theorem tryTrimmed_none {unread : List Byte} {attemptLen prefixLen : Nat}
    (failed : tryTrimmed platform unread attemptLen = none) (shorter : prefixLen < attemptLen)
    (close : attemptLen ≤ prefixLen + 3) : tryDecode platform unread prefixLen = none := by
  have all := List.findSome?_eq_none_iff.mp failed (attemptLen - prefixLen)
    (List.mem_range'_1.mpr (by omega))
  rwa [Option.map_eq_none_iff, Nat.sub_sub_self shorter.le] at all

/-- A pass that continues takes bytes off the front. -/
theorem body_next {loop next : LoopState} (pass : body platform loop = .next next) :
    ∃ count decoded, 0 < count ∧ loop.unread ≠ [] ∧ next = loop.advance count decoded := by
  rw [body] at pass
  split at pass
  · cases pass
  · rename_i unread
    have positive := List.length_pos_of_ne_nil unread
    dsimp only at pass
    split at pass
    · cases pass
      exact ⟨_, _, by simp only [intMax]; omega, unread, rfl⟩
    · split at pass
      · rename_i converted
        cases pass
        exact ⟨_, _, (tryDecode_some (tryTrimmed_some converted).2.2).1, unread, rfl⟩
      · split at pass
        · cases pass
        · cases pass
          exact ⟨1, _, Nat.one_pos, unread, rfl⟩

variable (platform)

def decodeLoop : Loop LoopState LoopState where
  body := body platform
  measure loop := loop.unread.length
  decreases := by
    intro loop next pass
    obtain ⟨count, decoded, positive, unread, rfl⟩ := body_next pass
    have size := List.length_pos_of_ne_nil unread
    simp only [LoopState.advance, List.length_drop]
    omega

/-- `decode_append`: the output and the bytes that stay pending. -/
def decodeAppend (pending bytes : List Byte) : List WChar × List Byte :=
  let final := (decodeLoop platform).run { unread := pending ++ bytes }
  (final.output, final.unread)

/-- A sequence of `decode_append` calls on a decoder: everything they return, and what is pending
after the last one. -/
def decodeAll (chunks : List (List Byte)) (pending : List Byte) : List WChar × List Byte :=
  match chunks with
  | [] => ([], pending)
  | chunk :: later =>
      let decoded := decodeAppend platform pending chunk
      let rest := decodeAll later decoded.2
      (decoded.1 ++ rest.1, rest.2)

end Utf8Stream

end Conhost
