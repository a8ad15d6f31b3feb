import Mathlib.Data.List.Basic
import Mathlib.Tactic.Common

/-!
# Machine-level vocabulary

The server moves bytes, UTF-16 code units, attribute words and 16-bit
coordinates around. Bytes, units and attribute words keep their machine type,
because the code tests and sets single bits of them. Coordinates are integers:
every arithmetic step of the source is carried out in the wider type `long`,
and a value is narrowed back to `SHORT` only where the source says so, which
is what `toShort` marks.
-/

namespace Conhost

/-- A `std::byte`. -/
abbrev Byte := UInt8

/-- A `wchar_t`: one UTF-16 code unit. -/
abbrev WChar := UInt16

/-- A `USHORT` of text attributes. -/
abbrev Attributes := UInt16

/-- A `COLORREF`: `0x00BBGGRR`. -/
abbrev ColorRef := UInt32

/-- A ConDrv handle cookie: the address of the object it names. -/
abbrev Handle := Nat

/-- The code unit of a character of the basic multilingual plane. -/
@[reducible]
def wc (character : Char) : WChar := UInt16.ofNat character.toNat

/-- The byte of an ASCII character. -/
@[reducible]
def bc (character : Char) : Byte := UInt8.ofNat character.toNat

/-- `static_cast<SHORT>`: reduction into the range of a signed 16-bit integer. -/
def toShort (value : Int) : Int := Int.bmod value 65536

theorem toShort_eq_self {value : Int} (lower : -32768 ≤ value) (upper : value ≤ 32767) :
    toShort value = value := by
  unfold toShort
  rw [Int.bmod_eq_of_le] <;> omega

/-- `std::clamp` on `long`. -/
def clampLong (value low high : Int) : Int :=
  if value < low then low else if high < value then high else value

theorem le_clampLong (value : Int) {low high : Int} (ordered : low ≤ high) :
    low ≤ clampLong value low high := by
  unfold clampLong
  split
  · omega
  · split <;> omega

theorem clampLong_le (value : Int) {low high : Int} (ordered : low ≤ high) :
    clampLong value low high ≤ high := by
  unfold clampLong
  split
  · omega
  · split <;> omega

/-- A `COORD`. -/
structure Coord where
  x : Int
  y : Int
deriving DecidableEq, Repr, Inhabited

/-- The range of a `COORD` as it arrives in a message. -/
structure Coord.IsShort (coord : Coord) : Prop where
  x_ge : -32768 ≤ coord.x
  x_le : coord.x ≤ 32767
  y_ge : -32768 ≤ coord.y
  y_le : coord.y ≤ 32767

/-- A `COORD` field of a message body. -/
abbrev ShortCoord := { coord : Coord // coord.IsShort }

/-- A `SMALL_RECT`; both corners are inclusive. -/
structure SmallRect where
  left : Int
  top : Int
  right : Int
  bottom : Int
deriving DecidableEq, Repr, Inhabited

namespace SmallRect

/-- Membership of a coordinate in an inclusive rectangle. -/
def Contains (rect : SmallRect) (coord : Coord) : Prop :=
  rect.left ≤ coord.x ∧ coord.x ≤ rect.right ∧ rect.top ≤ coord.y ∧ coord.y ≤ rect.bottom

instance (rect : SmallRect) (coord : Coord) : Decidable (rect.Contains coord) :=
  inferInstanceAs (Decidable (_ ∧ _ ∧ _ ∧ _))

/-- The coordinates of a rectangle in the order of the nested loops
`for (y = Top; y <= Bottom; ++y) for (x = Left; x <= Right; ++x)`. -/
def coords (rect : SmallRect) : List Coord :=
  (List.range (rect.bottom - rect.top + 1).toNat).flatMap fun row =>
    (List.range (rect.right - rect.left + 1).toNat).map fun column =>
      ⟨rect.left + column, rect.top + row⟩

end SmallRect

/-- The reply statuses the server sets. -/
inductive Status where
  | success
  | alerted
  | unsuccessful
  | notImplemented
  | invalidHandle
  | invalidParameter
  | noMemory
  | bufferTooSmall
deriving DecidableEq, Repr

/-- The window title and the title the console was created with
(`ServerState::_title`, `ServerState::_original_title`). -/
structure TitleState where
  title : List WChar := []
  originalTitle : List WChar := []
deriving DecidableEq, Repr

/-- `ServerState::set_title`: the first title ever set also becomes the original one. -/
def TitleState.setTitle (state : TitleState) (title : List WChar) : TitleState where
  title := title
  originalTitle := if state.originalTitle.isEmpty then title else state.originalTitle

end Conhost
