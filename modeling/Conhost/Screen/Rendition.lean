import Mathlib.Algebra.Order.Ring.Abs
import Mathlib.Algebra.Order.Ring.Int
import Conhost.Lib.Scan
import Conhost.Screen.CsiText

/-!
# Graphic rendition

`apply_sgr` reads its parameters in chunks: a color specification with all its arguments,
or a single parameter. A list whose chunks all end inside it can be cut off and applied
first. What a chunk other than a reset changes lies within sixteen bits of color,
underscore and reverse video, and the color of a palette is the first nearest entry of
the color table.
-/

namespace Conhost

namespace Sgr

/-- What `apply_sgr` reads in one go. A color parameter without all its arguments is
incomplete and has no effect. -/
inductive Chunk where
  | basic (param : Nat)
  | indexed (foreground : Bool) (index : Nat)
  | direct (foreground : Bool) (red green blue : Nat)
  | incomplete
deriving DecidableEq, Repr

namespace Chunk

/-- The number of parameters of a chunk. -/
def width : Chunk → Nat
  | basic _ => 1
  | indexed _ _ => 3
  | direct _ _ _ _ => 5
  | incomplete => 1

def apply (table : Vector ColorRef 16) (defaults attributes : Attributes) : Chunk → Attributes
  | basic param => applyBasic defaults attributes param
  | indexed foreground index => applyIndexed table attributes index foreground
  | direct foreground red green blue =>
      setPaletteIndex attributes
        (nearestPaletteIndex table (clampByte red) (clampByte green) (clampByte blue)) foreground
  | incomplete => attributes

/-- The chunk of a color parameter with what follows it. -/
def color (foreground : Bool) : List Nat → Chunk
  | 5 :: index :: _ => indexed foreground index
  | 2 :: red :: green :: blue :: _ => direct foreground red green blue
  | _ => incomplete

/-- The first chunk of a list. -/
def first : List Nat → Chunk
  | [] => incomplete
  | param :: rest => if param = 38 ∨ param = 48 then color (param == 38) rest else basic param

theorem color_incomplete {foreground : Bool} {rest : List Nat}
    (notIndexed : ∀ index later, rest ≠ 5 :: index :: later)
    (notDirect : ∀ red green blue later, rest ≠ 2 :: red :: green :: blue :: later) :
    color foreground rest = incomplete := by
  unfold color
  split
  · exact absurd rfl (notIndexed _ _)
  · exact absurd rfl (notDirect _ _ _ _)
  · rfl

/-- A color parameter is read alike in a list and in a longer one, unless the chunk reaches
into what was added. -/
theorem color_append {foreground : Bool} {rest later : List Nat}
    (inside : (color foreground (rest ++ later)).width ≤ rest.length + 1) :
    color foreground rest = color foreground (rest ++ later) := by
  generalize whole : rest ++ later = all at inside ⊢
  unfold color at inside
  split at inside
  · rcases rest with _ | ⟨kind, _ | ⟨index, rest⟩⟩
    · simp [width] at inside
    · simp [width] at inside
    · simp only [List.cons_append, List.cons.injEq] at whole
      obtain ⟨rfl, rfl, -⟩ := whole
      rfl
  · rcases rest with _ | ⟨kind, _ | ⟨red, _ | ⟨green, _ | ⟨blue, rest⟩⟩⟩⟩
    · simp [width] at inside
    · simp [width] at inside
    · simp [width] at inside
    · simp [width] at inside
    · simp only [List.cons_append, List.cons.injEq] at whole
      obtain ⟨rfl, rfl, rfl, rfl, -⟩ := whole
      rfl
  · rename_i notIndexed notDirect
    rw [color_incomplete notIndexed notDirect]
    subst whole
    refine color_incomplete ?_ ?_
    · rintro index tail rfl
      exact notIndexed _ _ rfl
    · rintro red green blue tail rfl
      exact notDirect _ _ _ _ rfl

theorem first_append {params later : List Nat} (nonempty : params ≠ [])
    (inside : (first (params ++ later)).width ≤ params.length) :
    first params = first (params ++ later) := by
  cases params with
  | nil => exact absurd rfl nonempty
  | cons param rest =>
      simp only [List.cons_append, first] at inside ⊢
      split at inside
      · rename_i isColor
        rw [if_pos isColor, if_pos isColor]
        exact color_append inside
      · rename_i isBasic
        rw [if_neg isBasic, if_neg isBasic]

theorem width_pos (chunk : Chunk) : 0 < chunk.width := by
  cases chunk <;> simp [width]

end Chunk

variable {table : Vector ColorRef 16} {defaults : Attributes}

/-- The number of parameters the first chunk of a list takes. -/
def width (params : List Nat) : Nat := (Chunk.first params).width

theorem apply_step {params : List Nat} (nonempty : params ≠ []) (attributes : Attributes) :
    apply table defaults params attributes =
      apply table defaults (params.drop (width params))
        ((Chunk.first params).apply table defaults attributes) := by
  cases params with
  | nil => exact absurd rfl nonempty
  | cons param rest =>
      conv_lhs => rw [apply.eq_def]
      by_cases isColor : param = 38 ∨ param = 48
      · simp only [width, Chunk.first, if_pos isColor]
        split
        · rfl
        · rfl
        · rename_i notIndexed notDirect
          rw [Chunk.color_incomplete notIndexed notDirect]
          rfl
      · simp only [width, Chunk.first, if_neg isColor]
        rfl

/-- The loop of `apply_sgr` reads chunk by chunk. -/
theorem chunkScan (table : Vector ColorRef 16) (defaults : Attributes) :
    ChunkScan width (fun params attributes => (Chunk.first params).apply table defaults attributes)
      (apply table defaults) where
  nil attributes := rfl
  step nonempty attributes := apply_step nonempty attributes
  positive params := (Chunk.first params).width_pos
  width_append nonempty inside := congrArg Chunk.width (Chunk.first_append nonempty inside)
  effect_append nonempty inside := by
    rw [Chunk.first_append nonempty inside]

/-- The bits of the foreground, the background, the underscore and reverse video. -/
def renditionMask : Attributes := foregroundMask ||| backgroundMask ||| reverseVideo ||| underscore

/-- The attributes outside these bits. -/
def others (attributes : Attributes) : Attributes := attributes &&& ~~~renditionMask

theorem others_set {cleared set attributes : Attributes} (clears : others cleared = 0)
    (sets : others set = 0) : others ((attributes &&& ~~~cleared) ||| set) = others attributes := by
  unfold others at clears sets ⊢
  generalize renditionMask = mask at clears sets ⊢
  apply UInt16.toBitVec_inj.mp
  have clearsBits := congrArg UInt16.toBitVec clears
  have setsBits := congrArg UInt16.toBitVec sets
  ext bit inside
  have clear := congrArg (·.getLsbD bit) clearsBits
  have set := congrArg (·.getLsbD bit) setsBits
  simp at clear set ⊢
  grind

theorem others_clear {cleared attributes : Attributes} (clears : others cleared = 0) :
    others (attributes &&& ~~~cleared) = others attributes := by
  rw [← UInt16.or_zero (a := attributes &&& ~~~cleared)]
  exact others_set clears (by decide)

theorem others_or {set attributes : Attributes} (sets : others set = 0) :
    others (attributes ||| set) = others attributes := by
  calc others (attributes ||| set) = others ((attributes &&& ~~~0) ||| set) := by simp
    _ = others attributes := others_set (by decide) sets

theorem others_and {mask attributes : Attributes} (within : others mask = 0) :
    others (attributes &&& mask) = 0 := by
  unfold others at within ⊢
  rw [UInt16.and_assoc, within, UInt16.and_zero]

theorem others_colorBits (color : Nat) (bright : Bool) :
    others (colorBits color bright) = 0 ∧ others (colorBits color bright <<< 4) = 0 := by
  unfold colorBits
  split_ifs <;> decide

theorem others_paletteBits (index : Nat) :
    others (UInt16.ofNat (index &&& 0x0F)) = 0 ∧
      others (UInt16.ofNat ((index &&& 0x0F) <<< 4)) = 0 := by
  have small : index &&& 0x0F < 16 := Nat.lt_of_le_of_lt Nat.and_le_right (by decide)
  have all : ∀ entry < 16, others (UInt16.ofNat entry) = 0 ∧
      others (UInt16.ofNat (entry <<< 4)) = 0 := by decide
  exact all _ small

theorem others_setForeground (attributes : Attributes) (color : Nat) (bright : Bool) :
    others (setForeground attributes color bright) = others attributes :=
  others_set (by decide) (others_colorBits color bright).1

theorem others_setBackground (attributes : Attributes) (color : Nat) (bright : Bool) :
    others (setBackground attributes color bright) = others attributes :=
  others_set (by decide) (others_colorBits color bright).2

theorem others_setPaletteIndex (attributes : Attributes) (index : Nat) (foreground : Bool) :
    others (setPaletteIndex attributes index foreground) = others attributes := by
  unfold setPaletteIndex
  split
  · exact others_set (by decide) (others_paletteBits index).1
  · exact others_set (by decide) (others_paletteBits index).2

theorem others_ite {condition : Prop} [Decidable condition] {first second attributes : Attributes}
    (left : others first = others attributes) (right : others second = others attributes) :
    others (if condition then first else second) = others attributes := by
  split
  · exact left
  · exact right

theorem others_applyBasic {param : Nat} (notReset : param ≠ 0) (attributes : Attributes) :
    others (applyBasic defaults attributes param) = others attributes := by
  unfold applyBasic
  rw [if_neg notReset]
  refine others_ite (others_or (by decide)) ?_
  refine others_ite (others_clear (by decide)) ?_
  refine others_ite (others_or (by decide)) ?_
  refine others_ite (others_clear (by decide)) ?_
  refine others_ite (others_or (by decide)) ?_
  refine others_ite (others_clear (by decide)) ?_
  refine others_ite (others_set (by decide) (others_and (by decide))) ?_
  refine others_ite (others_set (by decide) (others_and (by decide))) ?_
  refine others_ite (others_setForeground ..) ?_
  refine others_ite (others_setForeground ..) ?_
  refine others_ite (others_setBackground ..) ?_
  exact others_ite (others_setBackground ..) rfl

theorem others_applyIndexed (attributes : Attributes) (index : Nat) (foreground : Bool) :
    others (applyIndexed table attributes index foreground) = others attributes := by
  unfold applyIndexed
  dsimp only
  split_ifs
  · exact others_setForeground ..
  · exact others_setBackground ..
  · exact others_setPaletteIndex ..

/-- Only the parameter zero is a reset. -/
theorem Chunk.eq_zero_of_first {param : Nat} {rest : List Nat}
    (reset : first (param :: rest) = .basic 0) : param = 0 := by
  simp only [first] at reset
  by_cases isColor : param = 38 ∨ param = 48
  · rw [if_pos isColor] at reset
    unfold color at reset
    split at reset <;> cases reset
  · rw [if_neg isColor] at reset
    exact basic.inj reset

/-- A chunk other than a reset keeps the other bits. -/
theorem Chunk.others_apply {chunk : Chunk} (notReset : chunk ≠ .basic 0)
    (attributes : Attributes) :
    others (chunk.apply table defaults attributes) = others attributes := by
  cases chunk with
  | basic param => exact others_applyBasic (by rintro rfl; exact notReset rfl) attributes
  | indexed foreground index => exact others_applyIndexed ..
  | direct foreground red green blue => exact others_setPaletteIndex ..
  | incomplete => rfl

/-- A list in which no chunk is a reset keeps the other bits. -/
theorem others_apply {params : List Nat}
    (noReset : ∀ position, ChunkStart width params position → params[position]? ≠ some 0)
    (attributes : Attributes) :
    others (apply table defaults params attributes) = others attributes := by
  refine (chunkScan table defaults).keeps (fun later => others later = others attributes) ?_ rfl
  intro position inside start state kept
  refine (Chunk.others_apply ?_ state).trans kept
  intro reset
  apply noReset position start
  rw [List.drop_eq_getElem_cons inside] at reset
  rw [List.getElem?_eq_getElem inside, Chunk.eq_zero_of_first reset]

theorem clampByte_standsFor {capped exact : Nat}
    (stands : Numeral.StandsFor paramLimit capped exact) : clampByte capped = clampByte exact := by
  refine stands.congr ?_
  intro left right leftLarge rightLarge
  have limit : paramLimit = 1000000 := rfl
  unfold clampByte
  rw [if_pos (by omega), if_pos (by omega)]

theorem applyBasic_standsFor {capped exact : Nat}
    (stands : Numeral.StandsFor paramLimit capped exact) (attributes : Attributes) :
    applyBasic defaults attributes capped = applyBasic defaults attributes exact := by
  have settled (param : Nat) (large : paramLimit < param) :
      applyBasic defaults attributes param = attributes := by
    have limit : paramLimit = 1000000 := rfl
    have other (number : Nat) (small : number ≤ paramLimit) : param ≠ number := by omega
    have beyond (low high : Nat) (small : high ≤ paramLimit) : ¬ (low ≤ param ∧ param ≤ high) := by
      omega
    unfold applyBasic
    rw [if_neg (other 0 (by omega)), if_neg (other 1 (by omega)), if_neg (other 22 (by omega)),
      if_neg (other 4 (by omega)), if_neg (other 24 (by omega)), if_neg (other 7 (by omega)),
      if_neg (other 27 (by omega)), if_neg (other 39 (by omega)), if_neg (other 49 (by omega)),
      if_neg (beyond 30 37 (by omega)), if_neg (beyond 90 97 (by omega)),
      if_neg (beyond 40 47 (by omega)), if_neg (beyond 100 107 (by omega))]
  refine stands.congr ?_
  intro left right leftLarge rightLarge
  rw [settled left leftLarge, settled right rightLarge]

/-- A chunk of as many parameters that does the same. -/
def Chunk.Alike (table : Vector ColorRef 16) (defaults : Attributes) (chunk other : Chunk) : Prop :=
  chunk.width = other.width ∧
    ∀ attributes, chunk.apply table defaults attributes = other.apply table defaults attributes

theorem Chunk.alike_color {capped exact : List Nat}
    (stands : List.Forall₂ (Numeral.StandsFor paramLimit) capped exact) (foreground : Bool) :
    Chunk.Alike table defaults (color foreground capped) (color foreground exact) := by
  unfold color
  split
  · rename_i index tail
    obtain ⟨kind, _, five, behind, rfl⟩ := List.forall₂_cons_left_iff.mp stands
    obtain ⟨other, later, same, -, rfl⟩ := List.forall₂_cons_left_iff.mp behind
    rw [(five.eq_iff (by decide)).mp rfl]
    refine ⟨rfl, fun attributes => ?_⟩
    simp only [Chunk.apply, applyIndexed, xterm256IndexToRgb, clampByte_standsFor same]
  · rename_i red green blue tail
    obtain ⟨kind, _, two, colors, rfl⟩ := List.forall₂_cons_left_iff.mp stands
    obtain ⟨red', _, sameRed, greens, rfl⟩ := List.forall₂_cons_left_iff.mp colors
    obtain ⟨green', _, sameGreen, blues, rfl⟩ := List.forall₂_cons_left_iff.mp greens
    obtain ⟨blue', later, sameBlue, -, rfl⟩ := List.forall₂_cons_left_iff.mp blues
    rw [(two.eq_iff (by decide)).mp rfl]
    refine ⟨rfl, fun attributes => ?_⟩
    simp only [Chunk.apply, clampByte_standsFor sameRed, clampByte_standsFor sameGreen,
      clampByte_standsFor sameBlue]
  · rename_i notIndexed notDirect
    have incomplete : color foreground exact = .incomplete := by
      refine color_incomplete ?_ ?_
      · rintro index later rfl
        obtain ⟨kind, _, five, behind, rfl⟩ := List.forall₂_cons_right_iff.mp stands
        obtain ⟨other, rest, -, -, rfl⟩ := List.forall₂_cons_right_iff.mp behind
        rw [(five.eq_iff (by decide)).mpr rfl] at notIndexed
        exact notIndexed _ _ rfl
      · rintro red green blue later rfl
        obtain ⟨kind, _, two, colors, rfl⟩ := List.forall₂_cons_right_iff.mp stands
        obtain ⟨red', _, -, greens, rfl⟩ := List.forall₂_cons_right_iff.mp colors
        obtain ⟨green', _, -, blues, rfl⟩ := List.forall₂_cons_right_iff.mp greens
        obtain ⟨blue', rest, -, -, rfl⟩ := List.forall₂_cons_right_iff.mp blues
        rw [(two.eq_iff (by decide)).mpr rfl] at notDirect
        exact notDirect _ _ _ _ rfl
    unfold color at incomplete
    rw [incomplete]
    exact ⟨rfl, fun attributes => rfl⟩

theorem Chunk.alike_first {capped exact : List Nat}
    (stands : List.Forall₂ (Numeral.StandsFor paramLimit) capped exact) :
    Chunk.Alike table defaults (first capped) (first exact) := by
  cases stands with
  | nil => exact ⟨rfl, fun attributes => rfl⟩
  | cons head tail =>
      rename_i param number rest numbers
      have isColor : (param = 38 ∨ param = 48) ↔ (number = 38 ∨ number = 48) :=
        or_congr (head.eq_iff (by decide)) (head.eq_iff (by decide))
      have isForeground : (param == 38) = (number == 38) := by
        rw [Bool.eq_iff_iff, beq_iff_eq, beq_iff_eq]
        exact head.eq_iff (by decide)
      simp only [first, isColor, isForeground]
      by_cases color : number = 38 ∨ number = 48
      · rw [if_pos color, if_pos color]
        exact alike_color tail _
      · rw [if_neg color, if_neg color]
        exact ⟨rfl, fun attributes => applyBasic_standsFor head attributes⟩

/-- `apply_sgr` does not tell capped parameters from the exact ones. -/
theorem apply_standsFor {capped exact : List Nat}
    (stands : List.Forall₂ (Numeral.StandsFor paramLimit) capped exact) (attributes : Attributes) :
    apply table defaults capped attributes = apply table defaults exact attributes := by
  induction size : capped.length using Nat.strongRecOn generalizing capped exact attributes with
  | ind length ih =>
    by_cases empty : capped = []
    · subst empty
      rw [List.forall₂_nil_left_iff.mp stands]
    have nonempty : exact ≠ [] := by
      rintro rfl
      exact empty (List.forall₂_nil_right_iff.mp stands)
    obtain ⟨widths, effects⟩ := @Chunk.alike_first table defaults _ _ stands
    have shorter : (capped.drop (width capped)).length < length := by
      have := (Chunk.first capped).width_pos
      have := List.length_pos_iff.mpr empty
      rw [List.length_drop]
      unfold width
      omega
    have sameWidth : width exact = width capped := widths.symm
    rw [apply_step empty, apply_step nonempty, effects, sameWidth]
    exact ih _ shorter (List.forall₂_drop (width capped) stands) _ rfl

/-- The squared distance of a color to the one with the given components. -/
def squaredDistance (color : ColorRef) (red green blue : Nat) : Int :=
  (((color &&& 0xFF).toNat : Int) - red) ^ 2 +
    ((((color >>> 8) &&& 0xFF).toNat : Int) - green) ^ 2 +
    ((((color >>> 16) &&& 0xFF).toNat : Int) - blue) ^ 2

/-- The first entry of a color table at the least distance. -/
structure IsNearestEntry (table : Vector ColorRef 16) (red green blue : Nat)
    (index : Fin 16) : Prop where
  least : ∀ other : Fin 16,
    squaredDistance table[index] red green blue ≤ squaredDistance table[other] red green blue
  lowest : ∀ other : Fin 16, other < index →
    squaredDistance table[index] red green blue < squaredDistance table[other] red green blue

theorem colorDistance_eq (color : ColorRef) (red green blue : Nat) :
    (colorDistance color red green blue : Int) = squaredDistance color red green blue := by
  have square (entry : UInt32) (wanted : Nat) :
      ((((entry.toNat : Int) - wanted) * ((entry.toNat : Int) - wanted)).toNat : Int) =
        ((entry.toNat : Int) - wanted) ^ 2 := by
    rw [Int.toNat_of_nonneg (mul_self_nonneg _), sq]
  unfold colorDistance squaredDistance
  dsimp only
  rw [Int.natCast_add, Int.natCast_add, square, square, square]

theorem component_le (value : UInt32) : (value &&& 0xFF).toNat ≤ 255 := by
  rw [UInt32.toNat_and]
  exact Nat.and_le_right

/-- The distance of a color to one with components of a byte is a small number. -/
theorem colorDistance_lt (color : ColorRef) {red green blue : Nat} (redByte : red ≤ 255)
    (greenByte : green ≤ 255) (blueByte : blue ≤ 255) :
    colorDistance color red green blue ≤ 195075 := by
  have square {entry wanted : Nat} (entryByte : entry ≤ 255) (wantedByte : wanted ≤ 255) :
      ((entry : Int) - wanted) ^ 2 ≤ 255 ^ 2 := by
    apply sq_le_sq'
    · omega
    · omega
  have sum := colorDistance_eq color red green blue
  unfold squaredDistance at sum
  have first := square (component_le color) redByte
  have second := square (component_le (color >>> 8)) greenByte
  have third := square (component_le (color >>> 16)) blueByte
  omega

/-- The search over the color table finds the first nearest entry. -/
theorem nearestPaletteIndex_spec (table : Vector ColorRef 16) {red green blue : Nat}
    (redByte : red ≤ 255) (greenByte : green ≤ 255) (blueByte : blue ≤ 255) :
    ∃ index : Fin 16, nearestPaletteIndex table red green blue = index ∧
      IsNearestEntry table red green blue index := by
  let cost (color : ColorRef) : Nat := colorDistance color red green blue
  have search : nearestPaletteIndex table red green blue =
      (cheapest cost 0xFFFFFFFF table.toList).1 := rfl
  have entries (index : Fin 16) : table.toList[index.val]? = some table[index] := by
    simp
  have spec : Cheapest cost table.toList (cheapest cost 0xFFFFFFFF table.toList) := by
    refine cheapest_spec ?_ ?_
    · intro none
      have := congrArg List.length none
      simp at this
    · intro color mem
      have := colorDistance_lt color redByte greenByte blueByte
      show colorDistance color red green blue < 0xFFFFFFFF
      omega
  rw [search]
  generalize cheapest cost 0xFFFFFFFF table.toList = best at spec
  obtain ⟨color, found, costs⟩ := spec.found
  have inside : best.1 < 16 := by
    have := (List.getElem?_eq_some_iff.mp found).1
    simpa using this
  have winner : best.2 = cost table[best.1] := by
    have here := entries ⟨best.1, inside⟩
    rw [here] at found
    rw [← costs, ← Option.some.inj found]
    rfl
  refine ⟨⟨best.1, inside⟩, rfl, ?_, ?_⟩
  · intro other
    have le := spec.least (entries other)
    rw [winner] at le
    rw [← colorDistance_eq, ← colorDistance_eq]
    exact Int.ofNat_le.mpr le
  · intro other before
    have lt := spec.first (entries other) before
    rw [winner] at lt
    rw [← colorDistance_eq, ← colorDistance_eq]
    exact Int.ofNat_lt.mpr lt

theorem clampByte_le (value : Nat) : clampByte value ≤ 255 := by
  unfold clampByte
  split
  · exact le_rfl
  · omega

theorem xterm256IndexToRgb_le (index : Nat) :
    (xterm256IndexToRgb index).1 ≤ 255 ∧ (xterm256IndexToRgb index).2.1 ≤ 255 ∧
      (xterm256IndexToRgb index).2.2 ≤ 255 := by
  have byte := clampByte_le index
  have component {value : Nat} (small : value ≤ 5) :
      (if value = 0 then 0 else 55 + 40 * value) ≤ 255 := by
    split <;> omega
  unfold xterm256IndexToRgb
  generalize clampByte index = entry at byte
  dsimp only
  split
  · simp
  split
  · dsimp only
    omega
  · exact ⟨component (by omega), component (by omega), component (by omega)⟩

/-- The attributes with another color from the table. -/
def withEntry (attributes : Attributes) (foreground : Bool) (index : Fin 16) : Attributes :=
  if foreground then (attributes &&& ~~~foregroundMask) ||| UInt16.ofNat index
  else (attributes &&& ~~~backgroundMask) ||| UInt16.ofNat (index * 16)

theorem setPaletteIndex_eq (attributes : Attributes) (foreground : Bool) (index : Fin 16) :
    setPaletteIndex attributes index foreground = withEntry attributes foreground index := by
  have small : index.val &&& 0x0F = index.val := by
    have all : ∀ entry < 16, entry &&& 0x0F = entry := by decide
    exact all _ index.isLt
  unfold setPaletteIndex withEntry
  rw [small, Nat.shiftLeft_eq]

/-- The parameter that introduces a color. -/
def colorParam (foreground : Bool) : Nat := if foreground then 38 else 48

theorem apply_color (table : Vector ColorRef 16) (defaults : Attributes) (foreground : Bool)
    {rest : List Nat} (whole : (Chunk.color foreground rest).width = rest.length + 1)
    (attributes : Attributes) :
    apply table defaults (colorParam foreground :: rest) attributes =
      (Chunk.color foreground rest).apply table defaults attributes := by
  have chunk : Chunk.first (colorParam foreground :: rest) = Chunk.color foreground rest := by
    cases foreground <;> rfl
  rw [apply_step (List.cons_ne_nil _ _), width, chunk, whole]
  rw [List.drop_of_length_le (by simp)]
  rfl

/-- A color given by its components selects the first nearest entry. -/
theorem apply_direct (table : Vector ColorRef 16) (defaults attributes : Attributes)
    (foreground : Bool) (red green blue : Nat) :
    ∃ index, IsNearestEntry table (min red 255) (min green 255) (min blue 255) index ∧
      apply table defaults [colorParam foreground, 2, red, green, blue] attributes =
        withEntry attributes foreground index := by
  have clamp (value : Nat) : clampByte value = min value 255 := by
    unfold clampByte
    split <;> omega
  obtain ⟨index, selected, nearest⟩ := nearestPaletteIndex_spec table (clampByte_le red)
    (clampByte_le green) (clampByte_le blue)
  simp only [clamp] at selected nearest
  refine ⟨index, nearest, ?_⟩
  rw [apply_color table defaults foreground rfl, ← setPaletteIndex_eq, ← selected]
  simp only [Chunk.color, Chunk.apply, clamp]

/-- A color of the extended palette selects the first nearest entry. -/
theorem apply_indexed (table : Vector ColorRef 16) (defaults attributes : Attributes)
    (foreground : Bool) {number : Nat} (extended : 16 ≤ number) :
    ∃ index, IsNearestEntry table (xterm256IndexToRgb (min number 255)).1
        (xterm256IndexToRgb (min number 255)).2.1 (xterm256IndexToRgb (min number 255)).2.2 index ∧
      apply table defaults [colorParam foreground, 5, number] attributes =
        withEntry attributes foreground index := by
  have clamp : clampByte number = min number 255 := by
    unfold clampByte
    split <;> omega
  have color := xterm256IndexToRgb_le (min number 255)
  obtain ⟨index, selected, nearest⟩ := nearestPaletteIndex_spec table color.1 color.2.1 color.2.2
  refine ⟨index, nearest, ?_⟩
  rw [apply_color table defaults foreground rfl, ← setPaletteIndex_eq, ← selected]
  simp only [Chunk.color, Chunk.apply, applyIndexed, clamp]
  rw [if_neg (by omega)]

end Sgr

open VtCsiSequence

/-- The SGR sequence with the given parameters. -/
def rendition (params : List Nat) : VtCsiSequence := { final := wc 'm', params := params }

theorem applyCsi_rendition (call : OutputCall) (csi : VtCsiSequence) (final : csi.final = wc 'm')
    (state : OutputState) :
    call.applyCsi csi state =
      { state with
        regs.attributes :=
          Sgr.apply state.buffer.colorTable call.defaultAttributes csi.params
            state.regs.attributes } := by
  have function : csi.function = .selectGraphicRendition := if_pos final
  simp only [OutputCall.applyCsi, function]

/-- The text of an SGR sequence changes the attributes alone, by the exact numbers. -/
theorem OutputCall.run_rendition {call : OutputCall} (vt : call.mode.vtProcessing = true)
    {state : OutputState} (phase : state.buffer.vtOutputParseState.phase = .ground)
    (eightBit : Bool) {body : List WChar} (short : body.length < 128)
    (plain : ∀ character ∈ body, ¬ isFinal character) :
    ∃ parser : VtOutputParseState, parser.phase = .ground ∧
      call.run state (csiText eightBit body (wc 'm')) =
        (call.applyCsi (rendition (boundParams (wc 'm') (bodyNumbers body))) state).withParser
          parser := by
  obtain ⟨parser, stands, -, ground, ran⟩ :=
    run_csiText vt phase eightBit short plain (show isFinal (wc 'm') by decide)
  refine ⟨parser, ground, ?_⟩
  rw [ran, applyCsi_rendition call _ stands.final, Sgr.apply_standsFor stands.params]
  exact congrArg (·.withParser parser) (applyCsi_rendition call (rendition _) rfl state).symm

theorem bodyNumbers_append {front rest : List WChar} (frontCounts : bodyNumbers front ≠ [])
    (restCounts : bodyNumbers rest ≠ []) :
    bodyNumbers (front ++ wc ';' :: rest) = bodyNumbers front ++ bodyNumbers rest := by
  have counted {body : List WChar} (counts : bodyNumbers body ≠ []) :
      bodyNumbers body = (body.splitOnP isSeparator).map fieldValue := by
    unfold bodyNumbers at counts ⊢
    split at counts
    · rename_i some
      rw [if_pos some]
    · exact absurd rfl counts
  have whole : bodyNumbers (front ++ wc ';' :: rest) =
      ((front ++ wc ';' :: rest).splitOnP isSeparator).map fieldValue :=
    if_pos (by simp [isSeparator])
  rw [whole, counted frontCounts, counted restCounts,
    List.splitOnP_append_cons _ _ (show isSeparator (wc ';') = true from rfl), List.map_append]

/-- How SGR sequences compose, what they leave alone and which colors they select. -/
structure RenditionLaws (call : OutputCall) (state : OutputState) : Prop where
  reads : ∀ (eightBit : Bool) (body : List WChar), body.length < 128 →
    (∀ character ∈ body, ¬ isFinal character) →
    ∃ parser : VtOutputParseState, parser.phase = .ground ∧
      call.run state (csiText eightBit body (wc 'm')) =
        (call.applyCsi (rendition (boundParams (wc 'm') (bodyNumbers body))) state).withParser
          parser
  appends : ∀ front rest : List Nat, ChunksInside Sgr.width front rest →
    call.applyCsi (rendition (front ++ rest)) state =
      call.applyCsi (rendition rest) (call.applyCsi (rendition front) state)
  composes : ∀ (front rest : List WChar) (eightBit : Fin 3 → Bool),
    (∀ character ∈ front ++ rest, ¬ isFinal character) →
    (front ++ wc ';' :: rest).length < 128 → bodyNumbers front ≠ [] → bodyNumbers rest ≠ [] →
    (bodyNumbers front).length + (bodyNumbers rest).length ≤ 16 →
    ChunksInside Sgr.width (bodyNumbers front) (bodyNumbers rest) →
    (call.run state (csiText (eightBit 0) (front ++ wc ';' :: rest) (wc 'm'))).withParser {} =
      (call.run state (csiText (eightBit 1) front (wc 'm') ++
        csiText (eightBit 2) rest (wc 'm'))).withParser {}
  keeps : ∀ params : List Nat,
    (∀ position, ChunkStart Sgr.width params position → params[position]? ≠ some 0) →
    ∃ attributes, Sgr.others attributes = Sgr.others state.regs.attributes ∧
      call.applyCsi (rendition params) state = { state with regs.attributes := attributes }
  direct : ∀ (foreground : Bool) (red green blue : Nat), ∃ index,
    Sgr.IsNearestEntry state.buffer.colorTable (min red 255) (min green 255) (min blue 255) index ∧
      call.applyCsi (rendition [Sgr.colorParam foreground, 2, red, green, blue]) state =
        { state with
          regs.attributes := Sgr.withEntry state.regs.attributes foreground index }
  indexed : ∀ (foreground : Bool) (number : Nat), 16 ≤ number → ∃ index,
    Sgr.IsNearestEntry state.buffer.colorTable (Sgr.xterm256IndexToRgb (min number 255)).1
        (Sgr.xterm256IndexToRgb (min number 255)).2.1
        (Sgr.xterm256IndexToRgb (min number 255)).2.2 index ∧
      call.applyCsi (rendition [Sgr.colorParam foreground, 5, number]) state =
        { state with
          regs.attributes := Sgr.withEntry state.regs.attributes foreground index }

theorem applyCsi_rendition_append (call : OutputCall) {front rest : List Nat}
    (inside : ChunksInside Sgr.width front rest) (state : OutputState) :
    call.applyCsi (rendition (front ++ rest)) state =
      call.applyCsi (rendition rest) (call.applyCsi (rendition front) state) := by
  have applied (params : List Nat) (state : OutputState) :=
    applyCsi_rendition call (rendition params) rfl state
  simp only [applied]
  exact congrArg (fun attributes => { state with regs.attributes := attributes })
    ((Sgr.chunkScan _ _).append inside _)

theorem renditionLaws {call : OutputCall} (vt : call.mode.vtProcessing = true)
    {state : OutputState} (phase : state.buffer.vtOutputParseState.phase = .ground) :
    RenditionLaws call state where
  reads eightBit body short plain := OutputCall.run_rendition vt phase eightBit short plain
  appends front rest inside := applyCsi_rendition_append call inside state
  composes front rest eightBit plain short frontCounts restCounts few inside := by
    have frontPlain : ∀ character ∈ front, ¬ isFinal character :=
      fun character mem => plain character (List.mem_append_left _ mem)
    have restPlain : ∀ character ∈ rest, ¬ isFinal character :=
      fun character mem => plain character (List.mem_append_right _ mem)
    have wholePlain : ∀ character ∈ front ++ wc ';' :: rest, ¬ isFinal character := by
      intro character mem
      rcases List.mem_append.mp mem with mem | mem
      · exact frontPlain character mem
      rcases List.mem_cons.mp mem with rfl | mem
      · decide
      · exact restPlain character mem
    have bound {numbers : List Nat} (some : numbers ≠ []) (few : numbers.length ≤ 16) :
        boundParams (wc 'm') numbers = numbers := by
      unfold boundParams
      rw [if_neg (fun none => some none.2), List.take_of_length_le few]
    rw [List.length_append, List.length_cons] at short
    obtain ⟨parser, -, whole⟩ :=
      OutputCall.run_rendition vt phase (eightBit 0) (by simpa using short) wholePlain
    obtain ⟨middle, ground, first⟩ :=
      OutputCall.run_rendition vt phase (eightBit 1) (by omega) frontPlain
    rw [bound frontCounts (by omega)] at first
    let between := call.applyCsi (rendition (bodyNumbers front)) state
    have between_ground : (between.withParser middle).buffer.vtOutputParseState.phase = .ground :=
      ground
    obtain ⟨last, -, second⟩ :=
      OutputCall.run_rendition vt between_ground (eightBit 2) (by omega) restPlain
    rw [bound restCounts (by omega), OutputCall.applyCsi_withParser] at second
    rw [bodyNumbers_append frontCounts restCounts,
      bound (by simp [frontCounts]) (by simpa using few),
      applyCsi_rendition_append call inside] at whole
    rw [OutputCall.run_append, whole, first, second]
    rfl
  keeps params noReset :=
    ⟨_, Sgr.others_apply noReset _, applyCsi_rendition call (rendition _) rfl state⟩
  direct foreground red green blue := by
    obtain ⟨index, nearest, applied⟩ := Sgr.apply_direct state.buffer.colorTable
      call.defaultAttributes state.regs.attributes foreground red green blue
    refine ⟨index, nearest, ?_⟩
    rw [← applied]
    exact applyCsi_rendition call (rendition _) rfl state
  indexed foreground number extended := by
    obtain ⟨index, nearest, applied⟩ := Sgr.apply_indexed state.buffer.colorTable
      call.defaultAttributes state.regs.attributes foreground extended
    refine ⟨index, nearest, ?_⟩
    rw [← applied]
    exact applyCsi_rendition call (rendition _) rfl state

theorem renditionLaws_twoCells :
    RenditionLaws (twoCells.outputCall ⟨7⟩ false) (twoCells.outputState ⟨7⟩ none) :=
  renditionLaws (by decide) rfl

end Conhost
