import Mathlib.Algebra.Order.Ring.Int
import Mathlib.Data.List.GetD
import Mathlib.Tactic.Common

/-!
# Grids

Cells that are stored row by row, lists that are changed by a run of writes, and lines
whose entries are shifted inside an interval.
-/

namespace Conhost

universe u v

namespace Grid

/-- Two cells stored at one place are in the same row and column. -/
theorem place_injective {width row column otherRow otherColumn : Nat} (inside : column < width)
    (otherInside : otherColumn < width)
    (same : row * width + column = otherRow * width + otherColumn) :
    row = otherRow ∧ column = otherColumn := by
  have positive : 0 < width := by omega
  have rowOf (row : Nat) {column : Nat} (inside : column < width) :
      (row * width + column) / width = row := by
    rw [Nat.mul_comm, Nat.mul_add_div positive, Nat.div_eq_of_lt inside, Nat.add_zero]
  have rows : row = otherRow := by
    rw [← rowOf row inside, same, rowOf otherRow otherInside]
  subst rows
  exact ⟨rfl, Nat.add_left_cancel same⟩

theorem place_lt {width height row column : Nat} (inside : column < width)
    (rowInside : row < height) : row * width + column < width * height := by
  calc row * width + column < row * width + width := Nat.add_lt_add_left inside _
    _ = (row + 1) * width := (Nat.succ_mul row width).symm
    _ ≤ height * width := Nat.mul_le_mul_right width rowInside
    _ = width * height := Nat.mul_comm height width

/-- The rows from `bound` on are stored from the start of that row on. -/
theorem row_le_place {width bound row column : Nat} (inside : column < width) :
    bound * width ≤ row * width + column ↔ bound ≤ row := by
  constructor
  · intro stored
    by_contra above
    have before : (row + 1) * width ≤ bound * width := Nat.mul_le_mul_right width (by omega)
    rw [Nat.succ_mul] at before
    omega
  · intro below
    exact (Nat.mul_le_mul_right width below).trans (Nat.le_add_right _ _)

variable {α : Type u} {β : Type v}

section Writes

variable (items : List β) {chosen : β → Prop} [DecidablePred chosen] (index : β → Nat)
  (value : β → α) {place : Nat} {cells : List α}

/-- A place holds the value on which all writes to it agree. -/
theorem getElem?_writes {cell : α} (inside : place < cells.length)
    (same : ∀ item ∈ items, chosen item → index item = place → value item = cell)
    (covered : cells[place]? = some cell ∨ ∃ item ∈ items, chosen item ∧ index item = place) :
    (items.foldl (fun cells item =>
      if chosen item then cells.set (index item) (value item) else cells) cells)[place]? =
        some cell := by
  induction items generalizing cells with
  | nil =>
      rcases covered with done | ⟨item, member, -⟩
      · exact done
      · cases member
  | cons first later hypothesis =>
      have sameLater := fun item member => same item (List.mem_cons_of_mem first member)
      rw [List.foldl_cons]
      by_cases picked : chosen first
      · rw [if_pos picked]
        apply hypothesis (by rwa [List.length_set]) sameLater
        by_cases here : index first = place
        · left
          rw [here, List.getElem?_set_self inside, same first List.mem_cons_self picked here]
        · rcases covered with done | ⟨item, member, covers⟩
          · left
            rw [List.getElem?_set_ne here, done]
          · rcases List.mem_cons.mp member with rfl | member
            · exact absurd covers.2 here
            · exact .inr ⟨item, member, covers⟩
      · rw [if_neg picked]
        apply hypothesis inside sameLater
        rcases covered with done | ⟨item, member, covers⟩
        · exact .inl done
        · rcases List.mem_cons.mp member with rfl | member
          · exact absurd covers.1 picked
          · exact .inr ⟨item, member, covers⟩

/-- A place that no write goes to keeps its value. -/
theorem getElem?_writes_of_forall_ne
    (others : ∀ item ∈ items, chosen item → index item ≠ place) :
    (items.foldl (fun cells item =>
      if chosen item then cells.set (index item) (value item) else cells) cells)[place]? =
        cells[place]? := by
  induction items generalizing cells with
  | nil => rfl
  | cons first later hypothesis =>
      have othersLater := fun item member => others item (List.mem_cons_of_mem first member)
      rw [List.foldl_cons]
      by_cases picked : chosen first
      · rw [if_pos picked, hypothesis othersLater,
          List.getElem?_set_ne (others first List.mem_cons_self picked)]
      · rw [if_neg picked, hypothesis othersLater]

end Writes

/-- A run of changes reaches the places from `index` on, each one in its turn. -/
theorem getElem?_foldl_modify (change : Nat → α → α) (index count : Nat) (items : List α)
    (position : Nat) :
    ((List.range count).foldl (fun items step => items.modify (index + step) (change step))
        items)[position]? =
      if index ≤ position ∧ position < index + count then
        change (position - index) <$> items[position]?
      else items[position]? := by
  induction count with
  | zero =>
      rw [if_neg (by omega)]
      rfl
  | succ count ih =>
      rw [List.range_succ, List.foldl_append, List.foldl_cons, List.foldl_nil,
        List.getElem?_modify, ih]
      by_cases last : index + count = position
      · have step : position - index = count := by omega
        rw [if_neg (by omega), if_pos (by omega), step]
        simp only [last, if_true]
      · simp only [if_neg last]
        by_cases inside : index ≤ position ∧ position < index + count
        · rw [if_pos inside, if_pos (by omega)]
          simp
        · rw [if_neg inside, if_neg (by omega)]
          simp

/-- An entry is inserted at `start` and the one before `stop` falls out. -/
theorem getElem?_insert {cells : List α} {value : α} {start stop : Nat}
    (ordered : start < stop) (inside : stop ≤ cells.length) (place : Nat) :
    (cells.take start ++ value :: (cells.take (stop - 1)).drop start ++ cells.drop stop)[place]? =
      if place = start then some value
      else if start < place ∧ place < stop then cells[place - 1]?
      else cells[place]? := by
  have front : (cells.take start).length = start := by
    rw [List.length_take]
    omega
  have middle : ((cells.take (stop - 1)).drop start).length = stop - 1 - start := by
    rw [List.length_drop, List.length_take]
    omega
  rw [List.append_assoc, List.getElem?_append, front]
  by_cases before : place < start
  · rw [if_pos before, if_neg (by omega), if_neg (by omega), List.getElem?_take_of_lt before]
  · rw [if_neg before, List.cons_append]
    by_cases here : place = start
    · rw [if_pos here, here, Nat.sub_self, List.getElem?_cons_zero]
    · have next : place - start = place - start - 1 + 1 := by omega
      rw [if_neg here, next, List.getElem?_cons_succ, List.getElem?_append, middle]
      by_cases within : place < stop
      · rw [if_pos (by omega), if_pos (by omega), List.getElem?_drop,
          List.getElem?_take_of_lt (by omega)]
        congr 1
        omega
      · rw [if_neg (by omega), if_neg (by omega), List.getElem?_drop]
        congr 1
        omega
/-- Every entry of the interval from `low` to `high` is replaced by the one `offset` places
further on, or by `blank` where that is not in the interval. -/
def shift (low high offset : Int) (blank : α) (line : Int → α) (place : Int) : α :=
  if low ≤ place ∧ place ≤ high then
    if low ≤ place + offset ∧ place + offset ≤ high then line (place + offset) else blank
  else
    line place

section Shift

variable {low high offset place : Int} {blank : α} {line : Int → α}

theorem shift_outside (outside : ¬ (low ≤ place ∧ place ≤ high)) :
    shift low high offset blank line place = line place :=
  if_neg outside

theorem shift_moved (inside : low ≤ place ∧ place ≤ high)
    (source : low ≤ place + offset ∧ place + offset ≤ high) :
    shift low high offset blank line place = line (place + offset) := by
  rw [shift, if_pos inside, if_pos source]

theorem shift_blank (inside : low ≤ place ∧ place ≤ high)
    (source : ¬ (low ≤ place + offset ∧ place + offset ≤ high)) :
    shift low high offset blank line place = blank := by
  rw [shift, if_pos inside, if_neg source]

/-- A shift looks at the interval and at the place it is about. -/
theorem shift_congr {other : Int → α}
    (same : ∀ source, low ≤ source ∧ source ≤ high ∨ source = place → line source = other source) :
    shift low high offset blank line place = shift low high offset blank other place := by
  unfold shift
  split
  · split
    · rename_i source
      exact same _ (.inl source)
    · rfl
  · exact same place (.inr rfl)

/-- A shift by one to the right needs its blank only at the first place. -/
theorem shift_blank_congr {other : α} (later : place ≠ low) :
    shift low high (-1) blank line place = shift low high (-1) other line place := by
  by_cases inside : low ≤ place ∧ place ≤ high
  · rw [shift_moved inside (by omega), shift_moved inside (by omega)]
  · rw [shift_outside inside, shift_outside inside]

/-- Two shifts to the same side add up. -/
theorem shift_shift {first second : Int}
    (sameSide : 0 ≤ first ∧ 0 ≤ second ∨ first ≤ 0 ∧ second ≤ 0) :
    shift low high second blank (shift low high first blank line) =
      shift low high (first + second) blank line := by
  funext place
  by_cases inside : low ≤ place ∧ place ≤ high
  · by_cases source : low ≤ place + second ∧ place + second ≤ high
    · rw [shift_moved inside source, shift, if_pos source, add_assoc, add_comm second, shift,
        if_pos inside]
    · rw [shift_blank inside source, shift_blank inside (by omega)]
  · rw [shift_outside inside, shift_outside inside, shift_outside inside]

/-- A shift back brings back what the first one kept. -/
theorem shift_back (first : 0 ≤ offset) (inside : low ≤ place ∧ place ≤ high)
    (kept : place + offset ≤ high) :
    shift low high offset blank (shift low high (-offset) blank line) place = line place := by
  rw [shift_moved inside ⟨by omega, kept⟩, shift_moved ⟨by omega, kept⟩ (by omega),
    add_neg_cancel_right]

end Shift

/-- A slide moves the entries that stay in the interval and blanks their old places, as a copy of a
part of the interval does. An entry that neither goes nor is overwritten stays, so that a slide by
more than half of the interval is no shift. -/
def slide (low high offset : Int) (blank : α) (line : Int → α) (place : Int) : α :=
  if low ≤ place ∧ place ≤ high then
    if low ≤ place + offset ∧ place + offset ≤ high then line (place + offset)
    else if high - low < offset ∨ high - low < -offset ∨
        low ≤ place - offset ∧ place - offset ≤ high then blank
    else line place
  else
    line place

/-- The entries that a slide by `count` moves do not overlap with those that it leaves. -/
def Clears (length count : Nat) : Prop := 2 * count ≤ length ∨ length ≤ count

/-- Two slides to the same side add up. -/
def SlidesAdd (length first second : Nat) : Prop :=
  length ≤ first ∨ length ≤ second ∨
    Clears length first ∧ Clears length second ∧ Clears length (first + second)

instance (length first second : Nat) : Decidable (SlidesAdd length first second) :=
  inferInstanceAs (Decidable (_ ∨ _ ∨ (_ ∨ _) ∧ (_ ∨ _) ∧ (_ ∨ _)))

section Slide

variable {low high offset place : Int} {blank : α} {line : Int → α} {first second : Nat}

theorem slide_outside (outside : ¬ (low ≤ place ∧ place ≤ high)) :
    slide low high offset blank line place = line place :=
  if_neg outside

theorem slide_moved (inside : low ≤ place ∧ place ≤ high)
    (source : low ≤ place + offset ∧ place + offset ≤ high) :
    slide low high offset blank line place = line (place + offset) := by
  rw [slide, if_pos inside, if_pos source]

theorem slide_left (inside : low ≤ place ∧ place ≤ high)
    (source : ¬ (low ≤ place + offset ∧ place + offset ≤ high))
    (left : high - low < offset ∨ high - low < -offset ∨
      low ≤ place - offset ∧ place - offset ≤ high) :
    slide low high offset blank line place = blank := by
  rw [slide, if_pos inside, if_neg source, if_pos left]

theorem slide_stays (inside : low ≤ place ∧ place ≤ high)
    (source : ¬ (low ≤ place + offset ∧ place + offset ≤ high))
    (stays : ¬ (high - low < offset ∨ high - low < -offset ∨
      low ≤ place - offset ∧ place - offset ≤ high)) :
    slide low high offset blank line place = line place := by
  rw [slide, if_pos inside, if_neg source, if_neg stays]

theorem slide_eq_shift (clears : Clears (high - low + 1).toNat offset.natAbs) :
    slide low high offset blank line = shift low high offset blank line := by
  funext place
  by_cases inside : low ≤ place ∧ place ≤ high
  · by_cases source : low ≤ place + offset ∧ place + offset ≤ high
    · rw [slide_moved inside source, shift_moved inside source]
    · rw [shift_blank inside source]
      apply slide_left inside source
      simp only [Clears] at clears
      omega
  · rw [slide_outside inside, shift_outside inside]

/-- A slide by the whole interval leaves nothing of it. -/
theorem slide_far (far : high - low + 1 ≤ offset.natAbs) (inside : low ≤ place ∧ place ≤ high) :
    slide low high offset blank line place = blank :=
  slide_left inside (by omega) (by omega)

/-- A slide looks at the interval and at the place it is about. -/
theorem slide_congr {other : Int → α}
    (same : ∀ source, low ≤ source ∧ source ≤ high ∨ source = place → line source = other source) :
    slide low high offset blank line place = slide low high offset blank other place := by
  unfold slide
  split
  · split
    · rename_i source
      exact same _ (.inl source)
    · rw [same place (.inr rfl)]
  · exact same place (.inr rfl)

/-- A slide to one side is a slide of the reversed line to the other side. -/
theorem slide_neg :
    (fun place => slide low high (-offset) blank line (-place)) =
      slide (-high) (-low) offset blank (fun place => line (-place)) := by
  funext place
  have sides : (low ≤ -place ∧ -place ≤ high) ↔ (-high ≤ place ∧ place ≤ -low) := by omega
  have sources : (low ≤ -place + -offset ∧ -place + -offset ≤ high) ↔
      (-high ≤ place + offset ∧ place + offset ≤ -low) := by omega
  have lefts : (high - low < -offset ∨ high - low < offset ∨
        low ≤ -place - -offset ∧ -place - -offset ≤ high) ↔
      (-low - -high < offset ∨ -low - -high < -offset ∨
        -high ≤ place - offset ∧ place - offset ≤ -low) := by omega
  simp only [slide, sides, sources, lefts, neg_add, neg_neg]

/-- Slides add up if both and their sum clear what they leave. -/
theorem slide_slide {length : Nat} (whole : high - low + 1 = length)
    (adds : SlidesAdd length first second) :
    slide low high second blank (slide low high first blank line) =
      slide low high (first + second : Nat) blank line := by
  have clear {count : Nat} (clears : Clears length count) :
      Clears (high - low + 1).toNat (count : Int).natAbs := by
    rwa [whole, Int.toNat_natCast, Int.natAbs_natCast]
  rcases adds with all | all | ⟨clearsFirst, clearsSecond, clearsBoth⟩
  · funext place
    by_cases inside : low ≤ place ∧ place ≤ high
    · rw [@slide_far _ _ _ ((first + second : Nat) : Int) _ _ _ (by omega) inside, slide,
        if_pos inside]
      split
      · rename_i source
        exact slide_far (by omega) source
      · rw [slide_far (by omega) inside, ite_self]
    · rw [slide_outside inside, slide_outside inside, slide_outside inside]
  · funext place
    by_cases inside : low ≤ place ∧ place ≤ high
    · rw [slide_far (by omega) inside, slide_far (by omega) inside]
    · rw [slide_outside inside, slide_outside inside, slide_outside inside]
  · rw [slide_eq_shift (clear clearsFirst), slide_eq_shift (clear clearsSecond),
      slide_eq_shift (clear clearsBoth), shift_shift (.inl ⟨by omega, by omega⟩), Nat.cast_add]

/-- Where slides do not add up, an interval of entries that are all different shows it. -/
theorem exists_slide_ne {length : Nat} (whole : high - low + 1 = length)
    (positive : 0 < first ∧ 0 < second) (fails : ¬ SlidesAdd length first second)
    (distinct : ∀ place other, low ≤ place → place ≤ high → low ≤ other → other ≤ high →
      line place = line other → place = other)
    (marked : ∀ place, low ≤ place → place ≤ high → line place ≠ blank) :
    ∃ place, low ≤ place ∧ place ≤ high ∧
      slide low high second blank (slide low high first blank line) place ≠
        slide low high (first + second : Nat) blank line place := by
  simp only [SlidesAdd, Clears, not_or, not_and_or, not_le] at fails
  rcases fails with ⟨shortFirst, shortSecond, overlaps⟩
  by_cases far : length ≤ first + second
  · -- The sum leaves nothing, but one of the two slides leaves an entry where it is.
    have bare (place : Int) (inside : low ≤ place ∧ place ≤ high) :
        slide low high (first + second : Nat) blank line place = blank :=
      slide_far (by omega) inside
    by_cases wide : length < 2 * second
    · refine ⟨high + 1 - second, by omega, by omega, ?_⟩
      rw [bare _ (by omega), slide_stays (by omega) (by omega) (by omega)]
      by_cases comes : first < second
      · rw [slide_moved (by omega) (by omega)]
        exact marked _ (by omega) (by omega)
      · rw [slide_stays (by omega) (by omega) (by omega)]
        exact marked _ (by omega) (by omega)
    · refine ⟨low + first - 1 - second, by omega, by omega, ?_⟩
      rw [bare _ (by omega), slide_moved (by omega) (by omega),
        slide_stays (by omega) (by omega) (by omega)]
      exact marked _ (by omega) (by omega)
  · -- The sum leaves an entry that the first slide has moved away.
    refine ⟨high + 1 - (first + second : Nat), by omega, by omega, ?_⟩
    rw [@slide_stays _ _ _ ((first + second : Nat) : Int) _ _ _ (by omega) (by omega) (by omega),
      slide_moved (by omega) (by omega)]
    by_cases left : 2 * first ≤ length
    · rw [slide_left (by omega) (by omega) (by omega)]
      exact (marked _ (by omega) (by omega)).symm
    · rw [slide_stays (by omega) (by omega) (by omega)]
      intro same
      have := distinct _ _ (by omega) (by omega) (by omega) (by omega) same
      omega

/-- The offset of a slide by `count` to one of the sides. -/
def toward (forward : Bool) (count : Nat) : Int := if forward then count else -count

/-- Slides to the same side add up if both and their sum clear what they leave. -/
theorem slide_toward {length : Nat} (forward : Bool) (whole : high - low + 1 = length)
    (adds : SlidesAdd length first second) :
    slide low high (toward forward second) blank
        (slide low high (toward forward first) blank line) =
      slide low high (toward forward (first + second)) blank line := by
  cases forward with
  | true => exact slide_slide whole adds
  | false =>
      have reversed := @slide_slide _ (-high) (-low) blank (fun place => line (-place)) _ _ _
        (by omega) adds
      rw [← slide_neg, ← slide_neg, ← slide_neg] at reversed
      funext place
      have here := congrFun reversed (-place)
      rwa [neg_neg] at here

/-- Where slides do not add up, an interval of entries that are all different shows it. -/
theorem exists_slide_toward_ne {length : Nat} (forward : Bool) (whole : high - low + 1 = length)
    (positive : 0 < first ∧ 0 < second) (fails : ¬ SlidesAdd length first second)
    (distinct : ∀ place other, low ≤ place → place ≤ high → low ≤ other → other ≤ high →
      line place = line other → place = other)
    (marked : ∀ place, low ≤ place → place ≤ high → line place ≠ blank) :
    ∃ place, low ≤ place ∧ place ≤ high ∧
      slide low high (toward forward second) blank
          (slide low high (toward forward first) blank line) place ≠
        slide low high (toward forward (first + second)) blank line place := by
  cases forward with
  | true => exact exists_slide_ne whole positive fails distinct marked
  | false =>
      have reversed := @exists_slide_ne _ (-high) (-low) blank (fun place => line (-place)) _ _ _
        (by omega) positive fails
        (fun place other above below otherAbove otherBelow same =>
          neg_injective (distinct _ _ (by omega) (by omega) (by omega) (by omega) same))
        (fun place above below => marked _ (by omega) (by omega))
      rcases reversed with ⟨place, above, below, differ⟩
      refine ⟨-place, by omega, by omega, ?_⟩
      rw [← slide_neg, ← slide_neg, ← slide_neg] at differ
      exact differ

end Slide

end Grid

end Conhost
