import Conhost.Input.ByteRead
import Conhost.Lib.BinarySearch
import Mathlib.Data.Nat.Find

/-!
# Delivery of a completed line

A completed line waits in `cooked_read_pending` and is handed out by
`deliver_pending`, as much at a time as the client's buffer holds. An ANSI
client gets the encoding of a prefix of the line; how long a prefix fits is
found by a binary search that asks `WideCharToMultiByte` for the length of the
encoding.
-/

namespace Conhost

/-- `std::numeric_limits<int>::max()` -/
def intMax : Nat := 2147483647

/-- The bytes of UTF-16 units in memory. -/
def unitBytes (units : List WChar) : List Byte :=
  units.flatMap fun unit : WChar => [unit.toUInt8, (unit >>> 8).toUInt8]

/-- The position lies between the halves of a surrogate pair. -/
def SplitsPair (units : List WChar) (position : Nat) : Prop :=
  0 < position ∧ position < units.length ∧
    isHighSurrogate (units.getD (position - 1) 0) = true ∧
      isLowSurrogate (units.getD position 0) = true

instance (units : List WChar) (position : Nat) : Decidable (SplitsPair units position) :=
  inferInstanceAs (Decidable (_ ∧ _ ∧ _ ∧ _))

theorem drop_take_one {units : List WChar} {start : Nat} (inside : start < units.length) :
    (units.take (start + 1)).drop start = [units.getD start 0] := by
  rw [List.drop_take, List.drop_eq_getElem_cons inside, Nat.add_sub_cancel_left]
  simp only [List.take_succ_cons, List.take_zero, List.getD_eq_getElem?_getD,
    List.getElem?_eq_getElem inside, Option.getD_some]

theorem drop_take_two {units : List WChar} {start : Nat} (inside : start + 1 < units.length) :
    (units.take (start + 2)).drop start = [units.getD start 0, units.getD (start + 1) 0] := by
  rw [List.drop_take, List.drop_eq_getElem_cons (by omega), List.drop_eq_getElem_cons inside,
    Nat.add_sub_cancel_left]
  simp only [List.take_succ_cons, List.take_zero, List.getD_eq_getElem?_getD,
    List.getElem?_eq_getElem inside, List.getElem?_eq_getElem (by omega : start < units.length),
    Option.getD_some]

namespace Delivery

variable (platform : Platform) (codePage : CodePage)

/-- `WideCharToMultiByte` of the first `count` units. -/
def encodePrefix (pending : List WChar) (count : Nat) : List Byte :=
  platform.wideCharToMultiByte codePage (pending.take count)

/-- The probe of the search: the encoding of the prefix exists and fits. -/
def fits (pending : List WChar) (capacity count : Nat) : Bool :=
  let required := (encodePrefix platform codePage pending count).length
  0 < required && required ≤ capacity

/-- The surrogate correction after the search. -/
def correctSurrogate (pending : List WChar) (best : Nat) : Nat :=
  if best ≠ 0 ∧ best < pending.length then
    if isHighSurrogate (pending.getD (best - 1) 0) ∧ isLowSurrogate (pending.getD best 0) then
      best - 1
    else if isHighSurrogate (pending.getD (best - 1) 0) then best - 1
    else best
  else best

/-- The number of units the first code point has. -/
def minimalUnits (pending : List WChar) : Nat :=
  if 2 ≤ pending.length ∧ isHighSurrogate (pending.getD 0 0) ∧ isLowSurrogate (pending.getD 1 0)
  then 2 else 1

/-- The ANSI part of `deliver_pending`: the units left and the reply. -/
def deliverAnsi (capacity : Nat) (pending : List WChar) : List WChar × ReadReply Byte :=
  let best := correctSurrogate pending
    (BinarySearch.run (fits platform codePage pending capacity) (min pending.length intMax))
  if best = 0 then
    (pending, .complete
      (if encodePrefix platform codePage pending (minimalUnits pending) = [] then .invalidParameter
        else .bufferTooSmall) [])
  else
    let written := encodePrefix platform codePage pending best
    if written = [] ∨ min capacity intMax < written.length then
      (pending, .complete .invalidParameter [])
    else (pending.drop best, .complete .success written)

/-- `deliver_pending` -/
def deliverPending (unicode : Bool) (capacity : Nat) (pending : List WChar) :
    List WChar × ReadReply Byte :=
  if pending = [] then (pending, .complete .success [])
  else if unicode then
    (pending.drop (capacity / 2), .complete .success (unitBytes (pending.take (capacity / 2))))
  else if capacity = 0 then (pending, .complete .success [])
  else deliverAnsi platform codePage capacity pending

/-- A delivery answers the request. -/
theorem deliverPending_complete (unicode : Bool) (capacity : Nat) (pending : List WChar) :
    (deliverPending platform codePage unicode capacity pending).2 ≠ .pending := by
  simp only [deliverPending]
  split
  · simp
  · split
    · simp
    · split
      · simp
      · simp only [deliverAnsi]
        split
        · simp
        · split <;> simp

/-- The longest prefix that fits the buffer and splits no surrogate pair. -/
def longestPrefix (pending : List WChar) (capacity : Nat) : Nat :=
  Nat.findGreatest (fun count => ¬SplitsPair pending count ∧
    (encodePrefix platform codePage pending count).length ≤ capacity) pending.length

/-- The reply a call should give. -/
def specified (capacity : Nat) (pending : List WChar) : List WChar × ReadReply Byte :=
  let count := longestPrefix platform codePage pending capacity
  if count = 0 then (pending, .complete .bufferTooSmall [])
  else (pending.drop count, .complete .success (encodePrefix platform codePage pending count))

/-- The code points of a sequence of units; an unpaired surrogate stands for itself. -/
def codePoints : List WChar → List (List WChar)
  | [] => []
  | [unit] => [[unit]]
  | first :: second :: rest =>
      if isHighSurrogate first && isLowSurrogate second then [first, second] :: codePoints rest
      else [first] :: codePoints (second :: rest)

/-- What is assumed of `WideCharToMultiByte` in the input code page: it encodes a sequence as the
concatenation of the encodings of its code points (and so fails on zero units), no encoding of a
code point is empty, and half of a surrogate pair does not take more room than the pair. -/
structure EncodesCodePoints : Prop where
  concat : ∀ units, platform.wideCharToMultiByte codePage units =
    (codePoints units).flatMap (platform.wideCharToMultiByte codePage)
  nonempty : ∀ units, ∀ point ∈ codePoints units, platform.wideCharToMultiByte codePage point ≠ []
  half : ∀ high low, isHighSurrogate high = true → isLowSurrogate low = true →
    (platform.wideCharToMultiByte codePage [high]).length ≤
      (platform.wideCharToMultiByte codePage [high, low]).length

theorem codePoints_append (units later : List WChar)
    (whole : ∀ last ∈ units.getLast?, ∀ first ∈ later.head?,
      ¬(isHighSurrogate last = true ∧ isLowSurrogate first = true)) :
    codePoints (units ++ later) = codePoints units ++ codePoints later := by
  induction units using codePoints.induct with
  | case1 => rfl
  | case2 unit =>
      cases later with
      | nil => rfl
      | cons first rest =>
          have apart := whole unit rfl first rfl
          change codePoints (unit :: first :: rest) = [unit] :: codePoints (first :: rest)
          rw [codePoints, if_neg (by simpa using apart)]
  | case3 first second rest pair hypothesis =>
      have whole' : ∀ last ∈ rest.getLast?, ∀ first ∈ later.head?,
          ¬(isHighSurrogate last = true ∧ isLowSurrogate first = true) := by
        intro last member
        exact whole last (by cases rest with
          | nil => cases member
          | cons third rest => simpa using member)
      rw [List.cons_append, List.cons_append, codePoints, codePoints, if_pos pair, if_pos pair,
        hypothesis whole']
      rfl
  | case4 first second rest apart hypothesis =>
      have whole' : ∀ last ∈ (second :: rest).getLast?, ∀ first ∈ later.head?,
          ¬(isHighSurrogate last = true ∧ isLowSurrogate first = true) := by
        intro last member
        exact whole last (by simpa using member)
      rw [List.cons_append, List.cons_append, codePoints, codePoints, if_neg apart, if_neg apart,
        ← List.cons_append, hypothesis whole']
      rfl

theorem codePoints_ne_nil {units : List WChar} (nonempty : units ≠ []) : codePoints units ≠ [] := by
  match units with
  | [_] => simp [codePoints]
  | first :: second :: rest =>
      rw [codePoints]
      split <;> simp

variable {platform codePage}

namespace EncodesCodePoints

variable (encodes : EncodesCodePoints platform codePage)
include encodes

theorem append (units later : List WChar)
    (whole : ∀ last ∈ units.getLast?, ∀ first ∈ later.head?,
      ¬(isHighSurrogate last = true ∧ isLowSurrogate first = true)) :
    platform.wideCharToMultiByte codePage (units ++ later) =
      platform.wideCharToMultiByte codePage units ++
        platform.wideCharToMultiByte codePage later := by
  rw [encodes.concat, codePoints_append units later whole, List.flatMap_append, ← encodes.concat,
    ← encodes.concat]

theorem ne_nil {units : List WChar} (nonempty : units ≠ []) :
    platform.wideCharToMultiByte codePage units ≠ [] := by
  obtain ⟨point, rest, split⟩ := List.exists_cons_of_ne_nil (codePoints_ne_nil nonempty)
  have encoded := encodes.nonempty units point (by simp [split])
  rw [encodes.concat, split, List.flatMap_cons]
  simp [encoded]

/-- Cutting at a position that splits no pair cuts the encoding. -/
theorem encodePrefix_cut {pending : List WChar} {cut count : Nat} (ordered : cut ≤ count)
    (boundary : ¬SplitsPair pending cut) :
    encodePrefix platform codePage pending count = encodePrefix platform codePage pending cut ++
      platform.wideCharToMultiByte codePage ((pending.take count).drop cut) := by
  have parts : pending.take count = pending.take cut ++ (pending.take count).drop cut := by
    conv_lhs => rw [← List.take_append_drop cut (pending.take count), List.take_take,
      Nat.min_eq_left ordered]
  rw [encodePrefix, encodePrefix]
  conv_lhs => rw [parts]
  apply encodes.append
  intro last lastMem first firstMem pair
  apply boundary
  rw [Option.mem_def] at lastMem firstMem
  rw [List.head?_drop, List.getElem?_take] at firstMem
  split at firstMem
  · have inside : cut < pending.length := (List.getElem?_eq_some_iff.mp firstMem).1
    have positive : 0 < cut := by
      rcases Nat.eq_zero_or_pos cut with rfl | positive
      · simp at lastMem
      · exact positive
    rw [List.getLast?_eq_getElem?, List.getElem?_take, List.length_take,
      Nat.min_eq_left inside.le, if_pos (by omega)] at lastMem
    refine ⟨positive, inside, ?_, ?_⟩
    · rw [List.getD_eq_getElem?_getD, lastMem]
      exact pair.1
    · rw [List.getD_eq_getElem?_getD, firstMem]
      exact pair.2
  · cases firstMem

theorem encodePrefix_zero (pending : List WChar) :
    encodePrefix platform codePage pending 0 = [] := by
  rw [encodePrefix, List.take_zero, encodes.concat]
  rfl

theorem encodePrefix_ne_nil {pending : List WChar} {count : Nat} (nonempty : pending ≠ [])
    (positive : 0 < count) : encodePrefix platform codePage pending count ≠ [] := by
  apply encodes.ne_nil
  intro empty
  rcases List.take_eq_nil_iff.mp empty with zero | empty'
  · omega
  · exact nonempty empty'

theorem length_encodePrefix_succ {pending : List WChar} {count : Nat}
    (inside : count < pending.length) :
    (encodePrefix platform codePage pending count).length ≤
      (encodePrefix platform codePage pending (count + 1)).length := by
  by_cases split : SplitsPair pending count
  · obtain ⟨start, rfl⟩ : ∃ start, count = start + 1 := ⟨count - 1, by have := split.1; omega⟩
    obtain ⟨-, -, high, low⟩ := split
    rw [Nat.add_sub_cancel] at high
    have boundary : ¬SplitsPair pending start := by
      rintro ⟨-, -, -, low'⟩
      exact not_low_of_high high low'
    rw [encodes.encodePrefix_cut start.le_succ boundary,
      encodes.encodePrefix_cut (start.le_add_right 2) boundary, List.length_append,
      List.length_append, drop_take_one (by omega), drop_take_two inside]
    exact Nat.add_le_add_left (encodes.half _ _ high low) _
  · rw [encodes.encodePrefix_cut count.le_succ split, List.length_append]
    exact Nat.le_add_right _ _

theorem length_encodePrefix_mono {pending : List WChar} {count later : Nat}
    (ordered : count ≤ later) (inside : later ≤ pending.length) :
    (encodePrefix platform codePage pending count).length ≤
      (encodePrefix platform codePage pending later).length := by
  induction later, ordered using Nat.le_induction with
  | base => exact le_rfl
  | succ later _ hypothesis =>
      exact (hypothesis (by omega)).trans (encodes.length_encodePrefix_succ (by omega))

end EncodesCodePoints

variable (platform codePage)

/-- The number of leading units whose encoding fits the buffer. -/
def fittingUnits (capacity : Nat) (pending : List WChar) : Nat :=
  Nat.findGreatest (fun count => (encodePrefix platform codePage pending count).length ≤ capacity)
    pending.length

/-- The states in which a call of `deliver_pending` does what it is for: it is not the case that
exactly one unit fits, that unit is a code point and the search misses it; and the longest prefix
that fits does not end in an unpaired high surrogate that is followed by another unit. -/
def Deliverable (capacity : Nat) (pending : List WChar) : Prop :=
  let count := fittingUnits platform codePage capacity pending
  (count = 1 → ¬SplitsPair pending 1 → ¬BinarySearch.MissesOne pending.length) ∧
    (0 < count → count < pending.length → isHighSurrogate (pending.getD (count - 1) 0) = true →
      isLowSurrogate (pending.getD count 0) = true)

variable {platform codePage}

theorem fittingUnits_le (platform : Platform) (codePage : CodePage) (capacity : Nat)
    (pending : List WChar) :
    fittingUnits platform codePage capacity pending ≤ pending.length :=
  Nat.findGreatest_le _

theorem minimalUnits_pos (pending : List WChar) : 0 < minimalUnits pending := by
  simp only [minimalUnits]
  split <;> simp

section Call

variable (encodes : EncodesCodePoints platform codePage) {capacity : Nat} {pending : List WChar}
include encodes

theorem le_fittingUnits_iff {count : Nat} (inside : count ≤ pending.length) :
    (encodePrefix platform codePage pending count).length ≤ capacity ↔
      count ≤ fittingUnits platform codePage capacity pending := by
  constructor
  · intro fitting
    exact Nat.le_findGreatest inside fitting
  · intro below
    have fitting : (encodePrefix platform codePage pending
        (fittingUnits platform codePage capacity pending)).length ≤ capacity := by
      refine Nat.findGreatest_spec (P := fun count =>
        (encodePrefix platform codePage pending count).length ≤ capacity) (Nat.zero_le _) ?_
      rw [encodes.encodePrefix_zero]
      exact Nat.zero_le _
    exact (encodes.length_encodePrefix_mono below (fittingUnits_le _ _ _ _)).trans fitting

theorem fits_succeedsTo (nonempty : pending ≠ []) :
    BinarySearch.SucceedsTo (fits platform codePage pending capacity) pending.length
      (fittingUnits platform codePage capacity pending) := by
  refine ⟨fittingUnits_le _ _ _ _, fun count inside => ?_⟩
  rw [← le_fittingUnits_iff encodes inside, fits, Bool.and_eq_true, decide_eq_true_eq,
    decide_eq_true_eq]
  refine and_congr_left fun _ => ?_
  rcases Nat.eq_zero_or_pos count with rfl | positive
  · simp [encodes.encodePrefix_zero]
  · have encoded := List.length_pos_of_ne_nil (encodes.encodePrefix_ne_nil nonempty positive)
    omega

/-- The longest prefix that may be delivered, in terms of the units that fit. -/
theorem longestPrefix_eq :
    longestPrefix platform codePage pending capacity =
      if SplitsPair pending (fittingUnits platform codePage capacity pending) then
        fittingUnits platform codePage capacity pending - 1
      else fittingUnits platform codePage capacity pending := by
  have bound := fittingUnits_le platform codePage capacity pending
  have below : ∀ count ≤ pending.length, (¬SplitsPair pending count ∧
      (encodePrefix platform codePage pending count).length ≤ capacity ↔
        ¬SplitsPair pending count ∧ count ≤ fittingUnits platform codePage capacity pending) :=
    fun count inside => and_congr_right fun _ => le_fittingUnits_iff encodes inside
  apply le_antisymm
  · have spec := Nat.findGreatest_spec (P := fun count => ¬SplitsPair pending count ∧
      (encodePrefix platform codePage pending count).length ≤ capacity) (Nat.zero_le pending.length)
      ((below 0 (Nat.zero_le _)).mpr ⟨fun split => absurd split.1 (by simp), Nat.zero_le _⟩)
    rw [below _ (Nat.findGreatest_le _)] at spec
    change ¬SplitsPair pending (longestPrefix platform codePage pending capacity) ∧
      longestPrefix platform codePage pending capacity ≤ _ at spec
    split
    · rename_i split
      have different : longestPrefix platform codePage pending capacity ≠
          fittingUnits platform codePage capacity pending := by
        intro same
        exact spec.1 (same ▸ split)
      omega
    · exact spec.2
  · split
    · rename_i split
      refine Nat.le_findGreatest (by omega) ((below _ (by omega)).mpr ⟨?_, by omega⟩)
      rintro ⟨-, -, -, low⟩
      exact not_low_of_high split.2.2.1 low
    · rename_i whole
      exact Nat.le_findGreatest bound ((below _ bound).mpr ⟨whole, le_rfl⟩)

/-- The prefix found by the search and the correction. -/
theorem correctSurrogate_run_eq (nonempty : pending ≠ []) (short : pending.length ≤ intMax)
    (sound : Deliverable platform codePage capacity pending) :
    correctSurrogate pending (BinarySearch.run (fits platform codePage pending capacity)
      (min pending.length intMax)) = longestPrefix platform codePage pending capacity := by
  classical
  have bound := fittingUnits_le platform codePage capacity pending
  rw [Nat.min_eq_left short, BinarySearch.run_eq _ (fits_succeedsTo encodes nonempty),
    longestPrefix_eq encodes]
  obtain ⟨found, paired⟩ := sound
  generalize fittingUnits platform codePage capacity pending = count at *
  by_cases missed : count = 1 ∧ BinarySearch.MissesOne pending.length
  · rw [if_pos missed]
    have split : SplitsPair pending count := by
      by_contra whole
      exact found missed.1 (missed.1 ▸ whole) missed.2
    rw [if_pos split, missed.1]
    rfl
  · rw [if_neg missed]
    simp only [correctSurrogate]
    by_cases inside : count ≠ 0 ∧ count < pending.length
    · rw [if_pos inside]
      by_cases high : isHighSurrogate (pending.getD (count - 1) 0) = true
      · have low := paired (Nat.pos_of_ne_zero inside.1) inside.2 high
        rw [if_pos ⟨high, low⟩,
          if_pos ⟨Nat.pos_of_ne_zero inside.1, inside.2, high, low⟩]
      · rw [if_neg fun both => high both.1, if_neg high, if_neg fun split => high split.2.2.1]
    · rw [if_neg inside, if_neg]
      intro split
      exact inside ⟨split.1.ne', split.2.1⟩

theorem longestPrefix_fits : (encodePrefix platform codePage pending
    (longestPrefix platform codePage pending capacity)).length ≤ capacity := by
  rw [longestPrefix_eq encodes, le_fittingUnits_iff encodes]
  · split <;> omega
  · have bound := fittingUnits_le platform codePage capacity pending
    split <;> omega

theorem length_encodePrefix_le (count : Nat) :
    (encodePrefix platform codePage pending count).length ≤
      (platform.wideCharToMultiByte codePage pending).length := by
  have whole : encodePrefix platform codePage pending pending.length =
      platform.wideCharToMultiByte codePage pending := by
    rw [encodePrefix, List.take_length]
  rw [← whole]
  rcases Nat.le_total count pending.length with inside | beyond
  · exact encodes.length_encodePrefix_mono inside le_rfl
  · rw [encodePrefix, List.take_of_length_le beyond, ← whole]

/-- In a deliverable state the call gives the specified reply. -/
theorem deliverAnsi_of_deliverable (nonempty : pending ≠ []) (short : pending.length ≤ intMax)
    (encoded : (platform.wideCharToMultiByte codePage pending).length ≤ intMax)
    (sound : Deliverable platform codePage capacity pending) :
    deliverAnsi platform codePage capacity pending =
      specified platform codePage capacity pending := by
  simp only [deliverAnsi, correctSurrogate_run_eq encodes nonempty short sound, specified]
  have fitting : (encodePrefix platform codePage pending
      (longestPrefix platform codePage pending capacity)).length ≤ capacity :=
    longestPrefix_fits encodes
  have small : (encodePrefix platform codePage pending
      (longestPrefix platform codePage pending capacity)).length ≤ intMax :=
    (length_encodePrefix_le encodes _).trans encoded
  split
  · rw [if_neg (encodes.encodePrefix_ne_nil nonempty (minimalUnits_pos pending))]
  · rename_i something
    rw [if_neg]
    rintro (empty | large)
    · exact encodes.encodePrefix_ne_nil nonempty (Nat.pos_of_ne_zero something) empty
    · omega

/-- A call that gives the specified reply consumes at least the longest prefix. -/
theorem longestPrefix_le_of_eq (same : deliverAnsi platform codePage capacity pending =
    specified platform codePage capacity pending) :
    longestPrefix platform codePage pending capacity ≤
      correctSurrogate pending (BinarySearch.run (fits platform codePage pending capacity)
        (min pending.length intMax)) := by
  have bound : longestPrefix platform codePage pending capacity ≤ pending.length := by
    have bound := fittingUnits_le platform codePage capacity pending
    rw [longestPrefix_eq encodes]
    split <;> omega
  have kept : (specified platform codePage capacity pending).1.length =
      pending.length - longestPrefix platform codePage pending capacity := by
    simp only [specified]
    split
    · rename_i zero
      rw [zero, Nat.sub_zero]
    · exact List.length_drop
  have consumed : ∀ best, best = correctSurrogate pending
      (BinarySearch.run (fits platform codePage pending capacity) (min pending.length intMax)) →
      pending.length - best ≤ (deliverAnsi platform codePage capacity pending).1.length := by
    intro best found
    simp only [deliverAnsi, ← found]
    split
    · exact Nat.sub_le _ _
    · split
      · exact Nat.sub_le _ _
      · rw [List.length_drop]
  have compared := consumed _ rfl
  rw [same, kept] at compared
  omega

theorem deliverable_of_eq (nonempty : pending ≠ []) (short : pending.length ≤ intMax)
    (same : deliverAnsi platform codePage capacity pending =
      specified platform codePage capacity pending) :
    Deliverable platform codePage capacity pending := by
  classical
  have reached := longestPrefix_le_of_eq encodes same
  rw [Nat.min_eq_left short, BinarySearch.run_eq _ (fits_succeedsTo encodes nonempty),
    longestPrefix_eq encodes] at reached
  simp only [Deliverable]
  generalize fittingUnits platform codePage capacity pending = count at *
  constructor
  · rintro rfl whole missed
    rw [if_neg whole, if_pos ⟨rfl, missed⟩] at reached
    simp [correctSurrogate] at reached
  · intro positive inside high
    by_contra alone
    rw [if_neg fun split => alone split.2.2.2] at reached
    split at reached
    · simp [correctSurrogate] at reached
      omega
    · rw [correctSurrogate, if_pos ⟨positive.ne', inside⟩, if_neg fun both => alone both.2,
        if_pos high] at reached
      omega

end Call

variable (platform codePage)

/-- A property of every call of a sequence of ANSI line reads that still finds units of the line. -/
def Throughout (Holds : Nat → List WChar → Prop) : List Nat → List WChar → Prop
  | [], _ => True
  | capacity :: later, pending =>
      pending = [] ∨ Holds capacity pending ∧
        Throughout Holds later (deliverPending platform codePage false capacity pending).1

/-- The bytes returned by a sequence of calls, and the units that remain. -/
def returned : List Nat → List WChar → List Byte × List WChar
  | [], pending => ([], pending)
  | capacity :: later, pending =>
      if pending = [] then ([], [])
      else
        let call := deliverPending platform codePage false capacity pending
        let rest := returned later call.1
        (call.2.data ++ rest.1, rest.2)

/-- A call returns the encoding of the longest prefix that fits and splits no pair, and refuses only
if the first code point does not fit. -/
def CallCorrect (capacity : Nat) (pending : List WChar) : Prop :=
  deliverPending platform codePage false capacity pending =
      specified platform codePage capacity pending ∧
    ((deliverPending platform codePage false capacity pending).2 = .complete .bufferTooSmall [] →
      capacity < (encodePrefix platform codePage pending (minimalUnits pending)).length)

/-- Every call of the sequence is correct and nothing is lost or duplicated. -/
def LineDelivered (capacities : List Nat) (line : List WChar) : Prop :=
  Throughout platform codePage (CallCorrect platform codePage) capacities line ∧
    (returned platform codePage capacities line).1 ++
        platform.wideCharToMultiByte codePage (returned platform codePage capacities line).2 =
      platform.wideCharToMultiByte codePage line

variable {platform codePage}

theorem minimalUnits_le_longestPrefix {capacity : Nat} {pending : List WChar}
    (nonempty : pending ≠ [])
    (fitting : (encodePrefix platform codePage pending (minimalUnits pending)).length ≤ capacity) :
    minimalUnits pending ≤ longestPrefix platform codePage pending capacity := by
  have size := List.length_pos_of_ne_nil nonempty
  have inside : minimalUnits pending ≤ pending.length := by
    simp only [minimalUnits]
    split <;> omega
  refine Nat.le_findGreatest inside ⟨?_, fitting⟩
  simp only [minimalUnits]
  split
  · rename_i pair
    rintro ⟨-, -, high, -⟩
    exact not_low_of_high high pair.2.2
  · rename_i single
    rintro ⟨-, long, high, low⟩
    exact single ⟨long, high, low⟩

theorem deliverPending_suffix (platform : Platform) (codePage : CodePage) (capacity : Nat)
    (pending : List WChar) :
    (deliverPending platform codePage false capacity pending).1 <:+ pending := by
  simp only [deliverPending, deliverAnsi]
  split
  · exact List.suffix_rfl
  · split
    · exact List.drop_suffix _ _
    · split
      · exact List.suffix_rfl
      · split
        · exact List.suffix_rfl
        · split
          · exact List.suffix_rfl
          · exact List.drop_suffix _ _

section Run

variable (encodes : EncodesCodePoints platform codePage) {capacity : Nat} {pending : List WChar}
include encodes

theorem longestPrefix_boundary :
    ¬SplitsPair pending (longestPrefix platform codePage pending capacity) := by
  rw [longestPrefix_eq encodes]
  split
  · rename_i split
    rintro ⟨-, -, -, low⟩
    exact not_low_of_high split.2.2.1 low
  · assumption

theorem callCorrect_iff (nonempty : pending ≠ []) (short : pending.length ≤ intMax)
    (encoded : (platform.wideCharToMultiByte codePage pending).length ≤ intMax)
    (room : 0 < capacity) :
    CallCorrect platform codePage capacity pending ↔
      Deliverable platform codePage capacity pending := by
  have ansi : deliverPending platform codePage false capacity pending =
      deliverAnsi platform codePage capacity pending := by
    simp [deliverPending, nonempty, room.ne']
  rw [CallCorrect, ansi]
  constructor
  · rintro ⟨same, -⟩
    exact deliverable_of_eq encodes nonempty short same
  · intro sound
    have same := deliverAnsi_of_deliverable encodes nonempty short encoded sound
    refine ⟨same, fun refused => ?_⟩
    by_contra fitting
    have taken := minimalUnits_le_longestPrefix nonempty (Nat.not_lt.mp fitting)
    have some : longestPrefix platform codePage pending capacity ≠ 0 := by
      have positive := minimalUnits_pos pending
      omega
    rw [same, specified, if_neg some] at refused
    cases refused

/-- A correct call cuts the encoding of the line. -/
theorem CallCorrect.cut (correct : CallCorrect platform codePage capacity pending) :
    (deliverPending platform codePage false capacity pending).2.data ++
        platform.wideCharToMultiByte codePage
          (deliverPending platform codePage false capacity pending).1 =
      platform.wideCharToMultiByte codePage pending := by
  rw [correct.1, specified]
  split
  · rfl
  · have cut := encodes.encodePrefix_cut
      (Nat.findGreatest_le pending.length : longestPrefix platform codePage pending capacity ≤ _)
      (longestPrefix_boundary encodes)
    rw [encodePrefix, List.take_length] at cut
    exact cut.symm

theorem throughout_congr (capacities : List Nat) (room : ∀ capacity ∈ capacities, 0 < capacity)
    (pending : List WChar) (short : pending.length ≤ intMax)
    (encoded : (platform.wideCharToMultiByte codePage pending).length ≤ intMax) :
    Throughout platform codePage (CallCorrect platform codePage) capacities pending ↔
      Throughout platform codePage (Deliverable platform codePage) capacities pending := by
  induction capacities generalizing pending with
  | nil => exact Iff.rfl
  | cons capacity later hypothesis =>
      simp only [Throughout]
      refine or_congr_right' fun nonempty => ?_
      have call := callCorrect_iff encodes nonempty short encoded (room capacity (by simp))
      rw [call]
      refine and_congr_right fun sound => ?_
      have suffix := deliverPending_suffix platform codePage capacity pending
      have cut := congrArg List.length ((call.mpr sound).cut encodes)
      rw [List.length_append] at cut
      exact hypothesis (fun capacity member => room capacity (by simp [member])) _
        (suffix.length_le.trans short) (by omega)

theorem Throughout.concat {capacities : List Nat} {pending : List WChar}
    (correct : Throughout platform codePage (CallCorrect platform codePage) capacities pending) :
    (returned platform codePage capacities pending).1 ++
        platform.wideCharToMultiByte codePage (returned platform codePage capacities pending).2 =
      platform.wideCharToMultiByte codePage pending := by
  induction capacities generalizing pending with
  | nil => rfl
  | cons capacity later hypothesis =>
      simp only [returned]
      split
      · rename_i empty
        rw [empty]
        rfl
      · rename_i nonempty
        obtain ⟨call, rest⟩ := correct.resolve_left nonempty
        rw [List.append_assoc, hypothesis rest, call.cut encodes]

end Run

/-- A sequence of ANSI line reads delivers a completed line as it should exactly if it meets the
line in deliverable states only. -/
theorem lineDelivered_iff_deliverable (encodes : EncodesCodePoints platform codePage)
    (capacities : List Nat) (room : ∀ capacity ∈ capacities, 0 < capacity) (line : List WChar)
    (short : line.length ≤ intMax)
    (encoded : (platform.wideCharToMultiByte codePage line).length ≤ intMax) :
    LineDelivered platform codePage capacities line ↔
      Throughout platform codePage (Deliverable platform codePage) capacities line := by
  rw [LineDelivered, throughout_congr encodes capacities room line short encoded]
  refine and_iff_left_of_imp fun sound => ?_
  have correct := (throughout_congr encodes capacities room line short encoded).mpr sound
  exact correct.concat encodes

theorem ne_nil_of_mem_codePoints {units point : List WChar} (member : point ∈ codePoints units) :
    point ≠ [] := by
  induction units using codePoints.induct with
  | case1 => cases member
  | case2 unit =>
      rw [codePoints, List.mem_singleton] at member
      simp [member]
  | case3 first second rest pair hypothesis =>
      rw [codePoints, if_pos pair, List.mem_cons] at member
      rcases member with rfl | member
      · simp
      · exact hypothesis member
  | case4 first second rest apart hypothesis =>
      rw [codePoints, if_neg apart, List.mem_cons] at member
      rcases member with rfl | member
      · simp
      · exact hypothesis member

theorem wideToUtf8_ne_nil {units : List WChar} (nonempty : units ≠ []) :
    Platform.wideToUtf8 units ≠ [] := by
  match units with
  | [unit] => exact String.utf8EncodeChar_ne_nil
  | first :: second :: rest =>
      rw [Platform.wideToUtf8]
      split <;> simp [Platform.pairToUtf8, Platform.unitToUtf8, String.utf8EncodeChar_ne_nil]

theorem length_pairToUtf8 {high low : WChar} (isHigh : isHighSurrogate high = true)
    (isLow : isLowSurrogate low = true) : 3 ≤ (Platform.pairToUtf8 high low).length := by
  simp only [isHighSurrogate, isLowSurrogate, Bool.and_eq_true, decide_eq_true_eq,
    UInt16.le_iff_toNat_le] at isHigh isLow
  have highest : high.toNat ≤ 0xdbff := isHigh.2
  have lowest : low.toNat ≤ 0xdfff := isLow.2
  have valid : Nat.isValidChar
      (0x10000 + (high.toNat - 0xd800) * 0x400 + (low.toNat - 0xdc00)) := .inr ⟨by omega, by omega⟩
  have value : (Char.ofNat
      (0x10000 + (high.toNat - 0xd800) * 0x400 + (low.toNat - 0xdc00))).val.toNat =
        0x10000 + (high.toNat - 0xd800) * 0x400 + (low.toNat - 0xdc00) := by
    rw [Char.ofNat, dif_pos valid]
    rfl
  simp only [Platform.pairToUtf8, String.utf8EncodeChar, value]
  rw [if_neg (by omega), if_neg (by omega), if_neg (by omega)]
  simp

/-- UTF-8 meets the assumption. -/
theorem utf8_encodesCodePoints : EncodesCodePoints .utf8 cpUtf8 where
  concat := by
    intro units
    change Platform.wideToUtf8 units = (codePoints units).flatMap Platform.wideToUtf8
    induction units using codePoints.induct with
    | case1 => rfl
    | case2 unit => simp [codePoints]
    | case3 first second rest pair hypothesis =>
        rw [codePoints, Platform.wideToUtf8, if_pos pair, if_pos pair, List.flatMap_cons,
          ← hypothesis, Platform.wideToUtf8, if_pos pair]
        simp [Platform.wideToUtf8]
    | case4 first second rest apart hypothesis =>
        rw [codePoints, Platform.wideToUtf8, if_neg apart, if_neg apart, List.flatMap_cons,
          ← hypothesis]
        rfl
  nonempty := by
    intro units point member
    exact wideToUtf8_ne_nil (ne_nil_of_mem_codePoints member)
  half := by
    intro high low isHigh isLow
    have pair : (isHighSurrogate high && isLowSurrogate low) = true := by simp [isHigh, isLow]
    change (Platform.wideToUtf8 [high]).length ≤ (Platform.wideToUtf8 [high, low]).length
    have three : (Platform.wideToUtf8 [high]).length = 3 := by
      simp only [Platform.wideToUtf8, Platform.unitToUtf8, isHigh, Bool.true_or, if_true]
      rfl
    rw [three, Platform.wideToUtf8, if_pos pair, List.length_append]
    have long := length_pairToUtf8 isHigh isLow
    omega

theorem lineDelivered_iff_deliverable_greeting :
    Throughout .utf8 cpUtf8 (Deliverable .utf8 cpUtf8) [2, 2] [wc 'h', wc 'i', 13, 10] ∧
      LineDelivered .utf8 cpUtf8 [2, 2] [wc 'h', wc 'i', 13, 10] := by
  have first : fittingUnits .utf8 cpUtf8 2 [wc 'h', wc 'i', 13, 10] = 2 := by decide
  have second : fittingUnits .utf8 cpUtf8 2 [13, 10] = 2 := by decide
  have middle : (deliverPending .utf8 cpUtf8 false 2 [wc 'h', wc 'i', 13, 10]).1 = [13, 10] := by
    decide
  have sound : Throughout .utf8 cpUtf8 (Deliverable .utf8 cpUtf8) [2, 2]
      [wc 'h', wc 'i', 13, 10] := by
    refine .inr ⟨⟨?_, ?_⟩, ?_⟩
    · intro single
      rw [first] at single
      cases single
    · rw [first]
      decide
    · rw [middle]
      refine .inr ⟨⟨?_, ?_⟩, trivial⟩
      · intro single
        rw [second] at single
        cases single
      · rw [second]
        decide
  exact ⟨sound, (lineDelivered_iff_deliverable utf8_encodesCodePoints [2, 2] (by decide) _
    (by decide) (by decide)).mpr sound⟩

/-- After a first call has left one unit of `a CR LF`, a call with room for it is refused. -/
theorem not_lineDelivered_last_unit : ¬LineDelivered .utf8 cpUtf8 [2, 1] [wc 'a', 13, 10] := by
  rintro ⟨calls, -⟩
  have middle : (deliverPending .utf8 cpUtf8 false 2 [wc 'a', 13, 10]).1 = [10] := by decide
  obtain ⟨-, last⟩ := calls.resolve_left (by decide)
  rw [middle] at last
  obtain ⟨⟨same, -⟩, -⟩ := last.resolve_left (by decide)
  revert same
  decide

end Delivery

end Conhost
