import Conhost.Input.CodePointEditor
import Conhost.Screen.PlainOutput

/-!
# The echo of a line

The echo of an edit is characters, blanks and backspaces. On a tape it always shows the
edited line with blanks where erased text was. On a screen buffer it does so as long as
its backspaces stay in one row, because plain output does not step back over the left edge.
-/

namespace Conhost

/-- A printable character of one unit. -/
structure IsGlyph (unit : WChar) : Prop where
  printable : 0x20 ≤ unit.toNat
  high : isHighSurrogate unit = false
  low : isLowSurrogate unit = false

theorem IsGlyph.ne_control {value control : WChar} (glyph : IsGlyph value)
    (below : control.toNat < 0x20) : value ≠ control := by
  rintro rfl
  exact absurd glyph.printable (by omega)

/-- The marks of echoed texts. -/
def echoMarks (echoes : List (List WChar)) : List (Mark WChar) := echoes.flatten.map plainMark

theorem IsGlyph.plainMark {unit : WChar} (glyph : IsGlyph unit) : plainMark unit = .put unit :=
  if_neg (glyph.ne_control (by decide))

@[simp]
theorem echoMarks_nil : echoMarks [] = [] := rfl

@[simp]
theorem echoMarks_append (first second : List (List WChar)) :
    echoMarks (first ++ second) = echoMarks first ++ echoMarks second := by
  rw [echoMarks, List.flatten_append, List.map_append]
  rfl

theorem echoMarks_cons (text : List WChar) (later : List (List WChar)) :
    echoMarks (text :: later) = text.map plainMark ++ echoMarks later := by
  rw [echoMarks, List.flatten_cons, List.map_append]
  rfl

theorem plainMarks_of_glyphs {text : List WChar} (glyphs : ∀ unit ∈ text, IsGlyph unit) :
    text.map plainMark = text.map .put :=
  List.map_congr_left fun unit member => (glyphs unit member).plainMark

namespace EditLine

theorem flatten_echoRepeat (unit : WChar) (count : Nat) :
    (echoRepeat unit count).flatten = List.replicate count unit := by
  rw [echoRepeat, List.flatten_append, List.flatten_replicate_replicate, List.flatten_singleton,
    List.replicate_append_replicate, Nat.mul_comm, Nat.div_add_mod]

@[simp]
theorem echoMarks_backspaces (count : Nat) :
    echoMarks (echoBackspaces count) = List.replicate count .back := by
  rw [echoMarks, echoBackspaces, flatten_echoRepeat, List.map_replicate]
  rfl

@[simp]
theorem echoMarks_spaces (count : Nat) :
    echoMarks (echoSpaces count) = (List.replicate count 0x20).map .put := by
  rw [echoMarks, echoSpaces, flatten_echoRepeat, List.map_replicate, List.map_replicate]
  rfl

/-- A line of printable characters with its cursor inside. -/
structure Glyphs (edit : EditLine) : Prop where
  glyphs : ∀ unit ∈ edit.line, IsGlyph unit
  inside : edit.cursor ≤ edit.line.length

variable {edit : EditLine}

theorem Glyphs.echoMarks_range (glyphs : edit.Glyphs) {start stop : Nat}
    (inLine : stop ≤ edit.line.length) :
    echoMarks (edit.echoRange start stop) = ((edit.line.take stop).drop start).map .put := by
  rw [echoRange]
  split
  · have vacant : (edit.line.take stop).drop start = [] := by
      apply List.drop_eq_nil_of_le
      rw [List.length_take]
      omega
    rw [vacant]
    rfl
  · rw [echoMarks, List.flatten_singleton]
    apply plainMarks_of_glyphs
    intro unit member
    exact glyphs.glyphs unit (List.mem_of_mem_take (List.mem_of_mem_drop member))

theorem Glyphs.unitAt_low (glyphs : edit.Glyphs) (index : Nat) :
    isLowSurrogate (edit.unitAt index) = false := by
  rw [unitAt, List.getD_eq_getElem?_getD]
  cases found : edit.line[index]? with
  | none => rfl
  | some unit => exact (glyphs.glyphs unit (List.mem_of_getElem? found)).low

theorem Glyphs.normalized (glyphs : edit.Glyphs) : edit.Normalized := by
  refine ⟨glyphs.inside, ?_⟩
  rintro ⟨-, -, low, -⟩
  rw [glyphs.unitAt_low] at low
  cases low

theorem Glyphs.prevIndex_eq (glyphs : edit.Glyphs) (index : Nat) :
    edit.prevIndex index = index - 1 := by
  simp only [prevIndex, glyphs.unitAt_low]
  simp

theorem Glyphs.nextIndex_eq (glyphs : edit.Glyphs) {index : Nat}
    (below : index < edit.line.length) :
    edit.nextIndex index = index + 1 := by
  simp only [nextIndex, glyphs.unitAt_low, if_neg (Nat.not_le.mpr below)]
  simp

theorem backWhile_le (edit : EditLine) (delimiter : Bool) (fuel position : Nat) :
    edit.backWhile delimiter fuel position ≤ position := by
  induction fuel generalizing position with
  | zero => exact le_rfl
  | succ fuel hypothesis =>
      rw [backWhile]
      split
      · exact Nat.zero_le _
      · split
        · have previous : edit.prevIndex position ≤ position := by
            simp only [prevIndex]
            split <;> omega
          exact (hypothesis _).trans previous
        · exact le_rfl

theorem wordPrev_le (edit : EditLine) (index : Nat) : edit.wordPrev index ≤ index :=
  (backWhile_le ..).trans (backWhile_le ..)

theorem wordPrev_iterate_le (edit : EditLine) (count index : Nat) :
    edit.wordPrev^[count] index ≤ index := by
  induction count generalizing index with
  | zero => exact le_rfl
  | succ count hypothesis =>
      rw [Function.iterate_succ_apply]
      exact (hypothesis _).trans (edit.wordPrev_le index)

theorem wordPrev_moveTo (edit : EditLine) (target index : Nat) :
    (edit.moveTo target).wordPrev index = edit.wordPrev index := by
  have same (delimiter : Bool) (fuel position : Nat) :
      (edit.moveTo target).backWhile delimiter fuel position =
        edit.backWhile delimiter fuel position := by
    induction fuel generalizing position with
    | zero => rfl
    | succ fuel hypothesis =>
        simp only [backWhile, hypothesis]
        rfl
  simp only [wordPrev, same]

theorem Glyphs.forwardWhile_bounds (glyphs : edit.Glyphs) (delimiter : Bool) (fuel : Nat)
    {position : Nat} (inLine : position ≤ edit.line.length) :
    position ≤ edit.forwardWhile delimiter fuel position ∧
      edit.forwardWhile delimiter fuel position ≤ edit.line.length := by
  induction fuel generalizing position with
  | zero => exact ⟨le_rfl, inLine⟩
  | succ fuel hypothesis =>
      rw [forwardWhile]
      split
      · exact ⟨le_rfl, inLine⟩
      · rename_i below
        split
        · rw [glyphs.nextIndex_eq (Nat.not_le.mp below)]
          have later := @hypothesis (position + 1) (by omega)
          omega
        · exact ⟨le_rfl, inLine⟩

theorem Glyphs.wordNext_bounds (glyphs : edit.Glyphs) {index : Nat}
    (inLine : index ≤ edit.line.length) :
    index ≤ edit.wordNext index ∧ edit.wordNext index ≤ edit.line.length := by
  have first := glyphs.forwardWhile_bounds false edit.line.length inLine
  have second := glyphs.forwardWhile_bounds true edit.line.length first.2
  exact ⟨first.1.trans second.1, second.2⟩

/-- The echo of an edit shows the edited line. The head has been as far as `far`. -/
structure Echoed (width start : Nat) (tape : Tape WChar) (next : EditLine)
    (echoes : List (List WChar)) (far : Nat) : Prop where
  printed : ∀ value, .put value ∈ echoMarks echoes → 0x20 ≤ value.toNat
  inRow : tape.BacksInRow width start (echoMarks echoes)
  shows : (tape.marks (echoMarks echoes)).Shows 0x20 start next.line next.cursor
  reach : (tape.marks (echoMarks echoes)).reach = max tape.reach (start + far)
  glyphs : next.Glyphs

variable {width start : Nat} {tape : Tape WChar} {next : EditLine} {echoes : List (List WChar)}

theorem Echoed.nothing (shows : tape.Shows 0x20 start edit.line edit.cursor)
    (glyphs : edit.Glyphs) :
    Echoed width start tape edit [] edit.line.length :=
  ⟨by simp, trivial, shows, (Nat.max_eq_left shows.covers).symm, glyphs⟩

theorem Echoed.append {more : List (List WChar)} {after : EditLine} {near far : Nat}
    (first : Echoed width start tape next echoes near)
    (second : Echoed width start (tape.marks (echoMarks echoes)) after more far) :
    Echoed width start tape after (echoes ++ more) (max near far) := by
  refine ⟨?_, ?_, ?_, ?_, second.glyphs⟩
  · intro value put
    rw [echoMarks_append, List.mem_append] at put
    exact put.elim (first.printed value) (second.printed value)
  · rw [echoMarks_append]
    exact Tape.backsInRow_append first.inRow second.inRow
  · rw [echoMarks_append, Tape.marks_append]
    exact second.shows
  · rw [echoMarks_append, Tape.marks_append, second.reach, first.reach]
    omega

theorem Glyphs.take_append (glyphs : edit.Glyphs) {kept cursor : Nat} {tail : List WChar}
    (typed : ∀ unit ∈ tail, IsGlyph unit)
    (inside : cursor ≤ (edit.line.take kept ++ tail).length) (insertMode : Bool) :
    (⟨edit.line.take kept ++ tail, cursor, insertMode⟩ : EditLine).Glyphs := by
  refine ⟨?_, inside⟩
  intro unit member
  rcases List.mem_append.mp member with old | new
  · exact glyphs.glyphs unit (List.mem_of_mem_take old)
  · exact typed unit new

/-- The line from `kept` on is echoed again, with blanks over what is left of the old one. -/
theorem Glyphs.echoed_replace (glyphs : edit.Glyphs)
    (shows : tape.Shows 0x20 start edit.line edit.cursor) {kept blanks back : Nat}
    {tail : List WChar} (typed : ∀ unit ∈ tail, IsGlyph unit) (before : kept ≤ edit.cursor)
    (covered : edit.line.length ≤ kept + tail.length + blanks)
    (covers : kept + tail.length + blanks ≤ max edit.line.length (kept + tail.length))
    (returns : back ≤ tail.length + blanks) (beyond : blanks ≤ back)
    (leaves : (start + kept) / width = (start + edit.cursor) / width)
    (returnsInRow : (start + (kept + tail.length + blanks - back)) / width =
      (start + (kept + tail.length + blanks)) / width)
    (marks : echoMarks echoes = List.replicate (edit.cursor - kept) .back ++ tail.map .put ++
      (List.replicate blanks 0x20).map .put ++ List.replicate back .back)
    (line : next.line = edit.line.take kept ++ tail)
    (cursor : next.cursor = kept + tail.length + blanks - back) :
    Echoed width start tape next echoes next.line.length := by
  have stream : echoMarks echoes = Tape.rewrite (edit.cursor - kept)
      (tail ++ List.replicate blanks 0x20) back := by
    rw [marks, Tape.rewrite, List.map_append, List.append_assoc _ (tail.map _)]
  rcases shows.replace (Nat.add_sub_of_le before) covered covers returns beyond leaves returnsInRow
    with ⟨inRow, shown, reach⟩
  rw [← stream] at inRow shown reach
  rw [← line] at shown reach
  rw [← cursor] at shown
  refine ⟨?_, inRow, shown, reach, ?_, shown.inside⟩
  · intro value put
    rw [marks] at put
    simp only [List.mem_append, List.mem_replicate, List.mem_map, reduceCtorEq, and_false,
      false_or, or_false, Mark.put.injEq, exists_eq_right] at put
    rcases put with new | ⟨-, rfl⟩
    · exact (typed value new).printable
    · decide
  · rw [line]
    exact (glyphs.take_append typed (Nat.zero_le _) true).glyphs

theorem Glyphs.echoed_back (glyphs : edit.Glyphs)
    (shows : tape.Shows 0x20 start edit.line edit.cursor) {target : Nat}
    (before : target ≤ edit.cursor)
    (leaves : (start + target) / width = (start + edit.cursor) / width) :
    Echoed width start tape (edit.moveTo target) (echoBackspaces (edit.cursor - target))
      edit.line.length := by
  have stream : echoMarks (echoBackspaces (edit.cursor - target)) =
      Tape.rewrite (edit.cursor - target) [] 0 := by
    rw [echoMarks_backspaces, Tape.rewrite]
    simp
  rcases shows.goBack (Nat.add_sub_of_le before) leaves with ⟨inRow, shown, reach⟩
  rw [← stream] at inRow shown reach
  refine ⟨?_, inRow, shown, reach, glyphs.glyphs, shown.inside⟩
  intro value put
  rw [echoMarks_backspaces] at put
  cases List.eq_of_mem_replicate put

theorem Glyphs.echoed_forward (glyphs : edit.Glyphs)
    (shows : tape.Shows 0x20 start edit.line edit.cursor) {target : Nat}
    (forward : edit.cursor ≤ target) (inLine : target ≤ edit.line.length) :
    Echoed width start tape (edit.moveTo target) (edit.echoRange edit.cursor target)
      edit.line.length := by
  have stream : echoMarks (edit.echoRange edit.cursor target) =
      Tape.rewrite 0 ((edit.line.take target).drop edit.cursor) 0 := by
    rw [glyphs.echoMarks_range inLine, Tape.rewrite]
    simp
  rcases @Tape.Shows.goForward _ tape 0x20 start edit.cursor width edit.line shows target forward
    inLine with ⟨inRow, shown, reach⟩
  rw [← stream] at inRow shown reach
  refine ⟨?_, inRow, shown, reach, glyphs.glyphs, shown.inside⟩
  intro value put
  rw [glyphs.echoMarks_range inLine, List.mem_map] at put
  rcases put with ⟨unit, member, same⟩
  cases same
  exact (glyphs.glyphs value (List.mem_of_mem_take (List.mem_of_mem_drop member))).printable

theorem Glyphs.normalizeCursor_eq (glyphs : edit.Glyphs) : edit.normalizeCursor = edit :=
  glyphs.normalized.normalizeCursor_eq

theorem Glyphs.moveTo (glyphs : edit.Glyphs) {target : Nat} (inLine : target ≤ edit.line.length) :
    (edit.moveTo target).Glyphs :=
  ⟨glyphs.glyphs, inLine⟩

theorem Glyphs.erase (glyphs : edit.Glyphs) {first count target : Nat}
    (inLine : target ≤ (edit.erase first count).line.length) :
    ((edit.erase first count).moveTo target).Glyphs := by
  refine ⟨?_, inLine⟩
  intro unit member
  rcases List.mem_append.mp member with before | after
  · exact glyphs.glyphs unit (List.mem_of_mem_take before)
  · exact glyphs.glyphs unit (List.mem_of_mem_drop after)

theorem Glyphs.drop (glyphs : edit.Glyphs) (count : Nat) :
    ∀ unit ∈ edit.line.drop count, IsGlyph unit :=
  fun unit member => glyphs.glyphs unit (List.mem_of_mem_drop member)

theorem Glyphs.echoed_escape (glyphs : edit.Glyphs)
    (shows : tape.Shows 0x20 start edit.line edit.cursor)
    (inRow : start / width = (start + edit.line.length) / width) :
    Echoed width start tape edit.escapeKey.1 edit.escapeKey.2 edit.escapeKey.1.line.length := by
  have inside := glyphs.inside
  rw [escapeKey]
  split
  · exact .nothing shows glyphs
  · have empty : ({ edit with line := [], cursor := 0 } : EditLine).normalizeCursor =
        { edit with line := [], cursor := 0 } := rfl
    rw [empty]
    refine @Glyphs.echoed_replace edit width start tape _ _ glyphs shows 0 edit.line.length
      edit.line.length [] (by simp) (Nat.zero_le _) ?_ ?_ ?_ le_rfl ?_ ?_ ?_ rfl ?_
    · simp
    · simp
    · simp
    · exact Tape.div_eq_of_between (Nat.le_add_right _ _) (by omega) inRow
    · simpa using inRow
    · simp
    · simp

theorem Glyphs.echoed_home (glyphs : edit.Glyphs)
    (shows : tape.Shows 0x20 start edit.line edit.cursor) {ctrl : Bool}
    (inRow : edit.cursor ≠ 0 → start / width =
      (start + if ctrl then edit.line.length else edit.cursor) / width) :
    Echoed width start tape (edit.homeKey ctrl).1 (edit.homeKey ctrl).2
      (edit.homeKey ctrl).1.line.length := by
  have inside := glyphs.inside
  rw [homeKey]
  split
  · exact .nothing shows glyphs
  rename_i moved
  have row := inRow moved
  cases ctrl with
  | false =>
      rw [if_neg Bool.false_ne_true, (glyphs.moveTo (Nat.zero_le _)).normalizeCursor_eq]
      exact glyphs.echoed_back shows (Nat.zero_le _) row
  | true =>
      have erased := @Glyphs.erase edit glyphs 0 edit.cursor 0 (Nat.zero_le _)
      have line : ((edit.erase 0 edit.cursor).moveTo 0).line = edit.line.drop edit.cursor := by
        simp [EditLine.erase, EditLine.moveTo]
      have length := congrArg List.length line
      rw [List.length_drop] at length
      simp only [if_true, erased.normalizeCursor_eq] at row ⊢
      refine @Glyphs.echoed_replace edit width start tape _ _ glyphs shows 0 edit.cursor
        (((edit.erase 0 edit.cursor).moveTo 0).line.length + edit.cursor)
        (edit.line.drop edit.cursor) (glyphs.drop _) (Nat.zero_le _) ?_ ?_ ?_ ?_ ?_ ?_ ?_ line ?_
      · rw [List.length_drop]
        omega
      · rw [List.length_drop]
        omega
      · rw [List.length_drop, length]
      · omega
      · exact Tape.div_eq_of_between (Nat.le_add_right _ _) (by omega) row
      · rw [List.length_drop, length]
        have whole : 0 + (edit.line.length - edit.cursor) + edit.cursor =
            edit.line.length := by omega
        rw [whole, show edit.line.length -
          (edit.line.length - edit.cursor + edit.cursor) = 0 by omega]
        exact row
      · simp only [echoMarks_append, echoMarks_backspaces, echoMarks_spaces,
          erased.echoMarks_range le_rfl, List.take_length, List.drop_zero, Nat.sub_zero]
        rw [line]
      · change 0 = _
        rw [List.length_drop, length]
        omega

theorem Glyphs.echoed_end (glyphs : edit.Glyphs)
    (shows : tape.Shows 0x20 start edit.line edit.cursor) {ctrl : Bool}
    (inRow : ctrl = true → (start + edit.cursor) / width = (start + edit.line.length) / width) :
    Echoed width start tape (edit.endKey ctrl).1 (edit.endKey ctrl).2
      (edit.endKey ctrl).1.line.length := by
  have inside := glyphs.inside
  rw [endKey]
  split
  · exact .nothing shows glyphs
  cases ctrl with
  | false =>
      rw [if_neg Bool.false_ne_true, (glyphs.moveTo le_rfl).normalizeCursor_eq]
      exact glyphs.echoed_forward shows inside le_rfl
  | true =>
      have row := inRow rfl
      have line : (edit.erase edit.cursor (edit.line.length - edit.cursor)).line =
          edit.line.take edit.cursor := by
        simp only [EditLine.erase, Nat.add_sub_of_le inside, List.drop_length, List.append_nil]
      have erased := @Glyphs.erase edit glyphs edit.cursor (edit.line.length - edit.cursor)
        edit.cursor (by
          rw [line, List.length_take]
          omega)
      have normal : (edit.erase edit.cursor (edit.line.length - edit.cursor)).normalizeCursor =
          edit.erase edit.cursor (edit.line.length - edit.cursor) := erased.normalizeCursor_eq
      simp only [if_true, normal]
      refine @Glyphs.echoed_replace edit width start tape _ _ glyphs shows edit.cursor
        (edit.line.length - edit.cursor) (edit.line.length - edit.cursor) [] (by simp) le_rfl
        ?_ ?_ ?_ le_rfl rfl ?_ ?_ ?_ ?_
      · simp only [List.length_nil]
        omega
      · simp only [List.length_nil]
        omega
      · simp
      · simp only [List.length_nil, Nat.add_zero, Nat.add_sub_of_le inside,
          Nat.sub_sub_self inside]
        exact row
      · simp
      · rw [line, List.append_nil]
      · simp [EditLine.erase]

theorem Glyphs.echoed_backspace (glyphs : edit.Glyphs)
    (shows : tape.Shows 0x20 start edit.line edit.cursor)
    (inRow : edit.cursor ≠ 0 →
      (start + (edit.cursor - 1)) / width = (start + edit.line.length) / width) :
    Echoed width start tape edit.backspace.edit edit.backspace.echoes
      edit.backspace.edit.line.length := by
  have inside := glyphs.inside
  rw [backspace]
  split
  · exact .nothing shows glyphs
  rename_i moved
  have row := inRow moved
  have removed : edit.cursor - (edit.cursor - 1) = 1 := by omega
  simp only [glyphs.prevIndex_eq, removed]
  have line : ((edit.erase (edit.cursor - 1) 1).moveTo (edit.cursor - 1)).line =
      edit.line.take (edit.cursor - 1) ++ edit.line.drop edit.cursor := by
    simp only [EditLine.moveTo, EditLine.erase, Nat.sub_add_cancel (Nat.pos_of_ne_zero moved)]
  have length := congrArg List.length line
  rw [List.length_append, List.length_take, List.length_drop] at length
  have erased := @Glyphs.erase edit glyphs (edit.cursor - 1) 1 (edit.cursor - 1) (by
    change edit.cursor - 1 ≤ ((edit.erase (edit.cursor - 1) 1).moveTo (edit.cursor - 1)).line.length
    omega)
  rw [erased.normalizeCursor_eq]
  have cursor : ((edit.erase (edit.cursor - 1) 1).moveTo (edit.cursor - 1)).cursor =
      edit.cursor - 1 := rfl
  generalize (edit.erase (edit.cursor - 1) 1).moveTo (edit.cursor - 1) = next
    at line length erased cursor
  have tail : (next.line.drop next.cursor) = edit.line.drop edit.cursor := by
    rw [line, cursor, List.drop_append_of_le_length (by rw [List.length_take]; omega),
      List.drop_take_self, List.nil_append]
  refine @Glyphs.echoed_replace edit width start tape _ _ glyphs shows (edit.cursor - 1) 1
    (next.line.length - next.cursor + 1) (edit.line.drop edit.cursor) (glyphs.drop _) (by omega)
    ?_ ?_ ?_ ?_ ?_ ?_ ?_ line ?_
  · rw [List.length_drop]
    omega
  · rw [List.length_drop]
    omega
  · rw [List.length_drop]
    omega
  · omega
  · exact Tape.div_eq_of_between (by omega) (by omega) row
  · rw [List.length_drop]
    have whole : edit.cursor - 1 + (edit.line.length - edit.cursor) + 1 =
        edit.line.length := by omega
    have back : edit.line.length - (next.line.length - next.cursor + 1) =
        edit.cursor - 1 := by omega
    rw [whole, back]
    exact row
  · rw [removed]
    split
    · simp only [echoMarks_append, echoMarks_backspaces, echoMarks_spaces,
        erased.echoMarks_range le_rfl, List.take_length, tail, List.append_assoc]
    · rename_i atEnd
      have none : edit.line.drop edit.cursor = [] := by
        apply List.drop_eq_nil_of_le
        omega
      have here : next.line.length - next.cursor = 0 := by omega
      simp only [echoMarks_append, echoMarks_backspaces, echoMarks_spaces, none, here,
        List.map_nil, List.append_nil, List.append_assoc]
  · rw [List.length_drop]
    omega

/-- The units an inserted unit replaces. -/
def replaced (edit : EditLine) : Nat :=
  if edit.insertMode = false ∧ edit.cursor < edit.line.length then 1 else 0

theorem Glyphs.insertUnit_eq (glyphs : edit.Glyphs) {value : WChar} (glyph : IsGlyph value) :
    ∃ next : EditLine,
      next.line = edit.line.take edit.cursor ++
        value :: edit.line.drop (edit.cursor + edit.replaced) ∧
      next.cursor = edit.cursor + 1 ∧ next.Glyphs ∧ edit.insertUnit value =
        { edit := next
          echoes := [value] :: next.echoRange next.cursor next.line.length ++ echoSpaces 0 ++
            echoBackspaces (next.line.length - next.cursor) } := by
  have inside := glyphs.inside
  let next : EditLine :=
    ⟨edit.line.take edit.cursor ++ value :: edit.line.drop (edit.cursor + edit.replaced),
      edit.cursor + 1, edit.insertMode⟩
  have typed : next.Glyphs := by
    apply glyphs.take_append
    · intro unit member
      rcases List.mem_cons.mp member with rfl | later
      · exact glyph
      · exact glyphs.drop _ unit later
    · rw [List.length_append, List.length_take, List.length_cons]
      omega
  have removed : (if (!edit.insertMode && decide (edit.cursor < edit.line.length)) = true then
      edit.nextIndex edit.cursor - edit.cursor else 0) = edit.replaced := by
    simp only [replaced, Bool.and_eq_true, Bool.not_eq_true', decide_eq_true_eq]
    split
    · rename_i typedOver
      rw [glyphs.nextIndex_eq typedOver.2, Nat.add_sub_cancel_left]
    · rfl
  have clear : edit.replaced - 1 = 0 := by
    rw [replaced]
    split <;> rfl
  refine ⟨next, rfl, rfl, typed, ?_⟩
  simp only [insertUnit, removed, clear, Nat.add_zero]
  rw [typed.normalizeCursor_eq]

theorem Glyphs.echoed_insert (glyphs : edit.Glyphs)
    (shows : tape.Shows 0x20 start edit.line edit.cursor) {value : WChar} (glyph : IsGlyph value)
    (inRow : (start + (edit.cursor + 1)) / width = (start + max (edit.cursor + 1)
      (edit.line.length + if edit.insertMode then 1 else 0)) / width) :
    Echoed width start tape (edit.insertUnit value).edit (edit.insertUnit value).echoes
      (edit.insertUnit value).edit.line.length := by
  have inside := glyphs.inside
  rcases glyphs.insertUnit_eq glyph with ⟨next, line, cursor, typed, inserted⟩
  rw [inserted]
  have size : (edit.line.drop (edit.cursor + edit.replaced)).length =
      edit.line.length - (edit.cursor + edit.replaced) := List.length_drop
  have grows : max (edit.cursor + 1) (edit.line.length + if edit.insertMode then 1 else 0) =
      edit.cursor + (edit.line.length - (edit.cursor + edit.replaced) + 1) := by
    rw [replaced]
    cases edit.insertMode with
    | true => simp; omega
    | false =>
        by_cases typedOver : edit.cursor < edit.line.length
        · simp [typedOver]
          omega
        · simp [typedOver]
          omega
  have few : edit.replaced ≤ 1 := by
    rw [replaced]
    split <;> omega
  have length : next.line.length =
      edit.cursor + (edit.line.length - (edit.cursor + edit.replaced) + 1) := by
    rw [line, List.length_append, List.length_take, List.length_cons, size]
    omega
  have tail : next.line.drop next.cursor = edit.line.drop (edit.cursor + edit.replaced) := by
    have front : (edit.line.take edit.cursor).length = edit.cursor := by
      rw [List.length_take]
      omega
    rw [line, cursor, List.drop_append, front, List.drop_eq_nil_of_le (by omega), List.nil_append,
      Nat.add_sub_cancel_left, List.drop_one, List.tail_cons]
  refine @Glyphs.echoed_replace edit width start tape _ _ glyphs shows edit.cursor 0
    (edit.line.length - (edit.cursor + edit.replaced))
    (value :: edit.line.drop (edit.cursor + edit.replaced)) ?_ le_rfl ?_ ?_ ?_ (Nat.zero_le _) rfl
    ?_ ?_ line ?_
  · intro unit member
    rcases List.mem_cons.mp member with rfl | later
    · exact glyph
    · exact glyphs.drop _ unit later
  · rw [List.length_cons, size]
    omega
  · rw [List.length_cons, size]
    omega
  · rw [List.length_cons, size]
    omega
  · rw [List.length_cons, size, Nat.add_zero, ← grows, ← inRow]
    congr 2
    omega
  · simp only [List.cons_append, echoMarks_cons, echoMarks_append, echoMarks_backspaces,
      echoMarks_spaces, typed.echoMarks_range le_rfl, List.take_length, tail, Nat.sub_self,
      List.map_cons, List.map_nil, glyph.plainMark]
    have back : next.line.length - next.cursor =
        edit.line.length - (edit.cursor + edit.replaced) := by omega
    simp only [List.replicate_zero, List.map_nil, List.nil_append, List.append_nil, back,
      List.cons_append]
  · rw [List.length_cons, size]
    change next.cursor = _
    omega

theorem deleteStep_shorter (glyphs : edit.Glyphs) {result : Edit}
    (stepped : edit.deleteStep = some result) :
    result.1.cursor = edit.cursor ∧ result.1.line.length + 1 = edit.line.length ∧
      edit.cursor < edit.line.length := by
  simp only [deleteStep] at stepped
  split at stepped
  · cases stepped
  rename_i before
  have below : edit.cursor < edit.line.length := Nat.not_le.mp before
  rw [glyphs.nextIndex_eq below, Nat.add_sub_cancel_left] at stepped
  have length : (edit.erase edit.cursor 1).line.length + 1 = edit.line.length := by
    simp only [EditLine.erase, List.length_append, List.length_take, List.length_drop]
    omega
  have erased := @Glyphs.erase edit glyphs edit.cursor 1 edit.cursor (by omega)
  have normal : (edit.erase edit.cursor 1).normalizeCursor = edit.erase edit.cursor 1 :=
    erased.normalizeCursor_eq
  rw [normal] at stepped
  cases stepped
  exact ⟨rfl, length, below⟩

theorem Glyphs.echoed_delete (glyphs : edit.Glyphs)
    (shows : tape.Shows 0x20 start edit.line edit.cursor)
    (inRow : (start + edit.cursor) / width = (start + edit.line.length) / width)
    {result : Edit} (stepped : edit.deleteStep = some result) :
    Echoed width start tape result.1 result.2 result.1.line.length := by
  simp only [deleteStep] at stepped
  split at stepped
  · cases stepped
  rename_i before
  have below : edit.cursor < edit.line.length := Nat.not_le.mp before
  rw [glyphs.nextIndex_eq below, Nat.add_sub_cancel_left] at stepped
  have line : (edit.erase edit.cursor 1).line =
      edit.line.take edit.cursor ++ edit.line.drop (edit.cursor + 1) := rfl
  have length := congrArg List.length line
  rw [List.length_append, List.length_take, List.length_drop] at length
  have erased := @Glyphs.erase edit glyphs edit.cursor 1 edit.cursor (by omega)
  have normal : (edit.erase edit.cursor 1).normalizeCursor = edit.erase edit.cursor 1 :=
    erased.normalizeCursor_eq
  rw [normal] at stepped
  cases stepped
  have cursor : (edit.erase edit.cursor 1).cursor = edit.cursor := rfl
  change (edit.erase edit.cursor 1).Glyphs at erased
  generalize edit.erase edit.cursor 1 = next at line length erased cursor
  have tail : next.line.drop next.cursor = edit.line.drop (edit.cursor + 1) := by
    rw [line, cursor, List.drop_append_of_le_length (by rw [List.length_take]; omega),
      List.drop_take_self, List.nil_append]
  refine @Glyphs.echoed_replace edit width start tape _ _ glyphs shows edit.cursor 1
    (next.line.length - next.cursor + 1) (edit.line.drop (edit.cursor + 1)) (glyphs.drop _) le_rfl
    ?_ ?_ ?_ ?_ rfl ?_ ?_ line ?_
  · rw [List.length_drop]
    omega
  · rw [List.length_drop]
    omega
  · rw [List.length_drop]
    omega
  · omega
  · rw [List.length_drop]
    have whole : edit.cursor + (edit.line.length - (edit.cursor + 1)) + 1 = edit.line.length := by
      omega
    have back : edit.line.length - (next.line.length - next.cursor + 1) = edit.cursor := by omega
    rw [whole, back]
    exact inRow
  · simp only [echoMarks_append, echoMarks_backspaces, echoMarks_spaces,
      erased.echoMarks_range le_rfl, List.take_length, tail, Nat.sub_self, List.replicate_zero,
      List.nil_append]
  · rw [List.length_drop]
    change next.cursor = _
    omega

/-- A repeated edit is echoed step by step as long as each step can be. -/
theorem echoed_repeat {step : EditLine → Option Edit} {applies : Nat → EditLine → Prop}
    (echoed : ∀ {count : Nat} {edit : EditLine} {tape : Tape WChar} {result : Edit}, edit.Glyphs →
      tape.Shows 0x20 start edit.line edit.cursor → applies (count + 1) edit →
      step edit = some result →
        Echoed width start tape result.1 result.2 result.1.line.length ∧
          result.1.line.length ≤ edit.line.length ∧ applies count result.1)
    {count : Nat} (glyphs : edit.Glyphs) (shows : tape.Shows 0x20 start edit.line edit.cursor)
    (applied : applies count edit) :
    Echoed width start tape (repeatEdit step count edit).1 (repeatEdit step count edit).2
      (repeatEdit step count edit).1.line.length := by
  induction count generalizing edit tape with
  | zero => exact .nothing shows glyphs
  | succ count hypothesis =>
      simp only [repeatEdit]
      cases stepped : step edit with
      | none => exact .nothing shows glyphs
      | some result =>
          rcases echoed glyphs shows applied stepped with ⟨first, shorter, later⟩
          have rest := hypothesis first.glyphs first.shows later
          have both := first.append rest
          have covers := shows.covers
          refine ⟨both.printed, both.inRow, both.shows, ?_, both.glyphs⟩
          change _ = max tape.reach (start + (repeatEdit step count result.1).1.line.length)
          rw [both.reach]
          omega

theorem Glyphs.echoed_left (glyphs : edit.Glyphs)
    (shows : tape.Shows 0x20 start edit.line edit.cursor) {ctrl : Bool} {count : Nat}
    (inRow : (start + if ctrl then edit.wordPrev^[count] edit.cursor else edit.cursor - count) /
      width = (start + edit.cursor) / width) :
    Echoed width start tape (repeatEdit (leftStep ctrl) count edit).1
      (repeatEdit (leftStep ctrl) count edit).2
      (repeatEdit (leftStep ctrl) count edit).1.line.length := by
  refine @echoed_repeat edit width start tape (leftStep ctrl) (fun count edit =>
    (start + if ctrl then edit.wordPrev^[count] edit.cursor else edit.cursor - count) / width =
      (start + edit.cursor) / width) ?_ count glyphs shows inRow
  intro count edit tape result glyphs shows inRow stepped
  simp only [leftStep, glyphs.prevIndex_eq] at stepped
  split at stepped
  · cases stepped
  have final : (if ctrl then edit.wordPrev^[count + 1] edit.cursor else edit.cursor - (count + 1)) =
      if ctrl then edit.wordPrev^[count]
        (if ctrl then edit.wordPrev edit.cursor else edit.cursor - 1)
      else (if ctrl then edit.wordPrev edit.cursor else edit.cursor - 1) - count := by
    cases ctrl with
    | true => exact Function.iterate_succ_apply _ _ _
    | false =>
        simp only [Bool.false_eq_true, if_false]
        omega
  rw [final] at inRow
  have back : (if ctrl then edit.wordPrev edit.cursor else edit.cursor - 1) ≤ edit.cursor := by
    have word := edit.wordPrev_le edit.cursor
    split <;> omega
  generalize (if ctrl then edit.wordPrev edit.cursor else edit.cursor - 1) = target
    at inRow stepped back
  rw [(glyphs.moveTo (back.trans glyphs.inside)).normalizeCursor_eq] at stepped
  cases stepped
  have farther : (if ctrl then edit.wordPrev^[count] target else target - count) ≤ target := by
    have words := edit.wordPrev_iterate_le count target
    split <;> omega
  have leaves := Tape.div_eq_of_between (Nat.add_le_add_left farther start)
    (Nat.add_le_add_left back start) inRow
  refine ⟨glyphs.echoed_back shows back (leaves.symm.trans inRow), le_rfl, ?_⟩
  have same : (edit.moveTo target).wordPrev = edit.wordPrev :=
    funext fun index => edit.wordPrev_moveTo target index
  simp only [same]
  exact leaves

theorem Glyphs.echoed_right (glyphs : edit.Glyphs)
    (shows : tape.Shows 0x20 start edit.line edit.cursor) {ctrl : Bool} {count : Nat} :
    Echoed width start tape (repeatEdit (rightStep ctrl) count edit).1
      (repeatEdit (rightStep ctrl) count edit).2
      (repeatEdit (rightStep ctrl) count edit).1.line.length := by
  refine @echoed_repeat edit width start tape (rightStep ctrl) (fun _ _ => True) ?_ count glyphs
    shows trivial
  intro _ edit tape result glyphs shows _ stepped
  simp only [rightStep] at stepped
  split at stepped
  · cases stepped
  rename_i before
  have below : edit.cursor < edit.line.length := Nat.not_le.mp before
  rw [glyphs.nextIndex_eq below] at stepped
  have word := glyphs.wordNext_bounds glyphs.inside
  generalize target : (if ctrl then edit.wordNext edit.cursor else edit.cursor + 1) =
    place at stepped
  have forward : edit.cursor ≤ place ∧ place ≤ edit.line.length := by
    rw [← target]
    split <;> omega
  rw [(glyphs.moveTo forward.2).normalizeCursor_eq] at stepped
  cases stepped
  exact ⟨glyphs.echoed_forward shows forward.1 forward.2, le_rfl, trivial⟩

theorem Glyphs.echoed_deletes (glyphs : edit.Glyphs)
    (shows : tape.Shows 0x20 start edit.line edit.cursor) {count : Nat}
    (inRow : (start + edit.cursor) / width = (start + edit.line.length) / width) :
    Echoed width start tape (repeatEdit deleteStep count edit).1
      (repeatEdit deleteStep count edit).2
      (repeatEdit deleteStep count edit).1.line.length := by
  refine @echoed_repeat edit width start tape deleteStep
    (fun _ edit => (start + edit.cursor) / width = (start + edit.line.length) / width) ?_ count
    glyphs shows inRow
  intro _ edit tape result glyphs shows inRow stepped
  rcases deleteStep_shorter glyphs stepped with ⟨cursor, shorter, below⟩
  refine ⟨glyphs.echoed_delete shows inRow stepped, by omega, ?_⟩
  rw [cursor]
  exact Tape.div_eq_of_between (by omega) (by omega) inRow

end EditLine

/-- Strokes that edit a line of printable characters. -/
def Stroke.Edits : Stroke WChar → Prop
  | .type value => value = 8 ∨ IsGlyph value
  | .press _ _ _ => True
  | .interrupt _ => False

namespace EditLine

/-- The places in the line between which the echo of a stroke steps back. -/
def backs (edit : EditLine) : Stroke WChar → Nat × Nat
  | .type value =>
      if value = 8 then if edit.cursor = 0 then (0, 0) else (edit.cursor - 1, edit.line.length)
      else
        (edit.cursor + 1,
          max (edit.cursor + 1) (edit.line.length + if edit.insertMode then 1 else 0))
  | .press .escapeKey _ _ => (0, edit.line.length)
  | .press .homeKey ctrl _ =>
      if edit.cursor = 0 then (0, 0) else (0, if ctrl then edit.line.length else edit.cursor)
  | .press .endKey ctrl _ => (edit.cursor, if ctrl then edit.line.length else edit.cursor)
  | .press .leftKey ctrl count =>
      (if ctrl then edit.wordPrev^[count] edit.cursor else edit.cursor - count, edit.cursor)
  | .press .deleteKey _ _ => (edit.cursor, edit.line.length)
  | .press .insertKey _ _ | .press .rightKey _ _ | .interrupt _ => (edit.cursor, edit.cursor)

/-- The echo of a stroke steps back inside one row of a screen of some width. -/
def InRow (width start : Nat) (edit : EditLine) (stroke : Stroke WChar) : Prop :=
  (start + (edit.backs stroke).1) / width = (start + (edit.backs stroke).2) / width

variable (processed controlZ : Bool)

def AllInRow (width start : Nat) : EditLine → List (Stroke WChar) → Prop
  | _, [] => True
  | edit, stroke :: later =>
      edit.InRow width start stroke ∧
        AllInRow width start (edit.handleStroke processed controlZ stroke).edit later

/-- The length of the longest line that strokes have made. -/
def longest : EditLine → List (Stroke WChar) → Nat
  | edit, [] => edit.line.length
  | edit, stroke :: later =>
      max edit.line.length (longest (edit.handleStroke processed controlZ stroke).edit later)

variable {processed controlZ} {edit : EditLine} {width start : Nat} {tape : Tape WChar}

/-- The echo of a stroke shows the line it makes. -/
theorem Glyphs.echoed_stroke (glyphs : edit.Glyphs)
    (shows : tape.Shows 0x20 start edit.line edit.cursor) {stroke : Stroke WChar}
    (edits : stroke.Edits) (inRow : edit.InRow width start stroke) :
    let effect := edit.handleStroke processed controlZ stroke
    Echoed width start tape effect.edit effect.echoes effect.edit.line.length ∧
      effect.outcome = .proceed := by
  cases stroke with
  | interrupt breaks => exact absurd edits id
  | press key ctrl count =>
      refine ⟨?_, rfl⟩
      cases key with
      | insertKey =>
          simp only [handleStroke, pressKey]
          split
          · exact .nothing shows ⟨glyphs.glyphs, glyphs.inside⟩
          · exact .nothing shows glyphs
      | escapeKey => exact glyphs.echoed_escape shows inRow
      | homeKey =>
          apply glyphs.echoed_home shows
          intro moved
          simp only [InRow, backs, if_neg moved] at inRow
          exact inRow
      | endKey =>
          apply glyphs.echoed_end shows
          rintro rfl
          exact inRow
      | leftKey => exact glyphs.echoed_left shows inRow
      | rightKey => exact glyphs.echoed_right shows
      | deleteKey => exact glyphs.echoed_deletes shows inRow
  | type value =>
      rcases edits with rfl | glyph
      · have erased : edit.handleSingleUnit processed controlZ 8 = edit.backspace := by
          simp only [handleSingleUnit, glyphs.normalizeCursor_eq]
          simp
        simp only [handleStroke, erased]
        refine ⟨glyphs.echoed_backspace shows ?_, ?_⟩
        · intro moved
          simp only [InRow, backs, if_neg moved, if_true] at inRow
          exact inRow
        · rw [backspace]
          split <;> rfl
      · have typed : edit.handleSingleUnit processed controlZ value = edit.insertUnit value := by
          apply handleSingleUnit_plain glyphs.normalized
          · rw [beq_false_of_ne (@IsGlyph.ne_control value 0x1a glyph (by decide)), Bool.and_false]
          · rw [beq_false_of_ne (@IsGlyph.ne_control value 3 glyph (by decide)), Bool.and_false]
          · exact glyph.ne_control (by decide)
          · rintro (rfl | rfl)
            · exact glyph.ne_control (by decide) rfl
            · exact glyph.ne_control (by decide) rfl
        simp only [handleStroke, typed]
        refine ⟨glyphs.echoed_insert shows glyph ?_, rfl⟩
        simp only [InRow, backs, if_neg (@IsGlyph.ne_control value 8 glyph (by decide))] at inRow
        exact inRow

theorem handleStroke_proceeds {stroke : Stroke WChar} (edits : stroke.Edits) (edit : EditLine) :
    (edit.handleStroke processed controlZ stroke).outcome = .proceed := by
  cases stroke with
  | interrupt breaks => exact absurd edits id
  | press key ctrl count => rfl
  | type value =>
      rcases edits with rfl | glyph
      · simp [handleStroke, handleSingleUnit, backspace, apply_ite Effect.outcome]
      · have other (control : WChar) (below : control.toNat < 0x20) : value ≠ control :=
          glyph.ne_control below
        simp [handleStroke, handleSingleUnit, insertUnit, other 0x1a (by decide),
          other 3 (by decide), other 8 (by decide), other 13 (by decide), other 10 (by decide)]

theorem length_le_longest {strokes : List (Stroke WChar)} :
    edit.line.length ≤ edit.longest processed controlZ strokes := by
  cases strokes with
  | nil => exact le_rfl
  | cons stroke later => exact Nat.le_max_left _ _

/-- Strokes are in their rows one part after the other. -/
theorem allInRow_append {first second : List (Stroke WChar)}
    (edits : ∀ stroke ∈ first, stroke.Edits)
    (inRow : edit.AllInRow processed controlZ width start (first ++ second)) :
    let mid := (edit.handleStrokes processed controlZ first).edit
    edit.AllInRow processed controlZ width start first ∧
      mid.AllInRow processed controlZ width start second ∧
      edit.longest processed controlZ (first ++ second) =
        max (edit.longest processed controlZ first) (mid.longest processed controlZ second) := by
  induction first generalizing edit with
  | nil => exact ⟨trivial, inRow, (Nat.max_eq_right length_le_longest).symm⟩
  | cons stroke later hypothesis =>
      rcases inRow with ⟨here, rest⟩
      rcases hypothesis (fun other member => edits other (List.mem_cons_of_mem stroke member)) rest
        with ⟨before, after, longest⟩
      rw [handleStrokes_proceeds (handleStroke_proceeds (edits stroke List.mem_cons_self) edit)]
      refine ⟨⟨here, before⟩, after, ?_⟩
      rw [List.cons_append, EditLine.longest, EditLine.longest, longest, Nat.max_assoc]

theorem Glyphs.echoed_strokes (glyphs : edit.Glyphs)
    (shows : tape.Shows 0x20 start edit.line edit.cursor) {strokes : List (Stroke WChar)}
    (edits : ∀ stroke ∈ strokes, stroke.Edits)
    (inRow : edit.AllInRow processed controlZ width start strokes) :
    let effect := edit.handleStrokes processed controlZ strokes
    Echoed width start tape effect.edit effect.echoes (edit.longest processed controlZ strokes) ∧
      effect.outcome = .proceed := by
  induction strokes generalizing edit tape with
  | nil => exact ⟨.nothing shows glyphs, rfl⟩
  | cons stroke later hypothesis =>
      rcases inRow with ⟨first, rest⟩
      rcases @Glyphs.echoed_stroke processed controlZ edit width start tape glyphs shows stroke
        (edits stroke List.mem_cons_self) first with ⟨echoed, proceeds⟩
      rcases hypothesis echoed.glyphs echoed.shows
        (fun other member => edits other (List.mem_cons_of_mem stroke member)) rest with
        ⟨after, outcome⟩
      rw [handleStrokes_proceeds proceeds]
      have both := echoed.append after
      refine ⟨⟨both.printed, both.inRow, both.shows, ?_, both.glyphs⟩, outcome⟩
      have covers := shows.covers
      have longer := @length_le_longest processed controlZ
        (edit.handleStroke processed controlZ stroke).edit later
      rw [both.reach, longest]
      omega

end EditLine

/-- The view of a screen buffer on a line that starts at its cursor. -/
def ScreenBuffer.cursorView (buffer : ScreenBuffer) : View where
  width := buffer.bufferSize.x.toNat
  first := (buffer.scrollRows buffer.regs.cursor.y).1.toNat
  last := (buffer.scrollRows buffer.regs.cursor.y).2.toNat
  start := buffer.linearIndex buffer.regs.cursor

/-- A screen buffer shows a line that has once been as long as `longest`: from the place where the
line starts, in reading order, with blanks where text has been erased and with its cursor at the
cursor of the line. -/
structure ScreenBuffer.Mirrors (buffer : ScreenBuffer) (view : View) (longest : Nat)
    (edit : EditLine) : Prop where
  cells : ∀ index < longest,
    (buffer.cells[view.start - view.width * view.scrolled (view.start + longest) + index]?).map
      ScreenCell.character = some (edit.line.getD index 0x20)
  covers : edit.line.length ≤ longest
  cursor : buffer.linearIndex buffer.regs.cursor =
    view.start - view.width * view.scrolled (view.start + longest) + edit.cursor

/-- A buffer shows the empty tape that starts at its cursor. -/
theorem ScreenBuffer.WellFormed.showsTape {buffer : ScreenBuffer} (valid : buffer.WellFormed) :
    buffer.ShowsTape buffer.cursorView
      ⟨fun _ => 0x20, buffer.cursorView.start, buffer.cursorView.start⟩ := by
  have xPos := valid.core.size.x_pos
  have inside := valid.cursor
  have xNonneg := inside.x_nonneg
  have xLt := inside.x_lt
  have yNonneg := inside.y_nonneg
  rcases rows : buffer.scrollRows buffer.regs.cursor.y with ⟨first, last⟩
  rcases valid.core.scrollRows_valid inside.y_lt rows with ⟨nonneg, ordered, below, above⟩
  have row : buffer.cursorView.start / buffer.cursorView.width = buffer.regs.cursor.y.toNat := by
    simp only [cursorView, ScreenCore.linearIndex]
    rw [Nat.mul_comm, Nat.mul_add_div (by omega), Nat.div_eq_of_lt (by omega), Nat.add_zero]
  have unscrolled : buffer.cursorView.scrolled buffer.cursorView.start = 0 := by
    rw [View.scrolled, row]
    simp only [cursorView, rows]
    omega
  refine ⟨valid, ?_, ?_, ?_, ?_, le_rfl, le_rfl, ?_, ?_⟩
  · simp only [cursorView]
    omega
  · simp only [cursorView, rows]
    rw [Int.toNat_of_nonneg nonneg, Int.toNat_of_nonneg (nonneg.trans ordered)]
  · simp only [cursorView, rows]
    omega
  · rw [unscrolled]
    rfl
  · rw [View.Fits, row]
    simp only [cursorView, rows]
    omega
  · intro place behind reachable
    exact absurd reachable (Nat.not_lt.mpr behind)

theorem ScreenBuffer.ShowsTape.mirrors {buffer : ScreenBuffer} {view : View} {tape : Tape WChar}
    {edit : EditLine} {longest : Nat} (displayed : buffer.ShowsTape view tape)
    (shows : tape.Shows 0x20 view.start edit.line edit.cursor)
    (reach : tape.reach = view.start + longest) : buffer.Mirrors view longest edit := by
  have below := displayed.displays.fits.scrolled_le
  have head := displayed.displays.head
  have covers := shows.covers
  have place := shows.head
  rw [reach] at below head covers
  refine ⟨?_, by omega, by omega⟩
  intro index inside
  have shown := displayed.displays.cells (view.start + index) (Nat.le_add_right _ _) (by omega)
  have source : view.start + index - view.width * view.scrolled (view.start + longest) =
      view.start - view.width * view.scrolled (view.start + longest) + index := by omega
  rw [reach, source, shows.cells index (by omega)] at shown
  exact shown

namespace Cooked

variable {platform : Platform} {device : Device} {call : CookedCall} {state after : CookedState}
  {view : View} {tape : Tape WChar}

theorem echoText_shows {buffer : ScreenBuffer} (screen : state.screen = some buffer)
    (displayed : buffer.ShowsTape view tape) (echo : call.mode.echoInput = true)
    (plain : call.outputMode.Plain) {text : List WChar} (units : ∀ unit ∈ text, IsPlain unit)
    (inRow : tape.BacksInRow view.width view.start (text.map plainMark))
    (fits : view.Fits (tape.marks (text.map plainMark)).reach)
    (echoed : echoText platform device call text state = (after, .ok ())) :
    ∃ shown, after.screen = some shown ∧
      shown.ShowsTape view (tape.marks (text.map plainMark)) := by
  have written := displayed.write plain units (some state.title)
    (!state.read.host.hasOutput) inRow fits
  simp only [echoText, echo, Bool.not_true, Bool.false_or, List.isEmpty_iff] at echoed
  split at echoed
  · rename_i empty
    cases echoed
    rw [empty]
    exact ⟨buffer, screen, displayed⟩
  · split at echoed
    · cases echoed
    · split at echoed
      · cases echoed
      · cases echoed
        refine ⟨_, ?_, written⟩
        simp only [showText, screen]

/-- The echoed texts are shown on the active screen buffer. -/
theorem echoTexts_shows {buffer : ScreenBuffer} (screen : state.screen = some buffer)
    (displayed : buffer.ShowsTape view tape) (echo : call.mode.echoInput = true)
    (plain : call.outputMode.Plain) {texts : List (List WChar)}
    (printed : ∀ value, .put value ∈ echoMarks texts → 0x20 ≤ value.toNat)
    (inRow : tape.BacksInRow view.width view.start (echoMarks texts))
    (fits : view.Fits (tape.marks (echoMarks texts)).reach)
    (echoed : echoTexts platform device call texts state = (after, .ok ())) :
    ∃ shown, after.screen = some shown ∧ shown.ShowsTape view (tape.marks (echoMarks texts)) := by
  induction texts generalizing state tape buffer with
  | nil =>
      cases echoed
      exact ⟨buffer, screen, displayed⟩
  | cons text later hypothesis =>
      rw [echoMarks_cons] at printed inRow fits ⊢
      rw [Tape.marks_append] at fits ⊢
      rcases Tape.backsInRow_split inRow with ⟨first, rest⟩
      have units : ∀ unit ∈ text, IsPlain unit := by
        intro unit member
        by_cases back : unit = 8
        · exact .inl back
        · refine .inr (printed unit (List.mem_append_left _ (List.mem_map.mpr ⟨unit, member, ?_⟩)))
          exact if_neg back
      simp only [echoTexts] at echoed
      split at echoed
      · rename_i mid shown
        rcases echoText_shows screen displayed echo plain units first
          (fits.mono (Tape.reach_marks _)) shown with ⟨buffer, screen, displayed⟩
        exact hypothesis screen displayed (fun value put => printed value
          (List.mem_append_right _ put)) rest fits echoed
      · rename_i failed
        exact absurd echoed (failed after)

/-- A pass that goes on has edited the line and shown the echo. -/
theorem body_next_echoes {next : CookedState} {token : Token} {length : Nat}
    (decoded : platform.decodeOneInputToken call.codePage state.read.peekHead =
      .token token length)
    (goesOn : body platform device call state = .next next) :
    let effect := (editLine state.read.handle).handleToken call.mode.processedInput
      call.processControlZ token
    editLine next.read.handle = effect.edit ∧
      echoTexts platform device call effect.echoes
        (setEdit { state with read := state.read.consume length } effect.edit) =
          (next, .ok ()) := by
  have edits := @body_edits platform device call state token length decoded
  rw [goesOn] at edits
  have unread := ReadState.exhausted_eq_false_of_token decoded
  have same : editLine (state.read.consume length).handle = editLine state.read.handle := rfl
  refine ⟨edits.2, ?_⟩
  simp only [body, unread, decoded, Bool.false_eq_true, if_false, handleToken, same] at goesOn
  split at goesOn
  · cases goesOn
  · rename_i shown echoed
    rw [echoed]
    rw [edits.1] at goesOn
    cases goesOn
    rfl

/-- A token whose strokes stay in their rows is shown on the screen. -/
theorem body_next_mirrors {next : CookedState} {token : Token} {length : Nat}
    (decoded : platform.decodeOneInputToken call.codePage state.read.peekHead =
      .token token length)
    (goesOn : body platform device call state = .next next) {edit : EditLine}
    {buffer : ScreenBuffer} (current : editLine state.read.handle = edit) (glyphs : edit.Glyphs)
    (shows : tape.Shows 0x20 view.start edit.line edit.cursor)
    (screen : state.screen = some buffer) (displayed : buffer.ShowsTape view tape)
    (echo : call.mode.echoInput = true) (plain : call.outputMode.Plain)
    (edits : ∀ stroke ∈ token.strokes call.mode.processedInput, stroke.Edits)
    (inRow : edit.AllInRow call.mode.processedInput call.processControlZ view.width view.start
      (token.strokes call.mode.processedInput))
    (fits : view.Fits (max tape.reach (view.start + edit.longest call.mode.processedInput
      call.processControlZ (token.strokes call.mode.processedInput)))) :
    let effect := edit.handleStrokes call.mode.processedInput call.processControlZ
      (token.strokes call.mode.processedInput)
    editLine next.read.handle = effect.edit ∧
      EditLine.Echoed view.width view.start tape effect.edit effect.echoes
        (edit.longest call.mode.processedInput call.processControlZ
          (token.strokes call.mode.processedInput)) ∧
      ∃ shown, next.screen = some shown ∧
        shown.ShowsTape view (tape.marks (echoMarks effect.echoes)) := by
  intro effect
  rcases body_next_echoes decoded goesOn with ⟨edited, echoed⟩
  rw [current, EditLine.handleToken_eq_strokes] at edited echoed
  have echoes := (@EditLine.Glyphs.echoed_strokes call.mode.processedInput call.processControlZ edit
    view.width view.start tape glyphs shows _ edits inRow).1
  refine ⟨edited, echoes, ?_⟩
  apply echoTexts_shows _ displayed echo plain echoes.printed echoes.inRow _ echoed
  · exact screen
  · rw [echoes.reach]
    exact fits

theorem TakesTokens.mirrors {tokens : List Token} {pass : Pass CookedState Result}
    (takes : TakesTokens platform device call state tokens pass) (goesOn : pass = .next after)
    {edit : EditLine} {buffer : ScreenBuffer} (current : editLine state.read.handle = edit)
    (glyphs : edit.Glyphs) (shows : tape.Shows 0x20 view.start edit.line edit.cursor)
    (screen : state.screen = some buffer) (displayed : buffer.ShowsTape view tape)
    (echo : call.mode.echoInput = true) (plain : call.outputMode.Plain)
    (edits : ∀ stroke ∈ tokens.flatMap (Token.strokes call.mode.processedInput), stroke.Edits)
    (inRow : edit.AllInRow call.mode.processedInput call.processControlZ view.width view.start
      (tokens.flatMap (Token.strokes call.mode.processedInput)))
    (fits : view.Fits (max tape.reach (view.start + edit.longest call.mode.processedInput
      call.processControlZ (tokens.flatMap (Token.strokes call.mode.processedInput))))) :
    ∃ shown final, after.screen = some shown ∧ shown.ShowsTape view final ∧
      final.Shows 0x20 view.start (editLine after.read.handle).line
        (editLine after.read.handle).cursor ∧
      final.reach = max tape.reach (view.start + edit.longest call.mode.processedInput
        call.processControlZ (tokens.flatMap (Token.strokes call.mode.processedInput))) := by
  induction takes generalizing edit buffer tape with
  | @last state token length decoded =>
      rw [List.flatMap_singleton] at edits inRow fits ⊢
      rcases body_next_mirrors decoded goesOn current glyphs shows screen displayed echo plain edits
        inRow fits with ⟨edited, echoes, shown, screen, displayed⟩
      rw [edited]
      exact ⟨shown, _, screen, displayed, echoes.shows, echoes.reach⟩
  | @more state next token length tokens pass decoded passed later hypothesis =>
      rw [List.flatMap_cons] at edits inRow fits ⊢
      have first := fun stroke member => edits stroke (List.mem_append_left _ member)
      have rest := fun stroke member => edits stroke (List.mem_append_right _ member)
      rcases EditLine.allInRow_append first inRow with ⟨before, between, longest⟩
      rw [longest] at fits ⊢
      rcases body_next_mirrors decoded passed current glyphs shows screen displayed echo plain first
        before (fits.mono (by omega)) with ⟨edited, echoes, shown, screen, displayed⟩
      rcases hypothesis goesOn edited echoes.glyphs echoes.shows screen displayed rest between
        (by
          rw [echoes.reach]
          exact fits.mono (by omega)) with ⟨final, tape, screen, displayed, shows, reach⟩
      refine ⟨final, tape, screen, displayed, shows, ?_⟩
      rw [reach, echoes.reach]
      omega
  | @waits state waiting tokens pass bytes idles later hypothesis =>
      rcases body_waits idles with ⟨kept, same⟩
      rw [current] at kept
      have resumed : editLine (start (arrive waiting bytes)).read.handle = edit := by
        change (editLine waiting.read.handle).normalizeCursor = edit
        rw [kept, glyphs.normalizeCursor_eq]
      exact hypothesis goesOn resumed glyphs shows (same.trans screen) displayed edits inRow fits

/-- As long as the echo of every stroke steps back inside one row, the active screen buffer mirrors
the line after every token. -/
theorem echo_mirrors (platform : Platform) (device : Device) (call : CookedCall)
    (state after : CookedState) (buffer : ScreenBuffer) (tokens : List Token)
    (valid : buffer.WellFormed) (screen : state.screen = some buffer)
    (echo : call.mode.echoInput = true) (plain : call.outputMode.Plain)
    (empty : (editLine state.read.handle).line = [])
    (front : (editLine state.read.handle).cursor = 0)
    (edits : ∀ stroke ∈ tokens.flatMap (Token.strokes call.mode.processedInput), stroke.Edits)
    (inRow : (editLine state.read.handle).AllInRow call.mode.processedInput call.processControlZ
      buffer.cursorView.width buffer.cursorView.start
      (tokens.flatMap (Token.strokes call.mode.processedInput)))
    (fits : buffer.cursorView.Fits (buffer.cursorView.start +
      (editLine state.read.handle).longest call.mode.processedInput call.processControlZ
        (tokens.flatMap (Token.strokes call.mode.processedInput))))
    (takes : TakesTokens platform device call state tokens (.next after)) :
    ∃ shown, after.screen = some shown ∧
      shown.Mirrors buffer.cursorView
        ((editLine state.read.handle).longest call.mode.processedInput call.processControlZ
          (tokens.flatMap (Token.strokes call.mode.processedInput)))
        (editLine after.read.handle) := by
  have glyphs : (editLine state.read.handle).Glyphs := ⟨by simp [empty], by simp [empty, front]⟩
  have begins : (⟨fun _ => 0x20, buffer.cursorView.start, buffer.cursorView.start⟩ :
      Tape WChar).Shows 0x20 buffer.cursorView.start (editLine state.read.handle).line
        (editLine state.read.handle).cursor := by
    rw [empty, front]
    exact ⟨fun _ _ => rfl, le_rfl, rfl, le_rfl⟩
  rcases takes.mirrors rfl rfl glyphs begins screen valid.showsTape echo plain edits inRow
    (by rwa [Nat.max_eq_right (Nat.le_add_right _ _)]) with
    ⟨shown, final, screen, displayed, shows, reach⟩
  refine ⟨shown, screen, displayed.mirrors shows ?_⟩
  rw [reach, Nat.max_eq_right (Nat.le_add_right _ _)]

/-- A screen of two rows of three cells. -/
def smallScreen : ScreenBuffer :=
  ScreenBuffer.create {
    bufferSize := ⟨3, 2⟩
    cursorPosition := ⟨1, 0⟩
    windowSize := ⟨3, 2⟩
    maximumWindowSize := ⟨3, 2⟩
    colorTable := ScreenBuffer.defaultColorTable }

/-- A line-input read with echo and plain output. -/
def echoCall : CookedCall := { capacity := 16, mode := ⟨7⟩, outputMode := ⟨3⟩ }

def echoState (bytes : List Byte) : CookedState :=
  { read := { host := { inputQueue := bytes } }, screen := some smallScreen }

/-- A letter and Left. -/
theorem echo_mirrors_left :
    ∃ after shown, TakesTokens .utf8 ⟨fun _ _ => false⟩ echoCall
        (echoState [97, 0x1b, 0x5b, 0x44]) [.textUnits [97], .keyEvent { virtualKeyCode := 37 }]
        (.next after) ∧
      after.screen = some shown ∧
      shown.Mirrors smallScreen.cursorView 1 (editLine after.read.handle) := by
  have takes : ∃ after, TakesTokens .utf8 ⟨fun _ _ => false⟩ echoCall
      (echoState [97, 0x1b, 0x5b, 0x44]) [.textUnits [97], .keyEvent { virtualKeyCode := 37 }]
      (.next after) := by
    refine ⟨_, @TakesTokens.more _ _ _ _ _ _ 1 _ _ rfl rfl (@TakesTokens.last _ _ _ _ _ 3 rfl)⟩
  rcases takes with ⟨after, takes⟩
  have strokes : [Token.textUnits [97], .keyEvent { virtualKeyCode := 37 }].flatMap
      (Token.strokes true) = [.type 97, .press .leftKey false 1] := by decide
  have glyph : IsGlyph 97 := ⟨by decide, by decide, by decide⟩
  rcases echo_mirrors .utf8 ⟨fun _ _ => false⟩ echoCall _ after smallScreen _
    (ScreenBuffer.create_wellFormed ⟨by decide, by decide, by decide, by decide⟩) rfl rfl
    ⟨by decide, by decide, by decide⟩ rfl rfl
    (by
      intro stroke member
      rw [show echoCall.mode.processedInput = true by decide, strokes] at member
      rcases List.mem_cons.mp member with rfl | member
      · exact .inr glyph
      · cases List.mem_singleton.mp member
        exact trivial)
    (by exact ⟨rfl, rfl, trivial⟩) (by simp only [View.Fits]; decide) takes with
    ⟨shown, screen, mirrors⟩
  exact ⟨after, shown, takes, screen, mirrors⟩

/-- A backspace at the left edge leaves the cursor and the erased letter where they are. -/
theorem not_echo_mirrors :
    ∃ after shown, TakesTokens .utf8 ⟨fun _ _ => false⟩ echoCall (echoState [97, 98, 8])
        [.textUnits [97], .textUnits [98], .textUnits [8]] (.next after) ∧
      after.screen = some shown ∧
      editLine after.read.handle = ⟨[97], 1, true⟩ ∧
      shown.cells.map ScreenCell.character = [0x20, 97, 98, 0x20, 0x20, 0x20] ∧
      shown.regs.cursor = ⟨0, 1⟩ := by
  refine ⟨_, _, @TakesTokens.more _ _ _ _ _ _ 1 _ _ rfl rfl
    (@TakesTokens.more _ _ _ _ _ _ 1 _ _ rfl rfl (@TakesTokens.last _ _ _ _ _ 1 rfl)), rfl, rfl,
    ?_, ?_⟩
  · rfl
  · rfl

end Cooked

end Conhost
