import Conhost.Core.Utf8Stream
import Conhost.Lib.Unicode

/-!
# What the streaming decoder returns

Well-formed text comes out exactly, however it is cut. A malformed byte more
than three bytes before the end of the buffer makes every attempt at a bulk
conversion fail, and the decoder then replaces the first byte of the buffer,
which may belong to a valid character.
-/

namespace Conhost

/-- `MultiByteToWideChar` with `MB_ERR_INVALID_CHARS` converts well-formed UTF-8 and nothing
else. -/
structure Platform.AcceptsWellFormedUtf8 (platform : Platform) : Prop where
  converts : ∀ text, platform.multiByteToWideChar cpUtf8 true (utf8Code.encode text) =
    utf16Code.encode text
  rejects : ∀ bytes, ¬ utf8Code.WellFormed bytes →
    platform.multiByteToWideChar cpUtf8 true bytes = []

open Classical in
/-- A platform that converts UTF-8 exactly, whatever the flags. -/
noncomputable def Platform.exactUtf8 : Platform where
  isDbcsLeadByteEx _ _ := false
  multiByteToWideChar _ _ bytes :=
    if wellFormed : utf8Code.WellFormed bytes then utf16Code.encode wellFormed.choose else []
  wideCharToMultiByte _ units := utf16ToUtf8 units

theorem Platform.exactUtf8_accepts : Platform.exactUtf8.AcceptsWellFormedUtf8 where
  converts text := by
    have wellFormed : utf8Code.WellFormed (utf8Code.encode text) := ⟨text, rfl⟩
    have same : wellFormed.choose = text := utf8Code.encode_injective wellFormed.choose_spec.symm
    simp only [exactUtf8, dif_pos wellFormed, same]
  rejects bytes malformed := dif_neg malformed

namespace Utf8Stream

theorem expectedLength_eq_some_iff {lead : Byte} {expected : Nat} :
    expectedLength lead = some expected ↔
      expected = 2 ∧ 0xc2 ≤ lead.toNat ∧ lead.toNat < 0xe0 ∨
        expected = 3 ∧ 0xe0 ≤ lead.toNat ∧ lead.toNat < 0xf0 ∨
        expected = 4 ∧ 0xf0 ≤ lead.toNat ∧ lead.toNat < 0xf5 := by
  simp only [expectedLength, Bool.and_eq_true, decide_eq_true_eq, UInt8.le_iff_toNat_le,
    UInt8.toNat_ofNat]
  split
  · simp only [Option.some.injEq]
    omega
  · split
    · simp only [Option.some.injEq]
      omega
    · split
      · simp only [Option.some.injEq]
        omega
      · simp only [reduceCtorEq, false_iff]
        omega

theorem isUtf8ContinuationByte_iff {value : Byte} :
    isUtf8ContinuationByte value = true ↔ 0x80 ≤ value.toNat ∧ value.toNat < 0xc0 := by
  simp only [isUtf8ContinuationByte, Bool.and_eq_true, decide_eq_true_eq, UInt8.le_iff_toNat_le,
    UInt8.toNat_ofNat]
  omega

theorem firstContinuationInRange_iff {lead second : Byte}
    (continuation : 0x80 ≤ second.toNat ∧ second.toNat < 0xc0) :
    firstContinuationInRange lead second = true ↔ SecondByte lead.toNat second.toNat := by
  simp only [firstContinuationInRange, SecondByte, Bool.and_eq_true, Bool.not_eq_true',
    Bool.and_eq_false_iff, beq_eq_false_iff_ne, decide_eq_false_iff_not, UInt8.lt_iff_toNat_lt,
    ne_eq, ← UInt8.toNat_inj, UInt8.toNat_ofNat]
  omega

/-- A beginning of a sequence is recognized by the lead byte and the ranges of the others. -/
theorem looksLikeIncompleteUtf8Sequence_of_split {lead second : Byte}
    {later continuation more : List Byte}
    (announced : expectedLength lead = some (later.length + 2))
    (range : SecondByte lead.toNat second.toNat)
    (tail : ∀ byte ∈ later, 0x80 ≤ byte.toNat ∧ byte.toNat < 0xc0)
    (split : continuation ++ more = second :: later) (cut : more ≠ []) :
    looksLikeIncompleteUtf8Sequence (lead :: continuation) = true := by
  have size := congrArg List.length split
  have positive := List.length_pos_of_ne_nil cut
  simp only [List.length_append, List.length_cons] at size
  have continues : 0x80 ≤ second.toNat ∧ second.toNat < 0xc0 := ⟨range.1, range.2.1⟩
  have all : ∀ byte ∈ continuation, isUtf8ContinuationByte byte = true := by
    intro byte mem
    rw [isUtf8ContinuationByte_iff]
    have inside : byte ∈ second :: later := by
      rw [← split]
      exact List.mem_append_left _ mem
    rcases List.mem_cons.mp inside with rfl | mem
    · exact continues
    · exact tail byte mem
  have first : continuation.head?.all (firstContinuationInRange lead) = true := by
    cases continuation with
    | nil => rfl
    | cons byte rest =>
        cases split
        exact (firstContinuationInRange_iff continues).mpr range
  simp only [looksLikeIncompleteUtf8Sequence, announced, Bool.and_eq_true, decide_eq_true_eq,
    List.all_eq_true]
  exact ⟨⟨by omega, all⟩, first⟩

/-- A second byte that fits the lead byte. -/
theorem exists_secondByte (lead : Byte) :
    ∃ second : Byte, SecondByte lead.toNat second.toNat := by
  by_cases low : lead.toNat = 0xed ∨ lead.toNat = 0xf4
  · refine ⟨0x80, ?_⟩
    change SecondByte lead.toNat 0x80
    simp only [SecondByte]
    omega
  · refine ⟨0xa0, ?_⟩
    change SecondByte lead.toNat 0xa0
    simp only [SecondByte]
    omega

theorem utf8Sequence_of_announced {lead second : Byte} (later : List Byte) {expected : Nat}
    (announced : expectedLength lead = some expected) (length : later.length + 2 = expected)
    (range : SecondByte lead.toNat second.toNat)
    (tail : ∀ byte ∈ later, 0x80 ≤ byte.toNat ∧ byte.toNat < 0xc0) :
    Utf8Sequence (lead :: second :: later) := by
  rcases expectedLength_eq_some_iff.mp announced with ⟨rfl, low, high⟩ | ⟨rfl, low, high⟩ |
    ⟨rfl, low, high⟩
  · match later, length with
    | [], _ => exact .two ⟨low, high⟩ range
  · match later, length with
    | [third], _ => exact .three ⟨low, high⟩ range (tail third (by simp))
  · match later, length with
    | [third, fourth], _ =>
        exact .four ⟨low, high⟩ range (tail third (by simp)) (tail fourth (by simp))

/-- The beginnings of a character that are kept for the next call. -/
theorem looksLikeIncompleteUtf8Sequence_iff {bytes : List Byte} :
    looksLikeIncompleteUtf8Sequence bytes = true ↔
      bytes ≠ [] ∧ ∃ char more, more ≠ [] ∧ utf8Code.word char = bytes ++ more := by
  constructor
  · intro looks
    cases bytes with
    | nil => cases looks
    | cons lead continuation =>
        refine ⟨by simp, ?_⟩
        simp only [looksLikeIncompleteUtf8Sequence] at looks
        split at looks
        · cases looks
        · rename_i expected announced
          have above := expectedLength_eq_some_iff.mp announced
          simp only [Bool.and_eq_true, decide_eq_true_eq, List.all_eq_true] at looks
          obtain ⟨⟨short, all⟩, first⟩ := looks
          have filler (count : Nat) : ∀ byte ∈ List.replicate count (0x80 : Byte),
              0x80 ≤ byte.toNat ∧ byte.toNat < 0xc0 := by
            intro byte mem
            rw [List.eq_of_mem_replicate mem]
            exact ⟨Nat.le_refl _, by decide⟩
          cases continuation with
          | nil =>
              obtain ⟨second, range⟩ := exists_secondByte lead
              obtain ⟨char, word⟩ := exists_word_of_utf8Sequence
                (utf8Sequence_of_announced _ announced (by
                  rw [List.length_replicate]
                  exact Nat.sub_add_cancel (by omega)) range (filler (expected - 2)))
              exact ⟨char, _, by simp, word⟩
          | cons second later =>
              have continues := isUtf8ContinuationByte_iff.mp (all second (by simp))
              have range := (firstContinuationInRange_iff continues).mp first
              simp only [List.length_cons] at short
              obtain ⟨char, word⟩ := exists_word_of_utf8Sequence
                (utf8Sequence_of_announced
                  (later ++ List.replicate (expected - later.length - 2) 0x80) announced (by
                  rw [List.length_append, List.length_replicate]
                  omega) range (by
                  intro byte mem
                  rcases List.mem_append.mp mem with mem | mem
                  · exact isUtf8ContinuationByte_iff.mp (all byte (List.mem_cons_of_mem _ mem))
                  · exact filler _ byte mem))
              refine ⟨char, _, ?_, word⟩
              rw [ne_eq, List.replicate_eq_nil_iff]
              omega
  · rintro ⟨begun, char, more, cut, split⟩
    obtain ⟨lead, continuation, rfl⟩ := List.exists_cons_of_ne_nil begun
    have sequence := utf8Sequence_word char
    rw [split, List.cons_append] at sequence
    generalize whole : continuation ++ more = rest at sequence
    cases sequence with
    | one lead =>
        simp [cut] at whole
    | two lead range =>
        refine looksLikeIncompleteUtf8Sequence_of_split ?_ range (by simp) whole cut
        rw [expectedLength_eq_some_iff]
        exact .inl ⟨rfl, lead⟩
    | three lead range tail =>
        refine looksLikeIncompleteUtf8Sequence_of_split ?_ range (by simpa using tail) whole cut
        rw [expectedLength_eq_some_iff]
        exact .inr (.inl ⟨rfl, lead⟩)
    | four lead range tail last =>
        refine looksLikeIncompleteUtf8Sequence_of_split ?_ range (by simpa using ⟨tail, last⟩)
          whole cut
        rw [expectedLength_eq_some_iff]
        exact .inr (.inr ⟨rfl, lead⟩)

abbrev Item := SymbolCode.Item Char Byte

/-- The UTF-16 units an item stands for. -/
def units : Item → List WChar
  | .symbol char => utf16Code.word char
  | .malformed _ => [0xfffd]

theorem units_text (text : List Char) :
    (text.map SymbolCode.Item.symbol).flatMap units = utf16Code.encode text := by
  rw [List.flatMap_map]
  rfl

theorem waiting_iff {unread : List Byte} (nonempty : unread ≠ []) :
    utf8Code.items.Waiting unread ↔ looksLikeIncompleteUtf8Sequence unread = true := by
  rw [utf8Code.items_waiting_iff_cut, looksLikeIncompleteUtf8Sequence_iff]
  simp [nonempty]

theorem length_word_le (char : Char) : (utf8Code.word char).length ≤ 4 := by
  rw [utf8Code_word, String.length_utf8EncodeChar]
  exact char.utf8Size_le_four

theorem length_lt_of_waiting {unread : List Byte} (waiting : utf8Code.items.Waiting unread) :
    unread.length ≤ 3 := by
  rcases utf8Code.items_waiting_iff_cut.mp waiting with rfl | ⟨char, more, cut, split⟩
  · simp
  · have size := congrArg List.length split
    have short := length_word_le char
    have positive := List.length_pos_of_ne_nil cut
    rw [List.length_append] at size
    omega

variable {platform : Platform}

theorem tryDecode_wellFormed (accepts : platform.AcceptsWellFormedUtf8) {unread : List Byte}
    {prefixLen : Nat} {decoded : List WChar}
    (converted : tryDecode platform unread prefixLen = some decoded) :
    ∃ text, text ≠ [] ∧ unread.take prefixLen = utf8Code.encode text ∧
      decoded = utf16Code.encode text := by
  obtain ⟨-, -, nonempty, result⟩ := tryDecode_some converted
  have wellFormed : utf8Code.WellFormed (unread.take prefixLen) := by
    by_contra malformed
    rw [accepts.rejects _ malformed] at result
    exact nonempty result.symm
  obtain ⟨text, taken⟩ := wellFormed
  rw [taken, accepts.converts] at result
  refine ⟨text, ?_, taken, result.symm⟩
  rintro rfl
  exact nonempty result.symm

theorem tryDecode_encode (accepts : platform.AcceptsWellFormedUtf8) {unread : List Byte}
    {prefixLen : Nat} {text : List Char} (taken : unread.take prefixLen = utf8Code.encode text)
    (nonempty : text ≠ []) (bound : prefixLen ≤ intMax) :
    tryDecode platform unread prefixLen = some (utf16Code.encode text) := by
  have positive : prefixLen ≠ 0 := by
    rintro rfl
    rw [List.take_zero] at taken
    exact nonempty (utf8Code.encode_eq_nil.mp taken.symm)
  have units : utf16Code.encode text ≠ [] := by
    rwa [ne_eq, utf16Code.encode_eq_nil]
  rw [tryDecode, if_neg (by omega), taken, accepts.converts]
  split
  · rename_i empty
    exact absurd empty units
  · rfl

/-- What a pass over unread bytes does. -/
inductive Step (platform : Platform) (loop : LoopState) : Pass LoopState LoopState → Prop where
  | text {text : List Char} {later : List Byte} (nonempty : text ≠ [])
      (split : loop.unread = utf8Code.encode text ++ later)
      (short : later.length ≤ 3 ∨ intMax < loop.unread.length) :
      Step platform loop (.next ⟨later, loop.output ++ utf16Code.encode text⟩)
  | keep (waiting : utf8Code.items.Waiting loop.unread) : Step platform loop (.leave loop)
  | replace {byte : Byte} {later : List Byte} (split : loop.unread = byte :: later)
      (stuck : ¬ utf8Code.items.Waiting loop.unread)
      (far : ∀ text rest, text ≠ [] →
        loop.unread.take intMax = utf8Code.encode text ++ rest → 3 < rest.length) :
      Step platform loop (.next ⟨later, loop.output ++ [0xfffd]⟩)

theorem body_step (accepts : platform.AcceptsWellFormedUtf8) (loop : LoopState) :
    Step platform loop (body platform loop) := by
  rw [body]
  split
  · rename_i empty
    refine .keep ?_
    rw [utf8Code.items_waiting_iff]
    exact .inl empty
  · rename_i nonempty
    dsimp only
    split
    · rename_i decoded converted
      obtain ⟨text, some, taken, rfl⟩ := tryDecode_wellFormed accepts converted
      refine .text some ?_ ?_
      · rw [← taken, List.take_append_drop]
      · rw [List.length_drop]
        omega
    · rename_i whole
      split
      · rename_i prefixLen decoded trimmed
        obtain ⟨shorter, close, converted⟩ := tryTrimmed_some trimmed
        obtain ⟨text, some, taken, rfl⟩ := tryDecode_wellFormed accepts converted
        refine .text some ?_ ?_
        · rw [← taken, List.take_append_drop]
        · rw [List.length_drop]
          omega
      · rename_i trimmed
        split
        · rename_i incomplete
          refine .keep ?_
          rw [waiting_iff nonempty]
          rw [List.take_of_length_le (by
            have large : 3 < intMax := by decide
            omega)] at incomplete
          exact incomplete.2
        · rename_i complete
          obtain ⟨byte, later, split⟩ := List.exists_cons_of_ne_nil nonempty
          have advanced : loop.advance 1 [0xfffd] = ⟨later, loop.output ++ [0xfffd]⟩ := by
            rw [LoopState.advance, split, List.drop_one, List.tail_cons]
          rw [advanced]
          refine .replace split ?_ ?_
          · intro waiting
            have short := length_lt_of_waiting waiting
            have large : 3 < intMax := by decide
            rw [waiting_iff nonempty] at waiting
            rw [List.take_of_length_le (by omega)] at complete
            exact complete ⟨by omega, waiting⟩
          · intro text rest some taken
            by_contra near
            have size := congrArg List.length taken
            rw [List.length_take, List.length_append] at size
            have before : loop.unread.take (utf8Code.encode text).length =
                utf8Code.encode text := by
              have inside : utf8Code.encode text <+: loop.unread.take intMax := ⟨rest, taken.symm⟩
              exact (List.prefix_iff_eq_take.mp (inside.trans (List.take_prefix _ _))).symm
            have converted := tryDecode_encode accepts before some (by omega)
            by_cases all : rest = []
            · subst all
              rw [List.length_nil] at size
              rw [Nat.min_comm, size, Nat.add_zero, converted] at whole
              cases whole
            · have positive := List.length_pos_of_ne_nil all
              rw [tryTrimmed_none trimmed (by omega) (by omega)] at converted
              cases converted

/-- Every character with more than three bytes after it is followed by a character. -/
def Steady (bytes : List Byte) : Prop :=
  ∀ before char rest, bytes = before ++ utf8Code.word char ++ rest → 3 < rest.length →
    ∃ next, utf8Code.word next <+: rest

theorem Steady.part {bytes part : List Byte} (steady : Steady bytes) (inside : part <:+: bytes) :
    Steady part := by
  intro before char rest split long
  obtain ⟨earlier, later, rfl⟩ := inside
  obtain ⟨next, found⟩ := steady (earlier ++ before) char (rest ++ later) (by
    rw [split]
    simp only [List.append_assoc]) (by
    rw [List.length_append]
    omega)
  refine ⟨next, List.prefix_of_prefix_length_le found (List.prefix_append _ _) ?_⟩
  have short := length_word_le next
  omega

theorem Steady.of_length_le {bytes : List Byte} (short : bytes.length ≤ 4) : Steady bytes := by
  intro before char rest split long
  have size := congrArg List.length split
  have positive := List.length_pos_of_ne_nil (utf8Code.word_ne_nil char)
  simp only [List.length_append] at size
  omega

/-- What follows a character inside a text is a text. -/
theorem exists_encode_of_split {text : List Char} {char : Char} {before rest : List Byte}
    (split : utf8Code.encode text = before ++ utf8Code.word char ++ rest) :
    ∃ following, rest = utf8Code.encode following := by
  have reads : utf8Code.items.Reads (utf8Code.encode text) (text.map .symbol) [] := by
    simpa using utf8Code.reads_encode text []
  have stopped : utf8Code.items.Waiting ([] : List Byte) :=
    utf8Code.items_waiting_iff.mpr (.inl rfl)
  obtain ⟨earlier, later, symbols, rfl⟩ := utf8Code.symbol_of_reads reads stopped split
  obtain ⟨first, second, rfl, rfl, tail⟩ := List.map_eq_append_iff.mp symbols
  obtain ⟨_, following, rfl, same, rfl⟩ := List.map_eq_cons_iff.mp tail
  cases same
  have letters : (first.map SymbolCode.Item.symbol).flatMap utf8Code.itemLetters =
      utf8Code.encode first := List.flatMap_map ..
  rw [letters, utf8Code.encode_append, utf8Code.encode_cons, List.append_assoc,
    List.append_cancel_left_eq, List.append_cancel_left_eq] at split
  exact ⟨following, split.symm⟩

/-- Text is steady, also with an unfinished end. -/
theorem steady_encode_append (text : List Char) {later : List Byte} (short : later.length ≤ 3) :
    Steady (utf8Code.encode text ++ later) := by
  intro before char rest split long
  have size := congrArg List.length split
  simp only [List.length_append] at size
  have inside : before ++ utf8Code.word char <+: utf8Code.encode text := by
    refine List.prefix_of_prefix_length_le ?_ (List.prefix_append _ later) (by
      rw [List.length_append]
      omega)
    rw [split]
    exact List.prefix_append _ _
  obtain ⟨middle, whole⟩ := inside
  rw [← whole, List.append_assoc, List.append_assoc, List.append_assoc,
    List.append_cancel_left_eq, List.append_cancel_left_eq] at split
  obtain ⟨following, rfl⟩ := exists_encode_of_split whole.symm
  cases following with
  | nil =>
      rw [← split] at long
      simp only [utf8Code.encode_nil, List.nil_append] at long
      omega
  | cons next following =>
      refine ⟨next, ?_⟩
      rw [← split, utf8Code.encode_cons, List.append_assoc]
      exact List.prefix_append _ _

/-- The first byte of steady bytes is replaced only if it is malformed. -/
theorem first?_of_far {unread : List Byte} (steady : Steady unread)
    (far : ∀ text rest, text ≠ [] →
      unread.take intMax = utf8Code.encode text ++ rest → 3 < rest.length) :
    utf8Code.first? unread = none := by
  obtain ⟨text, rest, split, none⟩ := utf8Code.exists_text (unread.take intMax)
  have large : 4 ≤ intMax := by decide
  rw [utf8Code.first?_eq_none_iff] at none ⊢
  intro char found
  have short := length_word_le char
  rcases List.eq_nil_or_concat text with rfl | ⟨earlier, last, rfl⟩
  · refine none char ?_
    rw [utf8Code.encode_nil, List.nil_append] at split
    rw [← split, List.prefix_take_iff]
    exact ⟨found, by omega⟩
  · have long := far _ _ (by simp) split
    obtain ⟨next, following⟩ := steady (utf8Code.encode earlier) last (rest ++ unread.drop intMax)
      (by
        conv_lhs => rw [← List.take_append_drop intMax unread, split]
        simp) (by
        rw [List.length_append]
        omega)
    have short' := length_word_le next
    exact none next (List.prefix_of_prefix_length_le following (List.prefix_append _ _) (by omega))

/-- Steady bytes are decoded item by item. -/
theorem run_steady (accepts : platform.AcceptsWellFormedUtf8) {unread rest : List Byte}
    {read : List Item} (steady : Steady unread) (reads : utf8Code.items.Reads unread read rest)
    (stopped : utf8Code.items.Waiting rest) (output : List WChar) :
    (decodeLoop platform).run ⟨unread, output⟩ = ⟨rest, output ++ read.flatMap units⟩ := by
  let Holds (loop final : LoopState) : Prop := Steady loop.unread →
    ∀ read rest, utf8Code.items.Reads loop.unread read rest → utf8Code.items.Waiting rest →
      final = ⟨rest, loop.output ++ read.flatMap units⟩
  suffices holds : Holds ⟨unread, output⟩ ((decodeLoop platform).run ⟨unread, output⟩) from
    holds steady read rest reads stopped
  apply (decodeLoop platform).run_induction
  · intro loop final pass steady read rest reads stopped
    change body platform loop = .leave final at pass
    have step := body_step accepts loop
    rw [pass] at step
    cases step with
    | keep waiting =>
        obtain ⟨rfl, rfl⟩ := reads.eq_nil_of_waiting waiting
        simp
  · intro loop next final pass holds steady read rest reads stopped
    change body platform loop = .next next at pass
    have step := body_step accepts loop
    rw [pass] at step
    cases step with
    | @text text later nonempty split short =>
        have front := utf8Code.reads_encode text later
        rw [← split] at front
        obtain ⟨further, rfl, more⟩ := front.resume reads stopped
        have suffix : later <:+: loop.unread := by
          rw [split]
          exact (List.suffix_append _ _).isInfix
        rw [holds (steady.part suffix) further rest more stopped, List.flatMap_append,
          units_text, List.append_assoc]
    | @replace byte later split stuck far =>
        have none := first?_of_far steady far
        have malformed : ¬ utf8Code.Begins loop.unread := by
          intro begins
          exact stuck (utf8Code.items_waiting_iff.mpr (.inr ⟨none, begins⟩))
        rw [split] at none malformed
        have decoded : utf8Code.items.decode loop.unread = .token (.malformed byte) 1 := by
          rw [split]
          exact utf8Code.decodeItem_malformed none malformed
        have suffix : later <:+: loop.unread := by
          rw [split]
          exact (List.suffix_cons _ _).isInfix
        cases reads with
        | done => exact absurd stopped stuck
        | step decoded' more =>
            rw [decoded] at decoded'
            cases decoded'
            rw [split, List.drop_one, List.tail_cons] at more
            rw [holds (steady.part suffix) _ rest more stopped]
            simp [units]

/-- A character has fewer replacements than bytes. -/
theorem count_word_lt (char : Char) :
    (utf16Code.word char).count 0xfffd < (utf8Code.word char).length := by
  have positive := List.length_pos_of_ne_nil (utf8Code.word_ne_nil char)
  rw [utf16Code_word]
  rcases utf16Units_cases char with ⟨unit, one, value, -⟩ | ⟨high, low, two, highValue, lowValue,
    above, below⟩
  · rw [one]
    by_cases replaced : unit = 0xfffd
    · have large : char.toNat = 0xfffd := by
        rw [← value, replaced]
        rfl
      have long : 1 < (utf8Code.word char).length := by
        have same : char = Char.ofNat 0xfffd := by
          apply Char.toNat_inj.mp
          rw [large]
          rfl
        rw [same]
        decide
      rw [replaced]
      simpa using long
    · simpa [List.count_singleton, replaced] using positive
  · have noHigh : high ≠ 0xfffd := by
      rintro rfl
      change 0xfffd = _ at highValue
      omega
    have noLow : low ≠ 0xfffd := by
      rintro rfl
      change 0xfffd = _ at lowValue
      omega
    rw [two]
    simpa [List.count_cons, noHigh, noLow] using positive

def replacements (output : List WChar) : Nat := output.count 0xfffd

@[simp]
theorem replacements_append (first second : List WChar) :
    replacements (first ++ second) = replacements first + replacements second :=
  List.count_append

theorem replacements_malformed (bytes : List Byte) :
    replacements ((bytes.map (SymbolCode.Item.malformed : Byte → Item)).flatMap units) =
      bytes.length := by
  induction bytes with
  | nil => rfl
  | cons byte bytes ih =>
      rw [List.map_cons, List.flatMap_cons, replacements_append, ih, List.length_cons]
      change 1 + bytes.length = _
      omega

/-- The items behind a byte that is replaced: what the byte belongs to counts less. -/
theorem reads_replaced {byte : Byte} {later rest : List Byte} {read : List Item}
    (reads : utf8Code.items.Reads (byte :: later) read rest)
    (stopped : utf8Code.items.Waiting rest) (stuck : ¬ utf8Code.items.Waiting (byte :: later)) :
    ∃ further, utf8Code.items.Reads later further rest ∧
      replacements (read.flatMap units) ≤ 1 + replacements (further.flatMap units) ∧
        (utf8Code.first? (byte :: later) ≠ none →
          replacements (read.flatMap units) < 1 + replacements (further.flatMap units)) := by
  cases reads with
  | done => exact absurd stopped stuck
  | @step _ item length read _ decoded more =>
      rcases utf8Code.decodeItem_token decoded with
        ⟨char, ⟨tail, split⟩, rfl, rfl⟩ | ⟨_, _, same, rfl, rfl, none, -⟩
      · rw [← split, List.drop_left] at more
        obtain ⟨first, inside, word⟩ := List.exists_cons_of_ne_nil (utf8Code.word_ne_nil char)
        have later' : later = inside ++ tail := by
          rw [word] at split
          exact (List.cons.inj split).2.symm
        have malformed : utf8Code.Inside inside := by
          intro letter mem
          exact ⟨char, by rw [word]; exact mem⟩
        have fewer := count_word_lt char
        rw [word, List.length_cons] at fewer
        refine ⟨inside.map .malformed ++ read, ?_, ?_⟩
        · rw [later']
          exact (utf8Code.reads_inside malformed tail).trans more
        · have counted : replacements ((SymbolCode.Item.symbol char :: read).flatMap units) =
              (utf16Code.word char).count 0xfffd + replacements (read.flatMap units) := by
            rw [List.flatMap_cons, replacements_append]
            rfl
          rw [counted, List.flatMap_append, replacements_append, replacements_malformed]
          exact ⟨by omega, fun _ => by omega⟩
      · cases same
        refine ⟨read, more, ?_, fun some => absurd none some⟩
        rw [List.flatMap_cons, replacements_append]
        exact Nat.le_refl _

/-- In any case the loop stops where the items stop, and replaces at least what is malformed;
unless the bytes are steady it replaces more. -/
theorem run_replaces (accepts : platform.AcceptsWellFormedUtf8) {unread rest : List Byte}
    {read : List Item} (reads : utf8Code.items.Reads unread read rest)
    (stopped : utf8Code.items.Waiting rest) (output : List WChar) :
    ((decodeLoop platform).run ⟨unread, output⟩).unread = rest ∧
      replacements (output ++ read.flatMap units) ≤
        replacements ((decodeLoop platform).run ⟨unread, output⟩).output ∧
      (¬ Steady unread → unread.length ≤ intMax → replacements (output ++ read.flatMap units) <
        replacements ((decodeLoop platform).run ⟨unread, output⟩).output) := by
  let Holds (loop final : LoopState) : Prop :=
    ∀ read rest, utf8Code.items.Reads loop.unread read rest → utf8Code.items.Waiting rest →
      final.unread = rest ∧
        replacements (loop.output ++ read.flatMap units) ≤ replacements final.output ∧
        (¬ Steady loop.unread → loop.unread.length ≤ intMax →
          replacements (loop.output ++ read.flatMap units) < replacements final.output)
  suffices holds : Holds ⟨unread, output⟩ ((decodeLoop platform).run ⟨unread, output⟩) from
    holds read rest reads stopped
  apply (decodeLoop platform).run_induction
  · intro loop final pass read rest reads stopped
    change body platform loop = .leave final at pass
    have step := body_step accepts loop
    rw [pass] at step
    cases step with
    | keep waiting =>
        obtain ⟨rfl, rfl⟩ := reads.eq_nil_of_waiting waiting
        have short := length_lt_of_waiting waiting
        exact ⟨rfl, by simp, fun unsteady => absurd (.of_length_le (by omega)) unsteady⟩
  · intro loop next final pass holds read rest reads stopped
    change body platform loop = .next next at pass
    have step := body_step accepts loop
    rw [pass] at step
    cases step with
    | @text text later nonempty split short =>
        have front := utf8Code.reads_encode text later
        rw [← split] at front
        obtain ⟨further, rfl, more⟩ := front.resume reads stopped
        obtain ⟨same, bound, -⟩ := holds further rest more stopped
        rw [List.flatMap_append, units_text, ← List.append_assoc]
        refine ⟨same, bound, ?_⟩
        intro unsteady fits
        rcases short with short | long
        · rw [split] at unsteady
          exact absurd (steady_encode_append text short) unsteady
        · omega
    | @replace byte later split stuck far =>
        rw [split] at reads stuck
        obtain ⟨further, more, bound, strict⟩ := reads_replaced reads stopped stuck
        obtain ⟨same, bound', strict'⟩ := holds further rest more stopped
        simp only [replacements_append] at bound' strict' ⊢
        have one : replacements [0xfffd] = 1 := rfl
        refine ⟨same, by omega, ?_⟩
        intro unsteady fits
        by_cases none : utf8Code.first? (byte :: later) = none
        · have later' : ¬ Steady later := by
            intro steady
            refine unsteady ?_
            rw [split]
            intro before char rest split' long
            cases before with
            | nil =>
                rw [split', List.nil_append, utf8Code.first?_word_append] at none
                cases none
            | cons first before =>
                exact steady before char rest (List.cons.inj split').2 long
          rw [split, List.length_cons] at fits
          have more := strict' later' (by omega)
          omega
        · have fewer := strict none
          omega

theorem decodeAll_append (chunks later : List (List Byte)) (pending : List Byte) :
    decodeAll platform (chunks ++ later) pending =
      ((decodeAll platform chunks pending).1 ++
          (decodeAll platform later (decodeAll platform chunks pending).2).1,
        (decodeAll platform later (decodeAll platform chunks pending).2).2) := by
  induction chunks generalizing pending with
  | nil => rfl
  | cons chunk chunks ih =>
      simp only [List.cons_append, decodeAll, ih, List.append_assoc]

/-- The items of a chunk, and of what follows it. -/
theorem reads_chunk {pending chunk future rest : List Byte} {read : List Item}
    (reads : utf8Code.items.Reads (pending ++ (chunk ++ future)) read rest)
    (stopped : utf8Code.items.Waiting rest) :
    ∃ first further middle, read = first ++ further ∧
      utf8Code.items.Reads (pending ++ chunk) first middle ∧ utf8Code.items.Waiting middle ∧
        utf8Code.items.Reads (middle ++ future) further rest := by
  obtain ⟨first, middle, front, waiting⟩ := utf8Code.items.exists_reads (pending ++ chunk)
  have whole := front.append future
  rw [List.append_assoc] at whole
  obtain ⟨further, rfl, more⟩ := whole.resume reads stopped
  exact ⟨first, further, middle, rfl, front, waiting, more⟩

theorem decodeAll_steady (accepts : platform.AcceptsWellFormedUtf8) {chunks : List (List Byte)}
    {pending rest : List Byte} {read : List Item} (steady : Steady (pending ++ chunks.flatten))
    (waiting : utf8Code.items.Waiting pending)
    (reads : utf8Code.items.Reads (pending ++ chunks.flatten) read rest)
    (stopped : utf8Code.items.Waiting rest) :
    decodeAll platform chunks pending = (read.flatMap units, rest) := by
  induction chunks generalizing pending read with
  | nil =>
      rw [List.flatten_nil, List.append_nil] at reads
      obtain ⟨rfl, rfl⟩ := reads.eq_nil_of_waiting waiting
      rfl
  | cons chunk later ih =>
      obtain ⟨first, further, middle, rfl, front, waiting', more⟩ := reads_chunk reads stopped
      have buffer : Steady (pending ++ chunk) := by
        refine steady.part ⟨[], later.flatten, ?_⟩
        simp
      have remains : Steady (middle ++ later.flatten) := by
        obtain ⟨done, whole⟩ := front.suffix
        refine steady.part ⟨done, [], ?_⟩
        rw [List.append_nil, ← List.append_assoc, whole, List.append_assoc, List.flatten_cons]
      have run := run_steady accepts buffer front waiting' []
      rw [decodeAll, decodeAppend, run]
      dsimp only
      rw [ih remains waiting' more]
      simp

/-- Chunks of one byte are decoded item by item. -/
theorem decodeAll_singletons (accepts : platform.AcceptsWellFormedUtf8) {bytes : List Byte}
    {pending rest : List Byte} {read : List Item} (waiting : utf8Code.items.Waiting pending)
    (reads : utf8Code.items.Reads (pending ++ bytes) read rest)
    (stopped : utf8Code.items.Waiting rest) :
    decodeAll platform (bytes.map ([·])) pending = (read.flatMap units, rest) := by
  induction bytes generalizing pending read with
  | nil =>
      rw [List.append_nil] at reads
      obtain ⟨rfl, rfl⟩ := reads.eq_nil_of_waiting waiting
      rfl
  | cons byte later ih =>
      rw [← List.singleton_append] at reads
      obtain ⟨first, further, middle, rfl, front, waiting', more⟩ := reads_chunk reads stopped
      have short := length_lt_of_waiting waiting
      have buffer : Steady (pending ++ [byte]) := .of_length_le (by
        rw [List.length_append, List.length_singleton]
        omega)
      have run := run_steady accepts buffer front waiting' []
      rw [List.map_cons, decodeAll, decodeAppend, run]
      dsimp only
      rw [ih waiting' more]
      simp

/-- However the bytes are cut, at least what is malformed is replaced. -/
theorem decodeAll_replaces (accepts : platform.AcceptsWellFormedUtf8) {chunks : List (List Byte)}
    {pending rest : List Byte} {read : List Item} (waiting : utf8Code.items.Waiting pending)
    (reads : utf8Code.items.Reads (pending ++ chunks.flatten) read rest)
    (stopped : utf8Code.items.Waiting rest) :
    replacements (read.flatMap units) ≤ replacements (decodeAll platform chunks pending).1 := by
  induction chunks generalizing pending read with
  | nil =>
      rw [List.flatten_nil, List.append_nil] at reads
      obtain ⟨rfl, rfl⟩ := reads.eq_nil_of_waiting waiting
      exact Nat.le_refl _
  | cons chunk later ih =>
      obtain ⟨first, further, middle, rfl, front, waiting', more⟩ := reads_chunk reads stopped
      obtain ⟨same, bound, -⟩ := run_replaces accepts front waiting' []
      have bound' := ih waiting' more
      rw [decodeAll, decodeAppend]
      dsimp only
      rw [same, List.flatMap_append, replacements_append, replacements_append]
      rw [List.nil_append] at bound
      omega

/-- A well-formed UTF-8 sequence comes out as its UTF-16 encoding, in whatever chunks it arrives,
and nothing stays pending. -/
theorem decodeAll_encode (platform : Platform) (accepts : platform.AcceptsWellFormedUtf8)
    (text : List Char) (chunks : List (List Byte))
    (whole : chunks.flatten = utf8Code.encode text) :
    decodeAll platform chunks [] = (utf16Code.encode text, []) := by
  have stopped : utf8Code.items.Waiting ([] : List Byte) :=
    utf8Code.items_waiting_iff.mpr (.inl rfl)
  have steady : Steady ([] ++ chunks.flatten) := by
    rw [List.nil_append, whole, ← List.append_nil (utf8Code.encode text)]
    exact steady_encode_append text (Nat.zero_le _)
  have reads : utf8Code.items.Reads ([] ++ chunks.flatten) (text.map .symbol) [] := by
    rw [List.nil_append, whole]
    simpa using utf8Code.reads_encode text []
  rw [decodeAll_steady accepts steady stopped reads stopped, units_text]

theorem decodeAll_encode_split :
    [[0xf0, 0x9f], [], [0x98], [0x80, 0x41]].flatten = utf8Code.encode ['😀', 'A'] ∧
      decodeAll .exactUtf8 [[0xf0, 0x9f], [], [0x98], [0x80, 0x41]] [] =
        (utf16Code.encode ['😀', 'A'], []) :=
  have whole : [[0xf0, 0x9f], [], [0x98], [0x80, 0x41]].flatten = utf8Code.encode ['😀', 'A'] := by
    decide
  ⟨whole, decodeAll_encode .exactUtf8 Platform.exactUtf8_accepts _ _ whole⟩

/-- The output is made of the characters of the bytes, each at its place, and of replacements for
single bytes. -/
def Local (bytes : List Byte) (result : List WChar × List Byte) : Prop :=
  ∃ read : List Item, bytes = read.flatMap utf8Code.itemLetters ++ result.2 ∧
    result.1 = read.flatMap units ∧
      ∀ before char after, bytes = before ++ utf8Code.word char ++ after →
        ∃ earlier later, read = earlier ++ .symbol char :: later ∧
          before = earlier.flatMap utf8Code.itemLetters

/-- The result does not depend on the chunks, and a malformed byte does not affect a character. -/
structure Exact (platform : Platform) (bytes : List Byte) : Prop where
  invariant : ∀ chunks others, chunks.flatten = bytes → others.flatten = bytes →
    decodeAll platform chunks [] = decodeAll platform others []
  isLocal : ∀ chunks, chunks.flatten = bytes → Local bytes (decodeAll platform chunks [])

/-- Bytes that are not steady are decoded differently when they arrive one by one and when they
arrive in chunks. -/
theorem Exact.steady (accepts : platform.AcceptsWellFormedUtf8) {bytes : List Byte}
    (exact : Exact platform bytes) : Steady bytes := by
  intro before char rest split long
  by_contra none
  have stopped : utf8Code.items.Waiting ([] : List Byte) :=
    utf8Code.items_waiting_iff.mpr (.inl rfl)
  obtain ⟨read, last, reads, waiting⟩ := utf8Code.items.exists_reads bytes
  have pieces : bytes = before ++ ((utf8Code.word char ++ rest.take 4) ++ rest.drop 4) := by
    rw [split, List.append_assoc, List.append_assoc, List.take_append_drop]
  have reads' := reads
  rw [← List.nil_append bytes, pieces] at reads'
  obtain ⟨first, further, pending, rfl, front, held, more⟩ := reads_chunk reads' waiting
  obtain ⟨second, third, middle, rfl, buffer, held', more'⟩ := reads_chunk more waiting
  have unsteady : ¬ Steady (pending ++ (utf8Code.word char ++ rest.take 4)) := by
    intro steady
    obtain ⟨next, found⟩ := steady pending char (rest.take 4) (by simp) (by
      rw [List.length_take]
      omega)
    exact none ⟨next, found.trans (List.take_prefix _ _)⟩
  have fits : (pending ++ (utf8Code.word char ++ rest.take 4)).length ≤ intMax := by
    have short := length_lt_of_waiting held
    have short' := length_word_le char
    have large : 11 ≤ intMax := by decide
    simp only [List.length_append, List.length_take]
    omega
  obtain ⟨left, -, strict⟩ := run_replaces accepts buffer held' []
  have fewer := strict unsteady fits
  have least : replacements (third.flatMap units) ≤
      replacements (decodeAll platform [rest.drop 4] middle).1 :=
    decodeAll_replaces accepts held' (by simpa using more') waiting
  have one := decodeAll_singletons accepts stopped (by simpa using reads) waiting
  have begun := decodeAll_singletons accepts stopped front held
  have flat (bytes : List Byte) : (bytes.map ([·])).flatten = bytes := by
    rw [← List.flatMap_def]
    exact List.flatMap_singleton' bytes
  have same := exact.invariant
    (before.map ([·]) ++ [utf8Code.word char ++ rest.take 4, rest.drop 4]) (bytes.map ([·]))
    (by simp [pieces, flat]) (flat bytes)
  rw [decodeAll_append, begun, one] at same
  have counts := congrArg (fun result => replacements result.1) same
  simp only [decodeAll, decodeAppend, left, replacements_append, List.flatMap_append,
    List.nil_append] at counts fewer least
  omega

/-- The decoder is exact on a byte sequence if and only if every character with more than three
bytes after it is followed by a character. -/
theorem exact_iff_steady (platform : Platform) (accepts : platform.AcceptsWellFormedUtf8)
    (bytes : List Byte) : Exact platform bytes ↔ Steady bytes := by
  constructor
  · exact Exact.steady accepts
  · intro steady
    have stopped : utf8Code.items.Waiting ([] : List Byte) :=
      utf8Code.items_waiting_iff.mpr (.inl rfl)
    obtain ⟨read, rest, reads, waiting⟩ := utf8Code.items.exists_reads bytes
    have decoded (chunks : List (List Byte)) (whole : chunks.flatten = bytes) :
        decodeAll platform chunks [] = (read.flatMap units, rest) := by
      subst whole
      exact decodeAll_steady accepts steady stopped reads waiting
    refine ⟨?_, ?_⟩
    · intro chunks others whole whole'
      rw [decoded chunks whole, decoded others whole']
    · intro chunks whole
      rw [decoded chunks whole]
      exact ⟨read, utf8Code.letters_of_reads reads, rfl, fun before char after split =>
        utf8Code.symbol_of_reads reads waiting split⟩

theorem exact_iff_steady_short :
    Steady [0x41, 0xff, 0x42] ∧ Exact .exactUtf8 [0x41, 0xff, 0x42] :=
  have steady : Steady [0x41, 0xff, 0x42] := .of_length_le (by decide)
  ⟨steady, (exact_iff_steady .exactUtf8 Platform.exactUtf8_accepts _).mpr steady⟩

/-- In `A FF B C D` the `A` is replaced if the bytes arrive in one chunk, and kept if they arrive
one by one. -/
theorem not_exact_one_chunk : ¬ Exact .utf8 [0x41, 0xff, 0x42, 0x43, 0x44] := by
  intro exact
  have same := exact.invariant [[0x41, 0xff, 0x42, 0x43, 0x44]]
    [[0x41], [0xff], [0x42], [0x43], [0x44]] rfl rfl
  revert same
  decide

end Utf8Stream

end Conhost
