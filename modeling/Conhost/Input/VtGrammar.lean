import Mathlib.Data.List.GetD
import Conhost.Input.Decode

/-!
# The grammar of VT input

The decoder of VT input scans bytes; what it accepts is a small language of
sequences, each of which stands for a key or for a report that is ignored. The
parameters of a sequence are decimal numbers of any length.
-/

namespace Conhost

namespace VtInput

/-- `CSI` in seven and in eight bits. -/
inductive Introducer : List Byte → Prop where
  | sevenBit : Introducer [escByte, bc '[']
  | eightBit : Introducer [csiByte]

def isParameterByte (ch : Byte) : Bool := isDigit ch || ch == bc ';'

/-- The number that digits stand for. -/
def decimalNumber (digits : List Byte) : Nat :=
  digits.foldl (fun value ch => value * 10 + (ch - bc '0').toNat) 0

/-- The parameters of a sequence as they are written. -/
def fields (text : List Byte) : List (List Byte) := text.splitOnP (· == bc ';')

/-- A parameter cut to a limit; one that is missing or empty has its default. -/
def parameter (text : List Byte) (index limit default : Nat) : Nat :=
  match (fields text).getD index [] with
  | [] => default
  | digits => min (decimalNumber digits) limit

/-- The key of `Vk ; Sc ; Uc ; Kd ; Cs ; Rc` -/
def serializedKey (text : List Byte) : KeyEvent where
  virtualKeyCode := UInt16.ofNat (parameter text 0 0xffff 0)
  virtualScanCode := UInt16.ofNat (parameter text 1 0xffff 0)
  unicodeChar := UInt16.ofNat (parameter text 2 0xffff 0)
  keyDown := parameter text 3 0xffffffff 0 != 0
  controlKeyState := UInt32.ofNat (parameter text 4 0xffffffff 0)
  repeatCount := UInt16.ofNat (parameter text 5 0xffff 1)

/-- What follows `CSI`. -/
inductive CsiBody : List Byte → Token → Prop where
  | focus {final : Byte} (focus : final ∈ [bc 'I', bc 'O']) : CsiBody [final] .ignoredSequence
  | cursor {final : Byte} {virtualKey : UInt16}
      (key : (final, virtualKey) ∈
        [(bc 'A', vkUp), (bc 'B', vkDown), (bc 'C', vkRight), (bc 'D', vkLeft), (bc 'H', vkHome),
          (bc 'F', vkEnd)]) :
      CsiBody [final] (.keyEvent (makeSimpleKeyEvent virtualKey))
  | deviceAttributes {text : List Byte} (parameters : ∀ ch ∈ text, isParameterByte ch = true) :
      CsiBody (bc '?' :: text ++ [bc 'c']) .ignoredSequence
  | editing {digits : List Byte} {virtualKey : UInt16}
      (number : ∀ ch ∈ digits, isDigit ch = true)
      (key : (decimalNumber digits, virtualKey) ∈
        [(2, vkInsert), (3, vkDelete), (5, vkPrior), (6, vkNext)]) :
      CsiBody (digits ++ [bc '~']) (.keyEvent (makeSimpleKeyEvent virtualKey))
  | win32 {text : List Byte} (parameters : ∀ ch ∈ text, isParameterByte ch = true) :
      CsiBody (text ++ [bc '_']) (.keyEvent (serializedKey text))

/-- The sequences and what they stand for. -/
inductive Sequence : List Byte → Token → Prop where
  | function {final : Byte} {virtualKey : UInt16}
      (key : (final, virtualKey) ∈
        [(bc 'P', vkF1), (bc 'Q', vkF2), (bc 'R', vkF3), (bc 'S', vkF4)]) :
      Sequence [escByte, bc 'O', final] (.keyEvent (makeSimpleKeyEvent virtualKey))
  | csi {introducer body : List Byte} {token : Token} (begins : Introducer introducer)
      (ends : CsiBody body token) : Sequence (introducer ++ body) token

theorem decimalNumber_concat (digits : List Byte) (ch : Byte) :
    decimalNumber (digits ++ [ch]) = decimalNumber digits * 10 + (ch - bc '0').toNat := by
  simp [decimalNumber, List.foldl_append]

/-- The largest `uint32_t` -/
def maxNumber : Nat := 4294967295

theorem toNat_saturatingMulAdd10 {value digit : UInt32} (small : digit.toNat ≤ 9) :
    (saturatingMulAdd10 value digit).toNat = min (value.toNat * 10 + digit.toNat) maxNumber := by
  have bound := value.toNat_lt
  have whole : (0xffffffff : UInt32).toNat = 4294967295 := rfl
  have below : digit ≤ 0xffffffff := by
    rw [UInt32.le_iff_toNat_le, whole]
    omega
  have limit : ((0xffffffff - digit) / 10).toNat = (4294967295 - digit.toNat) / 10 := by
    rw [UInt32.toNat_div, UInt32.toNat_sub_of_le _ _ below, whole]
    rfl
  simp only [saturatingMulAdd10, UInt32.lt_iff_toNat_lt, limit, maxNumber]
  split
  · rw [whole]
    omega
  · rw [UInt32.toNat_add, UInt32.toNat_mul]
    have ten : (10 : UInt32).toNat = 10 := rfl
    rw [ten]
    omega

/-- The parameter that digits are parsed to. -/
def parsed (digits : List Byte) : ParsedParam :=
  ⟨!digits.isEmpty, UInt32.ofNat (min (decimalNumber digits) maxNumber)⟩

theorem toNat_parsed (digits : List Byte) :
    (parsed digits).value.toNat = min (decimalNumber digits) maxNumber := by
  have bound : min (decimalNumber digits) maxNumber ≤ 4294967295 := Nat.min_le_right _ _
  simp only [parsed, UInt32.toNat_ofNat']
  omega

@[simp]
theorem parsed_nil : parsed [] = {} := by
  simp [parsed, decimalNumber]

theorem toNat_digit {ch : Byte} (digit : isDigit ch = true) :
    (ch - bc '0').toUInt32.toNat ≤ 9 := by
  simp only [isDigit, Bool.and_eq_true, decide_eq_true_eq] at digit
  rcases digit with ⟨low, high⟩
  have value := UInt8.toNat_sub_of_le _ _ low
  rw [UInt8.le_iff_toNat_le] at low high
  have zero : (bc '0').toNat = 48 := rfl
  have nine : (bc '9').toNat = 57 := rfl
  rw [UInt8.toNat_toUInt32, value]
  omega

theorem parsed_concat {digits : List Byte} {ch : Byte} (digit : isDigit ch = true) :
    parsed (digits ++ [ch]) =
      ⟨true, saturatingMulAdd10 (parsed digits).value (ch - bc '0').toUInt32⟩ := by
  have value : (parsed (digits ++ [ch])).value =
      saturatingMulAdd10 (parsed digits).value (ch - bc '0').toUInt32 := by
    apply UInt32.toNat_inj.mp
    rw [toNat_parsed, toNat_saturatingMulAdd10 (toNat_digit digit), toNat_parsed,
      decimalNumber_concat, UInt8.toNat_toUInt32]
    omega
  rw [← value]
  simp [parsed]

/-- The locals of the loop after the finished fields and the beginning of the next one. -/
structure ParamScan.Represents (scan : ParamScan) (finished : List (List Byte))
    (last : List Byte) : Prop where
  slots : scan.params.length = 6
  index : scan.paramIndex = finished.length
  current : (⟨scan.currentPresent, scan.current⟩ : ParsedParam) = parsed last
  params : ∀ index < 6, scan.params.getD index {} = parsed (finished.getD index [])

namespace ParamScan

/-- The locals after the bytes of some parameters. -/
def read (scan : ParamScan) (text : List Byte) : ParamScan :=
  text.foldl (fun scan ch => if isDigit ch then scan.digit ch else scan.separator) scan

theorem represents_start : Represents {} [] [] := by
  refine ⟨rfl, rfl, by rw [parsed_nil], ?_⟩
  intro index inside
  have blank : (List.replicate 6 ({} : ParsedParam)).getD index {} = {} := by
    rw [List.getD_eq_getElem _ _ (by simpa using inside), List.getElem_replicate]
  rw [blank, List.getD_nil, parsed_nil]

namespace Represents

variable {scan : ParamScan} {finished : List (List Byte)} {last : List Byte}

theorem setCurrent (represents : scan.Represents finished last) {value : UInt32}
    {digits : List Byte} (current : ⟨true, value⟩ = parsed digits) :
    ({ scan with currentPresent := true, current := value } : ParamScan).Represents finished
      digits :=
  ⟨represents.slots, represents.index, current, represents.params⟩

theorem digit (represents : scan.Represents finished last) {ch : Byte}
    (isDigit : isDigit ch = true) : (scan.digit ch).Represents finished (last ++ [ch]) := by
  apply represents.setCurrent
  rw [parsed_concat isDigit, ← represents.current]

theorem store (represents : scan.Represents finished last) {index : Nat} (inside : index < 6) :
    scan.store.getD index {} = parsed ((finished ++ [last]).getD index []) := by
  have param := represents.params index inside
  have slots := represents.slots
  have stored : scan.store = scan.params.set finished.length (parsed last) := by
    rw [ParamScan.store, represents.current, represents.index]
  rw [stored]
  rcases Nat.lt_trichotomy index finished.length with before | here | behind
  · rw [List.getD_append _ _ _ _ before, ← param, List.getD_eq_getElem?_getD,
      List.getElem?_set_ne (by omega), ← List.getD_eq_getElem?_getD]
  · have field : (finished ++ [last]).getD index [] = last := by simp [here]
    rw [field, List.getD_eq_getElem?_getD, here, List.getElem?_set_self (by omega)]
    rfl
  · have field : (finished ++ [last]).getD index [] = finished.getD index [] := by
      rw [List.getD_eq_default _ _ (by rw [List.length_append, List.length_singleton]; omega),
        List.getD_eq_default _ _ (by omega)]
    rw [field, ← param, List.getD_eq_getElem?_getD, List.getElem?_set_ne (by omega),
      ← List.getD_eq_getElem?_getD]

theorem separator (represents : scan.Represents finished last) :
    scan.separator.Represents (finished ++ [last]) [] := by
  refine ⟨?_, ?_, by rw [parsed_nil]; rfl, fun index inside => represents.store inside⟩
  · simp [ParamScan.separator, ParamScan.store, represents.slots]
  · simp [ParamScan.separator, represents.index]

/-- What the loop has read are the fields of the text. -/
theorem read (represents : scan.Represents finished last) (text : List Byte)
    (parameters : ∀ ch ∈ text, isParameterByte ch = true) :
    ∃ finished' last', (scan.read text).Represents finished' last' ∧
      finished' ++ [last'] =
        finished ++ text.splitOnPPrepend (· == bc ';') last.reverse := by
  induction text generalizing scan finished last with
  | nil => exact ⟨finished, last, represents, by simp⟩
  | cons ch text hypothesis =>
      have later : ∀ ch ∈ text, isParameterByte ch = true := fun other member =>
        parameters other (List.mem_cons_of_mem ch member)
      have kind := parameters ch List.mem_cons_self
      by_cases isDigit : isDigit ch = true
      · have other : (ch == bc ';') = false := by
          rw [beq_eq_false_iff_ne]
          rintro rfl
          cases isDigit
        rcases hypothesis (represents.digit isDigit) later with ⟨finished', last', reads, split⟩
        refine ⟨finished', last', ?_, ?_⟩
        · simpa [ParamScan.read, isDigit] using reads
        · have joins : (ch :: text).splitOnPPrepend (· == bc ';') last.reverse =
              text.splitOnPPrepend (· == bc ';') (ch :: last.reverse) :=
            List.splitOnPPrepend_cons_neg other
          rw [split, joins, List.reverse_append]
          rfl
      · have separates : (ch == bc ';') = true := by
          simpa [isParameterByte, isDigit] using kind
        rcases hypothesis represents.separator later with ⟨finished', last', reads, split⟩
        refine ⟨finished', last', ?_, ?_⟩
        · simpa [ParamScan.read, isDigit] using reads
        · have cuts : (ch :: text).splitOnPPrepend (· == bc ';') last.reverse =
              last.reverse.reverse :: text.splitOnP (· == bc ';') :=
            List.splitOnPPrepend_cons_pos separates
          rw [split, cuts, List.reverse_reverse, List.append_assoc]
          rfl

end Represents

/-- What the decoder has stored when it comes to the end of the parameters. -/
theorem read_stores {text : List Byte} (parameters : ∀ ch ∈ text, isParameterByte ch = true)
    {index : Nat} (inside : index < 6) :
    (({} : ParamScan).read text).store.getD index {} = parsed ((fields text).getD index []) := by
  rcases represents_start.read text parameters with ⟨finished, last, reads, split⟩
  have all : finished ++ [last] = fields text := split
  rw [reads.store inside, all]

theorem toNat_valueOr {params : List ParsedParam} {text : List Byte} {index : Nat}
    (stored : params.getD index {} = parsed ((fields text).getD index [])) (default : UInt32) :
    (valueOr params index default).toNat = parameter text index maxNumber default.toNat := by
  simp only [valueOr, stored, parameter]
  cases (fields text).getD index [] with
  | nil => simp
  | cons ch digits =>
      have present : (parsed (ch :: digits)).present = true := rfl
      rw [present, if_pos rfl, toNat_parsed]

end ParamScan

theorem saturateWord_eq (value : UInt32) :
    saturateWord value = UInt16.ofNat (min value.toNat 0xffff) := by
  have limit : (0xffff : UInt32).toNat = 65535 := rfl
  simp only [saturateWord, UInt32.lt_iff_toNat_lt, limit]
  split
  · rw [Nat.min_eq_right (by omega)]
    rfl
  · rw [Nat.min_eq_left (by omega)]
    apply UInt16.toNat_inj.mp
    rw [UInt32.toNat_toUInt16, UInt16.toNat_ofNat']

theorem parameter_word (text : List Byte) (index : Nat) {default : Nat} (small : default ≤ 0xffff) :
    min (parameter text index maxNumber default) 0xffff = parameter text index 0xffff default := by
  simp only [parameter, maxNumber]
  cases (fields text).getD index [] with
  | nil => exact Nat.min_eq_left small
  | cons ch digits =>
      simp only
      omega

theorem win32Key_read {text : List Byte} (parameters : ∀ ch ∈ text, isParameterByte ch = true) :
    ParamScan.win32Key (({} : ParamScan).read text).store = serializedKey text := by
  have number {index : Nat} (inside : index < 6) (default : UInt32) :=
    ParamScan.toNat_valueOr (ParamScan.read_stores parameters inside) default
  have word {index : Nat} (inside : index < 6) (default : UInt32) (small : default.toNat ≤ 0xffff) :
      saturateWord (ParamScan.valueOr (({} : ParamScan).read text).store index default) =
        UInt16.ofNat (parameter text index 0xffff default.toNat) := by
    rw [saturateWord_eq, number inside, parameter_word text index small]
  have down : (ParamScan.valueOr (({} : ParamScan).read text).store 3 0 != 0) =
      (parameter text 3 maxNumber 0 != 0) := by
    rw [Bool.eq_iff_iff, bne_iff_ne, bne_iff_ne, ne_eq, ← UInt32.toNat_inj, number (by decide)]
    rfl
  have held : ParamScan.valueOr (({} : ParamScan).read text).store 4 0 =
      UInt32.ofNat (parameter text 4 maxNumber 0) := by
    have value := congrArg UInt32.ofNat (number (by decide : 4 < 6) 0)
    rwa [UInt32.ofNat_toNat] at value
  have small : ∀ default ∈ [(0 : UInt32), 1], default.toNat ≤ 0xffff := by simp
  simp only [ParamScan.win32Key, serializedKey, word (by decide : 0 < 6) 0 (small 0 (by decide)),
    word (by decide : 1 < 6) 0 (small 0 (by decide)),
      word (by decide : 2 < 6) 0 (small 0 (by decide)),
    word (by decide : 5 < 6) 1 (small 1 (by decide)), down, held]
  rfl

theorem scanParams_append_parameters (scan : ParamScan) (pos : Nat) {text : List Byte}
    (parameters : ∀ ch ∈ text, isParameterByte ch = true) (rest : List Byte) :
    scanParams scan pos (text ++ rest) = scanParams (scan.read text) (pos + text.length) rest := by
  induction text generalizing scan pos with
  | nil => rfl
  | cons ch text hypothesis =>
      have kind := parameters ch List.mem_cons_self
      have later : ∀ ch ∈ text, isParameterByte ch = true := fun other member =>
        parameters other (List.mem_cons_of_mem ch member)
      have length : pos + (ch :: text).length = pos + 1 + text.length := by
        rw [List.length_cons]
        omega
      rw [List.cons_append, scanParams, length]
      by_cases isDigit : isDigit ch = true
      · rw [if_pos isDigit, hypothesis _ _ later]
        simp only [ParamScan.read, List.foldl_cons, isDigit, if_true]
      · have separates : ch = bc ';' := by simpa [isParameterByte, isDigit] using kind
        rw [if_neg isDigit, if_pos separates, hypothesis _ _ later]
        simp only [ParamScan.read, List.foldl_cons, isDigit, Bool.false_eq_true, if_false]

theorem scanParams_terminator (scan : ParamScan) (pos : Nat) {ch : Byte}
    (terminator : isParameterByte ch = false) (rest : List Byte) :
    scanParams scan pos (ch :: rest) = scan.finish pos ch := by
  simp only [isParameterByte, Bool.or_eq_false_iff, beq_eq_false_iff_ne] at terminator
  simp only [scanParams, terminator.1, Bool.false_eq_true, if_false, if_neg terminator.2]

theorem ParamScan.editingKey_eq_some_iff {value : UInt32} {virtualKey : UInt16} :
    editingKey value = some virtualKey ↔ (value.toNat, virtualKey) ∈
      [(2, vkInsert), (3, vkDelete), (5, vkPrior), (6, vkNext)] := by
  have two : value = 2 ↔ value.toNat = 2 := UInt32.toNat_inj.symm
  have three : value = 3 ↔ value.toNat = 3 := UInt32.toNat_inj.symm
  have five : value = 5 ↔ value.toNat = 5 := UInt32.toNat_inj.symm
  have six : value = 6 ↔ value.toNat = 6 := UInt32.toNat_inj.symm
  simp only [editingKey, two, three, five, six, List.mem_cons, Prod.mk.injEq, List.not_mem_nil,
    or_false]
  split_ifs with isTwo isThree isFive isSix
  · simp [isTwo, eq_comm]
  · simp [isThree, eq_comm]
  · simp [isFive, eq_comm]
  · simp [isSix, eq_comm]
  · simp [isTwo, isThree, isFive, isSix]

/-- A number that does not wrap is read as it is written. -/
theorem ParamScan.editingKey_parsed_iff {digits : List Byte} {virtualKey : UInt16} :
    editingKey (parsed digits).value = some virtualKey ↔ (decimalNumber digits, virtualKey) ∈
      [(2, vkInsert), (3, vkDelete), (5, vkPrior), (6, vkNext)] := by
  have value : min (decimalNumber digits) maxNumber = decimalNumber digits ∨
      6 < decimalNumber digits ∧ min (decimalNumber digits) maxNumber = maxNumber := by
    rw [maxNumber]
    omega
  rw [editingKey_eq_some_iff, toNat_parsed]
  rcases value with same | ⟨large, same⟩
  · rw [same]
  · have others : decimalNumber digits ≠ 2 ∧ decimalNumber digits ≠ 3 ∧
        decimalNumber digits ≠ 5 ∧ decimalNumber digits ≠ 6 := by omega
    rw [same, maxNumber]
    simp [others]

/-- Parameters without a separator are one number. -/
theorem fields_eq_singleton {text last : List Byte}
    (parameters : ∀ ch ∈ text, isParameterByte ch = true) (single : fields text = [last]) :
    text = last ∧ ∀ ch ∈ text, isDigit ch = true := by
  have none : bc ';' ∉ text := by
    intro member
    rcases List.append_of_mem member with ⟨before, after, rfl⟩
    have cut : fields (before ++ bc ';' :: after) = fields before ++ fields after :=
      List.splitOnP_append_cons before after (by simp)
    have first : fields before ≠ [] := List.splitOnP_ne_nil _ before
    have second : fields after ≠ [] := List.splitOnP_ne_nil _ after
    have sizes := congrArg List.length (cut.symm.trans single)
    have some := List.length_pos_of_ne_nil first
    have others := List.length_pos_of_ne_nil second
    rw [List.length_append, List.length_singleton] at sizes
    omega
  have whole : fields text = [text] := by
    apply List.splitOnP_eq_singleton
    intro ch member
    rw [beq_eq_false_iff_ne]
    rintro rfl
    exact none member
  rw [whole] at single
  refine ⟨List.head_eq_of_cons_eq single, fun ch member => ?_⟩
  have kind := parameters ch member
  have other : ch ≠ bc ';' := by
    rintro rfl
    exact none member
  simp only [isParameterByte, Bool.or_eq_true, beq_iff_eq] at kind
  exact kind.resolve_right other

theorem fields_of_digits {digits : List Byte} (number : ∀ ch ∈ digits, isDigit ch = true) :
    fields digits = [digits] := by
  apply List.splitOnP_eq_singleton
  intro ch member
  rw [beq_eq_false_iff_ne]
  rintro rfl
  exact absurd (number _ member) (by decide)

/-- The end of the parameters that were read. -/
theorem ParamScan.finish_read {text : List Byte}
    (parameters : ∀ ch ∈ text, isParameterByte ch = true) (pos : Nat) (ch : Byte) (token : Token)
    (length : Nat) :
    (({} : ParamScan).read text).finish pos ch = .produced token length ↔
      length = pos + 1 ∧
        (ch = bc '~' ∧ (∀ ch ∈ text, isDigit ch = true) ∧ (∃ virtualKey,
            (decimalNumber text, virtualKey) ∈
              [(2, vkInsert), (3, vkDelete), (5, vkPrior), (6, vkNext)] ∧
            token = .keyEvent (makeSimpleKeyEvent virtualKey)) ∨
          ch = bc '_' ∧ token = .keyEvent (serializedKey text)) := by
  rcases represents_start.read text parameters with ⟨finished, last, reads, split⟩
  have all : finished ++ [last] = fields text := split
  have first : (({} : ParamScan).read text).store.getD 0 {} =
      parsed ((finished ++ [last]).getD 0 []) := reads.store (by decide)
  have other : bc '~' ≠ bc '_' := by decide
  simp only [finish, reads.index, first, win32Key_read parameters]
  by_cases tilde : ch = bc '~'
  · subst tilde
    simp only [if_true, other, false_and, or_false, true_and]
    cases finished with
    | nil =>
        rcases fields_eq_singleton parameters all.symm with ⟨rfl, number⟩
        have present : ¬((parsed text).present = true) → decimalNumber text = 0 := by
          intro absent
          have empty : text = [] := by simpa [parsed] using absent
          rw [empty]
          rfl
        simp only [List.length_nil, ne_eq, not_true_eq_false, false_or, List.nil_append,
          List.getD_cons_zero]
        by_cases absent : ¬(parsed text).present = true
        · rw [if_pos absent, present absent]
          simp
        · rw [if_neg absent]
          cases key : editingKey (parsed text).value with
          | none =>
              have unknown (virtualKey : UInt16) : ¬(decimalNumber text, virtualKey) ∈
                  [(2, vkInsert), (3, vkDelete), (5, vkPrior), (6, vkNext)] := by
                rw [← editingKey_parsed_iff, key]
                simp
              simp [unknown]
          | some virtualKey =>
              have known := editingKey_parsed_iff.mp key
              constructor
              · intro produced
                cases produced
                exact ⟨rfl, number, virtualKey, known, rfl⟩
              · rintro ⟨rfl, -, virtualKey', known', rfl⟩
                have same := key.symm.trans (editingKey_parsed_iff.mpr known')
                cases same
                rfl
    | cons field finished =>
        rw [if_pos (.inl (by simp))]
        constructor
        · intro produced
          cases produced
        · rintro ⟨-, number, -⟩
          rw [fields_of_digits number] at all
          simp at all
  · simp only [tilde, if_false, false_and, false_or]
    by_cases underscore : ch = bc '_'
    · simp only [underscore, if_true, true_and, DecodeResult.produced.injEq]
      constructor
      · rintro ⟨rfl, rfl⟩
        exact ⟨rfl, rfl⟩
      · rintro ⟨rfl, rfl⟩
        exact ⟨rfl, rfl⟩
    · simp only [underscore, if_false, false_and, and_false, iff_false]
      intro produced
      cases produced

theorem isParameterByte_tilde : isParameterByte (bc '~') = false := rfl

theorem isParameterByte_underscore : isParameterByte (bc '_') = false := rfl

/-- A list of bytes is parameters alone, or there is a first other byte. -/
theorem parameters_or_terminator (bytes : List Byte) :
    (∀ ch ∈ bytes, isParameterByte ch = true) ∨
      ∃ text ch rest, bytes = text ++ ch :: rest ∧ (∀ ch ∈ text, isParameterByte ch = true) ∧
        isParameterByte ch = false := by
  induction bytes with
  | nil => exact .inl (by simp)
  | cons first bytes hypothesis =>
      cases kind : isParameterByte first with
      | false => exact .inr ⟨[], first, bytes, rfl, by simp, kind⟩
      | true =>
          rcases hypothesis with all | ⟨text, ch, rest, rfl, all, terminator⟩
          · exact .inl (by simpa [kind] using all)
          · exact .inr ⟨first :: text, ch, rest, rfl, by simpa [kind] using all, terminator⟩

theorem scanParams_produced_iff {pos : Nat} {bytes : List Byte} {token : Token} {length : Nat} :
    scanParams {} pos bytes = .produced token length ↔
      ∃ text ch rest, bytes = text ++ ch :: rest ∧ length = pos + text.length + 1 ∧
        (∀ ch ∈ text, isParameterByte ch = true) ∧
        (ch = bc '~' ∧ (∀ ch ∈ text, isDigit ch = true) ∧ (∃ virtualKey,
            (decimalNumber text, virtualKey) ∈
              [(2, vkInsert), (3, vkDelete), (5, vkPrior), (6, vkNext)] ∧
            token = .keyEvent (makeSimpleKeyEvent virtualKey)) ∨
          ch = bc '_' ∧ token = .keyEvent (serializedKey text)) := by
  constructor
  · intro produced
    rcases parameters_or_terminator bytes with all | ⟨text, ch, rest, rfl, all, terminator⟩
    · have waits := scanParams_append_parameters {} pos all []
      rw [List.append_nil, produced] at waits
      cases waits
    · rw [scanParams_append_parameters {} pos all, scanParams_terminator _ _ terminator,
        ParamScan.finish_read all] at produced
      exact ⟨text, ch, rest, rfl, produced.1, all, produced.2⟩
  · rintro ⟨text, ch, rest, rfl, rfl, all, kind⟩
    have terminator : isParameterByte ch = false := by
      rcases kind with ⟨rfl, -⟩ | ⟨rfl, -⟩
      · exact isParameterByte_tilde
      · exact isParameterByte_underscore
    rw [scanParams_append_parameters {} pos all, scanParams_terminator _ _ terminator,
      ParamScan.finish_read all]
    exact ⟨rfl, kind⟩

theorem scanDeviceAttributes_produced_iff {pos : Nat} {bytes : List Byte} {token : Token}
    {length : Nat} :
    scanDeviceAttributes pos bytes = .produced token length ↔
      ∃ text rest, bytes = text ++ bc 'c' :: rest ∧ length = pos + text.length + 1 ∧
        (∀ ch ∈ text, isParameterByte ch = true) ∧ token = .ignoredSequence := by
  induction bytes generalizing pos with
  | nil => simp [scanDeviceAttributes]
  | cons first bytes hypothesis =>
      have kind : (first = bc ';' ∨ isDigit first = true) ↔ isParameterByte first = true := by
        simp only [isParameterByte, Bool.or_eq_true, beq_iff_eq, or_comm]
      simp only [scanDeviceAttributes, kind]
      by_cases final : first = bc 'c'
      · subst final
        rw [if_pos rfl]
        constructor
        · intro produced
          cases produced
          exact ⟨[], bytes, rfl, rfl, by simp, rfl⟩
        · rintro ⟨text, rest, split, rfl, all, rfl⟩
          cases text with
          | nil => rfl
          | cons other text =>
              cases split
              exact absurd (all _ List.mem_cons_self) (by decide)
      · rw [if_neg final]
        by_cases parameter : isParameterByte first = true
        · rw [if_neg (not_not.mpr parameter), hypothesis]
          constructor
          · rintro ⟨text, rest, rfl, rfl, all, rfl⟩
            refine ⟨first :: text, rest, rfl, ?_, by simpa [parameter] using all, rfl⟩
            rw [List.length_cons]
            omega
          · rintro ⟨text, rest, split, rfl, all, rfl⟩
            cases text with
            | nil =>
                cases split
                exact absurd rfl final
            | cons other text =>
                cases split
                refine ⟨text, rest, rfl, ?_, fun ch member =>
                  all ch (List.mem_cons_of_mem _ member),
                  rfl⟩
                rw [List.length_cons]
                omega
        · rw [if_pos parameter]
          constructor
          · intro produced
            cases produced
          · rintro ⟨text, rest, split, -, all, -⟩
            cases text with
            | nil =>
                cases split
                exact absurd rfl final
            | cons other text =>
                cases split
                exact absurd (all _ List.mem_cons_self) parameter

theorem functionKey_eq_some_iff {final : Byte} {virtualKey : UInt16} :
    functionKey final = some virtualKey ↔ (final, virtualKey) ∈
      [(bc 'P', vkF1), (bc 'Q', vkF2), (bc 'R', vkF3), (bc 'S', vkF4)] := by
  simp only [functionKey, List.mem_cons, Prod.mk.injEq, List.not_mem_nil, or_false]
  split_ifs with one two three four
  · simp [one, eq_comm]
  · simp [two, eq_comm]
  · simp [three, eq_comm]
  · simp [four, eq_comm]
  · simp only [one, two, three, four, false_and, or_false]

theorem cursorKey_eq_some_iff {final : Byte} {virtualKey : UInt16} :
    cursorKey final = some virtualKey ↔ (final, virtualKey) ∈
      [(bc 'A', vkUp), (bc 'B', vkDown), (bc 'C', vkRight), (bc 'D', vkLeft), (bc 'H', vkHome),
        (bc 'F', vkEnd)] := by
  simp only [cursorKey, List.mem_cons, Prod.mk.injEq, List.not_mem_nil, or_false]
  split_ifs with up down right left home ends
  · simp [up, eq_comm]
  · simp [down, eq_comm]
  · simp [right, eq_comm]
  · simp [left, eq_comm]
  · simp [home, eq_comm]
  · simp [ends, eq_comm]
  · simp only [up, down, right, left, home, ends, false_and, or_false]

theorem decodeCsi_parameters {first : Byte} (digit : isParameterByte first = true ∨
    first ∈ [bc '~', bc '_']) (prefixLen : Nat) (rest : List Byte) :
    decodeCsi prefixLen (first :: rest) = scanParams {} prefixLen (first :: rest) := by
  have others : first ∉ [bc 'I', bc 'O', bc 'A', bc 'B', bc 'C', bc 'D', bc 'H', bc 'F',
      bc '?'] := by
    intro member
    have none : ∀ first ∈ [bc 'I', bc 'O', bc 'A', bc 'B', bc 'C', bc 'D', bc 'H', bc 'F', bc '?'],
        ¬(isParameterByte first = true ∨ first ∈ [bc '~', bc '_']) := by decide +kernel
    exact none first member digit
  simp only [List.mem_cons, List.not_mem_nil, or_false, not_or] at others
  rcases others with ⟨focusIn, focusOut, up, down, right, left, home, ends, query⟩
  have noCursor : cursorKey first = none := by
    simp only [cursorKey, if_neg up, if_neg down, if_neg right, if_neg left, if_neg home,
      if_neg ends]
  have noFocus : ¬(first = bc 'I' ∨ first = bc 'O') := by
    rw [not_or]
    exact ⟨focusIn, focusOut⟩
  rw [decodeCsi, if_neg noFocus, noCursor]
  simp only [if_neg query]

/-- A sequence of parameters and its end. -/
theorem decodeCsi_scanParams {prefixLen : Nat} {text rest : List Byte} {ch : Byte}
    (parameters : ∀ ch ∈ text, isParameterByte ch = true) (terminator : ch ∈ [bc '~', bc '_']) :
    decodeCsi prefixLen (text ++ ch :: rest) = scanParams {} prefixLen (text ++ ch :: rest) := by
  cases text with
  | nil => exact decodeCsi_parameters (.inr terminator) prefixLen rest
  | cons first text =>
      exact decodeCsi_parameters (.inl (parameters first List.mem_cons_self)) prefixLen _

theorem decodeCsi_produced_iff {prefixLen : Nat} {bytes : List Byte} {token : Token}
    {length : Nat} :
    decodeCsi prefixLen bytes = .produced token length ↔
      ∃ body rest, bytes = body ++ rest ∧ length = prefixLen + body.length ∧
        CsiBody body token := by
  constructor
  · intro produced
    cases bytes with
    | nil => cases produced
    | cons first bytes =>
        rw [decodeCsi] at produced
        split at produced
        · rename_i focus
          cases produced
          exact ⟨[first], bytes, rfl, rfl, .focus (by simpa using focus)⟩
        · split at produced
          · rename_i virtualKey key
            cases produced
            exact ⟨[first], bytes, rfl, rfl, .cursor (cursorKey_eq_some_iff.mp key)⟩
          · split at produced
            · rename_i query
              subst query
              rcases scanDeviceAttributes_produced_iff.mp produced with
                ⟨text, rest, rfl, rfl, parameters, rfl⟩
              refine ⟨bc '?' :: text ++ [bc 'c'], rest, by simp, ?_, .deviceAttributes parameters⟩
              simp only [List.cons_append, List.length_cons, List.length_append, List.length_nil]
              omega
            · rcases scanParams_produced_iff.mp produced with
                ⟨text, ch, rest, split, rfl, parameters, ⟨rfl, number, virtualKey, key, rfl⟩ |
                  ⟨rfl, rfl⟩⟩
              · refine ⟨text ++ [bc '~'], rest, by simpa using split, ?_, .editing number key⟩
                simp only [List.length_append, List.length_singleton]
                omega
              · refine ⟨text ++ [bc '_'], rest, by simpa using split, ?_, .win32 parameters⟩
                simp only [List.length_append, List.length_singleton]
                omega
  · rintro ⟨body, rest, rfl, rfl, sequence⟩
    cases sequence with
    | @focus final focus =>
        simp only [List.mem_cons, List.not_mem_nil, or_false] at focus
        rw [List.singleton_append, decodeCsi, if_pos focus]
        rfl
    | @cursor final virtualKey key =>
        have noFocus : ¬(final = bc 'I' ∨ final = bc 'O') := by
          rintro (rfl | rfl)
          · cases cursorKey_eq_some_iff.mpr key
          · cases cursorKey_eq_some_iff.mpr key
        rw [List.singleton_append, decodeCsi, if_neg noFocus, cursorKey_eq_some_iff.mpr key]
        rfl
    | @deviceAttributes text parameters =>
        have scanned : scanDeviceAttributes (prefixLen + 1) (text ++ bc 'c' :: rest) =
            .produced .ignoredSequence (prefixLen + 1 + text.length + 1) :=
          scanDeviceAttributes_produced_iff.mpr ⟨text, rest, rfl, rfl, parameters, rfl⟩
        have length : prefixLen + (bc '?' :: text ++ [bc 'c']).length =
            prefixLen + 1 + text.length + 1 := by
          simp only [List.cons_append, List.length_cons, List.length_append, List.length_nil]
          omega
        have bytes : bc '?' :: text ++ [bc 'c'] ++ rest = bc '?' :: (text ++ bc 'c' :: rest) := by
          simp
        rw [bytes, length, ← scanned]
        rfl
    | @editing digits virtualKey number key =>
        have parameters : ∀ ch ∈ digits, isParameterByte ch = true := by
          intro ch member
          rw [isParameterByte, number ch member, Bool.true_or]
        have bytes : digits ++ [bc '~'] ++ rest = digits ++ bc '~' :: rest := by simp
        rw [bytes, decodeCsi_scanParams parameters (by simp), scanParams_produced_iff]
        refine ⟨digits, bc '~', rest, rfl, ?_, parameters, .inl ⟨rfl, number, virtualKey, key, rfl⟩⟩
        simp only [List.length_append, List.length_singleton]
        omega
    | @win32 text parameters =>
        have bytes : text ++ [bc '_'] ++ rest = text ++ bc '_' :: rest := by simp
        rw [bytes, decodeCsi_scanParams parameters (by simp), scanParams_produced_iff]
        refine ⟨text, bc '_', rest, rfl, ?_, parameters, .inr ⟨rfl, rfl⟩⟩
        simp only [List.length_append, List.length_singleton]
        omega

theorem exists_sequence_of_produced {bytes : List Byte} {token : Token} {length : Nat}
    (produced : tryDecodeVt bytes = .produced token length) :
    ∃ sequence rest, bytes = sequence ++ rest ∧ length = sequence.length ∧
      Sequence sequence token := by
  cases bytes with
  | nil => cases produced
  | cons first bytes =>
      simp only [tryDecodeVt] at produced
      split at produced
      · rename_i escape
        subst escape
        cases bytes with
        | nil => cases produced
        | cons second bytes =>
            simp only at produced
            split at produced
            · rename_i ss3
              subst ss3
              cases bytes with
              | nil => cases produced
              | cons final bytes =>
                  simp only [decodeSs3] at produced
                  split at produced
                  · rename_i virtualKey key
                    cases produced
                    exact ⟨[escByte, bc 'O', final], bytes, rfl, rfl,
                      .function (functionKey_eq_some_iff.mp key)⟩
                  · cases produced
            · split at produced
              · rename_i bracket
                subst bracket
                rcases decodeCsi_produced_iff.mp produced with ⟨body, rest, rfl, rfl, ends⟩
                refine ⟨[escByte, bc '['] ++ body, rest, rfl, ?_, .csi .sevenBit ends⟩
                rw [List.length_append]
                rfl
              · cases produced
      · split at produced
        · rename_i csi
          subst csi
          rcases decodeCsi_produced_iff.mp produced with ⟨body, rest, rfl, rfl, ends⟩
          refine ⟨[csiByte] ++ body, rest, rfl, ?_, .csi .eightBit ends⟩
          rw [List.length_append]
          rfl
        · cases produced

theorem Sequence.produced {sequence : List Byte} {token : Token}
    (accepted : Sequence sequence token) (rest : List Byte) :
    tryDecodeVt (sequence ++ rest) = .produced token sequence.length := by
  cases accepted with
  | @function final virtualKey key =>
      have known := functionKey_eq_some_iff.mpr key
      simp only [List.cons_append, List.nil_append, tryDecodeVt, if_true, decodeSs3, known]
      rfl
  | @csi introducer body _ begins ends =>
      have decoded : ∀ prefixLen, decodeCsi prefixLen (body ++ rest) =
          .produced token (prefixLen + body.length) := fun prefixLen =>
        decodeCsi_produced_iff.mpr ⟨body, rest, rfl, rfl, ends⟩
      cases begins with
      | sevenBit =>
          rw [List.length_append, List.append_assoc]
          exact decoded 2
      | eightBit =>
          rw [List.length_append, List.append_assoc]
          exact decoded 1

/-- The decoder takes a sequence of the grammar, and nothing else, off the front of the bytes. -/
theorem tryDecodeVt_produced_iff (bytes : List Byte) (token : Token) (length : Nat) :
    tryDecodeVt bytes = .produced token length ↔
      ∃ sequence rest, bytes = sequence ++ rest ∧ length = sequence.length ∧
        Sequence sequence token := by
  constructor
  · intro produced
    exact exists_sequence_of_produced produced
  · rintro ⟨sequence, rest, rfl, rfl, accepted⟩
    exact accepted.produced rest

end VtInput

end Conhost
