import Mathlib.Data.Bool.AllAny
import Conhost.Input.TextTokens

/-!
# Keys typed in the window

The window sends its keys down the pipe the server reads its input from.
`KeyInputEncoder::encode` writes a key as the bytes of a classic terminal,
while a terminal in win32-input-mode would send the whole record. This file
compares what the tokenizer makes of the two.
-/

namespace Conhost

open VtInput (tryDecodeVt)

namespace KeyEvent

def ctrlPressed (key : KeyEvent) : Bool := key.controlKeyState &&& 0x000c != 0

def altPressed (key : KeyEvent) : Bool := key.controlKeyState &&& 0x0003 != 0

end KeyEvent

namespace KeyInputEncoder

def vkBack : UInt16 := 0x08
def vkTab : UInt16 := 0x09
def vkReturn : UInt16 := 0x0d
def vkEscape : UInt16 := 0x1b

/-- The `switch` of `encode`. -/
def sequences : List (UInt16 × List Byte) :=
  [(VtInput.vkUp, [0x1b, bc '[', bc 'A']), (VtInput.vkDown, [0x1b, bc '[', bc 'B']),
    (VtInput.vkRight, [0x1b, bc '[', bc 'C']), (VtInput.vkLeft, [0x1b, bc '[', bc 'D']),
    (VtInput.vkHome, [0x1b, bc '[', bc 'H']), (VtInput.vkEnd, [0x1b, bc '[', bc 'F']),
    (VtInput.vkPrior, [0x1b, bc '[', bc '5', bc '~']),
    (VtInput.vkNext, [0x1b, bc '[', bc '6', bc '~']),
    (VtInput.vkDelete, [0x1b, bc '[', bc '3', bc '~']),
    (VtInput.vkInsert, [0x1b, bc '[', bc '2', bc '~']),
    (VtInput.vkF1, [0x1b, bc 'O', bc 'P']), (VtInput.vkF2, [0x1b, bc 'O', bc 'Q']),
    (VtInput.vkF3, [0x1b, bc 'O', bc 'R']), (VtInput.vkF4, [0x1b, bc 'O', bc 'S']),
    (vkReturn, [0x0d]), (vkTab, [0x09]), (vkBack, [0x7f]), (vkEscape, [0x1b])]

variable (platform : Platform)

/-- `narrow_utf16_code_unit`; the result has to fit an array of eight bytes. -/
def narrowUtf16CodeUnit (codeUnit : WChar) : List Byte :=
  if codeUnit = 0 then []
  else
    let utf8 := platform.wideCharToMultiByte cpUtf8 [codeUnit]
    if 8 < utf8.length then [] else utf8

/-- `KeyInputEncoder::encode` -/
def encode (key : KeyEvent) : List Byte :=
  if !key.keyDown then []
  else if key.ctrlPressed && key.virtualKeyCode == 0x43 then [0x03]
  else if key.ctrlPressed && key.virtualKeyCode == 0x44 then [0x04]
  else
    match sequences.lookup key.virtualKeyCode with
    | some bytes => bytes
    | none =>
        let utf8 := narrowUtf16CodeUnit platform key.unicodeChar
        if utf8 ≠ [] ∧ key.altPressed then 0x1b :: utf8 else utf8

end KeyInputEncoder

/-- `CSI Vk ; Sc ; Uc ; Kd ; Cs ; Rc _` -/
def KeyEvent.win32Sequence (key : KeyEvent) : List Byte :=
  [VtInput.escByte, bc '['] ++ decimal key.virtualKeyCode.toNat ++ [bc ';'] ++
    decimal key.virtualScanCode.toNat ++ [bc ';'] ++ decimal key.unicodeChar.toNat ++ [bc ';'] ++
    decimal (if key.keyDown then 1 else 0) ++ [bc ';'] ++ decimal key.controlKeyState.toNat ++
    [bc ';'] ++ decimal key.repeatCount.toNat ++ [bc '_']

namespace VtInput

/-- A parameter and the separator after it. -/
theorem scanParams_param {value : Nat} (small : value < 4294967296) (params : List ParsedParam)
    (index pos : Nat) (rest : List Byte) :
    scanParams { params, paramIndex := index } pos (decimal value ++ bc ';' :: rest) =
      scanParams { params := params.set index ⟨true, UInt32.ofNat value⟩, paramIndex := index + 1 }
        (pos + (decimal value).length + 1) rest := by
  rw [scanParams_decimal small _ rfl]
  rfl

/-- The last parameter of a key. -/
theorem scanParams_last {value : Nat} (small : value < 4294967296) (params : List ParsedParam)
    (index pos : Nat) :
    scanParams { params, paramIndex := index } pos (decimal value ++ [bc '_']) =
      .produced (.keyEvent (ParamScan.win32Key (params.set index ⟨true, UInt32.ofNat value⟩)))
        (pos + (decimal value).length + 1) := by
  rw [scanParams_decimal small _ rfl]
  rfl

theorem decimal_head (value : Nat) : ∃ digit tail, digit < 10 ∧
    decimal value = UInt8.ofNat (48 + digit) :: tail := by
  induction value using decimal.induct with
  | case1 value digit =>
      refine ⟨value, [], digit, ?_⟩
      rw [decimal, if_pos digit]
  | case2 value large ih =>
      obtain ⟨digit, tail, small, head⟩ := ih
      refine ⟨digit, tail ++ [UInt8.ofNat (48 + value % 10)], small, ?_⟩
      rw [decimal, if_neg large, head, List.cons_append]

/-- A parameter sequence goes to the parameter loop. -/
theorem decodeCsi_decimal (value : Nat) (rest : List Byte) :
    decodeCsi 2 (decimal value ++ rest) = scanParams {} 2 (decimal value ++ rest) := by
  obtain ⟨digit, tail, small, head⟩ := decimal_head value
  have digits : ∀ digit : Fin 10, UInt8.ofNat (48 + digit) ≠ bc 'I' ∧
      UInt8.ofNat (48 + digit) ≠ bc 'O' ∧ cursorKey (UInt8.ofNat (48 + digit)) = none ∧
      UInt8.ofNat (48 + digit) ≠ bc '?' := by decide
  obtain ⟨notFocusIn, notFocusOut, notCursor, notQuery⟩ := digits ⟨digit, small⟩
  simp only at notFocusIn notFocusOut notCursor notQuery
  rw [head, List.cons_append, decodeCsi, if_neg (not_or.mpr ⟨notFocusIn, notFocusOut⟩), notCursor]
  exact if_neg notQuery

end VtInput

namespace KeyEvent

variable (key : KeyEvent)

theorem length_win32Sequence : key.win32Sequence.length < 64 := by
  have virtualKey := length_decimal_word key.virtualKeyCode
  have scan := length_decimal_word key.virtualScanCode
  have character := length_decimal_word key.unicodeChar
  have count := length_decimal_word key.repeatCount
  have state : (decimal key.controlKeyState.toNat).length ≤ 10 := by
    have small := key.controlKeyState.toNat_lt
    exact length_decimal (by omega)
  have down : (decimal (if key.keyDown then 1 else 0)).length ≤ 1 := by
    apply length_decimal
    split <;> simp
  simp only [win32Sequence, List.length_append, List.length_cons, List.length_nil]
  omega

/-- A key comes back from its sequence. -/
theorem tryDecodeVt_win32Sequence :
    tryDecodeVt key.win32Sequence = .produced (.keyEvent key) key.win32Sequence.length := by
  have virtualKey := key.virtualKeyCode.toNat_lt
  have scan := key.virtualScanCode.toNat_lt
  have character := key.unicodeChar.toNat_lt
  have count := key.repeatCount.toNat_lt
  have state := key.controlKeyState.toNat_lt
  have down : (if key.keyDown then 1 else 0) < 4294967296 := by
    split <;> simp
  have introduced (rest : List Byte) : tryDecodeVt (VtInput.escByte :: bc '[' :: rest) =
      VtInput.decodeCsi 2 rest := rfl
  simp only [win32Sequence, List.append_assoc, List.cons_append, List.nil_append]
  rw [introduced, VtInput.decodeCsi_decimal, VtInput.scanParams_param (by omega),
    VtInput.scanParams_param (by omega), VtInput.scanParams_param (by omega),
    VtInput.scanParams_param down, VtInput.scanParams_param (by omega),
    VtInput.scanParams_last (by omega)]
  congr 1
  · have whole : UInt32.ofNat key.controlKeyState.toNat = key.controlKeyState :=
      UInt32.ofNat_toNat
    have pressed : (UInt32.ofNat (if key.keyDown then 1 else 0) != 0) = key.keyDown := by
      cases key.keyDown <;> rfl
    change Token.keyEvent
      { keyDown := UInt32.ofNat (if key.keyDown then 1 else 0) != 0
        repeatCount := VtInput.saturateWord (UInt32.ofNat key.repeatCount.toNat)
        virtualKeyCode := VtInput.saturateWord (UInt32.ofNat key.virtualKeyCode.toNat)
        virtualScanCode := VtInput.saturateWord (UInt32.ofNat key.virtualScanCode.toNat)
        unicodeChar := VtInput.saturateWord (UInt32.ofNat key.unicodeChar.toNat)
        controlKeyState := UInt32.ofNat key.controlKeyState.toNat } = _
    simp only [VtInput.saturateWord_ofNat, whole, pressed]
  · simp only [List.length_append, List.length_cons, List.length_nil]
    omega

end KeyEvent

namespace KeyEvent

open KeyInputEncoder

/-- A key that types a character of the basic multilingual plane. -/
structure Character (key : KeyEvent) : Prop where
  typed : key.unicodeChar ≠ 0
  plain : key.unicodeChar.toNat < 0xd800 ∨ 0xdfff < key.unicodeChar.toNat
  ordinary : sequences.lookup key.virtualKeyCode = none ∨
    key.virtualKeyCode = vkTab ∧ key.unicodeChar = 9

/-- The characters that complete or interrupt a line wherever they are typed. -/
def endsLine (processed : Bool) (unit : WChar) : Bool :=
  unit == 13 || unit == 10 || processed && unit == 3

/-- The keys of which the window's bytes do to a line what their records do. -/
inductive Faithful (processed : Bool) (key : KeyEvent) : Prop where
  | character (character : key.Character) (noAlt : key.altPressed = false)
      (ctrlC : key.ctrlPressed = true → key.virtualKeyCode = 0x43 → key.unicodeChar = 3)
      (ctrlD : key.ctrlPressed = true → key.virtualKeyCode = 0x44 → key.unicodeChar = 4)
      (noBreak : (processed && key.matchesCtrlBreak) = false)
      (once : key.repeatCount.toNat ≤ 1 ∨ endsLine processed key.unicodeChar = true)
  | enter (code : key.virtualKeyCode = vkReturn) (typed : key.unicodeChar = 13)
  | sideways (code : key.virtualKeyCode ∈ [VtInput.vkLeft, VtInput.vkRight])
      (noCtrl : key.ctrlPressed = false) (once : key.repeatCount.toNat ≤ 1)
  | ends (code : key.virtualKeyCode ∈ [VtInput.vkHome, VtInput.vkEnd])
      (noCtrl : key.ctrlPressed = false)
  | delete (code : key.virtualKeyCode = VtInput.vkDelete) (once : key.repeatCount.toNat ≤ 1)
  | insert (code : key.virtualKeyCode = VtInput.vkInsert)
      (odd : max 1 key.repeatCount.toNat % 2 = 1)

/-- The key completes or interrupts the line it is typed in. -/
def EndsRead (processed : Bool) (key : KeyEvent) : Prop :=
  key.virtualKeyCode = vkReturn ∨ key.Character ∧ endsLine processed key.unicodeChar = true

theorem Character.code_ne_return {key : KeyEvent} (character : key.Character) :
    key.virtualKeyCode ≠ vkReturn := by
  intro code
  have ordinary := character.ordinary
  rw [code] at ordinary
  rcases ordinary with none | ⟨tab, -⟩
  · cases none
  · cases tab

/-- The key types the character U+001B, of which the window sends the byte that begins the
sequences. -/
def TypesEscape (key : KeyEvent) : Prop := key.Character ∧ key.unicodeChar = 0x1b

theorem TypesEscape.not_endsRead {key : KeyEvent} {processed : Bool}
    (escape : key.TypesEscape) : ¬key.EndsRead processed := by
  obtain ⟨character, typed⟩ := escape
  rintro (code | ⟨-, ends⟩)
  · exact character.code_ne_return code
  · simp [endsLine, typed] at ends

/-- The key types a character with which a byte U+001B would begin a sequence. -/
def TypesIntroducer (key : KeyEvent) : Prop :=
  key.Character ∧ (key.unicodeChar = wc '[' ∨ key.unicodeChar = wc 'O')

end KeyEvent

open KeyInputEncoder

variable {platform : Platform} {key : KeyEvent} {processed : Bool}

theorem KeyEvent.Character.encode_eq (replaces : platform.ReplacesLoneSurrogates)
    (character : key.Character) (down : key.keyDown = true) (noAlt : key.altPressed = false)
    (ctrlC : key.ctrlPressed = true → key.virtualKeyCode = 0x43 → key.unicodeChar = 3)
    (ctrlD : key.ctrlPressed = true → key.virtualKeyCode = 0x44 → key.unicodeChar = 4) :
    encode platform key = utf8Code.word (Char.ofNat key.unicodeChar.toNat) := by
  have length := length_utf8Code_word (Char.ofNat key.unicodeChar.toNat)
  have converted : platform.wideCharToMultiByte cpUtf8 [key.unicodeChar] =
      utf8Code.word (Char.ofNat key.unicodeChar.toNat) := by
    rw [replaces, utf16ToUtf8, lossy_plain replacementChar character.plain]
    simp
  rw [encode, if_neg (by simp [down])]
  split
  · rename_i control
    simp only [Bool.and_eq_true, beq_iff_eq] at control
    rw [ctrlC control.1 control.2]
    rfl
  · split
    · rename_i control
      simp only [Bool.and_eq_true, beq_iff_eq] at control
      rw [ctrlD control.1 control.2]
      rfl
    · rcases character.ordinary with none | ⟨tab, typed⟩
      · have narrow : narrowUtf16CodeUnit platform key.unicodeChar =
            utf8Code.word (Char.ofNat key.unicodeChar.toNat) := by
          simp only [narrowUtf16CodeUnit, if_neg character.typed, converted]
          rw [if_neg (by omega)]
        simp [none, narrow, noAlt]
      · rw [tab, typed]
        rfl

/-- A byte U+001B before one that continues no sequence is a character. -/
theorem decodeOneInputToken_escape (decodes : platform.DecodesUtf8) {next : Byte}
    (notSs3 : next ≠ bc 'O') (notCsi : next ≠ bc '[') (rest : List Byte) :
    platform.decodeOneInputToken cpUtf8 (0x1b :: next :: rest) = .token (.textUnits [0x1b]) 1 := by
  have noMatch : tryDecodeVt (0x1b :: next :: rest) = .noMatch := by
    change (if next = bc 'O' then _ else if next = bc '[' then _ else _) = _
    rw [if_neg notSs3, if_neg notCsi]
  have converted : platform.multiByteToWideChar cpUtf8 true [0x1b] = [0x1b] :=
    decodes (Char.ofNat 0x1b)
  have unit : platform.decodeOneConsoleInputUnit cpUtf8 (0x1b :: next :: rest) =
      platform.decodeSequence cpUtf8 true (0x1b :: next :: rest) 1 := rfl
  simp [Platform.decodeOneInputToken, noMatch, unit, Platform.decodeSequence, converted]

/-- The token of a character. -/
theorem KeyEvent.Character.token (decodes : platform.DecodesUtf8) (character : key.Character)
    {rest : List Byte} (followed : key.unicodeChar = 0x1b →
      ∃ next tail, rest = next :: tail ∧ next ≠ bc 'O' ∧ next ≠ bc '[') :
    platform.decodeOneInputToken cpUtf8
        (utf8Code.word (Char.ofNat key.unicodeChar.toNat) ++ rest) =
      .token (.textUnits [key.unicodeChar])
        (utf8Code.word (Char.ofNat key.unicodeChar.toNat)).length := by
  by_cases escape : key.unicodeChar = 0x1b
  · obtain ⟨next, tail, rfl, notSs3, notCsi⟩ := followed escape
    rw [escape]
    exact decodeOneInputToken_escape decodes notSs3 notCsi tail
  · have bound := key.unicodeChar.toNat_lt
    have value : (Char.ofNat key.unicodeChar.toNat).toNat = key.unicodeChar.toNat := by
      have plain := character.plain
      exact toNat_ofNat_of_valid (by omega)
    have other : (Char.ofNat key.unicodeChar.toNat).toNat ≠ 0x1b := by
      rw [value]
      intro same
      exact escape (UInt16.toNat_inj.mp same)
    rw [decodeOneInputToken_char decodes other, utf16Code_word_plain character.plain]

theorem encode_of_lookup (down : key.keyDown = true) {bytes : List Byte}
    (found : sequences.lookup key.virtualKeyCode = some bytes) : encode platform key = bytes := by
  have notC : key.virtualKeyCode ≠ 0x43 := by
    intro same
    rw [same] at found
    cases found
  have notD : key.virtualKeyCode ≠ 0x44 := by
    intro same
    rw [same] at found
    cases found
  simp [encode, down, notC, notD, found]

theorem tryDecodeVt_sequences : ∀ code ∈ editingKeys, code ≠ vkEscape →
    (sequences.lookup code).isSome ∧
      tryDecodeVt ((sequences.lookup code).getD []) =
        .produced (.keyEvent (VtInput.makeSimpleKeyEvent code))
          ((sequences.lookup code).getD []).length :=
  List.all_iff_forall_prop.mp (by decide)

/-- An editing key is decoded without what was pressed with it and without its repeat count. -/
theorem tryDecodeVt_encode (down : key.keyDown = true) (editing : key.virtualKeyCode ∈ editingKeys)
    (notEscape : key.virtualKeyCode ≠ vkEscape) :
    tryDecodeVt (encode platform key) =
      .produced (.keyEvent (VtInput.makeSimpleKeyEvent key.virtualKeyCode))
        (encode platform key).length := by
  obtain ⟨found, decoded⟩ := tryDecodeVt_sequences _ editing notEscape
  obtain ⟨bytes, lookup⟩ := Option.isSome_iff_exists.mp found
  rw [lookup, Option.getD_some] at decoded
  rw [encode_of_lookup down lookup, decoded]

namespace EditLine

variable {edit : EditLine} {controlZ : Bool}

/-- A character that ends the line does so whatever follows it. -/
theorem handleSingleUnit_ends {unit : WChar} (ends : KeyEvent.endsLine processed unit = true) :
    (edit.handleSingleUnit processed controlZ unit).outcome ≠ .proceed := by
  simp only [KeyEvent.endsLine, Bool.or_eq_true, Bool.and_eq_true, beq_iff_eq] at ends
  simp only [handleSingleUnit]
  split
  · simp
  · split
    · simp
    · rename_i notInterrupt
      have newline : unit = 13 ∨ unit = 10 := by
        rcases ends with newline | ⟨isProcessed, interrupt⟩
        · exact newline
        · simp [isProcessed, interrupt] at notInterrupt
      have notBackspace : unit ≠ 8 := by
        rintro rfl
        revert newline
        decide
      rw [if_neg notBackspace, if_pos newline]
      simp

theorem handleUnits_cons_ends {unit : WChar} (ends : KeyEvent.endsLine processed unit = true)
    (later : List WChar) :
    edit.handleUnits processed controlZ (unit :: later) =
      edit.handleSingleUnit processed controlZ unit := by
  have left : (edit.handleSingleUnit processed controlZ unit).outcome ≠ .proceed :=
    handleSingleUnit_ends ends
  rw [handleUnits]
  split
  · rename_i proceeds
    exact absurd proceeds left
  · rfl

/-- A repeated character does what one does if it is typed once or ends the line. -/
theorem handleUnits_replicate {unit : WChar} {count : Nat}
    (once : count ≤ 1 ∨ KeyEvent.endsLine processed unit = true) :
    edit.handleUnits processed controlZ (List.replicate (max 1 count) unit) =
      edit.handleUnits processed controlZ [unit] := by
  rcases once with once | ends
  · rw [Nat.max_eq_left once]
    rfl
  · obtain ⟨more, size⟩ : ∃ more, max 1 count = more + 1 := ⟨max 1 count - 1, by omega⟩
    rw [size, List.replicate_succ, handleUnits_cons_ends ends, handleUnits_cons_ends ends]

/-- A key that edits nothing counts by its character. -/
theorem handleToken_typed (down : key.keyDown = true) (typed : key.unicodeChar ≠ 0)
    (noBreak : (processed && key.matchesCtrlBreak) = false)
    (noInterrupt : (processed && key.matchesCtrlC) = false)
    (ordinary : key.virtualKeyCode ∉ editingKeys)
    (once : key.repeatCount.toNat ≤ 1 ∨ KeyEvent.endsLine processed key.unicodeChar = true) :
    edit.handleToken processed controlZ (.keyEvent key) =
      edit.handleToken processed controlZ (.textUnits [key.unicodeChar]) := by
  have noEdit (ctrl : Bool) (count : Nat) : edit.editKey key.virtualKeyCode ctrl count = none := by
    simp only [editingKeys, List.mem_cons, List.not_mem_nil, or_false, not_or] at ordinary
    simp [editKey, ordinary]
  simp only [handleToken, down, noBreak, noInterrupt, noEdit]
  simpa [typed] using handleUnits_replicate once

/-- Ctrl+C interrupts by its key as by its character. -/
theorem Normalized.handleToken_interrupt (normalized : edit.Normalized)
    (down : key.keyDown = true) (noBreak : (processed && key.matchesCtrlBreak) = false)
    (interrupt : (processed && key.matchesCtrlC) = true) (typed : key.unicodeChar = 3) :
    edit.handleToken processed controlZ (.keyEvent key) =
      edit.handleToken processed controlZ (.textUnits [key.unicodeChar]) := by
  have isProcessed : processed = true := (Bool.and_eq_true _ _ ▸ interrupt).1
  have key' : edit.handleToken processed controlZ (.keyEvent key) =
      { edit, outcome := .ctrlC } := by
    simp [EditLine.handleToken, down, noBreak, interrupt]
  have text : edit.handleSingleUnit processed controlZ 3 = { edit, outcome := .ctrlC } := by
    simp [handleSingleUnit, normalized.normalizeCursor_eq, isProcessed]
  rw [key', typed, EditLine.handleToken,
    handleUnits_cons_ends (by simp [KeyEvent.endsLine, isProcessed]), text]

/-- An editing key pressed alone does what the key does. -/
theorem handleToken_editing {code : UInt16} (down : key.keyDown = true)
    (same : key.virtualKeyCode = code) (editing : code ∈ editingKeys)
    (alike : edit.editKey code key.ctrlPressed (max 1 key.repeatCount.toNat) =
      edit.editKey code false 1) :
    edit.handleToken processed controlZ (.keyEvent key) =
      edit.handleToken processed controlZ (.keyEvent (VtInput.makeSimpleKeyEvent code)) := by
  have others : ∀ code ∈ editingKeys, code ≠ 0x43 ∧ code ≠ 0x03 :=
    List.all_iff_forall_prop.mp (by decide)
  obtain ⟨notC, notCancel⟩ := others code editing
  have noBreak : key.matchesCtrlBreak = false := by
    simp [KeyEvent.matchesCtrlBreak, same, notCancel]
  have noInterrupt : key.matchesCtrlC = false := by
    simp [KeyEvent.matchesCtrlC, same, notC]
  have isSome : (edit.editKey code false 1).isSome = true := by
    simp only [editingKeys, List.mem_cons, List.not_mem_nil, or_false] at editing
    rcases editing with rfl | rfl | rfl | rfl | rfl | rfl | rfl <;> rfl
  obtain ⟨next, edited⟩ := Option.isSome_iff_exists.mp isSome
  have alike' : edit.editKey code (key.controlKeyState &&& 0x000c != 0)
      (max 1 key.repeatCount.toNat) = some next := alike.trans edited
  have pressed : edit.handleToken processed controlZ (.keyEvent key) =
      { edit := next.1, echoes := next.2 } := by
    simp [handleToken, down, noBreak, noInterrupt, same, alike']
  have alone : edit.handleToken processed controlZ
      (.keyEvent (VtInput.makeSimpleKeyEvent code)) = { edit := next.1, echoes := next.2 } := by
    simp [handleToken, VtInput.makeSimpleKeyEvent, KeyEvent.matchesCtrlBreak,
      KeyEvent.matchesCtrlC, KeyEvent.controlOnly, edited]
  rw [pressed, alone]

end EditLine

/-- The tokens of the window's bytes and of the key do the same to every line. -/
def KeyEvent.ReadAs (platform : Platform) (processed : Bool) (key : KeyEvent) (rest : List Byte) :
    Prop :=
  ∃ token, platform.decodeOneInputToken cpUtf8 (encode platform key ++ rest) =
      .token token (encode platform key).length ∧
    ∀ controlZ (edit : EditLine), edit.Normalized →
      edit.handleToken processed controlZ token =
        edit.handleToken processed controlZ (.keyEvent key)

theorem readAs_editing {code : UInt16} (down : key.keyDown = true)
    (same : key.virtualKeyCode = code) (editing : code ∈ editingKeys) (notEscape : code ≠ vkEscape)
    (alike : ∀ edit : EditLine, edit.editKey code key.ctrlPressed (max 1 key.repeatCount.toNat) =
      edit.editKey code false 1) (rest : List Byte) : key.ReadAs platform processed rest := by
  subst same
  refine ⟨.keyEvent (VtInput.makeSimpleKeyEvent key.virtualKeyCode), ?_, ?_⟩
  · apply Platform.decodeOneInputToken_stable
    rw [Platform.decodeOneInputToken, tryDecodeVt_encode down editing notEscape]
  · intro controlZ edit _
    exact (EditLine.handleToken_editing down rfl editing (alike edit)).symm

theorem KeyEvent.Character.ordinary_code (character : key.Character) :
    key.virtualKeyCode ∉ editingKeys := by
  have found : ∀ code ∈ editingKeys, (sequences.lookup code).isSome ∧ code ≠ vkTab :=
    List.all_iff_forall_prop.mp (by decide)
  intro editing
  obtain ⟨isSome, notTab⟩ := found _ editing
  rcases character.ordinary with none | ⟨tab, -⟩
  · simp [none] at isSome
  · exact notTab tab

theorem sideways_editing : ∀ code ∈ [VtInput.vkLeft, VtInput.vkRight], code ∈ editingKeys :=
  List.all_iff_forall_prop.mp (by decide)

theorem ends_editing : ∀ code ∈ [VtInput.vkHome, VtInput.vkEnd], code ∈ editingKeys :=
  List.all_iff_forall_prop.mp (by decide)

section Typed

variable {edit : EditLine} {controlZ : Bool}

theorem KeyEvent.Character.handleToken_eq (character : key.Character) (down : key.keyDown = true)
    (ctrlC : key.ctrlPressed = true → key.virtualKeyCode = 0x43 → key.unicodeChar = 3)
    (noBreak : (processed && key.matchesCtrlBreak) = false)
    (once : key.repeatCount.toNat ≤ 1 ∨ KeyEvent.endsLine processed key.unicodeChar = true)
    (normalized : edit.Normalized) :
    edit.handleToken processed controlZ (.keyEvent key) =
      edit.handleToken processed controlZ (.textUnits [key.unicodeChar]) := by
  by_cases interrupt : (processed && key.matchesCtrlC) = true
  · apply normalized.handleToken_interrupt down noBreak interrupt
    simp only [KeyEvent.matchesCtrlC, KeyEvent.controlOnly, Bool.and_eq_true,
      beq_iff_eq] at interrupt
    exact ctrlC interrupt.2.1.1 interrupt.2.2
  · exact EditLine.handleToken_typed down character.typed noBreak (by simpa using interrupt)
      character.ordinary_code once

theorem enter_handleToken_eq (down : key.keyDown = true) (code : key.virtualKeyCode = vkReturn)
    (typed : key.unicodeChar = 13) :
    edit.handleToken processed controlZ (.keyEvent key) =
      edit.handleToken processed controlZ (.textUnits [key.unicodeChar]) := by
  refine EditLine.handleToken_typed down (by simp [typed]) ?_ ?_ (by rw [code]; decide) ?_
  · simp [KeyEvent.matchesCtrlBreak, code, vkReturn]
  · simp [KeyEvent.matchesCtrlC, code, vkReturn]
  · simp [KeyEvent.endsLine, typed]

/-- A faithful key that ends the read ends it on every line. -/
theorem KeyEvent.Faithful.outcome (faithful : key.Faithful processed) (down : key.keyDown = true)
    (ends : key.EndsRead processed) (normalized : edit.Normalized) :
    (edit.handleToken processed controlZ (.keyEvent key)).outcome ≠ .proceed := by
  have typed (unit : WChar) (ends : KeyEvent.endsLine processed unit = true) :
      (edit.handleToken processed controlZ (.textUnits [unit])).outcome ≠ .proceed := by
    rw [EditLine.handleToken, EditLine.handleUnits_cons_ends ends]
    exact EditLine.handleSingleUnit_ends ends
  have other (editing : key.virtualKeyCode ∈ editingKeys) : False := by
    rcases ends with code | ⟨character, -⟩
    · rw [code] at editing
      revert editing
      decide
    · exact character.ordinary_code editing
  cases faithful with
  | character character noAlt ctrlC ctrlD noBreak once =>
      rw [character.handleToken_eq down ctrlC noBreak once normalized]
      rcases ends with code | ⟨-, ends⟩
      · exact absurd code character.code_ne_return
      · exact typed _ ends
  | enter code carriageReturn =>
      rw [enter_handleToken_eq down code carriageReturn, carriageReturn]
      exact typed 13 (by simp [KeyEvent.endsLine])
  | sideways code noCtrl once => exact absurd (sideways_editing _ code) other
  | ends code noCtrl => exact absurd (ends_editing _ code) other
  | delete code once => exact absurd (by simp [code, editingKeys]) other
  | insert code odd => exact absurd (by simp [code, editingKeys]) other

end Typed

/-- The bytes of a faithful key are one token that does to a line what the key does. -/
theorem KeyEvent.Faithful.readAs (decodes : platform.DecodesUtf8)
    (replaces : platform.ReplacesLoneSurrogates) (faithful : key.Faithful processed)
    (down : key.keyDown = true) {rest : List Byte}
    (followed : key.TypesEscape → ∃ next tail, rest = next :: tail ∧ next ≠ bc 'O' ∧
      next ≠ bc '[') : key.ReadAs platform processed rest := by
  cases faithful with
  | character character noAlt ctrlC ctrlD noBreak once =>
      refine ⟨.textUnits [key.unicodeChar], ?_, ?_⟩
      · rw [character.encode_eq replaces down noAlt ctrlC ctrlD]
        exact character.token decodes fun escape => followed ⟨character, escape⟩
      · intro controlZ edit normalized
        exact (character.handleToken_eq down ctrlC noBreak once normalized).symm
  | enter code typed =>
      have encoded : encode platform key = utf8Code.word (Char.ofNat 13) := by
        apply encode_of_lookup down
        rw [code]
        rfl
      refine ⟨.textUnits [13], ?_, ?_⟩
      · rw [encoded]
        exact decodeOneInputToken_char decodes (by decide) rest
      · intro controlZ edit _
        rw [← typed]
        exact (enter_handleToken_eq down code typed).symm
  | sideways code noCtrl once =>
      have count : max 1 key.repeatCount.toNat = 1 := Nat.max_eq_left once
      simp only [List.mem_cons, List.not_mem_nil, or_false] at code
      rcases code with code | code <;>
        exact readAs_editing down code (by decide) (by decide) (by simp [noCtrl, count]) rest
  | ends code noCtrl =>
      simp only [List.mem_cons, List.not_mem_nil, or_false] at code
      rcases code with code | code <;>
        exact readAs_editing down code (by decide) (by decide) (fun _ => by rw [noCtrl]; rfl) rest
  | delete code once =>
      have count : max 1 key.repeatCount.toNat = 1 := Nat.max_eq_left once
      exact readAs_editing down code (by decide) (by decide) (fun _ => by rw [count]; rfl) rest
  | insert code odd =>
      exact readAs_editing down code (by decide) (by decide) (by simp [EditLine.editKey, odd]) rest

/-- The window sends a faithful key as its character or as the sequence of its code. -/
theorem KeyEvent.Faithful.encode_cases (replaces : platform.ReplacesLoneSurrogates)
    (faithful : key.Faithful processed) (down : key.keyDown = true) :
    key.Character ∧ encode platform key = utf8Code.word (Char.ofNat key.unicodeChar.toNat) ∨
      key.virtualKeyCode ∈ vkReturn :: editingKeys ∧
        encode platform key = (sequences.lookup key.virtualKeyCode).getD [] := by
  have named (code : key.virtualKeyCode ∈ vkReturn :: editingKeys) :
      encode platform key = (sequences.lookup key.virtualKeyCode).getD [] := by
    have found : ∀ code ∈ vkReturn :: editingKeys, (sequences.lookup code).isSome :=
      List.all_iff_forall_prop.mp (by decide)
    obtain ⟨bytes, lookup⟩ := Option.isSome_iff_exists.mp (found _ code)
    rw [encode_of_lookup down lookup, lookup, Option.getD_some]
  have editing (code : key.virtualKeyCode ∈ editingKeys) :=
    And.intro (List.mem_cons_of_mem vkReturn code) (named (List.mem_cons_of_mem vkReturn code))
  cases faithful with
  | character character noAlt ctrlC ctrlD noBreak once =>
      exact .inl ⟨character, character.encode_eq replaces down noAlt ctrlC ctrlD⟩
  | enter code typed =>
      have member : key.virtualKeyCode ∈ vkReturn :: editingKeys := by simp [code]
      exact .inr ⟨member, named member⟩
  | sideways code noCtrl once => exact .inr (editing (sideways_editing _ code))
  | ends code noCtrl => exact .inr (editing (ends_editing _ code))
  | delete code once => exact .inr (editing (by simp [code, editingKeys]))
  | insert code odd => exact .inr (editing (by simp [code, editingKeys]))

theorem KeyEvent.Faithful.length_encode (replaces : platform.ReplacesLoneSurrogates)
    (faithful : key.Faithful processed) (down : key.keyDown = true) :
    (encode platform key).length ≤ 4 := by
  rcases faithful.encode_cases replaces down with ⟨-, word⟩ | ⟨code, sequence⟩
  · rw [word]
    exact (length_utf8Code_word _).2
  · have short : ∀ code ∈ vkReturn :: editingKeys,
        ((sequences.lookup code).getD []).length ≤ 4 :=
      List.all_iff_forall_prop.mp (by decide)
    rw [sequence]
    exact short _ code

/-- The first byte of a faithful key begins a sequence or its character. -/
theorem KeyEvent.Faithful.encode_head (replaces : platform.ReplacesLoneSurrogates)
    (faithful : key.Faithful processed) (down : key.keyDown = true)
    (plain : ¬key.TypesIntroducer) :
    ∃ next tail, encode platform key = next :: tail ∧ next ≠ bc 'O' ∧ next ≠ bc '[' := by
  rcases faithful.encode_cases replaces down with ⟨character, word⟩ | ⟨code, sequence⟩
  · obtain ⟨lead, tail, split, ascii⟩ := utf8Code_word_ascii (Char.ofNat key.unicodeChar.toNat)
    have bound := key.unicodeChar.toNat_lt
    have range := character.plain
    rw [toNat_ofNat_of_valid (by omega)] at ascii
    refine ⟨lead, tail, word.trans split, ?_, ?_⟩
    · rintro rfl
      exact plain ⟨character, .inr (UInt16.toNat_inj.mp (ascii (by decide)).symm)⟩
    · rintro rfl
      exact plain ⟨character, .inl (UInt16.toNat_inj.mp (ascii (by decide)).symm)⟩
  · have heads : ∀ code ∈ vkReturn :: editingKeys, ∃ next ∈ [0x0d, 0x1b],
        ((sequences.lookup code).getD []).head? = some next ∧ next ≠ bc 'O' ∧ next ≠ bc '[' :=
      List.all_iff_forall_prop.mp (by decide)
    obtain ⟨next, -, head, others⟩ := heads _ code
    obtain ⟨tail, bytes⟩ := List.head?_eq_some_iff.mp head
    exact ⟨next, tail, sequence.trans bytes, others⟩

end Conhost
