import Conhost.Basic

/-!
# VT input sequences

`vt_input::try_decode_vt`: the terminal may send key events as
win32-input-mode sequences, classic escape sequences for special keys and
replies that are not input at all. The bytes left over by this decoder are
text in the input code page.
-/

namespace Conhost

/-- A `KEY_EVENT_RECORD`. -/
structure KeyEvent where
  keyDown : Bool := true
  repeatCount : UInt16 := 1
  virtualKeyCode : UInt16 := 0
  virtualScanCode : UInt16 := 0
  unicodeChar : WChar := 0
  controlKeyState : UInt32 := 0
deriving DecidableEq, Repr

/-- `vt_input::TokenKind` together with the payload each kind uses. -/
inductive Token where
  | keyEvent (key : KeyEvent)
  | ignoredSequence
  | textUnits (chars : List WChar)
deriving DecidableEq, Repr

namespace VtInput

/-- `vt_input::DecodeResult`; a produced token carries its `bytes_consumed`. -/
inductive DecodeResult where
  | produced (token : Token) (bytesConsumed : Nat)
  | needMoreData
  | noMatch
deriving DecidableEq, Repr

def escByte : Byte := 0x1b

/-- C1 CSI. -/
def csiByte : Byte := 0x9b

def vkPrior : UInt16 := 0x21
def vkNext : UInt16 := 0x22
def vkEnd : UInt16 := 0x23
def vkHome : UInt16 := 0x24
def vkLeft : UInt16 := 0x25
def vkUp : UInt16 := 0x26
def vkRight : UInt16 := 0x27
def vkDown : UInt16 := 0x28
def vkInsert : UInt16 := 0x2d
def vkDelete : UInt16 := 0x2e
def vkF1 : UInt16 := 0x70
def vkF2 : UInt16 := 0x71
def vkF3 : UInt16 := 0x72
def vkF4 : UInt16 := 0x73

def saturatingMulAdd10 (value digit : UInt32) : UInt32 :=
  if (0xffffffff - digit) / 10 < value then 0xffffffff else value * 10 + digit

structure ParsedParam where
  present : Bool := false
  value : UInt32 := 0
deriving DecidableEq, Repr

def saturateWord (value : UInt32) : UInt16 := if 0xffff < value then 0xffff else value.toUInt16

def makeSimpleKeyEvent (virtualKey : UInt16) : KeyEvent := { virtualKeyCode := virtualKey }

def functionKey (final : Byte) : Option UInt16 :=
  if final = bc 'P' then some vkF1
  else if final = bc 'Q' then some vkF2
  else if final = bc 'R' then some vkF3
  else if final = bc 'S' then some vkF4
  else none

/-- `decode_ss3` on the bytes after `ESC O`. -/
def decodeSs3 : List Byte → DecodeResult
  | [] => .needMoreData
  | final :: _ =>
      match functionKey final with
      | some virtualKey => .produced (.keyEvent (makeSimpleKeyEvent virtualKey)) 3
      | none => .noMatch

def isDigit (ch : Byte) : Bool := bc '0' ≤ ch && ch ≤ bc '9'

/-- The DA1 response `CSI ? ... c`; `pos` is the position of the first byte of the list. -/
def scanDeviceAttributes (pos : Nat) : List Byte → DecodeResult
  | [] => .needMoreData
  | ch :: rest =>
      if ch = bc 'c' then .produced .ignoredSequence (pos + 1)
      else if ¬(ch = bc ';' ∨ isDigit ch) then .noMatch
      else scanDeviceAttributes (pos + 1) rest

/-- The locals of the parameter loop of `decode_csi`. -/
structure ParamScan where
  params : List ParsedParam := List.replicate 6 {}
  paramIndex : Nat := 0
  current : UInt32 := 0
  currentPresent : Bool := false

namespace ParamScan

def digit (scan : ParamScan) (ch : Byte) : ParamScan :=
  { scan with currentPresent := true,
              current := saturatingMulAdd10 scan.current (ch - bc '0').toUInt32 }

/-- `if (param_index < params.size()) params[param_index] = ...` -/
def store (scan : ParamScan) : List ParsedParam :=
  scan.params.set scan.paramIndex ⟨scan.currentPresent, scan.current⟩

def separator (scan : ParamScan) : ParamScan where
  params := scan.store
  paramIndex := scan.paramIndex + 1

def valueOr (params : List ParsedParam) (index : Nat) (default : UInt32) : UInt32 :=
  let param := params.getD index {}
  if param.present then param.value else default

/-- `CSI Vk ; Sc ; Uc ; Kd ; Cs ; Rc _` -/
def win32Key (params : List ParsedParam) : KeyEvent where
  keyDown := valueOr params 3 0 != 0
  repeatCount := saturateWord (valueOr params 5 1)
  virtualKeyCode := saturateWord (valueOr params 0 0)
  virtualScanCode := saturateWord (valueOr params 1 0)
  unicodeChar := saturateWord (valueOr params 2 0)
  controlKeyState := valueOr params 4 0

def editingKey (value : UInt32) : Option UInt16 :=
  if value = 2 then some vkInsert
  else if value = 3 then some vkDelete
  else if value = 5 then some vkPrior
  else if value = 6 then some vkNext
  else none

/-- The part of `decode_csi` after the parameter loop; `pos` is the position of the terminator. -/
def finish (scan : ParamScan) (pos : Nat) (terminator : Byte) : DecodeResult :=
  let params := scan.store
  if terminator = bc '~' then
    if scan.paramIndex ≠ 0 ∨ ¬(params.getD 0 {}).present then .noMatch
    else
      match editingKey (params.getD 0 {}).value with
      | some virtualKey => .produced (.keyEvent (makeSimpleKeyEvent virtualKey)) (pos + 1)
      | none => .noMatch
  else if terminator = bc '_' then .produced (.keyEvent (win32Key params)) (pos + 1)
  else .noMatch

end ParamScan

/-- The parameter loop of `decode_csi`. -/
def scanParams (scan : ParamScan) (pos : Nat) : List Byte → DecodeResult
  | [] => .needMoreData
  | ch :: rest =>
      if isDigit ch then scanParams (scan.digit ch) (pos + 1) rest
      else if ch = bc ';' then scanParams scan.separator (pos + 1) rest
      else scan.finish pos ch

def cursorKey (first : Byte) : Option UInt16 :=
  if first = bc 'A' then some vkUp
  else if first = bc 'B' then some vkDown
  else if first = bc 'C' then some vkRight
  else if first = bc 'D' then some vkLeft
  else if first = bc 'H' then some vkHome
  else if first = bc 'F' then some vkEnd
  else none

/-- `decode_csi` on the bytes after an introducer of `prefixLen` bytes. -/
def decodeCsi (prefixLen : Nat) : List Byte → DecodeResult
  | [] => .needMoreData
  | first :: rest =>
      if first = bc 'I' ∨ first = bc 'O' then .produced .ignoredSequence (prefixLen + 1)
      else
        match cursorKey first with
        | some virtualKey => .produced (.keyEvent (makeSimpleKeyEvent virtualKey)) (prefixLen + 1)
        | none =>
            if first = bc '?' then scanDeviceAttributes (prefixLen + 1) rest
            else scanParams {} prefixLen (first :: rest)

/-- `vt_input::try_decode_vt` -/
def tryDecodeVt : List Byte → DecodeResult
  | [] => .noMatch
  | first :: rest =>
      if first = escByte then
        match rest with
        | [] => .needMoreData
        | second :: tail =>
            if second = bc 'O' then decodeSs3 tail
            else if second = bc '[' then decodeCsi 2 tail
            else .noMatch
      else if first = csiByte then decodeCsi 1 rest
      else .noMatch

/-- Further bytes do not revise a decision. -/
def DecodeResult.Settled (before after : DecodeResult) : Prop :=
  before ≠ .needMoreData → after = before

theorem decodeSs3_append (bytes more : List Byte) :
    (decodeSs3 bytes).Settled (decodeSs3 (bytes ++ more)) := by
  intro decided
  cases bytes with
  | nil => exact absurd rfl decided
  | cons final rest => rfl

theorem scanDeviceAttributes_append (pos : Nat) (bytes more : List Byte) :
    (scanDeviceAttributes pos bytes).Settled (scanDeviceAttributes pos (bytes ++ more)) := by
  induction bytes generalizing pos with
  | nil => intro decided; exact absurd rfl decided
  | cons ch rest hypothesis =>
      intro decided
      simp only [List.cons_append, scanDeviceAttributes] at decided ⊢
      split
      · rfl
      · split
        · rfl
        · rename_i notFinal parameter
          rw [if_neg notFinal, if_neg parameter] at decided
          exact hypothesis (pos + 1) decided

theorem scanParams_append (scan : ParamScan) (pos : Nat) (bytes more : List Byte) :
    (scanParams scan pos bytes).Settled (scanParams scan pos (bytes ++ more)) := by
  induction bytes generalizing scan pos with
  | nil => intro decided; exact absurd rfl decided
  | cons ch rest hypothesis =>
      intro decided
      simp only [List.cons_append, scanParams] at decided ⊢
      split
      · rename_i digit
        rw [if_pos digit] at decided
        exact hypothesis (scan.digit ch) (pos + 1) decided
      · split
        · rename_i notDigit separator
          rw [if_neg notDigit, if_pos separator] at decided
          exact hypothesis scan.separator (pos + 1) decided
        · rfl

theorem decodeCsi_append (prefixLen : Nat) (bytes more : List Byte) :
    (decodeCsi prefixLen bytes).Settled (decodeCsi prefixLen (bytes ++ more)) := by
  intro decided
  cases bytes with
  | nil => exact absurd rfl decided
  | cons first rest =>
      simp only [List.cons_append, decodeCsi] at decided ⊢
      split
      · rfl
      · rename_i notFocus
        rw [if_neg notFocus] at decided
        cases key : cursorKey first with
        | some virtualKey => rfl
        | none =>
            rw [key] at decided
            simp only at decided ⊢
            split
            · rename_i query
              rw [if_pos query] at decided
              exact scanDeviceAttributes_append _ rest more decided
            · rename_i notQuery
              rw [if_neg notQuery] at decided
              exact scanParams_append {} prefixLen (first :: rest) more decided

/-- Once bytes have arrived, a decision of `tryDecodeVt` is final. -/
theorem tryDecodeVt_append {bytes : List Byte} (nonempty : bytes ≠ []) (more : List Byte) :
    (tryDecodeVt bytes).Settled (tryDecodeVt (bytes ++ more)) := by
  intro decided
  cases bytes with
  | nil => exact absurd rfl nonempty
  | cons first rest =>
      simp only [List.cons_append, tryDecodeVt] at decided ⊢
      split
      · rename_i escape
        rw [if_pos escape] at decided
        cases rest with
        | nil => exact absurd rfl decided
        | cons second tail =>
            simp only [List.cons_append] at decided ⊢
            split
            · rename_i ss3
              rw [if_pos ss3] at decided
              exact decodeSs3_append tail more decided
            · rename_i notSs3
              rw [if_neg notSs3] at decided
              split
              · rename_i csi
                rw [if_pos csi] at decided
                exact decodeCsi_append 2 tail more decided
              · rfl
      · rename_i notEscape
        rw [if_neg notEscape] at decided
        split
        · rename_i csi
          rw [if_pos csi] at decided
          exact decodeCsi_append 1 rest more decided
        · rfl

/-- A produced token is not text, has more than `low` bytes and at most `high`. -/
def DecodeResult.Within (result : DecodeResult) (low high : Nat) : Prop :=
  ∀ {token length}, result = .produced token length →
    low < length ∧ length ≤ high ∧ ∀ chars, token ≠ .textUnits chars

theorem scanDeviceAttributes_within (pos : Nat) (bytes : List Byte) :
    (scanDeviceAttributes pos bytes).Within pos (pos + bytes.length) := by
  induction bytes generalizing pos with
  | nil => intro token length produced; cases produced
  | cons ch rest hypothesis =>
      intro token length produced
      simp only [scanDeviceAttributes] at produced
      split at produced
      · cases produced
        simp
      · split at produced
        · cases produced
        · obtain ⟨above, below, kind⟩ := hypothesis (pos + 1) produced
          simp only [List.length_cons]
          exact ⟨by omega, by omega, kind⟩

theorem ParamScan.finish_within (scan : ParamScan) (pos : Nat) (terminator : Byte) :
    (scan.finish pos terminator).Within pos (pos + 1) := by
  intro token length produced
  simp only [finish] at produced
  split at produced
  · split at produced
    · cases produced
    · split at produced
      · cases produced
        simp
      · cases produced
  · split at produced
    · cases produced
      simp
    · cases produced

theorem scanParams_within (scan : ParamScan) (pos : Nat) (bytes : List Byte) :
    (scanParams scan pos bytes).Within pos (pos + bytes.length) := by
  induction bytes generalizing scan pos with
  | nil => intro token length produced; cases produced
  | cons ch rest hypothesis =>
      intro token length produced
      simp only [scanParams] at produced
      simp only [List.length_cons]
      split at produced
      · obtain ⟨above, below, kind⟩ := hypothesis (scan.digit ch) (pos + 1) produced
        exact ⟨by omega, by omega, kind⟩
      · split at produced
        · obtain ⟨above, below, kind⟩ := hypothesis scan.separator (pos + 1) produced
          exact ⟨by omega, by omega, kind⟩
        · obtain ⟨above, below, kind⟩ := scan.finish_within pos ch produced
          exact ⟨above, by omega, kind⟩

theorem decodeCsi_within (prefixLen : Nat) (bytes : List Byte) :
    (decodeCsi prefixLen bytes).Within prefixLen (prefixLen + bytes.length) := by
  intro token length produced
  cases bytes with
  | nil => cases produced
  | cons first rest =>
      simp only [decodeCsi] at produced
      split at produced
      · cases produced
        simp
      · split at produced
        · cases produced
          simp
        · split at produced
          · obtain ⟨above, below, kind⟩ := scanDeviceAttributes_within _ rest produced
            simp only [List.length_cons]
            exact ⟨by omega, by omega, kind⟩
          · exact scanParams_within {} prefixLen (first :: rest) produced

theorem tryDecodeVt_within (bytes : List Byte) : (tryDecodeVt bytes).Within 1 bytes.length := by
  intro token length produced
  cases bytes with
  | nil => cases produced
  | cons first rest =>
      simp only [tryDecodeVt] at produced
      split at produced
      · cases rest with
        | nil => cases produced
        | cons second tail =>
            simp only at produced
            simp only [List.length_cons]
            split at produced
            · cases tail with
              | nil => cases produced
              | cons final tail =>
                  simp only [decodeSs3] at produced
                  split at produced
                  · cases produced
                    simp
                  · cases produced
            · split at produced
              · obtain ⟨above, below, kind⟩ := decodeCsi_within 2 tail produced
                exact ⟨by omega, by omega, kind⟩
              · cases produced
      · split at produced
        · obtain ⟨above, below, kind⟩ := decodeCsi_within 1 rest produced
          simp only [List.length_cons]
          exact ⟨above, by omega, kind⟩
        · cases produced

/-- A byte that continues no VT sequence. -/
def plainByte : Byte := bc 'x'

theorem scanDeviceAttributes_break (pos : Nat) (bytes more : List Byte)
    (waiting : scanDeviceAttributes pos bytes = .needMoreData) :
    scanDeviceAttributes pos (bytes ++ plainByte :: more) = .noMatch := by
  induction bytes generalizing pos with
  | nil => rfl
  | cons ch rest hypothesis =>
      simp only [List.cons_append, scanDeviceAttributes] at waiting ⊢
      split at waiting
      · cases waiting
      · rename_i notFinal
        rw [if_neg notFinal]
        split at waiting
        · cases waiting
        · rename_i parameter
          rw [if_neg parameter]
          exact hypothesis (pos + 1) waiting

theorem scanParams_break (scan : ParamScan) (pos : Nat) (bytes more : List Byte)
    (waiting : scanParams scan pos bytes = .needMoreData) :
    scanParams scan pos (bytes ++ plainByte :: more) = .noMatch := by
  induction bytes generalizing scan pos with
  | nil => rfl
  | cons ch rest hypothesis =>
      simp only [List.cons_append, scanParams] at waiting ⊢
      split at waiting
      · rename_i digit
        rw [if_pos digit]
        exact hypothesis (scan.digit ch) (pos + 1) waiting
      · rename_i notDigit
        rw [if_neg notDigit]
        split at waiting
        · rename_i separator
          rw [if_pos separator]
          exact hypothesis scan.separator (pos + 1) waiting
        · simp only [ParamScan.finish] at waiting
          split at waiting
          · split at waiting
            · cases waiting
            · split at waiting <;> cases waiting
          · split at waiting <;> cases waiting

theorem decodeCsi_break (prefixLen : Nat) (bytes more : List Byte)
    (waiting : decodeCsi prefixLen bytes = .needMoreData) :
    decodeCsi prefixLen (bytes ++ plainByte :: more) = .noMatch := by
  cases bytes with
  | nil => rfl
  | cons first rest =>
      simp only [List.cons_append, decodeCsi] at waiting ⊢
      split at waiting
      · cases waiting
      · rename_i notFocus
        rw [if_neg notFocus]
        cases key : cursorKey first with
        | some virtualKey =>
            rw [key] at waiting
            cases waiting
        | none =>
            rw [key] at waiting
            simp only at waiting ⊢
            split at waiting
            · rename_i query
              rw [if_pos query]
              exact scanDeviceAttributes_break _ rest more waiting
            · rename_i notQuery
              rw [if_neg notQuery]
              exact scanParams_break {} prefixLen (first :: rest) more waiting

/-- Every unfinished VT sequence can be broken off. -/
theorem tryDecodeVt_break {bytes : List Byte} (more : List Byte)
    (waiting : tryDecodeVt bytes = .needMoreData) :
    tryDecodeVt (bytes ++ plainByte :: more) = .noMatch := by
  cases bytes with
  | nil => cases waiting
  | cons first rest =>
      simp only [List.cons_append, tryDecodeVt] at waiting ⊢
      split at waiting
      · rename_i escape
        rw [if_pos escape]
        cases rest with
        | nil => rfl
        | cons second tail =>
            simp only [List.cons_append] at waiting ⊢
            split at waiting
            · rename_i ss3
              rw [if_pos ss3]
              cases tail with
              | nil => rfl
              | cons final tail =>
                  simp only [decodeSs3] at waiting
                  split at waiting <;> cases waiting
            · rename_i notSs3
              rw [if_neg notSs3]
              split at waiting
              · rename_i csi
                rw [if_pos csi]
                exact decodeCsi_break 2 tail more waiting
              · cases waiting
      · rename_i notEscape
        rw [if_neg notEscape]
        split at waiting
        · rename_i csi
          rw [if_pos csi]
          exact decodeCsi_break 1 rest more waiting
        · cases waiting

end VtInput

end Conhost
