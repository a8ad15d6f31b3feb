import Conhost.Input.VtGrammar
import Conhost.Input.TextTokens
import Conhost.Core.Utf8Exact

/-!
# What the decoder waits for

The tokenizer of the input stream never revises a token, and it asks for more
bytes in the middle of a VT sequence or of a character. Every beginning of a VT
sequence can be completed. The length of a character is read off its first byte
alone, so that in UTF-8 the decoder also waits for the rest of a sequence that
no byte can make well formed.
-/

namespace Conhost

open VtInput (tryDecodeVt)

namespace VtInput

theorem scanDeviceAttributes_complete (pos : Nat) (bytes : List Byte)
    (waiting : scanDeviceAttributes pos bytes = .needMoreData) :
    ∃ token length, scanDeviceAttributes pos (bytes ++ [bc 'c']) = .produced token length := by
  induction bytes generalizing pos with
  | nil => exact ⟨.ignoredSequence, pos + 1, rfl⟩
  | cons ch rest hypothesis =>
      simp only [List.cons_append, scanDeviceAttributes] at waiting ⊢
      split at waiting
      · cases waiting
      · rename_i notFinal
        rw [if_neg notFinal]
        split at waiting
        · cases waiting
        · rename_i parameter
          rw [if_neg parameter]
          exact hypothesis (pos + 1) waiting

theorem ParamScan.finish_decided (scan : ParamScan) (pos : Nat) (terminator : Byte) :
    scan.finish pos terminator ≠ .needMoreData := by
  intro waiting
  simp only [finish] at waiting
  split at waiting
  · split at waiting
    · cases waiting
    · split at waiting
      · cases waiting
      · cases waiting
  · split at waiting
    · cases waiting
    · cases waiting

theorem scanParams_complete (scan : ParamScan) (pos : Nat) (bytes : List Byte)
    (waiting : scanParams scan pos bytes = .needMoreData) :
    ∃ token length, scanParams scan pos (bytes ++ [bc '_']) = .produced token length := by
  induction bytes generalizing scan pos with
  | nil => exact ⟨.keyEvent (ParamScan.win32Key scan.store), pos + 1, rfl⟩
  | cons ch rest hypothesis =>
      simp only [List.cons_append, scanParams] at waiting ⊢
      split at waiting
      · rename_i digit
        rw [if_pos digit]
        exact hypothesis (scan.digit ch) (pos + 1) waiting
      · rename_i notDigit
        rw [if_neg notDigit]
        split at waiting
        · rename_i separator
          rw [if_pos separator]
          exact hypothesis scan.separator (pos + 1) waiting
        · exact absurd waiting (scan.finish_decided pos ch)

theorem decodeCsi_complete (prefixLen : Nat) (bytes : List Byte)
    (waiting : decodeCsi prefixLen bytes = .needMoreData) :
    ∃ more token length, decodeCsi prefixLen (bytes ++ more) = .produced token length := by
  cases bytes with
  | nil => exact ⟨[bc 'I'], .ignoredSequence, prefixLen + 1, rfl⟩
  | cons first rest =>
      simp only [List.cons_append, decodeCsi] at waiting ⊢
      split at waiting
      · cases waiting
      · rename_i notFocus
        simp only [if_neg notFocus]
        cases key : cursorKey first with
        | some virtualKey =>
            rw [key] at waiting
            cases waiting
        | none =>
            rw [key] at waiting
            simp only at waiting ⊢
            split at waiting
            · rename_i query
              simp only [if_pos query]
              exact ⟨[bc 'c'], scanDeviceAttributes_complete _ rest waiting⟩
            · rename_i notQuery
              simp only [if_neg notQuery]
              exact ⟨[bc '_'], scanParams_complete {} prefixLen (first :: rest) waiting⟩

theorem decodeSs3_complete {bytes : List Byte} (waiting : decodeSs3 bytes = .needMoreData) :
    bytes = [] := by
  cases bytes with
  | nil => rfl
  | cons final rest =>
      simp only [decodeSs3] at waiting
      split at waiting
      · cases waiting
      · cases waiting

/-- Every beginning of a VT sequence can be completed. -/
theorem tryDecodeVt_complete {bytes : List Byte}
    (waiting : tryDecodeVt bytes = .needMoreData) :
    ∃ more token length, tryDecodeVt (bytes ++ more) = .produced token length := by
  cases bytes with
  | nil => cases waiting
  | cons first rest =>
      simp only [List.cons_append, tryDecodeVt] at waiting ⊢
      split at waiting
      · rename_i escape
        simp only [if_pos escape]
        cases rest with
        | nil =>
            exact ⟨[bc '[', bc 'I'], .ignoredSequence, 3, rfl⟩
        | cons second tail =>
            simp only [List.cons_append] at waiting ⊢
            split at waiting
            · rename_i ss3
              simp only [if_pos ss3]
              rw [decodeSs3_complete waiting]
              exact ⟨[bc 'P'], .keyEvent (makeSimpleKeyEvent vkF1), 3, rfl⟩
            · rename_i notSs3
              simp only [if_neg notSs3]
              split at waiting
              · rename_i csi
                simp only [if_pos csi]
                exact decodeCsi_complete 2 tail waiting
              · cases waiting
      · rename_i notEscape
        simp only [if_neg notEscape]
        split at waiting
        · rename_i csi
          simp only [if_pos csi]
          exact decodeCsi_complete 1 rest waiting
        · cases waiting

theorem tryDecodeVt_introduced {bytes : List Byte}
    (waiting : tryDecodeVt bytes = .needMoreData) :
    ∃ rest, bytes = escByte :: rest ∨ bytes = csiByte :: rest := by
  cases bytes with
  | nil => cases waiting
  | cons first rest =>
      refine ⟨rest, ?_⟩
      simp only [tryDecodeVt] at waiting
      split at waiting
      · rename_i escape
        rw [escape]
        exact .inl rfl
      · split at waiting
        · rename_i csi
          rw [csi]
          exact .inr rfl
        · cases waiting

/-- The bytes begin with a VT sequence, or are the beginning of one. -/
def Overlaps (bytes : List Byte) : Prop :=
  ∃ sequence token, Sequence sequence token ∧ (sequence <+: bytes ∨ bytes <+: sequence)

theorem tryDecodeVt_noMatch_iff {bytes : List Byte} (nonempty : bytes ≠ []) :
    tryDecodeVt bytes = .noMatch ↔ ¬Overlaps bytes := by
  constructor
  · rintro noMatch ⟨sequence, token, accepted, ⟨rest, rfl⟩ | ⟨more, rfl⟩⟩
    · rw [accepted.produced rest] at noMatch
      cases noMatch
    · have settled := tryDecodeVt_append nonempty more
      have produced := accepted.produced []
      rw [noMatch] at settled
      rw [List.append_nil, settled (by simp)] at produced
      cases produced
  · intro apart
    cases outcome : tryDecodeVt bytes with
    | noMatch => rfl
    | produced token length =>
        rcases exists_sequence_of_produced outcome with ⟨sequence, rest, split, -, accepted⟩
        exact absurd ⟨sequence, token, accepted, .inl ⟨rest, split.symm⟩⟩ apart
    | needMoreData =>
        rcases tryDecodeVt_complete outcome with ⟨more, token, length, produced⟩
        rcases exists_sequence_of_produced produced with ⟨sequence, rest, split, -, accepted⟩
        refine absurd ⟨sequence, token, accepted, ?_⟩ apart
        exact List.prefix_or_prefix_of_prefix ⟨rest, split.symm⟩ (List.prefix_append bytes more)

end VtInput

/-- A token is within the bytes and final, a mismatch is final, and the VT decoder waits only
behind an introducer. -/
theorem decodeOneInputToken_settles (platform : Platform) (codePage : CodePage)
    (bytes : List Byte) :
    (∀ token length, platform.decodeOneInputToken codePage bytes = .token token length →
      0 < length ∧ length ≤ bytes.length ∧ ∀ more,
        platform.decodeOneInputToken codePage (bytes ++ more) = .token token length) ∧
    (∀ token length, tryDecodeVt bytes = .produced token length →
      0 < length ∧ length ≤ bytes.length ∧ ∀ more,
        tryDecodeVt (bytes ++ more) = .produced token length) ∧
    (bytes ≠ [] → tryDecodeVt bytes = .noMatch → ∀ more,
      tryDecodeVt (bytes ++ more) = .noMatch) ∧
    (tryDecodeVt bytes = .needMoreData →
      ∃ rest, bytes = VtInput.escByte :: rest ∨ bytes = VtInput.csiByte :: rest) ∧
    (∀ more, tryDecodeVt (bytes ++ more) = .needMoreData →
      ∀ token length, tryDecodeVt bytes ≠ .produced token length) ∧
    ∀ more, platform.decodeOneInputToken codePage (bytes ++ more) = .needMore →
      ∀ token length, platform.decodeOneInputToken codePage bytes ≠ .token token length := by
  have produced : ∀ {token length}, tryDecodeVt bytes = .produced token length → ∀ more,
      tryDecodeVt (bytes ++ more) = .produced token length := by
    intro token length produced more
    have nonempty : bytes ≠ [] := by
      rintro rfl
      cases produced
    rw [← produced]
    exact VtInput.tryDecodeVt_append nonempty more (by rw [produced]; simp)
  refine ⟨?_, ?_, ?_, VtInput.tryDecodeVt_introduced, ?_, ?_⟩
  · intro token length decoded
    exact ⟨Platform.decodeOneInputToken_positive decoded,
      Platform.decodeOneInputToken_bounded decoded,
      fun more => Platform.decodeOneInputToken_stable more decoded⟩
  · intro token length vt
    have within := VtInput.tryDecodeVt_within bytes vt
    exact ⟨by omega, within.2.1, produced vt⟩
  · intro nonempty noMatch more
    rw [← noMatch]
    exact VtInput.tryDecodeVt_append nonempty more (by rw [noMatch]; simp)
  · intro more waiting token length vt
    rw [produced vt more] at waiting
    cases waiting
  · intro more waiting token length decoded
    rw [Platform.decodeOneInputToken_stable more decoded] at waiting
    cases waiting

namespace Platform

variable {platform : Platform} {codePage : CodePage}

/-- Without `MB_ERR_INVALID_CHARS` the conversion of a lead byte and a trail byte gives one or
two units. -/
def ConvertsPairs (platform : Platform) : Prop :=
  ∀ codePage lead trail, platform.isDbcsLeadByteEx codePage lead = true →
    platform.multiByteToWideChar codePage false [lead, trail] ≠ [] ∧
      (platform.multiByteToWideChar codePage false [lead, trail]).length ≤ 2

/-- Some continuation makes the decoder take all the bytes, and more, as one token. -/
def Completable (platform : Platform) (codePage : CodePage) (bytes : List Byte) : Prop :=
  ∃ more token length, platform.decodeOneInputToken codePage (bytes ++ more) =
    .token token length ∧ bytes.length < length

/-- Fewer bytes than the first one announces, which the decoder of the output stream does not
take for an unfinished character. -/
def MalformedStart (bytes : List Byte) : Prop :=
  (∃ lead rest sequence, bytes = lead :: rest ∧ utf8Sequence lead = some sequence ∧
    bytes.length < sequence) ∧ Utf8Stream.looksLikeIncompleteUtf8Sequence bytes = false

theorem completable_of_vt {bytes : List Byte} (waiting : tryDecodeVt bytes = .needMoreData) :
    platform.Completable codePage bytes := by
  rcases VtInput.tryDecodeVt_complete waiting with ⟨more, token, length, produced⟩
  refine ⟨more, token, length, by simp only [decodeOneInputToken, produced], ?_⟩
  by_contra long
  rcases VtInput.exists_sequence_of_produced produced with
    ⟨sequence, rest, split, rfl, accepted⟩
  have inside : sequence <+: bytes :=
    List.prefix_of_prefix_length_le ⟨rest, split.symm⟩ (List.prefix_append bytes more) (by omega)
  rcases inside with ⟨later, rfl⟩
  rw [accepted.produced later] at waiting
  cases waiting

theorem decodeOneInputToken_of_noMatch {bytes : List Byte}
    (noMatch : tryDecodeVt bytes = .noMatch) :
    platform.decodeOneInputToken codePage bytes =
      match platform.decodeOneConsoleInputUnit codePage bytes with
      | .needMore => .needMore
      | .token chars length => .token (.textUnits chars) length := by
  cases unit : platform.decodeOneConsoleInputUnit codePage bytes with
  | needMore => simp [decodeOneInputToken, noMatch, unit]
  | token chars length => simp [decodeOneInputToken, noMatch, unit]

theorem decodeSequence_needMore_iff {strict : Bool} {bytes : List Byte} {sequence : Nat} :
    platform.decodeSequence codePage strict bytes sequence = .needMore ↔
      bytes.length < sequence := by
  simp only [decodeSequence]
  split
  · rename_i short
    simp [short]
  · rename_i long
    split
    · simp [long]
    · simp [long]

/-- A lead byte that announces further bytes introduces no VT sequence. -/
theorem noMatch_of_announced {lead : Byte} {rest : List Byte} {sequence : Nat}
    (announced : utf8Sequence lead = some sequence) (short : (lead :: rest).length < sequence) :
    tryDecodeVt (lead :: rest) = .noMatch := by
  apply tryDecodeVt_lead
  · rintro rfl
    cases announced
    simp at short
  · rintro rfl
    cases announced

theorem utf8_waits {lead : Byte} {rest : List Byte} {sequence : Nat}
    (announced : utf8Sequence lead = some sequence) (short : (lead :: rest).length < sequence) :
    platform.decodeOneInputToken cpUtf8 (lead :: rest) = .needMore := by
  rw [decodeOneInputToken_of_noMatch (noMatch_of_announced announced short)]
  simp only [decodeOneConsoleInputUnit, if_true, announced, decodeSequence_needMore_iff.mpr short]

/-- What is converted strictly begins with the bytes seen so far, and is one character. -/
theorem exists_word_of_converted (accepts : platform.AcceptsWellFormedUtf8) {lead : Byte}
    {rest : List Byte} (announced : utf8Sequence lead = some (lead :: rest).length)
    (converted : platform.multiByteToWideChar cpUtf8 true (lead :: rest) ≠ []) :
    ∃ char, utf8Code.word char = lead :: rest := by
  have wellFormed : utf8Code.WellFormed (lead :: rest) := by
    by_contra malformed
    exact converted (accepts.rejects _ malformed)
  rcases wellFormed with ⟨text, encoded⟩
  cases text with
  | nil => cases encoded
  | cons char text =>
      refine ⟨char, ?_⟩
      rw [SymbolCode.encode_cons] at encoded
      by_cases escape : char.toNat = 0x1b
      · have single : utf8Code.word char = [0x1b] := by
          have same : char = Char.ofNat 0x1b := by rw [← escape, Char.ofNat_toNat]
          rw [same]
          rfl
        have one : utf8Sequence 0x1b = some 1 := by decide
        rw [single, List.singleton_append, List.cons.injEq] at encoded
        rw [encoded.1, one, Option.some.injEq, List.length_cons] at announced
        rw [single, encoded.1, List.eq_nil_of_length_eq_zero (by omega : rest.length = 0)]
      · rcases utf8Code_word_lead escape with ⟨first, tail, word, length, -, -⟩
        have same : first = lead := by
          rw [word, List.cons_append] at encoded
          exact (List.cons.inj encoded).1.symm
        rw [same, announced, Option.some.injEq] at length
        have nothing : utf8Code.encode text = [] := by
          have lengths := congrArg List.length encoded
          rw [List.length_append] at lengths
          exact List.eq_nil_of_length_eq_zero (by omega)
        rw [encoded, nothing, List.append_nil]

/-- More than one byte is only consumed by a successful conversion. -/
theorem decodeSequence_long {strict : Bool} {bytes : List Byte} {sequence length : Nat}
    {chars : List WChar} (long : 1 < length)
    (decoded : platform.decodeSequence codePage strict bytes sequence = .token chars length) :
    length = sequence ∧ sequence ≤ bytes.length ∧
      platform.multiByteToWideChar codePage strict (bytes.take sequence) ≠ [] := by
  simp only [decodeSequence] at decoded
  split at decoded
  · cases decoded
  · split at decoded
    · cases decoded
      omega
    · rename_i complete converted
      cases decoded
      exact ⟨rfl, by omega, fun empty => converted (.inl empty)⟩

theorem not_completable_of_malformed (accepts : platform.AcceptsWellFormedUtf8)
    {bytes : List Byte} (malformed : MalformedStart bytes) :
    ¬platform.Completable cpUtf8 bytes := by
  rcases malformed with ⟨⟨lead, rest, sequence, rfl, announced, short⟩, unlike⟩
  rintro ⟨more, token, length, decoded, long⟩
  have noMatch : tryDecodeVt (lead :: rest ++ more) = .noMatch := by
    rw [← noMatch_of_announced announced short]
    exact VtInput.tryDecodeVt_append (by simp) more
      (by rw [noMatch_of_announced announced short]; simp)
  have unit : platform.decodeOneConsoleInputUnit cpUtf8 (lead :: rest ++ more) =
      platform.decodeSequence cpUtf8 true (lead :: rest ++ more) sequence := by
    simp only [List.cons_append, decodeOneConsoleInputUnit, if_true, announced]
  rw [decodeOneInputToken_of_noMatch noMatch, unit] at decoded
  split at decoded
  · cases decoded
  · rename_i chars consumed taken
    cases decoded
    rw [List.length_cons] at long
    rcases decodeSequence_long (by omega) taken with ⟨rfl, enough, converted⟩
    have begins : (lead :: rest ++ more).take length =
        lead :: (rest ++ more).take (length - 1) := by
      rw [List.cons_append, List.take_cons (by omega)]
    have whole : (lead :: (rest ++ more).take (length - 1)).length = length := by
      rw [← begins, List.length_take]
      omega
    rw [begins] at converted
    rw [← whole] at announced
    rcases exists_word_of_converted accepts announced converted with ⟨char, word⟩
    -- the character would begin with the malformed bytes
    have cut : (rest ++ more).take (length - 1) =
        rest ++ more.take (length - 1 - rest.length) := by
      rw [List.take_append, List.take_of_length_le (by omega)]
    have looks : Utf8Stream.looksLikeIncompleteUtf8Sequence (lead :: rest) = true := by
      rw [Utf8Stream.looksLikeIncompleteUtf8Sequence_iff]
      refine ⟨by simp, char, more.take (length - 1 - rest.length), ?_, ?_⟩
      · intro none
        rw [cut, none, List.append_nil, List.length_cons] at whole
        omega
      · rw [word, cut, List.cons_append]
    rw [unlike] at looks
    cases looks

theorem completable_of_incomplete (accepts : platform.AcceptsWellFormedUtf8) {bytes : List Byte}
    (looks : Utf8Stream.looksLikeIncompleteUtf8Sequence bytes = true) :
    platform.Completable cpUtf8 bytes := by
  rcases Utf8Stream.looksLikeIncompleteUtf8Sequence_iff.mp looks with
    ⟨begun, char, more, cut, word⟩
  have decodes : platform.DecodesUtf8 := by
    intro char
    have converts := accepts.converts [char]
    simpa using converts
  have size := congrArg List.length word
  rw [List.length_append] at size
  have positive := List.length_pos_of_ne_nil cut
  have other : char.toNat ≠ 0x1b := by
    intro escape
    have same : char = Char.ofNat 0x1b := by rw [← escape, Char.ofNat_toNat]
    have single : (utf8Code.word (Char.ofNat 0x1b)).length = 1 := rfl
    rw [same, single] at size
    have begun := List.length_pos_of_ne_nil begun
    omega
  have decoded := decodeOneInputToken_char decodes other []
  rw [List.append_nil] at decoded
  exact ⟨more, _, _, by rw [← word]; exact decoded, by omega⟩

/-- In the other code pages the decoder only waits for the trail byte. -/
theorem completable_of_lead (pairs : platform.ConvertsPairs) (other : codePage ≠ cpUtf8)
    {bytes : List Byte} (noMatch : tryDecodeVt bytes = .noMatch) (nonempty : bytes ≠ [])
    (waiting : platform.decodeOneInputToken codePage bytes = .needMore) :
    platform.Completable codePage bytes := by
  rw [decodeOneInputToken_of_noMatch noMatch] at waiting
  split at waiting
  · rename_i undecided
    cases bytes with
    | nil => exact absurd rfl nonempty
    | cons lead rest =>
        simp only [decodeOneConsoleInputUnit, if_neg other, decodeSequence_needMore_iff]
          at undecided
        split at undecided
        · rename_i isLead
          rw [List.length_cons] at undecided
          have alone := List.eq_nil_of_length_eq_zero (by omega : rest.length = 0)
          subst alone
          rcases pairs codePage lead 0x40 isLead with ⟨some, few⟩
          have settled := VtInput.tryDecodeVt_append nonempty [0x40]
          rw [noMatch] at settled
          refine ⟨[0x40], .textUnits (platform.multiByteToWideChar codePage false [lead, 0x40]),
            2, ?_, by simp⟩
          rw [decodeOneInputToken_of_noMatch (settled (by simp))]
          have converted : ¬(platform.multiByteToWideChar codePage false [lead, 0x40] = [] ∨
              2 < (platform.multiByteToWideChar codePage false [lead, 0x40]).length) := by
            rw [not_or]
            exact ⟨some, by omega⟩
          simp [decodeOneConsoleInputUnit, other, isLead, decodeSequence, converted]
        · rw [List.length_cons] at undecided
          omega
  · cases waiting

/-- The decoder waits in vain exactly for the rest of a malformed UTF-8 sequence. -/
theorem decodeOneInputToken_waits_iff (accepts : platform.AcceptsWellFormedUtf8)
    (pairs : platform.ConvertsPairs) (codePage : CodePage) {bytes : List Byte}
    (nonempty : bytes ≠ []) :
    (platform.decodeOneInputToken codePage bytes = .needMore →
        platform.Completable codePage bytes) ↔
      ¬(codePage = cpUtf8 ∧ MalformedStart bytes) := by
  constructor
  · rintro completes ⟨rfl, malformed⟩
    have waiting : platform.decodeOneInputToken cpUtf8 bytes = .needMore := by
      rcases malformed with ⟨⟨lead, rest, sequence, rfl, announced, short⟩, -⟩
      exact utf8_waits announced short
    exact not_completable_of_malformed accepts malformed (completes waiting)
  · intro wellBegun waiting
    cases outcome : tryDecodeVt bytes with
    | produced token length =>
        simp only [decodeOneInputToken, outcome] at waiting
        cases waiting
    | needMoreData => exact completable_of_vt outcome
    | noMatch =>
        by_cases utf8 : codePage = cpUtf8
        · subst utf8
          apply completable_of_incomplete accepts
          by_contra unlike
          refine wellBegun ⟨rfl, ?_, by simpa using unlike⟩
          rw [decodeOneInputToken_of_noMatch outcome] at waiting
          split at waiting
          · rename_i undecided
            cases bytes with
            | nil => exact absurd rfl nonempty
            | cons lead rest =>
                simp only [decodeOneConsoleInputUnit, if_true] at undecided
                split at undecided
                · cases undecided
                · rename_i sequence announced
                  exact ⟨lead, rest, sequence, rfl, announced,
                    decodeSequence_needMore_iff.mp undecided⟩
          · cases waiting
        · exact completable_of_lead pairs utf8 outcome nonempty waiting

theorem decodeOneInputToken_waits_iff_euro :
    (Platform.exactUtf8.decodeOneInputToken cpUtf8 [0xe2, 0x82] = .needMore →
        Platform.exactUtf8.Completable cpUtf8 [0xe2, 0x82]) ↔
      ¬(cpUtf8 = cpUtf8 ∧ MalformedStart [0xe2, 0x82]) :=
  decodeOneInputToken_waits_iff Platform.exactUtf8_accepts (fun _ _ _ lead => by cases lead)
    cpUtf8 (by simp)

/-- A lead byte of three, followed by an `a` that cannot continue it: the `a` is not delivered
before another key is pressed, and then as a character of its own. -/
theorem waits_in_vain :
    Platform.exactUtf8.decodeOneInputToken cpUtf8 [0xe4, bc 'a'] = .needMore ∧
      ¬Platform.exactUtf8.Completable cpUtf8 [0xe4, bc 'a'] := by
  constructor
  · exact utf8_waits (by decide) (by simp : [0xe4, bc 'a'].length < 3)
  · apply not_completable_of_malformed Platform.exactUtf8_accepts
    exact ⟨⟨0xe4, [bc 'a'], 3, rfl, by decide, by simp⟩, by decide⟩

end Platform

end Conhost
