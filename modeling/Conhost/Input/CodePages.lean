import Conhost.Input.Undecided

/-!
# Text in single- and double-byte code pages

The VT decoder sees the raw bytes before they are converted. C1 CSI is a letter
or a lead byte in most code pages, so text arrives unchanged exactly if at no
character the bytes left begin with a VT sequence or are the beginning of one.
-/

namespace Conhost

open VtInput (tryDecodeVt)

namespace Platform

/-- The bytes of a character, and the units they are converted to. -/
inductive Encodes (platform : Platform) (codePage : CodePage) : List Byte → List WChar → Prop where
  | single {byte : Byte} {units : List WChar}
      (notLead : platform.isDbcsLeadByteEx codePage byte = false)
      (converted : platform.multiByteToWideChar codePage false [byte] = units) :
      Encodes platform codePage [byte] units
  | double {lead trail : Byte} {units : List WChar}
      (isLead : platform.isDbcsLeadByteEx codePage lead = true)
      (converted : platform.multiByteToWideChar codePage false [lead, trail] = units) :
      Encodes platform codePage [lead, trail] units

/-- A character of a code page. -/
structure PageChar (platform : Platform) (codePage : CodePage) where
  bytes : List Byte
  units : List WChar
  encodes : platform.Encodes codePage bytes units
  nonempty : units ≠ []
  short : units.length ≤ 2

variable {platform : Platform} {codePage : CodePage}

def pageBytes (text : List (PageChar platform codePage)) : List Byte := text.flatMap PageChar.bytes

def pageUnits (text : List (PageChar platform codePage)) : List WChar :=
  text.flatMap PageChar.units

/-- Repeated decoding takes the bytes of the text for its units and nothing else. -/
def Survives (text : List (PageChar platform codePage)) : Prop :=
  ∃ chunks : List (List WChar),
    (inputDecoder platform codePage).Reads (pageBytes text) (chunks.map .textUnits) [] ∧
      chunks.flatten = pageUnits text

/-- At no character do the bytes left begin with a VT sequence, or begin one. -/
def ApartFromVt (text : List (PageChar platform codePage)) : Prop :=
  ∀ rest, rest <:+ text → rest ≠ [] → ¬VtInput.Overlaps (pageBytes rest)

theorem pageBytes_cons (char : PageChar platform codePage)
    (text : List (PageChar platform codePage)) :
    pageBytes (char :: text) = char.bytes ++ pageBytes text := List.flatMap_cons

theorem pageUnits_cons (char : PageChar platform codePage)
    (text : List (PageChar platform codePage)) :
    pageUnits (char :: text) = char.units ++ pageUnits text := List.flatMap_cons

theorem PageChar.bytes_ne_nil (char : PageChar platform codePage) : char.bytes ≠ [] := by
  rcases char with ⟨bytes, units, encodes, -, -⟩
  cases encodes with
  | single => simp
  | double => simp

theorem apartFromVt_cons {char : PageChar platform codePage}
    {text : List (PageChar platform codePage)} :
    ApartFromVt (char :: text) ↔
      ¬VtInput.Overlaps (pageBytes (char :: text)) ∧ ApartFromVt text := by
  constructor
  · intro apart
    exact ⟨apart _ List.suffix_rfl (by simp),
      fun rest after nonempty => apart rest (after.trans (List.suffix_cons char text)) nonempty⟩
  · rintro ⟨here, later⟩ rest after nonempty
    rcases List.suffix_cons_iff.mp after with rfl | after
    · exact here
    · exact later rest after nonempty

/-- Only an introducer lets bytes overlap with a VT sequence. -/
theorem not_overlaps {lead : Byte} (notEscape : lead ≠ VtInput.escByte)
    (notCsi : lead ≠ VtInput.csiByte) (rest : List Byte) :
    ¬VtInput.Overlaps (lead :: rest) :=
  (VtInput.tryDecodeVt_noMatch_iff (by simp)).mp (tryDecodeVt_lead notEscape notCsi rest)

/-- A text is safe if its characters begin with no introducer. -/
theorem apartFromVt_of_heads {text : List (PageChar platform codePage)}
    (heads : ∀ char ∈ text, ∀ lead ∈ char.bytes.head?,
      lead ≠ VtInput.escByte ∧ lead ≠ VtInput.csiByte) : ApartFromVt text := by
  intro rest after nonempty
  cases rest with
  | nil => exact absurd rfl nonempty
  | cons char rest =>
      obtain ⟨lead, tail, split⟩ := List.exists_cons_of_ne_nil char.bytes_ne_nil
      have apart := heads char (after.subset (by simp)) lead (by simp [split])
      rw [pageBytes_cons, split, List.cons_append]
      exact not_overlaps apart.1 apart.2 _

/-- Apart from VT sequences a character is taken off the front of the bytes whole. -/
theorem decodeOneInputToken_pageChar (notUtf8 : codePage ≠ cpUtf8)
    (char : PageChar platform codePage) {rest : List Byte}
    (noMatch : tryDecodeVt (char.bytes ++ rest) = .noMatch) :
    platform.decodeOneInputToken codePage (char.bytes ++ rest) =
      .token (.textUnits char.units) char.bytes.length := by
  rcases char with ⟨bytes, units, encodes, nonempty, short⟩
  have fits : ¬(units = [] ∨ 2 < units.length) := by
    rw [not_or]
    exact ⟨nonempty, by omega⟩
  rw [decodeOneInputToken_of_noMatch noMatch]
  cases encodes with
  | single notLead converted =>
      simp [decodeOneConsoleInputUnit, notUtf8, notLead, decodeSequence, converted, fits]
  | double isLead converted =>
      have complete : ¬rest.length + 1 + 1 < 2 := by omega
      simp [decodeOneConsoleInputUnit, notUtf8, isLead, decodeSequence, converted, fits, complete]

theorem survives_iff_apart (notUtf8 : codePage ≠ cpUtf8)
    (text : List (PageChar platform codePage)) :
    Survives text ↔ ApartFromVt text := by
  induction text with
  | nil =>
      constructor
      · rintro - rest after nonempty
        exact absurd (List.suffix_nil.mp after) nonempty
      · intro
        exact ⟨[], .done _, rfl⟩
  | cons char text ih =>
      have nonempty : pageBytes (char :: text) ≠ [] := by
        rw [pageBytes_cons]
        simp [char.bytes_ne_nil]
      rw [apartFromVt_cons, ← ih, ← VtInput.tryDecodeVt_noMatch_iff nonempty]
      constructor
      · rintro ⟨chunks, reads, units⟩
        cases chunks with
        | nil =>
            -- nothing was taken
            generalize left : ([] : List Byte) = rest at reads
            cases reads
            exact absurd left.symm nonempty
        | cons chunk chunks =>
            cases reads with
            | @step _ _ length _ _ decoded later =>
                have noMatch : tryDecodeVt (pageBytes (char :: text)) = .noMatch := by
                  cases outcome : tryDecodeVt (pageBytes (char :: text)) with
                  | noMatch => rfl
                  | needMoreData =>
                      simp only [inputDecoder, decodeOneInputToken, outcome] at decoded
                      cases decoded
                  | produced token consumed =>
                      simp only [inputDecoder, decodeOneInputToken, outcome] at decoded
                      cases decoded
                      exact absurd rfl ((VtInput.tryDecodeVt_within _ outcome).2.2 chunk)
                have whole : chunk = char.units ∧ length = char.bytes.length := by
                  have taken := decodeOneInputToken_pageChar notUtf8 char
                    (by rw [← pageBytes_cons]; exact noMatch)
                  rw [← pageBytes_cons] at taken
                  cases decoded.symm.trans taken
                  exact ⟨rfl, rfl⟩
                rcases whole with ⟨rfl, rfl⟩
                refine ⟨noMatch, chunks, ?_, ?_⟩
                · rw [pageBytes_cons, List.drop_left] at later
                  exact later
                · rw [pageUnits_cons, List.flatten_cons] at units
                  exact List.append_cancel_left units
      · rintro ⟨noMatch, chunks, reads, units⟩
        refine ⟨char.units :: chunks, ?_, ?_⟩
        · rw [pageBytes_cons] at noMatch ⊢
          refine .step (decodeOneInputToken_pageChar notUtf8 char noMatch) ?_
          rw [List.drop_left]
          exact reads
        · rw [pageUnits_cons, List.flatten_cons, units]

/-- Text in a single- or double-byte code page arrives exactly if it keeps apart from the VT
sequences, as it does where no character begins with an introducer. -/
theorem survives_iff (notUtf8 : codePage ≠ cpUtf8) (text : List (PageChar platform codePage)) :
    (Survives text ↔ ApartFromVt text) ∧
      ((∀ char ∈ text, ∀ lead ∈ char.bytes.head?,
        lead ≠ VtInput.escByte ∧ lead ≠ VtInput.csiByte) → Survives text) := by
  refine ⟨survives_iff_apart notUtf8 text, ?_⟩
  intro heads
  rw [survives_iff_apart notUtf8]
  exact apartFromVt_of_heads heads

/-- The letters and signs at 0x80 to 0x9f. -/
def windows1252Signs : List WChar :=
  [0x20ac, 0x81, 0x201a, 0x192, 0x201e, 0x2026, 0x2020, 0x2021, 0x2c6, 0x2030, 0x160, 0x2039, 0x152,
    0x8d, 0x17d, 0x8f, 0x90, 0x2018, 0x2019, 0x201c, 0x201d, 0x2022, 0x2013, 0x2014, 0x2dc, 0x2122,
    0x161, 0x203a, 0x153, 0x9d, 0x17e, 0x178]

def windows1252Unit (byte : Byte) : WChar :=
  if 0x80 ≤ byte && byte < 0xa0 then windows1252Signs.getD (byte.toNat - 0x80) 0
  else byte.toUInt16

def windows1252Byte (unit : WChar) : Byte :=
  if unit < 0x80 || 0xa0 ≤ unit && unit < 0x100 then unit.toUInt8
  else if windows1252Signs.contains unit then UInt8.ofNat (0x80 + windows1252Signs.idxOf unit)
  else bc '?'

/-- The conversions of Windows-1252, whatever code page is asked for. -/
def windows1252 : Platform where
  isDbcsLeadByteEx _ _ := false
  multiByteToWideChar _ _ bytes := bytes.map windows1252Unit
  wideCharToMultiByte _ units := units.map windows1252Byte

def windows1252Char (byte : Byte) : PageChar windows1252 1252 where
  bytes := [byte]
  units := [windows1252Unit byte]
  encodes := .single rfl rfl
  nonempty := by simp
  short := by simp

theorem survives_iff_euro : Survives [windows1252Char 0x80, windows1252Char (bc '5')] :=
  (survives_iff (by decide) _).2 (by decide +kernel)

/-- A closing quotation mark followed by an `A` is taken for the Up key. -/
theorem quotation_mark_lost :
    ¬Survives [windows1252Char 0x9b, windows1252Char (bc 'A')] ∧
      pageUnits [windows1252Char 0x9b, windows1252Char (bc 'A')] = [0x203a, 0x41] ∧
      (inputDecoder windows1252 1252).Reads
        (pageBytes [windows1252Char 0x9b, windows1252Char (bc 'A')])
        [.keyEvent { virtualKeyCode := VtInput.vkUp }] [] := by
  refine ⟨?_, by decide, .step (by rfl) (.done _)⟩
  rintro ⟨chunks, reads, -⟩
  cases chunks with
  | nil => cases reads
  | cons chunk chunks =>
      cases reads with
      | step decoded later => cases decoded

end Platform

end Conhost
