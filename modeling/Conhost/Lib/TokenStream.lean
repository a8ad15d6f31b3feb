import Mathlib.Data.List.Infix
import Mathlib.Tactic.Common

/-!
# Incremental tokenizers

A decoder looks at the bytes received so far and either takes a token off
their front or asks for more. If a decision once taken is not revised when
further bytes arrive, the tokens of a stream do not depend on the chunks the
stream arrives in.
-/

namespace Conhost

universe u v

/-- What a decoder makes of the bytes seen so far. -/
inductive Decoded (τ : Type v) where
  | needMore
  | token (token : τ) (length : Nat)
deriving DecidableEq

/-- A decoder that takes non-empty tokens and never revises a decision. -/
structure Decoder (β : Type u) (τ : Type v) where
  decode : List β → Decoded τ
  positive : ∀ {bytes token length}, decode bytes = .token token length → 0 < length
  bounded : ∀ {bytes token length}, decode bytes = .token token length → length ≤ bytes.length
  stable : ∀ {bytes token length} (more : List β),
    decode bytes = .token token length → decode (bytes ++ more) = .token token length

namespace Decoder

variable {β : Type u} {τ : Type v} (decoder : Decoder β τ)

/-- `decoder.Reads bytes tokens rest`: taking `tokens` off the front of `bytes` leaves `rest`. -/
inductive Reads : List β → List τ → List β → Prop where
  | done (bytes : List β) : Reads bytes [] bytes
  | step {bytes : List β} {token : τ} {length : Nat} {tokens : List τ} {rest : List β}
      (decoded : decoder.decode bytes = .token token length)
      (later : Reads (bytes.drop length) tokens rest) : Reads bytes (token :: tokens) rest

/-- No token can be taken off the front of `bytes` yet. -/
def Waiting (bytes : List β) : Prop := decoder.decode bytes = .needMore

instance [DecidableEq τ] (bytes : List β) : Decidable (decoder.Waiting bytes) :=
  inferInstanceAs (Decidable (_ = _))

variable {decoder}

namespace Reads

variable {bytes middle rest : List β} {tokens others : List τ}

theorem trans (first : decoder.Reads bytes tokens middle)
    (last : decoder.Reads middle others rest) : decoder.Reads bytes (tokens ++ others) rest := by
  induction first with
  | done => exact last
  | step decoded _ hypothesis => exact .step decoded (hypothesis last)

theorem single {token : τ} {length : Nat} (decoded : decoder.decode bytes = .token token length) :
    decoder.Reads bytes [token] (bytes.drop length) :=
  .step decoded (.done _)

/-- Reading is not disturbed by bytes that arrive later. -/
theorem append (reads : decoder.Reads bytes tokens rest) (more : List β) :
    decoder.Reads (bytes ++ more) tokens (rest ++ more) := by
  induction reads with
  | done => exact .done _
  | @step bytes token length tokens rest decoded _ hypothesis =>
      refine .step (decoder.stable more decoded) ?_
      rw [List.drop_append_of_le_length (decoder.bounded decoded)]
      exact hypothesis

theorem suffix (reads : decoder.Reads bytes tokens rest) : rest <:+ bytes := by
  induction reads with
  | done => exact List.suffix_rfl
  | step _ _ hypothesis => exact hypothesis.trans (List.drop_suffix _ _)

/-- Reading within a part of the stream is reading the stream. -/
theorem of_take {count : Nat} (reads : decoder.Reads (bytes.take count) tokens rest) :
    decoder.Reads bytes tokens (bytes.drop ((bytes.take count).length - rest.length)) := by
  have longer := reads.append (bytes.drop count)
  rw [List.take_append_drop] at longer
  have cut : (bytes.take count).drop ((bytes.take count).length - rest.length) = rest :=
    (List.suffix_iff_eq_drop.mp reads.suffix).symm
  have rejoined : bytes.drop ((bytes.take count).length - rest.length) =
      rest ++ bytes.drop count :=
    calc bytes.drop ((bytes.take count).length - rest.length)
        = (bytes.take count ++ bytes.drop count).drop
          ((bytes.take count).length - rest.length) := by
          rw [List.take_append_drop]
      _ = (bytes.take count).drop ((bytes.take count).length - rest.length) ++
          bytes.drop count := List.drop_append_of_le_length (Nat.sub_le _ _)
      _ = rest ++ bytes.drop count := by rw [cut]
  rw [rejoined]
  exact longer

theorem eq_nil_of_length_eq (reads : decoder.Reads bytes tokens rest)
    (same : rest.length = bytes.length) : tokens = [] ∧ rest = bytes := by
  cases reads with
  | done => exact ⟨rfl, rfl⟩
  | step decoded later =>
      have shorter := later.suffix.length_le
      have positive := decoder.positive decoded
      have bounded := decoder.bounded decoded
      rw [List.length_drop] at shorter
      omega

theorem length_le (reads : decoder.Reads bytes tokens rest) : rest.length ≤ bytes.length :=
  reads.suffix.length_le

/-- Of two readings of the same bytes, the one that took fewer tokens can be
continued to the other. -/
theorem confluent (one : decoder.Reads bytes tokens middle)
    (other : decoder.Reads bytes others rest) :
    (∃ further, others = tokens ++ further ∧ decoder.Reads middle further rest) ∨
      ∃ further, tokens = others ++ further ∧ decoder.Reads rest further middle := by
  induction one generalizing others rest with
  | done => exact .inl ⟨others, rfl, other⟩
  | @step bytes token length tokens middle decoded later hypothesis =>
      cases other with
      | done => exact .inr ⟨token :: tokens, rfl, .step decoded later⟩
      | @step _ token' length' tokens' _ decoded' later' =>
          rw [decoded] at decoded'
          obtain ⟨rfl, rfl⟩ := Decoded.token.inj decoded'
          rcases hypothesis later' with ⟨further, same, reads⟩ | ⟨further, same, reads⟩
          · exact .inl ⟨further, by rw [same]; rfl, reads⟩
          · exact .inr ⟨further, by rw [same]; rfl, reads⟩

/-- Where the decoder waits nothing is read. -/
theorem eq_nil_of_waiting (reads : decoder.Reads bytes tokens rest)
    (stopped : decoder.Waiting bytes) : tokens = [] ∧ rest = bytes := by
  cases reads with
  | done => exact ⟨rfl, rfl⟩
  | step decoded _ =>
      rw [Waiting, decoded] at stopped
      cases stopped

/-- A reading can be continued to every one that stops where the decoder waits. -/
theorem resume (first : decoder.Reads bytes tokens middle)
    (whole : decoder.Reads bytes others rest) (stopped : decoder.Waiting rest) :
    ∃ further, others = tokens ++ further ∧ decoder.Reads middle further rest := by
  rcases first.confluent whole with continued | ⟨further, same, reads⟩
  · exact continued
  · rcases reads.eq_nil_of_waiting stopped with ⟨rfl, rfl⟩
    exact ⟨[], by simpa using same.symm, .done _⟩

/-- Readings that cannot be continued agree. -/
theorem deterministic (one : decoder.Reads bytes tokens middle) (stopped : decoder.Waiting middle)
    (other : decoder.Reads bytes others rest) (stopped' : decoder.Waiting rest) :
    tokens = others ∧ middle = rest := by
  rcases one.confluent other with ⟨further, same, reads⟩ | ⟨further, same, reads⟩
  · rcases reads.eq_nil_of_waiting stopped with ⟨rfl, rfl⟩
    exact ⟨by simpa using same.symm, rfl⟩
  · rcases reads.eq_nil_of_waiting stopped' with ⟨rfl, rfl⟩
    exact ⟨by simpa using same, rfl⟩

end Reads

/-- Every stream can be read until the decoder waits. -/
theorem exists_reads (decoder : Decoder β τ) (bytes : List β) :
    ∃ tokens rest, decoder.Reads bytes tokens rest ∧ decoder.Waiting rest := by
  induction size : bytes.length using Nat.strong_induction_on generalizing bytes with
  | _ size' hypothesis =>
      subst size
      cases decoded : decoder.decode bytes with
      | needMore => exact ⟨[], bytes, .done bytes, decoded⟩
      | token token length =>
          have positive := decoder.positive decoded
          have bounded := decoder.bounded decoded
          have smaller : (bytes.drop length).length < bytes.length := by
            rw [List.length_drop]
            omega
          obtain ⟨tokens, rest, reads, waiting⟩ := hypothesis _ smaller _ rfl
          exact ⟨token :: tokens, rest, .step decoded reads, waiting⟩

/-- `decoder.Alike one other bytes`: in front of either stream, `bytes` is read as the same tokens,
and the last of them ends where the streams begin. -/
inductive Alike (decoder : Decoder β τ) (one other : List β) : List β → Prop where
  | here : Alike decoder one other []
  | step {bytes : List β} {token : τ} {length : Nat} (inside : length ≤ bytes.length)
      (decoded : decoder.decode (bytes ++ one) = .token token length)
      (decoded' : decoder.decode (bytes ++ other) = .token token length)
      (later : Alike decoder one other (bytes.drop length)) : Alike decoder one other bytes

namespace Alike

variable {one other bytes : List β}

theorem nil_or_step (alike : decoder.Alike one other bytes) : bytes = [] ∨ ∃ token length,
    length ≤ bytes.length ∧ decoder.decode (bytes ++ one) = .token token length ∧
      decoder.decode (bytes ++ other) = .token token length ∧
      decoder.Alike one other (bytes.drop length) := by
  cases alike with
  | here => exact .inl rfl
  | step inside decoded decoded' later => exact .inr ⟨_, _, inside, decoded, decoded', later⟩

/-- What is a row of whole tokens by itself is so in front of every stream. -/
theorem of_reads {tokens : List τ} (reads : decoder.Reads bytes tokens []) (one other : List β) :
    decoder.Alike one other bytes := by
  generalize empty : ([] : List β) = rest at reads
  induction reads with
  | done =>
      subst empty
      exact .here
  | step decoded later hypothesis =>
      exact .step (decoder.bounded decoded) (decoder.stable one decoded)
        (decoder.stable other decoded) (hypothesis empty)

theorem append (alike : decoder.Alike one other bytes) (more : List β) :
    decoder.Alike (one ++ more) (other ++ more) bytes := by
  induction alike with
  | here => exact .here
  | @step bytes token length inside decoded decoded' later hypothesis =>
      have extended := decoder.stable more decoded
      have extended' := decoder.stable more decoded'
      rw [List.append_assoc] at extended extended'
      exact .step inside extended extended' hypothesis

end Alike

section First

variable (decoder : Decoder β τ) (silent : τ → Bool)

/-- The first token that is not silent, its length, and the stream from it on. -/
def First (bytes : List β) (token : τ) (length : Nat) (rest : List β) : Prop :=
  ∃ tokens, decoder.Reads bytes tokens rest ∧ (∀ other ∈ tokens, silent other = true) ∧
    decoder.decode rest = .token token length ∧ silent token = false

/-- All tokens of the stream are silent. -/
def AllSilent (bytes : List β) : Prop :=
  ∃ tokens rest, decoder.Reads bytes tokens rest ∧ (∀ other ∈ tokens, silent other = true) ∧
    decoder.Waiting rest

variable {decoder silent} {bytes rest rest' : List β} {token token' : τ} {length length' : Nat}

namespace First

theorem unique (one : decoder.First silent bytes token length rest)
    (other : decoder.First silent bytes token' length' rest') :
    token = token' ∧ length = length' ∧ rest = rest' := by
  have ahead {rest rest' : List β} {token : τ} {length : Nat} {tokens : List τ}
      (found : decoder.decode rest = .token token length) (loud : silent token = false)
      (further : decoder.Reads rest tokens rest')
      (quiet : ∀ other ∈ tokens, silent other = true) : rest = rest' := by
    cases further with
    | done => rfl
    | step decoded later =>
        cases found.symm.trans decoded
        rw [quiet _ List.mem_cons_self] at loud
        cases loud
  rcases one with ⟨tokens, reads, quiet, found, loud⟩
  rcases other with ⟨tokens', reads', quiet', found', loud'⟩
  have same : rest = rest' := by
    rcases reads.confluent reads' with ⟨further, rfl, more⟩ | ⟨further, rfl, more⟩
    · exact ahead found loud more fun other member =>
        quiet' other (List.mem_append_right _ member)
    · exact (ahead found' loud' more fun other member =>
        quiet other (List.mem_append_right _ member)).symm
  subst same
  cases found.symm.trans found'
  exact ⟨rfl, rfl, rfl⟩

theorem loud (first : decoder.First silent bytes token length rest) : silent token = false := by
  rcases first with ⟨-, -, -, -, loud⟩
  exact loud

theorem unread (first : decoder.First silent bytes token length rest) : rest ≠ [] := by
  rcases first with ⟨-, -, -, found, -⟩
  intro empty
  have positive := decoder.positive found
  have bounded := decoder.bounded found
  rw [empty, List.length_nil] at bounded
  omega

theorem suffix (first : decoder.First silent bytes token length rest) : rest <:+ bytes := by
  rcases first with ⟨tokens, reads, -⟩
  exact reads.suffix

end First

theorem exists_first_or_allSilent (decoder : Decoder β τ) (silent : τ → Bool) (bytes : List β) :
    (∃ token length rest, decoder.First silent bytes token length rest) ∨
      decoder.AllSilent silent bytes := by
  rcases decoder.exists_reads bytes with ⟨tokens, rest, reads, waiting⟩
  induction reads with
  | done bytes => exact .inr ⟨[], bytes, .done bytes, by simp, waiting⟩
  | @step bytes token length tokens rest decoded later hypothesis =>
      cases loud : silent token with
      | false => exact .inl ⟨token, length, bytes, [], .done bytes, by simp, decoded, loud⟩
      | true =>
          have quiet {others : List τ} (rest : ∀ other ∈ others, silent other = true) :
              ∀ other ∈ token :: others, silent other = true := by
            simpa [loud] using rest
          rcases hypothesis waiting with ⟨first, count, rest, tokens, reads, silent, found⟩ |
            ⟨tokens, rest, reads, silent, stopped⟩
          · exact .inl ⟨first, count, rest, token :: tokens, .step decoded reads, quiet silent,
              found⟩
          · exact .inr ⟨token :: tokens, rest, .step decoded reads, quiet silent, stopped⟩

end First

end Decoder

end Conhost
