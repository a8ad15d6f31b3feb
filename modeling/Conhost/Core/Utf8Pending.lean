import Conhost.Core.Utf8Exact

/-!
# What the streaming decoder keeps

`decode_append` with its buffer and the index `consumed` into it. Whatever the platform
converts, the index only grows and stays inside the buffer, a call leaves its loop, and what it
erases leaves nothing or the beginning of one character.
-/

namespace Conhost

namespace Utf8Stream

/-- The locals of `decode_append` beside the buffer -/
structure Cursor where
  consumed : Nat := 0
  output : List WChar := []
deriving DecidableEq

def Cursor.advance (cursor : Cursor) (count : Nat) (decoded : List WChar) : Cursor :=
  ⟨cursor.consumed + count, cursor.output ++ decoded⟩

/-- An iteration of the `while` loop over the buffer `_pending` -/
def scan (platform : Platform) (buffer : List Byte) (cursor : Cursor) : Pass Cursor Cursor :=
  if cursor.consumed < buffer.length then
    let tail := buffer.drop cursor.consumed
    let attemptLen := min (buffer.length - cursor.consumed) intMax
    match tryDecode platform tail attemptLen with
    | some decoded => .next (cursor.advance attemptLen decoded)
    | none =>
        match tryTrimmed platform tail attemptLen with
        | some (prefixLen, decoded) => .next (cursor.advance prefixLen decoded)
        | none =>
            if attemptLen ≤ 3 ∧ looksLikeIncompleteUtf8Sequence (tail.take attemptLen) then
              .leave cursor
            else .next (cursor.advance 1 [0xfffd])
  else .leave cursor

/-- A `Utf8StreamDecoder` with all it has returned and the number of bytes it has erased -/
structure Decoder where
  pending : List Byte := []
  output : List WChar := []
  consumed : Nat := 0
deriving DecidableEq

/-- The decoder after its loop was left with a cursor -/
def Decoder.after (decoder : Decoder) (bytes : List Byte) (cursor : Cursor) : Decoder where
  pending := (decoder.pending ++ bytes).drop cursor.consumed
  output := decoder.output ++ cursor.output
  consumed := decoder.consumed + cursor.consumed

/-- A new decoder after calls of `decode_append` whose loops were all left -/
inductive Decodes (platform : Platform) : List (List Byte) → Decoder → Prop where
  | start : Decodes platform [] {}
  | call {chunks : List (List Byte)} {decoder : Decoder} {bytes : List Byte} {cursor : Cursor}
      (earlier : Decodes platform chunks decoder)
      (ends : Ends (scan platform (decoder.pending ++ bytes)) {} cursor) :
      Decodes platform (chunks ++ [bytes]) (decoder.after bytes cursor)

/-- Nothing, or one to three bytes that begin a character and do not complete it -/
def Unfinished (bytes : List Byte) : Prop :=
  bytes = [] ∨ 1 ≤ bytes.length ∧ bytes.length ≤ 3 ∧
    ∃ char rest, rest ≠ [] ∧ utf8Code.word char = bytes ++ rest

theorem unfinished_of_looks {bytes : List Byte}
    (looks : looksLikeIncompleteUtf8Sequence bytes = true) : Unfinished bytes := by
  obtain ⟨nonempty, character⟩ := looksLikeIncompleteUtf8Sequence_iff.mp looks
  have short := length_lt_of_waiting ((waiting_iff nonempty).mpr looks)
  exact .inr ⟨List.length_pos_of_ne_nil nonempty, short, character⟩

variable {platform : Platform} {buffer : List Byte}

/-- The unread bytes and the output, as the loop on lists has them -/
def Cursor.unread (buffer : List Byte) (cursor : Cursor) : LoopState :=
  ⟨buffer.drop cursor.consumed, cursor.output⟩

theorem Cursor.unread_advance (buffer : List Byte) (cursor : Cursor) (count : Nat)
    (decoded : List WChar) :
    (cursor.advance count decoded).unread buffer =
      (cursor.unread buffer).advance count decoded := by
  simp only [unread, advance, LoopState.advance, List.drop_drop]

/-- An iteration that goes on moves the index forward, inside the buffer. -/
structure Forward (platform : Platform) (buffer : List Byte) (cursor next : Cursor) : Prop where
  grows : cursor.consumed < next.consumed
  inside : next.consumed ≤ buffer.length
  refines : body platform (cursor.unread buffer) = .next (next.unread buffer)

/-- An iteration that leaves the loop keeps the index, and nothing more than an unfinished
character is unread. -/
structure Stop (platform : Platform) (buffer : List Byte) (cursor last : Cursor) : Prop where
  same : last = cursor
  unfinished : Unfinished (buffer.drop last.consumed)
  refines : body platform (cursor.unread buffer) = .leave (cursor.unread buffer)

theorem scan_steps {cursor : Cursor} (inside : cursor.consumed ≤ buffer.length) :
    (∃ next, scan platform buffer cursor = .next next ∧ Forward platform buffer cursor next) ∨
      ∃ last, scan platform buffer cursor = .leave last ∧ Stop platform buffer cursor last := by
  have size : (buffer.drop cursor.consumed).length = buffer.length - cursor.consumed :=
    List.length_drop
  rw [scan]
  by_cases more : cursor.consumed < buffer.length
  · have nonempty : buffer.drop cursor.consumed ≠ [] := by
      rw [ne_eq, List.drop_eq_nil_iff]
      omega
    have pass : body platform (cursor.unread buffer) = _ := if_neg nonempty
    have large : 3 < intMax := by decide
    have attempted : 0 < min (buffer.length - cursor.consumed) intMax ∧
        min (buffer.length - cursor.consumed) intMax ≤ buffer.length - cursor.consumed := by
      omega
    simp only [Cursor.unread, size] at pass
    rw [if_pos more]
    simp only
    cases whole : tryDecode platform (buffer.drop cursor.consumed)
        (min (buffer.length - cursor.consumed) intMax) with
    | some decoded =>
        simp only [whole] at pass ⊢
        refine .inl ⟨_, rfl, Nat.lt_add_of_pos_right attempted.1, ?_, ?_⟩
        · simp only [Cursor.advance]
          omega
        · rw [Cursor.unread_advance]
          exact pass
    | none =>
        simp only [whole] at pass ⊢
        cases trimmed : tryTrimmed platform (buffer.drop cursor.consumed)
            (min (buffer.length - cursor.consumed) intMax) with
        | some found =>
            obtain ⟨prefixLen, decoded⟩ := found
            simp only [trimmed] at pass ⊢
            obtain ⟨shorter, -, converted⟩ := tryTrimmed_some trimmed
            have positive := (tryDecode_some converted).1
            refine .inl ⟨_, rfl, Nat.lt_add_of_pos_right positive, ?_, ?_⟩
            · simp only [Cursor.advance]
              omega
            · rw [Cursor.unread_advance]
              exact pass
        | none =>
            simp only [trimmed] at pass ⊢
            by_cases incomplete : min (buffer.length - cursor.consumed) intMax ≤ 3 ∧
                looksLikeIncompleteUtf8Sequence ((buffer.drop cursor.consumed).take
                  (min (buffer.length - cursor.consumed) intMax))
            · rw [if_pos incomplete] at pass ⊢
              obtain ⟨short, looks⟩ := incomplete
              rw [List.take_of_length_le (by omega)] at looks
              exact .inr ⟨cursor, rfl, rfl, unfinished_of_looks looks, pass⟩
            · rw [if_neg incomplete] at pass ⊢
              refine .inl ⟨_, rfl, Nat.lt_succ_self _, more, ?_⟩
              rw [Cursor.unread_advance]
              exact pass
  · have empty : buffer.drop cursor.consumed = [] := List.drop_eq_nil_iff.mpr (by omega)
    rw [if_neg more]
    exact .inr ⟨cursor, rfl, rfl, .inl empty, if_pos empty⟩

/-- The loop is left, with the index inside the buffer, and what it leaves is what the loop on
lists leaves. -/
theorem exists_ends_scan (cursor : Cursor) (inside : cursor.consumed ≤ buffer.length) :
    ∃ last, Ends (scan platform buffer) cursor last ∧ last.consumed ≤ buffer.length ∧
      Unfinished (buffer.drop last.consumed) ∧
      (decodeLoop platform).run (cursor.unread buffer) = last.unread buffer := by
  induction left : buffer.length - cursor.consumed using Nat.strongRecOn generalizing cursor with
  | ind remaining ih =>
      rcases @scan_steps platform buffer cursor inside with
        ⟨next, pass, forward⟩ | ⟨last, pass, stop⟩
      · have grows := forward.grows
        have bounded := forward.inside
        obtain ⟨last, ends, kept⟩ := ih _ (by omega) next bounded rfl
        refine ⟨last, (Ends.next_iff pass).mpr ends, ?_⟩
        rwa [(decodeLoop platform).run_of_next forward.refines]
      · refine ⟨last, Ends.of_leave pass, ?_, stop.unfinished, ?_⟩
        · rwa [stop.same]
        · rw [(decodeLoop platform).run_of_leave stop.refines, stop.same]

/-- What holds of a decoder that was given some bytes -/
structure Keeps (supplied : List Byte) (decoder : Decoder) : Prop where
  unfinished : Unfinished decoder.pending
  within : decoder.consumed ≤ supplied.length
  suffix : decoder.pending = supplied.drop decoder.consumed

theorem Keeps.conserves {supplied : List Byte} {decoder : Decoder}
    (keeps : Keeps supplied decoder) :
    decoder.consumed + decoder.pending.length = supplied.length := by
  have within := keeps.within
  rw [keeps.suffix, List.length_drop]
  omega

theorem Keeps.call {supplied bytes : List Byte} {decoder : Decoder} {cursor : Cursor}
    (keeps : Keeps supplied decoder)
    (ends : Ends (scan platform (decoder.pending ++ bytes)) {} cursor) :
    Keeps (supplied ++ bytes) (decoder.after bytes cursor) := by
  obtain ⟨last, ends', inside, unfinished, -⟩ :=
    @exists_ends_scan platform (decoder.pending ++ bytes) {} (Nat.zero_le _)
  obtain rfl := ends.unique ends'
  have conserves := keeps.conserves
  have within := keeps.within
  rw [List.length_append] at inside
  refine ⟨unfinished, ?_, ?_⟩
  · simp only [Decoder.after, List.length_append]
    omega
  · simp only [Decoder.after]
    rw [keeps.suffix, ← List.drop_append_of_le_length within, List.drop_drop]

theorem Decodes.keeps {chunks : List (List Byte)} {decoder : Decoder}
    (decodes : Decodes platform chunks decoder) : Keeps chunks.flatten decoder := by
  induction decodes with
  | start => exact ⟨.inl rfl, Nat.le_refl 0, rfl⟩
  | call _ ends keeps =>
      rw [List.flatten_append, List.flatten_singleton]
      exact keeps.call ends

/-- After any calls the decoder has a state, and another call leaves its loop too. -/
theorem exists_decodes (platform : Platform) (chunks : List (List Byte)) :
    ∃ decoder, Decodes platform chunks decoder := by
  induction chunks using List.reverseRecOn with
  | nil => exact ⟨{}, .start⟩
  | append_singleton earlier bytes ih =>
      obtain ⟨decoder, decodes⟩ := ih
      obtain ⟨cursor, ends, -⟩ :=
        @exists_ends_scan platform (decoder.pending ++ bytes) {} (Nat.zero_le _)
      exact ⟨decoder.after bytes cursor, .call decodes ends⟩

/-- The decoder with an index is the decoder on lists. -/
theorem Decodes.decodeAll {chunks : List (List Byte)} {decoder : Decoder}
    (decodes : Decodes platform chunks decoder) :
    Utf8Stream.decodeAll platform chunks [] = (decoder.output, decoder.pending) := by
  induction decodes with
  | start => rfl
  | @call chunks decoder bytes cursor _ ends same =>
      obtain ⟨last, ends', -, -, run⟩ :=
        @exists_ends_scan platform (decoder.pending ++ bytes) {} (Nat.zero_le _)
      obtain rfl := ends.unique ends'
      change (decodeLoop platform).run ⟨decoder.pending ++ bytes, []⟩ = _ at run
      rw [decodeAll_append, same]
      simp only [Utf8Stream.decodeAll, decodeAppend, run, List.append_nil]
      rfl

/-- Every sequence of calls terminates, keeps at most the beginning of one character and
accounts for every byte. -/
theorem decodeAppend_keeps (platform : Platform) (chunks : List (List Byte)) :
    ∃ decoder, Decodes platform chunks decoder ∧
      (∀ other, Decodes platform chunks other →
        (other.output, other.pending) = (decoder.output, decoder.pending)) ∧
      (∀ bytes, ∃ cursor, Ends (scan platform (decoder.pending ++ bytes)) {} cursor) ∧
      Unfinished decoder.pending ∧
      decoder.pending = chunks.flatten.drop decoder.consumed ∧
      decoder.consumed + decoder.pending.length = chunks.flatten.length := by
  obtain ⟨decoder, decodes⟩ := exists_decodes platform chunks
  have keeps := decodes.keeps
  refine ⟨decoder, decodes, ?_, ?_, keeps.unfinished, keeps.suffix, keeps.conserves⟩
  · intro other decodes'
    rw [← decodes'.decodeAll, ← decodes.decodeAll]
  · intro bytes
    obtain ⟨cursor, ends, -⟩ :=
      @exists_ends_scan platform (decoder.pending ++ bytes) {} (Nat.zero_le _)
    exact ⟨cursor, ends⟩

end Utf8Stream

end Conhost
