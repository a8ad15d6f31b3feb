import Conhost.Lib.SymbolCode
import Conhost.Lib.TokenStream

/-!
# Streams of symbols

The tokens of letters that arrive in chunks: a word, or a letter at which no
word can begin any more. The tokens do not depend on the chunks, and every word
that stands anywhere in the letters is a token.
-/

namespace Conhost

namespace SymbolCode

variable {α β : Type*} (code : SymbolCode α β)

/-- A symbol, or a letter that belongs to none. -/
inductive Item (α β : Type*) where
  | symbol (value : α)
  | malformed (letter : β)

def itemLetters : Item α β → List β
  | .symbol value => code.word value
  | .malformed letter => [letter]

theorem first?_eq_some_iff {letters : List β} {symbol : α} :
    code.first? letters = some symbol ↔ code.word symbol <+: letters := by
  constructor
  · intro found
    rw [first?] at found
    split at found
    · rename_i exists'
      cases found
      exact exists'.choose_spec
    · cases found
  · rintro ⟨rest, rfl⟩
    exact code.first?_word_append symbol rest

theorem first?_eq_none_iff {letters : List β} :
    code.first? letters = none ↔ ∀ symbol, ¬ code.word symbol <+: letters := by
  constructor
  · intro none symbol found
    rw [code.first?_eq_some_iff.mpr found] at none
    cases none
  · intro none
    rw [first?, dif_neg]
    rintro ⟨symbol, found⟩
    exact none symbol found

/-- The letters are the beginning of a word. -/
def Begins (letters : List β) : Prop := ∃ symbol, letters <+: code.word symbol

open Classical in
/-- One item off the front of the letters that have arrived. -/
noncomputable def decodeItem (letters : List β) : Decoded (Item α β) :=
  match code.first? letters with
  | some symbol => .token (.symbol symbol) (code.word symbol).length
  | none =>
      match letters with
      | [] => .needMore
      | letter :: rest =>
          if code.Begins (letter :: rest) then .needMore else .token (.malformed letter) 1

theorem decodeItem_word (symbol : α) (rest : List β) :
    code.decodeItem (code.word symbol ++ rest) =
      .token (.symbol symbol) (code.word symbol).length := by
  rw [decodeItem.eq_def, first?_word_append]

/-- What an item is taken for. -/
theorem decodeItem_token {letters : List β} {item : Item α β} {length : Nat}
    (decoded : code.decodeItem letters = .token item length) :
    (∃ symbol, code.word symbol <+: letters ∧ item = .symbol symbol ∧
        length = (code.word symbol).length) ∨
      ∃ letter rest, letters = letter :: rest ∧ item = .malformed letter ∧ length = 1 ∧
        code.first? letters = none ∧ ¬ code.Begins letters := by
  rw [decodeItem.eq_def] at decoded
  split at decoded
  · rename_i symbol found
    cases decoded
    exact .inl ⟨symbol, code.first?_eq_some_iff.mp found, rfl, rfl⟩
  · rename_i none
    split at decoded
    · cases decoded
    · rename_i letter rest
      split at decoded
      · cases decoded
      · rename_i begins
        cases decoded
        exact .inr ⟨letter, rest, rfl, rfl, rfl, none, begins⟩

theorem decodeItem_malformed {letter : β} {rest : List β}
    (unread : code.first? (letter :: rest) = none) (stuck : ¬ code.Begins (letter :: rest)) :
    code.decodeItem (letter :: rest) = .token (.malformed letter) 1 := by
  rw [decodeItem.eq_def, unread]
  dsimp only
  rw [if_neg stuck]

/-- A decision on letters that begin with no word and are no beginning of one is final. -/
theorem first?_append_eq_none {letters : List β} (more : List β)
    (unread : code.first? letters = none) (stuck : ¬ code.Begins letters) :
    code.first? (letters ++ more) = none := by
  rw [first?_eq_none_iff] at unread ⊢
  intro symbol found
  rcases List.prefix_or_prefix_of_prefix found (List.prefix_append letters more) with
    shorter | longer
  · exact unread symbol shorter
  · exact stuck ⟨symbol, longer⟩

/-- The tokenizer of letters. -/
noncomputable def items : Decoder β (Item α β) where
  decode := code.decodeItem
  positive := by
    intro letters item length decoded
    rcases code.decodeItem_token decoded with ⟨symbol, -, -, rfl⟩ | ⟨_, _, -, -, rfl, -⟩
    · exact List.length_pos_of_ne_nil (code.word_ne_nil symbol)
    · exact Nat.one_pos
  bounded := by
    intro letters item length decoded
    rcases code.decodeItem_token decoded with ⟨symbol, found, -, rfl⟩ | ⟨_, _, rfl, -, rfl, -⟩
    · exact found.length_le
    · simp
  stable := by
    intro letters item length more decoded
    rcases code.decodeItem_token decoded with
      ⟨symbol, ⟨rest, rfl⟩, rfl, rfl⟩ | ⟨letter, rest, rfl, rfl, rfl, none, stuck⟩
    · rw [List.append_assoc]
      exact code.decodeItem_word symbol _
    · refine code.decodeItem_malformed ?_ ?_
      · exact code.first?_append_eq_none more none stuck
      · rintro ⟨symbol, begun⟩
        exact stuck ⟨symbol, (List.prefix_append _ _).trans begun⟩

theorem items_waiting_iff {letters : List β} :
    code.items.Waiting letters ↔
      letters = [] ∨ code.first? letters = none ∧ code.Begins letters := by
  change code.decodeItem letters = .needMore ↔ _
  constructor
  · intro waiting
    rw [decodeItem.eq_def] at waiting
    split at waiting
    · cases waiting
    · rename_i none
      split at waiting
      · exact .inl rfl
      · split at waiting
        · rename_i begins
          exact .inr ⟨none, begins⟩
        · cases waiting
  · rintro (rfl | ⟨none, begins⟩)
    · have none : code.first? ([] : List β) = none := by
        rw [first?_eq_none_iff]
        intro symbol found
        exact code.word_ne_nil symbol (List.prefix_nil.mp found)
      rw [decodeItem.eq_def, none]
    · rw [decodeItem.eq_def, none]
      cases letters with
      | nil => rfl
      | cons letter rest =>
          dsimp only
          rw [if_pos begins]

/-- The tokenizer waits for the rest of a word. -/
theorem items_waiting_iff_cut {letters : List β} :
    code.items.Waiting letters ↔
      letters = [] ∨ ∃ symbol more, more ≠ [] ∧ code.word symbol = letters ++ more := by
  rw [items_waiting_iff]
  refine or_congr_right ⟨?_, ?_⟩
  · rintro ⟨unread, symbol, more, split⟩
    refine ⟨symbol, more, ?_, split.symm⟩
    rintro rfl
    rw [List.append_nil] at split
    rw [code.first?_eq_some_iff.mpr (by rw [split])] at unread
    cases unread
  · rintro ⟨symbol, more, cut, split⟩
    refine ⟨?_, symbol, more, split.symm⟩
    rw [first?_eq_none_iff]
    intro other found
    have same := code.prefixFree other symbol (found.trans ⟨more, split.symm⟩)
    have shorter := found.length_le
    have positive := List.length_pos_of_ne_nil cut
    rw [same, split, List.length_append] at shorter
    omega

/-- The longest text at the front of letters. -/
theorem exists_text (letters : List β) :
    ∃ text rest, letters = code.encode text ++ rest ∧ code.first? rest = none := by
  induction size : letters.length using Nat.strong_induction_on generalizing letters with
  | _ size' ih =>
      subst size
      cases found : code.first? letters with
      | none => exact ⟨[], letters, rfl, found⟩
      | some symbol =>
          obtain ⟨more, rfl⟩ := code.first?_eq_some_iff.mp found
          have positive := List.length_pos_of_ne_nil (code.word_ne_nil symbol)
          obtain ⟨text, rest, rfl, unread⟩ := ih more.length (by
            rw [List.length_append]
            omega) more rfl
          exact ⟨symbol :: text, rest, by simp, unread⟩

/-- A letter from the inside of a word is malformed wherever it stands. -/
theorem not_begins_inside {symbol : α} {letter : β} (inside : letter ∈ (code.word symbol).tail)
    (rest : List β) : ¬ code.Begins (letter :: rest) := by
  rintro ⟨other, more, split⟩
  refine code.synchronizing symbol letter inside other ?_
  rw [← split]
  simp

theorem first?_inside {symbol : α} {letter : β} (inside : letter ∈ (code.word symbol).tail)
    (rest : List β) : code.first? (letter :: rest) = none := by
  rw [first?_eq_none_iff]
  rintro other ⟨more, split⟩
  refine code.synchronizing symbol letter inside other ?_
  obtain ⟨first, tail, word⟩ := List.exists_cons_of_ne_nil (code.word_ne_nil other)
  rw [word] at split ⊢
  cases split
  simp

theorem reads_inside {tail : List β} (inside : code.Inside tail) (rest : List β) :
    code.items.Reads (tail ++ rest) (tail.map .malformed) rest := by
  induction tail with
  | nil => exact .done rest
  | cons letter tail ih =>
      obtain ⟨symbol, mem⟩ := inside letter List.mem_cons_self
      have decoded : code.decodeItem (letter :: (tail ++ rest)) = .token (.malformed letter) 1 :=
        code.decodeItem_malformed (code.first?_inside mem _) (code.not_begins_inside mem _)
      exact .step decoded (ih fun letter mem => inside letter (List.mem_cons_of_mem _ mem))

theorem reads_encode (text : List α) (rest : List β) :
    code.items.Reads (code.encode text ++ rest) (text.map .symbol) rest := by
  induction text with
  | nil => exact .done rest
  | cons symbol text ih =>
      rw [encode_cons, List.append_assoc]
      refine .step (code.decodeItem_word symbol _) ?_
      rw [List.drop_left]
      exact ih

/-- The items are the letters that were read. -/
theorem letters_of_reads {letters rest : List β} {read : List (Item α β)}
    (reads : code.items.Reads letters read rest) :
    letters = read.flatMap code.itemLetters ++ rest := by
  induction reads with
  | done => rfl
  | @step letters item length read rest decoded _ ih =>
      rw [List.flatMap_cons, List.append_assoc, ← ih]
      rcases code.decodeItem_token decoded with
        ⟨symbol, ⟨more, rfl⟩, rfl, rfl⟩ | ⟨letter, more, rfl, rfl, rfl, -⟩
      · rw [List.drop_left]
        rfl
      · rfl

/-- A word does not begin inside another one. -/
theorem not_inside_word {symbol other : α} {before after more : List β}
    (begun : before ≠ []) (split : code.word other ++ more = before ++ code.word symbol ++ after)
    (shorter : before.length < (code.word other).length) : False := by
  obtain ⟨letter, tail, word⟩ := List.exists_cons_of_ne_nil (code.word_ne_nil symbol)
  have inside : letter ∈ (code.word other).tail := by
    have taken := congrArg (fun letters => (letters.drop before.length).head?) split
    simp only [List.append_assoc, List.drop_left, word, List.cons_append, List.head?_cons] at taken
    rw [List.drop_append_of_le_length shorter.le] at taken
    have positive := List.length_pos_of_ne_nil begun
    have remains : (code.word other).drop before.length ≠ [] := by
      rw [ne_eq, List.drop_eq_nil_iff]
      omega
    rw [List.head?_append_of_ne_nil _ remains] at taken
    have member := List.mem_of_head? taken
    rw [← Nat.sub_add_cancel positive, Nat.add_comm, ← List.drop_drop, List.drop_one] at member
    exact List.mem_of_mem_drop member
  refine code.synchronizing other letter inside symbol ?_
  rw [word]
  simp

/-- Every word in the letters is read as its symbol. -/
theorem symbol_of_reads {letters rest : List β} {read : List (Item α β)}
    (reads : code.items.Reads letters read rest) (stopped : code.items.Waiting rest)
    {before after : List β} {symbol : α} (split : letters = before ++ code.word symbol ++ after) :
    ∃ earlier later, read = earlier ++ .symbol symbol :: later ∧
      before = earlier.flatMap code.itemLetters := by
  induction reads generalizing before with
  | done letters =>
      exfalso
      rcases code.items_waiting_iff.mp stopped with empty | ⟨none, other, more, whole⟩
      · rw [empty] at split
        simp [code.word_ne_nil symbol] at split
      · by_cases begun : before = []
        · subst begun
          rw [split, List.nil_append, first?_word_append] at none
          cases none
        · have shorter : before.length < (code.word other).length := by
            have positive := List.length_pos_of_ne_nil (code.word_ne_nil symbol)
            rw [← whole, split]
            simp only [List.length_append]
            omega
          have placed : code.word other ++ [] = before ++ code.word symbol ++ (after ++ more) := by
            rw [List.append_nil, ← whole, split, List.append_assoc]
          exact code.not_inside_word begun placed shorter
  | @step letters item length read rest decoded _ ih =>
      rcases code.decodeItem_token decoded with
        ⟨other, ⟨more, rfl⟩, rfl, rfl⟩ | ⟨letter, more, rfl, rfl, rfl, none, -⟩
      · by_cases begun : before = []
        · subst begun
          have same := congrArg code.first? split
          rw [List.nil_append, first?_word_append, first?_word_append] at same
          cases same
          exact ⟨[], read, rfl, rfl⟩
        · by_cases shorter : before.length < (code.word other).length
          · exact (code.not_inside_word begun split shorter).elim
          · obtain ⟨between, rfl⟩ : ∃ between, before = code.word other ++ between := by
              have inside : code.word other <+: before := by
                refine List.prefix_of_prefix_length_le (List.prefix_append _ more) ?_
                  (Nat.not_lt.mp shorter)
                rw [split, List.append_assoc]
                exact List.prefix_append _ _
              exact ⟨_, (List.prefix_append_drop inside)⟩
            rw [List.append_assoc, List.append_assoc, List.append_cancel_left_eq,
              ← List.append_assoc] at split
            rw [List.drop_left] at ih
            obtain ⟨earlier, later, rfl, rfl⟩ := ih stopped split
            exact ⟨.symbol other :: earlier, later, rfl, rfl⟩
      · cases before with
        | nil =>
            rw [split, List.nil_append, first?_word_append] at none
            cases none
        | cons first between =>
            obtain ⟨rfl, tail⟩ := List.cons.inj split
            obtain ⟨earlier, later, rfl, rfl⟩ := ih stopped tail
            exact ⟨.malformed letter :: earlier, later, rfl, rfl⟩

end SymbolCode

end Conhost
