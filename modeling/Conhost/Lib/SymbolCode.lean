import Mathlib.Data.List.Basic
import Mathlib.Data.List.Infix
import Mathlib.Data.Nat.Find
import Mathlib.Tactic.Common

/-!
# Self-synchronizing codes

A code writes every symbol of a text as a word of letters. A decoder that must
not fail replaces what is no word by a symbol of its own: it skips the longest
part at which a word could still begin, or one letter. If a text is cut into
pieces and every piece is decoded by itself, the text comes back exactly if no
word is cut.
-/

namespace Conhost

/-- A code none of whose words begins another, or begins inside another. -/
structure SymbolCode (α β : Type*) where
  word : α → List β
  word_ne_nil : ∀ symbol, word symbol ≠ []
  prefixFree : ∀ first second, word first <+: word second → first = second
  synchronizing : ∀ symbol, ∀ letter ∈ (word symbol).tail, ∀ other,
    letter ∉ (word other).head?

namespace SymbolCode

variable {α β : Type*} (code : SymbolCode α β)

def encode (text : List α) : List β := text.flatMap code.word

/-- The letters are a text. -/
def WellFormed (letters : List β) : Prop := ∃ text, letters = code.encode text

@[simp]
theorem encode_nil : code.encode [] = [] := rfl

@[simp]
theorem encode_cons (symbol : α) (text : List α) :
    code.encode (symbol :: text) = code.word symbol ++ code.encode text := rfl

@[simp]
theorem encode_append (first second : List α) :
    code.encode (first ++ second) = code.encode first ++ code.encode second :=
  List.flatMap_append

@[simp]
theorem encode_eq_nil {text : List α} : code.encode text = [] ↔ text = [] := by
  cases text with
  | nil => simp
  | cons symbol text => simp [code.word_ne_nil symbol]

open Classical in
/-- The symbol whose word the letters begin with. -/
noncomputable def first? (letters : List β) : Option α :=
  if found : ∃ symbol, code.word symbol <+: letters then some found.choose else none

open Classical in
/-- The length of the ill-formed part at the front of letters that begin with no word. -/
noncomputable def illFormedPart (letters : List β) : Nat :=
  max 1 (Nat.findGreatest (fun length => ∃ symbol, letters.take length <+: code.word symbol)
    letters.length)

/-- The text of any letters; every ill-formed part becomes the replacement. -/
noncomputable def lossy (replacement : α) (letters : List β) : List α :=
  match letters with
  | [] => []
  | letter :: rest =>
      match code.first? (letter :: rest) with
      | some symbol =>
          symbol :: lossy replacement ((letter :: rest).drop (max 1 (code.word symbol).length))
      | none => replacement :: lossy replacement ((letter :: rest).drop
          (code.illFormedPart (letter :: rest)))
termination_by letters.length
decreasing_by
  · simp only [List.length_drop, List.length_cons]
    omega
  · have positive : 1 ≤ code.illFormedPart (letter :: rest) := Nat.le_max_left _ _
    simp only [List.length_drop, List.length_cons]
    omega

theorem first?_word_append (symbol : α) (rest : List β) :
    code.first? (code.word symbol ++ rest) = some symbol := by
  have found : ∃ other, code.word other <+: code.word symbol ++ rest :=
    ⟨symbol, List.prefix_append _ _⟩
  rw [first?, dif_pos found]
  congr 1
  rcases List.prefix_or_prefix_of_prefix found.choose_spec (List.prefix_append _ _) with
    shorter | longer
  · exact code.prefixFree _ _ shorter
  · exact (code.prefixFree _ _ longer).symm

variable (replacement : α)

@[simp]
theorem lossy_nil : code.lossy replacement [] = [] := by
  rw [lossy]

@[simp]
theorem lossy_word_append (symbol : α) (rest : List β) :
    code.lossy replacement (code.word symbol ++ rest) =
      symbol :: code.lossy replacement rest := by
  obtain ⟨letter, tail, split⟩ := List.exists_cons_of_ne_nil (code.word_ne_nil symbol)
  have read := code.first?_word_append symbol rest
  rw [split, List.cons_append] at read ⊢
  rw [lossy, read]
  dsimp only
  rw [split, Nat.max_eq_right (by simp), ← List.cons_append, List.drop_left]

@[simp]
theorem lossy_encode_append (text : List α) (rest : List β) :
    code.lossy replacement (code.encode text ++ rest) =
      text ++ code.lossy replacement rest := by
  induction text with
  | nil => rfl
  | cons symbol text ih =>
      rw [encode_cons, List.append_assoc, lossy_word_append, ih, List.cons_append]

@[simp]
theorem lossy_encode (text : List α) : code.lossy replacement (code.encode text) = text := by
  simpa using code.lossy_encode_append replacement text []

theorem encode_injective [Inhabited α] : Function.Injective code.encode := by
  intro first second same
  rw [← code.lossy_encode default first, same, lossy_encode]

theorem lossy_ne_nil {letters : List β} (nonempty : letters ≠ []) :
    code.lossy replacement letters ≠ [] := by
  obtain ⟨letter, rest, rfl⟩ := List.exists_cons_of_ne_nil nonempty
  rw [lossy]
  split <;> simp

/-- The longest beginning of a word is one ill-formed part. -/
theorem lossy_part {part rest : List β} (begun : part ≠ [])
    (begins : ∃ symbol, part <+: code.word symbol)
    (longest : ∀ symbol length, part.length < length → length ≤ (part ++ rest).length →
      ¬ (part ++ rest).take length <+: code.word symbol)
    (unread : ∀ symbol, ¬ code.word symbol <+: part ++ rest) :
    code.lossy replacement (part ++ rest) = replacement :: code.lossy replacement rest := by
  classical
  have positive := List.length_pos_of_ne_nil begun
  have none : code.first? (part ++ rest) = none := by
    rw [first?, dif_neg]
    rintro ⟨symbol, inside⟩
    exact unread symbol inside
  have length : code.illFormedPart (part ++ rest) = part.length := by
    have greatest : Nat.findGreatest
        (fun length => ∃ symbol, (part ++ rest).take length <+: code.word symbol)
        (part ++ rest).length = part.length := by
      rw [Nat.findGreatest_eq_iff]
      refine ⟨by simp, fun _ => by simpa using begins, ?_⟩
      rintro length longer inside ⟨symbol, more⟩
      exact longest symbol length longer inside more
    rw [illFormedPart, greatest]
    omega
  obtain ⟨letter, tail, rfl⟩ := List.exists_cons_of_ne_nil begun
  rw [List.cons_append] at none length ⊢
  rw [lossy, none]
  dsimp only
  rw [length, ← List.cons_append, List.drop_left]

/-- The beginning of a word that is cut off is one ill-formed part. -/
theorem lossy_begin {part rest : List β} {symbol : α} (split : code.word symbol = part ++ rest)
    (begun : part ≠ []) (cut : rest ≠ []) :
    code.lossy replacement part = [replacement] := by
  have inside : part <+: code.word symbol := by
    rw [split]
    exact List.prefix_append _ _
  have unread (other : α) : ¬ code.word other <+: part := by
    intro whole
    have same := code.prefixFree _ _ (whole.trans inside)
    rw [same, split] at whole
    have shorter := whole.length_le
    have positive := List.length_pos_of_ne_nil cut
    rw [List.length_append] at shorter
    omega
  have longest (other : α) (length : Nat) (longer : part.length < length)
      (bound : length ≤ (part ++ []).length) : ¬ (part ++ []).take length <+: code.word other := by
    simp only [List.append_nil] at bound
    omega
  simpa using code.lossy_part replacement begun ⟨symbol, inside⟩ longest (by simpa using unread)

/-- A letter from the inside of a word is an ill-formed part. -/
theorem lossy_inside {symbol : α} {letter : β} (inside : letter ∈ (code.word symbol).tail)
    (rest : List β) :
    code.lossy replacement (letter :: rest) = replacement :: code.lossy replacement rest := by
  have begins (other : α) (length : Nat) :
      ¬ (letter :: rest).take (length + 1) <+: code.word other := by
    rintro ⟨more, split⟩
    refine code.synchronizing symbol letter inside other ?_
    rw [← split]
    simp
  have unread : code.first? (letter :: rest) = none := by
    rw [first?, dif_neg]
    rintro ⟨other, more, split⟩
    refine code.synchronizing symbol letter inside other ?_
    obtain ⟨first, tail, word⟩ := List.exists_cons_of_ne_nil (code.word_ne_nil other)
    rw [word] at split ⊢
    cases split
    simp
  have one : code.illFormedPart (letter :: rest) = 1 := by
    classical
    rw [illFormedPart, Nat.findGreatest_eq_zero_iff.mpr]
    · rfl
    · intro length positive _
      rintro ⟨other, begun⟩
      obtain ⟨shorter, rfl⟩ := Nat.exists_eq_succ_of_ne_zero positive.ne'
      exact begins other shorter begun
  rw [lossy, unread]
  dsimp only
  rw [one, List.drop_one, List.tail_cons]

/-- Letters from the inside of a word. -/
def Inside (tail : List β) : Prop := ∀ letter ∈ tail, ∃ symbol, letter ∈ (code.word symbol).tail

variable [DecidableEq α]

/-- A piece of a text ends between two words, or it cuts a word and the replacements outnumber
those of the text. -/
theorem piece_cases {piece more : List β} {text : List α}
    (split : piece ++ more = code.encode text) :
    (∃ done later, piece = code.encode done ∧ text = done ++ later ∧ more = code.encode later) ∨
      ∃ left later, code.Inside left ∧ more = left ++ code.encode later ∧
        text.count replacement <
          (code.lossy replacement piece).count replacement + left.length +
            later.count replacement := by
  induction text generalizing piece with
  | nil =>
      obtain ⟨rfl, rfl⟩ := List.append_eq_nil_iff.mp split
      exact .inl ⟨[], [], rfl, rfl, rfl⟩
  | cons symbol text ih =>
      rcases List.append_eq_append_iff.mp split with ⟨left, word, rest⟩ | ⟨rest, rfl, encoded⟩
      · by_cases begun : piece = []
        · subst begun
          exact .inl ⟨[], symbol :: text, rfl, rfl, split⟩
        by_cases whole : left = []
        · subst whole
          rw [List.append_nil] at word
          exact .inl ⟨[symbol], text, by simp [word], rfl, rest⟩
        · refine .inr ⟨left, text, ?_, rest, ?_⟩
          · intro letter mem
            refine ⟨symbol, ?_⟩
            rw [word, List.tail_append_of_ne_nil begun]
            exact List.mem_append_right _ mem
          · have positive := List.length_pos_of_ne_nil whole
            have count : (symbol :: text).count replacement ≤ text.count replacement + 1 := by
              rw [List.count_cons]
              split <;> omega
            rw [code.lossy_begin replacement word begun whole, List.count_singleton_self]
            omega
      · rcases ih encoded.symm with
          ⟨done, later, rfl, rfl, more⟩ | ⟨left, later, inside, more, fewer⟩
        · exact .inl ⟨symbol :: done, later, rfl, rfl, more⟩
        · refine .inr ⟨left, later, inside, more, ?_⟩
          rw [lossy_word_append, List.count_cons, List.count_cons]
          omega

theorem piece_inside {piece tail more : List β} {text : List α} (inside : code.Inside tail)
    (split : piece ++ more = tail ++ code.encode text) :
    ∃ left later, code.Inside left ∧ more = left ++ code.encode later ∧
      tail.length + text.count replacement ≤
        (code.lossy replacement piece).count replacement + left.length +
          later.count replacement := by
  induction piece generalizing tail with
  | nil => exact ⟨tail, text, inside, split, by simp⟩
  | cons letter piece ih =>
      cases tail with
      | nil =>
          rcases code.piece_cases replacement split with
            ⟨done, later, whole, rfl, more⟩ | ⟨left, later, inside, more, fewer⟩
          · refine ⟨[], later, by simp [Inside], more, ?_⟩
            rw [whole, lossy_encode, List.count_append]
            simp
          · refine ⟨left, later, inside, more, ?_⟩
            simp only [List.length_nil]
            omega
      | cons other tail =>
          rw [List.cons_append, List.cons_append, List.cons.injEq] at split
          obtain ⟨rfl, split⟩ := split
          obtain ⟨symbol, mem⟩ := inside letter List.mem_cons_self
          obtain ⟨left, later, inside, more, fewer⟩ := ih
            (fun letter mem => inside letter (List.mem_cons_of_mem _ mem)) split
          refine ⟨left, later, inside, more, ?_⟩
          rw [code.lossy_inside replacement mem, List.count_cons_self, List.length_cons]
          omega

theorem pieces_inside {pieces : List (List β)} {tail : List β} {text : List α}
    (inside : code.Inside tail) (split : pieces.flatten = tail ++ code.encode text) :
    tail.length + text.count replacement ≤
      (pieces.flatMap (code.lossy replacement)).count replacement := by
  induction pieces generalizing tail text with
  | nil =>
      obtain ⟨rfl, none⟩ := List.append_eq_nil_iff.mp split.symm
      rw [encode_eq_nil] at none
      simp [none]
  | cons piece pieces ih =>
      obtain ⟨left, later, inside, more, fewer⟩ := code.piece_inside replacement inside split
      have rest := ih inside more
      rw [List.flatMap_cons, List.count_append]
      omega

omit [DecidableEq α] in
theorem lossy_flatten {pieces : List (List β)} (whole : ∀ piece ∈ pieces, code.WellFormed piece) :
    code.lossy replacement pieces.flatten = pieces.flatMap (code.lossy replacement) := by
  induction pieces with
  | nil => simp
  | cons piece pieces ih =>
      obtain ⟨text, rfl⟩ := whole piece List.mem_cons_self
      rw [List.flatten_cons, lossy_encode_append, List.flatMap_cons, lossy_encode,
        ih fun piece mem => whole piece (List.mem_cons_of_mem _ mem)]

theorem wellFormed_of_flatMap_lossy {pieces : List (List β)} {text : List α}
    (split : pieces.flatten = code.encode text)
    (same : pieces.flatMap (code.lossy replacement) = text) :
    ∀ piece ∈ pieces, code.WellFormed piece := by
  induction pieces generalizing text with
  | nil => simp
  | cons piece pieces ih =>
      rw [List.flatten_cons] at split
      rw [List.flatMap_cons] at same
      rcases code.piece_cases replacement split with
        ⟨done, later, rfl, rfl, more⟩ | ⟨left, later, inside, more, fewer⟩
      · rw [lossy_encode, List.append_cancel_left_eq] at same
        exact List.forall_mem_cons.mpr ⟨⟨done, rfl⟩, ih more same⟩
      · have rest := code.pieces_inside replacement inside more
        have counts := congrArg (List.count replacement) same
        rw [List.count_append] at counts
        omega

/-- Decoding the pieces of a text one by one gives the text exactly if no piece cuts a word. -/
theorem flatMap_lossy_eq_iff {pieces : List (List β)}
    (whole : code.WellFormed pieces.flatten) :
    pieces.flatMap (code.lossy replacement) = code.lossy replacement pieces.flatten ↔
      ∀ piece ∈ pieces, code.WellFormed piece := by
  constructor
  · intro same
    obtain ⟨text, split⟩ := whole
    rw [split, lossy_encode] at same
    exact code.wellFormed_of_flatMap_lossy replacement split same
  · intro pieces
    exact (code.lossy_flatten replacement pieces).symm

end SymbolCode

end Conhost
