import Conhost.Basic
import Mathlib.Data.Bool.AllAny
import Mathlib.Data.List.TakeWhile

/-!
# Command lines and their tokens

`CommandLineToArgvW` by its documented rules. The first token is the program
name: between quotes it ends at the next quote, elsewhere at the first blank,
and backslashes mean nothing in it. In every other token a run of backslashes
before a quote is halved, and an odd one makes the quote part of the token.
-/

namespace Conhost

namespace Cli

/-- A token of a command line. -/
abbrev Token := List WChar

def charQuote : WChar := 0x22
def charBackslash : WChar := 0x5C
def charSpace : WChar := 0x20
def charTab : WChar := 0x09

/-- A character that ends a token outside quotes. -/
def isBlank (ch : WChar) : Bool :=
  ch == charSpace || ch == charTab

/-- The first token of a command line, and what follows it. -/
def programName : List WChar → Token × List WChar
  | [] => ([], [])
  | ch :: line =>
      if ch = charQuote then (line.takeWhile (· ≠ charQuote), (line.dropWhile (· ≠ charQuote)).tail)
      else ((ch :: line).takeWhile (!isBlank ·), (ch :: line).dropWhile (!isBlank ·))

/-- The tokens after the first: `token` is what has been read of the current one, without the
`slashes` backslashes that end it so far. -/
def arguments : (token : Option Token) → (slashes : Nat) → (inQuotes : Bool) → List WChar →
    List Token
  | none, _, _, [] => []
  | some token, slashes, _, [] => [token ++ List.replicate slashes charBackslash]
  | token, slashes, inQuotes, ch :: line =>
      if ch = charBackslash then arguments (some (token.getD [])) (slashes + 1) inQuotes line
      else if ch = charQuote then
        let halved := token.getD [] ++ List.replicate (slashes / 2) charBackslash
        if slashes % 2 = 0 then arguments (some halved) 0 (!inQuotes) line
        else arguments (some (halved ++ [charQuote])) 0 inQuotes line
      else if isBlank ch && !inQuotes then
        (token.map (· ++ List.replicate slashes charBackslash)).toList ++
          arguments none 0 false line
      else
        arguments (some (token.getD [] ++ List.replicate slashes charBackslash ++ [ch])) 0 inQuotes
          line

/-- What `CommandLineToArgvW` depends on besides the line. -/
structure Environment where
  /-- The path of the current executable, the one token of an empty line. -/
  executablePath : Token
  /-- Whether the memory for the tokens can be allocated. -/
  allocates : Bool

/-- The tokens of a line that ends at its first null character. -/
def splitCommandLine (environment : Environment) (line : List WChar) : List Token :=
  let text := line.takeWhile (· ≠ 0)
  if text = [] then [environment.executablePath]
  else (programName text).1 :: arguments none 0 false (programName text).2

/-- `CommandLineToArgvW` -/
def commandLineToArgvW (environment : Environment) (line : List WChar) : Option (List Token) :=
  if environment.allocates then some (splitCommandLine environment line) else none

section Steps

variable (token : Option Token) (text : Token) (slashes : Nat) (inQuotes : Bool)
  (line : List WChar)

attribute [local simp] arguments

@[simp] theorem arguments_nil : arguments none slashes inQuotes [] = [] := rfl

@[simp] theorem arguments_end :
    arguments (some text) slashes inQuotes [] =
      [text ++ List.replicate slashes charBackslash] := rfl

@[simp] theorem arguments_backslash :
    arguments token slashes inQuotes (charBackslash :: line) =
      arguments (some (token.getD [])) (slashes + 1) inQuotes line := by
  simp [arguments]

/-- A run of backslashes is only counted. -/
theorem arguments_backslashes (count : Nat) :
    arguments (some text) slashes inQuotes (List.replicate count charBackslash ++ line) =
      arguments (some text) (slashes + count) inQuotes line := by
  induction count generalizing slashes with
  | zero => simp
  | succ count ih =>
      simp only [List.replicate_succ, List.cons_append, arguments_backslash, Option.getD_some, ih]
      congr 1
      omega

theorem charQuote_ne_charBackslash : charQuote ≠ charBackslash := by decide

/-- An even run of backslashes before a quote is halved, and the quote opens or closes. -/
theorem arguments_quote (half : Nat) :
    arguments token (2 * half) inQuotes (charQuote :: line) =
      arguments (some (token.getD [] ++ List.replicate half charBackslash)) 0 (!inQuotes) line := by
  simp [arguments, charQuote_ne_charBackslash]

/-- An odd run of backslashes before a quote is halved, and the quote is part of the token. -/
theorem arguments_escapedQuote (half : Nat) :
    arguments token (2 * half + 1) inQuotes (charQuote :: line) =
      arguments (some (token.getD [] ++ List.replicate half charBackslash ++ [charQuote])) 0
        inQuotes line := by
  have halved : (2 * half + 1) / 2 = half := by omega
  simp [arguments, charQuote_ne_charBackslash, halved]

theorem ne_charBackslash_of_isBlank {ch : WChar} (blank : isBlank ch = true) :
    ch ≠ charBackslash := by
  rintro rfl
  revert blank
  decide

theorem ne_charQuote_of_isBlank {ch : WChar} (blank : isBlank ch = true) : ch ≠ charQuote := by
  rintro rfl
  revert blank
  decide

/-- A blank outside quotes ends the token. -/
theorem arguments_blank {ch : WChar} (blank : isBlank ch = true) :
    arguments token slashes false (ch :: line) =
      (token.map (· ++ List.replicate slashes charBackslash)).toList ++
        arguments none 0 false line := by
  simp [arguments, ne_charBackslash_of_isBlank blank, ne_charQuote_of_isBlank blank, blank]

/-- Every other character is part of the token, with the backslashes before it. -/
theorem arguments_plain {ch : WChar} (slash : ch ≠ charBackslash) (quote : ch ≠ charQuote)
    (plain : isBlank ch = false ∨ inQuotes = true) :
    arguments token slashes inQuotes (ch :: line) =
      arguments (some (token.getD [] ++ List.replicate slashes charBackslash ++ [ch])) 0 inQuotes
        line := by
  rcases plain with plain | plain <;> simp [arguments, slash, quote, plain]

/-- A character that is no blank begins a token. -/
theorem arguments_begin {ch : WChar} (plain : isBlank ch = false) :
    arguments none 0 false (ch :: line) = arguments (some []) 0 false (ch :: line) := by
  simp [arguments, plain]

end Steps

/-- Each character of a token comes from the line. -/
theorem mem_of_mem_arguments {token : Option Token} {slashes : Nat} {inQuotes : Bool}
    {line : List WChar} {argument : Token} {ch : WChar}
    (mem : argument ∈ arguments token slashes inQuotes line) (chMem : ch ∈ argument) :
    ch ∈ token.getD [] ∨ ch = charBackslash ∨ ch ∈ line := by
  induction line generalizing token slashes inQuotes with
  | nil =>
      cases token with
      | none => simp at mem
      | some text =>
          simp only [arguments_end, List.mem_singleton] at mem
          subst mem
          simp only [List.mem_append, List.mem_replicate] at chMem
          rcases chMem with chMem | ⟨_, chMem⟩
          · exact Or.inl chMem
          · exact Or.inr (Or.inl chMem)
  | cons head line ih =>
      simp only [arguments] at mem
      split at mem
      · have := ih mem
        simp at this ⊢
        tauto
      · split at mem
        · split at mem
          all_goals
            have := ih mem
            simp at this ⊢
            grind
        · split at mem
          · rcases List.mem_append.mp mem with mem | mem
            · cases token with
              | none => simp at mem
              | some text =>
                  simp at mem
                  subst mem
                  simp at chMem ⊢
                  tauto
            · have := ih mem
              simp at this ⊢
              tauto
          · have := ih mem
            simp at this ⊢
            grind

theorem programName_quoted (name line : List WChar) (noQuote : charQuote ∉ name) :
    programName (charQuote :: (name ++ charQuote :: line)) = (name, line) := by
  have different : ∀ ch ∈ name, decide (ch ≠ charQuote) = true := by
    intro ch mem
    simp only [decide_eq_true_eq]
    rintro rfl
    exact noQuote mem
  simp only [programName, if_true, List.takeWhile_append_of_pos different,
    List.dropWhile_append_of_pos different]
  simp

theorem programName_blank (name line : List WChar) (quote : name.head? ≠ some charQuote)
    (plain : ∀ ch ∈ name, isBlank ch = false)
    (ends : ∀ ch ∈ line.head?, isBlank ch = true) (nonempty : name ≠ []) :
    programName (name ++ line) = (name, line) := by
  have plain' : ∀ ch ∈ name, (!isBlank ch) = true := by
    intro ch mem
    simp [plain ch mem]
  cases name with
  | nil => exact absurd rfl nonempty
  | cons head name =>
      have different : head ≠ charQuote := by simpa using quote
      simp only [List.cons_append, programName, different, if_false]
      rw [← List.cons_append, List.takeWhile_append_of_pos plain',
        List.dropWhile_append_of_pos plain']
      cases line with
      | nil => simp
      | cons ch line =>
          have blank : isBlank ch = true := ends ch rfl
          simp [blank]

/-- What follows a program name is part of the line. -/
theorem mem_of_mem_programName {line : List WChar} {ch : WChar}
    (mem : ch ∈ (programName line).2) : ch ∈ line := by
  cases line with
  | nil => simp [programName] at mem
  | cons head line =>
      simp only [programName] at mem
      split_ifs at mem
      · have := (List.dropWhile_suffix _).subset (List.mem_of_mem_tail mem)
        exact List.mem_cons_of_mem _ this
      · exact (List.dropWhile_suffix (!isBlank ·)).subset mem

/-- What is read between the quotes of a program name holds no quote. -/
theorem programName_quoted_notMem (line : List WChar) :
    charQuote ∉ (programName (charQuote :: line)).1 := by
  intro mem
  simp only [programName, if_true] at mem
  have := List.mem_takeWhile_imp mem
  simp at this

end Cli

end Conhost
