import Conhost.Cli.Arguments

/-!
# Reading a client command line back

The tokens written by `set_client_command_line` against the documented rules of
`CommandLineToArgvW`. Every token after the first is read back as it was. The
first is read by the rules for a program name, which know no backslashes, so
it is read back only where nothing in it had to be escaped by one.
-/

namespace Conhost

namespace Cli

/-- Reading what was written for some characters: the run of backslashes at the end is the one the
writer has counted, and the token read so far is what was written. -/
theorem arguments_escapeCharacters (arg text : Token) (slashes : Nat) (inQuotes : Bool)
    (line : List WChar) (plain : (∀ ch ∈ arg, isBlank ch = false) ∨ inQuotes = true) :
    ∃ read, arguments (some text) slashes inQuotes ((escapeCharacters slashes arg).1 ++ line) =
        arguments (some read) (escapeCharacters slashes arg).2 inQuotes line ∧
      read ++ List.replicate (escapeCharacters slashes arg).2 charBackslash =
        text ++ List.replicate slashes charBackslash ++ arg := by
  induction arg generalizing text slashes with
  | nil => exact ⟨text, by simp [escapeCharacters]⟩
  | cons ch arg ih =>
      have plainTail : (∀ ch ∈ arg, isBlank ch = false) ∨ inQuotes = true :=
        plain.imp_left fun plain ch mem => plain ch (List.mem_cons_of_mem _ mem)
      rw [escapeCharacters]
      split_ifs with slash quote
      · subst slash
        rcases ih text (slashes + 1) plainTail with ⟨read, reads, spells⟩
        refine ⟨read, ?_, ?_⟩
        · simpa using reads
        · rw [spells]
          simp [List.replicate_succ']
      · subst quote
        rcases ih (text ++ List.replicate slashes charBackslash ++ [charQuote]) 0 plainTail with
          ⟨read, reads, spells⟩
        refine ⟨read, ?_, ?_⟩
        · have odd : slashes + slashes + 1 = 2 * slashes + 1 := by omega
          simp only [List.append_assoc, List.cons_append, arguments_backslashes,
            arguments_backslash, Option.getD_some, odd, arguments_escapedQuote]
          simpa using reads
        · simpa using spells
      · have plainHead : isBlank ch = false ∨ inQuotes = true :=
          plain.imp_left fun plain => plain ch (by simp)
        rcases ih (text ++ List.replicate slashes charBackslash ++ [ch]) 0 plainTail with
          ⟨read, reads, spells⟩
        refine ⟨read, ?_, ?_⟩
        · rw [List.cons_append, arguments_plain _ _ _ _ slash quote plainHead]
          simpa using reads
        · simpa using spells

/-- What is written for a token without blanks begins a token. -/
theorem arguments_begin_escapeCharacters (arg : Token) (line : List WChar)
    (plain : ∀ ch ∈ arg, isBlank ch = false) (nonempty : arg ≠ []) :
    arguments none 0 false ((escapeCharacters 0 arg).1 ++ line) =
      arguments (some []) 0 false ((escapeCharacters 0 arg).1 ++ line) := by
  cases arg with
  | nil => exact absurd rfl nonempty
  | cons ch arg =>
      rw [escapeCharacters]
      split_ifs with slash quote
      · exact arguments_begin _ (by decide)
      · exact arguments_begin _ (by decide)
      · exact arguments_begin _ (plain ch (by simp))

/-- Only quotes are written as more than themselves. -/
theorem escapeCharacters_of_notMem (arg : Token) (slashes : Nat) (noQuote : charQuote ∉ arg) :
    (escapeCharacters slashes arg).1 = arg := by
  induction arg generalizing slashes with
  | nil => rfl
  | cons ch arg ih =>
      simp only [List.mem_cons, not_or] at noQuote
      rw [escapeCharacters]
      split_ifs with slash quote
      · simp [slash, ih _ noQuote.2]
      · exact absurd quote.symm noQuote.1
      · simp [ih _ noQuote.2]

/-- The writer ends in a run of backslashes when the token does. -/
theorem escapeCharacters_slashes (arg : Token) (slashes : Nat) (nonempty : arg ≠ []) :
    (escapeCharacters slashes arg).2 = 0 ↔ arg.getLast? ≠ some charBackslash := by
  induction arg generalizing slashes with
  | nil => exact absurd rfl nonempty
  | cons ch arg ih =>
      cases arg with
      | nil =>
          rw [escapeCharacters]
          split_ifs with slash quote <;> simp_all [escapeCharacters]
      | cons next arg =>
          rw [escapeCharacters]
          split_ifs with slash quote <;> simp [ih _ (by simp)]

/-- The shortcut for tokens with nothing to escape writes what the loop would. -/
theorem escapeArgument_eq (arg : Token) (nonempty : arg ≠ []) :
    escapeArgument arg =
      if arg.any isBlank then
        charQuote :: ((escapeCharacters 0 arg).1 ++
          (List.replicate (escapeCharacters 0 arg).2 charBackslash ++ [charQuote]))
      else (escapeCharacters 0 arg).1 := by
  simp only [escapeArgument, nonempty, if_false]
  split_ifs with blank size size
  · omega
  · rfl
  · have none : arg.countP (fun ch => ch == charQuote || ch == charBackslash) = 0 := by omega
    have noQuote : charQuote ∉ arg := by
      intro mem
      have := List.countP_eq_zero.mp none charQuote mem
      simp at this
    exact (escapeCharacters_of_notMem arg 0 noQuote).symm
  · rfl

/-- An escaped token is read back as it was, up to the blank or the end that closes it. -/
theorem arguments_escapeArgument (arg : Token) (line : List WChar) :
    ∃ read slashes, arguments none 0 false (escapeArgument arg ++ line) =
        arguments (some read) slashes false line ∧
      read ++ List.replicate slashes charBackslash = arg := by
  rcases eq_or_ne arg [] with rfl | nonempty
  · refine ⟨[], 0, ?_, rfl⟩
    have opens := arguments_quote none false (charQuote :: line) 0
    have closes := arguments_quote (some []) true line 0
    simpa [escapeArgument] using opens.trans closes
  · rw [escapeArgument_eq arg nonempty]
    split_ifs with blank
    · rcases arguments_escapeCharacters arg [] 0 true
        (List.replicate (escapeCharacters 0 arg).2 charBackslash ++ charQuote :: line)
        (Or.inr rfl) with ⟨read, reads, spells⟩
      refine ⟨read ++ List.replicate (escapeCharacters 0 arg).2 charBackslash, 0, ?_, ?_⟩
      · have opens := arguments_quote none false ((escapeCharacters 0 arg).1 ++
          (List.replicate (escapeCharacters 0 arg).2 charBackslash ++ charQuote :: line)) 0
        have closes := arguments_quote (some read) true line (escapeCharacters 0 arg).2
        rw [arguments_backslashes, ← Nat.two_mul, closes] at reads
        simpa using opens.trans reads
      · simpa using spells
    · have plain : ∀ ch ∈ arg, isBlank ch = false := by simpa using blank
      rcases arguments_escapeCharacters arg [] 0 false line (Or.inl plain) with
        ⟨read, reads, spells⟩
      refine ⟨read, (escapeCharacters 0 arg).2, ?_, by simpa using spells⟩
      rw [← reads]
      exact arguments_begin_escapeCharacters arg line plain nonempty

/-- What is written after a token: nothing, or a blank and the other tokens. -/
def joinRest (args : List Token) : List WChar :=
  if args = [] then [] else charSpace :: joinArguments args

theorem joinArguments_cons (arg : Token) (args : List Token) :
    joinArguments (arg :: args) = escapeArgument arg ++ joinRest args := by
  cases args <;> simp [joinArguments, joinRest]

/-- The tokens after the program name are read back as they were. -/
theorem arguments_joinRest (args : List Token) : arguments none 0 false (joinRest args) = args := by
  induction args with
  | nil => simp [joinRest]
  | cons arg args ih =>
      have blank : isBlank charSpace = true := by decide
      rcases arguments_escapeArgument arg (joinRest args) with ⟨read, slashes, reads, spells⟩
      rw [joinRest, if_neg (by simp), arguments_blank _ _ _ blank, joinArguments_cons, reads]
      simp only [Option.map_none, Option.toList_none, List.nil_append]
      cases args with
      | nil => simp [joinRest, spells]
      | cons next args =>
          rw [joinRest, if_neg (by simp)] at ih ⊢
          rw [arguments_blank _ _ _ blank] at ih ⊢
          simp only [Option.map_none, Option.toList_none, List.nil_append, Option.map_some,
            Option.toList_some, List.cons_append, spells] at ih ⊢
          rw [ih]

/-- Whether the first token of a client is read back by the rules for a program name. -/
def NameReads (name : Token) : Prop :=
  charQuote ∉ name ∧ (name.any isBlank = true → name.getLast? ≠ some charBackslash)

instance (name : Token) : Decidable (NameReads name) :=
  inferInstanceAs (Decidable (_ ∧ _))

theorem isBlank_head_joinRest {args : List Token} {ch : WChar} (mem : ch ∈ (joinRest args).head?) :
    isBlank ch = true := by
  cases args with
  | nil => simp [joinRest] at mem
  | cons arg args =>
      simp [joinRest] at mem
      subst mem
      decide

theorem programName_escapeArgument {name : Token} (reads : NameReads name) (args : List Token) :
    programName (escapeArgument name ++ joinRest args) = (name, joinRest args) := by
  rcases eq_or_ne name [] with rfl | nonempty
  · exact programName_quoted [] (joinRest args) (by simp)
  · rw [escapeArgument_eq name nonempty]
    have same := escapeCharacters_of_notMem name 0 reads.1
    split_ifs with blank
    · have ends := (escapeCharacters_slashes name 0 nonempty).mpr (reads.2 blank)
      have quoted := programName_quoted name (joinRest args) reads.1
      simpa [same, ends] using quoted
    · have plain : ∀ ch ∈ name, isBlank ch = false := by simpa using blank
      rw [same]
      apply programName_blank name (joinRest args) _ plain _ nonempty
      · intro starts
        exact reads.1 (List.mem_of_mem_head? starts)
      · intro ch mem
        exact isBlank_head_joinRest mem

/-- Escaping keeps or lengthens. -/
theorem length_le_escapeCharacters (arg : Token) (slashes : Nat) :
    arg.length ≤ (escapeCharacters slashes arg).1.length := by
  induction arg generalizing slashes with
  | nil => simp
  | cons ch arg ih =>
      rw [escapeCharacters]
      split_ifs
      · simpa using ih (slashes + 1)
      · have := ih 0
        simp
        omega
      · simpa using ih 0

theorem escapeCharacters_ne_nil {arg : Token} (nonempty : arg ≠ []) (slashes : Nat) :
    (escapeCharacters slashes arg).1 ≠ [] := by
  intro empty
  have := length_le_escapeCharacters arg slashes
  rw [empty] at this
  exact nonempty (List.length_eq_zero_iff.mp (Nat.le_zero.mp this))

/-- A token with a quote is written longer than it is. -/
theorem length_lt_escapeCharacters {arg : Token} (mem : charQuote ∈ arg) (slashes : Nat) :
    arg.length < (escapeCharacters slashes arg).1.length := by
  induction arg generalizing slashes with
  | nil => simp at mem
  | cons ch arg ih =>
      rw [escapeCharacters]
      split_ifs with slash quote
      · have mem : charQuote ∈ arg := by
          rcases List.mem_cons.mp mem with mem | mem
          · exact absurd (mem.trans slash) charQuote_ne_charBackslash
          · exact mem
        simpa using ih mem (slashes + 1)
      · have := length_le_escapeCharacters arg 0
        simp
        omega
      · have mem : charQuote ∈ arg := by
          rcases List.mem_cons.mp mem with mem | mem
          · exact absurd mem.symm quote
          · exact mem
        simpa using ih mem 0

/-- Nothing but backslashes is added inside a token. -/
theorem mem_of_mem_escapeCharacters {arg : Token} {slashes : Nat} {ch : WChar}
    (mem : ch ∈ (escapeCharacters slashes arg).1) : ch = charBackslash ∨ ch ∈ arg := by
  induction arg generalizing slashes with
  | nil => simp [escapeCharacters] at mem
  | cons head arg ih =>
      rw [escapeCharacters] at mem
      split_ifs at mem with slash quote
      · rcases List.mem_cons.mp mem with mem | mem
        · exact Or.inl mem
        · exact (ih mem).imp_right (List.mem_cons_of_mem _)
      · simp only [List.mem_append, List.mem_replicate, List.mem_cons] at mem
        rcases mem with ⟨_, mem⟩ | mem | mem | mem
        · exact Or.inl mem
        · exact Or.inl mem
        · exact Or.inr (by simp [mem, quote])
        · exact (ih mem).imp_right (List.mem_cons_of_mem _)
      · rcases List.mem_cons.mp mem with mem | mem
        · exact Or.inr (by simp [mem])
        · exact (ih mem).imp_right (List.mem_cons_of_mem _)

/-- What is written inside a token never begins with a quote. -/
theorem head_escapeCharacters (arg : Token) :
    (escapeCharacters 0 arg).1.head? ≠ some charQuote := by
  cases arg with
  | nil => simp [escapeCharacters]
  | cons ch arg =>
      rw [escapeCharacters]
      split_ifs with slash quote
      · simp [charQuote_ne_charBackslash.symm]
      · simp [charQuote_ne_charBackslash.symm]
      · simpa using quote

/-- A program name that had to be escaped by a backslash is not read back. -/
theorem nameReads_of_programName {name : Token} {args : List Token}
    (same : (programName (escapeArgument name ++ joinRest args)).1 = name) : NameReads name := by
  rcases eq_or_ne name [] with rfl | nonempty
  · exact ⟨by simp, by simp⟩
  rw [escapeArgument_eq name nonempty] at same
  split_ifs at same with blank
  · have noQuote : charQuote ∉ name := by
      rw [← same]
      exact programName_quoted_notMem _
    refine ⟨noQuote, fun _ => ?_⟩
    have inside : charQuote ∉ name ++
        List.replicate (escapeCharacters 0 name).2 charBackslash := by
      simp [noQuote, charQuote_ne_charBackslash]
    have quoted := programName_quoted _ (joinRest args) inside
    simp only [escapeCharacters_of_notMem name 0 noQuote, List.append_assoc, List.cons_append,
      List.nil_append] at same quoted
    rw [quoted] at same
    have ends : (escapeCharacters 0 name).2 = 0 := by simpa using same
    exact (escapeCharacters_slashes name 0 nonempty).mp ends
  · have plain : ∀ ch ∈ name, isBlank ch = false := by simpa using blank
    have escaped : ∀ ch ∈ (escapeCharacters 0 name).1, isBlank ch = false := by
      intro ch mem
      rcases mem_of_mem_escapeCharacters mem with rfl | mem
      · decide
      · exact plain ch mem
    have ends : ∀ ch ∈ (joinRest args).head?, isBlank ch = true :=
      fun ch mem => isBlank_head_joinRest mem
    rw [programName_blank _ _ (head_escapeCharacters name) escaped ends
      (escapeCharacters_ne_nil nonempty 0)] at same
    refine ⟨?_, fun blank' => absurd blank' blank⟩
    intro mem
    have longer := length_lt_escapeCharacters mem 0
    simp only at same
    rw [same] at longer
    exact Nat.lt_irrefl _ longer

theorem escapeArgument_ne_nil (arg : Token) : escapeArgument arg ≠ [] := by
  rcases eq_or_ne arg [] with rfl | nonempty
  · simp [escapeArgument]
  · rw [escapeArgument_eq arg nonempty]
    split_ifs
    · simp
    · exact escapeCharacters_ne_nil nonempty 0

theorem mem_of_mem_escapeArgument {arg : Token} {ch : WChar} (mem : ch ∈ escapeArgument arg) :
    ch = charBackslash ∨ ch = charQuote ∨ ch ∈ arg := by
  rcases eq_or_ne arg [] with rfl | nonempty
  · simp [escapeArgument] at mem
    exact Or.inr (Or.inl mem)
  · rw [escapeArgument_eq arg nonempty] at mem
    have inside : ch ∈ (escapeCharacters 0 arg).1 → ch = charBackslash ∨ ch ∈ arg :=
      mem_of_mem_escapeCharacters
    split_ifs at mem
    · simp at mem
      tauto
    · tauto

/-- A client command line whose tokens hold no null character holds none. -/
theorem zero_notMem_joinArguments {args : List Token} (noNull : ∀ arg ∈ args, (0 : WChar) ∉ arg) :
    (0 : WChar) ∉ joinArguments args := by
  induction args with
  | nil => simp [joinArguments]
  | cons arg args ih =>
      have tail := ih fun arg mem => noNull arg (List.mem_cons_of_mem _ mem)
      rw [joinArguments_cons]
      intro mem
      rcases List.mem_append.mp mem with mem | mem
      · rcases mem_of_mem_escapeArgument mem with mem | mem | mem
        · revert mem
          decide
        · revert mem
          decide
        · exact noNull arg (by simp) mem
      · unfold joinRest at mem
        split_ifs at mem
        · simp at mem
        · rcases List.mem_cons.mp mem with mem | mem
          · revert mem
            decide
          · exact tail mem

/-- A line without null characters is read to its end. -/
theorem splitCommandLine_of_notMem (environment : Environment) {line : List WChar}
    (noNull : (0 : WChar) ∉ line) (nonempty : line ≠ []) :
    splitCommandLine environment line =
      (programName line).1 :: arguments none 0 false (programName line).2 := by
  have whole : line.takeWhile (· ≠ 0) = line := by
    apply List.takeWhile_eq_self_iff.mpr
    intro ch mem
    simp only [ne_eq, decide_not, Bool.not_eq_eq_eq_not, Bool.not_true, decide_eq_false_iff_not]
    rintro rfl
    exact noNull mem
  simp only [splitCommandLine, whole, nonempty, if_false]

/-- **The tokens of a client are read back exactly when the first is, as a program name.** -/
theorem splitCommandLine_joinArguments (environment : Environment) {name : Token}
    {args : List Token} (noNull : ∀ arg ∈ name :: args, (0 : WChar) ∉ arg) :
    splitCommandLine environment (joinArguments (name :: args)) = name :: args ↔
      NameReads name := by
  have nonempty : joinArguments (name :: args) ≠ [] := by
    rw [joinArguments_cons]
    intro empty
    exact escapeArgument_ne_nil name (List.append_eq_nil_iff.mp empty).1
  rw [splitCommandLine_of_notMem environment (zero_notMem_joinArguments noNull) nonempty,
    joinArguments_cons]
  constructor
  · intro same
    exact nameReads_of_programName (List.cons.inj same).1
  · intro reads
    rw [programName_escapeArgument reads, arguments_joinRest]

/-- The tokens of the host and those of the client: the client's follow the first `--`, or begin
with the first token that is no option of the host. -/
def splitTokens : List Token → List Token × List Token
  | [] => ([], [])
  | arg :: args =>
      match hostOption arg with
      | some (.alone _) => ((splitTokens args).map (arg :: ·) id)
      | some (.withValue _) =>
          match args with
          | [] => ([arg], [])
          | value :: args => ((splitTokens args).map (arg :: value :: ·) id)
      | none => ([], if arg = clientCommandlineArg then args else arg :: args)

def hostTokens (args : List Token) : List Token :=
  (splitTokens args).1

def clientTokens (args : List Token) : List Token :=
  (splitTokens args).2

section Boundary

variable {arg : Token}

theorem splitTokens_alone {apply : HostOptions → Except ParseError HostOptions}
    (option : hostOption arg = some (.alone apply)) (args : List Token) :
    splitTokens (arg :: args) = (arg :: (splitTokens args).1, (splitTokens args).2) := by
  conv_lhs => unfold splitTokens
  simp [option, Prod.map]

theorem splitTokens_none (option : hostOption arg = none) (args : List Token) :
    splitTokens (arg :: args) =
      ([], if arg = clientCommandlineArg then args else arg :: args) := by
  conv_lhs => unfold splitTokens
  simp [option]

theorem parseTokens_alone {apply : HostOptions → Except ParseError HostOptions}
    (option : hostOption arg = some (.alone apply)) (options : HostOptions) (args : List Token) :
    parseTokens options (arg :: args) =
      (apply options).bind fun options => parseTokens options args := by
  conv_lhs => unfold parseTokens
  simp only [option]
  cases apply options <;> rfl

theorem parseTokens_withValue {apply : Token → HostOptions → Except ParseError HostOptions}
    (option : hostOption arg = some (.withValue apply)) (options : HostOptions) (value : Token)
    (args : List Token) :
    parseTokens options (arg :: value :: args) =
      (apply value options).bind fun options => parseTokens options args := by
  conv_lhs => unfold parseTokens
  simp only [option]
  cases apply value options <;> rfl

theorem parseTokens_none (option : hostOption arg = none) (options : HostOptions)
    (args : List Token) :
    parseTokens options (arg :: args) =
      .ok (options, joinArguments (clientTokens (arg :: args)), []) := by
  conv_lhs => unfold parseTokens
  simp only [option, clientTokens, splitTokens_none option]
  by_cases separator : arg = clientCommandlineArg <;> simp [separator, setClientCommandLine]

end Boundary

theorem mem_of_mem_clientTokens {args : List Token} {arg : Token} (mem : arg ∈ clientTokens args) :
    arg ∈ args := by
  induction args using splitTokens.induct with
  | case1 => simp [clientTokens, splitTokens] at mem
  | case2 head args apply option ih =>
      simp only [clientTokens, splitTokens_alone option] at ih mem
      exact List.mem_cons_of_mem _ (ih mem)
  | case3 head apply option => simp [clientTokens, splitTokens, option] at mem
  | case4 head apply option value args ih =>
      simp only [clientTokens, splitTokens, option, Prod.map_snd, id_eq] at ih mem
      exact List.mem_cons_of_mem _ (List.mem_cons_of_mem _ (ih mem))
  | case5 head args option =>
      simp only [clientTokens, splitTokens_none option] at mem
      split_ifs at mem
      · exact List.mem_cons_of_mem _ mem
      · exact mem

/-- The options come from the tokens of the host alone, and the client command line from those of
the client alone. -/
theorem parseTokens_eq (options : HostOptions) (args : List Token) :
    parseTokens options args =
      (parseTokens options (hostTokens args)).map fun parsed =>
        (parsed.1, joinArguments (clientTokens args), []) := by
  induction args using splitTokens.induct generalizing options with
  | case1 => simp [hostTokens, clientTokens, splitTokens, parseTokens, Except.map, joinArguments]
  | case2 arg args apply option ih =>
      simp only [hostTokens, clientTokens, splitTokens_alone option,
        parseTokens_alone option] at ih ⊢
      cases apply options with
      | error error => rfl
      | ok options => exact ih options
  | case3 arg apply option =>
      simp [hostTokens, splitTokens, parseTokens, option, Except.map]
  | case4 arg apply option value args ih =>
      simp only [hostTokens, clientTokens, splitTokens, option, Prod.map_fst, Prod.map_snd, id_eq,
        parseTokens_withValue option] at ih ⊢
      cases apply value options with
      | error error => rfl
      | ok options => exact ih options
  | case5 arg args option =>
      rw [parseTokens_none option, hostTokens, splitTokens_none option]
      rfl

/-- The tokens that `parse` takes from a command line. -/
def argumentTokens (environment : Environment) (commandLine : List WChar) : List Token :=
  if commandLine = [] then [] else (splitCommandLine environment commandLine).drop 1

/-- Every list of tokens is given by some command line. -/
theorem argumentTokens_joinRest (environment : Environment) {args : List Token}
    (noNull : ∀ arg ∈ args, (0 : WChar) ∉ arg) :
    argumentTokens environment (wide "openconsole.exe" ++ joinRest args) = args := by
  have named : programName (wide "openconsole.exe" ++ joinRest args) =
      (wide "openconsole.exe", joinRest args) := by
    apply programName_blank
    · decide
    · exact List.all_iff_forall_prop.mp (by decide)
    · exact fun ch mem => isBlank_head_joinRest mem
    · decide
  have rest : (0 : WChar) ∉ joinRest args := by
    unfold joinRest
    split_ifs
    · simp
    · simpa [charSpace] using zero_notMem_joinArguments noNull
  have whole : (0 : WChar) ∉ wide "openconsole.exe" ++ joinRest args := by
    intro mem
    rcases List.mem_append.mp mem with mem | mem
    · revert mem
      decide
    · exact rest mem
  have nonempty : wide "openconsole.exe" ++ joinRest args ≠ [] := by
    intro empty
    exact absurd (List.append_eq_nil_iff.mp empty).1 (by decide)
  rw [argumentTokens, if_neg nonempty, splitCommandLine_of_notMem environment whole nonempty, named]
  exact arguments_joinRest args

/-- No token of a command line holds a null character. -/
theorem zero_notMem_of_mem_argumentTokens {environment : Environment} {commandLine : List WChar}
    {arg : Token} (mem : arg ∈ argumentTokens environment commandLine) : (0 : WChar) ∉ arg := by
  intro null
  unfold argumentTokens at mem
  split_ifs at mem
  · simp at mem
  · simp only [splitCommandLine] at mem
    set text := commandLine.takeWhile (· ≠ 0) with textIs
    have noNull : (0 : WChar) ∉ text := by
      intro mem
      rw [textIs] at mem
      simpa using List.mem_takeWhile_imp mem
    split_ifs at mem
    · simp at mem
    · rcases mem_of_mem_arguments mem null with mem | mem | mem
      · simp at mem
      · revert mem
        decide
      · exact noNull (mem_of_mem_programName mem)

/-- The options before any token is read. -/
def initialOptions (stdIn stdOut : Nat) : HostOptions :=
  { vtInHandle := stdIn, vtOutHandle := stdOut }

/-- What `parse` returns, by the tokens of the host and of the client. -/
theorem parse_eq (environment : Environment) (commandLine : List WChar) (stdIn stdOut : Nat)
    (allocates : commandLine ≠ [] → environment.allocates = true) :
    parse environment commandLine stdIn stdOut =
      (parseTokens (initialOptions stdIn stdOut)
        (hostTokens (argumentTokens environment commandLine))).map fun parsed =>
          { commandLine := commandLine
            clientCommandLine :=
              joinArguments (clientTokens (argumentTokens environment commandLine))
            options := parsed.1 } := by
  rcases eq_or_ne commandLine [] with rfl | nonempty
  · simp [parse, argumentTokens, hostTokens, clientTokens, splitTokens, parseTokens, Except.map,
      joinArguments, initialOptions]
  · simp only [parse, nonempty, if_false, commandLineToArgvW, allocates nonempty, if_true,
      argumentTokens]
    rw [parseTokens_eq, initialOptions]
    cases parseTokens { vtInHandle := stdIn, vtOutHandle := stdOut }
        (hostTokens ((splitCommandLine environment commandLine).drop 1)) with
    | error error => rfl
    | ok parsed => simp [Except.map]

section Parsed

variable {environment : Environment} {commandLine : List WChar} {stdIn stdOut : Nat}
  {result : ConsoleArguments}

theorem allocates_of_parse (parsed : parse environment commandLine stdIn stdOut = .ok result)
    (nonempty : commandLine ≠ []) : environment.allocates = true := by
  by_contra fails
  simp [parse, nonempty, commandLineToArgvW, fails] at parsed

theorem parse_ok (parsed : parse environment commandLine stdIn stdOut = .ok result) :
    (∃ left, parseTokens (initialOptions stdIn stdOut)
        (hostTokens (argumentTokens environment commandLine)) = .ok (result.options, left)) ∧
      result.clientCommandLine =
        joinArguments (clientTokens (argumentTokens environment commandLine)) := by
  rw [parse_eq environment commandLine stdIn stdOut (allocates_of_parse parsed)] at parsed
  cases host : parseTokens (initialOptions stdIn stdOut)
      (hostTokens (argumentTokens environment commandLine)) with
  | error error => simp [host, Except.map] at parsed
  | ok options =>
      simp only [host, Except.map, Except.ok.injEq] at parsed
      subst parsed
      exact ⟨⟨options.2, rfl⟩, rfl⟩

/-- Only the tokens of the host decide the options. -/
theorem parse_of_hostTokens_eq (parsed : parse environment commandLine stdIn stdOut = .ok result)
    {environment' : Environment} {other : List WChar} (allocates : environment'.allocates = true)
    (same : hostTokens (argumentTokens environment' other) =
      hostTokens (argumentTokens environment commandLine)) :
    ∃ result', parse environment' other stdIn stdOut = .ok result' ∧
      result'.options = result.options := by
  rcases (parse_ok parsed).1 with ⟨left, host⟩
  refine ⟨{ commandLine := other
            clientCommandLine := joinArguments (clientTokens (argumentTokens environment' other))
            options := result.options }, ?_, rfl⟩
  rw [parse_eq environment' other stdIn stdOut fun _ => allocates, same, host]
  rfl

/-- The client command line splits into the client's tokens when the first is read back. -/
theorem splitCommandLine_clientCommandLine
    (parsed : parse environment commandLine stdIn stdOut = .ok result) {name : Token}
    {args : List Token}
    (client : clientTokens (argumentTokens environment commandLine) = name :: args) :
    splitCommandLine environment result.clientCommandLine = name :: args ↔ NameReads name := by
  rw [(parse_ok parsed).2, client]
  apply splitCommandLine_joinArguments
  intro arg mem
  rw [← client] at mem
  exact zero_notMem_of_mem_argumentTokens (mem_of_mem_clientTokens mem)

end Parsed

/-- The result of a parse gives the client its own tokens and nothing else: split as a command line
it yields them (without any, it is empty), and no other tokens of a client change an option. -/
structure Reconstructs (environment : Environment) (commandLine : List WChar) (stdIn stdOut : Nat)
    (result : ConsoleArguments) : Prop where
  splits : clientTokens (argumentTokens environment commandLine) ≠ [] →
    splitCommandLine environment result.clientCommandLine =
      clientTokens (argumentTokens environment commandLine)
  empty : clientTokens (argumentTokens environment commandLine) = [] →
    result.clientCommandLine = []
  independent : ∀ (environment' : Environment) (other : List WChar),
    environment'.allocates = true →
    hostTokens (argumentTokens environment' other) =
      hostTokens (argumentTokens environment commandLine) →
    ∃ result', parse environment' other stdIn stdOut = .ok result' ∧
      result'.options = result.options

/-- **Client command lines.** The tokens of the client are read back from its command line exactly
when the first of them, which is read as a program name, holds no quote and does not end in a
backslash where it has to be quoted. -/
theorem reconstructs_iff (environment : Environment) (commandLine : List WChar)
    (stdIn stdOut : Nat) (result : ConsoleArguments)
    (parsed : parse environment commandLine stdIn stdOut = .ok result) :
    Reconstructs environment commandLine stdIn stdOut result ↔
      ∀ name ∈ (clientTokens (argumentTokens environment commandLine)).head?,
        charQuote ∉ name ∧
          (name.any isBlank = true → name.getLast? ≠ some charBackslash) := by
  constructor
  · intro reconstructs name first
    rcases List.head?_eq_some_iff.mp first with ⟨args, client⟩
    have splits := reconstructs.splits (by simp [client])
    rw [client] at splits
    exact (splitCommandLine_clientCommandLine parsed client).mp splits
  · intro reads
    refine ⟨?_, ?_, ?_⟩
    · intro nonempty
      rcases List.exists_cons_of_ne_nil nonempty with ⟨name, args, client⟩
      rw [client] at reads ⊢
      exact (splitCommandLine_clientCommandLine parsed client).mpr (reads name rfl)
    · intro empty
      rw [(parse_ok parsed).2, empty]
      rfl
    · intro environment' other allocates same
      exact parse_of_hostTokens_eq parsed allocates same

/-- A machine on which `CommandLineToArgvW` succeeds. -/
def consoleEnvironment : Environment :=
  { executablePath := wide "C:\\openconsole.exe", allocates := true }

/-- The result of a parse that sets no option. -/
def clientOnly (commandLine clientCommandLine : List WChar) : ConsoleArguments :=
  { commandLine := commandLine
    clientCommandLine := clientCommandLine
    options := initialOptions 0 0 }

theorem reconstructs_iff_echo :
    Reconstructs consoleEnvironment (wide "openconsole.exe -- cmd /c \"echo hello\"") 0 0
        (clientOnly (wide "openconsole.exe -- cmd /c \"echo hello\"")
          (wide "cmd /c \"echo hello\"")) ↔
      ∀ name ∈ some (wide "cmd"), charQuote ∉ name ∧
        (name.any isBlank = true → name.getLast? ≠ some charBackslash) :=
  reconstructs_iff consoleEnvironment (wide "openconsole.exe -- cmd /c \"echo hello\"") 0 0
    (clientOnly (wide "openconsole.exe -- cmd /c \"echo hello\"") (wide "cmd /c \"echo hello\""))
    (by decide)

/-- The client is the one token `C:\Program Files\`; its command line is read with two backslashes
at the end. -/
theorem not_reconstructs_directory :
    parse consoleEnvironment (wide "openconsole.exe -- \"C:\\Program Files\\\\\"") 0 0 =
        .ok (clientOnly (wide "openconsole.exe -- \"C:\\Program Files\\\\\"")
          (wide "\"C:\\Program Files\\\\\"")) ∧
      ¬ Reconstructs consoleEnvironment (wide "openconsole.exe -- \"C:\\Program Files\\\\\"") 0 0
        (clientOnly (wide "openconsole.exe -- \"C:\\Program Files\\\\\"")
          (wide "\"C:\\Program Files\\\\\"")) := by
  refine ⟨by decide, ?_⟩
  intro reconstructs
  have splits := reconstructs.splits (by decide)
  revert splits
  decide

end Cli

end Conhost
