import Conhost.Lib.Unicode
import Conhost.Screen.Pieces
import Conhost.Server.Dispatch

/-!
# Encoded output in pieces

`RAW_WRITE` and the ANSI `WriteConsole` decode the bytes of a request by
themselves and write the text they get. A program writes a stream in pieces that
it does not choose by characters; this module settles which cuts of a UTF-8
stream leave the screen of a single request.
-/

namespace Conhost

/-- `MultiByteToWideChar` without flags: each maximal ill-formed part of UTF-8 becomes U+FFFD. -/
def Platform.ReplacesIllFormed (platform : Platform) : Prop :=
  ∀ bytes, platform.multiByteToWideChar cpUtf8 false bytes = utf8ToUtf16 bytes

/-- A request that writes the bytes on an output handle: `RAW_WRITE` or an ANSI `WriteConsole`. -/
structure IoPacket.Writes (object : Handle) (packet : IoPacket) (bytes : List Byte) : Prop where
  object : packet.object = object
  function : packet.function = .rawWrite ∨
    ∃ apiSize numBytes, apiSize.toNat ≤ descriptorLimit ∧
      packet.function = .userDefined apiSize (.writeConsole false numBytes)
  offset : packet.readOffset ≤ packet.input.length
  input : packet.input.drop packet.readOffset = bytes

namespace Console

/-- The console after packets that are all answered. -/
def afterAll (environment : Environment) (fuel : Nat) : Console → List IoPacket → Option Console
  | console, [] => some console
  | console, packet :: packets =>
      match dispatchMessage environment console packet fuel with
      | some (.ok (next, .complete _ _)) => next.afterAll environment fuel packets
      | _ => none

/-- What the screen buffer of a handle shows, with the title. -/
def terminal (console : Console) (object : Handle) : Option Terminal :=
  (console.findScreen object).map fun (_, buffer) =>
    ⟨buffer.toScreenCore, buffer.regs, some console.server.title⟩

/-- The requests leave on the screen buffer of the handle what the single request leaves. -/
def SameScreen (environment : Environment) (console : Console) (object : Handle)
    (packets : List IoPacket) (single : IoPacket) : Prop :=
  ∀ fuel, ∃ left right, console.afterAll environment fuel packets = some left ∧
    console.afterAll environment fuel [single] = some right ∧
    left.terminal object = right.terminal object

end Console

/-- The calls of the device and the host succeed. -/
structure Environment.Succeeds (environment : Environment) : Prop where
  read : environment.readInputFails = false
  write : ∀ before bytes, environment.device.writeFails before bytes = false

theorem HostIo.writeOutputBytes_succeeds {host : HostIo} {environment : Environment}
    (succeeds : environment.Succeeds) (bytes : List Byte) :
    ∃ written, host.writeOutputBytes environment.device bytes = .ok written ∧
      written.hasOutput = host.hasOutput := by
  simp only [HostIo.writeOutputBytes, succeeds.write, Bool.false_eq_true, if_false]
  split
  · exact ⟨_, rfl, rfl⟩
  · exact ⟨_, rfl, rfl⟩

theorem IoPacket.getInputBuffer_eq {packet : IoPacket} {environment : Environment}
    (succeeds : environment.Succeeds) (offset : packet.readOffset ≤ packet.input.length) :
    packet.getInputBuffer environment = .ok (packet.input.drop packet.readOffset) := by
  simp only [IoPacket.getInputBuffer, if_neg (Nat.not_lt.mpr offset), succeeds.read,
    Bool.false_eq_true, if_false]
  split
  · rename_i none
    rw [← none, List.drop_length]
  · rfl

theorem decodeConsoleString_utf8 {platform : Platform} (replaces : platform.ReplacesIllFormed)
    {bytes : List Byte} (small : bytes.length ≤ intMax) :
    decodeConsoleString platform false bytes cpUtf8 = some (utf8ToUtf16 bytes) := by
  simp only [decodeConsoleString, Bool.false_eq_true, if_false, if_neg (Nat.not_lt.mpr small),
    replaces bytes]
  split
  · rename_i none
    rw [none, utf8ToUtf16_eq_nil.mpr rfl]
  · rename_i some
    split
    · rename_i empty
      exact absurd (utf8ToUtf16_eq_nil.mp empty) some
    · rfl

theorem decodeConsoleString_large {platform : Platform} {bytes : List Byte} {codePage : CodePage}
    (large : intMax < bytes.length) :
    decodeConsoleString platform false bytes codePage = none := by
  have some : bytes ≠ [] := by
    rintro rfl
    simp at large
  simp [decodeConsoleString, some, large]

/-- The text that a request with these bytes writes, if it is not refused. -/
def requestTexts (platform : Platform) (bytes : List Byte) : List (List WChar) :=
  (decodeConsoleString platform false bytes cpUtf8).toList

theorem requestTexts_large {platform : Platform} {bytes : List Byte}
    (large : intMax < bytes.length) : requestTexts platform bytes = [] := by
  rw [requestTexts, decodeConsoleString_large large, Option.toList_none]

/-- The text that a request with these bytes writes; a request that is refused writes none. -/
def requestText (platform : Platform) (bytes : List Byte) : List WChar :=
  (decodeConsoleString platform false bytes cpUtf8).getD []

theorem requestText_eq_nil_iff {platform : Platform} (replaces : platform.ReplacesIllFormed)
    (bytes : List Byte) :
    requestText platform bytes = [] ↔ bytes = [] ∨ intMax < bytes.length := by
  by_cases small : bytes.length ≤ intMax
  · have fits : ¬ intMax < bytes.length := by omega
    rw [requestText, decodeConsoleString_utf8 replaces small]
    simp [fits]
  · have large : intMax < bytes.length := by omega
    simp [requestText, decodeConsoleString_large large, large]

theorem requestTexts_of_small {platform : Platform} (replaces : platform.ReplacesIllFormed)
    {bytes : List Byte} (small : bytes.length ≤ intMax) :
    requestTexts platform bytes = [requestText platform bytes] := by
  rw [requestTexts, requestText, decodeConsoleString_utf8 replaces small, Option.toList_some,
    Option.getD_some]

theorem requestTexts_nothing {platform : Platform} (replaces : platform.ReplacesIllFormed)
    {bytes : List Byte} (nothing : bytes = [] ∨ intMax < bytes.length) :
    ∀ text ∈ requestTexts platform bytes, text = [] := by
  intro text mem
  rw [requestTexts, Option.mem_toList] at mem
  have whole : requestText platform bytes = [] :=
    (requestText_eq_nil_iff replaces bytes).mpr nothing
  rwa [requestText, mem] at whole

/-- The handle shows the result of the calls so far. -/
structure Console.Shows (object : Handle) (index : Nat) (mode : OutputMode) (hasOutput : Bool)
    (console : Console) (result : OutputResult) : Prop where
  found : console.findScreen object = some (index, result.buffer)
  title : result.title = some console.server.title
  mode : console.server.outputMode = mode
  codePage : console.server.outputCodePage = cpUtf8
  host : console.host.hasOutput = hasOutput

namespace Console.Shows

variable {environment : Environment} {object : Handle} {index : Nat} {mode : OutputMode}
  {hasOutput : Bool} {console : Console} {result : OutputResult}

theorem withHost (shows : console.Shows object index mode hasOutput result) {host : HostIo}
    (same : host.hasOutput = console.host.hasOutput) :
    Shows object index mode hasOutput { console with host := host } result :=
  ⟨shows.found, shows.title, shows.mode, shows.codePage, same.trans shows.host⟩

theorem showText (shows : console.Shows object index mode hasOutput result)
    (text : List WChar) :
    (console.showText index result.buffer text).Shows object index mode hasOutput
      (applyCalls mode (!hasOutput) result [text]) := by
  have shown := applyTextToScreenBuffer_title result.buffer text mode result.title (!hasOutput)
  have found := shows.found
  simp only [Console.findScreen, Option.bind_eq_some_iff, Option.map_eq_some_iff,
    Prod.mk.injEq] at found
  obtain ⟨handle, open', place, screen, buffer, stored, rfl, same⟩ := found
  have inside : place < console.server.screenBuffers.length :=
    (List.getElem?_eq_some_iff.mp stored).1
  refine ⟨?_, ?_, shows.mode, shows.codePage, shows.host⟩
  · simp only [Console.findScreen, Option.bind_eq_some_iff, Option.map_eq_some_iff,
      Prod.mk.injEq]
    refine ⟨handle, open', place, screen, _, ?_, rfl, rfl⟩
    simp only [Console.showText, ServerState.screenBuffer, ServerState.setScreenBuffer,
      List.getElem?_set_self inside, applyCalls, List.foldl_cons, List.foldl_nil, shows.mode,
      shows.host, shows.title]
  · rw [shows.title] at shown
    obtain ⟨title, some⟩ := Option.isSome_iff_exists.mp shown
    simp only [Console.showText, applyCalls, List.foldl_cons, List.foldl_nil, shows.mode,
      shows.host, shows.title, some, Option.getD_some]

theorem dispatch (shows : console.Shows object index mode hasOutput result)
    (succeeds : environment.Succeeds) {packet : IoPacket} {bytes : List Byte}
    (writes : packet.Writes object bytes) (fuel : Nat) :
    ∃ next reply, dispatchMessage environment console packet fuel =
        some (.ok (next, .complete reply false)) ∧
      next.Shows object index mode hasOutput (applyCalls mode (!hasOutput) result
        (requestTexts environment.system.toPlatform bytes)) := by
  obtain ⟨host, written, sameHost⟩ :=
    console.host.writeOutputBytes_succeeds succeeds bytes
  have buffer := packet.getInputBuffer_eq succeeds writes.offset
  rw [writes.input] at buffer
  rw [requestTexts, ← shows.codePage]
  rcases writes.function with raw | ⟨apiSize, numBytes, fits, api⟩
  · simp only [dispatchMessage, raw, rawWriteRequest, writes.object, shows.found,
      IoPacket.withBuffers, if_true, buffer, Bool.false_eq_true, if_false]
    split
    · rename_i refused
      exact ⟨_, _, rfl, by simpa [refused, applyCalls] using shows⟩
    · rename_i text decoded
      simp only [Console.writeText, written, Console.answer, decoded]
      exact ⟨_, _, rfl, (shows.withHost sameHost).showText text⟩
  · simp only [dispatchMessage, api, if_neg (Nat.not_lt.mpr fits), dispatchApi, writes.object,
      shows.found, IoPacket.withBuffers, if_true, buffer, writeConsoleRequest,
      Bool.false_eq_true, if_false]
    split
    · rename_i refused
      exact ⟨_, _, rfl, by simpa [refused, applyCalls] using shows⟩
    · rename_i text decoded
      simp only [Console.writeText, written, Console.answer, decoded]
      exact ⟨_, _, rfl, (shows.withHost sameHost).showText text⟩

theorem afterAll (shows : console.Shows object index mode hasOutput result)
    (succeeds : environment.Succeeds) {packets : List IoPacket} {pieces : List (List Byte)}
    (writes : List.Forall₂ (IoPacket.Writes object) packets pieces) (fuel : Nat) :
    ∃ next, console.afterAll environment fuel packets = some next ∧
      next.Shows object index mode hasOutput (applyCalls mode (!hasOutput) result
        (pieces.flatMap (requestTexts environment.system.toPlatform))) := by
  induction writes generalizing console result with
  | nil => exact ⟨console, rfl, shows⟩
  | cons here later ih =>
      obtain ⟨next, reply, dispatched, shown⟩ := shows.dispatch succeeds here fuel
      obtain ⟨final, run, final'⟩ := ih shown
      refine ⟨final, ?_, ?_⟩
      · rw [Console.afterAll, dispatched]
        exact run
      · rwa [List.flatMap_cons, applyCalls_append]

end Console.Shows

theorem Console.Shows.terminal {object : Handle} {index : Nat} {mode : OutputMode}
    {hasOutput : Bool} {console : Console} {result : OutputResult}
    (shows : console.Shows object index mode hasOutput result) :
    console.terminal object = some result.terminal := by
  simp only [Console.terminal, shows.found, Option.map_some, OutputResult.terminal, shows.title]

/-- The cuts that do not change the text: the stream fits a single request and no character is
cut, or nothing is written at all. -/
def CutsNothing (pieces : List (List Byte)) : Prop :=
  pieces.flatten.length ≤ intMax ∧ (∀ piece ∈ pieces, utf8Code.WellFormed piece) ∨
    ∀ piece ∈ pieces, piece = [] ∨ intMax < piece.length

theorem length_le_flatten {piece : List Byte} {pieces : List (List Byte)}
    (mem : piece ∈ pieces) : piece.length ≤ pieces.flatten.length :=
  (List.sublist_flatten_of_mem mem).length_le

/-- In a stream that fits a single request no character is cut. -/
theorem CutsNothing.uncut {pieces : List (List Byte)} (cuts : CutsNothing pieces)
    (small : pieces.flatten.length ≤ intMax) : ∀ piece ∈ pieces, utf8Code.WellFormed piece := by
  intro piece mem
  rcases cuts with ⟨-, uncut⟩ | nothing
  · exact uncut piece mem
  · have fits := (length_le_flatten mem).trans small
    rcases nothing piece mem with rfl | large
    · exact ⟨[], rfl⟩
    · omega

/-- A stream that does not fit a single request is cut into requests that write nothing. -/
theorem CutsNothing.nothing {pieces : List (List Byte)} (cuts : CutsNothing pieces)
    (large : intMax < pieces.flatten.length) :
    ∀ piece ∈ pieces, piece = [] ∨ intMax < piece.length := by
  rcases cuts with ⟨small, -⟩ | nothing
  · omega
  · exact nothing

theorem requestText_pieces_iff {platform : Platform} (replaces : platform.ReplacesIllFormed)
    {pieces : List (List Byte)} (valid : utf8Code.WellFormed pieces.flatten) :
    pieces.flatMap (requestText platform) = requestText platform pieces.flatten ↔
      CutsNothing pieces := by
  by_cases small : pieces.flatten.length ≤ intMax
  · have texts : pieces.flatMap (requestText platform) = pieces.flatMap utf8ToUtf16 := by
      apply List.flatMap_congr
      intro piece mem
      rw [requestText, decodeConsoleString_utf8 replaces ((length_le_flatten mem).trans small)]
      rfl
    have whole : requestText platform pieces.flatten = utf8ToUtf16 pieces.flatten := by
      rw [requestText, decodeConsoleString_utf8 replaces small]
      rfl
    rw [texts, whole, flatMap_utf8ToUtf16_eq_iff valid]
    exact ⟨fun uncut => .inl ⟨small, uncut⟩, fun cuts => cuts.uncut small⟩
  · have large : intMax < pieces.flatten.length := by omega
    rw [(requestText_eq_nil_iff replaces _).mpr (.inr large), List.flatMap_eq_nil_iff]
    simp only [requestText_eq_nil_iff replaces]
    exact ⟨.inr, fun cuts => cuts.nothing large⟩

/-- Requests that cut nothing draw what a single request draws. -/
theorem applyCalls_requestTexts {platform : Platform} (replaces : platform.ReplacesIllFormed)
    {pieces : List (List Byte)} (valid : utf8Code.WellFormed pieces.flatten) (some : pieces ≠ [])
    (cuts : CutsNothing pieces) {mode : OutputMode} {answerQueries : Bool} {start : OutputResult}
    (coherent : mode.vtProcessing = true →
      CoherentCalls mode answerQueries start (pieces.map (requestText platform)) ∧
        CoherentCalls mode answerQueries start [(pieces.map (requestText platform)).flatten])
    (refused : mode.vtProcessing = false →
      pieces.flatten.length ≤ intMax ∨ ∀ piece ∈ pieces, piece ≠ []) :
    (applyCalls mode answerQueries start (pieces.flatMap (requestTexts platform))).terminal =
      (applyCalls mode answerQueries start (requestTexts platform pieces.flatten)).terminal := by
  by_cases small : pieces.flatten.length ≤ intMax
  · have texts : pieces.flatMap (requestTexts platform) = pieces.map (requestText platform) := by
      rw [← List.flatMap_singleton' (pieces.map _), List.flatMap_map]
      apply List.flatMap_congr
      intro piece mem
      exact requestTexts_of_small replaces ((length_le_flatten mem).trans small)
    have written : pieces.map (requestText platform) ≠ [] := by
      simpa using some
    rw [texts, requestTexts_of_small replaces small,
      ← (requestText_pieces_iff replaces valid).mpr cuts, List.flatMap_def]
    exact applyCalls_flatten written coherent
  · have large : intMax < pieces.flatten.length := by omega
    have nothing := cuts.nothing large
    rw [requestTexts_large large]
    cases vt : mode.vtProcessing with
    | true =>
        apply applyCalls_terminal_empty vt
        intro text mem
        rcases List.mem_flatMap.mp mem with ⟨piece, member, here⟩
        exact requestTexts_nothing replaces (nothing piece member) text here
    | false =>
        have full := (refused vt).resolve_left small
        have none : pieces.flatMap (requestTexts platform) = [] := by
          rw [List.flatMap_eq_nil_iff]
          intro piece mem
          exact requestTexts_large ((nothing piece mem).resolve_left (full piece mem))
        rw [none]

/-- Which cuts of a UTF-8 stream into requests give the screen buffer the text of a single request;
and after such a cut the requests leave the screen that the single request leaves, as far as the
calls that write the decoded texts are coherent. Where nothing is written because the stream is too
large, a request without bytes among the refused ones still ends an escape sequence if VT sequences
are not processed. -/
theorem encodedOutput_pieces {environment : Environment} (succeeds : environment.Succeeds)
    (replaces : environment.system.ReplacesIllFormed) {pieces : List (List Byte)}
    (valid : utf8Code.WellFormed pieces.flatten) :
    (pieces.flatMap (requestText environment.system.toPlatform) =
        requestText environment.system.toPlatform pieces.flatten ↔ CutsNothing pieces) ∧
      ∀ (console : Console) (object : Handle) (index : Nat) (buffer : ScreenBuffer)
        (packets : List IoPacket) (single : IoPacket),
        console.server.outputCodePage = cpUtf8 →
        console.findScreen object = some (index, buffer) →
        packets ≠ [] → List.Forall₂ (IoPacket.Writes object) packets pieces →
        single.Writes object pieces.flatten → CutsNothing pieces →
        (let mode := console.server.outputMode
          let start : OutputResult := ⟨buffer, some console.server.title, []⟩
          let texts := pieces.map (requestText environment.system.toPlatform)
          (mode.vtProcessing = true → CoherentCalls mode (!console.host.hasOutput) start texts ∧
            CoherentCalls mode (!console.host.hasOutput) start [texts.flatten]) ∧
          (mode.vtProcessing = false →
            pieces.flatten.length ≤ intMax ∨ ∀ piece ∈ pieces, piece ≠ [])) →
        console.SameScreen environment object packets single := by
  refine ⟨requestText_pieces_iff replaces valid, ?_⟩
  intro console object index buffer packets single codePage found written writes whole cuts
    condition fuel
  rcases condition with ⟨coherent, refused⟩
  have shows : console.Shows object index console.server.outputMode console.host.hasOutput
      ⟨buffer, some console.server.title, []⟩ := ⟨found, rfl, rfl, codePage, rfl⟩
  rcases shows.afterAll succeeds writes fuel with ⟨left, leftRun, leftShows⟩
  rcases shows.afterAll succeeds (.cons whole .nil) fuel with ⟨right, rightRun, rightShows⟩
  refine ⟨left, right, leftRun, rightRun, ?_⟩
  have some : pieces ≠ [] := by
    rintro rfl
    cases writes
    exact written rfl
  rw [leftShows.terminal, rightShows.terminal, List.flatMap_singleton,
    applyCalls_requestTexts replaces valid some cuts coherent refused]

/-- UTF-8 conversions that replace maximal ill-formed parts. -/
noncomputable def System.maximalParts : System :=
  { System.utf8 with
    multiByteToWideChar := fun codePage strict bytes =>
      if codePage = cpUtf8 ∧ strict = false then utf8ToUtf16 bytes
      else Platform.utf8.multiByteToWideChar codePage strict bytes }

noncomputable def Environment.maximalParts : Environment where
  system := .maximalParts
  device := ⟨fun _ _ => false⟩
  allocate _ := none

/-- A server with one output handle and a screen of two cells. -/
def oneScreen : Console where
  server :=
    { ServerState.initial .utf8 with
      screenBuffers := [twoCells]
      objects := fun id =>
        if id = 24 then some { kind := .output, screenBuffer := some 0 } else none }

def rawWritePacket (bytes : List Byte) : IoPacket where
  process := 8
  object := 24
  function := .rawWrite
  input := bytes

theorem rawWritePacket_writes (bytes : List Byte) : (rawWritePacket bytes).Writes 24 bytes :=
  ⟨rfl, .inl rfl, Nat.zero_le _, rfl⟩

theorem Environment.maximalParts_succeeds : Environment.maximalParts.Succeeds :=
  ⟨rfl, fun _ _ => rfl⟩

theorem System.maximalParts_replaces : System.maximalParts.ReplacesIllFormed := by
  intro bytes
  simp [System.maximalParts]

/-- U+00E9 and its encoding. -/
theorem utf8Code_word_e9 : utf8Code.word (Char.ofNat 0xe9) = [0xc3, 0xa9] := by
  decide

theorem wellFormed_e9 : utf8Code.WellFormed [0xc3, 0xa9] :=
  ⟨[Char.ofNat 0xe9], by simp [utf8Code_word_e9]⟩

/-- Two requests that cut no character. -/
theorem encodedOutput_pieces_uncut :
    oneScreen.SameScreen .maximalParts 24
      [rawWritePacket [0xc3, 0xa9], rawWritePacket [0xc3, 0xa9]]
      (rawWritePacket [0xc3, 0xa9, 0xc3, 0xa9]) := by
  have valid : utf8Code.WellFormed [[0xc3, 0xa9], [0xc3, 0xa9]].flatten :=
    ⟨[Char.ofNat 0xe9, Char.ofNat 0xe9], by simp [utf8Code_word_e9]⟩
  refine (encodedOutput_pieces Environment.maximalParts_succeeds System.maximalParts_replaces
    valid).2 oneScreen 24 0 twoCells _ _ rfl rfl (by simp)
    (.cons (rawWritePacket_writes _) (.cons (rawWritePacket_writes _) .nil))
    (rawWritePacket_writes _) (.inl ⟨by decide, by simpa using wellFormed_e9⟩) ?_
  intro mode start texts
  exact ⟨fun vt => absurd vt (by decide), fun _ => .inl (by decide)⟩

/-- The first byte of a character in one request and the second in the next: two replacement
characters instead of one character. -/
theorem not_sameScreen_cut :
    utf8Code.WellFormed [0xc3, 0xa9] ∧ oneScreen.server.outputCodePage = cpUtf8 ∧
      Environment.maximalParts.Succeeds ∧ System.maximalParts.ReplacesIllFormed ∧
      ¬ oneScreen.SameScreen .maximalParts 24 [rawWritePacket [0xc3], rawWritePacket [0xa9]]
        (rawWritePacket [0xc3, 0xa9]) := by
  refine ⟨wellFormed_e9, rfl, Environment.maximalParts_succeeds, System.maximalParts_replaces, ?_⟩
  have shows : oneScreen.Shows 24 0 ⟨3⟩ true ⟨twoCells, some {}, []⟩ := ⟨rfl, rfl, rfl, rfl, rfl⟩
  have written (bytes : List Byte) (small : bytes.length ≤ intMax) :
      requestTexts System.maximalParts.toPlatform bytes = [utf8ToUtf16 bytes] := by
    rw [requestTexts, decodeConsoleString_utf8 System.maximalParts_replaces small,
      Option.toList_some]
  have first : utf8ToUtf16 [0xc3] = [0xfffd] := by
    have begins : utf8Code.word (Char.ofNat 0xe9) = [0xc3] ++ [0xa9] := utf8Code_word_e9
    rw [utf8ToUtf16, utf8Code.lossy_begin replacementChar begins (by simp) (by simp)]
    decide
  have second : utf8ToUtf16 [0xa9] = [0xfffd] := by
    have inside : 0xa9 ∈ (utf8Code.word (Char.ofNat 0xe9)).tail := by simp [utf8Code_word_e9]
    rw [utf8ToUtf16, utf8Code.lossy_inside replacementChar inside, SymbolCode.lossy_nil]
    decide
  have whole : utf8ToUtf16 [0xc3, 0xa9] = [0xe9] := by
    rw [utf8ToUtf16, ← utf8Code_word_e9, ← List.append_nil (utf8Code.word _),
      SymbolCode.lossy_word_append, SymbolCode.lossy_nil]
    decide
  intro same
  obtain ⟨left, right, leftRun, rightRun, screens⟩ := same 0
  obtain ⟨_, leftRun', leftShows⟩ := shows.afterAll Environment.maximalParts_succeeds
    (.cons (rawWritePacket_writes [0xc3]) (.cons (rawWritePacket_writes [0xa9]) .nil)) 0
  obtain ⟨_, rightRun', rightShows⟩ := shows.afterAll Environment.maximalParts_succeeds
    (.cons (rawWritePacket_writes [0xc3, 0xa9]) .nil) 0
  rw [leftRun, Option.some.injEq] at leftRun'
  rw [rightRun, Option.some.injEq] at rightRun'
  subst leftRun' rightRun'
  have platform : Environment.maximalParts.system = System.maximalParts := rfl
  rw [leftShows.terminal, rightShows.terminal] at screens
  simp only [List.flatMap_cons, List.flatMap_nil, List.append_nil, platform,
    written _ (show ([0xc3] : List Byte).length ≤ intMax by decide),
    written _ (show ([0xa9] : List Byte).length ≤ intMax by decide),
    written _ (show ([0xc3, 0xa9] : List Byte).length ≤ intMax by decide), first, second, whole,
    List.singleton_append] at screens
  exact absurd screens (by decide +kernel)

end Conhost
