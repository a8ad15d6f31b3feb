import Conhost.Server.GlobalApi

/-!
# The sizes of lists

The aliases of an executable, the executables with aliases and the commands of a history are
asked for in two requests: one for the number of bytes, and one for the bytes. Both go over the
same entries, and it is shown that they count the same bytes.
-/

namespace Conhost

namespace GlobalApi

/-- The entries of a list one after the other; an entry that cannot be converted has no bytes. -/
def listBytes (entries : List (Option (List Byte))) : List Byte :=
  entries.flatMap fun entry => entry.getD []

section Sums

variable {entries : List (Option (List Byte))} {capacity : Nat}

@[simp]
theorem listBytes_cons (entry : Option (List Byte)) (entries : List (Option (List Byte))) :
    listBytes (entry :: entries) = entry.getD [] ++ listBytes entries := rfl

/-- A size is the size of a list whose entries all can be converted. -/
theorem foldlM_size {start total : Nat}
    (summed : entries.foldlM
      (fun total entry => entry.map fun bytes => total + bytes.length) start = some total) :
    (∀ entry ∈ entries, entry.isSome = true) ∧ total = start + (listBytes entries).length := by
  induction entries generalizing start with
  | nil =>
      cases summed
      exact ⟨nofun, rfl⟩
  | cons entry entries ih =>
      cases entry with
      | none => cases summed
      | some bytes =>
          obtain ⟨converted, counted⟩ := ih summed
          refine ⟨List.forall_mem_cons.mpr ⟨rfl, converted⟩, ?_⟩
          rw [counted, listBytes_cons, List.length_append, Option.getD_some, Nat.add_assoc]

theorem totalBytes_some {total : Nat} (summed : totalBytes entries = some total) :
    (∀ entry ∈ entries, entry.isSome = true) ∧ total = (listBytes entries).length := by
  obtain ⟨converted, counted⟩ := foldlM_size summed
  exact ⟨converted, counted.trans (Nat.zero_add _)⟩

/-- Entries that all can be converted are written if they find room. -/
theorem foldlM_write (converted : ∀ entry ∈ entries, entry.isSome = true) {written : List Byte}
    (room : written.length ≤ capacity) :
    entries.foldlM
        (fun written entry =>
          match entry with
          | none => .error .invalidParameter
          | some bytes =>
              if capacity - written.length < bytes.length then .error .bufferTooSmall
              else .ok (written ++ bytes))
        written =
      if written.length + (listBytes entries).length ≤ capacity then
        Except.ok (ε := Status) (written ++ listBytes entries)
      else .error .bufferTooSmall := by
  induction entries generalizing written with
  | nil =>
      rw [List.foldlM_nil, listBytes, List.flatMap_nil, List.append_nil, List.length_nil,
        Nat.add_zero, if_pos room]
      rfl
  | cons entry entries ih =>
      rw [List.forall_mem_cons] at converted
      obtain ⟨bytes, rfl⟩ := Option.isSome_iff_exists.mp converted.1
      rw [List.foldlM_cons, listBytes_cons, Option.getD_some, List.length_append]
      by_cases short : capacity - written.length < bytes.length
      · rw [if_neg (by omega)]
        simp only [if_pos short]
        rfl
      · simp only [if_neg short]
        refine (ih converted.2 ?_).trans ?_
        · rw [List.length_append]
          omega
        · rw [List.length_append, Nat.add_assoc, List.append_assoc]

theorem dumpEntries_eq (converted : ∀ entry ∈ entries, entry.isSome = true) (capacity : Nat) :
    dumpEntries capacity entries =
      if (listBytes entries).length ≤ capacity then .ok (listBytes entries)
      else .error .bufferTooSmall := by
  have written := @foldlM_write entries capacity converted [] (Nat.zero_le capacity)
  rw [List.length_nil, Nat.zero_add, List.nil_append] at written
  exact written

end Sums

/-- The lists that can be asked for. -/
inductive Listing where
  | aliases
  | aliasExes
  | commandHistory
deriving DecidableEq

namespace Listing

/-- The request for the size of a list; the length in it is an answer. -/
def lengthRequest (unicode : Bool) : Listing → Nat → GlobalApi
  | aliases => .getAliasesLength unicode
  | aliasExes => .getAliasExesLength unicode
  | commandHistory => .getCommandHistoryLength unicode

/-- The request for a list. -/
def dumpRequest (unicode : Bool) : Listing → Nat → GlobalApi
  | aliases => .getAliases unicode
  | aliasExes => .getAliasExes unicode
  | commandHistory => .getCommandHistory unicode

/-- The entries of the list that the input of a request names, or the status the request fails
with. -/
def entries (system : System) (server : ServerState) (unicode : Bool) (input : List Byte) :
    Listing → Except Status (List (Option (List Byte)))
  | aliases => aliasEntries system server unicode input
  | aliasExes => .ok (aliasExeEntries system server unicode)
  | commandHistory =>
      match historyExe system server unicode input with
      | none => .error .invalidParameter
      | some exeName => .ok (historyEntries system server unicode exeName)

/-- The bytes of the list, none if the request fails. -/
def bytes (system : System) (server : ServerState) (unicode : Bool) (input : List Byte)
    (listing : Listing) : List Byte :=
  match listing.entries system server unicode input with
  | .error _ => []
  | .ok entries => listBytes entries

/-- The answers to the two requests for a list of `size` bytes agree. -/
structure Agrees (listing : Listing) (unicode : Bool) (capacity : Nat) (bytes : List Byte)
    (sized dumped : Reply) : Prop where
  size : sized = reply (listing.lengthRequest unicode bytes.length) .success
  fits : bytes.length ≤ capacity →
    dumped = replyWith (listing.dumpRequest unicode bytes.length) bytes
  tooSmall : capacity < bytes.length →
    dumped.status = .bufferTooSmall ∧ dumped.information = 0 ∧ dumped.output = []

variable {system : System} {server : ServerState} {unicode : Bool} {input : List Byte}
  {capacity : Nat}

/-- The requests that clamp the size of a list and the size of its bytes. -/
theorem agrees_of_clamped (listing : Listing) {entries : Except Status (List (Option (List Byte)))}
    (fails : ∀ status, entries = .error status → status ≠ .success)
    (succeeds : (lengthReply (listing.lengthRequest unicode) entries).status = .success)
    {bytes : List Byte} (whole : ∀ list, entries = .ok list → bytes = listBytes list)
    (below : bytes.length < 2 ^ 32) (capacity : Nat) :
    listing.Agrees unicode capacity bytes (lengthReply (listing.lengthRequest unicode) entries)
      (dumpReply (listing.dumpRequest unicode) capacity entries) := by
  have unclamped : clampUlong bytes.length = bytes.length := by
    unfold clampUlong
    omega
  cases entries with
  | error status => exact absurd succeeds (fails status rfl)
  | ok list =>
      obtain rfl := whole list rfl
      cases summed : totalBytes list with
      | none =>
          rw [lengthReply, summed] at succeeds
          cases succeeds
      | some total =>
          obtain ⟨converted, rfl⟩ := totalBytes_some summed
          have written := dumpEntries_eq converted capacity
          refine ⟨?_, fun fits => ?_, fun short => ?_⟩
          · rw [lengthReply, summed]
            simp only [unclamped]
          · rw [if_pos fits] at written
            simp only [dumpReply, Except.bind, written, unclamped]
            rfl
          · rw [if_neg (by omega)] at written
            simp only [dumpReply, Except.bind, written]
            exact ⟨trivial, trivial, trivial⟩

theorem aliasEntries_fails {status : Status}
    (failed : aliasEntries system server unicode input = .error status) : status ≠ .success := by
  unfold aliasEntries at failed
  split at failed
  · cases failed
    nofun
  · split at failed
    · cases failed
      nofun
    · cases failed

/-- The requests for the commands of a history. -/
theorem agrees_commandHistory {asked : Nat}
    (succeeds : (commandHistoryLengthReply system server unicode asked input).status = .success)
    (even : unicode = true → capacity % 2 = 0) (length : Nat) :
    Agrees .commandHistory unicode capacity (bytes system server unicode input .commandHistory)
      (commandHistoryLengthReply system server unicode asked input)
      (commandHistoryReply system server unicode length input capacity) := by
  have aligned : ¬ (unicode = true ∧ capacity % 2 ≠ 0) := fun odd => odd.2 (even odd.1)
  simp only [commandHistoryLengthReply, commandHistoryReply, bytes, entries] at succeeds ⊢
  cases named : historyExe system server unicode input with
  | none =>
      rw [named] at succeeds
      cases succeeds
  | some exeName =>
      simp only [named, if_neg aligned] at succeeds ⊢
      cases summed : totalBytes (historyEntries system server unicode exeName) with
      | none =>
          rw [summed] at succeeds
          cases succeeds
      | some total =>
          rw [summed] at succeeds
          obtain ⟨converted, rfl⟩ := totalBytes_some summed
          have written := dumpEntries_eq converted capacity
          simp only at succeeds ⊢
          split at succeeds
          · cases succeeds
          · rename_i below
            refine ⟨by rw [if_neg below]; rfl, fun fits => ?_, fun short => ?_⟩
            · rw [written, if_pos fits]
              simp only [if_neg below]
              rfl
            · rw [written, if_neg (by omega)]
              exact ⟨rfl, rfl, rfl⟩

/-- If the size of a list can be answered and is less than 4 GiB, the list is returned exactly
if the output buffer has that size, and both requests report it. -/
theorem handle_agrees (listing : Listing) {asked lengthCapacity : Nat}
    (succeeds : (handle system server input lengthCapacity
      (listing.lengthRequest unicode asked)).2.status = .success)
    (below : (listing.bytes system server unicode input).length < 2 ^ 32)
    (even : unicode = true → capacity % 2 = 0) (length : Nat) :
    listing.Agrees unicode capacity (listing.bytes system server unicode input)
      (handle system server input lengthCapacity (listing.lengthRequest unicode asked)).2
      (handle system server input capacity (listing.dumpRequest unicode length)).2 := by
  cases listing with
  | aliases =>
      refine agrees_of_clamped .aliases (fun _ => aliasEntries_fails) succeeds (fun list same => ?_)
        below capacity
      rw [bytes, entries, same]
  | aliasExes =>
      have converts (status : Status)
          (failed : Except.ok (aliasExeEntries system server unicode) = .error status) :
          status ≠ .success := by
        cases failed
      refine agrees_of_clamped .aliasExes converts succeeds (fun list same => ?_) below capacity
      cases same
      rfl
  | commandHistory => exact agrees_commandHistory succeeds even length

/-- A server with one alias. -/
def oneAlias : ServerState :=
  { ServerState.initial .utf8 with
    aliases := (∅ : Aliases).setAlias [wc 'a'] [wc 'b'] [wc 'c'] }

/-- The alias takes eight bytes, and does not fit six. -/
theorem handle_agrees_oneAlias :
    Agrees .aliases true 6 [0x62, 0, 0x3D, 0, 0x63, 0, 0, 0]
      (handle .utf8 oneAlias [0x61, 0] 0 (.getAliasesLength true 0)).2
      (handle .utf8 oneAlias [0x61, 0] 6 (.getAliases true 0)).2 := by
  have succeeds : (handle .utf8 oneAlias [0x61, 0] 0
      (lengthRequest true .aliases 0)).2.status = .success := rfl
  have below : (bytes .utf8 oneAlias true [0x61, 0] .aliases).length < 2 ^ 32 := by decide
  exact handle_agrees .aliases succeeds below (fun _ => rfl) 0

end Listing

end GlobalApi

end Conhost
