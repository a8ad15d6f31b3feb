import Conhost.Server.History

/-!
# The owners of the command histories

A history that is allocated belongs to one process. The pool hands a free
history to a process that connects, or makes one, and both can fail for want of
memory; what it does to the histories of other processes is nothing.
-/

namespace Conhost

/-- The allocations of `allocate_for_process` that fail: of a name, and of a new entry. -/
structure HistoryFailures where
  name : Bool := false
  entry : Bool := false
deriving DecidableEq

namespace CommandHistoryPool

variable (system : System) (pool : CommandHistoryPool)

/-- `allocate_for_process` with any of its allocations failing. A history without its name is still
assigned if it is new, and left free if it is not. -/
def tryAllocateForProcess (failures : HistoryFailures) (appName : List WChar) (process : Handle)
    (maxHistories defaultMaxCommands : Nat) : CommandHistoryPool :=
  match pool.findIdx? fun entry => !entry.allocated && entry.appNameMatches system appName with
  | some index => pool.moveToFront index (·.assignProcess process)
  | none =>
      if pool.length < maxHistories then
        if failures.entry then pool
        else
          (({ appName := if failures.name then [] else appName } : CommandHistory).realloc
            defaultMaxCommands).assignProcess process :: pool
      else
        match pool.zipIdx.foldl preferred none with
        | none => pool
        | some (_, index) =>
            if failures.name then
              pool.modify index fun history => { history.clearCommands with appName := [] }
            else
              pool.moveToFront index fun history =>
                { history.clearCommands with appName := appName }.assignProcess process

theorem tryAllocateForProcess_none (appName : List WChar) (process : Handle)
    (maxHistories defaultMaxCommands : Nat) :
    pool.tryAllocateForProcess system {} appName process maxHistories defaultMaxCommands =
      pool.allocateForProcess system appName process maxHistories defaultMaxCommands := rfl

/-- The processes that have a history. -/
def owners : List Handle := (pool.filter (·.allocated)).map (·.processHandle)

variable {system pool}

@[simp]
theorem owners_cons_of_allocated {history : CommandHistory} (allocated : history.allocated = true)
    (pool : CommandHistoryPool) :
    owners (history :: pool) = history.processHandle :: owners pool := by
  simp [owners, allocated]

@[simp]
theorem owners_cons_of_free {history : CommandHistory} (free : history.allocated = false)
    (pool : CommandHistoryPool) : owners (history :: pool) = owners pool := by
  simp [owners, free]

theorem mem_owners {process : Handle} :
    process ∈ owners pool ↔ ∃ history ∈ pool, ownedBy process history = true := by
  simp only [owners, List.mem_map, List.mem_filter, ownedBy, Bool.and_eq_true, beq_iff_eq]
  constructor
  · rintro ⟨history, ⟨member, allocated⟩, owns⟩
    exact ⟨history, member, allocated, owns⟩
  · rintro ⟨history, member, allocated, owns⟩
    exact ⟨history, ⟨member, allocated⟩, owns⟩

/-- A free entry does not count. -/
theorem owners_eraseIdx {index : Nat} {history : CommandHistory}
    (found : pool[index]? = some history)
    (free : history.allocated = false) : owners (pool.eraseIdx index) = owners pool := by
  induction pool generalizing index with
  | nil => cases found
  | cons first later hypothesis =>
      cases index with
      | zero =>
          cases found
          rw [List.eraseIdx_cons_zero, owners_cons_of_free free]
      | succ index =>
          rw [List.eraseIdx_cons_succ]
          cases allocated : first.allocated with
          | true =>
              rw [owners_cons_of_allocated allocated, owners_cons_of_allocated allocated,
                hypothesis found]
          | false =>
              rw [owners_cons_of_free allocated, owners_cons_of_free allocated, hypothesis found]

/-- A free entry that is taken by a process. -/
theorem owners_moveToFront {index : Nat} {history : CommandHistory} {process : Handle}
    {change : CommandHistory → CommandHistory} (found : pool[index]? = some history)
    (free : history.allocated = false)
    (taken : ownedBy process (change history) = true) :
    owners (pool.moveToFront index change) = process :: owners pool := by
  simp only [ownedBy, Bool.and_eq_true, beq_iff_eq] at taken
  simp only [moveToFront, found]
  rw [owners_cons_of_allocated taken.1, taken.2, owners_eraseIdx found free]

theorem owners_modify {index : Nat} {change : CommandHistory → CommandHistory}
    (same : ∀ history, (change history).allocated = history.allocated ∧
      (change history).processHandle = history.processHandle) :
    owners (pool.modify index change) = owners pool := by
  induction pool generalizing index with
  | nil => simp
  | cons first later hypothesis =>
      cases index with
      | zero =>
          obtain ⟨allocated, process⟩ := same first
          simp only [List.modify_zero_cons, owners, List.filter_cons, allocated]
          split <;> simp [process]
      | succ index =>
          simp only [List.modify_succ_cons]
          cases allocated : first.allocated with
          | true =>
              rw [owners_cons_of_allocated allocated,
                owners_cons_of_allocated allocated, hypothesis]
          | false =>
              rw [owners_cons_of_free allocated, owners_cons_of_free allocated, hypothesis]

/-- The entry that is reused is free. -/
theorem preferred_free {entries : List (CommandHistory × Nat)}
    {best : Option (CommandHistory × Nat)}
    {chosen : CommandHistory × Nat} (found : entries.foldl preferred best = some chosen)
    (start : ∀ entry, best = some entry → entry.1.allocated = false) :
    (chosen ∈ entries ∨ best = some chosen) ∧ chosen.1.allocated = false := by
  induction entries generalizing best with
  | nil => exact ⟨.inr found, start chosen found⟩
  | cons entry later hypothesis =>
      rw [List.foldl_cons] at found
      have next : ∀ other, preferred best entry = some other →
          (other = entry ∧ entry.1.allocated = false) ∨ best = some other := by
        intro other picked
        simp only [preferred] at picked
        split at picked
        · exact .inr picked
        · rename_i free
          split at picked
          · cases picked
            exact .inl ⟨rfl, by simpa using free⟩
          · split at picked
            · cases picked
              exact .inl ⟨rfl, by simpa using free⟩
            · exact .inr picked
      have kept : ∀ other, preferred best entry = some other → other.1.allocated = false := by
        intro other picked
        rcases next other picked with ⟨rfl, free⟩ | old
        · exact free
        · exact start other old
      obtain ⟨place, free⟩ := hypothesis found kept
      refine ⟨?_, free⟩
      rcases place with member | picked
      · exact .inl (List.mem_cons_of_mem _ member)
      · rcases next chosen picked with ⟨rfl, -⟩ | old
        · exact .inl List.mem_cons_self
        · exact .inr old

/-- A process that connects is given a history, or none; the other owners stay. -/
theorem owners_tryAllocateForProcess (system : System) (pool : CommandHistoryPool)
    (failures : HistoryFailures) (appName : List WChar) (process : Handle)
    (maxHistories defaultMaxCommands : Nat) :
    owners (pool.tryAllocateForProcess system failures appName process maxHistories
        defaultMaxCommands) = owners pool ∨
      owners (pool.tryAllocateForProcess system failures appName process maxHistories
        defaultMaxCommands) = process :: owners pool := by
  simp only [tryAllocateForProcess]
  split
  · rename_i index found
    obtain ⟨inside, matching, -⟩ := List.findIdx?_eq_some_iff_getElem.mp found
    simp only [Bool.and_eq_true, Bool.not_eq_true'] at matching
    right
    exact owners_moveToFront (List.getElem?_eq_getElem inside) matching.1
      (by simp [ownedBy, CommandHistory.assignProcess])
  · split
    · split
      · exact .inl rfl
      · right
        rw [owners_cons_of_allocated rfl]
        rfl
    · split
      · exact .inl rfl
      · rename_i history index found
        obtain ⟨place, free⟩ := preferred_free found (by rintro _ ⟨⟩)
        have member : pool[index]? = some history := by
          rcases place with member | none
          · exact List.mk_mem_zipIdx_iff_getElem?.mp member
          · cases none
        split
        · exact .inl (owners_modify fun _ => ⟨rfl, rfl⟩)
        · right
          exact owners_moveToFront member free (by simp [ownedBy, CommandHistory.assignProcess])

/-- The history of a process is given back. -/
def released (process : Handle) (history : CommandHistory) : CommandHistory :=
  if ownedBy process history then history.releaseProcess else history

theorem map_released_of_notMem {process : Handle} (absent : process ∉ owners pool) :
    pool.map (released process) = pool := by
  have kept : ∀ history ∈ pool, released process history = id history := by
    intro history member
    simp only [released]
    split
    · rename_i owns
      exact absurd (mem_owners.mpr ⟨history, member, owns⟩) absent
    · rfl
  rw [List.map_congr_left kept, List.map_id]

/-- A process has at most one history, so all of its histories are freed, and no other is
touched. -/
theorem freeForProcess_eq_map (unique : (owners pool).Nodup) (process : Handle) :
    pool.freeForProcess process = pool.map (released process) := by
  induction pool with
  | nil => rfl
  | cons history later hypothesis =>
      simp only [freeForProcess, updateFirst] at hypothesis ⊢
      rw [List.map_cons]
      by_cases owns : ownedBy process history = true
      · have allocated : history.allocated = true := by simp [ownedBy] at owns; exact owns.1
        have same : history.processHandle = process := by simp [ownedBy] at owns; exact owns.2
        rw [owners_cons_of_allocated allocated, same, List.nodup_cons] at unique
        rw [if_pos owns, map_released_of_notMem unique.1]
        simp only [released, if_pos owns]
      · have rest : (owners later).Nodup := by
          cases allocated : history.allocated with
          | true =>
              rw [owners_cons_of_allocated allocated] at unique
              exact (List.nodup_cons.mp unique).2
          | false =>
              rw [owners_cons_of_free allocated] at unique
              exact unique
        rw [if_neg owns, hypothesis rest]
        simp only [released, if_neg owns]

theorem owners_map_released (process : Handle) (pool : CommandHistoryPool) :
    owners (pool.map (released process)) = (owners pool).filter (· ≠ process) := by
  induction pool with
  | nil => rfl
  | cons history later hypothesis =>
      rw [List.map_cons]
      cases allocated : history.allocated with
      | false =>
          have free : (released process history).allocated = false := by
            simp [released, ownedBy, allocated]
          rw [owners_cons_of_free free, owners_cons_of_free allocated, hypothesis]
      | true =>
          rw [owners_cons_of_allocated allocated]
          by_cases same : history.processHandle = process
          · have free : (released process history).allocated = false := by
              simp [released, ownedBy, allocated, same, CommandHistory.releaseProcess]
            rw [owners_cons_of_free free, hypothesis]
            simp [same]
          · have kept : released process history = history := by
              simp [released, ownedBy, same]
            rw [kept, owners_cons_of_allocated allocated, hypothesis]
            simp [same]

end CommandHistoryPool

end Conhost
