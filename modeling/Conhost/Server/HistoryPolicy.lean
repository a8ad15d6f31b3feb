import Conhost.Lib.Run
import Conhost.Server.HistoryOwners
import Mathlib.Data.List.GetD

/-!
# Which history a process is given

The pool is kept in the order of last use, by moving an entry to the front when it is used.
Beside the pool, a run keeps the time of the last use of each entry. It is shown that the order
of the list is the order of these times, and with it what the searches of the list come to: a
history is kept for its own application as long as there is room, and gives way to another one
only when nothing emptier is left, the one unused for longest first.
-/

namespace Conhost

namespace CommandHistoryPool

/-- A free entry of the application. -/
def Matches (system : System) (appName : List WChar) (history : CommandHistory) : Prop :=
  history.allocated = false ∧ history.appNameMatches system appName = true

/-- What `allocate_for_process` may do to a pool whose entries were last used at `uses`. -/
inductive Allocates (system : System) (pool : CommandHistoryPool) (uses : List Nat)
    (appName : List WChar) (process : Handle) (maxHistories : Nat) : CommandHistoryPool → Prop where
  /-- A free entry of the application is taken with its commands, the one used last. -/
  | matched {index : Nat} {history : CommandHistory} (found : pool[index]? = some history)
      (fits : Matches system appName history)
      (latest : ∀ (other : Nat) (entry : CommandHistory), pool[other]? = some entry →
        Matches system appName entry → uses.getD other 0 ≤ uses.getD index 0) :
      Allocates system pool uses appName process maxHistories
        (history.assignProcess process :: pool.eraseIdx index)
  /-- A new entry is made. -/
  | created {history : CommandHistory}
      (unmatched : ∀ entry ∈ pool, ¬ Matches system appName entry)
      (room : pool.length < maxHistories) (owned : ownedBy process history = true)
      (empty : history.commands = []) :
      Allocates system pool uses appName process maxHistories (history :: pool)
  /-- There is no memory for a new entry. -/
  | uncreated (unmatched : ∀ entry ∈ pool, ¬ Matches system appName entry)
      (room : pool.length < maxHistories) :
      Allocates system pool uses appName process maxHistories pool
  /-- All entries are allocated. -/
  | refused (full : maxHistories ≤ pool.length)
      (taken : ∀ entry ∈ pool, entry.allocated = true) :
      Allocates system pool uses appName process maxHistories pool
  /-- A free entry is cleared for another application. If it holds commands, no free entry is
  empty and none has been unused for longer. It stays free if there is no memory for the name. -/
  | evicted {index : Nat} {history : CommandHistory} {after : CommandHistoryPool}
      (unmatched : ∀ entry ∈ pool, ¬ Matches system appName entry)
      (full : maxHistories ≤ pool.length) (found : pool[index]? = some history)
      (free : history.allocated = false)
      (worst : history.commands ≠ [] → ∀ (other : Nat) (entry : CommandHistory),
        pool[other]? = some entry → entry.allocated = false →
          entry.commands ≠ [] ∧ uses.getD index 0 ≤ uses.getD other 0)
      (cleared : after = { history.clearCommands with appName := appName }.assignProcess process ::
          pool.eraseIdx index ∨
        after = pool.set index { history.clearCommands with appName := [] }) :
      Allocates system pool uses appName process maxHistories after

/-- The entry that `allocate_for_process` would reuse, with its place. -/
def reusable (pool : CommandHistoryPool) : Option (CommandHistory × Nat) :=
  pool.zipIdx.foldl preferred none

theorem reusable_concat (pool : CommandHistoryPool) (history : CommandHistory) :
    reusable (pool ++ [history]) = preferred (reusable pool) (history, pool.length) := by
  rw [reusable, reusable, List.zipIdx_append, List.foldl_append, Nat.zero_add]
  rfl

variable {pool : CommandHistoryPool} {history : CommandHistory} {index : Nat}

/-- What becomes of the choice at one more entry. -/
theorem preferred_cases (best : Option (CommandHistory × Nat)) (entry : CommandHistory × Nat) :
    (entry.1.allocated = true ∧ preferred best entry = best) ∨
      (entry.1.allocated = false ∧ preferred best entry = some entry ∧
        ∀ chosen, best = some chosen → entry.1.commands = [] ∨ chosen.1.commands ≠ []) ∨
      ∃ chosen, best = some chosen ∧ entry.1.allocated = false ∧ chosen.1.commands = [] ∧
        preferred best entry = best := by
  cases taken : entry.1.allocated with
  | true => exact .inl ⟨rfl, by simp only [preferred, taken, if_true]⟩
  | false =>
      right
      cases best with
      | none =>
          refine .inl ⟨rfl, by simp [preferred, taken], ?_⟩
          intro chosen impossible
          cases impossible
      | some chosen =>
          by_cases better : entry.1.commands = [] ∨ chosen.1.commands ≠ []
          · refine .inl ⟨rfl, ?_, ?_⟩
            · simp [preferred, taken, better]
            · rintro _ ⟨⟩
              exact better
          · push Not at better
            exact .inr ⟨chosen, rfl, rfl, better.2, by simp [preferred, taken, better]⟩

theorem allocated_of_reusable_none (none : reusable pool = none) :
    ∀ entry ∈ pool, entry.allocated = true := by
  induction pool using List.reverseRecOn with
  | nil => simp
  | append_singleton earlier last ih =>
      rw [reusable_concat] at none
      intro entry member
      rcases preferred_cases (reusable earlier) (last, earlier.length) with
        ⟨taken, same⟩ | ⟨-, found, -⟩ | ⟨chosen, found, -, -, same⟩
      · rw [same] at none
        rw [List.mem_append, List.mem_singleton] at member
        rcases member with member | rfl
        · exact ih none entry member
        · exact taken
      · rw [found] at none
        cases none
      · rw [same, found] at none
        cases none

/-- The entry chosen is free, and one with commands is chosen only if all free entries have
commands and none of them comes later. -/
theorem reusable_some (chosen : reusable pool = some (history, index)) :
    pool[index]? = some history ∧ history.allocated = false ∧
      (history.commands ≠ [] → ∀ (other : Nat) (entry : CommandHistory),
        pool[other]? = some entry → entry.allocated = false →
          entry.commands ≠ [] ∧ other ≤ index) := by
  induction pool using List.reverseRecOn generalizing history index with
  | nil => cases chosen
  | append_singleton earlier last ih =>
      rw [reusable_concat] at chosen
      have split (other : Nat) (entry : CommandHistory)
          (found : (earlier ++ [last])[other]? = some entry) :
          earlier[other]? = some entry ∨ other = earlier.length ∧ entry = last := by
        by_cases before : other < earlier.length
        · rw [List.getElem?_append_left before] at found
          exact .inl found
        · have inside := (List.getElem?_eq_some_iff.mp found).1
          rw [List.length_append, List.length_singleton] at inside
          have place : other = earlier.length := by omega
          rw [place, List.getElem?_concat_length, Option.some.injEq] at found
          exact .inr ⟨place, found.symm⟩
      have kept {other : Nat} {entry : CommandHistory} (found : earlier[other]? = some entry) :
          (earlier ++ [last])[other]? = some entry := by
        rw [List.getElem?_append_left (List.getElem?_eq_some_iff.mp found).1, found]
      rcases preferred_cases (reusable earlier) (last, earlier.length) with
        ⟨taken, same⟩ | ⟨free, replaced, better⟩ | ⟨best, found, -, empty, same⟩
      · rw [same] at chosen
        obtain ⟨found, free, worst⟩ := ih chosen
        refine ⟨kept found, free, fun stored other entry place entryFree => ?_⟩
        rcases split other entry place with inside | ⟨-, rfl⟩
        · exact worst stored other entry inside entryFree
        · rw [taken] at entryFree
          cases entryFree
      · rw [replaced] at chosen
        cases chosen
        refine ⟨List.getElem?_concat_length, free, fun stored other entry place entryFree => ?_⟩
        rcases split other entry place with inside | ⟨rfl, rfl⟩
        · have before := (List.getElem?_eq_some_iff.mp inside).1
          cases best : reusable earlier with
          | none =>
              rw [allocated_of_reusable_none best entry (List.mem_of_getElem? inside)] at entryFree
              cases entryFree
          | some chosen =>
              obtain ⟨-, -, worst⟩ := ih best
              have bestStored := (better chosen best).resolve_left stored
              exact ⟨(worst bestStored other entry inside entryFree).1, before.le⟩
        · exact ⟨stored, Nat.le_refl _⟩
      · rw [same] at chosen
        obtain ⟨place, free, -⟩ := ih chosen
        rw [found] at chosen
        cases chosen
        exact ⟨kept place, free, fun stored => absurd empty stored⟩

/-- The calls of the pool that change it. -/
inductive Call where
  | allocateForProcess (failures : HistoryFailures) (appName : List WChar) (process : Handle)
      (maxHistories defaultMaxCommands : Nat)
  | freeForProcess (process : Handle)
  | addForProcess (process : Handle) (command : List WChar) (suppressDuplicates : Bool)
  | expungeByExe (exeName : List WChar)
  | setNumberOfCommandsByExe (exeName : List WChar) (maxCommands : Nat)
  | resizeAll (maxCommands : Nat)

def Call.apply (system : System) (pool : CommandHistoryPool) : Call → CommandHistoryPool
  | allocateForProcess failures appName process maxHistories defaultMaxCommands =>
      pool.tryAllocateForProcess system failures appName process maxHistories defaultMaxCommands
  | freeForProcess process => pool.freeForProcess process
  | addForProcess process command suppressDuplicates =>
      pool.addForProcess process command suppressDuplicates
  | expungeByExe exeName => pool.expungeByExe system exeName
  | setNumberOfCommandsByExe exeName maxCommands =>
      pool.setNumberOfCommandsByExe system exeName maxCommands
  | resizeAll maxCommands => pool.resizeAll maxCommands

/-- Which entry a call uses. -/
inductive Use where
  | none
  | new
  | entry (index : Nat)

/-- A process takes a history or makes one; a change of its limit uses it as well. -/
def Call.use (system : System) (pool : CommandHistoryPool) : Call → Use
  | allocateForProcess failures appName _ maxHistories _ =>
      match pool.findIdx? fun entry =>
        !entry.allocated && entry.appNameMatches system appName with
      | some index => .entry index
      | .none =>
          if pool.length < maxHistories then (if failures.entry then .none else .new)
          else
            match reusable pool with
            | .none => .none
            | some (_, index) => if failures.name then .none else .entry index
  | setNumberOfCommandsByExe exeName _ =>
      match pool.findIdx? (namedBy system exeName) with
      | some index => .entry index
      | .none => .none
  | _ => .none

/-- The times of use, entry by entry, after a use at `time`. -/
def Use.record (time : Nat) (uses : List Nat) : Use → List Nat
  | none => uses
  | new => time :: uses
  | entry index => time :: uses.eraseIdx index

theorem moveToFront_eq (found : pool[index]? = some history)
    (change : CommandHistory → CommandHistory) :
    pool.moveToFront index change = change history :: pool.eraseIdx index := by
  rw [moveToFront, found]

@[simp]
theorem length_updateFirst (found : CommandHistory → Bool)
    (change : CommandHistory → CommandHistory) (pool : CommandHistoryPool) :
    (updateFirst found change pool).length = pool.length := by
  induction pool with
  | nil => rfl
  | cons first later ih =>
      rw [updateFirst]
      split
      · rfl
      · rw [List.length_cons, List.length_cons, ih]

section Allocation

variable {system : System} {appName : List WChar} {maxHistories : Nat}

/-- A full pool without an entry of the application. -/
theorem tryAllocateForProcess_full
    (searched : (pool.findIdx? fun entry =>
      !entry.allocated && entry.appNameMatches system appName) = none)
    (full : ¬ pool.length < maxHistories) (failures : HistoryFailures) (process : Handle)
    (defaultMaxCommands : Nat) :
    pool.tryAllocateForProcess system failures appName process maxHistories defaultMaxCommands =
      match reusable pool with
      | none => pool
      | some (_, index) =>
          if failures.name then
            pool.modify index fun history => { history.clearCommands with appName := [] }
          else
            pool.moveToFront index fun history =>
              { history.clearCommands with appName := appName }.assignProcess process := by
  rw [tryAllocateForProcess, searched]
  exact if_neg full

end Allocation

/-- A use is what the call does to the order of the list. -/
theorem Call.apply_use (system : System) (pool : CommandHistoryPool) (call : Call) :
    match call.use system pool with
    | .none => (call.apply system pool).length = pool.length
    | .new => ∃ history, call.apply system pool = history :: pool
    | .entry index => ∃ history, index < pool.length ∧
        call.apply system pool = history :: pool.eraseIdx index := by
  cases call with
  | allocateForProcess failures appName process maxHistories defaultMaxCommands =>
      simp only [apply, use]
      cases searched : pool.findIdx? fun entry =>
          !entry.allocated && entry.appNameMatches system appName with
      | some index =>
          obtain ⟨inside, -⟩ := List.findIdx?_eq_some_iff_getElem.mp searched
          simp only [tryAllocateForProcess, searched]
          exact ⟨_, inside, moveToFront_eq (List.getElem?_eq_getElem inside) _⟩
      | none =>
          simp only
          by_cases room : pool.length < maxHistories
          · simp only [tryAllocateForProcess, searched, if_pos room]
            cases failures.entry with
            | true => rfl
            | false => exact ⟨_, rfl⟩
          · rw [tryAllocateForProcess_full searched room]
            simp only [if_neg room]
            cases chosen : reusable pool with
            | none => rfl
            | some best =>
                have found := (reusable_some chosen).1
                cases failures.name with
                | true => exact List.length_modify ..
                | false =>
                    exact ⟨_, (List.getElem?_eq_some_iff.mp found).1, moveToFront_eq found _⟩
  | setNumberOfCommandsByExe exeName maxCommands =>
      simp only [apply, CommandHistoryPool.setNumberOfCommandsByExe, use]
      cases searched : pool.findIdx? (namedBy system exeName) with
      | some index =>
          obtain ⟨inside, -⟩ := List.findIdx?_eq_some_iff_getElem.mp searched
          exact ⟨_, inside, moveToFront_eq (List.getElem?_eq_getElem inside) _⟩
      | none => rfl
  | freeForProcess process => exact length_updateFirst ..
  | addForProcess process command suppressDuplicates => exact length_updateFirst ..
  | expungeByExe exeName => exact length_updateFirst ..
  | resizeAll maxCommands => exact List.length_map _

/-- The list is in the order of the times of use, the latest one first. -/
structure Ordered (pool : CommandHistoryPool) (uses : List Nat) (time : Nat) : Prop where
  length : uses.length = pool.length
  descending : uses.Pairwise (· > ·)
  past : ∀ use ∈ uses, use < time

theorem Ordered.le {uses : List Nat} {time first second : Nat} (ordered : Ordered pool uses time)
    (before : first ≤ second) (inside : second < pool.length) :
    uses.getD second 0 ≤ uses.getD first 0 := by
  have length := ordered.length
  rw [List.getD_eq_getElem _ _ (by omega), List.getD_eq_getElem _ _ (by omega)]
  rcases before.lt_or_eq with earlier | rfl
  · exact (List.pairwise_iff_getElem.mp ordered.descending first second _ _ earlier).le
  · exact Nat.le_refl _

theorem Ordered.apply {uses : List Nat} {time : Nat} (ordered : Ordered pool uses time)
    (system : System) (call : Call) :
    Ordered (call.apply system pool) ((call.use system pool).record time uses) (time + 1) := by
  have applied := call.apply_use system pool
  have past : ∀ use ∈ uses, use < time + 1 := fun use member =>
    Nat.lt_succ_of_lt (ordered.past use member)
  cases used : call.use system pool with
  | none =>
      rw [used] at applied
      exact ⟨ordered.length.trans applied.symm, ordered.descending, past⟩
  | new =>
      rw [used] at applied
      obtain ⟨history, applied⟩ := applied
      rw [applied]
      exact ⟨by rw [Use.record, List.length_cons, List.length_cons, ordered.length],
        List.pairwise_cons.mpr ⟨ordered.past, ordered.descending⟩,
        List.forall_mem_cons.mpr ⟨Nat.lt_succ_self time, past⟩⟩
  | entry index =>
      rw [used] at applied
      obtain ⟨history, inside, applied⟩ := applied
      rw [applied]
      have kept := List.eraseIdx_sublist uses index
      have length := ordered.length
      refine ⟨?_, ?_, ?_⟩
      · rw [Use.record, List.length_cons, List.length_cons, List.length_eraseIdx,
          List.length_eraseIdx, length]
      · exact List.pairwise_cons.mpr
          ⟨fun use member => ordered.past use (kept.mem member), ordered.descending.sublist kept⟩
      · exact List.forall_mem_cons.mpr
          ⟨Nat.lt_succ_self time, fun use member => past use (kept.mem member)⟩

/-- What `allocate_for_process` does to a pool that is in order. -/
theorem allocates_tryAllocateForProcess {uses : List Nat} {time : Nat}
    (ordered : Ordered pool uses time) (system : System) (failures : HistoryFailures)
    (appName : List WChar) (process : Handle) (maxHistories defaultMaxCommands : Nat) :
    Allocates system pool uses appName process maxHistories
      (pool.tryAllocateForProcess system failures appName process maxHistories
        defaultMaxCommands) := by
  cases searched : pool.findIdx? fun entry =>
      !entry.allocated && entry.appNameMatches system appName with
  | some index =>
      obtain ⟨inside, fits, first⟩ := List.findIdx?_eq_some_iff_getElem.mp searched
      have found := List.getElem?_eq_getElem inside
      simp only [tryAllocateForProcess, searched]
      rw [moveToFront_eq found]
      refine .matched found (by simpa [Matches] using fits) fun other entry place fitsToo => ?_
      have otherInside := (List.getElem?_eq_some_iff.mp place)
      apply ordered.le ?_ otherInside.1
      by_contra earlier
      apply first other (by omega)
      rw [otherInside.2]
      simpa [Matches] using fitsToo
  | none =>
      have unmatched : ∀ entry ∈ pool, ¬ Matches system appName entry := by
        intro entry member fits
        have misses := List.findIdx?_eq_none_iff.mp searched entry member
        simp [fits.1, fits.2] at misses
      by_cases room : pool.length < maxHistories
      · simp only [tryAllocateForProcess, searched, if_pos room]
        cases failures.entry with
        | true => exact .uncreated unmatched room
        | false =>
            exact .created unmatched room (by simp [ownedBy, CommandHistory.assignProcess])
              (List.take_nil)
      · rw [tryAllocateForProcess_full searched room]
        cases chosen : reusable pool with
        | none => exact .refused (by omega) (allocated_of_reusable_none chosen)
        | some best =>
            obtain ⟨found, free, worst⟩ := reusable_some chosen
            have inside := (List.getElem?_eq_some_iff.mp found).1
            refine .evicted unmatched (by omega) found free ?_ ?_
            · intro stored other entry place entryFree
              obtain ⟨otherStored, before⟩ := worst stored other entry place entryFree
              exact ⟨otherStored, ordered.le before inside⟩
            · cases failures.name with
              | true =>
                  right
                  simp only [if_true]
                  rw [List.modify_eq_set_getElem?, found]
                  rfl
              | false => exact .inl (moveToFront_eq found _)

/-- A pool and the times of use of its entries. -/
structure Recorded where
  pool : CommandHistoryPool := []
  uses : List Nat := []
  time : Nat := 0

def Recorded.step (system : System) (recorded : Recorded) (call : Call) : Option Recorded :=
  some ⟨call.apply system recorded.pool,
    (call.use system recorded.pool).record recorded.time recorded.uses, recorded.time + 1⟩

/-- A process is given a history only while it has none. -/
def Call.Admissible (recorded : Recorded) : Call → Prop
  | allocateForProcess _ _ process _ _ => process ∉ owners recorded.pool
  | _ => True

theorem owners_updateFirst {found : CommandHistory → Bool}
    {change : CommandHistory → CommandHistory}
    (same : ∀ history, (change history).allocated = history.allocated ∧
      (change history).processHandle = history.processHandle) (pool : CommandHistoryPool) :
    owners (updateFirst found change pool) = owners pool := by
  induction pool with
  | nil => rfl
  | cons first later ih =>
      have alone (history : CommandHistory) (rest : CommandHistoryPool) :
          owners (history :: rest) = owners [history] ++ owners rest := by
        rw [owners, owners, owners, ← List.map_append, ← List.filter_append, List.singleton_append]
      have changed : owners [change first] = owners [first] := by
        obtain ⟨allocated, process⟩ := same first
        simp only [owners, List.filter_cons, allocated, List.filter_nil]
        split <;> simp [process]
      rw [updateFirst]
      split
      · rw [alone, changed, ← alone]
      · rw [alone, ih, ← alone]

theorem owners_map {change : CommandHistory → CommandHistory}
    (same : ∀ history, (change history).allocated = history.allocated ∧
      (change history).processHandle = history.processHandle) (pool : CommandHistoryPool) :
    owners (pool.map change) = owners pool := by
  rw [owners, List.filter_map, List.map_map, owners]
  have allocated : (fun history : CommandHistory => history.allocated) ∘ change =
      (fun history => history.allocated) := funext fun history => (same history).1
  rw [allocated]
  exact List.map_congr_left fun history _ => (same history).2

/-- A change of its limit does not give an entry to another process. -/
theorem perm_owners_setNumberOfCommandsByExe (system : System) (pool : CommandHistoryPool)
    (exeName : List WChar) (maxCommands : Nat) :
    (owners (pool.setNumberOfCommandsByExe system exeName maxCommands)).Perm (owners pool) := by
  unfold setNumberOfCommandsByExe
  split
  · exact .refl _
  · rename_i index searched
    obtain ⟨inside, named, -⟩ := List.findIdx?_eq_some_iff_getElem.mp searched
    have found := List.getElem?_eq_getElem inside
    have allocated : pool[index].allocated = true := by
      simp only [namedBy, Bool.and_eq_true] at named
      exact named.1
    have limited : (pool[index].realloc maxCommands).allocated = true := allocated
    have moved : (pool[index] :: pool.eraseIdx index).Perm pool :=
      ((List.erase_getElem inside).cons _).symm.trans
        (List.perm_cons_erase (List.getElem_mem inside)).symm
    rw [moveToFront_eq found, owners_cons_of_allocated limited]
    have owned := (moved.filter (·.allocated)).map (·.processHandle)
    rwa [List.filter_cons_of_pos allocated, List.map_cons] at owned

theorem nodup_owners_apply {system : System} {recorded : Recorded} {call : Call}
    (unique : (owners recorded.pool).Nodup) (admissible : call.Admissible recorded) :
    (owners (call.apply system recorded.pool)).Nodup := by
  cases call with
  | allocateForProcess failures appName process maxHistories defaultMaxCommands =>
      rcases owners_tryAllocateForProcess system recorded.pool failures appName process maxHistories
        defaultMaxCommands with same | added
      · exact same ▸ unique
      · exact added ▸ List.nodup_cons.mpr ⟨admissible, unique⟩
  | freeForProcess process =>
      change (owners (recorded.pool.freeForProcess process)).Nodup
      rw [freeForProcess_eq_map unique, owners_map_released]
      exact unique.filter _
  | addForProcess process command suppressDuplicates =>
      refine (owners_updateFirst (fun history => ?_) recorded.pool).symm ▸ unique
      unfold CommandHistory.add
      split
      · exact ⟨rfl, rfl⟩
      · split <;> exact ⟨rfl, rfl⟩
  | expungeByExe exeName =>
      change (owners (updateFirst (namedBy system exeName) (·.clearCommands) recorded.pool)).Nodup
      rw [owners_updateFirst]
      · exact unique
      · exact fun _ => ⟨rfl, rfl⟩
  | setNumberOfCommandsByExe exeName maxCommands =>
      exact (perm_owners_setNumberOfCommandsByExe ..).nodup_iff.mpr unique
  | resizeAll maxCommands =>
      change (owners (recorded.pool.map (·.realloc maxCommands))).Nodup
      rw [owners_map]
      · exact unique
      · exact fun _ => ⟨rfl, rfl⟩

/-- What holds of a pool throughout a run. -/
structure Recorded.Invariant (recorded : Recorded) : Prop where
  ordered : Ordered recorded.pool recorded.uses recorded.time
  unique : (owners recorded.pool).Nodup

theorem Recorded.Invariant.step {system : System} {recorded next : Recorded} {call : Call}
    (invariant : recorded.Invariant) (admissible : call.Admissible recorded)
    (steps : recorded.step system call = some next) : next.Invariant := by
  cases steps
  exact ⟨invariant.ordered.apply system call, nodup_owners_apply invariant.unique admissible⟩

namespace Allocates

variable {system : System} {uses : List Nat} {appName : List WChar} {process : Handle}
  {maxHistories : Nat} {after : CommandHistoryPool}

/-- Allocated entries are left alone. -/
theorem keeps (allocates : Allocates system pool uses appName process maxHistories after)
    {entry : CommandHistory} (member : entry ∈ pool) (taken : entry.allocated = true) :
    entry ∈ after := by
  obtain ⟨place, stored⟩ := List.mem_iff_getElem?.mp member
  have apart {index : Nat} {history : CommandHistory} (found : pool[index]? = some history)
      (free : history.allocated = false) : place ≠ index := by
    rintro rfl
    rw [stored] at found
    cases found
    rw [taken] at free
    cases free
  have survives {index : Nat} {history : CommandHistory} (found : pool[index]? = some history)
      (free : history.allocated = false) : entry ∈ pool.eraseIdx index :=
    List.mem_eraseIdx_iff_getElem?.mpr ⟨place, apart found free, stored⟩
  cases allocates with
  | matched found fits latest => exact List.mem_cons_of_mem _ (survives found fits.1)
  | created unmatched room owned empty => exact List.mem_cons_of_mem _ member
  | uncreated unmatched room => exact member
  | refused full all => exact member
  | evicted unmatched full found free worst cleared =>
      rcases cleared with rfl | rfl
      · exact List.mem_cons_of_mem _ (survives found free)
      · apply List.mem_iff_getElem?.mpr
        exact ⟨place, (List.getElem?_set_ne (apart found free).symm).trans stored⟩

/-- The pool grows only below the limit of the call. -/
theorem length_le (allocates : Allocates system pool uses appName process maxHistories after) :
    after.length = pool.length ∨ after.length = pool.length + 1 ∧ after.length ≤ maxHistories := by
  cases allocates with
  | matched found fits latest =>
      have inside := (List.getElem?_eq_some_iff.mp found).1
      left
      rw [List.length_cons, List.length_eraseIdx_of_lt inside]
      omega
  | created unmatched room owned empty => exact .inr ⟨rfl, room⟩
  | uncreated unmatched room => exact .inl rfl
  | refused full all => exact .inl rfl
  | evicted unmatched full found free worst cleared =>
      have inside := (List.getElem?_eq_some_iff.mp found).1
      left
      rcases cleared with rfl | rfl
      · rw [List.length_cons, List.length_eraseIdx_of_lt inside]
        omega
      · exact List.length_set

end Allocates

/-- In every run a process has at most one history, and every allocation and every release keeps
to the policy. -/
theorem policy_of_run {system : System} {recorded : Recorded}
    (run : Run (Recorded.step system) (fun recorded call => call.Admissible recorded) {} recorded) :
    (owners recorded.pool).Nodup ∧
    (∀ failures appName process maxHistories defaultMaxCommands,
      process ∉ owners recorded.pool →
        let after := recorded.pool.tryAllocateForProcess system failures appName process
          maxHistories defaultMaxCommands
        Allocates system recorded.pool recorded.uses appName process maxHistories after ∧
          (∀ entry ∈ recorded.pool, entry.allocated = true → entry ∈ after) ∧
          (after.length = recorded.pool.length ∨
            after.length = recorded.pool.length + 1 ∧ after.length ≤ maxHistories)) ∧
    ∀ process, recorded.pool.freeForProcess process = recorded.pool.map (released process) := by
  have invariant : recorded.Invariant := run.invariant ⟨⟨rfl, .nil, nofun⟩, .nil⟩
    fun invariant admissible steps => invariant.step admissible steps
  refine ⟨invariant.unique, ?_, freeForProcess_eq_map invariant.unique⟩
  intro failures appName process maxHistories defaultMaxCommands fresh
  have allocates := allocates_tryAllocateForProcess invariant.ordered system failures appName
    process maxHistories defaultMaxCommands
  exact ⟨allocates, fun entry member taken => allocates.keeps member taken, allocates.length_le⟩

/-- A process has entered a command and left. -/
def usedOnce : List Call :=
  [.allocateForProcess {} [wc 'a'] 1 1 50, .addForProcess 1 [wc 'x'] false, .freeForProcess 1]

def afterUse : Recorded := (Run.after (Recorded.step .utf8) {} usedOnce).getD {}

/-- A second process of the application takes over the history of the first. -/
theorem policy_of_run_afterUse :
    Allocates .utf8 afterUse.pool afterUse.uses [wc 'A'] 2 1
        (afterUse.pool.tryAllocateForProcess .utf8 {} [wc 'A'] 2 1 50) ∧
      (afterUse.pool.tryAllocateForProcess .utf8 {} [wc 'A'] 2 1 50).map (·.commands) =
        [[[wc 'x']]] := by
  have connects : Call.Admissible {} (.allocateForProcess {} [wc 'a'] 1 1 50) := nofun
  have enters (recorded : Recorded) :
      Call.Admissible recorded (.addForProcess 1 [wc 'x'] false) := trivial
  have leaves (recorded : Recorded) : Call.Admissible recorded (.freeForProcess 1) := trivial
  have run : Run (Recorded.step .utf8) (fun recorded call => call.Admissible recorded) {}
      afterUse :=
    ((Run.refl.tail connects rfl).tail (enters _) rfl).tail (leaves _) rfl
  exact ⟨((policy_of_run run).2.1 {} [wc 'A'] 2 1 50 (by decide)).1, by decide⟩

end CommandHistoryPool

end Conhost
