import Mathlib.Logic.Relation
import Mathlib.Tactic.Common

/-!
# Loops with a measure

A `for (;;)` loop is given by its body: a function from the loop state to
either the next state or the value the loop is left with. When a measure
decreases with every pass the loop is a total function, and what holds of its
value follows from what one pass does.
-/

namespace Conhost

universe u v

/-- What one pass of a loop body does. -/
inductive Pass (σ : Type u) (ρ : Type v) where
  | next (state : σ)
  | leave (value : ρ)

/-- What a pass ends with is smaller than `bound`. -/
def Pass.Below {σ : Type u} {ρ : Type v} (measure : σ → Nat) (size : ρ → Nat) (bound : Nat) :
    Pass σ ρ → Prop
  | .next state => measure state < bound
  | .leave value => size value < bound

/-- What a pass ends with agrees with `value` in what it is asked for. -/
def Pass.Keeps {σ : Type u} {ρ : Type v} {κ : Type*} (before : σ → κ) (after : ρ → κ) (value : κ) :
    Pass σ ρ → Prop
  | .next state => before state = value
  | .leave result => after result = value

/-- At most `fuel` passes of a loop that may go on forever. -/
def iterate {σ : Type u} {ρ : Type v} (body : σ → Pass σ ρ) : (fuel : Nat) → σ → Option ρ
  | 0, _ => none
  | fuel + 1, state =>
      match body state with
      | .leave value => some value
      | .next next => iterate body fuel next

/-- One pass leads on to another. -/
def Continues {σ : Type u} {ρ : Type v} (body : σ → Pass σ ρ) (state next : σ) : Prop :=
  body state = .next next

/-- A loop is left with a value in the last of the states it passes through. -/
theorem exists_iterate_iff {σ : Type u} {ρ : Type v} {body : σ → Pass σ ρ} {state : σ} {value : ρ} :
    (∃ fuel, iterate body fuel state = some value) ↔
      ∃ last, Relation.ReflTransGen (Continues body) state last ∧ body last = .leave value := by
  constructor
  · rintro ⟨fuel, result⟩
    induction fuel generalizing state with
    | zero => cases result
    | succ fuel hypothesis =>
        rw [iterate] at result
        split at result
        · rename_i left pass
          cases result
          exact ⟨state, .refl, pass⟩
        · rename_i next pass
          obtain ⟨last, path, leaves⟩ := hypothesis result
          exact ⟨last, .head pass path, leaves⟩
  · rintro ⟨last, path, leaves⟩
    induction path using Relation.ReflTransGen.head_induction_on with
    | refl => exact ⟨1, by rw [iterate, leaves]⟩
    | head first _ hypothesis =>
        obtain ⟨fuel, result⟩ := hypothesis
        exact ⟨fuel + 1, by rw [iterate, first]; exact result⟩

/-- What a loop is left with it is left with from every state on its way. -/
theorem iterate_of_path {σ : Type u} {ρ : Type v} {body : σ → Pass σ ρ} {state last : σ}
    {value : ρ} (path : Relation.ReflTransGen (Continues body) state last)
    (leaves : body last = .leave value) {fuel : Nat} {result : ρ}
    (ends : iterate body fuel state = some result) : result = value := by
  induction path using Relation.ReflTransGen.head_induction_on generalizing fuel with
  | refl =>
      cases fuel with
      | zero => cases ends
      | succ fuel =>
          rw [iterate, leaves] at ends
          exact (Option.some.inj ends).symm
  | head first _ hypothesis =>
      cases fuel with
      | zero => cases ends
      | succ fuel =>
          rw [iterate, first] at ends
          exact hypothesis ends

/-- What no pass changes is the same at the end. -/
theorem iterate_unchanged {σ : Type u} {ρ : Type v} {κ : Type*} {body : σ → Pass σ ρ}
    {before : σ → κ} {after : ρ → κ}
    (keeps : ∀ state, (body state).Keeps before after (before state)) {fuel : Nat} {state : σ}
    {value : ρ} (result : iterate body fuel state = some value) : after value = before state := by
  induction fuel generalizing state with
  | zero => cases result
  | succ fuel hypothesis =>
      have kept := keeps state
      rw [iterate] at result
      split at result
      · rename_i left pass
        cases result
        rwa [pass] at kept
      · rename_i next pass
        rw [pass] at kept
        exact (hypothesis result).trans kept

/-- A pass goes on in a state, or ends with a value, of which something holds. -/
def Pass.Meets {σ : Type u} {ρ : Type v} (holds : σ → Prop) (ends : ρ → Prop) : Pass σ ρ → Prop
  | .next state => holds state
  | .leave value => ends value

/-- What every pass keeps holds at the end. -/
theorem iterate_invariant {σ : Type u} {ρ : Type v} {body : σ → Pass σ ρ} {holds : σ → Prop}
    {ends : ρ → Prop} (keeps : ∀ {state}, holds state → (body state).Meets holds ends)
    {fuel : Nat} {state : σ} {value : ρ} (start : holds state)
    (result : iterate body fuel state = some value) : ends value := by
  induction fuel generalizing state with
  | zero => cases result
  | succ fuel hypothesis =>
      have meets := keeps start
      rw [iterate] at result
      split at result
      · rename_i left pass
        cases result
        rwa [pass] at meets
      · rename_i next pass
        rw [pass] at meets
        exact hypothesis meets result

/-- Two passes go on in related states or end with related values. -/
inductive Pass.Related {σ : Type u} {ρ : Type v} (states : σ → σ → Prop) (values : ρ → ρ → Prop) :
    Pass σ ρ → Pass σ ρ → Prop where
  | next {first second : σ} (related : states first second) :
      Related states values (.next first) (.next second)
  | leave {first second : ρ} (related : values first second) :
      Related states values (.leave first) (.leave second)

/-- A loop run from related states ends in both or in neither, and with related values. -/
theorem iterate_related {σ : Type u} {ρ : Type v} {body : σ → Pass σ ρ} {states : σ → σ → Prop}
    {values : ρ → ρ → Prop}
    (keeps : ∀ {first second}, states first second →
      Pass.Related states values (body first) (body second))
    (fuel : Nat) {first second : σ} (related : states first second) :
    Option.Rel values (iterate body fuel first) (iterate body fuel second) := by
  induction fuel generalizing first second with
  | zero => exact .none
  | succ fuel hypothesis =>
      have pass := keeps related
      rw [iterate, iterate]
      generalize body first = one at pass ⊢
      generalize body second = other at pass ⊢
      cases pass with
      | next related => exact hypothesis related
      | leave related => exact .some related

/-- A loop is left with a value, after however many passes. -/
def Ends {σ : Type u} {ρ : Type v} (body : σ → Pass σ ρ) (state : σ) (value : ρ) : Prop :=
  ∃ fuel, iterate body fuel state = some value

namespace Ends

variable {σ : Type u} {ρ : Type v} {body : σ → Pass σ ρ} {state next : σ} {value value' : ρ}

theorem unique (one : Ends body state value) (other : Ends body state value') : value = value' := by
  rcases exists_iterate_iff.mp one with ⟨last, path, leaves⟩
  rcases other with ⟨fuel, ends⟩
  exact (iterate_of_path path leaves ends).symm

theorem of_leave (pass : body state = .leave value) : Ends body state value :=
  ⟨1, by rw [iterate, pass]⟩

theorem leave_iff (pass : body state = .leave value) : Ends body state value' ↔ value' = value := by
  constructor
  · intro ends
    exact ends.unique (of_leave pass)
  · rintro rfl
    exact of_leave pass

theorem next_iff (pass : Continues body state next) :
    Ends body state value ↔ Ends body next value := by
  constructor
  · rintro ⟨fuel, ends⟩
    cases fuel with
    | zero => cases ends
    | succ fuel =>
        rw [iterate, pass] at ends
        exact ⟨fuel, ends⟩
  · rintro ⟨fuel, ends⟩
    exact ⟨fuel + 1, by rw [iterate, pass]; exact ends⟩

theorem path_iff (path : Relation.ReflTransGen (Continues body) state next) :
    Ends body state value ↔ Ends body next value := by
  induction path with
  | refl => rfl
  | tail _ pass hypothesis => exact hypothesis.trans (next_iff pass)

end Ends

/-- From two states a loop is left in both or in neither, and with related values. -/
def EndTogether {σ : Type u} {ρ : Type v} (body : σ → Pass σ ρ) (values : ρ → ρ → Prop)
    (first second : σ) : Prop :=
  (∀ value, Ends body first value → ∃ value', Ends body second value' ∧ values value value') ∧
    ∀ value', Ends body second value' → ∃ value, Ends body first value ∧ values value value'

namespace EndTogether

variable {σ : Type u} {ρ : Type v} {body : σ → Pass σ ρ} {values : ρ → ρ → Prop}
  {first second first' second' : σ}

theorem refl (reflexive : ∀ value, values value value) (state : σ) :
    EndTogether body values state state :=
  ⟨fun value ends => ⟨value, ends, reflexive value⟩, fun value ends =>
    ⟨value, ends, reflexive value⟩⟩

theorem of_paths (path : Relation.ReflTransGen (Continues body) first first')
    (path' : Relation.ReflTransGen (Continues body) second second')
    (together : EndTogether body values first' second') :
    EndTogether body values first second := by
  simp only [EndTogether, Ends.path_iff path, Ends.path_iff path']
  exact together

theorem of_leave {value value' : ρ} (pass : body first = .leave value)
    (pass' : body second = .leave value') (related : values value value') :
    EndTogether body values first second := by
  simp only [EndTogether, Ends.leave_iff pass, Ends.leave_iff pass']
  constructor
  · rintro _ rfl
    exact ⟨value', rfl, related⟩
  · rintro _ rfl
    exact ⟨value, rfl, related⟩

/-- States with the same pass. -/
theorem of_eq (reflexive : ∀ value, values value value) (same : body first = body second) :
    EndTogether body values first second := by
  cases pass : body second with
  | next next => exact .of_paths (.single (same.trans pass)) (.single pass) (.refl reflexive next)
  | leave value => exact .of_leave (same.trans pass) pass (reflexive value)

theorem of_related {states : σ → σ → Prop}
    (keeps : ∀ {first second}, states first second →
      Pass.Related states values (body first) (body second)) (related : states first second) :
    EndTogether body values first second := by
  constructor
  · rintro value ⟨fuel, ends⟩
    have both := iterate_related keeps fuel related
    rw [ends] at both
    generalize ended : iterate body fuel second = other at both
    cases both with
    | some alike => exact ⟨_, ⟨fuel, ended⟩, alike⟩
  · rintro value ⟨fuel, ends⟩
    have both := iterate_related keeps fuel related
    rw [ends] at both
    generalize ended : iterate body fuel first = other at both
    cases both with
    | some alike => exact ⟨_, ⟨fuel, ended⟩, alike⟩

end EndTogether

/-- A loop is left after at most `bound` passes. -/
def EndsWithin {σ : Type u} {ρ : Type v} (body : σ → Pass σ ρ) (bound : Nat) (state : σ) : Prop :=
  ∃ passes ≤ bound, ∃ value, iterate body passes state = some value

/-- Every pass that goes on leaves less to do, so the loop ends. -/
structure Terminates {σ : Type u} {ρ : Type v} (body : σ → Pass σ ρ) (measure : σ → Nat)
    (start : σ) : Prop where
  decreases : ∀ {state next}, Relation.ReflTransGen (Continues body) start state →
    Continues body state next → measure next < measure state
  ends : EndsWithin body (measure start + 1) start

theorem Terminates.of_decreases {σ : Type u} {ρ : Type v} {body : σ → Pass σ ρ}
    {measure : σ → Nat} {start : σ}
    (decreases : ∀ {state next}, Relation.ReflTransGen (Continues body) start state →
      Continues body state next → measure next < measure state) :
    Terminates body measure start := by
  refine ⟨decreases, ?_⟩
  induction size : measure start using Nat.strongRecOn generalizing start with
  | ind size' hypothesis =>
      subst size
      cases pass : body start with
      | leave value => exact ⟨1, by omega, value, by rw [iterate, pass]⟩
      | next next =>
          have smaller : measure next < measure start := decreases .refl pass
          obtain ⟨passes, few, value, ends⟩ := hypothesis (measure next) smaller
            (fun path step => decreases (.head pass path) step) rfl
          exact ⟨passes + 1, by omega, value, by rw [iterate, pass]; exact ends⟩

/-- A loop body whose every continuing pass decreases a measure. -/
structure Loop (σ : Type u) (ρ : Type v) where
  body : σ → Pass σ ρ
  measure : σ → Nat
  decreases : ∀ {state next}, body state = .next next → measure next < measure state

namespace Loop

variable {σ : Type u} {ρ : Type v}

/-- At most `fuel` passes, for a measure that `fuel` bounds. -/
def passes (loop : Loop σ ρ) : (fuel : Nat) → (state : σ) → loop.measure state < fuel → ρ
  | fuel + 1, state, bounded =>
      match pass : loop.body state with
      | .leave value => value
      | .next next =>
          loop.passes fuel next (by have smaller := loop.decreases pass; omega)

/-- The value the loop is left with. -/
def run (loop : Loop σ ρ) (state : σ) : ρ :=
  loop.passes (loop.measure state + 1) state (Nat.lt_succ_self _)

theorem passes_eq (loop : Loop σ ρ) (fuel fuel' : Nat) (state : σ)
    (bounded : loop.measure state < fuel) (bounded' : loop.measure state < fuel') :
    loop.passes fuel state bounded = loop.passes fuel' state bounded' := by
  induction fuel generalizing fuel' state with
  | zero => omega
  | succ fuel hypothesis =>
      cases fuel' with
      | zero => omega
      | succ fuel' =>
          unfold passes
          split
          · rfl
          · exact hypothesis _ _ _ _

theorem run_of_leave (loop : Loop σ ρ) {state : σ} {value : ρ}
    (pass : loop.body state = .leave value) : loop.run state = value := by
  unfold run passes
  split
  · rename_i value' pass'
    rw [pass] at pass'
    exact (Pass.leave.inj pass').symm
  · rename_i next pass'
    rw [pass] at pass'
    cases pass'

theorem run_of_next (loop : Loop σ ρ) {state next : σ}
    (pass : loop.body state = .next next) : loop.run state = loop.run next := by
  unfold run
  conv_lhs => unfold passes
  split
  · rename_i value pass'
    rw [pass] at pass'
    cases pass'
  · rename_i next' pass'
    rw [pass] at pass'
    obtain rfl := Pass.next.inj pass'
    exact passes_eq loop _ _ _ _ _

theorem run_of_path (loop : Loop σ ρ) {state last : σ}
    (path : Relation.ReflTransGen (Continues loop.body) state last) :
    loop.run state = loop.run last := by
  induction path using Relation.ReflTransGen.head_induction_on with
  | refl => rfl
  | head first _ hypothesis =>
      rw [loop.run_of_next first]
      exact hypothesis

theorem terminates (loop : Loop σ ρ) (start : σ) : Terminates loop.body loop.measure start :=
  .of_decreases fun _ pass => loop.decreases pass

/-- The rule for loops: a relation between start state and value that holds of
every leaving pass and is carried backwards over every continuing pass. -/
theorem run_induction (loop : Loop σ ρ) {Holds : σ → ρ → Prop}
    (leave : ∀ {state value}, loop.body state = .leave value → Holds state value)
    (next : ∀ {state successor value}, loop.body state = .next successor →
      Holds successor value → Holds state value)
    (state : σ) : Holds state (loop.run state) := by
  induction size : loop.measure state using Nat.strongRecOn generalizing state with
  | ind size' hypothesis =>
      subst size
      cases pass : loop.body state with
      | leave value =>
          rw [loop.run_of_leave pass]
          exact leave pass
      | next successor =>
          rw [loop.run_of_next pass]
          exact next pass (hypothesis _ (loop.decreases pass) successor rfl)

/-- From related states a loop is left with related values. -/
theorem run_related (loop : Loop σ ρ) {states : σ → σ → Prop} {values : ρ → ρ → Prop}
    (keeps : ∀ {first second}, states first second →
      Pass.Related states values (loop.body first) (loop.body second))
    {first second : σ} (related : states first second) :
    values (loop.run first) (loop.run second) := by
  let Holds (first : σ) (value : ρ) : Prop :=
    ∀ second, states first second → values value (loop.run second)
  suffices holds : Holds first (loop.run first) from holds second related
  apply loop.run_induction
  · intro first value pass second related
    have passes := keeps related
    rw [pass] at passes
    generalize other : loop.body second = pass' at passes
    cases passes with
    | leave alike =>
        rw [loop.run_of_leave other]
        exact alike
  · intro first next value pass holds second related
    have passes := keeps related
    rw [pass] at passes
    generalize other : loop.body second = pass' at passes
    cases passes with
    | next alike =>
        rw [loop.run_of_next other]
        exact holds _ alike

/-- What no pass changes is the same at the end. -/
theorem run_unchanged {κ : Type*} (loop : Loop σ ρ) {before : σ → κ} {after : ρ → κ}
    (keeps : ∀ state, (loop.body state).Keeps before after (before state)) (state : σ) :
    after (loop.run state) = before state := by
  let Holds (state : σ) (value : ρ) : Prop := after value = before state
  change Holds state (loop.run state)
  apply loop.run_induction
  · intro state value pass
    have kept := keeps state
    rwa [pass] at kept
  · intro state successor value pass holds
    have kept := keeps state
    rw [pass] at kept
    exact holds.trans kept

/-- A bound that every pass keeps to bounds the value. -/
theorem run_below (loop : Loop σ ρ) {amount : σ → Nat} {size : ρ → Nat} {bound : Nat}
    (keeps : ∀ state, amount state < bound → (loop.body state).Below amount size bound)
    (state : σ) (first : amount state < bound) : size (loop.run state) < bound := by
  let Holds (state : σ) (value : ρ) : Prop := amount state < bound → size value < bound
  suffices holds : Holds state (loop.run state) from holds first
  apply loop.run_induction
  · intro state value pass first
    have kept := keeps state first
    rwa [pass] at kept
  · intro state successor value pass holds first
    have kept := keeps state first
    rw [pass] at kept
    exact holds kept

section Size

variable (loop : Loop σ ρ) (size : ρ → Nat)
  (leave : ∀ {state value}, loop.body state = .leave value → size value ≤ loop.measure state)
include leave

/-- If no leaving pass exceeds the measure, the value does not either. -/
theorem run_le (state : σ) : size (loop.run state) ≤ loop.measure state := by
  let Holds (state : σ) (value : ρ) : Prop := size value ≤ loop.measure state
  change Holds state (loop.run state)
  apply loop.run_induction
  · intro state value pass
    exact leave pass
  · intro state successor value pass holds
    exact Nat.le_trans holds (Nat.le_of_lt (loop.decreases pass))

/-- If the first pass stays below a bound, so does the value. -/
theorem run_lt {state : σ} {bound : Nat}
    (first : (loop.body state).Below loop.measure size bound) : size (loop.run state) < bound := by
  cases pass : loop.body state with
  | leave value =>
      rw [pass] at first
      rwa [loop.run_of_leave pass]
  | next successor =>
      rw [pass] at first
      rw [loop.run_of_next pass]
      exact Nat.lt_of_le_of_lt (loop.run_le size leave successor) first

end Size

end Loop

end Conhost
