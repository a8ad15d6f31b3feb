import Mathlib.Logic.Relation
import Mathlib.Tactic.Common

/-!
# Requests one after the other

A client sends one request after the other until one is not answered. What it
gets in all are the data of the answers; an answer without data adds nothing.
Two states from which the requests are answered alike give the same data, also
if requests without data are answered in between.
-/

namespace Conhost

universe u v

/-- How a request is answered. -/
inductive Answer (α : Type v) where
  | stops
  | gives (data : List α)
deriving DecidableEq

section Replies

variable {σ : Type u} {α : Type v} (request : σ → σ → Answer α → Prop)

/-- `count` requests that are answered, and one that is not, return the data. -/
inductive CollectsIn : (count : Nat) → σ → List (List α) → Prop where
  | stops {state last : σ} (stops : request state last .stops) : CollectsIn 0 state []
  | quiet {count : Nat} {state next : σ} {data : List (List α)}
      (answer : request state next (.gives [])) (later : CollectsIn count next data) :
      CollectsIn (count + 1) state data
  | gives {count : Nat} {state next : σ} {first : List α} {data : List (List α)}
      (answer : request state next (.gives first)) (some : first ≠ [])
      (later : CollectsIn count next data) : CollectsIn (count + 1) state (first :: data)

/-- The requests return the data. -/
def Collects (state : σ) (data : List (List α)) : Prop :=
  ∃ count, CollectsIn request count state data

/-- A request that is answered without data. -/
def Silently (state next : σ) : Prop := request state next (.gives [])

/-- The requests are answered in one way. -/
def Functional : Prop :=
  ∀ state next next' answer answer', request state next answer →
    request state next' answer' → next = next' ∧ answer = answer'

/-- Every answer to the first state is one to the second, with states related again. -/
def Answers (states : σ → σ → Prop) (first second : σ) : Prop :=
  ∀ next answer, request first next answer →
    ∃ next', request second next' answer ∧ (answer ≠ .stops → states next next')

/-- The requests return the same data from either state. -/
def SameData (first second : σ) : Prop :=
  ∀ data, Collects request first data ↔ Collects request second data

/-- Related states are answered alike, or are known to return the same data. -/
def Bisimulates (states : σ → σ → Prop) : Prop :=
  ∀ first second, states first second →
    (Answers request states first second ∧
      Answers request (fun second first => states first second) second first) ∨
    SameData request first second

variable {request} {states : σ → σ → Prop} {first second state next : σ} {data : List (List α)}

theorem CollectsIn.unique (functional : Functional request) {count count' : Nat}
    {data' : List (List α)} (one : CollectsIn request count state data)
    (other : CollectsIn request count' state data') : data = data' := by
  induction one generalizing count' data' with
  | stops stops =>
      cases other with
      | stops => rfl
      | quiet answer => cases (functional _ _ _ _ _ stops answer).2
      | gives answer => cases (functional _ _ _ _ _ stops answer).2
  | quiet answer _ hypothesis =>
      cases other with
      | stops stops => cases (functional _ _ _ _ _ answer stops).2
      | quiet answer' later =>
          cases (functional _ _ _ _ _ answer answer').1
          exact hypothesis later
      | gives answer' some =>
          cases (functional _ _ _ _ _ answer answer').2
          exact absurd rfl some
  | gives answer some _ hypothesis =>
      cases other with
      | stops stops => cases (functional _ _ _ _ _ answer stops).2
      | quiet answer' =>
          cases (functional _ _ _ _ _ answer answer').2
          exact absurd rfl some
      | gives answer' _ later =>
          rcases functional _ _ _ _ _ answer answer' with ⟨rfl, same⟩
          cases same
          rw [hypothesis later]

/-- The requests return one thing. -/
theorem Collects.unique (functional : Functional request) {data' : List (List α)}
    (one : Collects request state data) (other : Collects request state data') :
    data = data' := by
  rcases one with ⟨count, one⟩
  rcases other with ⟨count', other⟩
  exact one.unique functional other

/-- The first data are those of the first answer that has any. -/
theorem Collects.head (functional : Functional request) {first : List α}
    (gives : request state next (.gives first)) (some : first ≠ [])
    (returns : Collects request state data) :
    ∃ later, data = first :: later ∧ Collects request next later := by
  rcases returns with ⟨count, returns⟩
  cases returns with
  | stops stops => cases (functional _ _ _ _ _ gives stops).2
  | quiet answer =>
      cases (functional _ _ _ _ _ gives answer).2
      exact absurd rfl some
  | gives answer _ later =>
      rcases functional _ _ _ _ _ gives answer with ⟨rfl, same⟩
      cases same
      exact ⟨_, rfl, _, later⟩

theorem Collects.after_silent (functional : Functional request)
    (silent : Silently request state next) (returns : Collects request state data) :
    Collects request next data := by
  rcases returns with ⟨count, returns⟩
  cases returns with
  | stops stops => cases (functional _ _ _ _ _ silent stops).2
  | @quiet count _ next' _ answer later =>
      cases (functional _ _ _ _ _ silent answer).1
      exact ⟨count, later⟩
  | gives answer some =>
      cases (functional _ _ _ _ _ silent answer).2
      exact absurd rfl some

theorem Collects.before_silent (silent : Silently request state next)
    (returns : Collects request next data) : Collects request state data := by
  rcases returns with ⟨count, returns⟩
  exact ⟨count + 1, .quiet silent returns⟩

namespace SameData

theorem refl (state : σ) : SameData request state state := fun _ => Iff.rfl

theorem symm (same : SameData request first second) : SameData request second first :=
  fun data => (same data).symm

theorem trans {third : σ} (one : SameData request first second)
    (other : SameData request second third) : SameData request first third :=
  fun data => (one data).trans (other data)

/-- Requests without data do not change what is returned. -/
theorem of_silent (functional : Functional request) (silent : Silently request state next) :
    SameData request state next :=
  fun _ => ⟨.after_silent functional silent, .before_silent silent⟩

theorem of_silently (functional : Functional request)
    (path : Relation.ReflTransGen (Silently request) state next) :
    SameData request state next := by
  induction path with
  | refl => exact refl state
  | tail _ silent hypothesis => exact hypothesis.trans (of_silent functional silent)

end SameData

theorem Bisimulates.swap (simulates : Bisimulates request states) :
    Bisimulates request fun second first => states first second := by
  intro second first related
  rcases simulates _ _ related with ⟨forth, back⟩ | same
  · exact .inl ⟨back, forth⟩
  · exact .inr same.symm

theorem Bisimulates.returns (simulates : Bisimulates request states)
    (related : states first second) {count : Nat}
    (returns : CollectsIn request count first data) : Collects request second data := by
  induction returns generalizing second with
  | stops stops =>
      rcases simulates _ _ related with ⟨forth, -⟩ | same
      · rcases forth _ _ stops with ⟨last, stops, -⟩
        exact ⟨0, .stops stops⟩
      · exact (same _).mp ⟨0, .stops stops⟩
  | quiet answer later hypothesis =>
      rcases simulates _ _ related with ⟨forth, -⟩ | same
      · rcases forth _ _ answer with ⟨next', answer', related⟩
        rcases hypothesis (related (by simp)) with ⟨more, returns⟩
        exact ⟨more + 1, .quiet answer' returns⟩
      · exact (same _).mp ⟨_, .quiet answer later⟩
  | gives answer some later hypothesis =>
      rcases simulates _ _ related with ⟨forth, -⟩ | same
      · rcases forth _ _ answer with ⟨next', answer', related⟩
        rcases hypothesis (related (by simp)) with ⟨more, returns⟩
        exact ⟨more + 1, .gives answer' some returns⟩
      · exact (same _).mp ⟨_, .gives answer some later⟩

/-- Related states return the same data. -/
theorem Bisimulates.sameData (simulates : Bisimulates request states)
    (related : states first second) : SameData request first second := by
  intro data
  constructor
  · rintro ⟨count, returns⟩
    exact simulates.returns related returns
  · rintro ⟨count, returns⟩
    exact simulates.swap.returns related returns

end Replies

end Conhost
