import Conhost.Lib.Run
import Mathlib.Data.List.Basic

/-!
# Threads that share a state

A thread takes atomic steps on a state it shares with the other threads; further threads may join at
any time. A proof outline says what holds of the shared state and of each thread at the point it has
come to. If no thread breaks what is said of another one, the outline holds in every run.
-/

namespace Conhost

universe u v w

structure Threads (σ : Type u) (τ : Type v) where
  shared : σ
  threads : List τ

/-- A thread joins, or the thread with an index acts, with a choice of its surroundings. -/
inductive ThreadEvent (τ : Type v) (ε : Type w) where
  | join (thread : τ)
  | act (index : Nat) (choice : ε)

namespace Threads

variable {σ : Type u} {τ : Type v} {ε : Type w}

/-- The steps of threads that act on the shared state, given their index. -/
def step (act : ε → Nat → σ → τ → Option (σ × τ)) (joins : τ → Bool) (system : Threads σ τ) :
    ThreadEvent τ ε → Option (Threads σ τ)
  | .join thread =>
      if joins thread then some { system with threads := system.threads ++ [thread] } else none
  | .act index choice =>
      system.threads[index]?.bind fun thread =>
        (act choice index system.shared thread).map fun after =>
          ⟨after.1, system.threads.set index after.2⟩

variable {act : ε → Nat → σ → τ → Option (σ × τ)} {joins : τ → Bool}

/-- What is said of the shared state, given the number of threads, and of each thread, and that
every step of a thread keeps it. -/
structure Outline (act : ε → Nat → σ → τ → Option (σ × τ)) (joins : τ → Bool) where
  shared : Nat → σ → Prop
  thread : σ → Nat → τ → Prop
  join {count : Nat} {state : σ} {new : τ} (holds : shared count state) (fresh : joins new = true) :
    shared (count + 1) state ∧ thread state count new
  keeps {count index : Nat} {state next : σ} {before after : τ} {choice : ε}
    (holds : shared count state) (within : index < count) (own : thread state index before)
    (acts : act choice index state before = some (next, after)) :
    shared count next ∧ thread next index after
  spares {count index other : Nat} {state next : σ} {before after bystander : τ} {choice : ε}
    (holds : shared count state) (own : thread state index before) (apart : index ≠ other)
    (said : thread state other bystander)
    (acts : act choice index state before = some (next, after)) : thread next other bystander

namespace Outline

/-- The outline holds of a system. -/
structure Holds (outline : Outline act joins) (system : Threads σ τ) : Prop where
  shared : outline.shared system.threads.length system.shared
  thread {index : Nat} {thread : τ} (present : system.threads[index]? = some thread) :
    outline.thread system.shared index thread

theorem Holds.step {outline : Outline act joins} {system next : Threads σ τ}
    (holds : outline.Holds system) {event : ThreadEvent τ ε}
    (steps : system.step act joins event = some next) : outline.Holds next := by
  cases event with
  | join new =>
      simp only [Threads.step, Option.ite_none_right_eq_some] at steps
      rcases steps with ⟨fresh, same⟩
      cases same
      have joined := outline.join holds.shared fresh
      refine ⟨by simpa using joined.1, ?_⟩
      intro index thread present
      by_cases old : index < system.threads.length
      · rw [List.getElem?_append_left old] at present
        exact holds.thread present
      · rw [List.getElem?_append_right (Nat.le_of_not_lt old)] at present
        rcases List.getElem?_eq_some_iff.mp present with ⟨within, same⟩
        have last : index = system.threads.length := by
          simp only [List.length_singleton] at within
          omega
        subst last
        simp only [Nat.sub_self, List.getElem_singleton] at same
        rw [← same]
        exact joined.2
  | act index choice =>
      simp only [Threads.step, Option.bind_eq_some_iff, Option.map_eq_some_iff] at steps
      rcases steps with ⟨before, present, ⟨state, after⟩, acts, same⟩
      cases same
      have own := holds.thread present
      have within : index < system.threads.length := (List.getElem?_eq_some_iff.mp present).1
      have kept := outline.keeps holds.shared within own acts
      refine ⟨by simpa using kept.1, ?_⟩
      intro other thread there
      by_cases apart : index = other
      · subst apart
        rw [List.getElem?_set_self within, Option.some.injEq] at there
        rw [← there]
        exact kept.2
      · rw [List.getElem?_set_ne apart] at there
        exact outline.spares holds.shared own apart (holds.thread there) acts

/-- What an outline says holds in every run. -/
theorem Holds.run {outline : Outline act joins} {start last : Threads σ τ}
    (holds : outline.Holds start)
    (run : Run (fun system => system.step act joins) (fun _ _ => True) start last) :
    outline.Holds last := by
  apply run.invariant holds
  intro system event next holds _ steps
  exact holds.step steps

end Outline

end Threads

end Conhost
