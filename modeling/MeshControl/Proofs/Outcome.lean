/-!
# Computations that may fail

How an answer of a computation was come by: every step of it answered.
-/

namespace MeshControl

variable {ε α β : Type}

/-- A sequence answers if its first part does, and its second after that. -/
theorem exists_of_bind_eq_ok {first : Except ε α} {next : α → Except ε β} {answer : β}
    (ok : first >>= next = .ok answer) :
    ∃ middle, first = .ok middle ∧ next middle = .ok answer := by
  cases first with
  | error fault => cases ok
  | ok middle => exact ⟨middle, rfl, ok⟩

/-- A guard that lets a computation pass. -/
theorem not_of_guard_eq_ok {condition : Prop} [Decidable condition] {fault : ε}
    {next : Unit → Except ε β} {answer : β}
    (ok : (if condition then throw fault >>= next else next ()) = .ok answer) :
    ¬ condition ∧ next () = .ok answer := by
  by_cases holds : condition
  · rw [if_pos holds] at ok
    cases ok
  · rw [if_neg holds] at ok
    exact ⟨holds, ok⟩

end MeshControl
