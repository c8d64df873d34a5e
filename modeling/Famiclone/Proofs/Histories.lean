import Mathlib.Data.List.Basic

/-!
# The last word in a history

Events change a state one after the other, and some of them tell something. A cell of the state that takes
what an event tells, and that no other event changes, holds what was told last.
-/
namespace Famiclone.History

variable {σ ε α : Type} (next : σ → ε → σ) (tells : σ → ε → Option α)

/-- What is told last in a row of events. -/
def last? (s : σ) : List ε → Option α
  | [] => none
  | event :: rest => (last? (next s event) rest).or (tells s event)

variable {next tells}

theorem last?_append (s : σ) (first second : List ε) : last? next tells s (first ++ second) =
    (last? next tells (first.foldl next s) second).or (last? next tells s first) := by
  induction first generalizing s with
  | nil => simp [last?]
  | cons event rest ih => simp [last?, ih, Option.or_assoc]

/-- Something is told last if anything is told at all. -/
theorem last?_isSome_iff {s : σ} {events : List ε} : (last? next tells s events).isSome = true ↔
    ∃ before event after, events = before ++ event :: after ∧
      (tells (before.foldl next s) event).isSome = true := by
  induction events generalizing s with
  | nil => simp [last?]
  | cons event rest ih =>
    rw [last?, Option.isSome_or, Bool.or_eq_true, ih]
    constructor
    · rintro (⟨before, heard, after, rfl, told⟩ | told)
      · exact ⟨event :: before, heard, after, rfl, told⟩
      · exact ⟨[], event, rest, rfl, told⟩
    · rintro ⟨before, heard, after, split, told⟩
      cases before with
      | nil =>
        obtain ⟨rfl, rfl⟩ := List.cons_eq_cons.mp split
        exact .inr told
      | cons first before =>
        obtain ⟨rfl, rfl⟩ := List.cons_eq_cons.mp split
        exact .inl ⟨before, heard, after, rfl, told⟩

/-- A cell that takes what is told holds what was told last. -/
theorem foldl_cell {γ : Type} (cell : σ → γ) (hold : α → γ)
    (takes : ∀ s event, cell (next s event) = ((tells s event).map hold).getD (cell s)) (s : σ)
    (events : List ε) :
    cell (events.foldl next s) = ((last? next tells s events).map hold).getD (cell s) := by
  induction events generalizing s with
  | nil => rfl
  | cons event rest ih =>
    rw [List.foldl_cons, ih, takes, last?]
    cases last? next tells (next s event) rest <;> rfl

end Famiclone.History
