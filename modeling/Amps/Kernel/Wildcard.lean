import Mathlib.Data.List.Infix
import Mathlib.Tactic.Common

/-!
# Patterns with a wildcard

A pattern is a text in which one letter, the star, stands for any text and every other
letter for itself.

* `accepts` — does a text match a pattern?
* `accepts_append_star` — a pattern whose only star is its last letter accepts the
  texts that start with what comes before the star.
-/

namespace Wildcard

variable {α : Type*} [DecidableEq α] {star : α}

/-- Does the text match the pattern? -/
def accepts (star : α) : List α → List α → Bool
  | [], xs => xs.isEmpty
  | p :: ps, xs =>
      if p = star then xs.tails.any (accepts star ps)
      else
        match xs with
        | [] => false
        | x :: xs => p = x && accepts star ps xs

/-- A star alone accepts every text. -/
theorem accepts_star (xs : List α) : accepts star [star] xs = true := by
  have hnil : [] ∈ xs.tails := (List.mem_tails [] xs).2 List.nil_suffix
  simp only [accepts, if_true, List.any_eq_true]
  exact ⟨[], hnil, rfl⟩

/-- **A final star accepts every continuation** of what comes before it. -/
theorem accepts_append_star {stem xs : List α} (h : star ∉ stem) :
    accepts star (stem ++ [star]) xs = true ↔ stem <+: xs := by
  induction stem generalizing xs with
  | nil => simp [accepts_star]
  | cons p stem ih =>
    simp only [List.mem_cons, not_or] at h
    have hp : p ≠ star := fun heq => h.1 heq.symm
    cases xs with
    | nil => simp [accepts, hp]
    | cons x xs => simp [accepts, hp, ih h.2]

end Wildcard
