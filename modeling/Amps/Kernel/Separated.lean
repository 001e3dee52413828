import Mathlib

/-!
# Texts joined by a separator

A text made of fields with a separator between them can be taken apart again as
long as the fields before the last separator do not contain it.

* `append_sep_inj` — the first field of two such texts, and what follows it,
  are determined by the text.
* `append_sep_starts` — so are the first fields of all texts it is a prefix of.
* `notMem_toString_int` — the decimal form of an integer contains no character
  other than digits and a minus sign.
-/

namespace Separated

variable {α : Type*}

/-- **The first separator delimits the first field.**  The field must not contain
the separator; what follows may. -/
theorem append_sep_inj {sep : α} {u v x y : List α} (hu : sep ∉ u) (hv : sep ∉ v) :
    u ++ sep :: x = v ++ sep :: y ↔ u = v ∧ x = y := by
  refine ⟨?_, fun ⟨h₁, h₂⟩ => by rw [h₁, h₂]⟩
  intro h
  induction u generalizing v with
  | nil =>
    cases v with
    | nil => exact ⟨rfl, (List.cons.inj h).2⟩
    | cons b v => exact absurd ((List.cons.inj h).1 ▸ List.mem_cons_self ..) hv
  | cons a u ih =>
    cases v with
    | nil => exact absurd ((List.cons.inj h).1 ▸ List.mem_cons_self ..) hu
    | cons b v =>
      simp only [List.mem_cons, not_or] at hu hv
      rw [List.cons_append, List.cons_append, List.cons.injEq] at h
      obtain ⟨huv, hxy⟩ := ih hu.2 hv.2 h.2
      exact ⟨by rw [h.1, huv], hxy⟩

/-- A text that starts with a field, a separator and more starts with exactly that
field. -/
theorem append_sep_starts {sep : α} {u v x y : List α} (hu : sep ∉ u) (hv : sep ∉ v) :
    u ++ sep :: x <+: v ++ sep :: y ↔ u = v ∧ x <+: y := by
  constructor
  · rintro ⟨z, hz⟩
    rw [List.append_assoc, List.cons_append] at hz
    obtain ⟨huv, hxy⟩ := (append_sep_inj hu hv).1 hz
    exact ⟨huv, z, hxy⟩
  · rintro ⟨rfl, z, rfl⟩
    exact ⟨z, by simp⟩

theorem notMem_repr_nat {c : Char} (hc : c.isDigit = false) (n : Nat) : c ∉ n.repr.toList := by
  rw [Nat.toList_repr]
  intro h
  have := Nat.isDigit_of_mem_toDigits (by omega) (by omega) h
  rw [hc] at this
  cases this

/-- The decimal form of an integer contains digits and a minus sign only. -/
theorem notMem_toString_int {c : Char} (hc : c.isDigit = false) (hm : c ≠ '-') (i : Int) :
    c ∉ (toString i).toList := by
  rw [Int.toString_eq_repr]
  cases i with
  | ofNat n => exact notMem_repr_nat hc n
  | negSucc n =>
    show c ∉ ("-" ++ (n + 1).repr).toList
    rw [String.toList_append, List.mem_append, not_or]
    exact ⟨by simpa using hm, notMem_repr_nat hc (n + 1)⟩

end Separated
