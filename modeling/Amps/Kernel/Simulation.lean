import Amps.Kernel.Transition

/-!
# Simulations

A concrete transition system simulates an abstract one when each of its actions reads as a
sequence of abstract actions that leads from what the state before the action represents to
what the state after it represents.

* `System.trace` — a concrete run, read as abstract actions.
* `Simulation` — the relation between the states, and the step it must keep.
* `Simulation.run` — what a run of the concrete system reads as is a run of the abstract
  one, and they end in related states.
-/

namespace Transition

variable {σ τ α β : Type*}

namespace System

/-- A run read as abstract actions, by what each of its actions reads as where it is taken. -/
def trace (T : System σ α) (reads : σ → α → List β) (s : σ) : List α → List β
  | [] => []
  | a :: as =>
      match T.step s a with
      | none => []
      | some s' => reads s a ++ trace T reads s' as

@[simp] theorem trace_nil (T : System σ α) (reads : σ → α → List β) (s : σ) :
    T.trace reads s [] = [] := rfl

theorem trace_cons {T : System σ α} (reads : σ → α → List β) {s s' : σ} {a : α}
    (h : T.step s a = some s') (as : List α) :
    T.trace reads s (a :: as) = reads s a ++ T.trace reads s' as := by
  simp only [trace, h]

end System

/-- `T` simulates `A` along the steps taken under the condition `C`. -/
structure Simulation (T : System σ α) (A : System τ β) (C : σ → α → Prop) where
  /-- What an action taken in a state reads as. -/
  reads : σ → α → List β
  /-- The concrete state represents the abstract one. -/
  rel : σ → τ → Prop
  init : rel T.init A.init
  step : ∀ {s t a s'}, rel s t → C s a → T.step s a = some s' →
    ∃ t', A.runFrom t (reads s a) = some t' ∧ rel s' t'

namespace Simulation

variable {T : System σ α} {A : System τ β} {C : σ → α → Prop}

/-- What happens from related states. -/
theorem runFrom (S : Simulation T A C) {as : List α} {s s' : σ} {t : τ} (hR : S.rel s t)
    (hC : T.Along C s as) (h : T.runFrom s as = some s') :
    ∃ t', A.runFrom t (T.trace S.reads s as) = some t' ∧ S.rel s' t' := by
  induction as generalizing s t with
  | nil =>
    cases h
    exact ⟨t, rfl, hR⟩
  | cons a as ih =>
    obtain ⟨u, hu, hrest⟩ := T.runFrom_cons_eq_some.1 h
    obtain ⟨v, hv, hRv⟩ := S.step hR hC.1 hu
    obtain ⟨t', ht', hR'⟩ := ih hRv (hC.2 u hu) hrest
    refine ⟨t', ?_, hR'⟩
    rw [System.trace_cons S.reads hu, System.runFrom_append, hv]
    exact ht'

/-- **Every concrete run reads as an abstract one**, and ends in a state that represents the
one the abstract run ends in. -/
theorem run (S : Simulation T A C) {as : List α} {s : σ} (hC : T.Along C T.init as)
    (h : T.run as = some s) :
    ∃ t, A.run (T.trace S.reads T.init as) = some t ∧ S.rel s t :=
  S.runFrom S.init hC h

end Simulation

end Transition
