import Mathlib.Data.Set.Card
import Mathlib.Order.CompletePartialOrder
import Amps.Kernel.Fairness

/-!
# Systems that come to rest

A bound on the length of the runs of a system, and what it says about its executions.

* `length_le_of_grows` — **the growth rule**: a run along which a set grows at each step is
  no longer than the last set is large.
* `exhausts` — work that is bounded can be finished.
* `Execution.taken` — the run an execution has taken so far; `run_taken` says that it is one.
* `stops_of_bounded` — an execution that takes boundedly many actions stops.
* `disabled_of_stopped` — where it stopped, no action of a fair kind is possible.
-/

namespace Transition

variable {σ α τ : Type*}

namespace System

variable {T : System σ α} {as : List α} {s t : σ} {a : α}

/-- A run ends with its last action. -/
theorem run_concat : T.run (as ++ [a]) = some t ↔ ∃ s, T.run as = some s ∧ T.step s a = some t := by
  rw [run, runFrom_append, Option.bind_eq_some_iff]
  constructor
  · rintro ⟨s, hs, ht⟩
    obtain ⟨u, hu, hnil⟩ := T.runFrom_cons_eq_some.1 ht
    cases hnil
    exact ⟨s, hs, hu⟩
  · rintro ⟨s, hs, ht⟩
    exact ⟨s, hs, T.runFrom_cons_eq_some.2 ⟨t, ht, rfl⟩⟩

/-- **The growth rule.** -/
theorem length_le_of_grows {grown : σ → Set τ}
    (hgrow : ∀ as s a t, T.run as = some s → T.step s a = some t → grown s ⊂ grown t)
    (h : T.run as = some t) (hfin : (grown t).Finite) : as.length ≤ (grown t).ncard := by
  induction as using List.reverseRecOn generalizing t with
  | nil => exact Nat.zero_le _
  | append_singleton as a ih =>
    obtain ⟨s, hs, hstep⟩ := run_concat.1 h
    have hlt := hgrow as s a t hs hstep
    have hle : as.length ≤ (grown s).ncard := ih hs (hfin.subset hlt.subset)
    have hcard : (grown s).ncard < (grown t).ncard := Set.ncard_lt_ncard hlt hfin
    rw [List.length_append, List.length_singleton]
    omega

/-- **Work that is bounded can be finished.**  If the actions of a kind can extend a run only
so far, some of them extend it to where none is possible any more. -/
theorem exhausts {K : α → Prop} {b : ℕ} (hrun : T.run as = some s)
    (hbound : ∀ bs t, T.run (as ++ bs) = some t → (∀ a ∈ bs, K a) → bs.length ≤ b) :
    ∃ bs t, T.run (as ++ bs) = some t ∧ (∀ a ∈ bs, K a) ∧ ∀ a u, K a → T.step t a ≠ some u := by
  by_contra hnever
  -- otherwise the run can be extended again and again
  have hmore : ∀ n, ∃ bs t, T.run (as ++ bs) = some t ∧ (∀ a ∈ bs, K a) ∧ bs.length = n := by
    intro n
    induction n with
    | zero => exact ⟨[], s, by simpa using hrun, by simp, rfl⟩
    | succ n ih =>
      obtain ⟨bs, t, ht, hbs, hlen⟩ := ih
      obtain ⟨a, u, ha, hstep⟩ : ∃ a u, K a ∧ T.step t a = some u := by
        by_contra hno
        exact hnever ⟨bs, t, ht, hbs, fun a u ha hstep => hno ⟨a, u, ha, hstep⟩⟩
      refine ⟨bs ++ [a], u, ?_, ?_, by simp [hlen]⟩
      · rw [← List.append_assoc]
        exact run_concat.2 ⟨t, ht, hstep⟩
      · intro x hx
        rcases List.mem_append.1 hx with hx | hx
        · exact hbs x hx
        · exact List.mem_singleton.1 hx ▸ ha
  obtain ⟨bs, t, ht, hbs, hlen⟩ := hmore (b + 1)
  have hle := hbound bs t ht hbs
  omega

end System

namespace Execution

variable {T : System σ α} (X : Execution T)

/-- The actions an execution takes before a moment. -/
def taken (n : ℕ) : List α := (List.range n).filterMap X.move

theorem taken_succ (n : ℕ) : X.taken (n + 1) = X.taken n ++ (X.move n).toList := by
  rw [taken, List.range_succ, List.filterMap_append]
  cases h : X.move n <;> simp [taken, h]

/-- What an execution has taken so far is a run to where it is. -/
theorem run_taken (n : ℕ) : T.run (X.taken n) = some (X.state n) := by
  induction n with
  | zero => rw [X.starts]; rfl
  | succ n ih =>
    rw [taken_succ]
    cases h : X.move n with
    | none =>
      rw [X.idles n h, Option.toList_none, List.append_nil]
      exact ih
    | some a => exact System.run_concat.2 ⟨X.state n, ih, X.steps n a h⟩

theorem length_taken_mono {n m : ℕ} (h : n ≤ m) : (X.taken n).length ≤ (X.taken m).length := by
  induction m, h using Nat.le_induction with
  | base => exact le_rfl
  | succ m hm ih =>
    rw [taken_succ, List.length_append]
    omega

variable {X} {k : ℕ}

/-- **An execution that takes boundedly many actions stops.** -/
theorem stops_of_bounded {b : ℕ} (h : ∀ n, (X.taken n).length ≤ b) :
    ∃ k, ∀ n ≥ k, X.move n = none := by
  by_contra hnever
  have hagain : ∀ k, ∃ n ≥ k, X.move n ≠ none := by
    intro k
    by_contra hk
    exact hnever ⟨k, fun n hn => by_contra fun hmove => hk ⟨n, hn, hmove⟩⟩
  -- then it takes more and more of them
  have hmore : ∀ c, ∃ n, c ≤ (X.taken n).length := by
    intro c
    induction c with
    | zero => exact ⟨0, Nat.zero_le _⟩
    | succ c ih =>
      obtain ⟨n, hn⟩ := ih
      obtain ⟨m, hm, hmove⟩ := hagain n
      obtain ⟨a, ha⟩ := Option.ne_none_iff_exists'.1 hmove
      refine ⟨m + 1, ?_⟩
      have hle := X.length_taken_mono hm
      rw [taken_succ, ha, List.length_append, Option.toList_some, List.length_singleton]
      omega
  obtain ⟨n, hn⟩ := hmore (b + 1)
  have hle := h n
  omega

/-- An execution that stopped stays where it is. -/
theorem state_of_stopped (hstop : ∀ n ≥ k, X.move n = none) {n : ℕ} (hn : k ≤ n) :
    X.state n = X.state k := by
  induction n, hn using Nat.le_induction with
  | base => rfl
  | succ n hn ih => rw [X.idles n (hstop n hn), ih]

/-- Where a fair execution stopped, no action of the kind is possible. -/
theorem disabled_of_stopped {K : σ → α → Prop} (hfair : X.Fair K)
    (hstop : ∀ n ≥ k, X.move n = none) {a : α} {t : σ} (hK : K (X.state k) a) :
    T.step (X.state k) a ≠ some t := by
  intro hstep
  obtain ⟨m, hm, b, hmove, -⟩ := hfair k fun m hm => by
    rw [state_of_stopped hstop hm]
    exact ⟨a, t, hK, hstep⟩
  rw [hstop m hm] at hmove
  cases hmove

end Execution

end Transition
