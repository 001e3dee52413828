import Mathlib.Order.Basic
import Mathlib.Order.Nat
import Amps.Kernel.Transition

/-!
# Infinite executions and fairness

An execution takes an action or idles at each moment, forever.  What must happen in it
rests on fairness: a kind of action that stays possible is taken at some time.

* `Execution`, `Fair` — executions, and weak fairness of a kind of action; what is of the
  kind may depend on the state.
* `LeadsTo` — whenever `p` holds, `q` holds then or later; `trans`, `mono` and `cases`.
* `always` — the invariant rule for executions.
* `ensures` — **the fairness rule**: what survives every step until `q` holds, and makes an
  action of a fair kind possible that brings about `q`, leads to `q`.
* `LeadsTo.keep` — what holds meanwhile.
* `Execution.ofRun` — a finite run, idling once it is over; it is fair to every kind of
  action that is not possible in its last state.
-/

namespace Transition

variable {σ α : Type*}

/-- An infinite execution of a transition system. -/
structure Execution (T : System σ α) where
  state : ℕ → σ
  /-- The action taken next; `none` when the system idles. -/
  move : ℕ → Option α
  starts : state 0 = T.init
  idles : ∀ n, move n = none → state (n + 1) = state n
  steps : ∀ n a, move n = some a → T.step (state n) a = some (state (n + 1))

namespace Execution

variable {T : System σ α} (X : Execution T)

/-- Every action of the execution is taken in a state that meets `C`. -/
def Meets (C : σ → α → Prop) : Prop := ∀ n a, X.move n = some a → C (X.state n) a

/-- Weak fairness: a kind of action that is possible from some time on is taken then or
later. -/
def Fair (K : σ → α → Prop) : Prop :=
  ∀ n, (∀ m ≥ n, ∃ a t, K (X.state m) a ∧ T.step (X.state m) a = some t) →
    ∃ m ≥ n, ∃ a, X.move m = some a ∧ K (X.state m) a

/-- Whenever `p` holds, `q` holds then or later. -/
def LeadsTo (p q : σ → Prop) : Prop := ∀ n, p (X.state n) → ∃ m ≥ n, q (X.state m)

variable {X} {C : σ → α → Prop} {p q r : σ → Prop}

theorem LeadsTo.trans (hpq : X.LeadsTo p q) (hqr : X.LeadsTo q r) : X.LeadsTo p r := by
  intro n hp
  obtain ⟨m, hm, hq⟩ := hpq n hp
  obtain ⟨k, hk, hr⟩ := hqr m hq
  exact ⟨k, hm.trans hk, hr⟩

theorem LeadsTo.mono {p' q' : σ → Prop} (h : X.LeadsTo p q) (hp : ∀ s, p' s → p s)
    (hq : ∀ s, q s → q' s) : X.LeadsTo p' q' := by
  intro n hp'
  obtain ⟨m, hm, hqm⟩ := h n (hp _ hp')
  exact ⟨m, hm, hq _ hqm⟩

/-- The next stage, unless the goal is reached first. -/
theorem LeadsTo.cases (hpq : X.LeadsTo p fun s => q s ∨ r s) (hqr : X.LeadsTo q r) :
    X.LeadsTo p r := by
  apply hpq.trans
  intro n h
  rcases h with hq | hr
  · exact hqr n hq
  · exact ⟨n, le_rfl, hr⟩

/-! ## What always holds -/

theorem always_from {I : σ → Prop} (hI : T.Preserves C I) (hC : X.Meets C) {n : ℕ}
    (hn : I (X.state n)) {m : ℕ} (hm : n ≤ m) : I (X.state m) := by
  induction m, hm using Nat.le_induction with
  | base => exact hn
  | succ m hm ih =>
    cases hmove : X.move m with
    | none =>
      rw [X.idles m hmove]
      exact ih
    | some a => exact hI _ a _ ih (hC m a hmove) (X.steps m a hmove)

/-- **The invariant rule**, for infinite executions. -/
theorem always {I : σ → Prop} (h0 : I T.init) (hI : T.Preserves C I) (hC : X.Meets C) (n : ℕ) :
    I (X.state n) := by
  apply always_from hI hC _ (Nat.zero_le n)
  rw [X.starts]
  exact h0

/-! ## The fairness rule -/

/-- What survives every step until `q` holds, holds as long as `q` did not. -/
theorem until_or {I : σ → Prop} (hI : ∀ n, I (X.state n)) (hC : X.Meets C)
    (hsafe : ∀ s a t, I s → C s a → p s → T.step s a = some t → p t ∨ q t) {n : ℕ}
    (hp : p (X.state n)) {m : ℕ} (hm : n ≤ m) :
    p (X.state m) ∨ ∃ k ≥ n, q (X.state k) := by
  induction m, hm using Nat.le_induction with
  | base => exact .inl hp
  | succ m hm ih =>
    rcases ih with hpm | hq
    · cases hmove : X.move m with
      | none =>
        rw [X.idles m hmove]
        exact .inl hpm
      | some a =>
        rcases hsafe _ a _ (hI m) (hC m a hmove) hpm (X.steps m a hmove) with h | h
        · exact .inl h
        · exact .inr ⟨m + 1, by omega, h⟩
    · exact .inr hq

/-- **The fairness rule.** -/
theorem ensures {I : σ → Prop} {K : σ → α → Prop} (hI : ∀ n, I (X.state n)) (hC : X.Meets C)
    (hfair : X.Fair K)
    (hsafe : ∀ s a t, I s → C s a → p s → T.step s a = some t → p t ∨ q t)
    (hpossible : ∀ s, I s → p s → ∃ a t, K s a ∧ T.step s a = some t)
    (hdone : ∀ s a t, I s → C s a → p s → K s a → T.step s a = some t → q t) :
    X.LeadsTo p q := by
  intro n hp
  by_contra hnot
  have hnever : ¬ ∃ k ≥ n, q (X.state k) := hnot
  -- then `p` holds forever, and the kind of action stays possible
  have hforever : ∀ m ≥ n, p (X.state m) :=
    fun m hm => (until_or hI hC hsafe hp hm).resolve_right hnever
  obtain ⟨m, hm, a, hmove, hK⟩ := hfair n fun m hm => hpossible _ (hI m) (hforever m hm)
  exact hnever ⟨m + 1, by omega,
    hdone _ a _ (hI m) (hC m a hmove) (hforever m hm) hK (X.steps m a hmove)⟩

/-- What survives every step until the goal is reached, still holds at the next stage. -/
theorem LeadsTo.keep {I J : σ → Prop} (hpq : X.LeadsTo p q) (hI : ∀ n, I (X.state n))
    (hC : X.Meets C) (hsafe : ∀ s a t, I s → C s a → J s → T.step s a = some t → J t ∨ r t) :
    X.LeadsTo (fun s => p s ∧ J s) fun s => q s ∧ J s ∨ r s := by
  rintro n ⟨hp, hJ⟩
  obtain ⟨m, hm, hq⟩ := hpq n hp
  rcases until_or hI hC hsafe hJ hm with h | ⟨k, hk, hr⟩
  · exact ⟨m, hm, .inl ⟨hq, h⟩⟩
  · exact ⟨k, hk, .inr hr⟩

end Execution

/-! ## Executions that stop -/

section

variable {T : System σ α} {as : List α}

/-- What a run has taken so far is a run. -/
theorem System.run_take {t : σ} (h : T.run as = some t) (n : ℕ) :
    ∃ s, T.run (as.take n) = some s ∧ T.runFrom s (as.drop n) = some t := by
  rw [← List.take_append_drop n as, run, runFrom_append, Option.bind_eq_some_iff] at h
  exact h

/-- A finite run, idling once it is over. -/
def Execution.ofRun (T : System σ α) (as : List α) (h : (T.run as).isSome = true) :
    Execution T where
  state n := (T.run (as.take n)).getD T.init
  move n := as[n]?
  starts := rfl
  idles := by
    intro n hn
    have hlen : as.length ≤ n := List.getElem?_eq_none_iff.1 hn
    rw [List.take_of_length_le hlen, List.take_of_length_le (by omega)]
  steps := by
    intro n a ha
    obtain ⟨hn, rfl⟩ := List.getElem?_eq_some_iff.1 ha
    obtain ⟨t, ht⟩ := Option.isSome_iff_exists.1 h
    obtain ⟨s, hs, hrest⟩ := System.run_take ht n
    obtain ⟨u, hu, -⟩ := System.run_take ht (n + 1)
    rw [List.drop_eq_getElem_cons hn] at hrest
    obtain ⟨v, hv, -⟩ := T.runFrom_cons_eq_some.1 hrest
    have huv : T.run (as.take (n + 1)) = T.step s as[n] := by
      rw [List.take_succ_eq_append_getElem hn, System.run, System.runFrom_append]
      have hs' : T.runFrom T.init (as.take n) = some s := hs
      simp [hs', System.runFrom_cons, hv]
    rw [hs, huv, hv]
    exact hv

namespace Execution

variable {t : σ} (h : T.run as = some t)

theorem ofRun_state {n : ℕ} (hn : as.length ≤ n) :
    (ofRun T as (by rw [h]; rfl)).state n = t := by
  show (T.run (as.take n)).getD T.init = t
  rw [List.take_of_length_le hn, h]
  rfl

omit h in
/-- Where an execution is after the first steps of its run. -/
theorem ofRun_prefix {hrun : (T.run as).isSome = true} {n : ℕ} {s : σ}
    (hs : T.run (as.take n) = some s) : (ofRun T as hrun).state n = s := by
  show (T.run (as.take n)).getD T.init = s
  rw [hs]
  rfl

/-- An execution that stops is fair to what is not possible where it stops. -/
theorem ofRun_fair {K : σ → α → Prop} (hK : ∀ a u, K t a → T.step t a ≠ some u) :
    (ofRun T as (by rw [h]; rfl)).Fair K := by
  intro n hpossible
  obtain ⟨a, u, ha, hu⟩ := hpossible (max n as.length) (le_max_left _ _)
  rw [ofRun_state h (le_max_right _ _)] at ha hu
  exact absurd hu (hK a u ha)

/-- An execution that stops meets what its run meets. -/
theorem ofRun_meets {C : σ → α → Prop} (hC : T.Along C T.init as) :
    (ofRun T as (by rw [h]; rfl)).Meets C := by
  intro n a ha
  obtain ⟨hn, rfl⟩ := List.getElem?_eq_some_iff.1 ha
  obtain ⟨s, hs, -⟩ := System.run_take h n
  rw [← List.take_append_drop n as, System.along_append] at hC
  have hrest := hC.2 s hs
  rw [List.drop_eq_getElem_cons hn] at hrest
  show C ((T.run (as.take n)).getD T.init) as[n]
  rw [hs]
  exact hrest.1

end Execution

end

end Transition
