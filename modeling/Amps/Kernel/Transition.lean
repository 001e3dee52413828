import Mathlib.Data.List.Basic
import Mathlib.Logic.Function.Basic
import Mathlib.Tactic.Common

/-!
# Transition systems and their runs

A deterministic transition system is an initial state and a partial step
function: `step s a = none` says that the action `a` is not enabled in `s`.

* `runFrom`, `run` — a whole sequence of actions, `none` as soon as one of them
  is not enabled.
* `Along C` — every action of a run is taken in a state that meets `C`, the form
  in which a condition on a run is stated.
* `invariant_run` — the induction every safety property goes through: what holds
  initially and survives each step holds wherever a run ends.
* `Takes`, `takes_of_change` — a step of a run with a property; what a run brings about
  is brought about by one of its steps.
* `run_purge` — the unwinding rule for two runs: delete from a run the actions
  an observer does not own, and what the observer is related to stays the same.
* `Justified P` — a history, newest event first, each of whose events is
  accounted for by the events before it.
* `update_eq_some` — what a partial table holds after one entry was set.
-/

namespace Transition

variable {σ τ α ε : Type*}

/-- A deterministic transition system with labelled, partial steps. -/
structure System (σ α : Type*) where
  /-- The state every run starts from. -/
  init : σ
  /-- One step; `none` when the action is not enabled. -/
  step : σ → α → Option σ

namespace System

variable (T : System σ α)

/-! ## Runs -/

/-- Take a sequence of actions from a state. -/
def runFrom (s : σ) : List α → Option σ
  | [] => some s
  | a :: as => (T.step s a).bind fun s' => runFrom s' as

/-- Take a sequence of actions from the initial state. -/
def run (as : List α) : Option σ := T.runFrom T.init as

/-- Every action of the run is taken in a state that meets `C`. -/
def Along (C : σ → α → Prop) (s : σ) : List α → Prop
  | [] => True
  | a :: as => C s a ∧ ∀ s' ∈ T.step s a, Along C s' as

@[simp] theorem runFrom_nil (s : σ) : T.runFrom s [] = some s := rfl

theorem runFrom_cons (s : σ) (a : α) (as : List α) :
    T.runFrom s (a :: as) = (T.step s a).bind fun s' => T.runFrom s' as := rfl

theorem runFrom_cons_eq_some {s t : σ} {a : α} {as : List α} :
    T.runFrom s (a :: as) = some t ↔ ∃ u, T.step s a = some u ∧ T.runFrom u as = some t := by
  rw [runFrom_cons, Option.bind_eq_some_iff]

theorem runFrom_append (s : σ) (as bs : List α) :
    T.runFrom s (as ++ bs) = (T.runFrom s as).bind fun t => T.runFrom t bs := by
  induction as generalizing s with
  | nil => simp
  | cons a as ih => simp [runFrom_cons, ih, Option.bind_assoc]

@[simp] theorem along_nil (C : σ → α → Prop) (s : σ) : T.Along C s [] := trivial

theorem along_cons {C : σ → α → Prop} {s : σ} {a : α} {as : List α} :
    T.Along C s (a :: as) ↔ C s a ∧ ∀ s' ∈ T.step s a, T.Along C s' as := Iff.rfl

instance Along.decidable (C : σ → α → Prop) [∀ s a, Decidable (C s a)] :
    ∀ s as, Decidable (T.Along C s as)
  | _, [] => isTrue trivial
  | s, a :: as =>
      have := fun s' => Along.decidable C s' as
      inferInstanceAs (Decidable (C s a ∧ ∀ s' ∈ T.step s a, T.Along C s' as))

variable {T}

theorem Along.mono {C D : σ → α → Prop} (hCD : ∀ s a, C s a → D s a) {s : σ} {as : List α}
    (h : T.Along C s as) : T.Along D s as := by
  induction as generalizing s with
  | nil => trivial
  | cons a as ih => exact ⟨hCD s a h.1, fun s' hs' => ih (h.2 s' hs')⟩

/-- A condition along the whole run is a condition along its two parts. -/
theorem along_append {C : σ → α → Prop} {s : σ} {as bs : List α} :
    T.Along C s (as ++ bs) ↔ T.Along C s as ∧ ∀ t ∈ T.runFrom s as, T.Along C t bs := by
  induction as generalizing s with
  | nil => simp
  | cons a as ih =>
    rw [List.cons_append, along_cons, along_cons, runFrom_cons]
    constructor
    · rintro ⟨ha, hrest⟩
      refine ⟨⟨ha, fun s' hs' => (ih.1 (hrest s' hs')).1⟩, ?_⟩
      intro t ht
      obtain ⟨s', hs', ht⟩ := Option.bind_eq_some_iff.1 ht
      exact (ih.1 (hrest s' hs')).2 t ht
    · rintro ⟨⟨ha, hrest⟩, hafter⟩
      refine ⟨ha, fun s' hs' => ih.2 ⟨hrest s' hs', fun t ht => hafter t ?_⟩⟩
      exact Option.bind_eq_some_iff.2 ⟨s', hs', ht⟩

theorem Along.and {C D : σ → α → Prop} {s : σ} {as : List α} (hC : T.Along C s as)
    (hD : T.Along D s as) : T.Along (fun s a => C s a ∧ D s a) s as := by
  induction as generalizing s with
  | nil => trivial
  | cons a as ih => exact ⟨⟨hC.1, hD.1⟩, fun s' hs' => ih (hC.2 s' hs') (hD.2 s' hs')⟩

/-- A condition on the actions alone holds along every run over such actions. -/
theorem along_of_forall {C : α → Prop} {s : σ} {as : List α} (h : ∀ a ∈ as, C a) :
    T.Along (fun _ a => C a) s as := by
  induction as generalizing s with
  | nil => trivial
  | cons a as ih =>
    exact ⟨h a (List.mem_cons_self ..), fun s' _ => ih fun b hb => h b (List.mem_cons_of_mem _ hb)⟩

/-- The second part of a run starts where its first part ends. -/
theorem runFrom_of_run_append {as bs : List α} {s t : σ} (has : T.run as = some s)
    (h : T.run (as ++ bs) = some t) : T.runFrom s bs = some t := by
  rw [run] at has
  rw [run, runFrom_append, has] at h
  exact h

/-- Evaluate a run and test the state it ends in. -/
theorem run_any (T : System σ α) (as : List α) (p : σ → Bool) (h : (T.run as).any p = true) :
    ∃ s, T.run as = some s ∧ p s = true := by
  cases hrun : T.run as with
  | none => rw [hrun] at h; cases h
  | some s => exact ⟨s, rfl, by rw [hrun] at h; exact h⟩

/-! ## Invariants -/

/-- `I` survives every step taken under the condition `C`. -/
def Preserves (T : System σ α) (C : σ → α → Prop) (I : σ → Prop) : Prop :=
  ∀ s a s', I s → C s a → T.step s a = some s' → I s'

theorem invariant_runFrom {C : σ → α → Prop} {I : σ → Prop} (hI : T.Preserves C I) {s t : σ}
    {as : List α} (hs : I s) (hC : T.Along C s as) (h : T.runFrom s as = some t) : I t := by
  induction as generalizing s with
  | nil => cases h; exact hs
  | cons a as ih =>
    obtain ⟨u, hu, hrest⟩ := T.runFrom_cons_eq_some.1 h
    exact ih (hI s a u hs hC.1 hu) (hC.2 u hu) hrest

/-- **The invariant rule.**  What holds initially and survives every step of a
run holds in the state the run ends in. -/
theorem invariant_run {C : σ → α → Prop} {I : σ → Prop} (h0 : I T.init) (hI : T.Preserves C I)
    {t : σ} {as : List α} (hC : T.Along C T.init as) (h : T.run as = some t) : I t :=
  invariant_runFrom hI h0 hC h

/-- An invariant proved with the help of another one. -/
theorem Preserves.with {C : σ → α → Prop} {J I : σ → Prop}
    (hJ : T.Preserves (fun _ _ => True) J)
    (hI : ∀ s a s', J s → I s → C s a → T.step s a = some s' → I s') :
    T.Preserves C (fun s => J s ∧ I s) :=
  fun s a s' h hC hstep => ⟨hJ s a s' h.1 trivial hstep, hI s a s' h.1 h.2 hC hstep⟩

/-! ## The steps of a run -/

/-- The run from `s` takes a step that relates the states before and after it by `R`. -/
def Takes (T : System σ α) (s : σ) (as : List α) (R : σ → α → σ → Prop) : Prop :=
  ∃ pre a post u v, as = pre ++ a :: post ∧ T.runFrom s pre = some u ∧ T.step u a = some v ∧
    R u a v

/-- **What a run brings about, one of its steps brings about.** -/
theorem takes_of_change {Q : σ → Prop} {s t : σ} {as : List α} (hs : ¬ Q s) (ht : Q t)
    (h : T.runFrom s as = some t) : T.Takes s as fun u _ v => ¬ Q u ∧ Q v := by
  induction as generalizing s with
  | nil =>
    cases h
    exact absurd ht hs
  | cons a as ih =>
    obtain ⟨v, hv, hrest⟩ := T.runFrom_cons_eq_some.1 h
    by_cases hQ : Q v
    · exact ⟨[], a, as, s, v, rfl, rfl, hv, hs, hQ⟩
    · obtain ⟨pre, b, post, u, w, rfl, hu, hw, hR⟩ := ih hQ hrest
      exact ⟨a :: pre, b, post, u, w, rfl, T.runFrom_cons_eq_some.2 ⟨v, hv, hu⟩, hw, hR⟩

/-- The rest of a run starts where a step of it ends. -/
theorem runFrom_of_step {s u v t : σ} {pre post : List α} {a : α}
    (hu : T.runFrom s pre = some u) (hv : T.step u a = some v)
    (h : T.runFrom s (pre ++ a :: post) = some t) : T.runFrom v post = some t := by
  rw [runFrom_append, hu, Option.bind_some, runFrom_cons, hv] at h
  exact h

/-! ## Deleting the actions of others -/

/-- **Unwinding.**  Suppose every action kept is matched from related states and
every action deleted leaves the relation alone.  Then what remains of a run after
the deletion is a run, and it ends in a related state. -/
theorem run_purge {R : σ → σ → Prop} {C : σ → α → Prop} {K : α → Bool}
    (hkeep : ∀ s t a s', C s a → K a = true → R s t → T.step s a = some s' →
      ∃ t', T.step t a = some t' ∧ R s' t')
    (hdrop : ∀ s t a s', C s a → K a = false → R s t → T.step s a = some s' → R s' t)
    {as : List α} {s t s' : σ} (hC : T.Along C s as) (hR : R s t)
    (h : T.runFrom s as = some s') :
    ∃ t', T.runFrom t (as.filter K) = some t' ∧ R s' t' := by
  induction as generalizing s t with
  | nil => cases h; exact ⟨t, rfl, hR⟩
  | cons a as ih =>
    obtain ⟨u, hu, hrest⟩ := T.runFrom_cons_eq_some.1 h
    have hCas : T.Along C u as := hC.2 u hu
    cases hka : K a with
    | true =>
      obtain ⟨v, hv, hRv⟩ := hkeep s t a u hC.1 hka hR hu
      obtain ⟨t', ht', hR'⟩ := ih hCas hRv hrest
      refine ⟨t', ?_, hR'⟩
      rw [List.filter_cons_of_pos hka, runFrom_cons, hv]
      exact ht'
    | false =>
      rw [List.filter_cons_of_neg (by simp [hka])]
      exact ih hCas (hdrop s t a u hC.1 hka hR hu) hrest

end System

/-! ## Histories -/

/-- Every event of the history, newest first, is justified by those before it. -/
def Justified (P : ε → List ε → Prop) : List ε → Prop
  | [] => True
  | e :: pre => P e pre ∧ Justified P pre

/-- Events that need no justification may be added. -/
theorem Justified.append {P : ε → List ε → Prop} {es h : List ε} (hes : ∀ e ∈ es, ∀ pre, P e pre)
    (hh : Justified P h) : Justified P (es ++ h) := by
  induction es with
  | nil => exact hh
  | cons e es ih =>
    exact ⟨hes e List.mem_cons_self _, ih fun x hx => hes x (List.mem_cons_of_mem _ hx)⟩

/-- Each event of a justified history is justified by what came before it. -/
theorem Justified.split {P : ε → List ε → Prop} {e : ε} {post pre : List ε}
    (h : Justified P (post ++ e :: pre)) : P e pre ∧ Justified P pre := by
  induction post with
  | nil => exact h
  | cons x post ih => exact ih h.2

/-! ## Tables -/

/-- What a table holds after one entry was set. -/
theorem update_eq_some {ι β : Type*} [DecidableEq ι] {f : ι → Option β} {i j : ι} {b y : β} :
    Function.update f i (some b) j = some y ↔ (j = i ∧ y = b) ∨ (j ≠ i ∧ f j = some y) := by
  by_cases h : j = i
  · subst h
    simp [eq_comm]
  · simp [h]

end Transition
