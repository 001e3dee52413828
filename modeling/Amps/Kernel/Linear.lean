import Amps.Kernel.Cell
import Amps.Kernel.Simulation

/-!
# Linearization

The parties of a pool overlap: between two accesses of one, others may act on the same cell.
Their calls are linearizable when each of them nevertheless takes effect in one piece, at
some moment between its start and its end.  Here that moment is the last access.

* `Prog.last` — what the next access yields, if it is the last one.
* `Prog.Residual` — what is left of a program after it read some values.
* `atomic` — the same calls, each performed in one piece some time after it was invoked.
* `Validated` — an invariant under which the last access of a call yields what the whole
  call would yield there.
* `linearizable` — **a validated pool is linearizable**: read at the last accesses, every run
  is a run of `atomic`, with the same cells and the same results.
* `SeenSet` — in an exclusive run over guarded programs, what a party saw set is set still.
-/

namespace Cell

open Transition

universe u

/-! ## The last access -/

namespace Prog

variable {σ α : Type u} {p : Prog σ α} {vs : List σ}

/-- What the program returns, if it is over. -/
def result : Prog σ α → Option α
  | .done a => some a
  | _ => none

/-- The result of the program and what the cell then holds, if its next access is the last. -/
def last : Prog σ α → σ → Option (α × σ)
  | .done _, _ => none
  | .read k, v => (k v).result.map fun a => (a, v)
  | .write w k, _ => k.result.map fun a => (a, w)

/-- The program makes no access after a write. -/
def WritesLast : Prog σ α → Prop
  | .done _ => True
  | .read k => ∀ v, (k v).WritesLast
  | .write _ k => ∃ a, k = .done a

/-- The program makes one access at most. -/
def Single : Prog σ α → Prop
  | .done _ => True
  | .read k => ∀ v, ∃ a, k v = .done a
  | .write _ k => ∃ a, k = .done a

/-- `q` is left of `p` after it read the values `vs`, newest first. -/
inductive Residual (p : Prog σ α) : List σ → Prog σ α → Prop
  | start : Residual p [] p
  | read {vs k v} (h : Residual p vs (.read k)) : Residual p (v :: vs) (k v)

theorem result_eq_some {a : α} : p.result = some a ↔ p = .done a := by
  cases p <;> simp [result]

theorem Residual.writesLast {q : Prog σ α} (h : Residual p vs q) (hp : p.WritesLast) :
    q.WritesLast := by
  induction h with
  | start => exact hp
  | read _ ih => exact ih _

theorem Single.writesLast (hp : p.Single) : p.WritesLast := by
  cases p with
  | done a => trivial
  | read k =>
    intro v
    obtain ⟨a, ha⟩ := hp v
    rw [ha]
    trivial
  | write w k => exact hp

/-- A single access yields what the whole program does. -/
theorem Single.agrees (hp : p.Single) {q : Prog σ α} (h : Residual p vs q) {v : σ} {r : α × σ}
    (hlast : q.last v = some r) : p.run v = r := by
  have hq : q = p ∨ ∃ a, q = .done a := by
    clear hlast
    induction h with
    | start => exact .inl rfl
    | @read vs k v h ih =>
      rcases ih with rfl | ⟨a, heq⟩
      · exact .inr (hp v)
      · cases heq
  rcases hq with rfl | ⟨a, rfl⟩
  · cases q with
    | done a => cases hlast
    | read k =>
      obtain ⟨a, ha⟩ := hp v
      rw [last, ha] at hlast
      rw [run_read, ha]
      exact Option.some.inj hlast
    | write w k =>
      obtain ⟨a, rfl⟩ := hp
      exact Option.some.inj hlast
  · cases hlast

end Prog

/-! ## Calls performed in one piece -/

variable {ι κ J : Type*} {σ α : Type u}

/-- Where a call stands. -/
inductive Stage (J : Type*) (α : Type u) where
  | called (j : J)
  | returned (a : α)
  deriving DecidableEq

/-- The cells, and the calls made so far, each with its cell. -/
structure Atomic (ι κ J : Type*) (σ α : Type u) where
  cells : κ → σ
  calls : ι → Option (κ × Stage J α)

/-- What can happen next. -/
inductive Atomic.Move (ι κ J : Type*) where
  /-- The job `j` is called on the cell `c`. -/
  | invoke (i : ι) (c : κ) (j : J)
  /-- The call takes effect and returns. -/
  | perform (i : ι)
  deriving DecidableEq

/-! ## How far the parties are -/

/-- How a party stands with its call: what is left of the job is what the values it read
leave of it. -/
inductive Stands (prog : J → Prog σ α) (h : List (Access ι κ σ)) (i : ι) :
    Option (κ × Prog σ α) → Option (κ × Stage J α) → Prop
  | idle : Stands prog h i none none
  | underway {c j p vs} (hp : p.result = none) (hres : (prog j).Residual vs p)
      (hread : ∀ v ∈ vs, .read i c v ∈ h) :
      Stands prog h i (some (c, p)) (some (c, .called j))
  | returned {c a} : Stands prog h i (some (c, .done a)) (some (c, .returned a))

/-- The pool stands for these calls. -/
structure Represents (prog : J → Prog σ α) (s : Pool ι κ σ α) (t : Atomic ι κ J σ α) : Prop where
  cells : t.cells = s.cells
  stands : ∀ i, Stands prog s.history i (s.party i) (t.calls i)

section Stands

variable {prog : J → Prog σ α} {s : Pool ι κ σ α} {t : Atomic ι κ J σ α} {i : ι} {c : κ}

theorem Stands.mono {h h' : List (Access ι κ σ)}
    {x : Option (κ × Prog σ α)} {y : Option (κ × Stage J α)} (hs : Stands prog h i x y)
    (hsub : h ⊆ h') : Stands prog h' i x y := by
  cases hs with
  | idle => exact .idle
  | underway hp hres hread => exact .underway hp hres fun v hv => hsub (hread v hv)
  | returned => exact .returned

theorem Stands.returned_iff {h : List (Access ι κ σ)} {a : α}
    {x : Option (κ × Prog σ α)} {y : Option (κ × Stage J α)} (hs : Stands prog h i x y) :
    x = some (c, .done a) ↔ y = some (c, .returned a) := by
  cases hs with
  | idle => simp
  | underway hp => grind [Prog.result]
  | returned => simp

/-- A party that still goes on has called, and its call has not taken effect. -/
theorem Represents.called (h : Represents prog s t) {p : Prog σ α}
    (hi : s.party i = some (c, p)) (hp : p.result = none) :
    ∃ j vs, t.calls i = some (c, .called j) ∧ (prog j).Residual vs p ∧
      ∀ v ∈ vs, .read i c v ∈ s.history := by
  have hs := h.stands i
  rw [hi] at hs
  generalize t.calls i = y at hs ⊢
  cases hs with
  | underway _ hres hread => exact ⟨_, _, rfl, hres, hread⟩
  | returned => cases hp

theorem Represents.idle (h : Represents prog s t) (hi : s.party i = none) : t.calls i = none := by
  have hs := h.stands i
  rw [hi] at hs
  generalize t.calls i = y at hs ⊢
  cases hs
  rfl

end Stands

/-! ## The two systems -/

variable [DecidableEq ι] [DecidableEq κ]

/-- One move: a call is made, or performed as `Prog.run` does. -/
def Atomic.step (prog : J → Prog σ α) (s : Atomic ι κ J σ α) :
    Atomic.Move ι κ J → Option (Atomic ι κ J σ α)
  | .invoke i c j =>
      if (s.calls i).isSome then none
      else some { s with calls := Function.update s.calls i (some (c, .called j)) }
  | .perform i =>
      match s.calls i with
      | some (c, .called j) =>
          some {
            cells := Function.update s.cells c ((prog j).run (s.cells c)).2
            calls := Function.update s.calls i
              (some (c, .returned ((prog j).run (s.cells c)).1)) }
      | _ => none

/-- The calls as a transition system; none is made yet. -/
def atomic (cells : κ → σ) (prog : J → Prog σ α) :
    System (Atomic ι κ J σ α) (Atomic.Move ι κ J) where
  init := { cells := cells, calls := fun _ => none }
  step := Atomic.step prog

/-- A call is made when its party starts, and takes effect with the last access. -/
def linearization (prog : J → Prog σ α) (s : Pool ι κ σ α) :
    Move ι κ J → List (Atomic.Move ι κ J)
  | .start i c j => .invoke i c j :: if (prog j).result.isSome then [.perform i] else []
  | .advance i =>
      match s.party i with
      | some (c, p) => if (p.last (s.cells c)).isSome then [.perform i] else []
      | none => []

/-- The invariant `I` validates the last access of every call: it yields what the whole call
would yield if it ran at that moment. -/
structure Validated (cells : κ → σ) (prog : J → Prog σ α)
    (C : Pool ι κ σ α → Move ι κ J → Prop) (I : Pool ι κ σ α → Prop) : Prop where
  init : I (pool (J := J) cells prog).init
  preserves : (pool cells prog).Preserves C I
  writesLast : ∀ j, (prog j).WritesLast
  agrees : ∀ {s i c j vs p r}, I s → s.party i = some (c, p) → (prog j).Residual vs p →
    (∀ v ∈ vs, .read i c v ∈ s.history) → p.last (s.cells c) = some r →
    (prog j).run (s.cells c) = r

section Linearizes

variable {cells : κ → σ} {prog : J → Prog σ α} {C : Pool ι κ σ α → Move ι κ J → Prop}
  {I : Pool ι κ σ α → Prop} {s : Pool ι κ σ α} {t : Atomic ι κ J σ α} {i : ι} {c : κ} {j : J}

/-- A call that was made is performed: the party is over, and the cell is as the call leaves
it. -/
theorem represents_perform (hcells : t.cells = s.cells)
    (hothers : ∀ k, k ≠ i → Stands prog s.history k (s.party k) (t.calls k))
    (hi : t.calls i = some (c, .called j)) {r : α × σ} (hrun : (prog j).run (s.cells c) = r)
    (acc : List (Access ι κ σ)) :
    ∃ t', Atomic.step prog t (.perform i) = some t' ∧
      Represents prog { cells := Function.update s.cells c r.2
                        party := Function.update s.party i (some (c, .done r.1))
                        history := acc ++ s.history } t' := by
  refine ⟨{ cells := Function.update t.cells c r.2
            calls := Function.update t.calls i (some (c, .returned r.1)) }, ?_, ?_, ?_⟩
  · simp only [Atomic.step, hi, hcells, hrun]
  · rw [hcells]
  · intro k
    by_cases hk : k = i
    · subst hk
      simpa using Stands.returned
    · simpa [hk] using (hothers k hk).mono (List.subset_append_right acc s.history)

theorem represents_start (h : Represents prog s t) (hi : s.party i = none) :
    ∃ t', (atomic cells prog).runFrom t (linearization prog s (.start i c j)) = some t' ∧
      Represents prog { s with party := Function.update s.party i (some (c, prog j)) } t' := by
  set t₁ : Atomic ι κ J σ α :=
    { t with calls := Function.update t.calls i (some (c, .called j)) } with ht₁
  have hinvoke : (atomic cells prog).step t (.invoke i c j) = some t₁ := by
    simp [atomic, Atomic.step, h.idle hi, ht₁]
  have hothers : ∀ k, k ≠ i → Stands prog s.history k (s.party k) (t₁.calls k) := by
    intro k hk
    rw [ht₁]
    simpa [hk] using h.stands k
  cases hres : (prog j).result with
  | none =>
    refine ⟨t₁, by simp [linearization, hres, System.runFrom_cons, hinvoke], h.cells, ?_⟩
    intro k
    by_cases hk : k = i
    · subst hk
      simpa [ht₁] using Stands.underway hres .start nofun
    · simpa [hk] using hothers k hk
  | some a =>
    -- a job without accesses takes effect at once
    have hprog : prog j = .done a := Prog.result_eq_some.1 hres
    have hcall : t₁.calls i = some (c, .called j) := by rw [ht₁]; exact Function.update_self ..
    have hrun : (prog j).run (s.cells c) = (a, s.cells c) := by rw [hprog]; rfl
    have hcells : t₁.cells = s.cells := h.cells
    obtain ⟨t', hperform, hrep⟩ := represents_perform hcells hothers hcall hrun []
    refine ⟨t', ?_, ?_⟩
    · simp only [linearization, hres, Option.isSome_some, if_true, System.runFrom_cons, hinvoke,
        Option.bind_some]
      exact (congrArg (Option.bind · _) hperform).trans rfl
    · rw [hprog]
      simpa using hrep

/-- A read: the party goes on with what it read, or its call takes effect. -/
theorem represents_read (V : Validated cells prog C I) (hI : I s) (h : Represents prog s t)
    {k : σ → Prog σ α} (hi : s.party i = some (c, .read k)) :
    ∃ t', (atomic cells prog).runFrom t (linearization prog s (.advance i)) = some t' ∧
      Represents prog
        { s with party := Function.update s.party i (some (c, k (s.cells c)))
                 history := .read i c (s.cells c) :: s.history } t' := by
  obtain ⟨j, vs, hcall, hres, hread⟩ := h.called hi rfl
  cases hk : (k (s.cells c)).result with
  | none =>
    refine ⟨t, by simp [linearization, hi, Prog.last, hk], h.cells, ?_⟩
    intro x
    by_cases hx : x = i
    · subst hx
      simp only [Function.update_self, hcall]
      refine .underway hk hres.read ?_
      intro v hv
      rcases List.mem_cons.1 hv with rfl | hv
      · exact List.mem_cons_self
      · exact List.mem_cons_of_mem _ (hread v hv)
    · simpa [hx] using (h.stands x).mono (List.subset_cons_self _ _)
  | some a =>
    have hlast : (Prog.read k).last (s.cells c) = some (a, s.cells c) := by
      simp only [Prog.last, hk, Option.map_some]
    obtain ⟨t', hperform, hrep⟩ := represents_perform h.cells (fun x _ => h.stands x) hcall
      (V.agrees hI hi hres hread hlast) [.read i c (s.cells c)]
    refine ⟨t', ?_, ?_⟩
    · simp only [linearization, hi, hlast, Option.isSome_some, if_true, System.runFrom_cons]
      exact (congrArg (Option.bind · _) hperform).trans rfl
    · rw [Prog.result_eq_some.1 hk]
      simpa using hrep

/-- A write is the last access of its call. -/
theorem represents_write (V : Validated cells prog C I) (hI : I s) (h : Represents prog s t)
    {w : σ} {k : Prog σ α} (hi : s.party i = some (c, .write w k)) :
    ∃ t', (atomic cells prog).runFrom t (linearization prog s (.advance i)) = some t' ∧
      Represents prog
        { cells := Function.update s.cells c w
          party := Function.update s.party i (some (c, k))
          history := .write i c (s.cells c) w :: s.history } t' := by
  obtain ⟨j, vs, hcall, hres, hread⟩ := h.called hi rfl
  obtain ⟨a, rfl⟩ := hres.writesLast (V.writesLast j)
  have hlast : (Prog.write w (.done a)).last (s.cells c) = some (a, w) := rfl
  obtain ⟨t', hperform, hrep⟩ := represents_perform h.cells (fun x _ => h.stands x) hcall
    (V.agrees hI hi hres hread hlast) [.write i c (s.cells c) w]
  refine ⟨t', ?_, hrep⟩
  simp only [linearization, hi, hlast, Option.isSome_some, if_true, System.runFrom_cons]
  exact (congrArg (Option.bind · _) hperform).trans rfl

/-- The calls of a validated pool, performed at their last accesses. -/
def linearizes (V : Validated cells prog C I) :
    Simulation (pool cells prog) (atomic (ι := ι) cells prog) C where
  reads := linearization prog
  rel s t := I s ∧ Represents prog s t
  init := ⟨V.init, rfl, fun _ => .idle⟩
  step := by
    rintro s t m s' ⟨hI, h⟩ hC hstep
    have hI' : I s' := V.preserves s m s' hI hC hstep
    obtain ⟨i, c, j, rfl, hi, rfl⟩ | ⟨i, c, k, rfl, hi, rfl⟩ | ⟨i, c, w, k, rfl, hi, rfl⟩ :=
      step_cases hstep
    · obtain ⟨t', ht', h'⟩ := represents_start h hi
      exact ⟨t', ht', hI', h'⟩
    · obtain ⟨t', ht', h'⟩ := represents_read V hI h hi
      exact ⟨t', ht', hI', h'⟩
    · obtain ⟨t', ht', h'⟩ := represents_write V hI h hi
      exact ⟨t', ht', hI', h'⟩

/-- **A validated pool is linearizable.**  What its run reads as is a run of calls performed
in one piece, which leaves the same cells and in which the same calls returned the same. -/
theorem linearizable (V : Validated cells prog C I) {as : List (Move ι κ J)}
    (hC : (pool cells prog).Along C (pool cells prog).init as)
    (h : (pool cells prog).run as = some s) :
    ∃ t, (atomic cells prog).run
        ((pool cells prog).trace (linearization prog) (pool cells prog).init as) = some t ∧
      t.cells = s.cells ∧
      ∀ i c a, s.party i = some (c, .done a) ↔ t.calls i = some (c, .returned a) := by
  obtain ⟨t, ht, -, hrep⟩ := (linearizes V).run hC h
  exact ⟨t, ht, hrep.cells, fun i c a => (hrep.stands i).returned_iff⟩

end Linearizes

/-! ## Cells that are set once -/

section Once

variable [DecidableEq σ] {unset : σ → Prop} {entry : σ} {cells : κ → σ} {prog : J → Prog σ α}

/-- What a party saw set is set still. -/
def SeenSet (unset : σ → Prop) (s : Pool ι κ σ α) : Prop :=
  ∀ i c v, .read i c v ∈ s.history → ¬ unset v → ¬ unset (s.cells c)

theorem seenSet_step {s t : Pool ι κ σ α} {m : Move ι κ J} (hg : OnceInv unset entry s)
    (h : SeenSet unset s) (hstep : step prog s m = some t) : SeenSet unset t := by
  obtain ⟨i, c, j, rfl, -, rfl⟩ | ⟨i, c, k, rfl, -, rfl⟩ | ⟨i, c, w, k, rfl, hi, rfl⟩ :=
    step_cases hstep
  · exact h
  · intro i' c' v hv
    rcases List.mem_cons.1 hv with heq | hv
    · cases heq
      exact id
    · exact h i' c' v hv
  · -- a guarded program never leaves a cell unset
    have hw : ¬ unset w := (hg.guarded i c _ hi).1
    intro i' c' v hv hset
    have hold : ¬ unset (s.cells c') := h i' c' v (by simpa using hv) hset
    by_cases hc : c' = c
    · subst hc
      simpa using hw
    · simpa [hc] using hold

/-- Guarded programs in exclusive runs keep both. -/
theorem once_preserves (hprog : ∀ j, (prog j).Guarded unset entry)
    (hfirst : ∀ j, (prog j).nextWrite ≠ some entry) :
    (pool cells prog).Preserves (Exclusive (ι := ι) (κ := κ) entry)
      (fun s => OnceInv unset entry s ∧ SeenSet unset s) :=
  fun s m t h hex hstep => ⟨onceInv_preserves hprog hfirst s m t h.1 hex hstep,
    seenSet_step h.1 h.2 hstep⟩

end Once

end Cell
