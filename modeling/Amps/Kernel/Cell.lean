import Amps.Kernel.Transition

/-!
# Programs over shared cells, and their interleavings

A program talks to one cell by separate reads and writes.  It has two meanings:

* `Prog.run` — the program runs on its own, nothing happens between two of its
  accesses.
* `pool` — any number of parties run programs on any number of cells, one access
  at a time, in any order.  `pool_uninterrupted` says that a party nobody
  interrupts computes what `Prog.run` computes.

The pattern studied here is *check, then act*: a program reads the cell, finds it
unset, and writes an entry mark.  `Prog.Guarded` says a program writes the mark
only so, `Exclusive` that nobody else acts on the cell between the check and the
act, and `onceInv_run` what exclusive runs guarantee: one entry per cell, and
never over a value that was already set.
-/

namespace Cell

open Transition

universe u

/-! ## Programs -/

/-- A program over one shared cell holding a `σ`, returning an `α`. -/
inductive Prog (σ α : Type u) : Type u where
  /-- Return, with no further access. -/
  | done (a : α)
  /-- Read the cell and go on with what it held. -/
  | read (k : σ → Prog σ α)
  /-- Write the cell and go on. -/
  | write (v : σ) (k : Prog σ α)

namespace Prog

variable {σ α β : Type u}

/-- Sequencing. -/
def bind : Prog σ α → (α → Prog σ β) → Prog σ β
  | .done a, f => f a
  | .read k, f => .read fun v => (k v).bind f
  | .write v k, f => .write v (k.bind f)

@[simp] theorem bind_done (a : α) (f : α → Prog σ β) : (Prog.done a).bind f = f a := rfl

instance : Monad (Prog σ) where
  pure := .done
  bind := bind

/-- Run the program on its own: the result, and what the cell holds afterwards. -/
def run : Prog σ α → σ → α × σ
  | .done a, s => (a, s)
  | .read k, s => (k s).run s
  | .write v k, _ => k.run v

@[simp] theorem run_done (a : α) (s : σ) : (Prog.done a : Prog σ α).run s = (a, s) := rfl

@[simp] theorem run_pure (a : α) (s : σ) : (pure a : Prog σ α).run s = (a, s) := rfl

@[simp] theorem run_read (k : σ → Prog σ α) (s : σ) : (Prog.read k).run s = (k s).run s := rfl

@[simp] theorem run_write (v : σ) (k : Prog σ α) (s : σ) : (Prog.write v k).run s = k.run v := rfl

@[simp] theorem run_bind (p : Prog σ α) (f : α → Prog σ β) (s : σ) :
    (p >>= f).run s = (f (p.run s).1).run (p.run s).2 := by
  show (p.bind f).run s = _
  induction p generalizing s with
  | done a => rfl
  | read k ih => exact ih s s
  | write v k ih => exact ih v

/-- The value the program is about to write, if its next access is a write. -/
def nextWrite : Prog σ α → Option σ
  | .write v _ => some v
  | _ => none

/-- The value the program is about to write once it has read `v`, if that is its next
access. -/
def writeAfter (v : σ) : Prog σ α → Option σ
  | .read k => (k v).nextWrite
  | _ => none

/-- The mark `entry` is written only right after the cell was read and found
unset, and no write ever leaves the cell unset. -/
def Guarded (unset : σ → Prop) (entry : σ) : Prog σ α → Prop
  | .done _ => True
  | .read k => ∀ v, ((k v).nextWrite = some entry → unset v) ∧ (k v).Guarded unset entry
  | .write v k => ¬ unset v ∧ k.nextWrite ≠ some entry ∧ k.Guarded unset entry

end Prog

/-! ## Pools of parties -/

variable {ι κ J : Type*} {σ α : Type u}

/-- One access of a party to its cell. -/
inductive Access (ι κ : Type*) (σ : Type u) where
  /-- Party `i` read `v` from the cell `c`. -/
  | read (i : ι) (c : κ) (v : σ)
  /-- Party `i` replaced `old` by `new` in the cell `c`. -/
  | write (i : ι) (c : κ) (old new : σ)
  deriving DecidableEq

/-- The cells, what is left of each party's program, and the accesses so far,
newest first. -/
structure Pool (ι κ : Type*) (σ α : Type u) where
  /-- What each cell holds. -/
  cells : κ → σ
  /-- The cell a party works on and the rest of its program. -/
  party : ι → Option (κ × Prog σ α)
  /-- Every access made so far, newest first. -/
  history : List (Access ι κ σ)

/-- What can happen next in a pool. -/
inductive Move (ι κ J : Type*) where
  /-- A new party `i` starts the job `j` on the cell `c`. -/
  | start (i : ι) (c : κ) (j : J)
  /-- Party `i` makes its next access. -/
  | advance (i : ι)

variable [DecidableEq ι] [DecidableEq κ]

/-- One move of a pool in which the job `j` is the program `prog j`. -/
def step (prog : J → Prog σ α) (s : Pool ι κ σ α) : Move ι κ J → Option (Pool ι κ σ α)
  | .start i c j =>
      if (s.party i).isSome then none
      else some { s with party := Function.update s.party i (some (c, prog j)) }
  | .advance i =>
      match s.party i with
      | some (c, .read k) =>
          some { s with
            party := Function.update s.party i (some (c, k (s.cells c)))
            history := .read i c (s.cells c) :: s.history }
      | some (c, .write v k) =>
          some {
            cells := Function.update s.cells c v
            party := Function.update s.party i (some (c, k))
            history := .write i c (s.cells c) v :: s.history }
      | _ => none

/-- The pool of parties as a transition system; no party has started yet. -/
def pool (cells : κ → σ) (prog : J → Prog σ α) : System (Pool ι κ σ α) (Move ι κ J) where
  init := { cells := cells, party := fun _ => none, history := [] }
  step := step prog

/-- What one move can do: start a party, read a cell, or write one. -/
theorem step_cases {prog : J → Prog σ α} {s t : Pool ι κ σ α} {m : Move ι κ J}
    (h : step prog s m = some t) :
    (∃ i c j, m = .start i c j ∧ s.party i = none ∧
      t = { s with party := Function.update s.party i (some (c, prog j)) }) ∨
    (∃ i c k, m = .advance i ∧ s.party i = some (c, .read k) ∧
      t = { s with party := Function.update s.party i (some (c, k (s.cells c)))
                   history := .read i c (s.cells c) :: s.history }) ∨
    (∃ i c v k, m = .advance i ∧ s.party i = some (c, .write v k) ∧
      t = { cells := Function.update s.cells c v
            party := Function.update s.party i (some (c, k))
            history := .write i c (s.cells c) v :: s.history }) := by
  cases m with
  | start i c j =>
    simp only [step] at h
    split at h
    · cases h
    · rename_i hnone
      exact .inl ⟨i, c, j, rfl, by simpa using hnone, (Option.some.inj h).symm⟩
  | advance i =>
    simp only [step] at h
    split at h
    · rename_i c k hk
      exact .inr (.inl ⟨i, c, k, rfl, hk, (Option.some.inj h).symm⟩)
    · rename_i c v k hk
      exact .inr (.inr ⟨i, c, v, k, rfl, hk, (Option.some.inj h).symm⟩)
    · cases h

/-- **A party nobody interrupts computes what its program computes on its own**:
some number of its own accesses brings it to its result, with the cell as the
program leaves it and the rest of the pool untouched. -/
theorem pool_uninterrupted {cells : κ → σ} {prog : J → Prog σ α} {i : ι} {c : κ}
    (p : Prog σ α) {s : Pool ι κ σ α} (hp : s.party i = some (c, p)) :
    ∃ n t, (pool cells prog).runFrom s (List.replicate n (.advance i)) = some t ∧
      t.party i = some (c, .done (p.run (s.cells c)).1) ∧
      t.cells = Function.update s.cells c (p.run (s.cells c)).2 ∧
      ∀ j, j ≠ i → t.party j = s.party j := by
  induction p generalizing s with
  | done a => exact ⟨0, s, rfl, hp, by simp, fun _ _ => rfl⟩
  | read k ih =>
    set u : Pool ι κ σ α :=
      { s with party := Function.update s.party i (some (c, k (s.cells c)))
               history := .read i c (s.cells c) :: s.history } with hu
    have hstep : step prog s (.advance i) = some u := by simp [step, hp, hu]
    obtain ⟨n, t, hrun, hdone, hcells, hrest⟩ := ih (s.cells c) (s := u) (by simp [hu])
    refine ⟨n + 1, t, ?_, hdone, hcells, ?_⟩
    · rw [List.replicate_succ, System.runFrom_cons]
      exact (congrArg (Option.bind · _) hstep).trans hrun
    · intro j hj
      rw [hrest j hj, hu]
      exact Function.update_of_ne hj _ _
  | write v k ih =>
    set u : Pool ι κ σ α :=
      { cells := Function.update s.cells c v
        party := Function.update s.party i (some (c, k))
        history := .write i c (s.cells c) v :: s.history } with hu
    have hstep : step prog s (.advance i) = some u := by simp [step, hp, hu]
    obtain ⟨n, t, hrun, hdone, hcells, hrest⟩ := ih (s := u) (by simp [hu])
    refine ⟨n + 1, t, ?_, by simpa [hu] using hdone, by simpa [hu] using hcells, ?_⟩
    · rw [List.replicate_succ, System.runFrom_cons]
      exact (congrArg (Option.bind · _) hstep).trans hrun
    · intro j hj
      rw [hrest j hj, hu]
      exact Function.update_of_ne hj _ _

/-! ## One entry per cell -/

variable [DecidableEq σ]

/-- The parties that wrote the mark `entry` into the cell `c`, newest first. -/
def entries (entry : σ) (c : κ) (h : List (Access ι κ σ)) : List ι :=
  h.filterMap fun
    | .write i c' _ v => if c' = c ∧ v = entry then some i else none
    | .read .. => none

/-- While one party stands before its entry write, no other party writes the
cell, and none reads its way to an entry write of its own. -/
def Exclusive (entry : σ) (s : Pool ι κ σ α) : Move ι κ J → Prop
  | .start .. => True
  | .advance i => ∀ x ∈ s.party i, ∀ j, j ≠ i → ∀ y ∈ s.party j, y.1 = x.1 →
      y.2.nextWrite = some entry →
        x.2.nextWrite = none ∧ x.2.writeAfter (s.cells x.1) ≠ some entry

instance {n : Nat} (entry : σ) (s : Pool (Fin n) κ σ α) :
    ∀ m : Move (Fin n) κ J, Decidable (Exclusive entry s m)
  | .start .. => isTrue trivial
  | .advance i => inferInstanceAs (Decidable (∀ x ∈ s.party i, ∀ j, j ≠ i → ∀ y ∈ s.party j,
      y.1 = x.1 → y.2.nextWrite = some entry →
        x.2.nextWrite = none ∧ x.2.writeAfter (s.cells x.1) ≠ some entry))

/-- What exclusive runs maintain. -/
structure OnceInv (unset : σ → Prop) (entry : σ) (s : Pool ι κ σ α) : Prop where
  guarded : ∀ i c p, s.party i = some (c, p) → p.Guarded unset entry
  alone : ∀ i j c p q, s.party i = some (c, p) → p.nextWrite = some entry →
    s.party j = some (c, q) → q.nextWrite = some entry → i = j
  waiting : ∀ i c p, s.party i = some (c, p) → p.nextWrite = some entry → unset (s.cells c)
  fresh : ∀ c, unset (s.cells c) → entries entry c s.history = []
  once : ∀ c, (entries entry c s.history).length ≤ 1
  replaced : ∀ i c old, Access.write i c old entry ∈ s.history → unset old

section Once

variable {unset : σ → Prop} {entry : σ} {prog : J → Prog σ α} {cells : κ → σ}

/-- Every party goes on with a guarded program when the one that moved does. -/
theorem OnceInv.guarded_update {s : Pool ι κ σ α} (h : OnceInv unset entry s) {i : ι} {c : κ}
    {p : Prog σ α} (hp : p.Guarded unset entry) (j : ι) (d : κ) (q : Prog σ α)
    (hq : Function.update s.party i (some (c, p)) j = some (d, q)) : q.Guarded unset entry := by
  rcases update_eq_some.1 hq with ⟨-, heq⟩ | ⟨-, hq⟩
  · cases heq
    exact hp
  · exact h.guarded j d q hq

theorem onceInv_start {s : Pool ι κ σ α} (h : OnceInv unset entry s) {i : ι} {c : κ} {p : Prog σ α}
    (hp : p.Guarded unset entry) (hfirst : p.nextWrite ≠ some entry) :
    OnceInv unset entry { s with party := Function.update s.party i (some (c, p)) } := by
  -- a party about to make its entry write is not the new one
  have hold : ∀ {x : ι} {c' : κ} {r : Prog σ α},
      Function.update s.party i (some (c, p)) x = some (c', r) → r.nextWrite = some entry →
      s.party x = some (c', r) := by
    intro x c' r hx hr
    rcases update_eq_some.1 hx with ⟨-, heq⟩ | ⟨-, hx⟩
    · cases heq
      exact absurd hr hfirst
    · exact hx
  refine { guarded := h.guarded_update hp, alone := ?_, waiting := ?_, fresh := h.fresh,
           once := h.once, replaced := h.replaced }
  · intro i' j' c' p' q' h' hw h'' hw'
    exact h.alone i' j' c' p' q' (hold h' hw) hw (hold h'' hw') hw'
  · intro i' c' p' h' hw
    exact h.waiting i' c' p' (hold h' hw) hw

theorem onceInv_read {s : Pool ι κ σ α} (h : OnceInv unset entry s) {i : ι} {c : κ}
    {k : σ → Prog σ α} (hi : s.party i = some (c, .read k))
    (hex : Exclusive (J := J) entry s (.advance i)) :
    OnceInv unset entry
      { s with party := Function.update s.party i (some (c, k (s.cells c)))
               history := .read i c (s.cells c) :: s.history } := by
  have hg := h.guarded i c _ hi (s.cells c)
  -- nobody else stands before an entry write when this read leads to one
  have hnone : (k (s.cells c)).nextWrite = some entry → ∀ j q, j ≠ i →
      s.party j = some (c, q) → q.nextWrite ≠ some entry :=
    fun hk j q hj hq hw => (hex (c, .read k) hi j hj (c, q) hq rfl hw).2 hk
  refine { guarded := h.guarded_update hg.2, alone := ?_, waiting := ?_, fresh := h.fresh,
           once := h.once
           replaced := fun i' c' old hm => h.replaced i' c' old (by simpa using hm) }
  · intro i' j' c' p' q' h' hw h'' hw'
    rcases update_eq_some.1 h' with ⟨hi', heq⟩ | ⟨hi', h'⟩ <;>
      rcases update_eq_some.1 h'' with ⟨hj', heq'⟩ | ⟨hj', h''⟩
    · rw [hi', hj']
    · cases heq
      exact absurd hw' (hnone hw j' q' hj' h'')
    · cases heq'
      exact absurd hw (hnone hw' i' p' hi' h')
    · exact h.alone i' j' c' p' q' h' hw h'' hw'
  · intro i' c' p' h' hw
    rcases update_eq_some.1 h' with ⟨-, heq⟩ | ⟨-, h'⟩
    · cases heq
      exact hg.1 hw
    · exact h.waiting i' c' p' h' hw

theorem onceInv_write {s : Pool ι κ σ α} (h : OnceInv unset entry s) {i : ι} {c : κ} {v : σ}
    {k : Prog σ α} (hi : s.party i = some (c, .write v k))
    (hex : Exclusive (J := J) entry s (.advance i)) :
    OnceInv unset entry
      { cells := Function.update s.cells c v
        party := Function.update s.party i (some (c, k))
        history := .write i c (s.cells c) v :: s.history } := by
  obtain ⟨hset, hk, hkg⟩ := h.guarded i c _ hi
  -- whoever stands before an entry write now stands on another cell
  have hother : ∀ {x : ι} {c' : κ} {r : Prog σ α},
      Function.update s.party i (some (c, k)) x = some (c', r) → r.nextWrite = some entry →
      s.party x = some (c', r) ∧ c' ≠ c := by
    intro x c' r hx hr
    rcases update_eq_some.1 hx with ⟨-, heq⟩ | ⟨hxi, hx'⟩
    · cases heq
      exact absurd hr hk
    · refine ⟨hx', ?_⟩
      rintro rfl
      exact absurd (hex (c', .write v k) hi x hxi (c', r) hx' rfl hr).1 (by simp [Prog.nextWrite])
  -- an entry write finds the cell unset
  have hunset : v = entry → unset (s.cells c) := by
    rintro rfl
    exact h.waiting i c _ hi rfl
  refine { guarded := h.guarded_update hkg, alone := ?_, waiting := ?_, fresh := ?_, once := ?_,
           replaced := ?_ }
  · intro i' j' c' p' q' h' hw h'' hw'
    exact h.alone i' j' c' p' q' (hother h' hw).1 hw (hother h'' hw').1 hw'
  · intro i' c' p' h' hw
    obtain ⟨h₁, hne⟩ := hother h' hw
    simpa [hne] using h.waiting i' c' p' h₁ hw
  · intro c' hc'
    by_cases hcc : c' = c
    · subst hcc
      exact absurd (by simpa using hc') hset
    · have hne : ¬ (c = c' ∧ v = entry) := fun hand => hcc hand.1.symm
      have := h.fresh c' (by simpa [hcc] using hc')
      simpa [entries, hne] using this
  · intro c'
    by_cases hand : c = c' ∧ v = entry
    · obtain ⟨rfl, rfl⟩ := hand
      have hempty := h.fresh c (hunset rfl)
      rw [entries] at hempty ⊢
      simp [hempty]
    · have := h.once c'
      rw [entries] at this ⊢
      simpa [hand] using this
  · intro i' c' old hm
    rcases List.mem_cons.1 hm with heq | hm
    · cases heq
      exact hunset rfl
    · exact h.replaced i' c' old hm

theorem onceInv_preserves (hprog : ∀ j, (prog j).Guarded unset entry)
    (hfirst : ∀ j, (prog j).nextWrite ≠ some entry) :
    (pool cells prog).Preserves (Exclusive (ι := ι) (κ := κ) entry) (OnceInv unset entry) := by
  intro s m t h hex hstep
  obtain ⟨i, c, j, rfl, -, rfl⟩ | ⟨i, c, k, rfl, hi, rfl⟩ | ⟨i, c, v, k, rfl, hi, rfl⟩ :=
    step_cases hstep
  · exact onceInv_start h (hprog j) (hfirst j)
  · exact onceInv_read h hi hex
  · exact onceInv_write h hi hex

/-- An exclusive run over guarded programs keeps the invariant. -/
theorem onceInv_run (hprog : ∀ j, (prog j).Guarded unset entry)
    (hfirst : ∀ j, (prog j).nextWrite ≠ some entry) {as : List (Move ι κ J)}
    {t : Pool ι κ σ α} (hex : (pool cells prog).Along (Exclusive entry) (pool cells prog).init as)
    (h : (pool cells prog).run as = some t) : OnceInv unset entry t :=
  System.invariant_run (I := OnceInv unset entry)
    ⟨nofun, nofun, nofun, fun _ _ => rfl, fun _ => Nat.zero_le _, nofun⟩
    (onceInv_preserves hprog hfirst) hex h

end Once

end Cell
