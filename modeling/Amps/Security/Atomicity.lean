import Amps.Kernel.Linear
import Amps.Security.Race

/-!
# Calls that overlap and calls in one piece

A step of the running service makes a whole call at once, while Atmosphere's threads make
it access by access.  Here all three programs over the status attribute run in one pool, and
the pool is shown to do nothing the calls in one piece could not do.

* `Operation` — the three programs; `program_run` says what each does in one piece.
* `validated` — each last access agrees with the whole call: the gate writes `AUTH_PENDING`
  where it would find `UNAVAILABLE`, and decides on a status that is set for good.
* `operations_linearizable` — **overlapping calls decide as calls in one piece**, as long as
  nobody acts on a status between the read that finds it `UNAVAILABLE` and the write of
  `AUTH_PENDING`.
-/

namespace Amps

open Transition Cell

/-! ## The three programs -/

/-- A call that reaches the status. -/
inductive Operation where
  | interceptRequest
  | interceptBroadcast (message : Message)
  | onBroadcast (message : Message)
  deriving DecidableEq, Repr

/-- The accesses of a call, and the decision it makes, if any. -/
def Operation.program : Operation → SessionM (Option ProcessAction)
  | .interceptRequest => Job.interceptRequest.program
  | .interceptBroadcast m => do
      let pa ← Amps.interceptBroadcast m
      return some pa
  | .onBroadcast m => (Job.onBroadcast m).program

/-- Any number of calls on any number of sessions, one access at a time. -/
def operationPool (ι : Type) [DecidableEq ι] :
    System (Calls ι) (Cell.Move ι String Operation) :=
  pool (fun _ => none) Operation.program

/-- The same calls, each in one piece. -/
def operations (ι : Type) [DecidableEq ι] :
    System (Atomic ι String Operation (Option Status) (Option ProcessAction))
      (Atomic.Move ι String Operation) :=
  atomic (fun _ => none) Operation.program

/-- The filter reads the status once. -/
theorem program_interceptBroadcast (m : Message) : (Operation.interceptBroadcast m).program =
    .read fun v => .done
      (some (if m.isHandshake = true ∨ statusOf v = .authSuccessful then .go else .stop)) := by
  show (interceptBroadcast m).bind (fun pa => .done (some pa)) = _
  unfold interceptBroadcast
  show (Prog.read fun v => _) = _
  congr 1
  funext v
  simp only [Prog.bind_done]
  by_cases hm : m.isHandshake = true
  · simp only [hm, if_true, true_or]
    rfl
  · by_cases ha : statusOf v = .authSuccessful
    · simp only [hm, ha, if_true, or_true]
      rfl
    · simp only [hm, ha, if_false, or_false, ite_self]
      rfl

/-- **In one piece**, the calls do what the steps of the service do. -/
theorem Operation.program_run (o : Operation) (v : Option Status) :
    o.program.run v = match o with
      | .interceptRequest => (some (Amps.interceptRequest.run v).1, (Amps.interceptRequest.run v).2)
      | .interceptBroadcast m => (some ((Amps.interceptBroadcast m).run v).1, v)
      | .onBroadcast m => (none, m.record v) := by
  cases o with
  | interceptRequest =>
    show (Amps.interceptRequest >>= fun pa => pure (some pa)).run v = _
    rw [Prog.run_bind]
    rfl
  | interceptBroadcast m =>
    dsimp only
    rw [program_interceptBroadcast, interceptBroadcast_run]
    rfl
  | onBroadcast m =>
    show (Amps.onBroadcast m >>= fun _ => pure none).run v = _
    rw [Prog.run_bind, onBroadcast_run]
    rfl

/-! ## What the last access yields -/

theorem Operation.guarded (o : Operation) :
    o.program.Guarded (fun v => statusOf v = .unavailable) (some .authPending) := by
  cases o with
  | interceptRequest => exact guarded_program .interceptRequest
  | interceptBroadcast m =>
    rw [program_interceptBroadcast]
    exact fun v => ⟨nofun, trivial⟩
  | onBroadcast m => exact guarded_program (.onBroadcast m)

theorem Operation.nextWrite (o : Operation) :
    o.program.nextWrite ≠ some (some .authPending) := by
  cases o with
  | interceptRequest => exact nextWrite_program .interceptRequest
  | interceptBroadcast m =>
    rw [program_interceptBroadcast]
    nofun
  | onBroadcast m => exact nextWrite_program (.onBroadcast m)

/-- The filter and the deliveries make one access at most. -/
theorem Operation.single {o : Operation} (ho : o ≠ .interceptRequest) : o.program.Single := by
  cases o with
  | interceptRequest => exact absurd rfl ho
  | interceptBroadcast m =>
    rw [program_interceptBroadcast]
    exact fun _ => ⟨_, rfl⟩
  | onBroadcast m =>
    show (Job.onBroadcast m).program.Single
    rw [program_onBroadcast]
    split
    · exact ⟨_, rfl⟩
    · split
      · exact ⟨_, rfl⟩
      · trivial

/-- What the gate does once it has read the status it branches on. -/
def gateBranch (first : Option Status) : SessionM (Option ProcessAction) :=
  if statusOf first = .unavailable then .write (some .authPending) (.done (some .go))
  else .read fun second =>
    if statusOf second = .authSuccessful then .done (some .go) else .done (some .stop)

theorem program_gate :
    Operation.interceptRequest.program = .read fun _ => .read gateBranch := program_interceptRequest

/-- What may be left of the gate: all of it, its second read, a branch, or nothing. -/
theorem residual_interceptRequest {vs : List (Option Status)} {p : SessionM (Option ProcessAction)}
    (h : Operation.interceptRequest.program.Residual vs p) :
    p = (.read fun _ => .read gateBranch) ∨ p = .read gateBranch ∨
      (∃ first ∈ vs, p = gateBranch first) ∨ ∃ a, p = .done a := by
  rw [program_gate] at h
  induction h with
  | start => exact .inl rfl
  | @read vs k v h ih =>
    rcases ih with heq | heq | ⟨first, hfirst, heq⟩ | ⟨a, heq⟩
    · cases heq
      exact .inr (.inl rfl)
    · cases heq
      exact .inr (.inr (.inl ⟨v, List.mem_cons_self, rfl⟩))
    · unfold gateBranch at heq
      split at heq
      · cases heq
      · cases heq
        refine .inr (.inr (.inr ?_))
        dsimp only
        split <;> exact ⟨_, rfl⟩
    · cases heq

theorem Operation.writesLast (o : Operation) : o.program.WritesLast := by
  by_cases ho : o = .interceptRequest
  · subst ho
    rw [program_gate]
    intro _ first
    show (gateBranch first).WritesLast
    unfold gateBranch
    split
    · exact ⟨_, rfl⟩
    · intro second
      dsimp only
      split <;> trivial
  · exact (Operation.single ho).writesLast

section

variable {ι : Type}

/-- **The gate is validated.**  Its write finds the status unset still, and its last read
finds a status that was set already. -/
theorem interceptRequest_agrees {s : Calls ι} {i : ι} {u : String} {vs : List (Option Status)}
    {p : SessionM (Option ProcessAction)} {r : Option ProcessAction × Option Status}
    (honce : OnceInv (fun v => statusOf v = .unavailable) (some .authPending) s)
    (hseen : SeenSet (fun v => statusOf v = .unavailable) s) (hi : s.party i = some (u, p))
    (hres : Operation.interceptRequest.program.Residual vs p)
    (hread : ∀ v ∈ vs, .read i u v ∈ s.history) (hlast : p.last (s.cells u) = some r) :
    Operation.interceptRequest.program.run (s.cells u) = r := by
  rw [Operation.program_run]
  dsimp only
  rw [interceptRequest_run]
  rcases residual_interceptRequest hres with rfl | rfl | ⟨first, hfirst, rfl⟩ | ⟨a, rfl⟩
  · cases hlast
  · simp only [Prog.last, gateBranch] at hlast
    split at hlast <;> cases hlast
  · by_cases hu : statusOf first = .unavailable
    · have hp : gateBranch first = .write (some .authPending) (.done (some .go)) := if_pos hu
      rw [hp] at hi hlast
      have hnow : statusOf (s.cells u) = .unavailable := honce.waiting i u _ hi rfl
      rw [if_pos hnow]
      exact Option.some.inj hlast
    · have hnow : statusOf (s.cells u) ≠ .unavailable := hseen i u first (hread first hfirst) hu
      rw [gateBranch, if_neg hu] at hlast
      rw [if_neg hnow]
      simp only [Prog.last] at hlast
      split at hlast
      · rename_i hs
        rw [if_pos hs]
        exact Option.some.inj hlast
      · rename_i hs
        rw [if_neg hs]
        exact Option.some.inj hlast
  · cases hlast

variable [DecidableEq ι]

/-- **Every last access agrees with its whole call**, in exclusive runs. -/
theorem validated : Validated (fun _ => none) Operation.program
    (Exclusive (ι := ι) (κ := String) (some .authPending))
    (fun s => OnceInv (fun v => statusOf v = .unavailable) (some .authPending) s ∧
      SeenSet (fun v => statusOf v = .unavailable) s) where
  init := ⟨⟨nofun, nofun, nofun, fun _ _ => rfl, fun _ => Nat.zero_le _, nofun⟩, nofun⟩
  preserves := once_preserves Operation.guarded Operation.nextWrite
  writesLast := Operation.writesLast
  agrees := by
    rintro s i u o vs p r ⟨honce, hseen⟩ hi hres hread hlast
    by_cases ho : o = .interceptRequest
    · subst ho
      exact interceptRequest_agrees honce hseen hi hres hread hlast
    · exact (Operation.single ho).agrees hres hlast

/-- **Overlapping calls decide as calls in one piece.**  Read at the last accesses of its
calls, every exclusive run is a run of the same calls in one piece; it leaves the same
statuses, and each call that is over returned the same. -/
theorem operations_linearizable {as : List (Cell.Move ι String Operation)} {s : Calls ι}
    (hex : (operationPool ι).Along (Exclusive (some .authPending)) (operationPool ι).init as)
    (hrun : (operationPool ι).run as = some s) :
    ∃ t, (operations ι).run ((operationPool ι).trace (linearization Operation.program)
        (operationPool ι).init as) = some t ∧ t.cells = s.cells ∧
      ∀ i u a, s.party i = some (u, .done a) ↔ t.calls i = some (u, .returned a) :=
  linearizable validated hex hrun

/-- Two requests and the filter of a content message overlap; the outcome is recorded before
the second request reads the status it decides on. -/
def overlappingRun : List (Cell.Move (Fin 4) String Operation) :=
  [.start 0 "u" .interceptRequest, .start 1 "u" .interceptRequest,
    .start 2 "u" (.interceptBroadcast {}), .advance 1, .advance 0, .advance 0, .advance 0,
    .advance 1,
    .start 3 "u" (.onBroadcast { type := some .successfulAuthenticationResponse }), .advance 3,
    .advance 2, .advance 1]

/-- The same calls in the order of their last accesses. -/
def overlappingCalls : List (Atomic.Move (Fin 4) String Operation) :=
  [.invoke 0 "u" .interceptRequest, .invoke 1 "u" .interceptRequest,
    .invoke 2 "u" (.interceptBroadcast {}), .perform 0,
    .invoke 3 "u" (.onBroadcast { type := some .successfulAuthenticationResponse }), .perform 3,
    .perform 2, .perform 1]

set_option maxRecDepth 10000 in
theorem operations_linearizable_overlapping : ∃ s t,
    (operationPool (Fin 4)).run overlappingRun = some s ∧
      (operations (Fin 4)).run overlappingCalls = some t ∧ t.cells = s.cells ∧
      t.calls 1 = some ("u", .returned (some .go)) := by
  obtain ⟨s, hrun, hs⟩ := System.run_any (operationPool (Fin 4)) overlappingRun
    (fun s => decide ((s.party 1).map (fun x => (x.1, x.2.result)) = some ("u", some (some .go))))
    (by decide)
  obtain ⟨t, ht, hcells, hcalls⟩ := operations_linearizable (by decide) hrun
  obtain ⟨⟨u, p⟩, hparty, hp⟩ := Option.map_eq_some_iff.1 (of_decide_eq_true hs)
  obtain ⟨rfl, hp⟩ := Prod.mk.inj hp
  have hdone : p = .done (some .go) := Prog.result_eq_some.1 hp
  subst hdone
  exact ⟨s, t, hrun, ht, hcells, (hcalls 1 "u" _).1 hparty⟩

end

end Amps
