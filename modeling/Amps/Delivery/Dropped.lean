import Amps.Core.Invariant

/-!
# What a dropped request leaves behind

The gate drops a request by answering `SKIP_ATMOSPHEREHANDLER`: no resource method runs for
it.  Nothing of it reaches the rest of the service.

* `State.dropped` — the requests the gate turned down.
* `Without` — a state, and the same state if they had never arrived.
* `dropped_leave_no_trace` — **deleting the arrivals of all dropped requests from a run
  leaves a run**, with the same sessions, channels, connections and history otherwise.
-/

namespace Amps

open Transition

/-- Was the request turned down by the gate? -/
def State.dropped (s : State) (id : ResourceId) : Bool :=
  (s.connections id).any fun c => c.phase = .dropped

/-- The step is not the arrival of one of these requests. -/
def Move.arrivesNone (D : ResourceId → Bool) : Move → Bool
  | .inspect id .. => !D id
  | _ => true

/-- The event is not the inspection of one of these requests. -/
def Event.inspectsNone (D : ResourceId → Bool) : Event → Bool
  | .inspected id .. => !D id
  | _ => true

/-- `t` is `s` without the dropped requests `D`. -/
structure Without (D : ResourceId → Bool) (s t : State) : Prop where
  sessions : t.sessions = s.sessions
  factory : t.factory = s.factory
  connections : ∀ id, t.connections id = if D id then none else s.connections id
  history : t.history = s.history.filter (Event.inspectsNone D)
  dropped : ∀ id c, s.connections id = some c → D id = decide (c.phase = .dropped)

/-- The gate drops the request if and only if it is one of `D`. -/
def DropsOnly (D : ResourceId → Bool) (s : State) : Move → Prop
  | .inspect id .. => D id = decide ((inspect.run (s.sessions id.uuid)).1 ≠ .continue)
  | _ => True

section

variable {P : Platform} {D : ResourceId → Bool} {s t s' : State} {m : Move} {id : ResourceId}
  {c : Connection}

/-- What a request that goes on finds without the dropped ones. -/
theorem Without.connection (h : Without D s t) (hc : s.connections id = some c)
    (hphase : c.phase ≠ .dropped) : t.connections id = some c := by
  have hD : D id = false := by rw [h.dropped id c hc, decide_eq_false hphase]
  rw [h.connections, hD, if_neg Bool.false_ne_true, hc]

/-- The same change made to a request that goes on. -/
theorem Without.put (h : Without D s t) (hD : D id = false) (hphase : c.phase ≠ .dropped)
    {v : Option Status} {f : BroadcasterFactory} {es : List Event}
    (hes : ∀ e ∈ es, e.inspectsNone D = true) :
    Without D (s.put id c v f es) (t.put id c v f es) where
  sessions := by simp only [State.put, h.sessions]
  factory := rfl
  connections id' := by
    by_cases hid : id' = id
    · subst hid
      simp [hD]
    · rw [State.put_connections_of_ne hid, State.put_connections_of_ne hid, h.connections]
  history := by
    rw [State.put_history, State.put_history, List.filter_append, List.filter_eq_self.2 hes,
      h.history]
  dropped id' c' hc' := by
    rcases State.put_connections_eq_some.1 hc' with ⟨rfl, rfl⟩ | ⟨-, hc'⟩
    · rw [hD, decide_eq_false hphase]
    · exact h.dropped id' c' hc'

theorem Without.status (h : Without D s t) (u : String) : t.status u = s.status u := by
  rw [State.status, h.sessions, State.status]

theorem Without.none (h : Without D s t) (hnew : s.connections id = none) :
    t.connections id = none := by
  rw [h.connections, hnew, ite_self]

/-- A request that is not turned down is matched from a state without the dropped ones. -/
theorem without_inspected (h : Without D s t) {header : Option String} {call : Call}
    (hC : DropsOnly D s (.inspect id header call)) (hD : D id = false)
    (hnew : s.connections id = none) (hs : Effect P s (.inspect id header call) s') :
    ∃ t', Effect P t (.inspect id header call) t' ∧ Without D s' t' := by
  have hcont : (inspect.run (s.sessions id.uuid)).1 = .continue := by
    simpa [DropsOnly, hD] using hC
  cases hs with
  | inspected =>
    refine ⟨_, .inspected (h.none hnew), ?_⟩
    rw [h.sessions, h.factory, h.status]
    refine h.put hD ?_ ?_
    · simp [hcont]
    · simp [Event.inspectsNone, hD]

/-- **Every other step is matched** from a state without the dropped requests. -/
theorem without_kept (h : Without D s t) (hC : DropsOnly D s m) (hK : m.arrivesNone D = true)
    (hs : Effect P s m s') : ∃ t', Effect P t m t' ∧ Without D s' t' := by
  -- a request that is not dropped, and a change that does not drop it
  have hput : ∀ {id : ResourceId} {c c' : Connection} {v f es}, s.connections id = some c →
      c.phase ≠ .dropped → c'.phase ≠ .dropped → (∀ e ∈ es, e.inspectsNone D = true) →
      Without D (s.put id c' v f es) (t.put id c' v f es) := by
    intro id c c' v f es hc hphase hphase' hes
    exact h.put (by rw [h.dropped id c hc, decide_eq_false hphase]) hphase' hes
  cases hs with
  | @inspected id header call hnew =>
    exact without_inspected h hC (by simpa [Move.arrivesNone] using hK) hnew (.inspected hnew)
  | @joined id c endpoint ch l hc hphase hcall hsub =>
    have hp : c.phase ≠ .dropped := by simp [hphase]
    refine ⟨_, .joined (h.connection hc hp) hphase hcall hsub, ?_⟩
    rw [h.sessions, h.factory]
    refine hput hc hp (by simp) ?_
    unfold checkEvents
    split <;> simp [Event.inspectsNone]
  | @published id c m' ch l hc hphase hcall hsub =>
    have hp : c.phase ≠ .dropped := by simp [hphase]
    refine ⟨_, .published (h.connection hc hp) hphase hcall hsub, ?_⟩
    rw [h.sessions, h.factory, h.status]
    exact hput hc hp (by simp) (by simp [Event.inspectsNone])
  | @broadcasted id c ns m' hc hphase hcall =>
    have hp : c.phase ≠ .dropped := by simp [hphase]
    refine ⟨_, .broadcasted (h.connection hc hp) hphase hcall, ?_⟩
    rw [h.sessions, h.factory, h.status]
    exact hput hc hp (by simp) (by simp [Event.inspectsNone])
  | @crashed id c hc hphase hthrow =>
    have hp : c.phase ≠ .dropped := by simp [hphase]
    refine ⟨_, .crashed (h.connection hc hp) hphase hthrow, ?_⟩
    rw [h.sessions, h.factory]
    exact hput hc hp (by simp) (by simp)
  | @suspended id c hc hphase =>
    have hp : c.phase ≠ .dropped := by simp [hphase]
    refine ⟨_, .suspended (h.connection hc hp) hphase, ?_⟩
    rw [h.sessions, h.factory]
    exact hput hc hp (by simp) (by simp [Event.inspectsNone])
  | @taken ch i q e hq he =>
    refine ⟨_, .taken (by rw [h.factory]; exact hq) he, ?_⟩
    refine ⟨h.sessions, by rw [h.factory], ?_, h.history, ?_⟩
    · intro id
      dsimp only
      rw [h.connections]
      cases D id <;> simp
    · intro id c' hc'
      obtain ⟨c, hc, rfl⟩ := Option.map_eq_some_iff.1 hc'
      rw [h.dropped id c hc, (c.offer_eq ch e).2.2.1]
  | @filtered id i c e ch hc hrec he hch =>
    have hp : c.phase ≠ .dropped := Phase.ne_of_live (Connection.live_of_receiving hrec) rfl
    refine ⟨_, .filtered (h.connection hc hp) hrec he hch, ?_⟩
    rw [h.sessions, h.factory, h.status]
    exact hput hc hp hp (by simp [Event.inspectsNone])
  | @notified id i c e hc hrec he =>
    have hp : c.phase ≠ .dropped := Phase.ne_of_live (Connection.live_of_receiving hrec) rfl
    refine ⟨_, .notified (h.connection hc hp) hrec he, ?_⟩
    rw [h.sessions, h.factory]
    refine hput hc hp ?_ (by simp [Event.inspectsNone])
    exact fun hd => hp ((fireOnBroadcast_phase _ _ _ _).dropped.1 hd)
  | @disconnected id c hc hphase =>
    have hp : c.phase ≠ .dropped := by simp [hphase]
    refine ⟨_, .disconnected (h.connection hc hp) hphase, ?_⟩
    rw [h.factory]
    exact hput hc hp (by simp) (by simp [Event.inspectsNone])

/-- **The arrival of a dropped request changes nothing else.** -/
theorem without_deleted (h : Without D s t) (hC : DropsOnly D s m) (hK : m.arrivesNone D = false)
    (hs : Effect P s m s') : Without D s' t := by
  cases hs with
  | @inspected id header call hnew =>
    have hD : D id = true := by simpa [Move.arrivesNone] using hK
    have hskip : (inspect.run (s.sessions id.uuid)).1 ≠ .continue := by
      simpa [DropsOnly, hD] using hC
    have hvalue : (inspect.run (s.sessions id.uuid)).2 = s.sessions id.uuid := by
      rw [inspect_run] at hskip ⊢
      split at hskip
      · exact absurd rfl hskip
      · rename_i hu
        rw [if_neg hu]
        split <;> rfl
    refine ⟨?_, h.factory, ?_, ?_, ?_⟩
    · rw [h.sessions, State.put, hvalue, Function.update_eq_self]
    · intro id'
      by_cases hid : id' = id
      · rw [hid, hD, if_pos rfl, h.none hnew]
      · rw [State.put_connections_of_ne hid, h.connections]
    · rw [State.put_history, h.history, List.filter_append]
      simp [Event.inspectsNone, hD]
    · intro id' c' hc'
      rcases State.put_connections_eq_some.1 hc' with ⟨rfl, rfl⟩ | ⟨-, hc'⟩
      · rw [hD, if_neg hskip]
        rfl
      · exact h.dropped id' c' hc'
  | joined | published | broadcasted | crashed | suspended | taken | filtered | notified
  | disconnected => cases hK

/-- A request stays dropped, or stays not dropped. -/
theorem dropped_runFrom {as : List Move} (hc : s.connections id = some c)
    (h : (service P).runFrom s as = some t) : t.dropped id = decide (c.phase = .dropped) := by
  have hpres : (service P).Preserves (fun _ _ => True)
      fun s => s.dropped id = decide (c.phase = .dropped) ∧ s.connections id ≠ none := by
    rintro s m u ⟨hs, hne⟩ - hstep
    obtain ⟨c₁, hc₁⟩ := Option.ne_none_iff_exists'.1 hne
    obtain ⟨c₂, hc₂, hev⟩ := (effect_of_step hstep).evolves hc₁
    refine ⟨?_, by rw [hc₂]; exact Option.some_ne_none _⟩
    rw [← hs, State.dropped, State.dropped, hc₁, hc₂]
    simp only [Option.any_some, hev.phase.dropped]
  refine (System.invariant_runFrom hpres ⟨?_, ?_⟩
    (System.along_of_forall (C := fun _ => True) fun _ _ => trivial) h).1
  · rw [State.dropped, hc]
    rfl
  · rw [hc]
    exact Option.some_ne_none _

/-- What the gate decides on an arrival is read off the state the run ends in. -/
theorem dropsOnly_runFrom {as : List Move} (h : (service P).runFrom s as = some t) :
    (service P).Along (DropsOnly t.dropped) s as := by
  induction as generalizing s with
  | nil => trivial
  | cons m as ih =>
    obtain ⟨u, hu, hrest⟩ := (service P).runFrom_cons_eq_some.1 h
    refine ⟨?_, ?_⟩
    · have hs : Effect P s m u := effect_of_step hu
      cases hs with
      | @inspected id header call hnew =>
        have hfinal := dropped_runFrom State.put_connections_self hrest
        rw [DropsOnly, hfinal]
        by_cases hcont : (inspect.run (s.sessions id.uuid)).1 = .continue <;> simp [hcont]
      | joined | published | broadcasted | crashed | suspended | taken | filtered | notified
      | disconnected => trivial
    · intro u' hu'
      rw [hu] at hu'
      cases hu'
      exact ih hrest

/-- **Dropped requests leave no trace.**  Delete their arrivals from a run: what remains is a
run, and it ends in the same state but for their own connections and inspections. -/
theorem dropped_leave_no_trace {as : List Move} (hrun : (service P).run as = some s) :
    ∃ t, (service P).run (as.filter (Move.arrivesNone s.dropped)) = some t ∧
      t.sessions = s.sessions ∧ t.factory = s.factory ∧
      (∀ id, t.connections id = if s.dropped id then none else s.connections id) ∧
      t.history = s.history.filter (Event.inspectsNone s.dropped) := by
  have hinit : Without s.dropped State.initial State.initial :=
    ⟨rfl, rfl, fun _ => (ite_self _).symm, rfl, fun _ _ hc => by cases hc⟩
  obtain ⟨t, ht, h⟩ := System.run_purge (T := service P) (R := Without s.dropped)
    (C := DropsOnly s.dropped) (K := Move.arrivesNone s.dropped)
    (fun s t m s' hC hK hR hstep => by
      obtain ⟨t', ht', hR'⟩ := without_kept hR hC hK (effect_of_step hstep)
      exact ⟨t', step_of_effect ht', hR'⟩)
    (fun s t m s' hC hK hR hstep => without_deleted hR hC hK (effect_of_step hstep))
    (dropsOnly_runFrom hrun) hinit hrun
  exact ⟨t, ht, h.sessions, h.factory, h.connections, h.history⟩

/-- A `POST` arrives before the outcome of the first request of its session. -/
def droppedRun : List Move :=
  [.inspect ⟨"a", 0⟩ (some (ContextKey.json ⟨1, .desktop, "t"⟩)) (.subscribe .message),
    .inspect ⟨"a", 1⟩ (some (ContextKey.json ⟨1, .desktop, "t"⟩)) (.publish {}),
    .handle ⟨"a", 0⟩, .suspend ⟨"a", 0⟩, .take "/1/DESKTOP/t" 0, .filter ⟨"a", 0⟩ 0,
    .notify ⟨"a", 0⟩ 0]

set_option maxRecDepth 10000 in
theorem dropped_leave_no_trace_dropped : ∃ s t,
    (service (.reading [⟨1, .desktop, "t"⟩])).run droppedRun = some s ∧
      s.dropped ⟨"a", 1⟩ = true ∧ s.status "a" = .authSuccessful ∧
      (service (.reading [⟨1, .desktop, "t"⟩])).run
        (droppedRun.filter (Move.arrivesNone s.dropped)) = some t ∧
      t.connections ⟨"a", 1⟩ = none ∧ t.sessions = s.sessions := by
  obtain ⟨s, hrun, hs⟩ := System.run_any (service (.reading [⟨1, .desktop, "t"⟩])) droppedRun
    (fun s => decide (s.dropped ⟨"a", 1⟩ = true ∧ s.status "a" = .authSuccessful)) (by decide)
  obtain ⟨hdropped, hstatus⟩ := of_decide_eq_true hs
  obtain ⟨t, ht, hsessions, -, hconnections, -⟩ := dropped_leave_no_trace hrun
  exact ⟨s, t, hrun, hdropped, hstatus, ht, by rw [hconnections, hdropped, if_pos rfl], hsessions⟩

end

end Amps
