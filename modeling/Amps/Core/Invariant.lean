import Amps.Core.Service

/-!
# What holds in every state of the service

The facts about a run that need no assumption on the clients.

* `Connection.Ok` — a connection that joined a channel sits on the channel of its
  own request and carries the one handshake listener `doGET` chose for it.
* `Genuine` — every message on a channel, or on its way from it, was put there by
  the `onSuspend` listener of a connection of that channel or is the body of a
  `POST`.
* `WellFormed` — the invariant, and `wellFormed_run`: every run keeps it.
* `Effect.evolves` — what a step can change of a connection that exists.
* `State.Only` — between two states of a run only events of one kind happened.
-/

namespace Amps

open Transition

/-! ## Phases -/

/-- Suspended now or before. -/
def Phase.live : Phase → Bool
  | .suspended | .resumed | .closed => true
  | _ => false

/-- `doGET` returned. -/
def Phase.joined (p : Phase) : Bool := p = .ready || p.live

/-- Still to run, to suspend, or suspended. -/
def Phase.isOpen : Phase → Bool
  | .admitted | .ready | .suspended => true
  | _ => false

/-- What a request can become in one step, unless it stays what it is. -/
def Phase.next : Phase → List Phase
  | .admitted => [.ready, .answered, .crashed]
  | .ready => [.suspended]
  | .suspended => [.resumed, .closed]
  | _ => []

/-- A request stays what it is, or goes on. -/
def Phase.Steps (p q : Phase) : Prop := q = p ∨ q ∈ p.next

namespace Phase

variable {p q : Phase}

@[simp] theorem joined_ready : Phase.ready.joined = true := rfl

@[simp] theorem joined_suspended : Phase.suspended.joined = true := rfl

@[simp] theorem joined_dropped : Phase.dropped.joined = false := rfl

theorem joined_of_live (h : p.live = true) : p.joined = true := by
  simp [joined, h]

theorem steps_resume (p : Phase) : p.Steps p.resume := by
  cases p <;> simp [Steps, next, resume]

theorem Steps.live (h : p.Steps q) (hp : p.live = true) : q.live = true := by
  rcases h with rfl | h
  · exact hp
  · cases p <;> simp_all [next, Phase.live]
    rcases h with rfl | rfl <;> rfl

theorem Steps.joined (h : p.Steps q) (hp : p.joined = true) : q.joined = true := by
  rcases h with rfl | h
  · exact hp
  · cases p <;> simp_all [next, Phase.joined, Phase.live]
    rcases h with rfl | rfl <;> simp

theorem Steps.dropped (h : p.Steps q) : q = .dropped ↔ p = .dropped := by
  rcases h with rfl | h
  · exact .rfl
  · cases p <;> cases q <;> simp_all [next]

theorem Steps.answered (h : p.Steps q) (hp : p = .answered) : q = .answered := by
  rcases h with rfl | h
  · exact hp
  · rw [hp] at h
    cases h

theorem Steps.suspended (h : p.Steps .suspended) : p = .suspended ∨ p = .ready := by
  cases p <;> simp [Steps, next] at h ⊢

theorem Steps.resumed (h : p.Steps .resumed) : p = .resumed ∨ p = .suspended := by
  cases p <;> simp [Steps, next] at h ⊢

theorem Steps.isOpen (h : p.Steps q) (hq : q.isOpen = true) : p.isOpen = true := by
  rcases h with rfl | h
  · exact hq
  · cases p <;> simp_all [next, Phase.isOpen]

theorem ne_of_live (h : p.live = true) (hq : q.live = false) : p ≠ q := by
  rintro rfl
  simp [h] at hq

end Phase

theorem Connection.live_of_receiving {c : Connection} (h : c.receiving = true) :
    c.phase.live = true := by
  simp only [Connection.receiving, Bool.or_eq_true, decide_eq_true_eq] at h
  rcases h with h | h <;> rw [h] <;> rfl

/-- A connection on its channel is suspended. -/
theorem Connection.subscribed {c : Connection} {ch : String} (h : c.subscribedTo ch = true) :
    c.phase = .suspended ∧ c.resource.broadcaster = some ch := by
  simpa [Connection.subscribedTo] using h

/-- The listeners of a connection leave it as it is, or resume it. -/
theorem fireOnBroadcast_phase (m : Message) (r : AtmosphereResource) (v : Option Status)
    (p : Phase) : p.Steps (fireOnBroadcast m r (v, p)).2 := by
  have hcases : ∀ (ls : List Listener) (x : Option Status × Phase),
      (ls.foldl (fun x l => l.onBroadcast m x) x).2 = x.2 ∨
        (ls.foldl (fun x l => l.onBroadcast m x) x).2 = x.2.resume := by
    intro ls
    induction ls with
    | nil => exact fun x => .inl rfl
    | cons l ls ih =>
      intro x
      rcases ih (l.onBroadcast m x) with h | h <;> rw [List.foldl_cons, h]
      · cases l with
        | webSocketEventListenerAdapterImpl => exact .inl rfl
        | authentionSuccess => exact .inl rfl
        | clientError messageType errorMessage => exact .inr rfl
      · cases l with
        | webSocketEventListenerAdapterImpl => exact .inr rfl
        | authentionSuccess => exact .inr rfl
        | clientError messageType errorMessage =>
          exact .inr (by simp only [Listener.onBroadcast]; cases x.2 <;> rfl)
  unfold fireOnBroadcast
  rcases hcases r.listeners (v, p) with h | h <;> rw [h]
  · exact .inl rfl
  · exact Phase.steps_resume _

/-! ## One connection -/

theorem subscription_congr {P : Platform} {r r' : AtmosphereResource} (hu : r'.uuid = r.uuid)
    (hh : r'.contextHeader = r.contextHeader) : subscription P r' = subscription P r := by
  cases r
  cases r'
  cases hu
  cases hh
  rfl

/-- A connection as the service builds it. -/
structure Connection.Ok (P : Platform) (id : ResourceId) (c : Connection) : Prop where
  uuid : c.resource.uuid = id.uuid
  untouched : c.phase = .admitted → c.resource.broadcaster = none ∧ c.resource.listeners = []
  joined : c.phase.joined = true → c.call.isGET = true ∧ ∃ ch l,
    subscription P c.resource = some (ch, l) ∧ c.resource.broadcaster = some ch ∧
      c.resource.listeners =
        l :: if c.phase = .ready then [] else [.webSocketEventListenerAdapterImpl]
  quiet : c.phase.live = false → c.offered = [] ∧ c.passed = []

/-- A connection that suspended is that of a `GET`, and has two listeners: the one `doGET`
chose, and the one `@Suspend` names. -/
theorem Connection.Ok.live {P : Platform} {id : ResourceId} {c : Connection} (h : c.Ok P id)
    (hlive : c.phase.live = true) : c.call.isGET = true ∧ ∃ ch l,
      subscription P c.resource = some (ch, l) ∧ c.resource.broadcaster = some ch ∧
        c.resource.listeners = [l, .webSocketEventListenerAdapterImpl] := by
  obtain ⟨hget, ch, l, hsub, hb, hl⟩ := h.joined (Phase.joined_of_live hlive)
  rw [if_neg (Phase.ne_of_live hlive rfl)] at hl
  exact ⟨hget, ch, l, hsub, hb, hl⟩

/-- The listeners of a suspending connection broadcast its one outcome on its own
channel. -/
theorem Connection.Ok.fireOnSuspend {P : Platform} {id : ResourceId} {c : Connection}
    (h : c.Ok P id) (hphase : c.phase = .ready) (f : BroadcasterFactory) :
    ∃ ch l m, subscription P c.resource = some (ch, l) ∧ c.resource.broadcaster = some ch ∧
      l.onSuspend = some m ∧
      Amps.fireOnSuspend f id (c.resource.addEventListener .webSocketEventListenerAdapterImpl) =
        f.broadcast ch ⟨m, .service id⟩ := by
  obtain ⟨-, ch, l, hsub, hb, hl⟩ := h.joined (by simp [hphase])
  obtain ⟨m, hm⟩ := onSuspend_of_subscription hsub
  refine ⟨ch, l, m, hsub, hb, hm, ?_⟩
  rw [if_pos hphase] at hl
  have hout : [l, .webSocketEventListenerAdapterImpl].filterMap Listener.onSuspend = [m] := by
    rw [List.filterMap_cons_some hm]
    rfl
  simp only [Amps.fireOnSuspend, AtmosphereResource.addEventListener, hb, hl, List.cons_append,
    List.nil_append, hout, List.foldl_cons, List.foldl_nil]

/-- The listeners of a live connection record a delivered outcome, and resume the
connection when its own request was turned down. -/
theorem Connection.Ok.fireOnBroadcast {P : Platform} {id : ResourceId} {c : Connection}
    (h : c.Ok P id) (hlive : c.phase.live = true) (m : Message) (x : Option Status × Phase) :
    Amps.fireOnBroadcast m c.resource x =
      (m.record x.1, if c.resource.listeners.any Listener.resumes then x.2.resume else x.2) := by
  obtain ⟨-, ch, l, hsub, hb, hl⟩ := h.live hlive
  obtain ⟨o, ho⟩ := onSuspend_of_subscription hsub
  cases l with
  | webSocketEventListenerAdapterImpl => cases ho
  | authentionSuccess =>
    simp [Amps.fireOnBroadcast, hl, Listener.onBroadcast, onBroadcast_run, Listener.resumes]
  | clientError messageType errorMessage =>
    simp [Amps.fireOnBroadcast, hl, Listener.onBroadcast, onBroadcast_run, Listener.resumes]

/-- A connection that joined a channel sits on that of its request. -/
theorem Connection.Ok.channelOf_eq {P : Platform} {id : ResourceId} {c : Connection}
    (h : c.Ok P id) (hj : c.phase.joined = true) :
    channelOf P c.resource = c.resource.broadcaster := by
  obtain ⟨-, ch, l, hsub, hb, -⟩ := h.joined hj
  simp [channelOf, hsub, hb]

/-- A connection with an accepted context sits on the channel of that context. -/
theorem Connection.Ok.channel {P : Platform} {id : ResourceId} {c : Connection} {k : ContextKey}
    (h : c.Ok P id) (hj : c.phase.joined = true)
    (hk : presented P c.resource.contextHeader = some k) :
    c.resource.broadcaster = some k.broadcasterId := by
  rw [← h.channelOf_eq hj, channelOf_of_presented hk]

/-- A connection whose context was turned down sits on the channel of its uuid. -/
theorem Connection.Ok.fallback {P : Platform} {id : ResourceId} {c : Connection}
    (h : c.Ok P id) (hj : c.phase.joined = true)
    (hk : presented P c.resource.contextHeader = none) :
    c.resource.broadcaster = some id.uuid := by
  obtain ⟨-, ch, -, -, hb, -⟩ := h.joined hj
  have hch : channelOf P c.resource = some ch := by rw [h.channelOf_eq hj, hb]
  rcases channelOf_cases hch with ⟨k, hk', -⟩ | ⟨-, hu⟩
  · rw [hk] at hk'; cases hk'
  · rw [hb, hu, h.uuid]

/-- What a step can change of a connection. -/
structure Connection.Evolves (c c' : Connection) : Prop where
  call : c'.call = c.call
  uuid : c'.resource.uuid = c.resource.uuid
  header : c'.resource.contextHeader = c.resource.contextHeader
  channel : c.phase.live = true → c'.resource.broadcaster = c.resource.broadcaster
  phase : c.phase.Steps c'.phase

/-- A connection that is not live may join another channel when it goes on. -/
theorem Connection.Evolves.advance {c c' : Connection} {p : Phase} (hp : c.phase = p)
    (hlive : p.live = false) (hnext : c'.phase ∈ p.next) (hcall : c'.call = c.call)
    (huuid : c'.resource.uuid = c.resource.uuid)
    (hheader : c'.resource.contextHeader = c.resource.contextHeader) : c.Evolves c' := by
  subst hp
  exact ⟨hcall, huuid, hheader, by simp [hlive], .inr hnext⟩

theorem Connection.Evolves.refl (c : Connection) : c.Evolves c :=
  ⟨rfl, rfl, rfl, fun _ => rfl, .inl rfl⟩

theorem Connection.offer_eq (ch : String) (e : Envelope) (c : Connection) :
    (c.offer ch e).resource = c.resource ∧ (c.offer ch e).call = c.call ∧
      (c.offer ch e).phase = c.phase ∧ (c.offer ch e).passed = c.passed := by
  unfold Connection.offer
  split <;> exact ⟨rfl, rfl, rfl, rfl⟩

theorem Connection.mem_offered_offer {ch : String} {e e' : Envelope} {c : Connection}
    (h : e' ∈ (c.offer ch e).offered) : e' ∈ c.offered ∨ (e' = e ∧ c.subscribedTo ch = true) := by
  unfold Connection.offer at h
  split at h
  · rename_i hsub
    rcases List.mem_append.1 h with h | h
    · exact .inl h
    · exact .inr ⟨List.mem_singleton.1 h, hsub⟩
  · exact .inl h

theorem Connection.mem_inFlight_offer {ch : String} {e e' : Envelope} {c : Connection}
    (h : e' ∈ c.inFlight ∨ (e' = e ∧ c.subscribedTo ch = true)) : e' ∈ (c.offer ch e).inFlight := by
  unfold Connection.offer
  split
  · rcases h with h | ⟨rfl, -⟩
    · rcases List.mem_append.1 h with ho | hp
      · exact List.mem_append_left _ (List.mem_append_left _ ho)
      · exact List.mem_append_right _ hp
    · exact List.mem_append_left _ (List.mem_append_right _ (List.mem_singleton.2 rfl))
  · rename_i hsub
    exact h.resolve_right fun hs => hsub hs.2

theorem Connection.mem_inFlight_of_offered {c : Connection} {i : Nat} {e : Envelope}
    (h : c.offered[i]? = some e) : e ∈ c.inFlight :=
  List.mem_append_left _ (List.mem_of_getElem? h)

theorem Connection.mem_inFlight_of_passed {c : Connection} {i : Nat} {e : Envelope}
    (h : c.passed[i]? = some e) : e ∈ c.inFlight :=
  List.mem_append_right _ (List.mem_of_getElem? h)

theorem Connection.evolves_offer (ch : String) (e : Envelope) (c : Connection) :
    c.Evolves (c.offer ch e) := by
  obtain ⟨hr, hc, hp, -⟩ := c.offer_eq ch e
  exact ⟨hc, by rw [hr], by rw [hr], fun _ => by rw [hr], .inl hp⟩

section

variable {P : Platform} {s t : State} {m : Move}

/-- **A step keeps the request behind a connection**, and the channel of one that
suspended. -/
theorem Effect.evolves (h : Effect P s m t) {id : ResourceId} {c : Connection}
    (hc : s.connections id = some c) : ∃ c', t.connections id = some c' ∧ c.Evolves c' := by
  -- all steps but `take` replace one connection, and leave the others alone
  have hput : ∀ {id' : ResourceId} {c₀ c' : Connection} {v f es},
      s.connections id' = some c₀ → c₀.Evolves c' →
        ∃ c'', (s.put id' c' v f es).connections id = some c'' ∧ c.Evolves c'' := by
    intro id' c₀ c' v f es hc₀ hev
    by_cases hid : id = id'
    · subst hid
      rw [hc, Option.some.injEq] at hc₀
      exact ⟨c', State.put_connections_self, hc₀ ▸ hev⟩
    · exact ⟨c, by rwa [State.put_connections_of_ne hid], .refl c⟩
  cases h with
  | @inspected id' header call hnew =>
    have hid : id ≠ id' := by rintro rfl; simp [hc] at hnew
    exact ⟨c, by rwa [State.put_connections_of_ne hid], .refl c⟩
  | joined hc₀ hphase =>
    exact hput hc₀ (.advance hphase rfl (by simp [Phase.next]) rfl rfl rfl)
  | published hc₀ hphase =>
    exact hput hc₀ (.advance hphase rfl (by simp [Phase.next]) rfl (by simp) (by simp))
  | broadcasted hc₀ hphase =>
    exact hput hc₀ (.advance hphase rfl (by simp [Phase.next]) rfl rfl rfl)
  | crashed hc₀ hphase =>
    exact hput hc₀ (.advance hphase rfl (by simp [Phase.next]) rfl rfl rfl)
  | suspended hc₀ hphase =>
    exact hput hc₀ (.advance hphase rfl (by simp [Phase.next]) rfl rfl rfl)
  | @taken ch i q e hq he =>
    exact ⟨c.offer ch e, by simp [hc], c.evolves_offer ch e⟩
  | filtered hc₀ hrec he hch =>
    exact hput hc₀ ⟨rfl, rfl, rfl, fun _ => rfl, .inl rfl⟩
  | notified hc₀ hrec he =>
    exact hput hc₀ ⟨rfl, rfl, rfl, fun _ => rfl, fireOnBroadcast_phase _ _ _ _⟩
  | disconnected hc₀ hphase =>
    exact hput hc₀ ⟨rfl, rfl, rfl, fun _ => rfl, .inr (by simp [hphase, Phase.next])⟩

/-- A connection after a step existed before it, or the step inspected its request. -/
theorem Effect.connection_cases (h : Effect P s m t) {id : ResourceId} {c' : Connection}
    (hc' : t.connections id = some c') :
    (∃ c, s.connections id = some c ∧ c.Evolves c') ∨
      ∃ header call, m = .inspect id header call ∧ s.connections id = none ∧
        c' = { resource := id.resource header
               call := call
               phase := if (inspect.run (s.sessions id.uuid)).1 = .continue then .admitted
                 else .dropped } := by
  cases hs : s.connections id with
  | some c =>
    obtain ⟨c'', hc'', hev⟩ := h.evolves hs
    rw [hc', Option.some.injEq] at hc''
    exact .inl ⟨c, rfl, hc'' ▸ hev⟩
  | none =>
    refine .inr ?_
    cases h with
    | @inspected id' header call hnew =>
      rcases State.put_connections_eq_some.1 hc' with ⟨rfl, rfl⟩ | ⟨-, hc⟩
      · exact ⟨header, call, rfl, rfl, rfl⟩
      · simp [hs] at hc
    | joined hc₀ | published hc₀ | broadcasted hc₀ | crashed hc₀ | suspended hc₀ | filtered hc₀
    | notified hc₀ | disconnected hc₀ =>
      rcases State.put_connections_eq_some.1 hc' with ⟨rfl, rfl⟩ | ⟨-, hc⟩
      · simp [hs] at hc₀
      · simp [hs] at hc
    | taken =>
      obtain ⟨c, hc, -⟩ := Option.map_eq_some_iff.1 hc'
      simp [hs] at hc

/-- A connection joins its channel in `doGET`, which checks its context. -/
theorem Effect.joins (h : Effect P s m t) {id : ResourceId} {c c' : Connection}
    (hc : s.connections id = some c) (hc' : t.connections id = some c')
    (hj : c.phase.joined ≠ true) (hj' : c'.phase.joined = true) :
    m = .handle id ∧ t.history = checkEvents P id c.resource ++ s.history := by
  have hsame : s.connections id = some c' → False := fun hc'' => by
    rw [hc, Option.some.injEq] at hc''
    exact hj (hc'' ▸ hj')
  cases h with
  | inspected hnew =>
    rcases State.put_connections_eq_some.1 hc' with ⟨rfl, -⟩ | ⟨-, hc''⟩
    · simp [hc] at hnew
    · exact (hsame hc'').elim
  | joined hc₀ =>
    rcases State.put_connections_eq_some.1 hc' with ⟨rfl, -⟩ | ⟨-, hc''⟩
    · rw [hc, Option.some.injEq] at hc₀
      exact ⟨rfl, by rw [State.put_history, hc₀]⟩
    · exact (hsame hc'').elim
  | published hc₀ | broadcasted hc₀ | crashed hc₀ =>
    rcases State.put_connections_eq_some.1 hc' with ⟨-, rfl⟩ | ⟨-, hc''⟩
    · cases hj'
    · exact (hsame hc'').elim
  | suspended hc₀ hphase | disconnected hc₀ hphase =>
    rcases State.put_connections_eq_some.1 hc' with ⟨rfl, -⟩ | ⟨-, hc''⟩
    · rw [hc, Option.some.injEq] at hc₀
      exact (hj (by simp [hc₀, hphase])).elim
    · exact (hsame hc'').elim
  | taken =>
    obtain ⟨c₀, hc₀, rfl⟩ := Option.map_eq_some_iff.1 hc'
    rw [hc, Option.some.injEq] at hc₀
    rw [(c₀.offer_eq _ _).2.2.1, ← hc₀] at hj'
    exact (hj hj').elim
  | filtered hc₀ hrec | notified hc₀ hrec =>
    rcases State.put_connections_eq_some.1 hc' with ⟨rfl, -⟩ | ⟨-, hc''⟩
    · rw [hc, Option.some.injEq] at hc₀
      exact (hj (hc₀ ▸ Phase.joined_of_live (Connection.live_of_receiving hrec))).elim
    · exact (hsame hc'').elim

/-- A `POST` is answered in the step that ran its resource method. -/
theorem Effect.answers (h : Effect P s m t) {id : ResourceId} {c' : Connection}
    (hc' : t.connections id = some c') (ha : c'.phase = .answered) :
    ∃ c, s.connections id = some c ∧ c'.call = c.call ∧
      (c.phase = .answered ∨
        m = .handle id ∧ c.phase = .admitted ∧ c.publishes P = c.call.body) := by
  cases h with
  | inspected hnew =>
    rcases State.put_connections_eq_some.1 hc' with ⟨-, rfl⟩ | ⟨-, hc⟩
    · dsimp only at ha
      split at ha <;> cases ha
    · exact ⟨c', hc, rfl, .inl ha⟩
  | joined | crashed | suspended | disconnected =>
    rcases State.put_connections_eq_some.1 hc' with ⟨-, rfl⟩ | ⟨-, hc⟩
    · cases ha
    · exact ⟨c', hc, rfl, .inl ha⟩
  | published hc₀ hphase hcall hsub =>
    rcases State.put_connections_eq_some.1 hc' with ⟨rfl, rfl⟩ | ⟨-, hc⟩
    · refine ⟨_, hc₀, rfl, .inr ⟨rfl, hphase, ?_⟩⟩
      have hnull := denotesNull_of_subscription hsub
      simp [Connection.publishes, hcall, hnull, Call.body]
    · exact ⟨c', hc, rfl, .inl ha⟩
  | broadcasted hc₀ hphase hcall =>
    rcases State.put_connections_eq_some.1 hc' with ⟨rfl, rfl⟩ | ⟨-, hc⟩
    · exact ⟨_, hc₀, rfl, .inr ⟨rfl, hphase, by simp [Connection.publishes, hcall, Call.body]⟩⟩
    · exact ⟨c', hc, rfl, .inl ha⟩
  | @taken ch i q e hq he =>
    obtain ⟨c, hc, rfl⟩ := Option.map_eq_some_iff.1 hc'
    obtain ⟨-, hcall, hp, -⟩ := c.offer_eq ch e
    exact ⟨c, hc, hcall, .inl (by rw [← hp, ha])⟩
  | filtered hc₀ hrec =>
    rcases State.put_connections_eq_some.1 hc' with ⟨rfl, rfl⟩ | ⟨-, hc⟩
    · exact absurd ha (Phase.ne_of_live (Connection.live_of_receiving hrec) rfl)
    · exact ⟨c', hc, rfl, .inl ha⟩
  | notified hc₀ hrec =>
    rcases State.put_connections_eq_some.1 hc' with ⟨rfl, rfl⟩ | ⟨-, hc⟩
    · refine absurd ha (Phase.ne_of_live ?_ rfl)
      exact (fireOnBroadcast_phase _ _ _ _).live (Connection.live_of_receiving hrec)
    · exact ⟨c', hc, rfl, .inl ha⟩

/-! ## Connections stay as the service builds them -/

theorem ok_of_effect (h : Effect P s m t) (hok : ∀ id c, s.connections id = some c → c.Ok P id)
    {id : ResourceId} {c : Connection} (hc : t.connections id = some c) : c.Ok P id := by
  have hput : ∀ {id' : ResourceId} {c' : Connection} {v f es},
      (s.put id' c' v f es).connections id = some c → c'.Ok P id' → c.Ok P id := by
    intro id' c' v f es hc hok'
    rcases State.put_connections_eq_some.1 hc with ⟨rfl, rfl⟩ | ⟨-, hc⟩
    · exact hok'
    · exact hok id c hc
  cases h with
  | inspected hnew =>
    refine hput hc ⟨rfl, fun _ => ⟨rfl, rfl⟩, fun hj => ?_, fun _ => ⟨rfl, rfl⟩⟩
    dsimp only at hj
    split at hj <;> cases hj
  | joined hc₀ hphase hcall hsub =>
    obtain ⟨hu, hun, -, hq⟩ := hok _ _ hc₀
    refine hput hc ⟨hu, nofun, fun _ => ⟨?_, _, _, hsub, rfl, ?_⟩, fun _ => ?_⟩
    · simp [hcall, Call.isGET]
    · simp [AtmosphereResource.addEventListener, AtmosphereResource.setBroadcaster, (hun hphase).2]
    · exact hq (by simp [hphase, Phase.live])
  | published hc₀ hphase =>
    obtain ⟨hu, -, -, hq⟩ := hok _ _ hc₀
    exact hput hc ⟨by simpa using hu, nofun, nofun, fun _ => hq (by simp [hphase, Phase.live])⟩
  | broadcasted hc₀ hphase =>
    obtain ⟨hu, -, -, hq⟩ := hok _ _ hc₀
    exact hput hc ⟨hu, nofun, nofun, fun _ => hq (by simp [hphase, Phase.live])⟩
  | crashed hc₀ hphase =>
    obtain ⟨hu, -, -, hq⟩ := hok _ _ hc₀
    exact hput hc ⟨hu, nofun, nofun, fun _ => hq (by simp [hphase, Phase.live])⟩
  | suspended hc₀ hphase =>
    obtain ⟨hu, -, hj, -⟩ := hok _ _ hc₀
    obtain ⟨hget, ch, l, hsub, hb, hl⟩ := hj (by simp [hphase])
    refine hput hc ⟨hu, nofun, fun _ => ⟨hget, ch, l, hsub, hb, ?_⟩, nofun⟩
    simp [AtmosphereResource.addEventListener, hl, hphase]
  | @taken ch i q e hq he =>
    obtain ⟨c₀, hc₀, rfl⟩ := Option.map_eq_some_iff.1 hc
    obtain ⟨hu, hun, hj, hquiet⟩ := hok _ _ hc₀
    obtain ⟨hr, hcall, hp, hpassed⟩ := c₀.offer_eq ch e
    refine ⟨by rw [hr]; exact hu, by rw [hp, hr]; exact hun, by rw [hp, hr, hcall]; exact hj, ?_⟩
    rw [hp, hpassed]
    intro hnl
    refine ⟨?_, (hquiet hnl).2⟩
    rw [Connection.offer, if_neg]
    · exact (hquiet hnl).1
    · intro hsub
      rw [(Connection.subscribed hsub).1] at hnl
      cases hnl
  | filtered hc₀ hrec =>
    obtain ⟨hu, hun, hj, hq⟩ := hok _ _ hc₀
    refine hput hc ⟨hu, hun, hj, fun hnl => ?_⟩
    simp [Connection.live_of_receiving hrec] at hnl
  | @notified id' i c₀ e hc₀ hrec he =>
    have hlive₀ := Connection.live_of_receiving hrec
    have hlive : (fireOnBroadcast e.message c₀.resource (s.sessions id'.uuid, c₀.phase)).2.live
        = true := (fireOnBroadcast_phase _ _ _ _).live hlive₀
    refine hput hc ⟨(hok _ _ hc₀).uuid, fun ha => absurd ha (Phase.ne_of_live hlive rfl),
      fun _ => ?_, fun hnl => ?_⟩
    · obtain ⟨hget, ch, l, hsub, hb, hl⟩ := (hok _ _ hc₀).live hlive₀
      exact ⟨hget, ch, l, hsub, hb, by rw [if_neg (Phase.ne_of_live hlive rfl)]; exact hl⟩
    · simp [hlive] at hnl
  | disconnected hc₀ hphase =>
    obtain ⟨hu, -, hj, -⟩ := hok _ _ hc₀
    obtain ⟨hget, ch, l, hsub, hb, hl⟩ := hj (by simp [hphase])
    exact hput hc ⟨hu, nofun, fun _ => ⟨hget, ch, l, hsub, hb, by simpa [hphase] using hl⟩, nofun⟩

/-! ## What a step does to a status -/

/-- The one thing a step does to the status of a session. -/
inductive StatusEffect (s t : State) (u : String) : Move → Prop
  /-- Nothing. -/
  | same {m' : Move} (hst : t.status u = s.status u) : StatusEffect s t u m'
  /-- The first request of the session entered the handshake. -/
  | entered {id header call} (hu : id.uuid = u) (hs : s.status u = .unavailable)
      (hst : t.status u = .authPending) : StatusEffect s t u (.inspect id header call)
  /-- A connection heard that the authentication succeeded. -/
  | succeeded {id i c e} (hu : id.uuid = u) (hc : s.connections id = some c)
      (hrec : c.receiving = true) (he : c.passed[i]? = some e)
      (hm : e.message.type = some .successfulAuthenticationResponse)
      (hst : t.status u = .authSuccessful) : StatusEffect s t u (.notify id i)
  /-- A connection heard that the authentication failed. -/
  | failed {id i c e} (hu : id.uuid = u) (hc : s.connections id = some c)
      (hrec : c.receiving = true) (he : c.passed[i]? = some e)
      (hm : e.message.type = some .failedAuthenticatedResponse)
      (hst : t.status u = .authFailed) : StatusEffect s t u (.notify id i)
  /-- A connection of the session disconnected. -/
  | removed {id} (hu : id.uuid = u) (hst : t.status u = .unavailable) :
      StatusEffect s t u (.disconnect id)

theorem statusEffect_notify {id : ResourceId} {i : Nat} {c : Connection} {e : Envelope}
    {ph : Phase} {p : List Envelope} {es : List Event} (hc : s.connections id = some c)
    (hrec : c.receiving = true) (he : c.passed[i]? = some e) (u : String) :
    StatusEffect s
      (s.put id { c with phase := ph, passed := p } (e.message.record (s.sessions id.uuid))
        s.factory es)
      u (.notify id i) := by
  by_cases hu : u = id.uuid
  · subst hu
    unfold Message.record
    split
    · rename_i hm
      exact .succeeded rfl hc hrec he hm (by simp [State.put_status])
    · split
      · rename_i hm
        exact .failed rfl hc hrec he hm (by simp [State.put_status])
      · exact .same (State.put_status_same _)
  · exact .same (by rw [State.put_status, if_neg hu])

/-- The listeners of a connection leave its session with the status the message records. -/
theorem Effect.status_notified {id : ResourceId} {i : Nat} {c : Connection} {e : Envelope}
    (h : Effect P s (.notify id i) t) (hok : ∀ id c, s.connections id = some c → c.Ok P id)
    (hc : s.connections id = some c) (he : c.passed[i]? = some e) :
    t.status id.uuid = statusOf (e.message.record (s.sessions id.uuid)) := by
  cases h with
  | notified hc₀ hrec he₀ =>
    rw [hc, Option.some.injEq] at hc₀
    subst hc₀
    rw [he, Option.some.injEq] at he₀
    subst he₀
    rw [State.put_status, if_pos rfl,
      (hok id c hc).fireOnBroadcast (Connection.live_of_receiving hrec)]

/-- **The four writes of a status.**  The gate enters the handshake, a delivered
outcome decides it, a disconnect forgets it, and nothing else touches it. -/
theorem Effect.status (h : Effect P s m t) (hok : ∀ id c, s.connections id = some c → c.Ok P id)
    (u : String) : StatusEffect s t u m := by
  cases h with
  | @inspected id header call hnew =>
    by_cases hu : u = id.uuid
    · subst hu
      by_cases hs : s.status id.uuid = .unavailable
      · refine .entered rfl hs ?_
        unfold State.status at hs
        rw [State.put_status, if_pos rfl, inspect_run, if_pos hs]
        rfl
      · refine .same ?_
        unfold State.status at hs
        rw [State.put_status, if_pos rfl, inspect_run, if_neg hs]
        split <;> rfl
    · exact .same (by rw [State.put_status, if_neg hu])
  | taken => exact .same rfl
  | joined | published | broadcasted | crashed | suspended | filtered =>
    exact .same (State.put_status_same u)
  | @notified id i c e hc hrec he =>
    rw [(hok id c hc).fireOnBroadcast (Connection.live_of_receiving hrec)]
    exact statusEffect_notify hc hrec he u
  | @disconnected id c hc hphase =>
    by_cases hu : u = id.uuid
    · subst hu
      exact .removed rfl (by simp [State.put_status])
    · exact .same (by rw [State.put_status, if_neg hu])

/-! ## Channels -/

/-- Only taking a message off a channel removes one. -/
theorem Effect.grows (h : Effect P s m t) (hok : ∀ id c, s.connections id = some c → c.Ok P id)
    (hm : ∀ ch i, m ≠ .take ch i) : s.factory.Grows t.factory := by
  cases h with
  | inspected | crashed | filtered | notified | disconnected =>
    exact BroadcasterFactory.Grows.refl _
  | joined => exact BroadcasterFactory.grows_lookup _ _
  | published =>
    exact (BroadcasterFactory.grows_lookup _ _).trans (BroadcasterFactory.grows_broadcast _ _ _)
  | broadcasted => exact BroadcasterFactory.grows_broadcastTo _ _ _ _
  | @suspended id c hc hphase =>
    obtain ⟨ch', l, o, -, -, -, hfire⟩ := (hok id c hc).fireOnSuspend hphase s.factory
    rw [State.put_factory, hfire]
    exact BroadcasterFactory.grows_broadcast _ _ _
  | taken => exact absurd rfl (hm _ _)

/-- Channels are never taken down. -/
theorem Effect.factory_mono (h : Effect P s m t)
    (hok : ∀ id c, s.connections id = some c → c.Ok P id) {ch : String}
    (hch : s.factory ch ≠ none) : t.factory ch ≠ none := by
  cases m with
  | take ch' i =>
    cases h with
    | taken hq he =>
      show Function.update s.factory ch' _ ch ≠ none
      by_cases hne : ch = ch'
      · subst hne
        simp
      · simpa [hne] using hch
  | _ => exact (h.grows hok (by nofun)).ne_none hch

/-- The message was put on the channel by the `onSuspend` listener of one of its
connections, or it is the body of a `POST` that returned. -/
def Genuine (P : Platform) (s : State) (ch : String) (e : Envelope) : Prop :=
  match e.origin with
  | .service a => ∃ c l, s.connections a = some c ∧ c.phase.live = true ∧
      subscription P c.resource = some (ch, l) ∧ l.onSuspend = some e.message
  | .client a => ∃ c, s.connections a = some c ∧ c.phase = .answered ∧
      c.call.body = some e.message

theorem Genuine.mono (h : Effect P s m t) {ch : String} {e : Envelope} (hG : Genuine P s ch e) :
    Genuine P t ch e := by
  unfold Genuine at hG ⊢
  split at hG
  · obtain ⟨c, l, hc, hlive, hsub, hm⟩ := hG
    obtain ⟨c', hc', hev⟩ := h.evolves hc
    have hsub' : subscription P c'.resource = some (ch, l) := by
      rw [subscription_congr hev.uuid hev.header, hsub]
    exact ⟨c', l, hc', hev.phase.live hlive, hsub', hm⟩
  · obtain ⟨c, hc, hd, hb⟩ := hG
    obtain ⟨c', hc', hev⟩ := h.evolves hc
    exact ⟨c', hc', hev.phase.answered hd, by rw [hev.call]; exact hb⟩

/-- **What a step puts on a channel is genuine.** -/
theorem genuine_of_effect (h : Effect P s m t)
    (hok : ∀ id c, s.connections id = some c → c.Ok P id)
    (hG : ∀ ch q, s.factory ch = some q → ∀ e ∈ q, Genuine P s ch e)
    {ch : String} {q : List Envelope} (hq : t.factory ch = some q) {e : Envelope} (he : e ∈ q) :
    Genuine P t ch e := by
  have hold : ∀ {q₀ : List Envelope}, s.factory ch = some q₀ → e ∈ q₀ → Genuine P t ch e :=
    fun hq₀ he₀ => (hG ch _ hq₀ e he₀).mono h
  -- a message put on a channel is the one put there, or it was queued before
  have hbroadcast : ∀ {f : BroadcasterFactory} {ch' : String} {e' : Envelope},
      f.broadcast ch' e' ch = some q →
      (∀ q₀, f ch = some q₀ → e ∈ q₀ → Genuine P t ch e) → (ch = ch' → e = e' → Genuine P t ch e) →
      Genuine P t ch e := by
    intro f ch' e' hf hbefore hnew
    by_cases hne : ch = ch'
    · subst hne
      simp only [BroadcasterFactory.broadcast, Function.update_self, Option.map_eq_some_iff] at hf
      obtain ⟨q₀, hq₀, rfl⟩ := hf
      rcases List.mem_append.1 he with he | he
      · exact hbefore q₀ hq₀ he
      · exact hnew rfl (List.mem_singleton.1 he)
    · rw [BroadcasterFactory.broadcast_of_ne hne] at hf
      exact hbefore q hf he
  have hlookup : ∀ {ch' : String} {q₀ : List Envelope}, s.factory.lookup ch' ch = some q₀ →
      e ∈ q₀ → Genuine P t ch e := by
    intro ch' q₀ hl he
    rcases BroadcasterFactory.lookup_eq_some hl with hl | rfl
    · exact hold hl he
    · cases he
  cases h with
  | inspected | crashed | filtered | notified | disconnected => exact hold hq he
  | joined => exact hlookup hq he
  | @published id c m ch' l hc hphase hcall hsub =>
    refine hbroadcast hq (fun q₀ hq₀ he₀ => hlookup hq₀ he₀) ?_
    rintro rfl rfl
    exact ⟨_, State.put_connections_self, rfl, by simp [hcall, Call.body]⟩
  | @broadcasted id c ns m hc hphase hcall =>
    change BroadcasterFactory.broadcastTo P s.factory ns _ ch = some q at hq
    unfold BroadcasterFactory.broadcastTo at hq
    split at hq
    · obtain ⟨q₀, hq₀, rfl⟩ := Option.map_eq_some_iff.1 hq
      rcases List.mem_append.1 he with he | he
      · exact hold hq₀ he
      · rw [List.mem_singleton.1 he]
        exact ⟨_, State.put_connections_self, rfl, by simp [hcall, Call.body]⟩
    · exact hold hq he
  | @suspended id c hc hphase =>
    obtain ⟨ch', l, o, hsub, -, ho, hfire⟩ := (hok id c hc).fireOnSuspend hphase s.factory
    change fireOnSuspend s.factory id _ ch = some q at hq
    rw [hfire] at hq
    refine hbroadcast hq (fun q₀ hq₀ he₀ => hold hq₀ he₀) ?_
    rintro rfl rfl
    exact ⟨_, l, State.put_connections_self, rfl, hsub, ho⟩
  | @taken ch' i q' e' hq' he' =>
    by_cases hne : ch = ch'
    · subst hne
      simp only [Function.update_self, Option.some.injEq] at hq
      subst hq
      exact hold hq' (List.mem_of_mem_eraseIdx he)
    · exact hold (by simpa [hne] using hq) he

/-! ## Deliveries -/

/-- The connection sits on the channel, and the message was put there genuinely. -/
def Received (P : Platform) (s : State) (id : ResourceId) (ch : String) (e : Envelope) : Prop :=
  Genuine P s ch e ∧ ∃ c, s.connections id = some c ∧ c.phase.live = true ∧
    c.resource.broadcaster = some ch

theorem Received.mono (h : Effect P s m t) {id : ResourceId} {ch : String} {e : Envelope}
    (hR : Received P s id ch e) : Received P t id ch e := by
  obtain ⟨hG, c, hc, hlive, hb⟩ := hR
  obtain ⟨c', hc', hev⟩ := h.evolves hc
  exact ⟨hG.mono h, c', hc', hev.phase.live hlive, by rw [hev.channel hlive]; exact hb⟩

theorem Received.connection {id : ResourceId} {ch : String} {e : Envelope} {c : Connection}
    (hR : Received P s id ch e) (hc : s.connections id = some c) :
    c.phase.live = true ∧ c.resource.broadcaster = some ch := by
  obtain ⟨-, c', hc', hlive, hb⟩ := hR
  rw [hc, Option.some.injEq] at hc'
  subst hc'
  exact ⟨hlive, hb⟩

/-- **Where a delivery under way comes from**: it was under way before, or this step takes
the message off the channel the connection sits on. -/
theorem Effect.inFlight (h : Effect P s m t)
    (hok : ∀ id c, s.connections id = some c → c.Ok P id) {id : ResourceId} {c' : Connection}
    (hc' : t.connections id = some c') {e : Envelope} (he : e ∈ c'.inFlight) :
    ∃ c, s.connections id = some c ∧ c.phase.live = true ∧
      (e ∈ c.inFlight ∨ ∃ ch i q, m = .take ch i ∧ c.subscribedTo ch = true ∧
        s.factory ch = some q ∧ q[i]? = some e) := by
  -- a connection with something under way is live, before the step as after it
  have hold : ∀ {c : Connection}, s.connections id = some c → e ∈ c.inFlight →
      ∃ c, s.connections id = some c ∧ c.phase.live = true ∧
        (e ∈ c.inFlight ∨ ∃ ch i q, m = .take ch i ∧ c.subscribedTo ch = true ∧
          s.factory ch = some q ∧ q[i]? = some e) := by
    intro c hc he
    refine ⟨c, hc, ?_, .inl he⟩
    cases hlive : c.phase.live with
    | true => rfl
    | false =>
      obtain ⟨ho, hp⟩ := (hok id c hc).quiet hlive
      simp [Connection.inFlight, ho, hp] at he
  cases h with
  | inspected hnew =>
    rcases State.put_connections_eq_some.1 hc' with ⟨-, rfl⟩ | ⟨-, hc⟩
    · cases he
    · exact hold hc he
  | joined hc₀ | published hc₀ | broadcasted hc₀ | crashed hc₀ | suspended hc₀ | disconnected hc₀ =>
    rcases State.put_connections_eq_some.1 hc' with ⟨rfl, rfl⟩ | ⟨-, hc⟩
    · exact hold hc₀ he
    · exact hold hc he
  | @taken ch i q e' hq he' =>
    obtain ⟨c, hc, rfl⟩ := Option.map_eq_some_iff.1 hc'
    rcases List.mem_append.1 he with ho | hp
    · rcases Connection.mem_offered_offer ho with ho | ⟨rfl, hsub⟩
      · exact hold hc (List.mem_append_left _ ho)
      · have hsusp := (Connection.subscribed hsub).1
        exact ⟨c, hc, by simp [hsusp, Phase.live], .inr ⟨ch, i, q, rfl, hsub, hq, he'⟩⟩
    · rw [(c.offer_eq ch e').2.2.2] at hp
      exact hold hc (List.mem_append_right _ hp)
  | @filtered id' i c₀ e' ch hc₀ hrec he' hch =>
    rcases State.put_connections_eq_some.1 hc' with ⟨rfl, rfl⟩ | ⟨-, hc⟩
    · refine hold hc₀ ?_
      rcases List.mem_append.1 he with ho | hp
      · exact List.mem_append_left _ (List.mem_of_mem_eraseIdx ho)
      · dsimp only at hp
        split at hp
        · rcases List.mem_append.1 hp with hp | hp
          · exact List.mem_append_right _ hp
          · rw [List.mem_singleton.1 hp]
            exact Connection.mem_inFlight_of_offered he'
        · exact List.mem_append_right _ hp
    · exact hold hc he
  | notified hc₀ hrec he' =>
    rcases State.put_connections_eq_some.1 hc' with ⟨rfl, rfl⟩ | ⟨-, hc⟩
    · refine hold hc₀ ?_
      rcases List.mem_append.1 he with ho | hp
      · exact List.mem_append_left _ ho
      · exact List.mem_append_right _ (List.mem_of_mem_eraseIdx hp)
    · exact hold hc he

/-! ## The invariant -/

/-- What a step records. -/
inductive Records (P : Platform) (s : State) : Move → Event → Prop
  | inspected {id header call} :
      Records P s (.inspect id header call)
        (.inspected id call (s.status id.uuid) (inspect.run (s.sessions id.uuid)).1)
  | checked {id c endpoint ch l} (hc : s.connections id = some c) (hphase : c.phase = .admitted)
      (hcall : c.call = .subscribe endpoint) (hsub : subscription P c.resource = some (ch, l)) :
      Records P s (.handle id) (.checked id c.resource.contextHeader (check P c.resource))
  | published {id c b ch l} (hc : s.connections id = some c) (hphase : c.phase = .admitted)
      (hcall : c.call = .publish b) (hsub : subscription P c.resource = some (ch, l)) :
      Records P s (.handle id) (.published id ch (s.status id.uuid) b)
  | broadcasted {id c ns b} (hc : s.connections id = some c) (hphase : c.phase = .admitted)
      (hcall : c.call = .broadcast (some ns) b) :
      Records P s (.handle id) (.broadcasted id ns (s.status id.uuid) b)
  | suspended {id c} (hc : s.connections id = some c) (hphase : c.phase = .ready) :
      Records P s (.suspend id) (.suspended id)
  | filtered {id i c e ch} (hc : s.connections id = some c) (hrec : c.receiving = true)
      (he : c.offered[i]? = some e) (hch : c.resource.broadcaster = some ch) :
      Records P s (.filter id i)
        (.filtered id ch e (s.status id.uuid) (!e.message.passes (s.status id.uuid)))
  | notified {id i c e} (hc : s.connections id = some c) (hrec : c.receiving = true)
      (he : c.passed[i]? = some e) : Records P s (.notify id i) (.notified id e)
  | disconnected {id c} (hc : s.connections id = some c) (hphase : c.phase = .suspended) :
      Records P s (.disconnect id) (.disconnected id)

/-- **What a step leaves in the history**: what it records, and all there was. -/
theorem Effect.history (h : Effect P s m t) :
    ∃ es, t.history = es ++ s.history ∧ ∀ e ∈ es, Records P s m e := by
  have hone : ∀ {e : Event}, Records P s m e → ∀ e' ∈ [e], Records P s m e' := by
    intro e he e' he'
    rwa [List.mem_singleton.1 he']
  cases h with
  | inspected => exact ⟨_, rfl, hone .inspected⟩
  | @joined id c endpoint ch l hc hphase hcall hsub =>
    refine ⟨checkEvents P id c.resource, rfl, ?_⟩
    intro e he
    unfold checkEvents at he
    split at he
    · exact hone (.checked hc hphase hcall hsub) e he
    · cases he
  | published hc hphase hcall hsub => exact ⟨_, rfl, hone (.published hc hphase hcall hsub)⟩
  | broadcasted hc hphase hcall => exact ⟨_, rfl, hone (.broadcasted hc hphase hcall)⟩
  | crashed | taken => exact ⟨[], rfl, by simp⟩
  | suspended hc hphase => exact ⟨_, rfl, hone (.suspended hc hphase)⟩
  | filtered hc hrec he hch => exact ⟨_, rfl, hone (.filtered hc hrec he hch)⟩
  | notified hc hrec he => exact ⟨_, rfl, hone (.notified hc hrec he)⟩
  | disconnected hc hphase => exact ⟨_, rfl, hone (.disconnected hc hphase)⟩

theorem Effect.mem_history (h : Effect P s m t) {e : Event} (he : e ∈ s.history) :
    e ∈ t.history := by
  obtain ⟨es, hes, -⟩ := h.history
  rw [hes]
  exact List.mem_append_right _ he

/-- An event was recorded before, or by this step. -/
theorem Effect.records (h : Effect P s m t) {e : Event} (he : e ∈ t.history) :
    e ∈ s.history ∨ Records P s m e := by
  obtain ⟨es, hes, hnew⟩ := h.history
  rw [hes] at he
  rcases List.mem_append.1 he with he | he
  · exact .inr (hnew e he)
  · exact .inl he

/-- From `s` to `t` only events like this happened. -/
def State.Only (s t : State) (Q : Event → Prop) : Prop :=
  ∃ es, t.history = es ++ s.history ∧ ∀ e ∈ es, Q e

theorem State.Only.refl (s : State) (Q : Event → Prop) : s.Only s Q := ⟨[], rfl, by simp⟩

theorem State.Only.step {s₀ : State} {Q : Event → Prop} (hs : s₀.Only s Q) (h : Effect P s m t)
    (hQ : ∀ e, Records P s m e → Q e) : s₀.Only t Q := by
  obtain ⟨es, hes, hall⟩ := hs
  obtain ⟨new, hnew, hrec⟩ := h.history
  refine ⟨new ++ es, by rw [hnew, hes, List.append_assoc], ?_⟩
  intro e he
  rcases List.mem_append.1 he with he | he
  · exact hQ e (hrec e he)
  · exact hall e he

theorem checkEvents_of_presented {id : ResourceId} {r : AtmosphereResource} {k : ContextKey}
    (hk : presented P r.contextHeader = some k) :
    checkEvents P id r = [.checked id r.contextHeader (!k.doomed)] := by
  rcases getBroadCasterId_cases P r with ⟨k', -, hb⟩ | ⟨hn, -⟩ | ⟨hn, -⟩
  · rw [checkEvents, hb, check_of_presented hk]
  · simp [hk] at hn
  · simp [hk] at hn

end

/-- What holds in every state a run reaches. -/
structure WellFormed (P : Platform) (s : State) : Prop where
  ok : ∀ id c, s.connections id = some c → c.Ok P id
  created : ∀ id c ch, s.connections id = some c → c.resource.broadcaster = some ch →
    s.factory ch ≠ none
  queued : ∀ ch q, s.factory ch = some q → ∀ e ∈ q, Genuine P s ch e
  inFlight : ∀ id c, s.connections id = some c → ∀ e ∈ c.inFlight, ∃ ch, Received P s id ch e
  filtered : ∀ id ch e v ab, .filtered id ch e v ab ∈ s.history → Received P s id ch e
  notified : ∀ id e, .notified id e ∈ s.history → ∃ ch, Received P s id ch e
  admitted : ∀ id c, s.connections id = some c → c.phase ≠ .dropped →
    ∃ v, .inspected id c.call v .continue ∈ s.history
  checked : ∀ id c k, s.connections id = some c → c.phase.joined = true →
    presented P c.resource.contextHeader = some k →
    .checked id c.resource.contextHeader (!k.doomed) ∈ s.history

section

variable {P : Platform} {s t : State} {m : Move}

theorem created_of_effect (h : Effect P s m t) (hwf : WellFormed P s) {id : ResourceId}
    {c : Connection} {ch : String} (hc : t.connections id = some c)
    (hb : c.resource.broadcaster = some ch) : t.factory ch ≠ none := by
  have hold : ∀ {c₀ : Connection}, s.connections id = some c₀ →
      c₀.resource.broadcaster = some ch → t.factory ch ≠ none :=
    fun hc₀ hb₀ => h.factory_mono hwf.ok (hwf.created id _ ch hc₀ hb₀)
  cases h with
  | inspected hnew =>
    rcases State.put_connections_eq_some.1 hc with ⟨-, rfl⟩ | ⟨-, hc⟩
    · cases hb
    · exact hold hc hb
  | @joined id' c₀ endpoint ch' l hc₀ hphase hcall hsub =>
    rcases State.put_connections_eq_some.1 hc with ⟨-, rfl⟩ | ⟨-, hc⟩
    · cases hb
      exact BroadcasterFactory.lookup_self _ _
    · exact hold hc hb
  | @published id' c₀ m ch' l hc₀ hphase hcall hsub =>
    rcases State.put_connections_eq_some.1 hc with ⟨-, rfl⟩ | ⟨-, hc⟩
    · simp only [AtmosphereResource.afterPOST_broadcaster, Option.some.injEq] at hb
      subst hb
      exact (BroadcasterFactory.grows_broadcast _ _ _).ne_none (BroadcasterFactory.lookup_self _ _)
    · exact hold hc hb
  | broadcasted hc₀ | crashed hc₀ | suspended hc₀ | filtered hc₀ | notified hc₀
  | disconnected hc₀ =>
    rcases State.put_connections_eq_some.1 hc with ⟨rfl, rfl⟩ | ⟨-, hc⟩
    · exact hold hc₀ hb
    · exact hold hc hb
  | @taken ch' i q e hq he =>
    obtain ⟨c₀, hc₀, rfl⟩ := Option.map_eq_some_iff.1 hc
    rw [(c₀.offer_eq ch' e).1] at hb
    exact hold hc₀ hb

theorem received_of_effect (h : Effect P s m t) (hwf : WellFormed P s) {id : ResourceId}
    {c : Connection} (hc : t.connections id = some c) {e : Envelope} (he : e ∈ c.inFlight) :
    ∃ ch, Received P t id ch e := by
  obtain ⟨c₀, hc₀, hlive, he₀ | ⟨ch, i, q, -, hsub, hq, he₀⟩⟩ := h.inFlight hwf.ok hc he
  · obtain ⟨ch, hR⟩ := hwf.inFlight id c₀ hc₀ e he₀
    exact ⟨ch, hR.mono h⟩
  · have hb := (Connection.subscribed hsub).2
    have hG := hwf.queued ch q hq e (List.mem_of_getElem? he₀)
    exact ⟨ch, Received.mono h ⟨hG, c₀, hc₀, hlive, hb⟩⟩

theorem received_of_offered (hwf : WellFormed P s) {id : ResourceId} {c : Connection} {ch : String}
    (hc : s.connections id = some c) (hb : c.resource.broadcaster = some ch) {e : Envelope}
    (he : e ∈ c.inFlight) : Received P s id ch e := by
  obtain ⟨ch', hR⟩ := hwf.inFlight id c hc e he
  have hb' := (hR.connection hc).2
  rw [hb, Option.some.injEq] at hb'
  subst hb'
  exact hR

theorem filtered_of_effect (h : Effect P s m t) (hwf : WellFormed P s) {id : ResourceId}
    {ch : String} {e : Envelope} {v : Status} {ab : Bool}
    (hev : .filtered id ch e v ab ∈ t.history) : Received P t id ch e := by
  rcases h.records hev with hev | hrec
  · exact (hwf.filtered id ch e v ab hev).mono h
  · cases hrec with
    | filtered hc hrec he hch =>
      exact (received_of_offered hwf hc hch (Connection.mem_inFlight_of_offered he)).mono h

theorem notified_of_effect (h : Effect P s m t) (hwf : WellFormed P s) {id : ResourceId}
    {e : Envelope} (hev : .notified id e ∈ t.history) : ∃ ch, Received P t id ch e := by
  rcases h.records hev with hev | hrec
  · obtain ⟨ch, hR⟩ := hwf.notified id e hev
    exact ⟨ch, hR.mono h⟩
  · cases hrec with
    | notified hc hrec he =>
      obtain ⟨ch, hR⟩ := hwf.inFlight id _ hc _ (Connection.mem_inFlight_of_passed he)
      exact ⟨ch, hR.mono h⟩

theorem admitted_of_effect (h : Effect P s m t) (hwf : WellFormed P s) {id : ResourceId}
    {c : Connection} (hc : t.connections id = some c) (hd : c.phase ≠ .dropped) :
    ∃ v, .inspected id c.call v .continue ∈ t.history := by
  rcases h.connection_cases hc with ⟨c₀, hc₀, hev⟩ | ⟨header, call, rfl, hnew, rfl⟩
  · obtain ⟨v, hv⟩ := hwf.admitted id c₀ hc₀ (fun hd₀ => hd (hev.phase.dropped.2 hd₀))
    exact ⟨v, by rw [hev.call]; exact h.mem_history hv⟩
  · cases h with
    | inspected =>
      by_cases hgo : (inspect.run (s.sessions id.uuid)).1 = .continue
      · exact ⟨_, by rw [State.put_history, hgo]; exact List.mem_cons_self⟩
      · exact absurd (if_neg hgo) hd

theorem checked_of_effect (h : Effect P s m t) (hwf : WellFormed P s) {id : ResourceId}
    {c : Connection} {k : ContextKey} (hc : t.connections id = some c)
    (hj : c.phase.joined = true) (hk : presented P c.resource.contextHeader = some k) :
    .checked id c.resource.contextHeader (!k.doomed) ∈ t.history := by
  rcases h.connection_cases hc with ⟨c₀, hc₀, hev⟩ | ⟨header, call, rfl, hnew, rfl⟩
  · by_cases hj₀ : c₀.phase.joined = true
    · rw [hev.header] at hk ⊢
      exact h.mem_history (hwf.checked id c₀ k hc₀ hj₀ hk)
    · obtain ⟨rfl, hck⟩ := h.joins hc₀ hc hj₀ hj
      rw [hck, hev.header, checkEvents_of_presented (by rwa [hev.header] at hk)]
      exact List.mem_cons_self
  · dsimp only at hj
    split at hj <;> cases hj

theorem wellFormed_initial : WellFormed P State.initial where
  ok _ _ hc := by cases hc
  created _ _ _ hc := by cases hc
  queued _ _ hq := by cases hq
  inFlight _ _ hc := by cases hc
  filtered _ _ _ _ _ hev := by cases hev
  notified _ _ hev := by cases hev
  admitted _ _ hc := by cases hc
  checked _ _ _ hc := by cases hc

theorem wellFormed_of_effect (h : Effect P s m t) (hwf : WellFormed P s) : WellFormed P t where
  ok _ _ hc := ok_of_effect h hwf.ok hc
  created _ _ _ hc hb := created_of_effect h hwf hc hb
  queued _ _ hq _ he := genuine_of_effect h hwf.ok hwf.queued hq he
  inFlight _ _ hc _ he := received_of_effect h hwf hc he
  filtered _ _ _ _ _ hev := filtered_of_effect h hwf hev
  notified _ _ hev := notified_of_effect h hwf hev
  admitted _ _ hc hd := admitted_of_effect h hwf hc hd
  checked _ _ _ hc hj hk := checked_of_effect h hwf hc hj hk

theorem wellFormed_preserves : (service P).Preserves (fun _ _ => True) (WellFormed P) :=
  fun _ _ _ hwf _ hstep => wellFormed_of_effect (effect_of_step hstep) hwf

/-- **Every run keeps the service well formed.** -/
theorem wellFormed_run {as : List Move} (h : (service P).run as = some s) : WellFormed P s :=
  System.invariant_run wellFormed_initial wellFormed_preserves
    (System.along_of_forall fun _ _ => trivial) h

/-- What happened stays in the history. -/
theorem mem_history_runFrom {as : List Move} (hrun : (service P).runFrom s as = some t) {e : Event}
    (he : e ∈ s.history) : e ∈ t.history :=
  System.invariant_runFrom (C := fun _ _ => True) (I := fun s => e ∈ s.history)
    (fun _ _ _ hs _ hstep => (effect_of_step hstep).mem_history hs) he
    (System.along_of_forall fun _ _ => trivial) hrun

/-- The request this event says was let through. -/
def Event.admitted : Event → Option ResourceId
  | .inspected id _ _ .continue => some id
  | _ => none

/-- When one request of a uuid was let through, all others were dropped. -/
theorem WellFormed.only (hwf : WellFormed P s) {id id' : ResourceId} {c : Connection}
    (honly : ∀ e ∈ s.history, ∀ x ∈ e.admitted, x.uuid = id.uuid → x = id)
    (hc : s.connections id' = some c) (hd : c.phase ≠ .dropped) (hu : id'.uuid = id.uuid) :
    id' = id := by
  obtain ⟨v, he⟩ := hwf.admitted id' c hc hd
  exact honly _ he id' rfl hu

/-! ## Requests that arrive -/

/-- A condition on every request that arrives. -/
def Move.Arrives (Q : ResourceId → Option String → Call → Prop) : Move → Prop
  | .inspect id header call => Q id header call
  | _ => True

instance {Q : ResourceId → Option String → Call → Prop}
    [∀ id header call, Decidable (Q id header call)] : ∀ m : Move, Decidable (m.Arrives Q)
  | .inspect id header call => inferInstanceAs (Decidable (Q id header call))
  | .handle _ | .suspend _ | .take .. | .filter .. | .notify .. | .disconnect _ => isTrue trivial

theorem Move.arrives_of_forall {Q : ResourceId → Option String → Call → Prop}
    (hQ : ∀ id header call, Q id header call) (m : Move) : m.Arrives Q := by
  cases m with
  | inspect id header call => exact hQ id header call
  | _ => trivial

theorem Move.Arrives.mono {Q R : ResourceId → Option String → Call → Prop} {m : Move}
    (h : m.Arrives Q) (hQR : ∀ id header call, Q id header call → R id header call) :
    m.Arrives R := by
  cases m with
  | inspect id header call => exact hQR id header call h
  | _ => trivial

theorem Move.Arrives.and {Q R : ResourceId → Option String → Call → Prop} {m : Move}
    (hQ : m.Arrives Q) (hR : m.Arrives R) :
    m.Arrives fun id header call => Q id header call ∧ R id header call := by
  cases m with
  | inspect id header call => exact ⟨hQ, hR⟩
  | _ => trivial

/-- Every request known to the service meets the condition. -/
def Requests (Q : ResourceId → Option String → Call → Prop) (s : State) : Prop :=
  ∀ id c, s.connections id = some c → Q id c.resource.contextHeader c.call

theorem requests_initial (Q : ResourceId → Option String → Call → Prop) :
    Requests Q State.initial := by
  intro id c hc
  cases hc

theorem requests_of_effect {Q : ResourceId → Option String → Call → Prop} (h : Effect P s m t)
    (hm : m.Arrives Q) (hs : Requests Q s) : Requests Q t := by
  intro id c hc
  rcases h.connection_cases hc with ⟨c₀, hc₀, hev⟩ | ⟨header, call, rfl, -, rfl⟩
  · rw [hev.header, hev.call]
    exact hs id c₀ hc₀
  · exact hm

/-- **The invariant rule of the service.**  What survives the effect of every step
that a run takes holds where the run ends, if it held where the run started; the
states in between are well formed, and know only the requests that arrived. -/
theorem service_invariant_from {Q : ResourceId → Option String → Call → Prop}
    {C : State → Move → Prop} {I : State → Prop} {as : List Move}
    (hI : ∀ s m t, WellFormed P s → Requests Q s → I s → m.Arrives Q → C s m → Effect P s m t →
      I t)
    (hwf : WellFormed P s) (hreq : Requests Q s) (h0 : I s) (hQ : ∀ m ∈ as, m.Arrives Q)
    (hC : (service P).Along C s as) (hrun : (service P).runFrom s as = some t) : I t := by
  have hpres : (service P).Preserves (fun s m => m.Arrives Q ∧ C s m)
      fun s => WellFormed P s ∧ Requests Q s ∧ I s := by
    refine wellFormed_preserves.with fun s m t hwf hs hm hstep => ?_
    have h := effect_of_step hstep
    exact ⟨requests_of_effect h hm.1 hs.1, hI s m t hwf hs.1 hs.2 hm.1 hm.2 h⟩
  have hboth := (System.along_of_forall hQ).and hC
  exact (System.invariant_runFrom hpres ⟨hwf, hreq, h0⟩ hboth hrun).2.2

/-- The rule for runs from the initial state. -/
theorem service_invariant_over {Q : ResourceId → Option String → Call → Prop}
    {C : State → Move → Prop} {I : State → Prop} {as : List Move} (h0 : I State.initial)
    (hI : ∀ s m t, WellFormed P s → Requests Q s → I s → m.Arrives Q → C s m → Effect P s m t →
      I t)
    (hQ : ∀ m ∈ as, m.Arrives Q) (hC : (service P).Along C State.initial as)
    (hrun : (service P).run as = some s) : I s :=
  service_invariant_from hI wellFormed_initial (requests_initial Q) h0 hQ hC hrun

/-- The rule for runs over requests of any kind. -/
theorem service_invariant {C : State → Move → Prop} {I : State → Prop} {as : List Move}
    (h0 : I State.initial)
    (hI : ∀ s m t, WellFormed P s → I s → C s m → Effect P s m t → I t)
    (hC : (service P).Along C State.initial as) (hrun : (service P).run as = some s) : I s :=
  service_invariant_over (Q := fun _ _ _ => True) h0
    (fun s m t hwf _ hs _ hm h => hI s m t hwf hs hm h)
    (fun m _ => Move.arrives_of_forall (fun _ _ _ => trivial) m) hC hrun

/-- The rule for what every step keeps, from a well formed state on. -/
theorem service_invariant_after {I : State → Prop} {as : List Move}
    (hI : ∀ s m t, WellFormed P s → I s → Effect P s m t → I t) (hwf : WellFormed P s) (h0 : I s)
    (hrun : (service P).runFrom s as = some t) : I t :=
  service_invariant_from (Q := fun _ _ _ => True) (C := fun _ _ => True)
    (fun s m t hwf _ hs _ _ h => hI s m t hwf hs h) hwf (fun _ _ _ => trivial) h0
    (fun m _ => Move.arrives_of_forall (fun _ _ _ => trivial) m)
    (System.along_of_forall fun _ _ => trivial) hrun

/-- A run over requests that meet a condition knows no others. -/
theorem requests_run {Q : ResourceId → Option String → Call → Prop} {as : List Move}
    (hQ : ∀ m ∈ as, m.Arrives Q) (hrun : (service P).run as = some s) : Requests Q s :=
  service_invariant (requests_initial Q) (fun _ _ _ _ hs hm h => requests_of_effect h hm hs)
    (System.along_of_forall hQ) hrun

/-- The client submits no message of a handshake type. -/
def PlainBody (_ : ResourceId) (_ : Option String) (call : Call) : Prop :=
  ∀ b ∈ call.body, b.isHandshake = false

instance (id : ResourceId) (header : Option String) (call : Call) :
    Decidable (PlainBody id header call) :=
  inferInstanceAs (Decidable (∀ b ∈ call.body, b.isHandshake = false))

/-- The session uuid does not look like a channel id. -/
def NoSlash (id : ResourceId) (_ : Option String) (_ : Call) : Prop :=
  startsWithSlash id.uuid = false

instance (id : ResourceId) (header : Option String) (call : Call) :
    Decidable (NoSlash id header call) :=
  inferInstanceAs (Decidable (startsWithSlash id.uuid = false))

/-- A request whose context is turned down falls back to a channel that belongs to
no context. -/
def FallsBackAlone (P : Platform) (id : ResourceId) (header : Option String) (_ : Call) : Prop :=
  presented P header = none → ∀ k : ContextKey, id.uuid ≠ k.broadcasterId

/-- A `GET` whose context is turned down falls back to a channel that belongs to no
context. -/
def GetFallsBackAlone (P : Platform) (id : ResourceId) (header : Option String) (call : Call) :
    Prop :=
  call.isGET = true → FallsBackAlone P id header call

theorem NoSlash.fallsBackAlone {id : ResourceId} {header : Option String} {call : Call}
    (h : NoSlash id header call) : FallsBackAlone P id header call := by
  rintro - k hk
  simp [NoSlash, hk, startsWithSlash_broadcasterId] at h

/-! ## Outcomes on the channel of a context -/

/-- The outcome `doGET` computes for an accepted context. -/
def ContextKey.outcome (k : ContextKey) : MessageType :=
  if k.doomed then .failedAuthenticatedResponse else .successfulAuthenticationResponse

theorem ContextKey.outcome_successful {k : ContextKey} :
    k.outcome = .successfulAuthenticationResponse ↔ k.doomed = false := by
  unfold ContextKey.outcome
  cases k.doomed <;> simp

theorem ContextKey.outcome_failed {k : ContextKey} :
    k.outcome = .failedAuthenticatedResponse ↔ k.doomed = true := by
  unfold ContextKey.outcome
  cases k.doomed <;> simp

/-- **On the channel of a context there is one outcome**, whoever's listener sent it. -/
theorem Genuine.outcome {k : ContextKey} {e : Envelope} {a : ResourceId}
    (hG : Genuine P s k.broadcasterId e) (ho : e.origin = .service a)
    (hout : e.message.isOutcome = true) : e.message.type = some k.outcome := by
  unfold Genuine at hG
  rw [ho] at hG
  obtain ⟨c, l, -, -, hsub, hm⟩ := hG
  unfold ContextKey.outcome
  rcases outcome_cases hsub hm with ⟨k', -, hk, hd, ht⟩ | ⟨k', -, hk, hd, ht⟩ | ⟨-, -, ht⟩
  · rw [broadcasterId_inj.1 hk, ht, hd]
    rfl
  · rw [broadcasterId_inj.1 hk, ht, hd]
    rfl
  · simp [Message.isOutcome, ht] at hout

/-- **A connection hears the outcome its own request has**, whoever's listener sent it, when
no `GET` whose context is turned down falls back to the channel of a context. -/
theorem Received.outcome {id a : ResourceId} {ch : String} {e : Envelope} {c : Connection}
    {l : Listener} {m : Message} (hok : ∀ id c, s.connections id = some c → c.Ok P id)
    (halone : Requests (GetFallsBackAlone P) s) (hR : Received P s id ch e)
    (ho : e.origin = .service a) (hc : s.connections id = some c)
    (hsub : subscription P c.resource = some (ch, l)) (hm : l.onSuspend = some m) :
    e.message.type = m.type := by
  -- the request of a live connection is a `GET` with the uuid of its resource
  have hfalls : ∀ id' c', s.connections id' = some c' → c'.phase.live = true →
      presented P c'.resource.contextHeader = none →
        ∀ k : ContextKey, c'.resource.uuid ≠ k.broadcasterId := by
    intro id' c' hc' hlive
    rw [(hok id' c' hc').uuid]
    exact halone id' c' hc' ((hok id' c' hc').live hlive).1
  have hG := hR.1
  unfold Genuine at hG
  rw [ho] at hG
  obtain ⟨ca, la, hca, hlive, hsuba, hma⟩ := hG
  exact outcome_type_unique (hfalls a ca hca hlive) (hfalls id c hc (hR.connection hc).1) hsuba
    hsub hma hm

/-- An outcome of the service travels on the channel of a context. -/
theorem Genuine.on_context {ch : String} {e : Envelope} {a : ResourceId} (hG : Genuine P s ch e)
    (ho : e.origin = .service a) (hout : e.message.isOutcome = true) :
    ∃ k : ContextKey, ch = k.broadcasterId := by
  unfold Genuine at hG
  rw [ho] at hG
  obtain ⟨c, l, -, -, hsub, hm⟩ := hG
  rcases outcome_cases hsub hm with ⟨k, -, hk, -⟩ | ⟨k, -, hk, -⟩ | ⟨-, -, ht⟩
  · exact ⟨k, hk⟩
  · exact ⟨k, hk⟩
  · simp [Message.isOutcome, ht] at hout

/-- A message of a handshake type comes from the service when no client submits
one. -/
theorem Genuine.service {ch : String} {e : Envelope} (hG : Genuine P s ch e)
    (hplain : Requests PlainBody s) (hh : e.message.isHandshake = true) :
    ∃ a, e.origin = .service a := by
  unfold Genuine at hG
  split at hG
  · rename_i a ho
    exact ⟨a, ho⟩
  · obtain ⟨c, hc, -, hb⟩ := hG
    simp [hplain _ c hc _ hb] at hh

/-- When no client submits a handshake type, an outcome under way to a connection
comes from the service, on the channel of a context that earns it. -/
theorem outcome_of_inFlight (hwf : WellFormed P s) (hplain : Requests PlainBody s)
    {id : ResourceId} {c : Connection} {e : Envelope} (hc : s.connections id = some c)
    (he : e ∈ c.inFlight) (hout : e.message.isOutcome = true) :
    ∃ a k, e.origin = .service a ∧ c.resource.broadcaster = some (ContextKey.broadcasterId k) ∧
      c.phase.joined = true ∧ e.message.type = some k.outcome := by
  obtain ⟨ch, hR⟩ := hwf.inFlight id c hc e he
  obtain ⟨hlive, hb⟩ := hR.connection hc
  obtain ⟨a, ho⟩ := hR.1.service hplain (Message.isHandshake_of_isOutcome hout)
  obtain ⟨k, rfl⟩ := hR.1.on_context ho hout
  exact ⟨a, k, ho, hb, Phase.joined_of_live hlive, hR.1.outcome ho hout⟩

end

end Amps
