import Amps.Core.Invariant

/-!
# The history accounts for every decision

The history of a run is closed: the status every gate and filter decision read can be
replayed from the events before it, and every event has the events before it that it needs.

* `replay` — the status of a session, computed from the history alone.
* `Caused` — what must have happened before an event: a connection suspends after its `GET`
  passed the gate, a message is filtered for a connection that suspended, after someone put
  it on the channel, the listeners hear only what passed the filter.
* `Audited` — the invariant that ties the state to its history.
* `history_explains` — **every run leaves such a history**, and the status of every session
  is its replay.
-/

namespace Amps

open Transition

/-! ## Replaying the status -/

/-- What an event does to the status of a session. -/
def Event.sets (u : String) (v : Status) : Event → Status
  | .inspected id _ w _ => if id.uuid = u ∧ w = .unavailable then .authPending else v
  | .notified id e =>
      if id.uuid = u then
        if e.message.type = some .successfulAuthenticationResponse then .authSuccessful
        else if e.message.type = some .failedAuthenticatedResponse then .authFailed
        else v
      else v
  | .disconnected id => if id.uuid = u then .unavailable else v
  | _ => v

/-- The status of a session after a history, newest event first. -/
def replay (u : String) : List Event → Status
  | [] => .unavailable
  | e :: pre => e.sets u (replay u pre)

/-! ## What comes before what -/

/-- The request was let through by the gate. -/
def LetThrough (id : ResourceId) (call : Call) (pre : List Event) : Prop :=
  ∃ v, .inspected id call v .continue ∈ pre

/-- The message was put on the channel: by the listener of a connection that suspended, or
by a `POST`. -/
def Sent (P : Platform) (ch : String) (e : Envelope) (pre : List Event) : Prop :=
  match e.origin with
  | .service a => .suspended a ∈ pre
  | .client a => (∃ v, .published a ch v e.message ∈ pre) ∨
      ∃ ns v, .broadcasted a ns v e.message ∈ pre ∧ P.matchesPath ns ch = true

/-- What must have happened before an event. -/
def Caused (P : Platform) (e : Event) (pre : List Event) : Prop :=
  match e with
  | .inspected id _ v a => (∀ call w b, .inspected id call w b ∉ pre) ∧
      v = replay id.uuid pre ∧ (a = .continue ↔ v = .unavailable ∨ v = .authSuccessful)
  | .checked id _ _ => (∃ endpoint, LetThrough id (.subscribe endpoint) pre) ∧
      ∀ header ok, .checked id header ok ∉ pre
  | .suspended id => (∃ endpoint, LetThrough id (.subscribe endpoint) pre) ∧ .suspended id ∉ pre
  | .published id _ v m => LetThrough id (.publish m) pre ∧ v = replay id.uuid pre ∧
      ∀ ch w b, .published id ch w b ∉ pre
  | .broadcasted id ns v m => LetThrough id (.broadcast (some ns) m) pre ∧
      v = replay id.uuid pre ∧ ∀ ns w b, .broadcasted id ns w b ∉ pre
  | .filtered id ch e v abort => .suspended id ∈ pre ∧ Sent P ch e pre ∧
      v = replay id.uuid pre ∧ abort = !e.message.passes v
  | .notified id e => ∃ ch v, .filtered id ch e v false ∈ pre
  | .disconnected id => .suspended id ∈ pre ∧ .disconnected id ∉ pre

/-- What is left in the state of a request that has this event behind it. -/
def Event.Leaves (s : State) : Event → Prop
  | .inspected id .. => s.connections id ≠ none
  | .checked id .. => ∃ c, s.connections id = some c ∧ c.phase.joined = true
  | .suspended id => ∃ c, s.connections id = some c ∧ c.phase.live = true
  | .published id .. | .broadcasted id .. => ∃ c, s.connections id = some c ∧ c.phase = .answered
  | .disconnected id => ∃ c, s.connections id = some c ∧ c.phase = .closed
  | .filtered .. | .notified .. => True

/-- The history, and the state it left. -/
structure Audited (P : Platform) (s : State) : Prop where
  status : ∀ u, s.status u = replay u s.history
  leaves : ∀ e ∈ s.history, e.Leaves s
  suspended : ∀ id c, s.connections id = some c → c.phase.live = true → .suspended id ∈ s.history
  queued : ∀ ch q, s.factory ch = some q → ∀ e ∈ q, Sent P ch e s.history
  inFlight : ∀ id c ch, s.connections id = some c → c.resource.broadcaster = some ch →
    ∀ e ∈ c.inFlight, Sent P ch e s.history
  passed : ∀ id c, s.connections id = some c → ∀ e ∈ c.passed,
    ∃ ch v, .filtered id ch e v false ∈ s.history
  justified : Justified (Caused P) s.history

section

variable {P : Platform} {s t : State} {m : Move} {id : ResourceId} {ch : String} {e : Envelope}
  {c c' : Connection}

theorem Sent.mono {pre post : List Event} (h : Sent P ch e pre) (hsub : pre ⊆ post) :
    Sent P ch e post := by
  unfold Sent at h ⊢
  split at h
  · exact hsub h
  · rcases h with ⟨v, hv⟩ | ⟨ns, v, hv, hmatch⟩
    · exact .inl ⟨v, hsub hv⟩
    · exact .inr ⟨ns, v, hsub hv, hmatch⟩

/-- A step adds one event to the history, or none. -/
theorem Effect.history_cases (h : Effect P s m t) :
    t.history = s.history ∨ ∃ e, t.history = e :: s.history ∧ Records P s m e ∧ e.Leaves t := by
  have hself : ∀ {id : ResourceId} {c : Connection} {v f es} {p : Connection → Prop}, p c →
      ∃ c', (s.put id c v f es).connections id = some c' ∧ p c' :=
    fun hp => ⟨_, State.put_connections_self, hp⟩
  cases h with
  | @inspected id header call hnew =>
    refine .inr ⟨_, rfl, .inspected, ?_⟩
    show (s.put id _ _ _ _).connections id ≠ none
    simp
  | @joined id c endpoint ch l hc hphase hcall hsub =>
    rw [State.put_history]
    unfold checkEvents
    split
    · exact .inr ⟨_, rfl, .checked hc hphase hcall hsub, hself rfl⟩
    · exact .inl rfl
  | published hc hphase hcall hsub =>
    exact .inr ⟨_, rfl, .published hc hphase hcall hsub, hself rfl⟩
  | broadcasted hc hphase hcall => exact .inr ⟨_, rfl, .broadcasted hc hphase hcall, hself rfl⟩
  | crashed | taken => exact .inl rfl
  | suspended hc hphase => exact .inr ⟨_, rfl, .suspended hc hphase, hself rfl⟩
  | filtered hc hrec he hch => exact .inr ⟨_, rfl, .filtered hc hrec he hch, trivial⟩
  | notified hc hrec he => exact .inr ⟨_, rfl, .notified hc hrec he, trivial⟩
  | disconnected hc hphase => exact .inr ⟨_, rfl, .disconnected hc hphase, hself rfl⟩

/-- What an event left stays. -/
theorem Event.Leaves.mono (h : Effect P s m t) {ev : Event} (hs : ev.Leaves s) : ev.Leaves t := by
  cases ev with
  | inspected id call v a =>
    obtain ⟨c, hc⟩ := Option.ne_none_iff_exists'.1 hs
    obtain ⟨c', hc', -⟩ := h.evolves hc
    show t.connections id ≠ none
    rw [hc']
    exact Option.some_ne_none _
  | checked id header ok =>
    obtain ⟨c, hc, hj⟩ := hs
    obtain ⟨c', hc', hev⟩ := h.evolves hc
    exact ⟨c', hc', hev.phase.joined hj⟩
  | suspended id =>
    obtain ⟨c, hc, hl⟩ := hs
    obtain ⟨c', hc', hev⟩ := h.evolves hc
    exact ⟨c', hc', hev.phase.live hl⟩
  | published id ch v b | broadcasted id ns v b =>
    obtain ⟨c, hc, ha⟩ := hs
    obtain ⟨c', hc', hev⟩ := h.evolves hc
    exact ⟨c', hc', hev.phase.answered ha⟩
  | disconnected id =>
    obtain ⟨c, hc, hp⟩ := hs
    obtain ⟨c', hc', hev⟩ := h.evolves hc
    refine ⟨c', hc', ?_⟩
    rcases hev.phase with hsame | hnext
    · rw [hsame, hp]
    · rw [hp] at hnext
      cases hnext
  | filtered | notified => trivial

/-! ## Each event is caused -/

/-- **What a step records is explained by the history before it.** -/
theorem caused_of_effect {ev : Event} (h : Effect P s m t) (ha : Audited P s)
    (hwf : WellFormed P s) (hr : Records P s m ev) : Caused P ev s.history := by
  have hlet : ∀ {id : ResourceId} {c : Connection}, s.connections id = some c →
      c.phase ≠ .dropped → LetThrough id c.call s.history := by
    intro id c hc hd
    obtain ⟨v, hv⟩ := hwf.admitted id c hc hd
    exact ⟨v, hv⟩
  -- a connection is in one phase only
  have hphases : ∀ {id : ResourceId} {c c' : Connection}, s.connections id = some c →
      s.connections id = some c' → c.phase = c'.phase := by
    intro id c c' hc hc'
    rw [hc, Option.some.injEq] at hc'
    rw [hc']
  cases hr with
  | @inspected id header call =>
    cases h with
    | inspected hnew =>
      refine ⟨fun call' w b hev => ha.leaves _ hev hnew, ha.status id.uuid, ?_⟩
      exact inspect_continue_iff
  | @checked id c endpoint ch l hc hphase hcall hsub =>
    refine ⟨⟨endpoint, hcall ▸ hlet hc (by simp [hphase])⟩, ?_⟩
    intro header ok hev
    obtain ⟨c', hc', hj⟩ := ha.leaves _ hev
    rw [← hphases hc hc', hphase] at hj
    cases hj
  | @published id c b ch l hc hphase hcall hsub =>
    refine ⟨hcall ▸ hlet hc (by simp [hphase]), ha.status id.uuid, ?_⟩
    intro ch' w b' hev
    obtain ⟨c', hc', hp⟩ := ha.leaves _ hev
    rw [← hphases hc hc', hphase] at hp
    cases hp
  | @broadcasted id c ns b hc hphase hcall =>
    refine ⟨hcall ▸ hlet hc (by simp [hphase]), ha.status id.uuid, ?_⟩
    intro ns' w b' hev
    obtain ⟨c', hc', hp⟩ := ha.leaves _ hev
    rw [← hphases hc hc', hphase] at hp
    cases hp
  | @suspended id c hc hphase =>
    constructor
    · obtain ⟨hget, -⟩ := (hwf.ok id c hc).joined (by simp [hphase])
      cases hcall : c.call with
      | subscribe endpoint => exact ⟨endpoint, hcall ▸ hlet hc (by simp [hphase])⟩
      | publish b => simp [hcall, Call.isGET] at hget
      | broadcast ns b => simp [hcall, Call.isGET] at hget
    · intro hev
      obtain ⟨c', hc', hlive⟩ := ha.leaves _ hev
      rw [← hphases hc hc', hphase] at hlive
      cases hlive
  | @filtered id i c e ch hc hrec he hch =>
    refine ⟨ha.suspended id c hc (Connection.live_of_receiving hrec), ?_,
      ha.status id.uuid, rfl⟩
    exact ha.inFlight id c ch hc hch e (Connection.mem_inFlight_of_offered he)
  | @notified id i c e hc hrec he => exact ha.passed id c hc e (List.mem_of_getElem? he)
  | @disconnected id c hc hphase =>
    refine ⟨ha.suspended id c hc (by simp [hphase, Phase.live]), ?_⟩
    intro hev
    obtain ⟨c', hc', hp⟩ := ha.leaves _ hev
    rw [← hphases hc hc', hphase] at hp
    cases hp

/-! ## The history and the state -/

/-- **The status after a step is the one replayed.** -/
theorem replay_of_effect (h : Effect P s m t) (hok : ∀ id c, s.connections id = some c → c.Ok P id)
    (hs : ∀ u, s.status u = replay u s.history) (u : String) : t.status u = replay u t.history := by
  cases h with
  | @inspected id header call hnew =>
    rw [State.put_history, List.singleton_append, replay, Event.sets, ← hs, State.put_status,
      inspect_run]
    by_cases hu : u = id.uuid
    · subst hu
      rw [if_pos rfl]
      unfold State.status
      by_cases hv : statusOf (s.sessions id.uuid) = .unavailable
      · rw [if_pos hv, if_pos ⟨rfl, hv⟩]
        rfl
      · have hno : ¬ (id.uuid = id.uuid ∧ statusOf (s.sessions id.uuid) = .unavailable) :=
          fun hx => hv hx.2
        rw [if_neg hv, if_neg hno]
        split <;> rfl
    · rw [if_neg hu, if_neg fun hx => hu hx.1.symm]
  | taken => exact hs u
  | crashed => rw [State.put_status_same]; exact hs u
  | @joined id c endpoint ch l hc hphase hcall hsub =>
    rw [State.put_status_same, State.put_history]
    unfold checkEvents
    split <;> exact hs u
  | published | broadcasted | suspended | filtered =>
    rw [State.put_status_same]
    exact hs u
  | @notified id i c e hc hrec he =>
    rw [State.put_history, List.singleton_append, replay, Event.sets, ← hs, State.put_status,
      (hok id c hc).fireOnBroadcast (Connection.live_of_receiving hrec)]
    by_cases hu : u = id.uuid
    · subst hu
      rw [if_pos rfl, if_pos rfl]
      unfold Message.record
      split
      · rfl
      · split <;> rfl
    · rw [if_neg hu, if_neg (Ne.symm hu)]
  | @disconnected id c hc hphase =>
    rw [State.put_history, List.singleton_append, replay, Event.sets, ← hs, State.put_status]
    by_cases hu : u = id.uuid
    · rw [if_pos hu, if_pos hu.symm]
      rfl
    · rw [if_neg hu, if_neg (Ne.symm hu)]

/-- A connection suspends in the step that records it. -/
theorem Effect.suspends (h : Effect P s m t) (hc : s.connections id = some c)
    (hc' : t.connections id = some c') (hl : c.phase.live = false) (hl' : c'.phase.live = true) :
    .suspended id ∈ t.history := by
  have hsame : s.connections id ≠ some c' := by
    intro hc''
    rw [hc, Option.some.injEq] at hc''
    rw [hc'', hl'] at hl
    cases hl
  cases h with
  | inspected hnew =>
    rcases State.put_connections_eq_some.1 hc' with ⟨rfl, -⟩ | ⟨-, hc''⟩
    · simp [hc] at hnew
    · exact absurd hc'' hsame
  | joined | published | broadcasted | crashed =>
    rcases State.put_connections_eq_some.1 hc' with ⟨-, rfl⟩ | ⟨-, hc''⟩
    · cases hl'
    · exact absurd hc'' hsame
  | suspended =>
    rcases State.put_connections_eq_some.1 hc' with ⟨rfl, -⟩ | ⟨-, hc''⟩
    · exact List.mem_cons_self
    · exact absurd hc'' hsame
  | @taken ch i q e hq he =>
    obtain ⟨c₀, hc₀, rfl⟩ := Option.map_eq_some_iff.1 hc'
    rw [hc, Option.some.injEq] at hc₀
    rw [(c₀.offer_eq ch e).2.2.1, ← hc₀, hl] at hl'
    cases hl'
  | filtered hc₀ hrec | notified hc₀ hrec =>
    rcases State.put_connections_eq_some.1 hc' with ⟨rfl, -⟩ | ⟨-, hc''⟩
    · rw [hc, Option.some.injEq] at hc₀
      rw [hc₀, Connection.live_of_receiving hrec] at hl
      cases hl
    · exact absurd hc'' hsame
  | disconnected hc₀ hphase =>
    rcases State.put_connections_eq_some.1 hc' with ⟨rfl, -⟩ | ⟨-, hc''⟩
    · rw [hc, Option.some.injEq] at hc₀
      simp [hc₀, hphase, Phase.live] at hl
    · exact absurd hc'' hsame

/-- What a broadcast leaves on a channel was there before, or is the message. -/
theorem BroadcasterFactory.mem_broadcast {f : BroadcasterFactory} {ch' : String} {e' : Envelope}
    {q : List Envelope} (hq : f.broadcast ch' e' ch = some q) (he : e ∈ q) :
    (∃ q₀, f ch = some q₀ ∧ e ∈ q₀) ∨ (ch = ch' ∧ e = e') := by
  by_cases hne : ch = ch'
  · subst hne
    simp only [BroadcasterFactory.broadcast, Function.update_self, Option.map_eq_some_iff] at hq
    obtain ⟨q₀, hq₀, rfl⟩ := hq
    rcases List.mem_append.1 he with he | he
    · exact .inl ⟨q₀, hq₀, he⟩
    · exact .inr ⟨rfl, List.mem_singleton.1 he⟩
  · rw [BroadcasterFactory.broadcast_of_ne hne] at hq
    exact .inl ⟨q, hq, he⟩

/-- The step puts this message on the channel, and records it. -/
inductive Puts (P : Platform) (s t : State) (ch : String) : Move → Envelope → Prop
  | published {id : ResourceId} {c : Connection} {b : Message} (hc : s.connections id = some c)
      (hphase : c.phase = .admitted)
      (hev : .published id ch (s.status id.uuid) b ∈ t.history) :
      Puts P s t ch (.handle id) ⟨b, .client id⟩
  | broadcasted {id : ResourceId} {c : Connection} {ns : String} {b : Message}
      (hc : s.connections id = some c) (hphase : c.phase = .admitted)
      (hmatch : P.matchesPath ns ch = true)
      (hev : .broadcasted id ns (s.status id.uuid) b ∈ t.history) :
      Puts P s t ch (.handle id) ⟨b, .client id⟩
  | suspended {id : ResourceId} {c : Connection} {o : Message} (hc : s.connections id = some c)
      (hphase : c.phase = .ready) (hev : .suspended id ∈ t.history) :
      Puts P s t ch (.suspend id) ⟨o, .service id⟩

/-- **What is queued** was queued before, or the step has just put it there. -/
theorem Effect.puts (h : Effect P s m t) (hok : ∀ id c, s.connections id = some c → c.Ok P id)
    {q : List Envelope} (hq : t.factory ch = some q) (he : e ∈ q) :
    (∃ q₀, s.factory ch = some q₀ ∧ e ∈ q₀) ∨ Puts P s t ch m e := by
  have hlookup : ∀ {ch' : String} {q₀ : List Envelope}, s.factory.lookup ch' ch = some q₀ →
      e ∈ q₀ → ∃ q₀, s.factory ch = some q₀ ∧ e ∈ q₀ := by
    intro ch' q₀ hl he₀
    rcases BroadcasterFactory.lookup_eq_some hl with hl | rfl
    · exact ⟨q₀, hl, he₀⟩
    · cases he₀
  cases h with
  | inspected | crashed | filtered | notified | disconnected => exact .inl ⟨q, hq, he⟩
  | joined => exact .inl (hlookup hq he)
  | published hc hphase hcall hsub =>
    rcases BroadcasterFactory.mem_broadcast hq he with ⟨q₀, hq₀, he₀⟩ | ⟨rfl, rfl⟩
    · exact .inl (hlookup hq₀ he₀)
    · exact .inr (.published hc hphase List.mem_cons_self)
  | @broadcasted id c ns b hc hphase hcall =>
    change BroadcasterFactory.broadcastTo P s.factory ns _ ch = some q at hq
    unfold BroadcasterFactory.broadcastTo at hq
    split at hq
    · rename_i hmatch
      obtain ⟨q₀, hq₀, rfl⟩ := Option.map_eq_some_iff.1 hq
      rcases List.mem_append.1 he with he | he
      · exact .inl ⟨q₀, hq₀, he⟩
      · rw [List.mem_singleton.1 he]
        exact .inr (.broadcasted hc hphase hmatch List.mem_cons_self)
    · exact .inl ⟨q, hq, he⟩
  | @suspended id c hc hphase =>
    obtain ⟨ch', l, o, -, -, -, hfire⟩ := (hok id c hc).fireOnSuspend hphase s.factory
    rw [State.put_factory, hfire] at hq
    rcases BroadcasterFactory.mem_broadcast hq he with ⟨q₀, hq₀, he₀⟩ | ⟨rfl, rfl⟩
    · exact .inl ⟨q₀, hq₀, he₀⟩
    · exact .inr (.suspended hc hphase List.mem_cons_self)
  | @taken ch' i q' e' hq' he' =>
    refine .inl ?_
    by_cases hne : ch = ch'
    · subst hne
      simp only [Function.update_self, Option.some.injEq] at hq
      subst hq
      exact ⟨q', hq', List.mem_of_mem_eraseIdx he⟩
    · exact ⟨q, by simpa [hne] using hq, he⟩

/-- **What a step puts on a channel was sent.** -/
theorem sent_of_effect (h : Effect P s m t) (hok : ∀ id c, s.connections id = some c → c.Ok P id)
    (hs : ∀ ch q, s.factory ch = some q → ∀ e ∈ q, Sent P ch e s.history) {q : List Envelope}
    (hq : t.factory ch = some q) (he : e ∈ q) : Sent P ch e t.history := by
  rcases h.puts hok hq he with ⟨q₀, hq₀, he₀⟩ | hputs
  · exact (hs ch q₀ hq₀ e he₀).mono fun _ hx => h.mem_history hx
  · cases hputs with
    | published hc hphase hev => exact .inl ⟨_, hev⟩
    | broadcasted hc hphase hmatch hev => exact .inr ⟨_, _, hev, hmatch⟩
    | suspended hc hphase hev => exact hev

/-- **What passed the filter** of a connection had passed it before, or the step is the
filter that has just let it through. -/
theorem Effect.passed_source (h : Effect P s m t) (hc' : t.connections id = some c')
    (he : e ∈ c'.passed) : (∃ c, s.connections id = some c ∧ e ∈ c.passed) ∨
      ∃ i, m = .filter id i ∧ e.message.passes (s.status id.uuid) = true ∧
        ∃ ch v, .filtered id ch e v false ∈ t.history := by
  cases h with
  | inspected =>
    rcases State.put_connections_eq_some.1 hc' with ⟨-, rfl⟩ | ⟨-, hc⟩
    · cases he
    · exact .inl ⟨_, hc, he⟩
  | joined hc₀ | published hc₀ | broadcasted hc₀ | crashed hc₀ | suspended hc₀
  | disconnected hc₀ =>
    rcases State.put_connections_eq_some.1 hc' with ⟨rfl, rfl⟩ | ⟨-, hc⟩
    · exact .inl ⟨_, hc₀, he⟩
    · exact .inl ⟨_, hc, he⟩
  | @taken ch i q e' hq he' =>
    obtain ⟨c, hc, rfl⟩ := Option.map_eq_some_iff.1 hc'
    rw [(c.offer_eq ch e').2.2.2] at he
    exact .inl ⟨_, hc, he⟩
  | @filtered id' i c₀ e' ch hc₀ hrec he' hch =>
    rcases State.put_connections_eq_some.1 hc' with ⟨rfl, rfl⟩ | ⟨-, hc⟩
    · dsimp only at he
      split at he
      · rename_i hpass
        rcases List.mem_append.1 he with he | he
        · exact .inl ⟨_, hc₀, he⟩
        · obtain rfl := List.mem_singleton.1 he
          refine .inr ⟨i, rfl, hpass, ch, s.status id.uuid, ?_⟩
          rw [State.put_history, hpass]
          exact List.mem_cons_self
      · exact .inl ⟨_, hc₀, he⟩
    · exact .inl ⟨_, hc, he⟩
  | notified hc₀ =>
    rcases State.put_connections_eq_some.1 hc' with ⟨rfl, rfl⟩ | ⟨-, hc⟩
    · exact .inl ⟨_, hc₀, List.mem_of_mem_eraseIdx he⟩
    · exact .inl ⟨_, hc, he⟩

/-- What passed the filter was recorded. -/
theorem passed_of_effect (h : Effect P s m t)
    (hs : ∀ id c, s.connections id = some c → ∀ e ∈ c.passed,
      ∃ ch v, .filtered id ch e v false ∈ s.history)
    (hc' : t.connections id = some c') (he : e ∈ c'.passed) :
    ∃ ch v, .filtered id ch e v false ∈ t.history := by
  rcases h.passed_source hc' he with ⟨c, hc, he⟩ | ⟨-, -, -, hrecorded⟩
  · obtain ⟨ch, v, hv⟩ := hs id c hc e he
    exact ⟨ch, v, h.mem_history hv⟩
  · exact hrecorded

/-- **Every step keeps the account.** -/
theorem audited_of_effect (h : Effect P s m t) (hwf : WellFormed P s) (ha : Audited P s) :
    Audited P t where
  status := replay_of_effect h hwf.ok ha.status
  leaves := by
    intro e he
    rcases h.history_cases with hsame | ⟨e', hnew, -, hleaves⟩
    · exact (ha.leaves e (hsame ▸ he)).mono h
    · rw [hnew] at he
      rcases List.mem_cons.1 he with rfl | he
      · exact hleaves
      · exact (ha.leaves e he).mono h
  suspended := by
    intro id c' hc' hl'
    rcases h.connection_cases hc' with ⟨c, hc, hev⟩ | ⟨header, call, -, -, rfl⟩
    · cases hl : c.phase.live with
      | true => exact h.mem_history (ha.suspended id c hc hl)
      | false => exact h.suspends hc hc' hl hl'
    · dsimp only at hl'
      split at hl' <;> cases hl'
  queued := fun ch q hq e he => sent_of_effect h hwf.ok ha.queued hq he
  inFlight := by
    intro id c' ch hc' hb e he
    have hmono : s.history ⊆ t.history := fun _ hx => h.mem_history hx
    obtain ⟨c, hc, hlive, hwhere⟩ := h.inFlight hwf.ok hc' he
    obtain ⟨c'', hc'', hev⟩ := h.evolves hc
    rw [hc', Option.some.injEq] at hc''
    subst hc''
    rw [hev.channel hlive] at hb
    rcases hwhere with he | ⟨ch', i, q, -, hsub, hq, he⟩
    · exact (ha.inFlight id c ch hc hb e he).mono hmono
    · have hb' := (Connection.subscribed hsub).2
      rw [hb, Option.some.injEq] at hb'
      exact (ha.queued ch q (hb' ▸ hq) e (List.mem_of_getElem? he)).mono hmono
  passed := fun id c' hc' e he => passed_of_effect h ha.passed hc' he
  justified := by
    rcases h.history_cases with hsame | ⟨e, he, hrec, -⟩
    · rw [hsame]
      exact ha.justified
    · rw [he]
      exact ⟨caused_of_effect h ha hwf hrec, ha.justified⟩

theorem audited_initial : Audited P State.initial where
  status _ := rfl
  leaves e he := by cases he
  suspended _ _ hc := by cases hc
  queued _ _ hq := by cases hq
  inFlight _ _ _ hc := by cases hc
  passed _ _ hc := by cases hc
  justified := trivial

theorem audited_run {as : List Move} (hrun : (service P).run as = some s) : Audited P s :=
  service_invariant (C := fun _ _ => True) audited_initial
    (fun _ _ _ hwf ha _ h => audited_of_effect h hwf ha)
    (System.along_of_forall fun _ _ => trivial) hrun

/-- **The history accounts for every decision.** -/
theorem history_explains {as : List Move} (hrun : (service P).run as = some s) :
    (∀ u, s.status u = replay u s.history) ∧ Justified (Caused P) s.history :=
  ⟨(audited_run hrun).status, (audited_run hrun).justified⟩

/-- A handshake that succeeds, and a `POST` after it. -/
def explainedRun : List Move :=
  [.inspect ⟨"a", 0⟩ (some (ContextKey.json ⟨1, .desktop, "t"⟩)) (.subscribe .message),
    .handle ⟨"a", 0⟩, .suspend ⟨"a", 0⟩, .take "/1/DESKTOP/t" 0, .filter ⟨"a", 0⟩ 0,
    .notify ⟨"a", 0⟩ 0,
    .inspect ⟨"a", 1⟩ (some (ContextKey.json ⟨1, .desktop, "t"⟩)) (.publish {}),
    .handle ⟨"a", 1⟩]

set_option maxRecDepth 10000 in
theorem history_explains_explained : ∃ s,
    (service (.reading [⟨1, .desktop, "t"⟩])).run explainedRun = some s ∧
      s.status "a" = .authSuccessful ∧ replay "a" s.history = .authSuccessful ∧
      s.history ≠ [] ∧ Justified (Caused (.reading [⟨1, .desktop, "t"⟩])) s.history := by
  obtain ⟨s, hrun, hs⟩ := System.run_any (service (.reading [⟨1, .desktop, "t"⟩])) explainedRun
    (fun s => decide (s.status "a" = .authSuccessful ∧ s.history ≠ [])) (by decide)
  obtain ⟨hstatus, hne⟩ := of_decide_eq_true hs
  obtain ⟨hreplay, hjust⟩ := history_explains hrun
  exact ⟨s, hrun, hstatus, (hreplay "a").symm.trans hstatus, hne, hjust⟩

end

end Amps
