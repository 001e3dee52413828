import Amps.Core.Invariant
import Amps.Kernel.Broker
import Amps.Kernel.Simulation

/-!
# The service as a message broker

What the service does with messages is what the broker of `Amps.Kernel.Broker` does: its
channels are the topics, its connections the subscribers, a connection listens while it is
suspended, and a message that passed the filter is pending until the listeners of the
connection heard it, one that did not is discarded.

* `State.queued`, `State.underway`, `State.heard`, `State.filteredOut` — where the messages
  of a state are.
* `State.ledger` — the books of the broker that a state keeps, but for what was posted.
* `Move.reads` — what a step of the service does to the broker.
* `refinement` — **the service refines the broker**: step by step, whatever the status of
  the sessions, the gate and the filter decide.
-/

namespace Amps

open Transition

/-- The broker the service runs. -/
abbrev Books := Broker.Ledger ResourceId String Envelope

/-- What can happen to it. -/
abbrev Dealing := Broker.Action ResourceId String Envelope

/-! ## Where the messages are -/

/-- What the listeners of a connection heard in this event. -/
def Event.heardBy (id : ResourceId) : Event → Option Envelope
  | .notified id' e => if id' = id then some e else none
  | _ => none

/-- What the filter kept from a connection in this event. -/
def Event.keptFrom (id : ResourceId) : Event → Option Envelope
  | .filtered id' _ e _ abort => if id' = id ∧ abort = true then some e else none
  | _ => none

namespace State

/-- The messages queued on a channel. -/
def queued (s : State) (ch : String) : List Envelope := (s.factory ch).getD []

/-- Everything under way to a connection. -/
def underway (s : State) (id : ResourceId) : List Envelope :=
  ((s.connections id).map Connection.inFlight).getD []

/-- All the listeners of a connection heard, newest first. -/
def heard (s : State) (id : ResourceId) : List Envelope :=
  s.history.filterMap (Event.heardBy id)

/-- All the filter kept from a connection, newest first. -/
def filteredOut (s : State) (id : ResourceId) : List Envelope :=
  s.history.filterMap (Event.keptFrom id)

end State

theorem State.queued_of_some {s : State} {ch : String} {q : List Envelope}
    (hq : s.factory ch = some q) : s.queued ch = q := by
  rw [State.queued, hq, Option.getD_some]

theorem State.mem_queued {s : State} {ch : String} {e : Envelope} :
    e ∈ s.queued ch ↔ ∃ q, s.factory ch = some q ∧ e ∈ q := by
  cases hq : s.factory ch <;> simp [State.queued, hq]

theorem State.mem_heard {s : State} {id : ResourceId} {e : Envelope} :
    e ∈ s.heard id ↔ .notified id e ∈ s.history := by
  rw [State.heard, List.mem_filterMap]
  constructor
  · rintro ⟨ev, hev, hby⟩
    cases ev with
    | notified id' e' =>
      simp only [Event.heardBy, Option.ite_none_right_eq_some, Option.some.injEq] at hby
      obtain ⟨rfl, rfl⟩ := hby
      exact hev
    | _ => cases hby
  · exact fun hev => ⟨_, hev, if_pos rfl⟩

theorem State.mem_filteredOut {s : State} {id : ResourceId} {e : Envelope} :
    e ∈ s.filteredOut id ↔ ∃ ch v, .filtered id ch e v true ∈ s.history := by
  rw [State.filteredOut, List.mem_filterMap]
  constructor
  · rintro ⟨ev, hev, hfrom⟩
    cases ev with
    | filtered id' ch e' v ab =>
      simp only [Event.keptFrom, Option.ite_none_right_eq_some, Option.some.injEq] at hfrom
      obtain ⟨⟨rfl, rfl⟩, rfl⟩ := hfrom
      exact ⟨ch, v, hev⟩
    | _ => cases hfrom
  · rintro ⟨ch, v, hev⟩
    exact ⟨_, hev, if_pos ⟨rfl, rfl⟩⟩

/-- The channel of a connection, once it suspended. -/
def Connection.topic (c : Connection) : Option String :=
  if c.phase.live then c.resource.broadcaster else none

/-- Is the connection suspended? -/
def Connection.listens (c : Connection) : Bool := c.phase = .suspended

/-- The books a state keeps, given what was posted. -/
def State.ledger (s : State) (posted : String → Multiset Envelope) : Books where
  topic id := (s.connections id).bind Connection.topic
  listening id := (s.connections id).any Connection.listens
  posted := posted
  queue ch := ↑(s.queued ch)
  pending id := ↑(s.underway id)
  delivered id := ↑(s.heard id)
  discarded id := ↑(s.filteredOut id)

/-! ## What a step does to the broker -/

/-- Does a broadcast to the namespace reach the channel? -/
def BroadcasterFactory.reaches (P : Platform) (f : BroadcasterFactory) (ns ch : String) : Bool :=
  P.matchesPath ns ch && (f ch).isSome

/-- The resource method of a request posts what it submits. -/
def Connection.posts (P : Platform) (f : BroadcasterFactory) (id : ResourceId) (c : Connection) :
    List Dealing :=
  match c.call with
  | .subscribe _ => []
  | .publish m =>
      (channelOf P c.resource).toList.map fun ch => .post (fun ch' => ch' = ch) ⟨m, .client id⟩
  | .broadcast ns m => ns.toList.map fun ns => .post (f.reaches P ns) ⟨m, .client id⟩

/-- A connection that suspends subscribes, and its listener posts the outcome. -/
def Connection.subscribes (P : Platform) (id : ResourceId) (c : Connection) : List Dealing :=
  match subscription P c.resource with
  | none => []
  | some (ch, l) =>
      .subscribe id ch ::
        l.onSuspend.toList.map fun m => .post (fun ch' => ch' = ch) ⟨m, .service id⟩

/-- The listeners of a connection hear a message, and may resume it. -/
def Connection.hears (id : ResourceId) (c : Connection) (e : Envelope) : List Dealing :=
  .deliver id e ::
    if c.phase = .suspended ∧ c.resource.listeners.any Listener.resumes then [.leave id] else []

/-- What a step of the service does to the broker. -/
def Move.reads (P : Platform) (s : State) : Move → List Dealing
  | .inspect .. => []
  | .handle id => ((s.connections id).map (Connection.posts P s.factory id)).getD []
  | .suspend id => ((s.connections id).map (Connection.subscribes P id)).getD []
  | .take ch i => ((s.queued ch)[i]?).toList.map (.take ch)
  | .filter id i =>
      (((s.connections id).bind fun c => c.offered[i]?).filter
        fun e => !e.message.passes (s.status id.uuid)).toList.map (.discard id)
  | .notify id i =>
      ((s.connections id).bind fun c => (c.passed[i]?).map (c.hears id)).getD []
  | .disconnect id => [.leave id]

/-! ## The books after a step -/

theorem coe_of_getElem? {l : List Envelope} {i : Nat} {e : Envelope} (h : l[i]? = some e) :
    (l : Multiset Envelope) = e ::ₘ ↑(l.eraseIdx i) := by
  obtain ⟨hi, rfl⟩ := List.getElem?_eq_some_iff.1 h
  exact Multiset.coe_eq_coe.2 (List.getElem_cons_eraseIdx_perm hi).symm

theorem Connection.coe_inFlight (c : Connection) :
    (c.inFlight : Multiset Envelope) = ↑c.offered + ↑c.passed := rfl

section

variable {P : Platform} {s t : State} {m : Move} {id : ResourceId} {c c' : Connection}
  {posted : String → Multiset Envelope}

@[simp] theorem State.ledger_topic : (s.ledger posted).topic id =
    (s.connections id).bind Connection.topic := rfl

@[simp] theorem State.ledger_listening : (s.ledger posted).listening id =
    (s.connections id).any Connection.listens := rfl

@[simp] theorem State.ledger_posted : (s.ledger posted).posted = posted := rfl

@[simp] theorem State.ledger_queue (ch : String) : (s.ledger posted).queue ch = ↑(s.queued ch) :=
  rfl

theorem State.ledger_pending (s : State) (posted : String → Multiset Envelope)
    (hc : s.connections id = some c) : (s.ledger posted).pending id = ↑c.offered + ↑c.passed := by
  rw [← c.coe_inFlight]
  simp only [State.ledger, State.underway, hc, Option.map_some, Option.getD_some]

/-- The books after one connection was replaced. -/
theorem State.ledger_put (s : State) (id : ResourceId) (c : Connection) (v : Option Status)
    (f : BroadcasterFactory) (es : List Event) (posted : String → Multiset Envelope) :
    (s.put id c v f es).ledger posted =
      { topic := Function.update (s.ledger posted).topic id c.topic
        listening := Function.update (s.ledger posted).listening id c.listens
        posted := posted
        queue := fun ch => ↑((f ch).getD [])
        pending := Function.update (s.ledger posted).pending id ↑c.inFlight
        delivered := fun k => ↑(es.filterMap (Event.heardBy k)) + (s.ledger posted).delivered k
        discarded := fun k =>
          ↑(es.filterMap (Event.keptFrom k)) + (s.ledger posted).discarded k } := by
  have hput : ∀ {β : Type} (g : Option Connection → β) (k : ResourceId),
      g ((s.put id c v f es).connections k) =
        Function.update (fun k => g (s.connections k)) id (g (some c)) k := by
    intro β g k
    by_cases hk : k = id
    · subst hk
      simp
    · simp [hk, State.put_connections_of_ne]
  apply Broker.Ledger.ext
  · funext k
    exact hput (fun c => c.bind Connection.topic) k
  · funext k
    exact hput (fun c => c.any Connection.listens) k
  · rfl
  · rfl
  · funext k
    exact hput (fun c => ((c.map Connection.inFlight).getD [] : Multiset Envelope)) k
  · funext k
    show ((es ++ s.history).filterMap (Event.heardBy k) : Multiset Envelope) = _
    rw [List.filterMap_append, ← Multiset.coe_add]
    rfl
  · funext k
    show ((es ++ s.history).filterMap (Event.keptFrom k) : Multiset Envelope) = _
    rw [List.filterMap_append, ← Multiset.coe_add]
    rfl

theorem Connection.listens_of_not_live (h : c.phase.live = false) : c.listens = false := by
  simp only [Connection.listens, decide_eq_false_iff_not]
  intro hs
  simp [hs, Phase.live] at h

/-- A connection that is not live keeps no books. -/
theorem State.ledger_put_quiet {v : Option Status} {f : BroadcasterFactory} {es : List Event}
    (hold : ∀ c₀, s.connections id = some c₀ → c₀.phase.live = false ∧ c₀.inFlight = [])
    (hnew : c.phase.live = false ∧ c.inFlight = [])
    (hes : ∀ k, es.filterMap (Event.heardBy k) = [] ∧ es.filterMap (Event.keptFrom k) = []) :
    (s.put id c v f es).ledger posted =
      { s.ledger posted with queue := fun ch => ↑((f ch).getD []) } := by
  obtain ⟨hlive, hempty⟩ := hnew
  have htopic : (s.ledger posted).topic id = c.topic := by
    rw [State.ledger_topic]
    cases hc : s.connections id with
    | none => simp [Connection.topic, hlive]
    | some c₀ => simp [Connection.topic, hlive, (hold c₀ hc).1]
  have hlistening : (s.ledger posted).listening id = c.listens := by
    rw [State.ledger_listening, c.listens_of_not_live hlive]
    cases hc : s.connections id with
    | none => rfl
    | some c₀ => simp [c₀.listens_of_not_live (hold c₀ hc).1]
  have hpending : (s.ledger posted).pending id = ↑c.inFlight := by
    show ((((s.connections id).map Connection.inFlight).getD [] : List Envelope) :
      Multiset Envelope) = _
    cases hc : s.connections id with
    | none => simp [hempty]
    | some c₀ => simp [hempty, (hold c₀ hc).2]
  rw [State.ledger_put, ← htopic, ← hlistening, ← hpending]
  simp [hes, Function.update_eq_self]

/-- The books after a request that is not live went on. -/
theorem State.ledger_advance {r : AtmosphereResource} {p : Phase} {v : Option Status}
    {f : BroadcasterFactory} {es : List Event} (hc : s.connections id = some c)
    (hquiet : c.phase.live = false ∧ c.inFlight = []) (hp : p.live = false)
    (hes : ∀ k, es.filterMap (Event.heardBy k) = [] ∧ es.filterMap (Event.keptFrom k) = []) :
    (s.put id { c with resource := r, phase := p } v f es).ledger posted =
      { s.ledger posted with queue := fun ch => ↑((f ch).getD []) } := by
  refine State.ledger_put_quiet ?_ ⟨hp, hquiet.2⟩ hes
  intro c₀ hc₀
  rw [hc, Option.some.injEq] at hc₀
  rwa [← hc₀]

/-! ## What was posted -/

/-- What was posted on a channel is genuine, and no two messages have one origin. -/
def Posted (P : Platform) (s : State) (posted : String → Multiset Envelope) : Prop :=
  ∀ ch, (∀ e ∈ posted ch, Genuine P s ch e) ∧ ((posted ch).map Envelope.origin).Nodup

theorem Posted.mono (h : Effect P s m t) (hp : Posted P s posted) : Posted P t posted :=
  fun ch => ⟨fun e he => ((hp ch).1 e he).mono h, (hp ch).2⟩

/-- A step posts a message no other message of a channel has the origin of. -/
theorem Posted.post (h : Effect P s m t) (hp : Posted P s posted) {p : String → Bool} {e : Envelope}
    (hG : ∀ ch, p ch = true → Genuine P t ch e)
    (hfresh : ∀ ch e', Genuine P s ch e' → e'.origin ≠ e.origin) :
    Posted P t fun ch => if p ch then e ::ₘ posted ch else posted ch := by
  intro ch
  obtain ⟨hgen, hnodup⟩ := hp.mono h ch
  show (∀ e' ∈ if p ch then e ::ₘ posted ch else posted ch, Genuine P t ch e') ∧
    ((if p ch then e ::ₘ posted ch else posted ch).map Envelope.origin).Nodup
  split
  · rename_i hpch
    constructor
    · intro e' he'
      rcases Multiset.mem_cons.1 he' with rfl | he'
      · exact hG ch hpch
      · exact hgen e' he'
    · rw [Multiset.map_cons, Multiset.nodup_cons]
      refine ⟨?_, hnodup⟩
      intro hmem
      obtain ⟨e', he', ho⟩ := Multiset.mem_map.1 hmem
      exact hfresh ch e' ((hp ch).1 e' he') ho
  · exact ⟨hgen, hnodup⟩

/-- A request that is still to run submitted nothing so far. -/
theorem fresh_client (hc : s.connections id = some c) (hphase : c.phase = .admitted)
    (ch : String) (e : Envelope) (hG : Genuine P s ch e) : e.origin ≠ .client id := by
  intro ho
  unfold Genuine at hG
  rw [ho] at hG
  obtain ⟨c', hc', hd, -⟩ := hG
  rw [hc, Option.some.injEq] at hc'
  rw [← hc', hphase] at hd
  cases hd

/-- A connection that is still to suspend broadcast nothing so far. -/
theorem fresh_service (hc : s.connections id = some c) (hphase : c.phase = .ready)
    (ch : String) (e : Envelope) (hG : Genuine P s ch e) : e.origin ≠ .service id := by
  intro ho
  unfold Genuine at hG
  rw [ho] at hG
  obtain ⟨c', l, hc', hl, -⟩ := hG
  rw [hc, Option.some.injEq] at hc'
  rw [← hc', hphase] at hl
  cases hl

/-! ## The refinement -/

theorem Connection.topic_of_suspended {ch : String} (hphase : c.phase = .suspended) :
    c.topic = some ch ↔ c.resource.broadcaster = some ch := by
  simp [Connection.topic, hphase, Phase.live]

/-- What a lookup leaves queued. -/
theorem BroadcasterFactory.getD_lookup (f : BroadcasterFactory) (id ch : String) :
    (f.lookup id ch).getD [] = (f ch).getD [] := by
  by_cases hne : ch = id
  · subst hne
    unfold BroadcasterFactory.lookup
    split
    · rename_i hnone
      simp [hnone]
    · rfl
  · rw [BroadcasterFactory.lookup_of_ne hne]

/-- What a broadcast on an existing channel leaves queued. -/
theorem BroadcasterFactory.coe_broadcast {f : BroadcasterFactory} {id : String} (e : Envelope)
    (hf : f id ≠ none) (ch : String) : (((f.broadcast id e ch).getD [] : List Envelope) :
      Multiset Envelope) =
      if decide (ch = id) then e ::ₘ ↑((f ch).getD []) else ↑((f ch).getD []) := by
  by_cases hne : ch = id
  · subst hne
    obtain ⟨q, hq⟩ := Option.ne_none_iff_exists'.1 hf
    rw [BroadcasterFactory.broadcast_self hq]
    simp [hq, Multiset.coe_eq_coe]
  · rw [BroadcasterFactory.broadcast_of_ne hne]
    simp [hne]

/-- What a broadcast to a namespace leaves queued. -/
theorem BroadcasterFactory.coe_broadcastTo (f : BroadcasterFactory) (ns : String) (e : Envelope)
    (ch : String) : (((f.broadcastTo P ns e ch).getD [] : List Envelope) : Multiset Envelope) =
      if f.reaches P ns ch then e ::ₘ ↑((f ch).getD []) else ↑((f ch).getD []) := by
  unfold BroadcasterFactory.broadcastTo BroadcasterFactory.reaches
  cases hm : P.matchesPath ns ch <;> cases hq : f ch <;> simp [Multiset.coe_eq_coe]

/-- The broker after what a step of the service does to it. -/
def Follows (P : Platform) (s : State) (m : Move) (t : State)
    (posted : String → Multiset Envelope) : Prop :=
  ∃ posted', (Broker.broker ResourceId String Envelope).runFrom (s.ledger posted) (m.reads P s) =
    some (t.ledger posted') ∧ Posted P t posted'

/-- A step that leaves the books alone. -/
theorem follows_same (h : Effect P s m t) (hp : Posted P s posted) (hreads : m.reads P s = [])
    (hsame : t.ledger posted = s.ledger posted) : Follows P s m t posted := by
  refine ⟨posted, ?_, hp.mono h⟩
  rw [hreads, hsame]
  rfl

/-- A step that posts a message. -/
theorem follows_post (h : Effect P s m t) (hp : Posted P s posted) {p : String → Bool}
    {e : Envelope} (hreads : m.reads P s = [.post p e])
    (hG : ∀ ch, p ch = true → Genuine P t ch e)
    (hfresh : ∀ ch e', Genuine P s ch e' → e'.origin ≠ e.origin)
    (hafter : ∀ posted', t.ledger posted' =
      { s.ledger posted' with
        queue := fun ch => if p ch then e ::ₘ ↑(s.queued ch) else ↑(s.queued ch) }) :
    Follows P s m t posted := by
  refine ⟨_, ?_, hp.post h hG hfresh⟩
  rw [hreads, hafter]
  rfl

/-- A request that runs its resource method joins a channel, posts its body, or throws. -/
theorem follows_handle (hwf : WellFormed P s) (h : Effect P s (.handle id) t)
    (hp : Posted P s posted) : Follows P s (.handle id) t posted := by
  have hquiet : ∀ {c : Connection}, s.connections id = some c → c.phase = .admitted →
      c.phase.live = false ∧ c.inFlight = [] := by
    intro c hc hphase
    have hl : c.phase.live = false := by simp [hphase, Phase.live]
    obtain ⟨ho, hpass⟩ := (hwf.ok id c hc).quiet hl
    exact ⟨hl, by simp [Connection.inFlight, ho, hpass]⟩
  have hlookup : ∀ (ch : String) (posted : String → Multiset Envelope),
      ({ s.ledger posted with
        queue := fun ch' => (((s.factory.lookup ch ch').getD [] : List Envelope) :
          Multiset Envelope) } : Books) = s.ledger posted := by
    intro ch posted
    simp only [BroadcasterFactory.getD_lookup]
    rfl
  cases h with
  | @joined _ c endpoint ch l hc hphase hcall hsub =>
    apply follows_same (.joined hc hphase hcall hsub) hp
    · simp [Move.reads, hc, Connection.posts, hcall]
    · have hes : ∀ k, (checkEvents P id c.resource).filterMap (Event.heardBy k) = [] ∧
          (checkEvents P id c.resource).filterMap (Event.keptFrom k) = [] := by
        intro k
        unfold checkEvents
        split <;> exact ⟨rfl, rfl⟩
      rw [State.ledger_advance hc (hquiet hc hphase) rfl hes, hlookup]
  | @published _ c b ch l hc hphase hcall hsub =>
    have hfx : Effect P s _ _ := .published hc hphase hcall hsub
    apply follows_post (p := fun ch' => ch' = ch) (e := ⟨b, .client id⟩) hfx hp
    · simp [Move.reads, hc, Connection.posts, hcall, channelOf, hsub]
    · intro ch' _
      exact ⟨_, State.put_connections_self, rfl, by simp [hcall, Call.body]⟩
    · exact fresh_client hc hphase
    · intro posted'
      rw [State.ledger_advance hc (hquiet hc hphase) rfl fun k => ⟨rfl, rfl⟩]
      simp only [BroadcasterFactory.coe_broadcast _ (BroadcasterFactory.lookup_self s.factory ch),
        BroadcasterFactory.getD_lookup]
      rfl
  | @broadcasted _ c ns b hc hphase hcall =>
    have hfx : Effect P s _ _ := .broadcasted hc hphase hcall
    apply follows_post (p := s.factory.reaches P ns) (e := ⟨b, .client id⟩) hfx hp
    · simp [Move.reads, hc, Connection.posts, hcall]
    · intro ch' _
      exact ⟨_, State.put_connections_self, rfl, by simp [hcall, Call.body]⟩
    · exact fresh_client hc hphase
    · intro posted'
      rw [State.ledger_advance hc (hquiet hc hphase) rfl fun k => ⟨rfl, rfl⟩]
      simp only [BroadcasterFactory.coe_broadcastTo]
      rfl
  | @crashed _ c hc hphase hthrow =>
    apply follows_same (.crashed hc hphase hthrow) hp
    · rcases hthrow with ⟨hcall, hsub⟩ | ⟨b, hcall⟩
      · cases hkind : c.call with
        | subscribe endpoint => simp [Move.reads, hc, Connection.posts, hkind]
        | publish b => simp [Move.reads, hc, Connection.posts, hkind, channelOf, hsub]
        | broadcast ns b => exact absurd hkind (hcall ns b)
      · simp [Move.reads, hc, Connection.posts, hcall]
    · rw [State.ledger_advance hc (hquiet hc hphase) rfl fun k => ⟨rfl, rfl⟩]
      rfl

/-- A request that arrives has no books yet. -/
theorem follows_inspect {header : Option String} {call : Call}
    (h : Effect P s (.inspect id header call) t) (hp : Posted P s posted) :
    Follows P s (.inspect id header call) t posted := by
  refine follows_same h hp rfl ?_
  cases h with
  | inspected hnew =>
    have hlive : ∀ p : Prop, [Decidable p] →
        (if p then Phase.admitted else .dropped).live = false := by
      intro p _
      split <;> rfl
    rw [State.ledger_put_quiet (by simp [hnew]) ⟨hlive _, rfl⟩ fun k => ⟨rfl, rfl⟩]
    rfl

/-- A connection that suspends subscribes to its channel, and its outcome is posted. -/
theorem follows_suspend (hwf : WellFormed P s) (h : Effect P s (.suspend id) t)
    (hp : Posted P s posted) : Follows P s (.suspend id) t posted := by
  have hfx := h
  cases h with
  | @suspended _ c hc hphase =>
    obtain ⟨ch, l, o, hsub, hb, ho, hfire⟩ := (hwf.ok id c hc).fireOnSuspend hphase s.factory
    have hreads : (Move.suspend id).reads P s =
        [.subscribe id ch, .post (fun ch' => ch' = ch) ⟨o, .service id⟩] := by
      simp [Move.reads, hc, Connection.subscribes, hsub, ho]
    have hnew : (s.ledger posted).topic id = none := by
      simp [hc, Connection.topic, hphase, Phase.live]
    refine ⟨_, ?_, hp.post (p := fun ch' => ch' = ch) (e := ⟨o, .service id⟩) hfx ?_
      (fresh_service hc hphase)⟩
    · rw [hreads, System.runFrom_cons_eq_some]
      refine ⟨{ s.ledger posted with
          topic := Function.update (s.ledger posted).topic id (some ch)
          listening := Function.update (s.ledger posted).listening id true }, ?_, ?_⟩
      · exact if_pos hnew
      · rw [State.ledger_put, hfire]
        have hpending : (s.ledger posted).pending id = ↑c.inFlight := s.ledger_pending posted hc
        have htopic : ({ c with
            resource := c.resource.addEventListener .webSocketEventListenerAdapterImpl
            phase := .suspended } : Connection).topic = some ch :=
          (Connection.topic_of_suspended rfl).2 hb
        have hexists := hwf.created id c ch hc hb
        apply congrArg some
        apply Broker.Ledger.ext
        · exact congrArg (Function.update (s.ledger posted).topic id) htopic.symm
        · rfl
        · rfl
        · funext ch'
          exact (BroadcasterFactory.coe_broadcast _ hexists ch').symm
        · exact (Function.update_eq_self_iff.2 hpending.symm).symm
        · rfl
        · rfl
    · intro ch' hch'
      rw [decide_eq_true_eq] at hch'
      subst hch'
      exact ⟨_, l, State.put_connections_self, rfl, hsub, ho⟩

theorem Connection.subscribedTo_iff {ch : String} :
    c.subscribedTo ch = true ↔ c.listens = true ∧ c.topic = some ch := by
  simp only [Connection.subscribedTo, Connection.listens, Bool.and_eq_true, decide_eq_true_eq]
  constructor
  · rintro ⟨hphase, hb⟩
    exact ⟨hphase, (Connection.topic_of_suspended hphase).2 hb⟩
  · rintro ⟨hphase, ht⟩
    exact ⟨hphase, (Connection.topic_of_suspended hphase).1 ht⟩

theorem Connection.coe_inFlight_offer (ch : String) (e : Envelope) (c : Connection) :
    ((c.offer ch e).inFlight : Multiset Envelope) =
      if c.listens = true ∧ c.topic = some ch then e ::ₘ ↑c.inFlight else ↑c.inFlight := by
  unfold Connection.offer
  by_cases hsub : c.subscribedTo ch = true
  · rw [if_pos hsub, if_pos (Connection.subscribedTo_iff.1 hsub)]
    apply Multiset.coe_eq_coe.2
    simp only [Connection.inFlight, List.append_assoc, List.singleton_append]
    exact List.perm_middle
  · rw [if_neg hsub, if_neg fun h => hsub (Connection.subscribedTo_iff.2 h)]

/-- What a channel offers becomes pending for its subscribers. -/
theorem follows_take {ch : String} {i : Nat} (h : Effect P s (.take ch i) t)
    (hp : Posted P s posted) : Follows P s (.take ch i) t posted := by
  have hfx := h
  cases h with
  | @taken _ _ q e hq he =>
    have hqueued := State.queued_of_some hq
    have hcoe : (s.queued ch : Multiset Envelope) = e ::ₘ ↑(q.eraseIdx i) := by
      rw [hqueued]
      exact coe_of_getElem? he
    refine ⟨posted, ?_, hp.mono hfx⟩
    have hreads : (Move.take ch i).reads P s = [.take ch e] := by
      simp [Move.reads, hqueued, he]
    have hmem : e ∈ (s.ledger posted).queue ch := by
      rw [State.ledger_queue, hcoe]
      exact Multiset.mem_cons_self e _
    rw [hreads, System.runFrom_cons_eq_some]
    refine ⟨_, if_pos hmem, ?_⟩
    apply congrArg some
    apply Broker.Ledger.ext
    · funext k
      show (s.connections k).bind Connection.topic =
        ((s.connections k).map (Connection.offer ch e)).bind Connection.topic
      cases hc : s.connections k with
      | none => rfl
      | some c =>
        obtain ⟨hr, -, hph, -⟩ := c.offer_eq ch e
        simp [Connection.topic, hr, hph]
    · funext k
      show (s.connections k).any Connection.listens =
        ((s.connections k).map (Connection.offer ch e)).any Connection.listens
      cases hc : s.connections k with
      | none => rfl
      | some c =>
        obtain ⟨-, -, hph, -⟩ := c.offer_eq ch e
        simp [Connection.listens, hph]
    · rfl
    · funext ch'
      show Function.update (s.ledger posted).queue ch (((s.ledger posted).queue ch).erase e) ch' =
        ↑((Function.update s.factory ch (some (q.eraseIdx i)) ch').getD [])
      by_cases hne : ch' = ch
      · subst hne
        rw [Function.update_self, Function.update_self, State.ledger_queue, hcoe,
          Multiset.erase_cons_head]
        rfl
      · rw [Function.update_of_ne hne, Function.update_of_ne hne]
        rfl
    · funext k
      show (if (s.connections k).any Connection.listens = true ∧
          (s.connections k).bind Connection.topic = some ch
        then e ::ₘ ↑(s.underway k) else ↑(s.underway k)) =
          ↑((((s.connections k).map (Connection.offer ch e)).map Connection.inFlight).getD [])
      cases hc : s.connections k with
      | none => simp [State.underway, hc]
      | some c => simp [State.underway, hc, c.coe_inFlight_offer]
    · rfl
    · rfl

/-- The books after a connection that receives dealt with a message. -/
theorem State.ledger_receive {p : Phase} {o ps : List Envelope} {v : Option Status}
    {es : List Event} (hs ks : List Envelope) (hc : s.connections id = some c)
    (hrec : c.receiving = true) (hp : c.phase.Steps p)
    (hheard : ∀ k, es.filterMap (Event.heardBy k) = if id = k then hs else [])
    (hkept : ∀ k, es.filterMap (Event.keptFrom k) = if id = k then ks else []) :
    (s.put id { c with phase := p, offered := o, passed := ps } v s.factory es).ledger posted =
      { s.ledger posted with
        listening := Function.update (s.ledger posted).listening id (p = .suspended)
        pending := Function.update (s.ledger posted).pending id (↑o + ↑ps)
        delivered := Function.update (s.ledger posted).delivered id
          (↑hs + (s.ledger posted).delivered id)
        discarded := Function.update (s.ledger posted).discarded id
          (↑ks + (s.ledger posted).discarded id) } := by
  have hlive := Connection.live_of_receiving hrec
  have htopic : (s.ledger posted).topic id =
      ({ c with phase := p, offered := o, passed := ps } : Connection).topic := by
    simp [hc, Connection.topic, hlive, hp.live hlive]
  -- the events are about this connection only
  have hbooks : ∀ (xs : List Envelope) (g : ResourceId → Multiset Envelope),
      (fun k => ((if id = k then xs else [] : List Envelope) : Multiset Envelope) + g k) =
        Function.update g id (↑xs + g id) := by
    intro xs g
    funext k
    by_cases hk : k = id
    · subst hk
      simp
    · simp [hk, Ne.symm hk]
  rw [State.ledger_put, ← htopic, Function.update_eq_self]
  simp only [hheard, hkept, hbooks]
  rfl

/-- What one call of the filter keeps from a connection. -/
theorem keptFrom_filtered (k : ResourceId) (ch : String) (e : Envelope) (v : Status) (ab : Bool) :
    [Event.filtered id ch e v ab].filterMap (Event.keptFrom k) =
      if id = k then (if ab = true then [e] else []) else [] := by
  by_cases hk : id = k <;> cases ab <;> simp [Event.keptFrom, hk]

/-- What the listeners of a connection hear in one delivery. -/
theorem heardBy_notified (k : ResourceId) (e : Envelope) :
    [Event.notified id e].filterMap (Event.heardBy k) = if id = k then [e] else [] := by
  by_cases hk : id = k <;> simp [Event.heardBy, hk]

/-- A connection that keeps its phase goes on listening, or does not. -/
theorem State.ledger_listening_same (s : State) (posted : String → Multiset Envelope)
    (hc : s.connections id = some c) :
    Function.update (s.ledger posted).listening id (c.phase = .suspended) =
      (s.ledger posted).listening := by
  rw [Function.update_eq_self_iff, State.ledger_listening, hc]
  rfl

/-- The filter discards a message, or lets it pass and changes nothing. -/
theorem follows_filter {i : Nat} (h : Effect P s (.filter id i) t) (hp : Posted P s posted) :
    Follows P s (.filter id i) t posted := by
  have hfx := h
  cases h with
  | @filtered _ _ c e ch hc hrec he hch =>
    have hpending := s.ledger_pending posted hc
    have hlistening := s.ledger_listening_same posted hc
    have hcoe : (c.offered : Multiset Envelope) = e ::ₘ ↑(c.offered.eraseIdx i) :=
      coe_of_getElem? he
    by_cases hpass : e.message.passes (s.status id.uuid) = true
    · refine follows_same hfx hp ?_ ?_
      · simp [Move.reads, hc, he, hpass]
      · have hsame : Function.update (s.ledger posted).pending id
            (↑(c.offered.eraseIdx i) + ↑(c.passed ++ [e])) = (s.ledger posted).pending := by
          rw [Function.update_eq_self_iff, hpending, hcoe, ← Multiset.coe_add,
            Multiset.coe_singleton, Multiset.cons_add, ← Multiset.singleton_add,
            ← add_assoc, add_comm]
        rw [if_pos hpass, hpass, State.ledger_receive [] [] hc hrec (.inl rfl),
          hlistening, hsame]
        · simp only [Multiset.coe_nil, zero_add, Function.update_eq_self]
        · intro k
          split <;> rfl
        · exact fun k => keptFrom_filtered k ch e _ _
    · have hkept : e.message.passes (s.status id.uuid) = false := by simpa using hpass
      have hreads : (Move.filter id i).reads P s = [.discard id e] := by
        simp [Move.reads, hc, he, hkept]
      have hmem : e ∈ (s.ledger posted).pending id := by
        rw [hpending, hcoe]
        exact Multiset.mem_add.2 (.inl (Multiset.mem_cons_self e _))
      have herase : ((s.ledger posted).pending id).erase e =
          ↑(c.offered.eraseIdx i) + ↑c.passed := by
        rw [hpending, hcoe, Multiset.cons_add, Multiset.erase_cons_head]
      refine ⟨posted, ?_, hp.mono hfx⟩
      rw [hreads, System.runFrom_cons_eq_some]
      refine ⟨_, if_pos hmem, ?_⟩
      apply congrArg some
      rw [if_neg hpass, hkept, State.ledger_receive [] [e] hc hrec (.inl rfl),
        hlistening, herase]
      · simp
      · intro k
        split <;> rfl
      · exact fun k => keptFrom_filtered k ch e _ _

/-- The listeners of a connection hear a message, and may resume it. -/
theorem follows_notify {i : Nat} (hwf : WellFormed P s) (h : Effect P s (.notify id i) t)
    (hp : Posted P s posted) : Follows P s (.notify id i) t posted := by
  have hfx := h
  cases h with
  | @notified _ _ c e hc hrec he =>
    have hpending := s.ledger_pending posted hc
    have hcoe : (c.passed : Multiset Envelope) = e ::ₘ ↑(c.passed.eraseIdx i) :=
      coe_of_getElem? he
    have hmem : e ∈ (s.ledger posted).pending id := by
      rw [hpending, hcoe]
      exact Multiset.mem_add.2 (.inr (Multiset.mem_cons_self e _))
    have herase : ((s.ledger posted).pending id).erase e =
        ↑c.offered + ↑(c.passed.eraseIdx i) := by
      rw [hpending, hcoe, Multiset.add_cons, Multiset.erase_cons_head]
    have hfire := (hwf.ok id c hc).fireOnBroadcast (Connection.live_of_receiving hrec) e.message
      (s.sessions id.uuid, c.phase)
    have hafter : ∀ p, c.phase.Steps p → ∀ v,
        (s.put id { c with phase := p, passed := c.passed.eraseIdx i } v s.factory
          [.notified id e]).ledger posted =
        { s.ledger posted with
          listening := Function.update (s.ledger posted).listening id (p = .suspended)
          pending := Function.update (s.ledger posted).pending id
            (((s.ledger posted).pending id).erase e)
          delivered := Function.update (s.ledger posted).delivered id
            (e ::ₘ (s.ledger posted).delivered id) } := by
      intro p hsteps v
      rw [State.ledger_receive [e] [] hc hrec hsteps, herase]
      · simp
      · exact fun k => heardBy_notified k e
      · intro k
        split <;> rfl
    refine ⟨posted, ?_, hp.mono hfx⟩
    rw [hafter _ (fireOnBroadcast_phase _ _ _ _), hfire]
    by_cases hleaves : c.phase = .suspended ∧ c.resource.listeners.any Listener.resumes = true
    · -- the connection hears the message, and is resumed
      have hreads : (Move.notify id i).reads P s = [.deliver id e, .leave id] := by
        simp [Move.reads, hc, he, Connection.hears, hleaves]
      have hlistens : (s.ledger posted).listening id = true := by
        simp [hc, Connection.listens, hleaves.1]
      rw [hreads, System.runFrom_cons_eq_some]
      refine ⟨_, if_pos hmem, ?_⟩
      rw [System.runFrom_cons_eq_some]
      refine ⟨_, if_pos hlistens, ?_⟩
      simp [hleaves, Phase.resume]
    · have hreads : (Move.notify id i).reads P s = [.deliver id e] := by
        simp only [Move.reads, hc, he, Connection.hears, if_neg hleaves, Option.bind_some,
          Option.map_some, Option.getD_some]
      have hphase : (if c.resource.listeners.any Listener.resumes = true then c.phase.resume
          else c.phase) = c.phase := by
        split
        · rename_i hany
          have hne : c.phase ≠ .suspended := fun h => hleaves ⟨h, hany⟩
          revert hne
          cases c.phase <;> simp [Phase.resume]
        · rfl
      rw [hreads, System.runFrom_cons_eq_some]
      refine ⟨_, if_pos hmem, ?_⟩
      rw [hphase, s.ledger_listening_same posted hc]
      rfl

/-- A connection that disconnects leaves. -/
theorem follows_disconnect (h : Effect P s (.disconnect id) t) (hp : Posted P s posted) :
    Follows P s (.disconnect id) t posted := by
  have hfx := h
  cases h with
  | @disconnected _ c hc hphase =>
    have hrec : c.receiving = true := by simp [Connection.receiving, hphase]
    have hlistens : (s.ledger posted).listening id = true := by
      simp [hc, Connection.listens, hphase]
    have hpending : Function.update (s.ledger posted).pending id (↑c.offered + ↑c.passed) =
        (s.ledger posted).pending := by
      rw [Function.update_eq_self_iff, s.ledger_pending posted hc]
    refine ⟨posted, ?_, hp.mono hfx⟩
    show (Broker.broker ResourceId String Envelope).runFrom _ [.leave id] = _
    rw [System.runFrom_cons_eq_some]
    refine ⟨_, if_pos hlistens, ?_⟩
    rw [State.ledger_receive [] [] hc hrec (.inr (by simp [hphase, Phase.next])),
      hpending]
    · simp
    · intro k
      split <;> rfl
    · intro k
      split <;> rfl

/-- **Each step of the service is what it reads as.** -/
theorem follows_of_effect (hwf : WellFormed P s) (h : Effect P s m t) (hp : Posted P s posted) :
    Follows P s m t posted := by
  cases m with
  | inspect id header call => exact follows_inspect h hp
  | handle id => exact follows_handle hwf h hp
  | suspend id => exact follows_suspend hwf h hp
  | take ch i => exact follows_take h hp
  | filter id i => exact follows_filter h hp
  | notify id i => exact follows_notify hwf h hp
  | disconnect id => exact follows_disconnect h hp

end

/-- **The service refines the broker.**  The sessions, the gate and the filter only decide
which of the things a broker can do happen. -/
def refinement (P : Platform) :
    Simulation (service P) (Broker.broker ResourceId String Envelope) fun _ _ => True where
  reads s m := m.reads P s
  rel s b := WellFormed P s ∧ ∃ posted, b = s.ledger posted ∧ Posted P s posted
  init := by
    refine ⟨wellFormed_initial, fun _ => 0, rfl, fun ch => ⟨?_, ?_⟩⟩
    · intro e he
      cases he
    · exact Multiset.nodup_zero
  step := by
    rintro s b m t ⟨hwf, posted, rfl, hp⟩ - hstep
    have h := effect_of_step hstep
    obtain ⟨posted', hrun, hp'⟩ := follows_of_effect hwf h hp
    exact ⟨_, hrun, wellFormed_of_effect h hwf, posted', rfl, hp'⟩

end Amps
