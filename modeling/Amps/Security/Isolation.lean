import Amps.Core.Invariant

/-!
# Isolation of channels

Sessions that share neither a uuid nor a context with anybody else, and whose channels
no namespace of the others matches, cannot tell whether the others are there.

* `Agrees` — two states that look the same to a set of sessions and on their channels.
* `agrees_kept`, `agrees_deleted` — the two halves of the unwinding: a step of these
  sessions is matched from agreeing states, a step of the others changes nothing they
  agree on.
* `channel_isolation` — deleting every step of the others from a run leaves a run with
  the same deliveries, decisions and statuses for these sessions.
-/

namespace Amps

open Transition

/-! ## Who takes a step -/

/-- A request as it arrives. -/
structure Arrival where
  id : ResourceId
  header : Option String
  call : Call

/-- The request that arrives in a step. -/
def Move.arrival : Move → Option Arrival
  | .inspect id header call => some ⟨id, header, call⟩
  | _ => none

/-- The requests that arrive in a run. -/
def arrivals (as : List Move) : List Arrival := as.filterMap Move.arrival

/-- The channel the request works on. -/
def Arrival.channel (P : Platform) (x : Arrival) : Option String :=
  channelOf P (x.id.resource x.header)

/-- The namespace the request broadcasts on. -/
def Call.ns : Call → Option String
  | .broadcast ns _ => ns
  | _ => none

/-- The channels of the requests of these sessions. -/
def ownChannel (P : Platform) (S : String → Bool) (as : List Move) (ch : String) : Bool :=
  (arrivals as).any fun x => S x.id.uuid && x.channel P = some ch

/-- Steps of these sessions, and deliveries from their channels. -/
def Move.keptFor (P : Platform) (S : String → Bool) (as : List Move) : Move → Bool
  | .take ch _ => ownChannel P S as ch
  | .inspect id .. | .handle id | .suspend id | .filter id _ | .notify id _ | .disconnect id =>
      S id.uuid

/-- No other session ever presents a context of these sessions. -/
def ContextsApart (P : Platform) (S : String → Bool) (as : List Move) : Prop :=
  ∀ x ∈ arrivals as, ∀ y ∈ arrivals as, S x.id.uuid = true → S y.id.uuid = false →
    ∀ k ∈ presented P x.header, presented P y.header ≠ some k

instance (P : Platform) (S : String → Bool) (as : List Move) :
    Decidable (ContextsApart P S as) :=
  inferInstanceAs (Decidable (∀ x ∈ arrivals as, ∀ y ∈ arrivals as, S x.id.uuid = true →
    S y.id.uuid = false → ∀ k ∈ presented P x.header, presented P y.header ≠ some k))

/-- The namespace another session broadcasts on matches no channel of these sessions
that exists by then. -/
def NamespacesApart (P : Platform) (S : String → Bool) (as : List Move) (s : State) : Move → Prop
  | .handle id => S id.uuid = false → ∀ c ∈ s.connections id, ∀ ns ∈ c.call.ns,
      ∀ x ∈ arrivals as, S x.id.uuid = true → ∀ ch ∈ x.channel P, s.factory ch ≠ none →
        P.matchesPath ns ch = false
  | _ => True

instance (P : Platform) (S : String → Bool) (as : List Move) (s : State) :
    ∀ m, Decidable (NamespacesApart P S as s m)
  | .handle id => inferInstanceAs (Decidable (S id.uuid = false → ∀ c ∈ s.connections id,
      ∀ ns ∈ c.call.ns, ∀ x ∈ arrivals as, S x.id.uuid = true → ∀ ch ∈ x.channel P,
        s.factory ch ≠ none → P.matchesPath ns ch = false))
  | .inspect .. | .suspend _ | .take .. | .filter .. | .notify .. | .disconnect _ => isTrue trivial

/-! ## What a session observes -/

/-- The connection an event is about. -/
def Event.subject : Event → ResourceId
  | .inspected id .. | .checked id .. | .suspended id | .published id .. | .broadcasted id ..
  | .filtered id .. | .notified id _ | .disconnected id => id

/-- The message that passed the filter of a connection of the session. -/
def Event.delivery (u : String) : Event → Option (ResourceId × String × Message)
  | .filtered id ch e _ false => if id.uuid = u then some (id, ch, e.message) else none
  | _ => none

/-- What the gate decided on a request of the session. -/
def Event.decision (u : String) : Event → Option (ResourceId × Action)
  | .inspected id _ _ action => if id.uuid = u then some (id, action) else none
  | _ => none

/-- The session got the same messages, its requests met the same decisions, and its
status is the same. -/
structure SameView (u : String) (s t : State) : Prop where
  deliveries : s.history.filterMap (Event.delivery u) = t.history.filterMap (Event.delivery u)
  decisions : s.history.filterMap (Event.decision u) = t.history.filterMap (Event.decision u)
  status : s.status u = t.status u

/-! ## States that look the same -/

/-- Two states that look the same to these sessions and on these channels; the history
of the second one is only about these sessions. -/
structure Agrees (S C : String → Bool) (s t : State) : Prop where
  connections : ∀ id, S id.uuid = true → s.connections id = t.connections id
  sessions : ∀ u, S u = true → s.sessions u = t.sessions u
  factory : ∀ ch, C ch = true → s.factory ch = t.factory ch
  history : t.history = s.history.filter fun e => S e.subject.uuid

section

variable {S C : String → Bool} {s t : State} {id : ResourceId} {c : Connection}
  {v : Option Status} {f g : BroadcasterFactory} {es : List Event}

theorem Agrees.refl_initial : Agrees S C State.initial State.initial :=
  ⟨fun _ _ => rfl, fun _ _ => rfl, fun _ _ => rfl, rfl⟩

/-- The same change made for one of these sessions keeps the agreement. -/
theorem Agrees.put (h : Agrees S C s t) (hS : S id.uuid = true)
    (hf : ∀ ch, C ch = true → f ch = g ch) (hes : ∀ e ∈ es, e.subject = id) :
    Agrees S C (s.put id c v f es) (t.put id c v g es) where
  connections id' hS' := by
    by_cases hid : id' = id
    · subst hid
      rw [State.put_connections_self, State.put_connections_self]
    · rw [State.put_connections_of_ne hid, State.put_connections_of_ne hid, h.connections id' hS']
  sessions u hu := by
    by_cases hid : u = id.uuid
    · subst hid
      simp [State.put]
    · simpa [State.put, hid] using h.sessions u hu
  factory := hf
  history := by
    have hall : es.filter (fun e => S e.subject.uuid) = es :=
      List.filter_eq_self.2 fun e he => by rw [hes e he, hS]
    rw [State.put_history, State.put_history, List.filter_append, hall, h.history]

/-- A change made for another session that spares these channels keeps it too. -/
theorem Agrees.put_left (h : Agrees S C s t) (hS : S id.uuid = false)
    (hf : ∀ ch, C ch = true → f ch = s.factory ch) (hes : ∀ e ∈ es, e.subject = id) :
    Agrees S C (s.put id c v f es) t where
  connections id' hS' := by
    have hid : id' ≠ id := by rintro rfl; rw [hS] at hS'; cases hS'
    rw [State.put_connections_of_ne hid, h.connections id' hS']
  sessions u hu := by
    have hid : u ≠ id.uuid := by rintro rfl; simp [hS] at hu
    simpa [State.put, hid] using h.sessions u hu
  factory ch hch := by rw [State.put_factory, hf ch hch, h.factory ch hch]
  history := by
    have hnone : es.filter (fun e => S e.subject.uuid) = [] :=
      List.filter_eq_nil_iff.2 fun e he => by simp [hes e he, hS]
    rw [State.put_history, List.filter_append, hnone, h.history, List.nil_append]

theorem Agrees.status (h : Agrees S C s t) {u : String} (hu : S u = true) :
    s.status u = t.status u := by
  rw [State.status, State.status, h.sessions u hu]

/-- What looks the same is observed the same. -/
theorem Agrees.sameView (h : Agrees S C s t) {u : String} (hu : S u = true) : SameView u s t := by
  have hobs : ∀ {β : Type} (o : Event → Option β), (∀ e, e.subject.uuid ≠ u → o e = none) →
      s.history.filterMap o = t.history.filterMap o := by
    intro β o ho
    rw [h.history, List.filterMap_filter]
    congr 1
    funext e
    by_cases he : e.subject.uuid = u
    · rw [he, hu, if_pos rfl]
    · rw [ho e he]
      simp
  refine ⟨hobs _ ?_, hobs _ ?_, h.status hu⟩
  · intro e he
    unfold Event.delivery
    split
    · exact if_neg he
    · rfl
  · intro e he
    unfold Event.decision
    split
    · exact if_neg he
    · rfl

end

/-! ## The operations work channel by channel -/

section

variable {f g : BroadcasterFactory} {ch id : String}

theorem lookup_congr (h : f ch = g ch) : f.lookup id ch = g.lookup id ch := by
  by_cases hne : ch = id
  · subst hne
    unfold BroadcasterFactory.lookup
    rw [← h]
    split
    · simp
    · exact h
  · rw [BroadcasterFactory.lookup_of_ne hne, BroadcasterFactory.lookup_of_ne hne, h]

theorem broadcast_congr (e : Envelope) (h : f ch = g ch) :
    f.broadcast id e ch = g.broadcast id e ch := by
  by_cases hne : ch = id
  · subst hne
    simp [BroadcasterFactory.broadcast, h]
  · rw [BroadcasterFactory.broadcast_of_ne hne, BroadcasterFactory.broadcast_of_ne hne, h]

theorem broadcastTo_congr (P : Platform) (ns : String) (e : Envelope) (h : f ch = g ch) :
    f.broadcastTo P ns e ch = g.broadcastTo P ns e ch := by
  unfold BroadcasterFactory.broadcastTo
  rw [h]

theorem fireOnSuspend_congr (a : ResourceId) (r : AtmosphereResource) (h : f ch = g ch) :
    fireOnSuspend f a r ch = fireOnSuspend g a r ch := by
  unfold fireOnSuspend
  cases r.broadcaster with
  | none => exact h
  | some id =>
    simp only
    induction r.listeners.filterMap Listener.onSuspend generalizing f g with
    | nil => exact h
    | cons m ms ih => exact ih (broadcast_congr ⟨m, .service a⟩ h)

end

/-! ## Own and foreign channels -/

section

variable {P : Platform} {S : String → Bool} {as : List Move} {x : Arrival} {ch : String}

theorem ownChannel_of_arrival (hx : x ∈ arrivals as) (hS : S x.id.uuid = true)
    (hch : x.channel P = some ch) : ownChannel P S as ch = true :=
  List.any_eq_true.2 ⟨x, hx, by simp [hS, hch]⟩

theorem ownChannel_iff : ownChannel P S as ch = true ↔
    ∃ x ∈ arrivals as, S x.id.uuid = true ∧ x.channel P = some ch := by
  simp [ownChannel]

theorem noSlash_of_arrival (hslash : ∀ m ∈ as, m.Arrives NoSlash) (hx : x ∈ arrivals as) :
    startsWithSlash x.id.uuid = false := by
  obtain ⟨m, hm, hx⟩ := List.mem_filterMap.1 hx
  have hm := hslash m hm
  cases m with
  | inspect id header call =>
    cases hx
    exact hm
  | _ => cases hx

/-- **A session works on no channel of another one**: context channels differ when the
contexts do, fallback channels when the uuids do, and the two kinds never meet. -/
theorem foreign_of_arrival (hslash : ∀ m ∈ as, m.Arrives NoSlash) (hctx : ContextsApart P S as)
    (hx : x ∈ arrivals as) (hS : S x.id.uuid = false) (hch : x.channel P = some ch) :
    ownChannel P S as ch = false := by
  cases hown : ownChannel P S as ch with
  | false => rfl
  | true =>
    exfalso
    obtain ⟨y, hy, hSy, hchy⟩ := ownChannel_iff.1 hown
    rcases channelOf_cases hch with ⟨k, hk, rfl⟩ | ⟨-, rfl⟩
    · rcases channelOf_cases hchy with ⟨k', hk', heq⟩ | ⟨-, heq⟩
      · rw [broadcasterId_inj] at heq
        exact hctx y hy x hx hSy hS k' hk' (heq ▸ hk)
      · have hno : startsWithSlash y.id.uuid = false := noSlash_of_arrival hslash hy
        have hyes := startsWithSlash_broadcasterId k
        rw [heq] at hyes
        exact Bool.noConfusion (hno.symm.trans hyes)
    · rcases channelOf_cases hchy with ⟨k', -, heq⟩ | ⟨-, heq⟩
      · have hno : startsWithSlash x.id.uuid = false := noSlash_of_arrival hslash hx
        have hyes := startsWithSlash_broadcasterId k'
        rw [← heq] at hyes
        exact Bool.noConfusion (hno.symm.trans hyes)
      · have hu : x.id.uuid = y.id.uuid := heq
        simp [hu, hSy] at hS

/-- Every connection belongs to a request that arrived. -/
def Arrived (as : List Move) (id : ResourceId) (header : Option String) (call : Call) : Prop :=
  ⟨id, header, call⟩ ∈ arrivals as

theorem arrives_of_mem {m : Move} (hm : m ∈ as) : m.Arrives (Arrived as) := by
  cases m with
  | inspect id header call => exact List.mem_filterMap.2 ⟨_, hm, rfl⟩
  | _ => trivial

/-- The channel of a connection is that of its request. -/
theorem channel_of_connection {id : ResourceId} {c : Connection} (hok : c.Ok P id) :
    Arrival.channel P ⟨id, c.resource.contextHeader, c.call⟩ = channelOf P c.resource := by
  have hsub : subscription P (id.resource c.resource.contextHeader) = subscription P c.resource :=
    subscription_congr hok.uuid.symm rfl
  rw [Arrival.channel, channelOf, channelOf, hsub]

/-- So is the channel a connection is subscribed to. -/
theorem channel_of_subscribed {id : ResourceId} {c : Connection} (hok : c.Ok P id)
    (hsub : c.subscribedTo ch = true) :
    Arrival.channel P ⟨id, c.resource.contextHeader, c.call⟩ = some ch := by
  simp only [Connection.subscribedTo, Bool.and_eq_true, decide_eq_true_eq] at hsub
  obtain ⟨hphase, hch⟩ := hsub
  have hj : c.phase.joined = true := by simp [hphase]
  rw [channel_of_connection hok, hok.channelOf_eq hj, hch]

end

/-! ## Unwinding -/

section

variable {P : Platform} {S C : String → Bool} {as : List Move} {s s' t : State} {m : Move}

/-- What `doGET` records is about its own connection. -/
theorem subject_of_mem_checkEvents {id : ResourceId} {r : AtmosphereResource} {e : Event}
    (he : e ∈ checkEvents P id r) : e.subject = id := by
  unfold checkEvents at he
  cases hb : getBroadCasterId P r with
  | ok ch =>
    rw [hb] at he
    rw [List.mem_singleton.1 he]
    rfl
  | error x =>
    simp [hb] at he

/-- **A step of these sessions is matched** from every agreeing state. -/
theorem agrees_kept (h : Effect P s m s') (hR : Agrees S (ownChannel P S as) s t)
    (hkeep : m.keptFor P S as = true) :
    ∃ t', Effect P t m t' ∧ Agrees S (ownChannel P S as) s' t' := by
  cases h with
  | @inspected id header call hnew =>
    rw [hR.connections id hkeep] at hnew
    rw [hR.sessions _ hkeep, hR.status hkeep]
    exact ⟨_, .inspected hnew, hR.put hkeep hR.factory (by simp [Event.subject])⟩
  | @joined id c endpoint ch l hc hphase hcall hsub =>
    rw [hR.connections id hkeep] at hc
    rw [hR.sessions _ hkeep]
    exact ⟨_, .joined hc hphase hcall hsub,
      hR.put hkeep (fun ch' hch => lookup_congr (hR.factory ch' hch))
        fun e he => subject_of_mem_checkEvents he⟩
  | @published id c b ch l hc hphase hcall hsub =>
    rw [hR.connections id hkeep] at hc
    rw [hR.sessions _ hkeep, hR.status hkeep]
    exact ⟨_, .published hc hphase hcall hsub,
      hR.put hkeep (fun ch' hch => broadcast_congr _ (lookup_congr (hR.factory ch' hch)))
        (by simp [Event.subject])⟩
  | @broadcasted id c ns b hc hphase hcall =>
    rw [hR.connections id hkeep] at hc
    rw [hR.sessions _ hkeep, hR.status hkeep]
    exact ⟨_, .broadcasted hc hphase hcall,
      hR.put hkeep (fun ch' hch => broadcastTo_congr P ns _ (hR.factory ch' hch))
        (by simp [Event.subject])⟩
  | @crashed id c hc hphase hthrow =>
    rw [hR.connections id hkeep] at hc
    rw [hR.sessions _ hkeep]
    exact ⟨_, .crashed hc hphase hthrow, hR.put hkeep hR.factory (by simp)⟩
  | @suspended id c hc hphase =>
    rw [hR.connections id hkeep] at hc
    rw [hR.sessions _ hkeep]
    exact ⟨_, .suspended hc hphase,
      hR.put hkeep (fun ch' hch => fireOnSuspend_congr id _ (hR.factory ch' hch))
        (by simp [Event.subject])⟩
  | @taken ch i q e hq he =>
    rw [hR.factory ch hkeep] at hq
    refine ⟨_, .taken hq he, ?_, hR.sessions, ?_, hR.history⟩
    · intro id hS
      simp only [hR.connections id hS]
    · intro ch' hown
      by_cases hch : ch' = ch
      · subst hch
        simp
      · simpa [hch] using hR.factory ch' hown
  | @filtered id i c e ch hc hrec he hch =>
    rw [hR.connections id hkeep] at hc
    rw [hR.sessions _ hkeep, hR.status hkeep]
    exact ⟨_, .filtered hc hrec he hch, hR.put hkeep hR.factory (by simp [Event.subject])⟩
  | @notified id i c e hc hrec he =>
    rw [hR.connections id hkeep] at hc
    rw [hR.sessions _ hkeep]
    exact ⟨_, .notified hc hrec he, hR.put hkeep hR.factory (by simp [Event.subject])⟩
  | @disconnected id c hc hphase =>
    rw [hR.connections id hkeep] at hc
    exact ⟨_, .disconnected hc hphase, hR.put hkeep hR.factory (by simp [Event.subject])⟩

/-- **A step of the others changes nothing** these sessions agree on. -/
theorem agrees_deleted (hslash : ∀ m ∈ as, m.Arrives NoSlash) (hctx : ContextsApart P S as)
    (hns : NamespacesApart P S as s m) (h : Effect P s m s') (hwf : WellFormed P s)
    (hreq : Requests (Arrived as) s) (hR : Agrees S (ownChannel P S as) s t)
    (hdrop : m.keptFor P S as = false) : Agrees S (ownChannel P S as) s' t := by
  -- a connection of another session joins none of these channels
  have hforeign : ∀ {id c ch l}, s.connections id = some c → S id.uuid = false →
      subscription P c.resource = some (ch, l) →
        ∀ ch', ownChannel P S as ch' = true → ch' ≠ ch := by
    intro id c ch l hc hS hsub ch' hown heq
    have hx : Arrival.channel P ⟨id, c.resource.contextHeader, c.call⟩ = some ch' := by
      rw [channel_of_connection (hwf.ok id c hc), channelOf, hsub, heq]
      rfl
    simp [foreign_of_arrival hslash hctx (hreq id c hc) hS hx] at hown
  cases h with
  | inspected => exact hR.put_left hdrop (fun _ _ => rfl) (by simp [Event.subject])
  | @joined id c endpoint ch l hc hphase hcall hsub =>
    refine hR.put_left hdrop ?_ ?_
    · intro ch' hown
      exact BroadcasterFactory.lookup_of_ne (hforeign hc hdrop hsub ch' hown)
    · exact fun e he => subject_of_mem_checkEvents he
  | @published id c b ch l hc hphase hcall hsub =>
    refine hR.put_left hdrop ?_ (by simp [Event.subject])
    intro ch' hown
    have hne := hforeign hc hdrop hsub ch' hown
    rw [BroadcasterFactory.broadcast_of_ne hne, BroadcasterFactory.lookup_of_ne hne]
  | @broadcasted id c ns b hc hphase hcall =>
    refine hR.put_left hdrop ?_ (by simp [Event.subject])
    intro ch' hown
    obtain ⟨x, hx, hSx, hch⟩ := ownChannel_iff.1 hown
    have hno := hns hdrop c hc ns (by simp [hcall, Call.ns]) x hx hSx ch' hch
    cases hq : s.factory ch' with
    | none => simp [BroadcasterFactory.broadcastTo, hq]
    | some q => simp [BroadcasterFactory.broadcastTo, hq, hno]
  | crashed => exact hR.put_left hdrop (fun _ _ => rfl) (by simp)
  | @suspended id c hc hphase =>
    refine hR.put_left hdrop ?_ (by simp [Event.subject])
    intro ch' hown
    obtain ⟨ch, l, o, hsub, -, -, hfire⟩ := (hwf.ok id c hc).fireOnSuspend hphase s.factory
    rw [hfire, BroadcasterFactory.broadcast_of_ne (hforeign hc hdrop hsub ch' hown)]
  | @taken ch i q e hq he =>
    refine ⟨?_, hR.sessions, ?_, hR.history⟩
    · intro id hS
      show (s.connections id).map (Connection.offer ch e) = t.connections id
      rw [← hR.connections id hS]
      cases hc : s.connections id with
      | none => simp
      | some c =>
        -- a subscriber of the channel would make it one of these sessions' own
        have hsub : c.subscribedTo ch = false := by
          cases hsub : c.subscribedTo ch with
          | false => rfl
          | true =>
            have hx := channel_of_subscribed (hwf.ok id c hc) hsub
            simp [Move.keptFor, ownChannel_of_arrival (hreq id c hc) hS hx] at hdrop
        simp [Connection.offer, hsub]
    · intro ch' hown
      have hne : ch' ≠ ch := by rintro rfl; simp [Move.keptFor, hown] at hdrop
      simpa [hne] using hR.factory ch' hown
  | filtered => exact hR.put_left hdrop (fun _ _ => rfl) (by simp [Event.subject])
  | notified => exact hR.put_left hdrop (fun _ _ => rfl) (by simp [Event.subject])
  | disconnected => exact hR.put_left hdrop (fun _ _ => rfl) (by simp [Event.subject])

/-- **Channel isolation.**  Delete from a run every step of the sessions outside `S`.
When these never present a context of `S` and broadcast on no namespace that matches a
channel of `S`, what is left is a run, and every session of `S` gets the same messages in
it, meets the same decisions and ends with the same status. -/
theorem channel_isolation (hslash : ∀ m ∈ as, m.Arrives NoSlash) (hctx : ContextsApart P S as)
    (hns : (service P).Along (NamespacesApart P S as) State.initial as) (hrun : (service P).run as = some s) :
    ∃ t, (service P).run (as.filter (Move.keptFor P S as)) = some t ∧
      ∀ u, S u = true → SameView u s t := by
  -- the relation also carries what holds of the longer of the two runs
  obtain ⟨t, ht, hR, -⟩ := System.run_purge (T := service P)
    (R := fun s t => Agrees S (ownChannel P S as) s t ∧ WellFormed P s ∧ Requests (Arrived as) s)
    (C := fun s m => m ∈ as ∧ NamespacesApart P S as s m) (K := Move.keptFor P S as)
    (fun s t m s' hm hkeep hR hstep => by
      have h := step_iff.1 hstep
      obtain ⟨t', ht', hR'⟩ := agrees_kept h hR.1 hkeep
      exact ⟨t', step_iff.2 ht', hR', wellFormed_of_effect h hR.2.1,
        requests_of_effect h (arrives_of_mem hm.1) hR.2.2⟩)
    (fun s t m s' hm hdrop hR hstep => by
      have h := step_iff.1 hstep
      exact ⟨agrees_deleted hslash hctx hm.2 h hR.2.1 hR.2.2 hR.1 hdrop,
        wellFormed_of_effect h hR.2.1, requests_of_effect h (arrives_of_mem hm.1) hR.2.2⟩)
    ((System.along_of_forall fun _ hm => hm).and hns) ⟨.refl_initial, wellFormed_initial, requests_initial _⟩ hrun
  exact ⟨t, ht, fun u hu => hR.sameView hu⟩

end

/-- Two sessions log in on channels of their own; `b` publishes and broadcasts on its
own, and `a` gets what it published itself. -/
def interleavedRun : List Move :=
  let a := some (ContextKey.json ⟨1, .desktop, "t"⟩)
  let b := some (ContextKey.json ⟨2, .desktop, "t"⟩)
  [.inspect ⟨"a", 0⟩ a (.subscribe .message), .inspect ⟨"b", 0⟩ b (.subscribe .admin),
    .handle ⟨"b", 0⟩, .handle ⟨"a", 0⟩, .suspend ⟨"a", 0⟩, .suspend ⟨"b", 0⟩,
    .take "/2/DESKTOP/t" 0, .take "/1/DESKTOP/t" 0, .filter ⟨"b", 0⟩ 0, .filter ⟨"a", 0⟩ 0,
    .notify ⟨"a", 0⟩ 0, .notify ⟨"b", 0⟩ 0,
    .inspect ⟨"b", 1⟩ b (.broadcast (some "/2/DESKTOP/t") { type := some .contentCreated }),
    .inspect ⟨"a", 1⟩ a (.publish { type := some .contentCreated }), .handle ⟨"a", 1⟩,
    .handle ⟨"b", 1⟩, .take "/1/DESKTOP/t" 0, .filter ⟨"a", 0⟩ 0]

set_option maxRecDepth 10000 in
theorem channel_isolation_interleaved :
    ∃ s t, (service (.reading [⟨1, .desktop, "t"⟩, ⟨2, .desktop, "t"⟩])).run interleavedRun =
        some s ∧
      (service (.reading [⟨1, .desktop, "t"⟩, ⟨2, .desktop, "t"⟩])).run
        (interleavedRun.filter (Move.keptFor (.reading [⟨1, .desktop, "t"⟩, ⟨2, .desktop, "t"⟩])
          (· = "a") interleavedRun)) = some t ∧
      (s.history.filterMap (Event.delivery "a")).length = 2 ∧ SameView "a" s t := by
  obtain ⟨s, hrun, hs⟩ := System.run_any
    (service (.reading [⟨1, .desktop, "t"⟩, ⟨2, .desktop, "t"⟩])) interleavedRun
    (fun s => decide ((s.history.filterMap (Event.delivery "a")).length = 2)) (by decide)
  obtain ⟨t, ht, hview⟩ := channel_isolation (S := (· = "a")) (by decide) (by decide) (by decide)
    hrun
  exact ⟨s, t, hrun, ht, of_decide_eq_true hs, hview "a" rfl⟩

end Amps
