import Amps.Core.Exchange

/-!
# The running service

The state of the whole service and its steps: requests arrive and are inspected,
admitted requests run their resource method, connections suspend, channels hand
out what is queued on them, and each delivery passes the outgoing filter before
the listeners hear of it.  Any number of sessions, connections and channels take
part, and the steps come in any order.

* `State`, `Move`, `step` — the state, what can happen next, and what it does.
  `service P` is the transition system.
* `Event` — what a run leaves in its history; no step reads it.
* `Effect`, `step_iff` — what each step can do, said once: every invariant is a
  case split on `Effect`.
-/

namespace Amps

open Transition

/-! ## Requests and connections -/

/-- The two resource classes with a `GET`. -/
inductive Endpoint where
  | message
  | admin
  deriving DecidableEq, Repr

/-- The resource method a request is for, with the body it submits. -/
inductive Call where
  /-- `subscribe`, the `GET` of either resource class. -/
  | subscribe (endpoint : Endpoint)
  /-- `MessageResource.publish`, the `POST` of `/message`. -/
  | publish (message : Message)
  /-- `AdminResource.broadcast`, the `POST` of `/admin`, with the namespace header. -/
  | broadcast (ns : Option String) (msg : Message)
  deriving DecidableEq, Repr

/-- Is the request a `GET`? -/
def Call.isGET : Call → Bool
  | .subscribe _ => true
  | _ => false

/-- The message a `POST` submits. -/
def Call.body : Call → Option Message
  | .subscribe _ => none
  | .publish m => some m
  | .broadcast _ m => some m

/-- How far a request has come. -/
inductive Phase where
  /-- The interceptor let it through. -/
  | admitted
  /-- The interceptor dropped it. -/
  | dropped
  /-- `doGET` returned; the connection has not suspended yet. -/
  | ready
  /-- Suspended, and subscribed to its channel. -/
  | suspended
  /-- Resumed by one of its listeners. -/
  | resumed
  /-- Disconnected while suspended. -/
  | closed
  /-- A `POST` that returned. -/
  | answered
  /-- The resource method threw. -/
  | crashed
  deriving DecidableEq, Repr

/-- `AtmosphereResource.resume`. -/
def Phase.resume : Phase → Phase
  | .suspended => .resumed
  | phase => phase

/-- A request, its resource, and the deliveries under way to it. -/
structure Connection where
  resource : AtmosphereResource
  call : Call
  phase : Phase
  /-- Taken from the channel, not yet filtered. -/
  offered : List Envelope := []
  /-- Passed by the filter, the listeners not yet called. -/
  passed : List Envelope := []
  deriving DecidableEq, Repr

namespace Connection

/-- Only suspended connections are subscribed to the channel they chose. -/
def subscribedTo (ch : String) (c : Connection) : Bool :=
  c.phase = .suspended && c.resource.broadcaster = some ch

/-- A delivery under way goes on after a disconnect, but not after a resume. -/
def receiving (c : Connection) : Bool := c.phase = .suspended || c.phase = .closed

/-- A channel offers a message. -/
def offer (ch : String) (e : Envelope) (c : Connection) : Connection :=
  if c.subscribedTo ch then { c with offered := c.offered ++ [e] } else c

/-- The message the resource method puts on a channel, unless it throws. -/
def publishes (P : Platform) (c : Connection) : Option Message :=
  match c.call with
  | .subscribe _ => none
  | .publish m => if denotesNull P c.resource.contextHeader then none else some m
  | .broadcast ns m => ns.map fun _ => m

/-- Everything under way to the connection. -/
def inFlight (c : Connection) : List Envelope := c.offered ++ c.passed

end Connection

/-! ## The state -/

/-- What happened in a run. -/
inductive Event where
  /-- The interceptor read this status and decided. -/
  | inspected (id : ResourceId) (call : Call) (status : Status) (action : Action)
  /-- `AuthenticationProvider.check` returned `ok` for this `GET`. -/
  | checked (id : ResourceId) (header : Option String) (ok : Bool)
  /-- The connection suspended. -/
  | suspended (id : ResourceId)
  /-- `@Broadcast` put the entity of `doPOST` on the channel; the session had this status. -/
  | published (id : ResourceId) (channel : String) (status : Status) (message : Message)
  /-- `doBroadcast` put the message on every channel the namespace matches. -/
  | broadcasted (id : ResourceId) (ns : String) (status : Status) (message : Message)
  /-- The filter read this status and decided on a message for this connection. -/
  | filtered (id : ResourceId) (channel : String) (envelope : Envelope) (status : Status)
      (abort : Bool)
  /-- The `onBroadcast` listeners of the connection were called. -/
  | notified (id : ResourceId) (envelope : Envelope)
  /-- The connection disconnected and the session of its uuid was removed. -/
  | disconnected (id : ResourceId)
  deriving DecidableEq, Repr

/-- The state of the service. -/
structure State where
  /-- The status attribute of the session stored under each uuid. -/
  sessions : String → Option Status
  connections : ResourceId → Option Connection
  factory : BroadcasterFactory
  /-- What happened so far, newest first. -/
  history : List Event

namespace State

/-- The status a session uuid has. -/
def status (s : State) (uuid : String) : Status := statusOf (s.sessions uuid)

/-- Replace one connection, the session attribute of its uuid and the factory,
and record what happened. -/
def put (s : State) (id : ResourceId) (c : Connection) (value : Option Status)
    (f : BroadcasterFactory) (events : List Event) : State where
  sessions := Function.update s.sessions id.uuid value
  connections := Function.update s.connections id (some c)
  factory := f
  history := events ++ s.history

section Put

variable {s : State} {id id' : ResourceId} {c : Connection} {v : Option Status}
  {f : BroadcasterFactory} {es : List Event}

@[simp] theorem put_connections_self : (s.put id c v f es).connections id = some c := by
  simp [put]

theorem put_connections_of_ne (h : id' ≠ id) :
    (s.put id c v f es).connections id' = s.connections id' := by
  simp [put, h]

theorem put_connections_eq_some {c' : Connection} :
    (s.put id c v f es).connections id' = some c' ↔
      (id' = id ∧ c' = c) ∨ (id' ≠ id ∧ s.connections id' = some c') :=
  update_eq_some

@[simp] theorem put_factory : (s.put id c v f es).factory = f := rfl

@[simp] theorem put_history : (s.put id c v f es).history = es ++ s.history := rfl

theorem put_status (uuid : String) :
    (s.put id c v f es).status uuid = if uuid = id.uuid then statusOf v else s.status uuid := by
  unfold status put
  by_cases h : uuid = id.uuid
  · subst h
    simp
  · simp [h]

/-- A step that leaves the session alone leaves every status alone. -/
@[simp] theorem put_status_same (uuid : String) :
    (s.put id c (s.sessions id.uuid) f es).status uuid = s.status uuid := by
  rw [put_status]
  split
  · rename_i h
    rw [h, status]
  · rfl

end Put

/-- No session, no connection, no channel. -/
def initial : State where
  sessions := fun _ => none
  connections := fun _ => none
  factory := fun _ => none
  history := []

end State

/-- What can happen next. -/
inductive Move where
  /-- A request arrives and is inspected. -/
  | inspect (id : ResourceId) (header : Option String) (call : Call)
  /-- An admitted request runs its resource method. -/
  | handle (id : ResourceId)
  /-- A connection suspends. -/
  | suspend (id : ResourceId)
  /-- A channel offers one of its queued messages to its subscribers. -/
  | take (channel : String) (i : Nat)
  /-- A message offered to a connection is filtered. -/
  | filter (id : ResourceId) (i : Nat)
  /-- The listeners of a connection hear of a message that passed. -/
  | notify (id : ResourceId) (i : Nat)
  /-- A suspended connection disconnects. -/
  | disconnect (id : ResourceId)
  deriving DecidableEq, Repr

/-- Does a connection disconnect? -/
def Move.isDisconnect : Move → Bool
  | .disconnect _ => true
  | _ => false

/-! ## The steps -/

/-- The resource Atmosphere makes for a request. -/
def ResourceId.resource (id : ResourceId) (header : Option String) : AtmosphereResource :=
  { uuid := id.uuid, contextHeader := header }

/-- `doGET` calls `check` only when `setupChannel` returned. -/
def checkEvents (P : Platform) (id : ResourceId) (r : AtmosphereResource) : List Event :=
  match getBroadCasterId P r with
  | .ok _ => [.checked id r.contextHeader (check P r)]
  | .error _ => []

/-- The `onSuspend` listeners of a resource broadcast on its channel. -/
def fireOnSuspend (f : BroadcasterFactory) (id : ResourceId) (r : AtmosphereResource) :
    BroadcasterFactory :=
  match r.broadcaster with
  | none => f
  | some ch =>
      (r.listeners.filterMap Listener.onSuspend).foldl
        (fun f m => f.broadcast ch ⟨m, .service id⟩) f

/-- One listener hears of a delivered message. -/
def Listener.onBroadcast (m : Message) (x : Option Status × Phase) :
    Listener → Option Status × Phase
  | .webSocketEventListenerAdapterImpl => (((Amps.onBroadcast m).run x.1).2, x.2)
  | .authentionSuccess => x
  | .clientError .. => (x.1, x.2.resume)

/-- All listeners of a resource hear of a delivered message. -/
def fireOnBroadcast (m : Message) (r : AtmosphereResource) (x : Option Status × Phase) :
    Option Status × Phase :=
  r.listeners.foldl (fun x l => l.onBroadcast m x) x

namespace State

variable (P : Platform) (s : State)

/-- A request arrives and the interceptor inspects it. -/
def inspectStep (id : ResourceId) (header : Option String) (call : Call) : Option State :=
  match s.connections id with
  | some _ => none
  | none =>
      let (action, value) := inspect.run (s.sessions id.uuid)
      some (s.put id
        { resource := id.resource header
          call := call
          phase := if action = .continue then .admitted else .dropped }
        value s.factory [.inspected id call (s.status id.uuid) action])

/-- `MessageResource.subscribe` and `AdminResource.subscribe`. -/
def subscribeStep (id : ResourceId) (c : Connection) : State :=
  match doGET P s.factory c.resource with
  | (.ok _, f, r) =>
      s.put id { c with resource := r, phase := .ready } (s.sessions id.uuid) f
        (checkEvents P id c.resource)
  | (.error _, f, r) =>
      s.put id { c with resource := r, phase := .crashed } (s.sessions id.uuid) f []

/-- `MessageResource.publish`, and `@Broadcast` of the entity it returns on the
request's current broadcaster. -/
def publishStep (id : ResourceId) (c : Connection) (message : Message) : State :=
  match doPOST P s.factory c.resource message with
  | (.ok response, f, r) =>
      match r.broadcaster with
      | some ch =>
          s.put id { c with resource := r, phase := .answered } (s.sessions id.uuid)
            (f.broadcast ch ⟨response.entity, .client id⟩)
            [.published id ch (s.status id.uuid) response.entity]
      | none => s.put id { c with resource := r, phase := .answered } (s.sessions id.uuid) f []
  | (.error _, f, r) =>
      s.put id { c with resource := r, phase := .crashed } (s.sessions id.uuid) f []

/-- `AdminResource.broadcast`. -/
def broadcastStep (id : ResourceId) (c : Connection) (ns : Option String) (msg : Message) :
    State :=
  match doBroadcast P s.factory ns ⟨msg, .client id⟩ with
  | some f =>
      s.put id { c with phase := .answered } (s.sessions id.uuid) f
        [.broadcasted id (ns.getD "") (s.status id.uuid) msg]
  | none => s.put id { c with phase := .crashed } (s.sessions id.uuid) s.factory []

/-- An admitted request runs its resource method. -/
def handleStep (id : ResourceId) : Option State :=
  match s.connections id with
  | none => none
  | some c =>
      if c.phase = .admitted then
        match c.call with
        | .subscribe _ => some (s.subscribeStep P id c)
        | .publish m => some (s.publishStep P id c m)
        | .broadcast ns m => some (s.broadcastStep P id c ns m)
      else none

/-- `@Suspend(listeners = WebSocketEventListenerAdapterImpl)`. -/
def suspendStep (id : ResourceId) : Option State :=
  match s.connections id with
  | none => none
  | some c =>
      if c.phase = .ready then
        let r := c.resource.addEventListener .webSocketEventListenerAdapterImpl
        some (s.put id { c with resource := r, phase := .suspended } (s.sessions id.uuid)
          (fireOnSuspend s.factory id r) [.suspended id])
      else none

/-- A channel takes the `i`-th message of its queue and offers it to every
current subscriber. -/
def takeStep (ch : String) (i : Nat) : Option State :=
  match s.factory ch with
  | none => none
  | some q =>
      match q[i]? with
      | none => none
      | some e =>
          some { s with
            connections := fun id => (s.connections id).map (Connection.offer ch e)
            factory := Function.update s.factory ch (some (q.eraseIdx i)) }

/-- `BroadcastFilterImpl` filters the `i`-th message offered to a connection. -/
def filterStep (id : ResourceId) (i : Nat) : Option State :=
  match s.connections id with
  | none => none
  | some c =>
      match c.offered[i]?, c.resource.broadcaster with
      | some e, some ch =>
          if c.receiving then
            let (action, value) := (filter e.message).run (s.sessions id.uuid)
            some (s.put id
              { c with
                offered := c.offered.eraseIdx i
                passed := if action.abort then c.passed else c.passed ++ [e] }
              value s.factory [.filtered id ch e (s.status id.uuid) action.abort])
          else none
      | _, _ => none

/-- The listeners of a connection hear of the `i`-th message that passed. -/
def notifyStep (id : ResourceId) (i : Nat) : Option State :=
  match s.connections id with
  | none => none
  | some c =>
      match c.passed[i]? with
      | none => none
      | some e =>
          if c.receiving then
            let (value, phase) := fireOnBroadcast e.message c.resource (s.sessions id.uuid, c.phase)
            some (s.put id { c with phase := phase, passed := c.passed.eraseIdx i } value s.factory
              [.notified id e])
          else none

/-- A suspended connection disconnects; Atmosphere removes the session of its uuid. -/
def disconnectStep (id : ResourceId) : Option State :=
  match s.connections id with
  | none => none
  | some c =>
      if c.phase = .suspended then
        some (s.put id { c with phase := .closed } none s.factory [.disconnected id])
      else none

end State

/-- One step of the service. -/
def step (P : Platform) (s : State) : Move → Option State
  | .inspect id header call => s.inspectStep id header call
  | .handle id => s.handleStep P id
  | .suspend id => s.suspendStep id
  | .take ch i => s.takeStep ch i
  | .filter id i => s.filterStep id i
  | .notify id i => s.notifyStep id i
  | .disconnect id => s.disconnectStep id

/-- The service as a transition system. -/
def service (P : Platform) : System State Move := ⟨State.initial, step P⟩

/-! ## What a step can do -/

/-- The effect of each step. -/
inductive Effect (P : Platform) (s : State) : Move → State → Prop
  /-- A request was inspected. -/
  | inspected {id header call} (hnew : s.connections id = none) :
      Effect P s (.inspect id header call)
        (s.put id
          { resource := id.resource header
            call := call
            phase := if (inspect.run (s.sessions id.uuid)).1 = .continue then .admitted
              else .dropped }
          (inspect.run (s.sessions id.uuid)).2 s.factory
          [.inspected id call (s.status id.uuid) (inspect.run (s.sessions id.uuid)).1])
  /-- `doGET` chose a channel and a listener. -/
  | joined {id c endpoint ch l} (hc : s.connections id = some c) (hphase : c.phase = .admitted)
      (hcall : c.call = .subscribe endpoint) (hsub : subscription P c.resource = some (ch, l)) :
      Effect P s (.handle id)
        (s.put id
          { c with
            resource := (c.resource.setBroadcaster ch).addEventListener l
            phase := .ready }
          (s.sessions id.uuid) (s.factory.lookup ch) (checkEvents P id c.resource))
  /-- `doPOST` returned and its entity was broadcast. -/
  | published {id c m ch l} (hc : s.connections id = some c) (hphase : c.phase = .admitted)
      (hcall : c.call = .publish m) (hsub : subscription P c.resource = some (ch, l)) :
      Effect P s (.handle id)
        (s.put id { c with resource := c.resource.afterPOST P ch l, phase := .answered }
          (s.sessions id.uuid)
          ((s.factory.lookup ch).broadcast ch ⟨m, .client id⟩)
          [.published id ch (s.status id.uuid) m])
  /-- `doBroadcast` returned. -/
  | broadcasted {id c ns m} (hc : s.connections id = some c) (hphase : c.phase = .admitted)
      (hcall : c.call = .broadcast (some ns) m) :
      Effect P s (.handle id)
        (s.put id { c with phase := .answered } (s.sessions id.uuid)
          (s.factory.broadcastTo P ns ⟨m, .client id⟩)
          [.broadcasted id ns (s.status id.uuid) m])
  /-- The resource method threw. -/
  | crashed {id c} (hc : s.connections id = some c) (hphase : c.phase = .admitted)
      (hthrow : (∀ ns m, c.call ≠ .broadcast ns m) ∧ subscription P c.resource = none ∨
        ∃ m, c.call = .broadcast none m) :
      Effect P s (.handle id)
        (s.put id { c with phase := .crashed } (s.sessions id.uuid) s.factory [])
  /-- A connection suspended. -/
  | suspended {id c} (hc : s.connections id = some c) (hphase : c.phase = .ready) :
      Effect P s (.suspend id)
        (s.put id
          { c with
            resource := c.resource.addEventListener .webSocketEventListenerAdapterImpl
            phase := .suspended }
          (s.sessions id.uuid)
          (fireOnSuspend s.factory id
            (c.resource.addEventListener .webSocketEventListenerAdapterImpl))
          [.suspended id])
  /-- A channel offered a message to its subscribers. -/
  | taken {ch i q e} (hq : s.factory ch = some q) (he : q[i]? = some e) :
      Effect P s (.take ch i)
        { s with
          connections := fun id => (s.connections id).map (Connection.offer ch e)
          factory := Function.update s.factory ch (some (q.eraseIdx i)) }
  /-- A message offered to a connection was filtered. -/
  | filtered {id i c e ch} (hc : s.connections id = some c) (hrec : c.receiving = true)
      (he : c.offered[i]? = some e) (hch : c.resource.broadcaster = some ch) :
      Effect P s (.filter id i)
        (s.put id
          { c with
            offered := c.offered.eraseIdx i
            passed := if e.message.passes (s.status id.uuid) then c.passed ++ [e]
              else c.passed }
          (s.sessions id.uuid) s.factory
          [.filtered id ch e (s.status id.uuid) (!e.message.passes (s.status id.uuid))])
  /-- The listeners of a connection heard of a message. -/
  | notified {id i c e} (hc : s.connections id = some c) (hrec : c.receiving = true)
      (he : c.passed[i]? = some e) :
      Effect P s (.notify id i)
        (s.put id
          { c with
            phase := (fireOnBroadcast e.message c.resource (s.sessions id.uuid, c.phase)).2
            passed := c.passed.eraseIdx i }
          (fireOnBroadcast e.message c.resource (s.sessions id.uuid, c.phase)).1 s.factory
          [.notified id e])
  /-- A connection disconnected. -/
  | disconnected {id c} (hc : s.connections id = some c) (hphase : c.phase = .suspended) :
      Effect P s (.disconnect id)
        (s.put id { c with phase := .closed } none s.factory [.disconnected id])

section Effects

variable {P : Platform} {s t : State}

theorem effect_of_handleStep {id : ResourceId} (h : s.handleStep P id = some t) :
    Effect P s (.handle id) t := by
  unfold State.handleStep at h
  split at h
  · cases h
  · rename_i c hc
    split at h
    · rename_i hphase
      split at h
      · rename_i endpoint hcall
        rw [← Option.some.inj h, State.subscribeStep, doGET_eq]
        cases hsub : subscription P c.resource with
        | some x => exact .joined hc hphase hcall hsub
        | none =>
          exact .crashed hc hphase (.inl ⟨fun ns m => by simp [hcall], hsub⟩)
      · rename_i m hcall
        rw [← Option.some.inj h, State.publishStep, doPOST_eq]
        cases hsub : subscription P c.resource with
        | some x =>
          obtain ⟨ch, l⟩ := x
          simp only [AtmosphereResource.afterPOST_broadcaster]
          exact .published hc hphase hcall hsub
        | none =>
          exact .crashed hc hphase (.inl ⟨fun ns m => by simp [hcall], hsub⟩)
      · rename_i ns m hcall
        rw [← Option.some.inj h, State.broadcastStep]
        cases ns with
        | some ns => exact .broadcasted hc hphase hcall
        | none => exact .crashed hc hphase (.inr ⟨m, hcall⟩)
    · cases h

/-- **Every step has one of these effects.** -/
theorem effect_of_step {m : Move} (h : step P s m = some t) : Effect P s m t := by
  cases m with
  | inspect id header call =>
    simp only [step, State.inspectStep] at h
    split at h
    · cases h
    · rename_i hnew
      rw [← Option.some.inj h]
      exact .inspected hnew
  | handle id => exact effect_of_handleStep h
  | suspend id =>
    simp only [step, State.suspendStep] at h
    split at h
    · cases h
    · rename_i c hc
      split at h
      · rename_i hphase
        rw [← Option.some.inj h]
        exact .suspended hc hphase
      · cases h
  | take ch i =>
    simp only [step, State.takeStep] at h
    split at h
    · cases h
    · rename_i q hq
      split at h
      · cases h
      · rename_i e he
        rw [← Option.some.inj h]
        exact .taken hq he
  | filter id i =>
    simp only [step, State.filterStep] at h
    split at h
    · cases h
    · rename_i c hc
      split at h
      · rename_i e ch he hch
        split at h
        · rename_i hrec
          rw [filter_run] at h
          have hfx : Effect P s (.filter id i) _ := .filtered hc hrec he hch
          rw [← Option.some.inj h]
          cases hp : e.message.passes (s.status id.uuid) <;> rw [hp] at hfx <;>
            simp only [State.status] at hp <;> rw [hp] <;> exact hfx
        · cases h
      · cases h
  | notify id i =>
    simp only [step, State.notifyStep] at h
    split at h
    · cases h
    · rename_i c hc
      split at h
      · cases h
      · rename_i e he
        split at h
        · rename_i hrec
          rw [← Option.some.inj h]
          exact .notified hc hrec he
        · cases h
  | disconnect id =>
    simp only [step, State.disconnectStep] at h
    split at h
    · cases h
    · rename_i c hc
      split at h
      · rename_i hphase
        rw [← Option.some.inj h]
        exact .disconnected hc hphase
      · cases h

theorem handleStep_of_effect {id : ResourceId} (h : Effect P s (.handle id) t) :
    s.handleStep P id = some t := by
  cases h with
  | joined hc hphase hcall hsub =>
    simp only [State.handleStep, hc, hphase, hcall, State.subscribeStep, doGET_eq, hsub, if_true]
  | published hc hphase hcall hsub =>
    simp only [State.handleStep, hc, hphase, hcall, State.publishStep, doPOST_eq, hsub, if_true,
      AtmosphereResource.afterPOST_broadcaster]
  | broadcasted hc hphase hcall =>
    simp only [State.handleStep, hc, hphase, hcall, State.broadcastStep, doBroadcast, if_true,
      Option.map_some, Option.getD_some]
  | @crashed id c hc hphase hthrow =>
    rcases hthrow with ⟨hcall, hsub⟩ | ⟨m, hcall⟩
    · cases hkind : c.call with
      | subscribe endpoint =>
        simp only [State.handleStep, hc, hphase, hkind, State.subscribeStep, doGET_eq, hsub, if_true]
      | publish m =>
        simp only [State.handleStep, hc, hphase, hkind, State.publishStep, doPOST_eq, hsub, if_true]
      | broadcast ns m => exact absurd hkind (hcall ns m)
    · simp only [State.handleStep, hc, hphase, hcall, State.broadcastStep, doBroadcast, if_true,
        Option.map_none]

/-- **Every effect is that of a step.** -/
theorem step_of_effect {m : Move} (h : Effect P s m t) : step P s m = some t := by
  cases m with
  | handle id => exact handleStep_of_effect h
  | inspect id header call =>
    cases h with
    | inspected hnew => simp only [step, State.inspectStep, hnew]
  | suspend id =>
    cases h with
    | suspended hc hphase => simp only [step, State.suspendStep, hc, hphase, if_true]
  | take ch i =>
    cases h with
    | taken hq he => simp only [step, State.takeStep, hq, he]
  | filter id i =>
    cases h with
    | filtered hc hrec he hch =>
      simp only [step, State.filterStep, hc, he, hch, hrec, if_true, filter_run, State.status]
      split <;> simp_all
  | notify id i =>
    cases h with
    | notified hc hrec he => simp only [step, State.notifyStep, hc, he, hrec, if_true]
  | disconnect id =>
    cases h with
    | disconnected hc hphase => simp only [step, State.disconnectStep, hc, hphase, if_true]

/-- The effects say all a step can do. -/
theorem step_iff {m : Move} : step P s m = some t ↔ Effect P s m t :=
  ⟨effect_of_step, step_of_effect⟩

end Effects

end Amps
