import Amps.Core.Session

/-!
# The message exchange service

The methods of `MessageExchangeService` that set up channels, register handshake
listeners and publish.

* `BroadcasterFactory` — the channels that exist, each with what is queued on it.
* `setupChannel`, `doGET`, `doPOST`, `doBroadcast` — the methods, with what they
  throw and what they leave in the factory and in the resource.
* `subscription` — the channel and the handshake listener `doGET` chooses for a
  request; `doGET_eq` and `doPOST_eq` say the two methods do nothing else.
* `outcome_cases` — what the listener of a subscription broadcasts, and on which
  channel.
-/

namespace Amps

/-! ## Channels -/

/-- The identity of one request: the session uuid it carries and a number that
tells the requests of one session apart.  Atmosphere makes one resource each. -/
structure ResourceId where
  uuid : String
  seq : Nat
  deriving DecidableEq, Repr

/-- Who put a message on a channel. -/
inductive Origin where
  /-- The `onSuspend` listener of this connection. -/
  | service (id : ResourceId)
  /-- The client, as the body of this POST. -/
  | client (id : ResourceId)
  deriving DecidableEq, Repr

/-- Does the message come from a listener of the service? -/
def Origin.isService : Origin → Bool
  | .service _ => true
  | .client _ => false

theorem Origin.isService_iff {o : Origin} : o.isService = true ↔ ∃ a, o = .service a := by
  cases o <;> simp [Origin.isService]

/-- A message on a channel.  The origin is ours: no method of the service reads
it. -/
structure Envelope where
  message : Message
  origin : Origin
  deriving DecidableEq, Repr

/-- The broadcasters that exist, with the messages queued on each. -/
abbrev BroadcasterFactory := String → Option (List Envelope)

namespace BroadcasterFactory

/-- `BroadcasterFactory.lookup(id, true)`: make the broadcaster if it is missing. -/
def lookup (f : BroadcasterFactory) (id : String) : BroadcasterFactory :=
  if f id = none then Function.update f id (some []) else f

/-- `Broadcaster.broadcast`. -/
def broadcast (f : BroadcasterFactory) (id : String) (e : Envelope) : BroadcasterFactory :=
  Function.update f id ((f id).map (· ++ [e]))

/-- `MetaBroadcaster.broadcastTo`: every existing broadcaster whose id matches. -/
def broadcastTo (P : Platform) (f : BroadcasterFactory) (path : String) (e : Envelope) :
    BroadcasterFactory :=
  fun id => if P.matchesPath path id then (f id).map (· ++ [e]) else f id

end BroadcasterFactory

/-! ## The methods -/

/-- `AtmosphereResource.addEventListener`. -/
def AtmosphereResource.addEventListener (r : AtmosphereResource) (l : Listener) :
    AtmosphereResource :=
  { r with listeners := r.listeners ++ [l] }

/-- `AtmosphereResource.setBroadcaster`, given the broadcaster by its id. -/
def AtmosphereResource.setBroadcaster (r : AtmosphereResource) (id : String) :
    AtmosphereResource :=
  { r with broadcaster := some id }

/-- A JAX-RS response: the status code and the entity. -/
structure Response where
  status : Nat
  entity : Message
  deriving DecidableEq, Repr

/-- `setupChannel`.  After a `NullPointerException` the `finally` block calls
`lookup(null, true)`, which throws too, and the resource keeps its broadcaster. -/
def setupChannel (P : Platform) (f : BroadcasterFactory) (r : AtmosphereResource) :
    Except Thrown Unit × BroadcasterFactory × AtmosphereResource :=
  match getBroadCasterId P r with
  | .ok broadcasterId => (.ok (), f.lookup broadcasterId, r.setBroadcaster broadcasterId)
  | .error (.contextException message) =>
      (.error (.contextException message), f.lookup r.uuid, r.setBroadcaster r.uuid)
  | .error .nullPointerException => (.error .nullPointerException, f, r)

/-- `handleAuthentionSuccess`. -/
def handleAuthentionSuccess (r : AtmosphereResource) : AtmosphereResource :=
  r.addEventListener .authentionSuccess

/-- `handleClientError`. -/
def handleClientError (r : AtmosphereResource) (messageType : MessageType)
    (errorMessage : String) : AtmosphereResource :=
  r.addEventListener (.clientError messageType errorMessage)

/-- `doGET`. -/
def doGET (P : Platform) (f : BroadcasterFactory) (r : AtmosphereResource) :
    Except Thrown Response × BroadcasterFactory × AtmosphereResource :=
  let response : Response := ⟨200, (Message.Builder.type {} .suspendResponse).build⟩
  match setupChannel P f r with
  | (.ok (), f, r) =>
      let ok := check P r
      if !ok then
        (.ok response, f,
          handleClientError r .failedAuthenticatedResponse "authentication error")
      else
        (.ok response, f, handleAuthentionSuccess r)
  | (.error (.contextException message), f, r) =>
      (.ok response, f, handleClientError r .contextErrorResponse message)
  | (.error .nullPointerException, f, r) => (.error .nullPointerException, f, r)

/-- `doPOST`. -/
def doPOST (P : Platform) (f : BroadcasterFactory) (r : AtmosphereResource) (message : Message) :
    Except Thrown Response × BroadcasterFactory × AtmosphereResource :=
  match setupChannel P f r with
  | (.ok (), f, r) => (.ok ⟨200, message⟩, f, r)
  | (.error (.contextException e), f, r) =>
      (.ok ⟨200, message⟩, f, handleClientError r .contextErrorResponse e)
  | (.error .nullPointerException, f, r) => (.error .nullPointerException, f, r)

/-- `doBroadcast`; `none` when `broadcastTo` throws, as it does without a path. -/
def doBroadcast (P : Platform) (f : BroadcasterFactory) (broadcasterID : Option String)
    (e : Envelope) : Option BroadcasterFactory :=
  broadcasterID.map fun path => f.broadcastTo P path e

/-! ## Listeners -/

/-- What a listener broadcasts on the channel of its resource when the resource
suspends. -/
def Listener.onSuspend : Listener → Option Message
  | .webSocketEventListenerAdapterImpl => none
  | .authentionSuccess =>
      some (Message.Builder.type {} .successfulAuthenticationResponse).build
  | .clientError messageType errorMessage =>
      some ((Message.Builder.type {} messageType).error { message := some errorMessage }).build

/-- Does the listener resume its resource when a message was delivered? -/
def Listener.resumes : Listener → Bool
  | .clientError .. => true
  | _ => false

/-! ## What `doGET` chooses -/

/-- The channel of a request, and the handshake listener `doGET` registers on it;
`none` when the method throws. -/
def subscription (P : Platform) (r : AtmosphereResource) : Option (String × Listener) :=
  match getBroadCasterId P r with
  | .ok broadcasterId =>
      some (broadcasterId,
        if check P r then .authentionSuccess
        else .clientError .failedAuthenticatedResponse "authentication error")
  | .error (.contextException message) =>
      some (r.uuid, .clientError .contextErrorResponse message)
  | .error .nullPointerException => none

/-- The channel of a request. -/
def channelOf (P : Platform) (r : AtmosphereResource) : Option String :=
  (subscription P r).map Prod.fst

/-- **`doGET`** joins the channel of the subscription and registers its listener. -/
theorem doGET_eq (P : Platform) (f : BroadcasterFactory) (r : AtmosphereResource) :
    doGET P f r = match subscription P r with
      | some (ch, l) =>
          (.ok ⟨200, { type := some .suspendResponse }⟩, f.lookup ch,
            (r.setBroadcaster ch).addEventListener l)
      | none => (.error .nullPointerException, f, r) := by
  unfold doGET setupChannel subscription
  cases hb : getBroadCasterId P r with
  | ok id =>
    have hcheck : check P (r.setBroadcaster id) = check P r := rfl
    cases hc : check P r <;> simp only [hcheck, hc] <;> rfl
  | error e => cases e <;> rfl

/-- What `doPOST` leaves in the resource: the channel of the subscription, and on
a rejected context a listener that no `POST` ever fires. -/
def AtmosphereResource.afterPOST (P : Platform) (ch : String) (l : Listener)
    (r : AtmosphereResource) : AtmosphereResource :=
  if (presented P r.contextHeader).isSome then r.setBroadcaster ch
  else (r.setBroadcaster ch).addEventListener l

@[simp] theorem AtmosphereResource.afterPOST_broadcaster (P : Platform) (ch : String)
    (l : Listener) (r : AtmosphereResource) : (r.afterPOST P ch l).broadcaster = some ch := by
  unfold AtmosphereResource.afterPOST
  split <;> rfl

@[simp] theorem AtmosphereResource.afterPOST_uuid (P : Platform) (ch : String)
    (l : Listener) (r : AtmosphereResource) : (r.afterPOST P ch l).uuid = r.uuid := by
  unfold AtmosphereResource.afterPOST
  split <;> rfl

@[simp] theorem AtmosphereResource.afterPOST_contextHeader (P : Platform) (ch : String)
    (l : Listener) (r : AtmosphereResource) :
    (r.afterPOST P ch l).contextHeader = r.contextHeader := by
  unfold AtmosphereResource.afterPOST
  split <;> rfl

/-- **`doPOST`** sets the channel `doGET` would choose and hands the body back as
the entity. -/
theorem doPOST_eq (P : Platform) (f : BroadcasterFactory) (r : AtmosphereResource) (m : Message) :
    doPOST P f r m = match subscription P r with
      | some (ch, l) => (.ok ⟨200, m⟩, f.lookup ch, r.afterPOST P ch l)
      | none => (.error .nullPointerException, f, r) := by
  unfold doPOST setupChannel subscription AtmosphereResource.afterPOST
  rcases getBroadCasterId_cases P r with ⟨k, hk, hb⟩ | ⟨hk, -, message, hb⟩ | ⟨hk, -, hb⟩ <;>
    simp [hk, hb, handleClientError]

/-- The three kinds of subscription. -/
theorem subscription_cases (P : Platform) (r : AtmosphereResource) :
    (∃ k, presented P r.contextHeader = some k ∧ subscription P r =
      some (k.broadcasterId, if k.doomed then
        .clientError .failedAuthenticatedResponse "authentication error"
        else .authentionSuccess)) ∨
    (presented P r.contextHeader = none ∧ denotesNull P r.contextHeader = false ∧
      ∃ message, subscription P r = some (r.uuid, .clientError .contextErrorResponse message)) ∨
    (presented P r.contextHeader = none ∧ denotesNull P r.contextHeader = true ∧
      subscription P r = none) := by
  unfold subscription
  rcases getBroadCasterId_cases P r with ⟨k, hk, hb⟩ | ⟨hk, hn, message, hb⟩ | ⟨hk, hn, hb⟩
  · refine .inl ⟨k, hk, ?_⟩
    rw [hb, check_of_presented hk]
    cases k.doomed <;> rfl
  · exact .inr (.inl ⟨hk, hn, message, by rw [hb]⟩)
  · exact .inr (.inr ⟨hk, hn, by rw [hb]⟩)

/-- Only a header that denotes `null` makes the methods throw. -/
theorem denotesNull_of_subscription {P : Platform} {r : AtmosphereResource}
    {x : String × Listener} (h : subscription P r = some x) :
    denotesNull P r.contextHeader = false := by
  rcases subscription_cases P r with ⟨k, hk, -⟩ | ⟨-, hn, -⟩ | ⟨-, -, hs⟩
  · simp only [presented, Option.bind_eq_some_iff, Option.join_eq_some_iff] at hk
    obtain ⟨text, hh, src, hv, -⟩ := hk
    simp [denotesNull, hh, hv]
  · exact hn
  · simp [hs] at h

/-- The methods throw exactly on a header that denotes `null`. -/
theorem subscription_eq_none_iff {P : Platform} {r : AtmosphereResource} :
    subscription P r = none ↔ denotesNull P r.contextHeader = true := by
  constructor
  · intro hnone
    rcases subscription_cases P r with ⟨k, -, hs⟩ | ⟨-, -, message, hs⟩ | ⟨-, hn, -⟩
    · rw [hs] at hnone
      cases hnone
    · rw [hs] at hnone
      cases hnone
    · exact hn
  · intro hn
    cases hsub : subscription P r with
    | none => rfl
    | some x =>
      rw [denotesNull_of_subscription hsub] at hn
      cases hn

/-- The channel of an accepted context. -/
theorem channelOf_of_presented {P : Platform} {r : AtmosphereResource} {k : ContextKey}
    (h : presented P r.contextHeader = some k) : channelOf P r = some k.broadcasterId := by
  rcases subscription_cases P r with ⟨k', hk', hs⟩ | ⟨hk', -⟩ | ⟨hk', -⟩
  · rw [h, Option.some.injEq] at hk'
    rw [channelOf, hs, hk']
    rfl
  · rw [h] at hk'; cases hk'
  · rw [h] at hk'; cases hk'

/-- The channel of a request is the id of the context it carries, or its uuid. -/
theorem channelOf_cases {P : Platform} {r : AtmosphereResource} {ch : String}
    (h : channelOf P r = some ch) :
    (∃ k, presented P r.contextHeader = some k ∧ ch = k.broadcasterId) ∨
    (presented P r.contextHeader = none ∧ ch = r.uuid) := by
  rcases subscription_cases P r with ⟨k, hk, hs⟩ | ⟨hk, -, message, hs⟩ | ⟨hk, -, hs⟩ <;>
    rw [channelOf, hs] at h <;> cases h
  · exact .inl ⟨k, hk, rfl⟩
  · exact .inr ⟨hk, rfl⟩

/-- **The outcome of a subscription.**  A success on the channel of an accepted
context, a failure on that of a doomed one, and a context error on the channel
named by the session uuid. -/
theorem outcome_cases {P : Platform} {r : AtmosphereResource} {ch : String} {l : Listener}
    {m : Message} (hs : subscription P r = some (ch, l)) (hm : l.onSuspend = some m) :
    (∃ k, presented P r.contextHeader = some k ∧ ch = k.broadcasterId ∧ k.doomed = false ∧
      m.type = some .successfulAuthenticationResponse) ∨
    (∃ k, presented P r.contextHeader = some k ∧ ch = k.broadcasterId ∧ k.doomed = true ∧
      m.type = some .failedAuthenticatedResponse) ∨
    (presented P r.contextHeader = none ∧ ch = r.uuid ∧ m.type = some .contextErrorResponse) := by
  rcases subscription_cases P r with ⟨k, hk, hs'⟩ | ⟨hk, -, message, hs'⟩ | ⟨hk, -, hs'⟩ <;>
    rw [hs'] at hs <;> cases hs
  · cases hd : k.doomed <;> rw [hd] at hm <;> cases hm
    · exact .inl ⟨k, hk, rfl, hd, rfl⟩
    · exact .inr (.inl ⟨k, hk, rfl, hd, rfl⟩)
  · cases hm
    exact .inr (.inr ⟨hk, rfl, rfl⟩)

/-- The listener of a subscription always has something to broadcast. -/
theorem onSuspend_of_subscription {P : Platform} {r : AtmosphereResource} {ch : String}
    {l : Listener} (hs : subscription P r = some (ch, l)) : ∃ m, l.onSuspend = some m := by
  rcases subscription_cases P r with ⟨k, hk, hs'⟩ | ⟨hk, -, message, hs'⟩ | ⟨hk, -, hs'⟩ <;>
    rw [hs'] at hs <;> cases hs
  · cases k.doomed <;> exact ⟨_, rfl⟩
  · exact ⟨_, rfl⟩

/-- **Requests on one channel have one outcome**, when no request whose context is turned
down falls back to the channel of a context. -/
theorem outcome_type_unique {P : Platform} {r r' : AtmosphereResource} {ch : String}
    {l l' : Listener} {m m' : Message}
    (halone : presented P r.contextHeader = none → ∀ k : ContextKey, r.uuid ≠ k.broadcasterId)
    (halone' : presented P r'.contextHeader = none → ∀ k : ContextKey, r'.uuid ≠ k.broadcasterId)
    (hs : subscription P r = some (ch, l)) (hs' : subscription P r' = some (ch, l'))
    (hm : l.onSuspend = some m) (hm' : l'.onSuspend = some m') : m.type = m'.type := by
  rcases outcome_cases hs hm with ⟨k, -, hch, hd, ht⟩ | ⟨k, -, hch, hd, ht⟩ | ⟨hk, hch, ht⟩ <;>
    rcases outcome_cases hs' hm' with
      ⟨k', -, hch', hd', ht'⟩ | ⟨k', -, hch', hd', ht'⟩ | ⟨hk', hch', ht'⟩
  · rw [ht, ht']
  · -- one channel, one context, one answer of the check
    rw [hch, broadcasterId_inj] at hch'
    rw [hch', hd'] at hd
    cases hd
  · exact absurd (hch'.symm.trans hch) (halone' hk' k)
  · rw [hch, broadcasterId_inj] at hch'
    rw [hch', hd'] at hd
    cases hd
  · rw [ht, ht']
  · exact absurd (hch'.symm.trans hch) (halone' hk' k)
  · exact absurd (hch.symm.trans hch') (halone hk k')
  · exact absurd (hch.symm.trans hch') (halone hk k')
  · rw [ht, ht']

/-! ## The factory -/

namespace BroadcasterFactory

variable {f : BroadcasterFactory} {id ch : String} {e : Envelope} {q : List Envelope}

theorem lookup_self (f : BroadcasterFactory) (id : String) : f.lookup id id ≠ none := by
  unfold lookup
  split
  · simp
  · assumption

theorem lookup_of_ne (h : ch ≠ id) : f.lookup id ch = f ch := by
  unfold lookup
  split
  · simp [h]
  · rfl

/-- What `lookup` finds on a channel was there before, or nothing is queued. -/
theorem lookup_eq_some (h : f.lookup id ch = some q) : f ch = some q ∨ q = [] := by
  by_cases hne : ch = id
  · subst hne
    unfold lookup at h
    split at h
    · exact .inr (by simpa using h.symm)
    · exact .inl h
  · exact .inl (by rwa [lookup_of_ne hne] at h)

theorem lookup_of_some (h : f ch = some q) : f.lookup id ch = some q := by
  unfold lookup
  split
  · rename_i hnone
    have : ch ≠ id := by rintro rfl; simp [h] at hnone
    simpa [this] using h
  · exact h

theorem broadcast_of_ne (h : ch ≠ id) : f.broadcast id e ch = f ch := by
  simp [broadcast, h]

theorem broadcast_self (h : f id = some q) : f.broadcast id e id = some (q ++ [e]) := by
  simp [broadcast, h]

/-- Every channel of `f` is there in `g`, and what is queued on it still is. -/
def Grows (f g : BroadcasterFactory) : Prop :=
  ∀ ch q, f ch = some q → ∃ q', g ch = some q' ∧ ∀ e ∈ q, e ∈ q'

variable {g k : BroadcasterFactory}

theorem Grows.refl (f : BroadcasterFactory) : f.Grows f := fun _ q hq => ⟨q, hq, fun _ he => he⟩

theorem Grows.trans (h : f.Grows g) (h' : g.Grows k) : f.Grows k := by
  intro ch q hq
  obtain ⟨q', hq', hsub⟩ := h ch q hq
  obtain ⟨q'', hq'', hsub'⟩ := h' ch q' hq'
  exact ⟨q'', hq'', fun e he => hsub' e (hsub e he)⟩

theorem Grows.ne_none (h : f.Grows g) (hch : f ch ≠ none) : g ch ≠ none := by
  obtain ⟨q, hq⟩ := Option.ne_none_iff_exists'.1 hch
  obtain ⟨q', hq', -⟩ := h ch q hq
  rw [hq']
  nofun

theorem grows_lookup (f : BroadcasterFactory) (id : String) : f.Grows (f.lookup id) :=
  fun _ q hq => ⟨q, lookup_of_some hq, fun _ he => he⟩

theorem grows_broadcast (f : BroadcasterFactory) (id : String) (e : Envelope) :
    f.Grows (f.broadcast id e) := by
  intro ch q hq
  by_cases hne : ch = id
  · subst hne
    exact ⟨q ++ [e], broadcast_self hq, fun _ he => List.mem_append_left _ he⟩
  · exact ⟨q, by rwa [broadcast_of_ne hne], fun _ he => he⟩

theorem grows_broadcastTo (P : Platform) (f : BroadcasterFactory) (path : String)
    (e : Envelope) : f.Grows (f.broadcastTo P path e) := by
  intro ch q hq
  unfold broadcastTo
  split
  · exact ⟨q ++ [e], by rw [hq]; rfl, fun _ he => List.mem_append_left _ he⟩
  · exact ⟨q, hq, fun _ he => he⟩

end BroadcasterFactory

end Amps
