import Amps.Core.Context
import Amps.Kernel.Cell

/-!
# The session status and the two gates

`SubscriptionStatusListener` keeps one attribute in the session of a resource,
and `MessageExchangeService` reads and writes it in three places: the request
gate, the outgoing filter, and the listener that records a handshake outcome.
Each is a program over the attribute, access by access, as the source makes them.

* `interceptRequest`, `interceptBroadcast`, `onBroadcast` — the three programs;
  `inspect` and `filter` are what Atmosphere calls.
* `interceptRequest_run`, `interceptBroadcast_run`, `onBroadcast_run` — what each
  does when nothing happens between its accesses.
-/

namespace Amps

open Cell

/-! ## The status -/

/-- `SubscriptionStatusListener.Status`. -/
inductive Status where
  | unavailable
  | authPending
  | authSuccessful
  | authFailed
  | systemError
  deriving DecidableEq, Repr

/-- A program over the attribute `HT_SVC_RESOURCE_AUTHENTICATION_STATE` of one
session; the attribute is `none` until it is set, or when there is no session. -/
abbrev SessionM (α : Type) := Prog (Option Status) α

/-- The status an attribute stands for: a missing one is `UNAVAILABLE`. -/
def statusOf (value : Option Status) : Status := value.getD .unavailable

@[simp] theorem statusOf_none : statusOf none = .unavailable := rfl

@[simp] theorem statusOf_some (v : Status) : statusOf (some v) = v := rfl

/-- `SubscriptionStatusListener.status`. -/
def status : SessionM Status := .read fun value => .done (statusOf value)

/-- `SubscriptionStatusListener.setStatus`. -/
def setStatus (value : Status) : SessionM Unit := .write (some value) (.done ())

/-- `onAuthenticationSuccess`. -/
def onAuthenticationSuccess : SessionM Unit := setStatus .authSuccessful

/-- `onAuthenticationFailure`. -/
def onAuthenticationFailure : SessionM Unit := setStatus .authFailed

/-- `onAuthenticationPending`. -/
def onAuthenticationPending : SessionM Unit := setStatus .authPending

@[simp] theorem status_run (a : Option Status) : status.run a = (statusOf a, a) := rfl

@[simp] theorem setStatus_run (v : Status) (a : Option Status) :
    (setStatus v).run a = ((), some v) := rfl

/-! ## The request gate -/

/-- `MessageExchangeService.ProcessAction`. -/
inductive ProcessAction where
  | go
  | stop
  deriving DecidableEq, Repr

/-- `MessageExchangeService.interceptRequest`.  The first status is only logged;
the branches are taken on statuses read afresh. -/
def interceptRequest : SessionM ProcessAction := do
  let _currentStatus ← status
  let first ← status
  if first = .unavailable then
    onAuthenticationPending
    return .go
  else
    let second ← status
    if second = .authSuccessful then
      return .go
    else
      return .stop

/-- What Atmosphere does with a request after the interceptor. -/
inductive Action where
  | «continue»
  | skipAtmosphereHandler
  deriving DecidableEq, Repr

/-- `AtmosphereInterceptorImpl.inspect`. -/
def inspect : SessionM Action := do
  let pa ← interceptRequest
  if pa = .go then
    return .continue
  else
    return .skipAtmosphereHandler

/-- **The request gate.**  The first request of a session starts the handshake
and passes, those of an authenticated session pass, all others are dropped. -/
theorem interceptRequest_run (a : Option Status) :
    interceptRequest.run a =
      if statusOf a = .unavailable then (.go, some .authPending)
      else if statusOf a = .authSuccessful then (.go, a)
      else (.stop, a) := by
  by_cases hu : statusOf a = .unavailable
  · simp [interceptRequest, onAuthenticationPending, hu]
  · by_cases hs : statusOf a = .authSuccessful <;> simp [interceptRequest, hu, hs]

theorem inspect_run (a : Option Status) :
    inspect.run a =
      if statusOf a = .unavailable then (.continue, some .authPending)
      else if statusOf a = .authSuccessful then (.continue, a)
      else (.skipAtmosphereHandler, a) := by
  by_cases hu : statusOf a = .unavailable
  · simp [inspect, interceptRequest_run, hu]
  · by_cases hs : statusOf a = .authSuccessful <;> simp [inspect, interceptRequest_run, hu, hs]

/-- The gate lets a request through exactly from these two statuses. -/
theorem inspect_continue_iff {a : Option Status} :
    (inspect.run a).1 = .continue ↔ statusOf a = .unavailable ∨ statusOf a = .authSuccessful := by
  rw [inspect_run]
  by_cases hu : statusOf a = .unavailable
  · simp [hu]
  · by_cases hs : statusOf a = .authSuccessful <;> simp [hu, hs]

/-! ## The outgoing filter -/

/-- `MessageExchangeService.defaultSystemMessageType`. -/
def defaultSystemMessageType : List MessageType :=
  [.suspendResponse, .successfulAuthenticationResponse, .failedAuthenticatedResponse,
    .contextErrorResponse]

/-- Is the type of a message one of the four handshake types?  The set contains
no `null`. -/
def Message.isHandshake (m : Message) : Bool := m.type.any (defaultSystemMessageType.contains ·)

/-- Is the message one of the two outcomes that decide a session's status? -/
def Message.isOutcome (m : Message) : Bool :=
  m.type = some .successfulAuthenticationResponse || m.type = some .failedAuthenticatedResponse

/-- `MessageExchangeService.interceptBroadcast`. -/
def interceptBroadcast (message : Message) : SessionM ProcessAction := do
  let currentStatus ← status
  if message.isHandshake then
    return .go
  else if currentStatus = .authSuccessful then
    return .go
  else if currentStatus = .authPending then
    return .stop
  else
    return .stop

/-- `BroadcastAction`: whether the message goes on, and the message. -/
structure BroadcastAction where
  abort : Bool
  message : Message
  deriving DecidableEq, Repr

/-- `BroadcastFilterImpl.filter`. -/
def filter (message : Message) : SessionM BroadcastAction := do
  let pa ← interceptBroadcast message
  if pa = .go then
    return ⟨false, message⟩
  else
    return ⟨true, message⟩

/-- **The outgoing filter.**  Handshake messages pass in every status, all others
only when the session is authenticated; the session is left alone. -/
theorem interceptBroadcast_run (m : Message) (a : Option Status) :
    (interceptBroadcast m).run a =
      (if m.isHandshake = true ∨ statusOf a = .authSuccessful then .go else .stop, a) := by
  by_cases hm : m.isHandshake = true
  · simp [interceptBroadcast, hm]
  · by_cases ha : statusOf a = .authSuccessful <;> simp [interceptBroadcast, hm, ha]

/-- Does a message pass the filter of a connection whose session has this status? -/
def Message.passes (m : Message) (v : Status) : Bool := m.isHandshake || v = .authSuccessful

theorem filter_run (m : Message) (a : Option Status) :
    (filter m).run a = (⟨!m.passes (statusOf a), m⟩, a) := by
  by_cases hm : m.isHandshake = true <;> by_cases ha : statusOf a = .authSuccessful <;>
    simp [filter, interceptBroadcast_run, Message.passes, hm, ha]

/-! ## Recording an outcome -/

/-- `MessageExchangeService.onBroadcast`. -/
def onBroadcast (message : Message) : SessionM Unit :=
  if message.type = some .successfulAuthenticationResponse then
    onAuthenticationSuccess
  else if message.type = some .failedAuthenticatedResponse then
    onAuthenticationFailure
  else
    pure ()

/-- What a delivered message leaves in the session. -/
def Message.record (m : Message) (a : Option Status) : Option Status :=
  if m.type = some .successfulAuthenticationResponse then some .authSuccessful
  else if m.type = some .failedAuthenticatedResponse then some .authFailed
  else a

theorem onBroadcast_run (m : Message) (a : Option Status) :
    (onBroadcast m).run a = ((), m.record a) := by
  unfold onBroadcast Message.record
  split
  · rfl
  · split <;> rfl

/-- An outcome does not leave a session pending. -/
theorem Message.not_isOutcome_of_record {m : Message} {a : Option Status}
    (h : statusOf (m.record a) = .authPending) : m.isOutcome = false := by
  unfold Message.record at h
  split at h
  · cases h
  · split at h
    · cases h
    · simp_all [Message.isOutcome]

/-- Outcomes are handshake messages. -/
theorem Message.isHandshake_of_isOutcome {m : Message} (h : m.isOutcome = true) :
    m.isHandshake = true := by
  simp only [Message.isOutcome, Bool.or_eq_true, decide_eq_true_eq] at h
  rcases h with h | h <;> rw [Message.isHandshake, h] <;> rfl

end Amps
