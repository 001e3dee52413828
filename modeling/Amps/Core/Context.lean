import Amps.Core.Domain
import Amps.Kernel.Separated

/-!
# Contexts, channel ids and the token check

`ServiceRequestContextUtils` and `AuthenticationProvider`: how a request is
turned into the id of the channel it works on, and how its token is checked.

* `retrieve`, `getBroadCasterId`, `check` — the three functions of the source,
  with every exception they can throw.
* `ContextKey` — the triple (userId, device type, authToken) an accepted context
  consists of; `presented` is the triple a request header carries.
* `getBroadCasterId_cases`, `check_of_presented` — the whole behaviour of the
  three functions in terms of that triple.
* `broadcasterId_inj` — **channel ids are unambiguous**: two contexts share a
  channel only when they are the same triple, although the token may itself
  contain the separator.

What the service takes from its libraries is the parameter `Platform`.
-/

namespace Amps

open Separated

/-- What the service relies on but does not contain: Jackson's `readValue` and
the path match of Atmosphere's `MetaBroadcaster`. -/
structure Platform where
  /-- `ObjectMapper.readValue(text, ServiceRequestContext.class)`: `none` when it
  throws, `some none` when the text denotes the reference `null`. -/
  readValue : String → Option (Option ServiceRequestContext)
  /-- Does a namespace given to `broadcastTo` match the id of a broadcaster? -/
  matchesPath : String → String → Bool

/-! ## Resources -/

/-- The event listeners the service puts on a resource. -/
inductive Listener where
  /-- `WebSocketEventListenerAdapterImpl`, named by `@Suspend`. -/
  | webSocketEventListenerAdapterImpl
  /-- The listener `handleAuthentionSuccess` registers. -/
  | authentionSuccess
  /-- The listener `handleClientError` registers. -/
  | clientError (messageType : MessageType) (errorMessage : String)
  deriving DecidableEq, Repr

/-- What the service reads and writes of an `AtmosphereResource`. -/
structure AtmosphereResource where
  /-- `r.uuid()`. -/
  uuid : String
  /-- `r.getRequest().getHeader(HT_SVC_REQUEST_CONTEXT)`. -/
  contextHeader : Option String
  /-- The id of the broadcaster given to `setBroadcaster`, once it was called. -/
  broadcaster : Option String := none
  /-- The listeners added so far. -/
  listeners : List Listener := []
  deriving DecidableEq, Repr

/-- What a method of the service may throw. -/
inductive Thrown where
  /-- `ContextException`, with its message. -/
  | contextException (message : String)
  /-- `NullPointerException`. -/
  | nullPointerException
  deriving DecidableEq, Repr

/-! ## The context of a request -/

/-- `String.format`'s rendering of a reference to a string. -/
def formatArg (s : Option String) : String := s.getD "null"

/-- `ServiceRequestContextUtils.retrieve`. -/
def retrieve (P : Platform) (r : AtmosphereResource) :
    Except Thrown (Option ServiceRequestContext) :=
  match r.contextHeader with
  | none =>
      .error (.contextException
        ("client " ++ r.uuid ++ ": missing header " ++ htSvcRequestContext))
  | some serviceRequestContextString =>
      match P.readValue serviceRequestContextString with
      | none =>
          .error (.contextException ("client " ++ r.uuid ++ ": ServiceRequestContext \x7b" ++
            serviceRequestContextString ++ "\x7d is maleformed"))
      | some src => .ok src

/-- `ServiceRequestContextUtils.getBroadCasterId`.  A header that denotes `null`
makes `src.getUserId()` throw. -/
def getBroadCasterId (P : Platform) (r : AtmosphereResource) : Except Thrown String :=
  match retrieve P r with
  | .error e => .error e
  | .ok none => .error .nullPointerException
  | .ok (some src) =>
      match src.userId with
      | none =>
          .error (.contextException
            ("userId is missing from \x7b" ++ formatArg r.contextHeader ++ "\x7d"))
      | some userId =>
          match src.deviceInfo.bind DeviceInfo.type with
          | none =>
              .error (.contextException
                ("deviceType is missing from \x7b" ++ formatArg r.contextHeader ++ "\x7d"))
          | some deviceType =>
              match src.authToken with
              | none =>
                  .error (.contextException
                    ("authToken is missing from \x7b" ++ formatArg r.contextHeader ++ "\x7d"))
              | some token =>
                  .ok ("/" ++ toString userId.toInt ++ "/" ++ deviceType.toString ++ "/" ++ token)

/-- `AuthenticationProvider.check`.  Whatever is thrown inside is caught, the
dereference of a `null` context included. -/
def check (P : Platform) (r : AtmosphereResource) : Bool :=
  match retrieve P r with
  | .error _ => false
  | .ok none => false
  | .ok (some src) =>
      match src.authToken with
      | none => false
      | some token => if htSvcRequestDoomedToken = token then false else true

/-! ## Accepted contexts -/

/-- The three fields a context must have to be accepted. -/
structure ContextKey where
  userId : Int64
  deviceType : DeviceInfo.Type
  authToken : String
  deriving DecidableEq, Repr

/-- The id of the channel of a context. -/
def ContextKey.broadcasterId (k : ContextKey) : String :=
  "/" ++ toString k.userId.toInt ++ "/" ++ k.deviceType.toString ++ "/" ++ k.authToken

/-- Does the token check turn this context down? -/
def ContextKey.doomed (k : ContextKey) : Bool := htSvcRequestDoomedToken = k.authToken

/-- The device type of a context, if it has one. -/
def ServiceRequestContext.deviceType (src : ServiceRequestContext) : Option DeviceInfo.Type :=
  src.deviceInfo.bind DeviceInfo.type

/-- The three fields, when all of them are there. -/
def ServiceRequestContext.key (src : ServiceRequestContext) : Option ContextKey :=
  match src.userId, src.deviceInfo.bind DeviceInfo.type, src.authToken with
  | some userId, some deviceType, some authToken => some ⟨userId, deviceType, authToken⟩
  | _, _, _ => none

/-- The accepted context a request header carries, if it carries one. -/
def presented (P : Platform) (header : Option String) : Option ContextKey :=
  header.bind fun text => (P.readValue text).join.bind ServiceRequestContext.key

/-- Does the header denote the reference `null`? -/
def denotesNull (P : Platform) (header : Option String) : Bool :=
  header.any fun text => P.readValue text = some none

/-- Everything `getBroadCasterId` can do: the id of an accepted context, a
`ContextException`, or a `NullPointerException` on a header that denotes `null`. -/
theorem getBroadCasterId_cases (P : Platform) (r : AtmosphereResource) :
    (∃ k, presented P r.contextHeader = some k ∧ getBroadCasterId P r = .ok k.broadcasterId) ∨
    (presented P r.contextHeader = none ∧ denotesNull P r.contextHeader = false ∧
      ∃ message, getBroadCasterId P r = .error (.contextException message)) ∨
    (presented P r.contextHeader = none ∧ denotesNull P r.contextHeader = true ∧
      getBroadCasterId P r = .error .nullPointerException) := by
  unfold getBroadCasterId retrieve presented denotesNull
  cases hh : r.contextHeader with
  | none => simp
  | some text =>
    cases hv : P.readValue text with
    | none => simp [hv]
    | some src? =>
      cases src? with
      | none => simp [hv]
      | some src =>
        cases hu : src.userId <;> cases hd : src.deviceInfo.bind DeviceInfo.type <;>
          cases ht : src.authToken <;>
          simp [hv, hu, hd, ht, ServiceRequestContext.key, ContextKey.broadcasterId]

/-- An accepted context is retrieved with its token. -/
theorem retrieve_of_presented {P : Platform} {r : AtmosphereResource} {k : ContextKey}
    (h : presented P r.contextHeader = some k) :
    ∃ src, retrieve P r = .ok (some src) ∧ src.authToken = some k.authToken := by
  simp only [presented, Option.bind_eq_some_iff, Option.join_eq_some_iff] at h
  obtain ⟨text, hh, src, hv, hk⟩ := h
  unfold ServiceRequestContext.key at hk
  split at hk
  · rename_i userId deviceType authToken hu hd ht
    cases hk
    exact ⟨src, by simp only [retrieve, hh, hv], ht⟩
  · cases hk

/-- An accepted context passes the check unless its token is the doomed one. -/
theorem check_of_presented {P : Platform} {r : AtmosphereResource} {k : ContextKey}
    (h : presented P r.contextHeader = some k) : check P r = !k.doomed := by
  obtain ⟨src, hr, ht⟩ := retrieve_of_presented h
  simp only [check, hr, ht, ContextKey.doomed]
  split <;> simp_all

/-! ## Channel ids are unambiguous -/

theorem slash_notMem_userId (u : Int64) : '/' ∉ (toString u.toInt).toList :=
  notMem_toString_int (by decide) (by decide) _

theorem slash_notMem_deviceType (d : DeviceInfo.Type) : '/' ∉ d.toString.toList := by
  cases d <;> decide

/-- User ids are told apart by their decimal form. -/
theorem toList_userId_inj {u v : Int64} :
    (toString u.toInt).toList = (toString v.toInt).toList ↔ u = v := by
  constructor
  · intro h
    exact Int64.toInt_inj.1 (Int.repr_injective (String.toList_inj.1 h))
  · intro h
    rw [h]

theorem toList_deviceType_inj {d e : DeviceInfo.Type} :
    d.toString.toList = e.toString.toList ↔ d = e := by
  rw [String.toList_inj, DeviceInfo.Type.toString_inj]

theorem toList_broadcasterId (k : ContextKey) : k.broadcasterId.toList =
    '/' :: ((toString k.userId.toInt).toList ++ '/' :: (k.deviceType.toString.toList ++
      '/' :: k.authToken.toList)) := by
  simp [ContextKey.broadcasterId, String.toList_append]

/-- **Channel ids are unambiguous.**  The user id and the device name contain no
separator, so the first two separators delimit them, and what follows is the
token, whatever it contains. -/
theorem broadcasterId_inj {k l : ContextKey} : k.broadcasterId = l.broadcasterId ↔ k = l := by
  refine ⟨?_, fun h => by rw [h]⟩
  intro h
  have hlist := congrArg String.toList h
  rw [toList_broadcasterId, toList_broadcasterId, List.cons.injEq] at hlist
  obtain ⟨hu, hrest⟩ := (append_sep_inj (slash_notMem_userId _) (slash_notMem_userId _)).1 hlist.2
  obtain ⟨hd, ht⟩ :=
    (append_sep_inj (slash_notMem_deviceType _) (slash_notMem_deviceType _)).1 hrest
  have huser : k.userId = l.userId := toList_userId_inj.1 hu
  have hdevice : k.deviceType = l.deviceType := toList_deviceType_inj.1 hd
  cases k
  cases l
  cases huser
  cases hdevice
  cases String.toList_inj.1 ht
  rfl

/-- Does a text start with the separator? -/
def startsWithSlash (s : String) : Bool := s.toList.head? = some '/'

theorem startsWithSlash_broadcasterId (k : ContextKey) :
    startsWithSlash k.broadcasterId = true := by
  simp [startsWithSlash, toList_broadcasterId]

/-! ## A platform to evaluate on -/

/-- The JSON text of a context. -/
def ContextKey.json (k : ContextKey) : String :=
  "\x7b\"userId\":" ++ toString k.userId.toInt ++ ",\"deviceInfo\":\x7b\"type\":\"" ++
    k.deviceType.toString ++ "\"\x7d,\"authToken\":\"" ++ k.authToken ++ "\"\x7d"

/-- The context with these three fields. -/
def ContextKey.context (k : ContextKey) : ServiceRequestContext :=
  { userId := some k.userId
    deviceInfo := some ⟨some k.deviceType⟩
    authToken := some k.authToken }

/-- A platform that reads the text `null` and the JSON of the given contexts, and
matches a namespace with the one channel of that id. -/
def Platform.reading (keys : List ContextKey) : Platform where
  readValue text :=
    if text = "null" then some none
    else (keys.find? (·.json = text)).map fun k => some k.context
  matchesPath path id := path = id

end Amps
