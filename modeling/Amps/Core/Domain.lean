import Mathlib.Tactic.Common

/-!
# Messages and request contexts

The data the service exchanges: `com.me.amps.domain.dto` (what travels on the
channels), `com.ys.common` (the context a client presents in a request header)
and `MessageSubscribeServiceConstants`.

A reference that Java may leave `null` is an `Option`.
-/

namespace Amps

/-! ## Messages -/

/-- `MessageType`. -/
inductive MessageType where
  /-- Indicates successful suspend connection attempt. -/
  | suspendResponse
  /-- Indicates a successful authentication on the suspend connection. -/
  | successfulAuthenticationResponse
  /-- Indicates a failed authentication on the suspend connection. -/
  | failedAuthenticatedResponse
  /-- Indicates context related issue on the suspend connection. -/
  | contextErrorResponse
  | contentCreated
  | contentUpdated
  | contentDeleted
  | contentShared
  | contentUnshared
  | contentShareAccepted
  | system
  deriving DecidableEq, Repr

/-- `Error`: an `int` code, which the service leaves at 0, and a text. -/
structure Error where
  code : Int32 := 0
  message : Option String := none
  deriving DecidableEq, Repr

/-- `Message`, as the no-argument constructor leaves it unless a field is given. -/
structure Message where
  id : Option String := none
  type : Option MessageType := none
  timestamp : Int64 := 0
  resourceUuid : Option (BitVec 128) := none
  message : Option String := none
  error : Option Error := none
  deriving DecidableEq, Repr

namespace Message

/-- `Message.Builder`: the message under construction. -/
structure Builder where
  message : Message := {}

namespace Builder

/-- `Builder.type`. -/
def type (b : Builder) (type : MessageType) : Builder :=
  { b with message := { b.message with type := some type } }

/-- `Builder.error`. -/
def error (b : Builder) (error : Error) : Builder :=
  { b with message := { b.message with error := some error } }

/-- `Builder.build`. -/
def build (b : Builder) : Message := b.message

end Builder
end Message

/-! ## Request contexts -/

/-- `DeviceInfo.Type`. -/
inductive DeviceInfo.Type where
  | desktop
  | mobile
  | phi
  deriving DecidableEq, Repr

/-- `DeviceInfo.Type.toString`, the name of the constant. -/
def DeviceInfo.Type.toString : DeviceInfo.Type → String
  | .desktop => "DESKTOP"
  | .mobile => "MOBILE"
  | .phi => "PHI"

/-- `DeviceInfo`. -/
structure DeviceInfo where
  type : Option DeviceInfo.Type
  deriving DecidableEq, Repr

/-- `ServiceRequestContext`, as Jackson fills it in from the request header. -/
structure ServiceRequestContext where
  authToken : Option String := none
  userId : Option Int64 := none
  deviceInfo : Option DeviceInfo := none
  deriving DecidableEq, Repr

/-! ## Constants -/

/-- `HT_SVC_REQUEST_CONTEXT`, the header a context is presented in. -/
def htSvcRequestContext : String := "HtServiceRequestContext"

/-- `HT_SVC_REQUEST_DOOMED_TOKEN`, the one token the check turns down. -/
def htSvcRequestDoomedToken : String := "FAILME"

/-- Device names are told apart by their text. -/
theorem DeviceInfo.Type.toString_inj {d e : DeviceInfo.Type} :
    d.toString = e.toString ↔ d = e := by
  cases d <;> cases e <;> decide

end Amps
