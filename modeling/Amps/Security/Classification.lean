import Amps.Core.Exchange

/-!
# What `doGET` makes of a context header

A client may send anything in the context header.  `doGET` sorts what it finds there into
three outcomes and registers one listener for it.

* `ContextMissing` — the headers that carry no complete context.
* `HeaderOutcome` — the outcome a header calls for: which message is announced, and on
  which channel.
* `classifiesHeader_iff` — `doGET` returns and registers that outcome for every header but
  those that denote the reference `null`.
* `classifiesHeader_null` — on such a header a `NullPointerException` escapes, and the
  client is told nothing.
-/

namespace Amps

/-! ## What a header calls for -/

/-- The header is absent, cannot be read, denotes no context, or lacks one of the three
fields. -/
def ContextMissing (P : Platform) : Option String → Prop
  | none => True
  | some text =>
      match P.readValue text with
      | none => True
      | some none => True
      | some (some src) => src.userId = none ∨ src.deviceType = none ∨ src.authToken = none

/-- The type of the message a listener announces when its connection suspends. -/
def Listener.announces (l : Listener) : Option MessageType := l.onSuspend.bind Message.type

/-- **The outcome a header calls for**: the type the listener `l` announces, and the
channel `ch` it does so on. -/
structure HeaderOutcome (P : Platform) (r : AtmosphereResource) (ch : String) (l : Listener) :
    Prop where
  contextError : l.announces = some .contextErrorResponse ↔ ContextMissing P r.contextHeader
  failed : l.announces = some .failedAuthenticatedResponse ↔
    ∃ k, presented P r.contextHeader = some k ∧ k.authToken = htSvcRequestDoomedToken
  success : l.announces = some .successfulAuthenticationResponse ↔
    ∃ k, presented P r.contextHeader = some k ∧ k.authToken ≠ htSvcRequestDoomedToken
  fallback : ContextMissing P r.contextHeader → ch = r.uuid
  channel : ∀ k, presented P r.contextHeader = some k → ch = k.broadcasterId

/-- `doGET` returns, sets this channel and adds this one listener. -/
def Registers (P : Platform) (f : BroadcasterFactory) (r : AtmosphereResource) (ch : String)
    (l : Listener) : Prop :=
  ∃ response g, doGET P f r = (.ok response, g,
    { r with broadcaster := some ch, listeners := r.listeners ++ [l] })

/-- Once `setupChannel` succeeded, the second parse finds a context with a token. -/
def ParsesAgain (P : Platform) (f : BroadcasterFactory) (r : AtmosphereResource) : Prop :=
  ∀ g r', setupChannel P f r = (.ok (), g, r') →
    ∃ src token, retrieve P r' = .ok (some src) ∧ src.authToken = some token

/-- **`doGET` classifies the header**: it returns and registers the outcome the header
calls for, and `check` finds what `setupChannel` found. -/
def ClassifiesHeader (P : Platform) (f : BroadcasterFactory) (r : AtmosphereResource) : Prop :=
  (∃ ch l, Registers P f r ch l ∧ HeaderOutcome P r ch l) ∧ ParsesAgain P f r

/-! ## What `doGET` does with it -/

section

variable {P : Platform} {f : BroadcasterFactory} {r : AtmosphereResource}

/-- A header that carries no complete context carries no accepted one. -/
theorem contextMissing_iff {header : Option String} :
    ContextMissing P header ↔ presented P header = none := by
  cases header with
  | none => simp [ContextMissing, presented]
  | some text =>
    cases hv : P.readValue text with
    | none => simp [ContextMissing, presented, hv]
    | some src? =>
      cases src? with
      | none => simp [ContextMissing, presented, hv]
      | some src =>
        simp only [ContextMissing, presented, hv, Option.bind_some, Option.join_some,
          ServiceRequestContext.key, ServiceRequestContext.deviceType]
        cases src.userId <;> cases src.deviceInfo.bind DeviceInfo.type <;>
          cases src.authToken <;> simp

theorem ContextKey.doomed_iff {k : ContextKey} :
    k.doomed = true ↔ k.authToken = htSvcRequestDoomedToken := by
  simp [ContextKey.doomed, eq_comm]

/-- **A subscription is the outcome its header calls for.** -/
theorem headerOutcome_of_subscription {ch : String} {l : Listener}
    (h : subscription P r = some (ch, l)) : HeaderOutcome P r ch l := by
  obtain ⟨m, hm⟩ := onSuspend_of_subscription h
  have hann : l.announces = m.type := by simp [Listener.announces, hm]
  rcases outcome_cases h hm with ⟨k, hk, rfl, hd, ht⟩ | ⟨k, hk, rfl, hd, ht⟩ | ⟨hk, rfl, ht⟩
  · have htoken : k.authToken ≠ htSvcRequestDoomedToken := by
      rw [Ne, ← ContextKey.doomed_iff, hd]
      simp
    constructor <;> simp [hann, ht, contextMissing_iff, hk, htoken]
  · have htoken := ContextKey.doomed_iff.1 hd
    constructor <;> simp [hann, ht, contextMissing_iff, hk, htoken]
  · constructor <;> simp [hann, ht, contextMissing_iff, hk]

/-- **The second parse agrees with the first**, so `check` never fails on a context that
`setupChannel` accepted. -/
theorem parsesAgain (P : Platform) (f : BroadcasterFactory) (r : AtmosphereResource) :
    ParsesAgain P f r := by
  intro g r' h
  unfold setupChannel at h
  rcases getBroadCasterId_cases P r with ⟨k, hk, hb⟩ | ⟨-, -, message, hb⟩ | ⟨-, -, hb⟩
  · rw [hb] at h
    cases h
    obtain ⟨src, hsrc, htoken⟩ := retrieve_of_presented hk
    exact ⟨src, k.authToken, hsrc, htoken⟩
  · rw [hb] at h
    cases h
  · rw [hb] at h
    cases h

/-- **Every header is classified but the ones that denote `null`**: `doGET` returns and
registers the one outcome the header calls for exactly when the header does not denote
the reference `null`. -/
theorem classifiesHeader_iff (P : Platform) (f : BroadcasterFactory) (r : AtmosphereResource) :
    ClassifiesHeader P f r ↔ denotesNull P r.contextHeader = false := by
  have hget := doGET_eq P f r
  constructor
  · rintro ⟨⟨ch, l, ⟨response, g, hreturn⟩, -⟩, -⟩
    cases hsub : subscription P r with
    | some x => exact denotesNull_of_subscription hsub
    | none =>
      rw [hsub, hreturn] at hget
      cases hget
  · intro hnull
    refine ⟨?_, parsesAgain P f r⟩
    cases hsub : subscription P r with
    | some x =>
      rw [hsub] at hget
      exact ⟨x.1, x.2, ⟨_, _, hget⟩, headerOutcome_of_subscription hsub⟩
    | none =>
      rw [subscription_eq_none_iff.1 hsub] at hnull
      cases hnull

end

/-- **A header that denotes `null`** makes `doGET` throw, although it carries no context. -/
theorem classifiesHeader_null : ¬ ∀ (P : Platform) (f : BroadcasterFactory)
    (r : AtmosphereResource), ClassifiesHeader P f r := by
  intro hall
  have h := hall (.reading []) (fun _ => none) ⟨"a", some "null", none, []⟩
  obtain ⟨⟨ch, l, ⟨response, g, hreturn⟩, -⟩, -⟩ := h
  have hget : doGET (.reading []) (fun _ => none) ⟨"a", some "null", none, []⟩ =
      (.error .nullPointerException, fun _ => none, ⟨"a", some "null", none, []⟩) := rfl
  rw [hget] at hreturn
  cases hreturn

end Amps
