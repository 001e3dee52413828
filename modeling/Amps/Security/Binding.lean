import Amps.Security.Outcomes

/-!
# One status for all channels of a session

The status belongs to the session, the channel to the request: once a session is
authenticated, the gates let it listen and publish on the channel of whatever
context its next request carries, and `doPOST` checks no token at all.

* `binding_session_wide` — so an authenticated session receives and publishes
  content on channels whose context it never passed a check for.
* `bound_to_own_context` — what does hold: content only reaches a session on the
  channel of a context one of its own connections presented and had checked, it is
  only published on the channel of the context the `POST` itself carries, and in
  both cases some `GET` of the session passed the check.
-/

namespace Amps

open Transition

/-! ## Binding a status to a channel -/

/-- Is this a check of a `GET` of the session that carried this context, passed? -/
def Event.isCheckFor (P : Platform) (u : String) (k : ContextKey) : Event → Bool
  | .checked id header ok => id.uuid = u && ok && presented P header = some k
  | _ => false

/-- Some earlier `GET` of the session carried this context and passed the check. -/
def State.checkedFor (P : Platform) (s : State) (u : String) (k : ContextKey) : Prop :=
  s.history.any (Event.isCheckFor P u k) = true

/-- Content is delivered to an authenticated session only on channels it passed the
check for. -/
def DeliveryBound (P : Platform) (s : State) : Prop :=
  ∀ id (k : ContextKey) e, .filtered id k.broadcasterId e .authSuccessful false ∈ s.history →
    e.message.isHandshake = false → s.checkedFor P id.uuid k

/-- An authenticated session publishes only on channels it passed the check for. -/
def PostBound (P : Platform) (s : State) : Prop :=
  ∀ id (k : ContextKey) b, .published id k.broadcasterId .authSuccessful b ∈ s.history →
    s.checkedFor P id.uuid k

/-- A session authenticates with the token `t`, then subscribes with a token that is
turned down, and publishes there too, before its second outcome arrives. -/
def secondContextRun : List Move :=
  let good := some (ContextKey.json ⟨1, .desktop, "t"⟩)
  let doomed := some (ContextKey.json ⟨1, .desktop, "FAILME"⟩)
  [.inspect ⟨"a", 0⟩ good (.subscribe .message), .handle ⟨"a", 0⟩, .suspend ⟨"a", 0⟩,
    .take "/1/DESKTOP/t" 0, .filter ⟨"a", 0⟩ 0, .notify ⟨"a", 0⟩ 0,
    .inspect ⟨"a", 1⟩ doomed (.subscribe .message), .handle ⟨"a", 1⟩,
    .inspect ⟨"a", 2⟩ doomed (.publish { type := some .contentCreated }), .handle ⟨"a", 2⟩,
    .suspend ⟨"a", 1⟩, .take "/1/DESKTOP/FAILME" 0, .filter ⟨"a", 1⟩ 0]

set_option maxRecDepth 10000 in
/-- **The status is session-wide.**  Neither direction is bound to the channel the
session authenticated on. -/
theorem binding_session_wide :
    (¬ ∀ (P : Platform) (as : List Move) (s : State), (∀ m ∈ as, m.Arrives PlainBody) →
      (service P).run as = some s → DeliveryBound P s) ∧
    (¬ ∀ (P : Platform) (as : List Move) (s : State), (∀ m ∈ as, m.Arrives PlainBody) →
      (service P).run as = some s → PostBound P s) := by
  let keys : List ContextKey := [⟨1, .desktop, "t"⟩, ⟨1, .desktop, "FAILME"⟩]
  obtain ⟨s, hrun, hs⟩ := System.run_any (service (.reading keys)) secondContextRun
    (fun s => decide (s.history.any (Event.isCheckFor (.reading keys) "a"
        ⟨1, .desktop, "FAILME"⟩) = false ∧
      Event.filtered ⟨"a", 1⟩ "/1/DESKTOP/FAILME"
        ⟨{ type := some .contentCreated }, .client ⟨"a", 2⟩⟩ .authSuccessful false ∈ s.history ∧
      Event.published ⟨"a", 2⟩ "/1/DESKTOP/FAILME" .authSuccessful
        { type := some .contentCreated } ∈ s.history)) (by decide)
  obtain ⟨hno, hfiltered, hpublished⟩ := of_decide_eq_true hs
  have hplain : ∀ m ∈ secondContextRun, m.Arrives PlainBody := by decide
  have hid : (ContextKey.mk 1 .desktop "FAILME").broadcasterId = "/1/DESKTOP/FAILME" := by decide
  have hnot : ¬ s.checkedFor (.reading keys) "a" ⟨1, .desktop, "FAILME"⟩ := by
    rw [State.checkedFor, hno]
    nofun
  constructor
  · intro hall
    exact hnot (hall _ _ s hplain hrun ⟨"a", 1⟩ ⟨1, .desktop, "FAILME"⟩ _ (hid ▸ hfiltered) rfl)
  · intro hall
    exact hnot (hall _ _ s hplain hrun ⟨"a", 2⟩ ⟨1, .desktop, "FAILME"⟩ _ (hid ▸ hpublished))

/-! ## What binds a session to a channel -/

/-- Content reached an authenticated session on the channel of a context that the
receiving connection itself presented and had checked. -/
def DeliveredOnOwnContext (P : Platform) (s : State) : Prop :=
  ∀ id (k : ContextKey) e, .filtered id k.broadcasterId e .authSuccessful false ∈ s.history →
    e.message.isHandshake = false → s.checked id.uuid true ∧
      ∃ header, presented P header = some k ∧ .checked id header (!k.doomed) ∈ s.history

/-- An authenticated session published on the channel of the context the `POST` itself
carried. -/
def PostedOnOwnContext (P : Platform) (s : State) : Prop :=
  ∀ id (k : ContextKey) b, .published id k.broadcasterId .authSuccessful b ∈ s.history →
    s.checked id.uuid true ∧
      ∃ c, s.connections id = some c ∧ presented P c.resource.contextHeader = some k

section

variable {P : Platform} {s t : State} {m : Move}

/-- On the channel of a context sit connections that presented it. -/
theorem presented_of_channel {id : ResourceId} {c : Connection} {k : ContextKey}
    (hok : c.Ok P id) (halone : presented P c.resource.contextHeader = none →
      ∀ k : ContextKey, id.uuid ≠ k.broadcasterId)
    (hch : channelOf P c.resource = some k.broadcasterId) :
    presented P c.resource.contextHeader = some k := by
  rcases channelOf_cases hch with ⟨k', hk', hid⟩ | ⟨hnone, hu⟩
  · rw [hk', broadcasterId_inj.1 hid]
  · rw [hok.uuid] at hu
    exact absurd hu.symm (halone hnone k)

theorem deliveredOnOwnContext_of_effect (h : Effect P s m t) (hwf : WellFormed P s)
    (halone : Requests (FallsBackAlone P) s) (hst : StatusIntegrity s)
    (hs : DeliveredOnOwnContext P s) : DeliveredOnOwnContext P t := by
  intro id k e hev hplain
  rcases h.records hev with hev | hrec
  · obtain ⟨hck, header, hk, hown⟩ := hs id k e hev hplain
    exact ⟨hck.mono h, header, hk, h.mem_history hown⟩
  · generalize hch' : k.broadcasterId = ch at hrec
    generalize hv : Status.authSuccessful = v at hrec
    generalize hab : false = abort at hrec
    cases hrec with
    | @filtered _ i c _ _ hc hrec he hch =>
      have hj := Phase.joined_of_live (Connection.live_of_receiving hrec)
      have hchannel : channelOf P c.resource = some k.broadcasterId := by
        rw [(hwf.ok id c hc).channelOf_eq hj, hch, hch']
      have hk := presented_of_channel (hwf.ok id c hc) (halone id c hc) hchannel
      exact ⟨((hst id.uuid).1 hv.symm).mono h, _, hk, h.mem_history (hwf.checked id c k hc hj hk)⟩

theorem postedOnOwnContext_of_effect (h : Effect P s m t) (hwf : WellFormed P s)
    (halone : Requests (FallsBackAlone P) s) (hst : StatusIntegrity s)
    (hs : PostedOnOwnContext P s) : PostedOnOwnContext P t := by
  -- a request keeps its header
  have hheader : ∀ {id c}, s.connections id = some c → ∃ c', t.connections id = some c' ∧
      presented P c'.resource.contextHeader = presented P c.resource.contextHeader := by
    intro id c hc
    obtain ⟨c', hc', hev⟩ := h.evolves hc
    exact ⟨c', hc', by rw [hev.header]⟩
  intro id k b hev
  rcases h.records hev with hev | hrec
  · obtain ⟨hck, c, hc, hk⟩ := hs id k b hev
    obtain ⟨c', hc', hk'⟩ := hheader hc
    exact ⟨hck.mono h, c', hc', by rw [hk', hk]⟩
  · generalize hch' : k.broadcasterId = ch at hrec
    generalize hv : Status.authSuccessful = v at hrec
    cases hrec with
    | @published _ c _ _ l hc hphase hcall hsub =>
      have hchannel : channelOf P c.resource = some k.broadcasterId := by
        simp [channelOf, hsub, hch']
      have hk := presented_of_channel (hwf.ok id c hc) (halone id c hc) hchannel
      obtain ⟨c', hc', hk'⟩ := hheader hc
      exact ⟨((hst id.uuid).1 hv.symm).mono h, c', hc', by rw [hk', hk]⟩

/-- **What binds a session to a channel.**  When clients submit no handshake types
and no rejected context falls back to the channel of another one, content reaches
an authenticated session only on the channel of a context that its receiving
connection presented and had checked, and is published only on the channel of the
context of the `POST`; some earlier `GET` of the session passed the check. -/
theorem bound_to_own_context {as : List Move} (hplain : ∀ m ∈ as, m.Arrives PlainBody)
    (halone : ∀ m ∈ as, m.Arrives (FallsBackAlone P)) (hrun : (service P).run as = some s) :
    DeliveredOnOwnContext P s ∧ PostedOnOwnContext P s := by
  have hinit : StatusIntegrity State.initial ∧ DeliveredOnOwnContext P State.initial ∧
      PostedOnOwnContext P State.initial :=
    ⟨statusIntegrity_initial, fun _ _ _ hev => (List.not_mem_nil hev).elim,
      fun _ _ _ hev => (List.not_mem_nil hev).elim⟩
  have hinv : StatusIntegrity s ∧ DeliveredOnOwnContext P s ∧ PostedOnOwnContext P s := by
    refine service_invariant_over
      (I := fun s => StatusIntegrity s ∧ DeliveredOnOwnContext P s ∧ PostedOnOwnContext P s) hinit
      ?_ (fun m hm => (hplain m hm).and (halone m hm))
      (System.along_of_forall (C := fun _ => True) fun _ _ => trivial) hrun
    rintro s m t hwf hreq ⟨hst, hdel, hpost⟩ - - h
    have hplain : Requests PlainBody s := fun id c hc => (hreq id c hc).1
    have halone : Requests (FallsBackAlone P) s := fun id c hc => (hreq id c hc).2
    exact ⟨statusIntegrity_of_effect h hwf hst (trustedOutcome_of_requests hwf hplain halone m),
      deliveredOnOwnContext_of_effect h hwf halone hst hdel,
      postedOnOwnContext_of_effect h hwf halone hst hpost⟩
  exact hinv.2

end

set_option maxRecDepth 10000 in
theorem bound_to_own_context_second : ∃ s,
    (service (.reading [⟨1, .desktop, "t"⟩, ⟨1, .desktop, "FAILME"⟩])).run secondContextRun =
        some s ∧
      DeliveredOnOwnContext (.reading [⟨1, .desktop, "t"⟩, ⟨1, .desktop, "FAILME"⟩]) s ∧
      PostedOnOwnContext (.reading [⟨1, .desktop, "t"⟩, ⟨1, .desktop, "FAILME"⟩]) s := by
  obtain ⟨s, hrun, -⟩ := System.run_any
    (service (.reading [⟨1, .desktop, "t"⟩, ⟨1, .desktop, "FAILME"⟩])) secondContextRun
    (fun _ => true) (by decide)
  have hslash : ∀ m ∈ secondContextRun, m.Arrives NoSlash := by decide
  exact ⟨s, hrun, bound_to_own_context (by decide)
    (fun m hm => (hslash m hm).mono fun _ _ _ => NoSlash.fallsBackAlone) hrun⟩

/-- A session whose uuid is the id of the channel of `b` subscribes without a context,
hears the outcome of `b` there, and publishes. -/
def collidingRun : List Move :=
  [.inspect ⟨"/1/DESKTOP/t", 0⟩ none (.subscribe .message), .handle ⟨"/1/DESKTOP/t", 0⟩,
    .inspect ⟨"b", 0⟩ (some (ContextKey.json ⟨1, .desktop, "t"⟩)) (.subscribe .message),
    .handle ⟨"b", 0⟩, .suspend ⟨"b", 0⟩, .suspend ⟨"/1/DESKTOP/t", 0⟩, .take "/1/DESKTOP/t" 0,
    .filter ⟨"/1/DESKTOP/t", 0⟩ 0, .notify ⟨"/1/DESKTOP/t", 0⟩ 0,
    .inspect ⟨"/1/DESKTOP/t", 1⟩ none (.publish { type := some .contentCreated }),
    .handle ⟨"/1/DESKTOP/t", 1⟩]

set_option maxRecDepth 10000 in
/-- The condition on the fallback channels is needed: a uuid that is the id of a
channel of a context publishes there without any check. -/
theorem fallback_collision :
    ¬ ∀ (P : Platform) (as : List Move) (s : State), (∀ m ∈ as, m.Arrives PlainBody) →
      (service P).run as = some s → PostedOnOwnContext P s := by
  intro hall
  obtain ⟨s, hrun, hs⟩ := System.run_any (service (.reading [⟨1, .desktop, "t"⟩])) collidingRun
    (fun s => decide (s.history.any (Event.isCheck "/1/DESKTOP/t" true) = false ∧
      Event.published ⟨"/1/DESKTOP/t", 1⟩ "/1/DESKTOP/t" .authSuccessful
        { type := some .contentCreated } ∈ s.history)) (by decide)
  obtain ⟨hno, hpublished⟩ := of_decide_eq_true hs
  have hid : (ContextKey.mk 1 .desktop "t").broadcasterId = "/1/DESKTOP/t" := by decide
  have hck := (hall _ _ s (by decide) hrun ⟨"/1/DESKTOP/t", 1⟩ ⟨1, .desktop, "t"⟩ _
    (hid ▸ hpublished)).1
  simp [State.checked, hno] at hck

end Amps
