import Amps.Core.Invariant

/-!
# Pending handshakes

A session enters `AUTH_PENDING` with its first request, whatever that is, and leaves
it only when one of two outcomes is delivered to it.  Until then all its requests are
dropped.

* `handshake_decided` — a pending session has a decision coming, in runs without
  disconnects where every first request is a `GET` with an accepted context, and no
  connection of a pending session is resumed by a message that decides nothing.
* `handshake_orphaned` — the code admits other first requests too, and then nothing
  ever decides: `onBroadcast` ignores the `CONTEXT_ERROR_RESPONSE` of a request whose
  context was turned down.
* `orphan_kinds` — the four ways a session is left pending.
-/

namespace Amps

open Transition

/-! ## Decisions -/

/-- A `GET` of the session has not suspended yet, or an outcome waits on the channel of
a suspended one, or is on its way from there. -/
def DecisionComing (s : State) (u : String) : Prop :=
  ∃ id c, id.uuid = u ∧ s.connections id = some c ∧ c.call.isGET = true ∧
    (c.phase = .admitted ∨ c.phase = .ready ∨ c.phase = .suspended ∧
      ∃ e, e.message.isOutcome = true ∧ (e ∈ c.inFlight ∨
        ∃ ch q, c.resource.broadcaster = some ch ∧ s.factory ch = some q ∧ e ∈ q))

/-- No session is pending without a decision coming. -/
def NoOrphans (s : State) : Prop := ∀ u, s.status u = .authPending → DecisionComing s u

/-- The first request of a session is a `GET` with an accepted context, and a pending
session hears nothing but outcomes on connections that any message resumes. -/
def EndsInDecision (P : Platform) (s : State) : Move → Prop
  | .inspect id header call => s.status id.uuid = .unavailable →
      call.isGET = true ∧ presented P header ≠ none
  | .notify id i => s.status id.uuid = .authPending → ∀ c ∈ s.connections id,
      ∀ e ∈ c.passed[i]?, c.resource.listeners.any Listener.resumes = true →
        e.message.isOutcome = true
  | _ => True

instance (P : Platform) (s : State) : ∀ m, Decidable (EndsInDecision P s m)
  | .inspect id header call => inferInstanceAs (Decidable (s.status id.uuid = .unavailable →
      call.isGET = true ∧ presented P header ≠ none))
  | .notify id i => inferInstanceAs (Decidable (s.status id.uuid = .authPending →
      ∀ c ∈ s.connections id, ∀ e ∈ c.passed[i]?,
        c.resource.listeners.any Listener.resumes = true → e.message.isOutcome = true))
  | .handle _ | .suspend _ | .take .. | .filter .. | .disconnect _ => isTrue trivial

/-- A `GET` with an accepted context that has not suspended yet, or has an outcome
waiting on its channel, or under way to it. -/
structure Connection.Awaits (P : Platform) (s : State) (c : Connection) (k : ContextKey) : Prop where
  get : c.call.isGET = true
  context : presented P c.resource.contextHeader = some k
  phase : c.phase = .admitted ∨ c.phase = .ready ∨ c.phase = .suspended ∧
    ∃ e, e.message.isOutcome = true ∧ (e ∈ c.inFlight ∨
      ∃ q, s.factory k.broadcasterId = some q ∧ e ∈ q)

section

variable {P : Platform} {s t : State} {m : Move} {c : Connection} {k : ContextKey}

/-! ## One step of a pending session -/

/-- What is left of a queue once one message was taken. -/
theorem eq_or_mem_eraseIdx {q : List Envelope} {i : Nat} {e e' : Envelope} (he : q[i]? = some e)
    (he' : e' ∈ q) : e' = e ∨ e' ∈ q.eraseIdx i := by
  obtain ⟨j, hj⟩ := List.mem_iff_getElem?.1 he'
  by_cases hji : j = i
  · subst hji
    rw [he, Option.some.injEq] at hj
    exact .inl hj.symm
  · exact .inr (List.mem_eraseIdx_iff_getElem?.2 ⟨j, hji, hj⟩)

/-- An awaiting connection goes on awaiting when its channel loses nothing. -/
theorem Connection.Awaits.grows (h : c.Awaits P s k) (hf : s.factory.Grows t.factory) :
    c.Awaits P t k := by
  obtain ⟨hget, hk, hphase⟩ := h
  refine ⟨hget, hk, hphase.imp_right (Or.imp_right ?_)⟩
  rintro ⟨hsusp, e, hout, he | ⟨q, hq, he⟩⟩
  · exact ⟨hsusp, e, hout, .inl he⟩
  · obtain ⟨q', hq', hsub⟩ := hf _ q hq
    exact ⟨hsusp, e, hout, .inr ⟨q', hq', hsub e he⟩⟩

/-- The outcome of an accepted context waits on its channel once it suspends. -/
theorem awaits_suspended (hwf : WellFormed P s) {id : ResourceId}
    (hc : s.connections id = some c) (hphase : c.phase = .ready) (haw : c.Awaits P s k) :
    ∃ e q, e.message.isOutcome = true ∧
      fireOnSuspend s.factory id
        (c.resource.addEventListener .webSocketEventListenerAdapterImpl) k.broadcasterId =
          some q ∧ e ∈ q := by
  obtain ⟨ch, l, o, hsub, hb, ho, hfire⟩ := (hwf.ok id c hc).fireOnSuspend hphase s.factory
  have hch := (hwf.ok id c hc).channel (by simp [hphase]) haw.context
  rw [hb, Option.some.injEq] at hch
  subst hch
  obtain ⟨q, hq⟩ := Option.ne_none_iff_exists'.1 (hwf.created id c _ hc hb)
  refine ⟨⟨o, .service id⟩, q ++ [⟨o, .service id⟩], ?_, ?_, by simp⟩
  · rcases outcome_cases hsub ho with ⟨-, -, -, -, ht⟩ | ⟨-, -, -, -, ht⟩ | ⟨hnone, -⟩
    · simp [Message.isOutcome, ht]
    · simp [Message.isOutcome, ht]
    · simp [haw.context] at hnone
  · rw [hfire, BroadcasterFactory.broadcast_self hq]

/-- Taking a message off a channel hands it to the connections that await it. -/
theorem awaits_taken (hwf : WellFormed P s) {id : ResourceId} {ch : String} {i : Nat}
    {q : List Envelope} {e : Envelope} (hc : s.connections id = some c)
    (hq : s.factory ch = some q) (he : q[i]? = some e) (haw : c.Awaits P s k) :
    (c.offer ch e).Awaits P
      { s with
        connections := fun id => (s.connections id).map (Connection.offer ch e)
        factory := Function.update s.factory ch (some (q.eraseIdx i)) } k := by
  obtain ⟨hget, hk, hphase⟩ := haw
  obtain ⟨hr, hcall, hp, hpassed⟩ := c.offer_eq ch e
  refine ⟨by rw [hcall, hget], by rw [hr, hk], ?_⟩
  rw [hp]
  refine hphase.imp_right (Or.imp_right ?_)
  rintro ⟨hsusp, e', hout, he' | ⟨q', hq', he'⟩⟩
  · exact ⟨hsusp, e', hout, .inl (Connection.mem_inFlight_offer (.inl he'))⟩
  · have hb := (hwf.ok id c hc).channel (by simp [hsusp]) hk
    by_cases hch : k.broadcasterId = ch
    · subst hch
      rw [hq, Option.some.injEq] at hq'
      subst hq'
      rcases eq_or_mem_eraseIdx he he' with rfl | hleft
      · have hsub : c.subscribedTo k.broadcasterId = true := by
          simp [Connection.subscribedTo, hsusp, hb]
        exact ⟨hsusp, e', hout, .inl (Connection.mem_inFlight_offer (.inr ⟨rfl, hsub⟩))⟩
      · exact ⟨hsusp, e', hout, .inr ⟨q.eraseIdx i, by simp, hleft⟩⟩
    · exact ⟨hsusp, e', hout, .inr ⟨q', by simpa [hch] using hq', he'⟩⟩

/-- A delivery that passes the filter stays under way. -/
theorem awaits_filtered {id : ResourceId} {i : Nat} {e : Envelope} {es : List Event}
    (he : c.offered[i]? = some e) (haw : c.Awaits P s k) :
    Connection.Awaits P
      (s.put id
        { c with
          offered := c.offered.eraseIdx i
          passed := if e.message.passes (s.status id.uuid) then c.passed ++ [e] else c.passed }
        (s.sessions id.uuid) s.factory es)
      { c with
        offered := c.offered.eraseIdx i
        passed := if e.message.passes (s.status id.uuid) then c.passed ++ [e] else c.passed } k := by
  obtain ⟨hget, hk, hphase⟩ := haw
  refine ⟨hget, hk, hphase.imp_right (Or.imp_right ?_)⟩
  rintro ⟨hsusp, e', hout, he' | hq⟩
  · refine ⟨hsusp, e', hout, .inl ?_⟩
    rcases List.mem_append.1 he' with ho | hp
    · rcases eq_or_mem_eraseIdx he ho with rfl | hleft
      · have hpass : e'.message.passes (s.status id.uuid) = true := by
          simp [Message.passes, Message.isHandshake_of_isOutcome hout]
        exact List.mem_append_right _ (by simp [hpass])
      · exact List.mem_append_left _ hleft
    · refine List.mem_append_right _ ?_
      dsimp only
      split
      · exact List.mem_append_left _ hp
      · exact hp
  · exact ⟨hsusp, e', hout, .inr hq⟩

/-- A message that decides nothing leaves a connection awaiting, unless it resumes it. -/
theorem awaits_notified (hwf : WellFormed P s) {id : ResourceId} {i : Nat} {e : Envelope}
    {es : List Event} (hc : s.connections id = some c) (hrec : c.receiving = true)
    (he : c.passed[i]? = some e) (hout : e.message.isOutcome = false)
    (hresume : c.resource.listeners.any Listener.resumes = false) (haw : c.Awaits P s k) :
    Connection.Awaits P
      (s.put id
        { c with
          phase := (fireOnBroadcast e.message c.resource (s.sessions id.uuid, c.phase)).2
          passed := c.passed.eraseIdx i }
        (fireOnBroadcast e.message c.resource (s.sessions id.uuid, c.phase)).1 s.factory es)
      { c with
        phase := (fireOnBroadcast e.message c.resource (s.sessions id.uuid, c.phase)).2
        passed := c.passed.eraseIdx i } k := by
  have hlive := Connection.live_of_receiving hrec
  have hsame : (fireOnBroadcast e.message c.resource (s.sessions id.uuid, c.phase)).2 = c.phase := by
    rw [(hwf.ok id c hc).fireOnBroadcast hlive, hresume]
    rfl
  obtain ⟨hget, hk, hphase⟩ := haw
  refine ⟨hget, hk, ?_⟩
  rw [hsame]
  refine hphase.imp_right (Or.imp_right ?_)
  rintro ⟨hsusp, e', hout', he' | hq⟩
  · refine ⟨hsusp, e', hout', .inl ?_⟩
    rcases List.mem_append.1 he' with ho | hp
    · exact List.mem_append_left _ ho
    · rcases eq_or_mem_eraseIdx he hp with rfl | hleft
      · rw [hout] at hout'
        cases hout'
      · exact List.mem_append_right _ hleft
  · exact ⟨hsusp, e', hout', .inr hq⟩

/-- Only a thrown exception would end the handshake of an awaiting `GET`, and an
accepted context throws none. -/
theorem not_thrown_of_awaits {ns : Option String} (haw : c.Awaits P s k) :
    ¬ ((∀ ns m, c.call ≠ .broadcast ns m) ∧ subscription P c.resource = none ∨
      ∃ m, c.call = .broadcast ns m) := by
  rintro (⟨-, hnone⟩ | ⟨m, hcall⟩)
  · rcases subscription_cases P c.resource with ⟨k', -, hs⟩ | ⟨hn, -⟩ | ⟨hn, -⟩
    · simp [hs] at hnone
    · simp [haw.context] at hn
    · simp [haw.context] at hn
  · have hget := haw.get
    rw [hcall] at hget
    cases hget

/-- **One step of a pending session.**  An awaiting connection goes on awaiting as long
as its session is pending. -/
theorem awaits_of_effect (h : Effect P s m t) (hwf : WellFormed P s) (hm : EndsInDecision P s m)
    (hstay : m.isDisconnect = false) {id : ResourceId} (hc : s.connections id = some c)
    (haw : c.Awaits P s k) (hs : s.status id.uuid = .authPending)
    (ht : t.status id.uuid = .authPending) :
    ∃ c', t.connections id = some c' ∧ c'.Awaits P t k := by
  -- a step of another connection leaves this one as it is, and no queue gets shorter
  have hput : ∀ {id' : ResourceId} {c₀ c' : Connection} {v f es},
      s.connections id' = some c₀ → s.factory.Grows f →
      (id = id' → c = c₀ → c'.Awaits P (s.put id' c' v f es) k) →
      ∃ c'', (s.put id' c' v f es).connections id = some c'' ∧
        c''.Awaits P (s.put id' c' v f es) k := by
    intro id' c₀ c' v f es hc₀ hf hnew
    by_cases hid : id = id'
    · subst hid
      rw [hc, Option.some.injEq] at hc₀
      exact ⟨c', State.put_connections_self, hnew rfl hc₀⟩
    · exact ⟨c, by rwa [State.put_connections_of_ne hid], haw.grows hf⟩
  have hgrows := h.grows hwf.ok
  cases h with
  | @inspected id' header call hnew =>
    have hid : id ≠ id' := by rintro rfl; simp [hc] at hnew
    exact ⟨c, by rwa [State.put_connections_of_ne hid], haw.grows (hgrows (by nofun))⟩
  | joined hc₀ hphase =>
    refine hput hc₀ (hgrows (by nofun)) ?_
    rintro - rfl
    exact ⟨haw.get, haw.context, .inr (.inl rfl)⟩
  | published hc₀ hphase hcall =>
    refine hput hc₀ (hgrows (by nofun)) ?_
    rintro - rfl
    have hget := haw.get
    rw [hcall] at hget
    cases hget
  | broadcasted hc₀ hphase hcall =>
    refine hput hc₀ (hgrows (by nofun)) ?_
    rintro - rfl
    have hget := haw.get
    rw [hcall] at hget
    cases hget
  | crashed hc₀ hphase hthrow =>
    refine hput hc₀ (hgrows (by nofun)) ?_
    rintro - rfl
    exact absurd hthrow (not_thrown_of_awaits haw)
  | suspended hc₀ hphase =>
    refine hput hc₀ (hgrows (by nofun)) ?_
    rintro rfl rfl
    obtain ⟨e, q, hout, hq, he⟩ := awaits_suspended hwf hc hphase haw
    exact ⟨haw.get, haw.context, .inr (.inr ⟨rfl, e, hout, .inr ⟨q, hq, he⟩⟩)⟩
  | @taken ch i q e hq he =>
    exact ⟨c.offer ch e, by simp [hc], awaits_taken hwf hc hq he haw⟩
  | filtered hc₀ hrec he hch =>
    refine hput hc₀ (hgrows (by nofun)) ?_
    rintro - rfl
    exact awaits_filtered he haw
  | @notified id' i c₀ e hc₀ hrec he =>
    refine hput hc₀ (hgrows (by nofun)) ?_
    rintro rfl rfl
    have hout : e.message.isOutcome = false := by
      rw [State.put_status, if_pos rfl,
        (hwf.ok id c hc).fireOnBroadcast (Connection.live_of_receiving hrec)] at ht
      exact Message.not_isOutcome_of_record ht
    have hresume : c.resource.listeners.any Listener.resumes = false := by
      by_contra hres
      simp [hm hs c hc e he (by simpa using hres)] at hout
    exact awaits_notified hwf hc hrec he hout hresume haw
  | disconnected => cases hstay

/-! ## No session is left pending -/

/-- Every pending session has a connection that awaits its outcome. -/
def PendingAwaits (P : Platform) (s : State) : Prop :=
  ∀ u, s.status u = .authPending →
    ∃ id c k, id.uuid = u ∧ s.connections id = some c ∧ c.Awaits P s k

theorem pendingAwaits_of_effect (h : Effect P s m t) (hwf : WellFormed P s)
    (hs : PendingAwaits P s) (hm : EndsInDecision P s m) (hstay : m.isDisconnect = false) :
    PendingAwaits P t := by
  intro u ht
  cases h.status hwf.ok u with
  | same heq =>
    obtain ⟨id, c, k, rfl, hc, haw⟩ := hs u (heq ▸ ht)
    obtain ⟨c', hc', haw'⟩ := awaits_of_effect h hwf hm hstay hc haw (heq ▸ ht) ht
    exact ⟨id, c', k, rfl, hc', haw'⟩
  | @entered id header call hu hun heq =>
    subst hu
    obtain ⟨hget, hk⟩ := hm hun
    obtain ⟨k, hk⟩ := Option.ne_none_iff_exists'.1 hk
    cases h with
    | inspected =>
      refine ⟨id, _, k, rfl, State.put_connections_self, hget, hk, .inl ?_⟩
      exact if_pos (inspect_continue_iff.2 (.inl hun))
  | succeeded _ _ _ _ _ heq => simp [heq] at ht
  | failed _ _ _ _ _ heq => simp [heq] at ht
  | removed _ heq => simp [heq] at ht

/-- **No orphaned handshake**, in runs without disconnects whose first requests are
`GET`s with accepted contexts, and where no connection of a pending session is resumed
by a message that decides nothing. -/
theorem handshake_decided {as : List Move} (hstay : ∀ m ∈ as, m.isDisconnect = false)
    (hends : (service P).Along (EndsInDecision P) State.initial as)
    (hrun : (service P).run as = some s) : NoOrphans s := by
  have hcond : (service P).Along (fun s m => m.isDisconnect = false ∧ EndsInDecision P s m)
      State.initial as := (System.along_of_forall hstay).and hends
  have hinv : PendingAwaits P s :=
    service_invariant (fun _ hst => nomatch hst)
      (fun s m t hwf hs hm h => pendingAwaits_of_effect h hwf hs hm.2 hm.1) hcond hrun
  have hwf := wellFormed_run hrun
  intro u hst
  obtain ⟨id, c, k, hu, hc, haw⟩ := hinv u hst
  refine ⟨id, c, hu, hc, haw.get, haw.phase.imp_right (Or.imp_right ?_)⟩
  rintro ⟨hsusp, e, hout, he | ⟨q, hq, he⟩⟩
  · exact ⟨hsusp, e, hout, .inl he⟩
  · have hb := (hwf.ok id c hc).channel (by simp [hsusp]) haw.context
    exact ⟨hsusp, e, hout, .inr ⟨_, q, hb, hq, he⟩⟩

end

/-- A client on its way to its outcome. -/
def onItsWayRun : List Move :=
  [.inspect ⟨"a", 0⟩ (some (ContextKey.json ⟨1, .desktop, "t"⟩)) (.subscribe .message),
    .handle ⟨"a", 0⟩, .suspend ⟨"a", 0⟩, .take "/1/DESKTOP/t" 0, .filter ⟨"a", 0⟩ 0]

set_option maxRecDepth 10000 in
theorem handshake_decided_on_its_way : ∃ s,
    (service (.reading [⟨1, .desktop, "t"⟩])).run onItsWayRun = some s ∧
      s.status "a" = .authPending ∧ NoOrphans s := by
  obtain ⟨s, hrun, hs⟩ := System.run_any (service (.reading [⟨1, .desktop, "t"⟩])) onItsWayRun
    (fun s => decide (s.status "a" = .authPending)) (by decide)
  exact ⟨s, hrun, of_decide_eq_true hs, handshake_decided (by decide) (by decide) hrun⟩

/-! ## Sessions left pending -/

/-- The one request of a session that was let through is over. -/
theorem not_decisionComing {P : Platform} {s : State} {id : ResourceId} (hwf : WellFormed P s)
    (honly : ∀ e ∈ s.history, ∀ x ∈ e.admitted, x.uuid = id.uuid → x = id)
    (hover : ∀ c ∈ s.connections id, c.phase.isOpen = false) : ¬ DecisionComing s id.uuid := by
  rintro ⟨id', c, hu, hc, -, hphase⟩
  have hopen : c.phase.isOpen = true := by
    rcases hphase with hp | hp | ⟨hp, -⟩ <;> rw [hp] <;> rfl
  have hd : c.phase ≠ .dropped := by
    intro hd
    rw [hd] at hopen
    cases hopen
  obtain rfl : id' = id := hwf.only honly hc hd hu
  simp [hover c hc] at hopen

/-- Is the session of `a` left pending by its only request? -/
def leftPending (s : State) : Bool :=
  decide (s.status "a" = .authPending ∧
    (∀ e ∈ s.history, ∀ x ∈ e.admitted, x.uuid = "a" → x = ⟨"a", 0⟩) ∧
    ∀ c ∈ s.connections ⟨"a", 0⟩, c.phase.isOpen = false)

/-- A `GET` without a context hears of its context error. -/
def contextErrorRun : List Move :=
  [.inspect ⟨"a", 0⟩ none (.subscribe .message), .handle ⟨"a", 0⟩, .suspend ⟨"a", 0⟩,
    .take "a" 0, .filter ⟨"a", 0⟩ 0, .notify ⟨"a", 0⟩ 0]

/-- A `POST` as the first request. -/
def postFirstRun : List Move :=
  [.inspect ⟨"a", 0⟩ none (.publish { type := some .contentCreated }), .handle ⟨"a", 0⟩]

/-- A context that denotes `null`. -/
def nullContextRun : List Move :=
  [.inspect ⟨"a", 0⟩ (some "null") (.subscribe .message), .handle ⟨"a", 0⟩]

/-- A connection about to be turned down is resumed by the message of another client. -/
def resumedRun : List Move :=
  let header := some (ContextKey.json ⟨1, .desktop, "FAILME"⟩)
  [.inspect ⟨"a", 0⟩ header (.subscribe .message), .handle ⟨"a", 0⟩,
    .inspect ⟨"b", 0⟩ header (.publish { type := some .suspendResponse }), .handle ⟨"b", 0⟩,
    .suspend ⟨"a", 0⟩, .take "/1/DESKTOP/FAILME" 0, .filter ⟨"a", 0⟩ 0, .notify ⟨"a", 0⟩ 0]

set_option maxRecDepth 10000 in
/-- **An orphaned handshake**: the context error decides nothing, and no other request
of the session is let through. -/
theorem handshake_orphaned :
    ¬ ∀ (P : Platform) (as : List Move) (s : State), (∀ m ∈ as, m.isDisconnect = false) →
      (service P).run as = some s → NoOrphans s := by
  intro hall
  obtain ⟨s, hrun, hs⟩ := System.run_any (service (.reading [])) contextErrorRun leftPending
    (by decide)
  obtain ⟨hst, honly, hover⟩ := of_decide_eq_true hs
  exact not_decisionComing (wellFormed_run hrun) honly hover
    (hall _ _ s (by decide) hrun "a" hst)

set_option maxRecDepth 10000 in
/-- The four kinds of requests that leave their session pending for good. -/
theorem orphan_kinds : ∀ as ∈ [contextErrorRun, postFirstRun, nullContextRun, resumedRun],
    ∃ s, (service (.reading [⟨1, .desktop, "FAILME"⟩])).run as = some s ∧
      s.status "a" = .authPending ∧ ¬ DecisionComing s "a" := by
  intro as has
  have heval : ((service (.reading [⟨1, .desktop, "FAILME"⟩])).run as).any leftPending = true := by
    revert as
    decide
  obtain ⟨s, hrun, hs⟩ := System.run_any _ as leftPending heval
  obtain ⟨hst, honly, hover⟩ := of_decide_eq_true hs
  exact ⟨s, hrun, hst, not_decisionComing (wellFormed_run hrun) honly hover⟩

end Amps
