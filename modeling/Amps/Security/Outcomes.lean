import Amps.Core.Invariant

/-!
# Handshake outcomes

The result of one connection's token check is broadcast to everybody on its
channel, and whoever hears it records it as the result of its own session.

* `outcomes_agree` — no harm comes from that between the service's own listeners:
  an outcome only ever reaches connections that computed the same one.
* `statusIntegrity_of_trusted` — a status therefore reflects a check of its own
  session, as long as the outcomes recorded come from the service and the
  connection recording one has an accepted context.
* `statusIntegrity_forged` — the code asks for neither: a client may submit an
  outcome as the body of a `POST`, and everybody on the channel records it.
-/

namespace Amps

open Transition

/-! ## Outcomes agree on a shared channel -/

/-- The types of what the listeners of a resource broadcast when it suspends. -/
def AtmosphereResource.outcomes (r : AtmosphereResource) : List (Option MessageType) :=
  (r.listeners.filterMap Listener.onSuspend).map Message.type

/-- `doGET` registers one listener with an outcome to broadcast. -/
theorem outcomes_doGET {P : Platform} {f : BroadcasterFactory} {r : AtmosphereResource}
    {ch : String} {l : Listener} {m : Message} (hr : r.listeners = [])
    (hsub : subscription P r = some (ch, l)) (hm : l.onSuspend = some m) :
    (doGET P f r).2.2.outcomes = [m.type] := by
  rw [doGET_eq, hsub]
  simp [AtmosphereResource.outcomes, AtmosphereResource.addEventListener,
    AtmosphereResource.setBroadcaster, hr, hm]

/-- A connection that receives an outcome of the service computed the same one. -/
theorem Received.agrees {P : Platform} {s : State} {id a : ResourceId} {ch : String}
    {e : Envelope} {c : Connection} (hok : ∀ id c, s.connections id = some c → c.Ok P id)
    (hslash : Requests NoSlash s)
    (hR : Received P s id ch e) (ho : e.origin = .service a) (hc : s.connections id = some c)
    (f : BroadcasterFactory) :
    (doGET P f (id.resource c.resource.contextHeader)).2.2.outcomes = [e.message.type] := by
  obtain ⟨hlive, hb⟩ := hR.connection hc
  obtain ⟨-, ch', l, hsub, hb', -⟩ := (hok id c hc).live hlive
  rw [hb, Option.some.injEq] at hb'
  subst hb'
  obtain ⟨m, hm⟩ := onSuspend_of_subscription hsub
  have hsub' : subscription P (id.resource c.resource.contextHeader) = some (ch, l) := by
    rw [← hsub]
    exact subscription_congr (hok id c hc).uuid.symm rfl
  have halone : Requests (GetFallsBackAlone P) s :=
    fun id' c' hc' _ => (hslash id' c' hc').fallsBackAlone
  rw [outcomes_doGET rfl hsub' hm, hR.outcome hok halone ho hc hsub hm]

/-- **Outcomes sent on a shared channel agree.**  When what the `onSuspend`
listener of connection `a` broadcast passes the filter of connection `b`, or is
handed to its listeners, the `doGET` of `b`'s own request registered a listener
with an outcome of the same type. -/
theorem outcomes_agree {P : Platform} {as : List Move} {s : State} {a b : ResourceId}
    {e : Envelope} (hslash : ∀ m ∈ as, m.Arrives NoSlash) (hrun : (service P).run as = some s)
    (ho : e.origin = .service a)
    (hdelivered : (∃ ch v, .filtered b ch e v false ∈ s.history) ∨ .notified b e ∈ s.history) :
    ∃ c, s.connections b = some c ∧ c.call.isGET = true ∧
      ∀ f, (doGET P f (b.resource c.resource.contextHeader)).2.2.outcomes = [e.message.type] := by
  have hwf := wellFormed_run hrun
  have hR : ∃ ch, Received P s b ch e := by
    rcases hdelivered with ⟨ch, v, hev⟩ | hev
    · exact ⟨ch, hwf.filtered b ch e v false hev⟩
    · exact hwf.notified b e hev
  obtain ⟨ch, hR⟩ := hR
  obtain ⟨-, c, hc, hlive, -⟩ := id hR
  refine ⟨c, hc, ((hwf.ok b c hc).live hlive).1, ?_⟩
  exact hR.agrees hwf.ok (requests_run hslash hrun) ho hc

/-- Two sessions with the token `t` on one channel: the outcome of the second
reaches the first. -/
def sharedRun : List Move :=
  let header := some (ContextKey.json ⟨1, .desktop, "t"⟩)
  [.inspect ⟨"b", 0⟩ header (.subscribe .message), .handle ⟨"b", 0⟩, .suspend ⟨"b", 0⟩,
    .inspect ⟨"a", 0⟩ header (.subscribe .message), .handle ⟨"a", 0⟩, .suspend ⟨"a", 0⟩,
    .take "/1/DESKTOP/t" 1, .filter ⟨"b", 0⟩ 0]

set_option maxRecDepth 10000 in
theorem outcomes_agree_shared : ∃ s c,
    (service (.reading [⟨1, .desktop, "t"⟩])).run sharedRun = some s ∧
      s.connections ⟨"b", 0⟩ = some c ∧ c.call.isGET = true ∧
      ∀ f, (doGET (.reading [⟨1, .desktop, "t"⟩]) f
        (ResourceId.resource ⟨"b", 0⟩ c.resource.contextHeader)).2.2.outcomes =
          [some .successfulAuthenticationResponse] := by
  obtain ⟨s, hrun, hev⟩ := System.run_any (service (.reading [⟨1, .desktop, "t"⟩])) sharedRun
    (fun s => decide (Event.filtered ⟨"b", 0⟩ "/1/DESKTOP/t"
      ⟨{ type := some .successfulAuthenticationResponse }, .service ⟨"a", 0⟩⟩ .authPending false ∈
        s.history)) (by decide)
  obtain ⟨c, hc, hget, hout⟩ := outcomes_agree (by decide) hrun (a := ⟨"a", 0⟩) rfl
    (.inl ⟨_, _, of_decide_eq_true hev⟩)
  exact ⟨s, c, hrun, hc, hget, hout⟩

/-! ## What a status says about the session -/

/-- Is this the check of a `GET` of the session, with this result? -/
def Event.isCheck (u : String) (ok : Bool) : Event → Bool
  | .checked id _ ok' => id.uuid = u && ok' = ok
  | _ => false

/-- `AuthenticationProvider.check` returned `ok` for some earlier `GET` of the
session. -/
def State.checked (s : State) (u : String) (ok : Bool) : Prop :=
  s.history.any (Event.isCheck u ok) = true

/-- Every decided status was earned by a check of the same session. -/
def StatusIntegrity (s : State) : Prop :=
  ∀ u, (s.status u = .authSuccessful → s.checked u true) ∧
    (s.status u = .authFailed → s.checked u false)

/-- An outcome handed to the listeners of a connection comes from the service, and
the context of that connection was accepted. -/
def TrustedOutcome (P : Platform) (s : State) : Move → Prop
  | .notify id i => ∀ c ∈ s.connections id, ∀ e ∈ c.passed[i]?, e.message.isOutcome = true →
      e.origin.isService = true ∧ presented P c.resource.contextHeader ≠ none
  | _ => True

instance (P : Platform) (s : State) : ∀ m, Decidable (TrustedOutcome P s m)
  | .notify id i => inferInstanceAs (Decidable (∀ c ∈ s.connections id, ∀ e ∈ c.passed[i]?,
      e.message.isOutcome = true →
        e.origin.isService = true ∧ presented P c.resource.contextHeader ≠ none))
  | .inspect .. | .handle _ | .suspend _ | .take .. | .filter .. | .disconnect _ => isTrue trivial

section

variable {P : Platform} {s t : State} {m : Move}

theorem State.checked_of_mem {id : ResourceId} {header : Option String} {ok : Bool}
    (h : .checked id header ok ∈ s.history) : s.checked id.uuid ok :=
  List.any_eq_true.2 ⟨_, h, by simp [Event.isCheck]⟩

theorem State.checked.mono (h : Effect P s m t) {u : String} {ok : Bool} (hc : s.checked u ok) :
    t.checked u ok := by
  obtain ⟨e, he, hok⟩ := List.any_eq_true.1 hc
  exact List.any_eq_true.2 ⟨e, h.mem_history he, hok⟩

/-- A trusted outcome is the one the receiving connection's own context earns, and
that context was checked. -/
theorem checked_of_outcome (hwf : WellFormed P s) {id a : ResourceId} {c : Connection}
    {e : Envelope} {k : ContextKey} (hc : s.connections id = some c) (hrec : c.receiving = true)
    (he : e ∈ c.inFlight) (ho : e.origin = .service a) (hout : e.message.isOutcome = true)
    (hk : presented P c.resource.contextHeader = some k) :
    e.message.type = some k.outcome ∧ s.checked id.uuid (!k.doomed) := by
  have hj := Phase.joined_of_live (Connection.live_of_receiving hrec)
  have hb := (hwf.ok id c hc).channel hj hk
  have hR := received_of_offered hwf hc hb he
  exact ⟨hR.1.outcome ho hout, State.checked_of_mem (hwf.checked id c k hc hj hk)⟩

theorem statusIntegrity_initial : StatusIntegrity State.initial := by
  intro u
  simp [State.status, State.initial]

theorem statusIntegrity_of_effect (h : Effect P s m t) (hwf : WellFormed P s)
    (hs : StatusIntegrity s) (htrust : TrustedOutcome P s m) : StatusIntegrity t := by
  intro u
  -- what a connection of `u` records is the outcome its context was checked for
  have hnotify : ∀ {id i c e}, m = .notify id i → id.uuid = u → s.connections id = some c →
      c.receiving = true → c.passed[i]? = some e → e.message.isOutcome = true →
        ∃ k : ContextKey, e.message.type = some k.outcome ∧ t.checked u (!k.doomed) := by
    rintro id i c e rfl rfl hc hrec he hout
    obtain ⟨hservice, hk⟩ := htrust c hc e he hout
    obtain ⟨a, ho⟩ := Origin.isService_iff.1 hservice
    obtain ⟨k, hk⟩ := Option.ne_none_iff_exists'.1 hk
    have hin := Connection.mem_inFlight_of_passed he
    obtain ⟨ht, hck⟩ := checked_of_outcome hwf hc hrec hin ho hout hk
    exact ⟨k, ht, hck.mono h⟩
  cases h.status hwf.ok u with
  | same hst =>
    rw [hst]
    exact ⟨fun hv => ((hs u).1 hv).mono h, fun hv => ((hs u).2 hv).mono h⟩
  | entered hu hs hst => simp [hst]
  | succeeded hu hc hrec he hm hst =>
    obtain ⟨k, hk, hck⟩ := hnotify rfl hu hc hrec he (by simp [Message.isOutcome, hm])
    rw [hm, Option.some.injEq] at hk
    rw [ContextKey.outcome_successful.1 hk.symm] at hck
    simpa [hst] using hck
  | failed hu hc hrec he hm hst =>
    obtain ⟨k, hk, hck⟩ := hnotify rfl hu hc hrec he (by simp [Message.isOutcome, hm])
    rw [hm, Option.some.injEq] at hk
    rw [ContextKey.outcome_failed.1 hk.symm] at hck
    simpa [hst] using hck
  | removed hu hst => simp [hst]

/-- When no client submits a handshake type and no fallback channel is the channel of
a context, every outcome is trusted. -/
theorem trustedOutcome_of_requests (hwf : WellFormed P s) (hplain : Requests PlainBody s)
    (halone : Requests (FallsBackAlone P) s) (m : Move) : TrustedOutcome P s m := by
  cases m with
  | notify id i =>
    intro c hc e he hout
    obtain ⟨a, k, ho, hb, hj, -⟩ :=
      outcome_of_inFlight hwf hplain hc (Connection.mem_inFlight_of_passed he) hout
    refine ⟨Origin.isService_iff.2 ⟨a, ho⟩, ?_⟩
    intro hnone
    have hfall := (hwf.ok id c hc).fallback hj hnone
    rw [hb, Option.some.injEq] at hfall
    exact halone id c hc hnone k hfall.symm
  | _ => trivial

/-- **Status integrity.**  In a run that only records trusted outcomes, every
decided status was earned by a check of the same session. -/
theorem statusIntegrity_of_trusted {as : List Move}
    (htrust : (service P).Along (TrustedOutcome P) State.initial as)
    (hrun : (service P).run as = some s) : StatusIntegrity s := by
  exact service_invariant statusIntegrity_initial
    (fun s m t hwf hs hm h => statusIntegrity_of_effect h hwf hs hm) htrust hrun

end

/-- A client whose token was turned down, and a second one whose first request is
a `POST` of the message the first is waiting for. -/
def forgedRun : List Move :=
  let header := some (ContextKey.json ⟨1, .desktop, "FAILME"⟩)
  [.inspect ⟨"v", 0⟩ header (.subscribe .message), .handle ⟨"v", 0⟩,
    .inspect ⟨"a", 0⟩ header (.publish { type := some .successfulAuthenticationResponse }),
    .handle ⟨"a", 0⟩, .suspend ⟨"v", 0⟩, .take "/1/DESKTOP/FAILME" 0, .filter ⟨"v", 0⟩ 0,
    .notify ⟨"v", 0⟩ 0]

set_option maxRecDepth 10000 in
/-- **A forged outcome.**  The check of `v` failed, and `v` is authenticated. -/
theorem statusIntegrity_forged :
    ¬ ∀ (P : Platform) (as : List Move) (s : State), (service P).run as = some s →
      StatusIntegrity s := by
  intro hall
  obtain ⟨s, hrun, hs⟩ := System.run_any (service (.reading [⟨1, .desktop, "FAILME"⟩])) forgedRun
    (fun s => decide (s.status "v" = .authSuccessful ∧
      s.history.any (Event.isCheck "v" true) = false)) (by decide)
  obtain ⟨hv, hno⟩ := of_decide_eq_true hs
  have hck : s.history.any (Event.isCheck "v" true) = true := (hall _ _ s hrun "v").1 hv
  simp [hno] at hck

/-- The same client hears its own outcome.  Next to it two clients share a channel: one hears
the outcome of the other as well, and publishes. -/
def earnedRun : List Move :=
  let doomed := some (ContextKey.json ⟨1, .desktop, "FAILME"⟩)
  let good := some (ContextKey.json ⟨1, .desktop, "t"⟩)
  [.inspect ⟨"v", 0⟩ doomed (.subscribe .message), .inspect ⟨"w", 0⟩ good (.subscribe .message),
    .handle ⟨"v", 0⟩, .handle ⟨"w", 0⟩, .suspend ⟨"v", 0⟩, .take "/1/DESKTOP/FAILME" 0,
    .suspend ⟨"w", 0⟩, .filter ⟨"v", 0⟩ 0, .notify ⟨"v", 0⟩ 0, .take "/1/DESKTOP/t" 0,
    .inspect ⟨"x", 0⟩ good (.subscribe .message), .handle ⟨"x", 0⟩, .suspend ⟨"x", 0⟩,
    .filter ⟨"w", 0⟩ 0, .notify ⟨"w", 0⟩ 0, .take "/1/DESKTOP/t" 0, .filter ⟨"x", 0⟩ 0,
    .notify ⟨"x", 0⟩ 0, .filter ⟨"w", 0⟩ 0, .notify ⟨"w", 0⟩ 0,
    .inspect ⟨"w", 1⟩ good (.publish { type := some .contentCreated }), .handle ⟨"w", 1⟩,
    .take "/1/DESKTOP/t" 0, .filter ⟨"x", 0⟩ 0, .notify ⟨"x", 0⟩ 0]

set_option maxRecDepth 10000 in
theorem statusIntegrity_of_trusted_earned : ∃ s,
    (service (.reading [⟨1, .desktop, "FAILME"⟩, ⟨1, .desktop, "t"⟩])).run earnedRun = some s ∧
      s.status "v" = .authFailed ∧ s.status "w" = .authSuccessful ∧
      .notified ⟨"w", 0⟩ ⟨{ type := some .successfulAuthenticationResponse }, .service ⟨"x", 0⟩⟩ ∈
        s.history ∧
      .notified ⟨"x", 0⟩ ⟨{ type := some .contentCreated }, .client ⟨"w", 1⟩⟩ ∈ s.history ∧
      StatusIntegrity s := by
  obtain ⟨s, hrun, hs⟩ := System.run_any
    (service (.reading [⟨1, .desktop, "FAILME"⟩, ⟨1, .desktop, "t"⟩])) earnedRun
    (fun s => decide (s.status "v" = .authFailed ∧ s.status "w" = .authSuccessful ∧
      .notified ⟨"w", 0⟩ ⟨{ type := some .successfulAuthenticationResponse }, .service ⟨"x", 0⟩⟩ ∈
        s.history ∧
      .notified ⟨"x", 0⟩ ⟨{ type := some .contentCreated }, .client ⟨"w", 1⟩⟩ ∈ s.history))
    (by decide)
  obtain ⟨hv, hw, hother, hcontent⟩ := of_decide_eq_true hs
  exact ⟨s, hrun, hv, hw, hother, hcontent, statusIntegrity_of_trusted (by decide) hrun⟩

end Amps
