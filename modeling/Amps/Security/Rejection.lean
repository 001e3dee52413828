import Amps.Core.Invariant

/-!
# Requests that are turned down

A request whose context is rejected, or whose token fails the check, gets a
`handleClientError` listener: on suspend it announces the error, and on the next message
it resumes the connection.

* `Tells` — a step tells a connection of its error, and leaves the session of a failed
  check `AUTH_FAILED`.
* `ResumedTold` — a connection is resumed only by such a step.
* `rejected_told` — so it is, in runs where the filter lets no other client message
  through to a connection that waits to be told.
* `rejected_untold` — the listener resumes on any message, so content published by an
  authenticated session comes first.
* `rejected_post_published` — the body of a `POST` with a rejected context is put on the
  channel of its uuid, and the error is never announced, because a `POST` never suspends.
-/

namespace Amps

open Transition

/-! ## Being told -/

/-- The type of the message a listener of `handleClientError` was registered for. -/
def Listener.clientErrorType : Listener → Option MessageType
  | .clientError messageType _ => some messageType
  | .webSocketEventListenerAdapterImpl => none
  | .authentionSuccess => none

/-- The step resumes a suspended connection by handing it a message of this type.  When the
message reports a failed check, the listeners set the session to `AUTH_FAILED`, whatever it
was, and so it is once all of them have run. -/
structure Tells (id : ResourceId) (messageType : MessageType) (s : State) (m : Move) (t : State) :
    Prop where
  delivered : ∃ i c e, m = .notify id i ∧ s.connections id = some c ∧ c.phase = .suspended ∧
    c.passed[i]? = some e ∧ e.message.type = some messageType ∧
    (messageType = .failedAuthenticatedResponse → ∀ v,
      (fireOnBroadcast e.message c.resource (v, c.phase)).1 = some .authFailed)
  resumed : ∃ c, t.connections id = some c ∧ c.phase = .resumed
  failed : messageType = .failedAuthenticatedResponse → t.status id.uuid = .authFailed

/-- **Every connection resumed by `handleClientError`'s listener was told why**, by the step of
the run that resumed it. -/
def ResumedTold (P : Platform) (as : List Move) (s : State) : Prop :=
  ∀ id c, s.connections id = some c → c.phase = .resumed →
    ∀ l ∈ c.resource.listeners, ∀ messageType ∈ l.clientErrorType,
      (service P).Takes State.initial as (Tells id messageType)

/-- A client's message that is let through to a suspended connection waiting to be told of
an error is a message of that type. -/
def ErrorFirst (s : State) : Move → Prop
  | .filter id i => ∀ c ∈ s.connections id, c.phase = .suspended → ∀ e ∈ c.offered[i]?,
      e.origin.isService = false → e.message.passes (s.status id.uuid) = true →
        ∀ l ∈ c.resource.listeners, ∀ messageType ∈ l.clientErrorType,
          e.message.type = some messageType
  | _ => True

instance (s : State) : ∀ m, Decidable (ErrorFirst s m)
  | .filter id i => inferInstanceAs (Decidable (∀ c ∈ s.connections id, c.phase = .suspended →
      ∀ e ∈ c.offered[i]?, e.origin.isService = false →
        e.message.passes (s.status id.uuid) = true →
          ∀ l ∈ c.resource.listeners, ∀ messageType ∈ l.clientErrorType,
            e.message.type = some messageType))
  | .inspect .. | .handle _ | .suspend _ | .take .. | .notify .. | .disconnect _ => isTrue trivial

section

variable {P : Platform} {s t : State} {m : Move}

/-- The listeners of a live connection set its session to `AUTH_FAILED` on such a message. -/
theorem fireOnBroadcast_failed {id : ResourceId} {c : Connection} {e : Envelope}
    (hok : c.Ok P id) (hlive : c.phase.live = true)
    (hfail : e.message.type = some .failedAuthenticatedResponse) (x : Option Status × Phase) :
    (fireOnBroadcast e.message c.resource x).1 = some .authFailed := by
  rw [hok.fireOnBroadcast hlive]
  simp [Message.record, hfail]

/-- After such a delivery the session has failed, whatever it was. -/
theorem status_of_failed_notified {id : ResourceId} {i : Nat} {c : Connection} {e : Envelope}
    (h : Effect P s (.notify id i) t) (hok : ∀ id c, s.connections id = some c → c.Ok P id)
    (hc : s.connections id = some c) (he : c.passed[i]? = some e)
    (hfail : e.message.type = some .failedAuthenticatedResponse) :
    t.status id.uuid = .authFailed := by
  rw [h.status_notified hok hc he, Message.record, hfail, if_neg (by simp), if_pos rfl]
  rfl

/-- A connection is resumed in the step that hands it a message. -/
theorem Effect.resumes (h : Effect P s m t) {id : ResourceId} {c c' : Connection}
    (hc : s.connections id = some c) (hc' : t.connections id = some c')
    (hr : c.phase ≠ .resumed) (hr' : c'.phase = .resumed) :
    ∃ i e, m = .notify id i ∧ c.phase = .suspended ∧ c.passed[i]? = some e := by
  have hsame : s.connections id = some c' → False := fun hc'' => by
    rw [hc, Option.some.injEq] at hc''
    exact hr (hc'' ▸ hr')
  cases h with
  | inspected hnew =>
    rcases State.put_connections_eq_some.1 hc' with ⟨rfl, -⟩ | ⟨-, hc''⟩
    · simp [hc] at hnew
    · exact (hsame hc'').elim
  | joined | published | broadcasted | crashed | suspended | disconnected =>
    rcases State.put_connections_eq_some.1 hc' with ⟨-, rfl⟩ | ⟨-, hc''⟩
    · cases hr'
    · exact (hsame hc'').elim
  | @taken ch i q e hq he =>
    simp only [hc, Option.map_some, Option.some.injEq] at hc'
    rw [← hc', (c.offer_eq ch e).2.2.1] at hr'
    exact (hr hr').elim
  | filtered hc₀ =>
    rcases State.put_connections_eq_some.1 hc' with ⟨rfl, rfl⟩ | ⟨-, hc''⟩
    · rw [hc, Option.some.injEq] at hc₀
      exact (hr (hc₀ ▸ hr')).elim
    · exact (hsame hc'').elim
  | @notified id' i c₀ e hc₀ hrec he =>
    rcases State.put_connections_eq_some.1 hc' with ⟨rfl, rfl⟩ | ⟨-, hc''⟩
    · rw [hc, Option.some.injEq] at hc₀
      subst hc₀
      have hp := fireOnBroadcast_phase e.message c.resource (s.sessions id.uuid) c.phase
      dsimp only at hr'
      rw [hr'] at hp
      exact ⟨i, e, rfl, hp.resumed.resolve_left hr, he⟩
    · exact (hsame hc'').elim

/-! ## What waits for a suspended connection -/

/-- Every client message that passed the filter of a connection waiting to be told of an
error is a message of that type. -/
def PassedErrors (s : State) : Prop :=
  ∀ id c, s.connections id = some c → c.phase = .suspended →
    ∀ e ∈ c.passed, e.origin.isService = false →
      ∀ l ∈ c.resource.listeners, ∀ mt ∈ l.clientErrorType, e.message.type = some mt

theorem passedErrors_of_effect (h : Effect P s m t) (hwf : WellFormed P s)
    (hs : PassedErrors s) (hm : ErrorFirst s m) : PassedErrors t := by
  intro id c' hc' hphase e he ho l hl mt hmt
  have hold : s.connections id = some c' → e.message.type = some mt :=
    fun hc => hs id c' hc hphase e he ho l hl mt hmt
  cases h with
  | inspected =>
    rcases State.put_connections_eq_some.1 hc' with ⟨-, rfl⟩ | ⟨-, hc⟩
    · cases he
    · exact hold hc
  | joined | published | broadcasted | crashed | disconnected =>
    rcases State.put_connections_eq_some.1 hc' with ⟨-, rfl⟩ | ⟨-, hc⟩
    · cases hphase
    · exact hold hc
  | @suspended id' c hc₀ hready =>
    rcases State.put_connections_eq_some.1 hc' with ⟨rfl, rfl⟩ | ⟨-, hc⟩
    · have hnone := ((hwf.ok id c hc₀).quiet (by simp [hready, Phase.live])).2
      dsimp only at he
      rw [hnone] at he
      cases he
    · exact hold hc
  | @taken ch i q e' hq he' =>
    obtain ⟨c, hc, rfl⟩ := Option.map_eq_some_iff.1 hc'
    obtain ⟨hr, -, hp, hpassed⟩ := c.offer_eq ch e'
    rw [hr] at hl
    rw [hp] at hphase
    rw [hpassed] at he
    exact hs id c hc hphase e he ho l hl mt hmt
  | @filtered id' i c e' ch hc₀ hrec he' hch =>
    rcases State.put_connections_eq_some.1 hc' with ⟨rfl, rfl⟩ | ⟨-, hc⟩
    · dsimp only at he
      split at he
      · rename_i hpass
        rcases List.mem_append.1 he with he | he
        · exact hs id c hc₀ hphase e he ho l hl mt hmt
        · -- the message the filter has just let through
          rw [List.mem_singleton.1 he] at ho ⊢
          exact hm c hc₀ hphase e' he' ho hpass l hl mt hmt
      · exact hs id c hc₀ hphase e he ho l hl mt hmt
    · exact hold hc
  | @notified id' i c e' hc₀ hrec he' =>
    rcases State.put_connections_eq_some.1 hc' with ⟨rfl, rfl⟩ | ⟨-, hc⟩
    · have hp := fireOnBroadcast_phase e'.message c.resource (s.sessions id.uuid) c.phase
      dsimp only at hphase
      rw [hphase] at hp
      have hsusp : c.phase = .suspended :=
        hp.suspended.resolve_right (Phase.ne_of_live (Connection.live_of_receiving hrec) rfl)
      exact hs id c hc₀ hsusp e (List.mem_of_mem_eraseIdx he) ho l hl mt hmt
    · exact hold hc

/-! ## Resumed only when told -/

/-- The handshake listener of a connection announces the error it waits to be told of. -/
theorem Connection.Ok.clientErrorType {id : ResourceId} {c : Connection} {mt : MessageType}
    {l : Listener} (hok : c.Ok P id) (hlive : c.phase.live = true) (hl : l ∈ c.resource.listeners)
    (hmt : mt ∈ l.clientErrorType) : ∃ ch o, subscription P c.resource = some (ch, l) ∧
      c.resource.broadcaster = some ch ∧ l.onSuspend = some o ∧ o.type = some mt := by
  obtain ⟨-, ch, l', hsub, hb, hls⟩ := hok.live hlive
  rw [hls] at hl
  rcases List.mem_cons.1 hl with rfl | hl
  · cases l with
    | clientError messageType errorMessage =>
      cases hmt
      exact ⟨ch, _, hsub, hb, rfl, rfl⟩
    | webSocketEventListenerAdapterImpl => cases hmt
    | authentionSuccess => cases hmt
  · rw [List.mem_singleton.1 hl] at hmt
    cases hmt

/-- **Whatever has passed the filter of such a connection is the error it waits for**: the
service announces nothing else on its channel. -/
theorem type_of_passed (hwf : WellFormed P s) (halone : Requests (GetFallsBackAlone P) s)
    (hs : PassedErrors s) {id : ResourceId} {c : Connection} (hc : s.connections id = some c)
    (hphase : c.phase = .suspended) {i : Nat} {e : Envelope} (he : c.passed[i]? = some e)
    {l : Listener} (hl : l ∈ c.resource.listeners) {mt : MessageType}
    (hmt : mt ∈ l.clientErrorType) : e.message.type = some mt := by
  cases hservice : e.origin.isService with
  | false => exact hs id c hc hphase e (List.mem_of_getElem? he) hservice l hl mt hmt
  | true =>
    obtain ⟨a, ho⟩ := Origin.isService_iff.1 hservice
    obtain ⟨ch, o, hsub, hb, hlo, hot⟩ :=
      (hwf.ok id c hc).clientErrorType (by simp [hphase, Phase.live]) hl hmt
    have hR := received_of_offered hwf hc hb (Connection.mem_inFlight_of_passed he)
    rw [hR.outcome hwf.ok halone ho hc hsub hlo, hot]

/-- A connection that suspended keeps its listeners. -/
theorem Effect.listeners (h : Effect P s m t)
    (hok : ∀ id c, s.connections id = some c → c.Ok P id) {id : ResourceId} {c c' : Connection}
    (hc : s.connections id = some c) (hc' : t.connections id = some c') (hev : c.Evolves c')
    (hlive : c.phase.live = true) : c'.resource.listeners = c.resource.listeners := by
  obtain ⟨-, ch, l, hsub, -, hl⟩ := (hok id c hc).live hlive
  obtain ⟨-, ch', l', hsub', -, hl'⟩ := (ok_of_effect h hok hc').live (hev.phase.live hlive)
  rw [subscription_congr hev.uuid hev.header, hsub] at hsub'
  cases hsub'
  rw [hl, hl']

/-- A step that resumes such a connection tells it why. -/
theorem tells_of_resumes (h : Effect P s m t) (hwf : WellFormed P s)
    (halone : Requests (GetFallsBackAlone P) s) (hs : PassedErrors s) {id : ResourceId}
    {c c' : Connection} (hc : s.connections id = some c) (hc' : t.connections id = some c')
    (hr : c.phase ≠ .resumed) (hr' : c'.phase = .resumed) {l : Listener}
    (hl : l ∈ c.resource.listeners) {mt : MessageType} (hmt : mt ∈ l.clientErrorType) :
    Tells id mt s m t := by
  obtain ⟨i, e, rfl, hsusp, he⟩ := h.resumes hc hc' hr hr'
  have ht : e.message.type = some mt := type_of_passed hwf halone hs hc hsusp he hl hmt
  have hlive : c.phase.live = true := by simp [hsusp, Phase.live]
  refine ⟨⟨i, c, e, rfl, hc, hsusp, he, ht, ?_⟩, ⟨c', hc', hr'⟩, ?_⟩
  · rintro rfl v
    exact fireOnBroadcast_failed (hwf.ok id c hc) hlive ht _
  · rintro rfl
    exact status_of_failed_notified h hwf.ok hc he ht

/-- **A rejected connection is resumed only by being told why**, and a failed check reaches
its session, in runs where the filter lets no other client message through to a connection
that waits to be told, and no `GET` with a rejected context falls back to the channel of
another one. -/
theorem rejected_told {as : List Move} (halone : ∀ m ∈ as, m.Arrives (GetFallsBackAlone P))
    (hfirst : (service P).Along ErrorFirst State.initial as)
    (hrun : (service P).run as = some s) : ResumedTold P as s := by
  intro id c hc hphase l hl mt hmt
  -- the step of the run that resumed the connection
  obtain ⟨pre, m, post, s₁, s₂, rfl, hpre, hstep, hbefore, c₂, hc₂, hr₂, hl₂⟩ :=
    System.takes_of_change
      (Q := fun s => ∃ c, s.connections id = some c ∧ c.phase = .resumed ∧
        l ∈ c.resource.listeners) (by rintro ⟨c, hc, -⟩; cases hc) ⟨c, hc, hphase, hl⟩ hrun
  have h := effect_of_step hstep
  have hwf := wellFormed_run hpre
  have halone₁ : Requests (GetFallsBackAlone P) s₁ :=
    requests_run (fun m hm => halone m (List.mem_append_left _ hm)) hpre
  have hpassed : PassedErrors s₁ := service_invariant (fun _ _ hc => by cases hc)
    (fun _ _ _ hwf hs hm h => passedErrors_of_effect h hwf hs hm)
    (System.along_append.1 hfirst).1 hpre
  refine ⟨pre, m, post, s₁, s₂, rfl, hpre, hstep, ?_⟩
  rcases h.connection_cases hc₂ with ⟨c₁, hc₁, hev⟩ | ⟨header, call, -, -, rfl⟩
  · have hlive : c₁.phase.live = true := by
      rcases (hr₂ ▸ hev.phase).resumed with hp | hp <;> simp [hp, Phase.live]
    rw [h.listeners hwf.ok hc₁ hc₂ hev hlive] at hl₂
    have hr₁ : c₁.phase ≠ .resumed := fun hr => hbefore ⟨c₁, hc₁, hr, hl₂⟩
    exact tells_of_resumes h hwf halone₁ hpassed hc₁ hc₂ hr₁ hr₂ hl₂ hmt
  · dsimp only at hr₂
    split at hr₂ <;> cases hr₂

/-- Whoever was told was handed such a message. -/
theorem heard_of_tells {as : List Move} (hrun : (service P).run as = some s) {id : ResourceId}
    {mt : MessageType} (h : (service P).Takes State.initial as (Tells id mt)) :
    ∃ e, .notified id e ∈ s.history ∧ e.message.type = some mt := by
  obtain ⟨pre, m, post, s₁, s₂, rfl, hpre, hstep, htells⟩ := h
  obtain ⟨i, c, e, rfl, hc, -, he, ht, -⟩ := htells.delivered
  refine ⟨e, mem_history_runFrom (System.runFrom_of_step hpre hstep hrun) ?_, ht⟩
  have hstep' : Effect P s₁ (.notify id i) s₂ := effect_of_step hstep
  cases hstep' with
  | notified hc₀ hrec he₀ =>
    rw [hc, Option.some.injEq] at hc₀
    subst hc₀
    rw [he, Option.some.injEq] at he₀
    subst he₀
    exact List.mem_cons_self

end

/-- A session authenticates, and its second `GET`, with the doomed token, is about to
suspend. -/
def secondTokenRun : List Move :=
  let header := some (ContextKey.json ⟨1, .desktop, "t"⟩)
  let doomed := some (ContextKey.json ⟨1, .desktop, "FAILME"⟩)
  [.inspect ⟨"a", 0⟩ header (.subscribe .message), .handle ⟨"a", 0⟩, .suspend ⟨"a", 0⟩,
    .take "/1/DESKTOP/t" 0, .filter ⟨"a", 0⟩ 0, .notify ⟨"a", 0⟩ 0,
    .inspect ⟨"a", 1⟩ doomed (.subscribe .message), .handle ⟨"a", 1⟩]

/-- It is told that the authentication failed. -/
def errorFirstRun : List Move :=
  secondTokenRun ++
    [.suspend ⟨"a", 1⟩, .take "/1/DESKTOP/FAILME" 0, .filter ⟨"a", 1⟩ 0, .notify ⟨"a", 1⟩ 0]

set_option maxRecDepth 10000 in
theorem rejected_told_error : ∃ s c,
    (service (.reading [⟨1, .desktop, "t"⟩, ⟨1, .desktop, "FAILME"⟩])).run errorFirstRun = some s ∧
      s.connections ⟨"a", 1⟩ = some c ∧ c.phase = .resumed ∧
      .clientError .failedAuthenticatedResponse "authentication error" ∈ c.resource.listeners ∧
      ResumedTold (.reading [⟨1, .desktop, "t"⟩, ⟨1, .desktop, "FAILME"⟩]) errorFirstRun s := by
  obtain ⟨s, hrun, hs⟩ := System.run_any
    (service (.reading [⟨1, .desktop, "t"⟩, ⟨1, .desktop, "FAILME"⟩])) errorFirstRun
    (fun s => (s.connections ⟨"a", 1⟩).any (fun c => c.phase = .resumed ∧
      .clientError .failedAuthenticatedResponse "authentication error" ∈ c.resource.listeners))
    (by decide)
  obtain ⟨c, hc, hrejected⟩ := (Option.any_eq_true _ _).1 hs
  obtain ⟨hphase, hl⟩ := of_decide_eq_true hrejected
  have hslash : ∀ m ∈ errorFirstRun, m.Arrives NoSlash := by decide
  exact ⟨s, c, hrun, hc, hphase, hl, rejected_told
    (fun m hm => (hslash m hm).mono fun _ _ _ h _ => h.fallsBackAlone) (by decide) hrun⟩

/-- Was the connection handed a message of this type? -/
def Event.tells (id : ResourceId) (messageType : MessageType) : Event → Bool
  | .notified id' e => id' = id && e.message.type = some messageType
  | _ => false

/-- Before it suspends, the session publishes on the channel of the doomed token. -/
def contentFirstRun : List Move :=
  secondTokenRun ++
    [.inspect ⟨"a", 2⟩ (some (ContextKey.json ⟨1, .desktop, "FAILME"⟩))
        (.publish { type := some .contentCreated }), .handle ⟨"a", 2⟩,
      .suspend ⟨"a", 1⟩, .take "/1/DESKTOP/FAILME" 0, .filter ⟨"a", 1⟩ 0, .notify ⟨"a", 1⟩ 0]

set_option maxRecDepth 10000 in
/-- **Content comes first.**  The filter lets it through, because the session is still
authenticated, and the listener resumes the connection, which is never told. -/
theorem rejected_untold :
    ¬ ∀ (P : Platform) (as : List Move) (s : State), (service P).run as = some s →
      ResumedTold P as s := by
  intro hall
  obtain ⟨s, hrun, hs⟩ := System.run_any
    (service (.reading [⟨1, .desktop, "t"⟩, ⟨1, .desktop, "FAILME"⟩])) contentFirstRun
    (fun s => (s.connections ⟨"a", 1⟩).any (fun c => c.phase = .resumed ∧
        .clientError .failedAuthenticatedResponse "authentication error" ∈ c.resource.listeners) &&
      !s.history.any (Event.tells ⟨"a", 1⟩ .failedAuthenticatedResponse)) (by decide)
  rw [Bool.and_eq_true, Option.any_eq_true, Bool.not_eq_true'] at hs
  obtain ⟨⟨c, hc, hrejected⟩, hno⟩ := hs
  obtain ⟨hphase, hl⟩ := of_decide_eq_true hrejected
  obtain ⟨e, hev, ht⟩ := heard_of_tells hrun (hall _ _ s hrun _ c hc hphase _ hl _ rfl)
  have htells : Event.tells ⟨"a", 1⟩ .failedAuthenticatedResponse (.notified ⟨"a", 1⟩ e) = true := by
    simp [Event.tells, ht]
  have hany := List.any_eq_true.2 ⟨_, hev, htells⟩
  rw [hno] at hany
  cases hany

/-! ## A `POST` with a rejected context -/

/-- The message `handleClientError` prepares for a rejected context. -/
def contextError (errorMessage : String) : Message :=
  ((Message.Builder.type {} .contextErrorResponse).error { message := some errorMessage }).build

/-- The body of the `POST` is on no channel, and on its way to no connection. -/
structure Withheld (s : State) (id : ResourceId) : Prop where
  queued : ∀ ch q, s.factory ch = some q → ∀ e ∈ q, e.origin ≠ .client id
  filtered : ∀ id' ch e v abort, .filtered id' ch e v abort ∈ s.history → e.origin ≠ .client id
  notified : ∀ id' e, .notified id' e ∈ s.history → e.origin ≠ .client id

/-- The prepared error is the entity of the response, or some continuation of the run puts
it on a channel. -/
def Reported (P : Platform) (s : State) (id : ResourceId) (c : Connection) (body : Message)
    (errorMessage : String) : Prop :=
  (∃ response g r, doPOST P s.factory c.resource body = (.ok response, g, r) ∧
    response.entity = contextError errorMessage) ∨
  ∃ bs t, (service P).runFrom s bs = some t ∧
    ∃ ch q e, t.factory ch = some q ∧ e ∈ q ∧ e.origin = .service id

/-- **The `POST` fails as a whole**: its body stays withheld, and the error is reported. -/
structure FailsAsAWhole (P : Platform) (s : State) (id : ResourceId) (c : Connection)
    (body : Message) (errorMessage : String) : Prop where
  withheld : ∀ bs t, (service P).runFrom s bs = some t → Withheld t id
  reported : Reported P s id c body errorMessage

section

variable {P : Platform} {s : State} {id : ResourceId} {c : Connection} {body : Message}
  {errorMessage : String}

/-- A rejected context falls back to the channel of the uuid. -/
theorem subscription_of_rejected {r : AtmosphereResource}
    (hrej : getBroadCasterId P r = .error (.contextException errorMessage)) :
    subscription P r = some (r.uuid, .clientError .contextErrorResponse errorMessage) := by
  simp only [subscription, hrej]

/-- **The body is put on the channel of the uuid** by the step that runs the method. -/
theorem post_leaks (hok : c.Ok P id) (hc : s.connections id = some c)
    (hadmitted : c.phase = .admitted) (hcall : c.call = .publish body)
    (hrej : getBroadCasterId P c.resource = .error (.contextException errorMessage)) :
    ∃ t q, step P s (.handle id) = some t ∧ t.factory id.uuid = some (q ++ [⟨body, .client id⟩]) := by
  have hsub := subscription_of_rejected hrej
  rw [hok.uuid] at hsub
  obtain ⟨q, hq⟩ :=
    Option.ne_none_iff_exists'.1 (BroadcasterFactory.lookup_self s.factory id.uuid)
  exact ⟨_, q, step_of_effect (.published hc hadmitted hcall hsub),
    BroadcasterFactory.broadcast_self hq⟩

/-- A request stays the request it is. -/
theorem call_runFrom {bs : List Move} {t : State} (hwf : WellFormed P s)
    (hc : s.connections id = some c) (ht : (service P).runFrom s bs = some t) :
    WellFormed P t ∧ ∃ c', t.connections id = some c' ∧ c'.call = c.call := by
  have hpres : (service P).Preserves (fun _ _ => True) fun s =>
      WellFormed P s ∧ ∃ c', s.connections id = some c' ∧ c'.call = c.call := by
    refine wellFormed_preserves.with ?_
    rintro s m t - ⟨c₀, hc₀, hcall⟩ - hstep
    obtain ⟨c', hc', hev⟩ := (effect_of_step hstep).evolves hc₀
    exact ⟨c', hc', hev.call.trans hcall⟩
  exact System.invariant_runFrom hpres ⟨hwf, c, hc, rfl⟩
    (System.along_of_forall (C := fun _ => True) fun _ _ => trivial) ht

/-- **A `POST` announces nothing**, in any continuation of a run: only a connection that
suspended does, and a `POST` never suspends. -/
theorem post_announces_nothing {bs : List Move} {t : State} (hwf : WellFormed P s)
    (hc : s.connections id = some c) (hcall : c.call = .publish body)
    (ht : (service P).runFrom s bs = some t) {ch : String} {q : List Envelope}
    (hq : t.factory ch = some q) {e : Envelope} (he : e ∈ q) : e.origin ≠ .service id := by
  intro ho
  obtain ⟨hwf', c', hc', hcall'⟩ := call_runFrom hwf hc ht
  have hG := hwf'.queued ch q hq e he
  unfold Genuine at hG
  rw [ho] at hG
  obtain ⟨c'', l, hc'', hlive, -⟩ := hG
  rw [hc', Option.some.injEq] at hc''
  subst hc''
  have hget := ((hwf'.ok id c' hc').live hlive).1
  rw [hcall', hcall] at hget
  cases hget

/-- **No `POST` with a rejected context fails as a whole.**  Whatever its body, the step
that runs the method puts it on the channel of the uuid; and unless the client submitted
the very error itself, nobody is told of it. -/
theorem rejected_post_published {as : List Move} (hrun : (service P).run as = some s)
    (hc : s.connections id = some c) (hadmitted : c.phase = .admitted)
    (hcall : c.call = .publish body)
    (hrej : getBroadCasterId P c.resource = .error (.contextException errorMessage)) :
    ¬ FailsAsAWhole P s id c body errorMessage ∧
      (∃ t q, step P s (.handle id) = some t ∧
        t.factory id.uuid = some (q ++ [⟨body, .client id⟩])) ∧
      (body ≠ contextError errorMessage → ¬ Reported P s id c body errorMessage) := by
  have hwf := wellFormed_run hrun
  have hleak := post_leaks (hwf.ok id c hc) hc hadmitted hcall hrej
  refine ⟨?_, hleak, ?_⟩
  · intro hwhole
    obtain ⟨t, q, hstep, hq⟩ := hleak
    have ht : (service P).runFrom s [.handle id] = some t :=
      (service P).runFrom_cons_eq_some.2 ⟨t, hstep, rfl⟩
    exact (hwhole.withheld _ t ht).queued _ _ hq _ (List.mem_append_right _ List.mem_cons_self) rfl
  · rintro hbody (⟨response, g, r, hpost, hentity⟩ | ⟨bs, t, ht, ch, q, e, hq, he, ho⟩)
    · rw [doPOST_eq, subscription_of_rejected hrej] at hpost
      cases hpost
      exact hbody hentity
    · exact post_announces_nothing hwf hc hcall ht hq he ho

end

/-- An authenticated session sends a `GET` without a context, and a `POST` without one before
the `GET` suspends. -/
def noContextRun : List Move :=
  [.inspect ⟨"a", 0⟩ (some (ContextKey.json ⟨1, .desktop, "t"⟩)) (.subscribe .message),
    .handle ⟨"a", 0⟩, .suspend ⟨"a", 0⟩, .take "/1/DESKTOP/t" 0, .filter ⟨"a", 0⟩ 0,
    .notify ⟨"a", 0⟩ 0,
    .inspect ⟨"a", 1⟩ none (.subscribe .message), .handle ⟨"a", 1⟩,
    .inspect ⟨"a", 2⟩ none (.publish { type := some .contentCreated })]

/-- The `POST` runs, and its body is handed to the connection of the session that waits to
be told of its own error. -/
def leakingRun : List Move :=
  [.handle ⟨"a", 2⟩, .suspend ⟨"a", 1⟩, .take "a" 0, .filter ⟨"a", 1⟩ 0, .notify ⟨"a", 1⟩ 0]

/-- The `POST` of the run, when it is let through. -/
def noContextPost : Connection where
  resource := ResourceId.resource ⟨"a", 2⟩ none
  call := .publish { type := some .contentCreated }
  phase := .admitted

/-- What `getBroadCasterId` says about it. -/
def noContextMessage : String := "client a: missing header HtServiceRequestContext"

set_option maxRecDepth 10000 in
theorem rejected_post_published_leak : ∃ s,
    (service (.reading [⟨1, .desktop, "t"⟩])).run noContextRun = some s ∧
      ¬ FailsAsAWhole (.reading [⟨1, .desktop, "t"⟩]) s ⟨"a", 2⟩ noContextPost
        { type := some .contentCreated } noContextMessage ∧
      (∃ t q, step (.reading [⟨1, .desktop, "t"⟩]) s (.handle ⟨"a", 2⟩) = some t ∧
        t.factory "a" = some (q ++ [⟨{ type := some .contentCreated }, .client ⟨"a", 2⟩⟩])) ∧
      ¬ Reported (.reading [⟨1, .desktop, "t"⟩]) s ⟨"a", 2⟩ noContextPost
        { type := some .contentCreated } noContextMessage := by
  obtain ⟨s, hrun, hs⟩ := System.run_any (service (.reading [⟨1, .desktop, "t"⟩])) noContextRun
    (fun s => decide (s.connections ⟨"a", 2⟩ = some noContextPost)) (by decide)
  have hrej : getBroadCasterId (.reading [⟨1, .desktop, "t"⟩]) noContextPost.resource =
      .error (.contextException noContextMessage) := by rfl
  obtain ⟨hwhole, hleak, hreported⟩ :=
    rejected_post_published hrun (of_decide_eq_true hs) rfl rfl hrej
  exact ⟨s, hrun, hwhole, hleak, hreported (by decide)⟩

set_option maxRecDepth 10000 in
/-- **A rejected `POST` is delivered** to a connection of its session. -/
theorem rejected_post_delivered :
    ¬ ∀ (P : Platform) (as : List Move) (s : State) (id : ResourceId) (c : Connection)
      (body : Message) (errorMessage : String), (service P).run as = some s →
        s.connections id = some c → c.phase = .admitted → c.call = .publish body →
          getBroadCasterId P c.resource = .error (.contextException errorMessage) →
            FailsAsAWhole P s id c body errorMessage := by
  intro hall
  obtain ⟨s, hrun, hs⟩ := System.run_any (service (.reading [⟨1, .desktop, "t"⟩])) noContextRun
    (fun s => decide (s.connections ⟨"a", 2⟩ = some noContextPost)) (by decide)
  obtain ⟨t, hrun', ht⟩ := System.run_any (service (.reading [⟨1, .desktop, "t"⟩]))
    (noContextRun ++ leakingRun)
    (fun s => decide (.notified ⟨"a", 1⟩ ⟨{ type := some .contentCreated }, .client ⟨"a", 2⟩⟩ ∈
      s.history)) (by decide)
  have hwhole := hall _ _ s ⟨"a", 2⟩ noContextPost _ noContextMessage hrun (of_decide_eq_true hs)
    rfl rfl (by rfl)
  have hafter := System.runFrom_of_run_append hrun hrun'
  exact (hwhole.withheld _ t hafter).notified _ _ (of_decide_eq_true ht) rfl

end Amps
