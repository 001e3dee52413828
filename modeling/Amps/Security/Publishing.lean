import Amps.Core.Invariant

/-!
# The two gates

`interceptRequest` guards what a session may send, `interceptBroadcast` what it
may receive.  Both mean to keep clients apart until the handshake is over.

* `publishing_authenticated` — what a `POST` puts on a channel was admitted while
  its session was authenticated, in runs where no `POST` is the first request of
  its session.
* `publishing_first` — the request gate does not ask what kind of request starts
  the handshake, so a first `POST` publishes unauthenticated.
* `filter_tight` — what a client submitted only reaches authenticated sessions, in
  runs where no admitted `POST` submits a handshake type.
* `filter_forged` — the filter tells handshake messages by their type alone, and
  a client may choose it.
-/

namespace Amps

open Transition

/-! ## What the events say -/

/-- The `POST` behind a message put on a channel. -/
def Event.publisher : Event → Option ResourceId
  | .published id .. => some id
  | .broadcasted id .. => some id
  | _ => none

/-- The interceptor let the request through while its session had this status. -/
def State.admittedAt (s : State) (id : ResourceId) (v : Status) : Prop :=
  ∃ call, .inspected id call v .continue ∈ s.history

/-- Every message a client put on a channel was let through authenticated. -/
def PublishingAuthenticated (s : State) : Prop :=
  ∀ e ∈ s.history, ∀ id ∈ e.publisher, s.admittedAt id .authSuccessful

/-- Every client message that passed the filter found an authenticated session. -/
def FilterTight (s : State) : Prop :=
  ∀ id ch e v, .filtered id ch e v false ∈ s.history → e.origin.isService = false →
    v = .authSuccessful

/-! ## The request gate -/

/-- No `POST` starts a handshake. -/
def NoFirstPost (s : State) : Move → Prop
  | .inspect id _ call => call.isGET = false → s.status id.uuid ≠ .unavailable
  | _ => True

instance (s : State) : ∀ m, Decidable (NoFirstPost s m)
  | .inspect id _ call =>
      inferInstanceAs (Decidable (call.isGET = false → s.status id.uuid ≠ .unavailable))
  | .handle _ | .suspend _ | .take .. | .filter .. | .notify .. | .disconnect _ => isTrue trivial

section

variable {P : Platform} {s t : State} {m : Move}

/-- Every `POST` let through so far was let through authenticated. -/
def PostsAuthenticated (s : State) : Prop :=
  ∀ id call v, .inspected id call v .continue ∈ s.history → call.isGET = false →
    v = .authSuccessful

theorem postsAuthenticated_of_effect (h : Effect P s m t) (hs : PostsAuthenticated s)
    (hm : NoFirstPost s m) : PostsAuthenticated t := by
  intro id call v hev hpost
  rcases h.records hev with hev | hrec
  · exact hs id call v hev hpost
  · generalize hgo : Action.continue = action at hrec
    cases hrec with
    | inspected =>
      rcases inspect_continue_iff.1 hgo.symm with hu | hv
      · exact absurd hu (hm hpost)
      · exact hv

theorem publishingAuthenticated_of_effect (h : Effect P s m t) (hwf : WellFormed P s)
    (hposts : PostsAuthenticated s) (hs : PublishingAuthenticated s) :
    PublishingAuthenticated t := by
  -- a `POST` that reaches its resource method was let through
  have hadmitted : ∀ {id c}, s.connections id = some c → c.phase = .admitted →
      c.call.isGET = false → t.admittedAt id .authSuccessful := by
    intro id c hc hphase hpost
    obtain ⟨v, hv⟩ := hwf.admitted id c hc (by simp [hphase])
    rw [hposts id c.call v hv hpost] at hv
    exact ⟨c.call, h.mem_history hv⟩
  intro e he id hid
  rcases h.records he with he | hrec
  · obtain ⟨call, hcall⟩ := hs e he id hid
    exact ⟨call, h.mem_history hcall⟩
  · cases hrec with
    | published hc hphase hcall =>
      cases hid
      exact hadmitted hc hphase (by simp [hcall, Call.isGET])
    | broadcasted hc hphase hcall =>
      cases hid
      exact hadmitted hc hphase (by simp [hcall, Call.isGET])
    | _ => cases hid

/-- **Publishing requires authentication**, in runs where no `POST` is the first
request of its session. -/
theorem publishing_authenticated {as : List Move}
    (hfirst : (service P).Along NoFirstPost State.initial as)
    (hrun : (service P).run as = some s) : PublishingAuthenticated s := by
  have hinit : PostsAuthenticated State.initial ∧ PublishingAuthenticated State.initial :=
    ⟨fun _ _ _ hev => (List.not_mem_nil hev).elim, fun _ he => (List.not_mem_nil he).elim⟩
  have hinv : PostsAuthenticated s ∧ PublishingAuthenticated s := by
    refine service_invariant (I := fun s => PostsAuthenticated s ∧ PublishingAuthenticated s)
      hinit ?_ hfirst hrun
    intro s m t hwf hs hm h
    exact ⟨postsAuthenticated_of_effect h hs.1 hm,
      publishingAuthenticated_of_effect h hwf hs.1 hs.2⟩
  exact hinv.2

end

/-- A client whose first request is a `POST`. -/
def firstPostRun : List Move :=
  [.inspect ⟨"a", 0⟩ (some (ContextKey.json ⟨1, .desktop, "t"⟩))
      (.publish { type := some .contentCreated }),
    .handle ⟨"a", 0⟩]

set_option maxRecDepth 10000 in
/-- **A first `POST`** publishes without any handshake. -/
theorem publishing_first :
    ¬ ∀ (P : Platform) (as : List Move) (s : State), (service P).run as = some s →
      PublishingAuthenticated s := by
  intro hall
  obtain ⟨s, hrun, hs⟩ := System.run_any (service (.reading [⟨1, .desktop, "t"⟩])) firstPostRun
    (fun s => decide (s.history =
      [.published ⟨"a", 0⟩ "/1/DESKTOP/t" .authPending { type := some .contentCreated },
        .inspected ⟨"a", 0⟩ (.publish { type := some .contentCreated }) .unavailable
          .continue])) (by decide)
  have hhist := of_decide_eq_true hs
  obtain ⟨call, hcall⟩ := hall _ _ s hrun _ (hhist ▸ List.mem_cons_self) ⟨"a", 0⟩ rfl
  rw [hhist] at hcall
  simp at hcall

/-- A client that authenticates, and then publishes. -/
def thenPostRun : List Move :=
  let header := some (ContextKey.json ⟨1, .desktop, "t"⟩)
  [.inspect ⟨"a", 0⟩ header (.subscribe .message), .handle ⟨"a", 0⟩, .suspend ⟨"a", 0⟩,
    .take "/1/DESKTOP/t" 0, .filter ⟨"a", 0⟩ 0, .notify ⟨"a", 0⟩ 0,
    .inspect ⟨"a", 1⟩ header (.publish { type := some .contentCreated }), .handle ⟨"a", 1⟩,
    .take "/1/DESKTOP/t" 0, .filter ⟨"a", 0⟩ 0]

set_option maxRecDepth 10000 in
theorem publishing_authenticated_then : ∃ s,
    (service (.reading [⟨1, .desktop, "t"⟩])).run thenPostRun = some s ∧
      (s.history.any fun e => e.publisher = some ⟨"a", 1⟩) = true ∧ PublishingAuthenticated s := by
  obtain ⟨s, hrun, hs⟩ := System.run_any (service (.reading [⟨1, .desktop, "t"⟩])) thenPostRun
    (fun s => s.history.any fun e => e.publisher = some ⟨"a", 1⟩) (by decide)
  exact ⟨s, hrun, hs, publishing_authenticated (by decide) hrun⟩

/-! ## The outgoing filter -/

/-- No `POST` about to put its body on a channel has a body of a handshake type. -/
def NoHandshakeBody (P : Platform) (s : State) : Move → Prop
  | .handle id => ∀ c ∈ s.connections id, ∀ b ∈ c.publishes P, b.isHandshake = false
  | _ => True

instance (P : Platform) (s : State) : ∀ m, Decidable (NoHandshakeBody P s m)
  | .handle id => inferInstanceAs
      (Decidable (∀ c ∈ s.connections id, ∀ b ∈ c.publishes P, b.isHandshake = false))
  | .inspect .. | .suspend _ | .take .. | .filter .. | .notify .. | .disconnect _ => isTrue trivial

/-- No `POST` answered so far had a body of a handshake type. -/
def BodiesPlain (s : State) : Prop :=
  ∀ id c b, s.connections id = some c → c.phase = .answered → c.call.body = some b →
    b.isHandshake = false

section

variable {P : Platform} {s t : State} {m : Move}

theorem bodiesPlain_of_effect (h : Effect P s m t) (hs : BodiesPlain s)
    (hm : NoHandshakeBody P s m) : BodiesPlain t := by
  intro id c b hc ha hb
  obtain ⟨c₀, hc₀, hcall, ha₀ | ⟨rfl, -, hpub⟩⟩ := h.answers hc ha
  · exact hs id c₀ b hc₀ ha₀ (hcall ▸ hb)
  · exact hm c₀ hc₀ b (by rw [hpub, ← hcall, hb]; rfl)

/-- What a client submitted and is under way carries no handshake type. -/
theorem BodiesPlain.client (hs : BodiesPlain s) {ch : String} {e : Envelope}
    (hG : Genuine P s ch e) (ho : e.origin.isService = false) : e.message.isHandshake = false := by
  unfold Genuine at hG
  split at hG
  · rename_i a ha
    rw [ha] at ho
    cases ho
  · obtain ⟨c, hc, hphase, hb⟩ := hG
    exact hs _ c _ hc hphase hb

theorem filterTight_of_effect (h : Effect P s m t) (hwf : WellFormed P s) (hb : BodiesPlain s)
    (hs : FilterTight s) : FilterTight t := by
  intro id ch e v hev ho
  rcases h.records hev with hev | hrec
  · exact hs id ch e v hev ho
  · generalize hpass : false = abort at hrec
    cases hrec with
    | filtered hc hrec he hch =>
      have hin := Connection.mem_inFlight_of_offered he
      have hplain := hb.client (received_of_offered hwf hc hch hin).1 ho
      simpa [Message.passes, hplain] using hpass.symm

/-- **No client message crosses the outgoing filter during the handshake**, in runs
where no `POST` that is let through submits a handshake type. -/
theorem filter_tight {as : List Move}
    (hbody : (service P).Along (NoHandshakeBody P) State.initial as)
    (hrun : (service P).run as = some s) : FilterTight s := by
  have hinit : BodiesPlain State.initial ∧ FilterTight State.initial :=
    ⟨fun _ _ _ hc => (nomatch hc), fun _ _ _ _ hev => (List.not_mem_nil hev).elim⟩
  have hinv : BodiesPlain s ∧ FilterTight s := by
    refine service_invariant (I := fun s => BodiesPlain s ∧ FilterTight s) hinit ?_ hbody hrun
    intro s m t hwf hs hm h
    exact ⟨bodiesPlain_of_effect h hs.1 hm, filterTight_of_effect h hwf hs.1 hs.2⟩
  exact hinv.2

end

/-- An authenticated client posts a message of type `SUSPEND_RESPONSE` while a
second one is still waiting on the channel. -/
def disguisedRun : List Move :=
  let header := some (ContextKey.json ⟨1, .desktop, "t"⟩)
  [.inspect ⟨"a", 0⟩ header (.subscribe .message), .handle ⟨"a", 0⟩, .suspend ⟨"a", 0⟩,
    .take "/1/DESKTOP/t" 0, .filter ⟨"a", 0⟩ 0, .notify ⟨"a", 0⟩ 0,
    .inspect ⟨"b", 0⟩ header (.subscribe .message), .handle ⟨"b", 0⟩, .suspend ⟨"b", 0⟩,
    .inspect ⟨"a", 1⟩ header (.publish { type := some .suspendResponse, message := some "hello" }),
    .handle ⟨"a", 1⟩, .take "/1/DESKTOP/t" 1, .filter ⟨"b", 0⟩ 0]

set_option maxRecDepth 10000 in
/-- **A disguised message** crosses the filter to a session that is not
authenticated. -/
theorem filter_forged :
    ¬ ∀ (P : Platform) (as : List Move) (s : State), (service P).run as = some s →
      FilterTight s := by
  intro hall
  obtain ⟨s, hrun, hs⟩ := System.run_any (service (.reading [⟨1, .desktop, "t"⟩])) disguisedRun
    (fun s => decide (Event.filtered ⟨"b", 0⟩ "/1/DESKTOP/t"
      ⟨{ type := some .suspendResponse, message := some "hello" }, .client ⟨"a", 1⟩⟩
      .authPending false ∈ s.history)) (by decide)
  have hv := hall _ _ s hrun _ _ _ _ (of_decide_eq_true hs) rfl
  cases hv

set_option maxRecDepth 10000 in
theorem filter_tight_then : ∃ s,
    (service (.reading [⟨1, .desktop, "t"⟩])).run thenPostRun = some s ∧
      Event.filtered ⟨"a", 0⟩ "/1/DESKTOP/t"
        ⟨{ type := some .contentCreated }, .client ⟨"a", 1⟩⟩ .authSuccessful false ∈ s.history ∧
      FilterTight s := by
  obtain ⟨s, hrun, hs⟩ := System.run_any (service (.reading [⟨1, .desktop, "t"⟩])) thenPostRun
    (fun s => decide (Event.filtered ⟨"a", 0⟩ "/1/DESKTOP/t"
      ⟨{ type := some .contentCreated }, .client ⟨"a", 1⟩⟩ .authSuccessful false ∈ s.history))
    (by decide)
  exact ⟨s, hrun, of_decide_eq_true hs, filter_tight (by decide) hrun⟩

end Amps
