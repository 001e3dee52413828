import Amps.Core.Invariant

/-!
# Failed sessions

The request gate has no way out of `AUTH_FAILED`.  The status of a session is also
written by the outcomes its connections hear, though, and a session that was
authenticated once may still be listening where it was.

* `NoLateSuccess` — no success comes to a session that failed: none is taken off a
  channel one of its connections is suspended on, and none is under way to another of
  its connections when it hears that it failed.
* `failed_is_final` — a failed session then stays failed, and nothing gets through its
  gates.
* `reopened_of_late` — the condition asks for no more than that: a step that breaks it
  leaves a failed session that can be reopened.
* `failed_reopened` — the code takes no such care, and the next handshake on the older
  channel authenticates the failed session again.
-/

namespace Amps

open Transition

/-! ## Successes that come too late -/

/-- The requests of the session that were let through. -/
def State.admitted (s : State) (u : String) : List ResourceId :=
  (s.history.filterMap Event.admitted).filter (·.uuid = u)

/-- Is a success under way to the listeners of the connection? -/
def Connection.successUnderWay (c : Connection) : Bool :=
  c.receiving && c.inFlight.any (·.message.type = some .successfulAuthenticationResponse)

/-- No success is taken off a channel on which the failed session has a suspended
connection, and none is under way to another of its connections when one of them hears that
it failed. -/
def NoLateSuccess (u : String) (s : State) : Move → Prop
  | .take ch i => s.status u = .authFailed → ∀ q ∈ s.factory ch, ∀ e ∈ q[i]?,
      e.message.type = some .successfulAuthenticationResponse →
        ∀ id ∈ s.admitted u, ∀ c ∈ s.connections id, c.subscribedTo ch = false
  | .notify id i => id.uuid = u → ∀ c ∈ s.connections id, ∀ e ∈ c.passed[i]?,
      e.message.type = some .failedAuthenticatedResponse →
        ∀ id' ∈ s.admitted u, id' ≠ id → ∀ c' ∈ s.connections id', c'.successUnderWay = false
  | _ => True

instance (u : String) (s : State) : ∀ m, Decidable (NoLateSuccess u s m)
  | .take ch i => inferInstanceAs (Decidable (s.status u = .authFailed → ∀ q ∈ s.factory ch,
      ∀ e ∈ q[i]?, e.message.type = some .successfulAuthenticationResponse →
        ∀ id ∈ s.admitted u, ∀ c ∈ s.connections id, c.subscribedTo ch = false))
  | .notify id i => inferInstanceAs (Decidable (id.uuid = u → ∀ c ∈ s.connections id,
      ∀ e ∈ c.passed[i]?, e.message.type = some .failedAuthenticatedResponse →
        ∀ id' ∈ s.admitted u, id' ≠ id → ∀ c' ∈ s.connections id', c'.successUnderWay = false))
  | .inspect .. | .handle _ | .suspend _ | .filter .. | .disconnect _ => isTrue trivial

/-- Does the step remove the session of this uuid? -/
def Move.removes (u : String) : Move → Bool
  | .disconnect id => id.uuid = u
  | _ => false

/-- While the session is failed, no success is under way to it. -/
def Sealed (u : String) (s : State) : Prop :=
  s.status u = .authFailed → ∀ id c, id.uuid = u → s.connections id = some c →
    c.successUnderWay = false

section

variable {P : Platform} {s t : State} {m : Move} {u : String} {id : ResourceId}
  {c c' : Connection} {e e' : Envelope}

theorem Connection.successUnderWay_iff : c.successUnderWay = true ↔ c.receiving = true ∧
    ∃ e ∈ c.inFlight, e.message.type = some .successfulAuthenticationResponse := by
  simp [Connection.successUnderWay]

/-- The request of a live connection was let through. -/
theorem State.mem_admitted (hwf : WellFormed P s) (hc : s.connections id = some c)
    (hlive : c.phase.live = true) : id ∈ s.admitted id.uuid := by
  obtain ⟨v, hv⟩ := hwf.admitted id c hc (Phase.ne_of_live hlive rfl)
  exact List.mem_filter.2 ⟨List.mem_filterMap.2 ⟨_, hv, rfl⟩, by simp⟩

/-- A connection that is resumed does not receive any more. -/
theorem Connection.Evolves.receiving (h : c.Evolves c') (hlive : c.phase.live = true)
    (hrec : c'.receiving = true) : c.receiving = true := by
  have hphase := h.phase
  unfold Connection.receiving at hrec ⊢
  cases hp : c.phase <;> simp_all [Phase.Steps, Phase.next, Phase.live]

/-- **A connection hears one kind of outcome**, that of the context its channel belongs
to. -/
theorem outcome_unique (hwf : WellFormed P s) (hplain : Requests PlainBody s)
    (hc : s.connections id = some c) (he : e ∈ c.inFlight) (he' : e' ∈ c.inFlight)
    (hout : e.message.isOutcome = true) (hout' : e'.message.isOutcome = true) :
    e.message.type = e'.message.type := by
  obtain ⟨-, k, -, hb, -, ht⟩ := outcome_of_inFlight hwf hplain hc he hout
  obtain ⟨-, k', -, hb', -, ht'⟩ := outcome_of_inFlight hwf hplain hc he' hout'
  rw [hb, Option.some.injEq, broadcasterId_inj] at hb'
  rw [ht, ht', hb']

/-- A success under way to a connection was under way before, unless this step takes it off
the channel the connection is suspended on. -/
theorem successUnderWay_before (h : Effect P s m t) (hwf : WellFormed P s)
    (hc' : t.connections id = some c') (hlate : c'.successUnderWay = true) :
    ∃ c, s.connections id = some c ∧ id ∈ s.admitted id.uuid ∧
      (c.successUnderWay = true ∨ ∃ ch i q e, m = .take ch i ∧ c.subscribedTo ch = true ∧
        s.factory ch = some q ∧ q[i]? = some e ∧
          e.message.type = some .successfulAuthenticationResponse) := by
  obtain ⟨hrec', e, he, hsucc⟩ := Connection.successUnderWay_iff.1 hlate
  obtain ⟨c, hc, hlive, hwhere⟩ := h.inFlight hwf.ok hc' he
  obtain ⟨c'', hc'', hev⟩ := h.evolves hc
  rw [hc', Option.some.injEq] at hc''
  subst hc''
  refine ⟨c, hc, State.mem_admitted hwf hc hlive, ?_⟩
  rcases hwhere with hin | ⟨ch, i, q, rfl, hsub, hq, hqe⟩
  · exact .inl (Connection.successUnderWay_iff.2 ⟨hev.receiving hlive hrec', e, hin, hsucc⟩)
  · exact .inr ⟨ch, i, q, e, rfl, hsub, hq, hqe, hsucc⟩

theorem sealed_initial : Sealed u State.initial := by
  intro hu
  cases hu

theorem sealed_of_effect (h : Effect P s m t) (hwf : WellFormed P s)
    (hplain : Requests PlainBody s) (hs : Sealed u s) (hm : NoLateSuccess u s m) :
    Sealed u t := by
  rintro hu id c' rfl hc'
  by_contra hlate
  rw [Bool.not_eq_false] at hlate
  obtain ⟨c, hc, hadmitted, hwhere⟩ := successUnderWay_before h hwf hc' hlate
  cases h.status hwf.ok id.uuid with
  | same hst =>
    rw [hst] at hu
    rcases hwhere with hbefore | ⟨ch, i, q, e, rfl, hsub, hq, he, hsucc⟩
    · simp [hs hu id c rfl hc] at hbefore
    · simp [hm hu q hq e he hsucc id hadmitted c hc] at hsub
  | @failed id₀ i c₀ e₀ hid hc₀ hrec he₀ hfail hst =>
    rcases hwhere with hbefore | ⟨ch, i, q, e, htake, -⟩
    · by_cases hne : id = id₀
      · -- the connection that hears of the failure hears no success
        subst hne
        rw [hc, Option.some.injEq] at hc₀
        subst hc₀
        obtain ⟨-, e, hin, hsucc⟩ := Connection.successUnderWay_iff.1 hbefore
        have hsame := outcome_unique hwf hplain hc hin (Connection.mem_inFlight_of_passed he₀)
          (by simp [Message.isOutcome, hsucc]) (by simp [Message.isOutcome, hfail])
        simp [hsucc, hfail] at hsame
      · simp [hm hid c₀ hc₀ e₀ he₀ hfail id hadmitted hne c hc] at hbefore
    · cases htake
  | entered _ _ hst | succeeded _ _ _ _ _ hst | removed _ hst =>
    rw [hst] at hu
    cases hu

/-! ## A failed session stays failed -/

/-- The gates stop everything of this session, handshake messages apart. -/
def Event.Blocked (u : String) : Event → Prop
  | .inspected id _ _ action => id.uuid = u → action = .skipAtmosphereHandler
  | .filtered id _ e _ abort => id.uuid = u → e.message.isHandshake = false → abort = true
  | _ => True

/-- From `s` on, the session stayed failed and nothing got through its gates. -/
def StayedFailed (u : String) (s t : State) : Prop :=
  t.status u = .authFailed ∧ s.Only t (Event.Blocked u)

theorem status_of_failed (h : Effect P s m t) (hwf : WellFormed P s) (hs : Sealed u s)
    (hstay : m.removes u = false) (hu : s.status u = .authFailed) : t.status u = .authFailed := by
  cases h.status hwf.ok u with
  | same hst => rw [hst, hu]
  | entered _ hun => simp [hu] at hun
  | succeeded hid hc hrec he hsucc _ =>
    have hlate := Connection.successUnderWay_iff.2
      ⟨hrec, _, Connection.mem_inFlight_of_passed he, hsucc⟩
    rw [hs hu _ _ hid hc] at hlate
    cases hlate
  | failed _ _ _ _ _ hst => exact hst
  | removed hid => simp [Move.removes, hid] at hstay

theorem blocked_of_failed (hu : s.status u = .authFailed) {e : Event} (he : Records P s m e) :
    e.Blocked u := by
  cases he with
  | @inspected id header call =>
    rintro rfl
    cases ha : (inspect.run (s.sessions id.uuid)).1 with
    | «continue» =>
      rcases inspect_continue_iff.1 ha with hs | hs
      · exact absurd (hu.symm.trans hs) (by decide)
      · exact absurd (hu.symm.trans hs) (by decide)
    | skipAtmosphereHandler => rfl
  | filtered hc hrec he hch =>
    rintro rfl hcontent
    simp [Message.passes, hcontent, hu]
  | _ => trivial

theorem stayedFailed_of_effect {s₀ : State} (h : Effect P s m t) (hwf : WellFormed P s)
    (hs : Sealed u s) (hstay : m.removes u = false) (hu : StayedFailed u s₀ s) :
    StayedFailed u s₀ t :=
  ⟨status_of_failed h hwf hs hstay hu.1, hu.2.step h fun _ => blocked_of_failed hu.1⟩

/-- **A failed authentication is final**, in runs where clients submit no handshake
types and no success comes too late for the session: once failed, and until a
disconnect removes it, the session stays failed, none of its requests is admitted, and
no content reaches its connections. -/
theorem failed_is_final {as bs : List Move} {s₀ : State}
    (hplain : ∀ m ∈ as ++ bs, m.Arrives PlainBody)
    (hlate : (service P).Along (NoLateSuccess u) State.initial (as ++ bs))
    (hstay : ∀ m ∈ bs, m.removes u = false) (hbefore : (service P).run as = some s₀)
    (hafter : (service P).runFrom s₀ bs = some t) (hu : s₀.status u = .authFailed) :
    StayedFailed u s₀ t := by
  have hplain₁ : ∀ m ∈ as, m.Arrives PlainBody :=
    fun m hm => hplain m (List.mem_append_left _ hm)
  have hplain₂ : ∀ m ∈ bs, m.Arrives PlainBody :=
    fun m hm => hplain m (List.mem_append_right _ hm)
  obtain ⟨hlate₁, hlate₂⟩ := System.along_append.1 hlate
  have hsealed : Sealed u s₀ := service_invariant_over sealed_initial
    (fun s m t hwf hreq hs _ hm h => sealed_of_effect h hwf hreq hs hm) hplain₁ hlate₁ hbefore
  have hcond : (service P).Along (fun s m => m.removes u = false ∧ NoLateSuccess u s m) s₀ bs :=
    (System.along_of_forall hstay).and (hlate₂ s₀ hbefore)
  have hend : Sealed u t ∧ StayedFailed u s₀ t := by
    refine service_invariant_from (I := fun t => Sealed u t ∧ StayedFailed u s₀ t) ?_
      (wellFormed_run hbefore) (requests_run hplain₁ hbefore) ⟨hsealed, hu, .refl s₀ _⟩
      hplain₂ hcond hafter
    rintro s m t hwf hreq ⟨hs, hstayed⟩ - ⟨hkept, hm⟩ h
    exact ⟨sealed_of_effect h hwf hreq hs hm, stayedFailed_of_effect h hwf hs hkept hstayed⟩
  exact hend.2

/-! ## A success that comes too late reopens the session -/

/-- The listeners of a connection are handed a success that passed its filter. -/
theorem authenticated_of_passed (hwf : WellFormed P s) (hc : s.connections id = some c)
    (hrec : c.receiving = true) (he : e ∈ c.passed)
    (hsucc : e.message.type = some .successfulAuthenticationResponse) :
    ∃ i t, (service P).runFrom s [.notify id i] = some t ∧ t.status id.uuid = .authSuccessful := by
  obtain ⟨i, hi⟩ := List.mem_iff_getElem?.1 he
  have h := Effect.notified (P := P) hc hrec hi
  refine ⟨i, _, (System.runFrom_cons_eq_some _).2 ⟨_, step_of_effect h, rfl⟩, ?_⟩
  rw [h.status_notified hwf.ok hc hi, Message.record, if_pos hsucc]
  rfl

/-- **A success under way authenticates its session**, whatever the status is. -/
theorem authenticated_of_underWay (hwf : WellFormed P s) (hc : s.connections id = some c)
    (hlate : c.successUnderWay = true) :
    ∃ as t, (service P).runFrom s as = some t ∧ t.status id.uuid = .authSuccessful := by
  obtain ⟨hrec, e, he, hsucc⟩ := Connection.successUnderWay_iff.1 hlate
  rcases List.mem_append.1 he with ho | hp
  · -- the filter lets it pass, as it does every outcome
    obtain ⟨i, hi⟩ := List.mem_iff_getElem?.1 ho
    obtain ⟨-, ch, -, -, hb, -⟩ := (hwf.ok id c hc).live (Connection.live_of_receiving hrec)
    have h := Effect.filtered (P := P) hc hrec hi hb
    have hpass : e.message.passes (s.status id.uuid) = true := by
      rw [Message.passes, Message.isHandshake_of_isOutcome (by simp [Message.isOutcome, hsucc])]
      rfl
    obtain ⟨j, t, hrun, ht⟩ := authenticated_of_passed (wellFormed_of_effect h hwf)
      State.put_connections_self hrec (by simp [hpass]) hsucc
    exact ⟨_, t, (System.runFrom_cons_eq_some _).2 ⟨_, step_of_effect h, hrun⟩, ht⟩
  · obtain ⟨i, t, hrun, ht⟩ := authenticated_of_passed hwf hc hrec hp hsucc
    exact ⟨_, t, hrun, ht⟩

/-- **The condition is exact**: a step that breaks it leaves the session failed, and with
a continuation that authenticates it again. -/
theorem reopened_of_late (h : Effect P s m t) (hwf : WellFormed P s)
    (hlate : ¬ NoLateSuccess u s m) : t.status u = .authFailed ∧
      ∃ as t', (service P).runFrom t as = some t' ∧ t'.status u = .authSuccessful := by
  have hwft := wellFormed_of_effect h hwf
  have hsession : ∀ {id}, id ∈ s.admitted u → id.uuid = u := fun hid =>
    of_decide_eq_true (List.mem_filter.1 hid).2
  cases m with
  | take ch i =>
    simp only [NoLateSuccess, not_forall, Bool.not_eq_false] at hlate
    obtain ⟨hu, q, hq, e, he, hsucc, id, hid, c, hc, hsub⟩ := hlate
    obtain rfl := hsession hid
    cases h with
    | @taken _ _ q' e' hq' he' =>
      rw [Option.mem_def.1 hq, Option.some.injEq] at hq'
      subst hq'
      rw [Option.mem_def.1 he, Option.some.injEq] at he'
      subst he'
      have hsusp : (c.offer ch e).phase = .suspended := by
        rw [(c.offer_eq ch e).2.2.1, (Connection.subscribed hsub).1]
      refine ⟨hu, authenticated_of_underWay (c := c.offer ch e) hwft (by simp [Option.mem_def.1 hc])
        (Connection.successUnderWay_iff.2 ⟨?_, e, ?_, hsucc⟩)⟩
      · simp [Connection.receiving, hsusp]
      · exact Connection.mem_inFlight_offer (.inr ⟨rfl, hsub⟩)
  | notify id i =>
    simp only [NoLateSuccess, not_forall, Bool.not_eq_false] at hlate
    obtain ⟨rfl, c, hc, e, he, hfail, id', hid', hne, c', hc', hsucc⟩ := hlate
    have hst := h.status_notified hwf.ok hc he
    rw [Message.record, hfail, if_neg (by simp), if_pos rfl] at hst
    have hkept : t.connections id' = some c' := by
      cases h with
      | notified => rwa [State.put_connections_of_ne hne]
    obtain ⟨as, t', hrun, hst'⟩ := authenticated_of_underWay hwft hkept hsucc
    exact ⟨hst, as, t', hrun, hsession hid' ▸ hst'⟩
  | _ => exact absurd trivial hlate

end

/-- A session authenticates, and a second `GET` of it is turned down. -/
def turnedDownRun : List Move :=
  let good := some (ContextKey.json ⟨1, .desktop, "t"⟩)
  let doomed := some (ContextKey.json ⟨1, .desktop, "FAILME"⟩)
  [.inspect ⟨"a", 0⟩ good (.subscribe .message), .handle ⟨"a", 0⟩, .suspend ⟨"a", 0⟩,
    .take "/1/DESKTOP/t" 0, .filter ⟨"a", 0⟩ 0, .notify ⟨"a", 0⟩ 0,
    .inspect ⟨"a", 1⟩ doomed (.subscribe .message), .handle ⟨"a", 1⟩, .suspend ⟨"a", 1⟩,
    .take "/1/DESKTOP/FAILME" 0, .filter ⟨"a", 1⟩ 0, .notify ⟨"a", 1⟩ 0]

/-- A second session authenticates on the channel of the first connection. -/
def reopeningRun : List Move :=
  let good := some (ContextKey.json ⟨1, .desktop, "t"⟩)
  [.inspect ⟨"b", 0⟩ good (.subscribe .message), .handle ⟨"b", 0⟩, .suspend ⟨"b", 0⟩,
    .take "/1/DESKTOP/t" 0, .filter ⟨"a", 0⟩ 0, .notify ⟨"a", 0⟩ 0]

set_option maxRecDepth 10000 in
/-- **A failed session reopened** by the handshake of another one. -/
theorem failed_reopened :
    ¬ ∀ (P : Platform) (as bs : List Move) (s₀ t : State) (u : String),
      (∀ m ∈ as ++ bs, m.Arrives PlainBody) → (∀ m ∈ as ++ bs, m.isDisconnect = false) →
      (service P).run as = some s₀ → (service P).runFrom s₀ bs = some t →
      s₀.status u = .authFailed → StayedFailed u s₀ t := by
  intro hall
  let keys : List ContextKey := [⟨1, .desktop, "t"⟩, ⟨1, .desktop, "FAILME"⟩]
  obtain ⟨s₀, hbefore, hs⟩ := System.run_any (service (.reading keys)) turnedDownRun
    (fun s => decide (s.status "a" = .authFailed)) (by decide)
  obtain ⟨t, hrun, ht⟩ := System.run_any (service (.reading keys)) (turnedDownRun ++ reopeningRun)
    (fun s => decide (s.status "a" = .authSuccessful)) (by decide)
  have hafter := System.runFrom_of_run_append hbefore hrun
  have hfinal := hall _ _ _ s₀ t "a" (by decide) (by decide) hbefore hafter (of_decide_eq_true hs)
  rw [StayedFailed, of_decide_eq_true ht] at hfinal
  cases hfinal.1

/-- Two sessions are authenticated on one channel, and a second `GET` of one of them is
turned down. -/
def sharedFailureRun : List Move :=
  let good := some (ContextKey.json ⟨1, .desktop, "t"⟩)
  [.inspect ⟨"b", 0⟩ good (.subscribe .message), .handle ⟨"b", 0⟩, .suspend ⟨"b", 0⟩,
    .take "/1/DESKTOP/t" 0, .filter ⟨"b", 0⟩ 0, .notify ⟨"b", 0⟩ 0] ++ turnedDownRun

/-- The other session publishes on the channel, the failed one asks again, and the other
one leaves. -/
def withheldRun : List Move :=
  let good := some (ContextKey.json ⟨1, .desktop, "t"⟩)
  [.inspect ⟨"b", 1⟩ good (.publish { type := some .contentCreated }), .handle ⟨"b", 1⟩,
    .take "/1/DESKTOP/t" 0, .filter ⟨"a", 0⟩ 0, .filter ⟨"b", 0⟩ 1, .notify ⟨"b", 0⟩ 0,
    .inspect ⟨"a", 2⟩ good (.subscribe .message), .disconnect ⟨"b", 0⟩]

set_option maxRecDepth 10000 in
/-- The older connection of the failed session is offered what the other one hears. -/
theorem failed_is_final_shared : ∃ s₀ t,
    (service (.reading [⟨1, .desktop, "t"⟩, ⟨1, .desktop, "FAILME"⟩])).run sharedFailureRun =
        some s₀ ∧
      (service (.reading [⟨1, .desktop, "t"⟩, ⟨1, .desktop, "FAILME"⟩])).runFrom s₀ withheldRun =
        some t ∧
      .filtered ⟨"a", 0⟩ "/1/DESKTOP/t" ⟨{ type := some .contentCreated }, .client ⟨"b", 1⟩⟩
        .authFailed true ∈ t.history ∧
      .notified ⟨"b", 0⟩ ⟨{ type := some .contentCreated }, .client ⟨"b", 1⟩⟩ ∈ t.history ∧
      StayedFailed "a" s₀ t := by
  let P : Platform := .reading [⟨1, .desktop, "t"⟩, ⟨1, .desktop, "FAILME"⟩]
  obtain ⟨s₀, hbefore, hs⟩ := System.run_any (service P) sharedFailureRun
    (fun s => decide (s.status "a" = .authFailed)) (by decide)
  obtain ⟨t, hrun, ht⟩ := System.run_any (service P) (sharedFailureRun ++ withheldRun)
    (fun t => decide (.filtered ⟨"a", 0⟩ "/1/DESKTOP/t"
        ⟨{ type := some .contentCreated }, .client ⟨"b", 1⟩⟩ .authFailed true ∈ t.history ∧
      .notified ⟨"b", 0⟩ ⟨{ type := some .contentCreated }, .client ⟨"b", 1⟩⟩ ∈ t.history))
    (by decide)
  obtain ⟨hkept, hheard⟩ := of_decide_eq_true ht
  have hafter := System.runFrom_of_run_append hbefore hrun
  exact ⟨s₀, t, hbefore, hafter, hkept, hheard, failed_is_final (by decide) (by decide)
    (by decide) hbefore hafter (of_decide_eq_true hs)⟩

end Amps
