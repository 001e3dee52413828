import Amps.Core.Invariant

/-!
# Disconnects

Atmosphere removes the session when a connection disconnects, and makes an empty one
when somebody asks for it again.  The status should therefore start afresh with the
next request of the uuid.

* `disconnect_ends` — it does, in runs where a connection only disconnects when
  nothing that can still write the status is left behind: no outcome under way to a
  connection of the uuid, and no other open `GET` of it on the channel of a context.
* `disconnect_outlived` — the code lets such a connection disconnect, and the outcome
  left behind makes a new session for the uuid.
-/

namespace Amps

open Transition

/-! ## Since the last disconnect -/

/-- Was a session of this uuid removed? -/
def Event.endsSession (u : String) : Event → Bool
  | .disconnected id => id.uuid = u
  | _ => false

/-- What happened since the last disconnect of the uuid, newest first. -/
def State.since (s : State) (u : String) : List Event :=
  s.history.takeWhile fun e => !e.endsSession u

/-- The `GET` was let through since the last disconnect of its uuid. -/
def State.admittedSince (s : State) (id : ResourceId) : Prop :=
  ∃ endpoint v, .inspected id (.subscribe endpoint) v .continue ∈ s.since id.uuid

/-- Some request of the uuid was inspected since its last disconnect. -/
def State.begun (s : State) (u : String) : Prop :=
  ∃ id call v action, id.uuid = u ∧ .inspected id call v action ∈ s.since u

/-- The first request after a disconnect finds `UNAVAILABLE` and starts a handshake. -/
def FirstStarts : Event → List Event → Prop
  | .inspected id _ v action, before =>
      (∀ id' call' v' action', id'.uuid = id.uuid →
        .inspected id' call' v' action' ∉ before.takeWhile fun e => !e.endsSession id.uuid) →
      v = .unavailable ∧ action = .continue
  | _, _ => True

/-- A disconnect ends the authentication. -/
structure DisconnectEnds (s : State) : Prop where
  decided : ∀ u, s.status u = .authSuccessful ∨ s.status u = .authFailed →
    ∃ id, id.uuid = u ∧ s.admittedSince id
  first : Justified FirstStarts s.history

/-- A disconnecting connection leaves nothing behind that can write the status. -/
def DisconnectsClean (P : Platform) (s : State) : Move → Prop
  | .disconnect id => ∀ id' c, id'.uuid = id.uuid → s.connections id' = some c →
      (∀ e ∈ c.inFlight, e.message.isOutcome = false) ∧
      (id' ≠ id → c.call.isGET = true → c.phase.isOpen = true →
        ∀ k : ContextKey, channelOf P c.resource ≠ some k.broadcasterId)
  | _ => True

/-! ## Nothing is left behind -/

/-- Whatever can write the status of a uuid was let through since its last
disconnect. -/
structure Fresh (P : Platform) (s : State) : Prop where
  begun : ∀ u, s.status u ≠ .unavailable → s.begun u
  opened : ∀ id c (k : ContextKey), s.connections id = some c → c.call.isGET = true →
    c.phase.isOpen = true → channelOf P c.resource = some k.broadcasterId → s.admittedSince id
  hearing : ∀ id c e, s.connections id = some c → e ∈ c.inFlight → e.message.isOutcome = true →
    s.admittedSince id

section

variable {P : Platform} {s t : State} {m : Move}

/-- A step that is no disconnect of the uuid only adds to what happened since. -/
theorem Effect.since (h : Effect P s m t) {u : String}
    (hm : ∀ id, m = .disconnect id → id.uuid ≠ u) :
    ∃ es, t.history = es ++ s.history ∧ t.since u = es ++ s.since u ∧
      ∀ e ∈ es, Records P s m e := by
  obtain ⟨es, hes, hrec⟩ := h.history
  refine ⟨es, hes, ?_, hrec⟩
  have hall : ∀ e ∈ es, (!e.endsSession u) = true := by
    intro e he
    cases hrec e he with
    | @disconnected id c hc hphase => simpa [Event.endsSession] using hm id rfl
    | _ => rfl
  rw [State.since, hes, List.takeWhile_append_of_pos hall, State.since]

theorem Effect.mem_since (h : Effect P s m t) {u : String}
    (hm : ∀ id, m = .disconnect id → id.uuid ≠ u) {e : Event} (he : e ∈ s.since u) :
    e ∈ t.since u := by
  obtain ⟨es, -, hs, -⟩ := h.since hm
  rw [hs]
  exact List.mem_append_right _ he

theorem State.admittedSince.mono (h : Effect P s m t) {id : ResourceId}
    (hm : ∀ id', m = .disconnect id' → id'.uuid ≠ id.uuid) (hs : s.admittedSince id) :
    t.admittedSince id := by
  obtain ⟨endpoint, v, he⟩ := hs
  exact ⟨endpoint, v, h.mem_since hm he⟩

/-- An inspection is recorded in the step itself. -/
theorem inspected_since {id : ResourceId} {header : Option String} {call : Call}
    (h : Effect P s (.inspect id header call) t) :
    .inspected id call (s.status id.uuid) (inspect.run (s.sessions id.uuid)).1 ∈
      t.since id.uuid := by
  cases h with
  | inspected => simp [State.since, Event.endsSession]

/-- A disconnect closes one connection and removes the session of its uuid. -/
theorem Effect.disconnect {id : ResourceId} (h : Effect P s (.disconnect id) t) :
    ∃ c, s.connections id = some c ∧ t.status id.uuid = .unavailable ∧
      ∀ id' c', t.connections id' = some c' →
        (id' = id ∧ c' = { c with phase := .closed }) ∨
          (id' ≠ id ∧ s.connections id' = some c') := by
  cases h with
  | @disconnected id c hc hphase =>
    exact ⟨c, hc, by simp [State.put_status], fun _ _ => State.put_connections_eq_some.1⟩

/-- A status is only written by a request that enters the handshake, or through a `GET`
let through since the last disconnect. -/
theorem Fresh.status (h : Effect P s m t) (hwf : WellFormed P s) (hs : Fresh P s) {u : String}
    (hm : ∀ id, m = .disconnect id → id.uuid ≠ u) :
    t.status u = s.status u ∨
      (∃ id header call, m = .inspect id header call ∧ id.uuid = u ∧ t.status u = .authPending) ∨
      ∃ id, id.uuid = u ∧ t.admittedSince id := by
  have hheard : ∀ {id : ResourceId} {i : Nat} {c : Connection} {e : Envelope}, id.uuid = u →
      s.connections id = some c → c.passed[i]? = some e → e.message.isOutcome = true →
        ∃ id, id.uuid = u ∧ t.admittedSince id := by
    rintro id i c e rfl hc he hout
    exact ⟨id, rfl, (hs.hearing id c e hc (Connection.mem_inFlight_of_passed he) hout).mono h hm⟩
  cases h.status hwf.ok u with
  | same heq => exact .inl heq
  | entered hu _ heq => exact .inr (.inl ⟨_, _, _, rfl, hu, heq⟩)
  | succeeded hu hc _ he ht _ =>
    exact .inr (.inr (hheard hu hc he (by simp [Message.isOutcome, ht])))
  | failed hu hc _ he ht _ =>
    exact .inr (.inr (hheard hu hc he (by simp [Message.isOutcome, ht])))
  | removed hu => exact absurd hu (hm _ rfl)

theorem begun_of_effect (h : Effect P s m t) (hwf : WellFormed P s) (hs : Fresh P s) {u : String}
    (hst : t.status u ≠ .unavailable) : t.begun u := by
  have hm : ∀ id, m = .disconnect id → id.uuid ≠ u := by
    rintro id rfl rfl
    obtain ⟨-, -, hun, -⟩ := h.disconnect
    exact hst hun
  rcases hs.status h hwf hm with heq | ⟨id, header, call, rfl, hu, -⟩ | ⟨id, rfl, endpoint, v, he⟩
  · obtain ⟨id, call, v, action, hu, he⟩ := hs.begun u (heq ▸ hst)
    exact ⟨id, call, v, action, hu, h.mem_since hm he⟩
  · exact ⟨id, call, _, _, hu, hu ▸ inspected_since h⟩
  · exact ⟨id, _, v, _, rfl, he⟩

theorem opened_of_effect (h : Effect P s m t) (hs : Fresh P s) (hclean : DisconnectsClean P s m)
    {id : ResourceId} {c : Connection} {k : ContextKey} (hc : t.connections id = some c)
    (hget : c.call.isGET = true) (hopen : c.phase.isOpen = true)
    (hch : channelOf P c.resource = some k.broadcasterId) : t.admittedSince id := by
  rcases h.connection_cases hc with ⟨c₀, hc₀, hev⟩ | ⟨header, call, rfl, -, rfl⟩
  · rw [hev.call] at hget
    rw [channelOf, subscription_congr hev.uuid hev.header, ← channelOf] at hch
    have hopen₀ := hev.phase.isOpen hopen
    refine (hs.opened id c₀ k hc₀ hget hopen₀ hch).mono h ?_
    rintro id' rfl hu
    obtain ⟨c', -, -, hcases⟩ := h.disconnect
    rcases hcases id c hc with ⟨-, rfl⟩ | ⟨hne, -⟩
    · cases hopen
    · exact (hclean id c₀ hu.symm hc₀).2 hne hget hopen₀ k hch
  · cases call with
    | subscribe endpoint =>
      have hins := inspected_since h
      by_cases hgo : (inspect.run (s.sessions id.uuid)).1 = .continue
      · rw [hgo] at hins
        exact ⟨endpoint, _, hins⟩
      · rw [if_neg hgo] at hopen
        cases hopen
    | publish b => cases hget
    | broadcast ns b => cases hget

theorem hearing_of_effect (h : Effect P s m t) (hwf : WellFormed P s)
    (hplain : Requests PlainBody s) (hs : Fresh P s) (hclean : DisconnectsClean P s m)
    {id : ResourceId} {c : Connection} {e : Envelope} (hc : t.connections id = some c)
    (he : e ∈ c.inFlight) (hout : e.message.isOutcome = true) : t.admittedSince id := by
  have hm : ∀ id', m = .disconnect id' → id'.uuid ≠ id.uuid := by
    rintro id' rfl hu
    obtain ⟨c', hc', -, hcases⟩ := h.disconnect
    have hnone : e.message.isOutcome = false := by
      rcases hcases id c hc with ⟨rfl, rfl⟩ | ⟨-, hc₀⟩
      · exact (hclean id c' rfl hc').1 e he
      · exact (hclean id c hu.symm hc₀).1 e he
    simp [hnone] at hout
  obtain ⟨c₀, hc₀, hlive, he₀ | ⟨ch, i, q, -, hsub, hq, he₀⟩⟩ := h.inFlight hwf.ok hc he
  · exact (hs.hearing id c₀ e hc₀ he₀ hout).mono h hm
  · -- the channel of a suspended connection holds an outcome: it is the channel of a context
    obtain ⟨hsusp, hb⟩ := Connection.subscribed hsub
    have hG := hwf.queued ch q hq e (List.mem_of_getElem? he₀)
    obtain ⟨a, ho⟩ := hG.service hplain (Message.isHandshake_of_isOutcome hout)
    obtain ⟨k, rfl⟩ := hG.on_context ho hout
    have hj := Phase.joined_of_live hlive
    have hget := ((hwf.ok id c₀ hc₀).joined hj).1
    have hch : channelOf P c₀.resource = some k.broadcasterId := by
      rw [(hwf.ok id c₀ hc₀).channelOf_eq hj, hb]
    exact (hs.opened id c₀ k hc₀ hget (by simp [hsusp, Phase.isOpen]) hch).mono h hm

theorem fresh_initial : Fresh P State.initial where
  begun _ hst := (hst rfl).elim
  opened _ _ _ hc := by cases hc
  hearing _ _ _ hc := by cases hc

theorem fresh_of_effect_clean (h : Effect P s m t) (hwf : WellFormed P s)
    (hplain : Requests PlainBody s) (hs : Fresh P s) (hclean : DisconnectsClean P s m) :
    Fresh P t where
  begun _ hst := begun_of_effect h hwf hs hst
  opened _ _ _ hc hget hopen hch := opened_of_effect h hs hclean hc hget hopen hch
  hearing _ _ _ hc he hout := hearing_of_effect h hwf hplain hs hclean hc he hout

/-! ## A disconnect ends the authentication -/

theorem firstStarts_of_fresh (hs : Fresh P s) {id : ResourceId} {call : Call} :
    FirstStarts (.inspected id call (s.status id.uuid) (inspect.run (s.sessions id.uuid)).1)
      s.history := by
  intro hnone
  have hun : s.status id.uuid = .unavailable := by
    by_contra hst
    obtain ⟨id', call', v', action', hu, he⟩ := hs.begun _ hst
    exact hnone id' call' v' action' hu he
  exact ⟨hun, inspect_continue_iff.2 (.inl hun)⟩

theorem disconnectEnds_of_effect (h : Effect P s m t) (hwf : WellFormed P s) (hfresh : Fresh P s)
    (hs : DisconnectEnds s) : DisconnectEnds t where
  decided u hst := by
    have hm : ∀ id, m = .disconnect id → id.uuid ≠ u := by
      rintro id rfl rfl
      obtain ⟨-, -, hun, -⟩ := h.disconnect
      rw [hun] at hst
      simp at hst
    rcases hfresh.status h hwf hm with heq | ⟨id, header, call, -, -, heq⟩ | hnew
    · obtain ⟨id, hu, hsince⟩ := hs.decided u (heq ▸ hst)
      exact ⟨id, hu, hsince.mono h (hu ▸ hm)⟩
    · rw [heq] at hst
      simp at hst
    · exact hnew
  first := by
    cases m with
    | inspect id header call =>
      cases h with
      | inspected => exact ⟨firstStarts_of_fresh hfresh, hs.first⟩
    | _ =>
      obtain ⟨es, hes, hrec⟩ := h.history
      rw [hes]
      refine hs.first.append ?_
      intro e he pre
      cases hrec e he <;> trivial

/-- **A disconnect ends the authentication**, in runs where clients submit no handshake
types and every disconnect is clean: a decided status belongs to a `GET` let through
since the last disconnect of the uuid, and the first request after it finds
`UNAVAILABLE` and starts a handshake. -/
theorem disconnect_ends {as : List Move} (hplain : ∀ m ∈ as, m.Arrives PlainBody)
    (hclean : (service P).Along (DisconnectsClean P) State.initial as)
    (hrun : (service P).run as = some s) : DisconnectEnds s := by
  have hinit : DisconnectEnds State.initial :=
    ⟨fun _ hst => hst.elim (nomatch ·) (nomatch ·), trivial⟩
  have hinv : Fresh P s ∧ DisconnectEnds s := by
    refine service_invariant_over (I := fun s => Fresh P s ∧ DisconnectEnds s)
      ⟨fresh_initial, hinit⟩ ?_ hplain hclean hrun
    intro s m t hwf hreq hs _ hm h
    exact ⟨fresh_of_effect_clean h hwf hreq hs.1 hm, disconnectEnds_of_effect h hwf hs.1 hs.2⟩
  exact hinv.2

end

/-- A client disconnects while its outcome, already filtered, is on the way to the
listeners. -/
def outlivedRun : List Move :=
  [.inspect ⟨"a", 0⟩ (some (ContextKey.json ⟨1, .desktop, "t"⟩)) (.subscribe .message),
    .handle ⟨"a", 0⟩, .suspend ⟨"a", 0⟩, .take "/1/DESKTOP/t" 0, .filter ⟨"a", 0⟩ 0,
    .disconnect ⟨"a", 0⟩, .notify ⟨"a", 0⟩ 0]

set_option maxRecDepth 10000 in
/-- **An outcome outlives the disconnect**: the uuid is authenticated although nothing
was let through since. -/
theorem disconnect_outlived :
    ¬ ∀ (P : Platform) (as : List Move) (s : State), (∀ m ∈ as, m.Arrives PlainBody) →
      (service P).run as = some s → DisconnectEnds s := by
  intro hall
  obtain ⟨s, hrun, hs⟩ := System.run_any (service (.reading [⟨1, .desktop, "t"⟩])) outlivedRun
    (fun s => decide (s.status "a" = .authSuccessful ∧
      s.since "a" = [.notified ⟨"a", 0⟩
        ⟨{ type := some .successfulAuthenticationResponse }, .service ⟨"a", 0⟩⟩])) (by decide)
  obtain ⟨hst, hsince⟩ := of_decide_eq_true hs
  obtain ⟨id, hu, endpoint, v, he⟩ := (hall _ _ s (by decide) hrun).decided "a" (.inl hst)
  rw [hu, hsince] at he
  simp at he

/-- The only request of a uuid that was let through disconnects cleanly once no
outcome is under way to it. -/
theorem disconnectsClean_of_only {P : Platform} {s : State} {id : ResourceId}
    (hwf : WellFormed P s)
    (honly : ∀ e ∈ s.history, ∀ id' ∈ e.admitted, id'.uuid = id.uuid → id' = id)
    (hquiet : ∀ c ∈ s.connections id, ∀ e ∈ c.inFlight, e.message.isOutcome = false) :
    DisconnectsClean P s (.disconnect id) := by
  intro id' c hu hc
  by_cases hd : c.phase = .dropped
  · obtain ⟨ho, hp⟩ := (hwf.ok id' c hc).quiet (by simp [hd, Phase.live])
    constructor
    · intro e he
      simp [Connection.inFlight, ho, hp] at he
    · intro _ _ hopen
      rw [hd] at hopen
      cases hopen
  · obtain rfl : id' = id := hwf.only honly hc hd hu
    exact ⟨hquiet c hc, fun hne => absurd rfl hne⟩

/-- A client authenticates and leaves. -/
def visitRun : List Move :=
  [.inspect ⟨"a", 0⟩ (some (ContextKey.json ⟨1, .desktop, "t"⟩)) (.subscribe .message),
    .handle ⟨"a", 0⟩, .suspend ⟨"a", 0⟩, .take "/1/DESKTOP/t" 0, .filter ⟨"a", 0⟩ 0,
    .notify ⟨"a", 0⟩ 0]

/-- It comes back. -/
def secondVisitRun : List Move :=
  [.inspect ⟨"a", 1⟩ (some (ContextKey.json ⟨1, .desktop, "t"⟩)) (.subscribe .message),
    .handle ⟨"a", 1⟩, .suspend ⟨"a", 1⟩, .take "/1/DESKTOP/t" 0, .filter ⟨"a", 1⟩ 0,
    .notify ⟨"a", 1⟩ 0]

set_option maxRecDepth 10000 in
theorem disconnect_ends_second : ∃ s,
    (service (.reading [⟨1, .desktop, "t"⟩])).run
        (visitRun ++ .disconnect ⟨"a", 0⟩ :: secondVisitRun) = some s ∧
      s.status "a" = .authSuccessful ∧ DisconnectEnds s := by
  -- only the disconnect itself has to be clean
  have hstays : ∀ (s : State) (as : List Move), (∀ m ∈ as, m.isDisconnect = false) →
      (service (.reading [⟨1, .desktop, "t"⟩])).Along
        (DisconnectsClean (.reading [⟨1, .desktop, "t"⟩])) s as := by
    intro s as has
    refine (System.along_of_forall has).mono ?_
    intro s m hm
    cases m with
    | disconnect id => cases hm
    | _ => trivial
  obtain ⟨s₀, hbefore, hs₀⟩ := System.run_any (service (.reading [⟨1, .desktop, "t"⟩])) visitRun
    (fun s => decide ((∀ e ∈ s.history, ∀ id' ∈ e.admitted, id'.uuid = "a" → id' = ⟨"a", 0⟩) ∧
      ∀ c ∈ s.connections ⟨"a", 0⟩, ∀ e ∈ c.inFlight, e.message.isOutcome = false)) (by decide)
  obtain ⟨honly, hquiet⟩ := of_decide_eq_true hs₀
  have hclean : (service (.reading [⟨1, .desktop, "t"⟩])).Along
      (DisconnectsClean (.reading [⟨1, .desktop, "t"⟩])) State.initial
      (visitRun ++ .disconnect ⟨"a", 0⟩ :: secondVisitRun) := by
    refine System.along_append.2 ⟨hstays _ _ (by decide), ?_⟩
    intro t ht
    have heq : some s₀ = some t := hbefore.symm.trans ht
    cases heq
    refine ⟨disconnectsClean_of_only (wellFormed_run hbefore) honly hquiet, ?_⟩
    intro t' _
    exact hstays t' _ (by decide)
  obtain ⟨s, hrun, hs⟩ := System.run_any (service (.reading [⟨1, .desktop, "t"⟩]))
    (visitRun ++ .disconnect ⟨"a", 0⟩ :: secondVisitRun)
    (fun s => decide (s.status "a" = .authSuccessful)) (by decide)
  exact ⟨s, hrun, of_decide_eq_true hs, disconnect_ends (by decide) hclean hrun⟩

end Amps
