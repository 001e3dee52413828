import Amps.Delivery.History
import Amps.Delivery.Channels
import Amps.Security.Addressing

/-!
# What a client hears

A client first gets the entity `doGET` returns, a `SUSPEND_RESPONSE` that no listener hears,
and then the broadcasts that reach the listeners of its connection.

* `outcomeOf` — the outcome `doGET` computes for a request header.
* `first_heard` — **a session first hears of its own handshake**: the first broadcast that
  reaches it is the outcome its own context has, whatever else happens on its channel.
* `heard_within` — **a client's message stays among its addressees**: a `POST` is heard on
  connections of the same context, a broadcast to `/u/D/*` on the devices of that user and
  type.
-/

namespace Amps

open Transition

/-- The outcome `doGET` computes for a request header. -/
def outcomeOf (P : Platform) (header : Option String) : MessageType :=
  match presented P header with
  | some k => k.outcome
  | none => .contextErrorResponse

/-- Every publication of the history is that of a request, on the channel of its context or
under the namespace it names. -/
structure Placed (P : Platform) (s : State) : Prop where
  published : ∀ a ch v m, .published a ch v m ∈ s.history →
    ∃ c, s.connections a = some c ∧ c.call = .publish m ∧ channelOf P c.resource = some ch
  broadcasted : ∀ a ns v m, .broadcasted a ns v m ∈ s.history →
    ∃ c, s.connections a = some c ∧ c.call = .broadcast (some ns) m

section

variable {P : Platform} {s t : State} {m : Move} {id a : ResourceId} {ch : String} {e : Envelope}
  {c : Connection}

/-! ## The first message -/

/-- A session is authenticated only by what one of its connections heard. -/
theorem notified_of_replay {u : String} {pre : List Event}
    (h : replay u pre = .authSuccessful) : ∃ id e, .notified id e ∈ pre ∧ id.uuid = u := by
  induction pre with
  | nil => cases h
  | cons ev pre ih =>
    have hold : replay u pre = .authSuccessful →
        ∃ id e, Event.notified id e ∈ ev :: pre ∧ id.uuid = u := by
      intro hpre
      obtain ⟨id, e, hmem, hu⟩ := ih hpre
      exact ⟨id, e, List.mem_cons_of_mem _ hmem, hu⟩
    simp only [replay] at h
    cases ev with
    | notified id e =>
      by_cases hu : id.uuid = u
      · exact ⟨id, e, List.mem_cons_self, hu⟩
      · simp only [Event.sets, hu, if_false] at h
        exact hold h
    | inspected id call w b =>
      simp only [Event.sets] at h
      split at h
      · cases h
      · exact hold h
    | disconnected id =>
      simp only [Event.sets] at h
      split at h
      · cases h
      · exact hold h
    | checked | suspended | published | broadcasted | filtered => exact hold h

/-- **What the first message is.**  Before a session heard anything, the filter of its
connections lets only handshake messages pass. -/
theorem handshake_of_first {post pre : List Event} (ha : Audited P s)
    (hsplit : s.history = post ++ .notified id e :: pre)
    (hfirst : ∀ id' e', .notified id' e' ∈ pre → id'.uuid ≠ id.uuid) :
    e.message.isHandshake = true := by
  have hj := ha.justified
  rw [hsplit] at hj
  obtain ⟨⟨ch, v, hfiltered⟩, hpre⟩ := hj.split
  obtain ⟨post', pre', hpre'⟩ := List.append_of_mem hfiltered
  rw [hpre'] at hpre
  obtain ⟨⟨-, -, hv, hpass⟩, -⟩ := hpre.split
  rw [Eq.comm, Bool.not_eq_false', Message.passes, Bool.or_eq_true, decide_eq_true_eq] at hpass
  refine hpass.resolve_right ?_
  intro hsuccess
  obtain ⟨id', e', hmem, hu⟩ := notified_of_replay (hv.symm.trans hsuccess)
  refine hfirst id' e' ?_ hu
  rw [hpre']
  exact List.mem_append_right _ (List.mem_cons_of_mem _ hmem)

/-- A connection that hears the service hears the outcome of its own header. -/
theorem Received.outcomeOf (hwf : WellFormed P s) (halone : Requests (GetFallsBackAlone P) s)
    (hR : Received P s id ch e) (ho : e.origin = .service a) (hc : s.connections id = some c) :
    e.message.type = some (Amps.outcomeOf P c.resource.contextHeader) := by
  obtain ⟨hlive, hb⟩ := hR.connection hc
  obtain ⟨-, ch', l, hsub, hb', -⟩ := (hwf.ok id c hc).live hlive
  obtain ⟨o, hl⟩ := onSuspend_of_subscription hsub
  rw [hb, Option.some.injEq] at hb'
  subst hb'
  rw [hR.outcome hwf.ok halone ho hc hsub hl, Amps.outcomeOf]
  rcases outcome_cases hsub hl with ⟨k, hk, -, hd, ht⟩ | ⟨k, hk, -, hd, ht⟩ | ⟨hk, -, ht⟩
  · rw [ht, hk]
    exact congrArg some (ContextKey.outcome_successful.2 hd).symm
  · rw [ht, hk]
    exact congrArg some (ContextKey.outcome_failed.2 hd).symm
  · rw [ht, hk]

/-- The `GET` of a connection that suspended was answered with a `SUSPEND_RESPONSE`. -/
theorem response_of_live (hok : c.Ok P id) (hlive : c.phase.live = true) (f : BroadcasterFactory) :
    (doGET P f (id.resource c.resource.contextHeader)).1 =
      .ok ⟨200, { type := some .suspendResponse }⟩ := by
  obtain ⟨-, ch, l, hsub, -⟩ := hok.live hlive
  have hsub' : subscription P (id.resource c.resource.contextHeader) = some (ch, l) := by
    rw [← hsub]
    exact subscription_congr hok.uuid.symm rfl
  rw [doGET_eq, hsub']

/-- Somebody posts on the channel of a client before its outcome is announced; the client
hears the outcome. -/
def outcomeFirstRun : List Move :=
  [.inspect ⟨"a", 0⟩ (some (ContextKey.json ⟨1, .desktop, "t"⟩)) (.subscribe .message),
    .inspect ⟨"b", 0⟩ (some (ContextKey.json ⟨1, .desktop, "t"⟩)) (.publish {}),
    .handle ⟨"a", 0⟩, .handle ⟨"b", 0⟩, .suspend ⟨"a", 0⟩, .take "/1/DESKTOP/t" 0,
    .filter ⟨"a", 0⟩ 0, .take "/1/DESKTOP/t" 0, .filter ⟨"a", 0⟩ 0, .notify ⟨"a", 0⟩ 0]

/-- Did no session hear anything? -/
def silent (pre : List Event) : Bool :=
  pre.all fun ev => match ev with
    | .notified .. => false
    | _ => true

theorem placed_of_effect (h : Effect P s m t) (hs : Placed P s) : Placed P t where
  published a ch v b hev := by
    rcases h.records hev with hev | hrec
    · obtain ⟨c, hc, hcall, hch⟩ := hs.published a ch v b hev
      obtain ⟨c', hc', hev'⟩ := h.evolves hc
      exact ⟨c', hc', hev'.call.trans hcall, by rw [hev'.channelOf_eq, hch]⟩
    · cases hrec with
      | @published _ c _ _ l hc hphase hcall hsub =>
        obtain ⟨c', hc', hev'⟩ := h.evolves hc
        refine ⟨c', hc', hev'.call.trans hcall, ?_⟩
        rw [hev'.channelOf_eq, channelOf, hsub]
        rfl
  broadcasted a ns v b hev := by
    rcases h.records hev with hev | hrec
    · obtain ⟨c, hc, hcall⟩ := hs.broadcasted a ns v b hev
      obtain ⟨c', hc', hev'⟩ := h.evolves hc
      exact ⟨c', hc', hev'.call.trans hcall⟩
    · cases hrec with
      | broadcasted hc hphase hcall =>
        obtain ⟨c', hc', hev'⟩ := h.evolves hc
        exact ⟨c', hc', hev'.call.trans hcall⟩

theorem placed_run {as : List Move} (hrun : (service P).run as = some s) : Placed P s :=
  service_invariant (C := fun _ _ => True)
    { published := fun _ _ _ _ hev => by cases hev
      broadcasted := fun _ _ _ _ hev => by cases hev }
    (fun _ _ _ _ hs _ h => placed_of_effect h hs)
    (System.along_of_forall fun _ _ => trivial) hrun

/-- What a connection heard passed its filter, and somebody had put it on the channel. -/
theorem sent_of_heard (ha : Audited P s) (hheard : .notified id e ∈ s.history) :
    ∃ ch v, .filtered id ch e v false ∈ s.history ∧ Sent P ch e s.history := by
  obtain ⟨post, pre, hsplit⟩ := List.append_of_mem hheard
  have hj := ha.justified
  rw [hsplit] at hj
  obtain ⟨⟨ch, v, hfiltered⟩, hpre⟩ := hj.split
  obtain ⟨post', pre', hpre'⟩ := List.append_of_mem hfiltered
  rw [hpre'] at hpre
  obtain ⟨⟨-, hsent, -⟩, -⟩ := hpre.split
  have hsub : pre ⊆ s.history := by
    intro ev hev
    rw [hsplit]
    exact List.mem_append_right _ (List.mem_cons_of_mem _ hev)
  refine ⟨ch, v, hsub hfiltered, hsent.mono fun ev hev => hsub ?_⟩
  rw [hpre']
  exact List.mem_append_right _ (List.mem_cons_of_mem _ hev)

/-- A client's message that a connection heard was posted on the channel of the connection,
or broadcast under a namespace that matches it. -/
theorem client_heard {as : List Move} (hrun : (service P).run as = some s)
    (hheard : .notified id e ∈ s.history) (ho : e.origin = .client a) :
    ∃ c ca ch, s.connections id = some c ∧ s.connections a = some ca ∧
      channelOf P c.resource = some ch ∧
      ((ca.call = .publish e.message ∧ channelOf P ca.resource = some ch) ∨
        ∃ ns, ca.call = .broadcast (some ns) e.message ∧ P.matchesPath ns ch = true) := by
  have hwf := wellFormed_run hrun
  have hplaced := placed_run hrun
  obtain ⟨ch, v, hin, hsent⟩ := sent_of_heard (audited_run hrun) hheard
  obtain ⟨-, c, hc, hlive, hb⟩ := hwf.filtered id ch e v false hin
  have hch : channelOf P c.resource = some ch := by
    rw [(hwf.ok id c hc).channelOf_eq (Phase.joined_of_live hlive), hb]
  unfold Sent at hsent
  rw [ho] at hsent
  rcases hsent with ⟨w, hpub⟩ | ⟨ns, w, hbro, hmatch⟩
  · obtain ⟨ca, hca, hcall, hof⟩ := hplaced.published a ch w _ hpub
    exact ⟨c, ca, ch, hc, hca, hch, .inl ⟨hcall, hof⟩⟩
  · obtain ⟨ca, hca, hcall⟩ := hplaced.broadcasted a ns w _ hbro
    exact ⟨c, ca, ch, hc, hca, hch, .inr ⟨ns, hcall, hmatch⟩⟩

/-- The context of a request on the channel of a context. -/
theorem presented_of_channelOf {k : ContextKey} (hok : c.Ok P id)
    (hslash : startsWithSlash id.uuid = false)
    (hch : channelOf P c.resource = some k.broadcasterId) :
    presented P c.resource.contextHeader = some k := by
  rcases channelOf_cases hch with ⟨k', hk', heq⟩ | ⟨-, heq⟩
  · rw [hk', broadcasterId_inj.1 heq]
  · rw [hok.uuid] at heq
    rw [← heq, startsWithSlash_broadcasterId] at hslash
    cases hslash

/-- **A client's message stays among its addressees.**  A `POST` with an accepted context is
heard only on connections of that context, and a broadcast to `/u/D/*` only on connections of
the user `u` on a device of type `D`. -/
theorem heard_within {as : List Move} (hslash : ∀ m ∈ as, m.Arrives NoSlash)
    (hstar : StarMatchesAny P) (hrun : (service P).run as = some s)
    (hheard : .notified id e ∈ s.history) (ho : e.origin = .client a) :
    ∃ c ca, s.connections id = some c ∧ s.connections a = some ca ∧
      (∀ b k, ca.call = .publish b → presented P ca.resource.contextHeader = some k →
        presented P c.resource.contextHeader = some k) ∧
      ∀ u d b, ca.call = .broadcast (some (deviceNamespace u d)) b →
        ∃ k, presented P c.resource.contextHeader = some k ∧ k.userId = u ∧ k.deviceType = d := by
  have hwf := wellFormed_run hrun
  have hno := requests_run hslash hrun
  obtain ⟨c, ca, ch, hc, hca, hch, hsent⟩ := client_heard hrun hheard ho
  refine ⟨c, ca, hc, hca, ?_, ?_⟩
  · intro b k hcall hk
    rcases hsent with ⟨-, hof⟩ | ⟨ns, hns, -⟩
    · rw [channelOf_of_presented hk, Option.some.injEq] at hof
      exact presented_of_channelOf (hwf.ok id c hc) (hno id c hc) (hof ▸ hch)
    · rw [hcall] at hns
      cases hns
  · intro u d b hcall
    rcases hsent with ⟨hpub, -⟩ | ⟨ns, hns, hmatch⟩
    · rw [hcall] at hpub
      cases hpub
    · rw [hcall] at hns
      cases hns
      have hstarts := (hstar (deviceStem u d) ch (star_notMem_deviceStem u d)).1 hmatch
      rcases channelOf_cases hch with ⟨k, hk, rfl⟩ | ⟨-, rfl⟩
      · exact ⟨k, hk, deviceStem_starts.1 hstarts⟩
      · rw [(hwf.ok id c hc).uuid] at hstarts
        exact absurd hstarts (not_deviceStem_starts (hno id c hc))

end

/-- A client on a desktop authenticates, and an administrator broadcasts to the desktops of
its user. -/
def desktopRun : List Move :=
  [.inspect ⟨"a", 0⟩ (some (ContextKey.json ⟨7, .desktop, "t"⟩)) (.subscribe .message),
    .handle ⟨"a", 0⟩, .suspend ⟨"a", 0⟩, .take "/7/DESKTOP/t" 0, .filter ⟨"a", 0⟩ 0,
    .notify ⟨"a", 0⟩ 0,
    .inspect ⟨"p", 0⟩ (some (ContextKey.json ⟨7, .phi, "t"⟩))
      (.broadcast (some (deviceNamespace 7 .desktop)) {}),
    .handle ⟨"p", 0⟩, .take "/7/DESKTOP/t" 0, .filter ⟨"a", 0⟩ 0, .notify ⟨"a", 0⟩ 0]

/-- The platform they meet on. -/
def desktopPlatform : Platform :=
  (Platform.reading [⟨7, .desktop, "t"⟩, ⟨7, .phi, "t"⟩]).withStar

set_option maxRecDepth 10000 in
theorem heard_within_desktop : ∃ s c k, (service desktopPlatform).run desktopRun = some s ∧
    .notified ⟨"a", 0⟩ ⟨{}, .client ⟨"p", 0⟩⟩ ∈ s.history ∧ s.connections ⟨"a", 0⟩ = some c ∧
      presented desktopPlatform c.resource.contextHeader = some k ∧ k.userId = 7 ∧
      k.deviceType = .desktop := by
  obtain ⟨s, hrun, hs⟩ := System.run_any (service desktopPlatform) desktopRun
    (fun s => decide (.notified ⟨"a", 0⟩ ⟨{}, .client ⟨"p", 0⟩⟩ ∈ s.history) &&
      (s.connections ⟨"p", 0⟩).any fun c =>
        c.call = .broadcast (some (deviceNamespace 7 .desktop)) {}) (by decide)
  rw [Bool.and_eq_true, decide_eq_true_eq] at hs
  obtain ⟨c, ca, hc, hca, -, hdevices⟩ := heard_within (by decide)
    (starMatchesAny_withStar (.reading [⟨7, .desktop, "t"⟩, ⟨7, .phi, "t"⟩])) hrun hs.1 rfl
  obtain ⟨ca', hca', hcall⟩ := (Option.any_eq_true _ _).1 hs.2
  rw [hca, Option.some.injEq] at hca'
  subst hca'
  obtain ⟨k, hk, hu, hd⟩ := hdevices 7 .desktop {} (of_decide_eq_true hcall)
  exact ⟨s, c, k, hrun, hs.1, hc, hk, hu, hd⟩

end Amps
