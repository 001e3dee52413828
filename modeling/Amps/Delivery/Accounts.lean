import Amps.Delivery.Refinement

/-!
# What reaches a connection

The books of the broker, read as facts about the service.

* `service_refines` — a run of the service, read step by step, is a run of the broker.
* `reaches_once` — **at most once**: of all that waits on the channel of a connection, is
  under way to it, was heard by its listeners or kept from it by the filter, no two come
  from one listener or one `POST`, and nothing comes from anywhere else.
* `account_runFrom` — **nothing is lost**: while a connection is suspended, its account
  grows by exactly what is posted on its channel.
* `post_exactly_once` — what a `POST` puts on the channel of a suspended connection.
* `settled_run` — what a suspended connection settled, once nothing is waiting.
* `account_after_leaving` — what is still settled after a connection was resumed or
  disconnected was under way at that moment, and one that was resumed is reached by nothing
  any more.
-/

namespace Amps

open Transition

/-! ## The account of a connection -/

/-- All that waits for a connection on its channel, or reached it. -/
def State.account (s : State) (id : ResourceId) (ch : String) : List Envelope :=
  s.queued ch ++ (s.underway id ++ s.heard id ++ s.filteredOut id)

/-- What a run posts on a channel. -/
def postings (P : Platform) (s : State) (as : List Move) (ch : String) : List Envelope :=
  ((service P).trace (Move.reads P) s as).filterMap (Broker.Action.posts ch)

/-! ## Two sessions on one channel -/

/-- Two sessions share a channel and are authenticated, and the first publishes. -/
def commonRun : List Move :=
  let header := some (ContextKey.json ⟨1, .desktop, "t"⟩)
  [.inspect ⟨"a", 0⟩ header (.subscribe .message), .handle ⟨"a", 0⟩, .suspend ⟨"a", 0⟩,
    .take "/1/DESKTOP/t" 0, .filter ⟨"a", 0⟩ 0, .notify ⟨"a", 0⟩ 0,
    .inspect ⟨"b", 0⟩ header (.subscribe .message), .handle ⟨"b", 0⟩, .suspend ⟨"b", 0⟩,
    .take "/1/DESKTOP/t" 0, .filter ⟨"b", 0⟩ 0, .notify ⟨"b", 0⟩ 0,
    .inspect ⟨"a", 1⟩ header (.publish { type := some .contentCreated })]

/-- The `POST` runs, and the second session hears of it. -/
def commonPostRun : List Move :=
  [.handle ⟨"a", 1⟩, .take "/1/DESKTOP/t" 0, .filter ⟨"b", 0⟩ 0, .notify ⟨"b", 0⟩ 0]

/-- Is the connection suspended on the channel? -/
def State.listensOn (s : State) (id : ResourceId) (ch : String) : Bool :=
  (s.connections id).any (Connection.subscribedTo ch)

theorem State.listensOn_iff {s : State} {id : ResourceId} {ch : String} :
    s.listensOn id ch = true ↔ ∃ c, s.connections id = some c ∧ c.phase = .suspended ∧
      c.resource.broadcaster = some ch := by
  unfold State.listensOn
  cases hc : s.connections id <;> simp [Connection.subscribedTo]

/-! ## The books of a run -/

section

variable {P : Platform} {s t : State} {id : ResourceId} {ch : String} {c : Connection}
  {posted : String → Multiset Envelope}

theorem State.coe_reached (s : State) (id : ResourceId) :
    (s.ledger posted).reached id = ↑(s.underway id ++ s.heard id ++ s.filteredOut id) := rfl

theorem State.coe_account (s : State) (posted : String → Multiset Envelope) (id : ResourceId)
    (ch : String) : (s.account id ch : Multiset Envelope) =
      (s.ledger posted).queue ch + (s.ledger posted).reached id := rfl

/-- A connection that suspended has its channel as topic. -/
theorem State.topic_of_live (hc : s.connections id = some c) (hlive : c.phase.live = true)
    (hb : c.resource.broadcaster = some ch) : (s.ledger posted).topic id = some ch := by
  simp [hc, Connection.topic, hlive, hb]

/-- **The service refines the broker.** -/
theorem service_refines {as : List Move} (hrun : (service P).run as = some s) :
    ∃ posted, (Broker.broker ResourceId String Envelope).run
        ((service P).trace (Move.reads P) State.initial as) = some (s.ledger posted) ∧
      Posted P s posted := by
  obtain ⟨b, hb, -, posted, rfl, hp⟩ :=
    (refinement P).run (System.along_of_forall fun _ _ => trivial) hrun
  exact ⟨posted, hb, hp⟩

set_option maxRecDepth 10000 in
theorem service_refines_common : ∃ s posted,
    (service (.reading [⟨1, .desktop, "t"⟩])).run commonRun = some s ∧
      (Broker.broker ResourceId String Envelope).run
        ((service (.reading [⟨1, .desktop, "t"⟩])).trace
          (Move.reads (.reading [⟨1, .desktop, "t"⟩])) State.initial commonRun) =
            some (s.ledger posted) := by
  obtain ⟨s, hrun, -⟩ := System.run_any (service (.reading [⟨1, .desktop, "t"⟩])) commonRun
    (fun _ => true) (by decide)
  obtain ⟨posted, hbroker, -⟩ := service_refines hrun
  exact ⟨s, posted, hrun, hbroker⟩

/-- The refinement, from any state a run reaches. -/
theorem service_refines_from {as bs : List Move} (hbefore : (service P).run as = some s)
    (hrun : (service P).run (as ++ bs) = some t) :
    ∃ posted posted', (Broker.broker ResourceId String Envelope).runFrom (s.ledger posted)
        ((service P).trace (Move.reads P) s bs) = some (t.ledger posted') := by
  obtain ⟨b, -, hwf, posted, rfl, hp⟩ :=
    (refinement P).run (System.along_of_forall fun _ _ => trivial) hbefore
  obtain ⟨b', hb', -, posted', rfl, -⟩ :=
    (refinement P).runFrom (s := s) ⟨hwf, posted, rfl, hp⟩
      (System.along_of_forall fun _ _ => trivial) (System.runFrom_of_run_append hbefore hrun)
  exact ⟨posted, posted', hb'⟩

/-- All that waits for a connection or reached it was posted on its channel. -/
theorem account_le_posted {as : List Move} (hrun : (service P).run as = some s)
    (hc : s.connections id = some c) (hlive : c.phase.live = true)
    (hb : c.resource.broadcaster = some ch) :
    ∃ posted, (s.account id ch : Multiset Envelope) ≤ posted ch ∧ Posted P s posted := by
  obtain ⟨b, hbroker, -, posted, rfl, hp⟩ :=
    (refinement P).run (System.along_of_forall fun _ _ => trivial) hrun
  refine ⟨posted, ?_, hp⟩
  rw [s.coe_account posted]
  exact (Broker.accounted_run hbroker).bounded id ch (s.topic_of_live hc hlive hb)

/-- **At most once, and from nowhere else.** -/
theorem reaches_once {as : List Move} (hrun : (service P).run as = some s)
    (hc : s.connections id = some c) (hlive : c.phase.live = true)
    (hb : c.resource.broadcaster = some ch) :
    ((s.account id ch).map Envelope.origin).Nodup ∧ ∀ e ∈ s.account id ch, Genuine P s ch e := by
  obtain ⟨posted, hle, hp⟩ := account_le_posted hrun hc hlive hb
  obtain ⟨hgen, hnodup⟩ := hp ch
  constructor
  · have hmap := Multiset.map_le_map (f := Envelope.origin) hle
    exact Multiset.coe_nodup.1 (Multiset.nodup_of_le hmap hnodup)
  · intro e he
    exact hgen e (Multiset.mem_of_le hle he)

set_option maxRecDepth 10000 in
theorem reaches_once_common : ∃ s c,
    (service (.reading [⟨1, .desktop, "t"⟩])).run (commonRun ++ commonPostRun) = some s ∧
      s.connections ⟨"b", 0⟩ = some c ∧ (s.heard ⟨"b", 0⟩).length = 2 ∧
      ((s.account ⟨"b", 0⟩ "/1/DESKTOP/t").map Envelope.origin).Nodup := by
  obtain ⟨s, hrun, hs⟩ := System.run_any (service (.reading [⟨1, .desktop, "t"⟩]))
    (commonRun ++ commonPostRun)
    (fun s => s.listensOn ⟨"b", 0⟩ "/1/DESKTOP/t" && decide ((s.heard ⟨"b", 0⟩).length = 2))
    (by decide)
  rw [Bool.and_eq_true, decide_eq_true_eq, State.listensOn_iff] at hs
  obtain ⟨⟨c, hc, hphase, hb⟩, hheard⟩ := hs
  have hlive : c.phase.live = true := by simp [hphase, Phase.live]
  exact ⟨s, c, hrun, hc, hheard, (reaches_once hrun hc hlive hb).1⟩

/-- A connection that suspended keeps its channel. -/
theorem channel_runFrom {bs : List Move} (hc : s.connections id = some c)
    (hlive : c.phase.live = true) (hrun : (service P).runFrom s bs = some t) :
    ∃ c', t.connections id = some c' ∧ c'.phase.live = true ∧
      c'.resource.broadcaster = c.resource.broadcaster := by
  induction bs generalizing s c with
  | nil =>
    cases hrun
    exact ⟨c, hc, hlive, rfl⟩
  | cons m bs ih =>
    obtain ⟨u, hu, hrest⟩ := (service P).runFrom_cons_eq_some.1 hrun
    obtain ⟨c', hc', hev⟩ := (effect_of_step hu).evolves hc
    obtain ⟨c'', hc'', hlive'', hb⟩ := ih hc' (hev.phase.live hlive) hrest
    exact ⟨c'', hc'', hlive'', hb.trans (hev.channel hlive)⟩

/-- **Nothing is lost.**  While a connection is suspended, its account grows by what is
posted on its channel, and by nothing else. -/
theorem account_runFrom {as bs : List Move} (hbefore : (service P).run as = some s)
    (hrun : (service P).run (as ++ bs) = some t) (hc : s.connections id = some c)
    (hlive : c.phase.live = true) (hb : c.resource.broadcaster = some ch)
    (hstays : ∃ c', t.connections id = some c' ∧ c'.phase = .suspended) :
    (t.account id ch).Perm (postings P s bs ch ++ s.account id ch) := by
  obtain ⟨posted, posted', hbroker⟩ := service_refines_from hbefore hrun
  obtain ⟨c', hc', hphase⟩ := hstays
  have hlistens : (t.ledger posted').listening id = true := by
    simp [hc', Connection.listens, hphase]
  obtain ⟨-, hsum⟩ :=
    Broker.due_runFrom (s.topic_of_live hc hlive hb) hbroker hlistens
  exact Multiset.coe_eq_coe.1 hsum

/-- What a `POST` that is about to run submits reaches the channel. -/
def Connection.submits (P : Platform) (c : Connection) (ch : String) (b : Message) : Prop :=
  c.phase = .admitted ∧ (c.call = .publish b ∧ channelOf P c.resource = some ch ∨
    ∃ ns, c.call = .broadcast (some ns) b ∧ P.matchesPath ns ch = true)

/-- **Exactly once.**  What a `POST` puts on the channel of a suspended connection is, as
long as the connection stays suspended, in one place of its account, and there once: it
waits, or is under way, or was heard, or was kept from it. -/
theorem post_exactly_once {as bs : List Move} {a : ResourceId} {ca : Connection} {b : Message}
    (hbefore : (service P).run as = some s) (hc : s.connections id = some c)
    (hphase : c.phase = .suspended) (hb : c.resource.broadcaster = some ch)
    (hca : s.connections a = some ca) (hsubmits : ca.submits P ch b)
    (hrun : (service P).run (as ++ .handle a :: bs) = some t)
    (hstays : ∃ c', t.connections id = some c' ∧ c'.phase = .suspended) :
    (t.account id ch).count ⟨b, .client a⟩ = 1 := by
  have hwf := wellFormed_run hbefore
  have hlive : c.phase.live = true := by simp [hphase, Phase.live]
  obtain ⟨u, hu, -⟩ := (service P).runFrom_cons_eq_some.1
    (System.runFrom_of_run_append hbefore hrun)
  have hposted : (⟨b, .client a⟩ : Envelope) ∈ postings P s (.handle a :: bs) ch := by
    rw [postings, System.trace_cons (Move.reads P) hu, List.filterMap_append]
    apply List.mem_append_left
    rcases hsubmits.2 with ⟨hcall, hch⟩ | ⟨ns, hcall, hmatch⟩
    · simp [Move.reads, hca, Connection.posts, hcall, hch, Broker.Action.posts]
    · have hexists : (s.factory ch).isSome = true :=
        Option.isSome_iff_ne_none.2 (hwf.created id c ch hc hb)
      simp [Move.reads, hca, Connection.posts, hcall, Broker.Action.posts,
        BroadcasterFactory.reaches, hmatch, hexists]
  have haccount := account_runFrom hbefore hrun hc hlive hb hstays
  have hmem : (⟨b, .client a⟩ : Envelope) ∈ t.account id ch :=
    haccount.mem_iff.2 (List.mem_append_left _ hposted)
  -- nothing is there twice
  obtain ⟨c', hc', hlive', hkeeps⟩ := channel_runFrom hc hlive
    (System.runFrom_of_run_append hbefore hrun)
  obtain ⟨posted, hle, hp⟩ := account_le_posted hrun hc' hlive' (hkeeps.trans hb)
  have honce := Multiset.nodup_of_le hle (Multiset.Nodup.of_map _ (hp ch).2)
  exact List.count_eq_one_of_mem (Multiset.coe_nodup.1 honce) hmem

set_option maxRecDepth 10000 in
theorem post_exactly_once_common : ∃ t,
    (service (.reading [⟨1, .desktop, "t"⟩])).run (commonRun ++ commonPostRun) = some t ∧
      (t.account ⟨"b", 0⟩ "/1/DESKTOP/t").count
        ⟨{ type := some .contentCreated }, .client ⟨"a", 1⟩⟩ = 1 := by
  obtain ⟨s, hbefore, hs⟩ := System.run_any (service (.reading [⟨1, .desktop, "t"⟩])) commonRun
    (fun s => s.listensOn ⟨"b", 0⟩ "/1/DESKTOP/t" && decide (s.connections ⟨"a", 1⟩ = some
      { resource := { uuid := "a", contextHeader := some (ContextKey.json ⟨1, .desktop, "t"⟩) }
        call := .publish { type := some .contentCreated }
        phase := .admitted })) (by decide)
  obtain ⟨t, hrun, ht⟩ := System.run_any (service (.reading [⟨1, .desktop, "t"⟩]))
    (commonRun ++ commonPostRun) (fun t => t.listensOn ⟨"b", 0⟩ "/1/DESKTOP/t") (by decide)
  rw [Bool.and_eq_true, decide_eq_true_eq, State.listensOn_iff] at hs
  obtain ⟨⟨c, hc, hphase, hb⟩, hca⟩ := hs
  obtain ⟨c', hc', hphase', -⟩ := State.listensOn_iff.1 ht
  exact ⟨t, hrun, post_exactly_once hbefore hc hphase hb hca
    ⟨rfl, .inl ⟨rfl, by decide⟩⟩ hrun ⟨c', hc', hphase'⟩⟩

/-! ## From the suspension on -/

/-- **What a suspended connection settled.**  Once nothing waits for it any more, its
listeners heard, or the filter kept from it, all that was queued on its channel when it
suspended and all that was posted there from then on, its own outcome included. -/
theorem settled_run {as bs : List Move} (hbefore : (service P).run as = some s)
    (hc : s.connections id = some c) (hphase : c.phase = .ready)
    (hb : c.resource.broadcaster = some ch)
    (hrun : (service P).run (as ++ .suspend id :: bs) = some t)
    (hstays : ∃ c', t.connections id = some c' ∧ c'.phase = .suspended)
    (hqueued : t.queued ch = []) (hunderway : t.underway id = []) :
    (t.heard id ++ t.filteredOut id).Perm
      (postings P s (.suspend id :: bs) ch ++ s.queued ch) := by
  obtain ⟨b, hbroker, hwf, posted, rfl, hp⟩ :=
    (refinement P).run (System.along_of_forall fun _ _ => trivial) hbefore
  obtain ⟨b', hafter, -, posted', rfl, -⟩ :=
    (refinement P).runFrom (s := s) ⟨hwf, posted, rfl, hp⟩
      (System.along_of_forall fun _ _ => trivial) (System.runFrom_of_run_append hbefore hrun)
  -- the suspension reads as a subscription, and then the outcome is posted
  obtain ⟨ch', l, o, hsub, hb', ho, -⟩ := (hwf.ok id c hc).fireOnSuspend hphase s.factory
  rw [hb, Option.some.injEq] at hb'
  subst hb'
  obtain ⟨u, hu, -⟩ := (service P).runFrom_cons_eq_some.1
    (System.runFrom_of_run_append hbefore hrun)
  have hsuspend : (Move.suspend id).reads P s =
      [.subscribe id ch, .post (fun ch' => ch' = ch) ⟨o, .service id⟩] := by
    simp [Move.reads, hc, Connection.subscribes, hsub, ho]
  have htrace : ∃ xs, (service P).trace (Move.reads P) s (.suspend id :: bs) =
      .subscribe id ch :: xs := by
    rw [System.trace_cons (Move.reads P) hu, hsuspend]
    exact ⟨_, rfl⟩
  obtain ⟨xs, hxs⟩ := htrace
  have hlistens : (t.ledger posted').listening id = true := by
    obtain ⟨c', hc', hphase'⟩ := hstays
    simp [hc', Connection.listens, hphase']
  have hnew : (s.ledger posted).topic id = none := by
    simp [hc, Connection.topic, hphase, Phase.live]
  have hposts : postings P s (.suspend id :: bs) ch = xs.filterMap (Broker.Action.posts ch) := by
    rw [postings, hxs]
    rfl
  have hreads : (refinement P).reads = Move.reads P := rfl
  rw [hreads, hxs] at hafter
  have hsum := Broker.due_subscribe (Broker.accounted_run hbroker) hnew hafter hlistens
  rw [hposts]
  apply Multiset.coe_eq_coe.1
  refine Eq.trans ?_ hsum
  rw [State.ledger_queue, t.coe_reached, hqueued, hunderway]
  exact (zero_add _).symm

/-- The second session asks for the channel. -/
def joiningRun : List Move := commonRun.take 8

/-- It suspends, and hears its outcome. -/
def hearingRun : List Move :=
  [.take "/1/DESKTOP/t" 0, .filter ⟨"b", 0⟩ 0, .notify ⟨"b", 0⟩ 0]

set_option maxRecDepth 10000 in
theorem settled_run_common : ∃ s t,
    (service (.reading [⟨1, .desktop, "t"⟩])).run joiningRun = some s ∧
      (service (.reading [⟨1, .desktop, "t"⟩])).run
        (joiningRun ++ .suspend ⟨"b", 0⟩ :: hearingRun) = some t ∧
      (t.heard ⟨"b", 0⟩ ++ t.filteredOut ⟨"b", 0⟩).Perm
        (postings (.reading [⟨1, .desktop, "t"⟩]) s (.suspend ⟨"b", 0⟩ :: hearingRun)
          "/1/DESKTOP/t" ++ s.queued "/1/DESKTOP/t") := by
  obtain ⟨s, hbefore, hs⟩ := System.run_any (service (.reading [⟨1, .desktop, "t"⟩])) joiningRun
    (fun s => (s.connections ⟨"b", 0⟩).any fun c =>
      c.phase = .ready && c.resource.broadcaster = some "/1/DESKTOP/t") (by decide)
  obtain ⟨t, hrun, ht⟩ := System.run_any (service (.reading [⟨1, .desktop, "t"⟩]))
    (joiningRun ++ .suspend ⟨"b", 0⟩ :: hearingRun)
    (fun t => t.listensOn ⟨"b", 0⟩ "/1/DESKTOP/t" &&
      decide (t.queued "/1/DESKTOP/t" = [] ∧ t.underway ⟨"b", 0⟩ = [])) (by decide)
  rw [Bool.and_eq_true, decide_eq_true_eq, State.listensOn_iff] at ht
  obtain ⟨⟨c', hc', hphase', -⟩, hqueued, hunderway⟩ := ht
  obtain ⟨c, hc, hready⟩ := (Option.any_eq_true _ _).1 hs
  rw [Bool.and_eq_true, decide_eq_true_eq, decide_eq_true_eq] at hready
  exact ⟨s, t, hbefore, hrun, settled_run hbefore hc hready.1 hready.2 hrun
    ⟨c', hc', hphase'⟩ hqueued hunderway⟩

/-! ## After a connection left -/

/-- The filter was asked about a message for the connection, or its listeners heard one. -/
def Event.reaches (id : ResourceId) : Event → Bool
  | .filtered id' _ _ _ _ => id' = id
  | .notified id' _ => id' = id
  | _ => false

/-- What a connection heard and what was kept from it is recorded when it is reached. -/
theorem State.Only.books (h : s.Only t fun ev => ev.reaches id = false) :
    t.heard id = s.heard id ∧ t.filteredOut id = s.filteredOut id := by
  obtain ⟨es, hes, hsilent⟩ := h
  have hheard : es.filterMap (Event.heardBy id) = [] := by
    rw [List.filterMap_eq_nil_iff]
    intro ev hev
    have hno := hsilent ev hev
    cases ev with
    | notified => exact if_neg (of_decide_eq_false hno)
    | _ => rfl
  have hkept : es.filterMap (Event.keptFrom id) = [] := by
    rw [List.filterMap_eq_nil_iff]
    intro ev hev
    have hno := hsilent ev hev
    cases ev with
    | filtered => exact if_neg fun hfrom => of_decide_eq_false hno hfrom.1
    | _ => rfl
  simp only [State.heard, State.filteredOut, hes, List.filterMap_append, hheard, hkept,
    List.nil_append, and_self]

/-- No step reaches a connection that was resumed. -/
theorem not_reaches_of_resumed {m : Move} (hc : s.connections id = some c)
    (hphase : c.phase = .resumed) {ev : Event} (hev : Records P s m ev) :
    ev.reaches id = false := by
  have hother : ∀ {id' c'}, s.connections id' = some c' → c'.receiving = true → id' ≠ id := by
    rintro id' c' hc' hrec rfl
    rw [hc, Option.some.injEq] at hc'
    rw [← hc', Connection.receiving, hphase] at hrec
    cases hrec
  cases hev with
  | filtered hc' hrec => exact decide_eq_false (hother hc' hrec)
  | notified hc' hrec => exact decide_eq_false (hother hc' hrec)
  | _ => rfl

/-- A connection that was resumed stays resumed, and is reached by nothing any more. -/
theorem silent_runFrom {as bs : List Move} (hbefore : (service P).run as = some s)
    (hafter : (service P).runFrom s bs = some t) (hc : s.connections id = some c)
    (hphase : c.phase = .resumed) : s.Only t fun ev => ev.reaches id = false := by
  have hinv : (∃ c', t.connections id = some c' ∧ c'.phase = .resumed) ∧
      s.Only t fun ev => ev.reaches id = false := by
    refine service_invariant_after
      (I := fun u => (∃ c', u.connections id = some c' ∧ c'.phase = .resumed) ∧
        s.Only u fun ev => ev.reaches id = false)
      ?_ (wellFormed_run hbefore) ⟨⟨c, hc, hphase⟩, .refl s _⟩ hafter
    rintro u m v - ⟨⟨c', hc', hphase'⟩, honly⟩ h
    obtain ⟨c'', hc'', hev⟩ := h.evolves hc'
    have hsteps : Phase.resumed.Steps c''.phase := hphase' ▸ hev.phase
    have hstays : c''.phase = .resumed := by
      rcases hsteps with hp | hp
      · exact hp
      · cases hp
    exact ⟨⟨c'', hc'', hstays⟩, honly.step h fun _ => not_reaches_of_resumed hc' hphase'⟩
  exact hinv.2

/-- **After a connection left**, what is still settled was under way when it left.  If it was
resumed, its filter is not asked again, its listeners hear nothing more, and so nothing is
settled any more. -/
theorem account_after_leaving {as bs : List Move} (hbefore : (service P).run as = some s)
    (hrun : (service P).run (as ++ bs) = some t) (hc : s.connections id = some c)
    (hlive : c.phase.live = true) (hleft : c.phase ≠ .suspended) :
    (t.underway id ++ t.heard id ++ t.filteredOut id).Perm
        (s.underway id ++ s.heard id ++ s.filteredOut id) ∧
      (c.phase = .resumed → (s.Only t fun ev => ev.reaches id = false) ∧
        t.heard id = s.heard id ∧ t.filteredOut id = s.filteredOut id) := by
  have hwf := wellFormed_run hbefore
  have hafter := System.runFrom_of_run_append hbefore hrun
  constructor
  · obtain ⟨-, ch, l, -, hb, -⟩ := (hwf.ok id c hc).live hlive
    obtain ⟨posted, posted', hbroker⟩ := service_refines_from hbefore hrun
    have hsilent : (s.ledger posted).listening id = false := by
      simp [hc, Connection.listens, hleft]
    exact Multiset.coe_eq_coe.1
      (Broker.left_runFrom (s.topic_of_live hc hlive hb) hsilent hbroker)
  · intro hresumed
    have honly := silent_runFrom hbefore hafter hc hresumed
    exact ⟨honly, honly.books⟩

/-- A client with the doomed token, resumed by its outcome while another message is under
way to it. -/
def turnedAwayRun : List Move :=
  let header := some (ContextKey.json ⟨1, .desktop, "FAILME"⟩)
  [.inspect ⟨"a", 0⟩ header (.subscribe .message), .handle ⟨"a", 0⟩, .suspend ⟨"a", 0⟩,
    .take "/1/DESKTOP/FAILME" 0, .filter ⟨"a", 0⟩ 0,
    .inspect ⟨"b", 0⟩ header (.publish { type := some .contentCreated }), .handle ⟨"b", 0⟩,
    .take "/1/DESKTOP/FAILME" 0, .notify ⟨"a", 0⟩ 0]

/-- What is posted then. -/
def afterwardsRun : List Move :=
  [.inspect ⟨"c", 0⟩ (some (ContextKey.json ⟨1, .desktop, "FAILME"⟩))
      (.publish { type := some .contentDeleted }),
    .handle ⟨"c", 0⟩, .take "/1/DESKTOP/FAILME" 0]

set_option maxRecDepth 10000 in
theorem account_after_leaving_resumed : ∃ s t,
    (service (.reading [⟨1, .desktop, "FAILME"⟩])).run turnedAwayRun = some s ∧
      (service (.reading [⟨1, .desktop, "FAILME"⟩])).run (turnedAwayRun ++ afterwardsRun) = some t ∧
      s.underway ⟨"a", 0⟩ ≠ [] ∧ (s.Only t fun ev => ev.reaches ⟨"a", 0⟩ = false) ∧
      t.heard ⟨"a", 0⟩ = s.heard ⟨"a", 0⟩ := by
  obtain ⟨s, hbefore, hs⟩ := System.run_any (service (.reading [⟨1, .desktop, "FAILME"⟩]))
    turnedAwayRun (fun s => decide (s.underway ⟨"a", 0⟩ ≠ []) &&
      (s.connections ⟨"a", 0⟩).any fun c => c.phase = .resumed) (by decide)
  obtain ⟨t, hrun, -⟩ := System.run_any (service (.reading [⟨1, .desktop, "FAILME"⟩]))
    (turnedAwayRun ++ afterwardsRun) (fun _ => true) (by decide)
  rw [Bool.and_eq_true, decide_eq_true_eq] at hs
  obtain ⟨c, hc, hresumed⟩ := (Option.any_eq_true _ _).1 hs.2
  have hphase := of_decide_eq_true hresumed
  have hleft := account_after_leaving hbefore hrun hc (by simp [hphase, Phase.live])
    (by simp [hphase])
  obtain ⟨honly, hheard, -⟩ := hleft.2 hphase
  exact ⟨s, t, hbefore, hrun, hs.1, honly, hheard⟩

end

end Amps
