import Amps.Security.Publishing
import Amps.Delivery.Heard
import Amps.Delivery.Refinement

/-!
# Sessions without an accepted context

A client that never presents an accepted context, such as one that sends no
`HtServiceRequestContext` header at all, is told of its error and no more.

* `Estranged` — what the requests of such a session are like.
* `strangers_stay_out` — **it is never authenticated and never heard**: its status stays
  `UNAVAILABLE` or `AUTH_PENDING`, none of its messages is put on a channel, and nobody hears
  of it, as long as it does not start with a `POST` and no client submits a message of a
  handshake type.
* `strangers_hear_errors` — **among themselves they hear of nothing else**: where nobody
  presents an accepted context or submits a handshake type, no client is ever heard.
-/

namespace Amps

open Transition

/-- The session `u` presents no accepted context, and no `POST` of it meets a session that is
unavailable. -/
def Estranged (P : Platform) (u : String) (s : State) : Move → Prop
  | .inspect id header call => id.uuid = u →
      presented P header = none ∧ (s.status u = .unavailable → call.isGET = true)
  | _ => True

instance (P : Platform) (u : String) (s : State) : ∀ m, Decidable (Estranged P u s m)
  | .inspect id header call => inferInstanceAs (Decidable (id.uuid = u →
      presented P header = none ∧ (s.status u = .unavailable → call.isGET = true)))
  | .handle _ | .suspend _ | .take .. | .filter .. | .notify .. | .disconnect _ => isTrue trivial

/-- What estranged requests maintain. -/
structure Outside (P : Platform) (u : String) (s : State) : Prop where
  status : s.status u = .unavailable ∨ s.status u = .authPending
  context : ∀ id c, s.connections id = some c → id.uuid = u →
    presented P c.resource.contextHeader = none
  gets : ∀ id c, s.connections id = some c → id.uuid = u → c.phase ≠ .dropped →
    c.call.isGET = true
  unpublished : ∀ e ∈ s.history, ∀ id ∈ e.publisher, id.uuid ≠ u

section

variable {P : Platform} {u : String} {s t : State} {m : Move}

/-- **No outcome is under way to such a session**: outcomes travel on the channels of
contexts, and its connections sit on the channel of its uuid. -/
theorem no_outcome_of_outside (hwf : WellFormed P s) (hplain : Requests PlainBody s)
    (hu : ∀ k : ContextKey, u ≠ k.broadcasterId) (hs : Outside P u s) {id : ResourceId}
    {c : Connection} {e : Envelope} (hid : id.uuid = u) (hc : s.connections id = some c)
    (he : e ∈ c.passed) : e.message.isOutcome = false := by
  by_contra hout
  rw [Bool.not_eq_false] at hout
  obtain ⟨a, k, -, hb, hj, -⟩ :=
    outcome_of_inFlight hwf hplain hc (List.mem_append_right _ he) hout
  have hfall := (hwf.ok id c hc).fallback hj (hs.context id c hc hid)
  rw [hb, Option.some.injEq] at hfall
  exact hu k (hid.symm.trans hfall.symm)

theorem outside_status (h : Effect P s m t) (hwf : WellFormed P s)
    (hplain : Requests PlainBody s) (hu : ∀ k : ContextKey, u ≠ k.broadcasterId)
    (hs : Outside P u s) : t.status u = .unavailable ∨ t.status u = .authPending := by
  cases h.status hwf.ok u with
  | same hst =>
    rw [hst]
    exact hs.status
  | entered hid hun hst => exact .inr hst
  | succeeded hid hc hrec he hmt hst =>
    have hno := no_outcome_of_outside hwf hplain hu hs hid hc (List.mem_of_getElem? he)
    simp [Message.isOutcome, hmt] at hno
  | failed hid hc hrec he hmt hst =>
    have hno := no_outcome_of_outside hwf hplain hu hs hid hc (List.mem_of_getElem? he)
    simp [Message.isOutcome, hmt] at hno
  | removed hid hst => exact .inl hst

theorem outside_of_effect (h : Effect P s m t) (hwf : WellFormed P s)
    (hplain : Requests PlainBody s) (hu : ∀ k : ContextKey, u ≠ k.broadcasterId)
    (hs : Outside P u s) (hm : Estranged P u s m) : Outside P u t where
  status := outside_status h hwf hplain hu hs
  context id c' hc' hid := by
    rcases h.connection_cases hc' with ⟨c, hc, hev⟩ | ⟨header, call, rfl, -, rfl⟩
    · rw [hev.header]
      exact hs.context id c hc hid
    · exact (hm hid).1
  gets id c' hc' hid hd := by
    rcases h.connection_cases hc' with ⟨c, hc, hev⟩ | ⟨header, call, rfl, -, rfl⟩
    · rw [hev.call]
      exact hs.gets id c hc hid fun hdc => hd (hev.phase.dropped.2 hdc)
    · -- what the gate lets through meets an unavailable session
      have hcont : (inspect.run (s.sessions id.uuid)).1 = .continue := by
        by_contra hskip
        exact hd (if_neg hskip)
      rcases inspect_continue_iff.1 hcont with hun | hyes
      · exact (hm hid).2 (hid ▸ hun)
      · have hstatus : s.status u = .authSuccessful := hid ▸ hyes
        rcases hs.status with hst | hst <;> rw [hst] at hstatus <;> cases hstatus
  unpublished e he id hid := by
    rcases h.records he with he | hrec
    · exact hs.unpublished e he id hid
    · intro hidu
      cases hrec with
      | published hc hphase hcall hsub =>
        cases hid
        have hget := hs.gets _ _ hc hidu (by simp [hphase])
        rw [hcall] at hget
        cases hget
      | broadcasted hc hphase hcall =>
        cases hid
        have hget := hs.gets _ _ hc hidu (by simp [hphase])
        rw [hcall] at hget
        cases hget
      | _ => cases hid

theorem outside_initial : Outside P u State.initial where
  status := .inl rfl
  context _ _ hc := by cases hc
  gets _ _ hc := by cases hc
  unpublished _ he := by cases he

/-- A client without a context header joins and posts, next to one that is authenticated. -/
def strangerRun : List Move :=
  [.inspect ⟨"w", 0⟩ none (.subscribe .message), .handle ⟨"w", 0⟩, .suspend ⟨"w", 0⟩,
    .inspect ⟨"a", 0⟩ (some (ContextKey.json ⟨1, .desktop, "t"⟩)) (.subscribe .message),
    .handle ⟨"a", 0⟩, .suspend ⟨"a", 0⟩, .take "/1/DESKTOP/t" 0, .filter ⟨"a", 0⟩ 0,
    .notify ⟨"a", 0⟩ 0, .inspect ⟨"w", 1⟩ none (.publish {}), .take "w" 0, .filter ⟨"w", 0⟩ 0,
    .notify ⟨"w", 0⟩ 0, .inspect ⟨"w", 2⟩ none (.subscribe .message),
    .inspect ⟨"w", 3⟩ none (.publish {})]

/-- The request presents no accepted context. -/
def NoContext (P : Platform) (_ : ResourceId) (header : Option String) (_ : Call) : Prop :=
  presented P header = none

instance (P : Platform) (id : ResourceId) (header : Option String) (call : Call) :
    Decidable (NoContext P id header call) :=
  inferInstanceAs (Decidable (presented P header = none))

/-- Nobody is authenticated, and only handshake messages pass the filter. -/
structure Silent (s : State) : Prop where
  status : ∀ u, s.status u ≠ .authSuccessful
  passed : ∀ id c, s.connections id = some c → ∀ e ∈ c.passed, e.message.isHandshake = true
  heard : ∀ id e, .notified id e ∈ s.history → e.message.isHandshake = true

/-- Where nobody presents a context, the service announces context errors. -/
theorem contextError_of_received (hwf : WellFormed P s) (hplain : Requests PlainBody s)
    (hno : Requests (NoContext P) s) {id : ResourceId} {ch : String} {e : Envelope}
    (hR : Received P s id ch e) (hh : e.message.isHandshake = true) :
    ∃ a, e.origin = .service a ∧ e.message.type = some .contextErrorResponse ∧
      a.uuid = id.uuid := by
  obtain ⟨a, ho⟩ := hR.1.service hplain hh
  have hG := hR.1
  unfold Genuine at hG
  rw [ho] at hG
  obtain ⟨ca, la, hca, hlivea, hsub, hm⟩ := hG
  have hnone : presented P ca.resource.contextHeader = none := hno a ca hca
  rcases outcome_cases hsub hm with ⟨k, hk, -⟩ | ⟨k, hk, -⟩ | ⟨-, hch, ht⟩
  · rw [hnone] at hk
    cases hk
  · rw [hnone] at hk
    cases hk
  · -- both connections sit on the channel of their uuid
    obtain ⟨-, c, hc, hlive, hb⟩ := hR
    have hfall := (hwf.ok id c hc).fallback (Phase.joined_of_live hlive) (hno id c hc)
    rw [hb, Option.some.injEq, hch, (hwf.ok a ca hca).uuid] at hfall
    exact ⟨a, ho, ht, hfall⟩

theorem silent_of_effect (h : Effect P s m t) (hwf : WellFormed P s)
    (hplain : Requests PlainBody s) (hno : Requests (NoContext P) s) (hs : Silent s) :
    Silent t where
  status u := by
    cases h.status hwf.ok u with
    | same hst =>
      rw [hst]
      exact hs.status u
    | @succeeded id i c e hid hc hrec he hmt hst =>
      obtain ⟨ch, hR⟩ := hwf.inFlight id c hc e (Connection.mem_inFlight_of_passed he)
      obtain ⟨a, -, ht, -⟩ := contextError_of_received hwf hplain hno hR
        (hs.passed id c hc e (List.mem_of_getElem? he))
      rw [hmt] at ht
      cases ht
    | entered hid hun hst | failed hid hc hrec he hmt hst | removed hid hst =>
      rw [hst]
      decide
  passed id c' hc' e he := by
    rcases h.passed_source hc' he with ⟨c, hc, he⟩ | ⟨i, rfl, hpass, -⟩
    · exact hs.passed id c hc e he
    · simpa [Message.passes, hs.status id.uuid] using hpass
  heard id e hev := by
    rcases h.records hev with hev | hrec
    · exact hs.heard id e hev
    · cases hrec with
      | notified hc hrec he => exact hs.passed id _ hc e (List.mem_of_getElem? he)

/-- **Strangers among themselves hear only of their errors.**  When nobody presents an accepted
context or submits a message of a handshake type, nobody ever hears a client: every message
that is heard is a `CONTEXT_ERROR_RESPONSE` of the service, announced for the same session. -/
theorem strangers_hear_errors {as : List Move} (hplain : ∀ m ∈ as, m.Arrives PlainBody)
    (hno : ∀ m ∈ as, m.Arrives (NoContext P)) (hrun : (service P).run as = some s)
    {id : ResourceId} {e : Envelope} (hheard : .notified id e ∈ s.history) :
    ∃ a, e.origin = .service a ∧ e.message.type = some .contextErrorResponse ∧
      a.uuid = id.uuid := by
  have hinit : Silent State.initial :=
    { status := fun _ hun => by cases hun
      passed := fun _ _ hc => by cases hc
      heard := fun _ _ hev => by cases hev }
  have hs : Silent s := service_invariant_over hinit
    (fun s m t hwf hreq hs _ _ h => silent_of_effect h hwf
      (fun id c hc => (hreq id c hc).1) (fun id c hc => (hreq id c hc).2) hs)
    (fun m hm => (hplain m hm).and (hno m hm))
    (System.along_of_forall (C := fun _ => True) fun _ _ => trivial) hrun
  have hwf := wellFormed_run hrun
  obtain ⟨ch, hR⟩ := hwf.notified id e hheard
  exact contextError_of_received hwf (requests_run hplain hrun) (requests_run hno hrun) hR
    (hs.heard id e hheard)

/-- Two clients without a context header: one posts before it joins and is shut out, the other
is told of its error. -/
def headerlessRun : List Move :=
  [.inspect ⟨"v", 0⟩ none (.publish {}), .handle ⟨"v", 0⟩,
    .inspect ⟨"w", 0⟩ none (.subscribe .message), .handle ⟨"w", 0⟩, .suspend ⟨"w", 0⟩,
    .take "w" 0, .filter ⟨"w", 0⟩ 0, .inspect ⟨"v", 1⟩ none (.subscribe .message),
    .notify ⟨"w", 0⟩ 0]

set_option maxRecDepth 10000 in
theorem strangers_hear_errors_headerless : ∃ s id e,
    (service (.reading [])).run headerlessRun = some s ∧ .notified id e ∈ s.history ∧
      ∃ a, e.origin = .service a ∧ e.message.type = some .contextErrorResponse ∧
        a.uuid = id.uuid := by
  obtain ⟨s, hrun, hs⟩ := System.run_any (service (.reading [])) headerlessRun
    (fun s => decide (s.heard ⟨"w", 0⟩ ≠ [])) (by decide)
  obtain ⟨e, he⟩ := List.exists_mem_of_ne_nil _ (of_decide_eq_true hs)
  have hheard := State.mem_heard.1 he
  exact ⟨s, ⟨"w", 0⟩, e, hrun, hheard, strangers_hear_errors (by decide) (by decide) hrun hheard⟩

end

end Amps
