import Amps.Delivery.Liveness
import Amps.Delivery.History

/-!
# Every handshake converges

What a session ends up with is decided by its token alone, whatever the order in which
requests, suspends and deliveries happen.

* `Steady` — clients that stay connected, present one accepted context for each session, start
  with a `GET` and submit no message of a handshake type.
* `Converging` — the invariant: a session is pending or at the verdict of its context, and
  until it is authenticated only handshake messages pass its filter.
* `handshake_converges` — **in a fair execution every session that sent a request reaches the
  verdict of its context, and stays there**.
-/

namespace Amps

open Transition

/-- The status the check of a context leads to. -/
def ContextKey.verdict (k : ContextKey) : Status :=
  if k.doomed then .authFailed else .authSuccessful

/-- Every request of a session presents its context `K`, the first one is a `GET`, bodies
are plain, and nobody disconnects. -/
def Steady (P : Platform) (K : String → ContextKey) (s : State) : Move → Prop
  | .inspect id header call => presented P header = some (K id.uuid) ∧ PlainBody id header call ∧
      (s.status id.uuid = .unavailable → call.isGET = true)
  | .disconnect _ => False
  | _ => True

instance (P : Platform) (K : String → ContextKey) (s : State) : ∀ m, Decidable (Steady P K s m)
  | .inspect id header call => inferInstanceAs (Decidable (presented P header = some (K id.uuid) ∧
      PlainBody id header call ∧ (s.status id.uuid = .unavailable → call.isGET = true)))
  | .disconnect _ => isFalse id
  | .handle _ | .suspend _ | .take .. | .filter .. | .notify .. => isTrue trivial

/-- What steady clients maintain. -/
structure Converging (P : Platform) (K : String → ContextKey) (s : State) : Prop where
  context : ∀ id c, s.connections id = some c →
    presented P c.resource.contextHeader = some (K id.uuid)
  plain : Requests PlainBody s
  status : ∀ u, s.status u = .unavailable ∨ s.status u = .authPending ∨
    s.status u = (K u).verdict
  passed : ∀ id c, s.connections id = some c → s.status id.uuid ≠ .authSuccessful →
    ∀ e ∈ c.passed, e.message.isHandshake = true

section

variable {P : Platform} {K : String → ContextKey} {s t : State} {m : Move} {id : ResourceId}
  {c : Connection} {e : Envelope}

theorem ContextKey.verdict_ne (k : ContextKey) :
    k.verdict ≠ .unavailable ∧ k.verdict ≠ .authPending := by
  unfold ContextKey.verdict
  cases k.doomed <;> simp

theorem ContextKey.verdict_successful {k : ContextKey} :
    k.verdict = .authSuccessful ↔ k.outcome = .successfulAuthenticationResponse := by
  unfold ContextKey.verdict ContextKey.outcome
  cases k.doomed <;> simp

theorem ContextKey.verdict_failed {k : ContextKey} :
    k.verdict = .authFailed ↔ k.outcome = .failedAuthenticatedResponse := by
  unfold ContextKey.verdict ContextKey.outcome
  cases k.doomed <;> simp

/-- What the service announces to a connection is the outcome of its context. -/
theorem outcome_of_handshake (hwf : WellFormed P s) (hs : Converging P K s)
    (hc : s.connections id = some c) (he : e ∈ c.passed) (hh : e.message.isHandshake = true) :
    e.message.type = some (K id.uuid).outcome := by
  obtain ⟨ch, hR⟩ := hwf.inFlight id c hc e (List.mem_append_right _ he)
  obtain ⟨hlive, hb⟩ := hR.connection hc
  obtain ⟨a, ho⟩ := hR.1.service hs.plain hh
  have hch := (hwf.ok id c hc).channel (Phase.joined_of_live hlive) (hs.context id c hc)
  rw [hb, Option.some.injEq] at hch
  subst hch
  have hG := hR.1
  unfold Genuine at hG
  rw [ho] at hG
  obtain ⟨ca, la, hca, hlivea, hsub, hm⟩ := hG
  rcases outcome_cases hsub hm with ⟨k, -, hk, hd, ht⟩ | ⟨k, -, hk, hd, ht⟩ | ⟨hnone, -⟩
  · rw [broadcasterId_inj.1 hk, ht, ContextKey.outcome_successful.2 hd]
  · rw [broadcasterId_inj.1 hk, ht, ContextKey.outcome_failed.2 hd]
  · rw [hs.context a ca hca] at hnone
    cases hnone

/-- **An outcome brings its session to the verdict.**  Before the session is authenticated
nothing else passes, and afterwards it is at the verdict already. -/
theorem verdict_of_status (h : Effect P s m t) (hwf : WellFormed P s) (hs : Converging P K s)
    (hm : Steady P K s m) (u : String) :
    t.status u = s.status u ∨ (s.status u = .unavailable ∧ t.status u = .authPending) ∨
      t.status u = (K u).verdict := by
  cases h.status hwf.ok u with
  | same hst => exact .inl hst
  | entered hu hun hst => exact .inr (.inl ⟨hun, hst⟩)
  | @succeeded id i c e hu hc hrec he hmt hst =>
    subst hu
    have hh : e.message.isHandshake = true := by
      apply Message.isHandshake_of_isOutcome
      simp [Message.isOutcome, hmt]
    have hout := outcome_of_handshake hwf hs hc (List.mem_of_getElem? he) hh
    rw [hmt, Option.some.injEq] at hout
    exact .inr (.inr (hst.trans (ContextKey.verdict_successful.2 hout.symm).symm))
  | @failed id i c e hu hc hrec he hmt hst =>
    subst hu
    have hh : e.message.isHandshake = true := by
      apply Message.isHandshake_of_isOutcome
      simp [Message.isOutcome, hmt]
    have hout := outcome_of_handshake hwf hs hc (List.mem_of_getElem? he) hh
    rw [hmt, Option.some.injEq] at hout
    exact .inr (.inr (hst.trans (ContextKey.verdict_failed.2 hout.symm).symm))
  | removed => exact absurd hm id

/-- A session at its verdict stays there. -/
theorem verdict_stays (h : Effect P s m t) (hwf : WellFormed P s) (hs : Converging P K s)
    (hm : Steady P K s m) {u : String} (hu : s.status u = (K u).verdict) :
    t.status u = (K u).verdict := by
  rcases verdict_of_status h hwf hs hm u with hst | ⟨hun, -⟩ | hst
  · exact hst.trans hu
  · exact absurd (hu.symm.trans hun) (K u).verdict_ne.1
  · exact hst

theorem converging_of_effect (h : Effect P s m t) (hwf : WellFormed P s) (hs : Converging P K s)
    (hm : Steady P K s m) : Converging P K t where
  context id c' hc' := by
    rcases h.connection_cases hc' with ⟨c, hc, hev⟩ | ⟨header, call, rfl, -, rfl⟩
    · rw [hev.header]
      exact hs.context id c hc
    · exact hm.1
  plain := by
    refine requests_of_effect h ?_ hs.plain
    cases m with
    | inspect => exact hm.2.1
    | _ => trivial
  status u := by
    rcases verdict_of_status h hwf hs hm u with hst | ⟨-, hst⟩ | hst
    · rw [hst]
      exact hs.status u
    · exact .inr (.inl hst)
    · exact .inr (.inr hst)
  passed id c' hc' hno e he := by
    rcases h.passed_source hc' he with ⟨c, hc, he⟩ | ⟨i, rfl, hpass, -⟩
    · refine hs.passed id c hc ?_ e he
      -- an authenticated session would have stayed so
      intro hyes
      rcases hs.status id.uuid with hu | hu | hu
      · rw [hyes] at hu
        cases hu
      · rw [hyes] at hu
        cases hu
      · exact hno ((verdict_stays h hwf hs hm hu).trans (hu.symm.trans hyes))
    · have hst : t.status id.uuid = s.status id.uuid := by
        cases h.status hwf.ok id.uuid with
        | same hst => exact hst
      rw [hst] at hno
      simpa [Message.passes, hno] using hpass

theorem converging_initial : Converging P K State.initial where
  context _ _ hc := by cases hc
  plain := requests_initial _
  status _ := .inl rfl
  passed _ _ hc := by cases hc

/-- **Steady clients are not disturbed**: a pending session hears nothing but outcomes. -/
theorem undisturbed_of_steady (hwf : WellFormed P s) (hs : Converging P K s)
    (hm : Steady P K s m) : Undisturbed P s m := by
  cases m with
  | inspect id header call =>
    refine ⟨rfl, fun hun => ⟨hm.2.2 hun, ?_⟩⟩
    rw [hm.1]
    exact Option.some_ne_none _
  | notify id i =>
    refine ⟨rfl, fun hp c hc e he _ => ?_⟩
    have hmem : e ∈ c.passed := List.mem_of_getElem? he
    have hh := hs.passed id c hc (by rw [hp]; decide) e hmem
    have hout := outcome_of_handshake hwf hs hc hmem hh
    unfold ContextKey.outcome at hout
    cases hd : (K id.uuid).doomed <;> simp [hd] at hout <;> simp [Message.isOutcome, hout]
  | disconnect => exact absurd hm id
  | handle | suspend | take | filter => exact ⟨rfl, trivial⟩

variable {X : Execution (service P)}

theorem converging_always (hC : X.Meets (Steady P K)) (n : ℕ) :
    WellFormed P (X.state n) ∧ Converging P K (X.state n) := by
  refine Execution.always (I := fun s => WellFormed P s ∧ Converging P K s)
    ⟨wellFormed_initial, converging_initial⟩ ?_ hC n
  refine wellFormed_preserves.with ?_
  exact fun s m t hwf hs hm hstep => converging_of_effect (effect_of_step hstep) hwf hs hm

/-- **Every handshake converges.**  In a fair execution of steady clients, a session that
sent a request comes to the verdict of its context, and stays there for good. -/
theorem handshake_converges (hfair : FairService X) (hC : X.Meets (Steady P K)) {u : String}
    {n : ℕ} (hn : (X.state n).status u ≠ .unavailable) :
    ∃ m ≥ n, ∀ k ≥ m, (X.state k).status u = (K u).verdict := by
  have hinv := converging_always hC
  have hundisturbed : X.Meets (Undisturbed P) :=
    fun n m hm => undisturbed_of_steady (hinv n).1 (hinv n).2 (hC n m hm)
  -- from the verdict on it stays
  have hstays : ∀ m, (X.state m).status u = (K u).verdict →
      ∀ k ≥ m, (X.state k).status u = (K u).verdict := by
    intro m hm k hk
    refine (Execution.always_from (I := fun s => (WellFormed P s ∧ Converging P K s) ∧
      s.status u = (K u).verdict) ?_ hC ⟨hinv m, hm⟩ hk).2
    rintro s a t ⟨⟨hwf, hs⟩, hu⟩ ha hstep
    have h := effect_of_step hstep
    exact ⟨⟨wellFormed_of_effect h hwf, converging_of_effect h hwf hs ha⟩,
      verdict_stays h hwf hs ha hu⟩
  rcases (hinv n).2.status u with hun | hpending | hverdict
  · exact absurd hun hn
  · -- it does not stay pending, and does not fall back
    obtain ⟨id, k, hid, hp⟩ := pending_awaiting hundisturbed hpending
    obtain ⟨m, hm, hdecided⟩ := awaiting_leads hfair hundisturbed id k n hp
    rw [Decided, hid] at hdecided
    have hknown : (X.state m).status u ≠ .unavailable := by
      refine (Execution.always_from (I := fun s => (WellFormed P s ∧ Converging P K s) ∧
        s.status u ≠ .unavailable) ?_ hC ⟨hinv n, hn⟩ hm).2
      rintro s a t ⟨⟨hwf, hs⟩, hu⟩ ha hstep
      have h := effect_of_step hstep
      refine ⟨⟨wellFormed_of_effect h hwf, converging_of_effect h hwf hs ha⟩, ?_⟩
      rcases verdict_of_status h hwf hs ha u with hst | ⟨-, hst⟩ | hst
      · rwa [hst]
      · rw [hst]
        decide
      · rw [hst]
        exact (K u).verdict_ne.1
    rcases (hinv m).2.status u with hun | hp | hv
    · exact absurd hun hknown
    · exact absurd hp hdecided
    · exact ⟨m, hm, hstays m hv⟩
  · exact ⟨n, le_rfl, hstays n hverdict⟩

end

/-- Two sessions, one of them with the doomed token, and their handshakes side by side. -/
def sideBySideRun : List Move :=
  [.inspect ⟨"v", 0⟩ (some (ContextKey.json ⟨1, .desktop, "FAILME"⟩)) (.subscribe .message),
    .inspect ⟨"a", 0⟩ (some (ContextKey.json ⟨1, .desktop, "t"⟩)) (.subscribe .message),
    .handle ⟨"a", 0⟩, .handle ⟨"v", 0⟩, .suspend ⟨"v", 0⟩, .suspend ⟨"a", 0⟩,
    .take "/1/DESKTOP/t" 0, .take "/1/DESKTOP/FAILME" 0, .filter ⟨"v", 0⟩ 0, .filter ⟨"a", 0⟩ 0,
    .notify ⟨"a", 0⟩ 0, .notify ⟨"v", 0⟩ 0]

/-- Their contexts. -/
def sideBySideContext (u : String) : ContextKey :=
  if u = "v" then ⟨1, .desktop, "FAILME"⟩ else ⟨1, .desktop, "t"⟩

/-- A platform that reads both. -/
def sideBySidePlatform : Platform :=
  .reading [⟨1, .desktop, "FAILME"⟩, ⟨1, .desktop, "t"⟩]

set_option maxRecDepth 10000 in
theorem handshake_converges_side_by_side : ∃ X : Execution (service sideBySidePlatform),
    FairService X ∧ (∃ m ≥ 2, ∀ k ≥ m, (X.state k).status "a" = .authSuccessful) ∧
      ∃ m ≥ 2, ∀ k ≥ m, (X.state k).status "v" = .authFailed := by
  obtain ⟨t, hrun, hrest⟩ := System.run_any (service sideBySidePlatform) sideBySideRun
    (fun t => (arrivals sideBySideRun).all (t.atRest sideBySidePlatform)) (by decide)
  obtain ⟨s, hbefore, hs⟩ := System.run_any (service sideBySidePlatform) (sideBySideRun.take 2)
    (fun s => s.status "a" ≠ .unavailable && s.status "v" ≠ .unavailable) (by decide)
  rw [Bool.and_eq_true, decide_eq_true_eq, decide_eq_true_eq] at hs
  have hfair := fairService_ofRun hrun hrest
  have hsteady : (service sideBySidePlatform).Along
      (Steady sideBySidePlatform sideBySideContext) State.initial sideBySideRun := by decide
  have hmeets := Execution.ofRun_meets hrun hsteady
  have hstate : (Execution.ofRun (service sideBySidePlatform) sideBySideRun
      (by rw [hrun]; rfl)).state 2 = s := Execution.ofRun_prefix hbefore
  refine ⟨_, hfair, handshake_converges hfair hmeets (u := "a") (n := 2) ?_,
    handshake_converges hfair hmeets (u := "v") (n := 2) ?_⟩
  · rw [hstate]
    exact hs.1
  · rw [hstate]
    exact hs.2

end Amps
