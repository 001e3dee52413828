import Amps.Delivery.Accounts
import Amps.Delivery.Channels
import Amps.Kernel.Fairness
import Amps.Security.Handshake
import Amps.Security.Isolation

/-!
# What must happen

Executions of the service that put no work off forever: a request that was let through
runs and suspends, and each message is taken, filtered and handed to the listeners at some
time, as long as it can be.

* `FairService` — the assumption on the container that runs the service.
* `waits_leads`, `offered_leads`, `passed_leads` — the stages of a delivery.
* `post_settles` — the body of a `POST` that was let through reaches every connection that
  stays suspended on its channel, or the filter keeps it from it.
* `underway_settles` — a disconnect does not stop what is under way.
* `handshake_settles` — every pending session is decided.
-/

namespace Amps

open Transition

/-! ## Kinds of steps -/

/-- The step takes this message off the channel. -/
def Takes (ch : String) (e : Envelope) (s : State) (m : Move) : Prop :=
  ∃ i, m = .take ch i ∧ (s.queued ch)[i]? = some e

/-- The step filters this message for the connection. -/
def Filters (id : ResourceId) (e : Envelope) (s : State) (m : Move) : Prop :=
  ∃ i c, m = .filter id i ∧ s.connections id = some c ∧ c.offered[i]? = some e

/-- In this step the listeners of the connection hear this message. -/
def Notifies (id : ResourceId) (e : Envelope) (s : State) (m : Move) : Prop :=
  ∃ i c, m = .notify id i ∧ s.connections id = some c ∧ c.passed[i]? = some e

/-- No work is put off forever. -/
structure FairService {P : Platform} (X : Execution (service P)) : Prop where
  handle : ∀ id, X.Fair fun _ m => m = .handle id
  suspend : ∀ id, X.Fair fun _ m => m = .suspend id
  take : ∀ ch e, X.Fair (Takes ch e)
  filter : ∀ id e, X.Fair (Filters id e)
  notify : ∀ id e, X.Fair (Notifies id e)

/-! ## Where a message is -/

/-- The message waits on the channel of a suspended connection. -/
def Waits (id : ResourceId) (ch : String) (e : Envelope) (s : State) : Prop :=
  ∃ c, s.connections id = some c ∧ c.subscribedTo ch = true ∧ e ∈ s.queued ch

/-- The message was offered to a connection that receives. -/
def Offered (id : ResourceId) (e : Envelope) (s : State) : Prop :=
  ∃ c, s.connections id = some c ∧ c.receiving = true ∧ e ∈ c.offered

/-- The message passed the filter of a connection that receives. -/
def Passed (id : ResourceId) (e : Envelope) (s : State) : Prop :=
  ∃ c, s.connections id = some c ∧ c.receiving = true ∧ e ∈ c.passed

/-- The listeners of the connection heard the message, or the filter kept it from it. -/
def Settled (id : ResourceId) (e : Envelope) (s : State) : Prop :=
  e ∈ s.heard id ∨ e ∈ s.filteredOut id

/-- The connection is in this phase. -/
def InPhase (id : ResourceId) (p : Phase) (s : State) : Prop :=
  ∃ c, s.connections id = some c ∧ c.phase = p

/-- The connection was resumed, or disconnected. -/
def Left (id : ResourceId) (s : State) : Prop := InPhase id .resumed s ∨ InPhase id .closed s

section

variable {P : Platform} {s t : State} {m : Move} {id : ResourceId} {ch : String} {e : Envelope}
  {c c' : Connection}

/-! ## What a step does to one message -/

/-- A queued message stays queued until it is taken. -/
theorem Effect.queued_cases (h : Effect P s m t)
    (hok : ∀ id c, s.connections id = some c → c.Ok P id) (he : e ∈ s.queued ch) :
    e ∈ t.queued ch ∨ Takes ch e s m := by
  obtain ⟨q, hq, heq⟩ := State.mem_queued.1 he
  by_cases hm : ∃ ch' i, m = .take ch' i
  · obtain ⟨ch', i, rfl⟩ := hm
    cases h with
    | @taken _ _ q' e' hq' he' =>
      by_cases hne : ch = ch'
      · subst hne
        rw [hq, Option.some.injEq] at hq'
        subst hq'
        rcases eq_or_mem_eraseIdx he' heq with rfl | hleft
        · exact .inr ⟨i, rfl, by rw [State.queued_of_some hq]; exact he'⟩
        · exact .inl (by simpa [State.queued] using hleft)
      · exact .inl (by simpa [State.queued, hne] using he)
  · obtain ⟨q', hq', hsub⟩ := h.grows hok (fun ch' i hm' => hm ⟨ch', i, hm'⟩) ch q hq
    exact .inl (State.mem_queued.2 ⟨q', hq', hsub e heq⟩)

/-- What a step does to the messages under way to a connection. -/
inductive Carries (s : State) (id : ResourceId) (c c' : Connection) : Move → Prop
  /-- Nothing. -/
  | kept {m : Move} (ho : c'.offered = c.offered) (hp : c'.passed = c.passed) : Carries s id c c' m
  /-- One more was offered. -/
  | offered {ch : String} {i : Nat} {e : Envelope} (ho : c'.offered = c.offered ++ [e])
      (hp : c'.passed = c.passed) : Carries s id c c' (.take ch i)
  /-- One was filtered. -/
  | filtered {i : Nat} {e : Envelope} (he : c.offered[i]? = some e)
      (ho : c'.offered = c.offered.eraseIdx i)
      (hp : c'.passed = if e.message.passes (s.status id.uuid) then c.passed ++ [e]
        else c.passed) : Carries s id c c' (.filter id i)
  /-- The listeners were called with one. -/
  | notified {i : Nat} {e : Envelope} (he : c.passed[i]? = some e)
      (ho : c'.offered = c.offered) (hp : c'.passed = c.passed.eraseIdx i) :
      Carries s id c c' (.notify id i)

theorem Effect.carries (h : Effect P s m t) (hc : s.connections id = some c)
    (hc' : t.connections id = some c') : Carries s id c c' m := by
  have hsame : s.connections id = some c' → Carries s id c c' m := by
    intro hc''
    rw [hc, Option.some.injEq] at hc''
    exact .kept (by rw [hc'']) (by rw [hc''])
  cases h with
  | inspected hnew =>
    rcases State.put_connections_eq_some.1 hc' with ⟨rfl, -⟩ | ⟨-, hc''⟩
    · simp [hc] at hnew
    · exact hsame hc''
  | joined hc₀ | published hc₀ | broadcasted hc₀ | crashed hc₀ | suspended hc₀
  | disconnected hc₀ =>
    rcases State.put_connections_eq_some.1 hc' with ⟨rfl, rfl⟩ | ⟨-, hc''⟩
    · rw [hc, Option.some.injEq] at hc₀
      exact .kept (by rw [hc₀]) (by rw [hc₀])
    · exact hsame hc''
  | @taken ch i q e hq he =>
    obtain ⟨c₀, hc₀, rfl⟩ := Option.map_eq_some_iff.1 hc'
    rw [hc, Option.some.injEq] at hc₀
    subst hc₀
    unfold Connection.offer
    split
    · exact .offered rfl rfl
    · exact .kept rfl rfl
  | @filtered id' i c₀ e ch hc₀ hrec he hch =>
    rcases State.put_connections_eq_some.1 hc' with ⟨rfl, rfl⟩ | ⟨-, hc''⟩
    · rw [hc, Option.some.injEq] at hc₀
      subst hc₀
      exact .filtered he rfl rfl
    · exact hsame hc''
  | @notified id' i c₀ e hc₀ hrec he =>
    rcases State.put_connections_eq_some.1 hc' with ⟨rfl, rfl⟩ | ⟨-, hc''⟩
    · rw [hc, Option.some.injEq] at hc₀
      subst hc₀
      exact .notified he rfl rfl
    · exact hsame hc''

/-- An offered message stays offered until it is filtered. -/
theorem Effect.offered_cases (h : Effect P s m t) (hc : s.connections id = some c)
    (hc' : t.connections id = some c') (he : e ∈ c.offered) :
    e ∈ c'.offered ∨ Filters id e s m := by
  cases h.carries hc hc' with
  | kept ho | notified _ ho => exact .inl (ho ▸ he)
  | offered ho => exact .inl (ho ▸ List.mem_append_left _ he)
  | filtered he' ho =>
    rcases eq_or_mem_eraseIdx he' he with rfl | hleft
    · exact .inr ⟨_, c, rfl, hc, he'⟩
    · exact .inl (ho ▸ hleft)

/-- A message that passed stays there until the listeners hear it. -/
theorem Effect.passed_cases (h : Effect P s m t) (hc : s.connections id = some c)
    (hc' : t.connections id = some c') (he : e ∈ c.passed) :
    e ∈ c'.passed ∨ Notifies id e s m := by
  cases h.carries hc hc' with
  | kept _ hp | offered _ hp => exact .inl (hp ▸ he)
  | filtered _ _ hp =>
    rw [hp]
    split
    · exact .inl (List.mem_append_left _ he)
    · exact .inl he
  | notified he' _ hp =>
    rcases eq_or_mem_eraseIdx he' he with rfl | hleft
    · exact .inr ⟨_, c, rfl, hc, he'⟩
    · exact .inl (hp ▸ hleft)

/-- A connection that receives goes on receiving, unless it is resumed. -/
theorem receiving_or_resumed (hrec : c.receiving = true) (hev : c.Evolves c') :
    c'.receiving = true ∨ c'.phase = .resumed := by
  simp only [Connection.receiving, Bool.or_eq_true, decide_eq_true_eq] at hrec ⊢
  rcases hev.phase with hp | hp
  · rw [hp]
    exact .inl hrec
  · rcases hrec with h | h <;> rw [h] at hp
    · rcases List.mem_cons.1 hp with hp | hp
      · exact .inr hp
      · exact .inl (.inr (List.mem_singleton.1 hp))
    · cases hp

/-- A suspended connection stays suspended, unless it leaves. -/
theorem suspended_or_left (hphase : c.phase = .suspended) (hev : c.Evolves c')
    (hc' : t.connections id = some c') : c'.phase = .suspended ∨ Left id t := by
  rcases hev.phase with hp | hp
  · exact .inl (hp.trans hphase)
  · rw [hphase] at hp
    rcases List.mem_cons.1 hp with hp | hp
    · exact .inr (.inl ⟨c', hc', hp⟩)
    · exact .inr (.inr ⟨c', hc', List.mem_singleton.1 hp⟩)

/-- What is taken off a channel is offered to its subscribers. -/
theorem offered_of_takes (h : Effect P s m t) (hm : Takes ch e s m)
    (hc : s.connections id = some c) (hsub : c.subscribedTo ch = true) : Offered id e t := by
  obtain ⟨i, rfl, he⟩ := hm
  cases h with
  | @taken _ _ q e' hq he' =>
    rw [State.queued_of_some hq, he', Option.some.injEq] at he
    subst he
    refine ⟨c.offer ch e', by simp [hc], ?_, ?_⟩
    · simp only [Connection.subscribedTo, Bool.and_eq_true, decide_eq_true_eq] at hsub
      simp [Connection.receiving, (c.offer_eq ch e').2.2.1, hsub.1]
    · simp [Connection.offer, hsub]

/-- What is filtered passes, or is kept from the connection. -/
theorem passed_of_filters (h : Effect P s m t) (hm : Filters id e s m) :
    if e.message.passes (s.status id.uuid) then Passed id e t else e ∈ t.filteredOut id := by
  obtain ⟨i, c, rfl, hc, he⟩ := hm
  cases h with
  | @filtered _ _ c₀ e' ch hc₀ hrec he' hch =>
    rw [hc, Option.some.injEq] at hc₀
    subst hc₀
    rw [he', Option.some.injEq] at he
    subst he
    split
    · rename_i hpass
      refine ⟨_, State.put_connections_self, hrec, ?_⟩
      exact List.mem_append_right _ (List.mem_singleton.2 rfl)
    · rename_i hpass
      simp [State.filteredOut, Event.keptFrom, hpass]

/-- What the listeners are called with, they hear. -/
theorem heard_of_notifies (h : Effect P s m t) (hm : Notifies id e s m) : e ∈ t.heard id := by
  obtain ⟨i, c, rfl, hc, he⟩ := hm
  cases h with
  | @notified _ _ c₀ e' hc₀ hrec he' =>
    rw [hc, Option.some.injEq] at hc₀
    subst hc₀
    rw [he', Option.some.injEq] at he
    subst he
    simp [State.heard, Event.heardBy]

/-! ## The stages of a delivery -/

variable {X : Execution (service P)}

theorem wellFormed_always (X : Execution (service P)) (n : ℕ) : WellFormed P (X.state n) :=
  Execution.always (C := fun _ _ => True) wellFormed_initial wellFormed_preserves
    (fun _ _ _ => trivial) n

/-- What waits on a channel is offered to those that stay suspended. -/
theorem waits_leads (hfair : FairService X) (id : ResourceId) (ch : String) (e : Envelope) :
    X.LeadsTo (Waits id ch e) fun s => Offered id e s ∨ Left id s := by
  refine Execution.ensures (C := fun _ _ => True) (wellFormed_always X) (fun _ _ _ => trivial)
    (hfair.take ch e) ?_ ?_ ?_
  · rintro s m t hwf - ⟨c, hc, hsub, he⟩ hstep
    have h := effect_of_step hstep
    obtain ⟨c', hc', hev⟩ := h.evolves hc
    have hsub' := hsub
    simp only [Connection.subscribedTo, Bool.and_eq_true, decide_eq_true_eq] at hsub'
    rcases suspended_or_left hsub'.1 hev hc' with hphase | hleft
    · rcases h.queued_cases hwf.ok he with he' | hm
      · refine .inl ⟨c', hc', ?_, he'⟩
        have hb := (hev.channel (by simp [hsub'.1, Phase.live])).trans hsub'.2
        simp [Connection.subscribedTo, hphase, hb]
      · exact .inr (.inl (offered_of_takes h hm hc hsub))
    · exact .inr (.inr hleft)
  · rintro s hwf ⟨c, hc, hsub, he⟩
    obtain ⟨q, hq, heq⟩ := State.mem_queued.1 he
    obtain ⟨i, hi⟩ := List.mem_iff_getElem?.1 heq
    exact ⟨.take ch i, _, ⟨i, rfl, by rw [State.queued_of_some hq]; exact hi⟩,
      step_of_effect (P := P) (.taken hq hi)⟩
  · rintro s m t hwf - ⟨c, hc, hsub, he⟩ hm hstep
    exact .inl (offered_of_takes (effect_of_step hstep) hm hc hsub)

/-- What was offered passes the filter, or is kept from the connection. -/
theorem offered_leads (hfair : FairService X) (id : ResourceId) (e : Envelope) :
    X.LeadsTo (Offered id e) fun s =>
      Passed id e s ∨ e ∈ s.filteredOut id ∨ InPhase id .resumed s := by
  have hdone : ∀ {s t : State} {m : Move}, Effect P s m t → Filters id e s m →
      Passed id e t ∨ e ∈ t.filteredOut id ∨ InPhase id .resumed t := by
    intro s t m h hm
    have hafter := passed_of_filters h hm
    split at hafter
    · exact .inl hafter
    · exact .inr (.inl hafter)
  refine Execution.ensures (C := fun _ _ => True) (wellFormed_always X) (fun _ _ _ => trivial)
    (hfair.filter id e) ?_ ?_ ?_
  · rintro s m t hwf - ⟨c, hc, hrec, he⟩ hstep
    have h := effect_of_step hstep
    obtain ⟨c', hc', hev⟩ := h.evolves hc
    rcases receiving_or_resumed hrec hev with hrec' | hphase
    · rcases h.offered_cases hc hc' he with he' | hm
      · exact .inl ⟨c', hc', hrec', he'⟩
      · exact .inr (hdone h hm)
    · exact .inr (.inr (.inr ⟨c', hc', hphase⟩))
  · rintro s hwf ⟨c, hc, hrec, he⟩
    obtain ⟨i, hi⟩ := List.mem_iff_getElem?.1 he
    obtain ⟨-, ch, l, -, hb, -⟩ := (hwf.ok id c hc).live (Connection.live_of_receiving hrec)
    exact ⟨.filter id i, _, ⟨i, c, rfl, hc, hi⟩, step_of_effect (P := P) (.filtered hc hrec hi hb)⟩
  · rintro s m t hwf - - hm hstep
    exact hdone (effect_of_step hstep) hm

/-- What passed is heard. -/
theorem passed_leads (hfair : FairService X) (id : ResourceId) (e : Envelope) :
    X.LeadsTo (Passed id e) fun s => e ∈ s.heard id ∨ InPhase id .resumed s := by
  refine Execution.ensures (C := fun _ _ => True) (wellFormed_always X) (fun _ _ _ => trivial)
    (hfair.notify id e) ?_ ?_ ?_
  · rintro s m t hwf - ⟨c, hc, hrec, he⟩ hstep
    have h := effect_of_step hstep
    obtain ⟨c', hc', hev⟩ := h.evolves hc
    rcases receiving_or_resumed hrec hev with hrec' | hphase
    · rcases h.passed_cases hc hc' he with he' | hm
      · exact .inl ⟨c', hc', hrec', he'⟩
      · exact .inr (.inl (heard_of_notifies h hm))
    · exact .inr (.inr ⟨c', hc', hphase⟩)
  · rintro s hwf ⟨c, hc, hrec, he⟩
    obtain ⟨i, hi⟩ := List.mem_iff_getElem?.1 he
    exact ⟨.notify id i, _, ⟨i, c, rfl, hc, hi⟩, step_of_effect (P := P) (.notified hc hrec hi)⟩
  · rintro s m t hwf - - hm hstep
    exact .inl (heard_of_notifies (effect_of_step hstep) hm)

/-- What was offered is settled, unless the connection is resumed. -/
theorem offered_settles (hfair : FairService X) (id : ResourceId) (e : Envelope) :
    X.LeadsTo (Offered id e) fun s => Settled id e s ∨ InPhase id .resumed s := by
  refine ((offered_leads hfair id e).mono (fun _ h => h) ?_).cases
    ((passed_leads hfair id e).mono (fun _ h => h) ?_)
  · rintro s (hp | hk | hr)
    · exact .inl hp
    · exact .inr (.inl (.inr hk))
    · exact .inr (.inr hr)
  · rintro s (hh | hr)
    · exact .inl (.inl hh)
    · exact .inr hr

/-- **A disconnect does not stop what is under way.**  Whatever was taken for a connection
is heard by its listeners or kept from it by the filter, unless the connection is resumed. -/
theorem underway_settles (hfair : FairService X) (id : ResourceId) (e : Envelope) :
    X.LeadsTo (fun s => ∃ c, s.connections id = some c ∧ c.receiving = true ∧ e ∈ c.inFlight)
      fun s => Settled id e s ∨ InPhase id .resumed s := by
  rintro n ⟨c, hc, hrec, he⟩
  rcases List.mem_append.1 he with ho | hp
  · exact offered_settles hfair id e n ⟨c, hc, hrec, ho⟩
  · obtain ⟨m, hm, hh | hr⟩ := passed_leads hfair id e n ⟨c, hc, hrec, hp⟩
    · exact ⟨m, hm, .inl (.inl hh)⟩
    · exact ⟨m, hm, .inr hr⟩

/-! ## From the `POST` to its last listener -/

/-- A request that was let through waits for its own turn. -/
theorem Effect.admitted_stays (h : Effect P s m t) (hc : s.connections id = some c)
    (hphase : c.phase = .admitted) (hm : m ≠ .handle id) : t.connections id = some c := by
  have hput : ∀ {id' : ResourceId} {c' : Connection} {v f es}, id ≠ id' →
      (s.put id' c' v f es).connections id = some c :=
    fun hne => by rwa [State.put_connections_of_ne hne]
  have hother : ∀ {id' : ResourceId} {c₀ : Connection}, s.connections id' = some c₀ →
      c₀.phase ≠ .admitted → id ≠ id' := by
    rintro id' c₀ hc₀ hne rfl
    rw [hc, Option.some.injEq] at hc₀
    exact hne (hc₀ ▸ hphase)
  cases h with
  | inspected hnew =>
    apply hput
    rintro rfl
    simp [hc] at hnew
  | joined | published | broadcasted | crashed =>
    apply hput
    rintro rfl
    exact hm rfl
  | suspended hc₀ hp | disconnected hc₀ hp => exact hput (hother hc₀ (by simp [hp]))
  | filtered hc₀ hrec | notified hc₀ hrec =>
    exact hput (hother hc₀ (Phase.ne_of_live (Connection.live_of_receiving hrec) rfl))
  | @taken ch i q e hq he =>
    have hsub : c.subscribedTo ch = false := by simp [Connection.subscribedTo, hphase]
    simp [hc, Connection.offer, hsub]

/-- What a `POST` submits is queued when it runs. -/
theorem queued_of_handle {a : ResourceId} {ca : Connection} {b : Message}
    (h : Effect P s (.handle a) t) (hca : s.connections a = some ca)
    (hsubmits : ca.submits P ch b) (hexists : s.factory ch ≠ none) :
    (⟨b, .client a⟩ : Envelope) ∈ t.queued ch := by
  obtain ⟨q, hq⟩ := Option.ne_none_iff_exists'.1 hexists
  have hsame : ∀ {c₀ : Connection}, s.connections a = some c₀ → c₀ = ca := by
    intro c₀ hc₀
    rw [hca, Option.some.injEq] at hc₀
    exact hc₀.symm
  cases h with
  | joined hc₀ hphase hcall hsub =>
    rw [hsame hc₀] at hcall
    rcases hsubmits.2 with ⟨hcall', -⟩ | ⟨ns, hcall', -⟩ <;> simp [hcall] at hcall'
  | published hc₀ hphase hcall hsub =>
    obtain rfl := hsame hc₀
    rcases hsubmits.2 with ⟨hcall', hch⟩ | ⟨ns, hcall', -⟩
    · rw [hcall, Call.publish.injEq] at hcall'
      subst hcall'
      rw [channelOf, hsub, Option.map_some, Option.some.injEq] at hch
      subst hch
      simp only [State.queued, State.put_factory]
      rw [BroadcasterFactory.broadcast_self (BroadcasterFactory.lookup_of_some hq)]
      simp
    · simp [hcall] at hcall'
  | broadcasted hc₀ hphase hcall =>
    obtain rfl := hsame hc₀
    rcases hsubmits.2 with ⟨hcall', -⟩ | ⟨ns, hcall', hmatch⟩
    · simp [hcall] at hcall'
    · rw [hcall, Call.broadcast.injEq, Option.some.injEq] at hcall'
      obtain ⟨rfl, rfl⟩ := hcall'
      simp [State.queued, BroadcasterFactory.broadcastTo, hmatch, hq]
  | crashed hc₀ hphase hthrow =>
    rw [hsame hc₀] at hthrow
    rcases hsubmits.2 with ⟨hcall, hch⟩ | ⟨ns, hcall, -⟩ <;>
      rcases hthrow with ⟨hcall', hsub⟩ | ⟨b', hcall'⟩
    · simp [channelOf, hsub] at hch
    · simp [hcall] at hcall'
    · exact absurd hcall (hcall' _ _)
    · simp [hcall] at hcall'

/-- A `POST` was let through, and its body goes to the channel of a suspended connection. -/
def Submitting (P : Platform) (a id : ResourceId) (ch : String) (b : Message) (s : State) : Prop :=
  ∃ ca c, s.connections a = some ca ∧ ca.submits P ch b ∧ s.connections id = some c ∧
    c.subscribedTo ch = true

theorem submitting_leads (hfair : FairService X) (a id : ResourceId) (ch : String) (b : Message) :
    X.LeadsTo (Submitting P a id ch b) fun s => Waits id ch ⟨b, .client a⟩ s ∨ Left id s := by
  have hdone : ∀ {s t : State}, WellFormed P s → Effect P s (.handle a) t →
      Submitting P a id ch b s → Waits id ch ⟨b, .client a⟩ t ∨ Left id t := by
    rintro s t hwf h ⟨ca, c, hca, hsubmits, hc, hsub⟩
    simp only [Connection.subscribedTo, Bool.and_eq_true, decide_eq_true_eq] at hsub
    obtain ⟨c', hc', hev⟩ := h.evolves hc
    rcases suspended_or_left hsub.1 hev hc' with hphase | hleft
    · have hb := (hev.channel (by simp [hsub.1, Phase.live])).trans hsub.2
      refine .inl ⟨c', hc', by simp [Connection.subscribedTo, hphase, hb], ?_⟩
      exact queued_of_handle h hca hsubmits (hwf.created id c ch hc hsub.2)
    · exact .inr hleft
  refine Execution.ensures (C := fun _ _ => True) (wellFormed_always X) (fun _ _ _ => trivial)
    (hfair.handle a) ?_ ?_ ?_
  · rintro s m t hwf - hp hstep
    have h := effect_of_step hstep
    by_cases hm : m = .handle a
    · subst hm
      exact .inr (hdone hwf h hp)
    · obtain ⟨ca, c, hca, hsubmits, hc, hsub⟩ := hp
      simp only [Connection.subscribedTo, Bool.and_eq_true, decide_eq_true_eq] at hsub
      obtain ⟨c', hc', hev⟩ := h.evolves hc
      rcases suspended_or_left hsub.1 hev hc' with hphase | hleft
      · have hb := (hev.channel (by simp [hsub.1, Phase.live])).trans hsub.2
        exact .inl ⟨ca, c', h.admitted_stays hca hsubmits.1 hm, hsubmits, hc',
          by simp [Connection.subscribedTo, hphase, hb]⟩
      · exact .inr (.inr hleft)
  · rintro s hwf ⟨ca, c, hca, hsubmits, -⟩
    refine ⟨.handle a, ?_⟩
    rcases hsubmits.2 with ⟨hcall, hch⟩ | ⟨ns, hcall, -⟩
    · obtain ⟨⟨ch', l⟩, hsub, -⟩ := Option.map_eq_some_iff.1 hch
      exact ⟨_, rfl, step_of_effect (P := P) (.published hca hsubmits.1 hcall hsub)⟩
    · exact ⟨_, rfl, step_of_effect (P := P) (.broadcasted hca hsubmits.1 hcall)⟩
  · rintro s m t hwf - hp rfl hstep
    exact hdone hwf (effect_of_step hstep) hp

/-- **Every `POST` reaches its subscribers.**  Once a `POST` was let through, its body is
heard by each connection suspended on a channel it goes to, or kept from it by the filter,
or the connection is resumed or disconnected. -/
theorem post_settles (hfair : FairService X) (a id : ResourceId) (ch : String) (b : Message) :
    X.LeadsTo (Submitting P a id ch b) fun s =>
      Settled id ⟨b, .client a⟩ s ∨ Left id s := by
  have hsubmitting := submitting_leads hfair a id ch b
  have hwaits := waits_leads hfair id ch ⟨b, .client a⟩
  have hoffered := offered_settles hfair id ⟨b, .client a⟩
  apply (hsubmitting.mono (fun _ h => h) fun _ h => h.imp_right Or.inr).cases
  apply (hwaits.mono (fun _ h => h) fun _ h => h.imp_right Or.inr).cases
  exact hoffered.mono (fun _ h => h) fun _ h => h.imp_right Or.inl

/-! ## Every handshake ends -/

/-- The filter keeps no message of a handshake type from anybody. -/
def KeptPlain (s : State) : Prop := ∀ id, ∀ e ∈ s.filteredOut id, e.message.isHandshake = false

theorem keptPlain_of_effect (h : Effect P s m t) (hs : KeptPlain s) : KeptPlain t := by
  intro id e he
  obtain ⟨ch, v, hev⟩ := State.mem_filteredOut.1 he
  rcases h.records hev with hev | hrec
  · exact hs id e (State.mem_filteredOut.2 ⟨ch, v, hev⟩)
  · generalize hab : true = ab at hrec
    cases hrec with
    | filtered hc hrec he' hch =>
      simp only [Message.passes, Bool.true_eq, Bool.not_eq_true', Bool.or_eq_false_iff] at hab
      exact hab.1

theorem keptPlain_always (X : Execution (service P)) (n : ℕ) : KeptPlain (X.state n) := by
  refine Execution.always (C := fun _ _ => True) ?_ ?_ (fun _ _ _ => trivial) n
  · intro id e he
    cases he
  · exact fun s m t hs _ hstep => keptPlain_of_effect (effect_of_step hstep) hs

/-- A connection that hears an outcome is not pending any more. -/
theorem decided_of_notifies (hwf : WellFormed P s) (h : Effect P s m t) (hm : Notifies id e s m)
    (hout : e.message.isOutcome = true) : t.status id.uuid ≠ .authPending := by
  obtain ⟨i, c, rfl, hc, he⟩ := hm
  rw [h.status_notified hwf.ok hc he]
  intro hpending
  rw [Message.not_isOutcome_of_record hpending] at hout
  cases hout

/-- The connection awaits an outcome, and its session is pending. -/
def Pending (P : Platform) (id : ResourceId) (k : ContextKey) (s : State) : Prop :=
  (∃ c, s.connections id = some c ∧ c.Awaits P s k) ∧ s.status id.uuid = .authPending

/-- The session of the connection is not pending. -/
def Decided (id : ResourceId) (s : State) : Prop := s.status id.uuid ≠ .authPending

/-- No disconnect, first requests that are `GET`s with accepted contexts, and nothing but
outcomes for the connections of a pending session that any message resumes. -/
def Undisturbed (P : Platform) (s : State) (m : Move) : Prop :=
  m.isDisconnect = false ∧ EndsInDecision P s m

theorem pending_or_decided {k : ContextKey} (hwf : WellFormed P s) (hm : Undisturbed P s m)
    (hp : Pending P id k s) (h : Effect P s m t) : Pending P id k t ∨ Decided id t := by
  by_cases ht : t.status id.uuid = .authPending
  · obtain ⟨⟨c, hc, haw⟩, hs⟩ := hp
    obtain ⟨c', hc', haw'⟩ := awaits_of_effect h hwf hm.2 hm.1 hc haw hs ht
    exact .inl ⟨⟨c', hc', haw'⟩, ht⟩
  · exact .inr ht

variable {k : ContextKey}

/-- An awaiting connection has not left. -/
theorem Pending.not_left (hp : Pending P id k s) : ¬ Left id s := by
  obtain ⟨⟨c, hc, haw⟩, -⟩ := hp
  rintro (⟨c', hc', hphase⟩ | ⟨c', hc', hphase⟩) <;> rw [hc, Option.some.injEq] at hc' <;>
    subst hc' <;> rcases haw.phase with h | h | ⟨h, -⟩ <;> simp [hphase] at h

theorem pending_admitted_leads (hfair : FairService X) (hC : X.Meets (Undisturbed P))
    (id : ResourceId) (k : ContextKey) :
    X.LeadsTo (fun s => Pending P id k s ∧ InPhase id .admitted s)
      fun s => (Pending P id k s ∧ InPhase id .ready s) ∨ Decided id s := by
  refine Execution.ensures (wellFormed_always X) hC (hfair.handle id) ?_ ?_ ?_
  · rintro s m t hwf hm ⟨hp, c, hc, hphase⟩ hstep
    have h := effect_of_step hstep
    rcases pending_or_decided hwf hm hp h with hp' | hd
    · obtain ⟨c', hc', haw'⟩ := hp'.1
      obtain ⟨c'', hc'', hev⟩ := h.evolves hc
      rw [hc', Option.some.injEq] at hc''
      subst hc''
      rcases hev.phase with hsame | hnext
      · exact .inl ⟨hp', c', hc', hsame.trans hphase⟩
      · rw [hphase] at hnext
        rcases haw'.phase with ha | hr | ⟨hs, -⟩
        · simp [ha, Phase.next] at hnext
        · exact .inr (.inl ⟨hp', c', hc', hr⟩)
        · simp [hs, Phase.next] at hnext
    · exact .inr (.inr hd)
  · rintro s hwf ⟨⟨⟨c, hc, haw⟩, -⟩, c', hc', hphase⟩
    rw [hc, Option.some.injEq] at hc'
    subst hc'
    have hget := haw.get
    cases hcall : c.call with
    | subscribe endpoint =>
      obtain ⟨x, hsub⟩ : ∃ x, subscription P c.resource = some x := by
        cases hsub : subscription P c.resource with
        | some x => exact ⟨x, rfl⟩
        | none =>
          have hnot : ¬ ((∀ ns m, c.call ≠ .broadcast ns m) ∧ subscription P c.resource = none ∨
            ∃ m, c.call = .broadcast none m) := not_thrown_of_awaits haw
          exact absurd (.inl ⟨fun ns m => by simp [hcall], hsub⟩) hnot
      exact ⟨.handle id, _, rfl, step_of_effect (P := P) (.joined hc hphase hcall hsub)⟩
    | publish b => simp [hcall, Call.isGET] at hget
    | broadcast ns b => simp [hcall, Call.isGET] at hget
  · rintro s m t hwf hm ⟨hp, c, hc, hphase⟩ rfl hstep
    have h : Effect P s (.handle id) t := effect_of_step hstep
    rcases pending_or_decided hwf hm hp h with hp' | hd
    · obtain ⟨c', hc', haw'⟩ := hp'.1
      refine .inl ⟨hp', c', hc', ?_⟩
      have hget := haw'.get
      cases h with
      | joined =>
        rw [State.put_connections_self, Option.some.injEq] at hc'
        rw [← hc']
      | published hc₀ hphase₀ hcall | broadcasted hc₀ hphase₀ hcall =>
        rw [State.put_connections_self, Option.some.injEq] at hc'
        rw [← hc'] at hget
        simp [hcall, Call.isGET] at hget
      | crashed =>
        rw [State.put_connections_self, Option.some.injEq] at hc'
        rcases haw'.phase with h | h | ⟨h, -⟩ <;> rw [← hc'] at h <;> cases h
    · exact .inr hd

theorem pending_ready_leads (hfair : FairService X) (hC : X.Meets (Undisturbed P))
    (id : ResourceId) (k : ContextKey) :
    X.LeadsTo (fun s => Pending P id k s ∧ InPhase id .ready s)
      fun s => (Pending P id k s ∧ InPhase id .suspended s) ∨ Decided id s := by
  refine Execution.ensures (wellFormed_always X) hC (hfair.suspend id) ?_ ?_ ?_
  · rintro s m t hwf hm ⟨hp, c, hc, hphase⟩ hstep
    have h := effect_of_step hstep
    rcases pending_or_decided hwf hm hp h with hp' | hd
    · obtain ⟨c', hc', hev⟩ := h.evolves hc
      rcases hev.phase with hsame | hnext
      · exact .inl ⟨hp', c', hc', hsame.trans hphase⟩
      · rw [hphase] at hnext
        exact .inr (.inl ⟨hp', c', hc', List.mem_singleton.1 hnext⟩)
    · exact .inr (.inr hd)
  · rintro s hwf ⟨-, c, hc, hphase⟩
    exact ⟨.suspend id, _, rfl, step_of_effect (P := P) (.suspended hc hphase)⟩
  · rintro s m t hwf hm ⟨hp, c, hc, hphase⟩ rfl hstep
    have h : Effect P s (.suspend id) t := effect_of_step hstep
    rcases pending_or_decided hwf hm hp h with hp' | hd
    · refine .inl ⟨hp', ?_⟩
      cases h with
      | suspended => exact ⟨_, State.put_connections_self, rfl⟩
    · exact .inr hd

/-- An outcome that passed decides. -/
theorem pending_passed_leads (hfair : FairService X) (hC : X.Meets (Undisturbed P))
    (id : ResourceId) (k : ContextKey) (hout : e.message.isOutcome = true) :
    X.LeadsTo (fun s => Passed id e s ∧ Pending P id k s) (Decided id) := by
  refine Execution.ensures (wellFormed_always X) hC (hfair.notify id e) ?_ ?_ ?_
  · rintro s m t hwf hm ⟨⟨c, hc, hrec, he⟩, hp⟩ hstep
    have h := effect_of_step hstep
    rcases pending_or_decided hwf hm hp h with hp' | hd
    · obtain ⟨c', hc', hev⟩ := h.evolves hc
      rcases h.passed_cases hc hc' he with he' | hmove
      · rcases receiving_or_resumed hrec hev with hrec' | hphase
        · exact .inl ⟨⟨c', hc', hrec', he'⟩, hp'⟩
        · exact absurd (.inl ⟨c', hc', hphase⟩) hp'.not_left
      · exact .inr (decided_of_notifies hwf h hmove hout)
    · exact .inr hd
  · rintro s hwf ⟨⟨c, hc, hrec, he⟩, -⟩
    obtain ⟨i, hi⟩ := List.mem_iff_getElem?.1 he
    exact ⟨.notify id i, _, ⟨i, c, rfl, hc, hi⟩, step_of_effect (P := P) (.notified hc hrec hi)⟩
  · rintro s m t hwf - - hmove hstep
    exact decided_of_notifies hwf (effect_of_step hstep) hmove hout

/-- An outcome that was offered decides. -/
theorem pending_offered_leads (hfair : FairService X) (hC : X.Meets (Undisturbed P))
    (id : ResourceId) (k : ContextKey) (hout : e.message.isOutcome = true) :
    X.LeadsTo (fun s => Offered id e s ∧ Pending P id k s) (Decided id) := by
  have hkeep := (offered_leads hfair id e).keep (wellFormed_always X) hC
    (r := Decided id) (J := Pending P id k)
    fun s m t hwf hm hp hstep => pending_or_decided hwf hm hp (effect_of_step hstep)
  refine Execution.LeadsTo.cases ?_ (pending_passed_leads hfair hC id k hout)
  intro n hn
  obtain ⟨m, hm, ⟨hp | hk | hr, hpend⟩ | hd⟩ := hkeep n hn
  · exact ⟨m, hm, .inl ⟨hp, hpend⟩⟩
  · -- the filter keeps no outcome from anybody
    have hplain := keptPlain_always X m id e hk
    rw [Message.isHandshake_of_isOutcome hout] at hplain
    cases hplain
  · exact absurd (.inl hr) hpend.not_left
  · exact ⟨m, hm, .inr hd⟩

/-- An outcome that waits on the channel decides. -/
theorem pending_waits_leads (hfair : FairService X) (hC : X.Meets (Undisturbed P))
    (id : ResourceId) (ch : String) (k : ContextKey) (hout : e.message.isOutcome = true) :
    X.LeadsTo (fun s => Waits id ch e s ∧ Pending P id k s) (Decided id) := by
  have hkeep := (waits_leads hfair id ch e).keep (wellFormed_always X) hC
    (r := Decided id) (J := Pending P id k)
    fun s m t hwf hm hp hstep => pending_or_decided hwf hm hp (effect_of_step hstep)
  refine Execution.LeadsTo.cases ?_ (pending_offered_leads hfair hC id k hout)
  intro n hn
  obtain ⟨m, hm, ⟨ho | hl, hpend⟩ | hd⟩ := hkeep n hn
  · exact ⟨m, hm, .inl ⟨ho, hpend⟩⟩
  · exact absurd hl hpend.not_left
  · exact ⟨m, hm, .inr hd⟩

theorem pending_suspended_leads (hfair : FairService X) (hC : X.Meets (Undisturbed P))
    (id : ResourceId) (k : ContextKey) :
    X.LeadsTo (fun s => Pending P id k s ∧ InPhase id .suspended s) (Decided id) := by
  rintro n ⟨hp, c, hc, hphase⟩
  have hwf := wellFormed_always X n
  obtain ⟨c', hc', haw⟩ := hp.1
  rw [hc, Option.some.injEq] at hc'
  subst hc'
  rcases haw.phase with h | h | ⟨-, e, hout, he | ⟨q, hq, he⟩⟩
  · simp [hphase] at h
  · simp [hphase] at h
  · have hrec : c.receiving = true := by simp [Connection.receiving, hphase]
    rcases List.mem_append.1 he with ho | hpass
    · exact pending_offered_leads hfair hC id k hout n ⟨⟨c, hc, hrec, ho⟩, hp⟩
    · exact pending_passed_leads hfair hC id k hout n ⟨⟨c, hc, hrec, hpass⟩, hp⟩
  · have hb := (hwf.ok id c hc).channel (by simp [hphase]) haw.context
    refine pending_waits_leads hfair hC id k.broadcasterId k hout n ⟨⟨c, hc, ?_, ?_⟩, hp⟩
    · simp [Connection.subscribedTo, hphase, hb]
    · simpa [State.queued, hq] using he

/-- A connection that awaits an outcome gets its session decided, stage by stage. -/
theorem awaiting_leads (hfair : FairService X) (hC : X.Meets (Undisturbed P)) (id : ResourceId)
    (k : ContextKey) : X.LeadsTo (Pending P id k) (Decided id) := by
  have hsuspended := pending_suspended_leads hfair hC id k
  have hready := (pending_ready_leads hfair hC id k).cases hsuspended
  have hadmitted := (pending_admitted_leads hfair hC id k).cases hready
  intro n hp
  obtain ⟨c, hc, haw⟩ := hp.1
  rcases haw.phase with hphase | hphase | ⟨hphase, -⟩
  · exact hadmitted n ⟨hp, c, hc, hphase⟩
  · exact hready n ⟨hp, c, hc, hphase⟩
  · exact hsuspended n ⟨hp, c, hc, hphase⟩

/-- A pending session has such a connection at any time. -/
theorem pending_awaiting (hC : X.Meets (Undisturbed P)) {u : String} {n : ℕ}
    (hn : (X.state n).status u = .authPending) :
    ∃ id k, id.uuid = u ∧ Pending P id k (X.state n) := by
  have hawaits : ∀ n, WellFormed P (X.state n) ∧ PendingAwaits P (X.state n) := by
    refine Execution.always (I := fun s => WellFormed P s ∧ PendingAwaits P s) ?_ ?_ hC
    · exact ⟨wellFormed_initial, fun _ hst => nomatch hst⟩
    · refine wellFormed_preserves.with ?_
      intro s m t hwf hs hm hstep
      exact pendingAwaits_of_effect (effect_of_step hstep) hwf hs hm.2 hm.1
  obtain ⟨id, c, k, rfl, hc, haw⟩ := (hawaits n).2 u hn
  exact ⟨id, k, rfl, ⟨c, hc, haw⟩, hn⟩

/-- **Every handshake ends.**  In a fair execution without disconnects, whose first requests
are `GET`s with accepted contexts and where no connection of a pending session is resumed by
a message that decides nothing, every pending session is decided at some time. -/
theorem handshake_settles (hfair : FairService X) (hC : X.Meets (Undisturbed P)) (u : String) :
    X.LeadsTo (fun s => s.status u = .authPending) fun s => s.status u ≠ .authPending := by
  intro n hn
  obtain ⟨id, k, rfl, hp⟩ := pending_awaiting hC hn
  exact awaiting_leads hfair hC id k n hp

end

/-! ## Executions that come to rest -/

/-- Does the service take the step of its own accord? -/
def Move.isInternal : Move → Bool
  | .inspect .. => false
  | .disconnect _ => false
  | _ => true

/-- Nothing is left to do: every request ran, nothing is under way to a connection that
receives, and nothing waits on a channel. -/
structure Resting (s : State) : Prop where
  connections : ∀ id c, s.connections id = some c →
    c.phase ≠ .admitted ∧ c.phase ≠ .ready ∧ (c.receiving = true → c.inFlight = [])
  queues : ∀ ch, s.queued ch = []

/-- Nothing is left to do for this request. -/
def State.atRest (P : Platform) (s : State) (x : Arrival) : Bool :=
  (s.connections x.id).all (fun c => c.phase ≠ .admitted && c.phase ≠ .ready &&
    (!c.receiving || c.inFlight = [])) &&
  (x.channel P).all fun ch => s.queued ch = []

section

variable {P : Platform} {s : State} {as : List Move}

/-- A run whose requests are all at rest left nothing to do. -/
theorem resting_of_atRest (hrun : (service P).run as = some s)
    (hrest : (arrivals as).all (s.atRest P) = true) : Resting s := by
  have hwf := wellFormed_run hrun
  have harrived : Requests (Arrived as) s := requests_run (fun m hm => arrives_of_mem hm) hrun
  refine ⟨?_, ?_⟩
  · intro id c hc
    have hx := List.all_eq_true.1 hrest _ (harrived id c hc)
    simp only [State.atRest, hc, Option.all_some, Bool.and_eq_true, Bool.or_eq_true,
      Bool.not_eq_true', decide_eq_true_eq] at hx
    obtain ⟨⟨⟨ha, hr⟩, hin⟩, -⟩ := hx
    refine ⟨ha, hr, ?_⟩
    intro hrec
    rcases hin with hno | hempty
    · rw [hrec] at hno
      cases hno
    · exact hempty
  · intro ch
    by_cases hch : s.factory ch = none
    · simp [State.queued, hch]
    · obtain ⟨id, c, hc, -, hof⟩ := chosen_of_exists hrun hch
      have hx := List.all_eq_true.1 hrest _ (harrived id c hc)
      have hchan := channel_of_connection (hwf.ok id c hc)
      simp only [State.atRest, hchan, hof, Option.all_some, Bool.and_eq_true,
        decide_eq_true_eq] at hx
      exact hx.2

/-- Where nothing is left to do, the service does nothing of its own accord. -/
theorem Resting.idle (h : Resting s) (m : Move) (hm : m.isInternal = true) (t : State) :
    step P s m ≠ some t := by
  intro hstep
  have hfx := effect_of_step hstep
  cases hfx with
  | inspected | disconnected => cases hm
  | joined hc hphase | published hc hphase | broadcasted hc hphase | crashed hc hphase =>
    exact (h.connections _ _ hc).1 hphase
  | suspended hc hphase => exact (h.connections _ _ hc).2.1 hphase
  | @taken ch i q e hq he =>
    have hempty := h.queues ch
    rw [State.queued, hq, Option.getD_some] at hempty
    simp [hempty] at he
  | filtered hc hrec he =>
    have hmem := Connection.mem_inFlight_of_offered he
    simp [(h.connections _ _ hc).2.2 hrec] at hmem
  | notified hc hrec he =>
    have hmem := Connection.mem_inFlight_of_passed he
    simp [(h.connections _ _ hc).2.2 hrec] at hmem

/-- **A run that came to rest is fair**, if nothing happens any more. -/
theorem Resting.fairService (h : Resting s) (hrun : (service P).run as = some s) :
    FairService (Execution.ofRun (service P) as (by rw [hrun]; rfl)) := by
  constructor
  · intro id
    refine Execution.ofRun_fair hrun ?_
    rintro m t rfl
    exact h.idle (P := P) (.handle id) rfl t
  · intro id
    refine Execution.ofRun_fair hrun ?_
    rintro m t rfl
    exact h.idle (P := P) (.suspend id) rfl t
  · intro ch e
    refine Execution.ofRun_fair hrun ?_
    rintro m t ⟨i, rfl, -⟩
    exact h.idle (P := P) (.take ch i) rfl t
  · intro id e
    refine Execution.ofRun_fair hrun ?_
    rintro m t ⟨i, c, rfl, -⟩
    exact h.idle (P := P) (.filter id i) rfl t
  · intro id e
    refine Execution.ofRun_fair hrun ?_
    rintro m t ⟨i, c, rfl, -⟩
    exact h.idle (P := P) (.notify id i) rfl t

theorem fairService_ofRun (hrun : (service P).run as = some s)
    (hrest : (arrivals as).all (s.atRest P) = true) :
    FairService (Execution.ofRun (service P) as (by rw [hrun]; rfl)) :=
  (resting_of_atRest hrun hrest).fairService hrun

end

/-- The `POST` of a session, heard by both connections of its channel. -/
def bothHearRun : List Move :=
  commonRun ++ commonPostRun ++
    [.filter ⟨"a", 0⟩ 0, .notify ⟨"a", 0⟩ 0, .filter ⟨"a", 0⟩ 0, .notify ⟨"a", 0⟩ 0]

set_option maxRecDepth 10000 in
theorem post_settles_both : ∃ X : Execution (service (.reading [⟨1, .desktop, "t"⟩])),
    FairService X ∧ ∃ n, ∃ m ≥ n,
      Settled ⟨"b", 0⟩ ⟨{ type := some .contentCreated }, .client ⟨"a", 1⟩⟩ (X.state m) ∨
        Left ⟨"b", 0⟩ (X.state m) := by
  obtain ⟨t, hrun, hrest⟩ := System.run_any (service (.reading [⟨1, .desktop, "t"⟩])) bothHearRun
    (fun t => (arrivals bothHearRun).all (t.atRest (.reading [⟨1, .desktop, "t"⟩]))) (by decide)
  obtain ⟨s, hbefore, hs⟩ := System.run_any (service (.reading [⟨1, .desktop, "t"⟩]))
    (bothHearRun.take 13)
    (fun s => s.listensOn ⟨"b", 0⟩ "/1/DESKTOP/t" && decide (s.connections ⟨"a", 1⟩ = some
      { resource := { uuid := "a", contextHeader := some (ContextKey.json ⟨1, .desktop, "t"⟩) }
        call := .publish { type := some .contentCreated }
        phase := .admitted })) (by decide)
  rw [Bool.and_eq_true, decide_eq_true_eq] at hs
  obtain ⟨c, hc, hsub⟩ := (Option.any_eq_true _ _).1 hs.1
  have hfair := fairService_ofRun hrun hrest
  refine ⟨_, hfair, 13, post_settles hfair ⟨"a", 1⟩ ⟨"b", 0⟩ "/1/DESKTOP/t" _ 13 ?_⟩
  rw [Execution.ofRun_prefix hbefore]
  exact ⟨_, c, hs.2, ⟨rfl, .inl ⟨rfl, by decide⟩⟩, hc, hsub⟩

/-- A client that disconnects while its outcome is under way. -/
def lastOutcomeRun : List Move :=
  [.inspect ⟨"a", 0⟩ (some (ContextKey.json ⟨1, .desktop, "t"⟩)) (.subscribe .message),
    .handle ⟨"a", 0⟩, .suspend ⟨"a", 0⟩, .take "/1/DESKTOP/t" 0, .disconnect ⟨"a", 0⟩,
    .filter ⟨"a", 0⟩ 0, .notify ⟨"a", 0⟩ 0]

set_option maxRecDepth 10000 in
theorem underway_settles_closed : ∃ X : Execution (service (.reading [⟨1, .desktop, "t"⟩])),
    FairService X ∧ (∃ n, InPhase ⟨"a", 0⟩ .closed (X.state n) ∧
      ∃ e, ∃ m ≥ n, Settled ⟨"a", 0⟩ e (X.state m) ∨ InPhase ⟨"a", 0⟩ .resumed (X.state m)) := by
  obtain ⟨t, hrun, hrest⟩ := System.run_any (service (.reading [⟨1, .desktop, "t"⟩]))
    lastOutcomeRun
    (fun t => (arrivals lastOutcomeRun).all (t.atRest (.reading [⟨1, .desktop, "t"⟩]))) (by decide)
  obtain ⟨s, hbefore, hs⟩ := System.run_any (service (.reading [⟨1, .desktop, "t"⟩]))
    (lastOutcomeRun.take 5)
    (fun s => (s.connections ⟨"a", 0⟩).any fun c => c.phase = .closed && c.inFlight ≠ [])
    (by decide)
  obtain ⟨c, hc, hclosed⟩ := (Option.any_eq_true _ _).1 hs
  rw [Bool.and_eq_true, decide_eq_true_eq, decide_eq_true_eq] at hclosed
  obtain ⟨e, he⟩ := List.exists_mem_of_ne_nil _ hclosed.2
  have hfair := fairService_ofRun hrun hrest
  refine ⟨_, hfair, 5, ?_, e, underway_settles hfair ⟨"a", 0⟩ e 5 ?_⟩
  · rw [Execution.ofRun_prefix hbefore]
    exact ⟨c, hc, hclosed.1⟩
  · rw [Execution.ofRun_prefix hbefore]
    exact ⟨c, hc, by simp [Connection.receiving, hclosed.1], he⟩

/-- A client whose handshake succeeds. -/
def succeedingRun : List Move :=
  [.inspect ⟨"a", 0⟩ (some (ContextKey.json ⟨1, .desktop, "t"⟩)) (.subscribe .message),
    .handle ⟨"a", 0⟩, .suspend ⟨"a", 0⟩, .take "/1/DESKTOP/t" 0, .filter ⟨"a", 0⟩ 0,
    .notify ⟨"a", 0⟩ 0]

set_option maxRecDepth 10000 in
theorem handshake_settles_succeeding :
    ∃ X : Execution (service (.reading [⟨1, .desktop, "t"⟩])),
      FairService X ∧ ∃ n, (X.state n).status "a" = .authPending ∧
        ∃ m ≥ n, (X.state m).status "a" ≠ .authPending := by
  obtain ⟨t, hrun, hrest⟩ := System.run_any (service (.reading [⟨1, .desktop, "t"⟩]))
    succeedingRun
    (fun t => (arrivals succeedingRun).all (t.atRest (.reading [⟨1, .desktop, "t"⟩]))) (by decide)
  obtain ⟨s, hbefore, hs⟩ := System.run_any (service (.reading [⟨1, .desktop, "t"⟩]))
    (succeedingRun.take 1) (fun s => s.status "a" = .authPending) (by decide)
  have hfair := fairService_ofRun hrun hrest
  have hstays : ∀ m ∈ succeedingRun, m.isDisconnect = false := by decide
  have hends : (service (.reading [⟨1, .desktop, "t"⟩])).Along
      (EndsInDecision (.reading [⟨1, .desktop, "t"⟩])) State.initial succeedingRun := by decide
  have hmeets := Execution.ofRun_meets hrun ((System.along_of_forall hstays).and hends)
  have hpending : ((Execution.ofRun (service (.reading [⟨1, .desktop, "t"⟩])) succeedingRun
      (by rw [hrun]; rfl)).state 1).status "a" = .authPending := by
    rw [Execution.ofRun_prefix hbefore]
    exact of_decide_eq_true hs
  exact ⟨_, hfair, 1, hpending, handshake_settles hfair hmeets "a" 1 hpending⟩

end Amps
