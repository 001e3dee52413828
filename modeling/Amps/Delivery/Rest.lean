import Mathlib.Data.List.ProdSigma
import Amps.Kernel.Rest
import Amps.Delivery.Liveness
import Amps.Delivery.History

/-!
# The service comes to rest

What the service does for the requests it got comes to an end, in whatever order it happens.

* `Task` — what the service can do once: each step of a run does a task nobody did before.
* `run_length_le` — **the work is bounded**: a run with `n` requests takes at most
  `3 * n ^ 2 + 4 * n` steps.
* `works_to_rest` — **no deadlock and no livelock**: as long as something is left to do, the
  service can go on, and comes to rest.
* `comes_to_rest` — in a fair execution, once no more requests arrive, the service stops at
  some time, and then nothing is left to do.
-/

namespace Amps

open Transition

/-! ## What can be done once -/

/-- The request a message comes from. -/
def Origin.id : Origin → ResourceId
  | .service a => a
  | .client a => a

/-- What the service does once. -/
inductive Task where
  | inspect (id : ResourceId)
  | handle (id : ResourceId)
  | suspend (id : ResourceId)
  | disconnect (id : ResourceId)
  /-- Take the message of the request `a` off a channel. -/
  | take (channel : String) (a : ResourceId)
  /-- Filter the message of the request `a` for a connection. -/
  | filter (id a : ResourceId)
  /-- Call the listeners of a connection with the message of the request `a`. -/
  | notify (id a : ResourceId)
  deriving DecidableEq

/-- The request has put its message on a channel. -/
def Spoke (a : ResourceId) (s : State) : Prop :=
  ∃ c, s.connections a = some c ∧ (c.phase = .answered ∨ c.phase.live = true)

/-- The message came to the filter of the connection. -/
def Beyond (id : ResourceId) (e : Envelope) (s : State) : Prop :=
  (∃ c, s.connections id = some c ∧ e ∈ c.passed) ∨ Settled id e s

/-- Was the task done? -/
def State.Done (s : State) : Task → Prop
  | .inspect id => s.connections id ≠ none
  | .handle id => ∃ c, s.connections id = some c ∧ c.phase ≠ .admitted
  | .suspend id => ∃ c, s.connections id = some c ∧ c.phase.live = true
  | .disconnect id => InPhase id .closed s
  | .take ch a => s.factory ch ≠ none ∧ Spoke a s ∧ ∀ e ∈ s.queued ch, e.origin.id ≠ a
  | .filter id a => ∃ e, e.origin.id = a ∧ Beyond id e s
  | .notify id a => ∃ e, e.origin.id = a ∧ e ∈ s.heard id

/-- The tasks that were done. -/
def State.done (s : State) : Set Task := { x | s.Done x }

section

variable {P : Platform} {s t : State} {m : Move} {id a : ResourceId} {ch : String} {e e' : Envelope}
  {c : Connection} {as : List Move}

/-! ## What was done stays done -/

theorem Spoke.mono (h : Effect P s m t) (hs : Spoke a s) : Spoke a t := by
  obtain ⟨c, hc, hp⟩ := hs
  obtain ⟨c', hc', hev⟩ := h.evolves hc
  exact ⟨c', hc', hp.imp hev.phase.answered hev.phase.live⟩

/-- Whoever a genuine message comes from has spoken. -/
theorem Genuine.spoke (hG : Genuine P s ch e) : Spoke e.origin.id s := by
  unfold Genuine at hG
  split at hG <;> rename_i a ho <;> rw [ho]
  · obtain ⟨c, l, hc, hlive, -⟩ := hG
    exact ⟨c, hc, .inr hlive⟩
  · obtain ⟨c, hc, hphase, -⟩ := hG
    exact ⟨c, hc, .inl hphase⟩

/-- A request speaks as a client or as a connection of the service. -/
theorem Genuine.origin_eq {ch' : String} (hG : Genuine P s ch e) (hG' : Genuine P s ch' e')
    (hid : e.origin.id = e'.origin.id) : e.origin = e'.origin := by
  unfold Genuine at hG hG'
  split at hG <;> rename_i a ho <;> split at hG' <;> rename_i a' ho' <;> rw [ho, ho'] at hid ⊢ <;>
    obtain rfl : a = a' := hid
  · rfl
  · obtain ⟨c, l, hc, hlive, -⟩ := hG
    obtain ⟨c', hc', hphase, -⟩ := hG'
    rw [hc, Option.some.injEq] at hc'
    rw [hc', hphase] at hlive
    cases hlive
  · obtain ⟨c, hc, hphase, -⟩ := hG
    obtain ⟨c', l, hc', hlive, -⟩ := hG'
    rw [hc, Option.some.injEq] at hc'
    rw [← hc', hphase] at hlive
    cases hlive
  · rfl

/-- A request that still has to run, or to suspend, has not spoken. -/
theorem not_spoke (hc : s.connections id = some c) (ha : c.phase ≠ .answered)
    (hlive : c.phase.live = false) : ¬ Spoke id s := by
  rintro ⟨c', hc', hp⟩
  rw [hc, Option.some.injEq] at hc'
  subst hc'
  rcases hp with hp | hp
  · exact ha hp
  · rw [hlive] at hp
    cases hp

/-- What is queued was queued before, or comes from a request that had not spoken. -/
theorem Effect.queued_source (h : Effect P s m t) (hwf : WellFormed P s) (he : e ∈ t.queued ch) :
    e ∈ s.queued ch ∨ ¬ Spoke e.origin.id s := by
  obtain ⟨q, hq, he⟩ := State.mem_queued.1 he
  rcases h.puts hwf.ok hq he with ⟨q₀, hq₀, he₀⟩ | hputs
  · exact .inl (State.mem_queued.2 ⟨q₀, hq₀, he₀⟩)
  · cases hputs with
    | published hc hphase | broadcasted hc hphase | suspended hc hphase =>
      exact .inr (not_spoke hc (by simp [hphase]) (by simp [hphase, Phase.live]))

theorem Effect.heard_mono (h : Effect P s m t) (he : e ∈ s.heard id) : e ∈ t.heard id := by
  rw [State.mem_heard] at he ⊢
  exact h.mem_history he

theorem Settled.mono (h : Effect P s m t) (hs : Settled id e s) : Settled id e t := by
  rcases hs with hh | hk
  · exact .inl (h.heard_mono hh)
  · obtain ⟨ch, v, hev⟩ := State.mem_filteredOut.1 hk
    exact .inr (State.mem_filteredOut.2 ⟨ch, v, h.mem_history hev⟩)

theorem Beyond.mono (h : Effect P s m t) (hs : Beyond id e s) : Beyond id e t := by
  rcases hs with ⟨c, hc, he⟩ | hs
  · obtain ⟨c', hc', -⟩ := h.evolves hc
    rcases h.passed_cases hc hc' he with he' | hm
    · exact .inl ⟨c', hc', he'⟩
    · exact .inr (.inl (heard_of_notifies h hm))
  · exact .inr (hs.mono h)

theorem Phase.Steps.admitted {p : Phase} (h : p.Steps .admitted) : p = .admitted := by
  cases p <;> simp [Phase.Steps, Phase.next] at h ⊢

/-- **What was done stays done.** -/
theorem done_mono (h : Effect P s m t) (hwf : WellFormed P s) : s.done ⊆ t.done := by
  intro x hx
  cases x with
  | inspect id =>
    obtain ⟨c, hc⟩ := Option.ne_none_iff_exists'.1 hx
    obtain ⟨c', hc', -⟩ := h.evolves hc
    exact Option.ne_none_iff_exists'.2 ⟨c', hc'⟩
  | handle id =>
    obtain ⟨c, hc, hphase⟩ := hx
    obtain ⟨c', hc', hev⟩ := h.evolves hc
    exact ⟨c', hc', fun ha => hphase (ha ▸ hev.phase).admitted⟩
  | suspend id =>
    obtain ⟨c, hc, hlive⟩ := hx
    obtain ⟨c', hc', hev⟩ := h.evolves hc
    exact ⟨c', hc', hev.phase.live hlive⟩
  | disconnect id =>
    obtain ⟨c, hc, hphase⟩ := hx
    obtain ⟨c', hc', hev⟩ := h.evolves hc
    refine ⟨c', hc', ?_⟩
    rcases hev.phase with hp | hp
    · exact hp.trans hphase
    · rw [hphase] at hp
      cases hp
  | take ch a =>
    obtain ⟨hch, hspoke, hpast⟩ := hx
    refine ⟨h.factory_mono hwf.ok hch, hspoke.mono h, ?_⟩
    rintro e he rfl
    rcases h.queued_source hwf he with he | hnot
    · exact hpast e he rfl
    · exact hnot hspoke
  | filter id a =>
    obtain ⟨e, ho, hb⟩ := hx
    exact ⟨e, ho, hb.mono h⟩
  | notify id a =>
    obtain ⟨e, ho, hh⟩ := hx
    exact ⟨e, ho, h.heard_mono hh⟩

/-! ## Nothing is done twice -/

/-- No two messages of a channel come from one request. -/
theorem queued_once (hrun : (service P).run as = some s) {i : Nat}
    (he : (s.queued ch)[i]? = some e) (he' : e' ∈ (s.queued ch).eraseIdx i) :
    e'.origin.id ≠ e.origin.id := by
  obtain ⟨b, hbroker, hwf, posted, rfl, hp⟩ :=
    (refinement P).run (System.along_of_forall fun _ _ => trivial) hrun
  obtain ⟨hgen, hnodup⟩ := hp ch
  have hle := (Broker.accounted_run hbroker).queued ch
  rw [State.ledger_queue, coe_of_getElem? he] at hle
  have honce := Multiset.nodup_of_le (Multiset.map_le_map hle) hnodup
  rw [Multiset.map_cons, Multiset.nodup_cons] at honce
  intro hid
  have hG := hgen e (Multiset.mem_of_le hle (Multiset.mem_cons_self e _))
  have hG' := hgen e' (Multiset.mem_of_le hle (Multiset.mem_cons_of_mem he'))
  exact honce.1 (Multiset.mem_map.2 ⟨e', he', hG'.origin_eq hG hid⟩)

/-- What waits for a connection does not come from a request whose message it was given. -/
theorem account_once (hrun : (service P).run as = some s) (hc : s.connections id = some c)
    (hlive : c.phase.live = true) (hb : c.resource.broadcaster = some ch)
    {xs ys : List Envelope} (hsplit : s.account id ch = xs ++ ys) (he : e ∈ xs) (he' : e' ∈ ys) :
    e'.origin.id ≠ e.origin.id := by
  obtain ⟨hnodup, hgen⟩ := reaches_once hrun hc hlive hb
  rw [hsplit] at hnodup hgen
  rw [List.map_append] at hnodup
  intro hid
  have ho := (hgen e' (List.mem_append_right _ he')).origin_eq
    (hgen e (List.mem_append_left _ he)) hid
  exact List.disjoint_of_nodup_append hnodup (List.mem_map_of_mem he)
    (ho ▸ List.mem_map_of_mem he')

/-- The account of a connection that exists. -/
theorem State.account_eq (hc : s.connections id = some c) : s.account id ch =
    s.queued ch ++ (c.offered ++ (c.passed ++ (s.heard id ++ s.filteredOut id))) := by
  simp only [State.account, State.underway, hc, Option.map_some, Option.getD_some,
    Connection.inFlight, List.append_assoc]

/-- What is still to be filtered for a connection did not come to its filter. -/
theorem not_beyond (hrun : (service P).run as = some s) (hc : s.connections id = some c)
    (hlive : c.phase.live = true) (hb : c.resource.broadcaster = some ch) (he : e ∈ c.offered)
    (hbeyond : Beyond id e' s) : e'.origin.id ≠ e.origin.id := by
  have hsplit : s.account id ch = (s.queued ch ++ c.offered) ++
      (c.passed ++ (s.heard id ++ s.filteredOut id)) := by
    rw [State.account_eq hc, List.append_assoc]
  refine account_once hrun hc hlive hb hsplit (List.mem_append_right _ he) ?_
  rcases hbeyond with ⟨c', hc', he'⟩ | hs
  · rw [hc, Option.some.injEq] at hc'
    exact List.mem_append_left _ (hc' ▸ he')
  · exact List.mem_append_right _ (List.mem_append.2 hs)

/-- What the listeners of a connection are still to hear they did not hear. -/
theorem not_heard (hrun : (service P).run as = some s) (hc : s.connections id = some c)
    (hlive : c.phase.live = true) (hb : c.resource.broadcaster = some ch) (he : e ∈ c.passed)
    (he' : e' ∈ s.heard id) : e'.origin.id ≠ e.origin.id := by
  have hsplit : s.account id ch = (s.queued ch ++ (c.offered ++ c.passed)) ++
      (s.heard id ++ s.filteredOut id) := by
    rw [State.account_eq hc, List.append_assoc, List.append_assoc]
  exact account_once hrun hc hlive hb hsplit
    (List.mem_append_right _ (List.mem_append_right _ he)) (List.mem_append_left _ he')

/-- What is filtered came to the filter. -/
theorem beyond_of_filters (h : Effect P s m t) (hm : Filters id e s m) : Beyond id e t := by
  have hafter := passed_of_filters h hm
  split at hafter
  · obtain ⟨c, hc, -, hpass⟩ := hafter
    exact .inl ⟨c, hc, hpass⟩
  · exact .inr (.inr hafter)

/-- **Each step does a task nobody did before.** -/
theorem does_new (hrun : (service P).run as = some s) (h : Effect P s m t) :
    ∃ x ∈ t.done, x ∉ s.done := by
  have hwf := wellFormed_run hrun
  have hsame : ∀ {id : ResourceId} {c c' : Connection}, s.connections id = some c →
      s.connections id = some c' → c' = c := by
    intro id c c' hc hc'
    rw [hc, Option.some.injEq] at hc'
    exact hc'.symm
  have hfx := h
  cases h with
  | @inspected id header call hnew =>
    refine ⟨.inspect id, ?_, fun hdone => hdone hnew⟩
    show State.connections _ id ≠ none
    rw [State.put_connections_self]
    exact Option.some_ne_none _
  | @joined id c endpoint ch l hc hphase | @published id c b ch l hc hphase
  | @broadcasted id c ns b hc hphase | @crashed id c hc hphase =>
    refine ⟨.handle id, ⟨_, State.put_connections_self, by simp⟩, ?_⟩
    rintro ⟨c', hc', hne⟩
    exact hne ((hsame hc hc').symm ▸ hphase)
  | @suspended id c hc hphase =>
    refine ⟨.suspend id, ⟨_, State.put_connections_self, rfl⟩, ?_⟩
    rintro ⟨c', hc', hlive⟩
    rw [hsame hc hc', hphase] at hlive
    cases hlive
  | @taken ch i q e hq he =>
    have hqueued := State.queued_of_some hq
    refine ⟨.take ch e.origin.id, ⟨?_, ?_, ?_⟩, ?_⟩
    · exact hfx.factory_mono hwf.ok (by simp [hq])
    · exact (hwf.queued ch q hq e (List.mem_of_getElem? he)).spoke.mono hfx
    · intro e' he'
      simp only [State.queued, Function.update_self, Option.getD_some] at he'
      exact queued_once hrun (hqueued.symm ▸ he) (hqueued.symm ▸ he')
    · rintro ⟨-, -, hpast⟩
      exact hpast e (hqueued.symm ▸ List.mem_of_getElem? he) rfl
  | @filtered id i c e ch hc hrec he hch =>
    have hlive := Connection.live_of_receiving hrec
    refine ⟨.filter id e.origin.id, ⟨e, rfl, ?_⟩, ?_⟩
    · exact beyond_of_filters hfx ⟨i, c, rfl, hc, he⟩
    · rintro ⟨e', ho, hbeyond⟩
      exact not_beyond hrun hc hlive hch (List.mem_of_getElem? he) hbeyond ho
  | @notified id i c e hc hrec he =>
    have hlive := Connection.live_of_receiving hrec
    obtain ⟨-, ch, l, -, hb, -⟩ := (hwf.ok id c hc).live hlive
    refine ⟨.notify id e.origin.id, ⟨e, rfl, heard_of_notifies hfx ⟨i, c, rfl, hc, he⟩⟩, ?_⟩
    rintro ⟨e', ho, hheard⟩
    exact not_heard hrun hc hlive hb (List.mem_of_getElem? he) hheard ho
  | @disconnected id c hc hphase =>
    refine ⟨.disconnect id, ⟨_, State.put_connections_self, rfl⟩, ?_⟩
    rintro ⟨c', hc', hclosed⟩
    rw [hsame hc hc', hphase] at hclosed
    cases hclosed

/-- What was done grows with each step. -/
theorem done_grows (hrun : (service P).run as = some s) (h : Effect P s m t) :
    s.done ⊂ t.done := by
  obtain ⟨x, hx, hnew⟩ := does_new hrun h
  exact ⟨done_mono h (wellFormed_run hrun), fun hsub => hnew (hsub hx)⟩

/-! ## How much there is to do -/

/-- A task of these requests on these channels. -/
def Task.Of (ids : List ResourceId) (channels : List String) : Task → Prop
  | .inspect id | .handle id | .suspend id | .disconnect id => id ∈ ids
  | .take ch a => ch ∈ channels ∧ a ∈ ids
  | .filter id a | .notify id a => id ∈ ids ∧ a ∈ ids

/-- The tasks of these requests on these channels. -/
def tasks (ids : List ResourceId) (channels : List String) : List Task :=
  [ids.map Task.inspect, ids.map Task.handle, ids.map Task.suspend, ids.map Task.disconnect,
    (channels ×ˢ ids).map fun x => Task.take x.1 x.2,
    (ids ×ˢ ids).map fun x => Task.filter x.1 x.2,
    (ids ×ˢ ids).map fun x => Task.notify x.1 x.2].flatten

theorem mem_tasks {ids : List ResourceId} {channels : List String} {x : Task}
    (h : x.Of ids channels) : x ∈ tasks ids channels := by
  cases x <;> simpa [tasks, Task.Of] using h

theorem length_tasks (ids : List ResourceId) (channels : List String) :
    (tasks ids channels).length =
      4 * ids.length + (channels.length * ids.length + 2 * (ids.length * ids.length)) := by
  simp only [tasks, List.length_flatten, List.map_cons, List.map_nil, List.sum_cons, List.sum_nil,
    List.length_map, List.length_product]
  ring

/-- What a connection was given was put on its channel. -/
theorem received_of_beyond (hwf : WellFormed P s) (hbeyond : Beyond id e s) :
    ∃ ch, Received P s id ch e := by
  rcases hbeyond with ⟨c, hc, he⟩ | hh | hk
  · exact hwf.inFlight id c hc e (List.mem_append_right _ he)
  · exact hwf.notified id e (State.mem_heard.1 hh)
  · obtain ⟨ch, v, hev⟩ := State.mem_filteredOut.1 hk
    exact ⟨ch, hwf.filtered id ch e v true hev⟩

/-- **A run does nothing but the tasks of its requests.** -/
theorem done_of (hrun : (service P).run as = some s) {x : Task} (hx : x ∈ s.done) :
    x.Of ((arrivals as).map Arrival.id) ((arrivals as).filterMap (Arrival.channel P)) := by
  have hwf := wellFormed_run hrun
  have harrived : Requests (Arrived as) s := requests_run (fun m hm => arrives_of_mem hm) hrun
  have hid : ∀ {id c}, s.connections id = some c → id ∈ (arrivals as).map Arrival.id :=
    fun hc => List.mem_map.2 ⟨_, harrived _ _ hc, rfl⟩
  have hspoke : ∀ {a}, Spoke a s → a ∈ (arrivals as).map Arrival.id := by
    rintro a ⟨c, hc, -⟩
    exact hid hc
  have hbeyond : ∀ {id e}, Beyond id e s → id ∈ (arrivals as).map Arrival.id ∧
      e.origin.id ∈ (arrivals as).map Arrival.id := by
    intro id e hb
    obtain ⟨ch, hG, c, hc, -⟩ := received_of_beyond hwf hb
    exact ⟨hid hc, hspoke hG.spoke⟩
  cases x with
  | inspect id =>
    obtain ⟨c, hc⟩ := Option.ne_none_iff_exists'.1 hx
    exact hid hc
  | handle id | suspend id | disconnect id =>
    obtain ⟨c, hc, -⟩ := hx
    exact hid hc
  | take ch a =>
    obtain ⟨hch, ha, -⟩ := hx
    obtain ⟨id, c, hc, -, hof⟩ := chosen_of_exists hrun hch
    refine ⟨List.mem_filterMap.2 ⟨_, harrived id c hc, ?_⟩, hspoke ha⟩
    rw [channel_of_connection (hwf.ok id c hc), hof]
  | filter id a =>
    obtain ⟨e, rfl, hb⟩ := hx
    exact hbeyond hb
  | notify id a =>
    obtain ⟨e, rfl, hh⟩ := hx
    exact hbeyond (.inr (.inl hh))

/-- **The work is bounded.**  However its steps are ordered, a run with `n` requests takes at
most `3 * n ^ 2 + 4 * n` of them. -/
theorem run_length_le (hrun : (service P).run as = some s) :
    as.length ≤ 3 * (arrivals as).length ^ 2 + 4 * (arrivals as).length := by
  have hsub : s.done ⊆ ↑(tasks ((arrivals as).map Arrival.id)
      ((arrivals as).filterMap (Arrival.channel P))).toFinset := by
    intro x hx
    exact Finset.mem_coe.2 (List.mem_toFinset.2 (mem_tasks (done_of hrun hx)))
  have hgrows : as.length ≤ s.done.ncard := System.length_le_of_grows
    (fun as s m t hbefore hstep => done_grows hbefore (effect_of_step hstep)) hrun
    ((Finset.finite_toSet _).subset hsub)
  have hcard := (Set.ncard_le_ncard hsub (Finset.finite_toSet _)).trans
    ((Set.ncard_coe_finset _).trans_le (List.toFinset_card_le _))
  rw [length_tasks, List.length_map] at hcard
  have hchannels : ((arrivals as).filterMap (Arrival.channel P)).length ≤ (arrivals as).length :=
    List.length_filterMap_le ..
  have hproduct := Nat.mul_le_mul_right (arrivals as).length hchannels
  calc as.length
      ≤ s.done.ncard := hgrows
    _ ≤ _ := hcard
    _ ≤ 3 * (arrivals as).length ^ 2 + 4 * (arrivals as).length := by linarith

set_option maxRecDepth 10000 in
theorem run_length_le_both : bothHearRun.length ≤
    3 * (arrivals bothHearRun).length ^ 2 + 4 * (arrivals bothHearRun).length := by
  obtain ⟨s, hrun, -⟩ := System.run_any (service (.reading [⟨1, .desktop, "t"⟩])) bothHearRun
    (fun _ => true) (by decide)
  exact run_length_le hrun

/-! ## The end of the work -/

variable {X : Execution (service P)}

/-- A request that was let through can run its resource method. -/
theorem handles (hc : s.connections id = some c) (hphase : c.phase = .admitted) :
    ∃ t, Effect P s (.handle id) t := by
  obtain ⟨t, ht⟩ : ∃ t, s.handleStep P id = some t := by
    cases hcall : c.call <;> simp [State.handleStep, hc, hphase, hcall]
  exact ⟨t, effect_of_handleStep ht⟩

/-- Where the service does nothing of its own accord, nothing is left to do. -/
theorem resting_of_idle (hwf : WellFormed P s)
    (hidle : ∀ m t, m.isInternal = true → ¬ Effect P s m t) : Resting s := by
  refine ⟨?_, ?_⟩
  · intro id c hc
    refine ⟨?_, ?_, ?_⟩
    · intro hphase
      obtain ⟨t, ht⟩ := handles hc hphase
      exact hidle _ _ rfl ht
    · intro hphase
      exact hidle _ _ rfl (.suspended hc hphase)
    · intro hrec
      obtain ⟨-, ch, l, -, hb, -⟩ := (hwf.ok id c hc).live (Connection.live_of_receiving hrec)
      rw [Connection.inFlight, List.eq_nil_iff_forall_not_mem]
      intro e he
      rcases List.mem_append.1 he with ho | hp
      · obtain ⟨i, hi⟩ := List.mem_iff_getElem?.1 ho
        exact hidle _ _ rfl (.filtered hc hrec hi hb)
      · obtain ⟨i, hi⟩ := List.mem_iff_getElem?.1 hp
        exact hidle _ _ rfl (.notified hc hrec hi)
  · intro ch
    rw [List.eq_nil_iff_forall_not_mem]
    intro e he
    obtain ⟨q, hq, he⟩ := State.mem_queued.1 he
    obtain ⟨i, hi⟩ := List.mem_iff_getElem?.1 he
    exact hidle _ _ rfl (.taken hq hi)

/-- What the service does of its own accord brings no requests. -/
theorem arrivals_append {bs : List Move} (hbs : ∀ m ∈ bs, m.isInternal = true) :
    arrivals (as ++ bs) = arrivals as := by
  have hnone : arrivals bs = [] := by
    rw [arrivals, List.filterMap_eq_nil_iff]
    intro m hm
    have hinternal := hbs m hm
    cases m with
    | inspect => cases hinternal
    | _ => rfl
  have happend : arrivals (as ++ bs) = arrivals as ++ arrivals bs := List.filterMap_append ..
  rw [happend, hnone, List.append_nil]

/-- **No deadlock and no livelock.**  In each state a run reaches, nothing is left to do or
the service can do something of its own accord; and doing so, without a new request or a
disconnect, it can bring the run to rest within the bound of its requests. -/
theorem works_to_rest (hrun : (service P).run as = some s) :
    (Resting s ∨ ∃ m t, m.isInternal = true ∧ step P s m = some t) ∧
      ∃ bs t, (∀ m ∈ bs, m.isInternal = true) ∧ (service P).run (as ++ bs) = some t ∧
        Resting t ∧
        (as ++ bs).length ≤ 3 * (arrivals as).length ^ 2 + 4 * (arrivals as).length := by
  have hidle : ∀ {bs t}, (service P).run bs = some t →
      (∀ m u, m.isInternal = true → step P t m ≠ some u) → Resting t := by
    intro bs t ht hno
    exact resting_of_idle (wellFormed_run ht) fun m u hm h => hno m u hm (step_of_effect h)
  have hbound : ∀ bs t, (service P).run (as ++ bs) = some t →
      (∀ m ∈ bs, m.isInternal = true) →
        (as ++ bs).length ≤ 3 * (arrivals as).length ^ 2 + 4 * (arrivals as).length := by
    intro bs t ht hbs
    have hle := run_length_le ht
    rwa [arrivals_append hbs] at hle
  have hextends : ∀ bs t, (service P).run (as ++ bs) = some t →
      (∀ m ∈ bs, m.isInternal = true) →
        bs.length ≤ 3 * (arrivals as).length ^ 2 + 4 * (arrivals as).length := by
    intro bs t ht hbs
    have hle := hbound bs t ht hbs
    rw [List.length_append] at hle
    exact (Nat.le_add_left _ _).trans hle
  constructor
  · by_contra hstuck
    rw [not_or] at hstuck
    exact hstuck.1 (hidle hrun fun m t hm hstep => hstuck.2 ⟨m, t, hm, hstep⟩)
  · obtain ⟨bs, t, ht, hbs, hno⟩ := System.exhausts hrun hextends
    exact ⟨bs, t, hbs, ht, hidle ht hno, hbound bs t ht hbs⟩

set_option maxRecDepth 10000 in
theorem works_to_rest_common : ∃ s bs t,
    (service (.reading [⟨1, .desktop, "t"⟩])).run commonRun = some s ∧ ¬ Resting s ∧
      (service (.reading [⟨1, .desktop, "t"⟩])).run (commonRun ++ bs) = some t ∧ Resting t := by
  obtain ⟨s, hrun, hs⟩ := System.run_any (service (.reading [⟨1, .desktop, "t"⟩])) commonRun
    (fun s => (s.connections ⟨"a", 1⟩).any fun c => c.phase = .admitted) (by decide)
  obtain ⟨c, hc, hphase⟩ := (Option.any_eq_true _ _).1 hs
  obtain ⟨bs, t, -, ht, hrest, -⟩ := (works_to_rest hrun).2
  exact ⟨s, bs, t, hrun, fun h => (h.connections _ _ hc).1 (of_decide_eq_true hphase), ht, hrest⟩

/-- A fair execution stops only where nothing is left to do. -/
theorem resting_of_stopped (hfair : FairService X) {k : ℕ} (hstop : ∀ n ≥ k, X.move n = none) :
    Resting (X.state k) := by
  refine resting_of_idle (wellFormed_always X k) ?_
  intro m t hm h
  have hno := fun {K : State → Move → Prop} (hK : X.Fair K) (hkind : K (X.state k) m) =>
    Execution.disabled_of_stopped hK hstop hkind (step_of_effect h)
  cases h with
  | inspected | disconnected => cases hm
  | joined | published | broadcasted | crashed => exact hno (hfair.handle _) rfl
  | suspended => exact hno (hfair.suspend _) rfl
  | @taken ch i q e hq he =>
    exact hno (hfair.take ch e) ⟨i, rfl, by rw [State.queued, hq]; exact he⟩
  | @filtered id i c e ch hc hrec he => exact hno (hfair.filter id e) ⟨i, c, rfl, hc, he⟩
  | @notified id i c e hc hrec he => exact hno (hfair.notify id e) ⟨i, c, rfl, hc, he⟩

/-- Once no more requests arrive, their number stays what it is. -/
theorem arrivals_taken {k : ℕ} (hquiet : ∀ n ≥ k, ∀ m, X.move n = some m → m.arrival = none)
    {n : ℕ} (hn : k ≤ n) : arrivals (X.taken n) = arrivals (X.taken k) := by
  induction n, hn using Nat.le_induction with
  | base => rfl
  | succ n hn ih =>
    have hnone : arrivals (X.move n).toList = [] := by
      cases hm : X.move n with
      | none => rfl
      | some m => simp [arrivals, hquiet n hn m hm]
    have happend : arrivals (X.taken n ++ (X.move n).toList) =
        arrivals (X.taken n) ++ arrivals (X.move n).toList := List.filterMap_append ..
    rw [Execution.taken_succ, happend, hnone, List.append_nil, ih]

/-- **The service comes to rest.**  In a fair execution, once no more requests arrive, the
service stops at some time: every request ran, nothing is under way to a connection that
receives, and nothing waits on a channel. -/
theorem comes_to_rest (hfair : FairService X) {k : ℕ}
    (hquiet : ∀ n ≥ k, ∀ m, X.move n = some m → m.arrival = none) :
    ∃ r, (∀ n ≥ r, X.move n = none) ∧ Resting (X.state r) := by
  have hbounded : ∀ n, (X.taken n).length ≤
      (X.taken k).length + (3 * (arrivals (X.taken k)).length ^ 2 +
        4 * (arrivals (X.taken k)).length) := by
    intro n
    rcases Nat.le_total n k with hn | hn
    · exact (X.length_taken_mono hn).trans (Nat.le_add_right _ _)
    · have hle := run_length_le (X.run_taken n)
      rw [arrivals_taken hquiet hn] at hle
      exact hle.trans (Nat.le_add_left _ _)
  obtain ⟨r, hstop⟩ := Execution.stops_of_bounded hbounded
  exact ⟨r, hstop, resting_of_stopped hfair hstop⟩

set_option maxRecDepth 10000 in
theorem comes_to_rest_both : ∃ X : Execution (service (.reading [⟨1, .desktop, "t"⟩])),
    (X.state 13).connections ⟨"a", 1⟩ ≠ none ∧
      ∃ r, (∀ n ≥ r, X.move n = none) ∧ Resting (X.state r) := by
  obtain ⟨t, hrun, hrest⟩ := System.run_any (service (.reading [⟨1, .desktop, "t"⟩])) bothHearRun
    (fun t => (arrivals bothHearRun).all (t.atRest (.reading [⟨1, .desktop, "t"⟩]))) (by decide)
  obtain ⟨s, hbefore, hs⟩ := System.run_any (service (.reading [⟨1, .desktop, "t"⟩]))
    (bothHearRun.take 13) (fun s => (s.connections ⟨"a", 1⟩).isSome) (by decide)
  have hfair := fairService_ofRun hrun hrest
  have hlater : (bothHearRun.drop 13).all fun m => m.arrival.isNone := by decide
  refine ⟨_, ?_, comes_to_rest hfair (k := 13) ?_⟩
  · rw [Execution.ofRun_prefix hbefore]
    exact Option.isSome_iff_ne_none.1 hs
  · intro n hn m hm
    have hmem : m ∈ bothHearRun.drop 13 := by
      obtain ⟨j, rfl⟩ := Nat.exists_eq_add_of_le hn
      have hget : bothHearRun[13 + j]? = some m := hm
      rw [← List.getElem?_drop] at hget
      exact List.mem_of_getElem? hget
    exact Option.isNone_iff_eq_none.1 (List.all_eq_true.1 hlater m hmem)

end

end Amps
