import Amps.Core.Invariant

/-!
# Which channels exist

A channel is made by the first request that chooses it, and is never taken down: `setupChannel`
looks it up with `create = true`, and nothing in the service removes one.

* `Connection.chose` — the request ran `setupChannel`, in a `GET` or in `doPOST`.
* `channel_exists_iff` — **the channels that exist are those some request chose**, and they
  are there in every continuation; a `doBroadcast` makes none, and neither does a request
  that was dropped or threw.
-/

namespace Amps

open Transition

/-- The request chose its channel: its `doGET` returned, or its `doPOST`. -/
def Connection.chose (c : Connection) : Prop :=
  c.phase.joined = true ∨ c.phase = .answered ∧ ∃ m, c.call = .publish m

/-- Some request chose the channel. -/
def Chosen (P : Platform) (s : State) (ch : String) : Prop :=
  ∃ id c, s.connections id = some c ∧ c.chose ∧ channelOf P c.resource = some ch

section

variable {P : Platform} {s t : State} {m : Move} {id : ResourceId} {ch : String}
  {c c' : Connection}

theorem Connection.Evolves.chose (h : c.Evolves c') (hc : c.chose) : c'.chose := by
  rcases hc with hj | ⟨ha, b, hcall⟩
  · exact .inl (h.phase.joined hj)
  · exact .inr ⟨h.phase.answered ha, b, h.call.trans hcall⟩

theorem Connection.Evolves.channelOf_eq (h : c.Evolves c') :
    channelOf P c'.resource = channelOf P c.resource := by
  rw [channelOf, channelOf, subscription_congr h.uuid h.header]

/-- What was chosen stays chosen. -/
theorem Chosen.mono (h : Effect P s m t) (hch : Chosen P s ch) : Chosen P t ch := by
  obtain ⟨id, c, hc, hchose, hof⟩ := hch
  obtain ⟨c', hc', hev⟩ := h.evolves hc
  exact ⟨id, c', hc', hev.chose hchose, by rw [hev.channelOf_eq, hof]⟩

/-- A step makes a channel only for the request that chooses it. -/
theorem chosen_of_effect (h : Effect P s m t) (hwf : WellFormed P s)
    (hs : ∀ ch, s.factory ch ≠ none → Chosen P s ch) (hch : t.factory ch ≠ none) :
    Chosen P t ch := by
  by_cases hold : s.factory ch = none
  · have hlookup : ∀ {ch' : String}, s.factory.lookup ch' ch ≠ none → ch = ch' := by
      intro ch' hf
      by_contra hne
      exact hf ((BroadcasterFactory.lookup_of_ne hne).trans hold)
    cases h with
    | inspected | crashed | filtered | notified | disconnected => exact absurd hold hch
    | @joined id c endpoint ch' l hc hphase hcall hsub =>
      obtain rfl := hlookup hch
      refine ⟨id, _, State.put_connections_self, .inl rfl, ?_⟩
      exact congrArg (Option.map Prod.fst) hsub
    | @published id c b ch' l hc hphase hcall hsub =>
      have hf : s.factory.lookup ch' ch ≠ none := by
        intro hnone
        by_cases hne : ch = ch'
        · subst hne
          exact BroadcasterFactory.lookup_self _ _ hnone
        · exact hch ((BroadcasterFactory.broadcast_of_ne hne).trans hnone)
      obtain rfl := hlookup hf
      refine ⟨id, _, State.put_connections_self, .inr ⟨rfl, b, hcall⟩, ?_⟩
      have hsame : subscription P (c.resource.afterPOST P ch l) = subscription P c.resource :=
        subscription_congr (by simp) (by simp)
      rw [channelOf, hsame, hsub]
      rfl
    | @broadcasted id c ns b hc hphase hcall =>
      refine absurd ?_ hch
      simp [BroadcasterFactory.broadcastTo, hold]
    | @suspended id c hc hphase =>
      obtain ⟨ch', l, o, hsub, hb, ho, hfire⟩ := (hwf.ok id c hc).fireOnSuspend hphase s.factory
      refine absurd ?_ hch
      rw [State.put_factory, hfire]
      have hne : ch ≠ ch' := by
        rintro rfl
        exact hwf.created id c ch hc hb hold
      rw [BroadcasterFactory.broadcast_of_ne hne, hold]
    | @taken ch' i q e hq he =>
      have hne : ch ≠ ch' := by
        rintro rfl
        simp [hq] at hold
      simp [hne, hold] at hch
  · exact (hs ch hold).mono h

/-- A request finds its channel made once it chose it. -/
theorem exists_of_effect (h : Effect P s m t) (hwf : WellFormed P s)
    (hs : ∀ ch, Chosen P s ch → s.factory ch ≠ none) (hch : Chosen P t ch) :
    t.factory ch ≠ none := by
  obtain ⟨id, c', hc', hchose, hof⟩ := hch
  rcases h.connection_cases hc' with ⟨c, hc, hev⟩ | ⟨header, call, rfl, -, rfl⟩
  · by_cases hbefore : c.chose
    · rw [hev.channelOf_eq] at hof
      exact h.factory_mono hwf.ok (hs ch ⟨id, c, hc, hbefore, hof⟩)
    · rcases hchose with hj | ⟨ha, b, hcall⟩
      · -- `doGET` sets the channel it looked up
        have hok := (wellFormed_of_effect h hwf).ok id c' hc'
        exact (wellFormed_of_effect h hwf).created id c' ch hc' (by rw [← hok.channelOf_eq hj, hof])
      · obtain ⟨c₀, hc₀, hcall₀, ha₀ | ⟨rfl, hphase, -⟩⟩ := h.answers hc' ha
        · rw [hc, Option.some.injEq] at hc₀
          subst hc₀
          exact absurd (.inr ⟨ha₀, b, hev.call ▸ hcall⟩) hbefore
        · rw [hc, Option.some.injEq] at hc₀
          subst hc₀
          rw [hcall₀] at hcall
          cases h with
          | joined hc₁ _ hcall₁ | broadcasted hc₁ _ hcall₁ =>
            rw [hc, Option.some.injEq] at hc₁
            subst hc₁
            simp [hcall] at hcall₁
          | crashed =>
            rw [State.put_connections_self, Option.some.injEq] at hc'
            rw [← hc'] at ha
            cases ha
          | @published _ c₁ b' ch' l hc₁ hphase₁ hcall₁ hsub =>
            rw [hc, Option.some.injEq] at hc₁
            subst hc₁
            rw [hev.channelOf_eq, channelOf, hsub, Option.map_some, Option.some.injEq] at hof
            subst hof
            exact (BroadcasterFactory.grows_broadcast _ _ _).ne_none
              (BroadcasterFactory.lookup_self _ _)
  · rcases hchose with hj | ⟨ha, -⟩
    · dsimp only at hj
      split at hj <;> cases hj
    · dsimp only at ha
      split at ha <;> cases ha

/-- Each channel that exists was chosen. -/
theorem chosen_of_exists {as : List Move} (hrun : (service P).run as = some s)
    (hch : s.factory ch ≠ none) : Chosen P s ch :=
  service_invariant_after (I := fun s => ∀ ch, s.factory ch ≠ none → Chosen P s ch)
    (fun _ _ _ hwf hs h _ hch => chosen_of_effect h hwf hs hch) wellFormed_initial
    (fun _ hch => absurd rfl hch) hrun ch hch

/-- Each channel that was chosen exists. -/
theorem exists_of_chosen {as : List Move} (hrun : (service P).run as = some s)
    (hch : Chosen P s ch) : s.factory ch ≠ none :=
  service_invariant_after (I := fun s => ∀ ch, Chosen P s ch → s.factory ch ≠ none)
    (fun _ _ _ hwf hs h _ hch => exists_of_effect h hwf hs hch) wellFormed_initial
    (fun _ ⟨_, _, hc, _⟩ => nomatch hc) hrun ch hch

/-- A channel that exists is there in every continuation. -/
theorem exists_runFrom {bs : List Move} (hwf : WellFormed P s)
    (hafter : (service P).runFrom s bs = some t) (hch : s.factory ch ≠ none) :
    t.factory ch ≠ none :=
  service_invariant_after (I := fun s => s.factory ch ≠ none)
    (fun _ _ _ hwf hs h => h.factory_mono hwf.ok hs) hwf hch hafter

/-- **The channels that exist are those some request chose**, and none is ever taken down. -/
theorem channel_exists_iff {as : List Move} (hrun : (service P).run as = some s) (ch : String) :
    (s.factory ch ≠ none ↔ Chosen P s ch) ∧
      ∀ bs t, (service P).runFrom s bs = some t → s.factory ch ≠ none → t.factory ch ≠ none :=
  ⟨⟨chosen_of_exists hrun, exists_of_chosen hrun⟩,
    fun _ _ hafter hch => exists_runFrom (wellFormed_run hrun) hafter hch⟩

/-- A client that subscribes, and another whose request is dropped. -/
def choosingRun : List Move :=
  [.inspect ⟨"a", 0⟩ (some (ContextKey.json ⟨1, .desktop, "t"⟩)) (.subscribe .message),
    .inspect ⟨"a", 1⟩ (some (ContextKey.json ⟨2, .mobile, "t"⟩)) (.subscribe .message),
    .handle ⟨"a", 0⟩]

/-- The only client of the channel suspends and disconnects. -/
def desertedRun : List Move := [.suspend ⟨"a", 0⟩, .disconnect ⟨"a", 0⟩]

set_option maxRecDepth 10000 in
theorem channel_exists_iff_choosing : ∃ s t,
    (service (.reading [⟨1, .desktop, "t"⟩, ⟨2, .mobile, "t"⟩])).run choosingRun = some s ∧
      Chosen (.reading [⟨1, .desktop, "t"⟩, ⟨2, .mobile, "t"⟩]) s "/1/DESKTOP/t" ∧
      ¬ Chosen (.reading [⟨1, .desktop, "t"⟩, ⟨2, .mobile, "t"⟩]) s "/2/MOBILE/t" ∧
      (service (.reading [⟨1, .desktop, "t"⟩, ⟨2, .mobile, "t"⟩])).runFrom s desertedRun = some t ∧
      t.factory "/1/DESKTOP/t" ≠ none := by
  obtain ⟨s, hrun, hs⟩ := System.run_any
    (service (.reading [⟨1, .desktop, "t"⟩, ⟨2, .mobile, "t"⟩])) choosingRun
    (fun s => decide (s.factory "/1/DESKTOP/t" ≠ none ∧ s.factory "/2/MOBILE/t" = none))
    (by decide)
  obtain ⟨t, hrun', -⟩ := System.run_any
    (service (.reading [⟨1, .desktop, "t"⟩, ⟨2, .mobile, "t"⟩])) (choosingRun ++ desertedRun)
    (fun _ => true) (by decide)
  obtain ⟨hmade, hnone⟩ := of_decide_eq_true hs
  obtain ⟨hchosen, hstays⟩ := channel_exists_iff hrun "/1/DESKTOP/t"
  have hafter := System.runFrom_of_run_append hrun hrun'
  exact ⟨s, t, hrun, hchosen.1 hmade, fun hch => (channel_exists_iff hrun _).1.2 hch hnone,
    hafter, hstays _ t hafter hmade⟩

end

end Amps
