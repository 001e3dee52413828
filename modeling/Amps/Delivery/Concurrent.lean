import Amps.Kernel.Linear
import Amps.Delivery.History

/-!
# Interceptors that overlap with everything else

The running service inspects a request in one step.  Here the interceptor reads and writes
the status access by access, and any other step of the service may come in between: other
interceptors, resource methods, suspends, deliveries and disconnects.

* `Concurrent` — the service, and the interceptors under way.
* `StatusLeftAlone` — nobody turns a status from `UNAVAILABLE`, or back to it, between the
  read an interceptor branches on and its last access.
* `concurrent_refines` — **then nothing new can happen**: every run reads as a run of the
  service, with each request inspected at the last access of its interceptor.
* `concurrent_escapes` — without it, the service with overlapping interceptors reaches states
  that the service in one piece never does.
-/

namespace Amps

open Transition Cell

/-! ## The accesses of the interceptor -/

/-- What the interceptor decides on its third read. -/
def inspectDecide (second : Option Status) : SessionM Action :=
  if statusOf second = .authSuccessful then .done .continue else .done .skipAtmosphereHandler

/-- What the interceptor does after its second read, the one it branches on. -/
def inspectBranch (first : Option Status) : SessionM Action :=
  if statusOf first = .unavailable then .write (some .authPending) (.done .continue)
  else .read inspectDecide

theorem inspect_accesses : inspect = .read fun _ => .read inspectBranch := by
  show (interceptRequest.bind fun pa =>
    if pa = .go then Prog.done Action.continue else Prog.done Action.skipAtmosphereHandler) = _
  unfold interceptRequest
  show (Prog.read fun _ => Prog.read fun first => _) = _
  congr 1
  funext _
  congr 1
  funext first
  simp only [Prog.bind_done]
  unfold inspectBranch
  by_cases hu : statusOf first = .unavailable
  · rw [if_pos hu, if_pos hu]
    rfl
  · rw [if_neg hu, if_neg hu]
    show (Prog.read fun second => _) = _
    congr 1
    funext second
    unfold inspectDecide
    simp only [Prog.bind_done]
    split
    · rfl
    · rfl

/-! ## The service with overlapping interceptors -/

/-- An interceptor under way: its request, what is left of `inspect`, and how many accesses
it has made. -/
structure Interceptor where
  header : Option String
  call : Call
  rest : SessionM Action
  accesses : Nat

/-- The service, and the interceptors under way in it. -/
structure Concurrent where
  service : State
  interceptors : ResourceId → Option Interceptor
  /-- The requests that arrived so far; no step reads it. -/
  arrived : List ResourceId

/-- What can happen next. -/
inductive Concurrent.Move where
  /-- A request arrives, and its interceptor starts. -/
  | arrive (id : ResourceId) (header : Option String) (call : Call)
  /-- An interceptor makes its next access; with its last one the request is inspected. -/
  | access (id : ResourceId)
  /-- Any other step of the service. -/
  | other (move : Amps.Move)
  deriving DecidableEq

/-- Is the step an inspection in one piece? -/
def Move.isInspect : Move → Bool
  | .inspect .. => true
  | _ => false

namespace Concurrent

/-- An interceptor makes its next access. -/
def accessStep (s : Concurrent) (id : ResourceId) : Option Concurrent :=
  match s.interceptors id with
  | none => none
  | some x =>
      match x.rest.last (s.service.sessions id.uuid), x.rest with
      | some (action, value), _ =>
          some { s with
            service := s.service.put id
              { resource := id.resource x.header
                call := x.call
                phase := if action = .continue then .admitted else .dropped }
              value s.service.factory [.inspected id x.call (s.service.status id.uuid) action]
            interceptors := Function.update s.interceptors id none }
      | none, .read k =>
          some { s with
            interceptors := Function.update s.interceptors id
              (some { x with
                rest := k (s.service.sessions id.uuid)
                accesses := x.accesses + 1 }) }
      | none, .write v k =>
          some { s with
            service := { s.service with
              sessions := Function.update s.service.sessions id.uuid v }
            interceptors := Function.update s.interceptors id
              (some { x with rest := k, accesses := x.accesses + 1 }) }
      | none, .done _ => none

/-- One step. -/
def step (P : Platform) (s : Concurrent) : Move → Option Concurrent
  | .arrive id header call =>
      if (s.service.connections id).isSome || (s.interceptors id).isSome then none
      else some { s with
        interceptors := Function.update s.interceptors id (some ⟨header, call, inspect, 0⟩)
        arrived := id :: s.arrived }
  | .access id => s.accessStep id
  | .other m =>
      if m.isInspect then none
      else (Amps.step P s.service m).map fun t => { s with service := t }

end Concurrent

/-- The service with overlapping interceptors, as a transition system. -/
def concurrent (P : Platform) : System Concurrent Concurrent.Move where
  init := ⟨State.initial, fun _ => none, []⟩
  step := Concurrent.step P

/-- A request is inspected with the last access of its interceptor. -/
def inOnePiece (s : Concurrent) : Concurrent.Move → List Move
  | .arrive .. => []
  | .access id =>
      match s.interceptors id with
      | some x =>
          if (x.rest.last (s.service.sessions id.uuid)).isSome then [.inspect id x.header x.call]
          else []
      | none => []
  | .other m => [m]

/-- No step turns a status from `UNAVAILABLE`, or back to it, while an interceptor of that
session is past the read it branches on; its own last access apart. -/
def StatusLeftAlone (P : Platform) (s : Concurrent) (m : Concurrent.Move) : Prop :=
  ∀ id ∈ s.arrived, ∀ x ∈ s.interceptors id, 2 ≤ x.accesses → m ≠ .access id →
    ∀ t ∈ Concurrent.step P s m,
      (t.service.status id.uuid = .unavailable ↔ s.service.status id.uuid = .unavailable)

instance (P : Platform) (s : Concurrent) (m : Concurrent.Move) :
    Decidable (StatusLeftAlone P s m) :=
  inferInstanceAs (Decidable (∀ id ∈ s.arrived, ∀ x ∈ s.interceptors id, 2 ≤ x.accesses →
    m ≠ .access id → ∀ t ∈ Concurrent.step P s m,
      (t.service.status id.uuid = .unavailable ↔ s.service.status id.uuid = .unavailable)))

/-! ## Where an interceptor stands -/

/-- What is left of an interceptor after some accesses, and what it may rely on when the
status is `v`. -/
inductive Reached (v : Status) : SessionM Action → Nat → Prop
  | start : Reached v (.read fun _ => .read inspectBranch) 0
  | first : Reached v (.read inspectBranch) 1
  | entering (h : v = .unavailable) :
      Reached v (.write (some .authPending) (.done .continue)) 2
  | deciding (h : v ≠ .unavailable) : Reached v (.read inspectDecide) 2

/-- Every interceptor under way can rely on what it read. -/
def Undistracted (s : Concurrent) : Prop :=
  ∀ id x, s.interceptors id = some x → s.service.connections id = none ∧ id ∈ s.arrived ∧
    Reached (s.service.status id.uuid) x.rest x.accesses

section

variable {P : Platform} {s s' : Concurrent} {id : ResourceId} {v : Option Status}
  {p : SessionM Action} {n : Nat}

theorem Reached.congr {a b : Status} (h : Reached a p n)
    (hab : 2 ≤ n → (b = .unavailable ↔ a = .unavailable)) : Reached b p n := by
  cases h with
  | start => exact .start
  | first => exact .first
  | entering h => exact .entering ((hab le_rfl).2 h)
  | deciding h => exact .deciding fun hb => h ((hab le_rfl).1 hb)

/-- **The last access agrees with the inspection in one piece.** -/
theorem Reached.agrees (h : Reached (statusOf v) p n) {r : Action × Option Status}
    (hlast : p.last v = some r) : inspect.run v = r := by
  rw [inspect_run]
  cases h with
  | start => cases hlast
  | first =>
    simp only [Prog.last, inspectBranch] at hlast
    split at hlast <;> cases hlast
  | entering h =>
    rw [if_pos h]
    exact Option.some.inj hlast
  | deciding h =>
    rw [if_neg h]
    simp only [Prog.last, inspectDecide] at hlast
    split at hlast
    · rename_i hs
      rw [if_pos hs]
      exact Option.some.inj hlast
    · rename_i hs
      rw [if_neg hs]
      exact Option.some.inj hlast

/-- All other accesses are reads. -/
theorem Reached.reads (h : Reached (statusOf v) p n) (hlast : p.last v = none) :
    ∃ k, p = .read k ∧ Reached (statusOf v) (k v) (n + 1) := by
  cases h with
  | start => exact ⟨_, rfl, .first⟩
  | first =>
    refine ⟨_, rfl, ?_⟩
    unfold inspectBranch
    split
    · rename_i h
      exact .entering h
    · rename_i h
      exact .deciding h
  | entering => cases hlast
  | deciding =>
    simp only [Prog.last, inspectDecide] at hlast
    split at hlast <;> cases hlast

/-! ## One step -/

theorem Undistracted.arrive (h : Undistracted s) {header : Option String} {call : Call}
    (hs : Concurrent.step P s (.arrive id header call) = some s') :
    s'.service = s.service ∧ Undistracted s' := by
  simp only [Concurrent.step] at hs
  split at hs
  · cases hs
  · rename_i hnew
    simp only [Bool.or_eq_true, not_or, Option.not_isSome_iff_eq_none] at hnew
    obtain rfl := Option.some.inj hs
    refine ⟨rfl, ?_⟩
    intro id' x hx
    rcases update_eq_some.1 hx with ⟨rfl, rfl⟩ | ⟨-, hx⟩
    · refine ⟨hnew.1, List.mem_cons_self, ?_⟩
      show Reached _ inspect 0
      rw [inspect_accesses]
      exact .start
    · obtain ⟨hnone, harrived, hreached⟩ := h id' x hx
      exact ⟨hnone, List.mem_cons_of_mem _ harrived, hreached⟩

/-- What an access does, as far as an undistracted interceptor gets: the inspection of the
request, or a read. -/
theorem Undistracted.access_cases (h : Undistracted s)
    (hs : Concurrent.step P s (.access id) = some s') :
    ∃ x, s.interceptors id = some x ∧
      ((inOnePiece s (.access id) = [.inspect id x.header x.call] ∧
        step P s.service (.inspect id x.header x.call) = some s'.service ∧
        s'.arrived = s.arrived ∧ s'.interceptors = Function.update s.interceptors id none ∧
        ∀ id', id' ≠ id → s'.service.connections id' = s.service.connections id') ∨
      ∃ k, x.rest = .read k ∧ inOnePiece s (.access id) = [] ∧
        Reached (s.service.status id.uuid) (k (s.service.sessions id.uuid)) (x.accesses + 1) ∧
        s' = { s with
          interceptors := Function.update s.interceptors id
            (some { x with
              rest := k (s.service.sessions id.uuid)
              accesses := x.accesses + 1 }) }) := by
  simp only [Concurrent.step, Concurrent.accessStep] at hs
  cases hx : s.interceptors id with
  | none =>
    rw [hx] at hs
    cases hs
  | some x =>
    obtain ⟨hnone, -, hreached⟩ := h id x hx
    rw [hx] at hs
    refine ⟨x, rfl, ?_⟩
    cases hlast : x.rest.last (s.service.sessions id.uuid) with
    | some r =>
      obtain ⟨action, value⟩ := r
      simp only [hlast, Option.some.injEq] at hs
      subst hs
      have hrun := hreached.agrees hlast
      have hinspect : Effect P s.service (.inspect id x.header x.call) _ := .inspected hnone
      rw [hrun] at hinspect
      refine .inl ⟨by simp [inOnePiece, hx, hlast], step_of_effect hinspect, rfl, rfl, ?_⟩
      exact fun id' hid => State.put_connections_of_ne hid
    | none =>
      obtain ⟨k, hk, hnext⟩ := hreached.reads hlast
      simp only [hlast] at hs
      rw [hk] at hs
      exact .inr ⟨k, hk, by simp [inOnePiece, hx, hlast], hnext, (Option.some.inj hs).symm⟩

/-- **An access** is the inspection of its request, or changes nothing in the service. -/
theorem Undistracted.access (h : Undistracted s) (hC : StatusLeftAlone P s (.access id))
    (hs : Concurrent.step P s (.access id) = some s') :
    (service P).runFrom s.service (inOnePiece s (.access id)) = some s'.service ∧
      Undistracted s' := by
  obtain ⟨x, hx, ⟨hreads, hinspect, harrived, hleft, hothers⟩ | ⟨k, hk, hreads, hnext, rfl⟩⟩ :=
    h.access_cases hs
  · constructor
    · rw [hreads, System.runFrom_cons_eq_some]
      exact ⟨_, hinspect, rfl⟩
    · intro id' x' hx'
      rw [hleft] at hx'
      by_cases hid : id' = id
      · subst hid
        simp at hx'
      · rw [Function.update_of_ne hid] at hx'
        obtain ⟨hnone', harrived', hreached'⟩ := h id' x' hx'
        refine ⟨(hothers id' hid).trans hnone', by rw [harrived]; exact harrived', ?_⟩
        refine hreached'.congr fun htwo => ?_
        exact hC id' harrived' x' hx' htwo (fun heq => hid (Concurrent.Move.access.inj heq).symm)
          s' hs
  · rw [hreads]
    refine ⟨rfl, ?_⟩
    intro id' x' hx'
    rcases update_eq_some.1 hx' with ⟨rfl, rfl⟩ | ⟨-, hx'⟩
    · exact ⟨(h _ x hx).1, (h _ x hx).2.1, hnext⟩
    · exact h id' x' hx'

/-- Every other step of the service leaves the interceptors alone. -/
theorem Undistracted.other {m : Move} (h : Undistracted s) (hC : StatusLeftAlone P s (.other m))
    (hs : Concurrent.step P s (.other m) = some s') :
    step P s.service m = some s'.service ∧ Undistracted s' := by
  have hstep := hs
  simp only [Concurrent.step] at hs
  split at hs
  · cases hs
  · rename_i hm
    obtain ⟨t, ht, rfl⟩ := Option.map_eq_some_iff.1 hs
    refine ⟨ht, ?_⟩
    intro id x hx
    obtain ⟨hnone, harrived, hreached⟩ := h id x hx
    refine ⟨?_, harrived, ?_⟩
    · -- only an inspection makes a connection
      cases hc : t.connections id with
      | none => rfl
      | some c' =>
        rcases (effect_of_step ht).connection_cases hc with ⟨c, hc₀, -⟩ | ⟨header, call, rfl, -⟩
        · rw [hnone] at hc₀
          cases hc₀
        · exact absurd rfl hm
    · exact hreached.congr fun htwo => hC id harrived x hx htwo (by nofun) _ hstep

/-- The service with overlapping interceptors, read as the service in one piece. -/
def refines (P : Platform) : Simulation (concurrent P) (service P) (StatusLeftAlone P) where
  reads := inOnePiece
  rel s t := t = s.service ∧ Undistracted s
  init := ⟨rfl, fun _ _ hx => by cases hx⟩
  step := by
    rintro s t m s' ⟨rfl, h⟩ hC hstep
    cases m with
    | arrive id header call =>
      obtain ⟨hsame, h'⟩ := h.arrive (P := P) hstep
      exact ⟨s.service, rfl, hsame.symm, h'⟩
    | access id =>
      obtain ⟨hrun, h'⟩ := h.access hC hstep
      exact ⟨s'.service, hrun, rfl, h'⟩
    | other m =>
      obtain ⟨hm, h'⟩ := h.other hC hstep
      refine ⟨s'.service, ?_, rfl, h'⟩
      rw [inOnePiece, System.runFrom_cons_eq_some]
      exact ⟨_, hm, rfl⟩

/-- **Overlapping interceptors do nothing new.**  As long as nobody turns a status from
`UNAVAILABLE` or back to it while an interceptor of the session is between the read it
branches on and its last access, every run reads as a run of the service that inspects each
request in one piece, and ends in the same state. -/
theorem concurrent_refines {as : List Concurrent.Move}
    (hC : (concurrent P).Along (StatusLeftAlone P) (concurrent P).init as)
    (hrun : (concurrent P).run as = some s) :
    (service P).run ((concurrent P).trace inOnePiece (concurrent P).init as) =
      some s.service := by
  obtain ⟨t, ht, hrel⟩ := (refines P).run hC hrun
  have hsame : t = s.service := hrel.1
  rw [← hsame]
  exact ht

end

/-- A request whose interceptor starts before the handshake of its session and ends after
it: it passes, like one that arrives when the session is authenticated. -/
def overlappingInterceptorsRun : List Concurrent.Move :=
  [.arrive ⟨"a", 0⟩ (some (ContextKey.json ⟨1, .desktop, "t"⟩)) (.subscribe .message),
    .arrive ⟨"a", 1⟩ (some (ContextKey.json ⟨1, .desktop, "t"⟩)) (.publish {}),
    .access ⟨"a", 1⟩, .access ⟨"a", 0⟩, .access ⟨"a", 0⟩, .access ⟨"a", 0⟩, .access ⟨"a", 1⟩,
    .other (.handle ⟨"a", 0⟩), .other (.suspend ⟨"a", 0⟩), .other (.take "/1/DESKTOP/t" 0),
    .other (.filter ⟨"a", 0⟩ 0), .other (.notify ⟨"a", 0⟩ 0), .access ⟨"a", 1⟩]

/-- The same requests, each inspected in one piece. -/
def overlappingInOnePiece : List Move :=
  [.inspect ⟨"a", 0⟩ (some (ContextKey.json ⟨1, .desktop, "t"⟩)) (.subscribe .message),
    .handle ⟨"a", 0⟩, .suspend ⟨"a", 0⟩, .take "/1/DESKTOP/t" 0, .filter ⟨"a", 0⟩ 0,
    .notify ⟨"a", 0⟩ 0,
    .inspect ⟨"a", 1⟩ (some (ContextKey.json ⟨1, .desktop, "t"⟩)) (.publish {})]

set_option maxRecDepth 10000 in
theorem concurrent_refines_overlapping : ∃ s,
    (concurrent (.reading [⟨1, .desktop, "t"⟩])).run overlappingInterceptorsRun = some s ∧
      (service (.reading [⟨1, .desktop, "t"⟩])).run overlappingInOnePiece = some s.service ∧
      s.service.status "a" = .authSuccessful := by
  obtain ⟨s, hrun, hs⟩ := System.run_any (concurrent (.reading [⟨1, .desktop, "t"⟩]))
    overlappingInterceptorsRun (fun s => decide (s.service.status "a" = .authSuccessful))
    (by decide)
  have hservice := concurrent_refines (by decide) hrun
  exact ⟨s, hrun, hservice, of_decide_eq_true hs⟩

/-- Two requests of one session, both past their branch before either enters the handshake. -/
def bothEnterRun : List Concurrent.Move :=
  [.arrive ⟨"a", 0⟩ none (.subscribe .message), .arrive ⟨"a", 1⟩ none (.subscribe .message),
    .access ⟨"a", 0⟩, .access ⟨"a", 0⟩, .access ⟨"a", 1⟩, .access ⟨"a", 1⟩, .access ⟨"a", 0⟩,
    .access ⟨"a", 1⟩]

/-- **What overlapping interceptors may do otherwise**: two requests of a session pass as its
first one, and the service in one piece never reaches that state. -/
theorem concurrent_escapes : ∃ s, (concurrent (.reading [])).run bothEnterRun = some s ∧
    ∀ as, (service (.reading [])).run as ≠ some s.service := by
  obtain ⟨s, hrun, hs⟩ := System.run_any (concurrent (.reading [])) bothEnterRun
    (fun s => decide (s.service.history.head? =
      some (.inspected ⟨"a", 1⟩ (.subscribe .message) .authPending .continue))) (by decide)
  obtain ⟨pre, hpre⟩ := List.head?_eq_some_iff.1 (of_decide_eq_true hs)
  refine ⟨s, hrun, ?_⟩
  intro as has
  -- a request passes in the service only from two statuses
  have hcaused := (audited_run has).justified
  rw [hpre] at hcaused
  obtain ⟨⟨-, -, hpass⟩, -⟩ := hcaused
  exact absurd (hpass.1 rfl) (by decide)

end Amps
