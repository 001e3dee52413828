import Mathlib.Algebra.Order.Group.Multiset
import Amps.Kernel.Transition

/-!
# Publish and subscribe

A broker keeps a queue for each topic.  A message posted on a topic is taken off its queue
at some later time and is then pending for whoever listens to the topic at that time; what
is pending for a subscriber is delivered to it or discarded.

* `Ledger`, `Action`, `broker` — the broker, with a ledger of all that was posted,
  delivered and discarded.
* `Accounted`, `accounted_run` — nothing reaches a subscriber that was not posted on its
  topic, nor more often than it was posted.
* `due_runFrom` — nothing posted is lost to a subscriber that keeps listening.
* `due_subscribe` — what a new subscriber gets.
* `left_runFrom` — nothing more reaches a subscriber that left.
-/

namespace Broker

open Transition

variable {κ τ μ : Type*}

/-- The broker and its books. -/
@[ext]
structure Ledger (κ τ μ : Type*) where
  /-- The topic a subscriber chose. -/
  topic : κ → Option τ
  /-- Does the subscriber still listen? -/
  listening : κ → Bool
  /-- All that was ever posted on a topic. -/
  posted : τ → Multiset μ
  /-- Posted, and not taken yet. -/
  queue : τ → Multiset μ
  /-- Taken while the subscriber listened, and neither delivered nor discarded. -/
  pending : κ → Multiset μ
  delivered : κ → Multiset μ
  discarded : κ → Multiset μ

/-- What can happen next. -/
inductive Action (κ τ μ : Type*) where
  /-- A new subscriber chooses its topic, and listens. -/
  | subscribe (k : κ) (t : τ)
  /-- A subscriber stops listening, for good. -/
  | leave (k : κ)
  /-- A message is posted on every topic `p` holds of. -/
  | post (p : τ → Bool) (m : μ)
  /-- A message is taken off the queue of a topic. -/
  | take (t : τ) (m : μ)
  | deliver (k : κ) (m : μ)
  | discard (k : κ) (m : μ)

namespace Ledger

/-- Nobody subscribed, nothing was posted. -/
def empty : Ledger κ τ μ where
  topic := fun _ => none
  listening := fun _ => false
  posted := fun _ => 0
  queue := fun _ => 0
  pending := fun _ => 0
  delivered := fun _ => 0
  discarded := fun _ => 0

/-- All that was ever taken for a subscriber. -/
def reached (b : Ledger κ τ μ) (k : κ) : Multiset μ := b.pending k + b.delivered k + b.discarded k

end Ledger

/-- The message an action posts on a topic. -/
def Action.posts (t : τ) : Action κ τ μ → Option μ
  | .post p m => if p t then some m else none
  | _ => none

/-- What a run posts on a topic. -/
def postedBy (t : τ) (xs : List (Action κ τ μ)) : Multiset μ := ↑(xs.filterMap (Action.posts t))

theorem postedBy_cons (t : τ) (x : Action κ τ μ) (xs : List (Action κ τ μ)) :
    postedBy t (x :: xs) = postedBy t [x] + postedBy t xs := by
  simp only [postedBy, Multiset.coe_add, ← List.filterMap_append, List.singleton_append]

variable [DecidableEq κ] [DecidableEq μ]

/-- Settling a pending message does not change what reached whom. -/
theorem reached_settled {b : Ledger κ τ μ} {k : κ} {m : μ} (hm : m ∈ b.pending k) (j : κ) :
    ({ b with pending := Function.update b.pending k ((b.pending k).erase m)
              delivered := Function.update b.delivered k (m ::ₘ b.delivered k) } :
      Ledger κ τ μ).reached j = b.reached j ∧
    ({ b with pending := Function.update b.pending k ((b.pending k).erase m)
              discarded := Function.update b.discarded k (m ::ₘ b.discarded k) } :
      Ledger κ τ μ).reached j = b.reached j := by
  by_cases hj : j = k
  · subst hj
    have hcons := Multiset.cons_erase hm
    constructor
    · simp only [Ledger.reached, Function.update_self, Multiset.add_cons]
      rw [← Multiset.cons_add, hcons]
    · simp only [Ledger.reached, Function.update_self, Multiset.add_cons]
      rw [← Multiset.cons_add, ← Multiset.cons_add, hcons]
  · simp [Ledger.reached, hj]

variable [DecidableEq τ]

/-- One action of the broker. -/
def step (b : Ledger κ τ μ) : Action κ τ μ → Option (Ledger κ τ μ)
  | .subscribe k t =>
      if b.topic k = none then
        some { b with
          topic := Function.update b.topic k (some t)
          listening := Function.update b.listening k true }
      else none
  | .leave k =>
      if b.listening k then some { b with listening := Function.update b.listening k false }
      else none
  | .post p m =>
      some { b with
        posted := fun t => if p t then m ::ₘ b.posted t else b.posted t
        queue := fun t => if p t then m ::ₘ b.queue t else b.queue t }
  | .take t m =>
      if m ∈ b.queue t then
        some { b with
          queue := Function.update b.queue t ((b.queue t).erase m)
          pending := fun k =>
            if b.listening k = true ∧ b.topic k = some t then m ::ₘ b.pending k
            else b.pending k }
      else none
  | .deliver k m =>
      if m ∈ b.pending k then
        some { b with
          pending := Function.update b.pending k ((b.pending k).erase m)
          delivered := Function.update b.delivered k (m ::ₘ b.delivered k) }
      else none
  | .discard k m =>
      if m ∈ b.pending k then
        some { b with
          pending := Function.update b.pending k ((b.pending k).erase m)
          discarded := Function.update b.discarded k (m ::ₘ b.discarded k) }
      else none

/-- The broker as a transition system. -/
def broker (κ τ μ : Type*) [DecidableEq κ] [DecidableEq τ] [DecidableEq μ] :
    System (Ledger κ τ μ) (Action κ τ μ) := ⟨Ledger.empty, step⟩

section

variable {b b' : Ledger κ τ μ} {x : Action κ τ μ} {k : κ} {t : τ} {m : μ}

/-! ## What one action does -/

/-- What one action can do to a queue: it holds no more than before, but for what is
posted. -/
theorem step_queue (h : step b x = some b') (t : τ) :
    b.posted t ≤ b'.posted t ∧ b'.queue t + b.posted t ≤ b.queue t + b'.posted t := by
  cases x with
  | subscribe j u | leave j | deliver j m | discard j m =>
    simp only [step] at h
    split at h
    · cases h
      exact ⟨le_rfl, le_rfl⟩
    · cases h
  | post p m =>
    simp only [step, Option.some.injEq] at h
    subst h
    dsimp only
    split
    · exact ⟨Multiset.le_cons_self _ _, by simp only [Multiset.cons_add, Multiset.add_cons, le_rfl]⟩
    · exact ⟨le_rfl, le_rfl⟩
  | take u m =>
    simp only [step] at h
    split at h
    · cases h
      refine ⟨le_rfl, Multiset.add_le_add_right ?_⟩
      by_cases hu : t = u
      · subst hu
        simpa using Multiset.erase_le m (b.queue t)
      · simp [hu]
    · cases h

/-- **What one action can do to a subscriber.**  It keeps its topic, does not listen again
once it left, and what is due to it grows by what is posted while it listens. -/
structure Due (b b' : Ledger κ τ μ) (k : κ) (t : τ) : Prop where
  topic : b'.topic k = some t
  stays : b'.listening k = true → b.listening k = true
  conserved : b'.listening k = true →
    b'.queue t + b'.reached k + b.posted t = b.queue t + b.reached k + b'.posted t
  frozen : b'.listening k = false → b'.reached k = b.reached k

theorem step_due (h : step b x = some b') (ht : b.topic k = some t) : Due b b' k t := by
  cases x with
  | subscribe j u =>
    simp only [step] at h
    split at h
    · rename_i hnew
      have hjk : k ≠ j := by rintro rfl; simp [ht] at hnew
      cases h
      constructor <;> simp [hjk, ht, Ledger.reached]
    · cases h
  | leave j =>
    simp only [step] at h
    split at h
    · cases h
      by_cases hjk : k = j
      · subst hjk
        constructor <;> simp [ht, Ledger.reached]
      · constructor <;> simp [hjk, ht, Ledger.reached]
    · cases h
  | post p m =>
    simp only [step, Option.some.injEq] at h
    subst h
    refine ⟨ht, fun hl => hl, fun _ => ?_, fun _ => rfl⟩
    dsimp only [Ledger.reached]
    split
    · simp only [Multiset.cons_add, Multiset.add_cons]
    · rfl
  | take u m =>
    simp only [step] at h
    split at h
    · rename_i hm
      cases h
      refine ⟨ht, fun hl => hl, ?_, ?_⟩
      · intro hl
        dsimp only [Ledger.reached] at hl ⊢
        by_cases hu : u = t
        · -- the message leaves the queue and becomes pending
          subst hu
          have hcons := Multiset.cons_erase hm
          rw [Function.update_self, if_pos ⟨hl, ht⟩]
          simp only [Multiset.cons_add, Multiset.add_cons]
          rw [← Multiset.cons_add, ← Multiset.cons_add, hcons]
        · have hne : ¬ (b.listening k = true ∧ b.topic k = some u) := by
            rintro ⟨-, htu⟩
            rw [ht, Option.some.injEq] at htu
            exact hu htu.symm
          rw [Function.update_of_ne (Ne.symm hu), if_neg hne]
      · intro hl
        dsimp only [Ledger.reached] at hl ⊢
        rw [if_neg (by simp [hl])]
    · cases h
  | deliver j m =>
    simp only [step] at h
    split at h
    · rename_i hm
      cases h
      have hr := (reached_settled hm k).1
      exact ⟨ht, fun hl => hl, fun _ => by rw [hr], fun _ => hr⟩
    · cases h
  | discard j m =>
    simp only [step] at h
    split at h
    · rename_i hm
      cases h
      have hr := (reached_settled hm k).2
      exact ⟨ht, fun hl => hl, fun _ => by rw [hr], fun _ => hr⟩
    · cases h

/-- A subscriber that chose no topic in this step has none, and nothing reached it. -/
theorem step_new (h : step b x = some b') (ht : b'.topic k = none) :
    b.topic k = none ∧ (b.listening k = false → b'.listening k = false ∧
      b'.reached k = b.reached k) := by
  cases hk : b.topic k with
  | some t =>
    rw [(step_due h hk).topic] at ht
    cases ht
  | none =>
    refine ⟨rfl, ?_⟩
    intro hl
    cases x with
    | subscribe j u =>
      simp only [step] at h
      split at h
      · cases h
        by_cases hjk : k = j
        · subst hjk
          simp at ht
        · simp [hjk, hl, Ledger.reached]
      · cases h
    | leave j =>
      simp only [step] at h
      split at h
      · cases h
        by_cases hjk : k = j
        · subst hjk
          simp [Ledger.reached]
        · simp [hjk, hl, Ledger.reached]
      · cases h
    | post p m =>
      simp only [step, Option.some.injEq] at h
      subst h
      exact ⟨hl, rfl⟩
    | take u m =>
      simp only [step] at h
      split at h
      · cases h
        simp [hl, Ledger.reached]
      · cases h
    | deliver j m =>
      simp only [step] at h
      split at h
      · rename_i hm
        cases h
        exact ⟨hl, (reached_settled hm k).1⟩
      · cases h
    | discard j m =>
      simp only [step] at h
      split at h
      · rename_i hm
        cases h
        exact ⟨hl, (reached_settled hm k).2⟩
      · cases h

/-- A subscriber chooses its topic in a step that does nothing else. -/
theorem step_subscribes (h : step b x = some b') (ht : b.topic k = none)
    (ht' : b'.topic k = some t) : b'.reached k = b.reached k ∧ b'.queue = b.queue := by
  cases x with
  | subscribe j u =>
    simp only [step] at h
    split at h
    · cases h
      exact ⟨rfl, rfl⟩
    · cases h
  | post p m =>
    simp only [step, Option.some.injEq] at h
    subst h
    simp [ht] at ht'
  | leave j | take u m | deliver j m | discard j m =>
    simp only [step] at h
    split at h
    · cases h
      simp [ht] at ht'
    · cases h

/-! ## Nothing from nowhere, and nothing too often -/

/-- The books balance: what is queued and what reached a subscriber was posted on its
topic, and each posting accounts for one of them. -/
structure Accounted (b : Ledger κ τ μ) : Prop where
  new : ∀ k, b.topic k = none → b.listening k = false ∧ b.reached k = 0
  queued : ∀ t, b.queue t ≤ b.posted t
  bounded : ∀ k t, b.topic k = some t → b.queue t + b.reached k ≤ b.posted t

theorem accounted_step (h : step b x = some b') (hb : Accounted b) : Accounted b' where
  new := by
    intro k ht
    obtain ⟨hk, hrest⟩ := step_new h ht
    obtain ⟨hl, hr⟩ := hb.new k hk
    obtain ⟨hl', hr'⟩ := hrest hl
    exact ⟨hl', by rw [hr', hr]⟩
  queued := by
    intro t
    have hq := (step_queue h t).2
    have hle := hq.trans (Multiset.add_le_add_right (hb.queued t))
    rw [add_comm (b.posted t)] at hle
    exact Multiset.le_of_add_le_add_right hle
  bounded := by
    intro k t ht'
    obtain ⟨-, hq⟩ := step_queue h t
    cases ht : b.topic k with
    | none =>
      obtain ⟨hr, hq'⟩ := step_subscribes h ht ht'
      rw [hr, (hb.new k ht).2, add_zero, hq']
      exact (hb.queued t).trans (step_queue h t).1
    | some u =>
      have hdue := step_due h ht
      rw [hdue.topic, Option.some.injEq] at ht'
      subst ht'
      have hle := hb.bounded k u ht
      cases hl : b'.listening k with
      | true =>
        have hsum : b'.queue u + b'.reached k + b.posted u ≤ b'.posted u + b.posted u := by
          rw [hdue.conserved hl, add_comm (b'.posted u)]
          exact Multiset.add_le_add_right hle
        exact Multiset.le_of_add_le_add_right hsum
      | false =>
        have hsum : b'.queue u + b.reached k + b.posted u ≤ b'.posted u + b.posted u := by
          calc b'.queue u + b.reached k + b.posted u
              = b'.queue u + b.posted u + b.reached k := by
                rw [add_assoc, add_assoc, add_comm (b.reached k)]
            _ ≤ b.queue u + b'.posted u + b.reached k := Multiset.add_le_add_right hq
            _ = b'.posted u + (b.queue u + b.reached k) := by
                rw [add_comm (b.queue u), add_assoc]
            _ ≤ b'.posted u + b.posted u := Multiset.add_le_add_left hle
        rw [hdue.frozen hl]
        exact Multiset.le_of_add_le_add_right hsum

theorem accounted_run {xs : List (Action κ τ μ)} (h : (broker κ τ μ).run xs = some b) :
    Accounted b :=
  System.invariant_run (T := broker κ τ μ) (C := fun _ _ => True)
    { new := fun _ _ => ⟨rfl, rfl⟩
      queued := fun _ => le_rfl
      bounded := fun _ _ ht => by cases ht }
    (fun _ _ _ hb _ hstep => accounted_step hstep hb)
    (System.along_of_forall fun _ _ => trivial) h

/-! ## Whole runs -/

theorem step_posted (h : step b x = some b') (t : τ) :
    b'.posted t = postedBy t [x] + b.posted t := by
  cases x with
  | subscribe j u | leave j | take u m | deliver j m | discard j m =>
    simp only [step] at h
    split at h
    · cases h
      simp [postedBy, Action.posts]
    · cases h
  | post p m =>
    simp only [step, Option.some.injEq] at h
    subst h
    cases hp : p t <;> simp [postedBy, Action.posts, hp]

/-- **Nothing is lost.**  While a subscriber listens, what waits in the queue of its topic
and what reached it grow by what is posted on the topic, and by nothing else. -/
theorem due_runFrom {xs : List (Action κ τ μ)} (ht : b.topic k = some t)
    (h : (broker κ τ μ).runFrom b xs = some b') (hl : b'.listening k = true) :
    b.listening k = true ∧
      b'.queue t + b'.reached k = postedBy t xs + (b.queue t + b.reached k) := by
  induction xs generalizing b with
  | nil =>
    cases h
    exact ⟨hl, by simp [postedBy]⟩
  | cons x xs ih =>
    obtain ⟨c, hc, hrest⟩ := (broker κ τ μ).runFrom_cons_eq_some.1 h
    have hdue : Due b c k t := step_due hc ht
    obtain ⟨hlc, hsum⟩ := ih hdue.topic hrest
    refine ⟨hdue.stays hlc, ?_⟩
    have hone : c.queue t + c.reached k = postedBy t [x] + (b.queue t + b.reached k) := by
      have hcons := hdue.conserved hlc
      rw [step_posted hc t, ← add_assoc, add_comm _ (postedBy t [x])] at hcons
      exact add_right_cancel hcons
    calc b'.queue t + b'.reached k
        = postedBy t xs + (postedBy t [x] + (b.queue t + b.reached k)) := by rw [hsum, hone]
      _ = postedBy t (x :: xs) + (b.queue t + b.reached k) := by
          rw [postedBy_cons t x xs, ← add_assoc, add_comm (postedBy t xs)]

/-- What a subscriber gets is what is queued when it subscribes, and what is posted from
then on. -/
theorem due_subscribe {xs : List (Action κ τ μ)} (hb : Accounted b) (hnew : b.topic k = none)
    (h : (broker κ τ μ).runFrom b (.subscribe k t :: xs) = some b')
    (hl : b'.listening k = true) :
    b'.queue t + b'.reached k = postedBy t xs + b.queue t := by
  obtain ⟨c, hc, hrest⟩ := (broker κ τ μ).runFrom_cons_eq_some.1 h
  have hstep : step b (.subscribe k t) = some c := hc
  have htopic : c.topic k = some t := by
    simp only [step, if_pos hnew, Option.some.injEq] at hstep
    rw [← hstep]
    exact Function.update_self ..
  obtain ⟨hreached, hqueue⟩ := step_subscribes hstep hnew htopic
  rw [(due_runFrom htopic hrest hl).2, hqueue, hreached, (hb.new k hnew).2, add_zero]

/-- **Nothing more reaches a subscriber that left.** -/
theorem left_runFrom {xs : List (Action κ τ μ)} (ht : b.topic k = some t)
    (hl : b.listening k = false) (h : (broker κ τ μ).runFrom b xs = some b') :
    b'.reached k = b.reached k := by
  induction xs generalizing b with
  | nil =>
    cases h
    rfl
  | cons x xs ih =>
    obtain ⟨c, hc, hrest⟩ := (broker κ τ μ).runFrom_cons_eq_some.1 h
    have hdue : Due b c k t := step_due hc ht
    have hlc : c.listening k = false := by
      cases hlc : c.listening k with
      | true =>
        rw [hdue.stays hlc] at hl
        cases hl
      | false => rfl
    rw [ih hdue.topic hlc hrest, hdue.frozen hlc]

end

end Broker
