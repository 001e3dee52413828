import Amps.Core.Exchange
import Amps.Kernel.Wildcard

/-!
# What a channel id says about its context

A channel id is the user id, the device type and the token of a context, each after a
slash.  The token comes last and may contain slashes, stars and digits itself.

* `Accepted` — a context and the id `getBroadCasterId` derives from it.
* `deviceStem_starts` — an id starts with `/u/D/` exactly when its context is one of the
  user `u` on a device of type `D`.
* `channel_ids_exact` — exactly the contexts with all three fields are accepted, ids are
  equal for equal contexts only, an admin namespace reaches exactly the channels of one
  user's devices of one type, and no id is the fallback id of a request.
-/

namespace Amps

open Separated

/-! ## Accepted contexts -/

/-- `getBroadCasterId` derives this id from the context. -/
def Accepted (src : ServiceRequestContext) (ch : String) : Prop :=
  ∃ P r, retrieve P r = .ok (some src) ∧ getBroadCasterId P r = .ok ch

/-- **Exactly the contexts with all three fields are accepted**, on the channel of these
fields. -/
theorem accepted_iff {src : ServiceRequestContext} {ch : String} : Accepted src ch ↔
    ∃ k : ContextKey, src.userId = some k.userId ∧ src.deviceType = some k.deviceType ∧
      src.authToken = some k.authToken ∧ ch = k.broadcasterId := by
  constructor
  · rintro ⟨P, r, hr, hch⟩
    unfold getBroadCasterId at hch
    rw [hr] at hch
    cases hu : src.userId <;> cases hd : src.deviceInfo.bind DeviceInfo.type <;>
      cases ht : src.authToken <;> simp [hu, hd, ht] at hch
    rename_i u d t
    exact ⟨⟨u, d, t⟩, rfl, hd, rfl, hch.symm⟩
  · rintro ⟨⟨u, d, t⟩, hu, hd, ht, rfl⟩
    have hr : retrieve ⟨fun _ => some (some src), fun _ _ => false⟩
        ⟨"", some "", none, []⟩ = .ok (some src) := rfl
    refine ⟨_, _, hr, ?_⟩
    rw [ServiceRequestContext.deviceType] at hd
    simp [getBroadCasterId, hr, hu, hd, ht, ContextKey.broadcasterId]

/-! ## Namespaces of a user's devices -/

/-- What the ids of a user's devices of one type start with. -/
def deviceStem (u : Int64) (d : DeviceInfo.Type) : String :=
  "/" ++ toString u.toInt ++ "/" ++ d.toString ++ "/"

/-- The admin namespace of a user's devices of one type. -/
def deviceNamespace (u : Int64) (d : DeviceInfo.Type) : String := deviceStem u d ++ "*"

/-- A star at the end of a namespace matches any text. -/
def StarMatchesAny (P : Platform) : Prop :=
  ∀ stem id : String, '*' ∉ stem.toList →
    (P.matchesPath (stem ++ "*") id = true ↔ stem.toList <+: id.toList)

/-- The platform with a star that matches any text. -/
def Platform.withStar (P : Platform) : Platform :=
  { P with matchesPath := fun path id => Wildcard.accepts '*' path.toList id.toList }

theorem starMatchesAny_withStar (P : Platform) : StarMatchesAny P.withStar := by
  intro stem id hstem
  have h : Wildcard.accepts '*' (stem.toList ++ ['*']) id.toList = true ↔
      stem.toList <+: id.toList := Wildcard.accepts_append_star hstem
  simpa [Platform.withStar, String.toList_append] using h

theorem star_notMem_deviceStem (u : Int64) (d : DeviceInfo.Type) :
    '*' ∉ (deviceStem u d).toList := by
  have hu : '*' ∉ (toString u.toInt).toList := notMem_toString_int (by decide) (by decide) _
  have hd : '*' ∉ d.toString.toList := by cases d <;> decide
  simpa [deviceStem, String.toList_append, hd] using hu

/-- **The stem determines the user and the device type**, whatever the token is. -/
theorem deviceStem_starts {u : Int64} {d : DeviceInfo.Type} {k : ContextKey} :
    (deviceStem u d).toList <+: k.broadcasterId.toList ↔ k.userId = u ∧ k.deviceType = d := by
  have hstem : (deviceStem u d).toList =
      '/' :: ((toString u.toInt).toList ++ '/' :: (d.toString.toList ++ '/' :: [])) := by
    simp [deviceStem, String.toList_append]
  rw [hstem, toList_broadcasterId, List.cons_prefix_cons,
    append_sep_starts (slash_notMem_userId _) (slash_notMem_userId _),
    append_sep_starts (slash_notMem_deviceType _) (slash_notMem_deviceType _),
    toList_userId_inj, toList_deviceType_inj]
  simp [eq_comm]

/-- A text that does not start with a slash starts with no stem. -/
theorem not_deviceStem_starts {u : Int64} {d : DeviceInfo.Type} {s : String}
    (hs : startsWithSlash s = false) : ¬ (deviceStem u d).toList <+: s.toList := by
  rintro ⟨rest, hrest⟩
  rw [startsWithSlash, ← hrest] at hs
  simp [deviceStem, String.toList_append] at hs

/-! ## The ids of accepted contexts -/

section

variable {src src' : ServiceRequestContext} {ch ch' : String}

theorem Accepted.eq_iff (h : Accepted src ch) (h' : Accepted src' ch') :
    ch = ch' ↔ src.userId = src'.userId ∧ src.deviceType = src'.deviceType ∧
      src.authToken = src'.authToken := by
  obtain ⟨k, hu, hd, ht, rfl⟩ := accepted_iff.1 h
  obtain ⟨k', hu', hd', ht', rfl⟩ := accepted_iff.1 h'
  rw [broadcasterId_inj, hu, hu', hd, hd', ht, ht']
  cases k
  cases k'
  simp

theorem Accepted.starts_iff (h : Accepted src ch) (u : Int64) (d : DeviceInfo.Type) :
    (deviceStem u d).toList <+: ch.toList ↔ src.userId = some u ∧ src.deviceType = some d := by
  obtain ⟨k, hu, hd, -, rfl⟩ := accepted_iff.1 h
  rw [deviceStem_starts, hu, hd, Option.some.injEq, Option.some.injEq]

theorem Accepted.startsWithSlash (h : Accepted src ch) : Amps.startsWithSlash ch = true := by
  obtain ⟨k, -, -, -, rfl⟩ := accepted_iff.1 h
  exact startsWithSlash_broadcasterId k

end

/-- A broadcast on the namespace of a user's devices reaches the channels that exist and
start with their stem. -/
theorem doBroadcast_deviceNamespace {P : Platform} (hstar : StarMatchesAny P)
    (f : BroadcasterFactory) (u : Int64) (d : DeviceInfo.Type) (e : Envelope) :
    ∃ g, doBroadcast P f (some (deviceNamespace u d)) e = some g ∧
      ∀ id, ((deviceStem u d).toList <+: id.toList → g id = (f id).map (· ++ [e])) ∧
        (¬ (deviceStem u d).toList <+: id.toList → g id = f id) := by
  refine ⟨_, rfl, ?_⟩
  intro id
  have hmatch := hstar (deviceStem u d) id (star_notMem_deviceStem u d)
  constructor
  · intro hpre
    exact if_pos (hmatch.2 hpre)
  · intro hpre
    exact if_neg fun hm => hpre (hmatch.1 hm)

/-- **Channel ids are exact.**  Exactly the contexts with a user id, a device type and a
token are accepted, on the id that these three make up.  Two accepted contexts share an id
only when they agree in all three fields; an id starts with `/u/D/` exactly when its context
is one of the user `u` on a device of type `D`, so a broadcast on `/u/D/*` reaches the
channels of these contexts and no other; and no id is the fallback id of a request. -/
theorem channel_ids_exact {src src' : ServiceRequestContext} {ch ch' : String}
    (h : Accepted src ch) (h' : Accepted src' ch') :
    (∀ src ch, Accepted src ch ↔ ∃ k : ContextKey, src.userId = some k.userId ∧
      src.deviceType = some k.deviceType ∧ src.authToken = some k.authToken ∧
      ch = k.broadcasterId) ∧
    (ch = ch' ↔ src.userId = src'.userId ∧ src.deviceType = src'.deviceType ∧
      src.authToken = src'.authToken) ∧
    (∀ u d, (deviceStem u d).toList <+: ch.toList ↔
      src.userId = some u ∧ src.deviceType = some d) ∧
    (∀ P, StarMatchesAny P → ∀ f u d e, ∃ g,
      doBroadcast P f (some (deviceNamespace u d)) e = some g ∧
        g ch = (if src.userId = some u ∧ src.deviceType = some d then (f ch).map (· ++ [e])
          else f ch) ∧
        ∀ r : AtmosphereResource, startsWithSlash r.uuid = false → g r.uuid = f r.uuid) ∧
    ∀ r : AtmosphereResource, startsWithSlash r.uuid = false → ch ≠ r.uuid := by
  refine ⟨fun _ _ => accepted_iff, h.eq_iff h', h.starts_iff, ?_, ?_⟩
  · intro P hstar f u d e
    obtain ⟨g, hg, hreach⟩ := doBroadcast_deviceNamespace hstar f u d e
    refine ⟨g, hg, ?_, ?_⟩
    · split
      · rename_i hown
        exact (hreach ch).1 ((h.starts_iff u d).2 hown)
      · rename_i hother
        exact (hreach ch).2 fun hpre => hother ((h.starts_iff u d).1 hpre)
    · intro r hr
      exact (hreach r.uuid).2 (not_deviceStem_starts hr)
  · rintro r hr rfl
    rw [h.startsWithSlash] at hr
    cases hr

/-- The token `7/MOBILE/*` makes an id read like the namespace of another user, whose
broadcasts do not reach it; the context is accepted, and would not be without a token. -/
theorem channel_ids_exact_token :
    Accepted (ContextKey.context ⟨-1, .phi, "7/MOBILE/*"⟩) "/-1/PHI/7/MOBILE/*" ∧
      (∀ ch, ¬ Accepted { ContextKey.context ⟨-1, .phi, "7/MOBILE/*"⟩ with authToken := none } ch) ∧
      "/-1/PHI/7/MOBILE/*" ≠ "/-1/PHI/" ∧
      ¬ (deviceStem 7 .mobile).toList <+: "/-1/PHI/7/MOBILE/*".toList ∧
      (∃ g, doBroadcast (Platform.reading []).withStar (fun _ => some [])
          (some (deviceNamespace 7 .mobile)) ⟨{}, .client ⟨"a", 0⟩⟩ = some g ∧
        g "/-1/PHI/7/MOBILE/*" = some []) ∧
      "/-1/PHI/7/MOBILE/*" ≠ "a" := by
  have h : Accepted (ContextKey.context ⟨-1, .phi, "7/MOBILE/*"⟩) "/-1/PHI/7/MOBILE/*" :=
    accepted_iff.2 ⟨⟨-1, .phi, "7/MOBILE/*"⟩, rfl, rfl, rfl, by decide⟩
  have h' : Accepted (ContextKey.context ⟨-1, .phi, ""⟩) "/-1/PHI/" :=
    accepted_iff.2 ⟨⟨-1, .phi, ""⟩, rfl, rfl, rfl, by decide⟩
  obtain ⟨haccepted, heq, hstarts, hreach, hne⟩ := channel_ids_exact h h'
  refine ⟨h, ?_, ?_, ?_, ?_, hne ⟨"a", none, none, []⟩ (by decide)⟩
  · intro ch hch
    obtain ⟨k, -, -, ht, -⟩ := (haccepted _ ch).1 hch
    cases ht
  · intro hid
    exact absurd (heq.1 hid).2.2 (by decide)
  · rw [hstarts]
    decide
  · obtain ⟨g, hg, hother, -⟩ := hreach _ (starMatchesAny_withStar (.reading []))
      (fun _ => some []) 7 .mobile ⟨{}, .client ⟨"a", 0⟩⟩
    refine ⟨g, hg, ?_⟩
    rw [hother]
    decide

end Amps
