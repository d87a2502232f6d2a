import NolagCore.Authz.ResolutionSpec
import NolagCore.Lib.Text

/-!
# Authz.Resolved

The session app by app. Under the schema no app of the map is overwritten, so every app of the
payload is built from one element of `validAppAccess`, and its subscriptions are the records whose
pattern stands for an entry of it.
-/

namespace NolagCore
namespace Authz

open Lib AccessModel

/-! ## Addresses -/

section

variable {scope : ResolvedScope}

theorem roomId_of_topic {appSlug appSlug' : String} {room room' : Room} {t t' : String}
    {p p' : EAccessPermission} (h : (buildAllowedTopic appSlug room t p scope).topic =
      (buildAllowedTopic appSlug' room' t' p' scope).topic) : room.roomId = room'.roomId := by
  have hsplit := congrArg (splitOn '/') h
  unfold buildAllowedTopic at hsplit
  cases hid : scope.scopeId with
  | none =>
    simp only [hid] at hsplit
    rw [splitOn_append rfl room.roomId.noSlash, splitOn_append rfl room'.roomId.noSlash] at hsplit
    exact Uuid.ext_text (List.cons.inj hsplit).1
  | some id =>
    simp only [hid] at hsplit
    rw [splitOn_append_two rfl id.noSlash room.roomId.noSlash,
      splitOn_append_two rfl id.noSlash room'.roomId.noSlash] at hsplit
    exact Uuid.ext_text (List.cons.inj (List.cons.inj hsplit).2).1

theorem topic_of_pattern {appSlug : String} {room : Room} {t t' : String} {p p' : EAccessPermission}
    (h : (buildAllowedTopic appSlug room t p scope).pattern =
      (buildAllowedTopic appSlug room t' p' scope).pattern) : t = t' := by
  unfold buildAllowedTopic at h
  dsimp only at h
  cases hslug : scope.scopeSlug with
  | none => simpa [hslug] using h
  | some slug =>
    by_cases hne : slug = ""
    · simpa [hslug, hne] using h
    · simpa [hslug, hne] using h

end

/-! ## The resolved set -/

/-- A record, as the session returns it on an internal topic. -/
def restored (topic : String) (sub : TopicSubscription) : ActiveSubscription where
  pattern := sub.name
  topic := topic
  loadBalance := sub.loadBalance
  loadBalanceGroup := sub.loadBalanceGroup
  filters := sub.filters

section

variable (s : Store) (now : Int) (actorToken : ActorToken) (scope : ResolvedScope)

/-- The actor's resolved set, app by app. -/
def resolvedSet : List (Uuid × AllowedTopic) :=
  (validAppAccess s now actorToken).flatMap fun access =>
    (buildOf s now actorToken scope access).allowedTopics.map fun e => (access.app.appId, e)

/-- The entry a pattern stands for: the last one, where several have it. -/
def standsFor (pattern : String) : Option (Uuid × AllowedTopic) :=
  ((resolvedSet s now actorToken scope).filter fun e => decide (e.2.pattern = pattern)).getLast?

end

/-- `accessibleRoomIds` of every app of a session. -/
def reachedRooms (s : Store) (now : Int) (actorToken : ActorToken) : List Uuid :=
  (validAppAccess s now actorToken).flatMap fun access =>
    (activeRooms s access.app.appId).filterMap fun room =>
      (roomAccess now access (batchedRoomGrants s actorToken room)).map fun _ => room.roomId

/-! ## The map of a session -/

/-- Under the schema the map of a session lists `validAppAccess` in order. -/
theorem entries_buildAppsMap {s : Store} {now : Int} {actorToken : ActorToken}
    (hn : ((validAppAccess s now actorToken).map (·.app.appId)).Nodup) (scope : ResolvedScope) :
    (buildAppsMap s now actorToken scope).entries = (validAppAccess s now actorToken).map
      fun access => (access.app.appId, buildOf s now actorToken scope access) := by
  rw [buildAppsMap_eq, OrderedMap.entries_ofList _ hn]

theorem accessibleRooms_eq {s : Store} {now : Int} {actorToken : ActorToken}
    (hn : ((validAppAccess s now actorToken).map (·.app.appId)).Nodup) (scope : ResolvedScope) :
    (buildAppsMap s now actorToken scope).values.flatMap (·.accessibleRoomIds) =
      reachedRooms s now actorToken := by
  unfold OrderedMap.values
  rw [entries_buildAppsMap hn, List.map_map, List.flatMap_map]
  rfl

section

variable {s : Store} {now : Int} {actorToken : ActorToken} {scope : ResolvedScope}

theorem mem_resolvedSet {appId : Uuid} {e : AllowedTopic} :
    (appId, e) ∈ resolvedSet s now actorToken scope ↔
      ∃ access ∈ validAppAccess s now actorToken, access.app.appId = appId ∧
        e ∈ (buildOf s now actorToken scope access).allowedTopics := by
  unfold resolvedSet
  rw [List.mem_flatMap]
  constructor
  · rintro ⟨access, ha, he⟩
    obtain ⟨e', he', heq⟩ := List.mem_map.1 he
    cases heq
    exact ⟨access, ha, rfl, he'⟩
  · rintro ⟨access, ha, rfl, he⟩
    exact ⟨access, ha, List.mem_map.2 ⟨e, he, rfl⟩⟩

theorem of_standsFor {pattern : String} {appId : Uuid} {e : AllowedTopic}
    (h : standsFor s now actorToken scope pattern = some (appId, e)) :
    e.pattern = pattern ∧ ∃ access ∈ validAppAccess s now actorToken, access.app.appId = appId ∧
      e ∈ (buildOf s now actorToken scope access).allowedTopics := by
  obtain ⟨hm, hp⟩ := List.mem_filter.1 (List.mem_of_getLast? h)
  exact ⟨of_decide_eq_true hp, mem_resolvedSet.1 hm⟩

theorem exists_standsFor {access : Access} (ha : access ∈ validAppAccess s now actorToken)
    {e : AllowedTopic} (he : e ∈ (buildOf s now actorToken scope access).allowedTopics) :
    ∃ appId e', standsFor s now actorToken scope e.pattern = some (appId, e') := by
  have hm : (access.app.appId, e) ∈ (resolvedSet s now actorToken scope).filter
      fun x => decide (x.2.pattern = e.pattern) :=
    List.mem_filter.2 ⟨mem_resolvedSet.2 ⟨access, ha, rfl, he⟩, decide_eq_true rfl⟩
  cases hlast : standsFor s now actorToken scope e.pattern with
  | none =>
    rw [List.getLast?_eq_none_iff.1 hlast] at hm
    cases hm
  | some x => exact ⟨x.1, x.2, rfl⟩

theorem get?_patternLookup (hn : ((validAppAccess s now actorToken).map (·.app.appId)).Nodup)
    (pattern : String) :
    (patternLookup (buildAppsMap s now actorToken scope)).get? pattern =
      (standsFor s now actorToken scope pattern).map fun e => (e.1, e.2.topic) := by
  have hlist : ((buildAppsMap s now actorToken scope).values.flatMap fun build =>
      build.allowedTopics.map fun allowed => (allowed.pattern, (build.appId, allowed.topic))) =
      (resolvedSet s now actorToken scope).map fun e => (e.2.pattern, (e.1, e.2.topic)) := by
    unfold resolvedSet OrderedMap.values
    rw [entries_buildAppsMap hn, List.map_map, List.flatMap_map, List.map_flatMap]
    refine List.flatMap_congr fun access _ => ?_
    rw [List.map_map]
    rfl
  unfold patternLookup standsFor
  rw [hlist, OrderedMap.get?_ofList_map]

end

/-! ## The records of one app -/

/-- What one record becomes under the app. -/
def handBack (find : String → Option (Uuid × String)) (appId : Uuid) (sub : TopicSubscription) :
    Option ActiveSubscription :=
  match find sub.name with
  | some (appId', topic) => if appId' = appId then some (restored topic sub) else none
  | none => none

section

variable {find : String → Option (Uuid × String)} {appId : Uuid} {recorded : List TopicSubscription}

theorem of_handBack {sub : TopicSubscription} {active : ActiveSubscription}
    (h : handBack find appId sub = some active) :
    ∃ topic, find sub.name = some (appId, topic) ∧ active = restored topic sub := by
  unfold handBack at h
  split at h
  · rename_i hfind
    split at h
    · rename_i heq
      cases h
      exact ⟨_, heq ▸ hfind, rfl⟩
    · cases h
  · cases h

variable (find appId recorded) in
/-- Grouping by app is a selection for each app. -/
theorem getD_groupBy_records : (((OrderedMap.groupBy Prod.fst (recorded.filterMap fun sub =>
    (find sub.name).map fun (appId', topic) => (appId', restored topic sub))).get? appId).getD
      []).map Prod.snd = recorded.filterMap (handBack find appId) := by
  rw [OrderedMap.getD_groupBy]
  induction recorded with
  | nil => rfl
  | cons sub recorded ih =>
    cases hfind : find sub.name with
    | none =>
      have hback : handBack find appId sub = none := by simp [handBack, hfind]
      simpa [hfind, hback] using ih
    | some x =>
      by_cases hx : x.1 = appId
      · have hback : handBack find appId sub = some (restored x.2 sub) := by
          simp [handBack, hfind, hx]
        simpa [hfind, hx, hback] using ih
      · have hback : handBack find appId sub = none := by simp [handBack, hfind, hx]
        simpa [hfind, hx, hback] using ih

/-- Under the app it is found in, a name comes back once a record. -/
theorem handedBack_of_found {name topic : String} (hfind : find name = some (appId, topic)) :
    ((recorded.filterMap (handBack find appId)).filter fun sub => decide (sub.pattern = name)) =
      (recorded.filter fun r => decide (r.name = name)).map (restored topic) := by
  induction recorded with
  | nil => rfl
  | cons sub recorded ih =>
    by_cases hname : sub.name = name
    · have hback : handBack find appId sub = some (restored topic sub) := by
        simp [handBack, hname, hfind]
      have hpattern : (restored topic sub).pattern = name := hname
      simpa [hback, hname, hpattern] using ih
    · cases hback : handBack find appId sub with
      | none => simpa [hback, hname] using ih
      | some active =>
        obtain ⟨_, _, rfl⟩ := of_handBack hback
        simpa [hback, hname, restored] using ih

end

/-! ## The session -/

/-- One app of the session, built from the rows. -/
def appAccessOf (s : Store) (now : Int) (actorToken : ActorToken) (scope : ResolvedScope)
    (access : Access) : AppAccess :=
  let build := buildOf s now actorToken scope access
  let find := fun pattern => (standsFor s now actorToken scope pattern).map fun e => (e.1, e.2.topic)
  { appId := build.appId
    appName := build.appName
    appSlug := build.appSlug
    allowedTopics := build.allowedTopics
    allowedLobbies := attachLobbies s (buildAppsMap s now actorToken scope) access.app.appId
    activeSubscriptions := (recordedSubscriptions s actorToken.actorTokenId).filterMap
      (handBack find access.app.appId)
    hydrationWebhook := build.hydrationWebhook
    triggerWebhook := build.triggerWebhook
    topicWebhooks := build.topicWebhooks }

theorem buildAppAccess_eq {s : Store} {now : Int} {actorToken : ActorToken}
    (hn : ((validAppAccess s now actorToken).map (·.app.appId)).Nodup) (scope : ResolvedScope) :
    buildAppAccess s now actorToken scope =
      (validAppAccess s now actorToken).map (appAccessOf s now actorToken scope) := by
  unfold buildAppAccess
  split
  · rename_i hempty
    rw [List.isEmpty_iff.1 hempty]
    rfl
  · dsimp only
    rw [entries_buildAppsMap hn, List.map_map]
    refine List.map_congr_left fun access _ => ?_
    have hfind : (patternLookup (buildAppsMap s now actorToken scope)).get? = fun pattern =>
        (standsFor s now actorToken scope pattern).map fun e => (e.1, e.2.topic) :=
      funext fun pattern => get?_patternLookup hn pattern
    have hactive := getD_groupBy_records (patternLookup (buildAppsMap s now actorToken scope)).get?
      access.app.appId (recordedSubscriptions s actorToken.actorTokenId)
    rw [hfind] at hactive
    simp only [Function.comp, appAccessOf, activeSubscriptionsByApp]
    rw [← hactive, ← hfind]
    rfl

/-- The subscriptions of an app are the records whose pattern stands for an entry of it. -/
theorem mem_activeSubscriptions {s : Store} {now : Int} {actorToken : ActorToken}
    {scope : ResolvedScope} {access : Access} {sub : ActiveSubscription} :
    sub ∈ (appAccessOf s now actorToken scope access).activeSubscriptions ↔
      ∃ record ∈ recordedSubscriptions s actorToken.actorTokenId, ∃ e,
        standsFor s now actorToken scope record.name = some (access.app.appId, e) ∧
        sub = restored e.topic record := by
  constructor
  · intro h
    obtain ⟨record, hr, hback⟩ := List.mem_filterMap.1 h
    obtain ⟨topic, hfind, rfl⟩ := of_handBack hback
    obtain ⟨⟨appId, e⟩, hstands, heq⟩ := Option.map_eq_some_iff.1 hfind
    cases heq
    exact ⟨record, hr, e, hstands, rfl⟩
  · rintro ⟨record, hr, e, hstands, rfl⟩
    refine List.mem_filterMap.2 ⟨record, hr, ?_⟩
    simp [handBack, hstands]

end Authz
end NolagCore
