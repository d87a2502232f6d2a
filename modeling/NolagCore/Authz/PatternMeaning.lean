import NolagCore.Authz.Agreement
import NolagCore.Authz.Resolved

/-!
# Authz.PatternMeaning

Within one session a pattern means one thing. Patterns and internal topics are texts joined with
slashes, and a topic name may be any text: the parts before it are free of slashes, so they are read
off the front. The unique indexes then lead from slugs and ids back to one row.
-/

namespace NolagCore
namespace Authz

open Lib AccessModel

/-! ## What the session and the rows promise -/

/-- The slugs of apps, rooms and scopes are not empty and contain no slash. -/
structure PlainSlugs (s : Store) : Prop where
  app : ∀ app ∈ s.apps, live app = true → app.slug ≠ "" ∧ '/' ∉ app.slug.toList
  room : ∀ room ∈ s.rooms, live room = true → room.slug ≠ "" ∧ '/' ∉ room.slug.toList
  scope : ∀ r ∈ s.accessScopes, live r = true → r.slug ≠ "" ∧ '/' ∉ r.slug.toList

/-- The actor's app grants are on apps of its project. -/
def GrantsAtHome (s : Store) (actorToken : ActorToken) : Prop :=
  ∀ g ∈ s.actorAppAccess, live g = true → g.actorTokenId = actorToken.actorTokenId →
    ∀ app ∈ s.apps, g.appId = app.appId → app.projectId = actorToken.projectId

/-- Over all apps of a session, a pattern names one entry and an internal topic one pattern. -/
structure OneMeaning (apps : List AppAccess) : Prop where
  ofPattern : ∀ a ∈ apps, ∀ e ∈ a.allowedTopics, ∀ a' ∈ apps, ∀ e' ∈ a'.allowedTopics,
    e.pattern = e'.pattern → a.appId = a'.appId ∧ e.roomId = e'.roomId ∧ e.topic = e'.topic ∧
      e.permission = e'.permission
  ofTopic : ∀ a ∈ apps, ∀ e ∈ a.allowedTopics, ∀ a' ∈ apps, ∀ e' ∈ a'.allowedTopics,
    e.topic = e'.topic → e.pattern = e'.pattern

/-- What `patternLookup` inserts for the apps of a session, in the order of the source. -/
def lookupEntries (apps : List AppAccess) : List (String × (Uuid × String)) :=
  apps.flatMap fun a => a.allowedTopics.map fun e => (e.pattern, (a.appId, e.topic))

/-! ## Reading an address from the front -/

section

variable {scope : ResolvedScope}

/-- An address splits into its leading parts and the pieces of the topic name. -/
theorem splitOn_pattern {appSlug : String} (happ : '/' ∉ appSlug.toList)
    (hscope : ∀ slug, scope.scopeSlug = some slug → '/' ∉ slug.toList) {room : Room}
    (hroom : '/' ∉ room.slug.toList) (topicName : String) (p : EAccessPermission) :
    splitOn '/' (buildAllowedTopic appSlug room topicName p scope).pattern =
      appSlug :: ((scope.scopeSlug.toList.filter (· ≠ "")) ++
        room.slug :: splitOn '/' topicName) := by
  have hshort : splitOn '/' (appSlug ++ "/" ++ room.slug ++ "/" ++ topicName) =
      appSlug :: room.slug :: splitOn '/' topicName := splitOn_append_two rfl happ hroom
  unfold buildAllowedTopic
  cases hslug : scope.scopeSlug with
  | none => simpa using hshort
  | some slug =>
    by_cases hne : slug = ""
    · simpa [hne] using hshort
    · simp only [if_pos hne, Option.toList_some]
      rw [splitOn_append_three rfl happ (hscope slug hslug) hroom]
      simp [hne]

theorem slugs_of_pattern {appSlug appSlug' : String} (happ : '/' ∉ appSlug.toList)
    (happ' : '/' ∉ appSlug'.toList)
    (hscope : ∀ slug, scope.scopeSlug = some slug → '/' ∉ slug.toList) {room room' : Room}
    (hroom : '/' ∉ room.slug.toList) (hroom' : '/' ∉ room'.slug.toList) {t t' : String}
    {p p' : EAccessPermission} (h : (buildAllowedTopic appSlug room t p scope).pattern =
      (buildAllowedTopic appSlug' room' t' p' scope).pattern) :
    appSlug = appSlug' ∧ room.slug = room'.slug := by
  have hsplit := congrArg (splitOn '/') h
  rw [splitOn_pattern happ hscope hroom, splitOn_pattern happ' hscope hroom'] at hsplit
  obtain ⟨hhead, htail⟩ := List.cons.inj hsplit
  exact ⟨hhead, (List.cons.inj (List.append_cancel_left htail)).1⟩

theorem topicName_of_topic {appSlug appSlug' : String} {room : Room} {t t' : String}
    {p p' : EAccessPermission} (h : (buildAllowedTopic appSlug room t p scope).topic =
      (buildAllowedTopic appSlug' room t' p' scope).topic) : t = t' := by
  unfold buildAllowedTopic at h
  cases hid : scope.scopeId with
  | none => simpa [hid] using h
  | some id => simpa [hid] using h

end

/-! ## From an address to the rows -/

section

variable {s : Store} (hv : s.SchemaValid) {now : Int} {actorToken : ActorToken}
  {scope : ResolvedScope}

include hv

/-- The apps of a session are told apart by their slugs. -/
theorem access_eq_of_slug (hhome : GrantsAtHome s actorToken) {access access' : Access}
    (ha : access ∈ validAppAccess s now actorToken) (ha' : access' ∈ validAppAccess s now actorToken)
    (h : access.app.slug = access'.app.slug) : access = access' := by
  have hproject : ∀ {a : Access}, a ∈ validAppAccess s now actorToken →
      a.app.projectId = actorToken.projectId := projectId_of_validAppAccess hv hhome
  obtain ⟨hrow, hlive, _⟩ := (mem_validAppAccess hv).1 ha
  obtain ⟨hrow', hlive', _⟩ := (mem_validAppAccess hv).1 ha'
  have happ : access.app = access'.app :=
    hv.appSlug.eq_of_key (List.mem_filter.2 ⟨hrow, hlive⟩) (List.mem_filter.2 ⟨hrow', hlive'⟩)
      (Prod.ext ((hproject ha).trans (hproject ha').symm) h)
  exact access_eq_of_appId hv ha ha' (by rw [happ])

/-- Rooms of a session with one id are one row, of one app. -/
theorem room_eq_of_id {access access' : Access} (ha : access ∈ validAppAccess s now actorToken)
    (ha' : access' ∈ validAppAccess s now actorToken) {room room' : Room}
    (hroom : room ∈ activeRooms s access.app.appId)
    (hroom' : room' ∈ activeRooms s access'.app.appId) (h : room.roomId = room'.roomId) :
    access = access' ∧ room = room' := by
  obtain ⟨hrow, _, happ, _⟩ := mem_activeRooms.1 hroom
  obtain ⟨hrow', _, happ', _⟩ := mem_activeRooms.1 hroom'
  cases hv.pkRoom.eq_of_key hrow hrow' h
  exact ⟨access_eq_of_appId hv ha ha' (happ.symm.trans happ'), rfl⟩

/-- Entries with one pattern are one entry of one app: the slugs lead to the rows, and a room has one
effective grant. -/
theorem entry_eq_of_pattern (hplain : PlainSlugs s) (hhome : GrantsAtHome s actorToken)
    (hscope : ∀ slug, scope.scopeSlug = some slug → '/' ∉ slug.toList) {access access' : Access}
    (ha : access ∈ validAppAccess s now actorToken) (ha' : access' ∈ validAppAccess s now actorToken)
    {e e' : AllowedTopic} (he : e ∈ (buildOf s now actorToken scope access).allowedTopics)
    (he' : e' ∈ (buildOf s now actorToken scope access').allowedTopics)
    (h : e.pattern = e'.pattern) : access = access' ∧ e = e' := by
  obtain ⟨room, hroom, p, t, ⟨ts, hra, _⟩, rfl⟩ := mem_allowedTopics.1 he
  obtain ⟨room', hroom', p', t', ⟨ts', hra', _⟩, rfl⟩ := mem_allowedTopics.1 he'
  obtain ⟨hrow, hlive, _⟩ := (mem_validAppAccess hv).1 ha
  obtain ⟨hrow', hlive', _⟩ := (mem_validAppAccess hv).1 ha'
  obtain ⟨hr, hrl, hrapp, _⟩ := mem_activeRooms.1 hroom
  obtain ⟨hr', hrl', hrapp', _⟩ := mem_activeRooms.1 hroom'
  obtain ⟨hslug, hrslug⟩ := slugs_of_pattern (hplain.app _ hrow hlive).2
    (hplain.app _ hrow' hlive').2 hscope (hplain.room _ hr hrl).2 (hplain.room _ hr' hrl').2 h
  cases access_eq_of_slug hv hhome ha ha' hslug
  have hsame : room = room' :=
    hv.roomSlug.eq_of_key (List.mem_filter.2 ⟨hr, hrl⟩) (List.mem_filter.2 ⟨hr', hrl'⟩)
      (Prod.ext (hrapp.trans hrapp'.symm) hrslug)
  cases hsame
  cases hra.symm.trans hra'
  cases topic_of_pattern h
  exact ⟨rfl, rfl⟩

theorem pattern_eq_of_topic {access access' : Access}
    (ha : access ∈ validAppAccess s now actorToken) (ha' : access' ∈ validAppAccess s now actorToken)
    {e e' : AllowedTopic} (he : e ∈ (buildOf s now actorToken scope access).allowedTopics)
    (he' : e' ∈ (buildOf s now actorToken scope access').allowedTopics)
    (h : e.topic = e'.topic) : e.pattern = e'.pattern := by
  obtain ⟨room, hroom, p, t, _, rfl⟩ := mem_allowedTopics.1 he
  obtain ⟨room', hroom', p', t', _, rfl⟩ := mem_allowedTopics.1 he'
  obtain ⟨rfl, rfl⟩ := room_eq_of_id hv ha ha' hroom hroom' (roomId_of_topic h)
  cases topicName_of_topic h
  rfl

end

/-- The scope of a session is a row, so its slug is free of slashes too. -/
theorem PlainSlugs.scopeSlug {s : Store} (h : PlainSlugs s) {actorToken : ActorToken}
    {scope : ResolvedScope} (hscope : resolveScope s actorToken = some scope) {slug : String}
    (hslug : scope.scopeSlug = some slug) : '/' ∉ slug.toList := by
  unfold resolveScope at hscope
  split at hscope
  · cases hscope
    cases hslug
  · split at hscope
    · cases hscope
    · rename_i row hrow
      split at hscope
      · cases hscope
        cases hslug
        obtain ⟨hm, hlive, _⟩ := of_findOne hrow
        exact (h.scope row hm hlive).2
      · cases hscope

/-- `patternLookup` is filled from the entries of the session. -/
theorem patternLookup_eq {s : Store} {now : Int} {actorToken : ActorToken}
    (hn : ((validAppAccess s now actorToken).map (·.app.appId)).Nodup) (scope : ResolvedScope) :
    patternLookup (buildAppsMap s now actorToken scope) =
      OrderedMap.ofList Prod.fst Prod.snd
        (lookupEntries (buildAppAccess s now actorToken scope)) := by
  rw [buildAppAccess_eq hn]
  unfold patternLookup lookupEntries OrderedMap.values
  rw [entries_buildAppsMap hn, List.map_map, List.flatMap_map, List.flatMap_map]
  rfl

/-- In every session a pattern means one thing, whichever apps its entries are in, and the lookup that
restores subscriptions holds the same whatever order it is filled in. -/
theorem pattern_means_one_thing (config : CoreConfig) (db : Database) (hplain : PlainSlugs db.store)
    (actorToken : ActorToken) (hhome : GrantsAtHome db.store actorToken) (now : Int)
    (payload : ActorSessionPayload)
    (h : buildSessionPayload config db.store now actorToken = .ok payload) :
    OneMeaning payload.apps ∧ ∀ scope, resolveScope db.store actorToken = some scope →
      ∀ entries, entries.Perm (lookupEntries payload.apps) → ∀ pattern,
        (OrderedMap.ofList Prod.fst Prod.snd entries).get? pattern =
          (patternLookup (buildAppsMap db.store now actorToken
            { scopeId := scope.scopeId, scopeSlug := scope.scopeSlug })).get? pattern := by
  have hv := db.valid
  have hn := nodup_validAppAccess hv now actorToken
  obtain ⟨_, scope, _, hscope, _, _, happs⟩ := of_buildSessionPayload h
  have hslug : ∀ slug, scope.scopeSlug = some slug → '/' ∉ slug.toList := fun _ =>
    hplain.scopeSlug hscope
  rw [happs, buildAppAccess_eq hn]
  have hone : OneMeaning ((validAppAccess db.store now actorToken).map
      (appAccessOf db.store now actorToken
        { scopeId := scope.scopeId, scopeSlug := scope.scopeSlug })) := by
    constructor
    · intro a hm e he a' hm' e' he' heq
      obtain ⟨access, ha, rfl⟩ := List.mem_map.1 hm
      obtain ⟨access', ha', rfl⟩ := List.mem_map.1 hm'
      obtain ⟨rfl, rfl⟩ := entry_eq_of_pattern hv hplain hhome hslug ha ha' he he' heq
      exact ⟨rfl, rfl, rfl, rfl⟩
    · intro a hm e he a' hm' e' he' heq
      obtain ⟨access, ha, rfl⟩ := List.mem_map.1 hm
      obtain ⟨access', ha', rfl⟩ := List.mem_map.1 hm'
      exact pattern_eq_of_topic hv ha ha' he he' heq
  refine ⟨hone, fun scope' hscope' entries hperm pattern => ?_⟩
  cases hscope.symm.trans hscope'
  rw [patternLookup_eq hn, buildAppAccess_eq hn]
  refine (OrderedMap.get?_ofList_perm hperm.symm ?_ pattern).symm
  intro x hx y hy hkey
  obtain ⟨a, hm, hxa⟩ := List.mem_flatMap.1 hx
  obtain ⟨e, he, rfl⟩ := List.mem_map.1 hxa
  obtain ⟨a', hm', hya⟩ := List.mem_flatMap.1 hy
  obtain ⟨e', he', rfl⟩ := List.mem_map.1 hya
  obtain ⟨happ, _, htopic, _⟩ := hone.ofPattern a hm e he a' hm' e' he' hkey
  exact Prod.ext happ htopic

/-- Two open apps with a room of one slug each, on a topic name with a slash. -/
def twinDb : Database where
  store :=
    { projects := [{ projectId := .of "p1", name := "acme" }]
      accessScopes := [{ accessScopeId := .of "s1", projectId := .of "p1", name := "Europe",
                         slug := "eu" }]
      apps := [{ appId := .of "a1", projectId := .of "p1", name := "Chat", slug := "chat",
                 topics := some ["a/b"] },
               { appId := .of "a2", projectId := .of "p1", name := "Docs", slug := "docs",
                 topics := some ["a/b"] }]
      rooms := [{ roomId := .of "r1", appId := .of "a1", slug := "main", name := "Main" },
                { roomId := .of "r2", appId := .of "a2", slug := "main", name := "Main" }] }
  valid := by decide

def scopedActor : ActorToken where
  actorTokenId := .of "t1"
  projectId := .of "p1"
  keyId := "at_live_1"
  secretHash := ""
  name := "dora"
  actorType := .user
  accessScopeId := some (.of "s1")

theorem plainSlugs_twinDb : PlainSlugs twinDb.store := ⟨by decide, by decide, by decide⟩

theorem grantsAtHome_twinDb : GrantsAtHome twinDb.store scopedActor := by
  unfold GrantsAtHome
  decide

theorem pattern_means_one_thing_twin :
    ∃ payload, buildSessionPayload {} twinDb.store 0 scopedActor = .ok payload ∧
      payload.apps.map (·.allowedTopics.map (·.pattern)) =
        [["chat/eu/main/a/b"], ["docs/eu/main/a/b"]] ∧
      OneMeaning payload.apps ∧ ∀ scope, resolveScope twinDb.store scopedActor = some scope →
        ∀ entries, entries.Perm (lookupEntries payload.apps) → ∀ pattern,
          (OrderedMap.ofList Prod.fst Prod.snd entries).get? pattern =
            (patternLookup (buildAppsMap twinDb.store 0 scopedActor
              { scopeId := scope.scopeId, scopeSlug := scope.scopeSlug })).get? pattern :=
  ⟨_, rfl, by decide, pattern_means_one_thing {} twinDb plainSlugs_twinDb scopedActor
    grantsAtHome_twinDb 0 _ rfl⟩

end Authz
end NolagCore
