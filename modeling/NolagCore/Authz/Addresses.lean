import NolagCore.Authz.ParseBack
import NolagCore.Facade.History

/-!
# Authz.Addresses

Addresses over time. The broker keeps the internal topics it was told; an internal topic that one
actor was told long ago and another is told now stands for the same pattern, because the slugs of
the scope, the app and the room behind it are written once and the ids are never given to other
rows.
-/

namespace NolagCore
namespace Authz

open Lib Store Facade
open ProjectConfig (Host sampleHost)

/-! ## The rows behind an address -/

/-- `(pattern, topic)` is built from a room of the store and the app it is in. -/
def AddressIn (s : Store) (scope : ResolvedScope) (pattern topic : String) : Prop :=
  ∃ app ∈ s.apps, ∃ room ∈ s.rooms, room.appId = app.appId ∧ ∃ topicName p,
    pattern = (buildAllowedTopic app.slug room topicName p scope).pattern ∧
    topic = (buildAllowedTopic app.slug room topicName p scope).topic

theorem addressIn_of_allowed {s : Store} {now : Int} {actorToken : ActorToken}
    {scope : ResolvedScope} {appAccess : AppAccess}
    (happ : appAccess ∈ buildAppAccess s now actorToken scope) {e : AllowedTopic}
    (he : e ∈ appAccess.allowedTopics) : AddressIn s scope e.pattern e.topic := by
  obtain ⟨access, ha, _, _, htopics⟩ := of_mem_buildAppAccess happ
  rw [htopics] at he
  obtain ⟨room, hroom, p, topicName, _, rfl⟩ := mem_allowedTopics.1 he
  obtain ⟨hrow, _, hroomApp, _⟩ := mem_activeRooms.1 hroom
  exact ⟨access.app, (of_mem_validAppAccess ha).1, room, hrow, hroomApp, topicName, p, rfl, rfl⟩

/-- Whatever an actor receives is the address of a room, in the scope its row resolves to. -/
theorem Receives.addressIn {s : Store} {actorToken : ActorToken} {pattern topic : String}
    (h : Receives s actorToken pattern topic) :
    ∃ scope, resolveScope s actorToken = some scope ∧ AddressIn s scope pattern topic := by
  cases h with
  | allowed session app mem =>
    obtain ⟨_, _, hp⟩ := session.built
    obtain ⟨_, scope, _, hscope, _, _, happs⟩ := of_buildSessionPayload hp
    exact ⟨scope, hscope, addressIn_of_allowed (happs ▸ app) mem⟩
  | active session app mem =>
    obtain ⟨_, _, hp⟩ := session.built
    obtain ⟨_, scope, _, hscope, _, _, happs⟩ := of_buildSessionPayload hp
    obtain ⟨_, happ', e, he, hpattern, htopic⟩ := allowed_of_active (happs ▸ app) mem
    rw [hpattern, htopic]
    exact ⟨scope, hscope, addressIn_of_allowed happ' he⟩
  | @checked r e check mem =>
    cases check with
    | @live now actorTokenId requested row =>
      rcases checkRoomAccess_cases s now actorTokenId requested with
        ⟨actorToken', scope, appSlug, roomSlug, hactor, _, _, hscope, _, heq⟩ | heq
      · cases row.symm.trans hactor
        rw [heq] at mem
        obtain ⟨app, _, room, p, _, hs, topicName, _, rfl⟩ := mem_checkRoom.1 mem
        obtain ⟨hroom, _, _, hroomApp, _⟩ := of_roomBySlug hs.byRoom
        exact ⟨scope, hscope, app, (of_appBySlug hs.byApp).1, room, hroom, hroomApp, topicName, p,
          rfl, rfl⟩
      · rw [heq] at mem
        cases mem

theorem pattern_congr {appSlug topicName : String} {room room' : Room} {p p' : EAccessPermission}
    {scope scope' : ResolvedScope} (hroom : room'.slug = room.slug)
    (hscope : scope'.scopeSlug = scope.scopeSlug) :
    (buildAllowedTopic appSlug room' topicName p' scope').pattern =
      (buildAllowedTopic appSlug room topicName p scope).pattern := by
  unfold buildAllowedTopic
  rw [hroom, hscope]

/-! ## Rows of two moments -/

section

variable {s s' : Store} (hkeeps : Keeps s s') (hv' : s'.SchemaValid)

include hkeeps hv'

theorem scope_stands {r r' : AccessScope} (hr : r ∈ s.accessScopes) (hr' : r' ∈ s'.accessScopes)
    (hid : r'.accessScopeId = r.accessScopeId) : r'.slug = r.slug := by
  obtain ⟨r'', hr'', hb⟩ := hkeeps.accessScopes r hr
  obtain ⟨hid'', _, hslug⟩ := Fixed.accessScope.inj hb.fixed
  rw [hv'.pkScope.eq_of_key hr' hr'' (hid.trans hid''.symm), hslug]

theorem app_stands {r r' : PlatformApp} (hr : r ∈ s.apps) (hr' : r' ∈ s'.apps)
    (hid : r'.appId = r.appId) : r'.slug = r.slug := by
  obtain ⟨r'', hr'', hb⟩ := hkeeps.apps r hr
  obtain ⟨hid'', _, hslug⟩ := Fixed.app.inj hb.fixed
  rw [hv'.pkApp.eq_of_key hr' hr'' (hid.trans hid''.symm), hslug]

theorem room_stands {r r' : Room} (hr : r ∈ s.rooms) (hr' : r' ∈ s'.rooms)
    (hid : r'.roomId = r.roomId) : r'.slug = r.slug ∧ r'.appId = r.appId := by
  obtain ⟨r'', hr'', hb⟩ := hkeeps.rooms r hr
  obtain ⟨hid'', happ, hslug⟩ := Fixed.room.inj hb.fixed
  rw [hv'.pkRoom.eq_of_key hr' hr'' (hid.trans hid''.symm)]
  exact ⟨hslug, happ⟩

/-- Addresses of one room and one topic name, under scopes of one slug, have one pattern. -/
theorem pattern_stands {app app' : PlatformApp} {room room' : Room} {topicName : String}
    {p p' : EAccessPermission} {scope scope' : ResolvedScope} (happ : app ∈ s.apps)
    (happ' : app' ∈ s'.apps) (hroom : room ∈ s.rooms) (hroom' : room' ∈ s'.rooms)
    (hin : room.appId = app.appId) (hin' : room'.appId = app'.appId)
    (hid : room'.roomId = room.roomId) (hscope : scope'.scopeSlug = scope.scopeSlug) :
    (buildAllowedTopic app'.slug room' topicName p' scope').pattern =
      (buildAllowedTopic app.slug room topicName p scope).pattern := by
  obtain ⟨hslug, hroomApp⟩ := room_stands hkeeps hv' hroom hroom' hid
  rw [app_stands hkeeps hv' happ happ' (hin'.symm.trans (hroomApp.trans hin))]
  exact pattern_congr hslug hscope

omit hv'

/-- A scope that was there is no room now. -/
theorem scope_never_room (hids : s'.IdsApart) {scope : AccessScope} {room : Room}
    (hscope : scope ∈ s.accessScopes) (hroom : room ∈ s'.rooms) :
    scope.accessScopeId ≠ room.roomId := by
  obtain ⟨scope', hscope', hb⟩ := hkeeps.accessScopes scope hscope
  obtain ⟨hid, _, _⟩ := Fixed.accessScope.inj hb.fixed
  rw [← hid]
  exact hids.scope_ne_room hscope' hroom

theorem room_never_scope (hids : s'.IdsApart) {scope : AccessScope} {room : Room}
    (hroom : room ∈ s.rooms) (hscope : scope ∈ s'.accessScopes) :
    scope.accessScopeId ≠ room.roomId := by
  obtain ⟨room', hroom', hb⟩ := hkeeps.rooms room hroom
  obtain ⟨hid, _, _⟩ := Fixed.room.inj hb.fixed
  rw [← hid]
  exact hids.scope_ne_room hscope hroom'

end

/-! ## Internal topics of two moments -/

/-- The front of an internal topic: the id of the scope, where there is one, and of the room. -/
theorem splitOn_topic {appSlug : String} {room : Room} {topicName : String} {p : EAccessPermission}
    {scope : ResolvedScope} : splitOn '/' (buildAllowedTopic appSlug room topicName p scope).topic =
      scope.scopeId.toList.map Uuid.text ++ room.roomId.text :: splitOn '/' topicName := by
  unfold buildAllowedTopic
  cases hid : scope.scopeId with
  | none => exact splitOn_append rfl room.roomId.noSlash
  | some id => exact splitOn_append_two rfl id.noSlash room.roomId.noSlash

/-- Two internal topics with scopes of one id, or without any, split alike. -/
theorem of_topic_eq {appSlug appSlug' : String} {room room' : Room} {t t' : String}
    {p p' : EAccessPermission} {scope scope' : ResolvedScope} (hid : scope'.scopeId = scope.scopeId)
    (h : (buildAllowedTopic appSlug' room' t' p' scope').topic =
      (buildAllowedTopic appSlug room t p scope).topic) : room'.roomId = room.roomId ∧ t' = t := by
  have hsplit := congrArg (splitOn '/') h
  rw [splitOn_topic, splitOn_topic, hid] at hsplit
  have hroom := Uuid.ext_text (List.cons.inj (List.append_cancel_left hsplit)).1
  refine ⟨hroom, ?_⟩
  unfold buildAllowedTopic at h
  dsimp only at h
  rw [hid, hroom] at h
  cases hs : scope.scopeId with
  | none => simpa [hs] using h
  | some id => simpa [hs] using h

/-- In every run that removes no project for good, an internal topic handed to any actor at one
moment and to any actor at a later one stands for the same pattern. -/
theorem address_never_redirected (host : Host) (run : List (Int × Operation)) (db db' : Database)
    (hrun : exec (configure host) db run = some db')
    (hpurge : ∀ l ∈ run, ∀ projectId, l.2 ≠ .purgeProject projectId) (hids : db'.store.IdsApart)
    (actorToken actorToken' : ActorToken) (pattern pattern' topic : String)
    (h : Receives db.store actorToken pattern topic)
    (h' : Receives db'.store actorToken' pattern' topic) : pattern' = pattern := by
  have hkeeps := keeps_of_run hrun hpurge
  obtain ⟨scope, hscope, app, happ, room, hroom, hin, t, p, rfl, htopic⟩ := h.addressIn
  obtain ⟨scope', hscope', app', happ', room', hroom', hin', t', p', rfl, htopic'⟩ := h'.addressIn
  have heq := htopic'.symm.trans htopic
  have hstands : room'.roomId = room.roomId → scope'.scopeSlug = scope.scopeSlug →
      (buildAllowedTopic app'.slug room' t p' scope').pattern =
        (buildAllowedTopic app.slug room t p scope).pattern :=
    pattern_stands hkeeps db'.valid happ happ' hroom hroom' hin hin'
  rcases resolveScope_cases hscope with ⟨hnone, hid⟩ | ⟨row, hown, hid, hslug⟩
  · rcases resolveScope_cases hscope' with ⟨hnone', hid'⟩ | ⟨row', hown', hid', hslug'⟩
    · obtain ⟨hroomId, rfl⟩ := of_topic_eq (hid'.trans hid.symm) heq
      exact hstands hroomId ((scopeSlug_of_unscoped hscope' hnone').trans
        (scopeSlug_of_unscoped hscope hnone).symm)
    · -- the first segment is a room then and a scope now
      have hsplit := congrArg (splitOn '/') heq
      rw [splitOn_topic, splitOn_topic, hid, hid'] at hsplit
      exact absurd (Uuid.ext_text (List.cons.inj hsplit).1)
        (room_never_scope hkeeps hids hroom hown'.row)
  · rcases resolveScope_cases hscope' with ⟨hnone', hid'⟩ | ⟨row', hown', hid', hslug'⟩
    · have hsplit := congrArg (splitOn '/') heq
      rw [splitOn_topic, splitOn_topic, hid, hid'] at hsplit
      exact absurd (Uuid.ext_text (List.cons.inj hsplit).1).symm
        (scope_never_room hkeeps hids hown.row hroom')
    · have hrow : row'.accessScopeId = row.accessScopeId := by
        have hsplit := congrArg (splitOn '/') heq
        rw [splitOn_topic, splitOn_topic, hid, hid'] at hsplit
        exact Uuid.ext_text (List.cons.inj hsplit).1
      obtain ⟨hroomId, rfl⟩ := of_topic_eq (by rw [hid, hid', hrow]) heq
      refine hstands hroomId ?_
      rw [hslug, hslug', scope_stands hkeeps db'.valid hown.row hown'.row hrow]

/-- The room of the setup is renamed, and a second actor created. -/
def renamedRoom : List (Int × Operation) :=
  [(1, .updateRoom (.of "room") (.of "app") { name := some "Renamed" }),
    (2, .createActorToken (.of "t2") { sampleBytes with keyBytes := List.replicate 6 1 } (.of "p")
      { name := "Second", actorType := .user })]

theorem received {s : Store} {a : ActorToken} (now : Int) (actorTokenId : IdText)
    (requested : String) (e : AllowedTopic) (row : findActor s actorTokenId.uuid = some a)
    (mem : e ∈ (checkRoomAccess s now actorTokenId requested).allowedTopics) :
    Receives s a e.pattern e.topic :=
  .checked (.live row) mem

/-- The room's topic, as an actor without a scope is told of it. -/
def roomTopic : AllowedTopic where
  pattern := "chat/lobby/messages"
  topic := "room/messages"
  permission := .pubSub
  roomId := .of "room"
  roomSlug := "lobby"
  scopeId := none
  scopeSlug := none

theorem setup_receives {db : Database}
    (h : exec (configure sampleHost) Database.empty sampleSetup = some db) :
    ∃ a, Receives db.store a "chat/lobby/messages" "room/messages" := by
  cases h
  exact ⟨_, received 0 (.of "t1") "chat/lobby/messages" roomTopic rfl (by decide)⟩

theorem renamed_receives {db : Database}
    (h : exec (configure sampleHost) Database.empty (sampleSetup ++ renamedRoom) = some db) :
    ∃ a, Receives db.store a "chat/lobby/messages" "room/messages" := by
  cases h
  exact ⟨_, received 3 (.of "t2") "chat/lobby/messages" roomTopic rfl (by decide)⟩

theorem address_never_redirected_renamed :
    ∃ db, exec (configure sampleHost) Database.empty sampleSetup = some db ∧
      ∃ db', exec (configure sampleHost) db renamedRoom = some db' ∧
      ∃ actorToken actorToken' pattern pattern', Receives db.store actorToken pattern "room/messages" ∧
        Receives db'.store actorToken' pattern' "room/messages" ∧ pattern' = pattern := by
  refine ⟨_, rfl, _, rfl, ?_⟩
  obtain ⟨a, h⟩ := setup_receives rfl
  obtain ⟨a', h'⟩ := renamed_receives rfl
  refine ⟨a, a', _, _, h, h', address_never_redirected sampleHost renamedRoom _ _ rfl ?_ (by decide)
    _ _ _ _ _ h h'⟩
  intro l hl projectId hop
  rcases List.mem_cons.1 hl with rfl | hl
  · cases hop
  · cases List.mem_singleton.1 hl
    cases hop

end Authz
end NolagCore
