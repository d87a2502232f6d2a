import NolagCore.ProjectConfig.Export

/-!
# ProjectConfig.ExportSpec

What an exported document lists: the live rows of the project and, of the grants its live actors
hold, those on a live app or room of the project.
-/

namespace NolagCore
namespace ProjectConfig

open Lib

/-! ## Rows of a project -/

def ScopeOf (s : Store) (projectId : Uuid) (scope : AccessScope) : Prop :=
  scope ∈ s.accessScopes ∧ live scope = true ∧ scope.projectId = projectId

def AppOf (s : Store) (projectId : Uuid) (app : PlatformApp) : Prop :=
  app ∈ s.apps ∧ live app = true ∧ app.projectId = projectId

/-- A live room of a live app: a room under a deleted app cannot be reached by any topic. -/
def RoomOf (s : Store) (projectId : Uuid) (app : PlatformApp) (room : Room) : Prop :=
  AppOf s projectId app ∧ room ∈ s.rooms ∧ live room = true ∧ room.appId = app.appId

def ActorOf (s : Store) (projectId : Uuid) (actor : ActorToken) : Prop :=
  actor ∈ s.actorTokens ∧ live actor = true ∧ actor.projectId = projectId

section

variable {collate : String → String → Bool} {s : Store} {projectId : Uuid}

theorem mem_scopesOf {scope : AccessScope} :
    scope ∈ scopesOf collate s projectId ↔ ScopeOf s projectId scope := by
  simp [scopesOf, mem_orderBy, ScopeOf]

theorem mem_appsOf {app : PlatformApp} :
    app ∈ appsOf collate s projectId ↔ AppOf s projectId app := by
  simp [appsOf, mem_orderBy, AppOf]

theorem mem_roomsOf {app : PlatformApp} {room : Room} :
    room ∈ roomsOf collate s app ↔ room ∈ s.rooms ∧ live room = true ∧ room.appId = app.appId := by
  simp [roomsOf, mem_orderBy]

theorem mem_actorsOf {actor : ActorToken} :
    actor ∈ actorsOf collate s projectId ↔ ActorOf s projectId actor := by
  simp [actorsOf, mem_orderBy, ActorOf]

theorem mem_listedRooms {app : PlatformApp} {room : Room} :
    (app, room) ∈ listedRooms collate s (appsOf collate s projectId) ↔
      RoomOf s projectId app room := by
  unfold listedRooms RoomOf
  simp only [List.mem_flatMap, List.mem_map, mem_appsOf, mem_roomsOf, Prod.mk.injEq]
  constructor
  · rintro ⟨app', happ, room', hroom, rfl, rfl⟩
    exact ⟨happ, hroom⟩
  · rintro ⟨happ, hroom⟩
    exact ⟨app, happ, room, hroom, rfl, rfl⟩

theorem mem_typeGrantsOf {room : Room} {g : RoomActorAccess} :
    g ∈ typeGrantsOf s room ↔
      g ∈ s.roomActorAccess ∧ live g = true ∧ g.roomId = room.roomId ∧ g.actorTokenId = none := by
  simp [typeGrantsOf]

theorem mem_appGrantsOf {actor : ActorToken} {g : ActorAppAccess} :
    g ∈ appGrantsOf s actor ↔
      g ∈ s.actorAppAccess ∧ live g = true ∧ g.actorTokenId = actor.actorTokenId := by
  simp [appGrantsOf]

theorem mem_roomGrantsOf {actor : ActorToken} {g : RoomActorAccess} :
    g ∈ roomGrantsOf s actor ↔
      g ∈ s.roomActorAccess ∧ live g = true ∧ g.actorTokenId = some actor.actorTokenId := by
  simp [roomGrantsOf]

/-! ## Unique rows -/

theorem ScopeOf.eq_of_slug (hs : s.SchemaValid) {scope scope' : AccessScope}
    (h : ScopeOf s projectId scope) (h' : ScopeOf s projectId scope')
    (hslug : scope.slug = scope'.slug) : scope = scope' := by
  obtain ⟨hrow, hl, hp⟩ := h
  obtain ⟨hrow', hl', hp'⟩ := h'
  refine hs.scopeSlug.eq_of_key (List.mem_filter.2 ⟨hrow, hl⟩) (List.mem_filter.2 ⟨hrow', hl'⟩) ?_
  rw [hp, hp', hslug]

theorem AppOf.eq_of_slug (hs : s.SchemaValid) {app app' : PlatformApp} (h : AppOf s projectId app)
    (h' : AppOf s projectId app') (hslug : app.slug = app'.slug) : app = app' := by
  obtain ⟨hrow, hl, hp⟩ := h
  obtain ⟨hrow', hl', hp'⟩ := h'
  refine hs.appSlug.eq_of_key (List.mem_filter.2 ⟨hrow, hl⟩) (List.mem_filter.2 ⟨hrow', hl'⟩) ?_
  rw [hp, hp', hslug]

/-- A room is found again by the slugs of its app and its own. -/
theorem RoomOf.eq_of_slug (hs : s.SchemaValid) {app app' : PlatformApp} {room room' : Room}
    (h : RoomOf s projectId app room) (h' : RoomOf s projectId app' room')
    (happ : app.slug = app'.slug) (hslug : room.slug = room'.slug) : app = app' ∧ room = room' := by
  obtain ⟨ha, hrow, hl, hid⟩ := h
  obtain ⟨ha', hrow', hl', hid'⟩ := h'
  have heq := ha.eq_of_slug hs ha' happ
  subst heq
  refine ⟨rfl, hs.roomSlug.eq_of_key (List.mem_filter.2 ⟨hrow, hl⟩)
    (List.mem_filter.2 ⟨hrow', hl'⟩) ?_⟩
  rw [hid, hid', hslug]

/-- A room determines its app. -/
theorem RoomOf.eq_of_roomId (hs : s.SchemaValid) {app app' : PlatformApp} {room room' : Room}
    (h : RoomOf s projectId app room) (h' : RoomOf s projectId app' room')
    (hid : room.roomId = room'.roomId) : app = app' ∧ room = room' := by
  have hroom := hs.pkRoom.eq_of_key h.2.1 h'.2.1 hid
  subst hroom
  exact ⟨hs.pkApp.eq_of_key h.1.1 h'.1.1 (h.2.2.2.symm.trans h'.2.2.2), rfl⟩

/-! ## The maps from ids to slugs -/

theorem scopeSlugById_iff (hs : s.SchemaValid) {accessScopeId : Uuid} {slug : String} :
    (OrderedMap.ofList (·.accessScopeId) (·.slug) (scopesOf collate s projectId)).get? accessScopeId =
        some slug ↔
      ∃ scope, ScopeOf s projectId scope ∧ scope.accessScopeId = accessScopeId ∧
        scope.slug = slug := by
  rw [OrderedMap.get?_ofList_iff]
  · simp only [mem_scopesOf]
  · intro scope h scope' h' hid
    rw [hs.pkScope.eq_of_key (mem_scopesOf.1 h).1 (mem_scopesOf.1 h').1 hid]

theorem appSlugById_iff (hs : s.SchemaValid) {appId : Uuid} {slug : String} :
    (OrderedMap.ofList (·.appId) (·.slug) (appsOf collate s projectId)).get? appId = some slug ↔
      ∃ app, AppOf s projectId app ∧ app.appId = appId ∧ app.slug = slug := by
  rw [OrderedMap.get?_ofList_iff]
  · simp only [mem_appsOf]
  · intro app h app' h' hid
    rw [hs.pkApp.eq_of_key (mem_appsOf.1 h).1 (mem_appsOf.1 h').1 hid]

/-- The map of rooms, at any point of the traversal of the apps. -/
theorem roomRefById_seen_iff (hs : s.SchemaValid) {seen : List PlatformApp}
    (hseen : ∀ app ∈ seen, AppOf s projectId app) {roomId : Uuid} {ref : String × String} :
    (roomRefById collate s seen).get? roomId = some ref ↔
      ∃ app room, app ∈ seen ∧ room ∈ roomsOf collate s app ∧ room.roomId = roomId ∧
        (app.slug, room.slug) = ref := by
  have hlisted : ∀ {app : PlatformApp} {room : Room}, (app, room) ∈ listedRooms collate s seen ↔
      app ∈ seen ∧ room ∈ roomsOf collate s app := by
    intro app room
    unfold listedRooms
    simp only [List.mem_flatMap, List.mem_map, Prod.mk.injEq]
    constructor
    · rintro ⟨app', happ, room', hroom, rfl, rfl⟩
      exact ⟨happ, hroom⟩
    · rintro ⟨happ, hroom⟩
      exact ⟨app, happ, room, hroom, rfl, rfl⟩
  unfold roomRefById
  rw [OrderedMap.get?_ofList_iff]
  · constructor
    · rintro ⟨⟨app, room⟩, h, hid, href⟩
      exact ⟨app, room, (hlisted.1 h).1, (hlisted.1 h).2, hid, href⟩
    · rintro ⟨app, room, happ, hroom, hid, href⟩
      exact ⟨(app, room), hlisted.2 ⟨happ, hroom⟩, hid, href⟩
  · rintro ⟨app, room⟩ h ⟨app', room'⟩ h' hid
    obtain ⟨happ, hroom⟩ := hlisted.1 h
    obtain ⟨happ', hroom'⟩ := hlisted.1 h'
    obtain ⟨rfl, rfl⟩ := RoomOf.eq_of_roomId hs ⟨hseen app happ, mem_roomsOf.1 hroom⟩
      ⟨hseen app' happ', mem_roomsOf.1 hroom'⟩ hid
    rfl

theorem roomRefById_iff (hs : s.SchemaValid) {roomId : Uuid} {ref : String × String} :
    (roomRefById collate s (appsOf collate s projectId)).get? roomId = some ref ↔
      ∃ app room, RoomOf s projectId app room ∧ room.roomId = roomId ∧
        (app.slug, room.slug) = ref := by
  rw [roomRefById_seen_iff hs fun app happ => mem_appsOf.1 happ]
  simp only [mem_appsOf, mem_roomsOf, RoomOf, and_assoc]

/-! ## Dates -/

theorem toISOString_ne_empty {t : Int} {text : String} (h : toISOString t = some text) :
    text ≠ "" := by
  rintro rfl
  unfold toISOString at h
  split at h
  · have hlen := congrArg (fun text => text.toList.length) (Option.some.inj h)
    simp [isoText, timeText] at hlen
  · cases h

/-- A date column is read back as it was written. -/
theorem dateColumn_isoColumn (legacy : String → Option Int) {t : Option Int} {text : Option String}
    (h : isoColumn t = .ok text) : dateColumn legacy text = .ok t := by
  unfold isoColumn at h
  split at h
  · cases h
    rfl
  · split at h
    · cases h
    · rename_i t text' hiso
      cases h
      have hne := toISOString_ne_empty hiso
      simp [dateColumn, hne, newDate_toISOString legacy hiso]

/-! ## Grants of an actor -/

def appGrantDoc (app : PlatformApp) (g : ActorAppAccess) (expiresAt : Option String) :
    ActorAppGrantDoc where
  appSlug := app.slug
  permission := g.permission
  topics := g.topics
  isActive := some g.isActive
  expiresAt := expiresAt

def roomGrantDoc (app : PlatformApp) (room : Room) (g : RoomActorAccess)
    (expiresAt : Option String) : ActorRoomGrantDoc where
  appSlug := app.slug
  roomSlug := room.slug
  permission := g.permission
  topics := g.topics
  isActive := some g.isActive
  expiresAt := expiresAt
  role := g.role

theorem truthy_some {slug : String} : truthy (some slug) = true ↔ slug ≠ "" := by
  simp [truthy]

theorem exportAppGrant_iff (hs : s.SchemaValid) {g : ActorAppAccess} {grant : ActorAppGrantDoc} :
    exportAppGrant (OrderedMap.ofList (·.appId) (·.slug) (appsOf collate s projectId)) g =
        .ok (some grant) ↔
      ∃ app expiresAt, AppOf s projectId app ∧ app.appId = g.appId ∧ app.slug ≠ "" ∧
        isoColumn g.expiresAt = .ok expiresAt ∧ grant = appGrantDoc app g expiresAt := by
  unfold exportAppGrant
  rw [bind_ok]
  constructor
  · rintro ⟨expiresAt, ht, h⟩
    obtain ⟨slug, hslug, rfl⟩ := Option.map_eq_some_iff.1 (Except.ok.inj h)
    obtain ⟨hget, htrue⟩ := Option.filter_eq_some_iff.1 hslug
    obtain ⟨app, happ, hid, rfl⟩ := (appSlugById_iff hs).1 hget
    exact ⟨app, expiresAt, happ, hid, truthy_some.1 htrue, ht, rfl⟩
  · rintro ⟨app, expiresAt, happ, hid, hne, ht, rfl⟩
    refine ⟨expiresAt, ht, ?_⟩
    rw [(appSlugById_iff hs).2 ⟨app, happ, hid, rfl⟩, Option.filter_some, if_pos (truthy_some.2 hne)]
    rfl

theorem exportRoomGrant_iff (hs : s.SchemaValid) {g : RoomActorAccess} {grant : ActorRoomGrantDoc} :
    exportRoomGrant (roomRefById collate s (appsOf collate s projectId)) g = .ok (some grant) ↔
      ∃ app room expiresAt, RoomOf s projectId app room ∧ room.roomId = g.roomId ∧
        isoColumn g.expiresAt = .ok expiresAt ∧ grant = roomGrantDoc app room g expiresAt := by
  unfold exportRoomGrant
  constructor
  · intro h
    split at h
    · cases h
    · rename_i ref href
      obtain ⟨expiresAt, ht, h⟩ := bind_ok.1 h
      obtain ⟨app, room, hroom, hid, rfl⟩ := (roomRefById_iff hs).1 href
      cases h
      exact ⟨app, room, expiresAt, hroom, hid, ht, rfl⟩
  · rintro ⟨app, room, expiresAt, hroom, hid, ht, rfl⟩
    rw [(roomRefById_iff hs).2 ⟨app, room, hroom, hid, rfl⟩]
    exact bind_ok.2 ⟨expiresAt, ht, rfl⟩

end

/-! ## Actors -/

/-- `exportActor` within the export of a project. -/
def exportActorOf (collate : String → String → Bool) (s : Store) (projectId : Uuid)
    (actor : ActorToken) : Except CoreError ActorDoc :=
  exportActor s (OrderedMap.ofList (·.accessScopeId) (·.slug) (scopesOf collate s projectId))
    (OrderedMap.ofList (·.appId) (·.slug) (appsOf collate s projectId))
    (roomRefById collate s (appsOf collate s projectId)) actor

/-- What the document says of one actor. -/
structure ActorExported (s : Store) (projectId : Uuid) (actor : ActorToken) (doc : ActorDoc) :
    Prop where
  ref : doc.ref = actor.keyId
  scopeSlug : ∀ slug, doc.scopeSlug = some slug ↔ ∃ scope, ScopeOf s projectId scope ∧
    actor.accessScopeId = some scope.accessScopeId ∧ scope.slug = slug
  appAccess : ∀ grant, grant ∈ doc.appAccess.getD [] ↔ ∃ g app expiresAt, g ∈ appGrantsOf s actor ∧
    AppOf s projectId app ∧ app.appId = g.appId ∧ app.slug ≠ "" ∧
    isoColumn g.expiresAt = .ok expiresAt ∧ grant = appGrantDoc app g expiresAt
  /-- A date that cannot be written ends the export, even on a grant it would leave out. -/
  appDates : ∀ g ∈ appGrantsOf s actor, ∃ expiresAt, isoColumn g.expiresAt = .ok expiresAt
  roomAccess : ∀ grant, grant ∈ doc.roomAccess.getD [] ↔ ∃ g app room expiresAt,
    g ∈ roomGrantsOf s actor ∧ RoomOf s projectId app room ∧ room.roomId = g.roomId ∧
    isoColumn g.expiresAt = .ok expiresAt ∧ grant = roomGrantDoc app room g expiresAt
  roomDates : ∀ g ∈ roomGrantsOf s actor, ∀ app room, RoomOf s projectId app room →
    room.roomId = g.roomId → ∃ expiresAt, isoColumn g.expiresAt = .ok expiresAt

variable {collate : String → String → Bool} {s : Store} {projectId : Uuid}

theorem exportActor_ok (hs : s.SchemaValid) {actor : ActorToken} {doc : ActorDoc}
    (h : exportActorOf collate s projectId actor = .ok doc) :
    ActorExported s projectId actor doc := by
  obtain ⟨expiresAt, ht, h⟩ := bind_ok.1 h
  obtain ⟨appAccess, happ, h⟩ := bind_ok.1 h
  obtain ⟨roomAccess, hroom, h⟩ := bind_ok.1 h
  cases h
  constructor
  · rfl
  · intro slug
    constructor
    · intro h
      obtain ⟨accessScopeId, hid, hget⟩ := Option.bind_eq_some_iff.1 h
      obtain ⟨scope, hscope, rfl, hslug⟩ := (scopeSlugById_iff hs).1 hget
      exact ⟨scope, hscope, hid, hslug⟩
    · rintro ⟨scope, hscope, hid, hslug⟩
      exact Option.bind_eq_some_iff.2 ⟨_, hid, (scopeSlugById_iff hs).2 ⟨scope, hscope, rfl, hslug⟩⟩
  · intro grant
    simp only [Option.getD_some, List.mem_filterMap, id, exists_eq_right, mem_mapOk happ,
      exportAppGrant_iff hs]
    constructor
    · rintro ⟨g, hg, app, t, h⟩
      exact ⟨g, app, t, hg, h⟩
    · rintro ⟨g, app, t, hg, h⟩
      exact ⟨g, hg, app, t, h⟩
  · intro g hg
    obtain ⟨o, ho⟩ := mapOk_ok happ hg
    obtain ⟨t, ht, -⟩ := bind_ok.1 ho
    exact ⟨t, ht⟩
  · intro grant
    simp only [Option.getD_some, List.mem_filterMap, id, exists_eq_right, mem_mapOk hroom,
      exportRoomGrant_iff hs]
    constructor
    · rintro ⟨g, hg, app, room, t, h⟩
      exact ⟨g, app, room, t, hg, h⟩
    · rintro ⟨g, app, room, t, hg, h⟩
      exact ⟨g, hg, app, room, t, h⟩
  · intro g hg app room hof hid
    obtain ⟨o, ho⟩ := mapOk_ok hroom hg
    unfold exportRoomGrant at ho
    rw [(roomRefById_iff hs).2 ⟨app, room, hof, hid, rfl⟩] at ho
    obtain ⟨t, ht, -⟩ := bind_ok.1 ho
    exact ⟨t, ht⟩

/-! ## The whole document -/

/-- What an export lists, as far as an import of it depends on the stored rows. -/
structure Exported (collate : String → String → Bool) (s : Store) (projectId : Uuid)
    (doc : ProjectConfigDoc) : Prop where
  scopes : doc.accessScopes.getD [] = (scopesOf collate s projectId).map exportScope
  apps : doc.apps.getD [] = exportApps collate s (appsOf collate s projectId)
  actors : mapOk (exportActorOf collate s projectId) (actorsOf collate s projectId) =
    .ok (doc.actors.getD [])

theorem exportProject_ok {doc : ProjectConfigDoc}
    (h : exportProject collate s projectId = .ok doc) : Exported collate s projectId doc := by
  unfold exportProject at h
  split at h
  · cases h
  · obtain ⟨actors, hactors, h⟩ := bind_ok.1 h
    cases h
    exact ⟨rfl, rfl, hactors⟩

end ProjectConfig
end NolagCore
