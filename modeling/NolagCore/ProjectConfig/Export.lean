import Mathlib.Data.List.Sort
import NolagCore.Common.Errors
import NolagCore.Lib.Checked
import NolagCore.Lib.OrderedMap
import NolagCore.ProjectConfig.Document

/-!
# ProjectConfig.Export

Serialising a project to a document. Grants are gathered from two places: a room's grants to types
are listed under the room, a grant to a named actor under the actor.

`collate` is the order the database sorts text in.
-/

namespace NolagCore
namespace ProjectConfig

open Lib

/-- `order: { key: "ASC" }`. -/
def orderBy {α : Type} (collate : String → String → Bool) (key : α → String) (rows : List α) :
    List α :=
  rows.insertionSort fun a b => collate (key a) (key b)

theorem mem_orderBy {α : Type} {collate : String → String → Bool} {key : α → String}
    {rows : List α} {r : α} : r ∈ orderBy collate key rows ↔ r ∈ rows :=
  (List.perm_insertionSort _ rows).mem_iff

/-- The UTF-16 code units of a text, which `Array.prototype.sort` compares. -/
def codeUnits (s : String) : List Nat :=
  s.toList.flatMap fun c =>
    if c.toNat < 0x10000 then [c.toNat]
    else [0xD800 + (c.toNat - 0x10000) / 0x400, 0xDC00 + (c.toNat - 0x10000) % 0x400]

def lexLe : List Nat → List Nat → Bool
  | [], _ => true
  | _ :: _, [] => false
  | a :: as, b :: bs => decide (a < b) || decide (a = b) && lexLe as bs

/-- `expiresAt ? expiresAt.toISOString() : null`. -/
def isoColumn (t : Option Int) : Except CoreError (Option String) :=
  match t with
  | none => .ok none
  | some t => match toISOString t with
    | none => .error (.internal "Invalid time value")
    | some text => .ok (some text)

section

variable (collate : String → String → Bool) (s : Store)

def scopesOf (projectId : Uuid) : List AccessScope :=
  orderBy collate (·.slug) (findAll s.accessScopes fun r => decide (r.projectId = projectId))

def appsOf (projectId : Uuid) : List PlatformApp :=
  orderBy collate (·.slug) (findAll s.apps fun a => decide (a.projectId = projectId))

def roomsOf (app : PlatformApp) : List Room :=
  orderBy collate (·.slug) (findAll s.rooms fun r => decide (r.appId = app.appId))

def actorsOf (projectId : Uuid) : List ActorToken :=
  orderBy collate (·.keyId) (findAll s.actorTokens fun a => decide (a.projectId = projectId))

/-- The grants of a room that name no actor. -/
def typeGrantsOf (room : Room) : List RoomActorAccess :=
  findAll s.roomActorAccess fun g => decide (g.roomId = room.roomId) && g.actorTokenId.isNone

def appGrantsOf (actor : ActorToken) : List ActorAppAccess :=
  findAll s.actorAppAccess fun g => decide (g.actorTokenId = actor.actorTokenId)

def roomGrantsOf (actor : ActorToken) : List RoomActorAccess :=
  findAll s.roomActorAccess fun g => decide (g.actorTokenId = some actor.actorTokenId)

def exportScope (scope : AccessScope) : AccessScopeDoc :=
  { slug := scope.slug
    name := scope.name
    description := scope.description
    metadata := scope.metadata
    isActive := some scope.isActive }

def exportTypeGrant (g : RoomActorAccess) : RoomTypeGrantDoc :=
  { actorType := g.actorType
    permission := g.permission
    topics := g.topics
    isActive := some g.isActive }

def exportRoom (room : Room) : RoomDoc :=
  { slug := room.slug
    name := room.name
    description := room.description
    status := some room.status
    topics := room.topics
    metadata := room.metadata
    typeGrants := some ((typeGrantsOf s room).map exportTypeGrant) }

/-- The rooms of the given apps in the order they are listed, each with its app. -/
def listedRooms (apps : List PlatformApp) : List (PlatformApp × Room) :=
  apps.flatMap fun app => (roomsOf collate s app).map fun room => (app, room)

/-- `roomRefById` once the given apps have been listed, by the slugs of app and room. -/
def roomRefById (apps : List PlatformApp) : OrderedMap Uuid (String × String) :=
  OrderedMap.ofList (·.2.roomId) (fun e => (e.1.slug, e.2.slug)) (listedRooms collate s apps)

def exportLobby (roomRefs : OrderedMap Uuid (String × String)) (lobby : Lobby) : LobbyDoc :=
  let links := findAll s.lobbyRooms fun l => decide (l.lobbyId = lobby.lobbyId)
  { slug := lobby.slug
    name := lobby.name
    description := lobby.description
    metadata := lobby.metadata
    rooms := ((links.filterMap fun l => (roomRefs.get? l.roomId).map Prod.snd).filter
      fun slug => truthy (some slug)).insertionSort
        fun a b => lexLe (codeUnits a) (codeUnits b) }

/-- One app, `seen` being the apps listed so far, itself included. -/
def exportApp (seen : List PlatformApp) (app : PlatformApp) : AppDoc :=
  { slug := app.slug
    name := app.name
    description := app.description
    status := some app.status
    accessMode := some app.accessMode
    topics := app.topics.getD []
    topicConfigs := app.topicConfigs
    hydrationWebhook := app.hydrationWebhook
    triggerWebhook := app.triggerWebhook
    rooms := some ((roomsOf collate s app).map (exportRoom s))
    lobbies := some ((orderBy collate (·.slug)
      (findAll s.lobbies fun l => decide (l.appId = app.appId))).map
        (exportLobby s (roomRefById collate s seen))) }

def exportApps (apps : List PlatformApp) : List AppDoc :=
  apps.mapIdx fun i app => exportApp collate s (apps.take (i + 1)) app

/-- The app grants of one actor; a grant whose app has no slug here is dropped. -/
def exportAppGrant (appSlugById : OrderedMap Uuid String) (g : ActorAppAccess) :
    Except CoreError (Option ActorAppGrantDoc) := do
  let expiresAt ← isoColumn g.expiresAt
  return ((appSlugById.get? g.appId).filter fun slug => truthy (some slug)).map fun appSlug =>
    { appSlug := appSlug
      permission := g.permission
      topics := g.topics
      isActive := some g.isActive
      expiresAt := expiresAt }

def exportRoomGrant (roomRefs : OrderedMap Uuid (String × String)) (g : RoomActorAccess) :
    Except CoreError (Option ActorRoomGrantDoc) :=
  match roomRefs.get? g.roomId with
  | none => .ok none
  | some ref => do
    let expiresAt ← isoColumn g.expiresAt
    return some
      { appSlug := ref.1
        roomSlug := ref.2
        permission := g.permission
        topics := g.topics
        isActive := some g.isActive
        expiresAt := expiresAt
        role := g.role }

def exportActor (scopeSlugById appSlugById : OrderedMap Uuid String)
    (roomRefs : OrderedMap Uuid (String × String)) (actor : ActorToken) :
    Except CoreError ActorDoc := do
  let expiresAt ← isoColumn actor.expiresAt
  let appAccess ← mapOk (exportAppGrant appSlugById) (appGrantsOf s actor)
  let roomAccess ← mapOk (exportRoomGrant roomRefs) (roomGrantsOf s actor)
  return {
    -- the public key id, not a secret
    ref := actor.keyId
    name := actor.name
    actorType := actor.actorType
    status := some actor.status
    expiresAt := expiresAt
    metadata := actor.metadata
    scopeSlug := actor.accessScopeId.bind scopeSlugById.get?
    appAccess := some (appAccess.filterMap id)
    roomAccess := some (roomAccess.filterMap id) }

def exportProject (projectId : Uuid) : Except CoreError ProjectConfigDoc :=
  match findOne s.projects fun p => decide (p.projectId = projectId) with
  | none => .error (.notFound "Project not found")
  | some project => do
    let scopes := scopesOf collate s projectId
    let apps := appsOf collate s projectId
    let signingKeys := orderBy collate (·.keyId)
      (findAll s.signingKeys fun k => decide (k.projectId = projectId))
    let actors ← mapOk (exportActor s
        (OrderedMap.ofList (·.accessScopeId) (·.slug) scopes)
        (OrderedMap.ofList (·.appId) (·.slug) apps)
        (roomRefById collate s apps)) (actorsOf collate s projectId)
    return {
      version := docVersion
      project :=
        { name := project.name
          description := project.description
          organizationId := project.organizationId
          limits := project.limitsSyncedAt.map fun _ =>
            { maxConnections := project.maxConnections
              maxMessageSizeBytes := project.maxMessageSizeBytes
              sessionExpirySeconds := project.sessionExpirySeconds } }
      accessScopes := some (scopes.map exportScope)
      apps := some (exportApps collate s apps)
      actors := some actors
      -- names only: an import mints replacements
      signingKeys := some (signingKeys.map fun k => { ref := k.keyId, name := k.name }) }

end

end ProjectConfig
end NolagCore
