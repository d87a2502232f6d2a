import NolagCore.Lib.OrderedMap
import NolagCore.Authz.Dto
import NolagCore.Model.Database

/-!
# Authz.Resolution

The batched resolution behind connect and refresh: `_buildAppAccess` and what it calls. Queries
run over the store, in the order and with the filters of the source; `now` is what `new Date()`
reads.
-/

namespace NolagCore
namespace Authz

open Lib

/-- `ResolvedScope`: all three fields or none. -/
structure ResolvedScope where
  scopeId : Option Uuid := none
  scopeSlug : Option String := none
  scopeName : Option String := none
deriving DecidableEq

/-- `_resolveScope`: `none` denies, an actor without a scope resolves to the empty one. -/
def resolveScope (s : Store) (actorToken : ActorToken) : Option ResolvedScope :=
  match actorToken.accessScopeId with
  | none => some {}
  | some accessScopeId =>
    match findOne s.accessScopes fun r =>
        decide (r.accessScopeId = accessScopeId) && decide (r.projectId = actorToken.projectId) with
    | none => none
    | some scope =>
      if scope.isActive then
        some { scopeId := some scope.accessScopeId, scopeSlug := some scope.slug,
               scopeName := some scope.name }
      else none

/-- `_buildAllowedTopic`: the one place an address is put together. -/
def buildAllowedTopic (appSlug : String) (room : Room) (topicName : String)
    (permission : EAccessPermission) (scope : ResolvedScope) : AllowedTopic where
  pattern := match scope.scopeSlug with
    | some slug => if slug ≠ "" then
        appSlug ++ "/" ++ slug ++ "/" ++ room.slug ++ "/" ++ topicName
      else appSlug ++ "/" ++ room.slug ++ "/" ++ topicName
    | none => appSlug ++ "/" ++ room.slug ++ "/" ++ topicName
  topic := match scope.scopeId with
    | some id => id.text ++ "/" ++ room.roomId.text ++ "/" ++ topicName
    | none => room.roomId.text ++ "/" ++ topicName
  permission := permission
  roomId := room.roomId
  roomSlug := room.slug
  scopeId := scope.scopeId
  scopeSlug := scope.scopeSlug

/-! ## App level -/

/-- One element of `validAppAccess`: a grant with its relation `app` loaded, stored or made up
for an open app. -/
structure Access where
  app : PlatformApp
  permission : EAccessPermission
  topics : Option (List String)
deriving DecidableEq

/-- `actorAppAccess`: the actor's active grants. -/
def actorAppAccess (s : Store) (actorToken : ActorToken) : List ActorAppAccess :=
  findAll s.actorAppAccess fun g =>
    decide (g.actorTokenId = actorToken.actorTokenId) && g.isActive

/-- The filter that keeps a grant: its app is loaded and active, and it has not expired. -/
def keepAccess (s : Store) (now : Int) (g : ActorAppAccess) : Option Access :=
  match s.appOf g with
  | none => none
  | some app =>
    if app.status = .active then
      if expired g.expiresAt now then none
      else some { app := app, permission := g.permission, topics := g.topics }
    else none

def explicitAppAccess (s : Store) (now : Int) (actorToken : ActorToken) : List Access :=
  (actorAppAccess s actorToken).filterMap (keepAccess s now)

def openApps (s : Store) (actorToken : ActorToken) : List PlatformApp :=
  findAll s.apps fun a => decide (a.projectId = actorToken.projectId) &&
    decide (a.accessMode = .open) && decide (a.status = .active)

/-- The in-memory grant for an open app: publish and subscribe, the app's own topics. -/
def synthetic (app : PlatformApp) : Access := { app := app, permission := .pubSub, topics := none }

/-- `validAppAccess`: stored grants first, then one synthetic grant for each open app the actor
holds no stored grant for. -/
def validAppAccess (s : Store) (now : Int) (actorToken : ActorToken) : List Access :=
  let explicitAppIds := (explicitAppAccess s now actorToken).map (·.app.appId)
  explicitAppAccess s now actorToken ++
    ((openApps s actorToken).filter fun a => decide (a.appId ∉ explicitAppIds)).map synthetic

/-! ## Room level -/

/-- Every active room of the given apps, in one query. -/
def roomsOfApps (s : Store) (appIds : List Uuid) : List Room :=
  findAll s.rooms fun r => decide (r.appId ∈ appIds) && decide (r.status = .active)

/-- Every grant on the given rooms, in one query that an empty list of rooms skips. -/
def grantsOfRooms (s : Store) (roomIds : List Uuid) : List RoomActorAccess :=
  if roomIds.isEmpty then [] else findAll s.roomActorAccess fun ra => decide (ra.roomId ∈ roomIds)

/-- A grant naming the actor: the program compares the two ids as strings. -/
def namesActor (actorTokenId : String) (ra : RoomActorAccess) : Bool :=
  decide (ra.actorTokenId.map Uuid.text = some actorTokenId) && ra.isActive

/-- A grant on the actor's type, as the second loop admits it. -/
def namesType (actorToken : ActorToken) (ra : RoomActorAccess) : Bool :=
  ra.actorTokenId.isNone && decide (ra.actorType = some actorToken.actorType) && ra.isActive

/-- `actorAccessByRoomId`: named grants overwrite one another, a type grant is kept only where
nothing is. -/
def actorAccessByRoomId (actorToken : ActorToken) (allRoomActorAccess : List RoomActorAccess) :
    OrderedMap Uuid RoomActorAccess :=
  let named := OrderedMap.ofList RoomActorAccess.roomId id
    (allRoomActorAccess.filter (namesActor actorToken.actorTokenId.text))
  OrderedMap.loop RoomActorAccess.roomId (fun ra o => if o.isSome then none else some ra) named
    (allRoomActorAccess.filter (namesType actorToken))

/-- The grants of one room and the actor's effective one, as the two maps give them. -/
structure RoomGrants where
  entries : List RoomActorAccess
  effective : Option RoomActorAccess

/-- One pass of the inner loop: the permission and topic list a room contributes, `none` when the
room is skipped. -/
def roomAccess (now : Int) (access : Access) (grants : RoomGrants) :
    Option (EAccessPermission × Option (List String)) :=
  if grants.entries = [] then some (access.permission, access.topics.or access.app.topics)
  else match grants.effective with
    | none => none
    | some grant =>
      if expired grant.expiresAt now then none
      else some (grant.permission, grant.topics.or access.app.topics)

/-- `_buildTopicWebhooksMap`: only the `webhooks` subtree is read. -/
def buildTopicWebhooksMap (topicConfigs : Option TopicConfigs) : List (String × TopicWebhooks) :=
  match topicConfigs with
  | none => []
  | some configs => configs.filterMap fun (topicName, config) =>
      match config.bind (·.webhooks) with
      | none => none
      | some w => if w.onPublish.isNone && w.onSubscribe.isNone then none else some (topicName, w)

/-- `AppBuild`, before lobbies and subscriptions. -/
structure AppBuild where
  appId : Uuid
  appName : String
  appSlug : String
  hydrationWebhook : Option WebhookConfig
  triggerWebhook : Option WebhookConfig
  topicWebhooks : List (String × TopicWebhooks)
  allowedTopics : List AllowedTopic
  accessibleRoomIds : List Uuid
deriving DecidableEq

/-- The body of the loop over `validAppAccess`, for the rooms of one app. -/
def buildApp (now : Int) (scope : ResolvedScope) (rooms : List Room)
    (grantsOf : Room → RoomGrants) (access : Access) : AppBuild where
  appId := access.app.appId
  appName := access.app.name
  appSlug := access.app.slug
  hydrationWebhook := access.app.hydrationWebhook
  triggerWebhook := access.app.triggerWebhook
  topicWebhooks := buildTopicWebhooksMap access.app.topicConfigs
  allowedTopics := rooms.flatMap fun room =>
    match roomAccess now access (grantsOf room) with
    | none => []
    | some (permission, topics) => (topics.getD []).map fun topicName =>
        buildAllowedTopic access.app.slug room topicName permission scope
  accessibleRoomIds := rooms.filterMap fun room =>
    (roomAccess now access (grantsOf room)).map fun _ => room.roomId

/-- `appsMap`, filled by the loop over `validAppAccess`. -/
def buildAppsMap (s : Store) (now : Int) (actorToken : ActorToken) (scope : ResolvedScope) :
    OrderedMap Uuid AppBuild :=
  let accesses := validAppAccess s now actorToken
  let allRooms := roomsOfApps s (accesses.map (·.app.appId))
  let allRoomActorAccess := grantsOfRooms s (allRooms.map (·.roomId))
  let roomAccessByRoomId := OrderedMap.groupBy RoomActorAccess.roomId allRoomActorAccess
  let actorAccess := actorAccessByRoomId actorToken allRoomActorAccess
  let roomsByAppId := OrderedMap.groupBy Room.appId allRooms
  let grantsOf : Room → RoomGrants := fun room =>
    { entries := (roomAccessByRoomId.get? room.roomId).getD []
      effective := actorAccess.get? room.roomId }
  OrderedMap.ofList (·.app.appId)
    (fun access => buildApp now scope ((roomsByAppId.get? access.app.appId).getD []) grantsOf access)
    accesses

/-! ## Lobbies -/

/-- `Set.add` on a list of distinct elements. -/
def addToSet (set : List Uuid) (id : Uuid) : List Uuid := if id ∈ set then set else set ++ [id]

/-- `_attachLobbies`: the lobbies to surface for each app. -/
def attachLobbies (s : Store) (appsMap : OrderedMap Uuid AppBuild) (appId : Uuid) :
    List AllowedLobby :=
  let allAccessibleRoomIds := appsMap.values.flatMap (·.accessibleRoomIds)
  if allAccessibleRoomIds.isEmpty then [] else
  let lobbyRoomEntries := findAll s.lobbyRooms fun lr => decide (lr.roomId ∈ allAccessibleRoomIds)
  if lobbyRoomEntries.isEmpty then [] else
  let lobbyIds := lobbyRoomEntries.foldl (fun set lr => addToSet set lr.lobbyId) []
  let lobbies := findAll s.lobbies fun l => decide (l.lobbyId ∈ lobbyIds)
  let lobbyById := OrderedMap.ofList Lobby.lobbyId id lobbies
  let lobbyIdsPerApp := OrderedMap.loop Lobby.appId
    (fun lobby set => some (addToSet (set.getD []) lobby.lobbyId)) OrderedMap.empty
    (lobbyRoomEntries.filterMap fun lr => lobbyById.get? lr.lobbyId)
  ((lobbyIdsPerApp.get? appId).getD []).filterMap fun lobbyId =>
    (lobbyById.get? lobbyId).map fun lobby => { lobbyId := lobby.lobbyId, lobbySlug := lobby.slug }

/-! ## Recorded subscriptions -/

/-- `patternLookup`: the app and internal topic behind each pattern of the payload. -/
def patternLookup (appsMap : OrderedMap Uuid AppBuild) : OrderedMap String (Uuid × String) :=
  OrderedMap.ofList Prod.fst Prod.snd <|
    appsMap.values.flatMap fun build =>
      build.allowedTopics.map fun allowed => (allowed.pattern, (build.appId, allowed.topic))

/-- `state?.connectionState?.topics`, with an absent list read as empty. -/
def recordedSubscriptions (s : Store) (actorTokenId : Uuid) : List TopicSubscription :=
  ((findOne s.actorTokenStates fun st => decide (st.actorTokenId = actorTokenId)).bind
    fun st => st.connectionState.bind (·.topics)).getD []

/-- `_getActiveSubscriptionsGroupedByApp`: a record whose pattern is no longer allowed drops
out. -/
def activeSubscriptionsByApp (s : Store) (actorTokenId : Uuid)
    (appsMap : OrderedMap Uuid AppBuild) : OrderedMap Uuid (List (Uuid × ActiveSubscription)) :=
  let lookup := patternLookup appsMap
  OrderedMap.groupBy Prod.fst <| (recordedSubscriptions s actorTokenId).filterMap fun sub =>
    (lookup.get? sub.name).map fun (appId, topic) =>
      (appId, { pattern := sub.name, topic := topic, loadBalance := sub.loadBalance,
                loadBalanceGroup := sub.loadBalanceGroup, filters := sub.filters })

/-! ## The whole resolution -/

/-- `_buildAppAccess`. -/
def buildAppAccess (s : Store) (now : Int) (actorToken : ActorToken) (scope : ResolvedScope) :
    List AppAccess :=
  if (validAppAccess s now actorToken).isEmpty then [] else
  let appsMap := buildAppsMap s now actorToken scope
  let subscriptionsByApp := activeSubscriptionsByApp s actorToken.actorTokenId appsMap
  appsMap.entries.map fun (appId, build) =>
    { appId := build.appId
      appName := build.appName
      appSlug := build.appSlug
      allowedTopics := build.allowedTopics
      allowedLobbies := attachLobbies s appsMap appId
      activeSubscriptions := ((subscriptionsByApp.get? appId).getD []).map Prod.snd
      hydrationWebhook := build.hydrationWebhook
      triggerWebhook := build.triggerWebhook
      topicWebhooks := build.topicWebhooks }

end Authz
end NolagCore
