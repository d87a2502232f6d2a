import NolagCore.Common.Pagination
import NolagCore.Model.Types

/-!
# Common.ListQueries

The query services of rooms, lobbies, apps and actors: the live rows of one owner, filtered by the
texts of the query and ordered by `createdAt`, handed to `paginate`.
-/

namespace NolagCore

open Lib

/-! ## Entities -/

/-- The columns of `BaseTimeEntity`. -/
def timeColumns : List String := ["createdAt", "updatedAt", "deletedAt"]

def RoomEntity : EntityMetadata where
  name := "RoomEntity"
  columns := timeColumns ++
    ["roomId", "appId", "slug", "name", "description", "status", "topics", "metadata"]

def LobbyEntity : EntityMetadata where
  name := "LobbyEntity"
  columns := timeColumns ++ ["lobbyId", "appId", "slug", "name", "description", "metadata"]

def PlatformAppEntity : EntityMetadata where
  name := "PlatformAppEntity"
  columns := timeColumns ++
    ["appId", "projectId", "name", "slug", "description", "status", "accessMode", "topics",
      "topicConfigs", "hydrationWebhook", "triggerWebhook"]

def ActorTokenEntity : EntityMetadata where
  name := "ActorTokenEntity"
  columns := timeColumns ++
    ["actorTokenId", "projectId", "keyId", "secretHash", "name", "actorType", "status",
      "expiresAt", "lastUsedAt", "metadata", "accessScopeId"]

/-! ## Queries -/

structure RoomQuery extends BaseQuery where
  name : Option String := none
  slug : Option String := none
  status : Option String := none

structure LobbyQuery extends BaseQuery where
  name : Option String := none
  slug : Option String := none

structure PlatformAppQuery extends BaseQuery where
  name : Option String := none
  slug : Option String := none
  status : Option String := none

structure ActorTokenQuery extends BaseQuery where
  name : Option String := none
  actorType : Option String := none
  status : Option String := none

/-! ## Query services -/

/-- `if (value) qb.andWhere(path ILIKE %value%)`. -/
def partialMatch (path : String) (value : Option String) : Option Condition :=
  if truthy value then value.map fun v => .ilike path ("%" ++ v ++ "%") else none

/-- `if (value) qb.andWhere(path = value)`. -/
def exactMatch (path : String) (value : Option String) : Option Condition :=
  if truthy value then value.map fun v => .equals path v else none

/-- What the query services have in common. -/
def listing (metadata : EntityMetadata) («alias» ownerColumn owner : String)
    (filters : List (Option Condition)) (direction : Direction) : SelectQueryBuilder :=
  let qb : SelectQueryBuilder :=
    { «alias» := «alias»
      mainAlias := some metadata }
  let qb := qb.where (.isNull («alias» ++ ".deletedAt"))
  let qb := qb.andWhere (.equals («alias» ++ "." ++ ownerColumn) owner)
  let qb := filters.reduceOption.foldl SelectQueryBuilder.andWhere qb
  qb.orderBy («alias» ++ "." ++ "createdAt") direction

def RoomQueryService.builder (query : RoomQuery) (appId : String) : SelectQueryBuilder :=
  listing RoomEntity "room" "appId" appId
    [partialMatch "room.name" query.name, exactMatch "room.slug" query.slug,
      exactMatch "room.status" query.status] .asc

def LobbyQueryService.builder (query : LobbyQuery) (appId : String) : SelectQueryBuilder :=
  listing LobbyEntity "lobby" "appId" appId
    [partialMatch "lobby.name" query.name, exactMatch "lobby.slug" query.slug] .asc

def PlatformAppQueryService.builder (query : PlatformAppQuery) (projectId : String) :
    SelectQueryBuilder :=
  listing PlatformAppEntity "app" "projectId" projectId
    [partialMatch "app.name" query.name, exactMatch "app.slug" query.slug,
      exactMatch "app.status" query.status] .asc

def ActorTokenQueryService.builder (query : ActorTokenQuery) (projectId : String) :
    SelectQueryBuilder :=
  listing ActorTokenEntity "actor_token" "projectId" projectId
    [partialMatch "actor_token.name" query.name,
      exactMatch "actor_token.actorType" query.actorType,
      exactMatch "actor_token.status" query.status] .desc

/-- A call of one of the four query services. -/
inductive ListQuery where
  | rooms (query : RoomQuery) (appId : String)
  | lobbies (query : LobbyQuery) (appId : String)
  | apps (query : PlatformAppQuery) (projectId : String)
  | actors (query : ActorTokenQuery) (projectId : String)

namespace ListQuery

def entity : ListQuery → EntityMetadata
  | rooms _ _ => RoomEntity
  | lobbies _ _ => LobbyEntity
  | apps _ _ => PlatformAppEntity
  | actors _ _ => ActorTokenEntity

def base : ListQuery → BaseQuery
  | rooms query _ => query.toBaseQuery
  | lobbies query _ => query.toBaseQuery
  | apps query _ => query.toBaseQuery
  | actors query _ => query.toBaseQuery

def builder : ListQuery → SelectQueryBuilder
  | rooms query appId => RoomQueryService.builder query appId
  | lobbies query appId => LobbyQueryService.builder query appId
  | apps query projectId => PlatformAppQueryService.builder query projectId
  | actors query projectId => ActorTokenQueryService.builder query projectId

/-- The direction of the service's own order by `createdAt`. -/
def defaultDirection : ListQuery → Direction
  | rooms _ _ => .asc
  | lobbies _ _ => .asc
  | apps _ _ => .asc
  | actors _ _ => .desc

/-- `findPaginated`. -/
def findPaginated {α : Type}
    (getManyAndCount : SelectQueryBuilder → Option (List α × Binary64)) (q : ListQuery) :
    Option (PaginatedResult α) :=
  paginate getManyAndCount q.builder q.base.asIBaseQuery {}

end ListQuery

/-! ## What the services hand over -/

theorem foldl_andWhere (filters : List Condition) (qb : SelectQueryBuilder) :
    (filters.foldl SelectQueryBuilder.andWhere qb).«alias» = qb.«alias» ∧
      (filters.foldl SelectQueryBuilder.andWhere qb).mainAlias = qb.mainAlias := by
  induction filters generalizing qb with
  | nil => exact ⟨rfl, rfl⟩
  | cons c filters ih =>
    rw [List.foldl_cons, (ih _).1, (ih _).2]
    exact ⟨rfl, rfl⟩

/-- A builder on an entity with nothing but the order by `createdAt`. -/
structure Listed (metadata : EntityMetadata) (direction : Direction) (qb : SelectQueryBuilder) :
    Prop where
  entity : qb.mainAlias = some metadata
  ordered : qb.orderBys = OrderedMap.empty.set (qb.«alias» ++ "." ++ "createdAt") direction

theorem listed_listing (metadata : EntityMetadata) («alias» ownerColumn owner : String)
    (filters : List (Option Condition)) (direction : Direction) :
    Listed metadata direction (listing metadata «alias» ownerColumn owner filters direction) := by
  unfold listing SelectQueryBuilder.orderBy
  have hfold := foldl_andWhere filters.reduceOption
  refine ⟨(hfold _).2, ?_⟩
  show OrderedMap.empty.set («alias» ++ "." ++ "createdAt") direction =
    OrderedMap.empty.set (_ ++ "." ++ "createdAt") direction
  rw [(hfold _).1]
  rfl

theorem ListQuery.listed (q : ListQuery) : Listed q.entity q.defaultDirection q.builder := by
  cases q with
  | rooms query appId => exact listed_listing ..
  | lobbies query appId => exact listed_listing ..
  | apps query projectId => exact listed_listing ..
  | actors query projectId => exact listed_listing ..

end NolagCore
