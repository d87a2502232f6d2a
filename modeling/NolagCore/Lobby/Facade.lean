import NolagCore.Common.Errors
import NolagCore.Common.Slug
import NolagCore.Lib.OrderedMap

/-!
# Lobby.Facade

Lobbies: sets of rooms that share presence. Membership is capped for each room, because presence
fans out to every lobby a room is in.
-/

namespace NolagCore
namespace LobbyFacade

open Lib

structure LobbyCreateDto where
  slug : Option String := none
  name : String
  description : Option String := none
  metadata : Option Json := none

structure LobbyPatchDto where
  name : Option String := none
  description : Option (Option String) := none
  metadata : Option Json := none

/-- One lobby an app declares up front, with the slugs of its rooms. -/
structure StaticLobby where
  slug : String
  name : String
  description : Option String := none
  rooms : Option (List String) := none

def maxLobbiesPerRoom : Nat := 10

def notFound (lobbyId : Uuid) : CoreError := .notFound ("Lobby " ++ lobbyId.text ++ " not found")

/-! ## Service -/

def findByIdAndApp (s : Store) (lobbyId appId : Uuid) : Option Lobby :=
  findOne s.lobbies fun l => decide (l.lobbyId = lobbyId) && decide (l.appId = appId)

def slugExists (s : Store) (slug : String) (appId : Uuid) : Bool :=
  decide (0 < (findAll s.lobbies fun l => decide (l.slug = slug) && decide (l.appId = appId)).length)

/-- `LobbyService.createLobby`. -/
def insertLobby (db : Database) (lobbyId appId : Uuid) (data : LobbyCreateDto) : Outcome Lobby :=
  if truthy data.slug = false then
    .error (.badRequest "Lobby slug is required" (some "LobbyService:createLobby:slug_required"))
  else
    let entity : Lobby :=
      { lobbyId := lobbyId
        appId := appId
        slug := data.slug.getD ""
        name := data.name
        description := data.description
        metadata := data.metadata }
    commit { db.store with lobbies := db.store.lobbies ++ [entity] } entity

structure AddRoomCheck where
  lobbyExists : Bool
  roomExists : Bool
  alreadyInLobby : Bool
  lobbyCountForRoom : Nat

/-- `validateAddRoomToLobby`. The membership counts take every row, deleted lobbies included. -/
def validateAddRoomToLobby (s : Store) (lobbyId roomId appId : Uuid) : AddRoomCheck :=
  { lobbyExists := decide (0 < (findAll s.lobbies fun l =>
      decide (l.lobbyId = lobbyId) && decide (l.appId = appId)).length)
    roomExists := decide (0 < (findAll s.rooms fun r =>
      decide (r.roomId = roomId) && decide (r.appId = appId)).length)
    alreadyInLobby := decide (0 < (s.lobbyRooms.filter fun lr =>
      decide (lr.lobbyId = lobbyId) && decide (lr.roomId = roomId)).length)
    lobbyCountForRoom := (s.lobbyRooms.filter fun lr => decide (lr.roomId = roomId)).length }

/-- `save` of a membership: the entity carries its primary key, so an existing row is kept. -/
def saveMember (lr : LobbyRoom) (rows : List LobbyRoom) : List LobbyRoom :=
  if rows.any fun r => decide (r.lobbyId = lr.lobbyId) && decide (r.roomId = lr.roomId) then rows
  else rows ++ [lr]

/-! ## Facade -/

def createLobby (db : Database) (lobbyId appId : Uuid) (data : LobbyCreateDto) : Outcome Lobby :=
  let slug := data.slug.getD (generateSlug data.name)
  if slugExists db.store slug appId then
    .error (.conflict ("Lobby with slug \"" ++ slug ++ "\" already exists"))
  else insertLobby db lobbyId appId { data with slug := some slug }

def updateLobby (db : Database) (lobbyId appId : Uuid) (data : LobbyPatchDto) : Outcome Lobby :=
  match findByIdAndApp db.store lobbyId appId with
  | none => .error (notFound lobbyId)
  | some existing =>
    let entity := { existing with
      name := patch data.name existing.name
      description := patch data.description existing.description
      metadata := patch (data.metadata.map some) existing.metadata }
    commit { db.store with lobbies := saveRow (·.lobbyId) entity db.store.lobbies } entity

def deleteLobby (db : Database) (now : Int) (lobbyId appId : Uuid) : Outcome Unit :=
  match findByIdAndApp db.store lobbyId appId with
  | none => .error (notFound lobbyId)
  | some _ =>
    let lobbies := db.store.lobbies |> updateRows
      (fun l => decide (l.lobbyId = lobbyId) && decide (l.appId = appId) && live l)
      (fun l => { l with deletedAt := some now })
    commit { db.store with lobbies } ()

def addRoomToLobby (db : Database) (lobbyId roomId appId : Uuid) : Outcome LobbyRoom :=
  let check := validateAddRoomToLobby db.store lobbyId roomId appId
  if check.lobbyExists = false then .error (notFound lobbyId)
  else if check.roomExists = false then
    .error (.notFound ("Room " ++ roomId.text ++ " not found in this app"))
  else if check.alreadyInLobby then
    .error (.conflict ("Room " ++ roomId.text ++ " is already in lobby " ++ lobbyId.text))
  else if check.lobbyCountForRoom ≥ maxLobbiesPerRoom then
    .error (.badRequest ("Room " ++ roomId.text ++ " is already in " ++
      toString maxLobbiesPerRoom ++ " lobbies, which is the maximum."))
  else
    let entity : LobbyRoom := { lobbyId := lobbyId, roomId := roomId }
    commit { db.store with lobbyRooms := saveMember entity db.store.lobbyRooms } entity

/-- Removal deletes the row, and removing a room that is not a member succeeds. -/
def removeRoomFromLobby (db : Database) (lobbyId roomId appId : Uuid) : Outcome Unit :=
  match findByIdAndApp db.store lobbyId appId with
  | none => .error (notFound lobbyId)
  | some _ =>
    let lobbyRooms := db.store.lobbyRooms |> deleteRows fun lr =>
      decide (lr.lobbyId = lobbyId) && decide (lr.roomId = roomId)
    commit { db.store with lobbyRooms } ()

/-- The memberships of declared lobbies: a slug that matches no created room is skipped. -/
def staticMembers (roomsBySlug : OrderedMap String Uuid) (created : List Lobby)
    (lobbies : List StaticLobby) : List LobbyRoom :=
  (created.zip lobbies).flatMap fun (lobby, declared) =>
    (declared.rooms.getD []).filterMap fun slug =>
      (roomsBySlug.get? slug).map fun roomId => { lobbyId := lobby.lobbyId, roomId := roomId }

def createStaticLobbiesFromConfig (db : Database) (ids : Nat → Uuid) (appId : Uuid)
    (lobbies : List StaticLobby) (createdRooms : List (Uuid × String)) : Outcome (List Lobby) :=
  let created := lobbies.mapIdx fun i lobby =>
    ({ lobbyId := ids i
       appId := appId
       slug := lobby.slug
       name := lobby.name
       description := lobby.description } : Lobby)
  let roomsBySlug := OrderedMap.ofList Prod.snd Prod.fst createdRooms
  let lobbyRooms := (staticMembers roomsBySlug created lobbies).foldl
    (fun rows lr => saveMember lr rows) db.store.lobbyRooms
  commit { db.store with lobbies := db.store.lobbies ++ created, lobbyRooms } created

end LobbyFacade
end NolagCore
