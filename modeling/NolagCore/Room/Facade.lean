import NolagCore.Common.Errors
import NolagCore.Common.Slug

/-!
# Room.Facade

Rooms, by the facade and the service under it. A room's own topic list is a convenience of the
stored row; authorization reads the app's.
-/

namespace NolagCore
namespace RoomFacade

open Lib

structure RoomCreateDto where
  slug : Option String := none
  name : String
  description : Option String := none
  topics : Option (List String) := none
  metadata : Option Json := none
  enableWebRTC : Bool := false

/-- The slug is absent: it cannot change once addresses reference it. -/
structure RoomPatchDto where
  name : Option String := none
  description : Option (Option String) := none
  status : Option ERoomStatus := none
  topics : Option (List String) := none
  metadata : Option Json := none

/-- One room an app declares up front. -/
structure StaticRoom where
  slug : String
  name : String
  description : Option String := none
  topics : Option (List String) := none

def defaultRoomCap : Nat := 1000

def webrtcTopics : List String :=
  ["webrtc:offer", "webrtc:answer", "webrtc:candidate", "webrtc:state"]

def notFound (roomId : Uuid) : CoreError := .notFound ("Room " ++ roomId.text ++ " not found")

/-! ## Service -/

def findByIdAndApp (s : Store) (roomId appId : Uuid) : Option Room :=
  findOne s.rooms fun r => decide (r.roomId = roomId) && decide (r.appId = appId)

def findBySlugAndApp (s : Store) (slug : String) (appId : Uuid) : Option Room :=
  findOne s.rooms fun r => decide (r.slug = slug) && decide (r.appId = appId)

def countByAppId (s : Store) (appId : Uuid) : Nat :=
  (findAll s.rooms fun r => decide (r.appId = appId)).length

def slugExists (s : Store) (slug : String) (appId : Uuid) : Bool :=
  decide (0 < (findAll s.rooms fun r => decide (r.slug = slug) && decide (r.appId = appId)).length)

/-- `RoomService.createRoom`, after the facade has chosen the slug and the topics. -/
def insertRoom (db : Database) (roomId appId : Uuid) (data : RoomCreateDto) : Outcome Room :=
  if truthy data.slug = false then
    .error (.badRequest "Room slug is required" (some "RoomService:createRoom:slug_required"))
  else
    let entity : Room :=
      { roomId := roomId
        appId := appId
        slug := data.slug.getD ""
        name := data.name
        description := data.description
        status := .active
        topics := data.topics
        metadata := data.metadata }
    commit { db.store with rooms := db.store.rooms ++ [entity] } entity

def patchRoom (db : Database) (roomId appId : Uuid) (data : RoomPatchDto) : Outcome Room :=
  match findByIdAndApp db.store roomId appId with
  | none => .error (.badRequest "Could not update room" (some "RoomService:patchRoom:not_found"))
  | some existing =>
    let entity := { existing with
      name := patch data.name existing.name
      description := patch data.description existing.description
      status := patch data.status existing.status
      topics := patch (data.topics.map some) existing.topics
      metadata := patch (data.metadata.map some) existing.metadata }
    commit { db.store with rooms := saveRow (·.roomId) entity db.store.rooms } entity

def removeRoom (db : Database) (now : Int) (roomId appId : Uuid) : Outcome Unit :=
  let rooms := db.store.rooms |> updateRows
    (fun r => decide (r.roomId = roomId) && decide (r.appId = appId) && live r)
    (fun r => { r with deletedAt := some now })
  commit { db.store with rooms } ()

/-! ## Facade -/

/-- The topics a created room stores: the caller's, or the app's when it names none. -/
def roomTopics (s : Store) (appId : Uuid) (data : RoomCreateDto) : Option (List String) :=
  let topics := if (data.topics.getD []).isEmpty then
      (findOne s.apps fun a => decide (a.appId = appId)).bind (·.topics)
    else data.topics
  if data.enableWebRTC then some ((topics.getD [] ++ webrtcTopics).eraseDups) else topics

def createRoom (db : Database) (roomId appId : Uuid) (data : RoomCreateDto) : Outcome Room :=
  let slug := data.slug.getD (generateSlug data.name)
  if slugExists db.store slug appId then
    .error (.conflict ("Room with slug \"" ++ slug ++ "\" already exists"))
  else insertRoom db roomId appId
    { data with slug := some slug, topics := roomTopics db.store appId data }

/-- Create a room if it is not already there, under a cap. -/
def ensureRoom (db : Database) (roomId appId : Uuid) (data : RoomCreateDto)
    (maxRooms : Nat := defaultRoomCap) : Outcome Room :=
  let slug := data.slug.getD (generateSlug data.name)
  match findBySlugAndApp db.store slug appId with
  | some existing => .ok (existing, db)
  | none =>
    if countByAppId db.store appId ≥ maxRooms then
      .error (.badRequest
        ("App " ++ appId.text ++ " has reached its room cap (" ++ toString maxRooms ++ ")"))
    else match createRoom db roomId appId { data with slug := some slug } with
      | .ok r => .ok r
      | .error e =>
        -- a creation race lost in between; nothing intervenes in one operation
        match findBySlugAndApp db.store slug appId with
        | some raced => .ok (raced, db)
        | none => .error e

def updateRoom (db : Database) (roomId appId : Uuid) (data : RoomPatchDto) : Outcome Room :=
  match findByIdAndApp db.store roomId appId with
  | none => .error (notFound roomId)
  | some _ => patchRoom db roomId appId data

def deleteRoom (db : Database) (now : Int) (roomId appId : Uuid) : Outcome Unit :=
  match findByIdAndApp db.store roomId appId with
  | none => .error (notFound roomId)
  | some _ => removeRoom db now roomId appId

/-- The rows of declared rooms, whose slugs are taken as given. -/
def staticRooms (ids : Nat → Uuid) (appId : Uuid) (rooms : List StaticRoom) : List Room :=
  rooms.mapIdx fun i room =>
    { roomId := ids i
      appId := appId
      slug := room.slug
      name := room.name
      description := room.description
      status := .active
      topics := room.topics }

def createStaticRoomsFromConfig (db : Database) (ids : Nat → Uuid) (appId : Uuid)
    (rooms : List StaticRoom) : Outcome (List Room) :=
  let entities := staticRooms ids appId rooms
  commit { db.store with rooms := db.store.rooms ++ entities } entities

end RoomFacade
end NolagCore
