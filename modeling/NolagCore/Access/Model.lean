import NolagCore.Model.Database

/-!
# Access.Model

What an access resolution is for, stated on the rows alone: which grants are in force, which
grant decides a room, and which (app, room, topic, permission) entries follow. No query and no
loop appears here.
-/

namespace NolagCore
namespace AccessModel

open Lib

/-! ## App level -/

/-- An app grant of the actor that is in force at `now`. -/
structure AppGrant (s : Store) (now : Int) (actorTokenId : Uuid) (app : PlatformApp)
    (g : ActorAppAccess) : Prop where
  row : g ∈ s.actorAppAccess
  isLive : live g = true
  actor : g.actorTokenId = actorTokenId
  onApp : g.appId = app.appId
  active : g.isActive = true
  unexpired : expired g.expiresAt now = false

/-- The terms an app offers on its public rooms: a permission, and a topic list or null. -/
abbrev Terms := PlatformApp → EAccessPermission → Option (List String) → Prop

/-- An app is reached through a grant on it or because it is open. -/
inductive HeldOrOpen (s : Store) (now : Int) (actorTokenId : Uuid) : Terms
  | held {app : PlatformApp} {g : ActorAppAccess} (h : AppGrant s now actorTokenId app g) :
      HeldOrOpen s now actorTokenId app g.permission g.topics
  | opened {app : PlatformApp} (h : app.accessMode = .open) :
      HeldOrOpen s now actorTokenId app .pubSub none

/-- A grant on the app decides its terms; an open app of the project asks for none. -/
inductive HeldElseOpen (s : Store) (now : Int) (actorTokenId projectId : Uuid) : Terms
  | held {app : PlatformApp} {g : ActorAppAccess} (h : AppGrant s now actorTokenId app g) :
      HeldElseOpen s now actorTokenId projectId app g.permission g.topics
  | opened {app : PlatformApp} (home : app.projectId = projectId) (h : app.accessMode = .open)
      (unheld : ∀ g, ¬ AppGrant s now actorTokenId app g) :
      HeldElseOpen s now actorTokenId projectId app .pubSub none

/-- An open app of the project has its own terms whoever asks; a grant counts on the others. -/
inductive OpenElseHeld (s : Store) (now : Int) (actorTokenId projectId : Uuid) : Terms
  | opened {app : PlatformApp} (home : app.projectId = projectId) (h : app.accessMode = .open) :
      OpenElseHeld s now actorTokenId projectId app .pubSub none
  | held {app : PlatformApp} {g : ActorAppAccess} (home : app.projectId = projectId)
      (restricted : app.accessMode ≠ .open) (h : AppGrant s now actorTokenId app g) :
      OpenElseHeld s now actorTokenId projectId app g.permission g.topics

theorem HeldElseOpen.heldOrOpen {s : Store} {now : Int} {actorTokenId projectId : Uuid}
    {app : PlatformApp} {p : EAccessPermission} {ts : Option (List String)}
    (h : HeldElseOpen s now actorTokenId projectId app p ts) :
    HeldOrOpen s now actorTokenId app p ts := by
  cases h with
  | held hg => exact .held hg
  | opened _ ho _ => exact .opened ho

theorem OpenElseHeld.heldOrOpen {s : Store} {now : Int} {actorTokenId projectId : Uuid}
    {app : PlatformApp} {p : EAccessPermission} {ts : Option (List String)}
    (h : OpenElseHeld s now actorTokenId projectId app p ts) :
    HeldOrOpen s now actorTokenId app p ts := by
  cases h with
  | opened _ ho => exact .opened ho
  | held _ _ hg => exact .held hg

/-! ## Room level -/

/-- A grant placed on the room, in force or not. -/
structure OnRoom (s : Store) (room : Room) (ra : RoomActorAccess) : Prop where
  row : ra ∈ s.roomActorAccess
  isLive : live ra = true
  onRoom : ra.roomId = room.roomId

/-- A room without grants is public. -/
def IsPublic (s : Store) (room : Room) : Prop := ∀ ra, ¬ OnRoom s room ra

/-- An active grant that names the actor by the text of its id. -/
def Names (actorTokenId : String) (ra : RoomActorAccess) : Prop :=
  ra.actorTokenId.map Uuid.text = some actorTokenId ∧ ra.isActive = true

/-- The grants that may decide a private room: the active ones naming the actor, and where there
are none, the active ones on its type. -/
inductive Decides (s : Store) (actorTokenId : String) (actorType : EActorType) (room : Room) :
    RoomActorAccess → Prop
  | named {ra : RoomActorAccess} (on : OnRoom s room ra) (names : Names actorTokenId ra) :
      Decides s actorTokenId actorType room ra
  | typed {ra : RoomActorAccess} (on : OnRoom s room ra) (active : ra.isActive = true)
      (unnamed : ra.actorTokenId = none) (type : ra.actorType = some actorType)
      (none_names : ∀ ra', OnRoom s room ra' → ¬ Names actorTokenId ra') :
      Decides s actorTokenId actorType room ra

theorem Decides.on {s : Store} {actorTokenId : String} {actorType : EActorType} {room : Room}
    {ra : RoomActorAccess} (h : Decides s actorTokenId actorType room ra) : OnRoom s room ra := by
  cases h with
  | named on _ => exact on
  | typed on _ _ _ _ => exact on

/-! ## Entries -/

/-- The topics a grant or an app's terms give: the first list that is not null. -/
def topicsOf (own : Option (List String)) (app : PlatformApp) : List String :=
  (own.or app.topics).getD []

/-- The room yields `topicName` with `permission` once the app is reached on `appPermission` and
`appTopics`. -/
inductive RoomYields (s : Store) (now : Int) (actorTokenId : String) (actorType : EActorType)
    (app : PlatformApp) (room : Room) (appPermission : EAccessPermission)
    (appTopics : Option (List String)) : EAccessPermission → String → Prop
  | isPublic {topicName : String} (h : IsPublic s room) (mem : topicName ∈ topicsOf appTopics app) :
      RoomYields s now actorTokenId actorType app room appPermission appTopics
        appPermission topicName
  | isPrivate {ra : RoomActorAccess} {topicName : String}
      (h : Decides s actorTokenId actorType room ra) (unexpired : expired ra.expiresAt now = false)
      (mem : topicName ∈ topicsOf ra.topics app) :
      RoomYields s now actorTokenId actorType app room appPermission appTopics
        ra.permission topicName

/-- An entry of the access set, on rows that are live and active at `now`. -/
structure Entry (s : Store) (now : Int) (actorTokenId : String) (actorType : EActorType)
    (terms : Terms) (app : PlatformApp) (room : Room) (permission : EAccessPermission)
    (topicName : String) : Prop where
  appRow : app ∈ s.apps
  appLive : live app = true
  appActive : app.status = .active
  roomRow : room ∈ s.rooms
  roomLive : live room = true
  roomActive : room.status = .active
  roomApp : room.appId = app.appId
  yields : ∃ appPermission appTopics, terms app appPermission appTopics ∧
    RoomYields s now actorTokenId actorType app room appPermission appTopics permission topicName

end AccessModel
end NolagCore
