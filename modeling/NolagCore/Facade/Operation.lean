import NolagCore.AccessScope.Facade
import NolagCore.ActorToken.Facade
import NolagCore.Authz.Subscriptions
import NolagCore.Lobby.Facade
import NolagCore.PlatformApp.Facade
import NolagCore.Project.Facade
import NolagCore.ProjectConfig.Facade
import NolagCore.Room.Facade
import NolagCore.Room.GrantFacade
import NolagCore.SigningKey.Facade

/-!
# Facade.Operation

Every call that changes the configuration or the session state, as one type: what the host of the
library can do to the database. An operation carries its arguments and what it draws.
-/

namespace NolagCore
namespace Facade

open ProjectConfig (Host Draws ProjectConfigDoc)

inductive Operation where
  | createProject (projectId : Uuid) (dto : ProjectFacade.ProjectCreateDto)
  | updateProject (projectId : Uuid) (dto : ProjectFacade.ProjectPatchDto)
  | syncLimits (projectId : Uuid) (limits : ProjectFacade.ProjectLimitsDto)
  | deleteProject (projectId : Uuid)
  | createScope (accessScopeId projectId : Uuid) (dto : AccessScopeFacade.AccessScopeCreateDto)
  | updateScope (accessScopeId projectId : Uuid) (dto : AccessScopeFacade.AccessScopePatchDto)
  | deleteScope (accessScopeId projectId : Uuid)
  | createApp (appId projectId : Uuid) (dto : PlatformAppFacade.PlatformAppCreateDto)
  | updateApp (appId projectId : Uuid) (dto : PlatformAppFacade.PlatformAppPatchDto)
  | deleteApp (appId projectId : Uuid)
  | createRoom (roomId appId : Uuid) (data : RoomFacade.RoomCreateDto)
  | ensureRoom (roomId appId : Uuid) (data : RoomFacade.RoomCreateDto) (maxRooms : Nat)
  | updateRoom (roomId appId : Uuid) (data : RoomFacade.RoomPatchDto)
  | deleteRoom (roomId appId : Uuid)
  | createStaticRooms (ids : Nat → Uuid) (appId : Uuid) (rooms : List RoomFacade.StaticRoom)
  | createRoomGrant (roomActorAccessId roomId : Uuid)
      (dto : RoomActorAccessFacade.RoomActorAccessCreateDto)
  | updateRoomGrant (roomActorAccessId : Uuid)
      (dto : RoomActorAccessFacade.RoomActorAccessUpdateDto)
  | deleteRoomGrant (roomActorAccessId : Uuid)
  | createLobby (lobbyId appId : Uuid) (data : LobbyFacade.LobbyCreateDto)
  | updateLobby (lobbyId appId : Uuid) (data : LobbyFacade.LobbyPatchDto)
  | deleteLobby (lobbyId appId : Uuid)
  | addRoomToLobby (lobbyId roomId appId : Uuid)
  | removeRoomFromLobby (lobbyId roomId appId : Uuid)
  | createStaticLobbies (ids : Nat → Uuid) (appId : Uuid) (lobbies : List LobbyFacade.StaticLobby)
      (createdRooms : List (Uuid × String))
  | createActorToken (actorTokenId : Uuid) (random : CredentialBytes) (projectId : Uuid)
      (data : ActorTokenFacade.ActorTokenCreateDto)
  | updateActorToken (actorTokenId projectId : Uuid) (data : ActorTokenFacade.ActorTokenPatchDto)
  | deleteActorToken (actorTokenId projectId : Uuid)
  | updateActorState (actorTokenStateId actorTokenId : Uuid) (connectionState : ConnectionState)
      (krakenNodeId : Option String)
  | clearActorState (actorTokenId : Uuid)
  | updateSubscription (actorTokenStateId : Uuid) (dto : Authz.SubscriptionUpdate)
  | clearSubscriptions (actorTokenId : Uuid)
  | createSigningKey (signingKeyId : Uuid) (random : SigningKeyFacade.SigningKeyBytes)
      (projectId : Uuid) (data : SigningKeyFacade.SigningKeyCreateDto)
  | updateSigningKey (signingKeyId projectId : Uuid) (data : SigningKeyFacade.SigningKeyPatchDto)
  | deleteSigningKey (signingKeyId projectId : Uuid)
  | importProject (draws : Draws) (doc : ProjectConfigDoc)
  /-- `ProjectConfigFacade.deleteProject`, which removes the rows. -/
  | purgeProject (projectId : Uuid)

/-- The database an outcome commits. -/
def committed {α : Type} (o : Outcome α) : Except CoreError Database :=
  match o with
  | .ok r => .ok r.2
  | .error e => .error e

def Operation.run (host : Host) (now : Int) (db : Database) : Operation → Except CoreError Database
  | .createProject projectId dto => committed (ProjectFacade.createProject db projectId dto)
  | .updateProject projectId dto => committed (ProjectFacade.updateProject db projectId dto)
  | .syncLimits projectId limits => committed (ProjectFacade.syncLimits db now projectId limits)
  | .deleteProject projectId => committed (ProjectFacade.deleteProject db now projectId)
  | .createScope accessScopeId projectId dto =>
    committed (AccessScopeFacade.create db accessScopeId projectId dto)
  | .updateScope accessScopeId projectId dto =>
    committed (AccessScopeFacade.update db accessScopeId projectId dto)
  | .deleteScope accessScopeId projectId =>
    committed (AccessScopeFacade.delete db now accessScopeId projectId)
  | .createApp appId projectId dto =>
    committed (PlatformAppFacade.createApp db appId projectId dto)
  | .updateApp appId projectId dto =>
    committed (PlatformAppFacade.updateApp db appId projectId dto)
  | .deleteApp appId projectId => committed (PlatformAppFacade.deleteApp db now appId projectId)
  | .createRoom roomId appId data => committed (RoomFacade.createRoom db roomId appId data)
  | .ensureRoom roomId appId data maxRooms =>
    committed (RoomFacade.ensureRoom db roomId appId data maxRooms)
  | .updateRoom roomId appId data => committed (RoomFacade.updateRoom db roomId appId data)
  | .deleteRoom roomId appId => committed (RoomFacade.deleteRoom db now roomId appId)
  | .createStaticRooms ids appId rooms =>
    committed (RoomFacade.createStaticRoomsFromConfig db ids appId rooms)
  | .createRoomGrant roomActorAccessId roomId dto =>
    committed (RoomActorAccessFacade.create host.legacy db roomActorAccessId roomId dto)
  | .updateRoomGrant roomActorAccessId dto =>
    committed (RoomActorAccessFacade.update host.legacy db roomActorAccessId dto)
  | .deleteRoomGrant roomActorAccessId =>
    committed (RoomActorAccessFacade.delete db now roomActorAccessId)
  | .createLobby lobbyId appId data => committed (LobbyFacade.createLobby db lobbyId appId data)
  | .updateLobby lobbyId appId data => committed (LobbyFacade.updateLobby db lobbyId appId data)
  | .deleteLobby lobbyId appId => committed (LobbyFacade.deleteLobby db now lobbyId appId)
  | .addRoomToLobby lobbyId roomId appId =>
    committed (LobbyFacade.addRoomToLobby db lobbyId roomId appId)
  | .removeRoomFromLobby lobbyId roomId appId =>
    committed (LobbyFacade.removeRoomFromLobby db lobbyId roomId appId)
  | .createStaticLobbies ids appId lobbies createdRooms =>
    committed (LobbyFacade.createStaticLobbiesFromConfig db ids appId lobbies createdRooms)
  | .createActorToken actorTokenId random projectId data => committed
    (ActorTokenFacade.createActorToken host.legacy host.crypto db actorTokenId random projectId data)
  | .updateActorToken actorTokenId projectId data =>
    committed (ActorTokenFacade.updateActorToken host.legacy db actorTokenId projectId data)
  | .deleteActorToken actorTokenId projectId =>
    committed (ActorTokenFacade.deleteActorToken db now actorTokenId projectId)
  | .updateActorState actorTokenStateId actorTokenId connectionState krakenNodeId => committed
    (ActorTokenFacade.updateActorState db actorTokenStateId actorTokenId connectionState
      krakenNodeId)
  | .clearActorState actorTokenId => committed (ActorTokenFacade.clearActorState db actorTokenId)
  | .updateSubscription actorTokenStateId dto =>
    committed (Authz.updateSubscription db now actorTokenStateId dto)
  | .clearSubscriptions actorTokenId => committed (Authz.clearSubscriptions db now actorTokenId)
  | .createSigningKey signingKeyId random projectId data => committed
    (SigningKeyFacade.createSigningKey host.crypto host.cipher host.config db signingKeyId random
      projectId data)
  | .updateSigningKey signingKeyId projectId data =>
    committed (SigningKeyFacade.updateSigningKey db signingKeyId projectId data)
  | .deleteSigningKey signingKeyId projectId =>
    committed (SigningKeyFacade.deleteSigningKey db now signingKeyId projectId)
  | .importProject draws doc =>
    committed (ProjectConfigFacade.importProject host draws now db doc)
  | .purgeProject projectId => committed (ProjectConfigFacade.deleteProject db projectId)

/-- An operation that throws leaves the database as it was. -/
def Operation.apply (host : Host) (now : Int) (db : Database) (op : Operation) : Database :=
  match op.run host now db with
  | .ok db' => db'
  | .error _ => db

end Facade
end NolagCore
