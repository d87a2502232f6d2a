import NolagCore.Facade.Effect

/-!
# Facade.Frame

Which tables an operation writes. All others are row for row as they were, whatever the operation
found and whether or not it committed: an invariant of one table is a matter of the few operations
that write it.
-/

namespace NolagCore
namespace Facade

open Lib ProjectConfig

inductive TableName where
  | project
  | accessScope
  | app
  | room
  | roomActorAccess
  | lobby
  | lobbyRoom
  | actorToken
  | actorTokenState
  | actorAppAccess
  | signingKey
deriving DecidableEq

/-- The table has the same rows. -/
def SameRows (s s' : Store) : TableName → Prop
  | .project => s'.projects = s.projects
  | .accessScope => s'.accessScopes = s.accessScopes
  | .app => s'.apps = s.apps
  | .room => s'.rooms = s.rooms
  | .roomActorAccess => s'.roomActorAccess = s.roomActorAccess
  | .lobby => s'.lobbies = s.lobbies
  | .lobbyRoom => s'.lobbyRooms = s.lobbyRooms
  | .actorToken => s'.actorTokens = s.actorTokens
  | .actorTokenState => s'.actorTokenStates = s.actorTokenStates
  | .actorAppAccess => s'.actorAppAccess = s.actorAppAccess
  | .signingKey => s'.signingKeys = s.signingKeys

/-- An import and the removal of a project write them all. -/
def Operation.writes : Operation → TableName → Bool
  | .createProject .., t | .updateProject .., t | .syncLimits .., t | .deleteProject .., t =>
    decide (t = .project)
  | .createScope .., t | .updateScope .., t | .deleteScope .., t => decide (t = .accessScope)
  | .createApp .., t | .updateApp .., t | .deleteApp .., t => decide (t = .app)
  | .createRoom .., t | .ensureRoom .., t | .updateRoom .., t | .deleteRoom .., t
  | .createStaticRooms .., t => decide (t = .room)
  | .createRoomGrant .., t | .updateRoomGrant .., t | .deleteRoomGrant .., t =>
    decide (t = .roomActorAccess)
  | .createLobby .., t | .updateLobby .., t | .deleteLobby .., t => decide (t = .lobby)
  | .addRoomToLobby .., t | .removeRoomFromLobby .., t => decide (t = .lobbyRoom)
  | .createStaticLobbies .., t => decide (t = .lobby) || decide (t = .lobbyRoom)
  | .createActorToken .., t | .updateActorToken .., t => decide (t = .actorToken)
  | .deleteActorToken .., t => decide (t = .actorToken) || decide (t = .actorTokenState)
  | .updateActorState .., t | .clearActorState .., t | .updateSubscription .., t
  | .clearSubscriptions .., t => decide (t = .actorTokenState)
  | .createSigningKey .., t | .updateSigningKey .., t | .deleteSigningKey .., t =>
    decide (t = .signingKey)
  | .importProject .., _ | .purgeProject .., _ => true

/-- Every table outside `tables` has the same rows. -/
def Only (tables : TableName → Bool) (s s' : Store) : Prop := ∀ t, tables t = false → SameRows s s' t

/-! ## One write -/

section

variable {s : Store} {tables : TableName → Bool}

theorem Only.same : Only tables s s := by
  intro t _
  cases t <;> rfl

/-- What a write of one table leaves alone. -/
theorem only_of {written : TableName} {s' : Store} (h : ∀ t, t ≠ written → SameRows s s' t) :
    Only (fun t => decide (t = written)) s s' :=
  fun t ht => h t (of_decide_eq_false ht)

theorem Only.projects {rows : List Project} :
    Only (fun t => decide (t = .project)) s { s with projects := rows } :=
  only_of fun t ht => by cases t <;> first | rfl | exact absurd rfl ht

theorem Only.accessScopes {rows : List AccessScope} :
    Only (fun t => decide (t = .accessScope)) s { s with accessScopes := rows } :=
  only_of fun t ht => by cases t <;> first | rfl | exact absurd rfl ht

theorem Only.apps {rows : List PlatformApp} :
    Only (fun t => decide (t = .app)) s { s with apps := rows } :=
  only_of fun t ht => by cases t <;> first | rfl | exact absurd rfl ht

theorem Only.rooms {rows : List Room} :
    Only (fun t => decide (t = .room)) s { s with rooms := rows } :=
  only_of fun t ht => by cases t <;> first | rfl | exact absurd rfl ht

theorem Only.roomActorAccess {rows : List RoomActorAccess} :
    Only (fun t => decide (t = .roomActorAccess)) s { s with roomActorAccess := rows } :=
  only_of fun t ht => by cases t <;> first | rfl | exact absurd rfl ht

theorem Only.lobbies {rows : List Lobby} :
    Only (fun t => decide (t = .lobby)) s { s with lobbies := rows } :=
  only_of fun t ht => by cases t <;> first | rfl | exact absurd rfl ht

theorem Only.lobbyRooms {rows : List LobbyRoom} :
    Only (fun t => decide (t = .lobbyRoom)) s { s with lobbyRooms := rows } :=
  only_of fun t ht => by cases t <;> first | rfl | exact absurd rfl ht

theorem Only.actorTokens {rows : List ActorToken} :
    Only (fun t => decide (t = .actorToken)) s { s with actorTokens := rows } :=
  only_of fun t ht => by cases t <;> first | rfl | exact absurd rfl ht

theorem Only.actorTokenStates {rows : List ActorTokenState} :
    Only (fun t => decide (t = .actorTokenState)) s { s with actorTokenStates := rows } :=
  only_of fun t ht => by cases t <;> first | rfl | exact absurd rfl ht

theorem Only.signingKeys {rows : List SigningKey} :
    Only (fun t => decide (t = .signingKey)) s { s with signingKeys := rows } :=
  only_of fun t ht => by cases t <;> first | rfl | exact absurd rfl ht

/-- An actor goes with its session state. -/
theorem Only.actors {actorTokens : List ActorToken} {actorTokenStates : List ActorTokenState} :
    Only (fun t => decide (t = .actorToken) || decide (t = .actorTokenState)) s
      { s with actorTokens := actorTokens, actorTokenStates := actorTokenStates } := by
  intro t ht
  cases t <;> first | rfl | exact absurd ht (by decide)

/-- Provisioned lobbies come with their members. -/
theorem Only.lobbiesWithRooms {lobbies : List Lobby} {lobbyRooms : List LobbyRoom} :
    Only (fun t => decide (t = .lobby) || decide (t = .lobbyRoom)) s
      { s with lobbies := lobbies, lobbyRooms := lobbyRooms } := by
  intro t ht
  cases t <;> first | rfl | exact absurd ht (by decide)

theorem Only.of_onlyRooms {s' : Store} (h : OnlyRooms s s') :
    Only (fun t => decide (t = .room)) s s' := by
  obtain ⟨rooms, rfl⟩ := h
  exact .rooms

end

/-! ## The operations -/

section

variable {host : Host} {now : Int} {db : Database}

theorem project_update_only {projectId : Uuid} {dto : ProjectFacade.ProjectPatchDto} :
    Leaves (ProjectFacade.updateProject db projectId dto)
      (Only (fun t => decide (t = .project)) db.store) := by
  unfold ProjectFacade.updateProject
  split
  · exact .error
  · exact .commit .projects

theorem project_limits_only {projectId : Uuid} {limits : ProjectFacade.ProjectLimitsDto} :
    Leaves (ProjectFacade.syncLimits db now projectId limits)
      (Only (fun t => decide (t = .project)) db.store) := by
  unfold ProjectFacade.syncLimits
  split
  · exact .error
  · exact .commit .projects

theorem project_delete_only {projectId : Uuid} :
    Leaves (ProjectFacade.deleteProject db now projectId)
      (Only (fun t => decide (t = .project)) db.store) := by
  unfold ProjectFacade.deleteProject
  split
  · exact .error
  · exact .commit .projects

theorem scope_create_only {accessScopeId projectId : Uuid}
    {dto : AccessScopeFacade.AccessScopeCreateDto} :
    Leaves (AccessScopeFacade.create db accessScopeId projectId dto)
      (Only (fun t => decide (t = .accessScope)) db.store) := by
  unfold AccessScopeFacade.create
  split
  · exact .error
  · exact .commit .accessScopes

theorem scope_update_only {accessScopeId projectId : Uuid}
    {dto : AccessScopeFacade.AccessScopePatchDto} :
    Leaves (AccessScopeFacade.update db accessScopeId projectId dto)
      (Only (fun t => decide (t = .accessScope)) db.store) := by
  unfold AccessScopeFacade.update
  split
  · exact .error
  · exact .commit .accessScopes

theorem scope_delete_only {accessScopeId projectId : Uuid} :
    Leaves (AccessScopeFacade.delete db now accessScopeId projectId)
      (Only (fun t => decide (t = .accessScope)) db.store) := by
  unfold AccessScopeFacade.delete
  split
  · exact .error
  · dsimp only
    split
    · exact .error
    · exact .commit .accessScopes

theorem app_create_only {appId projectId : Uuid} {dto : PlatformAppFacade.PlatformAppCreateDto} :
    Leaves (PlatformAppFacade.createApp db appId projectId dto)
      (Only (fun t => decide (t = .app)) db.store) := by
  unfold PlatformAppFacade.createApp
  dsimp only
  split
  · exact .error
  · exact .commit .apps

theorem app_update_only {appId projectId : Uuid} {dto : PlatformAppFacade.PlatformAppPatchDto} :
    Leaves (PlatformAppFacade.updateApp db appId projectId dto)
      (Only (fun t => decide (t = .app)) db.store) := by
  unfold PlatformAppFacade.updateApp
  split
  · exact .error
  · exact .commit .apps

theorem app_delete_only {appId projectId : Uuid} :
    Leaves (PlatformAppFacade.deleteApp db now appId projectId)
      (Only (fun t => decide (t = .app)) db.store) := by
  unfold PlatformAppFacade.deleteApp
  split
  · exact .error
  · exact .commit .apps

theorem roomGrant_create_only {roomActorAccessId roomId : Uuid}
    {dto : RoomActorAccessFacade.RoomActorAccessCreateDto} :
    Leaves (RoomActorAccessFacade.create host.legacy db roomActorAccessId roomId dto)
      (Only (fun t => decide (t = .roomActorAccess)) db.store) := by
  unfold RoomActorAccessFacade.create
  split
  · exact .error
  · split
    · exact .error
    · split
      · exact .error
      · split
        · exact .error
        · exact .commit .roomActorAccess

theorem roomGrant_update_only {roomActorAccessId : Uuid}
    {dto : RoomActorAccessFacade.RoomActorAccessUpdateDto} :
    Leaves (RoomActorAccessFacade.update host.legacy db roomActorAccessId dto)
      (Only (fun t => decide (t = .roomActorAccess)) db.store) := by
  unfold RoomActorAccessFacade.update
  split
  · exact .error
  · split
    · exact .error
    · exact .commit .roomActorAccess

theorem roomGrant_delete_only {roomActorAccessId : Uuid} :
    Leaves (RoomActorAccessFacade.delete db now roomActorAccessId)
      (Only (fun t => decide (t = .roomActorAccess)) db.store) := by
  unfold RoomActorAccessFacade.delete
  split
  · exact .error
  · exact .commit .roomActorAccess

theorem lobby_create_only {lobbyId appId : Uuid} {data : LobbyFacade.LobbyCreateDto} :
    Leaves (LobbyFacade.createLobby db lobbyId appId data)
      (Only (fun t => decide (t = .lobby)) db.store) := by
  unfold LobbyFacade.createLobby
  dsimp only
  split
  · exact .error
  · unfold LobbyFacade.insertLobby
    split
    · exact .error
    · exact .commit .lobbies

theorem lobby_update_only {lobbyId appId : Uuid} {data : LobbyFacade.LobbyPatchDto} :
    Leaves (LobbyFacade.updateLobby db lobbyId appId data)
      (Only (fun t => decide (t = .lobby)) db.store) := by
  unfold LobbyFacade.updateLobby
  split
  · exact .error
  · exact .commit .lobbies

theorem lobby_delete_only {lobbyId appId : Uuid} :
    Leaves (LobbyFacade.deleteLobby db now lobbyId appId)
      (Only (fun t => decide (t = .lobby)) db.store) := by
  unfold LobbyFacade.deleteLobby
  split
  · exact .error
  · exact .commit .lobbies

theorem lobby_addRoom_only {lobbyId roomId appId : Uuid} :
    Leaves (LobbyFacade.addRoomToLobby db lobbyId roomId appId)
      (Only (fun t => decide (t = .lobbyRoom)) db.store) := by
  unfold LobbyFacade.addRoomToLobby
  dsimp only
  split
  · exact .error
  · split
    · exact .error
    · split
      · exact .error
      · split
        · exact .error
        · exact .commit .lobbyRooms

theorem lobby_removeRoom_only {lobbyId roomId appId : Uuid} :
    Leaves (LobbyFacade.removeRoomFromLobby db lobbyId roomId appId)
      (Only (fun t => decide (t = .lobbyRoom)) db.store) := by
  unfold LobbyFacade.removeRoomFromLobby
  split
  · exact .error
  · exact .commit .lobbyRooms

theorem actor_create_only {actorTokenId projectId : Uuid} {random : CredentialBytes}
    {data : ActorTokenFacade.ActorTokenCreateDto} :
    Leaves (ActorTokenFacade.createActorToken host.legacy host.crypto db actorTokenId random projectId
      data) (Only (fun t => decide (t = .actorToken)) db.store) := by
  unfold ActorTokenFacade.createActorToken
  split
  · exact .error
  · dsimp only
    split
    · exact .error
    · exact .commit .actorTokens

theorem actor_update_only {actorTokenId projectId : Uuid}
    {data : ActorTokenFacade.ActorTokenPatchDto} :
    Leaves (ActorTokenFacade.updateActorToken host.legacy db actorTokenId projectId data)
      (Only (fun t => decide (t = .actorToken)) db.store) := by
  unfold ActorTokenFacade.updateActorToken
  split
  · exact .error
  · split
    · exact .error
    · unfold ActorTokenFacade.patchActorToken
      split
      · exact .error
      · split
        · exact .error
        · exact .commit .actorTokens

theorem actor_delete_only {actorTokenId projectId : Uuid} :
    Leaves (ActorTokenFacade.deleteActorToken db now actorTokenId projectId)
      (Only (fun t => decide (t = .actorToken) || decide (t = .actorTokenState)) db.store) := by
  unfold ActorTokenFacade.deleteActorToken
  split
  · exact .error
  · exact .commit .actors

theorem actorState_update_only {actorTokenStateId actorTokenId : Uuid}
    {connectionState : ConnectionState} {krakenNodeId : Option String} :
    Leaves (ActorTokenFacade.updateActorState db actorTokenStateId actorTokenId connectionState
      krakenNodeId) (Only (fun t => decide (t = .actorTokenState)) db.store) := by
  unfold ActorTokenFacade.updateActorState
  split
  · exact .commit .actorTokenStates
  · exact .commit .actorTokenStates

theorem subscription_update_only {actorTokenStateId : Uuid} {dto : Authz.SubscriptionUpdate} :
    Leaves (Authz.updateSubscription db now actorTokenStateId dto)
      (Only (fun t => decide (t = .actorTokenState)) db.store) := by
  unfold Authz.updateSubscription
  split
  · exact .commit .actorTokenStates
  · exact .commit .actorTokenStates

theorem subscription_clear_only {actorTokenId : Uuid} :
    Leaves (Authz.clearSubscriptions db now actorTokenId)
      (Only (fun t => decide (t = .actorTokenState)) db.store) := by
  unfold Authz.clearSubscriptions
  split
  · exact .unchanged .same
  · exact .commit .actorTokenStates

theorem signingKey_create_only {signingKeyId projectId : Uuid}
    {random : SigningKeyFacade.SigningKeyBytes} {data : SigningKeyFacade.SigningKeyCreateDto} :
    Leaves (SigningKeyFacade.createSigningKey host.crypto host.cipher host.config db signingKeyId
      random projectId data) (Only (fun t => decide (t = .signingKey)) db.store) := by
  unfold SigningKeyFacade.createSigningKey
  dsimp only
  split
  · exact .error
  · exact .commit .signingKeys

theorem signingKey_update_only {signingKeyId projectId : Uuid}
    {data : SigningKeyFacade.SigningKeyPatchDto} :
    Leaves (SigningKeyFacade.updateSigningKey db signingKeyId projectId data)
      (Only (fun t => decide (t = .signingKey)) db.store) := by
  unfold SigningKeyFacade.updateSigningKey
  split
  · exact .error
  · unfold SigningKeyFacade.patchSigningKey
    split
    · exact .error
    · exact .commit .signingKeys

theorem signingKey_delete_only {signingKeyId projectId : Uuid} :
    Leaves (SigningKeyFacade.deleteSigningKey db now signingKeyId projectId)
      (Only (fun t => decide (t = .signingKey)) db.store) := by
  unfold SigningKeyFacade.deleteSigningKey
  split
  · exact .error
  · exact .commit .signingKeys

/-- A committed operation leaves the rows of every table it does not write as they were. -/
theorem run_only {op : Operation} {db' : Database} (h : op.run host now db = .ok db') :
    Only op.writes db.store db'.store := by
  cases op with
  | createProject projectId dto =>
    exact Leaves.committed (P := Only (fun t => decide (t = .project)) db.store)
      (.commit .projects) h
  | updateProject projectId dto => exact project_update_only.committed h
  | syncLimits projectId limits => exact project_limits_only.committed h
  | deleteProject projectId => exact project_delete_only.committed h
  | createScope accessScopeId projectId dto => exact scope_create_only.committed h
  | updateScope accessScopeId projectId dto => exact scope_update_only.committed h
  | deleteScope accessScopeId projectId => exact scope_delete_only.committed h
  | createApp appId projectId dto => exact app_create_only.committed h
  | updateApp appId projectId dto => exact app_update_only.committed h
  | deleteApp appId projectId => exact app_delete_only.committed h
  | createRoom roomId appId data => exact .of_onlyRooms (room_create_rooms.committed h)
  | ensureRoom roomId appId data maxRooms => exact .of_onlyRooms (room_ensure_rooms.committed h)
  | updateRoom roomId appId data => exact .of_onlyRooms (room_update_rooms.committed h)
  | deleteRoom roomId appId => exact .of_onlyRooms (room_delete_rooms.committed h)
  | createStaticRooms ids appId rooms => exact .of_onlyRooms (room_static_rooms.committed h)
  | createRoomGrant roomActorAccessId roomId dto => exact roomGrant_create_only.committed h
  | updateRoomGrant roomActorAccessId dto => exact roomGrant_update_only.committed h
  | deleteRoomGrant roomActorAccessId => exact roomGrant_delete_only.committed h
  | createLobby lobbyId appId data => exact lobby_create_only.committed h
  | updateLobby lobbyId appId data => exact lobby_update_only.committed h
  | deleteLobby lobbyId appId => exact lobby_delete_only.committed h
  | addRoomToLobby lobbyId roomId appId => exact lobby_addRoom_only.committed h
  | removeRoomFromLobby lobbyId roomId appId => exact lobby_removeRoom_only.committed h
  | createStaticLobbies ids appId lobbies createdRooms =>
    exact Leaves.committed
      (P := Only (fun t => decide (t = .lobby) || decide (t = .lobbyRoom)) db.store)
      (.commit .lobbiesWithRooms) h
  | createActorToken actorTokenId random projectId data => exact actor_create_only.committed h
  | updateActorToken actorTokenId projectId data => exact actor_update_only.committed h
  | deleteActorToken actorTokenId projectId => exact actor_delete_only.committed h
  | updateActorState actorTokenStateId actorTokenId connectionState krakenNodeId =>
    exact actorState_update_only.committed h
  | clearActorState actorTokenId =>
    exact Leaves.committed (P := Only (fun t => decide (t = .actorTokenState)) db.store)
      (.commit .actorTokenStates) h
  | updateSubscription actorTokenStateId dto => exact subscription_update_only.committed h
  | clearSubscriptions actorTokenId => exact subscription_clear_only.committed h
  | createSigningKey signingKeyId random projectId data => exact signingKey_create_only.committed h
  | updateSigningKey signingKeyId projectId data => exact signingKey_update_only.committed h
  | deleteSigningKey signingKeyId projectId => exact signingKey_delete_only.committed h
  | importProject draws doc => exact fun t ht => by cases ht
  | purgeProject projectId => exact fun t ht => by cases ht

end
end Facade
end NolagCore
