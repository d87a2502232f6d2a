import NolagCore.Model.Entities

/-!
# Model.Database

A store is one list of rows a table. `SchemaValid` is what the initial migration declares:
primary keys, foreign keys and unique indexes, the latter partial where the migration says
`WHERE "deleted_at" IS NULL`. A `Database` is a store together with its validity, so no state
that PostgreSQL would refuse can be built.
-/

namespace NolagCore

open Lib

structure Store where
  projects : List Project := []
  accessScopes : List AccessScope := []
  apps : List PlatformApp := []
  rooms : List Room := []
  roomActorAccess : List RoomActorAccess := []
  lobbies : List Lobby := []
  lobbyRooms : List LobbyRoom := []
  actorTokens : List ActorToken := []
  actorTokenStates : List ActorTokenState := []
  actorAppAccess : List ActorAppAccess := []
  signingKeys : List SigningKey := []
deriving DecidableEq

namespace Store

/-- The constraints of the schema. -/
structure SchemaValid (s : Store) : Prop where
  pkProject : UniqueOn Project.projectId s.projects
  pkScope : UniqueOn AccessScope.accessScopeId s.accessScopes
  pkApp : UniqueOn PlatformApp.appId s.apps
  pkRoom : UniqueOn Room.roomId s.rooms
  pkRoomGrant : UniqueOn RoomActorAccess.roomActorAccessId s.roomActorAccess
  pkLobby : UniqueOn Lobby.lobbyId s.lobbies
  pkLobbyRoom : UniqueOn (fun lr => (lr.lobbyId, lr.roomId)) s.lobbyRooms
  pkActor : UniqueOn ActorToken.actorTokenId s.actorTokens
  pkState : UniqueOn ActorTokenState.actorTokenStateId s.actorTokenStates
  pkAppGrant : UniqueOn ActorAppAccess.actorAppAccessId s.actorAppAccess
  pkSigningKey : UniqueOn SigningKey.signingKeyId s.signingKeys
  actorKeyId : UniqueOn ActorToken.keyId s.actorTokens
  signingKeyId : UniqueOn SigningKey.keyId s.signingKeys
  scopeSlug : UniqueOn (fun r => (r.projectId, r.slug)) (s.accessScopes.filter live)
  appSlug : UniqueOn (fun r => (r.projectId, r.slug)) (s.apps.filter live)
  roomSlug : UniqueOn (fun r => (r.appId, r.slug)) (s.rooms.filter live)
  lobbySlug : UniqueOn (fun r => (r.appId, r.slug)) (s.lobbies.filter live)
  /-- One grant an actor and app, deleted ones included. -/
  appGrant : UniqueOn (fun g => (g.actorTokenId, g.appId)) s.actorAppAccess
  fkScopeProject : References s.accessScopes (some ·.projectId) s.projects Project.projectId
  fkAppProject : References s.apps (some ·.projectId) s.projects Project.projectId
  fkActorProject : References s.actorTokens (some ·.projectId) s.projects Project.projectId
  fkActorScope :
    References s.actorTokens ActorToken.accessScopeId s.accessScopes AccessScope.accessScopeId
  fkKeyProject : References s.signingKeys (some ·.projectId) s.projects Project.projectId
  fkRoomApp : References s.rooms (some ·.appId) s.apps PlatformApp.appId
  fkGrantRoom : References s.roomActorAccess (some ·.roomId) s.rooms Room.roomId
  fkGrantActor :
    References s.roomActorAccess RoomActorAccess.actorTokenId s.actorTokens ActorToken.actorTokenId
  fkLobbyApp : References s.lobbies (some ·.appId) s.apps PlatformApp.appId
  fkMemberLobby : References s.lobbyRooms (some ·.lobbyId) s.lobbies Lobby.lobbyId
  fkMemberRoom : References s.lobbyRooms (some ·.roomId) s.rooms Room.roomId
  fkStateActor :
    References s.actorTokenStates (some ·.actorTokenId) s.actorTokens ActorToken.actorTokenId
  fkAppGrantActor :
    References s.actorAppAccess (some ·.actorTokenId) s.actorTokens ActorToken.actorTokenId
  fkAppGrantApp : References s.actorAppAccess (some ·.appId) s.apps PlatformApp.appId

/-- The same constraints as one conjunction, which is what makes them decidable. -/
def schemaConj (s : Store) : Prop :=
  (UniqueOn Project.projectId s.projects ∧ UniqueOn AccessScope.accessScopeId s.accessScopes ∧
    UniqueOn PlatformApp.appId s.apps ∧ UniqueOn Room.roomId s.rooms ∧
    UniqueOn RoomActorAccess.roomActorAccessId s.roomActorAccess ∧
    UniqueOn Lobby.lobbyId s.lobbies ∧
    UniqueOn (fun lr : LobbyRoom => (lr.lobbyId, lr.roomId)) s.lobbyRooms ∧
    UniqueOn ActorToken.actorTokenId s.actorTokens ∧
    UniqueOn ActorTokenState.actorTokenStateId s.actorTokenStates ∧
    UniqueOn ActorAppAccess.actorAppAccessId s.actorAppAccess ∧
    UniqueOn SigningKey.signingKeyId s.signingKeys) ∧
  (UniqueOn ActorToken.keyId s.actorTokens ∧ UniqueOn SigningKey.keyId s.signingKeys ∧
    UniqueOn (fun r : AccessScope => (r.projectId, r.slug)) (s.accessScopes.filter live) ∧
    UniqueOn (fun r : PlatformApp => (r.projectId, r.slug)) (s.apps.filter live) ∧
    UniqueOn (fun r : Room => (r.appId, r.slug)) (s.rooms.filter live) ∧
    UniqueOn (fun r : Lobby => (r.appId, r.slug)) (s.lobbies.filter live) ∧
    UniqueOn (fun g : ActorAppAccess => (g.actorTokenId, g.appId)) s.actorAppAccess) ∧
  (References s.accessScopes (some ·.projectId) s.projects Project.projectId ∧
    References s.apps (some ·.projectId) s.projects Project.projectId ∧
    References s.actorTokens (some ·.projectId) s.projects Project.projectId ∧
    References s.actorTokens ActorToken.accessScopeId s.accessScopes AccessScope.accessScopeId ∧
    References s.signingKeys (some ·.projectId) s.projects Project.projectId ∧
    References s.rooms (some ·.appId) s.apps PlatformApp.appId ∧
    References s.roomActorAccess (some ·.roomId) s.rooms Room.roomId ∧
    References s.roomActorAccess RoomActorAccess.actorTokenId s.actorTokens
      ActorToken.actorTokenId) ∧
  (References s.lobbies (some ·.appId) s.apps PlatformApp.appId ∧
    References s.lobbyRooms (some ·.lobbyId) s.lobbies Lobby.lobbyId ∧
    References s.lobbyRooms (some ·.roomId) s.rooms Room.roomId ∧
    References s.actorTokenStates (some ·.actorTokenId) s.actorTokens ActorToken.actorTokenId ∧
    References s.actorAppAccess (some ·.actorTokenId) s.actorTokens ActorToken.actorTokenId ∧
    References s.actorAppAccess (some ·.appId) s.apps PlatformApp.appId)

theorem schemaConj_iff (s : Store) : s.schemaConj ↔ s.SchemaValid := by
  constructor
  · rintro ⟨⟨p1, p2, p3, p4, p5, p6, p7, p8, p9, p10, p11⟩, ⟨u1, u2, u3, u4, u5, u6, u7⟩,
      ⟨f1, f2, f3, f4, f5, f6, f7, f8⟩, ⟨f9, f10, f11, f12, f13, f14⟩⟩
    exact ⟨p1, p2, p3, p4, p5, p6, p7, p8, p9, p10, p11, u1, u2, u3, u4, u5, u6, u7,
      f1, f2, f3, f4, f5, f6, f7, f8, f9, f10, f11, f12, f13, f14⟩
  · intro h
    exact ⟨⟨h.pkProject, h.pkScope, h.pkApp, h.pkRoom, h.pkRoomGrant, h.pkLobby, h.pkLobbyRoom,
        h.pkActor, h.pkState, h.pkAppGrant, h.pkSigningKey⟩,
      ⟨h.actorKeyId, h.signingKeyId, h.scopeSlug, h.appSlug, h.roomSlug, h.lobbySlug, h.appGrant⟩,
      ⟨h.fkScopeProject, h.fkAppProject, h.fkActorProject, h.fkActorScope, h.fkKeyProject,
        h.fkRoomApp, h.fkGrantRoom, h.fkGrantActor⟩,
      ⟨h.fkLobbyApp, h.fkMemberLobby, h.fkMemberRoom, h.fkStateActor, h.fkAppGrantActor,
        h.fkAppGrantApp⟩⟩

instance (s : Store) : Decidable s.schemaConj :=
  inferInstanceAs (Decidable ((_ ∧ _ ∧ _ ∧ _ ∧ _ ∧ _ ∧ _ ∧ _ ∧ _ ∧ _ ∧ _) ∧
    (_ ∧ _ ∧ _ ∧ _ ∧ _ ∧ _ ∧ _) ∧ (_ ∧ _ ∧ _ ∧ _ ∧ _ ∧ _ ∧ _ ∧ _) ∧
    (_ ∧ _ ∧ _ ∧ _ ∧ _ ∧ _)))

instance (s : Store) : Decidable s.SchemaValid := decidable_of_iff _ s.schemaConj_iff

/-- The app a grant's relation loads: the mapper joins a soft-deleted row as null. -/
def appOf (s : Store) (g : ActorAppAccess) : Option PlatformApp :=
  findOne s.apps fun a => decide (a.appId = g.appId)

end Store

/-- A state the database can be in. -/
structure Database where
  store : Store
  valid : store.SchemaValid

instance : DecidableEq Database := fun a b =>
  decidable_of_iff (a.store = b.store) ⟨fun h => by cases a; cases b; cases h; rfl, fun h => h ▸ rfl⟩

/-- The state right after the migration. -/
def Database.empty : Database := ⟨{}, by decide⟩

end NolagCore
