import NolagCore.Model.Database

/-!
# Model.Reorder

The order in which a table lists its rows is one the database may return them in. Two stores that
differ in it alone are one database state, read by two queries.
-/

namespace NolagCore

open Lib

namespace Store

/-- The same rows, scanned in another order. -/
structure Reorder (s s' : Store) : Prop where
  projects : s.projects.Perm s'.projects
  accessScopes : s.accessScopes.Perm s'.accessScopes
  apps : s.apps.Perm s'.apps
  rooms : s.rooms.Perm s'.rooms
  roomActorAccess : s.roomActorAccess.Perm s'.roomActorAccess
  lobbies : s.lobbies.Perm s'.lobbies
  lobbyRooms : s.lobbyRooms.Perm s'.lobbyRooms
  actorTokens : s.actorTokens.Perm s'.actorTokens
  actorTokenStates : s.actorTokenStates.Perm s'.actorTokenStates
  actorAppAccess : s.actorAppAccess.Perm s'.actorAppAccess
  signingKeys : s.signingKeys.Perm s'.signingKeys

namespace Reorder

variable {s s' : Store}

theorem refl (s : Store) : s.Reorder s :=
  ⟨.refl _, .refl _, .refl _, .refl _, .refl _, .refl _, .refl _, .refl _, .refl _, .refl _,
    .refl _⟩

theorem symm (h : s.Reorder s') : s'.Reorder s :=
  ⟨h.projects.symm, h.accessScopes.symm, h.apps.symm, h.rooms.symm, h.roomActorAccess.symm,
    h.lobbies.symm, h.lobbyRooms.symm, h.actorTokens.symm, h.actorTokenStates.symm,
    h.actorAppAccess.symm, h.signingKeys.symm⟩

/-- The constraints of the schema do not see the order of the rows. -/
theorem valid (h : s.Reorder s') (hv : s.SchemaValid) : s'.SchemaValid where
  pkProject := hv.pkProject.perm h.projects
  pkScope := hv.pkScope.perm h.accessScopes
  pkApp := hv.pkApp.perm h.apps
  pkRoom := hv.pkRoom.perm h.rooms
  pkRoomGrant := hv.pkRoomGrant.perm h.roomActorAccess
  pkLobby := hv.pkLobby.perm h.lobbies
  pkLobbyRoom := hv.pkLobbyRoom.perm h.lobbyRooms
  pkActor := hv.pkActor.perm h.actorTokens
  pkState := hv.pkState.perm h.actorTokenStates
  pkAppGrant := hv.pkAppGrant.perm h.actorAppAccess
  pkSigningKey := hv.pkSigningKey.perm h.signingKeys
  actorKeyId := hv.actorKeyId.perm h.actorTokens
  signingKeyId := hv.signingKeyId.perm h.signingKeys
  scopeSlug := hv.scopeSlug.perm (h.accessScopes.filter _)
  appSlug := hv.appSlug.perm (h.apps.filter _)
  roomSlug := hv.roomSlug.perm (h.rooms.filter _)
  lobbySlug := hv.lobbySlug.perm (h.lobbies.filter _)
  appGrant := hv.appGrant.perm h.actorAppAccess
  fkScopeProject := hv.fkScopeProject.perm h.accessScopes h.projects
  fkAppProject := hv.fkAppProject.perm h.apps h.projects
  fkActorProject := hv.fkActorProject.perm h.actorTokens h.projects
  fkActorScope := hv.fkActorScope.perm h.actorTokens h.accessScopes
  fkKeyProject := hv.fkKeyProject.perm h.signingKeys h.projects
  fkRoomApp := hv.fkRoomApp.perm h.rooms h.apps
  fkGrantRoom := hv.fkGrantRoom.perm h.roomActorAccess h.rooms
  fkGrantActor := hv.fkGrantActor.perm h.roomActorAccess h.actorTokens
  fkLobbyApp := hv.fkLobbyApp.perm h.lobbies h.apps
  fkMemberLobby := hv.fkMemberLobby.perm h.lobbyRooms h.lobbies
  fkMemberRoom := hv.fkMemberRoom.perm h.lobbyRooms h.rooms
  fkStateActor := hv.fkStateActor.perm h.actorTokenStates h.actorTokens
  fkAppGrantActor := hv.fkAppGrantActor.perm h.actorAppAccess h.actorTokens
  fkAppGrantApp := hv.fkAppGrantApp.perm h.actorAppAccess h.apps

end Reorder

/-- Another scan of the rows that whole tables are read by. The state row of an actor is one that its
query picks alone. -/
structure Scans (s s' : Store) : Prop extends Reorder s s' where
  states : s'.actorTokenStates = s.actorTokenStates

namespace Scans

theorem refl (s : Store) : s.Scans s := ⟨.refl s, rfl⟩

theorem symm {s s' : Store} (h : s.Scans s') : s'.Scans s := ⟨h.toReorder.symm, h.states.symm⟩

/-- Another scan of the room grants alone. -/
theorem ofRoomGrants {s : Store} {l : List RoomActorAccess} (h : s.roomActorAccess.Perm l) :
    s.Scans { s with roomActorAccess := l } :=
  ⟨{ Reorder.refl s with roomActorAccess := h }, rfl⟩

end Scans

end Store

end NolagCore
