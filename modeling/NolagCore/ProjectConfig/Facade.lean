import NolagCore.ProjectConfig.Export
import NolagCore.ProjectConfig.Import

/-!
# ProjectConfig.Facade

Import in one transaction, and the deletion that removes rows instead of stamping them.
-/

namespace NolagCore
namespace ProjectConfigFacade

open Lib ProjectConfig

def importProject (host : Host) (draws : Draws) (now : Int) (db : Database)
    (doc : ProjectConfigDoc) : Outcome ImportedCredentials :=
  match ProjectConfig.importProject host draws now doc db.store with
  | .error e => .error e
  | .ok (credentials, s) => commit s credentials

/-- `DELETE FROM actor_token`: grants and session state of a deleted actor go with it. -/
def deleteActors (projectId : Uuid) (s : Store) : Store :=
  let actorTokens := s.actorTokens |> deleteRows fun a => decide (a.projectId = projectId)
  let kept (actorTokenId : Uuid) : Bool :=
    actorTokens.any fun a => decide (a.actorTokenId = actorTokenId)
  { s with
    actorTokens
    actorTokenStates := s.actorTokenStates.filter fun st => kept st.actorTokenId
    actorAppAccess := s.actorAppAccess.filter fun g => kept g.actorTokenId
    roomActorAccess := s.roomActorAccess.filter fun g => g.actorTokenId.all kept }

/-- `DELETE FROM project`: every reference cascades, level by level, but for the one of an actor to
its scope, which the constraints then check. -/
def deleteProjectRow (projectId : Uuid) (s : Store) : Store :=
  let s := deleteActors projectId s
  let apps := s.apps |> deleteRows fun a => decide (a.projectId = projectId)
  let rooms := s.rooms.filter fun r => apps.any fun a => decide (a.appId = r.appId)
  let lobbies := s.lobbies.filter fun l => apps.any fun a => decide (a.appId = l.appId)
  { s with
    projects := s.projects |> deleteRows fun p => decide (p.projectId = projectId)
    accessScopes := s.accessScopes |> deleteRows fun r => decide (r.projectId = projectId)
    signingKeys := s.signingKeys |> deleteRows fun k => decide (k.projectId = projectId)
    apps
    rooms
    lobbies
    lobbyRooms := s.lobbyRooms.filter fun lr =>
      (lobbies.any fun l => decide (l.lobbyId = lr.lobbyId)) &&
        rooms.any fun r => decide (r.roomId = lr.roomId)
    roomActorAccess := s.roomActorAccess.filter fun g =>
      rooms.any fun r => decide (r.roomId = g.roomId)
    actorAppAccess := s.actorAppAccess.filter fun g =>
      apps.any fun a => decide (a.appId = g.appId) }

/-- Actors first, then the project. -/
def deleteProject (db : Database) (projectId : Uuid) : Outcome Unit :=
  match findOne db.store.projects fun p => decide (p.projectId = projectId) with
  | none => .error (.notFound "Project not found")
  | some _ => commit (deleteProjectRow projectId (deleteActors projectId db.store)) ()

end ProjectConfigFacade
end NolagCore
