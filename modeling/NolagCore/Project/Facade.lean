import NolagCore.Common.Errors

/-!
# Project.Facade

Projects: the outermost boundary, and where limits live. Deleting one here stamps its row and
leaves everything under it in place.
-/

namespace NolagCore
namespace ProjectFacade

open Lib

structure ProjectCreateDto where
  name : String
  description : Option String := none
  organizationId : Option Uuid := none

structure ProjectPatchDto where
  name : Option String := none
  description : Option (Option String) := none

structure ProjectLimitsDto where
  maxConnections : Option (Option Int) := none
  maxMessageSizeBytes : Option (Option Int) := none
  sessionExpirySeconds : Option (Option Int) := none

/-- `_lock`: the live row, or a 404. -/
def lock (s : Store) (projectId : Uuid) : Except CoreError Project :=
  match findOne s.projects fun p => decide (p.projectId = projectId) with
  | none => .error (.notFound ("Project " ++ projectId.text ++ " not found"))
  | some existing => .ok existing

def createProject (db : Database) (projectId : Uuid) (dto : ProjectCreateDto) : Outcome Project :=
  let entity : Project :=
    { projectId := projectId
      name := dto.name
      description := dto.description
      organizationId := dto.organizationId
      -- stays null until something syncs the limits
      limitsSyncedAt := none }
  commit { db.store with projects := db.store.projects ++ [entity] } entity

def updateProject (db : Database) (projectId : Uuid) (dto : ProjectPatchDto) : Outcome Project :=
  match lock db.store projectId with
  | .error e => .error e
  | .ok existing =>
    let entity := { existing with
      name := patch dto.name existing.name
      description := patch dto.description existing.description }
    commit { db.store with projects := saveRow (·.projectId) entity db.store.projects } entity

def syncLimits (db : Database) (now : Int) (projectId : Uuid) (limits : ProjectLimitsDto) :
    Outcome Project :=
  match lock db.store projectId with
  | .error e => .error e
  | .ok existing =>
    let entity := { existing with
      maxConnections := patch limits.maxConnections existing.maxConnections
      maxMessageSizeBytes := patch limits.maxMessageSizeBytes existing.maxMessageSizeBytes
      sessionExpirySeconds := patch limits.sessionExpirySeconds existing.sessionExpirySeconds
      limitsSyncedAt := some now }
    commit { db.store with projects := saveRow (·.projectId) entity db.store.projects } entity

def deleteProject (db : Database) (now : Int) (projectId : Uuid) : Outcome Unit :=
  match lock db.store projectId with
  | .error e => .error e
  | .ok _ =>
    let projects := db.store.projects |> updateRows (fun p => decide (p.projectId = projectId))
      (fun p => { p with deletedAt := some now })
    commit { db.store with projects } ()

end ProjectFacade
end NolagCore
