import NolagCore.Common.Errors

/-!
# AccessScope.Facade

Access scopes: the tenant boundary. Deleting one is refused while an actor is bound to it.
-/

namespace NolagCore
namespace AccessScopeFacade

open Lib

structure AccessScopeCreateDto where
  slug : String
  name : String
  description : Option String := none
  metadata : Option Json := none

structure AccessScopePatchDto where
  name : Option String := none
  description : Option String := none
  metadata : Option Json := none
  isActive : Option Bool := none

def notFound (accessScopeId : Uuid) : CoreError :=
  .notFound ("Access scope " ++ accessScopeId.text ++ " not found")

/-- `AccessScopeService.updateLock`. -/
def updateLock (s : Store) (accessScopeId projectId : Uuid) : Option AccessScope :=
  findOne s.accessScopes fun r =>
    decide (r.accessScopeId = accessScopeId) && decide (r.projectId = projectId)

def findBySlugAndProject (s : Store) (slug : String) (projectId : Uuid) : Option AccessScope :=
  findOne s.accessScopes fun r => decide (r.slug = slug) && decide (r.projectId = projectId)

def create (db : Database) (accessScopeId projectId : Uuid) (dto : AccessScopeCreateDto) :
    Outcome AccessScope :=
  match findBySlugAndProject db.store dto.slug projectId with
  | some _ => .error (.conflict
      ("A scope with slug \"" ++ dto.slug ++ "\" already exists in this project"))
  | none =>
    let entity : AccessScope :=
      { accessScopeId := accessScopeId
        projectId := projectId
        slug := dto.slug
        name := dto.name
        description := dto.description
        metadata := dto.metadata
        isActive := true }
    commit { db.store with accessScopes := db.store.accessScopes ++ [entity] } entity

def update (db : Database) (accessScopeId projectId : Uuid) (dto : AccessScopePatchDto) :
    Outcome AccessScope :=
  match updateLock db.store accessScopeId projectId with
  | none => .error (notFound accessScopeId)
  | some existing =>
    let entity := { existing with
      name := patch dto.name existing.name
      description := patch (dto.description.map some) existing.description
      metadata := patch (dto.metadata.map some) existing.metadata
      isActive := patch dto.isActive existing.isActive }
    commit { db.store with accessScopes := saveRow (·.accessScopeId) entity db.store.accessScopes }
      entity

/-- Refuses while any actor is bound to the scope: an actor without one is wider, not narrower. -/
def delete (db : Database) (now : Int) (accessScopeId projectId : Uuid) : Outcome Unit :=
  match updateLock db.store accessScopeId projectId with
  | none => .error (notFound accessScopeId)
  | some _ =>
    let actorCount :=
      (findAll db.store.actorTokens fun a => decide (a.accessScopeId = some accessScopeId)).length
    if actorCount > 0 then
      .error (.conflict ("Cannot delete scope: " ++ toString actorCount ++
        " actor(s) are still assigned to it. Unscope them first."))
    else
      let accessScopes := db.store.accessScopes |> updateRows
        (fun r => decide (r.accessScopeId = accessScopeId) && decide (r.projectId = projectId) &&
          live r)
        (fun r => { r with deletedAt := some now })
      commit { db.store with accessScopes } ()

end AccessScopeFacade
end NolagCore
