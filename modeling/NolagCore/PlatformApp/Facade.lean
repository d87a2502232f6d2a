import NolagCore.Common.Errors
import NolagCore.Common.Slug

/-!
# PlatformApp.Facade

Apps: the first segment of every address, and the authoritative topic list.
-/

namespace NolagCore
namespace PlatformAppFacade

open Lib

structure PlatformAppCreateDto where
  slug : Option String := none
  name : String
  description : Option String := none
  topics : List String
  accessMode : Option EAppAccessMode := none
  topicConfigs : Option TopicConfigs := none
  hydrationWebhook : Option WebhookConfig := none
  triggerWebhook : Option WebhookConfig := none

/-- The slug is absent: it is the first segment of every address in the app. -/
structure PlatformAppPatchDto where
  name : Option String := none
  description : Option (Option String) := none
  status : Option EAppStatus := none
  accessMode : Option EAppAccessMode := none
  topics : Option (List String) := none
  topicConfigs : Option (Option TopicConfigs) := none
  hydrationWebhook : Option (Option WebhookConfig) := none
  triggerWebhook : Option (Option WebhookConfig) := none

def notFound (appId : Uuid) : CoreError := .notFound ("App " ++ appId.text ++ " not found")

def findByProjectAndId (s : Store) (projectId appId : Uuid) : Option PlatformApp :=
  findOne s.apps fun a => decide (a.appId = appId) && decide (a.projectId = projectId)

def createApp (db : Database) (appId projectId : Uuid) (dto : PlatformAppCreateDto) :
    Outcome PlatformApp :=
  let slug := dto.slug.getD (generateAppSlug dto.name)
  match findOne db.store.apps fun a => decide (a.slug = slug) && decide (a.projectId = projectId) with
  | some _ => .error (.conflict
      ("An app with slug \"" ++ slug ++ "\" already exists in this project"))
  | none =>
    let entity : PlatformApp :=
      { appId := appId
        projectId := projectId
        slug := slug
        name := dto.name
        description := dto.description
        topics := some dto.topics
        topicConfigs := dto.topicConfigs
        status := .active
        accessMode := dto.accessMode.getD .open
        hydrationWebhook := dto.hydrationWebhook
        triggerWebhook := dto.triggerWebhook }
    commit { db.store with apps := db.store.apps ++ [entity] } entity

def updateApp (db : Database) (appId projectId : Uuid) (dto : PlatformAppPatchDto) :
    Outcome PlatformApp :=
  match findByProjectAndId db.store projectId appId with
  | none => .error (notFound appId)
  | some existing =>
    -- field by field: an app row decides what every actor in it can reach
    let entity := { existing with
      name := patch dto.name existing.name
      description := patch dto.description existing.description
      status := patch dto.status existing.status
      accessMode := patch dto.accessMode existing.accessMode
      topics := patch (dto.topics.map some) existing.topics
      topicConfigs := patch dto.topicConfigs existing.topicConfigs
      hydrationWebhook := patch dto.hydrationWebhook existing.hydrationWebhook
      triggerWebhook := patch dto.triggerWebhook existing.triggerWebhook }
    commit { db.store with apps := saveRow (·.appId) entity db.store.apps } entity

/-- Rooms, lobbies and grants beneath the app are left in place and become unreachable with it. -/
def deleteApp (db : Database) (now : Int) (appId projectId : Uuid) : Outcome Unit :=
  match findByProjectAndId db.store projectId appId with
  | none => .error (notFound appId)
  | some _ =>
    let apps := db.store.apps |> updateRows
      (fun a => decide (a.appId = appId) && decide (a.projectId = projectId))
      (fun a => { a with deletedAt := some now })
    commit { db.store with apps } ()

end PlatformAppFacade
end NolagCore
