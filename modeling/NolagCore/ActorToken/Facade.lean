import NolagCore.Common.Errors
import NolagCore.Common.SecretHash

/-!
# ActorToken.Facade

Actors: who may connect at all. A scope named on create or update must be live in the project.
-/

namespace NolagCore
namespace ActorTokenFacade

open Lib

structure ActorTokenCreateDto where
  name : String
  actorType : EActorType
  expiresAt : Option String := none
  metadata : Option Json := none
  accessScopeId : Option Uuid := none

/-- `keyId`, `secretHash` and `actorType` are absent: the credential, and which grants apply. -/
structure ActorTokenPatchDto where
  name : Option String := none
  status : Option EActorTokenStatus := none
  expiresAt : Option (Option String) := none
  metadata : Option Json := none
  accessScopeId : Option (Option Uuid) := none

structure CreatedActorToken where
  entity : ActorToken
  accessToken : String

/-- The live prefix, `EActorTokenPrefix.Live`. -/
def livePrefix : String := "at_live"

def notFound (actorTokenId : Uuid) : CoreError :=
  .notFound ("Actor token " ++ actorTokenId.text ++ " not found")

/-- `ActorTokenService.findByIdAndProject`, and the locked read beside it. -/
def findByIdAndProject (s : Store) (actorTokenId projectId : Uuid) : Option ActorToken :=
  findOne s.actorTokens fun a =>
    decide (a.actorTokenId = actorTokenId) && decide (a.projectId = projectId)

/-- `_assertScopeInProject`: only a named scope is checked. -/
def assertScopeInProject (s : Store) (projectId : Uuid) (accessScopeId : Option Uuid) :
    Except CoreError Unit :=
  match accessScopeId with
  | none => .ok ()
  | some accessScopeId =>
    let count := (findAll s.accessScopes fun r =>
      decide (r.accessScopeId = accessScopeId) && decide (r.projectId = projectId)).length
    if count = 0 then .error (.badRequest
      ("Access scope " ++ accessScopeId.text ++ " does not belong to this project"))
    else .ok ()

def createActorToken (legacy : String → Option Int) (crypto : Crypto) (db : Database)
    (actorTokenId : Uuid) (random : CredentialBytes) (projectId : Uuid)
    (data : ActorTokenCreateDto) : Outcome CreatedActorToken :=
  match assertScopeInProject db.store projectId data.accessScopeId with
  | .error e => .error e
  | .ok () =>
    let generated := generateCredential crypto livePrefix random
    match dateColumn legacy data.expiresAt with
    | .error e => .error e
    | .ok expiresAt =>
      let entity : ActorToken :=
        { actorTokenId := actorTokenId
          projectId := projectId
          keyId := generated.keyId
          secretHash := generated.secretHash
          name := data.name
          actorType := data.actorType
          status := .active
          expiresAt := expiresAt
          metadata := data.metadata
          accessScopeId := data.accessScopeId }
      commit { db.store with actorTokens := db.store.actorTokens ++ [entity] }
        { entity, accessToken := generated.credential }

/-- The assignments of `patchActorToken`. -/
def assign (legacy : String → Option Int) (data : ActorTokenPatchDto) (existing : ActorToken) :
    Except CoreError ActorToken :=
  match data.expiresAt.map (dateColumn legacy) with
  | some (.error e) => .error e
  | expiresAt => .ok { existing with
      name := patch data.name existing.name
      status := patch data.status existing.status
      expiresAt := match expiresAt with
        | some (.ok t) => t
        | _ => existing.expiresAt
      metadata := patch (data.metadata.map some) existing.metadata
      accessScopeId := patch data.accessScopeId existing.accessScopeId }

/-- `ActorTokenService.patchActorToken`. -/
def patchActorToken (legacy : String → Option Int) (db : Database) (actorTokenId projectId : Uuid)
    (data : ActorTokenPatchDto) : Outcome ActorToken :=
  match findByIdAndProject db.store actorTokenId projectId with
  | none => .error (.badRequest "Could not update actor token"
      (some "ActorTokenService:patchActorToken:not_found"))
  | some existing =>
    match assign legacy data existing with
    | .error e => .error e
    | .ok entity =>
      let actorTokens := saveRow (·.actorTokenId) entity db.store.actorTokens
      commit { db.store with actorTokens } entity

def updateActorToken (legacy : String → Option Int) (db : Database) (actorTokenId projectId : Uuid)
    (data : ActorTokenPatchDto) : Outcome ActorToken :=
  match findByIdAndProject db.store actorTokenId projectId with
  | none => .error (notFound actorTokenId)
  | some _ =>
    -- `undefined` means not mentioned and `null` means clear; only a string names a scope
    match assertScopeInProject db.store projectId (data.accessScopeId.getD none) with
    | .error e => .error e
    | .ok () => patchActorToken legacy db actorTokenId projectId data

def deleteActorToken (db : Database) (now : Int) (actorTokenId projectId : Uuid) : Outcome Unit :=
  match findByIdAndProject db.store actorTokenId projectId with
  | none => .error (notFound actorTokenId)
  | some _ =>
    -- session state goes with the actor, for good
    let actorTokenStates :=
      db.store.actorTokenStates |> deleteRows fun st => decide (st.actorTokenId = actorTokenId)
    let actorTokens := db.store.actorTokens |> updateRows
      (fun a => decide (a.actorTokenId = actorTokenId) && decide (a.projectId = projectId) &&
        live a)
      (fun a => { a with deletedAt := some now })
    commit { db.store with actorTokenStates, actorTokens } ()

/-! ## Session state -/

/-- `upsertState`: one row an actor, created on first write. -/
def updateActorState (db : Database) (actorTokenStateId actorTokenId : Uuid)
    (connectionState : ConnectionState) (krakenNodeId : Option String) :
    Outcome ActorTokenState :=
  match findOne db.store.actorTokenStates fun st => decide (st.actorTokenId = actorTokenId) with
  | some existing =>
    let entity := { existing with
      connectionState := some connectionState
      krakenNodeId := patch (krakenNodeId.map some) existing.krakenNodeId }
    let actorTokenStates := saveRow (·.actorTokenStateId) entity db.store.actorTokenStates
    commit { db.store with actorTokenStates } entity
  | none =>
    let entity : ActorTokenState :=
      { actorTokenStateId := actorTokenStateId
        actorTokenId := actorTokenId
        connectionState := some connectionState
        krakenNodeId := krakenNodeId }
    commit { db.store with actorTokenStates := db.store.actorTokenStates ++ [entity] } entity

def clearActorState (db : Database) (actorTokenId : Uuid) : Outcome Unit :=
  let actorTokenStates :=
    db.store.actorTokenStates |> deleteRows fun st => decide (st.actorTokenId = actorTokenId)
  commit { db.store with actorTokenStates } ()

end ActorTokenFacade
end NolagCore
