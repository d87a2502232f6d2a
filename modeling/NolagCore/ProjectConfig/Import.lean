import NolagCore.Common.Errors
import NolagCore.Lib.Checked
import NolagCore.Lib.OrderedMap
import NolagCore.Lobby.Facade
import NolagCore.Model.Fragment
import NolagCore.ProjectConfig.Document
import NolagCore.SigningKey.Facade

/-!
# ProjectConfig.Import

Creating a project and everything under it from a document. An import reads no stored row: it saves
one new row after another, each checked by the constraints, and a slug that refers to nothing in the
document ends it.

Ids and random bytes are drawn anew for every row. They are given by the row's place in the
document, so the maps from slugs to ids the import fills on its way are functions of the part of the
document it has been through.
-/

namespace NolagCore
namespace ProjectConfig

open Lib

/-- What an import draws. -/
structure Draws where
  project : Uuid
  scope : Nat → Uuid
  app : Nat → Uuid
  room : Nat → Nat → Uuid
  typeGrant : Nat → Nat → Nat → Uuid
  lobby : Nat → Nat → Uuid
  actor : Nat → Uuid
  actorBytes : Nat → CredentialBytes
  appGrant : Nat → Nat → Uuid
  roomGrant : Nat → Nat → Uuid
  signingKey : Nat → Uuid
  signingKeyBytes : Nat → SigningKeyFacade.SigningKeyBytes

/-- What an import is configured with and takes from libraries. -/
structure Host where
  legacy : String → Option Int
  crypto : Crypto
  cipher : SigningKeyFacade.SecretCipher
  config : CoreConfig

/-- No encryption key is configured, so no signing key can be imported. -/
def sampleHost : Host where
  legacy := fun _ => none
  crypto := sampleCrypto
  cipher := fun _ _ _ => .error "secretCipher: encryption key must be 32 bytes base64-encoded"
  config := {}

/-- `manager.save` of one new row. -/
def save (row s : Store) : Except CoreError Store :=
  if (s.append row).SchemaValid then .ok (s.append row) else .error .database

/-! ## Slug checks -/

/-- The first value of the list that has been seen before it. -/
def firstRepeated (seen : List String) : List String → Option String
  | [] => none
  | v :: vs => if v ∈ seen then some v else firstRepeated (v :: seen) vs

def checkUnique (label : String) (values : List String) : Except CoreError Unit :=
  match firstRepeated [] values with
  | some value => .error (.badRequest ("Duplicate " ++ label ++ " \"" ++ value ++ "\""))
  | none => .ok ()

/-- `_assertUniqueSlugs`. -/
def assertUniqueSlugs (doc : ProjectConfigDoc) : Except CoreError Unit := do
  checkUnique "access scope slug" ((doc.accessScopes.getD []).map (·.slug))
  checkUnique "app slug" ((doc.apps.getD []).map (·.slug))
  checkUnique "actor ref" ((doc.actors.getD []).map (·.ref))
  checkUnique "signing key ref" ((doc.signingKeys.getD []).map (·.ref))
  forEach (fun _ app _ => do
    checkUnique ("room slug in app \"" ++ app.slug ++ "\"") ((app.rooms.getD []).map (·.slug))
    checkUnique ("lobby slug in app \"" ++ app.slug ++ "\"") ((app.lobbies.getD []).map (·.slug)))
    0 (doc.apps.getD []) ()

section

variable (host : Host) (draws : Draws)

/-! ## Rows -/

def projectRow (now : Int) (doc : ProjectDoc) : Project where
  projectId := draws.project
  name := doc.name
  description := doc.description
  organizationId := doc.organizationId
  maxConnections := doc.limits.bind (·.maxConnections)
  maxMessageSizeBytes := doc.limits.bind (·.maxMessageSizeBytes)
  sessionExpirySeconds := doc.limits.bind (·.sessionExpirySeconds)
  -- configured only when the document says something about limits
  limitsSyncedAt := doc.limits.map fun _ => now

def scopeRow (i : Nat) (doc : AccessScopeDoc) : AccessScope where
  accessScopeId := draws.scope i
  projectId := draws.project
  slug := doc.slug
  name := doc.name
  description := doc.description
  metadata := doc.metadata
  isActive := doc.isActive.getD true

def appRow (i : Nat) (doc : AppDoc) : PlatformApp where
  appId := draws.app i
  projectId := draws.project
  slug := doc.slug
  name := doc.name
  description := doc.description
  status := doc.status.getD .active
  accessMode := doc.accessMode.getD .open
  topics := some doc.topics
  topicConfigs := doc.topicConfigs
  hydrationWebhook := doc.hydrationWebhook
  triggerWebhook := doc.triggerWebhook

def roomRow (i j : Nat) (doc : RoomDoc) : Room where
  roomId := draws.room i j
  appId := draws.app i
  slug := doc.slug
  name := doc.name
  description := doc.description
  status := doc.status.getD .active
  topics := doc.topics
  metadata := doc.metadata

def typeGrantRow (i j k : Nat) (doc : RoomTypeGrantDoc) : RoomActorAccess where
  roomActorAccessId := draws.typeGrant i j k
  roomId := draws.room i j
  actorTokenId := none
  actorType := doc.actorType
  permission := doc.permission
  topics := doc.topics
  isActive := doc.isActive.getD true
  expiresAt := none

def lobbyRow (i j : Nat) (doc : LobbyDoc) : Lobby where
  lobbyId := draws.lobby i j
  appId := draws.app i
  slug := doc.slug
  name := doc.name
  description := doc.description
  metadata := doc.metadata

def credentialOf (i : Nat) : GeneratedCredential :=
  generateCredential host.crypto "at_live" (draws.actorBytes i)

def actorRow (i : Nat) (doc : ActorDoc) (accessScopeId : Option Uuid) (expiresAt : Option Int) :
    ActorToken where
  actorTokenId := draws.actor i
  projectId := draws.project
  keyId := (credentialOf host draws i).keyId
  secretHash := (credentialOf host draws i).secretHash
  name := doc.name
  actorType := doc.actorType
  status := doc.status.getD .active
  expiresAt := expiresAt
  metadata := doc.metadata
  accessScopeId := accessScopeId

def appGrantRow (i j : Nat) (doc : ActorAppGrantDoc) (appId : Uuid) (expiresAt : Option Int) :
    ActorAppAccess where
  actorAppAccessId := draws.appGrant i j
  actorTokenId := draws.actor i
  appId := appId
  permission := doc.permission
  topics := doc.topics
  isActive := doc.isActive.getD true
  expiresAt := expiresAt

def roomGrantRow (i j : Nat) (doc : ActorRoomGrantDoc) (roomId : Uuid) (expiresAt : Option Int) :
    RoomActorAccess where
  roomActorAccessId := draws.roomGrant i j
  roomId := roomId
  actorTokenId := some (draws.actor i)
  actorType := none
  permission := doc.permission
  topics := doc.topics
  isActive := doc.isActive.getD true
  expiresAt := expiresAt
  role := doc.role

/-! ## Maps from slugs to ids -/

def scopeIdBySlug (scopes : List AccessScopeDoc) : OrderedMap String Uuid :=
  OrderedMap.ofList Prod.fst Prod.snd (scopes.mapIdx fun i scope => (scope.slug, draws.scope i))

def appIdBySlug (apps : List AppDoc) : OrderedMap String Uuid :=
  OrderedMap.ofList Prod.fst Prod.snd (apps.mapIdx fun i app => (app.slug, draws.app i))

/-- The address of a room within the document. -/
def roomKey (appSlug roomSlug : String) : String := appSlug ++ "/" ++ roomSlug

/-- The rooms of the given apps, in the order they are saved, under their keys. -/
def roomEntries (apps : List AppDoc) : List (String × Uuid) :=
  (apps.mapIdx fun i app =>
    (app.rooms.getD []).mapIdx fun j room => (roomKey app.slug room.slug, draws.room i j)).flatten

/-- `roomIdByAppAndSlug` once the given apps have been imported. -/
def roomIdByAppAndSlug (apps : List AppDoc) : OrderedMap String Uuid :=
  OrderedMap.ofList Prod.fst Prod.snd (roomEntries draws apps)

/-! ## Loops -/

def importRoom (i j : Nat) (room : RoomDoc) (s : Store) : Except CoreError Store := do
  let s ← save { rooms := [roomRow draws i j room] } s
  forEach (fun k grant => save { roomActorAccess := [typeGrantRow draws i j k grant] }) 0
    (room.typeGrants.getD []) s

/-- A membership carries its primary key, so saving it twice writes it once. -/
def saveLink (link : LobbyRoom) (s : Store) : Except CoreError Store :=
  if LobbyFacade.saveMember link s.lobbyRooms = s.lobbyRooms then .ok s
  else save { lobbyRooms := [link] } s

def importLobby (roomIds : OrderedMap String Uuid) (app : AppDoc) (i j : Nat) (lobby : LobbyDoc)
    (s : Store) : Except CoreError Store := do
  let s ← save { lobbies := [lobbyRow draws i j lobby] } s
  forEach (fun _ roomSlug s =>
    match roomIds.get? (roomKey app.slug roomSlug) with
    | none => .error (.badRequest
        ("Lobby \"" ++ lobby.slug ++ "\" references unknown room \"" ++ roomSlug ++ "\""))
    | some roomId => saveLink { lobbyId := draws.lobby i j, roomId := roomId } s) 0 lobby.rooms s

/-- One app, `apps` being all the apps of the document. -/
def importApp (apps : List AppDoc) (i : Nat) (app : AppDoc) (s : Store) :
    Except CoreError Store := do
  let s ← save { apps := [appRow draws i app] } s
  let s ← forEach (importRoom draws i) 0 (app.rooms.getD []) s
  forEach (importLobby draws (roomIdByAppAndSlug draws (apps.take (i + 1))) app i) 0
    (app.lobbies.getD []) s

/-- The scope an actor of the document is bound to. A falsy slug names none. -/
def actorScope (scopeIds : OrderedMap String Uuid) (actor : ActorDoc) :
    Except CoreError (Option Uuid) :=
  if truthy actor.scopeSlug = false then .ok none
  else match scopeIds.get? (actor.scopeSlug.getD "") with
    | none => .error (.badRequest ("Actor \"" ++ actor.ref ++ "\" references unknown scope \"" ++
        actor.scopeSlug.getD "" ++ "\""))
    | some accessScopeId => .ok (some accessScopeId)

def importAppGrant (appIds : OrderedMap String Uuid) (actor : ActorDoc) (i j : Nat)
    (grant : ActorAppGrantDoc) (s : Store) : Except CoreError Store :=
  match appIds.get? grant.appSlug with
  | none => .error (.badRequest
      ("Actor \"" ++ actor.ref ++ "\" references unknown app \"" ++ grant.appSlug ++ "\""))
  | some appId => do
    let expiresAt ← dateColumn host.legacy grant.expiresAt
    save { actorAppAccess := [appGrantRow draws i j grant appId expiresAt] } s

def importRoomGrant (roomIds : OrderedMap String Uuid) (actor : ActorDoc) (i j : Nat)
    (grant : ActorRoomGrantDoc) (s : Store) : Except CoreError Store :=
  match roomIds.get? (roomKey grant.appSlug grant.roomSlug) with
  | none => .error (.badRequest ("Actor \"" ++ actor.ref ++ "\" references unknown room \"" ++
      grant.appSlug ++ "/" ++ grant.roomSlug ++ "\""))
  | some roomId => do
    let expiresAt ← dateColumn host.legacy grant.expiresAt
    save { roomActorAccess := [roomGrantRow draws i j grant roomId expiresAt] } s

def importActor (scopeIds appIds roomIds : OrderedMap String Uuid) (i : Nat) (actor : ActorDoc)
    (s : Store) : Except CoreError Store := do
  let accessScopeId ← actorScope scopeIds actor
  let expiresAt ← dateColumn host.legacy actor.expiresAt
  let s ← save { actorTokens := [actorRow host draws i actor accessScopeId expiresAt] } s
  let s ← forEach (importAppGrant host draws appIds actor i) 0 (actor.appAccess.getD []) s
  forEach (importRoomGrant host draws roomIds actor i) 0 (actor.roomAccess.getD []) s

def generatedKey (i : Nat) : GeneratedCredential :=
  generateCredential host.crypto "sk_live" (draws.signingKeyBytes i).credential

def importSigningKey (i : Nat) (key : SigningKeyDoc) (s : Store) : Except CoreError Store := do
  let generated := generatedKey host draws i
  let secretEncrypted ← SigningKeyFacade.encryptForStorage host.cipher host.config
    (draws.signingKeyBytes i).iv generated.secret
  save { signingKeys := [
    { signingKeyId := draws.signingKey i
      projectId := draws.project
      keyId := generated.keyId
      secretEncrypted := secretEncrypted
      name := key.name }] } s

/-- The credentials an import returns: every actor's and every key's, by its `ref`. -/
def credentials (doc : ProjectConfigDoc) : ImportedCredentials where
  projectId := draws.project
  actors := (doc.actors.getD []).mapIdx fun i actor =>
    { ref := actor.ref
      keyId := (credentialOf host draws i).keyId
      credential := (credentialOf host draws i).credential }
  signingKeys := (doc.signingKeys.getD []).mapIdx fun i key =>
    { ref := key.ref
      keyId := (generatedKey host draws i).keyId
      credential := (generatedKey host draws i).credential }

def importProject (now : Int) (doc : ProjectConfigDoc) (s : Store) :
    Except CoreError (ImportedCredentials × Store) :=
  if doc.version ≠ docVersion then .error (.badRequest
    ("Unsupported document version. Expected " ++ toString docVersion ++ ".")
    (some ("Got version " ++ toString doc.version)))
  else do
    assertUniqueSlugs doc
    let s ← save { projects := [projectRow draws now doc.project] } s
    let s ← forEach (fun i scope => save { accessScopes := [scopeRow draws i scope] }) 0
      (doc.accessScopes.getD []) s
    let apps := doc.apps.getD []
    let s ← forEach (importApp draws apps) 0 apps s
    let s ← forEach (importActor host draws (scopeIdBySlug draws (doc.accessScopes.getD []))
      (appIdBySlug draws apps) (roomIdByAppAndSlug draws apps)) 0 (doc.actors.getD []) s
    let s ← forEach (importSigningKey host draws) 0 (doc.signingKeys.getD []) s
    return (credentials host draws doc, s)

end

end ProjectConfig
end NolagCore
