import NolagCore.Model.Types

/-!
# ProjectConfig.Document

A whole project as one document. Everything is addressed by slug rather than by id, and no secret is
in it. An optional field that is absent and one that is null read the same, since the import treats
both with `??`.
-/

namespace NolagCore
namespace ProjectConfig

structure LimitsDoc where
  maxConnections : Option Int := none
  maxMessageSizeBytes : Option Int := none
  sessionExpirySeconds : Option Int := none
deriving DecidableEq

structure ProjectDoc where
  name : String
  description : Option String := none
  organizationId : Option Uuid := none
  limits : Option LimitsDoc := none
deriving DecidableEq

structure AccessScopeDoc where
  slug : String
  name : String
  description : Option String := none
  metadata : Option Json := none
  isActive : Option Bool := none
deriving DecidableEq

/-- A room grant to an actor type. Named grants live under the actor that holds them. -/
structure RoomTypeGrantDoc where
  actorType : Option EActorType
  permission : EAccessPermission
  topics : Option (List String) := none
  isActive : Option Bool := none
deriving DecidableEq

structure RoomDoc where
  slug : String
  name : String
  description : Option String := none
  status : Option ERoomStatus := none
  topics : Option (List String) := none
  metadata : Option Json := none
  typeGrants : Option (List RoomTypeGrantDoc) := none
deriving DecidableEq

structure LobbyDoc where
  slug : String
  name : String
  description : Option String := none
  metadata : Option Json := none
  rooms : List String
deriving DecidableEq

structure AppDoc where
  slug : String
  name : String
  description : Option String := none
  status : Option EAppStatus := none
  accessMode : Option EAppAccessMode := none
  topics : List String
  topicConfigs : Option TopicConfigs := none
  hydrationWebhook : Option WebhookConfig := none
  triggerWebhook : Option WebhookConfig := none
  rooms : Option (List RoomDoc) := none
  lobbies : Option (List LobbyDoc) := none
deriving DecidableEq

structure ActorAppGrantDoc where
  appSlug : String
  permission : EAccessPermission
  topics : Option (List String) := none
  isActive : Option Bool := none
  expiresAt : Option String := none
deriving DecidableEq

structure ActorRoomGrantDoc where
  appSlug : String
  roomSlug : String
  permission : EAccessPermission
  topics : Option (List String) := none
  isActive : Option Bool := none
  expiresAt : Option String := none
  role : Option String := none
deriving DecidableEq

structure ActorDoc where
  /-- A handle within the document, reported beside the credential an import mints. -/
  ref : String
  name : String
  actorType : EActorType
  status : Option EActorTokenStatus := none
  expiresAt : Option String := none
  metadata : Option Json := none
  scopeSlug : Option String := none
  appAccess : Option (List ActorAppGrantDoc) := none
  roomAccess : Option (List ActorRoomGrantDoc) := none
deriving DecidableEq

structure SigningKeyDoc where
  ref : String
  name : String
deriving DecidableEq

structure ProjectConfigDoc where
  version : Int
  project : ProjectDoc
  accessScopes : Option (List AccessScopeDoc) := none
  apps : Option (List AppDoc) := none
  actors : Option (List ActorDoc) := none
  signingKeys : Option (List SigningKeyDoc) := none
deriving DecidableEq

def docVersion : Int := 1

/-- One minted credential: the document's handle, the new key id, and the credential itself. -/
structure MintedCredential where
  ref : String
  keyId : String
  credential : String
deriving DecidableEq

/-- Returned once by an import and never recoverable. -/
structure ImportedCredentials where
  projectId : Uuid
  actors : List MintedCredential
  signingKeys : List MintedCredential
deriving DecidableEq

end ProjectConfig
end NolagCore
