import NolagCore.Lib.SoftTable
import NolagCore.Model.Types

/-!
# Model.Entities

The rows of the schema, one structure a table, with the columns the modelled code reads or
writes. `createdAt`, `updatedAt`, `lastUsedAt` and `connectedAt` are left out: no decision
depends on them.
-/

namespace NolagCore

open Lib

structure Project where
  projectId : Uuid
  organizationId : Option Uuid := none
  name : String
  description : Option String := none
  maxConnections : Option Int := none
  maxMessageSizeBytes : Option Int := none
  sessionExpirySeconds : Option Int := none
  /-- Presence marker for the three limits. -/
  limitsSyncedAt : Option Int := none
  deletedAt : Option Int := none
deriving DecidableEq

structure AccessScope where
  accessScopeId : Uuid
  projectId : Uuid
  slug : String
  name : String
  description : Option String := none
  metadata : Option Json := none
  isActive : Bool := true
  deletedAt : Option Int := none
deriving DecidableEq

structure PlatformApp where
  appId : Uuid
  projectId : Uuid
  name : String
  slug : String
  description : Option String := none
  status : EAppStatus := .active
  accessMode : EAppAccessMode := .open
  /-- The authoritative topic list. -/
  topics : Option (List String) := some []
  topicConfigs : Option TopicConfigs := none
  hydrationWebhook : Option WebhookConfig := none
  triggerWebhook : Option WebhookConfig := none
  deletedAt : Option Int := none
deriving DecidableEq

structure Room where
  roomId : Uuid
  appId : Uuid
  slug : String
  name : String
  description : Option String := none
  status : ERoomStatus := .active
  /-- Never read during authorization. -/
  topics : Option (List String) := none
  metadata : Option Json := none
  deletedAt : Option Int := none
deriving DecidableEq

/-- A room grant: to one actor when `actorTokenId` is set, else to every actor of `actorType`. -/
structure RoomActorAccess where
  roomActorAccessId : Uuid
  roomId : Uuid
  actorTokenId : Option Uuid
  actorType : Option EActorType := none
  permission : EAccessPermission
  topics : Option (List String) := none
  isActive : Bool := true
  expiresAt : Option Int := none
  role : Option String := none
  metadata : Option Json := none
  deletedAt : Option Int := none
deriving DecidableEq

structure Lobby where
  lobbyId : Uuid
  appId : Uuid
  slug : String
  name : String
  description : Option String := none
  metadata : Option Json := none
  deletedAt : Option Int := none
deriving DecidableEq

/-- The junction of lobbies and rooms. -/
structure LobbyRoom where
  lobbyId : Uuid
  roomId : Uuid
  deletedAt : Option Int := none
deriving DecidableEq

structure ActorToken where
  actorTokenId : Uuid
  projectId : Uuid
  /-- Public identifier. -/
  keyId : String
  secretHash : String
  name : String
  actorType : EActorType
  status : EActorTokenStatus := .active
  expiresAt : Option Int := none
  metadata : Option Json := none
  accessScopeId : Option Uuid := none
  deletedAt : Option Int := none
deriving DecidableEq

/-- Live session state of one actor. -/
structure ActorTokenState where
  actorTokenStateId : Uuid
  actorTokenId : Uuid
  connectionState : Option ConnectionState := none
  krakenNodeId : Option String := none
  lastActivityAt : Option Int := none
  deletedAt : Option Int := none
deriving DecidableEq

/-- An app grant. -/
structure ActorAppAccess where
  actorAppAccessId : Uuid
  actorTokenId : Uuid
  appId : Uuid
  permission : EAccessPermission
  /-- `none` inherits the app's list. -/
  topics : Option (List String) := none
  isActive : Bool := true
  expiresAt : Option Int := none
  deletedAt : Option Int := none
deriving DecidableEq

structure SigningKey where
  signingKeyId : Uuid
  projectId : Uuid
  /-- Public identifier, the `kid` of a client token. -/
  keyId : String
  secretEncrypted : String
  name : String
  status : ESigningKeyStatus := .active
  deletedAt : Option Int := none
deriving DecidableEq

/-! ## Soft deletion -/

instance : SoftDelete Project := ⟨Project.deletedAt⟩
instance : SoftDelete AccessScope := ⟨AccessScope.deletedAt⟩
instance : SoftDelete PlatformApp := ⟨PlatformApp.deletedAt⟩
instance : SoftDelete Room := ⟨Room.deletedAt⟩
instance : SoftDelete RoomActorAccess := ⟨RoomActorAccess.deletedAt⟩
instance : SoftDelete Lobby := ⟨Lobby.deletedAt⟩
instance : SoftDelete LobbyRoom := ⟨LobbyRoom.deletedAt⟩
instance : SoftDelete ActorToken := ⟨ActorToken.deletedAt⟩
instance : SoftDelete ActorTokenState := ⟨ActorTokenState.deletedAt⟩
instance : SoftDelete ActorAppAccess := ⟨ActorAppAccess.deletedAt⟩
instance : SoftDelete SigningKey := ⟨SigningKey.deletedAt⟩

end NolagCore
