import NolagCore.Model.Types

/-!
# Authz.Dto

What the authorization service answers, and the host options it reads.
-/

namespace NolagCore

structure AllowedTopic where
  /-- `{appSlug}/[{scopeSlug}/]{roomSlug}/{topic}` -/
  pattern : String
  /-- `[{scopeId}/]{roomId}/{topic}` -/
  topic : String
  permission : EAccessPermission
  roomId : Uuid
  roomSlug : String
  scopeId : Option Uuid
  scopeSlug : Option String
deriving DecidableEq

structure AllowedLobby where
  lobbyId : Uuid
  lobbySlug : String
deriving DecidableEq

structure ActiveSubscription where
  pattern : String
  topic : String
  loadBalance : Option Bool
  loadBalanceGroup : Option String
  filters : Option (List String)
deriving DecidableEq

/-- `ActorAppAccessDto`: one app of a session. -/
structure AppAccess where
  appId : Uuid
  appName : String
  appSlug : String
  allowedTopics : List AllowedTopic
  allowedLobbies : List AllowedLobby
  activeSubscriptions : List ActiveSubscription
  hydrationWebhook : Option WebhookConfig
  triggerWebhook : Option WebhookConfig
  topicWebhooks : List (String × TopicWebhooks)
deriving DecidableEq

structure ActorSessionPayload where
  actorTokenId : Uuid
  organizationId : Option Uuid
  projectId : Uuid
  projectName : String
  actorType : EActorType
  scopeId : Option Uuid
  scopeSlug : Option String
  scopeName : Option String
  apps : List AppAccess
  maxConnections : Option Int
  maxMessageSizeBytes : Option Int
  sessionExpirySeconds : Int
  persistentSession : Bool
deriving DecidableEq

inductive AuthzDenyReason where
  | tokenInvalid | tokenSuspended | tokenExpired | tokenNotFound | projectNotFound | scopeInactive
deriving DecidableEq

/-- Why a live session ends. -/
inductive DisconnectReason where
  | tokenNotFound | tokenRevoked | tokenExpired | projectNotFound | scopeInactive
deriving DecidableEq

inductive ValidateActorResponse where
  | valid (payload : ActorSessionPayload) (authExpiresAt : Option Rat)
  | invalid (error : AuthzDenyReason)
deriving DecidableEq

inductive RevalidateActorResponse where
  | valid (payload : ActorSessionPayload)
  | invalid (error : AuthzDenyReason) (disconnectReason : DisconnectReason)
deriving DecidableEq

structure CheckRoomAccessResult where
  allow : Bool
  appId : Option Uuid := none
  allowedTopics : List AllowedTopic
deriving DecidableEq

/-! ## Host options -/

/-- `CoreDefaultLimits`: an absent limit and a null one read the same. -/
structure CoreDefaultLimits where
  maxConnections : Option Int := none
  maxMessageSizeBytes : Option Int := none
  sessionExpirySeconds : Option Int := none

structure CoreConfig where
  signingKeyEncryptionKey : Option String := none
  defaultLimits : Option CoreDefaultLimits := none

namespace CoreConfig

def defaultMaxConnections (c : CoreConfig) : Option Int := c.defaultLimits.bind (·.maxConnections)

def defaultMaxMessageSizeBytes (c : CoreConfig) : Option Int :=
  c.defaultLimits.bind (·.maxMessageSizeBytes)

def defaultSessionExpirySeconds (c : CoreConfig) : Int :=
  (c.defaultLimits.bind (·.sessionExpirySeconds)).getD 3600

end CoreConfig

end NolagCore
