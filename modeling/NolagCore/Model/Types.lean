import Mathlib.Data.Rat.Defs
import NolagCore.Model.Uuid

/-!
# Model.Types

Enumerations and the JSON columns of the schema. Instants are integers, the milliseconds since the
epoch that `Date` counts.
-/

namespace NolagCore

/-- `expiresAt && new Date(expiresAt) < new Date()`. -/
def expired (expiresAt : Option Int) (now : Int) : Bool :=
  match expiresAt with
  | some t => decide (t < now)
  | none => false

/-- A string used as a condition: absent and empty are both false. -/
def truthy : Option String → Bool
  | some s => decide (s ≠ "")
  | none => false

/-- A `jsonb` value that the program passes through unread, by its stored text. -/
structure Json where
  text : String
deriving DecidableEq

/-! ## Enumerations -/

inductive EActorType where
  | device | service | session | user | agent | orchestrator | observer
deriving DecidableEq

/-- Actor types that hold a session across disconnects. -/
def persistentSessionActorTypes : List EActorType := [.agent, .orchestrator]

inductive EActorTokenStatus where
  | active | disabled
deriving DecidableEq

inductive EAccessPermission where
  | subscribe | publish | pubSub
deriving DecidableEq

inductive EAppStatus where
  | active | disabled | suspended
deriving DecidableEq

inductive EAppAccessMode where
  | «open» | restricted
deriving DecidableEq

inductive ERoomStatus where
  | active | disabled
deriving DecidableEq

inductive ESigningKeyStatus where
  | active | disabled
deriving DecidableEq

/-! ## Structured columns -/

/-- `IWebhookConfig`. The headers may carry credentials. -/
structure WebhookConfig where
  url : String
  headers : Option (List (String × String)) := none
deriving DecidableEq

/-- The `webhooks` subtree of one topic's configuration. -/
structure TopicWebhooks where
  onPublish : Option WebhookConfig := none
  onSubscribe : Option WebhookConfig := none
deriving DecidableEq

/-- One topic's configuration: the subtree authorization reads, and the rest of the object. -/
structure TopicConfig where
  webhooks : Option TopicWebhooks := none
  rest : Json := ⟨"\x7b\x7d"⟩
deriving DecidableEq

/-- `TopicConfigs`, in the order of `Object.entries`; a null entry has no subtree to read. -/
abbrev TopicConfigs := List (String × Option TopicConfig)

/-- `ITopicSubscription`. Core writes neither ids nor the legacy filters; a stored entry may have them. -/
structure TopicSubscription where
  name : String
  topicId : Option String := none
  roomId : Option String := none
  identifiers : Option (List String) := none
  loadBalance : Option Bool := none
  loadBalanceGroup : Option String := none
  filters : Option (List String) := none
deriving DecidableEq

/-- `IConnectionState`: both parts may be absent. -/
structure ConnectionState where
  topics : Option (List TopicSubscription) := none
  presence : Option Json := none
deriving DecidableEq

end NolagCore
