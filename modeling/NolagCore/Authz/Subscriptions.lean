import NolagCore.Common.Errors

/-!
# Authz.Subscriptions

The record of an actor's live subscriptions, one subscribe or unsubscribe at a time.
-/

namespace NolagCore
namespace Authz

open Lib

inductive SubscriptionAction where
  | subscribe | unsubscribe
deriving DecidableEq

/-- `SubscriptionUpdateRequestDto`. -/
structure SubscriptionUpdate where
  actorTokenId : Uuid
  topic : String
  action : SubscriptionAction
  loadBalance : Option Bool := none
  loadBalanceGroup : Option String := none
  filters : Option (List String) := none

/-- The subscription a subscribe records. -/
def subscriptionOf (dto : SubscriptionUpdate) : TopicSubscription :=
  { name := dto.topic
    loadBalance := some (dto.loadBalance.getD false)
    loadBalanceGroup := if dto.loadBalance.getD false then dto.loadBalanceGroup else none
    filters := if (dto.filters.getD []).isEmpty then none else dto.filters }

/-- Replace the first subscription of that topic, or append one. -/
def recordTopic (sub : TopicSubscription) : List TopicSubscription → List TopicSubscription
  | [] => [sub]
  | t :: ts => if t.name = sub.name then sub :: ts else t :: recordTopic sub ts

/-- What one call makes of the recorded topics. -/
def applyUpdate (dto : SubscriptionUpdate) (topics : List TopicSubscription) :
    List TopicSubscription :=
  match dto.action with
  | .subscribe => recordTopic (subscriptionOf dto) topics
  | .unsubscribe => topics.filter fun t => decide (t.name ≠ dto.topic)

/-- The topics a connection state holds, absent ones being none. -/
def topicsOfState (connectionState : Option ConnectionState) : List TopicSubscription :=
  (connectionState.bind (·.topics)).getD []

/-- The state row a call saves, from the row it read. -/
def updatedState (dto : SubscriptionUpdate) (now : Int) (state : ActorTokenState) :
    ActorTokenState :=
  { state with
    connectionState := some { state.connectionState.getD { topics := some [] } with
      topics := some (applyUpdate dto (topicsOfState state.connectionState)) }
    lastActivityAt := some now }

def findState (s : Store) (actorTokenId : Uuid) : Option ActorTokenState :=
  findOne s.actorTokenStates fun st => decide (st.actorTokenId = actorTokenId)

def updateSubscription (db : Database) (now : Int) (actorTokenStateId : Uuid)
    (dto : SubscriptionUpdate) : Outcome Unit :=
  match findState db.store dto.actorTokenId with
  | some state =>
    let actorTokenStates :=
      saveRow (·.actorTokenStateId) (updatedState dto now state) db.store.actorTokenStates
    commit { db.store with actorTokenStates } ()
  | none =>
    let state : ActorTokenState :=
      { actorTokenStateId := actorTokenStateId
        actorTokenId := dto.actorTokenId
        connectionState := some { topics := some [] } }
    let actorTokenStates := db.store.actorTokenStates ++ [updatedState dto now state]
    commit { db.store with actorTokenStates } ()

/-- Drop all recorded subscriptions, on disconnect. -/
def clearSubscriptions (db : Database) (now : Int) (actorTokenId : Uuid) : Outcome Unit :=
  match findState db.store actorTokenId with
  | none => .ok ((), db)
  | some state =>
    let entity := { state with
      connectionState := some { topics := some [] }
      lastActivityAt := some now }
    let actorTokenStates := saveRow (·.actorTokenStateId) entity db.store.actorTokenStates
    commit { db.store with actorTokenStates } ()

end Authz
end NolagCore
