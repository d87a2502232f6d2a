import NolagCore.Common.SecretHash
import NolagCore.Common.TtlCache
import NolagCore.Model.Database

/-!
# ActorToken.Service

Authentication of opaque actor tokens. The cache is keyed on the full credential and holds the
row that credential authenticated. The fire-and-forget usage stamp writes a column nothing reads.
-/

namespace NolagCore
namespace ActorTokens

open Lib

def findByKeyId (s : Store) (keyId : String) : Option ActorToken :=
  findOne s.actorTokens fun a => decide (a.keyId = keyId)

/-- `_isUsable`: active and not expired. -/
def isUsable (now : Int) (actorToken : ActorToken) : Bool :=
  decide (actorToken.status = .active) && !expired actorToken.expiresAt now

def authenticateActorToken (crypto : Crypto) (s : Store) (now : Int)
    (authCache : TtlCache ActorToken) (accessToken : String) :
    Option ActorToken × TtlCache ActorToken :=
  match splitCredential accessToken with
  | none => (none, authCache)
  | some (keyId, secret) =>
    match authCache.get now accessToken with
    | (some cached, cache) => (some cached, cache)
    | (none, cache) =>
      let actorToken := findByKeyId s keyId
      -- compared whether or not the row exists
      let isValid := verifySecretHash crypto
        ((actorToken.map (·.secretHash)).getD dummySecretHash) secret
      match actorToken with
      | none => (none, cache)
      | some a =>
        if isValid = false then (none, cache)
        else if isUsable now a then (some a, cache.set now accessToken a)
        else (none, cache)

/-- The client-token path: no secret is checked here. -/
def getActiveActorByKeyId (s : Store) (now : Int) (keyId : String) : Option ActorToken :=
  match findByKeyId s keyId with
  | none => none
  | some a => if isUsable now a then some a else none

end ActorTokens
end NolagCore
