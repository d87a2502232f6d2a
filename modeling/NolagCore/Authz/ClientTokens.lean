import NolagCore.ActorToken.History
import NolagCore.Authz.Gates
import NolagCore.SigningKey.History

/-!
# Authz.ClientTokens

Connecting with a client token. A session opens only for a token that a key of the actor's own
project has signed, through every guard of the two services, whatever the kid cache has been
through before.
-/

namespace NolagCore
namespace Authz

open Lib SigningKeys

/-- Everything that stands behind an accepted client token. Instants are milliseconds; `exp` counts
seconds, and is held against the clock in whole seconds. -/
structure Backing (env : Env) (hmacMatches : (token secret : String) → Prop)
    (moments : List (Int × Store)) (s : Store) (now : Int) (token : String) (kid secret : String)
    (key : SigningKey) (exp : Rat) (actorToken : ActorToken) : Prop where
  header : env.lib.decode token = .token (some (.text "HS256")) (some (.text kid))
  keyId : key.keyId = kid
  /-- The key was live and active in the tables of some moment, a minute ago at most. -/
  keyRow : ∃ m ∈ moments, now - 60000 ≤ m.1 ∧ m.1 ≤ now ∧ key ∈ m.2.signingKeys ∧
    live key = true ∧ key.status = .active
  decrypted : ∃ encryptionKey, env.config.signingKeyEncryptionKey = some encryptionKey ∧
    env.lib.decryptSecret key.secretEncrypted encryptionKey = some secret
  signature : hmacMatches token secret
  claims : ∃ payload, env.lib.verify token secret ["HS256"] clockSkewSeconds now = some payload ∧
    payload.exp = some (.number exp) ∧ payload.sub = some (.text actorToken.keyId)
  unexpired : ((now / 1000 : Int) : Rat) - 60 < exp
  capped : exp ≤ ((now / 1000 : Int) : Rat) + 3660
  actorRow : actorToken ∈ s.actorTokens
  actorLive : live actorToken = true
  actorActive : actorToken.status = .active
  actorUnexpired : expired actorToken.expiresAt now = false
  sameProject : actorToken.projectId = key.projectId

/-- The guards of `_validateClientToken` itself: the actor, its project and its session. -/
theorem of_validateClientToken {env : Env} {s : Store} {now : Int} {caches : Caches}
    {token : String} {payload : ActorSessionPayload} {authExpiresAt : Option Rat}
    (h : (validateClientToken env s now caches token).1 = .ok (.valid payload authExpiresAt)) :
    ∃ verified actorToken,
      (verifyClientToken env.lib env.config s now caches.kid token).1 = .ok (some verified) ∧
      ActorTokens.getActiveActorByKeyId s now verified.payload.sub = some actorToken ∧
      actorToken.projectId = verified.signingKey.projectId ∧
      buildSessionPayload env.config s now actorToken = .ok payload ∧
      authExpiresAt = some verified.payload.exp := by
  unfold validateClientToken at h
  dsimp only at h
  split at h
  · cases h
  · cases h
  · rename_i verified hverified
    split at h
    · cases h
    · rename_i actorToken hactor
      split at h
      · cases h
      · rename_i hproject
        split at h
        · cases h
        · rename_i payload' hp
          cases h
          exact ⟨verified, actorToken, hverified, hactor, not_not.1 hproject, hp, rfl⟩

/-- No client token is accepted that was not signed for its project by a key in force. -/
theorem client_token_backed (env : Env) (hmacMatches : (token secret : String) → Prop)
    (hlib : VerifyHonest env.lib hmacMatches) (history : List Moment) (auth : TtlCache ActorToken)
    (s : Store) (now : Int) (hclock : (history.map (·.now) ++ [now]).Pairwise (· ≤ ·))
    (token : String) (hshape : isClientTokenJwt token = true) (payload : ActorSessionPayload)
    (authExpiresAt : Option Rat)
    (h : (validateActor env s now
      { auth := auth, kid := kidCacheAfter env.lib env.config history } token).1 =
      .ok (.valid payload authExpiresAt)) :
    ∃ kid secret key exp actorToken,
      Backing env hmacMatches (moments history ++ [(now, s)]) s now token kid secret key exp
        actorToken ∧
      buildSessionPayload env.config s now actorToken = .ok payload ∧
      authExpiresAt = some exp := by
  unfold validateActor at h
  rw [if_pos hshape] at h
  obtain ⟨verified, actorToken, hverified, hactor, hproject, hp, hexp⟩ := of_validateClientToken h
  obtain ⟨kid, resolved, u, hheader, hu, hvouched, haccept⟩ :=
    (verify_vouched (kidCache_vouched history) token).1 verified hverified
  obtain ⟨m, hm, rfl, hadmits⟩ := hvouched
  obtain ⟨claims, hverify, hclaimExp, hclaimSub, hcap, hkey⟩ := of_acceptClaims haccept
  obtain ⟨hrow, hlive, hid, hactive, hunexpired⟩ := of_getActiveActorByKeyId hactor
  have hpast : m.1 ≤ now := by
    rw [List.pairwise_append] at hclock
    rcases List.mem_append.1 hm with hold | hnew
    · obtain ⟨past, hmem, rfl⟩ := List.mem_map.1 hold
      exact hclock.2.2 _ (List.mem_map_of_mem hmem) _ (by simp)
    · cases List.mem_singleton.1 hnew
      exact Int.le_refl _
  have hfresh := hlib.lifetime _ _ _ _ _ _ hverify hclaimExp
  refine ⟨kid, resolved.secret, resolved.entity, verified.payload.exp, actorToken, ?_, hp, hexp⟩
  refine ⟨hheader, hadmits.keyId, ⟨m, hm, by omega, hpast, hadmits.row, hadmits.isLive,
    hadmits.active⟩, hadmits.secret, hlib.signature _ _ _ _ _ hverify,
    ⟨claims, hverify, hclaimExp, by rw [hid]; exact hclaimSub⟩, ?_, ?_, hrow, hlive, hactive,
    hunexpired, hproject.trans (congrArg _ hkey)⟩
  · rw [sub_lt_iff_lt_add]
    simpa [clockSkewSeconds] using hfresh
  · have hsum : ((now / 1000 + maxTtlSeconds + clockSkewSeconds : Int) : Rat) =
        ((now / 1000 : Int) : Rat) + 3660 := by
      simp only [maxTtlSeconds, clockSkewSeconds]
      push_cast
      ring
    rwa [hsum] at hcap

/-! ## A token accepted from the cache -/

def signedToken : String := "eyJ.eyJ.sig"

/-- A library that knows one token, signed with `secret` and expiring a minute after the epoch. -/
def oneTokenLibrary : TokenLibrary where
  decode token := if token = signedToken then
    .token (some (.text "HS256")) (some (.text "sk_live_000000000000")) else .null
  verify token secret _ tolerance now :=
    if token = signedToken ∧ secret = "secret" ∧ ((now / 1000 : Int) : Rat) < 60 + tolerance then
      some { sub := some (.text "at_live_000000000000"), exp := some (.number 60), iat := none }
    else none
  decryptSecret encoded _ := if encoded = "encrypted" then some "secret" else none

def oneTokenMatches (token secret : String) : Prop := token = signedToken ∧ secret = "secret"

theorem oneTokenLibrary_honest : VerifyHonest oneTokenLibrary oneTokenMatches where
  signature := by
    intro token secret tolerance now payload h
    simp only [oneTokenLibrary] at h
    split at h
    · rename_i hif
      exact ⟨hif.1, hif.2.1⟩
    · cases h
  lifetime := by
    intro token secret tolerance now payload exp h hexp
    simp only [oneTokenLibrary] at h
    split at h
    · rename_i hif
      cases h
      cases hexp
      exact hif.2.2
    · cases h

def clientEnv : Env where
  config := { signingKeyEncryptionKey := some "key" }
  crypto := sampleCrypto
  lib := oneTokenLibrary

def clientActor : ActorToken where
  actorTokenId := .of "t1"
  projectId := .of "p1"
  keyId := "at_live_000000000000"
  secretHash := ""
  name := "alice"
  actorType := .user

def clientKey : SigningKey where
  signingKeyId := .of "k1"
  projectId := .of "p1"
  keyId := "sk_live_000000000000"
  secretEncrypted := "encrypted"
  name := "Key"

/-- The tables before and after the key is disabled. -/
def keyedStore : Store where
  projects := [{ projectId := .of "p1", name := "acme" }]
  actorTokens := [clientActor]
  signingKeys := [clientKey]

def disabledStore : Store :=
  { keyedStore with signingKeys := [{ clientKey with status := .disabled }] }

def clientHistory : List Moment := [⟨0, keyedStore, .verify signedToken⟩]

def clientPayload : ActorSessionPayload where
  actorTokenId := .of "t1"
  organizationId := none
  projectId := .of "p1"
  projectName := "acme"
  actorType := .user
  scopeId := none
  scopeSlug := none
  scopeName := none
  apps := []
  maxConnections := none
  maxMessageSizeBytes := none
  sessionExpirySeconds := 0
  persistentSession := false

/-- The key is disabled in the tables, and vouched for by the read a minute before. -/
theorem client_token_backed_cached : ∃ kid secret key exp actorToken,
    Backing clientEnv oneTokenMatches (moments clientHistory ++ [(60000, disabledStore)])
      disabledStore 60000 signedToken kid secret key exp actorToken ∧
    buildSessionPayload clientEnv.config disabledStore 60000 actorToken = .ok clientPayload ∧
    some 60 = some exp :=
  client_token_backed clientEnv oneTokenMatches oneTokenLibrary_honest clientHistory
    { ttlMs := 60000 } disabledStore 60000 (by decide) signedToken (by decide) clientPayload
    (some 60) (by decide +kernel)

end Authz
end NolagCore
