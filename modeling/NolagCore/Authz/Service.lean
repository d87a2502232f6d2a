import NolagCore.ActorToken.Service
import NolagCore.Authz.Resolution
import NolagCore.SigningKey.Service

/-!
# Authz.Service

The three questions a broker asks: `validateActor` on connect, `revalidateActor` for a live
session, `checkRoomAccess` on a subscribe it has not cached.
-/

namespace NolagCore
namespace Authz

open Lib

/-- `_resolveLimits`. A stored zero is never authoritative. -/
structure ResolvedLimits where
  maxConnections : Option Int
  maxMessageSizeBytes : Option Int
  sessionExpirySeconds : Int
deriving DecidableEq

def resolveLimits (config : CoreConfig) (project : Project) : ResolvedLimits :=
  if project.limitsSyncedAt.isNone then
    { maxConnections := config.defaultMaxConnections
      maxMessageSizeBytes := config.defaultMaxMessageSizeBytes
      sessionExpirySeconds := config.defaultSessionExpirySeconds }
  else
    { maxConnections := if project.maxConnections = some 0 then config.defaultMaxConnections
        else project.maxConnections
      maxMessageSizeBytes := if project.maxMessageSizeBytes = some 0 then
          config.defaultMaxMessageSizeBytes
        else project.maxMessageSizeBytes
      sessionExpirySeconds := match project.sessionExpirySeconds with
        | some n => if n > 0 then n else config.defaultSessionExpirySeconds
        | none => config.defaultSessionExpirySeconds }

/-- `_buildSessionPayload`, the shared body of validate and revalidate. -/
def buildSessionPayload (config : CoreConfig) (s : Store) (now : Int) (actorToken : ActorToken) :
    Except AuthzDenyReason ActorSessionPayload :=
  match findOne s.projects fun p => decide (p.projectId = actorToken.projectId) with
  | none => .error .projectNotFound
  | some project =>
    match resolveScope s actorToken with
    | none => .error .scopeInactive
    | some scope =>
      let limits := resolveLimits config project
      let persistentSession := decide (actorToken.actorType ∈ persistentSessionActorTypes)
      .ok
        { actorTokenId := actorToken.actorTokenId
          organizationId := project.organizationId
          projectId := actorToken.projectId
          projectName := project.name
          actorType := actorToken.actorType
          scopeId := scope.scopeId
          scopeSlug := scope.scopeSlug
          scopeName := scope.scopeName
          apps := buildAppAccess s now actorToken
            { scopeId := scope.scopeId, scopeSlug := scope.scopeSlug }
          maxConnections := limits.maxConnections
          maxMessageSizeBytes := limits.maxMessageSizeBytes
          sessionExpirySeconds := if persistentSession then limits.sessionExpirySeconds else 0
          persistentSession := persistentSession }

/-- The lookup `revalidateActor` and `checkRoomAccess` start from. -/
def findActor (s : Store) (actorTokenId : Uuid) : Option ActorToken :=
  findOne s.actorTokens fun a => decide (a.actorTokenId = actorTokenId)

def disconnectReasonOf : AuthzDenyReason → DisconnectReason
  | .projectNotFound => .projectNotFound
  | .scopeInactive => .scopeInactive
  | .tokenExpired => .tokenExpired
  | .tokenSuspended => .tokenRevoked
  | .tokenInvalid | .tokenNotFound => .tokenNotFound

def revalidateActor (config : CoreConfig) (s : Store) (now : Int) (actorTokenId : Uuid) :
    RevalidateActorResponse :=
  match findActor s actorTokenId with
  | none => .invalid .tokenNotFound .tokenNotFound
  | some actorToken =>
    if actorToken.status ≠ .active then .invalid .tokenSuspended .tokenRevoked
    else if expired actorToken.expiresAt now then .invalid .tokenExpired .tokenExpired
    else match buildSessionPayload config s now actorToken with
      | .error reason => .invalid reason (disconnectReasonOf reason)
      | .ok payload => .valid payload

/-! ## checkRoomAccess -/

def deny : CheckRoomAccessResult := { allow := false, allowedTopics := [] }

/-- The app and room slugs a pattern names. A scoped pattern must carry the actor's own scope; a
three-segment one is taken as it is, also from a scoped actor. -/
def parsePattern (scope : ResolvedScope) (pattern : String) : Option (String × String) :=
  match splitOn '/' pattern with
  | [appSlug, scopeSlug, roomSlug, _] =>
    if truthy scope.scopeSlug = false ∨ some scopeSlug ≠ scope.scopeSlug then none
    else some (appSlug, roomSlug)
  | [appSlug, roomSlug, _] => some (appSlug, roomSlug)
  | _ => none

/-- App-level access on the live path: an open app needs no grant and reads none. -/
def liveAppAccess (s : Store) (now : Int) (actorTokenId : Uuid) (app : PlatformApp) :
    Option Access :=
  if app.accessMode = .open then some { app := app, permission := .pubSub, topics := none }
  else match findOne s.actorAppAccess fun g => decide (g.actorTokenId = actorTokenId) &&
      decide (g.appId = app.appId) && g.isActive with
    | none => none
    | some g => if expired g.expiresAt now then none
        else some { app := app, permission := g.permission, topics := g.topics }

/-- The grants of one room and the actor's effective one: a named grant wins over a type grant.
The named one is looked for by the text of the argument, not by the id of the row found. -/
def liveRoomGrants (s : Store) (actorTokenId : String) (actorToken : ActorToken) (room : Room) :
    RoomGrants :=
  let roomAccessEntries := findAll s.roomActorAccess fun ra => decide (ra.roomId = room.roomId)
  { entries := roomAccessEntries
    effective := (roomAccessEntries.find? (namesActor actorTokenId)).or
      (roomAccessEntries.find? (namesType actorToken)) }

/-- `checkRoomAccess` once the actor, its scope and the two slugs are known. The queries compare the
argument as a uuid, which is that of the row found. -/
def checkRoom (s : Store) (now : Int) (actorTokenId : String) (actorToken : ActorToken)
    (scope : ResolvedScope) (appSlug roomSlug : String) : CheckRoomAccessResult :=
  match findOne s.apps fun a => decide (a.slug = appSlug) &&
      decide (a.projectId = actorToken.projectId) && decide (a.status = .active) with
  | none => deny
  | some app =>
    match liveAppAccess s now actorToken.actorTokenId app with
    | none => deny
    | some access =>
      match findOne s.rooms fun r => decide (r.slug = roomSlug) && decide (r.appId = app.appId) &&
          decide (r.status = .active) with
      | none => deny
      | some room =>
        match roomAccess now access (liveRoomGrants s actorTokenId actorToken room) with
        | none => deny
        | some (permission, topics) =>
          if (topics.getD []).isEmpty then deny
          else { allow := true
                 appId := some app.appId
                 allowedTopics := (topics.getD []).map fun topicName =>
                   buildAllowedTopic app.slug room topicName permission scope }

def checkRoomAccess (s : Store) (now : Int) (actorTokenId : IdText) (pattern : String) :
    CheckRoomAccessResult :=
  match findActor s actorTokenId.uuid with
  | none => deny
  | some actorToken =>
    if actorToken.status ≠ .active then deny
    else if expired actorToken.expiresAt now then deny
    else match resolveScope s actorToken with
      | none => deny
      | some scope =>
        match parsePattern scope pattern with
        | none => deny
        | some (appSlug, roomSlug) =>
          checkRoom s now actorTokenId.text actorToken scope appSlug roomSlug

/-! ## validateActor -/

/-- What one service instance keeps between calls. -/
structure Caches where
  auth : TtlCache ActorToken := { ttlMs := 60000 }
  kid : TtlCache SigningKeys.ResolvedSigningKey := { ttlMs := 60000 }

/-- What the service is configured with and takes from libraries. -/
structure Env where
  config : CoreConfig
  crypto : Crypto
  lib : SigningKeys.TokenLibrary

/-- `_validateClientToken`. -/
def validateClientToken (env : Env) (s : Store) (now : Int) (caches : Caches) (token : String) :
    Except SigningKeys.Thrown ValidateActorResponse × Caches :=
  let (result, kid) :=
    SigningKeys.verifyClientToken env.lib env.config s now caches.kid token
  let caches' := { caches with kid }
  match result with
  | .error e => (.error e, caches')
  | .ok none => (.ok (.invalid .tokenInvalid), caches')
  | .ok (some verified) =>
    match ActorTokens.getActiveActorByKeyId s now verified.payload.sub with
    | none => (.ok (.invalid .tokenInvalid), caches')
    | some actorToken =>
      -- a signing key may only vouch for actors of its own project
      if actorToken.projectId ≠ verified.signingKey.projectId then
        (.ok (.invalid .tokenInvalid), caches')
      else match buildSessionPayload env.config s now actorToken with
        | .error reason => (.ok (.invalid reason), caches')
        | .ok payload => (.ok (.valid payload (some verified.payload.exp)), caches')

/-- The body of `validateActor` after an opaque token has authenticated. -/
def validateAuthenticated (config : CoreConfig) (s : Store) (now : Int)
    (actorToken : Option ActorToken) : ValidateActorResponse :=
  match actorToken with
  | none => .invalid .tokenInvalid
  | some actorToken =>
    if actorToken.status ≠ .active then .invalid .tokenSuspended
    else if expired actorToken.expiresAt now then .invalid .tokenExpired
    else match buildSessionPayload config s now actorToken with
      | .error reason => .invalid reason
      | .ok payload => .valid payload none

def validateActor (env : Env) (s : Store) (now : Int) (caches : Caches) (accessToken : String) :
    Except SigningKeys.Thrown ValidateActorResponse × Caches :=
  if isClientTokenJwt accessToken then validateClientToken env s now caches accessToken
  else
    let (actorToken, auth) :=
      ActorTokens.authenticateActorToken env.crypto s now caches.auth accessToken
    (.ok (validateAuthenticated env.config s now actorToken), { caches with auth })

end Authz
end NolagCore
