import Mathlib.Data.Rat.Floor
import NolagCore.Authz.Dto
import NolagCore.Common.SecretHash
import NolagCore.Common.TtlCache
import NolagCore.Model.Database

/-!
# SigningKey.Service

Verification of client tokens: HS256 JWTs signed with a project's signing key. The JWT library and
the secret cipher are parameters; the order of the checks, the kid cache and every refusal are the
service's own.
-/

namespace NolagCore
namespace SigningKeys

open Lib

/-- A header or payload field of a JWT, by its JSON type. -/
inductive Claim where
  | text (s : String)
  | number (q : Rat)
  /-- Any other value, with what `String(value)` makes of it: nothing where it throws, as on an
  object that has a field `toString`. -/
  | other (coerced : Option String)
deriving DecidableEq

/-- `RegExp.test` coerces its operand to a string. -/
def Claim.coerced : Claim → Option String
  | .text s => some s
  | .number q => some (toString q)
  | .other coerced => coerced

/-- `jwt.decode(token, { complete: true })`. -/
inductive Decoded where
  | null
  | throws
  | token (alg kid : Option Claim)

structure JwtPayload where
  sub : Option Claim
  exp : Option Claim
  iat : Option Claim

/-- What verification takes from outside: `jsonwebtoken`, and the secret cipher under the
configured key. `verify` is `none` where the library throws. -/
structure TokenLibrary where
  decode : String → Decoded
  verify : (token secret : String) → (algorithms : List String) → (clockTolerance : Int) →
    (now : Int) → Option JwtPayload
  decryptSecret : (encoded keyBase64 : String) → Option String

/-- `ClientTokenPayload`. -/
structure ClientTokenPayload where
  sub : String
  exp : Rat
  iat : Option Claim
deriving DecidableEq

structure VerifiedClientToken where
  signingKey : SigningKey
  payload : ClientTokenPayload
deriving DecidableEq

/-- A kid cache entry: the row and its decrypted secret. -/
structure ResolvedSigningKey where
  entity : SigningKey
  secret : String
deriving DecidableEq

/-- Thrown out of `verifyClientToken`: by `jwt.decode` on a payload that is not JSON, or by the
coercion of a kid. -/
inductive Thrown where
  | syntaxError
  | typeError
deriving DecidableEq

def maxTtlSeconds : Int := 3600
def clockSkewSeconds : Int := 60

/-- `^{kind}_(live|sandbox)_[0-9a-f]{12}$`. -/
def keyIdPattern (kind text : String) : Bool :=
  ["_live_", "_sandbox_"].any fun env =>
    let head := (kind ++ env).toList
    head.isPrefixOf text.toList && decide ((text.toList.drop head.length).length = 12) &&
      (text.toList.drop head.length).all (hexDigits.contains ·)

def kidPattern (text : String) : Bool := keyIdPattern "sk" text
def subPattern (text : String) : Bool := keyIdPattern "at" text

def findByKeyId (s : Store) (keyId : String) : Option SigningKey :=
  findOne s.signingKeys fun k => decide (k.keyId = keyId)

/-- The part of `_resolveSigningKey` after a cache miss, given the row that was read. -/
def admitSigningKey (lib : TokenLibrary) (config : CoreConfig) (row : Option SigningKey) :
    Option ResolvedSigningKey :=
  match row with
  | none => none
  | some entity =>
    if entity.status = .active then
      -- a missing encryption key throws inside the `try` and refuses like a failed decryption
      match config.signingKeyEncryptionKey with
      | none => none
      | some key => if key = "" then none else
        (lib.decryptSecret entity.secretEncrypted key).map fun secret =>
          { entity := entity, secret := secret }
    else none

/-- `_resolveSigningKey`. -/
def resolveSigningKey (lib : TokenLibrary) (config : CoreConfig) (s : Store) (now : Int)
    (kidCache : TtlCache ResolvedSigningKey) (kid : String) :
    Option ResolvedSigningKey × TtlCache ResolvedSigningKey :=
  match kidCache.get now kid with
  | (some cached, cache) => (some cached, cache)
  | (none, cache) =>
    match admitSigningKey lib config (findByKeyId s kid) with
    | none => (none, cache)
    | some resolved => (some resolved, cache.set now kid resolved)

/-- Steps 1 to 4: the kid of a token whose shape, algorithm and kid are acceptable. -/
def clientTokenKid (lib : TokenLibrary) (token : String) :
    Except Thrown (Option Claim) :=
  if (splitOn '.' token).length ≠ 3 ∨ "eyJ".toList.isPrefixOf token.toList = false then .ok none
  else match lib.decode token with
    | .null => .ok none
    | .throws => .error .syntaxError
    | .token alg kid =>
      if alg ≠ some (.text "HS256") then .ok none
      else match kid with
        | none => .ok none
        | some kid => match kid.coerced with
          | none => .error .typeError
          | some text => if kidPattern text then .ok (some kid) else .ok none

/-- Steps 6 to 9: signature, lifetime and subject under a resolved key. -/
def acceptClaims (lib : TokenLibrary) (now : Int) (token : String)
    (resolved : ResolvedSigningKey) : Option VerifiedClientToken :=
  match lib.verify token resolved.secret ["HS256"] clockSkewSeconds now with
  | none => none
  | some payload =>
    match payload.exp with
    | some (.number exp) =>
      let nowSeconds : Int := now / 1000
      if exp > (nowSeconds + maxTtlSeconds + clockSkewSeconds : Int) then none
      else match payload.sub with
        | some (.text sub) =>
          if subPattern sub then
            some { signingKey := resolved.entity, payload := { sub, exp, iat := payload.iat } }
          else none
        | _ => none
    | _ => none

def verifyClientToken (lib : TokenLibrary) (config : CoreConfig) (s : Store) (now : Int)
    (kidCache : TtlCache ResolvedSigningKey) (token : String) :
    Except Thrown (Option VerifiedClientToken) × TtlCache ResolvedSigningKey :=
  match clientTokenKid lib token with
  | .error e => (.error e, kidCache)
  | .ok none => (.ok none, kidCache)
  | .ok (some (.text kid)) =>
    let (resolved, cache) := resolveSigningKey lib config s now kidCache kid
    (.ok (resolved.bind (acceptClaims lib now token)), cache)
  -- a kid that is no string is a cache key of its own and equals no stored key id
  | .ok (some _) => (.ok none, kidCache)

end SigningKeys
end NolagCore
