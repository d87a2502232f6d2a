import NolagCore.Common.Errors
import NolagCore.SigningKey.Service

/-!
# SigningKey.Facade

Minting, disabling and deleting signing keys. The secret is stored encrypted; the cipher is a
parameter. An update or delete also names the key id whose cache entry the instance drops.
-/

namespace NolagCore
namespace SigningKeyFacade

open Lib

inductive Environment where
  | live | sandbox
deriving DecidableEq

structure SigningKeyCreateDto where
  name : String
  environment : Option Environment := none

/-- The secret cannot be changed. -/
structure SigningKeyPatchDto where
  name : Option String := none
  status : Option ESigningKeyStatus := none

structure CreatedSigningKey where
  entity : SigningKey
  signingKey : String

/-- `encryptSecret`, by the message it throws or the text it returns, for one initialisation
vector. -/
abbrev SecretCipher := (plaintext keyBase64 : String) → (iv : List UInt8) → Except String String

/-- What minting one signing key draws. -/
structure SigningKeyBytes where
  credential : CredentialBytes
  iv : List UInt8

def notFound (signingKeyId : Uuid) : CoreError :=
  .notFound ("Signing key " ++ signingKeyId.text ++ " not found")

/-- `ESigningKeyPrefix`. -/
def keyKind : Option Environment → String
  | some .sandbox => "sk_sandbox"
  | _ => "sk_live"

def encryptForStorage (cipher : SecretCipher) (config : CoreConfig) (iv : List UInt8)
    (secret : String) : Except CoreError String :=
  if truthy config.signingKeyEncryptionKey = false then .error (.internal
    "SIGNING_KEY_ENCRYPTION_KEY is not configured; signing keys are unavailable")
  else match cipher secret (config.signingKeyEncryptionKey.getD "") iv with
    | .error message => .error (.internal message)
    | .ok encoded => .ok encoded

def findByIdAndProject (s : Store) (signingKeyId projectId : Uuid) : Option SigningKey :=
  findOne s.signingKeys fun k =>
    decide (k.signingKeyId = signingKeyId) && decide (k.projectId = projectId)

def createSigningKey (crypto : Crypto) (cipher : SecretCipher) (config : CoreConfig)
    (db : Database) (signingKeyId : Uuid) (random : SigningKeyBytes) (projectId : Uuid)
    (data : SigningKeyCreateDto) : Outcome CreatedSigningKey :=
  let generated := generateCredential crypto (keyKind data.environment) random.credential
  match encryptForStorage cipher config random.iv generated.secret with
  | .error e => .error e
  | .ok secretEncrypted =>
    let entity : SigningKey :=
      { signingKeyId := signingKeyId
        projectId := projectId
        keyId := generated.keyId
        secretEncrypted := secretEncrypted
        name := data.name
        status := .active }
    commit { db.store with signingKeys := db.store.signingKeys ++ [entity] }
      { entity, signingKey := generated.credential }

/-- `patchSigningKey`: the saved row, whose key id is dropped from the cache. -/
def patchSigningKey (db : Database) (signingKeyId projectId : Uuid) (data : SigningKeyPatchDto) :
    Outcome SigningKey :=
  match findByIdAndProject db.store signingKeyId projectId with
  | none => .error (.badRequest "Could not update signing key"
      (some "SigningKeyService:patchSigningKey:not_found"))
  | some existing =>
    let entity := { existing with
      name := patch data.name existing.name
      status := patch data.status existing.status }
    let signingKeys := saveRow (·.signingKeyId) entity db.store.signingKeys
    commit { db.store with signingKeys } entity

def updateSigningKey (db : Database) (signingKeyId projectId : Uuid) (data : SigningKeyPatchDto) :
    Outcome SigningKey :=
  match findByIdAndProject db.store signingKeyId projectId with
  | none => .error (notFound signingKeyId)
  | some _ => patchSigningKey db signingKeyId projectId data

/-- `removeSigningKey`: the row that was read, whose key id is dropped from the cache. -/
def deleteSigningKey (db : Database) (now : Int) (signingKeyId projectId : Uuid) :
    Outcome SigningKey :=
  match findByIdAndProject db.store signingKeyId projectId with
  | none => .error (notFound signingKeyId)
  | some existing =>
    let signingKeys := db.store.signingKeys |> updateRows
      (fun k => decide (k.signingKeyId = signingKeyId) && decide (k.projectId = projectId) &&
        live k)
      (fun k => { k with deletedAt := some now })
    commit { db.store with signingKeys } existing

end SigningKeyFacade
end NolagCore
