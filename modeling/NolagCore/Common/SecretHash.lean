import NolagCore.Lib.Text

/-!
# Common.SecretHash

Credential hashing and the two-part textual form of a credential. SHA-256 itself is a parameter.
-/

namespace NolagCore

/-- What the credential check takes from `node:crypto`. -/
structure Crypto where
  sha256 : String → List UInt8
  sha256_length : ∀ secret, (sha256 secret).length = 32

def hexDigits : List Char := "0123456789abcdef".toList

/-- `buffer.toString("hex")`. -/
def hexEncode (bytes : List UInt8) : String :=
  String.ofList <| bytes.flatMap fun b =>
    [hexDigits.getD (b.toNat / 16) '0', hexDigits.getD (b.toNat % 16) '0']

/-- The value of a hexadecimal digit, either case. -/
def hexValue (c : Char) : Option Nat :=
  let i := hexDigits.idxOf c.toLower
  if i < 16 then some i else none

/-- `Buffer.from(text, "hex")`: whole byte pairs up to the first invalid or incomplete one. -/
def bufferFromHex : List Char → List UInt8
  | a :: b :: rest =>
    match hexValue a, hexValue b with
    | some x, some y => UInt8.ofNat (16 * x + y) :: bufferFromHex rest
    | _, _ => []
  | _ => []

/-- `DUMMY_SECRET_HASH`. -/
def dummySecretHash : String := String.ofList (List.replicate 64 '0')

def hashSecret (crypto : Crypto) (secret : String) : String := hexEncode (crypto.sha256 secret)

def verifySecretHash (crypto : Crypto) (storedHash providedSecret : String) : Bool :=
  let storedBuf := bufferFromHex storedHash.toList
  let computedBuf := bufferFromHex (hashSecret crypto providedSecret).toList
  if storedBuf.length ≠ computedBuf.length then false else decide (storedBuf = computedBuf)

def base64urlDigits : List Char :=
  "ABCDEFGHIJKLMNOPQRSTUVWXYZabcdefghijklmnopqrstuvwxyz0123456789-_".toList

/-- One base64url digit. -/
def sextet (n : Nat) : Char := base64urlDigits.getD (n % 64) '0'

/-- `buffer.toString("base64url")`, which does not pad. -/
def base64url : List UInt8 → List Char
  | a :: b :: c :: rest =>
    let n := a.toNat * 65536 + b.toNat * 256 + c.toNat
    sextet (n / 262144) :: sextet (n / 4096) :: sextet (n / 64) :: sextet n :: base64url rest
  | [a, b] =>
    let n := a.toNat * 1024 + b.toNat * 4
    [sextet (n / 4096), sextet (n / 64), sextet n]
  | [a] => [sextet (a.toNat / 4), sextet (a.toNat * 16)]
  | [] => []

theorem getD_mem {l : List Char} {d : Char} (hd : d ∈ l) (n : Nat) : l.getD n d ∈ l := by
  rw [List.getD_eq_getElem?_getD]
  cases h : l[n]? with
  | none => exact hd
  | some c => exact List.mem_of_getElem? h

theorem sextet_mem (n : Nat) : sextet n ∈ base64urlDigits := getD_mem (by decide) (n % 64)

/-- A base64url text is made of the 64 digits, none of which is a dot. -/
theorem mem_base64url {c : Char} : ∀ {bytes : List UInt8}, c ∈ base64url bytes →
    c ∈ base64urlDigits
  | [], h => nomatch h
  | [_], h => by
    simp only [base64url, List.mem_cons, List.not_mem_nil, or_false] at h
    rcases h with rfl | rfl <;> exact sextet_mem _
  | [_, _], h => by
    simp only [base64url, List.mem_cons, List.not_mem_nil, or_false] at h
    rcases h with rfl | rfl | rfl <;> exact sextet_mem _
  | _ :: _ :: _ :: rest, h => by
    simp only [base64url, List.mem_cons] at h
    rcases h with rfl | rfl | rfl | rfl | h
    · exact sextet_mem _
    · exact sextet_mem _
    · exact sextet_mem _
    · exact sextet_mem _
    · exact mem_base64url h

theorem dot_notMem_base64url (bytes : List UInt8) : '.' ∉ base64url bytes := fun h =>
  absurd (mem_base64url h) (by decide)

structure GeneratedCredential where
  keyId : String
  secret : String
  credential : String
  secretHash : String

/-- What one minting draws from `randomBytes`: 6 bytes for the key id, 32 for the secret. -/
structure CredentialBytes where
  keyBytes : List UInt8
  secretBytes : List UInt8

/-- `generateCredential`. -/
def generateCredential (crypto : Crypto) (kind : String) (random : CredentialBytes) :
    GeneratedCredential :=
  let keyId := kind ++ "_" ++ hexEncode random.keyBytes
  let secret := String.ofList (base64url random.secretBytes)
  { keyId := keyId
    secret := secret
    credential := keyId ++ "." ++ secret
    secretHash := hashSecret crypto secret }

/-- `splitCredential`: exactly two non-empty parts, or nothing. -/
def splitCredential (credential : String) : Option (String × String) :=
  match Lib.splitOn '.' credential with
  | [keyId, secret] => if keyId ≠ "" ∧ secret ≠ "" then some (keyId, secret) else none
  | _ => none

/-- `isClientTokenJwt`: a shape check that picks the verification path. -/
def isClientTokenJwt (token : String) : Bool :=
  "eyJ".toList.isPrefixOf token.toList && decide ((Lib.splitOn '.' token).length = 3)

/-! ## Sample -/

def sampleBytes : CredentialBytes where
  keyBytes := List.replicate 6 0
  secretBytes := List.replicate 32 0

/-- The digest of the secret `sampleBytes` gives. -/
def sampleCrypto : Crypto where
  sha256 secret :=
    if secret = "AAAAAAAAAAAAAAAAAAAAAAAAAAAAAAAAAAAAAAAAAAA" then
      [15, 0, 115, 133, 182, 249, 212, 183, 238, 178, 116, 134, 5, 175, 225, 169,
        132, 160, 163, 191, 163, 240, 20, 208, 158, 42, 120, 76, 233, 229, 205, 26]
    else List.replicate 32 1
  sha256_length := by
    intro secret
    split <;> rfl

end NolagCore
