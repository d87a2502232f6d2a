import NolagCore.Common.SecretHash
import NolagCore.Lib.Base64

/-!
# Common.SecretCipher

Secrets that must be recoverable, encrypted for storage: `v1:{iv}.{authTag}.{ciphertext}`, each part
base64url. AES-256-GCM and the decoding of `Buffer.from` are parameters; the length of the key, the
version and the three parts are checked here.
-/

namespace NolagCore

open Lib

/-- What the secret cipher takes from `node:crypto` and `Buffer`. `decipher` throws on a tag that
does not match. -/
structure CipherLibrary where
  fromBase64 : String → List UInt8
  fromBase64url : String → List UInt8
  encipher : (key iv : List UInt8) → (plaintext : String) → List UInt8 × List UInt8
  decipher : (key iv authTag ciphertext : List UInt8) → Except String String

namespace CipherLibrary

def ivLength : Nat := 12
def keyLength : Nat := 32

variable (lib : CipherLibrary)

/-- A 256-bit key, in base64. -/
def IsKey (keyBase64 : String) : Prop := (lib.fromBase64 keyBase64).length = keyLength

instance (keyBase64 : String) : Decidable (lib.IsKey keyBase64) :=
  inferInstanceAs (Decidable (_ = _))

def parseKey (keyBase64 : String) : Except String (List UInt8) :=
  let key := lib.fromBase64 keyBase64
  if key.length ≠ keyLength then .error ("secretCipher: encryption key must be " ++
    toString keyLength ++ " bytes base64-encoded, got " ++ toString key.length ++ " bytes")
  else .ok key

def base64urlText (bytes : List UInt8) : String := String.ofList (base64url bytes)

/-- The text that carries an initialisation vector, a tag and a ciphertext. -/
def envelope (iv authTag ciphertext : List UInt8) : String :=
  "v1:" ++ (base64urlText iv ++ "." ++ (base64urlText authTag ++ "." ++ base64urlText ciphertext))

/-- What `decryptSecret` takes apart: the text after the version, at its dots. -/
def envelopeParts (encoded : String) : List String :=
  splitOn '.' (String.ofList (encoded.toList.drop 3))

/-- `encryptSecret` under the initialisation vector that was drawn. -/
def encryptSecret (plaintext keyBase64 : String) (iv : List UInt8) : Except String String :=
  match lib.parseKey keyBase64 with
  | .error message => .error message
  | .ok key =>
    let (ciphertext, authTag) := lib.encipher key iv plaintext
    .ok ("v1:" ++ (base64urlText iv ++ "." ++ (base64urlText authTag ++ "." ++
      base64urlText ciphertext)))

def decryptSecret (encoded keyBase64 : String) : Except String String :=
  if "v1:".toList.isPrefixOf encoded.toList = false then
    .error "secretCipher: unknown ciphertext version"
  else match splitOn '.' (String.ofList (encoded.toList.drop 3)) with
    | [iv, authTag, ciphertext] =>
      match lib.parseKey keyBase64 with
      | .error message => .error message
      | .ok key => lib.decipher key (lib.fromBase64url iv) (lib.fromBase64url authTag)
          (lib.fromBase64url ciphertext)
    | _ => .error "secretCipher: malformed ciphertext"

/-- AES-GCM decryption inverts the encryption of a minted secret, and base64url decoding its
encoding. -/
structure Inverts : Prop where
  base64url : ∀ bytes, lib.fromBase64url (base64urlText bytes) = bytes
  decipher : ∀ key iv secretBytes, key.length = keyLength → iv.length = ivLength →
    lib.decipher key iv (lib.encipher key iv (base64urlText secretBytes)).2
      (lib.encipher key iv (base64urlText secretBytes)).1 = .ok (base64urlText secretBytes)

variable {lib}

theorem parseKey_ok {keyBase64 : String} {key : List UInt8} :
    lib.parseKey keyBase64 = .ok key ↔ lib.IsKey keyBase64 ∧ key = lib.fromBase64 keyBase64 := by
  unfold parseKey IsKey
  dsimp only
  split
  · rename_i hne
    simp [hne]
  · rename_i heq
    have hlen : (lib.fromBase64 keyBase64).length = keyLength := Decidable.not_not.1 heq
    simp [hlen, eq_comm]

theorem dot_notMem_base64urlText (bytes : List UInt8) : '.' ∉ (base64urlText bytes).toList := by
  rw [base64urlText, String.toList_ofList]
  exact dot_notMem_base64url bytes

/-- Encryption asks for nothing but a key of the right length. -/
theorem encryptSecret_isOk {plaintext keyBase64 : String} {iv : List UInt8} :
    (∃ encoded, lib.encryptSecret plaintext keyBase64 iv = .ok encoded) ↔ lib.IsKey keyBase64 := by
  unfold encryptSecret
  constructor
  · rintro ⟨encoded, h⟩
    split at h
    · cases h
    · rename_i key hkey
      exact (parseKey_ok.1 hkey).1
  · intro h
    rw [parseKey_ok.2 ⟨h, rfl⟩]
    exact ⟨_, rfl⟩

theorem encryptSecret_eq {plaintext keyBase64 : String} {iv key : List UInt8}
    (hkey : lib.parseKey keyBase64 = .ok key) :
    lib.encryptSecret plaintext keyBase64 iv =
      .ok (envelope iv (lib.encipher key iv plaintext).2 (lib.encipher key iv plaintext).1) := by
  unfold encryptSecret
  rw [hkey]
  rfl

/-- An envelope has three parts, whatever the bytes in it: base64url has no dot. -/
theorem envelopeParts_envelope (iv authTag ciphertext : List UInt8) :
    envelopeParts (envelope iv authTag ciphertext) =
      [base64urlText iv, base64urlText authTag, base64urlText ciphertext] := by
  have hdrop : ∀ body : String, String.ofList (("v1:" ++ body).toList.drop 3) = body := by
    intro body
    rw [String.toList_append]
    exact String.ofList_toList
  unfold envelopeParts envelope
  rw [hdrop, splitOn_append rfl (dot_notMem_base64urlText iv),
    splitOn_append rfl (dot_notMem_base64urlText authTag),
    splitOn_of_notMem (dot_notMem_base64urlText ciphertext)]

/-- Decryption of an envelope deciphers what its parts decode to. -/
theorem decryptSecret_envelope {keyBase64 : String} {key : List UInt8}
    (hkey : lib.parseKey keyBase64 = .ok key) (iv authTag ciphertext : List UInt8) :
    lib.decryptSecret (envelope iv authTag ciphertext) keyBase64 =
      lib.decipher key (lib.fromBase64url (base64urlText iv))
        (lib.fromBase64url (base64urlText authTag))
        (lib.fromBase64url (base64urlText ciphertext)) := by
  have hparts := envelopeParts_envelope iv authTag ciphertext
  unfold envelopeParts at hparts
  unfold decryptSecret
  rw [if_neg (by unfold envelope; rw [String.toList_append]; simp), hparts]
  dsimp only
  rw [hkey]

theorem decryptSecret_encryptSecret (hlib : lib.Inverts) {keyBase64 encoded : String}
    {secretBytes iv : List UInt8} (hiv : iv.length = ivLength)
    (h : lib.encryptSecret (base64urlText secretBytes) keyBase64 iv = .ok encoded) :
    lib.decryptSecret encoded keyBase64 = .ok (base64urlText secretBytes) := by
  have hkey := encryptSecret_isOk.1 ⟨encoded, h⟩
  have hparse : lib.parseKey keyBase64 = .ok (lib.fromBase64 keyBase64) :=
    parseKey_ok.2 ⟨hkey, rfl⟩
  rw [encryptSecret_eq hparse] at h
  cases h
  rw [decryptSecret_envelope hparse, hlib.base64url, hlib.base64url, hlib.base64url]
  exact hlib.decipher _ iv secretBytes hkey hiv

end CipherLibrary

/-! ## Sample -/

def digitValue (c : Char) : Nat := base64urlDigits.idxOf c

/-- What `base64url` prints, read back. -/
def unbase64url : List Char → List UInt8
  | a :: b :: c :: d :: rest =>
    let n := digitValue a * 262144 + digitValue b * 4096 + digitValue c * 64 + digitValue d
    UInt8.ofNat (n / 65536) :: UInt8.ofNat (n / 256) :: UInt8.ofNat n :: unbase64url rest
  | [a, b, c] =>
    let n := digitValue a * 4096 + digitValue b * 64 + digitValue c
    [UInt8.ofNat (n / 1024), UInt8.ofNat (n / 4)]
  | [a, b] => [UInt8.ofNat ((digitValue a * 64 + digitValue b) / 16)]
  | _ => []

theorem digitValue_sextet (n : Nat) : digitValue (sextet n) = n % 64 := by
  have hall : ∀ k : Fin 64, base64urlDigits.idxOf (base64urlDigits.getD k '0') = k := by
    decide +kernel
  exact hall ⟨n % 64, Nat.mod_lt n (by omega)⟩

/-- `base64url` is the encoding over its alphabet, without padding. -/
theorem base64url_eq_encode (bytes : List UInt8) : base64url bytes = Base64.encode sextet bytes := by
  unfold Base64.encode
  fun_induction base64url bytes with
  | case1 a b c rest n ih =>
    rw [ih]
    simp [Base64.sextets, sextet, n]
  | case2 a b n => simp [Base64.sextets, sextet, n]
  | case3 a => simp [Base64.sextets, sextet]
  | case4 => rfl

theorem unbase64url_eq_octets (text : List Char) :
    unbase64url text = Base64.octets (text.map digitValue) := by
  fun_induction unbase64url text with
  | case1 a b c d rest n ih =>
    rw [ih]
    rfl
  | case2 a b c n => rfl
  | case3 a b => rfl
  | case4 text h4 h3 h2 =>
    match text with
    | [] => rfl
    | [_] => rfl
    | [a, b] => exact absurd rfl (h2 a b)
    | [a, b, c] => exact absurd rfl (h3 a b c)
    | a :: b :: c :: d :: rest => exact absurd rfl (h4 a b c d rest)

theorem unbase64url_base64url (bytes : List UInt8) : unbase64url (base64url bytes) = bytes := by
  have hdigits : ∀ n ∈ Base64.sextets bytes, (digitValue ∘ sextet) n = n := by
    intro n hn
    rw [Function.comp_apply, digitValue_sextet, Nat.mod_eq_of_lt (Base64.sextet_lt hn)]
  rw [unbase64url_eq_octets, base64url_eq_encode, Base64.encode, List.map_map,
    List.map_congr_left hdigits, List.map_id', Base64.octets_sextets]

/-- The base64 text of 32 zero bytes. -/
def sampleKey : String := "AAAAAAAAAAAAAAAAAAAAAAAAAAAAAAAAAAAAAAAAAAA="

/-- What AES-256-GCM makes of `sampleBytes` under a key and a vector of zeros. -/
def sampleSealed : List UInt8 × List UInt8 :=
  ([143, 230, 1, 124, 12, 33, 42, 47, 70, 15, 132, 146, 251, 178, 220, 89, 51, 33, 66, 139, 118,
      231, 107, 53, 144, 227, 180, 207, 52, 71, 116, 207, 156, 11, 240, 105, 12, 11, 160, 58, 0,
      169, 24],
    [173, 12, 188, 229, 121, 195, 243, 159, 148, 114, 246, 244, 224, 41, 222, 140])

/-- The library at `sampleKey` and `sampleBytes`; any other plaintext is kept as it is. -/
def sampleCipherLibrary : CipherLibrary where
  fromBase64 text := if text = sampleKey then List.replicate 32 0 else []
  fromBase64url text := unbase64url text.toList
  encipher key iv plaintext :=
    if key = List.replicate 32 0 ∧ iv = List.replicate 12 0 ∧
        plaintext = CipherLibrary.base64urlText sampleBytes.secretBytes then sampleSealed
    else (unbase64url plaintext.toList, [])
  decipher key iv authTag ciphertext :=
    if key = List.replicate 32 0 ∧ iv = List.replicate 12 0 ∧ (ciphertext, authTag) = sampleSealed
    then .ok (CipherLibrary.base64urlText sampleBytes.secretBytes)
    else .ok (CipherLibrary.base64urlText ciphertext)

theorem sampleCipherLibrary_inverts : sampleCipherLibrary.Inverts where
  base64url bytes := by
    simp only [sampleCipherLibrary, CipherLibrary.base64urlText, String.toList_ofList]
    exact unbase64url_base64url bytes
  decipher key iv secretBytes _ _ := by
    simp only [sampleCipherLibrary]
    by_cases hsample : key = List.replicate 32 0 ∧ iv = List.replicate 12 0 ∧
        CipherLibrary.base64urlText secretBytes =
          CipherLibrary.base64urlText sampleBytes.secretBytes
    · rw [if_pos hsample, if_pos ⟨hsample.1, hsample.2.1, rfl⟩, hsample.2.2]
    · rw [if_neg hsample]
      have htag : ([] : List UInt8) ≠ sampleSealed.2 := by decide
      rw [if_neg fun h => htag (congrArg Prod.snd h.2.2)]
      simp only [CipherLibrary.base64urlText, String.toList_ofList, unbase64url_base64url]

end NolagCore
