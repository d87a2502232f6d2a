import NolagCore.Common.SecretCipher
import NolagCore.Lib.Utf8

/-!
# Common.SecretEnvelope

The secret cipher on bytes. What Node does with text is defined here, UTF-8 for the plaintext and
base64 for the key and the parts of the envelope; AES-256-GCM alone is a parameter. `AesGcm.library`
is the library that `encryptSecret` and `decryptSecret` run on.
-/

namespace NolagCore

open Lib

/-! ## Base64 as Node reads and writes it -/

def base64Digits : List Char :=
  "ABCDEFGHIJKLMNOPQRSTUVWXYZabcdefghijklmnopqrstuvwxyz0123456789+/".toList

/-- The value of a digit of either alphabet. -/
def base64Value (c : Char) : Option Nat :=
  if c ∈ base64Digits then some (base64Digits.idxOf c)
  else if c ∈ base64urlDigits then some (base64urlDigits.idxOf c)
  else none

/-- `Buffer.from(text, "base64")`, which is also `Buffer.from(text, "base64url")`. -/
def bufferFromBase64 (text : String) : List UInt8 := Base64.decode base64Value '=' text.toList

/-- `buffer.toString("base64")`. -/
def base64Text (bytes : List UInt8) : String :=
  String.ofList (Base64.encode (fun n => base64Digits.getD n '=') bytes ++
    List.replicate ((3 - bytes.length % 3) % 3) '=')

theorem base64Value_digit : ∀ n < 64, base64Value (base64Digits.getD n '=') = some n := by
  decide +kernel

theorem base64Value_sextet : ∀ n < 64, base64Value (sextet n) = some n := by decide +kernel

theorem digit_ne_pad : ∀ n < 64, base64Digits.getD n '=' ≠ '=' := by decide +kernel

theorem sextet_ne_pad : ∀ n < 64, sextet n ≠ '=' := by decide +kernel

theorem bufferFromBase64_base64Text (bytes : List UInt8) :
    bufferFromBase64 (base64Text bytes) = bytes := by
  unfold bufferFromBase64 base64Text
  rw [String.toList_ofList]
  exact Base64.decode_encode base64Value_digit digit_ne_pad bytes _

/-- Each part of an envelope decodes to the bytes it was made from. -/
theorem bufferFromBase64_base64urlText (bytes : List UInt8) :
    bufferFromBase64 (CipherLibrary.base64urlText bytes) = bytes := by
  have hdecode := Base64.decode_encode base64Value_sextet sextet_ne_pad bytes 0
  unfold bufferFromBase64 CipherLibrary.base64urlText
  rw [String.toList_ofList, base64url_eq_encode]
  simpa using hdecode

theorem base64urlText_injective {a b : List UInt8}
    (h : CipherLibrary.base64urlText a = CipherLibrary.base64urlText b) : a = b := by
  rw [← bufferFromBase64_base64urlText a, h, bufferFromBase64_base64urlText]

/-! ## The cipher on bytes -/

/-- `createCipheriv` and `createDecipheriv` of `aes-256-gcm`: the ciphertext and its tag, and the
plaintext of both, or what is thrown. -/
structure AesGcm where
  encipher : (key iv plaintext : List UInt8) → List UInt8 × List UInt8
  decipher : (key iv authTag ciphertext : List UInt8) → Except String (List UInt8)

namespace AesGcm

/-- Under the same key, vector and tag, decryption inverts encryption. -/
def Inverts (aes : AesGcm) : Prop :=
  ∀ key iv plaintext, key.length = CipherLibrary.keyLength → iv.length = CipherLibrary.ivLength →
    aes.decipher key iv (aes.encipher key iv plaintext).2 (aes.encipher key iv plaintext).1 =
      .ok plaintext

/-- The library of the secret cipher: text goes in and comes out as UTF-8. -/
def library (aes : AesGcm) : CipherLibrary where
  fromBase64 := bufferFromBase64
  fromBase64url := bufferFromBase64
  encipher key iv plaintext := aes.encipher key iv (Utf8.encode plaintext)
  decipher key iv authTag ciphertext :=
    (aes.decipher key iv authTag ciphertext).map Utf8.decode

variable {aes : AesGcm}

theorem decipher_encipher (h : aes.Inverts) {key iv : List UInt8}
    (hkey : key.length = CipherLibrary.keyLength) (hiv : iv.length = CipherLibrary.ivLength)
    (plaintext : String) :
    aes.library.decipher key iv (aes.library.encipher key iv plaintext).2
      (aes.library.encipher key iv plaintext).1 = .ok plaintext := by
  have hbytes := h key iv (Utf8.encode plaintext) hkey hiv
  simp only [library]
  rw [hbytes, Except.map, Utf8.decode_encode]

/-- What the minting of signing keys takes from the library. -/
theorem library_inverts (h : aes.Inverts) : aes.library.Inverts where
  base64url := bufferFromBase64_base64urlText
  decipher _ _ _ hkey hiv := decipher_encipher h hkey hiv _

end AesGcm

/-! ## Round trips -/

open CipherLibrary in
/-- What is asked of the envelope of signing secrets. -/
structure EnvelopeRoundTrips (aes : AesGcm) : Prop where
  /-- Decryption gives back the text that was encrypted. -/
  roundTrip : ∀ plaintext keyBase64 iv, aes.library.IsKey keyBase64 → iv.length = ivLength →
    ∃ encoded, aes.library.encryptSecret plaintext keyBase64 iv = .ok encoded ∧
      aes.library.decryptSecret encoded keyBase64 = .ok plaintext
  /-- The base64 text of 32 bytes is a key. -/
  keyText : ∀ key, key.length = keyLength → aes.library.parseKey (base64Text key) = .ok key
  /-- Every secret encrypted is an envelope. -/
  isEnvelope : ∀ plaintext keyBase64 iv encoded,
    aes.library.encryptSecret plaintext keyBase64 iv = .ok encoded →
      ∃ authTag ciphertext, encoded = envelope iv authTag ciphertext
  /-- An envelope has exactly three parts, whatever the bytes. -/
  splits : ∀ iv authTag ciphertext, envelopeParts (envelope iv authTag ciphertext) =
    [base64urlText iv, base64urlText authTag, base64urlText ciphertext]
  /-- Each part decodes to the bytes encoded. -/
  decodes : ∀ bytes, aes.library.fromBase64url (base64urlText bytes) = bytes
  /-- Different triples have different envelopes. -/
  injective : ∀ iv authTag ciphertext iv' authTag' ciphertext',
    envelope iv authTag ciphertext = envelope iv' authTag' ciphertext' →
      iv = iv' ∧ authTag = authTag' ∧ ciphertext = ciphertext'

open CipherLibrary in
theorem envelope_injective {iv authTag ciphertext iv' authTag' ciphertext' : List UInt8}
    (h : envelope iv authTag ciphertext = envelope iv' authTag' ciphertext') :
    iv = iv' ∧ authTag = authTag' ∧ ciphertext = ciphertext' := by
  have hparts := congrArg envelopeParts h
  rw [envelopeParts_envelope, envelopeParts_envelope] at hparts
  simp only [List.cons.injEq, and_true] at hparts
  obtain ⟨hiv, htag, htext⟩ := hparts
  exact ⟨base64urlText_injective hiv, base64urlText_injective htag,
    base64urlText_injective htext⟩

open CipherLibrary in
/-- A signing secret survives its envelope: every well-formed text, key and vector. -/
theorem secret_round_trips (aes : AesGcm) (haes : aes.Inverts) : EnvelopeRoundTrips aes where
  roundTrip plaintext keyBase64 iv hkey hiv := by
    have hparse : aes.library.parseKey keyBase64 = .ok (aes.library.fromBase64 keyBase64) :=
      parseKey_ok.2 ⟨hkey, rfl⟩
    refine ⟨_, encryptSecret_eq hparse, ?_⟩
    rw [decryptSecret_envelope hparse]
    simp only [(AesGcm.library_inverts haes).base64url]
    exact AesGcm.decipher_encipher haes hkey hiv plaintext
  keyText key hkey := by
    have hdecode : aes.library.fromBase64 (base64Text key) = key := bufferFromBase64_base64Text key
    rw [parseKey_ok, IsKey, hdecode]
    exact ⟨hkey, rfl⟩
  isEnvelope plaintext keyBase64 iv encoded h := by
    have hkey := encryptSecret_isOk.1 ⟨encoded, h⟩
    rw [encryptSecret_eq (parseKey_ok.2 ⟨hkey, rfl⟩)] at h
    cases h
    exact ⟨_, _, rfl⟩
  splits := envelopeParts_envelope
  decodes := bufferFromBase64_base64urlText
  injective _ _ _ _ _ _ := envelope_injective

/-! ## Sample -/

/-- What AES-256-GCM makes of the UTF-8 of `ünïcødé ✓` under a key and a vector of zeros. -/
def sampleEnciphered : List UInt8 × List UInt8 :=
  ([13, 27, 46, 254, 226, 3, 168, 214, 99, 141, 108, 243, 88, 111, 14],
    [132, 128, 63, 254, 212, 195, 166, 158, 167, 246, 42, 33, 140, 85, 67, 154])

/-- The cipher at that input; any other plaintext is kept as it is, under an empty tag. -/
def sampleAes : AesGcm where
  encipher key iv plaintext :=
    if key = List.replicate 32 0 ∧ iv = List.replicate 12 0 ∧
      plaintext = Utf8.encode "ünïcødé ✓" then sampleEnciphered else (plaintext, [])
  decipher key iv authTag ciphertext :=
    if authTag = [] then .ok ciphertext
    else if key = List.replicate 32 0 ∧ iv = List.replicate 12 0 ∧
      (ciphertext, authTag) = sampleEnciphered then .ok (Utf8.encode "ünïcødé ✓")
    else .error "Unsupported state or unable to authenticate data"

theorem sampleAes_inverts : sampleAes.Inverts := by
  intro key iv plaintext _ _
  simp only [sampleAes]
  split
  · rename_i h
    rw [if_neg (by decide), if_pos ⟨h.1, h.2.1, rfl⟩, h.2.2]
  · rfl

open CipherLibrary in
/-- The envelope of `ünïcødé ✓` under zeros. -/
theorem secret_round_trips_sample : EnvelopeRoundTrips sampleAes ∧
    (sampleAes.library.encryptSecret "ünïcødé ✓" sampleKey (List.replicate 12 0)).toOption =
      some "v1:AAAAAAAAAAAAAAAA.hIA__tTDpp6n9iohjFVDmg.DRsu_uIDqNZjjWzzWG8O" :=
  ⟨secret_round_trips sampleAes sampleAes_inverts, by decide +kernel⟩

end NolagCore
