import NolagCore.Common.Credential

/-!
# Common.StoredHash

What `verifySecretHash` makes of an arbitrary stored text. The decoder reads the bytes of a
hexadecimal text off its front and drops the rest without a word (`bufferFromHex_eq_iff`), and the
length is compared only after that, so a hash with a tail that is no pair of digits still passes.
-/

namespace NolagCore

/-! ## Reading hexadecimal text -/

/-- The two digits of a byte. -/
def hexByte (b : UInt8) : List Char :=
  [hexDigits.getD (b.toNat / 16) '0', hexDigits.getD (b.toNat % 16) '0']

theorem toList_hexEncode (bytes : List UInt8) : (hexEncode bytes).toList = bytes.flatMap hexByte := by
  rw [hexEncode, String.toList_ofList]
  rfl

theorem hexDigit_toLower : ∀ n < 16, (hexDigits.getD n '0').toLower = hexDigits.getD n '0' := by
  decide

theorem idxOf_hexDigit : ∀ n < 16, hexDigits.idxOf (hexDigits.getD n '0') = n := by decide

/-- A character reads as `n` when, in lower case, it is the digit that prints `n`. -/
theorem hexValue_eq_some {c : Char} {n : Nat} :
    hexValue c = some n ↔ n < 16 ∧ c.toLower = hexDigits.getD n '0' := by
  have hlen : hexDigits.length = 16 := rfl
  unfold hexValue
  dsimp only
  constructor
  · intro h
    split at h
    · rename_i hlt
      cases h
      refine ⟨hlt, ?_⟩
      rw [List.getD_eq_getElem?_getD, List.getElem?_eq_getElem (by omega), List.getElem_idxOf]
      rfl
    · cases h
  · rintro ⟨hn, hc⟩
    rw [hc, idxOf_hexDigit n hn, if_pos hn]

theorem hexByte_toLower (b : UInt8) : (hexByte b).map Char.toLower = hexByte b := by
  have hb := b.toNat_lt
  simp only [hexByte, List.map_cons, List.map_nil]
  rw [hexDigit_toLower _ (by omega), hexDigit_toLower _ (by omega)]

theorem hexEncode_toLower (bytes : List UInt8) :
    (hexEncode bytes).toList.map Char.toLower = (hexEncode bytes).toList := by
  rw [toList_hexEncode]
  induction bytes with
  | nil => rfl
  | cons b bytes ih => rw [List.flatMap_cons, List.map_append, hexByte_toLower, ih]

/-- Two characters spell a byte when they read as its two nibbles. -/
theorem spells_byte {a c : Char} {b : UInt8} :
    [a, c].map Char.toLower = hexByte b ↔
      hexValue a = some (b.toNat / 16) ∧ hexValue c = some (b.toNat % 16) := by
  have hb := b.toNat_lt
  have hhigh : b.toNat / 16 < 16 := by omega
  have hlow : b.toNat % 16 < 16 := by omega
  simp [hexByte, hexValue_eq_some, hhigh, hlow]

theorem ofNat_nibbles {b : UInt8} : UInt8.ofNat (16 * (b.toNat / 16) + b.toNat % 16) = b := by
  rw [Nat.div_add_mod]
  exact UInt8.ofNat_toNat

/-- Whether a text goes on with a whole byte. -/
def beginsWithHexPair : List Char → Bool
  | a :: b :: _ => (hexValue a).isSome && (hexValue b).isSome
  | _ => false

theorem bufferFromHex_eq_nil {text : List Char} :
    bufferFromHex text = [] ↔ beginsWithHexPair text = false := by
  match text with
  | [] => simp [bufferFromHex, beginsWithHexPair]
  | [_] => simp [bufferFromHex, beginsWithHexPair]
  | a :: b :: rest =>
    unfold bufferFromHex beginsWithHexPair
    cases ha : hexValue a <;> cases hb : hexValue b <;> simp [ha, hb]

/-- The decoder gives `bytes` for their hexadecimal text, in either case, before anything that does
not go on with a whole byte. -/
theorem bufferFromHex_eq_iff {bytes : List UInt8} : ∀ {text : List Char},
    bufferFromHex text = bytes ↔ ∃ hex tail, text = hex ++ tail ∧
      hex.map Char.toLower = (hexEncode bytes).toList ∧ beginsWithHexPair tail = false := by
  simp only [toList_hexEncode]
  induction bytes with
  | nil =>
    intro text
    rw [bufferFromHex_eq_nil]
    constructor
    · intro h
      exact ⟨[], text, rfl, rfl, h⟩
    · rintro ⟨hex, tail, rfl, hhex, htail⟩
      obtain rfl : hex = [] := by simpa using hhex
      exact htail
  | cons b bytes ih =>
    intro text
    constructor
    · intro h
      match text, h with
      | a :: c :: rest, h =>
        unfold bufferFromHex at h
        split at h
        · rename_i x y hx hy
          obtain ⟨hbyte, hrest⟩ := List.cons.inj h
          obtain ⟨hex, tail, rfl, hhex, htail⟩ := ih.1 hrest
          refine ⟨a :: c :: hex, tail, rfl, ?_, htail⟩
          have hxlt := (hexValue_eq_some.1 hx).1
          have hylt := (hexValue_eq_some.1 hy).1
          have hnat : b.toNat = 16 * x + y := by
            rw [← hbyte, UInt8.toNat_ofNat']
            omega
          have hspell : [a, c].map Char.toLower = hexByte b := by
            rw [spells_byte, hx, hy, hnat]
            constructor
            · congr 1; omega
            · congr 1; omega
          rw [List.flatMap_cons, ← hspell, ← hhex]
          rfl
        · cases h
    · rintro ⟨hex, tail, rfl, hhex, htail⟩
      rw [List.flatMap_cons] at hhex
      match hex, hhex with
      | [_], hhex => simp [hexByte] at hhex
      | a :: c :: hex, hhex =>
        have hsplit : [a, c].map Char.toLower = hexByte b ∧
            hex.map Char.toLower = bytes.flatMap hexByte := by
          simpa [hexByte, and_assoc] using hhex
        obtain ⟨ha, hc⟩ := spells_byte.1 hsplit.1
        have hrest : bufferFromHex (hex ++ tail) = bytes := ih.2 ⟨hex, tail, rfl, hsplit.2, htail⟩
        show bufferFromHex (a :: c :: (hex ++ tail)) = b :: bytes
        unfold bufferFromHex
        rw [ha, hc]
        dsimp only
        rw [ofNat_nibbles, hrest]

theorem bufferFromHex_hexEncode (bytes : List UInt8) :
    bufferFromHex (hexEncode bytes).toList = bytes :=
  bufferFromHex_eq_iff.2 ⟨_, [], (List.append_nil _).symm, hexEncode_toLower bytes, rfl⟩

/-! ## Comparing -/

/-- `timingSafeEqual`, which throws on unequal lengths. -/
def timingSafeEqual (a b : List UInt8) : Except String Bool :=
  if a.length = b.length then .ok (decide (a = b))
  else .error "Input buffers must have the same byte length"

/-- The body of the `try` in `verifySecretHash`. -/
def compareHashes (crypto : Crypto) (storedHash providedSecret : String) : Except String Bool :=
  let storedBuf := bufferFromHex storedHash.toList
  let computedBuf := bufferFromHex (hashSecret crypto providedSecret).toList
  if storedBuf.length ≠ computedBuf.length then .ok false else timingSafeEqual storedBuf computedBuf

variable {crypto : Crypto} {storedHash secret : String}

/-- The guard on the lengths keeps the comparison from throwing; the `catch` is never reached. -/
theorem compareHashes_ok :
    compareHashes crypto storedHash secret = .ok (verifySecretHash crypto storedHash secret) := by
  unfold compareHashes verifySecretHash timingSafeEqual
  dsimp only
  split
  · rfl
  · rename_i hlen
    rw [if_pos (Decidable.not_not.1 hlen)]

theorem length_hashSecret : (hashSecret crypto secret).toList.length = 64 := by
  rw [hashSecret, length_hexEncode, crypto.sha256_length]

theorem verifySecretHash_iff_bytes :
    verifySecretHash crypto storedHash secret = true ↔
      bufferFromHex storedHash.toList = crypto.sha256 secret := by
  have hcomputed : bufferFromHex (hashSecret crypto secret).toList = crypto.sha256 secret :=
    bufferFromHex_hexEncode _
  unfold verifySecretHash
  dsimp only
  rw [hcomputed]
  split
  · rename_i hne
    simp only [Bool.false_eq_true, false_iff]
    intro heq
    exact hne (congrArg List.length heq)
  · exact decide_eq_true_iff

/-- The stored text is the hash of the secret, in either case. -/
def IsHashOf (crypto : Crypto) (storedHash secret : String) : Prop :=
  storedHash.toLower = (hashSecret crypto secret).toLower

instance : Decidable (IsHashOf crypto storedHash secret) :=
  inferInstanceAs (Decidable (storedHash.toLower = (hashSecret crypto secret).toLower))

theorem isHashOf_iff : IsHashOf crypto storedHash secret ↔
    storedHash.toList.map Char.toLower = (hashSecret crypto secret).toList := by
  unfold IsHashOf String.toLower
  rw [← String.toList_inj, String.toList_map, String.toList_map, hashSecret, hexEncode_toLower]

theorem length_of_isHashOf (h : IsHashOf crypto storedHash secret) :
    storedHash.toList.length = 64 := by
  have hlen := congrArg List.length (isHashOf_iff.1 h)
  rw [List.length_map, length_hashSecret] at hlen
  exact hlen

/-- The hash of the secret with characters added that do not go on with a whole byte. -/
def HashWithTail (crypto : Crypto) (storedHash secret : String) : Prop :=
  ∃ hash tail : String, storedHash = hash ++ tail ∧ IsHashOf crypto hash secret ∧ tail ≠ "" ∧
    beginsWithHexPair tail.toList = false

/-- A presented secret authenticates against its hash, and against its hash with such a tail. -/
theorem verifySecretHash_iff : verifySecretHash crypto storedHash secret = true ↔
    IsHashOf crypto storedHash secret ∨ HashWithTail crypto storedHash secret := by
  rw [verifySecretHash_iff_bytes, bufferFromHex_eq_iff]
  constructor
  · rintro ⟨hex, tail, htext, hhex, htail⟩
    have hstored : storedHash = String.ofList hex ++ String.ofList tail := by
      rw [← String.ofList_append, ← htext, String.ofList_toList]
    have hhash : IsHashOf crypto (String.ofList hex) secret := by
      rw [isHashOf_iff, String.toList_ofList]
      exact hhex
    by_cases hnil : tail = []
    · left
      subst hnil
      rw [hstored]
      simpa using hhash
    · right
      refine ⟨_, _, hstored, hhash, ?_, ?_⟩
      · simpa using hnil
      · rw [String.toList_ofList]
        exact htail
  · rintro (hhash | ⟨hash, tail, rfl, hhash, -, htail⟩)
    · exact ⟨storedHash.toList, [], (List.append_nil _).symm, isHashOf_iff.1 hhash, rfl⟩
    · exact ⟨hash.toList, tail.toList, String.toList_append, isHashOf_iff.1 hhash, htail⟩

/-- A text with such a tail is longer than a hash, so it is none. -/
theorem HashWithTail.not_isHashOf (h : HashWithTail crypto storedHash secret) :
    ¬ IsHashOf crypto storedHash secret := by
  obtain ⟨hash, tail, rfl, hhash, htail, -⟩ := h
  intro hall
  have hlen := length_of_isHashOf hall
  rw [String.toList_append, List.length_append, length_of_isHashOf hhash] at hlen
  have hnil : tail.toList = [] := List.length_eq_zero_iff.1 (by omega)
  exact htail (String.toList_eq_nil_iff.1 hnil)

/-! ## Corrupt hashes -/

/-- What is asked of one comparison: nothing is thrown, and the answer is yes exactly for the 64
characters of the hash of the secret. -/
structure RejectsCorrupt (crypto : Crypto) (storedHash secret : String) : Prop where
  returns : ∃ answer, compareHashes crypto storedHash secret = .ok answer ∧
    verifySecretHash crypto storedHash secret = answer
  authenticates : verifySecretHash crypto storedHash secret = true ↔
    storedHash.toList.length = 64 ∧ IsHashOf crypto storedHash secret

/-- Only a hash with a tail the decoder drops is taken for the hash itself. -/
theorem rejects_corrupt_iff (crypto : Crypto) (storedHash secret : String) :
    RejectsCorrupt crypto storedHash secret ↔ ¬ HashWithTail crypto storedHash secret := by
  constructor
  · intro h htail
    exact htail.not_isHashOf (h.authenticates.1 (verifySecretHash_iff.2 (.inr htail))).2
  · intro htail
    refine ⟨⟨_, compareHashes_ok, rfl⟩, ?_⟩
    rw [verifySecretHash_iff]
    constructor
    · rintro (hhash | h)
      · exact ⟨length_of_isHashOf hhash, hhash⟩
      · exact absurd h htail
    · rintro ⟨-, hhash⟩
      exact .inl hhash

/-- The secret of `sampleBytes` authenticates against its hash with a letter added. -/
theorem hash_with_letter_accepted :
    ¬ ∀ (crypto : Crypto) (storedHash secret : String), RejectsCorrupt crypto storedHash secret := by
  intro h
  have hsample := h sampleCrypto
    "0f007385b6f9d4b7eeb2748605afe1a984a0a3bfa3f014d09e2a784ce9e5cd1ax"
    "AAAAAAAAAAAAAAAAAAAAAAAAAAAAAAAAAAAAAAAAAAA"
  have haccepted : verifySecretHash sampleCrypto
      "0f007385b6f9d4b7eeb2748605afe1a984a0a3bfa3f014d09e2a784ce9e5cd1ax"
      "AAAAAAAAAAAAAAAAAAAAAAAAAAAAAAAAAAAAAAAAAAA" = true := by
    decide +kernel
  exact absurd (hsample.authenticates.1 haccepted).1 (by decide)

end NolagCore
