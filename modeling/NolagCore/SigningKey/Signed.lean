import NolagCore.Common.Credential
import NolagCore.Common.SecretCipher
import NolagCore.SigningKey.Facade
import NolagCore.SigningKey.History

/-!
# SigningKey.Signed

Client tokens that were signed with a minted key: their shape, their kid, and the secret they are
verified with. The text of a token is put together as `jwt.sign` does it; the JSON of the payload and
HMAC-SHA256 are parameters.
-/

namespace NolagCore
namespace SigningKeys

open Lib CipherLibrary

/-! ## Signing -/

/-- The bytes of an ASCII text. -/
def asciiBytes (text : String) : List UInt8 := text.toList.map fun c => UInt8.ofNat c.toNat

/-- The header `jwt.sign` writes for HS256 and a key id. -/
def headerText (kid : String) : String :=
  "\x7b\"alg\":\"HS256\",\"typ\":\"JWT\",\"kid\":\"" ++ kid ++ "\"\x7d"

structure JwtSigner where
  /-- `JSON.stringify(payload)`. -/
  payloadBytes : JwtPayload → List UInt8
  hmacSha256 : (input secret : String) → List UInt8

namespace JwtSigner

variable (signer : JwtSigner)

def signingInput (kid : String) (payload : JwtPayload) : String :=
  base64urlText (asciiBytes (headerText kid)) ++ "." ++ base64urlText (signer.payloadBytes payload)

/-- `jwt.sign(payload, secret, { algorithm: "HS256", keyid: kid })`. -/
def sign (kid : String) (payload : JwtPayload) (secret : String) : String :=
  signer.signingInput kid payload ++ "." ++
    base64urlText (signer.hmacSha256 (signer.signingInput kid payload) secret)

/-- `jsonwebtoken` reads the header it wrote and verifies what it signed until it expires. -/
structure Verifies (lib : TokenLibrary) (kid : String) (payload : JwtPayload) (secret : String) :
    Prop where
  decode : lib.decode (signer.sign kid payload secret) =
    .token (some (.text "HS256")) (some (.text kid))
  verify : ∀ tolerance now exp, payload.exp = some (.number exp) →
    ((now / 1000 : Int) : Rat) < exp + (tolerance : Int) →
    lib.verify (signer.sign kid payload secret) secret ["HS256"] tolerance now = some payload

variable {signer} {kid : String} {payload : JwtPayload} {secret : String}

theorem splitOn_sign : (splitOn '.' (signer.sign kid payload secret)).length = 3 := by
  have hassoc : signer.sign kid payload secret =
      base64urlText (asciiBytes (headerText kid)) ++ "." ++
        (base64urlText (signer.payloadBytes payload) ++ "." ++
          base64urlText (signer.hmacSha256 (signer.signingInput kid payload) secret)) := by
    simp only [sign, signingInput, String.append_assoc]
  rw [hassoc, splitOn_append rfl (dot_notMem_base64urlText _),
    splitOn_append rfl (dot_notMem_base64urlText _), splitOn_of_notMem (dot_notMem_base64urlText _)]
  rfl

/-- The base64url text of a JSON object begins with `eyJ`. -/
theorem startsWith_sign : "eyJ".toList.isPrefixOf (signer.sign kid payload secret).toList = true := by
  have hheader : ∃ rest, base64urlText (asciiBytes (headerText kid)) = String.ofList
      ('e' :: 'y' :: 'J' :: rest) := by
    unfold base64urlText headerText asciiBytes
    rw [String.toList_append, String.toList_append]
    exact ⟨_, rfl⟩
  obtain ⟨rest, hrest⟩ := hheader
  unfold sign signingInput
  rw [hrest]
  simp only [String.toList_append, String.toList_ofList]
  rfl

theorem isClientTokenJwt_sign : isClientTokenJwt (signer.sign kid payload secret) = true := by
  unfold isClientTokenJwt
  rw [startsWith_sign, splitOn_sign]
  rfl

end JwtSigner

/-! ## Key ids -/

/-- `generateCredential` writes the key ids the patterns ask for. -/
theorem keyIdPattern_generated {crypto : Crypto} (kind env : String) {random : CredentialBytes}
    (henv : env = "live" ∨ env = "sandbox") (hdrawn : random.Drawn) :
    keyIdPattern kind (generateCredential crypto (kind ++ "_" ++ env) random).keyId = true := by
  have htext : (generateCredential crypto (kind ++ "_" ++ env) random).keyId.toList =
      (kind ++ ("_" ++ env ++ "_")).toList ++ (hexEncode random.keyBytes).toList := by
    simp only [generateCredential, String.toList_append, List.append_assoc]
  unfold keyIdPattern
  rw [List.any_eq_true]
  refine ⟨"_" ++ env ++ "_", ?_, ?_⟩
  · rcases henv with rfl | rfl <;> decide
  · have hlen := length_hexEncode random.keyBytes
    rw [hdrawn.key] at hlen
    simp only [htext, List.drop_left', hlen, Bool.and_eq_true, List.isPrefixOf_iff_prefix,
      List.prefix_append, decide_eq_true_eq, List.all_eq_true, true_and]
    intro c hc
    exact List.contains_iff_mem.2 (mem_hexEncode hc)

/-! ## Keys that can verify -/

/-- The row `r` is the minted `row`, perhaps patched since: a patch leaves these columns alone. -/
structure SameKey (row r : SigningKey) : Prop where
  signingKeyId : r.signingKeyId = row.signingKeyId
  projectId : r.projectId = row.projectId
  keyId : r.keyId = row.keyId
  secretEncrypted : r.secretEncrypted = row.secretEncrypted

/-- `secret` is what the row's column decrypts to under the configured key. -/
structure Decrypts (lib : TokenLibrary) (config : CoreConfig) (row : SigningKey) (secret : String) :
    Prop where
  configured : ∃ key, config.signingKeyEncryptionKey = some key ∧ key ≠ "" ∧
    lib.decryptSecret row.secretEncrypted key = some secret

section

variable {lib : TokenLibrary} {config : CoreConfig} {row : SigningKey} {secret : String}

theorem Decrypts.secret_eq (h : Decrypts lib config row secret) {key plaintext : String}
    (hkey : config.signingKeyEncryptionKey = some key)
    (hplain : lib.decryptSecret row.secretEncrypted key = some plaintext) : plaintext = secret := by
  obtain ⟨key', hkey', -, hsecret⟩ := h.configured
  rw [hkey] at hkey'
  cases hkey'
  rw [hplain] at hsecret
  exact Option.some.inj hsecret

/-- A key that is stored and active resolves to itself and its secret, from the cache too: whatever
the instance has read under its key id was the same key. -/
theorem resolve_minted (hdecrypts : Decrypts lib config row secret) {history : List Moment}
    (hhistory : ∀ m ∈ history, ∀ r ∈ m.store.signingKeys, r.keyId = row.keyId → SameKey row r)
    {s : Store} (hv : s.SchemaValid) {k : SigningKey} (hk : k ∈ s.signingKeys)
    (hlive : live k = true) (hactive : k.status = .active) (hsame : SameKey row k) (now : Int) :
    ∃ resolved, (resolveSigningKey lib config s now (kidCacheAfter lib config history)
        row.keyId).1 = some resolved ∧ resolved.secret = secret ∧ SameKey row resolved.entity := by
  have hfind : findByKeyId s row.keyId = some k :=
    findOne_of_unique hk hlive (decide_eq_true hsame.keyId) fun r hr _ hid =>
      hv.signingKeyId.eq_of_key hr hk ((of_decide_eq_true hid).trans hsame.keyId.symm)
  obtain ⟨key, hkey, hne, hsecret⟩ := hdecrypts.configured
  have hadmitted : admitSigningKey lib config (findByKeyId s row.keyId) =
      some { entity := k, secret := secret } := by
    rw [hfind, admitSigningKey, if_pos hactive, hkey]
    dsimp only
    rw [if_neg hne, hsame.secretEncrypted, hsecret]
    rfl
  have hcache : (kidCacheAfter lib config history).WrittenBy 60000
      (Vouched lib config (moments history)) := kidCache_vouched history
  unfold resolveSigningKey
  split
  · rename_i cached cache hget
    obtain ⟨u, -, m, hm, -, hadmits⟩ :=
      hcache.written _ _ _ (TtlCache.get_eq_some (by rw [hget]))
    obtain ⟨past, hpast, rfl⟩ := List.mem_map.1 hm
    have hentity := hhistory past hpast cached.entity hadmits.row hadmits.keyId
    obtain ⟨key', hkey', hplain⟩ := hadmits.secret
    rw [hentity.secretEncrypted] at hplain
    exact ⟨cached, rfl, hdecrypts.secret_eq hkey' hplain, hentity⟩
  · rw [hadmitted]
    exact ⟨_, rfl, rfl, hsame⟩

/-- A token signed with the secret of a resolved key is accepted for its subject. -/
theorem verifyClientToken_signed {signer : JwtSigner} {payload : JwtPayload} {sub : String}
    {exp : Rat} {s : Store} {now : Int} {kidCache : TtlCache ResolvedSigningKey}
    {resolved : ResolvedSigningKey} (hverifies : signer.Verifies lib row.keyId payload secret)
    (hkid : kidPattern row.keyId = true)
    (hresolved : (resolveSigningKey lib config s now kidCache row.keyId).1 = some resolved)
    (hsecret : resolved.secret = secret) (hsub : payload.sub = some (.text sub))
    (hpattern : subPattern sub = true) (hexp : payload.exp = some (.number exp))
    (hfrom : ((now / 1000 : Int) : Rat) ≤ exp) (hto : exp ≤ ((now / 1000 + 3600 : Int) : Rat)) :
    (verifyClientToken lib config s now kidCache (signer.sign row.keyId payload secret)).1 =
      .ok (some { signingKey := resolved.entity
                  payload := { sub := sub, exp := exp, iat := payload.iat } }) := by
  have hshape : ¬ ((splitOn '.' (signer.sign row.keyId payload secret)).length ≠ 3 ∨
      "eyJ".toList.isPrefixOf (signer.sign row.keyId payload secret).toList = false) := by
    rw [JwtSigner.splitOn_sign, JwtSigner.startsWith_sign]
    simp
  have hkidOf : clientTokenKid lib (signer.sign row.keyId payload secret) =
      .ok (some (.text row.keyId)) := by
    unfold clientTokenKid
    rw [if_neg hshape, hverifies.decode]
    simp only [ne_eq, not_true_eq_false, if_false, Claim.coerced, hkid, if_true]
  have hunexpired : ((now / 1000 : Int) : Rat) < exp + (clockSkewSeconds : Int) := by
    have hskew : (0 : Rat) < (clockSkewSeconds : Int) := by norm_num [clockSkewSeconds]
    linarith
  have hcap : ¬ exp > ((now / 1000 + maxTtlSeconds + clockSkewSeconds : Int) : Rat) := by
    rw [not_lt]
    refine hto.trans ?_
    simp only [maxTtlSeconds, clockSkewSeconds]
    exact_mod_cast (by omega : now / 1000 + 3600 ≤ now / 1000 + 3600 + 60)
  have haccept : acceptClaims lib now (signer.sign row.keyId payload secret) resolved =
      some { signingKey := resolved.entity
             payload := { sub := sub, exp := exp, iat := payload.iat } } := by
    unfold acceptClaims
    rw [hsecret, hverifies.verify _ _ exp hexp hunexpired]
    simp only [hexp, hsub]
    rw [if_neg hcap, if_pos hpattern]
  unfold verifyClientToken
  rw [hkidOf]
  simp only
  rw [hresolved, Option.bind_some, haccept]

end

end SigningKeys
end NolagCore
