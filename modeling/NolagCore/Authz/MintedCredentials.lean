import NolagCore.ActorToken.Facade
import NolagCore.Authz.ClientTokens
import NolagCore.ProjectConfig.References
import NolagCore.SigningKey.Signed

/-!
# Authz.MintedCredentials

Credentials from the moment they are minted to the moment they are presented. Minting, storing,
splitting, hashing, encrypting and looking up agree on one text, so what a mint returns opens a
session for what it was minted for and for nothing else.
-/

namespace NolagCore
namespace Authz

open Lib SigningKeys ActorTokens ProjectConfig

/-! ## Mints -/

/-- A mint of an actor: what it returned, the row it stored, and the tables it left. An import
reports its credentials by the handles of the document. -/
inductive MintedActor (crypto : Crypto) : String → ActorToken → Store → Prop
  | created {legacy : String → Option Int} {db db' : Database} {actorTokenId projectId : Uuid}
    {random : CredentialBytes} {data : ActorTokenFacade.ActorTokenCreateDto}
    {minted : ActorTokenFacade.CreatedActorToken} (hdrawn : random.Drawn)
    (h : ActorTokenFacade.createActorToken legacy crypto db actorTokenId random projectId data =
      .ok (minted, db')) :
    MintedActor crypto minted.accessToken minted.entity db'.store
  | imported {host : Host} {draws : Draws} {now : Int} {db db' : Database} {doc : ProjectConfigDoc}
    {credentials : ImportedCredentials} {i : Nat} {actor : ActorDoc} {minted : MintedCredential}
    (hcrypto : host.crypto = crypto) (hdrawn : ∀ i, (draws.actorBytes i).Drawn)
    (h : ProjectConfigFacade.importProject host draws now db doc = .ok (credentials, db'))
    (hactor : (doc.actors.getD [])[i]? = some actor) (hminted : minted ∈ credentials.actors)
    (href : minted.ref = actor.ref) :
    MintedActor crypto minted.credential (createdActorRow host draws doc i actor) db'.store

/-- A mint of a signing key. -/
inductive MintedKey (crypto : Crypto) (cipher : CipherLibrary) (config : CoreConfig) :
    String → SigningKey → Store → Prop
  | created {db db' : Database} {signingKeyId projectId : Uuid}
    {random : SigningKeyFacade.SigningKeyBytes} {data : SigningKeyFacade.SigningKeyCreateDto}
    {minted : SigningKeyFacade.CreatedSigningKey} (hdrawn : random.credential.Drawn)
    (hiv : random.iv.length = CipherLibrary.ivLength)
    (h : SigningKeyFacade.createSigningKey crypto cipher.encryptSecret config db signingKeyId random
      projectId data = .ok (minted, db')) :
    MintedKey crypto cipher config minted.signingKey minted.entity db'.store
  | imported {host : Host} {draws : Draws} {now : Int} {db db' : Database} {doc : ProjectConfigDoc}
    {credentials : ImportedCredentials} {i : Nat} {key : SigningKeyDoc} {minted : MintedCredential}
    (hcrypto : host.crypto = crypto) (hcipher : host.cipher = cipher.encryptSecret)
    (hconfig : host.config = config) (hdrawn : ∀ i, (draws.signingKeyBytes i).credential.Drawn)
    (hiv : ∀ i, (draws.signingKeyBytes i).iv.length = CipherLibrary.ivLength)
    (h : ProjectConfigFacade.importProject host draws now db doc = .ok (credentials, db'))
    (hkey : (doc.signingKeys.getD [])[i]? = some key) (hminted : minted ∈ credentials.signingKeys)
    (href : minted.ref = key.ref) :
    MintedKey crypto cipher config minted.credential (createdKeyRow host draws i key) db'.store

/-- The row `r` is the minted `row`, perhaps patched since. -/
structure SameActor (row r : ActorToken) : Prop where
  actorTokenId : r.actorTokenId = row.actorTokenId
  keyId : r.keyId = row.keyId
  secretHash : r.secretHash = row.secretHash

theorem SameActor.refl (row : ActorToken) : SameActor row row := ⟨rfl, rfl, rfl⟩

/-- The credential of one actor: it is presented as a credential and not as a client token, its parts
are those of the row, and it authenticates the row, from the cache too. -/
structure ActorCredential (crypto : Crypto) (accessToken : String) (row : ActorToken) : Prop where
  notJwt : isClientTokenJwt accessToken = false
  parts : ∃ secret, splitCredential accessToken = some (row.keyId, secret) ∧
    row.secretHash = hashSecret crypto secret
  authenticates : ∀ (history : List Presented) (s : Store) (now : Int) (a : ActorToken),
    s.SchemaValid → a ∈ s.actorTokens → live a = true → a.status = .active →
    expired a.expiresAt now = false → SameActor row a →
    (∀ call ∈ history, ∀ r ∈ call.store.actorTokens, r.keyId = row.keyId → SameActor row r) →
    ∃ e, (authenticateActorToken crypto s now (authCacheAfter crypto history) accessToken).1 =
        some e ∧ SameActor row e ∧
      ((∀ call ∈ history, ∀ r ∈ call.store.actorTokens, r.keyId = row.keyId → r = a) → e = a)

/-- What a client token signed with the key leads to for an actor. -/
def clientSession (env : Env) (s : Store) (now : Int) (a : ActorToken) (exp : Rat) :
    ValidateActorResponse :=
  match buildSessionPayload env.config s now a with
  | .error reason => .invalid reason
  | .ok payload => .valid payload (some exp)

/-- The credential of a signing key: a client token signed with its secret takes the path of client
tokens and is accepted for the minted actor it names, within the project of the key. -/
structure SigningCredential (env : Env) (signer : JwtSigner) (signingKey : String)
    (row : SigningKey) : Prop where
  parts : ∃ secret, splitCredential signingKey = some (row.keyId, secret)
  accepted : ∀ (secret : String) (history : List Moment) (auth : TtlCache ActorToken) (s : Store)
    (now : Int) (k : SigningKey) (a : ActorToken) (payload : JwtPayload) (exp : Rat),
    splitCredential signingKey = some (row.keyId, secret) →
    signer.Verifies env.lib row.keyId payload secret →
    s.SchemaValid → k ∈ s.signingKeys → live k = true → k.status = .active → SameKey row k →
    a ∈ s.actorTokens → live a = true → a.status = .active → expired a.expiresAt now = false →
    a.projectId = k.projectId →
    (∃ accessToken minted s₀, MintedActor env.crypto accessToken minted s₀ ∧ SameActor minted a) →
    payload.sub = some (.text a.keyId) → payload.exp = some (.number exp) →
    ((now / 1000 : Int) : Rat) ≤ exp → exp ≤ ((now / 1000 + 3600 : Int) : Rat) →
    (∀ m ∈ history, ∀ r ∈ m.store.signingKeys, r.keyId = row.keyId → SameKey row r) →
    isClientTokenJwt (signer.sign row.keyId payload secret) = true ∧
    (∃ entity, SameKey row entity ∧
      (verifyClientToken env.lib env.config s now (kidCacheAfter env.lib env.config history)
        (signer.sign row.keyId payload secret)).1 = .ok (some
          { signingKey := entity, payload := { sub := a.keyId, exp := exp, iat := payload.iat } })) ∧
    (validateActor env s now { auth := auth, kid := kidCacheAfter env.lib env.config history }
      (signer.sign row.keyId payload secret)).1 = .ok (clientSession env s now a exp)

/-! ## Actor credentials -/

theorem actorCredential_generated {crypto : Crypto} {random : CredentialBytes}
    (hdrawn : random.Drawn) {row : ActorToken}
    (hkeyId : row.keyId = (generateCredential crypto "at_live" random).keyId)
    (hhash : row.secretHash = (generateCredential crypto "at_live" random).secretHash) :
    ActorCredential crypto (generateCredential crypto "at_live" random).credential row := by
  have hparts := splitCredential_generated crypto "at_live" (by decide) hdrawn
  refine ⟨not_clientTokenJwt (by decide), ⟨_, hkeyId ▸ hparts, hhash⟩, ?_⟩
  intro history s now a hv ha hlive hactive hunexpired hsame hhistory
  have hfind : ActorTokens.findByKeyId s (generateCredential crypto "at_live" random).keyId =
      some a := by
    rw [← hkeyId]
    exact findOne_of_unique ha hlive (decide_eq_true hsame.keyId) fun r hr _ hid =>
      hv.actorKeyId.eq_of_key hr ha ((of_decide_eq_true hid).trans hsame.keyId.symm)
  have hvalid : verifySecretHash crypto a.secretHash
      (generateCredential crypto "at_live" random).secret = true := by
    rw [hsame.secretHash, hhash]
    exact verifySecretHash_hashSecret _
  have husable : isUsable now a = true := by
    simp [isUsable, hactive, hunexpired]
  have hcache := authCache_vouched crypto history
  unfold authenticateActorToken
  rw [hparts]
  dsimp only
  split
  · rename_i cached cache hget
    obtain ⟨u, -, call, hcall, -, -, keyId, secret, hsplit, hpasses⟩ :=
      hcache.written _ _ _ (TtlCache.get_eq_some (by rw [hget]))
    rw [hparts] at hsplit
    cases hsplit
    have hid : cached.keyId = row.keyId := hpasses.keyId.trans hkeyId.symm
    exact ⟨cached, rfl, hhistory call hcall cached hpasses.row hid,
      fun hunchanged => hunchanged call hcall cached hpasses.row hid⟩
  · rw [hfind]
    simp only [Option.map_some, Option.getD_some, hvalid, husable, Bool.true_eq_false, if_false,
      if_true]
    exact ⟨a, rfl, hsame, fun _ => rfl⟩

/-- The credential an import reports for a handle is that of the row at the handle's place. -/
theorem credential_at {host : Host} {draws : Draws} {doc : ProjectConfigDoc} (hdoc : Distinct doc)
    {i : Nat} {actor : ActorDoc} (hactor : (doc.actors.getD [])[i]? = some actor)
    {minted : MintedCredential} (hminted : minted ∈ (ProjectConfig.credentials host draws doc).actors)
    (href : minted.ref = actor.ref) : minted.credential = (credentialOf host draws i).credential := by
  obtain ⟨j, actor', hj, rfl⟩ := mem_mapIdx_iff.1 hminted
  rw [index_eq_of_nodup_map hdoc.actors hj hactor href]

theorem signingKey_at {host : Host} {draws : Draws} {doc : ProjectConfigDoc} (hdoc : Distinct doc)
    {i : Nat} {key : SigningKeyDoc} (hkey : (doc.signingKeys.getD [])[i]? = some key)
    {minted : MintedCredential}
    (hminted : minted ∈ (ProjectConfig.credentials host draws doc).signingKeys)
    (href : minted.ref = key.ref) : minted.credential = (generatedKey host draws i).credential := by
  obtain ⟨j, key', hj, rfl⟩ := mem_mapIdx_iff.1 hminted
  rw [index_eq_of_nodup_map hdoc.signingKeys hj hkey href]

/-- A minted actor has the credential that was drawn for it, and its row is stored. -/
theorem MintedActor.generated {crypto : Crypto} {accessToken : String} {row : ActorToken} {s : Store}
    (h : MintedActor crypto accessToken row s) :
    row ∈ s.actorTokens ∧ ∃ random : CredentialBytes, random.Drawn ∧
      accessToken = (generateCredential crypto "at_live" random).credential ∧
      row.keyId = (generateCredential crypto "at_live" random).keyId ∧
      row.secretHash = (generateCredential crypto "at_live" random).secretHash := by
  cases h with
  | @created legacy db db' _ _ random _ minted hdrawn h =>
    unfold ActorTokenFacade.createActorToken at h
    split at h
    · cases h
    · dsimp only at h
      split at h
      · cases h
      · obtain ⟨rfl, hstore⟩ := commit_ok h
        refine ⟨?_, random, hdrawn, rfl, rfl, rfl⟩
        rw [hstore]
        exact List.mem_append_right _ List.mem_cons_self
  | @imported host draws _ _ _ doc _ i actor minted hcrypto hdrawn h hactor hminted href =>
    have hc := facade_completed h
    rw [hc.minted] at hminted
    refine ⟨?_, draws.actorBytes i, hdrawn i, ?_, ?_, ?_⟩
    · rw [hc.stored, Store.actorTokens_append, actorTokens_created]
      exact List.mem_append_right _ (mem_mapIdx_iff.2 ⟨i, actor, hactor, rfl⟩)
    · rw [credential_at hc.distinct hactor hminted href, credentialOf, hcrypto]
    · rw [← hcrypto]
      rfl
    · rw [← hcrypto]
      rfl

/-! ## Signing keys -/

/-- The kinds a signing key may be minted with. -/
def IsKeyKind (kind : String) : Prop := kind = "sk_live" ∨ kind = "sk_sandbox"

theorem encryptForStorage_ok {cipher : CipherLibrary} {config : CoreConfig} {iv : List UInt8}
    {secret encoded : String}
    (h : SigningKeyFacade.encryptForStorage cipher.encryptSecret config iv secret = .ok encoded) :
    ∃ key, config.signingKeyEncryptionKey = some key ∧ key ≠ "" ∧
      cipher.encryptSecret secret key iv = .ok encoded := by
  unfold SigningKeyFacade.encryptForStorage at h
  cases hconfig : config.signingKeyEncryptionKey with
  | none =>
    rw [hconfig] at h
    cases h
  | some key =>
    rw [hconfig] at h
    split at h
    · cases h
    · rename_i htruthy
      split at h
      · cases h
      · rename_i encoded' henc
        cases h
        refine ⟨key, rfl, ?_, henc⟩
        rintro rfl
        exact htruthy rfl

/-- A minted signing key has the credential that was drawn for it, and its row is stored with the
secret encrypted. -/
theorem MintedKey.generated {crypto : Crypto} {cipher : CipherLibrary} {config : CoreConfig}
    {signingKey : String} {row : SigningKey} {s : Store}
    (h : MintedKey crypto cipher config signingKey row s) :
    row ∈ s.signingKeys ∧ ∃ (kind : String) (random : SigningKeyFacade.SigningKeyBytes),
      IsKeyKind kind ∧ random.credential.Drawn ∧ random.iv.length = CipherLibrary.ivLength ∧
      signingKey = (generateCredential crypto kind random.credential).credential ∧
      row.keyId = (generateCredential crypto kind random.credential).keyId ∧
      SigningKeyFacade.encryptForStorage cipher.encryptSecret config random.iv
        (generateCredential crypto kind random.credential).secret = .ok row.secretEncrypted := by
  cases h with
  | @created db db' _ _ random data minted hdrawn hiv h =>
    unfold SigningKeyFacade.createSigningKey at h
    dsimp only at h
    split at h
    · cases h
    · rename_i encoded henc
      obtain ⟨rfl, hstore⟩ := commit_ok h
      refine ⟨?_, _, random, ?_, hdrawn, hiv, rfl, rfl, henc⟩
      · rw [hstore]
        exact List.mem_append_right _ List.mem_cons_self
      · unfold SigningKeyFacade.keyKind
        split
        · exact .inr rfl
        · exact .inl rfl
  | @imported host draws _ _ _ doc _ i key minted hcrypto hcipher hconfig hdrawn hiv h hkey hminted
      href =>
    have hc := facade_completed h
    rw [hc.minted] at hminted
    obtain ⟨encoded, henc⟩ := hc.encrypted i key hkey
    refine ⟨?_, "sk_live", draws.signingKeyBytes i, .inl rfl, hdrawn i, hiv i, ?_, ?_, ?_⟩
    · rw [hc.stored, Store.signingKeys_append, signingKeys_created]
      exact List.mem_append_right _ (mem_mapIdx_iff.2 ⟨i, key, hkey, rfl⟩)
    · rw [signingKey_at hc.distinct hkey hminted href, generatedKey, hcrypto]
    · rw [← hcrypto]
      rfl
    · rw [createdKeyRow, henc, ← hcipher, ← hconfig, ← hcrypto]
      exact henc

theorem kidPattern_generated {crypto : Crypto} {kind : String} (hkind : IsKeyKind kind)
    {random : CredentialBytes} (hdrawn : random.Drawn) :
    kidPattern (generateCredential crypto kind random).keyId = true := by
  rcases hkind with rfl | rfl
  · exact keyIdPattern_generated "sk" "live" (.inl rfl) hdrawn
  · exact keyIdPattern_generated "sk" "sandbox" (.inr rfl) hdrawn

theorem subPattern_of_minted {crypto : Crypto} {accessToken : String} {row a : ActorToken}
    {s : Store} (h : MintedActor crypto accessToken row s) (hsame : SameActor row a) :
    subPattern a.keyId = true := by
  obtain ⟨-, random, hdrawn, -, hkeyId, -⟩ := h.generated
  rw [hsame.keyId, hkeyId]
  exact keyIdPattern_generated "at" "live" (.inl rfl) hdrawn

/-- The cipher the service decrypts with inverts the one it encrypts with. -/
structure DecryptsWith (env : Env) (cipher : CipherLibrary) : Prop where
  inverts : cipher.Inverts
  wired : ∀ encoded key, env.lib.decryptSecret encoded key = (cipher.decryptSecret encoded key).toOption

theorem decrypts_of_minted {env : Env} {cipher : CipherLibrary} (hcipher : DecryptsWith env cipher)
    {random : SigningKeyFacade.SigningKeyBytes} {kind : String}
    (hiv : random.iv.length = CipherLibrary.ivLength) {row : SigningKey}
    (henc : SigningKeyFacade.encryptForStorage cipher.encryptSecret env.config random.iv
      (generateCredential env.crypto kind random.credential).secret = .ok row.secretEncrypted) :
    Decrypts env.lib env.config row (generateCredential env.crypto kind random.credential).secret := by
  obtain ⟨key, hkey, hne, henc⟩ := encryptForStorage_ok henc
  refine ⟨key, hkey, hne, ?_⟩
  have hplain := CipherLibrary.decryptSecret_encryptSecret hcipher.inverts hiv henc
  rw [hcipher.wired, hplain]
  rfl

theorem MintedKey.signingCredential {env : Env} {cipher : CipherLibrary}
    (hcipher : DecryptsWith env cipher) (signer : JwtSigner) {signingKey : String} {row : SigningKey}
    {s : Store} (h : MintedKey env.crypto cipher env.config signingKey row s) :
    SigningCredential env signer signingKey row := by
  obtain ⟨-, kind, random, hkind, hdrawn, hiv, rfl, hkeyId, henc⟩ := h.generated
  have hdot : '.' ∉ kind.toList := by
    rcases hkind with rfl | rfl <;> decide
  have hparts := splitCredential_generated env.crypto kind hdot hdrawn
  rw [← hkeyId] at hparts
  refine ⟨⟨_, hparts⟩, ?_⟩
  intro secret history auth s now k a payload exp hsplit hverifies hv hk hklive hkactive hsameKey ha
    halive haactive haunexpired hproject hminted hsub hexp hfrom hto hhistory
  rw [hparts] at hsplit
  cases hsplit
  obtain ⟨resolved, hresolved, hsecret, hentity⟩ := resolve_minted
    (decrypts_of_minted hcipher hiv henc) hhistory hv hk hklive hkactive hsameKey now
  obtain ⟨accessToken, mintedRow, s₀, hactor, hsame⟩ := hminted
  have hkid : kidPattern row.keyId = true := hkeyId ▸ kidPattern_generated hkind hdrawn
  have hverified := verifyClientToken_signed hverifies hkid hresolved hsecret hsub
    (subPattern_of_minted hactor hsame) hexp hfrom hto
  refine ⟨JwtSigner.isClientTokenJwt_sign, ⟨resolved.entity, hentity, hverified⟩, ?_⟩
  have hfind : getActiveActorByKeyId s now a.keyId = some a := by
    have hrow : ActorTokens.findByKeyId s a.keyId = some a :=
      findOne_of_unique ha halive (decide_eq_true rfl) fun r hr _ hid =>
        hv.actorKeyId.eq_of_key hr ha (of_decide_eq_true hid)
    have husable : isUsable now a = true := by
      simp [isUsable, haactive, haunexpired]
    rw [getActiveActorByKeyId, hrow]
    exact if_pos husable
  have hsameProject : a.projectId = resolved.entity.projectId :=
    hproject.trans (hsameKey.projectId.trans hentity.projectId.symm)
  unfold validateActor
  rw [if_pos JwtSigner.isClientTokenJwt_sign]
  unfold validateClientToken
  dsimp only
  rw [hverified]
  dsimp only
  rw [hfind]
  dsimp only
  rw [if_neg (not_not.2 hsameProject)]
  unfold clientSession
  cases buildSessionPayload env.config s now a <;> rfl

/-- Every minted credential works, and only for what it was minted for. -/
theorem minted_credentials_work (env : Env) (cipher : CipherLibrary) (signer : JwtSigner)
    (hcipher : DecryptsWith env cipher) :
    (∀ accessToken row s, MintedActor env.crypto accessToken row s →
      row ∈ s.actorTokens ∧ ActorCredential env.crypto accessToken row) ∧
    (∀ signingKey row s, MintedKey env.crypto cipher env.config signingKey row s →
      row ∈ s.signingKeys ∧ SigningCredential env signer signingKey row) := by
  refine ⟨fun accessToken row s h => ?_, fun signingKey row s h => ?_⟩
  · obtain ⟨hrow, random, hdrawn, rfl, hkeyId, hhash⟩ := h.generated
    exact ⟨hrow, actorCredential_generated hdrawn hkeyId hhash⟩
  · exact ⟨h.generated.1, h.signingCredential hcipher signer⟩

/-! ## Sample -/

def samplePayload : JwtPayload where
  sub := some (.text "at_live_000000000000")
  exp := some (.number 60)
  iat := some (.number 0)

/-- The JSON of `samplePayload` and the HMAC of the token it goes into, under the minted secret. -/
def sampleSigner : JwtSigner where
  payloadBytes _ := asciiBytes "\x7b\"sub\":\"at_live_000000000000\",\"iat\":0,\"exp\":60\x7d"
  hmacSha256 _ _ := [103, 158, 55, 83, 96, 69, 56, 185, 229, 133, 88, 132, 153, 72, 65, 252, 201, 168,
    122, 221, 28, 102, 55, 76, 14, 157, 133, 33, 68, 173, 45, 41]

def sampleMinted : GeneratedCredential := generateCredential sampleCrypto "sk_live" sampleBytes

def sampleJwt : String := sampleSigner.sign sampleMinted.keyId samplePayload sampleMinted.secret

/-- A library that knows this one token. -/
def sampleJwtLibrary : TokenLibrary where
  decode token := if token = sampleJwt then
    .token (some (.text "HS256")) (some (.text sampleMinted.keyId)) else .null
  verify token secret _ tolerance now :=
    if token = sampleJwt ∧ secret = sampleMinted.secret ∧
        ((now / 1000 : Int) : Rat) < 60 + (tolerance : Int) then some samplePayload
    else none
  decryptSecret encoded key := (sampleCipherLibrary.decryptSecret encoded key).toOption

theorem sampleJwt_verifies :
    sampleSigner.Verifies sampleJwtLibrary sampleMinted.keyId samplePayload sampleMinted.secret where
  decode := by
    rw [← sampleJwt]
    simp only [sampleJwtLibrary, if_true]
  verify := by
    intro tolerance now exp hexp hlt
    have hsixty : exp = 60 := by
      cases hexp
      rfl
    rw [hsixty] at hlt
    rw [← sampleJwt]
    simp only [sampleJwtLibrary, true_and, if_pos hlt]

def mintingEnv : Env where
  config := keyedHost.config
  crypto := sampleCrypto
  lib := sampleJwtLibrary

theorem mintingEnv_decrypts : DecryptsWith mintingEnv sampleCipherLibrary :=
  ⟨sampleCipherLibrary_inverts, fun _ _ => rfl⟩

/-- The actor and the key of a document, presented right after the import. -/
theorem minted_credentials_work_sample : ∃ credentials db',
    ProjectConfigFacade.importProject keyedHost keyedDraws 0 Database.empty sampleDoc =
      .ok (credentials, db') ∧
    (∃ minted ∈ credentials.actors, ∃ row ∈ db'.store.actorTokens,
      (authenticateActorToken sampleCrypto db'.store 0 { ttlMs := 60000 } minted.credential).1 =
        some row) ∧
    ∃ minted ∈ credentials.signingKeys, minted.credential = sampleMinted.credential ∧
      ∃ a ∈ db'.store.actorTokens, (validateActor mintingEnv db'.store 0 {} sampleJwt).1 =
        .ok (clientSession mintingEnv db'.store 0 a 60) := by
  obtain ⟨hactors, hkeys⟩ := minted_credentials_work mintingEnv sampleCipherLibrary sampleSigner
    mintingEnv_decrypts
  obtain ⟨credentials, db', himport⟩ := sampleDoc_imported
  have hc := facade_completed himport
  have hdrawn : sampleBytes.Drawn := ⟨rfl, rfl⟩
  have halice : ⟨"alice", (credentialOf keyedHost keyedDraws 0).keyId,
      (credentialOf keyedHost keyedDraws 0).credential⟩ ∈ credentials.actors := by
    rw [hc.minted]
    exact List.mem_cons_self
  have hsigner : ⟨"key", (generatedKey keyedHost keyedDraws 0).keyId,
      (generatedKey keyedHost keyedDraws 0).credential⟩ ∈ credentials.signingKeys := by
    rw [hc.minted]
    exact List.mem_cons_self
  have hactor : MintedActor sampleCrypto (credentialOf keyedHost keyedDraws 0).credential _ _ :=
    .imported (i := 0) rfl (fun _ => hdrawn) himport rfl halice rfl
  have hkey : MintedKey sampleCrypto sampleCipherLibrary keyedHost.config
      (generatedKey keyedHost keyedDraws 0).credential _ _ :=
    .imported (i := 0) rfl rfl rfl (fun _ => hdrawn) (fun _ => rfl) himport rfl hsigner rfl
  obtain ⟨hrow, hcredential⟩ := hactors _ _ _ hactor
  obtain ⟨hkeyRow, hsigning⟩ := hkeys _ _ _ hkey
  refine ⟨credentials, db', himport, ?_, ?_⟩
  · obtain ⟨e, he, -, hexact⟩ := hcredential.authenticates [] db'.store 0 _ db'.valid hrow rfl rfl rfl
      (.refl _) (fun _ h => nomatch h)
    rw [hexact fun _ h => nomatch h] at he
    exact ⟨_, halice, _, hrow, he⟩
  · obtain ⟨-, -, hvalid⟩ := hsigning.accepted sampleMinted.secret [] { ttlMs := 60000 } db'.store 0 _
      _ samplePayload 60 (splitCredential_generated _ _ (by decide) hdrawn) sampleJwt_verifies db'.valid
      hkeyRow rfl rfl ⟨rfl, rfl, rfl, rfl⟩ hrow rfl rfl rfl rfl ⟨_, _, _, hactor, .refl _⟩ rfl rfl
      (by norm_num) (by norm_num) (fun _ h => nomatch h)
    exact ⟨_, hsigner, rfl, _, hrow, hvalid⟩

end Authz
end NolagCore
