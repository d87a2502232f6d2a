import NolagCore.SigningKey.Service

/-!
# SigningKey.History

The kid cache over a whole history of verifications and invalidations. A cached key was read live
and active, and its secret decrypted, no longer ago than the lifetime of an entry.
-/

namespace NolagCore
namespace SigningKeys

open Lib

/-- What touches the kid cache of an instance. -/
inductive KidEvent where
  | verify (token : String)
  | invalidate (keyId : String)

/-- An event with the clock and the tables it finds. -/
structure Moment where
  now : Int
  store : Store
  event : KidEvent

variable (lib : TokenLibrary) (config : CoreConfig)

def kidCacheStep (kidCache : TtlCache ResolvedSigningKey) (m : Moment) :
    TtlCache ResolvedSigningKey :=
  match m.event with
  | .verify token => (verifyClientToken lib config m.store m.now kidCache token).2
  | .invalidate keyId => kidCache.delete keyId

/-- The kid cache of an instance after a history, oldest first. -/
def kidCacheAfter (history : List Moment) : TtlCache ResolvedSigningKey :=
  history.foldl (kidCacheStep lib config) { ttlMs := 60000 }

/-- The tables hold the key, live and active, and this is its secret. -/
structure Admits (s : Store) (kid : String) (resolved : ResolvedSigningKey) : Prop where
  row : resolved.entity ∈ s.signingKeys
  isLive : live resolved.entity = true
  keyId : resolved.entity.keyId = kid
  active : resolved.entity.status = .active
  secret : ∃ key, config.signingKeyEncryptionKey = some key ∧
    lib.decryptSecret resolved.entity.secretEncrypted key = some resolved.secret

/-- Some moment at `u` admitted the key. -/
def Vouched (moments : List (Int × Store)) (u : Int) (kid : String)
    (resolved : ResolvedSigningKey) : Prop :=
  ∃ m ∈ moments, m.1 = u ∧ Admits lib config m.2 kid resolved

variable {lib config}

theorem Vouched.append {moments more : List (Int × Store)} {u : Int} {kid : String}
    {resolved : ResolvedSigningKey} (h : Vouched lib config moments u kid resolved) :
    Vouched lib config (moments ++ more) u kid resolved := by
  obtain ⟨m, hmem, hrest⟩ := h
  exact ⟨m, List.mem_append_left more hmem, hrest⟩

theorem admits_of_admitSigningKey {s : Store} {kid : String} {resolved : ResolvedSigningKey}
    (h : admitSigningKey lib config (findByKeyId s kid) = some resolved) :
    Admits lib config s kid resolved := by
  unfold admitSigningKey at h
  split at h
  · cases h
  · rename_i entity hfind
    split at h
    · rename_i hactive
      split at h
      · cases h
      · rename_i key hkey
        split at h
        · cases h
        · obtain ⟨secret, hsecret, rfl⟩ := Option.map_eq_some_iff.1 h
          obtain ⟨hrow, hlive, hid⟩ := of_findOne hfind
          exact ⟨hrow, hlive, of_decide_eq_true hid, hactive, key, hkey, hsecret⟩
    · cases h

section Resolve

variable {moments : List (Int × Store)} {s : Store} {now : Int}
  {kidCache : TtlCache ResolvedSigningKey}

variable (s now) in
/-- What `_resolveSigningKey` returns was vouched for within the lifetime, and so is all it leaves
cached. -/
theorem resolve_vouched (hcache : kidCache.WrittenBy 60000 (Vouched lib config moments))
    (kid : String) :
    (∀ resolved, (resolveSigningKey lib config s now kidCache kid).1 = some resolved →
      ∃ u, now ≤ u + 60000 ∧ Vouched lib config (moments ++ [(now, s)]) u kid resolved) ∧
    (resolveSigningKey lib config s now kidCache kid).2.WrittenBy 60000
      (Vouched lib config (moments ++ [(now, s)])) := by
  have hcache' : kidCache.WrittenBy 60000 (Vouched lib config (moments ++ [(now, s)])) :=
    hcache.mono fun u key v h => h.append
  have hread := hcache'.get now kid
  unfold resolveSigningKey
  split
  · rename_i cached cache₁ hget
    rw [hget] at hread
    refine ⟨fun resolved hr => ?_, hread⟩
    cases hr
    exact hcache'.written _ _ _ (TtlCache.get_eq_some (by rw [hget]))
  · rename_i cache₁ hget
    rw [hget] at hread
    split
    · exact ⟨fun resolved h => (nomatch h), hread⟩
    · rename_i resolved hadmit
      have hvouched : Vouched lib config (moments ++ [(now, s)]) now kid resolved :=
        ⟨(now, s), by simp, rfl, admits_of_admitSigningKey hadmit⟩
      refine ⟨fun resolved' hr => ?_, hread.set hvouched⟩
      cases hr
      exact ⟨now, by omega, hvouched⟩

theorem kid_of_clientTokenKid {token : String} {kid : Claim}
    (h : clientTokenKid lib token = .ok (some kid)) :
    lib.decode token = .token (some (.text "HS256")) (some kid) := by
  unfold clientTokenKid at h
  split at h
  · cases h
  · split at h
    · cases h
    · cases h
    · rename_i alg kid' hdecode
      split at h
      · cases h
      · rename_i halg
        split at h
        · cases h
        · split at h
          · cases h
          · split at h
            · cases h
              rw [hdecode, not_not.1 halg]
            · cases h

/-- A verified token went through a key vouched for within the lifetime. -/
theorem verify_vouched (hcache : kidCache.WrittenBy 60000 (Vouched lib config moments))
    (token : String) :
    (∀ verified, (verifyClientToken lib config s now kidCache token).1 = .ok (some verified) →
      ∃ kid resolved u, lib.decode token = .token (some (.text "HS256")) (some (.text kid)) ∧
        now ≤ u + 60000 ∧ Vouched lib config (moments ++ [(now, s)]) u kid resolved ∧
        acceptClaims lib now token resolved = some verified) ∧
    (verifyClientToken lib config s now kidCache token).2.WrittenBy 60000
      (Vouched lib config (moments ++ [(now, s)])) := by
  have hcache' : kidCache.WrittenBy 60000 (Vouched lib config (moments ++ [(now, s)])) :=
    hcache.mono fun u key v h => h.append
  unfold verifyClientToken
  split
  · exact ⟨fun verified h => (nomatch h), hcache'⟩
  · exact ⟨fun verified h => (nomatch h), hcache'⟩
  · rename_i kid hkid
    obtain ⟨hresolved, hafter⟩ := resolve_vouched s now hcache kid
    refine ⟨fun verified h => ?_, hafter⟩
    obtain ⟨resolved, hres, haccept⟩ := Option.bind_eq_some_iff.1 (Except.ok.inj h)
    obtain ⟨u, hu, hvouched⟩ := hresolved resolved hres
    exact ⟨kid, resolved, u, kid_of_clientTokenKid hkid, hu, hvouched, haccept⟩
  · exact ⟨fun verified h => (nomatch h), hcache'⟩

end Resolve

/-- The clock and the tables of every moment of a history. -/
def moments (history : List Moment) : List (Int × Store) := history.map fun m => (m.now, m.store)

/-- The cache invariant, over any history. -/
theorem kidCache_vouched (history : List Moment) :
    (kidCacheAfter lib config history).WrittenBy 60000 (Vouched lib config (moments history)) := by
  induction history using List.reverseRecOn with
  | nil => exact TtlCache.writtenBy_empty
  | append_singleton history m ih =>
    have hstep : kidCacheAfter lib config (history ++ [m]) =
        kidCacheStep lib config (kidCacheAfter lib config history) m := by
      unfold kidCacheAfter
      rw [List.foldl_append]
      rfl
    have hmoments : moments (history ++ [m]) = moments history ++ [(m.now, m.store)] := by
      simp [moments]
    rw [hstep, hmoments]
    unfold kidCacheStep
    split
    · exact (verify_vouched ih _).2
    · exact (ih.mono fun u key v h => h.append).delete _

/-! ## What the library promises -/

/-- `jsonwebtoken` accepts a token only where its HMAC matches under the secret and it has not
expired, with the given tolerance, by the clock in whole seconds. -/
structure VerifyHonest (lib : TokenLibrary) (hmacMatches : (token secret : String) → Prop) :
    Prop where
  signature : ∀ token secret tolerance now payload,
    lib.verify token secret ["HS256"] tolerance now = some payload → hmacMatches token secret
  lifetime : ∀ token secret tolerance now payload exp,
    lib.verify token secret ["HS256"] tolerance now = some payload →
    payload.exp = some (.number exp) → ((now / 1000 : Int) : Rat) < exp + (tolerance : Int)

/-- What an accepted token claims, and what is kept of it. -/
theorem acceptClaims_iff {now : Int} {token : String} {key : ResolvedSigningKey}
    {verified : VerifiedClientToken} : acceptClaims lib now token key = some verified ↔
    ∃ payload exp sub,
      lib.verify token key.secret ["HS256"] clockSkewSeconds now = some payload ∧
      payload.exp = some (.number exp) ∧
      exp ≤ ((now / 1000 + maxTtlSeconds + clockSkewSeconds : Int) : Rat) ∧
      payload.sub = some (.text sub) ∧ subPattern sub = true ∧
      verified = { signingKey := key.entity, payload := { sub, exp, iat := payload.iat } } := by
  constructor
  · intro h
    unfold acceptClaims at h
    split at h
    · cases h
    · rename_i payload hverify
      split at h
      · rename_i exp hexp
        dsimp only at h
        split at h
        · cases h
        · rename_i hcap
          split at h
          · rename_i sub hsub
            split at h
            · rename_i hpattern
              cases h
              exact ⟨payload, exp, sub, hverify, hexp, not_lt.1 hcap, hsub, hpattern, rfl⟩
            · cases h
          · cases h
      · cases h
  · rintro ⟨payload, exp, sub, hverify, hexp, hcap, hsub, hpattern, rfl⟩
    unfold acceptClaims
    rw [hverify]
    dsimp only
    rw [hexp]
    dsimp only
    rw [if_neg (not_lt.2 hcap), hsub]
    dsimp only
    rw [if_pos hpattern]

/-- The claims of an accepted token. -/
theorem of_acceptClaims {now : Int} {token : String} {resolved : ResolvedSigningKey}
    {verified : VerifiedClientToken} (h : acceptClaims lib now token resolved = some verified) :
    ∃ claims, lib.verify token resolved.secret ["HS256"] clockSkewSeconds now = some claims ∧
      claims.exp = some (.number verified.payload.exp) ∧
      claims.sub = some (.text verified.payload.sub) ∧
      verified.payload.exp ≤ ((now / 1000 + maxTtlSeconds + clockSkewSeconds : Int) : Rat) ∧
      verified.signingKey = resolved.entity := by
  obtain ⟨claims, exp, sub, hverify, hexp, hcap, hsub, -, rfl⟩ := acceptClaims_iff.1 h
  exact ⟨claims, hverify, hexp, hsub, hcap, rfl⟩

end SigningKeys
end NolagCore
