import Mathlib.Tactic.Linarith
import NolagCore.SigningKey.History

/-!
# SigningKey.Lifetime

How long an accepted client token lives. The cap is on what is left of its life: the claim `iat` is
passed on and never looked at. A token of any lifetime is accepted once its end is within the cap.
-/

namespace NolagCore
namespace SigningKeys

open Lib

/-! ## What the library knows of a token -/

/-- What does not depend on the instant: the claims, the claim `nbf`, and whether the signature
matches under a secret. -/
structure JwtContents where
  claims : String → JwtPayload
  notBefore : String → Option Rat
  signed : (token secret : String) → Prop

/-- The instant lies within the life of the token, with the tolerance at both ends. -/
structure JwtContents.InForce (contents : JwtContents) (token : String) (tolerance now : Int) :
    Prop where
  unexpired : ∀ claim, (contents.claims token).exp = some claim →
    ∃ exp, claim = .number exp ∧ ((now / 1000 : Int) : Rat) < exp + (tolerance : Int)
  begun : ∀ nbf, contents.notBefore token = some nbf →
    nbf ≤ ((now / 1000 : Int) : Rat) + (tolerance : Int)

/-- `jwt.verify` returns the claims of a token that is signed and in force, and throws otherwise. -/
def VerifiesBy (lib : TokenLibrary) (contents : JwtContents) : Prop :=
  ∀ token secret tolerance now payload,
    lib.verify token secret ["HS256"] tolerance now = some payload ↔
      payload = contents.claims token ∧ contents.signed token secret ∧
        contents.InForce token tolerance now

/-! ## Accepted tokens -/

/-- The token is accepted at `now`, where its kid resolves to `key`. -/
def AcceptedUnder (lib : TokenLibrary) (token : String) (key : ResolvedSigningKey) (now : Int)
    (verified : VerifiedClientToken) : Prop :=
  ∃ config s kidCache kid, clientTokenKid lib token = .ok (some (.text kid)) ∧
    (resolveSigningKey lib config s now kidCache kid).1 = some key ∧
    (verifyClientToken lib config s now kidCache token).1 = .ok (some verified)

/-- An hour and the skew bound what is left of the token's life, and its whole lifetime where it says
when it was issued. -/
structure ShortLived (now : Int) (verified : VerifiedClientToken) : Prop where
  remaining : verified.payload.exp - (now : Rat) / 1000 ≤ 3660
  lifetime : ∀ iat, verified.payload.iat = some (.number iat) → verified.payload.exp - iat ≤ 3660

/-- Nothing but the instant can keep the token from being accepted under the key. -/
structure Presentable (lib : TokenLibrary) (contents : JwtContents) (token : String)
    (key : ResolvedSigningKey) : Prop where
  kid : ∃ kid, clientTokenKid lib token = .ok (some (.text kid))
  signed : contents.signed token key.secret
  sub : ∃ sub, (contents.claims token).sub = some (.text sub) ∧ subPattern sub = true
  begins : ∀ nbf exp, contents.notBefore token = some nbf →
    (contents.claims token).exp = some (.number exp) → (⌈nbf⌉ : Rat) < exp + 120

/-- A presentable token that says when it was issued was issued for an hour and the skew at most. -/
def LifetimeCapped (lib : TokenLibrary) (contents : JwtContents) (token : String)
    (key : ResolvedSigningKey) : Prop :=
  Presentable lib contents token key → ∀ exp iat,
    (contents.claims token).exp = some (.number exp) →
    (contents.claims token).iat = some (.number iat) → exp - iat ≤ 3660

section

variable {lib : TokenLibrary} {contents : JwtContents} {token : String} {key : ResolvedSigningKey}
  {now : Int} {verified : VerifiedClientToken}

/-- Every accepted token is accepted under some key. -/
theorem acceptedUnder_of_verify {config : CoreConfig} {s : Store}
    {kidCache : TtlCache ResolvedSigningKey}
    (h : (verifyClientToken lib config s now kidCache token).1 = .ok (some verified)) :
    ∃ key, AcceptedUnder lib token key now verified := by
  have hfull := h
  unfold verifyClientToken at h
  split at h
  · cases h
  · cases h
  · rename_i kid hkid
    obtain ⟨key, hkey, -⟩ := Option.bind_eq_some_iff.1 (Except.ok.inj h)
    exact ⟨key, config, s, kidCache, kid, hkid, hkey, hfull⟩
  · cases h

theorem acceptClaims_of_under (h : AcceptedUnder lib token key now verified) :
    acceptClaims lib now token key = some verified := by
  obtain ⟨config, s, kidCache, kid, hkid, hkey, hverify⟩ := h
  unfold verifyClientToken at hverify
  rw [hkid] at hverify
  dsimp only at hverify
  rw [hkey] at hverify
  exact Except.ok.inj hverify

theorem cap_eq (n : Int) :
    ((n + maxTtlSeconds + clockSkewSeconds : Int) : Rat) = (n : Rat) + 3660 := by
  simp only [maxTtlSeconds, clockSkewSeconds]
  push_cast
  ring

/-- The cap bounds what is left of the life of every accepted token. -/
theorem remaining_le_cap (h : acceptClaims lib now token key = some verified) :
    verified.payload.exp - (now : Rat) / 1000 ≤ 3660 := by
  obtain ⟨payload, exp, sub, _, _, hcap, _, _, rfl⟩ := acceptClaims_iff.1 h
  have hfloor : ((now / 1000 : Int) : Rat) ≤ (now : Rat) / 1000 := by
    rw [le_div_iff₀ (by norm_num)]
    exact_mod_cast Int.ediv_mul_le now (by norm_num)
  rw [cap_eq] at hcap
  linarith

/-- The first second within the cap, or the one from which the token counts: both come before its
end. -/
theorem exists_second {exp : Rat} {notBefore : Option Rat}
    (h : ∀ nbf, notBefore = some nbf → (⌈nbf⌉ : Rat) < exp + 120) :
    ∃ n : Int, exp ≤ (n : Rat) + 3660 ∧ (n : Rat) < exp + 60 ∧
      ∀ nbf, notBefore = some nbf → nbf ≤ (n : Rat) + 60 := by
  have hlow : (⌈exp⌉ : Rat) < exp + 1 := Int.ceil_lt_add_one exp
  have hup : exp ≤ (⌈exp⌉ : Rat) := Int.le_ceil exp
  cases notBefore with
  | none =>
    refine ⟨⌈exp⌉ - 3660, ?_, ?_, fun _ hn => by cases hn⟩
    · push_cast
      linarith
    · push_cast
      linarith
  | some nbf =>
    have hbegins := h nbf rfl
    have hnbf : nbf ≤ (⌈nbf⌉ : Rat) := Int.le_ceil nbf
    refine ⟨max (⌈exp⌉ - 3660) (⌈nbf⌉ - 60), ?_, ?_, fun _ hn => ?_⟩
    · have hmax : ((⌈exp⌉ - 3660 : Int) : Rat) ≤ (max (⌈exp⌉ - 3660) (⌈nbf⌉ - 60) : Int) := by
        exact_mod_cast le_max_left _ _
      push_cast at hmax ⊢
      linarith
    · push_cast
      rw [max_lt_iff]
      constructor
      · linarith
      · linarith
    · cases hn
      have hmax : ((⌈nbf⌉ - 60 : Int) : Rat) ≤ (max (⌈exp⌉ - 3660) (⌈nbf⌉ - 60) : Int) := by
        exact_mod_cast le_max_right _ _
      push_cast at hmax ⊢
      linarith

theorem resolve_of_holds {config : CoreConfig} {s : Store} {kid : String}
    {kidCache : TtlCache ResolvedSigningKey} (h : kidCache.Holds now kid key) :
    (resolveSigningKey lib config s now kidCache kid).1 = some key := by
  have hget := TtlCache.get_of_holds h
  unfold resolveSigningKey
  split
  · rename_i cached cache heq
    rw [heq] at hget
    exact hget
  · rename_i cache heq
    rw [heq] at hget
    cases hget

variable (hverify : VerifiesBy lib contents)
include hverify

/-- An accepted token was presentable, and its claims are those of the token. -/
theorem presentable_of_under (h : AcceptedUnder lib token key now verified) :
    Presentable lib contents token key ∧
      (contents.claims token).exp = some (.number verified.payload.exp) ∧
      (contents.claims token).iat = verified.payload.iat := by
  obtain ⟨payload, exp, sub, hlib, hexp, _, hsub, hpattern, rfl⟩ :=
    acceptClaims_iff.1 (acceptClaims_of_under h)
  obtain ⟨_, _, _, kid, hkid, _, _⟩ := h
  obtain ⟨rfl, hsigned, hforce⟩ := (hverify _ _ _ _ _).1 hlib
  refine ⟨⟨⟨kid, hkid⟩, hsigned, ⟨sub, hsub, hpattern⟩, fun nbf exp' hnbf hexp' => ?_⟩, hexp, rfl⟩
  obtain ⟨_, heq, hend⟩ := hforce.unexpired _ hexp'
  cases heq
  have hbegun := hforce.begun nbf hnbf
  have hceil : ⌈nbf⌉ ≤ now / 1000 + clockSkewSeconds := by
    rw [Int.ceil_le]
    push_cast
    exact hbegun
  have hceil' : (⌈nbf⌉ : Rat) ≤ ((now / 1000 : Int) : Rat) + 60 := by
    have hcast : (⌈nbf⌉ : Rat) ≤ ((now / 1000 + clockSkewSeconds : Int) : Rat) := by
      exact_mod_cast hceil
    simpa [clockSkewSeconds] using hcast
  have hend' : ((now / 1000 : Int) : Rat) < exp' + 60 := by simpa [clockSkewSeconds] using hend
  linarith

/-- A presentable token is accepted once no more of its life is left than the cap allows, however
long it was issued for. -/
theorem accepted_in_last_hour (h : Presentable lib contents token key) {exp : Rat}
    (hexp : (contents.claims token).exp = some (.number exp)) :
    ∃ now verified, AcceptedUnder lib token key now verified ∧ verified.payload.exp = exp ∧
      verified.payload.iat = (contents.claims token).iat := by
  obtain ⟨kid, hkid⟩ := h.kid
  obtain ⟨sub, hsub, hpattern⟩ := h.sub
  obtain ⟨n, hcap, hend, hbegun⟩ := exists_second fun nbf hnbf => h.begins nbf exp hnbf hexp
  have hseconds : n * 1000 / 1000 = n := Int.mul_ediv_cancel n (by norm_num)
  have hforce : contents.InForce token clockSkewSeconds (n * 1000) := by
    constructor
    · intro claim hclaim
      cases hexp.symm.trans hclaim
      refine ⟨exp, rfl, ?_⟩
      rw [hseconds]
      simpa [clockSkewSeconds] using hend
    · intro nbf hnbf
      rw [hseconds]
      simpa [clockSkewSeconds] using hbegun nbf hnbf
  let verified : VerifiedClientToken :=
    { signingKey := key.entity
      payload := { sub, exp, iat := (contents.claims token).iat } }
  have haccept : acceptClaims lib (n * 1000) token key = some verified := by
    refine acceptClaims_iff.2 ⟨contents.claims token, exp, sub,
      (hverify _ _ _ _ _).2 ⟨rfl, h.signed, hforce⟩, hexp, ?_, hsub, hpattern, rfl⟩
    rw [hseconds, cap_eq]
    exact hcap
  let kidCache : TtlCache ResolvedSigningKey :=
    { ttlMs := 60000, cache := OrderedMap.empty.set kid ⟨key, n * 1000⟩ }
  have hholds : kidCache.Holds (n * 1000) kid key :=
    ⟨⟨key, n * 1000⟩, OrderedMap.get?_set_self _ _ _, le_refl _, rfl⟩
  have hresolved : (resolveSigningKey lib {} {} (n * 1000) kidCache kid).1 = some key :=
    resolve_of_holds hholds
  refine ⟨n * 1000, verified, ⟨{}, {}, kidCache, kid, hkid, hresolved, ?_⟩, rfl, rfl⟩
  unfold verifyClientToken
  rw [hkid]
  dsimp only
  rw [hresolved, Option.bind_some, haccept]

end

/-- What is left of an accepted token's life is always within the cap. Its whole lifetime is, at every
instant at which it is accepted, exactly where it was issued for no longer. -/
theorem short_lived_iff (lib : TokenLibrary) (contents : JwtContents)
    (hverify : VerifiesBy lib contents) (token : String) (key : ResolvedSigningKey) :
    (∀ now verified, AcceptedUnder lib token key now verified → ShortLived now verified) ↔
      LifetimeCapped lib contents token key := by
  constructor
  · intro hall hpresentable exp iat hexp hiat
    obtain ⟨now, verified, hunder, rfl, hsame⟩ := accepted_in_last_hour hverify hpresentable hexp
    exact (hall now verified hunder).lifetime iat (hsame.trans hiat)
  · intro hcapped now verified hunder
    obtain ⟨hpresentable, hexp, hiat⟩ := presentable_of_under hverify hunder
    exact ⟨remaining_le_cap (acceptClaims_of_under hunder), fun iat h =>
      hcapped hpresentable _ iat hexp (hiat.trans h)⟩

/-! ## A token of two hours -/

def longSecret : String := "AAAAAAAAAAAAAAAAAAAAAAAAAAAAAAAAAAAAAAAAAAA"

/-- `{"alg":"HS256","typ":"JWT","kid":"sk_live_000000000000"}` and
`{"sub":"at_live_000000000000","iat":0,"exp":7200}`, signed with the secret. -/
def longToken : String :=
  "eyJhbGciOiJIUzI1NiIsInR5cCI6IkpXVCIsImtpZCI6InNrX2xpdmVfMDAwMDAwMDAwMDAwIn0." ++
  "eyJzdWIiOiJhdF9saXZlXzAwMDAwMDAwMDAwMCIsImlhdCI6MCwiZXhwIjo3MjAwfQ." ++
  "EuOVLZeomRxopgauJ-PG1Uf8K-3eH5b1y22tcLHUaPY"

def longPayload : JwtPayload where
  sub := some (.text "at_live_000000000000")
  exp := some (.number 7200)
  iat := some (.number 0)

def longContents : JwtContents where
  claims _ := longPayload
  notBefore _ := none
  signed token secret := token = longToken ∧ secret = longSecret

/-- The libraries on that token and that secret. -/
def longLibrary : TokenLibrary where
  decode token := if token = longToken then
    .token (some (.text "HS256")) (some (.text "sk_live_000000000000")) else .null
  verify token secret _ tolerance now :=
    if (token = longToken ∧ secret = longSecret) ∧
        ((now / 1000 : Int) : Rat) < 7200 + (tolerance : Int) then some longPayload else none
  decryptSecret encoded _ := if encoded = "sealed" then some longSecret else none

theorem longLibrary_verifies : VerifiesBy longLibrary longContents := by
  intro token secret tolerance now payload
  have hforce : longContents.InForce token tolerance now ↔
      ((now / 1000 : Int) : Rat) < 7200 + (tolerance : Int) := by
    constructor
    · intro h
      obtain ⟨exp, heq, hlt⟩ := h.unexpired _ rfl
      cases heq
      exact hlt
    · intro h
      refine ⟨fun claim hclaim => ?_, fun nbf hnbf => by cases hnbf⟩
      cases hclaim
      exact ⟨7200, rfl, h⟩
  rw [hforce]
  simp only [longLibrary, longContents]
  split
  · rename_i h
    simp [h, eq_comm]
  · rename_i h
    simp only [reduceCtorEq, false_iff, not_and]
    exact fun _ hs hlt => h ⟨hs, hlt⟩

def longKey : SigningKey where
  signingKeyId := .of "k"
  projectId := .of "p"
  keyId := "sk_live_000000000000"
  secretEncrypted := "sealed"
  name := "Key"

theorem longToken_presentable :
    Presentable longLibrary longContents longToken { entity := longKey, secret := longSecret } where
  kid := ⟨"sk_live_000000000000", by decide +kernel⟩
  signed := ⟨rfl, rfl⟩
  sub := ⟨"at_live_000000000000", rfl, by decide⟩
  begins := by
    intro nbf exp hnbf
    cases hnbf

theorem short_lived_iff_long :
    ((∀ now verified, AcceptedUnder longLibrary longToken
        { entity := longKey, secret := longSecret } now verified → ShortLived now verified) ↔
      LifetimeCapped longLibrary longContents longToken
        { entity := longKey, secret := longSecret }) ∧
      Presentable longLibrary longContents longToken { entity := longKey, secret := longSecret } :=
  ⟨short_lived_iff longLibrary longContents longLibrary_verifies longToken _, longToken_presentable⟩

def longKeys : Database where
  store := { projects := [{ projectId := .of "p", name := "Project" }], signingKeys := [longKey] }
  valid := by decide

def longConfig : CoreConfig where
  signingKeyEncryptionKey := some "key"

theorem longToken_accepted :
    (verifyClientToken longLibrary longConfig longKeys.store 5000000 { ttlMs := 60000 }
      longToken).1 = .ok (some
        { signingKey := longKey
          payload := { sub := "at_live_000000000000", exp := 7200, iat := some (.number 0) } }) := by
  decide +kernel

/-- Issued for two hours, the token is accepted 5000 seconds after its issue. -/
theorem long_token_accepted :
    ¬ ∀ (lib : TokenLibrary) (contents : JwtContents), VerifiesBy lib contents →
      ∀ (config : CoreConfig) (s : Store) (now : Int) (kidCache : TtlCache ResolvedSigningKey)
        (token : String) (verified : VerifiedClientToken),
        (verifyClientToken lib config s now kidCache token).1 = .ok (some verified) →
          ShortLived now verified := by
  intro hevery
  have hshort := hevery longLibrary longContents longLibrary_verifies longConfig longKeys.store
    5000000 { ttlMs := 60000 } longToken _ longToken_accepted
  have hlifetime := hshort.lifetime 0 rfl
  norm_num at hlifetime

end SigningKeys
end NolagCore
