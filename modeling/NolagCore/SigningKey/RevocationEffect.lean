import NolagCore.SigningKey.Revocation

/-!
# SigningKey.RevocationEffect

Runs in which no verification fills the cache with the key after its entry was dropped. From the
return of the revoking call on, the cache has no entry of the key and the database no active row of
it, so every verification that begins then answers null.
-/

namespace NolagCore
namespace SigningKeyFacade

open Lib SigningKeys

/-- No active row has the key id. -/
def Revoked (kid : String) (s : Store) : Prop :=
  ∀ row, findByKeyId s kid = some row → row.status ≠ .active

theorem admit_of_revoked {lib : TokenLibrary} {config : CoreConfig} {kid : String} {s : Store}
    (h : Revoked kid s) : admitSigningKey lib config (findByKeyId s kid) = none := by
  unfold admitSigningKey
  cases hrow : findByKeyId s kid with
  | none => rfl
  | some row => simp only [if_neg (h row hrow)]

theorem of_findByKeyId {s : Store} {kid : String} {row : SigningKey}
    (h : findByKeyId s kid = some row) : row ∈ s.signingKeys ∧ live row = true ∧ row.keyId = kid := by
  obtain ⟨hrow, hl, hk⟩ := of_findOne h
  exact ⟨hrow, hl, of_decide_eq_true hk⟩

/-! ## The revoking transaction -/

theorem revoked_of_update {db db' : Database} {signingKeyId projectId : Uuid} {name : Option String}
    {row row₀ : SigningKey} (hkey : findByIdAndProject db.store signingKeyId projectId = some row₀)
    (h : updateSigningKey db signingKeyId projectId { name, status := some .disabled } =
      .ok (row, db')) : row.keyId = row₀.keyId ∧ Revoked row₀.keyId db'.store := by
  unfold updateSigningKey patchSigningKey at h
  rw [hkey] at h
  obtain ⟨rfl, hs⟩ := commit_ok h
  refine ⟨rfl, ?_⟩
  intro row hfind hactive
  obtain ⟨hrow, -, hkid⟩ := of_findByKeyId hfind
  have hsaved : { row₀ with name := patch name row₀.name, status := .disabled } ∈
      db'.store.signingKeys := by
    rw [hs]
    exact List.mem_map.2 ⟨row₀, (of_findOne hkey).1, if_pos rfl⟩
  have heq := db'.valid.signingKeyId.eq_of_key hrow hsaved hkid
  rw [heq] at hactive
  cases hactive

theorem revoked_of_delete {db db' : Database} {signingKeyId projectId : Uuid} {now : Int}
    {row row₀ : SigningKey} (hkey : findByIdAndProject db.store signingKeyId projectId = some row₀)
    (h : deleteSigningKey db now signingKeyId projectId = .ok (row, db')) :
    row.keyId = row₀.keyId ∧ Revoked row₀.keyId db'.store := by
  unfold deleteSigningKey at h
  rw [hkey] at h
  obtain ⟨heq, hs⟩ := commit_ok h
  refine ⟨by rw [heq], ?_⟩
  intro row hfind _
  obtain ⟨hrow, hlive, hkid⟩ := of_findByKeyId hfind
  obtain ⟨hrow₀, hlive₀, hid⟩ := of_findOne hkey
  have hstamped : { row₀ with deletedAt := some now } ∈ db'.store.signingKeys := by
    rw [hs]
    refine List.mem_map.2 ⟨row₀, hrow₀, if_pos ?_⟩
    simp only [hid, hlive₀]
    rfl
  rw [db'.valid.signingKeyId.eq_of_key hrow hstamped hkid] at hlive
  cases hlive

theorem revoked_of_apply {request : Revocation} {db db' : Database} {signingKeyId projectId : Uuid}
    {row row₀ : SigningKey} (hkey : findByIdAndProject db.store signingKeyId projectId = some row₀)
    (h : request.apply db signingKeyId projectId = .ok (row, db')) :
    row.keyId = row₀.keyId ∧ Revoked row₀.keyId db'.store := by
  cases request with
  | disable name => exact revoked_of_update hkey h
  | delete now => exact revoked_of_delete hkey h

/-! ## The cache -/

theorem holds_of_entered {lib : TokenLibrary} {now t : Int}
    {kidCache : TtlCache ResolvedSigningKey} {token key : String} {v : ResolvedSigningKey}
    (h : (entered lib now kidCache token).2.Holds t key v) : kidCache.Holds t key v := by
  unfold entered at h
  split at h
  · exact h
  · rename_i kid _
    have hget := @TtlCache.holds_of_get _ kidCache now t kid key v
    split at h
    · rename_i heq
      rw [heq] at hget
      exact hget h
    · rename_i heq
      rw [heq] at hget
      exact hget h
  · exact h

theorem holds_of_filled {lib : TokenLibrary} {config : CoreConfig} {now t : Int}
    {kidCache : TtlCache ResolvedSigningKey} {kid key : String} {row : Option SigningKey}
    {v : ResolvedSigningKey} (h : (filled lib config now kidCache kid row).2.Holds t key v) :
    (key = kid ∧ admitSigningKey lib config row ≠ none) ∨ kidCache.Holds t key v := by
  unfold filled at h
  split at h
  · exact .inr h
  · rename_i hadmits
    rcases TtlCache.holds_of_set h with ⟨hk, -, -⟩ | hold
    · exact .inl ⟨hk, by rw [hadmits]; nofun⟩
    · exact .inr hold

/-! ## Steps -/

/-- No verification fills the cache with the key after its entry was dropped. -/
def NoLateFill (lib : TokenLibrary) (config : CoreConfig) (kid : String) (st : Instance) :
    Statement → Prop
  | .fill c _ => match st.calls c with
    | some (_, .read kid' row) =>
      kid' = kid → st.revoke.dropped = true → admitSigningKey lib config row = none
    | _ => True
  | _ => True

instance (lib : TokenLibrary) (config : CoreConfig) (kid : String) (st : Instance) (l : Statement) :
    Decidable (NoLateFill lib config kid st l) := by
  unfold NoLateFill
  split
  · split <;> infer_instance
  · infer_instance

/-- What holds before, during and after the revoking call on the key `kid` of `db₀`. -/
structure Inv (kid : String) (db₀ : Database) (st : Instance) : Prop where
  uncommitted : st.revoke ≠ .returned true → st.db = db₀
  written : ∀ keyId db, st.revoke = .written keyId db → keyId = kid ∧ Revoked kid db.store
  invalidated : ∀ db, st.revoke = .invalidated db → Revoked kid db.store
  committed : st.revoke = .returned true → Revoked kid st.db.store
  dropped : st.revoke.dropped = true → ∀ t v, ¬ st.kidCache.Holds t kid v

section

variable {lib : TokenLibrary} {config : CoreConfig} {request : Revocation}
  {signingKeyId projectId : Uuid} {db₀ : Database} {row₀ : SigningKey}

theorem inv_init (kid : String) (kidCache : TtlCache ResolvedSigningKey) :
    Inv kid db₀ (Instance.init db₀ kidCache) where
  uncommitted := fun _ => rfl
  written := by intro keyId db h; cases h
  invalidated := by intro db h; cases h
  committed := by intro h; cases h
  dropped := by intro h; cases h

/-- A statement of a verification. -/
theorem Inv.verification {kid : String} {st : Instance} (h : Inv kid db₀ st)
    {kidCache : TtlCache ResolvedSigningKey} {calls : Pool String VerifyPhase}
    (hcache : st.revoke.dropped = true → ∀ t v, kidCache.Holds t kid v → st.kidCache.Holds t kid v) :
    Inv kid db₀ { st with kidCache := kidCache, calls := calls } where
  uncommitted := h.uncommitted
  written := h.written
  invalidated := h.invalidated
  committed := h.committed
  dropped := fun hd t v hold => h.dropped hd t v (hcache hd t v hold)

/-- A statement of the revoking call up to its write. -/
theorem Inv.revoking {kid : String} {st : Instance} (h : Inv kid db₀ st) {phase : RevokePhase}
    (hbefore : st.revoke ≠ .returned true) (hafter : phase.dropped = false)
    (hwritten : ∀ keyId db, phase = .written keyId db → keyId = kid ∧ Revoked kid db.store) :
    Inv kid db₀ { st with revoke := phase } where
  uncommitted := fun _ => h.uncommitted hbefore
  written := hwritten
  invalidated := by
    rintro db rfl
    cases hafter
  committed := by
    rintro rfl
    cases hafter
  dropped := by
    intro hd
    rw [hafter] at hd
    cases hd

theorem inv_step (hkey : findByIdAndProject db₀.store signingKeyId projectId = some row₀)
    {st st' : Instance} {l : Statement} (h : Inv row₀.keyId db₀ st)
    (hC : NoLateFill lib config row₀.keyId st l)
    (hstep : step lib config request signingKeyId projectId st l = some st') :
    Inv row₀.keyId db₀ st' := by
  cases of_step hstep with
  | missing hr => exact h.revoking (by rw [hr]; nofun) rfl nofun
  | lock hr => exact h.revoking (by rw [hr]; nofun) rfl nofun
  | load hr => exact h.revoking (by rw [hr]; nofun) rfl nofun
  | refused hr => exact h.revoking (by rw [hr]; nofun) rfl nofun
  | write hr happly =>
    rw [h.uncommitted (by rw [hr]; nofun)] at happly
    refine h.revoking (by rw [hr]; nofun) rfl ?_
    intro keyId db heq
    cases heq
    exact revoked_of_apply hkey happly
  | invalidate hr =>
    obtain ⟨rfl, hrevoked⟩ := h.written _ _ hr
    refine ⟨fun _ => h.uncommitted (by rw [hr]; nofun), nofun, ?_, nofun, ?_⟩
    · intro db heq
      cases heq
      exact hrevoked
    · intro _ t v hold
      exact (TtlCache.holds_of_delete hold).1 rfl
  | commit hr =>
    refine ⟨fun hne => absurd rfl hne, nofun, nofun, fun _ => h.invalidated _ hr, ?_⟩
    intro _
    exact h.dropped (by rw [hr]; rfl)
  | verify _ => exact h.verification fun _ t v hold => holds_of_entered hold
  | select _ => exact h.verification fun _ t v hold => hold
  | fill hc =>
    refine h.verification fun hd t v hold => ?_
    rcases holds_of_filled hold with ⟨hk, hadmits⟩ | hold
    · simp only [NoLateFill, hc] at hC
      exact absurd (hC hk.symm hd) hadmits
    · exact hold
  | accept _ => exact h.verification fun _ t v hold => hold

/-! ## Verifications that begin afterwards -/

/-- The header of the token names the key. -/
def Carries (lib : TokenLibrary) (kid token : String) : Prop :=
  ∃ alg, lib.decode token = .token alg (some (.text kid))

theorem kid_of_carries {kid token : String} (h : Carries lib kid token) :
    clientTokenKid lib token = .ok none ∨ clientTokenKid lib token = .ok (some (.text kid)) := by
  obtain ⟨alg, hdecode⟩ := h
  unfold clientTokenKid
  split
  · exact .inl rfl
  · rw [hdecode]
    simp only [Claim.coerced]
    split
    · exact .inl rfl
    · split
      · exact .inr rfl
      · exact .inl rfl

/-- On its way to null. -/
def Refusing (lib : TokenLibrary) (config : CoreConfig) (kid : String) : VerifyPhase → Prop
  | .missed kid' => kid' = kid
  | .read kid' row => kid' = kid ∧ admitSigningKey lib config row = none
  | .resolved _ => False
  | .returned result => result = .ok none

theorem refusing_entered {now : Int} {kid token : String} {kidCache : TtlCache ResolvedSigningKey}
    (hcarries : Carries lib kid token) (hcache : ∀ t v, ¬ kidCache.Holds t kid v) :
    Refusing lib config kid (entered lib now kidCache token).1 := by
  unfold entered
  rcases kid_of_carries hcarries with hkid | hkid
  · rw [hkid]
    rfl
  · rw [hkid]
    simp only
    split
    · rename_i cached cache hget
      have hhit : (kidCache.get now kid).1 = some cached := by rw [hget]
      exact absurd (TtlCache.get_eq_some hhit) (hcache now cached)
    · rfl

/-- The revoking call has returned, and every verification begun since is on its way to null. -/
structure Effective (lib : TokenLibrary) (config : CoreConfig) (kid : String) (db₀ : Database)
    (before : Pool String VerifyPhase) (st : Instance) : Prop where
  inv : Inv kid db₀ st
  returned : st.revoke = .returned true
  refusing : ∀ c token phase, before c = none → st.calls c = some (token, phase) →
    Carries lib kid token → Refusing lib config kid phase

theorem effective_step (hkey : findByIdAndProject db₀.store signingKeyId projectId = some row₀)
    {before : Pool String VerifyPhase} {st st' : Instance} {l : Statement}
    (h : Effective lib config row₀.keyId db₀ before st) (hC : NoLateFill lib config row₀.keyId st l)
    (hstep : step lib config request signingKeyId projectId st l = some st') :
    Effective lib config row₀.keyId db₀ before st' := by
  have hinv := inv_step hkey h.inv hC hstep
  have hreturned := h.returned
  have hdropped : st.revoke.dropped = true := by rw [hreturned]; rfl
  cases of_step hstep with
  | missing hr => rw [hreturned] at hr; cases hr
  | lock hr => rw [hreturned] at hr; cases hr
  | load hr => rw [hreturned] at hr; cases hr
  | refused hr => rw [hreturned] at hr; cases hr
  | write hr _ => rw [hreturned] at hr; cases hr
  | invalidate hr => rw [hreturned] at hr; cases hr
  | commit hr => rw [hreturned] at hr; cases hr
  | verify hc =>
    refine ⟨hinv, hreturned, ?_⟩
    intro c' token' phase' hnew hc' hcarries
    rcases Pool.of_move hc' with ⟨-, rfl, rfl⟩ | ⟨-, hold⟩
    · exact refusing_entered hcarries (h.inv.dropped hdropped)
    · exact h.refusing c' token' phase' hnew hold hcarries
  | select hc =>
    refine ⟨hinv, hreturned, ?_⟩
    intro c' token' phase' hnew hc' hcarries
    rcases Pool.of_move hc' with ⟨rfl, rfl, rfl⟩ | ⟨-, hold⟩
    · have hkid := h.refusing _ _ _ hnew hc hcarries
      obtain rfl := hkid
      exact ⟨rfl, admit_of_revoked (h.inv.committed hreturned)⟩
    · exact h.refusing c' token' phase' hnew hold hcarries
  | fill hc =>
    refine ⟨hinv, hreturned, ?_⟩
    intro c' token' phase' hnew hc' hcarries
    rcases Pool.of_move hc' with ⟨rfl, rfl, rfl⟩ | ⟨-, hold⟩
    · obtain ⟨-, hadmits⟩ := h.refusing _ _ _ hnew hc hcarries
      simp only [filled, hadmits]
      rfl
    · exact h.refusing c' token' phase' hnew hold hcarries
  | accept hc =>
    refine ⟨hinv, hreturned, ?_⟩
    intro c' token' phase' hnew hc' hcarries
    rcases Pool.of_move hc' with ⟨rfl, rfl, rfl⟩ | ⟨-, hold⟩
    · exact (h.refusing _ _ _ hnew hc hcarries).elim
    · exact h.refusing c' token' phase' hnew hold hcarries

/-! ## Runs -/

/-- Every verification that begins after `st` and has returned in `st'` answered null if its token
names the key. -/
def TakesEffect (lib : TokenLibrary) (kid : String) (st st' : Instance) : Prop :=
  ∀ c token result, st.calls c = none → st'.calls c = some (token, .returned result) →
    Carries lib kid token → result = .ok none

/-- Where no verification fills the cache late, a key that has been disabled or deleted verifies
nothing from the return of the call on. -/
theorem revocation_takes_effect (lib : TokenLibrary) (config : CoreConfig) (request : Revocation)
    (signingKeyId projectId : Uuid) (db₀ : Database) (row₀ : SigningKey)
    (kidCache : TtlCache ResolvedSigningKey) (run later : List Statement) (st st' : Instance)
    (hkey : findByIdAndProject db₀.store signingKeyId projectId = some row₀)
    (hrun : exec (step lib config request signingKeyId projectId) (Instance.init db₀ kidCache) run =
      some st)
    (hreturned : st.revoke = .returned true)
    (hlater : exec (step lib config request signingKeyId projectId) st later = some st')
    (hfills : Meets (step lib config request signingKeyId projectId)
      (NoLateFill lib config row₀.keyId) (Instance.init db₀ kidCache) (run ++ later)) :
    TakesEffect lib row₀.keyId st st' := by
  have hinv : Inv row₀.keyId db₀ st :=
    exec_invariant (fun _ _ _ hI hC hs => inv_step hkey hI hC hs) run _ st
      (inv_init row₀.keyId kidCache) hfills.append_left hrun
  have hstart : Effective lib config row₀.keyId db₀ st.calls st := by
    refine ⟨hinv, hreturned, ?_⟩
    intro c token phase hnew hc
    rw [hnew] at hc
    cases hc
  have heffective : Effective lib config row₀.keyId db₀ st.calls st' :=
    exec_invariant (I := Effective lib config row₀.keyId db₀ st.calls)
      (fun _ _ _ hI hC hs => effective_step hkey hI hC hs) later st st' hstart
      (hfills.append_right hrun) hlater
  intro c token result hnew hc hcarries
  exact heffective.refusing c token _ hnew hc hcarries

end

/-! ## A cache filled between the drop and the commit -/

def sampleSecret : String := "AAAAAAAAAAAAAAAAAAAAAAAAAAAAAAAAAAAAAAAAAAA"

/-- A key of 32 zero bytes. -/
def sampleConfig : CoreConfig where
  signingKeyEncryptionKey := some "AAAAAAAAAAAAAAAAAAAAAAAAAAAAAAAAAAAAAAAAAAA="

/-- The secret under that key and a zero vector. -/
def sampleEncrypted : String := "v1:AAAAAAAAAAAAAAAA.rQy85XnD85-Ucvb04CnejA." ++
  "j-YBfAwhKi9GD4SS-7LcWTMhQot252s1kOO0zzRHdM-cC_BpDAugOgCpGA"

/-- `{"alg":"HS256","typ":"JWT","kid":"sk_live_000000000000"}` and
`{"sub":"at_live_000000000000","exp":60}`, signed with the secret. -/
def sampleToken : String :=
  "eyJhbGciOiJIUzI1NiIsInR5cCI6IkpXVCIsImtpZCI6InNrX2xpdmVfMDAwMDAwMDAwMDAwIn0." ++
  "eyJzdWIiOiJhdF9saXZlXzAwMDAwMDAwMDAwMCIsImV4cCI6NjB9." ++
  "kDOqfdDHQu2ui1X35rSxwY4tgEGD5WLfkn-f078AJlY"

/-- The libraries on that token and that secret. -/
def sampleLibrary : TokenLibrary where
  decode token := if token = sampleToken then
    .token (some (.text "HS256")) (some (.text "sk_live_000000000000")) else .null
  verify token secret _ _ _ := if token = sampleToken ∧ secret = sampleSecret then
    some { sub := some (.text "at_live_000000000000"), exp := some (.number 60), iat := none } else none
  decryptSecret encoded _ := if encoded = sampleEncrypted then some sampleSecret else none

def sampleKey : SigningKey where
  signingKeyId := .of "k"
  projectId := .of "p"
  keyId := "sk_live_000000000000"
  secretEncrypted := sampleEncrypted
  name := "Key"

def sampleKeys : Database where
  store := { projects := [{ projectId := .of "p", name := "Project" }], signingKeys := [sampleKey] }
  valid := by decide

/-- The verification has answered with a verified token. -/
def accepted : VerifyPhase → Bool
  | .returned (.ok (some _)) => true
  | _ => false

theorem of_accepted {phase : VerifyPhase} (h : accepted phase = true) :
    ∃ verified, phase = .returned (.ok (some verified)) := by
  unfold accepted at h
  split at h
  · exact ⟨_, rfl⟩
  · cases h

/-- The revoking call of the sample, from its first statement to its return. -/
def sampleRevoke : List Statement := [.lock, .load, .write, .invalidate, .commit]

/-- A verification that has filled the cache before the call begins delays nothing: the next one
reads the disabled row. -/
theorem revocation_takes_effect_dropped : ∃ st st',
    exec (step sampleLibrary sampleConfig (.disable none) (.of "k") (.of "p"))
      (Instance.init sampleKeys { ttlMs := 60000 })
      ([.verify 0 0 sampleToken, .select 0, .fill 0 0] ++ sampleRevoke) = some st ∧
    exec (step sampleLibrary sampleConfig (.disable none) (.of "k") (.of "p")) st
      [.verify 1 0 sampleToken, .select 1, .fill 1 0] = some st' ∧
    TakesEffect sampleLibrary "sk_live_000000000000" st st' := by
  have hfacts : (exec (step sampleLibrary sampleConfig (.disable none) (.of "k") (.of "p"))
      (Instance.init sampleKeys { ttlMs := 60000 })
      ([.verify 0 0 sampleToken, .select 0, .fill 0 0] ++ sampleRevoke)).any (fun st =>
        decide (st.revoke = .returned true) &&
        (exec (step sampleLibrary sampleConfig (.disable none) (.of "k") (.of "p")) st
          [.verify 1 0 sampleToken, .select 1, .fill 1 0]).isSome) = true := by
    decide +kernel
  obtain ⟨st, hrun, hst⟩ := (Option.any_eq_true _ _).1 hfacts
  rw [Bool.and_eq_true, decide_eq_true_eq] at hst
  obtain ⟨st', hlater⟩ := Option.isSome_iff_exists.1 hst.2
  refine ⟨st, st', hrun, hlater, revocation_takes_effect sampleLibrary sampleConfig (.disable none)
    (.of "k") (.of "p") sampleKeys sampleKey { ttlMs := 60000 } _ _ st st' rfl hrun hst.1 hlater ?_⟩
  decide +kernel

/-- A verification that read the key before the commit caches it after the drop, and the next one is
answered from the cache. -/
theorem stale_fill_outlives_revocation :
    ¬ ∀ (lib : TokenLibrary) (config : CoreConfig) (request : Revocation)
      (signingKeyId projectId : Uuid) (db₀ : Database) (row₀ : SigningKey)
      (kidCache : TtlCache ResolvedSigningKey) (run later : List Statement) (st st' : Instance),
      findByIdAndProject db₀.store signingKeyId projectId = some row₀ →
      exec (step lib config request signingKeyId projectId) (Instance.init db₀ kidCache) run =
        some st →
      st.revoke = .returned true →
      exec (step lib config request signingKeyId projectId) st later = some st' →
      TakesEffect lib row₀.keyId st st' := by
  intro hevery
  let serve := step sampleLibrary sampleConfig (.disable none) (.of "k") (.of "p")
  let run : List Statement := [.verify 0 0 sampleToken, .select 0] ++ sampleRevoke ++ [.fill 0 0]
  let later : List Statement := [.verify 1 0 sampleToken, .accept 1 0]
  have hfacts : (exec serve (Instance.init sampleKeys { ttlMs := 60000 }) run).any (fun st =>
      decide (st.revoke = .returned true) && (st.calls 1).isNone &&
      (exec serve st later).any fun st' => (st'.calls 1).any fun e =>
        decide (e.1 = sampleToken) && accepted e.2) = true := by
    decide +kernel
  obtain ⟨st, hrun, hst⟩ := (Option.any_eq_true _ _).1 hfacts
  simp only [Bool.and_eq_true, decide_eq_true_eq, Option.isNone_iff_eq_none] at hst
  obtain ⟨⟨hreturned, hnew⟩, hst⟩ := hst
  obtain ⟨st', hlater, hst'⟩ := (Option.any_eq_true _ _).1 hst
  obtain ⟨⟨token, phase⟩, hc, he⟩ := (Option.any_eq_true _ _).1 hst'
  simp only [Bool.and_eq_true, decide_eq_true_eq] at he
  obtain ⟨rfl, haccepted⟩ := he
  obtain ⟨verified, rfl⟩ := of_accepted haccepted
  have hnull := hevery sampleLibrary sampleConfig (.disable none) (.of "k") (.of "p") sampleKeys
    sampleKey { ttlMs := 60000 } run later st st' rfl hrun hreturned hlater 1 sampleToken _ hnew hc
    ⟨some (.text "HS256"), by simp only [sampleLibrary, sampleKey, if_true]⟩
  cases hnull

end SigningKeyFacade
end NolagCore
