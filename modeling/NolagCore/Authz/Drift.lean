import NolagCore.Authz.Admission

/-!
# Authz.Drift

Connect against refresh. `validateActor` resolves an opaque token from a row its cache may hold for
a minute, `revalidateActor` and the client-token path from the row as stored. An update or delete of
an actor does not reach the cache, so the connect path can admit on old terms; while no cached row's
terms change, the three paths grant the same session.
-/

namespace NolagCore
namespace Authz

open Lib Facade
open ProjectConfig (Host sampleHost)

/-! ## One service instance -/

structure Instance where
  db : Database
  caches : Caches := {}
  clock : Int

inductive Event where
  | operation (op : Operation)
  /-- An operation by another process on the same database, which reaches no cache here. -/
  | elsewhere (op : Operation)
  | validate (accessToken : String)

/-- The key id whose cache entry an operation on this instance drops. -/
def invalidated (now : Int) (db : Database) : Operation → Option String
  | .updateSigningKey signingKeyId projectId data =>
    match SigningKeyFacade.updateSigningKey db signingKeyId projectId data with
    | .ok (entity, _) => some entity.keyId
    | .error _ => none
  | .deleteSigningKey signingKeyId projectId =>
    match SigningKeyFacade.deleteSigningKey db now signingKeyId projectId with
    | .ok (existing, _) => some existing.keyId
    | .error _ => none
  | _ => none

def invalidateCache (keyId : Option String) (caches : Caches) : Caches :=
  match keyId with
  | some keyId => { caches with kid := caches.kid.delete keyId }
  | none => caches

/-- One event at its instant; the clock does not run backwards. -/
def serve (env : Env) (host : Host) (st : Instance) (l : Int × Event) : Option Instance :=
  if l.1 < st.clock then none
  else match l.2 with
    | .operation op => some
      { db := op.apply host l.1 st.db
        caches := invalidateCache (invalidated l.1 st.db op) st.caches
        clock := l.1 }
    | .elsewhere op => some { st with db := op.apply host l.1 st.db, clock := l.1 }
    | .validate accessToken => some
      { st with
        caches := (validateActor env st.db.store l.1 st.caches accessToken).2
        clock := l.1 }

/-- A service that has just started, on an empty database. -/
def Instance.init : Instance := { db := Database.empty, clock := 0 }

def Event.operation? : Event → Option Operation
  | .operation op | .elsewhere op => some op
  | .validate _ => none

/-! ## Terms -/

/-- The stored row `a` serves the terms of the cached one, read at `t`. -/
structure SameTerms (a cached : ActorToken) (t : Int) : Prop where
  status : a.status = .active
  scope : a.accessScopeId = cached.accessScopeId
  expiry : expired a.expiresAt t = true → expired cached.expiresAt t = true

/-- The operation leaves the terms of a cached row as they are at `t`: it neither disables, deletes
nor rescopes the actor, nor brings its expiry forward past `t`, and it does not create a project
under the id of one that is gone. An operation the service refuses changes nothing. -/
structure KeepsTerms (host : Host) (s : Store) (op : Operation) (cached : ActorToken) (t : Int) :
    Prop where
  created : op.createdProject = some cached.projectId →
    ∃ p ∈ s.projects, p.projectId = cached.projectId
  deleted : op = .deleteActorToken cached.actorTokenId cached.projectId →
    ActorTokenFacade.findByIdAndProject s cached.actorTokenId cached.projectId = none
  updated : ∀ data existing entity,
    op = .updateActorToken cached.actorTokenId cached.projectId data →
    ActorTokenFacade.findByIdAndProject s cached.actorTokenId cached.projectId = some existing →
    ActorTokenFacade.assertScopeInProject s cached.projectId (data.accessScopeId.getD none) =
      .ok () →
    ActorTokenFacade.assign host.legacy data existing = .ok entity → SameTerms entity cached t

/-- No operation changes the terms of an actor of which the cache holds a fresh row. -/
def KeepsCachedTerms (host : Host) (st : Instance) (l : Int × Event) : Prop :=
  ∀ op, l.2.operation? = some op → ∀ token cached t, l.1 ≤ t →
    st.caches.auth.Holds t token cached → KeepsTerms host st.db.store op cached t

/-- A cached row is backed at `t` by a stored one on the same terms, or its project is gone. -/
def Backed (s : Store) (cached : ActorToken) (t : Int) : Prop :=
  (∃ a ∈ s.actorTokens, live a = true ∧ a.actorTokenId = cached.actorTokenId ∧
    a.projectId = cached.projectId ∧ a.actorType = cached.actorType ∧ SameTerms a cached t) ∨
  ∀ p ∈ s.projects, p.projectId ≠ cached.projectId

def CacheBacked (st : Instance) : Prop :=
  ∀ token cached t, st.clock ≤ t → st.caches.auth.Holds t token cached →
    Backed st.db.store cached t

/-- A session payload depends on four columns of the actor row. -/
theorem buildSessionPayload_congr (config : CoreConfig) (s : Store) (now : Int)
    {a b : ActorToken} (hid : a.actorTokenId = b.actorTokenId) (hproj : a.projectId = b.projectId)
    (htype : a.actorType = b.actorType) (hscope : a.accessScopeId = b.accessScopeId) :
    buildSessionPayload config s now a = buildSessionPayload config s now b := by
  cases a
  cases b
  cases hid
  cases hproj
  cases htype
  cases hscope
  rfl

/-! ## The cache over a run -/

/-- No operation that keeps the terms makes a project under the id of one that is gone. -/
theorem gone_step {host : Host} {now : Int} {op : Operation} {db db' : Database}
    {cached : ActorToken} {t : Int} (hgone : ∀ p ∈ db.store.projects, p.projectId ≠ cached.projectId)
    (hC : KeepsTerms host db.store op cached t) (h : Effect host now db.store db'.store op) :
    ∀ p ∈ db'.store.projects, p.projectId ≠ cached.projectId := by
  cases h with
  | same h =>
    rw [h.1]
    exact hgone
  | projectSaved hrow hid _ hp _ =>
    intro p hp'
    rw [hp] at hp'
    rcases mem_saveRow hp' with rfl | hp'
    · rw [hid]
      exact hgone _ hrow
    · exact hgone p hp'
  | projectDeleted hp _ =>
    intro p hp'
    rw [hp] at hp'
    obtain ⟨p₀, hp₀, rfl⟩ := List.mem_map.1 hp'
    split
    · exact hgone p₀ hp₀
    · exact hgone p₀ hp₀
  | created hop _ hp _ _ =>
    intro p hp'
    rcases (hp p).1 hp' with hold | rfl
    · exact hgone p hold
    · intro heq
      obtain ⟨q, hq, hqid⟩ := hC.created (hop.trans (congrArg some heq))
      exact hgone q hq hqid
  | actorCreated _ hp _ =>
    rw [hp]
    exact hgone
  | actorUpdated _ _ _ hp _ =>
    rw [hp]
    exact hgone
  | actorDeleted hp _ =>
    rw [hp]
    exact hgone
  | purged hp _ =>
    intro p hp'
    exact hgone p ((hp p).1 hp').1

theorem backed_step {host : Host} {now : Int} {op : Operation} {db db' : Database}
    {cached : ActorToken} {t : Int} (hb : Backed db.store cached t)
    (hC : KeepsTerms host db.store op cached t) (h : Effect host now db.store db'.store op) :
    Backed db'.store cached t := by
  rcases hb with ⟨a, hrow, hl, hid, hproj, htype, hterms⟩ | hgone
  · have hstays : a ∈ db'.store.actorTokens → Backed db'.store cached t :=
      fun hrow' => .inl ⟨a, hrow', hl, hid, hproj, htype, hterms⟩
    cases h with
    | same h => exact hstays (by rw [h.2]; exact hrow)
    | projectSaved _ _ _ _ ha => exact hstays (by rw [ha]; exact hrow)
    | projectDeleted _ ha => exact hstays (by rw [ha]; exact hrow)
    | created _ _ _ hold _ => exact hstays (hold a hrow)
    | actorCreated _ _ ha => exact hstays (by rw [ha]; exact List.mem_append_left _ hrow)
    | @actorUpdated actorTokenId projectId data existing entity hf hs he _ ha =>
      obtain ⟨hex, hexl, hkey⟩ := of_findOne hf
      simp only [Bool.and_eq_true, decide_eq_true_eq] at hkey
      obtain ⟨heid, heproj, hetype, helive⟩ := assign_keeps he
      by_cases hsame : a.actorTokenId = entity.actorTokenId
      · have hax := db.valid.pkActor.eq_of_key hrow hex (hsame.trans heid)
        subst hax
        refine .inl ⟨entity, ?_, ?_, heid.trans hid, heproj.trans hproj, hetype.trans htype, ?_⟩
        · rw [ha]
          exact List.mem_map.2 ⟨a, hrow, if_pos hsame⟩
        · unfold live at hl ⊢
          exact (congrArg Option.isNone helive).trans hl
        · have h1 := hkey.1.symm.trans hid
          have h2 := hkey.2.symm.trans hproj
          subst h1
          subst h2
          exact hC.updated data a entity rfl hf hs he
      · refine hstays ?_
        rw [ha]
        exact List.mem_map.2 ⟨a, hrow, if_neg hsame⟩
    | @actorDeleted actorTokenId projectId _ ha =>
      by_cases hsame : a.actorTokenId = actorTokenId ∧ a.projectId = projectId
      · have h1 := hsame.1.symm.trans hid
        have h2 := hsame.2.symm.trans hproj
        subst h1
        subst h2
        have hnone := findOne_eq_none.1 (hC.deleted rfl) a hrow hl
        simp [hsame] at hnone
      · refine hstays ?_
        rw [ha]
        refine List.mem_map.2 ⟨a, hrow, if_neg ?_⟩
        simp only [Bool.and_eq_true, decide_eq_true_eq]
        exact fun h => hsame h.1
    | @purged projectId hp ha =>
      by_cases hsame : a.projectId = projectId
      · refine .inr fun p hp' => ?_
        rw [← hproj, hsame]
        exact ((hp p).1 hp').2
      · exact hstays ((ha a).2 ⟨hrow, hsame⟩)
  · exact .inr (gone_step hgone hC h)

theorem backed_apply {host : Host} {now : Int} {op : Operation} {db : Database}
    {cached : ActorToken} {t : Int} (hb : Backed db.store cached t)
    (hC : KeepsTerms host db.store op cached t) : Backed (op.apply host now db).store cached t := by
  unfold Operation.apply
  split
  · rename_i db' hok
    exact backed_step hb hC (run_effect hok)
  · exact hb

/-- A usable row backs itself. -/
theorem backed_self {s : Store} {now t : Int} {a : ActorToken} (hrow : a ∈ s.actorTokens)
    (hl : live a = true) (husable : ActorTokens.isUsable now a = true) : Backed s a t := by
  unfold ActorTokens.isUsable at husable
  simp only [Bool.and_eq_true, decide_eq_true_eq] at husable
  exact .inl ⟨a, hrow, hl, rfl, rfl, rfl, husable.1, rfl, id⟩

/-- The row a successful authentication reads is backed, and so is what it caches. -/
theorem authenticate_backed {crypto : Crypto} {s : Store} {now : Int} {auth : TtlCache ActorToken}
    {accessToken : String} (hI : ∀ token cached t, now ≤ t → auth.Holds t token cached →
      Backed s cached t) :
    (∀ a, (ActorTokens.authenticateActorToken crypto s now auth accessToken).1 = some a →
      Backed s a now) ∧
    ∀ token cached t, now ≤ t →
      (ActorTokens.authenticateActorToken crypto s now auth accessToken).2.Holds t token cached →
      Backed s cached t := by
  have hread : ∀ v cache, auth.get now accessToken = (v, cache) → ∀ token cached t, now ≤ t →
      cache.Holds t token cached → Backed s cached t := by
    intro v cache hget token cached t ht hold
    have hold' : (auth.get now accessToken).2.Holds t token cached := by
      rw [hget]
      exact hold
    exact hI token cached t ht (TtlCache.holds_of_get hold')
  unfold ActorTokens.authenticateActorToken
  split
  · exact ⟨fun a h => (nomatch h), hI⟩
  · rename_i keyId secret _
    split
    · rename_i cached cache hget
      refine ⟨?_, hread _ _ hget⟩
      intro a ha
      cases ha
      exact hI accessToken cached now (Int.le_refl now) (TtlCache.get_eq_some (by rw [hget]))
    · rename_i cache hget
      have hcache := hread _ _ hget
      dsimp only
      split
      · exact ⟨fun a h => (nomatch h), hcache⟩
      · rename_i a hfind
        split
        · exact ⟨fun a h => (nomatch h), hcache⟩
        · split
          · rename_i husable
            obtain ⟨hrow, hl, _⟩ := of_findOne hfind
            constructor
            · intro b hb
              cases hb
              exact backed_self hrow hl husable
            · intro token cached t ht hold
              rcases TtlCache.holds_of_set hold with ⟨_, rfl, _⟩ | hold
              · exact backed_self hrow hl husable
              · exact hcache token cached t ht hold
          · exact ⟨fun a h => (nomatch h), hcache⟩

theorem auth_of_validateClientToken (env : Env) (s : Store) (now : Int) (caches : Caches)
    (token : String) : (validateClientToken env s now caches token).2.auth = caches.auth := by
  unfold validateClientToken
  dsimp only
  split
  · rfl
  · rfl
  · split
    · rfl
    · split
      · rfl
      · split <;> rfl

theorem cacheBacked_step {env : Env} {host : Host} {st st' : Instance} {l : Int × Event}
    (hI : CacheBacked st) (hC : KeepsCachedTerms host st l)
    (h : serve env host st l = some st') : CacheBacked st' := by
  obtain ⟨now, ev⟩ := l
  unfold serve at h
  split at h
  · cases h
  rename_i hclock
  dsimp only at h hclock
  cases ev with
  | operation op =>
    cases h
    intro token cached t ht hold
    have hold' : st.caches.auth.Holds t token cached := by
      unfold invalidateCache at hold
      split at hold
      · exact hold
      · exact hold
    dsimp only at ht
    exact backed_apply (hI token cached t (by omega) hold')
      (hC op rfl token cached t ht hold')
  | elsewhere op =>
    cases h
    intro token cached t ht hold
    dsimp only at ht
    exact backed_apply (hI token cached t (by omega) hold) (hC op rfl token cached t ht hold)
  | validate accessToken =>
    cases h
    intro token cached t ht hold
    dsimp only at ht hold ⊢
    have hnow : ∀ token cached t, now ≤ t → st.caches.auth.Holds t token cached →
        Backed st.db.store cached t := fun token cached t ht => hI token cached t (by omega)
    unfold validateActor at hold
    split at hold
    · rw [auth_of_validateClientToken] at hold
      exact hnow token cached t ht hold
    · exact (authenticate_backed hnow).2 token cached t ht hold

theorem cacheBacked_run {env : Env} {host : Host} {run : List (Int × Event)} {st : Instance}
    (hrun : exec (serve env host) Instance.init run = some st)
    (hkeeps : Meets (serve env host) (KeepsCachedTerms host) Instance.init run) :
    CacheBacked st := by
  refine exec_invariant (fun st l st' hI hC h => cacheBacked_step hI hC h) run _ st ?_ hkeeps hrun
  intro token cached t _ hold
  obtain ⟨e, he, _⟩ := hold
  cases he

/-! ## One connect -/

/-- A session granted on a backed row is the one a refresh grants. -/
theorem revalidate_of_backed {config : CoreConfig} {s : Store} (hv : s.SchemaValid) {now : Int}
    {cached : ActorToken} {payload : ActorSessionPayload} (hb : Backed s cached now)
    (hx : expired cached.expiresAt now = false)
    (hp : buildSessionPayload config s now cached = .ok payload) :
    ∃ a, findActor s cached.actorTokenId = some a ∧ a.status = .active ∧
      expired a.expiresAt now = false ∧ a.projectId = cached.projectId ∧
      buildSessionPayload config s now a = .ok payload := by
  rcases hb with ⟨a, hrow, hl, hid, hproj, htype, hterms⟩ | hgone
  · refine ⟨a, (findActor_iff hv.pkActor).2 ⟨hrow, hl, hid⟩, hterms.status, ?_, hproj, ?_⟩
    · cases hxa : expired a.expiresAt now with
      | false => rfl
      | true => rw [hterms.expiry hxa] at hx; cases hx
    · rw [buildSessionPayload_congr config s now hid hproj htype hterms.scope]
      exact hp
  · obtain ⟨project, _, hproject, _⟩ := of_buildSessionPayload hp
    obtain ⟨hp1, _, hp3⟩ := of_findOne hproject
    exact absurd (of_decide_eq_true hp3) (hgone project hp1)

/-- An opaque connect that succeeded read an active, unexpired row. -/
theorem of_validateAuthenticated {config : CoreConfig} {s : Store} {now : Int}
    {actorToken : Option ActorToken} {payload : ActorSessionPayload} {authExpiresAt : Option Rat}
    (h : validateAuthenticated config s now actorToken = .valid payload authExpiresAt) :
    ∃ a, actorToken = some a ∧ expired a.expiresAt now = false ∧
      buildSessionPayload config s now a = .ok payload ∧ authExpiresAt = none := by
  unfold validateAuthenticated at h
  split at h
  · cases h
  · rename_i a
    split at h
    · cases h
    · split at h
      · cases h
      · rename_i hx
        split at h
        · cases h
        · rename_i payload' hp
          cases h
          exact ⟨a, rfl, by simpa using hx, hp, rfl⟩

/-- A client token that verifies for a stored, usable actor of the key's project grants the session
of that row, with the expiry of the token. -/
theorem validateClientToken_eq {env : Env} {s : Store} (hv : s.SchemaValid) {now : Int}
    {caches : Caches} {token : String} {verified : SigningKeys.VerifiedClientToken}
    (hver : (SigningKeys.verifyClientToken env.lib env.config s now caches.kid token).1 =
      .ok (some verified)) {a : ActorToken} (hrow : a ∈ s.actorTokens) (hl : live a = true)
    (hst : a.status = .active) (hx : expired a.expiresAt now = false)
    (hkey : a.keyId = verified.payload.sub) (hproj : a.projectId = verified.signingKey.projectId)
    {payload : ActorSessionPayload}
    (hp : buildSessionPayload env.config s now a = .ok payload) :
    (validateClientToken env s now caches token).1 =
      .ok (.valid payload (some verified.payload.exp)) := by
  have hfind : ActorTokens.findByKeyId s verified.payload.sub = some a :=
    findOne_of_unique hrow hl (by simpa using hkey) fun b hb _ hk =>
      hv.actorKeyId.eq_of_key hb hrow ((of_decide_eq_true hk).trans hkey.symm)
  have hactive : ActorTokens.getActiveActorByKeyId s now verified.payload.sub = some a := by
    unfold ActorTokens.getActiveActorByKeyId ActorTokens.isUsable
    simp [hfind, hst, hx]
  unfold validateClientToken
  generalize hpair : SigningKeys.verifyClientToken env.lib env.config s now caches.kid token = r at *
  obtain ⟨r₁, kid⟩ := r
  dsimp only at hver
  subst hver
  simp [hactive, hproj, hp]

/-- Over every run that leaves the terms of freshly cached actors alone, a connect with an opaque
token grants what a refresh grants at that instant, and so does a connect with a client token that
verifies for the same actor, but for the expiry it adds. -/
theorem connect_matches_refresh (env : Env) (host : Host) (run : List (Int × Event)) (st : Instance)
    (hrun : exec (serve env host) Instance.init run = some st)
    (hkeeps : Meets (serve env host) (KeepsCachedTerms host) Instance.init run) (now : Int)
    (hnow : st.clock ≤ now) (accessToken : String) (hshape : isClientTokenJwt accessToken = false)
    (payload : ActorSessionPayload) (authExpiresAt : Option Rat)
    (h : (validateActor env st.db.store now st.caches accessToken).1 =
      .ok (.valid payload authExpiresAt)) :
    authExpiresAt = none ∧
    revalidateActor env.config st.db.store now payload.actorTokenId = .valid payload ∧
    ∀ (token : String) (verified : SigningKeys.VerifiedClientToken), isClientTokenJwt token = true →
      (SigningKeys.verifyClientToken env.lib env.config st.db.store now st.caches.kid token).1 =
        .ok (some verified) →
      verified.signingKey.projectId = payload.projectId →
      (∃ a ∈ st.db.store.actorTokens, a.actorTokenId = payload.actorTokenId ∧
        a.keyId = verified.payload.sub) →
      (validateActor env st.db.store now st.caches token).1 =
        .ok (.valid payload (some verified.payload.exp)) := by
  have hbacked := @authenticate_backed env.crypto st.db.store now st.caches.auth accessToken
    fun token cached t ht => cacheBacked_run hrun hkeeps token cached t (by omega)
  unfold validateActor at h
  rw [hshape] at h
  simp only [Bool.false_eq_true, if_false, Except.ok.injEq] at h
  obtain ⟨cached, hcached, hx, hp, rfl⟩ := of_validateAuthenticated h
  obtain ⟨a, hfind, hst, hxa, hproj, hpa⟩ :=
    revalidate_of_backed st.db.valid (hbacked.1 cached hcached) hx hp
  obtain ⟨hrow, hl, hid⟩ := of_findActor hfind
  obtain ⟨_, _, _, _, hpid, _⟩ := of_buildSessionPayload hpa
  refine ⟨rfl, ?_, ?_⟩
  · rw [hpid, hid]
    exact revalidateActor_eq_valid.2 ⟨a, hfind, hst, hxa, hpa⟩
  · rintro token verified hjwt hver hkeyProj ⟨b, hb, hbid, hbkey⟩
    have hba := st.db.valid.pkActor.eq_of_key hb hrow (hbid.trans hpid)
    subst hba
    unfold validateActor
    rw [if_pos hjwt]
    exact validateClientToken_eq st.db.valid hver hrow hl hst hxa hbkey
      ((projectId_of_payload hpa).symm.trans hkeyProj.symm) hpa

/-! ## An actor disabled behind the cache -/

def sampleEnv : Env where
  config := {}
  crypto := sampleCrypto
  lib := { decode := fun _ => .null, verify := fun _ _ _ _ _ => none, decryptSecret := fun _ _ => none }

/-- The credential minted for the sample actor. -/
def sampleToken : String := "at_live_000000000000.AAAAAAAAAAAAAAAAAAAAAAAAAAAAAAAAAAAAAAAAAAA"

def sampleConnect : List (Int × Event) :=
  (sampleSetup.map fun l => (l.1, .operation l.2)) ++ [(0, .validate sampleToken)]

/-- The session an opaque connect answered with. -/
def sessionOf (r : Except SigningKeys.Thrown ValidateActorResponse) :
    Option ActorSessionPayload :=
  match r with
  | .ok (.valid payload none) => some payload
  | _ => none

theorem of_sessionOf {r : Except SigningKeys.Thrown ValidateActorResponse}
    {payload : ActorSessionPayload} (h : sessionOf r = some payload) :
    r = .ok (.valid payload none) := by
  unfold sessionOf at h
  split at h
  · cases h
    rfl
  · cases h

/-- A cached connect of an actor nobody has touched. -/
theorem connect_matches_refresh_cached :
    ∃ st payload, exec (serve sampleEnv sampleHost) Instance.init sampleConnect = some st ∧
      revalidateActor {} st.db.store 1 payload.actorTokenId = .valid payload := by
  obtain ⟨st, hrun⟩ : ∃ st, exec (serve sampleEnv sampleHost) Instance.init sampleConnect = some st :=
    ⟨_, rfl⟩
  have hsession : (exec (serve sampleEnv sampleHost) Instance.init sampleConnect).all
      (fun st => decide (st.clock ≤ 1) && (sessionOf (validateActor sampleEnv st.db.store 1 st.caches
        sampleToken).1).isSome) = true := by decide +kernel
  rw [hrun, Option.all_some, Bool.and_eq_true] at hsession
  obtain ⟨payload, hpayload⟩ := Option.isSome_iff_exists.1 hsession.2
  refine ⟨st, payload, hrun, (connect_matches_refresh sampleEnv sampleHost sampleConnect st hrun ?_ 1
    (of_decide_eq_true hsession.1) sampleToken (by decide) payload none
    (of_sessionOf hpayload)).2.1⟩
  -- nothing is cached before the connect, and nothing changes after it
  have hempty : ∀ (st : Instance) (l : Int × Event), st.caches.auth = { ttlMs := 60000 } →
      KeepsCachedTerms sampleHost st l := by
    intro st l hcache op _ token cached t _ hold
    rw [hcache] at hold
    obtain ⟨e, he, _⟩ := hold
    cases he
  refine ⟨hempty _ _ rfl, fun st₁ h₁ => ⟨?_, fun st₂ h₂ => ⟨?_, fun st₃ h₃ => ⟨?_, fun st₄ h₄ =>
    ⟨?_, fun _ _ => trivial⟩⟩⟩⟩⟩
  · cases h₁
    exact hempty _ _ rfl
  · cases h₁
    cases h₂
    exact hempty _ _ rfl
  · cases h₁
    cases h₂
    cases h₃
    exact hempty _ _ rfl
  · intro op hop
    cases hop

/-- An actor disabled after a connect is admitted again while its row is cached. -/
theorem disabled_actor_connects :
    ¬ ∀ (env : Env) (host : Host) (run : List (Int × Event)) (st : Instance),
      exec (serve env host) Instance.init run = some st →
      ∀ (now : Int), st.clock ≤ now → ∀ (accessToken : String),
        isClientTokenJwt accessToken = false →
        ∀ (payload : ActorSessionPayload) (authExpiresAt : Option Rat),
          (validateActor env st.db.store now st.caches accessToken).1 =
            .ok (.valid payload authExpiresAt) →
          revalidateActor env.config st.db.store now payload.actorTokenId = .valid payload := by
  intro hevery
  let run := sampleConnect ++
    [(1, .operation (.updateActorToken (.of "t1") (.of "p") { status := some .disabled }))]
  obtain ⟨st, hrun⟩ : ∃ st, exec (serve sampleEnv sampleHost) Instance.init run = some st := ⟨_, rfl⟩
  have hfacts : (exec (serve sampleEnv sampleHost) Instance.init run).all (fun st =>
      decide (st.clock ≤ 2) &&
      (decide ((sessionOf (validateActor sampleEnv st.db.store 2 st.caches sampleToken).1).map
          (·.actorTokenId) = some (.of "t1")) &&
        decide (revalidateActor {} st.db.store 2 (.of "t1") =
          .invalid .tokenSuspended .tokenRevoked))) = true := by decide +kernel
  rw [hrun, Option.all_some, Bool.and_eq_true, Bool.and_eq_true] at hfacts
  obtain ⟨payload, hpayload, hid⟩ := Option.map_eq_some_iff.1 (of_decide_eq_true hfacts.2.1)
  have hvalid := hevery sampleEnv sampleHost run st hrun 2 (of_decide_eq_true hfacts.1) sampleToken
    (by decide) payload none (of_sessionOf hpayload)
  rw [hid] at hvalid
  exact RevalidateActorResponse.noConfusion (hvalid.symm.trans (of_decide_eq_true hfacts.2.2))

end Authz
end NolagCore
