import NolagCore.Authz.ResolutionSpec

/-!
# Authz.Gates

What stands before the resolution: the actor's status and expiry, its project, its scope. Each
entry point codes its gates anew; here each is read back as a statement on rows.
-/

namespace NolagCore
namespace Authz

open Lib AccessModel

/-! ## Lookups -/

theorem of_findActor {s : Store} {actorTokenId : Uuid} {actorToken : ActorToken}
    (h : findActor s actorTokenId = some actorToken) : actorToken ∈ s.actorTokens ∧
      live actorToken = true ∧ actorToken.actorTokenId = actorTokenId := by
  obtain ⟨h1, h2, h3⟩ := of_findOne h
  exact ⟨h1, h2, of_decide_eq_true h3⟩

theorem of_appBySlug {s : Store} {actorToken : ActorToken} {appSlug : String} {app : PlatformApp}
    (h : appBySlug s actorToken appSlug = some app) : app ∈ s.apps ∧ live app = true ∧
      app.slug = appSlug ∧ app.projectId = actorToken.projectId ∧ app.status = .active := by
  obtain ⟨h1, h2, h3⟩ := of_findOne h
  simp only [Bool.and_eq_true, decide_eq_true_eq] at h3
  exact ⟨h1, h2, h3.1.1, h3.1.2, h3.2⟩

theorem of_roomBySlug {s : Store} {app : PlatformApp} {roomSlug : String} {room : Room}
    (h : roomBySlug s app roomSlug = some room) : room ∈ s.rooms ∧ live room = true ∧
      room.slug = roomSlug ∧ room.appId = app.appId ∧ room.status = .active := by
  obtain ⟨h1, h2, h3⟩ := of_findOne h
  simp only [Bool.and_eq_true, decide_eq_true_eq] at h3
  exact ⟨h1, h2, h3.1.1, h3.1.2, h3.2⟩

/-- An opaque token authenticates as a live row, or as the one the cache keeps for it. -/
theorem of_authenticateActorToken {crypto : Crypto} {s : Store} {now : Int}
    {auth : TtlCache ActorToken} {accessToken : String} {actorToken : ActorToken}
    (h : (ActorTokens.authenticateActorToken crypto s now auth accessToken).1 = some actorToken) :
    (actorToken ∈ s.actorTokens ∧ live actorToken = true) ∨
      ((splitCredential accessToken).isSome = true ∧
        (auth.get now accessToken).1 = some actorToken) := by
  unfold ActorTokens.authenticateActorToken at h
  split at h
  · cases h
  · rename_i hsplit
    split at h
    · rename_i hget
      cases h
      exact .inr ⟨by rw [hsplit]; rfl, by rw [hget]⟩
    · dsimp only at h
      split at h
      · cases h
      · rename_i hfind
        obtain ⟨hrow, hl, _⟩ := of_findOne hfind
        split at h
        · cases h
        · split at h
          · cases h
            exact .inl ⟨hrow, hl⟩
          · cases h

theorem of_getActiveActorByKeyId {s : Store} {now : Int} {keyId : String} {actorToken : ActorToken}
    (h : ActorTokens.getActiveActorByKeyId s now keyId = some actorToken) :
    actorToken ∈ s.actorTokens ∧ live actorToken = true ∧ actorToken.keyId = keyId ∧
      actorToken.status = .active ∧ expired actorToken.expiresAt now = false := by
  unfold ActorTokens.getActiveActorByKeyId at h
  split at h
  · cases h
  · rename_i a hfind
    split at h
    · rename_i husable
      cases h
      obtain ⟨hrow, hlive, hid⟩ := of_findOne hfind
      simp only [ActorTokens.isUsable, Bool.and_eq_true, decide_eq_true_eq,
        Bool.not_eq_true'] at husable
      exact ⟨hrow, hlive, of_decide_eq_true hid, husable⟩
    · cases h

/-! ## Entry points -/

/-- A session payload speaks of the actor row it was built from. -/
theorem of_buildSessionPayload {config : CoreConfig} {s : Store} {now : Int}
    {actorToken : ActorToken} {payload : ActorSessionPayload}
    (h : buildSessionPayload config s now actorToken = .ok payload) :
    ∃ project scope, findOne s.projects (fun p => decide (p.projectId = actorToken.projectId)) =
        some project ∧ resolveScope s actorToken = some scope ∧
      payload.actorTokenId = actorToken.actorTokenId ∧ payload.actorType = actorToken.actorType ∧
      payload.apps = buildAppAccess s now actorToken
        { scopeId := scope.scopeId, scopeSlug := scope.scopeSlug } := by
  unfold buildSessionPayload at h
  split at h
  · cases h
  · rename_i project hproject
    split at h
    · cases h
    · rename_i scope hscope
      cases h
      exact ⟨project, scope, hproject, hscope, rfl, rfl, rfl⟩

/-- The gates of `revalidateActor`, all of them. -/
theorem revalidateActor_eq_valid {config : CoreConfig} {s : Store} {now : Int} {actorTokenId : Uuid}
    {payload : ActorSessionPayload} :
    revalidateActor config s now actorTokenId = .valid payload ↔
      ∃ actorToken, findActor s actorTokenId = some actorToken ∧ actorToken.status = .active ∧
        expired actorToken.expiresAt now = false ∧
        buildSessionPayload config s now actorToken = .ok payload := by
  unfold revalidateActor
  constructor
  · intro h
    split at h
    · cases h
    · rename_i actorToken hactor
      split at h
      · cases h
      · rename_i hst
        split at h
        · cases h
        · rename_i hx
          split at h
          · cases h
          · rename_i payload' hp
            cases h
            exact ⟨actorToken, hactor, not_not.1 hst, by simpa using hx, hp⟩
  · rintro ⟨actorToken, hactor, hst, hx, hp⟩
    simp [hactor, hst, hx, hp]

theorem projectId_of_payload {config : CoreConfig} {s : Store} {now : Int}
    {actorToken : ActorToken} {payload : ActorSessionPayload}
    (h : buildSessionPayload config s now actorToken = .ok payload) :
    payload.projectId = actorToken.projectId := by
  unfold buildSessionPayload at h
  split at h
  · cases h
  · split at h
    · cases h
    · cases h
      rfl

/-- Past its gates `checkRoomAccess` is `checkRoom`. -/
theorem checkRoomAccess_of_parsed {s : Store} {now : Int} {actorTokenId : IdText}
    {actorToken : ActorToken} {scope : ResolvedScope} {pattern appSlug roomSlug : String}
    (hactor : findActor s actorTokenId.uuid = some actorToken) (hst : actorToken.status = .active)
    (hx : expired actorToken.expiresAt now = false)
    (hscope : resolveScope s actorToken = some scope)
    (hparsed : parsePattern scope pattern = some (appSlug, roomSlug)) :
    checkRoomAccess s now actorTokenId pattern =
      checkRoom s now actorTokenId.text actorToken scope appSlug roomSlug := by
  unfold checkRoomAccess
  simp only [hactor, hst, hx, hscope, hparsed]
  rfl

/-- The gates of `checkRoomAccess`: past them it is `checkRoom`, before them a denial. -/
theorem checkRoomAccess_cases (s : Store) (now : Int) (actorTokenId : IdText) (pattern : String) :
    (∃ actorToken scope appSlug roomSlug, findActor s actorTokenId.uuid = some actorToken ∧
      actorToken.status = .active ∧ expired actorToken.expiresAt now = false ∧
      resolveScope s actorToken = some scope ∧
      parsePattern scope pattern = some (appSlug, roomSlug) ∧
      checkRoomAccess s now actorTokenId pattern =
        checkRoom s now actorTokenId.text actorToken scope appSlug roomSlug) ∨
    checkRoomAccess s now actorTokenId pattern = deny := by
  unfold checkRoomAccess
  split
  · exact .inr rfl
  · rename_i actorToken hactor
    split
    · exact .inr rfl
    · rename_i hst
      split
      · exact .inr rfl
      · rename_i hx
        split
        · exact .inr rfl
        · rename_i scope hscope
          split
          · exact .inr rfl
          · rename_i appSlug roomSlug hparse
            exact .inl ⟨actorToken, scope, appSlug, roomSlug, hactor, not_not.1 hst,
              by simpa using hx, hscope, hparse, rfl⟩

/-! ## Open sessions -/

/-- The rows on which an actor may hold a session: it is live, active and unexpired, its project is
live, and its scope, if it has one, is a live and active one of that project. -/
structure SessionOpen (s : Store) (now : Int) (actorToken : ActorToken) : Prop where
  row : actorToken ∈ s.actorTokens
  isLive : live actorToken = true
  active : actorToken.status = .active
  unexpired : expired actorToken.expiresAt now = false
  project : ∃ p ∈ s.projects, live p = true ∧ p.projectId = actorToken.projectId
  scope : ∀ accessScopeId, actorToken.accessScopeId = some accessScopeId →
    ∃ r ∈ s.accessScopes, live r = true ∧ r.accessScopeId = accessScopeId ∧
      r.projectId = actorToken.projectId ∧ r.isActive = true

theorem resolveScope_isSome {s : Store} (hpk : UniqueOn AccessScope.accessScopeId s.accessScopes)
    {actorToken : ActorToken} : (∃ scope, resolveScope s actorToken = some scope) ↔
      ∀ accessScopeId, actorToken.accessScopeId = some accessScopeId →
        ∃ r ∈ s.accessScopes, live r = true ∧ r.accessScopeId = accessScopeId ∧
          r.projectId = actorToken.projectId ∧ r.isActive = true := by
  unfold resolveScope
  cases actorToken.accessScopeId with
  | none => simp
  | some accessScopeId =>
    simp only [Option.some.injEq, forall_eq']
    constructor
    · rintro ⟨scope, h⟩
      split at h
      · cases h
      · rename_i r hr
        split at h
        · rename_i hact
          obtain ⟨hrow, hl, hp⟩ := of_findOne hr
          simp only [Bool.and_eq_true, decide_eq_true_eq] at hp
          exact ⟨r, hrow, hl, hp.1, hp.2, hact⟩
        · cases h
    · rintro ⟨r, hrow, hl, hid, hproj, hact⟩
      have hf := findOne_of_unique (p := fun r => decide (r.accessScopeId = accessScopeId) &&
        decide (r.projectId = actorToken.projectId)) hrow hl (by simp [hid, hproj])
        fun r' hr' _ hp' => by
          simp only [Bool.and_eq_true, decide_eq_true_eq] at hp'
          exact hpk.eq_of_key hr' hrow (hp'.1.trans hid.symm)
      rw [hf]
      simp [hact]

theorem findActor_iff {s : Store} (hpk : UniqueOn ActorToken.actorTokenId s.actorTokens)
    {actorTokenId : Uuid} {actorToken : ActorToken} :
    findActor s actorTokenId = some actorToken ↔ actorToken ∈ s.actorTokens ∧
      live actorToken = true ∧ actorToken.actorTokenId = actorTokenId := by
  refine ⟨of_findActor, fun ⟨hrow, hl, hid⟩ => ?_⟩
  refine findOne_of_unique hrow hl (by simpa using hid) fun a ha _ hp => ?_
  exact hpk.eq_of_key ha hrow ((of_decide_eq_true hp).trans hid.symm)

/-- `revalidateActor` grants a session exactly on those rows. -/
theorem revalidateActor_valid_iff (config : CoreConfig) {s : Store} (hv : s.SchemaValid)
    {now : Int} {actorTokenId : Uuid} :
    (∃ payload, revalidateActor config s now actorTokenId = .valid payload) ↔
      ∃ actorToken, actorToken.actorTokenId = actorTokenId ∧ SessionOpen s now actorToken := by
  constructor
  · rintro ⟨payload, h⟩
    obtain ⟨actorToken, hactor, hst, hx, hp⟩ := revalidateActor_eq_valid.1 h
    obtain ⟨project, scope, hproject, hscope, _⟩ := of_buildSessionPayload hp
    obtain ⟨hrow, hl, hid⟩ := of_findActor hactor
    obtain ⟨hp1, hp2, hp3⟩ := of_findOne hproject
    exact ⟨actorToken, hid, hrow, hl, hst, hx, ⟨project, hp1, hp2, of_decide_eq_true hp3⟩,
      (resolveScope_isSome hv.pkScope).1 ⟨scope, hscope⟩⟩
  · rintro ⟨actorToken, hid, h⟩
    have hactor := (findActor_iff hv.pkActor).2 ⟨h.row, h.isLive, hid⟩
    obtain ⟨project, hp1, hp2, hp3⟩ := h.project
    obtain ⟨scope, hscope⟩ := (resolveScope_isSome hv.pkScope).2 h.scope
    have hproject := findOne_of_unique (p := fun p => decide (p.projectId = actorToken.projectId))
      hp1 hp2 (by simpa using hp3) fun p hp _ hk =>
        hv.pkProject.eq_of_key hp hp1 ((of_decide_eq_true hk).trans hp3.symm)
    have hbuild : ∃ payload, buildSessionPayload config s now actorToken = .ok payload := by
      unfold buildSessionPayload
      simp only [hproject, hscope]
      exact ⟨_, rfl⟩
    obtain ⟨payload, hbuild⟩ := hbuild
    exact ⟨payload, revalidateActor_eq_valid.2 ⟨actorToken, hactor, h.active, h.unexpired, hbuild⟩⟩

end Authz
end NolagCore
