import NolagCore.Authz.Gates

/-!
# Authz.Justified

The rows behind the entries of an answer, whatever the store and the caches of the instance hold. A
session reads the grants by the stored id; a check reads them by the id as its caller wrote it.
-/

namespace NolagCore
namespace Authz

open Lib AccessModel

/-! ## What justifies an entry -/

/-- The rows behind one returned entry of an app, with the grants that name the actor by the text
of the id. -/
def EntryJustified (s : Store) (now : Int) (actorTokenId : IdText) (actorType : EActorType)
    (appId : Uuid) (e : AllowedTopic) : Prop :=
  ∃ app room topicName scope,
    Entry s now actorTokenId.text actorType (HeldOrOpen s now actorTokenId.uuid) app room
      e.permission topicName ∧
    app.appId = appId ∧ e = buildAllowedTopic app.slug room topicName e.permission scope

/-- Every app of a session is reached, and every entry under it is justified. -/
def PayloadJustified (s : Store) (now : Int) (payload : ActorSessionPayload) : Prop :=
  ∀ appAccess ∈ payload.apps,
    (∃ app ∈ s.apps, live app = true ∧ app.status = .active ∧ app.appId = appAccess.appId ∧
      ∃ p ts, HeldOrOpen s now payload.actorTokenId app p ts) ∧
    ∀ e ∈ appAccess.allowedTopics,
      EntryJustified s now payload.actorTokenId.asStored payload.actorType appAccess.appId e

def ValidateJustified (s : Store) (now : Int) : ValidateActorResponse → Prop
  | .valid payload _ => PayloadJustified s now payload
  | .invalid _ => True

def AnswerJustified (s : Store) (now : Int) :
    Except SigningKeys.Thrown ValidateActorResponse → Prop
  | .ok r => ValidateJustified s now r
  | .error _ => True

def RevalidateJustified (s : Store) (now : Int) (actorTokenId : Uuid) :
    RevalidateActorResponse → Prop
  | .valid payload => payload.actorTokenId = actorTokenId ∧
      (∃ actorToken, findActor s actorTokenId = some actorToken ∧
        actorToken.actorType = payload.actorType) ∧
      PayloadJustified s now payload
  | .invalid _ _ => True

def CheckJustified (s : Store) (now : Int) (actorTokenId : IdText) (r : CheckRoomAccessResult) :
    Prop :=
  ∀ e ∈ r.allowedTopics, ∃ actorToken appId, findActor s actorTokenId.uuid = some actorToken ∧
    r.appId = some appId ∧ EntryJustified s now actorTokenId actorToken.actorType appId e

/-! ## The three entry points -/

theorem entry_of_batched {s : Store} {now : Int} {actorToken : ActorToken} {scope : ResolvedScope}
    {access : Access} (ha : access ∈ validAppAccess s now actorToken) {e : AllowedTopic}
    (he : e ∈ (buildOf s now actorToken scope access).allowedTopics) :
    EntryJustified s now actorToken.actorTokenId.asStored actorToken.actorType access.app.appId
      e := by
  obtain ⟨hrow, hlive, hst, hterms⟩ := of_mem_validAppAccess ha
  obtain ⟨room, hroom, p, topicName, ⟨ts, hra, hmem⟩, rfl⟩ := mem_allowedTopics.1 he
  obtain ⟨hr1, hr2, hr3, hr4⟩ := mem_activeRooms.1 hroom
  refine ⟨access.app, room, topicName, scope, ⟨hrow, hlive, hst, hr1, hr2, hr4, hr3, ?_⟩, rfl, rfl⟩
  exact ⟨_, _, hterms, roomAccess_yields (reads_batched s actorToken room) hra hmem⟩

theorem apps_justified (s : Store) (now : Int) (actorToken : ActorToken) (scope : ResolvedScope)
    {appAccess : AppAccess} (h : appAccess ∈ buildAppAccess s now actorToken scope) :
    (∃ app ∈ s.apps, live app = true ∧ app.status = .active ∧ app.appId = appAccess.appId ∧
      ∃ p ts, HeldOrOpen s now actorToken.actorTokenId app p ts) ∧
    ∀ e ∈ appAccess.allowedTopics,
      EntryJustified s now actorToken.actorTokenId.asStored actorToken.actorType appAccess.appId
        e := by
  obtain ⟨access, ha, hid, _, htopics⟩ := of_mem_buildAppAccess h
  obtain ⟨hrow, hlive, hst, hterms⟩ := of_mem_validAppAccess ha
  refine ⟨⟨access.app, hrow, hlive, hst, hid.symm, _, _, hterms⟩, fun e he => ?_⟩
  rw [htopics] at he
  rw [hid]
  exact entry_of_batched ha he

theorem payload_justified {config : CoreConfig} {s : Store} {now : Int} {actorToken : ActorToken}
    {payload : ActorSessionPayload}
    (h : buildSessionPayload config s now actorToken = .ok payload) :
    PayloadJustified s now payload := by
  obtain ⟨_, scope, _, _, hid, htype, happs⟩ := of_buildSessionPayload h
  intro appAccess hm
  rw [happs] at hm
  rw [hid, htype]
  exact apps_justified s now actorToken _ hm

theorem validateClientToken_justified (env : Env) (s : Store) (now : Int) (caches : Caches)
    (token : String) {r : ValidateActorResponse}
    (h : (validateClientToken env s now caches token).1 = .ok r) : ValidateJustified s now r := by
  unfold validateClientToken at h
  dsimp only at h
  split at h
  · cases h
  · cases h
    trivial
  · split at h
    · cases h
      trivial
    · split at h
      · cases h
        trivial
      · split at h
        · cases h
          trivial
        · rename_i payload hp
          cases h
          exact payload_justified hp

theorem validateAuthenticated_justified (config : CoreConfig) (s : Store) (now : Int)
    (actorToken : Option ActorToken) :
    ValidateJustified s now (validateAuthenticated config s now actorToken) := by
  unfold validateAuthenticated
  split
  · trivial
  · split
    · trivial
    · split
      · trivial
      · split
        · trivial
        · rename_i payload hp
          exact payload_justified hp

theorem validateActor_justified (env : Env) (s : Store) (now : Int) (caches : Caches)
    (accessToken : String) {r : ValidateActorResponse}
    (h : (validateActor env s now caches accessToken).1 = .ok r) : ValidateJustified s now r := by
  unfold validateActor at h
  split at h
  · exact validateClientToken_justified env s now caches accessToken h
  · cases h
    exact validateAuthenticated_justified env.config s now _

theorem appId_of_checkRoom {s : Store} {now : Int} {actorTokenId : String} {actorToken : ActorToken}
    {scope : ResolvedScope} {appSlug roomSlug : String} {e : AllowedTopic}
    (he : e ∈ (checkRoom s now actorTokenId actorToken scope appSlug roomSlug).allowedTopics)
    {app : PlatformApp} (happ : appBySlug s actorToken appSlug = some app) :
    (checkRoom s now actorTokenId actorToken scope appSlug roomSlug).appId = some app.appId := by
  rcases checkRoom_cases s now actorTokenId actorToken scope appSlug roomSlug with
    ⟨app', _, _, _, _, hs, _, hck⟩ | ⟨hck, _⟩
  · cases happ.symm.trans hs.byApp
    rw [hck]
  · rw [hck] at he
    cases he

theorem checkRoomAccess_justified (s : Store) (now : Int) (actorTokenId : IdText)
    (pattern : String) :
    CheckJustified s now actorTokenId (checkRoomAccess s now actorTokenId pattern) := by
  rcases checkRoomAccess_cases s now actorTokenId pattern with
    ⟨actorToken, scope, appSlug, roomSlug, hactor, _, _, _, _, heq⟩ | heq
  · rw [heq]
    intro e he
    have hid := (of_findActor hactor).2.2
    obtain ⟨app, access, room, p, ts, hs, topicName, hmem, rfl⟩ := mem_checkRoom.1 he
    obtain ⟨ha1, ha2, _, _, ha5⟩ := of_appBySlug hs.byApp
    obtain ⟨hr1, hr2, _, hr4, hr5⟩ := of_roomBySlug hs.byRoom
    obtain ⟨happ, hterms⟩ := of_liveAppAccess hs.byAccess
    have hyields := roomAccess_yields (reads_live s actorTokenId.text actorToken room) hs.byGrants
      hmem
    have hheld : HeldOrOpen s now actorTokenId.uuid app access.permission access.topics := by
      rcases hterms with ⟨hopen, hp, ht⟩ | ⟨g, _, hg, hp, ht⟩
      · rw [hp, ht]
        exact .opened hopen
      · rw [hp, ht]
        exact .held (hid ▸ hg)
    have happId := appId_of_checkRoom he hs.byApp
    rw [happ] at hyields
    exact ⟨actorToken, app.appId, hactor, happId, app, room, topicName, scope,
      ⟨ha1, ha2, ha5, hr1, hr2, hr5, hr4, _, _, hheld, hyields⟩, rfl, rfl⟩
  · rw [heq]
    intro e he
    cases he

theorem revalidateActor_justified (config : CoreConfig) (s : Store) (now : Int)
    (actorTokenId : Uuid) :
    RevalidateJustified s now actorTokenId (revalidateActor config s now actorTokenId) := by
  cases h : revalidateActor config s now actorTokenId with
  | invalid _ _ => trivial
  | valid payload =>
    obtain ⟨actorToken, hactor, _, _, hp⟩ := revalidateActor_eq_valid.1 h
    obtain ⟨_, _, _, _, hid, htype, _⟩ := of_buildSessionPayload hp
    exact ⟨hid.trans (of_findActor hactor).2.2, ⟨actorToken, hactor, htype.symm⟩,
      payload_justified hp⟩

/-! ## The topics column of a room -/

/-- The store with the `topics` column of every room rewritten. -/
def withRoomTopics (f : Room → Option (List String)) (s : Store) : Store :=
  { s with rooms := s.rooms.map fun r => { r with topics := f r } }

section RoomTopics

variable (f : Room → Option (List String)) (s : Store) (now : Int)

theorem activeRooms_withRoomTopics (appId : Uuid) :
    activeRooms (withRoomTopics f s) appId =
      (activeRooms s appId).map fun r => { r with topics := f r } := by
  unfold activeRooms findAll withRoomTopics
  rw [List.filter_map]
  rfl

theorem roomBySlug_withRoomTopics (app : PlatformApp) (roomSlug : String) :
    roomBySlug (withRoomTopics f s) app roomSlug =
      (roomBySlug s app roomSlug).map fun r => { r with topics := f r } := by
  unfold roomBySlug findOne withRoomTopics
  rw [List.find?_map]
  rfl

theorem buildOf_withRoomTopics (actorToken : ActorToken) (scope : ResolvedScope)
    (access : Access) :
    buildOf (withRoomTopics f s) now actorToken scope access =
      buildOf s now actorToken scope access := by
  unfold buildOf buildApp
  rw [activeRooms_withRoomTopics, List.flatMap_map, List.filterMap_map]
  rfl

theorem buildAppAccess_withRoomTopics (actorToken : ActorToken) (scope : ResolvedScope) :
    buildAppAccess (withRoomTopics f s) now actorToken scope =
      buildAppAccess s now actorToken scope := by
  have hvalid : validAppAccess (withRoomTopics f s) now actorToken =
      validAppAccess s now actorToken := rfl
  have hbuild : buildAppsMap (withRoomTopics f s) now actorToken scope =
      buildAppsMap s now actorToken scope := by
    rw [buildAppsMap_eq, buildAppsMap_eq, hvalid]
    exact ofList_congr fun access _ => buildOf_withRoomTopics f s now actorToken scope access
  unfold buildAppAccess
  rw [hvalid, hbuild]
  rfl

theorem buildSessionPayload_withRoomTopics (config : CoreConfig) (actorToken : ActorToken) :
    buildSessionPayload config (withRoomTopics f s) now actorToken =
      buildSessionPayload config s now actorToken := by
  unfold buildSessionPayload
  simp only [buildAppAccess_withRoomTopics]
  rfl

theorem validateActor_withRoomTopics (env : Env) (caches : Caches) (accessToken : String) :
    validateActor env (withRoomTopics f s) now caches accessToken =
      validateActor env s now caches accessToken := by
  unfold validateActor validateClientToken validateAuthenticated
  simp only [buildSessionPayload_withRoomTopics]
  rfl

theorem revalidateActor_withRoomTopics (config : CoreConfig) (actorTokenId : Uuid) :
    revalidateActor config (withRoomTopics f s) now actorTokenId =
      revalidateActor config s now actorTokenId := by
  unfold revalidateActor
  simp only [buildSessionPayload_withRoomTopics]
  rfl

theorem checkRoom_withRoomTopics (actorTokenId : String) (actorToken : ActorToken)
    (scope : ResolvedScope) (appSlug roomSlug : String) :
    checkRoom (withRoomTopics f s) now actorTokenId actorToken scope appSlug roomSlug =
      checkRoom s now actorTokenId actorToken scope appSlug roomSlug := by
  have happ : appBySlug (withRoomTopics f s) actorToken appSlug = appBySlug s actorToken appSlug :=
    rfl
  rw [checkRoom_eq, checkRoom_eq, happ]
  cases appBySlug s actorToken appSlug with
  | none => rfl
  | some app =>
    have hacc : liveAppAccess (withRoomTopics f s) now actorToken.actorTokenId app =
        liveAppAccess s now actorToken.actorTokenId app := rfl
    dsimp only
    rw [hacc, roomBySlug_withRoomTopics]
    cases liveAppAccess s now actorToken.actorTokenId app with
    | none => rfl
    | some access => cases roomBySlug s app roomSlug <;> rfl

theorem checkRoomAccess_withRoomTopics (actorTokenId : IdText) (pattern : String) :
    checkRoomAccess (withRoomTopics f s) now actorTokenId pattern =
      checkRoomAccess s now actorTokenId pattern := by
  unfold checkRoomAccess
  simp only [checkRoom_withRoomTopics]
  rfl

end RoomTopics

end Authz
end NolagCore
