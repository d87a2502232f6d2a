import NolagCore.Authz.Gates

/-!
# Authz.Expiry

What the passing of time does to a session. Every gate and every grant only closes, except that an
expired grant on an open app no longer stands in the way of the access that app gives everyone.
-/

namespace NolagCore
namespace Authz

open Lib AccessModel

/-! ## Capabilities -/

inductive Right where
  | subscribe | publish
deriving DecidableEq

/-- `pubSub` counts as both. -/
def permits : EAccessPermission → Right → Bool
  | .pubSub, _ => true
  | .subscribe, .subscribe => true
  | .publish, .publish => true
  | _, _ => false

/-- The session may use an address in this way. -/
def Capability (payload : ActorSessionPayload) (pattern topic : String) (right : Right) : Prop :=
  ∃ appAccess ∈ payload.apps, ∃ e ∈ appAccess.allowedTopics,
    e.pattern = pattern ∧ e.topic = topic ∧ permits e.permission right = true

/-- A public room of an open app of the project, and a grant of the actor on that app that was in
force at `t₁` and has expired by `t₂`. -/
structure Reopens (s : Store) (t₁ t₂ : Int) (actorToken : ActorToken) (app : PlatformApp)
    (room : Room) : Prop where
  appRow : app ∈ s.apps
  appLive : live app = true
  appActive : app.status = .active
  home : app.projectId = actorToken.projectId
  isOpen : app.accessMode = .open
  roomRow : room ∈ s.rooms
  roomLive : live room = true
  roomActive : room.status = .active
  roomApp : room.appId = app.appId
  isPublic : IsPublic s room
  ran_out : ∃ g, AppGrant s t₁ actorToken.actorTokenId app g ∧ expired g.expiresAt t₂ = true

/-! ## Nothing comes back -/

theorem unexpired_of_later {expiresAt : Option Int} {t₁ t₂ : Int} (hle : t₁ ≤ t₂)
    (h : expired expiresAt t₂ = false) : expired expiresAt t₁ = false := by
  unfold expired at h ⊢
  split
  · simp only [decide_eq_false_iff_not] at h ⊢
    omega
  · rfl

section Later

variable {s : Store} {t₁ t₂ : Int} (hle : t₁ ≤ t₂)
include hle

theorem appGrant_earlier {actorTokenId : Uuid} {app : PlatformApp} {g : ActorAppAccess}
    (h : AppGrant s t₂ actorTokenId app g) : AppGrant s t₁ actorTokenId app g where
  row := h.row
  isLive := h.isLive
  actor := h.actor
  onApp := h.onApp
  active := h.active
  unexpired := unexpired_of_later hle h.unexpired

/-- What a room contributes at `t₂` it contributed at `t₁`, on the same terms. -/
theorem roomAccess_earlier {access : Access} {grants : RoomGrants}
    {r : EAccessPermission × Option (List String)} (h : roomAccess t₂ access grants = some r) :
    roomAccess t₁ access grants = some r := by
  unfold roomAccess at h ⊢
  by_cases hp : grants.entries = []
  · rw [if_pos hp] at h ⊢
    exact h
  · rw [if_neg hp] at h ⊢
    cases heff : grants.effective with
    | none => simp [heff] at h
    | some grant =>
      simp only [heff] at h ⊢
      by_cases hx : expired grant.expiresAt t₂ = true
      · simp [hx] at h
      · have hx₁ := unexpired_of_later hle (by simpa using hx)
        simp only [Bool.not_eq_true] at hx
        simpa [hx, hx₁] using h

theorem allowedTopics_earlier {actorToken : ActorToken} {scope : ResolvedScope} {access : Access}
    {e : AllowedTopic} (h : e ∈ (buildOf s t₂ actorToken scope access).allowedTopics) :
    e ∈ (buildOf s t₁ actorToken scope access).allowedTopics := by
  obtain ⟨room, hroom, p, topicName, ⟨ts, hra, hmem⟩, rfl⟩ := mem_allowedTopics.1 h
  exact mem_allowedTopics.2 ⟨room, hroom, p, topicName, ⟨ts, roomAccess_earlier hle hra, hmem⟩, rfl⟩

end Later

/-- On a private room the app's terms do not show. -/
theorem roomAccess_private {now : Int} {access access' : Access} {grants : RoomGrants}
    (happ : access.app = access'.app) (hp : grants.entries ≠ []) :
    roomAccess now access grants = roomAccess now access' grants := by
  unfold roomAccess
  rw [if_neg hp, if_neg hp, happ]

/-- An entry given on an app's open terms is one of the earlier grant's, on a private room. -/
theorem allowedTopics_terms {s : Store} {now : Int} {actorToken : ActorToken}
    {scope : ResolvedScope} {access access' : Access} (happ : access.app = access'.app)
    {e : AllowedTopic} (h : e ∈ (buildOf s now actorToken scope access).allowedTopics) :
    e ∈ (buildOf s now actorToken scope access').allowedTopics ∨
      ∃ room ∈ activeRooms s access.app.appId, IsPublic s room ∧
        ∃ topicName ∈ topicsOf access.topics access.app,
          e = buildAllowedTopic access.app.slug room topicName access.permission scope := by
  obtain ⟨room, hroom, p, topicName, ⟨ts, hra, hmem⟩, rfl⟩ := mem_allowedTopics.1 h
  by_cases hpub : (batchedRoomGrants s actorToken room).entries = []
  · right
    have hpublic : IsPublic s room := grantsOn_eq_nil.1 hpub
    unfold roomAccess at hra
    rw [if_pos hpub] at hra
    cases hra
    exact ⟨room, hroom, hpublic, topicName, hmem, rfl⟩
  · left
    rw [roomAccess_private happ hpub] at hra
    rw [happ]
    exact mem_allowedTopics.2 ⟨room, happ ▸ hroom, p, topicName, ⟨ts, hra, hmem⟩, rfl⟩

/-! ## Sessions at two instants -/

/-- The entries of a session are those of the elements of `validAppAccess`. -/
theorem mem_session {config : CoreConfig} {s : Store} (hv : s.SchemaValid) {now : Int}
    {actorToken : ActorToken} {payload : ActorSessionPayload}
    (h : buildSessionPayload config s now actorToken = .ok payload) :
    ∃ scope, resolveScope s actorToken = some scope ∧ ∀ e,
      (∃ appAccess ∈ payload.apps, e ∈ appAccess.allowedTopics) ↔
        ∃ access ∈ validAppAccess s now actorToken,
          e ∈ (buildOf s now actorToken scope access).allowedTopics := by
  obtain ⟨_, scope, _, hscope, _, _, happs⟩ := of_buildSessionPayload h
  refine ⟨scope, hscope, fun e => ?_⟩
  rw [happs]
  constructor
  · rintro ⟨appAccess, hm, he⟩
    obtain ⟨access, ha, _, _, htopics⟩ := of_mem_buildAppAccess hm
    rw [htopics] at he
    exact ⟨access, ha, he⟩
  · rintro ⟨access, ha, he⟩
    obtain ⟨appAccess, hm, _, _, htopics⟩ := mem_buildAppAccess hv
      { scopeId := scope.scopeId, scopeSlug := scope.scopeSlug } ha
    refine ⟨appAccess, hm, ?_⟩
    rw [htopics]
    exact he

/-- An app reached at `t₂` was reached at `t₁`, on the same terms or on those of a grant that has
run out since. -/
theorem validAppAccess_earlier {s : Store} (hv : s.SchemaValid) {t₁ t₂ : Int} (hle : t₁ ≤ t₂)
    {actorToken : ActorToken} {access : Access} (h : access ∈ validAppAccess s t₂ actorToken) :
    access ∈ validAppAccess s t₁ actorToken ∨
      access = synthetic access.app ∧ access.app.projectId = actorToken.projectId ∧
        access.app.accessMode = .open ∧
        ∃ g, AppGrant s t₁ actorToken.actorTokenId access.app g ∧
          expired g.expiresAt t₂ = true ∧
          ⟨access.app, g.permission, g.topics⟩ ∈ validAppAccess s t₁ actorToken := by
  obtain ⟨hrow, hlive, hst, hterms⟩ := (mem_validAppAccess hv).1 h
  obtain ⟨app, p, ts⟩ := access
  cases hterms with
  | held hg =>
    exact .inl ((mem_validAppAccess hv).2 ⟨hrow, hlive, hst, .held (appGrant_earlier hle hg)⟩)
  | opened hhome hopen hunheld =>
    by_cases hheld : ∃ g, AppGrant s t₁ actorToken.actorTokenId app g
    · obtain ⟨g, hg⟩ := hheld
      have hx : expired g.expiresAt t₂ = true := by
        by_contra hx
        simp only [Bool.not_eq_true] at hx
        exact hunheld g ⟨hg.row, hg.isLive, hg.actor, hg.onApp, hg.active, hx⟩
      exact .inr ⟨rfl, hhome, hopen, g, hg, hx,
        (mem_validAppAccess hv).2 ⟨hrow, hlive, hst, .held hg⟩⟩
    · have hnone : ∀ g, ¬ AppGrant s t₁ actorToken.actorTokenId app g := not_exists.1 hheld
      exact .inl ((mem_validAppAccess hv).2 ⟨hrow, hlive, hst, .opened hhome hopen hnone⟩)

theorem buildSessionPayload_at {config : CoreConfig} {s : Store} {t₁ t₂ : Int}
    {actorToken : ActorToken} {payload : ActorSessionPayload}
    (h : buildSessionPayload config s t₂ actorToken = .ok payload) :
    ∃ payload₁, buildSessionPayload config s t₁ actorToken = .ok payload₁ := by
  obtain ⟨project, scope, hproject, hscope, _⟩ := of_buildSessionPayload h
  unfold buildSessionPayload
  simp only [hproject, hscope]
  exact ⟨_, rfl⟩

/-- Time only takes capabilities away, but for the rooms an open app gives back once a grant on it
has run out. -/
theorem capabilities_only_shrink (config : CoreConfig) (db : Database) (actorTokenId : Uuid)
    (t₁ t₂ : Int) (hle : t₁ ≤ t₂) (payload₂ : ActorSessionPayload)
    (h₂ : revalidateActor config db.store t₂ actorTokenId = .valid payload₂) :
    ∃ payload₁, revalidateActor config db.store t₁ actorTokenId = .valid payload₁ ∧
      ∀ pattern topic right, Capability payload₂ pattern topic right →
        Capability payload₁ pattern topic right ∨
        ∃ actorToken scope app room, findActor db.store actorTokenId = some actorToken ∧
          resolveScope db.store actorToken = some scope ∧
          Reopens db.store t₁ t₂ actorToken app room ∧
          ∃ topicName ∈ topicsOf none app,
            pattern = (buildAllowedTopic app.slug room topicName .pubSub scope).pattern ∧
            topic = (buildAllowedTopic app.slug room topicName .pubSub scope).topic := by
  have hv := db.valid
  obtain ⟨actorToken, hactor, hst, hx, hp₂⟩ := revalidateActor_eq_valid.1 h₂
  obtain ⟨payload₁, hp₁⟩ : ∃ payload₁,
      buildSessionPayload config db.store t₁ actorToken = .ok payload₁ := buildSessionPayload_at hp₂
  have h₁ : revalidateActor config db.store t₁ actorTokenId = .valid payload₁ :=
    revalidateActor_eq_valid.2 ⟨actorToken, hactor, hst, unexpired_of_later hle hx, hp₁⟩
  refine ⟨payload₁, h₁, ?_⟩
  obtain ⟨scope, hscope, hmem₁⟩ := mem_session hv hp₁
  obtain ⟨scope', hscope', hmem₂⟩ := mem_session hv hp₂
  cases hscope.symm.trans hscope'
  rintro pattern topic right ⟨appAccess, happ, e, he, rfl, rfl, hright⟩
  obtain ⟨access, ha, he⟩ := (hmem₂ e).1 ⟨appAccess, happ, he⟩
  have he₁ := allowedTopics_earlier hle he
  rcases validAppAccess_earlier hv hle ha with ha₁ | ⟨hsyn, hhome, hopen, g, hg, hgx, ha₁⟩
  · obtain ⟨appAccess₁, happ₁, he₁⟩ := (hmem₁ e).2 ⟨access, ha₁, he₁⟩
    exact .inl ⟨appAccess₁, happ₁, e, he₁, rfl, rfl, hright⟩
  · have happ' : access.app = (⟨access.app, g.permission, g.topics⟩ : Access).app := rfl
    rcases allowedTopics_terms happ' he₁ with
      he₁ | ⟨room, hroom, hpub, topicName, htopic, rfl⟩
    · obtain ⟨appAccess₁, happ₁, he₁⟩ := (hmem₁ e).2 ⟨_, ha₁, he₁⟩
      exact .inl ⟨appAccess₁, happ₁, e, he₁, rfl, rfl, hright⟩
    · obtain ⟨hrow, hlive, hactive, _⟩ := (mem_validAppAccess hv).1 ha
      obtain ⟨hr1, hr2, hr3, hr4⟩ := mem_activeRooms.1 hroom
      rw [hsyn] at htopic
      exact .inr ⟨actorToken, scope, access.app, room, hactor, hscope,
        ⟨hrow, hlive, hactive, hhome, hopen, hr1, hr2, hr4, hr3, hpub, g, hg, hgx⟩,
        topicName, htopic, rfl, rfl⟩

/-! ## A grant that runs out on an open app -/

def carol : ActorToken where
  actorTokenId := .of "t1"
  projectId := .of "p1"
  keyId := "at_live_1"
  secretHash := ""
  name := "carol"
  actorType := .user

/-- An open app with a public room, and an actor granted subscribe on the app until 0. -/
def runningOutDb : Database where
  store :=
    { projects := [{ projectId := .of "p1", name := "acme" }]
      apps := [{ appId := .of "a1", projectId := .of "p1", name := "Chat", slug := "chat",
                 topics := some ["messages"] }]
      rooms := [{ roomId := .of "r1", appId := .of "a1", slug := "lobby", name := "Lobby" }]
      actorTokens := [carol]
      actorAppAccess := [{ actorAppAccessId := .of "g1", actorTokenId := .of "t1",
                           appId := .of "a1", permission := .subscribe, expiresAt := some 0 }] }
  valid := by decide

/-- The session of `carol`, with the permission the app gives at the time. -/
def carolPayload (permission : EAccessPermission) : ActorSessionPayload where
  actorTokenId := .of "t1"
  organizationId := none
  projectId := .of "p1"
  projectName := "acme"
  actorType := .user
  scopeId := none
  scopeSlug := none
  scopeName := none
  apps :=
    [{ appId := .of "a1"
       appName := "Chat"
       appSlug := "chat"
       allowedTopics := [{ pattern := "chat/lobby/messages", topic := "r1/messages",
                           permission := permission, roomId := .of "r1", roomSlug := "lobby",
                           scopeId := none, scopeSlug := none }]
       allowedLobbies := []
       activeSubscriptions := []
       hydrationWebhook := none
       triggerWebhook := none
       topicWebhooks := [] }]
  maxConnections := none
  maxMessageSizeBytes := none
  sessionExpirySeconds := 0
  persistentSession := false

theorem carol_at_0 :
    revalidateActor {} runningOutDb.store 0 (.of "t1") = .valid (carolPayload .subscribe) := by
  decide

theorem carol_at_1 :
    revalidateActor {} runningOutDb.store 1 (.of "t1") = .valid (carolPayload .pubSub) := by
  decide

/-- Publishing is refused while the grant lasts and allowed after it. -/
theorem expiry_widens :
    ¬ ∀ (config : CoreConfig) (db : Database) (actorTokenId : Uuid) (t₁ t₂ : Int), t₁ ≤ t₂ →
      ∀ payload₁ payload₂, revalidateActor config db.store t₁ actorTokenId = .valid payload₁ →
        revalidateActor config db.store t₂ actorTokenId = .valid payload₂ →
        ∀ pattern topic right, Capability payload₂ pattern topic right →
          Capability payload₁ pattern topic right := by
  intro hevery
  have hlater : Capability (carolPayload .pubSub) "chat/lobby/messages" "r1/messages" .publish :=
    ⟨_, List.mem_singleton_self _, _, List.mem_singleton_self _, rfl, rfl, rfl⟩
  obtain ⟨appAccess, happ, e, he, _, _, hright⟩ := hevery {} runningOutDb (.of "t1") 0 1 (by decide)
    (carolPayload .subscribe) (carolPayload .pubSub) carol_at_0 carol_at_1 _ _ _ hlater
  cases List.mem_singleton.1 happ
  cases List.mem_singleton.1 he
  cases hright

/-- The amended law between the same two instants. -/
theorem capabilities_only_shrink_runningOut :
    ∃ payload₁, revalidateActor {} runningOutDb.store 0 (.of "t1") = .valid payload₁ ∧
      ∀ pattern topic right, Capability (carolPayload .pubSub) pattern topic right →
        Capability payload₁ pattern topic right ∨
        ∃ actorToken scope app room, findActor runningOutDb.store (.of "t1") = some actorToken ∧
          resolveScope runningOutDb.store actorToken = some scope ∧
          Reopens runningOutDb.store 0 1 actorToken app room ∧
          ∃ topicName ∈ topicsOf none app,
            pattern = (buildAllowedTopic app.slug room topicName .pubSub scope).pattern ∧
            topic = (buildAllowedTopic app.slug room topicName .pubSub scope).topic :=
  capabilities_only_shrink {} runningOutDb (.of "t1") 0 1 (by decide) _ carol_at_1

end Authz
end NolagCore
