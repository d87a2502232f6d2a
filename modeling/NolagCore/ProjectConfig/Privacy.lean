import NolagCore.ProjectConfig.CarriedGrants

/-!
# ProjectConfig.Privacy

Whether a round trip opens what was closed. A room is private while some grant on it is live,
whoever holds it, but the export lists a grant to an actor only under a live actor of the project.
A room whose last such holder is deleted therefore comes back public.
-/

namespace NolagCore
namespace ProjectConfig

open Lib RoomActorAccessFacade

/-- No room changes between private and public, and no scoped actor comes back without its scope. -/
structure ReopensNothing (s : Store) (projectId : Uuid) (s' : Store)
    (credentials : ImportedCredentials) : Prop where
  rooms : ∀ app room, RoomOf s projectId app room →
    ∃ room', RoomAt s' credentials.projectId app room room' ∧
      isPrivateRoom s' room'.roomId = isPrivateRoom s room.roomId
  actors : ∀ actor, ActorOf s projectId actor → ∀ scope ∈ s.accessScopes,
    actor.accessScopeId = some scope.accessScopeId →
    ∃ actor' scope', Reissued credentials s' actor actor' ∧
      ScopeOf s' credentials.projectId scope' ∧ scope'.slug = scope.slug ∧
      actor'.accessScopeId = some scope'.accessScopeId

/-- The private rooms are those some grant is carried to, and the scope of every scoped actor is one
the document can name. -/
structure KeepsClosed (collate : String → String → Bool) (s : Store) (projectId : Uuid) : Prop where
  rooms : ∀ app room, RoomOf s projectId app room →
    (isPrivateRoom s room.roomId = true ↔ ∃ g, CarriedTo collate s projectId app room g)
  scopes : ∀ actor, ActorOf s projectId actor → ∀ scope ∈ s.accessScopes,
    actor.accessScopeId = some scope.accessScopeId →
    ScopeOf s projectId scope ∧ scope.slug ≠ ""

section

variable {collate : String → String → Bool} {host : Host} {draws : Draws} {now : Int}
  {source target target' : Database} {projectId : Uuid} {doc : ProjectConfigDoc}
  {credentials : ImportedCredentials}

theorem rooms_iff
    (h : RoundTrip collate host draws now source target target' projectId doc credentials)
    {app : PlatformApp} {room : Room} (hof : RoomOf source.store projectId app room) :
    (∃ room', RoomAt target'.store credentials.projectId app room room' ∧
      isPrivateRoom target'.store room'.roomId = isPrivateRoom source.store room.roomId) ↔
    (isPrivateRoom source.store room.roomId = true ↔
      ∃ g, CarriedTo collate source.store projectId app room g) := by
  obtain ⟨i, j, hslot⟩ := exists_roomSlot hof
  rw [← h.newRoom_private_iff hslot]
  constructor
  · rintro ⟨room', hat, hprivate⟩
    obtain rfl := (h.roomAt_iff hslot).1 hat
    exact Bool.eq_iff_iff.1 hprivate.symm
  · intro hprivate
    exact ⟨_, (h.roomAt_iff hslot).2 rfl, Bool.eq_iff_iff.2 hprivate.symm⟩

theorem scope_iff
    (h : RoundTrip collate host draws now source target target' projectId doc credentials)
    {actor : ActorToken} (ha : ActorOf source.store projectId actor) {scope : AccessScope}
    (hscope : scope ∈ source.store.accessScopes)
    (hbound : actor.accessScopeId = some scope.accessScopeId) :
    (∃ actor' scope', Reissued credentials target'.store actor actor' ∧
      ScopeOf target'.store credentials.projectId scope' ∧ scope'.slug = scope.slug ∧
      actor'.accessScopeId = some scope'.accessScopeId) ↔
    ScopeOf source.store projectId scope ∧ scope.slug ≠ "" := by
  constructor
  · rintro ⟨actor', scope', hre, -, -, hbound'⟩
    obtain ⟨i, actorDoc, accessScopeId, expiresAt, hslot, hs, -, rfl⟩ := (h.reissued_iff ha.1).1 hre
    rcases actorScope_ok hs with ⟨-, rfl⟩ | ⟨slug, id, hdoc, hne, -, -⟩
    · cases hbound'
    · obtain ⟨scope₀, hscope₀, hbound₀, rfl⟩ := (hslot.exported.scopeSlug slug).1 hdoc
      have hid := Option.some.inj (hbound.symm.trans hbound₀)
      obtain rfl := source.valid.pkScope.eq_of_key hscope hscope₀.1 hid
      exact ⟨hscope₀, hne⟩
  · rintro ⟨hof, hne⟩
    obtain ⟨actor', hre⟩ := h.exists_reissued ha
    obtain ⟨i, actorDoc, accessScopeId, expiresAt, hslot, hs, ht, rfl⟩ := (h.reissued_iff ha.1).1 hre
    have hdoc := (hslot.exported.scopeSlug scope.slug).2 ⟨scope, hof, hbound, rfl⟩
    rcases actorScope_ok hs with ⟨hfalsy, -⟩ | ⟨slug, id, hdoc', -, hget, rfl⟩
    · rw [hdoc, truthy_some.2 hne] at hfalsy
      cases hfalsy
    · obtain rfl := Option.some.inj (hdoc.symm.trans hdoc')
      obtain ⟨k, scope', hk, hslug, rfl⟩ := h.scopeIdBySlug_iff.1 hget
      exact ⟨_, _, hre, h.newScope_of hk, hslug, rfl⟩

/-- A round trip reopens nothing exactly when every private room has a grant the export carries and
every scope an actor is bound to is one the document can name. -/
theorem reopens_nothing_iff
    (h : RoundTrip collate host draws now source target target' projectId doc credentials) :
    ReopensNothing source.store projectId target'.store credentials ↔
      KeepsClosed collate source.store projectId := by
  constructor
  · intro hopen
    constructor
    · intro app room hof
      exact (rooms_iff h hof).1 (hopen.rooms app room hof)
    · intro actor ha scope hscope hbound
      exact (scope_iff h ha hscope hbound).1 (hopen.actors actor ha scope hscope hbound)
  · intro hclosed
    constructor
    · intro app room hof
      exact (rooms_iff h hof).2 (hclosed.rooms app room hof)
    · intro actor ha scope hscope hbound
      exact (scope_iff h ha hscope hbound).2 (hclosed.scopes actor ha scope hscope hbound)

end

/-! ## A room whose guest is gone -/

/-- One room with one guest, who is bound to a scope and may be deleted. -/
def guestStore (deletedAt : Option Int) : Store where
  projects := [{ projectId := .of "p", name := "Project" }]
  accessScopes := [{ accessScopeId := .of "s", projectId := .of "p", slug := "eu", name := "EU" }]
  apps := [{ appId := .of "app", projectId := .of "p", name := "Chat", slug := "chat" }]
  rooms := [{ roomId := .of "room", appId := .of "app", slug := "vip", name := "VIP" }]
  actorTokens := [
    { actorTokenId := .of "t1", projectId := .of "p", keyId := "at_live_1", secretHash := "",
      name := "Guest", actorType := .user, accessScopeId := some (.of "s"), deletedAt := deletedAt }]
  roomActorAccess := [
    { roomActorAccessId := .of "g", roomId := .of "room", actorTokenId := some (.of "t1"),
      permission := .pubSub }]

/-- While the guest is live the room stays private and the guest stays in its scope. -/
theorem reopens_nothing_guest : ∃ target' doc credentials,
    RoundTrip collateC sampleHost sampleDraws 0 ⟨guestStore none, by decide⟩
      ⟨guestStore none, by decide⟩ target' (.of "p") doc credentials ∧
    ReopensNothing (guestStore none) (.of "p") target'.store credentials := by
  have htrip : ∃ target' doc credentials, RoundTrip collateC sampleHost sampleDraws 0
      ⟨guestStore none, by decide⟩ ⟨guestStore none, by decide⟩ target' (.of "p") doc credentials :=
    ⟨_, _, _, rfl, rfl⟩
  obtain ⟨target', doc, credentials, h⟩ := htrip
  refine ⟨target', doc, credentials, h, (reopens_nothing_iff h).2 ⟨?_, ?_⟩⟩
  · rintro app room ⟨⟨happ, -, -⟩, hroom, -, -⟩
    simp only [guestStore, List.mem_singleton] at happ hroom
    subst happ hroom
    constructor
    · intro _
      refine ⟨_, .named ⟨List.mem_singleton_self _, rfl, rfl⟩ (List.mem_singleton_self _)
        ⟨⟨List.mem_singleton_self _, rfl, rfl⟩, List.mem_singleton_self _, rfl, rfl⟩ rfl ?_⟩
      decide +kernel
    · intro _
      decide
  · intro actor _ scope hscope _
    simp only [guestStore, List.mem_singleton] at hscope
    subst hscope
    exact ⟨⟨List.mem_singleton_self _, rfl, rfl⟩, by decide⟩

/-- With the guest deleted the grant still makes the room private, and its copy is public. -/
theorem guest_room_reopened :
    ¬ ∀ (collate : String → String → Bool) (host : Host) (draws : Draws) (now : Int)
      (source target target' : Database) (projectId : Uuid) (doc : ProjectConfigDoc)
      (credentials : ImportedCredentials),
      RoundTrip collate host draws now source target target' projectId doc credentials →
      ReopensNothing source.store projectId target'.store credentials := by
  intro hevery
  obtain ⟨room', -, hprivate⟩ := (hevery collateC sampleHost sampleDraws 0
    ⟨guestStore (some 1), by decide⟩ Database.empty _ (.of "p") _ _ ⟨rfl, rfl⟩).rooms
    { appId := .of "app", projectId := .of "p", name := "Chat", slug := "chat" }
    { roomId := .of "room", appId := .of "app", slug := "vip", name := "VIP" }
    ⟨⟨List.mem_singleton_self _, rfl, rfl⟩, List.mem_singleton_self _, rfl, rfl⟩
  cases hprivate

end ProjectConfig
end NolagCore
