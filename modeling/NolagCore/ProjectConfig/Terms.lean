import NolagCore.ProjectConfig.CarriedGrants

/-!
# ProjectConfig.Terms

Whether a round trip keeps what every grant means. App grants and named room grants go into the
document with their expiry; the entry of a grant to a type has no place for one, so the copy of such
a grant never expires.
-/

namespace NolagCore
namespace ProjectConfig

open Lib

/-- The same permission, topics, switch and expiry, so in force at the same instants. -/
def SameTerms (t t' : GrantTerms) : Prop :=
  t'.permission = t.permission ∧ t'.topics = t.topics ∧ t'.isActive = t.isActive ∧
    t'.expiresAt = t.expiresAt ∧ ∀ now, t'.inForce now = t.inForce now

theorem sameTerms_iff {t t' : GrantTerms} : SameTerms t t' ↔ t' = t := by
  constructor
  · rintro ⟨hp, ht, ha, he, -⟩
    cases t
    cases t'
    cases hp
    cases ht
    cases ha
    cases he
    rfl
  · rintro rfl
    exact ⟨rfl, rfl, rfl, rfl, fun _ => rfl⟩

/-- Every grant on a live app or room of the project, to a type or to a live actor, has a
counterpart with its terms. -/
structure KeepsGrants (s : Store) (projectId : Uuid) (s' : Store)
    (credentials : ImportedCredentials) : Prop where
  typeGrants : ∀ app room, RoomOf s projectId app room → ∀ g ∈ s.roomActorAccess, live g = true →
    g.roomId = room.roomId → g.actorTokenId = none →
    ∃ room', RoomAt s' credentials.projectId app room room' ∧
      ∃ g' ∈ s'.roomActorAccess, live g' = true ∧ g'.roomId = room'.roomId ∧
        g'.actorTokenId = none ∧ g'.actorType = g.actorType ∧
        SameTerms (roomTerms g) (roomTerms g')
  appGrants : ∀ app, AppOf s projectId app → ∀ actor ∈ s.actorTokens, live actor = true →
    ∀ g ∈ s.actorAppAccess, live g = true → g.appId = app.appId →
    g.actorTokenId = actor.actorTokenId →
    ∃ app' actor', AppAt s' credentials.projectId app app' ∧ Reissued credentials s' actor actor' ∧
      ∃ g' ∈ s'.actorAppAccess, live g' = true ∧ g'.appId = app'.appId ∧
        g'.actorTokenId = actor'.actorTokenId ∧ SameTerms (appTerms g) (appTerms g')
  roomGrants : ∀ app room, RoomOf s projectId app room → ∀ actor ∈ s.actorTokens,
    live actor = true → ∀ g ∈ s.roomActorAccess, live g = true → g.roomId = room.roomId →
    g.actorTokenId = some actor.actorTokenId →
    ∃ room' actor', RoomAt s' credentials.projectId app room room' ∧
      Reissued credentials s' actor actor' ∧
      ∃ g' ∈ s'.roomActorAccess, live g' = true ∧ g'.roomId = room'.roomId ∧
        g'.actorTokenId = some actor'.actorTokenId ∧ SameTerms (roomTerms g) (roomTerms g')

/-- No grant to a type expires, every holder is an actor of the project, and slugs lead back: an app
with a grant has one that is not empty, a room with a named grant owns its key. -/
structure GrantsCarried (collate : String → String → Bool) (s : Store) (projectId : Uuid) :
    Prop where
  types : ∀ app room, RoomOf s projectId app room → ∀ g ∈ s.roomActorAccess, live g = true →
    g.roomId = room.roomId → g.actorTokenId = none → g.expiresAt = none
  apps : ∀ app, AppOf s projectId app → ∀ actor ∈ s.actorTokens, live actor = true →
    ∀ g ∈ s.actorAppAccess, live g = true → g.appId = app.appId →
    g.actorTokenId = actor.actorTokenId → actor.projectId = projectId ∧ app.slug ≠ ""
  rooms : ∀ app room, RoomOf s projectId app room → ∀ actor ∈ s.actorTokens,
    live actor = true → ∀ g ∈ s.roomActorAccess, live g = true → g.roomId = room.roomId →
    g.actorTokenId = some actor.actorTokenId →
    actor.projectId = projectId ∧
      keyOwner collate s projectId (roomKey app.slug room.slug) = some (app, room)

section

variable {collate : String → String → Bool} {host : Host} {draws : Draws} {now : Int}
  {source target target' : Database} {projectId : Uuid} {doc : ProjectConfigDoc}
  {credentials : ImportedCredentials}

theorem typeGrant_kept_iff
    (h : RoundTrip collate host draws now source target target' projectId doc credentials)
    {app : PlatformApp} {room : Room} (hof : RoomOf source.store projectId app room)
    {g : RoomActorAccess} (hg : g ∈ typeGrantsOf source.store room) :
    (∃ room', RoomAt target'.store credentials.projectId app room room' ∧
      ∃ g' ∈ target'.store.roomActorAccess, live g' = true ∧ g'.roomId = room'.roomId ∧
        g'.actorTokenId = none ∧ g'.actorType = g.actorType ∧
        SameTerms (roomTerms g) (roomTerms g')) ↔ g.expiresAt = none := by
  obtain ⟨i, j, hslot⟩ := exists_roomSlot hof
  constructor
  · rintro ⟨room', hat, g', hg', -, hid, htype, -, hterms⟩
    obtain rfl := (h.roomAt_iff hslot).1 hat
    obtain ⟨hexpires, -⟩ := h.source_of_typeGrant hslot hg' hid htype
    exact hterms.2.2.2.1.symm.trans hexpires
  · intro hexpires
    obtain ⟨g', hg', hl, hid, htype, hat, hterms⟩ := h.exists_typeGrant hslot hg
    refine ⟨_, (h.roomAt_iff hslot).2 rfl, g', hg', hl, hid, htype, hat, sameTerms_iff.2 ?_⟩
    rw [hterms, ← hexpires]
    rfl

theorem appGrant_kept_iff
    (h : RoundTrip collate host draws now source target target' projectId doc credentials)
    {app : PlatformApp} (happ : AppOf source.store projectId app) {actor : ActorToken}
    (hrow : actor ∈ source.store.actorTokens) (hlive : live actor = true) {g : ActorAppAccess}
    (hg : g ∈ appGrantsOf source.store actor) (hid : g.appId = app.appId) :
    (∃ app' actor', AppAt target'.store credentials.projectId app app' ∧
      Reissued credentials target'.store actor actor' ∧
      ∃ g' ∈ target'.store.actorAppAccess, live g' = true ∧ g'.appId = app'.appId ∧
        g'.actorTokenId = actor'.actorTokenId ∧ SameTerms (appTerms g) (appTerms g')) ↔
      actor.projectId = projectId ∧ app.slug ≠ "" := by
  obtain ⟨i, hi⟩ := exists_appSlot happ
  constructor
  · rintro ⟨app', actor', hat, hre, g', hg', -, hid', hheld, -⟩
    obtain rfl := (h.appAt_iff hi).1 hat
    obtain ⟨k, actorDoc, accessScopeId, expiresAt, hslot, hs, ht, rfl⟩ := (h.reissued_iff hrow).1 hre
    have hnew : DocRows host draws now doc (.actorToken _) :=
      docRows_actorToken.2 ⟨k, actorDoc, _, _, hslot.atDoc, hs, ht, rfl⟩
    obtain ⟨i', app₂, hi', hid₂, hne⟩ := h.source_of_appGrant hnew hg' hheld
    obtain rfl := h.newApp_inj hi hi' (hid'.symm.trans hid₂)
    exact ⟨(mem_actorsOf.1 (List.mem_of_getElem? hslot.atActor)).2.2, hne⟩
  · rintro ⟨hproject, hne⟩
    obtain ⟨actor', hre⟩ := h.exists_reissued ⟨hrow, hlive, hproject⟩
    obtain ⟨k, actorDoc, accessScopeId, expiresAt, hslot, hs, ht, rfl⟩ := (h.reissued_iff hrow).1 hre
    obtain ⟨i', hi', g', hg', hl, hheld, hid', hterms⟩ :=
      h.exists_appGrant hslot hg happ hid.symm hne
    exact ⟨_, _, (h.appAt_iff hi').2 rfl, hre, g', hg', hl, hid', hheld, sameTerms_iff.2 hterms⟩

theorem roomGrant_kept_iff
    (h : RoundTrip collate host draws now source target target' projectId doc credentials)
    {app : PlatformApp} {room : Room} (hof : RoomOf source.store projectId app room)
    {actor : ActorToken} (hrow : actor ∈ source.store.actorTokens) (hlive : live actor = true)
    {g : RoomActorAccess} (hg : g ∈ roomGrantsOf source.store actor)
    (hid : g.roomId = room.roomId) :
    (∃ room' actor', RoomAt target'.store credentials.projectId app room room' ∧
      Reissued credentials target'.store actor actor' ∧
      ∃ g' ∈ target'.store.roomActorAccess, live g' = true ∧ g'.roomId = room'.roomId ∧
        g'.actorTokenId = some actor'.actorTokenId ∧ SameTerms (roomTerms g) (roomTerms g')) ↔
      actor.projectId = projectId ∧
        keyOwner collate source.store projectId (roomKey app.slug room.slug) = some (app, room) := by
  obtain ⟨i, j, hslot⟩ := exists_roomSlot hof
  constructor
  · rintro ⟨room', actor', hat, hre, g', hg', -, hid', hheld, -⟩
    obtain rfl := (h.roomAt_iff hslot).1 hat
    obtain ⟨k, actorDoc, accessScopeId, expiresAt, hactor, -, -, rfl⟩ := (h.reissued_iff hrow).1 hre
    refine ⟨(mem_actorsOf.1 (List.mem_of_getElem? hactor.atActor)).2.2, ?_⟩
    obtain ⟨_, _, app₂, room₂, -, -, -, -, howner⟩ :=
      h.source_of_namedGrant hslot hg' hid' (by rw [hheld]; exact Option.some_ne_none _)
    -- the key led here, so it is the key of this room
    rw [(of_keyOwner howner).2]
    exact howner
  · rintro ⟨hproject, howner⟩
    obtain ⟨actor', hre⟩ := h.exists_reissued ⟨hrow, hlive, hproject⟩
    obtain ⟨k, actorDoc, accessScopeId, expiresAt, hactor, hs, ht, rfl⟩ := (h.reissued_iff hrow).1 hre
    obtain ⟨i', j', app', room', hslot', howner', g', hg', hl, hid', hheld, hterms⟩ :=
      h.exists_roomGrant hactor hg hof hid.symm
    rw [howner] at howner'
    cases howner'
    exact ⟨_, _, (h.roomAt_iff hslot').2 rfl, hre, g', hg', hl, hid', hheld, sameTerms_iff.2 hterms⟩

/-- A round trip keeps every grant exactly when no grant to a type expires and every named grant is
held by an actor of the project at an address that leads back to it. -/
theorem keeps_grants_iff
    (h : RoundTrip collate host draws now source target target' projectId doc credentials) :
    KeepsGrants source.store projectId target'.store credentials ↔
      GrantsCarried collate source.store projectId := by
  constructor
  · intro hkept
    constructor
    · intro app room hof g hg hl hid htype
      exact (typeGrant_kept_iff h hof (mem_typeGrantsOf.2 ⟨hg, hl, hid, htype⟩)).1
        (hkept.typeGrants app room hof g hg hl hid htype)
    · intro app happ actor hrow hlive g hg hl hid hheld
      exact (appGrant_kept_iff h happ hrow hlive (mem_appGrantsOf.2 ⟨hg, hl, hheld⟩) hid).1
        (hkept.appGrants app happ actor hrow hlive g hg hl hid hheld)
    · intro app room hof actor hrow hlive g hg hl hid hheld
      exact (roomGrant_kept_iff h hof hrow hlive (mem_roomGrantsOf.2 ⟨hg, hl, hheld⟩) hid).1
        (hkept.roomGrants app room hof actor hrow hlive g hg hl hid hheld)
  · intro hcarried
    constructor
    · intro app room hof g hg hl hid htype
      exact (typeGrant_kept_iff h hof (mem_typeGrantsOf.2 ⟨hg, hl, hid, htype⟩)).2
        (hcarried.types app room hof g hg hl hid htype)
    · intro app happ actor hrow hlive g hg hl hid hheld
      exact (appGrant_kept_iff h happ hrow hlive (mem_appGrantsOf.2 ⟨hg, hl, hheld⟩) hid).2
        (hcarried.apps app happ actor hrow hlive g hg hl hid hheld)
    · intro app room hof actor hrow hlive g hg hl hid hheld
      exact (roomGrant_kept_iff h hof hrow hlive (mem_roomGrantsOf.2 ⟨hg, hl, hheld⟩) hid).2
        (hcarried.rooms app room hof actor hrow hlive g hg hl hid hheld)

end

/-! ## A grant to a type that expires -/

/-- One grant of each kind. -/
def memberStore (typeExpiresAt : Option Int) : Store where
  projects := [{ projectId := .of "p", name := "Project" }]
  apps := [{ appId := .of "app", projectId := .of "p", name := "Chat", slug := "chat" }]
  rooms := [{ roomId := .of "room", appId := .of "app", slug := "vip", name := "VIP" }]
  actorTokens := [
    { actorTokenId := .of "t1", projectId := .of "p", keyId := "at_live_1", secretHash := "",
      name := "Member", actorType := .user }]
  actorAppAccess := [
    { actorAppAccessId := .of "a", actorTokenId := .of "t1", appId := .of "app",
      permission := .pubSub, topics := some [], expiresAt := some 86400000 }]
  roomActorAccess := [
    { roomActorAccessId := .of "g", roomId := .of "room", actorTokenId := some (.of "t1"),
      permission := .subscribe, isActive := false },
    { roomActorAccessId := .of "d", roomId := .of "room", actorTokenId := none,
      actorType := some .device, permission := .publish, expiresAt := typeExpiresAt }]

/-- Without an expiry on the grant to a type, all three are kept. -/
theorem keeps_grants_member : ∃ target' doc credentials,
    RoundTrip collateC sampleHost sampleDraws 0 ⟨memberStore none, by decide⟩ Database.empty target'
      (.of "p") doc credentials ∧
    KeepsGrants (memberStore none) (.of "p") target'.store credentials := by
  have htrip : ∃ target' doc credentials, RoundTrip collateC sampleHost sampleDraws 0
      ⟨memberStore none, by decide⟩ Database.empty target' (.of "p") doc credentials :=
    ⟨_, _, _, rfl, rfl⟩
  obtain ⟨target', doc, credentials, h⟩ := htrip
  refine ⟨target', doc, credentials, h, (keeps_grants_iff h).2 ⟨?_, ?_, ?_⟩⟩
  · have htypes : ∀ g ∈ (memberStore none).roomActorAccess, g.actorTokenId = none →
        g.expiresAt = none := by decide
    intro app room _ g hg _ _ htype
    exact htypes g hg htype
  · rintro app ⟨happ, -, -⟩ actor hrow _ _ _ _ _ _
    simp only [memberStore, List.mem_singleton] at happ hrow
    subst happ hrow
    decide
  · rintro app room ⟨⟨happ, -, -⟩, hroom, -, -⟩ actor hrow _ _ _ _ _ _
    simp only [memberStore, List.mem_singleton] at happ hroom hrow
    subst happ hroom hrow
    decide

/-- The copy of a grant to a type has no expiry. -/
theorem type_grant_outlives_expiry :
    ¬ ∀ (collate : String → String → Bool) (host : Host) (draws : Draws) (now : Int)
      (source target target' : Database) (projectId : Uuid) (doc : ProjectConfigDoc)
      (credentials : ImportedCredentials),
      RoundTrip collate host draws now source target target' projectId doc credentials →
      KeepsGrants source.store projectId target'.store credentials := by
  intro hevery
  have htrip : ∃ target' doc credentials, RoundTrip collateC sampleHost sampleDraws 0
      ⟨memberStore (some 1), by decide⟩ Database.empty target' (.of "p") doc credentials ∧
      ∀ g ∈ target'.store.roomActorAccess, g.expiresAt = none :=
    ⟨_, _, _, ⟨rfl, rfl⟩, by decide +kernel⟩
  obtain ⟨target', doc, credentials, h, hnone⟩ := htrip
  obtain ⟨_, -, g', hg', -, -, -, -, hterms⟩ := (hevery _ _ _ _ _ _ _ _ _ _ h).typeGrants
    { appId := .of "app", projectId := .of "p", name := "Chat", slug := "chat" }
    { roomId := .of "room", appId := .of "app", slug := "vip", name := "VIP" }
    ⟨⟨List.mem_singleton_self _, rfl, rfl⟩, List.mem_singleton_self _, rfl, rfl⟩
    { roomActorAccessId := .of "d", roomId := .of "room", actorTokenId := none,
      actorType := some .device, permission := .publish, expiresAt := some 1 }
    (by decide) rfl rfl rfl
  have hexpires := hterms.2.2.2.1
  rw [roomTerms, hnone g' hg'] at hexpires
  cases hexpires

end ProjectConfig
end NolagCore
