import NolagCore.ProjectConfig.Acceptance

/-!
# ProjectConfig.References

An import fails on malformed documents and on no others, and the rows it makes of a document refer to
one another as the document's parts do.
-/

namespace NolagCore
namespace ProjectConfig

open Lib Store

/-- The scope an actor names, by its place: an absent and an empty slug name none. -/
def NamesScope (draws : Draws) (doc : ProjectConfigDoc) (actor : ActorDoc)
    (accessScopeId : Option Uuid) : Prop :=
  (truthy actor.scopeSlug = false ∧ accessScopeId = none) ∨
    ∃ (k : Nat) (scope : AccessScopeDoc), (doc.accessScopes.getD [])[k]? = some scope ∧
      scope.slug ≠ "" ∧ actor.scopeSlug = some scope.slug ∧ accessScopeId = some (draws.scope k)

/-- The rows of a document, each referring to the row made of the part the document names: `draws`
gives the id of a row by its place. -/
inductive NamedRow (host : Host) (draws : Draws) (now : Int) (doc : ProjectConfigDoc) : Row → Prop
  | project : NamedRow host draws now doc (.project (projectRow draws now doc.project))
  | scope {i : Nat} {scope : AccessScopeDoc} (hs : (doc.accessScopes.getD [])[i]? = some scope) :
    NamedRow host draws now doc (.accessScope (scopeRow draws i scope))
  | app {i : Nat} {app : AppDoc} (happ : (doc.apps.getD [])[i]? = some app) :
    NamedRow host draws now doc (.app (appRow draws i app))
  | room {i j : Nat} {app : AppDoc} {room : RoomDoc} (h : RoomPlace (doc.apps.getD []) i j app room) :
    NamedRow host draws now doc (.room (roomRow draws i j room))
  | typeGrant {i j k : Nat} {app : AppDoc} {room : RoomDoc} {grant : RoomTypeGrantDoc}
    (h : RoomPlace (doc.apps.getD []) i j app room)
    (hg : (room.typeGrants.getD [])[k]? = some grant) :
    NamedRow host draws now doc (.roomGrant (typeGrantRow draws i j k grant))
  | lobby {i j : Nat} {app : AppDoc} {lobby : LobbyDoc} (happ : (doc.apps.getD [])[i]? = some app)
    (hlobby : (app.lobbies.getD [])[j]? = some lobby) :
    NamedRow host draws now doc (.lobby (lobbyRow draws i j lobby))
  | link {i j k : Nat} {app : AppDoc} {lobby : LobbyDoc} {room : RoomDoc}
    (happ : (doc.apps.getD [])[i]? = some app) (hlobby : (app.lobbies.getD [])[j]? = some lobby)
    (hroom : (app.rooms.getD [])[k]? = some room) (hnamed : room.slug ∈ lobby.rooms) :
    NamedRow host draws now doc
      (.lobbyRoom { lobbyId := draws.lobby i j, roomId := draws.room i k })
  | actor {i : Nat} {actor : ActorDoc} {accessScopeId : Option Uuid} {expiresAt : Option Int}
    (ha : (doc.actors.getD [])[i]? = some actor)
    (hscope : NamesScope draws doc actor accessScopeId)
    (ht : dateColumn host.legacy actor.expiresAt = .ok expiresAt) :
    NamedRow host draws now doc
      (.actorToken (actorRow host draws i actor accessScopeId expiresAt))
  | appGrant {i j k : Nat} {actor : ActorDoc} {grant : ActorAppGrantDoc} {app : AppDoc}
    {expiresAt : Option Int} (ha : (doc.actors.getD [])[i]? = some actor)
    (hg : (actor.appAccess.getD [])[j]? = some grant) (happ : (doc.apps.getD [])[k]? = some app)
    (hslug : app.slug = grant.appSlug)
    (ht : dateColumn host.legacy grant.expiresAt = .ok expiresAt) :
    NamedRow host draws now doc (.appGrant (appGrantRow draws i j grant (draws.app k) expiresAt))
  | roomGrant {i j k l : Nat} {actor : ActorDoc} {grant : ActorRoomGrantDoc} {app : AppDoc}
    {room : RoomDoc} {expiresAt : Option Int} (ha : (doc.actors.getD [])[i]? = some actor)
    (hg : (actor.roomAccess.getD [])[j]? = some grant)
    (h : RoomPlace (doc.apps.getD []) k l app room) (happ : app.slug = grant.appSlug)
    (hroom : room.slug = grant.roomSlug)
    (ht : dateColumn host.legacy grant.expiresAt = .ok expiresAt) :
    NamedRow host draws now doc
      (.roomGrant (roomGrantRow draws i j grant (draws.room k l) expiresAt))
  | signingKey {i : Nat} {key : SigningKeyDoc} {secretEncrypted : String}
    (hk : (doc.signingKeys.getD [])[i]? = some key)
    (he : encryptedKey host draws i = .ok secretEncrypted) :
    NamedRow host draws now doc (.signingKey (createdKeyRow host draws i key))

/-- The references of the rows of `d`, all of them within `d`. -/
structure ReferencesWithin (host : Host) (draws : Draws) (now : Int) (doc : ProjectConfigDoc)
    (d : Store) : Prop where
  closed : d.RefersInto d
  named : ∀ row, d.Has row ↔ NamedRow host draws now doc row
  /-- The address of a room is that of one place. -/
  unambiguous : ∀ i j app room i' j' app' room', RoomPlace (doc.apps.getD []) i j app room →
    RoomPlace (doc.apps.getD []) i' j' app' room' →
    roomKey app'.slug room'.slug = roomKey app.slug room.slug → i = i' ∧ j = j'

/-- One credential an actor and a signing key, in the order of the document. -/
structure Minted (doc : ProjectConfigDoc) (credentials : ImportedCredentials) (d : Store) :
    Prop where
  project : d.projects.map (·.projectId) = [credentials.projectId]
  actorRefs : credentials.actors.map (·.ref) = (doc.actors.getD []).map (·.ref)
  actorKeyIds : credentials.actors.map (·.keyId) = d.actorTokens.map (·.keyId)
  signingKeyRefs : credentials.signingKeys.map (·.ref) = (doc.signingKeys.getD []).map (·.ref)
  signingKeyIds : credentials.signingKeys.map (·.keyId) = d.signingKeys.map (·.keyId)

variable {host : Host} {draws : Draws} {now : Int} {doc : ProjectConfigDoc} {s s' : Store}
  {credentials : ImportedCredentials}

theorem minted_created : Minted doc (ProjectConfig.credentials host draws doc)
    (created host draws now doc) where
  project := by rw [projects_created]; rfl
  actorRefs := by
    simp only [ProjectConfig.credentials, map_mapIdx]
    exact mapIdx_const (fun actor : ActorDoc => actor.ref) _
  actorKeyIds := by
    rw [actorTokens_created]
    simp only [ProjectConfig.credentials, map_mapIdx, createdActorRow, actorRow]
  signingKeyRefs := by
    simp only [ProjectConfig.credentials, map_mapIdx]
    exact mapIdx_const (fun key : SigningKeyDoc => key.ref) _
  signingKeyIds := by
    rw [signingKeys_created]
    simp only [ProjectConfig.credentials, map_mapIdx, createdKeyRow]

/-! ## What a completed import has established -/

namespace Completed

variable (h : Completed host draws now doc credentials s s')

include h

theorem distinct : Distinct doc := assertUniqueSlugs_ok.1 h.unique

variable (hdto : doc.slugsValid = true)

include hdto

theorem link_place {i : Nat} {app : AppDoc} (hi : (doc.apps.getD [])[i]? = some app)
    {roomSlug : String} {roomId : Uuid}
    (hid : (roomIdByAppAndSlug draws ((doc.apps.getD []).take (i + 1))).get?
      (roomKey app.slug roomSlug) = some roomId) :
    ∃ (k : Nat) (room : RoomDoc), (app.rooms.getD [])[k]? = some room ∧ room.slug = roomSlug ∧
      draws.room i k = roomId := by
  obtain ⟨i', app', k, room, -, hplace, hslug, hroom, hdraw⟩ := (roomId_iff hdto h.distinct).1 hid
  have hii := index_eq_of_nodup_map h.distinct.apps hplace.atApp hi hslug
  subst hii
  have heq : app' = app := Option.some.inj (hplace.atApp.symm.trans hi)
  subst heq
  exact ⟨k, room, hplace.atRoom, hroom, hdraw⟩

theorem closedDoc : Closed doc where
  lobbyRoom := by
    intro app happ lobby hlobby roomSlug hslug
    obtain ⟨i, hi⟩ := List.mem_iff_getElem?.1 happ
    obtain ⟨roomId, hid⟩ := h.links i app hi lobby hlobby roomSlug hslug
    obtain ⟨k, room, hk, hroom, -⟩ := h.link_place hdto hi hid
    exact ⟨room, List.mem_of_getElem? hk, hroom⟩
  scope := by
    intro actor ha slug hslug hne
    obtain ⟨accessScopeId, hscope⟩ := (h.actors actor ha).scope
    rcases actorScope_ok hscope with ⟨hfalsy, -⟩ | ⟨slug', id, hslug', -, hid, -⟩
    · rw [hslug] at hfalsy
      simp [truthy, hne] at hfalsy
    · rw [hslug] at hslug'
      cases hslug'
      obtain ⟨k, scope, hk, heq, -⟩ := of_scopeIdBySlug hid
      exact ⟨scope, List.mem_of_getElem? hk, heq⟩
  app := by
    intro actor ha grant hg
    obtain ⟨⟨appId, hid⟩, -⟩ := (h.actors actor ha).appGrant grant hg
    obtain ⟨k, app, hk, heq, -⟩ := of_appIdBySlug hid
    exact ⟨app, List.mem_of_getElem? hk, heq⟩
  room := by
    intro actor ha grant hg
    obtain ⟨⟨roomId, hid⟩, -⟩ := (h.actors actor ha).roomGrant grant hg
    obtain ⟨k, app, l, room, hplace, happ, hroom, -⟩ := (roomId_iff_all hdto h.distinct).1 hid
    exact ⟨app, List.mem_of_getElem? hplace.atApp, happ, room, List.mem_of_getElem? hplace.atRoom,
      hroom⟩

omit hdto in
/-- The table allows an actor one grant an app. -/
theorem appGrants_nodup {actor : ActorDoc} (ha : actor ∈ doc.actors.getD []) :
    ((actor.appAccess.getD []).map (·.appSlug)).Nodup := by
  obtain ⟨i, hi⟩ := List.mem_iff_getElem?.1 ha
  have hkeys : ((created host draws now doc).actorAppAccess.map
      fun g => (g.actorTokenId, g.appId)).Nodup := by
    have hvalid := h.valid.appGrant
    rw [h.stored] at hvalid
    unfold UniqueOn at hvalid
    rw [actorAppAccess_append, List.map_append] at hvalid
    exact (List.nodup_append'.1 hvalid).2.1
  rw [actorAppAccess_created, map_blocks] at hkeys
  have hblock := nodup_block hkeys hi
  rw [map_blocks] at hblock
  refine nodup_map_of_index fun j j' grant grant' hj hj' hslug => ?_
  obtain ⟨⟨appId, hid⟩, -⟩ := (h.actors actor ha).appGrant grant (List.mem_of_getElem? hj)
  refine index_eq_of_nodup_blocks hblock (b := (draws.actor i, appId)) hj hj' ?_ ?_
  · simp [createdAppGrant, hid, appGrantRow]
  · rw [hslug] at hid
    simp [createdAppGrant, hid, appGrantRow]

theorem wellFormed {lib : CipherLibrary} (hcipher : host.cipher = lib.encryptSecret) :
    WellFormed lib host.config doc where
  version := h.version
  distinct := h.distinct
  closed := h.closedDoc hdto
  appGrants := fun actor ha => h.appGrants_nodup ha
  encryption := by
    intro hne
    obtain ⟨key, hkey⟩ := List.exists_mem_of_ne_nil _ hne
    obtain ⟨i, hi⟩ := List.mem_iff_getElem?.1 hkey
    exact (encryptedKey_isOk hcipher i).1 (h.encrypted i key hi)

/-! ## The rows by the places they refer to -/

omit hdto in
theorem namesScope {actor : ActorDoc} (ha : actor ∈ doc.actors.getD []) :
    NamesScope draws doc actor (boundScope draws doc actor) := by
  obtain ⟨accessScopeId, hscope⟩ := (h.actors actor ha).scope
  rw [boundScope_of_ok hscope]
  rcases actorScope_ok hscope with ⟨hfalsy, hnone⟩ | ⟨slug, id, hslug, hne, hid, hsome⟩
  · exact .inl ⟨hfalsy, hnone⟩
  · obtain ⟨k, scope, hk, rfl, rfl⟩ := of_scopeIdBySlug hid
    exact .inr ⟨k, scope, hk, hne, hslug, hsome⟩

omit hdto in
theorem boundScope_of_names {actor : ActorDoc} (ha : actor ∈ doc.actors.getD [])
    {accessScopeId : Option Uuid} (hnames : NamesScope draws doc actor accessScopeId) :
    boundScope draws doc actor = accessScopeId := by
  rcases h.namesScope ha with ⟨hfalsy, hnone⟩ | ⟨k, scope, hk, hne, hslug, hsome⟩
  · rcases hnames with ⟨-, rfl⟩ | ⟨k', scope', -, hne', hslug', -⟩
    · exact hnone
    · rw [hslug'] at hfalsy
      simp [truthy, hne'] at hfalsy
  · rcases hnames with ⟨hfalsy, -⟩ | ⟨k', scope', hk', hne', hslug', rfl⟩
    · rw [hslug] at hfalsy
      simp [truthy, hne] at hfalsy
    · rw [hslug] at hslug'
      have hkk := index_eq_of_nodup_map h.distinct.scopes hk hk' (Option.some.inj hslug')
      rw [hsome, hkk]

theorem link_iff {link : LobbyRoom} : (created host draws now doc).Has (.lobbyRoom link) ↔
    NamedRow host draws now doc (.lobbyRoom link) := by
  simp only [Has]
  rw [lobbyRooms_created]
  constructor
  · intro hlink
    obtain ⟨i, app, hi, hlink⟩ := mem_blocks.1 hlink
    obtain ⟨j, lobby, hj, hlink⟩ := mem_blocks.1 hlink
    obtain ⟨roomSlug, hslug, roomId, hid, rfl⟩ := mem_createdLinks.1 hlink
    obtain ⟨k, room, hk, rfl, rfl⟩ := h.link_place hdto hi hid
    exact .link hi hj hk hslug
  · intro hrow
    cases hrow with
    | @link i j k app lobby room hi hj hk hnamed =>
      refine mem_blocks.2 ⟨i, app, hi, mem_blocks.2 ⟨j, lobby, hj, mem_createdLinks.2
        ⟨room.slug, hnamed, _, ?_, rfl⟩⟩⟩
      exact linkId_of_place h.distinct hdto ⟨hi, hk⟩

omit hdto in
theorem appGrant_iff {g : ActorAppAccess} : (created host draws now doc).Has (.appGrant g) ↔
    NamedRow host draws now doc (.appGrant g) := by
  simp only [Has]
  rw [actorAppAccess_created]
  constructor
  · intro hg
    obtain ⟨i, actor, hi, hg⟩ := mem_blocks.1 hg
    obtain ⟨j, grant, hj, hg⟩ := mem_blocks.1 hg
    simp only [createdAppGrant, List.mem_map, Option.mem_toList] at hg
    obtain ⟨appId, hid, rfl⟩ := hg
    obtain ⟨k, app, hk, hslug, rfl⟩ := of_appIdBySlug hid
    obtain ⟨-, t, ht⟩ := (h.actors actor (List.mem_of_getElem? hi)).appGrant grant
      (List.mem_of_getElem? hj)
    rw [storedDate_of_ok ht]
    exact .appGrant hi hj hk hslug ht
  · intro hrow
    cases hrow with
    | @appGrant i j k actor grant app t hi hj hk hslug ht =>
      refine mem_blocks.2 ⟨i, actor, hi, mem_blocks.2 ⟨j, grant, hj, ?_⟩⟩
      rw [createdAppGrant, (appId_iff h.distinct).2 ⟨k, app, hk, hslug, rfl⟩, storedDate_of_ok ht]
      exact List.mem_cons_self

theorem roomGrant_iff {g : RoomActorAccess} : (created host draws now doc).Has (.roomGrant g) ↔
    NamedRow host draws now doc (.roomGrant g) := by
  simp only [Has]
  rw [roomActorAccess_created, List.mem_append]
  constructor
  · rintro (hg | hg)
    · obtain ⟨i, app, hi, hg⟩ := mem_blocks.1 hg
      obtain ⟨j, room, hj, hg⟩ := mem_blocks.1 hg
      obtain ⟨k, grant, hk, rfl⟩ := mem_mapIdx_iff.1 hg
      exact .typeGrant ⟨hi, hj⟩ hk
    · obtain ⟨i, actor, hi, hg⟩ := mem_blocks.1 hg
      obtain ⟨j, grant, hj, hg⟩ := mem_blocks.1 hg
      simp only [createdRoomGrant, List.mem_map, Option.mem_toList] at hg
      obtain ⟨roomId, hid, rfl⟩ := hg
      obtain ⟨k, app, l, room, hplace, happ, hroom, rfl⟩ := (roomId_iff_all hdto h.distinct).1 hid
      obtain ⟨-, t, ht⟩ := (h.actors actor (List.mem_of_getElem? hi)).roomGrant grant
        (List.mem_of_getElem? hj)
      rw [storedDate_of_ok ht]
      exact .roomGrant hi hj hplace happ hroom ht
  · intro hrow
    cases hrow with
    | @typeGrant i j k app room grant hplace hg =>
      exact .inl (mem_blocks.2 ⟨i, app, hplace.atApp, mem_blocks.2 ⟨j, room, hplace.atRoom,
        mem_mapIdx_iff.2 ⟨k, grant, hg, rfl⟩⟩⟩)
    | @roomGrant i j k l actor grant app room t hi hj hplace happ hroom ht =>
      refine .inr (mem_blocks.2 ⟨i, actor, hi, mem_blocks.2 ⟨j, grant, hj, ?_⟩⟩)
      rw [createdRoomGrant,
        (roomId_iff_all hdto h.distinct).2 ⟨k, app, l, room, hplace, happ, hroom, rfl⟩,
        storedDate_of_ok ht]
      exact List.mem_cons_self

theorem named_iff (row : Row) :
    (created host draws now doc).Has row ↔ NamedRow host draws now doc row := by
  cases row with
  | project r =>
    simp only [Has]
    rw [projects_created, List.mem_singleton]
    constructor
    · rintro rfl
      exact .project
    · intro hrow
      cases hrow
      rfl
  | accessScope r =>
    simp only [Has]
    rw [accessScopes_created, mem_mapIdx_iff]
    constructor
    · rintro ⟨i, scope, hi, rfl⟩
      exact .scope hi
    · intro hrow
      cases hrow with
      | scope hi => exact ⟨_, _, hi, rfl⟩
  | app r =>
    simp only [Has]
    rw [apps_created, mem_mapIdx_iff]
    constructor
    · rintro ⟨i, app, hi, rfl⟩
      exact .app hi
    · intro hrow
      cases hrow with
      | app hi => exact ⟨_, _, hi, rfl⟩
  | room r =>
    simp only [Has]
    rw [rooms_created, mem_blocks]
    constructor
    · rintro ⟨i, app, hi, hr⟩
      obtain ⟨j, room, hj, rfl⟩ := mem_mapIdx_iff.1 hr
      exact .room ⟨hi, hj⟩
    · intro hrow
      cases hrow with
      | room hplace => exact ⟨_, _, hplace.atApp, mem_mapIdx_iff.2 ⟨_, _, hplace.atRoom, rfl⟩⟩
  | roomGrant r => exact h.roomGrant_iff hdto
  | lobby r =>
    simp only [Has]
    rw [lobbies_created, mem_blocks]
    constructor
    · rintro ⟨i, app, hi, hr⟩
      obtain ⟨j, lobby, hj, rfl⟩ := mem_mapIdx_iff.1 hr
      exact .lobby hi hj
    · intro hrow
      cases hrow with
      | lobby hi hj => exact ⟨_, _, hi, mem_mapIdx_iff.2 ⟨_, _, hj, rfl⟩⟩
  | lobbyRoom r => exact h.link_iff hdto
  | actorToken r =>
    simp only [Has]
    rw [actorTokens_created, mem_mapIdx_iff]
    constructor
    · rintro ⟨i, actor, hi, rfl⟩
      have ha := List.mem_of_getElem? hi
      obtain ⟨t, ht⟩ := (h.actors actor ha).expiresAt
      rw [createdActorRow, storedDate_of_ok ht]
      exact .actor hi (h.namesScope ha) ht
    · intro hrow
      cases hrow with
      | @actor i actor accessScopeId t hi hnames ht =>
        refine ⟨i, actor, hi, ?_⟩
        rw [createdActorRow, storedDate_of_ok ht,
          h.boundScope_of_names (List.mem_of_getElem? hi) hnames]
  | actorTokenState r =>
    simp only [Has]
    rw [actorTokenStates_created]
    constructor
    · intro hr
      cases hr
    · intro hrow
      cases hrow
  | appGrant r => exact h.appGrant_iff
  | signingKey r =>
    simp only [Has]
    rw [signingKeys_created, mem_mapIdx_iff]
    constructor
    · rintro ⟨i, key, hi, rfl⟩
      obtain ⟨secretEncrypted, he⟩ := h.encrypted i key hi
      exact .signingKey hi he
    · intro hrow
      cases hrow with
      | signingKey hi he => exact ⟨_, _, hi, rfl⟩

/-- The parents of the created rows are created rows. -/
theorem refersInto : (created host draws now doc).RefersInto (created host draws now doc) where
  scopeProject := by
    intro r hr projectId hk
    cases hk
    cases (h.named_iff hdto (.accessScope r)).1 hr
    exact ⟨_, (h.named_iff hdto (.project _)).2 .project, rfl⟩
  appProject := by
    intro r hr projectId hk
    cases hk
    cases (h.named_iff hdto (.app r)).1 hr
    exact ⟨_, (h.named_iff hdto (.project _)).2 .project, rfl⟩
  actorProject := by
    intro r hr projectId hk
    cases hk
    cases (h.named_iff hdto (.actorToken r)).1 hr
    exact ⟨_, (h.named_iff hdto (.project _)).2 .project, rfl⟩
  actorScope := by
    intro r hr accessScopeId hk
    cases (h.named_iff hdto (.actorToken r)).1 hr with
    | actor ha hnames ht =>
      rcases hnames with ⟨-, rfl⟩ | ⟨k, scope, hscope, -, -, rfl⟩
      · cases hk
      · exact ⟨_, (h.named_iff hdto (.accessScope _)).2 (.scope hscope), Option.some.inj hk⟩
  keyProject := by
    intro r hr projectId hk
    cases hk
    cases (h.named_iff hdto (.signingKey r)).1 hr
    exact ⟨_, (h.named_iff hdto (.project _)).2 .project, rfl⟩
  roomApp := by
    intro r hr appId hk
    cases (h.named_iff hdto (.room r)).1 hr with
    | room hplace =>
      exact ⟨_, (h.named_iff hdto (.app _)).2 (.app hplace.atApp), Option.some.inj hk⟩
  grantRoom := by
    intro r hr roomId hk
    cases (h.named_iff hdto (.roomGrant r)).1 hr with
    | typeGrant hplace _ | roomGrant _ _ hplace _ _ _ =>
      exact ⟨_, (h.named_iff hdto (.room _)).2 (.room hplace), Option.some.inj hk⟩
  grantActor := by
    intro r hr actorTokenId hk
    cases (h.named_iff hdto (.roomGrant r)).1 hr with
    | typeGrant _ _ => cases hk
    | roomGrant ha _ _ _ _ _ =>
      obtain ⟨t, ht⟩ := (h.actors _ (List.mem_of_getElem? ha)).expiresAt
      exact ⟨_, (h.named_iff hdto (.actorToken _)).2
        (.actor ha (h.namesScope (List.mem_of_getElem? ha)) ht), Option.some.inj hk⟩
  lobbyApp := by
    intro r hr appId hk
    cases (h.named_iff hdto (.lobby r)).1 hr with
    | lobby happ _ => exact ⟨_, (h.named_iff hdto (.app _)).2 (.app happ), Option.some.inj hk⟩
  memberLobby := by
    intro r hr lobbyId hk
    cases (h.named_iff hdto (.lobbyRoom r)).1 hr with
    | link happ hlobby _ _ =>
      exact ⟨_, (h.named_iff hdto (.lobby _)).2 (.lobby happ hlobby), Option.some.inj hk⟩
  memberRoom := by
    intro r hr roomId hk
    cases (h.named_iff hdto (.lobbyRoom r)).1 hr with
    | link happ _ hroom _ =>
      exact ⟨_, (h.named_iff hdto (.room _)).2 (.room ⟨happ, hroom⟩), Option.some.inj hk⟩
  stateActor := by
    intro r hr actorTokenId _
    cases (h.named_iff hdto (.actorTokenState r)).1 hr
  appGrantActor := by
    intro r hr actorTokenId hk
    cases (h.named_iff hdto (.appGrant r)).1 hr with
    | appGrant ha _ _ _ _ =>
      obtain ⟨t, ht⟩ := (h.actors _ (List.mem_of_getElem? ha)).expiresAt
      exact ⟨_, (h.named_iff hdto (.actorToken _)).2
        (.actor ha (h.namesScope (List.mem_of_getElem? ha)) ht), Option.some.inj hk⟩
  appGrantApp := by
    intro r hr appId hk
    cases (h.named_iff hdto (.appGrant r)).1 hr with
    | appGrant _ _ happ _ _ =>
      exact ⟨_, (h.named_iff hdto (.app _)).2 (.app happ), Option.some.inj hk⟩

theorem referencesWithin :
    ReferencesWithin host draws now doc (created host draws now doc) where
  closed := h.refersInto hdto
  named := h.named_iff hdto
  unambiguous := by
    intro i j app room i' j' app' room' hplace hplace' hkey
    exact roomPlace_unique hdto h.distinct hplace hplace' hkey

end Completed

/-! ## Malformed documents -/

theorem facade_completed {db db' : Database}
    (h : ProjectConfigFacade.importProject host draws now db doc = .ok (credentials, db')) :
    Completed host draws now doc credentials db.store db'.store := by
  unfold ProjectConfigFacade.importProject at h
  split at h
  · cases h
  · rename_i credentials' s himport
    obtain ⟨rfl, rfl⟩ := commit_ok h
    exact importProject_completed himport

/-- An import fails on malformed documents only. When it succeeds, every row it creates refers to the
created rows the document names, and every actor and signing key has its credential. -/
theorem import_fails_iff_malformed (lib : CipherLibrary) (host : Host) (draws : Draws) (now : Int)
    (db : Database) (doc : ProjectConfigDoc) (hcipher : host.cipher = lib.encryptSecret)
    (hdto : doc.slugsValid = true) (hfits : FitsColumns host.legacy doc)
    (hfresh : FreshDraws host draws doc db.store) :
    ((∃ e, ProjectConfigFacade.importProject host draws now db doc = .error e) ↔
      Malformed lib host.config doc) ∧
    ∀ credentials db', ProjectConfigFacade.importProject host draws now db doc =
        .ok (credentials, db') →
      ∃ d, db'.store = db.store.append d ∧ ReferencesWithin host draws now doc d ∧
        Minted doc credentials d := by
  refine ⟨?_, ?_⟩
  · rw [malformed_iff]
    constructor
    · rintro ⟨e, he⟩ hw
      obtain ⟨himport, hvalid⟩ :=
        importProject_succeeds now hcipher hdto hfits db.valid hfresh hw
      unfold ProjectConfigFacade.importProject at he
      rw [himport] at he
      simp only [commit, dif_pos hvalid] at he
      cases he
    · intro hw
      cases himport : ProjectConfigFacade.importProject host draws now db doc with
      | error e => exact ⟨e, rfl⟩
      | ok result => exact absurd ((facade_completed himport).wellFormed hdto hcipher) hw
  · intro credentials db' himport
    have h := facade_completed himport
    refine ⟨_, h.stored, h.referencesWithin hdto, ?_⟩
    rw [h.minted]
    exact minted_created

/-! ## Sample -/

/-- A document with one entity of each kind. -/
def sampleDoc : ProjectConfigDoc where
  version := 1
  project := { name := "Project" }
  accessScopes := some [{ slug := "acme", name := "Acme" }]
  apps := some [
    { slug := "chat", name := "Chat", topics := ["messages"]
      rooms := some [
        { slug := "lounge", name := "Lounge"
          typeGrants := some [{ actorType := some .user, permission := .subscribe }] }]
      lobbies := some [{ slug := "hall", name := "Hall", rooms := ["lounge"] }] }]
  actors := some [
    { ref := "alice", name := "Alice", actorType := .user, scopeSlug := some "acme"
      appAccess := some [{ appSlug := "chat", permission := .pubSub }]
      roomAccess := some [{ appSlug := "chat", roomSlug := "lounge", permission := .pubSub }] }]
  signingKeys := some [{ ref := "key", name := "Key" }]

/-- An encryption key is configured. -/
def keyedHost : Host where
  legacy := fun _ => none
  crypto := sampleCrypto
  cipher := sampleCipherLibrary.encryptSecret
  config := { signingKeyEncryptionKey := some sampleKey }

def keyedDraws : Draws :=
  { sampleDraws with signingKeyBytes := fun _ =>
      { credential := sampleBytes, iv := List.replicate 12 0 } }

theorem sampleDoc_fresh : FreshDraws keyedHost keyedDraws sampleDoc Database.empty.store :=
  ⟨by decide, by decide, by decide, by decide, by decide, by decide, by decide, by decide,
    by decide, by decide, by decide⟩

theorem sampleDoc_fits : FitsColumns keyedHost.legacy sampleDoc := by
  intro text htext
  have hnone : text = none := by
    simpa [sampleDoc, ProjectConfigDoc.dateTexts] using htext
  subst hnone
  exact ⟨none, rfl⟩

theorem sampleDoc_imported : ∃ credentials db', ProjectConfigFacade.importProject keyedHost
    keyedDraws 0 Database.empty sampleDoc = .ok (credentials, db') := by
  have hok : (ProjectConfigFacade.importProject keyedHost keyedDraws 0 Database.empty
      sampleDoc).toOption.isSome = true := by decide +kernel
  cases hrun : ProjectConfigFacade.importProject keyedHost keyedDraws 0 Database.empty sampleDoc with
  | error e =>
    rw [hrun] at hok
    cases hok
  | ok result => exact ⟨result.1, result.2, rfl⟩

theorem import_fails_iff_malformed_sample :
    ¬ Malformed sampleCipherLibrary keyedHost.config sampleDoc ∧
    ∃ credentials db' d, ProjectConfigFacade.importProject keyedHost keyedDraws 0 Database.empty
        sampleDoc = .ok (credentials, db') ∧
      db'.store = Database.empty.store.append d ∧
      ReferencesWithin keyedHost keyedDraws 0 sampleDoc d ∧ Minted sampleDoc credentials d := by
  obtain ⟨hiff, hok⟩ := import_fails_iff_malformed sampleCipherLibrary keyedHost keyedDraws 0
    Database.empty sampleDoc rfl (by decide) sampleDoc_fits sampleDoc_fresh
  obtain ⟨credentials, db', hrun⟩ := sampleDoc_imported
  refine ⟨fun hm => ?_, credentials, db', ?_⟩
  · obtain ⟨e, he⟩ := hiff.2 hm
    rw [hrun] at he
    cases he
  · obtain ⟨d, hd⟩ := hok credentials db' hrun
    exact ⟨d, hrun, hd⟩

end ProjectConfig
end NolagCore
