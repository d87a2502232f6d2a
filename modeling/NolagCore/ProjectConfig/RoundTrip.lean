import NolagCore.ProjectConfig.ExportSpec
import NolagCore.ProjectConfig.ImportSpec

/-!
# ProjectConfig.RoundTrip

A project exported from one database and imported into another, or into the same one. Rows are
followed by their place in the document: the `i`-th app, the `j`-th room of it, the `i`-th actor.
Ids do not travel, so slugs lead from a row to the row made of it, and an actor is followed by the
credential the import returns for its handle.
-/

namespace NolagCore
namespace ProjectConfig

open Lib

/-- The project `projectId` of `source` becomes a project of `target'`. -/
structure RoundTrip (collate : String → String → Bool) (host : Host) (draws : Draws) (now : Int)
    (source target target' : Database) (projectId : Uuid) (doc : ProjectConfigDoc)
    (credentials : ImportedCredentials) : Prop where
  exported : exportProject collate source.store projectId = .ok doc
  imported : ProjectConfigFacade.importProject host draws now target doc = .ok (credentials, target')

/-- `actor'` is what the import made of `actor`: its key is the one returned for the handle. -/
def Reissued (credentials : ImportedCredentials) (s' : Store) (actor actor' : ActorToken) : Prop :=
  ActorOf s' credentials.projectId actor' ∧
    ∃ m ∈ credentials.actors, m.ref = actor.keyId ∧ m.keyId = actor'.keyId

/-- The app of the project at the slug of `app`. -/
def AppAt (s' : Store) (projectId' : Uuid) (app app' : PlatformApp) : Prop :=
  AppOf s' projectId' app' ∧ app'.slug = app.slug

/-- The room of the project at the slugs of `app` and `room`. -/
def RoomAt (s' : Store) (projectId' : Uuid) (app : PlatformApp) (room room' : Room) : Prop :=
  ∃ app', RoomOf s' projectId' app' room' ∧ app'.slug = app.slug ∧ room'.slug = room.slug

/-- The room a key leads back to. Two rooms can have one key, and the last one listed wins. -/
def keyOwner (collate : String → String → Bool) (s : Store) (projectId : Uuid) (key : String) :
    Option (PlatformApp × Room) :=
  ((listedRooms collate s (appsOf collate s projectId)).filter fun e =>
    decide (roomKey e.1.slug e.2.slug = key)).getLast?

theorem of_keyOwner {collate : String → String → Bool} {s : Store} {projectId : Uuid} {key : String}
    {app : PlatformApp} {room : Room} (h : keyOwner collate s projectId key = some (app, room)) :
    RoomOf s projectId app room ∧ roomKey app.slug room.slug = key := by
  have hm := List.mem_of_getLast? h
  simp only [List.mem_filter, decide_eq_true_eq] at hm
  exact ⟨mem_listedRooms.1 hm.1, hm.2⟩

/-! ## Places in the document -/

/-- The `j`-th room of the `i`-th app. -/
structure RoomSlot (collate : String → String → Bool) (s : Store) (projectId : Uuid) (i j : Nat)
    (app : PlatformApp) (room : Room) : Prop where
  atApp : (appsOf collate s projectId)[i]? = some app
  atRoom : (roomsOf collate s app)[j]? = some room

section

variable {collate : String → String → Bool} {s : Store} {projectId : Uuid}

theorem RoomSlot.roomOf {i j : Nat} {app : PlatformApp} {room : Room}
    (h : RoomSlot collate s projectId i j app room) : RoomOf s projectId app room :=
  ⟨mem_appsOf.1 (List.mem_of_getElem? h.atApp), mem_roomsOf.1 (List.mem_of_getElem? h.atRoom)⟩

theorem exists_appSlot {app : PlatformApp} (h : AppOf s projectId app) :
    ∃ i : Nat, (appsOf collate s projectId)[i]? = some app :=
  List.mem_iff_getElem?.1 (mem_appsOf.2 h)

theorem exists_roomSlot {app : PlatformApp} {room : Room} (h : RoomOf s projectId app room) :
    ∃ i j, RoomSlot collate s projectId i j app room := by
  obtain ⟨i, hi⟩ := exists_appSlot h.1
  obtain ⟨j, hj⟩ := List.mem_iff_getElem?.1 (mem_roomsOf.2 h.2)
  exact ⟨i, j, hi, hj⟩

/-- The listed rooms, each with the id drawn for it. -/
def slots (collate : String → String → Bool) (s : Store) (projectId : Uuid) (draws : Draws) :
    List ((PlatformApp × Room) × Uuid) :=
  ((appsOf collate s projectId).mapIdx fun i app =>
    (roomsOf collate s app).mapIdx fun j room => ((app, room), draws.room i j)).flatten

theorem mem_slots {draws : Draws} {e : (PlatformApp × Room) × Uuid} :
    e ∈ slots collate s projectId draws ↔
      ∃ i j, RoomSlot collate s projectId i j e.1.1 e.1.2 ∧ draws.room i j = e.2 := by
  unfold slots
  rw [List.mem_flatten]
  constructor
  · rintro ⟨l, hl, he⟩
    obtain ⟨i, app, happ, rfl⟩ := mem_mapIdx_iff.1 hl
    obtain ⟨j, room, hroom, rfl⟩ := mem_mapIdx_iff.1 he
    exact ⟨i, j, ⟨happ, hroom⟩, rfl⟩
  · rintro ⟨i, j, h, hid⟩
    refine ⟨_, mem_mapIdx_iff.2 ⟨i, e.1.1, h.atApp, rfl⟩, mem_mapIdx_iff.2 ⟨j, e.1.2, h.atRoom, ?_⟩⟩
    rw [hid]

theorem map_fst_slots (draws : Draws) :
    (slots collate s projectId draws).map Prod.fst =
      listedRooms collate s (appsOf collate s projectId) := by
  unfold slots listedRooms
  rw [List.map_flatten, List.flatMap]
  refine congrArg List.flatten (List.ext_getElem? fun i => ?_)
  rw [List.getElem?_map, List.getElem?_mapIdx, List.getElem?_map]
  cases (appsOf collate s projectId)[i]? with
  | none => rfl
  | some app =>
    refine congrArg some (List.ext_getElem? fun j => ?_)
    rw [List.getElem?_map, List.getElem?_mapIdx, List.getElem?_map]
    cases (roomsOf collate s app)[j]? <;> rfl

theorem roomEntries_exportApps (draws : Draws) :
    roomEntries draws (exportApps collate s (appsOf collate s projectId)) =
      (slots collate s projectId draws).map fun e => (roomKey e.1.1.slug e.1.2.slug, e.2) := by
  unfold slots roomEntries exportApps
  rw [List.map_flatten]
  refine congrArg List.flatten (List.ext_getElem? fun i => ?_)
  rw [List.getElem?_mapIdx, List.getElem?_mapIdx, List.getElem?_map, List.getElem?_mapIdx]
  cases (appsOf collate s projectId)[i]? with
  | none => rfl
  | some app =>
    refine congrArg some (List.ext_getElem? fun j => ?_)
    simp only [exportApp, Option.getD_some]
    rw [List.getElem?_mapIdx, List.getElem?_map, List.getElem?_map, List.getElem?_mapIdx]
    cases (roomsOf collate s app)[j]? <;> rfl

end

/-- The `i`-th actor and what the document says of it. -/
structure ActorSlot (collate : String → String → Bool) (s : Store) (projectId : Uuid)
    (doc : ProjectConfigDoc) (i : Nat) (actor : ActorToken) (actorDoc : ActorDoc) : Prop where
  atActor : (actorsOf collate s projectId)[i]? = some actor
  atDoc : (doc.actors.getD [])[i]? = some actorDoc
  exported : ActorExported s projectId actor actorDoc

/-- The app an import makes of the `i`-th app. -/
def newApp (collate : String → String → Bool) (draws : Draws) (s : Store) (projectId : Uuid)
    (i : Nat) (app : PlatformApp) : PlatformApp :=
  appRow draws i (exportApp collate s ((appsOf collate s projectId).take (i + 1)) app)

def newRoom (draws : Draws) (s : Store) (i j : Nat) (room : Room) : Room :=
  roomRow draws i j (exportRoom s room)

namespace RoundTrip

variable {collate : String → String → Bool} {host : Host} {draws : Draws} {now : Int}
  {source target target' : Database} {projectId : Uuid} {doc : ProjectConfigDoc}
  {credentials : ImportedCredentials}
  (h : RoundTrip collate host draws now source target target' projectId doc credentials)

include h

theorem exports : Exported collate source.store projectId doc := exportProject_ok h.exported

theorem imports : Imported host draws now doc credentials target.store target'.store := by
  have himp := h.imported
  unfold ProjectConfigFacade.importProject at himp
  split at himp
  · cases himp
  · rename_i credentials' s hok
    obtain ⟨rfl, hs⟩ := commit_ok himp
    rw [hs]
    exact importProject_ok hok

theorem projectId_eq : credentials.projectId = draws.project := by
  rw [h.imports.minted]
  rfl

theorem has_iff {r : Store.Row} (hl : r.isLink = false) :
    target'.store.Has r ↔ target.store.Has r ∨ DocRows host draws now doc r := by
  obtain ⟨d, hd, hs⟩ := h.imports.rows
  rw [hs, Store.has_append, hd.iff_of_not_link hl]

/-! ## Old rows and new rows -/

theorem old_room_ne {r r' : Room} (hr : r ∈ target.store.rooms)
    (hr' : DocRows host draws now doc (.room r')) : r.roomId ≠ r'.roomId := by
  obtain ⟨d, hd, hs⟩ := h.imports.rows
  have hpk := target'.valid.pkRoom
  rw [hs] at hpk
  exact UniqueOn.ne_of_append hpk hr (hd.complete _ rfl hr')

theorem old_actor_ne {r r' : ActorToken} (hr : r ∈ target.store.actorTokens)
    (hr' : DocRows host draws now doc (.actorToken r')) : r.actorTokenId ≠ r'.actorTokenId := by
  obtain ⟨d, hd, hs⟩ := h.imports.rows
  have hpk := target'.valid.pkActor
  rw [hs] at hpk
  exact UniqueOn.ne_of_append hpk hr (hd.complete _ rfl hr')

/-- Whatever grants on a new room there are, the import has made them. -/
theorem roomGrant_new {r : Room} (hr : DocRows host draws now doc (.room r)) {g : RoomActorAccess}
    (hg : g ∈ target'.store.roomActorAccess) (hid : g.roomId = r.roomId) :
    DocRows host draws now doc (.roomGrant g) := by
  rcases (h.has_iff (r := .roomGrant g) rfl).1 hg with hold | hnew
  · obtain ⟨r', hr', hid'⟩ := target.valid.fkGrantRoom g hold g.roomId rfl
    exact absurd (hid'.trans hid) (h.old_room_ne hr' hr)
  · exact hnew

theorem appGrant_new {r : ActorToken} (hr : DocRows host draws now doc (.actorToken r))
    {g : ActorAppAccess} (hg : g ∈ target'.store.actorAppAccess)
    (hid : g.actorTokenId = r.actorTokenId) : DocRows host draws now doc (.appGrant g) := by
  rcases (h.has_iff (r := .appGrant g) rfl).1 hg with hold | hnew
  · obtain ⟨r', hr', hid'⟩ := target.valid.fkAppGrantActor g hold g.actorTokenId rfl
    exact absurd (hid'.trans hid) (h.old_actor_ne hr' hr)
  · exact hnew

/-! ## Apps and rooms -/

theorem docApps_iff {i : Nat} {app' : AppDoc} : (doc.apps.getD [])[i]? = some app' ↔
    ∃ app, (appsOf collate source.store projectId)[i]? = some app ∧
      exportApp collate source.store ((appsOf collate source.store projectId).take (i + 1)) app =
        app' := by
  rw [h.exports.apps, exportApps, List.getElem?_mapIdx, Option.map_eq_some_iff]

theorem docRows_newApp {i : Nat} {app : PlatformApp}
    (hi : (appsOf collate source.store projectId)[i]? = some app) :
    DocRows host draws now doc (.app (newApp collate draws source.store projectId i app)) :=
  docRows_app.2 ⟨i, _, h.docApps_iff.2 ⟨app, hi, rfl⟩, rfl⟩

theorem docRows_newRoom {i j : Nat} {app : PlatformApp} {room : Room}
    (hslot : RoomSlot collate source.store projectId i j app room) :
    DocRows host draws now doc (.room (newRoom draws source.store i j room)) := by
  refine docRows_room.2 ⟨i, _, j, exportRoom source.store room,
    h.docApps_iff.2 ⟨app, hslot.atApp, rfl⟩, ?_, rfl⟩
  simp [exportApp, hslot.atRoom]

theorem newApp_of {i : Nat} {app : PlatformApp}
    (hi : (appsOf collate source.store projectId)[i]? = some app) :
    AppOf target'.store credentials.projectId
      (newApp collate draws source.store projectId i app) := by
  refine ⟨(h.has_iff (r := .app _) rfl).2 (.inr (h.docRows_newApp hi)), rfl, ?_⟩
  rw [h.projectId_eq]
  rfl

theorem newRoom_of {i j : Nat} {app : PlatformApp} {room : Room}
    (hslot : RoomSlot collate source.store projectId i j app room) :
    RoomOf target'.store credentials.projectId
      (newApp collate draws source.store projectId i app) (newRoom draws source.store i j room) :=
  ⟨h.newApp_of hslot.atApp, (h.has_iff (r := .room _) rfl).2 (.inr (h.docRows_newRoom hslot)),
    rfl, rfl⟩

/-- No two apps get one id. -/
theorem newApp_inj {i i' : Nat} {app app' : PlatformApp}
    (hi : (appsOf collate source.store projectId)[i]? = some app)
    (hi' : (appsOf collate source.store projectId)[i']? = some app')
    (hid : draws.app i = draws.app i') : app = app' := by
  have heq := target'.valid.pkApp.eq_of_key (h.newApp_of hi).1 (h.newApp_of hi').1 hid
  have hslug := congrArg PlatformApp.slug heq
  exact (mem_appsOf.1 (List.mem_of_getElem? hi)).eq_of_slug source.valid
    (mem_appsOf.1 (List.mem_of_getElem? hi')) hslug

theorem newRoom_inj {i j i' j' : Nat} {app app' : PlatformApp} {room room' : Room}
    (hslot : RoomSlot collate source.store projectId i j app room)
    (hslot' : RoomSlot collate source.store projectId i' j' app' room')
    (hid : draws.room i j = draws.room i' j') : app = app' ∧ room = room' := by
  obtain ⟨happ, hroom⟩ :=
    (h.newRoom_of hslot).eq_of_roomId target'.valid (h.newRoom_of hslot') hid
  have happSlug := congrArg PlatformApp.slug happ
  have hroomSlug := congrArg Room.slug hroom
  exact hslot.roomOf.eq_of_slug source.valid hslot'.roomOf happSlug hroomSlug

/-- A room listed twice would get one id. -/
theorem newRoom_congr {i j i' j' : Nat} {app : PlatformApp} {room : Room}
    (hslot : RoomSlot collate source.store projectId i j app room)
    (hslot' : RoomSlot collate source.store projectId i' j' app room) :
    draws.room i j = draws.room i' j' := by
  obtain ⟨-, hroom⟩ :=
    (h.newRoom_of hslot).eq_of_slug target'.valid (h.newRoom_of hslot') rfl rfl
  exact congrArg Room.roomId hroom

theorem appAt_iff {i : Nat} {app app' : PlatformApp}
    (hi : (appsOf collate source.store projectId)[i]? = some app) :
    AppAt target'.store credentials.projectId app app' ↔
      app' = newApp collate draws source.store projectId i app := by
  constructor
  · rintro ⟨hof, hslug⟩
    exact hof.eq_of_slug target'.valid (h.newApp_of hi) hslug
  · rintro rfl
    exact ⟨h.newApp_of hi, rfl⟩

/-- The only room at the address of a listed one is the room made of it. -/
theorem roomAt_iff {i j : Nat} {app : PlatformApp} {room room' : Room}
    (hslot : RoomSlot collate source.store projectId i j app room) :
    RoomAt target'.store credentials.projectId app room room' ↔
      room' = newRoom draws source.store i j room := by
  constructor
  · rintro ⟨app', hof, happ, hslug⟩
    exact (hof.eq_of_slug target'.valid (h.newRoom_of hslot) happ hslug).2
  · rintro rfl
    exact ⟨_, h.newRoom_of hslot, rfl, rfl⟩

/-! ## The maps from slugs to ids -/

theorem appIdBySlug_iff {slug : String} {appId : Uuid} :
    (appIdBySlug draws (doc.apps.getD [])).get? slug = some appId ↔
      ∃ i app, (appsOf collate source.store projectId)[i]? = some app ∧ app.slug = slug ∧
        draws.app i = appId := by
  unfold appIdBySlug
  rw [OrderedMap.get?_ofList_mapIdx]
  · constructor
    · rintro ⟨i, app', hi, hslug, hid⟩
      obtain ⟨app, happ, rfl⟩ := h.docApps_iff.1 hi
      exact ⟨i, app, happ, hslug, hid⟩
    · rintro ⟨i, app, happ, hslug, hid⟩
      exact ⟨i, _, h.docApps_iff.2 ⟨app, happ, rfl⟩, hslug, hid⟩
  · intro i app₁ i' app₁' hi hi' hk
    obtain ⟨app, happ, rfl⟩ := h.docApps_iff.1 hi
    obtain ⟨app', happ', rfl⟩ := h.docApps_iff.1 hi'
    have heq := (h.newApp_of happ).eq_of_slug target'.valid (h.newApp_of happ') hk
    exact congrArg PlatformApp.appId heq

/-- A key resolves to the room made of its owner. -/
theorem roomIdByKey_iff {key : String} {roomId : Uuid} :
    (roomIdByAppAndSlug draws (doc.apps.getD [])).get? key = some roomId ↔
      ∃ i j app room, RoomSlot collate source.store projectId i j app room ∧
        keyOwner collate source.store projectId key = some (app, room) ∧
        draws.room i j = roomId := by
  have howner : keyOwner collate source.store projectId key =
      (((slots collate source.store projectId draws).filter fun e =>
        decide (roomKey e.1.1.slug e.1.2.slug = key)).getLast?).map Prod.fst := by
    unfold keyOwner
    rw [← map_fst_slots draws, List.filter_map, List.getLast?_map]
    rfl
  unfold roomIdByAppAndSlug
  rw [h.exports.apps, roomEntries_exportApps,
    OrderedMap.get?_ofList_map
      (fun e : (PlatformApp × Room) × Uuid => roomKey e.1.1.slug e.1.2.slug) Prod.snd, howner,
    Option.map_eq_some_iff]
  constructor
  · rintro ⟨e, he, rfl⟩
    have hm := (List.mem_filter.1 (List.mem_of_getLast? he)).1
    obtain ⟨i, j, hslot, hid⟩ := mem_slots.1 hm
    exact ⟨i, j, e.1.1, e.1.2, hslot, Option.map_eq_some_iff.2 ⟨e, he, rfl⟩, hid⟩
  · rintro ⟨i, j, app, room, hslot, hown, rfl⟩
    obtain ⟨e, he, hfst⟩ := Option.map_eq_some_iff.1 hown
    have hm := (List.mem_filter.1 (List.mem_of_getLast? he)).1
    obtain ⟨i', j', hslot', hid⟩ := mem_slots.1 hm
    rw [hfst] at hslot'
    exact ⟨e, he, hid.symm.trans (h.newRoom_congr hslot' hslot)⟩

/-! ## Scopes -/

theorem docScopes_iff {i : Nat} {scope' : AccessScopeDoc} :
    (doc.accessScopes.getD [])[i]? = some scope' ↔
      ∃ scope, (scopesOf collate source.store projectId)[i]? = some scope ∧
        exportScope scope = scope' := by
  rw [h.exports.scopes, List.getElem?_map, Option.map_eq_some_iff]

theorem newScope_of {i : Nat} {scope : AccessScope}
    (hi : (scopesOf collate source.store projectId)[i]? = some scope) :
    ScopeOf target'.store credentials.projectId (scopeRow draws i (exportScope scope)) := by
  refine ⟨(h.has_iff (r := .accessScope _) rfl).2
    (.inr (docRows_scope.2 ⟨i, _, h.docScopes_iff.2 ⟨scope, hi, rfl⟩, rfl⟩)), rfl, ?_⟩
  rw [h.projectId_eq]
  rfl

theorem scopeIdBySlug_iff {slug : String} {accessScopeId : Uuid} :
    (scopeIdBySlug draws (doc.accessScopes.getD [])).get? slug = some accessScopeId ↔
      ∃ i scope, (scopesOf collate source.store projectId)[i]? = some scope ∧ scope.slug = slug ∧
        draws.scope i = accessScopeId := by
  unfold scopeIdBySlug
  rw [OrderedMap.get?_ofList_mapIdx]
  · constructor
    · rintro ⟨i, scope', hi, hslug, hid⟩
      obtain ⟨scope, hscope, rfl⟩ := h.docScopes_iff.1 hi
      exact ⟨i, scope, hscope, hslug, hid⟩
    · rintro ⟨i, scope, hscope, hslug, hid⟩
      exact ⟨i, _, h.docScopes_iff.2 ⟨scope, hscope, rfl⟩, hslug, hid⟩
  · intro i scope₁ i' scope₁' hi hi' hk
    obtain ⟨scope, hscope, rfl⟩ := h.docScopes_iff.1 hi
    obtain ⟨scope', hscope', rfl⟩ := h.docScopes_iff.1 hi'
    have heq := (h.newScope_of hscope).eq_of_slug target'.valid (h.newScope_of hscope') hk
    exact congrArg AccessScope.accessScopeId heq

/-! ## Actors -/

theorem actorSlot_of_doc {i : Nat} {actorDoc : ActorDoc}
    (hi : (doc.actors.getD [])[i]? = some actorDoc) :
    ∃ actor, ActorSlot collate source.store projectId doc i actor actorDoc := by
  obtain ⟨actor, ha, hok⟩ := (mapOk_getElem? h.exports.actors).1 hi
  exact ⟨actor, ha, hi, exportActor_ok source.valid hok⟩

theorem exists_actorSlot {actor : ActorToken} (ha : ActorOf source.store projectId actor) :
    ∃ i actorDoc, ActorSlot collate source.store projectId doc i actor actorDoc := by
  obtain ⟨actorDoc, hok⟩ := mapOk_ok h.exports.actors (mem_actorsOf.2 ha)
  obtain ⟨i, hi⟩ := List.mem_iff_getElem?.1 (mem_actorsOf.2 ha)
  exact ⟨i, actorDoc, hi, (mapOk_getElem? h.exports.actors).2 ⟨actor, hi, hok⟩,
    exportActor_ok source.valid hok⟩

theorem resolved {i : Nat} {actor : ActorToken} {actorDoc : ActorDoc}
    (hslot : ActorSlot collate source.store projectId doc i actor actorDoc) :
    ActorResolved host draws doc actorDoc :=
  h.imports.actors actorDoc (List.mem_of_getElem? hslot.atDoc)

/-- The actor an import makes of an exported one, found by the key it was issued. -/
theorem reissued_iff {actor actor' : ActorToken} (hrow : actor ∈ source.store.actorTokens) :
    Reissued credentials target'.store actor actor' ↔ ∃ i actorDoc accessScopeId expiresAt,
      ActorSlot collate source.store projectId doc i actor actorDoc ∧
      actorScope (scopeIdBySlug draws (doc.accessScopes.getD [])) actorDoc = .ok accessScopeId ∧
      dateColumn host.legacy actorDoc.expiresAt = .ok expiresAt ∧
      actor' = actorRow host draws i actorDoc accessScopeId expiresAt := by
  constructor
  · rintro ⟨hof, m, hm, href, hkey⟩
    rw [h.imports.minted] at hm
    obtain ⟨i, actorDoc, hdoc, rfl⟩ := mem_mapIdx_iff.1 hm
    obtain ⟨actor₀, hslot⟩ := h.actorSlot_of_doc hdoc
    have hactor : actor₀ = actor := source.valid.actorKeyId.eq_of_key
      (mem_actorsOf.1 (List.mem_of_getElem? hslot.atActor)).1 hrow (hslot.exported.ref.symm.trans href)
    subst hactor
    obtain ⟨accessScopeId, hs⟩ := (h.resolved hslot).scope
    obtain ⟨expiresAt, ht⟩ := (h.resolved hslot).expiresAt
    have hnew : actorRow host draws i actorDoc accessScopeId expiresAt ∈ target'.store.actorTokens :=
      (h.has_iff (r := .actorToken _) rfl).2
        (.inr (docRows_actorToken.2 ⟨i, actorDoc, _, _, hdoc, hs, ht, rfl⟩))
    exact ⟨i, actorDoc, accessScopeId, expiresAt, hslot, hs, ht,
      target'.valid.actorKeyId.eq_of_key hof.1 hnew hkey.symm⟩
  · rintro ⟨i, actorDoc, accessScopeId, expiresAt, hslot, hs, ht, rfl⟩
    refine ⟨⟨(h.has_iff (r := .actorToken _) rfl).2
      (.inr (docRows_actorToken.2 ⟨i, actorDoc, _, _, hslot.atDoc, hs, ht, rfl⟩)), rfl, ?_⟩, ?_⟩
    · rw [h.projectId_eq]
      rfl
    · rw [h.imports.minted]
      exact ⟨_, mem_mapIdx_iff.2 ⟨i, actorDoc, hslot.atDoc, rfl⟩, hslot.exported.ref, rfl⟩

theorem exists_reissued {actor : ActorToken} (ha : ActorOf source.store projectId actor) :
    ∃ actor', Reissued credentials target'.store actor actor' := by
  obtain ⟨i, actorDoc, hslot⟩ := h.exists_actorSlot ha
  obtain ⟨accessScopeId, hs⟩ := (h.resolved hslot).scope
  obtain ⟨expiresAt, ht⟩ := (h.resolved hslot).expiresAt
  exact ⟨_, (h.reissued_iff ha.1).2 ⟨i, actorDoc, accessScopeId, expiresAt, hslot, hs, ht, rfl⟩⟩

end RoundTrip

/-! ## Sample -/

/-- Text in the order of its code units, as the `C` collation has it. -/
def collateC (a b : String) : Bool := lexLe (codeUnits a) (codeUnits b)

/-- What an import of a document with one row of each kind draws. -/
def sampleDraws : Draws where
  project := .of "p2"
  scope _ := .of "s2"
  app _ := .of "app2"
  room _ _ := .of "room2"
  typeGrant _ _ _ := .of "type2"
  lobby _ _ := .of "lobby2"
  actor _ := .of "t2"
  actorBytes _ := sampleBytes
  appGrant _ _ := .of "grant2"
  roomGrant _ _ := .of "named2"
  signingKey _ := .of "key2"
  signingKeyBytes _ := { credential := sampleBytes, iv := [] }

end ProjectConfig
end NolagCore
