import NolagCore.Authz.Admission
import NolagCore.Facade.Origin
import NolagCore.Facade.Validation

/-!
# Facade.Linked

Every stored link stays inside one project. The foreign keys know nothing of projects, so the
invariant rests on each operation checking its own arguments. Two do not: a room grant is created for
whatever actor it names, and declared lobbies are wired to whatever rooms the caller hands over. In
every run in which neither is given a foreign row the invariant holds.
-/

namespace NolagCore
namespace Facade

open Lib Store ProjectConfig
open Authz (configure sampleSetup)

/-- Every live app grant joins an actor and an app of one project. -/
def AppGrantsHome (s : Store) : Prop :=
  ∀ g ∈ s.actorAppAccess, live g = true → ∀ a ∈ s.actorTokens, g.actorTokenId = a.actorTokenId →
    ∀ app ∈ s.apps, g.appId = app.appId → app.projectId = a.projectId

/-- Every live link joins rows of one project, and every live membership rows of one app. -/
structure Linked (s : Store) : Prop where
  actorScope : ∀ a ∈ s.actorTokens, live a = true → ∀ r ∈ s.accessScopes,
    a.accessScopeId = some r.accessScopeId → r.projectId = a.projectId
  roomGrant : ∀ g ∈ s.roomActorAccess, live g = true → ∀ a ∈ s.actorTokens,
    g.actorTokenId = some a.actorTokenId → ∀ room ∈ s.rooms, g.roomId = room.roomId →
    ∀ app ∈ s.apps, room.appId = app.appId → app.projectId = a.projectId
  appGrant : AppGrantsHome s
  lobbyRoom : ∀ lr ∈ s.lobbyRooms, live lr = true → ∀ l ∈ s.lobbies, lr.lobbyId = l.lobbyId →
    ∀ room ∈ s.rooms, lr.roomId = room.roomId → l.appId = room.appId

/-- The operation hands over no foreign row: a room grant names an actor of the room's project, and
the rooms a declared lobby is wired to are rooms of its app. -/
def KeepsLinks (db : Database) (l : Int × Operation) : Prop :=
  match l.2 with
  | .createRoomGrant _ roomId dto => ∀ a ∈ db.store.actorTokens,
    dto.actorTokenId = some a.actorTokenId → ∀ room ∈ db.store.rooms, roomId = room.roomId →
    ∀ app ∈ db.store.apps, room.appId = app.appId → app.projectId = a.projectId
  | .createStaticLobbies _ appId lobbies createdRooms => ∀ declared ∈ lobbies,
    ∀ slug ∈ declared.rooms.getD [], ∀ room ∈ db.store.rooms,
    (OrderedMap.ofList Prod.snd Prod.fst createdRooms).get? slug = some room.roomId →
    appId = room.appId
  | _ => True

/-! ## Imports -/

section

variable {host : Host} {draws : Draws} {now : Int} {doc : ProjectConfigDoc} {s d : Store}
  (hv : (s.append d).SchemaValid) (hd : Yields d (DocRows host draws now doc))

include hv hd

/-! A stored row with the id of a row of the document is that row. -/

theorem project_of_docScope {r : AccessScope} (hr : r ∈ (s.append d).accessScopes) {i : Nat}
    {scope : AccessScopeDoc} (hi : (doc.accessScopes.getD [])[i]? = some scope)
    (hid : r.accessScopeId = draws.scope i) : r.projectId = draws.project := by
  have hdoc : d.Has (.accessScope (scopeRow draws i scope)) :=
    hd.complete _ rfl (docRows_scope.2 ⟨i, scope, hi, rfl⟩)
  rw [hv.pkScope.eq_of_key hr (List.mem_append_right _ hdoc) hid]
  rfl

theorem project_of_docApp {r : PlatformApp} (hr : r ∈ (s.append d).apps) {i : Nat} {app : AppDoc}
    (hi : (doc.apps.getD [])[i]? = some app) (hid : r.appId = draws.app i) :
    r.projectId = draws.project := by
  have hdoc : d.Has (.app (appRow draws i app)) :=
    hd.complete _ rfl (docRows_app.2 ⟨i, app, hi, rfl⟩)
  rw [hv.pkApp.eq_of_key hr (List.mem_append_right _ hdoc) hid]
  rfl

theorem app_of_docRoom {r : Room} (hr : r ∈ (s.append d).rooms) {i j : Nat} {app : AppDoc}
    {room : RoomDoc} (hi : (doc.apps.getD [])[i]? = some app)
    (hj : (app.rooms.getD [])[j]? = some room) (hid : r.roomId = draws.room i j) :
    r.appId = draws.app i := by
  have hdoc : d.Has (.room (roomRow draws i j room)) :=
    hd.complete _ rfl (docRows_room.2 ⟨i, app, j, room, hi, hj, rfl⟩)
  rw [hv.pkRoom.eq_of_key hr (List.mem_append_right _ hdoc) hid]
  rfl

theorem app_of_docLobby {r : Lobby} (hr : r ∈ (s.append d).lobbies) {i j : Nat} {app : AppDoc}
    {lobby : LobbyDoc} (hi : (doc.apps.getD [])[i]? = some app)
    (hj : (app.lobbies.getD [])[j]? = some lobby) (hid : r.lobbyId = draws.lobby i j) :
    r.appId = draws.app i := by
  have hdoc : d.Has (.lobby (lobbyRow draws i j lobby)) :=
    hd.complete _ rfl (docRows_lobby.2 ⟨i, app, j, lobby, hi, hj, rfl⟩)
  rw [hv.pkLobby.eq_of_key hr (List.mem_append_right _ hdoc) hid]
  rfl

theorem project_of_docActor (hactors : ∀ actor ∈ doc.actors.getD [], ActorResolved host draws doc actor)
    {r : ActorToken} (hr : r ∈ (s.append d).actorTokens) {i : Nat} {actor : ActorDoc}
    (hi : (doc.actors.getD [])[i]? = some actor) (hid : r.actorTokenId = draws.actor i) :
    r.projectId = draws.project := by
  have hres := hactors actor (List.mem_of_getElem? hi)
  obtain ⟨accessScopeId, hscope⟩ := hres.scope
  obtain ⟨expiresAt, hdate⟩ := hres.expiresAt
  have hdoc : d.Has (.actorToken (actorRow host draws i actor accessScopeId expiresAt)) :=
    hd.complete _ rfl
      (docRows_actorToken.2 ⟨i, actor, accessScopeId, expiresAt, hi, hscope, hdate, rfl⟩)
  rw [hv.pkActor.eq_of_key hr (List.mem_append_right _ hdoc) hid]
  rfl

end

/-- An old grant joins old rows, and a grant of the document rows of the new project. -/
theorem appGrantsHome_import {host : Host} {draws : Draws} {now : Int} {doc : ProjectConfigDoc}
    {credentials : ImportedCredentials} {s s' : Store} (hs : s.SchemaValid) (hv : s'.SchemaValid)
    (hI : AppGrantsHome s) (him : Imported host draws now doc credentials s s') :
    AppGrantsHome s' := by
  intro g hg hl a ha hactor app happ happId
  obtain ⟨d, hd, rfl⟩ := him.rows
  rcases List.mem_append.1 hg with hg | hg
  · obtain ⟨a₀, ha₀, haid⟩ := hs.fkAppGrantActor g hg g.actorTokenId rfl
    obtain ⟨app₀, happ₀, hpid⟩ := hs.fkAppGrantApp g hg g.appId rfl
    have haeq : a = a₀ := hv.pkActor.eq_of_key ha (List.mem_append_left _ ha₀)
      (hactor.symm.trans haid.symm)
    have hpeq : app = app₀ := hv.pkApp.eq_of_key happ (List.mem_append_left _ happ₀)
      (happId.symm.trans hpid.symm)
    exact hI g hg hl a (haeq ▸ ha₀) hactor app (hpeq ▸ happ₀) happId
  · obtain ⟨i, actor, j, grant, appId, expiresAt, hi, _, hget, _, rfl⟩ :=
      docRows_appGrant.1 (hd.sound (.appGrant g) hg)
    obtain ⟨k, app', hk, _, hid⟩ := of_appIdBySlug hget
    rw [project_of_docApp hv hd happ hk (happId.symm.trans hid.symm),
      project_of_docActor hv hd him.actors ha hi hactor.symm]

/-- The keys of rooms under two apps are apart when the slugs of the apps hold no slash. -/
theorem appSlug_of_roomKey {appSlug appSlug' roomSlug roomSlug' : String} (h : Segment appSlug)
    (h' : Segment appSlug') (hkey : roomKey appSlug roomSlug = roomKey appSlug' roomSlug') :
    appSlug = appSlug' := by
  have hmark : "/".toList = ['/'] := rfl
  unfold roomKey at hkey
  have hsplit := congrArg (splitOn '/') hkey
  rw [splitOn_append hmark h.2, splitOn_append hmark h'.2] at hsplit
  exact (List.cons.inj hsplit).1

theorem segment_of_docApp {doc : ProjectConfigDoc} (hdto : doc.slugsValid = true) {app : AppDoc}
    (h : app ∈ doc.apps.getD []) : Segment app.slug := by
  simp only [ProjectConfigDoc.slugsValid, Bool.and_eq_true, List.all_eq_true] at hdto
  exact segment_of_isDocSlug (hdto.2 app h).1.1

section

variable {host : Host} {draws : Draws} {now : Int} {doc : ProjectConfigDoc}
  {credentials : ImportedCredentials} {s s' : Store} (hs : s.SchemaValid) (hv : s'.SchemaValid)
  (hI : Linked s) (him : Imported host draws now doc credentials s s')

include hs hv hI him

/-! A link stored before still joins rows stored before; a link of the document joins rows of the
document, all of them in the new project. -/

theorem import_actorScope {a : ActorToken} (ha : a ∈ s'.actorTokens) (hl : live a = true)
    {r : AccessScope} (hr : r ∈ s'.accessScopes)
    (hscope : a.accessScopeId = some r.accessScopeId) : r.projectId = a.projectId := by
  obtain ⟨d, hd, rfl⟩ := him.rows
  rcases List.mem_append.1 ha with ha | ha
  · obtain ⟨r₀, hr₀, hid⟩ := hs.fkActorScope a ha r.accessScopeId hscope
    have heq : r = r₀ := hv.pkScope.eq_of_key hr (List.mem_append_left _ hr₀) hid.symm
    exact hI.actorScope a ha hl r (heq ▸ hr₀) hscope
  · obtain ⟨i, actor, accessScopeId, expiresAt, _, hok, _, rfl⟩ :=
      docRows_actorToken.1 (hd.sound (.actorToken a) ha)
    obtain ⟨_, hnone⟩ | ⟨slug, id, _, _, hget, hsome⟩ := actorScope_ok hok
    · exact absurd (hscope.symm.trans hnone) (by simp)
    · obtain ⟨k, scope, hk, _, hid⟩ := of_scopeIdBySlug hget
      have hkey : r.accessScopeId = draws.scope k :=
        (Option.some.inj (hscope.symm.trans hsome)).trans hid.symm
      exact project_of_docScope hv hd hr hk hkey

theorem import_roomGrant {g : RoomActorAccess} (hg : g ∈ s'.roomActorAccess) (hl : live g = true)
    {a : ActorToken} (ha : a ∈ s'.actorTokens) (hactor : g.actorTokenId = some a.actorTokenId)
    {room : Room} (hroom : room ∈ s'.rooms) (hroomId : g.roomId = room.roomId) {app : PlatformApp}
    (happ : app ∈ s'.apps) (happId : room.appId = app.appId) : app.projectId = a.projectId := by
  obtain ⟨d, hd, rfl⟩ := him.rows
  rcases List.mem_append.1 hg with hg | hg
  · obtain ⟨a₀, ha₀, haid⟩ := hs.fkGrantActor g hg a.actorTokenId hactor
    obtain ⟨room₀, hroom₀, hrid⟩ := hs.fkGrantRoom g hg g.roomId rfl
    have haeq : a = a₀ := hv.pkActor.eq_of_key ha (List.mem_append_left _ ha₀) haid.symm
    have hreq : room = room₀ := hv.pkRoom.eq_of_key hroom (List.mem_append_left _ hroom₀)
      (hroomId.symm.trans hrid.symm)
    obtain ⟨app₀, happ₀, hpid⟩ := hs.fkRoomApp room₀ hroom₀ room₀.appId rfl
    have hpeq : app = app₀ := hv.pkApp.eq_of_key happ (List.mem_append_left _ happ₀)
      (by rw [← happId, hreq, hpid])
    exact hI.roomGrant g hg hl a (haeq ▸ ha₀) hactor room (hreq ▸ hroom₀) hroomId app
      (hpeq ▸ happ₀) happId
  · rcases docRows_roomGrant.1 (hd.sound (.roomGrant g) hg) with
      ⟨i, app', j, room', k, grant, _, _, _, rfl⟩ | ⟨i, actor, j, grant, roomId, expiresAt, hi, _,
        hget, _, rfl⟩
    · exact absurd hactor (by simp [typeGrantRow])
    · obtain ⟨k, app', l, room', hk, hkl, _, hid⟩ := of_roomIdByAppAndSlug hget
      have hrid : room.roomId = draws.room k l := hroomId.symm.trans hid.symm
      have hpid : app.appId = draws.app k :=
        happId.symm.trans (app_of_docRoom hv hd hroom hk hkl hrid)
      rw [project_of_docApp hv hd happ hk hpid,
        project_of_docActor hv hd him.actors ha hi (Option.some.inj hactor).symm]

/-- The room a lobby of the document names by slug is of its own app: no other app of the document
has a key that begins alike. -/
theorem import_lobbyRoom (hdto : doc.slugsValid = true) {lr : LobbyRoom} (hlr : lr ∈ s'.lobbyRooms)
    (hl : live lr = true) {l : Lobby} (hlobby : l ∈ s'.lobbies) (hlobbyId : lr.lobbyId = l.lobbyId)
    {room : Room} (hroom : room ∈ s'.rooms) (hroomId : lr.roomId = room.roomId) :
    l.appId = room.appId := by
  obtain ⟨d, hd, rfl⟩ := him.rows
  rcases List.mem_append.1 hlr with hlr | hlr
  · obtain ⟨l₀, hl₀, hlid⟩ := hs.fkMemberLobby lr hlr lr.lobbyId rfl
    obtain ⟨room₀, hroom₀, hrid⟩ := hs.fkMemberRoom lr hlr lr.roomId rfl
    have hleq : l = l₀ := hv.pkLobby.eq_of_key hlobby (List.mem_append_left _ hl₀)
      (hlobbyId.symm.trans hlid.symm)
    have hreq : room = room₀ := hv.pkRoom.eq_of_key hroom (List.mem_append_left _ hroom₀)
      (hroomId.symm.trans hrid.symm)
    exact hI.lobbyRoom lr hlr hl l (hleq ▸ hl₀) hlobbyId room (hreq ▸ hroom₀) hroomId
  · obtain ⟨i, app, j, lobby, roomSlug, hi, hj, hget, hlid⟩ :=
      docRows_lobbyRoom (hd.sound (.lobbyRoom lr) hlr)
    obtain ⟨k, app', m, room', hk, hm, hkey, hrid⟩ := of_roomIdByAppAndSlug hget
    have hk' : (doc.apps.getD [])[k]? = some app' := by
      rw [List.getElem?_take] at hk
      split at hk
      · exact hk
      · cases hk
    have hslug : app'.slug = app.slug := appSlug_of_roomKey
      (segment_of_docApp hdto (List.mem_of_getElem? hk'))
      (segment_of_docApp hdto (List.mem_of_getElem? hi)) hkey
    have hki : k = i := by
      refine (List.getElem?_inj ?_ (nodup_appSlugs him.unique)).1 ?_
      · rw [List.length_map]
        exact (List.getElem?_eq_some_iff.1 hk').1
      · rw [List.getElem?_map, List.getElem?_map, hk', hi]
        exact congrArg some hslug
    rw [app_of_docLobby hv hd hlobby hi hj (hlobbyId.symm.trans hlid),
      app_of_docRoom hv hd hroom hk' hm (hroomId.symm.trans hrid.symm), hki]

end

theorem linked_import {host : Host} {draws : Draws} {now : Int} {doc : ProjectConfigDoc}
    {db db' : Database} (hI : Linked db.store) (hdto : doc.slugsValid = true)
    (h : (Operation.importProject draws doc).run host now db = .ok db') : Linked db'.store := by
  obtain ⟨credentials, him⟩ := import_done h
  constructor
  · intro a ha hl r hr hscope
    exact import_actorScope db.valid db'.valid hI him ha hl hr hscope
  · intro g hg hl a ha hactor room hroom hroomId app happ happId
    exact import_roomGrant db.valid db'.valid hI him hg hl ha hactor hroom hroomId happ happId
  · exact appGrantsHome_import db.valid db'.valid hI.appGrant him
  · intro lr hlr hl l hlobby hlobbyId room hroom hroomId
    exact import_lobbyRoom db.valid db'.valid hI him hdto hlr hl hlobby hlobbyId hroom hroomId

/-! ## The other operations -/

/-- A scope that passes the check is a row of the project. -/
theorem of_assertScope {s : Store} {projectId accessScopeId : Uuid}
    (h : ActorTokenFacade.assertScopeInProject s projectId (some accessScopeId) = .ok ()) :
    ∃ r ∈ s.accessScopes, r.accessScopeId = accessScopeId ∧ r.projectId = projectId := by
  simp only [ActorTokenFacade.assertScopeInProject] at h
  split at h
  · cases h
  · rename_i hcount
    obtain ⟨r, hr, _, hp⟩ := exists_of_findAll_pos (Nat.pos_of_ne_zero hcount)
    simp only [Bool.and_eq_true, decide_eq_true_eq] at hp
    exact ⟨r, hr, hp.1, hp.2⟩

/-- Only an import stores app grants. -/
theorem appGrantsHome_step {host : Host} {now : Int} {op : Operation} {db db' : Database}
    (hI : AppGrantsHome db.store) (h : op.run host now db = .ok db') : AppGrantsHome db'.store := by
  by_cases himport : ∃ draws doc, op = .importProject draws doc
  · obtain ⟨draws, doc, rfl⟩ := himport
    obtain ⟨credentials, him⟩ := import_done h
    exact appGrantsHome_import db.valid db'.valid hI him
  · intro g hg hl a ha hactor app happ happId
    have ho : Origin host now db.store op (.appGrant g) := run_origin h rfl hg
    cases ho with
    | kept hkept =>
      obtain ⟨a₀, ha₀, haid⟩ := db.valid.fkAppGrantActor g hkept g.actorTokenId rfl
      obtain ⟨app₀, hp₀, hpid⟩ := db.valid.fkAppGrantApp g hkept g.appId rfl
      have haproj : a.projectId = a₀.projectId := congrArg Prod.fst
        ((actors_placed h).stands db.valid.pkActor ha ha₀ (hactor.symm.trans haid.symm))
      have hpproj : app.projectId = app₀.projectId := congrArg Prod.fst
        ((apps_placed h).stands db.valid.pkApp happ hp₀ (happId.symm.trans hpid.symm))
      rw [haproj, hpproj]
      exact hI g hkept hl a₀ ha₀ haid.symm app₀ hp₀ hpid.symm
    | stamped _ _ hdead => exact absurd (hl.symm.trans hdead) (by simp)
    | patched _ _ _ hpatch => cases hpatch
    | created _ hc =>
      cases hc with
      | imported => exact absurd ⟨_, _, rfl⟩ himport

section

variable {host : Host} {now : Int} {op : Operation} {db db' : Database} (hI : Linked db.store)
  (himport : ∀ draws doc, op ≠ .importProject draws doc) (h : op.run host now db = .ok db')

include hI himport h

theorem step_actorScope {a : ActorToken} (ha : a ∈ db'.store.actorTokens) (hl : live a = true)
    {r : AccessScope} (hr : r ∈ db'.store.accessScopes)
    (hscope : a.accessScopeId = some r.accessScopeId) : r.projectId = a.projectId := by
  -- a scope that was stored before stands where it stood
  have hstands : ∀ r₀ ∈ db.store.accessScopes, r₀.accessScopeId = r.accessScopeId →
      r.projectId = r₀.projectId := fun r₀ hr₀ hid =>
    congrArg Prod.fst ((scopes_placed h).stands db.valid.pkScope hr hr₀ hid.symm)
  have hold : ∀ a₀ ∈ db.store.actorTokens, live a₀ = true → a.projectId = a₀.projectId →
      a₀.accessScopeId = some r.accessScopeId → r.projectId = a.projectId := by
    intro a₀ ha₀ hl₀ hproject hscope₀
    obtain ⟨r₀, hr₀, hid⟩ := db.valid.fkActorScope a₀ ha₀ r.accessScopeId hscope₀
    rw [hproject, hstands r₀ hr₀ hid]
    exact hI.actorScope a₀ ha₀ hl₀ r₀ hr₀ (hid.symm ▸ hscope₀)
  have ho : Origin host now db.store op (.actorToken a) := run_origin h rfl ha
  cases ho with
  | kept hkept => exact hold a hkept hl rfl hscope
  | stamped _ _ hdead => exact absurd (hl.symm.trans hdead) (by simp)
  | patched h₀ hl₀ hplace hpatch =>
    cases hpatch with
    | @actor _ projectId data a₀ _ hproject hassigned hassert =>
      cases hdata : data.accessScopeId with
      | none =>
        rw [hdata] at hassigned
        exact hold a₀ h₀ hl₀ hplace.2.1 (hassigned.symm.trans hscope)
      | some named =>
        rw [hdata] at hassigned hassert
        have hnamed : named = some r.accessScopeId := hassigned.symm.trans hscope
        rw [hnamed] at hassert
        obtain ⟨r₀, hr₀, hid, hproj⟩ := of_assertScope hassert
        rw [hstands r₀ hr₀ hid, hproj, hplace.2.1, hproject]
  | created _ hc =>
    cases hc with
    | actor hproject hnamed hassert =>
      rw [← hnamed, hscope] at hassert
      obtain ⟨r₀, hr₀, hid, hproj⟩ := of_assertScope hassert
      rw [hstands r₀ hr₀ hid, hproj, hproject]
    | imported => exact absurd rfl (himport _ _)

theorem step_roomGrant (hC : KeepsLinks db (now, op)) {g : RoomActorAccess}
    (hg : g ∈ db'.store.roomActorAccess) (hl : live g = true) {a : ActorToken}
    (ha : a ∈ db'.store.actorTokens) (hactor : g.actorTokenId = some a.actorTokenId) {room : Room}
    (hroom : room ∈ db'.store.rooms) (hroomId : g.roomId = room.roomId) {app : PlatformApp}
    (happ : app ∈ db'.store.apps) (happId : room.appId = app.appId) :
    app.projectId = a.projectId := by
  -- the project of the room and of the actor are read off the rows they stand on
  have happProj : ∀ room₀ ∈ db.store.rooms, room.roomId = room₀.roomId →
      ∃ app₀ ∈ db.store.apps, room₀.appId = app₀.appId ∧ app.projectId = app₀.projectId := by
    intro room₀ hr₀ hid
    have hroomApp : room.appId = room₀.appId := congrArg Prod.fst
      ((rooms_placed h).stands db.valid.pkRoom hroom hr₀ hid)
    obtain ⟨app₀, hp₀, hpid⟩ := db.valid.fkRoomApp room₀ hr₀ room₀.appId rfl
    have hkey : app.appId = app₀.appId := by rw [← happId, hroomApp, hpid]
    exact ⟨app₀, hp₀, hpid.symm, congrArg Prod.fst
      ((apps_placed h).stands db.valid.pkApp happ hp₀ hkey)⟩
  have hactorProj : ∀ a₀ ∈ db.store.actorTokens, a.actorTokenId = a₀.actorTokenId →
      a.projectId = a₀.projectId := fun a₀ ha₀ hid =>
    congrArg Prod.fst ((actors_placed h).stands db.valid.pkActor ha ha₀ hid)
  have hold : ∀ g₀ ∈ db.store.roomActorAccess, live g₀ = true →
      g₀.actorTokenId = some a.actorTokenId → g₀.roomId = room.roomId →
      app.projectId = a.projectId := by
    intro g₀ hg₀ hl₀ hactor₀ hroom₀
    obtain ⟨a₀, ha₀, haid⟩ := db.valid.fkGrantActor g₀ hg₀ a.actorTokenId hactor₀
    obtain ⟨room₀, hr₀, hrid⟩ := db.valid.fkGrantRoom g₀ hg₀ g₀.roomId rfl
    obtain ⟨app₀, hp₀, hpid, hproj⟩ := happProj room₀ hr₀ (hroom₀.symm.trans hrid.symm)
    rw [hproj, hactorProj a₀ ha₀ haid.symm]
    exact hI.roomGrant g₀ hg₀ hl₀ a₀ ha₀ (haid.symm ▸ hactor₀) room₀ hr₀ hrid.symm app₀ hp₀ hpid
  have ho : Origin host now db.store op (.roomGrant g) := run_origin h rfl hg
  cases ho with
  | kept hkept => exact hold g hkept hl hactor hroomId
  | stamped _ _ hdead => exact absurd (hl.symm.trans hdead) (by simp)
  | patched h₀ hl₀ hplace hpatch =>
    cases hpatch with
    | roomGrant =>
      obtain ⟨_, hroom₀, hactor₀, _⟩ := hplace
      exact hold _ h₀ hl₀ (hactor₀.symm.trans hactor) (hroom₀.symm.trans hroomId)
  | created _ hc =>
    cases hc with
    | roomGrant hroom₁ hactor₁ =>
      -- the call creates neither an actor nor a room, so both were there to be checked
      rcases actors_placed h a ha with ⟨a₀, ha₀, haid, haproj⟩ | ⟨_, hc⟩
      · rcases rooms_placed h room hroom with ⟨room₀, hr₀, hrid, _⟩ | ⟨_, hc⟩
        · obtain ⟨app₀, hp₀, hpid, hproj⟩ := happProj room₀ hr₀ hrid
          rw [hproj, hactorProj a₀ ha₀ haid]
          refine hC a₀ ha₀ ?_ room₀ hr₀ ?_ app₀ hp₀ hpid
          · rw [← hactor₁, hactor, haid]
          · rw [← hroom₁, hroomId, hrid]
        · cases hc
      · cases hc
    | imported => exact absurd rfl (himport _ _)

theorem step_lobbyRoom (hC : KeepsLinks db (now, op)) {lr : LobbyRoom}
    (hlr : lr ∈ db'.store.lobbyRooms) (hl : live lr = true) {l : Lobby}
    (hlobby : l ∈ db'.store.lobbies) (hlobbyId : lr.lobbyId = l.lobbyId) {room : Room}
    (hroom : room ∈ db'.store.rooms) (hroomId : lr.roomId = room.roomId) :
    l.appId = room.appId := by
  have hlobbyApp : ∀ l₀ ∈ db.store.lobbies, l.lobbyId = l₀.lobbyId → l.appId = l₀.appId :=
    fun l₀ hl₀ hid => congrArg Prod.fst
      ((lobbies_placed h).stands db.valid.pkLobby hlobby hl₀ hid)
  have hroomApp : ∀ room₀ ∈ db.store.rooms, room.roomId = room₀.roomId →
      room.appId = room₀.appId := fun room₀ hr₀ hid =>
    congrArg Prod.fst ((rooms_placed h).stands db.valid.pkRoom hroom hr₀ hid)
  have ho : Origin host now db.store op (.lobbyRoom lr) := run_origin h rfl hlr
  cases ho with
  | kept hkept =>
    obtain ⟨l₀, hl₀, hlid⟩ := db.valid.fkMemberLobby lr hkept lr.lobbyId rfl
    obtain ⟨room₀, hr₀, hrid⟩ := db.valid.fkMemberRoom lr hkept lr.roomId rfl
    rw [hlobbyApp l₀ hl₀ (hlobbyId.symm.trans hlid.symm),
      hroomApp room₀ hr₀ (hroomId.symm.trans hrid.symm)]
    exact hI.lobbyRoom lr hkept hl l₀ hl₀ hlid.symm room₀ hr₀ hrid.symm
  | stamped _ _ hdead => exact absurd (hl.symm.trans hdead) (by simp)
  | patched _ _ _ hpatch => cases hpatch
  | created _ hc =>
    cases hc with
    | member hl₀ hlid hlapp hr₀ hrid hrapp hlobby₁ hroom₁ =>
      rw [hlobbyApp _ hl₀ (by rw [← hlobbyId, hlobby₁, hlid]),
        hroomApp _ hr₀ (by rw [← hroomId, hroom₁, hrid]), hlapp, hrapp]
    | staticMember hmem hslug hget hlobby₁ hnew =>
      rcases lobbies_placed h l hlobby with ⟨l₀, hl₀, hlid, _⟩ | ⟨_, hc⟩
      · exact absurd (by rw [← hlid, ← hlobbyId, hlobby₁]) (hnew l₀ hl₀)
      · rcases rooms_placed h room hroom with ⟨room₀, hr₀, hrid, _⟩ | ⟨_, hc'⟩
        · cases hc with
          | staticLobby happ =>
            rw [happ, hroomApp room₀ hr₀ hrid]
            refine hC _ (List.mem_of_getElem? hmem) _ hslug room₀ hr₀ ?_
            rw [hget, hroomId, hrid]
        · cases hc'
    | imported => exact absurd rfl (himport _ _)

end

theorem linked_step {host : Host} {now : Int} {op : Operation} {db db' : Database}
    (hI : Linked db.store) (hdto : op.dtoValid = true) (hC : KeepsLinks db (now, op))
    (h : op.run host now db = .ok db') : Linked db'.store := by
  by_cases himport : ∃ draws doc, op = .importProject draws doc
  · obtain ⟨draws, doc, rfl⟩ := himport
    exact linked_import hI hdto h
  · have hother : ∀ draws doc, op ≠ .importProject draws doc :=
      fun draws doc heq => himport ⟨draws, doc, heq⟩
    constructor
    · intro a ha hl r hr hscope
      exact step_actorScope hI hother h ha hl hr hscope
    · intro g hg hl a ha hactor room hroom hroomId app happ happId
      exact step_roomGrant hI hother h hC hg hl ha hactor hroom hroomId happ happId
    · exact appGrantsHome_step hI.appGrant h
    · intro lr hlr hl l hlobby hlobbyId room hroom hroomId
      exact step_lobbyRoom hI hother h hC hlr hl hlobby hlobbyId hroom hroomId

theorem appGrantsHome_empty : AppGrantsHome Database.empty.store := by
  intro g hg
  cases hg

theorem linked_empty : Linked Database.empty.store where
  actorScope := by intro a ha; cases ha
  roomGrant := by intro g hg; cases hg
  appGrant := appGrantsHome_empty
  lobbyRoom := by intro lr hlr; cases hlr

/-! ## Runs -/

/-- In every run from the empty store whose operations are given no foreign actor and no foreign
room, every stored link stays inside one project. -/
theorem links_stay_inside (host : Host) (run : List (Int × Operation)) (db : Database)
    (hrun : exec (configure host) Database.empty run = some db)
    (hdto : ∀ l ∈ run, l.2.dtoValid = true)
    (hkeep : Meets (configure host) KeepsLinks Database.empty run) : Linked db.store := by
  refine exec_invariant (I := fun db => Linked db.store) ?_ run Database.empty db linked_empty
    (hkeep.and hdto) hrun
  intro db l db' hI hC hstep
  cases hstep
  unfold Operation.apply
  split
  · rename_i db' hok
    exact linked_step hI hC.2 hC.1 hok
  · exact hI

/-! ## A foreign grant -/

def sampleGrant (actorTokenId : Uuid) : Operation :=
  .createRoomGrant (.of "g") (.of "room") { actorTokenId := some actorTokenId, permission := .pubSub }

/-- The setup and a grant on its room to its actor. -/
def homeGrant : List (Int × Operation) := sampleSetup ++ [(1, sampleGrant (.of "t1"))]

theorem links_stay_inside_homeGrant :
    ∃ db, exec (configure sampleHost) Database.empty homeGrant = some db ∧ Linked db.store := by
  refine ⟨_, rfl, links_stay_inside sampleHost homeGrant _ rfl (by decide) ?_⟩
  refine ⟨trivial, fun db₁ h₁ => ⟨trivial, fun db₂ h₂ => ⟨trivial, fun db₃ h₃ => ⟨trivial,
    fun db₄ h₄ => ⟨?_, fun db₅ h₅ => trivial⟩⟩⟩⟩⟩
  cases h₁
  cases h₂
  cases h₃
  cases h₄
  intro a ha _ room hroom _ app happ _
  cases List.mem_singleton.1 ha
  cases List.mem_singleton.1 happ
  rfl

/-- The setup, a second project with an actor, and a grant to it on the first project's room. -/
def foreignGrant : List (Int × Operation) :=
  sampleSetup ++
    [(1, .createProject (.of "q") { name := "Other" }),
      (1, .createActorToken (.of "t2") { sampleBytes with keyBytes := List.replicate 6 1 } (.of "q")
        { name := "Stranger", actorType := .user }),
      (2, sampleGrant (.of "t2"))]

/-- The call that grants a room to an actor of another project is not refused. -/
theorem foreign_grant_links :
    ¬ ∀ (host : Host) (run : List (Int × Operation)) (db : Database),
      exec (configure host) Database.empty run = some db →
      (∀ l ∈ run, l.2.dtoValid = true) → Linked db.store := by
  intro hevery
  have hlinked := hevery sampleHost foreignGrant _ rfl (by decide)
  have hsame := hlinked.roomGrant _ List.mem_cons_self rfl _
    (List.mem_cons_of_mem _ List.mem_cons_self) rfl _ List.mem_cons_self rfl _
    List.mem_cons_self rfl
  exact absurd hsame (by decide)

end Facade
end NolagCore
