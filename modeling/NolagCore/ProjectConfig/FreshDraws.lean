import NolagCore.Model.Constraints
import NolagCore.ProjectConfig.WellFormed

/-!
# ProjectConfig.FreshDraws

The ids and key ids an import draws are taken to be new. Then the rows of a well formed document keep
every unique key of the database they come into.
-/

namespace NolagCore
namespace ProjectConfig

open Lib Store

/-- The ids and key ids drawn for a document differ from one another and from the stored ones. -/
structure FreshDraws (host : Host) (draws : Draws) (doc : ProjectConfigDoc) (s : Store) : Prop where
  project : draws.project ∉ s.projects.map (·.projectId)
  scope : (s.accessScopes.map (·.accessScopeId) ++
    (doc.accessScopes.getD []).mapIdx fun i _ => draws.scope i).Nodup
  app : (s.apps.map (·.appId) ++ (doc.apps.getD []).mapIdx fun i _ => draws.app i).Nodup
  room : (s.rooms.map (·.roomId) ++
    blocks (fun i app => (app.rooms.getD []).mapIdx fun j _ => draws.room i j)
      (doc.apps.getD [])).Nodup
  roomGrant : (s.roomActorAccess.map (·.roomActorAccessId) ++
    (blocks (fun i app => blocks (fun j room =>
        (room.typeGrants.getD []).mapIdx fun k _ => draws.typeGrant i j k) (app.rooms.getD []))
      (doc.apps.getD []) ++
    blocks (fun i actor => (actor.roomAccess.getD []).mapIdx fun j _ => draws.roomGrant i j)
      (doc.actors.getD []))).Nodup
  lobby : (s.lobbies.map (·.lobbyId) ++
    blocks (fun i app => (app.lobbies.getD []).mapIdx fun j _ => draws.lobby i j)
      (doc.apps.getD [])).Nodup
  actor : (s.actorTokens.map (·.actorTokenId) ++
    (doc.actors.getD []).mapIdx fun i _ => draws.actor i).Nodup
  actorKeyId : (s.actorTokens.map (·.keyId) ++
    (doc.actors.getD []).mapIdx fun i _ => (credentialOf host draws i).keyId).Nodup
  appGrant : (s.actorAppAccess.map (·.actorAppAccessId) ++
    blocks (fun i actor => (actor.appAccess.getD []).mapIdx fun j _ => draws.appGrant i j)
      (doc.actors.getD [])).Nodup
  signingKey : (s.signingKeys.map (·.signingKeyId) ++
    (doc.signingKeys.getD []).mapIdx fun i _ => draws.signingKey i).Nodup
  signingKeyId : (s.signingKeys.map (·.keyId) ++
    (doc.signingKeys.getD []).mapIdx fun i _ => (generatedKey host draws i).keyId).Nodup

variable {host : Host} {draws : Draws} {now : Int} {doc : ProjectConfigDoc} {s : Store}

/-! ## Unique keys -/

theorem unique_iff_ids {α κ : Type} {key : α → κ} {rows new : List α} {ids : List κ}
    (hnew : new.map key = ids) : UniqueOn key (rows ++ new) ↔ (rows.map key ++ ids).Nodup := by
  unfold UniqueOn
  rw [List.map_append, hnew]

theorem ne_of_ids {α κ : Type} {key : α → κ} {rows : List α} {ids : List κ}
    (h : (rows.map key ++ ids).Nodup) {r : α} (hr : r ∈ rows) {id : κ} (hid : id ∈ ids) :
    key r ≠ id := fun heq =>
  (List.nodup_append'.1 h).2.2 (List.mem_map_of_mem hr) (heq ▸ hid)

/-- Slugs that differ under each parent, and ids that differ from parent to parent. -/
theorem nodup_childSlugs {α β : Type} {ids : Nat → Uuid} {children : α → List β}
    {slug : β → String} {l : List α} (hids : (l.mapIdx fun i _ => ids i).Nodup)
    (hslugs : ∀ a ∈ l, ((children a).map slug).Nodup) :
    (blocks (fun i a => (children a).map fun b => (ids i, slug b)) l).Nodup := by
  refine nodup_blocks (fun i a hi => ?_) ?_
  · have hpair : ((children a).map fun b => (ids i, slug b)) =
        ((children a).map slug).map fun text => (ids i, text) := by
      rw [List.map_map]
      rfl
    rw [hpair]
    exact (hslugs a (List.mem_of_getElem? hi)).map fun _ _ h => congrArg Prod.snd h
  · intro i a j c e hi hj he he'
    obtain ⟨b, -, rfl⟩ := List.mem_map.1 he
    obtain ⟨b', -, heq⟩ := List.mem_map.1 he'
    exact index_eq_of_nodup_mapIdx hids hi hj (congrArg Prod.fst heq).symm

section

variable (hfresh : FreshDraws host draws doc s)

include hfresh

theorem old_project_ne {projectId : Uuid} (h : ∃ p ∈ s.projects, p.projectId = projectId) :
    projectId ≠ draws.project := by
  rintro rfl
  obtain ⟨p, hp, hid⟩ := h
  exact hfresh.project (hid ▸ List.mem_map_of_mem hp)

/-- The app of a stored row is none of the new ones. -/
theorem old_app_ne {appId : Uuid} (h : ∃ a ∈ s.apps, a.appId = appId) {i : Nat} {app : AppDoc}
    (hi : (doc.apps.getD [])[i]? = some app) : appId ≠ draws.app i := by
  obtain ⟨a, ha, rfl⟩ := h
  exact ne_of_ids hfresh.app ha (mem_mapIdx_iff.2 ⟨i, app, hi, rfl⟩)

variable (hs : s.SchemaValid)

include hs

theorem unique_scopeSlugs (hdoc : Distinct doc) :
    UniqueOn (fun r : AccessScope => (r.projectId, r.slug))
      ((s.append (created host draws now doc)).accessScopes.filter live) := by
  rw [accessScopes_append, List.filter_append]
  refine hs.scopeSlug.append_of_ne (UniqueOn.filter ?_ _) ?_
  · rw [accessScopes_created]
    unfold UniqueOn
    have hkeys : (doc.accessScopes.getD []).mapIdx (fun i scope => (draws.project, scope.slug)) =
        ((doc.accessScopes.getD []).map (·.slug)).map fun text => (draws.project, text) := by
      rw [mapIdx_const, List.map_map]
      rfl
    rw [map_mapIdx]
    refine hkeys ▸ (hdoc.scopes.map ?_)
    exact fun _ _ h => congrArg Prod.snd h
  · intro r hr r' hr' heq
    have hold := hs.fkScopeProject r (List.mem_of_mem_filter hr) r.projectId rfl
    have hnew := (List.mem_filter.1 hr').1
    rw [accessScopes_created] at hnew
    obtain ⟨i, scope, -, rfl⟩ := mem_mapIdx_iff.1 hnew
    exact old_project_ne hfresh hold (congrArg Prod.fst heq)

theorem unique_appSlugs (hdoc : Distinct doc) :
    UniqueOn (fun a : PlatformApp => (a.projectId, a.slug))
      ((s.append (created host draws now doc)).apps.filter live) := by
  rw [apps_append, List.filter_append]
  refine hs.appSlug.append_of_ne (UniqueOn.filter ?_ _) ?_
  · rw [apps_created]
    unfold UniqueOn
    have hkeys : (doc.apps.getD []).mapIdx (fun i app => (draws.project, app.slug)) =
        ((doc.apps.getD []).map (·.slug)).map fun text => (draws.project, text) := by
      rw [mapIdx_const, List.map_map]
      rfl
    rw [map_mapIdx]
    refine hkeys ▸ (hdoc.apps.map ?_)
    exact fun _ _ h => congrArg Prod.snd h
  · intro r hr r' hr' heq
    have hold := hs.fkAppProject r (List.mem_of_mem_filter hr) r.projectId rfl
    have hnew := (List.mem_filter.1 hr').1
    rw [apps_created] at hnew
    obtain ⟨i, app, -, rfl⟩ := mem_mapIdx_iff.1 hnew
    exact old_project_ne hfresh hold (congrArg Prod.fst heq)

theorem unique_roomSlugs (hdoc : Distinct doc) :
    UniqueOn (fun r : Room => (r.appId, r.slug))
      ((s.append (created host draws now doc)).rooms.filter live) := by
  rw [rooms_append, List.filter_append]
  refine hs.roomSlug.append_of_ne (UniqueOn.filter ?_ _) ?_
  · rw [rooms_created]
    unfold UniqueOn
    rw [map_blocks]
    simp only [map_mapIdx, roomRow, mapIdx_const]
    exact nodup_childSlugs (List.nodup_append'.1 hfresh.app).2.1 hdoc.rooms
  · intro r hr r' hr' heq
    have hold := hs.fkRoomApp r (List.mem_of_mem_filter hr) r.appId rfl
    have hnew := (List.mem_filter.1 hr').1
    rw [rooms_created] at hnew
    obtain ⟨i, app, hi, hblock⟩ := mem_blocks.1 hnew
    obtain ⟨j, room, -, rfl⟩ := mem_mapIdx_iff.1 hblock
    exact old_app_ne hfresh hold hi (congrArg Prod.fst heq)

theorem unique_lobbySlugs (hdoc : Distinct doc) :
    UniqueOn (fun l : Lobby => (l.appId, l.slug))
      ((s.append (created host draws now doc)).lobbies.filter live) := by
  rw [lobbies_append, List.filter_append]
  refine hs.lobbySlug.append_of_ne (UniqueOn.filter ?_ _) ?_
  · rw [lobbies_created]
    unfold UniqueOn
    rw [map_blocks]
    simp only [map_mapIdx, lobbyRow, mapIdx_const]
    exact nodup_childSlugs (List.nodup_append'.1 hfresh.app).2.1 hdoc.lobbies
  · intro r hr r' hr' heq
    have hold := hs.fkLobbyApp r (List.mem_of_mem_filter hr) r.appId rfl
    have hnew := (List.mem_filter.1 hr').1
    rw [lobbies_created] at hnew
    obtain ⟨i, app, hi, hblock⟩ := mem_blocks.1 hnew
    obtain ⟨j, lobby, -, rfl⟩ := mem_mapIdx_iff.1 hblock
    exact old_app_ne hfresh hold hi (congrArg Prod.fst heq)

theorem unique_links : UniqueOn (fun lr : LobbyRoom => (lr.lobbyId, lr.roomId))
    (s.append (created host draws now doc)).lobbyRooms := by
  have hlobbies := (List.nodup_append'.1 hfresh.lobby).2.1
  rw [lobbyRooms_append]
  refine hs.pkLobbyRoom.append_of_ne ?_ ?_
  · rw [lobbyRooms_created]
    unfold UniqueOn
    rw [map_blocks]
    simp only [map_blocks]
    refine nodup_blocks (fun i app hi => nodup_blocks (fun j lobby _ => unique_createdLinks) ?_) ?_
    · intro j lobby j' lobby' e hj hj' he he'
      obtain ⟨l, hl, rfl⟩ := List.mem_map.1 he
      obtain ⟨l', hl', heq⟩ := List.mem_map.1 he'
      have hid : l'.lobbyId = l.lobbyId := congrArg Prod.fst heq
      rw [lobbyId_of_createdLinks hl, lobbyId_of_createdLinks hl'] at hid
      exact (place_eq_of_nodup hlobbies hi hj hi hj' hid.symm).2
    · intro i app i' app' e hi hi' he he'
      obtain ⟨j, lobby, hj, he⟩ := mem_blocks.1 he
      obtain ⟨j', lobby', hj', he'⟩ := mem_blocks.1 he'
      obtain ⟨l, hl, rfl⟩ := List.mem_map.1 he
      obtain ⟨l', hl', heq⟩ := List.mem_map.1 he'
      have hid : l'.lobbyId = l.lobbyId := congrArg Prod.fst heq
      rw [lobbyId_of_createdLinks hl, lobbyId_of_createdLinks hl'] at hid
      exact (place_eq_of_nodup hlobbies hi hj hi' hj' hid.symm).1
  · intro r hr r' hr' heq
    obtain ⟨l, hl, hid⟩ := hs.fkMemberLobby r hr r.lobbyId rfl
    rw [lobbyRooms_created] at hr'
    obtain ⟨i, app, hi, hr'⟩ := mem_blocks.1 hr'
    obtain ⟨j, lobby, hj, hr'⟩ := mem_blocks.1 hr'
    have hnew : r.lobbyId = draws.lobby i j :=
      (congrArg Prod.fst heq).trans (lobbyId_of_createdLinks hr')
    refine ne_of_ids hfresh.lobby hl ?_ (hid.trans hnew)
    exact mem_blocks.2 ⟨i, app, hi, mem_mapIdx_iff.2 ⟨j, lobby, hj, rfl⟩⟩

theorem unique_appGrants (hdoc : Distinct doc)
    (hgrants : ∀ actor ∈ doc.actors.getD [], ((actor.appAccess.getD []).map (·.appSlug)).Nodup) :
    UniqueOn (fun g : ActorAppAccess => (g.actorTokenId, g.appId))
      (s.append (created host draws now doc)).actorAppAccess := by
  have hactors := (List.nodup_append'.1 hfresh.actor).2.1
  have happs := (List.nodup_append'.1 hfresh.app).2.1
  have hrow : ∀ {i j : Nat} {grant : ActorAppGrantDoc} {g : ActorAppAccess},
      g ∈ (createdAppGrant host draws doc i j grant).actorAppAccess →
        g.actorTokenId = draws.actor i ∧
          (appIdBySlug draws (doc.apps.getD [])).get? grant.appSlug = some g.appId := by
    intro i j grant g hg
    simp only [createdAppGrant, List.mem_map, Option.mem_toList] at hg
    obtain ⟨appId, hid, rfl⟩ := hg
    exact ⟨rfl, hid⟩
  rw [actorAppAccess_append]
  refine hs.appGrant.append_of_ne ?_ ?_
  · rw [actorAppAccess_created]
    unfold UniqueOn
    rw [map_blocks]
    simp only [map_blocks]
    refine nodup_blocks (fun i actor hi => nodup_blocks (fun j grant _ => ?_) ?_) ?_
    · simp only [createdAppGrant]
      cases (appIdBySlug draws (doc.apps.getD [])).get? grant.appSlug <;> simp
    · intro j grant j' grant' e hj hj' he he'
      obtain ⟨g, hg, rfl⟩ := List.mem_map.1 he
      obtain ⟨g', hg', heq⟩ := List.mem_map.1 he'
      -- one app has one slug
      obtain ⟨k, app, hk, hslug, hid⟩ := (appId_iff hdoc).1 (hrow hg).2
      obtain ⟨k', app', hk', hslug', hid'⟩ := (appId_iff hdoc).1 (hrow hg').2
      have happId : g'.appId = g.appId := congrArg Prod.snd heq
      have hkk := index_eq_of_nodup_mapIdx happs hk hk' (hid.trans (happId.symm.trans hid'.symm))
      subst hkk
      rw [hk] at hk'
      cases hk'
      exact index_eq_of_nodup_map (hgrants actor (List.mem_of_getElem? hi)) hj hj'
        (hslug.symm.trans hslug')
    · intro i actor i' actor' e hi hi' he he'
      obtain ⟨j, grant, hj, he⟩ := mem_blocks.1 he
      obtain ⟨j', grant', hj', he'⟩ := mem_blocks.1 he'
      obtain ⟨g, hg, rfl⟩ := List.mem_map.1 he
      obtain ⟨g', hg', heq⟩ := List.mem_map.1 he'
      have hid : g'.actorTokenId = g.actorTokenId := congrArg Prod.fst heq
      rw [(hrow hg).1, (hrow hg').1] at hid
      exact index_eq_of_nodup_mapIdx hactors hi hi' hid.symm
  · intro g hg g' hg' heq
    obtain ⟨a, ha, hid⟩ := hs.fkAppGrantActor g hg g.actorTokenId rfl
    rw [actorAppAccess_created] at hg'
    obtain ⟨i, actor, hi, hg'⟩ := mem_blocks.1 hg'
    obtain ⟨j, grant, -, hg'⟩ := mem_blocks.1 hg'
    have hnew : g.actorTokenId = draws.actor i := (congrArg Prod.fst heq).trans (hrow hg').1
    exact ne_of_ids hfresh.actor ha (mem_mapIdx_iff.2 ⟨i, actor, hi, rfl⟩) (hid.trans hnew)

end

/-! ## References that resolve -/

section

variable (hdoc : Distinct doc) (hclosed : Closed doc)

include hdoc hclosed

variable (draws) in
theorem appId_of_closed {actor : ActorDoc} (ha : actor ∈ doc.actors.getD [])
    {grant : ActorAppGrantDoc} (hg : grant ∈ actor.appAccess.getD []) :
    ∃ (k : Nat) (app : AppDoc), (doc.apps.getD [])[k]? = some app ∧ app.slug = grant.appSlug ∧
      (appIdBySlug draws (doc.apps.getD [])).get? grant.appSlug = some (draws.app k) := by
  obtain ⟨app, happ, hslug⟩ := hclosed.app actor ha grant hg
  obtain ⟨k, hk⟩ := List.mem_iff_getElem?.1 happ
  exact ⟨k, app, hk, hslug, (appId_iff hdoc).2 ⟨k, app, hk, hslug, rfl⟩⟩

variable (hdto : doc.slugsValid = true)

include hdto

variable (draws) in
theorem roomId_of_closed {actor : ActorDoc} (ha : actor ∈ doc.actors.getD [])
    {grant : ActorRoomGrantDoc} (hg : grant ∈ actor.roomAccess.getD []) :
    ∃ k app l room, RoomPlace (doc.apps.getD []) k l app room ∧ app.slug = grant.appSlug ∧
      room.slug = grant.roomSlug ∧ (roomIdByAppAndSlug draws (doc.apps.getD [])).get?
        (roomKey grant.appSlug grant.roomSlug) = some (draws.room k l) := by
  obtain ⟨app, happ, hslug, room, hroom, hroomSlug⟩ := hclosed.room actor ha grant hg
  obtain ⟨k, hk⟩ := List.mem_iff_getElem?.1 happ
  obtain ⟨l, hl⟩ := List.mem_iff_getElem?.1 hroom
  exact ⟨k, app, l, room, ⟨hk, hl⟩, hslug, hroomSlug,
    (roomId_iff_all hdto hdoc).2 ⟨k, app, l, room, ⟨hk, hl⟩, hslug, hroomSlug, rfl⟩⟩

omit hclosed in
/-- A lobby finds the rooms of its own app, even while later apps are still to come. -/
theorem linkId_of_place {i k : Nat} {app : AppDoc} {room : RoomDoc}
    (h : RoomPlace (doc.apps.getD []) i k app room) :
    (roomIdByAppAndSlug draws ((doc.apps.getD []).take (i + 1))).get? (roomKey app.slug room.slug) =
      some (draws.room i k) :=
  (roomId_iff hdto hdoc).2 ⟨i, app, k, room, by omega, h, rfl, rfl, rfl⟩

omit hdoc hclosed hdto in
theorem rooms_ids : (created host draws now doc).rooms.map (·.roomId) =
    blocks (fun i app => (app.rooms.getD []).mapIdx fun j _ => draws.room i j)
      (doc.apps.getD []) := by
  rw [rooms_created, map_blocks]
  simp only [map_mapIdx, roomRow]

omit hdoc hclosed hdto in
theorem lobbies_ids : (created host draws now doc).lobbies.map (·.lobbyId) =
    blocks (fun i app => (app.lobbies.getD []).mapIdx fun j _ => draws.lobby i j)
      (doc.apps.getD []) := by
  rw [lobbies_created, map_blocks]
  simp only [map_mapIdx, lobbyRow]

theorem roomGrants_ids : (created host draws now doc).roomActorAccess.map (·.roomActorAccessId) =
    blocks (fun i app => blocks (fun j room =>
        (room.typeGrants.getD []).mapIdx fun k _ => draws.typeGrant i j k) (app.rooms.getD []))
      (doc.apps.getD []) ++
    blocks (fun i actor => (actor.roomAccess.getD []).mapIdx fun j _ => draws.roomGrant i j)
      (doc.actors.getD []) := by
  rw [roomActorAccess_created, List.map_append, map_blocks, map_blocks]
  simp only [map_blocks, map_mapIdx, typeGrantRow]
  congr 1
  refine blocks_congr fun i actor hi => ?_
  rw [← blocks_singleton]
  refine blocks_congr fun j grant hj => ?_
  obtain ⟨k, app, l, room, -, -, -, hid⟩ := roomId_of_closed draws hdoc hclosed hdto
    (List.mem_of_getElem? hi) (List.mem_of_getElem? hj)
  simp [createdRoomGrant, hid, roomGrantRow]

omit hdto in
theorem appGrants_ids : (created host draws now doc).actorAppAccess.map (·.actorAppAccessId) =
    blocks (fun i actor => (actor.appAccess.getD []).mapIdx fun j _ => draws.appGrant i j)
      (doc.actors.getD []) := by
  rw [actorAppAccess_created, map_blocks]
  simp only [map_blocks]
  refine blocks_congr fun i actor hi => ?_
  rw [← blocks_singleton]
  refine blocks_congr fun j grant hj => ?_
  obtain ⟨k, app, -, -, hid⟩ := appId_of_closed draws hdoc hclosed
    (List.mem_of_getElem? hi) (List.mem_of_getElem? hj)
  simp [createdAppGrant, hid, appGrantRow]

variable (now) in
/-- The unique keys of the database an import ends with. -/
theorem keys_created (hs : s.SchemaValid) (hfresh : FreshDraws host draws doc s)
    (hgrants : ∀ actor ∈ doc.actors.getD [], ((actor.appAccess.getD []).map (·.appSlug)).Nodup) :
    (s.append (created host draws now doc)).Keys where
  pkProject := by
    rw [projects_append, projects_created]
    refine hs.pkProject.append_of_ne (List.nodup_singleton _) fun p hp p' hp' => ?_
    rw [List.mem_singleton.1 hp']
    exact old_project_ne hfresh ⟨p, hp, rfl⟩
  pkScope := by
    rw [accessScopes_append, accessScopes_created]
    exact (unique_iff_ids (map_mapIdx _ _ _)).2 hfresh.scope
  pkApp := by
    rw [apps_append, apps_created]
    exact (unique_iff_ids (map_mapIdx _ _ _)).2 hfresh.app
  pkRoom := by
    rw [rooms_append]
    exact (unique_iff_ids rooms_ids).2 hfresh.room
  pkRoomGrant := by
    rw [roomActorAccess_append]
    exact (unique_iff_ids (roomGrants_ids hdoc hclosed hdto)).2 hfresh.roomGrant
  pkLobby := by
    rw [lobbies_append]
    exact (unique_iff_ids lobbies_ids).2 hfresh.lobby
  pkLobbyRoom := unique_links hfresh hs
  pkActor := by
    rw [actorTokens_append, actorTokens_created]
    exact (unique_iff_ids (map_mapIdx _ _ _)).2 hfresh.actor
  pkState := by
    have hnone : (s.append (created host draws now doc)).actorTokenStates = s.actorTokenStates := by
      rw [actorTokenStates_append, actorTokenStates_created, List.append_nil]
    rw [hnone]
    exact hs.pkState
  pkAppGrant := by
    rw [actorAppAccess_append]
    exact (unique_iff_ids (appGrants_ids hdoc hclosed)).2 hfresh.appGrant
  pkSigningKey := by
    rw [signingKeys_append, signingKeys_created]
    exact (unique_iff_ids (map_mapIdx _ _ _)).2 hfresh.signingKey
  actorKeyId := by
    rw [actorTokens_append, actorTokens_created]
    exact (unique_iff_ids (map_mapIdx _ _ _)).2 hfresh.actorKeyId
  signingKeyId := by
    rw [signingKeys_append, signingKeys_created]
    exact (unique_iff_ids (map_mapIdx _ _ _)).2 hfresh.signingKeyId
  scopeSlug := unique_scopeSlugs hfresh hs hdoc
  appSlug := unique_appSlugs hfresh hs hdoc
  roomSlug := unique_roomSlugs hfresh hs hdoc
  lobbySlug := unique_lobbySlugs hfresh hs hdoc
  appGrant := unique_appGrants hfresh hs hdoc hgrants

end

end ProjectConfig
end NolagCore
