import NolagCore.ProjectConfig.ImportExport
import NolagCore.ProjectConfig.Secrecy

/-!
# ProjectConfig.Restorable

An export can be imported. Beside the constraints of the schema it takes three things of the stored
rows: slugs a document may hold, expiries that are dates, and memberships that join a lobby to a room
of its own app.
-/

namespace NolagCore
namespace ProjectConfig

open Lib Store

/-- What the live rows must keep for their export to be a document. -/
structure Exportable (s : Store) : Prop where
  scopeSlug : ∀ r ∈ s.accessScopes, live r = true → isDocSlug r.slug = true
  appSlug : ∀ r ∈ s.apps, live r = true → isDocSlug r.slug = true
  roomSlug : ∀ r ∈ s.rooms, live r = true → isDocSlug r.slug = true
  lobbySlug : ∀ r ∈ s.lobbies, live r = true → isDocSlug r.slug = true
  lobbyRoom : ∀ lr ∈ s.lobbyRooms, live lr = true → ∀ l ∈ s.lobbies, lr.lobbyId = l.lobbyId →
    ∀ room ∈ s.rooms, lr.roomId = room.roomId → l.appId = room.appId
  actorDate : ∀ a ∈ s.actorTokens, live a = true → Writable a.expiresAt
  appGrantDate : ∀ g ∈ s.actorAppAccess, live g = true → Writable g.expiresAt
  roomGrantDate : ∀ g ∈ s.roomActorAccess, live g = true → Writable g.expiresAt

def lobbiesOf (collate : String → String → Bool) (s : Store) (app : PlatformApp) : List Lobby :=
  orderBy collate (·.slug) (findAll s.lobbies fun l => decide (l.appId = app.appId))

/-- The whole of an exported document but for its project. -/
structure Written (collate : String → String → Bool) (s : Store) (projectId : Uuid)
    (doc : ProjectConfigDoc) : Prop where
  version : doc.version = docVersion
  scopes : doc.accessScopes = some ((scopesOf collate s projectId).map exportScope)
  apps : doc.apps = some (exportApps collate s (appsOf collate s projectId))
  actors : ∃ actors, doc.actors = some actors ∧
    mapOk (exportActorOf collate s projectId) (actorsOf collate s projectId) = .ok actors
  signingKeys : doc.signingKeys = some (keyDocs collate s projectId)

/-! ## Lists -/

theorem nodup_orderBy {α : Type} {collate : String → String → Bool} {key : α → String}
    {rows : List α} (h : (rows.map key).Nodup) : ((orderBy collate key rows).map key).Nodup :=
  ((sortOn_perm collate key rows).map key).nodup_iff.2 h

section

variable {α κ : Type} [SoftDelete α]

/-- Rows under one parent are told apart by the slug alone. -/
theorem nodup_slugs {parent : α → κ} {slug : α → String} {rows : List α} {p : α → Bool} {c : κ}
    (h : UniqueOn (fun r => (parent r, slug r)) (rows.filter live))
    (hp : ∀ r, p r = true → parent r = c) : ((findAll rows p).map slug).Nodup := by
  have hfound : ∀ r ∈ findAll rows p, r ∈ rows.filter live ∧ parent r = c := by
    intro r hr
    obtain ⟨hrow, hl, hpr⟩ := mem_findAll.1 hr
    exact ⟨List.mem_filter.2 ⟨hrow, hl⟩, hp r hpr⟩
  have hnodup : (findAll rows p).Nodup := by
    have hsame : findAll rows p = (rows.filter live).filter p := by
      unfold findAll
      rw [List.filter_filter]
      exact List.filter_congr fun r _ => Bool.and_comm _ _
    rw [hsame]
    exact (List.Nodup.of_map _ h).filter _
  refine hnodup.map_on fun r hr r' hr' heq => ?_
  obtain ⟨hrow, hc⟩ := hfound r hr
  obtain ⟨hrow', hc'⟩ := hfound r' hr'
  exact h.eq_of_key hrow hrow' (Prod.ext (hc.trans hc'.symm) heq)

theorem nodup_keys {key : α → String} {rows : List α} {p : α → Bool} (h : UniqueOn key rows) :
    ((findAll rows p).map key).Nodup := by
  unfold findAll
  exact h.filter _

end

/-- What a loop keeps has distinct keys when no two elements it keeps have one. -/
theorem nodup_kept {ε α β κ : Type} {f : α → Except ε (Option β)} {key : β → κ} {l : List α} :
    ∀ {os : List (Option β)}, mapOk f l = .ok os → l.Nodup →
      (∀ a ∈ l, ∀ a' ∈ l, ∀ b b', f a = .ok (some b) → f a' = .ok (some b') → key b = key b' →
        a = a') → ((os.filterMap id).map key).Nodup := by
  induction l with
  | nil =>
    intro os h _ _
    cases h
    exact List.nodup_nil
  | cons a l ih =>
    intro os h hnodup hinj
    obtain ⟨o, ho, h⟩ := bind_ok.1 h
    obtain ⟨os, hos, h⟩ := bind_ok.1 h
    cases h
    obtain ⟨hnot, hnodup⟩ := List.nodup_cons.1 hnodup
    have hrest := ih hos hnodup fun a₁ h₁ a₂ h₂ =>
      hinj a₁ (List.mem_cons_of_mem _ h₁) a₂ (List.mem_cons_of_mem _ h₂)
    cases o with
    | none => exact hrest
    | some b =>
      refine List.nodup_cons.2 ⟨fun hmem => ?_, hrest⟩
      obtain ⟨b', hb', hkey⟩ := List.mem_map.1 hmem
      obtain ⟨o', ho', hid⟩ := List.mem_filterMap.1 hb'
      obtain ⟨a', ha', hf⟩ := (mem_mapOk hos).1 (show some b' ∈ os from hid ▸ ho')
      have heq := hinj a List.mem_cons_self a' (List.mem_cons_of_mem _ ha') b b' ho hf hkey.symm
      exact hnot (heq ▸ ha')

theorem isoColumn_some {t : Option Int} {date : String} (h : isoColumn t = .ok (some date)) :
    ∃ instant, toISOString instant = some date := by
  unfold isoColumn at h
  split at h
  · cases h
  · split at h
    · cases h
    · rename_i instant _ text hiso
      cases h
      exact ⟨instant, hiso⟩

section

variable {collate : String → String → Bool} {s : Store} {projectId : Uuid} {doc : ProjectConfigDoc}

/-! ## An export is written -/

theorem exportProject_written (h : exportProject collate s projectId = .ok doc) :
    Written collate s projectId doc := by
  unfold exportProject at h
  split at h
  · cases h
  · obtain ⟨actors, hactors, h⟩ := bind_ok.1 h
    cases h
    exact ⟨rfl, rfl, rfl, ⟨actors, rfl, hactors⟩, rfl⟩

theorem exportProject_isOk (hs : s.SchemaValid) (he : Exportable s)
    (hp : ∃ p ∈ s.projects, live p = true ∧ p.projectId = projectId) :
    ∃ doc, exportProject collate s projectId = .ok doc := by
  obtain ⟨p, hrow, hl, hid⟩ := hp
  have hfind : findProject s projectId = some p :=
    findOne_of_unique hrow hl (decide_eq_true hid) fun p' hp' _ hk =>
      hs.pkProject.eq_of_key hp' hrow ((of_decide_eq_true hk).trans hid.symm)
  have hdates : DatesFit s projectId := by
    rintro actor ⟨ha, hlive, _⟩
    refine ⟨he.actorDate actor ha hlive, fun g hg => ?_, fun g hg _ _ _ _ => ?_⟩
    · obtain ⟨hgrant, hg, _⟩ := mem_appGrantsOf.1 hg
      exact he.appGrantDate g hgrant hg
    · obtain ⟨hgrant, hg, _⟩ := mem_roomGrantsOf.1 hg
      exact he.roomGrantDate g hgrant hg
  obtain ⟨actors, hactors⟩ : ∃ actors, mapOk (exportActorOf collate s projectId)
      (actorsOf collate s projectId) = .ok actors := (actorDocs_isOk hs).2 hdates
  rw [exportProject_eq, hfind]
  exact ⟨_, bind_ok.2 ⟨actors, hactors, rfl⟩⟩

/-! ## What an export lists -/

section

variable (hw : Written collate s projectId doc)

include hw

theorem Written.app {app : AppDoc} (happ : app ∈ doc.apps.getD []) :
    ∃ (seen : List PlatformApp) (row : PlatformApp), (∀ a ∈ seen, AppOf s projectId a) ∧
      AppOf s projectId row ∧ app = exportApp collate s seen row := by
  rw [hw.apps] at happ
  obtain ⟨i, row, hi, rfl⟩ := mem_mapIdx_iff.1 happ
  exact ⟨_, row, fun a ha => mem_appsOf.1 (List.mem_of_mem_take ha),
    mem_appsOf.1 (List.mem_of_getElem? hi), rfl⟩

theorem Written.app_of {row : PlatformApp} (hrow : AppOf s projectId row) :
    ∃ seen, exportApp collate s seen row ∈ doc.apps.getD [] := by
  have hlisted : row ∈ appsOf collate s projectId := mem_appsOf.2 hrow
  obtain ⟨i, hi⟩ := List.mem_iff_getElem?.1 hlisted
  rw [hw.apps]
  exact ⟨_, mem_mapIdx_iff.2 ⟨i, row, hi, rfl⟩⟩

theorem Written.actor (hs : s.SchemaValid) {actor : ActorDoc} (ha : actor ∈ doc.actors.getD []) :
    ∃ row, ActorOf s projectId row ∧ exportActorOf collate s projectId row = .ok actor ∧
      ActorExported s projectId row actor := by
  obtain ⟨actors, hactors, hrun⟩ := hw.actors
  rw [hactors] at ha
  obtain ⟨row, hrow, hok⟩ := (mem_mapOk hrun).1 ha
  exact ⟨row, mem_actorsOf.1 hrow, hok, exportActor_ok hs hok⟩

theorem Written.refs : (doc.actors.getD []).map (·.ref) =
    (actorsOf collate s projectId).map (·.keyId) := by
  obtain ⟨actors, hactors, hrun⟩ := hw.actors
  rw [hactors]
  refine List.ext_getElem? fun i => ?_
  rw [Option.getD_some, List.getElem?_map, List.getElem?_map]
  cases hi : (actorsOf collate s projectId)[i]? with
  | none =>
    cases hd : actors[i]? with
    | none => rfl
    | some d =>
      obtain ⟨a, ha, -⟩ := (mapOk_getElem? hrun).1 hd
      rw [hi] at ha
      cases ha
  | some a =>
    obtain ⟨d, hd⟩ := mapOk_ok hrun (List.mem_of_getElem? hi)
    rw [(mapOk_getElem? hrun).2 ⟨a, hi, hd⟩]
    obtain ⟨_, -, hd⟩ := bind_ok.1 hd
    obtain ⟨_, -, hd⟩ := bind_ok.1 hd
    obtain ⟨_, -, hd⟩ := bind_ok.1 hd
    cases hd
    rfl

theorem distinct_exported (hs : s.SchemaValid) : Distinct doc where
  scopes := by
    rw [hw.scopes, Option.getD_some, List.map_map]
    exact nodup_orderBy (nodup_slugs hs.scopeSlug fun r hr => of_decide_eq_true hr)
  apps := by
    have hslugs : (doc.apps.getD []).map (·.slug) = (appsOf collate s projectId).map (·.slug) := by
      rw [hw.apps, Option.getD_some, exportApps, map_mapIdx]
      exact mapIdx_const PlatformApp.slug _
    rw [hslugs]
    exact nodup_orderBy (nodup_slugs hs.appSlug fun r hr => of_decide_eq_true hr)
  actors := by
    rw [hw.refs]
    exact nodup_orderBy (nodup_keys hs.actorKeyId)
  signingKeys := by
    rw [hw.signingKeys, Option.getD_some, keyDocs, List.map_map]
    exact nodup_orderBy (nodup_keys hs.signingKeyId)
  rooms := by
    intro app happ
    obtain ⟨seen, row, -, -, rfl⟩ := hw.app happ
    simp only [exportApp, Option.getD_some, List.map_map]
    exact nodup_orderBy (nodup_slugs hs.roomSlug fun r hr => of_decide_eq_true hr)
  lobbies := by
    intro app happ
    obtain ⟨seen, row, -, -, rfl⟩ := hw.app happ
    simp only [exportApp, Option.getD_some, List.map_map]
    exact nodup_orderBy (nodup_slugs hs.lobbySlug fun r hr => of_decide_eq_true hr)

omit hw in
/-- Only the rooms listed under the same app are named by a lobby. -/
theorem lobbyRoom_exported (hs : s.SchemaValid) (he : Exportable s) {seen : List PlatformApp}
    (hseen : ∀ a ∈ seen, AppOf s projectId a) {row : PlatformApp} {lobby : LobbyDoc}
    (hlobby : lobby ∈ (exportApp collate s seen row).lobbies.getD []) {roomSlug : String}
    (hslug : roomSlug ∈ lobby.rooms) :
    ∃ room ∈ (exportApp collate s seen row).rooms.getD [], room.slug = roomSlug := by
  obtain ⟨l, hl, rfl⟩ := List.mem_map.1 hlobby
  obtain ⟨hlrow, -, hlapp⟩ := mem_findAll.1 (mem_orderBy.1 hl)
  have hmem := (List.mem_filter.1 ((sortOn_perm _ _ _).mem_iff.1 hslug)).1
  obtain ⟨link, hlink, hget⟩ := List.mem_filterMap.1 hmem
  obtain ⟨hlinkRow, hlinkLive, hlinkLobby⟩ := mem_findAll.1 hlink
  obtain ⟨ref, href, rfl⟩ := Option.map_eq_some_iff.1 hget
  obtain ⟨app, room, -, hroom, hid, rfl⟩ := (roomRefById_seen_iff hs hseen).1 href
  obtain ⟨hrow, hrl, -⟩ := mem_roomsOf.1 hroom
  have happ := he.lobbyRoom link hlinkRow hlinkLive l hlrow (of_decide_eq_true hlinkLobby) room hrow
    hid.symm
  refine ⟨exportRoom s room, List.mem_map_of_mem (mem_roomsOf.2 ⟨hrow, hrl, ?_⟩), rfl⟩
  exact happ.symm.trans (of_decide_eq_true hlapp)

theorem closed_exported (hs : s.SchemaValid) (he : Exportable s) : Closed doc where
  lobbyRoom := by
    intro app happ lobby hlobby roomSlug hslug
    obtain ⟨seen, row, hseen, -, rfl⟩ := hw.app happ
    exact lobbyRoom_exported hs he hseen hlobby hslug
  scope := by
    intro actor ha slug hslug _
    obtain ⟨row, -, -, hx⟩ := hw.actor hs ha
    obtain ⟨scope, hscope, -, rfl⟩ := (hx.scopeSlug slug).1 hslug
    rw [hw.scopes]
    exact ⟨_, List.mem_map_of_mem (mem_scopesOf.2 hscope), rfl⟩
  app := by
    intro actor ha grant hg
    obtain ⟨row, -, -, hx⟩ := hw.actor hs ha
    obtain ⟨g, app, text, -, happ, -, -, -, rfl⟩ := (hx.appAccess grant).1 hg
    obtain ⟨seen, hmem⟩ := hw.app_of happ
    exact ⟨_, hmem, rfl⟩
  room := by
    intro actor ha grant hg
    obtain ⟨row, -, -, hx⟩ := hw.actor hs ha
    obtain ⟨g, app, room, text, -, hroom, -, -, rfl⟩ := (hx.roomAccess grant).1 hg
    obtain ⟨seen, hmem⟩ := hw.app_of hroom.1
    exact ⟨_, hmem, rfl, exportRoom s room, List.mem_map_of_mem (mem_roomsOf.2 hroom.2), rfl⟩

/-- An actor has one grant for each app. -/
theorem appGrants_exported (hs : s.SchemaValid) {actor : ActorDoc}
    (ha : actor ∈ doc.actors.getD []) : ((actor.appAccess.getD []).map (·.appSlug)).Nodup := by
  obtain ⟨row, -, hok, -⟩ := hw.actor hs ha
  obtain ⟨_, -, hok⟩ := bind_ok.1 hok
  obtain ⟨os, hos, hok⟩ := bind_ok.1 hok
  obtain ⟨_, -, hok⟩ := bind_ok.1 hok
  cases hok
  refine nodup_kept hos ?_ ?_
  · exact (List.Nodup.of_map _ hs.pkAppGrant).filter _
  · intro g hg g' hg' b b' hb hb' hslug
    obtain ⟨app, _, happ, hid, -, -, rfl⟩ := (exportAppGrant_iff hs).1 hb
    obtain ⟨app', _, happ', hid', -, -, rfl⟩ := (exportAppGrant_iff hs).1 hb'
    obtain ⟨hrow, -, hactor⟩ := mem_appGrantsOf.1 hg
    obtain ⟨hrow', -, hactor'⟩ := mem_appGrantsOf.1 hg'
    have happs := happ.eq_of_slug hs happ' hslug
    refine hs.appGrant.eq_of_key hrow hrow' (Prod.ext (hactor.trans hactor'.symm) ?_)
    exact hid.symm.trans ((congrArg PlatformApp.appId happs).trans hid')

theorem wellFormed_exported (hs : s.SchemaValid) (he : Exportable s) {lib : CipherLibrary}
    {config : CoreConfig} (hkey : doc.signingKeys.getD [] ≠ [] → HasKey lib config) :
    WellFormed lib config doc where
  version := hw.version
  distinct := distinct_exported hw hs
  closed := closed_exported hw hs he
  appGrants := fun _ ha => appGrants_exported hw hs ha
  encryption := hkey

theorem slugsValid_exported (he : Exportable s) : doc.slugsValid = true := by
  simp only [ProjectConfigDoc.slugsValid, Bool.and_eq_true, List.all_eq_true]
  constructor
  · intro scope hscope
    rw [hw.scopes] at hscope
    obtain ⟨r, hr, rfl⟩ := List.mem_map.1 hscope
    obtain ⟨hrow, hl, -⟩ := mem_scopesOf.1 hr
    exact he.scopeSlug r hrow hl
  · intro app happ
    obtain ⟨seen, row, -, ⟨hrow, hl, -⟩, rfl⟩ := hw.app happ
    refine ⟨⟨he.appSlug row hrow hl, fun room hroom => ?_⟩, fun lobby hlobby => ?_⟩
    · obtain ⟨r, hr, rfl⟩ := List.mem_map.1 hroom
      obtain ⟨hroomRow, hroomLive, -⟩ := mem_roomsOf.1 hr
      exact he.roomSlug r hroomRow hroomLive
    · obtain ⟨l, hlob, rfl⟩ := List.mem_map.1 hlobby
      obtain ⟨hlobbyRow, hlobbyLive, -⟩ := mem_findAll.1 (mem_orderBy.1 hlob)
      exact he.lobbySlug l hlobbyRow hlobbyLive

/-- Every date of an export is one `toISOString` has written. -/
theorem dates_exported (hs : s.SchemaValid) {text : Option String} (ht : text ∈ doc.dateTexts) :
    ∃ t, isoColumn t = .ok text := by
  obtain ⟨actor, ha, ht⟩ := List.mem_flatMap.1 ht
  obtain ⟨row, -, hok, hx⟩ := hw.actor hs ha
  rcases List.mem_cons.1 ht with rfl | ht
  · obtain ⟨_, hdate, hok⟩ := bind_ok.1 hok
    obtain ⟨_, -, hok⟩ := bind_ok.1 hok
    obtain ⟨_, -, hok⟩ := bind_ok.1 hok
    cases hok
    exact ⟨_, hdate⟩
  rcases List.mem_append.1 ht with ht | ht
  · obtain ⟨grant, hg, rfl⟩ := List.mem_map.1 ht
    obtain ⟨g, app, text, -, -, -, -, hdate, rfl⟩ := (hx.appAccess grant).1 hg
    exact ⟨_, hdate⟩
  · obtain ⟨grant, hg, rfl⟩ := List.mem_map.1 ht
    obtain ⟨g, app, room, text, -, -, -, hdate, rfl⟩ := (hx.roomAccess grant).1 hg
    exact ⟨_, hdate⟩

theorem fitsColumns_exported (hs : s.SchemaValid) (legacy : String → Option Int) :
    FitsColumns legacy doc := by
  intro text ht
  obtain ⟨t, hdate⟩ := dates_exported hw hs ht
  exact ⟨t, dateColumn_isoColumn legacy hdate⟩

theorem parsable_exported (hs : s.SchemaValid) (legacy : String → Option Int) :
    Parsable legacy doc := by
  rintro text ht date rfl
  obtain ⟨t, hdate⟩ := dates_exported hw hs ht
  obtain ⟨instant, hiso⟩ := isoColumn_some hdate
  exact ⟨instant, newDate_toISOString legacy hiso⟩

end

end

/-! ## Handles -/

def ActorDoc.reissued (minted : List MintedCredential) (actor : ActorDoc) : ActorDoc :=
  { actor with ref := mintedKeyId minted actor.ref }

/-- The document with the handles of its actors and signing keys replaced by the key ids minted for
them. -/
def ProjectConfigDoc.reissued (credentials : ImportedCredentials) (doc : ProjectConfigDoc) :
    ProjectConfigDoc :=
  { doc with
    actors := some ((doc.actors.getD []).map (ActorDoc.reissued credentials.actors))
    signingKeys := some ((doc.signingKeys.getD []).map
      (SigningKeyDoc.normalise credentials.signingKeys)) }

/-! ## The normal form of an export -/

theorem orderBy_of_keys {α : Type} {collate : String → String → Bool} {key : α → String}
    {l : List α} (h : (l.map key).Pairwise fun a b => collate a b = true) :
    orderBy collate key l = l :=
  List.Pairwise.insertionSort_eq (List.pairwise_map.1 h)

theorem pairwise_orderBy {α : Type} {collate : String → String → Bool} (h : TotalOrder collate)
    (key : α → String) (rows : List α) :
    ((orderBy collate key rows).map key).Pairwise fun a b => collate a b = true :=
  List.pairwise_map.2 (pairwise_sortOn h key rows)

theorem instantText_iso (legacy : String → Option Int) {t : Option Int} {text : Option String}
    (h : isoColumn t = .ok text) : instantText legacy text = text := by
  cases text with
  | none => rfl
  | some date =>
    obtain ⟨instant, hiso⟩ := isoColumn_some h
    simp only [instantText, Option.bind_some, newDate_toISOString legacy hiso, hiso]

theorem normalise_exportRoom {s : Store} (room : Room) :
    (exportRoom s room).normalise = exportRoom s room := by
  have hgrants : ∀ l : List RoomActorAccess,
      (l.map exportTypeGrant).map RoomTypeGrantDoc.normalise = l.map exportTypeGrant := by
    intro l
    rw [List.map_map]
    exact List.map_congr_left fun g _ => rfl
  simp only [RoomDoc.normalise, exportRoom, Option.getD_some, hgrants]

section

variable {collate : String → String → Bool} {s : Store} {projectId : Uuid} {doc : ProjectConfigDoc}
  (hs : s.SchemaValid) (he : Exportable s)

include hs he

variable (collate) in
/-- No two memberships of a lobby name one slug. -/
theorem nodup_lobbyRooms {seen : List PlatformApp} (hseen : ∀ a ∈ seen, AppOf s projectId a)
    {lobby : Lobby} (hl : lobby ∈ s.lobbies) :
    (((findAll s.lobbyRooms fun l => decide (l.lobbyId = lobby.lobbyId)).filterMap fun l =>
      ((roomRefById collate s seen).get? l.roomId).map Prod.snd).filter
        fun slug => truthy (some slug)).Nodup := by
  have hlinks : (findAll s.lobbyRooms fun l => decide (l.lobbyId = lobby.lobbyId)).Nodup :=
    (List.Nodup.of_map _ hs.pkLobbyRoom).filter _
  -- the room a membership leads to is a live one of the lobby's app
  have hroom : ∀ link ∈ findAll s.lobbyRooms fun l => decide (l.lobbyId = lobby.lobbyId), ∀ slug,
      ((roomRefById collate s seen).get? link.roomId).map Prod.snd = some slug →
      ∃ room ∈ s.rooms.filter live, room.roomId = link.roomId ∧ room.appId = lobby.appId ∧
        room.slug = slug := by
    intro link hlink slug hget
    obtain ⟨hrow, hlive, hid⟩ := mem_findAll.1 hlink
    obtain ⟨ref, href, rfl⟩ := Option.map_eq_some_iff.1 hget
    obtain ⟨app, room, -, hmem, hroomId, rfl⟩ := (roomRefById_seen_iff hs hseen).1 href
    obtain ⟨hroomRow, hroomLive, -⟩ := mem_roomsOf.1 hmem
    have happ := he.lobbyRoom link hrow hlive lobby hl (of_decide_eq_true hid) room hroomRow
      hroomId.symm
    exact ⟨room, List.mem_filter.2 ⟨hroomRow, hroomLive⟩, hroomId, happ.symm, rfl⟩
  refine List.Nodup.filter _ (List.pairwise_filterMap.2 (List.Pairwise.imp_of_mem ?_ hlinks))
  intro link link' hmem hmem' hne slug hslug slug' hslug' heq
  obtain ⟨room, hr, hid, happ, hs₁⟩ := hroom link hmem slug hslug
  obtain ⟨room', hr', hid', happ', hs₂⟩ := hroom link' hmem' slug' hslug'
  have hrooms := hs.roomSlug.eq_of_key hr hr'
    (Prod.ext (happ.trans happ'.symm) (hs₁.trans (heq.trans hs₂.symm)))
  obtain ⟨hrow, -, hlobby⟩ := mem_findAll.1 hmem
  obtain ⟨hrow', -, hlobby'⟩ := mem_findAll.1 hmem'
  refine hne (hs.pkLobbyRoom.eq_of_key hrow hrow' (Prod.ext ?_ ?_))
  · exact (of_decide_eq_true hlobby).trans (of_decide_eq_true hlobby').symm
  · exact hid.symm.trans ((congrArg Room.roomId hrooms).trans hid')

theorem normalise_exportLobby {seen : List PlatformApp} (hseen : ∀ a ∈ seen, AppOf s projectId a)
    {lobby : Lobby} (hl : lobby ∈ s.lobbies) :
    (exportLobby s (roomRefById collate s seen) lobby).normalise =
      exportLobby s (roomRefById collate s seen) lobby := by
  have hnodup := nodup_lobbyRooms collate hs he hseen hl
  have hsorted := pairwise_orderBy collateC_order id
    (((findAll s.lobbyRooms fun l => decide (l.lobbyId = lobby.lobbyId)).filterMap fun l =>
      ((roomRefById collate s seen).get? l.roomId).map Prod.snd).filter
        fun slug => truthy (some slug))
  have hrooms : orderBy collateC id
      (exportLobby s (roomRefById collate s seen) lobby).rooms.dedup =
        (exportLobby s (roomRefById collate s seen) lobby).rooms := by
    have hdedup : (exportLobby s (roomRefById collate s seen) lobby).rooms.Nodup :=
      (List.perm_insertionSort _ _).nodup_iff.2 hnodup
    rw [hdedup.dedup]
    exact orderBy_of_keys hsorted
  unfold LobbyDoc.normalise
  rw [hrooms]

theorem normalise_exportApp (hcollate : TotalOrder collate) {seen : List PlatformApp}
    (hseen : ∀ a ∈ seen, AppOf s projectId a) (row : PlatformApp) :
    (exportApp collate s seen row).normalise collate = exportApp collate s seen row := by
  have hrooms : (orderBy collate (·.slug) ((roomsOf collate s row).map (exportRoom s))).map
      RoomDoc.normalise = (roomsOf collate s row).map (exportRoom s) := by
    rw [orderBy_of_keys, List.map_map]
    · exact List.map_congr_left fun room _ => normalise_exportRoom room
    · rw [List.map_map]
      exact pairwise_orderBy hcollate Room.slug _
  have hlobbies : (orderBy collate (·.slug) ((lobbiesOf collate s row).map
      (exportLobby s (roomRefById collate s seen)))).map LobbyDoc.normalise =
        (lobbiesOf collate s row).map (exportLobby s (roomRefById collate s seen)) := by
    rw [orderBy_of_keys, List.map_map]
    · refine List.map_congr_left fun lobby hl => ?_
      exact normalise_exportLobby hs he hseen (mem_findAll.1 (mem_orderBy.1 hl)).1
    · rw [List.map_map]
      exact pairwise_orderBy hcollate Lobby.slug _
  unfold AppDoc.normalise
  simp only [exportApp, Option.getD_some]
  rw [hrooms]
  exact congrArg (fun lobbies => { exportApp collate s seen row with lobbies := some lobbies })
    hlobbies

omit hs he in
theorem normalise_grants (legacy : String → Option Int) {actor : ActorToken} {actorDoc : ActorDoc}
    (hx : ActorExported s projectId actor actorDoc) :
    (actorDoc.appAccess.getD []).map (ActorAppGrantDoc.normalise legacy) =
        actorDoc.appAccess.getD [] ∧
      (actorDoc.roomAccess.getD []).map (ActorRoomGrantDoc.normalise legacy) =
        actorDoc.roomAccess.getD [] := by
  constructor
  · refine (List.map_congr_left fun grant hg => ?_).trans (List.map_id _)
    obtain ⟨g, app, text, -, -, -, -, hdate, rfl⟩ := (hx.appAccess grant).1 hg
    simp only [ActorAppGrantDoc.normalise, appGrantDoc, instantText_iso legacy hdate]
    rfl
  · refine (List.map_congr_left fun grant hg => ?_).trans (List.map_id _)
    obtain ⟨g, app, room, text, -, -, -, hdate, rfl⟩ := (hx.roomAccess grant).1 hg
    simp only [ActorRoomGrantDoc.normalise, roomGrantDoc, instantText_iso legacy hdate]
    rfl

theorem normalise_exportActor (legacy : String → Option Int) (minted : List MintedCredential)
    {actor : ActorToken} {actorDoc : ActorDoc}
    (h : exportActorOf collate s projectId actor = .ok actorDoc) :
    actorDoc.withoutEmptyScope.normalise legacy minted = actorDoc.reissued minted := by
  have hx := exportActor_ok hs h
  have hscope : actorDoc.scopeSlug.filter (fun slug => truthy (some slug)) = actorDoc.scopeSlug := by
    cases hslug : actorDoc.scopeSlug with
    | none => rfl
    | some slug =>
      obtain ⟨scope, ⟨hrow, hl, -⟩, -, rfl⟩ := (hx.scopeSlug slug).1 hslug
      rw [Option.filter_some, if_pos]
      exact truthy_some.2 (segment_of_isDocSlug (he.scopeSlug scope hrow hl)).1
  obtain ⟨happs, hrooms⟩ := normalise_grants legacy hx
  obtain ⟨text, hdate, h⟩ := bind_ok.1 h
  obtain ⟨_, -, h⟩ := bind_ok.1 h
  obtain ⟨_, -, h⟩ := bind_ok.1 h
  cases h
  simp only [Option.getD_some] at hscope happs hrooms
  simp only [ActorDoc.normalise, ActorDoc.withoutEmptyScope, ActorDoc.reissued, hscope, happs, hrooms,
    Option.getD_some, instantText_iso legacy hdate]

/-- An export is in normal form but for its handles. -/
theorem normalise_exported (hcollate : TotalOrder collate) (legacy : String → Option Int)
    (credentials : ImportedCredentials) (hw : Written collate s projectId doc) :
    doc.withoutEmptyScopes.normalise legacy collate credentials = doc.reissued credentials := by
  have hscopes : (orderBy collate (·.slug) (doc.accessScopes.getD [])).map
      AccessScopeDoc.normalise = doc.accessScopes.getD [] := by
    rw [hw.scopes, Option.getD_some, orderBy_of_keys, List.map_map]
    · exact List.map_congr_left fun scope _ => rfl
    · rw [List.map_map]
      exact pairwise_orderBy hcollate AccessScope.slug _
  have happs : (orderBy collate (·.slug) (doc.apps.getD [])).map (AppDoc.normalise collate) =
      doc.apps.getD [] := by
    rw [orderBy_of_keys]
    · refine (List.map_congr_left fun app happ => ?_).trans (List.map_id _)
      obtain ⟨seen, row, hseen, -, rfl⟩ := hw.app happ
      exact normalise_exportApp hs he hcollate hseen row
    · rw [hw.apps, Option.getD_some, exportApps, map_mapIdx]
      refine (mapIdx_const PlatformApp.slug _).symm ▸ ?_
      exact pairwise_orderBy hcollate PlatformApp.slug _
  obtain ⟨actors, hactors, hrun⟩ := hw.actors
  have hactorDocs : (actors.map ActorDoc.withoutEmptyScope).map
      (ActorDoc.normalise legacy credentials.actors) =
        actors.map (ActorDoc.reissued credentials.actors) := by
    rw [List.map_map]
    refine List.map_congr_left fun actor ha => ?_
    obtain ⟨row, -, hok⟩ := (mem_mapOk hrun).1 ha
    exact normalise_exportActor hs he legacy credentials.actors hok
  unfold ProjectConfigDoc.normalise ProjectConfigDoc.withoutEmptyScopes ProjectConfigDoc.reissued
  simp only [hscopes, happs, hactors, Option.map_some, Option.getD_some, hactorDocs]
  rw [hw.scopes, hw.apps]
  rfl

end

/-- An exported document is imported, and an export of the copy is the document with new handles. -/
theorem restored {collate : String → String → Bool} {s : Store} {projectId : Uuid}
    {doc : ProjectConfigDoc} (hs : s.SchemaValid) (he : Exportable s)
    (hw : Written collate s projectId doc) (hcollate : TotalOrder collate) {lib : CipherLibrary}
    {host : Host} {draws : Draws} (now : Int) {target : Database}
    (hcipher : host.cipher = lib.encryptSecret) (hjs : JsDates host.legacy)
    (hkey : doc.signingKeys.getD [] ≠ [] → HasKey lib host.config)
    (hfresh : FreshDraws host draws doc target.store) :
    ∃ credentials target' copy,
      ProjectConfigFacade.importProject host draws now target doc = .ok (credentials, target') ∧
      exportProject collate target'.store credentials.projectId = .ok copy ∧
      copy.Same (doc.reissued credentials) := by
  have hdto := slugsValid_exported hw he
  obtain ⟨hok, hvalid⟩ := importProject_succeeds now hcipher hdto
    (fitsColumns_exported hw hs host.legacy) target.valid hfresh (wellFormed_exported hw hs he hkey)
  have himport : ∃ target', ProjectConfigFacade.importProject host draws now target doc =
      .ok (credentials host draws doc, target') := by
    unfold ProjectConfigFacade.importProject
    rw [hok]
    simp only [commit, dif_pos hvalid]
    exact ⟨_, rfl⟩
  obtain ⟨target', himport⟩ := himport
  obtain ⟨copy, hcopy, hsame⟩ := (facade_completed himport).exportProject_same hcollate
    target.valid hdto (Reorder.refl _) hjs (parsable_exported hw hs host.legacy)
  rw [normalise_exported hs he hcollate host.legacy _ hw] at hsame
  exact ⟨_, target', copy, himport, hcopy, hsame⟩

end ProjectConfig
end NolagCore
