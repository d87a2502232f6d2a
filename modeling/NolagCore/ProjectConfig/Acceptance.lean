import NolagCore.ProjectConfig.FreshDraws
import NolagCore.ProjectConfig.RoundTrip

/-!
# ProjectConfig.Acceptance

Which documents an import accepts, and what the rows it makes of one refer to. On its way to a
database whose unique keys hold, an import of a well formed document meets no constraint, since every
row comes after the rows it refers to.
-/

namespace NolagCore
namespace ProjectConfig

open Lib Store

/-- Every text a document gives for a date column: the other columns store what the types of the
document allow. -/
def ProjectConfigDoc.dateTexts (doc : ProjectConfigDoc) : List (Option String) :=
  (doc.actors.getD []).flatMap fun actor => actor.expiresAt ::
    ((actor.appAccess.getD []).map (·.expiresAt) ++ (actor.roomAccess.getD []).map (·.expiresAt))

/-- The values of the document fit the columns they are written to. -/
def FitsColumns (legacy : String → Option Int) (doc : ProjectConfigDoc) : Prop :=
  ∀ text ∈ doc.dateTexts, ∃ t, dateColumn legacy text = .ok t

variable {host : Host} {draws : Draws} {now : Int} {doc : ProjectConfigDoc} {s final : Store}

/-! ## Loops that succeed -/

section

variable (hkeys : final.Keys)

include hkeys

theorem save_extends {row : Store} (hs : s.SchemaValid) (hext : final.Extends (s.append row))
    (hrefs : row.RefersInto (s.append row)) :
    save row s = .ok (s.append row) ∧ (s.append row).SchemaValid := by
  have hvalid : (s.append row).SchemaValid :=
    schemaValid_iff.2 ⟨hext.keys hkeys, (schemaValid_iff.1 hs).2.append hrefs⟩
  refine ⟨?_, hvalid⟩
  rw [save, if_pos hvalid]

omit hkeys in
/-- The one reference of a row. -/
theorem references_one {α β κ : Type} {r : α} {key : α → Option κ} {others : List β}
    {target : β → κ} (h : ∀ k, key r = some k → ∃ o ∈ others, target o = k) :
    References [r] key others target := by
  intro r' hr' k hk
  rw [List.mem_singleton.1 hr'] at hk
  exact h k hk

omit hkeys in
theorem references_row {α β κ : Type} {r : α} {key : α → κ} {others : List β} {target : β → κ}
    {o : β} (ho : o ∈ others) (hk : target o = key r) :
    References [r] (fun r => some (key r)) others target :=
  references_one fun _ h => ⟨o, ho, hk.trans (Option.some.inj h)⟩

theorem importRoom_extends {i j : Nat} {app : AppDoc} {room : RoomDoc} (hs : s.SchemaValid)
    (hbase : ({ apps := [appRow draws i app] } : Store).Within s)
    (hext : final.Extends (s.append (createdRoom draws i j room))) :
    importRoom draws i j room s = .ok (s.append (createdRoom draws i j room)) ∧
      (s.append (createdRoom draws i j room)).SchemaValid := by
  unfold createdRoom at hext ⊢
  rw [← append_assoc] at hext ⊢
  have happ : appRow draws i app ∈ (s.append { rooms := [roomRow draws i j room] }).apps :=
    hbase.append _ (.app _) List.mem_cons_self
  obtain ⟨hroom, hs₁⟩ := save_extends hkeys hs hext.of_append
    { roomApp := references_row happ rfl }
  obtain ⟨hgrants, hs'⟩ := forEach_extends (R := fun _ _ => True)
    (fun k grant => { roomActorAccess := [typeGrantRow draws i j k grant] })
    { rooms := [roomRow draws i j room] } final (fun k grant s _ hs hbase hext => by
      have hrow : roomRow draws i j room ∈
          (s.append { roomActorAccess := [typeGrantRow draws i j k grant] }).rooms :=
        hbase.append _ (.room _) List.mem_cons_self
      exact save_extends hkeys hs hext
        { grantRoom := references_row hrow rfl
          grantActor := references_one fun _ h => nomatch h })
    (room.typeGrants.getD []) 0 _ (fun _ _ _ => trivial) hs₁ (within_append_right _ _) hext
  exact ⟨bind_ok.2 ⟨_, hroom, hgrants⟩, hs'⟩

omit hkeys in
theorem saveMembers_grows (links rows : List LobbyRoom) :
    ∃ more, saveMembers links rows = rows ++ more := by
  induction links generalizing rows with
  | nil => exact ⟨[], (List.append_nil rows).symm⟩
  | cons link links ih =>
    rw [saveMembers_cons, saveMember_eq]
    split
    · exact ih rows
    · obtain ⟨more, hmore⟩ := ih (rows ++ [link])
      exact ⟨link :: more, by rw [hmore, List.append_assoc, List.singleton_append]⟩

omit hkeys in
theorem extends_of_saveMembers {links rows : List LobbyRoom}
    (h : final.Extends (s.append { lobbyRooms := saveMembers links rows })) :
    final.Extends (s.append { lobbyRooms := rows }) := by
  obtain ⟨more, hmore⟩ := saveMembers_grows links rows
  rw [hmore, ← append_lobbyRooms] at h
  exact h.of_append

/-- A membership of a stored lobby in a stored room is saved. -/
theorem saveLink_extends {link : LobbyRoom} {links : List LobbyRoom}
    (hs : (s.append { lobbyRooms := links }).SchemaValid)
    (hold : ∀ r ∈ s.lobbyRooms, r.lobbyId ≠ link.lobbyId)
    (hlobby : ∃ l ∈ s.lobbies, l.lobbyId = link.lobbyId)
    (hroom : ∃ r ∈ s.rooms, r.roomId = link.roomId)
    (hext : final.Extends (s.append { lobbyRooms := LobbyFacade.saveMember link links })) :
    saveLink link (s.append { lobbyRooms := links }) =
        .ok (s.append { lobbyRooms := LobbyFacade.saveMember link links }) ∧
      (s.append { lobbyRooms := LobbyFacade.saveMember link links }).SchemaValid := by
  unfold saveLink
  by_cases hkept : LobbyFacade.saveMember link links = links
  · rw [hkept, if_pos ((saveMember_keeps hold).2 hkept)]
    exact ⟨rfl, hs⟩
  · have hnew := saveMember_new hkept
    rw [if_neg fun h => hkept ((saveMember_keeps hold).1 h), hnew, ← append_lobbyRooms]
    rw [hnew, ← append_lobbyRooms] at hext
    obtain ⟨l, hl, hlid⟩ := hlobby
    obtain ⟨r, hr, hrid⟩ := hroom
    refine save_extends hkeys hs hext { memberLobby := ?_, memberRoom := ?_ }
    · exact references_row (List.mem_append_left _ (List.mem_append_left _ hl)) hlid
    · exact references_row (List.mem_append_left _ (List.mem_append_left _ hr)) hrid

theorem importLinks_extends {roomIds : OrderedMap String Uuid} {app : AppDoc} (lobby : LobbyDoc)
    {lobbyId : Uuid} (hold : ∀ r ∈ s.lobbyRooms, r.lobbyId ≠ lobbyId)
    (hlobby : ∃ l ∈ s.lobbies, l.lobbyId = lobbyId) {rooms : List String} :
    (∀ roomSlug ∈ rooms, ∃ roomId, roomIds.get? (roomKey app.slug roomSlug) = some roomId ∧
      ∃ r ∈ s.rooms, r.roomId = roomId) →
    ∀ {links : List LobbyRoom} {i : Nat}, (s.append { lobbyRooms := links }).SchemaValid →
      final.Extends (s.append
        { lobbyRooms := saveMembers (namedLinks roomIds app.slug lobbyId rooms) links }) →
      forEach (fun _ => importLink roomIds app lobby lobbyId) i rooms
          (s.append { lobbyRooms := links }) = .ok (s.append
            { lobbyRooms := saveMembers (namedLinks roomIds app.slug lobbyId rooms) links }) ∧
        (s.append { lobbyRooms :=
          saveMembers (namedLinks roomIds app.slug lobbyId rooms) links }).SchemaValid := by
  induction rooms with
  | nil =>
    intro _ links i hs _
    exact ⟨rfl, hs⟩
  | cons roomSlug rooms ih =>
    intro hrooms links i hs hext
    obtain ⟨roomId, hid, hroom⟩ := hrooms roomSlug List.mem_cons_self
    have hnamed : namedLinks roomIds app.slug lobbyId (roomSlug :: rooms) =
        { lobbyId := lobbyId, roomId := roomId } ::
          namedLinks roomIds app.slug lobbyId rooms := by
      unfold namedLinks
      rw [List.filterMap_cons, hid]
      rfl
    rw [hnamed, saveMembers_cons] at hext ⊢
    obtain ⟨hlink, hs₁⟩ := saveLink_extends hkeys hs hold hlobby hroom (extends_of_saveMembers hext)
    obtain ⟨hrest, hs'⟩ := ih (fun slug hslug => hrooms slug (List.mem_cons_of_mem _ hslug))
      (i := i + 1) hs₁ hext
    refine ⟨bind_ok.2 ⟨_, ?_, hrest⟩, hs'⟩
    simp only [importLink, hid]
    exact hlink

theorem importLobby_extends {roomIds : OrderedMap String Uuid} {app : AppDoc} {i j : Nat}
    {lobby : LobbyDoc} (hs : s.SchemaValid)
    (happ : ∃ a ∈ s.apps, a.appId = draws.app i)
    (hrooms : ∀ roomSlug ∈ lobby.rooms, ∃ roomId,
      roomIds.get? (roomKey app.slug roomSlug) = some roomId ∧ ∃ r ∈ s.rooms, r.roomId = roomId)
    (hext : final.Extends (s.append (createdLobby draws roomIds app i j lobby))) :
    importLobby draws roomIds app i j lobby s =
        .ok (s.append (createdLobby draws roomIds app i j lobby)) ∧
      (s.append (createdLobby draws roomIds app i j lobby)).SchemaValid := by
  have hsplit : s.append (createdLobby draws roomIds app i j lobby) =
      (s.append { lobbies := [lobbyRow draws i j lobby] }).append
        { lobbyRooms := saveMembers (namedLinks roomIds app.slug (draws.lobby i j) lobby.rooms)
            [] } := by
    simp [Store.append, createdLobby, createdLinks]
  rw [hsplit] at hext ⊢
  obtain ⟨a, ha, haid⟩ := happ
  obtain ⟨hlobby, hs₁⟩ := save_extends hkeys hs hext.of_append
    { lobbyApp := references_row (List.mem_append_left _ ha) haid }
  have hold : ∀ r ∈ (s.append { lobbies := [lobbyRow draws i j lobby] }).lobbyRooms,
      r.lobbyId ≠ draws.lobby i j := by
    rw [lobbyRooms_append, List.append_nil]
    exact no_links_of_new_lobby hs hs₁
  have hsaved : ∃ l ∈ (s.append { lobbies := [lobbyRow draws i j lobby] }).lobbies,
      l.lobbyId = draws.lobby i j :=
    ⟨lobbyRow draws i j lobby, List.mem_append_right _ List.mem_cons_self, rfl⟩
  rw [← append_noLinks (s.append _)] at hs₁
  obtain ⟨hlinks, hs'⟩ := importLinks_extends hkeys lobby (i := 0) hold hsaved
    (fun roomSlug hslug => by
      obtain ⟨roomId, hid, r, hr, hrid⟩ := hrooms roomSlug hslug
      exact ⟨roomId, hid, r, List.mem_append_left _ hr, hrid⟩) hs₁ hext
  rw [append_noLinks] at hlinks
  exact ⟨bind_ok.2 ⟨_, hlobby, hlinks⟩, hs'⟩

/-- Every room a lobby of the app names is a room of the app. -/
theorem importApp_extends (hdto : doc.slugsValid = true) (hdoc : Distinct doc)
    (hclosed : Closed doc) {i : Nat} {app : AppDoc} (hi : (doc.apps.getD [])[i]? = some app) (hs : s.SchemaValid)
    (hbase : ({ projects := [projectRow draws now doc.project] } : Store).Within s)
    (hext : final.Extends (s.append (createdApp draws (doc.apps.getD []) i app))) :
    importApp draws (doc.apps.getD []) i app s =
        .ok (s.append (createdApp draws (doc.apps.getD []) i app)) ∧
      (s.append (createdApp draws (doc.apps.getD []) i app)).SchemaValid := by
  unfold createdApp at hext ⊢
  rw [← append_assoc, ← append_assoc] at hext ⊢
  have hproject : projectRow draws now doc.project ∈
      (s.append { apps := [appRow draws i app] }).projects :=
    hbase.append _ (.project _) List.mem_cons_self
  obtain ⟨happ, hs₁⟩ := save_extends hkeys hs hext.of_append.of_append
    { appProject := references_row hproject rfl }
  obtain ⟨hrooms, hs₂⟩ := forEach_extends (R := fun _ _ => True) (createdRoom draws i)
    { apps := [appRow draws i app] } final
    (fun j room s _ hs hbase hext => importRoom_extends hkeys hs hbase hext)
    (app.rooms.getD []) 0 _ (fun _ _ _ => trivial) hs₁ (within_append_right _ _) hext.of_append
  -- the lobbies find the app and its rooms in place
  obtain ⟨hlobbies, hs'⟩ := forEach_extends (R := fun _ lobby => lobby ∈ app.lobbies.getD [])
    (createdLobby draws (roomIdByAppAndSlug draws ((doc.apps.getD []).take (i + 1))) app i)
    (({ apps := [appRow draws i app] } : Store).append
      (fragments (createdRoom draws i) 0 (app.rooms.getD []))) final
    (fun j lobby s hlobby hs hbase hext => by
      refine importLobby_extends hkeys hs ?_ ?_ hext
      · exact ⟨_, hbase (.app (appRow draws i app)) ((has_append _).2 (.inl List.mem_cons_self)), rfl⟩
      · intro roomSlug hslug
        obtain ⟨room, hroom, rfl⟩ :=
          hclosed.lobbyRoom app (List.mem_of_getElem? hi) lobby hlobby roomSlug hslug
        obtain ⟨k, hk⟩ := List.mem_iff_getElem?.1 hroom
        refine ⟨_, linkId_of_place hdoc hdto ⟨hi, hk⟩, roomRow draws i k room, ?_, rfl⟩
        refine hbase (.room _) ((has_append _).2 (.inr ?_))
        simp only [Has, rooms_fragments, createdRoom, rooms_append, List.append_nil,
          blocks_const_nil, Nat.zero_add, blocks_singleton]
        exact mem_mapIdx_iff.2 ⟨k, room, hk, rfl⟩)
    (app.lobbies.getD []) 0 _ (fun j lobby hj => List.mem_of_getElem? hj) hs₂
    (((within_append_right s _).append _).union (within_append_right _ _)) hext
  refine ⟨bind_ok.2 ⟨_, happ, bind_ok.2 ⟨_, hrooms, hlobbies⟩⟩, hs'⟩

/-- The rows that are in place when the actors come. -/
def createdTop (draws : Draws) (now : Int) (doc : ProjectConfigDoc) : Store :=
  ({ projects := [projectRow draws now doc.project] } : Store).append
    ((fragments (fun i scope => { accessScopes := [scopeRow draws i scope] }) 0
      (doc.accessScopes.getD [])).append
    (fragments (createdApp draws (doc.apps.getD [])) 0 (doc.apps.getD [])))

omit hkeys in
theorem has_createdTop_scope {k : Nat} {scope : AccessScopeDoc}
    (hk : (doc.accessScopes.getD [])[k]? = some scope) :
    (createdTop draws now doc).Has (.accessScope (scopeRow draws k scope)) := by
  simp only [Has, createdTop, createdApp, createdRoom, createdLobby, accessScopes_append,
    accessScopes_fragments, Nat.zero_add, blocks_singleton, blocks_const_nil, List.nil_append,
    List.append_nil]
  exact mem_mapIdx_iff.2 ⟨k, scope, hk, rfl⟩

omit hkeys in
theorem has_createdTop_app {k : Nat} {app : AppDoc} (hk : (doc.apps.getD [])[k]? = some app) :
    (createdTop draws now doc).Has (.app (appRow draws k app)) := by
  simp only [Has, createdTop, createdApp, createdRoom, createdLobby, apps_append, apps_fragments,
    Nat.zero_add, blocks_singleton, blocks_const_nil, List.nil_append, List.append_nil]
  exact mem_mapIdx_iff.2 ⟨k, app, hk, rfl⟩

omit hkeys in
theorem has_createdTop_room {k l : Nat} {app : AppDoc} {room : RoomDoc}
    (h : RoomPlace (doc.apps.getD []) k l app room) :
    (createdTop draws now doc).Has (.room (roomRow draws k l room)) := by
  simp only [Has, createdTop, createdApp, createdRoom, createdLobby, rooms_append, rooms_fragments,
    Nat.zero_add, blocks_singleton, blocks_const_nil, List.nil_append, List.append_nil]
  exact mem_blocks.2 ⟨k, app, h.atApp, mem_mapIdx_iff.2 ⟨l, room, h.atRoom, rfl⟩⟩

theorem importAppGrant_extends (hdoc : Distinct doc) (hclosed : Closed doc) {i j : Nat}
    {actor : ActorDoc} (ha : actor ∈ doc.actors.getD []) {grant : ActorAppGrantDoc}
    (hg : grant ∈ actor.appAccess.getD [])
    (hdate : ∃ t, dateColumn host.legacy grant.expiresAt = .ok t) (hs : s.SchemaValid)
    (htop : (createdTop draws now doc).Within s)
    (hactor : ∃ a ∈ s.actorTokens, a.actorTokenId = draws.actor i)
    (hext : final.Extends (s.append (createdAppGrant host draws doc i j grant))) :
    importAppGrant host draws (appIdBySlug draws (doc.apps.getD [])) actor i j grant s =
        .ok (s.append (createdAppGrant host draws doc i j grant)) ∧
      (s.append (createdAppGrant host draws doc i j grant)).SchemaValid := by
  obtain ⟨k, app, hk, -, hid⟩ := appId_of_closed draws hdoc hclosed ha hg
  obtain ⟨t, ht⟩ := hdate
  obtain ⟨a, ha, haid⟩ := hactor
  have hrow : createdAppGrant host draws doc i j grant =
      { actorAppAccess := [appGrantRow draws i j grant (draws.app k) t] } := by
    simp [createdAppGrant, hid, storedDate_of_ok ht]
  rw [hrow] at hext ⊢
  obtain ⟨hsave, hs'⟩ := save_extends hkeys hs hext
    { appGrantActor := references_row (List.mem_append_left _ ha) haid
      appGrantApp := references_row (htop.append _ _ (has_createdTop_app hk)) rfl }
  refine ⟨?_, hs'⟩
  rw [importAppGrant, hid]
  exact bind_ok.2 ⟨t, ht, hsave⟩

theorem importRoomGrant_extends (hdto : doc.slugsValid = true) (hdoc : Distinct doc)
    (hclosed : Closed doc) {i j : Nat} {actor : ActorDoc} (ha : actor ∈ doc.actors.getD [])
    {grant : ActorRoomGrantDoc} (hg : grant ∈ actor.roomAccess.getD [])
    (hdate : ∃ t, dateColumn host.legacy grant.expiresAt = .ok t) (hs : s.SchemaValid)
    (htop : (createdTop draws now doc).Within s)
    (hactor : ∃ a ∈ s.actorTokens, a.actorTokenId = draws.actor i)
    (hext : final.Extends (s.append (createdRoomGrant host draws doc i j grant))) :
    importRoomGrant host draws (roomIdByAppAndSlug draws (doc.apps.getD [])) actor i j grant s =
        .ok (s.append (createdRoomGrant host draws doc i j grant)) ∧
      (s.append (createdRoomGrant host draws doc i j grant)).SchemaValid := by
  obtain ⟨k, app, l, room, hplace, -, -, hid⟩ :=
    roomId_of_closed draws hdoc hclosed hdto ha hg
  obtain ⟨t, ht⟩ := hdate
  obtain ⟨a, ha, haid⟩ := hactor
  have hrow : createdRoomGrant host draws doc i j grant =
      { roomActorAccess := [roomGrantRow draws i j grant (draws.room k l) t] } := by
    simp [createdRoomGrant, hid, storedDate_of_ok ht]
  rw [hrow] at hext ⊢
  obtain ⟨hsave, hs'⟩ := save_extends hkeys hs hext
    { grantRoom := references_row (htop.append _ _ (has_createdTop_room hplace)) rfl
      grantActor := references_one fun id h =>
        ⟨a, List.mem_append_left _ ha, haid.trans (Option.some.inj h)⟩ }
  refine ⟨?_, hs'⟩
  rw [importRoomGrant, hid]
  exact bind_ok.2 ⟨t, ht, hsave⟩

omit hkeys in
variable (draws) in
/-- The scope an actor names is one of the document's. -/
theorem actorScope_of_closed (hdoc : Distinct doc) (hclosed : Closed doc) {actor : ActorDoc}
    (ha : actor ∈ doc.actors.getD []) :
    ∃ accessScopeId, actorScope (scopeIdBySlug draws (doc.accessScopes.getD [])) actor =
        .ok accessScopeId ∧
      ∀ id, accessScopeId = some id → ∃ (k : Nat) (scope : AccessScopeDoc),
        (doc.accessScopes.getD [])[k]? = some scope ∧ draws.scope k = id := by
  unfold actorScope
  cases hslug : actor.scopeSlug with
  | none => exact ⟨none, rfl, fun _ h => nomatch h⟩
  | some slug =>
    by_cases hne : slug = ""
    · subst hne
      exact ⟨none, rfl, fun _ h => nomatch h⟩
    · obtain ⟨scope, hscope, rfl⟩ := hclosed.scope actor ha slug hslug hne
      obtain ⟨k, hk⟩ := List.mem_iff_getElem?.1 hscope
      have hget : (scopeIdBySlug draws (doc.accessScopes.getD [])).get? scope.slug =
          some (draws.scope k) := (scopeId_iff hdoc).2 ⟨k, scope, hk, rfl, rfl⟩
      rw [if_neg (by simp [truthy, hne])]
      refine ⟨some (draws.scope k), ?_, ?_⟩
      · simp only [Option.getD_some, hget]
      · intro id hid
        cases hid
        exact ⟨k, scope, hk, rfl⟩

/-- The dates of one actor and of its grants. -/
structure ActorDatesFit (legacy : String → Option Int) (actor : ActorDoc) : Prop where
  expiresAt : ∃ t, dateColumn legacy actor.expiresAt = .ok t
  appAccess : ∀ grant ∈ actor.appAccess.getD [], ∃ t, dateColumn legacy grant.expiresAt = .ok t
  roomAccess : ∀ grant ∈ actor.roomAccess.getD [], ∃ t, dateColumn legacy grant.expiresAt = .ok t

omit hkeys in
theorem actorDatesFit_of_fits {legacy : String → Option Int} (h : FitsColumns legacy doc)
    {actor : ActorDoc} (ha : actor ∈ doc.actors.getD []) : ActorDatesFit legacy actor := by
  have hmem : ∀ text, text ∈ actor.expiresAt :: ((actor.appAccess.getD []).map (·.expiresAt) ++
      (actor.roomAccess.getD []).map (·.expiresAt)) → ∃ t, dateColumn legacy text = .ok t :=
    fun text htext => h text (List.mem_flatMap.2 ⟨actor, ha, htext⟩)
  refine ⟨hmem _ List.mem_cons_self, fun grant hg => hmem _ ?_, fun grant hg => hmem _ ?_⟩
  · exact List.mem_cons_of_mem _ (List.mem_append_left _ (List.mem_map_of_mem hg))
  · exact List.mem_cons_of_mem _ (List.mem_append_right _ (List.mem_map_of_mem hg))

theorem importActor_extends (hdto : doc.slugsValid = true) (hdoc : Distinct doc)
    (hclosed : Closed doc) {i : Nat} {actor : ActorDoc} (ha : actor ∈ doc.actors.getD [])
    (hdates : ActorDatesFit host.legacy actor) (hs : s.SchemaValid)
    (htop : (createdTop draws now doc).Within s)
    (hext : final.Extends (s.append (createdActor host draws doc i actor))) :
    importActor host draws (scopeIdBySlug draws (doc.accessScopes.getD []))
        (appIdBySlug draws (doc.apps.getD [])) (roomIdByAppAndSlug draws (doc.apps.getD [])) i actor
        s = .ok (s.append (createdActor host draws doc i actor)) ∧
      (s.append (createdActor host draws doc i actor)).SchemaValid := by
  obtain ⟨accessScopeId, hscope, hscopeRow⟩ :=
    actorScope_of_closed draws hdoc hclosed ha
  obtain ⟨t, ht⟩ := hdates.expiresAt
  have hrow : createdActorRow host draws doc i actor = actorRow host draws i actor accessScopeId t := by
    rw [createdActorRow, boundScope_of_ok hscope, storedDate_of_ok ht]
  unfold createdActor at hext ⊢
  rw [← append_assoc, ← append_assoc, hrow] at hext ⊢
  have hproject : projectRow draws now doc.project ∈ (s.append
      { actorTokens := [actorRow host draws i actor accessScopeId t] }).projects :=
    htop.append _ (.project _) (List.mem_append_left _ List.mem_cons_self)
  obtain ⟨hactor, hs₁⟩ := save_extends hkeys hs hext.of_append.of_append
    { actorProject := references_row hproject rfl
      actorScope := references_one fun id hid => by
        obtain ⟨k, scope, hk, rfl⟩ := hscopeRow id hid
        exact ⟨_, htop.append _ _ (has_createdTop_scope hk), rfl⟩ }
  have htop₁ := htop.append { actorTokens := [actorRow host draws i actor accessScopeId t] }
  have hbase : ((createdTop draws now doc).append
      { actorTokens := [actorRow host draws i actor accessScopeId t] }).Within
        (s.append { actorTokens := [actorRow host draws i actor accessScopeId t] }) :=
    htop₁.union (within_append_right _ _)
  have hin : ∀ {s : Store}, ((createdTop draws now doc).append
      { actorTokens := [actorRow host draws i actor accessScopeId t] }).Within s →
      (createdTop draws now doc).Within s ∧
        ∃ a ∈ s.actorTokens, a.actorTokenId = draws.actor i := by
    intro s h
    refine ⟨fun row hrow => h row ((has_append row).2 (.inl hrow)), _,
      h (.actorToken (actorRow host draws i actor accessScopeId t))
        ((has_append _).2 (.inr List.mem_cons_self)), rfl⟩
  obtain ⟨happs, hs₂⟩ := forEach_extends (R := fun _ grant => grant ∈ actor.appAccess.getD [])
    (createdAppGrant host draws doc i) _ final
    (fun j grant s hg hs hbase hext => importAppGrant_extends hkeys hdoc hclosed ha hg
      (hdates.appAccess grant hg) hs (hin hbase).1 (hin hbase).2 hext)
    (actor.appAccess.getD []) 0 _ (fun j grant hj => List.mem_of_getElem? hj) hs₁ hbase
    hext.of_append
  obtain ⟨hrooms, hs'⟩ := forEach_extends (R := fun _ grant => grant ∈ actor.roomAccess.getD [])
    (createdRoomGrant host draws doc i) _ final
    (fun j grant s hg hs hbase hext => importRoomGrant_extends hkeys hdto hdoc hclosed ha hg
      (hdates.roomAccess grant hg) hs (hin hbase).1 (hin hbase).2 hext)
    (actor.roomAccess.getD []) 0 _ (fun j grant hj => List.mem_of_getElem? hj) hs₂
    (hbase.append _) hext
  exact ⟨bind_ok.2 ⟨_, hscope, bind_ok.2 ⟨t, ht, bind_ok.2 ⟨_, hactor, bind_ok.2
    ⟨_, happs, hrooms⟩⟩⟩⟩, hs'⟩

theorem importSigningKey_extends {i : Nat} {key : SigningKeyDoc}
    (hkey : ∃ secretEncrypted, encryptedKey host draws i = .ok secretEncrypted)
    (hs : s.SchemaValid)
    (hbase : ({ projects := [projectRow draws now doc.project] } : Store).Within s)
    (hext : final.Extends (s.append { signingKeys := [createdKeyRow host draws i key] })) :
    importSigningKey host draws i key s =
        .ok (s.append { signingKeys := [createdKeyRow host draws i key] }) ∧
      (s.append { signingKeys := [createdKeyRow host draws i key] }).SchemaValid := by
  obtain ⟨secretEncrypted, he⟩ := hkey
  have hproject : projectRow draws now doc.project ∈
      (s.append { signingKeys := [createdKeyRow host draws i key] }).projects :=
    hbase.append _ (.project _) List.mem_cons_self
  obtain ⟨hsave, hs'⟩ := save_extends hkeys hs hext { keyProject := references_row hproject rfl }
  refine ⟨bind_ok.2 ⟨secretEncrypted, he, ?_⟩, hs'⟩
  rw [← hsave, createdKeyRow, he]
  rfl

end

/-! ## Documents that are accepted -/

variable {lib : CipherLibrary}

/-- Minting a signing key asks for nothing but the configured key. -/
theorem encryptedKey_isOk (hcipher : host.cipher = lib.encryptSecret) (i : Nat) :
    (∃ secretEncrypted, encryptedKey host draws i = .ok secretEncrypted) ↔
      HasKey lib host.config := by
  unfold encryptedKey SigningKeyFacade.encryptForStorage HasKey
  rw [hcipher]
  cases hconfig : host.config.signingKeyEncryptionKey with
  | none => simp [truthy]
  | some key =>
    by_cases hne : key = ""
    · simp [truthy, hne]
    · rw [if_neg (by simp [truthy, hne])]
      have hok : (∃ encoded, lib.encryptSecret (generatedKey host draws i).secret key
          (draws.signingKeyBytes i).iv = .ok encoded) ↔ lib.IsKey key :=
        CipherLibrary.encryptSecret_isOk
      simp only [Option.getD_some]
      constructor
      · rintro ⟨secretEncrypted, h⟩
        split at h
        · cases h
        · rename_i encoded henc
          exact ⟨key, rfl, hne, hok.1 ⟨encoded, henc⟩⟩
      · rintro ⟨key', hkey', -, his⟩
        cases hkey'
        obtain ⟨encoded, henc⟩ := hok.2 his
        rw [henc]
        exact ⟨encoded, rfl⟩

variable (now) in
theorem importProject_succeeds (hcipher : host.cipher = lib.encryptSecret)
    (hdto : doc.slugsValid = true) (hfits : FitsColumns host.legacy doc) (hs : s.SchemaValid)
    (hfresh : FreshDraws host draws doc s) (hw : WellFormed lib host.config doc) :
    importProject host draws now doc s =
        .ok (credentials host draws doc, s.append (created host draws now doc)) ∧
      (s.append (created host draws now doc)).SchemaValid := by
  have hkeys := keys_created now hw.distinct hw.closed hdto hs hfresh hw.appGrants
  have hext : (s.append (created host draws now doc)).Extends
      (s.append (created host draws now doc)) := ⟨{}, append_empty _⟩
  generalize hfinal : s.append (created host draws now doc) = final at hkeys hext ⊢
  have hparts := hfinal
  unfold created at hparts
  simp only [← append_assoc] at hparts
  rw [← hparts] at hext ⊢
  have hprojects : ({ projects := [projectRow draws now doc.project] } : Store).Within
      (s.append { projects := [projectRow draws now doc.project] }) := within_append_right _ _
  obtain ⟨hproject, hs₁⟩ := save_extends hkeys hs (hparts ▸ hext.of_append.of_append.of_append.of_append) {}
  obtain ⟨hscopes, hs₂⟩ := forEach_extends (R := fun _ _ => True)
    (fun i scope => { accessScopes := [scopeRow draws i scope] })
    { projects := [projectRow draws now doc.project] } final (fun i scope s _ hs hbase hext => by
      have hrow : projectRow draws now doc.project ∈
          (s.append { accessScopes := [scopeRow draws i scope] }).projects :=
        hbase.append _ (.project _) List.mem_cons_self
      exact save_extends hkeys hs hext { scopeProject := references_row hrow rfl })
    (doc.accessScopes.getD []) 0 _ (fun _ _ _ => trivial) hs₁ hprojects
    (hparts ▸ hext.of_append.of_append.of_append)
  obtain ⟨happs, hs₃⟩ := forEach_extends
    (R := fun i app => (doc.apps.getD [])[i]? = some app) (createdApp draws (doc.apps.getD []))
    { projects := [projectRow draws now doc.project] } final
    (fun i app s hi hs hbase hext =>
      importApp_extends hkeys hdto hw.distinct hw.closed hi hs hbase hext)
    (doc.apps.getD []) 0 _ (fun k app hk => by rwa [Nat.zero_add]) hs₂ (hprojects.append _)
    (hparts ▸ hext.of_append.of_append)
  have htop : (createdTop draws now doc).Within (((s.append
      { projects := [projectRow draws now doc.project] }).append
      (fragments (fun i scope => { accessScopes := [scopeRow draws i scope] }) 0
        (doc.accessScopes.getD []))).append
      (fragments (createdApp draws (doc.apps.getD [])) 0 (doc.apps.getD []))) :=
    ((hprojects.append _).append _).union
      (((within_append_right _ _).append _).union (within_append_right _ _))
  obtain ⟨hactors, hs₄⟩ := forEach_extends (R := fun _ actor => actor ∈ doc.actors.getD [])
    (createdActor host draws doc) (createdTop draws now doc) final
    (fun i actor s ha hs htop hext => importActor_extends hkeys hdto hw.distinct hw.closed ha
      (actorDatesFit_of_fits hfits ha) hs htop hext)
    (doc.actors.getD []) 0 _ (fun i actor hi => List.mem_of_getElem? hi) hs₃ htop
    (hparts ▸ hext.of_append)
  obtain ⟨hkeysLoop, hs₅⟩ := forEach_extends (R := fun _ key => key ∈ doc.signingKeys.getD [])
    (fun i key => { signingKeys := [createdKeyRow host draws i key] })
    { projects := [projectRow draws now doc.project] } final
    (fun i key s hk hs hbase hext => importSigningKey_extends hkeys
      ((encryptedKey_isOk hcipher i).2 (hw.encryption (List.ne_nil_of_mem hk))) hs hbase hext)
    (doc.signingKeys.getD []) 0 _ (fun i key hi => List.mem_of_getElem? hi) hs₄
    (((hprojects.append _).append _).append _) (hparts ▸ hext)
  refine ⟨?_, hs₅⟩
  rw [importProject, if_neg (not_not.2 hw.version)]
  exact bind_ok.2 ⟨(), assertUniqueSlugs_ok.2 hw.distinct, bind_ok.2 ⟨_, hproject,
    bind_ok.2 ⟨_, hscopes, bind_ok.2 ⟨_, happs, bind_ok.2 ⟨_, hactors,
      bind_ok.2 ⟨_, hkeysLoop, rfl⟩⟩⟩⟩⟩⟩

end ProjectConfig
end NolagCore
