import NolagCore.Authz.Isolation
import NolagCore.Common.Writes
import NolagCore.Facade.Linked

/-!
# Facade.Neighbours

What is done to one project leaves every other project as it was. An operation that names no row of
a project misses all the rows that belong to it, so a whole run of such operations, whatever it
creates, deletes, imports or purges, changes no answer that an actor of the project gets.
-/

namespace NolagCore
namespace Facade

open Lib Store ProjectConfig
open Authz (configure sampleSetup)

/-! ## Changes outside a project -/

/-- The grant is held by an actor of the project or placed on one of its rooms. -/
def Touches (s : Store) (projectId : Uuid) (ra : RoomActorAccess) : Bool :=
  (ra.actorTokenId.any (s.ownsActor projectId)) || s.ownsRoom projectId ra.roomId

/-- The two stores agree on the rows that belong to the project. -/
structure Outside (q : Uuid) (s s' : Store) : Prop where
  projects : s'.projects.filter (fun p => decide (p.projectId = q)) =
    s.projects.filter fun p => decide (p.projectId = q)
  accessScopes : s'.accessScopes.filter (fun r => decide (r.projectId = q)) =
    s.accessScopes.filter fun r => decide (r.projectId = q)
  apps : s'.apps.filter (fun a => decide (a.projectId = q)) =
    s.apps.filter fun a => decide (a.projectId = q)
  rooms : s'.rooms.filter (fun r => s.ownsApp q r.appId) =
    s.rooms.filter fun r => s.ownsApp q r.appId
  roomActorAccess : s'.roomActorAccess.filter (Touches s q) = s.roomActorAccess.filter (Touches s q)
  lobbies : s'.lobbies.filter (fun l => s.ownsApp q l.appId) =
    s.lobbies.filter fun l => s.ownsApp q l.appId
  lobbyRooms : s'.lobbyRooms.filter
      (fun lr => s.ownsLobby q lr.lobbyId && s.ownsRoom q lr.roomId) =
    s.lobbyRooms.filter fun lr => s.ownsLobby q lr.lobbyId && s.ownsRoom q lr.roomId
  actorTokens : s'.actorTokens.filter (fun a => decide (a.projectId = q)) =
    s.actorTokens.filter fun a => decide (a.projectId = q)
  actorTokenStates : s'.actorTokenStates.filter (fun st => s.ownsActor q st.actorTokenId) =
    s.actorTokenStates.filter fun st => s.ownsActor q st.actorTokenId
  actorAppAccess : s'.actorAppAccess.filter (fun g => s.ownsActor q g.actorTokenId) =
    s.actorAppAccess.filter fun g => s.ownsActor q g.actorTokenId
  signingKeys : s'.signingKeys.filter (fun k => decide (k.projectId = q)) =
    s.signingKeys.filter fun k => decide (k.projectId = q)

section

variable {q : Uuid} {s s' : Store}

theorem Outside.same (s : Store) : Outside q s s := by
  constructor <;> rfl

theorem Outside.ownsApp (h : Outside q s s') : s'.ownsApp q = s.ownsApp q := by
  funext appId
  refine any_congr_filter h.apps fun a ha => ?_
  rw [Bool.and_eq_true] at ha
  exact ha.2

theorem Outside.ownsActor (h : Outside q s s') : s'.ownsActor q = s.ownsActor q := by
  funext actorTokenId
  refine any_congr_filter h.actorTokens fun a ha => ?_
  rw [Bool.and_eq_true] at ha
  exact ha.2

theorem Outside.ownsRoom (h : Outside q s s') : s'.ownsRoom q = s.ownsRoom q := by
  funext roomId
  unfold Store.ownsRoom
  rw [h.ownsApp]
  refine any_congr_filter h.rooms fun r hr => ?_
  rw [Bool.and_eq_true] at hr
  exact hr.2

theorem Outside.ownsLobby (h : Outside q s s') : s'.ownsLobby q = s.ownsLobby q := by
  funext lobbyId
  unfold Store.ownsLobby
  rw [h.ownsApp]
  refine any_congr_filter h.lobbies fun l hl => ?_
  rw [Bool.and_eq_true] at hl
  exact hl.2

theorem Outside.trans {s'' : Store} (h : Outside q s s') (h' : Outside q s' s'') :
    Outside q s s'' := by
  obtain ⟨h1, h2, h3, h4, h5, h6, h7, h8, h9, h10, h11⟩ := h'
  have ht : Touches s' q = Touches s q := by
    funext ra
    unfold Touches
    rw [h.ownsActor, h.ownsRoom]
  rw [h.ownsApp] at h4 h6
  rw [ht] at h5
  rw [h.ownsLobby, h.ownsRoom] at h7
  rw [h.ownsActor] at h9 h10
  exact ⟨h1.trans h.projects, h2.trans h.accessScopes, h3.trans h.apps, h4.trans h.rooms,
    h5.trans h.roomActorAccess, h6.trans h.lobbies, h7.trans h.lobbyRooms, h8.trans h.actorTokens,
    h9.trans h.actorTokenStates, h10.trans h.actorAppAccess, h11.trans h.signingKeys⟩

/-- The part of the store that is the project's is the same. -/
theorem Outside.ofProject (h : Outside q s s') : s'.ofProject q = s.ofProject q := by
  unfold Store.ofProject
  rw [h.ownsApp, h.ownsActor, h.ownsRoom, h.ownsLobby, h.projects, h.accessScopes, h.apps, h.rooms,
    h.lobbies, h.lobbyRooms, h.actorTokens, h.actorTokenStates, h.actorAppAccess, h.signingKeys]
  exact congrArg (fun roomActorAccess => { s.ofProject q with roomActorAccess }) h.roomActorAccess

end

/-- The operation names no row of the project. Removing another project's rows takes the grants
that join it to this one along, so there must be none. -/
def Avoids (q : Uuid) (s : Store) : Operation → Prop
  | .createProject projectId _ | .updateProject projectId _ | .syncLimits projectId _
  | .deleteProject projectId | .createScope _ projectId _ | .updateScope _ projectId _
  | .deleteScope _ projectId | .createApp _ projectId _ | .updateApp _ projectId _
  | .deleteApp _ projectId | .createActorToken _ _ projectId _ | .updateActorToken _ projectId _
  | .deleteActorToken _ projectId | .createSigningKey _ _ projectId _
  | .updateSigningKey _ projectId _ | .deleteSigningKey _ projectId => projectId ≠ q
  | .createRoom _ appId _ | .ensureRoom _ appId _ _ | .updateRoom _ appId _ | .deleteRoom _ appId
  | .createStaticRooms _ appId _ | .createLobby _ appId _ | .updateLobby _ appId _
  | .deleteLobby _ appId | .addRoomToLobby _ _ appId | .removeRoomFromLobby _ _ appId
  | .createStaticLobbies _ appId _ _ => s.ownsApp q appId = false
  | .createRoomGrant _ roomId dto =>
    s.ownsRoom q roomId = false ∧ dto.actorTokenId.any (s.ownsActor q) = false
  | .updateRoomGrant roomActorAccessId _ | .deleteRoomGrant roomActorAccessId =>
    ∀ g ∈ s.roomActorAccess, g.roomActorAccessId = roomActorAccessId → Touches s q g = false
  | .updateActorState _ actorTokenId _ _ | .clearActorState actorTokenId
  | .clearSubscriptions actorTokenId => s.ownsActor q actorTokenId = false
  | .updateSubscription _ dto => s.ownsActor q dto.actorTokenId = false
  | .importProject draws _ => draws.project ≠ q
  | .purgeProject projectId => projectId ≠ q ∧
    (∀ g ∈ s.roomActorAccess, Touches s q g = true → Touches s projectId g = false) ∧
    ∀ g ∈ s.actorAppAccess, s.ownsActor q g.actorTokenId = true →
      s.ownsApp projectId g.appId = false

section

variable {q : Uuid} {host : Host} {now : Int} {db : Database}

/-! ## Projects, scopes and apps -/

theorem off {projectId : Uuid} (hq : projectId ≠ q) {id : Uuid} (h : id = projectId) :
    decide (id = q) = false :=
  decide_eq_false (h ▸ hq)

theorem project_create_outside {projectId : Uuid} {dto : ProjectFacade.ProjectCreateDto}
    (hq : projectId ≠ q) :
    Leaves (ProjectFacade.createProject db projectId dto) (Outside q db.store) := by
  refine .commit { Outside.same db.store with projects := filter_append_off fun r hr => ?_ }
  cases List.mem_singleton.1 hr
  exact off hq rfl

theorem project_update_outside {projectId : Uuid} {dto : ProjectFacade.ProjectPatchDto}
    (hq : projectId ≠ q) :
    Leaves (ProjectFacade.updateProject db projectId dto) (Outside q db.store) := by
  unfold ProjectFacade.updateProject
  split
  · exact .error
  · rename_i existing hlock
    obtain ⟨hrow, _, hid⟩ := of_lock hlock
    exact .commit { Outside.same db.store with
      projects := filter_saveRow_off db.valid.pkProject hrow rfl (off hq hid) (off hq hid) }

theorem project_limits_outside {projectId : Uuid} {limits : ProjectFacade.ProjectLimitsDto}
    (hq : projectId ≠ q) :
    Leaves (ProjectFacade.syncLimits db now projectId limits) (Outside q db.store) := by
  unfold ProjectFacade.syncLimits
  split
  · exact .error
  · rename_i existing hlock
    obtain ⟨hrow, _, hid⟩ := of_lock hlock
    exact .commit { Outside.same db.store with
      projects := filter_saveRow_off db.valid.pkProject hrow rfl (off hq hid) (off hq hid) }

theorem project_delete_outside {projectId : Uuid} (hq : projectId ≠ q) :
    Leaves (ProjectFacade.deleteProject db now projectId) (Outside q db.store) := by
  unfold ProjectFacade.deleteProject
  split
  · exact .error
  · refine .commit { Outside.same db.store with projects := filter_updateRows_off fun r _ hp => ?_ }
    exact ⟨off hq (of_decide_eq_true hp), off hq (of_decide_eq_true hp)⟩

theorem scope_create_outside {accessScopeId projectId : Uuid}
    {dto : AccessScopeFacade.AccessScopeCreateDto} (hq : projectId ≠ q) :
    Leaves (AccessScopeFacade.create db accessScopeId projectId dto) (Outside q db.store) := by
  unfold AccessScopeFacade.create
  split
  · exact .error
  · refine .commit { Outside.same db.store with accessScopes := filter_append_off fun r hr => ?_ }
    cases List.mem_singleton.1 hr
    exact off hq rfl

theorem scope_update_outside {accessScopeId projectId : Uuid}
    {dto : AccessScopeFacade.AccessScopePatchDto} (hq : projectId ≠ q) :
    Leaves (AccessScopeFacade.update db accessScopeId projectId dto) (Outside q db.store) := by
  unfold AccessScopeFacade.update
  split
  · exact .error
  · rename_i existing hf
    obtain ⟨hrow, _, hp⟩ := of_findOne hf
    rw [Bool.and_eq_true, decide_eq_true_eq, decide_eq_true_eq] at hp
    exact .commit { Outside.same db.store with
      accessScopes := filter_saveRow_off db.valid.pkScope hrow rfl (off hq hp.2) (off hq hp.2) }

theorem scope_delete_outside {accessScopeId projectId : Uuid} (hq : projectId ≠ q) :
    Leaves (AccessScopeFacade.delete db now accessScopeId projectId) (Outside q db.store) := by
  unfold AccessScopeFacade.delete
  split
  · exact .error
  · dsimp only
    split
    · exact .error
    · refine .commit { Outside.same db.store with accessScopes := filter_updateRows_off fun r _ hp => ?_ }
      simp only [Bool.and_eq_true, decide_eq_true_eq] at hp
      exact ⟨off hq hp.1.2, off hq hp.1.2⟩

theorem app_create_outside {appId projectId : Uuid} {dto : PlatformAppFacade.PlatformAppCreateDto}
    (hq : projectId ≠ q) :
    Leaves (PlatformAppFacade.createApp db appId projectId dto) (Outside q db.store) := by
  unfold PlatformAppFacade.createApp
  dsimp only
  split
  · exact .error
  · refine .commit { Outside.same db.store with apps := filter_append_off fun r hr => ?_ }
    cases List.mem_singleton.1 hr
    exact off hq rfl

theorem app_update_outside {appId projectId : Uuid} {dto : PlatformAppFacade.PlatformAppPatchDto}
    (hq : projectId ≠ q) :
    Leaves (PlatformAppFacade.updateApp db appId projectId dto) (Outside q db.store) := by
  unfold PlatformAppFacade.updateApp
  split
  · exact .error
  · rename_i existing hf
    obtain ⟨hrow, _, hp⟩ := of_findOne hf
    rw [Bool.and_eq_true, decide_eq_true_eq, decide_eq_true_eq] at hp
    exact .commit { Outside.same db.store with
      apps := filter_saveRow_off db.valid.pkApp hrow rfl (off hq hp.2) (off hq hp.2) }

theorem app_delete_outside {appId projectId : Uuid} (hq : projectId ≠ q) :
    Leaves (PlatformAppFacade.deleteApp db now appId projectId) (Outside q db.store) := by
  unfold PlatformAppFacade.deleteApp
  split
  · exact .error
  · refine .commit { Outside.same db.store with apps := filter_updateRows_off fun r _ hp => ?_ }
    rw [Bool.and_eq_true, decide_eq_true_eq, decide_eq_true_eq] at hp
    exact ⟨off hq hp.2, off hq hp.2⟩

/-! ## Rooms and their grants -/

theorem room_create_outside {roomId appId : Uuid} {data : RoomFacade.RoomCreateDto}
    (hq : db.store.ownsApp q appId = false) :
    Leaves (RoomFacade.createRoom db roomId appId data) (Outside q db.store) := by
  unfold RoomFacade.createRoom
  dsimp only
  split
  · exact .error
  · unfold RoomFacade.insertRoom
    split
    · exact .error
    · refine .commit { Outside.same db.store with rooms := filter_append_off fun r hr => ?_ }
      cases List.mem_singleton.1 hr
      exact hq

theorem room_ensure_outside {roomId appId : Uuid} {data : RoomFacade.RoomCreateDto}
    {maxRooms : Nat} (hq : db.store.ownsApp q appId = false) :
    Leaves (RoomFacade.ensureRoom db roomId appId data maxRooms) (Outside q db.store) := by
  unfold RoomFacade.ensureRoom
  dsimp only
  split
  · exact .unchanged (.same db.store)
  · split
    · exact .error
    · split
      · rename_i hr
        intro a db' h
        cases h
        exact room_create_outside hq _ _ hr
      · split
        · exact .unchanged (.same db.store)
        · exact .error

theorem room_update_outside {roomId appId : Uuid} {data : RoomFacade.RoomPatchDto}
    (hq : db.store.ownsApp q appId = false) :
    Leaves (RoomFacade.updateRoom db roomId appId data) (Outside q db.store) := by
  unfold RoomFacade.updateRoom
  split
  · exact .error
  · unfold RoomFacade.patchRoom
    split
    · exact .error
    · rename_i existing hf
      obtain ⟨hrow, _, hp⟩ := of_findOne hf
      rw [Bool.and_eq_true, decide_eq_true_eq, decide_eq_true_eq] at hp
      rw [← hp.2] at hq
      exact .commit { Outside.same db.store with
        rooms := filter_saveRow_off db.valid.pkRoom hrow rfl hq hq }

theorem room_delete_outside {roomId appId : Uuid} (hq : db.store.ownsApp q appId = false) :
    Leaves (RoomFacade.deleteRoom db now roomId appId) (Outside q db.store) := by
  unfold RoomFacade.deleteRoom
  split
  · exact .error
  · refine .commit { Outside.same db.store with rooms := filter_updateRows_off fun r _ hp => ?_ }
    simp only [Bool.and_eq_true, decide_eq_true_eq] at hp
    rw [← hp.1.2] at hq
    exact ⟨hq, hq⟩

theorem staticRooms_outside {ids : Nat → Uuid} {appId : Uuid} {rooms : List RoomFacade.StaticRoom}
    (hq : db.store.ownsApp q appId = false) :
    Leaves (RoomFacade.createStaticRoomsFromConfig db ids appId rooms) (Outside q db.store) := by
  refine .commit { Outside.same db.store with rooms := filter_append_off fun r hr => ?_ }
  obtain ⟨i, declared, hi, rfl⟩ := mem_mapIdx_iff.1 hr
  exact hq

theorem roomGrant_create_outside {roomActorAccessId roomId : Uuid}
    {dto : RoomActorAccessFacade.RoomActorAccessCreateDto}
    (hroom : db.store.ownsRoom q roomId = false)
    (hactor : dto.actorTokenId.any (db.store.ownsActor q) = false) :
    Leaves (RoomActorAccessFacade.create host.legacy db roomActorAccessId roomId dto)
      (Outside q db.store) := by
  unfold RoomActorAccessFacade.create
  split
  · exact .error
  · split
    · exact .error
    · split
      · exact .error
      · split
        · exact .error
        · refine .commit { Outside.same db.store with
            roomActorAccess := filter_append_off fun r hr => ?_ }
          cases List.mem_singleton.1 hr
          exact Bool.or_eq_false_iff.2 ⟨hactor, hroom⟩

/-- A grant whose target has not moved touches what it touched. -/
theorem touches_of_samePlace {s : Store} {g g' : RoomActorAccess}
    (h : (Row.roomGrant g).SamePlace (.roomGrant g')) : Touches s q g' = Touches s q g := by
  unfold Touches
  rw [h.2.1, h.2.2.1]

theorem roomGrant_update_outside {roomActorAccessId : Uuid}
    {dto : RoomActorAccessFacade.RoomActorAccessUpdateDto}
    (hq : ∀ g ∈ db.store.roomActorAccess, g.roomActorAccessId = roomActorAccessId →
      Touches db.store q g = false) :
    Leaves (RoomActorAccessFacade.update host.legacy db roomActorAccessId dto)
      (Outside q db.store) := by
  unfold RoomActorAccessFacade.update
  split
  · exact .error
  · rename_i existing hf
    obtain ⟨hrow, _, hid⟩ := of_findOne hf
    have hold := hq existing hrow (of_decide_eq_true hid)
    split
    · exact .error
    · rename_i entity he
      obtain ⟨hplace, _⟩ := roomGrant_assign_place he
      exact .commit { Outside.same db.store with
        roomActorAccess := filter_saveRow_off db.valid.pkRoomGrant hrow hplace.1 hold
          ((touches_of_samePlace hplace).trans hold) }

theorem roomGrant_delete_outside {roomActorAccessId : Uuid}
    (hq : ∀ g ∈ db.store.roomActorAccess, g.roomActorAccessId = roomActorAccessId →
      Touches db.store q g = false) :
    Leaves (RoomActorAccessFacade.delete db now roomActorAccessId) (Outside q db.store) := by
  unfold RoomActorAccessFacade.delete
  split
  · exact .error
  · refine .commit { Outside.same db.store with
      roomActorAccess := filter_updateRows_off fun r hr hp => ?_ }
    have hold := hq r hr (of_decide_eq_true hp)
    exact ⟨hold, hold⟩

/-! ## Lobbies -/

theorem lobby_create_outside {lobbyId appId : Uuid} {data : LobbyFacade.LobbyCreateDto}
    (hq : db.store.ownsApp q appId = false) :
    Leaves (LobbyFacade.createLobby db lobbyId appId data) (Outside q db.store) := by
  unfold LobbyFacade.createLobby
  dsimp only
  split
  · exact .error
  · unfold LobbyFacade.insertLobby
    split
    · exact .error
    · refine .commit { Outside.same db.store with lobbies := filter_append_off fun r hr => ?_ }
      cases List.mem_singleton.1 hr
      exact hq

theorem lobby_update_outside {lobbyId appId : Uuid} {data : LobbyFacade.LobbyPatchDto}
    (hq : db.store.ownsApp q appId = false) :
    Leaves (LobbyFacade.updateLobby db lobbyId appId data) (Outside q db.store) := by
  unfold LobbyFacade.updateLobby
  split
  · exact .error
  · rename_i existing hf
    obtain ⟨hrow, _, hp⟩ := of_findOne hf
    rw [Bool.and_eq_true, decide_eq_true_eq, decide_eq_true_eq] at hp
    rw [← hp.2] at hq
    exact .commit { Outside.same db.store with
      lobbies := filter_saveRow_off db.valid.pkLobby hrow rfl hq hq }

theorem lobby_delete_outside {lobbyId appId : Uuid} (hq : db.store.ownsApp q appId = false) :
    Leaves (LobbyFacade.deleteLobby db now lobbyId appId) (Outside q db.store) := by
  unfold LobbyFacade.deleteLobby
  split
  · exact .error
  · refine .commit { Outside.same db.store with lobbies := filter_updateRows_off fun l _ hp => ?_ }
    simp only [Bool.and_eq_true, decide_eq_true_eq] at hp
    rw [← hp.1.2] at hq
    exact ⟨hq, hq⟩

/-- A lobby of an app outside the project is outside it. -/
theorem ownsLobby_off {lobbyId appId : Uuid} (hq : db.store.ownsApp q appId = false) {l : Lobby}
    (hl : l ∈ db.store.lobbies) (hid : l.lobbyId = lobbyId) (happ : l.appId = appId) :
    db.store.ownsLobby q lobbyId = false := by
  refine Bool.eq_false_iff.2 fun howns => ?_
  obtain ⟨l', hl', hid', howns'⟩ := Store.ownsLobby_iff.1 howns
  rw [db.valid.pkLobby.eq_of_key hl' hl (hid'.trans hid.symm), happ, hq] at howns'
  cases howns'

theorem filter_saveMember_off {p : LobbyRoom → Bool} {lr : LobbyRoom} {rows : List LobbyRoom}
    (h : p lr = false) : (LobbyFacade.saveMember lr rows).filter p = rows.filter p := by
  unfold LobbyFacade.saveMember
  split
  · rfl
  · refine filter_append_off fun r hr => ?_
    cases List.mem_singleton.1 hr
    exact h

theorem filter_saveMembers_off {p : LobbyRoom → Bool} {new rows : List LobbyRoom}
    (h : ∀ lr ∈ new, p lr = false) :
    (new.foldl (fun rows lr => LobbyFacade.saveMember lr rows) rows).filter p = rows.filter p := by
  induction new generalizing rows with
  | nil => rfl
  | cons lr new ih =>
    rw [List.foldl_cons, ih fun r hr => h r (List.mem_cons_of_mem _ hr)]
    exact filter_saveMember_off (h lr List.mem_cons_self)

theorem lobby_addRoom_outside {lobbyId roomId appId : Uuid}
    (hq : db.store.ownsApp q appId = false) :
    Leaves (LobbyFacade.addRoomToLobby db lobbyId roomId appId) (Outside q db.store) := by
  unfold LobbyFacade.addRoomToLobby
  dsimp only
  split
  · exact .error
  · rename_i hlobby
    obtain ⟨l, hl, _, hlp⟩ :=
      exists_of_findAll_pos (of_decide_eq_true (Bool.not_eq_false _ ▸ hlobby))
    simp only [Bool.and_eq_true, decide_eq_true_eq] at hlp
    split
    · exact .error
    · split
      · exact .error
      · split
        · exact .error
        · refine .commit { Outside.same db.store with lobbyRooms := filter_saveMember_off ?_ }
          rw [ownsLobby_off hq hl hlp.1 hlp.2, Bool.false_and]

theorem lobby_removeRoom_outside {lobbyId roomId appId : Uuid}
    (hq : db.store.ownsApp q appId = false) :
    Leaves (LobbyFacade.removeRoomFromLobby db lobbyId roomId appId) (Outside q db.store) := by
  unfold LobbyFacade.removeRoomFromLobby
  split
  · exact .error
  · rename_i l hf
    obtain ⟨hl, _, hlp⟩ := of_findOne hf
    simp only [Bool.and_eq_true, decide_eq_true_eq] at hlp
    refine .commit { Outside.same db.store with
      lobbyRooms := filter_deleteRows_off fun lr _ hp => ?_ }
    rw [Bool.and_eq_true, decide_eq_true_eq, decide_eq_true_eq] at hp
    rw [hp.1, ownsLobby_off hq hl hlp.1 hlp.2, Bool.false_and]

/-- The lobbies a declaration creates have ids that no stored lobby has. -/
theorem staticLobbies_outside {ids : Nat → Uuid} {appId : Uuid}
    {lobbies : List LobbyFacade.StaticLobby} {createdRooms : List (Uuid × String)}
    (hq : db.store.ownsApp q appId = false) :
    Leaves (LobbyFacade.createStaticLobbiesFromConfig db ids appId lobbies createdRooms)
      (fun s' => s'.SchemaValid → Outside q db.store s') := by
  refine .commit fun hv => { Outside.same db.store with
    lobbies := filter_append_off fun r hr => ?_
    lobbyRooms := filter_saveMembers_off fun lr hlr => ?_ }
  · obtain ⟨i, declared, _, rfl⟩ := mem_mapIdx_iff.1 hr
    exact hq
  · obtain ⟨i, lobby, declared, slug, hl, hd, _, _, hid⟩ := mem_staticMembers hlr
    have hnew : db.store.ownsLobby q lr.lobbyId = false := by
      refine Bool.eq_false_iff.2 fun howns => ?_
      obtain ⟨l, hold, hlid, _⟩ := Store.ownsLobby_iff.1 howns
      exact hv.pkLobby.ne_of_append hold (List.mem_of_getElem? hl) (hlid.trans hid)
    rw [hnew, Bool.false_and]

/-! ## Actors, their session state and signing keys -/

/-- An actor of another project is outside this one. -/
theorem ownsActor_off {actorTokenId projectId : Uuid} (hq : projectId ≠ q) {a : ActorToken}
    (ha : a ∈ db.store.actorTokens) (hid : a.actorTokenId = actorTokenId)
    (hp : a.projectId = projectId) : db.store.ownsActor q actorTokenId = false := by
  refine Bool.eq_false_iff.2 fun howns => ?_
  obtain ⟨a', ha', hid', hp'⟩ := Store.ownsActor_iff.1 howns
  rw [db.valid.pkActor.eq_of_key ha' ha (hid'.trans hid.symm)] at hp'
  exact hq (hp.symm.trans hp')

theorem actor_create_outside {actorTokenId projectId : Uuid} {random : CredentialBytes}
    {data : ActorTokenFacade.ActorTokenCreateDto} (hq : projectId ≠ q) :
    Leaves (ActorTokenFacade.createActorToken host.legacy host.crypto db actorTokenId random projectId
      data) (Outside q db.store) := by
  unfold ActorTokenFacade.createActorToken
  split
  · exact .error
  · dsimp only
    split
    · exact .error
    · refine .commit { Outside.same db.store with actorTokens := filter_append_off fun r hr => ?_ }
      cases List.mem_singleton.1 hr
      exact off hq rfl

theorem actor_update_outside {actorTokenId projectId : Uuid}
    {data : ActorTokenFacade.ActorTokenPatchDto} (hq : projectId ≠ q) :
    Leaves (ActorTokenFacade.updateActorToken host.legacy db actorTokenId projectId data)
      (Outside q db.store) := by
  unfold ActorTokenFacade.updateActorToken
  split
  · exact .error
  · split
    · exact .error
    · unfold ActorTokenFacade.patchActorToken
      split
      · exact .error
      · rename_i existing hf
        obtain ⟨hrow, _, hp⟩ := of_findOne hf
        rw [Bool.and_eq_true, decide_eq_true_eq, decide_eq_true_eq] at hp
        split
        · exact .error
        · rename_i entity he
          obtain ⟨hplace, _⟩ := actor_assign_place he
          exact .commit { Outside.same db.store with
            actorTokens := filter_saveRow_off db.valid.pkActor hrow hplace.1 (off hq hp.2)
              (off hq (hplace.2.1.trans hp.2)) }

theorem actor_delete_outside {actorTokenId projectId : Uuid} (hq : projectId ≠ q) :
    Leaves (ActorTokenFacade.deleteActorToken db now actorTokenId projectId)
      (Outside q db.store) := by
  unfold ActorTokenFacade.deleteActorToken
  split
  · exact .error
  · rename_i a hf
    obtain ⟨ha, _, hap⟩ := of_findOne hf
    rw [Bool.and_eq_true, decide_eq_true_eq, decide_eq_true_eq] at hap
    refine .commit { Outside.same db.store with
      actorTokenStates := filter_deleteRows_off fun st _ hp => ?_
      actorTokens := filter_updateRows_off fun r _ hp => ?_ }
    · simp only [Bool.and_eq_true, decide_eq_true_eq] at hp
      exact ⟨off hq hp.1.2, off hq hp.1.2⟩
    · rw [of_decide_eq_true hp]
      exact ownsActor_off hq ha hap.1 hap.2

/-- A state row is saved for the actor it was found by. -/
theorem state_saved_off {actorTokenId : Uuid} (hq : db.store.ownsActor q actorTokenId = false)
    {existing entity : ActorTokenState}
    (hf : findOne db.store.actorTokenStates (fun st => decide (st.actorTokenId = actorTokenId)) =
      some existing) (hkey : entity.actorTokenStateId = existing.actorTokenStateId)
    (hactor : entity.actorTokenId = existing.actorTokenId) :
    (saveRow (·.actorTokenStateId) entity db.store.actorTokenStates).filter
      (fun st => db.store.ownsActor q st.actorTokenId) =
    db.store.actorTokenStates.filter fun st => db.store.ownsActor q st.actorTokenId := by
  obtain ⟨hrow, _, hid⟩ := of_findOne hf
  rw [← of_decide_eq_true hid] at hq
  exact filter_saveRow_off db.valid.pkState hrow hkey hq (by rw [hactor]; exact hq)

theorem actorState_update_outside {actorTokenStateId actorTokenId : Uuid}
    {connectionState : ConnectionState} {krakenNodeId : Option String}
    (hq : db.store.ownsActor q actorTokenId = false) :
    Leaves (ActorTokenFacade.updateActorState db actorTokenStateId actorTokenId connectionState
      krakenNodeId) (Outside q db.store) := by
  unfold ActorTokenFacade.updateActorState
  split
  · rename_i existing hf
    exact .commit { Outside.same db.store with
      actorTokenStates := state_saved_off hq hf rfl rfl }
  · refine .commit { Outside.same db.store with
      actorTokenStates := filter_append_off fun r hr => ?_ }
    cases List.mem_singleton.1 hr
    exact hq

theorem actorState_clear_outside {actorTokenId : Uuid}
    (hq : db.store.ownsActor q actorTokenId = false) :
    Leaves (ActorTokenFacade.clearActorState db actorTokenId) (Outside q db.store) := by
  refine .commit { Outside.same db.store with
    actorTokenStates := filter_deleteRows_off fun st _ hp => ?_ }
  rw [of_decide_eq_true hp]
  exact hq

theorem subscription_update_outside {actorTokenStateId : Uuid} {dto : Authz.SubscriptionUpdate}
    (hq : db.store.ownsActor q dto.actorTokenId = false) :
    Leaves (Authz.updateSubscription db now actorTokenStateId dto) (Outside q db.store) := by
  unfold Authz.updateSubscription
  split
  · rename_i existing hf
    exact .commit { Outside.same db.store with
      actorTokenStates := state_saved_off hq hf rfl rfl }
  · refine .commit { Outside.same db.store with
      actorTokenStates := filter_append_off fun r hr => ?_ }
    cases List.mem_singleton.1 hr
    exact hq

theorem subscription_clear_outside {actorTokenId : Uuid}
    (hq : db.store.ownsActor q actorTokenId = false) :
    Leaves (Authz.clearSubscriptions db now actorTokenId) (Outside q db.store) := by
  unfold Authz.clearSubscriptions
  split
  · exact .unchanged (.same db.store)
  · rename_i existing hf
    exact .commit { Outside.same db.store with
      actorTokenStates := state_saved_off hq hf rfl rfl }

theorem signingKey_create_outside {signingKeyId projectId : Uuid}
    {random : SigningKeyFacade.SigningKeyBytes} {data : SigningKeyFacade.SigningKeyCreateDto}
    (hq : projectId ≠ q) :
    Leaves (SigningKeyFacade.createSigningKey host.crypto host.cipher host.config db signingKeyId
      random projectId data) (Outside q db.store) := by
  unfold SigningKeyFacade.createSigningKey
  dsimp only
  split
  · exact .error
  · refine .commit { Outside.same db.store with signingKeys := filter_append_off fun r hr => ?_ }
    cases List.mem_singleton.1 hr
    exact off hq rfl

theorem signingKey_update_outside {signingKeyId projectId : Uuid}
    {data : SigningKeyFacade.SigningKeyPatchDto} (hq : projectId ≠ q) :
    Leaves (SigningKeyFacade.updateSigningKey db signingKeyId projectId data)
      (Outside q db.store) := by
  unfold SigningKeyFacade.updateSigningKey
  split
  · exact .error
  · unfold SigningKeyFacade.patchSigningKey
    split
    · exact .error
    · rename_i existing hf
      obtain ⟨hrow, _, hp⟩ := of_findOne hf
      rw [Bool.and_eq_true, decide_eq_true_eq, decide_eq_true_eq] at hp
      exact .commit { Outside.same db.store with
        signingKeys := filter_saveRow_off db.valid.pkSigningKey hrow rfl (off hq hp.2)
          (off hq hp.2) }

theorem signingKey_delete_outside {signingKeyId projectId : Uuid} (hq : projectId ≠ q) :
    Leaves (SigningKeyFacade.deleteSigningKey db now signingKeyId projectId)
      (Outside q db.store) := by
  unfold SigningKeyFacade.deleteSigningKey
  split
  · exact .error
  · refine .commit { Outside.same db.store with
      signingKeys := filter_updateRows_off fun r _ hp => ?_ }
    simp only [Bool.and_eq_true, decide_eq_true_eq] at hp
    exact ⟨off hq hp.1.2, off hq hp.1.2⟩

/-! ## Whole projects -/

/-- An id that no stored app, room or actor has is outside every project. -/
theorem ownsApp_of_lacks {s : Store} {appId : Uuid} (h : ∀ a ∈ s.apps, a.appId ≠ appId) :
    s.ownsApp q appId = false := by
  refine Bool.eq_false_iff.2 fun howns => ?_
  obtain ⟨a, ha, hid, _⟩ := Store.ownsApp_iff.1 howns
  exact h a ha hid

theorem ownsRoom_of_lacks {s : Store} {roomId : Uuid} (h : ∀ r ∈ s.rooms, r.roomId ≠ roomId) :
    s.ownsRoom q roomId = false := by
  refine Bool.eq_false_iff.2 fun howns => ?_
  obtain ⟨r, hr, hid, _⟩ := Store.ownsRoom_iff.1 howns
  exact h r hr hid

theorem ownsLobby_of_lacks {s : Store} {lobbyId : Uuid} (h : ∀ l ∈ s.lobbies, l.lobbyId ≠ lobbyId) :
    s.ownsLobby q lobbyId = false := by
  refine Bool.eq_false_iff.2 fun howns => ?_
  obtain ⟨l, hl, hid, _⟩ := Store.ownsLobby_iff.1 howns
  exact h l hl hid

theorem ownsActor_of_lacks {s : Store} {actorTokenId : Uuid}
    (h : ∀ a ∈ s.actorTokens, a.actorTokenId ≠ actorTokenId) :
    s.ownsActor q actorTokenId = false := by
  refine Bool.eq_false_iff.2 fun howns => ?_
  obtain ⟨a, ha, hid, _⟩ := Store.ownsActor_iff.1 howns
  exact h a ha hid

section Import

variable {draws : Draws} {doc : ProjectConfigDoc} {s d : Store} (hv : (s.append d).SchemaValid)
  (hd : Yields d (DocRows host draws now doc))

include hv hd

/-! The apps, rooms, lobbies and actors of a document have new ids. -/

theorem docApp_outside {i : Nat} {app : AppDoc} (hi : (doc.apps.getD [])[i]? = some app) :
    s.ownsApp q (draws.app i) = false :=
  ownsApp_of_lacks (lacks_of_append hv
    (hd.complete (.app (appRow draws i app)) rfl (docRows_app.2 ⟨i, app, hi, rfl⟩)))

theorem docRoom_outside {i j : Nat} {app : AppDoc} {room : RoomDoc}
    (hi : (doc.apps.getD [])[i]? = some app) (hj : (app.rooms.getD [])[j]? = some room) :
    s.ownsRoom q (draws.room i j) = false :=
  ownsRoom_of_lacks (lacks_of_append hv
    (hd.complete (.room (roomRow draws i j room)) rfl (docRows_room.2 ⟨i, app, j, room, hi, hj, rfl⟩)))

theorem docLobby_outside {i j : Nat} {app : AppDoc} {lobby : LobbyDoc}
    (hi : (doc.apps.getD [])[i]? = some app) (hj : (app.lobbies.getD [])[j]? = some lobby) :
    s.ownsLobby q (draws.lobby i j) = false :=
  ownsLobby_of_lacks (lacks_of_append hv
    (hd.complete (.lobby (lobbyRow draws i j lobby)) rfl
      (docRows_lobby.2 ⟨i, app, j, lobby, hi, hj, rfl⟩)))

theorem docActor_outside
    (hactors : ∀ actor ∈ doc.actors.getD [], ActorResolved host draws doc actor) {i : Nat}
    {actor : ActorDoc} (hi : (doc.actors.getD [])[i]? = some actor) :
    s.ownsActor q (draws.actor i) = false := by
  have hres := hactors actor (List.mem_of_getElem? hi)
  obtain ⟨accessScopeId, hscope⟩ := hres.scope
  obtain ⟨expiresAt, hdate⟩ := hres.expiresAt
  exact ownsActor_of_lacks (lacks_of_append hv (hd.complete
    (.actorToken (actorRow host draws i actor accessScopeId expiresAt)) rfl
    (docRows_actorToken.2 ⟨i, actor, accessScopeId, expiresAt, hi, hscope, hdate, rfl⟩)))

omit hv in
/-- An import brings no sessions. -/
theorem states_of_doc : d.actorTokenStates = [] := by
  refine List.eq_nil_iff_forall_not_mem.2 fun r hr => ?_
  rcases hd.sound (.actorTokenState r) hr with _ | _ | ⟨_, hrow⟩ | ⟨_, hrow⟩ | _
  · rcases hrow with _ | ⟨_, hrow⟩ | ⟨_, hrow⟩ <;> cases hrow
  · cases hrow

theorem import_outside (hq : draws.project ≠ q)
    (hactors : ∀ actor ∈ doc.actors.getD [], ActorResolved host draws doc actor) :
    Outside q s (s.append d) where
  projects := by
    refine filter_append_off fun r hr => ?_
    rcases hd.sound (.project r) hr with _ | _ | ⟨_, hrow⟩ | ⟨_, hrow⟩ | _
    · exact off hq rfl
    · exact absurd hrow not_appRows_project
    · exact absurd hrow not_actorRows_project
  accessScopes := by
    refine filter_append_off fun r hr => ?_
    obtain ⟨i, scope, _, rfl⟩ := docRows_scope.1 (hd.sound (.accessScope r) hr)
    exact off hq rfl
  apps := by
    refine filter_append_off fun r hr => ?_
    obtain ⟨i, app, _, rfl⟩ := docRows_app.1 (hd.sound (.app r) hr)
    exact off hq rfl
  rooms := by
    refine filter_append_off fun r hr => ?_
    obtain ⟨i, app, j, room, hi, _, rfl⟩ := docRows_room.1 (hd.sound (.room r) hr)
    exact docApp_outside hv hd hi
  roomActorAccess := by
    refine filter_append_off fun r hr => Bool.or_eq_false_iff.2 ?_
    rcases docRows_roomGrant.1 (hd.sound (.roomGrant r) hr) with
      ⟨i, app, j, room, k, grant, hi, hj, _, rfl⟩ | ⟨i, actor, j, grant, roomId, _, hi, _, hget, _, rfl⟩
    · exact ⟨rfl, docRoom_outside hv hd hi hj⟩
    · obtain ⟨k, app, l, room, hk, hl, _, hid⟩ := of_roomIdByAppAndSlug hget
      refine ⟨docActor_outside hv hd hactors hi, ?_⟩
      show s.ownsRoom q roomId = false
      rw [← hid]
      exact docRoom_outside hv hd hk hl
  lobbies := by
    refine filter_append_off fun r hr => ?_
    obtain ⟨i, app, j, lobby, hi, _, rfl⟩ := docRows_lobby.1 (hd.sound (.lobby r) hr)
    exact docApp_outside hv hd hi
  lobbyRooms := by
    refine filter_append_off fun r hr => ?_
    obtain ⟨i, app, j, lobby, slug, hi, hj, _, hid⟩ := docRows_lobbyRoom (hd.sound (.lobbyRoom r) hr)
    rw [hid, docLobby_outside hv hd hi hj, Bool.false_and]
  actorTokens := by
    refine filter_append_off fun r hr => ?_
    obtain ⟨i, actor, _, _, _, _, _, rfl⟩ := docRows_actorToken.1 (hd.sound (.actorToken r) hr)
    exact off hq rfl
  actorTokenStates := by
    rw [Store.actorTokenStates_append, states_of_doc hd, List.append_nil]
  actorAppAccess := by
    refine filter_append_off fun r hr => ?_
    obtain ⟨i, actor, j, grant, appId, _, hi, _, _, _, rfl⟩ :=
      docRows_appGrant.1 (hd.sound (.appGrant r) hr)
    exact docActor_outside hv hd hactors hi
  signingKeys := by
    refine filter_append_off fun r hr => ?_
    rcases hd.sound (.signingKey r) hr with _ | _ | ⟨_, hrow⟩ | ⟨_, hrow⟩ | _
    · rcases hrow with _ | ⟨_, hrow⟩ | ⟨_, hrow⟩ <;> cases hrow
    · cases hrow
    · exact off hq rfl

end Import

/-- The second removal of the actors finds none. -/
theorem deleteActors_twice (projectId : Uuid) (s : Store) :
    ProjectConfigFacade.deleteActors projectId (ProjectConfigFacade.deleteActors projectId s) =
      ProjectConfigFacade.deleteActors projectId s := by
  simp [ProjectConfigFacade.deleteActors, deleteRows, List.filter_filter]

section Purge

variable {projectId : Uuid} {s : Store} (hv : s.SchemaValid)

/-! What is outside the removed project keeps the rows it hangs under. -/

theorem appKept {appId : Uuid} (hoff : s.ownsApp projectId appId = false)
    (hex : ∃ a ∈ s.apps, a.appId = appId) :
    (deleteRows (fun a => decide (a.projectId = projectId)) s.apps).any
      (fun a => decide (a.appId = appId)) = true := by
  obtain ⟨a, ha, hid⟩ := hex
  refine List.any_eq_true.2 ⟨a, List.mem_filter.2 ⟨ha, ?_⟩, decide_eq_true hid⟩
  rw [Bool.not_eq_true', decide_eq_false_iff_not]
  intro hp
  rw [Store.ownsApp_iff.2 ⟨a, ha, hid, hp⟩] at hoff
  cases hoff

theorem actorKept {actorTokenId : Uuid} (hoff : s.ownsActor projectId actorTokenId = false)
    (hex : ∃ a ∈ s.actorTokens, a.actorTokenId = actorTokenId) :
    (deleteRows (fun a => decide (a.projectId = projectId)) s.actorTokens).any
      (fun a => decide (a.actorTokenId = actorTokenId)) = true := by
  obtain ⟨a, ha, hid⟩ := hex
  refine List.any_eq_true.2 ⟨a, List.mem_filter.2 ⟨ha, ?_⟩, decide_eq_true hid⟩
  rw [Bool.not_eq_true', decide_eq_false_iff_not]
  intro hp
  rw [Store.ownsActor_iff.2 ⟨a, ha, hid, hp⟩] at hoff
  cases hoff

include hv

theorem roomKept {roomId : Uuid} (hoff : s.ownsRoom projectId roomId = false)
    (hex : ∃ r ∈ s.rooms, r.roomId = roomId) :
    (s.rooms.filter fun r => (deleteRows (fun a => decide (a.projectId = projectId)) s.apps).any
      fun a => decide (a.appId = r.appId)).any (fun r => decide (r.roomId = roomId)) = true := by
  obtain ⟨r, hr, hid⟩ := hex
  have happ : s.ownsApp projectId r.appId = false := by
    refine Bool.eq_false_iff.2 fun howns => ?_
    rw [Store.ownsRoom_iff.2 ⟨r, hr, hid, howns⟩] at hoff
    cases hoff
  exact List.any_eq_true.2 ⟨r, List.mem_filter.2 ⟨hr, appKept happ (hv.fkRoomApp r hr _ rfl)⟩,
    decide_eq_true hid⟩

/-! A row is of one project only. -/

theorem ownsApp_apart (hq : projectId ≠ q) {appId : Uuid} (h : s.ownsApp q appId = true) :
    s.ownsApp projectId appId = false := by
  obtain ⟨a, ha, hid, hp⟩ := Store.ownsApp_iff.1 h
  refine Bool.eq_false_iff.2 fun howns => ?_
  obtain ⟨a', ha', hid', hp'⟩ := Store.ownsApp_iff.1 howns
  rw [hv.pkApp.eq_of_key ha' ha (hid'.trans hid.symm), hp] at hp'
  exact hq hp'.symm

theorem ownsActor_apart (hq : projectId ≠ q) {actorTokenId : Uuid}
    (h : s.ownsActor q actorTokenId = true) : s.ownsActor projectId actorTokenId = false := by
  obtain ⟨a, ha, hid, hp⟩ := Store.ownsActor_iff.1 h
  refine Bool.eq_false_iff.2 fun howns => ?_
  obtain ⟨a', ha', hid', hp'⟩ := Store.ownsActor_iff.1 howns
  rw [hv.pkActor.eq_of_key ha' ha (hid'.trans hid.symm), hp] at hp'
  exact hq hp'.symm

theorem ownsRoom_apart (hq : projectId ≠ q) {roomId : Uuid} (h : s.ownsRoom q roomId = true) :
    s.ownsRoom projectId roomId = false := by
  obtain ⟨r, hr, hid, happ⟩ := Store.ownsRoom_iff.1 h
  refine Bool.eq_false_iff.2 fun howns => ?_
  obtain ⟨r', hr', hid', happ'⟩ := Store.ownsRoom_iff.1 howns
  rw [hv.pkRoom.eq_of_key hr' hr (hid'.trans hid.symm), ownsApp_apart hv hq happ] at happ'
  cases happ'

theorem purge_outside (hq : projectId ≠ q)
    (hroom : ∀ g ∈ s.roomActorAccess, Touches s q g = true → Touches s projectId g = false)
    (happ : ∀ g ∈ s.actorAppAccess, s.ownsActor q g.actorTokenId = true →
      s.ownsApp projectId g.appId = false) :
    Outside q s (ProjectConfigFacade.deleteProjectRow projectId
      (ProjectConfigFacade.deleteActors projectId s)) := by
  unfold ProjectConfigFacade.deleteProjectRow
  rw [deleteActors_twice]
  refine
    { projects := filter_deleteRows_off fun r _ hp => off hq (of_decide_eq_true hp)
      accessScopes := filter_deleteRows_off fun r _ hp => off hq (of_decide_eq_true hp)
      apps := filter_deleteRows_off fun r _ hp => off hq (of_decide_eq_true hp)
      actorTokens := filter_deleteRows_off fun r _ hp => off hq (of_decide_eq_true hp)
      signingKeys := filter_deleteRows_off fun r _ hp => off hq (of_decide_eq_true hp)
      rooms := filter_filter_off fun r _ howns => ?_
      lobbies := filter_filter_off fun l _ howns => ?_
      lobbyRooms := filter_filter_off fun lr _ howns => ?_
      roomActorAccess := ?_
      actorTokenStates := filter_filter_off fun st _ howns => ?_
      actorAppAccess := ?_ }
  · obtain ⟨a, ha, hid, _⟩ := Store.ownsApp_iff.1 howns
    exact appKept (ownsApp_apart hv hq howns) ⟨a, ha, hid⟩
  · refine (filter_filter_off fun g hg howns => ?_).trans
      (filter_filter_off fun g hg howns => ?_)
    · have hg' := List.mem_of_mem_filter hg
      exact roomKept hv (Bool.or_eq_false_iff.1 (hroom g hg' howns)).2 (hv.fkGrantRoom g hg' _ rfl)
    · cases hactor : g.actorTokenId with
      | none => rfl
      | some actorTokenId =>
        have hoff := (Bool.or_eq_false_iff.1 (hroom g hg howns)).1
        rw [hactor] at hoff
        exact actorKept hoff (hv.fkGrantActor g hg actorTokenId hactor)
  · obtain ⟨a, ha, hid, _⟩ := Store.ownsApp_iff.1 howns
    exact appKept (ownsApp_apart hv hq howns) ⟨a, ha, hid⟩
  · rw [Bool.and_eq_true] at howns ⊢
    obtain ⟨l, hl, hlid, hlapp⟩ := Store.ownsLobby_iff.1 howns.1
    obtain ⟨r, hr, hrid, _⟩ := Store.ownsRoom_iff.1 howns.2
    obtain ⟨a, ha, haid, _⟩ := Store.ownsApp_iff.1 hlapp
    refine ⟨List.any_eq_true.2 ⟨l, List.mem_filter.2 ⟨hl, ?_⟩, decide_eq_true hlid⟩,
      roomKept hv (ownsRoom_apart hv hq howns.2) ⟨r, hr, hrid⟩⟩
    exact appKept (ownsApp_apart hv hq hlapp) ⟨a, ha, haid⟩
  · obtain ⟨a, ha, hid, _⟩ := Store.ownsActor_iff.1 howns
    exact actorKept (ownsActor_apart hv hq howns) ⟨a, ha, hid⟩
  · refine (filter_filter_off fun g hg howns => ?_).trans
      (filter_filter_off fun g hg howns => ?_)
    · have hg' := List.mem_of_mem_filter hg
      exact appKept (happ g hg' howns) (hv.fkAppGrantApp g hg' _ rfl)
    · obtain ⟨a, ha, hid, _⟩ := Store.ownsActor_iff.1 howns
      exact actorKept (ownsActor_apart hv hq howns) ⟨a, ha, hid⟩

end Purge

/-! ## Runs -/

/-- An operation that names no row of a project changes none. -/
theorem run_outside {op : Operation} {db' : Database} (h : op.run host now db = .ok db')
    (havoid : Avoids q db.store op) : Outside q db.store db'.store := by
  cases op with
  | createProject projectId dto => exact (project_create_outside havoid).committed h
  | updateProject projectId dto => exact (project_update_outside havoid).committed h
  | syncLimits projectId limits => exact (project_limits_outside havoid).committed h
  | deleteProject projectId => exact (project_delete_outside havoid).committed h
  | createScope accessScopeId projectId dto => exact (scope_create_outside havoid).committed h
  | updateScope accessScopeId projectId dto => exact (scope_update_outside havoid).committed h
  | deleteScope accessScopeId projectId => exact (scope_delete_outside havoid).committed h
  | createApp appId projectId dto => exact (app_create_outside havoid).committed h
  | updateApp appId projectId dto => exact (app_update_outside havoid).committed h
  | deleteApp appId projectId => exact (app_delete_outside havoid).committed h
  | createRoom roomId appId data => exact (room_create_outside havoid).committed h
  | ensureRoom roomId appId data maxRooms => exact (room_ensure_outside havoid).committed h
  | updateRoom roomId appId data => exact (room_update_outside havoid).committed h
  | deleteRoom roomId appId => exact (room_delete_outside havoid).committed h
  | createStaticRooms ids appId rooms => exact (staticRooms_outside havoid).committed h
  | createRoomGrant roomActorAccessId roomId dto =>
    exact (roomGrant_create_outside havoid.1 havoid.2).committed h
  | updateRoomGrant roomActorAccessId dto => exact (roomGrant_update_outside havoid).committed h
  | deleteRoomGrant roomActorAccessId => exact (roomGrant_delete_outside havoid).committed h
  | createLobby lobbyId appId data => exact (lobby_create_outside havoid).committed h
  | updateLobby lobbyId appId data => exact (lobby_update_outside havoid).committed h
  | deleteLobby lobbyId appId => exact (lobby_delete_outside havoid).committed h
  | addRoomToLobby lobbyId roomId appId => exact (lobby_addRoom_outside havoid).committed h
  | removeRoomFromLobby lobbyId roomId appId => exact (lobby_removeRoom_outside havoid).committed h
  | createStaticLobbies ids appId lobbies createdRooms =>
    exact (staticLobbies_outside havoid).committed h db'.valid
  | createActorToken actorTokenId random projectId data =>
    exact (actor_create_outside havoid).committed h
  | updateActorToken actorTokenId projectId data => exact (actor_update_outside havoid).committed h
  | deleteActorToken actorTokenId projectId => exact (actor_delete_outside havoid).committed h
  | updateActorState actorTokenStateId actorTokenId connectionState krakenNodeId =>
    exact (actorState_update_outside havoid).committed h
  | clearActorState actorTokenId => exact (actorState_clear_outside havoid).committed h
  | updateSubscription actorTokenStateId dto =>
    exact (subscription_update_outside havoid).committed h
  | clearSubscriptions actorTokenId => exact (subscription_clear_outside havoid).committed h
  | createSigningKey signingKeyId random projectId data =>
    exact (signingKey_create_outside havoid).committed h
  | updateSigningKey signingKeyId projectId data =>
    exact (signingKey_update_outside havoid).committed h
  | deleteSigningKey signingKeyId projectId =>
    exact (signingKey_delete_outside havoid).committed h
  | importProject draws doc =>
    obtain ⟨credentials, him⟩ := import_done h
    obtain ⟨d, hd, hs⟩ := him.rows
    rw [hs]
    exact import_outside (hs ▸ db'.valid) hd havoid him.actors
  | purgeProject projectId =>
    have hleaves : Leaves (ProjectConfigFacade.deleteProject db projectId) (Outside q db.store) := by
      unfold ProjectConfigFacade.deleteProject
      split
      · exact .error
      · exact .commit (purge_outside db.valid havoid.1 havoid.2.1 havoid.2.2)
    exact hleaves.committed h

end

/-! ## Answers -/

/-- App grants that join an actor and an app of one project lead nowhere else. -/
theorem stayHome_of_appGrantsHome {q : Uuid} {s : Store} {now : Int} {actorTokenId : Uuid}
    (hI : AppGrantsHome s) (howns : s.ownsActor q actorTokenId = true) :
    Authz.GrantsStayHome s now q actorTokenId := by
  intro g app hg happ _ _
  obtain ⟨a, ha, hid, hp⟩ := Store.ownsActor_iff.1 howns
  rw [← hp]
  exact hI g hg.row hg.isLive a ha (hg.actor.trans hid.symm) app happ hg.onApp

/-- Stores that agree on a project answer its actors alike. -/
theorem answers_of_outside (config : CoreConfig) {q : Uuid} {db db' : Database}
    (h : Outside q db.store db'.store) (hI : AppGrantsHome db.store)
    (hI' : AppGrantsHome db'.store) {actorTokenId : IdText}
    (howns : db.store.ownsActor q actorTokenId.uuid = true) (now : Int) :
    Authz.revalidateActor config db'.store now actorTokenId.uuid =
        Authz.revalidateActor config db.store now actorTokenId.uuid ∧
      ∀ pattern, Authz.checkRoomAccess db'.store now actorTokenId pattern =
        Authz.checkRoomAccess db.store now actorTokenId pattern := by
  have howns' : db'.store.ownsActor q actorTokenId.uuid = true := by
    rw [h.ownsActor]
    exact howns
  refine ⟨?_, fun pattern => ?_⟩
  · rw [← Authz.revalidateActor_ofProject db'.valid howns'
        fun _ _ _ => stayHome_of_appGrantsHome hI' howns', h.ofProject,
      Authz.revalidateActor_ofProject db.valid howns
        fun _ _ _ => stayHome_of_appGrantsHome hI howns]
  · rw [← Authz.checkRoomAccess_ofProject db'.valid howns', h.ofProject,
      Authz.checkRoomAccess_ofProject db.valid howns]

theorem appGrantsHome_run {host : Host} {run : List (Int × Operation)} {db db' : Database}
    (hI : AppGrantsHome db.store) (hrun : exec (configure host) db run = some db') :
    AppGrantsHome db'.store := by
  refine exec_invariant (I := fun db => AppGrantsHome db.store) (C := fun _ _ => True) ?_ run db db'
    hI (.of_forall fun _ _ => trivial) hrun
  intro db l db' hI _ hstep
  cases hstep
  unfold Operation.apply
  split
  · rename_i db' hok
    exact appGrantsHome_step hI hok
  · exact hI

/-- Operations that name no row of a project leave its rows as they were, and with them the session
and every subscribe-time check of each of its actors. -/
theorem neighbours_undisturbed (host : Host) (config : CoreConfig)
    (before later : List (Int × Operation)) (db db' : Database) (q : Uuid)
    (hbefore : exec (configure host) Database.empty before = some db)
    (hlater : exec (configure host) db later = some db')
    (havoid : Meets (configure host) (fun db l => Avoids q db.store l.2) db later) :
    db'.store.ofProject q = db.store.ofProject q ∧
      ∀ actorTokenId : IdText, db.store.ownsActor q actorTokenId.uuid = true → ∀ now,
        Authz.revalidateActor config db'.store now actorTokenId.uuid =
            Authz.revalidateActor config db.store now actorTokenId.uuid ∧
          ∀ pattern, Authz.checkRoomAccess db'.store now actorTokenId pattern =
            Authz.checkRoomAccess db.store now actorTokenId pattern := by
  have hI := appGrantsHome_run appGrantsHome_empty hbefore
  -- the rows of `q` are those of the first state after every step of the later run
  have hsame : Outside q db.store db'.store := by
    refine exec_invariant (I := fun db' => Outside q db.store db'.store) ?_ later db db' (.same _)
      havoid hlater
    intro db₁ l db₂ hbeside hC hstep
    cases hstep
    unfold Operation.apply
    split
    · rename_i db₂ hok
      exact hbeside.trans (run_outside hok hC)
    · exact hbeside
  exact ⟨hsame.ofProject, fun actorTokenId howns now =>
    answers_of_outside config hsame hI (appGrantsHome_run hI hlater) howns now⟩

/-- The life of a second project beside the sample one, to the removal of its rows. -/
def neighbourLife : List (Int × Operation) :=
  [(1, .createProject (.of "q") { name := "Neighbour" }),
    (1, .createApp (.of "app2") (.of "q") { slug := some "chat", name := "Chat", topics := ["x"] }),
    (1, .createRoom (.of "room2") (.of "app2") { slug := some "lobby", name := "Lobby" }),
    (2, .purgeProject (.of "q"))]

theorem neighbours_undisturbed_purged :
    ∃ db, exec (configure sampleHost) Database.empty sampleSetup = some db ∧
      ∃ db', exec (configure sampleHost) db neighbourLife = some db' ∧
      Authz.checkRoomAccess db'.store 3 (.of "t1") "chat/lobby/messages" =
        Authz.checkRoomAccess db.store 3 (.of "t1") "chat/lobby/messages" := by
  refine ⟨_, rfl, _, rfl, ?_⟩
  refine ((neighbours_undisturbed sampleHost {} sampleSetup neighbourLife _ _ (.of "p") rfl rfl
    ?_).2 (.of "t1") (by decide) 3).2 _
  have hne : Uuid.of "q" ≠ .of "p" := by decide
  refine ⟨hne, fun db₁ h₁ => ⟨hne, fun db₂ h₂ => ⟨?_, fun db₃ h₃ => ⟨?_, ?_⟩⟩⟩⟩
  · cases h₁
    cases h₂
    show Store.ownsApp _ _ _ = false
    decide
  · cases h₁
    cases h₂
    cases h₃
    refine ⟨hne, fun g hg => ?_, fun g hg => ?_⟩
    · cases hg
    · cases hg
  · intro db₄ _
    trivial

end Facade
end NolagCore
