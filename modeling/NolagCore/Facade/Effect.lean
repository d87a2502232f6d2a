import NolagCore.Facade.Operation
import NolagCore.ProjectConfig.ImportSpec

/-!
# Facade.Effect

What an operation can do to the rows that decide whether a session may exist: projects and actors.
Most operations touch neither table; the others are listed once, by case, so that an invariant of
these rows is a short case analysis.
-/

namespace NolagCore
namespace Facade

open Lib ProjectConfig

/-! ## Outcomes -/

/-- Whatever `o` commits satisfies `P`. -/
def Leaves {α : Type} (o : Outcome α) (P : Store → Prop) : Prop :=
  ∀ a db', o = .ok (a, db') → P db'.store

section

variable {α : Type} {P : Store → Prop}

theorem Leaves.error {e : CoreError} : Leaves (.error e : Outcome α) P := by
  intro a db' h
  cases h

theorem Leaves.unchanged {a : α} {db : Database} (h : P db.store) :
    Leaves (.ok (a, db) : Outcome α) P := by
  intro b db' hb
  cases hb
  exact h

theorem Leaves.commit {s : Store} {a : α} (h : P s) : Leaves (commit s a) P := by
  intro b db' hb
  rw [(commit_ok hb).2]
  exact h

theorem Leaves.committed {o : Outcome α} (h : Leaves o P) {db' : Database}
    (hrun : committed o = .ok db') : P db'.store := by
  unfold Facade.committed at hrun
  split at hrun
  · cases hrun
    exact h _ _ rfl
  · cases hrun

end

/-- No project and no actor row has changed. -/
def SameTenancy (s s' : Store) : Prop :=
  s'.projects = s.projects ∧ s'.actorTokens = s.actorTokens

/-- Only the rows of rooms have changed. -/
def OnlyRooms (s s' : Store) : Prop := ∃ rooms, s' = { s with rooms := rooms }

theorem OnlyRooms.sameTenancy {s s' : Store} (h : OnlyRooms s s') : SameTenancy s s' := by
  obtain ⟨rooms, rfl⟩ := h
  exact ⟨rfl, rfl⟩

section

variable {host : Host} {now : Int} {db : Database}

/-! ## Operations on other tables -/

theorem scope_create_same {accessScopeId projectId : Uuid}
    {dto : AccessScopeFacade.AccessScopeCreateDto} :
    Leaves (AccessScopeFacade.create db accessScopeId projectId dto) (SameTenancy db.store) := by
  unfold AccessScopeFacade.create
  split
  · exact .error
  · exact .commit ⟨rfl, rfl⟩

theorem scope_update_same {accessScopeId projectId : Uuid}
    {dto : AccessScopeFacade.AccessScopePatchDto} :
    Leaves (AccessScopeFacade.update db accessScopeId projectId dto) (SameTenancy db.store) := by
  unfold AccessScopeFacade.update
  split
  · exact .error
  · exact .commit ⟨rfl, rfl⟩

theorem scope_delete_same {accessScopeId projectId : Uuid} :
    Leaves (AccessScopeFacade.delete db now accessScopeId projectId) (SameTenancy db.store) := by
  unfold AccessScopeFacade.delete
  split
  · exact .error
  · dsimp only
    split
    · exact .error
    · exact .commit ⟨rfl, rfl⟩

theorem app_create_same {appId projectId : Uuid} {dto : PlatformAppFacade.PlatformAppCreateDto} :
    Leaves (PlatformAppFacade.createApp db appId projectId dto) (SameTenancy db.store) := by
  unfold PlatformAppFacade.createApp
  dsimp only
  split
  · exact .error
  · exact .commit ⟨rfl, rfl⟩

theorem app_update_same {appId projectId : Uuid} {dto : PlatformAppFacade.PlatformAppPatchDto} :
    Leaves (PlatformAppFacade.updateApp db appId projectId dto) (SameTenancy db.store) := by
  unfold PlatformAppFacade.updateApp
  split
  · exact .error
  · exact .commit ⟨rfl, rfl⟩

theorem app_delete_same {appId projectId : Uuid} :
    Leaves (PlatformAppFacade.deleteApp db now appId projectId) (SameTenancy db.store) := by
  unfold PlatformAppFacade.deleteApp
  split
  · exact .error
  · exact .commit ⟨rfl, rfl⟩

theorem room_create_rooms {roomId appId : Uuid} {data : RoomFacade.RoomCreateDto} :
    Leaves (RoomFacade.createRoom db roomId appId data) (OnlyRooms db.store) := by
  unfold RoomFacade.createRoom
  dsimp only
  split
  · exact .error
  · unfold RoomFacade.insertRoom
    split
    · exact .error
    · exact .commit ⟨_, rfl⟩

theorem room_ensure_rooms {roomId appId : Uuid} {data : RoomFacade.RoomCreateDto} {maxRooms : Nat} :
    Leaves (RoomFacade.ensureRoom db roomId appId data maxRooms) (OnlyRooms db.store) := by
  unfold RoomFacade.ensureRoom
  dsimp only
  split
  · exact .unchanged ⟨_, rfl⟩
  · split
    · exact .error
    · split
      · rename_i hr
        intro a db' h
        cases h
        exact room_create_rooms _ _ hr
      · split
        · exact .unchanged ⟨_, rfl⟩
        · exact .error

theorem room_update_rooms {roomId appId : Uuid} {data : RoomFacade.RoomPatchDto} :
    Leaves (RoomFacade.updateRoom db roomId appId data) (OnlyRooms db.store) := by
  unfold RoomFacade.updateRoom
  split
  · exact .error
  · unfold RoomFacade.patchRoom
    split
    · exact .error
    · exact .commit ⟨_, rfl⟩

theorem room_delete_rooms {roomId appId : Uuid} :
    Leaves (RoomFacade.deleteRoom db now roomId appId) (OnlyRooms db.store) := by
  unfold RoomFacade.deleteRoom
  split
  · exact .error
  · exact .commit ⟨_, rfl⟩

theorem room_static_rooms {ids : Nat → Uuid} {appId : Uuid} {rooms : List RoomFacade.StaticRoom} :
    Leaves (RoomFacade.createStaticRoomsFromConfig db ids appId rooms) (OnlyRooms db.store) :=
  .commit ⟨_, rfl⟩

theorem roomGrant_create_same {legacy : String → Option Int} {roomActorAccessId roomId : Uuid}
    {dto : RoomActorAccessFacade.RoomActorAccessCreateDto} :
    Leaves (RoomActorAccessFacade.create legacy db roomActorAccessId roomId dto)
      (SameTenancy db.store) := by
  unfold RoomActorAccessFacade.create
  split
  · exact .error
  · split
    · exact .error
    · split
      · exact .error
      · split
        · exact .error
        · exact .commit ⟨rfl, rfl⟩

theorem roomGrant_update_same {legacy : String → Option Int} {roomActorAccessId : Uuid}
    {dto : RoomActorAccessFacade.RoomActorAccessUpdateDto} :
    Leaves (RoomActorAccessFacade.update legacy db roomActorAccessId dto)
      (SameTenancy db.store) := by
  unfold RoomActorAccessFacade.update
  split
  · exact .error
  · split
    · exact .error
    · exact .commit ⟨rfl, rfl⟩

theorem roomGrant_delete_same {roomActorAccessId : Uuid} :
    Leaves (RoomActorAccessFacade.delete db now roomActorAccessId) (SameTenancy db.store) := by
  unfold RoomActorAccessFacade.delete
  split
  · exact .error
  · exact .commit ⟨rfl, rfl⟩

theorem lobby_create_same {lobbyId appId : Uuid} {data : LobbyFacade.LobbyCreateDto} :
    Leaves (LobbyFacade.createLobby db lobbyId appId data) (SameTenancy db.store) := by
  unfold LobbyFacade.createLobby
  dsimp only
  split
  · exact .error
  · unfold LobbyFacade.insertLobby
    split
    · exact .error
    · exact .commit ⟨rfl, rfl⟩

theorem lobby_update_same {lobbyId appId : Uuid} {data : LobbyFacade.LobbyPatchDto} :
    Leaves (LobbyFacade.updateLobby db lobbyId appId data) (SameTenancy db.store) := by
  unfold LobbyFacade.updateLobby
  split
  · exact .error
  · exact .commit ⟨rfl, rfl⟩

theorem lobby_delete_same {lobbyId appId : Uuid} :
    Leaves (LobbyFacade.deleteLobby db now lobbyId appId) (SameTenancy db.store) := by
  unfold LobbyFacade.deleteLobby
  split
  · exact .error
  · exact .commit ⟨rfl, rfl⟩

theorem lobby_addRoom_same {lobbyId roomId appId : Uuid} :
    Leaves (LobbyFacade.addRoomToLobby db lobbyId roomId appId) (SameTenancy db.store) := by
  unfold LobbyFacade.addRoomToLobby
  dsimp only
  split
  · exact .error
  · split
    · exact .error
    · split
      · exact .error
      · split
        · exact .error
        · exact .commit ⟨rfl, rfl⟩

theorem lobby_removeRoom_same {lobbyId roomId appId : Uuid} :
    Leaves (LobbyFacade.removeRoomFromLobby db lobbyId roomId appId) (SameTenancy db.store) := by
  unfold LobbyFacade.removeRoomFromLobby
  split
  · exact .error
  · exact .commit ⟨rfl, rfl⟩

theorem actorState_update_same {actorTokenStateId actorTokenId : Uuid}
    {connectionState : ConnectionState} {krakenNodeId : Option String} :
    Leaves (ActorTokenFacade.updateActorState db actorTokenStateId actorTokenId connectionState
      krakenNodeId) (SameTenancy db.store) := by
  unfold ActorTokenFacade.updateActorState
  split
  · exact .commit ⟨rfl, rfl⟩
  · exact .commit ⟨rfl, rfl⟩

theorem subscription_update_same {actorTokenStateId : Uuid} {dto : Authz.SubscriptionUpdate} :
    Leaves (Authz.updateSubscription db now actorTokenStateId dto) (SameTenancy db.store) := by
  unfold Authz.updateSubscription
  split
  · exact .commit ⟨rfl, rfl⟩
  · exact .commit ⟨rfl, rfl⟩

theorem subscription_clear_same {actorTokenId : Uuid} :
    Leaves (Authz.clearSubscriptions db now actorTokenId) (SameTenancy db.store) := by
  unfold Authz.clearSubscriptions
  split
  · exact .unchanged ⟨rfl, rfl⟩
  · exact .commit ⟨rfl, rfl⟩

theorem signingKey_create_same {crypto : Crypto} {cipher : SigningKeyFacade.SecretCipher}
    {config : CoreConfig} {signingKeyId projectId : Uuid}
    {random : SigningKeyFacade.SigningKeyBytes} {data : SigningKeyFacade.SigningKeyCreateDto} :
    Leaves (SigningKeyFacade.createSigningKey crypto cipher config db signingKeyId random projectId
      data) (SameTenancy db.store) := by
  unfold SigningKeyFacade.createSigningKey
  dsimp only
  split
  · exact .error
  · exact .commit ⟨rfl, rfl⟩

theorem signingKey_update_same {signingKeyId projectId : Uuid}
    {data : SigningKeyFacade.SigningKeyPatchDto} :
    Leaves (SigningKeyFacade.updateSigningKey db signingKeyId projectId data)
      (SameTenancy db.store) := by
  unfold SigningKeyFacade.updateSigningKey
  split
  · exact .error
  · unfold SigningKeyFacade.patchSigningKey
    split
    · exact .error
    · exact .commit ⟨rfl, rfl⟩

theorem signingKey_delete_same {signingKeyId projectId : Uuid} :
    Leaves (SigningKeyFacade.deleteSigningKey db now signingKeyId projectId)
      (SameTenancy db.store) := by
  unfold SigningKeyFacade.deleteSigningKey
  split
  · exact .error
  · exact .commit ⟨rfl, rfl⟩

/-! ## All operations -/

/-- The project an operation creates. -/
def Operation.createdProject : Operation → Option Uuid
  | .createProject projectId _ => some projectId
  | .importProject draws _ => some draws.project
  | _ => none

/-- What a committed operation has done to projects and actors, case by case. -/
inductive Effect (host : Host) (now : Int) (s s' : Store) : Operation → Prop
  | same {op : Operation} (h : SameTenancy s s') : Effect host now s s' op
  | projectSaved {op : Operation} {existing entity : Project} (hrow : existing ∈ s.projects)
    (hid : entity.projectId = existing.projectId) (hlive : entity.deletedAt = none)
    (hp : s'.projects = saveRow (·.projectId) entity s.projects)
    (ha : s'.actorTokens = s.actorTokens) : Effect host now s s' op
  | projectDeleted {projectId : Uuid}
    (hp : s'.projects = updateRows (fun p => decide (p.projectId = projectId))
      (fun p => { p with deletedAt := some now }) s.projects)
    (ha : s'.actorTokens = s.actorTokens) : Effect host now s s' (.deleteProject projectId)
  | created {op : Operation} {p : Project} (hop : op.createdProject = some p.projectId)
    (hlive : p.deletedAt = none) (hp : ∀ r, r ∈ s'.projects ↔ r ∈ s.projects ∨ r = p)
    (hold : ∀ a ∈ s.actorTokens, a ∈ s'.actorTokens)
    (hnew : ∀ a ∈ s'.actorTokens, a ∈ s.actorTokens ∨ a.projectId = p.projectId) :
    Effect host now s s' op
  | actorCreated {actorTokenId projectId : Uuid} {random : CredentialBytes}
    {data : ActorTokenFacade.ActorTokenCreateDto} {entity : ActorToken}
    (hproject : entity.projectId = projectId) (hp : s'.projects = s.projects)
    (ha : s'.actorTokens = s.actorTokens ++ [entity]) :
    Effect host now s s' (.createActorToken actorTokenId random projectId data)
  | actorUpdated {actorTokenId projectId : Uuid} {data : ActorTokenFacade.ActorTokenPatchDto}
    {existing entity : ActorToken}
    (hf : ActorTokenFacade.findByIdAndProject s actorTokenId projectId = some existing)
    (hs : ActorTokenFacade.assertScopeInProject s projectId (data.accessScopeId.getD none) = .ok ())
    (he : ActorTokenFacade.assign host.legacy data existing = .ok entity)
    (hp : s'.projects = s.projects)
    (ha : s'.actorTokens = saveRow (·.actorTokenId) entity s.actorTokens) :
    Effect host now s s' (.updateActorToken actorTokenId projectId data)
  | actorDeleted {actorTokenId projectId : Uuid} (hp : s'.projects = s.projects)
    (ha : s'.actorTokens = updateRows
      (fun a => decide (a.actorTokenId = actorTokenId) && decide (a.projectId = projectId) &&
        live a) (fun a => { a with deletedAt := some now }) s.actorTokens) :
    Effect host now s s' (.deleteActorToken actorTokenId projectId)
  | purged {projectId : Uuid}
    (hp : ∀ p, p ∈ s'.projects ↔ p ∈ s.projects ∧ p.projectId ≠ projectId)
    (ha : ∀ a, a ∈ s'.actorTokens ↔ a ∈ s.actorTokens ∧ a.projectId ≠ projectId) :
    Effect host now s s' (.purgeProject projectId)

theorem of_lock {s : Store} {projectId : Uuid} {existing : Project}
    (h : ProjectFacade.lock s projectId = .ok existing) : existing ∈ s.projects ∧
      existing.deletedAt = none ∧ existing.projectId = projectId := by
  unfold ProjectFacade.lock at h
  split at h
  · cases h
  · rename_i p hf
    cases h
    obtain ⟨hrow, hl, hid⟩ := of_findOne hf
    exact ⟨hrow, Option.isNone_iff_eq_none.1 hl, of_decide_eq_true hid⟩

theorem project_update_effect {op : Operation} {projectId : Uuid}
    {dto : ProjectFacade.ProjectPatchDto} :
    Leaves (ProjectFacade.updateProject db projectId dto)
      (fun s' => Effect host now db.store s' op) := by
  unfold ProjectFacade.updateProject
  split
  · exact .error
  · rename_i existing hlock
    obtain ⟨hrow, hlive, _⟩ := of_lock hlock
    refine .commit (.projectSaved hrow ?_ ?_ rfl rfl)
    · rfl
    · exact hlive

theorem project_limits_effect {op : Operation} {projectId : Uuid}
    {limits : ProjectFacade.ProjectLimitsDto} :
    Leaves (ProjectFacade.syncLimits db now projectId limits)
      (fun s' => Effect host now db.store s' op) := by
  unfold ProjectFacade.syncLimits
  split
  · exact .error
  · rename_i existing hlock
    obtain ⟨hrow, hlive, _⟩ := of_lock hlock
    refine .commit (.projectSaved hrow ?_ ?_ rfl rfl)
    · rfl
    · exact hlive

theorem project_create_effect {projectId : Uuid} {dto : ProjectFacade.ProjectCreateDto} :
    Leaves (ProjectFacade.createProject db projectId dto)
      (fun s' => Effect host now db.store s' (.createProject projectId dto)) := by
  let entity : Project :=
    { projectId := projectId
      name := dto.name
      description := dto.description
      organizationId := dto.organizationId }
  refine .commit (.created (p := entity) rfl rfl ?_ (fun a ha => ha) (fun a ha => .inl ha))
  intro r
  simp [entity]

theorem project_delete_effect {projectId : Uuid} :
    Leaves (ProjectFacade.deleteProject db now projectId)
      (fun s' => Effect host now db.store s' (.deleteProject projectId)) := by
  unfold ProjectFacade.deleteProject
  split
  · exact .error
  · exact .commit (.projectDeleted rfl rfl)

theorem actor_create_effect {actorTokenId projectId : Uuid} {random : CredentialBytes}
    {data : ActorTokenFacade.ActorTokenCreateDto} :
    Leaves (ActorTokenFacade.createActorToken host.legacy host.crypto db actorTokenId random projectId
      data) (fun s' =>
        Effect host now db.store s' (.createActorToken actorTokenId random projectId data)) := by
  unfold ActorTokenFacade.createActorToken
  split
  · exact .error
  · dsimp only
    split
    · exact .error
    · exact .commit (.actorCreated rfl rfl rfl)

theorem actor_update_effect {actorTokenId projectId : Uuid}
    {data : ActorTokenFacade.ActorTokenPatchDto} :
    Leaves (ActorTokenFacade.updateActorToken host.legacy db actorTokenId projectId data)
      (fun s' => Effect host now db.store s' (.updateActorToken actorTokenId projectId data)) := by
  unfold ActorTokenFacade.updateActorToken
  split
  · exact .error
  · split
    · exact .error
    · rename_i hs
      unfold ActorTokenFacade.patchActorToken
      split
      · exact .error
      · rename_i existing hf
        split
        · exact .error
        · rename_i entity he
          exact .commit (.actorUpdated hf hs he rfl rfl)

theorem actor_delete_effect {actorTokenId projectId : Uuid} :
    Leaves (ActorTokenFacade.deleteActorToken db now actorTokenId projectId)
      (fun s' => Effect host now db.store s' (.deleteActorToken actorTokenId projectId)) := by
  unfold ActorTokenFacade.deleteActorToken
  split
  · exact .error
  · exact .commit (.actorDeleted rfl rfl)

theorem purge_effect {projectId : Uuid} :
    Leaves (ProjectConfigFacade.deleteProject db projectId)
      (fun s' => Effect host now db.store s' (.purgeProject projectId)) := by
  unfold ProjectConfigFacade.deleteProject
  split
  · exact .error
  · refine .commit (.purged ?_ ?_)
    · intro p
      simp [ProjectConfigFacade.deleteProjectRow, ProjectConfigFacade.deleteActors, deleteRows]
    · intro a
      simp [ProjectConfigFacade.deleteProjectRow, ProjectConfigFacade.deleteActors, deleteRows]

theorem import_effect {draws : Draws} {doc : ProjectConfigDoc} :
    Leaves (ProjectConfigFacade.importProject host draws now db doc)
      (fun s' => Effect host now db.store s' (.importProject draws doc)) := by
  unfold ProjectConfigFacade.importProject
  split
  · exact .error
  · rename_i credentials s' himport
    obtain ⟨d, hd, rfl⟩ := (importProject_ok himport).rows
    refine .commit (.created (p := projectRow draws now doc.project) rfl rfl ?_ ?_ ?_)
    · intro r
      refine (Store.has_append (.project r)).trans (or_congr Iff.rfl ?_)
      rw [hd.iff_of_not_link rfl]
      constructor
      · intro h
        rcases h with _ | _ | ⟨_, hrow⟩ | ⟨_, hrow⟩ | _
        · rfl
        · exact absurd hrow not_appRows_project
        · exact absurd hrow not_actorRows_project
      · rintro rfl
        exact .project
    · intro a ha
      exact List.mem_append_left _ ha
    · intro a ha
      rcases (Store.has_append (.actorToken a)).1 ha with ha | ha
      · exact .inl ha
      · refine .inr ?_
        rcases hd.sound _ ha with _ | _ | ⟨_, hrow⟩ | ⟨_, hrow⟩ | _
        · exact absurd hrow not_appRows_actorToken
        · cases hrow
          rfl

theorem run_effect {op : Operation} {db' : Database} (h : op.run host now db = .ok db') :
    Effect host now db.store db'.store op := by
  cases op with
  | createProject projectId dto => exact project_create_effect.committed h
  | updateProject projectId dto => exact project_update_effect.committed h
  | syncLimits projectId limits => exact project_limits_effect.committed h
  | deleteProject projectId => exact project_delete_effect.committed h
  | createScope accessScopeId projectId dto => exact .same (scope_create_same.committed h)
  | updateScope accessScopeId projectId dto => exact .same (scope_update_same.committed h)
  | deleteScope accessScopeId projectId => exact .same (scope_delete_same.committed h)
  | createApp appId projectId dto => exact .same (app_create_same.committed h)
  | updateApp appId projectId dto => exact .same (app_update_same.committed h)
  | deleteApp appId projectId => exact .same (app_delete_same.committed h)
  | createRoom roomId appId data => exact .same (room_create_rooms.committed h).sameTenancy
  | ensureRoom roomId appId data maxRooms => exact .same (room_ensure_rooms.committed h).sameTenancy
  | updateRoom roomId appId data => exact .same (room_update_rooms.committed h).sameTenancy
  | deleteRoom roomId appId => exact .same (room_delete_rooms.committed h).sameTenancy
  | createStaticRooms ids appId rooms =>
    exact .same (room_static_rooms.committed h).sameTenancy
  | createRoomGrant roomActorAccessId roomId dto => exact .same (roomGrant_create_same.committed h)
  | updateRoomGrant roomActorAccessId dto => exact .same (roomGrant_update_same.committed h)
  | deleteRoomGrant roomActorAccessId => exact .same (roomGrant_delete_same.committed h)
  | createLobby lobbyId appId data => exact .same (lobby_create_same.committed h)
  | updateLobby lobbyId appId data => exact .same (lobby_update_same.committed h)
  | deleteLobby lobbyId appId => exact .same (lobby_delete_same.committed h)
  | addRoomToLobby lobbyId roomId appId => exact .same (lobby_addRoom_same.committed h)
  | removeRoomFromLobby lobbyId roomId appId => exact .same (lobby_removeRoom_same.committed h)
  | createStaticLobbies ids appId lobbies createdRooms =>
    exact .same (Leaves.committed (.commit ⟨rfl, rfl⟩) h)
  | createActorToken actorTokenId random projectId data => exact actor_create_effect.committed h
  | updateActorToken actorTokenId projectId data => exact actor_update_effect.committed h
  | deleteActorToken actorTokenId projectId => exact actor_delete_effect.committed h
  | updateActorState actorTokenStateId actorTokenId connectionState krakenNodeId =>
    exact .same (actorState_update_same.committed h)
  | clearActorState actorTokenId => exact .same (Leaves.committed (.commit ⟨rfl, rfl⟩) h)
  | updateSubscription actorTokenStateId dto => exact .same (subscription_update_same.committed h)
  | clearSubscriptions actorTokenId => exact .same (subscription_clear_same.committed h)
  | createSigningKey signingKeyId random projectId data =>
    exact .same (signingKey_create_same.committed h)
  | updateSigningKey signingKeyId projectId data => exact .same (signingKey_update_same.committed h)
  | deleteSigningKey signingKeyId projectId => exact .same (signingKey_delete_same.committed h)
  | importProject draws doc => exact import_effect.committed h
  | purgeProject projectId => exact purge_effect.committed h

end

end Facade
end NolagCore
