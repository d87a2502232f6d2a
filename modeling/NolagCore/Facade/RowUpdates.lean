import Mathlib.Data.List.Find
import NolagCore.Common.Writes
import NolagCore.Facade.Operation
import NolagCore.Lib.ShareUpdate
import NolagCore.ProjectConfig.Import

/-!
# Facade.RowUpdates

The updates and deletions of one configuration row, statement by statement. They share one shape:
the live row is read `FOR SHARE` in a transaction, a missing one is a 404, the row is patched or
stamped, and the transaction commits. Deleting a scope and updating or deleting an actor look at a
second table, and deleting an app takes no lock; they are not of this shape.
-/

namespace NolagCore

open Lib

namespace Store

/-! ## The rows of the configuration -/

deriving instance DecidableEq for Row

/-- A primary key, with its table. -/
inductive RowKey where
  | project (projectId : Uuid)
  | accessScope (accessScopeId : Uuid)
  | app (appId : Uuid)
  | room (roomId : Uuid)
  | roomGrant (roomActorAccessId : Uuid)
  | lobby (lobbyId : Uuid)
  | lobbyRoom (lobbyId roomId : Uuid)
  | actorToken (actorTokenId : Uuid)
  | actorTokenState (actorTokenStateId : Uuid)
  | appGrant (actorAppAccessId : Uuid)
  | signingKey (signingKeyId : Uuid)
deriving DecidableEq

def Row.key : Row → RowKey
  | .project r => .project r.projectId
  | .accessScope r => .accessScope r.accessScopeId
  | .app r => .app r.appId
  | .room r => .room r.roomId
  | .roomGrant r => .roomGrant r.roomActorAccessId
  | .lobby r => .lobby r.lobbyId
  | .lobbyRoom r => .lobbyRoom r.lobbyId r.roomId
  | .actorToken r => .actorToken r.actorTokenId
  | .actorTokenState r => .actorTokenState r.actorTokenStateId
  | .appGrant r => .appGrant r.actorAppAccessId
  | .signingKey r => .signingKey r.signingKeyId

/-- The tables whose rows are updated under a lock of their own. -/
def configRows (s : Store) : List Row :=
  s.projects.map .project ++ (s.accessScopes.map .accessScope ++ (s.apps.map .app ++
    (s.rooms.map .room ++ (s.lobbies.map .lobby ++ s.signingKeys.map .signingKey))))

end Store

namespace Facade

open Store ShareUpdate
open ProjectConfig (Host)

/-! ## Calls -/

inductive RowUpdate where
  | updateProject (projectId : Uuid) (dto : ProjectFacade.ProjectPatchDto)
  | syncLimits (projectId : Uuid) (limits : ProjectFacade.ProjectLimitsDto)
  | deleteProject (projectId : Uuid)
  | updateScope (accessScopeId projectId : Uuid) (dto : AccessScopeFacade.AccessScopePatchDto)
  | updateApp (appId projectId : Uuid) (dto : PlatformAppFacade.PlatformAppPatchDto)
  | updateRoom (roomId appId : Uuid) (data : RoomFacade.RoomPatchDto)
  | deleteRoom (roomId appId : Uuid)
  | updateLobby (lobbyId appId : Uuid) (data : LobbyFacade.LobbyPatchDto)
  | deleteLobby (lobbyId appId : Uuid)
  | updateSigningKey (signingKeyId projectId : Uuid) (data : SigningKeyFacade.SigningKeyPatchDto)
  | deleteSigningKey (signingKeyId projectId : Uuid)

/-- The call, as the facade runs it alone. -/
def RowUpdate.operation : RowUpdate → Operation
  | .updateProject projectId dto => .updateProject projectId dto
  | .syncLimits projectId limits => .syncLimits projectId limits
  | .deleteProject projectId => .deleteProject projectId
  | .updateScope accessScopeId projectId dto => .updateScope accessScopeId projectId dto
  | .updateApp appId projectId dto => .updateApp appId projectId dto
  | .updateRoom roomId appId data => .updateRoom roomId appId data
  | .deleteRoom roomId appId => .deleteRoom roomId appId
  | .updateLobby lobbyId appId data => .updateLobby lobbyId appId data
  | .deleteLobby lobbyId appId => .deleteLobby lobbyId appId
  | .updateSigningKey signingKeyId projectId data => .updateSigningKey signingKeyId projectId data
  | .deleteSigningKey signingKeyId projectId => .deleteSigningKey signingKeyId projectId

/-! What the statements of a call select and assign, table by table. -/

def projectEdit (projectId : Uuid) (assign : Project → Project) : Edit RowKey Row where
  target := .project projectId
  guard := fun
    | .project r => live r
    | _ => false
  apply := fun
    | .project r => .project (assign r)
    | row => row

def scopeEdit (accessScopeId projectId : Uuid) (assign : AccessScope → AccessScope) :
    Edit RowKey Row where
  target := .accessScope accessScopeId
  guard := fun
    | .accessScope r => live r && decide (r.projectId = projectId)
    | _ => false
  apply := fun
    | .accessScope r => .accessScope (assign r)
    | row => row

def appEdit (appId projectId : Uuid) (assign : PlatformApp → PlatformApp) : Edit RowKey Row where
  target := .app appId
  guard := fun
    | .app r => live r && decide (r.projectId = projectId)
    | _ => false
  apply := fun
    | .app r => .app (assign r)
    | row => row

def roomEdit (roomId appId : Uuid) (assign : Room → Room) : Edit RowKey Row where
  target := .room roomId
  guard := fun
    | .room r => live r && decide (r.appId = appId)
    | _ => false
  apply := fun
    | .room r => .room (assign r)
    | row => row

def lobbyEdit (lobbyId appId : Uuid) (assign : Lobby → Lobby) : Edit RowKey Row where
  target := .lobby lobbyId
  guard := fun
    | .lobby r => live r && decide (r.appId = appId)
    | _ => false
  apply := fun
    | .lobby r => .lobby (assign r)
    | row => row

def signingKeyEdit (signingKeyId projectId : Uuid) (assign : SigningKey → SigningKey) :
    Edit RowKey Row where
  target := .signingKey signingKeyId
  guard := fun
    | .signingKey r => live r && decide (r.projectId = projectId)
    | _ => false
  apply := fun
    | .signingKey r => .signingKey (assign r)
    | row => row

/-- A call at an instant, by the row it locks and what it makes of it. -/
def RowUpdate.edit : Int × RowUpdate → Edit RowKey Row
  | (_, .updateProject projectId dto) => projectEdit projectId fun existing => { existing with
      name := patch dto.name existing.name
      description := patch dto.description existing.description }
  | (now, .syncLimits projectId limits) => projectEdit projectId fun existing => { existing with
      maxConnections := patch limits.maxConnections existing.maxConnections
      maxMessageSizeBytes := patch limits.maxMessageSizeBytes existing.maxMessageSizeBytes
      sessionExpirySeconds := patch limits.sessionExpirySeconds existing.sessionExpirySeconds
      limitsSyncedAt := some now }
  | (now, .deleteProject projectId) => projectEdit projectId fun existing =>
      { existing with deletedAt := some now }
  | (_, .updateScope accessScopeId projectId dto) => scopeEdit accessScopeId projectId
      fun existing => { existing with
        name := patch dto.name existing.name
        description := patch (dto.description.map some) existing.description
        metadata := patch (dto.metadata.map some) existing.metadata
        isActive := patch dto.isActive existing.isActive }
  | (_, .updateApp appId projectId dto) => appEdit appId projectId fun existing => { existing with
      name := patch dto.name existing.name
      description := patch dto.description existing.description
      status := patch dto.status existing.status
      accessMode := patch dto.accessMode existing.accessMode
      topics := patch (dto.topics.map some) existing.topics
      topicConfigs := patch dto.topicConfigs existing.topicConfigs
      hydrationWebhook := patch dto.hydrationWebhook existing.hydrationWebhook
      triggerWebhook := patch dto.triggerWebhook existing.triggerWebhook }
  | (_, .updateRoom roomId appId data) => roomEdit roomId appId fun existing => { existing with
      name := patch data.name existing.name
      description := patch data.description existing.description
      status := patch data.status existing.status
      topics := patch (data.topics.map some) existing.topics
      metadata := patch (data.metadata.map some) existing.metadata }
  | (now, .deleteRoom roomId appId) => roomEdit roomId appId fun existing =>
      { existing with deletedAt := some now }
  | (_, .updateLobby lobbyId appId data) => lobbyEdit lobbyId appId fun existing =>
      { existing with
        name := patch data.name existing.name
        description := patch data.description existing.description
        metadata := patch (data.metadata.map some) existing.metadata }
  | (now, .deleteLobby lobbyId appId) => lobbyEdit lobbyId appId fun existing =>
      { existing with deletedAt := some now }
  | (_, .updateSigningKey signingKeyId projectId data) => signingKeyEdit signingKeyId projectId
      fun existing => { existing with
        name := patch data.name existing.name
        status := patch data.status existing.status }
  | (now, .deleteSigningKey signingKeyId projectId) => signingKeyEdit signingKeyId projectId
      fun existing => { existing with deletedAt := some now }

/-- The database while any number of these calls are under way. -/
abbrev RowState := ShareUpdate.State RowKey Row (Int × RowUpdate)

def rowStep : RowState → Label (Int × RowUpdate) → Option RowState := step Row.key RowUpdate.edit

def RowState.init (db : Database) : RowState := ⟨{ rows := db.store.configRows }, Pool.empty⟩

theorem edit_keepsKey (u : Int × RowUpdate) (row : Row) :
    ((RowUpdate.edit u).apply row).key = row.key := by
  obtain ⟨now, u⟩ := u
  cases u <;> cases row <;> rfl

/-! ## What a call reads -/

section

variable {s : Store}

theorem find?_false {α : Type} (l : List α) : (l.find? fun _ => false) = none := by
  simp

theorem find_project {projectId : Uuid} {assign : Project → Project} :
    (projectEdit projectId assign).find Row.key s.configRows =
      (findOne s.projects fun p => decide (p.projectId = projectId)).map Row.project := by
  unfold Edit.find configRows findOne
  simp [List.find?_append, List.find?_map, projectEdit, Row.key, find?_false,
    Bool.and_comm]

theorem find_scope {accessScopeId projectId : Uuid} {assign : AccessScope → AccessScope} :
    (scopeEdit accessScopeId projectId assign).find Row.key s.configRows =
      (AccessScopeFacade.updateLock s accessScopeId projectId).map Row.accessScope := by
  unfold Edit.find configRows AccessScopeFacade.updateLock findOne
  simp [List.find?_append, List.find?_map, scopeEdit, Row.key, find?_false,
    Bool.and_left_comm]

theorem find_app {appId projectId : Uuid} {assign : PlatformApp → PlatformApp} :
    (appEdit appId projectId assign).find Row.key s.configRows =
      (PlatformAppFacade.findByProjectAndId s projectId appId).map Row.app := by
  unfold Edit.find configRows PlatformAppFacade.findByProjectAndId findOne
  simp [List.find?_append, List.find?_map, appEdit, Row.key, find?_false,
    Bool.and_left_comm]

theorem find_room {roomId appId : Uuid} {assign : Room → Room} :
    (roomEdit roomId appId assign).find Row.key s.configRows =
      (RoomFacade.findByIdAndApp s roomId appId).map Row.room := by
  unfold Edit.find configRows RoomFacade.findByIdAndApp findOne
  simp [List.find?_append, List.find?_map, roomEdit, Row.key, find?_false,
    Bool.and_left_comm]

theorem find_lobby {lobbyId appId : Uuid} {assign : Lobby → Lobby} :
    (lobbyEdit lobbyId appId assign).find Row.key s.configRows =
      (LobbyFacade.findByIdAndApp s lobbyId appId).map Row.lobby := by
  unfold Edit.find configRows LobbyFacade.findByIdAndApp findOne
  simp [List.find?_append, List.find?_map, lobbyEdit, Row.key, find?_false,
    Bool.and_left_comm]

theorem find_signingKey {signingKeyId projectId : Uuid} {assign : SigningKey → SigningKey} :
    (signingKeyEdit signingKeyId projectId assign).find Row.key s.configRows =
      (SigningKeyFacade.findByIdAndProject s signingKeyId projectId).map Row.signingKey := by
  unfold Edit.find configRows SigningKeyFacade.findByIdAndProject findOne
  simp [List.find?_append, List.find?_map, signingKeyEdit, Row.key, find?_false,
    Bool.and_left_comm]

/-! ## What a call writes -/

theorem save_project {entity : Project} : save Row.key (.project entity) s.configRows =
    ({ s with projects := saveRow (·.projectId) entity s.projects } : Store).configRows := by
  unfold save configRows saveRow
  simp [Function.comp_def, Row.key, apply_ite Row.project]

theorem save_scope {entity : AccessScope} : save Row.key (.accessScope entity) s.configRows =
    ({ s with accessScopes := saveRow (·.accessScopeId) entity s.accessScopes } :
      Store).configRows := by
  unfold save configRows saveRow
  simp [Function.comp_def, Row.key, apply_ite Row.accessScope]

theorem save_app {entity : PlatformApp} : save Row.key (.app entity) s.configRows =
    ({ s with apps := saveRow (·.appId) entity s.apps } : Store).configRows := by
  unfold save configRows saveRow
  simp [Function.comp_def, Row.key, apply_ite Row.app]

theorem save_room {entity : Room} : save Row.key (.room entity) s.configRows =
    ({ s with rooms := saveRow (·.roomId) entity s.rooms } : Store).configRows := by
  unfold save configRows saveRow
  simp [Function.comp_def, Row.key, apply_ite Row.room]

theorem save_lobby {entity : Lobby} : save Row.key (.lobby entity) s.configRows =
    ({ s with lobbies := saveRow (·.lobbyId) entity s.lobbies } : Store).configRows := by
  unfold save configRows saveRow
  simp [Function.comp_def, Row.key, apply_ite Row.lobby]

theorem save_signingKey {entity : SigningKey} : save Row.key (.signingKey entity) s.configRows =
    ({ s with signingKeys := saveRow (·.signingKeyId) entity s.signingKeys } :
      Store).configRows := by
  unfold save configRows saveRow
  simp [Function.comp_def, Row.key, apply_ite Row.signingKey]

/-! ## What a save keeps -/

section

variable (hv : s.SchemaValid)

include hv

theorem valid_saveProject (entity : Project) :
    Store.SchemaValid { s with projects := saveRow (·.projectId) entity s.projects } :=
  { hv with
    pkProject := uniqueOn_saveRow hv.pkProject
    fkScopeProject := references_saveRow hv.fkScopeProject _
    fkAppProject := references_saveRow hv.fkAppProject _
    fkActorProject := references_saveRow hv.fkActorProject _
    fkKeyProject := references_saveRow hv.fkKeyProject _ }

theorem valid_saveScope {existing entity : AccessScope} (hrow : existing ∈ s.accessScopes)
    (hlive : live existing = true) (hid : entity.accessScopeId = existing.accessScopeId)
    (hproject : entity.projectId = existing.projectId) (hslug : entity.slug = existing.slug) :
    Store.SchemaValid
      { s with accessScopes := saveRow (·.accessScopeId) entity s.accessScopes } :=
  { hv with
    pkScope := uniqueOn_saveRow hv.pkScope
    scopeSlug := uniqueOn_live_saveRow hv.pkScope hrow hid (by rw [hproject, hslug]) hlive
      hv.scopeSlug
    fkScopeProject := references_of_saveRow hrow (by rw [hproject]) hv.fkScopeProject
    fkActorScope := references_saveRow hv.fkActorScope _ }

theorem valid_saveApp {existing entity : PlatformApp} (hrow : existing ∈ s.apps)
    (hlive : live existing = true) (hid : entity.appId = existing.appId)
    (hproject : entity.projectId = existing.projectId) (hslug : entity.slug = existing.slug) :
    Store.SchemaValid { s with apps := saveRow (·.appId) entity s.apps } :=
  { hv with
    pkApp := uniqueOn_saveRow hv.pkApp
    appSlug := uniqueOn_live_saveRow hv.pkApp hrow hid (by rw [hproject, hslug]) hlive hv.appSlug
    fkAppProject := references_of_saveRow hrow (by rw [hproject]) hv.fkAppProject
    fkRoomApp := references_saveRow hv.fkRoomApp _
    fkLobbyApp := references_saveRow hv.fkLobbyApp _
    fkAppGrantApp := references_saveRow hv.fkAppGrantApp _ }

theorem valid_saveRoom {existing entity : Room} (hrow : existing ∈ s.rooms)
    (hlive : live existing = true) (hid : entity.roomId = existing.roomId)
    (happ : entity.appId = existing.appId) (hslug : entity.slug = existing.slug) :
    Store.SchemaValid { s with rooms := saveRow (·.roomId) entity s.rooms } :=
  { hv with
    pkRoom := uniqueOn_saveRow hv.pkRoom
    roomSlug := uniqueOn_live_saveRow hv.pkRoom hrow hid (by rw [happ, hslug]) hlive hv.roomSlug
    fkRoomApp := references_of_saveRow hrow (by rw [happ]) hv.fkRoomApp
    fkGrantRoom := references_saveRow hv.fkGrantRoom _
    fkMemberRoom := references_saveRow hv.fkMemberRoom _ }

theorem valid_saveLobby {existing entity : Lobby} (hrow : existing ∈ s.lobbies)
    (hlive : live existing = true) (hid : entity.lobbyId = existing.lobbyId)
    (happ : entity.appId = existing.appId) (hslug : entity.slug = existing.slug) :
    Store.SchemaValid { s with lobbies := saveRow (·.lobbyId) entity s.lobbies } :=
  { hv with
    pkLobby := uniqueOn_saveRow hv.pkLobby
    lobbySlug := uniqueOn_live_saveRow hv.pkLobby hrow hid (by rw [happ, hslug]) hlive hv.lobbySlug
    fkLobbyApp := references_of_saveRow hrow (by rw [happ]) hv.fkLobbyApp
    fkMemberLobby := references_saveRow hv.fkMemberLobby _ }

theorem valid_saveSigningKey {existing entity : SigningKey} (hrow : existing ∈ s.signingKeys)
    (hid : entity.signingKeyId = existing.signingKeyId)
    (hproject : entity.projectId = existing.projectId) (hkeyId : entity.keyId = existing.keyId) :
    Store.SchemaValid { s with signingKeys := saveRow (·.signingKeyId) entity s.signingKeys } :=
  { hv with
    pkSigningKey := uniqueOn_saveRow hv.pkSigningKey
    signingKeyId := by
      unfold UniqueOn
      rw [map_saveRow_of_eq hv.pkSigningKey hrow hid hkeyId]
      exact hv.signingKeyId
    fkKeyProject := references_of_saveRow hrow (by rw [hproject]) hv.fkKeyProject }

end

/-- The rows of the six tables have keys of their own. -/
theorem uniqueOn_configRows (hv : s.SchemaValid) : UniqueOn Row.key s.configRows := by
  unfold UniqueOn configRows
  simp only [List.map_append, List.map_map]
  have hmap : ∀ {α : Type} {rows : List α} {id : α → Uuid} {key : Uuid → RowKey},
      Function.Injective key → UniqueOn id rows → (rows.map fun r => key (id r)).Nodup := by
    intro α rows id key hinj h
    have hnodup := List.Nodup.map hinj h
    rw [List.map_map] at hnodup
    exact hnodup
  refine (hmap (fun _ _ h => RowKey.project.inj h) hv.pkProject).append ?_ ?_
  · refine (hmap (fun _ _ h => RowKey.accessScope.inj h) hv.pkScope).append ?_ ?_
    · refine (hmap (fun _ _ h => RowKey.app.inj h) hv.pkApp).append ?_ ?_
      · refine (hmap (fun _ _ h => RowKey.room.inj h) hv.pkRoom).append ?_ ?_
        · refine (hmap (fun _ _ h => RowKey.lobby.inj h) hv.pkLobby).append ?_ ?_
          · exact hmap (fun _ _ h => RowKey.signingKey.inj h) hv.pkSigningKey
          · simp [List.Disjoint, Row.key]
        · simp [List.Disjoint, Row.key]
      · simp [List.Disjoint, Row.key]
    · simp [List.Disjoint, Row.key]
  · simp [List.Disjoint, Row.key]

end

/-! ## A call alone -/

/-- An operation does what an edit does: it is refused where the edit finds no row, and else commits
the row the edit makes of the one it finds. -/
structure Runs (e : Edit RowKey Row) (db : Database) (outcome : Except CoreError Database) :
    Prop where
  refused : e.find Row.key db.store.configRows = none → ∃ err, outcome = .error err
  commits : ∀ row, e.find Row.key db.store.configRows = some row → ∃ db', outcome = .ok db' ∧
    db'.store.configRows = save Row.key (e.apply row) db.store.configRows

/-- A commit of a store in which one table has been saved. -/
theorem commits_of_valid {α : Type} {o : Outcome α} {s : Store} {rows : List Row}
    (ho : ∃ a, o = commit s a) (hv : s.SchemaValid) (hrows : rows = s.configRows) :
    ∃ db', committed o = .ok db' ∧ db'.store.configRows = rows := by
  obtain ⟨a, rfl⟩ := ho
  refine ⟨⟨s, hv⟩, ?_, hrows.symm⟩
  unfold commit
  rw [dif_pos hv]
  rfl

theorem Runs.of_found {e : Edit RowKey Row} {db : Database} {α β : Type} {o : Outcome β}
    {found : Option α} {toRow : α → Row}
    (hfind : e.find Row.key db.store.configRows = found.map toRow)
    (hnone : found = none → ∃ err, o = .error err)
    (hsome : ∀ r, found = some r → ∃ db', committed o = .ok db' ∧
      db'.store.configRows = save Row.key (e.apply (toRow r)) db.store.configRows) :
    Runs e db (committed o) where
  refused h := by
    obtain ⟨err, rfl⟩ := hnone (Option.map_eq_none_iff.1 (hfind ▸ h))
    exact ⟨err, rfl⟩
  commits row h := by
    obtain ⟨r, hr, rfl⟩ := Option.map_eq_some_iff.1 (hfind ▸ h)
    exact hsome r hr

section

variable {db : Database} {α : Type} {o : Outcome α}

/-! What a facade does with the row it has read, table by table. -/

theorem runs_project {projectId : Uuid} {assign : Project → Project}
    (hnone : findOne db.store.projects (fun p => decide (p.projectId = projectId)) = none →
      ∃ err, o = .error err)
    (hsome : ∀ existing,
      findOne db.store.projects (fun p => decide (p.projectId = projectId)) = some existing →
      ∃ a, o = commit { db.store with
        projects := saveRow (·.projectId) (assign existing) db.store.projects } a) :
    Runs (projectEdit projectId assign) db (committed o) := by
  refine .of_found find_project hnone fun existing h => ?_
  exact commits_of_valid (hsome existing h) (valid_saveProject db.valid _) save_project

theorem runs_scope {accessScopeId projectId : Uuid} {assign : AccessScope → AccessScope}
    (hkeeps : ∀ r, (assign r).accessScopeId = r.accessScopeId ∧
      (assign r).projectId = r.projectId ∧ (assign r).slug = r.slug)
    (hnone : AccessScopeFacade.updateLock db.store accessScopeId projectId = none →
      ∃ err, o = .error err)
    (hsome : ∀ existing,
      AccessScopeFacade.updateLock db.store accessScopeId projectId = some existing →
      ∃ a, o = commit { db.store with
        accessScopes := saveRow (·.accessScopeId) (assign existing) db.store.accessScopes } a) :
    Runs (scopeEdit accessScopeId projectId assign) db (committed o) := by
  refine .of_found find_scope hnone fun existing h => ?_
  obtain ⟨hrow, hlive, _⟩ := of_findOne h
  obtain ⟨hid, hproject, hslug⟩ := hkeeps existing
  exact commits_of_valid (hsome existing h)
    (valid_saveScope db.valid hrow hlive hid hproject hslug) save_scope

theorem runs_app {appId projectId : Uuid} {assign : PlatformApp → PlatformApp}
    (hkeeps : ∀ r, (assign r).appId = r.appId ∧
      (assign r).projectId = r.projectId ∧ (assign r).slug = r.slug)
    (hnone : PlatformAppFacade.findByProjectAndId db.store projectId appId = none →
      ∃ err, o = .error err)
    (hsome : ∀ existing,
      PlatformAppFacade.findByProjectAndId db.store projectId appId = some existing →
      ∃ a, o = commit { db.store with
        apps := saveRow (·.appId) (assign existing) db.store.apps } a) :
    Runs (appEdit appId projectId assign) db (committed o) := by
  refine .of_found find_app hnone fun existing h => ?_
  obtain ⟨hrow, hlive, _⟩ := of_findOne h
  obtain ⟨hid, hproject, hslug⟩ := hkeeps existing
  exact commits_of_valid (hsome existing h)
    (valid_saveApp db.valid hrow hlive hid hproject hslug) save_app

theorem runs_room {roomId appId : Uuid} {assign : Room → Room}
    (hkeeps : ∀ r, (assign r).roomId = r.roomId ∧
      (assign r).appId = r.appId ∧ (assign r).slug = r.slug)
    (hnone : RoomFacade.findByIdAndApp db.store roomId appId = none → ∃ err, o = .error err)
    (hsome : ∀ existing, RoomFacade.findByIdAndApp db.store roomId appId = some existing →
      ∃ a, o = commit { db.store with
        rooms := saveRow (·.roomId) (assign existing) db.store.rooms } a) :
    Runs (roomEdit roomId appId assign) db (committed o) := by
  refine .of_found find_room hnone fun existing h => ?_
  obtain ⟨hrow, hlive, _⟩ := of_findOne h
  obtain ⟨hid, happ, hslug⟩ := hkeeps existing
  exact commits_of_valid (hsome existing h)
    (valid_saveRoom db.valid hrow hlive hid happ hslug) save_room

theorem runs_lobby {lobbyId appId : Uuid} {assign : Lobby → Lobby}
    (hkeeps : ∀ r, (assign r).lobbyId = r.lobbyId ∧
      (assign r).appId = r.appId ∧ (assign r).slug = r.slug)
    (hnone : LobbyFacade.findByIdAndApp db.store lobbyId appId = none → ∃ err, o = .error err)
    (hsome : ∀ existing, LobbyFacade.findByIdAndApp db.store lobbyId appId = some existing →
      ∃ a, o = commit { db.store with
        lobbies := saveRow (·.lobbyId) (assign existing) db.store.lobbies } a) :
    Runs (lobbyEdit lobbyId appId assign) db (committed o) := by
  refine .of_found find_lobby hnone fun existing h => ?_
  obtain ⟨hrow, hlive, _⟩ := of_findOne h
  obtain ⟨hid, happ, hslug⟩ := hkeeps existing
  exact commits_of_valid (hsome existing h)
    (valid_saveLobby db.valid hrow hlive hid happ hslug) save_lobby

theorem runs_signingKey {signingKeyId projectId : Uuid} {assign : SigningKey → SigningKey}
    (hkeeps : ∀ r, (assign r).signingKeyId = r.signingKeyId ∧
      (assign r).projectId = r.projectId ∧ (assign r).keyId = r.keyId)
    (hnone : SigningKeyFacade.findByIdAndProject db.store signingKeyId projectId = none →
      ∃ err, o = .error err)
    (hsome : ∀ existing,
      SigningKeyFacade.findByIdAndProject db.store signingKeyId projectId = some existing →
      ∃ a, o = commit { db.store with
        signingKeys := saveRow (·.signingKeyId) (assign existing) db.store.signingKeys } a) :
    Runs (signingKeyEdit signingKeyId projectId assign) db (committed o) := by
  refine .of_found find_signingKey hnone fun existing h => ?_
  obtain ⟨hrow, _, _⟩ := of_findOne h
  obtain ⟨hid, hproject, hkeyId⟩ := hkeeps existing
  exact commits_of_valid (hsome existing h)
    (valid_saveSigningKey db.valid hrow hid hproject hkeyId) save_signingKey

end

/-- Every call does alone what its edit says. -/
theorem runs_operation (host : Host) (now : Int) (db : Database) (u : RowUpdate) :
    Runs (RowUpdate.edit (now, u)) db (u.operation.run host now db) := by
  cases u with
  | updateProject projectId dto =>
    refine runs_project (fun hnone => ?_) fun existing hsome => ?_
    · exact ⟨_, by unfold ProjectFacade.updateProject ProjectFacade.lock; rw [hnone]⟩
    · exact ⟨_, by unfold ProjectFacade.updateProject ProjectFacade.lock; rw [hsome]⟩
  | syncLimits projectId limits =>
    refine runs_project (fun hnone => ?_) fun existing hsome => ?_
    · exact ⟨_, by unfold ProjectFacade.syncLimits ProjectFacade.lock; rw [hnone]⟩
    · exact ⟨_, by unfold ProjectFacade.syncLimits ProjectFacade.lock; rw [hsome]⟩
  | deleteProject projectId =>
    refine runs_project (fun hnone => ?_) fun existing hsome => ?_
    · exact ⟨_, by unfold ProjectFacade.deleteProject ProjectFacade.lock; rw [hnone]⟩
    · obtain ⟨hrow, _, hid⟩ := of_findOne hsome
      refine ⟨(), ?_⟩
      unfold ProjectFacade.deleteProject ProjectFacade.lock
      rw [hsome]
      dsimp only
      rw [updateRows_eq_saveRow db.valid.pkProject hrow rfl hid
        fun r hr => (of_decide_eq_true hr).trans (of_decide_eq_true hid).symm]
  | updateScope accessScopeId projectId dto =>
    refine runs_scope (fun _ => ⟨rfl, rfl, rfl⟩) (fun hnone => ?_) fun existing hsome => ?_
    · exact ⟨_, by unfold AccessScopeFacade.update; rw [hnone]⟩
    · exact ⟨_, by unfold AccessScopeFacade.update; rw [hsome]⟩
  | updateApp appId projectId dto =>
    refine runs_app (fun _ => ⟨rfl, rfl, rfl⟩) (fun hnone => ?_) fun existing hsome => ?_
    · exact ⟨_, by unfold PlatformAppFacade.updateApp; rw [hnone]⟩
    · exact ⟨_, by unfold PlatformAppFacade.updateApp; rw [hsome]⟩
  | updateRoom roomId appId data =>
    refine runs_room (fun _ => ⟨rfl, rfl, rfl⟩) (fun hnone => ?_) fun existing hsome => ?_
    · exact ⟨_, by unfold RoomFacade.updateRoom; rw [hnone]⟩
    · exact ⟨_, by unfold RoomFacade.updateRoom RoomFacade.patchRoom; rw [hsome]⟩
  | deleteRoom roomId appId =>
    refine runs_room (fun _ => ⟨rfl, rfl, rfl⟩) (fun hnone => ?_) fun existing hsome => ?_
    · exact ⟨_, by unfold RoomFacade.deleteRoom; rw [hnone]⟩
    · obtain ⟨hrow, hlive, hmatch⟩ := of_findOne hsome
      have hid := of_decide_eq_true (Bool.and_eq_true_iff.1 hmatch).1
      refine ⟨(), ?_⟩
      unfold RoomFacade.deleteRoom RoomFacade.removeRoom
      rw [hsome]
      dsimp only
      rw [updateRows_eq_saveRow db.valid.pkRoom hrow rfl (by rw [hmatch, hlive]; rfl) fun r hr => ?_]
      simp only [Bool.and_eq_true, decide_eq_true_eq] at hr
      exact hr.1.1.trans hid.symm
  | updateLobby lobbyId appId data =>
    refine runs_lobby (fun _ => ⟨rfl, rfl, rfl⟩) (fun hnone => ?_) fun existing hsome => ?_
    · exact ⟨_, by unfold LobbyFacade.updateLobby; rw [hnone]⟩
    · exact ⟨_, by unfold LobbyFacade.updateLobby; rw [hsome]⟩
  | deleteLobby lobbyId appId =>
    refine runs_lobby (fun _ => ⟨rfl, rfl, rfl⟩) (fun hnone => ?_) fun existing hsome => ?_
    · exact ⟨_, by unfold LobbyFacade.deleteLobby; rw [hnone]⟩
    · obtain ⟨hrow, hlive, hmatch⟩ := of_findOne hsome
      have hid := of_decide_eq_true (Bool.and_eq_true_iff.1 hmatch).1
      refine ⟨(), ?_⟩
      unfold LobbyFacade.deleteLobby
      rw [hsome]
      dsimp only
      rw [updateRows_eq_saveRow db.valid.pkLobby hrow rfl (by rw [hmatch, hlive]; rfl)
        fun r hr => ?_]
      simp only [Bool.and_eq_true, decide_eq_true_eq] at hr
      exact hr.1.1.trans hid.symm
  | updateSigningKey signingKeyId projectId data =>
    refine runs_signingKey (fun _ => ⟨rfl, rfl, rfl⟩) (fun hnone => ?_) fun existing hsome => ?_
    · exact ⟨_, by unfold SigningKeyFacade.updateSigningKey; rw [hnone]⟩
    · exact ⟨_, by unfold SigningKeyFacade.updateSigningKey SigningKeyFacade.patchSigningKey; rw [hsome]⟩
  | deleteSigningKey signingKeyId projectId =>
    refine runs_signingKey (fun _ => ⟨rfl, rfl, rfl⟩) (fun hnone => ?_) fun existing hsome => ?_
    · exact ⟨_, by unfold SigningKeyFacade.deleteSigningKey; rw [hnone]⟩
    · obtain ⟨hrow, hlive, hmatch⟩ := of_findOne hsome
      have hid := of_decide_eq_true (Bool.and_eq_true_iff.1 hmatch).1
      refine ⟨existing, ?_⟩
      unfold SigningKeyFacade.deleteSigningKey
      rw [hsome]
      dsimp only
      rw [updateRows_eq_saveRow db.valid.pkSigningKey hrow rfl (by rw [hmatch, hlive]; rfl)
        fun r hr => ?_]
      simp only [Bool.and_eq_true, decide_eq_true_eq] at hr
      exact hr.1.1.trans hid.symm

/-! ## Any interleaving -/

/-- The calls of a list, each run to its end before the next one starts. -/
def execute (host : Host) (db : Database) (calls : List (Int × RowUpdate)) : Database :=
  calls.foldl (fun db call => call.2.operation.apply host call.1 db) db

theorem execute_append (host : Host) (db : Database) (calls : List (Int × RowUpdate))
    (call : Int × RowUpdate) : execute host db (calls ++ [call]) =
      call.2.operation.apply host call.1 (execute host db calls) := by
  unfold execute
  rw [List.foldl_append]
  rfl

/-- The operation of a call, at its instant. -/
def Succeeds (host : Host) (call : Int × RowUpdate) (db : Database) : Prop :=
  ∃ db', call.2.operation.run host call.1 db = .ok db'

/-- Each call of a serial execution has the outcome its operation has there. -/
def OutcomesOf (host : Host) (db : Database) (history : List (Nat × (Int × RowUpdate) × Bool)) :
    Prop :=
  ∀ before e after, history = before ++ e :: after →
    (e.2.2 = true ↔ Succeeds host e.2.1 (execute host db (before.map (·.2.1))))

theorem OutcomesOf.append {host : Host} {db : Database}
    {history : List (Nat × (Int × RowUpdate) × Bool)} (h : OutcomesOf host db history)
    {e : Nat × (Int × RowUpdate) × Bool}
    (he : e.2.2 = true ↔ Succeeds host e.2.1 (execute host db (history.map (·.2.1)))) :
    OutcomesOf host db (history ++ [e]) := by
  intro before e' after hsplit
  rcases List.eq_nil_or_concat after with rfl | ⟨after', last, rfl⟩
  · obtain ⟨rfl, heq⟩ := List.append_inj' hsplit rfl
    cases heq
    exact he
  · rw [List.concat_eq_append, ← List.cons_append, ← List.append_assoc] at hsplit
    exact h before e' after' (List.append_inj' hsplit rfl).1

/-- What the edits leave one after another is what the operations leave. -/
theorem serial_operations (host : Host) {db : Database} {rows : List Row}
    {history : List (Nat × (Int × RowUpdate) × Bool)}
    (h : Serial Row.key RowUpdate.edit db.store.configRows rows history) :
    rows = (execute host db (history.map (·.2.1))).store.configRows ∧
      OutcomesOf host db history := by
  induction h with
  | nil =>
    refine ⟨rfl, fun before e after hsplit => ?_⟩
    cases before <;> cases hsplit
  | @committed rows history c i row _ hf ih =>
    obtain ⟨hrows, houtcomes⟩ := ih
    rw [hrows] at hf
    obtain ⟨db', hok, hsaved⟩ := (runs_operation host i.1 _ i.2).commits row hf
    constructor
    · rw [List.map_append, List.map_singleton, execute_append, Operation.apply, hok, hrows]
      exact hsaved.symm
    · exact houtcomes.append (iff_of_true rfl ⟨db', hok⟩)
  | @refused rows history c i _ hf ih =>
    obtain ⟨hrows, houtcomes⟩ := ih
    rw [hrows] at hf
    obtain ⟨err, herr⟩ := (runs_operation host i.1 _ i.2).refused hf
    constructor
    · rw [List.map_append, List.map_singleton, execute_append, Operation.apply, herr, hrows]
    · refine houtcomes.append (iff_of_false (by simp) ?_)
      rintro ⟨db', hok⟩
      rw [herr] at hok
      cases hok

theorem run_keepsInv {db : Database} {run : List (Label (Int × RowUpdate))} {s : RowState}
    (hrun : exec rowStep (RowState.init db) run = some s) :
    Inv Row.key RowUpdate.edit s ∧
      ∃ history, Serialized Row.key RowUpdate.edit db.store.configRows s history :=
  serialized_run (fun i row _ => edit_keepsKey i row) (uniqueOn_configRows db.valid) hrun

/-- Two patches of one project at once: the second, which loaded the row first, is aborted. -/
def twoPatches : List (Label (Int × RowUpdate)) :=
  [.start 0 (5, .updateProject (.of "p1") { name := some "initech" }),
    .start 1 (6, .updateProject (.of "p1") { description := some (some "second") }), .load 1,
    .load 0, .reload 0, .abort 1, .write 0, .commit 0,
    .start 2 (7, .deleteProject (.of "p2")), .load 2]

def oneProject : Database where
  store := { projects := [{ projectId := .of "p1", name := "acme" }] }
  valid := by decide

/-- Once two calls hold one row, of which each would make something else, they do not both commit:
neither can write while the other holds the row. -/
theorem shared_row_one_commits (db : Database) (run later : List (Label (Int × RowUpdate)))
    (s s' : RowState) (c c' : Nat) (call call' : Int × RowUpdate) (row : Row)
    (hrun : exec rowStep (RowState.init db) run = some s)
    (hlater : exec rowStep s later = some s') (hne : c' ≠ c)
    (hc : s.calls c = some (call, .loaded row)) (hc' : s.calls c' = some (call', .loaded row))
    (hchange : (RowUpdate.edit call).apply row ≠ row)
    (hchange' : (RowUpdate.edit call').apply row ≠ row) :
    ¬ (s'.calls c = some (call, .committed) ∧ s'.calls c' = some (call', .committed)) :=
  one_of_two (fun i row _ => edit_keepsKey i row) (run_keepsInv hrun).1 hlater hne hc hc' hchange
    hchange'

/-- The patches of `twoPatches`, at the moment when both hold the project. -/
theorem shared_row_one_commits_patches : ∃ s,
    exec rowStep (RowState.init oneProject) (twoPatches.take 4) = some s ∧
    ∃ s', exec rowStep s (twoPatches.drop 4) = some s' ∧
      ¬ (s'.calls 0 =
          some ((5, .updateProject (.of "p1") { name := some "initech" }), .committed) ∧
        s'.calls 1 =
          some ((6, .updateProject (.of "p1") { description := some (some "second") }),
            .committed)) :=
  ⟨_, rfl, _, rfl, shared_row_one_commits oneProject (twoPatches.take 4) (twoPatches.drop 4) _ _ 0 1
    _ _ (.project { projectId := .of "p1", name := "acme" }) rfl rfl (by decide) rfl rfl (by decide)
    (by decide)⟩

end Facade
end NolagCore
