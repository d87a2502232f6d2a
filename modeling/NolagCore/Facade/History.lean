import NolagCore.Authz.Admission
import NolagCore.Facade.Origin

/-!
# Facade.History

What the configuration never forgets. Removing a project for good aside, no operation takes a row of
a configuration table away: it patches a live row or stamps it as deleted. The key of a row, the
rows it hangs under, its slug and its credential are written once, and a row that is stamped is
never written again.
-/

namespace NolagCore

open Lib

namespace Store

/-! ## Rows over time -/

/-- The columns of a row that no update reaches. An app grant has no others. -/
inductive Fixed where
  | project (projectId : Uuid) (organizationId : Option Uuid)
  | accessScope (accessScopeId projectId : Uuid) (slug : String)
  | app (appId projectId : Uuid) (slug : String)
  | room (roomId appId : Uuid) (slug : String)
  | roomGrant (roomActorAccessId roomId : Uuid) (actorTokenId : Option Uuid)
      (actorType : Option EActorType)
  | lobby (lobbyId appId : Uuid) (slug : String)
  | lobbyRoom (lobbyId roomId : Uuid)
  | actorToken (actorTokenId projectId : Uuid) (keyId secretHash : String) (actorType : EActorType)
  | actorTokenState (actorTokenStateId actorTokenId : Uuid)
  | appGrant (r : ActorAppAccess)
  | signingKey (signingKeyId projectId : Uuid) (keyId secretEncrypted : String)

def Row.fixed : Row → Fixed
  | .project r => .project r.projectId r.organizationId
  | .accessScope r => .accessScope r.accessScopeId r.projectId r.slug
  | .app r => .app r.appId r.projectId r.slug
  | .room r => .room r.roomId r.appId r.slug
  | .roomGrant r => .roomGrant r.roomActorAccessId r.roomId r.actorTokenId r.actorType
  | .lobby r => .lobby r.lobbyId r.appId r.slug
  | .lobbyRoom r => .lobbyRoom r.lobbyId r.roomId
  | .actorToken r => .actorToken r.actorTokenId r.projectId r.keyId r.secretHash r.actorType
  | .actorTokenState r => .actorTokenState r.actorTokenStateId r.actorTokenId
  | .appGrant r => .appGrant r
  | .signingKey r => .signingKey r.signingKeyId r.projectId r.keyId r.secretEncrypted

/-- What a stored row may be later: a tombstone stays as it is. -/
structure Row.Becomes (row row' : Row) : Prop where
  fixed : row'.fixed = row.fixed
  final : row.isLive = false → row' = row

theorem Row.Becomes.refl {row : Row} : row.Becomes row := ⟨rfl, fun _ => rfl⟩

theorem Row.Becomes.trans {row row' row'' : Row} (h : row.Becomes row') (h' : row'.Becomes row'') :
    row.Becomes row'' := by
  refine ⟨h'.fixed.trans h.fixed, fun hdead => ?_⟩
  obtain rfl := h.final hdead
  exact h'.final hdead

section

variable {α κ : Type} {rows : List α} (c : α → Row)

/-- Every row of `rows` is in `rows'`, as what it may be later. -/
def RowsKept (rows rows' : List α) : Prop := ∀ r ∈ rows, ∃ r' ∈ rows', (c r).Becomes (c r')

theorem RowsKept.refl : RowsKept c rows rows := fun r hr => ⟨r, hr, .refl⟩

theorem RowsKept.trans {c : α → Row} {rows' rows'' : List α} (h : RowsKept c rows rows')
    (h' : RowsKept c rows' rows'') : RowsKept c rows rows'' := by
  intro r hr
  obtain ⟨r', hr', hb⟩ := h r hr
  obtain ⟨r'', hr'', hb'⟩ := h' r' hr'
  exact ⟨r'', hr'', hb.trans hb'⟩

theorem RowsKept.append {new : List α} : RowsKept c rows (rows ++ new) :=
  fun r hr => ⟨r, List.mem_append_left _ hr, .refl⟩

/-- A saved table has every row it had, the live one that was loaded patched. -/
theorem RowsKept.save [DecidableEq κ] {key : α → κ} {existing entity : α} (hpk : UniqueOn key rows)
    (hrow : existing ∈ rows) (hlive : (c existing).isLive = true)
    (hkey : key entity = key existing) (hfixed : (c entity).fixed = (c existing).fixed) :
    RowsKept c rows (saveRow key entity rows) := by
  intro r hr
  refine ⟨_, List.mem_map_of_mem hr, ?_⟩
  split
  · rename_i heq
    rw [hpk.eq_of_key hr hrow (heq.trans hkey)]
    exact ⟨hfixed, fun hdead => absurd (hdead.symm.trans hlive) (by simp)⟩
  · exact .refl

/-- A stamped table has every row it had, live ones stamped. -/
theorem RowsKept.stamp {p : α → Bool} {f : α → α}
    (hlive : ∀ r ∈ rows, p r = true → (c r).isLive = true)
    (hfixed : ∀ r, (c (f r)).fixed = (c r).fixed) : RowsKept c rows (updateRows p f rows) := by
  intro r hr
  refine ⟨_, List.mem_map_of_mem hr, ?_⟩
  split
  · rename_i hp
    exact ⟨hfixed r, fun hdead => absurd (hdead.symm.trans (hlive r hr hp)) (by simp)⟩
  · exact .refl

end

/-- The tables whose rows are stamped and never removed, with every row they had. -/
structure Keeps (s s' : Store) : Prop where
  projects : RowsKept .project s.projects s'.projects
  accessScopes : RowsKept .accessScope s.accessScopes s'.accessScopes
  apps : RowsKept .app s.apps s'.apps
  rooms : RowsKept .room s.rooms s'.rooms
  roomActorAccess : RowsKept .roomGrant s.roomActorAccess s'.roomActorAccess
  lobbies : RowsKept .lobby s.lobbies s'.lobbies
  actorTokens : RowsKept .actorToken s.actorTokens s'.actorTokens
  actorAppAccess : RowsKept .appGrant s.actorAppAccess s'.actorAppAccess
  signingKeys : RowsKept .signingKey s.signingKeys s'.signingKeys

theorem Keeps.same (s : Store) : Keeps s s := by
  constructor <;> exact .refl _

theorem Keeps.trans {s s' s'' : Store} (h : Keeps s s') (h' : Keeps s' s'') : Keeps s s'' where
  projects := h.projects.trans h'.projects
  accessScopes := h.accessScopes.trans h'.accessScopes
  apps := h.apps.trans h'.apps
  rooms := h.rooms.trans h'.rooms
  roomActorAccess := h.roomActorAccess.trans h'.roomActorAccess
  lobbies := h.lobbies.trans h'.lobbies
  actorTokens := h.actorTokens.trans h'.actorTokens
  actorAppAccess := h.actorAppAccess.trans h'.actorAppAccess
  signingKeys := h.signingKeys.trans h'.signingKeys

theorem Keeps.append (s d : Store) : Keeps s (s.append d) := by
  constructor <;> exact .append _

end Store

namespace Facade

open Store ProjectConfig
open Authz (configure sampleSetup)

section

variable {host : Host} {now : Int} {db : Database}

/-! ## Projects, scopes and apps -/

theorem project_update_keeps {projectId : Uuid} {dto : ProjectFacade.ProjectPatchDto} :
    Leaves (ProjectFacade.updateProject db projectId dto) (Keeps db.store) := by
  unfold ProjectFacade.updateProject
  split
  · exact .error
  · rename_i existing hlock
    obtain ⟨hrow, hlive, _⟩ := of_lock hlock
    exact .commit { Keeps.same db.store with
      projects := .save _ db.valid.pkProject hrow (Option.isNone_iff_eq_none.2 hlive) rfl rfl }

theorem project_limits_keeps {projectId : Uuid} {limits : ProjectFacade.ProjectLimitsDto} :
    Leaves (ProjectFacade.syncLimits db now projectId limits) (Keeps db.store) := by
  unfold ProjectFacade.syncLimits
  split
  · exact .error
  · rename_i existing hlock
    obtain ⟨hrow, hlive, _⟩ := of_lock hlock
    exact .commit { Keeps.same db.store with
      projects := .save _ db.valid.pkProject hrow (Option.isNone_iff_eq_none.2 hlive) rfl rfl }

/-- The stamped row is the one that was locked, so it was live. -/
theorem project_delete_keeps {projectId : Uuid} :
    Leaves (ProjectFacade.deleteProject db now projectId) (Keeps db.store) := by
  unfold ProjectFacade.deleteProject
  split
  · exact .error
  · rename_i existing hlock
    obtain ⟨hrow, hlive, hid⟩ := of_lock hlock
    refine .commit { Keeps.same db.store with
      projects := .stamp _ (fun r hr hp => ?_) fun _ => rfl }
    rw [db.valid.pkProject.eq_of_key hr hrow ((of_decide_eq_true hp).trans hid.symm)]
    exact Option.isNone_iff_eq_none.2 hlive

theorem scope_create_keeps {accessScopeId projectId : Uuid}
    {dto : AccessScopeFacade.AccessScopeCreateDto} :
    Leaves (AccessScopeFacade.create db accessScopeId projectId dto) (Keeps db.store) := by
  unfold AccessScopeFacade.create
  split
  · exact .error
  · exact .commit { Keeps.same db.store with accessScopes := .append _ }

theorem scope_update_keeps {accessScopeId projectId : Uuid}
    {dto : AccessScopeFacade.AccessScopePatchDto} :
    Leaves (AccessScopeFacade.update db accessScopeId projectId dto) (Keeps db.store) := by
  unfold AccessScopeFacade.update
  split
  · exact .error
  · rename_i existing hf
    obtain ⟨hrow, hlive, _⟩ := of_findOne hf
    exact .commit { Keeps.same db.store with
      accessScopes := .save _ db.valid.pkScope hrow hlive rfl rfl }

theorem scope_delete_keeps {accessScopeId projectId : Uuid} :
    Leaves (AccessScopeFacade.delete db now accessScopeId projectId) (Keeps db.store) := by
  unfold AccessScopeFacade.delete
  split
  · exact .error
  · dsimp only
    split
    · exact .error
    · refine .commit { Keeps.same db.store with
        accessScopes := .stamp _ (fun r _ hp => ?_) fun _ => rfl }
      rw [Bool.and_eq_true] at hp
      exact hp.2

theorem app_create_keeps {appId projectId : Uuid} {dto : PlatformAppFacade.PlatformAppCreateDto} :
    Leaves (PlatformAppFacade.createApp db appId projectId dto) (Keeps db.store) := by
  unfold PlatformAppFacade.createApp
  dsimp only
  split
  · exact .error
  · exact .commit { Keeps.same db.store with apps := .append _ }

theorem app_update_keeps {appId projectId : Uuid} {dto : PlatformAppFacade.PlatformAppPatchDto} :
    Leaves (PlatformAppFacade.updateApp db appId projectId dto) (Keeps db.store) := by
  unfold PlatformAppFacade.updateApp
  split
  · exact .error
  · rename_i existing hf
    obtain ⟨hrow, hlive, _⟩ := of_findOne hf
    exact .commit { Keeps.same db.store with apps := .save _ db.valid.pkApp hrow hlive rfl rfl }

/-- The stamp names the app alone, which the lookup has found live. -/
theorem app_delete_keeps {appId projectId : Uuid} :
    Leaves (PlatformAppFacade.deleteApp db now appId projectId) (Keeps db.store) := by
  unfold PlatformAppFacade.deleteApp
  split
  · exact .error
  · rename_i existing hf
    obtain ⟨hrow, hlive, hid⟩ := of_findOne hf
    rw [Bool.and_eq_true, decide_eq_true_eq, decide_eq_true_eq] at hid
    refine .commit { Keeps.same db.store with apps := .stamp _ (fun r hr hp => ?_) fun _ => rfl }
    rw [Bool.and_eq_true, decide_eq_true_eq, decide_eq_true_eq] at hp
    rw [db.valid.pkApp.eq_of_key hr hrow (hp.1.trans hid.1.symm)]
    exact hlive

/-! ## Rooms and their grants -/

theorem room_create_keeps {roomId appId : Uuid} {data : RoomFacade.RoomCreateDto} :
    Leaves (RoomFacade.createRoom db roomId appId data) (Keeps db.store) := by
  unfold RoomFacade.createRoom
  dsimp only
  split
  · exact .error
  · unfold RoomFacade.insertRoom
    split
    · exact .error
    · exact .commit { Keeps.same db.store with rooms := .append _ }

theorem room_ensure_keeps {roomId appId : Uuid} {data : RoomFacade.RoomCreateDto}
    {maxRooms : Nat} :
    Leaves (RoomFacade.ensureRoom db roomId appId data maxRooms) (Keeps db.store) := by
  unfold RoomFacade.ensureRoom
  dsimp only
  split
  · exact .unchanged (.same db.store)
  · split
    · exact .error
    · split
      · rename_i hr
        intro a db' h
        cases h
        exact room_create_keeps _ _ hr
      · split
        · exact .unchanged (.same db.store)
        · exact .error

theorem room_update_keeps {roomId appId : Uuid} {data : RoomFacade.RoomPatchDto} :
    Leaves (RoomFacade.updateRoom db roomId appId data) (Keeps db.store) := by
  unfold RoomFacade.updateRoom
  split
  · exact .error
  · unfold RoomFacade.patchRoom
    split
    · exact .error
    · rename_i existing hf
      obtain ⟨hrow, hlive, _⟩ := of_findOne hf
      exact .commit { Keeps.same db.store with rooms := .save _ db.valid.pkRoom hrow hlive rfl rfl }

theorem room_delete_keeps {roomId appId : Uuid} :
    Leaves (RoomFacade.deleteRoom db now roomId appId) (Keeps db.store) := by
  unfold RoomFacade.deleteRoom
  split
  · exact .error
  · refine .commit { Keeps.same db.store with rooms := .stamp _ (fun r _ hp => ?_) fun _ => rfl }
    rw [Bool.and_eq_true] at hp
    exact hp.2

theorem roomGrant_create_keeps {roomActorAccessId roomId : Uuid}
    {dto : RoomActorAccessFacade.RoomActorAccessCreateDto} :
    Leaves (RoomActorAccessFacade.create host.legacy db roomActorAccessId roomId dto)
      (Keeps db.store) := by
  unfold RoomActorAccessFacade.create
  split
  · exact .error
  · split
    · exact .error
    · split
      · exact .error
      · split
        · exact .error
        · exact .commit { Keeps.same db.store with roomActorAccess := .append _ }

theorem roomGrant_assign_fixed {legacy : String → Option Int}
    {dto : RoomActorAccessFacade.RoomActorAccessUpdateDto} {existing entity : RoomActorAccess}
    (h : RoomActorAccessFacade.assign legacy dto existing = .ok entity) :
    (Row.roomGrant entity).fixed = (Row.roomGrant existing).fixed := by
  unfold RoomActorAccessFacade.assign at h
  split at h
  · cases h
  · cases h
    rfl

theorem roomGrant_update_keeps {roomActorAccessId : Uuid}
    {dto : RoomActorAccessFacade.RoomActorAccessUpdateDto} :
    Leaves (RoomActorAccessFacade.update host.legacy db roomActorAccessId dto)
      (Keeps db.store) := by
  unfold RoomActorAccessFacade.update
  split
  · exact .error
  · rename_i existing hf
    obtain ⟨hrow, hlive, _⟩ := of_findOne hf
    split
    · exact .error
    · rename_i entity he
      exact .commit { Keeps.same db.store with
        roomActorAccess := .save _ db.valid.pkRoomGrant hrow hlive (roomGrant_assign_place he).1.1
          (roomGrant_assign_fixed he) }

theorem roomGrant_delete_keeps {roomActorAccessId : Uuid} :
    Leaves (RoomActorAccessFacade.delete db now roomActorAccessId) (Keeps db.store) := by
  unfold RoomActorAccessFacade.delete
  split
  · exact .error
  · rename_i existing hf
    obtain ⟨hrow, hlive, hid⟩ := of_findOne hf
    refine .commit { Keeps.same db.store with
      roomActorAccess := .stamp _ (fun r hr hp => ?_) fun _ => rfl }
    rw [db.valid.pkRoomGrant.eq_of_key hr hrow
      ((of_decide_eq_true hp).trans (of_decide_eq_true hid).symm)]
    exact hlive

/-! ## Lobbies -/

theorem lobby_create_keeps {lobbyId appId : Uuid} {data : LobbyFacade.LobbyCreateDto} :
    Leaves (LobbyFacade.createLobby db lobbyId appId data) (Keeps db.store) := by
  unfold LobbyFacade.createLobby
  dsimp only
  split
  · exact .error
  · unfold LobbyFacade.insertLobby
    split
    · exact .error
    · exact .commit { Keeps.same db.store with lobbies := .append _ }

theorem lobby_update_keeps {lobbyId appId : Uuid} {data : LobbyFacade.LobbyPatchDto} :
    Leaves (LobbyFacade.updateLobby db lobbyId appId data) (Keeps db.store) := by
  unfold LobbyFacade.updateLobby
  split
  · exact .error
  · rename_i existing hf
    obtain ⟨hrow, hlive, _⟩ := of_findOne hf
    exact .commit { Keeps.same db.store with
      lobbies := .save _ db.valid.pkLobby hrow hlive rfl rfl }

theorem lobby_delete_keeps {lobbyId appId : Uuid} :
    Leaves (LobbyFacade.deleteLobby db now lobbyId appId) (Keeps db.store) := by
  unfold LobbyFacade.deleteLobby
  split
  · exact .error
  · refine .commit { Keeps.same db.store with lobbies := .stamp _ (fun r _ hp => ?_) fun _ => rfl }
    rw [Bool.and_eq_true] at hp
    exact hp.2

theorem lobby_addRoom_keeps {lobbyId roomId appId : Uuid} :
    Leaves (LobbyFacade.addRoomToLobby db lobbyId roomId appId) (Keeps db.store) := by
  unfold LobbyFacade.addRoomToLobby
  dsimp only
  split
  · exact .error
  · split
    · exact .error
    · split
      · exact .error
      · split
        · exact .error
        · exact .commit { Keeps.same db.store with }

theorem lobby_removeRoom_keeps {lobbyId roomId appId : Uuid} :
    Leaves (LobbyFacade.removeRoomFromLobby db lobbyId roomId appId) (Keeps db.store) := by
  unfold LobbyFacade.removeRoomFromLobby
  split
  · exact .error
  · exact .commit { Keeps.same db.store with }

/-! ## Actors, their session state and signing keys -/

theorem actor_create_keeps {actorTokenId projectId : Uuid} {random : CredentialBytes}
    {data : ActorTokenFacade.ActorTokenCreateDto} :
    Leaves (ActorTokenFacade.createActorToken host.legacy host.crypto db actorTokenId random projectId
      data) (Keeps db.store) := by
  unfold ActorTokenFacade.createActorToken
  split
  · exact .error
  · dsimp only
    split
    · exact .error
    · exact .commit { Keeps.same db.store with actorTokens := .append _ }

theorem actor_assign_fixed {legacy : String → Option Int}
    {data : ActorTokenFacade.ActorTokenPatchDto} {existing entity : ActorToken}
    (h : ActorTokenFacade.assign legacy data existing = .ok entity) :
    (Row.actorToken entity).fixed = (Row.actorToken existing).fixed := by
  unfold ActorTokenFacade.assign at h
  split at h
  · cases h
  · cases h
    rfl

theorem actor_update_keeps {actorTokenId projectId : Uuid}
    {data : ActorTokenFacade.ActorTokenPatchDto} :
    Leaves (ActorTokenFacade.updateActorToken host.legacy db actorTokenId projectId data)
      (Keeps db.store) := by
  unfold ActorTokenFacade.updateActorToken
  split
  · exact .error
  · split
    · exact .error
    · unfold ActorTokenFacade.patchActorToken
      split
      · exact .error
      · rename_i existing hf
        obtain ⟨hrow, hlive, _⟩ := of_findOne hf
        split
        · exact .error
        · rename_i entity he
          exact .commit { Keeps.same db.store with
            actorTokens := .save _ db.valid.pkActor hrow hlive (actor_assign_place he).1.1
              (actor_assign_fixed he) }

theorem actor_delete_keeps {actorTokenId projectId : Uuid} :
    Leaves (ActorTokenFacade.deleteActorToken db now actorTokenId projectId) (Keeps db.store) := by
  unfold ActorTokenFacade.deleteActorToken
  split
  · exact .error
  · refine .commit { Keeps.same db.store with
      actorTokens := .stamp _ (fun r _ hp => ?_) fun _ => rfl }
    rw [Bool.and_eq_true] at hp
    exact hp.2

theorem actorState_update_keeps {actorTokenStateId actorTokenId : Uuid}
    {connectionState : ConnectionState} {krakenNodeId : Option String} :
    Leaves (ActorTokenFacade.updateActorState db actorTokenStateId actorTokenId connectionState
      krakenNodeId) (Keeps db.store) := by
  unfold ActorTokenFacade.updateActorState
  split
  · exact .commit { Keeps.same db.store with }
  · exact .commit { Keeps.same db.store with }

theorem subscription_update_keeps {actorTokenStateId : Uuid} {dto : Authz.SubscriptionUpdate} :
    Leaves (Authz.updateSubscription db now actorTokenStateId dto) (Keeps db.store) := by
  unfold Authz.updateSubscription
  split
  · exact .commit { Keeps.same db.store with }
  · exact .commit { Keeps.same db.store with }

theorem subscription_clear_keeps {actorTokenId : Uuid} :
    Leaves (Authz.clearSubscriptions db now actorTokenId) (Keeps db.store) := by
  unfold Authz.clearSubscriptions
  split
  · exact .unchanged (.same db.store)
  · exact .commit { Keeps.same db.store with }

theorem signingKey_create_keeps {signingKeyId projectId : Uuid}
    {random : SigningKeyFacade.SigningKeyBytes} {data : SigningKeyFacade.SigningKeyCreateDto} :
    Leaves (SigningKeyFacade.createSigningKey host.crypto host.cipher host.config db signingKeyId
      random projectId data) (Keeps db.store) := by
  unfold SigningKeyFacade.createSigningKey
  dsimp only
  split
  · exact .error
  · exact .commit { Keeps.same db.store with signingKeys := .append _ }

theorem signingKey_update_keeps {signingKeyId projectId : Uuid}
    {data : SigningKeyFacade.SigningKeyPatchDto} :
    Leaves (SigningKeyFacade.updateSigningKey db signingKeyId projectId data) (Keeps db.store) := by
  unfold SigningKeyFacade.updateSigningKey
  split
  · exact .error
  · unfold SigningKeyFacade.patchSigningKey
    split
    · exact .error
    · rename_i existing hf
      obtain ⟨hrow, hlive, _⟩ := of_findOne hf
      exact .commit { Keeps.same db.store with
        signingKeys := .save _ db.valid.pkSigningKey hrow hlive rfl rfl }

theorem signingKey_delete_keeps {signingKeyId projectId : Uuid} :
    Leaves (SigningKeyFacade.deleteSigningKey db now signingKeyId projectId) (Keeps db.store) := by
  unfold SigningKeyFacade.deleteSigningKey
  split
  · exact .error
  · refine .commit { Keeps.same db.store with
      signingKeys := .stamp _ (fun r _ hp => ?_) fun _ => rfl }
    rw [Bool.and_eq_true] at hp
    exact hp.2

/-! ## Runs -/

theorem run_keeps {op : Operation} {db' : Database} (h : op.run host now db = .ok db')
    (hpurge : ∀ projectId, op ≠ .purgeProject projectId) : Keeps db.store db'.store := by
  cases op with
  | createProject projectId dto =>
    exact Leaves.committed (.commit { Keeps.same db.store with projects := .append _ }) h
  | updateProject projectId dto => exact project_update_keeps.committed h
  | syncLimits projectId limits => exact project_limits_keeps.committed h
  | deleteProject projectId => exact project_delete_keeps.committed h
  | createScope accessScopeId projectId dto => exact scope_create_keeps.committed h
  | updateScope accessScopeId projectId dto => exact scope_update_keeps.committed h
  | deleteScope accessScopeId projectId => exact scope_delete_keeps.committed h
  | createApp appId projectId dto => exact app_create_keeps.committed h
  | updateApp appId projectId dto => exact app_update_keeps.committed h
  | deleteApp appId projectId => exact app_delete_keeps.committed h
  | createRoom roomId appId data => exact room_create_keeps.committed h
  | ensureRoom roomId appId data maxRooms => exact room_ensure_keeps.committed h
  | updateRoom roomId appId data => exact room_update_keeps.committed h
  | deleteRoom roomId appId => exact room_delete_keeps.committed h
  | createStaticRooms ids appId rooms =>
    exact Leaves.committed (.commit { Keeps.same db.store with rooms := .append _ }) h
  | createRoomGrant roomActorAccessId roomId dto => exact roomGrant_create_keeps.committed h
  | updateRoomGrant roomActorAccessId dto => exact roomGrant_update_keeps.committed h
  | deleteRoomGrant roomActorAccessId => exact roomGrant_delete_keeps.committed h
  | createLobby lobbyId appId data => exact lobby_create_keeps.committed h
  | updateLobby lobbyId appId data => exact lobby_update_keeps.committed h
  | deleteLobby lobbyId appId => exact lobby_delete_keeps.committed h
  | addRoomToLobby lobbyId roomId appId => exact lobby_addRoom_keeps.committed h
  | removeRoomFromLobby lobbyId roomId appId => exact lobby_removeRoom_keeps.committed h
  | createStaticLobbies ids appId lobbies createdRooms =>
    exact Leaves.committed (.commit { Keeps.same db.store with lobbies := .append _ }) h
  | createActorToken actorTokenId random projectId data => exact actor_create_keeps.committed h
  | updateActorToken actorTokenId projectId data => exact actor_update_keeps.committed h
  | deleteActorToken actorTokenId projectId => exact actor_delete_keeps.committed h
  | updateActorState actorTokenStateId actorTokenId connectionState krakenNodeId =>
    exact actorState_update_keeps.committed h
  | clearActorState actorTokenId =>
    exact Leaves.committed (.commit { Keeps.same db.store with }) h
  | updateSubscription actorTokenStateId dto => exact subscription_update_keeps.committed h
  | clearSubscriptions actorTokenId => exact subscription_clear_keeps.committed h
  | createSigningKey signingKeyId random projectId data => exact signingKey_create_keeps.committed h
  | updateSigningKey signingKeyId projectId data => exact signingKey_update_keeps.committed h
  | deleteSigningKey signingKeyId projectId => exact signingKey_delete_keeps.committed h
  | importProject draws doc =>
    obtain ⟨credentials, him⟩ := import_done h
    obtain ⟨d, _, hs⟩ := him.rows
    rw [hs]
    exact .append _ _
  | purgeProject projectId => exact absurd rfl (hpurge projectId)

theorem keeps_of_run {run : List (Int × Operation)} {db' : Database}
    (hrun : exec (configure host) db run = some db')
    (hpurge : ∀ l ∈ run, ∀ projectId, l.2 ≠ .purgeProject projectId) :
    Keeps db.store db'.store := by
  refine exec_invariant (I := fun db' => Keeps db.store db'.store)
    (C := fun _ l => ∀ projectId, l.2 ≠ .purgeProject projectId) ?_ run db db' (.same _)
    (.of_forall hpurge) hrun
  intro db₁ l db₂ hI hC hstep
  cases hstep
  unfold Operation.apply
  split
  · rename_i db₂ hok
    exact hI.trans (run_keeps hok hC)
  · exact hI

end

/-- In every run that removes no project for good, every record of a configuration table is still
there, with the key, the parents, the slug and the credential it was written with, and unchanged
once it is deleted. -/
theorem history_kept (host : Host) (run : List (Int × Operation)) (db db' : Database)
    (hrun : exec (configure host) db run = some db')
    (hpurge : ∀ l ∈ run, ∀ projectId, l.2 ≠ .purgeProject projectId) :
    Keeps db.store db'.store :=
  keeps_of_run hrun hpurge

/-- The room of the setup is deleted and another created in its place. -/
def roomReplaced : List (Int × Operation) :=
  [(1, .deleteRoom (.of "room") (.of "app")),
    (2, .createRoom (.of "room2") (.of "app") { slug := some "lobby", name := "Lobby again" })]

theorem history_kept_replaced :
    ∃ db, exec (configure sampleHost) Database.empty sampleSetup = some db ∧
      ∃ db', exec (configure sampleHost) db roomReplaced = some db' ∧ Keeps db.store db'.store := by
  refine ⟨_, rfl, _, rfl, history_kept sampleHost roomReplaced _ _ rfl ?_⟩
  intro l hl projectId hop
  rcases List.mem_cons.1 hl with rfl | hl
  · cases hop
  · cases List.mem_singleton.1 hl
    cases hop

end Facade
end NolagCore
