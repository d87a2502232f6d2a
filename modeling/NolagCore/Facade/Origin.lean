import NolagCore.Facade.Effect

/-!
# Facade.Origin

Where a stored row comes from. After a committed operation every row of an app, a scope, a room, a
lobby, an actor or of what links two of them is one that was stored before, one the operation
stamped as deleted or patched, or one it created. The columns that place a row, its key and the rows
it hangs under, are written once: so an invariant of these tables is a case analysis of what is
created and of the few columns a patch can reach.
-/

namespace NolagCore

open Lib

namespace Store

/-! ## Places -/

def Row.isLive : Row → Bool
  | .project r => live r
  | .accessScope r => live r
  | .app r => live r
  | .room r => live r
  | .roomGrant r => live r
  | .lobby r => live r
  | .lobbyRoom r => live r
  | .actorToken r => live r
  | .actorTokenState r => live r
  | .appGrant r => live r
  | .signingKey r => live r

/-- The tables under a project that a link can join. -/
def Row.isPlaced : Row → Bool
  | .project _ | .actorTokenState _ | .signingKey _ => false
  | _ => true

/-- `r'` is the row `r` as far as its key, its slug and the rows it hangs under go. -/
def Row.SamePlace : Row → Row → Prop
  | .accessScope r, .accessScope r' =>
    r'.accessScopeId = r.accessScopeId ∧ r'.projectId = r.projectId ∧ r'.slug = r.slug
  | .app r, .app r' => r'.appId = r.appId ∧ r'.projectId = r.projectId ∧ r'.slug = r.slug
  | .room r, .room r' => r'.roomId = r.roomId ∧ r'.appId = r.appId ∧ r'.slug = r.slug
  | .roomGrant r, .roomGrant r' => r'.roomActorAccessId = r.roomActorAccessId ∧
    r'.roomId = r.roomId ∧ r'.actorTokenId = r.actorTokenId ∧ r'.actorType = r.actorType
  | .lobby r, .lobby r' => r'.lobbyId = r.lobbyId ∧ r'.appId = r.appId ∧ r'.slug = r.slug
  | .lobbyRoom r, .lobbyRoom r' => r'.lobbyId = r.lobbyId ∧ r'.roomId = r.roomId
  | .actorToken r, .actorToken r' => r'.actorTokenId = r.actorTokenId ∧
    r'.projectId = r.projectId ∧ r'.keyId = r.keyId ∧ r'.actorType = r.actorType
  | .appGrant r, .appGrant r' => r'.actorAppAccessId = r.actorAppAccessId ∧
    r'.actorTokenId = r.actorTokenId ∧ r'.appId = r.appId
  | _, _ => False

theorem Row.SamePlace.refl {row : Row} (h : row.isPlaced = true) : row.SamePlace row := by
  cases row with
  | project r => cases h
  | actorTokenState r => cases h
  | signingKey r => cases h
  | accessScope r => exact ⟨rfl, rfl, rfl⟩
  | app r => exact ⟨rfl, rfl, rfl⟩
  | room r => exact ⟨rfl, rfl, rfl⟩
  | roomGrant r => exact ⟨rfl, rfl, rfl, rfl⟩
  | lobby r => exact ⟨rfl, rfl, rfl⟩
  | lobbyRoom r => exact ⟨rfl, rfl⟩
  | actorToken r => exact ⟨rfl, rfl, rfl, rfl⟩
  | appGrant r => exact ⟨rfl, rfl, rfl⟩

/-- No stored row has the id of `row`. A membership has none of its own. -/
def Lacks (s : Store) : Row → Prop
  | .project r => ∀ r₀ ∈ s.projects, r₀.projectId ≠ r.projectId
  | .accessScope r => ∀ r₀ ∈ s.accessScopes, r₀.accessScopeId ≠ r.accessScopeId
  | .app r => ∀ r₀ ∈ s.apps, r₀.appId ≠ r.appId
  | .room r => ∀ r₀ ∈ s.rooms, r₀.roomId ≠ r.roomId
  | .roomGrant r => ∀ r₀ ∈ s.roomActorAccess, r₀.roomActorAccessId ≠ r.roomActorAccessId
  | .lobby r => ∀ r₀ ∈ s.lobbies, r₀.lobbyId ≠ r.lobbyId
  | .lobbyRoom _ => True
  | .actorToken r => ∀ r₀ ∈ s.actorTokens, r₀.actorTokenId ≠ r.actorTokenId
  | .actorTokenState r => ∀ r₀ ∈ s.actorTokenStates, r₀.actorTokenStateId ≠ r.actorTokenStateId
  | .appGrant r => ∀ r₀ ∈ s.actorAppAccess, r₀.actorAppAccessId ≠ r.actorAppAccessId
  | .signingKey r => ∀ r₀ ∈ s.signingKeys, r₀.signingKeyId ≠ r.signingKeyId

theorem lacks_of_append {s d : Store} (hv : (s.append d).SchemaValid) {row : Row}
    (h : d.Has row) : s.Lacks row := by
  cases row with
  | project r => exact fun r₀ h₀ => hv.pkProject.ne_of_append h₀ h
  | accessScope r => exact fun r₀ h₀ => hv.pkScope.ne_of_append h₀ h
  | app r => exact fun r₀ h₀ => hv.pkApp.ne_of_append h₀ h
  | room r => exact fun r₀ h₀ => hv.pkRoom.ne_of_append h₀ h
  | roomGrant r => exact fun r₀ h₀ => hv.pkRoomGrant.ne_of_append h₀ h
  | lobby r => exact fun r₀ h₀ => hv.pkLobby.ne_of_append h₀ h
  | lobbyRoom r => trivial
  | actorToken r => exact fun r₀ h₀ => hv.pkActor.ne_of_append h₀ h
  | actorTokenState r => exact fun r₀ h₀ => hv.pkState.ne_of_append h₀ h
  | appGrant r => exact fun r₀ h₀ => hv.pkAppGrant.ne_of_append h₀ h
  | signingKey r => exact fun r₀ h₀ => hv.pkSigningKey.ne_of_append h₀ h

end Store

namespace Facade

open Store ProjectConfig

/-! ## What operations write -/

/-- The rows an operation on `s` creates. -/
inductive Creates (host : Host) (now : Int) (s : Store) : Operation → Row → Prop
  | scope {accessScopeId projectId : Uuid} {dto : AccessScopeFacade.AccessScopeCreateDto}
    {r : AccessScope} (hproject : r.projectId = projectId) (hslug : r.slug = dto.slug) :
    Creates host now s (.createScope accessScopeId projectId dto) (.accessScope r)
  | app {appId projectId : Uuid} {dto : PlatformAppFacade.PlatformAppCreateDto} {r : PlatformApp}
    (hproject : r.projectId = projectId) (hslug : r.slug = dto.slug.getD (generateAppSlug dto.name))
    (htopics : r.topics = some dto.topics) :
    Creates host now s (.createApp appId projectId dto) (.app r)
  | room {roomId appId : Uuid} {data : RoomFacade.RoomCreateDto} {r : Room} (happ : r.appId = appId)
    (hslug : r.slug = data.slug.getD (generateSlug data.name)) (hne : r.slug ≠ "") :
    Creates host now s (.createRoom roomId appId data) (.room r)
  | ensuredRoom {roomId appId : Uuid} {data : RoomFacade.RoomCreateDto} {maxRooms : Nat} {r : Room}
    (happ : r.appId = appId) (hslug : r.slug = data.slug.getD (generateSlug data.name))
    (hne : r.slug ≠ "") : Creates host now s (.ensureRoom roomId appId data maxRooms) (.room r)
  | staticRoom {ids : Nat → Uuid} {appId : Uuid} {rooms : List RoomFacade.StaticRoom}
    {declared : RoomFacade.StaticRoom} {r : Room} (hmem : declared ∈ rooms) (happ : r.appId = appId)
    (hslug : r.slug = declared.slug) :
    Creates host now s (.createStaticRooms ids appId rooms) (.room r)
  | roomGrant {roomActorAccessId roomId : Uuid}
    {dto : RoomActorAccessFacade.RoomActorAccessCreateDto} {r : RoomActorAccess}
    (hroom : r.roomId = roomId) (hactor : r.actorTokenId = dto.actorTokenId)
    (htopics : r.topics = dto.topics) :
    Creates host now s (.createRoomGrant roomActorAccessId roomId dto) (.roomGrant r)
  | lobby {lobbyId appId : Uuid} {data : LobbyFacade.LobbyCreateDto} {r : Lobby}
    (happ : r.appId = appId) : Creates host now s (.createLobby lobbyId appId data) (.lobby r)
  | member {lobbyId roomId appId : Uuid} {l : Lobby} {r : Room} {lr : LobbyRoom}
    (hl : l ∈ s.lobbies) (hlid : l.lobbyId = lobbyId) (hlapp : l.appId = appId)
    (hr : r ∈ s.rooms) (hrid : r.roomId = roomId) (hrapp : r.appId = appId)
    (hlobby : lr.lobbyId = lobbyId) (hroom : lr.roomId = roomId) :
    Creates host now s (.addRoomToLobby lobbyId roomId appId) (.lobbyRoom lr)
  | staticLobby {ids : Nat → Uuid} {appId : Uuid} {lobbies : List LobbyFacade.StaticLobby}
    {createdRooms : List (Uuid × String)} {r : Lobby} (happ : r.appId = appId) :
    Creates host now s (.createStaticLobbies ids appId lobbies createdRooms) (.lobby r)
  | staticMember {ids : Nat → Uuid} {appId : Uuid} {lobbies : List LobbyFacade.StaticLobby}
    {createdRooms : List (Uuid × String)} {declared : LobbyFacade.StaticLobby} {slug : String}
    {i : Nat} {lr : LobbyRoom} (hmem : lobbies[i]? = some declared)
    (hslug : slug ∈ declared.rooms.getD [])
    (hroom : (OrderedMap.ofList Prod.snd Prod.fst createdRooms).get? slug = some lr.roomId)
    (hlobby : lr.lobbyId = ids i) (hnew : ∀ l ∈ s.lobbies, l.lobbyId ≠ ids i) :
    Creates host now s (.createStaticLobbies ids appId lobbies createdRooms) (.lobbyRoom lr)
  | actor {actorTokenId projectId : Uuid} {random : CredentialBytes}
    {data : ActorTokenFacade.ActorTokenCreateDto} {r : ActorToken}
    (hproject : r.projectId = projectId) (hscope : r.accessScopeId = data.accessScopeId)
    (hassert : ActorTokenFacade.assertScopeInProject s projectId data.accessScopeId = .ok ()) :
    Creates host now s (.createActorToken actorTokenId random projectId data) (.actorToken r)
  | imported {draws : Draws} {doc : ProjectConfigDoc} {row : Row}
    (hrow : DocRows host draws now doc row) :
    Creates host now s (.importProject draws doc) row

/-- What an operation on `s` may make of a live row, beside the columns nothing depends on. -/
inductive Patches (s : Store) : Operation → Row → Row → Prop
  | scope {accessScopeId projectId : Uuid} {dto : AccessScopeFacade.AccessScopePatchDto}
    {r₀ r : AccessScope} :
    Patches s (.updateScope accessScopeId projectId dto) (.accessScope r₀) (.accessScope r)
  | app {appId projectId : Uuid} {dto : PlatformAppFacade.PlatformAppPatchDto} {r₀ r : PlatformApp}
    (htopics : r.topics = patch (dto.topics.map some) r₀.topics) :
    Patches s (.updateApp appId projectId dto) (.app r₀) (.app r)
  | room {roomId appId : Uuid} {data : RoomFacade.RoomPatchDto} {r₀ r : Room} :
    Patches s (.updateRoom roomId appId data) (.room r₀) (.room r)
  | roomGrant {roomActorAccessId : Uuid} {dto : RoomActorAccessFacade.RoomActorAccessUpdateDto}
    {r₀ r : RoomActorAccess} (htopics : r.topics = patch dto.topics r₀.topics) :
    Patches s (.updateRoomGrant roomActorAccessId dto) (.roomGrant r₀) (.roomGrant r)
  | lobby {lobbyId appId : Uuid} {data : LobbyFacade.LobbyPatchDto} {r₀ r : Lobby} :
    Patches s (.updateLobby lobbyId appId data) (.lobby r₀) (.lobby r)
  | actor {actorTokenId projectId : Uuid} {data : ActorTokenFacade.ActorTokenPatchDto}
    {r₀ r : ActorToken} (hproject : r₀.projectId = projectId)
    (hscope : r.accessScopeId = patch data.accessScopeId r₀.accessScopeId)
    (hassert : ActorTokenFacade.assertScopeInProject s projectId
      (data.accessScopeId.getD none) = .ok ()) :
    Patches s (.updateActorToken actorTokenId projectId data) (.actorToken r₀) (.actorToken r)

/-- Where a row stored after the operation comes from. -/
inductive Origin (host : Host) (now : Int) (s : Store) (op : Operation) : Row → Prop
  | kept {row : Row} (h : s.Has row) : Origin host now s op row
  | stamped {row₀ row : Row} (h : s.Has row₀) (hplace : row₀.SamePlace row)
    (hdead : row.isLive = false) : Origin host now s op row
  | patched {row₀ row : Row} (h : s.Has row₀) (hl : row₀.isLive = true)
    (hplace : row₀.SamePlace row) (hpatch : Patches s op row₀ row) : Origin host now s op row
  | created {row : Row} (hfresh : s.Lacks row) (h : Creates host now s op row) :
    Origin host now s op row

section

variable {host : Host} {now : Int} {s s' : Store} {op : Operation}

/-- A row is new, or stands where a stored row stood. -/
theorem Origin.place {row : Row} (h : Origin host now s op row) (hrow : row.isPlaced = true) :
    (∃ row₀, s.Has row₀ ∧ row₀.SamePlace row) ∨ s.Lacks row ∧ Creates host now s op row := by
  cases h with
  | kept h => exact .inl ⟨row, h, .refl hrow⟩
  | stamped h hplace _ => exact .inl ⟨_, h, hplace⟩
  | patched h _ hplace _ => exact .inl ⟨_, h, hplace⟩
  | created hfresh hc => exact .inr ⟨hfresh, hc⟩

/-! One write on the table whose rows are `Row`s by `c`. -/

section

variable {α κ : Type} (c : α → Row) {rows : List α} {r : α}

theorem Origin.of_append {new : List α} (h : r ∈ rows ++ new) (hc : ∀ r ∈ rows, s.Has (c r))
    (hfresh : ∀ r ∈ new, s.Lacks (c r)) (hnew : ∀ r ∈ new, Creates host now s op (c r)) :
    Origin host now s op (c r) := by
  rcases List.mem_append.1 h with h | h
  · exact .kept (hc r h)
  · exact .created (hfresh r h) (hnew r h)

theorem Origin.of_save [DecidableEq κ] {key : α → κ} {existing entity : α}
    (h : r ∈ saveRow key entity rows) (hc : ∀ r ∈ rows, s.Has (c r)) (hex : existing ∈ rows)
    (hl : (c existing).isLive = true) (hplace : (c existing).SamePlace (c entity))
    (hpatch : Patches s op (c existing) (c entity)) : Origin host now s op (c r) := by
  rcases mem_saveRow h with rfl | h
  · exact .patched (hc existing hex) hl hplace hpatch
  · exact .kept (hc r h)

theorem Origin.of_stamp {p : α → Bool} {f : α → α} (h : r ∈ updateRows p f rows)
    (hc : ∀ r ∈ rows, s.Has (c r)) (hplace : ∀ r, (c r).SamePlace (c (f r)))
    (hdead : ∀ r, (c (f r)).isLive = false) : Origin host now s op (c r) := by
  rcases mem_updateRows h with ⟨r₀, h₀, _, rfl⟩ | h
  · exact .stamped (hc r₀ h₀) (hplace r₀) (hdead r₀)
  · exact .kept (hc r h)

end

end

/-- Every placed row of a valid `s'` has its origin in `s`. -/
def Traces (host : Host) (now : Int) (s : Store) (op : Operation) (s' : Store) : Prop :=
  s'.SchemaValid → ∀ row, row.isPlaced = true → s'.Has row → Origin host now s op row

section

variable {host : Host} {now : Int} {db : Database}

/-! ## Scopes, apps and rooms -/

theorem scope_create_traces {accessScopeId projectId : Uuid}
    {dto : AccessScopeFacade.AccessScopeCreateDto} :
    Leaves (AccessScopeFacade.create db accessScopeId projectId dto)
      (Traces host now db.store (.createScope accessScopeId projectId dto)) := by
  unfold AccessScopeFacade.create
  split
  · exact .error
  · refine .commit fun hv row hrow h => ?_
    cases row with
    | accessScope r =>
      refine .of_append .accessScope h (fun _ h => h)
        (fun r hr r₀ h₀ => hv.pkScope.ne_of_append h₀ hr) ?_
      intro r hr
      cases List.mem_singleton.1 hr
      exact .scope rfl rfl
    | _ => exact .kept h

theorem scope_update_traces {accessScopeId projectId : Uuid}
    {dto : AccessScopeFacade.AccessScopePatchDto} :
    Leaves (AccessScopeFacade.update db accessScopeId projectId dto)
      (Traces host now db.store (.updateScope accessScopeId projectId dto)) := by
  unfold AccessScopeFacade.update
  split
  · exact .error
  · rename_i existing hf
    obtain ⟨hex, hl, _⟩ := of_findOne hf
    refine .commit fun _ row hrow h => ?_
    cases row with
    | accessScope r => exact .of_save .accessScope h (fun _ h => h) hex hl ⟨rfl, rfl, rfl⟩ .scope
    | _ => exact .kept h

theorem scope_delete_traces {accessScopeId projectId : Uuid} :
    Leaves (AccessScopeFacade.delete db now accessScopeId projectId)
      (Traces host now db.store (.deleteScope accessScopeId projectId)) := by
  unfold AccessScopeFacade.delete
  split
  · exact .error
  · dsimp only
    split
    · exact .error
    · refine .commit fun _ row hrow h => ?_
      cases row with
      | accessScope r =>
        exact .of_stamp .accessScope h (fun _ h => h) (fun _ => ⟨rfl, rfl, rfl⟩) (fun _ => rfl)
      | _ => exact .kept h

theorem app_create_traces {appId projectId : Uuid} {dto : PlatformAppFacade.PlatformAppCreateDto} :
    Leaves (PlatformAppFacade.createApp db appId projectId dto)
      (Traces host now db.store (.createApp appId projectId dto)) := by
  unfold PlatformAppFacade.createApp
  dsimp only
  split
  · exact .error
  · refine .commit fun hv row hrow h => ?_
    cases row with
    | app r =>
      refine .of_append .app h (fun _ h => h) (fun r hr r₀ h₀ => hv.pkApp.ne_of_append h₀ hr) ?_
      intro r hr
      cases List.mem_singleton.1 hr
      exact .app rfl rfl rfl
    | _ => exact .kept h

theorem app_update_traces {appId projectId : Uuid} {dto : PlatformAppFacade.PlatformAppPatchDto} :
    Leaves (PlatformAppFacade.updateApp db appId projectId dto)
      (Traces host now db.store (.updateApp appId projectId dto)) := by
  unfold PlatformAppFacade.updateApp
  split
  · exact .error
  · rename_i existing hf
    obtain ⟨hex, hl, _⟩ := of_findOne hf
    refine .commit fun _ row hrow h => ?_
    cases row with
    | app r => exact .of_save .app h (fun _ h => h) hex hl ⟨rfl, rfl, rfl⟩ (.app rfl)
    | _ => exact .kept h

theorem app_delete_traces {appId projectId : Uuid} :
    Leaves (PlatformAppFacade.deleteApp db now appId projectId)
      (Traces host now db.store (.deleteApp appId projectId)) := by
  unfold PlatformAppFacade.deleteApp
  split
  · exact .error
  · refine .commit fun _ row hrow h => ?_
    cases row with
    | app r => exact .of_stamp .app h (fun _ h => h) (fun _ => ⟨rfl, rfl, rfl⟩) (fun _ => rfl)
    | _ => exact .kept h

/-- A room is created alike by every operation that saves it through the facade. -/
theorem room_create_traces {op : Operation} {roomId appId : Uuid}
    {data : RoomFacade.RoomCreateDto}
    (hop : ∀ r : Room, r.appId = appId → r.slug = data.slug.getD (generateSlug data.name) →
      r.slug ≠ "" → Creates host now db.store op (.room r)) :
    Leaves (RoomFacade.createRoom db roomId appId data) (Traces host now db.store op) := by
  unfold RoomFacade.createRoom
  dsimp only
  split
  · exact .error
  · unfold RoomFacade.insertRoom
    split
    · exact .error
    · rename_i ht
      refine .commit fun hv row hrow h => ?_
      cases row with
      | room r =>
        refine .of_append .room h (fun _ h => h) (fun r hr r₀ h₀ => hv.pkRoom.ne_of_append h₀ hr) ?_
        intro r hr
        cases List.mem_singleton.1 hr
        exact hop _ rfl rfl (by simpa [truthy] using ht)
      | _ => exact .kept h

theorem room_ensure_traces {roomId appId : Uuid} {data : RoomFacade.RoomCreateDto}
    {maxRooms : Nat} : Leaves (RoomFacade.ensureRoom db roomId appId data maxRooms)
      (Traces host now db.store (.ensureRoom roomId appId data maxRooms)) := by
  unfold RoomFacade.ensureRoom
  dsimp only
  split
  · exact .unchanged fun _ row _ h => .kept h
  · split
    · exact .error
    · split
      · rename_i hr
        intro a db' h
        cases h
        exact room_create_traces (fun r happ hslug hne => .ensuredRoom happ hslug hne) _ _ hr
      · split
        · exact .unchanged fun _ row _ h => .kept h
        · exact .error

theorem room_update_traces {roomId appId : Uuid} {data : RoomFacade.RoomPatchDto} :
    Leaves (RoomFacade.updateRoom db roomId appId data)
      (Traces host now db.store (.updateRoom roomId appId data)) := by
  unfold RoomFacade.updateRoom
  split
  · exact .error
  · unfold RoomFacade.patchRoom
    split
    · exact .error
    · rename_i existing hf
      obtain ⟨hex, hl, _⟩ := of_findOne hf
      refine .commit fun _ row hrow h => ?_
      cases row with
      | room r => exact .of_save .room h (fun _ h => h) hex hl ⟨rfl, rfl, rfl⟩ .room
      | _ => exact .kept h

theorem room_delete_traces {roomId appId : Uuid} :
    Leaves (RoomFacade.deleteRoom db now roomId appId)
      (Traces host now db.store (.deleteRoom roomId appId)) := by
  unfold RoomFacade.deleteRoom
  split
  · exact .error
  · refine .commit fun _ row hrow h => ?_
    cases row with
    | room r => exact .of_stamp .room h (fun _ h => h) (fun _ => ⟨rfl, rfl, rfl⟩) (fun _ => rfl)
    | _ => exact .kept h

theorem staticRooms_traces {ids : Nat → Uuid} {appId : Uuid} {rooms : List RoomFacade.StaticRoom} :
    Leaves (RoomFacade.createStaticRoomsFromConfig db ids appId rooms)
      (Traces host now db.store (.createStaticRooms ids appId rooms)) := by
  refine .commit fun hv row hrow h => ?_
  cases row with
  | room r =>
    refine .of_append .room h (fun _ h => h) (fun r hr r₀ h₀ => hv.pkRoom.ne_of_append h₀ hr) ?_
    intro r hr
    obtain ⟨i, declared, hi, rfl⟩ := mem_mapIdx_iff.1 hr
    exact .staticRoom (List.mem_of_getElem? hi) rfl rfl
  | _ => exact .kept h

/-! ## Room grants -/

theorem roomGrant_create_traces {roomActorAccessId roomId : Uuid}
    {dto : RoomActorAccessFacade.RoomActorAccessCreateDto} :
    Leaves (RoomActorAccessFacade.create host.legacy db roomActorAccessId roomId dto)
      (Traces host now db.store (.createRoomGrant roomActorAccessId roomId dto)) := by
  unfold RoomActorAccessFacade.create
  split
  · exact .error
  · split
    · exact .error
    · split
      · exact .error
      · split
        · exact .error
        · refine .commit fun hv row hrow h => ?_
          cases row with
          | roomGrant r =>
            refine .of_append .roomGrant h (fun _ h => h)
              (fun r hr r₀ h₀ => hv.pkRoomGrant.ne_of_append h₀ hr) ?_
            intro r hr
            cases List.mem_singleton.1 hr
            exact .roomGrant rfl rfl rfl
          | _ => exact .kept h

theorem roomGrant_assign_place {legacy : String → Option Int}
    {dto : RoomActorAccessFacade.RoomActorAccessUpdateDto} {existing entity : RoomActorAccess}
    (h : RoomActorAccessFacade.assign legacy dto existing = .ok entity) :
    (Row.roomGrant existing).SamePlace (.roomGrant entity) ∧
      entity.topics = patch dto.topics existing.topics := by
  unfold RoomActorAccessFacade.assign at h
  split at h
  · cases h
  · cases h
    exact ⟨⟨rfl, rfl, rfl, rfl⟩, rfl⟩

theorem roomGrant_update_traces {roomActorAccessId : Uuid}
    {dto : RoomActorAccessFacade.RoomActorAccessUpdateDto} :
    Leaves (RoomActorAccessFacade.update host.legacy db roomActorAccessId dto)
      (Traces host now db.store (.updateRoomGrant roomActorAccessId dto)) := by
  unfold RoomActorAccessFacade.update
  split
  · exact .error
  · rename_i existing hf
    obtain ⟨hex, hl, _⟩ := of_findOne hf
    split
    · exact .error
    · rename_i entity he
      obtain ⟨hplace, htopics⟩ := roomGrant_assign_place he
      refine .commit fun _ row hrow h => ?_
      cases row with
      | roomGrant r => exact .of_save .roomGrant h (fun _ h => h) hex hl hplace (.roomGrant htopics)
      | _ => exact .kept h

theorem roomGrant_delete_traces {roomActorAccessId : Uuid} :
    Leaves (RoomActorAccessFacade.delete db now roomActorAccessId)
      (Traces host now db.store (.deleteRoomGrant roomActorAccessId)) := by
  unfold RoomActorAccessFacade.delete
  split
  · exact .error
  · refine .commit fun _ row hrow h => ?_
    cases row with
    | roomGrant r =>
      exact .of_stamp .roomGrant h (fun _ h => h) (fun _ => ⟨rfl, rfl, rfl, rfl⟩) (fun _ => rfl)
    | _ => exact .kept h

/-! ## Lobbies -/

theorem lobby_create_traces {lobbyId appId : Uuid} {data : LobbyFacade.LobbyCreateDto} :
    Leaves (LobbyFacade.createLobby db lobbyId appId data)
      (Traces host now db.store (.createLobby lobbyId appId data)) := by
  unfold LobbyFacade.createLobby
  dsimp only
  split
  · exact .error
  · unfold LobbyFacade.insertLobby
    split
    · exact .error
    · refine .commit fun hv row hrow h => ?_
      cases row with
      | lobby r =>
        refine .of_append .lobby h (fun _ h => h)
          (fun r hr r₀ h₀ => hv.pkLobby.ne_of_append h₀ hr) ?_
        intro r hr
        cases List.mem_singleton.1 hr
        exact .lobby rfl
      | _ => exact .kept h

theorem lobby_update_traces {lobbyId appId : Uuid} {data : LobbyFacade.LobbyPatchDto} :
    Leaves (LobbyFacade.updateLobby db lobbyId appId data)
      (Traces host now db.store (.updateLobby lobbyId appId data)) := by
  unfold LobbyFacade.updateLobby
  split
  · exact .error
  · rename_i existing hf
    obtain ⟨hex, hl, _⟩ := of_findOne hf
    refine .commit fun _ row hrow h => ?_
    cases row with
    | lobby r => exact .of_save .lobby h (fun _ h => h) hex hl ⟨rfl, rfl, rfl⟩ .lobby
    | _ => exact .kept h

theorem lobby_delete_traces {lobbyId appId : Uuid} :
    Leaves (LobbyFacade.deleteLobby db now lobbyId appId)
      (Traces host now db.store (.deleteLobby lobbyId appId)) := by
  unfold LobbyFacade.deleteLobby
  split
  · exact .error
  · refine .commit fun _ row hrow h => ?_
    cases row with
    | lobby r => exact .of_stamp .lobby h (fun _ h => h) (fun _ => ⟨rfl, rfl, rfl⟩) (fun _ => rfl)
    | _ => exact .kept h

theorem mem_saveMember {lr r : LobbyRoom} {rows : List LobbyRoom}
    (h : r ∈ LobbyFacade.saveMember lr rows) : r ∈ rows ∨ r = lr := by
  unfold LobbyFacade.saveMember at h
  split at h
  · exact .inl h
  · exact (List.mem_append.1 h).imp_right List.mem_singleton.1

theorem mem_saveMembers {new rows : List LobbyRoom} {r : LobbyRoom}
    (h : r ∈ new.foldl (fun rows lr => LobbyFacade.saveMember lr rows) rows) :
    r ∈ rows ∨ r ∈ new := by
  induction new generalizing rows with
  | nil => exact .inl h
  | cons lr new ih =>
    rcases ih h with h | h
    · rcases mem_saveMember h with h | rfl
      · exact .inl h
      · exact .inr List.mem_cons_self
    · exact .inr (List.mem_cons_of_mem _ h)

/-- A count of matching rows that is not zero has one to show. -/
theorem exists_of_findAll_pos {α : Type} [SoftDelete α] {rows : List α} {p : α → Bool}
    (h : 0 < (findAll rows p).length) : ∃ r ∈ rows, live r = true ∧ p r = true := by
  obtain ⟨r, hr⟩ := List.length_pos_iff_exists_mem.1 h
  obtain ⟨hrow, hl, hp⟩ := mem_findAll.1 hr
  exact ⟨r, hrow, hl, hp⟩

theorem lobby_addRoom_traces {lobbyId roomId appId : Uuid} :
    Leaves (LobbyFacade.addRoomToLobby db lobbyId roomId appId)
      (Traces host now db.store (.addRoomToLobby lobbyId roomId appId)) := by
  unfold LobbyFacade.addRoomToLobby
  dsimp only
  split
  · exact .error
  · rename_i hlobby
    split
    · exact .error
    · rename_i hroom
      split
      · exact .error
      · split
        · exact .error
        · refine .commit fun _ row hrow h => ?_
          cases row with
          | lobbyRoom lr =>
            rcases mem_saveMember h with h | rfl
            · exact .kept h
            · obtain ⟨l, hl, _, hlp⟩ :=
                exists_of_findAll_pos (of_decide_eq_true (Bool.not_eq_false _ ▸ hlobby))
              obtain ⟨r, hr, _, hrp⟩ :=
                exists_of_findAll_pos (of_decide_eq_true (Bool.not_eq_false _ ▸ hroom))
              simp only [Bool.and_eq_true, decide_eq_true_eq] at hlp hrp
              exact .created trivial (.member hl hlp.1 hlp.2 hr hrp.1 hrp.2 rfl rfl)
          | _ => exact .kept h

theorem lobby_removeRoom_traces {lobbyId roomId appId : Uuid} :
    Leaves (LobbyFacade.removeRoomFromLobby db lobbyId roomId appId)
      (Traces host now db.store (.removeRoomFromLobby lobbyId roomId appId)) := by
  unfold LobbyFacade.removeRoomFromLobby
  split
  · exact .error
  · refine .commit fun _ row hrow h => ?_
    cases row with
    | lobbyRoom lr =>
      have hkept : db.store.Has (.lobbyRoom lr) := List.mem_of_mem_filter h
      exact .kept hkept
    | _ => exact .kept h

theorem mem_staticMembers {roomsBySlug : OrderedMap String Uuid} {created : List Lobby}
    {lobbies : List LobbyFacade.StaticLobby} {lr : LobbyRoom}
    (h : lr ∈ LobbyFacade.staticMembers roomsBySlug created lobbies) :
    ∃ (i : Nat) (lobby : Lobby) (declared : LobbyFacade.StaticLobby) (slug : String),
      created[i]? = some lobby ∧ lobbies[i]? = some declared ∧
      slug ∈ declared.rooms.getD [] ∧ roomsBySlug.get? slug = some lr.roomId ∧
      lr.lobbyId = lobby.lobbyId := by
  obtain ⟨⟨lobby, declared⟩, hzip, h⟩ := List.mem_flatMap.1 h
  obtain ⟨slug, hslug, h⟩ := List.mem_filterMap.1 h
  obtain ⟨roomId, hget, rfl⟩ := Option.map_eq_some_iff.1 h
  obtain ⟨i, hi⟩ := List.mem_iff_getElem?.1 hzip
  obtain ⟨hl, hd⟩ := List.getElem?_zip_eq_some.1 hi
  exact ⟨i, lobby, declared, slug, hl, hd, hslug, hget, rfl⟩

theorem staticLobbies_traces {ids : Nat → Uuid} {appId : Uuid}
    {lobbies : List LobbyFacade.StaticLobby} {createdRooms : List (Uuid × String)} :
    Leaves (LobbyFacade.createStaticLobbiesFromConfig db ids appId lobbies createdRooms)
      (Traces host now db.store (.createStaticLobbies ids appId lobbies createdRooms)) := by
  refine .commit fun hv row hrow h => ?_
  cases row with
  | lobby r =>
    refine .of_append .lobby h (fun _ h => h) (fun r hr r₀ h₀ => hv.pkLobby.ne_of_append h₀ hr) ?_
    intro r hr
    obtain ⟨i, declared, _, rfl⟩ := mem_mapIdx_iff.1 hr
    exact .staticLobby rfl
  | lobbyRoom lr =>
    rcases mem_saveMembers h with h | h
    · exact .kept h
    · obtain ⟨i, lobby, declared, slug, hl, hd, hslug, hget, hid⟩ := mem_staticMembers h
      rw [List.getElem?_mapIdx, hd] at hl
      cases hl
      refine .created trivial (.staticMember hd hslug hget hid fun l hold => ?_)
      exact hv.pkLobby.ne_of_append hold (mem_mapIdx_iff.2 ⟨i, declared, hd, rfl⟩)
  | _ => exact .kept h

/-! ## Actors -/

theorem actor_create_traces {actorTokenId projectId : Uuid} {random : CredentialBytes}
    {data : ActorTokenFacade.ActorTokenCreateDto} :
    Leaves (ActorTokenFacade.createActorToken host.legacy host.crypto db actorTokenId random projectId
      data) (Traces host now db.store (.createActorToken actorTokenId random projectId data)) := by
  unfold ActorTokenFacade.createActorToken
  split
  · exact .error
  · rename_i hassert
    dsimp only
    split
    · exact .error
    · refine .commit fun hv row hrow h => ?_
      cases row with
      | actorToken r =>
        refine .of_append .actorToken h (fun _ h => h)
          (fun r hr r₀ h₀ => hv.pkActor.ne_of_append h₀ hr) ?_
        intro r hr
        cases List.mem_singleton.1 hr
        exact .actor rfl rfl hassert
      | _ => exact .kept h

theorem actor_assign_place {legacy : String → Option Int}
    {data : ActorTokenFacade.ActorTokenPatchDto} {existing entity : ActorToken}
    (h : ActorTokenFacade.assign legacy data existing = .ok entity) :
    (Row.actorToken existing).SamePlace (.actorToken entity) ∧
      entity.accessScopeId = patch data.accessScopeId existing.accessScopeId := by
  unfold ActorTokenFacade.assign at h
  split at h
  · cases h
  · cases h
    exact ⟨⟨rfl, rfl, rfl, rfl⟩, rfl⟩

theorem actor_update_traces {actorTokenId projectId : Uuid}
    {data : ActorTokenFacade.ActorTokenPatchDto} :
    Leaves (ActorTokenFacade.updateActorToken host.legacy db actorTokenId projectId data)
      (Traces host now db.store (.updateActorToken actorTokenId projectId data)) := by
  unfold ActorTokenFacade.updateActorToken
  split
  · exact .error
  · split
    · exact .error
    · rename_i hassert
      unfold ActorTokenFacade.patchActorToken
      split
      · exact .error
      · rename_i existing hf
        obtain ⟨hex, hl, hp⟩ := of_findOne hf
        simp only [Bool.and_eq_true, decide_eq_true_eq] at hp
        split
        · exact .error
        · rename_i entity he
          obtain ⟨hplace, hscope⟩ := actor_assign_place he
          refine .commit fun _ row hrow h => ?_
          cases row with
          | actorToken r =>
            exact .of_save .actorToken h (fun _ h => h) hex hl hplace (.actor hp.2 hscope hassert)
          | _ => exact .kept h

theorem actor_delete_traces {actorTokenId projectId : Uuid} :
    Leaves (ActorTokenFacade.deleteActorToken db now actorTokenId projectId)
      (Traces host now db.store (.deleteActorToken actorTokenId projectId)) := by
  unfold ActorTokenFacade.deleteActorToken
  split
  · exact .error
  · refine .commit fun _ row hrow h => ?_
    cases row with
    | actorToken r =>
      exact .of_stamp .actorToken h (fun _ h => h) (fun _ => ⟨rfl, rfl, rfl, rfl⟩) (fun _ => rfl)
    | actorTokenState r => cases hrow
    | _ => exact .kept h

/-! ## Whole projects -/

theorem import_traces {draws : Draws} {doc : ProjectConfigDoc} :
    Leaves (ProjectConfigFacade.importProject host draws now db doc)
      (Traces host now db.store (.importProject draws doc)) := by
  unfold ProjectConfigFacade.importProject
  split
  · exact .error
  · rename_i credentials s' himport
    obtain ⟨d, hd, rfl⟩ := (importProject_ok himport).rows
    refine .commit fun hv row hrow h => ?_
    rcases (has_append row).1 h with h | h
    · exact .kept h
    · exact .created (lacks_of_append hv h) (.imported (hd.sound row h))

/-- What a committed import comes to. -/
theorem import_done {draws : Draws} {doc : ProjectConfigDoc} {db' : Database}
    (h : (Operation.importProject draws doc).run host now db = .ok db') :
    ∃ credentials, Imported host draws now doc credentials db.store db'.store := by
  have hleaves : Leaves (ProjectConfigFacade.importProject host draws now db doc)
      fun s' => ∃ credentials, Imported host draws now doc credentials db.store s' := by
    unfold ProjectConfigFacade.importProject
    split
    · exact .error
    · rename_i credentials s' himport
      exact .commit ⟨credentials, importProject_ok himport⟩
  exact hleaves.committed h

theorem has_of_purge {projectId : Uuid} {s : Store} {row : Row}
    (h : (ProjectConfigFacade.deleteProjectRow projectId
      (ProjectConfigFacade.deleteActors projectId s)).Has row) : s.Has row := by
  cases row <;> simp only [Has, ProjectConfigFacade.deleteProjectRow,
    ProjectConfigFacade.deleteActors, deleteRows, List.mem_filter] at h ⊢ <;> simp [h]

theorem purge_traces {projectId : Uuid} :
    Leaves (ProjectConfigFacade.deleteProject db projectId)
      (Traces host now db.store (.purgeProject projectId)) := by
  unfold ProjectConfigFacade.deleteProject
  split
  · exact .error
  · exact .commit fun _ row _ h => .kept (has_of_purge h)

/-! ## Operations on the other tables -/

/-- No placed row is new or has changed. -/
def SamePlaced (s s' : Store) : Prop := ∀ row, row.isPlaced = true → s'.Has row → s.Has row

theorem SamePlaced.traces {s s' : Store} {op : Operation} (h : SamePlaced s s') :
    Traces host now s op s' :=
  fun _ row hrow hs => .kept (h row hrow hs)

theorem SamePlaced.projects {s : Store} {projects : List Project} :
    SamePlaced s { s with projects } := by
  intro row hrow h
  cases row with
  | project r => cases hrow
  | _ => exact h

theorem SamePlaced.actorTokenStates {s : Store} {actorTokenStates : List ActorTokenState} :
    SamePlaced s { s with actorTokenStates } := by
  intro row hrow h
  cases row with
  | actorTokenState r => cases hrow
  | _ => exact h

theorem SamePlaced.signingKeys {s : Store} {signingKeys : List SigningKey} :
    SamePlaced s { s with signingKeys } := by
  intro row hrow h
  cases row with
  | signingKey r => cases hrow
  | _ => exact h

section

variable {op : Operation}

theorem project_update_traces {projectId : Uuid} {dto : ProjectFacade.ProjectPatchDto} :
    Leaves (ProjectFacade.updateProject db projectId dto) (Traces host now db.store op) := by
  unfold ProjectFacade.updateProject
  split
  · exact .error
  · exact .commit SamePlaced.projects.traces

theorem project_limits_traces {projectId : Uuid} {limits : ProjectFacade.ProjectLimitsDto} :
    Leaves (ProjectFacade.syncLimits db now projectId limits) (Traces host now db.store op) := by
  unfold ProjectFacade.syncLimits
  split
  · exact .error
  · exact .commit SamePlaced.projects.traces

theorem project_delete_traces {projectId : Uuid} :
    Leaves (ProjectFacade.deleteProject db now projectId) (Traces host now db.store op) := by
  unfold ProjectFacade.deleteProject
  split
  · exact .error
  · exact .commit SamePlaced.projects.traces

theorem actorState_update_traces {actorTokenStateId actorTokenId : Uuid}
    {connectionState : ConnectionState} {krakenNodeId : Option String} :
    Leaves (ActorTokenFacade.updateActorState db actorTokenStateId actorTokenId connectionState
      krakenNodeId) (Traces host now db.store op) := by
  unfold ActorTokenFacade.updateActorState
  split
  · exact .commit SamePlaced.actorTokenStates.traces
  · exact .commit SamePlaced.actorTokenStates.traces

theorem subscription_update_traces {actorTokenStateId : Uuid} {dto : Authz.SubscriptionUpdate} :
    Leaves (Authz.updateSubscription db now actorTokenStateId dto)
      (Traces host now db.store op) := by
  unfold Authz.updateSubscription
  split
  · exact .commit SamePlaced.actorTokenStates.traces
  · exact .commit SamePlaced.actorTokenStates.traces

theorem subscription_clear_traces {actorTokenId : Uuid} :
    Leaves (Authz.clearSubscriptions db now actorTokenId) (Traces host now db.store op) := by
  unfold Authz.clearSubscriptions
  split
  · exact .unchanged fun _ row _ h => .kept h
  · exact .commit SamePlaced.actorTokenStates.traces

theorem signingKey_create_traces {signingKeyId projectId : Uuid}
    {random : SigningKeyFacade.SigningKeyBytes} {data : SigningKeyFacade.SigningKeyCreateDto} :
    Leaves (SigningKeyFacade.createSigningKey host.crypto host.cipher host.config db signingKeyId
      random projectId data) (Traces host now db.store op) := by
  unfold SigningKeyFacade.createSigningKey
  dsimp only
  split
  · exact .error
  · exact .commit SamePlaced.signingKeys.traces

theorem signingKey_update_traces {signingKeyId projectId : Uuid}
    {data : SigningKeyFacade.SigningKeyPatchDto} :
    Leaves (SigningKeyFacade.updateSigningKey db signingKeyId projectId data)
      (Traces host now db.store op) := by
  unfold SigningKeyFacade.updateSigningKey
  split
  · exact .error
  · unfold SigningKeyFacade.patchSigningKey
    split
    · exact .error
    · exact .commit SamePlaced.signingKeys.traces

theorem signingKey_delete_traces {signingKeyId projectId : Uuid} :
    Leaves (SigningKeyFacade.deleteSigningKey db now signingKeyId projectId)
      (Traces host now db.store op) := by
  unfold SigningKeyFacade.deleteSigningKey
  split
  · exact .error
  · exact .commit SamePlaced.signingKeys.traces

end

/-! ## All operations -/

/-- Every placed row an operation leaves behind has its origin in the state before. -/
theorem run_origin {op : Operation} {db' : Database} (h : op.run host now db = .ok db') {row : Row}
    (hrow : row.isPlaced = true) (hs : db'.store.Has row) : Origin host now db.store op row := by
  suffices ht : Traces host now db.store op db'.store from ht db'.valid row hrow hs
  cases op with
  | createProject projectId dto =>
    exact Leaves.committed (.commit SamePlaced.projects.traces) h
  | updateProject projectId dto => exact project_update_traces.committed h
  | syncLimits projectId limits => exact project_limits_traces.committed h
  | deleteProject projectId => exact project_delete_traces.committed h
  | createScope accessScopeId projectId dto => exact scope_create_traces.committed h
  | updateScope accessScopeId projectId dto => exact scope_update_traces.committed h
  | deleteScope accessScopeId projectId => exact scope_delete_traces.committed h
  | createApp appId projectId dto => exact app_create_traces.committed h
  | updateApp appId projectId dto => exact app_update_traces.committed h
  | deleteApp appId projectId => exact app_delete_traces.committed h
  | createRoom roomId appId data =>
    exact (room_create_traces fun r happ hslug hne => .room happ hslug hne).committed h
  | ensureRoom roomId appId data maxRooms => exact room_ensure_traces.committed h
  | updateRoom roomId appId data => exact room_update_traces.committed h
  | deleteRoom roomId appId => exact room_delete_traces.committed h
  | createStaticRooms ids appId rooms => exact staticRooms_traces.committed h
  | createRoomGrant roomActorAccessId roomId dto => exact roomGrant_create_traces.committed h
  | updateRoomGrant roomActorAccessId dto => exact roomGrant_update_traces.committed h
  | deleteRoomGrant roomActorAccessId => exact roomGrant_delete_traces.committed h
  | createLobby lobbyId appId data => exact lobby_create_traces.committed h
  | updateLobby lobbyId appId data => exact lobby_update_traces.committed h
  | deleteLobby lobbyId appId => exact lobby_delete_traces.committed h
  | addRoomToLobby lobbyId roomId appId => exact lobby_addRoom_traces.committed h
  | removeRoomFromLobby lobbyId roomId appId => exact lobby_removeRoom_traces.committed h
  | createStaticLobbies ids appId lobbies createdRooms => exact staticLobbies_traces.committed h
  | createActorToken actorTokenId random projectId data => exact actor_create_traces.committed h
  | updateActorToken actorTokenId projectId data => exact actor_update_traces.committed h
  | deleteActorToken actorTokenId projectId => exact actor_delete_traces.committed h
  | updateActorState actorTokenStateId actorTokenId connectionState krakenNodeId =>
    exact actorState_update_traces.committed h
  | clearActorState actorTokenId =>
    exact Leaves.committed (.commit SamePlaced.actorTokenStates.traces) h
  | updateSubscription actorTokenStateId dto => exact subscription_update_traces.committed h
  | clearSubscriptions actorTokenId => exact subscription_clear_traces.committed h
  | createSigningKey signingKeyId random projectId data => exact signingKey_create_traces.committed h
  | updateSigningKey signingKeyId projectId data => exact signingKey_update_traces.committed h
  | deleteSigningKey signingKeyId projectId => exact signingKey_delete_traces.committed h
  | importProject draws doc => exact import_traces.committed h
  | purgeProject projectId => exact purge_traces.committed h

/-! ## One table -/

/-- Every row of `rows'` has the key and the place of a row of `rows`, or has a key of its own and
was created. -/
def Placed {α κ π : Type} (key : α → κ) (place : α → π) (created : α → Prop) (rows rows' : List α) :
    Prop :=
  ∀ r ∈ rows', (∃ r₀ ∈ rows, key r = key r₀ ∧ place r = place r₀) ∨
    (∀ r₀ ∈ rows, key r₀ ≠ key r) ∧ created r

theorem Placed.stands {α κ π : Type} {key : α → κ} {place : α → π} {created : α → Prop}
    {rows rows' : List α} (h : Placed key place created rows rows') (hpk : UniqueOn key rows)
    {r r₀ : α} (hr : r ∈ rows') (hr₀ : r₀ ∈ rows) (hkey : key r = key r₀) : place r = place r₀ := by
  rcases h r hr with ⟨r₁, hr₁, hkey₁, hplace⟩ | ⟨hfresh, _⟩
  · have heq : r₁ = r₀ := hpk.eq_of_key hr₁ hr₀ (hkey₁.symm.trans hkey)
    rw [hplace, heq]
  · exact absurd hkey.symm (hfresh r₀ hr₀)

variable {op : Operation} {db' : Database}

theorem placed_of_origin {α κ π : Type} (c : α → Row) {key : α → κ} {place : α → π}
    {rows rows' : List α} (h : op.run host now db = .ok db') (hhas : ∀ r ∈ rows', db'.store.Has (c r))
    (hrow : ∀ r, (c r).isPlaced = true)
    (hold : ∀ row₀ r, db.store.Has row₀ → row₀.SamePlace (c r) →
      ∃ r₀ ∈ rows, key r = key r₀ ∧ place r = place r₀)
    (hkey : ∀ r, db.store.Lacks (c r) → ∀ r₀ ∈ rows, key r₀ ≠ key r) :
    Placed key place (fun r => Creates host now db.store op (c r)) rows rows' := by
  intro r hr
  rcases (run_origin h (hrow r) (hhas r hr)).place (hrow r) with ⟨row₀, h₀, hp⟩ | ⟨hl, hc⟩
  · exact .inl (hold row₀ r h₀ hp)
  · exact .inr ⟨hkey r hl, hc⟩

theorem scopes_placed (h : op.run host now db = .ok db') :
    Placed AccessScope.accessScopeId (fun r => (r.projectId, r.slug))
      (fun r => Creates host now db.store op (.accessScope r)) db.store.accessScopes
      db'.store.accessScopes := by
  refine placed_of_origin .accessScope h (fun r hr => hr) (fun _ => rfl) (fun row₀ r h₀ hp => ?_)
    fun r hl => hl
  cases row₀ with
  | accessScope r₀ => exact ⟨r₀, h₀, hp.1, Prod.ext hp.2.1 hp.2.2⟩
  | _ => cases hp

theorem apps_placed (h : op.run host now db = .ok db') :
    Placed PlatformApp.appId (fun r => (r.projectId, r.slug))
      (fun r => Creates host now db.store op (.app r)) db.store.apps db'.store.apps := by
  refine placed_of_origin .app h (fun r hr => hr) (fun _ => rfl) (fun row₀ r h₀ hp => ?_)
    fun r hl => hl
  cases row₀ with
  | app r₀ => exact ⟨r₀, h₀, hp.1, Prod.ext hp.2.1 hp.2.2⟩
  | _ => cases hp

theorem rooms_placed (h : op.run host now db = .ok db') :
    Placed Room.roomId (fun r => (r.appId, r.slug))
      (fun r => Creates host now db.store op (.room r)) db.store.rooms db'.store.rooms := by
  refine placed_of_origin .room h (fun r hr => hr) (fun _ => rfl) (fun row₀ r h₀ hp => ?_)
    fun r hl => hl
  cases row₀ with
  | room r₀ => exact ⟨r₀, h₀, hp.1, Prod.ext hp.2.1 hp.2.2⟩
  | _ => cases hp

theorem lobbies_placed (h : op.run host now db = .ok db') :
    Placed Lobby.lobbyId (fun r => (r.appId, r.slug))
      (fun r => Creates host now db.store op (.lobby r)) db.store.lobbies db'.store.lobbies := by
  refine placed_of_origin .lobby h (fun r hr => hr) (fun _ => rfl) (fun row₀ r h₀ hp => ?_)
    fun r hl => hl
  cases row₀ with
  | lobby r₀ => exact ⟨r₀, h₀, hp.1, Prod.ext hp.2.1 hp.2.2⟩
  | _ => cases hp

theorem actors_placed (h : op.run host now db = .ok db') :
    Placed ActorToken.actorTokenId (fun r => (r.projectId, r.actorType))
      (fun r => Creates host now db.store op (.actorToken r)) db.store.actorTokens
      db'.store.actorTokens := by
  refine placed_of_origin .actorToken h (fun r hr => hr) (fun _ => rfl) (fun row₀ r h₀ hp => ?_)
    fun r hl => hl
  cases row₀ with
  | actorToken r₀ => exact ⟨r₀, h₀, hp.1, Prod.ext hp.2.1 hp.2.2.2⟩
  | _ => cases hp

end

end Facade
end NolagCore
