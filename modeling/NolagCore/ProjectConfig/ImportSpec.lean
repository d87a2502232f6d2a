import NolagCore.ProjectConfig.Facade

/-!
# ProjectConfig.ImportSpec

What an import that succeeds has stored: the rows of the document and nothing else, and every slug
of the document has resolved.
-/

namespace NolagCore
namespace ProjectConfig

open Lib Store

theorem save_ok {row s s' : Store} (h : save row s = .ok s') :
    s' = s.append row ∧ s'.SchemaValid := by
  unfold save at h
  split at h
  · rename_i hv
    cases h
    exact ⟨rfl, hv⟩
  · cases h

variable {host : Host} {draws : Draws} {now : Int} {doc : ProjectConfigDoc} {s s' : Store}

theorem actorScope_ok {scopeIds : OrderedMap String Uuid} {actor : ActorDoc}
    {accessScopeId : Option Uuid} (h : actorScope scopeIds actor = .ok accessScopeId) :
    (truthy actor.scopeSlug = false ∧ accessScopeId = none) ∨
      ∃ slug id, actor.scopeSlug = some slug ∧ slug ≠ "" ∧ scopeIds.get? slug = some id ∧
        accessScopeId = some id := by
  unfold actorScope at h
  split at h
  · rename_i ht
    exact .inl ⟨ht, (Except.ok.inj h).symm⟩
  · rename_i ht
    split at h
    · cases h
    · rename_i id hid
      right
      cases hslug : actor.scopeSlug with
      | none => simp [hslug, truthy] at ht
      | some slug =>
        rw [hslug] at ht hid
        exact ⟨slug, id, rfl, by simpa [truthy] using ht, hid, (Except.ok.inj h).symm⟩

/-! ## Slugs -/

theorem nodup_of_firstRepeated {l seen : List String} (h : firstRepeated seen l = none) :
    l.Nodup ∧ ∀ v ∈ l, v ∉ seen := by
  induction l generalizing seen with
  | nil => exact ⟨List.nodup_nil, by simp⟩
  | cons v l ih =>
    unfold firstRepeated at h
    split at h
    · cases h
    · rename_i hv
      obtain ⟨hnodup, hnew⟩ := ih h
      refine ⟨List.nodup_cons.2 ⟨fun hmem => hnew v hmem List.mem_cons_self, hnodup⟩, ?_⟩
      intro w hw
      rcases List.mem_cons.1 hw with rfl | hw
      · exact hv
      · exact fun hseen => hnew w hw (List.mem_cons_of_mem _ hseen)

theorem nodup_of_checkUnique {label : String} {values : List String}
    (h : checkUnique label values = .ok ()) : values.Nodup := by
  unfold checkUnique at h
  split at h
  · cases h
  · rename_i hrep
    exact (nodup_of_firstRepeated hrep).1

/-- The apps of a document that is imported have distinct slugs. -/
theorem nodup_appSlugs (h : assertUniqueSlugs doc = .ok ()) :
    ((doc.apps.getD []).map (·.slug)).Nodup := by
  obtain ⟨_, _, h⟩ := bind_ok.1 h
  obtain ⟨_, happs, _⟩ := bind_ok.1 h
  exact nodup_of_checkUnique happs

theorem of_scopeIdBySlug {scopes : List AccessScopeDoc} {slug : String} {id : Uuid}
    (h : (scopeIdBySlug draws scopes).get? slug = some id) :
    ∃ (i : Nat) (scope : AccessScopeDoc), scopes[i]? = some scope ∧ scope.slug = slug ∧
      draws.scope i = id := by
  obtain ⟨e, he, hk, hv⟩ := OrderedMap.of_mem_ofList (OrderedMap.mem_entries_iff.2 h)
  obtain ⟨i, scope, hi, rfl⟩ := mem_mapIdx_iff.1 he
  exact ⟨i, scope, hi, hk, hv⟩

theorem of_appIdBySlug {apps : List AppDoc} {slug : String} {id : Uuid}
    (h : (appIdBySlug draws apps).get? slug = some id) :
    ∃ (i : Nat) (app : AppDoc), apps[i]? = some app ∧ app.slug = slug ∧ draws.app i = id := by
  obtain ⟨e, he, hk, hv⟩ := OrderedMap.of_mem_ofList (OrderedMap.mem_entries_iff.2 h)
  obtain ⟨i, app, hi, rfl⟩ := mem_mapIdx_iff.1 he
  exact ⟨i, app, hi, hk, hv⟩

theorem of_roomIdByAppAndSlug {apps : List AppDoc} {key : String} {id : Uuid}
    (h : (roomIdByAppAndSlug draws apps).get? key = some id) :
    ∃ (i : Nat) (app : AppDoc) (j : Nat) (room : RoomDoc), apps[i]? = some app ∧
      (app.rooms.getD [])[j]? = some room ∧ roomKey app.slug room.slug = key ∧
      draws.room i j = id := by
  obtain ⟨e, he, hk, hv⟩ := OrderedMap.of_mem_ofList (OrderedMap.mem_entries_iff.2 h)
  obtain ⟨entries, hentries, he⟩ := List.mem_flatten.1 he
  obtain ⟨i, app, hi, rfl⟩ := mem_mapIdx_iff.1 hentries
  obtain ⟨j, room, hj, rfl⟩ := mem_mapIdx_iff.1 he
  exact ⟨i, app, j, room, hi, hj, hk, hv⟩

/-! ## Rows of one part of the document -/

inductive RoomRows (draws : Draws) (i j : Nat) (room : RoomDoc) : Row → Prop
  | room : RoomRows draws i j room (.room (roomRow draws i j room))
  | typeGrant {k : Nat} {grant : RoomTypeGrantDoc} (hg : (room.typeGrants.getD [])[k]? = some grant) :
    RoomRows draws i j room (.roomGrant (typeGrantRow draws i j k grant))

inductive LobbyRows (draws : Draws) (roomIds : OrderedMap String Uuid) (app : AppDoc) (i j : Nat)
    (lobby : LobbyDoc) : Row → Prop
  | lobby : LobbyRows draws roomIds app i j lobby (.lobby (lobbyRow draws i j lobby))
  | link {roomSlug : String} {roomId : Uuid} (hslug : roomSlug ∈ lobby.rooms)
    (hid : roomIds.get? (roomKey app.slug roomSlug) = some roomId) :
    LobbyRows draws roomIds app i j lobby
      (.lobbyRoom { lobbyId := draws.lobby i j, roomId := roomId })

inductive AppRows (draws : Draws) (apps : List AppDoc) (i : Nat) (app : AppDoc) : Row → Prop
  | app : AppRows draws apps i app (.app (appRow draws i app))
  | room {j : Nat} {room : RoomDoc} {row : Row} (hroom : (app.rooms.getD [])[j]? = some room)
    (hrow : RoomRows draws i j room row) : AppRows draws apps i app row
  | lobby {j : Nat} {lobby : LobbyDoc} {row : Row} (hlobby : (app.lobbies.getD [])[j]? = some lobby)
    (hrow : LobbyRows draws (roomIdByAppAndSlug draws (apps.take (i + 1))) app i j lobby row) :
    AppRows draws apps i app row

inductive ActorRows (host : Host) (draws : Draws) (doc : ProjectConfigDoc) (i : Nat)
    (actor : ActorDoc) : Row → Prop
  | actor {accessScopeId : Option Uuid} {expiresAt : Option Int}
    (hs : actorScope (scopeIdBySlug draws (doc.accessScopes.getD [])) actor = .ok accessScopeId)
    (ht : dateColumn host.legacy actor.expiresAt = .ok expiresAt) :
    ActorRows host draws doc i actor
      (.actorToken (actorRow host draws i actor accessScopeId expiresAt))
  | appGrant {j : Nat} {grant : ActorAppGrantDoc} {appId : Uuid} {expiresAt : Option Int}
    (hg : (actor.appAccess.getD [])[j]? = some grant)
    (hid : (appIdBySlug draws (doc.apps.getD [])).get? grant.appSlug = some appId)
    (ht : dateColumn host.legacy grant.expiresAt = .ok expiresAt) :
    ActorRows host draws doc i actor (.appGrant (appGrantRow draws i j grant appId expiresAt))
  | roomGrant {j : Nat} {grant : ActorRoomGrantDoc} {roomId : Uuid} {expiresAt : Option Int}
    (hg : (actor.roomAccess.getD [])[j]? = some grant)
    (hid : (roomIdByAppAndSlug draws (doc.apps.getD [])).get?
      (roomKey grant.appSlug grant.roomSlug) = some roomId)
    (ht : dateColumn host.legacy grant.expiresAt = .ok expiresAt) :
    ActorRows host draws doc i actor (.roomGrant (roomGrantRow draws i j grant roomId expiresAt))

/-- The rows of a document. -/
inductive DocRows (host : Host) (draws : Draws) (now : Int) (doc : ProjectConfigDoc) : Row → Prop
  | project : DocRows host draws now doc (.project (projectRow draws now doc.project))
  | scope {i : Nat} {scope : AccessScopeDoc} (hs : (doc.accessScopes.getD [])[i]? = some scope) :
    DocRows host draws now doc (.accessScope (scopeRow draws i scope))
  | app {i : Nat} {app : AppDoc} {row : Row} (happ : (doc.apps.getD [])[i]? = some app)
    (hrow : AppRows draws (doc.apps.getD []) i app row) : DocRows host draws now doc row
  | actor {i : Nat} {actor : ActorDoc} {row : Row} (ha : (doc.actors.getD [])[i]? = some actor)
    (hrow : ActorRows host draws doc i actor row) : DocRows host draws now doc row
  | signingKey {i : Nat} {key : SigningKeyDoc} {secretEncrypted : String}
    (hk : (doc.signingKeys.getD [])[i]? = some key)
    (he : SigningKeyFacade.encryptForStorage host.cipher host.config (draws.signingKeyBytes i).iv
      (generatedKey host draws i).secret = .ok secretEncrypted) :
    DocRows host draws now doc (.signingKey
      { signingKeyId := draws.signingKey i
        projectId := draws.project
        keyId := (generatedKey host draws i).keyId
        secretEncrypted := secretEncrypted
        name := key.name })

theorem not_appRows_project {apps : List AppDoc} {i : Nat} {app : AppDoc} {r : Project} :
    ¬ AppRows draws apps i app (.project r) := by
  intro h
  rcases h with _ | ⟨_, hrow⟩ | ⟨_, hrow⟩ <;> cases hrow

theorem not_appRows_actorToken {apps : List AppDoc} {i : Nat} {app : AppDoc} {r : ActorToken} :
    ¬ AppRows draws apps i app (.actorToken r) := by
  intro h
  rcases h with _ | ⟨_, hrow⟩ | ⟨_, hrow⟩ <;> cases hrow

theorem not_actorRows_project {i : Nat} {actor : ActorDoc} {r : Project} :
    ¬ ActorRows host draws doc i actor (.project r) := by
  intro h
  cases h

theorem docRows_scope {r : AccessScope} : DocRows host draws now doc (.accessScope r) ↔
    ∃ i scope, (doc.accessScopes.getD [])[i]? = some scope ∧ r = scopeRow draws i scope := by
  constructor
  · rintro (_ | hs | ⟨_, hrow⟩ | ⟨_, hrow⟩)
    · exact ⟨_, _, hs, rfl⟩
    · rcases hrow with _ | ⟨_, hrow⟩ | ⟨_, hrow⟩ <;> cases hrow
    · cases hrow
  · rintro ⟨i, scope, hs, rfl⟩
    exact .scope hs

theorem docRows_app {r : PlatformApp} : DocRows host draws now doc (.app r) ↔
    ∃ i app, (doc.apps.getD [])[i]? = some app ∧ r = appRow draws i app := by
  constructor
  · rintro (_ | _ | ⟨happ, hrow⟩ | ⟨_, hrow⟩)
    · rcases hrow with _ | ⟨_, hrow⟩ | ⟨_, hrow⟩
      · exact ⟨_, _, happ, rfl⟩
      · cases hrow
      · cases hrow
    · cases hrow
  · rintro ⟨i, app, happ, rfl⟩
    exact .app happ .app

theorem docRows_room {r : Room} : DocRows host draws now doc (.room r) ↔
    ∃ i app j room, (doc.apps.getD [])[i]? = some app ∧ (app.rooms.getD [])[j]? = some room ∧
      r = roomRow draws i j room := by
  constructor
  · rintro (_ | _ | ⟨happ, hrow⟩ | ⟨_, hrow⟩)
    · rcases hrow with _ | ⟨hroom, hrow⟩ | ⟨_, hrow⟩
      · cases hrow
        exact ⟨_, _, _, _, happ, hroom, rfl⟩
      · cases hrow
    · cases hrow
  · rintro ⟨i, app, j, room, happ, hroom, rfl⟩
    exact .app happ (.room hroom .room)

theorem docRows_lobby {r : Lobby} : DocRows host draws now doc (.lobby r) ↔
    ∃ i app j lobby, (doc.apps.getD [])[i]? = some app ∧ (app.lobbies.getD [])[j]? = some lobby ∧
      r = lobbyRow draws i j lobby := by
  constructor
  · rintro (_ | _ | ⟨happ, hrow⟩ | ⟨_, hrow⟩)
    · rcases hrow with _ | ⟨_, hrow⟩ | ⟨hlobby, hrow⟩
      · cases hrow
      · cases hrow
        exact ⟨_, _, _, _, happ, hlobby, rfl⟩
    · cases hrow
  · rintro ⟨i, app, j, lobby, happ, hlobby, rfl⟩
    exact .app happ (.lobby hlobby .lobby)

theorem docRows_lobbyRoom {lr : LobbyRoom} (h : DocRows host draws now doc (.lobbyRoom lr)) :
    ∃ (i : Nat) (app : AppDoc) (j : Nat) (lobby : LobbyDoc) (roomSlug : String),
      (doc.apps.getD [])[i]? = some app ∧ (app.lobbies.getD [])[j]? = some lobby ∧
      (roomIdByAppAndSlug draws ((doc.apps.getD []).take (i + 1))).get?
        (roomKey app.slug roomSlug) = some lr.roomId ∧ lr.lobbyId = draws.lobby i j := by
  rcases h with _ | _ | ⟨happ, hrow⟩ | ⟨_, hrow⟩
  · rcases hrow with _ | ⟨_, hrow⟩ | ⟨hlobby, hrow⟩
    · cases hrow
    · cases hrow with
      | link _ hid => exact ⟨_, _, _, _, _, happ, hlobby, hid, rfl⟩
  · cases hrow

theorem docRows_actorToken {r : ActorToken} : DocRows host draws now doc (.actorToken r) ↔
    ∃ i actor accessScopeId expiresAt, (doc.actors.getD [])[i]? = some actor ∧
      actorScope (scopeIdBySlug draws (doc.accessScopes.getD [])) actor = .ok accessScopeId ∧
      dateColumn host.legacy actor.expiresAt = .ok expiresAt ∧
      r = actorRow host draws i actor accessScopeId expiresAt := by
  constructor
  · rintro (_ | _ | ⟨_, hrow⟩ | ⟨ha, hrow⟩)
    · exact absurd hrow not_appRows_actorToken
    · cases hrow with
      | actor hs ht => exact ⟨_, _, _, _, ha, hs, ht, rfl⟩
  · rintro ⟨i, actor, accessScopeId, expiresAt, ha, hs, ht, rfl⟩
    exact .actor ha (.actor hs ht)

theorem docRows_appGrant {r : ActorAppAccess} : DocRows host draws now doc (.appGrant r) ↔
    ∃ i actor j grant appId expiresAt, (doc.actors.getD [])[i]? = some actor ∧
      (actor.appAccess.getD [])[j]? = some grant ∧
      (appIdBySlug draws (doc.apps.getD [])).get? grant.appSlug = some appId ∧
      dateColumn host.legacy grant.expiresAt = .ok expiresAt ∧
      r = appGrantRow draws i j grant appId expiresAt := by
  constructor
  · rintro (_ | _ | ⟨_, hrow⟩ | ⟨ha, hrow⟩)
    · rcases hrow with _ | ⟨_, hrow⟩ | ⟨_, hrow⟩ <;> cases hrow
    · cases hrow with
      | appGrant hg hid ht => exact ⟨_, _, _, _, _, _, ha, hg, hid, ht, rfl⟩
  · rintro ⟨i, actor, j, grant, appId, expiresAt, ha, hg, hid, ht, rfl⟩
    exact .actor ha (.appGrant hg hid ht)

/-- A room grant comes from a room's list of types or from the actor that holds it. -/
theorem docRows_roomGrant {r : RoomActorAccess} : DocRows host draws now doc (.roomGrant r) ↔
    (∃ i app j room k grant, (doc.apps.getD [])[i]? = some app ∧
      (app.rooms.getD [])[j]? = some room ∧ (room.typeGrants.getD [])[k]? = some grant ∧
      r = typeGrantRow draws i j k grant) ∨
    ∃ i actor j grant roomId expiresAt, (doc.actors.getD [])[i]? = some actor ∧
      (actor.roomAccess.getD [])[j]? = some grant ∧
      (roomIdByAppAndSlug draws (doc.apps.getD [])).get?
        (roomKey grant.appSlug grant.roomSlug) = some roomId ∧
      dateColumn host.legacy grant.expiresAt = .ok expiresAt ∧
      r = roomGrantRow draws i j grant roomId expiresAt := by
  constructor
  · rintro (_ | _ | ⟨happ, hrow⟩ | ⟨ha, hrow⟩)
    · rcases hrow with _ | ⟨hroom, hrow⟩ | ⟨_, hrow⟩
      · cases hrow with
        | typeGrant hg => exact .inl ⟨_, _, _, _, _, _, happ, hroom, hg, rfl⟩
      · cases hrow
    · cases hrow with
      | roomGrant hg hid ht => exact .inr ⟨_, _, _, _, _, _, ha, hg, hid, ht, rfl⟩
  · rintro (⟨i, app, j, room, k, grant, happ, hroom, hg, rfl⟩ |
      ⟨i, actor, j, grant, roomId, expiresAt, ha, hg, hid, ht, rfl⟩)
    · exact .app happ (.room hroom (.typeGrant hg))
    · exact .actor ha (.roomGrant hg hid ht)

/-- What the import has checked of one actor of the document. -/
structure ActorResolved (host : Host) (draws : Draws) (doc : ProjectConfigDoc) (actor : ActorDoc) :
    Prop where
  scope : ∃ accessScopeId,
    actorScope (scopeIdBySlug draws (doc.accessScopes.getD [])) actor = .ok accessScopeId
  expiresAt : ∃ expiresAt, dateColumn host.legacy actor.expiresAt = .ok expiresAt
  appGrant : ∀ grant ∈ actor.appAccess.getD [],
    (∃ appId, (appIdBySlug draws (doc.apps.getD [])).get? grant.appSlug = some appId) ∧
      ∃ expiresAt, dateColumn host.legacy grant.expiresAt = .ok expiresAt
  roomGrant : ∀ grant ∈ actor.roomAccess.getD [],
    (∃ roomId, (roomIdByAppAndSlug draws (doc.apps.getD [])).get?
      (roomKey grant.appSlug grant.roomSlug) = some roomId) ∧
      ∃ expiresAt, dateColumn host.legacy grant.expiresAt = .ok expiresAt

/-! ## Loops -/

theorem yields_save (row : Row) {d : Store} (hd : ∀ row', d.Has row' ↔ row' = row)
    (h : save d s = .ok s') : ∃ e, Yields e (· = row) ∧ s' = s.append e :=
  ⟨d, ⟨fun r hr => (hd r).1 hr, fun r _ hr => (hd r).2 hr⟩, (save_ok h).1⟩

theorem importRoom_ok {i j : Nat} {room : RoomDoc} (h : importRoom draws i j room s = .ok s') :
    ∃ d, Yields d (RoomRows draws i j room) ∧ s' = s.append d := by
  obtain ⟨s₁, h₁, h₂⟩ := bind_ok.1 h
  obtain ⟨d, hd, rfl⟩ := yields_save (.room (roomRow draws i j room))
    (by intro row; cases row <;> simp [Has]) h₁
  obtain ⟨_, e, he, rfl⟩ := forEach_yields (R := fun _ _ => True)
    (Q := fun k grant row => row = .roomGrant (typeGrantRow draws i j k grant))
    (fun k grant s s' h => ⟨trivial,
      yields_save _ (by intro row; cases row <;> simp [Has]) h⟩) _ 0 _ s' h₂
  refine ⟨d.append e, (hd.append he).congr ?_, append_assoc s d e⟩
  intro row
  constructor
  · rintro (rfl | ⟨k, grant, hk, rfl⟩)
    · exact .room
    · rw [Nat.zero_add]
      exact .typeGrant hk
  · rintro (_ | ⟨hk⟩)
    · exact .inl rfl
    · exact .inr ⟨_, _, hk, by rw [Nat.zero_add]⟩

theorem saveLink_ok {link : LobbyRoom} (h : saveLink link s = .ok s') :
    ∃ d, Yields d (· = .lobbyRoom link) ∧ s' = s.append d := by
  unfold saveLink at h
  split at h
  · cases h
    refine ⟨{}, ⟨fun row hrow => absurd hrow (not_has_empty row), ?_⟩, s.append_empty.symm⟩
    rintro row hl rfl
    cases hl
  · exact yields_save _ (by intro row; cases row <;> simp [Has]) h

theorem importLobby_ok {roomIds : OrderedMap String Uuid} {app : AppDoc} {i j : Nat}
    {lobby : LobbyDoc} (h : importLobby draws roomIds app i j lobby s = .ok s') :
    ∃ d, Yields d (LobbyRows draws roomIds app i j lobby) ∧ s' = s.append d := by
  obtain ⟨s₁, h₁, h₂⟩ := bind_ok.1 h
  obtain ⟨d, hd, rfl⟩ := yields_save (.lobby (lobbyRow draws i j lobby))
    (by intro row; cases row <;> simp [Has]) h₁
  obtain ⟨_, e, he, rfl⟩ := forEach_yields (R := fun _ _ => True)
    (Q := fun _ roomSlug row => ∃ roomId, roomIds.get? (roomKey app.slug roomSlug) = some roomId ∧
      row = .lobbyRoom { lobbyId := draws.lobby i j, roomId := roomId })
    (fun k roomSlug s s' h => ⟨trivial, by
      split at h
      · cases h
      · rename_i roomId hid
        obtain ⟨d, hd, rfl⟩ := saveLink_ok h
        refine ⟨d, hd.congr fun row => ?_, rfl⟩
        simp [hid]⟩) _ 0 _ s' h₂
  refine ⟨d.append e, (hd.append he).congr ?_, append_assoc s d e⟩
  intro row
  constructor
  · rintro (rfl | ⟨k, roomSlug, hk, roomId, hid, rfl⟩)
    · exact .lobby
    · exact .link (List.mem_of_getElem? hk) hid
  · rintro (_ | ⟨hslug, hid⟩)
    · exact .inl rfl
    · obtain ⟨k, hk⟩ := List.mem_iff_getElem?.1 hslug
      exact .inr ⟨k, _, hk, _, hid, rfl⟩

theorem importApp_ok {apps : List AppDoc} {i : Nat} {app : AppDoc}
    (h : importApp draws apps i app s = .ok s') :
    ∃ d, Yields d (AppRows draws apps i app) ∧ s' = s.append d := by
  obtain ⟨s₁, h₁, h⟩ := bind_ok.1 h
  obtain ⟨s₂, h₂, h₃⟩ := bind_ok.1 h
  obtain ⟨d, hd, rfl⟩ := yields_save (.app (appRow draws i app))
    (by intro row; cases row <;> simp [Has]) h₁
  obtain ⟨_, e, he, rfl⟩ := forEach_yields (R := fun _ _ => True)
    (fun j room s s' h => ⟨trivial, importRoom_ok h⟩) _ 0 _ s₂ h₂
  obtain ⟨_, f, hf, rfl⟩ := forEach_yields (R := fun _ _ => True)
    (fun j lobby s s' h => ⟨trivial, importLobby_ok h⟩) _ 0 _ s' h₃
  refine ⟨d.append (e.append f), (hd.append (he.append hf)).congr ?_, by simp only [append_assoc]⟩
  intro row
  simp only [Nat.zero_add]
  constructor
  · rintro (rfl | ⟨j, room, hj, hrow⟩ | ⟨j, lobby, hj, hrow⟩)
    · exact .app
    · exact .room hj hrow
    · exact .lobby hj hrow
  · rintro (_ | ⟨hj, hrow⟩ | ⟨hj, hrow⟩)
    · exact .inl rfl
    · exact .inr (.inl ⟨_, _, hj, hrow⟩)
    · exact .inr (.inr ⟨_, _, hj, hrow⟩)

theorem importAppGrant_ok {appIds : OrderedMap String Uuid} {actor : ActorDoc} {i j : Nat}
    {grant : ActorAppGrantDoc} (h : importAppGrant host draws appIds actor i j grant s = .ok s') :
    ((∃ appId, appIds.get? grant.appSlug = some appId) ∧
      ∃ expiresAt, dateColumn host.legacy grant.expiresAt = .ok expiresAt) ∧
    ∃ d, Yields d (fun row => ∃ appId expiresAt, appIds.get? grant.appSlug = some appId ∧
      dateColumn host.legacy grant.expiresAt = .ok expiresAt ∧
      row = .appGrant (appGrantRow draws i j grant appId expiresAt)) ∧ s' = s.append d := by
  unfold importAppGrant at h
  split at h
  · cases h
  · rename_i appId hid
    obtain ⟨expiresAt, ht, h⟩ := bind_ok.1 h
    obtain ⟨d, hd, rfl⟩ :=
      yields_save (.appGrant (appGrantRow draws i j grant appId expiresAt))
        (by intro row; cases row <;> simp [Has]) h
    refine ⟨⟨⟨appId, hid⟩, expiresAt, ht⟩, d, hd.congr fun row => ?_, rfl⟩
    simp [hid, ht]

theorem importRoomGrant_ok {roomIds : OrderedMap String Uuid} {actor : ActorDoc} {i j : Nat}
    {grant : ActorRoomGrantDoc} (h : importRoomGrant host draws roomIds actor i j grant s = .ok s') :
    ((∃ roomId, roomIds.get? (roomKey grant.appSlug grant.roomSlug) = some roomId) ∧
      ∃ expiresAt, dateColumn host.legacy grant.expiresAt = .ok expiresAt) ∧
    ∃ d, Yields d (fun row => ∃ roomId expiresAt,
      roomIds.get? (roomKey grant.appSlug grant.roomSlug) = some roomId ∧
      dateColumn host.legacy grant.expiresAt = .ok expiresAt ∧
      row = .roomGrant (roomGrantRow draws i j grant roomId expiresAt)) ∧ s' = s.append d := by
  unfold importRoomGrant at h
  split at h
  · cases h
  · rename_i roomId hid
    obtain ⟨expiresAt, ht, h⟩ := bind_ok.1 h
    obtain ⟨d, hd, rfl⟩ :=
      yields_save (.roomGrant (roomGrantRow draws i j grant roomId expiresAt))
        (by intro row; cases row <;> simp [Has]) h
    refine ⟨⟨⟨roomId, hid⟩, expiresAt, ht⟩, d, hd.congr fun row => ?_, rfl⟩
    simp [hid, ht]

theorem importActor_ok {i : Nat} {actor : ActorDoc}
    (h : importActor host draws (scopeIdBySlug draws (doc.accessScopes.getD []))
      (appIdBySlug draws (doc.apps.getD [])) (roomIdByAppAndSlug draws (doc.apps.getD [])) i actor s =
        .ok s') :
    ActorResolved host draws doc actor ∧
      ∃ d, Yields d (ActorRows host draws doc i actor) ∧ s' = s.append d := by
  obtain ⟨accessScopeId, hs, h⟩ := bind_ok.1 h
  obtain ⟨expiresAt, ht, h⟩ := bind_ok.1 h
  obtain ⟨s₁, h₁, h⟩ := bind_ok.1 h
  obtain ⟨s₂, h₂, h₃⟩ := bind_ok.1 h
  obtain ⟨d, hd, rfl⟩ := yields_save
    (.actorToken (actorRow host draws i actor accessScopeId expiresAt))
    (by intro row; cases row <;> simp [Has]) h₁
  obtain ⟨happ, e, he, rfl⟩ := forEach_yields (fun j grant s s' h => importAppGrant_ok h) _ 0 _ s₂ h₂
  obtain ⟨hroom, f, hf, rfl⟩ :=
    forEach_yields (fun j grant s s' h => importRoomGrant_ok h) _ 0 _ s' h₃
  constructor
  · refine ⟨⟨accessScopeId, hs⟩, ⟨expiresAt, ht⟩, ?_, ?_⟩
    · intro grant hg
      obtain ⟨j, hj⟩ := List.mem_iff_getElem?.1 hg
      exact happ j grant hj
    · intro grant hg
      obtain ⟨j, hj⟩ := List.mem_iff_getElem?.1 hg
      exact hroom j grant hj
  · refine ⟨d.append (e.append f), (hd.append (he.append hf)).congr ?_, by simp only [append_assoc]⟩
    intro row
    simp only [Nat.zero_add]
    constructor
    · rintro (rfl | ⟨j, grant, hj, appId, t, hid, ht', rfl⟩ | ⟨j, grant, hj, roomId, t, hid, ht', rfl⟩)
      · exact .actor hs ht
      · exact .appGrant hj hid ht'
      · exact .roomGrant hj hid ht'
    · rintro (⟨hs', ht'⟩ | ⟨hj, hid, ht'⟩ | ⟨hj, hid, ht'⟩)
      · rw [hs] at hs'
        rw [ht] at ht'
        cases hs'
        cases ht'
        exact .inl rfl
      · exact .inr (.inl ⟨_, _, hj, _, _, hid, ht', rfl⟩)
      · exact .inr (.inr ⟨_, _, hj, _, _, hid, ht', rfl⟩)

theorem importSigningKey_ok {i : Nat} {key : SigningKeyDoc}
    (h : importSigningKey host draws i key s = .ok s') :
    ∃ d, Yields d (fun row => ∃ secretEncrypted,
      SigningKeyFacade.encryptForStorage host.cipher host.config (draws.signingKeyBytes i).iv
        (generatedKey host draws i).secret = .ok secretEncrypted ∧
      row = .signingKey
        { signingKeyId := draws.signingKey i
          projectId := draws.project
          keyId := (generatedKey host draws i).keyId
          secretEncrypted := secretEncrypted
          name := key.name }) ∧ s' = s.append d := by
  obtain ⟨secretEncrypted, he, h⟩ := bind_ok.1 h
  obtain ⟨d, hd, rfl⟩ := yields_save (.signingKey
    { signingKeyId := draws.signingKey i
      projectId := draws.project
      keyId := (generatedKey host draws i).keyId
      secretEncrypted := secretEncrypted
      name := key.name }) (by intro row; cases row <;> simp [Has]) h
  refine ⟨d, hd.congr fun row => ?_, rfl⟩
  simp [he]

/-! ## The whole document -/

/-- The stages of a successful import, each from the store the last one left. -/
theorem importProject_stages {minted : ImportedCredentials}
    (h : importProject host draws now doc s = .ok (minted, s')) :
    doc.version = docVersion ∧ assertUniqueSlugs doc = .ok () ∧
      minted = credentials host draws doc ∧ ∃ s₁ s₂ s₃ s₄,
        save { projects := [projectRow draws now doc.project] } s = .ok s₁ ∧
        forEach (fun i scope => save { accessScopes := [scopeRow draws i scope] }) 0
          (doc.accessScopes.getD []) s₁ = .ok s₂ ∧
        forEach (importApp draws (doc.apps.getD [])) 0 (doc.apps.getD []) s₂ = .ok s₃ ∧
        forEach (importActor host draws (scopeIdBySlug draws (doc.accessScopes.getD []))
          (appIdBySlug draws (doc.apps.getD [])) (roomIdByAppAndSlug draws (doc.apps.getD [])))
          0 (doc.actors.getD []) s₃ = .ok s₄ ∧
        forEach (importSigningKey host draws) 0 (doc.signingKeys.getD []) s₄ = .ok s' := by
  unfold importProject at h
  split at h
  · cases h
  rename_i hversion
  obtain ⟨_, hunique, h⟩ := bind_ok.1 h
  obtain ⟨s₁, h₁, h⟩ := bind_ok.1 h
  obtain ⟨s₂, h₂, h⟩ := bind_ok.1 h
  obtain ⟨s₃, h₃, h⟩ := bind_ok.1 h
  obtain ⟨s₄, h₄, h⟩ := bind_ok.1 h
  obtain ⟨s₅, h₅, h⟩ := bind_ok.1 h
  cases h
  exact ⟨Decidable.not_not.1 hversion, hunique, rfl, s₁, s₂, s₃, s₄, h₁, h₂, h₃, h₄, h₅⟩

/-- What a successful import comes to. -/
structure Imported (host : Host) (draws : Draws) (now : Int) (doc : ProjectConfigDoc)
    (credentials : ImportedCredentials) (s s' : Store) : Prop where
  unique : assertUniqueSlugs doc = .ok ()
  minted : credentials = ProjectConfig.credentials host draws doc
  actors : ∀ actor ∈ doc.actors.getD [], ActorResolved host draws doc actor
  rows : ∃ d, Yields d (DocRows host draws now doc) ∧ s' = s.append d

theorem importProject_ok {credentials : ImportedCredentials}
    (h : importProject host draws now doc s = .ok (credentials, s')) :
    Imported host draws now doc credentials s s' := by
  obtain ⟨-, hunique, rfl, s₁, s₂, s₃, s₄, h₁, h₂, h₃, h₄, h₅⟩ := importProject_stages h
  obtain ⟨d₁, hd₁, rfl⟩ := yields_save (.project (projectRow draws now doc.project))
    (by intro row; cases row <;> simp [Has]) h₁
  obtain ⟨_, d₂, hd₂, rfl⟩ := forEach_yields (R := fun _ _ => True)
    (Q := fun i scope row => row = .accessScope (scopeRow draws i scope))
    (fun i scope s s' h => ⟨trivial,
      yields_save _ (by intro row; cases row <;> simp [Has]) h⟩) _ 0 _ s₂ h₂
  obtain ⟨_, d₃, hd₃, rfl⟩ := forEach_yields (R := fun _ _ => True)
    (fun i app s s' h => ⟨trivial, importApp_ok h⟩) _ 0 _ s₃ h₃
  obtain ⟨hactors, d₄, hd₄, rfl⟩ := forEach_yields
    (R := fun _ actor => ActorResolved host draws doc actor)
    (fun i actor s s' h => importActor_ok h) _ 0 _ s₄ h₄
  obtain ⟨_, d₅, hd₅, rfl⟩ := forEach_yields (R := fun _ _ => True)
    (fun i key s s' h => ⟨trivial, importSigningKey_ok h⟩) _ 0 _ s' h₅
  refine ⟨hunique, rfl, ?_, d₁.append (d₂.append (d₃.append (d₄.append d₅))),
    (hd₁.append (hd₂.append (hd₃.append (hd₄.append hd₅)))).congr ?_, by simp only [append_assoc]⟩
  · intro actor ha
    obtain ⟨i, hi⟩ := List.mem_iff_getElem?.1 ha
    exact hactors i actor hi
  · intro row
    simp only [Nat.zero_add]
    constructor
    · rintro (rfl | ⟨i, scope, hi, rfl⟩ | ⟨i, app, hi, hrow⟩ | ⟨i, actor, hi, hrow⟩ |
        ⟨i, key, hi, secret, he, rfl⟩)
      · exact .project
      · exact .scope hi
      · exact .app hi hrow
      · exact .actor hi hrow
      · exact .signingKey hi he
    · rintro (_ | ⟨hi⟩ | ⟨hi, hrow⟩ | ⟨hi, hrow⟩ | ⟨hi, he⟩)
      · exact .inl rfl
      · exact .inr (.inl ⟨_, _, hi, rfl⟩)
      · exact .inr (.inr (.inl ⟨_, _, hi, hrow⟩))
      · exact .inr (.inr (.inr (.inl ⟨_, _, hi, hrow⟩)))
      · exact .inr (.inr (.inr (.inr ⟨_, _, hi, _, he, rfl⟩)))

end ProjectConfig
end NolagCore
