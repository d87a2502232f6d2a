import NolagCore.ProjectConfig.ImportSpec

/-!
# ProjectConfig.Created

The rows a document creates, as one fragment that is a function of the document and of what was
drawn. A successful import appends it to the database, whatever the database held before.
-/

namespace NolagCore
namespace ProjectConfig

open Lib Store

/-! ## Fragments of the document -/

section

variable (host : Host) (draws : Draws)

def createdRoom (i j : Nat) (room : RoomDoc) : Store :=
  ({ rooms := [roomRow draws i j room] } : Store).append
    (fragments (fun k grant => { roomActorAccess := [typeGrantRow draws i j k grant] }) 0
      (room.typeGrants.getD []))

/-- The memberships a lobby names, as often as it names them. -/
def namedLinks (roomIds : OrderedMap String Uuid) (appSlug : String) (lobbyId : Uuid)
    (rooms : List String) : List LobbyRoom :=
  rooms.filterMap fun roomSlug => (roomIds.get? (roomKey appSlug roomSlug)).map fun roomId =>
    { lobbyId := lobbyId, roomId := roomId }

def saveMembers (links rows : List LobbyRoom) : List LobbyRoom :=
  links.foldl (fun rows link => LobbyFacade.saveMember link rows) rows

/-- The memberships of a lobby: each room it names, once. -/
def createdLinks (roomIds : OrderedMap String Uuid) (appSlug : String) (lobbyId : Uuid)
    (rooms : List String) : List LobbyRoom :=
  saveMembers (namedLinks roomIds appSlug lobbyId rooms) []

def createdLobby (roomIds : OrderedMap String Uuid) (app : AppDoc) (i j : Nat) (lobby : LobbyDoc) :
    Store where
  lobbies := [lobbyRow draws i j lobby]
  lobbyRooms := createdLinks roomIds app.slug (draws.lobby i j) lobby.rooms

def createdApp (apps : List AppDoc) (i : Nat) (app : AppDoc) : Store :=
  ({ apps := [appRow draws i app] } : Store).append
    ((fragments (createdRoom draws i) 0 (app.rooms.getD [])).append
      (fragments (createdLobby draws (roomIdByAppAndSlug draws (apps.take (i + 1))) app i) 0
        (app.lobbies.getD [])))

/-- A date column of a document that is imported. -/
def storedDate (legacy : String → Option Int) (text : Option String) : Option Int :=
  (dateColumn legacy text).toOption.join

/-- The scope an imported actor is bound to. -/
def boundScope (doc : ProjectConfigDoc) (actor : ActorDoc) : Option Uuid :=
  (actorScope (scopeIdBySlug draws (doc.accessScopes.getD [])) actor).toOption.join

/-- The rows of an actor's app grants: a slug that refers to nothing would make none. -/
def createdAppGrant (doc : ProjectConfigDoc) (i j : Nat) (grant : ActorAppGrantDoc) : Store where
  actorAppAccess := ((appIdBySlug draws (doc.apps.getD [])).get? grant.appSlug).toList.map
    fun appId => appGrantRow draws i j grant appId (storedDate host.legacy grant.expiresAt)

def createdRoomGrant (doc : ProjectConfigDoc) (i j : Nat) (grant : ActorRoomGrantDoc) : Store where
  roomActorAccess := ((roomIdByAppAndSlug draws (doc.apps.getD [])).get?
      (roomKey grant.appSlug grant.roomSlug)).toList.map
    fun roomId => roomGrantRow draws i j grant roomId (storedDate host.legacy grant.expiresAt)

def createdActorRow (doc : ProjectConfigDoc) (i : Nat) (actor : ActorDoc) : ActorToken :=
  actorRow host draws i actor (boundScope draws doc actor) (storedDate host.legacy actor.expiresAt)

def createdActor (doc : ProjectConfigDoc) (i : Nat) (actor : ActorDoc) : Store :=
  ({ actorTokens := [createdActorRow host draws doc i actor] } : Store).append
    ((fragments (createdAppGrant host draws doc i) 0 (actor.appAccess.getD [])).append
      (fragments (createdRoomGrant host draws doc i) 0 (actor.roomAccess.getD [])))

/-- What is stored of a minted signing key. -/
def encryptedKey (i : Nat) : Except CoreError String :=
  SigningKeyFacade.encryptForStorage host.cipher host.config (draws.signingKeyBytes i).iv
    (generatedKey host draws i).secret

def createdKeyRow (i : Nat) (key : SigningKeyDoc) : SigningKey where
  signingKeyId := draws.signingKey i
  projectId := draws.project
  keyId := (generatedKey host draws i).keyId
  secretEncrypted := (encryptedKey host draws i).toOption.getD ""
  name := key.name

/-- The rows of a document. -/
def created (now : Int) (doc : ProjectConfigDoc) : Store :=
  ({ projects := [projectRow draws now doc.project] } : Store).append
    ((fragments (fun i scope => { accessScopes := [scopeRow draws i scope] }) 0
      (doc.accessScopes.getD [])).append
    ((fragments (createdApp draws (doc.apps.getD [])) 0 (doc.apps.getD [])).append
    ((fragments (createdActor host draws doc) 0 (doc.actors.getD [])).append
      (fragments (fun i key => { signingKeys := [createdKeyRow host draws i key] }) 0
        (doc.signingKeys.getD [])))))

end

/-! ## Tables -/

section

variable (host : Host) (draws : Draws) (now : Int) (doc : ProjectConfigDoc)

theorem projects_created : (created host draws now doc).projects =
    [projectRow draws now doc.project] := by
  simp [created, createdApp, createdRoom, createdLobby, createdActor, createdAppGrant,
    createdRoomGrant]

theorem accessScopes_created : (created host draws now doc).accessScopes =
    (doc.accessScopes.getD []).mapIdx (scopeRow draws) := by
  simp [created, createdApp, createdRoom, createdLobby, createdActor, createdAppGrant,
    createdRoomGrant]

theorem apps_created : (created host draws now doc).apps =
    (doc.apps.getD []).mapIdx (appRow draws) := by
  simp [created, createdApp, createdRoom, createdLobby, createdActor, createdAppGrant,
    createdRoomGrant]

theorem rooms_created : (created host draws now doc).rooms =
    blocks (fun i app => (app.rooms.getD []).mapIdx (roomRow draws i)) (doc.apps.getD []) := by
  simp [created, createdApp, createdRoom, createdLobby, createdActor, createdAppGrant,
    createdRoomGrant]

/-- The grants to types stand before the grants to named actors. -/
theorem roomActorAccess_created : (created host draws now doc).roomActorAccess =
    blocks (fun i app => blocks (fun j room =>
        (room.typeGrants.getD []).mapIdx (typeGrantRow draws i j)) (app.rooms.getD []))
      (doc.apps.getD []) ++
    blocks (fun i actor => blocks (fun j grant =>
        (createdRoomGrant host draws doc i j grant).roomActorAccess) (actor.roomAccess.getD []))
      (doc.actors.getD []) := by
  simp [created, createdApp, createdRoom, createdLobby, createdActor, createdAppGrant,
    createdRoomGrant]

theorem lobbies_created : (created host draws now doc).lobbies =
    blocks (fun i app => (app.lobbies.getD []).mapIdx (lobbyRow draws i)) (doc.apps.getD []) := by
  simp [created, createdApp, createdRoom, createdLobby, createdActor, createdAppGrant,
    createdRoomGrant]

theorem lobbyRooms_created : (created host draws now doc).lobbyRooms =
    blocks (fun i app => blocks (fun j lobby =>
        createdLinks (roomIdByAppAndSlug draws ((doc.apps.getD []).take (i + 1))) app.slug
          (draws.lobby i j) lobby.rooms) (app.lobbies.getD [])) (doc.apps.getD []) := by
  simp [created, createdApp, createdRoom, createdLobby, createdActor, createdAppGrant,
    createdRoomGrant]

theorem actorTokens_created : (created host draws now doc).actorTokens =
    (doc.actors.getD []).mapIdx (createdActorRow host draws doc) := by
  simp [created, createdApp, createdRoom, createdLobby, createdActor, createdAppGrant,
    createdRoomGrant]

theorem actorTokenStates_created : (created host draws now doc).actorTokenStates = [] := by
  simp [created, createdApp, createdRoom, createdLobby, createdActor, createdAppGrant,
    createdRoomGrant]

theorem actorAppAccess_created : (created host draws now doc).actorAppAccess =
    blocks (fun i actor => blocks (fun j grant =>
        (createdAppGrant host draws doc i j grant).actorAppAccess) (actor.appAccess.getD []))
      (doc.actors.getD []) := by
  simp [created, createdApp, createdRoom, createdLobby, createdActor, createdAppGrant,
    createdRoomGrant]

theorem signingKeys_created : (created host draws now doc).signingKeys =
    (doc.signingKeys.getD []).mapIdx (createdKeyRow host draws) := by
  simp [created, createdApp, createdRoom, createdLobby, createdActor, createdAppGrant,
    createdRoomGrant]

end

/-! ## Memberships -/

theorem saveMember_eq (link : LobbyRoom) (rows : List LobbyRoom) :
    LobbyFacade.saveMember link rows =
      if ∃ r ∈ rows, r.lobbyId = link.lobbyId ∧ r.roomId = link.roomId then rows
      else rows ++ [link] := by
  unfold LobbyFacade.saveMember
  simp

/-- Memberships of other lobbies play no part in saving one. -/
theorem saveMember_append {old rows : List LobbyRoom} {link : LobbyRoom}
    (hold : ∀ r ∈ old, r.lobbyId ≠ link.lobbyId) :
    LobbyFacade.saveMember link (old ++ rows) = old ++ LobbyFacade.saveMember link rows := by
  rw [saveMember_eq, saveMember_eq]
  by_cases h : ∃ r ∈ rows, r.lobbyId = link.lobbyId ∧ r.roomId = link.roomId
  · obtain ⟨r, hr, hk⟩ := h
    rw [if_pos ⟨r, List.mem_append_right _ hr, hk⟩, if_pos ⟨r, hr, hk⟩]
  · rw [if_neg h, if_neg, List.append_assoc]
    rintro ⟨r, hr, hk⟩
    rcases List.mem_append.1 hr with hr | hr
    · exact hold r hr hk.1
    · exact h ⟨r, hr, hk⟩

theorem saveMembers_cons (link : LobbyRoom) (links rows : List LobbyRoom) :
    saveMembers (link :: links) rows = saveMembers links (LobbyFacade.saveMember link rows) := rfl

theorem mem_saveMembers {lobbyId : Uuid} {links : List LobbyRoom} {rows : List LobbyRoom}
    (hlinks : ∀ l ∈ links, l = { lobbyId := lobbyId, roomId := l.roomId })
    (hrows : ∀ l ∈ rows, l = { lobbyId := lobbyId, roomId := l.roomId }) {link : LobbyRoom} :
    link ∈ saveMembers links rows ↔ link ∈ rows ∨ link ∈ links := by
  induction links generalizing rows with
  | nil => simp [saveMembers]
  | cons l links ih =>
    have hl := hlinks l List.mem_cons_self
    rw [saveMembers_cons, saveMember_eq]
    split
    · rename_i hex
      rw [ih (fun m hm => hlinks m (List.mem_cons_of_mem _ hm)) hrows, List.mem_cons]
      obtain ⟨r, hr, -, hroom⟩ := hex
      have heq : r = l := by rw [hrows r hr, hl, hroom]
      subst heq
      constructor
      · rintro (h | h)
        · exact .inl h
        · exact .inr (.inr h)
      · rintro (h | rfl | h)
        · exact .inl h
        · exact .inl hr
        · exact .inr h
    · rw [ih (fun m hm => hlinks m (List.mem_cons_of_mem _ hm)), List.mem_append,
        List.mem_singleton, List.mem_cons, or_assoc]
      intro m hm
      rcases List.mem_append.1 hm with hm | hm
      · exact hrows m hm
      · rw [List.mem_singleton.1 hm]
        exact hl

theorem unique_saveMembers {links rows : List LobbyRoom}
    (h : UniqueOn (fun l => (l.lobbyId, l.roomId)) rows) :
    UniqueOn (fun l => (l.lobbyId, l.roomId)) (saveMembers links rows) := by
  induction links generalizing rows with
  | nil => exact h
  | cons l links ih =>
    rw [saveMembers_cons, saveMember_eq]
    split
    · exact ih h
    · rename_i hne
      refine ih (h.append_of_ne (List.nodup_singleton _) ?_)
      intro r hr r' hr' heq
      rw [List.mem_singleton.1 hr'] at heq
      exact hne ⟨r, hr, congrArg Prod.fst heq, congrArg Prod.snd heq⟩

section

variable {roomIds : OrderedMap String Uuid} {appSlug : String} {lobbyId : Uuid}
  {rooms : List String}

theorem mem_createdLinks {link : LobbyRoom} : link ∈ createdLinks roomIds appSlug lobbyId rooms ↔
    ∃ roomSlug ∈ rooms, ∃ roomId, roomIds.get? (roomKey appSlug roomSlug) = some roomId ∧
      link = { lobbyId := lobbyId, roomId := roomId } := by
  unfold createdLinks
  have hlinks : ∀ l ∈ namedLinks roomIds appSlug lobbyId rooms,
      l = { lobbyId := lobbyId, roomId := l.roomId } := by
    intro l hl
    obtain ⟨roomSlug, -, hl⟩ := List.mem_filterMap.1 hl
    obtain ⟨roomId, -, rfl⟩ := Option.map_eq_some_iff.1 hl
    rfl
  rw [mem_saveMembers hlinks (by simp)]
  simp only [namedLinks, List.not_mem_nil, false_or, List.mem_filterMap, Option.map_eq_some_iff,
    eq_comm (a := link)]

theorem lobbyId_of_createdLinks {link : LobbyRoom}
    (h : link ∈ createdLinks roomIds appSlug lobbyId rooms) : link.lobbyId = lobbyId := by
  obtain ⟨_, _, _, _, rfl⟩ := mem_createdLinks.1 h
  rfl

theorem unique_createdLinks : UniqueOn (fun l => (l.lobbyId, l.roomId))
    (createdLinks roomIds appSlug lobbyId rooms) :=
  unique_saveMembers List.nodup_nil

end

/-! ## What an import appends -/

theorem save_appends {row s s' : Store} (h : save row s = .ok s') :
    s'.SchemaValid ∧ s' = s.append row :=
  ⟨(save_ok h).2, (save_ok h).1⟩

variable {host : Host} {draws : Draws} {now : Int} {doc : ProjectConfigDoc} {s s' : Store}

theorem importRoom_appends {i j : Nat} {room : RoomDoc} (h : importRoom draws i j room s = .ok s') :
    s'.SchemaValid ∧ s' = s.append (createdRoom draws i j room) := by
  obtain ⟨s₁, h₁, h₂⟩ := bind_ok.1 h
  obtain ⟨hs₁, rfl⟩ := save_appends h₁
  obtain ⟨-, hs', rfl⟩ := forEach_fragments
    (fun k grant => { roomActorAccess := [typeGrantRow draws i j k grant] }) (R := fun _ _ => True)
    (fun k grant s s' _ h => ⟨trivial, save_appends h⟩) _ 0 _ s' hs₁ h₂
  exact ⟨hs', append_assoc _ _ _⟩

theorem append_lobbyRooms (s : Store) (a b : List LobbyRoom) :
    (s.append { lobbyRooms := a }).append { lobbyRooms := b } =
      s.append { lobbyRooms := a ++ b } := by
  simp [Store.append]

theorem append_noLinks (s : Store) : s.append { lobbyRooms := [] } = s := append_empty s

theorem saveMember_keeps {link : LobbyRoom} {links : List LobbyRoom}
    (hold : ∀ r ∈ s.lobbyRooms, r.lobbyId ≠ link.lobbyId) :
    LobbyFacade.saveMember link (s.append { lobbyRooms := links }).lobbyRooms =
        (s.append { lobbyRooms := links }).lobbyRooms ↔
      LobbyFacade.saveMember link links = links := by
  rw [lobbyRooms_append, saveMember_append hold, List.append_cancel_left_eq]

theorem saveMember_new {link : LobbyRoom} {links : List LobbyRoom}
    (h : LobbyFacade.saveMember link links ≠ links) :
    LobbyFacade.saveMember link links = links ++ [link] := by
  rw [saveMember_eq] at h ⊢
  split
  · rename_i hex
    exact absurd (if_pos hex) h
  · rfl

/-- Saving a membership of a lobby that had none but those of this import. -/
theorem saveLink_appends {link : LobbyRoom} {links : List LobbyRoom}
    (hs : (s.append { lobbyRooms := links }).SchemaValid)
    (hold : ∀ r ∈ s.lobbyRooms, r.lobbyId ≠ link.lobbyId)
    (h : saveLink link (s.append { lobbyRooms := links }) = .ok s') :
    s'.SchemaValid ∧ s' = s.append { lobbyRooms := LobbyFacade.saveMember link links } := by
  unfold saveLink at h
  split at h
  · rename_i hkept
    cases h
    rw [(saveMember_keeps hold).1 hkept]
    exact ⟨hs, rfl⟩
  · rename_i hnew
    obtain ⟨hs', rfl⟩ := save_appends h
    refine ⟨hs', ?_⟩
    rw [saveMember_new fun hkept => hnew ((saveMember_keeps hold).2 hkept), append_lobbyRooms]

/-- One iteration over the rooms a lobby names. -/
def importLink (roomIds : OrderedMap String Uuid) (app : AppDoc) (lobby : LobbyDoc) (lobbyId : Uuid)
    (roomSlug : String) (s : Store) : Except CoreError Store :=
  match roomIds.get? (roomKey app.slug roomSlug) with
  | none => .error (.badRequest
      ("Lobby \"" ++ lobby.slug ++ "\" references unknown room \"" ++ roomSlug ++ "\""))
  | some roomId => saveLink { lobbyId := lobbyId, roomId := roomId } s

theorem importLinks_appends {roomIds : OrderedMap String Uuid} {app : AppDoc} {lobby : LobbyDoc}
    {lobbyId : Uuid} (hold : ∀ r ∈ s.lobbyRooms, r.lobbyId ≠ lobbyId) {rooms : List String} :
    ∀ {links : List LobbyRoom} {i : Nat}, (s.append { lobbyRooms := links }).SchemaValid →
      forEach (fun _ => importLink roomIds app lobby lobbyId) i rooms
        (s.append { lobbyRooms := links }) = .ok s' →
      (∀ roomSlug ∈ rooms, ∃ roomId, roomIds.get? (roomKey app.slug roomSlug) = some roomId) ∧
        s'.SchemaValid ∧ s' = s.append
          { lobbyRooms := saveMembers (namedLinks roomIds app.slug lobbyId rooms) links } := by
  induction rooms with
  | nil =>
    intro links i hs h
    cases h
    refine ⟨?_, hs, rfl⟩
    intro _ hm
    cases hm
  | cons roomSlug rooms ih =>
    intro links i hs h
    obtain ⟨s₁, h₁, h₂⟩ := bind_ok.1 h
    simp only [importLink] at h₁
    split at h₁
    · cases h₁
    · rename_i roomId hid
      obtain ⟨hs₁, rfl⟩ := saveLink_appends hs hold h₁
      obtain ⟨hrest, hs', rfl⟩ := ih hs₁ h₂
      refine ⟨?_, hs', ?_⟩
      · intro slug hslug
        rcases List.mem_cons.1 hslug with rfl | hslug
        · exact ⟨roomId, hid⟩
        · exact hrest slug hslug
      · have hnamed : namedLinks roomIds app.slug lobbyId (roomSlug :: rooms) =
            { lobbyId := lobbyId, roomId := roomId } ::
              namedLinks roomIds app.slug lobbyId rooms := by
          unfold namedLinks
          rw [List.filterMap_cons, hid]
          rfl
        rw [hnamed]
        rfl

/-- No membership refers to a lobby that is not stored yet. -/
theorem no_links_of_new_lobby {lobby : Lobby} (hs : s.SchemaValid)
    (hs' : (s.append { lobbies := [lobby] }).SchemaValid) :
    ∀ r ∈ s.lobbyRooms, r.lobbyId ≠ lobby.lobbyId := by
  intro r hr heq
  obtain ⟨l, hl, hid⟩ := hs.fkMemberLobby r hr r.lobbyId rfl
  exact UniqueOn.ne_of_append hs'.pkLobby hl List.mem_cons_self (hid.trans heq)

theorem importLobby_appends {roomIds : OrderedMap String Uuid} {app : AppDoc} {i j : Nat}
    {lobby : LobbyDoc} (hs : s.SchemaValid) (h : importLobby draws roomIds app i j lobby s = .ok s') :
    (∀ roomSlug ∈ lobby.rooms, ∃ roomId, roomIds.get? (roomKey app.slug roomSlug) = some roomId) ∧
      s'.SchemaValid ∧ s' = s.append (createdLobby draws roomIds app i j lobby) := by
  obtain ⟨s₁, h₁, h₂⟩ := bind_ok.1 h
  obtain ⟨hs₁, rfl⟩ := save_appends h₁
  have hold : ∀ r ∈ (s.append { lobbies := [lobbyRow draws i j lobby] }).lobbyRooms,
      r.lobbyId ≠ draws.lobby i j := by
    rw [lobbyRooms_append, List.append_nil]
    exact no_links_of_new_lobby hs hs₁
  rw [← append_noLinks (s.append _)] at hs₁
  have hloop : forEach (fun _ => importLink roomIds app lobby (draws.lobby i j)) 0 lobby.rooms
      ((s.append { lobbies := [lobbyRow draws i j lobby] }).append { lobbyRooms := [] }) = .ok s' := by
    rw [append_noLinks]
    exact h₂
  obtain ⟨hresolved, hs', rfl⟩ := importLinks_appends hold hs₁ hloop
  refine ⟨hresolved, hs', ?_⟩
  simp [Store.append, createdLobby, createdLinks]

/-- Every room a lobby of the app names is found among the rooms of the apps so far. -/
def LinksResolve (draws : Draws) (apps : List AppDoc) (i : Nat) (app : AppDoc) : Prop :=
  ∀ lobby ∈ app.lobbies.getD [], ∀ roomSlug ∈ lobby.rooms,
    ∃ roomId, (roomIdByAppAndSlug draws (apps.take (i + 1))).get? (roomKey app.slug roomSlug) =
      some roomId

theorem importApp_appends {apps : List AppDoc} {i : Nat} {app : AppDoc}
    (h : importApp draws apps i app s = .ok s') :
    LinksResolve draws apps i app ∧ s'.SchemaValid ∧ s' = s.append (createdApp draws apps i app) := by
  obtain ⟨s₁, h₁, h⟩ := bind_ok.1 h
  obtain ⟨s₂, h₂, h₃⟩ := bind_ok.1 h
  obtain ⟨hs₁, rfl⟩ := save_appends h₁
  obtain ⟨-, hs₂, rfl⟩ := forEach_fragments (createdRoom draws i) (R := fun _ _ => True)
    (fun j room s s' _ h => ⟨trivial, importRoom_appends h⟩) _ 0 _ s₂ hs₁ h₂
  obtain ⟨hlinks, hs', rfl⟩ := forEach_fragments
    (createdLobby draws (roomIdByAppAndSlug draws (apps.take (i + 1))) app i)
    (fun j lobby s s' hs h => importLobby_appends hs h) _ 0 _ s' hs₂ h₃
  refine ⟨?_, hs', by simp only [createdApp, append_assoc]⟩
  intro lobby hlobby
  obtain ⟨j, hj⟩ := List.mem_iff_getElem?.1 hlobby
  exact hlinks j lobby hj

theorem storedDate_of_ok {legacy : String → Option Int} {text : Option String} {t : Option Int}
    (h : dateColumn legacy text = .ok t) : storedDate legacy text = t := by
  rw [storedDate, h]
  rfl

theorem boundScope_of_ok {actor : ActorDoc} {accessScopeId : Option Uuid}
    (h : actorScope (scopeIdBySlug draws (doc.accessScopes.getD [])) actor = .ok accessScopeId) :
    boundScope draws doc actor = accessScopeId := by
  rw [boundScope, h]
  rfl

theorem importAppGrant_appends {actor : ActorDoc} {i j : Nat} {grant : ActorAppGrantDoc}
    (h : importAppGrant host draws (appIdBySlug draws (doc.apps.getD [])) actor i j grant s =
      .ok s') :
    s'.SchemaValid ∧ s' = s.append (createdAppGrant host draws doc i j grant) := by
  unfold importAppGrant at h
  split at h
  · cases h
  · rename_i appId hid
    obtain ⟨expiresAt, ht, h⟩ := bind_ok.1 h
    obtain ⟨hs', rfl⟩ := save_appends h
    refine ⟨hs', ?_⟩
    rw [createdAppGrant, hid, storedDate_of_ok ht]
    rfl

theorem importRoomGrant_appends {actor : ActorDoc} {i j : Nat} {grant : ActorRoomGrantDoc}
    (h : importRoomGrant host draws (roomIdByAppAndSlug draws (doc.apps.getD [])) actor i j grant s =
      .ok s') :
    s'.SchemaValid ∧ s' = s.append (createdRoomGrant host draws doc i j grant) := by
  unfold importRoomGrant at h
  split at h
  · cases h
  · rename_i roomId hid
    obtain ⟨expiresAt, ht, h⟩ := bind_ok.1 h
    obtain ⟨hs', rfl⟩ := save_appends h
    refine ⟨hs', ?_⟩
    rw [createdRoomGrant, hid, storedDate_of_ok ht]
    rfl

theorem importActor_appends {i : Nat} {actor : ActorDoc}
    (h : importActor host draws (scopeIdBySlug draws (doc.accessScopes.getD []))
      (appIdBySlug draws (doc.apps.getD [])) (roomIdByAppAndSlug draws (doc.apps.getD [])) i actor s =
        .ok s') :
    s'.SchemaValid ∧ s' = s.append (createdActor host draws doc i actor) := by
  obtain ⟨accessScopeId, hscope, h⟩ := bind_ok.1 h
  obtain ⟨expiresAt, ht, h⟩ := bind_ok.1 h
  obtain ⟨s₁, h₁, h⟩ := bind_ok.1 h
  obtain ⟨s₂, h₂, h₃⟩ := bind_ok.1 h
  obtain ⟨hs₁, rfl⟩ := save_appends h₁
  obtain ⟨-, hs₂, rfl⟩ := forEach_fragments (createdAppGrant host draws doc i)
    (R := fun _ _ => True) (fun j grant s s' _ h => ⟨trivial, importAppGrant_appends h⟩)
    _ 0 _ s₂ hs₁ h₂
  obtain ⟨-, hs', rfl⟩ := forEach_fragments (createdRoomGrant host draws doc i)
    (R := fun _ _ => True) (fun j grant s s' _ h => ⟨trivial, importRoomGrant_appends h⟩)
    _ 0 _ s' hs₂ h₃
  refine ⟨hs', ?_⟩
  simp only [createdActor, createdActorRow, boundScope_of_ok hscope, storedDate_of_ok ht,
    append_assoc]

theorem importSigningKey_appends {i : Nat} {key : SigningKeyDoc}
    (h : importSigningKey host draws i key s = .ok s') :
    (∃ secretEncrypted, encryptedKey host draws i = .ok secretEncrypted) ∧ s'.SchemaValid ∧
      s' = s.append { signingKeys := [createdKeyRow host draws i key] } := by
  obtain ⟨secretEncrypted, he, h⟩ := bind_ok.1 h
  obtain ⟨hs', rfl⟩ := save_appends h
  have hkey : encryptedKey host draws i = .ok secretEncrypted := he
  refine ⟨⟨secretEncrypted, hkey⟩, hs', ?_⟩
  rw [createdKeyRow, hkey]
  rfl

/-- A successful import in full: what it has checked, what it returns and what it has stored. -/
structure Completed (host : Host) (draws : Draws) (now : Int) (doc : ProjectConfigDoc)
    (credentials : ImportedCredentials) (s s' : Store) : Prop where
  version : doc.version = docVersion
  unique : assertUniqueSlugs doc = .ok ()
  links : ∀ i app, (doc.apps.getD [])[i]? = some app → LinksResolve draws (doc.apps.getD []) i app
  actors : ∀ actor ∈ doc.actors.getD [], ActorResolved host draws doc actor
  encrypted : ∀ i key, (doc.signingKeys.getD [])[i]? = some key →
    ∃ secretEncrypted, encryptedKey host draws i = .ok secretEncrypted
  minted : credentials = ProjectConfig.credentials host draws doc
  valid : s'.SchemaValid
  stored : s' = s.append (created host draws now doc)

theorem importProject_completed {credentials : ImportedCredentials}
    (h : importProject host draws now doc s = .ok (credentials, s')) :
    Completed host draws now doc credentials s s' := by
  have himported := importProject_ok h
  obtain ⟨hversion, hunique, rfl, s₁, s₂, s₃, s₄, h₁, h₂, h₃, h₄, h₅⟩ := importProject_stages h
  obtain ⟨hs₁, rfl⟩ := save_appends h₁
  obtain ⟨-, hs₂, rfl⟩ := forEach_fragments
    (fun i scope => { accessScopes := [scopeRow draws i scope] }) (R := fun _ _ => True)
    (fun i scope s s' _ h => ⟨trivial, save_appends h⟩) _ 0 _ s₂ hs₁ h₂
  obtain ⟨hlinks, hs₃, rfl⟩ := forEach_fragments (createdApp draws (doc.apps.getD []))
    (fun i app s s' _ h => importApp_appends h) _ 0 _ s₃ hs₂ h₃
  obtain ⟨-, hs₄, rfl⟩ := forEach_fragments (createdActor host draws doc) (R := fun _ _ => True)
    (fun i actor s s' _ h => ⟨trivial, importActor_appends h⟩) _ 0 _ s₄ hs₃ h₄
  obtain ⟨hkeys, hs₅, rfl⟩ := forEach_fragments
    (fun i key => { signingKeys := [createdKeyRow host draws i key] })
    (fun i key s s' _ h => importSigningKey_appends h) _ 0 _ s' hs₄ h₅
  refine ⟨hversion, hunique, ?_, himported.actors, ?_, rfl, hs₅,
    by simp only [created, append_assoc]⟩
  · intro i app hi
    have hresolve := hlinks i app hi
    rwa [Nat.zero_add] at hresolve
  · intro i key hi
    have hkey := hkeys i key hi
    rwa [Nat.zero_add] at hkey

end ProjectConfig
end NolagCore
