import NolagCore.Authz.Justified

/-!
# Authz.Isolation

A project is the unit of isolation. `ofProject` keeps the rows of one project; where no grant of
the actor leads into another project, both resolutions read the whole store and that part of it
alike.
-/

namespace NolagCore

open Lib

namespace Store

/-! ## The rows of one project -/

def ownsApp (s : Store) (projectId appId : Uuid) : Bool :=
  s.apps.any fun a => decide (a.appId = appId) && decide (a.projectId = projectId)

def ownsRoom (s : Store) (projectId roomId : Uuid) : Bool :=
  s.rooms.any fun r => decide (r.roomId = roomId) && s.ownsApp projectId r.appId

def ownsLobby (s : Store) (projectId lobbyId : Uuid) : Bool :=
  s.lobbies.any fun l => decide (l.lobbyId = lobbyId) && s.ownsApp projectId l.appId

def ownsActor (s : Store) (projectId actorTokenId : Uuid) : Bool :=
  s.actorTokens.any fun a => decide (a.actorTokenId = actorTokenId) &&
    decide (a.projectId = projectId)

/-- The rows that belong to a project: its own, those of its apps, and every grant held by one of
its actors or placed on one of its rooms. -/
def ofProject (s : Store) (projectId : Uuid) : Store where
  projects := s.projects.filter fun p => decide (p.projectId = projectId)
  accessScopes := s.accessScopes.filter fun r => decide (r.projectId = projectId)
  apps := s.apps.filter fun a => decide (a.projectId = projectId)
  rooms := s.rooms.filter fun r => s.ownsApp projectId r.appId
  roomActorAccess := s.roomActorAccess.filter fun ra =>
    (ra.actorTokenId.any (s.ownsActor projectId)) || s.ownsRoom projectId ra.roomId
  lobbies := s.lobbies.filter fun l => s.ownsApp projectId l.appId
  lobbyRooms := s.lobbyRooms.filter fun lr =>
    s.ownsLobby projectId lr.lobbyId && s.ownsRoom projectId lr.roomId
  actorTokens := s.actorTokens.filter fun a => decide (a.projectId = projectId)
  actorTokenStates := s.actorTokenStates.filter fun st => s.ownsActor projectId st.actorTokenId
  actorAppAccess := s.actorAppAccess.filter fun g => s.ownsActor projectId g.actorTokenId
  signingKeys := s.signingKeys.filter fun k => decide (k.projectId = projectId)

theorem ownsApp_iff {s : Store} {projectId appId : Uuid} :
    s.ownsApp projectId appId = true ↔
      ∃ app ∈ s.apps, app.appId = appId ∧ app.projectId = projectId := by
  simp [ownsApp]

theorem ownsRoom_iff {s : Store} {projectId roomId : Uuid} :
    s.ownsRoom projectId roomId = true ↔
      ∃ room ∈ s.rooms, room.roomId = roomId ∧ s.ownsApp projectId room.appId = true := by
  simp [ownsRoom]

theorem ownsLobby_iff {s : Store} {projectId lobbyId : Uuid} :
    s.ownsLobby projectId lobbyId = true ↔
      ∃ lobby ∈ s.lobbies, lobby.lobbyId = lobbyId ∧ s.ownsApp projectId lobby.appId = true := by
  simp [ownsLobby]

theorem ownsActor_iff {s : Store} {projectId actorTokenId : Uuid} :
    s.ownsActor projectId actorTokenId = true ↔
      ∃ a ∈ s.actorTokens, a.actorTokenId = actorTokenId ∧ a.projectId = projectId := by
  simp [ownsActor]

end Store

namespace Authz

open AccessModel

/-! ## Lobbies, app by app -/

/-- The live lobby of an id. -/
def lobbyOf (s : Store) (lobbyId : Uuid) : Option Lobby :=
  findOne s.lobbies fun l => decide (l.lobbyId = lobbyId)

/-- The live memberships of a set of rooms. -/
def membershipsOf (s : Store) (roomIds : List Uuid) : List LobbyRoom :=
  findAll s.lobbyRooms fun lr => decide (lr.roomId ∈ roomIds)

/-- The lobbies of one app behind a list of memberships, each id once. -/
def lobbyIdsOf (s : Store) (appId : Uuid) (entries : List LobbyRoom) : List Uuid :=
  (entries.filterMap fun lr => (lobbyOf s lr.lobbyId).filter fun l => decide (l.appId = appId)).foldl
    (fun set l => addToSet set l.lobbyId) []

theorem mem_foldl_addToSet {α : Type} {f : α → Uuid} {l : List α} {id : Uuid} :
    ∀ {set : List Uuid}, id ∈ l.foldl (fun set x => addToSet set (f x)) set ↔
      id ∈ set ∨ ∃ x ∈ l, f x = id := by
  induction l with
  | nil => intro set; simp
  | cons x l ih =>
    intro set
    rw [List.foldl_cons, ih]
    unfold addToSet
    by_cases hx : f x ∈ set
    · rw [if_pos hx]
      constructor
      · rintro (h | ⟨y, hy, hid⟩)
        · exact .inl h
        · exact .inr ⟨y, List.mem_cons_of_mem _ hy, hid⟩
      · rintro (h | ⟨y, hy, hid⟩)
        · exact .inl h
        · rcases List.mem_cons.1 hy with rfl | hy
          · exact .inl (hid ▸ hx)
          · exact .inr ⟨y, hy, hid⟩
    · rw [if_neg hx]
      simp only [List.mem_append, List.mem_cons, List.not_mem_nil, or_false, or_assoc,
        exists_eq_or_imp, eq_comm (a := id)]

theorem nodup_map_findAll {α κ : Type} [SoftDelete α] {key : α → κ} {rows : List α}
    (h : UniqueOn key rows) (p : α → Bool) : ((findAll rows p).map key).Nodup :=
  h.filter _

/-- The ids a list of memberships names, each once. -/
def memberLobbyIds (entries : List LobbyRoom) : List Uuid :=
  entries.foldl (fun set lr => addToSet set lr.lobbyId) []

/-- `lobbyById`, for the lobbies of a list of memberships. -/
def lobbyByIdOf (s : Store) (entries : List LobbyRoom) : OrderedMap Uuid Lobby :=
  OrderedMap.ofList Lobby.lobbyId id
    (findAll s.lobbies fun l => decide (l.lobbyId ∈ memberLobbyIds entries))

theorem mem_memberLobbyIds {entries : List LobbyRoom} {lr : LobbyRoom} (h : lr ∈ entries) :
    lr.lobbyId ∈ memberLobbyIds entries :=
  mem_foldl_addToSet.2 (.inr ⟨lr, h, rfl⟩)

theorem get?_lobbyByIdOf {s : Store} (hpk : UniqueOn Lobby.lobbyId s.lobbies) {entries : List LobbyRoom}
    {lr : LobbyRoom} (h : lr ∈ entries) :
    (lobbyByIdOf s entries).get? lr.lobbyId = lobbyOf s lr.lobbyId := by
  unfold lobbyByIdOf
  rw [OrderedMap.get?_ofList_of_nodup id (nodup_map_findAll hpk _), Option.map_id]
  unfold findAll lobbyOf findOne
  rw [id, List.find?_filter]
  congr 1
  funext l
  by_cases hl : l.lobbyId = lr.lobbyId
  · simp [hl, mem_memberLobbyIds h]
  · simp [hl]

/-- A lobby surfaced for an app is a live lobby of that app with a membership in the list. -/
theorem of_mem_lobbyIdsOf {s : Store} {appId : Uuid} {entries : List LobbyRoom} {lobbyId : Uuid}
    (h : lobbyId ∈ lobbyIdsOf s appId entries) : ∃ lr ∈ entries, ∃ lobby,
      lr.lobbyId = lobbyId ∧ lobbyOf s lobbyId = some lobby ∧ lobby.appId = appId := by
  unfold lobbyIdsOf at h
  rcases mem_foldl_addToSet.1 h with h | ⟨lobby, hl, rfl⟩
  · cases h
  · obtain ⟨lr, hlr, hf⟩ := List.mem_filterMap.1 hl
    obtain ⟨hlobby, happ⟩ := Option.filter_eq_some_iff.1 hf
    have hid : lobby.lobbyId = lr.lobbyId := of_decide_eq_true (of_findOne hlobby).2.2
    exact ⟨lr, hlr, lobby, hid.symm, hid ▸ hlobby, of_decide_eq_true happ⟩

theorem mem_lobbyIdsOf {s : Store} {appId : Uuid} {entries : List LobbyRoom} {lr : LobbyRoom}
    (hlr : lr ∈ entries) {lobby : Lobby} (hl : lobbyOf s lr.lobbyId = some lobby)
    (happ : lobby.appId = appId) : lobby.lobbyId ∈ lobbyIdsOf s appId entries := by
  refine mem_foldl_addToSet.2 (.inr ⟨lobby, List.mem_filterMap.2 ⟨lr, hlr, ?_⟩, rfl⟩)
  exact Option.filter_eq_some_iff.2 ⟨hl, decide_eq_true happ⟩

/-- The lobbies shown name the ids they were looked up by. -/
theorem lobbyIds_of_shown (s : Store) (appId : Uuid) (entries : List LobbyRoom) :
    ((lobbyIdsOf s appId entries).filterMap fun lobbyId => (lobbyOf s lobbyId).map fun lobby =>
      ({ lobbyId := lobby.lobbyId, lobbySlug := lobby.slug } : AllowedLobby)).map (·.lobbyId) =
        lobbyIdsOf s appId entries := by
  rw [List.map_filterMap]
  refine (List.filterMap_congr fun lobbyId hid => ?_).trans List.filterMap_some
  obtain ⟨_, _, lobby, _, hl, _⟩ := of_mem_lobbyIdsOf hid
  have hsame : lobby.lobbyId = lobbyId := of_decide_eq_true (of_findOne hl).2.2
  rw [hl]
  exact congrArg some hsame

/-- The lobbies of one app among those a list of memberships names, as the two maps give them. -/
def surfaced (s : Store) (appId : Uuid) (entries : List LobbyRoom) : List AllowedLobby :=
  (((OrderedMap.loop Lobby.appId (fun lobby set => some (addToSet (set.getD []) lobby.lobbyId))
      OrderedMap.empty
      (entries.filterMap fun lr => (lobbyByIdOf s entries).get? lr.lobbyId)).get?
    appId).getD []).filterMap fun lobbyId => ((lobbyByIdOf s entries).get? lobbyId).map fun lobby =>
      { lobbyId := lobby.lobbyId, lobbySlug := lobby.slug }

theorem surfaced_eq {s : Store} (hpk : UniqueOn Lobby.lobbyId s.lobbies) (appId : Uuid) (entries : List LobbyRoom) :
    surfaced s appId entries = (lobbyIdsOf s appId entries).filterMap fun lobbyId =>
      (lobbyOf s lobbyId).map fun lobby =>
        { lobbyId := lobby.lobbyId, lobbySlug := lobby.slug } := by
  unfold surfaced
  rw [OrderedMap.get?_loop, OrderedMap.getD_foldl_some
    (fun set (l : Lobby) => addToSet set l.lobbyId) [], List.filter_filterMap]
  have hids : (entries.filterMap fun lr => ((lobbyByIdOf s entries).get? lr.lobbyId).filter
      fun l => decide (l.appId = appId)) = entries.filterMap fun lr =>
        (lobbyOf s lr.lobbyId).filter fun l => decide (l.appId = appId) :=
    List.filterMap_congr fun lr hlr => by rw [get?_lobbyByIdOf hpk hlr]
  rw [hids]
  refine List.filterMap_congr fun lobbyId hid => ?_
  obtain ⟨lr, hlr, _, rfl, _⟩ := of_mem_lobbyIdsOf hid
  rw [get?_lobbyByIdOf hpk hlr]

/-- The maps of `_attachLobbies` come to one lookup a membership. -/
theorem attachLobbies_eq {s : Store} (hpk : UniqueOn Lobby.lobbyId s.lobbies)
    (appsMap : OrderedMap Uuid AppBuild) (appId : Uuid) : attachLobbies s appsMap appId =
      (lobbyIdsOf s appId (membershipsOf s (appsMap.values.flatMap (·.accessibleRoomIds)))).filterMap
        fun lobbyId => (lobbyOf s lobbyId).map fun lobby =>
          { lobbyId := lobby.lobbyId, lobbySlug := lobby.slug } := by
  have hunfold : attachLobbies s appsMap appId =
      if (appsMap.values.flatMap (·.accessibleRoomIds)).isEmpty then []
      else if (membershipsOf s (appsMap.values.flatMap (·.accessibleRoomIds))).isEmpty then []
      else surfaced s appId (membershipsOf s (appsMap.values.flatMap (·.accessibleRoomIds))) := rfl
  rw [hunfold]
  generalize appsMap.values.flatMap (·.accessibleRoomIds) = roomIds
  by_cases hrooms : roomIds.isEmpty = true
  · have hnil : membershipsOf s roomIds = [] := by
      rw [List.isEmpty_iff.1 hrooms]
      simp [membershipsOf, findAll]
    rw [if_pos hrooms, hnil]
    rfl
  · rw [if_neg hrooms]
    by_cases hentries : (membershipsOf s roomIds).isEmpty = true
    · rw [if_pos hentries, List.isEmpty_iff.1 hentries]
      rfl
    · rw [if_neg hentries, surfaced_eq hpk]

/-! ## Reading the rows of the project alone -/

/-- No grant of the actor is in force on an active app outside the project. -/
def GrantsStayHome (s : Store) (now : Int) (projectId actorTokenId : Uuid) : Prop :=
  ∀ g app, AppGrant s now actorTokenId app g → app ∈ s.apps → live app = true →
    app.status = .active → app.projectId = projectId

section Restrict

variable {s : Store} (hv : s.SchemaValid) {now : Int} {projectId : Uuid} {actorToken : ActorToken}
  (home : actorToken.projectId = projectId)

theorem ownsApp_of_mem {app : PlatformApp} (h : app ∈ s.apps) (hp : app.projectId = projectId) :
    s.ownsApp projectId app.appId = true :=
  Store.ownsApp_iff.2 ⟨app, h, rfl, hp⟩

theorem ownsRoom_of_mem {room : Room} (h : room ∈ s.rooms)
    (hp : s.ownsApp projectId room.appId = true) : s.ownsRoom projectId room.roomId = true :=
  Store.ownsRoom_iff.2 ⟨room, h, rfl, hp⟩

theorem activeRooms_ofProject {appId : Uuid} (h : s.ownsApp projectId appId = true) :
    activeRooms (s.ofProject projectId) appId = activeRooms s appId := by
  refine findAll_filter fun r _ _ hp => ?_
  simp only [Bool.and_eq_true, decide_eq_true_eq] at hp
  rw [hp.1]
  exact h

theorem grantsOn_ofProject {room : Room} (h : s.ownsRoom projectId room.roomId = true) :
    grantsOn (s.ofProject projectId) room = grantsOn s room := by
  refine findAll_filter fun ra _ _ hp => ?_
  rw [of_decide_eq_true hp, h, Bool.or_true]

theorem batchedRoomGrants_ofProject {room : Room} (h : s.ownsRoom projectId room.roomId = true) :
    batchedRoomGrants (s.ofProject projectId) actorToken room =
      batchedRoomGrants s actorToken room := by
  unfold batchedRoomGrants
  rw [grantsOn_ofProject h]

theorem liveRoomGrants_ofProject (text : String) {room : Room}
    (h : s.ownsRoom projectId room.roomId = true) :
    liveRoomGrants (s.ofProject projectId) text actorToken room =
      liveRoomGrants s text actorToken room := by
  have hunfold : ∀ s' : Store, liveRoomGrants s' text actorToken room =
      { entries := grantsOn s' room
        effective := ((grantsOn s' room).find? (namesActor text)).or
          ((grantsOn s' room).find? (namesType actorToken)) } := fun _ => rfl
  rw [hunfold, hunfold, grantsOn_ofProject h]

theorem membershipsOf_ofProject {roomIds : List Uuid}
    (hrooms : ∀ roomId ∈ roomIds, s.ownsRoom projectId roomId = true) :
    membershipsOf (s.ofProject projectId) roomIds =
      (membershipsOf s roomIds).filter fun lr => s.ownsLobby projectId lr.lobbyId := by
  unfold membershipsOf findAll Store.ofProject
  dsimp only
  rw [List.filter_filter, List.filter_filter]
  refine List.filter_congr fun lr _ => ?_
  by_cases hm : lr.roomId ∈ roomIds
  · simp [hrooms lr.roomId hm, Bool.and_comm]
  · simp [hm]

theorem buildOf_ofProject {scope : ResolvedScope} {access : Access} (h : access.app ∈ s.apps)
    (hp : access.app.projectId = projectId) :
    buildOf (s.ofProject projectId) now actorToken scope access =
      buildOf s now actorToken scope access := by
  have happ := ownsApp_of_mem h hp
  unfold buildOf
  rw [activeRooms_ofProject happ]
  refine buildApp_congr fun room hroom => batchedRoomGrants_ofProject ?_
  obtain ⟨h1, _, h3, _⟩ := mem_activeRooms.1 hroom
  exact ownsRoom_of_mem h1 (h3 ▸ happ)

include hv

theorem keepAccess_ofProject {g : ActorAppAccess}
    (hstay : ∀ app, s.appOf g = some app → app.status = .active →
      expired g.expiresAt now = false → app.projectId = projectId) :
    keepAccess (s.ofProject projectId) now g = keepAccess s now g := by
  have hback : ∀ app, (s.ofProject projectId).appOf g = some app → s.appOf g = some app := by
    intro app happ
    obtain ⟨hrow, hl, hid⟩ := appOf_spec happ
    exact appOf_of_mem hv (List.mem_filter.1 hrow).1 hl hid
  cases happ : s.appOf g with
  | none =>
    have hnone : (s.ofProject projectId).appOf g = none := by
      cases h : (s.ofProject projectId).appOf g with
      | none => rfl
      | some app => exact absurd (hback app h) (by simp [happ])
    unfold keepAccess
    rw [happ, hnone]
  | some app =>
    obtain ⟨hrow, hl, hid⟩ := appOf_spec happ
    by_cases hp : app.projectId = projectId
    · have hsome : (s.ofProject projectId).appOf g = some app := by
        have hmem : app ∈ (s.ofProject projectId).apps := List.mem_filter.2 ⟨hrow, by simpa using hp⟩
        refine findOne_of_unique hmem hl (by simpa using hid.symm) fun app' h' _ hp' => ?_
        exact app_eq_of_id hv (List.mem_filter.1 h').1 hrow ((of_decide_eq_true hp').trans hid)
      unfold keepAccess
      rw [happ, hsome]
    · have hnone : (s.ofProject projectId).appOf g = none := by
        cases h : (s.ofProject projectId).appOf g with
        | none => rfl
        | some app' =>
          cases happ.symm.trans (hback app' h)
          exact absurd (of_decide_eq_true (List.mem_filter.1 (appOf_spec h).1).2) hp
      unfold keepAccess
      rw [happ, hnone]
      dsimp only
      split
      · rename_i hst
        split
        · rfl
        · rename_i hx
          exact absurd (hstay app happ hst (by simpa using hx)) hp
      · rfl

/-- A live lobby of one of the project's apps is found in both stores. -/
theorem lobbyOf_ofProject {lobbyId appId : Uuid} {lobby : Lobby}
    (happ : s.ownsApp projectId appId = true) (hl : lobbyOf s lobbyId = some lobby)
    (ha : lobby.appId = appId) : lobbyOf (s.ofProject projectId) lobbyId = some lobby ∧
      s.ownsLobby projectId lobbyId = true := by
  have hpk' : UniqueOn Lobby.lobbyId (s.ofProject projectId).lobbies := hv.pkLobby.filter _
  obtain ⟨hrow, hlive, hid⟩ := of_findOne hl
  have hid := of_decide_eq_true hid
  have howned : s.ownsApp projectId lobby.appId = true := ha ▸ happ
  have hmem : lobby ∈ (s.ofProject projectId).lobbies := List.mem_filter.2 ⟨hrow, howned⟩
  refine ⟨findOne_of_unique hmem hlive (by simpa using hid) fun l' h' _ hp' => ?_,
    Store.ownsLobby_iff.2 ⟨lobby, hrow, hid, howned⟩⟩
  exact hpk'.eq_of_key h' hmem ((of_decide_eq_true hp').trans hid.symm)

theorem lobbyOf_of_ofProject {lobbyId : Uuid} {lobby : Lobby}
    (hl : lobbyOf (s.ofProject projectId) lobbyId = some lobby) :
    lobbyOf s lobbyId = some lobby := by
  obtain ⟨hrow, hlive, hid⟩ := of_findOne hl
  have hrow := (List.mem_filter.1 hrow).1
  refine findOne_of_unique hrow hlive hid fun l' h' _ hp' => ?_
  exact hv.pkLobby.eq_of_key h' hrow
    ((of_decide_eq_true hp').trans (of_decide_eq_true hid).symm)

theorem lobbyIdsOf_ofProject {appId : Uuid} {roomIds : List Uuid}
    (happ : s.ownsApp projectId appId = true)
    (hrooms : ∀ roomId ∈ roomIds, s.ownsRoom projectId roomId = true) :
    lobbyIdsOf (s.ofProject projectId) appId (membershipsOf (s.ofProject projectId) roomIds) =
      lobbyIdsOf s appId (membershipsOf s roomIds) := by
  unfold lobbyIdsOf
  rw [membershipsOf_ofProject hrooms, List.filterMap_filter]
  congr 1
  refine List.filterMap_congr fun lr _ => ?_
  cases hl : lobbyOf s lr.lobbyId with
  | none =>
    cases hl' : lobbyOf (s.ofProject projectId) lr.lobbyId with
    | none => split <;> rfl
    | some lobby => exact absurd (lobbyOf_of_ofProject hv hl') (by simp [hl])
  | some lobby =>
    by_cases ha : lobby.appId = appId
    · obtain ⟨hl', hown⟩ := lobbyOf_ofProject hv happ hl ha
      rw [if_pos hown, hl']
    · have hdrop : (some lobby).filter (fun l => decide (l.appId = appId)) = none := by
        simp [ha]
      rw [hdrop]
      cases hl' : lobbyOf (s.ofProject projectId) lr.lobbyId with
      | none => split <;> rfl
      | some lobby' =>
        cases hl.symm.trans (lobbyOf_of_ofProject hv hl')
        rw [hdrop]
        split <;> rfl

/-- For an app of the project only its own lobbies count, whatever the memberships name. -/
theorem attachLobbies_ofProject {appsMap : OrderedMap Uuid AppBuild} {appId : Uuid}
    (happ : s.ownsApp projectId appId = true)
    (hrooms : ∀ roomId ∈ appsMap.values.flatMap (·.accessibleRoomIds),
      s.ownsRoom projectId roomId = true) :
    attachLobbies (s.ofProject projectId) appsMap appId = attachLobbies s appsMap appId := by
  have hpk' : UniqueOn Lobby.lobbyId (s.ofProject projectId).lobbies := hv.pkLobby.filter _
  rw [attachLobbies_eq hv.pkLobby, attachLobbies_eq hpk', lobbyIdsOf_ofProject hv happ hrooms]
  refine List.filterMap_congr fun lobbyId hid => ?_
  obtain ⟨_, _, lobby, _, hl, ha⟩ := of_mem_lobbyIdsOf hid
  rw [hl, (lobbyOf_ofProject hv happ hl ha).1]

include home

theorem validAppAccess_home (hstay : GrantsStayHome s now projectId actorToken.actorTokenId)
    {access : Access} (h : access ∈ validAppAccess s now actorToken) :
    access.app ∈ s.apps ∧ access.app.projectId = projectId := by
  obtain ⟨hrow, hl, hst, ht⟩ := (mem_validAppAccess hv).1 h
  obtain ⟨app, p, ts⟩ := access
  refine ⟨hrow, ?_⟩
  cases ht with
  | held hg => exact hstay _ _ hg hrow hl hst
  | opened hhome _ _ => exact hhome.trans home

/-- Every room the session may reach is a room of the project. -/
theorem accessibleRooms_home (hstay : GrantsStayHome s now projectId actorToken.actorTokenId)
    {scope : ResolvedScope} {roomId : Uuid}
    (h : roomId ∈ (buildAppsMap s now actorToken scope).values.flatMap (·.accessibleRoomIds)) :
    s.ownsRoom projectId roomId = true := by
  obtain ⟨build, hb, hroom⟩ := List.mem_flatMap.1 h
  obtain ⟨⟨appId, build'⟩, hm, rfl⟩ := List.mem_map.1 hb
  rw [buildAppsMap_eq] at hm
  obtain ⟨access, ha, _, rfl⟩ := OrderedMap.of_mem_ofList hm
  obtain ⟨hrow, hp⟩ := validAppAccess_home hv home hstay ha
  obtain ⟨room, hr, hid⟩ := List.mem_filterMap.1 hroom
  obtain ⟨_, _, rfl⟩ := Option.map_eq_some_iff.1 hid
  obtain ⟨h1, _, h3, _⟩ := mem_activeRooms.1 hr
  exact ownsRoom_of_mem h1 (h3 ▸ ownsApp_of_mem hrow hp)

variable (howns : s.ownsActor projectId actorToken.actorTokenId = true)
include howns

theorem validAppAccess_ofProject
    (hstay : GrantsStayHome s now projectId actorToken.actorTokenId) :
    validAppAccess (s.ofProject projectId) now actorToken = validAppAccess s now actorToken := by
  have hgrants : actorAppAccess (s.ofProject projectId) actorToken =
      actorAppAccess s actorToken := by
    refine findAll_filter fun g _ _ hp => ?_
    simp only [Bool.and_eq_true, decide_eq_true_eq] at hp
    rw [hp.1]
    exact howns
  have hopen : openApps (s.ofProject projectId) actorToken = openApps s actorToken := by
    refine findAll_filter fun a _ _ hp => ?_
    simp only [Bool.and_eq_true, decide_eq_true_eq] at hp
    exact decide_eq_true (hp.1.1.trans home)
  have hexplicit : explicitAppAccess (s.ofProject projectId) now actorToken =
      explicitAppAccess s now actorToken := by
    unfold explicitAppAccess
    rw [hgrants]
    refine List.filterMap_congr fun g hg => keepAccess_ofProject hv fun app happ hst hx => ?_
    simp only [actorAppAccess, mem_findAll, Bool.and_eq_true, decide_eq_true_eq] at hg
    obtain ⟨hrow, hl, hid⟩ := appOf_spec happ
    exact hstay g app ⟨hg.1, hg.2.1, hg.2.2.1, hid, hg.2.2.2, hx⟩ hrow hl hst
  unfold validAppAccess
  rw [hexplicit, hopen]

theorem buildAppsMap_ofProject (hstay : GrantsStayHome s now projectId actorToken.actorTokenId)
    (scope : ResolvedScope) :
    buildAppsMap (s.ofProject projectId) now actorToken scope =
      buildAppsMap s now actorToken scope := by
  rw [buildAppsMap_eq, buildAppsMap_eq, validAppAccess_ofProject hv home howns hstay]
  refine ofList_congr fun access ha => ?_
  obtain ⟨hrow, hp⟩ := validAppAccess_home hv home hstay ha
  exact buildOf_ofProject hrow hp

theorem buildAppAccess_ofProject (hstay : GrantsStayHome s now projectId actorToken.actorTokenId)
    (scope : ResolvedScope) :
    buildAppAccess (s.ofProject projectId) now actorToken scope =
      buildAppAccess s now actorToken scope := by
  have hstate : recordedSubscriptions (s.ofProject projectId) actorToken.actorTokenId =
      recordedSubscriptions s actorToken.actorTokenId := by
    unfold recordedSubscriptions
    have hf : findOne (s.ofProject projectId).actorTokenStates
        (fun st => decide (st.actorTokenId = actorToken.actorTokenId)) =
          findOne s.actorTokenStates fun st => decide (st.actorTokenId = actorToken.actorTokenId) :=
      findOne_filter fun st _ _ hp => by
        rw [of_decide_eq_true hp]
        exact howns
    rw [← hf]
  unfold buildAppAccess
  rw [validAppAccess_ofProject hv home howns hstay, buildAppsMap_ofProject hv home howns hstay]
  unfold activeSubscriptionsByApp
  rw [hstate]
  split
  · rfl
  · refine List.map_congr_left fun entry hm => ?_
    obtain ⟨appId, build⟩ := entry
    have happ : s.ownsApp projectId appId = true := by
      rw [buildAppsMap_eq] at hm
      obtain ⟨access, ha, rfl, _⟩ := OrderedMap.of_mem_ofList hm
      obtain ⟨hrow, hp⟩ := validAppAccess_home hv home hstay ha
      exact ownsApp_of_mem hrow hp
    dsimp only
    rw [attachLobbies_ofProject hv happ fun roomId hr => accessibleRooms_home hv home hstay hr]

end Restrict

section Answers

variable {s : Store} (hv : s.SchemaValid) {now : Int} {projectId actorTokenId : Uuid}

theorem resolveScope_ofProject {actorToken : ActorToken} (home : actorToken.projectId = projectId) :
    resolveScope (s.ofProject projectId) actorToken = resolveScope s actorToken := by
  unfold resolveScope
  cases actorToken.accessScopeId with
  | none => rfl
  | some accessScopeId =>
    have hf : findOne (s.ofProject projectId).accessScopes
        (fun r => decide (r.accessScopeId = accessScopeId) &&
          decide (r.projectId = actorToken.projectId)) =
        findOne s.accessScopes fun r => decide (r.accessScopeId = accessScopeId) &&
          decide (r.projectId = actorToken.projectId) :=
      findOne_filter fun r _ _ hp => by
        simp only [Bool.and_eq_true, decide_eq_true_eq] at hp
        exact decide_eq_true (hp.2.trans home)
    dsimp only
    rw [← hf]

theorem findProject_ofProject {actorToken : ActorToken} (home : actorToken.projectId = projectId) :
    findOne (s.ofProject projectId).projects (fun p => decide (p.projectId = actorToken.projectId)) =
      findOne s.projects fun p => decide (p.projectId = actorToken.projectId) :=
  findOne_filter fun _ _ _ hp => decide_eq_true ((of_decide_eq_true hp).trans home)

theorem appBySlug_ofProject {actorToken : ActorToken} (home : actorToken.projectId = projectId)
    (appSlug : String) :
    appBySlug (s.ofProject projectId) actorToken appSlug = appBySlug s actorToken appSlug := by
  refine findOne_filter fun a _ _ hp => ?_
  simp only [Bool.and_eq_true, decide_eq_true_eq] at hp
  exact decide_eq_true (hp.1.2.trans home)

theorem roomBySlug_ofProject {app : PlatformApp} (happ : s.ownsApp projectId app.appId = true)
    (roomSlug : String) :
    roomBySlug (s.ofProject projectId) app roomSlug = roomBySlug s app roomSlug := by
  refine findOne_filter fun r _ _ hp => ?_
  simp only [Bool.and_eq_true, decide_eq_true_eq] at hp
  rw [hp.1.2]
  exact happ

theorem liveAppAccess_ofProject (howns : s.ownsActor projectId actorTokenId = true)
    (app : PlatformApp) : liveAppAccess (s.ofProject projectId) now actorTokenId app =
      liveAppAccess s now actorTokenId app := by
  have hf : findOne (s.ofProject projectId).actorAppAccess
      (fun g => decide (g.actorTokenId = actorTokenId) && decide (g.appId = app.appId) &&
        g.isActive) =
      findOne s.actorAppAccess fun g => decide (g.actorTokenId = actorTokenId) &&
        decide (g.appId = app.appId) && g.isActive :=
    findOne_filter fun g _ _ hp => by
      simp only [Bool.and_eq_true, decide_eq_true_eq] at hp
      rw [hp.1.1]
      exact howns
  unfold liveAppAccess
  rw [← hf]

theorem checkRoom_ofProject {actorToken : ActorToken} (home : actorToken.projectId = projectId)
    (howns : s.ownsActor projectId actorToken.actorTokenId = true) (text : String)
    (scope : ResolvedScope) (appSlug roomSlug : String) :
    checkRoom (s.ofProject projectId) now text actorToken scope appSlug roomSlug =
      checkRoom s now text actorToken scope appSlug roomSlug := by
  rw [checkRoom_eq, checkRoom_eq, appBySlug_ofProject home]
  cases happ : appBySlug s actorToken appSlug with
  | none => rfl
  | some app =>
    obtain ⟨hrow, _, _, hproj, _⟩ := of_appBySlug happ
    have hown := ownsApp_of_mem hrow (hproj.trans home)
    dsimp only
    rw [liveAppAccess_ofProject howns, roomBySlug_ofProject hown]
    cases liveAppAccess s now actorToken.actorTokenId app with
    | none => rfl
    | some access =>
      cases hroom : roomBySlug s app roomSlug with
      | none => rfl
      | some room =>
        obtain ⟨hr, _, _, happId, _⟩ := of_roomBySlug hroom
        dsimp only
        rw [liveRoomGrants_ofProject text (ownsRoom_of_mem hr (happId ▸ hown))]

include hv

theorem findActor_ofProject (howns : s.ownsActor projectId actorTokenId = true) :
    findActor (s.ofProject projectId) actorTokenId = findActor s actorTokenId := by
  obtain ⟨a, ha, hid, hp⟩ := Store.ownsActor_iff.1 howns
  refine findOne_filter fun a' ha' _ hk => ?_
  rw [hv.pkActor.eq_of_key ha' ha ((of_decide_eq_true hk).trans hid.symm)]
  exact decide_eq_true hp

theorem actor_home (howns : s.ownsActor projectId actorTokenId = true) {actorToken : ActorToken}
    (h : findActor s actorTokenId = some actorToken) : actorToken.projectId = projectId := by
  obtain ⟨a, ha, hid, hp⟩ := Store.ownsActor_iff.1 howns
  obtain ⟨hrow, _, hid'⟩ := of_findActor h
  rw [hv.pkActor.eq_of_key hrow ha (hid'.trans hid.symm)]
  exact hp

/-- The live check never reads beyond the project. -/
theorem checkRoomAccess_ofProject {id : IdText} (howns : s.ownsActor projectId id.uuid = true)
    (pattern : String) : checkRoomAccess (s.ofProject projectId) now id pattern =
      checkRoomAccess s now id pattern := by
  unfold checkRoomAccess
  rw [findActor_ofProject hv howns]
  cases hactor : findActor s id.uuid with
  | none => rfl
  | some actorToken =>
    have home := actor_home hv howns hactor
    have howns' : s.ownsActor projectId actorToken.actorTokenId = true := by
      rw [(of_findActor hactor).2.2]
      exact howns
    dsimp only
    rw [resolveScope_ofProject home]
    simp only [checkRoom_ofProject home howns']

/-- Where the grants stay home, neither does the session. -/
theorem revalidateActor_ofProject {config : CoreConfig}
    (howns : s.ownsActor projectId actorTokenId = true)
    (hstay : ∀ actorToken, actorToken.actorTokenId = actorTokenId → SessionOpen s now actorToken →
      GrantsStayHome s now projectId actorTokenId) :
    revalidateActor config (s.ofProject projectId) now actorTokenId =
      revalidateActor config s now actorTokenId := by
  unfold revalidateActor
  rw [findActor_ofProject hv howns]
  cases hactor : findActor s actorTokenId with
  | none => rfl
  | some actorToken =>
    have home := actor_home hv howns hactor
    obtain ⟨hrow, hl, hid⟩ := of_findActor hactor
    dsimp only
    split
    · rfl
    · rename_i hst
      split
      · rfl
      · rename_i hx
        have hbuild : buildSessionPayload config (s.ofProject projectId) now actorToken =
            buildSessionPayload config s now actorToken := by
          unfold buildSessionPayload
          rw [findProject_ofProject home, resolveScope_ofProject home]
          cases hproject : findOne s.projects
              (fun p => decide (p.projectId = actorToken.projectId)) with
          | none => rfl
          | some project =>
            cases hscope : resolveScope s actorToken with
            | none => rfl
            | some scope =>
              obtain ⟨hp1, hp2, hp3⟩ := of_findOne hproject
              have hopen : SessionOpen s now actorToken :=
                ⟨hrow, hl, not_not.1 hst, by simpa using hx,
                  ⟨project, hp1, hp2, of_decide_eq_true hp3⟩,
                  (resolveScope_isSome hv.pkScope).1 ⟨scope, hscope⟩⟩
              have hstay' := hstay actorToken hid hopen
              dsimp only
              rw [buildAppAccess_ofProject hv home (hid ▸ howns) (hid ▸ hstay')]
        rw [hbuild]

end Answers

/-! ## What belongs to a project -/

/-- The topic is listed by the app, by a grant of one of the project's actors on the app, or by a
grant on the room. -/
inductive TopicIn (s : Store) (projectId : Uuid) (app : PlatformApp) (room : Room)
    (topicName : String) : Prop
  | ofApp (h : topicName ∈ app.topics.getD [])
  | ofAppGrant (g : ActorAppAccess) (row : g ∈ s.actorAppAccess) (onApp : g.appId = app.appId)
      (holder : s.ownsActor projectId g.actorTokenId = true) (h : topicName ∈ g.topics.getD [])
  | ofRoomGrant (ra : RoomActorAccess) (row : ra ∈ s.roomActorAccess)
      (onRoom : ra.roomId = room.roomId) (h : topicName ∈ ra.topics.getD [])

/-- An entry addresses a topic of a room of an app of the project. -/
def EntryIn (s : Store) (projectId appId : Uuid) (e : AllowedTopic) : Prop :=
  ∃ app ∈ s.apps, app.appId = appId ∧ app.projectId = projectId ∧
    ∃ room ∈ s.rooms, room.roomId = e.roomId ∧ room.appId = app.appId ∧
    ∃ topicName scope, e = buildAllowedTopic app.slug room topicName e.permission scope ∧
      TopicIn s projectId app room topicName

/-- Every app, room, topic and lobby of a session belongs to the project. -/
def SessionIn (s : Store) (projectId : Uuid) : RevalidateActorResponse → Prop
  | .valid payload => payload.projectId = projectId ∧ ∀ appAccess ∈ payload.apps,
      s.ownsApp projectId appAccess.appId = true ∧
      (∀ e ∈ appAccess.allowedTopics, EntryIn s projectId appAccess.appId e) ∧
      ∀ lobby ∈ appAccess.allowedLobbies, s.ownsLobby projectId lobby.lobbyId = true
  | .invalid _ _ => True

def CheckIn (s : Store) (projectId : Uuid) (r : CheckRoomAccessResult) : Prop :=
  ∀ e ∈ r.allowedTopics, ∃ appId, r.appId = some appId ∧ EntryIn s projectId appId e

theorem mem_topicsOf {own : Option (List String)} {app : PlatformApp} {topicName : String}
    (h : topicName ∈ topicsOf own app) :
    topicName ∈ own.getD [] ∨ topicName ∈ app.topics.getD [] := by
  unfold topicsOf at h
  cases own with
  | none => exact .inr h
  | some l => exact .inl h

section Belongs

variable {s : Store} (hv : s.SchemaValid) {now : Int} {projectId actorTokenId : Uuid}
include hv

theorem entryIn_of_justified {id : IdText} {actorType : EActorType} {appId : Uuid}
    {e : AllowedTopic} (howns : s.ownsActor projectId id.uuid = true)
    (happ : s.ownsApp projectId appId = true) (h : EntryJustified s now id actorType appId e) :
    EntryIn s projectId appId e := by
  obtain ⟨app, room, topicName, scope, he, hid, heq⟩ := h
  obtain ⟨app', hrow', hid', hp'⟩ := Store.ownsApp_iff.1 happ
  have hsame := app_eq_of_id hv he.appRow hrow' (hid.trans hid'.symm)
  subst hsame
  have hroom : room.roomId = e.roomId := by rw [heq]; rfl
  refine ⟨app, he.appRow, hid, hp', room, he.roomRow, hroom, he.roomApp, topicName, scope, heq, ?_⟩
  obtain ⟨p, ts, hterms, hy⟩ := he.yields
  generalize e.permission = permission at hy
  cases hy with
  | isPublic _ hmem =>
    rcases mem_topicsOf hmem with h | h
    · cases hterms with
      | held hg => exact .ofAppGrant _ hg.row hg.onApp (hg.actor ▸ howns) h
      | opened _ => cases h
    · exact .ofApp h
  | isPrivate hd _ hmem =>
    rcases mem_topicsOf hmem with h | h
    · exact .ofRoomGrant _ hd.on.row hd.on.onRoom h
    · exact .ofApp h

theorem lobbies_home {actorToken : ActorToken} {scope : ResolvedScope} {appAccess : AppAccess}
    (hm : appAccess ∈ buildAppAccess s now actorToken scope)
    (happ : s.ownsApp projectId appAccess.appId = true) {lobby : AllowedLobby}
    (hl : lobby ∈ appAccess.allowedLobbies) : s.ownsLobby projectId lobby.lobbyId = true := by
  unfold buildAppAccess at hm
  split at hm
  · cases hm
  · obtain ⟨⟨appId, build⟩, hb, rfl⟩ := List.mem_map.1 hm
    have hid : build.appId = appId := by
      rw [buildAppsMap_eq] at hb
      obtain ⟨access, _, rfl, rfl⟩ := OrderedMap.of_mem_ofList hb
      rfl
    dsimp only at hl happ
    rw [attachLobbies_eq hv.pkLobby] at hl
    obtain ⟨lobbyId, hmem, hdto⟩ := List.mem_filterMap.1 hl
    obtain ⟨_, _, row, _, hrow, hown⟩ := of_mem_lobbyIdsOf hmem
    rw [hrow] at hdto
    cases hdto
    refine Store.ownsLobby_iff.2 ⟨row, (of_findOne hrow).1, rfl, ?_⟩
    rw [hown, ← hid]
    exact happ

theorem sessionIn_of_stayHome {config : CoreConfig}
    (howns : s.ownsActor projectId actorTokenId = true)
    (hstay : ∀ actorToken, actorToken.actorTokenId = actorTokenId → SessionOpen s now actorToken →
      GrantsStayHome s now projectId actorTokenId) :
    SessionIn s projectId (revalidateActor config s now actorTokenId) := by
  cases hr : revalidateActor config s now actorTokenId with
  | invalid _ _ => trivial
  | valid payload =>
    obtain ⟨actorToken', hid', hopen⟩ := (revalidateActor_valid_iff config hv).1 ⟨payload, hr⟩
    have hstay' := hstay actorToken' hid' hopen
    obtain ⟨actorToken, hactor, _, _, hp⟩ := revalidateActor_eq_valid.1 hr
    have home := actor_home hv howns hactor
    have hid := (of_findActor hactor).2.2
    obtain ⟨_, scope, _, _, hpid, htype, happs⟩ := of_buildSessionPayload hp
    have hproj : payload.projectId = actorToken.projectId := projectId_of_payload hp
    refine ⟨hproj.trans home, fun appAccess hm => ?_⟩
    rw [happs] at hm
    obtain ⟨access, ha, happId, _, _⟩ := of_mem_buildAppAccess hm
    obtain ⟨hrow, hhome⟩ := validAppAccess_home hv home (hid ▸ hstay') ha
    have happ : s.ownsApp projectId appAccess.appId = true :=
      happId ▸ ownsApp_of_mem hrow hhome
    refine ⟨happ, fun e he => ?_, fun lobby hl => lobbies_home hv hm happ hl⟩
    have howns' : s.ownsActor projectId actorToken.actorTokenId.asStored.uuid = true := hid ▸ howns
    exact entryIn_of_justified hv howns' happ ((apps_justified s now actorToken _ hm).2 e he)

theorem appId_of_check {id : IdText} (howns : s.ownsActor projectId id.uuid = true)
    {pattern : String} {appId : Uuid} (h : (checkRoomAccess s now id pattern).appId = some appId) :
    s.ownsApp projectId appId = true := by
  rcases checkRoomAccess_cases s now id pattern with
    ⟨actorToken, scope, appSlug, roomSlug, hactor, _, _, _, _, heq⟩ | heq
  · rw [heq] at h
    rcases checkRoom_cases s now id.text actorToken scope appSlug roomSlug with
      ⟨app, _, _, _, _, hs, _, hck⟩ | ⟨hck, _⟩
    · rw [hck] at h
      cases h
      obtain ⟨hrow, _, _, hproj, _⟩ := of_appBySlug hs.byApp
      exact ownsApp_of_mem hrow (hproj.trans (actor_home hv howns hactor))
    · rw [hck] at h
      cases h
  · rw [heq] at h
    cases h

theorem checkIn_check {id : IdText} (howns : s.ownsActor projectId id.uuid = true)
    (pattern : String) : CheckIn s projectId (checkRoomAccess s now id pattern) := by
  intro e he
  obtain ⟨_, appId, _, hid, hj⟩ := checkRoomAccess_justified s now id pattern e he
  exact ⟨appId, hid, entryIn_of_justified hv howns (appId_of_check hv howns hid) hj⟩

end Belongs

/-! ## Isolation -/

/-- The two states answer alike for the actor, and every answer stays in the project. -/
structure Isolated (config : CoreConfig) (s₁ s₂ : Store) (now : Int)
    (projectId actorTokenId : Uuid) : Prop where
  revalidate :
    revalidateActor config s₁ now actorTokenId = revalidateActor config s₂ now actorTokenId
  check : ∀ id : IdText, id.uuid = actorTokenId → ∀ pattern,
    checkRoomAccess s₁ now id pattern = checkRoomAccess s₂ now id pattern
  sessionIn : SessionIn s₁ projectId (revalidateActor config s₁ now actorTokenId) ∧
    SessionIn s₂ projectId (revalidateActor config s₂ now actorTokenId)
  checkIn : ∀ id : IdText, id.uuid = actorTokenId → ∀ pattern,
    CheckIn s₁ projectId (checkRoomAccess s₁ now id pattern) ∧
    CheckIn s₂ projectId (checkRoomAccess s₂ now id pattern)

/-- Where the actor may hold a session, its grants stay home. -/
def SessionGrantsStayHome (s : Store) (now : Int) (projectId actorTokenId : Uuid) : Prop :=
  ∀ actorToken, actorToken.actorTokenId = actorTokenId → SessionOpen s now actorToken →
    GrantsStayHome s now projectId actorTokenId

/-- An app of a session belongs to the project only if no grant leads elsewhere. -/
theorem stayHome_of_sessionIn {config : CoreConfig} {s : Store} (hv : s.SchemaValid) {now : Int}
    {projectId actorTokenId : Uuid}
    (h : SessionIn s projectId (revalidateActor config s now actorTokenId)) :
    SessionGrantsStayHome s now projectId actorTokenId := by
  intro actorToken' hid' hopen g app hg hrow hl hst
  obtain ⟨payload, hr⟩ := (revalidateActor_valid_iff config hv).2 ⟨actorToken', hid', hopen⟩
  rw [hr] at h
  obtain ⟨actorToken, hactor, _, _, hp⟩ := revalidateActor_eq_valid.1 hr
  obtain ⟨_, scope, _, _, _, _, happs⟩ := of_buildSessionPayload hp
  have hg' : AppGrant s now actorToken.actorTokenId app g := (of_findActor hactor).2.2.symm ▸ hg
  have ha : (⟨app, g.permission, g.topics⟩ : Access) ∈ validAppAccess s now actorToken :=
    (mem_validAppAccess hv).2 ⟨hrow, hl, hst, .held hg'⟩
  obtain ⟨appAccess, hm, happId, _, _⟩ := mem_buildAppAccess hv
    { scopeId := scope.scopeId, scopeSlug := scope.scopeSlug } ha
  obtain ⟨app', hrow', hid'', hp'⟩ := Store.ownsApp_iff.1 (h.2 appAccess (happs ▸ hm)).1
  rw [app_eq_of_id hv hrow hrow' (happId.symm.trans hid''.symm)]
  exact hp'

/-- Two states that agree on a project answer alike for its actors, within the project, exactly
when no session of the actor is granted on an app of another one. -/
theorem isolated_iff (config : CoreConfig) (db₁ db₂ : Database) (now : Int)
    (projectId actorTokenId : Uuid)
    (hagree : db₁.store.ofProject projectId = db₂.store.ofProject projectId)
    (howns : db₁.store.ownsActor projectId actorTokenId = true) :
    Isolated config db₁.store db₂.store now projectId actorTokenId ↔
      SessionGrantsStayHome db₁.store now projectId actorTokenId ∧
      SessionGrantsStayHome db₂.store now projectId actorTokenId := by
  have howns₂ : db₂.store.ownsActor projectId actorTokenId = true := by
    obtain ⟨a, ha, hid, hp⟩ := Store.ownsActor_iff.1 howns
    have hm : a ∈ (db₁.store.ofProject projectId).actorTokens :=
      List.mem_filter.2 ⟨ha, by simpa using hp⟩
    rw [hagree] at hm
    exact Store.ownsActor_iff.2 ⟨a, (List.mem_filter.1 hm).1, hid, hp⟩
  constructor
  · intro h
    exact ⟨stayHome_of_sessionIn db₁.valid h.sessionIn.1,
      stayHome_of_sessionIn db₂.valid h.sessionIn.2⟩
  · rintro ⟨h₁, h₂⟩
    refine ⟨?_, ?_, ⟨sessionIn_of_stayHome db₁.valid howns h₁,
      sessionIn_of_stayHome db₂.valid howns₂ h₂⟩, ?_⟩
    · rw [← revalidateActor_ofProject db₁.valid howns h₁, hagree,
        revalidateActor_ofProject db₂.valid howns₂ h₂]
    · rintro id rfl pattern
      rw [← checkRoomAccess_ofProject db₁.valid howns pattern, hagree,
        checkRoomAccess_ofProject db₂.valid howns₂ pattern]
    · rintro id rfl pattern
      exact ⟨checkIn_check db₁.valid howns pattern, checkIn_check db₂.valid howns₂ pattern⟩

/-! ## A grant across projects -/

/-- Two projects; the actor of the first holds a grant on an app of the second, whose topics the
parameter sets. -/
def crossGrantDb (topics : List String) : Store where
  projects := [{ projectId := .of "p1", name := "acme" }, { projectId := .of "p2", name := "other" }]
  apps := [{ appId := .of "a2", projectId := .of "p2", name := "Theirs", slug := "theirs",
             accessMode := .restricted, topics := some topics }]
  rooms := [{ roomId := .of "r2", appId := .of "a2", slug := "lobby", name := "Lobby" }]
  actorTokens := [{ actorTokenId := .of "t1", projectId := .of "p1", keyId := "at_live_1",
                    secretHash := "", name := "alice", actorType := .user }]
  actorAppAccess := [{ actorAppAccessId := .of "g1", actorTokenId := .of "t1",
                       appId := .of "a2", permission := .pubSub }]

/-- The two states agree on every row of the first project and differ in the second one's. -/
def crossGrantDb₁ : Database := ⟨crossGrantDb ["secret"], by decide⟩
def crossGrantDb₂ : Database := ⟨crossGrantDb ["other"], by decide⟩

theorem cross_grant_leaks :
    crossGrantDb₁.store.ofProject (.of "p1") = crossGrantDb₂.store.ofProject (.of "p1") ∧
      crossGrantDb₁.store.ownsActor (.of "p1") (.of "t1") = true ∧
      revalidateActor {} crossGrantDb₁.store 0 (.of "t1") ≠
        revalidateActor {} crossGrantDb₂.store 0 (.of "t1") ∧
      ¬ SessionIn crossGrantDb₁.store (.of "p1")
        (revalidateActor {} crossGrantDb₁.store 0 (.of "t1")) := by
  refine ⟨by decide, by decide, by decide, fun h => ?_⟩
  have happ : crossGrantDb₁.store.ownsApp (.of "p1") (.of "a2") = true := (h.2 _ (.head _)).1
  revert happ
  decide

theorem isolated_iff_crossGrant :
    Isolated {} crossGrantDb₁.store crossGrantDb₂.store 0 (.of "p1") (.of "t1") ↔
      SessionGrantsStayHome crossGrantDb₁.store 0 (.of "p1") (.of "t1") ∧
      SessionGrantsStayHome crossGrantDb₂.store 0 (.of "p1") (.of "t1") :=
  isolated_iff {} crossGrantDb₁ crossGrantDb₂ 0 (.of "p1") (.of "t1") (by decide) (by decide)

end Authz
end NolagCore
