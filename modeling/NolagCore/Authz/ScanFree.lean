import NolagCore.Authz.Agreement
import NolagCore.Authz.Isolation
import NolagCore.Authz.Resolved

/-!
# Authz.ScanFree

Resolution and the order of the rows. No query of the resolution has an order of its own, and what it
returns is put into maps where the last row of a key stays, or searched for the first. An answer is
free of the order exactly where the rows that compete for one place lead to the same.
-/

namespace NolagCore
namespace Authz

open Lib AccessModel

/-! ## Answers as sets -/

/-- One app of two sessions, its lists read as sets. -/
structure SameAccess (a a' : AppAccess) : Prop where
  appId : a.appId = a'.appId
  appName : a.appName = a'.appName
  appSlug : a.appSlug = a'.appSlug
  hydrationWebhook : a.hydrationWebhook = a'.hydrationWebhook
  triggerWebhook : a.triggerWebhook = a'.triggerWebhook
  topicWebhooks : a.topicWebhooks = a'.topicWebhooks
  allowedTopics : ∀ e, e ∈ a.allowedTopics ↔ e ∈ a'.allowedTopics
  allowedLobbies : ∀ l, l ∈ a.allowedLobbies ↔ l ∈ a'.allowedLobbies
  activeSubscriptions : ∀ sub, sub ∈ a.activeSubscriptions ↔ sub ∈ a'.activeSubscriptions

structure SamePayload (p p' : ActorSessionPayload) : Prop where
  fields : { p with apps := [] } = { p' with apps := [] }
  left : ∀ a ∈ p.apps, ∃ a' ∈ p'.apps, SameAccess a a'
  right : ∀ a' ∈ p'.apps, ∃ a ∈ p.apps, SameAccess a a'

inductive SameAnswer : RevalidateActorResponse → RevalidateActorResponse → Prop
  | invalid (error : AuthzDenyReason) (disconnectReason : DisconnectReason) :
      SameAnswer (.invalid error disconnectReason) (.invalid error disconnectReason)
  | valid {p p' : ActorSessionPayload} (h : SamePayload p p') : SameAnswer (.valid p) (.valid p')

structure SameCheck (r r' : CheckRoomAccessResult) : Prop where
  allow : r.allow = r'.allow
  allowedTopics : ∀ e, e ∈ r.allowedTopics ↔ e ∈ r'.allowedTopics

/-! ## The rows that compete -/

section

variable (s : Store) (now : Int) (actorToken : ActorToken)

/-- The terms of an app in a session. -/
def SessionTerms : Terms :=
  HeldElseOpen s now actorToken.actorTokenId actorToken.projectId

/-- An active room of an active app that the actor reaches. -/
structure SessionRoom (app : PlatformApp) (room : Room) : Prop where
  appRow : app ∈ s.apps
  appLive : live app = true
  appActive : app.status = .active
  reached : ∃ p ts, SessionTerms s now actorToken app p ts
  roomRow : room ∈ s.rooms
  roomLive : live room = true
  roomActive : room.status = .active
  roomApp : room.appId = app.appId

def SessionEntry : PlatformApp → Room → EAccessPermission → String → Prop :=
  Entry s now actorToken.actorTokenId.text actorToken.actorType (SessionTerms s now actorToken)

/-- A grant that may decide the room. -/
def Deciding : Room → RoomActorAccess → Prop :=
  Decides s actorToken.actorTokenId.text actorToken.actorType

/-- All grants that may decide the room, named ones by the text, let the same through. -/
def OneOutcomeBy (text : String) (app : PlatformApp) (room : Room) : Prop :=
  ∀ g g', Decides s text actorToken.actorType room g → Decides s text actorToken.actorType room g' →
    ∀ p topicName, Outcome now app g p topicName ↔ Outcome now app g' p topicName

/-- All grants that may decide the room in a session let the same through. -/
def OneOutcome (app : PlatformApp) (room : Room) : Prop :=
  OneOutcomeBy s now actorToken actorToken.actorTokenId.text app room

/-- The room is open under some grant that may decide it. -/
def MayOpen (room : Room) : Prop :=
  IsPublic s room ∨ ∃ g, Deciding s actorToken room g ∧ expired g.expiresAt now = false

/-- The room is open under every grant that may decide it. -/
def MustOpen (room : Room) : Prop :=
  IsPublic s room ∨ (∃ g, Deciding s actorToken room g) ∧
    ∀ g, Deciding s actorToken room g → expired g.expiresAt now = false

def InLobby (lobby : Lobby) (room : Room) : Prop :=
  ∃ lr ∈ s.lobbyRooms, live lr = true ∧ lr.lobbyId = lobby.lobbyId ∧ lr.roomId = room.roomId

/-- The actor holds a grant on the app: its entries come before those of the other open apps. -/
def Held (app : PlatformApp) : Prop := ∃ g, AppGrant s now actorToken.actorTokenId app g

/-- The pattern is that of an entry of the app. -/
def EntryAt (scope : ResolvedScope) (pattern : String) (app : PlatformApp) (room : Room) : Prop :=
  ∃ p topicName, SessionEntry s now actorToken app room p topicName ∧
    (buildAllowedTopic app.slug room topicName p scope).pattern = pattern

/-- No other open app has an entry of the pattern, where the actor holds a grant on this one. -/
def ComesLast (scope : ResolvedScope) (pattern : String) (app : PlatformApp) : Prop :=
  Held s now actorToken app →
    ∀ app' room', EntryAt s now actorToken scope pattern app' room' → Held s now actorToken app'

def ProjectLive : Prop :=
  ∃ project, findOne s.projects (fun p => decide (p.projectId = actorToken.projectId)) = some project

/-- A live check can address the room. -/
structure Addressable (app : PlatformApp) (room : Room) : Prop where
  home : app.projectId = actorToken.projectId
  appSlug : '/' ∉ app.slug.toList
  roomSlug : '/' ∉ room.slug.toList

/-- Rows that compete for one place lead to the same, in a session and in a check by the text. -/
structure ScanFree (text : String) (scope : ResolvedScope) : Prop where
  /-- At most one active grant on a room names the actor. -/
  oneNamed : ProjectLive s actorToken → ∀ app room, SessionRoom s now actorToken app room →
    app.projectId = actorToken.projectId → ∀ g g', OnRoom s room g → OnRoom s room g' →
    Names actorToken.actorTokenId.text g → Names actorToken.actorTokenId.text g' → g = g'
  oneOutcome : ProjectLive s actorToken → ∀ app room, SessionRoom s now actorToken app room →
    OneOutcome s now actorToken app room
  oneChecked : ∀ app room, SessionRoom s now actorToken app room → Addressable actorToken app room →
    OneOutcomeBy s now actorToken text app room
  /-- A lobby with a room that may be open has one that must be. -/
  lobbies : ProjectLive s actorToken → ∀ lobby ∈ s.lobbies, live lobby = true →
    (∃ app p ts, app ∈ s.apps ∧ live app = true ∧ app.status = .active ∧
      SessionTerms s now actorToken app p ts ∧ lobby.appId = app.appId) →
    (∃ app room, SessionRoom s now actorToken app room ∧ InLobby s lobby room ∧
      MayOpen s now actorToken room) →
    ∃ app room, SessionRoom s now actorToken app room ∧ InLobby s lobby room ∧
      MustOpen s now actorToken room
  /-- Of the entries of a recorded pattern, those that may come last are of one room. -/
  subscriptions : ProjectLive s actorToken →
    ∀ record ∈ recordedSubscriptions s actorToken.actorTokenId, ∀ app room app' room',
    EntryAt s now actorToken scope record.name app room →
    EntryAt s now actorToken scope record.name app' room' →
    ComesLast s now actorToken scope record.name app →
    ComesLast s now actorToken scope record.name app' → room = room'

end

/-- The gates that both resolutions have. -/
structure Gates (s : Store) (now : Int) (actorTokenId : Uuid) (actorToken : ActorToken)
    (scope : ResolvedScope) : Prop where
  row : findActor s actorTokenId = some actorToken
  active : actorToken.status = .active
  unexpired : expired actorToken.expiresAt now = false
  scope : resolveScope s actorToken = some scope

/-- Neither resolution depends on the order in which its queries return rows, and where several
grants on a room name the actor, the two choose the same one. -/
structure OrderFree (config : CoreConfig) (s : Store) (now : Int) (actorTokenId : IdText) :
    Prop where
  session : ∀ s', s.Scans s' → SameAnswer (revalidateActor config s now actorTokenId.uuid)
    (revalidateActor config s' now actorTokenId.uuid)
  check : ∀ s', s.Scans s' → ∀ pattern, SameCheck (checkRoomAccess s now actorTokenId pattern)
    (checkRoomAccess s' now actorTokenId pattern)
  sameGrant : ∀ payload, revalidateActor config s now actorTokenId.uuid = .valid payload →
    ∀ actorToken, findActor s actorTokenId.uuid = some actorToken →
    ∀ app room, SessionRoom s now actorToken app room → app.projectId = actorToken.projectId →
    (∃ g g', g ≠ g' ∧ OnRoom s room g ∧ OnRoom s room g' ∧ Names actorTokenId.uuid.text g ∧
      Names actorTokenId.uuid.text g') →
    ∀ s', s.Scans s' → (batchedRoomGrants s actorToken room).effective =
      (liveRoomGrants s' actorTokenId.text actorToken room).effective

/-! ## A session in terms of the rows -/

section

variable {s : Store} {now : Int} {actorToken : ActorToken} {scope : ResolvedScope}

theorem sessionTerms_unique (hv : s.SchemaValid) {app : PlatformApp} {p p' : EAccessPermission}
    {ts ts' : Option (List String)} (h : SessionTerms s now actorToken app p ts)
    (h' : SessionTerms s now actorToken app p' ts') : p = p' ∧ ts = ts' := by
  cases h with
  | held hg =>
    cases h' with
    | held hg' =>
      cases appGrant_unique hv hg hg'
      exact ⟨rfl, rfl⟩
    | opened _ _ unheld => exact absurd hg (unheld _)
  | opened _ _ unheld =>
    cases h' with
    | held hg' => exact absurd hg' (unheld _)
    | opened _ _ _ => exact ⟨rfl, rfl⟩

theorem sessionRoom_of_entry {app : PlatformApp} {room : Room} {p : EAccessPermission}
    {topicName : String} (h : SessionEntry s now actorToken app room p topicName) :
    SessionRoom s now actorToken app room := by
  obtain ⟨h1, h2, h3, r1, r2, r3, r4, q, ts, ht, _⟩ := h
  exact ⟨h1, h2, h3, ⟨q, ts, ht⟩, r1, r2, r3, r4⟩

/-- The rooms of a session are those of the apps it resolves. -/
theorem sessionRoom_iff (hv : s.SchemaValid) {app : PlatformApp} {room : Room} :
    SessionRoom s now actorToken app room ↔ ∃ access ∈ validAppAccess s now actorToken,
      access.app = app ∧ room ∈ activeRooms s app.appId := by
  constructor
  · rintro ⟨h1, h2, h3, ⟨p, ts, ht⟩, r1, r2, r3, r4⟩
    exact ⟨⟨app, p, ts⟩, (mem_validAppAccess hv).2 ⟨h1, h2, h3, ht⟩, rfl,
      mem_activeRooms.2 ⟨r1, r2, r4, r3⟩⟩
  · rintro ⟨access, ha, rfl, hroom⟩
    obtain ⟨h1, h2, h3, ht⟩ := (mem_validAppAccess hv).1 ha
    obtain ⟨r1, r2, r4, r3⟩ := mem_activeRooms.1 hroom
    exact ⟨h1, h2, h3, ⟨_, _, ht⟩, r1, r2, r3, r4⟩

/-- What a room of a session contributes is an entry on the rows. -/
theorem entry_of_mem (hv : s.SchemaValid) {access : Access}
    (ha : access ∈ validAppAccess s now actorToken) {e : AllowedTopic}
    (he : e ∈ (buildOf s now actorToken scope access).allowedTopics) : ∃ room p topicName,
      SessionEntry s now actorToken access.app room p topicName ∧
      e = buildAllowedTopic access.app.slug room topicName p scope := by
  obtain ⟨room, hroom, p, topicName, ⟨ts, hra, hmem⟩, rfl⟩ := mem_allowedTopics.1 he
  obtain ⟨h1, h2, h3, ht⟩ := (mem_validAppAccess hv).1 ha
  obtain ⟨r1, r2, r4, r3⟩ := mem_activeRooms.1 hroom
  have hy := roomAccess_yields (reads_batched s actorToken room) hra hmem
  exact ⟨room, p, topicName, ⟨h1, h2, h3, r1, r2, r3, r4, _, _, ht, hy⟩, rfl⟩

/-- Where the room has one outcome, it contributes every entry on the rows. -/
theorem contributed_of_entry (hv : s.SchemaValid) {access : Access}
    (ha : access ∈ validAppAccess s now actorToken) {room : Room} {p : EAccessPermission}
    {topicName : String} (h : SessionEntry s now actorToken access.app room p topicName)
    (hone : OneOutcome s now actorToken access.app room) :
    ∃ ts, roomAccess now access (batchedRoomGrants s actorToken room) = some (p, ts) ∧
      topicName ∈ ts.getD [] := by
  obtain ⟨q, ts, ht, hy⟩ := h.yields
  obtain ⟨rfl, rfl⟩ := sessionTerms_unique hv ((mem_validAppAccess hv).1 ha).2.2.2 ht
  have hreads := reads_batched s actorToken room
  refine (roomAccess_iff hreads).2 ?_
  cases hy with
  | isPublic hp hmem => exact .inl ⟨hp, rfl, hmem⟩
  | @isPrivate ra _ hd hx hmem =>
    cases heff : (batchedRoomGrants s actorToken room).effective with
    | none => exact absurd hd (hreads.complete heff ra)
    | some g =>
      have ho : Outcome now access.app ra ra.permission topicName := ⟨hx, rfl, hmem⟩
      exact .inr ⟨g, rfl, (hone ra g hd (hreads.sound g heff) _ _).1 ho⟩

theorem mem_of_entry (hv : s.SchemaValid) {access : Access}
    (ha : access ∈ validAppAccess s now actorToken) {room : Room} {p : EAccessPermission}
    {topicName : String} (h : SessionEntry s now actorToken access.app room p topicName)
    (hone : OneOutcome s now actorToken access.app room) :
    buildAllowedTopic access.app.slug room topicName p scope ∈
      (buildOf s now actorToken scope access).allowedTopics :=
  mem_allowedTopics.2 ⟨room, mem_activeRooms.2 ⟨h.roomRow, h.roomLive, h.roomApp, h.roomActive⟩, p,
    topicName, contributed_of_entry hv ha h hone, rfl⟩

/-! ## Open rooms and lobbies -/

/-- The batched resolution lets the actor into the room. -/
def Opened (s : Store) (now : Int) (actorToken : ActorToken) (room : Room) : Prop :=
  IsPublic s room ∨ ∃ g, (batchedRoomGrants s actorToken room).effective = some g ∧
    expired g.expiresAt now = false

theorem roomAccess_isSome {access : Access} {room : Room} :
    (∃ x, roomAccess now access (batchedRoomGrants s actorToken room) = some x) ↔
      Opened s now actorToken room := by
  have hpub : (batchedRoomGrants s actorToken room).entries = [] ↔ IsPublic s room := grantsOn_eq_nil
  unfold roomAccess Opened
  by_cases hp : IsPublic s room
  · rw [if_pos (hpub.2 hp)]
    exact ⟨fun _ => .inl hp, fun _ => ⟨_, rfl⟩⟩
  · rw [if_neg (mt hpub.1 hp)]
    cases heff : (batchedRoomGrants s actorToken room).effective with
    | none => simp [hp]
    | some g =>
      by_cases hx : expired g.expiresAt now = true
      · simp [hp, hx]
      · simp only [Bool.not_eq_true] at hx
        simp [hx]

theorem Opened.mayOpen {room : Room} (h : Opened s now actorToken room) :
    MayOpen s now actorToken room := by
  rcases h with hp | ⟨g, hg, hx⟩
  · exact .inl hp
  · exact .inr ⟨g, (reads_batched s actorToken room).sound g hg, hx⟩

theorem MustOpen.opened {room : Room} (h : MustOpen s now actorToken room) :
    Opened s now actorToken room := by
  rcases h with hp | ⟨⟨g, hg⟩, hall⟩
  · exact .inl hp
  · cases heff : (batchedRoomGrants s actorToken room).effective with
    | none => exact absurd hg ((reads_batched s actorToken room).complete heff g)
    | some g' => exact .inr ⟨g', heff, hall g' ((reads_batched s actorToken room).sound g' heff)⟩

theorem mem_reachedRooms (hv : s.SchemaValid) {roomId : Uuid} :
    roomId ∈ reachedRooms s now actorToken ↔ ∃ app room, SessionRoom s now actorToken app room ∧
      Opened s now actorToken room ∧ room.roomId = roomId := by
  unfold reachedRooms
  rw [List.mem_flatMap]
  constructor
  · rintro ⟨access, ha, hm⟩
    obtain ⟨room, hroom, hx⟩ := List.mem_filterMap.1 hm
    obtain ⟨x, hra, rfl⟩ := Option.map_eq_some_iff.1 hx
    exact ⟨access.app, room, (sessionRoom_iff hv).2 ⟨access, ha, rfl, hroom⟩,
      roomAccess_isSome.1 ⟨x, hra⟩, rfl⟩
  · rintro ⟨app, room, hr, hopen, rfl⟩
    obtain ⟨access, ha, rfl, hroom⟩ := (sessionRoom_iff hv).1 hr
    have hsome : ∃ x, roomAccess now access (batchedRoomGrants s actorToken room) = some x :=
      roomAccess_isSome.2 hopen
    obtain ⟨x, hra⟩ := hsome
    exact ⟨access, ha, List.mem_filterMap.2 ⟨room, hroom, by rw [hra]; rfl⟩⟩

theorem lobbyOf_iff (hv : s.SchemaValid) {lobbyId : Uuid} {lobby : Lobby} :
    lobbyOf s lobbyId = some lobby ↔
      lobby ∈ s.lobbies ∧ live lobby = true ∧ lobby.lobbyId = lobbyId := by
  constructor
  · intro h
    obtain ⟨h1, h2, h3⟩ := of_findOne h
    exact ⟨h1, h2, of_decide_eq_true h3⟩
  · rintro ⟨h1, h2, h3⟩
    refine findOne_of_unique h1 h2 (decide_eq_true h3) fun l hl _ hk => ?_
    exact hv.pkLobby.eq_of_key hl h1 ((of_decide_eq_true hk).trans h3.symm)

/-- The lobbies shown in an app: those of the app with a room that the actor is let into. -/
theorem mem_allowedLobbies (hv : s.SchemaValid) {access : Access} {shown : AllowedLobby} :
    shown ∈ (appAccessOf s now actorToken scope access).allowedLobbies ↔
      ∃ lobby ∈ s.lobbies, live lobby = true ∧ lobby.appId = access.app.appId ∧
        shown = { lobbyId := lobby.lobbyId, lobbySlug := lobby.slug } ∧
        ∃ app room, SessionRoom s now actorToken app room ∧ InLobby s lobby room ∧
          Opened s now actorToken room := by
  have hunfold : (appAccessOf s now actorToken scope access).allowedLobbies =
      attachLobbies s (buildAppsMap s now actorToken scope) access.app.appId := rfl
  rw [hunfold, attachLobbies_eq hv.pkLobby, accessibleRooms_eq (nodup_validAppAccess hv now actorToken)]
  constructor
  · intro h
    obtain ⟨lobbyId, hid, hx⟩ := List.mem_filterMap.1 h
    obtain ⟨lr, hlr, lobby, hlrid, hlobby, happ⟩ := of_mem_lobbyIdsOf hid
    rw [hlobby, Option.map_some, Option.some.injEq] at hx
    obtain ⟨hlrow, hllive, hlid⟩ := (lobbyOf_iff hv).1 hlobby
    obtain ⟨hm, hml, hmroom⟩ := mem_findAll.1 hlr
    obtain ⟨app, room, hroom, hopen, hroomId⟩ := (mem_reachedRooms hv).1 (of_decide_eq_true hmroom)
    exact ⟨lobby, hlrow, hllive, happ, hx.symm, app, room, hroom,
      ⟨lr, hm, hml, hlrid.trans hlid.symm, hroomId.symm⟩, hopen⟩
  · rintro ⟨lobby, hlrow, hllive, happ, rfl, app, room, hroom, ⟨lr, hm, hml, hlrid, hroomId⟩, hopen⟩
    have hlobby : lobbyOf s lr.lobbyId = some lobby := (lobbyOf_iff hv).2 ⟨hlrow, hllive, hlrid.symm⟩
    have hreached : lr.roomId ∈ reachedRooms s now actorToken :=
      (mem_reachedRooms hv).2 ⟨app, room, hroom, hopen, hroomId.symm⟩
    have hmember : lr ∈ membershipsOf s (reachedRooms s now actorToken) :=
      mem_findAll.2 ⟨hm, hml, decide_eq_true hreached⟩
    refine List.mem_filterMap.2 ⟨lobby.lobbyId, mem_lobbyIdsOf hmember hlobby happ, ?_⟩
    rw [hlrid] at hlobby
    rw [hlobby]
    rfl

end

/-! ## Another scan -/

section

variable {s s' : Store} (h : s.Reorder s') {now : Int} {actorToken : ActorToken}
  {scope : ResolvedScope} {app : PlatformApp} {room : Room}

include h

theorem sessionRoom_reorder (hr : SessionRoom s now actorToken app room) :
    SessionRoom s' now actorToken app room := by
  obtain ⟨p, ts, ht⟩ := hr.reached
  exact { hr with
    appRow := h.apps.subset hr.appRow
    roomRow := h.rooms.subset hr.roomRow
    reached := ⟨p, ts, heldElseOpen_reorder h ht⟩ }

theorem deciding_reorder {g : RoomActorAccess} (hd : Deciding s actorToken room g) :
    Deciding s' actorToken room g := decides_reorder h hd

theorem oneOutcome_reorder {text : String} (hone : OneOutcomeBy s now actorToken text app room) :
    OneOutcomeBy s' now actorToken text app room := fun g g' hg hg' =>
  hone g g' (decides_reorder h.symm hg) (decides_reorder h.symm hg')

theorem mustOpen_reorder (hm : MustOpen s now actorToken room) :
    MustOpen s' now actorToken room := by
  rcases hm with hp | ⟨⟨g, hg⟩, hall⟩
  · exact .inl (isPublic_reorder h hp)
  · exact .inr ⟨⟨g, deciding_reorder h hg⟩, fun g hg => hall g (deciding_reorder h.symm hg)⟩

theorem mayOpen_reorder (hm : MayOpen s now actorToken room) : MayOpen s' now actorToken room := by
  rcases hm with hp | ⟨g, hg, hx⟩
  · exact .inl (isPublic_reorder h hp)
  · exact .inr ⟨g, deciding_reorder h hg, hx⟩

theorem inLobby_reorder {lobby : Lobby} (hl : InLobby s lobby room) : InLobby s' lobby room := by
  obtain ⟨lr, hm, hrest⟩ := hl
  exact ⟨lr, h.lobbyRooms.subset hm, hrest⟩

theorem held_reorder (hh : Held s now actorToken app) : Held s' now actorToken app := by
  obtain ⟨g, hg⟩ := hh
  exact ⟨g, appGrant_reorder h hg⟩

theorem entryAt_reorder {pattern : String} (he : EntryAt s now actorToken scope pattern app room) :
    EntryAt s' now actorToken scope pattern app room := by
  obtain ⟨p, topicName, hentry, hp⟩ := he
  exact ⟨p, topicName, entry_reorder h hentry, hp⟩

theorem comesLast_reorder {pattern : String} (hc : ComesLast s now actorToken scope pattern app) :
    ComesLast s' now actorToken scope pattern app := fun hh app' room' he =>
  held_reorder h (hc (held_reorder h.symm hh) app' room' (entryAt_reorder h.symm he))

end

/-! ## Which entry comes last -/

section

variable {s : Store} (hv : s.SchemaValid) {now : Int} {actorToken : ActorToken}
  {scope : ResolvedScope}

/-- The elements of `validAppAccess` made up for open apps. -/
def openedAppAccess (s : Store) (now : Int) (actorToken : ActorToken) : List Access :=
  ((openApps s actorToken).filter fun a =>
    decide (a.appId ∉ (explicitAppAccess s now actorToken).map (·.app.appId))).map synthetic

theorem validAppAccess_eq : validAppAccess s now actorToken =
    explicitAppAccess s now actorToken ++ openedAppAccess s now actorToken := rfl

theorem held_of_explicit {access : Access} (ha : access ∈ explicitAppAccess s now actorToken) :
    Held s now actorToken access.app := by
  obtain ⟨g, hg, _⟩ := mem_explicitAppAccess.1 ha
  exact ⟨g, hg⟩

include hv

theorem unheld_of_opened {access : Access} (ha : access ∈ openedAppAccess s now actorToken) :
    ¬ Held s now actorToken access.app := by
  rintro ⟨g, hg⟩
  obtain ⟨app, hm, rfl⟩ := List.mem_map.1 ha
  obtain ⟨hopen, hnot⟩ := List.mem_filter.1 hm
  obtain ⟨hrow, hlive, _, _, hst⟩ := mem_openApps.1 hopen
  refine of_decide_eq_true hnot (List.mem_map.2 ⟨⟨app, g.permission, g.topics⟩, ?_, rfl⟩)
  exact mem_explicitAppAccess.2 ⟨g, hg, appOf_of_mem hv hrow hlive hg.onApp, hst, rfl, rfl⟩

omit hv in
theorem opened_of_unheld {access : Access} (ha : access ∈ validAppAccess s now actorToken)
    (hh : ¬ Held s now actorToken access.app) : access ∈ openedAppAccess s now actorToken := by
  rw [validAppAccess_eq, List.mem_append] at ha
  exact ha.resolve_left fun hexp => hh (held_of_explicit hexp)

theorem explicit_of_held {access : Access} (ha : access ∈ validAppAccess s now actorToken)
    (hh : Held s now actorToken access.app) : access ∈ explicitAppAccess s now actorToken := by
  rw [validAppAccess_eq, List.mem_append] at ha
  exact ha.resolve_right fun hopen => unheld_of_opened hv hopen hh

/-- An entry of an open app that is not held comes after all entries of held ones. -/
theorem standsFor_comesLast
    (hone : ∀ app room, SessionRoom s now actorToken app room → OneOutcome s now actorToken app room)
    {pattern : String} {appId : Uuid} {e : AllowedTopic}
    (h : standsFor s now actorToken scope pattern = some (appId, e)) :
    e.pattern = pattern ∧ ∃ access ∈ validAppAccess s now actorToken, access.app.appId = appId ∧
      e ∈ (buildOf s now actorToken scope access).allowedTopics ∧
      ComesLast s now actorToken scope pattern access.app := by
  obtain ⟨hpattern, access, ha, hid, he⟩ := of_standsFor h
  refine ⟨hpattern, access, ha, hid, he, fun hheld app' room' ⟨p, topicName, hentry, hp⟩ => ?_⟩
  by_contra hunheld
  have hroom := sessionRoom_of_entry hentry
  obtain ⟨access', ha', rfl, _⟩ := (sessionRoom_iff hv).1 hroom
  have hopened := opened_of_unheld ha' hunheld
  let entriesOf := fun access : Access =>
    (buildOf s now actorToken scope access).allowedTopics.map fun e => (access.app.appId, e)
  have hm : (access'.app.appId, buildAllowedTopic access'.app.slug room' topicName p scope) ∈
      ((openedAppAccess s now actorToken).flatMap entriesOf).filter
        fun x => decide (x.2.pattern = pattern) := by
    refine List.mem_filter.2 ⟨List.mem_flatMap.2 ⟨access', hopened, ?_⟩, decide_eq_true hp⟩
    exact List.mem_map_of_mem (mem_of_entry hv ha' hentry (hone _ _ hroom))
  have hlast : (((openedAppAccess s now actorToken).flatMap entriesOf).filter
      fun x => decide (x.2.pattern = pattern)).getLast? = some (appId, e) := by
    unfold standsFor resolvedSet at h
    rw [validAppAccess_eq, List.flatMap_append, List.filter_append, List.getLast?_append] at h
    cases hl : (((openedAppAccess s now actorToken).flatMap entriesOf).filter
      fun x => decide (x.2.pattern = pattern)).getLast? with
    | none =>
      rw [List.getLast?_eq_none_iff.1 hl] at hm
      cases hm
    | some x =>
      rw [hl, Option.some_or] at h
      exact h
  obtain ⟨access'', ha'', hx⟩ := List.mem_flatMap.1 (List.mem_filter.1 (List.mem_of_getLast? hlast)).1
  obtain ⟨_, _, heq⟩ := List.mem_map.1 hx
  cases heq
  have hvalid : access'' ∈ validAppAccess s now actorToken := List.mem_append_right _ ha''
  cases access_eq_of_appId hv hvalid ha hid.symm
  exact unheld_of_opened hv ha'' hheld

end

/-! ## Rows that lead to the same -/

section

variable {s s' : Store} (h : s.Scans s') (hv : s.SchemaValid) {now : Int} {actorToken : ActorToken}
  {scope : ResolvedScope}

include h hv

theorem findProject_scans (projectId : Uuid) :
    findOne s'.projects (fun p => decide (p.projectId = projectId)) =
      findOne s.projects fun p => decide (p.projectId = projectId) :=
  findOne_perm h.projects fun _ hr _ hr' _ _ hp hp' =>
    hv.pkProject.eq_of_key hr hr' ((of_decide_eq_true hp).trans (of_decide_eq_true hp').symm)

theorem projectLive_scans (hp : ProjectLive s actorToken) : ProjectLive s' actorToken := by
  obtain ⟨project, hproject⟩ := hp
  exact ⟨project, (findProject_scans h hv _).trans hproject⟩

omit hv in
theorem recorded_scans : recordedSubscriptions s' actorToken.actorTokenId =
    recordedSubscriptions s actorToken.actorTokenId := by
  unfold recordedSubscriptions
  rw [h.states]

theorem validAppAccess_scans {access : Access} (ha : access ∈ validAppAccess s now actorToken) :
    access ∈ validAppAccess s' now actorToken := by
  obtain ⟨h1, h2, h3, ht⟩ := (mem_validAppAccess hv).1 ha
  exact (mem_validAppAccess (h.valid hv)).2 ⟨h.apps.subset h1, h2, h3,
    heldElseOpen_reorder h.toReorder ht⟩

/-- The condition is one on the rows, whatever their order. -/
theorem scanFree_scans {text : String} (hf : ScanFree s now actorToken text scope) :
    ScanFree s' now actorToken text scope := by
  have hr := h.toReorder
  have hlive : ProjectLive s' actorToken → ProjectLive s actorToken :=
    projectLive_scans h.symm (h.valid hv)
  refine ⟨?_, ?_, ?_, ?_, ?_⟩
  · intro hp app room hroom hhome g g' hg hg'
    exact hf.oneNamed (hlive hp) app room (sessionRoom_reorder hr.symm hroom) hhome g g'
      (onRoom_reorder hr.symm hg) (onRoom_reorder hr.symm hg')
  · intro hp app room hroom
    exact oneOutcome_reorder hr
      (hf.oneOutcome (hlive hp) app room (sessionRoom_reorder hr.symm hroom))
  · intro app room hroom haddr
    exact oneOutcome_reorder hr (hf.oneChecked app room (sessionRoom_reorder hr.symm hroom) haddr)
  · rintro hp lobby hlobby hl ⟨app, p, ts, h1, h2, h3, ht, happ⟩ ⟨app', room, hroom, hin, hmay⟩
    obtain ⟨app'', room', hroom', hin', hmust⟩ := hf.lobbies (hlive hp) lobby
      (h.lobbies.symm.subset hlobby) hl
      ⟨app, p, ts, h.apps.symm.subset h1, h2, h3, heldElseOpen_reorder hr.symm ht, happ⟩
      ⟨app', room, sessionRoom_reorder hr.symm hroom, inLobby_reorder hr.symm hin,
        mayOpen_reorder hr.symm hmay⟩
    exact ⟨app'', room', sessionRoom_reorder hr hroom', inLobby_reorder hr hin',
      mustOpen_reorder hr hmust⟩
  · intro hp record hrecord app room app' room' he he' hl hl'
    rw [recorded_scans h] at hrecord
    exact hf.subscriptions (hlive hp) record hrecord app room app' room'
      (entryAt_reorder hr.symm he) (entryAt_reorder hr.symm he') (comesLast_reorder hr.symm hl)
      (comesLast_reorder hr.symm hl')

end

/-! ## The session -/

section

variable {s s' : Store} (h : s.Scans s') (hv : s.SchemaValid) {now : Int} {actorToken : ActorToken}
  {text : String} {scope : ResolvedScope} (hf : ScanFree s now actorToken text scope)
  (hp : ProjectLive s actorToken) {access : Access}

include h hv hf hp

theorem allowedTopics_scans (ha : access ∈ validAppAccess s now actorToken) {e : AllowedTopic}
    (he : e ∈ (buildOf s now actorToken scope access).allowedTopics) :
    e ∈ (buildOf s' now actorToken scope access).allowedTopics := by
  obtain ⟨room, p, topicName, hentry, rfl⟩ := entry_of_mem hv ha he
  have hone := hf.oneOutcome hp _ _ (sessionRoom_of_entry hentry)
  exact mem_of_entry (h.valid hv) (validAppAccess_scans h hv ha) (entry_reorder h.toReorder hentry)
    (oneOutcome_reorder h.toReorder hone)

theorem standsFor_scans {record : TopicSubscription}
    (hrecord : record ∈ recordedSubscriptions s actorToken.actorTokenId) {appId : Uuid}
    {e : AllowedTopic} (hstands : standsFor s now actorToken scope record.name = some (appId, e)) :
    ∃ e', standsFor s' now actorToken scope record.name = some (appId, e') ∧ e'.topic = e.topic := by
  have hf' := scanFree_scans h hv hf
  have hp' := projectLive_scans h hv hp
  have hr := h.toReorder.symm
  obtain ⟨hpattern, access, ha, rfl, he, hlast⟩ :=
    standsFor_comesLast hv (hf.oneOutcome hp) hstands
  obtain ⟨appId', e', hstands'⟩ := exists_standsFor (validAppAccess_scans h hv ha)
    (allowedTopics_scans h hv hf hp ha he)
  rw [hpattern] at hstands'
  obtain ⟨hpattern', access', ha', rfl, he', hlast'⟩ := standsFor_comesLast (h.valid hv)
    (hf'.oneOutcome hp') hstands'
  obtain ⟨room, p, topicName, hentry, rfl⟩ := entry_of_mem hv ha he
  obtain ⟨room', p', topicName', hentry', rfl⟩ := entry_of_mem (h.valid hv) ha' he'
  have hsame : room = room' := hf.subscriptions hp record hrecord _ _ _ _
    ⟨p, topicName, hentry, hpattern⟩ (entryAt_reorder hr ⟨p', topicName', hentry', hpattern'⟩) hlast
    (comesLast_reorder hr hlast')
  subst hsame
  have happ : access.app.appId = access'.app.appId := hentry.roomApp.symm.trans hentry'.roomApp
  have hacc := access_eq_of_appId (h.valid hv) (validAppAccess_scans h hv ha) ha' happ
  subst hacc
  refine ⟨_, hstands', ?_⟩
  rw [topic_of_pattern (hpattern.trans hpattern'.symm)]
  rfl

theorem allowedLobbies_scans (ha : access ∈ validAppAccess s now actorToken) {shown : AllowedLobby}
    (hs : shown ∈ (appAccessOf s now actorToken scope access).allowedLobbies) :
    shown ∈ (appAccessOf s' now actorToken scope access).allowedLobbies := by
  have hr := h.toReorder
  obtain ⟨lobby, hlobby, hl, happ, rfl, app, room, hroom, hin, hopen⟩ := (mem_allowedLobbies hv).1 hs
  obtain ⟨h1, h2, h3, ht⟩ := (mem_validAppAccess hv).1 ha
  obtain ⟨app', room', hroom', hin', hmust⟩ := hf.lobbies hp lobby hlobby hl
    ⟨access.app, _, _, h1, h2, h3, ht, happ⟩ ⟨app, room, hroom, hin, hopen.mayOpen⟩
  exact (mem_allowedLobbies (h.valid hv)).2 ⟨lobby, h.lobbies.subset hlobby, hl, happ, rfl, app', room',
    sessionRoom_reorder hr hroom', inLobby_reorder hr hin', (mustOpen_reorder hr hmust).opened⟩

theorem activeSubscriptions_scans {sub : ActiveSubscription}
    (hs : sub ∈ (appAccessOf s now actorToken scope access).activeSubscriptions) :
    sub ∈ (appAccessOf s' now actorToken scope access).activeSubscriptions := by
  obtain ⟨record, hrecord, e, hstands, rfl⟩ := mem_activeSubscriptions.1 hs
  obtain ⟨e', hstands', htopic⟩ := standsFor_scans h hv hf hp hrecord hstands
  refine mem_activeSubscriptions.2 ⟨record, ?_, e', hstands', by rw [htopic]⟩
  rw [recorded_scans h]
  exact hrecord

theorem sameAccess_scans (ha : access ∈ validAppAccess s now actorToken) :
    SameAccess (appAccessOf s now actorToken scope access)
      (appAccessOf s' now actorToken scope access) := by
  have hv' := h.valid hv
  have hf' := scanFree_scans h hv hf
  have hp' := projectLive_scans h hv hp
  have ha' := validAppAccess_scans h hv ha
  refine ⟨rfl, rfl, rfl, rfl, rfl, rfl, ?_, ?_, ?_⟩
  · intro e
    exact ⟨allowedTopics_scans h hv hf hp ha, allowedTopics_scans h.symm hv' hf' hp' ha'⟩
  · intro l
    exact ⟨allowedLobbies_scans h hv hf hp ha, allowedLobbies_scans h.symm hv' hf' hp' ha'⟩
  · intro sub
    exact ⟨activeSubscriptions_scans h hv hf hp, activeSubscriptions_scans h.symm hv' hf' hp'⟩

end

theorem SameAccess.symm {a a' : AppAccess} (h : SameAccess a a') : SameAccess a' a :=
  ⟨h.appId.symm, h.appName.symm, h.appSlug.symm, h.hydrationWebhook.symm, h.triggerWebhook.symm,
    h.topicWebhooks.symm, fun e => (h.allowedTopics e).symm, fun l => (h.allowedLobbies l).symm,
    fun sub => (h.activeSubscriptions sub).symm⟩

section

variable {s s' : Store} (h : s.Scans s') (hv : s.SchemaValid) {config : CoreConfig} {now : Int}
  {actorToken : ActorToken} {text : String} {scope : ResolvedScope}

include h hv

theorem sameApps_scans (hf : ScanFree s now actorToken text scope) (hp : ProjectLive s actorToken) :
    ∀ a ∈ buildAppAccess s now actorToken scope,
      ∃ a' ∈ buildAppAccess s' now actorToken scope, SameAccess a a' := by
  intro a ha
  rw [buildAppAccess_eq (nodup_validAppAccess hv now actorToken)] at ha
  obtain ⟨access, hacc, rfl⟩ := List.mem_map.1 ha
  rw [buildAppAccess_eq (nodup_validAppAccess (h.valid hv) now actorToken)]
  exact ⟨_, List.mem_map_of_mem (validAppAccess_scans h hv hacc), sameAccess_scans h hv hf hp hacc⟩

/-- The two session payloads differ in nothing but the order of their lists. -/
theorem samePayload_scans (hscope : resolveScope s actorToken = some scope)
    (hf : ScanFree s now actorToken text scope) {p p' : ActorSessionPayload}
    (hb : buildSessionPayload config s now actorToken = .ok p)
    (hb' : buildSessionPayload config s' now actorToken = .ok p') : SamePayload p p' := by
  obtain ⟨project, scope₁, hproject, hscope₁, _, _, happs⟩ := of_buildSessionPayload hb
  obtain ⟨project', scope₂, hproject', hscope₂, _, _, happs'⟩ := of_buildSessionPayload hb'
  have hp : ProjectLive s actorToken := ⟨project, hproject⟩
  cases hscope.symm.trans hscope₁
  cases (resolveScope_reorder h.toReorder hv actorToken ▸ hscope).symm.trans hscope₂
  have hproject₂ : findOne s'.projects (fun p => decide (p.projectId = actorToken.projectId)) =
      some project := (findProject_scans h hv _).trans hproject
  have haddress : ScanFree s now actorToken text
      { scopeId := scope.scopeId, scopeSlug := scope.scopeSlug } :=
    ⟨hf.oneNamed, hf.oneOutcome, hf.oneChecked, hf.lobbies, hf.subscriptions⟩
  have haddress' := scanFree_scans h hv haddress
  refine ⟨?_, ?_, ?_⟩
  · unfold buildSessionPayload at hb hb'
    simp only [hproject, hscope] at hb
    simp only [hproject₂, hscope₂] at hb'
    cases hb
    cases hb'
    rfl
  · rw [happs, happs']
    exact sameApps_scans h hv haddress hp
  · rw [happs, happs']
    intro a' ha'
    obtain ⟨a, ha, hsame⟩ := sameApps_scans h.symm (h.valid hv) haddress'
      (projectLive_scans h hv hp) a' ha'
    exact ⟨a, ha, hsame.symm⟩

/-- A session refused on one scan is refused on every other, for the same reason. -/
theorem buildSessionPayload_error {reason : AuthzDenyReason}
    (hb : buildSessionPayload config s now actorToken = .error reason) :
    buildSessionPayload config s' now actorToken = .error reason := by
  unfold buildSessionPayload at hb ⊢
  rw [findProject_scans h hv, resolveScope_reorder h.toReorder hv]
  split at hb
  · exact hb
  · split at hb
    · exact hb
    · cases hb

end

/-! ## The live check -/

theorem noSlash_of_parsed {scope : ResolvedScope} {pattern appSlug roomSlug : String}
    (h : parsePattern scope pattern = some (appSlug, roomSlug)) :
    '/' ∉ appSlug.toList ∧ '/' ∉ roomSlug.toList := by
  unfold parsePattern at h
  split at h
  · rename_i x scopeSlug y t hsplit
    split at h
    · cases h
    · cases h
      exact ⟨notMem_of_splitOn (by rw [hsplit]; simp), notMem_of_splitOn (by rw [hsplit]; simp)⟩
  · rename_i x y t hsplit
    cases h
    exact ⟨notMem_of_splitOn (by rw [hsplit]; simp), notMem_of_splitOn (by rw [hsplit]; simp)⟩
  · cases h

section

variable {s s' : Store} (h : s.Scans s') (hv : s.SchemaValid) {now : Int} {text : String}
  {actorToken : ActorToken} {scope : ResolvedScope} {appSlug roomSlug : String}

include h hv

theorem checkRoom_scans (hf : ScanFree s now actorToken text scope) (happ : '/' ∉ appSlug.toList)
    (hroom : '/' ∉ roomSlug.toList) {e : AllowedTopic}
    (he : e ∈ (checkRoom s now text actorToken scope appSlug roomSlug).allowedTopics) :
    e ∈ (checkRoom s' now text actorToken scope appSlug roomSlug).allowedTopics := by
  have hr := h.toReorder
  obtain ⟨access, room, p, topicName, hhome, hterms, hc, rfl⟩ := (mem_checkRoom_iff hv).1 he
  refine (mem_checkRoom_iff (h.valid hv)).2 ⟨access, room, p, topicName, homeRoom_reorder hr hhome,
    openElseHeld_reorder hr hterms, ?_, rfl⟩
  have hsession : SessionRoom s now actorToken access.app room :=
    ⟨hhome.appRow, hhome.appLive, hhome.appActive, HeldElseOpen_of hterms, hhome.roomRow,
      hhome.roomLive, hhome.roomActive, hhome.roomApp⟩
  have haddress : Addressable actorToken access.app room :=
    ⟨hhome.appHome, hhome.appSlug ▸ happ, hhome.roomSlug ▸ hroom⟩
  rcases hc with ⟨hpub, hp, hmem⟩ | ⟨g, hg, ho⟩
  · exact .inl ⟨isPublic_reorder hr hpub, hp, hmem⟩
  · have hone := hf.oneChecked _ _ hsession haddress
    exact .inr (outcome_transfer (.refl s) hr (reads_live s text actorToken room)
      (reads_live s' text actorToken room)
      (fun g g' hd hd' p t => (hone g g' hd hd' p t).1)
      (fun g hd hnone => absurd hd (hnone g)) hg ho)

theorem sameCheck_scans (hf : ScanFree s now actorToken text scope) (happ : '/' ∉ appSlug.toList)
    (hroom : '/' ∉ roomSlug.toList) :
    SameCheck (checkRoom s now text actorToken scope appSlug roomSlug)
      (checkRoom s' now text actorToken scope appSlug roomSlug) := by
  have hf' := scanFree_scans h hv hf
  have htopics : ∀ e, e ∈ (checkRoom s now text actorToken scope appSlug roomSlug).allowedTopics ↔
      e ∈ (checkRoom s' now text actorToken scope appSlug roomSlug).allowedTopics := fun e =>
    ⟨checkRoom_scans h hv hf happ hroom, checkRoom_scans h.symm (h.valid hv) hf' happ hroom⟩
  refine ⟨?_, htopics⟩
  rw [Bool.eq_iff_iff, checkRoom_allow_iff, checkRoom_allow_iff]
  exact exists_congr htopics

end

/-! ## Rows that lead to the same give the same answers -/

theorem SameCheck.refl (r : CheckRoomAccessResult) : SameCheck r r := ⟨rfl, fun _ => Iff.rfl⟩

section

variable {s s' : Store} (h : s.Scans s') (hv : s.SchemaValid) {config : CoreConfig} {now : Int}
  {actorTokenId : IdText} (hfree : ∀ actorToken scope,
    Gates s now actorTokenId.uuid actorToken scope →
      ScanFree s now actorToken actorTokenId.text scope)

include h hv hfree

theorem revalidateActor_scans : SameAnswer (revalidateActor config s now actorTokenId.uuid)
    (revalidateActor config s' now actorTokenId.uuid) := by
  unfold revalidateActor
  rw [findActor_reorder h.toReorder hv]
  split
  · exact .invalid _ _
  · rename_i actorToken hactor
    split
    · exact .invalid _ _
    · rename_i hst
      split
      · exact .invalid _ _
      · rename_i hx
        split
        · rename_i reason hb
          rw [buildSessionPayload_error h hv hb]
          exact .invalid _ _
        · rename_i p hb
          obtain ⟨p', hb'⟩ := buildSessionPayload_reorder h.toReorder hv hb
          rw [hb']
          obtain ⟨_, scope, _, hscope, _⟩ := of_buildSessionPayload hb
          have hgates : Gates s now actorTokenId.uuid actorToken scope :=
            ⟨hactor, not_not.1 hst, by simpa using hx, hscope⟩
          exact .valid (samePayload_scans h hv hscope (hfree _ _ hgates) hb hb')

theorem checkRoomAccess_scans (pattern : String) :
    SameCheck (checkRoomAccess s now actorTokenId pattern)
      (checkRoomAccess s' now actorTokenId pattern) := by
  unfold checkRoomAccess
  rw [findActor_reorder h.toReorder hv]
  split
  · exact .refl _
  · rename_i actorToken hactor
    split
    · exact .refl _
    · rename_i hst
      split
      · exact .refl _
      · rename_i hx
        rw [resolveScope_reorder h.toReorder hv]
        split
        · exact .refl _
        · rename_i scope hscope
          split
          · exact .refl _
          · rename_i appSlug roomSlug hparsed
            have hgates : Gates s now actorTokenId.uuid actorToken scope :=
              ⟨hactor, not_not.1 hst, by simpa using hx, hscope⟩
            obtain ⟨happ, hroom⟩ := noSlash_of_parsed hparsed
            exact sameCheck_scans h hv (hfree _ _ hgates) happ hroom

end

theorem orderFree_of_scanFree {config : CoreConfig} {s : Store} (hv : s.SchemaValid) {now : Int}
    {actorTokenId : IdText} (hfree : ∀ actorToken scope,
      Gates s now actorTokenId.uuid actorToken scope →
        ScanFree s now actorToken actorTokenId.text scope) :
    OrderFree config s now actorTokenId where
  session := fun _ h => revalidateActor_scans h hv hfree
  check := fun _ h => checkRoomAccess_scans h hv hfree
  sameGrant := by
    intro payload hvalid actorToken hactor app room hroom hhome ⟨g, g', hne, hg, hg', hn, hn'⟩
    obtain ⟨actorToken', hactor', hst, hx, hb⟩ := revalidateActor_eq_valid.1 hvalid
    cases hactor.symm.trans hactor'
    obtain ⟨project, scope, hproject, hscope, _⟩ := of_buildSessionPayload hb
    have hf := hfree actorToken scope ⟨hactor, hst, hx, hscope⟩
    have hid := (of_findActor hactor).2.2
    exact absurd (hf.oneNamed ⟨project, hproject⟩ app room hroom hhome g g' hg hg' (hid ▸ hn)
      (hid ▸ hn')) hne

end Authz
end NolagCore
