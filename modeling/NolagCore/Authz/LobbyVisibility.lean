import NolagCore.Authz.ScanFree

/-!
# Authz.LobbyVisibility

Which lobbies a session shows. `_attachLobbies` works on one batch for all apps of the session: the
rooms of every app, the memberships of those rooms, the lobbies of those memberships. Where a
membership joins a lobby and a room of one app, each app gets from the batch its own lobbies with a
room the actor reaches.
-/

namespace NolagCore
namespace Authz

open Lib AccessModel

/-! ## Each lobby once -/

theorem nodup_foldl_addToSet {α : Type} (f : α → Uuid) {l : List α} :
    ∀ {set : List Uuid}, set.Nodup → (l.foldl (fun set x => addToSet set (f x)) set).Nodup := by
  induction l with
  | nil => intro set h; exact h
  | cons x l ih =>
    intro set h
    rw [List.foldl_cons]
    apply ih
    unfold addToSet
    split
    · exact h
    · rename_i hx
      exact h.append (List.nodup_singleton _) (by simpa using hx)

theorem nodup_lobbyIdsOf (s : Store) (appId : Uuid) (entries : List LobbyRoom) :
    (lobbyIdsOf s appId entries).Nodup := nodup_foldl_addToSet _ List.nodup_nil

theorem nodup_attachLobbies {s : Store} (hv : s.SchemaValid) (appsMap : OrderedMap Uuid AppBuild)
    (appId : Uuid) : ((attachLobbies s appsMap appId).map (·.lobbyId)).Nodup := by
  rw [attachLobbies_eq hv.pkLobby, lobbyIds_of_shown]
  exact nodup_lobbyIdsOf s appId _

/-! ## The lobbies of an app -/

/-- Every membership joins a lobby and a room of the same app. -/
def JoinsOneApp (s : Store) : Prop :=
  ∀ lr ∈ s.lobbyRooms, live lr = true → ∀ lobby ∈ s.lobbies, lr.lobbyId = lobby.lobbyId →
    ∀ room ∈ s.rooms, lr.roomId = room.roomId → room.appId = lobby.appId

/-- An active room of the app that the actor is let into: it is public, or the actor's effective
grant on it has not expired. -/
structure ReachesRoom (s : Store) (now : Int) (actorToken : ActorToken) (appId : Uuid)
    (room : Room) : Prop where
  row : room ∈ s.rooms
  isLive : live room = true
  active : room.status = .active
  ofApp : room.appId = appId
  opened : Opened s now actorToken room

section

variable {s : Store} {now : Int} {actorToken : ActorToken} {access : Access}

theorem sessionRoom_of_reaches (hv : s.SchemaValid) (ha : access ∈ validAppAccess s now actorToken)
    {room : Room} (h : ReachesRoom s now actorToken access.app.appId room) :
    SessionRoom s now actorToken access.app room :=
  (sessionRoom_iff hv).2 ⟨access, ha, rfl, mem_activeRooms.2 ⟨h.row, h.isLive, h.ofApp, h.active⟩⟩

/-- The batch reaches a lobby through a room of another app only where a membership crosses apps. -/
theorem reaches_of_sessionRoom (hjoin : JoinsOneApp s) {app : PlatformApp} {room : Room}
    {lobby : Lobby} (hlobby : lobby ∈ s.lobbies) (hr : SessionRoom s now actorToken app room)
    (hin : InLobby s lobby room) (hopen : Opened s now actorToken room) :
    ReachesRoom s now actorToken lobby.appId room := by
  obtain ⟨lr, hm, hlive, hlid, hrid⟩ := hin
  exact ⟨hr.roomRow, hr.roomLive, hr.roomActive,
    hjoin lr hm hlive lobby hlobby hlid room hr.roomRow hrid, hopen⟩

/-- Both directions for one app of the batch. -/
theorem mem_allowedLobbies_oneApp (hv : s.SchemaValid) (hjoin : JoinsOneApp s)
    {scope : ResolvedScope} (ha : access ∈ validAppAccess s now actorToken) {shown : AllowedLobby} :
    shown ∈ (appAccessOf s now actorToken scope access).allowedLobbies ↔
      ∃ lobby ∈ s.lobbies, live lobby = true ∧ lobby.appId = access.app.appId ∧
        shown = { lobbyId := lobby.lobbyId, lobbySlug := lobby.slug } ∧
        ∃ room, ReachesRoom s now actorToken access.app.appId room ∧ InLobby s lobby room := by
  rw [mem_allowedLobbies hv]
  constructor
  · rintro ⟨lobby, hrow, hlive, happ, hshown, app, room, hr, hin, hopen⟩
    have hreach := reaches_of_sessionRoom hjoin hrow hr hin hopen
    rw [happ] at hreach
    exact ⟨lobby, hrow, hlive, happ, hshown, room, hreach, hin⟩
  · rintro ⟨lobby, hrow, hlive, happ, hshown, room, hreach, hin⟩
    exact ⟨lobby, hrow, hlive, happ, hshown, access.app, room,
      sessionRoom_of_reaches hv ha hreach, hin, hreach.opened⟩

end

/-- Each app of a session shows exactly its live lobbies with a room the actor reaches, each once.
What topics those rooms have does not matter. -/
theorem allowedLobbies_exact (config : CoreConfig) (db : Database) (hjoin : JoinsOneApp db.store)
    (now : Int) (actorToken : ActorToken) (payload : ActorSessionPayload)
    (h : buildSessionPayload config db.store now actorToken = .ok payload) :
    ∀ appAccess ∈ payload.apps, (appAccess.allowedLobbies.map (·.lobbyId)).Nodup ∧
      ∀ shown, shown ∈ appAccess.allowedLobbies ↔
        ∃ lobby ∈ db.store.lobbies, live lobby = true ∧ lobby.appId = appAccess.appId ∧
          shown = { lobbyId := lobby.lobbyId, lobbySlug := lobby.slug } ∧
          ∃ room, ReachesRoom db.store now actorToken appAccess.appId room ∧
            InLobby db.store lobby room := by
  have hv := db.valid
  obtain ⟨_, scope, _, _, _, _, happs⟩ := of_buildSessionPayload h
  rw [happs, buildAppAccess_eq (nodup_validAppAccess hv now actorToken)]
  intro appAccess hm
  obtain ⟨access, ha, rfl⟩ := List.mem_map.1 hm
  exact ⟨nodup_attachLobbies hv _ _, fun shown => mem_allowedLobbies_oneApp hv hjoin ha⟩

/-- An open app without topics, its one room in its one lobby. -/
def loungeDb : Database where
  store :=
    { projects := [{ projectId := .of "p1", name := "acme" }]
      apps := [{ appId := .of "a1", projectId := .of "p1", name := "Bar", slug := "bar" }]
      rooms := [{ roomId := .of "r1", appId := .of "a1", slug := "counter", name := "Counter" }]
      lobbies := [{ lobbyId := .of "l1", appId := .of "a1", slug := "lounge", name := "Lounge" }]
      lobbyRooms := [{ lobbyId := .of "l1", roomId := .of "r1" }] }
  valid := by decide

def guest : ActorToken where
  actorTokenId := .of "t1"
  projectId := .of "p1"
  keyId := "at_live_1"
  secretHash := ""
  name := "guest"
  actorType := .user

theorem joinsOneApp_loungeDb : JoinsOneApp loungeDb.store := by
  unfold JoinsOneApp
  decide

/-- The lobby is shown although its room has no topic. -/
theorem allowedLobbies_exact_lounge :
    ∃ payload, buildSessionPayload {} loungeDb.store 0 guest = .ok payload ∧
      payload.apps.map (·.allowedLobbies) =
        [[{ lobbyId := .of "l1", lobbySlug := "lounge" }]] ∧
      ∀ appAccess ∈ payload.apps, (appAccess.allowedLobbies.map (·.lobbyId)).Nodup ∧
        ∀ shown, shown ∈ appAccess.allowedLobbies ↔
          ∃ lobby ∈ loungeDb.store.lobbies, live lobby = true ∧ lobby.appId = appAccess.appId ∧
            shown = { lobbyId := lobby.lobbyId, lobbySlug := lobby.slug } ∧
            ∃ room, ReachesRoom loungeDb.store 0 guest appAccess.appId room ∧
              InLobby loungeDb.store lobby room :=
  ⟨_, rfl, by decide, allowedLobbies_exact {} loungeDb joinsOneApp_loungeDb 0 guest _ rfl⟩

end Authz
end NolagCore
