import NolagCore.Authz.Admission
import NolagCore.Facade.Origin

/-!
# Lobby.Capacity

What fills the ten places a room has in lobbies. The check counts membership rows, and a deleted
lobby leaves its rows behind, so a place is given back only by removing the room. Capacity is kept
over every run in which a lobby is emptied before it is deleted.
-/

namespace NolagCore
namespace LobbyFacade

open Lib Facade
open Authz (configure)
open ProjectConfig (Host sampleHost)

/-- The operations of the lobby and the room facade. -/
def OfLobbies : Operation → Bool
  | .createRoom .. | .ensureRoom .. | .updateRoom .. | .deleteRoom .. | .createStaticRooms .. => true
  | .createLobby .. | .updateLobby .. | .deleteLobby .. | .createStaticLobbies .. => true
  | .addRoomToLobby .. | .removeRoomFromLobby .. => true
  | _ => false

/-! ## Memberships -/

def memberships (s : Store) (roomId : Uuid) : List LobbyRoom :=
  s.lobbyRooms.filter fun lr => decide (lr.roomId = roomId)

/-- The lobby of the membership is not deleted. -/
def inLive (s : Store) (lr : LobbyRoom) : Bool :=
  s.lobbies.any fun l => live l && decide (l.lobbyId = lr.lobbyId)

def liveMemberships (s : Store) (roomId : Uuid) : List LobbyRoom :=
  (memberships s roomId).filter (inLive s)

/-- The memberships that deleted lobbies have left. -/
def strandedMemberships (s : Store) (roomId : Uuid) : List LobbyRoom :=
  (memberships s roomId).filter fun lr => !inLive s lr

theorem inLive_iff {s : Store} {lr : LobbyRoom} :
    inLive s lr = true ↔ ∃ l ∈ s.lobbies, live l = true ∧ l.lobbyId = lr.lobbyId := by
  simp [inLive]

theorem length_memberships (s : Store) (roomId : Uuid) : (memberships s roomId).length =
    (liveMemberships s roomId).length + (strandedMemberships s roomId).length :=
  List.length_eq_length_filter_add (inLive s)

/-- A live lobby and a live room of one app, the room not in the lobby. -/
structure Addable (s : Store) (lobbyId roomId appId : Uuid) : Prop where
  lobby : ∃ l ∈ s.lobbies, live l = true ∧ l.lobbyId = lobbyId ∧ l.appId = appId
  room : ∃ r ∈ s.rooms, live r = true ∧ r.roomId = roomId ∧ r.appId = appId
  apart : ∀ lr ∈ s.lobbyRooms, lr.lobbyId = lobbyId → lr.roomId ≠ roomId

def Succeeds {α : Type} (o : Outcome α) : Prop := ∃ a db', o = .ok (a, db')

theorem Succeeds.of_commit {α : Type} {s : Store} {a : α} (h : s.SchemaValid) :
    Succeeds (commit s a) := by
  unfold commit
  rw [dif_pos h]
  exact ⟨a, _, rfl⟩

theorem not_succeeds_error {α : Type} {e : CoreError} : ¬ Succeeds (.error e : Outcome α) := by
  rintro ⟨a, db', h⟩
  cases h

/-- A new membership of a stored lobby and a stored room breaks no constraint. -/
theorem schemaValid_member {s : Store} (hv : s.SchemaValid) {lr : LobbyRoom}
    (hlobby : ∃ l ∈ s.lobbies, l.lobbyId = lr.lobbyId) (hroom : ∃ r ∈ s.rooms, r.roomId = lr.roomId)
    (hapart : ∀ r ∈ s.lobbyRooms, r.lobbyId = lr.lobbyId → r.roomId ≠ lr.roomId) :
    Store.SchemaValid { s with lobbyRooms := s.lobbyRooms ++ [lr] } := by
  have hpk : UniqueOn (fun r : LobbyRoom => (r.lobbyId, r.roomId)) (s.lobbyRooms ++ [lr]) := by
    refine hv.pkLobbyRoom.append_of_ne (List.nodup_singleton _) ?_
    intro r hr r' hr' heq
    cases List.mem_singleton.1 hr'
    have hkey := Prod.ext_iff.1 heq
    exact hapart r hr hkey.1 hkey.2
  have hfkLobby : References (s.lobbyRooms ++ [lr]) (some ·.lobbyId) s.lobbies Lobby.lobbyId := by
    intro r hr k hk
    rcases List.mem_append.1 hr with hr | hr
    · exact hv.fkMemberLobby r hr k hk
    · cases List.mem_singleton.1 hr
      cases hk
      exact hlobby
  have hfkRoom : References (s.lobbyRooms ++ [lr]) (some ·.roomId) s.rooms Room.roomId := by
    intro r hr k hk
    rcases List.mem_append.1 hr with hr | hr
    · exact hv.fkMemberRoom r hr k hk
    · cases List.mem_singleton.1 hr
      cases hk
      exact hroom
  exact { hv with pkLobbyRoom := hpk, fkMemberLobby := hfkLobby, fkMemberRoom := hfkRoom }

theorem findAll_pos {α : Type} [SoftDelete α] {rows : List α} {p : α → Bool}
    (h : ∃ r ∈ rows, live r = true ∧ p r = true) : 0 < (findAll rows p).length := by
  obtain ⟨r, hr, hl, hp⟩ := h
  exact List.length_pos_of_mem (mem_findAll.2 ⟨hr, hl, hp⟩)

/-- The addition succeeds exactly while the room has a place left, counted by rows. -/
theorem addRoom_iff {db : Database} {lobbyId roomId appId : Uuid}
    (h : Addable db.store lobbyId roomId appId) :
    Succeeds (addRoomToLobby db lobbyId roomId appId) ↔
      (memberships db.store roomId).length < maxLobbiesPerRoom := by
  obtain ⟨l, hl, hll, hlid, hlapp⟩ := h.lobby
  obtain ⟨r, hr, hrl, hrid, hrapp⟩ := h.room
  have hlobby : 0 < (findAll db.store.lobbies fun l =>
      decide (l.lobbyId = lobbyId) && decide (l.appId = appId)).length :=
    findAll_pos ⟨l, hl, hll, by simp [hlid, hlapp]⟩
  have hroom : 0 < (findAll db.store.rooms fun r =>
      decide (r.roomId = roomId) && decide (r.appId = appId)).length :=
    findAll_pos ⟨r, hr, hrl, by simp [hrid, hrapp]⟩
  have hnil : (db.store.lobbyRooms.filter fun lr =>
      decide (lr.lobbyId = lobbyId) && decide (lr.roomId = roomId)) = [] := by
    rw [List.filter_eq_nil_iff]
    intro lr hlr
    simpa using h.apart lr hlr
  have hnew : (db.store.lobbyRooms.any fun lr =>
      decide (lr.lobbyId = lobbyId) && decide (lr.roomId = roomId)) = false := by
    rw [List.any_eq_false]
    intro lr hlr
    simpa using h.apart lr hlr
  unfold addRoomToLobby
  simp only [validateAddRoomToLobby, hlobby, hroom, hnil, List.length_nil, lt_self_iff_false,
    decide_true, decide_false, Bool.true_eq_false, Bool.false_eq_true, if_false]
  split
  · rename_i hfull
    refine iff_of_false not_succeeds_error ?_
    exact Nat.not_lt.2 hfull
  · rename_i hplace
    refine iff_of_true ?_ (Nat.lt_of_not_le hplace)
    unfold saveMember
    rw [hnew]
    exact .of_commit (schemaValid_member db.valid ⟨l, hl, hlid⟩ ⟨r, hr, hrid⟩ h.apart)

/-- Every addition to a live lobby succeeds while the room is in fewer than ten live lobbies. -/
def KeepsCapacity (db : Database) : Prop :=
  ∀ lobbyId roomId appId, Addable db.store lobbyId roomId appId →
    (liveMemberships db.store roomId).length < maxLobbiesPerRoom →
    Succeeds (addRoomToLobby db lobbyId roomId appId)

/-! ## Lobbies emptied before they are deleted -/

/-- Every membership is one of a live lobby. -/
def NoneStranded (s : Store) : Prop := ∀ lr ∈ s.lobbyRooms, inLive s lr = true

theorem NoneStranded.length_eq_zero {s : Store} (h : NoneStranded s) (roomId : Uuid) :
    (strandedMemberships s roomId).length = 0 := by
  rw [List.length_eq_zero_iff]
  refine List.filter_eq_nil_iff.2 fun lr hlr => ?_
  simp [h lr (List.mem_of_mem_filter hlr)]

/-- The operation does not delete a lobby that has members. -/
def EmptiesFirst (db : Database) (l : Int × Operation) : Prop :=
  match l.2 with
  | .deleteLobby lobbyId appId => (findByIdAndApp db.store lobbyId appId).isSome = true →
    ∀ lr ∈ db.store.lobbyRooms, lr.lobbyId ≠ lobbyId
  | _ => True

theorem inLive_append {s : Store} {lobbies : List Lobby} {lr : LobbyRoom} (h : inLive s lr = true) :
    inLive { s with lobbies := s.lobbies ++ lobbies } lr = true := by
  obtain ⟨l, hl, hll, hid⟩ := inLive_iff.1 h
  exact inLive_iff.2 ⟨l, List.mem_append_left _ hl, hll, hid⟩

section

variable {host : Host} {now : Int} {db : Database} (hI : NoneStranded db.store)

include hI

theorem noneStranded_onlyRooms {s' : Store} (h : OnlyRooms db.store s') : NoneStranded s' := by
  obtain ⟨rooms, rfl⟩ := h
  exact hI

theorem noneStranded_createLobby {lobbyId appId : Uuid} {data : LobbyCreateDto} :
    Leaves (createLobby db lobbyId appId data) NoneStranded := by
  unfold createLobby
  dsimp only
  split
  · exact .error
  · unfold insertLobby
    split
    · exact .error
    · exact .commit fun lr hlr => inLive_append (hI lr hlr)

theorem noneStranded_updateLobby {lobbyId appId : Uuid} {data : LobbyPatchDto} :
    Leaves (updateLobby db lobbyId appId data) NoneStranded := by
  unfold updateLobby
  split
  · exact .error
  · rename_i existing hf
    obtain ⟨_, hlive, _⟩ := of_findOne hf
    refine .commit fun lr hlr => ?_
    obtain ⟨l, hl, hll, hid⟩ := inLive_iff.1 (hI lr hlr)
    refine inLive_iff.2 ⟨_, List.mem_map_of_mem hl, ?_⟩
    split
    · rename_i hsame
      exact ⟨hlive, hsame.symm.trans hid⟩
    · exact ⟨hll, hid⟩

theorem noneStranded_deleteLobby {lobbyId appId : Uuid}
    (hC : EmptiesFirst db (now, .deleteLobby lobbyId appId)) :
    Leaves (deleteLobby db now lobbyId appId) NoneStranded := by
  unfold deleteLobby
  split
  · exact .error
  · rename_i l₀ hf
    refine .commit fun lr hlr => ?_
    obtain ⟨l, hl, hll, hid⟩ := inLive_iff.1 (hI lr hlr)
    have hne : lr.lobbyId ≠ lobbyId := hC (Option.isSome_iff_exists.2 ⟨l₀, hf⟩) lr hlr
    refine inLive_iff.2 ⟨_, List.mem_map_of_mem hl, ?_⟩
    rw [if_neg]
    · exact ⟨hll, hid⟩
    · intro hdel
      simp only [Bool.and_eq_true, decide_eq_true_eq] at hdel
      exact hne (hid.symm.trans hdel.1.1)

theorem noneStranded_addRoom {lobbyId roomId appId : Uuid} :
    Leaves (addRoomToLobby db lobbyId roomId appId) NoneStranded := by
  unfold addRoomToLobby
  dsimp only
  split
  · exact .error
  · rename_i hlobby
    split
    · exact .error
    · split
      · exact .error
      · split
        · exact .error
        · refine .commit fun lr hlr => ?_
          rcases mem_saveMember hlr with hlr | rfl
          · exact hI lr hlr
          · obtain ⟨l, hl, hll, hlp⟩ :=
              exists_of_findAll_pos (of_decide_eq_true (Bool.not_eq_false _ ▸ hlobby))
            simp only [Bool.and_eq_true, decide_eq_true_eq] at hlp
            exact inLive_iff.2 ⟨l, hl, hll, hlp.1⟩

theorem noneStranded_removeRoom {lobbyId roomId appId : Uuid} :
    Leaves (removeRoomFromLobby db lobbyId roomId appId) NoneStranded := by
  unfold removeRoomFromLobby
  split
  · exact .error
  · exact .commit fun lr hlr => hI lr (List.mem_of_mem_filter hlr)

theorem noneStranded_static {ids : Nat → Uuid} {appId : Uuid} {lobbies : List StaticLobby}
    {createdRooms : List (Uuid × String)} :
    Leaves (createStaticLobbiesFromConfig db ids appId lobbies createdRooms) NoneStranded := by
  refine .commit fun lr hlr => ?_
  rcases mem_saveMembers hlr with hlr | hlr
  · exact inLive_append (hI lr hlr)
  · obtain ⟨i, lobby, declared, slug, hl, hd, _, _, hid⟩ := mem_staticMembers hlr
    refine inLive_iff.2 ⟨lobby, List.mem_append_right _ (List.mem_of_getElem? hl), ?_, hid.symm⟩
    obtain ⟨_, declared', _, rfl⟩ := mem_mapIdx_iff.1 (List.mem_of_getElem? hl)
    rfl

/-- What one operation keeps. -/
theorem noneStranded_step {op : Operation} {db' : Database} (hop : OfLobbies op = true)
    (hC : EmptiesFirst db (now, op)) (h : op.run host now db = .ok db') :
    NoneStranded db'.store := by
  cases op with
  | createRoom roomId appId data => exact noneStranded_onlyRooms hI (room_create_rooms.committed h)
  | ensureRoom roomId appId data maxRooms =>
    exact noneStranded_onlyRooms hI (room_ensure_rooms.committed h)
  | updateRoom roomId appId data => exact noneStranded_onlyRooms hI (room_update_rooms.committed h)
  | deleteRoom roomId appId => exact noneStranded_onlyRooms hI (room_delete_rooms.committed h)
  | createStaticRooms ids appId rooms =>
    exact noneStranded_onlyRooms hI (room_static_rooms.committed h)
  | createLobby lobbyId appId data => exact (noneStranded_createLobby hI).committed h
  | updateLobby lobbyId appId data => exact (noneStranded_updateLobby hI).committed h
  | deleteLobby lobbyId appId => exact (noneStranded_deleteLobby hI hC).committed h
  | addRoomToLobby lobbyId roomId appId => exact (noneStranded_addRoom hI).committed h
  | removeRoomFromLobby lobbyId roomId appId => exact (noneStranded_removeRoom hI).committed h
  | createStaticLobbies ids appId lobbies createdRooms =>
    exact (noneStranded_static hI).committed h
  | _ => cases hop

end

theorem noneStranded_run {host : Host} {start db : Database} {run : List (Int × Operation)}
    (hstart : NoneStranded start.store) (hops : ∀ l ∈ run, OfLobbies l.2 = true)
    (hempty : Meets (configure host) EmptiesFirst start run)
    (hrun : exec (configure host) start run = some db) : NoneStranded db.store := by
  refine exec_invariant (I := fun db => NoneStranded db.store) ?_ run start db hstart
    (hempty.and hops) hrun
  intro db l db' hI hC hstep
  cases hstep
  unfold Operation.apply
  split
  · rename_i db' hok
    exact noneStranded_step hI hC.2 hC.1 hok
  · exact hI

/-- Over every run of lobby and room operations that empties each lobby before deleting it, no place
is lost. In every state any such run reaches, whatever it deletes, the addition succeeds exactly
while live and stranded memberships leave a place. -/
theorem capacity_of_run (host : Host) (start db : Database) (run : List (Int × Operation))
    (hstart : NoneStranded start.store) (hops : ∀ l ∈ run, OfLobbies l.2 = true)
    (hrun : exec (configure host) start run = some db) :
    (Meets (configure host) EmptiesFirst start run → KeepsCapacity db) ∧
      ∀ lobbyId roomId appId, Addable db.store lobbyId roomId appId →
        (Succeeds (addRoomToLobby db lobbyId roomId appId) ↔
          (liveMemberships db.store roomId).length + (strandedMemberships db.store roomId).length <
            maxLobbiesPerRoom) := by
  constructor
  · intro hempty lobbyId roomId appId hadd hfew
    have hnone := noneStranded_run hstart hops hempty hrun
    rw [addRoom_iff hadd, length_memberships, hnone.length_eq_zero]
    exact hfew
  · intro lobbyId roomId appId hadd
    rw [addRoom_iff hadd, length_memberships]

/-! ## Places that are never given back -/

/-- An app, before its first room and its first lobby. -/
def sampleApp : Database :=
  ⟨{ projects := [{ projectId := .of "p", name := "acme" }]
     apps := [{ appId := .of "app", projectId := .of "p", slug := "chat", name := "Chat" }] },
    by decide⟩

def createRoomAndLobby : List (Int × Operation) :=
  [(0, .createRoom (.of "room") (.of "app") { slug := some "lobby", name := "Lobby" }),
    (0, .createLobby (.of "l0") (.of "app") { slug := some "hall", name := "Hall" }),
    (0, .addRoomToLobby (.of "l0") (.of "room") (.of "app"))]

/-- The room is removed before its lobby is deleted, beside a lobby that stays. -/
def emptiedRun : List (Int × Operation) :=
  createRoomAndLobby ++
    [(1, .createLobby (.of "l1") (.of "app") { slug := some "foyer", name := "Foyer" }),
      (1, .removeRoomFromLobby (.of "l0") (.of "room") (.of "app")),
      (2, .deleteLobby (.of "l0") (.of "app"))]

/-- Afterwards the room may go into the lobby that stayed. -/
theorem capacity_of_run_emptied : ∃ db, exec (configure sampleHost) sampleApp emptiedRun = some db ∧
    Succeeds (addRoomToLobby db (.of "l1") (.of "room") (.of "app")) := by
  have hempties : Meets (configure sampleHost) EmptiesFirst sampleApp emptiedRun := by
    refine ⟨trivial, fun _ h₁ => ⟨trivial, fun _ h₂ => ⟨trivial, fun _ h₃ =>
      ⟨trivial, fun _ h₄ => ⟨trivial, fun _ h₅ => ⟨?_, fun _ _ => trivial⟩⟩⟩⟩⟩⟩
    cases h₁
    cases h₂
    cases h₃
    cases h₄
    cases h₅
    intro _ lr hlr
    revert lr
    decide
  have hstart : NoneStranded sampleApp.store := fun lr hlr => nomatch hlr
  refine ⟨_, rfl, ?_⟩
  have hkeeps :=
    (capacity_of_run sampleHost sampleApp _ emptiedRun hstart (by decide) rfl).1 hempties
  exact hkeeps (.of "l1") (.of "room") (.of "app") ⟨by decide, by decide, by decide⟩ (by decide)

/-- Eleven declared lobbies, the room in all but the last, and ten deleted. -/
def strandingRun : List (Int × Operation) :=
  [(0, .createStaticRooms (fun _ => .of "room") (.of "app") [{ slug := "lobby", name := "Lobby" }]),
    (0, .createStaticLobbies (fun i => .of (toString i)) (.of "app")
      ((List.range 11).map fun i =>
        { slug := toString i, name := "Hall", rooms := if i < 10 then some ["lobby"] else none })
      [(.of "room", "lobby")])] ++
  (List.range 10).map fun i => (1, .deleteLobby (.of (toString i)) (.of "app"))

/-- A room that is in no live lobby has no place left. -/
theorem deleted_lobbies_keep_places :
    ¬ ∀ (host : Host) (start db : Database) (run : List (Int × Operation)),
      start.store.rooms = [] → start.store.lobbies = [] → start.store.lobbyRooms = [] →
      (∀ l ∈ run, OfLobbies l.2 = true) → exec (configure host) start run = some db →
      KeepsCapacity db := by
  intro hevery
  have hkeeps := hevery sampleHost sampleApp _ strandingRun rfl rfl rfl (by decide) rfl
  obtain ⟨lr, db', h⟩ := hkeeps (.of "10") (.of "room") (.of "app") ⟨by decide, by decide, by decide⟩
    (by decide)
  cases h

end LobbyFacade
end NolagCore
