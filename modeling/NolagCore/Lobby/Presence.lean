import NolagCore.Common.TtlCache
import NolagCore.Lobby.Capacity

/-!
# Lobby.Presence

Membership as the presence path reads it: through two caches of one instance, kept for two minutes
and dropped by the operations that change it. The database compares ids as uuids, the caches go by
the text each caller wrote. Deleting a lobby drops its entry under one spelling and leaves its
membership rows, from which the next read fills it again. A deleted lobby is gone for every later
read exactly when it had no members at its deletion, nor a fresh list of them under another spelling
of its id.
-/

namespace NolagCore
namespace LobbyFacade

open Lib Facade

/-! ## The instance -/

def membershipCacheTtlMs : Int := 120000

/-- The database and the caches of one `LobbyFacade`. -/
structure Instance where
  db : Database
  lobbiesForRoomCache : TtlCache (List LobbyRoom) := { ttlMs := membershipCacheTtlMs }
  lobbyRoomsCache : TtlCache (List LobbyRoom) := { ttlMs := membershipCacheTtlMs }

/-- `LobbyRoomRepository.findByLobbyId`. -/
def findByLobbyId (s : Store) (lobbyId : Uuid) : List LobbyRoom :=
  findAll s.lobbyRooms fun lr => decide (lr.lobbyId = lobbyId)

/-- `LobbyRoomRepository.findByRoomId`. -/
def findByRoomId (s : Store) (roomId : Uuid) : List LobbyRoom :=
  findAll s.lobbyRooms fun lr => decide (lr.roomId = roomId)

namespace Instance

/-- The instance after a transaction: `db` committed, or as it was where it threw. -/
def after {α : Type} (st : Instance) (o : Outcome α) (dropped : Instance → Instance) :
    Except CoreError Instance :=
  match o with
  | .ok r => .ok { dropped st with db := r.2 }
  | .error e => .error e

/-- The entries of one membership, under the texts of the call. -/
def dropMember (lobbyId roomId : IdText) (st : Instance) : Instance :=
  { st with
    lobbiesForRoomCache := st.lobbiesForRoomCache.delete roomId.text
    lobbyRoomsCache := st.lobbyRoomsCache.delete lobbyId.text }

/-- The entry of one lobby, under the text of the call, and every entry of a room. -/
def dropLobby (lobbyId : IdText) (st : Instance) : Instance :=
  { st with
    lobbyRoomsCache := st.lobbyRoomsCache.delete lobbyId.text
    lobbiesForRoomCache := st.lobbiesForRoomCache.clear }

def createLobby (st : Instance) (lobbyId appId : Uuid) (data : LobbyCreateDto) :
    Except CoreError Instance :=
  st.after (LobbyFacade.createLobby st.db lobbyId appId data) id

def updateLobby (st : Instance) (lobbyId appId : Uuid) (data : LobbyPatchDto) :
    Except CoreError Instance :=
  st.after (LobbyFacade.updateLobby st.db lobbyId appId data) id

def deleteLobby (st : Instance) (now : Int) (lobbyId : IdText) (appId : Uuid) :
    Except CoreError Instance :=
  st.after (LobbyFacade.deleteLobby st.db now lobbyId.uuid appId) (dropLobby lobbyId)

def addRoomToLobby (st : Instance) (lobbyId roomId : IdText) (appId : Uuid) :
    Except CoreError Instance :=
  st.after (LobbyFacade.addRoomToLobby st.db lobbyId.uuid roomId.uuid appId)
    (dropMember lobbyId roomId)

def removeRoomFromLobby (st : Instance) (lobbyId roomId : IdText) (appId : Uuid) :
    Except CoreError Instance :=
  st.after (LobbyFacade.removeRoomFromLobby st.db lobbyId.uuid roomId.uuid appId)
    (dropMember lobbyId roomId)

/-- Provisioning drops nothing. -/
def createStaticLobbiesFromConfig (st : Instance) (ids : Nat → Uuid) (appId : Uuid)
    (lobbies : List StaticLobby) (createdRooms : List (Uuid × String)) :
    Except CoreError Instance :=
  st.after (LobbyFacade.createStaticLobbiesFromConfig st.db ids appId lobbies createdRooms) id

def findLobbiesForRoom (st : Instance) (now : Int) (roomId : IdText) : List LobbyRoom × Instance :=
  match st.lobbiesForRoomCache.get now roomId.text with
  | (some cached, cache) => (cached, { st with lobbiesForRoomCache := cache })
  | (none, cache) =>
    let rows := findByRoomId st.db.store roomId.uuid
    (rows, { st with lobbiesForRoomCache := cache.set now roomId.text rows })

def listLobbyRoomsCached (st : Instance) (now : Int) (lobbyId : IdText) :
    List LobbyRoom × Instance :=
  match st.lobbyRoomsCache.get now lobbyId.text with
  | (some cached, cache) => (cached, { st with lobbyRoomsCache := cache })
  | (none, cache) =>
    let rows := findByLobbyId st.db.store lobbyId.uuid
    (rows, { st with lobbyRoomsCache := cache.set now lobbyId.text rows })

end Instance

/-- The calls that write or go through a cache. -/
inductive Call where
  | createLobby (lobbyId appId : Uuid) (data : LobbyCreateDto)
  | updateLobby (lobbyId appId : Uuid) (data : LobbyPatchDto)
  | deleteLobby (lobbyId : IdText) (appId : Uuid)
  | addRoomToLobby (lobbyId roomId : IdText) (appId : Uuid)
  | removeRoomFromLobby (lobbyId roomId : IdText) (appId : Uuid)
  | createStaticLobbies (ids : Nat → Uuid) (appId : Uuid) (lobbies : List StaticLobby)
      (createdRooms : List (Uuid × String))
  | findLobbiesForRoom (roomId : IdText)
  | listLobbyRoomsCached (lobbyId : IdText)

def Call.run (now : Int) (st : Instance) : Call → Except CoreError Instance
  | .createLobby lobbyId appId data => st.createLobby lobbyId appId data
  | .updateLobby lobbyId appId data => st.updateLobby lobbyId appId data
  | .deleteLobby lobbyId appId => st.deleteLobby now lobbyId appId
  | .addRoomToLobby lobbyId roomId appId => st.addRoomToLobby lobbyId roomId appId
  | .removeRoomFromLobby lobbyId roomId appId => st.removeRoomFromLobby lobbyId roomId appId
  | .createStaticLobbies ids appId lobbies createdRooms =>
    st.createStaticLobbiesFromConfig ids appId lobbies createdRooms
  | .findLobbiesForRoom roomId => .ok (st.findLobbiesForRoom now roomId).2
  | .listLobbyRoomsCached lobbyId => .ok (st.listLobbyRoomsCached now lobbyId).2

/-- One call at its instant; one that throws leaves the instance as it was. -/
def serve (st : Instance) (l : Int × Call) : Option Instance :=
  match l.2.run l.1 st with
  | .ok st' => some st'
  | .error _ => some st

/-- No read from `since` on finds the lobby, however its id is written. -/
def Gone (st : Instance) (since : Int) (lobbyId : Uuid) : Prop :=
  ∀ now, since ≤ now →
    (∀ roomId, ∀ lr ∈ (st.findLobbiesForRoom now roomId).1, lr.lobbyId ≠ lobbyId) ∧
    ∀ listed : IdText, listed.uuid = lobbyId → (st.listLobbyRoomsCached now listed).1 = []

/-! ## A lobby deleted empty -/

/-- The lobby is stored, deleted and without members. -/
structure Retired (s : Store) (lobbyId : Uuid) : Prop where
  row : ∃ l ∈ s.lobbies, l.lobbyId = lobbyId
  dead : ∀ l ∈ s.lobbies, l.lobbyId = lobbyId → live l = false
  empty : ∀ lr ∈ s.lobbyRooms, live lr = true → lr.lobbyId ≠ lobbyId

/-- No list of members under any spelling of the id is fresh at `since` or later. -/
def NoneListed (since : Int) (lobbyId : Uuid) (cache : TtlCache (List LobbyRoom)) : Prop :=
  ∀ listed : IdText, listed.uuid = lobbyId → ∀ now rows, since ≤ now →
    cache.Holds now listed.text rows → rows = []

/-- The lobby is retired, and neither cache holds a member of it. -/
structure Cleared (st : Instance) (since : Int) (lobbyId : Uuid) : Prop where
  retired : Retired st.db.store lobbyId
  forRoom : st.lobbiesForRoomCache.Every fun _ rows => ∀ lr ∈ rows, lr.lobbyId ≠ lobbyId
  ofLobby : NoneListed since lobbyId st.lobbyRoomsCache

theorem Retired.findByRoomId {s : Store} {lobbyId : Uuid} (h : Retired s lobbyId) (roomId : Uuid) :
    ∀ lr ∈ LobbyFacade.findByRoomId s roomId, lr.lobbyId ≠ lobbyId := by
  intro lr hlr
  obtain ⟨hrow, hl, _⟩ := mem_findAll.1 hlr
  exact h.empty lr hrow hl

theorem Retired.findByLobbyId {s : Store} {lobbyId : Uuid} (h : Retired s lobbyId) :
    LobbyFacade.findByLobbyId s lobbyId = [] := by
  refine List.eq_nil_iff_forall_not_mem.2 fun lr hlr => ?_
  obtain ⟨hrow, hl, hid⟩ := mem_findAll.1 hlr
  exact h.empty lr hrow hl (of_decide_eq_true hid)

theorem NoneListed.delete {since : Int} {lobbyId : Uuid} {cache : TtlCache (List LobbyRoom)}
    (h : NoneListed since lobbyId cache) (key : String) :
    NoneListed since lobbyId (cache.delete key) := fun listed hid now rows hnow hold =>
  h listed hid now rows hnow (TtlCache.holds_of_delete hold).2

theorem NoneListed.get {since : Int} {lobbyId : Uuid} {cache : TtlCache (List LobbyRoom)}
    (h : NoneListed since lobbyId cache) (t : Int) (key : String) :
    NoneListed since lobbyId (cache.get t key).2 := fun listed hid now rows hnow hold =>
  h listed hid now rows hnow (TtlCache.holds_of_get hold)

theorem Cleared.gone {st : Instance} {since : Int} {lobbyId : Uuid} (h : Cleared st since lobbyId) :
    Gone st since lobbyId := by
  intro now hnow
  constructor
  · intro roomId
    unfold Instance.findLobbiesForRoom
    split
    · rename_i cached cache hget
      exact h.forRoom.of_get (congrArg Prod.fst hget)
    · exact h.retired.findByRoomId roomId.uuid
  · intro listed hid
    unfold Instance.listLobbyRoomsCached
    split
    · rename_i cached cache hget
      exact h.ofLobby listed hid now cached hnow (TtlCache.get_eq_some (congrArg Prod.fst hget))
    · rw [hid]
      exact h.retired.findByLobbyId

/-! ## What a write keeps -/

section Writes

variable {db : Database} {lobbyId : Uuid} (h : Retired db.store lobbyId)

/-- The store an operation leaves keeps the lobby retired. -/
def KeepsRetired (lobbyId : Uuid) (s : Store) : Prop := s.SchemaValid → Retired s lobbyId

include h

/-- New lobbies have new ids, and their members are their own. -/
theorem Retired.append {lobbies : List Lobby} {lobbyRooms : List LobbyRoom}
    (hv : UniqueOn Lobby.lobbyId (db.store.lobbies ++ lobbies))
    (hrooms : ∀ lr ∈ lobbyRooms, lr ∈ db.store.lobbyRooms ∨ ∃ l ∈ lobbies, l.lobbyId = lr.lobbyId) :
    Retired { db.store with lobbies := db.store.lobbies ++ lobbies, lobbyRooms := lobbyRooms }
      lobbyId := by
  obtain ⟨l₀, hl₀, hid₀⟩ := h.row
  have hnew : ∀ l ∈ lobbies, l.lobbyId ≠ lobbyId := by
    intro l hl hid
    exact hv.ne_of_append hl₀ hl (hid₀.trans hid.symm)
  constructor
  · exact ⟨l₀, List.mem_append_left _ hl₀, hid₀⟩
  · intro l hl hid
    rcases List.mem_append.1 hl with hl | hl
    · exact h.dead l hl hid
    · exact absurd hid (hnew l hl)
  · intro lr hlr hlive
    rcases hrooms lr hlr with hlr | ⟨l, hl, hid⟩
    · exact h.empty lr hlr hlive
    · exact hid ▸ hnew l hl

theorem keepsRetired_createLobby {newId appId : Uuid} {data : LobbyCreateDto} :
    Leaves (createLobby db newId appId data) (KeepsRetired lobbyId) := by
  unfold createLobby
  dsimp only
  split
  · exact .error
  · unfold insertLobby
    split
    · exact .error
    · exact .commit fun hv => h.append hv.pkLobby fun lr hlr => .inl hlr

theorem keepsRetired_updateLobby {savedId appId : Uuid} {data : LobbyPatchDto} :
    Leaves (updateLobby db savedId appId data) (KeepsRetired lobbyId) := by
  unfold updateLobby
  split
  · exact .error
  · rename_i existing hf
    obtain ⟨hex, hlive, _⟩ := of_findOne hf
    have hne : existing.lobbyId ≠ lobbyId := by
      intro hid
      exact Bool.noConfusion ((h.dead existing hex hid).symm.trans hlive)
    refine .commit fun _ => ⟨?_, ?_, h.empty⟩
    · obtain ⟨l, hl, hid⟩ := h.row
      refine ⟨_, List.mem_map_of_mem hl, ?_⟩
      rw [if_neg]
      · exact hid
      · intro hsame
        exact hne (hsame.symm.trans hid)
    · intro l hl hid
      rcases mem_saveRow hl with rfl | hl
      · exact absurd hid hne
      · exact h.dead l hl hid

theorem keepsRetired_deleteLobby {now : Int} {deletedId appId : Uuid} :
    Leaves (deleteLobby db now deletedId appId) (KeepsRetired lobbyId) := by
  unfold deleteLobby
  split
  · exact .error
  · refine .commit fun _ => ⟨?_, ?_, h.empty⟩
    · obtain ⟨l, hl, hid⟩ := h.row
      refine ⟨_, List.mem_map_of_mem hl, ?_⟩
      split
      · exact hid
      · exact hid
    · intro l hl hid
      rcases mem_updateRows hl with ⟨l₀, _, _, rfl⟩ | hl
      · rfl
      · exact h.dead l hl hid

theorem keepsRetired_addRoom {intoId roomId appId : Uuid} :
    Leaves (addRoomToLobby db intoId roomId appId) (KeepsRetired lobbyId) := by
  unfold addRoomToLobby
  dsimp only
  split
  · exact .error
  · rename_i hlobby
    split
    · exact .error
    · split
      · exact .error
      · split
        · exact .error
        · refine .commit fun _ => ⟨h.row, h.dead, fun lr hlr hlive => ?_⟩
          rcases mem_saveMember hlr with hlr | rfl
          · exact h.empty lr hlr hlive
          · -- the lobby the room went into is live
            obtain ⟨l, hl, hll, hlp⟩ :=
              exists_of_findAll_pos (of_decide_eq_true (Bool.not_eq_false _ ▸ hlobby))
            simp only [Bool.and_eq_true, decide_eq_true_eq] at hlp
            intro hid
            exact Bool.noConfusion ((h.dead l hl (hlp.1.trans hid)).symm.trans hll)

theorem keepsRetired_removeRoom {fromId roomId appId : Uuid} :
    Leaves (removeRoomFromLobby db fromId roomId appId) (KeepsRetired lobbyId) := by
  unfold removeRoomFromLobby
  split
  · exact .error
  · refine .commit fun _ => ⟨h.row, h.dead, fun lr hlr hlive => ?_⟩
    exact h.empty lr (List.mem_of_mem_filter hlr) hlive

theorem keepsRetired_static {ids : Nat → Uuid} {appId : Uuid} {lobbies : List StaticLobby}
    {createdRooms : List (Uuid × String)} :
    Leaves (createStaticLobbiesFromConfig db ids appId lobbies createdRooms)
      (KeepsRetired lobbyId) := by
  refine .commit fun hv => h.append hv.pkLobby fun lr hlr => ?_
  rcases mem_saveMembers hlr with hlr | hlr
  · exact .inl hlr
  · obtain ⟨i, lobby, declared, slug, hl, _, _, _, hid⟩ := mem_staticMembers hlr
    exact .inr ⟨lobby, List.mem_of_getElem? hl, hid.symm⟩

end Writes

/-! ## Runs -/

section

variable {st st' : Instance} {since : Int} {lobbyId : Uuid}

theorem after_ok {α : Type} {o : Outcome α} {dropped : Instance → Instance}
    (h : st.after o dropped = .ok st') :
    ∃ a db', o = .ok (a, db') ∧ st' = { dropped st with db := db' } := by
  unfold Instance.after at h
  split at h
  · cases h
    exact ⟨_, _, rfl, rfl⟩
  · cases h

/-- A transaction that keeps the lobby retired, after which entries are dropped. -/
theorem cleared_after {α : Type} {o : Outcome α} {dropped : Instance → Instance}
    (hrun : st.after o dropped = .ok st') (ho : Leaves o (KeepsRetired lobbyId))
    (hroom : (dropped st).lobbiesForRoomCache.Every fun _ rows => ∀ lr ∈ rows, lr.lobbyId ≠ lobbyId)
    (hlobby : NoneListed since lobbyId (dropped st).lobbyRoomsCache) :
    Cleared st' since lobbyId := by
  obtain ⟨a, db', rfl, rfl⟩ := after_ok hrun
  exact ⟨ho a db' rfl db'.valid, hroom, hlobby⟩

theorem Cleared.findLobbiesForRoom (h : Cleared st since lobbyId) (now : Int) (roomId : IdText) :
    Cleared (st.findLobbiesForRoom now roomId).2 since lobbyId := by
  have hcache := h.forRoom.get now roomId.text
  unfold Instance.findLobbiesForRoom
  split
  · rename_i cached cache hget
    rw [hget] at hcache
    exact { h with forRoom := hcache }
  · rename_i cache hget
    rw [hget] at hcache
    exact { h with forRoom := hcache.set now (h.retired.findByRoomId roomId.uuid) }

theorem Cleared.listLobbyRoomsCached (h : Cleared st since lobbyId) (now : Int)
    (listedId : IdText) : Cleared (st.listLobbyRoomsCached now listedId).2 since lobbyId := by
  have hcache := h.ofLobby.get now listedId.text
  unfold Instance.listLobbyRoomsCached
  split
  · rename_i cached cache hget
    rw [hget] at hcache
    exact { h with ofLobby := hcache }
  · rename_i cache hget
    rw [hget] at hcache
    refine { h with ofLobby := fun listed hid t rows ht hold => ?_ }
    rcases TtlCache.holds_of_set hold with ⟨hkey, rfl, -⟩ | hold
    · -- what was read of the rows is stored
      rw [← IdText.ext_text hkey, hid]
      exact h.retired.findByLobbyId
    · exact hcache listed hid t rows ht hold

theorem Cleared.run {now : Int} {call : Call} (h : Cleared st since lobbyId)
    (hrun : call.run now st = .ok st') : Cleared st' since lobbyId := by
  cases call with
  | createLobby newId appId data =>
    exact cleared_after hrun (keepsRetired_createLobby h.retired) h.forRoom h.ofLobby
  | updateLobby savedId appId data =>
    exact cleared_after hrun (keepsRetired_updateLobby h.retired) h.forRoom h.ofLobby
  | deleteLobby deletedId appId =>
    exact cleared_after hrun (keepsRetired_deleteLobby h.retired) TtlCache.every_clear (h.ofLobby.delete _)
  | addRoomToLobby intoId roomId appId =>
    exact cleared_after hrun (keepsRetired_addRoom h.retired) (h.forRoom.delete _) (h.ofLobby.delete _)
  | removeRoomFromLobby fromId roomId appId =>
    exact cleared_after hrun (keepsRetired_removeRoom h.retired) (h.forRoom.delete _) (h.ofLobby.delete _)
  | createStaticLobbies ids appId lobbies createdRooms =>
    exact cleared_after hrun (keepsRetired_static h.retired) h.forRoom h.ofLobby
  | findLobbiesForRoom roomId =>
    cases hrun
    exact h.findLobbiesForRoom now roomId
  | listLobbyRoomsCached listedId =>
    cases hrun
    exact h.listLobbyRoomsCached now listedId

theorem Cleared.later {run : List (Int × Call)} (h : Cleared st since lobbyId)
    (hrun : exec serve st run = some st') : Cleared st' since lobbyId := by
  refine exec_invariant (I := fun st => Cleared st since lobbyId) (C := fun _ _ => True) ?_ run st
    st' h (.of_forall fun _ _ => trivial) hrun
  intro st l st' hI _ hstep
  unfold serve at hstep
  split at hstep
  · rename_i st₁ hok
    cases hstep
    exact hI.run hok
  · cases hstep
    exact hI

/-- What a deletion that returns has done. -/
theorem of_deleteLobby {now : Int} {lobbyId : IdText} {appId : Uuid}
    (h : st.deleteLobby now lobbyId appId = .ok st') :
    (∃ l ∈ st'.db.store.lobbies, l.lobbyId = lobbyId.uuid) ∧
      (∀ l ∈ st'.db.store.lobbies, l.lobbyId = lobbyId.uuid → live l = false) ∧
      st'.db.store.lobbyRooms = st.db.store.lobbyRooms ∧
      st'.lobbiesForRoomCache = st.lobbiesForRoomCache.clear ∧
      st'.lobbyRoomsCache = st.lobbyRoomsCache.delete lobbyId.text := by
  obtain ⟨a, db', ho, rfl⟩ := after_ok h
  unfold LobbyFacade.deleteLobby at ho
  split at ho
  · cases ho
  · rename_i existing hf
    obtain ⟨hex, hlive, hp⟩ := of_findOne hf
    simp only [Bool.and_eq_true, decide_eq_true_eq] at hp
    obtain ⟨_, hstore⟩ := commit_ok ho
    refine ⟨?_, ?_, by rw [hstore], rfl, rfl⟩
    · rw [hstore]
      refine ⟨_, List.mem_map_of_mem hex, ?_⟩
      split
      · exact hp.1
      · exact hp.1
    · rw [hstore]
      intro l hl hid
      obtain ⟨l₀, hl₀, rfl⟩ := List.mem_map.1 hl
      split
      · rfl
      · rename_i hkept
        rw [if_neg hkept] at hid
        -- the row with this id is the one that was found
        have hsame := st.db.valid.pkLobby.eq_of_key hl₀ hex (hid.trans hp.1.symm)
        subst hsame
        exact absurd (by simp [hp.1, hp.2, hlive]) hkept

end

/-- The lobby has no members, and no list of them is fresh under another spelling of its id. -/
structure LeftEmpty (st : Instance) (now : Int) (lobbyId : IdText) : Prop where
  members : ∀ lr ∈ st.db.store.lobbyRooms, live lr = true → lr.lobbyId ≠ lobbyId.uuid
  entries : ∀ other : IdText, other.uuid = lobbyId.uuid → other.text ≠ lobbyId.text → ∀ rows,
    st.lobbyRoomsCache.Holds now other.text rows → rows = []

/-- A deleted lobby is gone for every read after its deletion, whatever is called in between and
however its id is written, exactly when it was left empty. -/
theorem gone_iff_deleted_empty {st st' : Instance} {now : Int} {lobbyId : IdText} {appId : Uuid}
    (hdelete : st.deleteLobby now lobbyId appId = .ok st') :
    (∀ later st'', exec serve st' later = some st'' → Gone st'' now lobbyId.uuid) ↔
      LeftEmpty st now lobbyId := by
  obtain ⟨hrow, hdead, hmembers, hroom, hlobby⟩ := of_deleteLobby hdelete
  constructor
  · intro hgone
    obtain ⟨hnone, hlisted⟩ := hgone [] st' rfl now (Int.le_refl now)
    constructor
    · intro lr hlr hlive hid
      refine hnone lr.roomId.asStored lr ?_ hid
      -- nothing is cached, so the read comes from the rows
      unfold Instance.findLobbiesForRoom
      split
      · rename_i cached cache hget
        have hhit := TtlCache.get_eq_some (congrArg Prod.fst hget)
        rw [hroom] at hhit
        exact absurd hhit TtlCache.not_holds_clear
      · rw [← hmembers] at hlr
        exact mem_findAll.2 ⟨hlr, hlive, by simp [Uuid.asStored]⟩
    · intro other hid htext rows hold
      -- the deletion dropped the entry of its own text only
      have hkept : st'.lobbyRoomsCache.Holds now other.text rows := by
        rw [hlobby]
        exact TtlCache.holds_delete htext hold
      have hread := hlisted other hid
      have hget := TtlCache.get_of_holds hkept
      unfold Instance.listLobbyRoomsCached at hread
      split at hread
      · rename_i cached cache heq
        rw [heq] at hget
        cases hget
        exact hread
      · rename_i cache heq
        rw [heq] at hget
        cases hget
  · intro hempty later st'' hlater
    have hcleared : Cleared st' now lobbyId.uuid := by
      refine ⟨⟨hrow, hdead, ?_⟩, ?_, ?_⟩
      · rw [hmembers]
        exact hempty.members
      · rw [hroom]
        exact TtlCache.every_clear
      · intro listed hid t rows ht hold
        rw [hlobby] at hold
        obtain ⟨htext, hold⟩ := TtlCache.holds_of_delete hold
        exact hempty.entries listed hid htext rows (hold.earlier ht)
    exact (hcleared.later hlater).gone

/-! ## A lobby deleted with its members -/

/-- An app with one room. -/
def sampleRoom : Database :=
  ⟨{ sampleApp.store with
      rooms := [{ roomId := .of "room", appId := .of "app", slug := "lobby", name := "Lobby" }] },
    by decide⟩

def joinHall : List (Int × Call) :=
  [(0, .createLobby (.of "l0") (.of "app") { slug := some "hall", name := "Hall" }),
    (0, .addRoomToLobby (.of "l0") (.of "room") (.of "app")),
    (1, .findLobbiesForRoom (.of "room"))]

/-- The hall after the room has joined and left it. -/
def emptiedHall : Instance :=
  (exec serve { db := sampleRoom } (joinHall ++
    [(2, .removeRoomFromLobby (.of "l0") (.of "room") (.of "app"))])).getD { db := sampleRoom }

theorem gone_iff_deleted_empty_hall : ∃ st', emptiedHall.deleteLobby 3 (.of "l0") (.of "app") = .ok st' ∧
    ∀ later st'', exec serve st' later = some st'' → Gone st'' 3 (IdText.of "l0").uuid := by
  have hdelete : emptiedHall.deleteLobby 3 (.of "l0") (.of "app") = .ok _ := rfl
  refine ⟨_, hdelete, (gone_iff_deleted_empty hdelete).2 ⟨by decide, ?_⟩⟩
  rintro other - - rows ⟨e, he, -⟩
  cases he

/-- The lobby is deleted with the room in it, and the next read of the room returns it. -/
theorem deleted_lobby_returned :
    ¬ ∀ (db : Database) (before : List (Int × Call)) (st st' : Instance) (now : Int)
      (lobbyId : IdText) (appId : Uuid), exec serve { db := db } before = some st →
      st.deleteLobby now lobbyId appId = .ok st' →
      ∀ later st'', exec serve st' later = some st'' → Gone st'' now lobbyId.uuid := by
  intro hevery
  obtain ⟨hroom, _⟩ := hevery sampleRoom joinHall _ _ 2 (.of "l0") (.of "app") rfl rfl [] _ rfl 3
    (by decide)
  exact hroom (.of "room") { lobbyId := .of "l0", roomId := .of "room" } (by decide) rfl

end LobbyFacade
end NolagCore
