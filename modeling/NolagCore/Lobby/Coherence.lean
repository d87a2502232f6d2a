import NolagCore.Lobby.Presence

/-!
# Lobby.Coherence

The two membership caches against the rows they were read from. Adding and removing a room drop its
entry and the lobby's under the texts of the call; provisioning adds members and drops nothing. An
instance that has read a list under another text, or before provisioning, goes on serving the old
one.
-/

namespace NolagCore
namespace LobbyFacade

open Lib Facade

/-- Whatever the clock says and however the id is written, a read returns what the rows say. -/
def Coherent (st : Instance) : Prop :=
  ∀ now,
    (∀ roomId, (st.findLobbiesForRoom now roomId).1 = findByRoomId st.db.store roomId.uuid) ∧
    ∀ lobbyId, (st.listLobbyRoomsCached now lobbyId).1 = findByLobbyId st.db.store lobbyId.uuid

/-- The declared lobby `i` has the room among its rooms. -/
def Declares (lobbies : List StaticLobby) (createdRooms : List (Uuid × String)) (i : Nat)
    (roomId : Uuid) : Prop :=
  ∃ declared slug, lobbies[i]? = some declared ∧ slug ∈ declared.rooms.getD [] ∧
    (OrderedMap.ofList Prod.snd Prod.fst createdRooms).get? slug = some roomId

/-- No list is kept under a spelling of the id, those of the given texts apart. -/
def Unlisted (cache : TtlCache (List LobbyRoom)) (id : Uuid) (dropped : String → Prop) : Prop :=
  ∀ listed : IdText, listed.uuid = id → ¬ dropped listed.text → cache.cache.get? listed.text = none

/-- The room is a member of the lobby. -/
def Joined (s : Store) (lobbyId roomId : Uuid) : Prop :=
  ∃ lr ∈ s.lobbyRooms, live lr = true ∧ lr.lobbyId = lobbyId ∧ lr.roomId = roomId

/-- No list of a room or of a lobby whose members change is kept past the call: those under the
texts of an addition or a removal are dropped, those that provisioning makes wrong are not. -/
def Unread (st : Instance) : Call → Prop
  | .addRoomToLobby lobbyId roomId _ =>
    Unlisted st.lobbiesForRoomCache roomId.uuid (· = roomId.text) ∧
      Unlisted st.lobbyRoomsCache lobbyId.uuid (· = lobbyId.text)
  | .removeRoomFromLobby lobbyId roomId _ => Joined st.db.store lobbyId.uuid roomId.uuid →
    Unlisted st.lobbiesForRoomCache roomId.uuid (· = roomId.text) ∧
      Unlisted st.lobbyRoomsCache lobbyId.uuid (· = lobbyId.text)
  | .createStaticLobbies ids _ lobbies createdRooms =>
    ∀ i roomId, Declares lobbies createdRooms i roomId →
      Unlisted st.lobbiesForRoomCache roomId (fun _ => False) ∧
      Unlisted st.lobbyRoomsCache (ids i) (fun _ => False)
  | _ => True

/-- The call throws, or keeps no list of what it changes. -/
def WritesUnread (st : Instance) (l : Int × Call) : Prop :=
  ∀ st', l.2.run l.1 st = .ok st' → Unread st l.2

/-! ## The entries -/

/-- Every entry of either cache is the list that the rows give. -/
structure Current (st : Instance) (s : Store) : Prop where
  forRoom : st.lobbiesForRoomCache.Every fun key rows =>
    ∀ roomId : IdText, key = roomId.text → rows = findByRoomId s roomId.uuid
  ofLobby : st.lobbyRoomsCache.Every fun key rows =>
    ∀ lobbyId : IdText, key = lobbyId.text → rows = findByLobbyId s lobbyId.uuid

theorem coherent_iff {st : Instance} : Coherent st ↔ Current st st.db.store := by
  constructor
  · intro h
    constructor
    · rintro now key rows hold roomId rfl
      have hread := (h now).1 roomId
      have hget := TtlCache.get_of_holds hold
      unfold Instance.findLobbiesForRoom at hread
      split at hread
      · rename_i cached cache heq
        rw [heq] at hget
        cases hget
        exact hread
      · rename_i cache heq
        rw [heq] at hget
        cases hget
    · rintro now key rows hold lobbyId rfl
      have hread := (h now).2 lobbyId
      have hget := TtlCache.get_of_holds hold
      unfold Instance.listLobbyRoomsCached at hread
      split at hread
      · rename_i cached cache heq
        rw [heq] at hget
        cases hget
        exact hread
      · rename_i cache heq
        rw [heq] at hget
        cases hget
  · intro h now
    constructor
    · intro roomId
      unfold Instance.findLobbiesForRoom
      split
      · rename_i cached cache hget
        exact h.forRoom.of_get (congrArg Prod.fst hget) roomId rfl
      · rfl
    · intro lobbyId
      unfold Instance.listLobbyRoomsCached
      split
      · rename_i cached cache hget
        exact h.ofLobby.of_get (congrArg Prod.fst hget) lobbyId rfl
      · rfl

/-! ## What a write leaves of the rows -/

/-- Queries that look for none of the touched memberships read the same from both. -/
def SameBut (touched : LobbyRoom → Prop) (rows rows' : List LobbyRoom) : Prop :=
  ∀ p : LobbyRoom → Bool, (∀ lr, touched lr → p lr = false) → findAll rows' p = findAll rows p

theorem SameBut.refl (touched : LobbyRoom → Prop) (rows : List LobbyRoom) :
    SameBut touched rows rows := fun _ _ => rfl

theorem SameBut.trans {touched : LobbyRoom → Prop} {rows rows' rows'' : List LobbyRoom}
    (h : SameBut touched rows rows') (h' : SameBut touched rows' rows'') :
    SameBut touched rows rows'' := fun p hp => (h' p hp).trans (h p hp)

theorem sameBut_saveMember {touched : LobbyRoom → Prop} {lr : LobbyRoom} (rows : List LobbyRoom)
    (hlr : touched lr) : SameBut touched rows (saveMember lr rows) := by
  intro p hp
  unfold saveMember
  split
  · rfl
  · unfold findAll
    rw [List.filter_append, List.filter_singleton, hp lr hlr]
    simp

theorem sameBut_saveMembers {touched : LobbyRoom → Prop} (new rows : List LobbyRoom)
    (hnew : ∀ lr ∈ new, touched lr) :
    SameBut touched rows (new.foldl (fun rows lr => saveMember lr rows) rows) := by
  induction new generalizing rows with
  | nil => exact .refl _ _
  | cons lr new ih =>
    exact (sameBut_saveMember rows (hnew lr List.mem_cons_self)).trans
      (ih (saveMember lr rows) fun lr' hm => hnew lr' (List.mem_cons_of_mem _ hm))

theorem sameBut_deleteRows {touched : LobbyRoom → Prop} {gone : LobbyRoom → Bool}
    (rows : List LobbyRoom)
    (hgone : ∀ lr ∈ rows, live lr = true → gone lr = true → touched lr) :
    SameBut touched rows (deleteRows gone rows) := by
  intro p hp
  refine findAll_filter fun lr hrow hlive hlr => ?_
  cases hg : gone lr with
  | false => rfl
  | true =>
    rw [hp lr (hgone lr hrow hlive hg)] at hlr
    cases hlr

section

variable {db : Database}

/-- The memberships an operation leaves differ from those before it in touched ones only. -/
def Touches (db : Database) (touched : LobbyRoom → Prop) (s : Store) : Prop :=
  SameBut touched db.store.lobbyRooms s.lobbyRooms

theorem touches_createLobby {lobbyId appId : Uuid} {data : LobbyCreateDto} :
    Leaves (createLobby db lobbyId appId data) (Touches db fun _ => False) := by
  unfold createLobby
  dsimp only
  split
  · exact .error
  · unfold insertLobby
    split
    · exact .error
    · exact .commit (.refl _ _)

theorem touches_updateLobby {lobbyId appId : Uuid} {data : LobbyPatchDto} :
    Leaves (updateLobby db lobbyId appId data) (Touches db fun _ => False) := by
  unfold updateLobby
  split
  · exact .error
  · exact .commit (.refl _ _)

theorem touches_deleteLobby {now : Int} {lobbyId appId : Uuid} :
    Leaves (deleteLobby db now lobbyId appId) (Touches db fun _ => False) := by
  unfold deleteLobby
  split
  · exact .error
  · exact .commit (.refl _ _)

/-- The one membership of this room in this lobby. -/
def Membership (lobbyId roomId : Uuid) (lr : LobbyRoom) : Prop :=
  lr.lobbyId = lobbyId ∧ lr.roomId = roomId

theorem touches_addRoom {lobbyId roomId appId : Uuid} :
    Leaves (addRoomToLobby db lobbyId roomId appId) (Touches db (Membership lobbyId roomId)) := by
  unfold addRoomToLobby
  dsimp only
  split
  · exact .error
  · split
    · exact .error
    · split
      · exact .error
      · split
        · exact .error
        · exact .commit (sameBut_saveMember _ ⟨rfl, rfl⟩)

/-- Removing a room that is not a member touches nothing. -/
theorem touches_removeRoom {lobbyId roomId appId : Uuid} :
    Leaves (removeRoomFromLobby db lobbyId roomId appId) (Touches db fun lr =>
      Membership lobbyId roomId lr ∧ Joined db.store lobbyId roomId) := by
  unfold removeRoomFromLobby
  split
  · exact .error
  · refine .commit (sameBut_deleteRows _ fun lr hrow hlive hlr => ?_)
    simp only [Bool.and_eq_true, decide_eq_true_eq] at hlr
    exact ⟨hlr, lr, hrow, hlive, hlr⟩

/-- The rows of the declared lobbies. -/
def staticLobbyRows (ids : Nat → Uuid) (appId : Uuid) (lobbies : List StaticLobby) : List Lobby :=
  lobbies.mapIdx fun i lobby =>
    { lobbyId := ids i
      appId := appId
      slug := lobby.slug
      name := lobby.name
      description := lobby.description }

theorem staticLobbyRows_at (ids : Nat → Uuid) (appId : Uuid) {lobbies : List StaticLobby} {i : Nat}
    {declared : StaticLobby} (h : lobbies[i]? = some declared) :
    ∃ lobby, (staticLobbyRows ids appId lobbies)[i]? = some lobby ∧ lobby.lobbyId = ids i := by
  refine ⟨_, (List.getElem?_mapIdx ..).trans (congrArg (Option.map _) h), rfl⟩

theorem declares_of_staticMembers {ids : Nat → Uuid} {appId : Uuid} {lobbies : List StaticLobby}
    {createdRooms : List (Uuid × String)} {lr : LobbyRoom}
    (h : lr ∈ staticMembers (OrderedMap.ofList Prod.snd Prod.fst createdRooms)
      (staticLobbyRows ids appId lobbies) lobbies) :
    ∃ i, Declares lobbies createdRooms i lr.roomId ∧ lr.lobbyId = ids i := by
  obtain ⟨i, lobby, declared, slug, hl, hd, hslug, hget, hid⟩ := mem_staticMembers h
  obtain ⟨lobby', hl', hid'⟩ := staticLobbyRows_at ids appId hd
  cases hl.symm.trans hl'
  exact ⟨i, ⟨declared, slug, hd, hslug, hget⟩, hid.trans hid'⟩

theorem touches_static {ids : Nat → Uuid} {appId : Uuid} {lobbies : List StaticLobby}
    {createdRooms : List (Uuid × String)} :
    Leaves (createStaticLobbiesFromConfig db ids appId lobbies createdRooms) (Touches db fun lr =>
      ∃ i, Declares lobbies createdRooms i lr.roomId ∧ lr.lobbyId = ids i) :=
  .commit (sameBut_saveMembers _ _ fun _ hlr => declares_of_staticMembers hlr)

end

/-! ## Steps -/

section

variable {st st' : Instance}

/-- The caches after some entries have been dropped, those of every touched membership among them. -/
structure Drops (touched : LobbyRoom → Prop) (dropped : Instance → Instance) (st : Instance) :
    Prop where
  forRoom : ∀ t key rows, (dropped st).lobbiesForRoomCache.Holds t key rows →
    st.lobbiesForRoomCache.Holds t key rows
  ofLobby : ∀ t key rows, (dropped st).lobbyRoomsCache.Holds t key rows →
    st.lobbyRoomsCache.Holds t key rows
  room : ∀ lr, touched lr →
    Unlisted (dropped st).lobbiesForRoomCache lr.roomId (fun _ => False)
  lobby : ∀ lr, touched lr →
    Unlisted (dropped st).lobbyRoomsCache lr.lobbyId (fun _ => False)

theorem Current.written {touched : LobbyRoom → Prop} {dropped : Instance → Instance} {s : Store}
    (h : Current st st.db.store) (hd : Drops touched dropped st) (hs : Touches st.db touched s) :
    Current (dropped st) s := by
  constructor
  · rintro t key rows hold roomId rfl
    rw [h.forRoom t _ rows (hd.forRoom t _ rows hold) roomId rfl]
    refine (hs _ fun lr hlr => decide_eq_false fun hroom => ?_).symm
    obtain ⟨e, he, _⟩ := hold
    rw [hd.room lr hlr roomId hroom.symm id] at he
    cases he
  · rintro t key rows hold lobbyId rfl
    rw [h.ofLobby t _ rows (hd.ofLobby t _ rows hold) lobbyId rfl]
    refine (hs _ fun lr hlr => decide_eq_false fun hlobby => ?_).symm
    obtain ⟨e, he, _⟩ := hold
    rw [hd.lobby lr hlr lobbyId hlobby.symm id] at he
    cases he

theorem Current.after {α : Type} {o : Outcome α} {touched : LobbyRoom → Prop}
    {dropped : Instance → Instance} (h : Current st st.db.store)
    (hrun : st.after o dropped = .ok st') (hd : Drops touched dropped st)
    (ho : Leaves o (Touches st.db touched)) : Current st' st'.db.store := by
  obtain ⟨a, db', heq, rfl⟩ := after_ok hrun
  have hcurrent := h.written hd (ho a db' heq)
  exact ⟨hcurrent.forRoom, hcurrent.ofLobby⟩

theorem drops_none (st : Instance) : Drops (fun _ => False) id st :=
  ⟨fun _ _ _ h => h, fun _ _ _ h => h, fun _ h => h.elim, fun _ h => h.elim⟩

theorem drops_lobby (st : Instance) (lobbyId : IdText) :
    Drops (fun _ => False) (Instance.dropLobby lobbyId) st :=
  ⟨fun _ _ _ h => absurd h TtlCache.not_holds_clear, fun _ _ _ h => (TtlCache.holds_of_delete h).2,
    fun _ h => h.elim, fun _ h => h.elim⟩

theorem Unlisted.delete {cache : TtlCache (List LobbyRoom)} {id : IdText}
    (h : Unlisted cache id.uuid (· = id.text)) :
    Unlisted (cache.delete id.text) id.uuid (fun _ => False) := by
  intro listed hid _
  simp only [TtlCache.delete, OrderedMap.get?_delete]
  split
  · rfl
  · rename_i htext
    exact h listed hid htext

theorem drops_member {lobbyId roomId : IdText} {touched : LobbyRoom → Prop}
    (htouched : ∀ lr, touched lr → Membership lobbyId.uuid roomId.uuid lr ∧
      Unlisted st.lobbiesForRoomCache roomId.uuid (· = roomId.text) ∧
      Unlisted st.lobbyRoomsCache lobbyId.uuid (· = lobbyId.text)) :
    Drops touched (Instance.dropMember lobbyId roomId) st where
  forRoom := fun _ _ _ h => (TtlCache.holds_of_delete h).2
  ofLobby := fun _ _ _ h => (TtlCache.holds_of_delete h).2
  room := by
    intro lr hlr
    obtain ⟨⟨-, hroom⟩, hforRoom, -⟩ := htouched lr hlr
    rw [hroom]
    exact hforRoom.delete
  lobby := by
    intro lr hlr
    obtain ⟨⟨hlobby, -⟩, -, hofLobby⟩ := htouched lr hlr
    rw [hlobby]
    exact hofLobby.delete

theorem Current.findLobbiesForRoom (h : Current st st.db.store) (now : Int) (roomId : IdText) :
    Current (st.findLobbiesForRoom now roomId).2 (st.findLobbiesForRoom now roomId).2.db.store := by
  have hcache := h.forRoom.get now roomId.text
  unfold Instance.findLobbiesForRoom
  split
  · rename_i cached cache hget
    rw [hget] at hcache
    exact { h with forRoom := hcache }
  · rename_i cache hget
    rw [hget] at hcache
    refine { h with forRoom := hcache.set now fun roomId' hkey => ?_ }
    rw [IdText.ext_text hkey]

theorem Current.listLobbyRoomsCached (h : Current st st.db.store) (now : Int) (lobbyId : IdText) :
    Current (st.listLobbyRoomsCached now lobbyId).2
      (st.listLobbyRoomsCached now lobbyId).2.db.store := by
  have hcache := h.ofLobby.get now lobbyId.text
  unfold Instance.listLobbyRoomsCached
  split
  · rename_i cached cache hget
    rw [hget] at hcache
    exact { h with ofLobby := hcache }
  · rename_i cache hget
    rw [hget] at hcache
    refine { h with ofLobby := hcache.set now fun lobbyId' hkey => ?_ }
    rw [IdText.ext_text hkey]

theorem Current.run {now : Int} {call : Call} (h : Current st st.db.store)
    (hunread : Unread st call) (hrun : call.run now st = .ok st') : Current st' st'.db.store := by
  cases call with
  | createLobby lobbyId appId data => exact h.after hrun (drops_none st) touches_createLobby
  | updateLobby lobbyId appId data => exact h.after hrun (drops_none st) touches_updateLobby
  | deleteLobby lobbyId appId => exact h.after hrun (drops_lobby st lobbyId) touches_deleteLobby
  | addRoomToLobby lobbyId roomId appId =>
    exact h.after hrun (drops_member fun lr hlr => ⟨hlr, hunread⟩) touches_addRoom
  | removeRoomFromLobby lobbyId roomId appId =>
    exact h.after hrun (drops_member fun lr hlr => ⟨hlr.1, hunread hlr.2⟩) touches_removeRoom
  | createStaticLobbies ids appId lobbies createdRooms =>
    refine h.after hrun ⟨fun _ _ _ h => h, fun _ _ _ h => h, ?_, ?_⟩ touches_static
    · rintro lr ⟨i, hdeclares, -⟩
      exact (hunread i lr.roomId hdeclares).1
    · rintro lr ⟨i, hdeclares, hid⟩
      rw [hid]
      exact (hunread i lr.roomId hdeclares).2
  | findLobbiesForRoom roomId =>
    cases hrun
    exact h.findLobbiesForRoom now roomId
  | listLobbyRoomsCached lobbyId =>
    cases hrun
    exact h.listLobbyRoomsCached now lobbyId

end

/-! ## What a write has done -/

theorem exists_saveMembers {lr : LobbyRoom} (new rows : List LobbyRoom)
    (h : lr ∈ rows ∨ lr ∈ new) : ∃ r ∈ new.foldl (fun rows lr => saveMember lr rows) rows,
      r.lobbyId = lr.lobbyId ∧ r.roomId = lr.roomId := by
  induction new generalizing rows lr with
  | nil => exact ⟨lr, h.resolve_right List.not_mem_nil, rfl, rfl⟩
  | cons x new ih =>
    have hsaved : ∀ r ∈ rows, r ∈ saveMember x rows := by
      intro r hr
      unfold saveMember
      split
      · exact hr
      · exact List.mem_append_left _ hr
    rcases h with h | h
    · exact ih _ (.inl (hsaved lr h))
    · rcases List.mem_cons.1 h with rfl | h
      · by_cases hany : rows.any fun r => decide (r.lobbyId = lr.lobbyId) && decide (r.roomId = lr.roomId)
        · obtain ⟨r, hr, hkey⟩ := List.any_eq_true.1 hany
          simp only [Bool.and_eq_true, decide_eq_true_eq] at hkey
          obtain ⟨r', hr', hkey'⟩ := ih (saveMember lr rows) (.inl (hsaved r hr))
          exact ⟨r', hr', hkey'.1.trans hkey.1, hkey'.2.trans hkey.2⟩
        · refine ih (saveMember lr rows) (.inl ?_)
          unfold saveMember
          rw [if_neg hany]
          exact List.mem_append_right _ List.mem_cons_self
      · exact ih _ (.inr h)

/-- What provisioning has put into the rows, and that nothing of the kind was there before. -/
theorem provisioned {st st' : Instance} {ids : Nat → Uuid} {appId : Uuid}
    {lobbies : List StaticLobby} {createdRooms : List (Uuid × String)}
    (hrun : st.createStaticLobbiesFromConfig ids appId lobbies createdRooms = .ok st') {i : Nat}
    {roomId : Uuid} (h : Declares lobbies createdRooms i roomId) :
    Joined st'.db.store (ids i) roomId ∧
      (∀ lr ∈ st.db.store.lobbyRooms, lr.lobbyId ≠ ids i) ∧
      st'.lobbiesForRoomCache = st.lobbiesForRoomCache ∧
      st'.lobbyRoomsCache = st.lobbyRoomsCache := by
  obtain ⟨a, db', ho, rfl⟩ := after_ok hrun
  obtain ⟨_, hstore⟩ := commit_ok ho
  obtain ⟨declared, slug, hdeclared, hslug, hget⟩ := h
  obtain ⟨lobby, hcreated, hid⟩ := staticLobbyRows_at ids appId hdeclared
  have hpk : UniqueOn Lobby.lobbyId (st.db.store.lobbies ++ staticLobbyRows ids appId lobbies) := by
    have hvalid := db'.valid.pkLobby
    rw [hstore] at hvalid
    exact hvalid
  have hold : ∀ lr ∈ st.db.store.lobbyRooms, lr.lobbyId ≠ ids i := by
    intro lr hlr heq
    obtain ⟨l, hl, hlid⟩ := st.db.valid.fkMemberLobby lr hlr lr.lobbyId rfl
    exact hpk.ne_of_append hl (List.mem_of_getElem? hcreated) (hlid.trans (heq.trans hid.symm))
  refine ⟨?_, hold, rfl, rfl⟩
  have hmember : ({ lobbyId := ids i, roomId := roomId } : LobbyRoom) ∈
      staticMembers (OrderedMap.ofList Prod.snd Prod.fst createdRooms) (staticLobbyRows ids appId lobbies) lobbies := by
    have hzip : ((staticLobbyRows ids appId lobbies).zip lobbies)[i]? = some (lobby, declared) :=
      List.getElem?_zip_eq_some.2 ⟨hcreated, hdeclared⟩
    refine List.mem_flatMap.2 ⟨_, List.mem_of_getElem? hzip, List.mem_filterMap.2 ⟨slug, hslug, ?_⟩⟩
    rw [hget, Option.map_some, hid]
  obtain ⟨lr, hlr, hlobby, hroom⟩ := exists_saveMembers _ st.db.store.lobbyRooms (.inr hmember)
  refine ⟨lr, by rw [hstore]; exact hlr, ?_, hlobby, hroom⟩
  rcases mem_saveMembers hlr with hlr | hlr
  · exact absurd hlobby (hold lr hlr)
  · obtain ⟨_, _, hlr⟩ := List.mem_flatMap.1 hlr
    obtain ⟨_, _, hlr⟩ := List.mem_filterMap.1 hlr
    obtain ⟨_, _, rfl⟩ := Option.map_eq_some_iff.1 hlr
    rfl

theorem of_addRoomToLobby {db db' : Database} {lobbyId roomId appId : Uuid} {a : LobbyRoom}
    (h : addRoomToLobby db lobbyId roomId appId = .ok (a, db')) :
    (∀ lr ∈ db.store.lobbyRooms, ¬ Membership lobbyId roomId lr) ∧
      db'.store.lobbyRooms = db.store.lobbyRooms ++ [{ lobbyId := lobbyId, roomId := roomId }] := by
  unfold addRoomToLobby at h
  dsimp only at h
  split at h
  · cases h
  · split at h
    · cases h
    · split at h
      · cases h
      · rename_i hnew
        split at h
        · cases h
        · have hapart : ∀ lr ∈ db.store.lobbyRooms, ¬ Membership lobbyId roomId lr := by
            intro lr hlr hkey
            refine hnew (decide_eq_true (List.length_pos_of_mem (List.mem_filter.2 ⟨hlr, ?_⟩)))
            simp [hkey.1, hkey.2]
          refine ⟨hapart, ?_⟩
          rw [(commit_ok h).2]
          unfold saveMember
          rw [if_neg]
          simpa [Membership] using hapart

theorem of_removeRoomFromLobby {db db' : Database} {lobbyId roomId appId : Uuid} {a : Unit}
    (h : removeRoomFromLobby db lobbyId roomId appId = .ok (a, db')) :
    ∀ lr ∈ db'.store.lobbyRooms, ¬ Membership lobbyId roomId lr := by
  unfold removeRoomFromLobby at h
  split at h
  · cases h
  · rw [(commit_ok h).2]
    intro lr hlr hkey
    have hkept := (List.mem_filter.1 hlr).2
    simp [hkey.1, hkey.2] at hkept

/-! ## Lists made wrong -/

theorem joined_iff_byRoom {s : Store} {lobbyId roomId : Uuid} :
    Joined s lobbyId roomId ↔ ∃ lr ∈ findByRoomId s roomId, lr.lobbyId = lobbyId := by
  simp only [Joined, findByRoomId, mem_findAll, decide_eq_true_eq]
  exact exists_congr fun lr => by tauto

theorem joined_iff_byLobby {s : Store} {lobbyId roomId : Uuid} :
    Joined s lobbyId roomId ↔ ∃ lr ∈ findByLobbyId s lobbyId, lr.roomId = roomId := by
  simp only [Joined, findByLobbyId, mem_findAll, decide_eq_true_eq]
  exact exists_congr fun lr => by tauto

/-- A list that is current before and after a change of its rows was not kept over it. -/
theorem unlisted_of_changed {cache cache' : TtlCache (List LobbyRoom)} {id : Uuid}
    {rows rows' : List LobbyRoom} {dropped : String → Prop} (hchanged : rows' ≠ rows)
    (h : cache.Every fun key kept => ∀ listed : IdText, listed.uuid = id → key = listed.text →
      kept = rows)
    (h' : cache'.Every fun key kept => ∀ listed : IdText, listed.uuid = id → key = listed.text →
      kept = rows')
    (hkept : ∀ key, ¬ dropped key → cache'.cache.get? key = cache.cache.get? key) :
    Unlisted cache id dropped := by
  intro listed hid hnot
  cases he : cache.cache.get? listed.text with
  | none => rfl
  | some e =>
    have hrows := h e.expiresAt listed.text e.value ⟨e, he, Int.le_refl _, rfl⟩ listed hid rfl
    have hrows' := h' e.expiresAt listed.text e.value
      ⟨e, (hkept _ hnot).trans he, Int.le_refl _, rfl⟩ listed hid rfl
    exact absurd (hrows'.symm.trans hrows) hchanged

section

variable {st st' : Instance} (h : Current st st.db.store) (h' : Current st' st'.db.store)
  {ids : Nat → Uuid} {lobbyId roomId : IdText} {appId : Uuid} {lobbies : List StaticLobby}
  {createdRooms : List (Uuid × String)}
include h h'

/-- Where a room joins or leaves a lobby, neither list was kept over the change. -/
theorem unlisted_of_moved {lobbyId roomId : Uuid} {ofRoom ofLobby : String → Prop}
    (hroom : ∀ key, ¬ ofRoom key →
      st'.lobbiesForRoomCache.cache.get? key = st.lobbiesForRoomCache.cache.get? key)
    (hlobby : ∀ key, ¬ ofLobby key →
      st'.lobbyRoomsCache.cache.get? key = st.lobbyRoomsCache.cache.get? key)
    (hmoved : ¬ (Joined st'.db.store lobbyId roomId ↔ Joined st.db.store lobbyId roomId)) :
    Unlisted st.lobbiesForRoomCache roomId ofRoom ∧
      Unlisted st.lobbyRoomsCache lobbyId ofLobby := by
  constructor
  · have hchanged : findByRoomId st'.db.store roomId ≠ findByRoomId st.db.store roomId := by
      intro hsame
      exact hmoved (by rw [joined_iff_byRoom, joined_iff_byRoom, hsame])
    refine unlisted_of_changed hchanged ?_ ?_ hroom
    · rintro t key kept hold listed rfl hkey
      exact h.forRoom t key kept hold listed hkey
    · rintro t key kept hold listed rfl hkey
      exact h'.forRoom t key kept hold listed hkey
  · have hchanged : findByLobbyId st'.db.store lobbyId ≠ findByLobbyId st.db.store lobbyId := by
      intro hsame
      exact hmoved (by rw [joined_iff_byLobby, joined_iff_byLobby, hsame])
    refine unlisted_of_changed hchanged ?_ ?_ hlobby
    · rintro t key kept hold listed rfl hkey
      exact h.ofLobby t key kept hold listed hkey
    · rintro t key kept hold listed rfl hkey
      exact h'.ofLobby t key kept hold listed hkey

/-- A room that is added was in the lobby under no spelling. -/
theorem unread_of_added (hrun : st.addRoomToLobby lobbyId roomId appId = .ok st') :
    Unread st (.addRoomToLobby lobbyId roomId appId) := by
  obtain ⟨a, db', ho, rfl⟩ := after_ok hrun
  refine unlisted_of_moved h h' (fun key hkey => ?_) (fun key hkey => ?_) ?_
  · exact (OrderedMap.get?_delete ..).trans (if_neg hkey)
  · exact (OrderedMap.get?_delete ..).trans (if_neg hkey)
  · obtain ⟨hnew, hrows⟩ := of_addRoomToLobby ho
    have hafter : Joined db'.store lobbyId.uuid roomId.uuid := by
      refine ⟨{ lobbyId := lobbyId.uuid, roomId := roomId.uuid }, ?_, rfl, rfl, rfl⟩
      rw [hrows]
      exact List.mem_append_right _ List.mem_cons_self
    rintro hsame
    obtain ⟨lr, hlr, -, hkey⟩ := hsame.1 hafter
    exact hnew lr hlr hkey

/-- A member that is removed is one no more. -/
theorem unread_of_removed (hrun : st.removeRoomFromLobby lobbyId roomId appId = .ok st') :
    Unread st (.removeRoomFromLobby lobbyId roomId appId) := by
  intro hjoined
  obtain ⟨a, db', ho, rfl⟩ := after_ok hrun
  refine unlisted_of_moved h h' (fun key hkey => ?_) (fun key hkey => ?_) ?_
  · exact (OrderedMap.get?_delete ..).trans (if_neg hkey)
  · exact (OrderedMap.get?_delete ..).trans (if_neg hkey)
  · rintro hsame
    obtain ⟨lr, hlr, -, hkey⟩ := hsame.2 hjoined
    exact of_removeRoomFromLobby ho lr hlr hkey

/-- A list that provisioning has gone past is out of date. -/
theorem unread_of_provisioned
    (hrun : st.createStaticLobbiesFromConfig ids appId lobbies createdRooms = .ok st') :
    Unread st (.createStaticLobbies ids appId lobbies createdRooms) := by
  intro i roomId hdeclares
  obtain ⟨hafter, hold, hcache, hcache'⟩ := provisioned hrun hdeclares
  refine unlisted_of_moved h h' (fun key _ => by rw [hcache]) (fun key _ => by rw [hcache']) ?_
  intro hsame
  obtain ⟨lr, hlr, -, hlobby, -⟩ := hsame.1 hafter
  exact hold lr hlr hlobby

end

/-! ## Runs -/

theorem coherent_start (db : Database) : Coherent { db := db } := by
  refine coherent_iff.2 ⟨?_, ?_⟩
  · rintro t key rows ⟨e, he, _⟩
    simp at he
  · rintro t key rows ⟨e, he, _⟩
    simp at he

/-- Exactly the calls that keep no list of what they change keep the reads true. -/
theorem coherent_step {st : Instance} {l : Int × Call} (h : Coherent st) :
    WritesUnread st l ↔ ∀ st', serve st l = some st' → Coherent st' := by
  have hcurrent := coherent_iff.1 h
  constructor
  · intro hunread st' hserve
    unfold serve at hserve
    split at hserve
    · rename_i st₁ hrun
      cases hserve
      exact coherent_iff.2 (hcurrent.run (hunread _ hrun) hrun)
    · cases hserve
      exact h
  · intro hnext st' hrun
    have hserve : serve st l = some st' := by
      unfold serve
      rw [hrun]
    have hcurrent' := coherent_iff.1 (hnext st' hserve)
    obtain ⟨now, call⟩ := l
    cases call with
    | addRoomToLobby lobbyId roomId appId => exact unread_of_added hcurrent hcurrent' hrun
    | removeRoomFromLobby lobbyId roomId appId => exact unread_of_removed hcurrent hcurrent' hrun
    | createStaticLobbies ids appId lobbies createdRooms =>
      exact unread_of_provisioned hcurrent hcurrent' hrun
    | _ => trivial

/-- Over a run every read is what an uncached one would return, at every point of the run, exactly
when no call keeps a list of a room or a lobby whose members it changes. -/
theorem reads_coherent_iff (db : Database) (run : List (Int × Call)) :
    (∀ before later, run = before ++ later → ∀ st, exec serve { db := db } before = some st →
      Coherent st) ↔ Meets serve WritesUnread { db := db } run :=
  exec_always_iff (fun _ _ h => coherent_step h) run { db := db } (coherent_start db)

/-- The room is read, and then declared a member of a new lobby. -/
theorem provisioned_room_stale :
    ¬ ∀ (db : Database) (run : List (Int × Call)) (st : Instance),
      exec serve { db := db } run = some st → Coherent st := by
  intro hevery
  have hcoherent := hevery sampleRoom [(0, .findLobbiesForRoom (.of "room")),
    (1, .createStaticLobbies (fun _ => .of "l0") (.of "app")
      [{ slug := "hall", name := "Hall", rooms := some ["lobby"] }] [(.of "room", "lobby")])] _ rfl
  have hread := (hcoherent 2).1 (.of "room")
  revert hread
  decide

end LobbyFacade
end NolagCore
