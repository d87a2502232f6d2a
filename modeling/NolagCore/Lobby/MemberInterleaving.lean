import NolagCore.Lib.Calls
import NolagCore.Lib.JoinTable
import NolagCore.Lib.ReadCommitted
import NolagCore.Lib.Transition
import NolagCore.Lobby.Facade

/-!
# Lobby.MemberInterleaving

Rooms added to and removed from lobbies, and lobbies deleted, by interleaved calls statement by
statement under READ COMMITTED. The preconditions of an addition are one SELECT, which locks nothing;
`save` reads the row of the pair again and inserts it. A removal is a DELETE of the row. A deletion
holds its lobby for share and stamps it.

The foreign keys from memberships to lobbies and rooms are of rows that no statement here removes,
and a soft delete does not conflict with their locks, so they stop nothing.
-/

namespace NolagCore
namespace LobbyFacade
namespace Members

open Lib

inductive Call where
  | add (lobbyId roomId appId : Uuid)
  | remove (lobbyId roomId appId : Uuid)
  | delete (now : Int) (lobbyId appId : Uuid)

inductive Phase where
  | begun
  /-- Every precondition of an addition holds. -/
  | checked
  /-- `save` has found no row of the pair. -/
  | saving
  /-- A removal has found its lobby. -/
  | found
  /-- The locked SELECT has found the lobby and waits for it. -/
  | waiting
  /-- The lobby is held for share. -/
  | held
  /-- There is nothing to write. -/
  | unchanged
  /-- The INSERT, DELETE or UPDATE has run. -/
  | written
  /-- The transaction has committed, or has been rolled back. -/
  | returned (ok : Bool)
deriving DecidableEq

def pairOf (lr : LobbyRoom) : Uuid × Uuid := (lr.lobbyId, lr.roomId)

structure State where
  lobbies : Table Uuid Lobby
  rooms : List Room
  members : JoinTable (Uuid × Uuid) LobbyRoom
  calls : Pool Call Phase

/-- The tables with no transaction open. -/
def State.idle (s : Store) : State where
  lobbies := { rows := s.lobbies }
  rooms := s.rooms
  members := { rows := s.lobbyRooms }
  calls := Pool.empty

/-- The committed rows, which a SELECT reads. -/
def State.store (st : State) : Store where
  lobbies := st.lobbies.rows
  rooms := st.rooms
  lobbyRooms := st.members.rows

/-- A statement that changes nothing but the phase of its call. -/
def State.advance (st : State) (c : Nat) (call : Call) (phase : Phase) : State :=
  { st with calls := st.calls.move c call phase }

def State.hold (st : State) (c : Nat) (call : Call) (lobbyId : Uuid) : State :=
  { st with
    lobbies := st.lobbies.share c lobbyId
    calls := st.calls.move c call .held }

def State.insert (st : State) (c : Nat) (call : Call) (row : LobbyRoom) : State :=
  { st with
    members := st.members.insert c row
    calls := st.calls.move c call .written }

def State.remove (st : State) (c : Nat) (call : Call) (pair : Uuid × Uuid) : State :=
  { st with
    members := st.members.delete c pair
    calls := st.calls.move c call .written }

def State.writeLobby (st : State) (c : Nat) (call : Call) (version : Lobby) : State :=
  { st with
    lobbies := st.lobbies.write (·.lobbyId) c version
    calls := st.calls.move c call .written }

def State.commit (st : State) (c : Nat) (call : Call) : State :=
  { st with
    lobbies := st.lobbies.commit (·.lobbyId) c
    members := st.members.commit pairOf c
    calls := st.calls.move c call (.returned true) }

/-- An exception: the transaction is rolled back and lets go of its rows. -/
def State.rollback (st : State) (c : Nat) (call : Call) : State :=
  { st with
    lobbies := st.lobbies.release c
    members := st.members.release c
    calls := st.calls.move c call (.returned false) }

inductive Statement where
  | begin (c : Nat) (call : Call)
  /-- The preconditions of an addition, or the first SELECT of the others. -/
  | select (c : Nat)
  /-- The end of the locked SELECT: the lobby is free, read again, and held. -/
  | acquire (c : Nat)
  /-- The read of `save`. -/
  | reread (c : Nat)
  | write (c : Nat)
  | commit (c : Nat)
  | rollback (c : Nat)

/-! ## Steps -/

/-- `validateAddRoomToLobby` finds nothing against the addition. -/
def passes (s : Store) (lobbyId roomId appId : Uuid) : Bool :=
  let check := validateAddRoomToLobby s lobbyId roomId appId
  check.lobbyExists && check.roomExists && !check.alreadyInLobby &&
    decide (check.lobbyCountForRoom < maxLobbiesPerRoom)

def selectRow (st : State) (c : Nat) : Call → State
  | .add lobbyId roomId appId =>
    if passes st.store lobbyId roomId appId then st.advance c (.add lobbyId roomId appId) .checked
    else st.rollback c (.add lobbyId roomId appId)
  | .remove lobbyId roomId appId =>
    match findByIdAndApp st.store lobbyId appId with
    | none => st.rollback c (.remove lobbyId roomId appId)
    | some _ => st.advance c (.remove lobbyId roomId appId) .found
  | .delete now lobbyId appId =>
    match findByIdAndApp st.store lobbyId appId with
    | none => st.rollback c (.delete now lobbyId appId)
    | some _ => st.advance c (.delete now lobbyId appId) .waiting

/-- The INSERT waits for a transaction that has written its pair. -/
def insertRow (st : State) (c : Nat) (call : Call) (row : LobbyRoom) : Option State :=
  if st.members.insertable pairOf c (pairOf row) = false then none
  else match st.members.find pairOf (pairOf row) with
    | some _ => some (st.rollback c call)
    | none => some (st.insert c call row)

/-- The DELETE waits for another one, and removing no row succeeds. -/
def removeRow (st : State) (c : Nat) (call : Call) (pair : Uuid × Uuid) : Option State :=
  if st.members.deletable c pair = false then none
  else match st.members.find pairOf pair with
    | some _ => some (st.remove c call pair)
    | none => some (st.advance c call .unchanged)

def stampRow (st : State) (c : Nat) (call : Call) (now : Int) (lobbyId appId : Uuid) :
    Option State :=
  if st.lobbies.writable (·.lobbyId) c lobbyId = false then none
  else match findByIdAndApp st.store lobbyId appId with
    | none => some (st.advance c call .unchanged)
    | some row => some (st.writeLobby c call { row with deletedAt := some now })

def step (st : State) : Statement → Option State
  | .begin c call =>
    match st.calls c with
    | some _ => none
    | none => some (st.advance c call .begun)
  | .select c =>
    match st.calls c with
    | some (call, .begun) => some (selectRow st c call)
    | _ => none
  | .acquire c =>
    match st.calls c with
    | some (.delete now lobbyId appId, .waiting) =>
      if st.lobbies.lockable (·.lobbyId) c lobbyId = false then none
      else match findByIdAndApp st.store lobbyId appId with
        | none => some (st.rollback c (.delete now lobbyId appId))
        | some _ => some (st.hold c (.delete now lobbyId appId) lobbyId)
    | _ => none
  | .reread c =>
    match st.calls c with
    | some (.add lobbyId roomId appId, .checked) =>
      match st.members.find pairOf (lobbyId, roomId) with
      | some _ => some (st.advance c (.add lobbyId roomId appId) .unchanged)
      | none => some (st.advance c (.add lobbyId roomId appId) .saving)
    | _ => none
  | .write c =>
    match st.calls c with
    | some (.add lobbyId roomId appId, .saving) =>
      insertRow st c (.add lobbyId roomId appId) { lobbyId := lobbyId, roomId := roomId }
    | some (.remove lobbyId roomId appId, .found) =>
      removeRow st c (.remove lobbyId roomId appId) (lobbyId, roomId)
    | some (.delete now lobbyId appId, .held) =>
      stampRow st c (.delete now lobbyId appId) now lobbyId appId
    | _ => none
  | .commit c =>
    match st.calls c with
    | some (call, .written) | some (call, .unchanged) => some (st.commit c call)
    | _ => none
  | .rollback c =>
    match st.calls c with
    | none | some (_, .returned _) => none
    | some (call, _) => some (st.rollback c call)

/-- An addition in this phase may still insert its row. -/
def Phase.isPast : Phase → Bool
  | .checked | .saving | .written => true
  | _ => false

/-- What a step is, one constructor for each kind of effect. -/
inductive Steps (st : State) : Statement → State → Prop
  | settle {l : Statement} {c : Nat} {call : Call} {phase : Phase}
    (hc : ∀ call' phase', st.calls c = some (call', phase') → phase' ≠ .written)
    (hp : phase.isPast = false) : Steps st l (st.advance c call phase)
  | fail {l : Statement} {c : Nat} {call : Call} {phase : Phase}
    (hc : st.calls c = some (call, phase)) : Steps st l (st.rollback c call)
  | pass {c : Nat} {lobbyId roomId appId : Uuid}
    (hc : st.calls c = some (.add lobbyId roomId appId, .begun))
    (hpass : passes st.store lobbyId roomId appId = true) :
    Steps st (.select c) (st.advance c (.add lobbyId roomId appId) .checked)
  | hold {c : Nat} {call : Call} {lobbyId : Uuid} (hc : st.calls c = some (call, .waiting)) :
    Steps st (.acquire c) (st.hold c call lobbyId)
  | reread {c : Nat} {lobbyId roomId appId : Uuid}
    (hc : st.calls c = some (.add lobbyId roomId appId, .checked)) :
    Steps st (.reread c) (st.advance c (.add lobbyId roomId appId) .saving)
  | insert {c : Nat} {lobbyId roomId appId : Uuid}
    (hc : st.calls c = some (.add lobbyId roomId appId, .saving)) :
    Steps st (.write c)
      (st.insert c (.add lobbyId roomId appId) { lobbyId := lobbyId, roomId := roomId })
  | remove {c : Nat} {lobbyId roomId appId : Uuid}
    (hc : st.calls c = some (.remove lobbyId roomId appId, .found)) :
    Steps st (.write c) (st.remove c (.remove lobbyId roomId appId) (lobbyId, roomId))
  | stamp {c : Nat} {now : Int} {lobbyId appId : Uuid} {version : Lobby}
    (hc : st.calls c = some (.delete now lobbyId appId, .held)) :
    Steps st (.write c) (st.writeLobby c (.delete now lobbyId appId) version)
  | commit {c : Nat} {call : Call} {phase : Phase} (hc : st.calls c = some (call, phase)) :
    Steps st (.commit c) (st.commit c call)

/-- In any phase but `written` a call may go to one from which it inserts nothing. -/
theorem Steps.settle_of {st : State} {l : Statement} {c : Nat} {call : Call} {from' phase : Phase}
    (hc : st.calls c = some (call, from')) (hf : from' ≠ .written) (hp : phase.isPast = false) :
    Steps st l (st.advance c call phase) :=
  .settle (Pool.phase_ne hc hf) hp

theorem of_selectRow {st : State} {c : Nat} {call : Call} (hc : st.calls c = some (call, .begun)) :
    Steps st (.select c) (selectRow st c call) := by
  cases call with
  | add lobbyId roomId appId =>
    simp only [selectRow]
    split
    · rename_i hpass
      exact .pass hc hpass
    · exact .fail hc
  | remove lobbyId roomId appId =>
    simp only [selectRow]
    split
    · exact .fail hc
    · exact .settle_of hc (by simp) rfl
  | delete now lobbyId appId =>
    simp only [selectRow]
    split
    · exact .fail hc
    · exact .settle_of hc (by simp) rfl

theorem of_step {st st' : State} {l : Statement} (h : step st l = some st') : Steps st l st' := by
  cases l with
  | begin c call =>
    simp only [step] at h
    split at h
    · cases h
    · rename_i hc
      cases h
      exact .settle (fun _ _ h => by rw [hc] at h; cases h) rfl
  | select c =>
    simp only [step] at h
    split at h
    · rename_i hc
      cases h
      exact of_selectRow hc
    · cases h
  | acquire c =>
    simp only [step] at h
    split at h
    · rename_i hc
      split at h
      · cases h
      · split at h
        · cases h
          exact .fail hc
        · cases h
          exact .hold hc
    · cases h
  | reread c =>
    simp only [step] at h
    split at h
    · rename_i hc
      split at h
      · cases h
        exact .settle_of hc (by simp) rfl
      · cases h
        exact .reread hc
    · cases h
  | write c =>
    simp only [step] at h
    split at h
    · rename_i hc
      unfold insertRow at h
      split at h
      · cases h
      · split at h
        · cases h
          exact .fail hc
        · cases h
          exact .insert hc
    · rename_i hc
      unfold removeRow at h
      split at h
      · cases h
      · split at h
        · cases h
          exact .remove hc
        · cases h
          exact .settle_of hc (by simp) rfl
    · rename_i hc
      unfold stampRow at h
      split at h
      · cases h
      · split at h
        · cases h
          exact .settle_of hc (by simp) rfl
        · cases h
          exact .stamp hc
    · cases h
  | commit c =>
    simp only [step] at h
    split at h
    · rename_i hc
      cases h
      exact .commit hc
    · rename_i hc
      cases h
      exact .commit hc
    · cases h
  | rollback c =>
    simp only [step] at h
    split at h
    · cases h
    · cases h
    · rename_i hc
      cases h
      exact .fail hc

/-! ## One call at a time -/

section

variable (st : State) (c : Nat) (call : Call)

@[simp] theorem calls_advance (phase : Phase) : (st.advance c call phase).calls c = some (call, phase) :=
  Pool.move_self st.calls c call phase

@[simp] theorem calls_hold (lobbyId : Uuid) : (st.hold c call lobbyId).calls c = some (call, .held) :=
  Pool.move_self st.calls c call .held

@[simp] theorem calls_insert (row : LobbyRoom) : (st.insert c call row).calls c = some (call, .written) :=
  Pool.move_self st.calls c call .written

@[simp] theorem calls_remove (pair : Uuid × Uuid) :
    (st.remove c call pair).calls c = some (call, .written) :=
  Pool.move_self st.calls c call .written

@[simp] theorem calls_writeLobby (version : Lobby) :
    (st.writeLobby c call version).calls c = some (call, .written) :=
  Pool.move_self st.calls c call .written

@[simp] theorem calls_commit : (st.commit c call).calls c = some (call, .returned true) :=
  Pool.move_self st.calls c call (.returned true)

end

/-- Run to the end with nothing beside it, the call takes one store's rows to the other's. -/
def Alone (s : Store) (call : Call) (s' : Store) : Prop :=
  ∃ run st, exec step (State.idle s) (.begin 0 call :: run) = some st ∧
    st.calls 0 = some (call, .returned true) ∧
    st.lobbies.rows = s'.lobbies ∧ st.members.rows = s'.lobbyRooms

/-- The last statements of a call that has come to `st`. -/
theorem alone_of_commit {s s' : Store} {call : Call} {phase : Phase} (run : List Statement)
    (st : State) (hrun : exec step (State.idle s) (.begin 0 call :: run) = some st)
    (hc : st.calls 0 = some (call, phase)) (hp : phase = .written ∨ phase = .unchanged)
    (hlobbies : (st.lobbies.commit (·.lobbyId) 0).rows = s'.lobbies)
    (hmembers : (st.members.commit pairOf 0).rows = s'.lobbyRooms) : Alone s call s' := by
  refine ⟨run ++ [.commit 0], st.commit 0 call, ?_, calls_commit st 0 call, hlobbies, hmembers⟩
  have hcommit : step st (.commit 0) = some (st.commit 0 call) := by
    rcases hp with rfl | rfl
    · simp [step, hc]
    · simp [step, hc]
  exact exec_append.2 ⟨st, hrun, exec_step hcommit rfl⟩

/-- Nothing is hidden while no transaction is open. -/
theorem rows_commit_of_none {t : JoinTable (Uuid × Uuid) LobbyRoom} (hi : t.inserted = [])
    (hd : t.deleted = []) (c : Nat) : (t.commit pairOf c).rows = t.rows := by
  simp [JoinTable.commit, JoinTable.insertedBy, hi, hd]

/-- An addition that succeeds has passed its preconditions, with no row of the pair. -/
theorem of_addRoom {db db' : Database} {lobbyId roomId appId : Uuid} {lr : LobbyRoom}
    (h : addRoomToLobby db lobbyId roomId appId = .ok (lr, db')) :
    passes db.store lobbyId roomId appId = true ∧
      (∀ r ∈ db.store.lobbyRooms, r.lobbyId = lobbyId → r.roomId ≠ roomId) ∧
      db'.store = { db.store with
        lobbyRooms := db.store.lobbyRooms ++ [{ lobbyId := lobbyId, roomId := roomId }] } := by
  unfold addRoomToLobby at h
  dsimp only at h
  split at h
  · cases h
  · rename_i hlobby
    split at h
    · cases h
    · rename_i hroom
      split at h
      · cases h
      · rename_i halready
        split at h
        · cases h
        · rename_i hplace
          have hnone : ∀ r ∈ db.store.lobbyRooms, r.lobbyId = lobbyId → r.roomId ≠ roomId := by
            intro r hr hl hroom
            refine halready (decide_eq_true (List.length_pos_of_mem (List.mem_filter.2 ⟨hr, ?_⟩)))
            simp [hl, hroom]
          obtain ⟨_, hstore⟩ := commit_ok h
          refine ⟨?_, hnone, ?_⟩
          · simp only [Bool.not_eq_false] at hlobby hroom
            simp only [Bool.not_eq_true] at halready
            simp [passes, hlobby, hroom, halready, Nat.lt_of_not_le hplace]
          · have hnew : ¬ ∃ r ∈ db.store.lobbyRooms, r.lobbyId = lobbyId ∧ r.roomId = roomId := by
              rintro ⟨r, hr, hl, hroom⟩
              exact hnone r hr hl hroom
            rw [hstore]
            simp only [saveMember, List.any_eq_true, Bool.and_eq_true, decide_eq_true_eq]
            rw [if_neg hnew]

theorem add_alone {db db' : Database} {lobbyId roomId appId : Uuid} {lr : LobbyRoom}
    (h : addRoomToLobby db lobbyId roomId appId = .ok (lr, db')) :
    Alone db.store (.add lobbyId roomId appId) db'.store := by
  obtain ⟨hpass, hnone, hstore⟩ := of_addRoom h
  let call : Call := .add lobbyId roomId appId
  let row : LobbyRoom := { lobbyId := lobbyId, roomId := roomId }
  let st₁ := (State.idle db.store).advance 0 call .begun
  let st₂ := st₁.advance 0 call .checked
  let st₃ := st₂.advance 0 call .saving
  have hfind : (State.idle db.store).members.find pairOf (lobbyId, roomId) = none := by
    refine List.find?_eq_none.2 fun r hr hk => ?_
    have hpair : pairOf r = (lobbyId, roomId) := of_decide_eq_true hk
    cases hpair
    exact hnone r hr rfl rfl
  have hselect : step st₁ (.select 0) = some st₂ := by
    have hpass' : passes st₁.store lobbyId roomId appId = true := hpass
    simp only [step, st₁, calls_advance, selectRow, call]
    exact congrArg some (if_pos hpass')
  have hreread : step st₂ (.reread 0) = some st₃ := by
    have hfind' : st₂.members.find pairOf (lobbyId, roomId) = none := hfind
    simp only [step, st₂, calls_advance, call] at hfind' ⊢
    rw [hfind']
  have hwrite : step st₃ (.write 0) = some (st₃.insert 0 call row) := by
    have hfind' : st₃.members.find pairOf (pairOf row) = none := hfind
    have hfree : st₃.members.insertable pairOf 0 (pairOf row) = true := rfl
    simp only [step, st₃, calls_advance, insertRow, call] at hfind' hfree ⊢
    rw [hfind', hfree]
    rfl
  refine alone_of_commit [.select 0, .reread 0, .write 0] (st₃.insert 0 call row) ?_
    (calls_insert ..) (.inl rfl) ?_ ?_
  · exact exec_step rfl (exec_step hselect (exec_step hreread (exec_step hwrite rfl)))
  · rw [hstore]
    exact Table.rows_commit_nothing rfl 0
  · rw [hstore]
    simp [JoinTable.commit, JoinTable.insertedBy, JoinTable.insert, st₃, st₂, st₁, State.insert,
      State.advance, State.idle, row]

theorem remove_alone {db db' : Database} {lobbyId roomId appId : Uuid}
    (h : removeRoomFromLobby db lobbyId roomId appId = .ok ((), db')) :
    Alone db.store (.remove lobbyId roomId appId) db'.store := by
  unfold removeRoomFromLobby at h
  split at h
  · cases h
  · rename_i lobby hlobby
    obtain ⟨_, hstore⟩ := commit_ok h
    let call : Call := .remove lobbyId roomId appId
    let st₁ := (State.idle db.store).advance 0 call .begun
    let st₂ := st₁.advance 0 call .found
    have hselect : step st₁ (.select 0) = some st₂ := by
      have hlobby' : findByIdAndApp st₁.store lobbyId appId = some lobby := hlobby
      simp only [step, st₁, calls_advance, selectRow, call] at hlobby' ⊢
      rw [hlobby']
    have hfree : st₂.members.deletable 0 (lobbyId, roomId) = true := rfl
    cases hfind : (State.idle db.store).members.find pairOf (lobbyId, roomId) with
    | none =>
      have hfind' : st₂.members.find pairOf (lobbyId, roomId) = none := hfind
      have hwrite : step st₂ (.write 0) = some (st₂.advance 0 call .unchanged) := by
        simp only [step, st₂, calls_advance, removeRow, call] at hfind' hfree ⊢
        rw [hfind', hfree]
        rfl
      refine alone_of_commit [.select 0, .write 0] (st₂.advance 0 call .unchanged) ?_
        (calls_advance ..) (.inr rfl) ?_ ?_
      · exact exec_step rfl (exec_step hselect (exec_step hwrite rfl))
      · rw [hstore]
        exact Table.rows_commit_nothing rfl 0
      · rw [hstore]
        refine (rows_commit_of_none rfl rfl 0).trans (List.filter_eq_self.2 fun r hr => ?_).symm
        have hmiss : ¬ (r.lobbyId = lobbyId ∧ r.roomId = roomId) := by
          simpa [pairOf] using List.find?_eq_none.1 hfind r hr
        rw [Bool.not_eq_true', Bool.and_eq_false_iff, decide_eq_false_iff_not,
          decide_eq_false_iff_not]
        exact Decidable.not_and_iff_or_not.1 hmiss
    | some row =>
      have hfind' : st₂.members.find pairOf (lobbyId, roomId) = some row := hfind
      have hwrite : step st₂ (.write 0) = some (st₂.remove 0 call (lobbyId, roomId)) := by
        simp only [step, st₂, calls_advance, removeRow, call] at hfind' hfree ⊢
        rw [hfind', hfree]
        rfl
      refine alone_of_commit [.select 0, .write 0] (st₂.remove 0 call (lobbyId, roomId)) ?_
        (calls_remove ..) (.inl rfl) ?_ ?_
      · exact exec_step rfl (exec_step hselect (exec_step hwrite rfl))
      · rw [hstore]
        exact Table.rows_commit_nothing rfl 0
      · rw [hstore]
        simp [JoinTable.commit, JoinTable.insertedBy, JoinTable.delete, st₂, st₁, State.remove,
          State.advance, State.idle, deleteRows, pairOf]

theorem delete_alone {db db' : Database} {now : Int} {lobbyId appId : Uuid}
    (h : deleteLobby db now lobbyId appId = .ok ((), db')) :
    Alone db.store (.delete now lobbyId appId) db'.store := by
  unfold deleteLobby at h
  split at h
  · cases h
  · rename_i lobby hlobby
    obtain ⟨_, hstore⟩ := commit_ok h
    obtain ⟨hm, hl, hp⟩ := of_findOne hlobby
    simp only [Bool.and_eq_true, decide_eq_true_eq] at hp
    let call : Call := .delete now lobbyId appId
    let st₁ := (State.idle db.store).advance 0 call .begun
    let st₂ := st₁.advance 0 call .waiting
    let st₃ := st₂.hold 0 call lobbyId
    let version : Lobby := { lobby with deletedAt := some now }
    have hselect : step st₁ (.select 0) = some st₂ := by
      have hlobby' : findByIdAndApp st₁.store lobbyId appId = some lobby := hlobby
      simp only [step, st₁, calls_advance, selectRow, call] at hlobby' ⊢
      rw [hlobby']
    have hacquire : step st₂ (.acquire 0) = some st₃ := by
      have hlobby' : findByIdAndApp st₂.store lobbyId appId = some lobby := hlobby
      have hfree : st₂.lobbies.lockable (·.lobbyId) 0 lobbyId = true := rfl
      simp only [step, st₂, calls_advance, call] at hlobby' hfree ⊢
      rw [hlobby', hfree]
      rfl
    have hwrite : step st₃ (.write 0) = some (st₃.writeLobby 0 call version) := by
      have hlobby' : findByIdAndApp st₃.store lobbyId appId = some lobby := hlobby
      have hfree : st₃.lobbies.writable (·.lobbyId) 0 lobbyId = true := by
        rw [Table.writable_iff]
        constructor
        · intro e he
          cases he
        · intro l hl _
          cases List.mem_singleton.1 hl
          rfl
      simp only [step, st₃, calls_hold, stampRow, call] at hlobby' hfree ⊢
      rw [hlobby', hfree]
      rfl
    refine alone_of_commit [.select 0, .acquire 0, .write 0] (st₃.writeLobby 0 call version) ?_
      (calls_writeLobby ..) (.inl rfl) ?_ ?_
    · exact exec_step rfl (exec_step hselect (exec_step hacquire (exec_step hwrite rfl)))
    · rw [hstore]
      refine (Table.rows_commit_write rfl 0 version).trans ?_
      refine (Table.publish_update (f := fun l => { l with deletedAt := some now }) db.valid.pkLobby
        hm (fun r hr => ?_) rfl).symm
      -- the row of this id is the one that was found
      by_cases hid : r.lobbyId = lobby.lobbyId
      · cases db.valid.pkLobby.eq_of_key hr hm hid
        simp [hp.1, hp.2, hl]
      · have hne : r.lobbyId ≠ lobbyId := fun heq => hid (heq.trans hp.1.symm)
        simp [hid, hne]
    · rw [hstore]
      exact rows_commit_of_none rfl rfl 0

end Members
end LobbyFacade
end NolagCore
