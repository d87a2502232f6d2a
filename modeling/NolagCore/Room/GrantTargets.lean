import NolagCore.Lib.ReadCommitted
import NolagCore.Room.GrantInterleaving

/-!
# Room.GrantTargets

Creates, updates and deletes of the grants of all rooms, interleaved statement by statement under
READ COMMITTED. The duplicate check of `create` reads the committed rows and locks nothing, and no
index stands behind it: two creates for one target that both check before either commits both
insert. A save that writes `deleted_at` back to null opens a grant with no check at all.

Where no two calls open a grant for the same target at a time, no target gets a second one.
-/

namespace NolagCore
namespace RoomActorAccessFacade
namespace Targets

open Lib

/-- What a grant applies to: one actor in a room, or one actor type. -/
inductive Target where
  | actor (roomId actorTokenId : Uuid)
  | type (roomId : Uuid) (actorType : EActorType)
deriving DecidableEq

/-- The target of a row. A grant without a named actor is a type grant. -/
def targetOf (roomId : Uuid) (actorTokenId : Option Uuid) (actorType : Option EActorType) :
    Option Target :=
  match actorTokenId with
  | some actorTokenId => some (.actor roomId actorTokenId)
  | none => actorType.map (.type roomId)

def grantTarget (g : RoomActorAccess) : Option Target :=
  targetOf g.roomId g.actorTokenId g.actorType

/-- At most one live grant a target. -/
def OneGrant (rows : List RoomActorAccess) : Prop :=
  ∀ g ∈ rows, ∀ g' ∈ rows, live g = true → live g' = true →
    ∀ T, grantTarget g = some T → grantTarget g' = some T → g = g'

/-! ## Statements -/

inductive Call where
  | create (roomActorAccessId roomId : Uuid) (dto : RoomActorAccessCreateDto)
  | update (roomActorAccessId : Uuid) (dto : RoomActorAccessUpdateDto)
  | delete (now : Int) (roomActorAccessId : Uuid)

inductive Phase where
  | begun
  /-- The duplicate check has found nothing. -/
  | checked
  /-- `findOne` has returned the live row. -/
  | found (existing : RoomActorAccess)
  /-- `save` has read the row again and found a difference. -/
  | saving (entity reread : RoomActorAccess)
  /-- There is nothing to write, or no row to write it to. -/
  | unchanged
  /-- The INSERT or UPDATE has run. -/
  | written
  /-- The transaction has committed, or has been rolled back. -/
  | returned (ok : Bool)
deriving DecidableEq

structure State where
  table : Table Uuid RoomActorAccess
  calls : Pool Call Phase

def State.init (rows : List RoomActorAccess) : State where
  table := { rows }
  calls := Pool.empty

/-- A statement that changes nothing but the phase of its call. -/
def State.advance (st : State) (c : Nat) (call : Call) (phase : Phase) : State :=
  { st with calls := st.calls.move c call phase }

/-- The INSERT or UPDATE of a call. -/
def State.write (st : State) (c : Nat) (call : Call) (version : RoomActorAccess) : State where
  table := st.table.write (·.roomActorAccessId) c version
  calls := st.calls.move c call .written

def State.commit (st : State) (c : Nat) (call : Call) : State where
  table := st.table.commit (·.roomActorAccessId) c
  calls := st.calls.move c call (.returned true)

def State.rollback (st : State) (c : Nat) (call : Call) : State where
  table := st.table.release c
  calls := st.calls.move c call (.returned false)

inductive Statement where
  | begin (c : Nat) (call : Call)
  | findOne (c : Nat)
  | reread (c : Nat)
  | write (c : Nat)
  | commit (c : Nat)
  /-- An exception, whatever throws it: the transaction is rolled back. -/
  | rollback (c : Nat)

/-- The entity `create` saves. -/
def newGrant (roomActorAccessId roomId : Uuid) (dto : RoomActorAccessCreateDto)
    (expiresAt : Option Int) : RoomActorAccess where
  roomActorAccessId := roomActorAccessId
  roomId := roomId
  actorTokenId := dto.actorTokenId
  actorType := dto.actorType
  permission := dto.permission
  topics := dto.topics
  isActive := dto.isActive.getD true
  expiresAt := expiresAt
  role := dto.role
  metadata := dto.metadata

/-- A create is refused before its transaction unless it names exactly one target. -/
def begun : Call → Phase
  | .create _ _ dto =>
    if dto.actorTokenId.isSome = dto.actorType.isSome then .returned false else .begun
  | _ => .begun

def findRow (rows : List RoomActorAccess) (roomActorAccessId : Uuid) : Option RoomActorAccess :=
  findOne rows fun g => decide (g.roomActorAccessId = roomActorAccessId)

/-- The row of an id, deleted or not. -/
def rowOf (rows : List RoomActorAccess) (roomActorAccessId : Uuid) : Option RoomActorAccess :=
  rows.find? fun g => decide (g.roomActorAccessId = roomActorAccessId)

/-- After the first SELECT of a call. -/
def selected (rows : List RoomActorAccess) : Call → Phase
  | .create _ roomId dto => if (findOne rows (targets roomId dto)).isSome then .returned false
      else .checked
  | .update id _ | .delete _ id => match findRow rows id with
      | none => .returned false
      | some existing => .found existing

/-- After the read of `save`. -/
def prepared (legacy : String → Option Int) (dto : RoomActorAccessUpdateDto)
    (existing row : RoomActorAccess) : Phase :=
  match assign legacy dto existing with
  | .error _ => .returned false
  | .ok entity => if entity = row then .unchanged else .saving entity row

section

variable (legacy : String → Option Int)

/-- The INSERT of a create: an invalid date or a taken id is refused. -/
def insertRow (st : State) (c : Nat) (id roomId : Uuid) (dto : RoomActorAccessCreateDto) :
    Option State :=
  match dateColumn legacy dto.expiresAt with
  | .error _ => some (st.advance c (.create id roomId dto) (.returned false))
  | .ok expiresAt =>
    if st.table.writable (·.roomActorAccessId) c id = false then none
    else if (rowOf st.table.rows id).isSome then
      some (st.advance c (.create id roomId dto) (.returned false))
    else some (st.write c (.create id roomId dto) (newGrant id roomId dto expiresAt))

/-- An UPDATE of the row of an id, which waits for the transaction that holds it. -/
def updateRow (st : State) (c : Nat) (call : Call) (id : Uuid)
    (f : RoomActorAccess → RoomActorAccess) : Option State :=
  if st.table.writable (·.roomActorAccessId) c id = false then none
  else match rowOf st.table.rows id with
    | none => some (st.advance c call .unchanged)
    | some row => some (st.write c call (f row))

def step (st : State) : Statement → Option State
  | .begin c call =>
    match st.calls c with
    | some _ => none
    | none => some (st.advance c call (begun call))
  | .findOne c =>
    match st.calls c with
    | some (call, .begun) => some (st.advance c call (selected st.table.rows call))
    | _ => none
  | .reread c =>
    match st.calls c with
    -- no statement removes a row, so the one found is still there
    | some (.update id dto, .found existing) => (rowOf st.table.rows id).map fun row =>
        st.advance c (.update id dto) (prepared legacy dto existing row)
    | _ => none
  | .write c =>
    match st.calls c with
    | some (.create id roomId dto, .checked) => insertRow legacy st c id roomId dto
    | some (.update id dto, .saving entity reread) =>
      updateRow st c (.update id dto) id (writeBack entity reread)
    | some (.delete now id, .found _) =>
      updateRow st c (.delete now id) id fun row => { row with deletedAt := some now }
    | _ => none
  | .commit c =>
    match st.calls c with
    | some (call, .written) => some (st.commit c call)
    | some (call, .unchanged) => some (st.advance c call (.returned true))
    | _ => none
  | .rollback c =>
    match st.calls c with
    | none | some (_, .returned _) => none
    | some (call, _) => some (st.rollback c call)

/-- Neither a lock nor an entity is carried into these phases. -/
def Phase.isIdle : Phase → Bool
  | .begun | .unchanged | .returned _ => true
  | _ => false

/-- What a step is, one constructor for each kind of effect. -/
inductive Steps (st : State) : Statement → State → Prop
  | settle {l : Statement} {c : Nat} {call : Call} {phase : Phase}
    (hc : ∀ call' phase', st.calls c = some (call', phase') → phase' ≠ .written)
    (hi : phase.isIdle = true) : Steps st l (st.advance c call phase)
  | checked {c : Nat} {id roomId : Uuid} {dto : RoomActorAccessCreateDto}
    (hc : st.calls c = some (.create id roomId dto, .begun))
    (hnone : findOne st.table.rows (targets roomId dto) = none) :
    Steps st (.findOne c) (st.advance c (.create id roomId dto) .checked)
  | found {c : Nat} {call : Call} {id : Uuid} {existing : RoomActorAccess}
    (hc : st.calls c = some (call, .begun))
    (hid : ∀ id' dto, call = .update id' dto → id' = id)
    (hrow : findRow st.table.rows id = some existing) :
    Steps st (.findOne c) (st.advance c call (.found existing))
  | reread {c : Nat} {id : Uuid} {dto : RoomActorAccessUpdateDto}
    {existing entity row : RoomActorAccess}
    (hc : st.calls c = some (.update id dto, .found existing))
    (hrow : rowOf st.table.rows id = some row) (he : assign legacy dto existing = .ok entity) :
    Steps st (.reread c) (st.advance c (.update id dto) (.saving entity row))
  | insert {c : Nat} {id roomId : Uuid} {dto : RoomActorAccessCreateDto} {expiresAt : Option Int}
    (hc : st.calls c = some (.create id roomId dto, .checked))
    (hlock : st.table.writable (·.roomActorAccessId) c id = true)
    (hfresh : rowOf st.table.rows id = none) :
    Steps st (.write c) (st.write c (.create id roomId dto) (newGrant id roomId dto expiresAt))
  | save {c : Nat} {id : Uuid} {dto : RoomActorAccessUpdateDto} {entity reread row : RoomActorAccess}
    (hc : st.calls c = some (.update id dto, .saving entity reread))
    (hlock : st.table.writable (·.roomActorAccessId) c id = true)
    (hrow : rowOf st.table.rows id = some row) :
    Steps st (.write c) (st.write c (.update id dto) (writeBack entity reread row))
  | stamp {c : Nat} {now : Int} {id : Uuid} {existing row : RoomActorAccess}
    (hc : st.calls c = some (.delete now id, .found existing))
    (hlock : st.table.writable (·.roomActorAccessId) c id = true)
    (hrow : rowOf st.table.rows id = some row) :
    Steps st (.write c) (st.write c (.delete now id) { row with deletedAt := some now })
  | commit {c : Nat} {call : Call} (hc : st.calls c = some (call, .written)) :
    Steps st (.commit c) (st.commit c call)
  | rollback {c : Nat} {call : Call} {phase : Phase} (hc : st.calls c = some (call, phase)) :
    Steps st (.rollback c) (st.rollback c call)

variable {legacy}

/-- In any phase but `written` a call may go to an idle one. -/
theorem Steps.settle_of {st : State} {l : Statement} {c : Nat} {call : Call} {from' phase : Phase}
    (hc : st.calls c = some (call, from')) (hf : from' ≠ .written) (hi : phase.isIdle = true) :
    Steps legacy st l (st.advance c call phase) :=
  .settle (Pool.phase_ne hc hf) hi

theorem of_findOne_step {st : State} {c : Nat} {call : Call}
    (hc : st.calls c = some (call, .begun)) :
    Steps legacy st (.findOne c) (st.advance c call (selected st.table.rows call)) := by
  cases call with
  | create id roomId dto =>
    simp only [selected]
    split
    · exact .settle_of hc (by simp) rfl
    · rename_i hnone
      exact .checked hc (by simpa using hnone)
  | update id dto =>
    simp only [selected]
    split
    · exact .settle_of hc (by simp) rfl
    · rename_i hrow
      exact .found hc (fun _ _ h => by cases h; rfl) hrow
  | delete now id =>
    simp only [selected]
    split
    · exact .settle_of hc (by simp) rfl
    · rename_i hrow
      exact .found hc (fun _ _ h => by cases h) hrow

theorem of_reread_step {st : State} {c : Nat} {id : Uuid} {dto : RoomActorAccessUpdateDto}
    {existing row : RoomActorAccess} (hc : st.calls c = some (.update id dto, .found existing))
    (hrow : rowOf st.table.rows id = some row) :
    Steps legacy st (.reread c)
      (st.advance c (.update id dto) (prepared legacy dto existing row)) := by
  unfold prepared
  split
  · exact .settle_of hc (by simp) rfl
  · rename_i entity he
    split
    · exact .settle_of hc (by simp) rfl
    · exact .reread hc hrow he

theorem of_insertRow {st st' : State} {c : Nat} {id roomId : Uuid} {dto : RoomActorAccessCreateDto}
    (hc : st.calls c = some (.create id roomId dto, .checked))
    (h : insertRow legacy st c id roomId dto = some st') : Steps legacy st (.write c) st' := by
  unfold insertRow at h
  split at h
  · cases h
    exact .settle_of hc (by simp) rfl
  · split at h
    · cases h
    · rename_i hlock
      split at h
      · cases h
        exact .settle_of hc (by simp) rfl
      · rename_i hfresh
        cases h
        exact .insert hc (by simpa using hlock) (by simpa using hfresh)

theorem of_updateRow {st st' : State} {c : Nat} {call : Call} {phase : Phase} {id : Uuid}
    {f : RoomActorAccess → RoomActorAccess} (hc : st.calls c = some (call, phase))
    (hp : phase ≠ .written) (h : updateRow st c call id f = some st')
    (hwrite : ∀ row, st.table.writable (·.roomActorAccessId) c id = true →
      rowOf st.table.rows id = some row → Steps legacy st (.write c) (st.write c call (f row))) :
    Steps legacy st (.write c) st' := by
  unfold updateRow at h
  split at h
  · cases h
  · rename_i hlock
    split at h
    · cases h
      exact .settle_of hc hp rfl
    · rename_i row hrow
      cases h
      exact hwrite row (by simpa using hlock) hrow

theorem of_step {st st' : State} {l : Statement} (h : step legacy st l = some st') :
    Steps legacy st l st' := by
  cases l with
  | begin c call =>
    simp only [step] at h
    split at h
    · cases h
    · rename_i hc
      cases h
      refine .settle (fun _ _ h => by rw [hc] at h; cases h) ?_
      unfold begun
      split
      · split <;> rfl
      · rfl
  | findOne c =>
    simp only [step] at h
    split at h
    · rename_i hc
      cases h
      exact of_findOne_step hc
    · cases h
  | reread c =>
    simp only [step] at h
    split at h
    · rename_i hc
      obtain ⟨row, hrow, rfl⟩ := Option.map_eq_some_iff.1 h
      exact of_reread_step hc hrow
    · cases h
  | write c =>
    simp only [step] at h
    split at h
    · rename_i hc
      exact of_insertRow hc h
    · rename_i hc
      exact of_updateRow hc (by simp) h fun row hlock hrow => .save hc hlock hrow
    · rename_i hc
      exact of_updateRow hc (by simp) h fun row hlock hrow => .stamp hc hlock hrow
    · cases h
  | commit c =>
    simp only [step] at h
    split at h
    · rename_i hc
      cases h
      exact .commit hc
    · rename_i hc
      cases h
      exact .settle_of hc (by simp) rfl
    · cases h
  | rollback c =>
    simp only [step] at h
    split at h
    · cases h
    · cases h
    · rename_i hc
      cases h
      exact .rollback hc

end

/-! ## Targets stay -/

theorem grantTarget_congr {g g' : RoomActorAccess} (h : target g = target g') :
    grantTarget g = grantTarget g' := by
  simp only [target, Prod.mk.injEq] at h
  unfold grantTarget
  rw [h.2.1, h.2.2.1, h.2.2.2]

theorem target_assign {legacy : String → Option Int} {dto : RoomActorAccessUpdateDto}
    {existing entity : RoomActorAccess} (h : assign legacy dto existing = .ok entity) :
    target entity = target existing := by
  obtain ⟨_, _, rfl⟩ := assign_ok_iff.1 h
  rfl

theorem target_writeBack {entity reread current : RoomActorAccess}
    (h : target entity = target reread) : target (writeBack entity reread current) = target current := by
  simp only [target, Prod.mk.injEq] at h
  simp [target, writeBack, column, h.2.1, h.2.2.1, h.2.2.2]

theorem of_rowOf {rows : List RoomActorAccess} {id : Uuid} {row : RoomActorAccess}
    (h : rowOf rows id = some row) : row ∈ rows ∧ row.roomActorAccessId = id :=
  ⟨List.mem_of_find?_eq_some h, by simpa using List.find?_some h⟩

/-! ## One call on its own -/

/-- Run to the end with nothing beside it, the call leaves these rows. -/
def Alone (legacy : String → Option Int) (rows : List RoomActorAccess) (call : Call)
    (rows' : List RoomActorAccess) : Prop :=
  ∃ run st, exec (step legacy) (State.init rows) (.begin 0 call :: run) = some st ∧
    st.calls 0 = some (call, .returned true) ∧ st.table.rows = rows'

theorem rowOf_of_findRow {rows : List RoomActorAccess} (hpk : UniqueOn (·.roomActorAccessId) rows)
    {id : Uuid} {row : RoomActorAccess} (h : findRow rows id = some row) : rowOf rows id = some row := by
  obtain ⟨hm, _, hid⟩ := of_findOne h
  have hid : row.roomActorAccessId = id := of_decide_eq_true hid
  cases hf : rowOf rows id with
  | none => exact absurd (decide_eq_true hid) (List.find?_eq_none.1 hf row hm)
  | some row' =>
    have hid' : row'.roomActorAccessId = id := by simpa using List.find?_some hf
    rw [hpk.eq_of_key (List.mem_of_find?_eq_some hf) hm (hid'.trans hid.symm)]

/-- Past its reads, a call that writes one row leaves it in the table. -/
theorem alone_of_write {legacy : String → Option Int} {rows : List RoomActorAccess} {call : Call}
    {version : RoomActorAccess} (run : List Statement) (st : State)
    (hrun : exec (step legacy) (State.init rows) (.begin 0 call :: run) = some st)
    (htable : st.table = { rows })
    (hwrite : step legacy st (.write 0) = some (st.write 0 call version)) :
    Alone legacy rows call (Table.publish (·.roomActorAccessId) [version] rows) := by
  have hcommit : step legacy (st.write 0 call version) (.commit 0) =
      some ((st.write 0 call version).commit 0 call) := by
    simp [step, State.write]
  refine ⟨run ++ [.write 0, .commit 0], (st.write 0 call version).commit 0 call, ?_, ?_, ?_⟩
  · rw [← List.cons_append]
    refine exec_append.2 ⟨st, hrun, ?_⟩
    simp only [exec, hwrite, hcommit, Option.bind_some]
  · exact Pool.move_self (st.write 0 call version).calls 0 call (.returned true)
  · have hpending : st.table.pending = [] := by rw [htable]
    have hrows : st.table.rows = rows := by rw [htable]
    rw [← hrows]
    exact Table.rows_commit_write hpending 0 version

/-- Nothing else holds the row of a call on its own. -/
theorem writable_alone (rows : List RoomActorAccess) (id : Uuid) :
    ({ rows } : Table Uuid RoomActorAccess).writable (·.roomActorAccessId) 0 id = true :=
  rfl

theorem create_alone {legacy : String → Option Int} {db db' : Database} {id roomId : Uuid}
    {dto : RoomActorAccessCreateDto} {entity : RoomActorAccess}
    (h : create legacy db id roomId dto = .ok (entity, db')) :
    Alone legacy db.store.roomActorAccess (.create id roomId dto) db'.store.roomActorAccess := by
  unfold create at h
  split at h
  · cases h
  · rename_i hneither
    split at h
    · cases h
    · rename_i hboth
      split at h
      · cases h
      · rename_i hnone
        split at h
        · cases h
        · rename_i expiresAt hdate
          obtain ⟨-, hstore⟩ := commit_ok h
          have hgrants : db'.store.roomActorAccess =
              db.store.roomActorAccess ++ [newGrant id roomId dto expiresAt] :=
            congrArg Store.roomActorAccess hstore
          have hpk := db'.valid.pkRoomGrant
          rw [hgrants] at hpk
          have hnew : ∀ g ∈ db.store.roomActorAccess, g.roomActorAccessId ≠ id := fun g hg =>
            hpk.ne_of_append hg (List.mem_singleton.2 rfl)
          have hone : dto.actorTokenId.isSome ≠ dto.actorType.isSome := by
            cases ha : dto.actorTokenId <;> cases ht : dto.actorType <;> simp_all
          have hrow : rowOf db.store.roomActorAccess id = none :=
            List.find?_eq_none.2 fun g hg hid => hnew g hg (of_decide_eq_true hid)
          have hpublish : db.store.roomActorAccess ++ [newGrant id roomId dto expiresAt] =
              Table.publish (·.roomActorAccessId) [newGrant id roomId dto expiresAt]
                db.store.roomActorAccess := Table.publish_append hnew
          rw [hgrants, hpublish]
          refine alone_of_write [.findOne 0] (((State.init _).advance 0
            (.create id roomId dto) .begun).advance 0 (.create id roomId dto) .checked) ?_ rfl ?_
          · simp [exec, step, begun, selected, State.advance, State.init, Pool.empty, hone, hnone]
          · simp [step, insertRow, hdate, hrow, State.advance, State.init, writable_alone]

theorem writeBack_self {legacy : String → Option Int} {dto : RoomActorAccessUpdateDto}
    {row entity : RoomActorAccess} (h : assign legacy dto row = .ok entity) :
    writeBack entity row row = entity := by
  obtain ⟨expiresAt, _, rfl⟩ := assign_ok_iff.1 h
  simp only [writeBack, column_self, assigned]

theorem update_alone {legacy : String → Option Int} {db db' : Database} {id : Uuid}
    {dto : RoomActorAccessUpdateDto} {entity : RoomActorAccess}
    (h : update legacy db id dto = .ok (entity, db')) :
    Alone legacy db.store.roomActorAccess (.update id dto) db'.store.roomActorAccess := by
  unfold update at h
  split at h
  · cases h
  · rename_i existing hfind
    split at h
    · cases h
    · rename_i entity' he
      obtain ⟨-, hstore⟩ := commit_ok h
      have hgrants : db'.store.roomActorAccess =
          saveRow (·.roomActorAccessId) entity' db.store.roomActorAccess :=
        congrArg Store.roomActorAccess hstore
      have hrow : findRow db.store.roomActorAccess id = some existing := hfind
      have hread := rowOf_of_findRow db.valid.pkRoomGrant hrow
      have hid : entity'.roomActorAccessId = existing.roomActorAccessId :=
        congrArg Prod.fst (target_assign he)
      have hm := (of_findOne hrow).1
      have hkey : existing.roomActorAccessId = id := (of_rowOf hread).2
      rw [hgrants]
      by_cases heq : entity' = existing
      · -- nothing differs, so `save` writes nothing
        have hsame : saveRow (·.roomActorAccessId) entity' db.store.roomActorAccess =
            db.store.roomActorAccess := by
          rw [heq]
          exact Table.save_self db.valid.pkRoomGrant hm
        rw [hsame]
        refine ⟨[.findOne 0, .reread 0, .commit 0], (((State.init _).advance 0 (.update id dto)
          .begun).advance 0 (.update id dto) (.found existing)).advance 0 (.update id dto) .unchanged
            |>.advance 0 (.update id dto) (.returned true), ?_, ?_, rfl⟩
        · simp [exec, step, begun, selected, prepared, State.advance, State.init, Pool.empty, hrow,
            hread, he, heq]
        · simp [State.advance]
      · have hrows : saveRow (·.roomActorAccessId) entity' db.store.roomActorAccess =
            Table.publish (·.roomActorAccessId) [entity'] db.store.roomActorAccess :=
          Table.publish_save db.valid.pkRoomGrant hm hid
        rw [hrows]
        refine alone_of_write [.findOne 0, .reread 0] ((((State.init _).advance 0
          (.update id dto) .begun).advance 0 (.update id dto) (.found existing)).advance 0
            (.update id dto) (.saving entity' existing)) ?_ rfl ?_
        · simp [exec, step, begun, selected, prepared, State.advance, State.init, Pool.empty, hrow,
            hread, he, heq]
        · simp [step, updateRow, State.advance, State.init, writable_alone, hread, writeBack_self he]

theorem delete_alone {legacy : String → Option Int} {db db' : Database} {now : Int} {id : Uuid}
    (h : delete db now id = .ok ((), db')) :
    Alone legacy db.store.roomActorAccess (.delete now id) db'.store.roomActorAccess := by
  unfold delete at h
  split at h
  · cases h
  · rename_i existing hfind
    obtain ⟨-, hstore⟩ := commit_ok h
    have hrow : findRow db.store.roomActorAccess id = some existing := hfind
    have hread := rowOf_of_findRow db.valid.pkRoomGrant hrow
    obtain ⟨hm, hkey⟩ := of_rowOf hread
    have hgrants : db'.store.roomActorAccess = Table.publish (·.roomActorAccessId)
        [{ existing with deletedAt := some now }] db.store.roomActorAccess := by
      rw [hstore]
      exact Table.publish_update db.valid.pkRoomGrant hm (fun r _ => by rw [hkey]) rfl
    rw [hgrants]
    refine alone_of_write [.findOne 0] (((State.init _).advance 0
      (.delete now id) .begun).advance 0 (.delete now id) (.found existing)) ?_ rfl ?_
    · simp [exec, step, begun, selected, State.advance, State.init, Pool.empty, hrow]
    · simp [step, updateRow, State.advance, State.init, writable_alone, hread]

/-! ## Opening a grant -/

/-- Call `c` is about to open a live grant for `T`: a create past its check, or a transaction whose
version makes a row live that is not. -/
inductive Opens (st : State) (c : Nat) (T : Target) : Prop
  | creating {id roomId : Uuid} {dto : RoomActorAccessCreateDto}
    (hc : st.calls c = some (.create id roomId dto, .checked))
    (hT : targetOf roomId dto.actorTokenId dto.actorType = some T)
  | writing {version : RoomActorAccess} (hm : (c, version) ∈ st.table.pending)
    (hl : live version = true) (hT : grantTarget version = some T)
    (hdead : ∀ r ∈ st.table.rows, r.roomActorAccessId = version.roomActorAccessId → live r = false)

/-- A duplicate check that finds nothing, and a save that brings a deleted row back, run while no
call is about to open a grant for the same target; and the save, while the target has no live one. -/
def NoOverlap (st : State) : Statement → Prop
  | .findOne c => ∀ id roomId dto T, st.calls c = some (.create id roomId dto, .begun) →
      findOne st.table.rows (targets roomId dto) = none →
      targetOf roomId dto.actorTokenId dto.actorType = some T → ∀ c', ¬ Opens st c' T
  | .write c => ∀ id dto entity reread row T,
      st.calls c = some (.update id dto, .saving entity reread) →
      rowOf st.table.rows id = some row → live row = false →
      live (writeBack entity reread row) = true → grantTarget row = some T →
      (∀ c', ¬ Opens st c' T) ∧ ∀ r ∈ st.table.rows, live r = true → grantTarget r ≠ some T
  | _ => True

structure Inv (st : State) : Prop where
  locked : st.table.WellLocked (·.roomActorAccessId)
  writer : ∀ e ∈ st.table.pending, ∃ call, st.calls e.1 = some (call, .written)
  single : UniqueOn Prod.fst st.table.pending
  sameTarget : ∀ e ∈ st.table.pending, ∀ r ∈ st.table.rows,
    r.roomActorAccessId = e.2.roomActorAccessId → target r = target e.2
  found : ∀ c id dto existing, st.calls c = some (.update id dto, .found existing) →
    existing.roomActorAccessId = id ∧ ∃ r ∈ st.table.rows, target r = target existing
  saving : ∀ c call entity reread, st.calls c = some (call, .saving entity reread) →
    target entity = target reread
  one : OneGrant st.table.rows
  alone : ∀ T c c', Opens st c T → Opens st c' T → c = c'
  vacant : ∀ T c, Opens st c T → ∀ r ∈ st.table.rows, live r = true → grantTarget r ≠ some T

theorem Inv.init {rows : List RoomActorAccess} (hpk : UniqueOn (·.roomActorAccessId) rows)
    (h : OneGrant rows) : Inv (State.init rows) where
  locked := .of_rows hpk
  writer := fun _ he => nomatch he
  single := List.nodup_nil
  sameTarget := fun _ he => nomatch he
  found := fun _ _ _ _ hc => nomatch hc
  saving := fun _ _ _ _ hc => nomatch hc
  one := h
  alone := by
    rintro T c c' (⟨hc, _⟩ | ⟨hm, _⟩)
    · cases hc
    · cases hm
  vacant := by
    rintro T c (⟨hc, _⟩ | ⟨hm, _⟩)
    · cases hc
    · cases hm

/-- The duplicate check looks for every live grant of its target. -/
theorem not_target_of_check {rows : List RoomActorAccess} {roomId : Uuid}
    {dto : RoomActorAccessCreateDto} {T : Target} (hnone : findOne rows (targets roomId dto) = none)
    (hT : targetOf roomId dto.actorTokenId dto.actorType = some T) :
    ∀ r ∈ rows, live r = true → grantTarget r ≠ some T := by
  intro r hr hl heq
  have hmiss := findOne_eq_none.1 hnone r hr hl
  have hhit : targets roomId dto r = true := by
    unfold grantTarget targetOf at heq
    unfold targetOf at hT
    unfold targets
    cases ha : dto.actorTokenId with
    | some a =>
      rw [ha] at hT
      cases hT
      cases hra : r.actorTokenId with
      | none => simp [hra] at heq
      | some a' =>
        simp only [hra, Option.some.injEq, Target.actor.injEq] at heq
        simp [heq.1, heq.2]
    | none =>
      rw [ha] at hT
      obtain ⟨t, ht, rfl⟩ := Option.map_eq_some_iff.1 hT
      cases hra : r.actorTokenId with
      | some a' => simp [hra] at heq
      | none =>
        simp only [hra, Option.map_eq_some_iff, Target.type.injEq] at heq
        obtain ⟨t', ht', hroom, rfl⟩ := heq
        simp [hroom, ht, ht']
  rw [hmiss] at hhit
  cases hhit

/-! ## Steps that leave the rows alone -/

/-- No call opens a grant for `T`, and none is live. -/
def Vacant (st : State) (T : Target) : Prop :=
  (∀ c, ¬ Opens st c T) ∧ ∀ r ∈ st.table.rows, live r = true → grantTarget r ≠ some T

/-- Where one call at most comes to open a grant, and for a vacant target, no target gets two. -/
theorem opens_grow {st : State} (st' : State) (h : Inv st) (hrows : st'.table.rows = st.table.rows)
    {c : Nat}
    (hg : ∀ T c', Opens st' c' T → Opens st c' T ∨ c' = c ∧ Vacant st T) :
    OneGrant st'.table.rows ∧ (∀ T c₁ c₂, Opens st' c₁ T → Opens st' c₂ T → c₁ = c₂) ∧
      ∀ T c', Opens st' c' T → ∀ r ∈ st'.table.rows, live r = true → grantTarget r ≠ some T := by
  rw [hrows]
  refine ⟨h.one, fun T c₁ c₂ h₁ h₂ => ?_, fun T c' h' => ?_⟩
  · rcases hg T c₁ h₁ with ho₁ | ⟨hc₁, hv₁⟩
    · rcases hg T c₂ h₂ with ho₂ | ⟨_, hv₂⟩
      · exact h.alone T c₁ c₂ ho₁ ho₂
      · exact absurd ho₁ (hv₂.1 c₁)
    · rcases hg T c₂ h₂ with ho₂ | ⟨hc₂, _⟩
      · exact absurd ho₂ (hv₁.1 c₂)
      · exact hc₁.trans hc₂.symm
  · rcases hg T c' h' with ho | ⟨_, hv⟩
    · exact h.vacant T c' ho
    · exact hv.2

/-- No version is pending of a call that has not written. -/
theorem Inv.not_pending {st : State} (h : Inv st) {c : Nat}
    (hw : ∀ call phase, st.calls c = some (call, phase) → phase ≠ .written)
    {e : Nat × RoomActorAccess} (he : e ∈ st.table.pending) : e.1 ≠ c := by
  intro heq
  obtain ⟨call, hc⟩ := h.writer e he
  exact hw call .written (heq ▸ hc) rfl

theorem inv_advance {st : State} (h : Inv st) {c : Nat} {call : Call} {phase : Phase}
    (hw : ∀ call' phase', st.calls c = some (call', phase') → phase' ≠ .written)
    (hfound : ∀ id dto existing, call = .update id dto → phase = .found existing →
      existing.roomActorAccessId = id ∧ ∃ r ∈ st.table.rows, target r = target existing)
    (hsaving : ∀ entity reread, phase = .saving entity reread → target entity = target reread)
    (hchecked : ∀ id roomId dto T, call = .create id roomId dto → phase = .checked →
      targetOf roomId dto.actorTokenId dto.actorType = some T → Vacant st T) :
    Inv (st.advance c call phase) := by
  have hg : ∀ T c', Opens (st.advance c call phase) c' T →
      Opens st c' T ∨ c' = c ∧ Vacant st T := by
    rintro T c' (⟨hc, hT⟩ | ⟨hm, hl, hT, hdead⟩)
    · rcases Pool.of_move hc with ⟨rfl, hcall, hphase⟩ | ⟨_, hc⟩
      · exact .inr ⟨rfl, hchecked _ _ _ T hcall.symm hphase.symm hT⟩
      · exact .inl (.creating hc hT)
    · exact .inl (.writing hm hl hT hdead)
  obtain ⟨hone, halone, hvacant⟩ := opens_grow (st.advance c call phase) h rfl hg
  refine ⟨h.locked, fun e he => ?_, h.single, h.sameTarget, fun c' id dto existing hc => ?_,
    fun c' call' entity reread hc => ?_, hone, halone, hvacant⟩
  · obtain ⟨call', hc⟩ := h.writer e he
    exact ⟨call', (Pool.move_ne _ _ _ (h.not_pending hw he)).trans hc⟩
  · rcases Pool.of_move hc with ⟨rfl, hcall, hphase⟩ | ⟨_, hc⟩
    · exact hfound id dto existing hcall.symm hphase.symm
    · exact h.found c' id dto existing hc
  · rcases Pool.of_move hc with ⟨rfl, _, hphase⟩ | ⟨_, hc⟩
    · exact hsaving entity reread hphase.symm
    · exact h.saving c' call' entity reread hc

theorem inv_write {st : State} (h : Inv st) {c : Nat} {call : Call} {version : RoomActorAccess}
    (hw : ∀ call' phase', st.calls c = some (call', phase') → phase' ≠ .written)
    (hlock : st.table.writable (·.roomActorAccessId) c version.roomActorAccessId = true)
    (hsame : ∀ r ∈ st.table.rows, r.roomActorAccessId = version.roomActorAccessId →
      target r = target version)
    (hopens : ∀ T, live version = true → grantTarget version = some T →
      (∀ r ∈ st.table.rows, r.roomActorAccessId = version.roomActorAccessId → live r = false) →
      Opens st c T ∨ Vacant st T) : Inv (st.write c call version) := by
  have hg : ∀ T c', Opens (st.write c call version) c' T →
      Opens st c' T ∨ c' = c ∧ Vacant st T := by
    rintro T c' (⟨hc, hT⟩ | ⟨hm, hl, hT, hdead⟩)
    · obtain ⟨_, hc⟩ := Pool.of_move_ne hc nofun
      exact .inl (.creating hc hT)
    · rcases Table.mem_pending_write.1 hm with heq | ⟨hm, _⟩
      · cases heq
        exact (hopens T hl hT hdead).imp_right fun hv => ⟨rfl, hv⟩
      · exact .inl (.writing hm hl hT hdead)
  obtain ⟨hone, halone, hvacant⟩ := opens_grow (st.write c call version) h rfl hg
  refine ⟨h.locked.write hlock, fun e he => ?_, ?_, fun e he => ?_, fun c' id dto existing hc => ?_,
    fun c' call' entity reread hc => ?_, hone, halone, hvacant⟩
  · rcases Table.mem_pending_write.1 he with rfl | ⟨he, _⟩
    · exact ⟨call, Pool.move_self ..⟩
    · obtain ⟨call', hc⟩ := h.writer e he
      exact ⟨call', (Pool.move_ne _ _ _ (h.not_pending hw he)).trans hc⟩
  · unfold UniqueOn State.write Table.write
    rw [List.map_cons, List.nodup_cons]
    refine ⟨fun hm => ?_, h.single.filter _⟩
    obtain ⟨e, he, heq⟩ := List.mem_map.1 hm
    exact h.not_pending hw (List.mem_filter.1 he).1 heq
  · rcases Table.mem_pending_write.1 he with rfl | ⟨he, _⟩
    · exact hsame
    · exact h.sameTarget e he
  · obtain ⟨_, hc⟩ := Pool.of_move_ne hc nofun
    exact h.found c' id dto existing hc
  · obtain ⟨_, hc⟩ := Pool.of_move_ne hc nofun
    exact h.saving c' call' entity reread hc

theorem inv_rollback {st : State} (h : Inv st) {c : Nat} {call : Call} :
    Inv (st.rollback c call) := by
  have hg : ∀ T c', Opens (st.rollback c call) c' T → Opens st c' T ∨ c' = c ∧ Vacant st T := by
    rintro T c' (⟨hc, hT⟩ | ⟨hm, hl, hT, hdead⟩)
    · obtain ⟨_, hc⟩ := Pool.of_move_ne hc nofun
      exact .inl (.creating hc hT)
    · exact .inl (.writing (Table.mem_pending_release.1 hm).1 hl hT hdead)
  obtain ⟨hone, halone, hvacant⟩ := opens_grow (st.rollback c call) h rfl hg
  refine ⟨h.locked.release, fun e he => ?_, h.single.filter _, fun e he => ?_,
    fun c' id dto existing hc => ?_, fun c' call' entity reread hc => ?_, hone, halone, hvacant⟩
  · obtain ⟨he, hne⟩ := Table.mem_pending_release.1 he
    obtain ⟨call', hc⟩ := h.writer e he
    exact ⟨call', (Pool.move_ne _ _ _ hne).trans hc⟩
  · exact h.sameTarget e (Table.mem_pending_release.1 he).1
  · obtain ⟨_, hc⟩ := Pool.of_move_ne hc nofun
    exact h.found c' id dto existing hc
  · obtain ⟨_, hc⟩ := Pool.of_move_ne hc nofun
    exact h.saving c' call' entity reread hc

/-! ## Commits -/

section Commit

variable {st : State} (h : Inv st) {c : Nat} {call : Call}
include h

theorem mem_rows_commit {r : RoomActorAccess} : r ∈ (st.commit c call).table.rows ↔
    (c, r) ∈ st.table.pending ∨ r ∈ st.table.rows ∧
      ∀ v, (c, v) ∈ st.table.pending → v.roomActorAccessId ≠ r.roomActorAccessId :=
  Table.mem_rows_commit h.locked

/-- A live version was about to open its target, or takes the place of a live row of that target. -/
theorem opens_of_version {r : RoomActorAccess} {T : Target} (hm : (c, r) ∈ st.table.pending)
    (hl : live r = true) (hT : grantTarget r = some T) : Opens st c T ∨
      ∃ r₀ ∈ st.table.rows, r₀.roomActorAccessId = r.roomActorAccessId ∧ live r₀ = true ∧
        grantTarget r₀ = some T := by
  by_cases hrow : ∃ r₀ ∈ st.table.rows, r₀.roomActorAccessId = r.roomActorAccessId ∧ live r₀ = true
  · obtain ⟨r₀, hr₀, hid, hl₀⟩ := hrow
    exact .inr ⟨r₀, hr₀, hid, hl₀, (grantTarget_congr (h.sameTarget (c, r) hm r₀ hr₀ hid)).trans hT⟩
  · refine .inl (.writing hm hl hT fun r₀ hr₀ hid => ?_)
    exact Bool.eq_false_iff.2 fun hl₀ => hrow ⟨r₀, hr₀, hid, hl₀⟩

/-- A published version shares its target with no live row that stays. -/
theorem version_ne_row {r r' : RoomActorAccess} {T : Target} (hm : (c, r) ∈ st.table.pending)
    (hr' : r' ∈ st.table.rows)
    (hfree : ∀ v, (c, v) ∈ st.table.pending → v.roomActorAccessId ≠ r'.roomActorAccessId)
    (hl : live r = true) (hl' : live r' = true) (hT : grantTarget r = some T) :
    grantTarget r' ≠ some T := by
  intro hT'
  rcases opens_of_version h hm hl hT with ho | ⟨r₀, hr₀, hid, hl₀, hT₀⟩
  · exact h.vacant T c ho r' hr' hl' hT'
  · cases h.one r₀ hr₀ r' hr' hl₀ hl' T hT₀ hT'
    exact hfree r hm hid.symm

theorem one_commit : OneGrant (st.commit c call).table.rows := by
  intro g hg g' hg' hl hl' T hT hT'
  rcases (mem_rows_commit h).1 hg with hm | ⟨hr, hfree⟩
  · rcases (mem_rows_commit h).1 hg' with hm' | ⟨hr', hfree'⟩
    · exact congrArg Prod.snd (h.single.eq_of_key hm hm' rfl)
    · exact absurd hT' (version_ne_row h hm hr' hfree' hl hl' hT)
  · rcases (mem_rows_commit h).1 hg' with hm' | ⟨hr', _⟩
    · exact absurd hT (version_ne_row h hm' hr hfree hl' hl hT')
    · exact h.one g hr g' hr' hl hl' T hT hT'

/-- What another call is about to open it was about to open before. -/
theorem opens_of_commit {c' : Nat} {T : Target} (ho : Opens (st.commit c call) c' T) :
    c' ≠ c ∧ Opens st c' T := by
  cases ho with
  | creating hc hT =>
    obtain ⟨hne, hc⟩ := Pool.of_move_ne hc nofun
    exact ⟨hne, .creating hc hT⟩
  | @writing version hm hl hT hdead =>
    obtain ⟨hm, hne⟩ := Table.mem_pending_release.1 hm
    refine ⟨hne, .writing hm hl hT fun r hr hid => hdead r ?_ hid⟩
    refine (mem_rows_commit h).2 (.inr ⟨hr, fun v hv hk => ?_⟩)
    have hsame := h.locked.pending.eq_of_key hv hm (hk.trans hid)
    exact hne (congrArg Prod.fst hsame).symm

theorem inv_commit : Inv (st.commit c call) := by
  refine ⟨h.locked.commit, fun e he => ?_, h.single.filter _, fun e he r hr hid => ?_,
    fun c' id dto existing hc' => ?_, fun c' call' entity reread hc' => ?_, one_commit h,
    fun T c₁ c₂ h₁ h₂ => ?_, fun T c' ho r hr hl hT => ?_⟩
  · obtain ⟨he, hne⟩ := Table.mem_pending_release.1 he
    obtain ⟨call', hc'⟩ := h.writer e he
    exact ⟨call', (Pool.move_ne _ _ _ hne).trans hc'⟩
  · obtain ⟨he, hne⟩ := Table.mem_pending_release.1 he
    rcases (mem_rows_commit h).1 hr with hm | ⟨hr, _⟩
    · have hsame := h.locked.pending.eq_of_key hm he hid
      exact absurd (congrArg Prod.fst hsame).symm hne
    · exact h.sameTarget e he r hr hid
  · obtain ⟨_, hc'⟩ := Pool.of_move_ne hc' nofun
    obtain ⟨hid, r, hr, ht⟩ := h.found c' id dto existing hc'
    refine ⟨hid, ?_⟩
    by_cases hv : ∃ v, (c, v) ∈ st.table.pending ∧ v.roomActorAccessId = r.roomActorAccessId
    · obtain ⟨v, hm, hk⟩ := hv
      have hsame : target v = target r := (h.sameTarget (c, v) hm r hr hk.symm).symm
      exact ⟨v, (mem_rows_commit h).2 (.inl hm), hsame.trans ht⟩
    · exact ⟨r, (mem_rows_commit h).2 (.inr ⟨hr, fun v hm hk => hv ⟨v, hm, hk⟩⟩), ht⟩
  · obtain ⟨_, hc'⟩ := Pool.of_move_ne hc' nofun
    exact h.saving c' call' entity reread hc'
  · exact h.alone T c₁ c₂ (opens_of_commit h h₁).2 (opens_of_commit h h₂).2
  · obtain ⟨hne, ho⟩ := opens_of_commit h ho
    rcases (mem_rows_commit h).1 hr with hm | ⟨hr, _⟩
    · rcases opens_of_version h hm hl hT with hown | ⟨r₀, hr₀, _, hl₀, hT₀⟩
      · exact hne (h.alone T c' c ho hown)
      · exact h.vacant T c' ho r₀ hr₀ hl₀ hT₀
    · exact h.vacant T c' ho r hr hl hT

end Commit

/-! ## Every run -/

theorem inv_step {legacy : String → Option Int} {st st' : State} {l : Statement} (h : Inv st)
    (hC : NoOverlap st l) (hs : Steps legacy st l st') : Inv st' := by
  have hpk := h.locked.rows
  cases hs with
  | settle hc hi =>
    refine inv_advance h hc (fun _ _ _ _ hp => ?_) (fun _ _ hp => ?_) (fun _ _ _ _ _ hp => ?_)
    · rw [hp] at hi
      cases hi
    · rw [hp] at hi
      cases hi
    · rw [hp] at hi
      cases hi
  | @checked c id roomId dto hc hnone =>
    refine inv_advance h (Pool.phase_ne hc (by simp))
      (fun _ _ _ hcall => nomatch hcall) (fun _ _ hp => nomatch hp) fun _ _ _ T hcall _ hT => ?_
    cases hcall
    exact ⟨hC id roomId dto T hc hnone hT, not_target_of_check hnone hT⟩
  | @found c call id existing hc hid hrow =>
    refine inv_advance h (Pool.phase_ne hc (by simp))
      (fun id' dto e hcall hp => ?_) (fun _ _ hp => nomatch hp) (fun _ _ _ _ _ hp => nomatch hp)
    cases hp
    obtain ⟨hm, _, hk⟩ := of_findOne hrow
    exact ⟨(of_decide_eq_true hk).trans (hid id' dto hcall).symm, existing, hm, rfl⟩
  | @reread c id dto existing entity row hc hrow he =>
    refine inv_advance h (Pool.phase_ne hc (by simp))
      (fun _ _ _ _ hp => nomatch hp) (fun e r hp => ?_) (fun _ _ _ _ hcall => nomatch hcall)
    cases hp
    obtain ⟨hid, r, hr, ht⟩ := h.found c id dto existing hc
    obtain ⟨hm, hrid⟩ := of_rowOf hrow
    have hk : r.roomActorAccessId = row.roomActorAccessId :=
      (congrArg Prod.fst ht).trans (hid.trans hrid.symm)
    cases hpk.eq_of_key hr hm hk
    exact (target_assign he).trans ht.symm
  | @insert c id roomId dto expiresAt hc hlock hfresh =>
    refine inv_write h (Pool.phase_ne hc (by simp)) hlock
      (fun r hr hid => ?_) fun T _ hT _ => .inl (.creating hc hT)
    exact absurd (decide_eq_true hid) (List.find?_eq_none.1 hfresh r hr)
  | @save c id dto entity reread row hc hlock hrow =>
    obtain ⟨hm, hid⟩ := of_rowOf hrow
    have ht : target (writeBack entity reread row) = target row :=
      target_writeBack (h.saving c _ entity reread hc)
    have hvid : (writeBack entity reread row).roomActorAccessId = id := hid
    refine inv_write h (Pool.phase_ne hc (by simp)) (hvid ▸ hlock)
      (fun r hr hk => ?_) fun T hl hT hdead => .inr ?_
    · cases hpk.eq_of_key hr hm hk
      exact ht.symm
    · exact hC id dto entity reread row T hc hrow (hdead row hm rfl) hl
        ((grantTarget_congr ht).symm.trans hT)
  | @stamp c now id existing row hc hlock hrow =>
    obtain ⟨hm, hid⟩ := of_rowOf hrow
    refine inv_write h (Pool.phase_ne hc (by simp)) (hid ▸ hlock)
      (fun r hr hk => ?_) fun T hl => nomatch hl
    cases hpk.eq_of_key hr hm hk
    rfl
  | commit _ => exact inv_commit h
  | rollback _ => exact inv_rollback h

/-- From rows with one grant a target, every run in which no two calls open a grant for the same
target at a time ends with one grant a target. -/
theorem one_grant_per_target (legacy : String → Option Int) (rows : List RoomActorAccess)
    (hpk : UniqueOn (·.roomActorAccessId) rows) (hone : OneGrant rows) (run : List Statement)
    (st : State) (hrun : exec (step legacy) (State.init rows) run = some st)
    (hC : Meets (step legacy) NoOverlap (State.init rows) run) : OneGrant st.table.rows :=
  (exec_invariant (fun _ _ _ h hC hs => inv_step h hC (of_step hs)) run _ st (.init hpk hone) hC
    hrun).one

/-! ## Two checks before either commit -/

/-- A grant for every agent. -/
def agentGrant : RoomActorAccessCreateDto where
  actorType := some .agent
  permission := .subscribe

/-- Two creates for one type on one room, each of which checks before the other commits. -/
def crossedCreates : List Statement :=
  [.begin 0 (.create (.of "g1") (.of "r1") agentGrant),
   .begin 1 (.create (.of "g2") (.of "r1") agentGrant),
   .findOne 0, .findOne 1, .write 0, .write 1, .commit 0, .commit 1]

theorem crossed_creates_duplicate : ∃ st,
    exec (step fun _ => none) (State.init []) crossedCreates = some st ∧
      (st.table.rows.filter fun g => live g && decide (grantTarget g =
        some (.type (.of "r1") .agent))).length = 2 ∧ ¬ OneGrant st.table.rows := by
  refine ⟨_, rfl, by decide, fun h => ?_⟩
  have hsame := h (newGrant (.of "g1") (.of "r1") agentGrant none) (by decide)
    (newGrant (.of "g2") (.of "r1") agentGrant none) (by decide) rfl rfl
    (.type (.of "r1") .agent) rfl rfl
  exact absurd (congrArg RoomActorAccess.roomActorAccessId hsame) (by decide)

/-- One after the other, the second is refused. -/
def serialCreates : List Statement :=
  [.begin 0 (.create (.of "g1") (.of "r1") agentGrant),
   .begin 1 (.create (.of "g2") (.of "r1") agentGrant),
   .findOne 0, .write 0, .commit 0, .findOne 1]

theorem one_grant_per_target_serial : ∃ st,
    exec (step fun _ => none) (State.init []) serialCreates = some st ∧ OneGrant st.table.rows := by
  refine ⟨_, rfl, one_grant_per_target (fun _ => none) [] (by decide) (fun _ h => nomatch h)
    serialCreates _ rfl ?_⟩
  refine .cons trivial rfl (.cons trivial rfl (.cons ?_ rfl (.cons ?_ rfl (.cons trivial rfl
    (.cons ?_ rfl trivial)))))
  · -- the other create has not checked yet
    rintro _ _ _ T _ _ _ c' (⟨hc, _⟩ | ⟨hm, _⟩)
    · obtain ⟨_, hc⟩ := Pool.of_move_ne hc nofun
      obtain ⟨_, hc⟩ := Pool.of_move_ne hc nofun
      cases hc
    · cases hm
  · intro _ _ _ _ _ _ hc
    cases hc
  · intro _ _ _ _ hc hnone
    cases hc
    cases hnone

end Targets
end RoomActorAccessFacade
end NolagCore
