import NolagCore.AccessScope.Facade
import NolagCore.ActorToken.Facade
import NolagCore.Lib.ReadCommitted
import NolagCore.Room.GrantInterleaving

/-!
# AccessScope.BindingInterleaving

Scopes and the actors bound to them, changed by interleaved calls statement by statement under READ
COMMITTED with row locks. `updateLock` is `SELECT ... FOR SHARE`: it waits for the transaction that
has written the row, reads the row as it then stands, and holds it against writers until its own
transaction ends. The scope check of a bind and the actor count of a delete are plain reads.

The foreign key from actors to scopes takes `FOR KEY SHARE`, which a soft delete, being no change of a
key, does not wait for; and the check before it has seen the row, which no statement removes. So it
stops nothing here and has no step of its own. The session state that goes with a deleted actor is
left out: no statement here reads it.
-/

namespace NolagCore
namespace ScopeBinding

open Lib AccessScopeFacade ActorTokenFacade
open RoomActorAccessFacade (column column_self)

inductive Call where
  | createScope (accessScopeId projectId : Uuid) (dto : AccessScopeCreateDto)
  | updateScope (accessScopeId projectId : Uuid) (dto : AccessScopePatchDto)
  | deleteScope (now : Int) (accessScopeId projectId : Uuid)
  | createActor (actorTokenId : Uuid) (random : CredentialBytes) (projectId : Uuid)
      (data : ActorTokenCreateDto)
  | updateActor (actorTokenId projectId : Uuid) (data : ActorTokenPatchDto)
  | deleteActor (now : Int) (actorTokenId projectId : Uuid)

inductive Phase where
  | begun
  /-- The locked SELECT has found this row and waits for it. -/
  | waiting (id : Uuid)
  /-- The scope is held for share. -/
  | foundScope (existing : AccessScope)
  /-- The actor is held for share. -/
  | foundActor (existing : ActorToken)
  /-- The slug is free, the scope named is live, or no actor was counted. -/
  | checked
  /-- `patchActorToken` has read the row. -/
  | loaded (existing : ActorToken)
  /-- `save` has read the row again and found a difference. -/
  | savingScope (entity reread : AccessScope)
  | savingActor (entity reread : ActorToken)
  /-- There is nothing to write, or no row to write it to. -/
  | unchanged
  /-- The INSERT or UPDATE has run. -/
  | written
  /-- The transaction has committed, or has been rolled back. -/
  | returned (ok : Bool)
deriving DecidableEq

structure State where
  scopes : Table Uuid AccessScope
  actors : Table Uuid ActorToken
  calls : Pool Call Phase

def State.init : State where
  scopes := { rows := [] }
  actors := { rows := [] }
  calls := Pool.empty

/-- A statement that changes nothing but the phase of its call. -/
def State.advance (st : State) (c : Nat) (call : Call) (phase : Phase) : State :=
  { st with calls := st.calls.move c call phase }

def State.holdScope (st : State) (c : Nat) (call : Call) (existing : AccessScope) : State where
  scopes := st.scopes.share c existing.accessScopeId
  actors := st.actors
  calls := st.calls.move c call (.foundScope existing)

def State.holdActor (st : State) (c : Nat) (call : Call) (existing : ActorToken) : State where
  scopes := st.scopes
  actors := st.actors.share c existing.actorTokenId
  calls := st.calls.move c call (.foundActor existing)

def State.writeScope (st : State) (c : Nat) (call : Call) (version : AccessScope) : State where
  scopes := st.scopes.write (·.accessScopeId) c version
  actors := st.actors
  calls := st.calls.move c call .written

def State.writeActor (st : State) (c : Nat) (call : Call) (version : ActorToken) : State where
  scopes := st.scopes
  actors := st.actors.write (·.actorTokenId) c version
  calls := st.calls.move c call .written

def State.commit (st : State) (c : Nat) (call : Call) : State where
  scopes := st.scopes.commit (·.accessScopeId) c
  actors := st.actors.commit (·.actorTokenId) c
  calls := st.calls.move c call (.returned true)

/-- An exception: the transaction is rolled back and lets go of its rows. -/
def State.rollback (st : State) (c : Nat) (call : Call) : State where
  scopes := st.scopes.release c
  actors := st.actors.release c
  calls := st.calls.move c call (.returned false)

inductive Statement where
  | begin (c : Nat) (call : Call)
  /-- The start of a locked SELECT. -/
  | select (c : Nat)
  /-- Its end: the row is free, read again, and held. -/
  | acquire (c : Nat)
  /-- `_assertScopeInProject`, or the actor count of a delete. -/
  | check (c : Nat)
  /-- The read in `patchActorToken`. -/
  | findOne (c : Nat)
  | reread (c : Nat)
  | write (c : Nat)
  | commit (c : Nat)
  | rollback (c : Nat)

/-! ## Reads -/

def scopeById (rows : List AccessScope) (accessScopeId projectId : Uuid) : Option AccessScope :=
  findOne rows fun r => decide (r.accessScopeId = accessScopeId) && decide (r.projectId = projectId)

def scopeBySlug (rows : List AccessScope) (slug : String) (projectId : Uuid) :
    Option AccessScope :=
  findOne rows fun r => decide (r.slug = slug) && decide (r.projectId = projectId)

def actorById (rows : List ActorToken) (actorTokenId projectId : Uuid) : Option ActorToken :=
  findOne rows fun a => decide (a.actorTokenId = actorTokenId) && decide (a.projectId = projectId)

/-- The row of an id, deleted or not. -/
def scopeRow (rows : List AccessScope) (accessScopeId : Uuid) : Option AccessScope :=
  rows.find? fun r => decide (r.accessScopeId = accessScopeId)

def actorRow (rows : List ActorToken) (actorTokenId : Uuid) : Option ActorToken :=
  rows.find? fun a => decide (a.actorTokenId = actorTokenId)

theorem of_scopeById {rows : List AccessScope} {id projectId : Uuid} {r : AccessScope}
    (h : scopeById rows id projectId = some r) :
    r ∈ rows ∧ live r = true ∧ r.accessScopeId = id ∧ r.projectId = projectId := by
  obtain ⟨hm, hl, hk⟩ := of_findOne h
  rw [Bool.and_eq_true, decide_eq_true_eq, decide_eq_true_eq] at hk
  exact ⟨hm, hl, hk⟩

theorem of_actorById {rows : List ActorToken} {id projectId : Uuid} {a : ActorToken}
    (h : actorById rows id projectId = some a) :
    a ∈ rows ∧ live a = true ∧ a.actorTokenId = id ∧ a.projectId = projectId := by
  obtain ⟨hm, hl, hk⟩ := of_findOne h
  rw [Bool.and_eq_true, decide_eq_true_eq, decide_eq_true_eq] at hk
  exact ⟨hm, hl, hk⟩

theorem of_scopeRow {rows : List AccessScope} {id : Uuid} {r : AccessScope}
    (h : scopeRow rows id = some r) : r ∈ rows ∧ r.accessScopeId = id :=
  ⟨List.mem_of_find?_eq_some h, by simpa using List.find?_some h⟩

theorem of_actorRow {rows : List ActorToken} {id : Uuid} {a : ActorToken}
    (h : actorRow rows id = some a) : a ∈ rows ∧ a.actorTokenId = id :=
  ⟨List.mem_of_find?_eq_some h, by simpa using List.find?_some h⟩

/-- The scope a call binds an actor to, with the project it must be in. -/
def Call.names : Call → Option (Uuid × Uuid)
  | .createActor _ _ projectId data => data.accessScopeId.map (·, projectId)
  | .updateActor _ projectId data => (data.accessScopeId.getD none).map (·, projectId)
  | _ => none

def Call.removes : Call → Option Uuid
  | .deleteScope _ accessScopeId _ => some accessScopeId
  | _ => none

/-- The row a locked SELECT by id is after. -/
inductive Locks where
  | scope (accessScopeId projectId : Uuid)
  | actor (actorTokenId projectId : Uuid)
  | slug (slug : String) (projectId : Uuid)
  | nothing

def Call.locks : Call → Locks
  | .createScope _ projectId dto => .slug dto.slug projectId
  | .updateScope accessScopeId projectId _ => .scope accessScopeId projectId
  | .deleteScope _ accessScopeId projectId => .scope accessScopeId projectId
  | .createActor _ _ _ _ => .nothing
  | .updateActor actorTokenId projectId _ => .actor actorTokenId projectId
  | .deleteActor _ actorTokenId projectId => .actor actorTokenId projectId

/-- The plain reads that decide: the scope named is live in the project, no live actor is bound. -/
def passes (scopes : List AccessScope) (actors : List ActorToken) (call : Call) : Bool :=
  (match call.names with
    | some (accessScopeId, projectId) => (scopeById scopes accessScopeId projectId).isSome
    | none => true) &&
  match call.removes with
    | some accessScopeId =>
      (findAll actors fun a => decide (a.accessScopeId = some accessScopeId)).isEmpty
    | none => true

/-! ## Writes -/

/-- The assignments of `patchRecord`. -/
def patchedScope (dto : AccessScopePatchDto) (existing : AccessScope) : AccessScope :=
  { existing with
    name := patch dto.name existing.name
    description := patch (dto.description.map some) existing.description
    metadata := patch (dto.metadata.map some) existing.metadata
    isActive := patch dto.isActive existing.isActive }

def newScope (accessScopeId projectId : Uuid) (dto : AccessScopeCreateDto) : AccessScope where
  accessScopeId := accessScopeId
  projectId := projectId
  slug := dto.slug
  name := dto.name
  description := dto.description
  metadata := dto.metadata
  isActive := true

def newActor (crypto : Crypto) (actorTokenId : Uuid) (random : CredentialBytes) (projectId : Uuid)
    (data : ActorTokenCreateDto) (expiresAt : Option Int) : ActorToken where
  actorTokenId := actorTokenId
  projectId := projectId
  keyId := (generateCredential crypto livePrefix random).keyId
  secretHash := (generateCredential crypto livePrefix random).secretHash
  name := data.name
  actorType := data.actorType
  status := .active
  expiresAt := expiresAt
  metadata := data.metadata
  accessScopeId := data.accessScopeId

/-- The UPDATE of `save`, on the row as it stands. -/
def writeBackScope (entity reread current : AccessScope) : AccessScope where
  accessScopeId := current.accessScopeId
  projectId := column entity.projectId reread.projectId current.projectId
  slug := column entity.slug reread.slug current.slug
  name := column entity.name reread.name current.name
  description := column entity.description reread.description current.description
  metadata := column entity.metadata reread.metadata current.metadata
  isActive := column entity.isActive reread.isActive current.isActive
  deletedAt := column entity.deletedAt reread.deletedAt current.deletedAt

def writeBackActor (entity reread current : ActorToken) : ActorToken where
  actorTokenId := current.actorTokenId
  projectId := column entity.projectId reread.projectId current.projectId
  keyId := column entity.keyId reread.keyId current.keyId
  secretHash := column entity.secretHash reread.secretHash current.secretHash
  name := column entity.name reread.name current.name
  actorType := column entity.actorType reread.actorType current.actorType
  status := column entity.status reread.status current.status
  expiresAt := column entity.expiresAt reread.expiresAt current.expiresAt
  metadata := column entity.metadata reread.metadata current.metadata
  accessScopeId := column entity.accessScopeId reread.accessScopeId current.accessScopeId
  deletedAt := column entity.deletedAt reread.deletedAt current.deletedAt

theorem writeBackScope_self (dto : AccessScopePatchDto) (row : AccessScope) :
    writeBackScope (patchedScope dto row) row row = patchedScope dto row := by
  simp only [writeBackScope, column_self, patchedScope]

theorem writeBackActor_self {data : ActorTokenPatchDto} {row entity : ActorToken}
    (h : assign legacy data row = .ok entity) : writeBackActor entity row row = entity := by
  have hid : row.actorTokenId = entity.actorTokenId := by
    unfold assign at h
    split at h <;> cases h
    rfl
  simp only [writeBackActor, column_self, hid]

/-- The slug of a live scope of the project is taken. -/
def slugTaken (rows : List AccessScope) (version : AccessScope) : Bool :=
  rows.any fun r => live r && decide (r.projectId = version.projectId) &&
    decide (r.slug = version.slug)

/-! ## Steps -/

/-- After the start of the locked SELECT. -/
def selectRow (st : State) (c : Nat) (call : Call) : Option State :=
  match call.locks with
  | .scope id projectId => match scopeById st.scopes.rows id projectId with
      | none => some (st.rollback c call)
      | some existing => some (st.advance c call (.waiting existing.accessScopeId))
  | .actor id projectId => match actorById st.actors.rows id projectId with
      | none => some (st.rollback c call)
      | some existing => some (st.advance c call (.waiting existing.actorTokenId))
  | .slug slug projectId => match scopeBySlug st.scopes.rows slug projectId with
      | none => some (st.advance c call .checked)
      | some existing => some (st.advance c call (.waiting existing.accessScopeId))
  | .nothing => none

/-- A row that no longer satisfies the condition drops out. -/
def acquireRow (st : State) (c : Nat) (call : Call) (id : Uuid) : Option State :=
  match call.locks with
  | .scope id projectId =>
    if st.scopes.lockable (·.accessScopeId) c id = false then none
    else match scopeById st.scopes.rows id projectId with
      | none => some (st.rollback c call)
      | some existing => some (st.holdScope c call existing)
  | .actor id projectId =>
    if st.actors.lockable (·.actorTokenId) c id = false then none
    else match actorById st.actors.rows id projectId with
      | none => some (st.rollback c call)
      | some existing => some (st.holdActor c call existing)
  | .slug slug projectId =>
    if st.scopes.lockable (·.accessScopeId) c id = false then none
    else match findOne st.scopes.rows fun r => decide (r.accessScopeId = id) &&
        decide (r.slug = slug) && decide (r.projectId = projectId) with
      | none => some (st.advance c call .checked)
      | some _ => some (st.rollback c call)
  | .nothing => none

/-- Where a call makes its plain check: a create at once, the others with the row held. -/
def checksIn : Call → Phase → Bool
  | .createActor _ _ _ _, .begun => true
  | .updateActor _ _ _, .foundActor _ => true
  | .deleteScope _ _ _, .foundScope _ => true
  | _, _ => false

/-- An INSERT of a scope: it waits for a transaction that has written its id or its slug. -/
def insertScope (st : State) (c : Nat) (call : Call) (version : AccessScope) : Option State :=
  if st.scopes.writable (·.accessScopeId) c version.accessScopeId = false ∨
      slugTaken ((st.scopes.pending.filter fun e => decide (e.1 ≠ c)).map fun e =>
        { e.2 with deletedAt := none }) version = true then none
  else if (scopeRow st.scopes.rows version.accessScopeId).isSome ∨
      slugTaken st.scopes.rows version = true then some (st.rollback c call)
  else some (st.writeScope c call version)

/-- An INSERT of an actor: its id and its key id must be new. -/
def insertActor (st : State) (c : Nat) (call : Call) (version : ActorToken) : Option State :=
  if st.actors.writable (·.actorTokenId) c version.actorTokenId = false ∨
      st.actors.pending.any (fun e => decide (e.1 ≠ c) && decide (e.2.keyId = version.keyId)) =
        true then none
  else if (actorRow st.actors.rows version.actorTokenId).isSome ∨
      st.actors.rows.any (fun a => decide (a.keyId = version.keyId)) = true then
    some (st.rollback c call)
  else some (st.writeActor c call version)

/-- An UPDATE of the scope of an id, if its condition finds the row. -/
def updateScopeRow (st : State) (c : Nat) (call : Call) (id : Uuid) (row : Option AccessScope)
    (f : AccessScope → AccessScope) : Option State :=
  if st.scopes.writable (·.accessScopeId) c id = false then none
  else match row with
    | none => some (st.advance c call .unchanged)
    | some row => some (st.writeScope c call (f row))

def updateActorRow (st : State) (c : Nat) (call : Call) (id : Uuid) (row : Option ActorToken)
    (f : ActorToken → ActorToken) : Option State :=
  if st.actors.writable (·.actorTokenId) c id = false then none
  else match row with
    | none => some (st.advance c call .unchanged)
    | some row => some (st.writeActor c call (f row))

section

variable (legacy : String → Option Int) (crypto : Crypto)

/-- After the read of `save`; an invalid date is refused. -/
def savePatch (st : State) (c : Nat) (call : Call) (data : ActorTokenPatchDto)
    (existing row : ActorToken) : State :=
  match assign legacy data existing with
  | .error _ => st.rollback c call
  | .ok entity =>
    st.advance c call (if entity = row then .unchanged else .savingActor entity row)

def writeRow (st : State) (c : Nat) : Call → Phase → Option State
  | .createScope id projectId dto, .checked =>
    insertScope st c (.createScope id projectId dto) (newScope id projectId dto)
  | .updateScope id projectId dto, .savingScope entity reread =>
    updateScopeRow st c (.updateScope id projectId dto) id (scopeRow st.scopes.rows id)
      (writeBackScope entity reread)
  | .deleteScope now id projectId, .checked =>
    updateScopeRow st c (.deleteScope now id projectId) id (scopeById st.scopes.rows id projectId)
      fun r => { r with deletedAt := some now }
  | .createActor id random projectId data, .checked =>
    match dateColumn legacy data.expiresAt with
    | .error _ => some (st.rollback c (.createActor id random projectId data))
    | .ok expiresAt => insertActor st c (.createActor id random projectId data)
        (newActor crypto id random projectId data expiresAt)
  | .updateActor id projectId data, .savingActor entity reread =>
    updateActorRow st c (.updateActor id projectId data) id (actorRow st.actors.rows id)
      (writeBackActor entity reread)
  | .deleteActor now id projectId, .foundActor _ =>
    updateActorRow st c (.deleteActor now id projectId) id (actorById st.actors.rows id projectId)
      fun a => { a with deletedAt := some now }
  | _, _ => none

def step (st : State) : Statement → Option State
  | .begin c call =>
    match st.calls c with
    | some _ => none
    | none => some (st.advance c call .begun)
  | .select c =>
    match st.calls c with
    | some (call, .begun) => selectRow st c call
    | _ => none
  | .acquire c =>
    match st.calls c with
    | some (call, .waiting id) => acquireRow st c call id
    | _ => none
  | .check c =>
    match st.calls c with
    | some (call, phase) =>
      if checksIn call phase then
        some (if passes st.scopes.rows st.actors.rows call then st.advance c call .checked
          else st.rollback c call)
      else none
    | none => none
  | .findOne c =>
    match st.calls c with
    | some (.updateActor id projectId data, .checked) =>
      match actorById st.actors.rows id projectId with
      | none => some (st.rollback c (.updateActor id projectId data))
      | some existing => some (st.advance c (.updateActor id projectId data) (.loaded existing))
    | _ => none
  | .reread c =>
    match st.calls c with
    -- no statement removes a row, so the one read before is still there
    | some (.updateScope id projectId dto, .foundScope existing) =>
      (scopeRow st.scopes.rows id).map fun row => st.advance c (.updateScope id projectId dto)
        (if patchedScope dto existing = row then .unchanged
          else .savingScope (patchedScope dto existing) row)
    | some (.updateActor id projectId data, .loaded existing) =>
      (actorRow st.actors.rows id).map
        (savePatch legacy st c (.updateActor id projectId data) data existing)
    | _ => none
  | .write c =>
    match st.calls c with
    | some (call, phase) => writeRow legacy crypto st c call phase
    | none => none
  | .commit c =>
    match st.calls c with
    | some (call, .written) | some (call, .unchanged) => some (st.commit c call)
    | _ => none
  | .rollback c =>
    match st.calls c with
    | none | some (_, .returned _) => none
    | some (call, _) => some (st.rollback c call)

/-- Neither a row nor the outcome of a check is carried into these phases. -/
def Phase.isIdle : Phase → Bool
  | .begun | .waiting _ | .unchanged => true
  | _ => false

/-- What a step is, one constructor for each kind of effect. -/
inductive Steps (st : State) : Statement → State → Prop
  | settle {l : Statement} {c : Nat} {call : Call} {phase : Phase}
    (hc : ∀ call' phase', st.calls c = some (call', phase') → phase' ≠ .written)
    (hi : phase.isIdle = true) : Steps st l (st.advance c call phase)
  | fail {l : Statement} {c : Nat} {call : Call} {phase : Phase}
    (hc : st.calls c = some (call, phase)) : Steps st l (st.rollback c call)
  | slugFree {l : Statement} {c : Nat} {id projectId : Uuid} {dto : AccessScopeCreateDto}
    {phase : Phase} (hc : st.calls c = some (.createScope id projectId dto, phase))
    (hp : phase ≠ .written) : Steps st l (st.advance c (.createScope id projectId dto) .checked)
  | holdScope {c : Nat} {call : Call} {w id projectId : Uuid} {existing : AccessScope}
    (hc : st.calls c = some (call, .waiting w)) (hl : call.locks = .scope id projectId)
    (hlock : st.scopes.lockable (·.accessScopeId) c id = true)
    (hrow : scopeById st.scopes.rows id projectId = some existing) :
    Steps st (.acquire c) (st.holdScope c call existing)
  | holdActor {c : Nat} {call : Call} {w id projectId : Uuid} {existing : ActorToken}
    (hc : st.calls c = some (call, .waiting w)) (hl : call.locks = .actor id projectId)
    (hlock : st.actors.lockable (·.actorTokenId) c id = true)
    (hrow : actorById st.actors.rows id projectId = some existing) :
    Steps st (.acquire c) (st.holdActor c call existing)
  | pass {c : Nat} {call : Call} {phase : Phase} (hc : st.calls c = some (call, phase))
    (hck : checksIn call phase = true) (hpass : passes st.scopes.rows st.actors.rows call = true) :
    Steps st (.check c) (st.advance c call .checked)
  | load {c : Nat} {id projectId : Uuid} {data : ActorTokenPatchDto} {existing : ActorToken}
    (hc : st.calls c = some (.updateActor id projectId data, .checked))
    (hrow : actorById st.actors.rows id projectId = some existing) :
    Steps st (.findOne c) (st.advance c (.updateActor id projectId data) (.loaded existing))
  | rereadScope {c : Nat} {id projectId : Uuid} {dto : AccessScopePatchDto}
    {existing row : AccessScope}
    (hc : st.calls c = some (.updateScope id projectId dto, .foundScope existing))
    (hrow : scopeRow st.scopes.rows id = some row) :
    Steps st (.reread c) (st.advance c (.updateScope id projectId dto)
      (.savingScope (patchedScope dto existing) row))
  | rereadActor {c : Nat} {id projectId : Uuid} {data : ActorTokenPatchDto}
    {existing entity row : ActorToken}
    (hc : st.calls c = some (.updateActor id projectId data, .loaded existing))
    (hrow : actorRow st.actors.rows id = some row) (he : assign legacy data existing = .ok entity) :
    Steps st (.reread c) (st.advance c (.updateActor id projectId data) (.savingActor entity row))
  | insertScope {c : Nat} {id projectId : Uuid} {dto : AccessScopeCreateDto}
    (hc : st.calls c = some (.createScope id projectId dto, .checked))
    (hlock : st.scopes.writable (·.accessScopeId) c id = true)
    (hfresh : scopeRow st.scopes.rows id = none) :
    Steps st (.write c)
      (st.writeScope c (.createScope id projectId dto) (newScope id projectId dto))
  | saveScope {c : Nat} {id projectId : Uuid} {dto : AccessScopePatchDto}
    {entity reread row : AccessScope}
    (hc : st.calls c = some (.updateScope id projectId dto, .savingScope entity reread))
    (hlock : st.scopes.writable (·.accessScopeId) c id = true)
    (hrow : scopeRow st.scopes.rows id = some row) :
    Steps st (.write c)
      (st.writeScope c (.updateScope id projectId dto) (writeBackScope entity reread row))
  | removeScope {c : Nat} {now : Int} {id projectId : Uuid} {row : AccessScope}
    (hc : st.calls c = some (.deleteScope now id projectId, .checked))
    (hlock : st.scopes.writable (·.accessScopeId) c id = true)
    (hrow : scopeById st.scopes.rows id projectId = some row) :
    Steps st (.write c)
      (st.writeScope c (.deleteScope now id projectId) { row with deletedAt := some now })
  | insertActor {c : Nat} {id projectId : Uuid} {random : CredentialBytes}
    {data : ActorTokenCreateDto} {expiresAt : Option Int}
    (hc : st.calls c = some (.createActor id random projectId data, .checked))
    (hlock : st.actors.writable (·.actorTokenId) c id = true)
    (hfresh : actorRow st.actors.rows id = none) :
    Steps st (.write c) (st.writeActor c (.createActor id random projectId data)
      (newActor crypto id random projectId data expiresAt))
  | saveActor {c : Nat} {id projectId : Uuid} {data : ActorTokenPatchDto}
    {entity reread row : ActorToken}
    (hc : st.calls c = some (.updateActor id projectId data, .savingActor entity reread))
    (hlock : st.actors.writable (·.actorTokenId) c id = true)
    (hrow : actorRow st.actors.rows id = some row) :
    Steps st (.write c)
      (st.writeActor c (.updateActor id projectId data) (writeBackActor entity reread row))
  | removeActor {c : Nat} {now : Int} {id projectId : Uuid} {existing row : ActorToken}
    (hc : st.calls c = some (.deleteActor now id projectId, .foundActor existing))
    (hlock : st.actors.writable (·.actorTokenId) c id = true)
    (hrow : actorById st.actors.rows id projectId = some row) :
    Steps st (.write c)
      (st.writeActor c (.deleteActor now id projectId) { row with deletedAt := some now })
  | commit {c : Nat} {call : Call} {phase : Phase} (hc : st.calls c = some (call, phase)) :
    Steps st (.commit c) (st.commit c call)

variable {legacy crypto}

/-- In any phase but `written` a call may go to an idle one. -/
theorem Steps.settle_of {st : State} {l : Statement} {c : Nat} {call : Call} {from' phase : Phase}
    (hc : st.calls c = some (call, from')) (hf : from' ≠ .written) (hi : phase.isIdle = true) :
    Steps legacy crypto st l (st.advance c call phase) :=
  .settle (Pool.phase_ne hc hf) hi

theorem locks_slug {call : Call} {slug : String} {projectId : Uuid}
    (h : call.locks = .slug slug projectId) : ∃ id dto, call = .createScope id projectId dto := by
  cases call with
  | createScope id projectId' dto =>
    cases h
    exact ⟨id, dto, rfl⟩
  | updateScope id projectId' dto => cases h
  | deleteScope now id projectId' => cases h
  | createActor id random projectId' data => cases h
  | updateActor id projectId' data => cases h
  | deleteActor now id projectId' => cases h

theorem of_selectRow {st st' : State} {c : Nat} {call : Call}
    (hc : st.calls c = some (call, .begun)) (h : selectRow st c call = some st') :
    Steps legacy crypto st (.select c) st' := by
  unfold selectRow at h
  split at h
  · split at h
    · cases h
      exact .fail hc
    · cases h
      exact .settle_of hc (by simp) rfl
  · split at h
    · cases h
      exact .fail hc
    · cases h
      exact .settle_of hc (by simp) rfl
  · rename_i hl
    split at h
    · cases h
      obtain ⟨id, dto, rfl⟩ := locks_slug hl
      exact .slugFree hc (by simp)
    · cases h
      exact .settle_of hc (by simp) rfl
  · cases h

theorem of_acquireRow {st st' : State} {c : Nat} {call : Call} {id : Uuid}
    (hc : st.calls c = some (call, .waiting id)) (h : acquireRow st c call id = some st') :
    Steps legacy crypto st (.acquire c) st' := by
  unfold acquireRow at h
  split at h
  · rename_i hl
    split at h
    · cases h
    · rename_i hlock
      split at h
      · cases h
        exact .fail hc
      · rename_i hrow
        cases h
        exact .holdScope hc hl (by simpa using hlock) hrow
  · rename_i hl
    split at h
    · cases h
    · rename_i hlock
      split at h
      · cases h
        exact .fail hc
      · rename_i hrow
        cases h
        exact .holdActor hc hl (by simpa using hlock) hrow
  · rename_i hl
    split at h
    · cases h
    · split at h
      · cases h
        obtain ⟨id', dto, rfl⟩ := locks_slug hl
        exact .slugFree hc (by simp)
      · cases h
        exact .fail hc
  · cases h

theorem of_savePatch {st : State} {c : Nat} {id projectId : Uuid} {data : ActorTokenPatchDto}
    {existing row : ActorToken}
    (hc : st.calls c = some (.updateActor id projectId data, .loaded existing))
    (hrow : actorRow st.actors.rows id = some row) :
    Steps legacy crypto st (.reread c)
      (savePatch legacy st c (.updateActor id projectId data) data existing row) := by
  unfold savePatch
  split
  · exact .fail hc
  · rename_i entity he
    split
    · exact .settle_of hc (by simp) rfl
    · exact .rereadActor hc hrow he

theorem of_updateScopeRow {st st' : State} {c : Nat} {call : Call} {phase : Phase} {id : Uuid}
    {row : Option AccessScope} {f : AccessScope → AccessScope}
    (hc : st.calls c = some (call, phase)) (hp : phase ≠ .written)
    (h : updateScopeRow st c call id row f = some st')
    (hwrite : ∀ r, st.scopes.writable (·.accessScopeId) c id = true → row = some r →
      Steps legacy crypto st (.write c) (st.writeScope c call (f r))) :
    Steps legacy crypto st (.write c) st' := by
  unfold updateScopeRow at h
  split at h
  · cases h
  · rename_i hlock
    split at h
    · cases h
      exact .settle_of hc hp rfl
    · rename_i r
      cases h
      exact hwrite r (by simpa using hlock) rfl

theorem of_updateActorRow {st st' : State} {c : Nat} {call : Call} {phase : Phase} {id : Uuid}
    {row : Option ActorToken} {f : ActorToken → ActorToken}
    (hc : st.calls c = some (call, phase)) (hp : phase ≠ .written)
    (h : updateActorRow st c call id row f = some st')
    (hwrite : ∀ r, st.actors.writable (·.actorTokenId) c id = true → row = some r →
      Steps legacy crypto st (.write c) (st.writeActor c call (f r))) :
    Steps legacy crypto st (.write c) st' := by
  unfold updateActorRow at h
  split at h
  · cases h
  · rename_i hlock
    split at h
    · cases h
      exact .settle_of hc hp rfl
    · rename_i r
      cases h
      exact hwrite r (by simpa using hlock) rfl

theorem of_writeRow {st st' : State} {c : Nat} {call : Call} {phase : Phase}
    (hc : st.calls c = some (call, phase)) (h : writeRow legacy crypto st c call phase = some st') :
    Steps legacy crypto st (.write c) st' := by
  unfold writeRow at h
  split at h
  · unfold insertScope at h
    split at h
    · cases h
    · rename_i hlock
      split at h
      · cases h
        exact .fail hc
      · rename_i hfresh
        cases h
        rw [not_or] at hlock hfresh
        exact .insertScope hc (by simpa [newScope] using hlock.1)
          (by simpa [newScope] using hfresh.1)
  · exact of_updateScopeRow hc (by simp) h fun r hlock hrow => .saveScope hc hlock hrow
  · exact of_updateScopeRow hc (by simp) h fun r hlock hrow => .removeScope hc hlock hrow
  · split at h
    · cases h
      exact .fail hc
    · unfold insertActor at h
      split at h
      · cases h
      · rename_i hlock
        split at h
        · cases h
          exact .fail hc
        · rename_i hfresh
          cases h
          rw [not_or] at hlock hfresh
          exact .insertActor hc (by simpa [newActor] using hlock.1)
            (by simpa [newActor] using hfresh.1)
  · exact of_updateActorRow hc (by simp) h fun r hlock hrow => .saveActor hc hlock hrow
  · exact of_updateActorRow hc (by simp) h fun r hlock hrow => .removeActor hc hlock hrow
  · cases h

theorem of_step {st st' : State} {l : Statement} (h : step legacy crypto st l = some st') :
    Steps legacy crypto st l st' := by
  cases l with
  | begin c call =>
    simp only [step] at h
    split at h
    · cases h
    · rename_i hc
      cases h
      exact .settle (fun _ _ h => by rw [hc] at h; cases h) rfl
  | select c =>
    simp only [step] at h
    split at h
    · rename_i hc
      exact of_selectRow hc h
    · cases h
  | acquire c =>
    simp only [step] at h
    split at h
    · rename_i hc
      exact of_acquireRow hc h
    · cases h
  | check c =>
    simp only [step] at h
    split at h
    · rename_i hc
      split at h
      · rename_i hck
        cases h
        split
        · rename_i hpass
          exact .pass hc hck hpass
        · exact .fail hc
      · cases h
    · cases h
  | findOne c =>
    simp only [step] at h
    split at h
    · rename_i hc
      split at h
      · cases h
        exact .fail hc
      · rename_i hrow
        cases h
        exact .load hc hrow
    · cases h
  | reread c =>
    simp only [step] at h
    split at h
    · rename_i hc
      obtain ⟨row, hrow, rfl⟩ := Option.map_eq_some_iff.1 h
      split
      · exact .settle_of hc (by simp) rfl
      · exact .rereadScope hc hrow
    · rename_i hc
      obtain ⟨row, hrow, rfl⟩ := Option.map_eq_some_iff.1 h
      exact of_savePatch hc hrow
    · cases h
  | write c =>
    simp only [step] at h
    split at h
    · rename_i hc
      exact of_writeRow hc h
    · cases h
  | commit c =>
    simp only [step] at h
    split at h
    · rename_i hc
      cases h
      exact .commit hc
    · rename_i hc
      cases h
      exact .commit hc
    · cases h
  | rollback c =>
    simp only [step] at h
    split at h
    · cases h
    · cases h
    · rename_i hc
      cases h
      exact .fail hc

end

end ScopeBinding
end NolagCore
