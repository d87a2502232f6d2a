import NolagCore.Lib.Calls
import NolagCore.Lib.Transition
import NolagCore.Room.GrantFacade

/-!
# Room.GrantInterleaving

Updates and deletes of one grant, interleaved statement by statement under READ COMMITTED. A read
sees the committed row. An UPDATE waits for the row lock, is applied to the row as it then stands,
and holds the lock until its transaction commits.

`update` reads the row without locking it, and `save` reads it once more and writes every column in
which the two differ. A column the caller never named is written back where it changed in between,
`deleted_at` included, and a column the caller did name is skipped where it happened to hold the
value already. As long as neither happens the calls are serial and a deleted grant stays deleted.
-/

namespace NolagCore
namespace RoomActorAccessFacade

open Lib

inductive Call where
  | update (dto : RoomActorAccessUpdateDto)
  | delete (now : Int)

inductive Phase where
  | begun
  /-- `findOne` has returned the live row. -/
  | found (existing : RoomActorAccess)
  /-- `save` has read the row again and found a difference. -/
  | saving (entity reread : RoomActorAccess)
  /-- `save` has found no difference, so there is nothing to write. -/
  | unchanged
  /-- The UPDATE has run and holds the row. -/
  | written
  /-- The transaction has committed, or has been rolled back by an exception. -/
  | returned (ok : Bool)
deriving DecidableEq

/-- The committed row, the version of the transaction that holds it, and the calls. -/
structure Grant where
  row : RoomActorAccess
  lock : Option (Nat × RoomActorAccess)
  calls : Pool Call Phase

def Grant.init (row : RoomActorAccess) : Grant := { row := row, lock := none, calls := Pool.empty }

/-- A statement that changes nothing but the phase of its call. -/
def Grant.advance (st : Grant) (c : Nat) (call : Call) (phase : Phase) : Grant :=
  { st with calls := st.calls.move c call phase }

inductive Statement where
  | begin (c : Nat) (call : Call)
  | findOne (c : Nat)
  | reread (c : Nat)
  | write (c : Nat)
  | commit (c : Nat)

/-! ## Columns -/

/-- A column after `save`: set only where the entity differs from the row read again. -/
def column {α : Type} [DecidableEq α] (entity reread current : α) : α :=
  if entity = reread then current else entity

/-- A row that has not moved is overwritten. -/
theorem column_self {α : Type} [DecidableEq α] (entity row : α) : column entity row row = entity := by
  unfold column
  split
  · rename_i h
    exact h.symm
  · rfl

/-- The UPDATE of `save`, on the row as it stands. -/
def writeBack (entity reread current : RoomActorAccess) : RoomActorAccess where
  roomActorAccessId := current.roomActorAccessId
  roomId := column entity.roomId reread.roomId current.roomId
  actorTokenId := column entity.actorTokenId reread.actorTokenId current.actorTokenId
  actorType := column entity.actorType reread.actorType current.actorType
  permission := column entity.permission reread.permission current.permission
  topics := column entity.topics reread.topics current.topics
  isActive := column entity.isActive reread.isActive current.isActive
  expiresAt := column entity.expiresAt reread.expiresAt current.expiresAt
  role := column entity.role reread.role current.role
  metadata := column entity.metadata reread.metadata current.metadata
  deletedAt := column entity.deletedAt reread.deletedAt current.deletedAt

/-- A column named by the caller is not skipped unless the row holds its value, and another one is
not written unless the row holds the value written. -/
def Undisturbed {α : Type} (named : Bool) (entity reread current : α) : Prop :=
  if named then entity = reread → current = entity else entity ≠ reread → current = entity

instance {α : Type} [DecidableEq α] (named : Bool) (entity reread current : α) :
    Decidable (Undisturbed named entity reread current) :=
  match named with
  | true => inferInstanceAs (Decidable (entity = reread → current = entity))
  | false => inferInstanceAs (Decidable (entity ≠ reread → current = entity))

theorem column_patch {α : Type} [DecidableEq α] (named : Option α) (stored reread current : α) :
    column (patch named stored) reread current = patch named current ↔
      Undisturbed named.isSome (patch named stored) reread current := by
  unfold column Undisturbed patch
  cases named with
  | none =>
    by_cases heq : stored = reread
    · simp [heq]
    · simp [heq, eq_comm]
  | some value =>
    by_cases heq : value = reread
    · simp [heq]
    · simp [heq]

/-- What a save of `entity` requires of the row at its UPDATE. -/
structure Steady (dto : RoomActorAccessUpdateDto) (entity reread current : RoomActorAccess) :
    Prop where
  permission :
    Undisturbed dto.permission.isSome entity.permission reread.permission current.permission
  topics : Undisturbed dto.topics.isSome entity.topics reread.topics current.topics
  isActive : Undisturbed dto.isActive.isSome entity.isActive reread.isActive current.isActive
  expiresAt : Undisturbed dto.expiresAt.isSome entity.expiresAt reread.expiresAt current.expiresAt
  role : Undisturbed dto.role.isSome entity.role reread.role current.role
  metadata : Undisturbed dto.metadata.isSome entity.metadata reread.metadata current.metadata
  deletedAt : Undisturbed false entity.deletedAt reread.deletedAt current.deletedAt

/-! ## Statements -/

section

variable (legacy : String → Option Int)

/-- After `findOne` of a live row. -/
def found (row : RoomActorAccess) : Phase := if live row then .found row else .returned false

/-- After the read of `save`; a dto whose date is none is refused. -/
def prepared (dto : RoomActorAccessUpdateDto) (existing row : RoomActorAccess) : Phase :=
  match assign legacy dto existing with
  | .error _ => .returned false
  | .ok entity => if entity = row then .unchanged else .saving entity row

def step (st : Grant) : Statement → Option Grant
  | .begin c call =>
    match st.calls c with
    | some _ => none
    | none => some (st.advance c call .begun)
  | .findOne c =>
    match st.calls c with
    | some (call, .begun) => some (st.advance c call (found st.row))
    | _ => none
  | .reread c =>
    match st.calls c with
    | some (.update dto, .found existing) =>
      some (st.advance c (.update dto) (prepared legacy dto existing st.row))
    | _ => none
  | .write c =>
    match st.lock, st.calls c with
    | none, some (.update dto, .saving entity reread) =>
      some { row := st.row
             lock := some (c, writeBack entity reread st.row)
             calls := st.calls.move c (.update dto) .written }
    | none, some (.delete now, .found _) =>
      some { row := st.row
             lock := some (c, { st.row with deletedAt := some now })
             calls := st.calls.move c (.delete now) .written }
    | _, _ => none
  | .commit c =>
    match st.calls c, st.lock with
    | some (call, .written), some (holder, version) =>
      if holder = c then
        some { row := version, lock := none, calls := st.calls.move c call (.returned true) }
      else none
    | some (call, .unchanged), _ => some (st.advance c call (.returned true))
    | _, _ => none

/-- What a step is, one constructor a branch. -/
inductive Steps (st : Grant) : Statement → Grant → Prop
  | begin {c : Nat} {call : Call} (hc : st.calls c = none) :
    Steps st (.begin c call) (st.advance c call .begun)
  | found {c : Nat} {call : Call} (hc : st.calls c = some (call, .begun)) (hl : live st.row = true) :
    Steps st (.findOne c) (st.advance c call (.found st.row))
  | missing {c : Nat} {call : Call} (hc : st.calls c = some (call, .begun)) :
    Steps st (.findOne c) (st.advance c call (.returned false))
  | invalid {c : Nat} {dto : RoomActorAccessUpdateDto} {existing : RoomActorAccess}
    (hc : st.calls c = some (.update dto, .found existing)) :
    Steps st (.reread c) (st.advance c (.update dto) (.returned false))
  | unchanged {c : Nat} {dto : RoomActorAccessUpdateDto} {existing : RoomActorAccess}
    (hc : st.calls c = some (.update dto, .found existing))
    (he : assign legacy dto existing = .ok st.row) :
    Steps st (.reread c) (st.advance c (.update dto) .unchanged)
  | saving {c : Nat} {dto : RoomActorAccessUpdateDto} {existing entity : RoomActorAccess}
    (hc : st.calls c = some (.update dto, .found existing))
    (he : assign legacy dto existing = .ok entity) :
    Steps st (.reread c) (st.advance c (.update dto) (.saving entity st.row))
  | save {c : Nat} {dto : RoomActorAccessUpdateDto} {entity reread : RoomActorAccess}
    (hlock : st.lock = none) (hc : st.calls c = some (.update dto, .saving entity reread)) :
    Steps st (.write c)
      { row := st.row
        lock := some (c, writeBack entity reread st.row)
        calls := st.calls.move c (.update dto) .written }
  | stamp {c : Nat} {now : Int} {existing : RoomActorAccess} (hlock : st.lock = none)
    (hc : st.calls c = some (.delete now, .found existing)) :
    Steps st (.write c)
      { row := st.row
        lock := some (c, { st.row with deletedAt := some now })
        calls := st.calls.move c (.delete now) .written }
  | commit {c : Nat} {call : Call} {version : RoomActorAccess}
    (hc : st.calls c = some (call, .written)) (hlock : st.lock = some (c, version)) :
    Steps st (.commit c)
      { row := version, lock := none, calls := st.calls.move c call (.returned true) }
  | close {c : Nat} {call : Call} (hc : st.calls c = some (call, .unchanged)) :
    Steps st (.commit c) (st.advance c call (.returned true))

variable {legacy}

theorem of_step {st st' : Grant} {l : Statement} (h : step legacy st l = some st') :
    Steps legacy st l st' := by
  cases l with
  | begin c call =>
    simp only [step] at h
    split at h
    · cases h
    · rename_i hc
      cases h
      exact .begin hc
  | findOne c =>
    simp only [step] at h
    split at h
    · rename_i call hc
      cases h
      unfold found
      split
      · rename_i hl
        exact .found hc hl
      · exact .missing hc
    · cases h
  | reread c =>
    simp only [step] at h
    split at h
    · rename_i dto existing hc
      cases h
      unfold prepared
      split
      · exact .invalid hc
      · rename_i entity he
        split
        · rename_i heq
          subst heq
          exact .unchanged hc he
        · exact .saving hc he
    · cases h
  | write c =>
    simp only [step] at h
    split at h
    · rename_i dto entity reread hlock hc
      cases h
      exact .save hlock hc
    · rename_i now existing hlock hc
      cases h
      exact .stamp hlock hc
    · cases h
  | commit c =>
    simp only [step] at h
    split at h
    · rename_i call holder version hc hlock
      split at h
      · rename_i heq
        subst heq
        cases h
        exact .commit hc hlock
      · cases h
    · rename_i call hc
      cases h
      exact .close hc
    · cases h

end

/-! ## One call on its own -/

/-- What one call makes of the row when nothing runs beside it. -/
def effect (legacy : String → Option Int) (call : Call) (row : RoomActorAccess) : RoomActorAccess :=
  match call with
  | .update dto => match assign legacy dto row with
    | .ok entity => entity
    | .error _ => row
  | .delete now => { row with deletedAt := some now }

/-- The assignments of `update`, the date already read. -/
def assigned (dto : RoomActorAccessUpdateDto) (expiresAt : Option (Option Int))
    (row : RoomActorAccess) : RoomActorAccess :=
  { row with
    permission := patch dto.permission row.permission
    topics := patch dto.topics row.topics
    isActive := patch dto.isActive row.isActive
    expiresAt := patch expiresAt row.expiresAt
    role := patch dto.role row.role
    metadata := patch dto.metadata row.metadata }

theorem assign_ok_iff {legacy : String → Option Int} {dto : RoomActorAccessUpdateDto}
    {row entity : RoomActorAccess} : assign legacy dto row = .ok entity ↔
      ∃ expiresAt : Option (Option Int),
        dto.expiresAt.map (dateColumn legacy) = expiresAt.map .ok ∧
        entity = assigned dto expiresAt row := by
  unfold assign
  cases hd : dto.expiresAt.map (dateColumn legacy) with
  | none =>
    constructor
    · intro h
      cases h
      exact ⟨none, rfl, rfl⟩
    · rintro ⟨expiresAt, hmap, rfl⟩
      cases expiresAt with
      | none => rfl
      | some t => cases hmap
  | some r =>
    cases r with
    | error e =>
      constructor
      · intro h
        cases h
      · rintro ⟨expiresAt, hmap, rfl⟩
        cases expiresAt <;> cases hmap
    | ok t =>
      constructor
      · intro h
        cases h
        exact ⟨some t, rfl, rfl⟩
      · rintro ⟨expiresAt, hmap, rfl⟩
        cases expiresAt with
        | none => cases hmap
        | some t' =>
          cases hmap
          rfl

theorem effect_update {legacy : String → Option Int} {dto : RoomActorAccessUpdateDto}
    {row : RoomActorAccess} {expiresAt : Option (Option Int)}
    (h : dto.expiresAt.map (dateColumn legacy) = expiresAt.map .ok) :
    effect legacy (.update dto) row = assigned dto expiresAt row := by
  have he : assign legacy dto row = .ok (assigned dto expiresAt row) :=
    assign_ok_iff.2 ⟨expiresAt, h, rfl⟩
  simp only [effect, he]

/-- Run to the end on its own, `update` returns the effect of the call on the row it found. -/
theorem update_eq_effect {legacy : String → Option Int} {db db' : Database}
    {roomActorAccessId : Uuid} {dto : RoomActorAccessUpdateDto} {entity : RoomActorAccess}
    (h : update legacy db roomActorAccessId dto = .ok (entity, db')) :
    ∃ row, findById db.store roomActorAccessId = some row ∧
      entity = effect legacy (.update dto) row := by
  unfold update at h
  split at h
  · cases h
  · rename_i row hrow
    split at h
    · cases h
    · rename_i entity' he
      obtain ⟨rfl, -⟩ := commit_ok h
      refine ⟨row, hrow, ?_⟩
      simp only [effect, he]

/-- The columns no call assigns. -/
def target (row : RoomActorAccess) : Uuid × Uuid × Option Uuid × Option EActorType :=
  (row.roomActorAccessId, row.roomId, row.actorTokenId, row.actorType)

theorem target_effect (legacy : String → Option Int) (call : Call) (row : RoomActorAccess) :
    target (effect legacy call row) = target row := by
  unfold effect
  split
  · split
    · rename_i he
      obtain ⟨expiresAt, -, rfl⟩ := assign_ok_iff.1 he
      rfl
    · rfl
  · rfl

theorem not_live_effect (legacy : String → Option Int) (call : Call) (row : RoomActorAccess)
    (h : live row = false) : live (effect legacy call row) = false := by
  unfold effect
  split
  · split
    · rename_i he
      obtain ⟨expiresAt, -, rfl⟩ := assign_ok_iff.1 he
      exact h
    · exact h
  · rfl

theorem patch_patch {α : Type} (named : Option α) (stored : α) :
    patch named (patch named stored) = patch named stored := by
  cases named <;> rfl

/-- A call that finds nothing to write has no effect on the row it read. -/
theorem effect_of_unchanged {legacy : String → Option Int} {dto : RoomActorAccessUpdateDto}
    {existing row : RoomActorAccess} (h : assign legacy dto existing = .ok row) :
    effect legacy (.update dto) row = row := by
  obtain ⟨expiresAt, hd, rfl⟩ := assign_ok_iff.1 h
  rw [effect_update hd]
  simp only [assigned, patch_patch]

/-- The UPDATE of a save leaves the row as the call alone would, exactly when no column was moved
under it. -/
theorem writeBack_iff {legacy : String → Option Int} {dto : RoomActorAccessUpdateDto}
    {existing entity reread current : RoomActorAccess} (h : assign legacy dto existing = .ok entity)
    (hreread : target reread = target existing) :
    writeBack entity reread current = effect legacy (.update dto) current ↔
      Steady dto entity reread current := by
  obtain ⟨expiresAt, hd, rfl⟩ := assign_ok_iff.1 h
  have hnamed : dto.expiresAt.isSome = expiresAt.isSome := by
    rw [← Option.isSome_map (f := dateColumn legacy), hd, Option.isSome_map]
  simp only [target, Prod.mk.injEq] at hreread
  obtain ⟨-, hroom, hactor, htype⟩ := hreread
  rw [effect_update hd]
  have hplain := column_patch none existing.deletedAt reread.deletedAt current.deletedAt
  constructor
  · intro heq
    simp only [writeBack, assigned, RoomActorAccess.mk.injEq] at heq
    obtain ⟨-, -, -, -, hp, ht, ha, he, hr, hm, hdel⟩ := heq
    constructor
    · exact (column_patch ..).1 hp
    · exact (column_patch ..).1 ht
    · exact (column_patch ..).1 ha
    · rw [hnamed]
      exact (column_patch ..).1 he
    · exact (column_patch ..).1 hr
    · exact (column_patch ..).1 hm
    · exact hplain.1 hdel
  · intro hs
    have he := hs.expiresAt
    rw [hnamed] at he
    simp only [writeBack, assigned, RoomActorAccess.mk.injEq]
    refine ⟨trivial, ?_, ?_, ?_, (column_patch ..).2 hs.permission, (column_patch ..).2 hs.topics,
      (column_patch ..).2 hs.isActive, (column_patch ..).2 he, (column_patch ..).2 hs.role,
      (column_patch ..).2 hs.metadata, hplain.2 hs.deletedAt⟩
    · simp [column, hroom]
    · simp [column, hactor]
    · simp [column, htype]

end RoomActorAccessFacade
end NolagCore
