import NolagCore.Authz.Subscriptions
import NolagCore.Lib.Calls
import NolagCore.Lib.Transition

/-!
# Authz.SubscriptionInterleaving

Subscribes and unsubscribes of one actor, interleaved statement by statement under READ COMMITTED
with row locks. `SELECT ... FOR UPDATE` takes the rows it sees when it starts, waits until no other
transaction holds one of them, reads them again as they then stand, and holds them until its
transaction commits.

A row that does not exist cannot be locked. Two calls that find none both insert one, since the table
has no unique index on the actor, and from then on each call goes by whichever row it reads first.

The actor exists throughout, so the foreign key refuses no row.
-/

namespace NolagCore
namespace Authz
namespace Subscriptions

open Lib

inductive Phase where
  | begun
  /-- The SELECT has started and waits for these rows. -/
  | waiting (ids : List Uuid)
  /-- The SELECT has returned; the row, if there is one, is locked. -/
  | found (state : Option ActorTokenState)
  /-- The row is written in this transaction: inserted, or updated under the lock. -/
  | written (row : ActorTokenState) (inserted : Bool)
  | returned

/-- The table, the locks, and the calls for one actor. -/
structure StateTable where
  rows : List ActorTokenState
  locks : Uuid → Option Nat
  calls : Pool SubscriptionUpdate Phase

def StateTable.init (rows : List ActorTokenState) : StateTable where
  rows := rows
  locks _ := none
  calls := Pool.empty

/-- A statement that changes nothing but the phase of its call. -/
def StateTable.advance (st : StateTable) (c : Nat) (dto : SubscriptionUpdate)
    (phase : Phase) : StateTable :=
  { st with calls := st.calls.move c dto phase }

inductive Statement where
  | begin (c : Nat) (dto : SubscriptionUpdate)
  | select (c : Nat)
  | acquire (c : Nat)
  /-- `save`, at an instant and with the id a new row gets. -/
  | write (c : Nat) (now : Int) (actorTokenStateId : Uuid)
  | commit (c : Nat)

/-- `WHERE actor_token_id = ... AND deleted_at IS NULL`. -/
def ownRows (actorTokenId : Uuid) (rows : List ActorTokenState) : List ActorTokenState :=
  findAll rows fun r => decide (r.actorTokenId = actorTokenId)

theorem mem_ownRows {actorTokenId : Uuid} {rows : List ActorTokenState} {r : ActorTokenState} :
    r ∈ ownRows actorTokenId rows ↔ r ∈ rows ∧ live r = true ∧ r.actorTokenId = actorTokenId := by
  simp [ownRows]

/-- The entity a call makes where it has found no row. -/
def newState (actorTokenId actorTokenStateId : Uuid) : ActorTokenState where
  actorTokenStateId := actorTokenStateId
  actorTokenId := actorTokenId
  connectionState := some { topics := some [] }

/-- The locks of `c` on the rows it has read. -/
def acquired (c : Nat) (own : List ActorTokenState) (locks : Uuid → Option Nat) (id : Uuid) :
    Option Nat :=
  if own.any fun r => decide (r.actorTokenStateId = id) then some c else locks id

def released (c : Nat) (locks : Uuid → Option Nat) (id : Uuid) : Option Nat :=
  if locks id = some c then none else locks id

section

variable (actorTokenId : Uuid)

/-- After the start of a SELECT that sees the rows `own`. -/
def selected (own : List ActorTokenState) : Phase :=
  if own = [] then .found none else .waiting (own.map (·.actorTokenStateId))

/-- The rows of a SELECT, read again when it gets them. -/
def reread (ids : List Uuid) (rows : List ActorTokenState) : List ActorTokenState :=
  (ownRows actorTokenId rows).filter fun r => decide (r.actorTokenStateId ∈ ids)

def step (st : StateTable) : Statement → Option StateTable
  | .begin c dto =>
    match st.calls c with
    | some _ => none
    | none => if dto.actorTokenId = actorTokenId then some (st.advance c dto .begun) else none
  | .select c =>
    match st.calls c with
    | some (dto, .begun) => some (st.advance c dto (selected (ownRows actorTokenId st.rows)))
    | _ => none
  | .acquire c =>
    match st.calls c with
    | some (dto, .waiting ids) =>
      if ids.all fun id => decide (st.locks id = none) then
        let own := reread actorTokenId ids st.rows
        some { rows := st.rows
               locks := acquired c own st.locks
               calls := st.calls.move c dto (.found own.head?) }
      else none
    | _ => none
  | .write c now actorTokenStateId =>
    match st.calls c with
    | some (dto, .found (some state)) =>
      some (st.advance c dto (.written (updatedState dto now state) false))
    | some (dto, .found none) =>
      some (st.advance c dto
        (.written (updatedState dto now (newState actorTokenId actorTokenStateId)) true))
    | _ => none
  | .commit c =>
    match st.calls c with
    | some (dto, .written row false) =>
      some { rows := saveRow (·.actorTokenStateId) row st.rows
             locks := released c st.locks
             calls := st.calls.move c dto .returned }
    | some (dto, .written row true) =>
      if row.actorTokenStateId ∈ st.rows.map (·.actorTokenStateId) then none
      else some { st with rows := st.rows ++ [row], calls := st.calls.move c dto .returned }
    | _ => none

/-- What a step is, one constructor a branch. -/
inductive Steps (st : StateTable) : Statement → StateTable → Prop
  | begin {c : Nat} {dto : SubscriptionUpdate} (hc : st.calls c = none) :
    Steps st (.begin c dto) (st.advance c dto .begun)
  | select {c : Nat} {dto : SubscriptionUpdate} (hc : st.calls c = some (dto, .begun)) :
    Steps st (.select c) (st.advance c dto (selected (ownRows actorTokenId st.rows)))
  | acquire {c : Nat} {dto : SubscriptionUpdate} {ids : List Uuid}
    (hc : st.calls c = some (dto, .waiting ids)) (hfree : ∀ id ∈ ids, st.locks id = none) :
    Steps st (.acquire c)
      { rows := st.rows
        locks := acquired c (reread actorTokenId ids st.rows) st.locks
        calls := st.calls.move c dto (.found (reread actorTokenId ids st.rows).head?) }
  | update {c : Nat} {dto : SubscriptionUpdate} {state : ActorTokenState} {now : Int} {id : Uuid}
    (hc : st.calls c = some (dto, .found (some state))) :
    Steps st (.write c now id) (st.advance c dto (.written (updatedState dto now state) false))
  | insert {c : Nat} {dto : SubscriptionUpdate} {now : Int} {id : Uuid}
    (hc : st.calls c = some (dto, .found none)) :
    Steps st (.write c now id)
      (st.advance c dto (.written (updatedState dto now (newState actorTokenId id)) true))
  | commitUpdate {c : Nat} {dto : SubscriptionUpdate} {row : ActorTokenState}
    (hc : st.calls c = some (dto, .written row false)) :
    Steps st (.commit c)
      { rows := saveRow (·.actorTokenStateId) row st.rows
        locks := released c st.locks
        calls := st.calls.move c dto .returned }
  | commitInsert {c : Nat} {dto : SubscriptionUpdate} {row : ActorTokenState}
    (hc : st.calls c = some (dto, .written row true))
    (hfresh : row.actorTokenStateId ∉ st.rows.map (·.actorTokenStateId)) :
    Steps st (.commit c)
      { st with rows := st.rows ++ [row], calls := st.calls.move c dto .returned }

end

variable {actorTokenId : Uuid}

theorem of_step {st st' : StateTable} {l : Statement}
    (h : step actorTokenId st l = some st') : Steps actorTokenId st l st' := by
  cases l with
  | begin c dto =>
    simp only [step] at h
    split at h
    · cases h
    · rename_i hc
      split at h
      · cases h
        exact .begin hc
      · cases h
  | select c =>
    simp only [step] at h
    split at h
    · rename_i hc
      cases h
      exact .select hc
    · cases h
  | acquire c =>
    simp only [step] at h
    split at h
    · rename_i dto ids hc
      split at h
      · rename_i hfree
        cases h
        refine .acquire hc ?_
        simpa using hfree
      · cases h
    · cases h
  | write c now id =>
    simp only [step] at h
    split at h
    · rename_i hc
      cases h
      exact .update hc
    · rename_i hc
      cases h
      exact .insert hc
    · cases h
  | commit c =>
    simp only [step] at h
    split at h
    · rename_i hc
      cases h
      exact .commitUpdate hc
    · rename_i hc
      split at h
      · cases h
      · rename_i hfresh
        cases h
        exact .commitInsert hc hfresh
    · cases h

/-! ## Recorded topics -/

/-- The topics the service reads for the actor. -/
def topicsOf (actorTokenId : Uuid) (rows : List ActorTokenState) : List TopicSubscription :=
  topicsOfState ((ownRows actorTokenId rows).head?.bind (·.connectionState))

theorem topics_updatedState (dto : SubscriptionUpdate) (now : Int) (state : ActorTokenState) :
    topicsOfState (updatedState dto now state).connectionState =
      applyUpdate dto (topicsOfState state.connectionState) := rfl

theorem ownRows_saveRow {rows : List ActorTokenState}
    (hu : UniqueOn (·.actorTokenStateId) rows) {old row : ActorTokenState}
    (hold : old ∈ ownRows actorTokenId rows) (hid : row.actorTokenStateId = old.actorTokenStateId)
    (hl : live row = true) (hactor : row.actorTokenId = actorTokenId) :
    ownRows actorTokenId (saveRow (·.actorTokenStateId) row rows) =
      saveRow (·.actorTokenStateId) row (ownRows actorTokenId rows) := by
  unfold ownRows findAll saveRow
  rw [List.filter_map]
  refine congrArg _ (List.filter_congr fun r hr => ?_)
  obtain ⟨hmem, hlive, hown⟩ := mem_ownRows.1 hold
  simp only [Function.comp]
  split
  · rename_i hk
    rw [hu.eq_of_key hr hmem (hk.trans hid), hl, hlive, hactor, hown]
  · rfl

theorem ownRows_append {rows : List ActorTokenState} {row : ActorTokenState} (hl : live row = true)
    (hactor : row.actorTokenId = actorTokenId) :
    ownRows actorTokenId (rows ++ [row]) = ownRows actorTokenId rows ++ [row] := by
  simp [ownRows, findAll, hl, hactor]

/-- The row of the actor after its first own row is saved again. -/
theorem findState_saveRow {rows : List ActorTokenState} (hu : UniqueOn (·.actorTokenStateId) rows)
    {state entity : ActorTokenState} (hstate : (ownRows actorTokenId rows).head? = some state)
    (hid : entity.actorTokenStateId = state.actorTokenStateId) (hl : live entity = live state)
    (hactor : entity.actorTokenId = state.actorTokenId) :
    (ownRows actorTokenId (saveRow (·.actorTokenStateId) entity rows)).head? = some entity := by
  have hown : state ∈ ownRows actorTokenId rows := List.mem_of_head? hstate
  obtain ⟨-, hlive, hmine⟩ := mem_ownRows.1 hown
  rw [ownRows_saveRow hu hown hid (hl.trans hlive) (hactor.trans hmine), saveRow, List.head?_map,
    hstate, Option.map_some, if_pos hid.symm]

/-- After an update the actor has the row that was read, or a new one, with the update made. -/
theorem findState_update {db db' : Database} {now : Int} {actorTokenStateId : Uuid}
    {dto : SubscriptionUpdate}
    (h : updateSubscription db now actorTokenStateId dto = .ok ((), db')) :
    findState db'.store dto.actorTokenId = some (updatedState dto now
      ((findState db.store dto.actorTokenId).getD (newState dto.actorTokenId actorTokenStateId))) := by
  have hfind : ∀ s : Store, findState s dto.actorTokenId =
      (ownRows dto.actorTokenId s.actorTokenStates).head? := fun s => findOne_eq_head? _ _
  unfold updateSubscription at h
  split at h
  · rename_i state hstate
    obtain ⟨-, hs⟩ := commit_ok h
    rw [hstate, Option.getD_some, hfind, hs]
    rw [hfind] at hstate
    exact findState_saveRow db.valid.pkState hstate rfl rfl rfl
  · rename_i hnone
    obtain ⟨-, hs⟩ := commit_ok h
    rw [hnone, Option.getD_none, hfind, hs]
    rw [hfind, List.head?_eq_none_iff] at hnone
    have hactor : (updatedState dto now (newState dto.actorTokenId actorTokenStateId)).actorTokenId =
        dto.actorTokenId := rfl
    show (ownRows dto.actorTokenId (db.store.actorTokenStates ++
      [updatedState dto now (newState dto.actorTokenId actorTokenStateId)])).head? = _
    rw [ownRows_append rfl hactor, hnone]
    rfl

/-- One call on its own records the topics of `updateSubscription`. -/
theorem topicsOf_updateSubscription {db db' : Database} {now : Int} {actorTokenStateId : Uuid}
    {dto : SubscriptionUpdate}
    (h : updateSubscription db now actorTokenStateId dto = .ok ((), db')) :
    topicsOf dto.actorTokenId db'.store.actorTokenStates =
      applyUpdate dto (topicsOf dto.actorTokenId db.store.actorTokenStates) := by
  have hfind : ∀ s : Store, (ownRows dto.actorTokenId s.actorTokenStates).head? =
      findState s dto.actorTokenId := fun s => (findOne_eq_head? _ _).symm
  unfold topicsOf
  rw [hfind, hfind, findState_update h, Option.bind_some, topics_updatedState]
  cases findState db.store dto.actorTokenId with
  | none => rfl
  | some state => rfl

end Subscriptions
end Authz
end NolagCore
