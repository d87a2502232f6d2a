import NolagCore.Lib.Calls
import NolagCore.Lib.JoinTable
import NolagCore.Lib.Transition
import NolagCore.Room.Facade

/-!
# Room.EnsureInterleaving

`ensureRoom` by interleaved calls, statement by statement under READ COMMITTED. The lookup by slug and
the count are statements of their own; the slug check, the read of the app's topics and the INSERT
are one transaction; a creation that throws is followed by a second lookup. The partial unique index
on app and slug makes an INSERT wait for another transaction that has inserted the same slug, and
refuses it where the row is committed.

A call writes one row, so no two wait for each other. A statement may also fail for a reason outside
the call. Inside the transaction that rolls it back, and the second lookup follows as after any other
exception; elsewhere it ends the call.
-/

namespace NolagCore
namespace RoomFacade
namespace Ensure

open Lib

structure Call where
  appId : Uuid
  data : RoomCreateDto
  maxRooms : Nat := defaultRoomCap

def Call.slug (call : Call) : String := call.data.slug.getD (generateSlug call.data.name)

inductive Phase where
  | begun
  /-- The lookup has found no room of the slug. -/
  | missing
  /-- The app is under the cap. -/
  | counted
  /-- The transaction has begun, and the slug is free. -/
  | slugFree
  /-- The topics of the row are known. -/
  | loaded (topics : Option (List String))
  /-- The INSERT has run. -/
  | written (room : Room)
  /-- `createRoom` has thrown, and its transaction is rolled back. -/
  | failed (error : CoreError)
  /-- The same, for a reason outside the call. -/
  | rolledBack
  | returned (room : Room)
  | thrown (error : CoreError)
  /-- The call has thrown for a reason outside it. -/
  | aborted
deriving DecidableEq

/-- Where a failure from outside leaves the call. -/
def Phase.broken : Phase → Option Phase
  | .counted | .slugFree | .loaded _ | .written _ => some .rolledBack
  | .begun | .missing | .failed _ | .rolledBack => some .aborted
  | .returned _ | .thrown _ | .aborted => none

def Phase.isBroken : Phase → Bool
  | .rolledBack | .aborted => true
  | _ => false

theorem isBroken_of_broken {phase phase' : Phase} (h : phase.broken = some phase') :
    phase'.isBroken = true := by
  cases phase <;> cases h <;> rfl

structure State where
  apps : List PlatformApp
  rooms : JoinTable Uuid Room
  calls : Pool Call Phase

/-- The tables with no transaction open. -/
def State.idle (s : Store) : State where
  apps := s.apps
  rooms := { rows := s.rooms }
  calls := Pool.empty

/-- The committed rows, which a SELECT reads. -/
def State.store (st : State) : Store where
  apps := st.apps
  rooms := st.rooms.rows

/-- A statement that changes nothing but the phase of its call. -/
def State.advance (st : State) (c : Nat) (call : Call) (phase : Phase) : State :=
  { st with calls := st.calls.move c call phase }

def State.insert (st : State) (c : Nat) (call : Call) (room : Room) : State :=
  { st with
    rooms := st.rooms.insert c room
    calls := st.calls.move c call (.written room) }

def State.commit (st : State) (c : Nat) (call : Call) (room : Room) : State :=
  { st with
    rooms := st.rooms.commit Room.roomId c
    calls := st.calls.move c call (.returned room) }

/-- A failure from outside: what the call has inserted is gone. -/
def State.breakOff (st : State) (c : Nat) (call : Call) (phase : Phase) : State :=
  { st with
    rooms := st.rooms.release c
    calls := st.calls.move c call phase }

inductive Statement where
  | begin (c : Nat) (call : Call)
  | lookup (c : Nat)
  | count (c : Nat)
  | slugExists (c : Nat)
  | findApp (c : Nat)
  /-- The id is drawn for the row. -/
  | insert (c : Nat) (roomId : Uuid)
  | commit (c : Nat)
  /-- The lookup after a creation that threw. -/
  | reread (c : Nat)
  /-- A lost connection or a timeout. -/
  | breakOff (c : Nat)

/-! ## Steps -/

def capReached (call : Call) : CoreError :=
  .badRequest ("App " ++ call.appId.text ++ " has reached its room cap (" ++
    toString call.maxRooms ++ ")")

def slugConflict (call : Call) : CoreError :=
  .conflict ("Room with slug \"" ++ call.slug ++ "\" already exists")

def slugRequired : CoreError :=
  .badRequest "Room slug is required" (some "RoomService:createRoom:slug_required")

/-- The entity that `RoomService.createRoom` saves. -/
def newRoom (call : Call) (roomId : Uuid) (topics : Option (List String)) : Room where
  roomId := roomId
  appId := call.appId
  slug := call.slug
  name := call.data.name
  description := call.data.description
  status := .active
  topics := topics
  metadata := call.data.metadata

/-- An open transaction has inserted the id, or a room of the app and slug. -/
def contested (st : State) (call : Call) (roomId : Uuid) : Bool :=
  st.rooms.inserted.any fun e => decide (e.2.roomId = roomId) ||
    decide (e.2.appId = call.appId) && decide (e.2.slug = call.slug)

/-- The INSERT. A drawn id is new, so one that is taken is no draw. -/
def insertRow (st : State) (c : Nat) (call : Call) (topics : Option (List String)) (roomId : Uuid) :
    Option State :=
  if call.slug = "" then some (st.advance c call (.failed slugRequired))
  else if (st.rooms.find Room.roomId roomId).isSome ∨ contested st call roomId = true then none
  else if st.apps.all (fun a => decide (a.appId ≠ call.appId)) = true ∨
      slugExists st.store call.slug call.appId = true then
    some (st.advance c call (.failed .database))
  else some (st.insert c call (newRoom call roomId topics))

def step (st : State) : Statement → Option State
  | .begin c call =>
    match st.calls c with
    | some _ => none
    | none => some (st.advance c call .begun)
  | .lookup c =>
    match st.calls c with
    | some (call, .begun) => match findBySlugAndApp st.store call.slug call.appId with
        | some existing => some (st.advance c call (.returned existing))
        | none => some (st.advance c call .missing)
    | _ => none
  | .count c =>
    match st.calls c with
    | some (call, .missing) =>
      if countByAppId st.store call.appId ≥ call.maxRooms then
        some (st.advance c call (.thrown (capReached call)))
      else some (st.advance c call .counted)
    | _ => none
  | .slugExists c =>
    match st.calls c with
    | some (call, .counted) =>
      if slugExists st.store call.slug call.appId then
        some (st.advance c call (.failed (slugConflict call)))
      else some (st.advance c call .slugFree)
    | _ => none
  | .findApp c =>
    match st.calls c with
    | some (call, .slugFree) =>
      some (st.advance c call (.loaded (roomTopics st.store call.appId call.data)))
    | _ => none
  | .insert c roomId =>
    match st.calls c with
    | some (call, .loaded topics) => insertRow st c call topics roomId
    | _ => none
  | .commit c =>
    match st.calls c with
    | some (call, .written room) => some (st.commit c call room)
    | _ => none
  | .reread c =>
    match st.calls c with
    | some (call, .failed error) => match findBySlugAndApp st.store call.slug call.appId with
        | some raced => some (st.advance c call (.returned raced))
        | none => some (st.advance c call (.thrown error))
    | some (call, .rolledBack) => match findBySlugAndApp st.store call.slug call.appId with
        | some raced => some (st.advance c call (.returned raced))
        | none => some (st.advance c call .aborted)
    | _ => none
  | .breakOff c =>
    match st.calls c with
    | some (call, phase) => phase.broken.map (st.breakOff c call)
    | none => none

/-- Why an INSERT throws. -/
inductive Refused (st : State) (call : Call) : Prop
  | noSlug (h : call.slug = "")
  | noApp (h : ∀ a ∈ st.apps, a.appId ≠ call.appId)
  | taken (h : slugExists st.store call.slug call.appId = true)

/-- What a step is, one constructor for each kind of effect. -/
inductive Steps (st : State) : Statement → State → Prop
  | begin {c : Nat} {call : Call} (hc : st.calls c = none) :
    Steps st (.begin c call) (st.advance c call .begun)
  | found {c : Nat} {call : Call} {existing : Room} (hc : st.calls c = some (call, .begun))
    (hrow : findBySlugAndApp st.store call.slug call.appId = some existing) :
    Steps st (.lookup c) (st.advance c call (.returned existing))
  | missing {c : Nat} {call : Call} (hc : st.calls c = some (call, .begun))
    (hnone : findBySlugAndApp st.store call.slug call.appId = none) :
    Steps st (.lookup c) (st.advance c call .missing)
  | full {c : Nat} {call : Call} (hc : st.calls c = some (call, .missing))
    (hcap : call.maxRooms ≤ countByAppId st.store call.appId) :
    Steps st (.count c) (st.advance c call (.thrown (capReached call)))
  | counted {c : Nat} {call : Call} (hc : st.calls c = some (call, .missing))
    (hcap : countByAppId st.store call.appId < call.maxRooms) :
    Steps st (.count c) (st.advance c call .counted)
  | conflict {c : Nat} {call : Call} (hc : st.calls c = some (call, .counted))
    (htaken : slugExists st.store call.slug call.appId = true) :
    Steps st (.slugExists c) (st.advance c call (.failed (slugConflict call)))
  | slugFree {c : Nat} {call : Call} (hc : st.calls c = some (call, .counted)) :
    Steps st (.slugExists c) (st.advance c call .slugFree)
  | loaded {c : Nat} {call : Call} {topics : Option (List String)}
    (hc : st.calls c = some (call, .slugFree)) :
    Steps st (.findApp c) (st.advance c call (.loaded topics))
  | refused {c : Nat} {call : Call} {topics : Option (List String)} {roomId : Uuid}
    {error : CoreError} (hc : st.calls c = some (call, .loaded topics)) (hwhy : Refused st call) :
    Steps st (.insert c roomId) (st.advance c call (.failed error))
  | insert {c : Nat} {call : Call} {topics : Option (List String)} {roomId : Uuid}
    (hc : st.calls c = some (call, .loaded topics)) (hslug : call.slug ≠ "")
    (hfree : contested st call roomId = false) (happ : ∃ a ∈ st.apps, a.appId = call.appId)
    (htaken : slugExists st.store call.slug call.appId = false) :
    Steps st (.insert c roomId) (st.insert c call (newRoom call roomId topics))
  | commit {c : Nat} {call : Call} {room : Room} (hc : st.calls c = some (call, .written room)) :
    Steps st (.commit c) (st.commit c call room)
  | raced {c : Nat} {call : Call} {error : CoreError} {room : Room}
    (hc : st.calls c = some (call, .failed error))
    (hrow : findBySlugAndApp st.store call.slug call.appId = some room) :
    Steps st (.reread c) (st.advance c call (.returned room))
  | lost {c : Nat} {call : Call} {error : CoreError} (hc : st.calls c = some (call, .failed error))
    (hnone : findBySlugAndApp st.store call.slug call.appId = none) :
    Steps st (.reread c) (st.advance c call (.thrown error))
  | recovered {c : Nat} {call : Call} {room : Room} (hc : st.calls c = some (call, .rolledBack))
    (hrow : findBySlugAndApp st.store call.slug call.appId = some room) :
    Steps st (.reread c) (st.advance c call (.returned room))
  | aborted {c : Nat} {call : Call} (hc : st.calls c = some (call, .rolledBack))
    (hnone : findBySlugAndApp st.store call.slug call.appId = none) :
    Steps st (.reread c) (st.advance c call .aborted)
  | breakOff {c : Nat} {call : Call} {phase phase' : Phase} (hc : st.calls c = some (call, phase))
    (hbroken : phase.broken = some phase') : Steps st (.breakOff c) (st.breakOff c call phase')

theorem of_insertRow {st st' : State} {c : Nat} {call : Call} {topics : Option (List String)}
    {roomId : Uuid} (hc : st.calls c = some (call, .loaded topics))
    (h : insertRow st c call topics roomId = some st') : Steps st (.insert c roomId) st' := by
  unfold insertRow at h
  split at h
  · rename_i hslug
    cases h
    exact .refused hc (.noSlug hslug)
  · rename_i hslug
    split at h
    · cases h
    · rename_i hwait
      rw [not_or] at hwait
      split at h
      · rename_i hrefused
        cases h
        refine .refused hc ?_
        rcases hrefused with happ | htaken
        · exact .noApp fun a ha => of_decide_eq_true (List.all_eq_true.1 happ a ha)
        · exact .taken htaken
      · rename_i hfree
        cases h
        rw [not_or] at hfree
        refine .insert hc hslug (by simpa using hwait.2) ?_ (by simpa using hfree.2)
        simpa using hfree.1

theorem of_step {st st' : State} {l : Statement} (h : step st l = some st') : Steps st l st' := by
  cases l with
  | begin c call =>
    simp only [step] at h
    split at h
    · cases h
    · rename_i hc
      cases h
      exact .begin hc
  | lookup c =>
    simp only [step] at h
    split at h
    · rename_i hc
      split at h
      · rename_i hrow
        cases h
        exact .found hc hrow
      · rename_i hnone
        cases h
        exact .missing hc hnone
    · cases h
  | count c =>
    simp only [step] at h
    split at h
    · rename_i hc
      split at h
      · rename_i hcap
        cases h
        exact .full hc hcap
      · rename_i hcap
        cases h
        exact .counted hc (Nat.lt_of_not_le hcap)
    · cases h
  | slugExists c =>
    simp only [step] at h
    split at h
    · rename_i hc
      split at h
      · rename_i htaken
        cases h
        exact .conflict hc htaken
      · cases h
        exact .slugFree hc
    · cases h
  | findApp c =>
    simp only [step] at h
    split at h
    · rename_i hc
      cases h
      exact .loaded hc
    · cases h
  | insert c roomId =>
    simp only [step] at h
    split at h
    · rename_i hc
      exact of_insertRow hc h
    · cases h
  | commit c =>
    simp only [step] at h
    split at h
    · rename_i hc
      cases h
      exact .commit hc
    · cases h
  | reread c =>
    simp only [step] at h
    split at h
    · rename_i hc
      split at h
      · rename_i hrow
        cases h
        exact .raced hc hrow
      · rename_i hnone
        cases h
        exact .lost hc hnone
    · rename_i hc
      split at h
      · rename_i hrow
        cases h
        exact .recovered hc hrow
      · rename_i hnone
        cases h
        exact .aborted hc hnone
    · cases h
  | breakOff c =>
    simp only [step] at h
    split at h
    · rename_i hc
      obtain ⟨phase', hbroken, rfl⟩ := Option.map_eq_some_iff.1 h
      exact .breakOff hc hbroken
    · cases h

/-! ## One call at a time -/

section

variable (st : State) (c : Nat) (call : Call)

@[simp] theorem calls_advance (phase : Phase) : (st.advance c call phase).calls c = some (call, phase) :=
  Pool.move_self st.calls c call phase

@[simp] theorem calls_insert (room : Room) :
    (st.insert c call room).calls c = some (call, .written room) :=
  Pool.move_self st.calls c call (.written room)

@[simp] theorem calls_commit (room : Room) :
    (st.commit c call room).calls c = some (call, .returned room) :=
  Pool.move_self st.calls c call (.returned room)

end

/-- A creation that succeeds. -/
theorem of_createRoom {db db' : Database} {roomId : Uuid} {call : Call} {room : Room}
    (h : createRoom db roomId call.appId { call.data with slug := some call.slug } =
      .ok (room, db')) :
    slugExists db.store call.slug call.appId = false ∧ call.slug ≠ "" ∧
      room = newRoom call roomId (roomTopics db.store call.appId call.data) ∧
      db'.store = { db.store with rooms := db.store.rooms ++ [room] } := by
  unfold createRoom at h
  dsimp only at h
  split at h
  · cases h
  · rename_i hexists
    unfold insertRoom at h
    split at h
    · cases h
    · rename_i htruthy
      obtain ⟨hroom, hstore⟩ := commit_ok h
      refine ⟨by simpa using hexists, ?_, hroom, ?_⟩
      · intro hempty
        exact htruthy (by simp [truthy, hempty])
      · rw [hstore, hroom]

/-- Run to the end with nothing beside it, a call returns the room and leaves the rows that
`ensureRoom` does. -/
theorem ensure_alone {db db' : Database} {roomId : Uuid} {call : Call} {room : Room}
    (h : ensureRoom db roomId call.appId call.data call.maxRooms = .ok (room, db')) :
    ∃ run st, exec step (State.idle db.store) (.begin 0 call :: run) = some st ∧
      st.calls 0 = some (call, .returned room) ∧ st.rooms.rows = db'.store.rooms := by
  let st₁ := (State.idle db.store).advance 0 call .begun
  unfold ensureRoom at h
  dsimp only at h
  split at h
  · rename_i existing hrow
    cases h
    have hrow' : findBySlugAndApp st₁.store call.slug call.appId = some room := hrow
    have hlookup : step st₁ (.lookup 0) = some (st₁.advance 0 call (.returned room)) := by
      simp only [step, st₁, calls_advance] at hrow' ⊢
      rw [hrow']
    exact ⟨[.lookup 0], st₁.advance 0 call (.returned room),
      exec_step rfl (exec_step hlookup rfl), calls_advance .., rfl⟩
  · rename_i hnone
    split at h
    · cases h
    · rename_i hcap
      split at h
      · rename_i created hcreate
        cases h
        obtain ⟨hexists, hslug, hroom, hstore⟩ := of_createRoom hcreate
        let topics := roomTopics db.store call.appId call.data
        let st₂ := st₁.advance 0 call .missing
        let st₃ := st₂.advance 0 call .counted
        let st₄ := st₃.advance 0 call .slugFree
        let st₅ := st₄.advance 0 call (.loaded topics)
        let st₆ := st₅.insert 0 call room
        have hlookup : step st₁ (.lookup 0) = some st₂ := by
          have hnone' : findBySlugAndApp st₁.store call.slug call.appId = none := hnone
          simp only [step, st₁, calls_advance] at hnone' ⊢
          rw [hnone']
        have hcount : step st₂ (.count 0) = some st₃ := by
          have hcap' : ¬ call.maxRooms ≤ countByAppId st₂.store call.appId := hcap
          simp only [step, st₂, calls_advance] at hcap' ⊢
          exact if_neg hcap'
        have hfree : step st₃ (.slugExists 0) = some st₄ := by
          have hexists' : slugExists st₃.store call.slug call.appId = false := hexists
          simp only [step, st₃, calls_advance] at hexists' ⊢
          rw [hexists']
          rfl
        have hload : step st₄ (.findApp 0) = some st₅ := by
          simp only [step, st₄, calls_advance]
          rfl
        have hinsert : step st₅ (.insert 0 roomId) = some st₆ := by
          have hid : room.roomId = roomId := by rw [hroom]; rfl
          have happ : room.appId = call.appId := by rw [hroom]; rfl
          have hin : room ∈ db'.store.rooms := by rw [hstore]; exact List.mem_append_right _ (by simp)
          have hnew : (st₅.rooms.find Room.roomId roomId).isSome = false := by
            rw [Option.isSome_eq_false_iff, Option.isNone_iff_eq_none]
            refine List.find?_eq_none.2 fun r hr hk => ?_
            have hpk := db'.valid.pkRoom
            rw [hstore] at hpk
            exact hpk.ne_of_append hr List.mem_cons_self ((of_decide_eq_true hk).trans hid.symm)
          have hfk : ¬ (st₅.apps.all fun a => decide (a.appId ≠ call.appId)) = true := by
            obtain ⟨a, ha, haid⟩ := db'.valid.fkRoomApp room hin room.appId rfl
            rw [hstore] at ha
            intro hall
            exact of_decide_eq_true (List.all_eq_true.1 hall a ha) (haid.trans happ)
          have hexists' : slugExists st₅.store call.slug call.appId = false := hexists
          have hwait : contested st₅ call roomId = false := rfl
          simp only [step, st₅, calls_advance] at hnew hfk hexists' hwait ⊢
          unfold insertRow
          rw [if_neg hslug, if_neg (by simp [hnew, hwait]), if_neg (not_or.2 ⟨hfk, by simp [hexists']⟩),
            ← hroom]
        have hcommit : step st₆ (.commit 0) = some (st₆.commit 0 call room) := by
          simp only [step, st₆, calls_insert]
        refine ⟨[.lookup 0, .count 0, .slugExists 0, .findApp 0, .insert 0 roomId, .commit 0],
          st₆.commit 0 call room, ?_, calls_commit .., ?_⟩
        · exact exec_step rfl (exec_step hlookup (exec_step hcount (exec_step hfree
            (exec_step hload (exec_step hinsert (exec_step hcommit rfl))))))
        · rw [hstore]
          simp [State.commit, JoinTable.commit, JoinTable.insertedBy, JoinTable.insert, st₆, st₅, st₄,
            st₃, st₂, st₁, State.insert, State.advance, State.idle]
      · -- the second lookup finds no more than the first
        cases h

end Ensure
end RoomFacade
end NolagCore
