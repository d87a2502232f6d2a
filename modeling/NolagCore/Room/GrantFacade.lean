import NolagCore.Common.Errors

/-!
# Room.GrantFacade

Room grants: who may reach a room, and on which of its topics. A grant names one actor or one actor
type, and its target never moves.
-/

namespace NolagCore
namespace RoomActorAccessFacade

open Lib

structure RoomActorAccessCreateDto where
  actorTokenId : Option Uuid := none
  actorType : Option EActorType := none
  permission : EAccessPermission
  topics : Option (List String) := none
  isActive : Option Bool := none
  expiresAt : Option String := none
  role : Option String := none
  metadata : Option Json := none

structure RoomActorAccessUpdateDto where
  permission : Option EAccessPermission := none
  topics : Option (Option (List String)) := none
  isActive : Option Bool := none
  expiresAt : Option (Option String) := none
  role : Option (Option String) := none
  metadata : Option (Option Json) := none

def notFound (roomActorAccessId : Uuid) : CoreError :=
  .notFound ("Room grant " ++ roomActorAccessId.text ++ " not found")

def findById (s : Store) (roomActorAccessId : Uuid) : Option RoomActorAccess :=
  findOne s.roomActorAccess fun g => decide (g.roomActorAccessId = roomActorAccessId)

/-- The grant the duplicate check looks for: the named actor's, or the type's. -/
def targets (roomId : Uuid) (dto : RoomActorAccessCreateDto) (g : RoomActorAccess) : Bool :=
  decide (g.roomId = roomId) &&
    if dto.actorTokenId.isSome then decide (g.actorTokenId = dto.actorTokenId)
    else decide (g.actorType = dto.actorType)

def create (legacy : String → Option Int) (db : Database) (roomActorAccessId roomId : Uuid)
    (dto : RoomActorAccessCreateDto) : Outcome RoomActorAccess :=
  if dto.actorTokenId.isNone ∧ dto.actorType.isNone then
    .error (.badRequest "Either actorTokenId or actorType must be provided.")
  else if dto.actorTokenId.isSome ∧ dto.actorType.isSome then
    .error (.badRequest ("Provide actorTokenId or actorType, not both. A grant targets one " ++
      "named actor or one type."))
  else match findOne db.store.roomActorAccess (targets roomId dto) with
    | some _ => .error (.conflict
        "That actor already has a grant on this room. Update it instead.")
    | none =>
      match dateColumn legacy dto.expiresAt with
      | .error e => .error e
      | .ok expiresAt =>
        let entity : RoomActorAccess :=
          { roomActorAccessId := roomActorAccessId
            roomId := roomId
            actorTokenId := dto.actorTokenId
            actorType := dto.actorType
            permission := dto.permission
            topics := dto.topics
            isActive := dto.isActive.getD true
            expiresAt := expiresAt
            role := dto.role
            metadata := dto.metadata }
        commit { db.store with roomActorAccess := db.store.roomActorAccess ++ [entity] } entity

/-- The assignments of `update`, on the entity it loaded. -/
def assign (legacy : String → Option Int) (dto : RoomActorAccessUpdateDto)
    (existing : RoomActorAccess) : Except CoreError RoomActorAccess :=
  match dto.expiresAt.map (dateColumn legacy) with
  | some (.error e) => .error e
  | expiresAt => .ok { existing with
      permission := patch dto.permission existing.permission
      topics := patch dto.topics existing.topics
      isActive := patch dto.isActive existing.isActive
      expiresAt := match expiresAt with
        | some (.ok t) => t
        | _ => existing.expiresAt
      role := patch dto.role existing.role
      metadata := patch dto.metadata existing.metadata }

def update (legacy : String → Option Int) (db : Database) (roomActorAccessId : Uuid)
    (dto : RoomActorAccessUpdateDto) : Outcome RoomActorAccess :=
  match findById db.store roomActorAccessId with
  | none => .error (notFound roomActorAccessId)
  | some existing =>
    match assign legacy dto existing with
    | .error e => .error e
    | .ok entity =>
      let roomActorAccess := saveRow (·.roomActorAccessId) entity db.store.roomActorAccess
      commit { db.store with roomActorAccess } entity

def delete (db : Database) (now : Int) (roomActorAccessId : Uuid) : Outcome Unit :=
  match findById db.store roomActorAccessId with
  | none => .error (notFound roomActorAccessId)
  | some _ =>
    let roomActorAccess := db.store.roomActorAccess |> updateRows
      (fun g => decide (g.roomActorAccessId = roomActorAccessId))
      (fun g => { g with deletedAt := some now })
    commit { db.store with roomActorAccess } ()

/-- `isPrivateRoom`: inactive grants count too. -/
def isPrivateRoom (s : Store) (roomId : Uuid) : Bool :=
  decide (0 < (findAll s.roomActorAccess fun g => decide (g.roomId = roomId)).length)

theorem isPrivateRoom_iff {s : Store} {roomId : Uuid} : isPrivateRoom s roomId = true ↔
    ∃ g ∈ s.roomActorAccess, live g = true ∧ g.roomId = roomId := by
  unfold isPrivateRoom
  rw [decide_eq_true_eq, List.length_pos_iff_exists_mem]
  constructor
  · rintro ⟨g, hg⟩
    obtain ⟨hrow, hl, hid⟩ := mem_findAll.1 hg
    exact ⟨g, hrow, hl, of_decide_eq_true hid⟩
  · rintro ⟨g, hrow, hl, hid⟩
    exact ⟨g, mem_findAll.2 ⟨hrow, hl, decide_eq_true hid⟩⟩

/-- `hasAccess`: the active grants are counted, first those naming the actor, then those on its
type. -/
def hasAccess (s : Store) (actorTokenId roomId : Uuid) (actorType : Option EActorType) : Bool :=
  let named := (findAll s.roomActorAccess fun g => decide (g.actorTokenId = some actorTokenId) &&
    decide (g.roomId = roomId) && g.isActive).length
  if 0 < named then true
  else match actorType with
    | none => false
    | some actorType =>
      let byType := (findAll s.roomActorAccess fun g => decide (g.actorType = some actorType) &&
        decide (g.roomId = roomId) && g.isActive).length
      decide (0 < byType)

theorem hasAccess_iff {s : Store} {actorTokenId roomId : Uuid} {actorType : EActorType} :
    hasAccess s actorTokenId roomId (some actorType) = true ↔
      ∃ g ∈ s.roomActorAccess, live g = true ∧ g.roomId = roomId ∧ g.isActive = true ∧
        (g.actorTokenId = some actorTokenId ∨ g.actorType = some actorType) := by
  have hcount : ∀ q : RoomActorAccess → Bool,
      0 < (findAll s.roomActorAccess fun g => q g && decide (g.roomId = roomId) && g.isActive).length ↔
        ∃ g ∈ s.roomActorAccess, live g = true ∧ g.roomId = roomId ∧ g.isActive = true ∧
          q g = true := by
    intro q
    rw [List.length_pos_iff_exists_mem]
    simp only [mem_findAll, Bool.and_eq_true, decide_eq_true_eq]
    constructor
    · rintro ⟨g, hrow, hl, ⟨hq, hroom⟩, hact⟩
      exact ⟨g, hrow, hl, hroom, hact, hq⟩
    · rintro ⟨g, hrow, hl, hroom, hact, hq⟩
      exact ⟨g, hrow, hl, ⟨hq, hroom⟩, hact⟩
  have hnamed := hcount fun g => decide (g.actorTokenId = some actorTokenId)
  have htyped := hcount fun g => decide (g.actorType = some actorType)
  simp only [decide_eq_true_eq] at hnamed htyped
  unfold hasAccess
  dsimp only
  split
  · rename_i hpos
    obtain ⟨g, hrow, hl, hroom, hact, hname⟩ := hnamed.1 hpos
    exact iff_of_true rfl ⟨g, hrow, hl, hroom, hact, .inl hname⟩
  · rename_i hnone
    rw [decide_eq_true_eq, htyped]
    constructor
    · rintro ⟨g, hrow, hl, hroom, hact, htype⟩
      exact ⟨g, hrow, hl, hroom, hact, .inr htype⟩
    · rintro ⟨g, hrow, hl, hroom, hact, hname | htype⟩
      · exact absurd (hnamed.2 ⟨g, hrow, hl, hroom, hact, hname⟩) hnone
      · exact ⟨g, hrow, hl, hroom, hact, htype⟩

end RoomActorAccessFacade
end NolagCore
