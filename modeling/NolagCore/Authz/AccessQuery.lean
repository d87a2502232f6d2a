import NolagCore.Authz.Lapsed
import NolagCore.Room.GrantFacade

/-!
# Authz.AccessQuery

The published access query beside the two resolvers. All three look at the active grants of a room,
those naming the actor before those on its type; but the query only counts them. It does not ask
whether a grant has expired, nor whether a grant on the type names another actor; and it counts the
grants that name the actor however its id is written.
-/

namespace NolagCore
namespace Authz

open Lib AccessModel RoomActorAccessFacade

/-- What a host reads of the room is what both resolvers go by: whether it is private, and where it
is, whether they find a grant in force. -/
structure QueryAgrees (s : Store) (now : Int) (actorTokenId : IdText) (actorToken : ActorToken)
    (room : Room) (access : Access) : Prop where
  checkPrivate : isPrivateRoom s room.roomId = true ↔
    (liveRoomGrants s actorTokenId.text actorToken room).entries ≠ []
  sessionPrivate :
    isPrivateRoom s room.roomId = true ↔ (batchedRoomGrants s actorToken room).entries ≠ []
  check : isPrivateRoom s room.roomId = true →
    (hasAccess s actorTokenId.uuid room.roomId (some actorToken.actorType) = true ↔
      ∃ x, roomAccess now access (liveRoomGrants s actorTokenId.text actorToken room) = some x)
  session : isPrivateRoom s room.roomId = true →
    (hasAccess s actorTokenId.uuid room.roomId (some actorToken.actorType) = true ↔
      ∃ x, roomAccess now access (batchedRoomGrants s actorToken room) = some x)

/-- Among the grants of the room, taken in the order the queries return them: the first active one
that carries the text of the id and the last active one naming the actor are unexpired; and where
none carries the text but an active one names the actor or is on its type, one on the type names
nobody, and the first such is unexpired. -/
structure GrantsInForce (s : Store) (now : Int) (actorTokenId : IdText) (actorToken : ActorToken)
    (room : Room) : Prop where
  first : ∀ g, ((grantsOn s room).filter (namesActor actorTokenId.text)).head? = some g →
    expired g.expiresAt now = false
  last : ∀ g, ((grantsOn s room).filter (namesActor actorTokenId.uuid.text)).getLast? = some g →
    expired g.expiresAt now = false
  typed : (∀ g ∈ grantsOn s room, namesActor actorTokenId.text g = false) →
    (∃ g ∈ grantsOn s room, namesActor actorTokenId.uuid.text g = true) ∨
      (∃ g ∈ grantsOn s room, g.isActive = true ∧ g.actorType = some actorToken.actorType) →
    ∃ g, ((grantsOn s room).filter (namesType actorToken)).head? = some g ∧
      expired g.expiresAt now = false

section

variable {s : Store} {now : Int} {actorTokenId : Uuid} {actorToken : ActorToken} {room : Room}
  {access : Access}

theorem isPrivateRoom_grantsOn : isPrivateRoom s room.roomId = true ↔ grantsOn s room ≠ [] := by
  rw [isPrivateRoom_iff]
  constructor
  · rintro ⟨g, hrow, hl, hroom⟩
    exact List.ne_nil_of_mem (mem_grantsOn.2 ⟨hrow, hl, hroom⟩)
  · intro hne
    obtain ⟨g, hg⟩ := List.exists_mem_of_ne_nil _ hne
    obtain ⟨hrow, hl, hroom⟩ := mem_grantsOn.1 hg
    exact ⟨g, hrow, hl, hroom⟩

theorem hasAccess_grantsOn :
    hasAccess s actorTokenId room.roomId (some actorToken.actorType) = true ↔
      (∃ g ∈ grantsOn s room, namesActor actorTokenId.text g = true) ∨
      ∃ g ∈ grantsOn s room, g.isActive = true ∧ g.actorType = some actorToken.actorType := by
  rw [hasAccess_iff]
  constructor
  · rintro ⟨g, hrow, hl, hroom, hact, hname | htype⟩
    · exact .inl ⟨g, mem_grantsOn.2 ⟨hrow, hl, hroom⟩,
        namesActor_iff.2 (names_text.2 ⟨hname, hact⟩)⟩
    · exact .inr ⟨g, mem_grantsOn.2 ⟨hrow, hl, hroom⟩, hact, htype⟩
  · rintro (⟨g, hg, hn⟩ | ⟨g, hg, hact, htype⟩)
    · obtain ⟨hrow, hl, hroom⟩ := mem_grantsOn.1 hg
      obtain ⟨hname, hact⟩ := names_text.1 (namesActor_iff.1 hn)
      exact ⟨g, hrow, hl, hroom, hact, .inl hname⟩
    · obtain ⟨hrow, hl, hroom⟩ := mem_grantsOn.1 hg
      exact ⟨g, hrow, hl, hroom, hact, .inr htype⟩

variable (now access) in
/-- On a private room the resolvers go by the effective grant. -/
theorem grant_of_roomAccess (grants : RoomGrants) (hp : grants.entries ≠ []) :
    (∃ x, roomAccess now access grants = some x) ↔
      ∃ g, grants.effective = some g ∧ expired g.expiresAt now = false := by
  unfold roomAccess
  rw [if_neg hp]
  cases grants.effective with
  | none => simp
  | some g =>
    by_cases hx : expired g.expiresAt now = true
    · simp [hx]
    · simp [Bool.eq_false_iff.2 hx]

variable (s now actorToken room) in
/-- One resolver, by the end of the list it takes a named grant from and the text it looks for. -/
theorem query_agrees_by {pick : List RoomActorAccess → Option RoomActorAccess} (he : IsEnd pick)
    {text : String}
    (htext : ∀ g, namesActor text g = true → namesActor actorTokenId.text g = true) :
    (hasAccess s actorTokenId room.roomId (some actorToken.actorType) = true ↔
      ∃ g, effectiveGrant pick text actorToken (grantsOn s room) = some g ∧
        expired g.expiresAt now = false) ↔
    (∀ g, pick ((grantsOn s room).filter (namesActor text)) = some g →
      expired g.expiresAt now = false) ∧
    ((∀ g ∈ grantsOn s room, namesActor text g = false) →
      (∃ g ∈ grantsOn s room, namesActor actorTokenId.text g = true) ∨
        (∃ g ∈ grantsOn s room, g.isActive = true ∧ g.actorType = some actorToken.actorType) →
      ∃ g, ((grantsOn s room).filter (namesType actorToken)).head? = some g ∧
        expired g.expiresAt now = false) := by
  rw [hasAccess_grantsOn]
  unfold effectiveGrant
  cases hn : pick ((grantsOn s room).filter (namesActor text)) with
  | some d =>
    obtain ⟨hd, hname⟩ := List.mem_filter.1 (he.mem hn)
    have hcounted : ∃ g ∈ grantsOn s room, namesActor actorTokenId.text g = true :=
      ⟨d, hd, htext d hname⟩
    have hnever : ¬ ∀ g ∈ grantsOn s room, namesActor text g = false := fun h => by
      rw [h d hd] at hname
      cases hname
    simp [hcounted, hnever]
  | none =>
    have hunnamed : ∀ g ∈ grantsOn s room, namesActor text g = false := by
      intro g hg
      rw [he.nil, List.filter_eq_nil_iff] at hn
      exact Bool.eq_false_iff.2 (hn g hg)
    simp only [Option.none_or, reduceCtorEq, false_implies, implies_true, true_and]
    constructor
    · exact fun h _ => h.1
    · intro h
      refine ⟨h hunnamed, ?_⟩
      rintro ⟨g, hg, -⟩
      obtain ⟨hm, htype⟩ := List.mem_filter.1 (List.mem_of_head? hg)
      obtain ⟨-, hty, hact⟩ := namesType_iff.1 htype
      exact .inr ⟨g, hm, hact, hty⟩

end

/-- The query agrees with both resolvers exactly where the grants they choose are in force. -/
theorem query_agrees_iff (s : Store) (now : Int) {actorTokenId : IdText} {actorToken : ActorToken}
    (hid : actorToken.actorTokenId = actorTokenId.uuid) (room : Room) (access : Access) :
    QueryAgrees s now actorTokenId actorToken room access ↔
      GrantsInForce s now actorTokenId actorToken room := by
  have htext : ∀ g, namesActor actorTokenId.text g = true →
      namesActor actorTokenId.uuid.text g = true := by
    intro g hg
    have hstored : actorTokenId.text = actorTokenId.uuid.text :=
      stored_of_names (namesActor_iff.1 hg)
    exact hstored ▸ hg
  have hcheck := query_agrees_by s now actorToken room isEnd_head? htext
  have hsession := query_agrees_by s now actorToken room isEnd_getLast?
    fun g (hg : namesActor actorTokenId.uuid.text g = true) => hg
  by_cases hp : grantsOn s room = []
  · have hpublic : ¬ isPrivateRoom s room.roomId = true := by
      rw [isPrivateRoom_grantsOn]
      exact not_not_intro hp
    refine ⟨fun _ => ⟨?_, ?_, ?_⟩, fun _ => ⟨?_, ?_, ?_, ?_⟩⟩
    · simp [hp]
    · simp [hp]
    · simp [hp]
    · exact isPrivateRoom_grantsOn
    · exact isPrivateRoom_grantsOn
    · exact fun h => absurd h hpublic
    · exact fun h => absurd h hpublic
  · have hprivate : isPrivateRoom s room.roomId = true := isPrivateRoom_grantsOn.2 hp
    have hlive := grant_of_roomAccess now access
      (liveRoomGrants s actorTokenId.text actorToken room) hp
    have hbatched := grant_of_roomAccess now access (batchedRoomGrants s actorToken room) hp
    rw [liveRoomGrants_eq] at hlive
    rw [batchedRoomGrants_eq, hid] at hbatched
    constructor
    · intro h
      have hc := h.check hprivate
      have hs := h.session hprivate
      rw [liveRoomGrants_eq, hlive] at hc
      rw [batchedRoomGrants_eq, hid, hbatched] at hs
      exact ⟨(hcheck.1 hc).1, (hsession.1 hs).1, (hcheck.1 hc).2⟩
    · intro h
      refine ⟨isPrivateRoom_grantsOn, isPrivateRoom_grantsOn, fun _ => ?_, fun _ => ?_⟩
      · rw [liveRoomGrants_eq, hlive]
        exact hcheck.2 ⟨h.first, h.typed⟩
      · rw [batchedRoomGrants_eq, hid, hbatched]
        refine hsession.2 ⟨h.last, fun hnone => h.typed fun g hg => ?_⟩
        exact Bool.eq_false_iff.2 fun hname =>
          Bool.eq_false_iff.1 (hnone g hg) (htext g hname)

def vaultApp : PlatformApp where
  appId := .of "a1"
  projectId := .of "p1"
  name := "Vault"
  slug := "vault"

def vaultRoom : Room where
  roomId := .of "r1"
  appId := .of "a1"
  slug := "safe"
  name := "Safe"

def frank : ActorToken where
  actorTokenId := .of "t1"
  projectId := .of "p1"
  keyId := "at_live_1"
  secretHash := ""
  name := "frank"
  actorType := .user

/-- A private room whose one grant names the actor and expires at 0. -/
def vaultDb : Database where
  store :=
    { projects := [{ projectId := .of "p1", name := "acme" }]
      apps := [vaultApp]
      rooms := [vaultRoom]
      actorTokens := [frank]
      roomActorAccess := [{ roomActorAccessId := .of "g1", roomId := .of "r1",
                            actorTokenId := some (.of "t1"), permission := .pubSub,
                            expiresAt := some 0 }] }
  valid := by decide

/-- The query reports access that both resolvers deny. -/
theorem expired_grant_counted :
    ¬ ∀ (db : Database) (now : Int) (actorTokenId : IdText) (actorToken : ActorToken) (room : Room)
      (access : Access), actorToken.actorTokenId = actorTokenId.uuid →
      room ∈ db.store.rooms → live room = true → room.status = .active →
        QueryAgrees db.store now actorTokenId actorToken room access := by
  intro hevery
  have hagrees := hevery vaultDb 1 (.of "t1") frank vaultRoom (synthetic vaultApp) (by decide)
    (by decide) rfl rfl
  obtain ⟨x, hx⟩ := (hagrees.check (by decide)).1 (by decide)
  have hdenied : roomAccess 1 (synthetic vaultApp)
      (liveRoomGrants vaultDb.store "t1" frank vaultRoom) = none := by decide
  rw [show (IdText.of "t1").text = "t1" by decide, hdenied] at hx
  cases hx

/-- The characterisation for the id in upper case. -/
theorem query_agrees_iff_upper :
    QueryAgrees vaultDb.store (-1) (.of "T1") frank vaultRoom (synthetic vaultApp) ↔
      GrantsInForce vaultDb.store (-1) (.of "T1") frank vaultRoom :=
  query_agrees_iff vaultDb.store (-1) (by decide) vaultRoom (synthetic vaultApp)

end Authz
end NolagCore
