import NolagCore.Authz.Agreement
import NolagCore.Authz.Isolation
import NolagCore.Authz.Resolved

/-!
# Authz.Lapsed

Expired grants beside inactive ones. Both resolvers pick a room's effective grant among the active
ones first and look at its expiry afterwards, so an expired grant can stand before one in force
where an inactive one would not. Deactivating expired grants changes an answer exactly there.
-/

namespace NolagCore
namespace Authz

open Lib AccessModel

/-! ## Deactivating expired grants -/

/-- A choice of app grants and room grants whose expiry lies before `now`. -/
structure Lapsed (now : Int) where
  appGrant : ActorAppAccess → Bool
  roomGrant : RoomActorAccess → Bool
  app_expired : ∀ g, appGrant g = true → expired g.expiresAt now = true
  room_expired : ∀ ra, roomGrant ra = true → expired ra.expiresAt now = true

namespace Lapsed

variable {now : Int} (S : Lapsed now)

def offApp (g : ActorAppAccess) : ActorAppAccess :=
  if S.appGrant g then { g with isActive := false } else g

def offRoom (ra : RoomActorAccess) : RoomActorAccess :=
  if S.roomGrant ra then { ra with isActive := false } else ra

/-- The store with `isActive` set to false on the chosen rows. -/
def deactivate (s : Store) : Store :=
  { s with
    actorAppAccess := s.actorAppAccess.map S.offApp
    roomActorAccess := s.roomActorAccess.map S.offRoom }

theorem offRoom_of_kept {ra : RoomActorAccess} (h : S.roomGrant ra = false) :
    S.offRoom ra = ra := by
  unfold offRoom
  rw [h]
  rfl

theorem offApp_of_kept {g : ActorAppAccess} (h : S.appGrant g = false) : S.offApp g = g := by
  unfold offApp
  rw [h]
  rfl

theorem namesActor_offRoom {text : String} {ra : RoomActorAccess} (h : S.roomGrant ra = true) :
    namesActor text (S.offRoom ra) = false := by
  unfold offRoom namesActor
  rw [if_pos h, Bool.and_false]

theorem namesType_offRoom {actorToken : ActorToken} {ra : RoomActorAccess}
    (h : S.roomGrant ra = true) : namesType actorToken (S.offRoom ra) = false := by
  unfold offRoom namesType
  rw [if_pos h, Bool.and_false]

end Lapsed

/-! ## Picking a grant -/

/-- One end of a list: the first element, or the last. -/
structure IsEnd {α : Type} (pick : List α → Option α) : Prop where
  mem : ∀ {l x}, pick l = some x → x ∈ l
  nil : ∀ {l}, pick l = none ↔ l = []
  /-- It stays the end of every selection that holds it. -/
  filter : ∀ {l x} {p : α → Bool}, pick l = some x → p x = true → pick (l.filter p) = some x

theorem isEnd_head? {α : Type} : IsEnd (List.head? (α := α)) where
  mem := List.mem_of_head?
  nil := List.head?_eq_none_iff
  filter := by
    intro l x p h hp
    cases l with
    | nil => cases h
    | cons y l =>
      cases h
      rw [List.filter_cons_of_pos hp]
      rfl

theorem isEnd_getLast? {α : Type} : IsEnd (List.getLast? (α := α)) where
  mem := List.mem_of_getLast?
  nil := List.getLast?_eq_none_iff
  filter := by
    intro l x p h hp
    rw [← List.head?_reverse] at h ⊢
    rw [← List.filter_reverse]
    exact isEnd_head?.filter h hp

/-- The effective grant among `l`: an active one naming the actor by the text, taken from one end,
else the first active one on its type. -/
def effectiveGrant (pick : List RoomActorAccess → Option RoomActorAccess) (text : String)
    (actorToken : ActorToken) (l : List RoomActorAccess) : Option RoomActorAccess :=
  (pick (l.filter (namesActor text))).or (l.filter (namesType actorToken)).head?

/-- A room's grants with the effective one so picked. -/
def roomGrantsBy (pick : List RoomActorAccess → Option RoomActorAccess) (s : Store) (text : String)
    (actorToken : ActorToken) (room : Room) : RoomGrants where
  entries := grantsOn s room
  effective := effectiveGrant pick text actorToken (grantsOn s room)

theorem batchedRoomGrants_eq (s : Store) (actorToken : ActorToken) (room : Room) :
    batchedRoomGrants s actorToken room =
      roomGrantsBy List.getLast? s actorToken.actorTokenId.text actorToken room := by
  unfold batchedRoomGrants roomGrantsBy effectiveGrant
  rw [List.head?_filter]

theorem liveRoomGrants_eq (s : Store) (text : String) (actorToken : ActorToken) (room : Room) :
    liveRoomGrants s text actorToken room = roomGrantsBy List.head? s text actorToken room := by
  unfold liveRoomGrants roomGrantsBy effectiveGrant
  rw [List.head?_filter, List.head?_filter]
  rfl

section Picks

variable {pick : List RoomActorAccess → Option RoomActorAccess} (he : IsEnd pick)
  {text : String} {actorToken : ActorToken} {l : List RoomActorAccess}
include he

theorem mem_of_effective {g : RoomActorAccess}
    (h : effectiveGrant pick text actorToken l = some g) : g ∈ l := by
  unfold effectiveGrant at h
  rcases Option.or_eq_some_iff.1 h with h | ⟨_, h⟩
  · exact (List.mem_filter.1 (he.mem h)).1
  · exact (List.mem_filter.1 (List.mem_of_head? h)).1

/-- Leaving out grants that are not the effective one leaves it where it is. -/
theorem effective_filter {p : RoomActorAccess → Bool}
    (h : ∀ g, effectiveGrant pick text actorToken l = some g → p g = true) :
    effectiveGrant pick text actorToken (l.filter p) = effectiveGrant pick text actorToken l := by
  unfold effectiveGrant at h ⊢
  rw [List.filter_comm (namesActor text), List.filter_comm (namesType actorToken)]
  cases hn : pick (l.filter (namesActor text)) with
  | some g =>
    rw [he.filter hn (h g (by rw [hn]; rfl))]
    rfl
  | none =>
    rw [he.nil.1 hn, List.filter_nil, he.nil.2 rfl, Option.none_or, Option.none_or]
    cases ht : (l.filter (namesType actorToken)).head? with
    | some g => rw [isEnd_head?.filter ht (h g (by rw [hn, ht]; rfl))]
    | none => rw [isEnd_head?.nil.1 ht, List.filter_nil, List.head?_nil]

end Picks

/-! ## The session of other grants -/

theorem membershipsOf_congr {s : Store} {roomIds roomIds' : List Uuid}
    (h : ∀ roomId, roomId ∈ roomIds ↔ roomId ∈ roomIds') :
    membershipsOf s roomIds = membershipsOf s roomIds' := by
  unfold membershipsOf
  simp only [h]

theorem standsFor_congr {s s' : Store} {now : Int} {actorToken : ActorToken}
    {scope : ResolvedScope} (hvalid : validAppAccess s' now actorToken = validAppAccess s now actorToken)
    (h : ∀ access ∈ validAppAccess s now actorToken,
      (buildOf s' now actorToken scope access).allowedTopics =
        (buildOf s now actorToken scope access).allowedTopics) :
    standsFor s' now actorToken scope = standsFor s now actorToken scope := by
  have hset : resolvedSet s' now actorToken scope = resolvedSet s now actorToken scope := by
    unfold resolvedSet
    rw [hvalid]
    refine List.flatMap_congr fun access ha => ?_
    rw [h access ha]
  unfold standsFor
  rw [hset]

/-- Two stores with the same apps and the same records answer alike when topics and lobbies
agree app by app. -/
theorem buildAppAccess_eq_iff {s s' : Store} {now : Int} {actorToken : ActorToken}
    {scope : ResolvedScope} (hn : ((validAppAccess s now actorToken).map (·.app.appId)).Nodup)
    (hvalid : validAppAccess s' now actorToken = validAppAccess s now actorToken)
    (hstates : s'.actorTokenStates = s.actorTokenStates) :
    buildAppAccess s' now actorToken scope = buildAppAccess s now actorToken scope ↔
      ∀ access ∈ validAppAccess s now actorToken,
        (buildOf s' now actorToken scope access).allowedTopics =
          (buildOf s now actorToken scope access).allowedTopics ∧
        attachLobbies s' (buildAppsMap s' now actorToken scope) access.app.appId =
          attachLobbies s (buildAppsMap s now actorToken scope) access.app.appId := by
  have hrecords : recordedSubscriptions s' actorToken.actorTokenId =
      recordedSubscriptions s actorToken.actorTokenId := by
    unfold recordedSubscriptions
    rw [hstates]
  rw [buildAppAccess_eq hn, buildAppAccess_eq (hvalid.symm ▸ hn), hvalid, List.map_inj_left]
  constructor
  · intro h access ha
    exact ⟨congrArg AppAccess.allowedTopics (h access ha),
      congrArg AppAccess.allowedLobbies (h access ha)⟩
  · intro h access ha
    unfold appAccessOf
    dsimp only
    rw [(h access ha).1, (h access ha).2, standsFor_congr hvalid fun access ha => (h access ha).1,
      hrecords]
    rfl

/-! ## What a room contributes -/

namespace Lapsed

variable {now : Int} (S : Lapsed now) (pick : List RoomActorAccess → Option RoomActorAccess)
  (s : Store) (text : String) (actorToken : ActorToken) (room : Room)

/-- The grants of a room that are not among the chosen ones. -/
def others : List RoomActorAccess := (grantsOn s room).filter fun ra => !S.roomGrant ra

/-- The grant in force that a chosen one stands before: the effective grant of the room is a chosen
one, and this is the effective one among the others. -/
def hidden : Option RoomActorAccess :=
  if (effectiveGrant pick text actorToken (grantsOn s room)).any S.roomGrant then
    (effectiveGrant pick text actorToken (S.others s room)).filter fun g => !expired g.expiresAt now
  else none

theorem grantsOn_deactivate : grantsOn (S.deactivate s) room = (grantsOn s room).map S.offRoom := by
  refine findAll_map S.offRoom (fun ra => ?_) (fun ra => ?_) s.roomActorAccess
  · unfold offRoom
    split <;> rfl
  · unfold offRoom
    split <;> rfl

theorem effective_deactivate :
    effectiveGrant pick text actorToken (grantsOn (S.deactivate s) room) =
      effectiveGrant pick text actorToken (S.others s room) := by
  unfold effectiveGrant others
  rw [grantsOn_deactivate, filter_map_off (fun _ => S.namesActor_offRoom)
    (fun _ => S.offRoom_of_kept), filter_map_off (fun _ => S.namesType_offRoom)
    (fun _ => S.offRoom_of_kept)]

variable {pick s text actorToken room}

theorem hidden_eq_some {g : RoomActorAccess} : S.hidden pick s text actorToken room = some g ↔
    (∃ d, effectiveGrant pick text actorToken (grantsOn s room) = some d ∧ S.roomGrant d = true) ∧
      effectiveGrant pick text actorToken (S.others s room) = some g ∧
      expired g.expiresAt now = false := by
  unfold hidden
  cases effectiveGrant pick text actorToken (grantsOn s room) with
  | none => simp
  | some d =>
    cases hd : S.roomGrant d with
    | false => simp [hd]
    | true => simp [hd, Option.filter_eq_some_iff]

/-- While a grant is hidden the room contributes nothing. -/
theorem roomAccess_of_hidden (he : IsEnd pick) {access : Access} {g : RoomActorAccess}
    (h : S.hidden pick s text actorToken room = some g) :
    roomAccess now access (roomGrantsBy pick s text actorToken room) = none := by
  obtain ⟨⟨d, hd, hS⟩, _, _⟩ := S.hidden_eq_some.1 h
  have hne : grantsOn s room ≠ [] := List.ne_nil_of_mem (mem_of_effective he hd)
  unfold roomAccess roomGrantsBy
  rw [if_neg hne, hd]
  exact if_pos (S.room_expired d hS)

/-- Once the chosen grants are inactive, the hidden one decides. -/
theorem roomAccess_deactivate_of_hidden (he : IsEnd pick) {access : Access} {g : RoomActorAccess}
    (h : S.hidden pick s text actorToken room = some g) :
    roomAccess now access (roomGrantsBy pick (S.deactivate s) text actorToken room) =
      some (g.permission, g.topics.or access.app.topics) := by
  obtain ⟨⟨d, hd, _⟩, hg, hx⟩ := S.hidden_eq_some.1 h
  have hne : grantsOn (S.deactivate s) room ≠ [] := by
    rw [grantsOn_deactivate]
    exact List.ne_nil_of_mem (List.mem_map_of_mem (mem_of_effective he hd))
  unfold roomAccess roomGrantsBy
  rw [if_neg hne, effective_deactivate, hg]
  simp only [hx]
  rfl

/-- A room with nothing hidden contributes what it did. -/
theorem roomAccess_deactivate_of_none (he : IsEnd pick) {access : Access}
    (h : S.hidden pick s text actorToken room = none) :
    roomAccess now access (roomGrantsBy pick (S.deactivate s) text actorToken room) =
      roomAccess now access (roomGrantsBy pick s text actorToken room) := by
  have hnil : grantsOn (S.deactivate s) room = [] ↔ grantsOn s room = [] := by
    rw [grantsOn_deactivate, List.map_eq_nil_iff]
  unfold roomAccess roomGrantsBy
  simp only [effective_deactivate, hnil]
  split
  · rfl
  · cases hd : effectiveGrant pick text actorToken (grantsOn s room) with
    | none =>
      have hsame : effectiveGrant pick text actorToken (S.others s room) = none :=
        (effective_filter he fun g hg => nomatch hd.symm.trans hg).trans hd
      rw [hsame]
    | some d =>
      cases hS : S.roomGrant d with
      | false =>
        have hsame : effectiveGrant pick text actorToken (S.others s room) = some d := by
          refine (effective_filter he fun g hg => ?_).trans hd
          cases hd.symm.trans hg
          simp [hS]
        rw [hsame]
      | true =>
        -- the pick is a chosen one: what is picked instead has expired as well, or is nothing
        have hx := S.room_expired d hS
        cases ho : effectiveGrant pick text actorToken (S.others s room) with
        | none => simp [hx]
        | some g =>
          have hgx : expired g.expiresAt now = true := by
            by_contra hgx
            rw [S.hidden_eq_some.2 ⟨⟨d, hd, hS⟩, ho, by simpa using hgx⟩] at h
            cases h
          simp [hx, hgx]

/-! ## App level -/

theorem keepAccess_of_expired {g : ActorAppAccess} (h : expired g.expiresAt now = true) :
    keepAccess s now g = none := by
  unfold keepAccess
  cases s.appOf g with
  | none => rfl
  | some app => simp [h]

/-- An expired app grant is dropped whether active or not. -/
theorem validAppAccess_deactivate :
    validAppAccess (S.deactivate s) now actorToken = validAppAccess s now actorToken := by
  have hgrants : actorAppAccess (S.deactivate s) actorToken =
      (actorAppAccess s actorToken).filter fun g => !S.appGrant g := by
    refine findAll_map_off (fun g hg => ?_) (fun g => S.offApp_of_kept) s.actorAppAccess
    unfold offApp
    rw [if_pos hg, Bool.and_false]
  have hexplicit : explicitAppAccess (S.deactivate s) now actorToken =
      explicitAppAccess s now actorToken := by
    unfold explicitAppAccess
    rw [hgrants, List.filterMap_filter]
    refine List.filterMap_congr fun g _ => ?_
    cases hg : S.appGrant g with
    | false => rfl
    | true => exact (keepAccess_of_expired (S.app_expired g hg)).symm
  unfold validAppAccess
  rw [hexplicit]
  rfl

theorem liveAppAccess_deactivate (hv : s.SchemaValid) (actorTokenId : Uuid) (app : PlatformApp) :
    liveAppAccess (S.deactivate s) now actorTokenId app =
      liveAppAccess s now actorTokenId app := by
  have hrows : findAll (S.deactivate s).actorAppAccess (fun g =>
      decide (g.actorTokenId = actorTokenId) && decide (g.appId = app.appId) && g.isActive) =
        (findAll s.actorAppAccess fun g => decide (g.actorTokenId = actorTokenId) &&
          decide (g.appId = app.appId) && g.isActive).filter fun g => !S.appGrant g := by
    refine findAll_map_off (fun g hg => ?_) (fun g => S.offApp_of_kept) s.actorAppAccess
    unfold offApp
    rw [if_pos hg, Bool.and_false]
  unfold liveAppAccess
  rw [findOne_eq_head?, findOne_eq_head?, hrows]
  split
  · rfl
  · cases hf : (findAll s.actorAppAccess fun g => decide (g.actorTokenId = actorTokenId) &&
        decide (g.appId = app.appId) && g.isActive).head? with
    | none =>
      rw [isEnd_head?.nil.1 hf]
      rfl
    | some g =>
      cases hg : S.appGrant g with
      | false =>
        rw [isEnd_head?.filter hf (by simp [hg])]
      | true =>
        -- no other grant of the actor on the app takes its place
        have hnil : ((findAll s.actorAppAccess fun g => decide (g.actorTokenId = actorTokenId) &&
            decide (g.appId = app.appId) && g.isActive).filter fun g => !S.appGrant g) = [] := by
          refine List.filter_eq_nil_iff.2 fun g' hg' => ?_
          have hrow := mem_findAll.1 (List.mem_of_head? hf)
          have hrow' := mem_findAll.1 hg'
          simp only [Bool.and_eq_true, decide_eq_true_eq] at hrow hrow'
          have hsame : g' = g := hv.appGrant.eq_of_key hrow'.1 hrow.1
            (Prod.ext (hrow'.2.2.1.1.trans hrow.2.2.1.1.symm)
              (hrow'.2.2.1.2.trans hrow.2.2.1.2.symm))
          simp [hsame, hg]
        rw [hnil]
        exact (if_pos (S.app_expired g hg)).symm

/-! ## Sessions -/

/-- The rooms of a session that a chosen grant keeps closed. -/
def hiddenRooms (s : Store) (actorToken : ActorToken) : List Uuid :=
  (validAppAccess s now actorToken).flatMap fun access =>
    (activeRooms s access.app.appId).filterMap fun room =>
      (S.hidden List.getLast? s actorToken.actorTokenId.text actorToken room).map
        fun _ => room.roomId

/-- What is hidden in the actor's session would not show: the hidden grants give no topic, and the
rooms they would open add no lobby and move none. -/
structure ShowsNothing (s : Store) (actorToken : ActorToken) : Prop where
  topics : ∀ access ∈ validAppAccess s now actorToken, ∀ room ∈ activeRooms s access.app.appId,
    ∀ g, S.hidden List.getLast? s actorToken.actorTokenId.text actorToken room = some g →
      topicsOf g.topics access.app = []
  lobbies : ∀ access ∈ validAppAccess s now actorToken,
    lobbyIdsOf s access.app.appId
        (membershipsOf s (reachedRooms s now actorToken ++ S.hiddenRooms s actorToken)) =
      lobbyIdsOf s access.app.appId (membershipsOf s (reachedRooms s now actorToken))

section Sessions

variable {scope : ResolvedScope}

theorem allowedTopics_deactivate {access : Access} (h : ∀ room ∈ activeRooms s access.app.appId,
    ∀ g, S.hidden List.getLast? s actorToken.actorTokenId.text actorToken room = some g →
      topicsOf g.topics access.app = []) :
    (buildOf (S.deactivate s) now actorToken scope access).allowedTopics =
      (buildOf s now actorToken scope access).allowedTopics := by
  unfold buildOf buildApp
  refine List.flatMap_congr fun room hroom => ?_
  rw [batchedRoomGrants_eq, batchedRoomGrants_eq]
  cases hh : S.hidden List.getLast? s actorToken.actorTokenId.text actorToken room with
  | none => rw [S.roomAccess_deactivate_of_none isEnd_getLast? hh]
  | some g =>
    rw [S.roomAccess_of_hidden isEnd_getLast? hh,
      S.roomAccess_deactivate_of_hidden isEnd_getLast? hh]
    have hnil : (g.topics.or access.app.topics).getD [] = [] := h room hroom g hh
    simp [hnil]

/-- A topic a hidden grant gives appears once the chosen grants are inactive. -/
theorem topics_nil_of_same (hv : s.SchemaValid) {access : Access}
    (h : (buildOf (S.deactivate s) now actorToken scope access).allowedTopics =
      (buildOf s now actorToken scope access).allowedTopics)
    (hroom : room ∈ activeRooms s access.app.appId) {g : RoomActorAccess}
    (hh : S.hidden List.getLast? s actorToken.actorTokenId.text actorToken room = some g) :
    topicsOf g.topics access.app = [] := by
  refine List.eq_nil_iff_forall_not_mem.2 fun topicName hmem => ?_
  have hnew : buildAllowedTopic access.app.slug room topicName g.permission scope ∈
      (buildOf (S.deactivate s) now actorToken scope access).allowedTopics := by
    refine mem_allowedTopics.2 ⟨room, hroom, g.permission, topicName, ⟨_, ?_, hmem⟩, rfl⟩
    rw [batchedRoomGrants_eq]
    exact S.roomAccess_deactivate_of_hidden isEnd_getLast? hh
  rw [h] at hnew
  obtain ⟨room', hroom', p, t, ⟨ts, hra, _⟩, heq⟩ := mem_allowedTopics.1 hnew
  have hid : room.roomId = room'.roomId := congrArg AllowedTopic.roomId heq
  have hsame : room = room' :=
    hv.pkRoom.eq_of_key (mem_activeRooms.1 hroom).1 (mem_activeRooms.1 hroom').1 hid
  rw [← hsame, batchedRoomGrants_eq, S.roomAccess_of_hidden isEnd_getLast? hh] at hra
  cases hra

theorem mem_reachedRooms_deactivate {roomId : Uuid} :
    roomId ∈ reachedRooms (S.deactivate s) now actorToken ↔
      roomId ∈ reachedRooms s now actorToken ++ S.hiddenRooms s actorToken := by
  have hstep : ∀ (access : Access) (r : Room),
      (roomAccess now access (batchedRoomGrants (S.deactivate s) actorToken r)).isSome = true ↔
        (roomAccess now access (batchedRoomGrants s actorToken r)).isSome = true ∨
          (S.hidden List.getLast? s actorToken.actorTokenId.text actorToken r).isSome = true := by
    intro access r
    rw [batchedRoomGrants_eq, batchedRoomGrants_eq]
    cases hh : S.hidden List.getLast? s actorToken.actorTokenId.text actorToken r with
    | none =>
      rw [S.roomAccess_deactivate_of_none isEnd_getLast? hh]
      simp
    | some g =>
      rw [S.roomAccess_deactivate_of_hidden isEnd_getLast? hh]
      simp
  have hrooms : ∀ access : Access, activeRooms (S.deactivate s) access.app.appId =
      activeRooms s access.app.appId := fun _ => rfl
  unfold reachedRooms hiddenRooms
  rw [validAppAccess_deactivate]
  simp only [List.mem_append, List.mem_flatMap, List.mem_filterMap, Option.map_eq_some_iff,
    hrooms, ← Option.isSome_iff_exists, exists_and_right, hstep]
  constructor
  · rintro ⟨access, ha, r, hr, hs | hs, rfl⟩
    · exact .inl ⟨access, ha, r, hr, hs, rfl⟩
    · exact .inr ⟨access, ha, r, hr, hs, rfl⟩
  · rintro (⟨access, ha, r, hr, hs, rfl⟩ | ⟨access, ha, r, hr, hs, rfl⟩)
    · exact ⟨access, ha, r, hr, .inl hs, rfl⟩
    · exact ⟨access, ha, r, hr, .inr hs, rfl⟩

theorem attachLobbies_deactivate_iff (hv : s.SchemaValid) {appId : Uuid} :
    attachLobbies (S.deactivate s) (buildAppsMap (S.deactivate s) now actorToken scope) appId =
        attachLobbies s (buildAppsMap s now actorToken scope) appId ↔
      lobbyIdsOf s appId
          (membershipsOf s (reachedRooms s now actorToken ++ S.hiddenRooms s actorToken)) =
        lobbyIdsOf s appId (membershipsOf s (reachedRooms s now actorToken)) := by
  have hn := nodup_validAppAccess hv now actorToken
  have hn' : ((validAppAccess (S.deactivate s) now actorToken).map (·.app.appId)).Nodup := by
    rw [validAppAccess_deactivate]
    exact hn
  have hrooms : membershipsOf (S.deactivate s) (reachedRooms (S.deactivate s) now actorToken) =
      membershipsOf s (reachedRooms s now actorToken ++ S.hiddenRooms s actorToken) :=
    membershipsOf_congr fun _ => S.mem_reachedRooms_deactivate
  rw [attachLobbies_eq hv.pkLobby, attachLobbies_eq (s := S.deactivate s) hv.pkLobby,
    accessibleRooms_eq hn, accessibleRooms_eq hn', hrooms]
  constructor
  · intro h
    have hids := congrArg (List.map (·.lobbyId)) h
    rw [lobbyIds_of_shown] at hids
    exact hids.trans (lobbyIds_of_shown s appId _)
  · intro h
    rw [← h]
    rfl

/-- The session of the actor stays as it is exactly when nothing hidden would show in it. -/
theorem buildAppAccess_deactivate_iff (hv : s.SchemaValid) :
    buildAppAccess (S.deactivate s) now actorToken scope = buildAppAccess s now actorToken scope ↔
      S.ShowsNothing s actorToken := by
  rw [buildAppAccess_eq_iff (nodup_validAppAccess hv now actorToken) S.validAppAccess_deactivate rfl]
  constructor
  · intro h
    refine ⟨fun access ha room hroom g hh => ?_, fun access ha => ?_⟩
    · exact S.topics_nil_of_same hv (h access ha).1 hroom hh
    · exact (S.attachLobbies_deactivate_iff hv).1 (h access ha).2
  · intro h access ha
    exact ⟨S.allowedTopics_deactivate (h.topics access ha),
      (S.attachLobbies_deactivate_iff hv).2 (h.lobbies access ha)⟩

end Sessions

/-! ## Live checks -/

/-- The actor may ask for the room by its slugs: it passes the gates, and the app is one of its
project that the live path reaches. -/
structure Asks (s : Store) (now : Int) (actorToken : ActorToken) (app : PlatformApp) (room : Room) :
    Prop where
  row : actorToken ∈ s.actorTokens
  isLive : live actorToken = true
  active : actorToken.status = .active
  unexpired : expired actorToken.expiresAt now = false
  scope : ∃ scope, resolveScope s actorToken = some scope
  home : HomeRoom s actorToken.projectId app.slug room.slug app room
  reached : ∃ p ts, OpenElseHeld s now actorToken.actorTokenId actorToken.projectId app p ts
  appSegment : '/' ∉ app.slug.toList
  roomSegment : '/' ∉ room.slug.toList

theorem checkRoom_deactivate (hv : s.SchemaValid) {scope : ResolvedScope} {appSlug roomSlug : String}
    (h : ∀ app access r, appBySlug s actorToken appSlug = some app →
      liveAppAccess s now actorToken.actorTokenId app = some access →
      roomBySlug s app roomSlug = some r →
      ∀ g, S.hidden List.head? s text actorToken r = some g → topicsOf g.topics app = []) :
    checkRoom (S.deactivate s) now text actorToken scope appSlug roomSlug =
      checkRoom s now text actorToken scope appSlug roomSlug := by
  have happs : appBySlug (S.deactivate s) actorToken appSlug = appBySlug s actorToken appSlug := rfl
  have hrooms : ∀ app, roomBySlug (S.deactivate s) app roomSlug = roomBySlug s app roomSlug :=
    fun _ => rfl
  rw [checkRoom_eq, checkRoom_eq, happs]
  cases happ : appBySlug s actorToken appSlug with
  | none => rfl
  | some app =>
    dsimp only
    rw [S.liveAppAccess_deactivate hv, hrooms]
    cases hacc : liveAppAccess s now actorToken.actorTokenId app with
    | none => rfl
    | some access =>
      cases hroom : roomBySlug s app roomSlug with
      | none => rfl
      | some r =>
        dsimp only
        rw [liveRoomGrants_eq, liveRoomGrants_eq]
        cases hh : S.hidden List.head? s text actorToken r with
        | none => rw [S.roomAccess_deactivate_of_none isEnd_head? hh]
        | some g =>
          have hnil := h app access r happ hacc hroom g hh
          rw [← (of_liveAppAccess hacc).1] at hnil
          have hnil : (g.topics.or access.app.topics).getD [] = [] := hnil
          rw [S.roomAccess_of_hidden isEnd_head? hh,
            S.roomAccess_deactivate_of_hidden isEnd_head? hh]
          dsimp only
          rw [hnil]
          rfl

/-- The slugs a pattern names hold no separator. -/
theorem segments_of_parsePattern {scope : ResolvedScope} {pattern appSlug roomSlug : String}
    (h : parsePattern scope pattern = some (appSlug, roomSlug)) :
    '/' ∉ appSlug.toList ∧ '/' ∉ roomSlug.toList := by
  have hparts : appSlug ∈ splitOn '/' pattern ∧ roomSlug ∈ splitOn '/' pattern := by
    unfold parsePattern at h
    split at h
    · rename_i hsplit
      rw [hsplit]
      split at h
      · cases h
      · cases h
        simp
    · rename_i hsplit
      rw [hsplit]
      cases h
      simp
    · cases h
  exact ⟨notMem_of_splitOn hparts.1, notMem_of_splitOn hparts.2⟩

/-- A topic a hidden grant gives is granted once the chosen grants are inactive. -/
theorem topics_nil_of_check (hv : s.SchemaValid) {id : IdText}
    (hid : actorToken.actorTokenId = id.uuid) {app : PlatformApp} {g : RoomActorAccess}
    (hasks : Asks s now actorToken app room)
    (hh : S.hidden List.head? s id.text actorToken room = some g)
    (h : ∀ pattern, checkRoomAccess (S.deactivate s) now id pattern =
      checkRoomAccess s now id pattern) : topicsOf g.topics app = [] := by
  obtain ⟨scope, hscope⟩ := hasks.scope
  obtain ⟨p, ts, hterms⟩ := hasks.reached
  have home := hasks.home
  have hactor : findActor s id.uuid = some actorToken :=
    (findActor_iff hv.pkActor).2 ⟨hasks.row, hasks.isLive, hid⟩
  have happ := appBySlug_of_home hv home.appRow home.appLive home.appActive home.appHome rfl
  have hacc : liveAppAccess s now actorToken.actorTokenId app = some ⟨app, p, ts⟩ :=
    (liveAppAccess_iff hv home.appHome).2 ⟨rfl, hterms⟩
  have hroom := roomBySlug_of_app hv home.roomRow home.roomLive home.roomActive home.roomApp rfl
  obtain ⟨pattern, hsplit⟩ : ∃ pattern, splitOn '/' pattern = [app.slug, room.slug, ""] := by
    refine ⟨app.slug ++ "/" ++ (room.slug ++ "/" ++ ""), ?_⟩
    rw [splitOn_append rfl hasks.appSegment, splitOn_append rfl hasks.roomSegment]
    rfl
  have hparse : parsePattern scope pattern = some (app.slug, room.slug) := by
    unfold parsePattern
    rw [hsplit]
  have hpast : ∀ s' : Store, findActor s' id.uuid = some actorToken →
      resolveScope s' actorToken = some scope →
      checkRoomAccess s' now id pattern =
        checkRoom s' now id.text actorToken scope app.slug room.slug := by
    intro s' ha hs
    exact checkRoomAccess_of_parsed ha hasks.active hasks.unexpired hs hparse
  have hsame := h pattern
  rw [hpast s hactor hscope, hpast (S.deactivate s) hactor hscope] at hsame
  refine List.eq_nil_iff_forall_not_mem.2 fun topicName hmem => ?_
  have hnew : buildAllowedTopic app.slug room topicName g.permission scope ∈
      (checkRoom (S.deactivate s) now id.text actorToken scope app.slug
        room.slug).allowedTopics := by
    refine mem_checkRoom.2 ⟨app, ⟨app, p, ts⟩, room, g.permission, g.topics.or app.topics,
      ⟨happ, ?_, hroom, ?_⟩, topicName, hmem, rfl⟩
    · rw [S.liveAppAccess_deactivate hv]
      exact hacc
    · rw [liveRoomGrants_eq]
      exact S.roomAccess_deactivate_of_hidden isEnd_head? hh
  rw [hsame] at hnew
  obtain ⟨app', access', room', p', ts', hsettles, _⟩ := mem_checkRoom.1 hnew
  cases happ.symm.trans hsettles.byApp
  cases hroom.symm.trans hsettles.byRoom
  have hnone := hsettles.byGrants
  rw [liveRoomGrants_eq, S.roomAccess_of_hidden isEnd_head? hh] at hnone
  cases hnone

/-! ## Every answer -/

/-- The actor row an opaque token authenticates as or a refresh looks up, past all gates. -/
structure Admitted (s : Store) (now : Int) (caches : Caches) (actorToken : ActorToken) : Prop where
  handed : (actorToken ∈ s.actorTokens ∧ live actorToken = true) ∨
    ∃ token, isClientTokenJwt token = false ∧ (splitCredential token).isSome = true ∧
      (caches.auth.get now token).1 = some actorToken
  active : actorToken.status = .active
  unexpired : expired actorToken.expiresAt now = false
  project : ∃ p ∈ s.projects, live p = true ∧ p.projectId = actorToken.projectId
  scope : ∃ scope, resolveScope s actorToken = some scope

/-- No answer tells the two stores apart. -/
structure Unchanged (env : Env) (s : Store) (caches : Caches) : Prop where
  validate : ∀ accessToken, validateActor env (S.deactivate s) now caches accessToken =
    validateActor env s now caches accessToken
  revalidate : ∀ actorTokenId, revalidateActor env.config (S.deactivate s) now actorTokenId =
    revalidateActor env.config s now actorTokenId
  check : ∀ id pattern, checkRoomAccess (S.deactivate s) now id pattern =
    checkRoomAccess s now id pattern

/-- No chosen grant stands before one in force that would show. -/
structure NothingHidden (s : Store) (caches : Caches) : Prop where
  session : ∀ actorToken, Admitted s now caches actorToken → S.ShowsNothing s actorToken
  check : ∀ (id : IdText) actorToken app room g, actorToken.actorTokenId = id.uuid →
    Asks s now actorToken app room → S.hidden List.head? s id.text actorToken room = some g →
    topicsOf g.topics app = []

theorem buildSessionPayload_deactivate {config : CoreConfig} (hv : s.SchemaValid)
    (h : (∃ p ∈ s.projects, live p = true ∧ p.projectId = actorToken.projectId) →
      (∃ scope, resolveScope s actorToken = some scope) → S.ShowsNothing s actorToken) :
    buildSessionPayload config (S.deactivate s) now actorToken =
      buildSessionPayload config s now actorToken := by
  have hscopes : resolveScope (S.deactivate s) actorToken = resolveScope s actorToken := rfl
  have hprojects : (S.deactivate s).projects = s.projects := rfl
  unfold buildSessionPayload
  rw [hscopes, hprojects]
  cases hp : findOne s.projects fun p => decide (p.projectId = actorToken.projectId) with
  | none => rfl
  | some project =>
    cases hs : resolveScope s actorToken with
    | none => rfl
    | some scope =>
      obtain ⟨hrow, hl, hid⟩ := of_findOne hp
      have hshows := h ⟨project, hrow, hl, of_decide_eq_true hid⟩ ⟨scope, hs⟩
      dsimp only
      rw [(S.buildAppAccess_deactivate_iff hv).2 hshows]

/-- A session payload that stays as it is shows nothing new. -/
theorem showsNothing_of_payload {config : CoreConfig} (hv : s.SchemaValid)
    (hproject : ∃ p ∈ s.projects, live p = true ∧ p.projectId = actorToken.projectId)
    (hscope : ∃ scope, resolveScope s actorToken = some scope)
    (h : buildSessionPayload config (S.deactivate s) now actorToken =
      buildSessionPayload config s now actorToken) : S.ShowsNothing s actorToken := by
  obtain ⟨scope, hs⟩ := hscope
  obtain ⟨project, hrow, hl, hid⟩ := hproject
  have hp := findOne_of_unique (p := fun p => decide (p.projectId = actorToken.projectId)) hrow hl
    (decide_eq_true hid) fun p hm _ hk =>
      hv.pkProject.eq_of_key hm hrow ((of_decide_eq_true hk).trans hid.symm)
  obtain ⟨payload, hpayload⟩ : ∃ payload, buildSessionPayload config s now actorToken =
      .ok payload := by
    unfold buildSessionPayload
    rw [hp, hs]
    exact ⟨_, rfl⟩
  obtain ⟨_, scope₁, _, hs₁, _, _, happs₁⟩ := of_buildSessionPayload hpayload
  obtain ⟨_, scope₂, _, hs₂, _, _, happs₂⟩ := of_buildSessionPayload (h.trans hpayload)
  have hs₂ : resolveScope s actorToken = some scope₂ := hs₂
  cases hs₁.symm.trans hs₂
  exact (S.buildAppAccess_deactivate_iff hv).1 (happs₂.symm.trans happs₁)

section Answers

variable {env : Env} {caches : Caches} (hv : s.SchemaValid)
include hv

theorem revalidateActor_deactivate {config : CoreConfig} (h : S.NothingHidden s caches)
    (actorTokenId : Uuid) : revalidateActor config (S.deactivate s) now actorTokenId =
      revalidateActor config s now actorTokenId := by
  have hactors : findActor (S.deactivate s) actorTokenId = findActor s actorTokenId := rfl
  unfold revalidateActor
  rw [hactors]
  cases hactor : findActor s actorTokenId with
  | none => rfl
  | some actorToken =>
    obtain ⟨hrow, hl, _⟩ := of_findActor hactor
    dsimp only
    split
    · rfl
    · rename_i hst
      split
      · rfl
      · rename_i hx
        rw [S.buildSessionPayload_deactivate hv fun hp hs =>
          h.session actorToken ⟨.inl ⟨hrow, hl⟩, not_not.1 hst, by simpa using hx, hp, hs⟩]

theorem checkRoomAccess_deactivate (h : S.NothingHidden s caches) (id : IdText)
    (pattern : String) : checkRoomAccess (S.deactivate s) now id pattern =
      checkRoomAccess s now id pattern := by
  have hactors : findActor (S.deactivate s) id.uuid = findActor s id.uuid := rfl
  have hscopes : ∀ a, resolveScope (S.deactivate s) a = resolveScope s a := fun _ => rfl
  unfold checkRoomAccess
  rw [hactors]
  cases hactor : findActor s id.uuid with
  | none => rfl
  | some actorToken =>
    obtain ⟨hrow, hl, hid⟩ := of_findActor hactor
    dsimp only
    split
    · rfl
    · rename_i hst
      split
      · rfl
      · rename_i hx
        rw [hscopes]
        cases hs : resolveScope s actorToken with
        | none => rfl
        | some scope =>
          dsimp only
          cases hparse : parsePattern scope pattern with
          | none => rfl
          | some slugs =>
            obtain ⟨appSlug, roomSlug⟩ := slugs
            refine S.checkRoom_deactivate hv fun app access r happ hacc hroom g hh => ?_
            obtain ⟨h1, h2, h3, h4, h5⟩ := of_appBySlug happ
            obtain ⟨r1, r2, r3, r4, r5⟩ := of_roomBySlug hroom
            obtain ⟨hsame, hterms⟩ := (liveAppAccess_iff hv h4).1 hacc
            obtain ⟨happSegment, hroomSegment⟩ := segments_of_parsePattern hparse
            exact h.check id actorToken app r g hid
              { row := hrow
                isLive := hl
                active := not_not.1 hst
                unexpired := by simpa using hx
                scope := ⟨scope, hs⟩
                home := ⟨⟨h1, h2, h5, rfl, r1, r2, r5, r4, rfl⟩, h4⟩
                reached := ⟨_, _, hterms⟩
                appSegment := h3 ▸ happSegment
                roomSegment := r3 ▸ hroomSegment } hh

theorem validateClientToken_deactivate (h : S.NothingHidden s caches) (accessToken : String) :
    validateClientToken env (S.deactivate s) now caches accessToken =
      validateClientToken env s now caches accessToken := by
  have hverify : SigningKeys.verifyClientToken env.lib env.config (S.deactivate s) now caches.kid
      accessToken = SigningKeys.verifyClientToken env.lib env.config s now caches.kid accessToken :=
    rfl
  have hfind : ∀ keyId, ActorTokens.getActiveActorByKeyId (S.deactivate s) now keyId =
      ActorTokens.getActiveActorByKeyId s now keyId := fun _ => rfl
  unfold validateClientToken
  rw [hverify]
  dsimp only
  split
  · rfl
  · rfl
  · rename_i verified _
    rw [hfind]
    cases hactor : ActorTokens.getActiveActorByKeyId s now verified.payload.sub with
    | none => rfl
    | some actorToken =>
      obtain ⟨hrow, hl, _, hst, hx⟩ := of_getActiveActorByKeyId hactor
      dsimp only
      split
      · rfl
      · rw [S.buildSessionPayload_deactivate hv fun hp hs =>
          h.session actorToken ⟨.inl ⟨hrow, hl⟩, hst, hx, hp, hs⟩]

theorem validateActor_deactivate (h : S.NothingHidden s caches) (accessToken : String) :
    validateActor env (S.deactivate s) now caches accessToken =
      validateActor env s now caches accessToken := by
  have hauth : ActorTokens.authenticateActorToken env.crypto (S.deactivate s) now caches.auth
      accessToken = ActorTokens.authenticateActorToken env.crypto s now caches.auth accessToken := rfl
  unfold validateActor
  by_cases hjwt : isClientTokenJwt accessToken = true
  · rw [if_pos hjwt, if_pos hjwt, S.validateClientToken_deactivate hv h]
  · rw [if_neg hjwt, if_neg hjwt, hauth]
    dsimp only
    congr 2
    cases hactor : (ActorTokens.authenticateActorToken env.crypto s now caches.auth
        accessToken).1 with
    | none => rfl
    | some actorToken =>
      have hhanded := of_authenticateActorToken hactor
      unfold validateAuthenticated
      dsimp only
      split
      · rfl
      · rename_i hst
        split
        · rfl
        · rename_i hx
          rw [S.buildSessionPayload_deactivate hv fun hp hs => h.session actorToken
            ⟨hhanded.imp_right fun hc => ⟨accessToken, by simpa using hjwt, hc⟩, not_not.1 hst,
              by simpa using hx, hp, hs⟩]

end Answers

/-- An admitted actor is one that some answer is about. -/
theorem payload_of_unchanged {env : Env} {caches : Caches} (hv : s.SchemaValid)
    (h : S.Unchanged env s caches) (ha : Admitted s now caches actorToken) :
    buildSessionPayload env.config (S.deactivate s) now actorToken =
      buildSessionPayload env.config s now actorToken := by
  rcases ha.handed with ⟨hrow, hl⟩ | ⟨token, hjwt, hsplit, hcached⟩
  · have hactor := (findActor_iff hv.pkActor).2 ⟨hrow, hl, rfl⟩
    have hactor' : findActor (S.deactivate s) actorToken.actorTokenId = some actorToken := hactor
    have hsame := h.revalidate actorToken.actorTokenId
    unfold revalidateActor at hsame
    simp only [hactor, hactor', ha.active, ha.unexpired, ne_eq, not_true_eq_false, if_false,
      Bool.false_eq_true] at hsame
    -- payloads and denials show in the answer
    generalize buildSessionPayload env.config (S.deactivate s) now actorToken = new at hsame ⊢
    generalize buildSessionPayload env.config s now actorToken = old at hsame ⊢
    cases new <;> cases old <;> cases hsame <;> rfl
  · have hauth : ∀ s' : Store, (ActorTokens.authenticateActorToken env.crypto s' now caches.auth
        token).1 = some actorToken := by
      intro s'
      obtain ⟨⟨keyId, secret⟩, hparts⟩ := Option.isSome_iff_exists.1 hsplit
      unfold ActorTokens.authenticateActorToken
      rw [hparts]
      generalize caches.auth.get now token = r at hcached
      obtain ⟨cached, cache⟩ := r
      cases hcached
      rfl
    have hanswer : ∀ s' : Store, (validateActor env s' now caches token).1 =
        .ok (validateAuthenticated env.config s' now (some actorToken)) := by
      intro s'
      unfold validateActor
      simp only [hjwt, hauth, Bool.false_eq_true, if_false]
    have hsame := congrArg Prod.fst (h.validate token)
    rw [hanswer, hanswer] at hsame
    have hsame := Except.ok.inj hsame
    unfold validateAuthenticated at hsame
    simp only [ha.active, ha.unexpired, ne_eq, not_true_eq_false, if_false,
      Bool.false_eq_true] at hsame
    generalize buildSessionPayload env.config (S.deactivate s) now actorToken = new at hsame ⊢
    generalize buildSessionPayload env.config s now actorToken = old at hsame ⊢
    cases new <;> cases old <;> cases hsame <;> rfl

/-- Setting expired grants inactive changes no answer exactly when none of them stands before a
grant in force that would show. -/
theorem deactivation_unseen_iff (env : Env) (db : Database) (caches : Caches) :
    S.Unchanged env db.store caches ↔ S.NothingHidden db.store caches := by
  have hv := db.valid
  constructor
  · intro h
    refine ⟨fun actorToken ha => ?_, fun id actorToken app room g hid hasks hh => ?_⟩
    · exact S.showsNothing_of_payload hv ha.project ha.scope (S.payload_of_unchanged hv h ha)
    · exact S.topics_nil_of_check hv hid hasks hh (h.check id)
  · intro h
    exact ⟨S.validateActor_deactivate hv h, S.revalidateActor_deactivate hv h,
      S.checkRoomAccess_deactivate hv h⟩

end Lapsed

/-! ## An expired named grant -/

/-- A room with a grant naming the actor that expired at 5, and a grant on the actor's type. -/
def hiddenGrantDb : Database where
  store :=
    { projects := [{ projectId := .of "p1", name := "acme" }]
      apps := [{ appId := .of "a1", projectId := .of "p1", name := "Chat", slug := "chat",
                 accessMode := .open, topics := some ["news"] }]
      rooms := [{ roomId := .of "r1", appId := .of "a1", slug := "lobby", name := "Lobby" }]
      actorTokens := [{ actorTokenId := .of "t1", projectId := .of "p1", keyId := "at_live_1",
                        secretHash := "", name := "alice", actorType := .user }]
      roomActorAccess :=
        [{ roomActorAccessId := .of "g1", roomId := .of "r1", actorTokenId := some (.of "t1"),
           permission := .subscribe, expiresAt := some 5 },
         { roomActorAccessId := .of "g2", roomId := .of "r1", actorTokenId := none,
           actorType := some .user, permission := .pubSub }] }
  valid := by decide

/-- The expired grant alone. -/
def expiredNamed : Lapsed 10 where
  appGrant := fun _ => false
  roomGrant := fun ra => decide (ra.roomActorAccessId = .of "g1") && expired ra.expiresAt 10
  app_expired := fun _ h => nomatch h
  room_expired := fun _ h => (Bool.and_eq_true_iff.1 h).2

/-- With the expired grant active the actor is refused; with it inactive the type grant lets the
actor in. -/
theorem expired_grant_hides :
    (checkRoomAccess hiddenGrantDb.store 10 (.of "t1") "chat/lobby/news").allow = false ∧
    (checkRoomAccess (expiredNamed.deactivate hiddenGrantDb.store) 10 (.of "t1")
      "chat/lobby/news").allow = true ∧
    ∀ env caches, ¬ expiredNamed.Unchanged env hiddenGrantDb.store caches := by
  have hold : (checkRoomAccess hiddenGrantDb.store 10 (.of "t1") "chat/lobby/news").allow =
      false := by decide
  have hnew : (checkRoomAccess (expiredNamed.deactivate hiddenGrantDb.store) 10 (.of "t1")
      "chat/lobby/news").allow = true := by decide
  refine ⟨hold, hnew, fun env caches h => ?_⟩
  rw [h.check, hold] at hnew
  cases hnew

end Authz
end NolagCore
