import NolagCore.ProjectConfig.RoundTrip
import NolagCore.Room.GrantFacade

/-!
# ProjectConfig.CarriedGrants

Grants through an export and an import. A grant to a type goes with its room. A grant to an actor
goes with the actor and finds its room again by a key, which names the last room listed under it.
-/

namespace NolagCore
namespace ProjectConfig

open Lib

/-- What a grant gives. Topics that are null inherit; an empty list gives none. -/
structure GrantTerms where
  permission : EAccessPermission
  topics : Option (List String)
  isActive : Bool
  expiresAt : Option Int

def roomTerms (g : RoomActorAccess) : GrantTerms := ⟨g.permission, g.topics, g.isActive, g.expiresAt⟩

def appTerms (g : ActorAppAccess) : GrantTerms := ⟨g.permission, g.topics, g.isActive, g.expiresAt⟩

/-- Switched on and not expired. -/
def GrantTerms.inForce (t : GrantTerms) (now : Int) : Bool := t.isActive && !expired t.expiresAt now

/-- A live grant of the project that an import puts on `room`. -/
inductive CarriedTo (collate : String → String → Bool) (s : Store) (projectId : Uuid)
    (app : PlatformApp) (room : Room) : RoomActorAccess → Prop
  | typed {g : RoomActorAccess} (hg : g ∈ typeGrantsOf s room) :
    CarriedTo collate s projectId app room g
  | named {actor : ActorToken} {g : RoomActorAccess} {app' : PlatformApp} {room' : Room}
    (holder : ActorOf s projectId actor) (hg : g ∈ roomGrantsOf s actor)
    (listed : RoomOf s projectId app' room') (hid : room'.roomId = g.roomId)
    (owner : keyOwner collate s projectId (roomKey app'.slug room'.slug) = some (app, room)) :
    CarriedTo collate s projectId app room g

namespace RoundTrip

variable {collate : String → String → Bool} {host : Host} {draws : Draws} {now : Int}
  {source target target' : Database} {projectId : Uuid} {doc : ProjectConfigDoc}
  {credentials : ImportedCredentials}
  (h : RoundTrip collate host draws now source target target' projectId doc credentials)

include h

/-! ## Every listed grant is stored -/

theorem exists_typeGrant {i j : Nat} {app : PlatformApp} {room : Room}
    (hslot : RoomSlot collate source.store projectId i j app room) {g : RoomActorAccess}
    (hg : g ∈ typeGrantsOf source.store room) :
    ∃ g' ∈ target'.store.roomActorAccess, live g' = true ∧ g'.roomId = draws.room i j ∧
      g'.actorTokenId = none ∧ g'.actorType = g.actorType ∧
      roomTerms g' = { roomTerms g with expiresAt := none } := by
  obtain ⟨k, hk⟩ := List.mem_iff_getElem?.1 hg
  refine ⟨typeGrantRow draws i j k (exportTypeGrant g), ?_, rfl, rfl, rfl, rfl, rfl⟩
  refine (h.has_iff (r := .roomGrant _) rfl).2 (.inr (docRows_roomGrant.2 (.inl
    ⟨i, _, j, exportRoom source.store room, k, exportTypeGrant g,
      h.docApps_iff.2 ⟨app, hslot.atApp, rfl⟩, ?_, ?_, rfl⟩)))
  · simp [exportApp, hslot.atRoom]
  · simp [exportRoom, hk]

theorem exists_appGrant {i : Nat} {actor : ActorToken} {actorDoc : ActorDoc}
    (hslot : ActorSlot collate source.store projectId doc i actor actorDoc) {g : ActorAppAccess}
    (hg : g ∈ appGrantsOf source.store actor) {app : PlatformApp}
    (happ : AppOf source.store projectId app) (hid : app.appId = g.appId) (hne : app.slug ≠ "") :
    ∃ i' : Nat, (appsOf collate source.store projectId)[i']? = some app ∧
      ∃ g' ∈ target'.store.actorAppAccess, live g' = true ∧ g'.actorTokenId = draws.actor i ∧
        g'.appId = draws.app i' ∧ appTerms g' = appTerms g := by
  obtain ⟨expiresAt, ht⟩ := hslot.exported.appDates g hg
  have hgrant := (hslot.exported.appAccess _).2 ⟨g, app, expiresAt, hg, happ, hid, hne, ht, rfl⟩
  obtain ⟨⟨appId, hget⟩, -⟩ := (h.resolved hslot).appGrant _ hgrant
  obtain ⟨i', app', hi', hslug, rfl⟩ := h.appIdBySlug_iff.1 hget
  obtain rfl := (mem_appsOf.1 (List.mem_of_getElem? hi')).eq_of_slug source.valid happ hslug
  obtain ⟨j, hj⟩ := List.mem_iff_getElem?.1 hgrant
  refine ⟨i', hi', appGrantRow draws i j (appGrantDoc app' g expiresAt) (draws.app i') g.expiresAt,
    ?_, rfl, rfl, rfl, rfl⟩
  exact (h.has_iff (r := .appGrant _) rfl).2 (.inr (docRows_appGrant.2
    ⟨i, actorDoc, j, _, _, _, hslot.atDoc, hj, hget, dateColumn_isoColumn host.legacy ht, rfl⟩))

theorem exists_roomGrant {i : Nat} {actor : ActorToken} {actorDoc : ActorDoc}
    (hslot : ActorSlot collate source.store projectId doc i actor actorDoc) {g : RoomActorAccess}
    (hg : g ∈ roomGrantsOf source.store actor) {app : PlatformApp} {room : Room}
    (hof : RoomOf source.store projectId app room) (hid : room.roomId = g.roomId) :
    ∃ i' j' app' room', RoomSlot collate source.store projectId i' j' app' room' ∧
      keyOwner collate source.store projectId (roomKey app.slug room.slug) = some (app', room') ∧
      ∃ g' ∈ target'.store.roomActorAccess, live g' = true ∧ g'.roomId = draws.room i' j' ∧
        g'.actorTokenId = some (draws.actor i) ∧ roomTerms g' = roomTerms g := by
  obtain ⟨expiresAt, ht⟩ := hslot.exported.roomDates g hg app room hof hid
  have hgrant := (hslot.exported.roomAccess _).2 ⟨g, app, room, expiresAt, hg, hof, hid, ht, rfl⟩
  obtain ⟨⟨roomId, hget⟩, -⟩ := (h.resolved hslot).roomGrant _ hgrant
  obtain ⟨i', j', app', room', hslot', howner, rfl⟩ := h.roomIdByKey_iff.1 hget
  obtain ⟨j, hj⟩ := List.mem_iff_getElem?.1 hgrant
  refine ⟨i', j', app', room', hslot', howner,
    roomGrantRow draws i j (roomGrantDoc app room g expiresAt) (draws.room i' j') g.expiresAt,
    ?_, rfl, rfl, rfl, rfl⟩
  exact (h.has_iff (r := .roomGrant _) rfl).2 (.inr (docRows_roomGrant.2 (.inr
    ⟨i, actorDoc, j, _, _, _, hslot.atDoc, hj, hget, dateColumn_isoColumn host.legacy ht, rfl⟩)))

/-! ## Every stored grant was listed -/

theorem source_of_typeGrant {i j : Nat} {app : PlatformApp} {room : Room}
    (hslot : RoomSlot collate source.store projectId i j app room) {g' : RoomActorAccess}
    (hg' : g' ∈ target'.store.roomActorAccess) (hid : g'.roomId = draws.room i j)
    (htype : g'.actorTokenId = none) :
    g'.expiresAt = none ∧ ∃ g, g ∈ typeGrantsOf source.store room := by
  rcases docRows_roomGrant.1 (h.roomGrant_new (h.docRows_newRoom hslot) hg' hid) with
    ⟨i', appDoc, j', roomDoc, k, grant, happ, hroom, hgrant, rfl⟩ |
      ⟨i', actorDoc, j', grant, roomId, expiresAt, hactor, hgrant, hkey, ht, rfl⟩
  · obtain ⟨app', hi', rfl⟩ := h.docApps_iff.1 happ
    rw [exportApp, Option.getD_some, List.getElem?_map, Option.map_eq_some_iff] at hroom
    obtain ⟨room', hj', rfl⟩ := hroom
    obtain ⟨rfl, rfl⟩ := h.newRoom_inj ⟨hi', hj'⟩ hslot hid
    rw [exportRoom, Option.getD_some, List.getElem?_map, Option.map_eq_some_iff] at hgrant
    obtain ⟨g, hg, -⟩ := hgrant
    exact ⟨rfl, g, List.mem_of_getElem? hg⟩
  · cases htype

/-- A named grant on a new room has come through the key of the room it was made of. -/
theorem source_of_namedGrant {i j : Nat} {app : PlatformApp} {room : Room}
    (hslot : RoomSlot collate source.store projectId i j app room) {g' : RoomActorAccess}
    (hg' : g' ∈ target'.store.roomActorAccess) (hid : g'.roomId = draws.room i j)
    (hnamed : g'.actorTokenId ≠ none) :
    ∃ actor g app' room', ActorOf source.store projectId actor ∧ g ∈ roomGrantsOf source.store actor ∧
      RoomOf source.store projectId app' room' ∧ room'.roomId = g.roomId ∧
      keyOwner collate source.store projectId (roomKey app'.slug room'.slug) = some (app, room) := by
  rcases docRows_roomGrant.1 (h.roomGrant_new (h.docRows_newRoom hslot) hg' hid) with
    ⟨i', appDoc, j', roomDoc, k, grant, happ, hroom, hgrant, rfl⟩ |
      ⟨i', actorDoc, j', grant, roomId, expiresAt, hactor, hgrant, hkey, ht, rfl⟩
  · exact absurd rfl hnamed
  · obtain ⟨actor, hactorSlot⟩ := h.actorSlot_of_doc hactor
    obtain ⟨g, app', room', t, hg, hof, hroomId, ht', rfl⟩ :=
      (hactorSlot.exported.roomAccess grant).1 (List.mem_of_getElem? hgrant)
    obtain ⟨i₂, j₂, app₂, room₂, hslot₂, howner, rfl⟩ := h.roomIdByKey_iff.1 hkey
    obtain ⟨rfl, rfl⟩ := h.newRoom_inj hslot₂ hslot hid
    exact ⟨actor, g, app', room', mem_actorsOf.1 (List.mem_of_getElem? hactorSlot.atActor), hg, hof,
      hroomId, howner⟩

/-- A grant on a new app has come through the slug of the app it was made of. -/
theorem source_of_appGrant {r : ActorToken} (hr : DocRows host draws now doc (.actorToken r))
    {g' : ActorAppAccess} (hg' : g' ∈ target'.store.actorAppAccess)
    (hid : g'.actorTokenId = r.actorTokenId) :
    ∃ (i : Nat) (app : PlatformApp), (appsOf collate source.store projectId)[i]? = some app ∧
      g'.appId = draws.app i ∧ app.slug ≠ "" := by
  obtain ⟨i', actorDoc, j, grant, appId, expiresAt, hactor, hgrant, hget, ht, rfl⟩ :=
    docRows_appGrant.1 (h.appGrant_new hr hg' hid)
  obtain ⟨actor, hslot⟩ := h.actorSlot_of_doc hactor
  obtain ⟨g, app, t, hg, happ, hid', hne, ht', rfl⟩ :=
    (hslot.exported.appAccess grant).1 (List.mem_of_getElem? hgrant)
  obtain ⟨i, app', hi, hslug, rfl⟩ := h.appIdBySlug_iff.1 hget
  refine ⟨i, app', hi, rfl, ?_⟩
  rw [hslug]
  exact hne

/-- A new room is private exactly when some grant is carried to it. -/
theorem newRoom_private_iff {i j : Nat} {app : PlatformApp} {room : Room}
    (hslot : RoomSlot collate source.store projectId i j app room) :
    RoomActorAccessFacade.isPrivateRoom target'.store (draws.room i j) = true ↔
      ∃ g, CarriedTo collate source.store projectId app room g := by
  rw [RoomActorAccessFacade.isPrivateRoom_iff]
  constructor
  · rintro ⟨g', hg', -, hid⟩
    by_cases htype : g'.actorTokenId = none
    · obtain ⟨-, g, hg⟩ := h.source_of_typeGrant hslot hg' hid htype
      exact ⟨g, .typed hg⟩
    · obtain ⟨actor, g, app', room', holder, hg, hof, hroomId, howner⟩ :=
        h.source_of_namedGrant hslot hg' hid htype
      exact ⟨g, .named holder hg hof hroomId howner⟩
  · rintro ⟨g, hg | ⟨holder, hg, hof, hroomId, howner⟩⟩
    · obtain ⟨g', hg', hl, hid, -⟩ := h.exists_typeGrant hslot hg
      exact ⟨g', hg', hl, hid⟩
    · obtain ⟨i₂, actorDoc, hactor⟩ := h.exists_actorSlot holder
      obtain ⟨i', j', app', room', hslot', howner', g', hg', hl, hid, -⟩ :=
        h.exists_roomGrant hactor hg hof hroomId
      rw [howner] at howner'
      cases howner'
      exact ⟨g', hg', hl, hid.trans (h.newRoom_congr hslot' hslot)⟩

end RoundTrip

end ProjectConfig
end NolagCore
