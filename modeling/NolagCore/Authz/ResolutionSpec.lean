import NolagCore.Access.Model
import NolagCore.Authz.Service

/-!
# Authz.ResolutionSpec

What the resolvers compute, query by query. The maps of the batched resolution hold exactly what
one query for each app and each room would return, and both resolvers are then read as relations
on rows.
-/

namespace NolagCore
namespace Authz

open Lib AccessModel

/-! ## The batched maps, room by room -/

/-- The active rooms of one app. -/
def activeRooms (s : Store) (appId : Uuid) : List Room :=
  findAll s.rooms fun r => decide (r.appId = appId) && decide (r.status = .active)

/-- The grants placed on one room. -/
def grantsOn (s : Store) (room : Room) : List RoomActorAccess :=
  findAll s.roomActorAccess fun ra => decide (ra.roomId = room.roomId)

/-- What the two maps hold for one room: the last grant naming the actor, else the first on its
type. -/
def batchedRoomGrants (s : Store) (actorToken : ActorToken) (room : Room) : RoomGrants where
  entries := grantsOn s room
  effective := (((grantsOn s room).filter
    (namesActor actorToken.actorTokenId.text)).getLast?).or
      ((grantsOn s room).find? (namesType actorToken))

theorem get?_actorAccessByRoomId (actorToken : ActorToken) (l : List RoomActorAccess) (id : Uuid) :
    (actorAccessByRoomId actorToken l).get? id =
      (((l.filter fun ra => decide (ra.roomId = id)).filter
        (namesActor actorToken.actorTokenId.text)).getLast?).or
          ((l.filter fun ra => decide (ra.roomId = id)).find? (namesType actorToken)) := by
  unfold actorAccessByRoomId
  rw [OrderedMap.get?_loop, OrderedMap.foldl_first (fun ra : RoomActorAccess => ra),
    OrderedMap.get?_ofList]
  simp only [List.filter_filter, Option.map_id_fun', id_eq, Option.map_id, ← List.head?_filter]
  congr 2
  · simp only [Bool.and_comm]
  · simp only [Bool.and_comm]

theorem grantsOfRooms_filter {s : Store} {rooms : List Room} {room : Room} (h : room ∈ rooms) :
    (grantsOfRooms s (rooms.map (·.roomId))).filter (fun ra => decide (ra.roomId = room.roomId)) =
      grantsOn s room := by
  have hne : (rooms.map (·.roomId)).isEmpty = false := by
    cases rooms with
    | nil => cases h
    | cons r rs => rfl
  unfold grantsOfRooms grantsOn findAll
  rw [hne, if_neg Bool.false_ne_true, List.filter_filter]
  refine List.filter_congr fun ra _ => ?_
  by_cases hr : ra.roomId = room.roomId
  · have hm : room.roomId ∈ rooms.map (·.roomId) := List.mem_map_of_mem h
    simp [hr, hm]
  · simp [hr]

theorem roomsOfApps_filter {s : Store} {appIds : List Uuid} {appId : Uuid} (h : appId ∈ appIds) :
    (roomsOfApps s appIds).filter (fun r => decide (r.appId = appId)) = activeRooms s appId := by
  unfold roomsOfApps activeRooms findAll
  rw [List.filter_filter]
  refine List.filter_congr fun r _ => ?_
  by_cases hr : r.appId = appId
  · simp [hr, h]
  · simp [hr]

theorem buildApp_congr {now : Int} {scope : ResolvedScope} {rooms : List Room}
    {grantsOf grantsOf' : Room → RoomGrants} {access : Access}
    (h : ∀ room ∈ rooms, grantsOf room = grantsOf' room) :
    buildApp now scope rooms grantsOf access = buildApp now scope rooms grantsOf' access := by
  unfold buildApp
  congr 1
  · exact List.flatMap_congr fun room hr => by rw [h room hr]
  · exact List.filterMap_congr fun room hr => by rw [h room hr]

/-- What the loop over `validAppAccess` builds for one element of it, from queries of its own. -/
def buildOf (s : Store) (now : Int) (actorToken : ActorToken) (scope : ResolvedScope)
    (access : Access) : AppBuild :=
  buildApp now scope (activeRooms s access.app.appId) (batchedRoomGrants s actorToken) access

theorem ofList_congr {α κ ν : Type} [DecidableEq κ] {key : α → κ} {val val' : α → ν} {l : List α}
    (h : ∀ x ∈ l, val x = val' x) :
    OrderedMap.ofList key val l = OrderedMap.ofList key val' l := by
  unfold OrderedMap.ofList OrderedMap.loop
  generalize (OrderedMap.empty : OrderedMap κ ν) = m
  induction l generalizing m with
  | nil => rfl
  | cons x l ih =>
    simp only [List.foldl_cons, h x (by simp)]
    exact ih (fun y hy => h y (by simp [hy])) _

/-- Batching changes nothing: every app is built from the rows of that app and its rooms. -/
theorem buildAppsMap_eq (s : Store) (now : Int) (actorToken : ActorToken) (scope : ResolvedScope) :
    buildAppsMap s now actorToken scope =
      OrderedMap.ofList (·.app.appId) (buildOf s now actorToken scope)
        (validAppAccess s now actorToken) := by
  unfold buildAppsMap
  refine ofList_congr fun access ha => ?_
  have happ : access.app.appId ∈ (validAppAccess s now actorToken).map (·.app.appId) :=
    List.mem_map_of_mem ha
  rw [OrderedMap.getD_groupBy, roomsOfApps_filter happ]
  refine buildApp_congr fun room hroom => ?_
  have hall : room ∈ roomsOfApps s ((validAppAccess s now actorToken).map (·.app.appId)) := by
    rw [← roomsOfApps_filter happ] at hroom
    exact (List.mem_filter.1 hroom).1
  unfold batchedRoomGrants
  rw [get?_actorAccessByRoomId, OrderedMap.getD_groupBy, grantsOfRooms_filter hall]

/-! ## Rooms as relations -/

/-- A reading of a room's grants that is right about both maps. -/
structure Reads (s : Store) (actorTokenId : String) (actorType : EActorType) (room : Room)
    (grants : RoomGrants) : Prop where
  entries : grants.entries = grantsOn s room
  sound : ∀ g, grants.effective = some g → Decides s actorTokenId actorType room g
  complete : grants.effective = none → ∀ g, ¬ Decides s actorTokenId actorType room g

theorem mem_grantsOn {s : Store} {room : Room} {ra : RoomActorAccess} :
    ra ∈ grantsOn s room ↔ OnRoom s room ra := by
  unfold grantsOn
  rw [mem_findAll, decide_eq_true_eq]
  exact ⟨fun ⟨h1, h2, h3⟩ => ⟨h1, h2, h3⟩, fun h => ⟨h.row, h.isLive, h.onRoom⟩⟩

theorem grantsOn_eq_nil {s : Store} {room : Room} : grantsOn s room = [] ↔ IsPublic s room := by
  rw [List.eq_nil_iff_forall_not_mem]
  exact forall_congr' fun ra => not_congr mem_grantsOn

theorem namesActor_iff {actorTokenId : String} {ra : RoomActorAccess} :
    namesActor actorTokenId ra = true ↔ Names actorTokenId ra := by
  simp [namesActor, Names]

theorem names_text {actorTokenId : Uuid} {ra : RoomActorAccess} :
    Names actorTokenId.text ra ↔ ra.actorTokenId = some actorTokenId ∧ ra.isActive = true := by
  refine and_congr_left fun _ => ⟨fun h => ?_, fun h => by rw [h]; rfl⟩
  obtain ⟨id, hid, htext⟩ := Option.map_eq_some_iff.1 h
  rw [hid, Uuid.ext_text htext]

/-- In another spelling than the stored one, an id is the text of no row. -/
theorem stored_of_names {actorTokenId : IdText} {ra : RoomActorAccess}
    (h : Names actorTokenId.text ra) : actorTokenId.Stored := by
  obtain ⟨_, _, htext⟩ := Option.map_eq_some_iff.1 h.1
  exact IdText.stored_of_text htext

theorem namesType_iff {actorToken : ActorToken} {ra : RoomActorAccess} :
    namesType actorToken ra = true ↔ ra.actorTokenId = none ∧
      ra.actorType = some actorToken.actorType ∧ ra.isActive = true := by
  simp [namesType, and_assoc]

/-- Any pick among the named grants, else any pick among the type grants, reads the room. -/
theorem reads_of_picks {s : Store} {actorTokenId : String} {actorToken : ActorToken}
    {room : Room} {named typed : Option RoomActorAccess}
    (hn : ∀ g, named = some g → OnRoom s room g ∧ Names actorTokenId g)
    (hn' : named = none → ∀ g, OnRoom s room g → ¬ Names actorTokenId g)
    (ht : ∀ g, typed = some g → OnRoom s room g ∧ namesType actorToken g = true)
    (ht' : typed = none → ∀ g, OnRoom s room g → ¬ namesType actorToken g = true) :
    Reads s actorTokenId actorToken.actorType room
      { entries := grantsOn s room, effective := named.or typed } := by
  refine ⟨rfl, ?_, ?_⟩
  · intro g hg
    cases hnamed : named with
    | some g' =>
      simp only [hnamed, Option.some_or, Option.some.injEq] at hg
      subst hg
      exact .named (hn g' hnamed).1 (hn g' hnamed).2
    | none =>
      simp only [hnamed, Option.none_or] at hg
      obtain ⟨hon, hty⟩ := ht g hg
      obtain ⟨h1, h2, h3⟩ := namesType_iff.1 hty
      exact .typed hon h3 h1 h2 (hn' hnamed)
  · intro hnone g hd
    obtain ⟨hnamed, htyped⟩ := Option.or_eq_none_iff.1 hnone
    cases hd with
    | named on names => exact hn' hnamed g on names
    | typed on active unnamed type _ =>
      exact ht' htyped g on (namesType_iff.2 ⟨unnamed, type, active⟩)

theorem reads_batched (s : Store) (actorToken : ActorToken) (room : Room) :
    Reads s actorToken.actorTokenId.text actorToken.actorType room
      (batchedRoomGrants s actorToken room) := by
  refine reads_of_picks ?_ ?_ ?_ ?_
  · intro g hg
    have hm := List.mem_filter.1 (List.mem_of_getLast? hg)
    exact ⟨mem_grantsOn.1 hm.1, namesActor_iff.1 hm.2⟩
  · intro hnone g hon hnm
    have hm : g ∈ (grantsOn s room).filter (namesActor actorToken.actorTokenId.text) :=
      List.mem_filter.2 ⟨mem_grantsOn.2 hon, namesActor_iff.2 hnm⟩
    rw [List.getLast?_eq_none_iff.1 hnone] at hm
    cases hm
  · intro g hg
    exact ⟨mem_grantsOn.1 (List.mem_of_find?_eq_some hg), List.find?_some hg⟩
  · intro hnone g hon
    exact List.find?_eq_none.1 hnone g (mem_grantsOn.2 hon)

theorem reads_live (s : Store) (actorTokenId : String) (actorToken : ActorToken) (room : Room) :
    Reads s actorTokenId actorToken.actorType room
      (liveRoomGrants s actorTokenId actorToken room) := by
  refine reads_of_picks ?_ ?_ ?_ ?_
  · intro g hg
    exact ⟨mem_grantsOn.1 (List.mem_of_find?_eq_some hg), namesActor_iff.1 (List.find?_some hg)⟩
  · intro hnone g hon hnm
    exact List.find?_eq_none.1 hnone g (mem_grantsOn.2 hon) (namesActor_iff.2 hnm)
  · intro g hg
    exact ⟨mem_grantsOn.1 (List.mem_of_find?_eq_some hg), List.find?_some hg⟩
  · intro hnone g hon
    exact List.find?_eq_none.1 hnone g (mem_grantsOn.2 hon)

/-- What one room contributes under a reading of its grants. -/
theorem roomAccess_iff {s : Store} {now : Int} {actorTokenId : String} {actorType : EActorType}
    {room : Room} {grants : RoomGrants} (hr : Reads s actorTokenId actorType room grants)
    {access : Access}
    {p : EAccessPermission} {topicName : String} :
    (∃ ts, roomAccess now access grants = some (p, ts) ∧ topicName ∈ ts.getD []) ↔
      (IsPublic s room ∧ p = access.permission ∧ topicName ∈ topicsOf access.topics access.app) ∨
      ∃ g, grants.effective = some g ∧ expired g.expiresAt now = false ∧ p = g.permission ∧
        topicName ∈ topicsOf g.topics access.app := by
  unfold roomAccess topicsOf
  have hpub : grants.entries = [] ↔ IsPublic s room := by rw [hr.entries, grantsOn_eq_nil]
  by_cases hp : IsPublic s room
  · have hnone : ∀ g, grants.effective ≠ some g := fun g hg => hp g (hr.sound g hg).on
    rw [if_pos (hpub.2 hp)]
    constructor
    · rintro ⟨ts, hts, hmem⟩
      cases hts
      exact .inl ⟨hp, rfl, hmem⟩
    · rintro (⟨_, rfl, hmem⟩ | ⟨g, hg, _⟩)
      · exact ⟨_, rfl, hmem⟩
      · exact absurd hg (hnone g)
  · rw [if_neg (mt hpub.1 hp)]
    cases heff : grants.effective with
    | none => simp [hp]
    | some g =>
      by_cases hx : expired g.expiresAt now = true
      · simp [hp, hx]
      · simp only [Bool.not_eq_true] at hx
        simp [hp, hx]
        intro _
        exact eq_comm

/-- Whatever the reading, what a room contributes is what its rows yield. -/
theorem roomAccess_yields {s : Store} {now : Int} {actorTokenId : String} {actorType : EActorType}
    {room : Room} {grants : RoomGrants} (hr : Reads s actorTokenId actorType room grants)
    {access : Access}
    {p : EAccessPermission} {ts : Option (List String)} {topicName : String}
    (h : roomAccess now access grants = some (p, ts)) (hmem : topicName ∈ ts.getD []) :
    RoomYields s now actorTokenId actorType access.app room access.permission access.topics p
      topicName := by
  rcases (roomAccess_iff hr).1 ⟨ts, h, hmem⟩ with ⟨hp, rfl, hm⟩ | ⟨g, hg, hx, rfl, hm⟩
  · exact .isPublic hp hm
  · exact .isPrivate (hr.sound g hg) hx hm

/-! ## Apps as relations -/

theorem mem_activeRooms {s : Store} {appId : Uuid} {room : Room} :
    room ∈ activeRooms s appId ↔
      room ∈ s.rooms ∧ live room = true ∧ room.appId = appId ∧ room.status = .active := by
  simp [activeRooms]

theorem mem_openApps {s : Store} {actorToken : ActorToken} {app : PlatformApp} :
    app ∈ openApps s actorToken ↔ app ∈ s.apps ∧ live app = true ∧
      app.projectId = actorToken.projectId ∧ app.accessMode = .open ∧ app.status = .active := by
  simp [openApps, and_assoc]

/-- A kept grant is in force, and its loaded app is live and active. -/
theorem mem_explicitAppAccess {s : Store} {now : Int} {actorToken : ActorToken} {access : Access} :
    access ∈ explicitAppAccess s now actorToken ↔
      ∃ g, AppGrant s now actorToken.actorTokenId access.app g ∧ s.appOf g = some access.app ∧
        access.app.status = .active ∧ access.permission = g.permission ∧
        access.topics = g.topics := by
  unfold explicitAppAccess
  rw [List.mem_filterMap]
  constructor
  · rintro ⟨g, hg, hk⟩
    simp only [actorAppAccess, mem_findAll, Bool.and_eq_true, decide_eq_true_eq] at hg
    obtain ⟨hrow, hlive, hactor, hact⟩ := hg
    unfold keepAccess at hk
    split at hk
    · cases hk
    · rename_i app happ
      split at hk
      · rename_i hst
        split at hk
        · cases hk
        · rename_i hx
          cases hk
          have hid := (of_findOne happ).2.2
          simp only [decide_eq_true_eq] at hid
          refine ⟨g, ⟨hrow, hlive, hactor, hid.symm, hact, ?_⟩, happ, hst, rfl, rfl⟩
          simpa using hx
      · cases hk
  · rintro ⟨g, hg, happ, hst, hp, ht⟩
    refine ⟨g, ?_, ?_⟩
    · simp only [actorAppAccess, mem_findAll, Bool.and_eq_true, decide_eq_true_eq]
      exact ⟨hg.row, hg.isLive, hg.actor, hg.active⟩
    · unfold keepAccess
      simp only [happ, hst, if_true, hg.unexpired]
      cases access
      cases hp
      cases ht
      rfl

theorem appOf_spec {s : Store} {g : ActorAppAccess} {app : PlatformApp}
    (h : s.appOf g = some app) : app ∈ s.apps ∧ live app = true ∧ g.appId = app.appId := by
  obtain ⟨h1, h2, h3⟩ := of_findOne h
  exact ⟨h1, h2, (by simpa using h3 : app.appId = g.appId).symm⟩

/-- Every element of `validAppAccess` is an app the actor holds a grant on or an open one. -/
theorem of_mem_validAppAccess {s : Store} {now : Int} {actorToken : ActorToken} {access : Access}
    (h : access ∈ validAppAccess s now actorToken) :
    access.app ∈ s.apps ∧ live access.app = true ∧ access.app.status = .active ∧
      HeldOrOpen s now actorToken.actorTokenId access.app access.permission access.topics := by
  unfold validAppAccess at h
  rcases List.mem_append.1 h with h | h
  · obtain ⟨g, hg, happ, hst, hp, ht⟩ := mem_explicitAppAccess.1 h
    obtain ⟨hrow, hlive, _⟩ := appOf_spec happ
    refine ⟨hrow, hlive, hst, ?_⟩
    rw [hp, ht]
    exact .held hg
  · obtain ⟨app, hm, rfl⟩ := List.mem_map.1 h
    obtain ⟨hrow, hlive, _, hopen, hst⟩ := mem_openApps.1 (List.mem_filter.1 hm).1
    exact ⟨hrow, hlive, hst, .opened hopen⟩

/-! ## Under the schema -/

theorem filterMap_sublist_map {α β : Type} {f : α → Option β} {g : α → β}
    (h : ∀ a b, f a = some b → b = g a) (l : List α) : (l.filterMap f).Sublist (l.map g) := by
  induction l with
  | nil => exact List.Sublist.refl _
  | cons a l ih =>
    cases hf : f a with
    | none => simpa [hf] using ih.cons (g a)
    | some b => simpa [hf, h a b hf] using ih

section Valid

variable {s : Store} (hv : s.SchemaValid)
include hv

theorem app_eq_of_id {app app' : PlatformApp} (h : app ∈ s.apps) (h' : app' ∈ s.apps)
    (hid : app.appId = app'.appId) : app = app' := hv.pkApp.eq_of_key h h' hid

theorem appOf_of_mem {g : ActorAppAccess} {app : PlatformApp} (h : app ∈ s.apps)
    (hl : live app = true) (hid : g.appId = app.appId) : s.appOf g = some app := by
  refine findOne_of_unique h hl (by simpa using hid.symm) fun app' h' _ hp => ?_
  exact app_eq_of_id hv h' h ((of_decide_eq_true hp).trans hid)

/-- Only one grant of an actor can be in force on an app. -/
theorem appGrant_unique {now : Int} {actorTokenId : Uuid} {app : PlatformApp}
    {g g' : ActorAppAccess} (h : AppGrant s now actorTokenId app g)
    (h' : AppGrant s now actorTokenId app g') : g = g' :=
  hv.appGrant.eq_of_key h.row h'.row
    (Prod.ext (h.actor.trans h'.actor.symm) (h.onApp.trans h'.onApp.symm))

/-- `validAppAccess` is the table of terms: grants first, then the open apps without one. -/
theorem mem_validAppAccess {now : Int} {actorToken : ActorToken} {access : Access} :
    access ∈ validAppAccess s now actorToken ↔
      access.app ∈ s.apps ∧ live access.app = true ∧ access.app.status = .active ∧
      HeldElseOpen s now actorToken.actorTokenId actorToken.projectId access.app
        access.permission access.topics := by
  constructor
  · intro h
    obtain ⟨hrow, hlive, hst, _⟩ := of_mem_validAppAccess h
    refine ⟨hrow, hlive, hst, ?_⟩
    unfold validAppAccess at h
    rcases List.mem_append.1 h with h | h
    · obtain ⟨g, hg, _, _, hp, ht⟩ := mem_explicitAppAccess.1 h
      rw [hp, ht]
      exact .held hg
    · obtain ⟨app, hm, rfl⟩ := List.mem_map.1 h
      obtain ⟨hopen, hnot⟩ := List.mem_filter.1 hm
      obtain ⟨_, _, hhome, hmode, _⟩ := mem_openApps.1 hopen
      refine .opened hhome hmode fun g hg => ?_
      refine of_decide_eq_true hnot (List.mem_map.2 ⟨⟨app, g.permission, g.topics⟩, ?_, rfl⟩)
      exact mem_explicitAppAccess.2 ⟨g, hg, appOf_of_mem hv hrow hlive hg.onApp, hst, rfl, rfl⟩
  · rintro ⟨hrow, hlive, hst, ht⟩
    obtain ⟨app, p, ts⟩ := access
    unfold validAppAccess
    cases ht with
    | held hg =>
      refine List.mem_append_left _ (mem_explicitAppAccess.2 ⟨_, hg, ?_, hst, rfl, rfl⟩)
      exact appOf_of_mem hv hrow hlive hg.onApp
    | opened hhome hmode hunheld =>
      refine List.mem_append_right _ (List.mem_map.2 ⟨app, List.mem_filter.2 ⟨?_, ?_⟩, rfl⟩)
      · exact mem_openApps.2 ⟨hrow, hlive, hhome, hmode, hst⟩
      · refine decide_eq_true fun hm => ?_
        obtain ⟨access', hx, hid⟩ := List.mem_map.1 hm
        obtain ⟨g, hg, happ, _⟩ := mem_explicitAppAccess.1 hx
        obtain ⟨hrow', _, _⟩ := appOf_spec happ
        have heq := app_eq_of_id hv hrow' hrow hid
        rw [heq] at hg
        exact hunheld g hg

/-- With its grants in its own project, an actor's apps are of that project. -/
theorem projectId_of_validAppAccess {now : Int} {actorToken : ActorToken}
    (hgrants : ∀ g ∈ s.actorAppAccess, live g = true → g.actorTokenId = actorToken.actorTokenId →
      ∀ app ∈ s.apps, g.appId = app.appId → app.projectId = actorToken.projectId)
    {access : Access} (h : access ∈ validAppAccess s now actorToken) :
    access.app.projectId = actorToken.projectId := by
  obtain ⟨hrow, _, _, hterms⟩ := (mem_validAppAccess hv).1 h
  generalize access.permission = p at hterms
  generalize access.topics = ts at hterms
  cases hterms with
  | held hg => exact hgrants _ hg.row hg.isLive hg.actor _ hrow hg.onApp
  | opened home _ _ => exact home

theorem nodup_explicitAppAccess (now : Int) (actorToken : ActorToken) :
    ((explicitAppAccess s now actorToken).map (·.app.appId)).Nodup := by
  have hsub : ((explicitAppAccess s now actorToken).map (·.app.appId)).Sublist
      ((actorAppAccess s actorToken).map (·.appId)) := by
    unfold explicitAppAccess
    rw [List.map_filterMap]
    refine filterMap_sublist_map (fun g id h => ?_) _
    obtain ⟨access, hk, rfl⟩ := Option.map_eq_some_iff.1 h
    unfold keepAccess at hk
    split at hk
    · cases hk
    · rename_i app happ
      split at hk
      · split at hk
        · cases hk
        · cases hk
          exact (appOf_spec happ).2.2.symm
      · cases hk
  refine List.Nodup.sublist hsub ?_
  have hrows : ∀ g ∈ actorAppAccess s actorToken,
      g ∈ s.actorAppAccess ∧ g.actorTokenId = actorToken.actorTokenId := by
    intro g hg
    simp only [actorAppAccess, mem_findAll, Bool.and_eq_true, decide_eq_true_eq] at hg
    exact ⟨hg.1, hg.2.2.1⟩
  refine List.Nodup.map_on ?_ (List.Nodup.of_map _ (hv.appGrant.filter _))
  intro g hg g' hg' hid
  obtain ⟨h1, h2⟩ := hrows g hg
  obtain ⟨h1', h2'⟩ := hrows g' hg'
  exact hv.appGrant.eq_of_key h1 h1' (Prod.ext (h2.trans h2'.symm) hid)

/-- No app occurs twice in `validAppAccess`. -/
theorem nodup_validAppAccess (now : Int) (actorToken : ActorToken) :
    ((validAppAccess s now actorToken).map (·.app.appId)).Nodup := by
  unfold validAppAccess
  rw [List.map_append, List.map_map]
  refine List.Nodup.append (nodup_explicitAppAccess hv now actorToken) ?_ ?_
  · exact List.Nodup.sublist ((List.filter_sublist.trans List.filter_sublist).map _) hv.pkApp
  · intro id hid hid'
    obtain ⟨app, hm, rfl⟩ := List.mem_map.1 hid'
    exact of_decide_eq_true (List.mem_filter.1 hm).2 hid

theorem access_eq_of_appId {now : Int} {actorToken : ActorToken} {access access' : Access}
    (ha : access ∈ validAppAccess s now actorToken) (ha' : access' ∈ validAppAccess s now actorToken)
    (h : access.app.appId = access'.app.appId) : access = access' :=
  List.inj_on_of_nodup_map (nodup_validAppAccess hv now actorToken) ha ha' h

end Valid

/-! ## The two answers -/

theorem mem_allowedTopics {s : Store} {now : Int} {actorToken : ActorToken} {scope : ResolvedScope}
    {access : Access} {e : AllowedTopic} :
    e ∈ (buildOf s now actorToken scope access).allowedTopics ↔
      ∃ room ∈ activeRooms s access.app.appId, ∃ p topicName,
        (∃ ts, roomAccess now access (batchedRoomGrants s actorToken room) = some (p, ts) ∧
          topicName ∈ ts.getD []) ∧
        e = buildAllowedTopic access.app.slug room topicName p scope := by
  unfold buildOf buildApp
  simp only [List.mem_flatMap]
  constructor
  · rintro ⟨room, hroom, he⟩
    split at he
    · cases he
    · rename_i p ts hra
      obtain ⟨topicName, hmem, rfl⟩ := List.mem_map.1 he
      exact ⟨room, hroom, p, topicName, ⟨ts, hra, hmem⟩, rfl⟩
  · rintro ⟨room, hroom, p, topicName, ⟨ts, hra, hmem⟩, rfl⟩
    refine ⟨room, hroom, ?_⟩
    rw [hra]
    exact List.mem_map_of_mem hmem

/-- Every app of the payload was built from an element of `validAppAccess`. -/
theorem of_mem_buildAppAccess {s : Store} {now : Int} {actorToken : ActorToken}
    {scope : ResolvedScope} {appAccess : AppAccess}
    (h : appAccess ∈ buildAppAccess s now actorToken scope) :
    ∃ access ∈ validAppAccess s now actorToken, appAccess.appId = access.app.appId ∧
      appAccess.appSlug = access.app.slug ∧
      appAccess.allowedTopics = (buildOf s now actorToken scope access).allowedTopics := by
  unfold buildAppAccess at h
  split at h
  · cases h
  · obtain ⟨⟨appId, build⟩, hm, rfl⟩ := List.mem_map.1 h
    rw [buildAppsMap_eq] at hm
    obtain ⟨access, ha, rfl, rfl⟩ := OrderedMap.of_mem_ofList hm
    exact ⟨access, ha, rfl, rfl, rfl⟩

/-- Under the schema no element of `validAppAccess` is overwritten. -/
theorem mem_buildAppAccess {s : Store} (hv : s.SchemaValid) {now : Int} {actorToken : ActorToken}
    (scope : ResolvedScope) {access : Access} (h : access ∈ validAppAccess s now actorToken) :
    ∃ appAccess ∈ buildAppAccess s now actorToken scope, appAccess.appId = access.app.appId ∧
      appAccess.appSlug = access.app.slug ∧
      appAccess.allowedTopics = (buildOf s now actorToken scope access).allowedTopics := by
  have hne : (validAppAccess s now actorToken).isEmpty = false := by
    cases hl : validAppAccess s now actorToken with
    | nil => rw [hl] at h; cases h
    | cons a l => rfl
  have hm : (access.app.appId, buildOf s now actorToken scope access) ∈
      (buildAppsMap s now actorToken scope).entries := by
    rw [buildAppsMap_eq]
    exact OrderedMap.mem_ofList (nodup_validAppAccess hv now actorToken) h
  unfold buildAppAccess
  rw [hne, if_neg Bool.false_ne_true]
  exact ⟨_, List.mem_map_of_mem hm, rfl, rfl, rfl⟩

theorem of_liveAppAccess {s : Store} {now : Int} {actorTokenId : Uuid} {app : PlatformApp}
    {access : Access} (h : liveAppAccess s now actorTokenId app = some access) :
    access.app = app ∧
      ((app.accessMode = .open ∧ access.permission = .pubSub ∧ access.topics = none) ∨
        ∃ g, app.accessMode ≠ .open ∧ AppGrant s now actorTokenId app g ∧
          access.permission = g.permission ∧ access.topics = g.topics) := by
  unfold liveAppAccess at h
  split at h
  · rename_i hopen
    cases h
    exact ⟨rfl, .inl ⟨hopen, rfl, rfl⟩⟩
  · rename_i hopen
    split at h
    · cases h
    · rename_i g hg
      split at h
      · cases h
      · rename_i hx
        cases h
        obtain ⟨hrow, hlive, hp⟩ := of_findOne hg
        simp only [Bool.and_eq_true, decide_eq_true_eq] at hp
        refine ⟨rfl, .inr ⟨g, hopen, ⟨hrow, hlive, hp.1.1, hp.1.2, hp.2, ?_⟩, rfl, rfl⟩⟩
        simpa using hx

/-- The live path reaches an app of the project on `OpenElseHeld` terms. -/
theorem liveAppAccess_iff {s : Store} (hv : s.SchemaValid) {now : Int} {actorToken : ActorToken}
    {app : PlatformApp} (home : app.projectId = actorToken.projectId) {access : Access} :
    liveAppAccess s now actorToken.actorTokenId app = some access ↔ access.app = app ∧
      OpenElseHeld s now actorToken.actorTokenId actorToken.projectId app access.permission
        access.topics := by
  constructor
  · intro h
    obtain ⟨happ, ⟨hopen, hp, ht⟩ | ⟨g, hopen, hg, hp, ht⟩⟩ := of_liveAppAccess h
    · rw [hp, ht]
      exact ⟨happ, .opened home hopen⟩
    · rw [hp, ht]
      exact ⟨happ, .held home hopen hg⟩
  · rintro ⟨happ, ht⟩
    obtain ⟨app', p, ts⟩ := access
    cases happ
    unfold liveAppAccess
    cases ht with
    | opened _ hopen => rw [if_pos hopen]
    | @held _ g _ hopen hg =>
      have hfind : findOne s.actorAppAccess (fun g =>
          decide (g.actorTokenId = actorToken.actorTokenId) && decide (g.appId = app'.appId) &&
            g.isActive) = some g := by
        refine findOne_of_unique hg.row hg.isLive ?_ fun g' hm _ hp => ?_
        · simp [hg.actor, hg.onApp, hg.active]
        · simp only [Bool.and_eq_true, decide_eq_true_eq] at hp
          exact hv.appGrant.eq_of_key hm hg.row
            (Prod.ext (hp.1.1.trans hg.actor.symm) (hp.1.2.trans hg.onApp.symm))
      rw [if_neg hopen]
      simp only [hfind, hg.unexpired]
      rfl

/-- The app a live check finds by slug. -/
def appBySlug (s : Store) (actorToken : ActorToken) (appSlug : String) : Option PlatformApp :=
  findOne s.apps fun a => decide (a.slug = appSlug) &&
    decide (a.projectId = actorToken.projectId) && decide (a.status = .active)

/-- The room a live check finds by slug. -/
def roomBySlug (s : Store) (app : PlatformApp) (roomSlug : String) : Option Room :=
  findOne s.rooms fun r => decide (r.slug = roomSlug) && decide (r.appId = app.appId) &&
    decide (r.status = .active)

theorem checkRoom_eq (s : Store) (now : Int) (actorTokenId : String) (actorToken : ActorToken)
    (scope : ResolvedScope) (appSlug roomSlug : String) :
    checkRoom s now actorTokenId actorToken scope appSlug roomSlug =
      match appBySlug s actorToken appSlug with
      | none => deny
      | some app =>
        match liveAppAccess s now actorToken.actorTokenId app with
        | none => deny
        | some access =>
          match roomBySlug s app roomSlug with
          | none => deny
          | some room =>
            match roomAccess now access (liveRoomGrants s actorTokenId actorToken room) with
            | none => deny
            | some (permission, topics) =>
              if (topics.getD []).isEmpty then deny
              else { allow := true
                     appId := some app.appId
                     allowedTopics := (topics.getD []).map fun topicName =>
                       buildAllowedTopic app.slug room topicName permission scope } := rfl

/-- The rows a live check settles on, with what the room contributes. -/
structure Settles (s : Store) (now : Int) (actorTokenId : String) (actorToken : ActorToken)
    (appSlug roomSlug : String) (app : PlatformApp) (access : Access) (room : Room)
    (p : EAccessPermission) (ts : Option (List String)) : Prop where
  byApp : appBySlug s actorToken appSlug = some app
  byAccess : liveAppAccess s now actorToken.actorTokenId app = some access
  byRoom : roomBySlug s app roomSlug = some room
  byGrants : roomAccess now access (liveRoomGrants s actorTokenId actorToken room) = some (p, ts)

/-- A live check grants the topics it settles on, and denies when it settles on none. -/
theorem checkRoom_cases (s : Store) (now : Int) (actorTokenId : String) (actorToken : ActorToken)
    (scope : ResolvedScope) (appSlug roomSlug : String) :
    (∃ app access room p ts,
      Settles s now actorTokenId actorToken appSlug roomSlug app access room p ts ∧
      ts.getD [] ≠ [] ∧ checkRoom s now actorTokenId actorToken scope appSlug roomSlug =
        { allow := true
          appId := some app.appId
          allowedTopics := (ts.getD []).map fun topicName =>
            buildAllowedTopic app.slug room topicName p scope }) ∨
    (checkRoom s now actorTokenId actorToken scope appSlug roomSlug = deny ∧
      ∀ app access room p ts,
        Settles s now actorTokenId actorToken appSlug roomSlug app access room p ts →
        ts.getD [] = []) := by
  unfold checkRoom
  split
  · rename_i happ
    refine .inr ⟨rfl, fun _ _ _ _ _ h => ?_⟩
    exact nomatch happ.symm.trans h.byApp
  · rename_i app happ
    split
    · rename_i hacc
      refine .inr ⟨rfl, fun _ _ _ _ _ h => ?_⟩
      cases happ.symm.trans h.byApp
      exact nomatch hacc.symm.trans h.byAccess
    · rename_i access hacc
      split
      · rename_i hroom
        refine .inr ⟨rfl, fun _ _ _ _ _ h => ?_⟩
        cases happ.symm.trans h.byApp
        exact nomatch hroom.symm.trans h.byRoom
      · rename_i room hroom
        split
        · rename_i hra
          refine .inr ⟨rfl, fun _ _ _ _ _ h => ?_⟩
          cases happ.symm.trans h.byApp
          cases hacc.symm.trans h.byAccess
          cases hroom.symm.trans h.byRoom
          exact nomatch hra.symm.trans h.byGrants
        · rename_i p ts hra
          split
          · rename_i hempty
            refine .inr ⟨rfl, fun _ _ _ _ _ h => ?_⟩
            cases happ.symm.trans h.byApp
            cases hacc.symm.trans h.byAccess
            cases hroom.symm.trans h.byRoom
            cases hra.symm.trans h.byGrants
            exact List.isEmpty_iff.1 hempty
          · rename_i hempty
            refine .inl ⟨app, access, room, p, ts, ⟨happ, hacc, hroom, hra⟩, ?_, rfl⟩
            exact mt List.isEmpty_iff.2 hempty

theorem mem_checkRoom {s : Store} {now : Int} {actorTokenId : String} {actorToken : ActorToken}
    {scope : ResolvedScope} {appSlug roomSlug : String} {e : AllowedTopic} :
    e ∈ (checkRoom s now actorTokenId actorToken scope appSlug roomSlug).allowedTopics ↔
      ∃ app access room p ts,
        Settles s now actorTokenId actorToken appSlug roomSlug app access room p ts ∧
        ∃ topicName ∈ ts.getD [], e = buildAllowedTopic app.slug room topicName p scope := by
  rcases checkRoom_cases s now actorTokenId actorToken scope appSlug roomSlug with
    ⟨app, access, room, p, ts, hs, _, heq⟩ | ⟨heq, hnone⟩
  · rw [heq]
    constructor
    · intro he
      obtain ⟨topicName, hmem, rfl⟩ := List.mem_map.1 he
      exact ⟨app, access, room, p, ts, hs, topicName, hmem, rfl⟩
    · rintro ⟨app', access', room', p', ts', hs', topicName, hmem, rfl⟩
      cases hs.byApp.symm.trans hs'.byApp
      cases hs.byAccess.symm.trans hs'.byAccess
      cases hs.byRoom.symm.trans hs'.byRoom
      cases hs.byGrants.symm.trans hs'.byGrants
      exact List.mem_map_of_mem hmem
  · rw [heq]
    constructor
    · intro he
      cases he
    · rintro ⟨app, access, room, p, ts, hs, topicName, hmem, rfl⟩
      rw [hnone app access room p ts hs] at hmem
      cases hmem

/-- `allow` says that there are topics. -/
theorem checkRoom_allow_iff {s : Store} {now : Int} {actorTokenId : String}
    {actorToken : ActorToken} {scope : ResolvedScope} {appSlug roomSlug : String} :
    (checkRoom s now actorTokenId actorToken scope appSlug roomSlug).allow = true ↔
      ∃ e, e ∈ (checkRoom s now actorTokenId actorToken scope appSlug roomSlug).allowedTopics := by
  rcases checkRoom_cases s now actorTokenId actorToken scope appSlug roomSlug with
    ⟨app, access, room, p, ts, _, hne, heq⟩ | ⟨heq, _⟩
  · rw [heq]
    obtain ⟨topicName, hmem⟩ := List.exists_mem_of_ne_nil _ hne
    exact ⟨fun _ => ⟨_, List.mem_map_of_mem hmem⟩, fun _ => rfl⟩
  · rw [heq]
    constructor
    · intro h
      cases h
    · rintro ⟨_, he⟩
      cases he

end Authz
end NolagCore
