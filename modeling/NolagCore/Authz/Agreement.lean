import NolagCore.Authz.Justified
import NolagCore.Model.Reorder

/-!
# Authz.Agreement

The live check against the batched resolution. Both read the same rows and build their addresses
in one place; they part where an explicit grant meets an open app, where two grants could decide
one room, where a grant leads into another project, on an empty scope slug, and where the check is
given the actor's id in another spelling than the stored one.
-/

namespace NolagCore
namespace Authz

open Lib AccessModel

/-! ## What agreement says -/

/-- The pattern names an app and a room, in the unscoped form or with the actor's own scope. -/
inductive PatternNames (scope : ResolvedScope) (pattern appSlug roomSlug : String) : Prop
  | plain (topicName : String) (h : splitOn '/' pattern = [appSlug, roomSlug, topicName]) :
      PatternNames scope pattern appSlug roomSlug
  | ownScope (scopeSlug topicName : String) (own : scope.scopeSlug = some scopeSlug)
      (h : splitOn '/' pattern = [appSlug, scopeSlug, roomSlug, topicName]) :
      PatternNames scope pattern appSlug roomSlug

/-- The entries of a session for one room slug under one app slug. -/
def PayloadEntry (payload : ActorSessionPayload) (appSlug roomSlug : String) (e : AllowedTopic) :
    Prop :=
  ∃ appAccess ∈ payload.apps,
    appAccess.appSlug = appSlug ∧ e ∈ appAccess.allowedTopics ∧ e.roomSlug = roomSlug

/-- The check, reading `s₁`, answers with the entries of the payload built from `s₂`. -/
def Agree (config : CoreConfig) (s₁ s₂ : Store) (now : Int) (actorTokenId : IdText)
    (pattern appSlug roomSlug : String) : Prop :=
  ∃ payload, revalidateActor config s₂ now actorTokenId.uuid = .valid payload ∧
    (∀ e, e ∈ (checkRoomAccess s₁ now actorTokenId pattern).allowedTopics ↔
      PayloadEntry payload appSlug roomSlug e) ∧
    ((checkRoomAccess s₁ now actorTokenId pattern).allow = true ↔
      ∃ e, PayloadEntry payload appSlug roomSlug e)

/-! ## When they agree -/

/-- What a deciding grant lets through. -/
def Outcome (now : Int) (app : PlatformApp) (g : RoomActorAccess) (p : EAccessPermission)
    (topicName : String) : Prop :=
  expired g.expiresAt now = false ∧ p = g.permission ∧ topicName ∈ topicsOf g.topics app

/-- An active app and an active room of it that the two slugs name. -/
structure SlugRoom (s : Store) (appSlug roomSlug : String) (app : PlatformApp) (room : Room) :
    Prop where
  appRow : app ∈ s.apps
  appLive : live app = true
  appActive : app.status = .active
  appSlug : app.slug = appSlug
  roomRow : room ∈ s.rooms
  roomLive : live room = true
  roomActive : room.status = .active
  roomApp : room.appId = app.appId
  roomSlug : room.slug = roomSlug

/-- The one of the actor's own project. -/
structure HomeRoom (s : Store) (projectId : Uuid) (appSlug roomSlug : String) (app : PlatformApp)
    (room : Room) : Prop extends SlugRoom s appSlug roomSlug app room where
  appHome : app.projectId = projectId

/-- The rows on which the two resolutions coincide. -/
structure RowsAgree (s : Store) (now : Int) (actorTokenId : String) (actorToken : ActorToken)
    (scope : ResolvedScope) (pattern appSlug roomSlug : String) : Prop where
  /-- No grant yields an entry under these slugs in another project. -/
  foreign : ∀ app room p topicName, app.projectId ≠ actorToken.projectId → app.slug = appSlug →
    room.slug = roomSlug →
    ¬ Entry s now actorToken.actorTokenId.text actorToken.actorType
      (HeldElseOpen s now actorToken.actorTokenId actorToken.projectId) app room p topicName
  /-- A scoped pattern with an empty scope segment names a room without entries. -/
  emptyScope : (splitOn '/' pattern).length = 4 → scope.scopeSlug = some "" →
    ∀ app room p topicName, app.slug = appSlug → room.slug = roomSlug →
    ¬ Entry s now actorToken.actorTokenId.text actorToken.actorType
      (HeldElseOpen s now actorToken.actorTokenId actorToken.projectId) app room p topicName
  /-- A grant on an open app gives its public room what the app gives without it. -/
  openGrant : ¬ ((splitOn '/' pattern).length = 4 ∧ scope.scopeSlug = some "") →
    ∀ app room g, HomeRoom s actorToken.projectId appSlug roomSlug app room →
    app.accessMode = .open → AppGrant s now actorToken.actorTokenId app g → IsPublic s room →
    (∀ topicName, topicName ∈ topicsOf g.topics app ↔ topicName ∈ topicsOf none app) ∧
      (g.permission = .pubSub ∨ topicsOf g.topics app = [])
  /-- A grant that may decide the room in the check lets the same through as one that may in the
  session. -/
  oneOutcome : ¬ ((splitOn '/' pattern).length = 4 ∧ scope.scopeSlug = some "") →
    ∀ app room g g', HomeRoom s actorToken.projectId appSlug roomSlug app room →
    (∃ p ts, HeldOrOpen s now actorToken.actorTokenId app p ts) →
    Decides s actorTokenId actorToken.actorType room g →
    Decides s actorToken.actorTokenId.text actorToken.actorType room g' →
    ∀ p topicName, Outcome now app g p topicName ↔ Outcome now app g' p topicName
  /-- Where none decides the room in the check, one that may in the session lets nothing
  through. -/
  unchecked : ¬ ((splitOn '/' pattern).length = 4 ∧ scope.scopeSlug = some "") →
    ∀ app room g', HomeRoom s actorToken.projectId appSlug roomSlug app room →
    (∃ p ts, HeldOrOpen s now actorToken.actorTokenId app p ts) →
    (∀ g, ¬ Decides s actorTokenId actorToken.actorType room g) →
    Decides s actorToken.actorTokenId.text actorToken.actorType room g' →
    ∀ p topicName, ¬ Outcome now app g' p topicName

/-! ## The two answers as sets of rows -/

/-- What a room contributes once its effective grant is known. -/
def Contributes (s : Store) (now : Int) (access : Access) (room : Room)
    (effective : Option RoomActorAccess) (p : EAccessPermission) (topicName : String) : Prop :=
  (IsPublic s room ∧ p = access.permission ∧ topicName ∈ topicsOf access.topics access.app) ∨
    ∃ g, effective = some g ∧ Outcome now access.app g p topicName

section Sets

variable {s : Store} (hv : s.SchemaValid) {now : Int} {actorToken : ActorToken}
include hv

theorem appBySlug_of_home {appSlug : String} {app : PlatformApp} (hrow : app ∈ s.apps)
    (hl : live app = true) (hst : app.status = .active)
    (hhome : app.projectId = actorToken.projectId) (hslug : app.slug = appSlug) :
    appBySlug s actorToken appSlug = some app := by
  refine findOne_of_unique hrow hl (by simp [hslug, hhome, hst]) fun app' hrow' hl' hp => ?_
  simp only [Bool.and_eq_true, decide_eq_true_eq] at hp
  refine hv.appSlug.eq_of_key (List.mem_filter.2 ⟨hrow', hl'⟩) (List.mem_filter.2 ⟨hrow, hl⟩) ?_
  exact Prod.ext (hp.1.2.trans hhome.symm) (hp.1.1.trans hslug.symm)

theorem roomBySlug_of_app {roomSlug : String} {app : PlatformApp} {room : Room}
    (hrow : room ∈ s.rooms) (hl : live room = true) (hst : room.status = .active)
    (happ : room.appId = app.appId) (hslug : room.slug = roomSlug) :
    roomBySlug s app roomSlug = some room := by
  refine findOne_of_unique hrow hl (by simp [hslug, happ, hst]) fun room' hrow' hl' hp => ?_
  simp only [Bool.and_eq_true, decide_eq_true_eq] at hp
  refine hv.roomSlug.eq_of_key (List.mem_filter.2 ⟨hrow', hl'⟩) (List.mem_filter.2 ⟨hrow, hl⟩) ?_
  exact Prod.ext (hp.1.2.trans happ.symm) (hp.1.1.trans hslug.symm)

theorem mem_checkRoom_iff {actorTokenId : String} {scope : ResolvedScope}
    {appSlug roomSlug : String} {e : AllowedTopic} :
    e ∈ (checkRoom s now actorTokenId actorToken scope appSlug roomSlug).allowedTopics ↔
      ∃ access room p topicName,
        HomeRoom s actorToken.projectId appSlug roomSlug access.app room ∧
        OpenElseHeld s now actorToken.actorTokenId actorToken.projectId access.app
          access.permission access.topics ∧
        Contributes s now access room (liveRoomGrants s actorTokenId actorToken room).effective p
          topicName ∧
        e = buildAllowedTopic appSlug room topicName p scope := by
  rw [mem_checkRoom]
  constructor
  · rintro ⟨app, access, room, p, ts, hs, topicName, hmem, rfl⟩
    obtain ⟨ha1, ha2, ha3, ha4, ha5⟩ := of_appBySlug hs.byApp
    obtain ⟨hr1, hr2, hr3, hr4, hr5⟩ := of_roomBySlug hs.byRoom
    obtain ⟨happ, hterms⟩ := (liveAppAccess_iff hv ha4).1 hs.byAccess
    have hc := (roomAccess_iff (reads_live s actorTokenId actorToken room)).1
      ⟨ts, hs.byGrants, hmem⟩
    subst happ
    exact ⟨access, room, p, topicName, ⟨⟨ha1, ha2, ha5, ha3, hr1, hr2, hr5, hr4, hr3⟩, ha4⟩,
      hterms, hc, by rw [ha3]⟩
  · rintro ⟨access, room, p, topicName, h, hterms, hc, rfl⟩
    obtain ⟨ts, hra, hmem⟩ := (roomAccess_iff (reads_live s actorTokenId actorToken room)).2 hc
    refine ⟨access.app, access, room, p, ts, ⟨?_, ?_, ?_, hra⟩, topicName, hmem, by rw [h.appSlug]⟩
    · exact appBySlug_of_home hv h.appRow h.appLive h.appActive h.appHome h.appSlug
    · exact (liveAppAccess_iff hv h.appHome).2 ⟨rfl, hterms⟩
    · exact roomBySlug_of_app hv h.roomRow h.roomLive h.roomActive h.roomApp h.roomSlug

theorem payloadEntry_iff {payload : ActorSessionPayload} {scope : ResolvedScope}
    (happs : payload.apps = buildAppAccess s now actorToken scope) {appSlug roomSlug : String}
    {e : AllowedTopic} :
    PayloadEntry payload appSlug roomSlug e ↔
      ∃ access room p topicName, SlugRoom s appSlug roomSlug access.app room ∧
        HeldElseOpen s now actorToken.actorTokenId actorToken.projectId access.app
          access.permission access.topics ∧
        Contributes s now access room (batchedRoomGrants s actorToken room).effective p topicName ∧
        e = buildAllowedTopic appSlug room topicName p scope := by
  unfold PayloadEntry
  rw [happs]
  constructor
  · rintro ⟨appAccess, hm, hslug, he, hroom⟩
    obtain ⟨access, ha, _, hs, htopics⟩ := of_mem_buildAppAccess hm
    obtain ⟨h1, h2, h3, h4⟩ := (mem_validAppAccess hv).1 ha
    rw [htopics] at he
    obtain ⟨room, hr, p, topicName, hra, rfl⟩ := mem_allowedTopics.1 he
    obtain ⟨r1, r2, r3, r4⟩ := mem_activeRooms.1 hr
    have hc := (roomAccess_iff (reads_batched s actorToken room)).1 hra
    exact ⟨access, room, p, topicName, ⟨h1, h2, h3, hs.symm.trans hslug, r1, r2, r4, r3, hroom⟩,
      h4, hc, by rw [← hs, hslug]⟩
  · rintro ⟨access, room, p, topicName, h, h4, hc, rfl⟩
    have ha := (mem_validAppAccess hv).2 ⟨h.appRow, h.appLive, h.appActive, h4⟩
    obtain ⟨appAccess, hm, _, hs, htopics⟩ := mem_buildAppAccess hv scope ha
    refine ⟨appAccess, hm, hs.trans h.appSlug, ?_, h.roomSlug⟩
    rw [htopics, mem_allowedTopics]
    exact ⟨room, mem_activeRooms.2 ⟨h.roomRow, h.roomLive, h.roomApp, h.roomActive⟩, p, topicName,
      (roomAccess_iff (reads_batched s actorToken room)).2 hc, by rw [h.appSlug]⟩

end Sets

/-! ## Reading the rows in another order -/

section Reordered

variable {s s' : Store} (h : s.Reorder s') {now : Int} {actorTokenId projectId : Uuid}
  {app : PlatformApp} {room : Room}
include h

theorem appGrant_reorder {g : ActorAppAccess} (hg : AppGrant s now actorTokenId app g) :
    AppGrant s' now actorTokenId app g :=
  { hg with row := h.actorAppAccess.subset hg.row }

theorem onRoom_reorder {ra : RoomActorAccess} (hr : OnRoom s room ra) : OnRoom s' room ra :=
  { hr with row := h.roomActorAccess.subset hr.row }

theorem isPublic_reorder (hp : IsPublic s room) : IsPublic s' room :=
  fun ra hr => hp ra (onRoom_reorder h.symm hr)

theorem decides_reorder {text : String} {actorType : EActorType} {ra : RoomActorAccess}
    (hd : Decides s text actorType room ra) : Decides s' text actorType room ra := by
  cases hd with
  | named on names => exact .named (onRoom_reorder h on) names
  | typed on active unnamed type none_names =>
    exact .typed (onRoom_reorder h on) active unnamed type fun ra' hr =>
      none_names ra' (onRoom_reorder h.symm hr)

theorem heldElseOpen_reorder {p : EAccessPermission} {ts : Option (List String)}
    (ht : HeldElseOpen s now actorTokenId projectId app p ts) :
    HeldElseOpen s' now actorTokenId projectId app p ts := by
  cases ht with
  | held hg => exact .held (appGrant_reorder h hg)
  | opened home hopen unheld =>
    exact .opened home hopen fun g hg => unheld g (appGrant_reorder h.symm hg)

theorem openElseHeld_reorder {p : EAccessPermission} {ts : Option (List String)}
    (ht : OpenElseHeld s now actorTokenId projectId app p ts) :
    OpenElseHeld s' now actorTokenId projectId app p ts := by
  cases ht with
  | opened home hopen => exact .opened home hopen
  | held home hopen hg => exact .held home hopen (appGrant_reorder h hg)

theorem slugRoom_reorder {appSlug roomSlug : String} (hr : SlugRoom s appSlug roomSlug app room) :
    SlugRoom s' appSlug roomSlug app room :=
  { hr with appRow := h.apps.subset hr.appRow, roomRow := h.rooms.subset hr.roomRow }

theorem homeRoom_reorder {appSlug roomSlug : String}
    (hr : HomeRoom s projectId appSlug roomSlug app room) :
    HomeRoom s' projectId appSlug roomSlug app room :=
  ⟨slugRoom_reorder h hr.toSlugRoom, hr.appHome⟩

theorem findActor_reorder (hv : s.SchemaValid) : findActor s' actorTokenId =
    findActor s actorTokenId := by
  refine findOne_perm h.actorTokens fun a ha a' ha' _ _ hp hp' => ?_
  exact hv.pkActor.eq_of_key ha ha' ((of_decide_eq_true hp).trans (of_decide_eq_true hp').symm)

theorem resolveScope_reorder (hv : s.SchemaValid) (actorToken : ActorToken) :
    resolveScope s' actorToken = resolveScope s actorToken := by
  unfold resolveScope
  cases actorToken.accessScopeId with
  | none => rfl
  | some accessScopeId =>
    have hf := findOne_perm h.accessScopes (p := fun r => decide (r.accessScopeId = accessScopeId) &&
      decide (r.projectId = actorToken.projectId)) fun r hr r' hr' _ _ hp hp' => ?_
    · dsimp only
      rw [hf]
    · simp only [Bool.and_eq_true, decide_eq_true_eq] at hp hp'
      exact hv.pkScope.eq_of_key hr hr' (hp.1.trans hp'.1.symm)

/-- A session that is granted on one reading of the rows is granted on every other. -/
theorem buildSessionPayload_reorder (hv : s.SchemaValid) {config : CoreConfig}
    {actorToken : ActorToken} {payload : ActorSessionPayload}
    (hp : buildSessionPayload config s now actorToken = .ok payload) :
    ∃ payload', buildSessionPayload config s' now actorToken = .ok payload' := by
  obtain ⟨project, scope, hproject, hscope, _⟩ := of_buildSessionPayload hp
  have hproject' := findOne_perm h.projects (p := fun p => decide (p.projectId =
    actorToken.projectId)) fun r hr r' hr' _ _ hp hp' => hv.pkProject.eq_of_key hr hr'
      ((of_decide_eq_true hp).trans (of_decide_eq_true hp').symm)
  rw [hproject] at hproject'
  have hscope' := (resolveScope_reorder h hv actorToken).trans hscope
  unfold buildSessionPayload
  simp only [hproject', hscope']
  exact ⟨_, rfl⟩

end Reordered

/-! ## Every deciding grant is effective in some order -/

theorem find?_namesActor_of_typed {s : Store} {actorTokenId : String} {room : Room}
    (hnone : ∀ ra, OnRoom s room ra → ¬ Names actorTokenId ra) :
    (grantsOn s room).filter (namesActor actorTokenId) = [] := by
  rw [List.filter_eq_nil_iff]
  intro ra hra hn
  exact hnone ra (mem_grantsOn.1 hra) (namesActor_iff.1 hn)

theorem effective_head {s : Store} {actorTokenId : String} {actorToken : ActorToken} {room : Room}
    {g : RoomActorAccess} (hd : Decides s actorTokenId actorToken.actorType room g)
    {l : List RoomActorAccess} (hl : s.roomActorAccess = g :: l) :
    (liveRoomGrants s actorTokenId actorToken room).effective = some g := by
  have hon := hd.on
  have hlist : grantsOn s room = g :: findAll l fun ra => decide (ra.roomId = room.roomId) := by
    unfold grantsOn findAll
    rw [hl, List.filter_cons_of_pos]
    simp [hon.isLive, hon.onRoom]
  change ((grantsOn s room).find? _).or ((grantsOn s room).find? _) = some g
  cases hd with
  | named on names =>
    rw [hlist, List.find?_cons_of_pos (namesActor_iff.2 names)]
    rfl
  | typed on active unnamed type none_names =>
    rw [← List.head?_filter, find?_namesActor_of_typed none_names, hlist,
      List.find?_cons_of_pos (namesType_iff.2 ⟨unnamed, type, active⟩)]
    rfl

theorem exists_scan_live {s : Store} {actorTokenId : String} {actorToken : ActorToken} {room : Room}
    {g : RoomActorAccess} (hd : Decides s actorTokenId actorToken.actorType room g) :
    ∃ s', s.Scans s' ∧ (liveRoomGrants s' actorTokenId actorToken room).effective = some g := by
  have hp := Store.Scans.ofRoomGrants (List.perm_cons_erase hd.on.row)
  exact ⟨_, hp, effective_head (decides_reorder hp.toReorder hd) rfl⟩

theorem exists_scan_batched {s : Store} {actorToken : ActorToken} {room : Room}
    {g : RoomActorAccess}
    (hd : Decides s actorToken.actorTokenId.text actorToken.actorType room g) :
    ∃ s', s.Scans s' ∧ (batchedRoomGrants s' actorToken room).effective = some g := by
  cases hd with
  | named on names =>
    have hp := Store.Scans.ofRoomGrants
      ((List.perm_cons_erase on.row).trans (List.perm_append_singleton g _).symm)
    refine ⟨_, hp, ?_⟩
    have hkeep : (live g && decide (g.roomId = room.roomId)) = true := by
      simp [on.isLive, on.onRoom]
    unfold batchedRoomGrants grantsOn findAll
    dsimp only
    rw [List.filter_append, List.filter_append, List.filter_singleton, hkeep]
    simp [namesActor_iff.2 names]
  | typed on active unnamed type none_names =>
    have hd' : Decides s actorToken.actorTokenId.text actorToken.actorType room g :=
      .typed on active unnamed type none_names
    obtain ⟨s', hp, heff⟩ := exists_scan_live hd'
    refine ⟨s', hp, ?_⟩
    have hnone : (grantsOn s' room).filter (namesActor actorToken.actorTokenId.text) = [] :=
      find?_namesActor_of_typed fun ra hr => none_names ra (onRoom_reorder hp.symm.toReorder hr)
    change ((grantsOn s' room).find? _).or ((grantsOn s' room).find? _) = some g at heff
    rw [← List.head?_filter, hnone] at heff
    unfold batchedRoomGrants
    rw [hnone]
    exact heff

/-! ## From the rows to the answers -/

theorem parsePattern_of_names {scope : ResolvedScope} {pattern appSlug roomSlug : String}
    (h : PatternNames scope pattern appSlug roomSlug) : parsePattern scope pattern =
      if (splitOn '/' pattern).length = 4 ∧ scope.scopeSlug = some "" then none
      else some (appSlug, roomSlug) := by
  unfold parsePattern
  cases h with
  | plain topicName h => simp [h]
  | ownScope scopeSlug topicName own h =>
    by_cases he : scopeSlug = "" <;> simp [h, own, truthy, he]

/-- An address names its room and its topic. -/
theorem buildAllowedTopic_inj {appSlug appSlug' : String} {room room' : Room} {t t' : String}
    {p p' : EAccessPermission} {scope scope' : ResolvedScope}
    (h : buildAllowedTopic appSlug room t p scope =
      buildAllowedTopic appSlug' room' t' p' scope') :
    room.roomId = room'.roomId ∧ p = p' ∧ t = t' := by
  have hroom : room.roomId = room'.roomId := congrArg AllowedTopic.roomId h
  have hperm : p = p' := congrArg AllowedTopic.permission h
  have hscope : scope.scopeId = scope'.scopeId := congrArg AllowedTopic.scopeId h
  refine ⟨hroom, hperm, ?_⟩
  have htopic := congrArg AllowedTopic.topic h
  unfold buildAllowedTopic at htopic
  dsimp only at htopic
  rw [hroom, hscope] at htopic
  cases hid : scope'.scopeId with
  | none => simpa [hid] using htopic
  | some id => simpa [hid] using htopic

theorem OpenElseHeld_of {s : Store} {now : Int} {actorTokenId projectId : Uuid} {app : PlatformApp}
    (home : app.projectId = projectId) {p : EAccessPermission} {ts : Option (List String)}
    (h : HeldElseOpen s now actorTokenId projectId app p ts) :
    ∃ p' ts', OpenElseHeld s now actorTokenId projectId app p' ts' := by
  by_cases hopen : app.accessMode = .open
  · exact ⟨_, _, .opened home hopen⟩
  · cases h with
    | held hg => exact ⟨_, _, .held home hopen hg⟩
    | opened _ ho _ => exact absurd ho hopen

theorem HeldElseOpen_of {s : Store} {now : Int} {actorTokenId projectId : Uuid} {app : PlatformApp}
    {p : EAccessPermission} {ts : Option (List String)}
    (h : OpenElseHeld s now actorTokenId projectId app p ts) :
    ∃ p' ts', HeldElseOpen s now actorTokenId projectId app p' ts' := by
  by_cases hg : ∃ g, AppGrant s now actorTokenId app g
  · obtain ⟨g, hg⟩ := hg
    exact ⟨_, _, .held hg⟩
  · cases h with
    | opened home hopen => exact ⟨_, _, .opened home hopen fun g h => hg ⟨g, h⟩⟩
    | held _ _ h => exact absurd ⟨_, h⟩ hg

/-- Any spelling of the id meets a grant that decides where another does by its type. -/
theorem exists_decides_of_text {s : Store} {actorTokenId : IdText} {actorType : EActorType}
    {room : Room} {g : RoomActorAccess} (h : Decides s actorTokenId.text actorType room g) :
    ∃ g', Decides s actorTokenId.uuid.text actorType room g' := by
  cases h with
  | named on names =>
    have hstored : actorTokenId.text = actorTokenId.uuid.text := stored_of_names names
    exact ⟨g, .named on (hstored ▸ names)⟩
  | typed on active unnamed type _ =>
    by_cases hn : ∃ g', OnRoom s room g' ∧ Names actorTokenId.uuid.text g'
    · obtain ⟨g', on', names⟩ := hn
      exact ⟨g', .named on' names⟩
    · exact ⟨g, .typed on active unnamed type fun g' on' names => hn ⟨g', on', names⟩⟩

/-- Where deciding grants let the same through, it does not matter which one is effective. -/
theorem outcome_transfer {s s₁ s₂ : Store} (h₁ : s.Reorder s₁) (h₂ : s.Reorder s₂) {now : Int}
    {text₁ text₂ : String} {actorType : EActorType} {app : PlatformApp} {room : Room}
    {grants₁ grants₂ : RoomGrants} (hr₁ : Reads s₁ text₁ actorType room grants₁)
    (hr₂ : Reads s₂ text₂ actorType room grants₂)
    (hone : ∀ g g', Decides s text₁ actorType room g → Decides s text₂ actorType room g' →
      ∀ p topicName, Outcome now app g p topicName → Outcome now app g' p topicName)
    (hsome : ∀ g, Decides s text₁ actorType room g → (∀ g', ¬ Decides s text₂ actorType room g') →
      ∀ p topicName, ¬ Outcome now app g p topicName)
    {g : RoomActorAccess} (hg : grants₁.effective = some g) {p : EAccessPermission}
    {topicName : String} (ho : Outcome now app g p topicName) :
    ∃ g', grants₂.effective = some g' ∧ Outcome now app g' p topicName := by
  have hd := decides_reorder h₁.symm (hr₁.sound g hg)
  cases heff : grants₂.effective with
  | none =>
    have hnone : ∀ g', ¬ Decides s text₂ actorType room g' := fun g' hd' =>
      hr₂.complete heff g' (decides_reorder h₂ hd')
    exact absurd ho (hsome g hd hnone p topicName)
  | some g' =>
    have hd' := decides_reorder h₂.symm (hr₂.sound g' heff)
    exact ⟨g', rfl, hone g g' hd hd' p topicName ho⟩

/-- An element of the payload's set is an entry on the rows. -/
theorem entry_of_contributes {s : Store} {now : Int} {actorToken : ActorToken} {access : Access}
    {room : Room} {appSlug roomSlug : String} {p : EAccessPermission} {topicName : String}
    (h : SlugRoom s appSlug roomSlug access.app room)
    (ht : HeldElseOpen s now actorToken.actorTokenId actorToken.projectId access.app
      access.permission access.topics)
    (hc : Contributes s now access room (batchedRoomGrants s actorToken room).effective p
      topicName) :
    Entry s now actorToken.actorTokenId.text actorToken.actorType
      (HeldElseOpen s now actorToken.actorTokenId actorToken.projectId) access.app room p
      topicName := by
  refine ⟨h.appRow, h.appLive, h.appActive, h.roomRow, h.roomLive, h.roomActive, h.roomApp,
    _, _, ht, ?_⟩
  rcases hc with ⟨hp, rfl, hmem⟩ | ⟨g, hg, hx, rfl, hmem⟩
  · exact .isPublic hp hmem
  · exact .isPrivate ((reads_batched s actorToken room).sound g hg) hx hmem

theorem entry_reorder {s s' : Store} (h : s.Reorder s') {now : Int} {actorToken : ActorToken}
    {app : PlatformApp} {room : Room} {p : EAccessPermission} {topicName : String}
    (he : Entry s now actorToken.actorTokenId.text actorToken.actorType
      (HeldElseOpen s now actorToken.actorTokenId actorToken.projectId) app room p topicName) :
    Entry s' now actorToken.actorTokenId.text actorToken.actorType
      (HeldElseOpen s' now actorToken.actorTokenId actorToken.projectId) app room p topicName := by
  obtain ⟨h1, h2, h3, r1, r2, r4, r3, q, ts, ht, hy⟩ := he
  refine ⟨h.apps.subset h1, h2, h3, h.rooms.subset r1, r2, r4, r3, q, ts,
    heldElseOpen_reorder h ht, ?_⟩
  cases hy with
  | isPublic hp hmem => exact .isPublic (isPublic_reorder h hp) hmem
  | isPrivate hd hx hmem => exact .isPrivate (decides_reorder h hd) hx hmem

/-- A grant on an open app that gives its public room a topic gives what the app does. -/
theorem RowsAgree.pubSub {s : Store} {now : Int} {actorTokenId : String} {actorToken : ActorToken}
    {scope : ResolvedScope} {pattern appSlug roomSlug : String}
    (hrows : RowsAgree s now actorTokenId actorToken scope pattern appSlug roomSlug)
    (hne : ¬ ((splitOn '/' pattern).length = 4 ∧ scope.scopeSlug = some ""))
    {app : PlatformApp} {room : Room} {g : ActorAppAccess}
    (hhome : HomeRoom s actorToken.projectId appSlug roomSlug app room)
    (hopen : app.accessMode = .open) (hgrant : AppGrant s now actorToken.actorTokenId app g)
    (hpub : IsPublic s room) {topicName : String} (hmem : topicName ∈ topicsOf g.topics app) :
    g.permission = .pubSub := by
  obtain ⟨-, hperm⟩ := hrows.openGrant hne app room g hhome hopen hgrant hpub
  rcases hperm with hperm | hempty
  · exact hperm
  · rw [hempty] at hmem
    cases hmem

section Transfer

variable {s s₁ s₂ : Store} (hv : s.SchemaValid) (h₁ : s.Reorder s₁) (h₂ : s.Reorder s₂) {now : Int}
  {actorTokenId : IdText} {actorToken : ActorToken}
  (hid : actorToken.actorTokenId = actorTokenId.uuid) {scope : ResolvedScope}
  {pattern appSlug roomSlug : String}
  (hrows : RowsAgree s now actorTokenId.text actorToken scope pattern appSlug roomSlug)
  (hne : ¬ ((splitOn '/' pattern).length = 4 ∧ scope.scopeSlug = some ""))
  {payload : ActorSessionPayload} (happs : payload.apps = buildAppAccess s₂ now actorToken scope)
include hv h₁ h₂ hid hrows hne happs

/-- What the room check lets through the session holds. -/
theorem payloadEntry_of_checked {e : AllowedTopic}
    (he : e ∈
      (checkRoom s₁ now actorTokenId.text actorToken scope appSlug roomSlug).allowedTopics) :
    PayloadEntry payload appSlug roomSlug e := by
  obtain ⟨access, room, p, topicName, hhome₁, hterms₁, hc, rfl⟩ :=
    (mem_checkRoom_iff (h₁.valid hv)).1 he
  have hhome := homeRoom_reorder h₁.symm hhome₁
  have hslug₂ := slugRoom_reorder h₂ hhome.toSlugRoom
  have hterms := openElseHeld_reorder h₁.symm hterms₁
  rw [payloadEntry_iff (h₂.valid hv) happs]
  rcases hc with ⟨hpub₁, rfl, hmem⟩ | ⟨g, hg, ho⟩
  · have hpub := isPublic_reorder h₁.symm hpub₁
    have hpub₂ := isPublic_reorder h₂ hpub
    obtain ⟨app, q, ts⟩ := access
    cases hterms with
    | opened home hopen =>
      by_cases hgrant : ∃ g, AppGrant s now actorToken.actorTokenId app g
      · -- the session goes by the grant, which gives the topic on the same terms
        obtain ⟨g, hgrant⟩ := hgrant
        obtain ⟨hset, -⟩ := hrows.openGrant hne app room g hhome hopen hgrant hpub
        have hmem' := (hset topicName).2 hmem
        have hpubSub := hrows.pubSub hne hhome hopen hgrant hpub hmem'
        exact ⟨⟨app, g.permission, g.topics⟩, room, .pubSub, topicName, hslug₂,
          heldElseOpen_reorder h₂ (.held hgrant), .inl ⟨hpub₂, hpubSub.symm, hmem'⟩, rfl⟩
      · have ht : HeldElseOpen s now actorToken.actorTokenId actorToken.projectId app .pubSub
            none := .opened home hopen fun g h => hgrant ⟨g, h⟩
        exact ⟨⟨app, .pubSub, none⟩, room, _, topicName, hslug₂, heldElseOpen_reorder h₂ ht,
          .inl ⟨hpub₂, rfl, hmem⟩, rfl⟩
    | @held _ g home hopen hgrant =>
      exact ⟨⟨app, g.permission, g.topics⟩, room, _, topicName, hslug₂,
        heldElseOpen_reorder h₂ (.held hgrant), .inl ⟨hpub₂, rfl, hmem⟩, rfl⟩
  · have hreach : ∃ p ts, HeldOrOpen s now actorToken.actorTokenId access.app p ts :=
      ⟨_, _, hterms.heldOrOpen⟩
    obtain ⟨g', hg', ho'⟩ := outcome_transfer h₁ h₂
      (reads_live s₁ actorTokenId.text actorToken room) (reads_batched s₂ actorToken room)
      (fun g g' hd hd' p t => (hrows.oneOutcome hne _ room g g' hhome hreach hd hd' p t).1)
      (fun g hd hnone => by
        obtain ⟨g', hd'⟩ := exists_decides_of_text hd
        exact absurd (hid ▸ hd') (hnone g')) hg ho
    obtain ⟨p', ts', ht⟩ := HeldElseOpen_of hterms
    exact ⟨⟨access.app, p', ts'⟩, room, p, topicName, hslug₂, heldElseOpen_reorder h₂ ht,
      .inr ⟨g', hg', ho'⟩, rfl⟩

omit hid in
/-- What the session holds the room check lets through. -/
theorem checked_of_payloadEntry {e : AllowedTopic} (he : PayloadEntry payload appSlug roomSlug e) :
    e ∈ (checkRoom s₁ now actorTokenId.text actorToken scope appSlug roomSlug).allowedTopics := by
  obtain ⟨access, room, p, topicName, hslug₂, ht₂, hc, rfl⟩ :=
    (payloadEntry_iff (h₂.valid hv) happs).1 he
  have ht := heldElseOpen_reorder h₂.symm ht₂
  have home : access.app.projectId = actorToken.projectId := by
    by_contra hfar
    exact hrows.foreign _ room p topicName hfar hslug₂.appSlug hslug₂.roomSlug
      (entry_reorder h₂.symm (entry_of_contributes hslug₂ ht₂ hc))
  have hhome : HomeRoom s actorToken.projectId appSlug roomSlug access.app room :=
    ⟨slugRoom_reorder h₂.symm hslug₂, home⟩
  have hhome₁ := homeRoom_reorder h₁ hhome
  rw [mem_checkRoom_iff (h₁.valid hv)]
  rcases hc with ⟨hpub₂, rfl, hmem⟩ | ⟨g, hg, ho⟩
  · have hpub := isPublic_reorder h₂.symm hpub₂
    have hpub₁ := isPublic_reorder h₁ hpub
    obtain ⟨app, q, ts⟩ := access
    cases ht with
    | opened _ hopen _ =>
      exact ⟨⟨app, .pubSub, none⟩, room, _, topicName, hhome₁, .opened home hopen,
        .inl ⟨hpub₁, rfl, hmem⟩, rfl⟩
    | @held _ g hgrant =>
      by_cases hopen : app.accessMode = .open
      · -- the check goes by the open app, which gives the topic on the same terms
        obtain ⟨hset, -⟩ := hrows.openGrant hne app room g hhome hopen hgrant hpub
        have hpubSub := hrows.pubSub hne hhome hopen hgrant hpub hmem
        exact ⟨⟨app, .pubSub, none⟩, room, _, topicName, hhome₁, .opened home hopen,
          .inl ⟨hpub₁, hpubSub, (hset topicName).1 hmem⟩, rfl⟩
      · exact ⟨⟨app, g.permission, g.topics⟩, room, _, topicName, hhome₁,
          .held home hopen (appGrant_reorder h₁ hgrant), .inl ⟨hpub₁, rfl, hmem⟩, rfl⟩
  · have hreach : ∃ p ts, HeldOrOpen s now actorToken.actorTokenId access.app p ts :=
      ⟨_, _, ht.heldOrOpen⟩
    obtain ⟨g', hg', ho'⟩ := outcome_transfer h₂ h₁ (reads_batched s₂ actorToken room)
      (reads_live s₁ actorTokenId.text actorToken room)
      (fun g g' hd hd' p t => (hrows.oneOutcome hne _ room g' g hhome hreach hd' hd p t).2)
      (fun g hd hnone => hrows.unchecked hne _ room g hhome hreach hnone hd) hg ho
    obtain ⟨p', ts', hterms⟩ := OpenElseHeld_of home ht
    exact ⟨⟨access.app, p', ts'⟩, room, p, topicName, hhome₁, openElseHeld_reorder h₁ hterms,
      .inr ⟨g', hg', ho'⟩, rfl⟩

/-- On rows that agree, both answers hold the same entries, whatever order each is read in. -/
theorem sets_agree (e : AllowedTopic) :
    e ∈ (checkRoom s₁ now actorTokenId.text actorToken scope appSlug roomSlug).allowedTopics ↔
      PayloadEntry payload appSlug roomSlug e := by
  constructor
  · exact payloadEntry_of_checked hv h₁ h₂ hid hrows hne happs
  · exact checked_of_payloadEntry hv h₁ h₂ hrows hne happs

end Transfer

/-! ## From the answers to the rows -/

/-- An address determines its room, hence its app, and the topic and permission with it. -/
theorem rows_of_address {s : Store} (hv : s.SchemaValid) {appSlug roomSlug : String}
    {app app' : PlatformApp} {room room' : Room} (h : SlugRoom s appSlug roomSlug app room)
    (h' : SlugRoom s appSlug roomSlug app' room') {t t' : String} {p p' : EAccessPermission}
    {scope : ResolvedScope} (heq : buildAllowedTopic appSlug room t p scope =
      buildAllowedTopic appSlug room' t' p' scope) :
    app = app' ∧ room = room' ∧ p = p' ∧ t = t' := by
  obtain ⟨hid, hp, ht⟩ := buildAllowedTopic_inj heq
  have hroom := hv.pkRoom.eq_of_key h.roomRow h'.roomRow hid
  subst hroom
  exact ⟨hv.pkApp.eq_of_key h.appRow h'.appRow (h.roomApp.symm.trans h'.roomApp), rfl, hp, ht⟩

/-- The session's scope name plays no part in its entries. -/
theorem buildAppAccess_scopeName (s : Store) (now : Int) (actorToken : ActorToken)
    (scope : ResolvedScope) : buildAppAccess s now actorToken
      { scopeId := scope.scopeId, scopeSlug := scope.scopeSlug } =
        buildAppAccess s now actorToken scope := rfl

/-- An entry on the rows appears in the payload of some reading of them. -/
theorem entry_appears {s : Store} (hv : s.SchemaValid) {now : Int} {actorToken : ActorToken}
    (scope : ResolvedScope) {appSlug roomSlug : String} {app : PlatformApp} {room : Room} {p : EAccessPermission}
    {topicName : String} (he : Entry s now actorToken.actorTokenId.text actorToken.actorType
      (HeldElseOpen s now actorToken.actorTokenId actorToken.projectId) app room p topicName)
    (happ : app.slug = appSlug) (hroom : room.slug = roomSlug) :
    ∃ s₂, s.Reorder s₂ ∧ ∀ payload₂ : ActorSessionPayload,
      payload₂.apps = buildAppAccess s₂ now actorToken scope →
      PayloadEntry payload₂ appSlug roomSlug
        (buildAllowedTopic appSlug room topicName p scope) := by
  obtain ⟨h1, h2, h3, r1, r2, r4, r3, q, ts, ht, hy⟩ := he
  have hslug : SlugRoom s appSlug roomSlug app room := ⟨h1, h2, h3, happ, r1, r2, r4, r3, hroom⟩
  cases hy with
  | isPublic hp hmem =>
    refine ⟨s, .refl s, fun payload₂ happs => (payloadEntry_iff hv happs).2 ?_⟩
    exact ⟨⟨app, p, ts⟩, room, p, topicName, hslug, ht, .inl ⟨hp, rfl, hmem⟩, rfl⟩
  | @isPrivate ra _ hd hx hmem =>
    obtain ⟨s₂, ⟨h₂, _⟩, heff⟩ := exists_scan_batched hd
    refine ⟨s₂, h₂, fun payload₂ happs => (payloadEntry_iff (h₂.valid hv) happs).2 ?_⟩
    exact ⟨⟨app, q, ts⟩, room, ra.permission, topicName, slugRoom_reorder h₂ hslug,
      heldElseOpen_reorder h₂ ht, .inr ⟨ra, heff, hx, rfl, hmem⟩, rfl⟩

/-- On the public room of an open app the live check goes by the app. -/
theorem live_open_iff {s : Store} {now : Int} {actorTokenId : String} {actorToken : ActorToken}
    {app : PlatformApp} {room : Room} (hhome : app.projectId = actorToken.projectId)
    (hopen : app.accessMode = .open) (hpub : IsPublic s room) (p : EAccessPermission) (topicName : String) :
    (∃ q ts, OpenElseHeld s now actorToken.actorTokenId actorToken.projectId app q ts ∧
      Contributes s now ⟨app, q, ts⟩ room (liveRoomGrants s actorTokenId actorToken room).effective
        p topicName) ↔ p = .pubSub ∧ topicName ∈ topicsOf none app := by
  constructor
  · rintro ⟨q, ts, ht, ⟨_, hp, hmem⟩ | ⟨g', hg', _⟩⟩
    · cases ht with
      | opened _ _ => exact ⟨hp, hmem⟩
      | held _ hrestricted _ => exact absurd hopen hrestricted
    · exact absurd ((reads_live s actorTokenId actorToken room).sound g' hg').on (hpub g')
  · rintro ⟨rfl, hmem⟩
    exact ⟨_, _, .opened hhome hopen, .inl ⟨hpub, rfl, hmem⟩⟩

/-- On the public room of an app the actor has a grant on, the session goes by the grant. -/
theorem batched_held_iff {s : Store} (hv : s.SchemaValid) {now : Int} {actorToken : ActorToken}
    {app : PlatformApp} {room : Room} {g : ActorAppAccess}
    (hg : AppGrant s now actorToken.actorTokenId app g) (hpub : IsPublic s room)
    (p : EAccessPermission) (topicName : String) :
    (∃ q ts, HeldElseOpen s now actorToken.actorTokenId actorToken.projectId app q ts ∧
      Contributes s now ⟨app, q, ts⟩ room (batchedRoomGrants s actorToken room).effective p
        topicName) ↔ p = g.permission ∧ topicName ∈ topicsOf g.topics app := by
  constructor
  · rintro ⟨q, ts, ht, ⟨_, hp, hmem⟩ | ⟨g', hg', _⟩⟩
    · cases ht with
      | opened _ _ hunheld => exact absurd hg (hunheld g)
      | held hg' =>
        cases appGrant_unique hv hg hg'
        exact ⟨hp, hmem⟩
    · exact absurd ((reads_batched s actorToken room).sound g' hg').on (hpub g')
  · rintro ⟨rfl, hmem⟩
    exact ⟨_, _, .held hg, .inl ⟨hpub, rfl, hmem⟩⟩

/-- The terms on which the check reaches an app of the project that a grant or its mode opens. -/
theorem checked_terms {s : Store} {now : Int} {actorToken : ActorToken} {app : PlatformApp}
    (home : app.projectId = actorToken.projectId)
    (hreach : ∃ p ts, HeldOrOpen s now actorToken.actorTokenId app p ts) :
    ∃ q ts, OpenElseHeld s now actorToken.actorTokenId actorToken.projectId app q ts := by
  obtain ⟨q, ts, ht⟩ := hreach
  by_cases hopen : app.accessMode = .open
  · exact ⟨_, _, .opened home hopen⟩
  · cases ht with
    | held h => exact ⟨_, _, .held home hopen h⟩
    | opened h => exact absurd h hopen

section Converse

variable {config : CoreConfig} {s : Store} (hv : s.SchemaValid) {now : Int} {actorTokenId : IdText}
  {actorToken : ActorToken} {scope : ResolvedScope} {payload : ActorSessionPayload}
  {pattern appSlug roomSlug : String} (hactor : findActor s actorTokenId.uuid = some actorToken)
  (hscope : resolveScope s actorToken = some scope)
  (hvalid : revalidateActor config s now actorTokenId.uuid = .valid payload)
include hv hactor hscope hvalid

theorem payload_reorder {s₂ : Store} (h₂ : s.Reorder s₂) :
    ∃ payload₂, revalidateActor config s₂ now actorTokenId.uuid = .valid payload₂ ∧
      payload₂.apps = buildAppAccess s₂ now actorToken scope := by
  obtain ⟨actorToken', hactor', hst, hx, hp⟩ := revalidateActor_eq_valid.1 hvalid
  cases hactor.symm.trans hactor'
  obtain ⟨payload₂, hp₂⟩ := buildSessionPayload_reorder h₂ hv hp
  obtain ⟨_, scope₂, _, hscope₂, _, _, happs⟩ := of_buildSessionPayload hp₂
  rw [resolveScope_reorder h₂ hv, hscope] at hscope₂
  cases hscope₂
  refine ⟨payload₂, revalidateActor_eq_valid.2 ⟨actorToken, ?_, hst, hx, hp₂⟩, ?_⟩
  · rw [findActor_reorder h₂ hv, hactor]
  · rw [happs, buildAppAccess_scopeName]

theorem check_reorder {s₁ : Store} (h₁ : s.Reorder s₁)
    (hnames : PatternNames scope pattern appSlug roomSlug) :
    checkRoomAccess s₁ now actorTokenId pattern =
      if (splitOn '/' pattern).length = 4 ∧ scope.scopeSlug = some "" then deny
      else checkRoom s₁ now actorTokenId.text actorToken scope appSlug roomSlug := by
  obtain ⟨actorToken', hactor', hst, hx, _⟩ := revalidateActor_eq_valid.1 hvalid
  cases hactor.symm.trans hactor'
  have hactor₁ := (findActor_reorder h₁ hv).trans hactor
  have hscope₁ := (resolveScope_reorder h₁ hv actorToken).trans hscope
  have hparse := parsePattern_of_names hnames
  unfold checkRoomAccess
  by_cases hempty : (splitOn '/' pattern).length = 4 ∧ scope.scopeSlug = some ""
  · rw [if_pos hempty] at hparse ⊢
    simp [hactor₁, hst, hx, hscope₁, hparse]
  · rw [if_neg hempty] at hparse ⊢
    simp [hactor₁, hst, hx, hscope₁, hparse]

theorem agree_iff_sets {s₁ s₂ : Store} (h₁ : s.Reorder s₁) (h₂ : s.Reorder s₂)
    (hnames : PatternNames scope pattern appSlug roomSlug) :
    Agree config s₁ s₂ now actorTokenId pattern appSlug roomSlug ↔
      ∃ payload₂, payload₂.apps = buildAppAccess s₂ now actorToken scope ∧ ∀ e,
        e ∈ (checkRoomAccess s₁ now actorTokenId pattern).allowedTopics ↔
          PayloadEntry payload₂ appSlug roomSlug e := by
  obtain ⟨payload₂, hp₂, happs⟩ := payload_reorder hv hactor hscope hvalid h₂
  constructor
  · rintro ⟨payload', hp', hset, _⟩
    rw [hp₂] at hp'
    cases hp'
    exact ⟨payload₂, happs, hset⟩
  · rintro ⟨payload', happs', hset⟩
    have hsame : ∀ e, PayloadEntry payload' appSlug roomSlug e ↔
        PayloadEntry payload₂ appSlug roomSlug e := by
      intro e
      unfold PayloadEntry
      rw [happs, happs']
    refine ⟨payload₂, hp₂, fun e => (hset e).trans (hsame e), ?_⟩
    have hallow : (checkRoomAccess s₁ now actorTokenId pattern).allow = true ↔
        ∃ e, e ∈ (checkRoomAccess s₁ now actorTokenId pattern).allowedTopics := by
      rw [check_reorder hv hactor hscope hvalid h₁ hnames]
      split
      · simp [deny]
      · exact checkRoom_allow_iff
    rw [hallow]
    exact exists_congr fun e => (hset e).trans (hsame e)

variable (hnames : PatternNames scope pattern appSlug roomSlug)
  (hagree : ∀ s₁ s₂, s.Reorder s₁ → s.Reorder s₂ →
    Agree config s₁ s₂ now actorTokenId pattern appSlug roomSlug)
include hnames hagree

/-- Where the answers agree, every entry on the rows is one the check gives. -/
theorem entry_checked {app : PlatformApp} {room : Room} {p : EAccessPermission}
    {topicName : String} (he : Entry s now actorToken.actorTokenId.text actorToken.actorType
      (HeldElseOpen s now actorToken.actorTokenId actorToken.projectId) app room p topicName)
    (happ : app.slug = appSlug) (hroom : room.slug = roomSlug) :
    buildAllowedTopic appSlug room topicName p scope ∈
      (checkRoomAccess s now actorTokenId pattern).allowedTopics := by
  obtain ⟨s₂, h₂, hentry⟩ := entry_appears hv scope he happ hroom
  obtain ⟨payload₂, happs, hset⟩ := (agree_iff_sets hv hactor hscope hvalid (.refl s) h₂ hnames).1
    (hagree s s₂ (.refl s) h₂)
  exact (hset _).2 (hentry payload₂ happs)

theorem foreign_of_agree {app : PlatformApp} {room : Room} {p : EAccessPermission}
    {topicName : String} (hfar : app.projectId ≠ actorToken.projectId)
    (happ : app.slug = appSlug) (hroom : room.slug = roomSlug) :
    ¬ Entry s now actorToken.actorTokenId.text actorToken.actorType
      (HeldElseOpen s now actorToken.actorTokenId actorToken.projectId) app room p topicName := by
  intro he
  have hm := entry_checked hv hactor hscope hvalid hnames hagree he happ hroom
  rw [check_reorder hv hactor hscope hvalid (.refl s) hnames] at hm
  split at hm
  · cases hm
  · obtain ⟨access, room', p', t', hhome, _, _, heq⟩ := (mem_checkRoom_iff hv).1 hm
    have hslug : SlugRoom s appSlug roomSlug app room :=
      ⟨he.appRow, he.appLive, he.appActive, happ, he.roomRow, he.roomLive, he.roomActive,
        he.roomApp, hroom⟩
    obtain ⟨rfl, _⟩ := rows_of_address hv hslug hhome.toSlugRoom heq
    exact hfar hhome.appHome

theorem emptyScope_of_agree (hempty : (splitOn '/' pattern).length = 4 ∧ scope.scopeSlug = some "")
    {app : PlatformApp} {room : Room} {p : EAccessPermission} {topicName : String}
    (happ : app.slug = appSlug) (hroom : room.slug = roomSlug) :
    ¬ Entry s now actorToken.actorTokenId.text actorToken.actorType
      (HeldElseOpen s now actorToken.actorTokenId actorToken.projectId) app room p topicName := by
  intro he
  have hm := entry_checked hv hactor hscope hvalid hnames hagree he happ hroom
  rw [check_reorder hv hactor hscope hvalid (.refl s) hnames, if_pos hempty] at hm
  cases hm

variable (hne : ¬ ((splitOn '/' pattern).length = 4 ∧ scope.scopeSlug = some ""))
include hne

/-- Agreement, as the equality of two sets of rows. -/
theorem sets_of_agree {s₁ s₂ : Store} (h₁ : s.Reorder s₁) (h₂ : s.Reorder s₂) {room : Room}
    {app : PlatformApp} (hhome : HomeRoom s actorToken.projectId appSlug roomSlug app room)
    (p : EAccessPermission) (topicName : String) :
    (∃ q ts, OpenElseHeld s now actorToken.actorTokenId actorToken.projectId app q ts ∧
      Contributes s₁ now ⟨app, q, ts⟩ room
        (liveRoomGrants s₁ actorTokenId.text actorToken room).effective p topicName) ↔
    ∃ q ts, HeldElseOpen s now actorToken.actorTokenId actorToken.projectId app q ts ∧
      Contributes s₂ now ⟨app, q, ts⟩ room (batchedRoomGrants s₂ actorToken room).effective p
        topicName := by
  obtain ⟨payload₂, happs, hset⟩ := (agree_iff_sets hv hactor hscope hvalid h₁ h₂ hnames).1
    (hagree s₁ s₂ h₁ h₂)
  have hset := hset (buildAllowedTopic appSlug room topicName p scope)
  rw [check_reorder hv hactor hscope hvalid h₁ hnames, if_neg hne, mem_checkRoom_iff (h₁.valid hv),
    payloadEntry_iff (h₂.valid hv) happs] at hset
  constructor
  · rintro ⟨q, ts, ht, hc⟩
    obtain ⟨access, room', p', t', hslug', ht', hc', heq⟩ := hset.1
      ⟨⟨app, q, ts⟩, room, p, topicName, homeRoom_reorder h₁ hhome, openElseHeld_reorder h₁ ht,
        hc, rfl⟩
    obtain ⟨rfl, rfl, rfl, rfl⟩ := rows_of_address hv hhome.toSlugRoom
      (slugRoom_reorder h₂.symm hslug') heq
    exact ⟨_, _, heldElseOpen_reorder h₂.symm ht', hc'⟩
  · rintro ⟨q, ts, ht, hc⟩
    obtain ⟨access, room', p', t', hhome', ht', hc', heq⟩ := hset.2
      ⟨⟨app, q, ts⟩, room, p, topicName, slugRoom_reorder h₂ hhome.toSlugRoom,
        heldElseOpen_reorder h₂ ht, hc, rfl⟩
    obtain ⟨rfl, rfl, rfl, rfl⟩ := rows_of_address hv hhome.toSlugRoom
      (homeRoom_reorder h₁.symm hhome').toSlugRoom heq
    exact ⟨_, _, openElseHeld_reorder h₁.symm ht', hc'⟩

theorem openGrant_of_agree {app : PlatformApp} {room : Room} {g : ActorAppAccess}
    (hhome : HomeRoom s actorToken.projectId appSlug roomSlug app room)
    (hopen : app.accessMode = .open) (hg : AppGrant s now actorToken.actorTokenId app g)
    (hpub : IsPublic s room) :
    (∀ topicName, topicName ∈ topicsOf g.topics app ↔ topicName ∈ topicsOf none app) ∧
      (g.permission = .pubSub ∨ topicsOf g.topics app = []) := by
  have hsets := sets_of_agree hv hactor hscope hvalid hnames hagree hne (.refl s) (.refl s) hhome
  -- on a public room each side is one permission and one list
  have hsame : ∀ p topicName, (p = .pubSub ∧ topicName ∈ topicsOf none app) ↔
      (p = g.permission ∧ topicName ∈ topicsOf g.topics app) := fun p topicName =>
    (live_open_iff hhome.appHome hopen hpub p topicName).symm.trans
      ((hsets p topicName).trans (batched_held_iff hv hg hpub p topicName))
  refine ⟨fun topicName => ⟨fun h => ((hsame _ topicName).2 ⟨rfl, h⟩).2,
    fun h => ((hsame _ topicName).1 ⟨rfl, h⟩).2⟩, ?_⟩
  by_cases hnil : topicsOf g.topics app = []
  · exact .inr hnil
  · obtain ⟨topicName, hmem⟩ := List.exists_mem_of_ne_nil _ hnil
    exact .inl ((hsame _ topicName).2 ⟨rfl, hmem⟩).1

theorem oneOutcome_of_agree {app : PlatformApp} {room : Room} {g g' : RoomActorAccess}
    (hhome : HomeRoom s actorToken.projectId appSlug roomSlug app room)
    (hreach : ∃ p ts, HeldOrOpen s now actorToken.actorTokenId app p ts)
    (hg : Decides s actorTokenId.text actorToken.actorType room g)
    (hg' : Decides s actorToken.actorTokenId.text actorToken.actorType room g')
    (p : EAccessPermission) (topicName : String) :
    Outcome now app g p topicName ↔ Outcome now app g' p topicName := by
  obtain ⟨s₁, ⟨h₁, _⟩, heff₁⟩ := exists_scan_live hg
  obtain ⟨s₂, ⟨h₂, _⟩, heff₂⟩ := exists_scan_batched hg'
  have hsets := sets_of_agree hv hactor hscope hvalid hnames hagree hne h₁ h₂ hhome p topicName
  obtain ⟨q, ts, hterms⟩ := checked_terms hhome.appHome hreach
  obtain ⟨q', ts', ht⟩ := HeldElseOpen_of hterms
  constructor
  · intro ho
    obtain ⟨_, _, _, ⟨hpub, _⟩ | ⟨g'', hg'', ho'⟩⟩ := hsets.1 ⟨q, ts, hterms, .inr ⟨g, heff₁, ho⟩⟩
    · exact absurd (onRoom_reorder h₂ hg'.on) (hpub g')
    · cases heff₂.symm.trans hg''
      exact ho'
  · intro ho
    obtain ⟨_, _, _, ⟨hpub, _⟩ | ⟨g'', hg'', ho'⟩⟩ := hsets.2 ⟨q', ts', ht, .inr ⟨g', heff₂, ho⟩⟩
    · exact absurd (onRoom_reorder h₁ hg.on) (hpub g)
    · cases heff₁.symm.trans hg''
      exact ho'

theorem unchecked_of_agree {app : PlatformApp} {room : Room} {g' : RoomActorAccess}
    (hhome : HomeRoom s actorToken.projectId appSlug roomSlug app room)
    (hreach : ∃ p ts, HeldOrOpen s now actorToken.actorTokenId app p ts)
    (hnone : ∀ g, ¬ Decides s actorTokenId.text actorToken.actorType room g)
    (hg' : Decides s actorToken.actorTokenId.text actorToken.actorType room g')
    (p : EAccessPermission) (topicName : String) : ¬ Outcome now app g' p topicName := by
  intro ho
  obtain ⟨s₂, ⟨h₂, _⟩, heff₂⟩ := exists_scan_batched hg'
  have hsets := sets_of_agree hv hactor hscope hvalid hnames hagree hne (.refl s) h₂ hhome p
    topicName
  obtain ⟨q, ts, hterms⟩ := checked_terms hhome.appHome hreach
  obtain ⟨q', ts', ht⟩ := HeldElseOpen_of hterms
  obtain ⟨_, _, _, ⟨hpub, _⟩ | ⟨g, hg, _⟩⟩ := hsets.2 ⟨q', ts', ht, .inr ⟨g', heff₂, ho⟩⟩
  · exact hpub g' hg'.on
  · exact hnone g ((reads_live s actorTokenId.text actorToken room).sound g hg)

end Converse

/-- The live check and the session payload agree on a room, whatever order the tables are read
in and however the check's caller writes the id, exactly on these rows. -/
theorem live_check_agrees_iff {config : CoreConfig} {db : Database} {now : Int}
    {actorTokenId : IdText} {actorToken : ActorToken} {scope : ResolvedScope}
    {payload : ActorSessionPayload} {pattern appSlug roomSlug : String}
    (hvalid : revalidateActor config db.store now actorTokenId.uuid = .valid payload)
    (hactor : findActor db.store actorTokenId.uuid = some actorToken)
    (hscope : resolveScope db.store actorToken = some scope)
    (hnames : PatternNames scope pattern appSlug roomSlug) :
    (∀ s₁ s₂, db.store.Reorder s₁ → db.store.Reorder s₂ →
      Agree config s₁ s₂ now actorTokenId pattern appSlug roomSlug) ↔
    RowsAgree db.store now actorTokenId.text actorToken scope pattern appSlug roomSlug := by
  have hv := db.valid
  constructor
  · intro hagree
    refine ⟨?_, ?_, ?_, ?_, ?_⟩
    · intro app room p topicName hfar happ hroom
      exact foreign_of_agree hv hactor hscope hvalid hnames hagree hfar happ hroom
    · intro hlen hempty app room p topicName happ hroom
      exact emptyScope_of_agree hv hactor hscope hvalid hnames hagree ⟨hlen, hempty⟩ happ hroom
    · intro hne app room g hhome hopen hg hpub
      exact openGrant_of_agree hv hactor hscope hvalid hnames hagree hne hhome hopen hg hpub
    · intro hne app room g g' hhome hreach hg hg'
      exact oneOutcome_of_agree hv hactor hscope hvalid hnames hagree hne hhome hreach hg hg'
    · intro hne app room g' hhome hreach hnone hg'
      exact unchecked_of_agree hv hactor hscope hvalid hnames hagree hne hhome hreach hnone hg'
  · intro hrows s₁ s₂ h₁ h₂
    have hid := (of_findActor hactor).2.2
    obtain ⟨payload₂, _, happs⟩ := payload_reorder hv hactor hscope hvalid h₂
    refine (agree_iff_sets hv hactor hscope hvalid h₁ h₂ hnames).2 ⟨payload₂, happs, fun e => ?_⟩
    rw [check_reorder hv hactor hscope hvalid h₁ hnames]
    split
    · rename_i hempty
      refine ⟨fun he => (nomatch he), fun he => ?_⟩
      obtain ⟨access, room, p, topicName, hslug, ht, hc, _⟩ :=
        (payloadEntry_iff (h₂.valid hv) happs).1 he
      exact absurd (entry_reorder h₂.symm (entry_of_contributes hslug ht hc))
        (hrows.emptyScope hempty.1 hempty.2 _ room p topicName hslug.appSlug hslug.roomSlug)
    · rename_i hne
      exact sets_agree hv h₁ h₂ hid hrows hne happs e

/-! ## An open app with a grant on it -/

def alice : ActorToken where
  actorTokenId := .of "t1"
  projectId := .of "p1"
  keyId := "at_live_1"
  secretHash := ""
  name := "alice"
  actorType := .user

def lobbyRoom : Room where
  roomId := .of "r1"
  appId := .of "a1"
  slug := "lobby"
  name := "Lobby"

/-- One open app with one public room, and an actor granted subscribe on the app. -/
def openGrantDb : Database where
  store :=
    { projects := [{ projectId := .of "p1", name := "acme" }]
      apps := [{ appId := .of "a1", projectId := .of "p1", name := "Chat", slug := "chat",
                 topics := some ["messages"] }]
      rooms := [lobbyRoom]
      actorTokens := [alice]
      actorAppAccess := [{ actorAppAccessId := .of "g1", actorTokenId := .of "t1",
                           appId := .of "a1", permission := .subscribe }] }
  valid := by decide

def openGrantPayload : ActorSessionPayload where
  actorTokenId := .of "t1"
  organizationId := none
  projectId := .of "p1"
  projectName := "acme"
  actorType := .user
  scopeId := none
  scopeSlug := none
  scopeName := none
  apps :=
    [{ appId := .of "a1"
       appName := "Chat"
       appSlug := "chat"
       allowedTopics := [{ pattern := "chat/lobby/messages", topic := "r1/messages",
                           permission := .subscribe, roomId := .of "r1", roomSlug := "lobby",
                           scopeId := none, scopeSlug := none }]
       allowedLobbies := []
       activeSubscriptions := []
       hydrationWebhook := none
       triggerWebhook := none
       topicWebhooks := [] }]
  maxConnections := none
  maxMessageSizeBytes := none
  sessionExpirySeconds := 0
  persistentSession := false

theorem openGrant_revalidates :
    revalidateActor {} openGrantDb.store 0 (IdText.of "t1").uuid = .valid openGrantPayload := by
  decide

/-- The session may subscribe; the check lets the same actor publish as well. -/
theorem open_grant_disagrees :
    revalidateActor {} openGrantDb.store 0 (IdText.of "t1").uuid = .valid openGrantPayload ∧
      PatternNames {} "chat/lobby/messages" "chat" "lobby" ∧
      ¬ Agree {} openGrantDb.store openGrantDb.store 0 (.of "t1") "chat/lobby/messages" "chat"
        "lobby" := by
  refine ⟨openGrant_revalidates, .plain "messages" (by decide), ?_⟩
  rintro ⟨payload, hp, hset, _⟩
  rw [openGrant_revalidates] at hp
  cases hp
  have hcheck : buildAllowedTopic "chat" lobbyRoom "messages" .pubSub {} ∈
      (checkRoomAccess openGrantDb.store 0 (.of "t1") "chat/lobby/messages").allowedTopics := by
    decide
  obtain ⟨appAccess, hm, _, he, _⟩ := (hset _).1 hcheck
  rw [List.mem_singleton.1 hm] at he
  revert he
  decide

/-- The characterisation at the same rows. -/
theorem live_check_agrees_iff_openGrant :
    (∀ s₁ s₂, openGrantDb.store.Reorder s₁ → openGrantDb.store.Reorder s₂ →
      Agree {} s₁ s₂ 0 (.of "t1") "chat/lobby/messages" "chat" "lobby") ↔
    RowsAgree openGrantDb.store 0 "t1" alice {} "chat/lobby/messages" "chat" "lobby" :=
  live_check_agrees_iff openGrant_revalidates (by decide) (by decide) (.plain "messages" (by decide))

end Authz
end NolagCore
