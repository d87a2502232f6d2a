import NolagCore.Authz.Expiry
import NolagCore.Facade.Neighbours

/-!
# Authz.Withdrawal

What deletions do to access. A deletion stamps or removes rows and leaves the grants on what is left
as they were, so whatever an actor may do afterwards it could do before. Room grants are the
exception: one of them also stands in the way of others, as a room without grants is public and a
grant naming an actor hides the one on its type.
-/

namespace NolagCore
namespace Authz

open Lib AccessModel Facade
open ProjectConfig (Host sampleHost)
open ProjectConfigFacade (deleteProjectRow deleteActors)

/-! ## Stores with less in them -/

/-- The rows that are live afterwards were there before. -/
def Fewer {α : Type} [SoftDelete α] (rows rows' : List α) : Prop :=
  ∀ r ∈ rows', live r = true → r ∈ rows

section

variable {α : Type} [SoftDelete α] {rows : List α}

theorem Fewer.refl : Fewer rows rows := fun _ hr _ => hr

theorem Fewer.trans {rows' rows'' : List α} (h : Fewer rows rows') (h' : Fewer rows' rows'') :
    Fewer rows rows'' := fun r hr hl => h r (h' r hr hl) hl

theorem Fewer.stamp {p : α → Bool} {f : α → α} (hf : ∀ r, live (f r) = false) :
    Fewer rows (updateRows p f rows) := by
  intro r hr hl
  rcases mem_updateRows hr with ⟨r₀, _, _, rfl⟩ | hr
  · rw [hf r₀] at hl
    cases hl
  · exact hr

theorem Fewer.delete {p : α → Bool} : Fewer rows (deleteRows p rows) :=
  fun _ hr _ => (List.mem_filter.1 hr).1

end

/-- Rows are only lost, and the grants that matter for the rows left are the same. -/
structure Narrowed (s s' : Store) : Prop where
  projects : ∀ p ∈ s'.projects, live p = true →
    ∃ p₀ ∈ s.projects, live p₀ = true ∧ p₀.projectId = p.projectId
  accessScopes : Fewer s.accessScopes s'.accessScopes
  apps : Fewer s.apps s'.apps
  rooms : Fewer s.rooms s'.rooms
  actorTokens : Fewer s.actorTokens s'.actorTokens
  roomGrants : ∀ room ∈ s'.rooms, live room = true → grantsOn s' room = grantsOn s room
  appGrants : ∀ a ∈ s'.actorTokens, live a = true → ∀ app ∈ s'.apps, live app = true →
    ∀ g, g.actorTokenId = a.actorTokenId → g.appId = app.appId →
      (g ∈ s'.actorAppAccess ↔ g ∈ s.actorAppAccess)

theorem Narrowed.refl (s : Store) : Narrowed s s where
  projects p hp hl := ⟨p, hp, hl, rfl⟩
  accessScopes := .refl
  apps := .refl
  rooms := .refl
  actorTokens := .refl
  roomGrants _ _ _ := rfl
  appGrants _ _ _ _ _ _ _ _ _ := Iff.rfl

theorem Narrowed.trans {s s' s'' : Store} (h : Narrowed s s') (h' : Narrowed s' s'') :
    Narrowed s s'' where
  projects p hp hl := by
    obtain ⟨p₁, hp₁, hl₁, hid₁⟩ := h'.projects p hp hl
    obtain ⟨p₀, hp₀, hl₀, hid₀⟩ := h.projects p₁ hp₁ hl₁
    exact ⟨p₀, hp₀, hl₀, hid₀.trans hid₁⟩
  accessScopes := h.accessScopes.trans h'.accessScopes
  apps := h.apps.trans h'.apps
  rooms := h.rooms.trans h'.rooms
  actorTokens := h.actorTokens.trans h'.actorTokens
  roomGrants room hr hl :=
    (h'.roomGrants room hr hl).trans (h.roomGrants room (h'.rooms room hr hl) hl)
  appGrants a ha hal app happ hl g hga hgapp :=
    (h'.appGrants a ha hal app happ hl g hga hgapp).trans
      (h.appGrants a (h'.actorTokens a ha hal) hal app (h'.apps app happ hl) hl g hga hgapp)

/-! ## What is left of an answer -/

section

variable {s s' : Store} (h : Narrowed s s') (hv : s.SchemaValid) (hv' : s'.SchemaValid)

include h hv

theorem findActor_before {actorTokenId : Uuid} {actorToken : ActorToken}
    (hactor : findActor s' actorTokenId = some actorToken) :
    findActor s actorTokenId = some actorToken := by
  obtain ⟨hrow, hl, hid⟩ := of_findActor hactor
  exact (findActor_iff hv.pkActor).2 ⟨h.actorTokens _ hrow hl, hl, hid⟩

theorem resolveScope_before {actorToken : ActorToken} {scope : ResolvedScope}
    (hscope : resolveScope s' actorToken = some scope) :
    resolveScope s actorToken = some scope := by
  unfold resolveScope at hscope ⊢
  cases hid : actorToken.accessScopeId with
  | none =>
    rw [hid] at hscope
    exact hscope
  | some accessScopeId =>
    rw [hid] at hscope
    dsimp only at hscope ⊢
    cases hf : findOne s'.accessScopes fun r => decide (r.accessScopeId = accessScopeId) &&
        decide (r.projectId = actorToken.projectId) with
    | none =>
      rw [hf] at hscope
      cases hscope
    | some r =>
      obtain ⟨hrow, hl, hp⟩ := of_findOne hf
      have hrow₀ := h.accessScopes r hrow hl
      have hunique : ∀ r' ∈ s.accessScopes, live r' = true →
          (decide (r'.accessScopeId = accessScopeId) &&
            decide (r'.projectId = actorToken.projectId)) = true → r' = r := by
        intro r' hr' _ hp'
        simp only [Bool.and_eq_true, decide_eq_true_eq] at hp hp'
        exact hv.pkScope.eq_of_key hr' hrow₀ (hp'.1.trans hp.1.symm)
      rw [hf] at hscope
      rw [findOne_of_unique hrow₀ hl hp hunique]
      exact hscope

theorem project_before {actorToken : ActorToken} {project : Project}
    (hproject : findOne s'.projects (fun p => decide (p.projectId = actorToken.projectId)) =
      some project) :
    ∃ project₀, findOne s.projects (fun p => decide (p.projectId = actorToken.projectId)) =
      some project₀ := by
  obtain ⟨hrow, hl, hid⟩ := of_findOne hproject
  obtain ⟨p₀, hp₀, hl₀, hid₀⟩ := h.projects project hrow hl
  refine ⟨p₀, findOne_of_unique hp₀ hl₀ ?_ fun p hp _ hk => ?_⟩
  · exact decide_eq_true (hid₀.trans (of_decide_eq_true hid))
  · exact hv.pkProject.eq_of_key hp hp₀
      ((of_decide_eq_true hk).trans (hid₀.trans (of_decide_eq_true hid)).symm)

end

section

variable {s s' : Store} (h : Narrowed s s') {now : Int} {actorToken : ActorToken}
  (hrow : actorToken ∈ s'.actorTokens) (hl : live actorToken = true)

include h hrow hl

theorem appGrant_iff_before {app : PlatformApp} (happ : app ∈ s'.apps) (happl : live app = true)
    {g : ActorAppAccess} : AppGrant s' now actorToken.actorTokenId app g ↔
      AppGrant s now actorToken.actorTokenId app g := by
  constructor
  · intro hg
    exact { hg with
      row := (h.appGrants actorToken hrow hl app happ happl g hg.actor hg.onApp).1 hg.row }
  · intro hg
    exact { hg with
      row := (h.appGrants actorToken hrow hl app happ happl g hg.actor hg.onApp).2 hg.row }

/-- An app that is reached is reached on the terms it was reached on before. -/
theorem validAppAccess_before (hv : s.SchemaValid) (hv' : s'.SchemaValid) {access : Access}
    (ha : access ∈ validAppAccess s' now actorToken) :
    access ∈ validAppAccess s now actorToken := by
  obtain ⟨happ, happl, hst, hterms⟩ := (mem_validAppAccess hv').1 ha
  obtain ⟨app, p, ts⟩ := access
  refine (mem_validAppAccess hv).2 ⟨h.apps _ happ happl, happl, hst, ?_⟩
  cases hterms with
  | held hg => exact .held ((appGrant_iff_before h hrow hl happ happl).1 hg)
  | opened home hopen unheld =>
    exact .opened home hopen fun g hg => unheld g ((appGrant_iff_before h hrow hl happ happl).2 hg)

omit hrow hl in
theorem batchedRoomGrants_before {room : Room} (hr : room ∈ s'.rooms) (hrl : live room = true) :
    batchedRoomGrants s' actorToken room = batchedRoomGrants s actorToken room := by
  unfold batchedRoomGrants
  rw [h.roomGrants room hr hrl]

omit hrow hl in
theorem liveRoomGrants_before (text : String) {room : Room} (hr : room ∈ s'.rooms)
    (hrl : live room = true) :
    liveRoomGrants s' text actorToken room = liveRoomGrants s text actorToken room := by
  have heq : ∀ s : Store, liveRoomGrants s text actorToken room =
      { entries := grantsOn s room
        effective := ((grantsOn s room).find? (namesActor text)).or
          ((grantsOn s room).find? (namesType actorToken)) } := fun _ => rfl
  rw [heq, heq, h.roomGrants room hr hrl]

omit hrow hl in
theorem allowedTopics_before {scope : ResolvedScope} {access : Access} {e : AllowedTopic}
    (he : e ∈ (buildOf s' now actorToken scope access).allowedTopics) :
    e ∈ (buildOf s now actorToken scope access).allowedTopics := by
  obtain ⟨room, hroom, p, topicName, ⟨ts, hra, hmem⟩, rfl⟩ := mem_allowedTopics.1 he
  obtain ⟨hr, hrl, happ, hst⟩ := mem_activeRooms.1 hroom
  rw [batchedRoomGrants_before h hr hrl] at hra
  exact mem_allowedTopics.2 ⟨room, mem_activeRooms.2 ⟨h.rooms room hr hrl, hrl, happ, hst⟩, p,
    topicName, ⟨ts, hra, hmem⟩, rfl⟩

/-- What a check settles on it settled on before. -/
theorem settles_before (hv : s.SchemaValid) (hv' : s'.SchemaValid)
    {text appSlug roomSlug : String} {app : PlatformApp} {access : Access} {room : Room}
    {p : EAccessPermission} {ts : Option (List String)}
    (hs : Settles s' now text actorToken appSlug roomSlug app access room p ts) :
    Settles s now text actorToken appSlug roomSlug app access room p ts := by
  obtain ⟨happ, happl, hslug, home, hst⟩ := of_appBySlug hs.byApp
  obtain ⟨hr, hrl, hrslug, hrapp, hrst⟩ := of_roomBySlug hs.byRoom
  obtain ⟨heq, hterms⟩ := (liveAppAccess_iff hv' home).1 hs.byAccess
  have happ₀ := h.apps app happ happl
  have hr₀ := h.rooms room hr hrl
  refine ⟨?_, (liveAppAccess_iff hv home).2 ⟨heq, ?_⟩, ?_, ?_⟩
  · refine findOne_of_unique happ₀ happl (by simp [hslug, home, hst]) fun a ha hal hp => ?_
    simp only [Bool.and_eq_true, decide_eq_true_eq] at hp
    exact hv.appSlug.eq_of_key (List.mem_filter.2 ⟨ha, hal⟩) (List.mem_filter.2 ⟨happ₀, happl⟩)
      (Prod.ext (hp.1.2.trans home.symm) (hp.1.1.trans hslug.symm))
  · generalize access.permission = q at hterms ⊢
    generalize access.topics = ts' at hterms ⊢
    cases hterms with
    | opened home hopen => exact .opened home hopen
    | held home hopen hg => exact .held home hopen ((appGrant_iff_before h hrow hl happ happl).1 hg)
  · refine findOne_of_unique hr₀ hrl (by simp [hrslug, hrapp, hrst]) fun r hr hrl' hp => ?_
    simp only [Bool.and_eq_true, decide_eq_true_eq] at hp
    exact hv.roomSlug.eq_of_key (List.mem_filter.2 ⟨hr, hrl'⟩) (List.mem_filter.2 ⟨hr₀, hrl⟩)
      (Prod.ext (hp.1.2.trans hrapp.symm) (hp.1.1.trans hrslug.symm))
  · rw [← liveRoomGrants_before h text hr hrl]
    exact hs.byGrants

end

/-- The answers an actor gets afterwards are part of those it got before. -/
theorem answers_before (config : CoreConfig) {db db' : Database} (h : Narrowed db.store db'.store)
    (now : Int) (actorTokenId : IdText) :
    (∀ payload', revalidateActor config db'.store now actorTokenId.uuid = .valid payload' →
      ∃ payload, revalidateActor config db.store now actorTokenId.uuid = .valid payload ∧
        ∀ pattern topic right, Capability payload' pattern topic right →
          Capability payload pattern topic right) ∧
    ∀ pattern, ∀ e ∈ (checkRoomAccess db'.store now actorTokenId pattern).allowedTopics,
      e ∈ (checkRoomAccess db.store now actorTokenId pattern).allowedTopics := by
  constructor
  · intro payload' h'
    obtain ⟨actorToken, hactor, hst, hx, hp'⟩ := revalidateActor_eq_valid.1 h'
    obtain ⟨hrow, hl, _⟩ := of_findActor hactor
    obtain ⟨project', _, hproject', _⟩ := of_buildSessionPayload hp'
    obtain ⟨scope, hscope, hmem'⟩ := mem_session db'.valid hp'
    obtain ⟨project, hproject⟩ := project_before h db.valid hproject'
    have hbuild : ∃ payload, buildSessionPayload config db.store now actorToken = .ok payload := by
      unfold buildSessionPayload
      simp only [hproject, resolveScope_before h db.valid hscope]
      exact ⟨_, rfl⟩
    obtain ⟨payload, hp⟩ := hbuild
    refine ⟨payload, revalidateActor_eq_valid.2
      ⟨actorToken, findActor_before h db.valid hactor, hst, hx, hp⟩, ?_⟩
    obtain ⟨scope₀, hscope₀, hmem⟩ := mem_session db.valid hp
    cases hscope₀.symm.trans (resolveScope_before h db.valid hscope)
    rintro pattern topic right ⟨appAccess, happ, e, he, hpattern, htopic, hright⟩
    obtain ⟨access, ha, he⟩ := (hmem' e).1 ⟨appAccess, happ, he⟩
    obtain ⟨appAccess₀, happ₀, he₀⟩ := (hmem e).2
      ⟨access, validAppAccess_before h hrow hl db.valid db'.valid ha, allowedTopics_before h he⟩
    exact ⟨appAccess₀, happ₀, e, he₀, hpattern, htopic, hright⟩
  · intro pattern e he
    rcases checkRoomAccess_cases db'.store now actorTokenId pattern with
      ⟨actorToken, scope, appSlug, roomSlug, hactor, hst, hx, hscope, hparse, heq⟩ | heq
    · rw [heq] at he
      obtain ⟨hrow, hl, _⟩ := of_findActor hactor
      obtain ⟨app, access, room, p, ts, hs, htopic⟩ := mem_checkRoom.1 he
      rw [checkRoomAccess_of_parsed (findActor_before h db.valid hactor) hst hx
        (resolveScope_before h db.valid hscope) hparse]
      exact mem_checkRoom.2
        ⟨app, access, room, p, ts, settles_before h hrow hl db.valid db'.valid hs, htopic⟩
    · rw [heq] at he
      cases he

/-! ## Deletions -/

section

variable {host : Host} {now : Int} {db : Database}

theorem deleteProject_narrowed {projectId : Uuid} :
    Leaves (ProjectFacade.deleteProject db now projectId) (Narrowed db.store) := by
  unfold ProjectFacade.deleteProject
  split
  · exact .error
  · refine .commit { Narrowed.refl db.store with projects := fun p hp hl => ?_ }
    exact ⟨p, Fewer.stamp (fun _ => rfl) p hp hl, hl, rfl⟩

theorem deleteScope_narrowed {accessScopeId projectId : Uuid} :
    Leaves (AccessScopeFacade.delete db now accessScopeId projectId) (Narrowed db.store) := by
  unfold AccessScopeFacade.delete
  split
  · exact .error
  · dsimp only
    split
    · exact .error
    · exact .commit { Narrowed.refl db.store with accessScopes := .stamp fun _ => rfl }

theorem deleteApp_narrowed {appId projectId : Uuid} :
    Leaves (PlatformAppFacade.deleteApp db now appId projectId) (Narrowed db.store) := by
  unfold PlatformAppFacade.deleteApp
  split
  · exact .error
  · exact .commit { Narrowed.refl db.store with
      apps := .stamp fun _ => rfl
      appGrants := fun _ _ _ _ _ _ _ _ _ => Iff.rfl }

theorem deleteRoom_narrowed {roomId appId : Uuid} :
    Leaves (RoomFacade.deleteRoom db now roomId appId) (Narrowed db.store) := by
  unfold RoomFacade.deleteRoom
  split
  · exact .error
  · exact .commit { Narrowed.refl db.store with
      rooms := .stamp fun _ => rfl
      roomGrants := fun _ _ _ => rfl }

theorem deleteLobby_narrowed {lobbyId appId : Uuid} :
    Leaves (LobbyFacade.deleteLobby db now lobbyId appId) (Narrowed db.store) := by
  unfold LobbyFacade.deleteLobby
  split
  · exact .error
  · exact .commit { Narrowed.refl db.store with }

theorem removeRoom_narrowed {lobbyId roomId appId : Uuid} :
    Leaves (LobbyFacade.removeRoomFromLobby db lobbyId roomId appId) (Narrowed db.store) := by
  unfold LobbyFacade.removeRoomFromLobby
  split
  · exact .error
  · exact .commit { Narrowed.refl db.store with }

theorem deleteActorToken_narrowed {actorTokenId projectId : Uuid} :
    Leaves (ActorTokenFacade.deleteActorToken db now actorTokenId projectId)
      (Narrowed db.store) := by
  unfold ActorTokenFacade.deleteActorToken
  split
  · exact .error
  · exact .commit { Narrowed.refl db.store with
      actorTokens := .stamp fun _ => rfl
      appGrants := fun _ _ _ _ _ _ _ _ _ => Iff.rfl }

theorem deleteSigningKey_narrowed {signingKeyId projectId : Uuid} :
    Leaves (SigningKeyFacade.deleteSigningKey db now signingKeyId projectId)
      (Narrowed db.store) := by
  unfold SigningKeyFacade.deleteSigningKey
  split
  · exact .error
  · exact .commit { Narrowed.refl db.store with }

/-- No live room grant joins the project to another: none names an actor of the one on a room of the
other. -/
def GrantsInside (s : Store) (projectId : Uuid) : Prop :=
  ∀ g ∈ s.roomActorAccess, live g = true → g.actorTokenId.any (s.ownsActor projectId) = true →
    s.ownsRoom projectId g.roomId = true

theorem purge_narrowed {projectId : Uuid} (hinside : GrantsInside db.store projectId) :
    Leaves (ProjectConfigFacade.deleteProject db projectId) (Narrowed db.store) := by
  unfold ProjectConfigFacade.deleteProject
  split
  · exact .error
  · refine .commit ?_
    unfold deleteProjectRow
    rw [deleteActors_twice]
    refine
      { projects := fun p hp hl => ⟨p, (List.mem_filter.1 hp).1, hl, rfl⟩
        accessScopes := .delete
        apps := .delete
        rooms := fun r hr _ => (List.mem_filter.1 hr).1
        actorTokens := .delete
        roomGrants := fun room hroom _ => ?_
        appGrants := fun a ha _ app happ _ g hga hgapp => ?_ }
    · obtain ⟨hrow, hkept⟩ := List.mem_filter.1 hroom
      have hoff : db.store.ownsRoom projectId room.roomId = false := by
        refine Bool.eq_false_iff.2 fun howns => ?_
        obtain ⟨room', hrow', hid, happ'⟩ := Store.ownsRoom_iff.1 howns
        obtain ⟨app, happ, haid⟩ := List.any_eq_true.1 hkept
        obtain ⟨happ, hother⟩ := List.mem_filter.1 happ
        obtain ⟨app', happ', haid', hp⟩ := Store.ownsApp_iff.1 happ'
        rw [db.valid.pkRoom.eq_of_key hrow' hrow hid] at haid'
        rw [db.valid.pkApp.eq_of_key happ' happ (haid'.trans (of_decide_eq_true haid).symm)] at hp
        simp [hp] at hother
      refine (filter_filter_off fun g hg hon => ?_).trans (filter_filter_off fun g hg hon => ?_)
      · rw [Bool.and_eq_true, decide_eq_true_eq] at hon
        exact List.any_eq_true.2 ⟨room, hroom, decide_eq_true hon.2.symm⟩
      · rw [Bool.and_eq_true, decide_eq_true_eq] at hon
        cases hactor : g.actorTokenId with
        | none => rfl
        | some actorTokenId =>
          refine actorKept (Bool.eq_false_iff.2 fun howns => ?_) (db.valid.fkGrantActor g hg _ hactor)
          have hroomOwned := hinside g hg hon.1 (by rw [hactor]; exact howns)
          rw [hon.2, hoff] at hroomOwned
          cases hroomOwned
    · refine ⟨fun hg => (List.mem_filter.1 (List.mem_filter.1 hg).1).1, fun hg => ?_⟩
      refine List.mem_filter.2 ⟨List.mem_filter.2 ⟨hg, ?_⟩, ?_⟩
      · exact List.any_eq_true.2 ⟨a, ha, decide_eq_true hga.symm⟩
      · exact List.any_eq_true.2 ⟨app, happ, decide_eq_true hgapp.symm⟩

end

/-- The operation deletes something other than a room grant; removing a project's rows takes grants
of its actors along, which are to be on rooms of its own. -/
def Deletes (db : Database) (l : Int × Operation) : Prop :=
  match l.2 with
  | .deleteProject _ | .deleteScope _ _ | .deleteApp _ _ | .deleteRoom _ _ | .deleteLobby _ _
  | .removeRoomFromLobby _ _ _ | .deleteActorToken _ _ | .deleteSigningKey _ _ => True
  | .purgeProject projectId => GrantsInside db.store projectId
  | _ => False

theorem deletes_narrowed {host : Host} {now : Int} {db db' : Database} {op : Operation}
    (hdel : Deletes db (now, op)) (hok : op.run host now db = .ok db') :
    Narrowed db.store db'.store := by
  cases op with
  | deleteProject projectId => exact deleteProject_narrowed.committed hok
  | deleteScope accessScopeId projectId => exact deleteScope_narrowed.committed hok
  | deleteApp appId projectId => exact deleteApp_narrowed.committed hok
  | deleteRoom roomId appId => exact deleteRoom_narrowed.committed hok
  | deleteLobby lobbyId appId => exact deleteLobby_narrowed.committed hok
  | removeRoomFromLobby lobbyId roomId appId => exact removeRoom_narrowed.committed hok
  | deleteActorToken actorTokenId projectId => exact deleteActorToken_narrowed.committed hok
  | deleteSigningKey signingKeyId projectId => exact deleteSigningKey_narrowed.committed hok
  | purgeProject projectId => exact (purge_narrowed hdel).committed hok
  | _ => exact hdel.elim

theorem narrowed_run {host : Host} {run : List (Int × Operation)} {db db' : Database}
    (hrun : exec (configure host) db run = some db')
    (hdel : Meets (configure host) Deletes db run) : Narrowed db.store db'.store := by
  refine exec_invariant (I := fun d => Narrowed db.store d.store) ?_ run db db' (.refl _) hdel hrun
  intro d l d' hI hC hstep
  cases hstep
  unfold Operation.apply
  split
  · rename_i d' hok
    exact hI.trans (deletes_narrowed hC hok)
  · exact hI

/-- Deletions never widen access: after any run of them whoever still has a session had one before,
with every capability it has now, and a check allows nothing it did not allow. -/
theorem deletions_never_widen (host : Host) (config : CoreConfig) (run : List (Int × Operation))
    (db db' : Database) (hrun : exec (configure host) db run = some db')
    (hdel : Meets (configure host) Deletes db run) (now : Int) (actorTokenId : IdText) :
    (∀ payload', revalidateActor config db'.store now actorTokenId.uuid = .valid payload' →
      ∃ payload, revalidateActor config db.store now actorTokenId.uuid = .valid payload ∧
        ∀ pattern topic right, Capability payload' pattern topic right →
          Capability payload pattern topic right) ∧
    ∀ pattern, ∀ e ∈ (checkRoomAccess db'.store now actorTokenId pattern).allowedTopics,
      e ∈ (checkRoomAccess db.store now actorTokenId pattern).allowedTopics :=
  answers_before config (narrowed_run hrun hdel) now actorTokenId

/-- A second room of the project of `sampleSetup`, which is then deleted, and another project, whose
rows are removed. -/
def sampleDeletions : List (Int × Operation) :=
  [(2, .deleteRoom (.of "room2") (.of "app")), (3, .purgeProject (.of "q"))]

def twoRooms : List (Int × Operation) := sampleSetup ++
  [(1, .createRoom (.of "room2") (.of "app") { slug := some "attic", name := "Attic" }),
    (1, .createProject (.of "q") { name := "Other" })]

theorem deletions_never_widen_twoRooms :
    ∃ db, exec (configure sampleHost) Database.empty twoRooms = some db ∧
      ∃ db', exec (configure sampleHost) db sampleDeletions = some db' ∧
        (∀ payload', revalidateActor {} db'.store 4 (IdText.of "t1").uuid = .valid payload' →
          ∃ payload, revalidateActor {} db.store 4 (IdText.of "t1").uuid = .valid payload ∧
            ∀ pattern topic right, Capability payload' pattern topic right →
              Capability payload pattern topic right) ∧
        ∀ pattern, ∀ e ∈ (checkRoomAccess db'.store 4 (.of "t1") pattern).allowedTopics,
          e ∈ (checkRoomAccess db.store 4 (.of "t1") pattern).allowedTopics := by
  refine ⟨_, rfl, _, rfl, deletions_never_widen sampleHost {} sampleDeletions _ _ rfl ?_ 4 (.of "t1")⟩
  refine ⟨trivial, fun db₁ h₁ => ⟨?_, fun _ _ => trivial⟩⟩
  cases h₁
  intro g hg
  cases hg

/-! ## Deleting a room grant -/

/-- What the room yields without `g`: it is public now, or another grant decides in place of `g`. -/
inductive Uncovered (s s' : Store) (now : Int) (text : String) (actorType : EActorType)
    (room : Room) (g : RoomActorAccess) : Prop
  | opened (h : IsPublic s' room)
  | decided {g' : RoomActorAccess} (hid : Decides s text actorType room g)
      (hdecides : Decides s' text actorType room g')
      (unexpired : expired g'.expiresAt now = false)

/-- A selection of one row that only changes with the row it selects. -/
structure Steady {α : Type} [DecidableEq α] (picks : List α → Option α) : Prop where
  none_left : ∀ l x, picks l = none → picks (l.filter fun y => decide (y ≠ x)) = none
  stays : ∀ l x y, picks l = some y → y ≠ x → picks (l.filter fun z => decide (z ≠ x)) = some y

section Lists

variable {α : Type} [DecidableEq α] {picks picks' : List α → Option α}

theorem Steady.find? (p : α → Bool) : Steady fun l : List α => l.find? p where
  none_left l x h := List.find?_eq_none.2 fun y hy =>
    List.find?_eq_none.1 h y (List.mem_filter.1 hy).1
  stays l x y h hne := by
    obtain ⟨hp, before, after, rfl, hbefore⟩ := List.find?_eq_some_iff_append.1 h
    have hkept : decide (y ≠ x) = true := decide_eq_true hne
    refine List.find?_eq_some_iff_append.2 ⟨hp, before.filter fun z => decide (z ≠ x),
      after.filter fun z => decide (z ≠ x), ?_, fun z hz => hbefore z (List.mem_filter.1 hz).1⟩
    rw [List.filter_append, List.filter_cons, hkept]
    rfl

theorem Steady.getLast? (p : α → Bool) : Steady fun l : List α => (l.filter p).getLast? where
  none_left l x h := by
    rw [List.getLast?_eq_none_iff, List.filter_eq_nil_iff] at h ⊢
    exact fun y hy => h y (List.mem_filter.1 hy).1
  stays l x y h hne := by
    have hkept : decide (y ≠ x) = true := decide_eq_true hne
    obtain ⟨front, hfront⟩ := List.getLast?_eq_some_iff.1 h
    have hcomm : (l.filter fun z => decide (z ≠ x)).filter p =
        (l.filter p).filter fun z => decide (z ≠ x) := by
      rw [List.filter_filter, List.filter_filter]
      exact List.filter_congr fun z _ => Bool.and_comm _ _
    rw [hcomm, hfront, List.filter_append, List.filter_singleton, hkept]
    exact List.getLast?_concat

theorem Steady.or (h : Steady picks) (h' : Steady picks') :
    Steady fun l => (picks l).or (picks' l) where
  none_left l x hnone := by
    obtain ⟨h₁, h₂⟩ := Option.or_eq_none_iff.1 hnone
    exact Option.or_eq_none_iff.2 ⟨h.none_left l x h₁, h'.none_left l x h₂⟩
  stays l x y hsome hne := by
    cases hp : picks l with
    | some z =>
      rw [hp, Option.some_or] at hsome
      cases hsome
      rw [h.stays l x y hp hne, Option.some_or]
    | none =>
      rw [hp, Option.none_or] at hsome
      rw [h.none_left l x hp, Option.none_or]
      exact h'.stays l x y hsome hne

end Lists

/-- Every room has the grants it had but for `g`. -/
def Without (s s' : Store) (g : RoomActorAccess) : Prop :=
  ∀ room, grantsOn s' room = (grantsOn s room).filter fun g' => decide (g' ≠ g)

section

variable {s s' : Store} {now : Int} {g : RoomActorAccess} {text : String} {actorType : EActorType}
  {room : Room}

theorem Without.same (h : Without s s' g) (hne : g.roomId ≠ room.roomId) :
    grantsOn s' room = grantsOn s room := by
  rw [h room]
  refine List.filter_eq_self.2 fun g' hg' => decide_eq_true ?_
  rintro rfl
  exact hne (mem_grantsOn.1 hg').onRoom

/-- What a room contributes it contributed before, or `g` was in the way. -/
theorem Without.roomAccess (h : Without s s' g)
    {picks : List RoomActorAccess → Option RoomActorAccess} (hsteady : Steady picks)
    (hreads : Reads s text actorType room ⟨grantsOn s room, picks (grantsOn s room)⟩)
    (hreads' : Reads s' text actorType room ⟨grantsOn s' room, picks (grantsOn s' room)⟩)
    {access : Access} {r : EAccessPermission × Option (List String)}
    (hra : roomAccess now access ⟨grantsOn s' room, picks (grantsOn s' room)⟩ = some r) :
    roomAccess now access ⟨grantsOn s room, picks (grantsOn s room)⟩ = some r ∨
      g.roomId = room.roomId ∧ Uncovered s s' now text actorType room g := by
  by_cases hroom : g.roomId = room.roomId
  · by_cases hpub : grantsOn s' room = []
    · exact .inr ⟨hroom, .opened (grantsOn_eq_nil.1 hpub)⟩
    · have hpriv : grantsOn s room ≠ [] := by
        intro hnil
        rw [h room, hnil] at hpub
        exact hpub rfl
      unfold Authz.roomAccess at hra ⊢
      rw [if_neg hpub] at hra
      rw [if_neg hpriv]
      cases hp : picks (grantsOn s room) with
      | none =>
        rw [h room, hsteady.none_left _ _ hp] at hra
        cases hra
      | some g₀ =>
        by_cases hg₀ : g₀ = g
        · right
          cases hp' : picks (grantsOn s' room) with
          | none =>
            rw [hp'] at hra
            cases hra
          | some g' =>
            rw [hp'] at hra
            dsimp only at hra
            split at hra
            · cases hra
            · rename_i hx
              exact ⟨hroom, .decided (hreads.sound g (by rw [← hg₀]; exact hp))
                (hreads'.sound g' hp') (by simpa using hx)⟩
        · rw [h room, hsteady.stays _ _ _ hp hg₀] at hra
          exact .inl hra
  · rw [h.same hroom] at hra
    exact .inl hra

end

theorem findAll_stamp {α : Type} [SoftDelete α] {p q : α → Bool} {f : α → α} {rows : List α}
    (hf : ∀ r, live (f r) = false) :
    findAll (updateRows p f rows) q = (findAll rows q).filter fun r => !p r := by
  unfold findAll updateRows
  induction rows with
  | nil => rfl
  | cons r rows ih =>
    rw [List.map_cons, List.filter_cons, List.filter_cons, ih]
    cases hp : p r with
    | true =>
      rw [if_pos rfl, hf r, Bool.false_and, if_neg Bool.false_ne_true]
      split
      · rw [List.filter_cons_of_neg (by simp [hp])]
      · rfl
    | false =>
      rw [if_neg Bool.false_ne_true]
      split
      · rw [List.filter_cons_of_pos (by simp [hp])]
      · rfl

/-- Deleting a grant takes it from its room, and changes nothing else. -/
theorem delete_without {db db' : Database} {t : Int} {g : RoomActorAccess}
    (hg : RoomActorAccessFacade.findById db.store g.roomActorAccessId = some g)
    (hdel : RoomActorAccessFacade.delete db t g.roomActorAccessId = .ok ((), db')) :
    (∃ roomActorAccess, db'.store = { db.store with roomActorAccess }) ∧
      Without db.store db'.store g := by
  unfold RoomActorAccessFacade.delete at hdel
  rw [hg] at hdel
  obtain ⟨-, hstore⟩ := commit_ok hdel
  refine ⟨⟨_, hstore⟩, fun room => ?_⟩
  obtain ⟨hrow, _, _⟩ := of_findOne hg
  rw [hstore]
  refine (findAll_stamp fun _ => rfl).trans (List.filter_congr fun g' hg' => ?_)
  by_cases heq : g' = g
  · simp [heq]
  · have hid : g'.roomActorAccessId ≠ g.roomActorAccessId := fun hid =>
      heq (db.valid.pkRoomGrant.eq_of_key (mem_findAll.1 hg').1 hrow hid)
    simp [heq, hid]

/-- An entry that the actor has only because `g` is gone: it is on the room of `g`. The grants that
name the actor are those that carry the text of the id. -/
def Newly (s s' : Store) (now : Int) (actorTokenId : IdText) (g : RoomActorAccess)
    (e : AllowedTopic) : Prop :=
  e.roomId = g.roomId ∧ ∃ actorToken room, findActor s actorTokenId.uuid = some actorToken ∧
    room ∈ s.rooms ∧ room.roomId = g.roomId ∧
    Uncovered s s' now actorTokenId.text actorToken.actorType room g

section

variable {s s' : Store} {roomActorAccess : List RoomActorAccess} {g : RoomActorAccess} {now : Int}
  (hs' : s' = { s with roomActorAccess := roomActorAccess })
  (h : Without s s' g)

include hs' h

theorem session_uncovered (config : CoreConfig) (hv : s.SchemaValid) (hv' : s'.SchemaValid)
    {actorTokenId : Uuid} {payload' : ActorSessionPayload}
    (hvalid : revalidateActor config s' now actorTokenId = .valid payload') :
    ∃ payload, revalidateActor config s now actorTokenId = .valid payload ∧
      ∀ appAccess' ∈ payload'.apps, ∀ e ∈ appAccess'.allowedTopics,
        (∃ appAccess ∈ payload.apps, e ∈ appAccess.allowedTopics) ∨
          Newly s s' now actorTokenId.asStored g e := by
  obtain ⟨actorToken, hactor, hst, hx, hp'⟩ := revalidateActor_eq_valid.1 hvalid
  obtain ⟨project, _, hproject, _⟩ := of_buildSessionPayload hp'
  obtain ⟨scope, hscope, hmem'⟩ := mem_session hv' hp'
  -- none of these reads the room grants
  have hactor₀ : findActor s actorTokenId = some actorToken := by rw [hs'] at hactor; exact hactor
  have hscope₀ : resolveScope s actorToken = some scope := by rw [hs'] at hscope; exact hscope
  have hproject₀ : findOne s.projects (fun p => decide (p.projectId = actorToken.projectId)) =
      some project := by
    rw [hs'] at hproject
    exact hproject
  have hbuild : ∃ payload, buildSessionPayload config s now actorToken = .ok payload := by
    unfold buildSessionPayload
    simp only [hproject₀, hscope₀]
    exact ⟨_, rfl⟩
  obtain ⟨payload, hp⟩ := hbuild
  obtain ⟨scope', hscope', hmem⟩ := mem_session hv hp
  cases hscope₀.symm.trans hscope'
  refine ⟨payload, revalidateActor_eq_valid.2 ⟨actorToken, hactor₀, hst, hx, hp⟩, ?_⟩
  intro appAccess' happ' e he
  obtain ⟨access, ha, he⟩ := (hmem' e).1 ⟨appAccess', happ', he⟩
  obtain ⟨room, hroom, p, topicName, ⟨ts, hra, htopic⟩, rfl⟩ := mem_allowedTopics.1 he
  have ha₀ : access ∈ validAppAccess s now actorToken := by rw [hs'] at ha; exact ha
  have hroom₀ : room ∈ activeRooms s access.app.appId := by rw [hs'] at hroom; exact hroom
  have hid' := (of_findActor hactor₀).2.2
  have hsteady := (Steady.getLast? (namesActor actorToken.actorTokenId.text)).or
    (Steady.find? (namesType actorToken))
  rcases h.roomAccess hsteady (reads_batched s actorToken room) (reads_batched s' actorToken room)
    hra with hra₀ | ⟨hid, huncovered⟩
  · exact .inl ((hmem _).2 ⟨access, ha₀,
      mem_allowedTopics.2 ⟨room, hroom₀, p, topicName, ⟨ts, hra₀, htopic⟩, rfl⟩⟩)
  · rw [hid'] at huncovered
    exact .inr ⟨hid.symm, actorToken, room, hactor₀, (mem_activeRooms.1 hroom₀).1, hid.symm,
      huncovered⟩

theorem check_uncovered {actorTokenId : IdText} {pattern : String} {e : AllowedTopic}
    (he : e ∈ (checkRoomAccess s' now actorTokenId pattern).allowedTopics) :
    e ∈ (checkRoomAccess s now actorTokenId pattern).allowedTopics ∨
      Newly s s' now actorTokenId g e := by
  rcases checkRoomAccess_cases s' now actorTokenId pattern with
    ⟨actorToken, scope, appSlug, roomSlug, hactor, hst, hx, hscope, hparse, heq⟩ | heq
  · rw [heq] at he
    obtain ⟨app, access, room, p, ts, hs, topicName, htopic, rfl⟩ := mem_checkRoom.1 he
    have hactor₀ : findActor s actorTokenId.uuid = some actorToken := by
      rw [hs'] at hactor
      exact hactor
    have hscope₀ : resolveScope s actorToken = some scope := by rw [hs'] at hscope; exact hscope
    have hroom₀ : roomBySlug s app roomSlug = some room := by
      have hroom := hs.byRoom
      rw [hs'] at hroom
      exact hroom
    have happ₀ : appBySlug s actorToken appSlug = some app ∧
        liveAppAccess s now actorToken.actorTokenId app = some access := by
      have happ := And.intro hs.byApp hs.byAccess
      rw [hs'] at happ
      exact happ
    have hsteady := (Steady.find? (namesActor actorTokenId.text)).or
      (Steady.find? (namesType actorToken))
    rcases h.roomAccess hsteady (reads_live s actorTokenId.text actorToken room)
      (reads_live s' actorTokenId.text actorToken room) hs.byGrants with hra₀ | ⟨hid, huncovered⟩
    · rw [checkRoomAccess_of_parsed hactor₀ hst hx hscope₀ hparse]
      exact .inl (mem_checkRoom.2
        ⟨app, access, room, p, ts, ⟨happ₀.1, happ₀.2, hroom₀, hra₀⟩, topicName, htopic, rfl⟩)
    · exact .inr ⟨hid.symm, actorToken, room, hactor₀, (of_roomBySlug hroom₀).1, hid.symm,
        huncovered⟩
  · rw [heq] at he
    cases he

end

/-- Deleting a room grant gives nobody anything but on its own room: everyone, where it was the last
grant and the room is public without it, and otherwise those it decided for, where another grant now
decides. -/
theorem deleted_grant_uncovers (config : CoreConfig) (db db' : Database) (t : Int)
    (g : RoomActorAccess)
    (hg : RoomActorAccessFacade.findById db.store g.roomActorAccessId = some g)
    (hdel : RoomActorAccessFacade.delete db t g.roomActorAccessId = .ok ((), db'))
    (now : Int) (actorTokenId : IdText) :
    (∀ payload', revalidateActor config db'.store now actorTokenId.uuid = .valid payload' →
      ∃ payload, revalidateActor config db.store now actorTokenId.uuid = .valid payload ∧
        ∀ appAccess' ∈ payload'.apps, ∀ e ∈ appAccess'.allowedTopics,
          (∃ appAccess ∈ payload.apps, e ∈ appAccess.allowedTopics) ∨
            Newly db.store db'.store now actorTokenId.uuid.asStored g e) ∧
    ∀ pattern, ∀ e ∈ (checkRoomAccess db'.store now actorTokenId pattern).allowedTopics,
      e ∈ (checkRoomAccess db.store now actorTokenId pattern).allowedTopics ∨
        Newly db.store db'.store now actorTokenId g e := by
  obtain ⟨⟨roomActorAccess, hstore⟩, hwithout⟩ := delete_without hg hdel
  constructor
  · intro payload' hvalid
    exact session_uncovered hstore hwithout config db.valid db'.valid hvalid
  · intro pattern e he
    exact check_uncovered hstore hwithout he

/-- Carol's own grant on a room, below the one for all users. -/
def ownGrant : RoomActorAccess where
  roomActorAccessId := .of "g1"
  roomId := .of "r1"
  actorTokenId := some (.of "t1")
  actorType := none
  permission := .subscribe

def coveredGrantDb : Database where
  store :=
    { projects := [{ projectId := .of "p1", name := "acme" }]
      apps := [{ appId := .of "a1", projectId := .of "p1", name := "Chat", slug := "chat",
                 topics := some ["messages"] }]
      rooms := [{ roomId := .of "r1", appId := .of "a1", slug := "lobby", name := "Lobby" }]
      roomActorAccess := [ownGrant, { ownGrant with roomActorAccessId := .of "g2"
                                                    actorTokenId := none
                                                    actorType := some .user
                                                    permission := .pubSub }]
      actorTokens := [carol] }
  valid := by decide

/-- With her grant gone carol publishes as every user does. -/
theorem deleted_grant_uncovers_hidden : ∃ db',
    RoomActorAccessFacade.delete coveredGrantDb 0 ownGrant.roomActorAccessId = .ok ((), db') ∧
    ∃ e ∈ (checkRoomAccess db'.store 1 (.of "t1") "chat/lobby/messages").allowedTopics,
      e.permission = .pubSub ∧ Newly coveredGrantDb.store db'.store 1 (.of "t1") ownGrant e := by
  refine ⟨_, rfl, { pattern := "chat/lobby/messages", topic := "r1/messages", permission := .pubSub,
                    roomId := .of "r1", roomSlug := "lobby", scopeId := none, scopeSlug := none },
    List.mem_singleton_self _, rfl, ?_⟩
  refine ((deleted_grant_uncovers {} coveredGrantDb _ 0 ownGrant rfl rfl 1 (.of "t1")).2
    "chat/lobby/messages" _ (List.mem_singleton_self _)).resolve_left ?_
  decide

end Authz
end NolagCore
