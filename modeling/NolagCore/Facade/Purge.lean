import NolagCore.Facade.Neighbours
import NolagCore.Model.Constraints

/-!
# Facade.Purge

What the deletion of a project's rows deletes. The cascades of the schema reach exactly the rows that
belong to the project, and the one reference without a cascade, of an actor to its scope, is what can
refuse it.
-/

namespace NolagCore
namespace Facade

open Lib Store ProjectConfig
open ProjectConfigFacade (deleteProjectRow deleteActors)
open Authz (configure sampleSetup)

/-- The rows of a project: its own, and every row that joins one of its own to something. -/
def Belongs (s : Store) (projectId : Uuid) : Row → Prop
  | .project r => r.projectId = projectId
  | .accessScope r => r.projectId = projectId
  | .app r => r.projectId = projectId
  | .room r => s.ownsApp projectId r.appId = true
  | .roomGrant r => Touches s projectId r = true
  | .lobby r => s.ownsApp projectId r.appId = true
  | .lobbyRoom r => s.ownsLobby projectId r.lobbyId = true ∨ s.ownsRoom projectId r.roomId = true
  | .actorToken r => r.projectId = projectId
  | .actorTokenState r => s.ownsActor projectId r.actorTokenId = true
  | .appGrant r => s.ownsActor projectId r.actorTokenId = true ∨ s.ownsApp projectId r.appId = true
  | .signingKey r => r.projectId = projectId

section

variable {projectId : Uuid} {s : Store} (hv : s.SchemaValid)

/-! ## What is kept -/

include hv

theorem appKept_iff {appId : Uuid} (hex : ∃ a ∈ s.apps, a.appId = appId) :
    (deleteRows (fun a => decide (a.projectId = projectId)) s.apps).any
      (fun a => decide (a.appId = appId)) = true ↔ ¬ s.ownsApp projectId appId = true := by
  constructor
  · intro hkept howns
    obtain ⟨a, ha, hid⟩ := List.any_eq_true.1 hkept
    obtain ⟨ha, hother⟩ := List.mem_filter.1 ha
    obtain ⟨a', ha', hid', hp⟩ := Store.ownsApp_iff.1 howns
    rw [hv.pkApp.eq_of_key ha' ha (hid'.trans (of_decide_eq_true hid).symm)] at hp
    simp [hp] at hother
  · intro hoff
    exact appKept (Bool.eq_false_iff.2 hoff) hex

theorem actorKept_iff {actorTokenId : Uuid}
    (hex : ∃ a ∈ s.actorTokens, a.actorTokenId = actorTokenId) :
    (deleteRows (fun a => decide (a.projectId = projectId)) s.actorTokens).any
      (fun a => decide (a.actorTokenId = actorTokenId)) = true ↔
        ¬ s.ownsActor projectId actorTokenId = true := by
  constructor
  · intro hkept howns
    obtain ⟨a, ha, hid⟩ := List.any_eq_true.1 hkept
    obtain ⟨ha, hother⟩ := List.mem_filter.1 ha
    obtain ⟨a', ha', hid', hp⟩ := Store.ownsActor_iff.1 howns
    rw [hv.pkActor.eq_of_key ha' ha (hid'.trans (of_decide_eq_true hid).symm)] at hp
    simp [hp] at hother
  · intro hoff
    exact actorKept (Bool.eq_false_iff.2 hoff) hex

/-- The rooms of the apps that are left. -/
def keptRooms (projectId : Uuid) (s : Store) : List Room := s.rooms.filter fun r =>
  (deleteRows (fun a => decide (a.projectId = projectId)) s.apps).any fun a =>
    decide (a.appId = r.appId)

def keptLobbies (projectId : Uuid) (s : Store) : List Lobby := s.lobbies.filter fun l =>
  (deleteRows (fun a => decide (a.projectId = projectId)) s.apps).any fun a =>
    decide (a.appId = l.appId)

theorem mem_keptRooms {room : Room} : room ∈ keptRooms projectId s ↔
    room ∈ s.rooms ∧ ¬ s.ownsApp projectId room.appId = true := by
  unfold keptRooms
  rw [List.mem_filter]
  exact and_congr_right fun hr => appKept_iff hv (hv.fkRoomApp room hr _ rfl)

theorem mem_keptLobbies {lobby : Lobby} : lobby ∈ keptLobbies projectId s ↔
    lobby ∈ s.lobbies ∧ ¬ s.ownsApp projectId lobby.appId = true := by
  unfold keptLobbies
  rw [List.mem_filter]
  exact and_congr_right fun hl => appKept_iff hv (hv.fkLobbyApp lobby hl _ rfl)

theorem roomKept_iff {roomId : Uuid} (hex : ∃ r ∈ s.rooms, r.roomId = roomId) :
    (keptRooms projectId s).any (fun r => decide (r.roomId = roomId)) = true ↔
      ¬ s.ownsRoom projectId roomId = true := by
  constructor
  · intro hkept howns
    obtain ⟨r, hr, hid⟩ := List.any_eq_true.1 hkept
    obtain ⟨hr, hoff⟩ := (mem_keptRooms hv).1 hr
    obtain ⟨r', hr', hid', happ⟩ := Store.ownsRoom_iff.1 howns
    rw [hv.pkRoom.eq_of_key hr' hr (hid'.trans (of_decide_eq_true hid).symm)] at happ
    exact hoff happ
  · intro hoff
    obtain ⟨r, hr, hid⟩ := hex
    refine List.any_eq_true.2 ⟨r, (mem_keptRooms hv).2 ⟨hr, fun happ => hoff ?_⟩, decide_eq_true hid⟩
    exact Store.ownsRoom_iff.2 ⟨r, hr, hid, happ⟩

theorem lobbyKept_iff {lobbyId : Uuid} (hex : ∃ l ∈ s.lobbies, l.lobbyId = lobbyId) :
    (keptLobbies projectId s).any (fun l => decide (l.lobbyId = lobbyId)) = true ↔
      ¬ s.ownsLobby projectId lobbyId = true := by
  constructor
  · intro hkept howns
    obtain ⟨l, hl, hid⟩ := List.any_eq_true.1 hkept
    obtain ⟨hl, hoff⟩ := (mem_keptLobbies hv).1 hl
    obtain ⟨l', hl', hid', happ⟩ := Store.ownsLobby_iff.1 howns
    rw [hv.pkLobby.eq_of_key hl' hl (hid'.trans (of_decide_eq_true hid).symm)] at happ
    exact hoff happ
  · intro hoff
    obtain ⟨l, hl, hid⟩ := hex
    refine List.any_eq_true.2
      ⟨l, (mem_keptLobbies hv).2 ⟨hl, fun happ => hoff ?_⟩, decide_eq_true hid⟩
    exact Store.ownsLobby_iff.2 ⟨l, hl, hid, happ⟩

/-- The removal leaves exactly the rows that do not belong to the project. -/
theorem has_purged_iff {row : Row} :
    (deleteProjectRow projectId (deleteActors projectId s)).Has row ↔
      s.Has row ∧ ¬ Belongs s projectId row := by
  unfold deleteProjectRow
  rw [deleteActors_twice]
  cases row with
  | project r => simp [Has, Belongs, deleteActors, deleteRows]
  | accessScope r => simp [Has, Belongs, deleteActors, deleteRows]
  | app r => simp [Has, Belongs, deleteActors, deleteRows]
  | actorToken r => simp [Has, Belongs, deleteActors, deleteRows]
  | signingKey r => simp [Has, Belongs, deleteActors, deleteRows]
  | room r => exact mem_keptRooms hv
  | lobby r => exact mem_keptLobbies hv
  | lobbyRoom r =>
    refine List.mem_filter.trans (and_congr_right fun hr => ?_)
    rw [Bool.and_eq_true]
    refine (and_congr (lobbyKept_iff hv (hv.fkMemberLobby r hr _ rfl))
      (roomKept_iff hv (hv.fkMemberRoom r hr _ rfl))).trans ?_
    exact not_or.symm
  | actorTokenState r =>
    refine List.mem_filter.trans (and_congr_right fun hr => ?_)
    exact actorKept_iff hv (hv.fkStateActor r hr _ rfl)
  | appGrant r =>
    refine List.mem_filter.trans ((and_congr_left' List.mem_filter).trans ?_)
    rw [and_assoc]
    refine and_congr_right fun hr => ?_
    refine (and_congr (actorKept_iff hv (hv.fkAppGrantActor r hr _ rfl))
      (appKept_iff hv (hv.fkAppGrantApp r hr _ rfl))).trans ?_
    exact not_or.symm
  | roomGrant r =>
    refine List.mem_filter.trans ((and_congr_left' List.mem_filter).trans ?_)
    rw [and_assoc]
    refine and_congr_right fun hr => ?_
    have hactor : (r.actorTokenId.all fun actorTokenId =>
        (deleteRows (fun a => decide (a.projectId = projectId)) s.actorTokens).any
          fun a => decide (a.actorTokenId = actorTokenId)) = true ↔
        ¬ r.actorTokenId.any (s.ownsActor projectId) = true := by
      cases hid : r.actorTokenId with
      | none => simp
      | some actorTokenId => exact actorKept_iff hv (hv.fkGrantActor r hr _ hid)
    refine (and_congr hactor (roomKept_iff hv (hv.fkGrantRoom r hr _ rfl))).trans ?_
    rw [← not_or, ← Bool.or_eq_true]
    rfl

/-! ## When it is refused -/

/-- No actor of another project is bound to a scope of the project. -/
def BoundInside (s : Store) (projectId : Uuid) : Prop :=
  ∀ a ∈ s.actorTokens, ∀ r ∈ s.accessScopes, r.projectId = projectId →
    a.accessScopeId = some r.accessScopeId → a.projectId = projectId

omit hv in
/-- A reference is kept where what it leads to is kept with the row. -/
theorem references_kept {α β κ : Type} {rows rows' : List α} {key : α → Option κ}
    {others others' : List β} {target : β → κ} (h : References rows key others target)
    (hsub : ∀ r ∈ rows', r ∈ rows)
    (hkept : ∀ r ∈ rows', ∀ o ∈ others, key r = some (target o) → o ∈ others') :
    References rows' key others' target := by
  intro r hr k hk
  obtain ⟨o, ho, rfl⟩ := h r (hsub r hr) k hk
  exact ⟨o, hkept r hr o ho hk, rfl⟩

theorem ownsApp_of_row {app : PlatformApp} (happ : app ∈ s.apps) :
    s.ownsApp projectId app.appId = true ↔ app.projectId = projectId := by
  rw [Store.ownsApp_iff]
  constructor
  · rintro ⟨a, ha, hid, hp⟩
    rw [← hv.pkApp.eq_of_key ha happ hid]
    exact hp
  · intro hp
    exact ⟨app, happ, rfl, hp⟩

theorem ownsActor_of_row {a : ActorToken} (ha : a ∈ s.actorTokens) :
    s.ownsActor projectId a.actorTokenId = true ↔ a.projectId = projectId := by
  rw [Store.ownsActor_iff]
  constructor
  · rintro ⟨a', ha', hid, hp⟩
    rw [← hv.pkActor.eq_of_key ha' ha hid]
    exact hp
  · intro hp
    exact ⟨a, ha, rfl, hp⟩

theorem ownsRoom_of_row {room : Room} (hr : room ∈ s.rooms) :
    s.ownsRoom projectId room.roomId = true ↔ s.ownsApp projectId room.appId = true := by
  rw [Store.ownsRoom_iff]
  constructor
  · rintro ⟨room', hr', hid, happ⟩
    rw [← hv.pkRoom.eq_of_key hr' hr hid]
    exact happ
  · intro happ
    exact ⟨room, hr, rfl, happ⟩

theorem ownsLobby_of_row {lobby : Lobby} (hl : lobby ∈ s.lobbies) :
    s.ownsLobby projectId lobby.lobbyId = true ↔ s.ownsApp projectId lobby.appId = true := by
  rw [Store.ownsLobby_iff]
  constructor
  · rintro ⟨lobby', hl', hid, happ⟩
    rw [← hv.pkLobby.eq_of_key hl' hl hid]
    exact happ
  · intro happ
    exact ⟨lobby, hl, rfl, happ⟩

omit hv in
theorem uniqueOn_kept_live {α κ : Type} [SoftDelete α] {slug : α → κ} {rows : List α}
    {p : α → Bool} (h : UniqueOn slug (rows.filter live)) :
    UniqueOn slug ((rows.filter p).filter live) := by
  rw [List.filter_comm]
  exact h.filter p

/-- Rows are only removed, so no two of them get one key. -/
theorem keys_purged (projectId : Uuid) :
    (deleteProjectRow projectId (deleteActors projectId s)).Keys := by
  unfold deleteProjectRow
  rw [deleteActors_twice]
  exact
    { pkProject := hv.pkProject.filter _
      pkScope := hv.pkScope.filter _
      pkApp := hv.pkApp.filter _
      pkRoom := hv.pkRoom.filter _
      pkRoomGrant := (hv.pkRoomGrant.filter _).filter _
      pkLobby := hv.pkLobby.filter _
      pkLobbyRoom := hv.pkLobbyRoom.filter _
      pkActor := hv.pkActor.filter _
      pkState := hv.pkState.filter _
      pkAppGrant := (hv.pkAppGrant.filter _).filter _
      pkSigningKey := hv.pkSigningKey.filter _
      actorKeyId := hv.actorKeyId.filter _
      signingKeyId := hv.signingKeyId.filter _
      scopeSlug := uniqueOn_kept_live hv.scopeSlug
      appSlug := uniqueOn_kept_live hv.appSlug
      roomSlug := uniqueOn_kept_live hv.roomSlug
      lobbySlug := uniqueOn_kept_live hv.lobbySlug
      appGrant := (hv.appGrant.filter _).filter _ }

/-- What does not belong to the project hangs under rows that do not either. -/
theorem refersInto_purged (hinside : BoundInside s projectId) :
    (deleteProjectRow projectId (deleteActors projectId s)).RefersInto
      (deleteProjectRow projectId (deleteActors projectId s)) := by
  have hkept : ∀ row, (deleteProjectRow projectId (deleteActors projectId s)).Has row ↔
      s.Has row ∧ ¬ Belongs s projectId row := fun _ => has_purged_iff hv
  constructor
  · refine references_kept hv.fkScopeProject (fun r hr => ((hkept (.accessScope r)).1 hr).1)
      fun r hr o ho hk => (hkept (.project o)).2 ⟨ho, fun hp => ?_⟩
    exact ((hkept (.accessScope r)).1 hr).2 ((Option.some.inj hk).trans hp)
  · refine references_kept hv.fkAppProject (fun r hr => ((hkept (.app r)).1 hr).1)
      fun r hr o ho hk => (hkept (.project o)).2 ⟨ho, fun hp => ?_⟩
    exact ((hkept (.app r)).1 hr).2 ((Option.some.inj hk).trans hp)
  · refine references_kept hv.fkActorProject (fun r hr => ((hkept (.actorToken r)).1 hr).1)
      fun r hr o ho hk => (hkept (.project o)).2 ⟨ho, fun hp => ?_⟩
    exact ((hkept (.actorToken r)).1 hr).2 ((Option.some.inj hk).trans hp)
  · refine references_kept hv.fkActorScope (fun r hr => ((hkept (.actorToken r)).1 hr).1)
      fun r hr o ho hk => (hkept (.accessScope o)).2 ⟨ho, fun hp => ?_⟩
    obtain ⟨hrow, hoff⟩ := (hkept (.actorToken r)).1 hr
    exact hoff (hinside r hrow o ho hp hk)
  · refine references_kept hv.fkKeyProject (fun r hr => ((hkept (.signingKey r)).1 hr).1)
      fun r hr o ho hk => (hkept (.project o)).2 ⟨ho, fun hp => ?_⟩
    exact ((hkept (.signingKey r)).1 hr).2 ((Option.some.inj hk).trans hp)
  · refine references_kept hv.fkRoomApp (fun r hr => ((hkept (.room r)).1 hr).1)
      fun r hr o ho hk => (hkept (.app o)).2 ⟨ho, fun hp => ?_⟩
    refine ((hkept (.room r)).1 hr).2 (?_ : s.ownsApp projectId r.appId = true)
    rw [Option.some.inj hk]
    exact (ownsApp_of_row hv ho).2 hp
  · refine references_kept hv.fkGrantRoom (fun r hr => ((hkept (.roomGrant r)).1 hr).1)
      fun r hr o ho hk => (hkept (.room o)).2 ⟨ho, fun hp => ?_⟩
    refine ((hkept (.roomGrant r)).1 hr).2 (Bool.or_eq_true_iff.2 (.inr ?_))
    rw [Option.some.inj hk]
    exact (ownsRoom_of_row hv ho).2 hp
  · refine references_kept hv.fkGrantActor (fun r hr => ((hkept (.roomGrant r)).1 hr).1)
      fun r hr o ho hk => (hkept (.actorToken o)).2 ⟨ho, fun hp => ?_⟩
    refine ((hkept (.roomGrant r)).1 hr).2 (Bool.or_eq_true_iff.2 (.inl ?_))
    rw [hk]
    exact (ownsActor_of_row hv ho).2 hp
  · refine references_kept hv.fkLobbyApp (fun r hr => ((hkept (.lobby r)).1 hr).1)
      fun r hr o ho hk => (hkept (.app o)).2 ⟨ho, fun hp => ?_⟩
    refine ((hkept (.lobby r)).1 hr).2 (?_ : s.ownsApp projectId r.appId = true)
    rw [Option.some.inj hk]
    exact (ownsApp_of_row hv ho).2 hp
  · refine references_kept hv.fkMemberLobby (fun r hr => ((hkept (.lobbyRoom r)).1 hr).1)
      fun r hr o ho hk => (hkept (.lobby o)).2 ⟨ho, fun hp => ?_⟩
    refine ((hkept (.lobbyRoom r)).1 hr).2 (.inl ?_)
    rw [Option.some.inj hk]
    exact (ownsLobby_of_row hv ho).2 hp
  · refine references_kept hv.fkMemberRoom (fun r hr => ((hkept (.lobbyRoom r)).1 hr).1)
      fun r hr o ho hk => (hkept (.room o)).2 ⟨ho, fun hp => ?_⟩
    refine ((hkept (.lobbyRoom r)).1 hr).2 (.inr ?_)
    rw [Option.some.inj hk]
    exact (ownsRoom_of_row hv ho).2 hp
  · refine references_kept hv.fkStateActor (fun r hr => ((hkept (.actorTokenState r)).1 hr).1)
      fun r hr o ho hk => (hkept (.actorToken o)).2 ⟨ho, fun hp => ?_⟩
    refine ((hkept (.actorTokenState r)).1 hr).2 (?_ : s.ownsActor projectId r.actorTokenId = true)
    rw [Option.some.inj hk]
    exact (ownsActor_of_row hv ho).2 hp
  · refine references_kept hv.fkAppGrantActor (fun r hr => ((hkept (.appGrant r)).1 hr).1)
      fun r hr o ho hk => (hkept (.actorToken o)).2 ⟨ho, fun hp => ?_⟩
    refine ((hkept (.appGrant r)).1 hr).2 (.inl ?_)
    rw [Option.some.inj hk]
    exact (ownsActor_of_row hv ho).2 hp
  · refine references_kept hv.fkAppGrantApp (fun r hr => ((hkept (.appGrant r)).1 hr).1)
      fun r hr o ho hk => (hkept (.app o)).2 ⟨ho, fun hp => ?_⟩
    refine ((hkept (.appGrant r)).1 hr).2 (.inr ?_)
    rw [Option.some.inj hk]
    exact (ownsApp_of_row hv ho).2 hp

/-- The constraints hold of what is left exactly where no binding crosses. -/
theorem valid_purged_iff (projectId : Uuid) :
    (deleteProjectRow projectId (deleteActors projectId s)).SchemaValid ↔
      BoundInside s projectId := by
  constructor
  · intro hv' a ha r hr hproject hbound
    refine Classical.byContradiction fun hother => ?_
    have ha' : (deleteProjectRow projectId (deleteActors projectId s)).Has (.actorToken a) :=
      (has_purged_iff hv).2 ⟨ha, hother⟩
    obtain ⟨r', hr', hid⟩ := hv'.fkActorScope a ha' _ hbound
    obtain ⟨hrow, hoff⟩ : s.Has (.accessScope r') ∧ ¬ Belongs s projectId (.accessScope r') :=
      (has_purged_iff hv).1 hr'
    rw [hv.pkScope.eq_of_key hrow hr hid] at hoff
    exact hoff hproject
  · intro hinside
    exact Store.schemaValid_iff.2 ⟨keys_purged hv projectId, refersInto_purged hv hinside⟩

end

/-- The removal of a live project's rows succeeds exactly where no actor of another project is bound
to one of its scopes, deleted actors included, and then exactly the rows of the project are gone. -/
theorem purge_exact (db : Database) (projectId : Uuid)
    (hproject : ∃ p ∈ db.store.projects, live p = true ∧ p.projectId = projectId) :
    ((∃ db', ProjectConfigFacade.deleteProject db projectId = .ok ((), db')) ↔
      BoundInside db.store projectId) ∧
    ∀ db', ProjectConfigFacade.deleteProject db projectId = .ok ((), db') →
      ∀ row, db'.store.Has row ↔ db.store.Has row ∧ ¬ Belongs db.store projectId row := by
  obtain ⟨p, hp, hl, hid⟩ := hproject
  have hfind : findOne db.store.projects (fun p => decide (p.projectId = projectId)) = some p :=
    findOne_of_unique hp hl (decide_eq_true hid) fun p' hp' _ hk =>
      db.valid.pkProject.eq_of_key hp' hp ((of_decide_eq_true hk).trans hid.symm)
  have hrun : ProjectConfigFacade.deleteProject db projectId =
      commit (deleteProjectRow projectId (deleteActors projectId db.store)) () := by
    unfold ProjectConfigFacade.deleteProject
    rw [hfind]
  rw [hrun]
  constructor
  · rw [← valid_purged_iff db.valid projectId]
    constructor
    · rintro ⟨db', hok⟩
      rw [← (commit_ok hok).2]
      exact db'.valid
    · intro hv
      unfold commit
      rw [dif_pos hv]
      exact ⟨_, rfl⟩
  · intro db' hok row
    rw [(commit_ok hok).2]
    exact has_purged_iff db.valid

/-! ## Bindings -/

/-- Every actor, deleted or not, is bound to a scope of its own project or to none. -/
def BoundHome (s : Store) : Prop :=
  ∀ a ∈ s.actorTokens, ∀ r ∈ s.accessScopes, a.accessScopeId = some r.accessScopeId →
    r.projectId = a.projectId

theorem BoundHome.inside {s : Store} (h : BoundHome s) (projectId : Uuid) :
    BoundInside s projectId := by
  intro a ha r hr hproject hbound
  exact (h a ha r hr hbound).symm.trans hproject

theorem boundHome_import {host : Host} {draws : Draws} {now : Int} {doc : ProjectConfigDoc}
    {credentials : ImportedCredentials} {s s' : Store} (hs : s.SchemaValid) (hv : s'.SchemaValid)
    (hI : BoundHome s) (him : Imported host draws now doc credentials s s') : BoundHome s' := by
  intro a ha r hr hbound
  obtain ⟨d, hd, rfl⟩ := him.rows
  rcases List.mem_append.1 ha with ha | ha
  · obtain ⟨r₀, hr₀, hid⟩ := hs.fkActorScope a ha r.accessScopeId hbound
    have heq : r = r₀ := hv.pkScope.eq_of_key hr (List.mem_append_left _ hr₀) hid.symm
    exact hI a ha r (heq ▸ hr₀) hbound
  · obtain ⟨i, actor, accessScopeId, expiresAt, _, hok, _, rfl⟩ :=
      docRows_actorToken.1 (hd.sound (.actorToken a) ha)
    obtain ⟨_, hnone⟩ | ⟨slug, id, _, _, hget, hsome⟩ := actorScope_ok hok
    · exact absurd (hbound.symm.trans hnone) (by simp)
    · obtain ⟨k, scope, hk, _, hid⟩ := of_scopeIdBySlug hget
      exact project_of_docScope hv hd hr hk
        ((Option.some.inj (hbound.symm.trans hsome)).trans hid.symm)

section

variable {host : Host} {now : Int} {op : Operation} {db db' : Database}

/-- Deleting an actor leaves its binding as it was. -/
theorem binding_of_deleted (h : op.run host now db = .ok db') {a₀ a : ActorToken}
    (h₀ : a₀ ∈ db.store.actorTokens) (ha : a ∈ db'.store.actorTokens)
    (hid : a.actorTokenId = a₀.actorTokenId) (hdead : live a = false) :
    ∃ a₁ ∈ db.store.actorTokens, a₁.projectId = a.projectId ∧
      a₁.accessScopeId = a.accessScopeId := by
  have hkept : a₀ ∈ db'.store.actorTokens → ∃ a₁ ∈ db.store.actorTokens,
      a₁.projectId = a.projectId ∧ a₁.accessScopeId = a.accessScopeId := by
    intro h₀'
    rw [db'.valid.pkActor.eq_of_key ha h₀' hid]
    exact ⟨a₀, h₀, rfl, rfl⟩
  cases run_effect h with
  | same hsame => exact ⟨a, hsame.2 ▸ ha, rfl, rfl⟩
  | projectSaved _ _ _ _ hactors => exact ⟨a, hactors ▸ ha, rfl, rfl⟩
  | projectDeleted _ hactors => exact ⟨a, hactors ▸ ha, rfl, rfl⟩
  | created _ _ _ hold _ => exact hkept (hold a₀ h₀)
  | actorCreated _ _ hactors => exact hkept (hactors ▸ List.mem_append_left _ h₀)
  | @actorUpdated _ _ _ existing _ hf _ he _ hactors =>
    rcases mem_saveRow (hactors ▸ ha) with rfl | ha
    · obtain ⟨_, _, _, hdeleted⟩ := Authz.assign_keeps he
      have hl : live a = live existing := congrArg Option.isNone hdeleted
      rw [(of_findOne hf).2.1] at hl
      exact absurd (hl.symm.trans hdead) (by simp)
    · exact ⟨a, ha, rfl, rfl⟩
  | actorDeleted _ hactors =>
    rcases mem_updateRows (hactors ▸ ha) with ⟨a₁, h₁, _, rfl⟩ | ha
    · exact ⟨a₁, h₁, rfl, rfl⟩
    · exact ⟨a, ha, rfl, rfl⟩
  | purged _ hactors => exact ⟨a, ((hactors a).1 ha).1, rfl, rfl⟩

/-- A scope that was checked to be of the project is of it afterwards. -/
theorem project_of_assert (h : op.run host now db = .ok db') {projectId : Uuid} {r : AccessScope}
    (hr : r ∈ db'.store.accessScopes)
    (hassert : ActorTokenFacade.assertScopeInProject db.store projectId (some r.accessScopeId) =
      .ok ()) : r.projectId = projectId := by
  obtain ⟨r₀, hr₀, hid, hproject⟩ := of_assertScope hassert
  rw [← hproject]
  exact congrArg Prod.fst ((scopes_placed h).stands db.valid.pkScope hr hr₀ hid.symm)

theorem boundHome_step (hI : BoundHome db.store) (h : op.run host now db = .ok db') :
    BoundHome db'.store := by
  by_cases himport : ∃ draws doc, op = .importProject draws doc
  · obtain ⟨draws, doc, rfl⟩ := himport
    obtain ⟨credentials, him⟩ := import_done h
    exact boundHome_import db.valid db'.valid hI him
  intro a ha r hr hbound
  -- a scope that was stored before stands where it stood
  have hold : ∀ a₀ ∈ db.store.actorTokens, a₀.projectId = a.projectId →
      a₀.accessScopeId = some r.accessScopeId → r.projectId = a.projectId := by
    intro a₀ h₀ hproject hbound₀
    obtain ⟨r₀, hr₀, hid⟩ := db.valid.fkActorScope a₀ h₀ r.accessScopeId hbound₀
    have hstands : r.projectId = r₀.projectId :=
      congrArg Prod.fst ((scopes_placed h).stands db.valid.pkScope hr hr₀ hid.symm)
    rw [← hproject, hstands]
    exact hI a₀ h₀ r₀ hr₀ (hid.symm ▸ hbound₀)
  have ho : Origin host now db.store op (.actorToken a) := run_origin h rfl ha
  cases ho with
  | kept hkept => exact hold a hkept rfl hbound
  | @stamped row₀ _ h₀ hplace hdead =>
    cases row₀ with
    | actorToken a₀ =>
      obtain ⟨a₁, h₁, hproject, hscope⟩ := binding_of_deleted h h₀ ha hplace.1 hdead
      exact hold a₁ h₁ hproject (hscope.trans hbound)
    | _ => cases hplace
  | patched h₀ hl₀ hplace hpatch =>
    cases hpatch with
    | @actor _ projectId data a₀ _ hproject hassigned hassert =>
      cases hdata : data.accessScopeId with
      | none =>
        rw [hdata] at hassigned
        exact hold a₀ h₀ hplace.2.1.symm (hassigned.symm.trans hbound)
      | some named =>
        rw [hdata] at hassigned hassert
        have hnamed : named = some r.accessScopeId := hassigned.symm.trans hbound
        rw [hnamed] at hassert
        rw [project_of_assert h hr hassert, hplace.2.1, hproject]
  | created _ hc =>
    cases hc with
    | actor hproject hnamed hassert =>
      rw [← hnamed, hbound] at hassert
      rw [project_of_assert h hr hassert, hproject]
    | imported => exact absurd ⟨_, _, rfl⟩ himport

end

theorem boundHome_run {host : Host} {run : List (Int × Operation)} {db : Database}
    (hrun : exec (configure host) Database.empty run = some db) : BoundHome db.store := by
  refine exec_invariant (I := fun db => BoundHome db.store) (C := fun _ _ => True) ?_ run
    Database.empty db (by intro a ha; cases ha) (.of_forall fun _ _ => trivial) hrun
  intro db l db' hI _ hstep
  cases hstep
  unfold Operation.apply
  split
  · rename_i db' hok
    exact boundHome_step hI hok
  · exact hI

/-- In every database a run has led to, the removal of a live project's rows succeeds, and exactly
the rows of the project are gone. -/
theorem purge_whole (host : Host) (run : List (Int × Operation)) (db : Database)
    (hrun : exec (configure host) Database.empty run = some db) (p : Project)
    (hp : p ∈ db.store.projects) (hl : live p = true) :
    ∃ db', ProjectConfigFacade.deleteProject db p.projectId = .ok ((), db') ∧
      ∀ row, db'.store.Has row ↔ db.store.Has row ∧ ¬ Belongs db.store p.projectId row := by
  obtain ⟨hok, hgone⟩ := purge_exact db p.projectId ⟨p, hp, hl, rfl⟩
  obtain ⟨db', hdone⟩ := hok.2 ((boundHome_run hrun).inside p.projectId)
  exact ⟨db', hdone, hgone db' hdone⟩

/-- The grant that the second project's actor has on the first project's room goes with the room. -/
theorem purge_whole_foreignGrant :
    ∃ db, exec (configure sampleHost) Database.empty foreignGrant = some db ∧
      ∃ p ∈ db.store.projects, live p = true ∧
        ∃ db', ProjectConfigFacade.deleteProject db p.projectId = .ok ((), db') ∧
          ∀ row, db'.store.Has row ↔ db.store.Has row ∧ ¬ Belongs db.store p.projectId row :=
  ⟨_, rfl, _, List.mem_cons_self, rfl,
    purge_whole sampleHost foreignGrant _ rfl _ List.mem_cons_self rfl⟩

end Facade
end NolagCore
