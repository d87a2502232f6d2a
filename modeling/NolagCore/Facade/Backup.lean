import NolagCore.Facade.Addressed
import NolagCore.ProjectConfig.Restorable

/-!
# Facade.Backup

A project can be saved and restored at any time. Every run keeps what an export relies on: slugs of
the form of slugs, expiries that are dates, memberships inside one app.
-/

namespace NolagCore
namespace Facade

open Lib Store ProjectConfig
open Authz (configure sampleSetup)

/-! ## Slugs -/

/-- The slug of a row has the form of slugs, whatever its length. -/
def SlugForm : Row → Prop
  | .accessScope r => hasEdges r.slug.toList = true
  | .app r => hasEdges r.slug.toList = true
  | .room r => hasEdges r.slug.toList = true
  | .lobby r => hasEdges r.slug.toList = true
  | _ => True

def AllSlugForm (s : Store) : Prop := ∀ row, row.isPlaced = true → s.Has row → SlugForm row

/-- The slugs an operation stores without a DTO rule on them. -/
def Operation.declaredSlugs : Operation → List String
  | .createStaticRooms _ _ rooms => rooms.map (·.slug)
  | .createStaticLobbies _ _ lobbies _ => lobbies.map (·.slug)
  | _ => []

/-- They have the form of slugs all the same. -/
def PlainSlugs (op : Operation) : Prop := ∀ slug ∈ op.declaredSlugs, hasEdges slug.toList = true

instance (op : Operation) : Decidable (PlainSlugs op) :=
  inferInstanceAs (Decidable (∀ slug ∈ op.declaredSlugs, hasEdges slug.toList = true))

theorem slugForm_of_given {slug : Option String} {generated : String} (h : slug.all isSlug = true)
    (hgenerated : slug = none → slugGroups false generated.toList = true) :
    hasEdges (slug.getD generated).toList = true := by
  cases slug with
  | none => exact hasEdges_of_slugGroups (hgenerated rfl)
  | some given => exact hasEdges_of_slugGroups (Bool.and_eq_true_iff.1 h).1

/-- A generated slug of a room or a lobby is stored only when it is not empty. -/
theorem slugForm_of_generated {slug : Option String} {name : String} (h : slug.all isSlug = true)
    (hne : slug.getD (generateSlug name) ≠ "") :
    hasEdges (slug.getD (generateSlug name)).toList = true := by
  refine slugForm_of_given h fun hnone => ?_
  rw [hnone] at hne
  exact slugGroups_generateSlug hne

section

variable {host : Host} {now : Int} {db : Database}

/-! What is known of the slug of a new lobby. -/

theorem lobby_create_slugs {lobbyId appId : Uuid} {data : LobbyFacade.LobbyCreateDto} :
    Leaves (LobbyFacade.createLobby db lobbyId appId data) fun s' => ∀ l ∈ s'.lobbies,
      l ∈ db.store.lobbies ∨ l.slug = data.slug.getD (generateSlug data.name) ∧ l.slug ≠ "" := by
  unfold LobbyFacade.createLobby
  dsimp only
  split
  · exact .error
  · unfold LobbyFacade.insertLobby
    split
    · exact .error
    · rename_i hslug
      refine .commit fun l hl => (List.mem_append.1 hl).imp_right fun hl => ?_
      cases List.mem_singleton.1 hl
      exact ⟨rfl, truthy_some.1 (Bool.not_eq_false _ ▸ hslug)⟩

theorem staticLobbies_slugs {ids : Nat → Uuid} {appId : Uuid}
    {lobbies : List LobbyFacade.StaticLobby} {createdRooms : List (Uuid × String)} :
    Leaves (LobbyFacade.createStaticLobbiesFromConfig db ids appId lobbies createdRooms) fun s' =>
      ∀ l ∈ s'.lobbies, l ∈ db.store.lobbies ∨ l.slug ∈ lobbies.map (·.slug) := by
  refine .commit fun l hl => (List.mem_append.1 hl).imp_right fun hl => ?_
  obtain ⟨i, declared, hi, rfl⟩ := mem_mapIdx_iff.1 hl
  exact List.mem_map_of_mem (List.mem_of_getElem? hi)

theorem docRows_slugForm {draws : Draws} {doc : ProjectConfigDoc} (hdto : doc.slugsValid = true)
    {row : Row} (hrow : DocRows host draws now doc row) : SlugForm row := by
  simp only [ProjectConfigDoc.slugsValid, Bool.and_eq_true, List.all_eq_true] at hdto
  obtain ⟨hscopes, happs⟩ := hdto
  cases row with
  | accessScope r =>
    obtain ⟨i, scope, hi, rfl⟩ := docRows_scope.1 hrow
    exact (Bool.and_eq_true_iff.1 (hscopes scope (List.mem_of_getElem? hi))).1
  | app r =>
    obtain ⟨i, app, hi, rfl⟩ := docRows_app.1 hrow
    exact (Bool.and_eq_true_iff.1 (happs app (List.mem_of_getElem? hi)).1.1).1
  | room r =>
    obtain ⟨i, app, j, room, hi, hj, rfl⟩ := docRows_room.1 hrow
    have hslugs := (happs app (List.mem_of_getElem? hi)).1.2
    exact (Bool.and_eq_true_iff.1 (hslugs room (List.mem_of_getElem? hj))).1
  | lobby r =>
    obtain ⟨i, app, j, lobby, hi, hj, rfl⟩ := docRows_lobby.1 hrow
    have hslugs := (happs app (List.mem_of_getElem? hi)).2
    exact (Bool.and_eq_true_iff.1 (hslugs lobby (List.mem_of_getElem? hj))).1
  | _ => trivial

variable {op : Operation} {db' : Database}

theorem slugForm_created (hdto : op.dtoValid = true) (hplain : PlainSlugs op)
    (h : op.run host now db = .ok db') {row : Row} (hs : db'.store.Has row)
    (hfresh : db.store.Lacks row) (hc : Creates host now db.store op row) : SlugForm row := by
  cases hc with
  | scope _ hslug =>
    show hasEdges _ = true
    rw [hslug]
    exact (Bool.and_eq_true_iff.1 hdto).1
  | app _ hslug =>
    show hasEdges _ = true
    rw [hslug]
    exact slugForm_of_given (Bool.and_eq_true_iff.1 hdto).1 fun _ => slugGroups_generateAppSlug _
  | room _ hslug hne =>
    show hasEdges _ = true
    rw [hslug] at hne ⊢
    exact slugForm_of_generated (Bool.and_eq_true_iff.1 hdto).1 hne
  | ensuredRoom _ hslug hne =>
    show hasEdges _ = true
    rw [hslug] at hne ⊢
    exact slugForm_of_generated (Bool.and_eq_true_iff.1 hdto).1 hne
  | staticRoom hmem _ hslug =>
    show hasEdges _ = true
    rw [hslug]
    exact hplain _ (List.mem_map_of_mem hmem)
  | @lobby _ _ data l =>
    obtain hold | ⟨hslug, hne⟩ := lobby_create_slugs.committed h l hs
    · exact absurd rfl (hfresh l hold)
    · show hasEdges _ = true
      rw [hslug] at hne ⊢
      exact slugForm_of_generated hdto hne
  | @staticLobby _ _ _ _ l =>
    obtain hold | hslug := staticLobbies_slugs.committed h l hs
    · exact absurd rfl (hfresh l hold)
    · exact hplain _ hslug
  | imported hrow => exact docRows_slugForm hdto hrow
  | _ => trivial

theorem SlugForm.of_samePlace {row₀ row : Row} (hplace : row₀.SamePlace row) (h : SlugForm row₀) :
    SlugForm row := by
  cases row₀ <;> cases row <;> first
    | exact hplace.elim
    | trivial
    | (show hasEdges _ = true; rw [hplace.2.2]; exact h)

theorem allSlugForm_step (hI : AllSlugForm db.store) (hdto : op.dtoValid = true)
    (hplain : PlainSlugs op) (h : op.run host now db = .ok db') : AllSlugForm db'.store := by
  intro row hrow hs
  rcases (run_origin h hrow hs).place hrow with ⟨row₀, h₀, hplace⟩ | ⟨hfresh, hc⟩
  · have hrow₀ : row₀.isPlaced = true := by
      cases row₀ <;> first | rfl | (cases row <;> cases hplace)
    exact (hI row₀ hrow₀ h₀).of_samePlace hplace
  · exact slugForm_created hdto hplain h hs hfresh hc

end

/-! ## Expiries -/

/-- The expiry of an actor or a grant can be written. -/
def Dated : Row → Prop
  | .actorToken r => Writable r.expiresAt
  | .roomGrant r => Writable r.expiresAt
  | .appGrant r => Writable r.expiresAt
  | _ => True

def AllDated (s : Store) : Prop :=
  ∀ row, row.isPlaced = true → row.isLive = true → s.Has row → Dated row

section

variable {host : Host} (hjs : JsDates host.legacy)

include hjs

theorem writable_of_dateColumn {text : Option String} {t : Option Int}
    (h : dateColumn host.legacy text = .ok t) : Writable t := by
  unfold dateColumn at h
  split at h
  · cases h
    exact ⟨none, rfl⟩
  · split at h
    · cases h
      exact ⟨none, rfl⟩
    · split at h
      · cases h
      · rename_i instant hdate
        cases h
        obtain ⟨iso, hiso⟩ := hjs.newDate_range hdate
        exact ⟨some iso, by simp [isoColumn, hiso]⟩

theorem actor_assign_dated {data : ActorTokenFacade.ActorTokenPatchDto}
    {existing entity : ActorToken} (h : ActorTokenFacade.assign host.legacy data existing = .ok entity)
    (hdated : Writable existing.expiresAt) : Writable entity.expiresAt := by
  unfold ActorTokenFacade.assign at h
  split at h
  · cases h
  · rename_i hdate
    cases h
    cases hgiven : data.expiresAt with
    | none => exact hdated
    | some text =>
      cases hok : dateColumn host.legacy text with
      | error e => exact absurd (by rw [hgiven, Option.map_some, hok]) (hdate e)
      | ok t =>
        have hdated : Writable t := writable_of_dateColumn hjs hok
        simpa only [Option.map_some, hok] using hdated

theorem roomGrant_assign_dated {dto : RoomActorAccessFacade.RoomActorAccessUpdateDto}
    {existing entity : RoomActorAccess}
    (h : RoomActorAccessFacade.assign host.legacy dto existing = .ok entity)
    (hdated : Writable existing.expiresAt) : Writable entity.expiresAt := by
  unfold RoomActorAccessFacade.assign at h
  split at h
  · cases h
  · rename_i hdate
    cases h
    cases hgiven : dto.expiresAt with
    | none => exact hdated
    | some text =>
      cases hok : dateColumn host.legacy text with
      | error e => exact absurd (by rw [hgiven, Option.map_some, hok]) (hdate e)
      | ok t =>
        have hdated : Writable t := writable_of_dateColumn hjs hok
        simpa only [Option.map_some, hok] using hdated

variable {now : Int} {db db' : Database}

/-! A new or patched row has the expiry it had before, or one `dateColumn` has read. -/

theorem actor_create_dated {actorTokenId projectId : Uuid} {random : CredentialBytes}
    {data : ActorTokenFacade.ActorTokenCreateDto} :
    Leaves (ActorTokenFacade.createActorToken host.legacy host.crypto db actorTokenId random projectId
      data) fun s' => ∀ a ∈ s'.actorTokens, a ∈ db.store.actorTokens ∨ Writable a.expiresAt := by
  unfold ActorTokenFacade.createActorToken
  split
  · exact .error
  · dsimp only
    split
    · exact .error
    · rename_i hdate
      refine .commit fun a ha => (List.mem_append.1 ha).imp_right fun ha => ?_
      cases List.mem_singleton.1 ha
      exact writable_of_dateColumn hjs hdate

theorem roomGrant_create_dated {roomActorAccessId roomId : Uuid}
    {dto : RoomActorAccessFacade.RoomActorAccessCreateDto} :
    Leaves (RoomActorAccessFacade.create host.legacy db roomActorAccessId roomId dto) fun s' =>
      ∀ g ∈ s'.roomActorAccess, g ∈ db.store.roomActorAccess ∨ Writable g.expiresAt := by
  unfold RoomActorAccessFacade.create
  split
  · exact .error
  · split
    · exact .error
    · split
      · exact .error
      · split
        · exact .error
        · rename_i hdate
          refine .commit fun g hg => (List.mem_append.1 hg).imp_right fun hg => ?_
          cases List.mem_singleton.1 hg
          exact writable_of_dateColumn hjs hdate

theorem roomGrant_update_dated {roomActorAccessId : Uuid}
    {dto : RoomActorAccessFacade.RoomActorAccessUpdateDto} (hI : AllDated db.store) :
    Leaves (RoomActorAccessFacade.update host.legacy db roomActorAccessId dto) fun s' =>
      ∀ g ∈ s'.roomActorAccess, g ∈ db.store.roomActorAccess ∨ Writable g.expiresAt := by
  unfold RoomActorAccessFacade.update
  split
  · exact .error
  · rename_i existing hf
    obtain ⟨hrow, hl, _⟩ := of_findOne hf
    split
    · exact .error
    · rename_i entity hassign
      refine .commit fun g hg => (mem_saveRow hg).symm.imp_right ?_
      rintro rfl
      exact roomGrant_assign_dated hjs hassign (hI (.roomGrant existing) rfl hl hrow)

theorem docRows_dated {draws : Draws} {doc : ProjectConfigDoc} {row : Row}
    (h : DocRows host draws now doc row) : Dated row := by
  cases row with
  | actorToken r =>
    obtain ⟨i, actor, accessScopeId, expiresAt, _, _, hdate, rfl⟩ := docRows_actorToken.1 h
    exact writable_of_dateColumn hjs hdate
  | appGrant r =>
    obtain ⟨i, actor, j, grant, appId, expiresAt, _, _, _, hdate, rfl⟩ := docRows_appGrant.1 h
    exact writable_of_dateColumn hjs hdate
  | roomGrant r =>
    rcases docRows_roomGrant.1 h with ⟨i, app, j, room, k, grant, _, _, _, rfl⟩ |
      ⟨i, actor, j, grant, roomId, expiresAt, _, _, _, hdate, rfl⟩
    · exact ⟨none, rfl⟩
    · exact writable_of_dateColumn hjs hdate
  | _ => trivial

theorem allDated_step {op : Operation} (hI : AllDated db.store)
    (h : op.run host now db = .ok db') : AllDated db'.store := by
  intro row hrow hl hs
  have ho : Origin host now db.store op row := run_origin h hrow hs
  cases ho with
  | kept hkept => exact hI row hrow hl hkept
  | stamped _ _ hdead => exact absurd (hl.symm.trans hdead) (by simp)
  | patched h₀ hl₀ _ hpatch =>
    cases hpatch with
    | @actor _ _ _ r₀ r =>
      have hs : r ∈ db'.store.actorTokens := hs
      cases run_effect h with
      | actorUpdated hf _ he _ hactors =>
        obtain ⟨hrow₀, hlive₀, _⟩ := of_findOne hf
        rw [hactors] at hs
        rcases mem_saveRow hs with rfl | hold
        · exact actor_assign_dated hjs he (hI (.actorToken _) rfl hlive₀ hrow₀)
        · exact hI (.actorToken r) rfl hl hold
      | same hsame =>
        rw [hsame.2] at hs
        exact hI (.actorToken r) rfl hl hs
      | projectSaved _ _ _ _ hactors =>
        rw [hactors] at hs
        exact hI (.actorToken r) rfl hl hs
      | created hop => cases hop
    | @roomGrant _ _ r₀ r =>
      obtain hold | hdated := (roomGrant_update_dated hjs hI).committed h r hs
      · exact hI (.roomGrant r) rfl hl hold
      · exact hdated
    | _ => trivial
  | created hfresh hc =>
    cases hc with
    | @actor _ _ _ _ r =>
      obtain hold | hdated := (actor_create_dated hjs).committed h r hs
      · exact hI (.actorToken r) rfl hl hold
      · exact hdated
    | @roomGrant _ _ _ r =>
      obtain hold | hdated := (roomGrant_create_dated hjs).committed h r hs
      · exact hI (.roomGrant r) rfl hl hold
      · exact hdated
    | imported hdoc => exact docRows_dated hjs hdoc
    | _ => trivial

end

/-! ## Saving and restoring -/

/-- Every slug fits its column, `varchar(100)`. -/
def SlugsFit (s : Store) : Prop :=
  ∀ slug ∈ s.accessScopes.map (·.slug) ++ s.apps.map (·.slug) ++ s.rooms.map (·.slug) ++
    s.lobbies.map (·.slug), slug.length ≤ 100

theorem isDocSlug_of_form {slug : String} (hform : hasEdges slug.toList = true)
    (hfits : slug.length ≤ 100) : isDocSlug slug = true :=
  Bool.and_eq_true_iff.2 ⟨hform, decide_eq_true hfits⟩

theorem exportable {s : Store} (hlinked : Linked s) (hslugs : AllSlugForm s) (hfits : SlugsFit s)
    (hdated : AllDated s) : Exportable s where
  scopeSlug r hr _ := isDocSlug_of_form (hslugs (.accessScope r) rfl hr) (hfits _
    (List.mem_append_left _ (List.mem_append_left _ (List.mem_append_left _ (List.mem_map_of_mem hr)))))
  appSlug r hr _ := isDocSlug_of_form (hslugs (.app r) rfl hr) (hfits _
    (List.mem_append_left _ (List.mem_append_left _ (List.mem_append_right _ (List.mem_map_of_mem hr)))))
  roomSlug r hr _ := isDocSlug_of_form (hslugs (.room r) rfl hr) (hfits _
    (List.mem_append_left _ (List.mem_append_right _ (List.mem_map_of_mem hr))))
  lobbySlug r hr _ := isDocSlug_of_form (hslugs (.lobby r) rfl hr) (hfits _
    (List.mem_append_right _ (List.mem_map_of_mem hr)))
  lobbyRoom := hlinked.lobbyRoom
  actorDate a ha hl := hdated (.actorToken a) rfl hl ha
  appGrantDate g hg hl := hdated (.appGrant g) rfl hl hg
  roomGrantDate g hg hl := hdated (.roomGrant g) rfl hl hg

theorem exportable_run {host : Host} {run : List (Int × Operation)} {db : Database}
    (hjs : JsDates host.legacy) (hrun : exec (configure host) Database.empty run = some db)
    (hdto : ∀ l ∈ run, l.2.dtoValid = true) (hplain : ∀ l ∈ run, PlainSlugs l.2)
    (hkeep : Meets (configure host) KeepsLinks Database.empty run) (hfits : SlugsFit db.store) :
    Exportable db.store := by
  have hI : Linked db.store ∧ AllSlugForm db.store ∧ AllDated db.store := by
    refine exec_invariant
      (I := fun db => Linked db.store ∧ AllSlugForm db.store ∧ AllDated db.store) ?_ run
      Database.empty db ⟨linked_empty, ?_, ?_⟩ ((hkeep.and hdto).and hplain) hrun
    · rintro db l db' ⟨hlinked, hslugs, hdated⟩ hC hstep
      cases hstep
      unfold Operation.apply
      split
      · rename_i db' hok
        exact ⟨linked_step hlinked hC.1.2 hC.1.1 hok, allSlugForm_step hslugs hC.1.2 hC.2 hok,
          allDated_step hjs hdated hok⟩
      · exact ⟨hlinked, hslugs, hdated⟩
    · exact fun row _ hs => absurd hs (not_has_empty row)
    · exact fun row _ _ hs => absurd hs (not_has_empty row)
  exact exportable hI.1 hI.2.1 hfits hI.2.2

/-- Whatever has been done to a live project, its export meets the slug rules of a document, and
any host with a key imports it into any database. An export of the copy is the document, with the
new key ids as handles. -/
theorem backup_restores (collate : String → String → Bool) (host : Host)
    (run : List (Int × Operation)) (db : Database) (hcollate : TotalOrder collate)
    (hjs : JsDates host.legacy) (hrun : exec (configure host) Database.empty run = some db)
    (hdto : ∀ l ∈ run, l.2.dtoValid = true) (hplain : ∀ l ∈ run, PlainSlugs l.2)
    (hkeep : Meets (configure host) KeepsLinks Database.empty run) (hfits : SlugsFit db.store)
    (p : Project) (hp : p ∈ db.store.projects) (hl : live p = true) :
    ∃ doc, exportProject collate db.store p.projectId = .ok doc ∧ doc.slugsValid = true ∧
      ∀ (lib : CipherLibrary) (host' : Host) (draws : Draws) (now : Int) (target : Database),
        host'.cipher = lib.encryptSecret → JsDates host'.legacy →
        (doc.signingKeys.getD [] ≠ [] → HasKey lib host'.config) →
        FreshDraws host' draws doc target.store →
        ∃ credentials target' copy,
          ProjectConfigFacade.importProject host' draws now target doc = .ok (credentials, target') ∧
          exportProject collate target'.store credentials.projectId = .ok copy ∧
          copy.Same (doc.reissued credentials) := by
  have he := exportable_run hjs hrun hdto hplain hkeep hfits
  obtain ⟨doc, hdoc⟩ : ∃ doc, exportProject collate db.store p.projectId = .ok doc :=
    exportProject_isOk db.valid he ⟨p, hp, hl, rfl⟩
  have hw := exportProject_written hdoc
  refine ⟨doc, hdoc, slugsValid_exported hw he, ?_⟩
  intro lib host' draws now target hcipher hjs' hkey hfresh
  exact restored db.valid he hw hcollate now hcipher hjs' hkey hfresh

/-! ## A sample -/

theorem homeGrant_keepsLinks :
    Meets (configure sampleHost) KeepsLinks Database.empty homeGrant := by
  refine ⟨trivial, fun db₁ h₁ => ⟨trivial, fun db₂ h₂ => ⟨trivial, fun db₃ h₃ => ⟨trivial,
    fun db₄ h₄ => ⟨?_, fun db₅ h₅ => trivial⟩⟩⟩⟩⟩
  cases h₁
  cases h₂
  cases h₃
  cases h₄
  intro a ha _ room hroom _ app happ _
  cases List.mem_singleton.1 ha
  cases List.mem_singleton.1 happ
  rfl

/-- The export of the sample project. -/
def homeDoc : ProjectConfigDoc where
  version := 1
  project := { name := "Project" }
  accessScopes := some []
  apps := some [
    { slug := "chat", name := "Chat", status := some .active, accessMode := some .open
      topics := ["messages"]
      rooms := some [{ slug := "lobby", name := "Lobby", status := some .active
                       topics := some ["messages"], typeGrants := some [] }]
      lobbies := some [] }]
  actors := some [
    { ref := "at_live_000000000000", name := "Actor", actorType := .user, status := some .active
      appAccess := some []
      roomAccess := some [{ appSlug := "chat", roomSlug := "lobby", permission := .pubSub
                            isActive := some true }] }]
  signingKeys := some []

theorem homeDoc_fresh : FreshDraws keyedHost keyedDraws homeDoc Database.empty.store :=
  ⟨by decide, by decide, by decide, by decide, by decide, by decide, by decide, by decide,
    by decide, by decide, by decide⟩

/-- The sample project restored into an empty database. -/
theorem backup_restores_homeGrant :
    ∃ db, exec (configure sampleHost) Database.empty homeGrant = some db ∧
      exportProject collateC db.store (.of "p") = .ok homeDoc ∧
      ∃ credentials target' copy,
        ProjectConfigFacade.importProject keyedHost keyedDraws 0 Database.empty homeDoc =
          .ok (credentials, target') ∧
        exportProject collateC target'.store credentials.projectId = .ok copy ∧
        copy.Same (homeDoc.reissued credentials) := by
  obtain ⟨db, hdb⟩ : ∃ db, exec (configure sampleHost) Database.empty homeGrant = some db := ⟨_, rfl⟩
  have hexport : exportProject collateC db.store (.of "p") = .ok homeDoc := by
    cases hdb
    rfl
  obtain ⟨p, hp, hl, hid⟩ : ∃ p ∈ db.store.projects, live p = true ∧ p.projectId = .of "p" := by
    cases hdb
    exact ⟨_, List.mem_cons_self, rfl, rfl⟩
  have hfits : SlugsFit db.store := by
    cases hdb
    show ∀ slug ∈ ["chat", "lobby"], slug.length ≤ 100
    decide
  obtain ⟨doc, hdoc, -, hrestore⟩ := backup_restores collateC sampleHost homeGrant db collateC_order
    noLegacy_jsDates hdb (by decide) (by decide) homeGrant_keepsLinks hfits p hp hl
  rw [hid, hexport] at hdoc
  cases hdoc
  exact ⟨db, hdb, hexport, hrestore sampleCipherLibrary keyedHost keyedDraws 0 Database.empty rfl
    noLegacy_jsDates (fun h => absurd rfl h) homeDoc_fresh⟩

end Facade
end NolagCore
