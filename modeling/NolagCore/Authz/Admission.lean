import NolagCore.Authz.Gates
import NolagCore.Facade.Effect
import NolagCore.Lib.Transition

/-!
# Authz.Admission

The subscribe-time check against the session check. `checkRoomAccess` codes every gate of
`revalidateActor` but one, the liveness of the project, so the two part where a project is stamped
as deleted while an actor of it is live. They agree over every run of operations in which that does
not happen.
-/

namespace NolagCore
namespace Authz

open Lib Facade
open ProjectConfig (Host sampleHost)

/-- One operation at its instant; the database is the whole state. -/
def configure (host : Host) (db : Database) (l : Int × Operation) : Option Database :=
  some (l.2.apply host l.1 db)

/-- The operation leaves no live actor under a deleted project: it does not delete a project that
has one, nor create one under a project that is deleted. -/
def SparesActors (db : Database) (l : Int × Operation) : Prop :=
  match l.2 with
  | .deleteProject projectId =>
    ∀ a ∈ db.store.actorTokens, live a = true → a.projectId ≠ projectId
  | .createActorToken _ _ projectId _ =>
    ∀ p ∈ db.store.projects, p.projectId = projectId → live p = true
  | _ => True

/-- The project of a live actor is live. -/
def ProjectsLive (s : Store) : Prop :=
  ∀ a ∈ s.actorTokens, live a = true → ∀ p ∈ s.projects, p.projectId = a.projectId → live p = true

/-! ## One state -/

/-- An allowed check passed every gate of a session but the project's. -/
theorem of_allow {s : Store} {now : Int} {actorTokenId : IdText} {pattern : String}
    (h : (checkRoomAccess s now actorTokenId pattern).allow = true) :
    ∃ actorToken scope, findActor s actorTokenId.uuid = some actorToken ∧
      actorToken.status = .active ∧ expired actorToken.expiresAt now = false ∧
      resolveScope s actorToken = some scope := by
  obtain ⟨actorToken, scope, _, _, hactor, hst, hx, hscope, _⟩ | hdeny :=
    checkRoomAccess_cases s now actorTokenId pattern
  · exact ⟨actorToken, scope, hactor, hst, hx, hscope⟩
  · rw [hdeny] at h
    cases h

/-- For an actor the check admits, the session is valid exactly when its project is live. -/
theorem valid_iff_of_allow (config : CoreConfig) {s : Store} (hv : s.SchemaValid) {now : Int}
    {actorTokenId : IdText} {pattern : String}
    (h : (checkRoomAccess s now actorTokenId pattern).allow = true) :
    (∃ payload, revalidateActor config s now actorTokenId.uuid = .valid payload) ↔
      ∃ actorToken, findActor s actorTokenId.uuid = some actorToken ∧
        ∃ p ∈ s.projects, live p = true ∧ p.projectId = actorToken.projectId := by
  obtain ⟨actorToken, scope, hactor, hst, hx, hscope⟩ := of_allow h
  rw [revalidateActor_valid_iff config hv]
  constructor
  · rintro ⟨a, hid, hopen⟩
    exact ⟨a, (findActor_iff hv.pkActor).2 ⟨hopen.row, hopen.isLive, hid⟩, hopen.project⟩
  · rintro ⟨a, ha, hproject⟩
    rw [hactor] at ha
    cases ha
    obtain ⟨hrow, hl, hid⟩ := of_findActor hactor
    exact ⟨actorToken, hid, hrow, hl, hst, hx, hproject,
      (resolveScope_isSome hv.pkScope).1 ⟨scope, hscope⟩⟩

/-- Where projects of live actors are live, an allowed check implies a valid session. -/
theorem valid_of_allow (config : CoreConfig) {s : Store} (hv : s.SchemaValid) (hI : ProjectsLive s)
    {now : Int} {actorTokenId : IdText} {pattern : String}
    (h : (checkRoomAccess s now actorTokenId pattern).allow = true) :
    ∃ payload, revalidateActor config s now actorTokenId.uuid = .valid payload := by
  obtain ⟨actorToken, _, hactor, _⟩ := of_allow h
  obtain ⟨hrow, hl, _⟩ := of_findActor hactor
  obtain ⟨p, hp, hpid⟩ := hv.fkActorProject actorToken hrow _ rfl
  exact (valid_iff_of_allow config hv h).2
    ⟨actorToken, hactor, p, hp, hI actorToken hrow hl p hp hpid, hpid⟩

/-! ## Runs -/

theorem assign_keeps {legacy : String → Option Int} {data : ActorTokenFacade.ActorTokenPatchDto}
    {existing entity : ActorToken}
    (h : ActorTokenFacade.assign legacy data existing = .ok entity) :
    entity.actorTokenId = existing.actorTokenId ∧ entity.projectId = existing.projectId ∧
      entity.actorType = existing.actorType ∧ entity.deletedAt = existing.deletedAt := by
  unfold ActorTokenFacade.assign at h
  split at h
  · cases h
  · cases h
    exact ⟨rfl, rfl, rfl, rfl⟩

theorem projectsLive_step {host : Host} {now : Int} {op : Operation} {db db' : Database}
    (hI : ProjectsLive db.store) (hC : SparesActors db (now, op))
    (h : Effect host now db.store db'.store op) : ProjectsLive db'.store := by
  cases h with
  | same h =>
    unfold ProjectsLive
    rw [h.1, h.2]
    exact hI
  | projectSaved hrow hid hlive hp ha =>
    intro a hrow' hl p hp' hpid
    rw [ha] at hrow'
    rw [hp] at hp'
    rcases mem_saveRow hp' with rfl | hp'
    · exact Option.isNone_iff_eq_none.2 hlive
    · exact hI a hrow' hl p hp' hpid
  | projectDeleted hp ha =>
    intro a hrow hl p hp' hpid
    rw [ha] at hrow
    rw [hp] at hp'
    obtain ⟨p₀, hp₀, rfl⟩ := List.mem_map.1 hp'
    split at hpid
    · rename_i hdel
      exact absurd (hpid.symm.trans (of_decide_eq_true hdel)) (hC a hrow hl)
    · rename_i hdel
      rw [if_neg hdel]
      exact hI a hrow hl p₀ hp₀ hpid
  | created hop hlive hp hold hnew =>
    intro a hrow hl p hp' hpid
    rename_i new
    have hin : new ∈ db'.store.projects := (hp new).2 (.inr rfl)
    rcases (hp p).1 hp' with hpold | rfl
    · rcases hnew a hrow with haold | hanew
      · exact hI a haold hl p hpold hpid
      · have := db'.valid.pkProject.eq_of_key hp' hin (hpid.trans hanew)
        rw [this]
        exact Option.isNone_iff_eq_none.2 hlive
    · exact Option.isNone_iff_eq_none.2 hlive
  | actorCreated hproject hp ha =>
    intro a hrow hl p hp' hpid
    rw [hp] at hp'
    rw [ha, List.mem_append, List.mem_singleton] at hrow
    rcases hrow with hrow | rfl
    · exact hI a hrow hl p hp' hpid
    · exact hC p hp' (hpid.trans hproject)
  | actorUpdated hf _ he hp ha =>
    intro a hrow hl p hp' hpid
    rw [hp] at hp'
    rw [ha] at hrow
    obtain ⟨_, hproj, _, _⟩ := assign_keeps he
    rcases mem_saveRow hrow with rfl | hrow
    · obtain ⟨hex, hexl, _⟩ := of_findOne hf
      exact hI _ hex hexl p hp' (hpid.trans hproj)
    · exact hI a hrow hl p hp' hpid
  | actorDeleted hp ha =>
    intro a hrow hl p hp' hpid
    rw [hp] at hp'
    rw [ha] at hrow
    obtain ⟨a₀, ha₀, rfl⟩ := List.mem_map.1 hrow
    split at hl
    · cases hl
    · rename_i hdel
      rw [if_neg hdel] at hpid
      exact hI a₀ ha₀ hl p hp' hpid
  | purged hp ha =>
    intro a hrow hl p hp' hpid
    exact hI a ((ha a).1 hrow).1 hl p ((hp p).1 hp').1 hpid

theorem projectsLive_run {host : Host} {run : List (Int × Operation)} {db : Database}
    (hrun : exec (configure host) Database.empty run = some db)
    (hspare : Meets (configure host) SparesActors Database.empty run) : ProjectsLive db.store := by
  refine exec_invariant (I := fun db => ProjectsLive db.store) ?_ run Database.empty db ?_ hspare hrun
  · intro db l db' hI hC hstep
    cases hstep
    unfold Operation.apply
    split
    · rename_i db' hok
      exact projectsLive_step hI hC (run_effect hok)
    · exact hI
  · intro a ha
    cases ha

/-- Over every run that leaves no live actor under a deleted project, the subscribe-time check
admits nobody the session check would refuse. -/
theorem allowed_session_valid (host : Host) (config : CoreConfig) (run : List (Int × Operation))
    (db : Database) (hrun : exec (configure host) Database.empty run = some db)
    (hspare : Meets (configure host) SparesActors Database.empty run) (now : Int)
    (actorTokenId : IdText) (pattern : String)
    (hallow : (checkRoomAccess db.store now actorTokenId pattern).allow = true) :
    ∃ payload, revalidateActor config db.store now actorTokenId.uuid = .valid payload :=
  valid_of_allow config db.valid (projectsLive_run hrun hspare) hallow

/-! ## A project deleted under its actor -/

/-- A project with one open app, one room and one actor. -/
def sampleSetup : List (Int × Operation) :=
  [(0, .createProject (.of "p") { name := "Project" }),
    (0, .createApp (.of "app") (.of "p") { slug := some "chat", name := "Chat",
                                           topics := ["messages"] }),
    (0, .createRoom (.of "room") (.of "app") { slug := some "lobby", name := "Lobby" }),
    (0, .createActorToken (.of "t1") sampleBytes (.of "p") { name := "Actor", actorType := .user })]

/-- The setup run meets the condition, and the actor it leaves has a session. -/
theorem allowed_session_valid_setup :
    ∃ db, exec (configure sampleHost) Database.empty sampleSetup = some db ∧
      ∃ payload, revalidateActor {} db.store 0 (IdText.of "t1").uuid = .valid payload := by
  refine ⟨_, rfl, allowed_session_valid sampleHost {} sampleSetup _ rfl ?_ 0 (.of "t1")
    "chat/lobby/messages" (by decide)⟩
  refine ⟨trivial, fun db₁ h₁ => ⟨trivial, fun db₂ h₂ => ⟨trivial, fun db₃ h₃ => ⟨?_, ?_⟩⟩⟩⟩
  · cases h₁
    cases h₂
    cases h₃
    intro p hp _
    revert p
    decide
  · intro db₄ _
    trivial

/-- Deleting the project ends the session and leaves the check allowing. -/
theorem check_outlives_project :
    ¬ ∀ (host : Host) (config : CoreConfig) (run : List (Int × Operation)) (db : Database),
      exec (configure host) Database.empty run = some db →
      ∀ (now : Int) (actorTokenId : IdText) (pattern : String),
        (checkRoomAccess db.store now actorTokenId pattern).allow = true →
        ∃ payload, revalidateActor config db.store now actorTokenId.uuid = .valid payload := by
  intro hevery
  obtain ⟨payload, h⟩ := hevery sampleHost {} (sampleSetup ++ [(1, .deleteProject (.of "p"))]) _ rfl
    2 (.of "t1") "chat/lobby/messages" (by decide)
  cases h

end Authz
end NolagCore
