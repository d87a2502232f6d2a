import NolagCore.Authz.Service
import NolagCore.Project.Facade

/-!
# Project.Limits

What a sync of some limits does to the others. A column is written only where the caller gives it,
but one timestamp says for all three whether a null means the default or no limit. The first sync of a
project therefore changes how the columns it leaves alone are read.
-/

namespace NolagCore
namespace ProjectFacade

open Lib Authz

/-- A sync changes the limits it is given and no others. -/
structure OnlyGiven (limits : ProjectLimitsDto) (before after : ResolvedLimits) : Prop where
  keepsConnections : limits.maxConnections = none → after.maxConnections = before.maxConnections
  keepsMessageSize : limits.maxMessageSizeBytes = none →
    after.maxMessageSizeBytes = before.maxMessageSizeBytes
  keepsSessionExpiry : limits.sessionExpirySeconds = none →
    after.sessionExpirySeconds = before.sessionExpirySeconds
  givesConnections : ∀ n, 0 < n → limits.maxConnections = some (some n) →
    after.maxConnections = some n
  givesMessageSize : ∀ n, 0 < n → limits.maxMessageSizeBytes = some (some n) →
    after.maxMessageSizeBytes = some n
  givesSessionExpiry : ∀ n, 0 < n → limits.sessionExpirySeconds = some (some n) →
    after.sessionExpirySeconds = n
  freesConnections : limits.maxConnections = some none → after.maxConnections = none
  freesMessageSize : limits.maxMessageSizeBytes = some none → after.maxMessageSizeBytes = none

/-- A stored limit that stands for the default also where the project counts as synced. -/
def StandsForDefault (stored default : Option Int) : Prop := stored = some 0 ∨ stored = default

/-- The project was synced before, or what the sync leaves alone already holds the defaults. -/
def KeepsOmitted (config : CoreConfig) (project : Project) (limits : ProjectLimitsDto) : Prop :=
  project.limitsSyncedAt.isSome = true ∨
    (limits.maxConnections = none →
      StandsForDefault project.maxConnections config.defaultMaxConnections) ∧
    (limits.maxMessageSizeBytes = none →
      StandsForDefault project.maxMessageSizeBytes config.defaultMaxMessageSizeBytes) ∧
    (limits.sessionExpirySeconds = none → ∀ n, project.sessionExpirySeconds = some n → 0 < n →
      n = config.defaultSessionExpirySeconds)

/-! ## One column -/

/-- A synced column as a session reads it. -/
def readLimit (stored default : Option Int) : Option Int :=
  if stored = some 0 then default else stored

def readExpiry (stored : Option Int) (default : Int) : Int :=
  match stored with
  | some n => if n > 0 then n else default
  | none => default

/-- A positive number or a null that a sync gives is what is read. -/
theorem readLimit_given {given : Option (Option Int)} (stored default : Option Int) :
    (∀ n, 0 < n → given = some (some n) → readLimit (patch given stored) default = some n) ∧
      (given = some none → readLimit (patch given stored) default = none) := by
  constructor
  · rintro n hn rfl
    have hne : ¬ some n = some 0 := by
      intro heq
      cases heq
      omega
    exact if_neg hne
  · rintro rfl
    rfl

theorem readLimit_omitted {given : Option (Option Int)} (ho : given = none)
    (stored default : Option Int) :
    readLimit (patch given stored) default = readLimit stored default := by
  rw [ho]
  rfl

theorem readLimit_eq_default {stored default : Option Int} :
    readLimit stored default = default ↔ StandsForDefault stored default := by
  unfold readLimit StandsForDefault
  by_cases h : stored = some 0
  · simp [h]
  · simp [h]

theorem readExpiry_given {given : Option (Option Int)} (stored : Option Int) (default : Int) :
    ∀ n, 0 < n → given = some (some n) → readExpiry (patch given stored) default = n := by
  rintro n hn rfl
  exact if_pos hn

theorem readExpiry_omitted {given : Option (Option Int)} (ho : given = none) (stored : Option Int)
    (default : Int) : readExpiry (patch given stored) default = readExpiry stored default := by
  rw [ho]
  rfl

theorem readExpiry_eq_default {stored : Option Int} {default : Int} :
    readExpiry stored default = default ↔ ∀ n, stored = some n → 0 < n → n = default := by
  unfold readExpiry
  cases stored with
  | none => simp
  | some n =>
    by_cases h : n > 0
    · simp [h]
    · simp only [if_neg h, true_iff, Option.some.injEq]
      rintro m rfl hm
      exact absurd hm h

/-! ## The row before and after -/

/-- The row a sync saves. -/
def synced (now : Int) (limits : ProjectLimitsDto) (existing : Project) : Project :=
  { existing with
    maxConnections := patch limits.maxConnections existing.maxConnections
    maxMessageSizeBytes := patch limits.maxMessageSizeBytes existing.maxMessageSizeBytes
    sessionExpirySeconds := patch limits.sessionExpirySeconds existing.sessionExpirySeconds
    limitsSyncedAt := some now }

theorem resolveLimits_of_synced (config : CoreConfig) {project : Project}
    (h : project.limitsSyncedAt.isSome = true) : resolveLimits config project =
      { maxConnections := readLimit project.maxConnections config.defaultMaxConnections
        maxMessageSizeBytes :=
          readLimit project.maxMessageSizeBytes config.defaultMaxMessageSizeBytes
        sessionExpirySeconds :=
          readExpiry project.sessionExpirySeconds config.defaultSessionExpirySeconds } := by
  unfold resolveLimits
  rw [if_neg (by simp [Option.isSome_iff_ne_none.1 h])]
  rfl

theorem resolveLimits_of_unsynced (config : CoreConfig) {project : Project}
    (h : ¬ project.limitsSyncedAt.isSome = true) : resolveLimits config project =
      { maxConnections := config.defaultMaxConnections
        maxMessageSizeBytes := config.defaultMaxMessageSizeBytes
        sessionExpirySeconds := config.defaultSessionExpirySeconds } := by
  unfold resolveLimits
  rw [if_pos (by simpa using h)]

/-- The limits given take effect, whatever the row was; so the omitted ones decide. -/
theorem onlyGiven_iff (config : CoreConfig) (now : Int) (limits : ProjectLimitsDto)
    (project : Project) :
    OnlyGiven limits (resolveLimits config project)
      (resolveLimits config (synced now limits project)) ↔ KeepsOmitted config project limits := by
  have hafter : resolveLimits config (synced now limits project) =
      { maxConnections := readLimit (patch limits.maxConnections project.maxConnections)
          config.defaultMaxConnections
        maxMessageSizeBytes := readLimit
          (patch limits.maxMessageSizeBytes project.maxMessageSizeBytes)
          config.defaultMaxMessageSizeBytes
        sessionExpirySeconds := readExpiry
          (patch limits.sessionExpirySeconds project.sessionExpirySeconds)
          config.defaultSessionExpirySeconds } := resolveLimits_of_synced config rfl
  rw [hafter]
  by_cases hs : project.limitsSyncedAt.isSome = true
  · rw [resolveLimits_of_synced config hs]
    exact ⟨fun _ => .inl hs, fun _ =>
      { keepsConnections := fun ho => readLimit_omitted ho _ _
        keepsMessageSize := fun ho => readLimit_omitted ho _ _
        keepsSessionExpiry := fun ho => readExpiry_omitted ho _ _
        givesConnections := (readLimit_given _ _).1
        givesMessageSize := (readLimit_given _ _).1
        givesSessionExpiry := readExpiry_given _ _
        freesConnections := (readLimit_given _ _).2
        freesMessageSize := (readLimit_given _ _).2 }⟩
  · rw [resolveLimits_of_unsynced config hs]
    constructor
    · intro h
      refine .inr ⟨fun ho => ?_, fun ho => ?_, fun ho => ?_⟩
      · exact readLimit_eq_default.1 ((readLimit_omitted ho _ _).symm.trans (h.keepsConnections ho))
      · exact readLimit_eq_default.1 ((readLimit_omitted ho _ _).symm.trans (h.keepsMessageSize ho))
      · exact readExpiry_eq_default.1
          ((readExpiry_omitted ho _ _).symm.trans (h.keepsSessionExpiry ho))
    · intro h
      obtain ⟨hconnections, hsize, hexpiry⟩ := h.resolve_left hs
      exact
        { keepsConnections := fun ho =>
            (readLimit_omitted ho _ _).trans (readLimit_eq_default.2 (hconnections ho))
          keepsMessageSize := fun ho =>
            (readLimit_omitted ho _ _).trans (readLimit_eq_default.2 (hsize ho))
          keepsSessionExpiry := fun ho =>
            (readExpiry_omitted ho _ _).trans (readExpiry_eq_default.2 (hexpiry ho))
          givesConnections := (readLimit_given _ _).1
          givesMessageSize := (readLimit_given _ _).1
          givesSessionExpiry := readExpiry_given _ _
          freesConnections := (readLimit_given _ _).2
          freesMessageSize := (readLimit_given _ _).2 }

/-! ## The call -/

section

variable {db : Database} {projectId : Uuid} {project : Project}
  (hproject : findOne db.store.projects (fun p => decide (p.projectId = projectId)) = some project)

include hproject

/-- A sync of a live project completes, and the row is then read back as it was saved. -/
theorem syncLimits_completes (now : Int) (limits : ProjectLimitsDto) :
    ∃ db', syncLimits db now projectId limits = .ok (synced now limits project, db') ∧
      findOne db'.store.projects (fun p => decide (p.projectId = projectId)) =
        some (synced now limits project) := by
  obtain ⟨hrow, hlive, hid⟩ := of_findOne hproject
  have hid' : project.projectId = projectId := of_decide_eq_true hid
  have hv : Store.SchemaValid { db.store with
      projects := saveRow (·.projectId) (synced now limits project) db.store.projects } :=
    { db.valid with
      pkProject := by
        unfold UniqueOn
        rw [map_saveRow]
        exact db.valid.pkProject
      fkScopeProject := references_saveRow db.valid.fkScopeProject _
      fkAppProject := references_saveRow db.valid.fkAppProject _
      fkActorProject := references_saveRow db.valid.fkActorProject _
      fkKeyProject := references_saveRow db.valid.fkKeyProject _ }
  refine ⟨⟨_, hv⟩, ?_, ?_⟩
  · unfold syncLimits lock
    rw [hproject]
    exact dif_pos hv
  · have hsaved : synced now limits project ∈
        saveRow (·.projectId) (synced now limits project) db.store.projects :=
      List.mem_map.2 ⟨project, hrow, if_pos rfl⟩
    refine findOne_of_unique hsaved hlive (decide_eq_true hid') fun r hr _ hk => ?_
    exact hv.pkProject.eq_of_key hr hsaved ((of_decide_eq_true hk).trans hid'.symm)

end

/-- A sync changes exactly the limits it is given if and only if the project was synced before or the
columns it leaves alone stand for the defaults anyway. -/
theorem syncLimits_onlyGiven_iff (config : CoreConfig) (db : Database) (now : Int)
    (projectId : Uuid) (limits : ProjectLimitsDto) (project : Project)
    (hproject : findOne db.store.projects (fun p => decide (p.projectId = projectId)) =
      some project) :
    ∃ entity db', syncLimits db now projectId limits = .ok (entity, db') ∧
      findOne db'.store.projects (fun p => decide (p.projectId = projectId)) = some entity ∧
      (OnlyGiven limits (resolveLimits config project) (resolveLimits config entity) ↔
        KeepsOmitted config project limits) := by
  obtain ⟨db', hok, hread⟩ := syncLimits_completes hproject now limits
  exact ⟨_, db', hok, hread, onlyGiven_iff config now limits project⟩

/-- A project that was never synced, under a host that caps connections. -/
def freshProject : Project where
  projectId := .of "p1"
  name := "acme"

def freshDb : Database where
  store := { projects := [freshProject] }
  valid := by decide

def cappedHost : CoreConfig where
  defaultLimits := some { maxConnections := some 100 }

/-- Syncing the message size and the number of connections leaves only the session expiry. -/
theorem syncLimits_onlyGiven_iff_both :
    ∃ entity db', syncLimits freshDb 0 (.of "p1") { maxConnections := some (some 50)
                                                    maxMessageSizeBytes := some (some 1024) } =
        .ok (entity, db') ∧
      findOne db'.store.projects (fun p => decide (p.projectId = .of "p1")) = some entity ∧
      (OnlyGiven { maxConnections := some (some 50), maxMessageSizeBytes := some (some 1024) }
          (resolveLimits cappedHost freshProject) (resolveLimits cappedHost entity) ↔
        KeepsOmitted cappedHost freshProject
          { maxConnections := some (some 50), maxMessageSizeBytes := some (some 1024) }) :=
  syncLimits_onlyGiven_iff cappedHost freshDb 0 (.of "p1") _ freshProject rfl

/-- The first sync, of the message size alone, lifts the host's cap on connections. -/
theorem first_sync_lifts_default :
    ¬ ∀ (config : CoreConfig) (db : Database) (now : Int) (projectId : Uuid)
      (limits : ProjectLimitsDto) (project entity : Project) (db' : Database),
      findOne db.store.projects (fun p => decide (p.projectId = projectId)) = some project →
      syncLimits db now projectId limits = .ok (entity, db') →
        OnlyGiven limits (resolveLimits config project) (resolveLimits config entity) := by
  intro hevery
  have hproject : findOne freshDb.store.projects (fun p => decide (p.projectId = .of "p1")) =
      some freshProject := rfl
  obtain ⟨db', hok, -⟩ :=
    syncLimits_completes hproject 0 { maxMessageSizeBytes := some (some 1024) }
  have honly := hevery cappedHost freshDb 0 (.of "p1") _ freshProject _ db' rfl hok
  have hconnections := honly.keepsConnections rfl
  revert hconnections
  decide

end ProjectFacade
end NolagCore
