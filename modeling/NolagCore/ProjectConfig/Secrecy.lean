import NolagCore.ProjectConfig.ExportSpec

/-!
# ProjectConfig.Secrecy

What of the stored credentials reaches a document. `scrub` blanks every field that may carry one;
two states that agree once scrubbed differ in credentials only. Secret hashes and encrypted signing
secrets never leave the store, the headers of webhooks do.
-/

namespace NolagCore

open Lib

/-! ## Blanking credentials -/

/-- The names of the headers stay. -/
def WebhookConfig.scrub (w : WebhookConfig) : WebhookConfig :=
  { w with headers := w.headers.map fun headers => headers.map fun h => (h.1, "") }

def TopicWebhooks.scrub (w : TopicWebhooks) : TopicWebhooks where
  onPublish := w.onPublish.map (·.scrub)
  onSubscribe := w.onSubscribe.map (·.scrub)

def TopicConfig.scrub (c : TopicConfig) : TopicConfig :=
  { c with webhooks := c.webhooks.map (·.scrub) }

def scrubTopicConfigs (configs : TopicConfigs) : TopicConfigs :=
  configs.map fun e => (e.1, e.2.map (·.scrub))

def PlatformApp.scrub (app : PlatformApp) : PlatformApp :=
  { app with
    topicConfigs := app.topicConfigs.map scrubTopicConfigs
    hydrationWebhook := app.hydrationWebhook.map (·.scrub)
    triggerWebhook := app.triggerWebhook.map (·.scrub) }

def ActorToken.scrub (actor : ActorToken) : ActorToken := { actor with secretHash := "" }

def SigningKey.scrub (key : SigningKey) : SigningKey := { key with secretEncrypted := "" }

def Store.scrub (s : Store) : Store :=
  { s with
    apps := s.apps.map (·.scrub)
    actorTokens := s.actorTokens.map (·.scrub)
    signingKeys := s.signingKeys.map (·.scrub) }

/-- An app is its scrubbed row with the webhooks put back. -/
theorem PlatformApp.eq_of_scrub {app app' : PlatformApp} (h : app.scrub = app'.scrub)
    (hconfigs : app.topicConfigs = app'.topicConfigs)
    (hhydration : app.hydrationWebhook = app'.hydrationWebhook)
    (htrigger : app.triggerWebhook = app'.triggerWebhook) : app = app' := by
  cases app
  cases app'
  simp only at hconfigs hhydration htrigger
  subst hconfigs hhydration htrigger
  simpa [PlatformApp.scrub] using h

namespace ProjectConfig

/-! ## Queries on scrubbed rows -/

/-- An ordered query reads through a rewriting that keeps its filter and its order. -/
theorem query_map {α : Type} [SoftDelete α] {collate : String → String → Bool} {key : α → String}
    {p : α → Bool} (f : α → α) (hlive : ∀ r, live (f r) = live r) (hp : ∀ r, p (f r) = p r)
    (hkey : ∀ r, key (f r) = key r) (rows : List α) :
    orderBy collate key (findAll (rows.map f) p) = (orderBy collate key (findAll rows p)).map f := by
  rw [findAll_map f hlive hp]
  unfold orderBy
  symm
  refine List.map_insertionSort (fun a b => collate (key a) (key b) = true)
    (fun a b => collate (key a) (key b) = true) f _ fun a _ b _ => ?_
  rw [hkey, hkey]

section Scrubbed

variable (collate : String → String → Bool) (s : Store) (projectId : Uuid)

theorem appsOf_scrub :
    appsOf collate s.scrub projectId = (appsOf collate s projectId).map PlatformApp.scrub :=
  query_map PlatformApp.scrub (fun _ => rfl) (fun _ => rfl) (fun _ => rfl) s.apps

theorem actorsOf_scrub :
    actorsOf collate s.scrub projectId = (actorsOf collate s projectId).map ActorToken.scrub :=
  query_map ActorToken.scrub (fun _ => rfl) (fun _ => rfl) (fun _ => rfl) s.actorTokens

/-- The signing keys as a document names them. -/
def keyDocs : List SigningKeyDoc :=
  (orderBy collate (·.keyId) (findAll s.signingKeys fun k => decide (k.projectId = projectId))).map
    fun k => { ref := k.keyId, name := k.name }

theorem keyDocs_scrub : keyDocs collate s.scrub projectId = keyDocs collate s projectId := by
  unfold keyDocs Store.scrub
  dsimp only
  rw [query_map SigningKey.scrub (fun _ => rfl) (fun _ => rfl) (fun _ => rfl), List.map_map]
  rfl

theorem roomRefById_scrub (apps : List PlatformApp) :
    roomRefById collate s.scrub (apps.map PlatformApp.scrub) = roomRefById collate s apps := by
  unfold roomRefById
  have hlisted : listedRooms collate s.scrub (apps.map PlatformApp.scrub) =
      (listedRooms collate s apps).map fun e => (e.1.scrub, e.2) := by
    unfold listedRooms
    rw [List.flatMap_map, List.map_flatMap]
    refine List.flatMap_congr fun app _ => ?_
    rw [List.map_map]
    rfl
  rw [hlisted, OrderedMap.ofList_map]
  rfl

/-- The actors of a document do not depend on any credential. -/
theorem actorDocs_scrub :
    mapOk (exportActorOf collate s.scrub projectId) (actorsOf collate s.scrub projectId) =
      mapOk (exportActorOf collate s projectId) (actorsOf collate s projectId) := by
  rw [actorsOf_scrub, mapOk_map]
  congr 1
  funext actor
  unfold exportActorOf
  rw [appsOf_scrub, roomRefById_scrub, OrderedMap.ofList_map]
  rfl

end Scrubbed

/-! ## Apps in a document -/

/-- The part of an app's document that no credential reaches does not depend on the app rows. -/
theorem exportApp_scrub (collate : String → String → Bool) (s : Store) (seen : List PlatformApp)
    (app : PlatformApp) : exportApp collate s.scrub seen app = exportApp collate s seen app := rfl

theorem exportApps_congr {collate : String → String → Bool} {s s' : Store}
    (h : s.scrub = s'.scrub) (apps : List PlatformApp) :
    exportApps collate s apps = exportApps collate s' apps := by
  unfold exportApps
  congr 1
  funext i app
  rw [← exportApp_scrub collate s, h, exportApp_scrub]

/-- Documents that list the same apps come from the same rows. -/
theorem apps_of_docs {collate : String → String → Bool} {s s' : Store} {apps apps' : List PlatformApp}
    (hscrub : apps.map PlatformApp.scrub = apps'.map PlatformApp.scrub)
    (hdocs : exportApps collate s apps = exportApps collate s' apps') : apps = apps' := by
  apply List.ext_getElem?
  intro i
  have hrow := congrArg (·[i]?) hscrub
  have hdoc := congrArg (·[i]?) hdocs
  simp only [List.getElem?_map, exportApps, List.getElem?_mapIdx] at hrow hdoc
  cases happ : apps[i]? with
  | none =>
    rw [happ, Option.map_none] at hrow
    rw [Option.map_eq_none_iff.1 hrow.symm]
  | some app =>
    rw [happ, Option.map_some] at hrow hdoc
    obtain ⟨app', happ', hrow'⟩ := Option.map_eq_some_iff.1 hrow.symm
    rw [happ', Option.map_some] at hdoc
    have hfields := Option.some.inj hdoc
    rw [happ']
    congr 1
    exact PlatformApp.eq_of_scrub hrow'.symm (congrArg AppDoc.topicConfigs hfields)
      (congrArg AppDoc.hydrationWebhook hfields) (congrArg AppDoc.triggerWebhook hfields)

/-! ## When an export succeeds -/

/-- A stored instant that a document can write. -/
def Writable (t : Option Int) : Prop := ∃ text, isoColumn t = .ok text

/-- The dates a document of the project would carry: on its live actors, on every app grant they
hold, and on the room grants that lead to a listed room. -/
def DatesFit (s : Store) (projectId : Uuid) : Prop :=
  ∀ actor, ActorOf s projectId actor → Writable actor.expiresAt ∧
    (∀ g ∈ appGrantsOf s actor, Writable g.expiresAt) ∧
    ∀ g ∈ roomGrantsOf s actor, ∀ app room, RoomOf s projectId app room →
      room.roomId = g.roomId → Writable g.expiresAt

section

variable {collate : String → String → Bool} {s : Store} {projectId : Uuid}

theorem exportActor_isOk (hs : s.SchemaValid) {actor : ActorToken} :
    (∃ doc, exportActorOf collate s projectId actor = .ok doc) ↔ Writable actor.expiresAt ∧
      (∀ g ∈ appGrantsOf s actor, Writable g.expiresAt) ∧
      ∀ g ∈ roomGrantsOf s actor, ∀ app room, RoomOf s projectId app room →
        room.roomId = g.roomId → Writable g.expiresAt := by
  constructor
  · rintro ⟨doc, h⟩
    have hexported := exportActor_ok hs h
    obtain ⟨t, ht, -⟩ := bind_ok.1 h
    exact ⟨⟨t, ht⟩, hexported.appDates, hexported.roomDates⟩
  · rintro ⟨⟨t, ht⟩, happs, hrooms⟩
    obtain ⟨appAccess, happAccess⟩ : ∃ docs, mapOk (exportAppGrant (OrderedMap.ofList
        (·.appId) (·.slug) (appsOf collate s projectId))) (appGrantsOf s actor) = .ok docs := by
      refine mapOk_isOk.2 fun g hg => ?_
      obtain ⟨text, htext⟩ := happs g hg
      exact ⟨_, bind_ok.2 ⟨text, htext, rfl⟩⟩
    obtain ⟨roomAccess, hroomAccess⟩ : ∃ docs, mapOk (exportRoomGrant (roomRefById collate s
        (appsOf collate s projectId))) (roomGrantsOf s actor) = .ok docs := by
      refine mapOk_isOk.2 fun g hg => ?_
      unfold exportRoomGrant
      split
      · exact ⟨_, rfl⟩
      · rename_i ref href
        obtain ⟨app, room, hroom, hid, _⟩ := (roomRefById_iff hs).1 href
        obtain ⟨text, htext⟩ := hrooms g hg app room hroom hid
        exact ⟨_, bind_ok.2 ⟨text, htext, rfl⟩⟩
    exact ⟨_, bind_ok.2 ⟨t, ht, bind_ok.2 ⟨appAccess, happAccess,
      bind_ok.2 ⟨roomAccess, hroomAccess, rfl⟩⟩⟩⟩

theorem actorDocs_isOk (hs : s.SchemaValid) :
    (∃ docs, mapOk (exportActorOf collate s projectId) (actorsOf collate s projectId) = .ok docs) ↔
      DatesFit s projectId := by
  rw [mapOk_isOk]
  constructor
  · intro h actor hactor
    exact (exportActor_isOk hs).1 (h actor (mem_actorsOf.2 hactor))
  · intro h actor hactor
    exact (exportActor_isOk hs).2 (h actor (mem_actorsOf.1 hactor))

end

/-! ## Two runs -/

/-- The document once the actors are written. -/
def docOf (collate : String → String → Bool) (s : Store) (projectId : Uuid) (project : Project)
    (actors : List ActorDoc) : ProjectConfigDoc where
  version := docVersion
  project :=
    { name := project.name
      description := project.description
      organizationId := project.organizationId
      limits := project.limitsSyncedAt.map fun _ =>
        { maxConnections := project.maxConnections
          maxMessageSizeBytes := project.maxMessageSizeBytes
          sessionExpirySeconds := project.sessionExpirySeconds } }
  accessScopes := some ((scopesOf collate s projectId).map exportScope)
  apps := some (exportApps collate s (appsOf collate s projectId))
  actors := some actors
  signingKeys := some (keyDocs collate s projectId)

def findProject (s : Store) (projectId : Uuid) : Option Project :=
  findOne s.projects fun p => decide (p.projectId = projectId)

theorem exportProject_eq (collate : String → String → Bool) (s : Store) (projectId : Uuid) :
    exportProject collate s projectId =
      match findProject s projectId with
      | none => .error (.notFound "Project not found")
      | some project =>
        mapOk (exportActorOf collate s projectId) (actorsOf collate s projectId) >>= fun actors =>
          .ok (docOf collate s projectId project actors) := rfl

section TwoRuns

variable {s s' : Store} (h : s.scrub = s'.scrub)
include h

theorem findProject_congr (projectId : Uuid) :
    findProject s projectId = findProject s' projectId := by
  show findProject s.scrub projectId = findProject s'.scrub projectId
  rw [h]

theorem actorDocs_congr (collate : String → String → Bool) (projectId : Uuid) :
    mapOk (exportActorOf collate s projectId) (actorsOf collate s projectId) =
      mapOk (exportActorOf collate s' projectId) (actorsOf collate s' projectId) := by
  rw [← actorDocs_scrub, h, actorDocs_scrub]

theorem appsOf_congr (collate : String → String → Bool) (projectId : Uuid) :
    (appsOf collate s projectId).map PlatformApp.scrub =
      (appsOf collate s' projectId).map PlatformApp.scrub := by
  rw [← appsOf_scrub, h, appsOf_scrub]

/-- Two documents agree when they list the same app rows: nothing else can differ. -/
theorem docOf_congr_iff (collate : String → String → Bool) (projectId : Uuid) (project : Project)
    (actors : List ActorDoc) :
    docOf collate s projectId project actors = docOf collate s' projectId project actors ↔
      appsOf collate s projectId = appsOf collate s' projectId := by
  have hscopes : scopesOf collate s projectId = scopesOf collate s' projectId := by
    show scopesOf collate s.scrub projectId = scopesOf collate s'.scrub projectId
    rw [h]
  have hkeys : keyDocs collate s projectId = keyDocs collate s' projectId := by
    rw [← keyDocs_scrub, h, keyDocs_scrub]
  constructor
  · intro hdoc
    have happs := Option.some.inj (congrArg ProjectConfigDoc.apps hdoc)
    exact apps_of_docs (appsOf_congr h collate projectId) happs
  · intro happs
    unfold docOf
    rw [hscopes, hkeys, happs, exportApps_congr h]

/-- Apps listed in the same order are the same rows when each is a row of the other state. -/
theorem appsOf_eq_iff (hs' : s'.SchemaValid) (collate : String → String → Bool) (projectId : Uuid) :
    appsOf collate s projectId = appsOf collate s' projectId ↔
      ∀ app, AppOf s projectId app → app ∈ s'.apps := by
  constructor
  · intro happs app happ
    have hm : app ∈ appsOf collate s projectId := mem_appsOf.2 happ
    rw [happs] at hm
    exact (mem_appsOf.1 hm).1
  · intro hrows
    apply List.ext_getElem?
    intro i
    have hrow := congrArg (·[i]?) (appsOf_congr h collate projectId)
    simp only [List.getElem?_map] at hrow
    cases happ : (appsOf collate s projectId)[i]? with
    | none =>
      rw [happ, Option.map_none] at hrow
      rw [Option.map_eq_none_iff.1 hrow.symm]
    | some app =>
      rw [happ, Option.map_some] at hrow
      obtain ⟨app', happ', hrow'⟩ := Option.map_eq_some_iff.1 hrow.symm
      rw [happ']
      have hin := hrows app (mem_appsOf.1 (List.mem_of_getElem? happ))
      have hin' := (mem_appsOf.1 (List.mem_of_getElem? happ')).1
      have hid : app'.scrub.appId = app.scrub.appId := congrArg PlatformApp.appId hrow'
      exact congrArg some (hs'.pkApp.eq_of_key hin hin' hid.symm)

end TwoRuns

/-- An export shows the webhook headers of the project's live apps, and no other credential. -/
theorem export_hides_iff (collate : String → String → Bool) (db db' : Database)
    (h : db.store.scrub = db'.store.scrub) (projectId : Uuid) :
    exportProject collate db.store projectId = exportProject collate db'.store projectId ↔
      (∀ p ∈ db.store.projects, live p = true → p.projectId ≠ projectId) ∨
        ¬ DatesFit db.store projectId ∨
        ∀ app, AppOf db.store projectId app → app ∈ db'.store.apps := by
  rw [exportProject_eq, exportProject_eq, ← findProject_congr h, ← actorDocs_congr h]
  cases hproject : findProject db.store projectId with
  | none =>
    refine iff_of_true rfl (.inl fun p hp hl hid => ?_)
    have hnot := findOne_eq_none.1 hproject p hp hl
    simp [hid] at hnot
  | some project =>
    obtain ⟨hrow, hlive, hid⟩ := of_findOne hproject
    have hnot : ¬ ∀ p ∈ db.store.projects, live p = true → p.projectId ≠ projectId :=
      fun hgone => hgone project hrow hlive (of_decide_eq_true hid)
    simp only [hnot, false_or]
    cases hactors : mapOk (exportActorOf collate db.store projectId)
        (actorsOf collate db.store projectId) with
    | error e =>
      refine iff_of_true rfl (.inl fun hfit => ?_)
      obtain ⟨docs, hdocs⟩ : ∃ docs, mapOk (exportActorOf collate db.store projectId)
          (actorsOf collate db.store projectId) = .ok docs := (actorDocs_isOk db.valid).2 hfit
      rw [hactors] at hdocs
      cases hdocs
    | ok actors =>
      have hfit : DatesFit db.store projectId := (actorDocs_isOk db.valid).1 ⟨actors, hactors⟩
      simp only [hfit, not_true, false_or]
      rw [← appsOf_eq_iff h db'.valid collate, ← docOf_congr_iff h collate projectId project actors]
      exact ⟨Except.ok.inj, congrArg Except.ok⟩

/-! ## A webhook header -/

/-- A project whose one app is hydrated from a webhook that asks for a bearer token. -/
def webhookDb (token : String) : Store where
  projects := [{ projectId := .of "p1", name := "acme" }]
  apps := [{ appId := .of "a1", projectId := .of "p1", name := "Chat", slug := "chat",
             hydrationWebhook := some { url := "/hydrate",
                                        headers := some [("Authorization", token)] } }]

def firstWebhookDb : Database := ⟨webhookDb "Bearer one", by decide⟩

def secondWebhookDb : Database := ⟨webhookDb "Bearer two", by decide⟩

/-- The two states differ in the token only, and so do the two documents. -/
theorem webhook_header_exported :
    ¬ ∀ (collate : String → String → Bool) (db db' : Database) (projectId : Uuid),
      db.store.scrub = db'.store.scrub →
      exportProject collate db.store projectId = exportProject collate db'.store projectId := by
  intro hevery
  have hsame := hevery (fun _ _ => true) firstWebhookDb secondWebhookDb (.of "p1") (by decide)
  revert hsame
  decide

/-- The characterisation at the same two states. -/
theorem export_hides_iff_webhook :
    exportProject (fun _ _ => true) firstWebhookDb.store (.of "p1") =
        exportProject (fun _ _ => true) secondWebhookDb.store (.of "p1") ↔
      (∀ p ∈ firstWebhookDb.store.projects, live p = true → p.projectId ≠ .of "p1") ∨
        ¬ DatesFit firstWebhookDb.store (.of "p1") ∨
        ∀ app, AppOf firstWebhookDb.store (.of "p1") app → app ∈ secondWebhookDb.store.apps :=
  export_hides_iff (fun _ _ => true) firstWebhookDb secondWebhookDb (by decide) (.of "p1")

end ProjectConfig
end NolagCore
