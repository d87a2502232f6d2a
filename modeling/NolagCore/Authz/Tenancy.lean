import NolagCore.Authz.Gates
import NolagCore.Lib.Text

/-!
# Authz.Tenancy

Access scopes as address spaces. Every address handed out is put together from the scope the entry
point resolved, so an actor never receives an address of another tenant, whatever the topic names
contain.
-/

namespace NolagCore

open Lib

namespace Store

/-- The primary keys that are uuids, table by table. -/
def tableIds (s : Store) : List (List Uuid) :=
  [s.projects.map (·.projectId), s.accessScopes.map (·.accessScopeId), s.apps.map (·.appId),
    s.rooms.map (·.roomId), s.roomActorAccess.map (·.roomActorAccessId),
    s.lobbies.map (·.lobbyId), s.actorTokens.map (·.actorTokenId),
    s.actorTokenStates.map (·.actorTokenStateId), s.actorAppAccess.map (·.actorAppAccessId),
    s.signingKeys.map (·.signingKeyId)]

/-- No id occurs in two tables. -/
def IdsApart (s : Store) : Prop :=
  s.tableIds.Pairwise fun ids ids' => ∀ id ∈ ids, id ∉ ids'

instance (s : Store) : Decidable s.IdsApart :=
  inferInstanceAs (Decidable (List.Pairwise _ _))

theorem IdsApart.scope_ne_room {s : Store} (h : s.IdsApart) {scope : AccessScope} {room : Room}
    (hscope : scope ∈ s.accessScopes) (hroom : room ∈ s.rooms) :
    scope.accessScopeId ≠ room.roomId := by
  intro heq
  simp only [IdsApart, tableIds, List.pairwise_cons] at h
  have hapart := h.2.1 (s.rooms.map (·.roomId)) (by simp) scope.accessScopeId
    (List.mem_map_of_mem hscope)
  exact hapart (List.mem_map.2 ⟨room, hroom, heq.symm⟩)

end Store

namespace Authz

/-! ## What an actor receives -/

/-- A session that an entry point answers with, for the actor row it resolves. -/
inductive Session (s : Store) (actorToken : ActorToken) : ActorSessionPayload → Prop
  | byCredential {env : Env} {now : Int} {caches : Caches} {accessToken : String}
      {payload : ActorSessionPayload} {authExpiresAt : Option Rat}
      (shape : isClientTokenJwt accessToken = false)
      (row : (ActorTokens.authenticateActorToken env.crypto s now caches.auth accessToken).1 =
        some actorToken)
      (valid : (validateActor env s now caches accessToken).1 =
        .ok (.valid payload authExpiresAt)) : Session s actorToken payload
  | byClientToken {env : Env} {now : Int} {caches : Caches} {accessToken : String}
      {payload : ActorSessionPayload} {authExpiresAt : Option Rat}
      {verified : SigningKeys.VerifiedClientToken}
      (shape : isClientTokenJwt accessToken = true)
      (token : (SigningKeys.verifyClientToken env.lib env.config s now caches.kid accessToken).1 =
        .ok (some verified))
      (row : ActorTokens.getActiveActorByKeyId s now verified.payload.sub = some actorToken)
      (valid : (validateActor env s now caches accessToken).1 =
        .ok (.valid payload authExpiresAt)) : Session s actorToken payload
  | refreshed {config : CoreConfig} {now : Int} {actorTokenId : Uuid}
      {payload : ActorSessionPayload} (row : findActor s actorTokenId = some actorToken)
      (valid : revalidateActor config s now actorTokenId = .valid payload) :
      Session s actorToken payload

/-- What a live check answers, for the actor row it resolves. -/
inductive Checked (s : Store) (actorToken : ActorToken) : CheckRoomAccessResult → Prop
  | live {now : Int} {actorTokenId : IdText} {pattern : String}
      (row : findActor s actorTokenId.uuid = some actorToken) :
      Checked s actorToken (checkRoomAccess s now actorTokenId pattern)

/-- The actor is handed an address: a pattern with the internal topic it stands for. -/
inductive Receives (s : Store) (actorToken : ActorToken) : String → String → Prop
  | allowed {payload : ActorSessionPayload} {appAccess : AppAccess} {e : AllowedTopic}
      (session : Session s actorToken payload) (app : appAccess ∈ payload.apps)
      (mem : e ∈ appAccess.allowedTopics) : Receives s actorToken e.pattern e.topic
  | active {payload : ActorSessionPayload} {appAccess : AppAccess} {sub : ActiveSubscription}
      (session : Session s actorToken payload) (app : appAccess ∈ payload.apps)
      (mem : sub ∈ appAccess.activeSubscriptions) : Receives s actorToken sub.pattern sub.topic
  | checked {r : CheckRoomAccessResult} {e : AllowedTopic} (check : Checked s actorToken r)
      (mem : e ∈ r.allowedTopics) : Receives s actorToken e.pattern e.topic

/-- A live, active scope of the actor's own project, which its row names. -/
structure OwnScope (s : Store) (actorToken : ActorToken) (scope : AccessScope) : Prop where
  row : scope ∈ s.accessScopes
  isLive : live scope = true
  named : actorToken.accessScopeId = some scope.accessScopeId
  home : scope.projectId = actorToken.projectId
  active : scope.isActive = true

/-- An address of the scope: the internal topic starts with the scope's id, and the pattern has
its slug after the app's, where there is a slug to put there. -/
def InSpace (s : Store) (scope : AccessScope) (pattern topic : String) : Prop :=
  ∃ app ∈ s.apps, ∃ room ∈ s.rooms, ∃ topicName,
    topic = scope.accessScopeId.text ++ "/" ++ room.roomId.text ++ "/" ++ topicName ∧
    (scope.slug ≠ "" →
      pattern = app.slug ++ "/" ++ scope.slug ++ "/" ++ room.slug ++ "/" ++ topicName)

/-! ## Where addresses come from -/

/-- `(pattern, topic)` is built from rows of the store with the given scope. -/
def BuiltFrom (s : Store) (scope : ResolvedScope) (pattern topic : String) : Prop :=
  ∃ app ∈ s.apps, ∃ room ∈ s.rooms, ∃ topicName p,
    pattern = (buildAllowedTopic app.slug room topicName p scope).pattern ∧
    topic = (buildAllowedTopic app.slug room topicName p scope).topic

theorem built_of_allowed {s : Store} {now : Int} {actorToken : ActorToken} {scope : ResolvedScope}
    {appAccess : AppAccess} (happ : appAccess ∈ buildAppAccess s now actorToken scope)
    {e : AllowedTopic} (he : e ∈ appAccess.allowedTopics) : BuiltFrom s scope e.pattern e.topic := by
  obtain ⟨access, ha, _, _, htopics⟩ := of_mem_buildAppAccess happ
  rw [htopics] at he
  obtain ⟨room, hroom, p, topicName, _, rfl⟩ := mem_allowedTopics.1 he
  have hrow := (of_mem_validAppAccess ha).1
  exact ⟨access.app, hrow, room, (mem_activeRooms.1 hroom).1, topicName, p, rfl, rfl⟩

/-- A recorded subscription is handed back with the internal topic of an allowed entry. -/
theorem allowed_of_active {s : Store} {now : Int} {actorToken : ActorToken} {scope : ResolvedScope}
    {appAccess : AppAccess} (happ : appAccess ∈ buildAppAccess s now actorToken scope)
    {sub : ActiveSubscription} (hsub : sub ∈ appAccess.activeSubscriptions) :
    ∃ appAccess' ∈ buildAppAccess s now actorToken scope, ∃ e ∈ appAccess'.allowedTopics,
      sub.pattern = e.pattern ∧ sub.topic = e.topic := by
  unfold buildAppAccess at happ ⊢
  split at happ
  · cases happ
  · rename_i hne
    rw [if_neg hne]
    obtain ⟨⟨appId, build⟩, _, rfl⟩ := List.mem_map.1 happ
    obtain ⟨⟨_, sub'⟩, hmem, rfl⟩ := List.mem_map.1 hsub
    unfold activeSubscriptionsByApp at hmem
    rw [OrderedMap.getD_groupBy] at hmem
    obtain ⟨recorded, _, hrec⟩ := List.mem_filterMap.1 (List.mem_filter.1 hmem).1
    obtain ⟨⟨id, topic⟩, hget, heq⟩ := Option.map_eq_some_iff.1 hrec
    cases heq
    obtain ⟨⟨pattern, target⟩, hx, hp, ht⟩ := OrderedMap.of_mem_ofList
      (OrderedMap.mem_entries_iff.2 hget)
    obtain ⟨build', hbuild', hx⟩ := List.mem_flatMap.1 hx
    obtain ⟨⟨key, _⟩, hentry, rfl⟩ := List.mem_map.1 hbuild'
    obtain ⟨e, he, hpair⟩ := List.mem_map.1 hx
    cases hpair
    cases ht
    refine ⟨_, List.mem_map_of_mem hentry, e, he, ?_, rfl⟩
    exact hp.symm

theorem built_of_payload {config : CoreConfig} {s : Store} {now : Int} {actorToken : ActorToken}
    {payload : ActorSessionPayload}
    (h : buildSessionPayload config s now actorToken = .ok payload) :
    ∃ scope, resolveScope s actorToken = some scope ∧
      ∀ appAccess ∈ payload.apps,
        (∀ e ∈ appAccess.allowedTopics, BuiltFrom s scope e.pattern e.topic) ∧
        ∀ sub ∈ appAccess.activeSubscriptions, BuiltFrom s scope sub.pattern sub.topic := by
  obtain ⟨_, scope, _, hscope, _, _, happs⟩ := of_buildSessionPayload h
  refine ⟨scope, hscope, fun appAccess happ => ?_⟩
  rw [happs] at happ
  constructor
  · intro e he
    exact built_of_allowed happ he
  · intro sub hsub
    obtain ⟨appAccess', happ', e, he, hp, ht⟩ := allowed_of_active happ hsub
    rw [hp, ht]
    exact built_of_allowed happ' he

/-- Whatever the way in, a session is the payload built for the row that was resolved. -/
theorem Session.built {s : Store} {actorToken : ActorToken} {payload : ActorSessionPayload}
    (h : Session s actorToken payload) :
    ∃ config now, buildSessionPayload config s now actorToken = .ok payload := by
  cases h with
  | @byCredential env now caches accessToken payload authExpiresAt shape row valid =>
    refine ⟨env.config, now, ?_⟩
    unfold validateActor at valid
    rw [if_neg (by simp [shape])] at valid
    simp only [row, validateAuthenticated] at valid
    split at valid
    · cases valid
    · split at valid
      · cases valid
      · split at valid
        · cases valid
        · rename_i payload' hp
          cases valid
          exact hp
  | @byClientToken env now caches accessToken payload authExpiresAt verified shape token row valid =>
    refine ⟨env.config, now, ?_⟩
    unfold validateActor at valid
    rw [if_pos shape] at valid
    simp only [validateClientToken, token, row] at valid
    split at valid
    · cases valid
    · split at valid
      · cases valid
      · rename_i payload' hp
        cases valid
        exact hp
  | @refreshed config now actorTokenId payload row valid =>
    obtain ⟨actorToken', hactor, _, _, hp⟩ := revalidateActor_eq_valid.1 valid
    cases row.symm.trans hactor
    exact ⟨config, now, hp⟩

theorem Checked.built {s : Store} {actorToken : ActorToken} {r : CheckRoomAccessResult}
    (h : Checked s actorToken r) : r = deny ∨ ∃ scope, resolveScope s actorToken = some scope ∧
      ∀ e ∈ r.allowedTopics, BuiltFrom s scope e.pattern e.topic := by
  cases h with
  | @live now actorTokenId pattern row =>
    rcases checkRoomAccess_cases s now actorTokenId pattern with
      ⟨actorToken', scope, appSlug, roomSlug, hactor, _, _, hscope, _, heq⟩ | heq
    · cases row.symm.trans hactor
      refine .inr ⟨scope, hscope, fun e he => ?_⟩
      rw [heq] at he
      obtain ⟨app, _, room, p, _, hs, topicName, _, rfl⟩ := mem_checkRoom.1 he
      exact ⟨app, (of_appBySlug hs.byApp).1, room, (of_roomBySlug hs.byRoom).1, topicName, p,
        rfl, rfl⟩
    · exact .inl heq

/-- Every address received is built with the scope the actor's row resolves to. -/
theorem Receives.built {s : Store} {actorToken : ActorToken} {pattern topic : String}
    (h : Receives s actorToken pattern topic) :
    ∃ scope, resolveScope s actorToken = some scope ∧ BuiltFrom s scope pattern topic := by
  cases h with
  | allowed session app mem =>
    obtain ⟨_, _, hp⟩ := session.built
    obtain ⟨scope, hscope, hall⟩ := built_of_payload hp
    exact ⟨scope, hscope, (hall _ app).1 _ mem⟩
  | active session app mem =>
    obtain ⟨_, _, hp⟩ := session.built
    obtain ⟨scope, hscope, hall⟩ := built_of_payload hp
    exact ⟨scope, hscope, (hall _ app).2 _ mem⟩
  | checked check mem =>
    rcases check.built with rfl | ⟨scope, hscope, hall⟩
    · cases mem
    · exact ⟨scope, hscope, hall _ mem⟩

/-! ## Which scope that is -/

/-- Resolving a scope finds the actor's own one, and an actor without one gets the empty one. -/
theorem resolveScope_cases {s : Store} {actorToken : ActorToken} {scope : ResolvedScope}
    (h : resolveScope s actorToken = some scope) :
    (actorToken.accessScopeId = none ∧ scope.scopeId = none) ∨
    ∃ row, OwnScope s actorToken row ∧ scope.scopeId = some row.accessScopeId ∧
      scope.scopeSlug = some row.slug := by
  unfold resolveScope at h
  split at h
  · rename_i hnone
    cases h
    exact .inl ⟨hnone, rfl⟩
  · rename_i accessScopeId hid
    split at h
    · cases h
    · rename_i row hrow
      split at h
      · rename_i hact
        cases h
        obtain ⟨hmem, hlive, hp⟩ := of_findOne hrow
        simp only [Bool.and_eq_true, decide_eq_true_eq] at hp
        exact .inr ⟨row, ⟨hmem, hlive, by rw [hid, hp.1], hp.2, hact⟩, rfl, rfl⟩
      · cases h

theorem inSpace_of_built {s : Store} {row : AccessScope} {scope : ResolvedScope}
    (hid : scope.scopeId = some row.accessScopeId)
    (hslug : scope.scopeSlug = some row.slug) {pattern topic : String}
    (h : BuiltFrom s scope pattern topic) : InSpace s row pattern topic := by
  obtain ⟨app, happ, room, hroom, topicName, p, rfl, rfl⟩ := h
  refine ⟨app, happ, room, hroom, topicName, ?_, fun hne => ?_⟩
  · simp only [buildAllowedTopic, hid]
  · simp only [buildAllowedTopic, hslug]
    rw [if_pos hne]

/-- The first segment of an internal topic tells the address space: it is the id of the actor's
scope, or of a room where there is no scope. -/
theorem Receives.first_segment {s : Store} {actorToken : ActorToken} {pattern topic : String}
    (h : Receives s actorToken pattern topic) :
    (∃ row, OwnScope s actorToken row ∧
      ∃ rest, splitOn '/' topic = row.accessScopeId.text :: rest) ∨
    (actorToken.accessScopeId = none ∧
      ∃ room ∈ s.rooms, ∃ rest, splitOn '/' topic = room.roomId.text :: rest) := by
  obtain ⟨scope, hscope, app, _, room, hroom, topicName, p, _, rfl⟩ := h.built
  rcases resolveScope_cases hscope with ⟨hnone, hid⟩ | ⟨row, hown, hid, _⟩
  · refine .inr ⟨hnone, room, hroom, splitOn '/' topicName, ?_⟩
    simp only [buildAllowedTopic, hid]
    exact splitOn_append rfl room.roomId.noSlash
  · refine .inl ⟨row, hown, room.roomId.text :: splitOn '/' topicName, ?_⟩
    simp only [buildAllowedTopic, hid]
    exact splitOn_append_two rfl row.accessScopeId.noSlash room.roomId.noSlash

/-! ## Isolation -/

/-- A scope that is deleted, inactive or of another project shuts its actor out. -/
theorem no_scope_no_answer {s : Store} (hpk : UniqueOn AccessScope.accessScopeId s.accessScopes)
    {actorToken : ActorToken} {scope : AccessScope} (hrow : scope ∈ s.accessScopes)
    (hnamed : actorToken.accessScopeId = some scope.accessScopeId)
    (hshut : live scope = false ∨ scope.isActive = false ∨
      scope.projectId ≠ actorToken.projectId) :
    resolveScope s actorToken = none := by
  cases hresolve : resolveScope s actorToken with
  | none => rfl
  | some resolved =>
    rcases resolveScope_cases hresolve with ⟨hnone, _⟩ | ⟨row, hown, _⟩
    · rw [hnamed] at hnone
      cases hnone
    · have hid := Option.some.inj (hown.named.symm.trans hnamed)
      cases hpk.eq_of_key hown.row hrow hid
      rcases hshut with hdead | hinactive | hforeign
      · rw [hown.isLive] at hdead
        cases hdead
      · rw [hown.active] at hinactive
        cases hinactive
      · exact absurd hown.home hforeign

/-- Tenants have disjoint address spaces. -/
theorem address_spaces_disjoint (db : Database) (hids : db.store.IdsApart) :
    (∀ actorToken pattern topic, actorToken.accessScopeId ≠ none →
      Receives db.store actorToken pattern topic →
      ∃ scope, OwnScope db.store actorToken scope ∧ InSpace db.store scope pattern topic) ∧
    (∀ actorToken, ∀ scope ∈ db.store.accessScopes,
      actorToken.accessScopeId = some scope.accessScopeId →
      live scope = false ∨ scope.isActive = false ∨ scope.projectId ≠ actorToken.projectId →
      (∀ payload, ¬ Session db.store actorToken payload) ∧
        ∀ r, Checked db.store actorToken r → r = deny) ∧
    ∀ actorToken actorToken' pattern pattern' topic,
      actorToken.accessScopeId ≠ actorToken'.accessScopeId →
      Receives db.store actorToken pattern topic →
      ¬ Receives db.store actorToken' pattern' topic := by
  refine ⟨?_, ?_, ?_⟩
  · intro actorToken pattern topic hscoped h
    obtain ⟨scope, hscope, hbuilt⟩ := h.built
    rcases resolveScope_cases hscope with ⟨hnone, _⟩ | ⟨row, hown, hid, hslug⟩
    · exact absurd hnone hscoped
    · exact ⟨row, hown, inSpace_of_built hid hslug hbuilt⟩
  · intro actorToken scope hrow hnamed hshut
    have hnone := no_scope_no_answer db.valid.pkScope hrow hnamed hshut
    constructor
    · intro payload hsession
      obtain ⟨_, _, hp⟩ := hsession.built
      obtain ⟨_, hscope, _⟩ := built_of_payload hp
      rw [hnone] at hscope
      cases hscope
    · intro r hr
      rcases hr.built with hdeny | ⟨_, hscope, _⟩
      · exact hdeny
      · rw [hnone] at hscope
        cases hscope
  · intro actorToken actorToken' pattern pattern' topic hne h h'
    rcases h.first_segment with ⟨row, hown, rest, hsplit⟩ | ⟨hnone, room, hroom, rest, hsplit⟩
    · rcases h'.first_segment with
        ⟨row', hown', rest', hsplit'⟩ | ⟨_, room', hroom', rest', hsplit'⟩
      · have hid := Uuid.ext_text (List.cons.inj (hsplit.symm.trans hsplit')).1
        exact hne (hown.named.trans ((congrArg some hid).trans hown'.named.symm))
      · have hid := Uuid.ext_text (List.cons.inj (hsplit.symm.trans hsplit')).1
        exact hids.scope_ne_room hown.row hroom' hid
    · rcases h'.first_segment with ⟨row', hown', rest', hsplit'⟩ | ⟨hnone', _⟩
      · have hid := Uuid.ext_text (List.cons.inj (hsplit.symm.trans hsplit')).1
        exact hids.scope_ne_room hown'.row hroom hid.symm
      · exact hne (hnone.trans hnone'.symm)

/-! ## A scope without a slug -/

def tenant : ActorToken where
  actorTokenId := .of "t1"
  projectId := .of "p1"
  keyId := "at_live_1"
  secretHash := ""
  name := "tenant"
  actorType := .user
  accessScopeId := some (.of "s1")

/-- One actor in a scope whose slug is empty, as the column allows and no write path stores. -/
def blankSlugDb : Database where
  store :=
    { projects := [{ projectId := .of "p1", name := "acme" }]
      accessScopes := [{ accessScopeId := .of "s1", projectId := .of "p1", slug := "",
                         name := "Tenant" }]
      apps := [{ appId := .of "a1", projectId := .of "p1", name := "Chat", slug := "chat",
                 topics := some ["messages"] }]
      rooms := [{ roomId := .of "r1", appId := .of "a1", slug := "lobby", name := "Lobby" }]
      actorTokens := [tenant] }
  valid := by decide

theorem tenant_receives :
    Receives blankSlugDb.store tenant "chat/lobby/messages" "s1/r1/messages" := by
  have hcheck : Checked blankSlugDb.store tenant
      (checkRoomAccess blankSlugDb.store 0 (.of "t1") "chat/lobby/messages") := .live (by decide)
  have hmem : { pattern := "chat/lobby/messages", topic := "s1/r1/messages", permission := .pubSub,
                roomId := .of "r1", roomSlug := "lobby", scopeId := some (.of "s1"),
                scopeSlug := some "" } ∈
      (checkRoomAccess blankSlugDb.store 0 (.of "t1") "chat/lobby/messages").allowedTopics := by
    decide
  exact .checked hcheck hmem

/-- The pattern then has three segments and no place for a slug. -/
theorem blank_slug_unmarked : blankSlugDb.store.IdsApart ∧
    Receives blankSlugDb.store tenant "chat/lobby/messages" "s1/r1/messages" ∧
    ¬ ∃ scope, OwnScope blankSlugDb.store tenant scope ∧
      ∃ app ∈ blankSlugDb.store.apps, ∃ room ∈ blankSlugDb.store.rooms, ∃ topicName,
        "chat/lobby/messages" =
          app.slug ++ "/" ++ scope.slug ++ "/" ++ room.slug ++ "/" ++ topicName := by
  refine ⟨by decide, tenant_receives, ?_⟩
  rintro ⟨scope, hown, app, happ, room, hroom, topicName, heq⟩
  cases List.mem_singleton.1 hown.row
  cases List.mem_singleton.1 happ
  cases List.mem_singleton.1 hroom
  have hfront := congrArg (fun text => text.toList.take 6) heq
  simp at hfront

def neighbour : ActorToken :=
  { tenant with
    actorTokenId := .of "t2"
    keyId := "at_live_2"
    name := "neighbour"
    accessScopeId := some (.of "s2") }

/-- Two scopes of one project, with an actor in each. -/
def twoTenantsDb : Database where
  store :=
    { projects := [{ projectId := .of "p1", name := "acme" }]
      accessScopes :=
        [{ accessScopeId := .of "s1", projectId := .of "p1", slug := "north", name := "North" },
         { accessScopeId := .of "s2", projectId := .of "p1", slug := "south", name := "South" }]
      apps := [{ appId := .of "a1", projectId := .of "p1", name := "Chat", slug := "chat",
                 topics := some ["messages"] }]
      rooms := [{ roomId := .of "r1", appId := .of "a1", slug := "lobby", name := "Lobby" }]
      actorTokens := [tenant, neighbour] }
  valid := by decide

theorem north_receives :
    Receives twoTenantsDb.store tenant "chat/north/lobby/messages" "s1/r1/messages" := by
  have hcheck : Checked twoTenantsDb.store tenant
      (checkRoomAccess twoTenantsDb.store 0 (.of "T1") "chat/north/lobby/messages") :=
    .live (by decide)
  have hmem : { pattern := "chat/north/lobby/messages", topic := "s1/r1/messages",
                permission := .pubSub, roomId := .of "r1", roomSlug := "lobby",
                scopeId := some (.of "s1"), scopeSlug := some "north" } ∈
      (checkRoomAccess twoTenantsDb.store 0 (.of "T1")
        "chat/north/lobby/messages").allowedTopics := by
    decide
  exact .checked hcheck hmem

/-- Isolation at the same rows, and between two tenants of one project. -/
theorem address_spaces_disjoint_tenants :
    (∃ scope, OwnScope blankSlugDb.store tenant scope ∧
      InSpace blankSlugDb.store scope "chat/lobby/messages" "s1/r1/messages") ∧
    (∃ scope, OwnScope twoTenantsDb.store tenant scope ∧
      InSpace twoTenantsDb.store scope "chat/north/lobby/messages" "s1/r1/messages") ∧
    ∀ pattern, ¬ Receives twoTenantsDb.store neighbour pattern "s1/r1/messages" :=
  ⟨(address_spaces_disjoint blankSlugDb (by decide)).1 tenant _ _ (by decide) tenant_receives,
    (address_spaces_disjoint twoTenantsDb (by decide)).1 tenant _ _ (by decide) north_receives,
    fun pattern => (address_spaces_disjoint twoTenantsDb (by decide)).2.2 tenant neighbour _
      pattern _ (by decide) north_receives⟩

end Authz
end NolagCore
