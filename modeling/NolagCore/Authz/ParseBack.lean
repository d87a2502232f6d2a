import NolagCore.Authz.Agreement
import NolagCore.Authz.Isolation
import NolagCore.Authz.Tenancy
import NolagCore.Facade.Addressed
import NolagCore.ProjectConfig.RoundTrip

/-!
# Authz.ParseBack

Every address of a session can be parsed back. The parser counts slashes, so it needs every part of an
address to be a segment; and it looks the app up in the actor's own project, so it needs app grants
to stay there. A run of the write operations keeps both, unless it imports a document whose topic
names contain a slash or are empty.
-/

namespace NolagCore
namespace Authz

open Lib Store Facade AccessModel
open ProjectConfig (Host sampleHost)

/-- `(pattern, topic)` is the address of a topic in a room, and a live check of the pattern comes back
to the rows it was built from. -/
structure ParsesBack (s : Store) (actorToken : ActorToken) (scope : ResolvedScope)
    (app : PlatformApp) (room : Room) (topicName pattern topic : String) : Prop where
  ownScope : resolveScope s actorToken = some scope
  built : pattern = (buildAllowedTopic app.slug room topicName .pubSub scope).pattern ∧
    topic = (buildAllowedTopic app.slug room topicName .pubSub scope).topic
  segments : splitOn '/' pattern = app.slug :: (scope.scopeSlug.toList ++ [room.slug, topicName])
  nonempty : ∀ part ∈ splitOn '/' pattern, part ≠ ""
  count : (splitOn '/' pattern).length = if actorToken.accessScopeId.isSome then 4 else 3
  parsed : parsePattern scope pattern = some (app.slug, room.slug)
  appFound : appBySlug s actorToken app.slug = some app
  roomFound : roomBySlug s app room.slug = some room
  checked : ∀ now (id : IdText), findActor s id.uuid = some actorToken →
    actorToken.status = .active → expired actorToken.expiresAt now = false →
    checkRoomAccess s now id pattern = checkRoom s now id.text actorToken scope app.slug room.slug

/-- The actor has the project of its stored row, if it has one: a row of the table, or one that a
cache held, since the project of an actor is never written again. -/
def OfStored (s : Store) (actorToken : ActorToken) : Prop :=
  ∀ row ∈ s.actorTokens, row.actorTokenId = actorToken.actorTokenId →
    row.projectId = actorToken.projectId

/-- Every pattern of the payload parses back. -/
def AllParseBack (s : Store) (actorToken : ActorToken) (payload : ActorSessionPayload) : Prop :=
  ∀ appAccess ∈ payload.apps,
    (∀ e ∈ appAccess.allowedTopics, ∃ scope app room topicName,
      appAccess.appId = app.appId ∧ e.roomId = room.roomId ∧
      ParsesBack s actorToken scope app room topicName e.pattern e.topic) ∧
    ∀ sub ∈ appAccess.activeSubscriptions, ∃ scope app room topicName,
      ParsesBack s actorToken scope app room topicName sub.pattern sub.topic

/-! ## One address -/

theorem splitOn_three {a b c : String} (ha : Segment a) (hb : Segment b) (hc : Segment c) :
    splitOn '/' (a ++ "/" ++ b ++ "/" ++ c) = [a, b, c] := by
  rw [splitOn_append_two rfl ha.2 hb.2, splitOn_of_notMem hc.2]

theorem splitOn_four {a b c d : String} (ha : Segment a) (hb : Segment b) (hc : Segment c)
    (hd : Segment d) : splitOn '/' (a ++ "/" ++ b ++ "/" ++ c ++ "/" ++ d) = [a, b, c, d] := by
  rw [splitOn_append_three rfl ha.2 hb.2 hc.2, splitOn_of_notMem hd.2]

/-- An actor without a scope resolves to the empty one. -/
theorem scopeSlug_of_unscoped {s : Store} {actorToken : ActorToken} {scope : ResolvedScope}
    (h : resolveScope s actorToken = some scope) (hnone : actorToken.accessScopeId = none) :
    scope.scopeSlug = none := by
  unfold resolveScope at h
  rw [hnone] at h
  cases h
  rfl

theorem scopeSlug_isSome {s : Store} {actorToken : ActorToken} {scope : ResolvedScope}
    (hscope : resolveScope s actorToken = some scope) :
    scope.scopeSlug.isSome = actorToken.accessScopeId.isSome := by
  rcases resolveScope_cases hscope with ⟨hnone, _⟩ | ⟨row, hown, _, hslug⟩
  · rw [scopeSlug_of_unscoped hscope hnone, hnone]
    rfl
  · rw [hslug, hown.named]
    rfl

section

variable {s : Store} (hall : AllAddressed s) {actorToken : ActorToken} {scope : ResolvedScope}
  (hscope : resolveScope s actorToken = some scope)

include hall hscope

theorem segment_of_scopeSlug {slug : String} (h : scope.scopeSlug = some slug) : Segment slug := by
  rcases resolveScope_cases hscope with ⟨hnone, _⟩ | ⟨row, hown, _, hslug⟩
  · rw [scopeSlug_of_unscoped hscope hnone] at h
    cases h
  · have hrow : s.Has (.accessScope row) := hown.row
    have hseg : Segment row.slug := hall (.accessScope row) rfl hown.isLive hrow
    rw [hslug] at h
    cases h
    exact hseg

/-- The segments of an address, three or four of them. -/
theorem segments_of_built {app : PlatformApp} (happ : Segment app.slug) {room : Room}
    (hroom : Segment room.slug) {topicName : String} (htopic : Segment topicName) :
    splitOn '/' (buildAllowedTopic app.slug room topicName .pubSub scope).pattern =
      app.slug :: (scope.scopeSlug.toList ++ [room.slug, topicName]) := by
  cases hslug : scope.scopeSlug with
  | none =>
    simp only [buildAllowedTopic, hslug, Option.toList_none, List.nil_append]
    exact splitOn_three happ hroom htopic
  | some slug =>
    have hseg := segment_of_scopeSlug hall hscope hslug
    simp only [buildAllowedTopic, hslug, Option.toList_some, List.singleton_append]
    rw [if_pos hseg.1]
    exact splitOn_four happ hseg hroom htopic

/-- The parser takes the address apart where it was put together. -/
theorem parsePattern_of_segments {pattern appSlug roomSlug topicName : String}
    (h : splitOn '/' pattern = appSlug :: (scope.scopeSlug.toList ++ [roomSlug, topicName])) :
    parsePattern scope pattern = some (appSlug, roomSlug) := by
  unfold parsePattern
  rw [h]
  cases hslug : scope.scopeSlug with
  | none => rfl
  | some slug =>
    have hne := (segment_of_scopeSlug hall hscope hslug).1
    simp [truthy, hne]

theorem parsesBack_of_rows (hv : s.SchemaValid) {app : PlatformApp} (happ : app ∈ s.apps)
    (hl : live app = true) (hst : app.status = .active)
    (hhome : app.projectId = actorToken.projectId) {room : Room} (hroom : room ∈ s.rooms)
    (hrl : live room = true) (hrst : room.status = .active) (hrapp : room.appId = app.appId)
    {topicName : String} (htopic : Segment topicName) :
    ParsesBack s actorToken scope app room topicName
      (buildAllowedTopic app.slug room topicName .pubSub scope).pattern
      (buildAllowedTopic app.slug room topicName .pubSub scope).topic := by
  have hasApp : s.Has (.app app) := happ
  have hasRoom : s.Has (.room room) := hroom
  have happSeg : Segment app.slug := (hall (.app app) rfl hl hasApp).1
  have hroomSeg : Segment room.slug := hall (.room room) rfl hrl hasRoom
  have hsegments := segments_of_built hall hscope happSeg hroomSeg htopic
  have hparsed := parsePattern_of_segments hall hscope hsegments
  refine ⟨hscope, ⟨rfl, rfl⟩, hsegments, ?_, ?_, hparsed,
    appBySlug_of_home hv happ hl hst hhome rfl, roomBySlug_of_app hv hroom hrl hrst hrapp rfl,
    fun now _ hactor hact hx => checkRoomAccess_of_parsed hactor hact hx hscope hparsed⟩
  · intro part hpart
    simp only [hsegments, List.mem_cons, List.mem_append, Option.mem_toList, List.not_mem_nil,
      or_false] at hpart
    rcases hpart with rfl | hslug | rfl | rfl
    · exact happSeg.1
    · exact (segment_of_scopeSlug hall hscope hslug).1
    · exact hroomSeg.1
    · exact htopic.1
  · rw [hsegments, ← scopeSlug_isSome hscope]
    cases scope.scopeSlug <;> rfl

end

/-! ## One session -/

section

variable {s : Store} (hv : s.SchemaValid) (hall : AllAddressed s) (hhome : AppGrantsHome s)
  {now : Int} {actorToken : ActorToken} (hstored : OfStored s actorToken)

include hv hhome hstored in
/-- The apps of a session are apps of the actor's project. -/
theorem app_home {access : Access}
    (h : access ∈ validAppAccess s now actorToken) :
    access.app.projectId = actorToken.projectId := by
  refine projectId_of_validAppAccess hv (fun g hg hl hactor app happ hon => ?_) h
  obtain ⟨a, ha, haid⟩ := hv.fkAppGrantActor _ hg _ rfl
  rw [hhome _ hg hl a ha haid.symm app happ hon]
  exact hstored a ha (haid.trans hactor)

include hall in
/-- A topic a session allows is named in a live row. -/
theorem segment_of_yields {app : PlatformApp} (happ : app ∈ s.apps) (hl : live app = true)
    {room : Room} {p q : EAccessPermission} {ts : Option (List String)}
    (hterms : HeldOrOpen s now actorToken.actorTokenId app p ts) {topicName : String}
    (hy : RoomYields s now actorToken.actorTokenId.text actorToken.actorType app room p ts q
      topicName) : Segment topicName := by
  have hasApp : s.Has (.app app) := happ
  have happNames : SegmentNames app.topics := (hall (.app app) rfl hl hasApp).2
  cases hy with
  | isPublic _ hmem =>
    rcases mem_topicsOf hmem with hown | hinherited
    · cases hterms with
      | @held _ g hg =>
        have hasGrant : s.Has (.appGrant g) := hg.row
        exact hall (.appGrant g) rfl hg.isLive hasGrant topicName hown
      | opened _ => cases hown
    · exact happNames topicName hinherited
  | @isPrivate ra _ hd _ hmem =>
    rcases mem_topicsOf hmem with hown | hinherited
    · have hasGrant : s.Has (.roomGrant ra) := hd.on.row
      exact hall (.roomGrant ra) rfl hd.on.isLive hasGrant topicName hown
    · exact happNames topicName hinherited

include hv hall hhome hstored in
theorem allParseBack {config : CoreConfig} {payload : ActorSessionPayload}
    (h : buildSessionPayload config s now actorToken = .ok payload) :
    AllParseBack s actorToken payload := by
  obtain ⟨_, scope, _, hscope, _, _, happs⟩ := of_buildSessionPayload h
  have hallowed : ∀ appAccess ∈ payload.apps, ∀ e ∈ appAccess.allowedTopics,
      ∃ scope app room topicName, appAccess.appId = app.appId ∧ e.roomId = room.roomId ∧
        ParsesBack s actorToken scope app room topicName e.pattern e.topic := by
    intro appAccess happ e he
    rw [happs] at happ
    obtain ⟨access, ha, hid, _, htopics⟩ := of_mem_buildAppAccess happ
    rw [htopics] at he
    obtain ⟨room, hroom, p, topicName, ⟨ts, hra, hmem⟩, rfl⟩ := mem_allowedTopics.1 he
    obtain ⟨hrow, hl, hst, hterms⟩ := of_mem_validAppAccess ha
    obtain ⟨hrrow, hrl, hrapp, hrst⟩ := mem_activeRooms.1 hroom
    have hy := roomAccess_yields (reads_batched s actorToken room) hra hmem
    exact ⟨scope, access.app, room, topicName, hid, rfl, parsesBack_of_rows hall hscope hv hrow hl
      hst (app_home hv hhome hstored ha) hrrow hrl hrst hrapp
      (segment_of_yields hall hrow hl hterms hy)⟩
  intro appAccess happ
  refine ⟨hallowed appAccess happ, fun sub hsub => ?_⟩
  rw [happs] at happ
  obtain ⟨appAccess', happ', e, he, hpattern, htopic⟩ := allowed_of_active happ hsub
  obtain ⟨scope, app, room, topicName, _, _, hback⟩ := hallowed appAccess' (happs ▸ happ') e he
  rw [hpattern, htopic]
  exact ⟨scope, app, room, topicName, hback⟩

end

/-- Over every run of checked operations whose imported topic names are segments, each pattern of
each session has three segments, four for a scoped actor, and a live check of it comes back to the
rows it was built from. -/
theorem patterns_parse_back (host : Host) (run : List (Int × Operation)) (db : Database)
    (hrun : exec (configure host) Database.empty run = some db)
    (hdto : ∀ l ∈ run, l.2.dtoValid = true) (hplain : ∀ l ∈ run, PlainNames l.2)
    (actorToken : ActorToken) (hstored : OfStored db.store actorToken)
    (payload : ActorSessionPayload) (hsession : Session db.store actorToken payload) :
    AllParseBack db.store actorToken payload := by
  obtain ⟨config, now, hpayload⟩ := hsession.built
  obtain ⟨hall, hhome⟩ := addressed_run hrun hdto hplain
  exact allParseBack db.valid hall hhome hstored hpayload

/-! ## A slash in an imported topic name -/

/-- A document with one open app on one topic, one room and one actor, in a scope or in none. -/
def topicDoc (topicName : String) (scopeSlug : Option String) : ProjectConfig.ProjectConfigDoc where
  version := 1
  project := { name := "Project" }
  accessScopes := some (scopeSlug.toList.map fun slug => { slug := slug, name := "Tenant" })
  apps := some [{ slug := "chat", name := "Chat", topics := [topicName],
                  rooms := some [{ slug := "lobby", name := "Lobby" }] }]
  actors := some [{ ref := "actor", name := "Actor", actorType := .user, scopeSlug := scopeSlug }]

def importTopic (topicName : String) (scopeSlug : Option String) : List (Int × Operation) :=
  [(0, .importProject ProjectConfig.sampleDraws (topicDoc topicName scopeSlug))]

/-- The imported actor has a session with one pattern. -/
theorem imported_session {topicName : String} (h : topicName = "a:b" ∨ topicName = "a/b") :
    ∃ db actorToken payload,
      exec (configure sampleHost) Database.empty (importTopic topicName none) = some db ∧ db.store.actorTokens = [actorToken] ∧ actorToken.accessScopeId = none ∧
      Session db.store actorToken payload ∧ ∃ appAccess ∈ payload.apps,
        ∃ e ∈ appAccess.allowedTopics, e.pattern = "chat/lobby/" ++ topicName := by
  rcases h with rfl | rfl
  · exact ⟨_, _, _, rfl, rfl, rfl,
      @Session.refreshed _ _ {} 0 (ProjectConfig.sampleDraws.actor 0) _ rfl rfl, _,
      List.mem_singleton_self _, _, List.mem_singleton_self _, rfl⟩
  · exact ⟨_, _, _, rfl, rfl, rfl,
      @Session.refreshed _ _ {} 0 (ProjectConfig.sampleDraws.actor 0) _ rfl rfl, _,
      List.mem_singleton_self _, _, List.mem_singleton_self _, rfl⟩

/-- In a scope its pattern has four segments. -/
theorem scoped_session : ∃ db actorToken payload,
    exec (configure sampleHost) Database.empty (importTopic "a:b" (some "north")) = some db ∧
      db.store.actorTokens = [actorToken] ∧ Session db.store actorToken payload ∧
      ∃ appAccess ∈ payload.apps, ∃ e ∈ appAccess.allowedTopics,
        e.pattern = "chat/north/lobby/a:b" :=
  ⟨_, _, _, rfl, rfl, @Session.refreshed _ _ {} 0 (ProjectConfig.sampleDraws.actor 0) _ rfl rfl, _,
    List.mem_singleton_self _, _, List.mem_singleton_self _, rfl⟩

theorem ofStored_of_single {s : Store} {actorToken : ActorToken}
    (h : s.actorTokens = [actorToken]) : OfStored s actorToken := by
  intro row hrow _
  rw [h, List.mem_singleton] at hrow
  rw [hrow]

/-- A topic name with a colon parses back, in three segments and in four. -/
theorem patterns_parse_back_colon :
    (∃ db actorToken payload,
      exec (configure sampleHost) Database.empty (importTopic "a:b" none) = some db ∧
        Session db.store actorToken payload ∧ AllParseBack db.store actorToken payload) ∧
    ∃ db actorToken payload,
      exec (configure sampleHost) Database.empty (importTopic "a:b" (some "north")) = some db ∧
        Session db.store actorToken payload ∧ AllParseBack db.store actorToken payload ∧
        ∃ appAccess ∈ payload.apps, ∃ e ∈ appAccess.allowedTopics,
          e.pattern = "chat/north/lobby/a:b" := by
  constructor
  · obtain ⟨db, actorToken, payload, hrun, hactors, _, hsession, _⟩ := imported_session (.inl rfl)
    exact ⟨db, actorToken, payload, hrun, hsession, patterns_parse_back sampleHost _ db hrun
      (by decide) (by decide) actorToken (ofStored_of_single hactors) payload hsession⟩
  · obtain ⟨db, actorToken, payload, hrun, hactors, hsession, hfour⟩ := scoped_session
    exact ⟨db, actorToken, payload, hrun, hsession, patterns_parse_back sampleHost _ db hrun
      (by decide) (by decide) actorToken (ofStored_of_single hactors) payload hsession, hfour⟩

/-- A topic name with a slash gives an unscoped actor a pattern of four segments. -/
theorem slash_not_parsed :
    ¬ ∀ (host : Host) (run : List (Int × Operation)) (db : Database),
      exec (configure host) Database.empty run = some db → (∀ l ∈ run, l.2.dtoValid = true) →
      ∀ (actorToken : ActorToken), OfStored db.store actorToken →
      ∀ (payload : ActorSessionPayload), Session db.store actorToken payload →
        AllParseBack db.store actorToken payload := by
  intro hevery
  obtain ⟨db, actorToken, payload, hrun, hactors, hnone, hsession, appAccess, happ, e, he, hp⟩ :=
    imported_session (.inr rfl)
  obtain ⟨_, _, _, _, _, _, hback⟩ := (hevery sampleHost (importTopic "a/b" none) db hrun
    (by decide) actorToken (ofStored_of_single hactors) payload hsession appAccess happ).1 e he
  have hcount := hback.count
  rw [hp, hnone] at hcount
  revert hcount
  decide

end Authz
end NolagCore
