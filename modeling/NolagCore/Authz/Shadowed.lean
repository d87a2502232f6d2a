import NolagCore.Authz.Agreement

/-!
# Authz.Shadowed

The rows behind every answer, and the one place where they are missing. A live check looks for the
grants that name the actor by the text it is given. In another spelling of the id it meets none of
them, and the first grant on the actor's type decides in their place.
-/

namespace NolagCore
namespace Authz

open Lib AccessModel

/-! ## What is said of the answers -/

/-- The entries of every answer are justified by live rows, and no answer depends on the topics
column of a room. -/
structure AnswersJustified (env : Env) (s : Store) (now : Int) (actorTokenId : IdText)
    (pattern : String) : Prop where
  validate : ∀ caches accessToken,
    AnswerJustified s now (validateActor env s now caches accessToken).1
  revalidate : RevalidateJustified s now actorTokenId.uuid
    (revalidateActor env.config s now actorTokenId.uuid)
  /-- The grants that name the actor do so whatever the spelling the check was given. -/
  check : CheckJustified s now actorTokenId.uuid.asStored
    (checkRoomAccess s now actorTokenId pattern)
  roomTopics : ∀ f : Room → Option (List String),
    (∀ caches accessToken, validateActor env (withRoomTopics f s) now caches accessToken =
      validateActor env s now caches accessToken) ∧
    revalidateActor env.config (withRoomTopics f s) now actorTokenId.uuid =
      revalidateActor env.config s now actorTokenId.uuid ∧
    checkRoomAccess (withRoomTopics f s) now actorTokenId pattern =
      checkRoomAccess s now actorTokenId pattern

/-! ## Where it holds -/

/-- The room a check of the pattern comes to: the actor passes the gates, the pattern has the two
slugs, and the live path reaches the app. -/
structure ComesTo (s : Store) (now : Int) (actorTokenId : IdText) (pattern : String)
    (actorToken : ActorToken) (app : PlatformApp) (room : Room) : Prop where
  actor : findActor s actorTokenId.uuid = some actorToken
  active : actorToken.status = .active
  unexpired : expired actorToken.expiresAt now = false
  slugs : ∃ scope appSlug roomSlug, resolveScope s actorToken = some scope ∧
    parsePattern scope pattern = some (appSlug, roomSlug) ∧
    HomeRoom s actorToken.projectId appSlug roomSlug app room
  reached : ∃ p ts, OpenElseHeld s now actorToken.actorTokenId actorToken.projectId app p ts

/-- In a spelling that is not the stored one, the first grant on the actor's type gives nothing that
the grants naming the actor do not give, where there are any. -/
def NoneShadowed (s : Store) (now : Int) (actorTokenId : IdText) (pattern : String) : Prop :=
  ∀ actorToken app room g, ComesTo s now actorTokenId pattern actorToken app room →
    ¬ actorTokenId.Stored →
    (∃ named, OnRoom s room named ∧ Names actorTokenId.uuid.text named) →
    (grantsOn s room).find? (namesType actorToken) = some g →
    ∀ p topicName, Outcome now app g p topicName →
      ∃ named, OnRoom s room named ∧ Names actorTokenId.uuid.text named ∧
        Outcome now app named p topicName

section

variable {s : Store} {now : Int} {actorTokenId : IdText} {pattern : String}

/-- The check meets no grant naming the actor by a text that no row holds. -/
theorem effective_of_unstored (hstored : ¬ actorTokenId.Stored) (actorToken : ActorToken)
    (room : Room) : (liveRoomGrants s actorTokenId.text actorToken room).effective =
      (grantsOn s room).find? (namesType actorToken) := by
  have hnone : (grantsOn s room).find? (namesActor actorTokenId.text) = none := by
    refine List.find?_eq_none.2 fun ra _ hnames => hstored ?_
    exact stored_of_names (namesActor_iff.1 hnames)
  change ((grantsOn s room).find? _).or ((grantsOn s room).find? _) = _
  rw [hnone, Option.none_or]

/-- What a justified entry of a room with a grant naming the actor is justified by. -/
theorem named_of_justified (hv : s.SchemaValid) {actorType : EActorType} {appId : Uuid}
    {appSlug : String} {app : PlatformApp} {room : Room} {p : EAccessPermission}
    {topicName : String} {scope : ResolvedScope} (happ : app ∈ s.apps) (hroom : room ∈ s.rooms)
    (hroomApp : room.appId = app.appId)
    (hnamed : ∃ named, OnRoom s room named ∧ Names actorTokenId.uuid.text named)
    (h : EntryJustified s now actorTokenId.uuid.asStored actorType appId
      (buildAllowedTopic appSlug room topicName p scope)) :
    ∃ named, OnRoom s room named ∧ Names actorTokenId.uuid.text named ∧
      Outcome now app named p topicName := by
  obtain ⟨app', room', topicName', scope', hentry, _, heq⟩ := h
  obtain ⟨hid, _, htopic⟩ := buildAllowedTopic_inj heq
  have hsame := hv.pkRoom.eq_of_key hroom hentry.roomRow hid
  subst hsame htopic
  have hsame := hv.pkApp.eq_of_key happ hentry.appRow (hroomApp.symm.trans hentry.roomApp)
  subst hsame
  obtain ⟨named, hon, hnames⟩ := hnamed
  obtain ⟨_, _, _, hyields⟩ := hentry.yields
  generalize hp : (buildAllowedTopic appSlug room topicName p scope).permission = q at hyields
  cases hyields with
  | isPublic hpublic _ => exact absurd hon (hpublic named)
  | @isPrivate ra _ hdecides hunexpired hmem =>
    cases hdecides with
    | named hon' hnames' => exact ⟨ra, hon', hnames', hunexpired, hp, hmem⟩
    | typed _ _ _ _ none_names => exact absurd hnames (none_names named hon)

/-- Where no entry goes unjustified, none of the grants naming the actor is passed over for more. -/
theorem noneShadowed_of_justified (hv : s.SchemaValid)
    (h : CheckJustified s now actorTokenId.uuid.asStored
      (checkRoomAccess s now actorTokenId pattern)) :
    NoneShadowed s now actorTokenId pattern := by
  intro actorToken app room g hcomes hstored hnamed hg p topicName houtcome
  obtain ⟨scope, appSlug, roomSlug, hscope, hparsed, hhome⟩ := hcomes.slugs
  obtain ⟨q, ts, hterms⟩ := hcomes.reached
  have hcheck := checkRoomAccess_of_parsed hcomes.actor hcomes.active hcomes.unexpired hscope
    hparsed
  have hentry : buildAllowedTopic appSlug room topicName p scope ∈
      (checkRoomAccess s now actorTokenId pattern).allowedTopics := by
    rw [hcheck, mem_checkRoom_iff hv]
    refine ⟨⟨app, q, ts⟩, room, p, topicName, hhome, hterms, .inr ⟨g, ?_, houtcome⟩, rfl⟩
    rw [effective_of_unstored hstored, hg]
  obtain ⟨_, _, _, _, hjustified⟩ := h _ hentry
  exact named_of_justified hv hhome.appRow hhome.roomRow hhome.roomApp hnamed hjustified

/-- The grant a check by another spelling takes yields what the rows do. -/
theorem yields_of_effective {actorToken : ActorToken} {app : PlatformApp} {room : Room}
    {g : RoomActorAccess} (hcomes : ComesTo s now actorTokenId pattern actorToken app room)
    (hnone : NoneShadowed s now actorTokenId pattern) (hstored : ¬ actorTokenId.Stored)
    (hg : (liveRoomGrants s actorTokenId.text actorToken room).effective = some g)
    {p q : EAccessPermission} {ts : Option (List String)} {topicName : String}
    (houtcome : Outcome now app g p topicName) :
    RoomYields s now actorTokenId.uuid.text actorToken.actorType app room q ts p topicName := by
  rw [effective_of_unstored hstored] at hg
  by_cases hnamed : ∃ named, OnRoom s room named ∧ Names actorTokenId.uuid.text named
  · obtain ⟨named, hon, hnames, hunexpired, rfl, hmem⟩ :=
      hnone actorToken app room g hcomes hstored hnamed hg p topicName houtcome
    exact .isPrivate (.named hon hnames) hunexpired hmem
  · obtain ⟨hunexpired, rfl, hmem⟩ := houtcome
    obtain ⟨hunnamed, htype, hactive⟩ := namesType_iff.1 (List.find?_some hg)
    have hon := mem_grantsOn.1 (List.mem_of_find?_eq_some hg)
    refine .isPrivate (.typed hon hactive hunnamed htype fun named hon' hnames => ?_) hunexpired
      hmem
    exact hnamed ⟨named, hon', hnames⟩

theorem check_justified (hv : s.SchemaValid) (hnone : NoneShadowed s now actorTokenId pattern) :
    CheckJustified s now actorTokenId.uuid.asStored
      (checkRoomAccess s now actorTokenId pattern) := by
  by_cases hstored : actorTokenId.Stored
  · have hsame : actorTokenId.uuid.asStored = actorTokenId := IdText.ext_text hstored.symm
    rw [hsame]
    exact checkRoomAccess_justified s now actorTokenId pattern
  · rcases checkRoomAccess_cases s now actorTokenId pattern with
      ⟨actorToken, scope, appSlug, roomSlug, hactor, hst, hx, hscope, hparsed, heq⟩ | heq
    · rw [heq]
      intro e he
      obtain ⟨access, room, p, topicName, hhome, hterms, hcontributes, rfl⟩ :=
        (mem_checkRoom_iff hv).1 he
      have happ := appBySlug_of_home hv hhome.appRow hhome.appLive hhome.appActive hhome.appHome
        hhome.appSlug
      have hcomes : ComesTo s now actorTokenId pattern actorToken access.app room :=
        ⟨hactor, hst, hx, ⟨scope, appSlug, roomSlug, hscope, hparsed, hhome⟩, _, _, hterms⟩
      have hheld := hterms.heldOrOpen
      rw [(of_findActor hactor).2.2] at hheld
      have hyields : RoomYields s now actorTokenId.uuid.text actorToken.actorType access.app room
          access.permission access.topics p topicName := by
        rcases hcontributes with ⟨hpublic, rfl, hmem⟩ | ⟨g, hg, houtcome⟩
        · exact .isPublic hpublic hmem
        · exact yields_of_effective hcomes hnone hstored hg houtcome
      refine ⟨actorToken, access.app.appId, hactor, appId_of_checkRoom he happ, access.app, room,
        topicName, scope, ⟨hhome.appRow, hhome.appLive, hhome.appActive, hhome.roomRow,
          hhome.roomLive, hhome.roomActive, hhome.roomApp, _, _, hheld, hyields⟩, rfl, ?_⟩
      rw [hhome.appSlug]
      rfl
    · rw [heq]
      intro e he
      cases he

end

/-- Every entry of every answer is justified by live rows exactly where no grant naming the actor is
passed over, in another spelling of its id, for a grant on its type that gives more. -/
theorem answers_justified_iff (env : Env) (db : Database) (now : Int) (actorTokenId : IdText)
    (pattern : String) : AnswersJustified env db.store now actorTokenId pattern ↔
      NoneShadowed db.store now actorTokenId pattern := by
  constructor
  · intro h
    exact noneShadowed_of_justified db.valid h.check
  · intro hnone
    refine ⟨fun caches accessToken => ?_, revalidateActor_justified env.config db.store now _,
      check_justified db.valid hnone, fun f => ⟨validateActor_withRoomTopics f db.store now env,
        revalidateActor_withRoomTopics f db.store now env.config _,
        checkRoomAccess_withRoomTopics f db.store now actorTokenId pattern⟩⟩
    cases h : (validateActor env db.store now caches accessToken).1 with
    | error _ => trivial
    | ok r => exact validateActor_justified env db.store now caches accessToken h

/-! ## A named grant passed over -/

def newsApp : PlatformApp where
  appId := .of "a1"
  projectId := .of "p1"
  name := "Chat"
  slug := "chat"
  topics := some ["messages"]

/-- The grant on alice's type. -/
def userGrant : RoomActorAccess where
  roomActorAccessId := .of "g2"
  roomId := .of "r1"
  actorTokenId := none
  actorType := some .user
  permission := .pubSub

/-- A private room where one grant names alice for subscribing, and one is on her type for both. -/
def shadowedDb : Database where
  store :=
    { projects := [{ projectId := .of "p1", name := "acme" }]
      apps := [newsApp]
      rooms := [lobbyRoom]
      actorTokens := [alice]
      roomActorAccess :=
        [{ roomActorAccessId := .of "g1", roomId := .of "r1", actorTokenId := some (.of "t1"),
           permission := .subscribe }, userGrant] }
  valid := by decide

/-- With her id in upper case alice may publish, on a grant that the one naming her goes before. -/
theorem upper_case_id_unjustified :
    checkRoomAccess shadowedDb.store 0 (.of "T1") "chat/lobby/messages" =
      { allow := true, appId := some (.of "a1"),
        allowedTopics := [buildAllowedTopic "chat" lobbyRoom "messages" .pubSub {}] } ∧
    ∀ env, ¬ AnswersJustified env shadowedDb.store 0 (.of "T1") "chat/lobby/messages" := by
  refine ⟨by decide, fun env h => ?_⟩
  have hnone := noneShadowed_of_justified shadowedDb.valid h.check
  have hcomes : ComesTo shadowedDb.store 0 (.of "T1") "chat/lobby/messages" alice newsApp
      lobbyRoom := by
    refine ⟨by decide, rfl, rfl, ⟨{}, "chat", "lobby", rfl, by decide, ?_⟩, _, _, .opened rfl rfl⟩
    exact ⟨⟨by decide, rfl, rfl, rfl, by decide, rfl, rfl, rfl, rfl⟩, rfl⟩
  obtain ⟨named, hon, hnames, -, hperm, -⟩ := hnone alice newsApp lobbyRoom userGrant hcomes
    (by decide) ⟨_, ⟨List.mem_cons_self, rfl, rfl⟩, by decide, rfl⟩ (by decide) .pubSub "messages"
    ⟨rfl, rfl, by decide⟩
  have hrow := hon.row
  simp only [shadowedDb, List.mem_cons, List.not_mem_nil, or_false] at hrow
  rcases hrow with rfl | rfl
  · cases hperm
  · cases hnames.1

end Authz
end NolagCore
