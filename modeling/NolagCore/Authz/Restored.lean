import NolagCore.Authz.Expiry
import NolagCore.Authz.Resolved

/-!
# Authz.Restored

What a session hands back of the subscriptions on record. A record is looked up by its pattern in the
actor's resolved set, and comes back under the app, and with the internal topic, of the entry found
there. The lookup keeps no permission: a record also comes back on an entry that only lets the actor
publish.
-/

namespace NolagCore
namespace Authz

open Lib AccessModel

/-- The app lets the actor subscribe at this address. -/
def MaySubscribe (appAccess : AppAccess) (pattern topic : String) : Prop :=
  ∃ e ∈ appAccess.allowedTopics, e.pattern = pattern ∧ e.topic = topic ∧
    permits e.permission .subscribe = true

/-- What a session owes to the subscriptions on record: it returns none that the actor may not hold,
and those that it may hold once a record, under one app that allows them and no other. -/
structure Restores (payload : ActorSessionPayload) (recorded : List TopicSubscription) : Prop where
  allowed : ∀ appAccess ∈ payload.apps, ∀ sub ∈ appAccess.activeSubscriptions,
    MaySubscribe appAccess sub.pattern sub.topic
  kept : ∀ record ∈ recorded,
    (∃ appAccess ∈ payload.apps, ∃ topic, MaySubscribe appAccess record.name topic) →
    ∃ owner ∈ payload.apps, ∃ topic, MaySubscribe owner record.name topic ∧
      (owner.activeSubscriptions.filter fun sub => decide (sub.pattern = record.name)) =
        (recorded.filter fun r => decide (r.name = record.name)).map (restored topic) ∧
      ∀ other ∈ payload.apps, other ≠ owner → ∀ sub ∈ other.activeSubscriptions,
        sub.pattern ≠ record.name

/-- Every pattern on record that is still in the resolved set is there with a permission to
subscribe. -/
def StillSubscribes (s : Store) (now : Int) (actorToken : ActorToken) : Prop :=
  ∀ scope, resolveScope s actorToken = some scope →
    ∀ record ∈ recordedSubscriptions s actorToken.actorTokenId, ∀ appId e,
      standsFor s now actorToken { scopeId := scope.scopeId, scopeSlug := scope.scopeSlug }
        record.name = some (appId, e) → permits e.permission .subscribe = true

/-! ## One app of the session -/

section

variable {s : Store} (hv : s.SchemaValid) {now : Int} {actorToken : ActorToken}
  {scope : ResolvedScope}

include hv in
/-- In one app an internal topic has one permission, that of its room. -/
theorem permission_of_topic {access : Access} {e e' : AllowedTopic}
    (he : e ∈ (buildOf s now actorToken scope access).allowedTopics)
    (he' : e' ∈ (buildOf s now actorToken scope access).allowedTopics) (h : e.topic = e'.topic) :
    e.permission = e'.permission := by
  obtain ⟨room, hroom, p, topicName, ⟨ts, hra, _⟩, rfl⟩ := mem_allowedTopics.1 he
  obtain ⟨room', hroom', p', topicName', ⟨ts', hra', _⟩, rfl⟩ := mem_allowedTopics.1 he'
  have hsame : room = room' := hv.pkRoom.eq_of_key (mem_activeRooms.1 hroom).1
    (mem_activeRooms.1 hroom').1 (roomId_of_topic h)
  subst hsame
  rw [hra] at hra'
  cases hra'
  rfl

/-- A pattern comes back under the app of the entry it stands for, once a record. -/
theorem activeSubscriptions_of_standsFor {access : Access} {name : String} {e : AllowedTopic}
    (h : standsFor s now actorToken scope name = some (access.app.appId, e)) :
    ((appAccessOf s now actorToken scope access).activeSubscriptions.filter
        fun sub => decide (sub.pattern = name)) =
      ((recordedSubscriptions s actorToken.actorTokenId).filter
        fun r => decide (r.name = name)).map (restored e.topic) := by
  unfold appAccessOf
  refine handedBack_of_found ?_
  rw [h]
  rfl

end

section

variable {db : Database} {now : Int} {actorToken : ActorToken} {scope : ResolvedScope}
  {payload : ActorSessionPayload} (happs : payload.apps =
    (validAppAccess db.store now actorToken).map (appAccessOf db.store now actorToken scope))

include happs

theorem mem_apps {access : Access} (ha : access ∈ validAppAccess db.store now actorToken) :
    appAccessOf db.store now actorToken scope access ∈ payload.apps := by
  rw [happs]
  exact List.mem_map_of_mem ha

theorem permits_of_restores
    (h : Restores payload (recordedSubscriptions db.store actorToken.actorTokenId))
    {record : TopicSubscription}
    (hrecord : record ∈ recordedSubscriptions db.store actorToken.actorTokenId) {appId : Uuid}
    {e : AllowedTopic} (hstands : standsFor db.store now actorToken scope record.name = some (appId, e)) :
    permits e.permission .subscribe = true := by
  obtain ⟨_, access, ha, rfl, he⟩ := of_standsFor hstands
  have hmem : restored e.topic record ∈ (appAccessOf db.store now actorToken scope
      access).activeSubscriptions.filter fun sub => decide (sub.pattern = record.name) := by
    rw [activeSubscriptions_of_standsFor hstands]
    exact List.mem_map_of_mem (List.mem_filter.2 ⟨hrecord, decide_eq_true rfl⟩)
  obtain ⟨e', he', _, htopic, hsub⟩ := h.allowed _ (mem_apps happs ha) _ (List.mem_filter.1 hmem).1
  rw [permission_of_topic db.valid he he' htopic.symm]
  exact hsub

theorem restores_of_permits
    (h : ∀ record ∈ recordedSubscriptions db.store actorToken.actorTokenId, ∀ appId e,
      standsFor db.store now actorToken scope record.name = some (appId, e) →
        permits e.permission .subscribe = true) :
    Restores payload (recordedSubscriptions db.store actorToken.actorTokenId) := by
  refine ⟨?_, ?_⟩
  · intro appAccess happ sub hsub
    rw [happs] at happ
    obtain ⟨access, ha, rfl⟩ := List.mem_map.1 happ
    obtain ⟨record, hrecord, e, hstands, rfl⟩ := mem_activeSubscriptions.1 hsub
    obtain ⟨hpattern, access', ha', happId, he⟩ := of_standsFor hstands
    cases access_eq_of_appId db.valid ha' ha happId
    exact ⟨e, he, hpattern, rfl, h record hrecord _ e hstands⟩
  · rintro record hrecord ⟨appAccess, happ, topic, e₀, he₀, hpattern₀, _, _⟩
    rw [happs] at happ
    obtain ⟨access₀, ha₀, rfl⟩ := List.mem_map.1 happ
    obtain ⟨appId, e, hstands⟩ := exists_standsFor ha₀ he₀
    rw [hpattern₀] at hstands
    obtain ⟨hpattern, access, ha, rfl, he⟩ := of_standsFor hstands
    have hmay : MaySubscribe (appAccessOf db.store now actorToken scope access) record.name e.topic :=
      ⟨e, he, hpattern, rfl, h record hrecord _ e hstands⟩
    refine ⟨_, mem_apps happs ha, e.topic, hmay, activeSubscriptions_of_standsFor hstands, ?_⟩
    intro other hother hne sub hsub hname
    rw [happs] at hother
    obtain ⟨access', ha', rfl⟩ := List.mem_map.1 hother
    obtain ⟨record', _, e', hstands', rfl⟩ := mem_activeSubscriptions.1 hsub
    have hname' : record'.name = record.name := hname
    rw [hname', hstands, Option.some.injEq, Prod.mk.injEq] at hstands'
    exact hne (access_eq_of_appId db.valid ha ha' hstands'.1 ▸ rfl)

end

/-- A session restores what it should exactly where each pattern on record that is still in the
resolved set is there with a permission to subscribe. -/
theorem restores_iff (db : Database) (config : CoreConfig) (now : Int) (actorToken : ActorToken)
    (payload : ActorSessionPayload)
    (h : buildSessionPayload config db.store now actorToken = .ok payload) :
    Restores payload (recordedSubscriptions db.store actorToken.actorTokenId) ↔
      StillSubscribes db.store now actorToken := by
  obtain ⟨_, scope, _, hscope, _, _, happs⟩ := of_buildSessionPayload h
  rw [buildAppAccess_eq (nodup_validAppAccess db.valid now actorToken)] at happs
  constructor
  · intro hrestores scope' hscope' record hrecord appId e hstands
    cases hscope.symm.trans hscope'
    exact permits_of_restores happs hrestores hrecord hstands
  · intro hstill
    exact restores_of_permits happs (hstill scope hscope)

/-! ## A grant that no longer lets its actor subscribe -/

/-- A private room whose one grant lets the actor publish, and a subscription on record from before. -/
def narrowedDb (permission : EAccessPermission) : Database where
  store :=
    { projects := [{ projectId := .of "p1", name := "acme" }]
      apps := [{ appId := .of "a1", projectId := .of "p1", name := "Chat", slug := "chat",
                 accessMode := .open, topics := some ["messages"] }]
      rooms := [{ roomId := .of "r1", appId := .of "a1", slug := "lobby", name := "Lobby" }]
      actorTokens := [carol]
      roomActorAccess := [{ roomActorAccessId := .of "g1", roomId := .of "r1",
                            actorTokenId := some (.of "t1"), permission := permission }]
      actorTokenStates := [{ actorTokenStateId := .of "s1", actorTokenId := .of "t1",
                             connectionState := some
                               { topics := some [{ name := "chat/lobby/messages" }] } }] }
  valid := by cases permission <;> decide

/-- The session of `carol` in that room. -/
def restoredPayload (permission : EAccessPermission) : ActorSessionPayload :=
  { carolPayload permission with
    apps := (carolPayload permission).apps.map fun appAccess =>
      { appAccess with
        activeSubscriptions := [restored "r1/messages" { name := "chat/lobby/messages" }] } }

theorem publish_only_restored :
    ¬ ∀ (db : Database) (config : CoreConfig) (now : Int) (actorTokenId : Uuid)
      (payload : ActorSessionPayload),
      revalidateActor config db.store now actorTokenId = .valid payload →
        Restores payload (recordedSubscriptions db.store actorTokenId) := by
  intro hevery
  have hvalid : revalidateActor {} (narrowedDb .publish).store 0 (.of "t1") =
      .valid (restoredPayload .publish) := by decide
  obtain ⟨e, he, _, _, hsub⟩ := (hevery (narrowedDb .publish) {} 0 (.of "t1") _ hvalid).allowed _
    (List.mem_singleton_self _) _ (List.mem_singleton_self _)
  cases List.mem_singleton.1 he
  cases hsub

/-- While the grant lets the actor subscribe, its record comes back. -/
theorem restores_iff_pubSub :
    Restores (restoredPayload .pubSub) (recordedSubscriptions (narrowedDb .pubSub).store (.of "t1")) ↔
      StillSubscribes (narrowedDb .pubSub).store 0 carol :=
  restores_iff (narrowedDb .pubSub) {} 0 carol (restoredPayload .pubSub) (by decide)

end Authz
end NolagCore
