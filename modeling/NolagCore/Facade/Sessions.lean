import NolagCore.Authz.Admission
import NolagCore.Authz.Restored
import NolagCore.Facade.Frame
import NolagCore.Facade.Purge
import NolagCore.Lib.EventLog

/-!
# Facade.Sessions

What the table of session states is for: for each actor, where it is connected and what it is
subscribed to. `sessions_refine` says that over every run the table is that map, changed by the few
operations that concern a session and by no other; `restored_asked_for` reads off it what a
reconnecting actor is given back.
-/

namespace NolagCore
namespace Facade

open Lib ProjectConfig
open Authz (configure SubscriptionUpdate applyUpdate subscriptionOf topicsOfState recordTopic)

/-! ## The map -/

/-- What is known of a live session. -/
structure Session where
  connectionState : Option ConnectionState
  krakenNodeId : Option String
  lastActivityAt : Option Int

namespace Session

def of (state : ActorTokenState) : Session :=
  { connectionState := state.connectionState
    krakenNodeId := state.krakenNodeId
    lastActivityAt := state.lastActivityAt }

/-- Of an actor of whom nothing is known yet. -/
def blank : Session :=
  { connectionState := none, krakenNodeId := none, lastActivityAt := none }

/-- The broker reports a connection; a node it does not name is kept. -/
def connect (connectionState : ConnectionState) (krakenNodeId : Option String) (m : Session) :
    Session :=
  { m with
    connectionState := some connectionState
    krakenNodeId := patch (krakenNodeId.map some) m.krakenNodeId }

/-- A subscribe or an unsubscribe. -/
def track (now : Int) (dto : SubscriptionUpdate) (m : Session) : Session :=
  { m with
    connectionState := some { m.connectionState.getD { topics := some [] } with
      topics := some (applyUpdate dto (topicsOfState m.connectionState)) }
    lastActivityAt := some now }

/-- A disconnect that keeps the row. -/
def drop (now : Int) (m : Session) : Session :=
  { m with connectionState := some { topics := some [] }, lastActivityAt := some now }

/-- The subscriptions on record. -/
def topics (m : Session) : List TopicSubscription := topicsOfState m.connectionState

end Session

abbrev Sessions := Uuid → Option Session

/-- The map that the table is. -/
def sessionsOf (s : Store) : Sessions := fun actorTokenId =>
  (rowAt ActorTokenState.actorTokenId s.actorTokenStates actorTokenId).map Session.of

/-- What can happen to sessions. -/
inductive SessionEvent where
  | connected (actorTokenId : Uuid) (connectionState : ConnectionState)
      (krakenNodeId : Option String)
  | tracked (now : Int) (dto : SubscriptionUpdate)
  | dropped (now : Int) (actorTokenId : Uuid)
  /-- The sessions of some actors are over. -/
  | ended (actors : Uuid → Bool)

def Sessions.after (m : Sessions) : SessionEvent → Sessions
  | .connected actorTokenId connectionState krakenNodeId =>
    Function.update m actorTokenId
      (some (((m actorTokenId).getD .blank).connect connectionState krakenNodeId))
  | .tracked now dto =>
    Function.update m dto.actorTokenId (some (((m dto.actorTokenId).getD .blank).track now dto))
  | .dropped now actorTokenId =>
    Function.update m actorTokenId ((m actorTokenId).map (Session.drop now))
  | .ended actors => fun actorTokenId => if actors actorTokenId then none else m actorTokenId

/-- What an operation that commits does to sessions. -/
def Operation.sessionEvent (s : Store) (now : Int) : Operation → Option SessionEvent
  | .updateActorState _ actorTokenId connectionState krakenNodeId =>
    some (.connected actorTokenId connectionState krakenNodeId)
  | .updateSubscription _ dto => some (.tracked now dto)
  | .clearSubscriptions actorTokenId => some (.dropped now actorTokenId)
  | .clearActorState actorTokenId | .deleteActorToken actorTokenId _ =>
    some (.ended fun a => decide (a = actorTokenId))
  | .purgeProject projectId => some (.ended (s.ownsActor projectId))
  | _ => none

/-- The events of the operations of a run that commit. -/
def sessionLog (host : Host) (db : Database) : List (Int × Operation) → List SessionEvent
  | [] => []
  | l :: run =>
    match l.2.run host l.1 db with
    | .ok db' => (l.2.sessionEvent db.store l.1).toList ++ sessionLog host db' run
    | .error _ => sessionLog host db run

/-- The table is a map from actors to rows. -/
abbrev OneState (s : Store) : Prop := OneRow ActorTokenState.actorTokenId s.actorTokenStates

/-! ## One operation -/

section

variable {host : Host} {now : Int} {db : Database}

/-- The table after a write and the map after an event. -/
def Tracks (m : Sessions) (s : Store) : Prop := OneState s ∧ sessionsOf s = m

theorem tracks_update {s : Store} {rows : List ActorTokenState} {actorTokenId : Uuid}
    {entity : ActorTokenState} (hone : OneRow ActorTokenState.actorTokenId rows)
    (hrows : rowAt ActorTokenState.actorTokenId rows =
      Function.update (rowAt ActorTokenState.actorTokenId s.actorTokenStates) actorTokenId
        (some entity)) :
    Tracks (Function.update (sessionsOf s) actorTokenId (some (.of entity)))
      { s with actorTokenStates := rows } := by
  refine ⟨hone, funext fun a => ?_⟩
  show (rowAt ActorTokenState.actorTokenId rows a).map Session.of = _
  rw [hrows]
  by_cases ha : a = actorTokenId
  · rw [ha, Function.update_self, Function.update_self]
    rfl
  · rw [Function.update_of_ne ha, Function.update_of_ne ha]
    rfl

/-- The row that was found is saved. -/
theorem tracks_save {actorTokenId : Uuid} {existing entity : ActorTokenState}
    (hone : OneState db.store)
    (hf : rowAt ActorTokenState.actorTokenId db.store.actorTokenStates actorTokenId = some existing)
    (hid : entity.actorTokenStateId = existing.actorTokenStateId)
    (hactor : entity.actorTokenId = existing.actorTokenId)
    (hdel : entity.deletedAt = existing.deletedAt) :
    Tracks (Function.update (sessionsOf db.store) actorTokenId (some (.of entity)))
      { db.store with
        actorTokenStates := saveRow (·.actorTokenStateId) entity db.store.actorTokenStates } := by
  have hlive : live entity = true := by
    have hexisting := hone.live existing (hone.rowAt_iff.1 hf).1
    unfold live at hexisting ⊢
    rw [show SoftDelete.deletedAt entity = SoftDelete.deletedAt existing from hdel]
    exact hexisting
  obtain ⟨hone', hrows⟩ := hone.save db.valid.pkState hf hid hactor hlive
  exact tracks_update hone' hrows

/-- An actor without a row gets one. -/
theorem tracks_insert {actorTokenId : Uuid} {entity : ActorTokenState} (hone : OneState db.store)
    (hnone : rowAt ActorTokenState.actorTokenId db.store.actorTokenStates actorTokenId = none)
    (hactor : entity.actorTokenId = actorTokenId) (hlive : live entity = true) :
    Tracks (Function.update (sessionsOf db.store) actorTokenId (some (.of entity)))
      { db.store with actorTokenStates := db.store.actorTokenStates ++ [entity] } := by
  subst hactor
  obtain ⟨hone', hrows⟩ := hone.insert hnone hlive
  exact tracks_update hone' hrows

/-- The rows of some actors are removed, whatever else is. -/
theorem tracks_ended {s s' : Store} (hone : OneState s) {actors : Uuid → Bool}
    (hrows : s'.actorTokenStates =
      deleteRows (fun st => actors st.actorTokenId) s.actorTokenStates) :
    Tracks ((sessionsOf s).after (.ended actors)) s' := by
  obtain ⟨hone', hmap⟩ := hone.restrict actors
  unfold Tracks OneState
  rw [hrows]
  refine ⟨hone', funext fun a => ?_⟩
  unfold sessionsOf
  rw [hrows, hmap]
  show Option.map _ (if actors a then _ else _) = if actors a then _ else _
  split <;> rfl

theorem actorState_update_tracks {actorTokenStateId actorTokenId : Uuid}
    {connectionState : ConnectionState} {krakenNodeId : Option String} (hone : OneState db.store) :
    Leaves (ActorTokenFacade.updateActorState db actorTokenStateId actorTokenId connectionState
      krakenNodeId) (Tracks ((sessionsOf db.store).after
        (.connected actorTokenId connectionState krakenNodeId))) := by
  unfold ActorTokenFacade.updateActorState
  split
  · rename_i existing hf
    have hbefore : sessionsOf db.store actorTokenId = some (.of existing) := congrArg _ hf
    refine .commit ?_
    simp only [Sessions.after, hbefore, Option.getD_some]
    exact tracks_save hone hf rfl rfl rfl
  · rename_i hnone
    have hbefore : sessionsOf db.store actorTokenId = none := congrArg _ hnone
    have hnode : Session.connect connectionState krakenNodeId .blank = .of
        { actorTokenStateId, actorTokenId, connectionState := some connectionState, krakenNodeId } := by
      cases krakenNodeId <;> rfl
    refine .commit ?_
    simp only [Sessions.after, hbefore, Option.getD_none, hnode]
    exact tracks_insert hone hnone rfl rfl

theorem subscription_update_tracks {actorTokenStateId : Uuid} {dto : SubscriptionUpdate}
    (hone : OneState db.store) :
    Leaves (Authz.updateSubscription db now actorTokenStateId dto)
      (Tracks ((sessionsOf db.store).after (.tracked now dto))) := by
  unfold Authz.updateSubscription
  split
  · rename_i existing hf
    have hbefore : sessionsOf db.store dto.actorTokenId = some (.of existing) := congrArg _ hf
    refine .commit ?_
    simp only [Sessions.after, hbefore, Option.getD_some]
    exact tracks_save hone hf rfl rfl rfl
  · rename_i hnone
    have hbefore : sessionsOf db.store dto.actorTokenId = none := congrArg _ hnone
    have hnew : Session.track now dto .blank = .of (Authz.updatedState dto now
        { actorTokenStateId, actorTokenId := dto.actorTokenId,
          connectionState := some { topics := some [] } }) := rfl
    refine .commit ?_
    simp only [Sessions.after, hbefore, Option.getD_none, hnew]
    exact tracks_insert hone hnone rfl rfl

theorem subscription_clear_tracks {actorTokenId : Uuid} (hone : OneState db.store) :
    Leaves (Authz.clearSubscriptions db now actorTokenId)
      (Tracks ((sessionsOf db.store).after (.dropped now actorTokenId))) := by
  unfold Authz.clearSubscriptions
  split
  · rename_i hnone
    have hbefore : sessionsOf db.store actorTokenId = none := congrArg _ hnone
    refine .unchanged ⟨hone, ?_⟩
    simp only [Sessions.after, hbefore, Option.map_none]
    rw [← hbefore, Function.update_eq_self]
  · rename_i existing hf
    have hbefore : sessionsOf db.store actorTokenId = some (.of existing) := congrArg _ hf
    refine .commit ?_
    simp only [Sessions.after, hbefore, Option.map_some]
    exact tracks_save hone hf rfl rfl rfl

theorem actor_delete_tracks {actorTokenId projectId : Uuid} (hone : OneState db.store) :
    Leaves (ActorTokenFacade.deleteActorToken db now actorTokenId projectId)
      (Tracks ((sessionsOf db.store).after (.ended fun a => decide (a = actorTokenId)))) := by
  unfold ActorTokenFacade.deleteActorToken
  split
  · exact .error
  · exact .commit (tracks_ended hone rfl)

theorem purge_tracks {projectId : Uuid} (hone : OneState db.store) :
    Leaves (ProjectConfigFacade.deleteProject db projectId)
      (Tracks ((sessionsOf db.store).after (.ended (db.store.ownsActor projectId)))) := by
  unfold ProjectConfigFacade.deleteProject
  split
  · exact .error
  · refine .commit (tracks_ended hone ?_)
    unfold ProjectConfigFacade.deleteProjectRow
    rw [deleteActors_twice]
    refine List.filter_congr fun st hst => ?_
    rw [Bool.eq_iff_iff, actorKept_iff db.valid (db.valid.fkStateActor st hst _ rfl)]
    simp

theorem import_tracks {draws : Draws} {doc : ProjectConfigDoc} {db' : Database}
    (hone : OneState db.store) (h : (Operation.importProject draws doc).run host now db = .ok db') :
    Tracks (sessionsOf db.store) db'.store := by
  obtain ⟨_, him⟩ := import_done h
  obtain ⟨d, hd, hs⟩ := him.rows
  have hsame : db'.store.actorTokenStates = db.store.actorTokenStates := by
    rw [hs, Store.actorTokenStates_append, states_of_doc hd, List.append_nil]
  unfold Tracks OneState sessionsOf
  rw [hsame]
  exact ⟨hone, rfl⟩

theorem sessions_step {op : Operation} {db' : Database} (hone : OneState db.store)
    (h : op.run host now db = .ok db') :
    Tracks ((op.sessionEvent db.store now).toList.foldl Sessions.after (sessionsOf db.store))
      db'.store := by
  cases op with
  | updateActorState actorTokenStateId actorTokenId connectionState krakenNodeId =>
    exact (actorState_update_tracks hone).committed h
  | clearActorState actorTokenId =>
    exact Leaves.committed (.commit (tracks_ended hone rfl)) h
  | updateSubscription actorTokenStateId dto => exact (subscription_update_tracks hone).committed h
  | clearSubscriptions actorTokenId => exact (subscription_clear_tracks hone).committed h
  | deleteActorToken actorTokenId projectId => exact (actor_delete_tracks hone).committed h
  | importProject draws doc => exact import_tracks hone h
  | purgeProject projectId => exact (purge_tracks hone).committed h
  | _ =>
    have hsame : db'.store.actorTokenStates = db.store.actorTokenStates :=
      run_only h .actorTokenState rfl
    unfold Tracks OneState sessionsOf
    rw [hsame]
    exact ⟨hone, rfl⟩

end

/-! ## A whole run -/

theorem tracks_run {host : Host} {run : List (Int × Operation)} {db db' : Database}
    (hone : OneState db.store) (hrun : exec (configure host) db run = some db') :
    Tracks ((sessionLog host db run).foldl Sessions.after (sessionsOf db.store)) db'.store := by
  induction run generalizing db with
  | nil =>
    cases hrun
    exact ⟨hone, rfl⟩
  | cons l run ih =>
    obtain ⟨db₁, hstep, hrest⟩ := exec_cons hrun
    cases hstep
    cases hok : l.2.run host l.1 db with
    | ok db₂ =>
      simp only [Operation.apply, hok] at hrest
      obtain ⟨hone₂, hmap⟩ := sessions_step hone hok
      simp only [sessionLog, hok, List.foldl_append, ← hmap]
      exact ih hone₂ hrest
    | error e =>
      simp only [Operation.apply, hok] at hrest
      simp only [sessionLog, hok]
      exact ih hone hrest

/-- Along every run the table of session states has one row an actor at most, and is the map that
the events of the run make of the empty one. -/
theorem sessions_refine (host : Host) (run : List (Int × Operation)) (db : Database)
    (hrun : exec (configure host) Database.empty run = some db) :
    OneState db.store ∧
      sessionsOf db.store =
        (sessionLog host Database.empty run).foldl Sessions.after fun _ => none :=
  tracks_run .nil hrun

/-- An actor connects and subscribes. -/
def reconnecting : List (Int × Operation) := Authz.sampleSetup ++
  [(1, .updateActorState (.of "s1") (.of "t1") {} (some "kraken-1")),
    (2, .updateSubscription (.of "s2") { actorTokenId := .of "t1", topic := "chat/lobby/messages",
                                         action := .subscribe })]

theorem sessions_refine_reconnecting : ∃ db,
    exec (configure sampleHost) Database.empty reconnecting = some db ∧ OneState db.store ∧
      sessionsOf db.store =
        (sessionLog sampleHost Database.empty reconnecting).foldl Sessions.after fun _ => none :=
  ⟨_, rfl, sessions_refine sampleHost reconnecting _ rfl⟩

/-! ## What a reconnecting actor is given back -/

/-- The event puts the subscription on the actor's record. -/
def SessionEvent.Gives (actorTokenId : Uuid) (sub : TopicSubscription) : SessionEvent → Prop
  | .connected a connectionState _ => a = actorTokenId ∧ sub ∈ connectionState.topics.getD []
  | .tracked _ dto =>
    dto.actorTokenId = actorTokenId ∧ dto.action = .subscribe ∧ subscriptionOf dto = sub
  | .dropped .. | .ended _ => False

/-- The event takes every subscription of that name off the actor's record. -/
def SessionEvent.Takes (actorTokenId : Uuid) (name : String) : SessionEvent → Prop
  | .connected a .. | .dropped _ a => a = actorTokenId
  | .tracked _ dto =>
    dto.actorTokenId = actorTokenId ∧ dto.action = .unsubscribe ∧ dto.topic = name
  | .ended actors => actors actorTokenId = true

/-- The event takes the subscription off the record or puts another of its name there. -/
def SessionEvent.Supersedes (actorTokenId : Uuid) (name : String) : SessionEvent → Prop
  | .tracked _ dto => dto.actorTokenId = actorTokenId ∧ dto.topic = name
  | e => e.Takes actorTokenId name

/-- The subscriptions a map has for an actor. -/
def Sessions.recorded (m : Sessions) (actorTokenId : Uuid) : List TopicSubscription :=
  ((m actorTokenId).map Session.topics).getD []

theorem recorded_sessionsOf (s : Store) (actorTokenId : Uuid) :
    (sessionsOf s).recorded actorTokenId = Authz.recordedSubscriptions s actorTokenId := by
  unfold Sessions.recorded sessionsOf rowAt Authz.recordedSubscriptions
  cases findOne s.actorTokenStates fun st => decide (st.actorTokenId = actorTokenId) with
  | none => rfl
  | some state => rfl

theorem mem_recordTopic {sub t : TopicSubscription} {topics : List TopicSubscription}
    (h : t ∈ recordTopic sub topics) : t = sub ∨ t ∈ topics := by
  induction topics with
  | nil => exact .inl (List.mem_singleton.1 h)
  | cons t₀ ts ih =>
    unfold recordTopic at h
    split at h
    · rcases List.mem_cons.1 h with rfl | h
      · exact .inl rfl
      · exact .inr (List.mem_cons_of_mem _ h)
    · rcases List.mem_cons.1 h with rfl | h
      · exact .inr List.mem_cons_self
      · exact (ih h).imp_right (List.mem_cons_of_mem _)

theorem mem_recordTopic_self {sub : TopicSubscription} {topics : List TopicSubscription} :
    sub ∈ recordTopic sub topics := by
  induction topics with
  | nil => exact List.mem_cons_self
  | cons t ts ih =>
    unfold recordTopic
    split
    · exact List.mem_cons_self
    · exact List.mem_cons_of_mem _ ih

theorem mem_recordTopic_other {sub t : TopicSubscription} {topics : List TopicSubscription}
    (h : t ∈ topics) (hne : t.name ≠ sub.name) : t ∈ recordTopic sub topics := by
  induction topics with
  | nil => cases h
  | cons t₀ ts ih =>
    unfold recordTopic
    split
    · rename_i heq
      rcases List.mem_cons.1 h with rfl | h
      · exact absurd heq hne
      · exact List.mem_cons_of_mem _ h
    · rcases List.mem_cons.1 h with rfl | h
      · exact List.mem_cons_self
      · exact List.mem_cons_of_mem _ (ih h)

section

variable {m : Sessions} {actorTokenId : Uuid} {sub : TopicSubscription}

theorem recorded_update_self {session : Option Session} :
    Sessions.recorded (Function.update m actorTokenId session) actorTokenId =
      (session.map Session.topics).getD [] := by
  unfold Sessions.recorded
  rw [Function.update_self]

theorem recorded_update_other {a : Uuid} {session : Option Session} (ha : a ≠ actorTokenId) :
    Sessions.recorded (Function.update m a session) actorTokenId = m.recorded actorTokenId := by
  unfold Sessions.recorded
  rw [Function.update_of_ne ha.symm]

/-- A call on a session changes what the record had by that call. -/
theorem recorded_tracked {now : Int} {dto : SubscriptionUpdate}
    (h : dto.actorTokenId = actorTokenId) :
    (m.after (.tracked now dto)).recorded actorTokenId =
      applyUpdate dto (m.recorded actorTokenId) := by
  subst h
  unfold Sessions.after
  rw [recorded_update_self]
  unfold Sessions.recorded
  cases m dto.actorTokenId with
  | none => rfl
  | some session => rfl

theorem recorded_ended {actors : Uuid → Bool} :
    (m.after (.ended actors)).recorded actorTokenId =
      if actors actorTokenId then [] else m.recorded actorTokenId := by
  unfold Sessions.recorded
  show (Option.map _ (if actors actorTokenId then _ else _)).getD [] = _
  split <;> rfl

/-- What is on record after an event was given by it, or was there and not taken. -/
theorem mem_recorded_after {e : SessionEvent} (h : sub ∈ (m.after e).recorded actorTokenId) :
    e.Gives actorTokenId sub ∨
      sub ∈ m.recorded actorTokenId ∧ ¬ e.Takes actorTokenId sub.name := by
  cases e with
  | connected a connectionState krakenNodeId =>
    by_cases ha : a = actorTokenId
    · subst ha
      unfold Sessions.after at h
      rw [recorded_update_self] at h
      exact .inl ⟨rfl, h⟩
    · unfold Sessions.after at h
      rw [recorded_update_other ha] at h
      exact .inr ⟨h, ha⟩
  | tracked now dto =>
    by_cases ha : dto.actorTokenId = actorTokenId
    · rw [recorded_tracked ha] at h
      unfold applyUpdate at h
      split at h
      · rename_i haction
        rcases mem_recordTopic h with rfl | h
        · exact .inl ⟨ha, haction, rfl⟩
        · refine .inr ⟨h, ?_⟩
          rintro ⟨_, htake, _⟩
          rw [haction] at htake
          cases htake
      · obtain ⟨h, hne⟩ := List.mem_filter.1 h
        refine .inr ⟨h, ?_⟩
        rintro ⟨_, _, hname⟩
        exact of_decide_eq_true hne hname.symm
    · unfold Sessions.after at h
      rw [recorded_update_other ha] at h
      exact .inr ⟨h, fun htake => ha htake.1⟩
  | dropped now a =>
    by_cases ha : a = actorTokenId
    · subst ha
      unfold Sessions.after at h
      rw [recorded_update_self] at h
      cases hm : m a with
      | none => rw [hm] at h; cases h
      | some session => rw [hm] at h; cases h
    · unfold Sessions.after at h
      rw [recorded_update_other ha] at h
      exact .inr ⟨h, ha⟩
  | ended actors =>
    rw [recorded_ended] at h
    by_cases ha : actors actorTokenId = true
    · rw [if_pos ha] at h
      cases h
    · rw [if_neg ha] at h
      exact .inr ⟨h, ha⟩

/-- What an event gives is on record after it. -/
theorem recorded_of_gives {e : SessionEvent} (h : e.Gives actorTokenId sub) :
    sub ∈ (m.after e).recorded actorTokenId := by
  cases e with
  | connected a connectionState krakenNodeId =>
    obtain ⟨rfl, hsub⟩ := h
    unfold Sessions.after
    rw [recorded_update_self]
    exact hsub
  | tracked now dto =>
    obtain ⟨ha, haction, rfl⟩ := h
    rw [recorded_tracked ha]
    unfold applyUpdate
    rw [haction]
    exact mem_recordTopic_self
  | dropped now a => exact h.elim
  | ended actors => exact h.elim

/-- What no event supersedes stays on record. -/
theorem recorded_of_kept {e : SessionEvent} (hkeep : ¬ e.Supersedes actorTokenId sub.name)
    (h : sub ∈ m.recorded actorTokenId) : sub ∈ (m.after e).recorded actorTokenId := by
  cases e with
  | connected a connectionState krakenNodeId =>
    unfold Sessions.after
    rw [recorded_update_other hkeep]
    exact h
  | tracked now dto =>
    by_cases ha : dto.actorTokenId = actorTokenId
    · have hne : sub.name ≠ dto.topic := fun hname => hkeep ⟨ha, hname.symm⟩
      rw [recorded_tracked ha]
      unfold applyUpdate
      split
      · exact mem_recordTopic_other h hne
      · exact List.mem_filter.2 ⟨h, decide_eq_true hne⟩
    · unfold Sessions.after
      rw [recorded_update_other ha]
      exact h
  | dropped now a =>
    unfold Sessions.after
    rw [recorded_update_other hkeep]
    exact h
  | ended actors =>
    have hstays : ¬ actors actorTokenId = true := hkeep
    rw [recorded_ended, if_neg hstays]
    exact h

end

/-- A valid session, app by app. -/
theorem apps_of_valid {config : CoreConfig} {db : Database} {now : Int} {actorTokenId : Uuid}
    {payload : ActorSessionPayload}
    (hvalid : Authz.revalidateActor config db.store now actorTokenId = .valid payload) :
    ∃ actorToken scope, actorToken.actorTokenId = actorTokenId ∧
      payload.apps = (Authz.validAppAccess db.store now actorToken).map
        (Authz.appAccessOf db.store now actorToken scope) := by
  obtain ⟨actorToken, hactor, _, _, hpayload⟩ := Authz.revalidateActor_eq_valid.1 hvalid
  obtain ⟨_, scope, _, _, _, _, happs⟩ := Authz.of_buildSessionPayload hpayload
  rw [Authz.buildAppAccess_eq (Authz.nodup_validAppAccess db.valid now actorToken)] at happs
  exact ⟨actorToken, _, (Authz.of_findActor hactor).2.2, happs⟩

/-- What a session hands back was asked for and not withdrawn. Each subscription it returns was put
on the actor's record by a call of the run after which no call took it away; and one that was put
there and never superseded is returned wherever its pattern is still allowed. -/
theorem restored_asked_for (host : Host) (config : CoreConfig) (run : List (Int × Operation))
    (db : Database) (hrun : exec (configure host) Database.empty run = some db) (now : Int)
    (actorTokenId : Uuid) (payload : ActorSessionPayload)
    (hvalid : Authz.revalidateActor config db.store now actorTokenId = .valid payload) :
    (∀ appAccess ∈ payload.apps, ∀ sub ∈ appAccess.activeSubscriptions, ∃ record topic,
      sub = Authz.restored topic record ∧
      LastGiven (SessionEvent.Gives actorTokenId record)
        (SessionEvent.Takes actorTokenId record.name) (sessionLog host Database.empty run)) ∧
    ∀ record, LastGiven (SessionEvent.Gives actorTokenId record)
        (SessionEvent.Supersedes actorTokenId record.name) (sessionLog host Database.empty run) →
      (∃ appAccess ∈ payload.apps, ∃ e ∈ appAccess.allowedTopics, e.pattern = record.name) →
      ∃ appAccess ∈ payload.apps, ∃ topic,
        Authz.restored topic record ∈ appAccess.activeSubscriptions := by
  obtain ⟨_, hmap⟩ := tracks_run (OneRow.nil : OneState Database.empty.store) hrun
  obtain ⟨actorToken, scope, rfl, happs⟩ := apps_of_valid hvalid
  have hrecorded : Authz.recordedSubscriptions db.store actorToken.actorTokenId =
      Sessions.recorded ((sessionLog host Database.empty run).foldl Sessions.after
        (sessionsOf Database.empty.store)) actorToken.actorTokenId := by
    rw [← hmap, recorded_sessionsOf]
  constructor
  · intro appAccess happ sub hsub
    rw [happs] at happ
    obtain ⟨access, _, rfl⟩ := List.mem_map.1 happ
    obtain ⟨record, hrecord, e, _, rfl⟩ := Authz.mem_activeSubscriptions.1 hsub
    rw [hrecorded] at hrecord
    refine ⟨record, e.topic, rfl, ?_⟩
    refine lastGiven_of_holds (fun m : Sessions => record ∈ m.recorded actorToken.actorTokenId)
      ?_ List.not_mem_nil hrecord
    intro m e h
    exact mem_recorded_after h
  · rintro record hgiven ⟨appAccess, happ, e, he, hpattern⟩
    have hrecord : record ∈ Authz.recordedSubscriptions db.store actorToken.actorTokenId := by
      rw [hrecorded]
      refine holds_of_lastGiven (fun m : Sessions => record ∈ m.recorded actorToken.actorTokenId)
        ?_ ?_ hgiven
      · intro m e hgives
        exact recorded_of_gives hgives
      · intro m e hkeep h
        exact recorded_of_kept hkeep h
    rw [happs] at happ
    obtain ⟨access, haccess, rfl⟩ := List.mem_map.1 happ
    obtain ⟨appId, e', hstands⟩ := Authz.exists_standsFor haccess he
    obtain ⟨_, owner, howner, rfl, _⟩ := Authz.of_standsFor hstands
    rw [hpattern] at hstands
    refine ⟨Authz.appAccessOf db.store now actorToken scope owner, ?_, e'.topic, ?_⟩
    · rw [happs]
      exact List.mem_map_of_mem howner
    · exact Authz.mem_activeSubscriptions.2 ⟨record, hrecord, e', hstands, rfl⟩

/-- When the actor comes back, it has its subscription. -/
theorem restored_asked_for_reconnecting : ∃ db payload,
    exec (configure sampleHost) Database.empty reconnecting = some db ∧
    Authz.revalidateActor {} db.store 3 (.of "t1") = .valid payload ∧
    ∃ appAccess ∈ payload.apps, ∃ topic,
      Authz.restored topic { name := "chat/lobby/messages", loadBalance := some false } ∈
        appAccess.activeSubscriptions := by
  refine ⟨_, _, rfl, rfl, (restored_asked_for sampleHost {} reconnecting _ rfl 3 (.of "t1") _ rfl).2
    _ ?_ ?_⟩
  · exact ⟨[_], _, [], rfl, ⟨rfl, rfl, rfl⟩, fun e he => by cases he⟩
  · exact ⟨_, List.mem_cons_self, _, List.mem_cons_self, rfl⟩

end Facade
end NolagCore
