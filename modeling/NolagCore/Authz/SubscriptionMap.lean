import NolagCore.Authz.Resolution
import NolagCore.Authz.SubscriptionInterleaving

/-!
# Authz.SubscriptionMap

Calls for one actor, one after the other. The recorded list stands for a finite map from names to
subscriptions: a subscribe sets a name, an unsubscribe takes it out, a clear empties the map. So the
entry of a name after any run is what the last call on it said.
-/

namespace NolagCore
namespace Authz
namespace Subscriptions

open Lib

/-! ## The calls -/

/-- A call, with its instant and the id that a new row gets. -/
inductive Call where
  | update (now : Int) (actorTokenStateId : Uuid) (dto : SubscriptionUpdate)
  | clear (now : Int) (actorTokenId : Uuid)

def Call.actorTokenId : Call → Uuid
  | .update _ _ dto => dto.actorTokenId
  | .clear _ actorTokenId => actorTokenId

def Call.perform (db : Database) : Call → Outcome Unit
  | .update now actorTokenStateId dto => updateSubscription db now actorTokenStateId dto
  | .clear now actorTokenId => clearSubscriptions db now actorTokenId

/-- The database a call commits. -/
def Call.run (db : Database) (c : Call) : Option Database :=
  match c.perform db with
  | .ok (_, db') => some db'
  | .error _ => none

theorem perform_of_run {db db' : Database} {c : Call} (h : c.run db = some db') :
    c.perform db = .ok ((), db') := by
  unfold Call.run at h
  split at h
  · rename_i hok
    cases h
    exact hok
  · cases h

theorem run_of_perform {db db' : Database} {c : Call} (h : c.perform db = .ok ((), db')) :
    c.run db = some db' := by
  unfold Call.run
  rw [h]

/-- The entry of a name. -/
def entryOf (name : String) (topics : List TopicSubscription) : Option TopicSubscription :=
  topics.find? fun t => decide (t.name = name)

/-- The call is on the name: it carries it, or it clears all names. -/
def Call.isOn (name : String) : Call → Bool
  | .update _ _ dto => decide (dto.topic = name)
  | .clear _ _ => true

/-- The entry a call leaves for a name it is on. -/
def Call.leaves : Call → Option TopicSubscription
  | .update _ _ dto =>
    match dto.action with
    | .subscribe => some (subscriptionOf dto)
    | .unsubscribe => none
  | .clear _ _ => none

/-- The entry of a name after a run: what the last call on it left, else the one before the run. -/
def lastEntry (name : String) (before : Option TopicSubscription) (run : List Call) :
    Option TopicSubscription :=
  match (run.filter (Call.isOn name)).getLast? with
  | some c => c.leaves
  | none => before

/-- The presence part of the connection state. -/
def presenceOf (s : Store) (actorTokenId : Uuid) : Option Json :=
  (findState s actorTokenId).bind fun st => st.connectionState.bind (·.presence)

/-- An update leaves the entries of all other names in place, and the presence. -/
structure LeavesOthers (dto : SubscriptionUpdate) (s s' : Store) : Prop where
  others : (recordedSubscriptions s' dto.actorTokenId).filter (fun t => decide (t.name ≠ dto.topic)) =
    (recordedSubscriptions s dto.actorTokenId).filter fun t => decide (t.name ≠ dto.topic)
  presence : presenceOf s' dto.actorTokenId = presenceOf s dto.actorTokenId

/-! ## One list -/

theorem entryOf_recordTopic (sub : TopicSubscription) (name : String) :
    ∀ topics, entryOf name (recordTopic sub topics) =
      if sub.name = name then some sub else entryOf name topics := by
  intro topics
  induction topics with
  | nil => by_cases h : sub.name = name <;> simp [recordTopic, entryOf, h]
  | cons t ts ih =>
    unfold recordTopic
    unfold entryOf at ih ⊢
    by_cases ht : t.name = sub.name
    · rw [if_pos ht]
      by_cases h : sub.name = name
      · simp [h]
      · simp [ht, h]
    · rw [if_neg ht]
      by_cases h : sub.name = name
      · have htn : t.name ≠ name := fun he => ht (he.trans h.symm)
        simpa [htn, h] using ih
      · by_cases htn : t.name = name
        · simp [htn, h]
        · simpa [htn, h] using ih

theorem entryOf_remove (topic name : String) (topics : List TopicSubscription) :
    entryOf name (topics.filter fun t => decide (t.name ≠ topic)) =
      if topic = name then none else entryOf name topics := by
  unfold entryOf
  rw [List.find?_filter]
  by_cases h : topic = name
  · rw [if_pos h, List.find?_eq_none]
    intro t _ ht
    simp only [decide_eq_true_eq] at ht
    exact ht.1 (ht.2.trans h.symm)
  · rw [if_neg h]
    congr 1
    funext t
    by_cases ht : t.name = name
    · simp [ht, Ne.symm h]
    · simp [ht]

/-- The names of the list: a subscribe to a new name puts it at the end. -/
theorem names_recordTopic (sub : TopicSubscription) (topics : List TopicSubscription) :
    (recordTopic sub topics).map (·.name) =
      if sub.name ∈ topics.map (·.name) then topics.map (·.name)
      else topics.map (·.name) ++ [sub.name] := by
  induction topics with
  | nil => rfl
  | cons t ts ih =>
    unfold recordTopic
    by_cases ht : t.name = sub.name
    · simp [ht]
    · rw [if_neg ht, List.map_cons, ih]
      by_cases hm : sub.name ∈ ts.map (·.name)
      · simp [hm]
      · have hne : ¬ sub.name = t.name := fun he => ht he.symm
        simp only [List.map_cons, List.mem_cons, hne, hm, or_self, if_false, List.cons_append]

theorem others_recordTopic (sub : TopicSubscription) (topics : List TopicSubscription) :
    (recordTopic sub topics).filter (fun t => decide (t.name ≠ sub.name)) =
      topics.filter fun t => decide (t.name ≠ sub.name) := by
  induction topics with
  | nil => simp [recordTopic]
  | cons t ts ih =>
    unfold recordTopic
    by_cases ht : t.name = sub.name
    · simp [ht]
    · simpa [ht] using ih

theorem nodup_applyUpdate (dto : SubscriptionUpdate) {topics : List TopicSubscription}
    (h : (topics.map (·.name)).Nodup) : ((applyUpdate dto topics).map (·.name)).Nodup := by
  unfold applyUpdate
  split
  · rw [names_recordTopic]
    split
    · exact h
    · rename_i hnew
      exact h.append (List.nodup_singleton _) (by simpa using hnew)
  · exact h.sublist (List.filter_sublist.map _)

theorem others_applyUpdate (dto : SubscriptionUpdate) (topics : List TopicSubscription) :
    (applyUpdate dto topics).filter (fun t => decide (t.name ≠ dto.topic)) =
      topics.filter fun t => decide (t.name ≠ dto.topic) := by
  unfold applyUpdate
  split
  · exact others_recordTopic (subscriptionOf dto) topics
  · rw [List.filter_filter]
    exact List.filter_congr fun t _ => Bool.and_self _

/-! ## One call -/

/-- What a call makes of the recorded topics. -/
def Call.apply : Call → List TopicSubscription → List TopicSubscription
  | .update _ _ dto, topics => applyUpdate dto topics
  | .clear _ _, _ => []

theorem nodup_apply (c : Call) {topics : List TopicSubscription}
    (h : (topics.map (·.name)).Nodup) : ((c.apply topics).map (·.name)).Nodup := by
  cases c with
  | update now id dto => exact nodup_applyUpdate dto h
  | clear now actorTokenId => exact List.nodup_nil

/-- On the map, a call writes the names it is on and no others. -/
theorem entryOf_apply (c : Call) (name : String) (topics : List TopicSubscription) :
    entryOf name (c.apply topics) =
      if c.isOn name = true then c.leaves else entryOf name topics := by
  cases c with
  | update now id dto =>
    simp only [Call.apply, Call.isOn, Call.leaves, decide_eq_true_eq]
    unfold applyUpdate
    cases dto.action with
    | subscribe => exact entryOf_recordTopic (subscriptionOf dto) name topics
    | unsubscribe => exact entryOf_remove dto.topic name topics
  | clear now actorTokenId => rfl

theorem recorded_eq_topicsOf (s : Store) (actorTokenId : Uuid) :
    recordedSubscriptions s actorTokenId = topicsOf actorTokenId s.actorTokenStates := by
  unfold recordedSubscriptions topicsOf topicsOfState ownRows
  rw [findOne_eq_head?]
  cases (findAll s.actorTokenStates fun st => decide (st.actorTokenId = actorTokenId)).head? with
  | none => rfl
  | some state => rfl

/-- After a clear the actor has the row it had, emptied. -/
theorem findState_clear {db db' : Database} {now : Int} {actorTokenId : Uuid}
    (h : clearSubscriptions db now actorTokenId = .ok ((), db')) :
    findState db'.store actorTokenId = (findState db.store actorTokenId).map fun state =>
      { state with
        connectionState := some { topics := some [] }
        lastActivityAt := some now } := by
  have hfind : ∀ s : Store, findState s actorTokenId =
      (ownRows actorTokenId s.actorTokenStates).head? := fun s => findOne_eq_head? _ _
  unfold clearSubscriptions at h
  split at h
  · rename_i hnone
    cases h
    rw [hnone]
    rfl
  · rename_i state hstate
    obtain ⟨-, hs⟩ := commit_ok h
    rw [hstate, hfind, hs]
    rw [hfind] at hstate
    exact findState_saveRow db.valid.pkState hstate rfl rfl rfl

theorem recorded_run {db db' : Database} {c : Call} (h : c.run db = some db') :
    recordedSubscriptions db'.store c.actorTokenId =
      c.apply (recordedSubscriptions db.store c.actorTokenId) := by
  have hok := perform_of_run h
  cases c with
  | update now id dto =>
    simp only [Call.actorTokenId, Call.apply, recorded_eq_topicsOf]
    exact topicsOf_updateSubscription hok
  | clear now actorTokenId =>
    have hclear := findState_clear hok
    unfold findState at hclear
    simp only [Call.actorTokenId, Call.apply]
    unfold recordedSubscriptions
    rw [hclear]
    cases findOne db.store.actorTokenStates fun st => decide (st.actorTokenId = actorTokenId) with
    | none => rfl
    | some state => rfl

theorem leavesOthers_update {db db' : Database} {now : Int} {actorTokenStateId : Uuid}
    {dto : SubscriptionUpdate}
    (h : updateSubscription db now actorTokenStateId dto = .ok ((), db')) :
    LeavesOthers dto db.store db'.store where
  others := by
    rw [recorded_eq_topicsOf, recorded_eq_topicsOf, topicsOf_updateSubscription h]
    exact others_applyUpdate dto _
  presence := by
    unfold presenceOf
    rw [findState_update h]
    cases findState db.store dto.actorTokenId with
    | none => rfl
    | some state =>
      show (state.connectionState.getD { topics := some [] }).presence = _
      cases hc : state.connectionState with
      | none => simp [hc]
      | some connection => simp [hc]

/-! ## Every call completes -/

/-- The state rows are all of actors of the table, one id each. -/
theorem commit_states {db : Database} {rows : List ActorTokenState}
    (hunique : UniqueOn (·.actorTokenStateId) rows)
    (hactors : References rows (some ·.actorTokenId) db.store.actorTokens ActorToken.actorTokenId) :
    ∃ db', commit { db.store with actorTokenStates := rows } () = .ok ((), db') ∧
      db'.store = { db.store with actorTokenStates := rows } := by
  have hv : Store.SchemaValid { db.store with actorTokenStates := rows } :=
    { db.valid with
      pkState := hunique
      fkStateActor := hactors }
  exact ⟨⟨_, hv⟩, dif_pos hv, rfl⟩

/-- Saving a row of an actor over the actor's own row breaks no constraint. -/
theorem commit_saveRow {db : Database} {actorTokenId : Uuid} {state entity : ActorTokenState}
    (hstate : findState db.store actorTokenId = some state)
    (hactor : entity.actorTokenId = state.actorTokenId) :
    ∃ db', commit { db.store with
        actorTokenStates := saveRow (·.actorTokenStateId) entity db.store.actorTokenStates } () =
        .ok ((), db') ∧ db'.store = { db.store with
          actorTokenStates := saveRow (·.actorTokenStateId) entity db.store.actorTokenStates } := by
  refine commit_states ?_ ?_
  · unfold UniqueOn
    rw [map_saveRow]
    exact db.valid.pkState
  · intro r hr k hk
    rcases mem_saveRow hr with rfl | hr
    · obtain ⟨hrow, -, -⟩ := of_findOne hstate
      have hstored : some state.actorTokenId = some k := by
        rw [← hactor]
        exact hk
      exact db.valid.fkStateActor state hrow k hstored
    · exact db.valid.fkStateActor r hr k hk

theorem update_completes {db : Database} (now : Int) {actorTokenStateId : Uuid}
    {dto : SubscriptionUpdate}
    (hactor : ∃ a ∈ db.store.actorTokens, a.actorTokenId = dto.actorTokenId)
    (hfresh : findState db.store dto.actorTokenId = none →
      ∀ st ∈ db.store.actorTokenStates, st.actorTokenStateId ≠ actorTokenStateId) :
    ∃ db', updateSubscription db now actorTokenStateId dto = .ok ((), db') ∧
      db'.store.actorTokens = db.store.actorTokens := by
  unfold updateSubscription
  split
  · rename_i state hstate
    have hsame : (updatedState dto now state).actorTokenId = state.actorTokenId := rfl
    obtain ⟨db', hok, hs⟩ := commit_saveRow hstate hsame
    exact ⟨db', hok, by rw [hs]⟩
  · rename_i hnone
    let row := updatedState dto now (newState dto.actorTokenId actorTokenStateId)
    have hunique : UniqueOn (·.actorTokenStateId) (db.store.actorTokenStates ++ [row]) := by
      refine db.valid.pkState.append_of_ne (List.nodup_singleton _) fun r hr r' hr' => ?_
      rw [List.mem_singleton.1 hr']
      exact hfresh hnone r hr
    have hactors : References (db.store.actorTokenStates ++ [row]) (some ·.actorTokenId)
        db.store.actorTokens ActorToken.actorTokenId := by
      intro r hr k hk
      rcases List.mem_append.1 hr with hr | hr
      · exact db.valid.fkStateActor r hr k hk
      · rw [List.mem_singleton.1 hr] at hk
        cases hk
        exact hactor
    obtain ⟨db', hok, hs⟩ := commit_states hunique hactors
    exact ⟨db', hok, by rw [hs]⟩

theorem clear_completes (db : Database) (now : Int) (actorTokenId : Uuid) :
    ∃ db', clearSubscriptions db now actorTokenId = .ok ((), db') ∧
      db'.store.actorTokens = db.store.actorTokens ∧
      (findState db.store actorTokenId = none → db' = db) := by
  unfold clearSubscriptions
  split
  · exact ⟨db, rfl, rfl, fun _ => rfl⟩
  · rename_i state hstate
    have hsame : ({ state with
        connectionState := some { topics := some [] }
        lastActivityAt := some now } : ActorTokenState).actorTokenId = state.actorTokenId := rfl
    obtain ⟨db', hok, hs⟩ := commit_saveRow hstate hsame
    refine ⟨db', hok, by rw [hs], fun hnone => ?_⟩
    rw [hstate] at hnone
    cases hnone

/-- The actor has a row in its table, and a state row, or there is none with an id a call draws. -/
structure Ready (actorTokenId : Uuid) (db : Database) (run : List Call) : Prop where
  actor : ∃ a ∈ db.store.actorTokens, a.actorTokenId = actorTokenId
  own : ∀ c ∈ run, c.actorTokenId = actorTokenId
  fresh : (∃ state, findState db.store actorTokenId = some state) ∨
    ∀ now id dto, .update now id dto ∈ run →
      ∀ st ∈ db.store.actorTokenStates, st.actorTokenStateId ≠ id

/-- A call completes, and the actor has a state row after it or nothing has changed. -/
theorem Ready.completes {actorTokenId : Uuid} {db : Database} {c : Call} {run : List Call}
    (h : Ready actorTokenId db (c :: run)) : ∃ db', c.perform db = .ok ((), db') ∧
      db'.store.actorTokens = db.store.actorTokens ∧
      ((∃ state, findState db'.store actorTokenId = some state) ∨ db' = db) := by
  have hc : c.actorTokenId = actorTokenId := h.own c List.mem_cons_self
  subst hc
  cases c with
  | update now id dto =>
    have hfresh : findState db.store dto.actorTokenId = none →
        ∀ st ∈ db.store.actorTokenStates, st.actorTokenStateId ≠ id := by
      intro hnone
      rcases h.fresh with ⟨state, hstate⟩ | hfresh
      · cases hnone.symm.trans hstate
      · exact hfresh now id dto List.mem_cons_self
    obtain ⟨db', hok, hactors⟩ := update_completes now h.actor hfresh
    exact ⟨db', hok, hactors, .inl ⟨_, findState_update hok⟩⟩
  | clear now actorTokenId =>
    obtain ⟨db', hok, hactors, hsame⟩ := clear_completes db now actorTokenId
    refine ⟨db', hok, hactors, ?_⟩
    have hclear := findState_clear hok
    cases hstate : findState db.store actorTokenId with
    | none => exact .inr (hsame hstate)
    | some state =>
      rw [hstate] at hclear
      exact .inl ⟨_, hclear⟩

theorem Ready.step {actorTokenId : Uuid} {db : Database} {c : Call} {run : List Call}
    (h : Ready actorTokenId db (c :: run)) :
    ∃ db', c.run db = some db' ∧ Ready actorTokenId db' run := by
  have hown : ∀ c' ∈ run, c'.actorTokenId = actorTokenId := fun c' hm =>
    h.own c' (List.mem_cons_of_mem _ hm)
  obtain ⟨db', hok, hactors, hfresh⟩ := h.completes
  refine ⟨db', run_of_perform hok, by rw [hactors]; exact h.actor, hown, ?_⟩
  rcases hfresh with hstate | rfl
  · exact .inl hstate
  · rcases h.fresh with hstate | hfresh
    · exact .inl hstate
    · exact .inr fun now id dto hm => hfresh now id dto (List.mem_cons_of_mem _ hm)

/-! ## A run of calls -/

theorem lastEntry_cons (name : String) (before : Option TopicSubscription) (c : Call)
    (run : List Call) : lastEntry name before (c :: run) =
      lastEntry name (if c.isOn name = true then c.leaves else before) run := by
  unfold lastEntry
  by_cases hc : c.isOn name = true
  · rw [if_pos hc, List.filter_cons_of_pos hc, List.getLast?_cons]
    cases (run.filter (Call.isOn name)).getLast? with
    | none => rfl
    | some c' => rfl
  · rw [if_neg hc, List.filter_cons_of_neg hc]

/-- A run of calls, as a list of records and as a map. -/
structure Tracks (actorTokenId : Uuid) (s : Store) (run : List Call) (s' : Store) : Prop where
  distinct : ((recordedSubscriptions s' actorTokenId).map (·.name)).Nodup
  entries : ∀ name, entryOf name (recordedSubscriptions s' actorTokenId) =
    lastEntry name (entryOf name (recordedSubscriptions s actorTokenId)) run

theorem tracks_run {actorTokenId : Uuid} : ∀ {run : List Call} {db : Database},
    Ready actorTokenId db run → ((recordedSubscriptions db.store actorTokenId).map (·.name)).Nodup →
      ∃ db', exec Call.run db run = some db' ∧ Tracks actorTokenId db.store run db'.store := by
  intro run
  induction run with
  | nil => exact fun {db} _ hdistinct => ⟨db, rfl, hdistinct, fun _ => rfl⟩
  | cons c run ih =>
    intro db hready hdistinct
    have hc : c.actorTokenId = actorTokenId := hready.own c List.mem_cons_self
    obtain ⟨db₁, hstep, hready₁⟩ := hready.step
    have hrecorded := recorded_run hstep
    rw [hc] at hrecorded
    have hdistinct₁ : ((recordedSubscriptions db₁.store actorTokenId).map (·.name)).Nodup := by
      rw [hrecorded]
      exact nodup_apply c hdistinct
    obtain ⟨db', hrun, hdistinct', hentries⟩ := ih hready₁ hdistinct₁
    refine ⟨db', exec_step hstep hrun, hdistinct', fun name => ?_⟩
    rw [hentries name, lastEntry_cons, hrecorded, entryOf_apply]

/-- An actor with a legacy record and a presence. -/
def legacyDb : Database where
  store :=
    { projects := [{ projectId := .of "p1", name := "acme" }]
      actorTokens := [{ actorTokenId := .of "t1", projectId := .of "p1", keyId := "at_live_1",
                        secretHash := "", name := "erin", actorType := .user }]
      actorTokenStates := [{ actorTokenStateId := .of "s1", actorTokenId := .of "t1",
                             connectionState := some
                               { topics := some [{ name := "a", identifiers := some ["old"] }]
                                 presence := some ⟨"\x7b\x7d"⟩ } }] }
  valid := by decide

def subscribe (topic : String) (loadBalance : Option Bool) : SubscriptionUpdate where
  actorTokenId := .of "t1"
  topic := topic
  action := .subscribe
  loadBalance := loadBalance
  loadBalanceGroup := some "group"

/-- Two names subscribed twice, the second one first as a shared subscription. -/
def resubscribes : List Call :=
  [.update 1 (.of "s2") (subscribe "b" (some true)), .update 2 (.of "s3") (subscribe "a" none),
    .update 3 (.of "s4") (subscribe "b" none)]

example : (exec Call.run legacyDb resubscribes).map
    (fun db => recordedSubscriptions db.store (.of "t1")) =
      some [{ name := "a", loadBalance := some false }, { name := "b", loadBalance := some false }] := by
  decide

end Subscriptions
end Authz
end NolagCore
