import NolagCore.AccessScope.BindingInterleaving

/-!
# AccessScope.BindingAlone

Run to the end with nothing beside it, each call leaves the scopes and the actors that its facade
method leaves.
-/

namespace NolagCore
namespace ScopeBinding

open Lib AccessScopeFacade ActorTokenFacade

/-- The tables with no transaction open. -/
def State.idle (scopes : List AccessScope) (actors : List ActorToken) : State where
  scopes := { rows := scopes }
  actors := { rows := actors }
  calls := Pool.empty

/-- Run to the end with nothing beside it, the call takes one store's rows to the other's. -/
def Alone (legacy : String → Option Int) (crypto : Crypto) (s : Store) (call : Call) (s' : Store) :
    Prop :=
  ∃ run st, exec (step legacy crypto) (State.idle s.accessScopes s.actorTokens)
      (.begin 0 call :: run) = some st ∧
    st.calls 0 = some (call, .returned true) ∧
    st.scopes.rows = s'.accessScopes ∧ st.actors.rows = s'.actorTokens

/-! ## Rows -/

theorem scopeRow_of_mem {rows : List AccessScope} (hpk : UniqueOn (·.accessScopeId) rows)
    {row : AccessScope} (hm : row ∈ rows) : scopeRow rows row.accessScopeId = some row := by
  cases hf : scopeRow rows row.accessScopeId with
  | none => exact absurd (decide_eq_true rfl) (List.find?_eq_none.1 hf row hm)
  | some row' =>
    have hid : row'.accessScopeId = row.accessScopeId := by simpa using List.find?_some hf
    rw [hpk.eq_of_key (List.mem_of_find?_eq_some hf) hm hid]

theorem actorRow_of_mem {rows : List ActorToken} (hpk : UniqueOn (·.actorTokenId) rows)
    {row : ActorToken} (hm : row ∈ rows) : actorRow rows row.actorTokenId = some row := by
  cases hf : actorRow rows row.actorTokenId with
  | none => exact absurd (decide_eq_true rfl) (List.find?_eq_none.1 hf row hm)
  | some row' =>
    have hid : row'.actorTokenId = row.actorTokenId := by simpa using List.find?_some hf
    rw [hpk.eq_of_key (List.mem_of_find?_eq_some hf) hm hid]

/-! ## Statements -/

/-- Nothing has been written yet, and no other transaction holds a row. -/
structure Unwritten (s : Store) (st : State) : Prop where
  scopes : st.scopes.rows = s.accessScopes
  noScope : st.scopes.pending = []
  ownScopes : ∀ l ∈ st.scopes.shared, l.2 = 0
  actors : st.actors.rows = s.actorTokens
  noActor : st.actors.pending = []
  ownActors : ∀ l ∈ st.actors.shared, l.2 = 0

theorem Unwritten.lockScope {s : Store} {st : State} (h : Unwritten s st) (id : Uuid) :
    st.scopes.lockable (·.accessScopeId) 0 id = true := by
  simp [Table.lockable, h.noScope]

theorem Unwritten.lockActor {s : Store} {st : State} (h : Unwritten s st) (id : Uuid) :
    st.actors.lockable (·.actorTokenId) 0 id = true := by
  simp [Table.lockable, h.noActor]

theorem Unwritten.writeScope {s : Store} {st : State} (h : Unwritten s st) (id : Uuid) :
    st.scopes.writable (·.accessScopeId) 0 id = true := by
  refine Table.writable_iff.2 ⟨fun e he => ?_, fun l hl _ => h.ownScopes l hl⟩
  rw [h.noScope] at he
  cases he

theorem Unwritten.writeActor {s : Store} {st : State} (h : Unwritten s st) (id : Uuid) :
    st.actors.writable (·.actorTokenId) 0 id = true := by
  refine Table.writable_iff.2 ⟨fun e he => ?_, fun l hl _ => h.ownActors l hl⟩
  rw [h.noActor] at he
  cases he

section

variable (legacy : String → Option Int) (crypto : Crypto)

/-- On its own, the call comes to this phase without having written. -/
def Reaches (s : Store) (call : Call) (phase : Phase) : Prop :=
  ∃ run st, exec (step legacy crypto) (State.idle s.accessScopes s.actorTokens)
    (.begin 0 call :: run) = some st ∧ st.calls 0 = some (call, phase) ∧ Unwritten s st

variable {legacy crypto} {s s' : Store} {call : Call} {phase : Phase}

theorem reaches_begun (legacy : String → Option Int) (crypto : Crypto) (s : Store) (call : Call) :
    Reaches legacy crypto s call .begun :=
  ⟨[], (State.idle _ _).advance 0 call .begun, rfl, rfl,
    ⟨rfl, rfl, fun _ h => (nomatch h), rfl, rfl, fun _ h => nomatch h⟩⟩

theorem exec_snoc {st st₁ st₂ : State} {run : List Statement} {l : Statement}
    (h : exec (step legacy crypto) st run = some st₁) (hl : step legacy crypto st₁ l = some st₂) :
    exec (step legacy crypto) st (run ++ [l]) = some st₂ :=
  exec_append.2 ⟨st₁, h, by simp only [exec, hl, Option.bind_some]⟩

theorem Reaches.advance (h : Reaches legacy crypto s call phase) (phase' : Phase) (l : Statement)
    (hl : ∀ st, st.calls 0 = some (call, phase) → Unwritten s st →
      step legacy crypto st l = some (st.advance 0 call phase')) :
    Reaches legacy crypto s call phase' := by
  obtain ⟨run, st, hrun, hc, hst⟩ := h
  refine ⟨run ++ [l], st.advance 0 call phase', ?_, Pool.move_self st.calls 0 call phase', ?_⟩
  · exact exec_snoc hrun (hl st hc hst)
  · exact ⟨hst.scopes, hst.noScope, hst.ownScopes, hst.actors, hst.noActor, hst.ownActors⟩

theorem Reaches.holdScope (h : Reaches legacy crypto s call phase)
    (existing : AccessScope) (l : Statement)
    (hl : ∀ st, st.calls 0 = some (call, phase) → Unwritten s st →
      step legacy crypto st l = some (st.holdScope 0 call existing)) :
    Reaches legacy crypto s call (.foundScope existing) := by
  obtain ⟨run, st, hrun, hc, hst⟩ := h
  refine ⟨run ++ [l], st.holdScope 0 call existing, ?_,
    Pool.move_self st.calls 0 call (.foundScope existing), ?_⟩
  · exact exec_snoc hrun (hl st hc hst)
  · refine ⟨hst.scopes, hst.noScope, fun l hl => ?_, hst.actors, hst.noActor, hst.ownActors⟩
    rcases List.mem_cons.1 hl with rfl | hl
    · rfl
    · exact hst.ownScopes l hl

theorem Reaches.holdActor (h : Reaches legacy crypto s call phase)
    (existing : ActorToken) (l : Statement)
    (hl : ∀ st, st.calls 0 = some (call, phase) → Unwritten s st →
      step legacy crypto st l = some (st.holdActor 0 call existing)) :
    Reaches legacy crypto s call (.foundActor existing) := by
  obtain ⟨run, st, hrun, hc, hst⟩ := h
  refine ⟨run ++ [l], st.holdActor 0 call existing, ?_,
    Pool.move_self st.calls 0 call (.foundActor existing), ?_⟩
  · exact exec_snoc hrun (hl st hc hst)
  · refine ⟨hst.scopes, hst.noScope, hst.ownScopes, hst.actors, hst.noActor, fun l hl => ?_⟩
    rcases List.mem_cons.1 hl with rfl | hl
    · rfl
    · exact hst.ownActors l hl

/-- A call that writes a scope leaves it in the table. -/
theorem Reaches.writeScope (h : Reaches legacy crypto s call phase) (version : AccessScope)
    (hl : ∀ st, st.calls 0 = some (call, phase) → Unwritten s st →
      step legacy crypto st (.write 0) = some (st.writeScope 0 call version))
    (hscopes : s'.accessScopes = Table.publish (·.accessScopeId) [version] s.accessScopes)
    (hactors : s'.actorTokens = s.actorTokens) : Alone legacy crypto s call s' := by
  obtain ⟨run, st, hrun, hc, hst⟩ := h
  have hcommit : step legacy crypto (st.writeScope 0 call version) (.commit 0) =
      some ((st.writeScope 0 call version).commit 0 call) := by
    simp [step, State.writeScope]
  refine ⟨run ++ [.write 0] ++ [.commit 0], _, exec_snoc (exec_snoc hrun (hl st hc hst)) hcommit,
    ?_, ?_, ?_⟩
  · exact Pool.move_self (st.writeScope 0 call version).calls 0 call (.returned true)
  · rw [hscopes, ← hst.scopes]
    exact Table.rows_commit_write hst.noScope 0 version
  · rw [hactors, ← hst.actors]
    exact Table.rows_commit_nothing hst.noActor 0

theorem Reaches.writeActor (h : Reaches legacy crypto s call phase) (version : ActorToken)
    (hl : ∀ st, st.calls 0 = some (call, phase) → Unwritten s st →
      step legacy crypto st (.write 0) = some (st.writeActor 0 call version))
    (hscopes : s'.accessScopes = s.accessScopes)
    (hactors : s'.actorTokens = Table.publish (·.actorTokenId) [version] s.actorTokens) :
    Alone legacy crypto s call s' := by
  obtain ⟨run, st, hrun, hc, hst⟩ := h
  have hcommit : step legacy crypto (st.writeActor 0 call version) (.commit 0) =
      some ((st.writeActor 0 call version).commit 0 call) := by
    simp [step, State.writeActor]
  refine ⟨run ++ [.write 0] ++ [.commit 0], _, exec_snoc (exec_snoc hrun (hl st hc hst)) hcommit,
    ?_, ?_, ?_⟩
  · exact Pool.move_self (st.writeActor 0 call version).calls 0 call (.returned true)
  · rw [hscopes, ← hst.scopes]
    exact Table.rows_commit_nothing hst.noScope 0
  · rw [hactors, ← hst.actors]
    exact Table.rows_commit_write hst.noActor 0 version

/-- A save that finds no difference leaves the tables. -/
theorem Reaches.leave (h : Reaches legacy crypto s call .unchanged)
    (hscopes : s'.accessScopes = s.accessScopes) (hactors : s'.actorTokens = s.actorTokens) :
    Alone legacy crypto s call s' := by
  obtain ⟨run, st, hrun, hc, hst⟩ := h
  have hcommit : step legacy crypto st (.commit 0) = some (st.commit 0 call) := by
    simp [step, hc]
  refine ⟨run ++ [.commit 0], _, exec_snoc hrun hcommit, ?_, ?_, ?_⟩
  · exact Pool.move_self st.calls 0 call (.returned true)
  · rw [hscopes, ← hst.scopes]
    exact Table.rows_commit_nothing hst.noScope 0
  · rw [hactors, ← hst.actors]
    exact Table.rows_commit_nothing hst.noActor 0

/-- `updateLock` of a scope. -/
theorem reaches_foundScope {id projectId : Uuid} {existing : AccessScope}
    (hlocks : call.locks = .scope id projectId)
    (hrow : scopeById s.accessScopes id projectId = some existing) :
    Reaches legacy crypto s call (.foundScope existing) := by
  refine ((reaches_begun legacy crypto s call).advance (.waiting existing.accessScopeId) (.select 0)
    fun st hc hst => ?_).holdScope existing (.acquire 0) fun st hc hst => ?_
  · simp [step, hc, selectRow, hlocks, hst.scopes, hrow]
  · simp [step, hc, acquireRow, hlocks, hst.lockScope, hst.scopes, hrow]

/-- `updateLock` of an actor. -/
theorem reaches_foundActor {id projectId : Uuid} {existing : ActorToken}
    (hlocks : call.locks = .actor id projectId)
    (hrow : actorById s.actorTokens id projectId = some existing) :
    Reaches legacy crypto s call (.foundActor existing) := by
  refine ((reaches_begun legacy crypto s call).advance (.waiting existing.actorTokenId) (.select 0)
    fun st hc hst => ?_).holdActor existing (.acquire 0) fun st hc hst => ?_
  · simp [step, hc, selectRow, hlocks, hst.actors, hrow]
  · simp [step, hc, acquireRow, hlocks, hst.lockActor, hst.actors, hrow]

/-- The plain check of a call. -/
theorem Reaches.check (h : Reaches legacy crypto s call phase) (hck : checksIn call phase = true)
    (hpass : passes s.accessScopes s.actorTokens call = true) :
    Reaches legacy crypto s call .checked := by
  refine h.advance .checked (.check 0) fun st hc hst => ?_
  simp [step, hc, hck, hst.scopes, hst.actors, hpass]

end

/-! ## Scopes -/

section

variable (legacy : String → Option Int) (crypto : Crypto) {db db' : Database} {id projectId : Uuid}

theorem createScope_alone {dto : AccessScopeCreateDto} {entity : AccessScope}
    (h : AccessScopeFacade.create db id projectId dto = .ok (entity, db')) :
    Alone legacy crypto db.store (.createScope id projectId dto) db'.store := by
  unfold AccessScopeFacade.create at h
  split at h
  · cases h
  · rename_i hslug
    obtain ⟨-, hstore⟩ := commit_ok h
    have hscopes : db'.store.accessScopes =
        db.store.accessScopes ++ [newScope id projectId dto] := congrArg Store.accessScopes hstore
    have hpk := db'.valid.pkScope
    rw [hscopes] at hpk
    have hnew : ∀ r ∈ db.store.accessScopes, r.accessScopeId ≠ id := fun r hr =>
      hpk.ne_of_append hr (List.mem_singleton.2 rfl)
    have hfresh : scopeRow db.store.accessScopes id = none :=
      List.find?_eq_none.2 fun r hr hid => hnew r hr (of_decide_eq_true hid)
    have hfree : slugTaken db.store.accessScopes (newScope id projectId dto) = false := by
      refine List.any_eq_false.2 fun r hr htaken => ?_
      have htaken : (live r && decide (r.projectId = projectId) && decide (r.slug = dto.slug)) =
          true := htaken
      rw [Bool.and_eq_true, Bool.and_eq_true, decide_eq_true_eq, decide_eq_true_eq] at htaken
      have hmiss := findOne_eq_none.1 hslug r hr htaken.1.1
      simp [htaken] at hmiss
    have hfind : scopeBySlug db.store.accessScopes dto.slug projectId = none := hslug
    have hchecked : Reaches legacy crypto db.store (.createScope id projectId dto) .checked := by
      refine (reaches_begun ..).advance .checked (.select 0) fun st hc hst => ?_
      simp [step, hc, selectRow, Call.locks, hst.scopes, hfind]
    refine hchecked.writeScope (newScope id projectId dto) (fun st hc hst => ?_) ?_ (by rw [hstore])
    · have hlock := hst.writeScope (newScope id projectId dto).accessScopeId
      have hrow : scopeRow db.store.accessScopes (newScope id projectId dto).accessScopeId = none :=
        hfresh
      have hnone : slugTaken [] (newScope id projectId dto) = false := rfl
      simp [step, hc, writeRow, insertScope, hst.scopes, hst.noScope, hlock, hrow, hfree, hnone]
    · exact hscopes.trans (Table.publish_append hnew)

theorem updateScope_alone {dto : AccessScopePatchDto} {entity : AccessScope}
    (h : AccessScopeFacade.update db id projectId dto = .ok (entity, db')) :
    Alone legacy crypto db.store (.updateScope id projectId dto) db'.store := by
  unfold AccessScopeFacade.update at h
  split at h
  · cases h
  · rename_i existing hfind
    obtain ⟨-, hstore⟩ := commit_ok h
    have hscopes : db'.store.accessScopes =
        saveRow (·.accessScopeId) (patchedScope dto existing) db.store.accessScopes :=
      congrArg Store.accessScopes hstore
    have hrow : scopeById db.store.accessScopes id projectId = some existing := hfind
    have hfound : Reaches legacy crypto db.store (.updateScope id projectId dto)
        (.foundScope existing) := reaches_foundScope rfl hrow
    obtain ⟨hm, _, rfl, _⟩ := of_scopeById hrow
    have hread := scopeRow_of_mem db.valid.pkScope hm
    by_cases heq : patchedScope dto existing = existing
    · have hunchanged := hfound.advance .unchanged (.reread 0)
        fun st hc hst => by simp [step, hc, hst.scopes, hread, heq]
      refine hunchanged.leave ?_ (by rw [hstore])
      rw [hscopes, heq]
      exact Table.save_self db.valid.pkScope hm
    · have hsaving := hfound.advance (.savingScope (patchedScope dto existing) existing) (.reread 0)
        fun st hc hst => by simp [step, hc, hst.scopes, hread, heq]
      refine hsaving.writeScope (patchedScope dto existing) (fun st hc hst => ?_) ?_
        (by rw [hstore])
      · simp [step, hc, writeRow, updateScopeRow, hst.writeScope, hst.scopes, hread,
          writeBackScope_self]
      · exact hscopes.trans (Table.publish_save db.valid.pkScope hm rfl)

theorem deleteScope_alone {now : Int}
    (h : AccessScopeFacade.delete db now id projectId = .ok ((), db')) :
    Alone legacy crypto db.store (.deleteScope now id projectId) db'.store := by
  unfold AccessScopeFacade.delete at h
  split at h
  · cases h
  · rename_i existing hfind
    simp only at h
    split at h
    · cases h
    · rename_i hcount
      obtain ⟨-, hstore⟩ := commit_ok h
      have hrow : scopeById db.store.accessScopes id projectId = some existing := hfind
      have hfound : Reaches legacy crypto db.store (.deleteScope now id projectId)
          (.foundScope existing) := reaches_foundScope rfl hrow
      have hpass : passes db.store.accessScopes db.store.actorTokens
          (.deleteScope now id projectId) = true := by
        simpa [passes, Call.names, Call.removes, List.isEmpty_iff_length_eq_zero] using hcount
      obtain ⟨hm, hl, hid, hproject⟩ := of_scopeById hrow
      refine (hfound.check rfl hpass).writeScope { existing with deletedAt := some now }
        (fun st hc hst => ?_) ?_ (by rw [hstore])
      · simp [step, hc, writeRow, updateScopeRow, hst.writeScope, hst.scopes, hrow]
      · rw [hstore]
        refine Table.publish_update db.valid.pkScope hm (fun r hr => ?_) rfl
        by_cases hk : r.accessScopeId = id
        · cases db.valid.pkScope.eq_of_key hr hm (hk.trans hid.symm)
          simp [hl, hid, hproject]
        · simp [hk, hid]

end

/-! ## Actors -/

section

variable (legacy : String → Option Int) (crypto : Crypto) {db db' : Database} {id projectId : Uuid}

/-- The scope `_assertScopeInProject` lets through is found by the check of the call. -/
theorem passes_of_assert {s : Store} {call : Call} {accessScopeId : Option Uuid}
    (hn : call.names = accessScopeId.map (·, projectId)) (hr : call.removes = none)
    (h : assertScopeInProject s projectId accessScopeId = .ok ()) :
    passes s.accessScopes s.actorTokens call = true := by
  unfold assertScopeInProject at h
  unfold passes
  rw [hn, hr]
  cases accessScopeId with
  | none => rfl
  | some accessScopeId =>
    simp only at h
    split at h
    · cases h
    · rename_i hcount
      have hsome : (scopeById s.accessScopes accessScopeId projectId).isSome = true := by
        rw [Option.isSome_iff_ne_none]
        intro hnone
        refine hcount (List.length_eq_zero_iff.2 ?_)
        exact List.filter_eq_nil_iff.2 fun r hr => List.find?_eq_none.1 hnone r hr
      simp [hsome]

theorem createActor_alone {random : CredentialBytes} {data : ActorTokenCreateDto}
    {created : CreatedActorToken}
    (h : createActorToken legacy crypto db id random projectId data = .ok (created, db')) :
    Alone legacy crypto db.store (.createActor id random projectId data) db'.store := by
  unfold createActorToken at h
  split at h
  · cases h
  · rename_i hassert
    split at h
    · cases h
    · rename_i expiresAt hdate
      obtain ⟨-, hstore⟩ := commit_ok h
      have hactors : db'.store.actorTokens = db.store.actorTokens ++
          [newActor crypto id random projectId data expiresAt] := congrArg Store.actorTokens hstore
      have hpk := db'.valid.pkActor
      have hunique := db'.valid.actorKeyId
      rw [hactors] at hpk hunique
      have hnew : ∀ a ∈ db.store.actorTokens, a.actorTokenId ≠ id := fun a ha =>
        hpk.ne_of_append ha (List.mem_singleton.2 rfl)
      have hfresh : actorRow db.store.actorTokens
          (newActor crypto id random projectId data expiresAt).actorTokenId = none :=
        List.find?_eq_none.2 fun a ha hid => hnew a ha (of_decide_eq_true hid)
      have hkeyId : (db.store.actorTokens.any fun a => decide (a.keyId =
          (newActor crypto id random projectId data expiresAt).keyId)) = false :=
        List.any_eq_false.2 fun a ha hk =>
          hunique.ne_of_append ha (List.mem_singleton.2 rfl) (of_decide_eq_true hk)
      have hchecked : Reaches legacy crypto db.store (.createActor id random projectId data)
          .checked := (reaches_begun ..).check rfl (passes_of_assert rfl rfl hassert)
      refine hchecked.writeActor (newActor crypto id random projectId data expiresAt)
        (fun st hc hst => ?_) (by rw [hstore]) (hactors.trans (Table.publish_append hnew))
      have hlock := hst.writeActor (newActor crypto id random projectId data expiresAt).actorTokenId
      simp only [step, hc, writeRow, hdate, insertActor, hst.actors, hst.noActor, hlock, hfresh,
        hkeyId]
      rfl

theorem updateActor_alone {data : ActorTokenPatchDto} {entity : ActorToken}
    (h : updateActorToken legacy db id projectId data = .ok (entity, db')) :
    Alone legacy crypto db.store (.updateActor id projectId data) db'.store := by
  unfold updateActorToken at h
  split at h
  · cases h
  · rename_i existing hfind
    split at h
    · cases h
    · rename_i hassert
      unfold patchActorToken at h
      rw [hfind] at h
      simp only at h
      split at h
      · cases h
      · rename_i patched he
        obtain ⟨-, hstore⟩ := commit_ok h
        have hactors : db'.store.actorTokens =
            saveRow (·.actorTokenId) patched db.store.actorTokens :=
          congrArg Store.actorTokens hstore
        have hrow : actorById db.store.actorTokens id projectId = some existing := hfind
        have hfound : Reaches legacy crypto db.store (.updateActor id projectId data)
            (.foundActor existing) := reaches_foundActor rfl hrow
        have hloaded := (hfound.check rfl (passes_of_assert rfl rfl hassert)).advance
          (.loaded existing) (.findOne 0) fun st hc hst => by simp [step, hc, hst.actors, hrow]
        obtain ⟨hm, _, rfl, _⟩ := of_actorById hrow
        have hread := actorRow_of_mem db.valid.pkActor hm
        have hid : patched.actorTokenId = existing.actorTokenId := by
          rw [← writeBackActor_self he]
          rfl
        by_cases heq : patched = existing
        · have hunchanged := hloaded.advance .unchanged (.reread 0)
            fun st hc hst => by simp [step, hc, hst.actors, hread, savePatch, he, heq]
          refine hunchanged.leave (by rw [hstore]) ?_
          rw [hactors, heq]
          exact Table.save_self db.valid.pkActor hm
        · have hsaving := hloaded.advance (.savingActor patched existing) (.reread 0)
            fun st hc hst => by simp [step, hc, hst.actors, hread, savePatch, he, heq]
          refine hsaving.writeActor patched (fun st hc hst => ?_) (by rw [hstore]) ?_
          · simp [step, hc, writeRow, updateActorRow, hst.writeActor, hst.actors, hread,
              writeBackActor_self he]
          · exact hactors.trans (Table.publish_save db.valid.pkActor hm hid)

theorem deleteActor_alone {now : Int}
    (h : deleteActorToken db now id projectId = .ok ((), db')) :
    Alone legacy crypto db.store (.deleteActor now id projectId) db'.store := by
  unfold deleteActorToken at h
  split at h
  · cases h
  · rename_i existing hfind
    obtain ⟨-, hstore⟩ := commit_ok h
    have hrow : actorById db.store.actorTokens id projectId = some existing := hfind
    have hfound : Reaches legacy crypto db.store (.deleteActor now id projectId)
        (.foundActor existing) := reaches_foundActor rfl hrow
    obtain ⟨hm, hl, hid, hproject⟩ := of_actorById hrow
    refine hfound.writeActor { existing with deletedAt := some now } (fun st hc hst => ?_)
      (by rw [hstore]) ?_
    · simp [step, hc, writeRow, updateActorRow, hst.writeActor, hst.actors, hrow]
    · rw [hstore]
      refine Table.publish_update db.valid.pkActor hm (fun a ha => ?_) rfl
      by_cases hk : a.actorTokenId = id
      · cases db.valid.pkActor.eq_of_key ha hm (hk.trans hid.symm)
        simp [hl, hid, hproject]
      · simp [hk, hid]

end

end ScopeBinding
end NolagCore
