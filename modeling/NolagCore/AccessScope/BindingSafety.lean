import NolagCore.AccessScope.BindingInterleaving

/-!
# AccessScope.BindingSafety

No live actor is bound to a dead or foreign scope, as long as no bind and no delete of one scope
cross between their checks and the ends of their transactions. The lock a delete holds on the scope
keeps other writers off the scope; a bind takes none, so the two checks do not see each other.
-/

namespace NolagCore
namespace ScopeBinding

open Lib AccessScopeFacade ActorTokenFacade

/-! ## Binding and removing -/

/-- Past the check, with the transaction still open. -/
def Phase.isPast : Phase → Bool
  | .checked | .loaded _ | .savingActor _ _ | .written => true
  | _ => false

/-- Call `c` has checked the scope it names and may bind an actor of the project to it. -/
def Binds (st : State) (c : Nat) (accessScopeId projectId : Uuid) : Prop :=
  ∃ call phase, st.calls c = some (call, phase) ∧
    call.names = some (accessScopeId, projectId) ∧ phase.isPast = true

/-- Call `c` has counted no actor in the scope and may delete it. -/
def Removes (st : State) (c : Nat) (accessScopeId : Uuid) : Prop :=
  ∃ call phase, st.calls c = some (call, phase) ∧
    call.removes = some accessScopeId ∧ phase.isPast = true

def LiveScope (scopes : List AccessScope) (accessScopeId projectId : Uuid) : Prop :=
  ∃ r ∈ scopes, live r = true ∧ r.accessScopeId = accessScopeId ∧ r.projectId = projectId

/-- No live actor is bound to the scope. -/
def Unbound (actors : List ActorToken) (accessScopeId : Uuid) : Prop :=
  ∀ a ∈ actors, live a = true → a.accessScopeId ≠ some accessScopeId

/-- Every live actor with a scope names a live scope of its own project. -/
def Bound (scopes : List AccessScope) (actors : List ActorToken) : Prop :=
  ∀ a ∈ actors, live a = true → ∀ accessScopeId, a.accessScopeId = some accessScopeId →
    LiveScope scopes accessScopeId a.projectId

/-- A check that passes meets no open call on the other side: a bind no delete of the scope, a
delete no bind to it. -/
def NoCrossing (st : State) : Statement → Prop
  | .check c => ∀ call phase, st.calls c = some (call, phase) → checksIn call phase = true →
      passes st.scopes.rows st.actors.rows call = true →
      (∀ id projectId, call.names = some (id, projectId) → ∀ c', ¬ Removes st c' id) ∧
      ∀ id, call.removes = some id → ∀ c' projectId, ¬ Binds st c' id projectId
  | _ => True

/-! ## What each call may rely on -/

def HeldScope (st : State) (c : Nat) (r : AccessScope) : Prop :=
  (r.accessScopeId, c) ∈ st.scopes.shared ∧ r ∈ st.scopes.rows

def HeldActor (st : State) (c : Nat) (a : ActorToken) : Prop :=
  (a.actorTokenId, c) ∈ st.actors.shared ∧ a ∈ st.actors.rows

/-- The rows a call has read under its lock are the committed ones. -/
def Knows (legacy : String → Option Int) (st : State) (c : Nat) : Call → Phase → Prop
  | .updateScope id _ _, .foundScope existing =>
    HeldScope st c existing ∧ existing.accessScopeId = id
  | .updateScope id _ dto, .savingScope entity reread =>
    HeldScope st c reread ∧ reread.accessScopeId = id ∧ entity = patchedScope dto reread
  | .updateActor id _ _, .foundActor existing =>
    HeldActor st c existing ∧ existing.actorTokenId = id
  | .updateActor id _ _, .checked => (id, c) ∈ st.actors.shared
  | .updateActor id projectId _, .loaded existing => HeldActor st c existing ∧
      existing.actorTokenId = id ∧ existing.projectId = projectId ∧ live existing = true
  | .updateActor id projectId data, .savingActor entity reread => HeldActor st c reread ∧
      reread.actorTokenId = id ∧ reread.projectId = projectId ∧ live reread = true ∧
      assign legacy data reread = .ok entity
  | _, _ => True

/-- What `c` holds is still held, and unchanged. -/
structure Frame (st st' : State) (c : Nat) : Prop where
  sharedScopes : ∀ k, (k, c) ∈ st.scopes.shared → (k, c) ∈ st'.scopes.shared
  heldScopes : ∀ r, HeldScope st c r → r ∈ st'.scopes.rows
  sharedActors : ∀ k, (k, c) ∈ st.actors.shared → (k, c) ∈ st'.actors.shared
  heldActors : ∀ a, HeldActor st c a → a ∈ st'.actors.rows

theorem Knows.frame {legacy : String → Option Int} {st st' : State} {c : Nat} {call : Call}
    {phase : Phase} (h : Knows legacy st c call phase) (hf : Frame st st' c) :
    Knows legacy st' c call phase := by
  have hscope : ∀ r, HeldScope st c r → HeldScope st' c r := fun r hr =>
    ⟨hf.sharedScopes _ hr.1, hf.heldScopes r hr⟩
  have hactor : ∀ a, HeldActor st c a → HeldActor st' c a := fun a ha =>
    ⟨hf.sharedActors _ ha.1, hf.heldActors a ha⟩
  cases call with
  | updateScope id projectId dto =>
    cases phase with
    | foundScope existing => exact ⟨hscope existing h.1, h.2⟩
    | savingScope entity reread => exact ⟨hscope reread h.1, h.2⟩
    | _ => trivial
  | updateActor id projectId data =>
    cases phase with
    | foundActor existing => exact ⟨hactor existing h.1, h.2⟩
    | checked => exact hf.sharedActors id h
    | loaded existing => exact ⟨hactor existing h.1, h.2⟩
    | savingActor entity reread => exact ⟨hactor reread h.1, h.2⟩
    | _ => trivial
  | _ => trivial

/-! ## The invariant -/

structure Core (st : State) : Prop where
  bindsLive : ∀ c id projectId, Binds st c id projectId → LiveScope st.scopes.rows id projectId
  exclusive : ∀ c c' id projectId, Binds st c id projectId → ¬ Removes st c' id
  unbound : ∀ c id, Removes st c id → Unbound st.actors.rows id
  bound : Bound st.scopes.rows st.actors.rows

/-- A version keeps the scope in its project, and alive unless it is being removed. -/
def ScopeVersion (st : State) (e : Nat × AccessScope) : Prop :=
  ∀ r ∈ st.scopes.rows, r.accessScopeId = e.2.accessScopeId → r.projectId = e.2.projectId ∧
    (live r = true → live e.2 = true ∨ Removes st e.1 r.accessScopeId)

/-- A version binds its actor as its call says, or as the committed row does. -/
def ActorVersion (st : State) (e : Nat × ActorToken) : Prop :=
  live e.2 = true → ∀ id, e.2.accessScopeId = some id → Binds st e.1 id e.2.projectId ∨
    ∃ a ∈ st.actors.rows, a.actorTokenId = e.2.actorTokenId ∧ live a = true ∧
      a.accessScopeId = some id ∧ a.projectId = e.2.projectId

structure Inv (legacy : String → Option Int) (st : State) : Prop where
  core : Core st
  scopesLocked : st.scopes.WellLocked (·.accessScopeId)
  actorsLocked : st.actors.WellLocked (·.actorTokenId)
  scopeWriter : ∀ e ∈ st.scopes.pending, ∃ call, st.calls e.1 = some (call, .written)
  actorWriter : ∀ e ∈ st.actors.pending, ∃ call, st.calls e.1 = some (call, .written)
  scopeVersion : ∀ e ∈ st.scopes.pending, ScopeVersion st e
  actorVersion : ∀ e ∈ st.actors.pending, ActorVersion st e
  knows : ∀ c call phase, st.calls c = some (call, phase) → Knows legacy st c call phase

theorem Inv.init (legacy : String → Option Int) : Inv legacy State.init where
  core :=
    { bindsLive := fun _ _ _ ⟨_, _, hc, _⟩ => nomatch hc
      exclusive := fun _ _ _ _ ⟨_, _, hc, _⟩ => nomatch hc
      unbound := fun _ _ ⟨_, _, hc, _⟩ => nomatch hc
      bound := fun _ ha => nomatch ha }
  scopesLocked := .of_rows List.nodup_nil
  actorsLocked := .of_rows List.nodup_nil
  scopeWriter := fun _ he => nomatch he
  actorWriter := fun _ he => nomatch he
  scopeVersion := fun _ he => nomatch he
  actorVersion := fun _ he => nomatch he
  knows := fun _ _ _ hc => nomatch hc

/-! ## Steps that leave the committed rows alone -/

/-- Call `c` moves; the rows stay, and so does what the other calls hold. -/
structure Quiet (st st' : State) (c : Nat) (call : Call) (phase : Phase) : Prop where
  scopeRows : st'.scopes.rows = st.scopes.rows
  actorRows : st'.actors.rows = st.actors.rows
  calls : st'.calls = st.calls.move c call phase
  sharedScopes : ∀ l ∈ st.scopes.shared, l.2 ≠ c → l ∈ st'.scopes.shared
  sharedActors : ∀ l ∈ st.actors.shared, l.2 ≠ c → l ∈ st'.actors.shared

section Quiet

variable {st st' : State} {c : Nat} {call : Call} {phase : Phase} (hq : Quiet st st' c call phase)
include hq

theorem Quiet.frame {c' : Nat} (hne : c' ≠ c) : Frame st st' c' where
  sharedScopes := fun k hk => hq.sharedScopes (k, c') hk hne
  heldScopes := fun _ hr => hq.scopeRows ▸ hr.2
  sharedActors := fun k hk => hq.sharedActors (k, c') hk hne
  heldActors := fun _ ha => hq.actorRows ▸ ha.2

theorem Quiet.of_binds {c' : Nat} {id projectId : Uuid} (h : Binds st' c' id projectId) :
    (c' = c ∧ phase.isPast = true ∧ call.names = some (id, projectId)) ∨
      Binds st c' id projectId := by
  obtain ⟨call', phase', hc, hn, hp⟩ := h
  rw [hq.calls] at hc
  rcases Pool.of_move hc with ⟨rfl, rfl, rfl⟩ | ⟨_, hc⟩
  · exact .inl ⟨rfl, hp, hn⟩
  · exact .inr ⟨call', phase', hc, hn, hp⟩

theorem Quiet.of_removes {c' : Nat} {id : Uuid} (h : Removes st' c' id) :
    (c' = c ∧ phase.isPast = true ∧ call.removes = some id) ∨ Removes st c' id := by
  obtain ⟨call', phase', hc, hr, hp⟩ := h
  rw [hq.calls] at hc
  rcases Pool.of_move hc with ⟨rfl, rfl, rfl⟩ | ⟨_, hc⟩
  · exact .inl ⟨rfl, hp, hr⟩
  · exact .inr ⟨call', phase', hc, hr, hp⟩

theorem Quiet.binds {c' : Nat} (hne : c' ≠ c) {id projectId : Uuid}
    (h : Binds st c' id projectId) : Binds st' c' id projectId := by
  obtain ⟨call', phase', hc, hn⟩ := h
  exact ⟨call', phase', by rw [hq.calls, Pool.move_ne _ _ _ hne, hc], hn⟩

theorem Quiet.removes {c' : Nat} (hne : c' ≠ c) {id : Uuid} (h : Removes st c' id) :
    Removes st' c' id := by
  obtain ⟨call', phase', hc, hr⟩ := h
  exact ⟨call', phase', by rw [hq.calls, Pool.move_ne _ _ _ hne, hc], hr⟩

end Quiet

theorem removes_of_names {call : Call} {n : Uuid × Uuid} (h : call.names = some n) :
    call.removes = none := by
  cases call with
  | deleteScope now id projectId => cases h
  | _ => rfl

/-- Where a call comes to bind or to remove only on its own, the core is kept. -/
theorem core_of_quiet {st st' : State} (h : Core st) {c : Nat} {call : Call} {phase : Phase}
    (hq : Quiet st st' c call phase)
    (hbinds : phase.isPast = true → ∀ id projectId, call.names = some (id, projectId) →
      Binds st c id projectId ∨
        LiveScope st.scopes.rows id projectId ∧ ∀ c', ¬ Removes st c' id)
    (hremoves : phase.isPast = true → ∀ id, call.removes = some id → Removes st c id ∨
      Unbound st.actors.rows id ∧ ∀ c' projectId, ¬ Binds st c' id projectId) : Core st' := by
  have hb : ∀ c' id projectId, Binds st' c' id projectId → Binds st c' id projectId ∨
      (call.names = some (id, projectId) ∧ LiveScope st.scopes.rows id projectId ∧
        ∀ c', ¬ Removes st c' id) := by
    intro c' id projectId hb
    rcases hq.of_binds hb with ⟨rfl, hp, hn⟩ | hb
    · exact (hbinds hp id projectId hn).imp_right fun hnew => ⟨hn, hnew⟩
    · exact .inl hb
  have hr : ∀ c' id, Removes st' c' id → Removes st c' id ∨ (call.removes = some id ∧
      Unbound st.actors.rows id ∧ ∀ c' projectId, ¬ Binds st c' id projectId) := by
    intro c' id hr
    rcases hq.of_removes hr with ⟨rfl, hp, hn⟩ | hr
    · exact (hremoves hp id hn).imp_right fun hnew => ⟨hn, hnew⟩
    · exact .inl hr
  refine ⟨fun c' id projectId hbind => ?_, fun c' c'' id projectId hbind hremove => ?_,
    fun c' id hremove => ?_, ?_⟩
  · rw [hq.scopeRows]
    rcases hb c' id projectId hbind with hold | ⟨_, hlive, _⟩
    · exact h.bindsLive c' id projectId hold
    · exact hlive
  · rcases hb c' id projectId hbind with hold | ⟨hn, _, hnone⟩
    · rcases hr c'' id hremove with hold' | ⟨_, _, hnone'⟩
      · exact h.exclusive c' c'' id projectId hold hold'
      · exact hnone' c' projectId hold
    · rcases hr c'' id hremove with hold' | ⟨hn', _⟩
      · exact hnone c'' hold'
      · rw [removes_of_names hn] at hn'
        cases hn'
  · rw [hq.actorRows]
    rcases hr c' id hremove with hold | ⟨_, hunbound, _⟩
    · exact h.unbound c' id hold
    · exact hunbound
  · rw [hq.scopeRows, hq.actorRows]
    exact h.bound

theorem inv_of_quiet {legacy : String → Option Int} {st st' : State} (h : Inv legacy st) {c : Nat}
    {call : Call} {phase : Phase} (hq : Quiet st st' c call phase)
    (hcore : Core st') (hscopes : st'.scopes.WellLocked (·.accessScopeId))
    (hactors : st'.actors.WellLocked (·.actorTokenId))
    (hscope : ∀ e ∈ st'.scopes.pending, e ∈ st.scopes.pending ∧ e.1 ≠ c ∨
      e.1 = c ∧ phase = .written ∧ ScopeVersion st' e)
    (hactor : ∀ e ∈ st'.actors.pending, e ∈ st.actors.pending ∧ e.1 ≠ c ∨
      e.1 = c ∧ phase = .written ∧ ActorVersion st' e)
    (hknows : Knows legacy st' c call phase) : Inv legacy st' := by
  have hself : st'.calls c = some (call, phase) := by rw [hq.calls, Pool.move_self]
  have hother : ∀ c', c' ≠ c → st'.calls c' = st.calls c' := fun c' hne => by
    rw [hq.calls, Pool.move_ne _ _ _ hne]
  refine ⟨hcore, hscopes, hactors, fun e he => ?_, fun e he => ?_, fun e he => ?_, fun e he => ?_,
    fun c' call' phase' hc => ?_⟩
  · rcases hscope e he with ⟨he, hne⟩ | ⟨hc, hp, _⟩
    · obtain ⟨call', hc⟩ := h.scopeWriter e he
      exact ⟨call', (hother e.1 hne).trans hc⟩
    · exact ⟨call, by rw [hc, hself, hp]⟩
  · rcases hactor e he with ⟨he, hne⟩ | ⟨hc, hp, _⟩
    · obtain ⟨call', hc⟩ := h.actorWriter e he
      exact ⟨call', (hother e.1 hne).trans hc⟩
    · exact ⟨call, by rw [hc, hself, hp]⟩
  · rcases hscope e he with ⟨he, hne⟩ | ⟨_, _, hversion⟩
    · intro r hr hid
      rw [hq.scopeRows] at hr
      obtain ⟨hproject, hlive⟩ := h.scopeVersion e he r hr hid
      exact ⟨hproject, fun hl => (hlive hl).imp_right (hq.removes hne)⟩
    · exact hversion
  · rcases hactor e he with ⟨he, hne⟩ | ⟨_, _, hversion⟩
    · intro hl id hid
      rw [hq.actorRows]
      exact (h.actorVersion e he hl id hid).imp_left (hq.binds hne)
    · exact hversion
  · by_cases hne : c' = c
    · subst hne
      rw [hself] at hc
      cases hc
      exact hknows
    · rw [hother c' hne] at hc
      exact (h.knows c' call' phase' hc).frame (hq.frame hne)

/-! ## Each step -/

/-- The check of a bind finds the scope, the check of a delete no actor in it. -/
theorem of_passes {scopes : List AccessScope} {actors : List ActorToken} {call : Call}
    (h : passes scopes actors call = true) :
    (∀ id projectId, call.names = some (id, projectId) → LiveScope scopes id projectId) ∧
      ∀ id, call.removes = some id → Unbound actors id := by
  unfold passes at h
  rw [Bool.and_eq_true] at h
  refine ⟨fun id projectId hn => ?_, fun id hr a ha hl hid => ?_⟩
  · have hfound := h.1
    rw [hn] at hfound
    obtain ⟨r, hr⟩ := Option.isSome_iff_exists.1 hfound
    exact ⟨r, of_scopeById hr⟩
  · have hempty := h.2
    rw [hr] at hempty
    have hmem : a ∈ findAll actors fun a => decide (a.accessScopeId = some id) :=
      mem_findAll.2 ⟨ha, hl, decide_eq_true hid⟩
    rw [List.isEmpty_iff.1 hempty] at hmem
    cases hmem

theorem Knows.of_idle {legacy : String → Option Int} {st : State} {c : Nat} {call : Call}
    {phase : Phase} (h : phase.isIdle = true) : Knows legacy st c call phase := by
  cases phase with
  | begun => cases call <;> trivial
  | waiting id => cases call <;> trivial
  | unchanged => cases call <;> trivial
  | _ => cases h

theorem not_isPast_of_idle {phase : Phase} (h : phase.isIdle = true) : phase.isPast = false := by
  cases phase with
  | begun => rfl
  | waiting id => rfl
  | unchanged => rfl
  | _ => cases h

section Steps

variable {legacy : String → Option Int} {st st' : State} {c : Nat} {call : Call} {phase : Phase}

/-- A call that moves on past its check binds and removes what it did before. -/
theorem core_of_past (h : Core st) {from' : Phase} (hc : st.calls c = some (call, from'))
    (hp : from'.isPast = true) (hq : Quiet st st' c call phase) : Core st' :=
  core_of_quiet h hq (fun _ _ _ hn => .inl ⟨call, from', hc, hn, hp⟩)
    fun _ _ hr => .inl ⟨call, from', hc, hr, hp⟩

theorem core_of_not_past (h : Core st) (hp : phase.isPast = false)
    (hq : Quiet st st' c call phase) : Core st' := by
  refine core_of_quiet h hq (fun hpast => ?_) fun hpast => ?_
  · rw [hp] at hpast
    cases hpast
  · rw [hp] at hpast
    cases hpast

/-- A call that names no scope and removes none. -/
theorem core_of_neither (h : Core st) (hn : call.names = none) (hr : call.removes = none)
    (hq : Quiet st st' c call phase) : Core st' := by
  refine core_of_quiet h hq (fun _ id projectId hn' => ?_) fun _ id hr' => ?_
  · rw [hn] at hn'
    cases hn'
  · rw [hr] at hr'
    cases hr'

theorem Quiet.advance : Quiet st (st.advance c call phase) c call phase where
  scopeRows := rfl
  actorRows := rfl
  calls := rfl
  sharedScopes := fun _ h _ => h
  sharedActors := fun _ h _ => h

theorem Quiet.holdScope {r : AccessScope} :
    Quiet st (st.holdScope c call r) c call (.foundScope r) where
  scopeRows := rfl
  actorRows := rfl
  calls := rfl
  sharedScopes := fun _ h _ => List.mem_cons_of_mem _ h
  sharedActors := fun _ h _ => h

theorem Quiet.holdActor {a : ActorToken} :
    Quiet st (st.holdActor c call a) c call (.foundActor a) where
  scopeRows := rfl
  actorRows := rfl
  calls := rfl
  sharedScopes := fun _ h _ => h
  sharedActors := fun _ h _ => List.mem_cons_of_mem _ h

theorem Quiet.writeScope {r : AccessScope} : Quiet st (st.writeScope c call r) c call .written where
  scopeRows := rfl
  actorRows := rfl
  calls := rfl
  sharedScopes := fun _ h _ => h
  sharedActors := fun _ h _ => h

theorem Quiet.writeActor {a : ActorToken} : Quiet st (st.writeActor c call a) c call .written where
  scopeRows := rfl
  actorRows := rfl
  calls := rfl
  sharedScopes := fun _ h _ => h
  sharedActors := fun _ h _ => h

theorem Quiet.rollback : Quiet st (st.rollback c call) c call (.returned false) where
  scopeRows := rfl
  actorRows := rfl
  calls := rfl
  sharedScopes := fun _ h hne => Table.mem_shared_release.2 ⟨h, hne⟩
  sharedActors := fun _ h hne => Table.mem_shared_release.2 ⟨h, hne⟩

/-- A call that has not written has no version pending. -/
theorem Inv.not_pending (h : Inv legacy st)
    (hw : ∀ call' phase', st.calls c = some (call', phase') → phase' ≠ .written) :
    (∀ e ∈ st.scopes.pending, e.1 ≠ c) ∧ ∀ e ∈ st.actors.pending, e.1 ≠ c := by
  refine ⟨fun e he hec => ?_, fun e he hec => ?_⟩
  · obtain ⟨call', hc⟩ := h.scopeWriter e he
    exact hw call' .written (hec ▸ hc) rfl
  · obtain ⟨call', hc⟩ := h.actorWriter e he
    exact hw call' .written (hec ▸ hc) rfl

theorem inv_advance (h : Inv legacy st)
    (hw : ∀ call' phase', st.calls c = some (call', phase') → phase' ≠ .written)
    (hcore : Core (st.advance c call phase))
    (hknows : Knows legacy (st.advance c call phase) c call phase) :
    Inv legacy (st.advance c call phase) := by
  obtain ⟨hscope, hactor⟩ := h.not_pending hw
  exact inv_of_quiet h .advance hcore h.scopesLocked h.actorsLocked
    (fun e he => .inl ⟨he, hscope e he⟩) (fun e he => .inl ⟨he, hactor e he⟩) hknows

theorem inv_rollback (h : Inv legacy st) : Inv legacy (st.rollback c call) := by
  refine inv_of_quiet h .rollback (core_of_not_past h.core rfl .rollback) h.scopesLocked.release
    h.actorsLocked.release (fun e he => .inl (Table.mem_pending_release.1 he))
    (fun e he => .inl (Table.mem_pending_release.1 he)) ?_
  cases call <;> trivial

theorem inv_holdScope (h : Inv legacy st) {w id projectId : Uuid} {existing : AccessScope}
    (hc : st.calls c = some (call, .waiting w)) (hl : call.locks = .scope id projectId)
    (hlock : st.scopes.lockable (·.accessScopeId) c id = true)
    (hrow : scopeById st.scopes.rows id projectId = some existing) :
    Inv legacy (st.holdScope c call existing) := by
  obtain ⟨hm, _, hid, _⟩ := of_scopeById hrow
  obtain ⟨hscope, hactor⟩ := h.not_pending (Pool.phase_ne hc (by simp))
  refine inv_of_quiet h .holdScope (core_of_not_past h.core rfl .holdScope)
    (h.scopesLocked.share (hid ▸ hlock)) h.actorsLocked (fun e he => .inl ⟨he, hscope e he⟩)
    (fun e he => .inl ⟨he, hactor e he⟩) ?_
  cases call with
  | updateScope id' projectId' dto =>
    cases hl
    exact ⟨⟨List.mem_cons_self, hm⟩, hid⟩
  | _ => trivial

theorem inv_holdActor (h : Inv legacy st) {w id projectId : Uuid} {existing : ActorToken}
    (hc : st.calls c = some (call, .waiting w)) (hl : call.locks = .actor id projectId)
    (hlock : st.actors.lockable (·.actorTokenId) c id = true)
    (hrow : actorById st.actors.rows id projectId = some existing) :
    Inv legacy (st.holdActor c call existing) := by
  obtain ⟨hm, _, hid, _⟩ := of_actorById hrow
  obtain ⟨hscope, hactor⟩ := h.not_pending (Pool.phase_ne hc (by simp))
  refine inv_of_quiet h .holdActor (core_of_not_past h.core rfl .holdActor) h.scopesLocked
    (h.actorsLocked.share (hid ▸ hlock)) (fun e he => .inl ⟨he, hscope e he⟩)
    (fun e he => .inl ⟨he, hactor e he⟩) ?_
  cases call with
  | updateActor id' projectId' data =>
    cases hl
    exact ⟨⟨List.mem_cons_self, hm⟩, hid⟩
  | _ => trivial

theorem inv_pass (h : Inv legacy st) (hC : NoCrossing st (.check c))
    (hc : st.calls c = some (call, phase)) (hck : checksIn call phase = true)
    (hpass : passes st.scopes.rows st.actors.rows call = true) :
    Inv legacy (st.advance c call .checked) := by
  obtain ⟨hnone, hnone'⟩ := hC call phase hc hck hpass
  obtain ⟨hlive, hunbound⟩ := of_passes hpass
  have hw : phase ≠ .written := by
    rintro rfl
    cases call <;> cases hck
  refine inv_advance h (Pool.phase_ne hc hw) ?_ ?_
  · exact core_of_quiet h.core .advance
      (fun _ id projectId hn => .inr ⟨hlive id projectId hn, hnone id projectId hn⟩)
      fun _ id hr => .inr ⟨hunbound id hr, hnone' id hr⟩
  · cases call with
    | updateActor id projectId data =>
      cases phase with
      | foundActor existing =>
        obtain ⟨⟨hshared, _⟩, hid⟩ := h.knows c _ _ hc
        exact hid ▸ hshared
      | _ => cases hck
    | _ => trivial

theorem inv_load (h : Inv legacy st) {id projectId : Uuid} {data : ActorTokenPatchDto}
    {existing : ActorToken} (hc : st.calls c = some (.updateActor id projectId data, .checked))
    (hrow : actorById st.actors.rows id projectId = some existing) :
    Inv legacy (st.advance c (.updateActor id projectId data) (.loaded existing)) := by
  obtain ⟨hm, hl, hid, hproject⟩ := of_actorById hrow
  have hshared : (id, c) ∈ st.actors.shared := h.knows c _ _ hc
  refine inv_advance h (Pool.phase_ne hc (by simp))
    (core_of_past h.core hc rfl .advance) ?_
  exact ⟨⟨hid ▸ hshared, hm⟩, hid, hproject, hl⟩

theorem inv_rereadScope (h : Inv legacy st) {id projectId : Uuid} {dto : AccessScopePatchDto}
    {existing row : AccessScope}
    (hc : st.calls c = some (.updateScope id projectId dto, .foundScope existing))
    (hrow : scopeRow st.scopes.rows id = some row) :
    Inv legacy (st.advance c (.updateScope id projectId dto)
      (.savingScope (patchedScope dto existing) row)) := by
  obtain ⟨hheld, hid⟩ := h.knows c _ _ hc
  obtain ⟨hm, hid'⟩ := of_scopeRow hrow
  cases h.scopesLocked.rows.eq_of_key hheld.2 hm (hid.trans hid'.symm)
  refine inv_advance h (Pool.phase_ne hc (by simp))
    (core_of_neither h.core rfl rfl .advance) ?_
  exact ⟨hheld, hid, rfl⟩

theorem inv_rereadActor (h : Inv legacy st) {id projectId : Uuid} {data : ActorTokenPatchDto}
    {existing entity row : ActorToken}
    (hc : st.calls c = some (.updateActor id projectId data, .loaded existing))
    (hrow : actorRow st.actors.rows id = some row) (he : assign legacy data existing = .ok entity) :
    Inv legacy (st.advance c (.updateActor id projectId data) (.savingActor entity row)) := by
  obtain ⟨hheld, hid, hproject, hl⟩ := h.knows c _ _ hc
  obtain ⟨hm, hid'⟩ := of_actorRow hrow
  cases h.actorsLocked.rows.eq_of_key hheld.2 hm (hid.trans hid'.symm)
  refine inv_advance h (Pool.phase_ne hc (by simp))
    (core_of_past h.core hc rfl .advance) ?_
  exact ⟨hheld, hid, hproject, hl, he⟩

/-! ## Writes -/

theorem inv_writeScope (h : Inv legacy st) {version : AccessScope}
    (hw : ∀ call' phase', st.calls c = some (call', phase') → phase' ≠ .written)
    (hlock : st.scopes.writable (·.accessScopeId) c version.accessScopeId = true)
    (hcore : Core (st.writeScope c call version))
    (hversion : ScopeVersion (st.writeScope c call version) (c, version)) :
    Inv legacy (st.writeScope c call version) := by
  obtain ⟨hscope, hactor⟩ := h.not_pending hw
  refine inv_of_quiet h .writeScope hcore (h.scopesLocked.write hlock) h.actorsLocked
    (fun e he => ?_) (fun e he => .inl ⟨he, hactor e he⟩) ?_
  · rcases Table.mem_pending_write.1 he with rfl | ⟨he, _⟩
    · exact .inr ⟨rfl, rfl, hversion⟩
    · exact .inl ⟨he, hscope e he⟩
  · cases call <;> trivial

theorem inv_writeActor (h : Inv legacy st) {version : ActorToken}
    (hw : ∀ call' phase', st.calls c = some (call', phase') → phase' ≠ .written)
    (hlock : st.actors.writable (·.actorTokenId) c version.actorTokenId = true)
    (hcore : Core (st.writeActor c call version))
    (hversion : ActorVersion (st.writeActor c call version) (c, version)) :
    Inv legacy (st.writeActor c call version) := by
  obtain ⟨hscope, hactor⟩ := h.not_pending hw
  refine inv_of_quiet h .writeActor hcore h.scopesLocked (h.actorsLocked.write hlock)
    (fun e he => .inl ⟨he, hscope e he⟩) (fun e he => ?_) ?_
  · rcases Table.mem_pending_write.1 he with rfl | ⟨he, _⟩
    · exact .inr ⟨rfl, rfl, hversion⟩
    · exact .inl ⟨he, hactor e he⟩
  · cases call <;> trivial

theorem inv_insertScope (h : Inv legacy st) {id projectId : Uuid} {dto : AccessScopeCreateDto}
    (hc : st.calls c = some (.createScope id projectId dto, .checked))
    (hlock : st.scopes.writable (·.accessScopeId) c id = true)
    (hfresh : scopeRow st.scopes.rows id = none) :
    Inv legacy (st.writeScope c (.createScope id projectId dto) (newScope id projectId dto)) := by
  refine inv_writeScope h (Pool.phase_ne hc (by simp)) hlock
    (core_of_neither h.core rfl rfl .writeScope) fun r hr hid => ?_
  exact absurd (decide_eq_true hid) (List.find?_eq_none.1 hfresh r hr)

/-- The row saved is the row locked, so the UPDATE writes what the patch asks for and no more. -/
theorem inv_saveScope (h : Inv legacy st) {id projectId : Uuid} {dto : AccessScopePatchDto}
    {entity reread row : AccessScope}
    (hc : st.calls c = some (.updateScope id projectId dto, .savingScope entity reread))
    (hlock : st.scopes.writable (·.accessScopeId) c id = true)
    (hrow : scopeRow st.scopes.rows id = some row) :
    Inv legacy
      (st.writeScope c (.updateScope id projectId dto) (writeBackScope entity reread row)) := by
  obtain ⟨hheld, hid, rfl⟩ := h.knows c _ _ hc
  obtain ⟨hm, hid'⟩ := of_scopeRow hrow
  cases h.scopesLocked.rows.eq_of_key hheld.2 hm (hid.trans hid'.symm)
  rw [writeBackScope_self]
  refine inv_writeScope h (Pool.phase_ne hc (by simp)) ?_
    (core_of_neither h.core rfl rfl .writeScope) fun r hr hk => ?_
  · exact hid.symm ▸ hlock
  · cases h.scopesLocked.rows.eq_of_key hr hm hk
    exact ⟨rfl, fun hl => .inl hl⟩

theorem inv_removeScope (h : Inv legacy st) {now : Int} {id projectId : Uuid} {row : AccessScope}
    (hc : st.calls c = some (.deleteScope now id projectId, .checked))
    (hlock : st.scopes.writable (·.accessScopeId) c id = true)
    (hrow : scopeById st.scopes.rows id projectId = some row) :
    Inv legacy
      (st.writeScope c (.deleteScope now id projectId) { row with deletedAt := some now }) := by
  obtain ⟨hm, _, hid, _⟩ := of_scopeById hrow
  refine inv_writeScope h (Pool.phase_ne hc (by simp)) ?_
    (core_of_past h.core hc rfl .writeScope) fun r hr hk => ?_
  · exact hid.symm ▸ hlock
  · cases h.scopesLocked.rows.eq_of_key hr hm hk
    refine ⟨rfl, fun _ => .inr ⟨_, .written, Pool.move_self .., ?_, rfl⟩⟩
    exact congrArg some hid.symm

theorem inv_insertActor (h : Inv legacy st) {crypto : Crypto} {id projectId : Uuid}
    {random : CredentialBytes} {data : ActorTokenCreateDto} {expiresAt : Option Int}
    (hc : st.calls c = some (.createActor id random projectId data, .checked))
    (hlock : st.actors.writable (·.actorTokenId) c id = true) :
    Inv legacy (st.writeActor c (.createActor id random projectId data)
      (newActor crypto id random projectId data expiresAt)) := by
  refine inv_writeActor h (Pool.phase_ne hc (by simp)) hlock
    (core_of_past h.core hc rfl .writeActor) fun _ scope hscope => .inl ?_
  have hdata : data.accessScopeId = some scope := hscope
  exact ⟨_, .written, Pool.move_self .., by simp [Call.names, hdata, newActor], rfl⟩

/-- A patch that names no scope leaves the actor where the row has it. -/
theorem inv_saveActor (h : Inv legacy st) {id projectId : Uuid} {data : ActorTokenPatchDto}
    {entity reread row : ActorToken}
    (hc : st.calls c = some (.updateActor id projectId data, .savingActor entity reread))
    (hlock : st.actors.writable (·.actorTokenId) c id = true)
    (hrow : actorRow st.actors.rows id = some row) :
    Inv legacy
      (st.writeActor c (.updateActor id projectId data) (writeBackActor entity reread row)) := by
  obtain ⟨hheld, hid, hproject, hl, he⟩ := h.knows c _ _ hc
  obtain ⟨hm, hid'⟩ := of_actorRow hrow
  cases h.actorsLocked.rows.eq_of_key hheld.2 hm (hid.trans hid'.symm)
  rw [writeBackActor_self he]
  obtain ⟨hkey, hhome, hscope⟩ : entity.actorTokenId = reread.actorTokenId ∧
      entity.projectId = reread.projectId ∧
      entity.accessScopeId = patch data.accessScopeId reread.accessScopeId := by
    unfold assign at he
    split at he <;> cases he
    exact ⟨rfl, rfl, rfl⟩
  refine inv_writeActor h (Pool.phase_ne hc (by simp)) ?_
    (core_of_past h.core hc rfl .writeActor) fun _ scope hnamed => ?_
  · exact (hkey.trans hid).symm ▸ hlock
  · have hnamed : patch data.accessScopeId reread.accessScopeId = some scope :=
      hscope.symm.trans hnamed
    cases hd : data.accessScopeId with
    | none =>
      rw [hd] at hnamed
      exact .inr ⟨reread, hm, hkey.symm, hl, hnamed, hhome.symm⟩
    | some named =>
      rw [hd] at hnamed
      have hnamed : named = some scope := hnamed
      refine .inl ⟨_, .written, Pool.move_self .., ?_, rfl⟩
      simp [Call.names, hd, hnamed, hhome, hproject]

theorem inv_removeActor (h : Inv legacy st) {now : Int} {id projectId : Uuid}
    {existing row : ActorToken}
    (hc : st.calls c = some (.deleteActor now id projectId, .foundActor existing))
    (hlock : st.actors.writable (·.actorTokenId) c id = true)
    (hrow : actorById st.actors.rows id projectId = some row) :
    Inv legacy
      (st.writeActor c (.deleteActor now id projectId) { row with deletedAt := some now }) := by
  obtain ⟨_, _, hid, _⟩ := of_actorById hrow
  refine inv_writeActor h (Pool.phase_ne hc (by simp)) ?_
    (core_of_neither h.core rfl rfl .writeActor) fun hl => nomatch hl
  exact hid.symm ▸ hlock

/-! ## Commits -/

theorem calls_of_commit {c' : Nat} {call' : Call} {phase' : Phase}
    (hc : (st.commit c call).calls c' = some (call', phase')) (hp : phase' ≠ .returned true) :
    c' ≠ c ∧ st.calls c' = some (call', phase') :=
  Pool.of_move_ne hc hp

theorem binds_of_commit {c' : Nat} {id projectId : Uuid}
    (h : Binds (st.commit c call) c' id projectId) : c' ≠ c ∧ Binds st c' id projectId := by
  obtain ⟨call', phase', hc, hn, hp⟩ := h
  have hphase : phase' ≠ .returned true := by
    rintro rfl
    cases hp
  obtain ⟨hne, hc⟩ := calls_of_commit hc hphase
  exact ⟨hne, call', phase', hc, hn, hp⟩

theorem removes_of_commit {c' : Nat} {id : Uuid} (h : Removes (st.commit c call) c' id) :
    c' ≠ c ∧ Removes st c' id := by
  obtain ⟨call', phase', hc, hr, hp⟩ := h
  have hphase : phase' ≠ .returned true := by
    rintro rfl
    cases hp
  obtain ⟨hne, hc⟩ := calls_of_commit hc hphase
  exact ⟨hne, call', phase', hc, hr, hp⟩

section Commit

variable (h : Inv legacy st)
include h

theorem mem_scopes_commit {r : AccessScope} : r ∈ (st.commit c call).scopes.rows ↔
    (c, r) ∈ st.scopes.pending ∨ r ∈ st.scopes.rows ∧
      ∀ v, (c, v) ∈ st.scopes.pending → v.accessScopeId ≠ r.accessScopeId :=
  Table.mem_rows_commit h.scopesLocked

theorem mem_actors_commit {a : ActorToken} : a ∈ (st.commit c call).actors.rows ↔
    (c, a) ∈ st.actors.pending ∨ a ∈ st.actors.rows ∧
      ∀ v, (c, v) ∈ st.actors.pending → v.actorTokenId ≠ a.actorTokenId :=
  Table.mem_rows_commit h.actorsLocked

/-- A live scope survives the commit of a call that does not remove it. -/
theorem liveScope_commit {id projectId : Uuid} (hl : LiveScope st.scopes.rows id projectId)
    (hr : ¬ Removes st c id) : LiveScope (st.commit c call).scopes.rows id projectId := by
  obtain ⟨r, hm, hlive, rfl, rfl⟩ := hl
  by_cases hv : ∃ v, (c, v) ∈ st.scopes.pending ∧ v.accessScopeId = r.accessScopeId
  · obtain ⟨v, hpending, hid⟩ := hv
    obtain ⟨hproject, hkeeps⟩ := h.scopeVersion (c, v) hpending r hm hid.symm
    have hlive' : live v = true := (hkeeps hlive).resolve_right hr
    exact ⟨v, (mem_scopes_commit h).2 (.inl hpending), hlive', hid, hproject.symm⟩
  · refine ⟨r, (mem_scopes_commit h).2 (.inr ⟨hm, fun v hpending hid => ?_⟩), hlive, rfl, rfl⟩
    exact hv ⟨v, hpending, hid⟩

/-- A live actor bound after a commit was bound by that call, or was so before. -/
theorem bound_of_commit {a : ActorToken} (ha : a ∈ (st.commit c call).actors.rows)
    (hl : live a = true) {id : Uuid} (hid : a.accessScopeId = some id) :
    Binds st c id a.projectId ∨ ∃ a₀ ∈ st.actors.rows, live a₀ = true ∧
      a₀.accessScopeId = some id ∧ a₀.projectId = a.projectId := by
  rcases (mem_actors_commit h).1 ha with hpending | ⟨hm, _⟩
  · refine (h.actorVersion (c, a) hpending hl id hid).imp_right ?_
    rintro ⟨a₀, hm, _, hl₀, hid₀, hproject⟩
    exact ⟨a₀, hm, hl₀, hid₀, hproject⟩
  · exact .inr ⟨a, hm, hl, hid, rfl⟩

theorem core_commit : Core (st.commit c call) := by
  have hcore := h.core
  refine ⟨fun c' id projectId hb => ?_, fun c₁ c₂ id projectId hb hr => ?_,
    fun c' id hr a ha hl hid => ?_, fun a ha hl id hid => ?_⟩
  · obtain ⟨_, hb⟩ := binds_of_commit hb
    have hkeeps : ¬ Removes st c id := hcore.exclusive c' c id projectId hb
    exact liveScope_commit h (hcore.bindsLive c' id projectId hb) hkeeps
  · exact hcore.exclusive c₁ c₂ id projectId (binds_of_commit hb).2 (removes_of_commit hr).2
  · obtain ⟨_, hr⟩ := removes_of_commit hr
    rcases bound_of_commit h ha hl hid with hb | ⟨a₀, hm, hl₀, hid₀, _⟩
    · exact hcore.exclusive c c' id a.projectId hb hr
    · exact hcore.unbound c' id hr a₀ hm hl₀ hid₀
  · rcases bound_of_commit h ha hl hid with hb | ⟨a₀, hm, hl₀, hid₀, hproject⟩
    · exact liveScope_commit h (hcore.bindsLive c id a.projectId hb)
        (hcore.exclusive c c id a.projectId hb)
    · have hscope : LiveScope st.scopes.rows id a.projectId :=
        hproject ▸ hcore.bound a₀ hm hl₀ id hid₀
      exact liveScope_commit h hscope fun hr => hcore.unbound c id hr a₀ hm hl₀ hid₀

theorem frame_commit {c' : Nat} (hne : c' ≠ c) : Frame st (st.commit c call) c' where
  sharedScopes := fun _ hs => Table.mem_shared_release.2 ⟨hs, hne⟩
  heldScopes := fun _ hr =>
    (Table.mem_rows_commit_of_shared h.scopesLocked hr.1 hne.symm rfl).2 hr.2
  sharedActors := fun _ hs => Table.mem_shared_release.2 ⟨hs, hne⟩
  heldActors := fun _ ha =>
    (Table.mem_rows_commit_of_shared h.actorsLocked ha.1 hne.symm rfl).2 ha.2

theorem inv_commit : Inv legacy (st.commit c call) := by
  have hcalls : ∀ c', c' ≠ c → (st.commit c call).calls c' = st.calls c' :=
    fun c' hne => Pool.move_ne _ _ _ hne
  refine ⟨core_commit h, h.scopesLocked.commit, h.actorsLocked.commit, fun e he => ?_, fun e he => ?_,
    fun e he r hr hid => ?_, fun e he hl id hid => ?_, fun c' call' phase' hc => ?_⟩
  · obtain ⟨he, hne⟩ := Table.mem_pending_release.1 he
    obtain ⟨call', hc⟩ := h.scopeWriter e he
    exact ⟨call', (hcalls e.1 hne).trans hc⟩
  · obtain ⟨he, hne⟩ := Table.mem_pending_release.1 he
    obtain ⟨call', hc⟩ := h.actorWriter e he
    exact ⟨call', (hcalls e.1 hne).trans hc⟩
  · obtain ⟨he, hne⟩ := Table.mem_pending_release.1 he
    rcases (mem_scopes_commit h).1 hr with hm | ⟨hr, _⟩
    · have hsame := h.scopesLocked.pending.eq_of_key hm he hid
      exact absurd (congrArg Prod.fst hsame).symm hne
    · obtain ⟨hproject, hkeeps⟩ := h.scopeVersion e he r hr hid
      refine ⟨hproject, fun hl => (hkeeps hl).imp_right ?_⟩
      rintro ⟨call', phase', hc, hremove⟩
      exact ⟨call', phase', (hcalls e.1 hne).trans hc, hremove⟩
  · obtain ⟨he, hne⟩ := Table.mem_pending_release.1 he
    rcases h.actorVersion e he hl id hid with ⟨call', phase', hc, hbind⟩ | ⟨a, ha, hkey, hrow⟩
    · exact .inl ⟨call', phase', (hcalls e.1 hne).trans hc, hbind⟩
    · refine .inr ⟨a, (mem_actors_commit h).2 (.inr ⟨ha, fun v hv hk => ?_⟩), hkey, hrow⟩
      have hsame := h.actorsLocked.pending.eq_of_key hv he (hk.trans hkey)
      exact hne (congrArg Prod.fst hsame).symm
  · by_cases hne : c' = c
    · subst hne
      have hself : (st.commit c' call).calls c' = some (call, .returned true) :=
        Pool.move_self st.calls c' call (.returned true)
      rw [hself] at hc
      cases hc
      cases call <;> trivial
    · rw [hcalls c' hne] at hc
      exact (h.knows c' call' phase' hc).frame (frame_commit h hne)

end Commit

/-! ## Every run -/

theorem inv_step {crypto : Crypto} {l : Statement} (h : Inv legacy st) (hC : NoCrossing st l)
    (hs : Steps legacy crypto st l st') : Inv legacy st' := by
  cases hs with
  | settle hc hi =>
    exact inv_advance h hc (core_of_not_past h.core (not_isPast_of_idle hi) .advance) (.of_idle hi)
  | fail hc => exact inv_rollback h
  | slugFree hc hp =>
    exact inv_advance h (Pool.phase_ne hc hp)
      (core_of_neither h.core rfl rfl .advance) trivial
  | holdScope hc hl hlock hrow => exact inv_holdScope h hc hl hlock hrow
  | holdActor hc hl hlock hrow => exact inv_holdActor h hc hl hlock hrow
  | pass hc hck hpass => exact inv_pass h hC hc hck hpass
  | load hc hrow => exact inv_load h hc hrow
  | rereadScope hc hrow => exact inv_rereadScope h hc hrow
  | rereadActor hc hrow he => exact inv_rereadActor h hc hrow he
  | insertScope hc hlock hfresh => exact inv_insertScope h hc hlock hfresh
  | saveScope hc hlock hrow => exact inv_saveScope h hc hlock hrow
  | removeScope hc hlock hrow => exact inv_removeScope h hc hlock hrow
  | insertActor hc hlock hfresh => exact inv_insertActor h hc hlock
  | saveActor hc hlock hrow => exact inv_saveActor h hc hlock hrow
  | removeActor hc hlock hrow => exact inv_removeActor h hc hlock hrow
  | commit hc => exact inv_commit h

end Steps

/-- In every run in which no bind and no delete of one scope cross, every committed live actor with a
scope names a live scope of its own project. -/
theorem bound_without_crossing (legacy : String → Option Int) (crypto : Crypto)
    (run : List Statement) (st : State) (hrun : exec (step legacy crypto) State.init run = some st)
    (hC : Meets (step legacy crypto) NoCrossing State.init run) :
    Bound st.scopes.rows st.actors.rows :=
  (exec_invariant (fun _ _ _ h hC hs => inv_step h hC (of_step hs)) run _ st (.init legacy) hC
    hrun).core.bound

/-! ## A check between the count and the commit -/

def vehicle : AccessScopeCreateDto where
  slug := "vehicle"
  name := "Vehicle"

def driver : ActorTokenCreateDto where
  name := "Driver"
  actorType := .device
  accessScopeId := some (.of "s")

/-- A bind checks the scope after a delete has counted and before it commits. -/
def crossedDelete : List Statement :=
  [.begin 0 (.createScope (.of "s") (.of "p") vehicle), .select 0, .write 0, .commit 0,
   .begin 1 (.deleteScope 5 (.of "s") (.of "p")),
   .begin 2 (.createActor (.of "a") sampleBytes (.of "p") driver),
   .select 1, .acquire 1, .check 1, .check 2, .write 1, .commit 1, .write 2, .commit 2]

theorem crossed_delete_orphans : ∃ st,
    exec (step (fun _ => none) sampleCrypto) State.init crossedDelete = some st ∧
      (st.calls 1).map Prod.snd = some (.returned true) ∧
      (st.calls 2).map Prod.snd = some (.returned true) ∧
      ¬ Bound st.scopes.rows st.actors.rows := by
  refine ⟨_, rfl, rfl, rfl, fun h => ?_⟩
  obtain ⟨r, hr, hl, -⟩ := h (newActor sampleCrypto (.of "a") sampleBytes (.of "p") driver none)
    List.mem_cons_self rfl (.of "s") rfl
  cases List.mem_singleton.1 hr
  cases hl

/-- One after the other, the delete finds the actor and is refused. -/
def serialDelete : List Statement :=
  [.begin 0 (.createScope (.of "s") (.of "p") vehicle), .select 0, .write 0, .commit 0,
   .begin 2 (.createActor (.of "a") sampleBytes (.of "p") driver), .check 2, .write 2, .commit 2,
   .begin 1 (.deleteScope 5 (.of "s") (.of "p")), .select 1, .acquire 1, .check 1]

theorem bound_without_crossing_serial : ∃ st,
    exec (step (fun _ => none) sampleCrypto) State.init serialDelete = some st ∧
      Bound st.scopes.rows st.actors.rows := by
  refine ⟨_, rfl, bound_without_crossing (fun _ => none) sampleCrypto serialDelete _ rfl ?_⟩
  refine .cons trivial rfl (.cons trivial rfl (.cons trivial rfl (.cons trivial rfl
    (.cons trivial rfl (.cons ?_ rfl (.cons trivial rfl (.cons trivial rfl (.cons trivial rfl
      (.cons trivial rfl (.cons trivial rfl (.cons ?_ rfl trivial)))))))))))
  · -- no delete has begun
    intro _ _ hc _ _
    cases hc
    refine ⟨fun id projectId _ c' hr => ?_, fun id hr => nomatch hr⟩
    obtain ⟨call, phase, hc, hr, -⟩ := hr
    rcases c' with _ | _ | _ | c'
    · cases hc
      cases hr
    · cases hc
    · cases hc
      cases hr
    · cases hc
  · -- the count finds the actor
    intro _ _ hc _ hpass
    cases hc
    cases hpass

end ScopeBinding
end NolagCore
