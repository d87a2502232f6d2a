import NolagCore.Authz.SubscriptionInterleaving

/-!
# Authz.SubscriptionSerial

Runs in which a call inserts a state row only where the actor has none and no other insert is
pending. The lock then serialises every other call: the actor has at most one live row, and its
topics are those of the committed calls, executed in the order of their commits.
-/

namespace NolagCore
namespace Authz
namespace Subscriptions

open Lib

/-- A call that found no row writes one only while the actor has none, and alone. -/
def InsertsAlone (actorTokenId : Uuid) (st : StateTable) : Statement → Prop
  | .write c _ _ => ∀ dto, st.calls c = some (dto, .found none) →
    ownRows actorTokenId st.rows = [] ∧ ∀ c' dto' row, st.calls c' ≠ some (dto', .written row true)
  | _ => True

def committed : Phase → Bool
  | .returned => true
  | _ => false

/-- A call that goes by what it has read of the row. -/
def engaged : Phase → Bool
  | .found (some _) => true
  | .written _ _ => true
  | _ => false

/-- What a phase of call `c` says of the table and of the locks. -/
def PhaseInv (actorTokenId : Uuid) (rows : List ActorTokenState) (locks : Uuid → Option Nat)
    (c : Nat) (dto : SubscriptionUpdate) : Phase → Prop
  | .found (some state) =>
    state ∈ ownRows actorTokenId rows ∧ locks state.actorTokenStateId = some c
  | .written row false => ∃ now state, row = updatedState dto now state ∧
    state ∈ ownRows actorTokenId rows ∧ locks state.actorTokenStateId = some c
  | .written row true => ownRows actorTokenId rows = [] ∧
    ∃ now id, row = updatedState dto now (newState actorTokenId id)
  | _ => True

structure Inv (actorTokenId : Uuid) (rows₀ : List ActorTokenState) (st : StateTable) : Prop where
  unique : UniqueOn (·.actorTokenStateId) st.rows
  one : (ownRows actorTokenId st.rows).length ≤ 1
  serial : ∃ order, st.calls.Lists committed order ∧
    topicsOf actorTokenId st.rows = foldCalls applyUpdate (topicsOf actorTokenId rows₀) order
  phases : ∀ c dto phase, st.calls c = some (dto, phase) →
    PhaseInv actorTokenId st.rows st.locks c dto phase
  /-- At most one insert is pending. -/
  alone : ∀ c dto row c' dto' row', st.calls c = some (dto, .written row true) →
    st.calls c' = some (dto', .written row' true) → c' = c

section

variable {actorTokenId : Uuid} {rows₀ : List ActorTokenState}

theorem phaseInv_of_idle {rows : List ActorTokenState} {locks : Uuid → Option Nat} {c : Nat}
    {dto : SubscriptionUpdate} {phase : Phase} (h : engaged phase = false) :
    PhaseInv actorTokenId rows locks c dto phase := by
  unfold engaged at h
  split at h
  · cases h
  · cases h
  · rename_i hfound hwritten
    unfold PhaseInv
    split
    · exact absurd rfl (hfound _)
    · exact absurd rfl (hwritten _ _)
    · exact absurd rfl (hwritten _ _)
    · trivial

/-- An engaged call either has the lock on the actor's row or has seen that there is none. -/
theorem PhaseInv.of_engaged {rows : List ActorTokenState} {locks : Uuid → Option Nat} {c : Nat}
    {dto : SubscriptionUpdate} {phase : Phase} (h : PhaseInv actorTokenId rows locks c dto phase)
    (he : engaged phase = true) :
    (∃ state ∈ ownRows actorTokenId rows, locks state.actorTokenStateId = some c) ∨
      ownRows actorTokenId rows = [] ∧ ∃ row, phase = .written row true := by
  unfold PhaseInv at h
  split at h
  · rename_i state
    exact .inl ⟨state, h⟩
  · obtain ⟨-, state, -, hmem, hlock⟩ := h
    exact .inl ⟨state, hmem, hlock⟩
  · rename_i row
    exact .inr ⟨h.1, row, rfl⟩
  · rename_i hfound hupdated hinserted
    unfold engaged at he
    split at he
    · exact absurd rfl (hfound _)
    · rename_i row inserted
      cases inserted
      · exact absurd rfl (hupdated _)
      · exact absurd rfl (hinserted _)
    · cases he

theorem inv_init (hunique : UniqueOn (·.actorTokenStateId) rows₀)
    (hone : (ownRows actorTokenId rows₀).length ≤ 1) :
    Inv actorTokenId rows₀ (StateTable.init rows₀) where
  unique := hunique
  one := hone
  serial := ⟨[], Pool.Lists.nil, rfl⟩
  phases := by intro c dto phase h; cases h
  alone := by intro c dto row c' dto' row' h; cases h

/-- A statement that leaves the table as it is, and the locks other calls go by. -/
theorem Inv.move {st : StateTable} (h : Inv actorTokenId rows₀ st) {c : Nat}
    {dto : SubscriptionUpdate} {phase : Phase} {locks : Uuid → Option Nat}
    (hbefore : ∀ dto' phase', st.calls c = some (dto', phase') → committed phase' = false)
    (hafter : committed phase = false)
    (hlocks : ∀ id c', c' ≠ c → st.locks id = some c' → locks id = some c')
    (hphase : PhaseInv actorTokenId st.rows locks c dto phase)
    (halone : ∀ row, phase = .written row true →
      ∀ c' dto' row', st.calls c' ≠ some (dto', .written row' true)) :
    Inv actorTokenId rows₀
      { rows := st.rows, locks := locks, calls := st.calls.move c dto phase } where
  unique := h.unique
  one := h.one
  serial := by
    obtain ⟨order, hlists, htopics⟩ := h.serial
    exact ⟨order, hlists.stay (.inr ⟨hbefore, hafter⟩), htopics⟩
  phases := by
    intro c' dto' phase' hc'
    rcases Pool.of_move hc' with ⟨rfl, rfl, rfl⟩ | ⟨hne, hold⟩
    · exact hphase
    · have hinv := h.phases c' dto' phase' hold
      unfold PhaseInv at hinv ⊢
      split at hinv
      · exact ⟨hinv.1, hlocks _ c' hne hinv.2⟩
      · obtain ⟨now, state, hrow, hmem, hlock⟩ := hinv
        exact ⟨now, state, hrow, hmem, hlocks _ c' hne hlock⟩
      · exact hinv
      · trivial
  alone := by
    intro c₁ dto₁ row₁ c₂ dto₂ row₂ h₁ h₂
    rcases Pool.of_move h₁ with ⟨rfl, rfl, heq₁⟩ | ⟨hne₁, hold₁⟩
    · rcases Pool.of_move h₂ with ⟨rfl, -, -⟩ | ⟨-, hold₂⟩
      · rfl
      · exact absurd hold₂ (halone row₁ heq₁.symm c₂ dto₂ row₂)
    · rcases Pool.of_move h₂ with ⟨rfl, rfl, heq₂⟩ | ⟨-, hold₂⟩
      · exact absurd hold₁ (halone row₂ heq₂.symm c₁ dto₁ row₁)
      · exact h.alone c₁ dto₁ row₁ c₂ dto₂ row₂ hold₁ hold₂

/-- The locks a SELECT takes were free. -/
theorem acquired_of_held {c c' : Nat} {ids : List Uuid} {rows : List ActorTokenState}
    {locks : Uuid → Option Nat} (hfree : ∀ id ∈ ids, locks id = none) {id : Uuid}
    (hheld : locks id = some c') :
    acquired c (reread actorTokenId ids rows) locks id = some c' := by
  unfold acquired
  split
  · rename_i hany
    obtain ⟨r, hr, heq⟩ := List.any_eq_true.1 hany
    have hid : r.actorTokenStateId = id := of_decide_eq_true heq
    have hmem : r.actorTokenStateId ∈ ids := of_decide_eq_true (List.mem_filter.1 hr).2
    rw [hid] at hmem
    rw [hfree id hmem] at hheld
    cases hheld
  · exact hheld

/-- What a SELECT has returned is a row of the actor, locked. -/
theorem phaseInv_reread (c : Nat) (dto : SubscriptionUpdate) (ids : List Uuid)
    (rows : List ActorTokenState) (locks : Uuid → Option Nat) :
    PhaseInv actorTokenId rows (acquired c (reread actorTokenId ids rows) locks) c dto
      (.found (reread actorTokenId ids rows).head?) := by
  cases hhead : (reread actorTokenId ids rows).head? with
  | none => trivial
  | some state =>
    have hmem : state ∈ reread actorTokenId ids rows := List.mem_of_head? hhead
    refine ⟨(List.mem_filter.1 hmem).1, if_pos ?_⟩
    exact List.any_eq_true.2 ⟨state, hmem, decide_eq_true rfl⟩

/-- A call commits while no other is engaged. -/
theorem Inv.commit {st : StateTable} (h : Inv actorTokenId rows₀ st) {c : Nat}
    {dto : SubscriptionUpdate} {phase : Phase} {row : ActorTokenState}
    {rows : List ActorTokenState} {locks : Uuid → Option Nat}
    (hc : st.calls c = some (dto, phase)) (hbefore : committed phase = false)
    (hunique : UniqueOn (·.actorTokenStateId) rows) (hown : ownRows actorTokenId rows = [row])
    (hrow : topicsOfState row.connectionState = applyUpdate dto (topicsOf actorTokenId st.rows))
    (hothers : ∀ c' dto' phase', c' ≠ c → st.calls c' = some (dto', phase') →
      engaged phase' = false) :
    Inv actorTokenId rows₀
      { rows := rows, locks := locks, calls := st.calls.move c dto .returned } where
  unique := hunique
  one := by
    show (ownRows actorTokenId rows).length ≤ 1
    rw [hown, List.length_singleton]
  serial := by
    obtain ⟨order, hlists, htopics⟩ := h.serial
    refine ⟨order ++ [(c, dto)], hlists.append (Pool.phase_of hc hbefore) rfl, ?_⟩
    have hnew : topicsOf actorTokenId rows = topicsOfState row.connectionState := by
      rw [topicsOf, hown]
      rfl
    rw [foldCalls_append, ← htopics]
    exact hnew.trans hrow
  phases := by
    intro c' dto' phase' hc'
    rcases Pool.of_move hc' with ⟨-, -, rfl⟩ | ⟨hne, hold⟩
    · trivial
    · exact phaseInv_of_idle (hothers c' dto' phase' hne hold)
  alone := by
    intro c₁ dto₁ row₁ c₂ dto₂ row₂ h₁ h₂
    obtain ⟨hne, hold⟩ := Pool.of_move_ne h₁ nofun
    cases hothers c₁ dto₁ _ hne hold

/-- Beside the holder of the lock no call is engaged. -/
theorem Inv.idle_of_lock {st : StateTable} (h : Inv actorTokenId rows₀ st) {c : Nat}
    {state : ActorTokenState} (hown : ownRows actorTokenId st.rows = [state])
    (hlock : st.locks state.actorTokenStateId = some c) {c' : Nat} {dto' : SubscriptionUpdate}
    {phase' : Phase} (hne : c' ≠ c) (hc' : st.calls c' = some (dto', phase')) :
    engaged phase' = false := by
  by_contra he
  rcases (h.phases c' dto' phase' hc').of_engaged (Bool.of_not_eq_false he) with
    ⟨state', hmem, hlock'⟩ | ⟨hnone, -⟩
  · rw [hown] at hmem
    cases List.mem_singleton.1 hmem
    rw [hlock] at hlock'
    cases hlock'
    exact hne rfl
  · rw [hown] at hnone
    cases hnone

/-- Beside a pending insert no call is engaged. -/
theorem Inv.idle_of_insert {st : StateTable} (h : Inv actorTokenId rows₀ st) {c : Nat}
    {dto : SubscriptionUpdate} {row : ActorTokenState}
    (hc : st.calls c = some (dto, .written row true)) {c' : Nat} {dto' : SubscriptionUpdate}
    {phase' : Phase} (hne : c' ≠ c) (hc' : st.calls c' = some (dto', phase')) :
    engaged phase' = false := by
  by_contra he
  have hnone : ownRows actorTokenId st.rows = [] := (h.phases c dto _ hc).1
  rcases (h.phases c' dto' phase' hc').of_engaged (Bool.of_not_eq_false he) with
    ⟨state', hmem, -⟩ | ⟨-, row', rfl⟩
  · rw [hnone] at hmem
    cases hmem
  · exact hne (h.alone c dto row c' dto' row' hc hc')

theorem Inv.commitUpdate {st : StateTable} (h : Inv actorTokenId rows₀ st) {c : Nat}
    {dto : SubscriptionUpdate} {row : ActorTokenState}
    (hc : st.calls c = some (dto, .written row false)) :
    Inv actorTokenId rows₀
      { rows := saveRow (·.actorTokenStateId) row st.rows
        locks := released c st.locks
        calls := st.calls.move c dto .returned } := by
  obtain ⟨now, state, rfl, hmem, hlock⟩ := h.phases c dto _ hc
  have hown : ownRows actorTokenId st.rows = [state] := by
    obtain ⟨state', heq⟩ := List.length_eq_one_iff.1
      (Nat.le_antisymm h.one (List.length_pos_of_mem hmem))
    rw [heq] at hmem ⊢
    rw [List.mem_singleton.1 hmem]
  obtain ⟨-, hl, hactor⟩ := mem_ownRows.1 hmem
  have hid : (updatedState dto now state).actorTokenStateId = state.actorTokenStateId := rfl
  have hsaved : ownRows actorTokenId
      (saveRow (·.actorTokenStateId) (updatedState dto now state) st.rows) =
        [updatedState dto now state] := by
    rw [ownRows_saveRow h.unique hmem hid hl hactor, hown]
    simp only [saveRow, List.map_cons, List.map_nil, hid, if_true]
  refine h.commit hc rfl ?_ hsaved ?_ ?_
  · show ((saveRow _ _ st.rows).map _).Nodup
    rw [map_saveRow]
    exact h.unique
  · rw [topics_updatedState, topicsOf, hown]
    rfl
  · intro c' dto' phase' hne hc'
    exact h.idle_of_lock hown hlock hne hc'

theorem Inv.commitInsert {st : StateTable} (h : Inv actorTokenId rows₀ st) {c : Nat}
    {dto : SubscriptionUpdate} {row : ActorTokenState}
    (hc : st.calls c = some (dto, .written row true))
    (hfresh : row.actorTokenStateId ∉ st.rows.map (·.actorTokenStateId)) :
    Inv actorTokenId rows₀
      { st with rows := st.rows ++ [row], calls := st.calls.move c dto .returned } := by
  obtain ⟨hnone, now, id, rfl⟩ := h.phases c dto _ hc
  have hactor : (updatedState dto now (newState actorTokenId id)).actorTokenId = actorTokenId := rfl
  have hinserted : ownRows actorTokenId (st.rows ++ [updatedState dto now (newState actorTokenId id)]) =
      [updatedState dto now (newState actorTokenId id)] := by
    rw [ownRows_append rfl hactor, hnone, List.nil_append]
  refine h.commit hc rfl ?_ hinserted ?_ ?_
  · show ((st.rows ++ _).map _).Nodup
    rw [List.map_append]
    exact h.unique.append (List.nodup_singleton _) (by simpa using hfresh)
  · rw [topics_updatedState, topicsOf, hnone]
    rfl
  · intro c' dto' phase' hne hc'
    exact h.idle_of_insert hc hne hc'

/-- A SELECT that has started has found no row, or waits for the rows there are. -/
theorem selected_cases (own : List ActorTokenState) :
    selected own = .found none ∨ ∃ ids, selected own = .waiting ids := by
  unfold selected
  split
  · exact .inl rfl
  · exact .inr ⟨_, rfl⟩

theorem inv_step {st st' : StateTable} {l : Statement} (h : Inv actorTokenId rows₀ st)
    (hC : InsertsAlone actorTokenId st l) (hstep : step actorTokenId st l = some st') :
    Inv actorTokenId rows₀ st' := by
  cases of_step hstep with
  | begin hc =>
    refine h.move ?_ rfl (fun _ _ _ hlock => hlock) trivial (fun _ heq => by cases heq)
    intro dto' phase' hc'
    rw [hc] at hc'
    cases hc'
  | @select c dto hc =>
    have hbefore : ∀ dto' phase', st.calls c = some (dto', phase') → committed phase' = false :=
      Pool.phase_of hc rfl
    rcases selected_cases (ownRows actorTokenId st.rows) with heq | ⟨ids, heq⟩
    · rw [heq]
      exact h.move hbefore rfl (fun _ _ _ hlock => hlock) trivial (fun _ heq => by cases heq)
    · rw [heq]
      exact h.move hbefore rfl (fun _ _ _ hlock => hlock) trivial (fun _ heq => by cases heq)
  | acquire hc hfree =>
    exact h.move (Pool.phase_of hc rfl) rfl (fun _ _ _ hheld => acquired_of_held hfree hheld)
      (phaseInv_reread ..) (fun _ heq => by cases heq)
  | update hc =>
    obtain ⟨hmem, hlock⟩ := h.phases _ _ _ hc
    exact h.move (Pool.phase_of hc rfl) rfl (fun _ _ _ hlock => hlock) ⟨_, _, rfl, hmem, hlock⟩
      (fun _ heq => by cases heq)
  | insert hc =>
    obtain ⟨hnone, halone⟩ := hC _ hc
    exact h.move (Pool.phase_of hc rfl) rfl (fun _ _ _ hlock => hlock) ⟨hnone, _, _, rfl⟩
      (fun _ _ => halone)
  | commitUpdate hc => exact h.commitUpdate hc
  | commitInsert hc hfresh => exact h.commitInsert hc hfresh

theorem inv_run {run : List Statement} {st : StateTable}
    (hunique : UniqueOn (·.actorTokenStateId) rows₀)
    (hone : (ownRows actorTokenId rows₀).length ≤ 1)
    (hrun : exec (step actorTokenId) (StateTable.init rows₀) run = some st)
    (hC : Meets (step actorTokenId) (InsertsAlone actorTokenId) (StateTable.init rows₀) run) :
    Inv actorTokenId rows₀ st :=
  exec_invariant (fun _ _ _ hI hC hs => inv_step hI hC hs) run _ st (inv_init hunique hone) hC hrun

end

/-! ## Runs -/

/-- At most one live row for the actor, and the topics of a serial execution of the calls that have
committed. -/
structure Serialized (actorTokenId : Uuid) (rows₀ : List ActorTokenState) (st : StateTable) :
    Prop where
  one : (ownRows actorTokenId st.rows).length ≤ 1
  serial : ∃ order, st.calls.Lists committed order ∧
    topicsOf actorTokenId st.rows = foldCalls applyUpdate (topicsOf actorTokenId rows₀) order

/-- In a run whose inserts are alone, however the calls interleave, no subscribe or unsubscribe is
lost. -/
theorem no_update_lost (actorTokenId : Uuid) (rows₀ : List ActorTokenState) (run : List Statement)
    (st : StateTable) (hunique : UniqueOn (·.actorTokenStateId) rows₀)
    (hone : (ownRows actorTokenId rows₀).length ≤ 1)
    (hrun : exec (step actorTokenId) (StateTable.init rows₀) run = some st)
    (halone : Meets (step actorTokenId) (InsertsAlone actorTokenId) (StateTable.init rows₀) run) :
    Serialized actorTokenId rows₀ st := by
  have hinv : Inv actorTokenId rows₀ st := inv_run hunique hone hrun halone
  exact ⟨hinv.one, hinv.serial⟩

def subscribeTo (topic : String) : SubscriptionUpdate where
  actorTokenId := .of "actor"
  topic := topic
  action := .subscribe

/-- The first call inserts the row; the two that find it then wait for each other. -/
theorem no_update_lost_waiting : ∃ st,
    exec (step (.of "actor")) (StateTable.init [])
      [.begin 0 (subscribeTo "a"), .select 0, .begin 1 (subscribeTo "b"), .write 0 5 (.of "s"),
        .commit 0, .select 1, .begin 2 (subscribeTo "c"), .select 2, .acquire 1,
        .write 1 6 (.of "t"), .commit 1, .acquire 2, .write 2 7 (.of "u"), .commit 2] = some st ∧
    Serialized (.of "actor") [] st := by
  refine ⟨_, rfl, no_update_lost (.of "actor") []
    [.begin 0 (subscribeTo "a"), .select 0, .begin 1 (subscribeTo "b"), .write 0 5 (.of "s"),
      .commit 0, .select 1, .begin 2 (subscribeTo "c"), .select 2, .acquire 1,
      .write 1 6 (.of "t"), .commit 1, .acquire 2, .write 2 7 (.of "u"), .commit 2] _
    List.nodup_nil (Nat.zero_le 1) rfl ?_⟩
  refine .cons trivial rfl (.cons trivial rfl (.cons trivial rfl (.cons ?_ rfl (.cons trivial rfl
    (.cons trivial rfl (.cons trivial rfl (.cons trivial rfl (.cons trivial rfl (.cons ?_ rfl
      (.cons trivial rfl (.cons trivial rfl (.cons ?_ rfl (.cons trivial rfl trivial)))))))))))))
  · intro dto hc
    refine ⟨rfl, fun c' dto' row hc' => ?_⟩
    obtain ⟨-, hc'⟩ := Pool.of_move_ne hc' nofun
    obtain ⟨-, hc'⟩ := Pool.of_move_ne hc' nofun
    obtain ⟨-, hc'⟩ := Pool.of_move_ne hc' nofun
    cases hc'
  · intro dto hc
    cases hc
  · intro dto hc
    cases hc

/-- Two calls that both find no row both insert one. -/
theorem first_updates_race :
    ¬ ∀ (actorTokenId : Uuid) (rows₀ : List ActorTokenState) (run : List Statement)
      (st : StateTable), UniqueOn (·.actorTokenStateId) rows₀ →
      (ownRows actorTokenId rows₀).length ≤ 1 →
      exec (step actorTokenId) (StateTable.init rows₀) run = some st →
      (∀ c dto phase, st.calls c = some (dto, phase) → phase = .returned) →
      Serialized actorTokenId rows₀ st := by
  intro hevery
  have hone := (hevery (.of "actor") []
    [.begin 0 (subscribeTo "a"), .begin 1 (subscribeTo "b"), .select 0, .select 1,
      .write 0 5 (.of "s"), .write 1 6 (.of "t"), .commit 0, .commit 1] _
    List.nodup_nil (Nat.zero_le 1) rfl ?_).one
  · revert hone
    decide
  · intro c dto phase hc
    match c with
    | 0 =>
      cases hc
      rfl
    | 1 =>
      cases hc
      rfl
    | _ + 2 => cases hc

end Subscriptions
end Authz
end NolagCore
