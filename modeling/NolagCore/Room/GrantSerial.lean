import NolagCore.Room.GrantInterleaving

/-!
# Room.GrantSerial

Runs in which no save is disturbed. The calls take effect in the order of their commits, and those
that had nothing to write where they found that out, so the row is what a serial execution in that
order leaves. Once a delete has returned no later call can bring the grant back.
-/

namespace NolagCore
namespace RoomActorAccessFacade

open Lib

/-- No column is moved under the save that is about to write. -/
def SavesSteady (st : Grant) : Statement → Prop
  | .write c => ∀ dto entity reread, st.calls c = some (.update dto, .saving entity reread) →
    Steady dto entity reread st.row
  | _ => True

/-- A call that succeeded, as far as it is known to. -/
def counted : Phase → Bool
  | .unchanged => true
  | .returned ok => ok
  | _ => false

def succeeded : Phase → Bool
  | .returned ok => ok
  | _ => false

/-- What a phase says of the rows it remembers. -/
def PhaseInv (legacy : String → Option Int) (row₀ : RoomActorAccess) (call : Call) :
    Phase → Prop
  | .found existing => target existing = target row₀
  | .saving entity reread => target reread = target row₀ ∧ ∃ dto existing, call = .update dto ∧
    target existing = target row₀ ∧ assign legacy dto existing = .ok entity
  | _ => True

structure Inv (legacy : String → Option Int) (row₀ : RoomActorAccess) (st : Grant) : Prop where
  serial : ∃ order, st.calls.Lists counted order ∧ st.row = foldCalls (effect legacy) row₀ order
  held : ∀ c version, st.lock = some (c, version) →
    ∃ call, st.calls c = some (call, .written) ∧ version = effect legacy call st.row
  holder : ∀ c call, st.calls c = some (call, .written) → ∃ version, st.lock = some (c, version)
  phases : ∀ c call phase, st.calls c = some (call, phase) → PhaseInv legacy row₀ call phase

section

variable {legacy : String → Option Int} {row₀ : RoomActorAccess}

theorem inv_init : Inv legacy row₀ (Grant.init row₀) where
  serial := ⟨[], Pool.Lists.nil, rfl⟩
  held := by intro c version h; cases h
  holder := by intro c call h; cases h
  phases := by intro c call phase h; cases h

theorem Inv.target_row {st : Grant} (h : Inv legacy row₀ st) : target st.row = target row₀ := by
  obtain ⟨order, -, hrow⟩ := h.serial
  rw [hrow]
  refine foldCalls_invariant (I := fun row => target row = target row₀) ?_ rfl order
  intro call row hrow
  rw [target_effect, hrow]

/-- A statement that moves its call between phases that hold no lock. -/
theorem Inv.advance {st : Grant} (h : Inv legacy row₀ st) {c : Nat} {call : Call} {phase : Phase}
    (hserial : ∃ order, (st.calls.move c call phase).Lists counted order ∧
      st.row = foldCalls (effect legacy) row₀ order)
    (hbefore : ∀ call', st.calls c ≠ some (call', .written)) (hafter : phase ≠ .written)
    (hphase : PhaseInv legacy row₀ call phase) : Inv legacy row₀ (st.advance c call phase) where
  serial := hserial
  held := by
    intro c' version hlock
    obtain ⟨call', hc', hv⟩ := h.held c' version hlock
    have hne : c' ≠ c := by
      rintro rfl
      exact hbefore call' hc'
    exact ⟨call', (Pool.move_ne _ _ _ hne).trans hc', hv⟩
  holder := by
    intro c' call' hc'
    obtain ⟨-, hold⟩ := Pool.of_move_ne hc' hafter.symm
    exact h.holder c' call' hold
  phases := by
    intro c' call' phase' hc'
    rcases Pool.of_move hc' with ⟨-, rfl, rfl⟩ | ⟨-, hold⟩
    · exact hphase
    · exact h.phases c' call' phase' hold

/-- The same where the call has not taken effect yet. -/
theorem Inv.advance_uncounted {st : Grant} (h : Inv legacy row₀ st) {c : Nat} {call : Call}
    {phase : Phase} (hbefore : ∀ call' phase', st.calls c = some (call', phase') →
      counted phase' = false ∧ phase' ≠ .written)
    (hcounted : counted phase = false) (hafter : phase ≠ .written)
    (hphase : PhaseInv legacy row₀ call phase) : Inv legacy row₀ (st.advance c call phase) := by
  obtain ⟨order, hlists, hrow⟩ := h.serial
  refine h.advance ⟨order, ?_, hrow⟩ ?_ hafter hphase
  · exact hlists.stay (.inr ⟨fun call' phase' hc => (hbefore call' phase' hc).1, hcounted⟩)
  · intro call' hc
    exact (hbefore call' _ hc).2 rfl

theorem Inv.lock {st : Grant} (h : Inv legacy row₀ st) {c : Nat} {call : Call} {phase : Phase}
    (hlock : st.lock = none) (hc : st.calls c = some (call, phase)) (hphase : counted phase = false)
    {version : RoomActorAccess} (hversion : version = effect legacy call st.row) :
    Inv legacy row₀
      { row := st.row, lock := some (c, version), calls := st.calls.move c call .written } where
  serial := by
    obtain ⟨order, hlists, hrow⟩ := h.serial
    exact ⟨order, hlists.stay (.inr ⟨Pool.phase_of hc hphase, rfl⟩), hrow⟩
  held := by
    intro c' version' hlock'
    cases hlock'
    exact ⟨call, Pool.move_self .., hversion⟩
  holder := by
    intro c' call' hc'
    rcases Pool.of_move hc' with ⟨rfl, rfl, -⟩ | ⟨-, hold⟩
    · exact ⟨version, rfl⟩
    · obtain ⟨version', hheld⟩ := h.holder c' call' hold
      rw [hlock] at hheld
      cases hheld
  phases := by
    intro c' call' phase' hc'
    rcases Pool.of_move hc' with ⟨-, -, rfl⟩ | ⟨-, hold⟩
    · trivial
    · exact h.phases c' call' phase' hold

theorem Inv.commit {st : Grant} (h : Inv legacy row₀ st) {c : Nat} {call : Call}
    {version : RoomActorAccess} (hc : st.calls c = some (call, .written))
    (hlock : st.lock = some (c, version)) :
    Inv legacy row₀
      { row := version, lock := none, calls := st.calls.move c call (.returned true) } where
  serial := by
    obtain ⟨order, hlists, hrow⟩ := h.serial
    obtain ⟨call', hc', hversion⟩ := h.held c version hlock
    rw [hc] at hc'
    cases hc'
    refine ⟨order ++ [(c, call)], hlists.append (Pool.phase_of hc rfl) rfl, ?_⟩
    rw [foldCalls_append, ← hrow]
    exact hversion
  held := by
    intro c' version' hlock'
    cases hlock'
  holder := by
    intro c' call' hc'
    obtain ⟨hne, hold⟩ := Pool.of_move_ne hc' nofun
    obtain ⟨version', hheld⟩ := h.holder c' call' hold
    rw [hlock] at hheld
    cases hheld
    exact absurd rfl hne
  phases := by
    intro c' call' phase' hc'
    rcases Pool.of_move hc' with ⟨-, -, rfl⟩ | ⟨-, hold⟩
    · trivial
    · exact h.phases c' call' phase' hold

theorem inv_step {st st' : Grant} {l : Statement} (h : Inv legacy row₀ st) (hC : SavesSteady st l)
    (hstep : step legacy st l = some st') : Inv legacy row₀ st' := by
  cases of_step hstep with
  | begin hc =>
    refine h.advance_uncounted ?_ rfl nofun trivial
    intro call' phase' hc'
    rw [hc] at hc'
    cases hc'
  | found hc _ =>
    exact h.advance_uncounted (Pool.phase_of hc ⟨rfl, nofun⟩) rfl nofun h.target_row
  | missing hc =>
    exact h.advance_uncounted (Pool.phase_of hc ⟨rfl, nofun⟩) rfl nofun trivial
  | invalid hc =>
    exact h.advance_uncounted (Pool.phase_of hc ⟨rfl, nofun⟩) rfl nofun trivial
  | unchanged hc he =>
    obtain ⟨order, hlists, hrow⟩ := h.serial
    refine h.advance ⟨order ++ [_], hlists.append (Pool.phase_of hc rfl) rfl, ?_⟩ ?_ nofun trivial
    · rw [foldCalls_append, ← hrow, effect_of_unchanged he]
    · intro call' hc'
      rw [hc] at hc'
      cases hc'
  | saving hc he =>
    exact h.advance_uncounted (Pool.phase_of hc ⟨rfl, nofun⟩) rfl nofun
      ⟨h.target_row, _, _, rfl, h.phases _ _ _ hc, he⟩
  | save hlock hc =>
    obtain ⟨hreread, dto, existing, heq, hexisting, he⟩ := h.phases _ _ _ hc
    cases heq
    have hsteady := hC _ _ _ hc
    exact h.lock hlock hc rfl ((writeBack_iff he (hreread.trans hexisting.symm)).2 hsteady)
  | stamp hlock hc => exact h.lock hlock hc rfl rfl
  | commit hc hlock => exact h.commit hc hlock
  | close hc =>
    obtain ⟨order, hlists, hrow⟩ := h.serial
    refine h.advance ⟨order, hlists.stay (.inl ⟨_, hc, rfl, rfl⟩), hrow⟩ ?_ nofun trivial
    intro call' hc'
    rw [hc] at hc'
    cases hc'

theorem inv_run {run : List Statement} {st : Grant}
    (hrun : exec (step legacy) (Grant.init row₀) run = some st)
    (hC : Meets (step legacy) SavesSteady (Grant.init row₀) run) : Inv legacy row₀ st :=
  exec_invariant (fun _ _ _ hI hC hs => inv_step hI hC hs) run _ st inv_init hC hrun

/-- What a call has returned it does not return differently. -/
theorem returned_step {st st' : Grant} {l : Statement} {c : Nat} {call : Call} {ok : Bool}
    (h : st.calls c = some (call, .returned ok)) (hstep : step legacy st l = some st') :
    st'.calls c = some (call, .returned ok) := by
  have hmoved : ∀ {c' call' phase}, st.calls c' ≠ some (call, .returned ok) →
      st.calls.move c' call' phase c = some (call, .returned ok) := by
    intro c' call' phase hne
    rw [Pool.move_ne, h]
    rintro rfl
    exact hne h
  cases of_step hstep with
  | begin hc => exact hmoved (by rw [hc]; nofun)
  | found hc _ => exact hmoved (by rw [hc]; nofun)
  | missing hc => exact hmoved (by rw [hc]; nofun)
  | invalid hc => exact hmoved (by rw [hc]; nofun)
  | unchanged hc _ => exact hmoved (by rw [hc]; nofun)
  | saving hc _ => exact hmoved (by rw [hc]; nofun)
  | save _ hc => exact hmoved (by rw [hc]; nofun)
  | stamp _ hc => exact hmoved (by rw [hc]; nofun)
  | commit hc _ => exact hmoved (by rw [hc]; nofun)
  | close hc => exact hmoved (by rw [hc]; nofun)

end

/-! ## Runs -/

/-- The columns an update can name. -/
def SameSettings (row row' : RoomActorAccess) : Prop :=
  row.permission = row'.permission ∧ row.topics = row'.topics ∧ row.isActive = row'.isActive ∧
    row.expiresAt = row'.expiresAt ∧ row.role = row'.role ∧ row.metadata = row'.metadata

/-- A delete that has returned in `st` is still in effect in `st'`, and if every call has returned
there, the row has the settings of a serial execution of those that succeeded. -/
structure Settles (legacy : String → Option Int) (row₀ : RoomActorAccess) (st st' : Grant) : Prop where
  revoked : ∀ c now, st.calls c = some (.delete now, .returned true) → live st'.row = false
  serial : (∀ c call phase, st'.calls c = some (call, phase) → ∃ ok, phase = .returned ok) →
    ∃ order, st'.calls.Lists succeeded order ∧
      SameSettings st'.row (foldCalls (effect legacy) row₀ order)

/-- In a run in which no save is disturbed, however the calls interleave, a deleted grant stays
deleted and the calls are serial. -/
theorem undisturbed_calls_settle (legacy : String → Option Int) (row₀ : RoomActorAccess)
    (run later : List Statement) (st st' : Grant)
    (hrun : exec (step legacy) (Grant.init row₀) run = some st)
    (hlater : exec (step legacy) st later = some st')
    (hsteady : Meets (step legacy) SavesSteady (Grant.init row₀) (run ++ later)) :
    Settles legacy row₀ st st' := by
  have hinv : Inv legacy row₀ st' := inv_run (exec_append.2 ⟨st, hrun, hlater⟩) hsteady
  obtain ⟨order, hlists, hrow⟩ := hinv.serial
  constructor
  · intro c now hreturned
    have hstays : st'.calls c = some (.delete now, .returned true) :=
      exec_invariant (I := fun st => st.calls c = some (.delete now, .returned true))
        (fun _ _ _ hI _ hs => returned_step hI hs) later st st' hreturned
        (hsteady.append_right hrun) hlater
    have hmem := (hlists.mem_iff c (.delete now)).2 ⟨_, hstays, rfl⟩
    rw [hrow]
    exact foldCalls_of_mem (I := fun row => live row = false)
      (fun call row => not_live_effect legacy call row) (fun _ => rfl) hmem row₀
  · intro hall
    refine ⟨order, hlists.congr ?_, ?_⟩
    · intro c call phase hc
      obtain ⟨ok, rfl⟩ := hall c call phase hc
      rfl
    · rw [← hrow]
      exact ⟨rfl, rfl, rfl, rfl, rfl, rfl⟩

/-- A grant to the guests of a room. -/
def sampleGrant : RoomActorAccess where
  roomActorAccessId := .of "g"
  roomId := .of "room"
  actorTokenId := none
  actorType := some .user
  permission := .pubSub

def deactivate : Call := .update { isActive := some false }

/-- A delete that begins inside an update and commits after it settles. -/
theorem undisturbed_calls_settle_nested : ∃ st st',
    exec (step fun _ => none) (Grant.init sampleGrant)
      [.begin 0 deactivate, .findOne 0, .begin 1 (.delete 5), .findOne 1, .reread 0, .write 0,
        .commit 0, .write 1, .commit 1] = some st ∧
    exec (step fun _ => none) st [.begin 2 deactivate, .findOne 2] = some st' ∧
    Settles (fun _ => none) sampleGrant st st' := by
  refine ⟨_, _, rfl, rfl, undisturbed_calls_settle (fun _ => none) sampleGrant
    [.begin 0 deactivate, .findOne 0, .begin 1 (.delete 5), .findOne 1, .reread 0, .write 0,
      .commit 0, .write 1, .commit 1] [.begin 2 deactivate, .findOne 2] _ _ rfl rfl ?_⟩
  refine .cons trivial rfl (.cons trivial rfl (.cons trivial rfl (.cons trivial rfl
    (.cons trivial rfl (.cons ?_ rfl (.cons trivial rfl (.cons ?_ rfl (.cons trivial rfl
      (.cons trivial rfl (.cons trivial rfl trivial))))))))))
  · intro dto entity reread hc
    cases hc
    constructor <;> decide
  · intro dto entity reread hc
    cases hc

/-- An update that read the grant before the delete and saves it afterwards brings it back. -/
theorem update_resurrects :
    ¬ ∀ (legacy : String → Option Int) (row₀ : RoomActorAccess) (run later : List Statement)
      (st st' : Grant), exec (step legacy) (Grant.init row₀) run = some st →
      exec (step legacy) st later = some st' → Settles legacy row₀ st st' := by
  intro hevery
  have hrevoked := (hevery (fun _ => none) sampleGrant
    [.begin 0 deactivate, .findOne 0, .begin 1 (.delete 5), .findOne 1, .write 1, .commit 1]
    [.reread 0, .write 0, .commit 0] _ _ rfl rfl).revoked 1 5 rfl
  cases hrevoked

end RoomActorAccessFacade
end NolagCore
