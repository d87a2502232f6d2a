import NolagCore.Lib.Capped
import NolagCore.Room.EnsureInterleaving

/-!
# Room.EnsureCap

The room cap of `ensureRoom` under interleaving. The count is a statement of its own, taken before
the transaction that inserts: two calls that both count before either commits both find the last
place. The app stays within its cap as long as no call passes the count while another call of the app
is between its own count and the end of its creation.
-/

namespace NolagCore
namespace RoomFacade
namespace Ensure

open Lib

/-- A call in this phase has counted and may still create its room. -/
def Phase.isPast : Phase → Bool
  | .counted | .slugFree | .loaded _ | .written _ => true
  | _ => false

/-- Call `c` has found a place for a room in the app and may still take it. -/
def Creating (st : State) (appId : Uuid) (c : Nat) : Prop :=
  ∃ call phase, st.calls c = some (call, phase) ∧ call.appId = appId ∧ phase.isPast = true

/-- A count that passes meets no other creation in the app. -/
def NoCrossing (appId : Uuid) (st : State) : Statement → Prop
  | .count c => ∀ call, st.calls c = some (call, .missing) → call.appId = appId →
      countByAppId st.store appId < call.maxRooms → ∀ c', ¬ Creating st appId c'
  | _ => True

/-- A call on the app has the cap `maxRooms`. -/
def CapsAt (appId : Uuid) (maxRooms : Nat) : Statement → Bool
  | .begin _ call => decide (call.appId ≠ appId) || decide (call.maxRooms = maxRooms)
  | _ => true

/-- Call `c` has inserted the row. -/
def Wrote (st : State) (c : Nat) (room : Room) : Prop :=
  ∃ call, st.calls c = some (call, .written room) ∧ room.appId = call.appId

/-- The app is within its cap, with a place for the one call that has counted. -/
structure CapInv (appId : Uuid) (maxRooms : Nat) (st : State) : Prop where
  capped : Capped (fun _ : Unit => maxRooms) (fun _ => countByAppId st.store appId)
    (fun c _ => Creating st appId c)
  written : st.rooms.OneEach (Wrote st)
  caps : ∀ c call phase, st.calls c = some (call, phase) → call.appId = appId →
    call.maxRooms = maxRooms

section Steps

variable {appId : Uuid} {maxRooms : Nat} {st st' : State} {c : Nat} {call : Call} {phase : Phase}

theorem CapInv.idle {s : Store} (h : countByAppId s appId ≤ maxRooms) :
    CapInv appId maxRooms (State.idle s) where
  capped :=
    { bound := fun _ => h
      place := fun _ _ ⟨_, _, hc, _⟩ => nomatch hc
      alone := fun _ _ _ ⟨_, _, hc, _⟩ => nomatch hc }
  written := .nil rfl
  caps := fun _ _ _ hc => nomatch hc

/-- Of a call that may create: it is the one that moved, or it was there before. -/
theorem of_creating_move (hcalls : st'.calls = st.calls.move c call phase) {c' : Nat}
    (h : Creating st' appId c') :
    (c' = c ∧ phase.isPast = true ∧ call.appId = appId) ∨ c' ≠ c ∧ Creating st appId c' := by
  obtain ⟨call', phase', hc, happ, hp⟩ := h
  rw [hcalls] at hc
  rcases Pool.of_move hc with ⟨rfl, rfl, rfl⟩ | ⟨hne, hc⟩
  · exact .inl ⟨rfl, hp, happ⟩
  · exact .inr ⟨hne, call', phase', hc, happ, hp⟩

theorem wrote_move (hcalls : st'.calls = st.calls.move c call phase) (c' : Nat) (room : Room)
    (hne : c' ≠ c) (h : Wrote st c' room) : Wrote st' c' room := by
  obtain ⟨call', hc, happ⟩ := h
  exact ⟨call', by rw [hcalls, Pool.move_ne _ _ _ hne, hc], happ⟩

theorem not_wrote (hw : ∀ call phase, st.calls c = some (call, phase) → ∀ room, phase ≠ .written room)
    (room : Room) : ¬ Wrote st c room := by
  rintro ⟨call, hc, _⟩
  exact hw call _ hc room rfl

theorem caps_move (h : CapInv appId maxRooms st) (hcalls : st'.calls = st.calls.move c call phase)
    (hcap : call.appId = appId → call.maxRooms = maxRooms) (c' : Nat) (call' : Call) (phase' : Phase)
    (hc : st'.calls c' = some (call', phase')) (happ : call'.appId = appId) :
    call'.maxRooms = maxRooms := by
  rw [hcalls] at hc
  rcases Pool.of_move hc with ⟨rfl, rfl, rfl⟩ | ⟨_, hc⟩
  · exact hcap happ
  · exact h.caps c' call' phase' hc happ

/-- A call that may create only if it could before leaves the app as it is. -/
theorem capInv_advance (h : CapInv appId maxRooms st)
    (hw : ∀ call phase, st.calls c = some (call, phase) → ∀ room, phase ≠ .written room)
    (hcap : call.appId = appId → call.maxRooms = maxRooms)
    (hpast : phase.isPast = true → call.appId = appId → Creating st appId c) :
    CapInv appId maxRooms (st.advance c call phase) where
  capped := by
    refine h.capped.shrink (fun _ => le_refl _) fun c' _ hcreating => ?_
    rcases of_creating_move rfl hcreating with ⟨rfl, hp, happ⟩ | ⟨_, hold⟩
    · exact hpast hp happ
    · exact hold
  written := h.written.keep (not_wrote hw) (wrote_move rfl)
  caps := caps_move h rfl hcap

/-- The same for a call that is there and goes on to `phase`. -/
theorem capInv_go {from' : Phase} (h : CapInv appId maxRooms st)
    (hc : st.calls c = some (call, from')) (hw : ∀ room, from' ≠ .written room)
    (hpast : phase.isPast = true → from'.isPast = true) :
    CapInv appId maxRooms (st.advance c call phase) :=
  capInv_advance h (Pool.phase_of hc hw) (h.caps c call from' hc)
    fun hp happ => ⟨call, from', hc, happ, hpast hp⟩

theorem capInv_counted (h : CapInv appId maxRooms st) (hC : NoCrossing appId st (.count c))
    (hc : st.calls c = some (call, .missing))
    (hcap : countByAppId st.store call.appId < call.maxRooms) :
    CapInv appId maxRooms (st.advance c call .counted) := by
  by_cases happ : call.appId = appId
  · have hplace : countByAppId st.store appId < maxRooms := by
      rw [← h.caps c call .missing hc happ, ← happ]
      exact hcap
    have hnone := hC call hc happ (happ ▸ hcap)
    refine ⟨?_, h.written.keep (not_wrote (Pool.phase_of hc (by simp))) (wrote_move rfl),
      caps_move h rfl (h.caps c call .missing hc)⟩
    refine h.capped.admit c (k := ()) hplace hnone fun c' _ hcreating => ?_
    rcases of_creating_move rfl hcreating with ⟨rfl, _, _⟩ | ⟨_, hold⟩
    · exact .inr ⟨rfl, rfl⟩
    · exact .inl hold
  · exact capInv_advance h (Pool.phase_of hc (by simp)) (h.caps c call .missing hc)
      fun _ heq => absurd heq happ

theorem capInv_insert (h : CapInv appId maxRooms st) {topics : Option (List String)} {roomId : Uuid}
    (hc : st.calls c = some (call, .loaded topics)) :
    CapInv appId maxRooms (st.insert c call (newRoom call roomId topics)) where
  capped := by
    refine h.capped.shrink (fun _ => le_refl _) fun c' _ hcreating => ?_
    rcases of_creating_move rfl hcreating with ⟨rfl, _, happ⟩ | ⟨_, hold⟩
    · exact ⟨call, .loaded topics, hc, happ, rfl⟩
    · exact hold
  written := h.written.insert (not_wrote (Pool.phase_of hc (by simp))) (wrote_move rfl)
    ⟨call, calls_insert .., rfl⟩
  caps := caps_move h rfl (h.caps c call _ hc)

/-- A commit takes the place its call has found. -/
theorem capInv_commit (h : CapInv appId maxRooms st) {room : Room}
    (hc : st.calls c = some (call, .written room)) :
    CapInv appId maxRooms (st.commit c call room) := by
  have hcount : countByAppId (st.commit c call room).store appId ≤ countByAppId st.store appId +
      ((st.rooms.insertedBy c).filter fun r => live r && decide (r.appId = appId)).length :=
    JoinTable.length_filter_commit_le _
  have hcreating : ∀ c' (_ : Unit), Creating (st.commit c call room) appId c' →
      c' ≠ c ∧ Creating st appId c' := by
    intro c' _ hcreating
    rcases of_creating_move rfl hcreating with ⟨_, hp, _⟩ | hold
    · cases hp
    · exact hold
  refine ⟨?_, h.written.commit (wrote_move rfl), caps_move h rfl (h.caps c call _ hc)⟩
  by_cases happ : call.appId = appId
  · have htaken : Creating st appId c := ⟨call, .written room, hc, happ, rfl⟩
    refine h.capped.take (k := ()) htaken ?_ (fun k hk => absurd rfl hk) hcreating
    refine le_trans hcount (Nat.add_le_add_left ?_ _)
    rcases h.written.insertedBy c with hrows | ⟨row, hrows, _⟩
    · simp [hrows]
    · rw [hrows]
      exact List.length_filter_le _ _
  · -- a room of another app
    refine h.capped.shrink (fun _ => le_trans hcount ?_) fun c' k hcr => (hcreating c' k hcr).2
    rcases h.written.insertedBy c with hrows | ⟨row, hrows, call', hc', happ'⟩
    · simp [hrows]
    · rw [hc] at hc'
      cases hc'
      have hother : room.appId ≠ appId := fun heq => happ (happ'.symm.trans heq)
      simp [hrows, hother]

/-- A call that breaks off leaves its place. -/
theorem capInv_breakOff (h : CapInv appId maxRooms st) {from' : Phase}
    (hc : st.calls c = some (call, from')) (hbroken : phase.isBroken = true) :
    CapInv appId maxRooms (st.breakOff c call phase) where
  capped := by
    refine h.capped.shrink (fun _ => le_refl _) fun c' _ hcreating => ?_
    rcases of_creating_move rfl hcreating with ⟨_, hp, _⟩ | ⟨_, hold⟩
    · cases phase with
      | rolledBack => cases hp
      | aborted => cases hp
      | _ => cases hbroken
    · exact hold
  written := h.written.release (wrote_move rfl)
  caps := caps_move h rfl (h.caps c call from' hc)

theorem capInv_step {l : Statement} (h : CapInv appId maxRooms st)
    (hC : NoCrossing appId st l ∧ CapsAt appId maxRooms l = true) (hs : Steps st l st') :
    CapInv appId maxRooms st' := by
  cases hs with
  | begin hc =>
    have hcap := hC.2
    simp only [CapsAt, Bool.or_eq_true, decide_eq_true_eq] at hcap
    exact capInv_advance h (fun _ _ h => by rw [hc] at h; cases h)
      (fun happ => hcap.resolve_left fun hne => hne happ) fun hp => nomatch hp
  | found hc hrow => exact capInv_go h hc (by simp) fun hp => nomatch hp
  | missing hc hnone => exact capInv_go h hc (by simp) fun hp => nomatch hp
  | full hc hcap => exact capInv_go h hc (by simp) fun hp => nomatch hp
  | counted hc hcap => exact capInv_counted h hC.1 hc hcap
  | conflict hc htaken => exact capInv_go h hc (by simp) fun hp => nomatch hp
  | slugFree hc => exact capInv_go h hc (by simp) fun _ => rfl
  | loaded hc => exact capInv_go h hc (by simp) fun _ => rfl
  | refused hc hwhy => exact capInv_go h hc (by simp) fun hp => nomatch hp
  | insert hc hslug hfree happ htaken => exact capInv_insert h hc
  | commit hc => exact capInv_commit h hc
  | raced hc hrow => exact capInv_go h hc (by simp) fun hp => nomatch hp
  | lost hc hnone => exact capInv_go h hc (by simp) fun hp => nomatch hp
  | recovered hc hrow => exact capInv_go h hc (by simp) fun hp => nomatch hp
  | aborted hc hnone => exact capInv_go h hc (by simp) fun hp => nomatch hp
  | breakOff hc hbroken => exact capInv_breakOff h hc (isBroken_of_broken hbroken)

end Steps

/-- In every run in which no two creations in the app cross, the app stays within its cap. -/
theorem rooms_without_crossing (s : Store) (appId : Uuid) (maxRooms : Nat)
    (hstart : countByAppId s appId ≤ maxRooms) (run : List Statement) (st : State)
    (hrun : exec step (State.idle s) run = some st) (hcaps : ∀ l ∈ run, CapsAt appId maxRooms l = true)
    (hC : Meets step (NoCrossing appId) (State.idle s) run) :
    countByAppId st.store appId ≤ maxRooms :=
  (exec_invariant (fun _ _ _ h hC hs => capInv_step h hC (of_step hs)) run _ st
    (CapInv.idle hstart) (hC.and hcaps) hrun).capped.bound ()

/-! ## Two creations in an app with one place -/

/-- An app without rooms. -/
def emptyApp : Database :=
  ⟨{ projects := [{ projectId := .of "p", name := "Project" }]
     apps := [{ appId := .of "app", projectId := .of "p", slug := "chat", name := "Chat" }] },
    by decide⟩

/-- A call for the slug, under a cap of one room. -/
def ensuring (slug : String) : Call where
  appId := .of "app"
  data := { slug := some slug, name := "Match" }
  maxRooms := 1

/-- Both count before either inserts. -/
def crossedCounts : List Statement :=
  [.begin 0 (ensuring "m1"), .begin 1 (ensuring "m2"), .lookup 0, .lookup 1, .count 0, .count 1,
   .slugExists 0, .slugExists 1, .findApp 0, .findApp 1, .insert 0 (.of "r1"), .insert 1 (.of "r2"),
   .commit 0, .commit 1]

theorem crossed_counts_exceed :
    ¬ ∀ (db : Database) (appId : Uuid) (maxRooms : Nat), countByAppId db.store appId ≤ maxRooms →
      ∀ (run : List Statement) (st : State), (∀ l ∈ run, CapsAt appId maxRooms l = true) →
      exec step (State.idle db.store) run = some st → countByAppId st.store appId ≤ maxRooms := by
  intro hevery
  have hle := hevery emptyApp (.of "app") 1 (by decide) crossedCounts _ (by decide) rfl
  revert hle
  decide

/-- One after the other, the second is refused. -/
def serialCounts : List Statement :=
  [.begin 0 (ensuring "m1"), .lookup 0, .count 0, .slugExists 0, .findApp 0, .insert 0 (.of "r1"),
   .commit 0, .begin 1 (ensuring "m2"), .lookup 1, .count 1]

theorem rooms_without_crossing_serial : ∃ st,
    exec step (State.idle emptyApp.store) serialCounts = some st ∧
      countByAppId st.store (.of "app") ≤ 1 := by
  refine ⟨_, rfl, rooms_without_crossing emptyApp.store (.of "app") 1 (by decide) serialCounts _ rfl
    (by decide) ?_⟩
  refine .cons trivial rfl (.cons trivial rfl (.cons ?_ rfl (.cons trivial rfl (.cons trivial rfl
    (.cons trivial rfl (.cons trivial rfl (.cons trivial rfl (.cons trivial rfl
      (.cons ?_ rfl trivial)))))))))
  · -- no other call has begun
    rintro call - - - c' ⟨_, _, hc, -, hp⟩
    rcases c' with _ | c'
    · cases hc
      cases hp
    · cases hc
  · -- the count finds the app full
    intro call hc _ hlt
    cases hc
    exact absurd hlt (by decide)

end Ensure
end RoomFacade
end NolagCore
