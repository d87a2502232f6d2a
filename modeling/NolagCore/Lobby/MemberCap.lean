import NolagCore.Lib.Capped
import NolagCore.Lobby.Capacity
import NolagCore.Lobby.MemberInterleaving

/-!
# Lobby.MemberCap

The cap of ten lobbies a room under interleaving. One SELECT reads one snapshot, and nothing holds
the room until the INSERT: two additions to different lobbies that both check before either commits
both find the tenth place. No room goes over the cap as long as no addition passes its check while
another of the same room is between its own and its commit.
-/

namespace NolagCore
namespace LobbyFacade
namespace Members

open Lib

/-- Call `c` has found a place for the room and may still take it. -/
def Adding (st : State) (c : Nat) (roomId : Uuid) : Prop :=
  ∃ lobbyId appId phase, st.calls c = some (.add lobbyId roomId appId, phase) ∧ phase.isPast = true

/-- A check that passes meets no other addition of the room past its check. -/
def NoCrossing (st : State) : Statement → Prop
  | .select c => ∀ lobbyId roomId appId, st.calls c = some (.add lobbyId roomId appId, .begun) →
      passes st.store lobbyId roomId appId = true → ∀ c', ¬ Adding st c' roomId
  | _ => True

/-- Call `c` has inserted the row. -/
def Wrote (st : State) (c : Nat) (row : LobbyRoom) : Prop :=
  ∃ lobbyId appId, st.calls c = some (.add lobbyId row.roomId appId, .written)

/-- The memberships of a room are within the cap, and leave a place for its one taker. An open
transaction that has inserted is an addition, with one row. -/
structure Inv (st : State) : Prop where
  capped : Capped (fun _ => maxLobbiesPerRoom) (fun roomId => (memberships st.store roomId).length)
    (Adding st)
  written : st.members.OneEach (Wrote st)

theorem Inv.idle {s : Store} (h : ∀ roomId, (memberships s roomId).length ≤ maxLobbiesPerRoom) :
    Inv (State.idle s) where
  capped :=
    { bound := h
      place := fun _ _ ⟨_, _, _, hc, _⟩ => nomatch hc
      alone := fun _ _ _ ⟨_, _, _, hc, _⟩ => nomatch hc }
  written := .nil rfl

/-- The check counts the places of its room. -/
theorem lt_of_passes {s : Store} {lobbyId roomId appId : Uuid}
    (h : passes s lobbyId roomId appId = true) :
    (memberships s roomId).length < maxLobbiesPerRoom := by
  unfold passes at h
  rw [Bool.and_eq_true, decide_eq_true_eq] at h
  exact h.2

section Steps

variable {st st' : State} {c : Nat} {call : Call} {phase : Phase}

/-- Of an addition past its check: it is the one that moved, or it was there before. -/
theorem of_adding_move (hcalls : st'.calls = st.calls.move c call phase) {c' : Nat} {roomId : Uuid}
    (h : Adding st' c' roomId) :
    (c' = c ∧ phase.isPast = true ∧ ∃ lobbyId appId, call = .add lobbyId roomId appId) ∨
      c' ≠ c ∧ Adding st c' roomId := by
  obtain ⟨lobbyId, appId, phase', hc, hp⟩ := h
  rw [hcalls] at hc
  rcases Pool.of_move hc with ⟨rfl, rfl, rfl⟩ | ⟨hne, hc⟩
  · exact .inl ⟨rfl, hp, lobbyId, appId, rfl⟩
  · exact .inr ⟨hne, lobbyId, appId, phase', hc, hp⟩

theorem wrote_move (hcalls : st'.calls = st.calls.move c call phase) (c' : Nat) (row : LobbyRoom)
    (hne : c' ≠ c) (h : Wrote st c' row) : Wrote st' c' row := by
  obtain ⟨lobbyId, appId, hc⟩ := h
  exact ⟨lobbyId, appId, by rw [hcalls, Pool.move_ne _ _ _ hne, hc]⟩

theorem not_wrote (hw : ∀ call phase, st.calls c = some (call, phase) → phase ≠ .written)
    (row : LobbyRoom) : ¬ Wrote st c row := by
  rintro ⟨lobbyId, appId, hc⟩
  exact hw _ .written hc rfl

/-- A call that comes past its check only from there leaves the places as they are. -/
theorem capped_of_move (h : Inv st) (hrows : st'.members.rows = st.members.rows)
    (hcalls : st'.calls = st.calls.move c call phase)
    (hpast : phase.isPast = true → ∀ lobbyId roomId appId, call = .add lobbyId roomId appId →
      Adding st c roomId) :
    Capped (fun _ => maxLobbiesPerRoom) (fun roomId => (memberships st'.store roomId).length)
      (Adding st') := by
  refine h.capped.shrink (fun roomId => ?_) fun c' roomId hadding => ?_
  · exact le_of_eq (by simp only [memberships, State.store, hrows])
  · rcases of_adding_move hcalls hadding with ⟨rfl, hp, lobbyId, appId, hcall⟩ | ⟨_, hold⟩
    · exact hpast hp lobbyId roomId appId hcall
    · exact hold

/-- A statement that touches no membership. -/
theorem inv_quiet (h : Inv st) (hmembers : st'.members = st.members)
    (hcalls : st'.calls = st.calls.move c call phase)
    (hw : ∀ call phase, st.calls c = some (call, phase) → phase ≠ .written)
    (hpast : phase.isPast = true → ∀ lobbyId roomId appId, call = .add lobbyId roomId appId →
      Adding st c roomId) : Inv st' where
  capped := capped_of_move h (by rw [hmembers]) hcalls hpast
  written := by
    rw [hmembers]
    exact h.written.keep (not_wrote hw) (wrote_move hcalls)

theorem inv_pass (h : Inv st) {lobbyId roomId appId : Uuid}
    (hC : NoCrossing st (.select c)) (hc : st.calls c = some (.add lobbyId roomId appId, .begun))
    (hpass : passes st.store lobbyId roomId appId = true) :
    Inv (st.advance c (.add lobbyId roomId appId) .checked) where
  capped := by
    refine h.capped.admit c (lt_of_passes hpass) (hC lobbyId roomId appId hc hpass) ?_
    intro c' roomId' hadding
    rcases of_adding_move rfl hadding with ⟨rfl, _, _, _, hcall⟩ | ⟨_, hold⟩
    · cases hcall
      exact .inr ⟨rfl, rfl⟩
    · exact .inl hold
  written := h.written.keep (not_wrote (Pool.phase_ne hc (by simp))) (wrote_move rfl)

theorem inv_insert (h : Inv st) {lobbyId roomId appId : Uuid}
    (hc : st.calls c = some (.add lobbyId roomId appId, .saving)) :
    Inv (st.insert c (.add lobbyId roomId appId) { lobbyId := lobbyId, roomId := roomId }) where
  capped := by
    refine capped_of_move h rfl rfl fun _ lobbyId' roomId' appId' hcall => ?_
    cases hcall
    exact ⟨lobbyId, appId, .saving, hc, rfl⟩
  written := h.written.insert (not_wrote (Pool.phase_ne hc (by simp))) (wrote_move rfl)
    ⟨lobbyId, appId, calls_insert ..⟩

theorem inv_remove (h : Inv st) {lobbyId roomId appId : Uuid} {pair : Uuid × Uuid}
    (hc : st.calls c = some (.remove lobbyId roomId appId, .found)) :
    Inv (st.remove c (.remove lobbyId roomId appId) pair) where
  capped := capped_of_move h rfl rfl fun _ _ _ _ hcall => nomatch hcall
  written :=
    (h.written.keep (not_wrote (Pool.phase_ne hc (by simp))) (wrote_move rfl)).congr rfl

theorem inv_rollback (h : Inv st) : Inv (st.rollback c call) where
  capped := capped_of_move h rfl rfl fun hp => nomatch hp
  written := h.written.release (wrote_move rfl)

/-- A commit takes the place its call has found, or none. -/
theorem inv_commit (h : Inv st) : Inv (st.commit c call) := by
  have hcount : ∀ roomId, (memberships (st.commit c call).store roomId).length ≤
      (memberships st.store roomId).length +
        ((st.members.insertedBy c).filter fun lr => decide (lr.roomId = roomId)).length :=
    fun roomId => JoinTable.length_filter_commit_le _
  have hadding : ∀ c' roomId, Adding (st.commit c call) c' roomId → c' ≠ c ∧ Adding st c' roomId := by
    intro c' roomId hadding
    rcases of_adding_move rfl hadding with ⟨_, hp, _⟩ | hold
    · cases hp
    · exact hold
  refine ⟨?_, h.written.commit (wrote_move rfl)⟩
  rcases h.written.insertedBy c with hrows | ⟨row, hrows, lobbyId, appId, hc⟩
  · refine h.capped.shrink (fun roomId => ?_) fun c' roomId ha => (hadding c' roomId ha).2
    have := hcount roomId
    rw [hrows] at this
    exact this
  · have htaken : Adding st c row.roomId := ⟨lobbyId, appId, .written, hc, rfl⟩
    refine h.capped.take htaken ?_ ?_ hadding
    · have := hcount row.roomId
      rw [hrows] at this
      simpa using this
    · intro roomId hne
      have := hcount roomId
      rw [hrows] at this
      simpa [Ne.symm hne] using this

theorem inv_step {l : Statement} (h : Inv st) (hC : NoCrossing st l) (hs : Steps st l st') :
    Inv st' := by
  cases hs with
  | settle hc hp => exact inv_quiet h rfl rfl hc fun hpast => absurd hpast (by simp [hp])
  | fail hc => exact inv_rollback h
  | pass hc hpass => exact inv_pass h hC hc hpass
  | hold hc => exact inv_quiet h rfl rfl (Pool.phase_ne hc (by simp)) fun hpast => nomatch hpast
  | reread hc =>
    refine inv_quiet h rfl rfl (Pool.phase_ne hc (by simp)) fun _ lobbyId roomId appId hcall => ?_
    cases hcall
    exact ⟨_, _, .checked, hc, rfl⟩
  | insert hc => exact inv_insert h hc
  | remove hc => exact inv_remove h hc
  | stamp hc =>
    exact inv_quiet h rfl rfl (Pool.phase_ne hc (by simp)) fun _ _ _ _ hcall => nomatch hcall
  | commit hc => exact inv_commit h

end Steps

/-- In every run in which no two additions of one room cross, no room is in more than ten lobbies. -/
theorem cap_without_crossing (s : Store)
    (hcap : ∀ roomId, (memberships s roomId).length ≤ maxLobbiesPerRoom) (run : List Statement)
    (st : State) (hrun : exec step (State.idle s) run = some st)
    (hC : Meets step NoCrossing (State.idle s) run) (roomId : Uuid) :
    (memberships st.store roomId).length ≤ maxLobbiesPerRoom :=
  (exec_invariant (fun _ _ _ h hC hs => inv_step h hC (of_step hs)) run _ st (.idle hcap) hC
    hrun).capped.bound roomId

/-! ## Two additions of one room -/

/-- Eleven lobbies, and a room in nine of them. -/
def nineLobbies : Database :=
  ⟨{ sampleApp.store with
      rooms := [{ roomId := .of "room", appId := .of "app", slug := "lobby", name := "Lobby" }]
      lobbies := (List.range 11).map fun i =>
        { lobbyId := .of (toString i), appId := .of "app", slug := toString i, name := "Hall" }
      lobbyRooms := (List.range 9).map fun i =>
        { lobbyId := .of (toString i), roomId := .of "room" } },
    by decide⟩

theorem nineLobbies_within (roomId : Uuid) :
    (memberships nineLobbies.store roomId).length ≤ maxLobbiesPerRoom := by
  refine le_trans (List.length_filter_le _ _) ?_
  decide

/-- Both check before either inserts. -/
def crossedAdds : List Statement :=
  [.begin 0 (.add (.of "9") (.of "room") (.of "app")),
   .begin 1 (.add (.of "10") (.of "room") (.of "app")),
   .select 0, .select 1, .reread 0, .reread 1, .write 0, .write 1, .commit 0, .commit 1]

theorem crossed_adds_exceed :
    ¬ ∀ (db : Database), (∀ roomId, (memberships db.store roomId).length ≤ maxLobbiesPerRoom) →
      ∀ (run : List Statement) (st : State), exec step (State.idle db.store) run = some st →
      ∀ roomId, (memberships st.store roomId).length ≤ maxLobbiesPerRoom := by
  intro hevery
  have hle := hevery nineLobbies nineLobbies_within crossedAdds _ rfl (.of "room")
  revert hle
  decide

/-- One after the other, the second is refused. -/
def serialAdds : List Statement :=
  [.begin 0 (.add (.of "9") (.of "room") (.of "app")), .select 0, .reread 0, .write 0, .commit 0,
   .begin 1 (.add (.of "10") (.of "room") (.of "app")), .select 1]

theorem cap_without_crossing_serial : ∃ st,
    exec step (State.idle nineLobbies.store) serialAdds = some st ∧
      (st.calls 1).map Prod.snd = some (.returned false) ∧
      (memberships st.store (.of "room")).length ≤ maxLobbiesPerRoom := by
  refine ⟨_, rfl, by decide, cap_without_crossing nineLobbies.store nineLobbies_within serialAdds _
    rfl ?_ (.of "room")⟩
  refine .cons trivial rfl (.cons ?_ rfl (.cons trivial rfl (.cons trivial rfl (.cons trivial rfl
    (.cons trivial rfl (.cons ?_ rfl trivial))))))
  · -- no other addition has begun
    rintro lobbyId roomId appId - - c' ⟨_, _, phase, hc, hp⟩
    rcases c' with _ | c'
    · cases hc
      cases hp
    · cases hc
  · -- the check finds the room in ten lobbies
    intro lobbyId roomId appId hc hpass
    cases hc
    cases hpass

end Members
end LobbyFacade
end NolagCore
