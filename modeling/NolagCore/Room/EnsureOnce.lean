import Mathlib.Data.Fintype.EquivFin
import NolagCore.Room.EnsureCap

/-!
# Room.EnsureOnce

`ensureRoom` is idempotent on its slug, but at the cap. Calls for one slug, under one cap, all return
the room that one of them has created: those that lose the race find it again after their creation
has thrown. The count stands before that recovery. A call that has looked the slug up before the room
was committed and counts afterwards is refused, where the room itself has filled the app. A call that
fails for a reason outside it answers nothing, and keeps no other from its answer.
-/

namespace NolagCore
namespace RoomFacade
namespace Ensure

open Lib

section

variable (appId : Uuid) (slug : String)

/-- A live room of the slug. -/
def IsRoom (r : Room) : Prop := live r = true ∧ r.appId = appId ∧ r.slug = slug

def Present (rows : List Room) : Prop := ∃ r ∈ rows, IsRoom appId slug r

/-- No room of the slug can be created at all. -/
def Barred (apps : List PlatformApp) : Prop := slug = "" ∨ ∀ a ∈ apps, a.appId ≠ appId

/-- A count that finds the app full is taken while there is no room of the slug. -/
def NoLateCount (st : State) : Statement → Prop
  | .count c => ∀ call, st.calls c = some (call, .missing) →
      call.maxRooms ≤ countByAppId st.store appId → ¬ Present appId slug st.rooms.rows
  | _ => True

/-- Every call is for the slug in the app, under one cap. -/
def Ensures (maxRooms : Nat) : Statement → Bool
  | .begin _ call => decide (call.appId = appId) && decide (call.slug = slug) &&
      decide (call.maxRooms = maxRooms)
  | _ => true

end

/-- A call in this phase has not found a room of the slug at its lookup. -/
def Phase.hasMissed : Phase → Bool
  | .begun | .returned _ | .rolledBack | .aborted => false
  | _ => true

/-- The call has come to its own end. -/
def Phase.isDone : Phase → Bool
  | .returned _ | .thrown _ => true
  | _ => false

/-! ## Lookups -/

section

variable {s : Store} {appId : Uuid} {slug : String}

theorem of_findBySlug {r : Room} (h : findBySlugAndApp s slug appId = some r) :
    r ∈ s.rooms ∧ IsRoom appId slug r := by
  obtain ⟨hm, hl, hp⟩ := of_findOne h
  simp only [Bool.and_eq_true, decide_eq_true_eq] at hp
  exact ⟨hm, hl, hp.2, hp.1⟩

theorem findBySlug_none : findBySlugAndApp s slug appId = none ↔ ¬ Present appId slug s.rooms := by
  unfold findBySlugAndApp
  rw [findOne_eq_none]
  constructor
  · rintro h ⟨r, hr, hl, happ, hslug⟩
    have := h r hr hl
    simp [happ, hslug] at this
  · intro h r hr hl
    rw [Bool.and_eq_false_iff, decide_eq_false_iff_not, decide_eq_false_iff_not]
    by_contra hboth
    rw [not_or, not_not, not_not] at hboth
    exact h ⟨r, hr, hl, hboth.2, hboth.1⟩

theorem slugExists_iff : slugExists s slug appId = true ↔ Present appId slug s.rooms := by
  unfold slugExists
  rw [decide_eq_true_eq, List.length_pos_iff_exists_mem]
  constructor
  · rintro ⟨r, hr⟩
    obtain ⟨hm, hl, hp⟩ := mem_findAll.1 hr
    simp only [Bool.and_eq_true, decide_eq_true_eq] at hp
    exact ⟨r, hm, hl, hp.2, hp.1⟩
  · rintro ⟨r, hr, hl, happ, hslug⟩
    exact ⟨r, mem_findAll.2 ⟨hr, hl, by simp [happ, hslug]⟩⟩

end

/-! ## The invariant -/

section

variable (apps : List PlatformApp) (rows₀ : List Room) (appId : Uuid) (slug : String) (maxRooms : Nat)

/-- What a call knows in its phase, of the rows the run began with and of those there are now. -/
def Knows (rows : List Room) : Phase → Prop
  | .begun | .missing | .rolledBack | .aborted => True
  | .counted | .slugFree | .loaded _ => countByAppId { rooms := rows₀ } appId < maxRooms
  | .written room => countByAppId { rooms := rows₀ } appId < maxRooms ∧ IsRoom appId slug room ∧
      ¬ Barred appId slug apps ∧ ¬ Present appId slug rows
  | .failed _ => Present appId slug rows ∨ Barred appId slug apps
  | .returned room => room ∈ rows ∧ IsRoom appId slug room
  | .thrown _ => maxRooms ≤ countByAppId { rooms := rows₀ } appId ∨ Barred appId slug apps

/-- The rows are those of the start, or one of the calls has added the room. -/
inductive Grown : List Room → Prop
  | start : Grown rows₀
  | created {room : Room} (hroom : IsRoom appId slug room) (hnone : ¬ Present appId slug rows₀)
    (hcap : countByAppId { rooms := rows₀ } appId < maxRooms) (hopen : ¬ Barred appId slug apps) :
    Grown (rows₀ ++ [room])

structure OnceInv (st : State) : Prop where
  sameApps : st.apps = apps
  grown : Grown apps rows₀ appId slug maxRooms st.rooms.rows
  kept : st.rooms.deleted = []
  pending : ∀ c room, (c, room) ∈ st.rooms.inserted ↔ ∃ call, st.calls c = some (call, .written room)
  lone : st.rooms.inserted.length ≤ 1
  same : ∀ c call phase, st.calls c = some (call, phase) →
    call.appId = appId ∧ call.slug = slug ∧ call.maxRooms = maxRooms
  missed : ∀ c call phase, st.calls c = some (call, phase) → phase.hasMissed = true →
    ¬ Present appId slug rows₀
  knows : ∀ c call phase, st.calls c = some (call, phase) →
    Knows apps rows₀ appId slug maxRooms st.rooms.rows phase

end

section Steps

variable {apps : List PlatformApp} {rows₀ rows rows' : List Room} {appId : Uuid} {slug : String}
  {maxRooms : Nat} {st st' : State} {c : Nat} {call : Call} {phase : Phase}

theorem Present.mono (h : Present appId slug rows) (hsub : ∀ r ∈ rows, r ∈ rows') :
    Present appId slug rows' := by
  obtain ⟨r, hr, hroom⟩ := h
  exact ⟨r, hsub r hr, hroom⟩

theorem Grown.subset (h : Grown apps rows₀ appId slug maxRooms rows) : ∀ r ∈ rows₀, r ∈ rows := by
  cases h with
  | start => exact fun _ hr => hr
  | created => exact fun _ hr => List.mem_append_left _ hr

theorem Grown.eq_of_absent (h : Grown apps rows₀ appId slug maxRooms rows)
    (hnone : ¬ Present appId slug rows) : rows = rows₀ := by
  cases h with
  | start => rfl
  | @created room hroom => exact absurd ⟨room, List.mem_append_right _ (by simp), hroom⟩ hnone

/-- A room of the slug was there at the start, or it could be created. -/
theorem Grown.of_present (h : Grown apps rows₀ appId slug maxRooms rows)
    (hp : Present appId slug rows) : Present appId slug rows₀ ∨
      countByAppId { rooms := rows₀ } appId < maxRooms ∧ ¬ Barred appId slug apps := by
  cases h with
  | start => exact .inl hp
  | created _ _ hcap hopen => exact .inr ⟨hcap, hopen⟩

theorem Grown.count_le (h : Grown apps rows₀ appId slug maxRooms rows) :
    countByAppId { rooms := rows₀ } appId ≤ countByAppId { rooms := rows } appId := by
  cases h with
  | start => exact le_refl _
  | created => simp [countByAppId, findAll, List.filter_append]

/-- Every phase but a pending INSERT knows what more rows cannot change. -/
theorem Knows.mono (h : Knows apps rows₀ appId slug maxRooms rows phase)
    (hw : ∀ room, phase ≠ .written room) (hsub : ∀ r ∈ rows, r ∈ rows') :
    Knows apps rows₀ appId slug maxRooms rows' phase := by
  cases phase with
  | written room => exact absurd rfl (hw room)
  | failed error => exact h.imp_left fun hp => hp.mono hsub
  | returned room => exact ⟨hsub room h.1, h.2⟩
  | _ => exact h

theorem OnceInv.idle {s : Store} : OnceInv s.apps s.rooms appId slug maxRooms (State.idle s) where
  sameApps := rfl
  grown := .start
  kept := rfl
  pending := by
    intro c room
    constructor
    · intro h
      cases h
    · rintro ⟨call, hc⟩
      cases hc
  lone := Nat.zero_le 1
  same := fun _ _ _ hc => nomatch hc
  missed := fun _ _ _ hc => nomatch hc
  knows := fun _ _ _ hc => nomatch hc

variable (h : OnceInv apps rows₀ appId slug maxRooms st)

include h

/-- A statement that writes nothing. -/
theorem onceInv_advance
    (hw : ∀ call phase, st.calls c = some (call, phase) → ∀ room, phase ≠ .written room)
    (hsame : call.appId = appId ∧ call.slug = slug ∧ call.maxRooms = maxRooms)
    (hnew : ∀ room, phase ≠ .written room)
    (hmissed : phase.hasMissed = true → ¬ Present appId slug rows₀)
    (hknows : Knows apps rows₀ appId slug maxRooms st.rooms.rows phase) :
    OnceInv apps rows₀ appId slug maxRooms (st.advance c call phase) where
  sameApps := h.sameApps
  grown := h.grown
  kept := h.kept
  pending := by
    intro c' room
    refine (h.pending c' room).trans ⟨?_, ?_⟩
    · rintro ⟨call', hc'⟩
      have hne : c' ≠ c := by
        rintro rfl
        exact hw call' _ hc' room rfl
      exact ⟨call', (Pool.move_ne _ _ _ hne).trans hc'⟩
    · rintro ⟨call', hc'⟩
      obtain ⟨_, hc'⟩ := Pool.of_move_ne hc' (hnew room).symm
      exact ⟨call', hc'⟩
  lone := h.lone
  same := by
    intro c' call' phase' hc'
    rcases Pool.of_move hc' with ⟨_, rfl, _⟩ | ⟨_, hc'⟩
    · exact hsame
    · exact h.same c' call' phase' hc'
  missed := by
    intro c' call' phase' hc'
    rcases Pool.of_move hc' with ⟨_, _, rfl⟩ | ⟨_, hc'⟩
    · exact hmissed
    · exact h.missed c' call' phase' hc'
  knows := by
    intro c' call' phase' hc'
    rcases Pool.of_move hc' with ⟨_, _, rfl⟩ | ⟨_, hc'⟩
    · exact hknows
    · exact h.knows c' call' phase' hc'

/-- The same for a call that has missed the room, and goes on. -/
theorem onceInv_go {from' : Phase} (hc : st.calls c = some (call, from'))
    (hw : ∀ room, from' ≠ .written room) (hfrom : from'.hasMissed = true)
    (hnew : ∀ room, phase ≠ .written room)
    (hknows : Knows apps rows₀ appId slug maxRooms st.rooms.rows phase) :
    OnceInv apps rows₀ appId slug maxRooms (st.advance c call phase) :=
  onceInv_advance h (Pool.phase_of hc hw) (h.same c call from' hc) hnew
    (fun _ => h.missed c call from' hc hfrom) hknows

theorem onceInv_found {from' : Phase} {room : Room} (hc : st.calls c = some (call, from'))
    (hw : ∀ room, from' ≠ .written room)
    (hrow : findBySlugAndApp st.store call.slug call.appId = some room) :
    OnceInv apps rows₀ appId slug maxRooms (st.advance c call (.returned room)) := by
  obtain ⟨happ, hslug, _⟩ := h.same c call from' hc
  rw [happ, hslug] at hrow
  exact onceInv_advance h (Pool.phase_of hc hw) (h.same c call from' hc) (by simp)
    (fun hm => nomatch hm) (of_findBySlug hrow)

theorem onceInv_missing (hc : st.calls c = some (call, .begun))
    (hnone : findBySlugAndApp st.store call.slug call.appId = none) :
    OnceInv apps rows₀ appId slug maxRooms (st.advance c call .missing) := by
  obtain ⟨happ, hslug, _⟩ := h.same c call _ hc
  rw [happ, hslug, findBySlug_none] at hnone
  exact onceInv_advance h (Pool.phase_of hc (by simp)) (h.same c call _ hc) (by simp)
    (fun _ hp => hnone (hp.mono h.grown.subset)) trivial

/-- Where there is no room of the slug yet, the count is that of the start. -/
theorem onceInv_full (hC : NoLateCount appId slug st (.count c))
    (hc : st.calls c = some (call, .missing))
    (hcap : call.maxRooms ≤ countByAppId st.store call.appId) {error : CoreError} :
    OnceInv apps rows₀ appId slug maxRooms (st.advance c call (.thrown error)) := by
  obtain ⟨happ, _, hmax⟩ := h.same c call _ hc
  rw [happ] at hcap
  have hrows := h.grown.eq_of_absent (hC call hc hcap)
  have hstore : countByAppId st.store appId = countByAppId { rooms := st.rooms.rows } appId := rfl
  rw [hstore, hrows, hmax] at hcap
  exact onceInv_go h hc (by simp) rfl (by simp) (.inl hcap)

theorem onceInv_counted (hc : st.calls c = some (call, .missing))
    (hcap : countByAppId st.store call.appId < call.maxRooms) :
    OnceInv apps rows₀ appId slug maxRooms (st.advance c call .counted) := by
  obtain ⟨happ, _, hmax⟩ := h.same c call _ hc
  rw [happ, hmax] at hcap
  exact onceInv_go h hc (by simp) rfl (by simp) (Nat.lt_of_le_of_lt h.grown.count_le hcap)

theorem onceInv_refused {topics : Option (List String)} {error : CoreError}
    (hc : st.calls c = some (call, .loaded topics)) (hwhy : Refused st call) :
    OnceInv apps rows₀ appId slug maxRooms (st.advance c call (.failed error)) := by
  obtain ⟨happ, hslug, _⟩ := h.same c call _ hc
  refine onceInv_go h hc (by simp) rfl (by simp) ?_
  cases hwhy with
  | noSlug hempty => exact .inr (.inl (hslug.symm.trans hempty))
  | noApp hnone =>
    rw [happ, h.sameApps] at hnone
    exact .inr (.inr hnone)
  | taken htaken =>
    rw [happ, hslug] at htaken
    exact .inl (slugExists_iff.1 htaken)

/-- No other transaction has an INSERT pending: it would be for the same slug. -/
theorem inserted_nil {from' : Phase} {roomId : Uuid} (hc : st.calls c = some (call, from'))
    (hfree : contested st call roomId = false) : st.rooms.inserted = [] := by
  obtain ⟨happ, hslug, _⟩ := h.same c call from' hc
  refine List.eq_nil_iff_forall_not_mem.2 fun e he => ?_
  obtain ⟨call', hc'⟩ := (h.pending e.1 e.2).1 he
  obtain ⟨_, ⟨_, heapp, heslug⟩, _⟩ := h.knows e.1 call' _ hc'
  have hmiss := List.any_eq_false.1 hfree e he
  simp [happ, hslug, heapp, heslug] at hmiss

theorem onceInv_insert {topics : Option (List String)} {roomId : Uuid}
    (hc : st.calls c = some (call, .loaded topics)) (hne : call.slug ≠ "")
    (hfree : contested st call roomId = false) (happs : ∃ a ∈ st.apps, a.appId = call.appId)
    (htaken : slugExists st.store call.slug call.appId = false) :
    OnceInv apps rows₀ appId slug maxRooms (st.insert c call (newRoom call roomId topics)) := by
  have hnil := inserted_nil h hc hfree
  obtain ⟨happ, hslug, _⟩ := h.same c call _ hc
  have hcap := h.knows c call _ hc
  have hopen : ¬ Barred appId slug apps := by
    rintro (hempty | hnone)
    · exact hne (hslug.trans hempty)
    · obtain ⟨a, ha, haid⟩ := happs
      rw [h.sameApps] at ha
      exact hnone a ha (haid.trans happ)
  have habsent : ¬ Present appId slug st.rooms.rows := by
    rw [happ, hslug] at htaken
    intro hp
    have hp' : slugExists st.store slug appId = true := slugExists_iff.2 hp
    rw [htaken] at hp'
    cases hp'
  refine ⟨h.sameApps, h.grown, h.kept, fun c' room => ?_, ?_, fun c' call' phase' hc' => ?_,
    fun c' call' phase' hc' => ?_, fun c' call' phase' hc' => ?_⟩
  · have hinserted : (st.insert c call (newRoom call roomId topics)).rooms.inserted =
        [(c, newRoom call roomId topics)] := by
      simp [State.insert, JoinTable.insert, hnil]
    rw [hinserted, List.mem_singleton]
    constructor
    · intro heq
      cases heq
      exact ⟨call, calls_insert ..⟩
    · rintro ⟨call', hc'⟩
      rcases Pool.of_move hc' with ⟨rfl, _, hphase⟩ | ⟨_, hc'⟩
      · cases hphase
        rfl
      · have hm := (h.pending c' room).2 ⟨call', hc'⟩
        rw [hnil] at hm
        cases hm
  · simp [State.insert, JoinTable.insert, hnil]
  · rcases Pool.of_move hc' with ⟨_, rfl, _⟩ | ⟨_, hc'⟩
    · exact h.same c _ _ hc
    · exact h.same c' call' phase' hc'
  · rcases Pool.of_move hc' with ⟨_, _, rfl⟩ | ⟨_, hc'⟩
    · exact fun _ => h.missed c call _ hc rfl
    · exact h.missed c' call' phase' hc'
  · rcases Pool.of_move hc' with ⟨_, _, rfl⟩ | ⟨_, hc'⟩
    · exact ⟨hcap, ⟨rfl, happ, hslug⟩, hopen, habsent⟩
    · exact h.knows c' call' phase' hc'

/-- The one pending room joins the rows of the start. -/
theorem onceInv_commit {room : Room} (hc : st.calls c = some (call, .written room)) :
    OnceInv apps rows₀ appId slug maxRooms (st.commit c call room) := by
  obtain ⟨hcap, hroom, hopen, habsent⟩ := h.knows c call _ hc
  have hm : (c, room) ∈ st.rooms.inserted := (h.pending c room).2 ⟨call, hc⟩
  have hone : st.rooms.inserted = [(c, room)] := by
    obtain ⟨e, he⟩ := List.length_eq_one_iff.1 (Nat.le_antisymm h.lone (List.length_pos_of_mem hm))
    rw [he, List.mem_singleton] at hm
    rw [he, hm]
  have hlone : ∀ c' call' room', st.calls c' = some (call', .written room') → c' = c := by
    intro c' call' room' hc'
    have hm' := (h.pending c' room').2 ⟨call', hc'⟩
    rw [hone, List.mem_singleton] at hm'
    exact congrArg Prod.fst hm'
  have hrows : (st.commit c call room).rooms.rows = st.rooms.rows ++ [room] := by
    simp [State.commit, JoinTable.commit, JoinTable.insertedBy, h.kept, hone]
  have hinserted : (st.commit c call room).rooms.inserted = [] := by
    simp [State.commit, JoinTable.commit, JoinTable.release, hone]
  refine ⟨h.sameApps, ?_, ?_, fun c' room' => ?_, ?_, fun c' call' phase' hc' => ?_,
    fun c' call' phase' hc' => ?_, fun c' call' phase' hc' => ?_⟩
  · rw [hrows, h.grown.eq_of_absent habsent]
    exact .created hroom (h.missed c call _ hc rfl) hcap hopen
  · simp [State.commit, JoinTable.commit, JoinTable.release, h.kept]
  · rw [hinserted]
    constructor
    · intro he
      cases he
    · rintro ⟨call', hc'⟩
      obtain ⟨hne, hc'⟩ := Pool.of_move_ne hc' (by simp)
      exact absurd (hlone c' call' room' hc') hne
  · rw [hinserted]
    exact Nat.zero_le 1
  · rcases Pool.of_move hc' with ⟨_, rfl, _⟩ | ⟨_, hc'⟩
    · exact h.same c _ _ hc
    · exact h.same c' call' phase' hc'
  · rcases Pool.of_move hc' with ⟨_, _, rfl⟩ | ⟨_, hc'⟩
    · intro hm
      cases hm
    · exact h.missed c' call' phase' hc'
  · rw [hrows]
    rcases Pool.of_move hc' with ⟨_, _, rfl⟩ | ⟨hne, hc'⟩
    · exact ⟨List.mem_append_right _ (by simp), hroom⟩
    · refine (h.knows c' call' phase' hc').mono (fun room' hphase => ?_)
        fun r hr => List.mem_append_left _ hr
      subst hphase
      exact hne (hlone c' call' room' hc')

/-- What a call that breaks off has inserted was seen by no other. -/
theorem onceInv_breakOff {from' : Phase} (hc : st.calls c = some (call, from'))
    (hbroken : phase.isBroken = true) :
    OnceInv apps rows₀ appId slug maxRooms (st.breakOff c call phase) where
  sameApps := h.sameApps
  grown := h.grown
  kept := by simp [State.breakOff, JoinTable.release, h.kept]
  pending := by
    intro c' room
    have hne : Phase.written room ≠ phase := by
      rintro rfl
      cases hbroken
    refine JoinTable.mem_inserted_release.trans ⟨?_, ?_⟩
    · rintro ⟨hm, hother⟩
      obtain ⟨call', hc'⟩ := (h.pending c' room).1 hm
      exact ⟨call', (Pool.move_ne _ _ _ hother).trans hc'⟩
    · rintro ⟨call', hc'⟩
      obtain ⟨hother, hc'⟩ := Pool.of_move_ne hc' hne
      exact ⟨(h.pending c' room).2 ⟨call', hc'⟩, hother⟩
  lone := le_trans (List.length_filter_le _ _) h.lone
  same := by
    intro c' call' phase' hc'
    rcases Pool.of_move hc' with ⟨_, rfl, _⟩ | ⟨_, hc'⟩
    · exact h.same c _ _ hc
    · exact h.same c' call' phase' hc'
  missed := by
    intro c' call' phase' hc' hmissed
    rcases Pool.of_move hc' with ⟨_, _, rfl⟩ | ⟨_, hc'⟩
    · cases phase' with
      | rolledBack => cases hmissed
      | aborted => cases hmissed
      | _ => cases hbroken
    · exact h.missed c' call' phase' hc' hmissed
  knows := by
    intro c' call' phase' hc'
    rcases Pool.of_move hc' with ⟨_, _, rfl⟩ | ⟨_, hc'⟩
    · cases phase' with
      | rolledBack => trivial
      | aborted => trivial
      | _ => cases hbroken
    · exact h.knows c' call' phase' hc'

theorem onceInv_step {l : Statement}
    (hC : NoLateCount appId slug st l ∧ Ensures appId slug maxRooms l = true)
    (hs : Steps st l st') : OnceInv apps rows₀ appId slug maxRooms st' := by
  cases hs with
  | begin hc =>
    have hsame := hC.2
    simp only [Ensures, Bool.and_eq_true, decide_eq_true_eq] at hsame
    exact onceInv_advance h (fun _ _ h => by rw [hc] at h; cases h) ⟨hsame.1.1, hsame.1.2, hsame.2⟩
      (by simp) (fun hm => nomatch hm) trivial
  | found hc hrow => exact onceInv_found h hc (by simp) hrow
  | missing hc hnone => exact onceInv_missing h hc hnone
  | full hc hcap => exact onceInv_full h hC.1 hc hcap
  | counted hc hcap => exact onceInv_counted h hc hcap
  | conflict hc htaken =>
    obtain ⟨happ, hslug, _⟩ := h.same _ _ _ hc
    rw [happ, hslug] at htaken
    exact onceInv_go h hc (by simp) rfl (by simp) (.inl (slugExists_iff.1 htaken))
  | slugFree hc =>
    have hcap := h.knows _ _ _ hc
    exact onceInv_go h hc (by simp) rfl (by simp) hcap
  | loaded hc =>
    have hcap := h.knows _ _ _ hc
    exact onceInv_go h hc (by simp) rfl (by simp) hcap
  | refused hc hwhy => exact onceInv_refused h hc hwhy
  | insert hc hslug hfree happ htaken => exact onceInv_insert h hc hslug hfree happ htaken
  | commit hc => exact onceInv_commit h hc
  | raced hc hrow => exact onceInv_found h hc (by simp) hrow
  | lost hc hnone =>
    obtain ⟨happ, hslug, _⟩ := h.same _ _ _ hc
    rw [happ, hslug, findBySlug_none] at hnone
    have hbarred := (h.knows _ _ _ hc).resolve_left hnone
    exact onceInv_go h hc (by simp) rfl (by simp) (.inr hbarred)
  | recovered hc hrow => exact onceInv_found h hc (by simp) hrow
  | aborted hc hnone =>
    exact onceInv_advance h (Pool.phase_of hc (by simp)) (h.same _ _ _ hc) (by simp)
      (fun hm => nomatch hm) trivial
  | breakOff hc hbroken => exact onceInv_breakOff h hc (isBroken_of_broken hbroken)

end Steps

/-! ## Every call comes to its end -/

/-- Some statements from here on bring call `c` to its own end. -/
def Finishes (st : State) (c : Nat) : Prop :=
  ∃ later st' call phase, exec step st later = some st' ∧ st'.calls c = some (call, phase) ∧
    phase.isDone = true

section Finishes

variable {st st' : State} {c : Nat} {call : Call}

theorem Finishes.of_step {l : Statement} (h : step st l = some st') (h' : Finishes st' c) :
    Finishes st c := by
  obtain ⟨later, st'', call, phase, hrun, hc, hdone⟩ := h'
  exact ⟨l :: later, st'', call, phase, exec_step h hrun, hc, hdone⟩

theorem finishes_done {phase : Phase} (hc : st.calls c = some (call, phase))
    (hdone : phase.isDone = true) : Finishes st c :=
  ⟨[], st, call, phase, rfl, hc, hdone⟩

theorem finishes_failed {error : CoreError} (hc : st.calls c = some (call, .failed error)) :
    Finishes st c := by
  cases hrow : findBySlugAndApp st.store call.slug call.appId with
  | some raced =>
    have hstep : step st (.reread c) = some (st.advance c call (.returned raced)) := by
      simp only [step, hc, hrow]
    exact .of_step hstep (finishes_done (calls_advance ..) rfl)
  | none =>
    have hstep : step st (.reread c) = some (st.advance c call (.thrown error)) := by
      simp only [step, hc, hrow]
    exact .of_step hstep (finishes_done (calls_advance ..) rfl)

theorem finishes_written {room : Room} (hc : st.calls c = some (call, .written room)) :
    Finishes st c := by
  have hstep : step st (.commit c) = some (st.commit c call room) := by
    simp only [step, hc]
  exact .of_step hstep (finishes_done (calls_commit ..) rfl)

/-- Any number of zeros, as the digits of an id. -/
def zeros (n : Nat) : Uuid :=
  .ofDigits (List.replicate (n + 1) '0') (by simp) fun _ hd =>
    List.eq_of_mem_replicate hd ▸ ⟨by decide, by decide, by decide, by decide⟩

theorem zeros_injective : Function.Injective zeros := by
  intro n m h
  have hdigits := congrArg (fun id => (Uuid.digits id).length) h
  simpa [zeros, Uuid.digits_ofDigits] using hdigits

/-- An id can always be drawn. -/
theorem exists_fresh (rows : List Room) : ∃ roomId : Uuid, ∀ r ∈ rows, r.roomId ≠ roomId := by
  have : Infinite Uuid := .of_injective zeros zeros_injective
  obtain ⟨roomId, hnew⟩ := Infinite.exists_notMem_finset (rows.map Room.roomId).toFinset
  refine ⟨roomId, fun r hr heq => hnew ?_⟩
  rw [List.mem_toFinset]
  exact List.mem_map.2 ⟨r, hr, heq⟩

/-- With no INSERT pending beside it, an INSERT runs or throws. -/
theorem finishes_loaded {topics : Option (List String)} (hc : st.calls c = some (call, .loaded topics))
    (hnil : st.rooms.inserted = []) : Finishes st c := by
  obtain ⟨roomId, hfresh⟩ := exists_fresh st.rooms.rows
  have hfind : (st.rooms.find Room.roomId roomId).isSome = false := by
    rw [Option.isSome_eq_false_iff, Option.isNone_iff_eq_none]
    exact List.find?_eq_none.2 fun r hr hk => hfresh r hr (of_decide_eq_true hk)
  have hfree : contested st call roomId = false := by simp [contested, hnil]
  have hstep : step st (.insert c roomId) = insertRow st c call topics roomId := by
    simp only [step, hc]
  unfold insertRow at hstep
  split at hstep
  · exact .of_step hstep (finishes_failed (calls_advance ..))
  · rw [if_neg (by simp [hfind, hfree])] at hstep
    split at hstep
    · exact .of_step hstep (finishes_failed (calls_advance ..))
    · exact .of_step hstep (finishes_written (calls_insert ..))

/-- At most one INSERT is pending, of a call that can commit it. -/
structure Lone (st : State) : Prop where
  written : ∀ e ∈ st.rooms.inserted, ∃ call, st.calls e.1 = some (call, .written e.2)
  lone : st.rooms.inserted.length ≤ 1

theorem Lone.advance (h : Lone st) (hc : ∀ call' room, st.calls c ≠ some (call', .written room))
    (phase : Phase) : Lone (st.advance c call phase) where
  written := by
    intro e he
    obtain ⟨call', hc'⟩ := h.written e he
    have hne : e.1 ≠ c := fun heq => hc call' e.2 (heq ▸ hc')
    exact ⟨call', (Pool.move_ne _ _ _ hne).trans hc'⟩
  lone := h.lone

/-- A pending INSERT of another call is committed first. -/
theorem finishes_waiting (h : Lone st) {topics : Option (List String)}
    (hc : st.calls c = some (call, .loaded topics)) : Finishes st c := by
  cases hinserted : st.rooms.inserted with
  | nil => exact finishes_loaded hc hinserted
  | cons e rest =>
    obtain ⟨call', hc'⟩ := h.written e (hinserted ▸ List.mem_cons_self)
    have hrest : rest = [] := by
      have hlen := h.lone
      rw [hinserted, List.length_cons] at hlen
      exact List.length_eq_zero_iff.1 (by omega)
    have hne : c ≠ e.1 := by
      rintro rfl
      rw [hc] at hc'
      cases hc'
    have hstep : step st (.commit e.1) = some (st.commit e.1 call' e.2) := by
      simp only [step, hc']
    refine .of_step hstep (finishes_loaded ((Pool.move_ne _ _ _ hne).trans hc) ?_)
    simp [State.commit, JoinTable.commit, JoinTable.release, hinserted, hrest]

theorem finishes_slugFree (h : Lone st) (hc : st.calls c = some (call, .slugFree)) :
    Finishes st c := by
  have hstep : step st (.findApp c) =
      some (st.advance c call (.loaded (roomTopics st.store call.appId call.data))) := by
    simp only [step, hc]
  exact .of_step hstep (finishes_waiting (h.advance (by simp [hc]) _) (calls_advance ..))

theorem finishes_counted (h : Lone st) (hc : st.calls c = some (call, .counted)) :
    Finishes st c := by
  cases hexists : slugExists st.store call.slug call.appId with
  | true =>
    have hstep : step st (.slugExists c) = some (st.advance c call (.failed (slugConflict call))) := by
      simp only [step, hc, hexists, if_true]
    exact .of_step hstep (finishes_failed (calls_advance ..))
  | false =>
    have hstep : step st (.slugExists c) = some (st.advance c call .slugFree) := by
      simp [step, hc, hexists]
    exact .of_step hstep (finishes_slugFree (h.advance (by simp [hc]) _) (calls_advance ..))

theorem finishes_missing (h : Lone st) (hc : st.calls c = some (call, .missing)) :
    Finishes st c := by
  by_cases hcap : countByAppId st.store call.appId ≥ call.maxRooms
  · have hstep : step st (.count c) = some (st.advance c call (.thrown (capReached call))) := by
      simp only [step, hc]
      exact if_pos hcap
    exact .of_step hstep (finishes_done (calls_advance ..) rfl)
  · have hstep : step st (.count c) = some (st.advance c call .counted) := by
      simp only [step, hc]
      exact if_neg hcap
    exact .of_step hstep (finishes_counted (h.advance (by simp [hc]) _) (calls_advance ..))

theorem finishes_begun (h : Lone st) (hc : st.calls c = some (call, .begun)) : Finishes st c := by
  cases hrow : findBySlugAndApp st.store call.slug call.appId with
  | some existing =>
    have hstep : step st (.lookup c) = some (st.advance c call (.returned existing)) := by
      simp only [step, hc, hrow]
    exact .of_step hstep (finishes_done (calls_advance ..) rfl)
  | none =>
    have hstep : step st (.lookup c) = some (st.advance c call .missing) := by
      simp only [step, hc, hrow]
    exact .of_step hstep (finishes_missing (h.advance (by simp [hc]) _) (calls_advance ..))

theorem finishes (h : Lone st) {phase : Phase} (hc : st.calls c = some (call, phase))
    (hwhole : phase.isBroken = false) : Finishes st c := by
  cases phase with
  | begun => exact finishes_begun h hc
  | missing => exact finishes_missing h hc
  | counted => exact finishes_counted h hc
  | slugFree => exact finishes_slugFree h hc
  | loaded topics => exact finishes_waiting h hc
  | written room => exact finishes_written hc
  | failed error => exact finishes_failed hc
  | returned room => exact finishes_done hc rfl
  | thrown error => exact finishes_done hc rfl
  | rolledBack => cases hwhole
  | aborted => cases hwhole

end Finishes

/-! ## One room for every call -/

section

variable {db : Database} {appId : Uuid} {slug : String} {maxRooms : Nat} {rows : List Room}
  {room : Room} {st : State}

/-- The live rooms of the slug, as `findBySlugAndApp` and `slugExists` ask for them. -/
def roomsOfSlug (rows : List Room) (appId : Uuid) (slug : String) : List Room :=
  findAll rows fun r => decide (r.slug = slug) && decide (r.appId = appId)

theorem mem_roomsOfSlug {r : Room} :
    r ∈ roomsOfSlug rows appId slug ↔ r ∈ rows ∧ IsRoom appId slug r := by
  unfold roomsOfSlug IsRoom
  rw [mem_findAll, Bool.and_eq_true, decide_eq_true_eq, decide_eq_true_eq, and_comm (a := r.slug = slug)]

/-- The partial unique index admits one room of the slug. -/
theorem roomsOfSlug_start (hroom : IsRoom appId slug room) (hr : room ∈ db.store.rooms) :
    roomsOfSlug db.store.rooms appId slug = [room] := by
  obtain ⟨hl, happ, hslug⟩ := hroom
  have hfilter : roomsOfSlug db.store.rooms appId slug = (db.store.rooms.filter live).filter
      fun r => decide (r.slug = slug) && decide (r.appId = appId) := by
    rw [List.filter_filter]
    simp only [roomsOfSlug, findAll, Bool.and_comm]
  rw [hfilter]
  refine db.valid.roomSlug.filter_eq_singleton (List.mem_filter.2 ⟨hr, hl⟩) fun r _ => ?_
  rw [Bool.and_eq_true, decide_eq_true_eq, decide_eq_true_eq, Prod.mk.injEq, happ, hslug, and_comm]

theorem Grown.roomsOfSlug_eq (h : Grown db.store.apps db.store.rooms appId slug maxRooms rows)
    (hroom : IsRoom appId slug room) (hr : room ∈ rows) : roomsOfSlug rows appId slug = [room] := by
  cases h with
  | start => exact roomsOfSlug_start hroom hr
  | @created new hnew hnone =>
    have hstart : roomsOfSlug db.store.rooms appId slug = [] := by
      refine List.eq_nil_iff_forall_not_mem.2 fun r hm => hnone ⟨r, mem_roomsOfSlug.1 hm⟩
    have hone : roomsOfSlug (db.store.rooms ++ [new]) appId slug = [new] := by
      obtain ⟨hl, happ, hslug⟩ := hnew
      have happend : roomsOfSlug (db.store.rooms ++ [new]) appId slug =
          roomsOfSlug db.store.rooms appId slug ++ roomsOfSlug [new] appId slug :=
        List.filter_append ..
      rw [happend, hstart]
      simp [roomsOfSlug, findAll, hl, happ, hslug]
    have hm : room ∈ roomsOfSlug (db.store.rooms ++ [new]) appId slug := mem_roomsOfSlug.2 ⟨hr, hroom⟩
    rw [hone, List.mem_singleton] at hm
    rw [hone, hm]

theorem OnceInv.toLone {apps : List PlatformApp} {rows₀ : List Room}
    (h : OnceInv apps rows₀ appId slug maxRooms st) : Lone st where
  written := fun e he => (h.pending e.1 e.2).1 he
  lone := h.lone

/-- Where a room of the slug is there, no call has thrown. -/
theorem OnceInv.not_thrown (h : OnceInv db.store.apps db.store.rooms appId slug maxRooms st)
    (hpresent : Present appId slug st.rooms.rows) {c : Nat} {call : Call} {error : CoreError} :
    st.calls c ≠ some (call, .thrown error) := by
  intro hc
  rcases h.grown.of_present hpresent with hstart | ⟨hcap, hopen⟩
  · exact h.missed c call _ hc rfl hstart
  · rcases h.knows c call _ hc with hfull | hbarred
    · exact Nat.not_le_of_lt hcap hfull
    · exact hopen hbarred

end

/-- In every run in which no count finds the app full once there is a room of the slug: where a call
has returned a room, it is the one room of the slug, and every call that has come to its own end has
returned it. No call is kept from its end but by a failure outside it. -/
theorem ensured_once (db : Database) (appId : Uuid) (slug : String) (maxRooms : Nat)
    (run : List Statement) (st : State) (hrun : exec step (State.idle db.store) run = some st)
    (hcalls : ∀ l ∈ run, Ensures appId slug maxRooms l = true)
    (hC : Meets step (NoLateCount appId slug) (State.idle db.store) run) :
    (∀ c call room, st.calls c = some (call, .returned room) →
      roomsOfSlug st.rooms.rows appId slug = [room] ∧
        ∀ c' call' phase, st.calls c' = some (call', phase) → phase.isDone = true →
          phase = .returned room) ∧
      ∀ c call phase, st.calls c = some (call, phase) → phase.isBroken = false →
        Finishes st c := by
  have h : OnceInv db.store.apps db.store.rooms appId slug maxRooms st :=
    exec_invariant (fun _ _ _ h hC hs => onceInv_step h hC (of_step hs)) run _ st OnceInv.idle
      (hC.and hcalls) hrun
  refine ⟨fun c call room hc => ?_, fun c call phase hc hwhole => finishes h.toLone hc hwhole⟩
  obtain ⟨hr, hroom⟩ := h.knows c call _ hc
  have hone := h.grown.roomsOfSlug_eq hroom hr
  refine ⟨hone, fun c' call' phase hc' hdone => ?_⟩
  cases phase with
  | returned room' =>
    have hm := mem_roomsOfSlug.2 (h.knows c' call' _ hc')
    rw [hone, List.mem_singleton] at hm
    rw [hm]
  | thrown error => exact absurd hc' (h.not_thrown ⟨room, hr, hroom⟩)
  | _ => cases hdone

/-! ## The last place of the app -/

/-- Both look the slug up, and the room is committed before the second counts. -/
def lateCount : List Statement :=
  [.begin 0 (ensuring "m1"), .begin 1 (ensuring "m1"), .lookup 0, .lookup 1, .count 0, .slugExists 0,
   .findApp 0, .insert 0 (.of "r1"), .commit 0, .count 1]

/-- The call that has lost the race throws, and the room it asks for is there. -/
theorem late_count_throws :
    ¬ ∀ (db : Database) (appId : Uuid) (slug : String) (maxRooms : Nat) (run : List Statement)
      (st : State), exec step (State.idle db.store) run = some st →
      (∀ l ∈ run, Ensures appId slug maxRooms l = true) →
      ∀ c call room, st.calls c = some (call, .returned room) →
        ∀ c' call' phase, st.calls c' = some (call', phase) → phase.isDone = true →
          phase = .returned room := by
  intro hevery
  have hreturned := hevery emptyApp (.of "app") "m1" 1 lateCount _ rfl (by decide) 0 (ensuring "m1") _ rfl
    1 (ensuring "m1") _ rfl rfl
  cases hreturned

/-- The second counts before the room is committed, and finds it after its creation has thrown. -/
def recovered : List Statement :=
  [.begin 0 (ensuring "m1"), .begin 1 (ensuring "m1"), .lookup 0, .lookup 1, .count 0, .count 1,
   .slugExists 0, .findApp 0, .insert 0 (.of "r1"), .commit 0, .slugExists 1, .reread 1]

theorem ensured_once_recovered : ∃ st room,
    exec step (State.idle emptyApp.store) recovered = some st ∧
      roomsOfSlug st.rooms.rows (.of "app") "m1" = [room] ∧
      st.calls 1 = some (ensuring "m1", .returned room) := by
  refine ⟨_, newRoom (ensuring "m1") (.of "r1") (roomTopics emptyApp.store (.of "app")
    (ensuring "m1").data), rfl, ?_, rfl⟩
  refine ((ensured_once emptyApp (.of "app") "m1" 1 recovered _ rfl (by decide) ?_).1 0 (ensuring "m1")
    _ rfl).1
  refine .cons trivial rfl (.cons trivial rfl (.cons trivial rfl (.cons trivial rfl (.cons ?_ rfl
    (.cons ?_ rfl (.cons trivial rfl (.cons trivial rfl (.cons trivial rfl (.cons trivial rfl
      (.cons trivial rfl (.cons trivial rfl trivial)))))))))))
  · intro call hc hle
    cases hc
    exact absurd hle (by decide)
  · intro call hc hle
    cases hc
    exact absurd hle (by decide)

end Ensure
end RoomFacade
end NolagCore
