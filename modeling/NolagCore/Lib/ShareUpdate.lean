import NolagCore.Lib.Calls
import NolagCore.Lib.ReadCommitted
import NolagCore.Lib.Transition

/-!
# Lib.ShareUpdate

Updates of single rows. Each is a transaction that reads its row `FOR SHARE`, writes it and commits,
or is refused where there is no such row. The lock is shared: two updates may hold it together, and
then neither can write before the other has ended, so one of them is aborted. No update is lost: the
finished calls, in the order in which they finished, are a serial execution with the same outcomes.
-/

namespace NolagCore
namespace Lib
namespace ShareUpdate

/-- What one request does: the row it is about and what it makes of it. -/
structure Edit (κ ρ : Type) where
  target : κ
  guard : ρ → Bool
  apply : ρ → ρ

inductive Phase (ρ : Type) where
  | started
  /-- The row is held for share, as it was read. -/
  | loaded (row : ρ)
  /-- What the row is to become. -/
  | written (version : ρ)
  | committed
  | refused
  | aborted
deriving DecidableEq

/-- The phases of a call that has come to its end without being aborted. -/
def Phase.finished {ρ : Type} : Phase ρ → Bool
  | .committed | .refused => true
  | _ => false

structure State (κ ρ ι : Type) where
  table : Table κ ρ
  calls : Pool ι (Phase ρ)

/-- One statement of call `c`, or its end. -/
inductive Label (ι : Type) where
  | start (c : Nat) (i : ι)
  | load (c : Nat)
  | reload (c : Nat)
  | write (c : Nat)
  | commit (c : Nat)
  /-- A deadlock, a lost connection or a refusal: the transaction is rolled back. -/
  | abort (c : Nat)

section

variable {κ ρ ι : Type} [DecidableEq κ] (key : ρ → κ) (edit : ι → Edit κ ρ)

/-- The row an edit is about, as a reader finds it. -/
def Edit.find (e : Edit κ ρ) (rows : List ρ) : Option ρ :=
  rows.find? fun r => decide (key r = e.target) && e.guard r

/-- The row takes the entity's values. -/
def save (entity : ρ) (rows : List ρ) : List ρ :=
  rows.map fun r => if key r = key entity then entity else r

def step [DecidableEq ρ] (s : State κ ρ ι) : Label ι → Option (State κ ρ ι)
  | .start c i =>
    match s.calls c with
    | none => some { s with calls := s.calls.move c i .started }
    | some _ => none
  | .load c =>
    match s.calls c with
    | some (i, .started) =>
      match (edit i).find key s.table.rows with
      | none => some { s with calls := s.calls.move c i .refused }
      | some row =>
        -- waits for a writer of the row to end, and reads what it has left
        if s.table.lockable key c (edit i).target then
          some ⟨s.table.share c (edit i).target, s.calls.move c i (.loaded row)⟩
        else none
    | _ => none
  | .reload c =>
    match s.calls c with
    | some (i, .loaded _) =>
      match (edit i).find key s.table.rows with
      | none => some ⟨s.table.release c, s.calls.move c i .aborted⟩
      | some row => some { s with calls := s.calls.move c i (.loaded row) }
    | _ => none
  | .write c =>
    match s.calls c with
    | some (i, .loaded row) =>
      -- a save that changes no column sends no statement
      if (edit i).apply row = row then some { s with calls := s.calls.move c i (.written row) }
      else if s.table.writable key c (edit i).target then
        some ⟨s.table.write key c ((edit i).apply row),
          s.calls.move c i (.written ((edit i).apply row))⟩
      else none
    | _ => none
  | .commit c =>
    match s.calls c with
    | some (i, .written _) => some ⟨s.table.commit key c, s.calls.move c i .committed⟩
    | _ => none
  | .abort c =>
    match s.calls c with
    | some (i, .started) => some ⟨s.table.release c, s.calls.move c i .aborted⟩
    | some (i, .loaded _) => some ⟨s.table.release c, s.calls.move c i .aborted⟩
    | some (i, .written _) => some ⟨s.table.release c, s.calls.move c i .aborted⟩
    | _ => none

/-- What one step can do. -/
inductive Moves (s : State κ ρ ι) : State κ ρ ι → Prop
  | start {c : Nat} {i : ι} (hc : s.calls c = none) :
    Moves s ⟨s.table, s.calls.move c i .started⟩
  | refuse {c : Nat} {i : ι} (hc : s.calls c = some (i, .started))
    (hf : (edit i).find key s.table.rows = none) : Moves s ⟨s.table, s.calls.move c i .refused⟩
  | load {c : Nat} {i : ι} {row : ρ} (hc : s.calls c = some (i, .started))
    (hf : (edit i).find key s.table.rows = some row)
    (hl : s.table.lockable key c (edit i).target = true) :
    Moves s ⟨s.table.share c (edit i).target, s.calls.move c i (.loaded row)⟩
  | reload {c : Nat} {i : ι} {row row' : ρ} (hc : s.calls c = some (i, .loaded row))
    (hf : (edit i).find key s.table.rows = some row') :
    Moves s ⟨s.table, s.calls.move c i (.loaded row')⟩
  | skip {c : Nat} {i : ι} {row : ρ} (hc : s.calls c = some (i, .loaded row))
    (hsame : (edit i).apply row = row) : Moves s ⟨s.table, s.calls.move c i (.written row)⟩
  | write {c : Nat} {i : ι} {row : ρ} (hc : s.calls c = some (i, .loaded row))
    (hdiff : (edit i).apply row ≠ row) (hw : s.table.writable key c (edit i).target = true) :
    Moves s ⟨s.table.write key c ((edit i).apply row),
      s.calls.move c i (.written ((edit i).apply row))⟩
  | commit {c : Nat} {i : ι} {version : ρ} (hc : s.calls c = some (i, .written version)) :
    Moves s ⟨s.table.commit key c, s.calls.move c i .committed⟩
  | abort {c : Nat} {i : ι} {phase : Phase ρ} (hc : s.calls c = some (i, phase))
    (hopen : phase.finished = false) (hne : phase ≠ .aborted) :
    Moves s ⟨s.table.release c, s.calls.move c i .aborted⟩

theorem moves_of_step [DecidableEq ρ] {s s' : State κ ρ ι} {l : Label ι}
    (hs : step key edit s l = some s') : Moves key edit s s' := by
  unfold step at hs
  cases l with
  | start c i =>
    dsimp only at hs
    split at hs
    · rename_i hc
      cases hs
      exact .start hc
    · cases hs
  | load c =>
    dsimp only at hs
    split at hs
    · rename_i hc
      split at hs
      · rename_i hf
        cases hs
        exact .refuse hc hf
      · rename_i hf
        split at hs
        · rename_i hl
          cases hs
          exact .load hc hf hl
        · cases hs
    · cases hs
  | reload c =>
    dsimp only at hs
    split at hs
    · rename_i hc
      split at hs
      · cases hs
        exact .abort hc rfl (by simp)
      · rename_i hf
        cases hs
        exact .reload hc hf
    · cases hs
  | write c =>
    dsimp only at hs
    split at hs
    · rename_i hc
      split at hs
      · rename_i hsame
        cases hs
        exact .skip hc hsame
      · rename_i hdiff
        split at hs
        · rename_i hw
          cases hs
          exact .write hc hdiff hw
        · cases hs
    · cases hs
  | commit c =>
    dsimp only at hs
    split at hs
    · rename_i hc
      cases hs
      exact .commit hc
    · cases hs
  | abort c =>
    dsimp only at hs
    split at hs
    · rename_i hc
      cases hs
      exact .abort hc rfl (by simp)
    · rename_i hc
      cases hs
      exact .abort hc rfl (by simp)
    · rename_i hc
      cases hs
      exact .abort hc rfl (by simp)
    · cases hs

/-! ## Serial executions -/

/-- One call after another, each to its end: the rows they leave and the calls with their outcomes,
`true` for a commit. -/
inductive Serial (rows₀ : List ρ) : List ρ → List (Nat × ι × Bool) → Prop
  | nil : Serial rows₀ rows₀ []
  | committed {rows : List ρ} {history : List (Nat × ι × Bool)} {c : Nat} {i : ι} {row : ρ}
    (h : Serial rows₀ rows history) (hf : (edit i).find key rows = some row) :
    Serial rows₀ (save key ((edit i).apply row) rows) (history ++ [(c, i, true)])
  | refused {rows : List ρ} {history : List (Nat × ι × Bool)} {c : Nat} {i : ι}
    (h : Serial rows₀ rows history) (hf : (edit i).find key rows = none) :
    Serial rows₀ rows (history ++ [(c, i, false)])

/-- The rows are those of a serial execution of the finished calls. -/
structure Serialized (rows₀ : List ρ) (s : State κ ρ ι) (history : List (Nat × ι × Bool)) : Prop where
  serial : Serial key edit rows₀ s.table.rows history
  lists : s.calls.Lists Phase.finished (history.map fun e => (e.1, e.2.1))
  outcome : ∀ e ∈ history, s.calls e.1 = some (e.2.1, if e.2.2 then .committed else .refused)

/-! ## The invariant -/

/-- The row a call has loaded is the stored one, and the call holds it. -/
structure Holds (t : Table κ ρ) (c : Nat) (e : Edit κ ρ) (row : ρ) : Prop where
  stored : row ∈ t.rows
  atTarget : key row = e.target
  guarded : e.guard row = true
  shared : (e.target, c) ∈ t.shared

/-- The call has written its version, or has none to write. -/
structure HasWritten (t : Table κ ρ) (c : Nat) (e : Edit κ ρ) (version : ρ) : Prop where
  holds : ∃ row, Holds key t c e row ∧ version = e.apply row ∧ (e.apply row ≠ row →
    (c, version) ∈ t.pending)

structure Inv (s : State κ ρ ι) : Prop where
  locked : s.table.WellLocked key
  loaded : ∀ c i row, s.calls c = some (i, .loaded row) → Holds key s.table c (edit i) row
  written : ∀ c i version, s.calls c = some (i, .written version) →
    HasWritten key s.table c (edit i) version
  /-- Only a call that has written has a version of its own. -/
  pending : ∀ c version, (c, version) ∈ s.table.pending →
    ∃ i, s.calls c = some (i, .written version)

variable {key} {edit}

omit [DecidableEq κ] in
/-- What a call holds stands while its row and its lock do. -/
theorem Holds.of_shared {t t' : Table κ ρ} {c : Nat} {e : Edit κ ρ} {row : ρ}
    (h : Holds key t c e row) (hrow : row ∈ t'.rows) (hs : (e.target, c) ∈ t'.shared) :
    Holds key t' c e row :=
  ⟨hrow, h.atTarget, h.guarded, hs⟩

omit [DecidableEq κ] in
theorem Holds.of_release {t : Table κ ρ} {c c' : Nat} {e : Edit κ ρ} {row : ρ} (hne : c' ≠ c)
    (h : Holds key t c' e row) : Holds key (t.release c) c' e row :=
  h.of_shared h.stored (Table.mem_shared_release.2 ⟨h.shared, hne⟩)

theorem Holds.of_commit {t : Table κ ρ} {c c' : Nat} {e : Edit κ ρ} {row : ρ}
    (hlocked : t.WellLocked key) (hne : c' ≠ c) (h : Holds key t c' e row) :
    Holds key (t.commit key c) c' e row :=
  h.of_shared
    ((Table.mem_rows_commit_of_shared hlocked h.shared (Ne.symm hne) h.atTarget).2 h.stored)
    (Table.mem_shared_release.2 ⟨h.shared, hne⟩)

theorem of_find {e : Edit κ ρ} {rows : List ρ} {row : ρ} (h : e.find key rows = some row) :
    row ∈ rows ∧ key row = e.target ∧ e.guard row = true := by
  have hp := List.find?_some h
  rw [Bool.and_eq_true, decide_eq_true_eq] at hp
  exact ⟨List.mem_of_find?_eq_some h, hp.1, hp.2⟩

/-- Under unique keys the row of an edit is the one a reader finds. -/
theorem find_of_mem {e : Edit κ ρ} {rows : List ρ} (hpk : UniqueOn key rows) {row : ρ}
    (hrow : row ∈ rows) (hkey : key row = e.target) (hguard : e.guard row = true) :
    e.find key rows = some row := by
  cases hf : e.find key rows with
  | none =>
    have hnone := List.find?_eq_none.1 hf row hrow
    exact absurd (by rw [hguard, Bool.and_true]; exact decide_eq_true hkey) hnone
  | some row' =>
    obtain ⟨hrow', hkey', _⟩ := of_find hf
    rw [hpk.eq_of_key hrow' hrow (hkey'.trans hkey.symm)]

omit [DecidableEq κ] in
/-- One call moves: the others keep what they hold and what they have written. -/
theorem Inv.move {s : State κ ρ ι} (h : Inv key edit s) {t : Table κ ρ} {c : Nat} {i : ι}
    {phase : Phase ρ} (hlocked : t.WellLocked key)
    (hothers : ∀ c' e row, c' ≠ c → Holds key s.table c' e row → Holds key t c' e row)
    (hpending : ∀ c' v, c' ≠ c → ((c', v) ∈ t.pending ↔ (c', v) ∈ s.table.pending))
    (hloaded : ∀ row, phase = .loaded row → Holds key t c (edit i) row)
    (hwritten : ∀ v, phase = .written v → HasWritten key t c (edit i) v)
    (hown : ∀ v, (c, v) ∈ t.pending → phase = .written v) :
    Inv key edit ⟨t, s.calls.move c i phase⟩ where
  locked := hlocked
  loaded := by
    intro c' i' row hc
    rcases Pool.of_move hc with ⟨rfl, rfl, hphase⟩ | ⟨hne, hold⟩
    · exact hloaded row hphase.symm
    · exact hothers c' _ row hne (h.loaded c' i' row hold)
  written := by
    intro c' i' v hc
    rcases Pool.of_move hc with ⟨rfl, rfl, hphase⟩ | ⟨hne, hold⟩
    · exact hwritten v hphase.symm
    · obtain ⟨row, hholds, hv, hp⟩ := (h.written c' i' v hold).holds
      exact ⟨row, hothers c' _ row hne hholds, hv, fun hd => (hpending c' v hne).2 (hp hd)⟩
  pending := by
    intro c' v hv
    by_cases hne : c' = c
    · subst hne
      exact ⟨i, (s.calls.move_self c' i phase).trans (by rw [hown v hv])⟩
    · obtain ⟨i', hold⟩ := h.pending c' v ((hpending c' v hne).1 hv)
      exact ⟨i', (s.calls.move_ne i phase hne).trans hold⟩

omit [DecidableEq κ] in
theorem Inv.no_pending {s : State κ ρ ι} (h : Inv key edit s) {c : Nat}
    (hc : ∀ i version, s.calls c ≠ some (i, .written version)) (v : ρ) :
    (c, v) ∉ s.table.pending := by
  intro hv
  obtain ⟨i, hw⟩ := h.pending c v hv
  exact hc i v hw

omit [DecidableEq κ] in
/-- A call that ends without a commit. -/
theorem Inv.rollback {s : State κ ρ ι} (h : Inv key edit s) {c : Nat} {i : ι} :
    Inv key edit ⟨s.table.release c, s.calls.move c i .aborted⟩ := by
  refine h.move h.locked.release (fun c' e row hne hh => hh.of_release hne) (fun c' v hne => ?_)
    (fun row hp => ?_) (fun v hp => ?_) (fun v hv => ?_)
  · rw [Table.mem_pending_release]
    exact ⟨And.left, fun hv => ⟨hv, hne⟩⟩
  · cases hp
  · cases hp
  · exact absurd rfl (Table.mem_pending_release.1 hv).2

section

variable (hkey : ∀ i row, key row = (edit i).target → key ((edit i).apply row) = key row)

include hkey

theorem inv_step {s s' : State κ ρ ι} (h : Inv key edit s) (hs : Moves key edit s s') :
    Inv key edit s' := by
  cases hs with
  | start hc =>
    have hnone := h.no_pending fun i v hw => by rw [hc] at hw; cases hw
    exact h.move h.locked (fun _ _ _ _ hh => hh) (fun _ _ _ => Iff.rfl) (by simp) (by simp)
      fun v hv => absurd hv (hnone v)
  | refuse hc _ =>
    have hnone := h.no_pending fun i v hw => by rw [hc] at hw; cases hw
    exact h.move h.locked (fun _ _ _ _ hh => hh) (fun _ _ _ => Iff.rfl) (by simp) (by simp)
      fun v hv => absurd hv (hnone v)
  | load hc hf hl =>
    have hnone := h.no_pending fun i v hw => by rw [hc] at hw; cases hw
    obtain ⟨hrow, hat, hguard⟩ := of_find hf
    refine h.move (h.locked.share hl)
      (fun c' e row' _ hh => hh.of_shared hh.stored (List.mem_cons_of_mem _ hh.shared))
      (fun _ _ _ => Iff.rfl) (fun row' hp => ?_) (by simp) fun v hv => absurd hv (hnone v)
    cases hp
    exact ⟨hrow, hat, hguard, List.mem_cons_self⟩
  | reload hc hf =>
    have hnone := h.no_pending fun i v hw => by rw [hc] at hw; cases hw
    obtain ⟨hrow, hat, hguard⟩ := of_find hf
    refine h.move h.locked (fun _ _ _ _ hh => hh) (fun _ _ _ => Iff.rfl) (fun row'' hp => ?_)
      (by simp) fun v hv => absurd hv (hnone v)
    cases hp
    exact ⟨hrow, hat, hguard, (h.loaded _ _ _ hc).shared⟩
  | skip hc hsame =>
    have hnone := h.no_pending fun i v hw => by rw [hc] at hw; cases hw
    refine h.move h.locked (fun _ _ _ _ hh => hh) (fun _ _ _ => Iff.rfl) (by simp) (fun v hp => ?_)
      fun v hv => absurd hv (hnone v)
    cases hp
    exact ⟨_, h.loaded _ _ _ hc, hsame.symm, fun hd => absurd hsame hd⟩
  | @write c i row hc _ hw =>
    have hnone := h.no_pending fun i v hw => by rw [hc] at hw; cases hw
    have hholds := h.loaded c i row hc
    have hk : key ((edit i).apply row) = (edit i).target :=
      (hkey i row hholds.atTarget).trans hholds.atTarget
    have hother : ∀ c' v, c' ≠ c → (c', v) ∈ s.table.pending →
        key v ≠ key ((edit i).apply row) := by
      intro c' v hne hv heq
      exact hne ((Table.writable_iff.1 hw).1 (c', v) hv (heq.trans hk))
    refine h.move (h.locked.write (by rw [hk]; exact hw))
      (fun _ _ _ _ hh => hh.of_shared hh.stored hh.shared) (fun c' v hne => ?_) (by simp)
      (fun v hp => ?_) fun v hv => ?_
    · rw [Table.mem_pending_write]
      constructor
      · rintro (heq | ⟨hv, _⟩)
        · cases heq
          exact absurd rfl hne
        · exact hv
      · exact fun hv => .inr ⟨hv, hother c' v hne hv⟩
    · cases hp
      exact ⟨row, hholds.of_shared hholds.stored hholds.shared, rfl,
        fun _ => Table.mem_pending_write.2 (.inl rfl)⟩
    · rcases Table.mem_pending_write.1 hv with heq | ⟨hv, _⟩
      · cases heq
        rfl
      · exact absurd hv (hnone v)
  | commit hc =>
    refine h.move h.locked.commit (fun c' e row hne hh => hh.of_commit h.locked hne)
      (fun c' v hne => ?_) (by simp) (by simp) fun v hv => ?_
    · exact Table.mem_pending_release.trans ⟨And.left, fun hv => ⟨hv, hne⟩⟩
    · exact absurd rfl (Table.mem_pending_release.1 hv).2
  | abort _ _ _ => exact h.rollback

end

/-! ## No update is lost -/

/-- A call that is not at its end moves, and the rows stay. -/
theorem Serialized.idle {rows₀ : List ρ} {s : State κ ρ ι} {history : List (Nat × ι × Bool)}
    (h : Serialized key edit rows₀ s history) {t : Table κ ρ} {c : Nat} {i : ι} {phase : Phase ρ}
    (hc : ∀ i phase, s.calls c = some (i, phase) → phase.finished = false)
    (hphase : phase.finished = false) (hrows : t.rows = s.table.rows) :
    Serialized key edit rows₀ ⟨t, s.calls.move c i phase⟩ history where
  serial := by
    have hserial := h.serial
    rw [← hrows] at hserial
    exact hserial
  lists := h.lists.stay (.inr ⟨fun i' phase' hp => hc i' phase' hp, hphase⟩)
  outcome := by
    intro e he
    have hne : e.1 ≠ c := by
      rintro rfl
      exact h.lists.not_mem hc (List.mem_map_of_mem (List.mem_map_of_mem he))
    exact (s.calls.move_ne i phase hne).trans (h.outcome e he)

/-- A call comes to its end as the next one of the serial execution. -/
theorem Serialized.record {rows₀ : List ρ} {s : State κ ρ ι} {history : List (Nat × ι × Bool)}
    (h : Serialized key edit rows₀ s history) {t : Table κ ρ} {c : Nat} {i : ι} (done : Bool)
    (hc : ∀ i phase, s.calls c = some (i, phase) → phase.finished = false)
    (hserial : Serial key edit rows₀ t.rows (history ++ [(c, i, done)])) :
    Serialized key edit rows₀ ⟨t, s.calls.move c i (if done then .committed else .refused)⟩
      (history ++ [(c, i, done)]) where
  serial := hserial
  lists := by
    rw [List.map_append]
    exact h.lists.append hc (by cases done <;> rfl)
  outcome := by
    intro e he
    rcases List.mem_append.1 he with hold | hnew
    · have hne : e.1 ≠ c := by
        rintro rfl
        exact h.lists.not_mem hc (List.mem_map_of_mem (List.mem_map_of_mem hold))
      exact (s.calls.move_ne i _ hne).trans (h.outcome e hold)
    · cases List.mem_singleton.1 hnew
      exact s.calls.move_self c i _

/-- A transaction publishes its one version, or nothing where it had nothing to write. -/
theorem rows_commit {s : State κ ρ ι} (h : Inv key edit s) {c : Nat} {i : ι} {row version : ρ}
    (hc : s.calls c = some (i, .written version)) (hholds : Holds key s.table c (edit i) row)
    (hv : version = (edit i).apply row) (hk : key version = key row)
    (hp : (edit i).apply row ≠ row → (c, version) ∈ s.table.pending) :
    (s.table.commit key c).rows = save key version s.table.rows := by
  have honly : ∀ v ∈ s.table.versionsOf c, v = version := by
    intro v hm
    obtain ⟨i', hw⟩ := h.pending c v (Table.mem_versionsOf.1 hm)
    rw [hc] at hw
    cases hw
    rfl
  have hpublish : (s.table.commit key c).rows =
      Table.publish key (s.table.versionsOf c) s.table.rows := rfl
  rw [hpublish]
  cases hvs : s.table.versionsOf c with
  | nil =>
    have hsame : version = row := by
      rw [hv]
      refine Classical.byContradiction fun hd => ?_
      have hm := Table.mem_versionsOf.2 (hp hd)
      rw [hvs] at hm
      cases hm
    rw [hsame]
    refine Eq.trans ?_ (Table.save_self h.locked.rows hholds.stored).symm
    simp [Table.publish]
  | cons v vs =>
    have hnodup : UniqueOn key (v :: vs) := hvs ▸ h.locked.versionsOf (c := c)
    rw [hvs] at honly
    have hvs' : vs = [] := by
      cases vs with
      | nil => rfl
      | cons v' vs =>
        have heq : key v = key v' := by
          rw [honly v List.mem_cons_self, honly v' (List.mem_cons_of_mem _ List.mem_cons_self)]
        exact absurd (heq ▸ List.mem_cons_self) (List.nodup_cons.1 hnodup).1
    rw [hvs', honly v List.mem_cons_self]
    exact (Table.publish_save h.locked.rows hholds.stored hk).symm

section

variable (hkey : ∀ i row, key row = (edit i).target → key ((edit i).apply row) = key row)

include hkey

theorem serialized_step {rows₀ : List ρ} {s s' : State κ ρ ι} {history : List (Nat × ι × Bool)}
    (hI : Inv key edit s) (h : Serialized key edit rows₀ s history) (hs : Moves key edit s s') :
    ∃ history', Serialized key edit rows₀ s' history' := by
  cases hs with
  | start hc => exact ⟨history, h.idle (fun i' phase' hp => by rw [hc] at hp; cases hp) rfl rfl⟩
  | refuse hc hf => exact ⟨_, h.record false (Pool.phase_of hc rfl) (.refused h.serial hf)⟩
  | load hc _ _ => exact ⟨history, h.idle (Pool.phase_of hc rfl) rfl rfl⟩
  | reload hc _ => exact ⟨history, h.idle (Pool.phase_of hc rfl) rfl rfl⟩
  | skip hc _ => exact ⟨history, h.idle (Pool.phase_of hc rfl) rfl rfl⟩
  | write hc _ _ => exact ⟨history, h.idle (Pool.phase_of hc rfl) rfl rfl⟩
  | @commit c i version hc =>
    obtain ⟨row, hholds, rfl, hp⟩ := (hI.written c i version hc).holds
    have hf := find_of_mem hI.locked.rows hholds.stored hholds.atTarget hholds.guarded
    have hrows := rows_commit hI hc hholds rfl (hkey i row hholds.atTarget) hp
    refine ⟨_, h.record true (Pool.phase_of hc rfl) ?_⟩
    rw [hrows]
    exact .committed h.serial hf
  | abort hc hopen _ => exact ⟨history, h.idle (Pool.phase_of hc hopen) rfl rfl⟩

/-- Whatever the interleaving, the rows are those the finished calls leave when they are executed one
after another, each with the outcome it had. -/
theorem serialized_run [DecidableEq ρ] {rows₀ : List ρ} (hpk : UniqueOn key rows₀) {run : List (Label ι)}
    {s : State κ ρ ι} (hrun : exec (step key edit) ⟨{ rows := rows₀ }, Pool.empty⟩ run = some s) :
    Inv key edit s ∧ ∃ history, Serialized key edit rows₀ s history := by
  refine exec_invariant (I := fun s => Inv key edit s ∧ ∃ history, Serialized key edit rows₀ s history)
    (C := fun _ _ => True) ?_ run _ s ?_ (.of_forall fun _ _ => trivial) hrun
  · rintro s l s' ⟨hI, history, h⟩ _ hs
    have hmoves := moves_of_step key edit hs
    exact ⟨inv_step hkey hI hmoves, serialized_step hkey hI h hmoves⟩
  · refine ⟨⟨.of_rows hpk, ?_, ?_, ?_⟩, [], ⟨.nil, .nil, ?_⟩⟩
    · intro c i row hc
      cases hc
    · intro c i version hc
      cases hc
    · intro c version hv
      cases hv
    · intro e he
      cases he

end

/-! ## Two updates that hold one row -/

/-- Neither of two calls that hold the row has ended, or one of them has been aborted. -/
def Contended (s : State κ ρ ι) (c c' : Nat) (i i' : ι) (row : ρ) : Prop :=
  (s.calls c = some (i, .loaded row) ∧ s.calls c' = some (i', .loaded row)) ∨
    s.calls c = some (i, .aborted) ∨ s.calls c' = some (i', .aborted)

theorem aborted_step {s s' : State κ ρ ι} (hs : Moves key edit s s') {c : Nat} {i : ι}
    (hc : s.calls c = some (i, .aborted)) : s'.calls c = some (i, .aborted) := by
  have hmoved : ∃ c₀ i₀ phase, s'.calls = s.calls.move c₀ i₀ phase ∧
      ∀ i', s.calls c₀ ≠ some (i', .aborted) := by
    cases hs with
    | start hc₀ => exact ⟨_, _, _, rfl, fun _ h => by rw [hc₀] at h; cases h⟩
    | refuse hc₀ _ => exact ⟨_, _, _, rfl, fun _ h => by rw [hc₀] at h; cases h⟩
    | load hc₀ _ _ => exact ⟨_, _, _, rfl, fun _ h => by rw [hc₀] at h; cases h⟩
    | reload hc₀ _ => exact ⟨_, _, _, rfl, fun _ h => by rw [hc₀] at h; cases h⟩
    | skip hc₀ _ => exact ⟨_, _, _, rfl, fun _ h => by rw [hc₀] at h; cases h⟩
    | write hc₀ _ _ => exact ⟨_, _, _, rfl, fun _ h => by rw [hc₀] at h; cases h⟩
    | commit hc₀ => exact ⟨_, _, _, rfl, fun _ h => by rw [hc₀] at h; cases h⟩
    | abort hc₀ _ hne => exact ⟨_, _, _, rfl, fun _ h => by rw [hc₀] at h; cases h; exact hne rfl⟩
  obtain ⟨c₀, i₀, phase, heq, hne⟩ := hmoved
  rw [heq]
  refine (s.calls.move_ne i₀ phase ?_).trans hc
  rintro rfl
  exact hne i hc

/-- A call that holds a row which another holds too cannot write it: it goes on holding it, or is
aborted. -/
theorem held_step {s s' : State κ ρ ι} (hI : Inv key edit s) (hs : Moves key edit s s') {c c' : Nat}
    {i : ι} {row : ρ} (hne : c' ≠ c) (hc : s.calls c = some (i, .loaded row))
    (hdiff : (edit i).apply row ≠ row) (hother : ((edit i).target, c') ∈ s.table.shared) :
    s'.calls c = some (i, .loaded row) ∨ s'.calls c = some (i, .aborted) := by
  have hstay : ∀ {c₀ : Nat} {i₀ : ι} {phase : Phase ρ}, c ≠ c₀ →
      s.calls.move c₀ i₀ phase c = some (i, .loaded row) :=
    fun h => (s.calls.move_ne _ _ h).trans hc
  have hholds := hI.loaded c i row hc
  cases hs with
  | @start c₀ _ hc₀ =>
    refine .inl (hstay ?_)
    rintro rfl
    rw [hc] at hc₀
    cases hc₀
  | @refuse c₀ _ hc₀ _ =>
    refine .inl (hstay ?_)
    rintro rfl
    rw [hc] at hc₀
    cases hc₀
  | @load c₀ _ _ hc₀ _ _ =>
    refine .inl (hstay ?_)
    rintro rfl
    rw [hc] at hc₀
    cases hc₀
  | @reload c₀ _ _ _ hc₀ hf =>
    by_cases heq : c = c₀
    · subst heq
      rw [hc] at hc₀
      cases hc₀
      -- the stored row is the one that is held
      rw [find_of_mem hI.locked.rows hholds.stored hholds.atTarget hholds.guarded] at hf
      cases hf
      exact .inl (s.calls.move_self c i _)
    · exact .inl (hstay heq)
  | @skip c₀ _ _ hc₀ hsame =>
    refine .inl (hstay ?_)
    rintro rfl
    rw [hc] at hc₀
    cases hc₀
    exact hdiff hsame
  | @write c₀ _ _ hc₀ _ hw =>
    refine .inl (hstay ?_)
    rintro rfl
    rw [hc] at hc₀
    cases hc₀
    exact hne ((Table.writable_iff.1 hw).2 _ hother rfl)
  | @commit c₀ _ _ hc₀ =>
    refine .inl (hstay ?_)
    rintro rfl
    rw [hc] at hc₀
    cases hc₀
  | @abort c₀ _ _ hc₀ _ _ =>
    by_cases heq : c = c₀
    · subst heq
      rw [hc] at hc₀
      cases hc₀
      exact .inr (s.calls.move_self c i _)
    · exact .inl (hstay heq)

theorem contended_step {s s' : State κ ρ ι} (hI : Inv key edit s) (hs : Moves key edit s s')
    {c c' : Nat} {i i' : ι} {row : ρ} (hne : c' ≠ c) (hdiff : (edit i).apply row ≠ row)
    (hdiff' : (edit i').apply row ≠ row) (h : Contended s c c' i i' row) :
    Contended s' c c' i i' row := by
  rcases h with ⟨hc, hc'⟩ | hc | hc'
  · have hholds := hI.loaded c i row hc
    have hholds' := hI.loaded c' i' row hc'
    have htarget : (edit i').target = (edit i).target := hholds'.atTarget.symm.trans hholds.atTarget
    rcases held_step hI hs hne hc hdiff (htarget ▸ hholds'.shared) with hc₁ | habort
    · rcases held_step hI hs (Ne.symm hne) hc' hdiff' (htarget ▸ hholds.shared) with hc₁' | habort
      · exact .inl ⟨hc₁, hc₁'⟩
      · exact .inr (.inr habort)
    · exact .inr (.inl habort)
  · exact .inr (.inl (aborted_step hs hc))
  · exact .inr (.inr (aborted_step hs hc'))

/-- Of two calls that hold one row and would both change it, at most one commits. -/
theorem one_of_two [DecidableEq ρ]
    (hkey : ∀ i row, key row = (edit i).target → key ((edit i).apply row) = key row)
    {s s' : State κ ρ ι} {run : List (Label ι)} (hI : Inv key edit s)
    (hrun : exec (step key edit) s run = some s') {c c' : Nat} {i i' : ι} {row : ρ} (hne : c' ≠ c)
    (hc : s.calls c = some (i, .loaded row)) (hc' : s.calls c' = some (i', .loaded row))
    (hdiff : (edit i).apply row ≠ row) (hdiff' : (edit i').apply row ≠ row) :
    ¬ (s'.calls c = some (i, .committed) ∧ s'.calls c' = some (i', .committed)) := by
  have hend : Inv key edit s' ∧ Contended s' c c' i i' row := by
    refine exec_invariant (I := fun s => Inv key edit s ∧ Contended s c c' i i' row)
      (C := fun _ _ => True) ?_ run s s' ⟨hI, .inl ⟨hc, hc'⟩⟩ (.of_forall fun _ _ => trivial) hrun
    rintro s₁ l s₂ ⟨hI, h⟩ _ hs
    have hmoves := moves_of_step key edit hs
    exact ⟨inv_step hkey hI hmoves, contended_step hI hmoves hne hdiff hdiff' h⟩
  rintro ⟨hdone, hdone'⟩
  rcases hend.2 with ⟨h, _⟩ | h | h
  · rw [hdone] at h
    cases h
  · rw [hdone] at h
    cases h
  · rw [hdone'] at h
    cases h

end

end ShareUpdate
end Lib
end NolagCore
