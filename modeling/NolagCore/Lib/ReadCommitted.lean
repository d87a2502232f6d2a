import NolagCore.Lib.SoftTable

/-!
# Lib.ReadCommitted

A table under READ COMMITTED, with row locks. A reader sees the committed rows. A transaction that
writes a row holds it, with the version it has written, until it ends; `SELECT ... FOR SHARE` holds a
row against every writer but the holder. A transaction that ends drops what it holds, and one that
commits publishes its versions.
-/

namespace NolagCore
namespace Lib

structure Table (κ ρ : Type) where
  rows : List ρ
  /-- The versions that open transactions have written. -/
  pending : List (Nat × ρ) := []
  /-- The rows held by `FOR SHARE`. -/
  shared : List (κ × Nat) := []

namespace Table

variable {κ ρ : Type} [DecidableEq κ] (key : ρ → κ)

/-! ## Statements -/

/-- No other transaction has written the row of `k`. -/
def lockable (t : Table κ ρ) (c : Nat) (k : κ) : Bool :=
  t.pending.all fun e => decide (e.1 = c) || decide (key e.2 ≠ k)

/-- No other transaction has written it, and none holds it for share. -/
def writable (t : Table κ ρ) (c : Nat) (k : κ) : Bool :=
  t.lockable key c k && t.shared.all fun l => decide (l.1 ≠ k) || decide (l.2 = c)

def share (t : Table κ ρ) (c : Nat) (k : κ) : Table κ ρ := { t with shared := (k, c) :: t.shared }

/-- An INSERT or an UPDATE of one row. -/
def write (t : Table κ ρ) (c : Nat) (version : ρ) : Table κ ρ :=
  { t with pending := (c, version) :: t.pending.filter fun e => decide (key e.2 ≠ key version) }

/-- The end of a transaction that is rolled back. -/
def release (t : Table κ ρ) (c : Nat) : Table κ ρ :=
  { t with
    pending := t.pending.filter fun e => decide (e.1 ≠ c)
    shared := t.shared.filter fun l => decide (l.2 ≠ c) }

def versionsOf (t : Table κ ρ) (c : Nat) : List ρ :=
  (t.pending.filter fun e => decide (e.1 = c)).map Prod.snd

/-- Every version takes the place of the row it was made from, or is a new row. -/
def publish (versions rows : List ρ) : List ρ :=
  (rows.map fun r => (versions.find? fun v => decide (key v = key r)).getD r) ++
    versions.filter fun v => decide (key v ∉ rows.map key)

def commit (t : Table κ ρ) (c : Nat) : Table κ ρ :=
  { t.release c with rows := publish key (t.versionsOf c) t.rows }

/-! ## Published rows -/

variable {key}

theorem key_getD_find? (versions : List ρ) (r : ρ) :
    key ((versions.find? fun v => decide (key v = key r)).getD r) = key r := by
  cases hf : versions.find? fun v => decide (key v = key r) with
  | none => rfl
  | some v => simpa using List.find?_some hf

theorem mem_publish {versions rows : List ρ} (hu : UniqueOn key versions) {r : ρ} :
    r ∈ publish key versions rows ↔
      r ∈ versions ∨ r ∈ rows ∧ ∀ v ∈ versions, key v ≠ key r := by
  unfold publish
  rw [List.mem_append, List.mem_map, List.mem_filter, decide_eq_true_eq]
  constructor
  · rintro (⟨r₀, hr₀, rfl⟩ | ⟨hr, _⟩)
    · cases hf : versions.find? fun v => decide (key v = key r₀) with
      | none =>
        refine .inr ⟨hr₀, fun v hv hk => ?_⟩
        exact List.find?_eq_none.1 hf v hv (decide_eq_true hk)
      | some v => exact .inl (List.mem_of_find?_eq_some hf)
    · exact .inl hr
  · rintro (hr | ⟨hr, hnone⟩)
    · by_cases hk : key r ∈ rows.map key
      · obtain ⟨r₀, hr₀, hkey⟩ := List.mem_map.1 hk
        refine .inl ⟨r₀, hr₀, ?_⟩
        cases hf : versions.find? fun v => decide (key v = key r₀) with
        | none => exact absurd (decide_eq_true hkey.symm) (List.find?_eq_none.1 hf r hr)
        | some v =>
          have hkv : key v = key r₀ := by simpa using List.find?_some hf
          exact hu.eq_of_key (List.mem_of_find?_eq_some hf) hr (hkv.trans hkey)
      · exact .inr ⟨hr, hk⟩
    · refine .inl ⟨r, hr, ?_⟩
      have hf : (versions.find? fun v => decide (key v = key r)) = none :=
        List.find?_eq_none.2 fun v hv hk => hnone v hv (of_decide_eq_true hk)
      rw [hf]
      rfl

theorem map_key_publish (versions rows : List ρ) : (publish key versions rows).map key =
    rows.map key ++ (versions.filter fun v => decide (key v ∉ rows.map key)).map key := by
  unfold publish
  rw [List.map_append, List.map_map]
  congr 1
  exact List.map_congr_left fun r _ => key_getD_find? versions r

theorem uniqueOn_publish {versions rows : List ρ} (hv : UniqueOn key versions)
    (hr : UniqueOn key rows) : UniqueOn key (publish key versions rows) := by
  unfold UniqueOn
  rw [map_key_publish]
  refine List.Nodup.append hr (hv.filter _) fun k hk hk' => ?_
  obtain ⟨v, hm, rfl⟩ := List.mem_map.1 hk'
  exact of_decide_eq_true (List.mem_filter.1 hm).2 hk

/-- An INSERT publishes one version. -/
theorem publish_append {version : ρ} {rows : List ρ} (h : ∀ r ∈ rows, key r ≠ key version) :
    rows ++ [version] = publish key [version] rows := by
  have hsame : (rows.map fun r => ([version].find? fun v => decide (key v = key r)).getD r) =
      rows.map id := by
    refine List.map_congr_left fun r hr => ?_
    simp [Ne.symm (h r hr)]
  have hnew : key version ∉ rows.map key := by
    intro hm
    obtain ⟨r, hr, hk⟩ := List.mem_map.1 hm
    exact h r hr hk
  unfold publish
  rw [hsame, List.map_id]
  congr 1
  exact (List.filter_eq_self.2 fun v hv => by simpa [List.mem_singleton.1 hv] using hnew).symm

/-- So does an UPDATE that finds one row. -/
theorem publish_update {rows : List ρ} (hpk : UniqueOn key rows) {row : ρ} (hm : row ∈ rows)
    {p : ρ → Bool} {f : ρ → ρ} (hp : ∀ r ∈ rows, p r = decide (key r = key row))
    (hf : key (f row) = key row) :
    (rows.map fun r => if p r then f r else r) = publish key [f row] rows := by
  have hnil : [f row].filter (fun v => decide (key v ∉ rows.map key)) = [] := by
    refine List.filter_eq_nil_iff.2 fun v hv => ?_
    rw [List.mem_singleton.1 hv, hf]
    simpa using ⟨row, hm, rfl⟩
  unfold publish
  rw [hnil, List.append_nil]
  refine List.map_congr_left fun r hr => ?_
  rw [hp r hr]
  by_cases hk : key r = key row
  · cases hpk.eq_of_key hr hm hk
    simp [hf]
  · simp [hf, hk, Ne.symm hk]

/-- And so does a save of an entity that has a row. -/
theorem publish_save {rows : List ρ} (hpk : UniqueOn key rows) {row entity : ρ} (hm : row ∈ rows)
    (hk : key entity = key row) :
    (rows.map fun r => if key r = key entity then entity else r) = publish key [entity] rows := by
  have h := publish_update (p := fun r => decide (key r = key entity)) (f := fun _ => entity) hpk hm
    (fun r _ => by rw [hk]) hk
  simpa using h

/-- A save of a row as it is changes nothing. -/
theorem save_self {rows : List ρ} (hpk : UniqueOn key rows) {row : ρ} (hm : row ∈ rows) :
    (rows.map fun r => if key r = key row then row else r) = rows := by
  refine (List.map_congr_left fun r hr => ?_).trans (List.map_id _)
  split
  · rename_i hk
    exact (hpk.eq_of_key hr hm hk).symm
  · rfl

/-- A transaction that writes one row, with nothing beside it. -/
theorem rows_commit_write {t : Table κ ρ} (h : t.pending = []) (c : Nat) (version : ρ) :
    ((t.write key c version).commit key c).rows = publish key [version] t.rows := by
  simp [commit, versionsOf, write, h]

/-- A transaction that writes nothing leaves the rows. -/
theorem rows_commit_nothing {t : Table κ ρ} (h : t.pending = []) (c : Nat) :
    (t.commit key c).rows = t.rows := by
  simp [commit, versionsOf, publish, h]

/-! ## Locks -/

variable (key) in
/-- Rows have distinct keys, one transaction at a time writes a row, and none writes a row that
another holds for share. -/
structure WellLocked (t : Table κ ρ) : Prop where
  rows : UniqueOn key t.rows
  pending : UniqueOn (fun e => key e.2) t.pending
  exclusive : ∀ e ∈ t.pending, ∀ l ∈ t.shared, l.1 = key e.2 → l.2 = e.1

variable {t : Table κ ρ} {c c' : Nat}

omit [DecidableEq κ] in
theorem WellLocked.of_rows {rows : List ρ} (h : UniqueOn key rows) :
    WellLocked key ({ rows } : Table κ ρ) where
  rows := h
  pending := List.nodup_nil
  exclusive := fun _ he => nomatch he

theorem lockable_iff {k : κ} :
    t.lockable key c k = true ↔ ∀ e ∈ t.pending, key e.2 = k → e.1 = c := by
  unfold lockable
  simp only [List.all_eq_true, Bool.or_eq_true, decide_eq_true_eq]
  refine forall_congr' fun e => forall_congr' fun _ => ?_
  constructor
  · rintro (h | h) hk
    · exact h
    · exact absurd hk h
  · intro h
    by_cases hk : key e.2 = k
    · exact .inl (h hk)
    · exact .inr hk

theorem writable_iff {k : κ} : t.writable key c k = true ↔
    (∀ e ∈ t.pending, key e.2 = k → e.1 = c) ∧ ∀ l ∈ t.shared, l.1 = k → l.2 = c := by
  unfold writable
  rw [Bool.and_eq_true, lockable_iff]
  refine and_congr Iff.rfl ?_
  simp only [List.all_eq_true, Bool.or_eq_true, decide_eq_true_eq]
  refine forall_congr' fun l => forall_congr' fun _ => ?_
  constructor
  · rintro (h | h) hk
    · exact absurd hk h
    · exact h
  · intro h
    by_cases hk : l.1 = k
    · exact .inr (h hk)
    · exact .inl hk

omit [DecidableEq κ] in
theorem mem_versionsOf {v : ρ} : v ∈ t.versionsOf c ↔ (c, v) ∈ t.pending := by
  unfold versionsOf
  rw [List.mem_map]
  constructor
  · rintro ⟨⟨c', v'⟩, hm, rfl⟩
    obtain ⟨hm, hc⟩ := List.mem_filter.1 hm
    have hc : c' = c := of_decide_eq_true hc
    exact hc ▸ hm
  · intro hm
    exact ⟨(c, v), List.mem_filter.2 ⟨hm, decide_eq_true rfl⟩, rfl⟩

omit [DecidableEq κ] in
theorem WellLocked.versionsOf (h : t.WellLocked key) : UniqueOn key (t.versionsOf c) := by
  unfold UniqueOn Table.versionsOf
  rw [List.map_map]
  exact h.pending.filter _

/-- After a commit the table holds the versions of that transaction and the rows it did not write. -/
theorem mem_rows_commit (h : t.WellLocked key) {r : ρ} : r ∈ (t.commit key c).rows ↔
    (c, r) ∈ t.pending ∨ r ∈ t.rows ∧ ∀ v, (c, v) ∈ t.pending → key v ≠ key r := by
  have hp : r ∈ (t.commit key c).rows ↔ _ := mem_publish h.versionsOf
  rw [hp, mem_versionsOf]
  refine or_congr Iff.rfl (and_congr Iff.rfl ?_)
  exact forall_congr' fun v => by rw [mem_versionsOf]

theorem mem_pending_write {version : ρ} {e : Nat × ρ} : e ∈ (t.write key c version).pending ↔
    e = (c, version) ∨ e ∈ t.pending ∧ key e.2 ≠ key version := by
  unfold write
  rw [List.mem_cons, List.mem_filter, decide_eq_true_eq]

omit [DecidableEq κ] in
theorem mem_pending_release {e : Nat × ρ} :
    e ∈ (t.release c).pending ↔ e ∈ t.pending ∧ e.1 ≠ c := by
  unfold release
  rw [List.mem_filter, decide_eq_true_eq]

omit [DecidableEq κ] in
theorem mem_shared_release {l : κ × Nat} :
    l ∈ (t.release c).shared ↔ l ∈ t.shared ∧ l.2 ≠ c := by
  unfold release
  rw [List.mem_filter, decide_eq_true_eq]

theorem WellLocked.share (h : t.WellLocked key) {k : κ} (hl : t.lockable key c k = true) :
    (t.share c k).WellLocked key where
  rows := h.rows
  pending := h.pending
  exclusive := by
    intro e he l hm hk
    rcases List.mem_cons.1 hm with rfl | hm
    · exact (lockable_iff.1 hl e he hk.symm).symm
    · exact h.exclusive e he l hm hk

theorem WellLocked.write (h : t.WellLocked key) {version : ρ}
    (hw : t.writable key c (key version) = true) : (t.write key c version).WellLocked key where
  rows := h.rows
  pending := by
    unfold UniqueOn Table.write
    rw [List.map_cons, List.nodup_cons]
    refine ⟨fun hm => ?_, h.pending.filter _⟩
    obtain ⟨e, he, hk⟩ := List.mem_map.1 hm
    exact of_decide_eq_true (List.mem_filter.1 he).2 hk
  exclusive := by
    intro e he l hm hk
    rcases mem_pending_write.1 he with rfl | ⟨he, _⟩
    · exact (writable_iff.1 hw).2 l hm hk
    · exact h.exclusive e he l hm hk

omit [DecidableEq κ] in
theorem WellLocked.release (h : t.WellLocked key) : (t.release c).WellLocked key where
  rows := h.rows
  pending := h.pending.filter _
  exclusive := fun e he l hm hk =>
    h.exclusive e (mem_pending_release.1 he).1 l (mem_shared_release.1 hm).1 hk

theorem WellLocked.commit (h : t.WellLocked key) : (t.commit key c).WellLocked key where
  rows := uniqueOn_publish h.versionsOf h.rows
  pending := h.release.pending
  exclusive := h.release.exclusive

/-- A row held for share is moved by its holder alone. -/
theorem mem_rows_commit_of_shared (h : t.WellLocked key) {k : κ} (hs : (k, c) ∈ t.shared)
    (hne : c' ≠ c) {r : ρ} (hk : key r = k) : r ∈ (t.commit key c').rows ↔ r ∈ t.rows := by
  have hfree : ∀ v, (c', v) ∈ t.pending → key v ≠ key r := by
    intro v hv heq
    exact hne (h.exclusive (c', v) hv (k, c) hs (hk.symm.trans heq.symm)).symm
  rw [mem_rows_commit h]
  constructor
  · rintro (hv | ⟨hr, _⟩)
    · exact absurd rfl (hfree r hv)
    · exact hr
  · intro hr
    exact .inr ⟨hr, hfree⟩

end Table
end Lib
end NolagCore
