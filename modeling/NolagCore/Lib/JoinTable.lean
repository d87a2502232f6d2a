import NolagCore.Lib.SoftTable

/-!
# Lib.JoinTable

A table whose rows are inserted and deleted whole, under READ COMMITTED. A reader sees the committed
rows; an open transaction keeps what it has inserted and deleted to itself until it commits. A
second writer of one key waits for the first.
-/

namespace NolagCore
namespace Lib

structure JoinTable (κ ρ : Type) where
  rows : List ρ
  /-- The rows that open transactions have inserted. -/
  inserted : List (Nat × ρ) := []
  /-- The keys whose rows they have deleted. -/
  deleted : List (Nat × κ) := []

namespace JoinTable

variable {κ ρ : Type} [DecidableEq κ] (key : ρ → κ)

/-! ## Statements -/

def find (t : JoinTable κ ρ) (k : κ) : Option ρ := t.rows.find? fun r => decide (key r = k)

/-- No other transaction has deleted the row of `k`. -/
def deletable (t : JoinTable κ ρ) (c : Nat) (k : κ) : Bool :=
  t.deleted.all fun e => decide (e.1 = c) || decide (e.2 ≠ k)

/-- Nor inserted one. -/
def insertable (t : JoinTable κ ρ) (c : Nat) (k : κ) : Bool :=
  t.deletable c k && t.inserted.all fun e => decide (e.1 = c) || decide (key e.2 ≠ k)

def insert (t : JoinTable κ ρ) (c : Nat) (row : ρ) : JoinTable κ ρ :=
  { t with inserted := (c, row) :: t.inserted }

def delete (t : JoinTable κ ρ) (c : Nat) (k : κ) : JoinTable κ ρ :=
  { t with deleted := (c, k) :: t.deleted }

/-- The end of a transaction that is rolled back. -/
def release (t : JoinTable κ ρ) (c : Nat) : JoinTable κ ρ :=
  { t with
    inserted := t.inserted.filter fun e => decide (e.1 ≠ c)
    deleted := t.deleted.filter fun e => decide (e.1 ≠ c) }

def insertedBy (t : JoinTable κ ρ) (c : Nat) : List ρ :=
  (t.inserted.filter fun e => decide (e.1 = c)).map Prod.snd

def commit (t : JoinTable κ ρ) (c : Nat) : JoinTable κ ρ :=
  { t.release c with
    rows := (t.rows.filter fun r => decide ((c, key r) ∉ t.deleted)) ++ t.insertedBy c }

/-! ## What a commit adds -/

variable {key} {t : JoinTable κ ρ} {c : Nat}

omit [DecidableEq κ] in
theorem mem_insertedBy {r : ρ} : r ∈ t.insertedBy c ↔ (c, r) ∈ t.inserted := by
  unfold insertedBy
  rw [List.mem_map]
  constructor
  · rintro ⟨⟨c', r'⟩, hm, rfl⟩
    obtain ⟨hm, hc⟩ := List.mem_filter.1 hm
    have hc : c' = c := of_decide_eq_true hc
    exact hc ▸ hm
  · intro hm
    exact ⟨(c, r), List.mem_filter.2 ⟨hm, decide_eq_true rfl⟩, rfl⟩

omit [DecidableEq κ] in
theorem mem_inserted_release {e : Nat × ρ} :
    e ∈ (t.release c).inserted ↔ e ∈ t.inserted ∧ e.1 ≠ c := by
  unfold release
  rw [List.mem_filter, decide_eq_true_eq]

/-- A commit adds at most what its transaction has inserted. -/
theorem length_filter_commit_le (p : ρ → Bool) : ((t.commit key c).rows.filter p).length ≤
    (t.rows.filter p).length + ((t.insertedBy c).filter p).length := by
  unfold commit
  rw [List.filter_append, List.length_append]
  refine Nat.add_le_add_right ?_ _
  exact (List.filter_sublist.filter p).length_le

/-! ## One row a transaction -/

/-- No open transaction has inserted twice, and `wrote` says what each has inserted. -/
structure OneEach (t : JoinTable κ ρ) (wrote : Nat → ρ → Prop) : Prop where
  writer : ∀ e ∈ t.inserted, wrote e.1 e.2
  single : UniqueOn Prod.fst t.inserted

section OneEach

variable {wrote wrote' : Nat → ρ → Prop} (h : t.OneEach wrote)

omit [DecidableEq κ] in
theorem OneEach.nil (h : t.inserted = []) : t.OneEach wrote where
  writer := by
    intro e he
    rw [h] at he
    cases he
  single := by
    rw [h]
    exact List.nodup_nil

include h

omit [DecidableEq κ] in
theorem OneEach.congr {t' : JoinTable κ ρ} (hi : t'.inserted = t.inserted) : t'.OneEach wrote where
  writer := by
    rw [hi]
    exact h.writer
  single := by
    rw [hi]
    exact h.single

omit [DecidableEq κ] in
/-- A transaction that has inserted nothing moves. -/
theorem OneEach.keep (hidle : ∀ r, ¬ wrote c r)
    (hkeep : ∀ c' r, c' ≠ c → wrote c' r → wrote' c' r) : t.OneEach wrote' where
  writer := by
    intro e he
    have hwrote := h.writer e he
    refine hkeep e.1 e.2 (fun hc => ?_) hwrote
    exact hidle e.2 (hc ▸ hwrote)
  single := h.single

omit [DecidableEq κ] in
theorem OneEach.insert (hidle : ∀ r, ¬ wrote c r)
    (hkeep : ∀ c' r, c' ≠ c → wrote c' r → wrote' c' r) {row : ρ} (hself : wrote' c row) :
    (t.insert c row).OneEach wrote' where
  writer := by
    intro e he
    rcases List.mem_cons.1 he with rfl | he
    · exact hself
    · exact (h.keep hidle hkeep).writer e he
  single := by
    refine List.nodup_cons.2 ⟨fun hm => ?_, h.single⟩
    obtain ⟨e, he, hc⟩ := List.mem_map.1 hm
    have hc : e.1 = c := hc
    exact hidle e.2 (hc ▸ h.writer e he)

omit [DecidableEq κ] in
theorem OneEach.release (hkeep : ∀ c' r, c' ≠ c → wrote c' r → wrote' c' r) :
    (t.release c).OneEach wrote' where
  writer := by
    intro e he
    obtain ⟨he, hne⟩ := mem_inserted_release.1 he
    exact hkeep e.1 e.2 hne (h.writer e he)
  single := h.single.filter _

theorem OneEach.commit (hkeep : ∀ c' r, c' ≠ c → wrote c' r → wrote' c' r) :
    (t.commit key c).OneEach wrote' :=
  ⟨(h.release hkeep).writer, (h.release hkeep).single⟩

omit [DecidableEq κ] in
theorem OneEach.insertedBy (c : Nat) :
    t.insertedBy c = [] ∨ ∃ row, t.insertedBy c = [row] ∧ wrote c row := by
  have hnodup : ((t.inserted.filter fun e => decide (e.1 = c)).map Prod.fst).Nodup :=
    h.single.filter _
  have hall : ∀ n ∈ (t.inserted.filter fun e => decide (e.1 = c)).map Prod.fst, n = c := by
    intro n hn
    obtain ⟨e, he, rfl⟩ := List.mem_map.1 hn
    exact of_decide_eq_true (List.mem_filter.1 he).2
  have hone : (t.insertedBy c).length ≤ 1 := by
    rw [List.eq_replicate_of_mem hall, List.nodup_replicate, List.length_map] at hnodup
    simpa [JoinTable.insertedBy] using hnodup
  cases hrows : t.insertedBy c with
  | nil => exact .inl rfl
  | cons row rest =>
    rw [hrows, List.length_cons] at hone
    have hnil : rest = [] := List.length_eq_zero_iff.1 (by omega)
    have hrow : (c, row) ∈ t.inserted := mem_insertedBy.1 (hrows ▸ List.mem_cons_self)
    exact .inr ⟨row, by rw [hnil], h.writer (c, row) hrow⟩

end OneEach

end JoinTable
end Lib
end NolagCore
