import Mathlib.Data.List.Nodup
import Mathlib.Data.List.Perm.Basic

/-!
# Lib.SoftTable

Tables as lists of rows, with soft deletion. A row is live while its `deletedAt` is null, and the
queries `findAll` and `findOne` carry that filter themselves, as every query of a repository
written against a soft-deleting mapper does.

A list is one order in which a scan may return the rows: a query without an ordering is any of
them, so a statement about every state of a table quantifies over its reorderings too.
-/

namespace NolagCore
namespace Lib

/-- Rows that are deleted by stamping them rather than by removing them. -/
class SoftDelete (α : Type) where
  deletedAt : α → Option Int

section Queries

variable {α κ : Type} [SoftDelete α]

def live (r : α) : Bool := (SoftDelete.deletedAt r).isNone

/-- `find({ where })`: the live rows that satisfy `p`, in scan order. -/
def findAll (rows : List α) (p : α → Bool) : List α := rows.filter fun r => live r && p r

/-- `findOne({ where })`. -/
def findOne (rows : List α) (p : α → Bool) : Option α := rows.find? fun r => live r && p r

@[simp] theorem mem_findAll {rows : List α} {p : α → Bool} {r : α} :
    r ∈ findAll rows p ↔ r ∈ rows ∧ live r = true ∧ p r = true := by
  simp [findAll]

theorem findOne_eq_head? (rows : List α) (p : α → Bool) :
    findOne rows p = (findAll rows p).head? := by
  simp [findOne, findAll]

theorem of_findOne {rows : List α} {p : α → Bool} {r : α} (h : findOne rows p = some r) :
    r ∈ rows ∧ live r = true ∧ p r = true := by
  have hp := List.find?_some h
  simp only [Bool.and_eq_true] at hp
  exact ⟨List.mem_of_find?_eq_some h, hp.1, hp.2⟩

theorem findOne_eq_none {rows : List α} {p : α → Bool} :
    findOne rows p = none ↔ ∀ r ∈ rows, live r = true → p r = false := by
  simp [findOne]

/-- Where the live rows satisfying `p` agree on a unique key, `findOne` finds the one there is. -/
theorem findOne_of_unique {rows : List α} {p : α → Bool} {r : α} (hr : r ∈ rows)
    (hl : live r = true) (hp : p r = true)
    (huniq : ∀ r' ∈ rows, live r' = true → p r' = true → r' = r) : findOne rows p = some r := by
  cases h : findOne rows p with
  | none => rw [findOne_eq_none.1 h r hr hl] at hp; cases hp
  | some r' =>
    obtain ⟨hm, hl', hp'⟩ := of_findOne h
    rw [huniq r' hm hl' hp']

/-- A query reads the same through any selection of rows that keeps everything it can return. -/
theorem findAll_filter {rows : List α} {p q : α → Bool}
    (h : ∀ r ∈ rows, live r = true → p r = true → q r = true) :
    findAll (rows.filter q) p = findAll rows p := by
  unfold findAll
  rw [List.filter_filter]
  refine List.filter_congr fun r hr => ?_
  cases hl : live r with
  | false => simp
  | true =>
    cases hp : p r with
    | false => simp
    | true => simp [h r hr hl hp]

theorem findOne_filter {rows : List α} {p q : α → Bool}
    (h : ∀ r ∈ rows, live r = true → p r = true → q r = true) :
    findOne (rows.filter q) p = findOne rows p := by
  rw [findOne_eq_head?, findOne_eq_head?, findAll_filter h]

/-- A query reads through a rewriting of the rows that it cannot see. -/
theorem findAll_map {β : Type} [SoftDelete β] (f : α → β) {p : α → Bool} {q : β → Bool}
    (hlive : ∀ r, live (f r) = live r) (hp : ∀ r, q (f r) = p r) (rows : List α) :
    findAll (rows.map f) q = (findAll rows p).map f := by
  unfold findAll
  rw [List.filter_map]
  congr 1
  refine List.filter_congr fun r _ => ?_
  simp [hlive, hp]

omit [SoftDelete α] in
/-- Rows that a rewriting puts out of reach of a selection are as good as absent. -/
theorem filter_map_off {f : α → α} {off p : α → Bool} (hoff : ∀ r, off r = true → p (f r) = false)
    (hkeep : ∀ r, off r = false → f r = r) (rows : List α) :
    (rows.map f).filter p = (rows.filter fun r => !off r).filter p := by
  induction rows with
  | nil => rfl
  | cons r rows ih =>
    cases ho : off r with
    | true => simpa [ho, hoff r ho] using ih
    | false =>
      rw [List.map_cons, hkeep r ho, List.filter_cons, ih, List.filter_cons]
      simp [ho, List.filter_cons]

theorem findAll_map_off {f : α → α} {off p : α → Bool} (hoff : ∀ r, off r = true → p (f r) = false)
    (hkeep : ∀ r, off r = false → f r = r) (rows : List α) :
    findAll (rows.map f) p = (findAll rows p).filter fun r => !off r := by
  unfold findAll
  rw [filter_map_off (fun r ho => by rw [hoff r ho, Bool.and_false]) hkeep, List.filter_filter,
    List.filter_filter]
  exact List.filter_congr fun r _ => Bool.and_comm _ _

/-- A lookup by a unique key does not depend on the order of the rows. -/
theorem findOne_perm {rows rows' : List α} (h : rows.Perm rows')
    {p : α → Bool} (huniq : ∀ r ∈ rows, ∀ r' ∈ rows, live r = true → live r' = true →
      p r = true → p r' = true → r = r') : findOne rows' p = findOne rows p := by
  cases hf : findOne rows p with
  | none =>
    rw [findOne_eq_none] at hf ⊢
    exact fun r hr => hf r (h.symm.subset hr)
  | some r =>
    obtain ⟨hm, hl, hp⟩ := of_findOne hf
    exact findOne_of_unique (h.subset hm) hl hp fun r' hm' hl' hp' =>
      huniq r' (h.symm.subset hm') r hm hl' hl hp' hp

end Queries

/-! ## Chosen rows last -/

section Chosen

variable {α β : Type}

/-- The rows in an order with the chosen ones last. -/
def moveLast (p : α → Bool) (rows : List α) : List α := rows.filter (fun r => !p r) ++ rows.filter p

theorem perm_moveLast (p : α → Bool) (rows : List α) : rows.Perm (moveLast p rows) :=
  (List.perm_append_comm.trans (List.filter_append_perm p rows)).symm

theorem filter_moveLast (p q : α → Bool) (rows : List α) :
    (moveLast p rows).filter q = moveLast p (rows.filter q) := by
  unfold moveLast
  rw [List.filter_append, List.filter_comm q p, List.filter_comm q fun r => !p r]

/-- A map of the rows keeps the chosen ones last. -/
theorem filterMap_moveLast {p : α → Bool} {p' : β → Bool} {f : α → Option β}
    (h : ∀ r x, f r = some x → p' x = p r) (rows : List α) :
    (moveLast p rows).filterMap f = moveLast p' (rows.filterMap f) := by
  have hchosen : ∀ (c : Bool → Bool), (rows.filter fun r => c (p r)).filterMap f =
      (rows.filterMap f).filter fun x => c (p' x) := by
    intro c
    induction rows with
    | nil => rfl
    | cons r rows ih =>
      cases hf : f r with
      | none =>
        cases hc : c (p r) <;> simpa [hf, hc] using ih
      | some x =>
        have hx := h r x hf
        cases hc : c (p r) <;> simpa [hf, hc, hx] using ih
  unfold moveLast
  rw [List.filterMap_append]
  exact congrArg₂ _ (hchosen (fun b => !b)) (hchosen id)

theorem getLast?_filter_append {q : β → Bool} {l l' : List β} (h : l'.filter q ≠ []) :
    ((l ++ l').filter q).getLast? = (l'.filter q).getLast? := by
  rw [List.filter_append, List.getLast?_append]
  cases hl : (l'.filter q).getLast? with
  | none => exact absurd (List.getLast?_eq_none_iff.1 hl) h
  | some x => rfl

/-- Where the chosen rows have one block, a search from the end finds what it finds in the block. -/
theorem getLast?_flatMap_moveLast {p : α → Bool} {q : β → Bool} {f : α → List β}
    {block : List β} {rows : List α} (hx : ∃ r ∈ rows, p r = true)
    (hall : ∀ r ∈ rows, p r = true → f r = block) (hblock : block.filter q ≠ []) :
    (((moveLast p rows).flatMap f).filter q).getLast? = (block.filter q).getLast? := by
  obtain ⟨r, hr, hp⟩ := hx
  have hne : rows.filter p ≠ [] := List.ne_nil_of_mem (List.mem_filter.2 ⟨hr, hp⟩)
  obtain ⟨hlast, hpl⟩ := List.mem_filter.1 (List.getLast_mem hne)
  unfold moveLast
  rw [← List.dropLast_append_getLast hne, ← List.append_assoc, List.flatMap_append,
    List.flatMap_singleton, hall _ hlast hpl]
  exact getLast?_filter_append hblock

end Chosen

/-! ## Keys -/

section Keys

variable {α κ : Type}

/-- A primary key or a unique index: no two rows share `key`. -/
def UniqueOn (key : α → κ) (rows : List α) : Prop := (rows.map key).Nodup

instance [DecidableEq κ] (key : α → κ) (rows : List α) : Decidable (UniqueOn key rows) :=
  inferInstanceAs (Decidable (rows.map key).Nodup)

/-- A foreign key: every value `key` gives is the `target` of some row of the other table. -/
def References {β : Type} (rows : List α) (key : α → Option κ) (others : List β)
    (target : β → κ) : Prop :=
  ∀ r ∈ rows, ∀ k ∈ key r, ∃ o ∈ others, target o = k

instance {β : Type} [DecidableEq κ] (rows : List α) (key : α → Option κ) (others : List β)
    (target : β → κ) : Decidable (References rows key others target) :=
  inferInstanceAs (Decidable (∀ r ∈ rows, ∀ k ∈ key r, ∃ o ∈ others, target o = k))

/-- A table without rows has no foreign keys. -/
theorem References.nil {β : Type} {key : α → Option κ} {others : List β} {target : β → κ} :
    References [] key others target := by
  intro r hr
  cases hr

theorem UniqueOn.eq_of_key {key : α → κ} {rows : List α} (h : UniqueOn key rows) {r r' : α}
    (hr : r ∈ rows) (hr' : r' ∈ rows) (hk : key r = key r') : r = r' :=
  List.inj_on_of_nodup_map h hr hr' hk

theorem UniqueOn.ne_of_append {key : α → κ} {rows new : List α} (h : UniqueOn key (rows ++ new))
    {r r' : α} (hr : r ∈ rows) (hr' : r' ∈ new) : key r ≠ key r' := by
  unfold UniqueOn at h
  rw [List.map_append] at h
  exact fun heq => List.disjoint_of_nodup_append h (List.mem_map_of_mem hr)
    (heq ▸ List.mem_map_of_mem hr')

theorem UniqueOn.left {key : α → κ} {rows new : List α} (h : UniqueOn key (rows ++ new)) :
    UniqueOn key rows :=
  List.Nodup.sublist ((List.sublist_append_left rows new).map key) h

theorem UniqueOn.left_filter {key : α → κ} {rows new : List α} {p : α → Bool}
    (h : UniqueOn key ((rows ++ new).filter p)) : UniqueOn key (rows.filter p) := by
  rw [List.filter_append] at h
  exact h.left

theorem UniqueOn.append_of_ne {key : α → κ} {rows new : List α} (h : UniqueOn key rows)
    (hnew : UniqueOn key new) (hne : ∀ r ∈ rows, ∀ r' ∈ new, key r ≠ key r') :
    UniqueOn key (rows ++ new) := by
  unfold UniqueOn at *
  rw [List.map_append]
  refine h.append hnew ?_
  intro k hk hk'
  obtain ⟨r, hr, rfl⟩ := List.mem_map.1 hk
  obtain ⟨r', hr', heq⟩ := List.mem_map.1 hk'
  exact hne r hr r' hr' heq.symm

theorem UniqueOn.filter {key : α → κ} {rows : List α} (h : UniqueOn key rows) (p : α → Bool) :
    UniqueOn key (rows.filter p) :=
  List.Nodup.sublist (List.filter_sublist.map key) h

theorem UniqueOn.filter_eq_singleton {key : α → κ} {rows : List α} (h : UniqueOn key rows) {r : α}
    (hr : r ∈ rows) {p : α → Bool} (hp : ∀ x ∈ rows, p x = true ↔ key x = key r) :
    rows.filter p = [r] := by
  have hnodup : (rows.filter p).Nodup := (List.Nodup.of_map key h).filter p
  refine List.perm_singleton.1 ((List.perm_ext_iff_of_nodup hnodup (List.nodup_singleton r)).2 ?_)
  intro x
  rw [List.mem_filter, List.mem_singleton]
  constructor
  · rintro ⟨hx, hpx⟩
    exact h.eq_of_key hx hr ((hp x hx).1 hpx)
  · rintro rfl
    exact ⟨hr, (hp x hr).2 rfl⟩

theorem UniqueOn.perm {key : α → κ} {rows rows' : List α} (h : UniqueOn key rows)
    (hp : rows.Perm rows') : UniqueOn key rows' :=
  (hp.map key).nodup_iff.1 h

theorem References.perm {β : Type} {rows rows' : List α} {key : α → Option κ}
    {others others' : List β} {target : β → κ} (h : References rows key others target)
    (hp : rows.Perm rows') (ho : others.Perm others') : References rows' key others' target := by
  intro r hr k hk
  obtain ⟨o, hom, rfl⟩ := h r (hp.symm.subset hr) k hk
  exact ⟨o, ho.subset hom, rfl⟩

theorem References.append {β : Type} {rows new : List α} {key : α → Option κ}
    {others more : List β} {target : β → κ} (h : References rows key others target)
    (hnew : References new key (others ++ more) target) :
    References (rows ++ new) key (others ++ more) target := by
  intro r hr k hk
  rcases List.mem_append.1 hr with hr | hr
  · obtain ⟨o, ho, hk'⟩ := h r hr k hk
    exact ⟨o, List.mem_append_left _ ho, hk'⟩
  · exact hnew r hr k hk

end Keys

end Lib
end NolagCore
