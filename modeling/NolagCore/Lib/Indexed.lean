import Mathlib.Data.List.Nodup
import NolagCore.Lib.Checked

/-!
# Lib.Indexed

Lists built by position: an element at place `i` contributes a block `f i a`, and the blocks are
strung together. A selection that tells the blocks apart reads one of them back.
-/

namespace NolagCore
namespace Lib

variable {α β γ : Type}

/-- The blocks of a list, in order. -/
def blocks (f : Nat → α → List β) (l : List α) : List β := (l.mapIdx f).flatten

@[simp] theorem blocks_nil (f : Nat → α → List β) : blocks f [] = [] := rfl

theorem blocks_cons (f : Nat → α → List β) (a : α) (l : List α) :
    blocks f (a :: l) = f 0 a ++ blocks (fun i => f (i + 1)) l := by
  simp [blocks, List.mapIdx_cons]

theorem mem_blocks {f : Nat → α → List β} {l : List α} {b : β} :
    b ∈ blocks f l ↔ ∃ i a, l[i]? = some a ∧ b ∈ f i a := by
  unfold blocks
  rw [List.mem_flatten]
  constructor
  · rintro ⟨block, hblock, hb⟩
    obtain ⟨i, a, hi, rfl⟩ := mem_mapIdx_iff.1 hblock
    exact ⟨i, a, hi, hb⟩
  · rintro ⟨i, a, hi, hb⟩
    exact ⟨f i a, mem_mapIdx_iff.2 ⟨i, a, hi, rfl⟩, hb⟩

theorem blocks_congr {f g : Nat → α → List β} {l : List α}
    (h : ∀ i a, l[i]? = some a → f i a = g i a) : blocks f l = blocks g l := by
  induction l generalizing f g with
  | nil => rfl
  | cons a l ih =>
    rw [blocks_cons, blocks_cons, h 0 a rfl, ih fun i b hi => h (i + 1) b (by simpa using hi)]

theorem map_blocks (g : β → γ) (f : Nat → α → List β) (l : List α) :
    (blocks f l).map g = blocks (fun i a => (f i a).map g) l := by
  induction l generalizing f with
  | nil => rfl
  | cons a l ih => rw [blocks_cons, List.map_append, ih, blocks_cons]

@[simp] theorem blocks_const_nil (l : List α) : blocks (fun _ _ => ([] : List β)) l = [] := by
  simp [blocks, List.flatten_eq_nil_iff]

/-- Blocks of one element each. -/
@[simp] theorem blocks_singleton (f : Nat → α → β) (l : List α) :
    blocks (fun i a => [f i a]) l = l.mapIdx f := by
  induction l generalizing f with
  | nil => rfl
  | cons a l ih => rw [blocks_cons, ih, List.mapIdx_cons]; rfl

theorem filter_blocks (p : β → Bool) (f : Nat → α → List β) (l : List α) :
    (blocks f l).filter p = blocks (fun i a => (f i a).filter p) l := by
  induction l generalizing f with
  | nil => rfl
  | cons a l ih => rw [blocks_cons, List.filter_append, ih, blocks_cons]

theorem blocks_eq_nil {f : Nat → α → List β} {l : List α} (h : ∀ i a, l[i]? = some a → f i a = []) :
    blocks f l = [] := by
  rw [blocks_congr h, blocks_const_nil]

/-- Where one block alone is not empty, it is all there is. -/
theorem blocks_eq_block {f : Nat → α → List β} {l : List α} {i : Nat} {a : α} (hi : l[i]? = some a)
    (hout : ∀ j b, l[j]? = some b → j ≠ i → f j b = []) : blocks f l = f i a := by
  induction l generalizing f i with
  | nil => simp at hi
  | cons c l ih =>
    rw [blocks_cons]
    cases i with
    | zero =>
      cases hi
      have hrest : blocks (fun j => f (j + 1)) l = [] :=
        blocks_eq_nil fun j b hj => hout (j + 1) b (by simpa using hj) (by omega)
      rw [hrest, List.append_nil]
    | succ i =>
      have hc : f 0 c = [] := hout 0 c rfl (by omega)
      rw [hc, List.nil_append]
      exact ih (f := fun j => f (j + 1)) (by simpa using hi) fun j b hj hne =>
        hout (j + 1) b (by simpa using hj) (by omega)

/-- A selection that takes all of one block and nothing of the others. -/
theorem filter_blocks_eq {p : β → Bool} {f : Nat → α → List β} {l : List α} {i : Nat} {a : α}
    (hi : l[i]? = some a) (hin : ∀ b ∈ f i a, p b = true)
    (hout : ∀ j c, l[j]? = some c → j ≠ i → ∀ b ∈ f j c, p b = false) :
    (blocks f l).filter p = f i a := by
  rw [filter_blocks, blocks_eq_block hi]
  · exact List.filter_eq_self.2 hin
  · intro j c hj hne
    rw [List.filter_eq_nil_iff]
    intro b hb
    simp [hout j c hj hne b hb]

theorem nodup_blocks {f : Nat → α → List β} {l : List α}
    (hblock : ∀ i a, l[i]? = some a → (f i a).Nodup)
    (hapart : ∀ i a j c b, l[i]? = some a → l[j]? = some c → b ∈ f i a → b ∈ f j c → i = j) :
    (blocks f l).Nodup := by
  induction l generalizing f with
  | nil => exact List.nodup_nil
  | cons a l ih =>
    rw [blocks_cons]
    have hrest : (blocks (fun i => f (i + 1)) l).Nodup := by
      refine ih (fun i c hi => hblock (i + 1) c (by simpa using hi)) ?_
      intro i c j d b hi hj hb hb'
      have := hapart (i + 1) c (j + 1) d b (by simpa using hi) (by simpa using hj) hb hb'
      omega
    refine (hblock 0 a rfl).append hrest ?_
    intro b hb hb'
    obtain ⟨j, c, hj, hbj⟩ := mem_blocks.1 hb'
    have := hapart 0 a (j + 1) c b rfl (by simpa using hj) hb hbj
    omega

/-- Elements told apart across blocks stand in one block. -/
theorem index_eq_of_nodup_blocks {f : Nat → α → List β} {l : List α} (h : (blocks f l).Nodup)
    {i j : Nat} {a c : α} {b : β} (hi : l[i]? = some a) (hj : l[j]? = some c) (hb : b ∈ f i a)
    (hb' : b ∈ f j c) : i = j := by
  induction l generalizing f i j with
  | nil => simp at hi
  | cons d l ih =>
    rw [blocks_cons] at h
    obtain ⟨-, hrest, hdisj⟩ := List.nodup_append'.1 h
    cases i with
    | zero =>
      cases j with
      | zero => rfl
      | succ j =>
        cases hi
        exact absurd (mem_blocks.2 ⟨j, c, by simpa using hj, hb'⟩) (hdisj hb)
    | succ i =>
      cases j with
      | zero =>
        cases hj
        exact absurd (mem_blocks.2 ⟨i, a, by simpa using hi, hb⟩) (hdisj hb')
      | succ j =>
        have := ih hrest (i := i) (j := j) (by simpa using hi) (by simpa using hj) hb hb'
        omega

theorem nodup_block {f : Nat → α → List β} {l : List α} (h : (blocks f l).Nodup) {i : Nat} {a : α}
    (hi : l[i]? = some a) : (f i a).Nodup := by
  induction l generalizing f i with
  | nil => simp at hi
  | cons c l ih =>
    rw [blocks_cons] at h
    obtain ⟨hc, hrest, -⟩ := List.nodup_append'.1 h
    cases i with
    | zero => cases hi; exact hc
    | succ i => exact ih hrest (by simpa using hi)

/-- Distinct values at distinct places. -/
theorem index_eq_of_nodup_mapIdx {f : Nat → α → β} {l : List α} (h : (l.mapIdx f).Nodup) {i j : Nat}
    {a c : α} (hi : l[i]? = some a) (hj : l[j]? = some c) (heq : f i a = f j c) : i = j := by
  rw [← blocks_singleton] at h
  exact index_eq_of_nodup_blocks h hi hj (List.mem_singleton.2 rfl) (List.mem_singleton.2 heq)

/-- Distinct values at distinct places of the lists under the elements of a list. -/
theorem place_eq_of_nodup {ids : Nat → Nat → γ} {children : α → List β} {l : List α}
    (h : (blocks (fun i a => (children a).mapIdx fun j _ => ids i j) l).Nodup) {i i' j j' : Nat}
    {a a' : α} {b b' : β} (hi : l[i]? = some a) (hj : (children a)[j]? = some b)
    (hi' : l[i']? = some a') (hj' : (children a')[j']? = some b') (heq : ids i j = ids i' j') :
    i = i' ∧ j = j' := by
  have hb : ids i j ∈ (children a).mapIdx fun j _ => ids i j := mem_mapIdx_iff.2 ⟨j, b, hj, rfl⟩
  have hb' : ids i j ∈ (children a').mapIdx fun j _ => ids i' j :=
    mem_mapIdx_iff.2 ⟨j', b', hj', heq.symm⟩
  have hii := index_eq_of_nodup_blocks h hi hi' hb hb'
  subst hii
  rw [hi] at hi'
  cases hi'
  exact ⟨rfl, index_eq_of_nodup_mapIdx (nodup_block h hi) hj hj' heq⟩

theorem mapIdx_const (f : α → β) (l : List α) : (l.mapIdx fun _ => f) = l.map f :=
  List.mapIdx_eq_iff.2 fun i => by rw [List.getElem?_map]

theorem map_mapIdx (g : β → γ) (f : Nat → α → β) (l : List α) :
    (l.mapIdx f).map g = l.mapIdx fun i a => g (f i a) := by
  refine (List.mapIdx_eq_iff.2 fun i => ?_).symm
  rw [List.getElem?_map, List.getElem?_mapIdx, Option.map_map]
  rfl

theorem nodup_map_of_index {key : α → β} {l : List α}
    (h : ∀ (i j : Nat) (a b : α), l[i]? = some a → l[j]? = some b → key a = key b → i = j) :
    (l.map key).Nodup := by
  induction l with
  | nil => exact List.nodup_nil
  | cons a l ih =>
    rw [List.map_cons, List.nodup_cons]
    constructor
    · intro hm
      obtain ⟨b, hb, hk⟩ := List.mem_map.1 hm
      obtain ⟨j, hj⟩ := List.mem_iff_getElem?.1 hb
      have := h 0 (j + 1) a b rfl (by simpa using hj) hk.symm
      omega
    · refine ih fun i j b c hi hj hk => ?_
      have := h (i + 1) (j + 1) b c (by simpa using hi) (by simpa using hj) hk
      omega

theorem index_eq_of_nodup_map {key : α → β} {l : List α} (h : (l.map key).Nodup) {i j : Nat}
    {a b : α} (hi : l[i]? = some a) (hj : l[j]? = some b) (hk : key a = key b) : i = j := by
  rw [← mapIdx_const] at h
  exact index_eq_of_nodup_mapIdx h hi hj hk

end Lib
end NolagCore
