import Mathlib.Data.List.Sort
import NolagCore.Lib.Indexed

/-!
# Lib.Sorting

Sorting by a key under a total order that is given as a function, as a collation is. Where the keys
are distinct the sorted list does not depend on the order the elements came in.
-/

namespace NolagCore
namespace Lib

variable {α β γ δ κ : Type}

/-- `le` compares as a total order does: it leaves no tie between different keys. -/
structure TotalOrder (le : κ → κ → Bool) : Prop where
  total : ∀ a b, le a b = true ∨ le b a = true
  trans : ∀ a b c, le a b = true → le b c = true → le a c = true
  antisymm : ∀ a b, le a b = true → le b a = true → a = b

def sortOn (le : κ → κ → Bool) (key : α → κ) (l : List α) : List α :=
  l.insertionSort fun a b => le (key a) (key b)

theorem sortOn_perm (le : κ → κ → Bool) (key : α → κ) (l : List α) : (sortOn le key l).Perm l :=
  List.perm_insertionSort _ l

theorem sortOn_map (le : κ → κ → Bool) {key : β → κ} {key' : α → κ} {f : α → β}
    (hkey : ∀ a, key (f a) = key' a) (l : List α) :
    sortOn le key (l.map f) = (sortOn le key' l).map f := by
  unfold sortOn
  refine (List.map_insertionSort _ _ f l fun a _ b _ => ?_).symm
  rw [hkey, hkey]

theorem pairwise_sortOn {le : κ → κ → Bool} (h : TotalOrder le) (key : α → κ) (l : List α) :
    (sortOn le key l).Pairwise fun a b => le (key a) (key b) = true := by
  have htotal : Std.Total fun a b : α => le (key a) (key b) = true := ⟨fun a b => h.total _ _⟩
  have htrans : IsTrans α fun a b => le (key a) (key b) = true := ⟨fun a b c => h.trans _ _ _⟩
  exact List.pairwise_insertionSort _ l

theorem sortOn_eq_of_perm {le : κ → κ → Bool} (h : TotalOrder le) (key : α → κ) {l l' : List α}
    (hkeys : (l.map key).Nodup) (hp : l.Perm l') : sortOn le key l = sortOn le key l' := by
  have hperm := (sortOn_perm le key l).trans (hp.trans (sortOn_perm le key l').symm)
  refine List.Perm.eq_of_pairwise ?_ (pairwise_sortOn h key l) (pairwise_sortOn h key l') hperm
  intro a b ha hb hab hba
  have ha' : a ∈ l := (sortOn_perm le key l).mem_iff.1 ha
  have hb' : b ∈ l := hp.mem_iff.2 ((sortOn_perm le key l').mem_iff.1 hb)
  obtain ⟨i, hi⟩ := List.mem_iff_getElem?.1 ha'
  obtain ⟨j, hj⟩ := List.mem_iff_getElem?.1 hb'
  have hij := index_eq_of_nodup_map hkeys hi hj (h.antisymm _ _ hab hba)
  subst hij
  exact Option.some.inj (hi.symm.trans hj)

/-! ## Lists that correspond element by element -/

theorem forall₂_map_of_mem {R : β → γ → Prop} {f : α → β} {g : α → γ} {l : List α}
    (h : ∀ a ∈ l, R (f a) (g a)) : List.Forall₂ R (l.map f) (l.map g) := by
  rw [List.forall₂_map_left_iff, List.forall₂_map_right_iff, List.forall₂_same]
  exact h

/-- Elements that keep their key as they are numbered and mapped stand in the same order after
sorting. -/
theorem forall₂_sortOn_mapIdx (le : κ → κ → Bool) {key : α → κ} {key' : β → κ} {f : Nat → α → β}
    (hkey : ∀ i a, key' (f i a) = key a) (l : List α) :
    List.Forall₂ (fun b a => ∃ i : Nat, l[i]? = some a ∧ b = f i a) (sortOn le key' (l.mapIdx f))
      (sortOn le key l) := by
  have hmapIdx : l.mapIdx f = l.zipIdx.map fun p => f p.2 p.1 := List.mapIdx_eq_zipIdx_map
  have hl : l = l.zipIdx.map Prod.fst := (List.zipIdx_map_fst 0 l).symm
  have hright : sortOn le key l = (sortOn le (fun p : α × Nat => key p.1) l.zipIdx).map Prod.fst := by
    conv_lhs => rw [hl]
    exact sortOn_map le (fun _ => rfl) l.zipIdx
  have hleft : sortOn le key' (l.zipIdx.map fun p => f p.2 p.1) =
      (sortOn le (fun p : α × Nat => key p.1) l.zipIdx).map fun p => f p.2 p.1 :=
    sortOn_map le (fun p => hkey p.2 p.1) l.zipIdx
  rw [hmapIdx, hleft, hright]
  refine forall₂_map_of_mem fun p hp => ⟨p.2, ?_, rfl⟩
  have hmem := (sortOn_perm le _ _).mem_iff.1 hp
  exact List.mem_zipIdx_iff_getElem?.1 hmem

theorem forall₂_mapIdx {R : α → β → Prop} {S : γ → δ → Prop} {f : Nat → α → γ} {g : β → δ}
    {l : List α} {l' : List β} (h : List.Forall₂ R l l')
    (hf : ∀ i a b, l[i]? = some a → R a b → S (f i a) (g b)) :
    List.Forall₂ S (l.mapIdx f) (l'.map g) := by
  induction h generalizing f with
  | nil => exact .nil
  | cons hab _ ih =>
    rw [List.mapIdx_cons, List.map_cons]
    exact .cons (hf 0 _ _ rfl hab) (ih fun i a b hi => hf (i + 1) a b hi)

theorem eq_of_forall₂_map {f : α → γ} {g : β → γ} {l : List α} {l' : List β}
    (h : List.Forall₂ (fun a b => f a = g b) l l') : l.map f = l'.map g := by
  induction h with
  | nil => rfl
  | cons hab _ ih => rw [List.map_cons, List.map_cons, hab, ih]

end Lib
end NolagCore
