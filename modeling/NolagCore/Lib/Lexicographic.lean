import Mathlib.Data.List.Sort

/-!
# Lib.Lexicographic

Comparing by one term after the other, each deciding only the ties of those before it, and what
sorting by one such order says about another.
-/

namespace NolagCore
namespace Lib

variable {α : Type}

/-- The first term that does not tie decides. -/
def lexicographic (terms : List (α → α → Ordering)) : α → α → Ordering :=
  terms.foldr compareLex fun _ _ => .eq

theorem lexicographic_cons (c : α → α → Ordering) (terms : List (α → α → Ordering)) (a b : α) :
    lexicographic (c :: terms) a b = (c a b).then (lexicographic terms a b) := rfl

theorem transCmp_lexicographic {terms : List (α → α → Ordering)}
    (h : ∀ c ∈ terms, Std.TransCmp c) : Std.TransCmp (lexicographic terms) := by
  induction terms with
  | nil =>
    exact
      { eq_swap := rfl
        isLE_trans := fun _ _ => rfl }
  | cons c terms ih =>
    have hc := h c List.mem_cons_self
    have hterms := ih fun c' hc' => h c' (List.mem_cons_of_mem _ hc')
    exact inferInstanceAs (Std.TransCmp (compareLex c (lexicographic terms)))

/-- A term that ties does not show, wherever it stands. -/
theorem lexicographic_of_tie {pre post : List (α → α → Ordering)} {c : α → α → Ordering} {a b : α}
    (h : c a b = .eq) :
    lexicographic (pre ++ c :: post) a b = lexicographic (pre ++ post) a b := by
  induction pre with
  | nil =>
    rw [List.nil_append, lexicographic_cons, h]
    rfl
  | cons d pre ih =>
    rw [List.cons_append, List.cons_append, lexicographic_cons, lexicographic_cons, ih]

/-- `l` is in the order that `cmp` gives. -/
def SortedBy (cmp : α → α → Ordering) (l : List α) : Prop :=
  l.Pairwise fun a b => (cmp a b).isLE = true

theorem exists_sortedBy (cmp : α → α → Ordering) [Std.TransCmp cmp] (rows : List α) :
    ∃ l : List α, l.Perm rows ∧ SortedBy cmp l := by
  refine ⟨rows.mergeSort fun a b => (cmp a b).isLE, List.mergeSort_perm _ _, ?_⟩
  apply List.pairwise_mergeSort
  · intro a b c hab hbc
    exact Std.TransCmp.isLE_trans hab hbc
  · intro a b
    have hswap : cmp b a = (cmp a b).swap := Std.OrientedCmp.eq_swap
    rw [hswap]
    cases cmp a b <;> rfl

/-- Every arrangement by `c` and then `rest` is in the wanted order just where no row stands
before another by `c` alone and after it in the wanted order. `c` may be among the wanted terms:
where it ties the two orders agree. -/
theorem sortedBy_iff {c : α → α → Ordering} {rest wanted : List (α → α → Ordering)}
    (hterms : ∀ d ∈ c :: rest, Std.TransCmp d)
    (htie : ∀ a b, c a b = .eq → lexicographic wanted a b = lexicographic rest a b)
    (rows : List α) :
    (∀ l : List α, l.Perm rows → SortedBy (lexicographic (c :: rest)) l →
        SortedBy (lexicographic wanted) l) ↔
      ∀ a ∈ rows, ∀ b ∈ rows, c a b = .lt → (lexicographic wanted a b).isLE = true := by
  have htrans := transCmp_lexicographic hterms
  constructor
  · intro h a ha b hb hab
    obtain ⟨l, hperm, hsorted⟩ := exists_sortedBy (lexicographic (c :: rest)) rows
    have hwanted := h l hperm hsorted
    have hlt : lexicographic (c :: rest) a b = .lt := by
      rw [lexicographic_cons, hab]
      rfl
    -- `a` stands before `b` in every arrangement
    obtain ⟨i, hi, rfl⟩ := List.mem_iff_getElem.1 (hperm.mem_iff.2 ha)
    obtain ⟨j, hj, rfl⟩ := List.mem_iff_getElem.1 (hperm.mem_iff.2 hb)
    rcases Nat.lt_trichotomy i j with hij | hij | hij
    · exact List.pairwise_iff_getElem.1 hwanted i j hi hj hij
    · subst hij
      have hself : lexicographic (c :: rest) l[i] l[i] = .eq := Std.ReflCmp.compare_self
      rw [hself] at hlt
      cases hlt
    · have hle := List.pairwise_iff_getElem.1 hsorted j i hj hi hij
      have hswap : lexicographic (c :: rest) l[j] l[i] =
          (lexicographic (c :: rest) l[i] l[j]).swap := Std.OrientedCmp.eq_swap
      rw [hswap, hlt] at hle
      cases hle
  · intro h l hperm hsorted
    refine List.Pairwise.imp_of_mem ?_ hsorted
    intro a b ha hb hle
    cases hc : c a b with
    | lt => exact h a (hperm.mem_iff.1 ha) b (hperm.mem_iff.1 hb) hc
    | eq =>
      rw [lexicographic_cons, hc] at hle
      rw [htie a b hc]
      exact hle
    | gt =>
      rw [lexicographic_cons, hc] at hle
      cases hle

end Lib
end NolagCore
