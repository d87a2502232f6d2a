import Mathlib.Computability.RegularExpressions

/-!
# Lib.Pattern

The constructs of textual patterns over Mathlib's regular expressions: a character class, one or
more, at most `n`. Each comes with what it matches, so that a pattern is read off its own syntax.
-/

namespace NolagCore
namespace Lib
namespace Pattern

variable {α : Type}

/-- `[abc]`. -/
def oneOf : List α → RegularExpression α
  | [] => 0
  | c :: cs => .char c + oneOf cs

/-- `p+`. -/
def oneOrMore (p : RegularExpression α) : RegularExpression α := p * p.star

/-- `p{0,n}`. -/
def upTo (n : Nat) (p : RegularExpression α) : RegularExpression α := (1 + p) ^ n

variable {cs l : List α}

theorem mem_oneOf : l ∈ (oneOf cs).matches' ↔ ∃ c ∈ cs, l = [c] := by
  induction cs with
  | nil =>
    constructor
    · intro h
      exact absurd h (Language.notMem_zero l)
    · rintro ⟨c, hc, -⟩
      cases hc
  | cons c cs ih =>
    unfold oneOf
    rw [RegularExpression.matches'_add, Language.mem_add, ih, RegularExpression.matches'_char]
    constructor
    · rintro (h | ⟨d, hd, rfl⟩)
      · exact ⟨c, List.mem_cons_self, h⟩
      · exact ⟨d, List.mem_cons_of_mem c hd, rfl⟩
    · rintro ⟨d, hd, rfl⟩
      rcases List.mem_cons.1 hd with rfl | hd
      · exact .inl rfl
      · exact .inr ⟨d, hd, rfl⟩

/-- `[abc]*` matches the words over the class. -/
theorem mem_star_oneOf : l ∈ (oneOf cs).star.matches' ↔ ∀ c ∈ l, c ∈ cs := by
  rw [RegularExpression.matches'_star, Language.mem_kstar]
  constructor
  · rintro ⟨parts, rfl, hparts⟩ c hc
    obtain ⟨part, hpart, hmem⟩ := List.mem_flatten.1 hc
    obtain ⟨d, hd, rfl⟩ := mem_oneOf.1 (hparts part hpart)
    rw [List.mem_singleton.1 hmem]
    exact hd
  · intro h
    refine ⟨l.map fun c => [c], by rw [← List.flatMap_def, List.flatMap_singleton'], ?_⟩
    intro part hpart
    obtain ⟨c, hc, rfl⟩ := List.mem_map.1 hpart
    exact mem_oneOf.2 ⟨c, h c hc, rfl⟩

/-- `[abc]+` matches the words over the class, the empty one aside. -/
theorem mem_oneOrMore_oneOf :
    l ∈ (oneOrMore (oneOf cs)).matches' ↔ l ≠ [] ∧ ∀ c ∈ l, c ∈ cs := by
  unfold oneOrMore
  rw [RegularExpression.matches'_mul, Language.mem_mul]
  constructor
  · rintro ⟨first, hfirst, rest, hrest, rfl⟩
    obtain ⟨c, hc, rfl⟩ := mem_oneOf.1 hfirst
    rw [mem_star_oneOf] at hrest
    refine ⟨List.cons_ne_nil _ _, fun d hd => ?_⟩
    rcases List.mem_cons.1 hd with rfl | hd
    · exact hc
    · exact hrest d hd
  · rintro ⟨hne, hall⟩
    cases l with
    | nil => exact absurd rfl hne
    | cons c l =>
      refine ⟨[c], mem_oneOf.2 ⟨c, hall c List.mem_cons_self, rfl⟩, l, ?_, rfl⟩
      rw [mem_star_oneOf]
      exact fun d hd => hall d (List.mem_cons_of_mem c hd)

/-- `[abc]{0,n}` matches the words over the class of at most `n` letters. -/
theorem mem_upTo_oneOf {n : Nat} :
    l ∈ (upTo n (oneOf cs)).matches' ↔ l.length ≤ n ∧ ∀ c ∈ l, c ∈ cs := by
  unfold upTo
  rw [RegularExpression.matches'_pow]
  induction n generalizing l with
  | zero =>
    rw [pow_zero, Language.mem_one]
    constructor
    · rintro rfl
      simp
    · rintro ⟨hlen, -⟩
      exact List.length_eq_zero_iff.1 (by omega)
  | succ n ih =>
    rw [pow_succ', Language.mem_mul]
    constructor
    · rintro ⟨first, hfirst, rest, hrest, rfl⟩
      rw [RegularExpression.matches'_add, Language.mem_add] at hfirst
      obtain ⟨hlen, hall⟩ := ih.1 hrest
      rcases hfirst with hnil | hone
      · obtain rfl : first = [] := hnil
        exact ⟨by simp; omega, hall⟩
      · obtain ⟨c, hc, rfl⟩ := mem_oneOf.1 hone
        refine ⟨by simpa using hlen, fun d hd => ?_⟩
        rcases List.mem_cons.1 hd with rfl | hd
        · exact hc
        · exact hall d hd
    · rintro ⟨hlen, hall⟩
      cases l with
      | nil => exact ⟨[], .inl rfl, [], ih.2 ⟨by simp, hall⟩, rfl⟩
      | cons c l =>
        refine ⟨[c], .inr (mem_oneOf.2 ⟨c, hall c List.mem_cons_self, rfl⟩), l, ih.2 ⟨?_, ?_⟩, rfl⟩
        · simpa using hlen
        · exact fun d hd => hall d (List.mem_cons_of_mem c hd)

end Pattern
end Lib
end NolagCore
