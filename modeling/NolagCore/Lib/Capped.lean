/-!
# Lib.Capped

Places handed out by a check and taken later. `count k` places of `k` are taken, and a taker is one
that has found a place and not taken it yet. With one taker of a key at a time the count it has seen
is still an upper bound when it takes the place, so no key goes over its cap.
-/

namespace NolagCore
namespace Lib

variable {κ : Type}

structure Capped (cap count : κ → Nat) (taking : Nat → κ → Prop) : Prop where
  bound : ∀ k, count k ≤ cap k
  place : ∀ c k, taking c k → count k < cap k
  alone : ∀ c c' k, taking c k → taking c' k → c = c'

variable {cap count count' : κ → Nat} {taking taking' : Nat → κ → Prop}

/-- Places are given back, and takers give up. -/
theorem Capped.shrink (h : Capped cap count taking) (hcount : ∀ k, count' k ≤ count k)
    (htaking : ∀ c k, taking' c k → taking c k) : Capped cap count' taking' where
  bound := fun k => Nat.le_trans (hcount k) (h.bound k)
  place := fun c k hk => Nat.lt_of_le_of_lt (hcount k) (h.place c k (htaking c k hk))
  alone := fun c c' k hc hc' => h.alone c c' k (htaking c k hc) (htaking c' k hc')

/-- A taker finds a place of `k`, and is the only one. -/
theorem Capped.admit (h : Capped cap count taking) (c : Nat) {k : κ} (hplace : count k < cap k)
    (hnone : ∀ c', ¬ taking c' k)
    (htaking : ∀ c' k', taking' c' k' → taking c' k' ∨ c' = c ∧ k' = k) :
    Capped cap count taking' where
  bound := h.bound
  place := by
    intro c' k' hk
    rcases htaking c' k' hk with hold | ⟨_, rfl⟩
    · exact h.place c' k' hold
    · exact hplace
  alone := by
    intro c₁ c₂ k' h₁ h₂
    rcases htaking c₁ k' h₁ with hold₁ | ⟨hc₁, rfl⟩
    · rcases htaking c₂ k' h₂ with hold₂ | ⟨_, rfl⟩
      · exact h.alone c₁ c₂ k' hold₁ hold₂
      · exact absurd hold₁ (hnone c₁)
    · rcases htaking c₂ k' h₂ with hold₂ | ⟨hc₂, _⟩
      · exact absurd hold₂ (hnone c₂)
      · exact hc₁.trans hc₂.symm

/-- A taker takes its place. -/
theorem Capped.take (h : Capped cap count taking) {c : Nat} {k : κ} (hc : taking c k)
    (hself : count' k ≤ count k + 1) (hother : ∀ k', k' ≠ k → count' k' ≤ count k')
    (htaking : ∀ c' k', taking' c' k' → c' ≠ c ∧ taking c' k') : Capped cap count' taking' where
  bound := by
    intro k'
    by_cases hk : k' = k
    · subst hk
      have := h.place c k' hc
      omega
    · exact Nat.le_trans (hother k' hk) (h.bound k')
  place := by
    intro c' k' hk'
    obtain ⟨hne, hk'⟩ := htaking c' k' hk'
    by_cases hk : k' = k
    · subst hk
      exact absurd (h.alone c' c k' hk' hc) hne
    · exact Nat.lt_of_le_of_lt (hother k' hk) (h.place c' k' hk')
  alone := fun c₁ c₂ k' h₁ h₂ => h.alone c₁ c₂ k' (htaking c₁ k' h₁).2 (htaking c₂ k' h₂).2

end Lib
end NolagCore
