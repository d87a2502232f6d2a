import Mathlib.Data.List.Nodup

/-!
# Lib.Calls

Concurrent calls, each moved one statement at a time. A pool says of every call what it was asked
and which phase it is in.

`Lists` keeps the order in which calls have taken effect: every call that has reached a phase of
`done` is listed once, and a call that reaches one is put at the end. Folding the effects of the
listed calls is then what a serial execution in that order leaves.
-/

namespace NolagCore
namespace Lib

/-- Calls by number: the request `κ` and the phase `φ`. -/
def Pool (κ φ : Type) : Type := Nat → Option (κ × φ)

namespace Pool

variable {κ φ : Type}

def empty : Pool κ φ := fun _ => none

/-- Put call `c` at a phase. -/
def move (p : Pool κ φ) (c : Nat) (k : κ) (phase : φ) : Pool κ φ :=
  fun c' => if c' = c then some (k, phase) else p c'

@[simp] theorem move_self (p : Pool κ φ) (c : Nat) (k : κ) (phase : φ) :
    p.move c k phase c = some (k, phase) := by
  simp [move]

theorem move_ne (p : Pool κ φ) {c c' : Nat} (k : κ) (phase : φ) (h : c' ≠ c) :
    p.move c k phase c' = p c' := by
  simp [move, h]

/-- Of a call in the new pool: it is the one that moved, or it was there before. -/
theorem of_move {p : Pool κ φ} {c c' : Nat} {k k' : κ} {phase phase' : φ}
    (h : p.move c k phase c' = some (k', phase')) :
    (c' = c ∧ k' = k ∧ phase' = phase) ∨ (c' ≠ c ∧ p c' = some (k', phase')) := by
  by_cases hc : c' = c
  · subst hc
    rw [move_self] at h
    cases h
    exact .inl ⟨rfl, rfl, rfl⟩
  · rw [move_ne p k phase hc] at h
    exact .inr ⟨hc, h⟩

/-- A call whose phase is not the one the moved call is put at was there before. -/
theorem of_move_ne {p : Pool κ φ} {c c' : Nat} {k k' : κ} {phase phase' : φ}
    (h : p.move c k phase c' = some (k', phase')) (hne : phase' ≠ phase) :
    c' ≠ c ∧ p c' = some (k', phase') := by
  rcases of_move h with ⟨_, _, hphase⟩ | hold
  · exact absurd hphase hne
  · exact hold

/-- What holds of the phase a call is in. -/
theorem phase_of {p : Pool κ φ} {c : Nat} {k : κ} {phase : φ} (hc : p c = some (k, phase))
    {P : φ → Prop} (hP : P phase) : ∀ k' phase', p c = some (k', phase') → P phase' := by
  intro k' phase' hc'
  rw [hc] at hc'
  cases hc'
  exact hP

/-- A call that is in another phase is not in `phase'`. -/
theorem phase_ne {p : Pool κ φ} {c : Nat} {k : κ} {phase phase' : φ} (hc : p c = some (k, phase))
    (hne : phase ≠ phase') : ∀ k' phase'', p c = some (k', phase'') → phase'' ≠ phase' :=
  phase_of hc hne

/-- `order` lists the calls in a phase of `done`, each once. -/
structure Lists (p : Pool κ φ) (done : φ → Bool) (order : List (Nat × κ)) : Prop where
  nodup : (order.map Prod.fst).Nodup
  mem_iff : ∀ c k, (c, k) ∈ order ↔ ∃ phase, p c = some (k, phase) ∧ done phase = true

variable {p : Pool κ φ} {done : φ → Bool} {order : List (Nat × κ)}

theorem Lists.nil : Lists (empty : Pool κ φ) done [] where
  nodup := List.nodup_nil
  mem_iff := by
    intro c k
    simp [empty]

/-- A call that is not in a phase of `done` is not listed. -/
theorem Lists.not_mem (h : p.Lists done order) {c : Nat}
    (hc : ∀ k phase, p c = some (k, phase) → done phase = false) : c ∉ order.map Prod.fst := by
  intro hm
  obtain ⟨⟨c', k⟩, he, rfl⟩ := List.mem_map.1 hm
  obtain ⟨phase, hp, hd⟩ := (h.mem_iff c' k).1 he
  rw [hc k phase hp] at hd
  cases hd

/-- A call reaches a phase of `done`. -/
theorem Lists.append (h : p.Lists done order) {c : Nat} {k : κ} {phase : φ}
    (hc : ∀ k phase, p c = some (k, phase) → done phase = false) (hd : done phase = true) :
    (p.move c k phase).Lists done (order ++ [(c, k)]) where
  nodup := by
    rw [List.map_append]
    exact h.nodup.append (List.nodup_singleton c) (by simpa using h.not_mem hc)
  mem_iff := by
    intro c' k'
    rw [List.mem_append, List.mem_singleton]
    by_cases heq : c' = c
    · subst heq
      constructor
      · rintro (hm | hm)
        · exact absurd (List.mem_map_of_mem hm) (h.not_mem hc)
        · cases hm
          exact ⟨phase, p.move_self c' k phase, hd⟩
      · rintro ⟨phase', hp, -⟩
        rw [move_self] at hp
        cases hp
        exact .inr rfl
    · rw [h.mem_iff, p.move_ne k phase heq]
      constructor
      · rintro (hm | hm)
        · exact hm
        · cases hm
          exact absurd rfl heq
      · exact .inl

/-- A call moves within the phases of `done`, or within the others. -/
theorem Lists.stay (h : p.Lists done order) {c : Nat} {k : κ} {phase : φ}
    (hc : (∃ phase', p c = some (k, phase') ∧ done phase' = true ∧ done phase = true) ∨
      (∀ k phase', p c = some (k, phase') → done phase' = false) ∧ done phase = false) :
    (p.move c k phase).Lists done order where
  nodup := h.nodup
  mem_iff := by
    intro c' k'
    rw [h.mem_iff]
    by_cases heq : c' = c
    · subst heq
      rw [move_self]
      rcases hc with ⟨phase', hp, hd', hd⟩ | ⟨hnot, hd⟩
      · constructor
        · rintro ⟨phase'', hp'', -⟩
          rw [hp] at hp''
          cases hp''
          exact ⟨phase, rfl, hd⟩
        · rintro ⟨phase'', hp'', -⟩
          cases hp''
          exact ⟨phase', hp, hd'⟩
      · constructor
        · rintro ⟨phase', hp, hd'⟩
          rw [hnot k' phase' hp] at hd'
          cases hd'
        · rintro ⟨phase', hp, hd'⟩
          cases hp
          rw [hd] at hd'
          cases hd'
    · rw [p.move_ne k phase heq]

/-- Where two ways of counting agree on the phases there are, they list the same calls. -/
theorem Lists.congr (h : p.Lists done order) {done' : φ → Bool}
    (hd : ∀ c k phase, p c = some (k, phase) → done' phase = done phase) : p.Lists done' order where
  nodup := h.nodup
  mem_iff := by
    intro c k
    rw [h.mem_iff]
    constructor
    · rintro ⟨phase, hp, hdone⟩
      exact ⟨phase, hp, (hd c k phase hp).trans hdone⟩
    · rintro ⟨phase, hp, hdone⟩
      exact ⟨phase, hp, (hd c k phase hp).symm.trans hdone⟩

end Pool

/-- What the calls leave when they are executed in the order listed. -/
def foldCalls {κ σ : Type} (effect : κ → σ → σ) (s : σ) (order : List (Nat × κ)) : σ :=
  order.foldl (fun s e => effect e.2 s) s

theorem foldCalls_append {κ σ : Type} (effect : κ → σ → σ) (s : σ) (order : List (Nat × κ)) (c : Nat)
    (k : κ) : foldCalls effect s (order ++ [(c, k)]) = effect k (foldCalls effect s order) := by
  simp [foldCalls]

/-- What every effect keeps, the whole order keeps. -/
theorem foldCalls_invariant {κ σ : Type} {effect : κ → σ → σ} {I : σ → Prop}
    (h : ∀ k s, I s → I (effect k s)) {s : σ} (hs : I s) (order : List (Nat × κ)) :
    I (foldCalls effect s order) := by
  induction order generalizing s with
  | nil => exact hs
  | cons e order ih => exact ih (h e.2 s hs)

/-- What one listed call establishes and every effect keeps holds in the end. -/
theorem foldCalls_of_mem {κ σ : Type} {effect : κ → σ → σ} {I : σ → Prop}
    (h : ∀ k s, I s → I (effect k s)) {c : Nat} {k : κ} (hk : ∀ s, I (effect k s))
    {order : List (Nat × κ)} (hm : (c, k) ∈ order) (s : σ) : I (foldCalls effect s order) := by
  induction order generalizing s with
  | nil => cases hm
  | cons e order ih =>
    rcases List.mem_cons.1 hm with rfl | hm
    · exact foldCalls_invariant h (hk s) order
    · exact ih hm _

end Lib
end NolagCore
