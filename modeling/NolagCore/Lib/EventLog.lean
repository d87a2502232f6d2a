import Mathlib.Data.List.Induction

/-!
# Lib.EventLog

A state that is the fold of a log of events, and a fact about it that some events give and others
take away. Such a fact holds after the log exactly as the last event that has to do with it left it:
`lastGiven_of_holds` finds the event that gave it, `holds_of_lastGiven` keeps it until one takes it.
-/

namespace NolagCore
namespace Lib

variable {σ ι : Type} {gives takes : ι → Prop}

/-- An event of the log gives it, and none after that one takes it. -/
def LastGiven (gives takes : ι → Prop) (log : List ι) : Prop :=
  ∃ before e later, log = before ++ e :: later ∧ gives e ∧ ∀ e' ∈ later, ¬ takes e'

theorem lastGiven_nil : ¬ LastGiven gives takes [] := by
  rintro ⟨before, e, later, heq, _⟩
  cases before <;> cases heq

/-- The last event decides, or leaves it to the log before. -/
theorem lastGiven_concat {log : List ι} {e : ι} :
    LastGiven gives takes (log ++ [e]) ↔ gives e ∨ LastGiven gives takes log ∧ ¬ takes e := by
  constructor
  · rintro ⟨before, e₀, later, heq, hgives, hlater⟩
    rcases List.eq_nil_or_concat later with rfl | ⟨later, e₁, rfl⟩
    · obtain ⟨_, hlast⟩ := List.append_inj' heq rfl
      cases hlast
      exact .inl hgives
    · rw [List.concat_eq_append] at heq hlater
      rw [← List.cons_append, ← List.append_assoc] at heq
      obtain ⟨rfl, hlast⟩ := List.append_inj' heq rfl
      cases hlast
      refine .inr ⟨⟨before, e₀, later, rfl, hgives, fun e' he' => ?_⟩, ?_⟩
      · exact hlater e' (List.mem_append_left _ he')
      · exact hlater e (List.mem_append_right _ (List.mem_singleton_self e))
  · rintro (hgives | ⟨⟨before, e₀, later, rfl, hgives, hlater⟩, hkeeps⟩)
    · exact ⟨log, e, [], rfl, hgives, fun e' he' => by cases he'⟩
    · refine ⟨before, e₀, later ++ [e], by simp, hgives, fun e' he' => ?_⟩
      rcases List.mem_append.1 he' with he' | he'
      · exact hlater e' he'
      · rw [List.mem_singleton.1 he']
        exact hkeeps

section

variable {after : σ → ι → σ} (holds : σ → Prop) {s : σ}

/-- What holds after the log and not before it was given by an event of it. -/
theorem lastGiven_of_holds (hstep : ∀ s e, holds (after s e) → gives e ∨ holds s ∧ ¬ takes e)
    (hstart : ¬ holds s) {log : List ι} (h : holds (log.foldl after s)) :
    LastGiven gives takes log := by
  induction log using List.reverseRecOn with
  | nil => exact absurd h hstart
  | append_singleton log e ih =>
    rw [List.foldl_append] at h
    refine lastGiven_concat.2 ?_
    rcases hstep _ e h with hgives | ⟨hbefore, hkeeps⟩
    · exact .inl hgives
    · exact .inr ⟨ih hbefore, hkeeps⟩

/-- What an event of the log gave holds after it, where no later one takes it. -/
theorem holds_of_lastGiven (hgives : ∀ s e, gives e → holds (after s e))
    (hkeeps : ∀ s e, ¬ takes e → holds s → holds (after s e)) {log : List ι}
    (h : LastGiven gives takes log) : holds (log.foldl after s) := by
  induction log using List.reverseRecOn with
  | nil => exact absurd h lastGiven_nil
  | append_singleton log e ih =>
    rw [List.foldl_append]
    rcases lastGiven_concat.1 h with he | ⟨hbefore, hnot⟩
    · exact hgives _ e he
    · exact hkeeps _ e hnot (ih hbefore)

end

end Lib
end NolagCore
