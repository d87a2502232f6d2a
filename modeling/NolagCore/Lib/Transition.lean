/-!
# Lib.Transition

Labelled transition systems with an executable step. A label names one atomic step and carries
every choice the step makes, so a run is a list of labels and `exec` replays it; `none` means the
label is not enabled.

`exec_invariant` is the one induction over runs: an invariant kept by every step that meets a
condition holds after every run whose steps all meet it.
-/

namespace NolagCore
namespace Lib

variable {σ ι : Type}

/-- Replay the labels from `s`. -/
def exec (step : σ → ι → Option σ) (s : σ) : List ι → Option σ
  | [] => some s
  | i :: is => (step s i).bind fun s' => exec step s' is

/-- Every step of the run from `s` meets `C`, a condition on the state before the step. -/
def Meets (step : σ → ι → Option σ) (C : σ → ι → Prop) (s : σ) : List ι → Prop
  | [] => True
  | i :: is => C s i ∧ ∀ s', step s i = some s' → Meets step C s' is

variable {step : σ → ι → Option σ} {C : σ → ι → Prop}

theorem exec_cons {s s'' : σ} {i : ι} {is : List ι} (h : exec step s (i :: is) = some s'') :
    ∃ s', step s i = some s' ∧ exec step s' is = some s'' :=
  Option.bind_eq_some_iff.1 h

theorem exec_step {s s' s'' : σ} {i : ι} {is : List ι} (h : step s i = some s')
    (h' : exec step s' is = some s'') : exec step s (i :: is) = some s'' := by
  simp only [exec, h, Option.bind_some, h']

theorem exec_append {s s'' : σ} {is js : List ι} :
    exec step s (is ++ js) = some s'' ↔
      ∃ s', exec step s is = some s' ∧ exec step s' js = some s'' := by
  induction is generalizing s with
  | nil => simp [exec]
  | cons i is ih =>
    simp only [List.cons_append, exec, Option.bind_eq_some_iff, ih]
    constructor
    · rintro ⟨s₁, h₁, s₂, h₂, h₃⟩; exact ⟨s₂, ⟨s₁, h₁, h₂⟩, h₃⟩
    · rintro ⟨s₂, ⟨s₁, h₁, h₂⟩, h₃⟩; exact ⟨s₁, h₁, s₂, h₂, h₃⟩

theorem Meets.cons {s s' : σ} {i : ι} {is : List ι} (hC : C s i) (hs : step s i = some s')
    (h : Meets step C s' is) : Meets step C s (i :: is) := by
  refine ⟨hC, fun s'' hs'' => ?_⟩
  rw [hs] at hs''
  cases hs''
  exact h

instance [∀ s i, Decidable (C s i)] (s : σ) (is : List ι) : Decidable (Meets step C s is) :=
  match is with
  | [] => .isTrue trivial
  | i :: is =>
    match hs : step s i with
    | none => decidable_of_iff (C s i)
        ⟨fun hC => ⟨hC, fun s' hs' => by rw [hs] at hs'; cases hs'⟩, And.left⟩
    | some s' =>
      have : Decidable (Meets step C s' is) := instDecidableMeets s' is
      decidable_of_iff (C s i ∧ Meets step C s' is)
        ⟨fun h => .cons h.1 hs h.2, fun h => ⟨h.1, h.2 s' hs⟩⟩

theorem Meets.append_left {s : σ} {is js : List ι} (h : Meets step C s (is ++ js)) :
    Meets step C s is := by
  induction is generalizing s with
  | nil => trivial
  | cons i is ih => exact ⟨h.1, fun s' hs => ih (h.2 s' hs)⟩

theorem Meets.append_right {s s' : σ} {is js : List ι} (h : Meets step C s (is ++ js))
    (hs : exec step s is = some s') : Meets step C s' js := by
  induction is generalizing s with
  | nil => cases hs; exact h
  | cons i is ih =>
    obtain ⟨s₁, h₁, h₂⟩ := exec_cons hs
    exact ih (h.2 s₁ h₁) h₂

theorem Meets.of_forall {p : ι → Prop} {s : σ} {is : List ι} (hp : ∀ i ∈ is, p i) :
    Meets step (fun _ i => p i) s is := by
  induction is generalizing s with
  | nil => trivial
  | cons i is ih =>
    refine ⟨hp i List.mem_cons_self, fun s' _ => ?_⟩
    exact ih fun j hj => hp j (List.mem_cons_of_mem _ hj)

theorem Meets.append {s : σ} {is js : List ι} (h : Meets step C s is)
    (h' : ∀ s', exec step s is = some s' → Meets step C s' js) : Meets step C s (is ++ js) := by
  induction is generalizing s with
  | nil => exact h' s rfl
  | cons i is ih =>
    refine ⟨h.1, fun s' hs => ih (h.2 s' hs) ?_⟩
    intro s'' hrun
    exact h' s'' (exec_step hs hrun)

theorem Meets.mono {C' : σ → ι → Prop} {s : σ} {is : List ι} (h : Meets step C s is)
    (hC : ∀ s i, C s i → C' s i) : Meets step C' s is := by
  induction is generalizing s with
  | nil => trivial
  | cons i is ih => exact ⟨hC s i h.1, fun s' hs => ih (h.2 s' hs)⟩

theorem Meets.both {C' : σ → ι → Prop} {s : σ} {is : List ι} (h : Meets step C s is)
    (h' : Meets step C' s is) : Meets step (fun s i => C s i ∧ C' s i) s is := by
  induction is generalizing s with
  | nil => trivial
  | cons i is ih => exact ⟨⟨h.1, h'.1⟩, fun s' hs => ih (h.2 s' hs) (h'.2 s' hs)⟩

/-- Every step of a run starts from the state that the labels before it leave. -/
theorem Meets.reached {s : σ} {is : List ι} : Meets step (fun s' i => ∃ before later,
    is = before ++ i :: later ∧ exec step s before = some s') s is := by
  induction is generalizing s with
  | nil => trivial
  | cons i is ih =>
    refine ⟨⟨[], is, rfl, rfl⟩, fun s' hs => ih.mono ?_⟩
    rintro s'' j ⟨before, later, rfl, hbefore⟩
    exact ⟨i :: before, later, rfl, exec_step hs hbefore⟩

/-- A condition on the labels alone, beside one on the steps. -/
theorem Meets.and {p : ι → Prop} {s : σ} {is : List ι} (h : Meets step C s is)
    (hp : ∀ i ∈ is, p i) : Meets step (fun s i => C s i ∧ p i) s is := by
  induction is generalizing s with
  | nil => trivial
  | cons i is ih =>
    refine ⟨⟨h.1, hp i List.mem_cons_self⟩, fun s' hs => ?_⟩
    exact ih (h.2 s' hs) fun j hj => hp j (List.mem_cons_of_mem _ hj)

/-- An invariant kept by every step that meets `C` holds after every run that meets `C`. -/
theorem exec_invariant {I : σ → Prop}
    (hstep : ∀ s i s', I s → C s i → step s i = some s' → I s') :
    ∀ (is : List ι) (s s' : σ), I s → Meets step C s is → exec step s is = some s' → I s' := by
  intro is
  induction is with
  | nil => intro s s' hI _ hs; cases hs; exact hI
  | cons i is ih =>
    intro s s' hI hC hs
    obtain ⟨s₁, h₁, h₂⟩ := exec_cons hs
    exact ih s₁ s' (hstep s i s₁ hI hC.1 h₁) (hC.2 s₁ h₁) h₂

/-- Along a run that meets `C` every step starts in a state with the invariant. -/
theorem Meets.of_invariant {I : σ → Prop} (hstep : ∀ s i s', I s → C s i → step s i = some s' → I s')
    {s : σ} {is : List ι} (hI : I s) (h : Meets step C s is) : Meets step (fun s _ => I s) s is := by
  induction is generalizing s with
  | nil => trivial
  | cons i is ih => exact ⟨hI, fun s' hs => ih (hstep s i s' hI h.1 hs) (h.2 s' hs)⟩

/-- Where `C` says exactly which steps keep an invariant, a run keeps it all along exactly when its
steps meet `C`. -/
theorem exec_always_iff {I : σ → Prop}
    (hstep : ∀ s i, I s → (C s i ↔ ∀ s', step s i = some s' → I s')) (is : List ι) (s : σ)
    (hI : I s) :
    (∀ before later, is = before ++ later → ∀ s', exec step s before = some s' → I s') ↔
      Meets step C s is := by
  constructor
  · intro halways
    induction is generalizing s with
    | nil => trivial
    | cons i is ih =>
      have hnext : ∀ s', step s i = some s' → I s' := fun s' hs =>
        halways [i] is rfl s' (exec_step hs rfl)
      refine ⟨(hstep s i hI).2 hnext, fun s' hs => ih s' (hnext s' hs) ?_⟩
      intro before later heq s'' hrun
      exact halways (i :: before) later (by rw [heq]; rfl) s'' (exec_step hs hrun)
  · intro hmeets before later heq s' hrun
    subst heq
    exact exec_invariant (fun s i s' hI hC hs => (hstep s i hI).1 hC s' hs) before s s' hI
      hmeets.append_left hrun

end Lib
end NolagCore
