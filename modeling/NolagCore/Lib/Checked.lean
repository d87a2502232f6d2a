import Mathlib.Data.List.Forall2

/-!
# Lib.Checked

Loops over a list whose body may throw. `mapOk` collects results, `forEach` threads a state and
counts the iterations; their lemmas say what a loop that did not throw has done.
-/

namespace NolagCore
namespace Lib

variable {ε α β σ : Type}

theorem bind_ok {x : Except ε α} {f : α → Except ε β} {b : β} :
    (x >>= f) = .ok b ↔ ∃ a, x = .ok a ∧ f a = .ok b := by
  cases x with
  | error e => simp [bind, Except.bind]
  | ok a => simp [bind, Except.bind]

/-- `l.map(f)` where `f` may throw. -/
def mapOk (f : α → Except ε β) : List α → Except ε (List β)
  | [] => .ok []
  | a :: l => do
    let b ← f a
    let bs ← mapOk f l
    return b :: bs

theorem mapOk_getElem? {f : α → Except ε β} {l : List α} {bs : List β} (h : mapOk f l = .ok bs)
    {i : Nat} {b : β} : bs[i]? = some b ↔ ∃ a, l[i]? = some a ∧ f a = .ok b := by
  induction l generalizing bs i with
  | nil =>
    cases h
    simp
  | cons a l ih =>
    obtain ⟨b₀, hb₀, h⟩ := bind_ok.1 h
    obtain ⟨bs', hbs', h⟩ := bind_ok.1 h
    cases h
    cases i with
    | zero => simp [hb₀]
    | succ i => simpa using ih hbs'

theorem mem_mapOk {f : α → Except ε β} {l : List α} {bs : List β} (h : mapOk f l = .ok bs) {b : β} :
    b ∈ bs ↔ ∃ a ∈ l, f a = .ok b := by
  rw [List.mem_iff_getElem?]
  constructor
  · rintro ⟨i, hi⟩
    obtain ⟨a, ha, hb⟩ := (mapOk_getElem? h).1 hi
    exact ⟨a, List.mem_of_getElem? ha, hb⟩
  · rintro ⟨a, ha, hb⟩
    obtain ⟨i, hi⟩ := List.mem_iff_getElem?.1 ha
    exact ⟨i, (mapOk_getElem? h).2 ⟨a, hi, hb⟩⟩

theorem mapOk_ok {f : α → Except ε β} {l : List α} {bs : List β} (h : mapOk f l = .ok bs) {a : α}
    (ha : a ∈ l) : ∃ b, f a = .ok b := by
  induction l generalizing bs with
  | nil => cases ha
  | cons a₀ l ih =>
    obtain ⟨b₀, hb₀, h⟩ := bind_ok.1 h
    obtain ⟨bs', hbs', h⟩ := bind_ok.1 h
    rcases List.mem_cons.1 ha with rfl | ha
    · exact ⟨b₀, hb₀⟩
    · exact ih hbs' ha

/-- The loop ends without an error exactly when its body does at every element. -/
theorem mapOk_isOk {f : α → Except ε β} {l : List α} :
    (∃ bs, mapOk f l = .ok bs) ↔ ∀ a ∈ l, ∃ b, f a = .ok b := by
  constructor
  · rintro ⟨bs, h⟩ a ha
    exact mapOk_ok h ha
  · intro h
    induction l with
    | nil => exact ⟨[], rfl⟩
    | cons a l ih =>
      obtain ⟨b, hb⟩ := h a List.mem_cons_self
      obtain ⟨bs, hbs⟩ := ih fun a' ha' => h a' (List.mem_cons_of_mem _ ha')
      refine ⟨b :: bs, ?_⟩
      simp only [mapOk, hb, hbs]
      rfl

theorem mapOk_map {f : α → Except ε β} (g : σ → α) (l : List σ) :
    mapOk f (l.map g) = mapOk (fun a => f (g a)) l := by
  induction l with
  | nil => rfl
  | cons a l ih =>
    simp only [List.map_cons, mapOk, ih]

/-- Results that are described one by one. -/
theorem mapOk_forall₂ {S : β → σ → Prop} {f : α → Except ε β} {l : List α} {ds : List σ}
    (h : List.Forall₂ (fun a d => ∃ b, f a = .ok b ∧ S b d) l ds) :
    ∃ bs, mapOk f l = .ok bs ∧ List.Forall₂ S bs ds := by
  induction h with
  | nil => exact ⟨[], rfl, .nil⟩
  | cons hab _ ih =>
    obtain ⟨b, hb, hS⟩ := hab
    obtain ⟨bs, hbs, hrest⟩ := ih
    exact ⟨b :: bs, bind_ok.2 ⟨b, hb, bind_ok.2 ⟨bs, hbs, rfl⟩⟩, .cons hS hrest⟩

/-- Elements in another order give their results in another order. -/
theorem mapOk_perm {f : α → Except ε β} {l l' : List α} (hp : l.Perm l') :
    ∀ {bs : List β}, mapOk f l = .ok bs → ∃ bs', mapOk f l' = .ok bs' ∧ bs.Perm bs' := by
  induction hp with
  | nil => exact fun h => ⟨_, h, .refl _⟩
  | cons a _ ih =>
    intro bs h
    obtain ⟨b, hb, h⟩ := bind_ok.1 h
    obtain ⟨bs, hbs, h⟩ := bind_ok.1 h
    cases h
    obtain ⟨bs', hbs', hperm⟩ := ih hbs
    exact ⟨b :: bs', bind_ok.2 ⟨b, hb, bind_ok.2 ⟨bs', hbs', rfl⟩⟩, hperm.cons b⟩
  | swap a a' l =>
    intro bs h
    obtain ⟨b, hb, h⟩ := bind_ok.1 h
    obtain ⟨bs₁, h₁, h⟩ := bind_ok.1 h
    cases h
    obtain ⟨b', hb', h₁⟩ := bind_ok.1 h₁
    obtain ⟨bs, hbs, h₁⟩ := bind_ok.1 h₁
    cases h₁
    exact ⟨b' :: b :: bs, bind_ok.2 ⟨b', hb', bind_ok.2 ⟨b :: bs,
      bind_ok.2 ⟨b, hb, bind_ok.2 ⟨bs, hbs, rfl⟩⟩, rfl⟩⟩, .swap b' b bs⟩
  | trans _ _ ih₁ ih₂ =>
    intro bs h
    obtain ⟨bs₁, h₁, hperm₁⟩ := ih₁ h
    obtain ⟨bs₂, h₂, hperm₂⟩ := ih₂ h₁
    exact ⟨bs₂, h₂, hperm₁.trans hperm₂⟩

theorem mem_mapIdx_iff {f : Nat → α → β} {l : List α} {b : β} :
    b ∈ l.mapIdx f ↔ ∃ i a, l[i]? = some a ∧ f i a = b := by
  simp only [List.mem_iff_getElem?, List.getElem?_mapIdx, Option.map_eq_some_iff]

/-- `for (const a of l)` from the `i`-th iteration on. -/
def forEach (f : Nat → α → σ → Except ε σ) : Nat → List α → σ → Except ε σ
  | _, [], s => .ok s
  | i, a :: l, s => do
    let s' ← f i a s
    forEach f (i + 1) l s'

end Lib
end NolagCore
