import Mathlib.Data.List.Induction

/-!
# Lib.ExpiringMap

A map whose entries expire, by what was done to it: a key answers the value of the last write that
touched it, for as long as that write is fresh.

`Stores` says what an implementation has to hold to give these answers from an instant on. It is
free to hold or to drop whatever has expired by then (`Stores.drop`), so when and how often it
removes entries does not show.
-/

namespace NolagCore
namespace Lib
namespace ExpiringMap

/-- One call on the map. -/
inductive Event (κ ν τ : Type) where
  | read
  | set (instant : τ) (key : κ) (value : ν)
  | delete (key : κ)
  | clear

variable {κ ν τ : Type}

def Event.Touches (key : κ) : Event κ ν τ → Prop
  | .read => False
  | .set _ k _ => k = key
  | .delete k => k = key
  | .clear => True

variable [DecidableEq κ]

/-- What one event leaves of the write that stands at `key`. -/
def Event.write (key : κ) (written : Option (τ × ν)) : Event κ ν τ → Option (τ × ν)
  | .read => written
  | .set s k v => if k = key then some (s, v) else written
  | .delete k => if k = key then none else written
  | .clear => none

/-- The write that stands at `key` after a history: when, and of what. -/
def last (history : List (Event κ ν τ)) (key : κ) : Option (τ × ν) :=
  history.foldl (Event.write key) none

theorem last_append (history : List (Event κ ν τ)) (e : Event κ ν τ) (key : κ) :
    last (history ++ [e]) key = e.write key (last history key) := by
  simp [last]

theorem write_of_not_touches {key : κ} {e : Event κ ν τ} (h : ¬ e.Touches key)
    (written : Option (τ × ν)) : e.write key written = written := by
  cases e with
  | read => rfl
  | set s k v => exact if_neg h
  | delete k => exact if_neg h
  | clear => exact absurd trivial h

theorem foldl_of_not_touches {key : κ} {events : List (Event κ ν τ)}
    (h : ∀ e ∈ events, ¬ e.Touches key) (written : Option (τ × ν)) :
    events.foldl (Event.write key) written = written := by
  induction events with
  | nil => rfl
  | cons e events ih =>
    rw [List.foldl_cons, write_of_not_touches (h e List.mem_cons_self)]
    exact ih fun e' he' => h e' (List.mem_cons_of_mem e he')

/-- The standing write is the last event that touched the key, where that is a write. -/
theorem last_eq_some_iff {history : List (Event κ ν τ)} {key : κ} {s : τ} {v : ν} :
    last history key = some (s, v) ↔ ∃ before after,
      history = before ++ .set s key v :: after ∧ ∀ e ∈ after, ¬ e.Touches key := by
  constructor
  · intro h
    induction history using List.reverseRecOn with
    | nil => simp [last] at h
    | append_singleton history e ih =>
      rw [last_append] at h
      by_cases htouch : e.Touches key
      · cases e with
        | read => exact absurd htouch id
        | set s' k v' =>
          obtain rfl : k = key := htouch
          simp only [Event.write, if_true, Option.some.injEq, Prod.mk.injEq] at h
          obtain ⟨rfl, rfl⟩ := h
          exact ⟨history, [], rfl, by simp⟩
        | delete k =>
          obtain rfl : k = key := htouch
          simp [Event.write] at h
        | clear => simp [Event.write] at h
      · rw [write_of_not_touches htouch] at h
        obtain ⟨before, after, rfl, hafter⟩ := ih h
        refine ⟨before, after ++ [e], by simp, ?_⟩
        intro e' he'
        rcases List.mem_append.1 he' with he' | he'
        · exact hafter e' he'
        · rw [List.mem_singleton.1 he']
          exact htouch
  · rintro ⟨before, after, rfl, hafter⟩
    unfold last
    rw [List.foldl_append, List.foldl_cons, foldl_of_not_touches hafter]
    simp [Event.write]

variable [LE τ]

/-- What `key` answers at `t`, where a write of `s` is fresh up to `expiry s`. -/
def value? [DecidableLE τ] (expiry : τ → τ) (history : List (Event κ ν τ)) (t : τ) (key : κ) :
    Option ν :=
  ((last history key).filter fun w => decide (t ≤ expiry w.1)).map Prod.snd

theorem value?_eq_some_iff [DecidableLE τ] {expiry : τ → τ} {history : List (Event κ ν τ)}
    {t : τ} {key : κ} {v : ν} : value? expiry history t key = some v ↔
      ∃ s, last history key = some (s, v) ∧ t ≤ expiry s := by
  simp [value?, Option.filter_eq_some_iff, and_comm]

/-! ## Implementations -/

/-- An implementation holds, at each key, a value and the instant it expires; `t` is the latest
reading of the clock. -/
structure Stores (expiry : τ → τ) (history : List (Event κ ν τ)) (t : τ)
    (held : κ → Option (ν × τ)) : Prop where
  written : ∀ key v x, held key = some (v, x) → ∃ s, last history key = some (s, v) ∧ x = expiry s
  kept : ∀ key s v, last history key = some (s, v) → t ≤ expiry s → held key = some (v, expiry s)

/-- What an event does to the entries held. -/
def Event.apply (expiry : τ → τ) (held : κ → Option (ν × τ)) :
    Event κ ν τ → κ → Option (ν × τ)
  | .read, key => held key
  | .set s k v, key => if k = key then some (v, expiry s) else held key
  | .delete k, key => if k = key then none else held key
  | .clear, _ => none

section

variable {expiry : τ → τ} {history : List (Event κ ν τ)} {t : τ} {held held' : κ → Option (ν × τ)}

theorem stores_empty : Stores expiry ([] : List (Event κ ν τ)) t fun _ => none where
  written key v x h := by cases h
  kept key s v h := by simp [last] at h

theorem Stores.later [Std.IsPreorder τ] (h : Stores expiry history t held) {t' : τ} (ht : t ≤ t') :
    Stores expiry history t' held where
  written := h.written
  kept key s v hlast hfresh := h.kept key s v hlast (Std.le_trans ht hfresh)

theorem Stores.event (h : Stores expiry history t held) (e : Event κ ν τ) :
    Stores expiry (history ++ [e]) t (e.apply expiry held) := by
  -- whether the event touches the key decides on both sides
  constructor
  · intro key v x hheld
    rw [last_append]
    cases e with
    | read => exact h.written key v x hheld
    | set s k w =>
      simp only [Event.apply, Event.write] at hheld ⊢
      split at hheld
      · rename_i hk
        cases hheld
        exact ⟨s, if_pos hk, rfl⟩
      · rename_i hk
        rw [if_neg hk]
        exact h.written key v x hheld
    | delete k =>
      simp only [Event.apply, Event.write] at hheld ⊢
      split at hheld
      · cases hheld
      · rename_i hk
        rw [if_neg hk]
        exact h.written key v x hheld
    | clear => cases hheld
  · intro key s v hlast hfresh
    rw [last_append] at hlast
    cases e with
    | read => exact h.kept key s v hlast hfresh
    | set s' k w =>
      simp only [Event.apply, Event.write] at hlast ⊢
      split at hlast
      · rename_i hk
        cases hlast
        exact if_pos hk
      · rename_i hk
        rw [if_neg hk]
        exact h.kept key s v hlast hfresh
    | delete k =>
      simp only [Event.apply, Event.write] at hlast ⊢
      split at hlast
      · cases hlast
      · rename_i hk
        rw [if_neg hk]
        exact h.kept key s v hlast hfresh
    | clear => cases hlast

/-- Entries that have expired may go. -/
theorem Stores.drop [DecidableLE τ] (h : Stores expiry history t held)
    (hdrop : ∀ key, held' key = held key ∨
      held' key = (held key).filter fun e => decide (t ≤ e.2)) :
    Stores expiry history t held' := by
  constructor
  · intro key v x hheld
    rcases hdrop key with hkey | hkey
    · exact h.written key v x (hkey ▸ hheld)
    · rw [hkey, Option.filter_eq_some_iff] at hheld
      exact h.written key v x hheld.1
  · intro key s v hlast hfresh
    have hkept := h.kept key s v hlast hfresh
    rcases hdrop key with hkey | hkey
    · rw [hkey, hkept]
    · rw [hkey, hkept]
      exact Option.filter_eq_some_iff.2 ⟨rfl, decide_eq_true hfresh⟩

/-- The fresh part of what is held is what the map answers. -/
theorem Stores.answer [DecidableLE τ] (h : Stores expiry history t held) (key : κ) :
    ((held key).filter fun e => decide (t ≤ e.2)).map Prod.fst = value? expiry history t key := by
  apply Option.ext
  intro v
  rw [value?_eq_some_iff]
  constructor
  · intro hv
    obtain ⟨⟨w, x⟩, he, rfl⟩ := Option.map_eq_some_iff.1 hv
    obtain ⟨hheld, hfresh⟩ := Option.filter_eq_some_iff.1 he
    obtain ⟨s, hlast, rfl⟩ := h.written key w x hheld
    exact ⟨s, hlast, of_decide_eq_true hfresh⟩
  · rintro ⟨s, hlast, hfresh⟩
    rw [h.kept key s v hlast hfresh]
    simp [hfresh]

end

end ExpiringMap
end Lib
end NolagCore
