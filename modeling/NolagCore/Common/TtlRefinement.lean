import NolagCore.Common.TtlCache
import NolagCore.Lib.ExpiringMap

/-!
# Common.TtlRefinement

`TtlCache` as an implementation of the expiring map. A history is the calls on one cache with the
clock readings they make; `set` reads the clock once for the entry and, on every hundredth write,
once more for the sweep.

The three ways an entry goes, `delete` on a read, the sweep and the calls that remove it, are one
thing for the proof: what they remove has expired, or was asked to be removed.
-/

namespace NolagCore

open Lib Lib.ExpiringMap

namespace TtlCache

variable {ν : Type}

/-! ## Histories -/

/-- `set` with the clock read again by the sweep. -/
def setAt (c : TtlCache ν) (now sweepNow : Int) (key : String) (value : ν) : TtlCache ν :=
  if c.writesSinceLastSweep + 1 ≥ sweepInterval then
    sweep { c.put now key value with writesSinceLastSweep := 0 } sweepNow
  else { c.put now key value with writesSinceLastSweep := c.writesSinceLastSweep + 1 }

theorem set_eq_setAt (c : TtlCache ν) (now : Int) (key : String) (value : ν) :
    c.set now key value = c.setAt now now key value := rfl

/-- A call with the readings of `Date.now()` it makes. -/
inductive Call (ν : Type) where
  | get (now : Int) (key : String)
  | set (now sweepNow : Int) (key : String) (value : ν)
  | delete (key : String)
  | clear

/-- The call touches what is kept under `key`. -/
def Call.Affects (key : String) : Call ν → Prop
  | .get _ _ => False
  | .set _ _ k _ => k = key
  | .delete k => k = key
  | .clear => True

def Call.readings : Call ν → List Int
  | .get now _ => [now]
  | .set now sweepNow _ _ => [now, sweepNow]
  | .delete _ => []
  | .clear => []

def Call.isSet : Call ν → Bool
  | .set _ _ _ _ => true
  | _ => false

/-- The cache after a call. -/
def Call.run (c : TtlCache ν) : Call ν → TtlCache ν
  | .get now key => (c.get now key).2
  | .set now sweepNow key value => c.setAt now sweepNow key value
  | .delete key => c.delete key
  | .clear => c.clear

/-- What a call answers; only `get` does. -/
def Call.answer (c : TtlCache ν) : Call ν → Option ν
  | .get now key => (c.get now key).1
  | _ => none

def readings (history : List (Call ν)) : List Int := history.flatMap Call.readings

/-- The clock does not go back. -/
def NonDecreasing (history : List (Call ν)) : Prop := (readings history).Pairwise (· ≤ ·)

instance (history : List (Call ν)) : Decidable (NonDecreasing history) :=
  inferInstanceAs (Decidable (List.Pairwise _ _))

/-- A cache of the given lifetime after a history. -/
def run (ttlMs : Int) (history : List (Call ν)) : TtlCache ν :=
  history.foldl Call.run { ttlMs := ttlMs }

/-- What the calls answer one after the other. -/
def answers (c : TtlCache ν) : List (Call ν) → List (Option ν)
  | [] => []
  | call :: later => call.answer c :: answers (call.run c) later

def sets (history : List (Call ν)) : Nat := history.countP Call.isSet

theorem run_append (ttlMs : Int) (history : List (Call ν)) (call : Call ν) :
    run ttlMs (history ++ [call]) = call.run (run ttlMs history) := by
  simp [run]

/-! ## The sweep -/

theorem fresh_of_sweep {c : TtlCache ν} {now : Int} {e : String × CacheEntry ν}
    (h : e ∈ (c.sweep now).cache.entries) : now ≤ e.2.expiresAt := by
  obtain ⟨key, entry⟩ := e
  have hget := OrderedMap.mem_entries_iff.1 h
  rw [get?_sweep, Option.filter_eq_some_iff] at hget
  exact of_decide_eq_true hget.2

theorem writesSinceLastSweep_get (c : TtlCache ν) (now : Int) (key : String) :
    (c.get now key).2.writesSinceLastSweep = c.writesSinceLastSweep := by
  unfold get
  split
  · rfl
  · split <;> rfl

theorem writesSinceLastSweep_setAt (c : TtlCache ν) (now sweepNow : Int) (key : String)
    (value : ν) : (c.setAt now sweepNow key value).writesSinceLastSweep =
      if c.writesSinceLastSweep + 1 ≥ sweepInterval then 0 else c.writesSinceLastSweep + 1 := by
  unfold setAt
  split <;> rfl

/-- The write counter is the number of writes since the last multiple of a hundred. -/
theorem writesSinceLastSweep_run (ttlMs : Int) (history : List (Call ν)) :
    (run ttlMs history).writesSinceLastSweep = sets history % sweepInterval := by
  induction history using List.reverseRecOn with
  | nil => rfl
  | append_singleton history call ih =>
    unfold sets at *
    rw [run_append, List.countP_append, List.countP_singleton]
    cases call with
    | get now key => simpa [Call.run, Call.isSet, writesSinceLastSweep_get] using ih
    | set now sweepNow key value =>
      simp only [Call.run, Call.isSet, writesSinceLastSweep_setAt, ih, sweepInterval, if_true]
      split <;> omega
    | delete key => simpa [Call.run, Call.isSet, delete] using ih
    | clear => simpa [Call.run, Call.isSet, clear] using ih

/-! ## The simulation -/

/-- What is held under each key, and until when. -/
def held (c : TtlCache ν) (key : String) : Option (ν × Int) :=
  (c.cache.get? key).map fun e => (e.value, e.expiresAt)

/-- The call as an event of the expiring map. -/
def Call.event : Call ν → Event String ν Int
  | .get _ _ => .read
  | .set now _ key value => .set now key value
  | .delete key => .delete key
  | .clear => .clear

theorem touches_event {call : Call ν} {key : String} :
    call.event.Touches key ↔ call.Affects key := by
  cases call <;> exact Iff.rfl

/-- The cache stands for the expiring map after `history`, for readings of the clock from `t` on. -/
structure Represents (lifetime : Int) (history : List (Call ν)) (t : Int) (c : TtlCache ν) :
    Prop where
  ttlMs : c.ttlMs = lifetime
  stores : Stores (fun s => s + lifetime) (history.map Call.event) t c.held

/-- What the expiring map answers a call. -/
def Call.ideal (lifetime : Int) (history : List (Call ν)) : Call ν → Option ν
  | .get now key => value? (fun s => s + lifetime) (history.map Call.event) now key
  | _ => none

section

variable {lifetime : Int} {history : List (Call ν)} {t : Int} {c : TtlCache ν}

theorem represents_empty : Represents lifetime ([] : List (Call ν)) t { ttlMs := lifetime } :=
  ⟨rfl, stores_empty⟩

theorem Represents.later (h : Represents lifetime history t c) {t' : Int} (ht : t ≤ t') :
    Represents lifetime history t' c :=
  ⟨h.ttlMs, h.stores.later ht⟩

/-- Sweeping at `t` leaves a cache that stands for the same map. -/
theorem Represents.sweep (h : Represents lifetime history t c) :
    Represents lifetime history t (c.sweep t) := by
  refine ⟨h.ttlMs, h.stores.drop fun key => .inr ?_⟩
  unfold held
  rw [get?_sweep]
  cases c.cache.get? key with
  | none => rfl
  | some e => by_cases hfresh : t ≤ e.expiresAt <;> simp [Option.filter_some, hfresh]

/-- So does reading at `t`, which may delete the entry read. -/
theorem Represents.read (h : Represents lifetime history t c) (key : String) :
    Represents lifetime history t (c.get t key).2 := by
  refine ⟨by simp [h.ttlMs], h.stores.drop fun key' => ?_⟩
  unfold held get
  cases hget : c.cache.get? key with
  | none => exact .inl rfl
  | some e =>
    dsimp only
    split
    · rename_i hexpired
      rw [OrderedMap.get?_delete]
      by_cases hkey : key' = key
      · right
        subst hkey
        rw [if_pos rfl, hget]
        simp [Option.filter_some, Int.not_le.2 hexpired]
      · left
        rw [if_neg hkey]
    · exact .inl rfl

theorem get_eq_answer (h : Represents lifetime history t c) (key : String) :
    (c.get t key).1 = value? (fun s => s + lifetime) (history.map Call.event) t key := by
  rw [← h.stores.answer key]
  unfold held get
  cases c.cache.get? key with
  | none => rfl
  | some e => by_cases hfresh : e.expiresAt < t <;> simp [Option.filter_some, hfresh]

theorem held_put (c : TtlCache ν) (now : Int) (key : String) (value : ν) :
    (c.put now key value).held =
      (Event.set now key value).apply (fun s => s + c.ttlMs) c.held := by
  funext key'
  simp only [held, put, Event.apply, OrderedMap.get?_set]
  by_cases hkey : key' = key
  · rw [if_pos hkey, if_pos hkey.symm]
    rfl
  · rw [if_neg hkey, if_neg fun h => hkey h.symm]

theorem held_delete (c : TtlCache ν) (expiry : Int → Int) (key : String) :
    (c.delete key).held = (Event.delete key).apply expiry c.held := by
  funext key'
  simp only [held, delete, Event.apply, OrderedMap.get?_delete]
  by_cases hkey : key' = key
  · rw [if_pos hkey, if_pos hkey.symm]
    rfl
  · rw [if_neg hkey, if_neg fun h => hkey h.symm]

theorem Represents.put (h : Represents lifetime history t c) (now sweepNow : Int) (key : String)
    (value : ν) :
    Represents lifetime (history ++ [.set now sweepNow key value]) t (c.put now key value) := by
  refine ⟨h.ttlMs, ?_⟩
  rw [held_put, List.map_append, h.ttlMs]
  exact h.stores.event (.set now key value)

/-- The reading a call ends on. -/
def Call.ends (t : Int) : Call ν → Int
  | .get now _ => now
  | .set _ sweepNow _ _ => sweepNow
  | .delete _ => t
  | .clear => t

theorem ends_mem (t : Int) (call : Call ν) : call.ends t ∈ t :: call.readings := by
  cases call <;> simp [Call.ends, Call.readings]

/-- The readings of a call, then those of the calls after it from where it ends. -/
theorem clock_cons {call : Call ν} {later : List (Call ν)}
    (h : (t :: readings (call :: later)).Pairwise (· ≤ ·)) :
    (t :: call.readings).Pairwise (· ≤ ·) ∧
      (call.ends t :: readings later).Pairwise (· ≤ ·) := by
  have happend : (t :: call.readings ++ readings later).Pairwise (· ≤ ·) := h
  obtain ⟨hcall, hlater, hcross⟩ := List.pairwise_append.1 happend
  exact ⟨hcall, List.pairwise_cons.2 ⟨hcross _ (ends_mem t call), hlater⟩⟩

/-- One call: what it leaves stands for the map the call leaves. -/
theorem Represents.call (h : Represents lifetime history t c) (call : Call ν)
    (hclock : (t :: call.readings).Pairwise (· ≤ ·)) :
    Represents lifetime (history ++ [call]) (call.ends t) (call.run c) := by
  cases call with
  | get now key =>
    have hnow : t ≤ now := by simpa [Call.readings] using hclock
    have hread := (h.later hnow).read key
    refine ⟨hread.ttlMs, ?_⟩
    rw [List.map_append]
    exact hread.stores.event .read
  | set now sweepNow key value =>
    have hnow : t ≤ sweepNow := by
      have hall := (List.pairwise_cons.1 hclock).1
      exact hall sweepNow (by simp [Call.readings])
    have hput := (h.put now sweepNow key value).later hnow
    simp only [Call.run, Call.ends, setAt]
    split
    · have hreset : Represents lifetime (history ++ [.set now sweepNow key value]) sweepNow
          { c.put now key value with writesSinceLastSweep := 0 } := ⟨hput.ttlMs, hput.stores⟩
      exact hreset.sweep
    · exact ⟨hput.ttlMs, hput.stores⟩
  | delete key =>
    refine ⟨h.ttlMs, ?_⟩
    simp only [Call.run]
    rw [held_delete c (fun s => s + lifetime), List.map_append]
    exact h.stores.event (.delete key)
  | clear =>
    refine ⟨h.ttlMs, ?_⟩
    rw [List.map_append]
    exact h.stores.event .clear

/-- A call answers as the expiring map does. -/
theorem Represents.answer (h : Represents lifetime history t c) (call : Call ν)
    (hclock : (t :: call.readings).Pairwise (· ≤ ·)) :
    call.answer c = call.ideal lifetime history := by
  cases call with
  | get now key =>
    have hnow : t ≤ now := by simpa [Call.readings] using hclock
    exact get_eq_answer (h.later hnow) key
  | set now sweepNow key value => rfl
  | delete key => rfl
  | clear => rfl

/-- What the expiring map answers to calls one after the other. -/
def idealAnswers (lifetime : Int) : List (Call ν) → List (Call ν) → List (Option ν)
  | _, [] => []
  | history, call :: later =>
    call.ideal lifetime history :: idealAnswers lifetime (history ++ [call]) later

/-- A cache that stands for the map after a history goes on answering as the map does. -/
theorem Represents.answers {later : List (Call ν)} (h : Represents lifetime history t c)
    (hclock : (t :: readings later).Pairwise (· ≤ ·)) :
    answers c later = idealAnswers lifetime history later := by
  induction later generalizing history t c with
  | nil => rfl
  | cons call later ih =>
    obtain ⟨hcall, hlater⟩ := clock_cons hclock
    unfold TtlCache.answers idealAnswers
    rw [h.answer call hcall, ih (h.call call hcall) hlater]

/-- Over a whole run. -/
theorem Represents.calls {later : List (Call ν)} {stop : Int}
    (h : Represents lifetime history t c) (hclock : (t :: readings later).Pairwise (· ≤ ·))
    (hstop : ∀ r ∈ t :: readings later, r ≤ stop) :
    Represents lifetime (history ++ later) stop (later.foldl Call.run c) := by
  induction later generalizing history t c with
  | nil =>
    rw [List.append_nil]
    exact h.later (hstop t List.mem_cons_self)
  | cons call later ih =>
    obtain ⟨hcall, hlater⟩ := clock_cons hclock
    have hall : ∀ r ∈ t :: call.readings ++ readings later, r ≤ stop := hstop
    have hends : ∀ r ∈ call.ends t :: readings later, r ≤ stop := by
      intro r hr
      rcases List.mem_cons.1 hr with rfl | hr
      · exact hall _ (List.mem_append_left _ (ends_mem t call))
      · exact hall r (List.mem_append_right _ hr)
    have hnext := ih (h.call call hcall) hlater hends
    rw [List.append_assoc] at hnext
    exact hnext

/-- A sorted clock has an instant before it. -/
theorem exists_start {l : List Int} {stop : Int} (hl : l.Pairwise (· ≤ ·))
    (hstop : ∀ r ∈ l, r ≤ stop) :
    ∃ start, (start :: l).Pairwise (· ≤ ·) ∧ ∀ r ∈ start :: l, r ≤ stop := by
  cases l with
  | nil => exact ⟨stop, by simp, by simp⟩
  | cons x l =>
    refine ⟨x, ?_, ?_⟩
    · rw [List.pairwise_cons]
      refine ⟨fun r hr => ?_, hl⟩
      rcases List.mem_cons.1 hr with rfl | hr
      · exact Int.le_refl r
      · exact (List.pairwise_cons.1 hl).1 r hr
    · intro r hr
      rcases List.mem_cons.1 hr with rfl | hr
      · exact hstop r List.mem_cons_self
      · exact hstop r hr

theorem represents_run (hclock : NonDecreasing history) (hstop : ∀ r ∈ readings history, r ≤ t) :
    Represents lifetime history t (run lifetime history) := by
  obtain ⟨start, hsorted, hall⟩ := exists_start hclock hstop
  have hempty : Represents lifetime ([] : List (Call ν)) start { ttlMs := lifetime } :=
    represents_empty
  exact hempty.calls hsorted hall

theorem last_event_iff {key : String} {s : Int} {v : ν} :
    last (history.map Call.event) key = some (s, v) ↔ ∃ before sweepNow after,
      history = before ++ .set s sweepNow key v :: after ∧ ∀ call ∈ after, ¬ call.Affects key := by
  rw [last_eq_some_iff]
  constructor
  · rintro ⟨before, after, hsplit, hafter⟩
    obtain ⟨calls, rest, rfl, rfl, hrest⟩ := List.map_eq_append_iff.1 hsplit
    obtain ⟨call, later, rfl, hcall, rfl⟩ := List.map_eq_cons_iff.1 hrest
    cases call with
    | set now sweepNow k w =>
      cases hcall
      refine ⟨calls, sweepNow, later, rfl, fun call hmem => ?_⟩
      rw [← touches_event]
      exact hafter _ (List.mem_map_of_mem hmem)
    | get now k => cases hcall
    | delete k => cases hcall
    | clear => cases hcall
  · rintro ⟨before, sweepNow, after, rfl, hafter⟩
    refine ⟨before.map Call.event, after.map Call.event, by simp [Call.event], ?_⟩
    intro e he
    obtain ⟨call, hmem, rfl⟩ := List.mem_map.1 he
    rw [touches_event]
    exact hafter call hmem

end

/-! ## The cache and the map -/

/-- The cache after a history, seen through its answers and through what it still stores. -/
structure RefinesExpiringMap (ttlMs : Int) (history : List (Call ν)) : Prop where
  /-- A key answers the value of the last call that touched it, while that is fresh. -/
  answers : ∀ t key v, (∀ r ∈ readings history, r ≤ t) →
    (((run ttlMs history).get t key).1 = some v ↔ ∃ before s sweepNow after,
      history = before ++ .set s sweepNow key v :: after ∧
        (∀ call ∈ after, ¬ call.Affects key) ∧ t ≤ s + ttlMs)
  /-- A sweep changes no later answer. -/
  sweepSilent : ∀ t later, (∀ r ∈ readings history, r ≤ t) →
    (t :: readings later).Pairwise (· ≤ ·) →
      TtlCache.answers ((run ttlMs history).sweep t) later =
        TtlCache.answers (run ttlMs history) later
  /-- Nor does the deletion on a read. -/
  readSilent : ∀ t key later, (∀ r ∈ readings history, r ≤ t) →
    (t :: readings later).Pairwise (· ≤ ·) →
      TtlCache.answers ((run ttlMs history).get t key).2 later =
        TtlCache.answers (run ttlMs history) later
  /-- Right after the sweep of every hundredth write nothing expired is stored. -/
  swept : ∀ before s sweepNow key v, history = before ++ [.set s sweepNow key v] →
    sweepInterval ∣ sets history →
      ∀ e ∈ (run ttlMs history).cache.entries, sweepNow ≤ e.2.expiresAt

/-- On every history in which the clock does not go back the cache is the expiring map. -/
theorem refines_expiringMap (ttlMs : Int) (history : List (Call ν))
    (hclock : NonDecreasing history) : RefinesExpiringMap ttlMs history := by
  constructor
  · intro t key v hstop
    have hrep : Represents ttlMs history t (run ttlMs history) := represents_run hclock hstop
    rw [get_eq_answer hrep, value?_eq_some_iff]
    simp only [last_event_iff]
    constructor
    · rintro ⟨s, ⟨before, sweepNow, after, hsplit, hafter⟩, hfresh⟩
      exact ⟨before, s, sweepNow, after, hsplit, hafter, hfresh⟩
    · rintro ⟨before, s, sweepNow, after, hsplit, hafter, hfresh⟩
      exact ⟨s, ⟨before, sweepNow, after, hsplit, hafter⟩, hfresh⟩
  · intro t later hstop hlater
    have hrep : Represents ttlMs history t (run ttlMs history) := represents_run hclock hstop
    rw [hrep.sweep.answers hlater, hrep.answers hlater]
  · intro t key later hstop hlater
    have hrep : Represents ttlMs history t (run ttlMs history) := represents_run hclock hstop
    rw [(hrep.read key).answers hlater, hrep.answers hlater]
  · intro before s sweepNow key v hsplit hcount e he
    subst hsplit
    have hwrites := writesSinceLastSweep_run ttlMs before
    have hsets : sets (before ++ [Call.set s sweepNow key v]) = sets before + 1 := by
      simp [sets, Call.isSet]
    rw [hsets] at hcount
    rw [run_append] at he
    simp only [Call.run, setAt] at he
    unfold sweepInterval at hwrites hcount he
    rw [if_pos (by omega)] at he
    exact fresh_of_sweep he

/-- Read at the last instant of a lifetime, and the one after. -/
theorem refines_expiringMap_boundary :
    RefinesExpiringMap 5 [.set 0 0 "a" 7, .set 2 2 "b" 8, .get 5 "a", .get 6 "a", .delete "b"] ∧
      answers { ttlMs := 5 } [.set 0 0 "a" 7, .get 5 "a", .get 6 "a"] = [none, some 7, none] :=
  ⟨refines_expiringMap 5 _ (by decide), by decide⟩

end TtlCache

end NolagCore
