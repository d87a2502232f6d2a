import Mathlib.Algebra.Order.Group.Int
import NolagCore.Lib.OrderedMap
import NolagCore.Lib.ReadThrough
import NolagCore.Model.Types

/-!
# Common.TtlCache

The in-memory cache of one instance: entries carry their expiry, reading an expired entry removes
it, and every hundredth write sweeps the rest.
-/

namespace NolagCore

open Lib

structure CacheEntry (ν : Type) where
  value : ν
  expiresAt : Int

structure TtlCache (ν : Type) where
  ttlMs : Int
  cache : OrderedMap String (CacheEntry ν) := OrderedMap.empty
  writesSinceLastSweep : Nat := 0

namespace TtlCache

variable {ν : Type}

def sweepInterval : Nat := 100

/-- `get` at `now`: the value, and the cache without the entry if it had expired. -/
def get (c : TtlCache ν) (now : Int) (key : String) : Option ν × TtlCache ν :=
  match c.cache.get? key with
  | none => (none, c)
  | some entry =>
    if now > entry.expiresAt then (none, { c with cache := c.cache.delete key })
    else (some entry.value, c)

/-- One pass of the loop in `_sweep`. -/
def dropExpired (now : Int) (m : OrderedMap String (CacheEntry ν))
    (e : String × CacheEntry ν) : OrderedMap String (CacheEntry ν) :=
  if now > e.2.expiresAt then m.delete e.1 else m

/-- `_sweep`: delete every entry that has expired. -/
def sweep (c : TtlCache ν) (now : Int) : TtlCache ν :=
  { c with cache := c.cache.entries.foldl (dropExpired now) c.cache }

/-- The entry `set` writes. -/
def put (c : TtlCache ν) (now : Int) (key : String) (value : ν) : TtlCache ν :=
  { c with cache := c.cache.set key ⟨value, now + c.ttlMs⟩ }

def set (c : TtlCache ν) (now : Int) (key : String) (value : ν) : TtlCache ν :=
  if c.writesSinceLastSweep + 1 ≥ sweepInterval then
    sweep { c.put now key value with writesSinceLastSweep := 0 } now
  else { c.put now key value with writesSinceLastSweep := c.writesSinceLastSweep + 1 }

def delete (c : TtlCache ν) (key : String) : TtlCache ν := { c with cache := c.cache.delete key }

def clear (c : TtlCache ν) : TtlCache ν := { c with cache := OrderedMap.empty }

/-! ## What the operations keep -/

/-- `key` holds `value`, still fresh at `now`. -/
def Holds (c : TtlCache ν) (now : Int) (key : String) (value : ν) : Prop :=
  ∃ e, c.cache.get? key = some e ∧ now ≤ e.expiresAt ∧ e.value = value

theorem get_eq_some {c : TtlCache ν} {now : Int} {key : String} {v : ν}
    (h : (c.get now key).1 = some v) : c.Holds now key v := by
  unfold get at h
  split at h
  · cases h
  · rename_i e he
    split at h
    · cases h
    · rename_i hle
      cases h
      exact ⟨e, he, by omega, rfl⟩

theorem get_of_holds {c : TtlCache ν} {now : Int} {key : String} {v : ν} (h : c.Holds now key v) :
    (c.get now key).1 = some v := by
  obtain ⟨e, he, hx, rfl⟩ := h
  unfold get
  rw [he]
  dsimp only
  rw [if_neg (Int.not_lt.2 hx)]

theorem holds_of_get {c : TtlCache ν} {now t : Int} {key key' : String} {v : ν}
    (h : (c.get now key).2.Holds t key' v) : c.Holds t key' v := by
  unfold get at h
  split at h
  · exact h
  · split at h
    · obtain ⟨e, he, hx, hv⟩ := h
      simp only [OrderedMap.get?_delete] at he
      split at he
      · cases he
      · exact ⟨e, he, hx, hv⟩
    · exact h

theorem get?_foldl_dropExpired (now : Int) (key : String) (l : List (String × CacheEntry ν)) :
    ∀ m : OrderedMap String (CacheEntry ν), (l.foldl (dropExpired now) m).get? key =
      if (∃ e ∈ l, e.1 = key ∧ e.2.expiresAt < now) then none else m.get? key := by
  induction l with
  | nil => intro m; simp
  | cons e l ih =>
    intro m
    rw [List.foldl_cons, ih]
    unfold dropExpired
    by_cases hrest : ∃ e ∈ l, e.1 = key ∧ e.2.expiresAt < now
    · have hall : ∃ e' ∈ e :: l, e'.1 = key ∧ e'.2.expiresAt < now := by
        obtain ⟨e', he', h⟩ := hrest
        exact ⟨e', List.mem_cons_of_mem e he', h⟩
      rw [if_pos hrest, if_pos hall]
    · rw [if_neg hrest]
      split
      · rename_i hexpired
        rw [OrderedMap.get?_delete]
        by_cases hkey : key = e.1
        · rw [if_pos hkey, if_pos ⟨e, List.mem_cons_self, hkey.symm, hexpired⟩]
        · rw [if_neg hkey, if_neg]
          rintro ⟨e', he', hk, hx⟩
          rcases List.mem_cons.1 he' with rfl | he'
          · exact hkey hk.symm
          · exact hrest ⟨e', he', hk, hx⟩
      · rename_i hfresh
        rw [if_neg]
        rintro ⟨e', he', hk, hx⟩
        rcases List.mem_cons.1 he' with rfl | he'
        · exact hfresh hx
        · exact hrest ⟨e', he', hk, hx⟩

/-- The sweep keeps exactly the entries that are still fresh. -/
theorem get?_sweep (c : TtlCache ν) (now : Int) (key : String) :
    (c.sweep now).cache.get? key =
      (c.cache.get? key).filter fun e => decide (now ≤ e.expiresAt) := by
  unfold sweep
  rw [get?_foldl_dropExpired]
  cases hget : c.cache.get? key with
  | none => simp
  | some e =>
    have hmem : (key, e) ∈ c.cache.entries := OrderedMap.mem_entries_iff.2 hget
    by_cases hfresh : now ≤ e.expiresAt
    · rw [if_neg]
      · rw [Option.filter_some, if_pos (decide_eq_true hfresh)]
      rintro ⟨e', he', rfl, hx⟩
      have hsame := OrderedMap.mem_entries_iff.1 he'
      rw [hget] at hsame
      cases hsame
      omega
    · rw [if_pos ⟨(key, e), hmem, rfl, Int.not_le.1 hfresh⟩, Option.filter_some, if_neg]
      simpa using hfresh

theorem holds_of_sweep {c : TtlCache ν} {now t : Int} {key : String} {v : ν}
    (h : (c.sweep now).Holds t key v) : c.Holds t key v := by
  obtain ⟨e, he, hx, hv⟩ := h
  rw [get?_sweep, Option.filter_eq_some_iff] at he
  exact ⟨e, he.1, hx, hv⟩

/-- After a write the cache holds the value written, or what it held before under another key. -/
theorem holds_of_set {c : TtlCache ν} {now t : Int} {key key' : String} {v v' : ν}
    (h : (c.set now key v).Holds t key' v') :
    (key' = key ∧ v' = v ∧ t ≤ now + c.ttlMs) ∨ c.Holds t key' v' := by
  have hbase : (c.put now key v).Holds t key' v' := by
    unfold set at h
    split at h
    · exact holds_of_sweep h
    · exact h
  obtain ⟨e, he, hx, hv⟩ := hbase
  simp only [put, OrderedMap.get?_set] at he
  split at he
  · rename_i hk
    cases he
    exact .inl ⟨hk, hv.symm, hx⟩
  · exact .inr ⟨e, he, hx, hv⟩

theorem holds_of_delete {c : TtlCache ν} {t : Int} {key key' : String} {v : ν}
    (h : (c.delete key).Holds t key' v) : key' ≠ key ∧ c.Holds t key' v := by
  obtain ⟨e, he, hx, hv⟩ := h
  simp only [delete, OrderedMap.get?_delete] at he
  split at he
  · cases he
  · rename_i hne
    exact ⟨hne, e, he, hx, hv⟩

theorem holds_delete {c : TtlCache ν} {t : Int} {key key' : String} {v : ν} (hne : key' ≠ key)
    (h : c.Holds t key' v) : (c.delete key).Holds t key' v := by
  obtain ⟨e, he, hx, hv⟩ := h
  refine ⟨e, ?_, hx, hv⟩
  simp only [delete, OrderedMap.get?_delete]
  rw [if_neg hne]
  exact he

/-- What is fresh at an instant was so before it. -/
theorem Holds.earlier {c : TtlCache ν} {t t' : Int} {key : String} {v : ν} (h : c.Holds t key v)
    (hle : t' ≤ t) : c.Holds t' key v := by
  obtain ⟨e, he, hx, hv⟩ := h
  exact ⟨e, he, Int.le_trans hle hx, hv⟩

theorem not_holds_clear {c : TtlCache ν} {t : Int} {key : String} {v : ν} :
    ¬ c.clear.Holds t key v := by
  rintro ⟨e, he, _⟩
  simp [clear] at he

/-- A property of everything the cache still holds. -/
def Every (c : TtlCache ν) (P : String → ν → Prop) : Prop := ∀ t key v, c.Holds t key v → P key v

section Every

variable {c : TtlCache ν} {P : String → ν → Prop}

theorem Every.get (h : c.Every P) (now : Int) (key : String) : (c.get now key).2.Every P :=
  fun t key' v hold => h t key' v (holds_of_get hold)

theorem Every.of_get (h : c.Every P) {now : Int} {key : String} {v : ν}
    (hget : (c.get now key).1 = some v) : P key v :=
  h now key v (get_eq_some hget)

theorem Every.set (h : c.Every P) (now : Int) {key : String} {v : ν} (hv : P key v) :
    (c.set now key v).Every P := by
  intro t key' v' hold
  rcases holds_of_set hold with ⟨rfl, rfl, _⟩ | hold
  · exact hv
  · exact h t key' v' hold

theorem Every.delete (h : c.Every P) (key : String) : (c.delete key).Every P :=
  fun t key' v hold => h t key' v (holds_of_delete hold).2

theorem every_clear : c.clear.Every P := fun _ _ _ hold => absurd hold not_holds_clear

end Every

/-! ## Where values come from -/

/-- A cache of the given lifetime in which every value was written under `W`, at an instant that
its lifetime still covers. -/
structure WrittenBy (lifetime : Int) (W : Int → String → ν → Prop) (c : TtlCache ν) : Prop where
  ttlMs : c.ttlMs = lifetime
  written : ∀ t key v, c.Holds t key v → ∃ u, t ≤ u + lifetime ∧ W u key v

@[simp] theorem ttlMs_get (c : TtlCache ν) (now : Int) (key : String) :
    (c.get now key).2.ttlMs = c.ttlMs := by
  unfold get
  split
  · rfl
  · split <;> rfl

@[simp] theorem ttlMs_set (c : TtlCache ν) (now : Int) (key : String) (v : ν) :
    (c.set now key v).ttlMs = c.ttlMs := by
  unfold set
  split <;> rfl

section WrittenBy

variable {lifetime : Int} {W W' : Int → String → ν → Prop} {c : TtlCache ν}

theorem writtenBy_empty : WrittenBy lifetime W { ttlMs := lifetime } where
  ttlMs := rfl
  written := by
    rintro t key v ⟨e, he, _⟩
    simp at he

theorem WrittenBy.mono (h : WrittenBy lifetime W c) (hW : ∀ u key v, W u key v → W' u key v) :
    WrittenBy lifetime W' c where
  ttlMs := h.ttlMs
  written t key v hold := by
    obtain ⟨u, hu, hw⟩ := h.written t key v hold
    exact ⟨u, hu, hW u key v hw⟩

theorem WrittenBy.get (h : WrittenBy lifetime W c) (now : Int) (key : String) :
    WrittenBy lifetime W (c.get now key).2 where
  ttlMs := by simp [h.ttlMs]
  written t key' v hold := h.written t key' v (holds_of_get hold)

theorem WrittenBy.set (h : WrittenBy lifetime W c) {now : Int} {key : String} {v : ν}
    (hW : W now key v) : WrittenBy lifetime W (c.set now key v) where
  ttlMs := by simp [h.ttlMs]
  written t key' v' hold := by
    rcases holds_of_set hold with ⟨rfl, rfl, ht⟩ | hold
    · rw [h.ttlMs] at ht
      exact ⟨now, ht, hW⟩
    · exact h.written t key' v' hold

theorem WrittenBy.delete (h : WrittenBy lifetime W c) (key : String) :
    WrittenBy lifetime W (c.delete key) where
  ttlMs := h.ttlMs
  written t key' v hold := h.written t key' v (holds_of_delete hold).2

theorem WrittenBy.clear (h : WrittenBy lifetime W c) : WrittenBy lifetime W c.clear where
  ttlMs := h.ttlMs
  written _ _ _ hold := absurd hold not_holds_clear

end WrittenBy

theorem minute_nonneg : (0 : Int) ≤ 60000 := by decide

/-- The cache of a lookup whose keys are named by `text`. -/
def expiring {κ : Type} (lifetime : Int) (hlifetime : 0 ≤ lifetime) (text : κ → String)
    (htext : Function.Injective text) : ExpiringCache (TtlCache ν) κ ν Int where
  lifetime := lifetime
  lifetime_nonneg := hlifetime
  empty := { ttlMs := lifetime }
  get c now k := c.get now (text k)
  set c now k v := c.set now (text k) v
  delete c k := c.delete (text k)
  clear := clear
  WrittenBy W := WrittenBy lifetime fun u key v => ∀ k, text k = key → W u k v
  writtenBy_empty _ := writtenBy_empty
  of_get h hget := by
    obtain ⟨u, hu, hW⟩ := h.written _ _ _ (get_eq_some hget)
    exact ⟨u, hu, hW _ rfl⟩
  writtenBy_get h now k := h.get now (text k)
  writtenBy_set h hW := h.set fun k' hk' => htext hk' ▸ hW
  writtenBy_delete h k := h.delete (text k)
  writtenBy_clear h := h.clear

end TtlCache

end NolagCore
