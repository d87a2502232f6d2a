import Mathlib.Data.List.Induction
import Mathlib.Data.List.Nodup
import NolagCore.Lib.Checked

/-!
# Lib.OrderedMap

The `Map` of JavaScript: keys are distinct, iteration follows first insertion, and setting a key
that is present replaces its value in place.

Loops that fill a map are one definition here, `loop`: each element is offered to the entry of
its key together with what the map holds there. `get?_loop` says what such a loop leaves at a
key, and `groupBy`, `ofList` and `firstOf` are its three usual instances.
-/

namespace NolagCore
namespace Lib

/-- An insertion-ordered map. The keys are distinct by construction. -/
structure OrderedMap (κ ν : Type) where
  entries : List (κ × ν)
  nodup : (entries.map Prod.fst).Nodup

namespace OrderedMap

variable {κ ν α : Type} [DecidableEq κ]

def empty : OrderedMap κ ν := ⟨[], List.nodup_nil⟩

def get? (m : OrderedMap κ ν) (k : κ) : Option ν :=
  (m.entries.find? fun e => decide (e.1 = k)).map Prod.snd

def values (m : OrderedMap κ ν) : List ν := m.entries.map Prod.snd

/-- Replace the value at `k`, keeping its place. -/
def replace (k : κ) (v : ν) (e : κ × ν) : κ × ν := if e.1 = k then (k, v) else e

theorem fst_replace (k : κ) (v : ν) (e : κ × ν) : (replace k v e).1 = e.1 := by
  unfold replace
  split
  · rename_i h; exact h.symm
  · rfl

theorem map_fst_replace (k : κ) (v : ν) (l : List (κ × ν)) :
    (l.map (replace k v)).map Prod.fst = l.map Prod.fst := by
  rw [List.map_map]
  exact List.map_congr_left fun e _ => fst_replace k v e

def set (m : OrderedMap κ ν) (k : κ) (v : ν) : OrderedMap κ ν :=
  if h : k ∈ m.entries.map Prod.fst then
    ⟨m.entries.map (replace k v), by rw [map_fst_replace]; exact m.nodup⟩
  else
    ⟨m.entries ++ [(k, v)], by
      rw [List.map_append]
      exact m.nodup.append (List.nodup_singleton k) (by simpa using h)⟩

def delete (m : OrderedMap κ ν) (k : κ) : OrderedMap κ ν :=
  ⟨m.entries.filter fun e => decide (e.1 ≠ k),
    m.nodup.sublist (List.filter_sublist.map Prod.fst)⟩

/-! ## Reading and writing -/

theorem mem_entries_iff {m : OrderedMap κ ν} {k : κ} {v : ν} :
    (k, v) ∈ m.entries ↔ m.get? k = some v := by
  unfold get?
  constructor
  · intro h
    cases hf : m.entries.find? (fun e => decide (e.1 = k)) with
    | none =>
      have := List.find?_eq_none.1 hf _ h
      simp at this
    | some e =>
      have hk : e.1 = k := by simpa using List.find?_some hf
      have he := List.inj_on_of_nodup_map m.nodup (List.mem_of_find?_eq_some hf) h hk
      simp [he]
  · intro h
    obtain ⟨e, he, rfl⟩ := Option.map_eq_some_iff.1 h
    have hk : e.1 = k := by simpa using List.find?_some he
    subst hk
    exact List.mem_of_find?_eq_some he

@[simp] theorem get?_empty (k : κ) : (empty : OrderedMap κ ν).get? k = none := rfl

@[simp] theorem get?_set_self (m : OrderedMap κ ν) (k : κ) (v : ν) :
    (m.set k v).get? k = some v := by
  rw [← mem_entries_iff]
  unfold set
  split
  · rename_i h
    obtain ⟨e, he, rfl⟩ := List.mem_map.1 h
    exact List.mem_map.2 ⟨e, he, by simp [replace]⟩
  · simp

theorem get?_set_ne (m : OrderedMap κ ν) {k k' : κ} (v : ν) (h : k' ≠ k) :
    (m.set k v).get? k' = m.get? k' := by
  apply Option.ext
  intro w
  rw [← mem_entries_iff, ← mem_entries_iff]
  unfold set
  split
  · simp only [List.mem_map]
    constructor
    · rintro ⟨e, he, hr⟩
      unfold replace at hr
      split at hr
      · exact absurd (congrArg Prod.fst hr).symm h
      · exact hr ▸ he
    · intro hm
      exact ⟨(k', w), hm, by simp [replace, h]⟩
  · simp [h]

theorem get?_set (m : OrderedMap κ ν) (k k' : κ) (v : ν) :
    (m.set k v).get? k' = if k' = k then some v else m.get? k' := by
  split
  · rename_i h; subst h; exact get?_set_self m k' v
  · rename_i h; exact get?_set_ne m v h

theorem get?_delete (m : OrderedMap κ ν) (k k' : κ) :
    (m.delete k).get? k' = if k' = k then none else m.get? k' := by
  apply Option.ext
  intro w
  rw [← mem_entries_iff]
  unfold delete
  split
  · rename_i h; simp [h]
  · rename_i h; simp [h, mem_entries_iff]

/-! ## Loops that fill a map -/

/-- `for (const x of l)`: offer `x` and what the map holds at its key to `f`; `none` leaves the
map alone. -/
def loop (key : α → κ) (f : α → Option ν → Option ν) (m : OrderedMap κ ν) (l : List α) :
    OrderedMap κ ν :=
  l.foldl (fun m x => match f x (m.get? (key x)) with
    | some v => m.set (key x) v
    | none => m) m

/-- What a loop leaves at `k` is decided by the elements of that key alone, in order. -/
theorem get?_loop (key : α → κ) (f : α → Option ν → Option ν) (l : List α) :
    ∀ (m : OrderedMap κ ν) (k : κ), (loop key f m l).get? k =
      (l.filter fun x => decide (key x = k)).foldl (fun o x => (f x o).or o) (m.get? k) := by
  induction l with
  | nil => intro m k; rfl
  | cons x l ih =>
    intro m k
    have hstep : loop key f m (x :: l) = loop key f (match f x (m.get? (key x)) with
        | some v => m.set (key x) v
        | none => m) l := rfl
    rw [hstep, ih]
    by_cases hk : key x = k
    · subst hk
      cases hf : f x (m.get? (key x)) <;> simp [hf]
    · cases hf : f x (m.get? (key x)) with
      | none => simp [hk]
      | some v => simp [hk, get?_set_ne m v (Ne.symm hk)]

/-- `new Map(l.map(x => [key, val]))`: a later element overwrites an earlier one. -/
def ofList (key : α → κ) (val : α → ν) (l : List α) : OrderedMap κ ν :=
  loop key (fun x _ => some (val x)) empty l

/-- Append each element to the list kept under its key. -/
def groupBy (key : α → κ) (l : List α) : OrderedMap κ (List α) :=
  loop key (fun x o => some (o.getD [] ++ [x])) empty l

theorem foldl_last (val : α → ν) (l : List α) :
    ∀ o : Option ν, l.foldl (fun o x => (some (val x)).or o) o = (l.getLast?.map val).or o := by
  induction l using List.reverseRecOn with
  | nil => intro o; simp
  | append_singleton l x ih => intro o; simp [List.foldl_append]

theorem foldl_first (val : α → ν) (l : List α) :
    ∀ o : Option ν, l.foldl (fun o x => (if o.isSome then none else some (val x)).or o) o =
      o.or (l.head?.map val) := by
  induction l with
  | nil => intro o; simp
  | cons x l ih => intro o; cases o <;> simp [ih]

theorem foldl_group (l : List α) :
    ∀ o : Option (List α), l.foldl (fun o x => (some (o.getD [] ++ [x])).or o) o =
      if l = [] then o else some (o.getD [] ++ l) := by
  induction l with
  | nil => intro o; simp
  | cons x l ih =>
    intro o
    simp only [List.foldl_cons, Option.some_or] at ih ⊢
    rw [ih]
    by_cases hl : l = [] <;> simp [hl]

theorem get?_ofList (key : α → κ) (val : α → ν) (l : List α) (k : κ) :
    (ofList key val l).get? k = ((l.filter fun x => decide (key x = k)).getLast?).map val := by
  unfold ofList
  rw [get?_loop, foldl_last]
  simp

theorem get?_groupBy (key : α → κ) (l : List α) (k : κ) :
    (groupBy key l).get? k =
      if (l.filter fun x => decide (key x = k)) = [] then none
      else some (l.filter fun x => decide (key x = k)) := by
  unfold groupBy
  rw [get?_loop, foldl_group]
  simp

/-- Reading a group back, with the empty list for a key never seen. -/
theorem getD_groupBy (key : α → κ) (l : List α) (k : κ) :
    ((groupBy key l).get? k).getD [] = l.filter fun x => decide (key x = k) := by
  rw [get?_groupBy]
  split
  · rename_i h; simp [h]
  · rfl

theorem ofList_map {β : Type} (key : α → κ) (val : α → ν) (f : β → α) (l : List β) :
    ofList key val (l.map f) = ofList (fun x => key (f x)) (fun x => val (f x)) l := by
  unfold ofList loop
  rw [List.foldl_map]

/-- Where equal keys carry equal values, overwriting does not show. -/
theorem get?_ofList_iff {key : α → κ} {val : α → ν} {l : List α}
    (hfun : ∀ x ∈ l, ∀ y ∈ l, key x = key y → val x = val y) {k : κ} {v : ν} :
    (ofList key val l).get? k = some v ↔ ∃ x ∈ l, key x = k ∧ val x = v := by
  rw [get?_ofList]
  constructor
  · intro h
    obtain ⟨x, hx, hv⟩ := Option.map_eq_some_iff.1 h
    have hm := List.mem_of_getLast? hx
    simp only [List.mem_filter, decide_eq_true_eq] at hm
    exact ⟨x, hm.1, hm.2, hv⟩
  · rintro ⟨x, hx, hk, hv⟩
    have hmem : x ∈ l.filter fun x => decide (key x = k) :=
      List.mem_filter.2 ⟨hx, decide_eq_true hk⟩
    cases hlast : (l.filter fun x => decide (key x = k)).getLast? with
    | none =>
      rw [List.getLast?_eq_none_iff] at hlast
      rw [hlast] at hmem
      cases hmem
    | some y =>
      have hm := List.mem_of_getLast? hlast
      simp only [List.mem_filter, decide_eq_true_eq] at hm
      rw [Option.map_some, ← hv]
      exact congrArg some (hfun y hm.1 x hx (hm.2.trans hk.symm))

/-- Where equal keys carry equal values, the order of insertion does not show. -/
theorem get?_ofList_perm {key : α → κ} {val : α → ν} {l l' : List α} (hp : l.Perm l')
    (hfun : ∀ x ∈ l, ∀ y ∈ l, key x = key y → val x = val y) (k : κ) :
    (ofList key val l).get? k = (ofList key val l').get? k := by
  have hfun' : ∀ x ∈ l', ∀ y ∈ l', key x = key y → val x = val y := fun x hx y hy =>
    hfun x (hp.mem_iff.2 hx) y (hp.mem_iff.2 hy)
  apply Option.ext
  intro v
  rw [get?_ofList_iff hfun, get?_ofList_iff hfun']
  simp only [hp.mem_iff]

/-- A map filled from the elements of a list and their places in it. -/
theorem get?_ofList_mapIdx {β : Type} {f : Nat → β → κ × ν} {l : List β}
    (hfun : ∀ i x i' x', l[i]? = some x → l[i']? = some x' → (f i x).1 = (f i' x').1 →
      (f i x).2 = (f i' x').2) {k : κ} {v : ν} :
    (ofList Prod.fst Prod.snd (l.mapIdx f)).get? k = some v ↔
      ∃ i x, l[i]? = some x ∧ (f i x).1 = k ∧ (f i x).2 = v := by
  rw [get?_ofList_iff]
  · constructor
    · rintro ⟨e, he, hk, hv⟩
      obtain ⟨i, x, hx, rfl⟩ := mem_mapIdx_iff.1 he
      exact ⟨i, x, hx, hk, hv⟩
    · rintro ⟨i, x, hx, hk, hv⟩
      exact ⟨_, mem_mapIdx_iff.2 ⟨i, x, hx, rfl⟩, hk, hv⟩
  · intro e he e' he' hk
    obtain ⟨i, x, hx, rfl⟩ := mem_mapIdx_iff.1 he
    obtain ⟨i', x', hx', rfl⟩ := mem_mapIdx_iff.1 he'
    exact hfun i x i' x' hx hx' hk

/-- The last of a key decides, whatever is kept under it. -/
theorem get?_ofList_map {β : Type} (key : β → κ) (val : β → ν) (l : List β) (k : κ) :
    (ofList Prod.fst Prod.snd (l.map fun x => (key x, val x))).get? k =
      ((l.filter fun x => decide (key x = k)).getLast?).map val := by
  rw [get?_ofList, List.filter_map, List.getLast?_map, Option.map_map]
  rfl

/-- Every entry of a map built from a list comes from an element of the list. -/
theorem of_mem_ofList {key : α → κ} {val : α → ν} {l : List α} {k : κ} {v : ν}
    (h : (k, v) ∈ (ofList key val l).entries) : ∃ x ∈ l, key x = k ∧ val x = v := by
  rw [mem_entries_iff, get?_ofList] at h
  obtain ⟨x, hx, rfl⟩ := Option.map_eq_some_iff.1 h
  have hm := List.mem_of_getLast? hx
  simp only [List.mem_filter, decide_eq_true_eq] at hm
  exact ⟨x, hm.1, hm.2, rfl⟩

theorem filter_key_of_nodup {key : α → κ} {l : List α} (hn : (l.map key).Nodup) {x : α}
    (hx : x ∈ l) : (l.filter fun y => decide (key y = key x)) = [x] := by
  induction l with
  | nil => cases hx
  | cons y l ih =>
    rw [List.map_cons, List.nodup_cons] at hn
    rcases List.mem_cons.1 hx with rfl | hx
    · have : (l.filter fun y => decide (key y = key x)) = [] := by
        rw [List.filter_eq_nil_iff]
        intro z hz hk
        exact hn.1 (List.mem_map.2 ⟨z, hz, by simpa using hk⟩)
      simp [this]
    · have hne : key y ≠ key x := fun he => hn.1 (he ▸ List.mem_map_of_mem hx)
      simp [hne, ih hn.2 hx]

/-- With distinct keys the map is a lookup in the list. -/
theorem get?_ofList_of_nodup {key : α → κ} (val : α → ν) {l : List α} (hn : (l.map key).Nodup)
    (k : κ) : (ofList key val l).get? k = (l.find? fun x => decide (key x = k)).map val := by
  rw [get?_ofList]
  cases hf : l.find? fun x => decide (key x = k) with
  | none =>
    have hnil : (l.filter fun x => decide (key x = k)) = [] := by
      rw [List.filter_eq_nil_iff]
      exact List.find?_eq_none.1 hf
    rw [hnil]
    rfl
  | some x =>
    have hk : key x = k := by simpa using List.find?_some hf
    subst hk
    rw [filter_key_of_nodup hn (List.mem_of_find?_eq_some hf)]
    rfl

/-- A loop that writes at every element folds the values themselves. -/
theorem getD_foldl_some {β : Type} (f : β → α → β) (d : β) (l : List α) :
    ∀ o : Option β, (l.foldl (fun o x => (some (f (o.getD d) x)).or o) o).getD d =
      l.foldl f (o.getD d) := by
  induction l with
  | nil => intro o; rfl
  | cons x l ih => intro o; simp only [List.foldl_cons, Option.some_or]; exact ih _

/-- With distinct keys nothing is overwritten. -/
theorem mem_ofList {key : α → κ} {val : α → ν} {l : List α} (hn : (l.map key).Nodup) {x : α}
    (hx : x ∈ l) : (key x, val x) ∈ (ofList key val l).entries := by
  rw [mem_entries_iff, get?_ofList, filter_key_of_nodup hn hx]
  rfl

/-- A loop over keys the map does not hold appends to its entries. -/
theorem entries_loop_of_fresh {key : α → κ} {val : α → ν} {l : List α} :
    ∀ {m : OrderedMap κ ν}, (l.map key).Nodup → (∀ x ∈ l, ∀ e ∈ m.entries, e.1 ≠ key x) →
      (loop key (fun x _ => some (val x)) m l).entries =
        m.entries ++ l.map fun x => (key x, val x) := by
  induction l with
  | nil =>
    intro m _ _
    exact (List.append_nil _).symm
  | cons x l ih =>
    intro m hn hfresh
    obtain ⟨hx, hn⟩ := List.nodup_cons.1 hn
    have hset : (m.set (key x) (val x)).entries = m.entries ++ [(key x, val x)] := by
      unfold set
      rw [dif_neg]
      intro hm
      obtain ⟨e, he, hk⟩ := List.mem_map.1 hm
      exact hfresh x (List.mem_cons_self ..) e he hk
    have hstep : loop key (fun x _ => some (val x)) m (x :: l) =
        loop key (fun x _ => some (val x)) (m.set (key x) (val x)) l := rfl
    rw [hstep, ih hn, hset, List.map_cons, List.append_assoc]
    · rfl
    · intro y hy e he
      rw [hset] at he
      rcases List.mem_append.1 he with he | he
      · exact hfresh y (List.mem_cons_of_mem _ hy) e he
      · rw [List.mem_singleton.1 he]
        intro hk
        have hk : key x = key y := hk
        exact hx (hk ▸ List.mem_map_of_mem hy)

theorem entries_ofList {key : α → κ} (val : α → ν) {l : List α} (hn : (l.map key).Nodup) :
    (ofList key val l).entries = l.map fun x => (key x, val x) :=
  entries_loop_of_fresh hn fun _ _ _ he => nomatch he

theorem entries_set_of_notMem {m : OrderedMap κ ν} {k : κ} (h : k ∉ m.entries.map Prod.fst)
    (v : ν) : (m.set k v).entries = m.entries ++ [(k, v)] := by
  unfold set
  rw [dif_neg h]

/-- Setting the first key keeps it first and touches nothing else. -/
theorem entries_set_head {m : OrderedMap κ ν} {k : κ} {v : ν} {rest : List (κ × ν)}
    (h : m.entries = (k, v) :: rest) (w : ν) : (m.set k w).entries = (k, w) :: rest := by
  have hn := m.nodup
  rw [h, List.map_cons, List.nodup_cons] at hn
  have hrest : rest.map (replace k w) = rest := by
    conv_rhs => rw [← List.map_id rest]
    apply List.map_congr_left
    intro e he
    have hmem : e.1 ∈ rest.map Prod.fst := List.mem_map_of_mem he
    have hne : e.1 ≠ k := fun hk => hn.1 (hk ▸ hmem)
    exact if_neg hne
  unfold set
  rw [dif_pos (by rw [h]; exact List.mem_cons_self)]
  show m.entries.map (replace k w) = (k, w) :: rest
  rw [h, List.map_cons, hrest]
  congr 1
  exact if_pos rfl

/-- Setting distinct keys in turn on a map that starts with `k`: a value set for `k` stays in the
first place and the others follow in their order. -/
theorem entries_foldl_set {k : κ} {terms : List (κ × ν)} :
    ∀ {m : OrderedMap κ ν} {v : ν} {rest : List (κ × ν)}, m.entries = (k, v) :: rest →
      (terms.map Prod.fst).Nodup → (∀ t ∈ terms, t.1 ∉ rest.map Prod.fst) →
      (terms.foldl (fun m t => m.set t.1 t.2) m).entries =
        (k, ((terms.find? fun t => decide (t.1 = k)).map Prod.snd).getD v) ::
          (rest ++ terms.filter fun t => decide (t.1 ≠ k)) := by
  induction terms with
  | nil =>
    intro m v rest h _ _
    simp [h]
  | cons t terms ih =>
    intro m v rest h hn hfresh
    rw [List.map_cons, List.nodup_cons] at hn
    have hfresh' : ∀ t ∈ terms, t.1 ∉ rest.map Prod.fst := fun t ht =>
      hfresh t (List.mem_cons_of_mem _ ht)
    rw [List.foldl_cons]
    by_cases hk : t.1 = k
    · have hset := entries_set_head h t.2
      have hnone : terms.find? (fun t => decide (t.1 = k)) = none := by
        rw [List.find?_eq_none]
        intro u hu heq
        exact hn.1 (hk ▸ of_decide_eq_true heq ▸ List.mem_map_of_mem hu)
      rw [hk, ih hset hn.2 hfresh', hnone]
      simp [hk]
    · have hnotMem : t.1 ∉ m.entries.map Prod.fst := by
        rw [h, List.map_cons, List.mem_cons, not_or]
        exact ⟨hk, hfresh t List.mem_cons_self⟩
      have hset := entries_set_of_notMem hnotMem t.2
      rw [h, List.cons_append] at hset
      rw [ih hset hn.2]
      · simp [hk]
      · intro u hu hmem
        rw [List.map_append, List.mem_append] at hmem
        rcases hmem with hmem | hmem
        · exact hfresh' u hu hmem
        · exact hn.1 (List.mem_singleton.1 hmem ▸ List.mem_map_of_mem hu)

theorem filter_entries_set (p : κ → Bool) (m : OrderedMap κ ν) {k : κ} (h : p k = false) (v : ν) :
    (m.set k v).entries.filter (fun e => p e.1) = m.entries.filter fun e => p e.1 := by
  by_cases hk : k ∈ m.entries.map Prod.fst
  · unfold set
    rw [dif_pos hk]
    show (m.entries.map (replace k v)).filter (fun e => p e.1) = m.entries.filter fun e => p e.1
    generalize m.entries = entries
    induction entries with
    | nil => rfl
    | cons e entries ih =>
      rw [List.map_cons, List.filter_cons, List.filter_cons, ih, fst_replace]
      by_cases he : e.1 = k
      · rw [he, h]
        rfl
      · rw [show replace k v e = e from if_neg he]
  · rw [entries_set_of_notMem hk, List.filter_append]
    simp [h]

theorem key_mem_of_entries {key : α → κ} {val : α → ν} {l : List α} {k : κ}
    (h : k ∈ (ofList key val l).entries.map Prod.fst) : k ∈ l.map key := by
  obtain ⟨⟨k', v⟩, he, rfl⟩ := List.mem_map.1 h
  obtain ⟨x, hx, hk, -⟩ := of_mem_ofList he
  exact hk ▸ List.mem_map_of_mem hx

/-- The entries at some keys, where those keys are set once each. -/
theorem filter_entries_ofList {p : κ → Bool} {key : α → κ} (val : α → ν) {l : List α}
    (hn : ((l.map key).filter p).Nodup) :
    (ofList key val l).entries.filter (fun e => p e.1) =
      (l.map fun x => (key x, val x)).filter fun e => p e.1 := by
  induction l using List.reverseRecOn with
  | nil => rfl
  | append_singleton l x ih =>
    have hset : ofList key val (l ++ [x]) = (ofList key val l).set (key x) (val x) := by
      unfold ofList loop
      rw [List.foldl_append]
      rfl
    rw [List.map_append, List.filter_append, List.nodup_append] at hn
    rw [hset, List.map_append, List.filter_append]
    cases hp : p (key x) with
    | false =>
      rw [filter_entries_set p _ hp, ih hn.1]
      simp [hp]
    | true =>
      have hnotMem : key x ∉ (ofList key val l).entries.map Prod.fst := by
        intro hmem
        have hl := key_mem_of_entries hmem
        exact hn.2.2 _ (List.mem_filter.2 ⟨hl, hp⟩) _ (by simp [hp]) rfl
      rw [entries_set_of_notMem hnotMem, List.filter_append, ih hn.1]
      simp [hp]

end OrderedMap
end Lib
end NolagCore
