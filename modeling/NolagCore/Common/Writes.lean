import NolagCore.Common.Errors

/-!
# Common.Writes

What the writes of a facade leave alone. Every operation writes a table by appending rows, saving
one, stamping some or deleting some; a selection of rows that the write misses reads the same
afterwards.
-/

namespace NolagCore

open Lib

section

variable {α κ : Type} {rows : List α} {q : α → Bool}

/-- New rows are missed by a selection that none of them is in. -/
theorem filter_append_off {new : List α} (h : ∀ r ∈ new, q r = false) :
    (rows ++ new).filter q = rows.filter q := by
  have hnone : new.filter q = [] := List.filter_eq_nil_iff.2 fun r hr => by simp [h r hr]
  rw [List.filter_append, hnone, List.append_nil]

theorem filter_updateRows_off {p : α → Bool} {f : α → α}
    (h : ∀ r ∈ rows, p r = true → q r = false ∧ q (f r) = false) :
    (updateRows p f rows).filter q = rows.filter q := by
  unfold updateRows
  induction rows with
  | nil => rfl
  | cons r rows ih =>
    have hrest := ih fun r' hr' => h r' (List.mem_cons_of_mem _ hr')
    rw [List.map_cons, List.filter_cons, List.filter_cons, hrest]
    by_cases hp : p r = true
    · obtain ⟨hold, hnew⟩ := h r List.mem_cons_self hp
      rw [if_pos hp, hold, hnew]
      rfl
    · rw [if_neg hp]

/-- A saved row is missed by a selection that has neither it nor the row it replaces. -/
theorem filter_saveRow_off [DecidableEq κ] {key : α → κ} {existing entity : α}
    (hpk : UniqueOn key rows) (hrow : existing ∈ rows) (hkey : key entity = key existing)
    (hold : q existing = false) (hnew : q entity = false) :
    (saveRow key entity rows).filter q = rows.filter q := by
  have hsave : saveRow key entity rows =
      updateRows (fun r => decide (key r = key entity)) (fun _ => entity) rows := by
    unfold saveRow updateRows
    refine List.map_congr_left fun r _ => ?_
    by_cases hk : key r = key entity <;> simp [hk]
  rw [hsave]
  refine filter_updateRows_off fun r hr hk => ⟨?_, hnew⟩
  rw [hpk.eq_of_key hr hrow ((of_decide_eq_true hk).trans hkey)]
  exact hold

theorem filter_deleteRows_off {p : α → Bool} (h : ∀ r ∈ rows, p r = true → q r = false) :
    (deleteRows p rows).filter q = rows.filter q := by
  unfold deleteRows
  rw [List.filter_filter]
  refine List.filter_congr fun r hr => ?_
  cases hp : p r with
  | false => simp
  | true => simp [h r hr hp]

/-- Rows that a selection takes are all kept where it implies the condition to stay. -/
theorem filter_filter_off {p : α → Bool} (h : ∀ r ∈ rows, q r = true → p r = true) :
    (rows.filter p).filter q = rows.filter q := by
  rw [List.filter_filter]
  refine List.filter_congr fun r hr => ?_
  cases hq : q r with
  | false => rfl
  | true => simp [h r hr hq]

/-- What a selection of two tables that agree on it shows of one shows of the other. -/
theorem any_congr_filter {rows' : List α} {p : α → Bool} (h : rows'.filter q = rows.filter q)
    (hp : ∀ r, p r = true → q r = true) : rows'.any p = rows.any p := by
  have hread : ∀ l : List α, l.any p = (l.filter q).any p := by
    intro l
    rw [List.any_filter]
    refine List.any_congr rfl fun r => ?_
    cases hr : p r with
    | false => simp
    | true => simp [hp r hr]
  rw [hread rows', hread rows, h]

end

/-! ## A row that is still there -/

section

variable {α κ : Type} {rows : List α} {P : α → Prop}

/-- A row with a property is still there after a save that gives the saved row the property where the
row it replaces had it. -/
theorem exists_saveRow [DecidableEq κ] {key : α → κ} {existing entity : α}
    (hpk : UniqueOn key rows) (hrow : existing ∈ rows) (hkey : key entity = key existing)
    (hP : P existing → P entity) (h : ∃ r ∈ rows, P r) : ∃ r ∈ saveRow key entity rows, P r := by
  obtain ⟨r, hr, hPr⟩ := h
  by_cases hk : key r = key entity
  · have heq : r = existing := hpk.eq_of_key hr hrow (hk.trans hkey)
    exact ⟨entity, List.mem_map.2 ⟨r, hr, if_pos hk⟩, hP (heq ▸ hPr)⟩
  · exact ⟨r, List.mem_map.2 ⟨r, hr, if_neg hk⟩, hPr⟩

theorem exists_updateRows {p : α → Bool} {f : α → α} (hP : ∀ r, P r → P (f r))
    (h : ∃ r ∈ rows, P r) : ∃ r ∈ updateRows p f rows, P r := by
  obtain ⟨r, hr, hPr⟩ := h
  by_cases hp : p r = true
  · exact ⟨f r, List.mem_map.2 ⟨r, hr, if_pos hp⟩, hP r hPr⟩
  · exact ⟨r, List.mem_map.2 ⟨r, hr, if_neg hp⟩, hPr⟩

theorem exists_append {new : List α} (h : ∃ r ∈ rows, P r) : ∃ r ∈ rows ++ new, P r := by
  obtain ⟨r, hr, hPr⟩ := h
  exact ⟨r, List.mem_append_left new hr, hPr⟩

end

/-! ## Saves that keep the constraints -/

section

variable {α κ : Type} [DecidableEq κ] {key : α → κ} {existing entity : α} {rows : List α}

/-- A row that is stamped or patched by its primary key is the row that is saved. -/
theorem updateRows_eq_saveRow {p : α → Bool} {f : α → α} (hpk : UniqueOn key rows)
    (hrow : existing ∈ rows) (hkey : key (f existing) = key existing) (hp : p existing = true)
    (honly : ∀ r, p r = true → key r = key existing) :
    updateRows p f rows = saveRow key (f existing) rows := by
  unfold updateRows saveRow
  refine List.map_congr_left fun r hr => ?_
  by_cases heq : r = existing
  · rw [if_pos (heq ▸ hp), if_pos (by rw [heq, hkey]), heq]
  · have hne : key r ≠ key existing := fun hk => heq (hpk.eq_of_key hr hrow hk)
    rw [if_neg (fun h => hne (honly r h)), if_neg (hkey ▸ hne)]

theorem uniqueOn_saveRow (hpk : UniqueOn key rows) : UniqueOn key (saveRow key entity rows) := by
  unfold UniqueOn
  rw [map_saveRow]
  exact hpk

/-- A column that the save leaves as it was reads the same in every row. -/
theorem map_saveRow_of_eq {β : Type} {f : α → β} (hpk : UniqueOn key rows) (hrow : existing ∈ rows)
    (hkey : key entity = key existing) (hf : f entity = f existing) :
    (saveRow key entity rows).map f = rows.map f := by
  unfold saveRow
  rw [List.map_map]
  refine List.map_congr_left fun r hr => ?_
  by_cases hk : key r = key entity
  · rw [Function.comp, if_pos hk, hf, hpk.eq_of_key hr hrow (hk.trans hkey)]
  · rw [Function.comp, if_neg hk]

/-- No live row takes the slug of another where a live row keeps its own. -/
theorem uniqueOn_live_saveRow [SoftDelete α] {β : Type} {slug : α → β}
    (hpk : UniqueOn key rows) (hrow : existing ∈ rows) (hkey : key entity = key existing)
    (hslug : slug entity = slug existing) (hlive : live existing = true)
    (h : UniqueOn slug (rows.filter live)) :
    UniqueOn slug ((saveRow key entity rows).filter live) := by
  refine List.Nodup.sublist ?_ h
  have hmap : ∀ l : List α, (∀ r ∈ l, key r = key entity → r = existing) →
      (((saveRow key entity l).filter live).map slug).Sublist ((l.filter live).map slug) := by
    intro l
    induction l with
    | nil => exact fun _ => .slnil
    | cons r l ih =>
      intro hl
      have hrest := ih fun r' hr' => hl r' (List.mem_cons_of_mem _ hr')
      have hcons : saveRow key entity (r :: l) =
          (if key r = key entity then entity else r) :: saveRow key entity l := rfl
      rw [hcons]
      by_cases hk : key r = key entity
      · have hr := hl r List.mem_cons_self hk
        rw [if_pos hk, hr, List.filter_cons_of_pos hlive, List.map_cons, ← hslug]
        cases he : live entity with
        | true =>
          rw [List.filter_cons_of_pos he]
          exact hrest.cons_cons _
        | false =>
          rw [List.filter_cons_of_neg (by simp [he])]
          exact hrest.cons _
      · rw [if_neg hk]
        cases he : live r with
        | true =>
          rw [List.filter_cons_of_pos he, List.filter_cons_of_pos he]
          exact hrest.cons_cons _
        | false =>
          rw [List.filter_cons_of_neg (by simp [he]), List.filter_cons_of_neg (by simp [he])]
          exact hrest
  exact hmap rows fun r hr hk => hpk.eq_of_key hr hrow (hk.trans hkey)

/-- A saved row refers to what it referred to before. -/
theorem references_of_saveRow {β κ' : Type} {fk : α → Option κ'} {others : List β} {target : β → κ'}
    (hrow : existing ∈ rows) (hfk : fk entity = fk existing)
    (h : References rows fk others target) :
    References (saveRow key entity rows) fk others target := by
  intro r hr k hk
  rcases mem_saveRow hr with rfl | hold
  · exact h existing hrow k (hfk ▸ hk)
  · exact h r hold k hk

end

/-! ## The one row of a key -/

section

variable {α β : Type} [SoftDelete α] [DecidableEq β] {col : α → β} {rows : List α}

/-- A table whose rows are never stamped, with at most one of them a key. -/
structure OneRow (col : α → β) (rows : List α) : Prop where
  distinct : UniqueOn col rows
  live : ∀ r ∈ rows, live r = true

/-- The row of a key, as a query for it finds it. -/
def rowAt (col : α → β) (rows : List α) (b : β) : Option α := findOne rows fun r => decide (col r = b)

omit [DecidableEq β] in
theorem OneRow.nil : OneRow col ([] : List α) :=
  ⟨List.nodup_nil, fun r hr => by cases hr⟩

/-- Such a table is the map from its keys to its rows. -/
theorem OneRow.rowAt_iff (h : OneRow col rows) {b : β} {r : α} :
    rowAt col rows b = some r ↔ r ∈ rows ∧ col r = b := by
  constructor
  · intro hf
    obtain ⟨hr, _, hb⟩ := of_findOne hf
    exact ⟨hr, of_decide_eq_true hb⟩
  · rintro ⟨hr, rfl⟩
    exact findOne_of_unique hr (h.live r hr) (decide_eq_true rfl) fun r' hr' _ hb =>
      h.distinct.eq_of_key hr' hr (of_decide_eq_true hb)

theorem OneRow.rowAt_eq_none (h : OneRow col rows) {b : β} :
    rowAt col rows b = none ↔ ∀ r ∈ rows, col r ≠ b := by
  unfold rowAt
  rw [findOne_eq_none]
  constructor
  · intro hnone r hr
    exact of_decide_eq_false (hnone r hr (h.live r hr))
  · intro hne r hr _
    exact decide_eq_false (hne r hr)

/-- Two such maps are one where they have the same rows for each key. -/
theorem rowAt_ext {m : β → Option α} (h : OneRow col rows)
    (hm : ∀ b r, m b = some r ↔ r ∈ rows ∧ col r = b) : rowAt col rows = m := by
  funext b
  exact Option.ext fun r => h.rowAt_iff.trans (hm b r).symm

/-- Saving the row of a key writes the map at that key. -/
theorem OneRow.save {κ : Type} [DecidableEq κ] {key : α → κ} (hpk : UniqueOn key rows)
    (h : OneRow col rows) {b : β} {existing entity : α} (hf : rowAt col rows b = some existing)
    (hkey : key entity = key existing) (hcol : col entity = col existing)
    (hlive : Lib.live entity = true) :
    OneRow col (saveRow key entity rows) ∧
      rowAt col (saveRow key entity rows) = Function.update (rowAt col rows) b (some entity) := by
  obtain ⟨hrow, rfl⟩ := h.rowAt_iff.1 hf
  have hone : OneRow col (saveRow key entity rows) := by
    refine ⟨?_, fun r hr => ?_⟩
    · unfold UniqueOn
      rw [map_saveRow_of_eq hpk hrow hkey hcol]
      exact h.distinct
    · rcases mem_saveRow hr with rfl | hr
      · exact hlive
      · exact h.live r hr
  refine ⟨hone, rowAt_ext hone fun b r => ?_⟩
  by_cases hb : b = col existing
  · subst hb
    rw [Function.update_self, Option.some.injEq]
    constructor
    · rintro rfl
      exact ⟨List.mem_map.2 ⟨existing, hrow, if_pos hkey.symm⟩, hcol⟩
    · rintro ⟨hr, hb⟩
      have hentity : entity ∈ saveRow key entity rows :=
        List.mem_map.2 ⟨existing, hrow, if_pos hkey.symm⟩
      exact hone.distinct.eq_of_key hentity hr (hcol.trans hb.symm)
  · rw [Function.update_of_ne hb, h.rowAt_iff]
    constructor
    · rintro ⟨hr, rfl⟩
      have hne : key r ≠ key entity := fun hk =>
        hb (congrArg col (hpk.eq_of_key hr hrow (hk.trans hkey)))
      exact ⟨List.mem_map.2 ⟨r, hr, if_neg hne⟩, rfl⟩
    · rintro ⟨hr, rfl⟩
      rcases mem_saveRow hr with rfl | hr
      · exact absurd hcol hb
      · exact ⟨hr, rfl⟩

/-- A row for a key that has none yet. -/
theorem OneRow.insert (h : OneRow col rows) {entity : α} (hnone : rowAt col rows (col entity) = none)
    (hlive : Lib.live entity = true) :
    OneRow col (rows ++ [entity]) ∧
      rowAt col (rows ++ [entity]) =
        Function.update (rowAt col rows) (col entity) (some entity) := by
  have hfresh := h.rowAt_eq_none.1 hnone
  have hone : OneRow col (rows ++ [entity]) := by
    refine ⟨h.distinct.append_of_ne (List.nodup_singleton _) fun r hr r' hr' => ?_, fun r hr => ?_⟩
    · rw [List.mem_singleton.1 hr']
      exact hfresh r hr
    · rcases List.mem_append.1 hr with hr | hr
      · exact h.live r hr
      · rw [List.mem_singleton.1 hr]
        exact hlive
  refine ⟨hone, rowAt_ext hone fun b r => ?_⟩
  rw [List.mem_append, List.mem_singleton]
  by_cases hb : b = col entity
  · subst hb
    rw [Function.update_self, Option.some.injEq]
    constructor
    · rintro rfl
      exact ⟨.inr rfl, rfl⟩
    · rintro ⟨hr | rfl, hb⟩
      · exact absurd hb (hfresh r hr)
      · rfl
  · rw [Function.update_of_ne hb, h.rowAt_iff]
    constructor
    · rintro ⟨hr, rfl⟩
      exact ⟨.inl hr, rfl⟩
    · rintro ⟨hr | rfl, rfl⟩
      · exact ⟨hr, rfl⟩
      · exact absurd rfl hb

/-- Rows that are chosen by their key go, and the map with them. -/
theorem OneRow.restrict (h : OneRow col rows) (gone : β → Bool) :
    OneRow col (deleteRows (fun r => gone (col r)) rows) ∧
      rowAt col (deleteRows (fun r => gone (col r)) rows) =
        fun b => if gone b then none else rowAt col rows b := by
  have hone : OneRow col (deleteRows (fun r => gone (col r)) rows) :=
    ⟨h.distinct.filter _, fun r hr => h.live r (List.mem_of_mem_filter hr)⟩
  refine ⟨hone, rowAt_ext hone fun b r => ?_⟩
  unfold deleteRows
  rw [List.mem_filter]
  by_cases hb : gone b = true
  · rw [if_pos hb]
    constructor
    · intro hr
      cases hr
    · rintro ⟨⟨_, hkept⟩, rfl⟩
      simp [hb] at hkept
  · rw [if_neg hb, h.rowAt_iff]
    constructor
    · rintro ⟨hr, rfl⟩
      exact ⟨⟨hr, by simp [hb]⟩, rfl⟩
    · rintro ⟨⟨hr, _⟩, rfl⟩
      exact ⟨hr, rfl⟩

end

end NolagCore
