import NolagCore.Lib.IsoDate
import NolagCore.Model.Database

/-!
# Common.Errors

What a facade throws, and the two primitives every facade writes with. A transaction that throws
leaves the database as it was, so an operation is a function from a database to an error or to a
result with the database it commits.
-/

namespace NolagCore

open Lib

/-- The exceptions, with the text returned to the caller; `errorMsgSystem` is logged only. -/
inductive CoreError where
  | notFound (errorMsgUser : String)
  | conflict (errorMsgUser : String)
  | badRequest (errorMsgUser : String) (errorMsgSystem : Option String := none)
  /-- A statement that the database or its driver refuses. -/
  | database
  /-- A plain `Error`. -/
  | internal (message : String)
deriving DecidableEq

/-- What an operation on a database comes to. -/
abbrev Outcome (α : Type) := Except CoreError (α × Database)

/-- Commit `s`, which the constraints check. -/
def commit {α : Type} (s : Store) (a : α) : Outcome α :=
  if h : s.SchemaValid then .ok (a, ⟨s, h⟩) else .error .database

theorem commit_ok {α : Type} {s : Store} {a b : α} {db : Database}
    (h : commit s a = .ok (b, db)) : b = a ∧ db.store = s := by
  unfold commit at h
  split at h
  · cases h; exact ⟨rfl, rfl⟩
  · cases h

/-- `save` of an entity that is already stored: its row takes the entity's values. -/
def saveRow {α κ : Type} [DecidableEq κ] (key : α → κ) (entity : α) (rows : List α) : List α :=
  rows.map fun r => if key r = key entity then entity else r

theorem mem_saveRow {α κ : Type} [DecidableEq κ] {key : α → κ} {entity : α} {rows : List α} {r : α}
    (h : r ∈ saveRow key entity rows) : r = entity ∨ r ∈ rows := by
  obtain ⟨r', hr', he⟩ := List.mem_map.1 h
  split at he
  · exact .inl he.symm
  · exact .inr (he ▸ hr')

theorem map_saveRow {α κ : Type} [DecidableEq κ] (key : α → κ) (entity : α) (rows : List α) :
    (saveRow key entity rows).map key = rows.map key := by
  unfold saveRow
  rw [List.map_map]
  refine List.map_congr_left fun r _ => ?_
  simp only [Function.comp]
  split
  · rename_i heq
    exact heq.symm
  · rfl

/-- Saving a row leaves what refers to it in place. -/
theorem references_saveRow {α β κ : Type} [DecidableEq κ] {rows : List α} {key : α → Option κ}
    {target : β → κ} {others : List β} (h : References rows key others target) (entity : β) :
    References rows key (saveRow target entity others) target := by
  intro r hr k hk
  have hold : k ∈ others.map target := List.mem_map.2 (h r hr k hk)
  rw [← map_saveRow target entity] at hold
  exact List.mem_map.1 hold

/-- `UPDATE ... WHERE p`, with `f` the assignment. -/
def updateRows {α : Type} (p : α → Bool) (f : α → α) (rows : List α) : List α :=
  rows.map fun r => if p r then f r else r

theorem mem_updateRows {α : Type} {p : α → Bool} {f : α → α} {rows : List α} {r : α}
    (h : r ∈ updateRows p f rows) : (∃ r₀ ∈ rows, p r₀ = true ∧ r = f r₀) ∨ r ∈ rows := by
  obtain ⟨r₀, hr₀, he⟩ := List.mem_map.1 h
  split at he
  · rename_i hp
    exact .inl ⟨r₀, hr₀, hp, he.symm⟩
  · exact .inr (he ▸ hr₀)

/-- `DELETE ... WHERE p`. -/
def deleteRows {α : Type} (p : α → Bool) (rows : List α) : List α := rows.filter fun r => !p r

/-- `text ? new Date(text) : null`; an invalid date is refused when the row is written. -/
def dateColumn (legacy : String → Option Int) (text : Option String) :
    Except CoreError (Option Int) :=
  match text with
  | none => .ok none
  | some text => if text = "" then .ok none
      else match newDate legacy text with
        | none => .error .database
        | some t => .ok (some t)

/-- A patch: `undefined` leaves the column, anything else replaces it. -/
def patch {α : Type} (field : Option α) (stored : α) : α := field.getD stored

end NolagCore
