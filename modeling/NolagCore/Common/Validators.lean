import NolagCore.Common.Slug
import NolagCore.Lib.Text

/-!
# Common.Validators

The rules the DTOs put on slugs and topic names, and what an address needs of both: a part of an
address is not empty and does not contain the separator.
-/

namespace NolagCore

open Lib

/-- A text that can stand between two slashes of an address. -/
def Segment (text : String) : Prop := text ≠ "" ∧ '/' ∉ text.toList

instance (text : String) : Decidable (Segment text) := inferInstanceAs (Decidable (_ ∧ _))

/-- The alternation `[a-z0-9]+(?:-[a-z0-9]+)*`, from a group that has `started` or has not. -/
def slugGroups : (started : Bool) → List Char → Bool
  | started, [] => started
  | started, c :: l =>
    if isSlugChar c then slugGroups true l else decide (c = '-') && started && slugGroups false l

/-- `^[a-z0-9]+(?:-[a-z0-9]+)*$` of at most 100 characters: the slugs of apps, rooms and lobbies. -/
def isSlug (text : String) : Bool := slugGroups false text.toList && decide (text.length ≤ 100)

/-- `[a-z0-9-]` throughout, with no hyphen at either end. -/
def hasEdges (l : List Char) : Bool :=
  l.all (fun c => isSlugChar c || decide (c = '-')) && l.head?.any isSlugChar &&
    l.getLast?.any isSlugChar

/-- `^[a-z0-9][a-z0-9-]*[a-z0-9]$|^[a-z0-9]$` of at most 100 characters: the slug of a scope. -/
def isScopeSlug (text : String) : Bool := hasEdges text.toList && decide (text.length ≤ 100)

/-- `^[a-z0-9][a-z0-9-]{0,98}[a-z0-9]$|^[a-z0-9]$`: every slug of a document. -/
def isDocSlug (text : String) : Bool := hasEdges text.toList && decide (text.length ≤ 100)

/-- `[a-zA-Z0-9_:-]`. -/
def isTopicChar (c : Char) : Bool := c.isAlphanum || decide (c ∈ ['_', ':', '-'])

/-- `IsValidTopicName`. -/
def isValidTopicName (text : String) : Bool :=
  decide (text.length ≠ 0) && decide (text.length ≤ 100) && text.toList.all isTopicChar

/-! ## Segments -/

theorem slash_not_slugChar : isSlugChar '/' = false := by decide

theorem slash_not_topicChar : isTopicChar '/' = false := by decide

theorem segment_of_toList {text : String} (hne : text.toList ≠ []) (h : '/' ∉ text.toList) :
    Segment text := by
  refine ⟨?_, h⟩
  rintro rfl
  exact hne rfl

theorem slash_notMem_slugGroups {l : List Char} {started : Bool}
    (h : slugGroups started l = true) : '/' ∉ l := by
  induction l generalizing started with
  | nil => exact List.not_mem_nil
  | cons c l ih =>
    unfold slugGroups at h
    split at h
    · rename_i hc
      rw [List.mem_cons, not_or]
      refine ⟨?_, ih h⟩
      rintro rfl
      rw [slash_not_slugChar] at hc
      cases hc
    · simp only [Bool.and_eq_true, decide_eq_true_eq] at h
      rw [List.mem_cons, not_or]
      refine ⟨?_, ih h.2⟩
      rw [h.1.1]
      decide

theorem segment_of_slugGroups {text : String} (h : slugGroups false text.toList = true) :
    Segment text := by
  refine segment_of_toList ?_ (slash_notMem_slugGroups h)
  intro hnil
  rw [hnil] at h
  cases h

theorem segment_of_isSlug {text : String} (h : isSlug text = true) : Segment text :=
  segment_of_slugGroups (Bool.and_eq_true_iff.1 h).1

theorem segment_of_hasEdges {text : String} (h : hasEdges text.toList = true) : Segment text := by
  simp only [hasEdges, Bool.and_eq_true, List.all_eq_true] at h
  obtain ⟨⟨hall, hhead⟩, _⟩ := h
  refine segment_of_toList ?_ fun hmem => ?_
  · intro hnil
    rw [hnil] at hhead
    cases hhead
  · exact absurd (hall '/' hmem) (by decide)

theorem segment_of_isScopeSlug {text : String} (h : isScopeSlug text = true) : Segment text :=
  segment_of_hasEdges (Bool.and_eq_true_iff.1 h).1

theorem segment_of_isDocSlug {text : String} (h : isDocSlug text = true) : Segment text :=
  segment_of_hasEdges (Bool.and_eq_true_iff.1 h).1

theorem segment_of_isValidTopicName {text : String} (h : isValidTopicName text = true) :
    Segment text := by
  simp only [isValidTopicName, Bool.and_eq_true, decide_eq_true_eq, List.all_eq_true] at h
  obtain ⟨⟨hlen, _⟩, hall⟩ := h
  refine segment_of_toList ?_ fun hmem => ?_
  · intro hnil
    rw [← String.length_toList, hnil] at hlen
    exact hlen rfl
  · have hslash := hall '/' hmem
    rw [slash_not_topicChar] at hslash
    cases hslash

end NolagCore
