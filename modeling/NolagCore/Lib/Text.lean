/-!
# Lib.Text

`split` on a one-character separator, as JavaScript splits: always at least one part, empty parts
kept.
-/

namespace NolagCore
namespace Lib

/-- `text.split(sep)`. -/
def splitOn (sep : Char) (text : String) : List String :=
  (text.toList.splitOn sep).map String.ofList

theorem splitOn_of_notMem {sep : Char} {text : String} (h : sep ∉ text.toList) :
    splitOn sep text = [text] := by
  unfold splitOn
  rw [List.splitOn_eq_singleton h]
  simp

/-- A part free of the separator comes off the front. -/
theorem splitOn_append {sep : Char} {mark part rest : String} (hmark : mark.toList = [sep])
    (h : sep ∉ part.toList) :
    splitOn sep (part ++ mark ++ rest) = part :: splitOn sep rest := by
  unfold splitOn
  rw [String.toList_append, String.toList_append, hmark, List.append_assoc, List.singleton_append,
    List.splitOn_append_cons_self_of_not_mem h]
  simp

/-- Two parts come off the front of an address. -/
theorem splitOn_append_two {sep : Char} {mark a b rest : String} (hmark : mark.toList = [sep])
    (ha : sep ∉ a.toList) (hb : sep ∉ b.toList) :
    splitOn sep (a ++ mark ++ b ++ mark ++ rest) = a :: b :: splitOn sep rest := by
  have hassoc : a ++ mark ++ b ++ mark ++ rest = a ++ mark ++ (b ++ mark ++ rest) := by
    simp only [String.append_assoc]
  rw [hassoc, splitOn_append hmark ha, splitOn_append hmark hb]

theorem splitOn_append_three {sep : Char} {mark a b c rest : String} (hmark : mark.toList = [sep])
    (ha : sep ∉ a.toList) (hb : sep ∉ b.toList) (hc : sep ∉ c.toList) :
    splitOn sep (a ++ mark ++ b ++ mark ++ c ++ mark ++ rest) =
      a :: b :: c :: splitOn sep rest := by
  have hassoc : a ++ mark ++ b ++ mark ++ c ++ mark ++ rest =
      a ++ mark ++ (b ++ mark ++ c ++ mark ++ rest) := by
    simp only [String.append_assoc]
  rw [hassoc, splitOn_append hmark ha, splitOn_append_two hmark hb hc]

theorem notMem_of_mem_splitOn {sep : Char} {text : List Char} {part : List Char}
    (h : part ∈ text.splitOn sep) : sep ∉ part := by
  induction text generalizing part with
  | nil =>
    cases List.mem_singleton.1 h
    exact List.not_mem_nil
  | cons c text ih =>
    rw [List.splitOn_cons_eq_if_modifyHead] at h
    by_cases hc : c = sep
    · rw [if_pos (by simp [hc])] at h
      rcases List.mem_cons.1 h with rfl | h
      · exact List.not_mem_nil
      · exact ih h
    · rw [if_neg (by simp [hc])] at h
      cases hparts : text.splitOn sep with
      | nil => exact absurd hparts (List.splitOn_ne_nil sep text)
      | cons head tail =>
        rw [hparts, List.modifyHead_cons] at h
        rcases List.mem_cons.1 h with rfl | h
        · have hhead : sep ∉ head := ih (by rw [hparts]; exact List.mem_cons_self)
          simp [hhead, Ne.symm hc]
        · exact ih (by rw [hparts]; exact List.mem_cons_of_mem _ h)

/-- The parts are free of the separator. -/
theorem notMem_of_splitOn {sep : Char} {text part : String} (h : part ∈ splitOn sep text) :
    sep ∉ part.toList := by
  obtain ⟨chars, hchars, rfl⟩ := List.mem_map.1 h
  rw [String.toList_ofList]
  exact notMem_of_mem_splitOn hchars

/-- A text of two parts is the two with the separator between them. -/
theorem eq_of_splitOn_pair {sep : Char} {mark text a b : String} (hmark : mark.toList = [sep])
    (h : splitOn sep text = [a, b]) : text = a ++ mark ++ b := by
  have hjoin : [sep].intercalate (text.toList.splitOn sep) = text.toList :=
    List.intercalate_splitOn sep
  have hparts : text.toList.splitOn sep = [a.toList, b.toList] := by
    have hmap := congrArg (List.map String.toList) h
    simpa [splitOn, Function.comp_def] using hmap
  rw [hparts] at hjoin
  apply String.toList_inj.1
  rw [String.toList_append, String.toList_append, hmark, ← hjoin]
  simp

end Lib
end NolagCore
