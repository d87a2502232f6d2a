import Mathlib.Data.List.DropRight
import NolagCore.Common.SlugPattern

/-!
# Common.GeneratedSlug

What the facades make of a name is a legal segment of an address, and making a slug of a slug
changes nothing.

The replacement of runs by hyphens is followed from one character to the next: behind a slug
character the rest may go on or close the group, behind a hyphen it has to open one. Trimming is
what turns the last hyphen away.
-/

namespace NolagCore

/-- Without the hyphens at the end. -/
def trimEnd (l : List Char) : List Char := l.rdropWhile fun c => decide (c = '-')

/-- What `_generateSlug` makes of the lower case of a name. -/
def slugOf (lower : List Char) : List Char :=
  trimEnds (fun c => decide (c = '-')) (hyphenate false (trimEnds isTrimmed lower))

theorem generateSlug_eq (name : String) :
    generateSlug name = String.ofList (slugOf (name.toList.flatMap toLowerCase)) := rfl

theorem trimEnd_cons (c : Char) (l : List Char) :
    trimEnd (c :: l) = if trimEnd l = [] ∧ c = '-' then [] else c :: trimEnd l := by
  unfold trimEnd List.rdropWhile
  rw [List.reverse_cons, List.dropWhile_append]
  by_cases hnil : l.reverse.dropWhile (fun c => decide (c = '-')) = []
  · by_cases hc : c = '-' <;> simp [hnil, hc]
  · simp [hnil]

theorem trimEnd_cons_of_ne {c : Char} (hc : c ≠ '-') (l : List Char) :
    trimEnd (c :: l) = c :: trimEnd l := by
  rw [trimEnd_cons, if_neg fun h => hc h.2]

/-! ## Hyphens for runs -/

/-- Behind a hyphen nothing but a slug character comes next. -/
theorem hyphenate_true_head (l : List Char) : ∀ c ∈ (hyphenate true l).head?, c ≠ '-' := by
  induction l with
  | nil => simp [hyphenate]
  | cons c l ih =>
    unfold hyphenate
    split
    · rename_i hc
      rintro d hd rfl
      cases hd
      exact absurd hc (by decide)
    · exact ih

/-- Without its leading hyphen a text is what it would be behind one. -/
theorem dropWhile_hyphenate (inRun : Bool) (l : List Char) :
    (hyphenate inRun l).dropWhile (fun c => decide (c = '-')) = hyphenate true l := by
  have hstop : (hyphenate true l).dropWhile (fun c => decide (c = '-')) = hyphenate true l := by
    cases hl : hyphenate true l with
    | nil => rfl
    | cons c rest =>
      have hc : c ≠ '-' := hyphenate_true_head l c (by simp [hl])
      simp [hc]
  cases inRun with
  | true => exact hstop
  | false =>
    cases l with
    | nil => rfl
    | cons c l =>
      by_cases hc : isSlugChar c = true
      · have hsame : hyphenate false (c :: l) = hyphenate true (c :: l) := by
          simp [hyphenate, hc]
        rw [hsame, hstop]
      · have hnext : hyphenate true (c :: l) = hyphenate true l := by simp [hyphenate, hc]
        rw [hnext] at hstop ⊢
        simp [hyphenate, hc, hstop]

theorem hyphenate_true_dropWhile {p : Char → Bool} (hp : ∀ c, p c = true → isSlugChar c = false)
    (l : List Char) : hyphenate true (l.dropWhile p) = hyphenate true l := by
  induction l with
  | nil => rfl
  | cons c l ih =>
    by_cases hc : p c = true
    · rw [List.dropWhile_cons_of_pos hc, ih]
      simp [hyphenate, hp c hc]
    · rw [List.dropWhile_cons_of_neg hc]

/-- One more character at the end that is none of a slug changes nothing once trimmed. -/
theorem trimEnd_hyphenate_concat {x : Char} (hx : isSlugChar x = false) (l : List Char) :
    ∀ inRun, trimEnd (hyphenate inRun (l ++ [x])) = trimEnd (hyphenate inRun l) := by
  induction l with
  | nil => intro inRun; cases inRun <;> simp [hyphenate, hx, trimEnd]
  | cons c l ih =>
    intro inRun
    by_cases hc : isSlugChar c = true
    · simp [hyphenate, hc, trimEnd_cons, ih]
    · cases inRun <;> simp [hyphenate, hc, trimEnd_cons, ih]

theorem trimEnd_hyphenate_rdropWhile {p : Char → Bool}
    (hp : ∀ c, p c = true → isSlugChar c = false) (inRun : Bool) (l : List Char) :
    trimEnd (hyphenate inRun (l.rdropWhile p)) = trimEnd (hyphenate inRun l) := by
  induction l using List.reverseRecOn with
  | nil => rw [List.rdropWhile_nil]
  | append_singleton l x ih =>
    by_cases hx : p x = true
    · rw [List.rdropWhile_concat_pos p l x hx, ih, trimEnd_hyphenate_concat (hp x hx)]
    · rw [List.rdropWhile_concat_neg p l x hx]

/-- No white space is a slug character. -/
theorem not_slugChar_of_isTrimmed {c : Char} (h : isTrimmed c = true) : isSlugChar c = false := by
  cases hc : isSlugChar c with
  | false => rfl
  | true =>
    have hall : slugChars.all (fun c => !isTrimmed c) = true := by decide +kernel
    have hnot := List.all_eq_true.1 hall c (mem_slugChars.2 hc)
    simp [h] at hnot

/-- Trimming white space and trimming hyphens at the front come to starting inside a run. -/
theorem slugOf_eq (lower : List Char) : slugOf lower = trimEnd (hyphenate true lower) := by
  have htrim : ∀ (p : Char → Bool) (l : List Char), trimEnds p l = (l.dropWhile p).rdropWhile p :=
    fun _ _ => rfl
  have hspace : ∀ c, isTrimmed c = true → isSlugChar c = false := fun _ =>
    not_slugChar_of_isTrimmed
  unfold slugOf
  rw [htrim, dropWhile_hyphenate, htrim]
  show trimEnd (hyphenate true ((lower.dropWhile isTrimmed).rdropWhile isTrimmed)) = _
  rw [trimEnd_hyphenate_rdropWhile hspace, hyphenate_true_dropWhile hspace]

/-! ## Groups -/

/-- Behind a slug character the rest may follow a group; behind a hyphen it opens one. -/
theorem groups_hyphenate (l : List Char) :
    slugGroups true (trimEnd (hyphenate false l)) = true ∧
      (trimEnd (hyphenate true l) = [] ∨
        slugGroups false (trimEnd (hyphenate true l)) = true) := by
  induction l with
  | nil => exact ⟨rfl, .inl rfl⟩
  | cons c l ih =>
    by_cases hc : isSlugChar c = true
    · have hne : c ≠ '-' := by
        rintro rfl
        exact absurd hc (by decide)
      have hcons : ∀ inRun, trimEnd (hyphenate inRun (c :: l)) = c :: trimEnd (hyphenate false l) := by
        intro inRun
        simp only [hyphenate, if_pos hc]
        exact trimEnd_cons_of_ne hne _
      have hgroups : ∀ started, slugGroups started (c :: trimEnd (hyphenate false l)) = true := by
        intro started
        rw [slugGroups, if_pos hc]
        exact ih.1
      rw [hcons, hcons]
      exact ⟨hgroups true, .inr (hgroups false)⟩
    · have htrue : hyphenate true (c :: l) = hyphenate true l := by simp [hyphenate, hc]
      have hfalse : hyphenate false (c :: l) = '-' :: hyphenate true l := by simp [hyphenate, hc]
      rw [htrue, hfalse, trimEnd_cons]
      refine ⟨?_, ih.2⟩
      rcases ih.2 with hnil | hgroups
      · rw [if_pos ⟨hnil, rfl⟩]
        rfl
      · rw [if_neg]
        · rw [slugGroups_hyphen, hgroups]
          rfl
        · rintro ⟨hnil, -⟩
          rw [hnil] at hgroups
          cases hgroups

/-- A generated slug is empty or matches the pattern of slugs. -/
theorem slugGroups_generateSlug {name : String} (h : generateSlug name ≠ "") :
    slugGroups false (generateSlug name).toList = true := by
  rw [generateSlug_eq, slugOf_eq] at h ⊢
  rw [String.toList_ofList]
  rcases (groups_hyphenate (name.toList.flatMap toLowerCase)).2 with hnil | hgroups
  · rw [hnil] at h
    exact absurd rfl h
  · exact hgroups

/-! ## What the pattern excludes -/

theorem slugGroups_suffix {before after : List Char} {started : Bool}
    (h : slugGroups started (before ++ after) = true) :
    ∃ started', slugGroups started' after = true := by
  induction before generalizing started with
  | nil => exact ⟨started, h⟩
  | cons c before ih =>
    rw [List.cons_append, slugGroups] at h
    split at h
    · exact ih h
    · simp only [Bool.and_eq_true] at h
      exact ih h.2

theorem not_doubled {l : List Char} {started : Bool} (h : slugGroups started l = true) :
    ¬ ['-', '-'] <:+: l := by
  rintro ⟨before, after, rfl⟩
  rw [List.append_assoc] at h
  obtain ⟨started', hsuffix⟩ := slugGroups_suffix h
  simp at hsuffix

theorem not_leading {l : List Char} (h : slugGroups false l = true) : l.head? ≠ some '-' := by
  cases l with
  | nil => simp
  | cons c l =>
    rw [List.head?_cons]
    rintro hc
    cases hc
    simp at h

theorem not_trailing {l : List Char} {started : Bool} (h : slugGroups started l = true) :
    l.getLast? ≠ some '-' := by
  intro hlast
  obtain ⟨before, rfl⟩ := List.getLast?_eq_some_iff.1 hlast
  obtain ⟨started', hsuffix⟩ := slugGroups_suffix h
  rw [slugGroups_hyphen] at hsuffix
  simp [slugGroups] at hsuffix

theorem chars_of_slugGroups {l : List Char} {started : Bool} (h : slugGroups started l = true) :
    ∀ c ∈ l, isSlugChar c = true ∨ c = '-' := by
  induction l generalizing started with
  | nil => simp
  | cons c l ih =>
    rw [slugGroups] at h
    intro d hd
    split at h
    · rename_i hc
      rcases List.mem_cons.1 hd with rfl | hd
      · exact .inl hc
      · exact ih h d hd
    · simp only [Bool.and_eq_true, decide_eq_true_eq] at h
      rcases List.mem_cons.1 hd with rfl | hd
      · exact .inr h.1.1
      · exact ih h.2 d hd

theorem hasEdges_of_slugGroups {l : List Char} (h : slugGroups false l = true) :
    hasEdges l = true := by
  have hchars := chars_of_slugGroups h
  have hedge : ∀ c, isSlugChar c = true ∨ c = '-' → some c ≠ some '-' → isSlugChar c = true := by
    rintro c (hc | rfl) hne
    · exact hc
    · exact absurd rfl hne
  simp only [hasEdges, Bool.and_eq_true, List.all_eq_true, Bool.or_eq_true, decide_eq_true_eq]
  refine ⟨⟨hchars, ?_⟩, ?_⟩
  · cases hl : l.head? with
    | none =>
      rw [List.head?_eq_none_iff] at hl
      subst hl
      cases h
    | some c =>
      have hne := not_leading h
      rw [hl] at hne
      exact hedge c (hchars c (List.mem_of_mem_head? hl)) hne
  · cases hl : l.getLast? with
    | none =>
      rw [List.getLast?_eq_none_iff] at hl
      subst hl
      cases h
    | some c =>
      have hne := not_trailing h
      rw [hl] at hne
      exact hedge c (hchars c (List.mem_of_getLast? hl)) hne

/-! ## Slugs of slugs -/

theorem toLowerCase_slugChar {c : Char} (hc : c ∈ slugChars ++ ['-']) : toLowerCase c = [c] := by
  have hall : (slugChars ++ ['-']).all (fun c => decide (toLowerCase c = [c])) = true := by
    decide +kernel
  exact of_decide_eq_true (List.all_eq_true.1 hall c hc)

theorem flatMap_toLowerCase {l : List Char} (h : ∀ c ∈ l, isSlugChar c = true ∨ c = '-') :
    l.flatMap toLowerCase = l := by
  induction l with
  | nil => rfl
  | cons c l ih =>
    have hc : c ∈ slugChars ++ ['-'] := by
      rw [List.mem_append, mem_slugChars, List.mem_singleton]
      exact h c List.mem_cons_self
    rw [List.flatMap_cons, toLowerCase_slugChar hc, ih fun d hd => h d (List.mem_cons_of_mem c hd)]
    rfl

/-- Single hyphens between groups are replaced by themselves. -/
theorem hyphenate_groups (l : List Char) :
    (slugGroups true l = true → hyphenate false l = l) ∧
      (slugGroups false l = true → hyphenate true l = l) := by
  induction l with
  | nil => exact ⟨fun _ => rfl, fun _ => rfl⟩
  | cons c l ih =>
    by_cases hc : isSlugChar c = true
    · have hcons : ∀ started inRun, slugGroups started (c :: l) = true →
          hyphenate inRun (c :: l) = c :: l := by
        intro started inRun h
        rw [slugGroups, if_pos hc] at h
        rw [hyphenate, if_pos hc, ih.1 h]
      exact ⟨hcons true false, hcons false true⟩
    · constructor
      · intro h
        rw [slugGroups, if_neg hc] at h
        simp only [Bool.and_eq_true, decide_eq_true_eq] at h
        rw [hyphenate, if_neg hc, ih.2 h.2, h.1.1]
        rfl
      · intro h
        rw [slugGroups, if_neg hc] at h
        simp at h

theorem trimEnd_of_not_trailing {l : List Char} (h : l.getLast? ≠ some '-') : trimEnd l = l := by
  unfold trimEnd
  rw [List.rdropWhile_eq_self_iff]
  intro hne
  rw [List.getLast?_eq_some_getLast hne] at h
  simpa using h

/-- A text the pattern accepts is its own slug. -/
theorem generateSlug_of_groups {text : String} (h : slugGroups false text.toList = true) :
    generateSlug text = text := by
  rw [generateSlug_eq, flatMap_toLowerCase (chars_of_slugGroups h), slugOf_eq,
    (hyphenate_groups text.toList).2 h, trimEnd_of_not_trailing (not_trailing h),
    String.ofList_toList]

theorem generateAppSlug_of_groups {text : String} (h : slugGroups false text.toList = true) :
    generateAppSlug text = text := by
  unfold generateAppSlug
  rw [generateSlug_of_groups h, if_neg]
  rintro rfl
  cases h

/-! ## Legal segments -/

/-- What an address, the create DTOs and a document ask of a slug. -/
structure LegalSegment (slug : String) : Prop where
  pattern : slug.toList ∈ slugPattern.matches'
  noSlash : '/' ∉ slug.toList
  noDoubled : ¬ ['-', '-'] <:+: slug.toList
  noLeading : slug.toList.head? ≠ some '-'
  noTrailing : slug.toList.getLast? ≠ some '-'
  createDto : slug.length ≤ 100 → isSlug slug = true ∧ isScopeSlug slug = true
  document : slug.length ≤ 100 →
    slug.toList ∈ docSlugPattern.matches' ∧ isDocSlug slug = true

theorem legalSegment_of_groups {slug : String} (h : slugGroups false slug.toList = true) :
    LegalSegment slug where
  pattern := mem_slugPattern.2 h
  noSlash := slash_notMem_slugGroups h
  noDoubled := not_doubled h
  noLeading := not_leading h
  noTrailing := not_trailing h
  createDto hlen := by
    refine ⟨isSlug_iff.2 ⟨mem_slugPattern.2 h, hlen⟩, ?_⟩
    simp [isScopeSlug, hasEdges_of_slugGroups h, hlen]
  document hlen := by
    have hdoc : isDocSlug slug = true := by simp [isDocSlug, hasEdges_of_slugGroups h, hlen]
    exact ⟨isDocSlug_iff.1 hdoc, hdoc⟩

theorem slugGroups_generateAppSlug (name : String) :
    slugGroups false (generateAppSlug name).toList = true := by
  unfold generateAppSlug
  split
  · decide
  · rename_i hne
    exact slugGroups_generateSlug hne

theorem segment_of_generateSlug {name : String} (h : generateSlug name ≠ "") :
    Segment (generateSlug name) :=
  segment_of_slugGroups (slugGroups_generateSlug h)

theorem segment_of_generateAppSlug (name : String) : Segment (generateAppSlug name) :=
  segment_of_slugGroups (slugGroups_generateAppSlug name)

theorem generateSlug_empty : generateSlug "" = "" := by decide

/-- Every name: its slug is empty, for an app never, or legal, and is its own slug. -/
theorem generated_slug_legal (name : String) :
    (generateSlug name = "" ∨ LegalSegment (generateSlug name)) ∧
      generateAppSlug name ≠ "" ∧ LegalSegment (generateAppSlug name) ∧
      generateSlug (generateSlug name) = generateSlug name ∧
      generateAppSlug (generateAppSlug name) = generateAppSlug name ∧
      generateSlug (generateAppSlug name) = generateAppSlug name ∧
      (generateSlug name ≠ "" → generateAppSlug (generateSlug name) = generateSlug name) := by
  have happ := slugGroups_generateAppSlug name
  refine ⟨?_, ?_, legalSegment_of_groups happ, ?_, generateAppSlug_of_groups happ,
    generateSlug_of_groups happ, fun hne => generateAppSlug_of_groups (slugGroups_generateSlug hne)⟩
  · by_cases hempty : generateSlug name = ""
    · exact .inl hempty
    · exact .inr (legalSegment_of_groups (slugGroups_generateSlug hempty))
  · intro hempty
    rw [hempty] at happ
    cases happ
  · by_cases hempty : generateSlug name = ""
    · rw [hempty, generateSlug_empty]
    · exact generateSlug_of_groups (slugGroups_generateSlug hempty)

end NolagCore
