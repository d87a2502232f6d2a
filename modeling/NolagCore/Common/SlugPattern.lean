import NolagCore.Common.Validators
import NolagCore.Lib.Pattern

/-!
# Common.SlugPattern

The three slug patterns of the DTOs as regular expressions, and that the checks of
`Common.Validators` decide them. `isSlug_iff`, `isScopeSlug_iff` and `isDocSlug_iff` are what the
rest uses.
-/

namespace NolagCore

open Lib.Pattern

/-- `[a-z0-9]`. -/
def slugChars : List Char := "abcdefghijklmnopqrstuvwxyz0123456789".toList

/-- `^[a-z0-9]+(?:-[a-z0-9]+)*$`: apps, rooms and lobbies. -/
def slugPattern : RegularExpression Char :=
  oneOrMore (oneOf slugChars) * (.char '-' * oneOrMore (oneOf slugChars)).star

/-- `^[a-z0-9][a-z0-9-]*[a-z0-9]$|^[a-z0-9]$`: access scopes. -/
def scopeSlugPattern : RegularExpression Char :=
  oneOf slugChars * (oneOf (slugChars ++ ['-'])).star * oneOf slugChars + oneOf slugChars

/-- `^[a-z0-9][a-z0-9-]{0,98}[a-z0-9]$|^[a-z0-9]$`: the slugs of a document. -/
def docSlugPattern : RegularExpression Char :=
  oneOf slugChars * upTo 98 (oneOf (slugChars ++ ['-'])) * oneOf slugChars + oneOf slugChars

theorem all_slugChars : slugChars.all isSlugChar = true := by decide +kernel

theorem mem_of_isSlugChar_ascii :
    ∀ n < 128, isSlugChar (Char.ofNat n) = true → Char.ofNat n ∈ slugChars := by
  decide +kernel

theorem mem_slugChars {c : Char} : c ∈ slugChars ↔ isSlugChar c = true := by
  constructor
  · exact List.all_eq_true.1 all_slugChars c
  · intro h
    have hlower : c.isLower = (decide (c.val ≥ 97) && decide (c.val ≤ 122)) := rfl
    have hdigit : c.isDigit = (decide (c.val ≥ 48) && decide (c.val ≤ 57)) := rfl
    have hlt : c.toNat < 128 := by
      rw [isSlugChar, hlower, hdigit] at h
      simp only [Bool.or_eq_true, Bool.and_eq_true, decide_eq_true_eq, UInt32.le_iff_toNat_le] at h
      show c.val.toNat < 128
      rcases h with ⟨-, h⟩ | ⟨-, h⟩
      · exact Nat.lt_of_le_of_lt h (by decide)
      · exact Nat.lt_of_le_of_lt h (by decide)
    have hchar := mem_of_isSlugChar_ascii c.toNat hlt
    rw [Char.ofNat_toNat] at hchar
    exact hchar h

theorem mem_slugChars_hyphen {c : Char} :
    c ∈ slugChars ++ ['-'] ↔ (isSlugChar c || decide (c = '-')) = true := by
  simp [mem_slugChars]

/-! ## Groups -/

@[simp] theorem slugGroups_hyphen (started : Bool) (l : List Char) :
    slugGroups started ('-' :: l) = (started && slugGroups false l) := by
  rw [slugGroups, if_neg (by decide)]
  simp

/-- A group of slug characters, and then what may follow one. -/
theorem slugGroups_append {w : List Char} (hw : ∀ c ∈ w, isSlugChar c = true) (rest : List Char) :
    slugGroups true (w ++ rest) = slugGroups true rest := by
  induction w with
  | nil => rfl
  | cons c w ih =>
    rw [List.cons_append, slugGroups, if_pos (hw c List.mem_cons_self)]
    exact ih fun d hd => hw d (List.mem_cons_of_mem c hd)

theorem slugGroups_group {w : List Char} (hne : w ≠ []) (hw : ∀ c ∈ w, isSlugChar c = true)
    (started : Bool) (rest : List Char) :
    slugGroups started (w ++ rest) = slugGroups true rest := by
  cases w with
  | nil => exact absurd rfl hne
  | cons c w =>
    rw [List.cons_append, slugGroups, if_pos (hw c List.mem_cons_self)]
    exact slugGroups_append (fun d hd => hw d (List.mem_cons_of_mem c hd)) rest

/-- A word over the slug characters, not empty. -/
theorem mem_group {w : List Char} : w ∈ (oneOrMore (oneOf slugChars)).matches' ↔
    w ≠ [] ∧ ∀ c ∈ w, isSlugChar c = true := by
  simp only [mem_oneOrMore_oneOf, mem_slugChars]

theorem mem_hyphenGroup {part : List Char} :
    part ∈ (.char '-' * oneOrMore (oneOf slugChars) : RegularExpression Char).matches' ↔
      ∃ w, part = '-' :: w ∧ w ≠ [] ∧ ∀ c ∈ w, isSlugChar c = true := by
  rw [RegularExpression.matches'_mul, Language.mem_mul]
  constructor
  · rintro ⟨hyphen, hhyphen, w, hw, rfl⟩
    obtain rfl : hyphen = ['-'] := hhyphen
    exact ⟨w, rfl, mem_group.1 hw⟩
  · rintro ⟨w, rfl, hw⟩
    exact ⟨['-'], rfl, w, mem_group.2 hw, rfl⟩

/-- Groups with a hyphen before each are what may follow a group. -/
theorem slugGroups_flatten {parts : List (List Char)}
    (h : ∀ part ∈ parts, ∃ w, part = '-' :: w ∧ w ≠ [] ∧ ∀ c ∈ w, isSlugChar c = true) :
    slugGroups true parts.flatten = true := by
  induction parts with
  | nil => rfl
  | cons part parts ih =>
    obtain ⟨w, rfl, hne, hw⟩ := h part List.mem_cons_self
    have hrest := ih fun p hp => h p (List.mem_cons_of_mem _ hp)
    rw [List.flatten_cons, List.cons_append, slugGroups_hyphen, slugGroups_group hne hw, hrest]
    rfl

/-- Any accepted text comes apart into a group and groups with a hyphen before each. -/
theorem exists_groups {l : List Char} {started : Bool} (h : slugGroups started l = true) :
    ∃ w parts, l = w ++ List.flatten parts ∧ (started = false → w ≠ []) ∧
      (∀ c ∈ w, isSlugChar c = true) ∧
      ∀ part ∈ parts, ∃ v, part = '-' :: v ∧ v ≠ [] ∧ ∀ c ∈ v, isSlugChar c = true := by
  induction l generalizing started with
  | nil =>
    refine ⟨[], [], rfl, ?_, by simp, by simp⟩
    rintro rfl
    cases h
  | cons c l ih =>
    unfold slugGroups at h
    split at h
    · rename_i hc
      obtain ⟨w, parts, rfl, -, hw, hparts⟩ := ih h
      refine ⟨c :: w, parts, rfl, by simp, ?_, hparts⟩
      intro d hd
      rcases List.mem_cons.1 hd with rfl | hd
      · exact hc
      · exact hw d hd
    · simp only [Bool.and_eq_true, decide_eq_true_eq] at h
      obtain ⟨⟨rfl, rfl⟩, h⟩ := h
      obtain ⟨w, parts, rfl, hne, hw, hparts⟩ := ih h
      refine ⟨[], ('-' :: w) :: parts, rfl, by simp, by simp, ?_⟩
      intro part hpart
      rcases List.mem_cons.1 hpart with rfl | hpart
      · exact ⟨w, rfl, hne rfl, hw⟩
      · exact hparts part hpart

theorem mem_slugPattern {l : List Char} :
    l ∈ slugPattern.matches' ↔ slugGroups false l = true := by
  unfold slugPattern
  rw [RegularExpression.matches'_mul, RegularExpression.matches'_star, Language.mem_mul]
  constructor
  · rintro ⟨w, hw, rest, hrest, rfl⟩
    obtain ⟨hne, hall⟩ := mem_group.1 hw
    obtain ⟨parts, rfl, hparts⟩ := Language.mem_kstar.1 hrest
    rw [slugGroups_group hne hall]
    exact slugGroups_flatten fun part hpart => mem_hyphenGroup.1 (hparts part hpart)
  · intro h
    obtain ⟨w, parts, rfl, hne, hw, hparts⟩ := exists_groups h
    refine ⟨w, mem_group.2 ⟨hne rfl, hw⟩, parts.flatten, ?_, rfl⟩
    exact Language.join_mem_kstar fun part hpart => mem_hyphenGroup.2 (hparts part hpart)

theorem isSlug_iff {text : String} :
    isSlug text = true ↔ text.toList ∈ slugPattern.matches' ∧ text.length ≤ 100 := by
  simp [isSlug, mem_slugPattern]

/-! ## Edges -/

/-- One slug character, or two with a middle between them. -/
theorem hasEdges_iff {l : List Char} : hasEdges l = true ↔
    (∃ a m b, l = a :: m ++ [b] ∧ isSlugChar a = true ∧ isSlugChar b = true ∧
      ∀ c ∈ m, c ∈ slugChars ++ ['-']) ∨ ∃ a, l = [a] ∧ isSlugChar a = true := by
  simp only [hasEdges, Bool.and_eq_true, List.all_eq_true, ← mem_slugChars_hyphen]
  constructor
  · rintro ⟨⟨hall, hhead⟩, hlast⟩
    cases l with
    | nil => cases hhead
    | cons a l =>
      have ha : isSlugChar a = true := by simpa using hhead
      cases l using List.reverseRecOn with
      | nil => exact .inr ⟨a, rfl, ha⟩
      | append_singleton m b =>
        have hb : isSlugChar b = true := by
          rw [← List.cons_append, List.getLast?_concat] at hlast
          simpa using hlast
        refine .inl ⟨a, m, b, rfl, ha, hb, fun c hc => hall c ?_⟩
        simp [hc]
  · rintro (⟨a, m, b, rfl, ha, hb, hm⟩ | ⟨a, rfl, ha⟩)
    · refine ⟨⟨fun c hc => ?_, by simpa using ha⟩, ?_⟩
      · simp only [List.cons_append, List.mem_cons, List.mem_append, List.not_mem_nil,
          or_false] at hc
        rcases hc with rfl | hc | rfl
        · exact mem_slugChars_hyphen.2 (by simp [ha])
        · exact hm c hc
        · exact mem_slugChars_hyphen.2 (by simp [hb])
      · rw [List.getLast?_concat]
        simpa using hb
    · refine ⟨⟨fun c hc => ?_, by simpa using ha⟩, by simpa using ha⟩
      rw [List.mem_singleton.1 hc]
      exact mem_slugChars_hyphen.2 (by simp [ha])

/-- Both alternatives of the patterns with edges, for any middle. -/
theorem mem_edges {middle : RegularExpression Char} {l : List Char} :
    l ∈ (oneOf slugChars * middle * oneOf slugChars + oneOf slugChars).matches' ↔
      (∃ a m b, l = a :: m ++ [b] ∧ isSlugChar a = true ∧ isSlugChar b = true ∧
        m ∈ middle.matches') ∨ ∃ a, l = [a] ∧ isSlugChar a = true := by
  rw [RegularExpression.matches'_add, Language.mem_add, RegularExpression.matches'_mul,
    RegularExpression.matches'_mul, Language.mem_mul]
  constructor
  · rintro (⟨front, hfront, last, hlast, rfl⟩ | hone)
    · obtain ⟨first, hfirst, m, hm, rfl⟩ := Language.mem_mul.1 hfront
      obtain ⟨a, ha, rfl⟩ := mem_oneOf.1 hfirst
      obtain ⟨b, hb, rfl⟩ := mem_oneOf.1 hlast
      exact .inl ⟨a, m, b, rfl, mem_slugChars.1 ha, mem_slugChars.1 hb, hm⟩
    · obtain ⟨a, ha, rfl⟩ := mem_oneOf.1 hone
      exact .inr ⟨a, rfl, mem_slugChars.1 ha⟩
  · rintro (⟨a, m, b, rfl, ha, hb, hm⟩ | ⟨a, rfl, ha⟩)
    · left
      refine ⟨a :: m, ?_, [b], mem_oneOf.2 ⟨b, mem_slugChars.2 hb, rfl⟩, rfl⟩
      exact Language.mem_mul.2 ⟨[a], mem_oneOf.2 ⟨a, mem_slugChars.2 ha, rfl⟩, m, hm, rfl⟩
    · exact .inr (mem_oneOf.2 ⟨a, mem_slugChars.2 ha, rfl⟩)

theorem isScopeSlug_iff {text : String} :
    isScopeSlug text = true ↔ text.toList ∈ scopeSlugPattern.matches' ∧ text.length ≤ 100 := by
  unfold isScopeSlug scopeSlugPattern
  rw [Bool.and_eq_true, decide_eq_true_eq, hasEdges_iff, mem_edges]
  simp only [mem_star_oneOf]

/-- The pattern of a document counts the characters by itself. -/
theorem isDocSlug_iff {text : String} :
    isDocSlug text = true ↔ text.toList ∈ docSlugPattern.matches' := by
  unfold isDocSlug docSlugPattern
  rw [Bool.and_eq_true, decide_eq_true_eq, hasEdges_iff, mem_edges, ← String.length_toList]
  simp only [mem_upTo_oneOf]
  constructor
  · rintro ⟨⟨a, m, b, htext, ha, hb, hm⟩ | hone, hlen⟩
    · rw [htext] at hlen
      simp only [List.cons_append, List.length_cons, List.length_append, List.length_nil] at hlen
      exact .inl ⟨a, m, b, htext, ha, hb, by omega, hm⟩
    · exact .inr hone
  · rintro (⟨a, m, b, htext, ha, hb, hlen, hm⟩ | ⟨a, htext, ha⟩)
    · refine ⟨.inl ⟨a, m, b, htext, ha, hb, hm⟩, ?_⟩
      rw [htext]
      simp only [List.cons_append, List.length_cons, List.length_append, List.length_nil]
      omega
    · refine ⟨.inr ⟨a, htext, ha⟩, ?_⟩
      rw [htext]
      simp

end NolagCore
