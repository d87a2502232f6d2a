import Mathlib.Data.List.Basic

/-!
# Model.Uuid

The ids of the schema and the texts that callers write for them. PostgreSQL reads a uuid in several
spellings and prints it in one, so two arguments that a query cannot tell apart may be different
strings to the program.
-/

namespace NolagCore

/-! ## Ids as the database prints them -/

/-- The digits of a uuid as PostgreSQL prints them, with a hyphen behind the eighth, twelfth,
sixteenth and twentieth. Before these came `i` others. -/
def printDigits : Nat → List Char → List Char
  | _, [] => []
  | i, d :: digits =>
    if i = 8 ∨ i = 12 ∨ i = 16 ∨ i = 20 then '-' :: d :: printDigits (i + 1) digits
    else d :: printDigits (i + 1) digits

/-- The digits PostgreSQL reads: in either case, with a hyphen or none behind every fourth. -/
def readDigits : Nat → List Char → List Char
  | _, [] => []
  | _, [c] => [c.toLower]
  | i, c :: d :: rest =>
    if c = '-' ∧ i ≠ 0 ∧ i % 4 = 0 then d.toLower :: readDigits (i + 1) rest
    else c.toLower :: readDigits (i + 1) (d :: rest)

/-- PostgreSQL reads a uuid in braces as well. -/
def unbraced : List Char → List Char
  | '\x7b' :: rest => if rest.getLast? = some '\x7d' then rest.dropLast else '\x7b' :: rest
  | l => l

/-- The text of a `uuid` column as it is read from the database: its digits in lower case and the
hyphens between them. -/
structure Uuid where
  text : String
  nonempty : text ≠ ""
  noSlash : '/' ∉ text.toList
  noBrace : '\x7b' ∉ text.toList
  lower : text.toList.map Char.toLower = text.toList
  printed : printDigits 0 (text.toList.filter (· ≠ '-')) = text.toList
deriving DecidableEq

def Uuid.digits (id : Uuid) : List Char := id.text.toList.filter (· ≠ '-')

theorem Uuid.ext_text {a b : Uuid} (h : a.text = b.text) : a = b := by
  cases a
  cases b
  cases h
  rfl

theorem Uuid.ext_digits {a b : Uuid} (h : a.digits = b.digits) : a = b := by
  refine Uuid.ext_text (String.toList_inj.1 ?_)
  rw [← a.printed, ← b.printed]
  exact congrArg (printDigits 0) h

theorem mem_printDigits {digits : List Char} {i : Nat} {c : Char} (h : c ∈ printDigits i digits) :
    c = '-' ∨ c ∈ digits := by
  induction digits generalizing i with
  | nil => cases h
  | cons d digits ih =>
    unfold printDigits at h
    split at h
    · rcases List.mem_cons.1 h with rfl | h
      · exact .inl rfl
      · rcases List.mem_cons.1 h with rfl | h
        · exact .inr List.mem_cons_self
        · exact (ih h).imp_right (List.mem_cons_of_mem d)
    · rcases List.mem_cons.1 h with rfl | h
      · exact .inr List.mem_cons_self
      · exact (ih h).imp_right (List.mem_cons_of_mem d)

/-- Without the hyphens the digits are left. -/
theorem filter_printDigits {digits : List Char} (h : ∀ d ∈ digits, d ≠ '-') (i : Nat) :
    (printDigits i digits).filter (· ≠ '-') = digits := by
  induction digits generalizing i with
  | nil => rfl
  | cons d digits ih =>
    have hd := h d List.mem_cons_self
    have hrest := ih (fun e he => h e (List.mem_cons_of_mem d he)) (i + 1)
    unfold printDigits
    split
    · rw [List.filter_cons_of_neg (by decide), List.filter_cons_of_pos (by simpa using hd), hrest]
    · rw [List.filter_cons_of_pos (by simpa using hd), hrest]

/-- A character that may stand in a uuid for a digit. -/
def IsDigit (d : Char) : Prop := d ≠ '-' ∧ d ≠ '/' ∧ d ≠ '\x7b' ∧ d.toLower = d

theorem not_mem_printDigits {digits : List Char} {c : Char} (hc : c ≠ '-') (h : c ∉ digits) :
    c ∉ printDigits 0 digits := fun hm => (mem_printDigits hm).elim hc h

/-- The uuid of some digits. -/
def Uuid.ofDigits (digits : List Char) (hne : digits ≠ []) (h : ∀ d ∈ digits, IsDigit d) :
    Uuid where
  text := String.ofList (printDigits 0 digits)
  nonempty := by
    intro hempty
    have hnil : printDigits 0 digits = [] := by simpa using congrArg String.toList hempty
    rw [← filter_printDigits (fun d hd => (h d hd).1) 0, hnil] at hne
    exact hne rfl
  noSlash := by
    rw [String.toList_ofList]
    exact not_mem_printDigits (by decide) fun hm => (h _ hm).2.1 rfl
  noBrace := by
    rw [String.toList_ofList]
    exact not_mem_printDigits (by decide) fun hm => (h _ hm).2.2.1 rfl
  lower := by
    rw [String.toList_ofList]
    conv => rhs; rw [← List.map_id (printDigits 0 digits)]
    refine List.map_inj_left.2 fun c hm => ?_
    rcases mem_printDigits hm with rfl | hm
    · decide
    · exact (h c hm).2.2.2
  printed := by
    rw [String.toList_ofList, filter_printDigits fun d hd => (h d hd).1]

theorem Uuid.digits_ofDigits {digits : List Char} (hne : digits ≠ [])
    (h : ∀ d ∈ digits, IsDigit d) : (Uuid.ofDigits digits hne h).digits = digits := by
  unfold Uuid.digits Uuid.ofDigits
  rw [String.toList_ofList]
  exact filter_printDigits (fun d hd => (h d hd).1) 0

/-- A text that can stand in a `uuid` column. -/
def IsUuid (s : String) : Prop :=
  s ≠ "" ∧ '/' ∉ s.toList ∧ '\x7b' ∉ s.toList ∧ s.toList.map Char.toLower = s.toList ∧
    printDigits 0 (s.toList.filter (· ≠ '-')) = s.toList

instance (s : String) : Decidable (IsUuid s) := inferInstanceAs (Decidable (_ ∧ _))

theorem isUuid_zero : IsUuid "0" := by decide

def Uuid.ofText (s : String) (h : IsUuid s) : Uuid where
  text := s
  nonempty := h.1
  noSlash := h.2.1
  noBrace := h.2.2.1
  lower := h.2.2.2.1
  printed := h.2.2.2.2

/-- A uuid from a literal. -/
def Uuid.of (s : String) : Uuid :=
  if h : IsUuid s then .ofText s h else .ofText "0" isUuid_zero

/-! ## Ids as callers write them -/

theorem readDigits_cons {c : Char} (hc : c ≠ '-') (i : Nat) (l : List Char) :
    readDigits i (c :: l) = c.toLower :: readDigits (i + 1) l := by
  cases l with
  | nil => rfl
  | cons d rest => rw [readDigits, if_neg fun h => hc h.1]

/-- What is printed is read back. -/
theorem readDigits_printDigits (digits : List Char)
    (h : ∀ d ∈ digits, d ≠ '-' ∧ d.toLower = d) (i : Nat) :
    readDigits i (printDigits i digits) = digits := by
  induction digits generalizing i with
  | nil => rfl
  | cons d digits ih =>
    obtain ⟨hd, hlower⟩ := h d List.mem_cons_self
    have hrest := ih (fun e he => h e (List.mem_cons_of_mem d he)) (i + 1)
    by_cases hi : i = 8 ∨ i = 12 ∨ i = 16 ∨ i = 20
    · rw [printDigits, if_pos hi, readDigits, if_pos ⟨rfl, by omega⟩, hlower, hrest]
    · rw [printDigits, if_neg hi, readDigits_cons hd, hlower, hrest]

theorem Uuid.reads_text (id : Uuid) : readDigits 0 (unbraced id.text.toList) = id.digits := by
  have hunbraced : unbraced id.text.toList = id.text.toList := by
    unfold unbraced
    split
    · rename_i rest heq
      exact absurd (heq ▸ List.mem_cons_self) id.noBrace
    · rfl
  rw [hunbraced, ← id.printed]
  refine readDigits_printDigits _ (fun d hd => ?_) 0
  obtain ⟨hm, hne⟩ := List.mem_filter.1 hd
  exact ⟨of_decide_eq_true hne, List.map_inj_left.1 (id.lower.trans (List.map_id _).symm) d hm⟩

/-- An id argument as the caller wrote it. A query compares the uuid that the database reads, while
a comparison or a key of the program goes by the text. -/
structure IdText where
  text : String
  uuid : Uuid
  reads : readDigits 0 (unbraced text.toList) = uuid.digits

theorem IdText.ext_text {a b : IdText} (h : a.text = b.text) : a = b := by
  obtain ⟨text, uuid, reads⟩ := a
  obtain ⟨text', uuid', reads'⟩ := b
  cases h
  have huuid : uuid = uuid' := Uuid.ext_digits (reads.symm.trans reads')
  cases huuid
  rfl

/-- The id in the spelling of the database. -/
def Uuid.asStored (id : Uuid) : IdText where
  text := id.text
  uuid := id
  reads := id.reads_text

/-- The caller wrote the id as the database prints it. -/
def IdText.Stored (id : IdText) : Prop := id.text = id.uuid.text

instance (id : IdText) : Decidable id.Stored := inferInstanceAs (Decidable (_ = _))

/-- A text that some uuid prints as is the stored spelling. -/
theorem IdText.stored_of_text {id : IdText} {u : Uuid} (h : u.text = id.text) : id.Stored :=
  h.symm.trans (congrArg (fun a => a.uuid.text) (IdText.ext_text (a := u.asStored) h))

/-- An id from a literal in any spelling. -/
def IdText.of (s : String) : IdText :=
  if h : readDigits 0 (unbraced s.toList) =
      (Uuid.of (String.ofList (printDigits 0 (readDigits 0 (unbraced s.toList))))).digits then
    ⟨s, .of (String.ofList (printDigits 0 (readDigits 0 (unbraced s.toList)))), h⟩
  else (Uuid.of s).asStored

end NolagCore
