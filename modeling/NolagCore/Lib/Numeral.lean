import Mathlib.Data.List.DropRight
import NolagCore.Lib.Binary64

/-!
# Lib.Numeral

`Number(text)`: the text without the white space about it, read as a whole by the grammar of
numeric literals. The empty text is zero and what the grammar does not cover is `NaN`.
-/

namespace NolagCore
namespace Lib

/-- White space and line terminators. -/
def isSpace (c : Char) : Bool :=
  decide (c.toNat ∈ [9, 10, 11, 12, 13, 32, 0xA0, 0x1680, 0x2028, 0x2029, 0x202F, 0x205F, 0x3000,
    0xFEFF]) || (decide (0x2000 ≤ c.toNat) && decide (c.toNat ≤ 0x200A))

def trim (cs : List Char) : List Char := (cs.dropWhile isSpace).rdropWhile isSpace

/-- The value of a digit in any base up to sixteen. -/
def digit (c : Char) : Nat :=
  if '0' ≤ c ∧ c ≤ '9' then c.toNat - '0'.toNat
  else if 'a' ≤ c ∧ c ≤ 'f' then c.toNat - 'a'.toNat + 10
  else if 'A' ≤ c ∧ c ≤ 'F' then c.toNat - 'A'.toNat + 10
  else 16

/-- The digits of a base, appended to the number `n`. -/
def digits? (base : Nat) : Nat → List Char → Option Nat
  | n, [] => some n
  | n, c :: cs => if digit c < base then digits? base (base * n + digit c) cs else none

/-- One digit at least. -/
def digits1? (base : Nat) (cs : List Char) : Option Nat :=
  if cs = [] then none else digits? base 0 cs

/-- What follows the mantissa: nothing, or the mark and a whole number. -/
def exponent? : List Char → Option Int
  | [] => some 0
  | _ :: '+' :: cs => (digits1? 10 cs).map Int.ofNat
  | _ :: '-' :: cs => (digits1? 10 cs).map fun n => -(n : Int)
  | _ :: cs => (digits1? 10 cs).map Int.ofNat

/-- `whole.fraction` with an exponent: a digit on one side of the point at least. -/
def decimal? (cs : List Char) : Option ℚ :=
  let mantissa := cs.takeWhile fun c => decide (c ≠ 'e' ∧ c ≠ 'E')
  let whole := mantissa.takeWhile fun c => decide (c ≠ '.')
  let fraction := (mantissa.dropWhile fun c => decide (c ≠ '.')).drop 1
  match digits1? 10 (whole ++ fraction),
      exponent? (cs.dropWhile fun c => decide (c ≠ 'e' ∧ c ≠ 'E')) with
  | some n, some e => some (n * 10 ^ (e - fraction.length))
  | _, _ => none

def unsigned (negative : Bool) (cs : List Char) : Binary64 :=
  if cs = "Infinity".toList then .infinity negative
  else
    match decimal? cs with
    | some q => .ofRat (if negative then -q else q)
    | none => .nan

/-- A literal of another base: no sign, no fraction. -/
def radix (base : Nat) (cs : List Char) : Binary64 :=
  match digits1? base cs with
  | some n => .ofNat n
  | none => .nan

/-- `Number(text)`. -/
def stringToNumber (text : String) : Binary64 :=
  match trim text.toList with
  | [] => .ofNat 0
  | '0' :: 'x' :: cs => radix 16 cs
  | '0' :: 'X' :: cs => radix 16 cs
  | '0' :: 'o' :: cs => radix 8 cs
  | '0' :: 'O' :: cs => radix 8 cs
  | '0' :: 'b' :: cs => radix 2 cs
  | '0' :: 'B' :: cs => radix 2 cs
  | '+' :: cs => unsigned false cs
  | '-' :: cs => unsigned true cs
  | cs => unsigned false cs

/-! ## The numeral of a natural number -/

theorem toNat_of_isDigit {c : Char} (h : c.isDigit = true) : 48 ≤ c.toNat ∧ c.toNat ≤ 57 := by
  unfold Char.isDigit at h
  simp only [Bool.and_eq_true, decide_eq_true_eq, ge_iff_le, UInt32.le_iff_toNat_le] at h
  exact h

theorem digit_of_isDigit {c : Char} (h : c.isDigit = true) : digit c = c.toNat - '0'.toNat := by
  have hrange := toNat_of_isDigit h
  unfold digit
  rw [if_pos]
  exact ⟨Char.le_def.2 (UInt32.le_iff_toNat_le.2 hrange.1),
    Char.le_def.2 (UInt32.le_iff_toNat_le.2 hrange.2)⟩

theorem not_isSpace_of_isDigit {c : Char} (h : c.isDigit = true) : isSpace c = false := by
  have hrange := toNat_of_isDigit h
  unfold isSpace
  rw [Bool.or_eq_false_iff]
  constructor
  · rw [decide_eq_false_iff_not]
    intro hmem
    simp only [List.mem_cons, List.not_mem_nil, or_false] at hmem
    omega
  · rw [Bool.and_eq_false_iff]
    left
    rw [decide_eq_false_iff_not]
    omega

theorem digits?_of_isDigit {cs : List Char} (h : ∀ c ∈ cs, c.isDigit = true) (n : Nat) :
    digits? 10 n cs = some (Nat.ofDigitChars 10 cs n) := by
  induction cs generalizing n with
  | nil => rfl
  | cons c cs ih =>
    have hc := h c List.mem_cons_self
    have hrange := toNat_of_isDigit hc
    have hdigit := digit_of_isDigit hc
    unfold digits?
    rw [if_pos (by rw [hdigit]; show c.toNat - 48 < 10; omega), hdigit, Nat.ofDigitChars_cons]
    exact ih (fun c hc => h c (List.mem_cons_of_mem _ hc)) _

theorem takeWhile_eq_of_isDigit {cs : List Char} {p : Char → Bool}
    (h : ∀ c ∈ cs, c.isDigit = true) (hp : ∀ c : Char, c.isDigit = true → p c = true) :
    cs.takeWhile p = cs ∧ cs.dropWhile p = [] := by
  constructor
  · rw [List.takeWhile_eq_self_iff]
    exact fun c hc => hp c (h c hc)
  · rw [List.dropWhile_eq_nil_iff]
    exact fun c hc => hp c (h c hc)

theorem decimal?_of_isDigit {cs : List Char} (hne : cs ≠ [])
    (h : ∀ c ∈ cs, c.isDigit = true) : decimal? cs = some (Nat.ofDigitChars 10 cs 0) := by
  have hmark := takeWhile_eq_of_isDigit (p := fun c => decide (c ≠ 'e' ∧ c ≠ 'E')) h
    (by
      intro c hc
      rw [decide_eq_true_eq]
      constructor <;> rintro rfl <;> revert hc <;> decide)
  have hpoint := takeWhile_eq_of_isDigit (p := fun c => decide (c ≠ '.')) h
    (by
      intro c hc
      rw [decide_eq_true_eq]
      rintro rfl
      revert hc
      decide)
  unfold decimal?
  simp only [hmark.1, hmark.2, hpoint.1, hpoint.2, List.drop_nil, List.append_nil]
  unfold digits1?
  rw [if_neg hne, digits?_of_isDigit h]
  simp [exponent?]

theorem trim_of_isDigit {cs : List Char} (h : ∀ c ∈ cs, c.isDigit = true) : trim cs = cs := by
  have hdrop : cs.dropWhile isSpace = cs := by
    cases cs with
    | nil => rfl
    | cons c cs => simp [not_isSpace_of_isDigit (h c List.mem_cons_self)]
  unfold trim
  rw [hdrop, List.rdropWhile_eq_self_iff]
  intro hne hspace
  rw [not_isSpace_of_isDigit (h _ (List.getLast_mem hne))] at hspace
  cases hspace

theorem unsigned_of_isDigit {cs : List Char} (hne : cs ≠ [])
    (h : ∀ c ∈ cs, c.isDigit = true) :
    unsigned false cs = .ofNat (Nat.ofDigitChars 10 cs 0) := by
  have hword : cs ≠ "Infinity".toList := by
    rintro rfl
    exact absurd (h 'I' (by decide)) (by decide)
  unfold unsigned
  rw [if_neg hword, decimal?_of_isDigit hne h]
  rfl

/-- A natural number is read back from its numeral. -/
theorem stringToNumber_toString (n : Nat) : stringToNumber (toString n) = .ofNat n := by
  have hchars : (toString n).toList = Nat.toDigits 10 n := by
    rw [Nat.toString_eq_repr, Nat.toList_repr]
  have hdigits : ∀ c ∈ Nat.toDigits 10 n, c.isDigit = true := fun c hc =>
    Nat.isDigit_of_mem_toDigits (by decide) (by decide) hc
  have hread := unsigned_of_isDigit Nat.toDigits_ne_nil hdigits
  rw [Nat.ofDigitChars_ten_toDigits] at hread
  unfold stringToNumber
  rw [hchars, trim_of_isDigit hdigits]
  -- no sign and no mark of another base is among the digits
  split
  · rename_i hnil
    exact absurd hnil Nat.toDigits_ne_nil
  all_goals rename_i hcs
  all_goals try exact hread
  all_goals
    rw [hcs] at hdigits
    simp at hdigits

end Lib
end NolagCore
