import Mathlib.Algebra.Group.Nat.Defs
import Mathlib.Data.List.Basic

/-!
# Lib.IsoDate

Instants as text: `toISOString` prints the milliseconds since the epoch, `newDate` reads them back.
What `new Date` makes of a text that `toISOString` never prints is left to the implementation, so
it is a parameter.

The calendar is the proleptic Gregorian one, counted in eras of four hundred years that start in
March, so that a leap day is the last day of its year.
-/

namespace NolagCore
namespace Lib

/-! ## The calendar -/

structure CivilDate where
  year : Int
  month : Int
  day : Int
deriving DecidableEq

/-- The year of the era a day of the era falls in: centuries, then four-year cycles, then years. -/
def yearOfEra (doe : Int) : Int :=
  let c := min (doe / 36524) 3
  let r := doe - 36524 * c
  100 * c + 4 * (r / 1461) + min (r % 1461 / 365) 3

/-- The first day of a year of the era. -/
def startOfYear (yoe : Int) : Int := 365 * yoe + yoe / 4 - yoe / 100

/-- Months counted from March. -/
def monthOfIndex (mp : Int) : Int := if mp < 10 then mp + 3 else mp - 9

def indexOfMonth (month : Int) : Int := if month > 2 then month - 3 else month + 9

/-- January and February belong to the year that started in the previous March. -/
def carry (month : Int) : Int := if month ≤ 2 then 1 else 0

def civilOfDays (days : Int) : CivilDate :=
  let doe := (days + 719468) % 146097
  let yoe := yearOfEra doe
  let doy := doe - startOfYear yoe
  let mp := (5 * doy + 2) / 153
  { year := yoe + (days + 719468) / 146097 * 400 + carry (monthOfIndex mp)
    month := monthOfIndex mp
    day := doy - (153 * mp + 2) / 5 + 1 }

def daysOfCivil (d : CivilDate) : Int :=
  let y := d.year - carry d.month
  let mp := indexOfMonth d.month
  y / 400 * 146097 + startOfYear (y % 400) + (153 * mp + 2) / 5 + d.day - 1 - 719468

theorem indexOfMonth_monthOfIndex {mp : Int} (h0 : 0 ≤ mp) (h1 : mp < 12) :
    indexOfMonth (monthOfIndex mp) = mp := by
  unfold indexOfMonth monthOfIndex
  split <;> split <;> omega

theorem startOfYear_split {c q y : Int} (hq : 0 ≤ q ∧ q ≤ 24) (hy : 0 ≤ y ∧ y ≤ 3) :
    startOfYear (100 * c + 4 * q + y) = 36524 * c + 1461 * q + 365 * y := by
  unfold startOfYear
  have h4 : (100 * c + 4 * q + y) / 4 = 25 * c + q := by omega
  have h100 : (100 * c + 4 * q + y) / 100 = c := by omega
  omega

theorem yearOfEra_bounds (doe : Int) (h0 : 0 ≤ doe) (h1 : doe < 146097) :
    0 ≤ yearOfEra doe ∧ yearOfEra doe < 400 ∧
      0 ≤ doe - startOfYear (yearOfEra doe) ∧ doe - startOfYear (yearOfEra doe) < 366 := by
  unfold yearOfEra
  simp only
  have hc : 0 ≤ min (doe / 36524) 3 ∧ min (doe / 36524) 3 ≤ 3 := by omega
  have hr : 0 ≤ doe - 36524 * min (doe / 36524) 3 ∧
      doe - 36524 * min (doe / 36524) 3 ≤ 36524 := by omega
  generalize hr' : doe - 36524 * min (doe / 36524) 3 = r at hr ⊢
  generalize min (doe / 36524) 3 = c at *
  have hq : 0 ≤ r / 1461 ∧ r / 1461 ≤ 24 := by omega
  have hy : 0 ≤ min (r % 1461 / 365) 3 ∧ min (r % 1461 / 365) 3 ≤ 3 := by omega
  rw [startOfYear_split hq hy]
  omega

/-- The month and day a date prints are two-digit numbers. -/
theorem civilOfDays_bounds (days : Int) :
    1 ≤ (civilOfDays days).month ∧ (civilOfDays days).month ≤ 12 ∧
      1 ≤ (civilOfDays days).day ∧ (civilOfDays days).day ≤ 31 := by
  have hb := yearOfEra_bounds ((days + 719468) % 146097) (by omega) (by omega)
  simp only [civilOfDays]
  generalize (days + 719468) % 146097 - startOfYear (yearOfEra ((days + 719468) % 146097)) = doy at *
  unfold monthOfIndex
  split <;> omega

theorem daysOfCivil_civilOfDays (days : Int) : daysOfCivil (civilOfDays days) = days := by
  have hb := yearOfEra_bounds ((days + 719468) % 146097) (by omega) (by omega)
  have hz := Int.mul_ediv_add_emod (days + 719468) 146097
  simp only [civilOfDays, daysOfCivil, Int.add_sub_cancel]
  generalize (days + 719468) % 146097 = doe at *
  generalize yearOfEra doe = yoe at *
  have hera : (yoe + (days + 719468) / 146097 * 400) / 400 = (days + 719468) / 146097 := by omega
  have hyoe : (yoe + (days + 719468) / 146097 * 400) % 400 = yoe := by omega
  rw [hera, hyoe, indexOfMonth_monthOfIndex (by omega) (by omega)]
  omega

/-! ## Decimal fields -/

def decimalDigits : List Char := "0123456789".toList

/-- `n` in exactly `w` decimal digits, the leading ones dropped. -/
def pad : Nat → Nat → List Char
  | 0, _ => []
  | w + 1, n => pad w (n / 10) ++ [decimalDigits.getD (n % 10) '0']

/-- The number a list of digits spells; a character that is no digit counts as ten. -/
def number (l : List Char) : Nat := l.foldl (fun n c => 10 * n + decimalDigits.idxOf c) 0

@[simp] theorem length_pad (w n : Nat) : (pad w n).length = w := by
  induction w generalizing n with
  | zero => rfl
  | succ w ih => simp [pad, ih]

theorem idxOf_digit {k : Nat} (h : k < 10) :
    decimalDigits.idxOf (decimalDigits.getD k '0') = k := by
  have hall : ∀ k : Fin 10, decimalDigits.idxOf (decimalDigits.getD k '0') = k := by decide
  exact hall ⟨k, h⟩

theorem number_pad {w n : Nat} (h : n < 10 ^ w) : number (pad w n) = n := by
  induction w generalizing n with
  | zero => simp only [Nat.pow_zero, Nat.lt_one_iff] at h; subst h; rfl
  | succ w ih =>
    have hq : number (pad w (n / 10)) = n / 10 := ih (by rw [Nat.pow_succ] at h; omega)
    unfold number at hq ⊢
    rw [pad, List.foldl_append, hq]
    simp only [List.foldl_cons, List.foldl_nil]
    rw [idxOf_digit (Nat.mod_lt n (by omega))]
    omega

/-! ## Instants -/

def msPerDay : Int := 86400000

/-- The largest magnitude a time value may have. -/
def maxTime : Int := 8640000000000000

def yearText (y : Int) : List Char :=
  if 0 ≤ y ∧ y ≤ 9999 then pad 4 y.toNat
  else (if y < 0 then '-' else '+') :: pad 6 y.natAbs

def timeText (ms : Nat) : List Char :=
  'T' :: pad 2 (ms / 3600000) ++ ':' :: pad 2 (ms / 60000 % 60) ++ ':' :: pad 2 (ms / 1000 % 60) ++
    '.' :: pad 3 (ms % 1000) ++ ['Z']

def isoText (t : Int) : List Char :=
  let d := civilOfDays (t / msPerDay)
  yearText d.year ++ '-' :: pad 2 d.month.toNat ++ '-' :: pad 2 d.day.toNat ++
    timeText (t % msPerDay).toNat

/-- `date.toISOString()`, which throws outside the range of time values. -/
def toISOString (t : Int) : Option String :=
  if -maxTime ≤ t ∧ t ≤ maxTime then some (String.ofList (isoText t)) else none

/-- The instant spelled by a year and the twenty characters that follow it. -/
def instantOf (year : Int) (rest : List Char) : Int :=
  let field (i w : Nat) : Int := number ((rest.drop i).take w)
  daysOfCivil { year := year, month := field 1 2, day := field 4 2 } * msPerDay +
    field 7 2 * 3600000 + field 10 2 * 60000 + field 13 2 * 1000 + field 16 3

/-- The instant `toISOString` may have printed as `l`. -/
def candidate (l : List Char) : Int :=
  if l.head? = some '+' then instantOf (number ((l.drop 1).take 6)) (l.drop 7)
  else if l.head? = some '-' then instantOf (-number ((l.drop 1).take 6)) (l.drop 7)
  else instantOf (number (l.take 4)) (l.drop 4)

/-- `new Date(text)`: `none` is an invalid date. -/
def newDate (legacy : String → Option Int) (text : String) : Option Int :=
  if toISOString (candidate text.toList) = some text then some (candidate text.toList)
  else legacy text

/-- The fields sit where `instantOf` looks for them. -/
theorem instantOf_fields (year : Int) (m d h mi s ms : Nat) :
    instantOf year ('-' :: pad 2 m ++ '-' :: pad 2 d ++ ('T' :: pad 2 h ++ ':' :: pad 2 mi ++
      ':' :: pad 2 s ++ '.' :: pad 3 ms ++ ['Z'])) =
      daysOfCivil { year := year, month := number (pad 2 m), day := number (pad 2 d) } * msPerDay +
        number (pad 2 h) * 3600000 + number (pad 2 mi) * 60000 + number (pad 2 s) * 1000 +
        number (pad 3 ms) := rfl

theorem instantOf_isoText (t : Int) :
    instantOf (civilOfDays (t / msPerDay)).year
      ('-' :: pad 2 (civilOfDays (t / msPerDay)).month.toNat ++
        '-' :: pad 2 (civilOfDays (t / msPerDay)).day.toNat ++ timeText (t % msPerDay).toNat) = t := by
  obtain ⟨hm1, hm2, hd1, hd2⟩ := civilOfDays_bounds (t / msPerDay)
  have hday := daysOfCivil_civilOfDays (t / msPerDay)
  have hsplit := Int.mul_ediv_add_emod t msPerDay
  have hms : 0 ≤ t % msPerDay ∧ t % msPerDay < 86400000 := by unfold msPerDay; omega
  generalize civilOfDays (t / msPerDay) = d at *
  obtain ⟨ms, hr⟩ := Int.eq_ofNat_of_zero_le hms.1
  rw [hr] at hms hsplit ⊢
  rw [timeText, instantOf_fields, number_pad (by omega), number_pad (by omega),
    number_pad (by simp; omega), number_pad (by omega), number_pad (by omega),
    number_pad (by omega)]
  rw [Int.toNat_of_nonneg (by omega), Int.toNat_of_nonneg (by omega), hday]
  simp only [Int.toNat_natCast]
  have hclock : ((ms / 3600000 : Nat) : Int) * 3600000 + ((ms / 60000 % 60 : Nat) : Int) * 60000 +
      ((ms / 1000 % 60 : Nat) : Int) * 1000 + ((ms % 1000 : Nat) : Int) = ms := by omega
  have hcomm := Int.mul_comm (t / msPerDay) msPerDay
  omega

/-- The year of a time value has at most six digits. -/
theorem year_bounds {t : Int} (h0 : -maxTime ≤ t) (h1 : t ≤ maxTime) :
    (civilOfDays (t / msPerDay)).year.natAbs < 10 ^ 6 := by
  unfold maxTime at h0 h1
  obtain ⟨hb0, hb1, _⟩ :=
    yearOfEra_bounds ((t / msPerDay + 719468) % 146097) (by omega) (by omega)
  simp only [civilOfDays]
  have hcarry : ∀ month, 0 ≤ carry month ∧ carry month ≤ 1 := by
    intro month
    unfold carry
    split <;> omega
  have hc := hcarry (monthOfIndex ((5 * ((t / msPerDay + 719468) % 146097 -
    startOfYear (yearOfEra ((t / msPerDay + 719468) % 146097))) + 2) / 153))
  unfold msPerDay at *
  omega

theorem digit_ne_sign (k : Nat) : decimalDigits.getD (k % 10) '0' ≠ '+' ∧
    decimalDigits.getD (k % 10) '0' ≠ '-' := by
  have hall : ∀ k : Fin 10, decimalDigits.getD k '0' ≠ '+' ∧ decimalDigits.getD k '0' ≠ '-' := by
    decide
  exact hall ⟨k % 10, Nat.mod_lt k (by omega)⟩

/-- A year in digits carries no sign. -/
theorem head?_pad (w n : Nat) (rest : List Char) :
    (pad (w + 1) n ++ rest).head? ≠ some '+' ∧ (pad (w + 1) n ++ rest).head? ≠ some '-' := by
  induction w generalizing n rest with
  | zero =>
    simp only [pad, List.nil_append, List.cons_append, List.head?_cons, ne_eq, Option.some.injEq]
    exact digit_ne_sign n
  | succ w ih =>
    rw [pad, List.append_assoc]
    exact ih (n / 10) _

theorem take_pad (w n : Nat) (rest : List Char) : (pad w n ++ rest).take w = pad w n :=
  List.take_left' (length_pad w n)

theorem drop_pad (w n : Nat) (rest : List Char) : (pad w n ++ rest).drop w = rest :=
  List.drop_left' (length_pad w n)

theorem candidate_yearText {y : Int} (hy : y.natAbs < 10 ^ 6) (rest : List Char) :
    candidate (yearText y ++ rest) = instantOf y rest := by
  unfold yearText candidate
  by_cases hshort : 0 ≤ y ∧ y ≤ 9999
  · obtain ⟨hp, hm⟩ := head?_pad 3 y.toNat rest
    rw [if_pos hshort, if_neg hp, if_neg hm, take_pad, drop_pad, number_pad (by omega),
      Int.toNat_of_nonneg hshort.1]
  · rw [if_neg hshort]
    by_cases hneg : y < 0
    · rw [if_pos hneg]
      simp only [List.cons_append, List.head?_cons, List.drop_succ_cons, List.drop_zero]
      rw [if_neg (by decide), if_pos trivial, take_pad, drop_pad, number_pad hy,
        show (-(y.natAbs : Int)) = y by omega]
    · rw [if_neg hneg]
      simp only [List.cons_append, List.head?_cons, List.drop_succ_cons, List.drop_zero]
      rw [if_pos trivial, take_pad, drop_pad, number_pad hy, show ((y.natAbs : Nat) : Int) = y by omega]

theorem candidate_isoText {t : Int} (h0 : -maxTime ≤ t) (h1 : t ≤ maxTime) :
    candidate (isoText t) = t := by
  have htext := instantOf_isoText t
  unfold isoText
  simp only [List.append_assoc, List.cons_append] at htext ⊢
  rw [candidate_yearText (year_bounds h0 h1), htext]

/-- What `toISOString` prints is read back, whatever the implementation does with other texts. -/
theorem newDate_toISOString (legacy : String → Option Int) {t : Int} {text : String}
    (h : toISOString t = some text) : newDate legacy text = some t := by
  have hc : candidate text.toList = t := by
    unfold toISOString at h
    split at h
    · rename_i hr
      cases h
      rw [String.toList_ofList]
      exact candidate_isoText hr.1 hr.2
    · cases h
  unfold newDate
  rw [hc, if_pos h]

end Lib
end NolagCore
